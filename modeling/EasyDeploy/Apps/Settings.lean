import Mathlib.Data.List.DropRight
import EasyDeploy.Foundation.Table
import EasyDeploy.Foundation.Writes
import EasyDeploy.Apps.SnapshotRestore

/-!
# The settings of applications

`update_app_metadata` and `update_app_config` check their input, write the files
of the application one after the other, and then change the tables in one
transaction. The files are not put back when a later write or the transaction
fails. The texts of the metadata and of the unit files are parameters.
-/

namespace EasyDeploy.Apps
open Foundation

/-- The scripts of a deployment. -/
inductive ScriptStage
  | preDeploy
  | deploy
  | postDeploy
  | switchTraffic
  | cleanup
deriving Repr, DecidableEq

/-- The files below the runtime root of an application. -/
inductive RuntimePath
  | compose
  | env
  | script (stage : ScriptStage)
  | metadata
  | systemd (name : String)
  | release (version : String)
  | current
deriving Repr, DecidableEq

/-- The files with the configuration that a user writes. -/
def RuntimePath.configured : RuntimePath → Bool
  | .compose | .env | .script _ => true
  | _ => false

/-- The directories of an application. -/
inductive RuntimeDir
  | metadata
  | scripts
  | release
  | systemd
deriving Repr, DecidableEq

/-- The runtime files, as far as they exist. -/
abbrev RuntimeStore := RuntimePath → Option String

/-- A step that writes or removes runtime files. -/
abbrev FileStep := WriteStep RuntimePath RuntimeDir (Option String) String

/-- The faults that such steps meet. -/
abbrev FileFailures := WriteFailures RuntimePath RuntimeDir (Option String) String

/-- The script of a stage. -/
def DeployScriptSet.get (scripts : DeployScriptSet) : ScriptStage → String
  | .preDeploy => scripts.preDeploy
  | .deploy => scripts.deploy
  | .postDeploy => scripts.postDeploy
  | .switchTraffic => scripts.switchTraffic
  | .cleanup => scripts.cleanup

/-- `write_optional_file` removes a blank file. -/
def writeOptionalFile (path : RuntimePath) (content : String) : FileStep :=
  .put path (if Blank content then none else some content)

/-- A file gets new content. -/
def writeFile (path : RuntimePath) (content : String) : FileStep := .put path (some content)

/-- `read_optional_file`. -/
def readOptionalFile (store : RuntimeStore) (path : RuntimePath) : String := (store path).getD ""

/-- A script is written when it has content and removed otherwise. -/
def writeDeployScripts (scripts : DeployScriptSet) : List FileStep :=
  [.prepare .scripts,
    writeOptionalFile (.script .preDeploy) (scripts.get .preDeploy),
    writeOptionalFile (.script .deploy) (scripts.get .deploy),
    writeOptionalFile (.script .postDeploy) (scripts.get .postDeploy),
    writeOptionalFile (.script .switchTraffic) (scripts.get .switchTraffic),
    writeOptionalFile (.script .cleanup) (scripts.get .cleanup)]

/-- The files of an application, its scripts included. -/
def saveAppRuntimeFilesWithScripts (composeContent envContent metadataContent : String)
    (deployScripts : DeployScriptSet) : List FileStep :=
  [.prepare .metadata, writeOptionalFile .compose composeContent, writeFile .env envContent] ++
    writeDeployScripts deployScripts ++ [writeFile .metadata metadataContent]

/-- The files of an application. -/
def saveAppRuntimeFiles (composeContent envContent metadataContent : String) : List FileStep :=
  saveAppRuntimeFilesWithScripts composeContent envContent metadataContent .default

/-- Keys name directories. -/
def validateKey (value : String) : Except String Unit :=
  if trim value ≠ "" ∧ value.toList.all fun char => char.isAlphanum || char == '-' || char == '_' then
    .ok ()
  else
    .error "运行时应用标识仅支持字母、数字、短横线和下划线"

/-- So do the identifiers of releases. -/
def validateReleaseId (value : String) : Except String Unit :=
  if trim value ≠ "" ∧
      value.toList.all fun char => char.isAlphanum || ['-', '_', '.'].contains char then
    .ok ()
  else
    .error "发布版本仅支持字母、数字、短横线、下划线和点"

/-- A unit's file name ends in `.service`. -/
def validateUnitFileName (value : String) : Except String Unit :=
  if trim value ≠ "" ∧ ".service".toList <:+ value.toList ∧
      value.toList.all fun char => char.isAlphanum || ['-', '_', '.', '@'].contains char then
    .ok ()
  else
    .error "systemd unit 文件名无效"

/-- `strip_suffix(".service")`, with the name itself if it does not end so. -/
def unitStem (unitName : String) : String :=
  if ".service".toList <:+ unitName.toList then String.ofList (unitName.toList.rdrop 8)
  else unitName

/-- The file with the variables of a unit. -/
def unitEnvFileName (unitName : String) : String := unitStem unitName ++ ".env"

/-- The unit of a slot. -/
def blueGreenUnitName (unitName slot : String) : String :=
  unitStem unitName ++ ("-" ++ slot ++ ".service")

/-- A row of the nodes. -/
structure Node where
  id : Int
  nodeKey : String
  name : String
  status : String
deriving Repr, DecidableEq

/-- The texts of the files that the service makes from a configuration. -/
structure Renderings where
  metadata : AppDetailItem → List Node → Option BinaryConfigItem → String
  unit : AppDetailItem → BinaryConfigItem → String
  slotUnit : AppDetailItem → BinaryConfigItem → String → String
  release : AppDetailItem → BinaryConfigItem → String
  current : BinaryConfigItem → String
  snapshotMetadata : DeployScriptSet → Option BinaryConfigItem → String
  configHash : String → String → String → String → String

variable (renderings : Renderings)

/-- The files of a binary application: its unit and those of the slots. -/
def saveBinaryRuntimeFiles (app : AppDetailItem) (config : BinaryConfigItem) : List FileStep :=
  let validated := do
    validateKey app.appKey
    validateReleaseId config.artifactVersion
    validateUnitFileName config.unitName
  let envContent := ensureTrailingNewline config.envContent
  let blueUnitName := blueGreenUnitName config.unitName "blue"
  let greenUnitName := blueGreenUnitName config.unitName "green"
  match validated with
  | .error message => [.reject message]
  | .ok () =>
      [.prepare .release, .prepare .systemd,
        writeFile (.systemd config.unitName) (renderings.unit app config),
        writeFile (.systemd (unitEnvFileName config.unitName)) envContent,
        writeFile (.systemd blueUnitName) (renderings.slotUnit app config "blue"),
        writeFile (.systemd (unitEnvFileName blueUnitName)) envContent,
        writeFile (.systemd greenUnitName) (renderings.slotUnit app config "green"),
        writeFile (.systemd (unitEnvFileName greenUnitName)) envContent,
        writeFile (.release config.artifactVersion) (renderings.release app config),
        writeFile .current (renderings.current config)]

/-- A row of the runtime states. -/
structure RuntimeState where
  appId : Int
  nodeId : Int
  runtimeStatus : String
  message : String
deriving Repr, DecidableEq

/-- A row of the environments. -/
structure AppEnvironment where
  id : Int
  appId : Int
  environmentKey : String
  name : String
  status : String
  maxParallelUnits : Int
deriving Repr, DecidableEq

/-- A row of the artifacts, as far as settings change it. -/
structure BinaryArtifact where
  appId : Int
  version : String
  artifactPath : String
  artifactKind : String
  status : String
  metadata : String
deriving Repr, DecidableEq

/-- A row of the health checks. -/
structure HealthCheck where
  appId : Int
  checkKind : String
  endpoint : String
  timeoutSecs : Int
  expectedStatus : Int
deriving Repr, DecidableEq

/-- A snapshot of the configuration. -/
structure RuntimeConfigSnapshot where
  id : Int
  appId : Int
  revisionNo : Int
  snapshotKind : String
  composeContent : String
  envContent : String
  artifactVersion : String
  configHash : String
  metadata : String
deriving Repr, DecidableEq

/-- A task that is under way for an application. -/
structure ActiveTask where
  id : Int
  appId : Int
deriving Repr, DecidableEq

/-- The tables that the settings are stored in. -/
structure AppTables where
  apps : List AppDetailItem
  nodes : List Node
  activeTasks : List ActiveTask
  targets : List (Int × Int)
  runtimeStates : List RuntimeState
  environments : List AppEnvironment
  environmentTargets : List (Int × Int)
  binaryConfigs : List (Int × BinaryConfigItem)
  binaryArtifacts : List BinaryArtifact
  healthChecks : List HealthCheck
  snapshots : List RuntimeConfigSnapshot
deriving Repr, DecidableEq

/-- How an edit fails. -/
inductive SettingsError
  | invalidInput (message : String)
  | activeTask (taskId : Int)
  | conflict (message : String)
  | runtime (message : String)
  | database (message : String)
deriving Repr, DecidableEq

/-- Identifiers without repetitions, in their order. -/
def dedupeIds (ids : List Int) : List Int :=
  ids.foldl (fun deduped id => if id ∈ deduped then deduped else deduped ++ [id]) []

namespace AppTables

variable (tables : AppTables)

/-- The application, or that there is none. -/
def fetchAppDetail (appId : Int) : Except SettingsError AppDetailItem :=
  match tables.apps.find? fun app => app.id == appId with
  | some app => .ok app
  | none => .error (.invalidInput "应用不存在")

/-- No deployment of the application is under way. -/
def ensureNoActiveDeployTask (appId : Int) : Except SettingsError Unit :=
  match tables.activeTasks.find? fun task => task.appId == appId with
  | some task => .error (.activeTask task.id)
  | none =>
      if tables.runtimeStates.any fun state =>
          state.appId == appId && state.runtimeStatus == "deploying" then
        .error (.conflict "应用正在部署中，请等待当前任务结束后再提交")
      else
        .ok ()

/-- The nodes that are named, all of which exist. -/
def targetNodeMetadata (nodeIds : List Int) : Except SettingsError (List Node) :=
  (dedupeIds nodeIds).mapM fun nodeId =>
    match tables.nodes.find? fun node => node.id == nodeId && node.status != "disabled" with
    | some node => .ok node
    | none => .error (.invalidInput "目标节点不存在或已禁用")

/-- The nodes of the application. -/
def targetNodeMetadataForApp (appId : Int) : List Node :=
  (tables.nodes.filter fun node =>
    node.status != "disabled" && tables.targets.contains (appId, node.id)).mergeSort
      fun node other => node.id ≤ other.id

/-- The configuration of an application that has none yet. -/
def defaultBinaryConfigForApp (app : AppDetailItem) : BinaryConfigItem :=
  { serviceName := app.appKey, artifactVersion := "", artifactPath := "", execArgs := ""
    workingDir := app.workDir, serviceUser := "deploy"
    unitName := "easy-deploy-" ++ app.appKey ++ ".service", releaseStrategy := "restart"
    activeSlot := "blue", basePort := 0, standbyPort := 0, proxyEnabled := 0, proxyKind := "none"
    proxyDomain := "", proxyConfigPath := "", envContent := "" }

/-- The row of a binary application, and none for another one. -/
def loadBinaryConfig (app : AppDetailItem) : Option BinaryConfigItem :=
  if app.appType = "binary" then
    some (((tables.binaryConfigs.find? fun entry => entry.1 == app.id).map (·.2)).getD
      (defaultBinaryConfigForApp app))
  else
    none

end AppTables

/-- `UPDATE apps`. -/
def updateApp (edited : AppDetailItem) (apps : List AppDetailItem) : List AppDetailItem :=
  updateAt apps (·.id) edited.id (fun _ => true) fun row =>
    { row with
      name := edited.name, description := edited.description, environment := edited.environment
      workDir := edited.workDir, deployStrategy := edited.deployStrategy
      releaseSource := edited.releaseSource, autoQueueRelease := edited.autoQueueRelease }

/-- The rows of an owner are deleted, and one is inserted for each node. -/
def replaceTargets (owner : Int) (nodeIds : List Int) (targets : List (Int × Int)) :
    List (Int × Int) :=
  targets.filter (fun target => target.1 != owner) ++ nodeIds.map fun nodeId => (owner, nodeId)

/-- `INSERT INTO app_runtime_states .. ON CONFLICT(app_id, node_id) DO NOTHING`. -/
def insertRuntimeState (appId : Int) (states : List RuntimeState) (nodeId : Int) :
    List RuntimeState :=
  if states.any fun state => state.appId == appId && state.nodeId == nodeId then states
  else states ++ [⟨appId, nodeId, "unknown", "等待首次部署"⟩]

/-- A state for each node that is a target now, and for no other. -/
def replaceRuntimeStates (appId : Int) (nodeIds : List Int) (states : List RuntimeState) :
    List RuntimeState :=
  (nodeIds.foldl (insertRuntimeState appId) states).filter fun state =>
    state.appId != appId || nodeIds.contains state.nodeId

/-- The name of an environment that has none. -/
def environmentName : String → String
  | "production" => "正式环境"
  | "test" | "testing" => "测试环境"
  | _ => "默认环境"

/-- The environment of an application with a key. -/
def findEnvironment (appId : Int) (environmentKey : String) (environments : List AppEnvironment) :
    Option Int :=
  (environments.find? fun environment =>
    environment.appId == appId && environment.environmentKey == environmentKey).map (·.id)

/-- `UPDATE app_environments`. -/
def updateEnvironment (environmentId : Int) (environmentKey : Option String) (name : String)
    (environments : List AppEnvironment) : List AppEnvironment :=
  updateAt environments (·.id) environmentId (fun _ => true) fun row =>
    { row with
      environmentKey := environmentKey.getD row.environmentKey, name := name, status := "ready" }

/-- The environment of the application: the one with the key, else the one with the previous key,
else a new one. -/
def placeEnvironment (app : AppDetailItem) (previousEnvironment : String)
    (environments : List AppEnvironment) : List AppEnvironment × Int :=
  let name := environmentName app.environment
  match findEnvironment app.id app.environment environments with
  | some environmentId => (updateEnvironment environmentId none name environments, environmentId)
  | none => match findEnvironment app.id previousEnvironment environments with
    | some environmentId =>
        (updateEnvironment environmentId (some app.environment) name environments, environmentId)
    | none =>
        let environmentId := nextId (environments.map (·.id))
        (environments ++ [⟨environmentId, app.id, app.environment, name, "ready", 3⟩],
          environmentId)

/-- `json_escape`. -/
def jsonEscape (value : String) : String :=
  String.ofList (value.toList.flatMap fun char =>
    if char = '\\' ∨ char = '"' then ['\\', char] else [char])

/-- The metadata of an artifact that was not uploaded. -/
def manualMetadata (config : BinaryConfigItem) : String :=
  "\x7b\"source\":\"manual\",\"unit_name\":\"" ++ jsonEscape config.unitName ++ "\"\x7d"

/-- The artifact that the configuration names. -/
def upsertArtifact (appId : Int) (config : BinaryConfigItem) (rows : List BinaryArtifact) :
    List BinaryArtifact :=
  if rows.any fun row => row.appId == appId && row.version == config.artifactVersion then
    rows.map fun row =>
      if row.appId = appId ∧ row.version = config.artifactVersion then
        { row with
          artifactPath := config.artifactPath, status := "registered"
          metadata := manualMetadata config }
      else row
  else
    rows ++ [⟨appId, config.artifactVersion, config.artifactPath, "binary", "registered",
      manualMetadata config⟩]

/-- The configuration of an application is stored. -/
def upsertBinaryConfig (appId : Int) (config : BinaryConfigItem) (tables : AppTables) : AppTables :=
  { tables with
    binaryConfigs := upsert tables.binaryConfigs (·.1) (appId, config)
    binaryArtifacts := upsertArtifact appId config tables.binaryArtifacts }

/-- A snapshot with the next revision is stored. -/
def insertRuntimeConfigSnapshot (appId : Int)
    (composeContent envContent artifactVersion metadata : String)
    (snapshots : List RuntimeConfigSnapshot) : List RuntimeConfigSnapshot :=
  let revisions := (snapshots.filter fun snapshot => snapshot.appId == appId).map (·.revisionNo)
  snapshots ++
    [{ id := nextId (snapshots.map (·.id)), appId, revisionNo := nextId revisions
       snapshotKind := "manual", composeContent, envContent, artifactVersion
       configHash := renderings.configHash composeContent envContent artifactVersion metadata
       metadata }]

/-- The form of the metadata. -/
structure UpdateAppMetadataInput where
  appId : Int
  name : String
  description : String
  environment : String
  workDir : String
  deployStrategy : String
  releaseSource : String
  autoQueueRelease : Bool
  targetNodeIds : List Int
deriving Repr, DecidableEq

/-- The form of a binary configuration. -/
structure BinaryConfigInput where
  artifactVersion : String
  artifactPath : String
  execArgs : String
  serviceUser : String
  unitName : String
  releaseStrategy : String
  activeSlot : String
  basePort : Int64
  standbyPort : Int64
  proxyEnabled : Bool
  proxyKind : String
  proxyDomain : String
  proxyConfigPath : String
deriving Repr, DecidableEq

/-- The form of the configuration. -/
structure UpdateAppConfigInput where
  appId : Int
  composeContent : String
  envContent : String
  deployScripts : DeployScriptSet
  healthCheckKind : String
  healthCheckEndpoint : String
  healthCheckTimeoutSecs : Int
  healthCheckExpectedStatus : Int
  binary : BinaryConfigInput
deriving Repr, DecidableEq

/-- The checks of the contents that `update_app_config` gets. -/
structure Normalizers where
  composeContent : String → String → Except String String
  binaryConfig : AppDetailItem → String → BinaryConfigInput → Except String BinaryConfigItem

/-- The compose file of a compose application. -/
def Normalizers.composeFor (normalizers : Normalizers) (app : AppDetailItem)
    (input : UpdateAppConfigInput) : Except SettingsError String :=
  if app.appType = "compose" then
    (normalizers.composeContent input.composeContent app.appKey).mapError .invalidInput
  else
    .ok ""

/-- The configuration of a binary application. -/
def Normalizers.binaryFor (normalizers : Normalizers) (app : AppDetailItem)
    (input : UpdateAppConfigInput) : Except SettingsError (Option BinaryConfigItem) :=
  if app.appType = "binary" then
    ((normalizers.binaryConfig app input.envContent input.binary).mapError .invalidInput).map some
  else
    .ok none

/-- The tables and the runtime files. -/
structure Site where
  files : String → RuntimeStore
  tables : AppTables

/-- What an operation does behind its checks. -/
structure Edit where
  appKey : String
  steps : List FileStep
  effect : AppTables → AppTables

/-- Only applications that are enabled are configured. -/
def ensureAppEnabled (app : AppDetailItem) : Except SettingsError Unit :=
  if app.status = "disabled" then .error (.invalidInput "应用已停用，不能执行变更操作") else .ok ()

/-- A field that must not be blank. -/
def requiredText (value message : String) : Except SettingsError String :=
  if Blank value then .error (.invalidInput message) else .ok (trim value)

/-- The key of an environment. -/
def normalizeAppEnvironment (value : String) : Except SettingsError String :=
  match (trim value).toLower with
  | "" | "test" | "testing" => .ok "test"
  | "production" | "prod" => .ok "production"
  | _ => .error (.invalidInput "应用环境仅支持 production 或 test")

/-- Only the strategies of the program are accepted. -/
def normalizeDeployStrategy (value : String) : Except SettingsError String :=
  match trim value with
  | "" => .ok "rolling_stop_on_failure"
  | "rolling_stop_on_failure" => .ok "rolling_stop_on_failure"
  | "rolling_continue" => .ok "rolling_continue"
  | _ => .error (.invalidInput "部署策略不支持")

/-- Only the sources of the program are accepted. -/
def normalizeReleaseSource (value : String) : Except SettingsError String :=
  match trim value with
  | "" => .ok "package_upload"
  | "manual" => .ok "manual"
  | "package_upload" => .ok "package_upload"
  | _ => .error (.invalidInput "发布来源不支持")

/-- The directory that deployments work in. -/
def normalizeDeployWorkDir (value : String) : Except SettingsError String := do
  let value ← requiredText value "请输入部署目录"
  let chars := (value.toList.map fun char => if char = '\\' then '/' else char).rdropWhile (· == '/')
  if chars.contains '\n' || chars.contains '\r' then
    .error (.invalidInput "部署目录不能包含换行")
  else if chars.head? ≠ some '/' ∧ chars.head? ≠ some '.' then
    .error (.invalidInput "部署目录必须使用绝对路径，或使用 . 开头的相对路径")
  else if (String.ofList (chars.rtakeWhile (· != '/'))).toLower ∈
      ["compose.yaml", "compose.yml", "docker-compose.yaml", "docker-compose.yml"] then
    .error (.invalidInput "部署目录必须是应用目录，compose.yaml 会由平台固定生成在该目录下")
  else
    .ok (String.ofList chars)

/-- The errors of the runtime files as errors of the edit. -/
def liftRuntime (result : Except String Unit) : Except SettingsError Unit :=
  result.mapError .runtime

/-- The statements of `update_app_metadata`. -/
def metadataEffect (edited : AppDetailItem) (previousEnvironment : String) (nodeIds : List Int)
    (binaryConfig : Option BinaryConfigItem) (tables : AppTables) : AppTables :=
  let placed := placeEnvironment edited previousEnvironment tables.environments
  let tables :=
    { tables with
      apps := updateApp edited tables.apps
      targets := replaceTargets edited.id nodeIds tables.targets
      runtimeStates := replaceRuntimeStates edited.id nodeIds tables.runtimeStates
      environments := placed.1
      environmentTargets := replaceTargets placed.2 nodeIds tables.environmentTargets }
  match binaryConfig with
  | some config => upsertBinaryConfig edited.id config tables
  | none => tables

/-- The configuration of a binary application whose work directory is edited. -/
def moveBinaryConfig (previousWorkDir workDir : String) (config : BinaryConfigItem) :
    BinaryConfigItem :=
  if Blank config.workingDir ∨ config.workingDir = previousWorkDir then
    { config with workingDir := workDir }
  else
    config

/-- The checks of `update_app_metadata`, and what it writes behind them. -/
def metadataEdit (site : Site) (input : UpdateAppMetadataInput) : Except SettingsError Edit := do
  let app ← site.tables.fetchAppDetail input.appId
  ensureAppEnabled app
  site.tables.ensureNoActiveDeployTask app.id
  let name ← requiredText input.name "请输入应用名称"
  let environment ← normalizeAppEnvironment input.environment
  let workDir ← normalizeDeployWorkDir input.workDir
  let deployStrategy ← normalizeDeployStrategy input.deployStrategy
  let releaseSource ← normalizeReleaseSource input.releaseSource
  if input.targetNodeIds = [] then
    .error (.invalidInput "至少需要选择一个目标节点")
  else
    let targetNodes ← site.tables.targetNodeMetadata input.targetNodeIds
    liftRuntime (validateKey app.appKey)
    let store := site.files app.appKey
    let binaryConfig := (site.tables.loadBinaryConfig app).map (moveBinaryConfig app.workDir workDir)
    let edited :=
      { app with
        name, description := trim input.description, environment, workDir, deployStrategy
        releaseSource, autoQueueRelease := if input.autoQueueRelease then 1 else 0 }
    .ok
      { appKey := app.appKey
        steps := saveAppRuntimeFiles (readOptionalFile store .compose) (readOptionalFile store .env)
            (renderings.metadata edited targetNodes binaryConfig) ++
          (binaryConfig.map (saveBinaryRuntimeFiles renderings edited)).getD []
        effect := metadataEffect edited app.environment (dedupeIds input.targetNodeIds)
          binaryConfig }

/-- The checks of `update_app_config`, and what it writes behind them. -/
def configEdit (normalizers : Normalizers) (site : Site) (input : UpdateAppConfigInput) :
    Except SettingsError Edit := do
  let app ← site.tables.fetchAppDetail input.appId
  ensureAppEnabled app
  site.tables.ensureNoActiveDeployTask app.id
  let composeContent ← normalizers.composeFor app input
  let envContent := normalizeEnvContent input.envContent
  let binaryConfig ← normalizers.binaryFor app input
  let targetNodes := site.tables.targetNodeMetadataForApp app.id
  liftRuntime (validateKey app.appKey)
  .ok
    { appKey := app.appKey
      steps := saveAppRuntimeFilesWithScripts composeContent envContent
          (renderings.metadata app targetNodes binaryConfig) input.deployScripts ++
        (binaryConfig.map (saveBinaryRuntimeFiles renderings app)).getD []
      effect tables :=
        let tables :=
          { tables with
            healthChecks := upsert tables.healthChecks (·.appId)
              ⟨app.id, input.healthCheckKind, input.healthCheckEndpoint,
                input.healthCheckTimeoutSecs, input.healthCheckExpectedStatus⟩ }
        let tables := match binaryConfig with
          | some config => upsertBinaryConfig app.id config tables
          | none => tables
        { tables with
          snapshots := insertRuntimeConfigSnapshot renderings app.id composeContent envContent
            ((binaryConfig.map (·.artifactVersion)).getD "")
            (renderings.snapshotMetadata input.deployScripts binaryConfig) tables.snapshots } }

/-- What fails in a call: a read, some of the writes, or the transaction. -/
structure Faults where
  read : Option String
  files : FileFailures
  transaction : Option String

/-- The files are written before the transaction, which changes nothing when it fails. -/
def Edit.apply (faults : Faults) (edit : Edit) (site : Site) : Except SettingsError Unit × Site :=
  let written := runWrites faults.files edit.steps (site.files edit.appKey)
  let files := Function.update site.files edit.appKey written.2
  match written.1, faults.transaction with
  | some message, _ => (.error (.runtime message), { site with files })
  | none, some message => (.error (.database message), { site with files })
  | none, none => (.ok (), { files, tables := edit.effect site.tables })

/-- All reads come before the first write. -/
def performEdit (faults : Faults) (edit : Except SettingsError Edit) (site : Site) :
    Except SettingsError Unit × Site :=
  match faults.read, edit with
  | some message, _ => (.error (.database message), site)
  | none, .error error => (.error error, site)
  | none, .ok edit => edit.apply faults site

/-- An edit of the metadata. -/
def updateAppMetadata (faults : Faults) (input : UpdateAppMetadataInput) (site : Site) :
    Except SettingsError Unit × Site :=
  performEdit faults (metadataEdit renderings site input) site

/-- An edit of the configuration. -/
def updateAppConfig (normalizers : Normalizers) (faults : Faults) (input : UpdateAppConfigInput)
    (site : Site) : Except SettingsError Unit × Site :=
  performEdit faults (configEdit renderings normalizers site input) site

end EasyDeploy.Apps
