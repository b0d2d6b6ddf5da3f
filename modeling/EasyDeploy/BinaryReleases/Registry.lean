import EasyDeploy.BinaryReleases.Retention

/-!
# The registry of binary versions

Uploads, deployments and restorations read the tables, write files, and then
change the tables in one transaction; an upload removes the directories of the
versions that it has disabled after that. Each of these is a step, and the steps
of any number of calls interleave. A call may end between any two steps. The
checks of the application and its nodes are left out, since they only refuse, and
so are releases and queue items.
-/

namespace EasyDeploy.BinaryReleases
open Foundation
open Apps (AppDetailItem BinaryConfigItem AppConfigSnapshotItem jsonString valueGet)
open ReleaseQueue (AppError renderArtifactMetadata)

/-- The version of an upload names a directory. -/
def normalizeReleaseId (value : String) : Except AppError String :=
  let value := trim value
  if value = "" ∨
      !value.toList.all fun char => char.isAlphanum || ['-', '_', '.'].contains char then
    .error (.invalidInput "二进制版本仅支持字母、数字、短横线、下划线和点")
  else
    .ok value

/-- The kind of a package. -/
def artifactKindFromFileName (fileName : String) : ArtifactKind :=
  if ".tar.gz".toList <:+ fileName.toList ∨ ".tgz".toList <:+ fileName.toList then .tarGz
  else .binary

/-- The file of a package that is started. -/
def normalizeEntryFile (entryFile fileName : String) (artifactKind : ArtifactKind) :
    Except AppError String :=
  let defaultEntry := match artifactKind with
    | .tarGz => ""
    | .binary => fileName
  let value := if trim entryFile = "" then defaultEntry else trim entryFile
  if value = "" then
    .error (.invalidInput "tar.gz 版本包需要填写入口文件，例如 bin/server")
  else if ['/'] <+: value.toList ∨ '\\' ∈ value.toList ∨
      (value.toList.splitOn '/').any fun part => part == [] || part == ['.'] || part == ['.', '.']
      then
    .error (.invalidInput "入口文件必须是发布目录内的相对路径")
  else
    .ok value

/-- A path below the working directory. -/
def targetWorkDirPath (workDir relativePath : String) : String :=
  let workDir := (workDir.toList.map fun char => if char = '\\' then '/' else char).rdropWhile
    (· == '/')
  if workDir = [] then relativePath else String.ofList workDir ++ "/" ++ relativePath

/-- Where an upload came from. -/
def uploadSource (source : String) : String :=
  if trim source = "" then "upload" else trim source

/-- An upload with its package; `publishedAt` is normalized, or the time of the upload. -/
structure RegisterBinaryArtifactInput where
  app : AppDetailItem
  source : String
  artifactVersion : String
  versionCode : Option Int
  publishedAt : String
  fileName : String
  entryFile : String
  uploadedPath : String
  sha256 : String
  sizeBytes : UInt64
deriving Repr, DecidableEq

/-- What the handler computes of its input. -/
def RegisterBinaryArtifactInput.code (input : RegisterBinaryArtifactInput)
    (artifactVersion : String) : Except AppError Int :=
  match input.versionCode with
  | some versionCode =>
      if 0 < versionCode then .ok versionCode
      else .error (.invalidInput "versionCode 必须是大于 0 的整数")
  | none =>
      match Apps.versionCodeFromRelease artifactVersion with
      | some versionCode => .ok versionCode
      | none => .error (.invalidInput "发布版本必须是 vX.Y.Z 格式，或显式传入 versionCode")

/-- The fields that a configuration needs to run. -/
def completeConfig (app : AppDetailItem) (config : BinaryConfigItem) : BinaryConfigItem :=
  { config with
    workingDir := Apps.withDefault config.workingDir app.workDir
    unitName := Apps.withDefault config.unitName ("easy-deploy-" ++ app.appKey ++ ".service")
    serviceUser := Apps.withDefault config.serviceUser "deploy" }

/-- `register_binary_artifact` until its transaction. -/
def prepareUpload (text : JsonText) (input : RegisterBinaryArtifactInput)
    (current : BinaryConfigItem) : Except AppError PreparedUpload := do
  let artifactVersion ← normalizeReleaseId input.artifactVersion
  let versionCode ← input.code artifactVersion
  let fileName := trim input.fileName
  if fileName = "" then
    .error (.invalidInput "请选择二进制版本包文件")
  else if input.sizeBytes = 0 then
    .error (.invalidInput "上传文件不能为空")
  else
    let artifactKind := artifactKindFromFileName fileName
    let entryFile ← normalizeEntryFile input.entryFile fileName artifactKind
    let config := completeConfig input.app
      { current with
        artifactVersion
        artifactPath := targetWorkDirPath input.app.workDir
          ("releases/" ++ artifactVersion ++ "/" ++ entryFile) }
    let metadata ← renderArtifactMetadata text
      { source := "upload", sourceDetail := uploadSource input.source
        unitName := config.unitName, uploadedPath := input.uploadedPath
        originalFileName := fileName, entryFile, sha256 := input.sha256
        sizeBytes := input.sizeBytes, configSnapshotId := none, configRevisionNo := none }
    .ok
      { appId := input.app.id, versionCode, artifactKind, publishedAt := input.publishedAt
        metadata, config }

/-- A call with what it has read. -/
inductive Call
  | saving (upload : PreparedUpload)
  | registering (upload : PreparedUpload)
  /-- The versions whose directories are still to be removed. -/
  | cleaning (appId : Int) (versions : List String)
  /-- The version and the configuration as they were read. -/
  | deploying (app : AppDetailItem) (artifact : BinaryArtifactItem) (current : BinaryConfigItem)
  | restoring (appId : Int) (artifact : Option BinaryArtifactItem) (config : BinaryConfigItem)
deriving Repr, DecidableEq

/-- The application of a call. -/
def Call.appId : Call → Int
  | .saving upload | .registering upload => upload.appId
  | .cleaning appId _ | .restoring appId _ _ => appId
  | .deploying app _ _ => app.id

/-- The tables with the calls under way. -/
structure Registry where
  rows : ArtifactTable
  configs : List (Int × BinaryConfigItem)
  /-- The release directories of applications. -/
  releaseDirs : List (Int × String)
  releasesToKeep : Nat
  calls : List Call
deriving Repr, DecidableEq

/-- The steps of the calls. -/
inductive Action
  | createApp (appId : Int) (config : BinaryConfigItem) (now : String)
  | updatePlatform (releasesToKeep : Nat)
  /-- The transaction of `update_app_config` or `update_app_metadata`. -/
  | configure (appId : Int) (config : BinaryConfigItem)
  | updateActiveSlot (appId : Int) (slot : String)
  | upload (input : RegisterBinaryArtifactInput)
  | save (call : Nat)
  | deploy (app : AppDetailItem) (artifactId : Int)
  | restore (app : AppDetailItem) (artifactVersion : String) (snapshot : AppConfigSnapshotItem)
  | commit (call : Nat)
  | removeDir (call : Nat)
  | abandon (call : Nat)
deriving Repr, DecidableEq

/-- The version that a snapshot restores. -/
def snapshotArtifactVersion (text : JsonText) (artifactVersion : String)
    (snapshot : AppConfigSnapshotItem) : String :=
  if trim artifactVersion = "" then
    ((text.fromStr snapshot.metadata).toOption.bind fun metadata =>
      (jsonString (valueGet "binary" metadata) "artifact_version").or
        (jsonString (some metadata) "version")).getD ""
  else
    trim artifactVersion

/-- The configuration of `deploy_binary_artifact`. -/
def deployedConfig (app : AppDetailItem) (artifact : BinaryArtifactItem)
    (current : BinaryConfigItem) : BinaryConfigItem :=
  completeConfig app
    { current with artifactVersion := artifact.version, artifactPath := artifact.artifactPath }

/-- Whether `remove_dir_all` takes a directory away: a dot and two dots name a directory above. -/
def removes (version other : String) : Bool := version == other || version == "." || version == ".."

namespace Registry

variable (text : JsonText) (s : Registry)

/-- The configuration of an application. -/
def loadBinaryConfig (app : AppDetailItem) : BinaryConfigItem :=
  ((s.configs.find? fun entry => entry.1 == app.id).map (·.2)).getD
    (Apps.AppTables.defaultBinaryConfigForApp app)

/-- The configuration of an application is stored. -/
def upsertBinaryConfig (appId : Int) (config : BinaryConfigItem) : Registry :=
  { s with
    rows := registerConfigured appId config s.rows
    configs := upsert s.configs (·.1) (appId, config) }

/-- A call begins. -/
def withCall (call : Call) : Registry := { s with calls := s.calls ++ [call] }

/-- A call moves on. -/
def setCall (number : Nat) (call : Call) : Registry := { s with calls := s.calls.set number call }

/-- A call ends. -/
def endCall (number : Nat) : Registry := { s with calls := s.calls.eraseIdx number }

/-- A new application has no rows. -/
def createApp (appId : Int) (config : BinaryConfigItem) (now : String) : Option Registry :=
  if s.configs.any (fun entry => entry.1 == appId) || s.rows.any (fun row => row.appId == appId)
  then none
  else
    some { s with
      configs := s.configs ++ [(appId, config)]
      rows := if trim config.artifactVersion = "" then s.rows
        else registerInitial appId config now s.rows }

/-- The call after its checks of a version that it reads. -/
def deploy (app : AppDetailItem) (artifactId : Int) : Option Registry :=
  (s.rows.find? fun row => row.id == artifactId && row.appId == app.id &&
    row.status != .disabled).map fun artifact =>
      s.withCall (.deploying app artifact (s.loadBinaryConfig app))

/-- A restoration that has read its snapshot begins. -/
def restore (app : AppDetailItem) (artifactVersion : String) (snapshot : AppConfigSnapshotItem) :
    Option Registry :=
  let version := snapshotArtifactVersion text artifactVersion snapshot
  let config (artifact : Option BinaryArtifactItem) :=
    Apps.binaryConfigFromSnapshot text app snapshot (s.loadBinaryConfig app)
      (artifact.map fun artifact => ⟨artifact.version, artifact.artifactPath⟩)
  if version = "" then some (s.withCall (.restoring app.id none (config none)))
  else
    (s.rows.find? fun row => row.appId == app.id && row.version == version &&
      row.status != .disabled).map fun artifact =>
        s.withCall (.restoring app.id (some artifact) (config (some artifact)))

/-- The transaction of `register_binary_artifact`, with the versions that it disables. -/
def registerBinaryArtifact (upload : PreparedUpload) : Registry × List String :=
  let s := s.upsertBinaryConfig upload.appId upload.config
  let pruned := pruneUploadedBinaryReleases text upload.version s.releasesToKeep upload.appId
    (demoteOthers upload.appId upload.version (registerUploaded upload s.rows))
  ({ s with rows := pruned.1 }, pruned.2)

/-- The transaction of `deploy_binary_artifact`. -/
def deployBinaryArtifact (app : AppDetailItem) (artifact : BinaryArtifactItem)
    (current : BinaryConfigItem) : Registry :=
  let s := s.upsertBinaryConfig app.id (deployedConfig app artifact current)
  { s with rows := activateDeployed app.id artifact s.rows }

/-- The transaction of `restore_config_snapshot`. -/
def restoreConfigSnapshot (appId : Int) (artifact : Option BinaryArtifactItem)
    (config : BinaryConfigItem) : Registry :=
  let s := s.upsertBinaryConfig appId config
  match artifact with
  | some artifact => { s with rows := activateRestored appId artifact.id s.rows }
  | none => s

/-- The directory of an upload is written. -/
def save (number : Nat) : Call → Option Registry
  | .saving upload =>
      some ({ s with
        releaseDirs := s.releaseDirs ++ [(upload.appId, upload.version)] }.setCall number
          (.registering upload))
  | _ => none

/-- The last transaction of a call. -/
def commit (number : Nat) : Call → Option Registry
  | .registering upload =>
      let registered := s.registerBinaryArtifact text upload
      some (registered.1.setCall number (.cleaning upload.appId registered.2))
  | .deploying app artifact current =>
      some ((s.deployBinaryArtifact app artifact current).endCall number)
  | .restoring appId artifact config =>
      some ((s.restoreConfigSnapshot appId artifact config).endCall number)
  | _ => none

/-- One turn of `cleanup_pruned_binary_release_dirs`. -/
def removeDir (number : Nat) : Call → Option Registry
  | .cleaning appId (version :: versions) =>
      some ({ s with
        releaseDirs := s.releaseDirs.filter fun dir =>
          !(dir.1 == appId && removes version dir.2) }.setCall number (.cleaning appId versions))
  | .cleaning _ [] => some (s.endCall number)
  | _ => none

/-- The step of an action, if it can be taken. -/
def step (a : Action) : Option Registry :=
  match a with
  | .createApp appId config now => s.createApp appId config now
  | .updatePlatform releasesToKeep =>
      if 1 ≤ releasesToKeep ∧ releasesToKeep ≤ 30 then some { s with releasesToKeep } else none
  | .configure appId config => some (s.upsertBinaryConfig appId config)
  | .updateActiveSlot appId slot =>
      some { s with
        configs := updateAt s.configs (·.1) appId (fun _ => true) fun entry =>
          (entry.1, { entry.2 with activeSlot := slot }) }
  | .upload input =>
      match prepareUpload text input (s.loadBinaryConfig input.app) with
      | .ok upload => some (s.withCall (.saving upload))
      | .error _ => none
  | .deploy app artifactId => s.deploy app artifactId
  | .restore app artifactVersion snapshot => s.restore text app artifactVersion snapshot
  | .save number => s.calls[number]?.bind (s.save number)
  | .commit number => s.calls[number]?.bind (s.commit text number)
  | .removeDir number => s.calls[number]?.bind (s.removeDir number)
  | .abandon number => (s.calls[number]?).map fun _ => s.endCall number

end Registry

/-- The registry of a platform that starts without applications, with a number of uploads to keep
from its settings. -/
def registry (text : JsonText) (releasesToKeep : Nat) : Foundation.Transition Registry Action where
  initial s := s = ⟨[], [], [], releasesToKeep, []⟩
  step s a := s.step text a

end EasyDeploy.BinaryReleases
