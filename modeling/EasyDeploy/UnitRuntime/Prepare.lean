import EasyDeploy.Foundation.Assignments
import EasyDeploy.Orchestrator.Plan

/-!
# Preparing the runtime of a unit

The executor of a deployment loads a unit as it was published, with the secrets
of its environment, and puts the files of the package, the compose file, the
environment file and the scripts into a staging directory. The packages have
plain files and directories only.
-/

namespace EasyDeploy.UnitRuntime
open Foundation

/-- A path below the directory of a unit. -/
abbrev RelPath := List String

/-- A directory with its files; paths are relative to it. -/
structure Tree where
  files : RelPath → Option ByteArray
  dirs : RelPath → Bool

/-- How the preparation fails. -/
inductive RuntimeError
  | validation (message : String)
  | notFound (message : String)
  | config (message : String)
  | database (message : String)
deriving Repr, DecidableEq

namespace Tree

/-- Nothing has been written. -/
def empty : Tree := ⟨fun _ => none, fun path => path.isEmpty⟩

/-- `fs::write`. -/
def write (tree : Tree) (path : RelPath) (content : ByteArray) : Except RuntimeError Tree :=
  if tree.dirs path then .error (.database "Is a directory")
  else if !tree.dirs path.dropLast then .error (.database "No such file or directory")
  else .ok { tree with files := Function.update tree.files path (some content) }

/-- `fs::create_dir_all`. -/
def createDirAll (tree : Tree) (path : RelPath) : Except RuntimeError Tree :=
  if path.inits.any fun parent => (tree.files parent).isSome then
    .error (.database "Not a directory")
  else
    .ok { tree with dirs := fun other => tree.dirs other || path.inits.contains other }

end Tree

/-- The entries of a map, each key once. -/
structure Entries where
  entries : List (String × String)
  keys : (entries.map (·.1)).Nodup

/-- A unit of a published configuration. -/
structure ConfigUnit where
  key : String
  workDir : String
  composeContent : String
  envContent : String
  scripts : Entries

/-- A published configuration. -/
structure PublishedApplicationConfig where
  revisionId : Int
  units : List ConfigUnit
  secretValues : Entries

/-- What a run is about. -/
structure ExecutionIdentity where
  deploymentRunId : Int
  taskId : Int
  environmentId : Int
  appId : Int
  appKey : String
  environmentKey : String
  configRevisionId : Int
deriving Repr, DecidableEq

/-- A row of the unit releases. -/
structure UnitRelease where
  id : Int
  unitId : Int
  version : String
  packagePath : String
  checksumSha256 : String
  sizeBytes : Int
  storageProvider : String
  storageBucket : String
  storageObjectKey : String
  artifactStatus : String
deriving Repr, DecidableEq

/-- A node of an environment. -/
structure DeploymentTargetNode where
  id : Int
  nodeKey : String
  nodeType : String
  sshUser : String
  credentialPrivateKeyPath : Option String
  status : String
  dockerStatus : String
deriving Repr, DecidableEq

/-- The tables that the execution reads. -/
structure ExecutionRecords where
  identities : List ExecutionIdentity
  loadRevision : Int → Int → Except String PublishedApplicationConfig
  /-- The units with their applications and keys. -/
  units : List (Int × Int × String)
  releases : List UnitRelease
  /-- The nodes with their environments. -/
  environmentTargets : List (Int × DeploymentTargetNode)

/-- A unit of a run. -/
structure UnitExecutionContext where
  deploymentRunId : Int
  taskId : Int
  environmentId : Int
  targetNodeIds : List Int
  item : Orchestrator.DeploymentPlanItem
deriving Repr, DecidableEq

/-- What a unit is executed with. -/
structure UnitExecutionSpec where
  appKey : String
  environmentKey : String
  configRevisionId : Int
  unitKey : String
  unit : ConfigUnit
  action : Orchestrator.DeploymentAction
  release : Option UnitRelease
  targetNodes : List DeploymentTargetNode
  environmentVariables : List (String × String)

/-- `strip_prefix`. -/
def stripPrefix (start text : String) : Option String :=
  if start.toList <+: text.toList then some (String.ofList (text.toList.drop start.toList.length))
  else none

/-- The beginning of the names of a unit's secrets. -/
def secretPrefix (environmentKey unitKey : String) : String :=
  environmentKey ++ "." ++ unitKey ++ "."

/-- The secrets of a unit without this beginning. -/
def environmentVariables (secrets : Entries) (environmentKey unitKey : String) :
    List (String × String) :=
  secrets.entries.filterMap fun entry =>
    (stripPrefix (secretPrefix environmentKey unitKey) entry.1).map fun name => (name, entry.2)

namespace ExecutionRecords

variable (records : ExecutionRecords)

/-- The run of a unit. -/
def identity (context : UnitExecutionContext) : Option ExecutionIdentity :=
  records.identities.find? fun identity =>
    identity.deploymentRunId == context.deploymentRunId && identity.taskId == context.taskId &&
      identity.environmentId == context.environmentId

/-- The active unit release, whose location must be complete. -/
def loadRelease (unitId releaseId : Int) : Except RuntimeError UnitRelease :=
  match records.releases.find? fun release =>
    release.id == releaseId && release.unitId == unitId && release.artifactStatus == "active" with
  | none => .error (.notFound "active deployment unit release not found")
  | some release =>
      if release.storageProvider = "local" ∧ trim release.packagePath = "" then
        .error (.validation "local unit release package path is empty")
      else if release.storageProvider = "aliyun_oss" ∧
          (trim release.storageBucket = "" ∨ trim release.storageObjectKey = "") then
        .error (.validation "OSS unit release location is incomplete")
      else
        .ok release

/-- The unit release that an item names. -/
def loadItemRelease (item : Orchestrator.DeploymentPlanItem) :
    Except RuntimeError (Option UnitRelease) :=
  match item.unitReleaseId with
  | some releaseId => (records.loadRelease item.unitId releaseId).map some
  | none =>
      if item.action = .stop then .ok none
      else .error (.validation "deployment action requires a unit release")

/-- A node of the environment. -/
def loadTargetNode (environmentId nodeId : Int) : Except RuntimeError DeploymentTargetNode :=
  match (records.environmentTargets.find? fun target =>
    target.1 == environmentId && target.2.id == nodeId).map (·.2) with
  | none => .error (.validation "target node is not bound to environment")
  | some node =>
      if node.status ≠ "online" ∨ node.dockerStatus ≠ "available" then
        .error (.validation ("target node " ++ node.nodeKey ++ " is not ready for Docker deployment"))
      else if node.nodeType = "ssh" ∧
          (trim node.sshUser = "" ∨ trim (node.credentialPrivateKeyPath.getD "") = "") then
        .error (.validation ("SSH target node " ++ node.nodeKey ++ " has no deploy credential"))
      else
        .ok node

/-- All of them. -/
def loadTargetNodes (environmentId : Int) (nodeIds : List Int) :
    Except RuntimeError (List DeploymentTargetNode) :=
  if nodeIds = [] then .error (.validation "deployment environment has no target nodes")
  else nodeIds.mapM (records.loadTargetNode environmentId)

/-- The identity of an execution, or an error. -/
def executionIdentity (context : UnitExecutionContext) : Except RuntimeError ExecutionIdentity :=
  match records.identity context with
  | some identity => .ok identity
  | none => .error (.notFound "deployment execution identity not found")

/-- The unit of a configuration with a key. -/
def findUnit (units : List ConfigUnit) (unitKey : String) : Except RuntimeError ConfigUnit :=
  match units.find? fun unit => unit.key == unitKey with
  | some unit => .ok unit
  | none => .error (.validation "deployment unit is missing from config revision")

/-- The unit is one of the application. -/
def ensureUnitOfApp (item : Orchestrator.DeploymentPlanItem) (appId : Int) :
    Except RuntimeError Unit :=
  if (item.unitId, appId, item.unitKey) ∈ records.units then .ok ()
  else .error (.validation "deployment unit identity does not belong to application")

/-- What the execution reads before it begins. -/
def loadUnitSpec (context : UnitExecutionContext) : Except RuntimeError UnitExecutionSpec := do
  let identity ← records.executionIdentity context
  let revision ←
    (records.loadRevision identity.appId identity.configRevisionId).mapError .config
  let unit ← findUnit revision.units context.item.unitKey
  records.ensureUnitOfApp context.item identity.appId
  let release ← records.loadItemRelease context.item
  let targetNodes ← records.loadTargetNodes context.environmentId context.targetNodeIds
  .ok
    { appKey := identity.appKey, environmentKey := identity.environmentKey
      configRevisionId := revision.revisionId, unitKey := context.item.unitKey, unit
      action := context.item.action, release, targetNodes
      environmentVariables :=
        environmentVariables revision.secretValues identity.environmentKey context.item.unitKey }

end ExecutionRecords

/-- The packages that are stored, their digests and what is in them. -/
structure PackageHost where
  read : String → Option ByteArray
  digest : ByteArray → String
  unpack : ByteArray → Except String Tree

/-- The files of a unit with its scripts. -/
structure PreparedUnitRuntime where
  tree : Tree
  scriptPaths : List (String × RelPath)

/-- The name of a variable. -/
def validName (name : String) : Bool :=
  !name.isEmpty && (name.toList.all fun char => char.isAlphanum || char == '_') &&
    !(name.toList.head?.any Char.isDigit)

/-- All names are. -/
def validateEnvironmentVariables : List (String × String) → Except RuntimeError Unit
  | [] => .ok ()
  | (name, value) :: rest =>
      if !validName name || value.toList.contains '\r' || value.toList.contains '\n' then
        .error (.validation ("invalid deployment environment variable " ++ name))
      else
        validateEnvironmentVariables rest

/-- The files of the package, whose checksum is verified. -/
def verifyAndExtractPackage (host : PackageHost) (release : UnitRelease) :
    Except RuntimeError Tree :=
  match host.read release.packagePath with
  | none => .error (.notFound "unit release package is unavailable")
  | some package =>
      if 0 < release.sizeBytes ∧ (package.size : Int) ≠ release.sizeBytes then
        .error (.validation "unit release package size mismatch")
      else if release.checksumSha256.toLower ≠ (host.digest package).toLower then
        .error (.validation "unit release package checksum mismatch")
      else
        (host.unpack package).mapError .validation

/-- The files that a package brings. -/
def extractRelease (host : PackageHost) : Option UnitRelease → Except RuntimeError Tree
  | none => .ok .empty
  | some release =>
      if release.storageProvider = "local" then verifyAndExtractPackage host release
      else if release.storageProvider = "aliyun_oss" then
        .error (.validation "OSS unit release must be downloaded before runtime preparation")
      else
        .error (.validation "unsupported unit release storage provider")

/-- The file of a script. -/
def scriptFileName : String → Except RuntimeError String
  | "pre_deploy" => .ok "pre-deploy.sh"
  | "deploy" => .ok "deploy.sh"
  | "post_deploy" => .ok "post-deploy.sh"
  | "switch_traffic" => .ok "switch-traffic.sh"
  | "cleanup" => .ok "cleanup.sh"
  | slot => .error (.validation ("unsupported deployment script slot " ++ slot))

/-- The directory of the scripts. -/
def scriptsRoot : RelPath := [".easy-deploy", "scripts"]

/-- The scripts are written. -/
def writeScripts (tree : Tree) : List (String × String) → Except RuntimeError Tree
  | [] => .ok tree
  | (slot, content) :: rest => do
      let fileName ← scriptFileName slot
      let tree ← tree.write (scriptsRoot ++ [fileName]) content.toByteArray
      writeScripts tree rest

/-- Where they are. -/
def scriptPaths (scripts : List (String × String)) : List (String × RelPath) :=
  scripts.filterMap fun entry =>
    (scriptFileName entry.1).toOption.map fun fileName => (entry.1, scriptsRoot ++ [fileName])

/-- The files that a unit is deployed with. -/
def prepareUnitRuntime (host : PackageHost) (spec : UnitExecutionSpec) :
    Except RuntimeError PreparedUnitRuntime := do
  validateEnvironmentVariables spec.environmentVariables
  let tree ← extractRelease host spec.release
  let tree ← tree.write ["compose.yaml"] spec.unit.composeContent.toByteArray
  let tree ← tree.write [".env"] (renderAssignments spec.environmentVariables).toByteArray
  let tree ← tree.createDirAll scriptsRoot
  let tree ← writeScripts tree spec.unit.scripts.entries
  .ok ⟨tree, scriptPaths spec.unit.scripts.entries⟩

/-- What the platform adds to the variables. -/
def platformVariables (spec : UnitExecutionSpec) : List (String × String) :=
  [("EASY_DEPLOY_APP_KEY", spec.appKey), ("EASY_DEPLOY_ENVIRONMENT", spec.environmentKey),
    ("EASY_DEPLOY_UNIT_KEY", spec.unitKey),
    ("EASY_DEPLOY_VERSION", (spec.release.map (·.version)).getD "")]

/-- The variables that its scripts get. -/
def executionEnvironment (spec : UnitExecutionSpec) : List (String × String) :=
  spec.environmentVariables ++ platformVariables spec

end EasyDeploy.UnitRuntime
