import EasyDeploy.Orchestrator.System
import EasyDeploy.Releases.CreateRelease

/-!
# Releases, deployments and cleanup together

The registry beside the orchestrator, whose catalog it is, with the calls that
archive and delete application releases, that delete the artifacts of unit
releases and that delete the snapshots of runs. A transaction is one step. The
deletion of an artifact's object is a step between two transactions, and a crash
may come between any two steps. The sizes that the previews estimate are left out.
-/

namespace EasyDeploy.Releases
open Foundation
open Foundation.Statements
open Orchestrator (Catalog System DeploymentRun RunStatus)

/-- The catalog that the orchestrator reads. -/
def Registry.catalog (registry : Registry) : Catalog where
  releases := registry.appReleases.map fun release =>
    { id := release.id, appId := release.appId
      manifestReady := registry.manifests.any fun manifest =>
        manifest.appReleaseId == release.id && manifest.immutableStatus == .ready }
  environmentConfigs := registry.environmentConfigs
  configRevisions := registry.configRevisions
  targets := registry.targets
  units := registry.units
  unitReleases := registry.unitReleases.map fun release =>
    { id := release.id, version := release.version, versionCode := release.versionCode }
  releaseUnits := registry.releaseUnits

/-- How far a call of `cleanup_artifact` is after its first transaction. -/
inductive CleanupStage
  | deletingObject
  | recording (failure : Option String)
deriving Repr, DecidableEq

/-- A call of `cleanup_artifact`, which a recovery may be waiting for. -/
structure Cleanup where
  unitReleaseId : Int
  stage : CleanupStage
  /-- What the recovery that makes the call has left to clean up after it. -/
  recovery : Option (List Int)
deriving Repr, DecidableEq

/-- The application releases that rows of other tables name: queue rows, with whether they are
active, tasks of other kinds and runs of the former deployment. -/
structure OtherReferences where
  queue : List (Int × Bool)
  tasks : List Int
  legacyRuns : List Int
deriving Repr, DecidableEq

/-- The registry has the environments that the orchestrator's database has. -/
structure Platform where
  registry : Registry
  system : System
  others : OtherReferences
  /-- The runs whose `snapshot_status` is `deleted`. -/
  deletedSnapshots : List Int
  cleanups : List Cleanup
  /-- The unit releases that calls of `recover_deleting_artifacts` have yet to clean up, of those
  that are between two cleanups. -/
  recoveries : List (List Int)
deriving Repr, DecidableEq

/-- How a cleanup is refused. -/
inductive DeploymentRetentionError
  | invalidState (message : String)
  | notFound (message : String)
deriving Repr, DecidableEq

/-- The message of a blocker, if anything refers to the row. -/
def blocker (references : Nat) (message : String) : List String :=
  if 0 < references then [message] else []

namespace Platform

variable (platform : Platform)

/-- What is told about an artifact before it is deleted. -/
structure ArtifactCleanupPreview where
  unitReleaseId : Int
  version : String
  artifactStatus : ArtifactStatus
  blockers : List String
deriving Repr, DecidableEq

/-- Whether it may be deleted. -/
def ArtifactCleanupPreview.allowed (preview : ArtifactCleanupPreview) : Bool :=
  preview.blockers.isEmpty && (preview.artifactStatus == .active ||
    preview.artifactStatus == .deleteFailed || preview.artifactStatus == .deleting)

/-- The entries of application releases that name the unit release. -/
def appReleaseRefs (unitReleaseId : Int) : Nat :=
  platform.registry.releaseUnits.countP fun row => row.unitReleaseId == some unitReleaseId &&
    platform.registry.manifests.any fun manifest =>
      manifest.appReleaseId == row.appReleaseId && manifest.immutableStatus != .deleted

/-- The environments that run the unit release. -/
def runtimeRefs (unitReleaseId : Int) : Nat :=
  platform.system.database.runtimeStates.countP fun state =>
    state.activeUnitReleaseId == some unitReleaseId

/-- The results of runs with a snapshot that name the unit release. -/
def historyRefs (unitReleaseId : Int) : Nat :=
  platform.system.database.unitResults.countP fun row =>
    row.unitReleaseId == some unitReleaseId &&
      decide (row.deploymentRunId ∉ platform.deletedSnapshots)

/-- The preview of a unit release. -/
def artifactCleanupPreview (unitReleaseId : Int) :
    Except DeploymentRetentionError ArtifactCleanupPreview :=
  match platform.registry.unitReleases.find? fun release => release.id == unitReleaseId with
  | none => .error (.notFound "部署单元制品不存在")
  | some release =>
      let appReleaseRefs := platform.appReleaseRefs unitReleaseId
      let runtimeRefs := platform.runtimeRefs unitReleaseId
      let historyRefs := platform.historyRefs unitReleaseId
      .ok { unitReleaseId, version := release.version, artifactStatus := release.artifactStatus
            blockers := blocker appReleaseRefs s!"仍被 {appReleaseRefs} 个应用版本引用" ++
              blocker runtimeRefs s!"仍被 {runtimeRefs} 个环境运行状态引用" ++
              blocker historyRefs s!"仍被 {historyRefs} 条可重放部署快照引用" }

end Platform

/-- The word in the database. -/
def ArtifactStatus.name : ArtifactStatus → String
  | active => "active"
  | deleting => "deleting"
  | deleteFailed => "delete_failed"
  | deleted => "deleted"

/-- The word in the database. -/
def ImmutableStatus.name : ImmutableStatus → String
  | ready => "ready"
  | archived => "archived"
  | deleting => "deleting"
  | deleted => "deleted"

namespace Registry

variable (registry : Registry)

/-- The first transaction of `cleanup_artifact`. -/
def markDeleting (unitReleaseId : Int) : Registry :=
  { registry with
    unitReleases := updateAt registry.unitReleases (·.id) unitReleaseId (fun _ => true)
      fun release => { release with artifactStatus := .deleting, cleanupError := "" } }

/-- The second one, which records whether the object could be deleted. -/
def recordDeletion (unitReleaseId : Int) (failure : Option String) : Registry :=
  { registry with
    unitReleases := updateAt registry.unitReleases (·.id) unitReleaseId
      (·.artifactStatus == .deleting)
      (match failure with
      | none => fun release => { release with
          artifactStatus := .deleted, cleanupError := "", packagePath := "", extractDir := ""
          storage := { release.storage with
            bucket := "", objectKey := "", endpoint := "", objectVersionId := "" } }
      | some error => fun release => { release with
          artifactStatus := .deleteFailed, cleanupError := error }) }

/-- Mark the manifest of a ready release as archived. -/
def markArchived (appReleaseId : Int) : Registry :=
  { registry with
    manifests := updateAt registry.manifests (·.appReleaseId) appReleaseId
      (·.immutableStatus == .ready)
      fun manifest => { manifest with immutableStatus := .archived } }

/-- Delete a release with the rows that are its own. -/
def removeRelease (appReleaseId : Int) : Registry :=
  { registry with
    appReleases := registry.appReleases.filter fun release => release.id != appReleaseId
    manifests := registry.manifests.filter fun manifest => manifest.appReleaseId != appReleaseId
    releaseUnits := registry.releaseUnits.filter fun row => row.appReleaseId != appReleaseId
    environmentConfigs := registry.environmentConfigs.filter fun row =>
      row.appReleaseId != appReleaseId }

end Registry

namespace Platform

variable (platform : Platform)

/-- The first transaction of `cleanup_artifact`. -/
def cleanupArtifact (unitReleaseId : Int) : Except DeploymentRetentionError Registry :=
  match platform.artifactCleanupPreview unitReleaseId with
  | .error error => .error error
  | .ok preview =>
      if preview.allowed then .ok (platform.registry.markDeleting unitReleaseId)
      else .error (.invalidState (s!"制品当前不可清理：" ++
        if preview.blockers.isEmpty then preview.artifactStatus.name
        else String.intercalate "；" preview.blockers))

/-- What is told about a release before it is archived or deleted. -/
structure ApplicationReleaseCleanupPreview where
  appReleaseId : Int
  version : String
  versionCode : Int
  immutableStatus : ImmutableStatus
  archiveBlockers : List String
  blockers : List String
deriving Repr, DecidableEq

/-- Whether it may be archived. -/
def ApplicationReleaseCleanupPreview.canArchive
    (preview : ApplicationReleaseCleanupPreview) : Bool :=
  preview.immutableStatus == .ready && preview.archiveBlockers.isEmpty

/-- Whether it may be deleted. -/
def ApplicationReleaseCleanupPreview.canDelete
    (preview : ApplicationReleaseCleanupPreview) : Bool :=
  preview.immutableStatus == .archived && preview.blockers.isEmpty

/-- The environments whose current release it is. -/
def currentRefs (appReleaseId : Int) : Nat :=
  platform.registry.environments.countP fun environment =>
    environment.currentAppReleaseId == some appReleaseId

/-- The runs of it under way. -/
def activeRuns (appReleaseId : Int) : Nat :=
  platform.system.database.runs.countP fun run =>
    run.appReleaseId == appReleaseId && run.status.isActive

/-- All runs of it. -/
def deploymentRuns (appReleaseId : Int) : Nat :=
  platform.system.database.runs.countP fun run => run.appReleaseId == appReleaseId

/-- The items of it that have not ended. -/
def activeQueue (appReleaseId : Int) : Nat :=
  platform.others.queue.countP fun row => row.1 == appReleaseId && row.2

/-- All items of it. -/
def queueRefs (appReleaseId : Int) : Nat :=
  platform.others.queue.countP fun row => row.1 == appReleaseId

/-- The tasks of it. -/
def taskRefs (appReleaseId : Int) : Nat :=
  (platform.system.database.tasks.countP fun task => task.releaseId == appReleaseId) +
    platform.others.tasks.count appReleaseId

/-- The releases that were created from it. -/
def baseRefs (appReleaseId : Int) : Nat :=
  platform.registry.manifests.countP fun manifest =>
    manifest.baseAppReleaseId == some appReleaseId && manifest.immutableStatus != .deleted

/-- The preview of a release. -/
def applicationReleaseCleanupPreview (appId appReleaseId : Int) :
    Except DeploymentRetentionError ApplicationReleaseCleanupPreview :=
  match platform.registry.appReleases.find? fun release =>
      release.id == appReleaseId && release.appId == appId,
    platform.registry.manifests.find? fun manifest =>
      manifest.appReleaseId == appReleaseId && manifest.immutableStatus != .deleted with
  | some release, some manifest =>
      let currentRefs := platform.currentRefs appReleaseId
      let activeRuns := platform.activeRuns appReleaseId
      let deploymentRuns := platform.deploymentRuns appReleaseId
      let activeQueue := platform.activeQueue appReleaseId
      let queueRefs := platform.queueRefs appReleaseId
      let taskRefs := platform.taskRefs appReleaseId
      let legacyRunRefs := platform.others.legacyRuns.count appReleaseId
      let baseRefs := platform.baseRefs appReleaseId
      let current := blocker currentRefs s!"仍是 {currentRefs} 个环境的当前版本"
      .ok
        { appReleaseId, version := release.version, versionCode := release.versionCode
          immutableStatus := manifest.immutableStatus
          archiveBlockers := current ++
            blocker activeRuns s!"仍被 {activeRuns} 个活动部署使用" ++
            blocker activeQueue s!"仍有 {activeQueue} 条活动发布队列记录"
          blockers := current ++
            blocker deploymentRuns s!"仍被 {deploymentRuns} 条部署历史引用" ++
            blocker queueRefs s!"仍被 {queueRefs} 条发布队列历史引用" ++
            blocker taskRefs s!"仍被 {taskRefs} 条任务历史引用" ++
            blocker legacyRunRefs s!"仍被 {legacyRunRefs} 条兼容部署历史引用" ++
            blocker baseRefs s!"仍是 {baseRefs} 个应用版本的继承基线" }
  | _, _ => .error (.notFound "应用版本不存在")

/-- The transaction that archives a release. -/
def archiveApplicationRelease (appId appReleaseId : Int) :
    Except DeploymentRetentionError Registry :=
  match platform.applicationReleaseCleanupPreview appId appReleaseId with
  | .error error => .error error
  | .ok preview =>
      if preview.canArchive then .ok (platform.registry.markArchived appReleaseId)
      else .error (.invalidState ("应用版本当前不可归档：" ++
        if preview.archiveBlockers.isEmpty then s!"当前状态为 {preview.immutableStatus.name}"
        else String.intercalate "；" preview.archiveBlockers))

/-- The transaction that deletes a release. -/
def deleteApplicationRelease (appId appReleaseId : Int) :
    Except DeploymentRetentionError Registry :=
  match platform.applicationReleaseCleanupPreview appId appReleaseId with
  | .error error => .error error
  | .ok preview =>
      if preview.canDelete then .ok (platform.registry.removeRelease appReleaseId)
      else .error (.invalidState ("应用版本当前不可彻底删除：" ++
        if preview.blockers.isEmpty then s!"请先归档，当前状态为 {preview.immutableStatus.name}"
        else String.intercalate "；" preview.blockers))

/-- Of the transaction, that the run is looked up and the snapshot marked as deleted. -/
def deleteDeploymentSnapshot (deploymentRunId : Int) : Except DeploymentRetentionError Platform :=
  match platform.system.database.runs.find? fun run => run.id == deploymentRunId &&
      decide (deploymentRunId ∉ platform.deletedSnapshots) with
  | none => .error (.notFound "部署快照不存在或已经删除")
  | some run =>
      if run.status.isActive then .error (.invalidState "活动部署不能删除快照")
      else .ok { platform with deletedSnapshots := deploymentRunId :: platform.deletedSnapshots }

/-- Store the registry, which the orchestrator then reads. -/
def publish (registry : Registry) : Platform :=
  { platform with
    registry
    system := { platform.system with database := { platform.system.database with
      catalog := registry.catalog, environments := registry.environments } } }

/-- Store the system, whose environments the registry then has. -/
def follow (system : System) : Platform :=
  { platform with
    system
    registry := { platform.registry with environments := system.database.environments } }

end Platform

/-- What other parts of the program edit. -/
structure Settings where
  apps : List Int
  units : List Orchestrator.DeploymentUnit
  stages : List PipelineStage
  stageUnits : List StageUnit
  environments : List Orchestrator.Environment
  targets : List Orchestrator.EnvironmentTarget
  configRevisions : List Orchestrator.ConfigRevision

/-- The tables after an edit of the settings. -/
def Registry.configure (registry : Registry) (settings : Settings) : Registry :=
  { registry with
    apps := settings.apps, units := settings.units, stages := settings.stages
    stageUnits := settings.stageUnits, environments := settings.environments
    targets := settings.targets, configRevisions := settings.configRevisions }

/-- No other part of the program makes a release the current one of an environment. -/
def Registry.keepsCurrent (registry : Registry) (environments : List Orchestrator.Environment) :
    Bool :=
  environments.all fun environment => environment.currentAppReleaseId.isNone ||
    registry.environments.any fun old => old.id == environment.id &&
      old.currentAppReleaseId == environment.currentAppReleaseId

/-- What happens to releases and their artifacts. -/
inductive Action
  | registerUnitRelease (faults : ReleaseStatement → Option String)
      (input : RegisterUnitReleaseInput)
  | createApplicationRelease (faults : ReleaseStatement → Option String)
      (input : CreateApplicationReleaseInput)
  | archiveApplicationRelease (appId appReleaseId : Int)
  | deleteApplicationRelease (appId appReleaseId : Int)
  | cleanupArtifact (unitReleaseId : Int)
  /-- The deleter of a cleanup returns. -/
  | deleteObject (index : Nat) (failure : Option String)
  /-- The second transaction of a cleanup, unless the database reports a fault. -/
  | recordDeletion (index : Nat) (works : Bool)
  /-- A recovery that could list the releases. -/
  | recoverDeletingArtifacts
  /-- The first transaction of a recovery's next cleanup, unless the database reports a fault. -/
  | recoverNext (index : Nat) (works : Bool)
  | deleteDeploymentSnapshot (deploymentRunId : Int)
  | orchestrate (action : Orchestrator.Action)
  /-- Other parts of the program edit their tables and the rows that name releases. -/
  | configure (settings : Settings) (others : OtherReferences)
  /-- The process stops and starts again. -/
  | restart

namespace Platform

/-- Edits and restarts are steps of the platform. The handler that creates a run is the only one
that executes it, once. -/
def admits (platform : Platform) : Orchestrator.Action → Bool
  | .edit _ _ | .restart => false
  | .executeRun deploymentRunId => platform.system.executions.all fun execution =>
      execution.deploymentRunId != deploymentRunId
  | _ => true

variable (text : JsonText) (sha256Hex : String → String) (digests : Orchestrator.Digests)

/-- Store the registry that a transaction has left. -/
def commit {α ε : Type} (platform : Platform) (result : Except ε α × Registry) : Platform :=
  platform.publish result.2

/-- The step of an action, if it can be taken. -/
def step (platform : Platform) : Action → Option Platform
  | .registerUnitRelease faults input =>
      some (platform.commit (registerUnitReleaseCall text faults input platform.registry))
  | .createApplicationRelease faults input => some (platform.commit
      (createApplicationReleaseCall text sha256Hex faults input platform.registry))
  | .archiveApplicationRelease appId appReleaseId =>
      match platform.archiveApplicationRelease appId appReleaseId with
      | .error _ => none
      | .ok registry => some (platform.publish registry)
  | .deleteApplicationRelease appId appReleaseId =>
      match platform.deleteApplicationRelease appId appReleaseId with
      | .error _ => none
      | .ok registry => some (platform.publish registry)
  | .cleanupArtifact unitReleaseId =>
      match platform.cleanupArtifact unitReleaseId with
      | .error _ => none
      | .ok registry => some { platform.publish registry with
          cleanups := platform.cleanups ++ [⟨unitReleaseId, .deletingObject, none⟩] }
  | .deleteObject index failure =>
      match platform.cleanups[index]? with
      | some ⟨unitReleaseId, .deletingObject, recovery⟩ => some { platform with
          cleanups := platform.cleanups.set index ⟨unitReleaseId, .recording failure, recovery⟩ }
      | _ => none
  | .recordDeletion index works =>
      match platform.cleanups[index]? with
      | some ⟨unitReleaseId, .recording failure, recovery⟩ => some { platform.publish
            (if works then platform.registry.recordDeletion unitReleaseId failure
            else platform.registry) with
          cleanups := platform.cleanups.eraseIdx index
          -- The error of a cleanup ends the recovery that has called it.
          recoveries := platform.recoveries ++ if works then recovery.toList else [] }
      | _ => none
  | .recoverDeletingArtifacts => some { platform with
      recoveries := platform.recoveries ++ [sortBy Orchestrator.intLe
        ((platform.registry.unitReleases.filter fun release =>
          release.artifactStatus == .deleting).map (·.id))] }
  | .recoverNext index works =>
      match platform.recoveries[index]? with
      | some (unitReleaseId :: rest) =>
          match works, platform.cleanupArtifact unitReleaseId with
          | true, .ok registry => some { platform.publish registry with
              cleanups := platform.cleanups ++ [⟨unitReleaseId, .deletingObject, some rest⟩]
              recoveries := platform.recoveries.eraseIdx index }
          | _, _ => some { platform with recoveries := platform.recoveries.eraseIdx index }
      | _ => none
  | .deleteDeploymentSnapshot deploymentRunId =>
      match platform.deleteDeploymentSnapshot deploymentRunId with
      | .error _ => none
      | .ok platform => some platform
  | .orchestrate action =>
      if platform.admits action then (platform.system.step digests action).map platform.follow
      else none
  | .configure settings others =>
      if platform.registry.keepsCurrent settings.environments then
        some { platform.publish (platform.registry.configure settings) with others }
      else none
  | .restart => (platform.system.step digests .restart).map fun system =>
      { platform.follow system with cleanups := [], recoveries := [] }

end Platform

/-- Rows have their own keys, and rows of releases name releases that exist. -/
structure Registry.Sound (registry : Registry) : Prop where
  unitReleaseKeys : Keyed registry.unitReleases (·.id)
  manifestKeys : Keyed registry.manifests (·.appReleaseId)
  releases : ∀ release ∈ registry.appReleases, release.id ≤ registry.lastAppReleaseId
  manifests : ∀ manifest ∈ registry.manifests,
    manifest.appReleaseId ∈ registry.appReleases.map (·.id)
  units : ∀ row ∈ registry.releaseUnits, row.appReleaseId ∈ registry.manifests.map (·.appReleaseId)
  configs : ∀ row ∈ registry.environmentConfigs,
    row.appReleaseId ∈ registry.manifests.map (·.appReleaseId)

/-- The tables after a migration: nothing has been deployed, archived or cleaned up yet. -/
structure Platform.IsInitial (platform : Platform) : Prop where
  system : platform.system.IsInitial
  catalog : platform.system.database.catalog = platform.registry.catalog
  environments : platform.system.database.environments = platform.registry.environments
  sound : platform.registry.Sound
  artifacts : ∀ release ∈ platform.registry.unitReleases, release.artifactStatus = .active
  manifests : ∀ manifest ∈ platform.registry.manifests, manifest.immutableStatus = .ready
  current : ∀ environment ∈ platform.registry.environments, ∀ appReleaseId,
    environment.currentAppReleaseId = some appReleaseId →
      appReleaseId ∈ platform.registry.manifests.map (·.appReleaseId)
  snapshots : platform.deletedSnapshots = []
  cleanups : platform.cleanups = []
  recoveries : platform.recoveries = []

/-- The platform after a migration. -/
def platform (text : JsonText) (sha256Hex : String → String) (digests : Orchestrator.Digests) :
    Transition Platform Action where
  initial := Platform.IsInitial
  step := Platform.step text sha256Hex digests

end EasyDeploy.Releases
