import EasyDeploy.Foundation.Table
import EasyDeploy.Orchestrator.Plan

/-!
# The tables of the deployment orchestrator

Rows of the tables that the orchestrator reads and writes, and the query that
turns the stored releases, configurations and node states into a plan. Of the
timestamps only the fact that a cancellation was requested is read again, so the
others are left out.
-/

namespace EasyDeploy.Orchestrator
open Foundation

/-- The values of `environment_deployment_runs.status`. -/
inductive RunStatus
  | queued
  | running
  | reconciling
  | success
  | partialFailed
  | allFailed
  | canceled
deriving Repr, DecidableEq

namespace RunStatus

/-- The statuses of the partial unique index on the environment. -/
def isActive : RunStatus → Bool
  | queued | running | reconciling => true
  | _ => false

/-- A status that does not change any more. -/
def isTerminal (status : RunStatus) : Bool := !status.isActive

/-- The word for a status. -/
def name : RunStatus → String
  | queued => "queued"
  | running => "running"
  | reconciling => "reconciling"
  | success => "success"
  | partialFailed => "partial_failed"
  | allFailed => "all_failed"
  | canceled => "canceled"

end RunStatus

/-- The values of `deployment_unit_run_results.status`. -/
inductive UnitStatus
  | pending
  | running
  | success
  | failed
  | skipped
  | notStarted
  | canceledUnknown
deriving Repr, DecidableEq

/-- The unit is waiting or executing. -/
def UnitStatus.isOpen : UnitStatus → Bool
  | pending | running => true
  | _ => false

/-- The values of `operation_tasks.status`. -/
inductive TaskStatus
  | queued
  | running
  | success
  | failed
  | canceled
deriving Repr, DecidableEq

/-- The task has not ended. -/
def TaskStatus.isOpen : TaskStatus → Bool
  | queued | running => true
  | _ => false

/-- The values of `operation_tasks.phase` that the orchestrator writes. -/
inductive TaskProgress
  | queued
  | executing
  | completed
  | failed
  | canceled
deriving Repr, DecidableEq

/-- The values of the status of a task phase or a task step. -/
inductive StepStatus
  | pending
  | running
  | success
  | failed
  | skipped
deriving Repr, DecidableEq

/-- The step has not ended. -/
def StepStatus.isOpen : StepStatus → Bool
  | pending | running => true
  | _ => false

/-- The values of `app_environments.status`. -/
inductive EnvironmentStatus
  | configuring
  | ready
  | disabled
deriving Repr, DecidableEq

/-- The values of `app_environments.runtime_status`. -/
inductive EnvironmentRuntimeStatus
  | unknown
  | running
  | partialUnhealthy
  | stopped
deriving Repr, DecidableEq

/-- The values of `app_environments.last_deployment_status`. -/
inductive LastDeploymentStatus
  | waiting
  | running
  | success
  | partialFailed
  | allFailed
  | canceled
deriving Repr, DecidableEq

/-- A row of `environment_deployment_runs`. `planJson` is what decoding the stored
text gives. -/
structure DeploymentRun where
  id : Int
  appId : Int
  environmentId : Int
  appReleaseId : Int
  configRevisionId : Int
  taskId : Int
  deploymentMode : DeploymentMode
  planHash : String
  planJson : Except String DeploymentPlan
  status : RunStatus
  summary : String
  createdBy : String
  cancelRequested : Bool
  cancelRequestedBy : String
  reconciledBy : String
  reconciliationNote : String
deriving Repr, DecidableEq

/-- A row of `deployment_unit_run_results`. -/
structure UnitResult where
  deploymentRunId : Int
  unitId : Int
  unitReleaseId : Option Int
  stageNo : Int
  action : DeploymentAction
  status : UnitStatus
  targetFingerprint : String
  previousFingerprint : String
  failureKind : String
  failureSummary : String
  exitCode : Option Int
deriving Repr, DecidableEq

/-- A row of `operation_tasks` for a deployment run. -/
structure OperationTask where
  id : Int
  title : String
  appId : Int
  releaseId : Int
  environmentId : Int
  status : TaskStatus
  phase : TaskProgress
  command : String
  summary : String
  exitCode : Option Int
  createdBy : String
deriving Repr, DecidableEq

/-- A row of `operation_task_phases`. -/
structure TaskPhase where
  id : Int
  taskId : Int
  phaseNo : Int
  phaseKey : String
  title : String
  status : StepStatus
deriving Repr, DecidableEq

/-- A row of `operation_task_steps`. -/
structure TaskStep where
  id : Int
  taskId : Int
  phaseId : Option Int
  stepNo : Int
  stepKey : String
  title : String
  command : String
  status : StepStatus
  exitCode : Option Int
deriving Repr, DecidableEq

/-- A row of `operation_task_logs`. -/
structure TaskLog where
  taskId : Int
  stepId : Option Int
  content : String
deriving Repr, DecidableEq

/-- A row of `deployment_unit_runtime_states`. -/
structure UnitRuntimeState where
  environmentId : Int
  unitId : Int
  nodeId : Int
  runtimeStatus : UnitRuntimeStatus
  activeUnitReleaseId : Option Int
  activeFingerprint : String
  containerVersionLabel : String
  message : String
  lastDeploymentRunId : Int
deriving Repr, DecidableEq

/-- A row of `app_environments`. -/
structure Environment where
  id : Int
  appId : Int
  status : EnvironmentStatus
  maxParallelUnits : Int
  currentAppReleaseId : Option Int
  currentConfigRevisionId : Option Int
  runtimeStatus : EnvironmentRuntimeStatus
  lastDeploymentStatus : LastDeploymentStatus
deriving Repr, DecidableEq

/-- A row of `app_releases` with whether its manifest is ready. -/
structure AppRelease where
  id : Int
  appId : Int
  manifestReady : Bool
deriving Repr, DecidableEq

/-- A row of `app_release_environment_configs`. -/
structure ReleaseEnvironmentConfig where
  appReleaseId : Int
  environmentId : Int
  configRevisionId : Int
deriving Repr, DecidableEq

/-- A row of `app_config_revisions`. -/
structure ConfigRevision where
  id : Int
  appId : Int
  configHash : String
deriving Repr, DecidableEq

/-- A row of `app_environment_targets`. -/
structure EnvironmentTarget where
  environmentId : Int
  nodeId : Int
deriving Repr, DecidableEq

/-- A row of `deployment_units`. -/
structure DeploymentUnit where
  id : Int
  appId : Int
  unitKey : String
deriving Repr, DecidableEq

/-- A row of `deployment_unit_releases`. -/
structure UnitRelease where
  id : Int
  version : String
  versionCode : Int
deriving Repr, DecidableEq

/-- A row of `app_release_units`. -/
structure AppReleaseUnit where
  appReleaseId : Int
  unitId : Int
  unitReleaseId : Option Int
  desiredStatus : String
  stageNo : Int
  unitOrder : Int
  removalOrder : Int
  targetFingerprint : String
deriving Repr, DecidableEq

/-- The tables that the orchestrator only reads. -/
structure Catalog where
  releases : List AppRelease
  environmentConfigs : List ReleaseEnvironmentConfig
  configRevisions : List ConfigRevision
  targets : List EnvironmentTarget
  units : List DeploymentUnit
  unitReleases : List UnitRelease
  releaseUnits : List AppReleaseUnit
deriving Repr, DecidableEq

/-- The tables of the orchestrator. -/
structure Database where
  catalog : Catalog
  environments : List Environment
  runs : List DeploymentRun
  unitResults : List UnitResult
  tasks : List OperationTask
  phases : List TaskPhase
  steps : List TaskStep
  logs : List TaskLog
  runtimeStates : List UnitRuntimeState
deriving Repr, DecidableEq

/-- The errors of the orchestrator's operations. -/
inductive OrchestratorError
  | validation (message : String)
  | conflict (message : String)
  | notFound (message : String)
  | database (message : String)
deriving Repr, DecidableEq

/-- How an error is displayed. -/
def OrchestratorError.message : OrchestratorError → String
  | validation message | conflict message | notFound message | database message => message

/-- The application, the environment and the release of a plan. -/
structure PlanIdentity where
  appId : Int
  configRevisionId : Int
  configHash : String
deriving Repr, DecidableEq

namespace Database

variable (database : Database)

/-- The environment, its application release, the release's configuration for the
environment and the configuration revision. -/
def planIdentity (environmentId appReleaseId : Int) : Option PlanIdentity :=
  match database.environments.find? fun environment =>
      environment.id == environmentId && environment.status != .disabled with
  | none => none
  | some environment =>
      if database.catalog.releases.any fun release => release.id == appReleaseId &&
          release.appId == environment.appId && release.manifestReady then
        match database.catalog.environmentConfigs.find? fun selection =>
            selection.appReleaseId == appReleaseId &&
              selection.environmentId == environmentId with
        | none => none
        | some selection =>
            (database.catalog.configRevisions.find? fun revision =>
              revision.id == selection.configRevisionId &&
                revision.appId == environment.appId).map fun revision =>
              { appId := environment.appId, configRevisionId := selection.configRevisionId
                configHash := revision.configHash }
      else
        none

/-- The nodes of an environment, in order. -/
def targetNodeIds (environmentId : Int) : List Int :=
  sortBy intLe ((database.catalog.targets.filter fun target =>
    target.environmentId == environmentId).map (·.nodeId))

/-- The unit release that an entry names. -/
def unitRelease (unitReleaseId : Option Int) : Option UnitRelease :=
  unitReleaseId.bind fun id => database.catalog.unitReleases.find? fun release => release.id == id

/-- Stage, order and unit, by which the target units are listed. -/
def targetUnitLe (left right : TargetUnitState) : Bool :=
  keyLe (left.stageNo, left.unitOrder, left.unitId, 0)
    (right.stageNo, right.unitOrder, right.unitId, 0)

/-- What a release asks of the units. -/
def targetUnits (digests : Digests) (identity : PlanIdentity) (appReleaseId : Int) :
    List TargetUnitState :=
  sortBy targetUnitLe ((database.catalog.releaseUnits.filter fun row =>
    row.appReleaseId == appReleaseId).filterMap fun row => (database.catalog.units.find? fun unit =>
        unit.id == row.unitId && unit.appId == identity.appId).map fun unit =>
      { unitId := unit.id, unitKey := unit.unitKey, unitReleaseId := row.unitReleaseId
        releaseVersion := (database.unitRelease row.unitReleaseId).map (·.version)
        releaseVersionCode := (database.unitRelease row.unitReleaseId).map (·.versionCode)
        desiredStatus := row.desiredStatus, stageNo := row.stageNo, unitOrder := row.unitOrder
        removalOrder := row.removalOrder
        targetFingerprint :=
          digests.deploymentTargetFingerprint row.targetFingerprint identity.configHash })

/-- Unit and node, by which the current states are listed. -/
def runtimeStateLe (left right : UnitRuntimeState) : Bool :=
  keyLe (left.unitId, left.nodeId, 0, 0) (right.unitId, right.nodeId, 0, 0)

/-- What runs on the nodes. -/
def currentStates (environmentId : Int) : List CurrentUnitNodeState :=
  (sortBy runtimeStateLe (database.runtimeStates.filter fun state =>
    state.environmentId == environmentId && database.catalog.targets.any fun target =>
      target.environmentId == environmentId && target.nodeId == state.nodeId)).map fun state =>
      { unitId := state.unitId, nodeId := state.nodeId, runtimeStatus := state.runtimeStatus
        activeUnitReleaseId := state.activeUnitReleaseId
        activeVersionCode := (database.unitRelease state.activeUnitReleaseId).map (·.versionCode)
        activeFingerprint := state.activeFingerprint
        containerVersionLabel := state.containerVersionLabel }

/-- What `load_deployment_plan` reads before it builds the plan. -/
def planInput (digests : Digests) (environmentId appReleaseId : Int) (mode : DeploymentMode) :
    Except OrchestratorError DeploymentPlanInput :=
  match database.planIdentity environmentId appReleaseId with
  | none => .error (.notFound "环境、应用版本或对应配置版本不存在或不可部署")
  | some identity => .ok
      { appId := identity.appId, environmentId, appReleaseId
        configRevisionId := identity.configRevisionId, mode
        targetNodeIds := database.targetNodeIds environmentId
        targetUnits := database.targetUnits digests identity appReleaseId
        currentStates := database.currentStates environmentId }

/-- The plan of a release for an environment. -/
def loadDeploymentPlan (digests : Digests) (environmentId appReleaseId : Int)
    (mode : DeploymentMode) : Except OrchestratorError DeploymentPlan :=
  match database.planInput digests environmentId appReleaseId mode with
  | .error error => .error error
  | .ok input =>
      match buildDeploymentPlan digests input with
      | .error error => .error (.validation error.message)
      | .ok plan => .ok plan

variable {database} {digests : Digests} {environmentId appReleaseId : Int} {mode : DeploymentMode}
  {plan : DeploymentPlan}

/-- A loaded plan is the one built from what was read. -/
theorem loadDeploymentPlan_eq_ok
    (h : database.loadDeploymentPlan digests environmentId appReleaseId mode = .ok plan) :
    ∃ input, database.planInput digests environmentId appReleaseId mode = .ok input ∧
      buildDeploymentPlan digests input = .ok plan := by
  unfold loadDeploymentPlan at h
  split at h
  · cases h
  · rename_i input hinput
    split at h
    · cases h
    · rename_i built hbuilt
      obtain rfl := Except.ok.inj h
      exact ⟨input, hinput, hbuilt⟩

/-- What the input of a plan takes from the request and from the node states. -/
theorem planInput_eq_ok {input : DeploymentPlanInput}
    (h : database.planInput digests environmentId appReleaseId mode = .ok input) :
    input.environmentId = environmentId ∧ input.mode = mode ∧
      input.currentStates = database.currentStates environmentId := by
  unfold planInput at h
  split at h
  · cases h
  · obtain rfl := Except.ok.inj h
    exact ⟨rfl, rfl, rfl⟩

theorem environmentId_of_loadDeploymentPlan
    (h : database.loadDeploymentPlan digests environmentId appReleaseId mode = .ok plan) :
    plan.environmentId = environmentId := by
  obtain ⟨input, hinput, hbuilt⟩ := loadDeploymentPlan_eq_ok h
  exact (buildDeploymentPlan_eq_ok hbuilt).1.trans (planInput_eq_ok hinput).1

end Database

end EasyDeploy.Orchestrator
