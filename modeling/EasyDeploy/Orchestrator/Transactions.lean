import EasyDeploy.Orchestrator.Database

/-!
# The transactions of the deployment orchestrator

Each transaction is a function of the database. A refused transaction is rolled
back, so that only an accepted one returns a database.
-/

namespace EasyDeploy.Orchestrator
open Foundation

/-- What a run is created from. -/
structure CreateDeploymentRunInput where
  environmentId : Int
  appReleaseId : Int
  mode : DeploymentMode
  expectedPlanHash : String
  createdBy : String
deriving Repr, DecidableEq

/-- The rows of a new run. -/
structure CreatedDeploymentRun where
  deploymentRunId : Int
  taskId : Int
  plan : DeploymentPlan
deriving Repr, DecidableEq

/-- `ORDER BY id DESC LIMIT 1`. -/
def latestRun : List DeploymentRun → Option DeploymentRun
  | [] => none
  | run :: runs =>
      match latestRun runs with
      | none => some run
      | some later => if run.id < later.id then some later else some run

/-- The key of a stage's phase. -/
def phaseKey (stageNo : Int) : String := s!"deployment-stage-{stageNo}"

/-- The phases of a new task, one for each stage of the plan. -/
def newPhases (firstId taskId : Int) (items : List DeploymentPlanItem) : List TaskPhase :=
  (dedup (sortBy intLe (items.map (·.stageNo)))).mapIdx fun index stageNo =>
    { id := firstId + index, taskId, phaseNo := index + 1, phaseKey := phaseKey stageNo
      title := s!"部署阶段 {stageNo}", status := .pending }

/-- The row of a unit before it is started. -/
def newUnitResult (deploymentRunId : Int) (item : DeploymentPlanItem) : UnitResult :=
  { deploymentRunId, unitId := item.unitId, unitReleaseId := item.unitReleaseId
    stageNo := item.stageNo, action := item.action
    status := if item.action = .skip then .skipped else .pending
    targetFingerprint := item.targetFingerprint, previousFingerprint := item.previousFingerprint
    failureKind := "", failureSummary := "", exitCode := none }

/-- Close a row of a unit that did not start. -/
def UnitResult.notStarted (failureKind failureSummary : String) (row : UnitResult) : UnitResult :=
  { row with status := .notStarted, failureKind, failureSummary }

/-- Close an open row: what a running unit left behind is unknown. -/
def UnitResult.interrupted (failureKind unknownSummary notStartedSummary : String)
    (row : UnitResult) : UnitResult :=
  { row with
    status := if row.status = .running then .canceledUnknown else .notStarted
    failureKind
    failureSummary := if row.status = .running then unknownSummary else notStartedSummary }

/-- Close an open phase. -/
def TaskPhase.interrupted (phase : TaskPhase) : TaskPhase :=
  { phase with status := if phase.status = .running then .failed else .skipped }

/-- How the results of a run are counted: successes and skips, failures and units
not started, units in an unknown state, and all units. -/
structure ResultCounts where
  succeeded : Nat
  failed : Nat
  canceledUnknown : Nat
  total : Nat
deriving Repr, DecidableEq

namespace UnitStatus

/-- The unit is as the plan wants it. -/
def succeeded : UnitStatus → Bool
  | success | skipped => true
  | _ => false

/-- The unit failed or was not started. -/
def unsuccessful : UnitStatus → Bool
  | failed | notStarted => true
  | _ => false

end UnitStatus

/-- The results by their kind. -/
def countResults (rows : List UnitResult) : ResultCounts :=
  { succeeded := rows.countP (·.status.succeeded), failed := rows.countP (·.status.unsuccessful)
    canceledUnknown := rows.countP (·.status == .canceledUnknown), total := rows.length }

/-- Decoding the sums over a run without rows fails. -/
def sumOfNoRows : OrchestratorError :=
  .database "error occurred while decoding column 0: unexpected null; try decoding as an `Option`"

/-- What a finished run answers. -/
structure DeploymentRunOutcome where
  deploymentRunId : Int
  status : RunStatus
  summary : String
deriving Repr, DecidableEq

/-- The value of `last_deployment_status` for a terminal run status. -/
def RunStatus.lastDeploymentStatus : RunStatus → LastDeploymentStatus
  | success => .success
  | partialFailed => .partialFailed
  | allFailed => .allFailed
  | canceled => .canceled
  | queued | running | reconciling => .running

namespace Database

variable (database : Database)

/-- The run that holds an environment. -/
def activeRun (environmentId : Int) : Option DeploymentRun :=
  latestRun (database.runs.filter fun run => run.environmentId == environmentId &&
    run.status.isActive)

/-- Insert a run with its task, its phases and its results. -/
def insertRun (input : CreateDeploymentRunInput) (plan : DeploymentPlan) :
    CreatedDeploymentRun × Database :=
  let taskId := nextId (database.tasks.map (·.id))
  let deploymentRunId := nextId (database.runs.map (·.id))
  ({ deploymentRunId, taskId, plan }, { database with
    tasks := database.tasks ++ [
      { id := taskId, title := s!"部署应用版本 #{input.appReleaseId} 到环境 #{input.environmentId}"
        appId := plan.appId, releaseId := input.appReleaseId
        environmentId := input.environmentId, status := .queued, phase := .queued
        command := "", summary := "", exitCode := none, createdBy := trim input.createdBy }]
    runs := database.runs ++ [
      { id := deploymentRunId, appId := plan.appId, environmentId := plan.environmentId
        appReleaseId := plan.appReleaseId, configRevisionId := plan.configRevisionId, taskId
        deploymentMode := plan.mode, planHash := plan.planHash, planJson := .ok plan
        status := .queued, summary := "", createdBy := trim input.createdBy
        cancelRequested := false, cancelRequestedBy := "", reconciledBy := ""
        reconciliationNote := "" }]
    phases := database.phases ++
      newPhases (nextId (database.phases.map (·.id))) taskId plan.items
    unitResults := database.unitResults ++ plan.items.map (newUnitResult deploymentRunId) })

/-- The transaction that creates a run. -/
def createRun (digests : Digests) (input : CreateDeploymentRunInput) :
    Except OrchestratorError (CreatedDeploymentRun × Database) :=
  if (trim input.expectedPlanHash).isEmpty then
    .error (.validation "确认部署时必须提交预览 plan hash")
  else
    match database.activeRun input.environmentId with
    | some run => .error (.conflict
        s!"当前环境已有部署流程正在进行（部署 #{run.id}，状态 {run.status.name}）")
    | none =>
        match database.loadDeploymentPlan digests input.environmentId input.appReleaseId
            input.mode with
        | .error error => .error error
        | .ok plan =>
            if plan.planHash ≠ input.expectedPlanHash then
              .error (.conflict "部署目标或运行状态已变化，请重新预览并确认")
            -- The trigger on `operation_tasks` rejects a second open task of an environment.
            else if database.tasks.any fun task => task.status.isOpen &&
                task.environmentId == input.environmentId then
              .error (.conflict "当前环境已有部署流程正在进行")
            else .ok (database.insertRun input plan)

theorem createRun_eq_ok {database : Database} {digests : Digests}
    {input : CreateDeploymentRunInput} {result : CreatedDeploymentRun × Database}
    (h : database.createRun digests input = .ok result) :
    ∃ plan, database.activeRun input.environmentId = none ∧
      database.loadDeploymentPlan digests input.environmentId input.appReleaseId input.mode =
        .ok plan ∧ result = database.insertRun input plan := by
  simp only [createRun] at h
  split at h
  · cases h
  · split at h
    · cases h
    · rename_i hnone
      split at h
      · cases h
      · rename_i plan hplan
        split at h
        · cases h
        · split at h
          · cases h
          · exact ⟨plan, hnone, hplan, (Except.ok.inj h).symm⟩

end Database

/-- What claiming a run returns. -/
structure ExecutionRun where
  taskId : Int
  environmentId : Int
  planHash : String
  planJson : Except String DeploymentPlan
  maxParallelUnits : Int
  cancelRequested : Bool
deriving Repr, DecidableEq

/-- How the execution of a unit ends. -/
inductive UnitExecutionOutcome
  | success (summary : String)
  | failed (failureKind summary : String) (exitCode : Option Int)
  | canceledUnknown (summary : String)
deriving Repr, DecidableEq

namespace UnitExecutionOutcome

/-- The unit was deployed. -/
def isSuccess : UnitExecutionOutcome → Bool
  | success _ => true
  | _ => false

/-- The status of the unit's row. -/
def resultStatus : UnitExecutionOutcome → UnitStatus
  | success _ => .success
  | failed _ _ _ => .failed
  | canceledUnknown _ => .canceledUnknown

/-- What is noted of a failure. -/
def failureKind : UnitExecutionOutcome → String
  | success _ => ""
  | failed failureKind _ _ => failureKind
  | canceledUnknown _ => "canceled_unknown"

/-- The text of an outcome. -/
def summary : UnitExecutionOutcome → String
  | success summary | failed _ summary _ | canceledUnknown summary => summary

/-- The code that a command ended with. -/
def exitCode : UnitExecutionOutcome → Option Int
  | success _ => some 0
  | failed _ _ exitCode => exitCode
  | canceledUnknown _ => none

/-- The status of the unit's step. -/
def stepStatus : UnitExecutionOutcome → StepStatus
  | success _ => .success
  | _ => .failed

end UnitExecutionOutcome

/-- The word for an action. -/
def DeploymentAction.name : DeploymentAction → String
  | .deploy => "deploy"
  | .skip => "skip"
  | .start => "start"
  | .stop => "stop"
  | .upgrade => "upgrade"
  | .downgrade => "downgrade"
  | .restore => "restore"
  | .applicationCheck => "application_check"

/-- The node state that a successful item leaves behind. -/
def deployedState (deploymentRunId environmentId nodeId : Int) (item : DeploymentPlanItem)
    (summary : String) : UnitRuntimeState :=
  if item.action = .stop then
    { environmentId, unitId := item.unitId, nodeId, runtimeStatus := .stopped
      activeUnitReleaseId := none, activeFingerprint := "", containerVersionLabel := ""
      message := summary, lastDeploymentRunId := deploymentRunId }
  else
    { environmentId, unitId := item.unitId, nodeId, runtimeStatus := .healthy
      activeUnitReleaseId := item.unitReleaseId, activeFingerprint := item.targetFingerprint
      containerVersionLabel := item.releaseVersion.getD "", message := summary
      lastDeploymentRunId := deploymentRunId }

/-- The primary key of `deployment_unit_runtime_states`. -/
def UnitRuntimeState.key (state : UnitRuntimeState) : Int × Int × Int :=
  (state.environmentId, state.unitId, state.nodeId)

namespace Database

variable (database : Database)

/-- The run and its task are running. -/
def recordClaim (run : DeploymentRun) : Database :=
  { database with
    runs := updateAt database.runs (·.id) run.id (·.status == .queued)
      fun run => { run with status := .running }
    tasks := updateAt database.tasks (·.id) run.taskId (·.status == .queued)
      fun task => { task with
        status := .running, phase := .executing, command := "execute immutable deployment plan" }
    environments := updateAt database.environments (·.id) run.environmentId (fun _ => true)
      fun environment => { environment with lastDeploymentStatus := .running } }

/-- A waiting run is taken by an execution. -/
def claimDeploymentRun (deploymentRunId : Int) :
    Except OrchestratorError (ExecutionRun × Database) :=
  match database.runs.find? fun run => run.id == deploymentRunId && run.status == .queued with
  | none => .error (.conflict "部署执行不存在、缺少任务或已被其他执行器领取")
  | some run =>
      match database.environments.find? fun environment =>
          environment.id == run.environmentId with
      | none => .error (.conflict "部署执行不存在、缺少任务或已被其他执行器领取")
      | some environment =>
          if affectedAt database.runs (·.id) run.id (·.status == .queued) ≠ 1 ∨
              affectedAt database.tasks (·.id) run.taskId (·.status == .queued) ≠ 1 then
            .error (.conflict "关联任务已取消或被其他执行器领取")
          else
            .ok ({ taskId := run.taskId, environmentId := run.environmentId
                   planHash := run.planHash, planJson := run.planJson
                   maxParallelUnits := environment.maxParallelUnits
                   cancelRequested := run.cancelRequested },
              database.recordClaim run)

theorem claimDeploymentRun_eq_ok {database : Database} {deploymentRunId : Int}
    {run : ExecutionRun} {database' : Database}
    (h : database.claimDeploymentRun deploymentRunId = .ok (run, database')) :
    ∃ stored ∈ database.runs, stored.id = deploymentRunId ∧ stored.status = .queued ∧
      run.taskId = stored.taskId ∧ run.environmentId = stored.environmentId ∧
      run.planJson = stored.planJson ∧ database' = database.recordClaim stored := by
  unfold claimDeploymentRun at h
  split at h
  · cases h
  · rename_i stored hfind
    have hstored := List.find?_some hfind
    rw [Bool.and_eq_true, beq_iff_eq, beq_iff_eq] at hstored
    split at h
    · cases h
    · split at h
      · cases h
      · obtain ⟨rfl, rfl⟩ := Prod.mk.inj (Except.ok.inj h)
        exact ⟨stored, List.mem_of_find?_eq_some hfind, hstored.1, hstored.2, rfl, rfl, rfl, rfl⟩

/-- Whether someone has asked for the end of a run. -/
def cancellationRequested (deploymentRunId : Int) : Except OrchestratorError Bool :=
  match database.runs.find? fun run => run.id == deploymentRunId with
  | none => .error (.notFound "部署执行不存在")
  | some run => .ok run.cancelRequested

/-- The step of a unit that starts. -/
def newStep (taskId : Int) (item : DeploymentPlanItem) : TaskStep :=
  { id := nextId (database.steps.map (·.id)), taskId
    phaseId := (database.phases.find? fun phase =>
      phase.taskId == taskId && phase.phaseKey == phaseKey item.stageNo).map (·.id)
    stepNo := nextId ((database.steps.filter fun step => step.taskId == taskId).map (·.stepNo))
    stepKey := s!"unit-{item.unitId}", title := s!"{item.action.name}：{item.unitKey}"
    command := item.action.name, status := .running, exitCode := none }

/-- The unit and its step are running. -/
def recordStart (deploymentRunId taskId : Int) (item : DeploymentPlanItem) : Database :=
  { database with
    unitResults := updateAt database.unitResults (fun row => (row.deploymentRunId, row.unitId))
      (deploymentRunId, item.unitId) (·.status == .pending)
      fun row => { row with status := .running }
    steps := database.steps ++ [database.newStep taskId item] }

/-- The transaction in which a unit is started. -/
def startUnitResult (deploymentRunId taskId : Int) (item : DeploymentPlanItem) :
    Except OrchestratorError (Int × Database) :=
  if affectedAt database.unitResults (fun row => (row.deploymentRunId, row.unitId))
      (deploymentRunId, item.unitId) (·.status == .pending) ≠ 1 then
    .error (.conflict s!"部署单元 {item.unitKey} 当前状态不能开始执行")
  else
    .ok ((database.newStep taskId item).id, database.recordStart deploymentRunId taskId item)

/-- A unit starts from a pending result. -/
theorem startUnitResult_eq_ok {database : Database} {deploymentRunId taskId stepId : Int}
    {item : DeploymentPlanItem} {database' : Database}
    (h : database.startUnitResult deploymentRunId taskId item = .ok (stepId, database')) :
    (∃ row ∈ database.unitResults, row.deploymentRunId = deploymentRunId ∧
      row.unitId = item.unitId ∧ row.status = .pending) ∧
      stepId = (database.newStep taskId item).id ∧
      database' = database.recordStart deploymentRunId taskId item := by
  unfold startUnitResult at h
  split at h
  · cases h
  · rename_i haffected
    obtain ⟨rfl, rfl⟩ := Prod.mk.inj (Except.ok.inj h)
    refine ⟨?_, rfl, rfl⟩
    have hpos : 0 < affectedAt database.unitResults (fun row => (row.deploymentRunId, row.unitId))
        (deploymentRunId, item.unitId) (·.status == .pending) := by
      omega
    obtain ⟨row, hrow, hwanted⟩ := List.countP_pos_iff.mp hpos
    simp only [Prod.mk.injEq, beq_iff_eq, decide_eq_true_eq] at hwanted
    exact ⟨row, hrow, hwanted.1.1, hwanted.1.2, hwanted.2⟩

/-- The transaction in which the outcome of a unit is stored. -/
def persistUnitOutcome (deploymentRunId taskId stepId environmentId : Int)
    (targetNodeIds : List Int) (item : DeploymentPlanItem) (outcome : UnitExecutionOutcome) :
    Database :=
  { database with
    unitResults := updateAt database.unitResults (fun row => (row.deploymentRunId, row.unitId))
      (deploymentRunId, item.unitId) (·.status == .running)
      fun row => { row with
        status := outcome.resultStatus, failureKind := outcome.failureKind
        failureSummary := outcome.summary, exitCode := outcome.exitCode }
    steps := updateAt database.steps (fun step => (step.id, step.taskId)) (stepId, taskId)
      (fun _ => true)
      fun step => { step with status := outcome.stepStatus, exitCode := outcome.exitCode }
    logs := database.logs ++ [{ taskId, stepId := some stepId, content := outcome.summary }]
    runtimeStates :=
      if outcome.isSuccess then
        targetNodeIds.foldl (fun states nodeId => upsert states UnitRuntimeState.key
          (deployedState deploymentRunId environmentId nodeId item outcome.summary))
          database.runtimeStates
      else
        database.runtimeStates }

/-- Close the units that did not start because the run was canceled or a unit failed. -/
def closePendingResults (deploymentRunId : Int) (canceled : Bool) : Database :=
  { database with
    unitResults := updateAt database.unitResults (·.deploymentRunId) deploymentRunId
      (·.status == .pending)
      (if canceled then
        .notStarted "canceled_before_start" "部署已取消，本单元未启动"
      else
        .notStarted "blocked_by_previous_failure" "前序部署单元失败，本单元未启动") }

/-- The units of a run. -/
def resultsOf (deploymentRunId : Int) : List UnitResult :=
  database.unitResults.filter fun row => row.deploymentRunId == deploymentRunId

/-- The counts of a run, unless it has no rows. -/
def resultCounts (deploymentRunId : Int) : Except OrchestratorError ResultCounts :=
  if (database.resultsOf deploymentRunId).isEmpty then .error sumOfNoRows
  else .ok (countResults (database.resultsOf deploymentRunId))

end Database

/-- The status that the results give. -/
def finalStatus (counts : ResultCounts) (cancellationRequested : Bool) : RunStatus :=
  if counts.failed = 0 ∧ counts.canceledUnknown = 0 then .success
  else if counts.succeeded > 0 then .partialFailed
  else if cancellationRequested ∨ counts.canceledUnknown > 0 then .canceled
  else .allFailed

/-- The text that they give. -/
def finalSummary (counts : ResultCounts) (cancellationRequested : Bool) : String :=
  let summary := s!"共 {counts.total} 个部署单元：成功或跳过 {counts.succeeded}，" ++
    s!"失败或未启动 {counts.failed}，取消状态未知 {counts.canceledUnknown}"
  if cancellationRequested ∧ finalStatus counts cancellationRequested ≠ .success then
    summary ++ "；部署由运维主动取消"
  else
    summary

/-- The status of the run's task. -/
def finalTaskStatus : RunStatus → Bool → TaskStatus
  | .success, _ => .success
  | _, true | .canceled, false => .canceled
  | _, _ => .failed

/-- The task phase that goes with a terminal task status. -/
def finalTaskProgress : TaskStatus → TaskProgress
  | .success => .completed
  | .canceled => .canceled
  | _ => .failed

/-- The runtime status that the environment gets. -/
def finalEnvironmentRuntime (status : RunStatus) (items : List DeploymentPlanItem) :
    EnvironmentRuntimeStatus :=
  match status with
  | .success => if items.all (·.unitReleaseId.isNone) then .stopped else .running
  | .partialFailed => .partialUnhealthy
  | _ => .unknown

/-- The status of a phase from the results of its stage. -/
def finalPhaseStatus (stageResults : List UnitResult) : StepStatus :=
  if stageResults.any fun row => row.status == .failed || row.status == .canceledUnknown then
    .failed
  else if stageResults.any fun row => row.status == .notStarted then .skipped
  else .success

namespace Database

variable (database : Database)

/-- The results of the runs of a task in the stage that a phase key names; the number
behind the key's prefix is the stage number exactly when the key is that of the stage. -/
def phaseResults (phase : TaskPhase) : List UnitResult :=
  database.unitResults.filter fun row => phase.phaseKey == phaseKey row.stageNo &&
    database.runs.any fun run => run.id == row.deploymentRunId && run.taskId == phase.taskId

/-- The second half of `finalize_deployment_run`, a transaction after the counts. -/
def recordFinalStatus (deploymentRunId : Int) (plan : DeploymentPlan) (canceled : Bool)
    (counts : ResultCounts) : Database :=
  let status := finalStatus counts canceled
  let summary := finalSummary counts canceled
  let taskStatus := finalTaskStatus status canceled
  let taskId := (database.runs.find? fun run => run.id == deploymentRunId).map (·.taskId)
  { database with
    runs := updateAt database.runs (·.id) deploymentRunId (·.status == .running)
      fun run => { run with status, summary }
    tasks := updateAt database.tasks (some ·.id) taskId (fun _ => true)
      fun task => { task with
        status := taskStatus, phase := finalTaskProgress taskStatus, summary
        exitCode := some (if taskStatus = .success then 0 else 1) }
    phases := updateAt database.phases (some ·.taskId) taskId (fun _ => true)
      fun phase => { phase with status := finalPhaseStatus (database.phaseResults phase) }
    environments := updateAt database.environments (·.id) plan.environmentId (fun _ => true)
      fun environment =>
        if status = .success then
          { environment with
            currentAppReleaseId := some plan.appReleaseId
            currentConfigRevisionId := some plan.configRevisionId
            runtimeStatus := finalEnvironmentRuntime status plan.items
            lastDeploymentStatus := status.lastDeploymentStatus }
        else
          { environment with
            runtimeStatus := finalEnvironmentRuntime status plan.items
            lastDeploymentStatus := status.lastDeploymentStatus } }

end Database

namespace Database

variable (database : Database)

/-- What canceling does to a run that waits for its executor. -/
def cancelQueued (run : DeploymentRun) (actor : String) : Database :=
  { database with
    runs := updateAt
      (updateAt database.runs (·.id) run.id
        (fun run => (run.status == .queued || run.status == .running) && !run.cancelRequested)
        fun run => { run with
          cancelRequested := true, cancelRequestedBy := actor
          summary := "运维已请求取消，正在终止当前命令并等待执行收口" })
      (·.id) run.id (·.status == .queued)
      fun run => { run with
        status := .canceled, summary := "部署在执行器领取前已取消，未向目标节点执行命令" }
    unitResults := updateAt database.unitResults (·.deploymentRunId) run.id (·.status == .pending)
      (.notStarted "canceled_before_start" "部署在执行器领取前已取消，本单元未启动")
    tasks := updateAt database.tasks (·.id) run.taskId (·.status == .queued)
      fun task => { task with
        status := .canceled, phase := .canceled, summary := s!"{actor} 在部署开始前取消了任务"
        exitCode := some 1 }
    phases := updateAt database.phases (·.taskId) run.taskId (·.status.isOpen)
      fun phase => { phase with status := .skipped }
    environments := updateAt database.environments (·.id) run.environmentId (fun _ => true)
      fun environment => { environment with lastDeploymentStatus := .canceled }
    logs := database.logs ++ [
      { taskId := run.taskId, stepId := none
        content := s!"{actor} 在执行器领取前取消部署，未执行目标节点命令" }] }

/-- What canceling does to a run that is executed. -/
def cancelRunning (run : DeploymentRun) (actor : String) : Database :=
  { database with
    runs := updateAt database.runs (·.id) run.id
      (fun run => (run.status == .queued || run.status == .running) && !run.cancelRequested)
      fun run => { run with
        cancelRequested := true, cancelRequestedBy := actor
        summary := "运维已请求取消，正在终止当前命令并等待执行收口" }
    tasks := updateAt database.tasks (·.id) run.taskId (·.status.isOpen)
      fun task => { task with summary := s!"{actor} 请求取消部署，正在等待当前命令退出" }
    logs := database.logs ++ [
      { taskId := run.taskId, stepId := none
        content := s!"{actor} 请求取消部署；仍在执行的单元将标记为目标状态未知，已完成结果保持不变" }] }

/-- The transaction in which someone asks for the end of a run. -/
def requestCancellation (deploymentRunId : Int) (actor : String) :
    Except OrchestratorError (Bool × Database) :=
  let actor := trim actor
  if actor.isEmpty then
    .error (.validation "取消部署必须记录操作人")
  else
    match database.runs.find? fun run => run.id == deploymentRunId with
    | none => .error (.notFound "部署执行不存在")
    | some run =>
        if ¬ (run.status = .queued ∨ run.status = .running) then
          .error (.conflict s!"部署当前状态为 {run.status.name}，不能取消")
        else if run.cancelRequested then .ok (false, database)
        else if run.status = .queued then .ok (true, database.cancelQueued run actor)
        else .ok (true, database.cancelRunning run actor)

/-- An accepted cancellation was made before, or cancels a queued or a running run. -/
theorem requestCancellation_eq_ok {database : Database} {deploymentRunId : Int} {actor : String}
    {result : Bool × Database}
    (h : database.requestCancellation deploymentRunId actor = .ok result) :
    result.2 = database ∨ ∃ run ∈ database.runs, run.id = deploymentRunId ∧
      ((run.status = .queued ∧ result.2 = database.cancelQueued run (trim actor)) ∨
        (run.status = .running ∧ result.2 = database.cancelRunning run (trim actor))) := by
  simp only [requestCancellation] at h
  split at h
  · cases h
  · split at h
    · cases h
    · rename_i run hfind
      have hid := List.find?_some hfind
      have hrun := List.mem_of_find?_eq_some hfind
      rw [beq_iff_eq] at hid
      split at h
      · cases h
      · rename_i hopen
        split at h
        · obtain rfl := Except.ok.inj h
          exact .inl rfl
        · split at h
          · rename_i hqueued
            obtain rfl := Except.ok.inj h
            exact .inr ⟨run, hrun, hid, .inl ⟨hqueued, rfl⟩⟩
          · rename_i hqueued
            obtain rfl := Except.ok.inj h
            have hrunning := (not_not.mp hopen).resolve_left hqueued
            exact .inr ⟨run, hrun, hid, .inr ⟨hrunning, rfl⟩⟩

end Database

/-- What a restart has found. -/
structure InterruptedRunRecovery where
  reconcilingRuns : Nat
  canceledQueuedRuns : Nat
deriving Repr, DecidableEq

namespace Database

variable (database : Database)

/-- Cancel a run that waited when the process stopped. -/
def cancelInterrupted (run : DeploymentRun) : Database :=
  { database with
    unitResults := updateAt database.unitResults (·.deploymentRunId) run.id (·.status == .pending)
      (.notStarted "process_restarted_before_start" "控制台进程在部署开始前重启，本单元未执行")
    runs := updateAt database.runs (·.id) run.id (·.status == .queued)
      fun run => { run with
        status := .canceled, summary := "控制台进程在部署开始前重启，已安全取消等待中的部署" }
    tasks := updateAt database.tasks (·.id) run.taskId (·.status.isOpen)
      fun task => { task with
        status := .canceled, phase := .canceled
        summary := "控制台进程在部署开始前重启，任务未执行", exitCode := some 1 }
    phases := updateAt database.phases (·.taskId) run.taskId (·.status.isOpen)
      fun phase => { phase with status := .skipped }
    environments := updateAt database.environments (·.id) run.environmentId (fun _ => true)
      fun environment => { environment with lastDeploymentStatus := .canceled } }

/-- Hold a run that was executed when the process stopped. -/
def holdInterrupted (run : DeploymentRun) : Database :=
  { database with
    unitResults := updateAt database.unitResults (·.deploymentRunId) run.id (·.status.isOpen)
      (.interrupted "process_interrupted" "控制台进程重启，无法确认远端执行是否已经停止"
        "控制台进程重启，后续部署单元未执行")
    steps := updateAt database.steps (·.taskId) run.taskId (·.status == .running)
      fun step => { step with status := .failed, exitCode := some 1 }
    phases := updateAt database.phases (·.taskId) run.taskId (·.status.isOpen)
      TaskPhase.interrupted
    runs := updateAt database.runs (·.id) run.id (·.status == .running)
      fun run => { run with
        status := .reconciling, summary := "控制台进程重启，必须确认旧执行已停止后才能解锁" }
    tasks := updateAt database.tasks (·.id) run.taskId (·.status == .running)
      fun task => { task with
        status := .failed, phase := .failed
        summary := "控制台进程重启，环境部署进入待核对状态", exitCode := some 1 }
    environments := updateAt database.environments (·.id) run.environmentId (fun _ => true)
      fun environment => { environment with
        runtimeStatus := .unknown, lastDeploymentStatus := .running } }

/-- The runs with a status. -/
def runsIn (status : RunStatus) : List DeploymentRun :=
  database.runs.filter fun run => run.status == status

/-- The transaction of a restart. -/
def reconcileInterruptedRuns : InterruptedRunRecovery × Database :=
  let canceled := (database.runsIn .queued).foldl cancelInterrupted database
  ({ reconcilingRuns := (canceled.runsIn .running).length
     canceledQueuedRuns := (database.runsIn .queued).length },
    (canceled.runsIn .running).foldl holdInterrupted canceled)

end Database

/-- The status of a run that did not end by itself. -/
def abortedStatus (counts : ResultCounts) : RunStatus :=
  if counts.succeeded > 0 then .partialFailed
  else if counts.canceledUnknown > 0 then .canceled
  else .allFailed

/-- The task status of a run that did not end by itself. -/
def abortedTaskStatus (status : RunStatus) : TaskStatus :=
  if status = .canceled then .canceled else .failed

/-- The text of a confirmation. -/
def confirmedSummary (counts : ResultCounts) (note : String) : String :=
  s!"人工确认旧执行已停止；共 {counts.total} 个部署单元：成功或跳过 {counts.succeeded}，" ++
    s!"失败或未启动 {counts.failed}，取消状态未知 {counts.canceledUnknown}；核对说明：{note}"

namespace Database

variable (database : Database)

/-- What a confirmation changes. -/
def recordConfirmation (run : DeploymentRun) (actor note : String) (counts : ResultCounts) :
    Database :=
  let status := abortedStatus counts
  let summary := confirmedSummary counts note
  { database with
    runs := updateAt database.runs (·.id) run.id (·.status == .reconciling)
      fun run => { run with status, summary, reconciledBy := actor, reconciliationNote := note }
    tasks := updateAt database.tasks (·.id) run.taskId (fun _ => true)
      fun task => { task with
        status := abortedTaskStatus status
        phase := finalTaskProgress (abortedTaskStatus status), summary, exitCode := some 1 }
    logs := database.logs ++ [
      { taskId := run.taskId, stepId := none, content := s!"{actor} 确认旧执行已停止：{note}" }]
    environments := updateAt database.environments (·.id) run.environmentId (fun _ => true)
      fun environment => { environment with
        runtimeStatus := .unknown, lastDeploymentStatus := status.lastDeploymentStatus } }

/-- The transaction in which an interrupted run is closed. -/
def confirmInterruptedRunStopped (deploymentRunId : Int) (actor note : String) :
    Except OrchestratorError (DeploymentRunOutcome × Database) :=
  let actor := trim actor
  let note := trim note
  if actor.isEmpty then
    .error (.validation "人工核对必须记录操作人")
  else if note.isEmpty ∨ note.length > 1000 then
    .error (.validation "人工核对说明不能为空且不能超过 1000 个字符")
  else
    match database.runs.find? fun run => run.id == deploymentRunId with
    | none => .error (.notFound "部署执行不存在")
    | some run =>
        if run.status ≠ .reconciling then
          .error (.conflict s!"部署当前状态为 {run.status.name}，不需要人工解锁")
        else
          match database.resultCounts deploymentRunId with
          | .error error => .error error
          | .ok counts =>
              .ok ({ deploymentRunId, status := abortedStatus counts
                     summary := confirmedSummary counts note },
                database.recordConfirmation run actor note counts)

/-- Only a reconciling run is confirmed. -/
theorem confirmInterruptedRunStopped_eq_ok {database : Database} {deploymentRunId : Int}
    {actor note : String} {result : DeploymentRunOutcome × Database}
    (h : database.confirmInterruptedRunStopped deploymentRunId actor note = .ok result) :
    ∃ run ∈ database.runs, run.id = deploymentRunId ∧ run.status = .reconciling ∧
      ∃ counts, database.resultCounts deploymentRunId = .ok counts ∧
        result.1.status = abortedStatus counts ∧
        result.2 = database.recordConfirmation run (trim actor) (trim note) counts := by
  simp only [confirmInterruptedRunStopped] at h
  split at h
  · cases h
  · split at h
    · cases h
    · split at h
      · cases h
      · rename_i run hfind
        have hid := List.find?_some hfind
        rw [beq_iff_eq] at hid
        split at h
        · cases h
        · rename_i hreconciling
          split at h
          · cases h
          · rename_i counts hcounts
            obtain rfl := Except.ok.inj h
            exact ⟨run, List.mem_of_find?_eq_some hfind, hid, not_not.mp hreconciling, counts,
              hcounts, rfl, rfl⟩

/-- What an internal error does to the open results of a run. -/
def interruptResults (deploymentRunId : Int) (summary : String) : List UnitResult :=
  updateAt database.unitResults (·.deploymentRunId) deploymentRunId (·.status.isOpen)
    (.interrupted "orchestrator_internal_error" summary summary)

/-- What an internal error changes. -/
def recordInternalError (run : DeploymentRun) (summary : String) (counts : ResultCounts) :
    Database :=
  let status := abortedStatus counts
  { database with
    unitResults := database.interruptResults run.id summary
    runs := updateAt database.runs (·.id) run.id
      (fun run => run.status == .queued || run.status == .running)
      fun run => { run with status, summary }
    steps := updateAt database.steps (·.taskId) run.taskId (·.status == .running)
      fun step => { step with status := .failed, exitCode := some 1 }
    phases := updateAt database.phases (·.taskId) run.taskId (·.status.isOpen)
      TaskPhase.interrupted
    tasks := updateAt database.tasks (·.id) run.taskId (·.status.isOpen)
      fun task => { task with
        status := abortedTaskStatus status
        phase := finalTaskProgress (abortedTaskStatus status), summary, exitCode := some 1 }
    environments := updateAt database.environments (·.id) run.environmentId (fun _ => true)
      fun environment => { environment with
        runtimeStatus := if counts.succeeded > 0 then .partialUnhealthy else .unknown
        lastDeploymentStatus := status.lastDeploymentStatus } }

/-- The transaction in which a run is closed after an internal error. -/
def failRunOnInternalError (deploymentRunId : Int) (errorMessage : String) :
    Except OrchestratorError (Bool × Database) :=
  let summary := "部署编排异常终止：" ++ takeChars (trim errorMessage) 1000
  match database.runs.find? fun run =>
      run.id == deploymentRunId && (run.status == .queued || run.status == .running) with
  | none => .ok (false, database)
  | some run =>
      let rows := (database.interruptResults run.id summary).filter fun row =>
        row.deploymentRunId == run.id
      if rows.isEmpty then .error sumOfNoRows
      else .ok (true, database.recordInternalError run summary (countResults rows))

/-- Nothing happens to a run that is not queued or running. -/
theorem failRunOnInternalError_eq_ok {database : Database} {deploymentRunId : Int}
    {errorMessage : String} {result : Bool × Database}
    (h : database.failRunOnInternalError deploymentRunId errorMessage = .ok result) :
    (result.2 = database ∧ ∀ run ∈ database.runs, run.id = deploymentRunId →
      run.status ≠ .queued ∧ run.status ≠ .running) ∨
    ∃ run ∈ database.runs, run.id = deploymentRunId ∧
      (run.status = .queued ∨ run.status = .running) ∧
      ∃ summary counts, result.2 = database.recordInternalError run summary counts ∧
        counts = countResults (result.2.resultsOf run.id) := by
  simp only [failRunOnInternalError] at h
  split at h
  · rename_i hnone
    obtain rfl := Except.ok.inj h
    refine .inl ⟨rfl, fun run hrun hid => ?_⟩
    have hother := List.find?_eq_none.mp hnone run hrun
    simpa [hid] using hother
  · rename_i run hfind
    have hrun := List.find?_some hfind
    rw [Bool.and_eq_true, beq_iff_eq, Bool.or_eq_true, beq_iff_eq, beq_iff_eq] at hrun
    split at h
    · cases h
    · obtain rfl := Except.ok.inj h
      exact .inr ⟨run, List.mem_of_find?_eq_some hfind, hrun.1, hrun.2, _, _, rfl, rfl⟩

end Database

end EasyDeploy.Orchestrator
