import EasyDeploy.Orchestrator.Execution

/-!
# The orchestrator as a system

The database, the executions of the process and whether it serves requests. A
step is one transaction, one statement outside of transactions, or a change of
the memory of the process, so that the steps of concurrent operations interleave
as the database lets them.
-/

namespace EasyDeploy.Orchestrator
open Foundation

/-- How far a call of `execute_run_with_cancellation` is. -/
inductive Progress
  | claiming
  | rejected (error : OrchestratorError)
  | executing (run : ExecutionRun) (plan : DeploymentPlan) (stage : Stage)
deriving Repr, DecidableEq

/-- An execution with the stage it is at. -/
structure Execution where
  deploymentRunId : Int
  signal : Bool
  progress : Progress
deriving Repr, DecidableEq

/-- What the surroundings of an execution contribute to its next step. -/
inductive Response
  | proceed
  | joined (index : Nat) (outcome : UnitExecutionOutcome)
  | joinFailed (message : String)
  | databaseError (message : String)
deriving Repr, DecidableEq

/-- What an execution observes at a stage, and the database then. -/
def Stage.perform (database : Database) (deploymentRunId : Int) (run : ExecutionRun)
    (plan : DeploymentPlan) (signal : Bool) :
    Stage → Response → Option (Observation × Database)
  | starting _, .proceed | entering _ _, .proceed | looping _ _, .proceed =>
      some (.signal signal, database)
  | polling _ _, .proceed =>
      match database.cancellationRequested deploymentRunId with
      | .error error => some (.error error, database)
      | .ok canceled => some (.requested canceled, database)
  | filling _ item _, .proceed =>
      match database.startUnitResult deploymentRunId run.taskId item with
      | .error error => some (.error error, database)
      | .ok (stepId, database) => some (.started stepId, database)
  | joining _ _, .joined index outcome => some (.joined index outcome, database)
  | joining _ _, .joinFailed message =>
      some (.error (.database s!"部署单元执行任务异常终止: {message}"), database)
  | persisting _ unit outcome _, .proceed =>
      some (.persisted, database.persistUnitOutcome deploymentRunId run.taskId unit.stepId
        run.environmentId plan.targetNodeIds unit.item outcome)
  | closing canceled, .proceed =>
      some (.closed, database.closePendingResults deploymentRunId canceled)
  | counting _, .proceed =>
      match database.resultCounts deploymentRunId with
      | .error error => some (.error error, database)
      | .ok counts => some (.counted counts, database)
  | finalizing canceled counts, .proceed =>
      some (.finalized
          { deploymentRunId, status := finalStatus counts canceled
            summary := finalSummary counts canceled },
        database.recordFinalStatus deploymentRunId plan canceled counts)
  | joining _ _, .databaseError _ => none
  | _, .databaseError message => some (.error (.database message), database)
  | _, _ => none

namespace Execution

/-- Claim the run and decode its plan. -/
def claim (execution : Execution) (database : Database) : Execution × Database :=
  match database.claimDeploymentRun execution.deploymentRunId with
  | .error error => ({ execution with progress := .rejected error }, database)
  | .ok (run, database) =>
      let signal := execution.signal || run.cancelRequested
      match run.planJson with
      | .error error =>
          ({ execution with
             signal, progress := .rejected (.validation s!"部署计划快照损坏: {error}") }, database)
      | .ok plan =>
          if plan.planHash ≠ run.planHash then
            ({ execution with
               signal, progress := .rejected (.conflict "部署计划快照 hash 不一致，拒绝执行") }, database)
          else
            ({ execution with
               signal, progress := .executing run plan (.starting (executionWaves plan.items)) },
              database)

/-- The next step of an execution, unless it does not wait for the response. -/
def advance (execution : Execution) (database : Database) (response : Response) :
    Option (Execution × Database) :=
  match execution.progress with
  | .claiming =>
      match response with
      | .proceed => some (execution.claim database)
      | .databaseError message =>
          some ({ execution with progress := .rejected (.database message) }, database)
      | _ => none
  | .rejected _ => none
  | .executing run plan stage =>
      match stage.perform database execution.deploymentRunId run plan execution.signal
          response with
      | none => none
      | some (observation, database) =>
          (stage.observe (parallelism run.maxParallelUnits) observation).map fun stage =>
            ({ execution with
               signal := execution.signal || observation == .requested true
               progress := .executing run plan stage }, database)

/-- The error that an execution returned. -/
def failure (execution : Execution) : Option OrchestratorError :=
  match execution.progress with
  | .rejected error => some error
  | .executing _ _ (.returned (.error error)) => some error
  | _ => none

end Execution

/-- The database with the executions of the process. -/
structure System where
  database : Database
  serving : Bool
  executions : List Execution
deriving Repr, DecidableEq

/-- What happens to runs. -/
inductive Action
  | createRun (input : CreateDeploymentRunInput)
  /-- Call `execute_run_with_cancellation`. -/
  | executeRun (deploymentRunId : Int)
  /-- Cancel the signal of an execution. -/
  | signal (index : Nat)
  | advance (index : Nat) (response : Response)
  | requestCancellation (deploymentRunId : Int) (actor : String)
  /-- Call `fail_run_on_internal_error` with the error that an execution returned. -/
  | failRun (index : Nat)
  /-- The process stops and starts again. -/
  | restart
  /-- Reconcile the interrupted runs, after which the process serves requests. -/
  | reconcile
  | confirm (deploymentRunId : Int) (actor note : String)
  /-- Other parts of the program edit the releases and the environments. -/
  | edit (catalog : Catalog) (environments : List Environment)
deriving Repr, DecidableEq

namespace System

variable (digests : Digests)

/-- Store the database that an operation returned. -/
def commit {α : Type} (system : System) (result : Except OrchestratorError (α × Database)) :
    Option System :=
  match result with
  | .error _ => none
  | .ok (_, database) => some { system with database }

/-- The step of an action, if it can be taken. -/
def step (system : System) : Action → Option System
  | .createRun input =>
      if system.serving then system.commit (system.database.createRun digests input) else none
  | .executeRun deploymentRunId =>
      if system.serving then
        some { system with
          executions := system.executions ++ [⟨deploymentRunId, false, .claiming⟩] }
      else none
  | .signal index =>
      match system.executions[index]? with
      | none => none
      | some execution => some { system with
          executions := system.executions.set index { execution with signal := true } }
  | .advance index response =>
      match system.executions[index]? with
      | none => none
      | some execution =>
          match execution.advance system.database response with
          | none => none
          | some (execution, database) => some { system with
              database, executions := system.executions.set index execution }
  | .requestCancellation deploymentRunId actor =>
      if system.serving then
        system.commit (system.database.requestCancellation deploymentRunId actor)
      else none
  | .failRun index =>
      match system.executions[index]? with
      | none => none
      | some execution =>
          match execution.failure with
          | none => none
          | some error => system.commit
              (system.database.failRunOnInternalError execution.deploymentRunId error.message)
  | .restart => some { system with serving := false, executions := [] }
  | .reconcile =>
      if system.serving then none
      else some { system with
        serving := true, database := system.database.reconcileInterruptedRuns.2 }
  | .confirm deploymentRunId actor note =>
      if system.serving then
        system.commit (system.database.confirmInterruptedRunStopped deploymentRunId actor note)
      else none
  | .edit catalog environments =>
      some { system with database := { system.database with catalog, environments } }

/-- Before the first start of the process, when no run exists. -/
def IsInitial (system : System) : Prop :=
  system.database.runs = [] ∧ system.database.unitResults = [] ∧ system.database.tasks = [] ∧
    system.database.phases = [] ∧ system.database.steps = [] ∧
    system.database.runtimeStates = [] ∧ system.serving = false ∧ system.executions = []

end System

/-- The system that starts without runs. -/
def orchestrator (digests : Digests) : Transition System Action where
  initial := System.IsInitial
  step := System.step digests

/-- The observations that no statement on the rows of a unit precedes. -/
def Observation.isQuiet : Observation → Bool
  | .signal _ | .requested _ | .joined _ _ | .counted _ | .error _ => true
  | _ => false

/-- An accepted action, with the transaction that it commits. -/
inductive Steps (digests : Digests) (system : System) : Action → System → Prop
  | created {input plan} (hnone : system.database.activeRun input.environmentId = none)
      (hplan : system.database.loadDeploymentPlan digests input.environmentId
        input.appReleaseId input.mode = .ok plan) (hserving : system.serving = true) :
      Steps digests system (.createRun input)
        { system with database := (system.database.insertRun input plan).2 }
  | called {deploymentRunId} (hserving : system.serving = true) :
      Steps digests system (.executeRun deploymentRunId) { system with
        executions := system.executions ++ [⟨deploymentRunId, false, .claiming⟩] }
  | signaled {index execution} (hindex : system.executions[index]? = some execution) :
      Steps digests system (.signal index) { system with
        executions := system.executions.set index { execution with signal := true } }
  | refused {index response execution} (error : OrchestratorError)
      (hindex : system.executions[index]? = some execution)
      (hclaiming : execution.progress = .claiming) :
      Steps digests system (.advance index response) { system with
        executions := system.executions.set index { execution with progress := .rejected error } }
  | claimed {index execution run stored} (signal : Bool) (progress : Progress)
      (hindex : system.executions[index]? = some execution)
      (hclaiming : execution.progress = .claiming) (hstored : stored ∈ system.database.runs)
      (hid : stored.id = execution.deploymentRunId) (hqueued : stored.status = .queued)
      (htask : run.taskId = stored.taskId) (henvironment : run.environmentId = stored.environmentId)
      (hplan : run.planJson = stored.planJson)
      (hprogress : (∃ error, progress = .rejected error) ∨ ∃ plan, run.planJson = .ok plan ∧
        progress = .executing run plan (.starting (executionWaves plan.items))) :
      Steps digests system (.advance index .proceed) { system with
        database := system.database.recordClaim stored
        executions := system.executions.set index { execution with signal, progress } }
  | observed {index response execution run plan stage observation stage'} (signal : Bool)
      (hindex : system.executions[index]? = some execution)
      (hexecuting : execution.progress = .executing run plan stage)
      (hquiet : observation.isQuiet = true)
      (hobserve : stage.observe (parallelism run.maxParallelUnits) observation = some stage')
      (hcounted : ∀ counts, observation = .counted counts →
        system.database.resultCounts execution.deploymentRunId = .ok counts) :
      Steps digests system (.advance index response) { system with
        executions := system.executions.set index
          { execution with signal, progress := .executing run plan stage' } }
  | started {index execution run plan wave item waves row} (signal : Bool)
      (hindex : system.executions[index]? = some execution)
      (hexecuting : execution.progress = .executing run plan (.filling wave item waves))
      (hrow : row ∈ system.database.unitResults)
      (hrun : row.deploymentRunId = execution.deploymentRunId) (hunit : row.unitId = item.unitId)
      (hpending : row.status = .pending) :
      Steps digests system (.advance index .proceed) { system with
        database := system.database.recordStart execution.deploymentRunId run.taskId item
        executions := system.executions.set index { execution with
          signal
          progress := .executing run plan (.fillWave (parallelism run.maxParallelUnits)
            { wave with running := wave.running ++
                [⟨item, (system.database.newStep run.taskId item).id⟩] } waves) } }
  | persisted {index execution run plan wave unit outcome waves} (signal : Bool)
      (hindex : system.executions[index]? = some execution)
      (hexecuting : execution.progress =
        .executing run plan (.persisting wave unit outcome waves)) :
      Steps digests system (.advance index .proceed) { system with
        database := system.database.persistUnitOutcome execution.deploymentRunId run.taskId
          unit.stepId run.environmentId plan.targetNodeIds unit.item outcome
        executions := system.executions.set index
          { execution with signal, progress := .executing run plan (.loopWave wave waves) } }
  | closed {index execution run plan canceled} (signal : Bool)
      (hindex : system.executions[index]? = some execution)
      (hexecuting : execution.progress = .executing run plan (.closing canceled)) :
      Steps digests system (.advance index .proceed) { system with
        database := system.database.closePendingResults execution.deploymentRunId canceled
        executions := system.executions.set index
          { execution with signal, progress := .executing run plan (.counting canceled) } }
  | finalized {index execution run plan canceled counts} (signal : Bool)
      (outcome : DeploymentRunOutcome)
      (hindex : system.executions[index]? = some execution)
      (hexecuting : execution.progress = .executing run plan (.finalizing canceled counts)) :
      Steps digests system (.advance index .proceed) { system with
        database := system.database.recordFinalStatus execution.deploymentRunId plan canceled
          counts
        executions := system.executions.set index
          { execution with signal, progress := .executing run plan (.returned (.ok outcome)) } }
  | unchanged {action} (hactive : (∃ deploymentRunId actor,
        action = .requestCancellation deploymentRunId actor) ∨ ∃ index, action = .failRun index) :
      Steps digests system action system
  | canceledQueued {run} {deploymentRunId : Int} (actor actor' : String)
      (hrun : run ∈ system.database.runs) (hqueued : run.status = .queued) :
      Steps digests system (.requestCancellation deploymentRunId actor)
        { system with database := system.database.cancelQueued run actor' }
  | canceledRunning {run} {deploymentRunId : Int} (actor actor' : String)
      (hrun : run ∈ system.database.runs) (hrunning : run.status = .running) :
      Steps digests system (.requestCancellation deploymentRunId actor)
        { system with database := system.database.cancelRunning run actor' }
  | failed {index execution run} (summary : String) (counts : ResultCounts)
      (hindex : system.executions[index]? = some execution)
      (hrun : run ∈ system.database.runs) (hid : run.id = execution.deploymentRunId)
      (hstatus : run.status = .queued ∨ run.status = .running) :
      Steps digests system (.failRun index)
        { system with database := system.database.recordInternalError run summary counts }
  | restarted : Steps digests system .restart { system with serving := false, executions := [] }
  | reconciled (hserving : system.serving = false) :
      Steps digests system .reconcile { system with
        serving := true, database := system.database.reconcileInterruptedRuns.2 }
  | confirmed {run} (actor note actor' note' : String) (counts : ResultCounts)
      (hrun : run ∈ system.database.runs) (hreconciling : run.status = .reconciling) :
      Steps digests system (.confirm run.id actor note)
        { system with database := system.database.recordConfirmation run actor' note' counts }
  | edited {catalog environments} : Steps digests system (.edit catalog environments)
      { system with database := { system.database with catalog, environments } }

section Inversion

variable {digests : Digests} {system system' : System} {action : Action}

/-- A claim is refused or stores the claimed run. -/
theorem steps_of_claim {index : Nat} {execution : Execution}
    (hindex : system.executions[index]? = some execution)
    (hclaiming : execution.progress = .claiming) :
    Steps digests system (.advance index .proceed) { system with
      database := (execution.claim system.database).2
      executions := system.executions.set index (execution.claim system.database).1 } := by
  unfold Execution.claim
  split
  · rename_i error _
    exact .refused error hindex hclaiming
  · rename_i run database hclaim
    obtain ⟨stored, hstored, hid, hqueued, htask, henvironment, hplan, rfl⟩ :=
      Database.claimDeploymentRun_eq_ok hclaim
    dsimp only
    split
    · exact .claimed _ _ hindex hclaiming hstored hid hqueued htask henvironment hplan
        (.inl ⟨_, rfl⟩)
    · rename_i plan hok
      split
      · exact .claimed _ _ hindex hclaiming hstored hid hqueued htask henvironment hplan
          (.inl ⟨_, rfl⟩)
      · exact .claimed _ _ hindex hclaiming hstored hid hqueued htask henvironment hplan
          (.inr ⟨plan, hok, rfl⟩)

/-- What an execution does at a stage is one of the steps. -/
theorem steps_of_perform {index : Nat} {response : Response} {execution : Execution}
    {run : ExecutionRun} {plan : DeploymentPlan} {stage stage' : Stage}
    {observation : Observation} {database : Database} (signal : Bool)
    (hindex : system.executions[index]? = some execution)
    (hexecuting : execution.progress = .executing run plan stage)
    (hperform : stage.perform system.database execution.deploymentRunId run plan execution.signal
      response = some (observation, database))
    (hobserve : stage.observe (parallelism run.maxParallelUnits) observation = some stage') :
    Steps digests system (.advance index response) { system with
      database
      executions := system.executions.set index
        { execution with signal, progress := .executing run plan stage' } } := by
  have hquiet (hobservation : observation.isQuiet = true) (hdatabase : database = system.database)
      (hcounted : ∀ counts, observation = .counted counts →
        system.database.resultCounts execution.deploymentRunId = .ok counts) :
      Steps digests system (.advance index response) { system with
        database
        executions := system.executions.set index
          { execution with signal, progress := .executing run plan stage' } } := by
    subst hdatabase
    exact .observed signal hindex hexecuting hobservation hobserve hcounted
  cases response with
  | joined joinedIndex outcome =>
      cases stage with
      | joining wave waves =>
          obtain ⟨rfl, rfl⟩ := Prod.mk.inj (Option.some.inj hperform)
          exact hquiet rfl rfl fun _ hcounts => by cases hcounts
      | _ => cases hperform
  | joinFailed message =>
      cases stage with
      | joining wave waves =>
          obtain ⟨rfl, rfl⟩ := Prod.mk.inj (Option.some.inj hperform)
          exact hquiet rfl rfl fun _ hcounts => by cases hcounts
      | _ => cases hperform
  | databaseError message =>
      cases stage with
      | joining wave waves => cases hperform
      | _ =>
          obtain ⟨rfl, rfl⟩ := Prod.mk.inj (Option.some.inj hperform)
          exact hquiet rfl rfl fun _ hcounts => by cases hcounts
  | proceed =>
      cases stage with
      | starting waves =>
          obtain ⟨rfl, rfl⟩ := Prod.mk.inj (Option.some.inj hperform)
          exact hquiet rfl rfl fun _ hcounts => by cases hcounts
      | polling items waves =>
          simp only [Stage.perform] at hperform
          split at hperform <;> obtain ⟨rfl, rfl⟩ := Prod.mk.inj (Option.some.inj hperform) <;>
            exact hquiet rfl rfl fun _ hcounts => by cases hcounts
      | entering items waves =>
          obtain ⟨rfl, rfl⟩ := Prod.mk.inj (Option.some.inj hperform)
          exact hquiet rfl rfl fun _ hcounts => by cases hcounts
      | looping wave waves =>
          obtain ⟨rfl, rfl⟩ := Prod.mk.inj (Option.some.inj hperform)
          exact hquiet rfl rfl fun _ hcounts => by cases hcounts
      | filling wave item waves =>
          simp only [Stage.perform] at hperform
          split at hperform
          · obtain ⟨rfl, rfl⟩ := Prod.mk.inj (Option.some.inj hperform)
            exact hquiet rfl rfl fun _ hcounts => by cases hcounts
          · rename_i stepId started hstart
            obtain ⟨rfl, rfl⟩ := Prod.mk.inj (Option.some.inj hperform)
            obtain rfl := Option.some.inj hobserve
            obtain ⟨⟨row, hrow, hrun, hunit, hpending⟩, rfl, rfl⟩ :=
              Database.startUnitResult_eq_ok hstart
            exact .started signal hindex hexecuting hrow hrun hunit hpending
      | joining wave waves => cases hperform
      | persisting wave unit outcome waves =>
          obtain ⟨rfl, rfl⟩ := Prod.mk.inj (Option.some.inj hperform)
          obtain rfl := Option.some.inj hobserve
          exact .persisted signal hindex hexecuting
      | closing canceled =>
          obtain ⟨rfl, rfl⟩ := Prod.mk.inj (Option.some.inj hperform)
          obtain rfl := Option.some.inj hobserve
          exact .closed signal hindex hexecuting
      | counting canceled =>
          simp only [Stage.perform] at hperform
          split at hperform
          · obtain ⟨rfl, rfl⟩ := Prod.mk.inj (Option.some.inj hperform)
            exact hquiet rfl rfl fun _ hcounts => by cases hcounts
          · rename_i counts hresults
            obtain ⟨rfl, rfl⟩ := Prod.mk.inj (Option.some.inj hperform)
            exact hquiet rfl rfl fun _ hcounts => Observation.counted.inj hcounts ▸ hresults
      | finalizing canceled counts =>
          obtain ⟨rfl, rfl⟩ := Prod.mk.inj (Option.some.inj hperform)
          obtain rfl := Option.some.inj hobserve
          exact .finalized signal _ hindex hexecuting
      | returned result => cases hperform

theorem steps_of_advance {index : Nat} {response : Response} {execution execution' : Execution}
    {database : Database} (hindex : system.executions[index]? = some execution)
    (h : execution.advance system.database response = some (execution', database)) :
    Steps digests system (.advance index response) { system with
      database, executions := system.executions.set index execution' } := by
  unfold Execution.advance at h
  split at h
  · rename_i hclaiming
    split at h
    · have hclaim : Steps digests system _ _ := steps_of_claim hindex hclaiming
      rw [Option.some.inj h] at hclaim
      exact hclaim
    · obtain ⟨rfl, rfl⟩ := Prod.mk.inj (Option.some.inj h)
      exact .refused _ hindex hclaiming
    · cases h
  · cases h
  · rename_i run plan stage hexecuting
    split at h
    · cases h
    · rename_i observation database' hperform
      obtain ⟨stage', hobserve, hresult⟩ := Option.map_eq_some_iff.mp h
      obtain ⟨rfl, rfl⟩ := Prod.mk.inj hresult
      exact steps_of_perform _ hindex hexecuting hperform hobserve

theorem commit_eq_some {α : Type} {result : Except OrchestratorError (α × Database)}
    (h : system.commit result = some system') :
    ∃ value, result = .ok value ∧ system' = { system with database := value.2 } := by
  unfold System.commit at h
  split at h
  · cases h
  · obtain rfl := Option.some.inj h
    exact ⟨_, rfl, rfl⟩

/-- Every accepted action is one of the steps. -/
theorem steps_of_step (h : system.step digests action = some system') :
    Steps digests system action system' := by
  cases action with
  | createRun input =>
      simp only [System.step] at h
      split at h
      · rename_i hserving
        obtain ⟨result, hresult, rfl⟩ := commit_eq_some h
        obtain ⟨plan, hnone, hplan, rfl⟩ := Database.createRun_eq_ok hresult
        exact .created hnone hplan hserving
      · cases h
  | executeRun deploymentRunId =>
      simp only [System.step] at h
      split at h
      · obtain rfl := Option.some.inj h
        exact .called ‹_›
      · cases h
  | signal index =>
      simp only [System.step] at h
      split at h
      · cases h
      · obtain rfl := Option.some.inj h
        exact .signaled ‹_›
  | advance index response =>
      simp only [System.step] at h
      split at h
      · cases h
      · rename_i execution hindex
        split at h
        · cases h
        · obtain rfl := Option.some.inj h
          exact steps_of_advance hindex ‹_›
  | requestCancellation deploymentRunId actor =>
      simp only [System.step] at h
      split at h
      · obtain ⟨result, hresult, rfl⟩ := commit_eq_some h
        obtain hsame | ⟨run, hrun, hid, hcanceled⟩ := Database.requestCancellation_eq_ok hresult
        · rw [hsame]
          exact .unchanged (.inl ⟨_, _, rfl⟩)
        · rcases hcanceled with ⟨hqueued, heq⟩ | ⟨hrunning, heq⟩
          · rw [heq]
            exact .canceledQueued actor _ hrun hqueued
          · rw [heq]
            exact .canceledRunning actor _ hrun hrunning
      · cases h
  | failRun index =>
      simp only [System.step] at h
      split at h
      · cases h
      · rename_i execution hindex
        split at h
        · cases h
        · obtain ⟨result, hresult, rfl⟩ := commit_eq_some h
          obtain ⟨hsame, -⟩ | ⟨run, hrun, hid, hstatus, summary, counts, heq, -⟩ :=
            Database.failRunOnInternalError_eq_ok hresult
          · rw [hsame]
            exact .unchanged (.inr ⟨_, rfl⟩)
          · rw [heq]
            exact .failed summary counts hindex hrun hid hstatus
  | restart =>
      obtain rfl := Option.some.inj h
      exact .restarted
  | reconcile =>
      simp only [System.step] at h
      split at h
      · cases h
      · rename_i hserving
        obtain rfl := Option.some.inj h
        exact .reconciled (Bool.eq_false_iff.mpr hserving)
  | confirm deploymentRunId actor note =>
      simp only [System.step] at h
      split at h
      · obtain ⟨result, hresult, rfl⟩ := commit_eq_some h
        obtain ⟨run, hrun, rfl, hreconciling, counts, -, -, heq⟩ :=
          Database.confirmInterruptedRunStopped_eq_ok hresult
        rw [heq]
        exact .confirmed actor note _ _ counts hrun hreconciling
      · cases h
  | edit catalog environments =>
      obtain rfl := Option.some.inj h
      exact .edited

end Inversion

namespace Sample
open Foundation.Transition

def digests : Digests := ⟨fun _ => "plan", fun fingerprint _ => fingerprint⟩

/-- Two releases of one unit, for one node. -/
def catalog : Catalog :=
  { releases := [⟨1, 1, true⟩, ⟨2, 1, true⟩]
    environmentConfigs := [⟨1, 1, 1⟩, ⟨2, 1, 1⟩]
    configRevisions := [⟨1, 1, "config"⟩]
    targets := [⟨1, 1⟩]
    units := [⟨1, 1, "api"⟩]
    unitReleases := [⟨1, "1.0.0", 1⟩, ⟨2, "2.0.0", 2⟩]
    releaseUnits := [⟨1, 1, some 1, "active", 1, 1, 1, "one"⟩,
      ⟨2, 1, some 2, "active", 1, 1, 1, "two"⟩] }

def environment : Environment :=
  { id := 1, appId := 1, status := .ready, maxParallelUnits := 1, currentAppReleaseId := none
    currentConfigRevisionId := none, runtimeStatus := .unknown, lastDeploymentStatus := .waiting }

/-- The system before its first start. -/
def installation : System :=
  { database := ⟨catalog, [environment], [], [], [], [], [], [], []⟩
    serving := false, executions := [] }

/-- Deploy a release, until its only unit runs. -/
def launch (appReleaseId deploymentRunId : Int) (index : Nat) : List Action :=
  [.createRun ⟨1, appReleaseId, .normal, "plan", "operator"⟩, .executeRun deploymentRunId] ++
    List.replicate 6 (.advance index .proceed)

/-- The unit ends, and as many steps follow. -/
def conclude (index : Nat) (outcome : UnitExecutionOutcome) (steps : Nat) : List Action :=
  .advance index (.joined 0 outcome) :: List.replicate steps (.advance index .proceed)

theorem reachable_of_installation {actions : List Action} {system : System}
    (h : (orchestrator digests).exec installation actions = some system) :
    Reachable (orchestrator digests) system :=
  .exec (.start ⟨rfl, rfl, rfl, rfl, rfl, rfl, rfl, rfl⟩) h

end Sample

end EasyDeploy.Orchestrator
