import EasyDeploy.Foundation.Transition
import EasyDeploy.Orchestrator.Transactions

/-!
# The execution of a run

`execute_run_with_cancellation` after the run is claimed, as a machine whose
stages are the points where it waits for the database, for the cancellation
signal or for a spawned unit. The machine does not say what it will observe
there, so that every order of completions and cancellations is one of its runs.
-/

namespace EasyDeploy.Orchestrator
open Foundation

/-- The items belong into one wave: both stop units or both do not, in one stage. -/
def sameWave (first item : DeploymentPlanItem) : Bool :=
  decide (first.action = .stop) == decide (item.action = .stop) && first.stageNo == item.stageNo

/-- Append an item to the last wave or to a new one. -/
def appendToWaves (waves : List (List DeploymentPlanItem)) (item : DeploymentPlanItem) :
    List (List DeploymentPlanItem) :=
  match waves.getLast? with
  | some (first :: rest) =>
      if sameWave first item then waves.dropLast ++ [first :: rest ++ [item]]
      else waves ++ [[item]]
  | _ => waves ++ [[item]]

/-- The items that run at the same time, wave after wave. -/
def executionWaves (items : List DeploymentPlanItem) : List (List DeploymentPlanItem) :=
  (items.filter fun item => item.action ≠ .skip).foldl appendToWaves []

/-- A unit execution in the join set. -/
structure StartedUnit where
  item : DeploymentPlanItem
  stepId : Int
deriving Repr, DecidableEq

/-- The local variables of `execute_wave`. -/
structure Wave where
  pending : List DeploymentPlanItem
  running : List StartedUnit
  failureSeen : Bool
  cancellationSeen : Bool
deriving Repr, DecidableEq

/-- Where an execution waits. `waves` are the waves that are not entered yet. -/
inductive Stage
  /-- Before the signal is read for the first time. -/
  | starting (waves : List (List DeploymentPlanItem))
  /-- Before the database is asked for a cancellation, which precedes every wave. -/
  | polling (items : List DeploymentPlanItem) (waves : List (List DeploymentPlanItem))
  /-- Before the signal is read at the beginning of `execute_wave`. -/
  | entering (items : List DeploymentPlanItem) (waves : List (List DeploymentPlanItem))
  /-- Before the signal is read in the loop of `execute_wave`. -/
  | looping (wave : Wave) (waves : List (List DeploymentPlanItem))
  /-- Before the result of an item is set to running. -/
  | filling (wave : Wave) (item : DeploymentPlanItem) (waves : List (List DeploymentPlanItem))
  /-- Before a spawned unit completes. -/
  | joining (wave : Wave) (waves : List (List DeploymentPlanItem))
  /-- Before the outcome of a unit is stored. -/
  | persisting (wave : Wave) (unit : StartedUnit) (outcome : UnitExecutionOutcome)
      (waves : List (List DeploymentPlanItem))
  /-- Before the pending results are closed. -/
  | closing (canceled : Bool)
  /-- Before the results are counted. -/
  | counting (canceled : Bool)
  /-- Before the final status is recorded. -/
  | finalizing (canceled : Bool) (counts : ResultCounts)
  | returned (result : Except OrchestratorError DeploymentRunOutcome)
deriving Repr, DecidableEq

/-- What an execution observes where it waits. -/
inductive Observation
  | signal (canceled : Bool)
  | requested (canceled : Bool)
  | started (stepId : Int)
  | joined (index : Nat) (outcome : UnitExecutionOutcome)
  | persisted
  | closed
  | counted (counts : ResultCounts)
  | finalized (outcome : DeploymentRunOutcome)
  | error (error : OrchestratorError)
deriving Repr, DecidableEq

/-- What happens to units. -/
inductive ExecutionEvent
  | started (item : DeploymentPlanItem)
  | joined (item : DeploymentPlanItem) (outcome : UnitExecutionOutcome)
deriving Repr, DecidableEq

namespace Stage

/-- After the loop over the waves. -/
def afterWaves (failed canceled : Bool) : Stage :=
  if failed || canceled then .closing canceled else .counting canceled

/-- The head of the loop over the waves. -/
def nextWave (waves : List (List DeploymentPlanItem)) (failed canceled : Bool) : Stage :=
  match waves with
  | [] => afterWaves failed canceled
  | items :: waves =>
      if failed || canceled then afterWaves failed canceled else .polling items waves

/-- The end of `execute_wave`, with the outcome of the wave. -/
def endWave (wave : Wave) (waves : List (List DeploymentPlanItem)) : Stage :=
  if wave.cancellationSeen then nextWave waves false true
  else if wave.failureSeen then nextWave waves true false
  else nextWave waves false false

/-- The head of the loop of `execute_wave`. -/
def loopWave (wave : Wave) (waves : List (List DeploymentPlanItem)) : Stage :=
  if wave.pending.isEmpty && wave.running.isEmpty then endWave wave waves
  else .looping wave waves

/-- An item joins the last wave or begins one. -/
def joinWave (wave : Wave) (waves : List (List DeploymentPlanItem)) : Stage :=
  if wave.running.isEmpty then endWave wave waves else .joining wave waves

/-- The head of the loop that starts units. -/
def fillWave (maxParallel : Nat) (wave : Wave) (waves : List (List DeploymentPlanItem)) : Stage :=
  if !wave.failureSeen && !wave.cancellationSeen && decide (wave.running.length < maxParallel) then
    match wave.pending with
    | [] => joinWave wave waves
    | item :: pending => .filling { wave with pending } item waves
  else
    joinWave wave waves

/-- An error of the database, or a unit execution that panics, ends the execution. -/
def mayFail : Stage → Bool
  | polling .. | filling .. | joining .. | persisting .. | closing .. | counting ..
  | finalizing .. => true
  | _ => false

end Stage

/-- What joining an outcome does to the flags of a wave. -/
def Wave.see (wave : Wave) : UnitExecutionOutcome → Wave
  | .success _ => wave
  | .failed _ _ _ => { wave with failureSeen := true }
  | .canceledUnknown _ => { wave with cancellationSeen := true }

@[simp] theorem Wave.see_pending (wave : Wave) (outcome : UnitExecutionOutcome) :
    (wave.see outcome).pending = wave.pending := by
  cases outcome <;> rfl

@[simp] theorem Wave.see_running (wave : Wave) (outcome : UnitExecutionOutcome) :
    (wave.see outcome).running = wave.running := by
  cases outcome <;> rfl

/-- Without a flag after an outcome there was none before, and the outcome is a success. -/
theorem Wave.clear_of_see {wave : Wave} {outcome : UnitExecutionOutcome}
    (hfailure : (wave.see outcome).failureSeen = false)
    (hcancellation : (wave.see outcome).cancellationSeen = false) :
    outcome.isSuccess = true ∧ wave.failureSeen = false ∧ wave.cancellationSeen = false := by
  cases outcome with
  | success _ => exact ⟨rfl, hfailure, hcancellation⟩
  | failed _ _ _ => cases hfailure
  | canceledUnknown _ => cases hcancellation

namespace Stage

/-- The stage after an observation, unless the execution does not wait for it. -/
def observe (maxParallel : Nat) : Stage → Observation → Option Stage
  | starting waves, .signal canceled => some (nextWave waves false canceled)
  | polling items waves, .requested canceled =>
      some (if canceled then afterWaves false true else .entering items waves)
  | entering items waves, .signal canceled =>
      some (loopWave { pending := items, running := [], failureSeen := false
                       cancellationSeen := canceled } waves)
  | looping wave waves, .signal canceled =>
      some (fillWave maxParallel
        { wave with cancellationSeen := wave.cancellationSeen || canceled } waves)
  | filling wave item waves, .started stepId =>
      some (fillWave maxParallel { wave with running := wave.running ++ [⟨item, stepId⟩] } waves)
  | joining wave waves, .joined index outcome =>
      (wave.running[index]?).map fun unit =>
        .persisting ({ wave with running := wave.running.eraseIdx index }.see outcome)
          unit outcome waves
  | persisting wave _ _ waves, .persisted => some (loopWave wave waves)
  | closing canceled, .closed => some (.counting canceled)
  | counting canceled, .counted counts => some (.finalizing canceled counts)
  | finalizing _ _, .finalized outcome => some (.returned (.ok outcome))
  | stage, .error error => if stage.mayFail then some (.returned (.error error)) else none
  | _, _ => none

/-- What a stage records of an observation. -/
def event : Stage → Observation → Option ExecutionEvent
  | filling _ item _, .started _ => some (.started item)
  | joining wave _, .joined index outcome =>
      (wave.running[index]?).map fun unit => .joined unit.item outcome
  | _, _ => none

end Stage

/-- `max_parallel_units.max(1) as usize`. -/
def parallelism (maxParallelUnits : Int) : Nat := (max maxParallelUnits 1).toNat

theorem parallelism_pos (maxParallelUnits : Int) : 0 < parallelism maxParallelUnits := by
  unfold parallelism
  omega

/-- The executions of a plan. -/
def executionOf (plan : DeploymentPlan) (maxParallelUnits : Int) :
    Transition Stage Observation where
  initial stage := stage = .starting (executionWaves plan.items)
  step := Stage.observe (parallelism maxParallelUnits)

end EasyDeploy.Orchestrator
