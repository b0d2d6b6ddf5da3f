import EasyDeploy.Orchestrator.ClosedRuns

/-!
# The outcome of a run

A claimed run is closed by its execution, by an internal error or by an operator
who confirms that it stopped. Each of them determines the status of the run from
the results that are left, and the statuses of the task and of the environment
from this status.
-/

namespace EasyDeploy.Orchestrator
open Foundation Foundation.Transition

/-- The status of a run without success. -/
def unsuccessfulStatus (rows : List UnitResult) (canceled : Bool) : RunStatus :=
  if ∃ row ∈ rows, row.status = .success ∨ row.status = .skipped then .partialFailed
  else if canceled = true ∨ ∃ row ∈ rows, row.status = .canceledUnknown then .canceled
  else .allFailed

/-- The status of a run that its execution closes. -/
def concludedStatus (rows : List UnitResult) (canceled : Bool) : RunStatus :=
  if ∀ row ∈ rows, row.status ≠ .failed ∧ row.status ≠ .notStarted ∧
      row.status ≠ .canceledUnknown then .success
  else unsuccessfulStatus rows canceled

/-- The status of the task of a closed run. -/
def closedTaskStatus (status : RunStatus) (canceled : Bool) : TaskStatus :=
  if status = .success then .success
  else if canceled = true ∨ status = .canceled then .canceled
  else .failed

/-- A unit failed, was canceled or was not started. -/
def Unsuccessful (rows : List UnitResult) : Prop :=
  ∃ row ∈ rows, row.status = .failed ∨ row.status = .notStarted ∨ row.status = .canceledUnknown

/-- A unit succeeded. -/
def Succeeded (rows : List UnitResult) : Prop :=
  ∃ row ∈ rows, row.status = .success ∨ row.status = .skipped

/-- The result of a unit is not known. -/
def Unknown (rows : List UnitResult) : Prop := ∃ row ∈ rows, row.status = .canceledUnknown

/-- The results for which the cancellation that an execution saw leads to the statuses that the
request for a cancellation does. -/
def FinalizeAgrees (rows : List UnitResult) (seen requested : Bool) : Prop :=
  ¬ Unsuccessful rows ∨ Succeeded rows ∧ seen = false ∨
    ¬ Succeeded rows ∧ (Unknown rows ∨ seen = requested)

/-- The results for which a closer without a success and without a look at the request leads to
the statuses that they determine. -/
def AbortAgrees (rows : List UnitResult) (requested : Bool) : Prop :=
  Unsuccessful rows ∧ (Succeeded rows ∨ Unknown rows ∨ requested = false)

section Decisions

variable (rows : List UnitResult) (seen requested : Bool)

instance : Decidable (Unsuccessful rows) := inferInstanceAs (Decidable (∃ row ∈ rows, _))

instance : Decidable (Succeeded rows) := inferInstanceAs (Decidable (∃ row ∈ rows, _))

instance : Decidable (Unknown rows) := inferInstanceAs (Decidable (∃ row ∈ rows, _))

instance : Decidable (FinalizeAgrees rows seen requested) := inferInstanceAs (Decidable (_ ∨ _))

instance : Decidable (AbortAgrees rows requested) := inferInstanceAs (Decidable (_ ∧ _))

end Decisions

/-- The run, its task and its environment record a status. -/
structure ClosedAs (database : Database) (stored : DeploymentRun) (status : RunStatus)
    (taskStatus : TaskStatus) : Prop where
  run : ∀ run ∈ database.runs, run.id = stored.id → run.status = status
  task : ∀ task ∈ database.tasks, task.id = stored.taskId → task.status = taskStatus
  environment : ∀ environment ∈ database.environments, environment.id = stored.environmentId →
    environment.lastDeploymentStatus = status.lastDeploymentStatus

/-- The run has the status that its results and the request for its cancellation determine, and its
task and its environment have the ones that this status determines. -/
def ClosedAsDetermined (database : Database) (stored : DeploymentRun) (rows : List UnitResult) :
    Prop :=
  ClosedAs database stored (concludedStatus rows stored.cancelRequested)
    (closedTaskStatus (concludedStatus rows stored.cancelRequested) false)

section Determined

variable {rows : List UnitResult}

/-- A run succeeds if and only if no row of it is unsuccessful. -/
theorem concludedStatus_eq_success_iff {canceled : Bool} :
    concludedStatus rows canceled = .success ↔ ¬ Unsuccessful rows := by
  have hall : (∀ row ∈ rows, row.status ≠ .failed ∧ row.status ≠ .notStarted ∧
      row.status ≠ .canceledUnknown) ↔ ¬ Unsuccessful rows := by
    simp only [Unsuccessful, not_exists, not_and, not_or, ne_eq]
  rw [← hall, concludedStatus]
  split
  · rename_i h
    exact iff_of_true rfl h
  · rename_i h
    refine iff_of_false ?_ h
    unfold unsuccessfulStatus
    split
    · exact RunStatus.noConfusion
    · split <;> exact RunStatus.noConfusion

/-- The status of a run with an unsuccessful row. -/
theorem concludedStatus_of_unsuccessful {canceled : Bool} (h : Unsuccessful rows) :
    concludedStatus rows canceled = unsuccessfulStatus rows canceled := by
  rw [concludedStatus, if_neg]
  intro hall
  obtain ⟨row, hrow, hstatus⟩ := h
  obtain ⟨hfailed, hnotStarted, hunknown⟩ := hall row hrow
  rcases hstatus with hstatus | hstatus | hstatus
  · exact hfailed hstatus
  · exact hnotStarted hstatus
  · exact hunknown hstatus

/-- Where something has succeeded, an unsuccessful run is partly failed. -/
theorem unsuccessfulStatus_of_succeeded {canceled : Bool} (h : Succeeded rows) :
    unsuccessfulStatus rows canceled = .partialFailed := if_pos h

/-- Where nothing has succeeded and an outcome is not known, a run is canceled. -/
theorem unsuccessfulStatus_of_unknown {canceled : Bool} (h : ¬ Succeeded rows)
    (hunknown : Unknown rows) : unsuccessfulStatus rows canceled = .canceled :=
  (if_neg h).trans (if_pos (.inr hunknown))

/-- Where nothing has succeeded and all outcomes are known, the request to cancel decides. -/
theorem unsuccessfulStatus_of_known {canceled : Bool} (h : ¬ Succeeded rows)
    (hknown : ¬ Unknown rows) :
    unsuccessfulStatus rows canceled = if canceled then .canceled else .allFailed := by
  cases canceled with
  | false => exact (if_neg h).trans (if_neg (not_or.mpr ⟨Bool.false_ne_true, hknown⟩))
  | true => exact (if_neg h).trans (if_pos (.inl rfl))

/-- The task alone shows whether the cancellation that was seen makes a difference. -/
theorem finalizeAgrees_iff {seen requested : Bool} :
    closedTaskStatus (concludedStatus rows seen) seen =
        closedTaskStatus (concludedStatus rows requested) false ↔
      FinalizeAgrees rows seen requested := by
  unfold FinalizeAgrees
  by_cases hunsuccessful : Unsuccessful rows
  · rw [concludedStatus_of_unsuccessful hunsuccessful,
      concludedStatus_of_unsuccessful hunsuccessful]
    by_cases hsucceeded : Succeeded rows
    · rw [unsuccessfulStatus_of_succeeded hsucceeded, unsuccessfulStatus_of_succeeded hsucceeded]
      cases seen <;> simp [closedTaskStatus, hunsuccessful, hsucceeded]
    · by_cases hunknown : Unknown rows
      · rw [unsuccessfulStatus_of_unknown hsucceeded hunknown,
          unsuccessfulStatus_of_unknown hsucceeded hunknown]
        cases seen <;> simp [closedTaskStatus, hsucceeded, hunknown]
      · rw [unsuccessfulStatus_of_known hsucceeded hunknown,
          unsuccessfulStatus_of_known hsucceeded hunknown]
        cases seen <;> cases requested <;>
          simp [closedTaskStatus, hunsuccessful, hsucceeded, hunknown]
  · rw [concludedStatus_eq_success_iff.mpr hunsuccessful,
      concludedStatus_eq_success_iff.mpr hunsuccessful]
    exact iff_of_true rfl (.inl hunsuccessful)

/-- The request that was seen gives the status of the one that was made. -/
theorem FinalizeAgrees.concluded {seen requested : Bool} (h : FinalizeAgrees rows seen requested) :
    concludedStatus rows seen = concludedStatus rows requested := by
  by_cases hunsuccessful : Unsuccessful rows
  · rw [concludedStatus_of_unsuccessful hunsuccessful,
      concludedStatus_of_unsuccessful hunsuccessful]
    by_cases hsucceeded : Succeeded rows
    · rw [unsuccessfulStatus_of_succeeded hsucceeded, unsuccessfulStatus_of_succeeded hsucceeded]
    · by_cases hunknown : Unknown rows
      · rw [unsuccessfulStatus_of_unknown hsucceeded hunknown,
          unsuccessfulStatus_of_unknown hsucceeded hunknown]
      · rcases h with hnone | ⟨hsome, -⟩ | ⟨-, hcase⟩
        · exact absurd hunsuccessful hnone
        · exact absurd hsome hsucceeded
        · rw [hcase.resolve_left hunknown]
  · rw [concludedStatus_eq_success_iff.mpr hunsuccessful,
      concludedStatus_eq_success_iff.mpr hunsuccessful]

/-- An aborted run has the status of its rows if and only if the abort agrees with them. -/
theorem abortAgrees_iff {requested : Bool} :
    unsuccessfulStatus rows false = concludedStatus rows requested ↔
      AbortAgrees rows requested := by
  unfold AbortAgrees
  by_cases hunsuccessful : Unsuccessful rows
  · rw [concludedStatus_of_unsuccessful hunsuccessful]
    by_cases hsucceeded : Succeeded rows
    · rw [unsuccessfulStatus_of_succeeded hsucceeded, unsuccessfulStatus_of_succeeded hsucceeded]
      exact iff_of_true rfl ⟨hunsuccessful, .inl hsucceeded⟩
    · by_cases hunknown : Unknown rows
      · rw [unsuccessfulStatus_of_unknown hsucceeded hunknown,
          unsuccessfulStatus_of_unknown hsucceeded hunknown]
        exact iff_of_true rfl ⟨hunsuccessful, .inr (.inl hunknown)⟩
      · rw [unsuccessfulStatus_of_known hsucceeded hunknown,
          unsuccessfulStatus_of_known hsucceeded hunknown]
        cases requested <;> simp [hunsuccessful, hsucceeded, hunknown]
  · rw [concludedStatus_eq_success_iff.mpr hunsuccessful]
    refine iff_of_false ?_ fun hagrees => hunsuccessful hagrees.1
    unfold unsuccessfulStatus
    split
    · exact RunStatus.noConfusion
    · split <;> exact RunStatus.noConfusion

end Determined

section Counts

variable {rows : List UnitResult}

/-- Something is counted as succeeded if a row is. -/
theorem succeeded_pos_iff : (countResults rows).succeeded > 0 ↔
    ∃ row ∈ rows, row.status = .success ∨ row.status = .skipped := by
  have hstatus (row : UnitResult) : row.status.succeeded = true ↔
      row.status = .success ∨ row.status = .skipped := by
    cases row.status <;> simp [UnitStatus.succeeded]
  simp only [countResults, gt_iff_lt, List.countP_pos_iff, hstatus]

/-- Something is counted as not known if a row is. -/
theorem canceledUnknown_pos_iff : (countResults rows).canceledUnknown > 0 ↔
    ∃ row ∈ rows, row.status = .canceledUnknown := by
  simp only [countResults, gt_iff_lt, List.countP_pos_iff, beq_iff_eq]

/-- Nothing is counted as failed or not known if no row is. -/
theorem nothing_failed_iff :
    (countResults rows).failed = 0 ∧ (countResults rows).canceledUnknown = 0 ↔
      ∀ row ∈ rows, row.status ≠ .failed ∧ row.status ≠ .notStarted ∧
        row.status ≠ .canceledUnknown := by
  have hstatus (row : UnitResult) : row.status.unsuccessful = true ↔
      row.status = .failed ∨ row.status = .notStarted := by
    cases row.status <;> simp [UnitStatus.unsuccessful]
  simp only [countResults, List.countP_eq_zero, hstatus, beq_iff_eq, not_or]
  constructor
  · intro h row hrow
    exact ⟨(h.1 row hrow).1, (h.1 row hrow).2, h.2 row hrow⟩
  · intro h
    exact ⟨fun row hrow => ⟨(h row hrow).1, (h row hrow).2.1⟩, fun row hrow => (h row hrow).2.2⟩

/-- The status from the counts is the one of the rows. -/
theorem finalStatus_countResults (canceled : Bool) :
    finalStatus (countResults rows) canceled = concludedStatus rows canceled := by
  simp only [finalStatus, concludedStatus, unsuccessfulStatus, nothing_failed_iff,
    succeeded_pos_iff, canceledUnknown_pos_iff]

/-- The status of an aborted run is that of its rows without a request. -/
theorem abortedStatus_countResults :
    abortedStatus (countResults rows) = unsuccessfulStatus rows false := by
  simp only [abortedStatus, unsuccessfulStatus, succeeded_pos_iff, canceledUnknown_pos_iff,
    Bool.false_eq_true, false_or]

/-- The task of a run that ends is closed with the run. -/
theorem finalTaskStatus_eq (status : RunStatus) (canceled : Bool) :
    finalTaskStatus status canceled = closedTaskStatus status canceled := by
  cases status <;> cases canceled <;> rfl

/-- The task of an aborted run is closed with the run. -/
theorem abortedTaskStatus_abortedStatus (counts : ResultCounts) :
    abortedTaskStatus (abortedStatus counts) = closedTaskStatus (abortedStatus counts) false := by
  unfold abortedStatus
  split
  · rfl
  · split <;> rfl

end Counts

section Closers

variable {database : Database} {stored : DeploymentRun}

/-- The run keeps its status unless it is running; the task and the environment do not. -/
theorem recorded_recordFinalStatus (h : Consistent database) (hstored : stored ∈ database.runs)
    {plan : DeploymentPlan} (hplan : stored.planJson = .ok plan) (canceled : Bool)
    (counts : ResultCounts) :
    (∀ run ∈ (database.recordFinalStatus stored.id plan canceled counts).runs,
      run.id = stored.id → run.status =
        if stored.status = .running then finalStatus counts canceled else stored.status) ∧
    (∀ task ∈ (database.recordFinalStatus stored.id plan canceled counts).tasks,
      task.id = stored.taskId → task.status = finalTaskStatus (finalStatus counts canceled)
        canceled) ∧
    ∀ environment ∈ (database.recordFinalStatus stored.id plan canceled counts).environments,
      environment.id = stored.environmentId →
        environment.lastDeploymentStatus = (finalStatus counts canceled).lastDeploymentStatus := by
  obtain ⟨plan', hplan', henvironment, -⟩ := h.planned stored hstored
  obtain rfl := Except.ok.inj (hplan'.symm.trans hplan)
  refine ⟨fun run hrun hid => ?_, fun task htask hid => ?_, fun environment hmem hid => ?_⟩
  · rw [h.wellFormed.runIds.eq_of_mem_updateAt hstored hrun (fun _ => rfl) hid]
    by_cases hrunning : stored.status = .running
    · simp [hrunning]
    · simp [hrunning]
  · refine holds_of_updateAt (P := fun task : OperationTask => task.status = _) htask
      (fun _ _ => rfl) (fun _ _ _ => .inl rfl) ?_
    rw [recordFinalStatus_task h.wellFormed hstored, hid]
  · refine holds_of_updateAt
      (P := fun environment : Environment => environment.lastDeploymentStatus = _) hmem
      (fun _ _ => ?_) (fun _ _ _ => .inl rfl) (hid.trans henvironment.symm)
    split <;> rfl

/-- A transaction of a run leaves its run and its task. -/
theorem exists_of_within (h : WellFormed database) (hstored : stored ∈ database.runs)
    {after : Database} (hwithin : Within database after stored.id stored.taskId) :
    (∃ run ∈ after.runs, run.id = stored.id) ∧ ∃ task ∈ after.tasks, task.id = stored.taskId := by
  constructor
  · have hmem : stored.identity ∈ after.runs.map (·.identity) := by
      rw [hwithin.runs]
      exact List.mem_map_of_mem hstored
    obtain ⟨run, hrun, hidentity⟩ := List.mem_map.mp hmem
    exact ⟨run, hrun, (DeploymentRun.of_identity hidentity).1⟩
  · have hmem := h.tasks stored hstored
    rw [← hwithin.tasks] at hmem
    exact List.mem_map.mp hmem

/-- A status without a success that was recorded is the one that is determined. -/
theorem closedAsDetermined_iff_of_abort (h : WellFormed database) (hstored : stored ∈ database.runs)
    {after : Database} (hwithin : Within database after stored.id stored.taskId)
    {rows : List UnitResult} (hclosed : ClosedAs after stored (unsuccessfulStatus rows false)
      (closedTaskStatus (unsuccessfulStatus rows false) false)) :
    ClosedAsDetermined after stored rows ↔ AbortAgrees rows stored.cancelRequested := by
  rw [← abortAgrees_iff]
  constructor
  · intro hdetermined
    obtain ⟨run, hrun, hid⟩ := (exists_of_within h hstored hwithin).1
    rw [← hclosed.run run hrun hid, hdetermined.run run hrun hid]
  · intro hagrees
    rw [ClosedAsDetermined, ← hagrees]
    exact hclosed

/-- An internal error closes the run with its counts. -/
theorem closedAs_recordInternalError (h : Consistent database) (hstored : stored ∈ database.runs)
    (hstatus : stored.status = .queued ∨ stored.status = .running) (summary : String)
    (counts : ResultCounts) :
    ClosedAs (database.recordInternalError stored summary counts) stored (abortedStatus counts)
      (abortedTaskStatus (abortedStatus counts)) := by
  refine ⟨fun run hrun hid => ?_, fun task htask hid => ?_, fun environment hmem hid => ?_⟩
  · rw [h.wellFormed.runIds.eq_of_mem_updateAt hstored hrun (fun _ => rfl) hid]
    rcases hstatus with hstatus | hstatus <;> simp [hstatus]
  · refine holds_of_updateAt (P := fun task : OperationTask => task.status = _) htask
      (fun _ _ => rfl) (fun old hold hsame => .inl ?_) hid
    have hagrees := h.agrees stored hstored
    rcases hstatus with hstatus | hstatus <;> rw [hstatus] at hagrees <;>
      rw [hagrees.task old hold hsame] <;> rfl
  · exact holds_of_updateAt
      (P := fun environment : Environment => environment.lastDeploymentStatus = _) hmem
      (fun _ _ => rfl) (fun _ _ _ => .inl rfl) hid

/-- A confirmation closes the run with its counts. -/
theorem closedAs_recordConfirmation (h : Consistent database) (hstored : stored ∈ database.runs)
    (hreconciling : stored.status = .reconciling) (actor note : String) (counts : ResultCounts) :
    ClosedAs (database.recordConfirmation stored actor note counts) stored (abortedStatus counts)
      (abortedTaskStatus (abortedStatus counts)) := by
  refine ⟨fun run hrun hid => ?_, fun task htask hid => ?_, fun environment hmem hid => ?_⟩
  · rw [h.wellFormed.runIds.eq_of_mem_updateAt hstored hrun (fun _ => rfl) hid]
    simp [hreconciling]
  · exact holds_of_updateAt (P := fun task : OperationTask => task.status = _) htask
      (fun _ _ => rfl) (fun _ _ _ => .inl rfl) hid
  · exact holds_of_updateAt
      (P := fun environment : Environment => environment.lastDeploymentStatus = _) hmem
      (fun _ _ => rfl) (fun _ _ _ => .inl rfl) hid

end Closers

section FinalStage

variable {wave : Wave} {waves : List (List DeploymentPlanItem)} {maxParallel : Nat}
  {canceled : Bool} {counts : ResultCounts}

theorem nextWave_ne_finalizing {failed seen : Bool} :
    Stage.nextWave waves failed seen ≠ .finalizing canceled counts := by
  unfold Stage.nextWave Stage.afterWaves
  split
  · split <;> exact Stage.noConfusion
  · split <;> exact Stage.noConfusion

theorem endWave_ne_finalizing : Stage.endWave wave waves ≠ .finalizing canceled counts := by
  unfold Stage.endWave
  split
  · exact nextWave_ne_finalizing
  · split <;> exact nextWave_ne_finalizing

theorem loopWave_ne_finalizing : Stage.loopWave wave waves ≠ .finalizing canceled counts := by
  unfold Stage.loopWave
  split
  · exact endWave_ne_finalizing
  · exact Stage.noConfusion

theorem fillWave_ne_finalizing :
    Stage.fillWave maxParallel wave waves ≠ .finalizing canceled counts := by
  have hjoin : Stage.joinWave wave waves ≠ .finalizing canceled counts := by
    unfold Stage.joinWave
    split
    · exact endWave_ne_finalizing
    · exact Stage.noConfusion
  unfold Stage.fillWave
  split
  · split
    · exact hjoin
    · exact Stage.noConfusion
  · exact hjoin

/-- An execution finalizes its run with the counts that it reads. -/
theorem counted_of_observe {stage : Stage} {observation : Observation}
    (h : stage.observe maxParallel observation = some (.finalizing canceled counts)) :
    observation = .counted counts := by
  cases observation with
  | error error =>
      have hfail : (if stage.mayFail then some (Stage.returned (.error error)) else none) =
          some (.finalizing canceled counts) := by
        cases stage <;> exact h
      split at hfail <;> cases hfail
  | signal seen =>
      cases stage with
      | starting waves => exact absurd (Option.some.inj h) nextWave_ne_finalizing
      | entering items waves => exact absurd (Option.some.inj h) loopWave_ne_finalizing
      | looping wave waves => exact absurd (Option.some.inj h) fillWave_ne_finalizing
      | _ => cases h
  | requested seen =>
      cases stage with
      | polling items waves => cases seen <;> cases h
      | _ => cases h
  | started stepId =>
      cases stage with
      | filling wave item waves => exact absurd (Option.some.inj h) fillWave_ne_finalizing
      | _ => cases h
  | joined index outcome =>
      cases stage with
      | joining wave waves =>
          obtain ⟨unit, -, hstage⟩ := Option.map_eq_some_iff.mp h
          cases hstage
      | _ => cases h
  | persisted =>
      cases stage with
      | persisting wave unit outcome waves =>
          exact absurd (Option.some.inj h) loopWave_ne_finalizing
      | _ => cases h
  | closed => cases stage <;> cases h
  | finalized outcome => cases stage <;> cases h
  | counted read =>
      cases stage with
      | counting seen =>
          obtain ⟨-, rfl⟩ := Stage.finalizing.inj (Option.some.inj h)
          rfl
      | _ => cases h

end FinalStage

/-- The counts that an execution holds are those of the results. -/
def Counted (system : System) : Prop :=
  ∀ (index : Nat) execution run plan canceled counts stored,
    system.executions[index]? = some execution →
    execution.progress = .executing run plan (.finalizing canceled counts) →
    stored ∈ system.database.runs → stored.id = execution.deploymentRunId →
    counts = countResults (system.database.resultsOf stored.id)

/-- When an execution finalizes its run, no result is open, so an internal error changes none. -/
theorem resultsOf_recordInternalError {database : Database} {stored : DeploymentRun}
    {canceled : Bool} {read : ResultCounts}
    (hcovers : Covers database stored.id stored.taskId (.finalizing canceled read))
    (summary : String) (counts : ResultCounts) :
    (database.recordInternalError stored summary counts).resultsOf stored.id =
      database.resultsOf stored.id := by
  have hclosed : ∀ row ∈ database.unitResults, row.deploymentRunId = stored.id →
      row.status.isOpen = false := by
    intro row hrow hid
    cases hstatus : row.status with
    | pending =>
        rcases hcovers.pending row hrow hid hstatus with hleaves | ⟨item, hitem, -⟩
        · cases hleaves
        · cases hitem
    | running =>
        rcases hcovers.running row hrow hid hstatus with habandoned | ⟨unit, hunit, -⟩
        · cases habandoned
        · cases hunit
    | success | failed | skipped | notStarted | canceledUnknown => rfl
  have hsame : database.interruptResults stored.id summary = database.unitResults := by
    rw [Database.interruptResults, updateAt]
    refine (List.map_congr_left fun row hrow => if_neg ?_).trans (List.map_id' _)
    rintro ⟨hid, hopen⟩
    rw [hclosed row hrow hid] at hopen
    cases hopen
  rw [Database.resultsOf, Database.recordInternalError, hsame, Database.resultsOf]

section Steps

variable {digests : Digests} {system system' : System} {action : Action} {index : Nat}
  {execution : Execution} {run : ExecutionRun} {plan : DeploymentPlan}

/-- Counts that were held before are right as long as the results do not change. -/
theorem Counted.keep (h : Counted system) (hsound : Sound system)
    (hindex : system.executions[index]? = some execution) {canceled : Bool}
    {counts : ResultCounts}
    (hprogress : execution.progress = .executing run plan (.finalizing canceled counts))
    {stored' : DeploymentRun} (hid : stored'.id = execution.deploymentRunId)
    (hresults : ∀ stored, Attends system.database stored'.id run plan
      (.finalizing canceled counts) stored →
      system'.database.resultsOf stored'.id = system.database.resultsOf stored'.id) :
    counts = countResults (system'.database.resultsOf stored'.id) := by
  obtain ⟨stored, hattends⟩ := hsound.attended _ _ _ _ _ hindex hprogress
  rw [hresults stored (hid ▸ hattends), hid, ← hattends.id]
  exact h index execution run plan canceled counts stored hindex hprogress hattends.mem hattends.id

/-- Every step keeps the counts of an execution that is to end. -/
theorem Counted.step (h : Counted system) (hsound : Sound system)
    (hstep : system.step digests action = some system') : Counted system' := by
  have hwell := hsound.consistent.wellFormed
  intro index execution run plan canceled counts stored' hindex hprogress hstored' hid
  -- A transaction of the run of another execution.
  have hother {other : Nat} {attending : Execution} {run' : ExecutionRun}
      {plan' : DeploymentPlan} {stage : Stage} {taskId : Int}
      (hattending : system.executions[other]? = some attending)
      (hexecuting : attending.progress = .executing run' plan' stage) (hne : index ≠ other)
      (hbefore : system.executions[index]? = some execution)
      (hwithin : Within system.database system'.database attending.deploymentRunId taskId) :
      counts = countResults (system'.database.resultsOf stored'.id) := by
    refine h.keep hsound hbefore hprogress hid fun _ _ => ?_
    refine hwithin.resultsOf _ fun heq => hne (hsound.alone index other execution attending
      hbefore hattending ?_ ?_ (hid.symm.trans heq))
    · rw [Execution.isExecuting, hprogress]
    · rw [Execution.isExecuting, hexecuting]
  have hquiet (hbefore : system.executions[index]? = some execution)
      (hresults : system'.database.unitResults = system.database.unitResults) :
      counts = countResults (system'.database.resultsOf stored'.id) := by
    refine h.keep hsound hbefore hprogress hid fun _ _ => ?_
    rw [Database.resultsOf, hresults, Database.resultsOf]
  have hsteps := steps_of_step hstep
  cases hsteps with
  | @created input plan' hnone hplan hserving =>
      refine h.keep hsound hindex hprogress hid fun stored hattends => ?_
      refine untouched_insertRun.resultsOf _ ?_
      rw [← hattends.id]
      exact (lt_nextId (List.mem_map_of_mem hattends.mem)).ne
  | @called deploymentRunId hserving =>
      rw [List.getElem?_append] at hindex
      split at hindex
      · exact hquiet hindex rfl
      · have hnew := List.mem_singleton.mp (List.mem_of_getElem? hindex)
        rw [hnew] at hprogress
        cases hprogress
  | signaled hold =>
      rcases getElem?_set_cases hindex with ⟨rfl, rfl⟩ | ⟨-, hbefore⟩
      · exact h.keep hsound hold hprogress hid fun _ _ => rfl
      · exact hquiet hbefore rfl
  | refused error hold hclaiming =>
      rcases getElem?_set_cases hindex with ⟨rfl, rfl⟩ | ⟨-, hbefore⟩
      · cases hprogress
      · exact hquiet hbefore rfl
  | claimed signal progress hold hclaiming hclaimed hclaimedId hqueued htask henvironment hplan
      hclaim =>
      rcases getElem?_set_cases hindex with ⟨rfl, rfl⟩ | ⟨-, hbefore⟩
      · rcases hclaim with ⟨error, rfl⟩ | ⟨plan', -, rfl⟩
        · cases hprogress
        · cases hprogress
      · exact hquiet hbefore rfl
  | observed signal hold hexecuting hisQuiet hobserve hcounted =>
      rcases getElem?_set_cases hindex with ⟨rfl, rfl⟩ | ⟨-, hbefore⟩
      · obtain ⟨rfl, rfl, rfl⟩ := Progress.executing.inj hprogress
        have hread := hcounted counts (counted_of_observe hobserve)
        unfold Database.resultCounts at hread
        split at hread
        · cases hread
        · obtain rfl := Except.ok.inj hread
          rw [hid]
      · exact hquiet hbefore rfl
  | started signal hold hexecuting hrow hrun hunit hpending =>
      rcases getElem?_set_cases hindex with ⟨rfl, rfl⟩ | ⟨hne, hbefore⟩
      · exact absurd (Progress.executing.inj hprogress).2.2 fillWave_ne_finalizing
      · exact hother hold hexecuting hne hbefore within_recordStart
  | persisted signal hold hexecuting =>
      rcases getElem?_set_cases hindex with ⟨rfl, rfl⟩ | ⟨hne, hbefore⟩
      · exact absurd (Progress.executing.inj hprogress).2.2 loopWave_ne_finalizing
      · exact hother hold hexecuting hne hbefore within_persistUnitOutcome
  | closed signal hold hexecuting =>
      rcases getElem?_set_cases hindex with ⟨rfl, rfl⟩ | ⟨hne, hbefore⟩
      · cases hprogress
      · exact hother hold hexecuting hne hbefore
          (within_closePendingResults : Within system.database _ _ execution.deploymentRunId)
  | finalized signal outcome hold hexecuting =>
      rcases getElem?_set_cases hindex with ⟨rfl, rfl⟩ | ⟨-, hbefore⟩
      · cases hprogress
      · exact hquiet hbefore rfl
  | unchanged hactive => exact hquiet hindex rfl
  | @canceledQueued touched deploymentRunId actor actor' htouched hqueued =>
      refine h.keep hsound hindex hprogress hid fun stored hattends => ?_
      refine within_cancelQueued.resultsOf _ fun heq => ?_
      -- A queued run has no execution that is past its claim.
      obtain rfl := hwell.runIds.eq hattends.mem htouched (hattends.id.trans heq)
      rcases hattends.covers with hterminal | ⟨hrunning, -⟩
      · rw [hqueued] at hterminal
        cases hterminal
      · rw [hqueued] at hrunning
        cases hrunning
  | canceledRunning actor actor' hrun hcanceled => exact hquiet hindex rfl
  | @failed other attending touched summary read hfailing htouched hrunId hstatus =>
      refine h.keep hsound hindex hprogress hid fun stored hattends => ?_
      by_cases heq : stored'.id = touched.id
      · obtain rfl := hwell.runIds.eq hattends.mem htouched (hattends.id.trans heq)
        rw [heq]
        rcases hattends.covers with hterminal | ⟨-, hcovers⟩
        · rcases hstatus with hstatus | hstatus
          · rw [hstatus] at hterminal
            cases hterminal
          · rw [hstatus] at hterminal
            cases hterminal
        · exact resultsOf_recordInternalError hcovers summary read
      · exact within_recordInternalError.resultsOf _ heq
  | restarted => exact absurd hindex (by simp)
  | reconciled hserving =>
      rw [hsound.idle hserving] at hindex
      cases hindex
  | confirmed actor note actor' note' read hrun hreconciling => exact hquiet hindex rfl
  | edited => exact hquiet hindex rfl

/-- In every reachable state an execution that is to end has counted its rows. -/
theorem counted_of_reachable (h : Reachable (orchestrator digests) system) : Counted system := by
  refine Reached.invariant (P := Counted) h ?_ fun _ _ _ reached _ hcounted hstep =>
    hcounted.step (sound_of_reachable reached) hstep
  rintro start ⟨-, -, -, -, -, -, -, hexecutions⟩ index execution run plan canceled counts stored
    hindex
  rw [hexecutions] at hindex
  cases hindex

/-- When a closer records the statuses that the results of its run and the request for its
cancellation determine. An execution does so while its run is running, or has been closed with the
right status by an internal error of another call, as long as the cancellation that it saw makes no
difference; an internal error and an operator do so when some unit was not successful and the
request makes no difference. -/
theorem closers_agree_iff (h : Reachable (orchestrator digests) system)
    {stored : DeploymentRun} (hstored : stored ∈ system.database.runs) :
    (∀ (index : Nat) execution run plan canceled counts,
      system.executions[index]? = some execution →
      execution.progress = .executing run plan (.finalizing canceled counts) →
      execution.deploymentRunId = stored.id →
      system.step digests (.advance index .proceed) = some system' →
      (ClosedAsDetermined system'.database stored (system.database.resultsOf stored.id) ↔
        (stored.status = .running ∨ stored.status = concludedStatus
          (system.database.resultsOf stored.id) stored.cancelRequested) ∧
        FinalizeAgrees (system.database.resultsOf stored.id) canceled stored.cancelRequested)) ∧
    (∀ (index : Nat) execution, system.executions[index]? = some execution →
      execution.deploymentRunId = stored.id → stored.status = .queued ∨ stored.status = .running →
      system.step digests (.failRun index) = some system' →
      (ClosedAsDetermined system'.database stored (system'.database.resultsOf stored.id) ↔
        AbortAgrees (system'.database.resultsOf stored.id) stored.cancelRequested)) ∧
    (∀ actor note, stored.status = .reconciling →
      system.step digests (.confirm stored.id actor note) = some system' →
      (ClosedAsDetermined system'.database stored (system.database.resultsOf stored.id) ↔
        AbortAgrees (system.database.resultsOf stored.id) stored.cancelRequested)) := by
  have hsound := sound_of_reachable h
  have hwell := hsound.consistent.wellFormed
  refine ⟨?_, ?_, ?_⟩
  · intro index execution run plan canceled counts hindex hprogress hid hstep
    obtain ⟨attended, hattends⟩ := hsound.attended _ _ _ _ _ hindex hprogress
    obtain rfl := hwell.runIds.eq hattends.mem hstored (hattends.id.trans hid)
    have hcounts := counted_of_reachable h _ _ _ _ _ _ _ hindex hprogress hattends.mem hattends.id
    obtain ⟨hrun, htask, henvironment⟩ := recorded_recordFinalStatus hsound.consistent
      hattends.mem hattends.planned canceled counts
    have hwithin : Within system.database
        (system.database.recordFinalStatus attended.id plan canceled counts) attended.id
        attended.taskId := within_recordFinalStatus hwell hattends.mem
    obtain ⟨⟨left, hleft, hleftId⟩, task, hmem, htaskId⟩ := exists_of_within hwell hattends.mem
      hwithin
    have hstatus : finalStatus counts canceled =
        concludedStatus (system.database.resultsOf attended.id) canceled := by
      rw [hcounts, finalStatus_countResults]
    rw [hstatus] at hrun henvironment
    rw [finalTaskStatus_eq, hstatus] at htask
    simp only [System.step, hindex, Execution.advance, hprogress, Stage.perform, Stage.observe,
      Option.map_some] at hstep
    obtain rfl := Option.some.inj hstep
    rw [hid]
    constructor
    · intro hdetermined
      have hagrees := finalizeAgrees_iff.mp
        ((htask task hmem htaskId).symm.trans (hdetermined.task task hmem htaskId))
      refine ⟨?_, hagrees⟩
      have hkept := (hrun left hleft hleftId).symm.trans (hdetermined.run left hleft hleftId)
      split at hkept
      · rename_i hrunning
        exact .inl hrunning
      · exact .inr hkept
    · rintro ⟨hwas, hagrees⟩
      refine ⟨fun other hother hotherId => ?_, fun other hother hotherId => ?_,
        fun other hother hotherId => ?_⟩
      · rw [hrun other hother hotherId]
        split
        · exact hagrees.concluded
        · rename_i hrunning
          exact hwas.resolve_left hrunning
      · rw [htask other hother hotherId, finalizeAgrees_iff.mpr hagrees]
      · rw [henvironment other hother hotherId, hagrees.concluded]
  · intro index execution hindex hid hstatus hstep
    simp only [System.step, hindex] at hstep
    split at hstep
    · cases hstep
    · obtain ⟨result, hresult, rfl⟩ := commit_eq_some hstep
      obtain ⟨-, hnone⟩ | ⟨failed, hfailed, hfailedId, -, summary, counts, heq, hcounts⟩ :=
        Database.failRunOnInternalError_eq_ok hresult
      · obtain ⟨hqueued, hrunning⟩ := hnone stored hstored hid.symm
        exact absurd hstatus (not_or.mpr ⟨hqueued, hrunning⟩)
      · obtain rfl := hwell.runIds.eq hfailed hstored (hfailedId.trans hid)
        have hclosed := closedAs_recordInternalError hsound.consistent hstored hstatus summary
          counts
        rw [abortedTaskStatus_abortedStatus, hcounts, abortedStatus_countResults] at hclosed
        rw [← hcounts, ← heq] at hclosed
        refine closedAsDetermined_iff_of_abort hwell hstored ?_ hclosed
        dsimp only
        rw [heq]
        exact within_recordInternalError
  · intro actor note hreconciling hstep
    simp only [System.step] at hstep
    split at hstep
    · obtain ⟨result, hresult, rfl⟩ := commit_eq_some hstep
      obtain ⟨confirmed, hconfirmed, hconfirmedId, -, counts, hcounts, -, heq⟩ :=
        Database.confirmInterruptedRunStopped_eq_ok hresult
      obtain rfl := hwell.runIds.eq hconfirmed hstored hconfirmedId
      have hclosed := closedAs_recordConfirmation hsound.consistent hstored hreconciling
        (trim actor) (trim note) counts
      unfold Database.resultCounts at hcounts
      split at hcounts
      · cases hcounts
      · obtain rfl := Except.ok.inj hcounts
        rw [abortedTaskStatus_abortedStatus, abortedStatus_countResults] at hclosed
        dsimp only
        rw [heq]
        exact closedAsDetermined_iff_of_abort hwell hstored within_recordConfirmation hclosed
    · cases hstep

/-- Whether an execution that is about to close its run has been asked to end. -/
def Sample.finalizing : Progress → Option Bool
  | .executing _ _ (.finalizing canceled _) => some canceled
  | _ => none

/-- The only unit succeeds and the execution ends; or the process restarts before, and the operator
confirms. -/
theorem closers_agree_iff_succeeded :
    (∃ system system' stored, (orchestrator Sample.digests).exec Sample.installation
        ([.reconcile] ++ Sample.launch 1 1 0 ++ Sample.conclude 0 (.success "started") 2) =
          some system ∧ stored ∈ system.database.runs ∧
      system.step Sample.digests (.advance 0 .proceed) = some system' ∧
      ClosedAsDetermined system'.database stored (system.database.resultsOf stored.id)) ∧
    ∃ system system' stored, (orchestrator Sample.digests).exec Sample.installation
        ([.reconcile] ++ Sample.launch 1 1 0 ++ Sample.conclude 0 (.success "started") 1 ++
          [.restart, .reconcile]) = some system ∧ stored ∈ system.database.runs ∧
      system.step Sample.digests (.confirm stored.id "operator" "stopped") = some system' ∧
      ¬ ClosedAsDetermined system'.database stored (system.database.resultsOf stored.id) := by
  constructor
  · obtain ⟨system, hexec, hfacts⟩ := Option.map_eq_some_iff.mp (show
      ((orchestrator Sample.digests).exec Sample.installation
          ([.reconcile] ++ Sample.launch 1 1 0 ++ Sample.conclude 0 (.success "started") 2)).map
        (fun system => (system.database.runs.map fun run => (run.id, run.status,
            run.cancelRequested),
          decide (FinalizeAgrees (system.database.resultsOf 1) false false),
          system.executions.map fun execution => (execution.deploymentRunId,
            Sample.finalizing execution.progress),
          (system.step Sample.digests (.advance 0 .proceed)).isSome)) =
        some ([(1, .running, false)], true, [(1, some false)], true) from rfl)
    obtain ⟨hruns, hagrees, hexecutions, hadvance⟩ : _ ∧ _ ∧ _ ∧ _ := by
      simpa only [Prod.mk.injEq] using hfacts
    obtain ⟨system', hstep⟩ := Option.isSome_iff_exists.mp hadvance
    obtain ⟨stored, rest, hstored, hrun, -⟩ := List.map_eq_cons_iff.mp hruns
    obtain ⟨hid, hpair⟩ := Prod.mk.inj hrun
    obtain ⟨hrunning, hrequested⟩ := Prod.mk.inj hpair
    obtain ⟨execution, others, hexecution, hattends, -⟩ := List.map_eq_cons_iff.mp hexecutions
    obtain ⟨hof, hprogress⟩ := Prod.mk.inj hattends
    have hmem : stored ∈ system.database.runs := hstored ▸ List.mem_cons_self
    unfold Sample.finalizing at hprogress
    split at hprogress
    · rename_i run plan canceled counts hexecuting
      obtain rfl := Option.some.inj hprogress
      refine ⟨system, system', stored, hexec, hmem, hstep, ?_⟩
      refine ((closers_agree_iff (Sample.reachable_of_installation hexec) hmem).1 0 execution run
        plan false counts (by rw [hexecution, List.getElem?_cons_zero]) hexecuting
        (hof.trans hid.symm) hstep).mpr ⟨.inl hrunning, ?_⟩
      rw [hid, hrequested]
      exact of_decide_eq_true hagrees
    · cases hprogress
  · obtain ⟨system, hexec, hfacts⟩ := Option.map_eq_some_iff.mp (show
      ((orchestrator Sample.digests).exec Sample.installation
          ([.reconcile] ++ Sample.launch 1 1 0 ++ Sample.conclude 0 (.success "started") 1 ++
            [.restart, .reconcile])).map
        (fun system => (system.database.runs.map fun run => (run.id, run.status,
            run.cancelRequested),
          decide (AbortAgrees (system.database.resultsOf 1) false),
          (system.step Sample.digests (.confirm 1 "operator" "stopped")).isSome)) =
        some ([(1, .reconciling, false)], false, true) from rfl)
    obtain ⟨hruns, hagrees, hconfirm⟩ : _ ∧ _ ∧ _ := by
      simpa only [Prod.mk.injEq] using hfacts
    obtain ⟨system', hstep⟩ := Option.isSome_iff_exists.mp hconfirm
    obtain ⟨stored, rest, hstored, hrun, -⟩ := List.map_eq_cons_iff.mp hruns
    obtain ⟨hid, hpair⟩ := Prod.mk.inj hrun
    obtain ⟨hreconciling, hrequested⟩ := Prod.mk.inj hpair
    have hmem : stored ∈ system.database.runs := hstored ▸ List.mem_cons_self
    refine ⟨system, system', stored, hexec, hmem, hid ▸ hstep, fun hdetermined => ?_⟩
    have hfalse := ((closers_agree_iff (Sample.reachable_of_installation hexec) hmem).2.2
      "operator" "stopped" hreconciling (hid ▸ hstep)).mp hdetermined
    rw [hid, hrequested] at hfalse
    exact of_decide_eq_false hagrees hfalse

/-- A confirmed run whose units all succeeded is not a success. -/
theorem confirmed_run_no_success : ¬ ∀ system system' stored actor note,
    Reachable (orchestrator Sample.digests) system → stored ∈ system.database.runs →
    stored.status = .reconciling →
    system.step Sample.digests (.confirm stored.id actor note) = some system' →
    ∀ run ∈ system'.database.runs, run.id = stored.id →
      run.status =
        concludedStatus (system.database.resultsOf stored.id) stored.cancelRequested := by
  intro h
  obtain ⟨system, hexec, hfacts⟩ := Option.map_eq_some_iff.mp (show
    ((orchestrator Sample.digests).exec Sample.installation
        ([.reconcile] ++ Sample.launch 1 1 0 ++ Sample.conclude 0 (.success "started") 1 ++
          [.restart, .reconcile])).map
      (fun system => (system.database.runs.map fun run => (run.id, run.status, run.cancelRequested),
        concludedStatus (system.database.resultsOf 1) false,
        (system.step Sample.digests (.confirm 1 "operator" "stopped")).map fun system' =>
          system'.database.runs.map fun run => (run.id, run.status))) =
      some ([(1, .reconciling, false)], .success, some [(1, .partialFailed)]) from rfl)
  obtain ⟨hruns, hstatus, hconfirm⟩ : _ ∧ _ ∧ _ := by
    simpa only [Prod.mk.injEq] using hfacts
  obtain ⟨system', hstep, hruns'⟩ := Option.map_eq_some_iff.mp hconfirm
  obtain ⟨stored, rest, hstored, hrun, -⟩ := List.map_eq_cons_iff.mp hruns
  obtain ⟨run', rest', hstored', hrun', -⟩ := List.map_eq_cons_iff.mp hruns'
  obtain ⟨hid, hpair⟩ := Prod.mk.inj hrun
  obtain ⟨hreconciling, hrequested⟩ := Prod.mk.inj hpair
  obtain ⟨hid', hfailed⟩ := Prod.mk.inj hrun'
  have hsuccess := h system system' stored "operator" "stopped"
    (Sample.reachable_of_installation hexec) (hstored ▸ List.mem_cons_self) hreconciling
    (hid ▸ hstep) run' (hstored' ▸ List.mem_cons_self) (hid'.trans hid.symm)
  rw [hid, hrequested, hstatus, hfailed] at hsuccess
  cases hsuccess

end Steps

end EasyDeploy.Orchestrator
