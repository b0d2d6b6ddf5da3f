import EasyDeploy.Orchestrator.Lifecycle

/-!
# Consistent databases

How the results, the task, the phases and the steps of a run agree with its
status. Every transaction but the creation of a run touches the rows of one run
only, so that for each of them it is enough to look at this run.
-/

namespace EasyDeploy.Orchestrator
open Foundation Foundation.Transition

/-- The columns of a run that never change. -/
def DeploymentRun.identity (run : DeploymentRun) :
    Int × Int × Int × Except String DeploymentPlan :=
  (run.id, run.environmentId, run.taskId, run.planJson)

/-- The columns of a result that never change. -/
def UnitResult.identity (row : UnitResult) :
    Int × Int × Option Int × DeploymentAction × String :=
  (row.deploymentRunId, row.unitId, row.unitReleaseId, row.action, row.targetFingerprint)

theorem DeploymentRun.of_identity {run run' : DeploymentRun} (h : run.identity = run'.identity) :
    run.id = run'.id ∧ run.environmentId = run'.environmentId ∧ run.taskId = run'.taskId ∧
      run.planJson = run'.planJson := by
  simpa [identity] using h

theorem UnitResult.of_identity {row row' : UnitResult} (h : row.identity = row'.identity) :
    row.deploymentRunId = row'.deploymentRunId ∧ row.unitId = row'.unitId ∧
      row.unitReleaseId = row'.unitReleaseId ∧ row.action = row'.action ∧
      row.targetFingerprint = row'.targetFingerprint := by
  simpa [identity] using h

/-- Nothing of a run is open. -/
structure Closed (database : Database) (deploymentRunId taskId : Int) : Prop where
  results : ∀ row ∈ database.unitResults, row.deploymentRunId = deploymentRunId →
    row.status.isOpen = false
  task : ∀ task ∈ database.tasks, task.id = taskId → task.status.isOpen = false
  phases : ∀ phase ∈ database.phases, phase.taskId = taskId → phase.status.isOpen = false
  steps : ∀ step ∈ database.steps, step.taskId = taskId → step.status.isOpen = false

/-- A run that waits for its executor. -/
structure Waiting (database : Database) (deploymentRunId taskId : Int) : Prop where
  results : ∀ row ∈ database.unitResults, row.deploymentRunId = deploymentRunId →
    row.status ≠ .running
  task : ∀ task ∈ database.tasks, task.id = taskId → task.status = .queued
  steps : ∀ step ∈ database.steps, step.taskId = taskId → step.status.isOpen = false

/-- A run that is executed. -/
structure Working (database : Database) (taskId : Int) : Prop where
  task : ∀ task ∈ database.tasks, task.id = taskId → task.status = .running
  steps : ∀ step ∈ database.steps, step.taskId = taskId → step.status ≠ .pending

/-- The rows of a run agree with its status. -/
def Agrees (database : Database) (deploymentRunId taskId : Int) : RunStatus → Prop
  | .queued => Waiting database deploymentRunId taskId
  | .running => Working database taskId
  | _ => Closed database deploymentRunId taskId

/-- A run that has ended agrees with its rows when all of them are closed. -/
theorem agrees_iff_closed {database : Database} {deploymentRunId taskId : Int} {status : RunStatus}
    (h : status.isTerminal = true) :
    Agrees database deploymentRunId taskId status ↔ Closed database deploymentRunId taskId := by
  cases status with
  | queued | running | reconciling => cases h
  | success | partialFailed | allFailed | canceled => rfl

/-- The rows of other runs are the ones from before. -/
structure Untouched (before after : Database) (deploymentRunId taskId : Int) : Prop where
  otherRuns : ∀ run ∈ after.runs, run.id ≠ deploymentRunId → run ∈ before.runs
  resultsOf : ∀ otherId, otherId ≠ deploymentRunId →
    after.resultsOf otherId = before.resultsOf otherId
  otherTasks : ∀ task ∈ after.tasks, task.id ≠ taskId → task ∈ before.tasks
  otherPhases : ∀ phase ∈ after.phases, phase.taskId ≠ taskId → phase ∈ before.phases
  otherSteps : ∀ step ∈ after.steps, step.taskId ≠ taskId → step ∈ before.steps

/-- Moreover the rows keep their identities, and no result becomes pending. -/
structure Within (before after : Database) (deploymentRunId taskId : Int) : Prop
    extends Untouched before after deploymentRunId taskId where
  runs : after.runs.map (·.identity) = before.runs.map (·.identity)
  results : after.unitResults.map (·.identity) = before.unitResults.map (·.identity)
  pendingResults : ∀ row ∈ after.unitResults, row.status = .pending → row ∈ before.unitResults
  tasks : after.tasks.map (·.id) = before.tasks.map (·.id)
  phases : after.phases.map (·.taskId) = before.phases.map (·.taskId)

section Within

variable {before after : Database} {deploymentRunId taskId : Int}

theorem mem_resultsOf {database : Database} {row : UnitResult} :
    row ∈ database.resultsOf deploymentRunId ↔
      row ∈ database.unitResults ∧ row.deploymentRunId = deploymentRunId := by
  rw [Database.resultsOf, List.mem_filter, beq_iff_eq]

/-- The rows of other runs were there before. -/
theorem Untouched.otherResults (h : Untouched before after deploymentRunId taskId)
    {row : UnitResult} (hrow : row ∈ after.unitResults)
    (hne : row.deploymentRunId ≠ deploymentRunId) : row ∈ before.unitResults := by
  have hmem := mem_resultsOf.mpr ⟨hrow, rfl⟩
  rw [h.resultsOf _ hne] at hmem
  exact (mem_resultsOf.mp hmem).1

/-- A run after a transaction was there before, perhaps in another status. -/
theorem Within.exists_run (h : Within before after deploymentRunId taskId) {run : DeploymentRun}
    (hrun : run ∈ after.runs) : ∃ old ∈ before.runs, old.identity = run.identity := by
  have hmem : run.identity ∈ after.runs.map (·.identity) := List.mem_map_of_mem hrun
  rw [h.runs] at hmem
  exact List.mem_map.mp hmem

/-- A change within a run adds no row of results. -/
theorem Within.exists_result (h : Within before after deploymentRunId taskId) {row : UnitResult}
    (hrow : row ∈ after.unitResults) :
    ∃ old ∈ before.unitResults, old.identity = row.identity := by
  have hmem : row.identity ∈ after.unitResults.map (·.identity) := List.mem_map_of_mem hrow
  rw [h.results] at hmem
  exact List.mem_map.mp hmem

/-- Other runs agree with their status as before. -/
theorem Agrees.untouched (h : Untouched before after deploymentRunId taskId)
    {otherId otherTask : Int} {status : RunStatus} (hid : otherId ≠ deploymentRunId)
    (htask : otherTask ≠ taskId) (hagrees : Agrees before otherId otherTask status) :
    Agrees after otherId otherTask status := by
  have hresults {row : UnitResult} (hrow : row ∈ after.unitResults)
      (heq : row.deploymentRunId = otherId) : row ∈ before.unitResults :=
    h.otherResults hrow (heq ▸ hid)
  have htasks {task : OperationTask} (hmem : task ∈ after.tasks) (heq : task.id = otherTask) :
      task ∈ before.tasks := h.otherTasks task hmem (heq ▸ htask)
  have hphases {phase : TaskPhase} (hmem : phase ∈ after.phases)
      (heq : phase.taskId = otherTask) : phase ∈ before.phases :=
    h.otherPhases phase hmem (heq ▸ htask)
  have hsteps {step : TaskStep} (hmem : step ∈ after.steps) (heq : step.taskId = otherTask) :
      step ∈ before.steps := h.otherSteps step hmem (heq ▸ htask)
  have hclosed (hclosed : Closed before otherId otherTask) : Closed after otherId otherTask :=
    ⟨fun row hrow heq => hclosed.results row (hresults hrow heq) heq,
      fun task hmem heq => hclosed.task task (htasks hmem heq) heq,
      fun phase hmem heq => hclosed.phases phase (hphases hmem heq) heq,
      fun step hmem heq => hclosed.steps step (hsteps hmem heq) heq⟩
  cases status with
  | queued =>
      exact ⟨fun row hrow heq => hagrees.results row (hresults hrow heq) heq,
        fun task hmem heq => hagrees.task task (htasks hmem heq) heq,
        fun step hmem heq => hagrees.steps step (hsteps hmem heq) heq⟩
  | running =>
      exact ⟨fun task hmem heq => hagrees.task task (htasks hmem heq) heq,
        fun step hmem heq => hagrees.steps step (hsteps hmem heq) heq⟩
  | reconciling | success | partialFailed | allFailed | canceled => exact hclosed hagrees

end Within

/-- Runs have their own identifiers and tasks, and every row belongs to a run or a task. -/
structure WellFormed (database : Database) : Prop where
  runIds : Keyed database.runs (·.id)
  taskIds : Keyed database.runs (·.taskId)
  tasks : ∀ run ∈ database.runs, run.taskId ∈ database.tasks.map (·.id)
  results : ∀ row ∈ database.unitResults, row.deploymentRunId ∈ database.runs.map (·.id)
  phases : ∀ phase ∈ database.phases, phase.taskId ∈ database.tasks.map (·.id)
  steps : ∀ step ∈ database.steps, step.taskId ∈ database.tasks.map (·.id)

/-- The results of a run are those of the items of its plan. -/
def Planned (database : Database) (run : DeploymentRun) : Prop :=
  ∃ plan, run.planJson = .ok plan ∧ plan.environmentId = run.environmentId ∧
    (plan.items.map (·.unitId)).Nodup ∧
    ∀ row ∈ database.unitResults, row.deploymentRunId = run.id →
      ∃ item ∈ plan.items, row.identity = (newUnitResult run.id item).identity ∧
        (row.status = .pending → item.action ≠ .skip)

/-- The rows of a run agree with one another. -/
structure Consistent (database : Database) : Prop where
  wellFormed : WellFormed database
  agrees : ∀ run ∈ database.runs, Agrees database run.id run.taskId run.status
  planned : ∀ run ∈ database.runs, Planned database run

section Consistency

variable {before after : Database} {run : DeploymentRun}

/-- A change within a run leaves the identifiers as they are. -/
theorem WellFormed.within (hwell : WellFormed before) (hrun : run ∈ before.runs)
    (h : Within before after run.id run.taskId) : WellFormed after := by
  have hids : after.runs.map (·.id) = before.runs.map (·.id) := by
    simpa [Function.comp_def, DeploymentRun.identity] using congrArg (List.map (·.1)) h.runs
  have htaskIds : after.runs.map (·.taskId) = before.runs.map (·.taskId) := by
    simpa [Function.comp_def, DeploymentRun.identity] using congrArg (List.map (·.2.2.1)) h.runs
  refine ⟨?_, ?_, ?_, ?_, ?_, ?_⟩
  · rw [Keyed, hids]
    exact hwell.runIds
  · rw [Keyed, htaskIds]
    exact hwell.taskIds
  · intro other hother
    obtain ⟨old, hold, heq⟩ := h.exists_run hother
    rw [h.tasks, ← (DeploymentRun.of_identity heq).2.2.1]
    exact hwell.tasks old hold
  · intro row hrow
    obtain ⟨old, hold, heq⟩ := h.exists_result hrow
    rw [hids, ← (UnitResult.of_identity heq).1]
    exact hwell.results old hold
  · intro phase hphase
    have hmem : phase.taskId ∈ after.phases.map (·.taskId) := List.mem_map_of_mem hphase
    rw [h.phases] at hmem
    obtain ⟨old, hold, heq⟩ := List.mem_map.mp hmem
    rw [h.tasks, ← heq]
    exact hwell.phases old hold
  · intro step hstep
    rw [h.tasks]
    by_cases htask : step.taskId = run.taskId
    · rw [htask]
      exact hwell.tasks run hrun
    · exact hwell.steps step (h.otherSteps step hstep htask)

/-- A run keeps its plan through a change within some run. -/
theorem Planned.within {deploymentRunId taskId : Int} {run' : DeploymentRun}
    (hplanned : Planned before run) (h : Within before after deploymentRunId taskId)
    (hidentity : run.identity = run'.identity) : Planned after run' := by
  obtain ⟨plan, hplan, henvironment, hnodup, hresults⟩ := hplanned
  obtain ⟨hid, hsame, -, hjson⟩ := DeploymentRun.of_identity hidentity
  refine ⟨plan, hjson.symm.trans hplan, henvironment.trans hsame, hnodup, ?_⟩
  intro row hrow heq
  by_cases hpending : row.status = .pending
  · rw [← hid] at heq ⊢
    exact hresults row (h.pendingResults row hrow hpending) heq
  · obtain ⟨old, hold, hsame⟩ := h.exists_result hrow
    rw [← hid] at heq ⊢
    obtain ⟨item, hitem, hrow, -⟩ :=
      hresults old hold ((UnitResult.of_identity hsame).1.trans heq)
    exact ⟨item, hitem, hsame.symm.trans hrow, fun h => absurd h hpending⟩

/-- A transaction of one run keeps the database consistent when this run agrees with its status
afterwards. -/
theorem Consistent.within (hbefore : Consistent before) (hrun : run ∈ before.runs)
    (h : Within before after run.id run.taskId)
    (hagrees : ∀ run' ∈ after.runs, run'.id = run.id → Agrees after run.id run.taskId run'.status) :
    Consistent after := by
  refine ⟨hbefore.wellFormed.within hrun h, ?_, ?_⟩
  · intro run' hrun'
    obtain ⟨old, hold, heq⟩ := h.exists_run hrun'
    by_cases hid : run'.id = run.id
    · obtain ⟨hsameId, -, htask, -⟩ := DeploymentRun.of_identity heq
      obtain rfl : old = run := hbefore.wellFormed.runIds.eq hold hrun (hsameId.trans hid)
      rw [hid, ← htask]
      exact hagrees run' hrun' hid
    · have hmem := h.otherRuns run' hrun' hid
      refine (hbefore.agrees run' hmem).untouched h.toUntouched hid fun htask => hid ?_
      exact congrArg _ (hbefore.wellFormed.taskIds.eq hmem hrun htask)
  · intro run' hrun'
    obtain ⟨old, hold, heq⟩ := h.exists_run hrun'
    exact (hbefore.planned old hold).within h heq

end Consistency

section Transactions

variable {database : Database} {run : DeploymentRun}

/-- To change nothing is a change within any run. -/
theorem Within.refl (database : Database) (deploymentRunId taskId : Int) :
    Within database database deploymentRunId taskId :=
  { runs := rfl, otherRuns := fun _ h _ => h, results := rfl, resultsOf := fun _ _ => rfl
    pendingResults := fun _ h _ => h, tasks := rfl, otherTasks := fun _ h _ => h, phases := rfl
    otherPhases := fun _ h _ => h, otherSteps := fun _ h _ => h }

/-- A claim is a change within its run. -/
theorem within_recordClaim :
    Within database (database.recordClaim run) run.id run.taskId :=
  { Within.refl database run.id run.taskId with
    runs := map_updateAt fun _ => rfl
    otherRuns := fun _ h => mem_of_updateAt h fun _ => rfl
    tasks := map_updateAt fun _ => rfl
    otherTasks := fun _ h => mem_of_updateAt h fun _ => rfl }

/-- The claim of a queued run leaves the tables consistent. -/
theorem Consistent.recordClaim (h : Consistent database) (hrun : run ∈ database.runs)
    (hqueued : run.status = .queued) : Consistent (database.recordClaim run) := by
  have hagrees := h.agrees run hrun
  rw [hqueued] at hagrees
  refine h.within hrun within_recordClaim fun run' hrun' hid => ?_
  have hstatus : run'.status = .running := by
    rw [h.wellFormed.runIds.eq_of_mem_updateAt hrun hrun' (fun _ => rfl) hid]
    simp [hqueued]
  rw [hstatus]
  refine ⟨forall_updateAt (fun _ _ _ _ _ => rfl) fun task htask hother heq => ?_, ?_⟩
  · have hguard := hother heq
    rw [hagrees.task task htask heq] at hguard
    cases hguard
  · intro step hstep heq hpending
    have hclosed := hagrees.steps step hstep heq
    rw [hpending] at hclosed
    cases hclosed

/-- A run agrees with a status that it keeps when only closed rows appear. -/
theorem Agrees.shrink {before after : Database} {deploymentRunId taskId : Int}
    {status : RunStatus} (hagrees : Agrees before deploymentRunId taskId status)
    (hresults : ∀ row ∈ after.unitResults, row.status.isOpen = true → row ∈ before.unitResults)
    (htasks : ∀ task ∈ after.tasks, ∃ old ∈ before.tasks, old.id = task.id ∧
      old.status = task.status)
    (hphases : after.phases = before.phases)
    (hsteps : ∀ step ∈ after.steps, step.status.isOpen = true → step ∈ before.steps) :
    Agrees after deploymentRunId taskId status := by
  have hclosed (hclosed : Closed before deploymentRunId taskId) :
      Closed after deploymentRunId taskId := by
    refine ⟨fun row hrow heq => ?_, fun task htask heq => ?_, fun phase hphase heq => ?_,
      fun step hstep heq => ?_⟩
    · exact Bool.eq_false_iff.mpr fun hopen => by
        simpa [hopen] using hclosed.results row (hresults row hrow hopen) heq
    · obtain ⟨old, hold, hid, hstatus⟩ := htasks task htask
      exact hstatus ▸ hclosed.task old hold (hid.trans heq)
    · exact hclosed.phases phase (hphases ▸ hphase) heq
    · exact Bool.eq_false_iff.mpr fun hopen => by
        simpa [hopen] using hclosed.steps step (hsteps step hstep hopen) heq
  cases status with
  | queued =>
      refine ⟨fun row hrow heq hrunning => ?_, fun task htask heq => ?_, fun step hstep heq => ?_⟩
      · exact hagrees.results row (hresults row hrow (by rw [hrunning]; rfl)) heq hrunning
      · obtain ⟨old, hold, hid, hstatus⟩ := htasks task htask
        exact hstatus ▸ hagrees.task old hold (hid.trans heq)
      · exact Bool.eq_false_iff.mpr fun hopen => by
          simpa [hopen] using hagrees.steps step (hsteps step hstep hopen) heq
  | running =>
      refine ⟨fun task htask heq => ?_, fun step hstep heq hpending => ?_⟩
      · obtain ⟨old, hold, hid, hstatus⟩ := htasks task htask
        exact hstatus ▸ hagrees.task old hold (hid.trans heq)
      · exact hagrees.steps step (hsteps step hstep (by rw [hpending]; rfl)) heq hpending
  | reconciling | success | partialFailed | allFailed | canceled => exact hclosed hagrees

/-- The start of an item is a change within its run. -/
theorem within_recordStart {deploymentRunId taskId : Int} {item : DeploymentPlanItem} :
    Within database (database.recordStart deploymentRunId taskId item) deploymentRunId taskId :=
  { Within.refl database deploymentRunId taskId with
    results := map_updateAt fun _ => rfl
    resultsOf := fun _ hne => filter_updateAt (fun _ => rfl) fun _ hrow heq =>
      hne ((beq_iff_eq.mp hrow).symm.trans (Prod.mk.inj heq).1)
    pendingResults := fun _ h => mem_of_updateAt_of_not (P := fun row => row.status = .pending) h
      fun _ _ hpending => by cases hpending
    otherSteps := fun _ h hne => (List.mem_append.mp h).resolve_right fun hnew =>
      hne (List.mem_singleton.mp hnew ▸ rfl) }

/-- The start of an item of a running run leaves the tables consistent. -/
theorem Consistent.recordStart (h : Consistent database) (hrun : run ∈ database.runs)
    (hrunning : run.status = .running) {item : DeploymentPlanItem} :
    Consistent (database.recordStart run.id run.taskId item) := by
  have hagrees := h.agrees run hrun
  rw [hrunning] at hagrees
  refine h.within hrun within_recordStart fun run' hrun' hid => ?_
  rw [h.wellFormed.runIds.eq hrun' hrun hid, hrunning]
  refine ⟨hagrees.task, fun step hstep heq => ?_⟩
  rcases List.mem_append.mp hstep with hold | hnew
  · exact hagrees.steps step hold heq
  · rw [List.mem_singleton.mp hnew]
    exact fun hpending => by cases hpending

/-- An outcome closes the row of its unit. -/
theorem UnitExecutionOutcome.resultStatus_isOpen (outcome : UnitExecutionOutcome) :
    outcome.resultStatus.isOpen = false := by
  cases outcome <;> rfl

/-- An outcome closes its step. -/
theorem UnitExecutionOutcome.stepStatus_isOpen (outcome : UnitExecutionOutcome) :
    outcome.stepStatus.isOpen = false := by
  cases outcome <;> rfl

section Outcome

variable {deploymentRunId taskId stepId environmentId : Int} {targetNodeIds : List Int}
  {item : DeploymentPlanItem} {outcome : UnitExecutionOutcome}

/-- Open results after an outcome were there before. -/
theorem mem_results_of_persist {row : UnitResult}
    (h : row ∈ (database.persistUnitOutcome deploymentRunId taskId stepId environmentId
      targetNodeIds item outcome).unitResults) (hopen : row.status.isOpen = true) :
    row ∈ database.unitResults :=
  mem_of_updateAt_of_not (P := fun row : UnitResult => row.status.isOpen = true) h
    (fun _ _ hopen => by simp [outcome.resultStatus_isOpen] at hopen) hopen

/-- A step that is open after an outcome was there before. -/
theorem mem_steps_of_persist {step : TaskStep}
    (h : step ∈ (database.persistUnitOutcome deploymentRunId taskId stepId environmentId
      targetNodeIds item outcome).steps) (hopen : step.status.isOpen = true) :
    step ∈ database.steps :=
  mem_of_updateAt_of_not (P := fun step : TaskStep => step.status.isOpen = true) h
    (fun _ _ hopen => by simp [outcome.stepStatus_isOpen] at hopen) hopen

/-- An outcome is a change within its run. -/
theorem within_persistUnitOutcome : Within database
    (database.persistUnitOutcome deploymentRunId taskId stepId environmentId targetNodeIds item
      outcome) deploymentRunId taskId :=
  { Within.refl database deploymentRunId taskId with
    results := map_updateAt fun _ => rfl
    resultsOf := fun _ hne => filter_updateAt (fun _ => rfl) fun _ hrow heq =>
      hne ((beq_iff_eq.mp hrow).symm.trans (Prod.mk.inj heq).1)
    pendingResults := fun _ h hpending => mem_results_of_persist h (by rw [hpending]; rfl)
    otherSteps := fun _ h hne =>
      mem_of_updateAt h (fun _ => rfl) fun heq => hne (Prod.mk.inj heq).2 }

/-- An outcome leaves the tables consistent. -/
theorem Consistent.persistUnitOutcome (h : Consistent database) (hrun : run ∈ database.runs) :
    Consistent (database.persistUnitOutcome run.id run.taskId stepId environmentId targetNodeIds
      item outcome) := by
  refine h.within hrun within_persistUnitOutcome fun run' hrun' hid => ?_
  rw [h.wellFormed.runIds.eq hrun' hrun hid]
  exact (h.agrees run hrun).shrink (fun _ => mem_results_of_persist)
    (fun task htask => ⟨task, htask, rfl, rfl⟩) rfl fun _ => mem_steps_of_persist

end Outcome

/-- Closing the pending results opens none. -/
theorem mem_results_of_close {deploymentRunId : Int} {canceled : Bool} {row : UnitResult}
    (h : row ∈ (database.closePendingResults deploymentRunId canceled).unitResults)
    (hopen : row.status.isOpen = true) : row ∈ database.unitResults := by
  refine mem_of_updateAt_of_not (P := fun row : UnitResult => row.status.isOpen = true) h
    (fun row _ hopen => ?_) hopen
  cases canceled <;> cases hopen

/-- To close what has not started is a change within the run. -/
theorem within_closePendingResults {deploymentRunId taskId : Int} {canceled : Bool} :
    Within database (database.closePendingResults deploymentRunId canceled) deploymentRunId
      taskId :=
  { Within.refl database deploymentRunId taskId with
    results := map_updateAt fun _ => by cases canceled <;> rfl
    resultsOf := fun _ hne => filter_updateAt (fun _ => by cases canceled <;> rfl)
      fun _ hrow heq => hne ((beq_iff_eq.mp hrow).symm.trans heq)
    pendingResults := fun _ h hpending => mem_results_of_close h (by rw [hpending]; rfl) }

/-- To close what has not started leaves the tables consistent. -/
theorem Consistent.closePendingResults (h : Consistent database) (hrun : run ∈ database.runs)
    {canceled : Bool} : Consistent (database.closePendingResults run.id canceled) := by
  refine h.within hrun within_closePendingResults fun run' hrun' hid => ?_
  rw [h.wellFormed.runIds.eq hrun' hrun hid]
  exact (h.agrees run hrun).shrink (fun _ => mem_results_of_close)
    (fun task htask => ⟨task, htask, rfl, rfl⟩) rfl fun _ hstep _ => hstep

/-- What every other update of results closes. -/
theorem pending_of_updateAt {α : Type} [DecidableEq α] {key : UnitResult → α} {target : α}
    {guard : UnitResult → Bool} {change : UnitResult → UnitResult} {row : UnitResult}
    (h : row ∈ updateAt database.unitResults key target guard change)
    (hchange : ∀ row, (change row).status.isOpen = false) (hpending : row.status = .pending) :
    row ∈ database.unitResults :=
  mem_of_updateAt_of_not (P := fun row : UnitResult => row.status = .pending) h
    (fun row _ heq => by simpa [heq, UnitStatus.isOpen] using hchange row) hpending

/-- An interrupted row is closed. -/
theorem UnitResult.interrupted_isOpen (failureKind unknownSummary notStartedSummary : String)
    (row : UnitResult) :
    (row.interrupted failureKind unknownSummary notStartedSummary).status.isOpen = false := by
  unfold UnitResult.interrupted
  dsimp only
  split <;> rfl

/-- An interrupted phase is closed. -/
theorem TaskPhase.interrupted_isOpen (phase : TaskPhase) :
    phase.interrupted.status.isOpen = false := by
  unfold TaskPhase.interrupted
  dsimp only
  split <;> rfl

section Final

variable {plan : DeploymentPlan} {canceled : Bool} {counts : ResultCounts}

/-- The task of a run that ends is closed. -/
theorem finalTaskStatus_isOpen (status : RunStatus) (canceled : Bool) :
    (finalTaskStatus status canceled).isOpen = false := by
  cases status <;> cases canceled <;> rfl

/-- The phases of a run that ends are closed. -/
theorem finalPhaseStatus_isOpen (stageResults : List UnitResult) :
    (finalPhaseStatus stageResults).isOpen = false := by
  unfold finalPhaseStatus
  split
  · rfl
  · split <;> rfl

/-- The final status is recorded for the task of the run. -/
theorem recordFinalStatus_task (h : WellFormed database) (hrun : run ∈ database.runs) :
    (database.runs.find? fun stored => stored.id == run.id).map (·.taskId) = some run.taskId := by
  cases hfind : database.runs.find? fun stored => stored.id == run.id with
  | none =>
      have hnone := List.find?_eq_none.mp hfind run hrun
      exact absurd (beq_self_eq_true run.id) hnone
  | some stored =>
      have hid := List.find?_some hfind
      rw [beq_iff_eq] at hid
      rw [h.runIds.eq (List.mem_of_find?_eq_some hfind) hrun hid]
      rfl

/-- The end of a run is a change within it. -/
theorem within_recordFinalStatus (h : WellFormed database) (hrun : run ∈ database.runs) :
    Within database (database.recordFinalStatus run.id plan canceled counts) run.id run.taskId := by
  have htask := recordFinalStatus_task h hrun
  exact { Within.refl database run.id run.taskId with
    runs := map_updateAt fun _ => rfl
    otherRuns := fun _ h => mem_of_updateAt h fun _ => rfl
    tasks := map_updateAt fun _ => rfl
    otherTasks := fun _ h hne => mem_of_updateAt h (fun _ => rfl) fun heq =>
      hne (Option.some.inj (heq.trans htask))
    phases := map_updateAt fun _ => rfl
    otherPhases := fun _ h hne => mem_of_updateAt h (fun _ => rfl) fun heq =>
      hne (Option.some.inj (heq.trans htask)) }

/-- A run that is running or over is closed by its final status, when its results and steps
are. -/
theorem Consistent.recordFinalStatus (h : Consistent database) (hrun : run ∈ database.runs)
    (hstatus : run.status = .running ∨ run.status.isTerminal = true)
    (hresults : ∀ row ∈ database.unitResults, row.deploymentRunId = run.id →
      row.status.isOpen = false)
    (hsteps : ∀ step ∈ database.steps, step.taskId = run.taskId → step.status.isOpen = false) :
    Consistent (database.recordFinalStatus run.id plan canceled counts) := by
  have htask := recordFinalStatus_task h.wellFormed hrun
  refine h.within hrun (within_recordFinalStatus h.wellFormed hrun) fun run' hrun' hid => ?_
  have hterminal : run'.status.isTerminal = true := by
    rw [h.wellFormed.runIds.eq_of_mem_updateAt hrun hrun' (fun _ => rfl) hid]
    rcases hstatus with hrunning | hterminal
    · simpa [hrunning] using finalStatus_isTerminal counts canceled
    · split
      · exact finalStatus_isTerminal counts canceled
      · exact hterminal
  refine (agrees_iff_closed hterminal).mpr ⟨hresults, fun task hmem heq => ?_,
    fun phase hmem heq => ?_, hsteps⟩
  · exact closed_of_updateAt (p := fun task : OperationTask => task.status.isOpen) hmem
      (fun _ _ => finalTaskStatus_isOpen _ _) (fun _ _ _ _ => rfl) (by rw [htask, heq])
  · exact closed_of_updateAt (p := fun phase : TaskPhase => phase.status.isOpen) hmem
      (fun _ _ => finalPhaseStatus_isOpen _) (fun _ _ _ _ => rfl) (by rw [htask, heq])

end Final

/-- The open results of a waiting run are pending. -/
theorem Waiting.pending {deploymentRunId taskId : Int}
    (h : Waiting database deploymentRunId taskId) {row : UnitResult}
    (hrow : row ∈ database.unitResults) (heq : row.deploymentRunId = deploymentRunId)
    (hopen : row.status.isOpen = true) : (row.status == .pending) = true := by
  have hrunning := h.results row hrow heq
  cases hstatus : row.status <;> simp_all [UnitStatus.isOpen]

/-- The cancellation of a queued run is a change within it. -/
theorem within_cancelQueued {actor : String} :
    Within database (database.cancelQueued run actor) run.id run.taskId :=
  { Within.refl database run.id run.taskId with
    runs := (map_updateAt fun _ => by rfl).trans (map_updateAt fun _ => by rfl)
    otherRuns := fun _ h hne =>
      mem_of_updateAt (mem_of_updateAt h (fun _ => rfl) hne) (fun _ => rfl) hne
    results := map_updateAt fun _ => rfl
    resultsOf := fun _ hne => filter_updateAt (fun _ => rfl)
      fun _ hrow heq => hne ((beq_iff_eq.mp hrow).symm.trans heq)
    pendingResults := fun _ h => pending_of_updateAt h fun _ => rfl
    tasks := map_updateAt fun _ => rfl
    otherTasks := fun _ h => mem_of_updateAt h fun _ => rfl
    phases := map_updateAt fun _ => rfl
    otherPhases := fun _ h => mem_of_updateAt h fun _ => rfl }

/-- The cancellation of a queued run leaves the tables consistent. -/
theorem Consistent.cancelQueued (h : Consistent database) (hrun : run ∈ database.runs)
    (hqueued : run.status = .queued) {actor : String} :
    Consistent (database.cancelQueued run actor) := by
  have hwaiting := h.agrees run hrun
  rw [hqueued] at hwaiting
  refine h.within hrun within_cancelQueued fun run' hrun' hid => ?_
  have hstatus : run'.status = .canceled := by
    obtain ⟨requested, hrequested, heq⟩ := mem_updateAt.mp hrun'
    have hsame : requested.id = run.id := by
      rw [← hid, ← heq]
      split <;> rfl
    have hold := h.wellFormed.runIds.eq_of_mem_updateAt hrun hrequested (fun _ => rfl) hsame
    have hold : requested.status = .queued := by
      rw [hold]
      split <;> exact hqueued
    rw [← heq]
    simp [hsame, hold]
  rw [hstatus]
  refine ⟨fun row hrow heq => ?_, fun task hmem heq => ?_, fun phase hmem heq => ?_,
    hwaiting.steps⟩
  · exact closed_of_updateAt (p := fun row : UnitResult => row.status.isOpen) hrow
      (fun _ _ => rfl) (fun _ => hwaiting.pending) heq
  · exact closed_of_updateAt (p := fun task : OperationTask => task.status.isOpen) hmem
      (fun _ _ => rfl) (fun task htask heq _ => beq_iff_eq.mpr (hwaiting.task task htask heq)) heq
  · exact closed_of_updateAt (p := fun phase : TaskPhase => phase.status.isOpen) hmem
      (fun _ _ => rfl) (fun _ _ _ hopen => hopen) heq

/-- The cancellation of a running run is a change within it. -/
theorem within_cancelRunning {actor : String} :
    Within database (database.cancelRunning run actor) run.id run.taskId :=
  { Within.refl database run.id run.taskId with
    runs := map_updateAt fun _ => rfl
    otherRuns := fun _ h => mem_of_updateAt h fun _ => rfl
    tasks := map_updateAt fun _ => rfl
    otherTasks := fun _ h => mem_of_updateAt h fun _ => rfl }

/-- A request to cancel a running run leaves the tables consistent. -/
theorem Consistent.cancelRunning (h : Consistent database) (hrun : run ∈ database.runs)
    {actor : String} : Consistent (database.cancelRunning run actor) := by
  refine h.within hrun within_cancelRunning fun run' hrun' hid => ?_
  have hstatus : run'.status = run.status := by
    rw [h.wellFormed.runIds.eq_of_mem_updateAt hrun hrun' (fun _ => rfl) hid]
    split <;> rfl
  rw [hstatus]
  refine (h.agrees run hrun).shrink (fun _ hrow _ => hrow) (fun task htask => ?_) rfl
    fun _ hstep _ => hstep
  obtain ⟨old, hold, rfl⟩ := mem_updateAt.mp htask
  refine ⟨old, hold, ?_⟩
  split <;> exact ⟨rfl, rfl⟩

/-- The cancellation of a run that a restart finds queued is a change within it. -/
theorem within_cancelInterrupted :
    Within database (database.cancelInterrupted run) run.id run.taskId :=
  { Within.refl database run.id run.taskId with
    runs := map_updateAt fun _ => rfl
    otherRuns := fun _ h => mem_of_updateAt h fun _ => rfl
    results := map_updateAt fun _ => rfl
    resultsOf := fun _ hne => filter_updateAt (fun _ => rfl)
      fun _ hrow heq => hne ((beq_iff_eq.mp hrow).symm.trans heq)
    pendingResults := fun _ h => pending_of_updateAt h fun _ => rfl
    tasks := map_updateAt fun _ => rfl
    otherTasks := fun _ h => mem_of_updateAt h fun _ => rfl
    phases := map_updateAt fun _ => rfl
    otherPhases := fun _ h => mem_of_updateAt h fun _ => rfl }

/-- The cancellation of a run that a restart finds queued leaves the tables consistent. -/
theorem Consistent.cancelInterrupted (h : Consistent database) (hrun : run ∈ database.runs)
    (hqueued : run.status = .queued) : Consistent (database.cancelInterrupted run) := by
  have hwaiting := h.agrees run hrun
  rw [hqueued] at hwaiting
  refine h.within hrun within_cancelInterrupted fun run' hrun' hid => ?_
  have hstatus : run'.status = .canceled := by
    rw [h.wellFormed.runIds.eq_of_mem_updateAt hrun hrun' (fun _ => rfl) hid]
    simp [hqueued]
  rw [hstatus]
  refine ⟨fun row hrow heq => ?_, fun task hmem heq => ?_, fun phase hmem heq => ?_,
    hwaiting.steps⟩
  · exact closed_of_updateAt (p := fun row : UnitResult => row.status.isOpen) hrow
      (fun _ _ => rfl) (fun _ => hwaiting.pending) heq
  · exact closed_of_updateAt (p := fun task : OperationTask => task.status.isOpen) hmem
      (fun _ _ => rfl) (fun _ _ _ hopen => hopen) heq
  · exact closed_of_updateAt (p := fun phase : TaskPhase => phase.status.isOpen) hmem
      (fun _ _ => rfl) (fun _ _ _ hopen => hopen) heq

/-- An open step of a run that is not waiting is running. -/
theorem Working.running {taskId : Int} (h : Working database taskId) {step : TaskStep}
    (hstep : step ∈ database.steps) (heq : step.taskId = taskId)
    (hopen : step.status.isOpen = true) : (step.status == .running) = true := by
  have hpending := h.steps step hstep heq
  cases hstatus : step.status <;> simp_all [StepStatus.isOpen]

/-- To hold a run that a restart finds running is a change within it. -/
theorem within_holdInterrupted :
    Within database (database.holdInterrupted run) run.id run.taskId :=
  { Within.refl database run.id run.taskId with
    runs := map_updateAt fun _ => rfl
    otherRuns := fun _ h => mem_of_updateAt h fun _ => rfl
    results := map_updateAt fun _ => rfl
    resultsOf := fun _ hne => filter_updateAt (fun _ => rfl)
      fun _ hrow heq => hne ((beq_iff_eq.mp hrow).symm.trans heq)
    pendingResults := fun _ h => pending_of_updateAt h fun row => row.interrupted_isOpen _ _ _
    tasks := map_updateAt fun _ => rfl
    otherTasks := fun _ h => mem_of_updateAt h fun _ => rfl
    phases := map_updateAt fun _ => rfl
    otherPhases := fun _ h => mem_of_updateAt h fun _ => rfl
    otherSteps := fun _ h => mem_of_updateAt h fun _ => rfl }

/-- To hold a run that a restart finds running leaves the tables consistent. -/
theorem Consistent.holdInterrupted (h : Consistent database) (hrun : run ∈ database.runs)
    (hrunning : run.status = .running) : Consistent (database.holdInterrupted run) := by
  have hworking := h.agrees run hrun
  rw [hrunning] at hworking
  refine h.within hrun within_holdInterrupted fun run' hrun' hid => ?_
  have hstatus : run'.status = .reconciling := by
    rw [h.wellFormed.runIds.eq_of_mem_updateAt hrun hrun' (fun _ => rfl) hid]
    simp [hrunning]
  rw [hstatus]
  refine ⟨fun row hrow heq => ?_, fun task hmem heq => ?_, fun phase hmem heq => ?_,
    fun step hmem heq => ?_⟩
  · exact closed_of_updateAt (p := fun row : UnitResult => row.status.isOpen) hrow
      (fun row _ => row.interrupted_isOpen _ _ _) (fun _ _ _ hopen => hopen) heq
  · exact closed_of_updateAt (p := fun task : OperationTask => task.status.isOpen) hmem
      (fun _ _ => rfl) (fun task htask heq _ => beq_iff_eq.mpr (hworking.task task htask heq)) heq
  · exact closed_of_updateAt (p := fun phase : TaskPhase => phase.status.isOpen) hmem
      (fun phase _ => phase.interrupted_isOpen) (fun _ _ _ hopen => hopen) heq
  · exact closed_of_updateAt (p := fun step : TaskStep => step.status.isOpen) hmem
      (fun _ _ => rfl) (fun _ => hworking.running) heq

/-- The task of an aborted run is closed. -/
theorem abortedTaskStatus_isOpen (status : RunStatus) :
    (abortedTaskStatus status).isOpen = false := by
  unfold abortedTaskStatus
  split <;> rfl

/-- A confirmation is a change within its run. -/
theorem within_recordConfirmation {actor note : String} {counts : ResultCounts} :
    Within database (database.recordConfirmation run actor note counts) run.id run.taskId :=
  { Within.refl database run.id run.taskId with
    runs := map_updateAt fun _ => rfl
    otherRuns := fun _ h => mem_of_updateAt h fun _ => rfl
    tasks := map_updateAt fun _ => rfl
    otherTasks := fun _ h => mem_of_updateAt h fun _ => rfl }

/-- The confirmation that an interrupted run has stopped leaves the tables consistent. -/
theorem Consistent.recordConfirmation (h : Consistent database) (hrun : run ∈ database.runs)
    (hreconciling : run.status = .reconciling) {actor note : String} {counts : ResultCounts} :
    Consistent (database.recordConfirmation run actor note counts) := by
  have hclosed := h.agrees run hrun
  rw [hreconciling] at hclosed
  refine h.within hrun within_recordConfirmation fun run' hrun' hid => ?_
  have hterminal : run'.status.isTerminal = true := by
    rw [h.wellFormed.runIds.eq_of_mem_updateAt hrun hrun' (fun _ => rfl) hid]
    simpa [hreconciling] using abortedStatus_isTerminal counts
  refine (agrees_iff_closed hterminal).mpr ⟨hclosed.results, fun task hmem heq => ?_,
    hclosed.phases, hclosed.steps⟩
  exact closed_of_updateAt (p := fun task : OperationTask => task.status.isOpen) hmem
    (fun _ _ => abortedTaskStatus_isOpen _) (fun _ _ _ _ => rfl) heq

/-- An internal error is a change within its run. -/
theorem within_recordInternalError {summary : String} {counts : ResultCounts} :
    Within database (database.recordInternalError run summary counts) run.id run.taskId :=
  { Within.refl database run.id run.taskId with
    runs := map_updateAt fun _ => rfl
    otherRuns := fun _ h => mem_of_updateAt h fun _ => rfl
    results := map_updateAt fun _ => rfl
    resultsOf := fun _ hne => filter_updateAt (fun _ => rfl)
      fun _ hrow heq => hne ((beq_iff_eq.mp hrow).symm.trans heq)
    pendingResults := fun _ h => pending_of_updateAt h fun row => row.interrupted_isOpen _ _ _
    tasks := map_updateAt fun _ => rfl
    otherTasks := fun _ h => mem_of_updateAt h fun _ => rfl
    phases := map_updateAt fun _ => rfl
    otherPhases := fun _ h => mem_of_updateAt h fun _ => rfl
    otherSteps := fun _ h => mem_of_updateAt h fun _ => rfl }

/-- An internal error of an open run leaves the tables consistent. -/
theorem Consistent.recordInternalError (h : Consistent database) (hrun : run ∈ database.runs)
    (hstatus : run.status = .queued ∨ run.status = .running) {summary : String}
    {counts : ResultCounts} : Consistent (database.recordInternalError run summary counts) := by
  have hagrees := h.agrees run hrun
  have hrunningSteps : ∀ step ∈ database.steps, step.taskId = run.taskId →
      step.status.isOpen = true → (step.status == .running) = true := by
    intro step hstep heq hopen
    rcases hstatus with hqueued | hrunning
    · rw [hqueued] at hagrees
      rw [hagrees.steps step hstep heq] at hopen
      cases hopen
    · rw [hrunning] at hagrees
      exact hagrees.running hstep heq hopen
  refine h.within hrun within_recordInternalError fun run' hrun' hid => ?_
  have hterminal : run'.status.isTerminal = true := by
    rw [h.wellFormed.runIds.eq_of_mem_updateAt hrun hrun' (fun _ => rfl) hid]
    rcases hstatus with hstatus | hstatus <;>
      simpa [hstatus] using abortedStatus_isTerminal counts
  refine (agrees_iff_closed hterminal).mpr ⟨fun row hrow heq => ?_, fun task hmem heq => ?_,
    fun phase hmem heq => ?_, fun step hmem heq => ?_⟩
  · exact closed_of_updateAt (p := fun row : UnitResult => row.status.isOpen) hrow
      (fun row _ => row.interrupted_isOpen _ _ _) (fun _ _ _ hopen => hopen) heq
  · exact closed_of_updateAt (p := fun task : OperationTask => task.status.isOpen) hmem
      (fun _ _ => abortedTaskStatus_isOpen _) (fun _ _ _ hopen => hopen) heq
  · exact closed_of_updateAt (p := fun phase : TaskPhase => phase.status.isOpen) hmem
      (fun phase _ => phase.interrupted_isOpen) (fun _ _ _ hopen => hopen) heq
  · exact closed_of_updateAt (p := fun step : TaskStep => step.status.isOpen) hmem
      (fun _ _ => rfl) hrunningSteps heq

/-- What a transaction keeps that treats one run of a status holds after all runs of this status
were treated. -/
theorem foldl_runsIn {P : Database → Prop} {status : RunStatus}
    {transaction : Database → DeploymentRun → Database}
    (hstep : ∀ database run, P database → run ∈ database.runs → run.status = status →
      P (transaction database run))
    (hkeep : ∀ database run other, other ∈ database.runs → other.id ≠ run.id →
      other ∈ (transaction database run).runs)
    (hkeyed : Keyed database.runs (·.id)) (h : P database) :
    P ((database.runsIn status).foldl transaction database) := by
  have hfold (runs : List DeploymentRun) : ∀ database : Database, P database →
      (runs.map (·.id)).Nodup → (∀ run ∈ runs, run ∈ database.runs ∧ run.status = status) →
      P (runs.foldl transaction database) := by
    induction runs with
    | nil => exact fun _ h _ _ => h
    | cons run runs ih =>
        intro database h hnodup hruns
        rw [List.map_cons, List.nodup_cons] at hnodup
        obtain ⟨hrun, hstatus⟩ := hruns run List.mem_cons_self
        refine ih _ (hstep database run h hrun hstatus) hnodup.2 fun other hother => ?_
        obtain ⟨hmem, hsame⟩ := hruns other (List.mem_cons_of_mem _ hother)
        refine ⟨hkeep database run other hmem fun heq => hnodup.1 ?_, hsame⟩
        exact heq ▸ List.mem_map_of_mem hother
  refine hfold _ database h (hkeyed.sublist (List.filter_sublist.map _)) fun run hrun => ?_
  rw [Database.runsIn, List.mem_filter, beq_iff_eq] at hrun
  exact hrun

/-- A restart leaves the tables consistent. -/
theorem Consistent.reconcile (h : Consistent database) :
    Consistent database.reconcileInterruptedRuns.2 := by
  have hcanceled : Consistent ((database.runsIn .queued).foldl .cancelInterrupted database) :=
    foldl_runsIn (fun _ _ h hrun hqueued => h.cancelInterrupted hrun hqueued)
      (fun _ _ _ hother hne => mem_updateAt_of_ne hother hne) h.wellFormed.runIds h
  exact foldl_runsIn (fun _ _ h hrun hrunning => h.holdInterrupted hrun hrunning)
    (fun _ _ _ hother hne => mem_updateAt_of_ne hother hne) hcanceled.wellFormed.runIds hcanceled

section Creation

variable {input : CreateDeploymentRunInput} {plan : DeploymentPlan}

/-- The phases of a new run are those of its task. -/
theorem mem_newPhases {firstId taskId : Int} {items : List DeploymentPlanItem} {phase : TaskPhase}
    (h : phase ∈ newPhases firstId taskId items) : phase.taskId = taskId := by
  obtain ⟨index, hindex, rfl⟩ := List.mem_mapIdx.mp h
  rfl

/-- A new run touches no row of another one. -/
theorem untouched_insertRun : Untouched database (database.insertRun input plan).2
    (nextId (database.runs.map (·.id))) (nextId (database.tasks.map (·.id))) where
  otherRuns := fun _ h hne => (List.mem_append.mp h).resolve_right fun hnew =>
    hne (List.mem_singleton.mp hnew ▸ rfl)
  resultsOf := fun otherId hne => by
    have hnone : (plan.items.map (newUnitResult (nextId (database.runs.map (·.id))))).filter
        (fun row => row.deploymentRunId == otherId) = [] := by
      rw [List.filter_eq_nil_iff]
      intro row hnew
      obtain ⟨item, -, rfl⟩ := List.mem_map.mp hnew
      simpa [newUnitResult] using hne.symm
    rw [Database.resultsOf, Database.insertRun, List.filter_append, hnone, List.append_nil,
      Database.resultsOf]
  otherTasks := fun _ h hne => (List.mem_append.mp h).resolve_right fun hnew =>
    hne (List.mem_singleton.mp hnew ▸ rfl)
  otherPhases := fun _ h hne => (List.mem_append.mp h).resolve_right fun hnew =>
    hne (mem_newPhases hnew)
  otherSteps := fun _ h _ => h

/-- A new run gets identifiers that are not in use. -/
theorem WellFormed.insertRun (h : WellFormed database) :
    WellFormed (database.insertRun input plan).2 := by
  have htasks {id : Int} (hid : id ∈ database.tasks.map (·.id)) :
      id ∈ (database.insertRun input plan).2.tasks.map (·.id) := by
    rw [Database.insertRun, List.map_append]
    exact List.mem_append_left _ hid
  have hnewTask : nextId (database.tasks.map (·.id)) ∈
      (database.insertRun input plan).2.tasks.map (·.id) := by
    simp [Database.insertRun]
  refine ⟨h.runIds.append fun hmem => (lt_nextId hmem).ne rfl,
    h.taskIds.append fun hmem => ?_, fun run hrun => ?_, fun row hrow => ?_,
    fun phase hphase => ?_, fun step hstep => htasks (h.steps step hstep)⟩
  · obtain ⟨run, hrun, heq⟩ := List.mem_map.mp hmem
    exact (lt_nextId (h.tasks run hrun)).ne heq
  · rcases List.mem_append.mp hrun with hold | hnew
    · exact htasks (h.tasks run hold)
    · rw [List.mem_singleton.mp hnew]
      exact hnewTask
  · rw [Database.insertRun, List.map_append]
    rcases List.mem_append.mp hrow with hold | hnew
    · exact List.mem_append_left _ (h.results row hold)
    · obtain ⟨item, -, rfl⟩ := List.mem_map.mp hnew
      exact List.mem_append_right _ List.mem_cons_self
  · rcases List.mem_append.mp hphase with hold | hnew
    · exact htasks (h.phases phase hold)
    · rw [mem_newPhases hnew]
      exact hnewTask

/-- A new run is waiting. -/
theorem waiting_insertRun (h : WellFormed database) :
    Waiting (database.insertRun input plan).2 (nextId (database.runs.map (·.id)))
      (nextId (database.tasks.map (·.id))) := by
  refine ⟨fun row hrow heq hrunning => ?_, fun task htask heq => ?_, fun step hstep heq => ?_⟩
  · rcases List.mem_append.mp hrow with hold | hnew
    · exact (lt_nextId (h.results row hold)).ne heq
    · obtain ⟨item, -, rfl⟩ := List.mem_map.mp hnew
      unfold newUnitResult at hrunning
      dsimp only at hrunning
      split at hrunning <;> cases hrunning
  · rcases List.mem_append.mp htask with hold | hnew
    · exact absurd heq (lt_nextId (List.mem_map_of_mem hold)).ne
    · rw [List.mem_singleton.mp hnew]
  · exact absurd heq (lt_nextId (h.steps step hstep)).ne

/-- A run of a plan with distinct units leaves the tables consistent. -/
theorem Consistent.insertRun (h : Consistent database)
    (hnodup : (plan.items.map (·.unitId)).Nodup) :
    Consistent (database.insertRun input plan).2 := by
  refine ⟨h.wellFormed.insertRun, fun run hrun => ?_, fun run hrun => ?_⟩
  · rcases List.mem_append.mp hrun with hold | hnew
    · refine (h.agrees run hold).untouched untouched_insertRun ?_ ?_
      · exact (lt_nextId (List.mem_map_of_mem hold)).ne
      · exact (lt_nextId (h.wellFormed.tasks run hold)).ne
    · rw [List.mem_singleton.mp hnew]
      exact waiting_insertRun h.wellFormed
  · rcases List.mem_append.mp hrun with hold | hnew
    · obtain ⟨oldPlan, hplan, henvironment, hunits, hresults⟩ := h.planned run hold
      refine ⟨oldPlan, hplan, henvironment, hunits, fun row hrow heq => hresults row ?_ heq⟩
      refine untouched_insertRun.otherResults hrow ?_
      rw [heq]
      exact (lt_nextId (List.mem_map_of_mem hold)).ne
    · rw [List.mem_singleton.mp hnew]
      refine ⟨plan, rfl, rfl, hnodup, fun row hrow heq => ?_⟩
      rcases List.mem_append.mp hrow with hold | hnewRow
      · exact absurd heq (lt_nextId (h.wellFormed.results row hold)).ne
      · obtain ⟨item, hitem, rfl⟩ := List.mem_map.mp hnewRow
        refine ⟨item, hitem, rfl, fun hpending hskip => ?_⟩
        simp [newUnitResult, hskip] at hpending

end Creation

end Transactions

end EasyDeploy.Orchestrator
