import EasyDeploy.Orchestrator.Consistency
import EasyDeploy.Orchestrator.StageBarriers

/-!
# Closed runs

An execution knows at every stage which results and steps of its run may still
be open: the ones of the items that it did not start, and the ones of the units
in flight. Hence nothing is left open when it records the final status, and the
other ways to end a run close what they find.
-/

namespace EasyDeploy.Orchestrator
open Foundation Foundation.Transition

namespace Stage

/-- The items that are not started. -/
def unstarted : Stage → List DeploymentPlanItem
  | starting waves => waves.flatten
  | polling items waves | entering items waves => items ++ waves.flatten
  | looping wave waves | joining wave waves | persisting wave _ _ waves =>
      wave.pending ++ waves.flatten
  | filling wave item waves => item :: wave.pending ++ waves.flatten
  | closing _ | counting _ | finalizing _ _ | returned _ => []

/-- The units that are started and whose outcome is not stored. -/
def inFlight : Stage → List StartedUnit
  | looping wave _ | joining wave _ | filling wave _ _ => wave.running
  | persisting wave unit _ _ => unit :: wave.running
  | _ => []

/-- The execution ended with an error and left its rows as they are. -/
def abandoned : Stage → Bool
  | returned (.error _) => true
  | _ => false

/-- Results may be pending whether their items are started or not. -/
def leavesPending : Stage → Bool
  | closing _ => true
  | stage => stage.abandoned

end Stage

/-- The open rows of a run are those that its execution knows of. -/
structure Covers (database : Database) (deploymentRunId taskId : Int) (stage : Stage) : Prop where
  pending : ∀ row ∈ database.unitResults, row.deploymentRunId = deploymentRunId →
    row.status = .pending →
    stage.leavesPending = true ∨ ∃ item ∈ stage.unstarted, item.unitId = row.unitId
  running : ∀ row ∈ database.unitResults, row.deploymentRunId = deploymentRunId →
    row.status = .running →
    stage.abandoned = true ∨ ∃ unit ∈ stage.inFlight, unit.item.unitId = row.unitId
  steps : ∀ step ∈ database.steps, step.taskId = taskId → step.status.isOpen = true →
    stage.abandoned = true ∨ ∃ unit ∈ stage.inFlight, unit.stepId = step.id

/-- A stage after a wave knows of the rows of the wave. -/
structure Leads (wave : Wave) (waves : List (List DeploymentPlanItem)) (stage : Stage) : Prop where
  unstarted : ∀ item ∈ wave.pending ++ waves.flatten,
    stage.leavesPending = true ∨ item ∈ stage.unstarted
  inFlight : ∀ unit ∈ wave.running, unit ∈ stage.inFlight

section Leads

variable {wave : Wave} {waves : List (List DeploymentPlanItem)}

/-- An item is left pending or still to be started in the next wave. -/
theorem unstarted_nextWave {failed canceled : Bool} {item : DeploymentPlanItem}
    (hitem : failed = false → canceled = false → item ∈ waves.flatten) :
    (Stage.nextWave waves failed canceled).leavesPending = true ∨
      item ∈ (Stage.nextWave waves failed canceled).unstarted := by
  by_cases hflags : (failed || canceled) = true
  · left
    cases waves with
    | nil => simp only [Stage.nextWave, Stage.afterWaves, if_pos hflags, Stage.leavesPending]
    | cons items waves =>
        simp only [Stage.nextWave, Stage.afterWaves, if_pos hflags, Stage.leavesPending]
  · right
    have hmem := hitem (by simp_all) (by simp_all)
    cases waves with
    | nil => cases hmem
    | cons items waves =>
        simp only [Stage.nextWave, if_neg hflags, Stage.unstarted]
        exact hmem

/-- A wave that nothing runs of leads to the next one. -/
theorem leads_endWave (hrunning : wave.running = [])
    (hpending : wave.failureSeen = false → wave.cancellationSeen = false → wave.pending = []) :
    Leads wave waves (.endWave wave waves) := by
  refine ⟨fun item hitem => ?_, fun unit hunit => by simp [hrunning] at hunit⟩
  unfold Stage.endWave
  split
  · exact unstarted_nextWave fun _ hfalse => Bool.noConfusion hfalse
  · rename_i hcancellation
    split
    · exact unstarted_nextWave fun hfalse _ => Bool.noConfusion hfalse
    · rename_i hfailure
      rw [Bool.not_eq_true] at hcancellation hfailure
      rw [hpending hfailure hcancellation, List.nil_append] at hitem
      exact unstarted_nextWave fun _ _ => hitem

/-- A wave leads from the head of its loop to what is left of it. -/
theorem leads_loopWave : Leads wave waves (.loopWave wave waves) := by
  unfold Stage.loopWave
  split
  · rename_i hempty
    rw [Bool.and_eq_true, List.isEmpty_iff, List.isEmpty_iff] at hempty
    exact leads_endWave hempty.2 fun _ _ => hempty.1
  · exact ⟨fun item hitem => .inr hitem, fun unit hunit => hunit⟩

/-- A wave leads from a join to what is left of it. -/
theorem leads_joinWave
    (hpending : wave.running = [] → wave.failureSeen = false → wave.cancellationSeen = false →
      wave.pending = []) : Leads wave waves (.joinWave wave waves) := by
  unfold Stage.joinWave
  split
  · rename_i hempty
    rw [List.isEmpty_iff] at hempty
    exact leads_endWave hempty (hpending hempty)
  · exact ⟨fun item hitem => .inr hitem, fun unit hunit => hunit⟩

/-- A wave leads from its start of items to what is left of it. -/
theorem leads_fillWave {maxParallel : Nat} (hpos : 0 < maxParallel) :
    Leads wave waves (.fillWave maxParallel wave waves) := by
  unfold Stage.fillWave
  split
  · split
    · rename_i hnone
      exact leads_joinWave fun _ _ _ => hnone
    · rename_i item pending hsome
      refine ⟨fun other hother => .inr ?_, fun unit hunit => hunit⟩
      rw [hsome] at hother
      exact hother
  · rename_i hfull
    refine leads_joinWave fun hrunning hfailure hcancellation => absurd ?_ hfull
    simp [hrunning, hfailure, hcancellation, hpos]

/-- What is known of at a stage is known of at the next one. -/
structure Succeeds (stage stage' : Stage) : Prop where
  leavesPending : stage.leavesPending = true → stage'.leavesPending = true
  unstarted : ∀ item ∈ stage.unstarted, stage'.leavesPending = true ∨ item ∈ stage'.unstarted
  abandoned : stage.abandoned = true → stage'.abandoned = true
  inFlight : ∀ unit ∈ stage.inFlight, stage'.abandoned = true ∨ unit ∈ stage'.inFlight

theorem Leads.succeeds {stage stage' : Stage} (h : Leads wave waves stage')
    (hpending : stage.leavesPending = false) (habandoned : stage.abandoned = false)
    (hunstarted : stage.unstarted = wave.pending ++ waves.flatten)
    (hinFlight : stage.inFlight = wave.running) : Succeeds stage stage' := by
  refine ⟨fun hfalse => ?_, ?_, fun hfalse => ?_, fun unit hunit => .inr ?_⟩
  · rw [hpending] at hfalse
    cases hfalse
  · rw [hunstarted]
    exact h.unstarted
  · rw [habandoned] at hfalse
    cases hfalse
  · exact h.inFlight unit (hinFlight ▸ hunit)

/-- Between waves nothing is in flight. -/
theorem Succeeds.of_idle {stage stage' : Stage} (hpending : stage.leavesPending = false)
    (habandoned : stage.abandoned = false) (hinFlight : stage.inFlight = [])
    (hunstarted : ∀ item ∈ stage.unstarted,
      stage'.leavesPending = true ∨ item ∈ stage'.unstarted) : Succeeds stage stage' := by
  refine ⟨fun hfalse => ?_, hunstarted, fun hfalse => ?_, fun unit hunit => ?_⟩
  · rw [hpending] at hfalse
    cases hfalse
  · rw [habandoned] at hfalse
    cases hfalse
  · rw [hinFlight] at hunit
    cases hunit

section Observations

variable {maxParallel : Nat} {stage stage' : Stage}

/-- An error abandons an execution. -/
theorem succeeds_of_error {error : OrchestratorError}
    (h : stage.observe maxParallel (.error error) = some stage') : Succeeds stage stage' := by
  have hreturned : (if stage.mayFail then some (Stage.returned (.error error)) else none) =
      some stage' := by
    cases stage <;> exact h
  split at hreturned
  · obtain rfl := Option.some.inj hreturned
    exact ⟨fun _ => rfl, fun _ _ => .inl rfl, fun _ => rfl, fun _ _ => .inl rfl⟩
  · cases hreturned

/-- An execution goes on after a signal. -/
theorem succeeds_of_signal (hpos : 0 < maxParallel) {canceled : Bool}
    (h : stage.observe maxParallel (.signal canceled) = some stage') : Succeeds stage stage' := by
  cases stage with
  | starting waves =>
      obtain rfl := Option.some.inj h
      exact .of_idle rfl rfl rfl fun item hitem => unstarted_nextWave fun _ _ => hitem
  | entering items waves =>
      obtain rfl := Option.some.inj h
      exact leads_loopWave.succeeds rfl rfl rfl rfl
  | looping wave waves =>
      obtain rfl := Option.some.inj h
      exact (leads_fillWave hpos).succeeds rfl rfl rfl rfl
  | _ => cases h

/-- An execution goes on after it has asked for a cancellation. -/
theorem succeeds_of_requested {canceled : Bool}
    (h : stage.observe maxParallel (.requested canceled) = some stage') :
    Succeeds stage stage' := by
  cases stage with
  | polling items waves =>
      obtain rfl := Option.some.inj h
      refine .of_idle rfl rfl rfl fun item hitem => ?_
      cases canceled with
      | true => exact .inl rfl
      | false => exact .inr hitem
  | _ => cases h

/-- An execution goes on after an item has ended. -/
theorem succeeds_of_joined {index : Nat} {outcome : UnitExecutionOutcome}
    (h : stage.observe maxParallel (.joined index outcome) = some stage') :
    Succeeds stage stage' := by
  cases stage with
  | joining wave waves =>
      obtain ⟨unit, hunit, rfl⟩ := Option.map_eq_some_iff.mp h
      refine ⟨fun hfalse => Bool.noConfusion hfalse, fun item hitem => .inr ?_,
        fun hfalse => Bool.noConfusion hfalse, fun other hother => .inr ?_⟩
      · rw [Stage.unstarted, Wave.see_pending]
        exact hitem
      · obtain ⟨hindex, rfl⟩ := List.getElem?_eq_some_iff.mp hunit
        rw [Stage.inFlight, Wave.see_running]
        exact (List.getElem_cons_eraseIdx_perm hindex).mem_iff.mpr hother
  | _ => cases h

/-- An execution goes on after its rows have been counted. -/
theorem succeeds_of_counted {counts : ResultCounts}
    (h : stage.observe maxParallel (.counted counts) = some stage') : Succeeds stage stage' := by
  cases stage with
  | counting canceled =>
      obtain rfl := Option.some.inj h
      exact .of_idle rfl rfl rfl fun item hitem => absurd hitem List.not_mem_nil
  | _ => cases h

/-- Quiet observations lose nothing. -/
theorem succeeds_of_observe (hpos : 0 < maxParallel) {observation : Observation}
    (hquiet : observation.isQuiet = true)
    (h : stage.observe maxParallel observation = some stage') : Succeeds stage stage' := by
  cases observation with
  | error error => exact succeeds_of_error h
  | signal canceled => exact succeeds_of_signal hpos h
  | requested canceled => exact succeeds_of_requested h
  | joined index outcome => exact succeeds_of_joined h
  | counted counts => exact succeeds_of_counted h
  | started stepId => cases hquiet
  | persisted => cases hquiet
  | closed => cases hquiet
  | finalized outcome => cases hquiet

end Observations

/-- An execution that goes on covers the open rows. -/
theorem Covers.succeeds {database : Database} {deploymentRunId taskId : Int}
    {stage stage' : Stage} (h : Covers database deploymentRunId taskId stage)
    (hsucceeds : Succeeds stage stage') : Covers database deploymentRunId taskId stage' := by
  refine ⟨fun row hrow heq hpending => ?_, fun row hrow heq hrunning => ?_,
    fun step hstep heq hopen => ?_⟩
  · rcases h.pending row hrow heq hpending with hleaves | ⟨item, hitem, hunit⟩
    · exact .inl (hsucceeds.leavesPending hleaves)
    · exact (hsucceeds.unstarted item hitem).imp_right fun hitem => ⟨item, hitem, hunit⟩
  · rcases h.running row hrow heq hrunning with habandoned | ⟨unit, hunit, hsame⟩
    · exact .inl (hsucceeds.abandoned habandoned)
    · exact (hsucceeds.inFlight unit hunit).imp_right fun hunit => ⟨unit, hunit, hsame⟩
  · rcases h.steps step hstep heq hopen with habandoned | ⟨unit, hunit, hsame⟩
    · exact .inl (hsucceeds.abandoned habandoned)
    · exact (hsucceeds.inFlight unit hunit).imp_right fun hunit => ⟨unit, hunit, hsame⟩

end Leads

/-- An execution attends to a run: the run is over, or it is running and the execution knows of
its open rows. The stage is one that an execution of the plan reaches. -/
structure Attends (database : Database) (deploymentRunId : Int) (run : ExecutionRun)
    (plan : DeploymentPlan) (stage : Stage) (stored : DeploymentRun) : Prop where
  mem : stored ∈ database.runs
  id : stored.id = deploymentRunId
  task : stored.taskId = run.taskId
  environment : stored.environmentId = run.environmentId
  planned : stored.planJson = .ok plan
  reachable : ∃ log,
    Reachable ((executionOf plan run.maxParallelUnits).logged Stage.event) (log, stage)
  covers : stored.status.isTerminal = true ∨
    stored.status = .running ∧ Covers database stored.id stored.taskId stage

/-- The execution is past its claim. -/
def Execution.isExecuting (execution : Execution) : Bool :=
  match execution.progress with
  | .executing .. => true
  | _ => false

/-- The invariant of the orchestrator. -/
structure Sound (system : System) : Prop where
  consistent : Consistent system.database
  attended : ∀ (index : Nat) execution run plan stage,
    system.executions[index]? = some execution → execution.progress = .executing run plan stage →
    ∃ stored, Attends system.database execution.deploymentRunId run plan stage stored
  alone : ∀ (index other : Nat) execution execution', system.executions[index]? = some execution →
    system.executions[other]? = some execution' → execution.isExecuting = true →
    execution'.isExecuting = true → execution.deploymentRunId = execution'.deploymentRunId →
    index = other
  idle : system.serving = false → system.executions = []

section Frames

variable {before after : Database} {deploymentRunId taskId : Int} {run : ExecutionRun}
  {plan : DeploymentPlan} {stage : Stage} {stored : DeploymentRun}

theorem Covers.frame {id task : Int} (h : Covers before id task stage)
    (hresults : ∀ row ∈ after.unitResults, row.deploymentRunId = id →
      row.status.isOpen = true → row ∈ before.unitResults)
    (hsteps : ∀ step ∈ after.steps, step.taskId = task → step.status.isOpen = true →
      step ∈ before.steps) : Covers after id task stage := by
  refine ⟨fun row hrow heq hpending => ?_, fun row hrow heq hrunning => ?_,
    fun step hstep heq hopen => ?_⟩
  · exact h.pending row (hresults row hrow heq (by rw [hpending]; rfl)) heq hpending
  · exact h.running row (hresults row hrow heq (by rw [hrunning]; rfl)) heq hrunning
  · exact h.steps step (hsteps step hstep heq hopen) heq hopen

/-- An execution attends to its run as before when no row of the run changes. -/
theorem Attends.frame (h : Attends before deploymentRunId run plan stage stored)
    (hmem : stored ∈ after.runs)
    (hresults : ∀ row ∈ after.unitResults, row.deploymentRunId = stored.id →
      row ∈ before.unitResults)
    (hsteps : ∀ step ∈ after.steps, step.taskId = stored.taskId → step ∈ before.steps) :
    Attends after deploymentRunId run plan stage stored :=
  { h with
    mem := hmem
    covers := h.covers.imp_right (And.imp_right fun hcovers =>
      hcovers.frame (fun row hrow heq _ => hresults row hrow heq)
        fun step hstep heq _ => hsteps step hstep heq) }

/-- A run before a transaction is there afterwards, perhaps in another status. -/
theorem Within.exists_after {id task : Int} (h : Within before after id task)
    (hstored : stored ∈ before.runs) :
    ∃ stored' ∈ after.runs, stored'.identity = stored.identity := by
  have hmem : stored.identity ∈ before.runs.map (·.identity) := List.mem_map_of_mem hstored
  rw [← h.runs] at hmem
  exact List.mem_map.mp hmem

/-- A transaction of another run leaves the attended run alone. -/
theorem Attends.within (h : Attends before deploymentRunId run plan stage stored)
    (hwell : WellFormed before) {touched : DeploymentRun} (htouched : touched ∈ before.runs)
    (hwithin : Within before after touched.id touched.taskId) (hne : stored.id ≠ touched.id) :
    Attends after deploymentRunId run plan stage stored := by
  obtain ⟨stored', hstored', hidentity⟩ := hwithin.exists_after h.mem
  have hid := (DeploymentRun.of_identity hidentity).1
  have hold := hwithin.otherRuns stored' hstored' (hid ▸ hne)
  rw [hwell.runIds.eq hold h.mem hid] at hstored'
  refine h.frame hstored' (fun row hrow heq => hwithin.otherResults hrow (heq ▸ hne))
    fun step hstep heq => hwithin.otherSteps step hstep fun htask => hne ?_
  exact congrArg _ (hwell.taskIds.eq h.mem htouched (heq.symm.trans htask))

/-- Two runs with one identity and one status are the same for an execution. -/
theorem Attends.of_identity (h : Attends before deploymentRunId run plan stage stored)
    {stored' : DeploymentRun} {stage' : Stage} (hmem : stored' ∈ after.runs)
    (hidentity : stored'.identity = stored.identity)
    (hreachable : ∃ log,
      Reachable ((executionOf plan run.maxParallelUnits).logged Stage.event) (log, stage'))
    (hcovers : stored'.status.isTerminal = true ∨
      stored'.status = .running ∧ Covers after stored.id stored.taskId stage') :
    Attends after deploymentRunId run plan stage' stored' := by
  obtain ⟨hid, henvironment, htask, hplan⟩ := DeploymentRun.of_identity hidentity
  exact ⟨hmem, hid.trans h.id, htask.trans h.task, henvironment.trans h.environment,
    hplan.trans h.planned, hreachable, by rwa [hid, htask]⟩

/-- An accepted observation leads to a stage that an execution reaches. -/
theorem exists_reachable_of_observe {stage' : Stage}
    (h : ∃ log, Reachable ((executionOf plan run.maxParallelUnits).logged Stage.event)
      (log, stage)) (observation : Observation)
    (hobserve : stage.observe (parallelism run.maxParallelUnits) observation = some stage') :
    ∃ log, Reachable ((executionOf plan run.maxParallelUnits).logged Stage.event)
      (log, stage') := by
  obtain ⟨log, hreachable⟩ := h
  exact ⟨_, .next hreachable trivial (step_logged_eq_some.mpr ⟨hobserve, rfl⟩)⟩

end Frames

section Steps

variable {digests : Digests} {system system' : System} {action : Action} {index : Nat}
  {execution : Execution} {run : ExecutionRun} {plan : DeploymentPlan} {stage : Stage}

theorem getElem?_set_cases {α : Type} {items : List α} {index other : Nat} {item item' : α}
    (h : (items.set index item)[other]? = some item') :
    (other = index ∧ item' = item) ∨ (other ≠ index ∧ items[other]? = some item') := by
  rw [List.getElem?_set] at h
  split at h
  · rename_i heq
    split at h
    · exact .inl ⟨heq.symm, (Option.some.inj h).symm⟩
    · cases h
  · rename_i hne
    exact .inr ⟨fun heq => hne heq.symm, h⟩

/-- An execution takes a step on the rows of its run. -/
theorem Sound.advance (h : Sound system) (hindex : system.executions[index]? = some execution)
    (hexecuting : execution.progress = .executing run plan stage) {stored : DeploymentRun}
    (hattends : Attends system.database execution.deploymentRunId run plan stage stored)
    {database : Database} {stage' : Stage} {signal : Bool} (hconsistent : Consistent database)
    (hwithin : Within system.database database stored.id stored.taskId)
    (hreachable : ∃ log,
      Reachable ((executionOf plan run.maxParallelUnits).logged Stage.event) (log, stage'))
    (hcovers : ∀ stored' ∈ database.runs, stored'.identity = stored.identity →
      stored'.status.isTerminal = true ∨
        stored'.status = .running ∧ Covers database stored.id stored.taskId stage') :
    Sound { system with
      database
      executions := system.executions.set index
        { execution with signal, progress := .executing run plan stage' } } := by
  have hexecutes : execution.isExecuting = true := by
    rw [Execution.isExecuting, hexecuting]
  refine ⟨hconsistent, ?_, ?_, fun hserving => ?_⟩
  · intro other attending run' plan' other' hother hprogress
    rcases getElem?_set_cases hother with ⟨rfl, rfl⟩ | ⟨hne, hother⟩
    · obtain ⟨rfl, rfl, rfl⟩ := Progress.executing.inj hprogress
      obtain ⟨stored', hstored', hidentity⟩ := hwithin.exists_after hattends.mem
      exact ⟨stored', hattends.of_identity hstored' hidentity hreachable
        (hcovers stored' hstored' hidentity)⟩
    · obtain ⟨attended, hattended⟩ := h.attended other attending run' plan' other' hother hprogress
      refine ⟨attended, hattended.within h.consistent.wellFormed hattends.mem hwithin fun heq => ?_⟩
      refine hne (h.alone other index attending execution hother hindex ?_ hexecutes ?_)
      · rw [Execution.isExecuting, hprogress]
      · exact hattended.id.symm.trans (heq.trans hattends.id)
  · intro first second attending attending' hfirst hsecond hisFirst hisSecond heq
    have hback {other : Nat} {attending : Execution}
        (hother : (system.executions.set index
          { execution with signal, progress := .executing run plan stage' })[other]? =
            some attending) (hexecuting : attending.isExecuting = true) :
        ∃ before, system.executions[other]? = some before ∧ before.isExecuting = true ∧
          before.deploymentRunId = attending.deploymentRunId := by
      rcases getElem?_set_cases hother with ⟨rfl, rfl⟩ | ⟨-, hother⟩
      · exact ⟨execution, hindex, hexecutes, rfl⟩
      · exact ⟨attending, hother, hexecuting, rfl⟩
    obtain ⟨before, hbefore, hexecuting₁, hid₁⟩ := hback hfirst hisFirst
    obtain ⟨before', hbefore', hexecuting₂, hid₂⟩ := hback hsecond hisSecond
    exact h.alone first second before before' hbefore hbefore' hexecuting₁ hexecuting₂
      (hid₁.trans (heq.trans hid₂.symm))
  · have hnone := h.idle hserving
    rw [hnone] at hindex
    cases hindex

/-- A transaction takes place on a run whose executions, if there are any, still attend to it. -/
theorem Sound.transact (h : Sound system) {touched : DeploymentRun}
    (htouched : touched ∈ system.database.runs) {database : Database}
    (hconsistent : Consistent database)
    (hwithin : Within system.database database touched.id touched.taskId)
    (hcovers : touched.status = .running → ∀ stage,
      Covers system.database touched.id touched.taskId stage →
      ∀ run' ∈ database.runs, run'.identity = touched.identity →
        run'.status.isTerminal = true ∨
          run'.status = .running ∧ Covers database touched.id touched.taskId stage)
    (hactive : touched.status.isActive = true) :
    Sound { system with database } := by
  refine ⟨hconsistent, ?_, h.alone, h.idle⟩
  intro index execution run plan stage hindex hprogress
  obtain ⟨stored, hattends⟩ := h.attended index execution run plan stage hindex hprogress
  by_cases hid : stored.id = touched.id
  · obtain rfl := h.consistent.wellFormed.runIds.eq hattends.mem htouched hid
    obtain ⟨stored', hstored', hidentity⟩ := hwithin.exists_after hattends.mem
    refine ⟨stored', hattends.of_identity hstored' hidentity hattends.reachable ?_⟩
    rcases hattends.covers with hterminal | ⟨hrunning, hcovered⟩
    · rw [RunStatus.isTerminal, hactive] at hterminal
      cases hterminal
    · exact hcovers hrunning stage hcovered stored' hstored' hidentity
  · exact ⟨stored, hattends.within h.consistent.wellFormed htouched hwithin hid⟩

/-- No execution attends to a run that is not running or over. -/
theorem Attends.ne_of_waiting {database : Database} {deploymentRunId : Int}
    {stored waiting : DeploymentRun} (h : Attends database deploymentRunId run plan stage stored)
    (hwell : WellFormed database) (hwaiting : waiting ∈ database.runs)
    (hqueued : waiting.status = .queued) : stored.id ≠ waiting.id := by
  intro hid
  obtain rfl := hwell.runIds.eq h.mem hwaiting hid
  rcases h.covers with hterminal | ⟨hrunning, -⟩
  · rw [hqueued] at hterminal
    cases hterminal
  · rw [hqueued] at hrunning
    cases hrunning

/-- At its first stage an execution knows of the rows of a run that waited. -/
theorem covers_starting {database : Database} {stored : DeploymentRun}
    (hwaiting : Waiting database stored.id stored.taskId) (hplanned : Planned database stored)
    (hplan : stored.planJson = .ok plan) :
    Covers database stored.id stored.taskId (.starting (executionWaves plan.items)) := by
  obtain ⟨plan', hplan', -, -, hresults⟩ := hplanned
  obtain rfl := Except.ok.inj (hplan'.symm.trans hplan)
  refine ⟨fun row hrow heq hpending => .inr ?_, fun row hrow heq hrunning => ?_,
    fun step hstep heq hopen => ?_⟩
  · obtain ⟨item, hitem, hidentity, hskip⟩ := hresults row hrow heq
    refine ⟨item, ?_, (UnitResult.of_identity hidentity).2.1.symm⟩
    rw [Stage.unstarted, (executionWaves_spec _).1]
    exact List.mem_filter.mpr ⟨hitem, by simpa using hskip hpending⟩
  · exact absurd hrunning (hwaiting.results row hrow heq)
  · rw [hwaiting.steps step hstep heq] at hopen
    cases hopen

/-- A claim leaves a sound system. -/
theorem Sound.claimed (h : Sound system) (hindex : system.executions[index]? = some execution)
    {stored : DeploymentRun}
    (hstored : stored ∈ system.database.runs) (hid : stored.id = execution.deploymentRunId)
    (hqueued : stored.status = .queued) (htask : run.taskId = stored.taskId)
    (henvironment : run.environmentId = stored.environmentId)
    (hplan : run.planJson = stored.planJson) {signal : Bool} {progress : Progress}
    (hprogress : (∃ error, progress = .rejected error) ∨ ∃ plan, run.planJson = .ok plan ∧
      progress = .executing run plan (.starting (executionWaves plan.items))) :
    Sound { system with
      database := system.database.recordClaim stored
      executions := system.executions.set index { execution with signal, progress } } := by
  have hwell := h.consistent.wellFormed
  have hwithin : Within system.database (system.database.recordClaim stored) _ _ :=
    within_recordClaim
  have hwaiting := h.consistent.agrees stored hstored
  rw [hqueued] at hwaiting
  refine ⟨h.consistent.recordClaim hstored hqueued, ?_, ?_, fun hserving => ?_⟩
  · intro other attending run' plan' stage' hother hexecuting
    rcases getElem?_set_cases hother with ⟨rfl, rfl⟩ | ⟨-, hother⟩
    · rcases hprogress with ⟨error, rfl⟩ | ⟨plan, hok, rfl⟩
      · cases hexecuting
      · obtain ⟨rfl, rfl, rfl⟩ := Progress.executing.inj hexecuting
        obtain ⟨stored', hstored', hidentity⟩ := hwithin.exists_after hstored
        obtain ⟨hsame, hsameEnvironment, hsameTask, hsamePlan⟩ :=
          DeploymentRun.of_identity hidentity
        have hrunning : stored'.status = .running := by
          rw [hwell.runIds.eq_of_mem_updateAt hstored hstored' (fun _ => rfl) hsame]
          simp [hqueued]
        refine ⟨stored', hstored', hsame.trans hid, hsameTask.trans htask.symm,
          hsameEnvironment.trans henvironment.symm, hsamePlan.trans (hplan.symm.trans hok),
          ⟨[], .start ⟨rfl, rfl⟩⟩, .inr ⟨hrunning, ?_⟩⟩
        rw [hsame, hsameTask]
        exact (covers_starting hwaiting (h.consistent.planned stored hstored)
          (hplan.symm.trans hok)).frame (fun _ hrow _ _ => hrow) fun _ hstep _ _ => hstep
    · obtain ⟨attended, hattends⟩ := h.attended other attending run' plan' stage' hother hexecuting
      exact ⟨attended, hattends.within hwell hstored hwithin
        (hattends.ne_of_waiting hwell hstored hqueued)⟩
  · -- An execution that was executing before attends to another run than the claimed one.
    have hother {other : Nat} {attending : Execution}
        (hother : system.executions[other]? = some attending)
        (hexecuting : attending.isExecuting = true) :
        attending.deploymentRunId ≠ execution.deploymentRunId := by
      unfold Execution.isExecuting at hexecuting
      split at hexecuting
      · rename_i run' plan' stage' hprogress'
        obtain ⟨attended, hattends⟩ :=
          h.attended other attending run' plan' stage' hother hprogress'
        rw [← hattends.id, ← hid]
        exact hattends.ne_of_waiting hwell hstored hqueued
      · cases hexecuting
    intro first second attending attending' hfirst hsecond hisFirst hisSecond heq
    rcases getElem?_set_cases hfirst with ⟨rfl, rfl⟩ | ⟨-, hold⟩ <;>
      rcases getElem?_set_cases hsecond with ⟨rfl, rfl⟩ | ⟨-, hold'⟩
    · rfl
    · exact absurd heq.symm (hother hold' hisSecond)
    · exact absurd heq (hother hold hisFirst)
    · exact h.alone first second attending attending' hold hold' hisFirst hisSecond heq
  · have hnone := h.idle hserving
    rw [hnone] at hindex
    cases hindex

/-- The step that a unit starts with is known by its identifier. -/
theorem covers_recordStart {database : Database} {deploymentRunId taskId : Int} {wave : Wave}
    {item : DeploymentPlanItem} {waves : List (List DeploymentPlanItem)} {maxParallel : Nat}
    (hpos : 0 < maxParallel)
    (h : Covers database deploymentRunId taskId (.filling wave item waves)) :
    Covers (database.recordStart deploymentRunId taskId item) deploymentRunId taskId
      (.fillWave maxParallel
        { wave with running := wave.running ++ [⟨item, (database.newStep taskId item).id⟩] }
        waves) := by
  have hleads : Leads
      { wave with running := wave.running ++ [⟨item, (database.newStep taskId item).id⟩] }
      waves _ := leads_fillWave hpos
  have hstarted := hleads.inFlight ⟨item, (database.newStep taskId item).id⟩ (by simp)
  refine ⟨fun row hrow heq hpending => ?_, fun row hrow heq hrunning => .inr ?_,
    fun step hstep heq hopen => .inr ?_⟩
  · obtain ⟨old, hold, hchanged⟩ := mem_updateAt.mp hrow
    split at hchanged
    · subst hchanged
      cases hpending
    · rename_i hunwanted
      subst hchanged
      rcases h.pending old hold heq hpending with hfalse | ⟨other, hother, hunit⟩
      · cases hfalse
      · rcases List.mem_cons.mp hother with rfl | hother
        · exact absurd ⟨by rw [heq, hunit], beq_iff_eq.mpr hpending⟩ hunwanted
        · exact (hleads.unstarted other hother).imp_right fun hmem => ⟨other, hmem, hunit⟩
  · obtain ⟨old, hold, hchanged⟩ := mem_updateAt.mp hrow
    split at hchanged
    · rename_i hwanted
      subst hchanged
      exact ⟨_, hstarted, (Prod.mk.inj hwanted.1).2.symm⟩
    · subst hchanged
      rcases h.running old hold heq hrunning with hfalse | ⟨unit, hunit, hsame⟩
      · cases hfalse
      · exact ⟨unit, hleads.inFlight unit (List.mem_append_left _ hunit), hsame⟩
  · rcases List.mem_append.mp hstep with hold | hnew
    · rcases h.steps step hold heq hopen with hfalse | ⟨unit, hunit, hsame⟩
      · cases hfalse
      · exact ⟨unit, hleads.inFlight unit (List.mem_append_left _ hunit), hsame⟩
    · rw [List.mem_singleton.mp hnew]
      exact ⟨_, hstarted, rfl⟩

/-- Once the outcome of a unit is stored, nothing of it is open. -/
theorem covers_persistUnitOutcome {database : Database}
    {deploymentRunId taskId environmentId : Int} {targetNodeIds : List Int} {wave : Wave}
    {unit : StartedUnit} {outcome : UnitExecutionOutcome}
    {waves : List (List DeploymentPlanItem)}
    (h : Covers database deploymentRunId taskId (.persisting wave unit outcome waves)) :
    Covers (database.persistUnitOutcome deploymentRunId taskId unit.stepId environmentId
      targetNodeIds unit.item outcome) deploymentRunId taskId (.loopWave wave waves) := by
  have hleads : Leads wave waves _ := leads_loopWave
  refine ⟨fun row hrow heq hpending => ?_, fun row hrow heq hrunning => .inr ?_,
    fun step hstep heq hopen => .inr ?_⟩
  · rcases h.pending row (mem_results_of_persist hrow (by rw [hpending]; rfl)) heq hpending with
      hfalse | ⟨item, hitem, hunit⟩
    · cases hfalse
    · exact (hleads.unstarted item hitem).imp_right fun hmem => ⟨item, hmem, hunit⟩
  · obtain ⟨old, hold, hchanged⟩ := mem_updateAt.mp hrow
    split at hchanged
    · subst hchanged
      cases outcome <;> cases hrunning
    · rename_i hunwanted
      subst hchanged
      rcases h.running old hold heq hrunning with hfalse | ⟨other, hother, hsame⟩
      · cases hfalse
      · rcases List.mem_cons.mp hother with rfl | hother
        · exact absurd ⟨by rw [heq, hsame], beq_iff_eq.mpr hrunning⟩ hunwanted
        · exact ⟨other, hleads.inFlight other hother, hsame⟩
  · obtain ⟨old, hold, hchanged⟩ := mem_updateAt.mp hstep
    split at hchanged
    · subst hchanged
      cases outcome <;> cases hopen
    · rename_i hunwanted
      subst hchanged
      rcases h.steps old hold heq hopen with hfalse | ⟨other, hother, hsame⟩
      · cases hfalse
      · rcases List.mem_cons.mp hother with rfl | hother
        · exact absurd ⟨by rw [heq, hsame], rfl⟩ hunwanted
        · exact ⟨other, hleads.inFlight other hother, hsame⟩

/-- Once the pending results are closed, nothing is open. -/
theorem covers_closePendingResults {database : Database} {deploymentRunId taskId : Int}
    {canceled : Bool} (h : Covers database deploymentRunId taskId (.closing canceled)) :
    Covers (database.closePendingResults deploymentRunId canceled) deploymentRunId taskId
      (.counting canceled) := by
  refine ⟨fun row hrow heq hpending => ?_, fun row hrow heq hrunning => ?_, h.steps⟩
  · obtain ⟨old, hold, hchanged⟩ := mem_updateAt.mp hrow
    split at hchanged
    · subst hchanged
      cases canceled <;> cases hpending
    · rename_i hunwanted
      subst hchanged
      exact absurd ⟨heq, beq_iff_eq.mpr hpending⟩ hunwanted
  · exact h.running row (mem_results_of_close hrow (by rw [hrunning]; rfl)) heq hrunning

/-- An execution that is replaced by one in the same progress, or by one that attends to no run. -/
theorem Sound.replace (h : Sound system) (hindex : system.executions[index]? = some execution)
    {execution' : Execution} (hid : execution'.deploymentRunId = execution.deploymentRunId)
    (hprogress : execution'.progress = execution.progress ∨ execution'.isExecuting = false) :
    Sound { system with executions := system.executions.set index execution' } := by
  have hback {other : Nat} {attending : Execution}
      (hother : (system.executions.set index execution')[other]? = some attending)
      (hexecuting : attending.isExecuting = true) :
      ∃ before, system.executions[other]? = some before ∧ before.progress = attending.progress ∧
        before.deploymentRunId = attending.deploymentRunId := by
    rcases getElem?_set_cases hother with ⟨rfl, rfl⟩ | ⟨-, hother⟩
    · rcases hprogress with hsame | hfalse
      · exact ⟨execution, hindex, hsame.symm, hid.symm⟩
      · rw [hfalse] at hexecuting
        cases hexecuting
    · exact ⟨attending, hother, rfl, rfl⟩
  refine ⟨h.consistent, ?_, ?_, fun hserving => ?_⟩
  · intro other attending run plan stage hother hexecuting
    obtain ⟨before, hbefore, hsame, hsameId⟩ := hback hother (by
      rw [Execution.isExecuting, hexecuting])
    rw [← hsameId]
    exact h.attended other before run plan stage hbefore (hsame.trans hexecuting)
  · intro first second attending attending' hfirst hsecond hisFirst hisSecond heq
    obtain ⟨before, hbefore, hsame, hid₁⟩ := hback hfirst hisFirst
    obtain ⟨before', hbefore', hsame', hid₂⟩ := hback hsecond hisSecond
    refine h.alone first second before before' hbefore hbefore' ?_ ?_
      (hid₁.trans (heq.trans hid₂.symm))
    · rwa [Execution.isExecuting, hsame]
    · rwa [Execution.isExecuting, hsame']
  · have hnone := h.idle hserving
    rw [hnone] at hindex
    cases hindex

/-- Nothing of the run is open when its final status is recorded. -/
theorem Attends.closed {database : Database} {deploymentRunId : Int} {stored : DeploymentRun}
    {canceled : Bool} {counts : ResultCounts}
    (h : Attends database deploymentRunId run plan (.finalizing canceled counts) stored)
    (hconsistent : Consistent database) :
    (∀ row ∈ database.unitResults, row.deploymentRunId = stored.id → row.status.isOpen = false) ∧
      ∀ step ∈ database.steps, step.taskId = stored.taskId → step.status.isOpen = false := by
  rcases h.covers with hterminal | ⟨-, hcovers⟩
  · have hclosed := (agrees_iff_closed hterminal).mp (hconsistent.agrees stored h.mem)
    exact ⟨hclosed.results, hclosed.steps⟩
  · refine ⟨fun row hrow heq => ?_, fun step hstep heq => ?_⟩
    · cases hstatus : row.status with
      | pending =>
          rcases hcovers.pending row hrow heq hstatus with hfalse | ⟨item, hitem, -⟩
          · cases hfalse
          · cases hitem
      | running =>
          rcases hcovers.running row hrow heq hstatus with hfalse | ⟨unit, hunit, -⟩
          · cases hfalse
          · cases hunit
      | success | failed | skipped | notStarted | canceledUnknown => rfl
    · rw [Bool.eq_false_iff]
      intro hopen
      rcases hcovers.steps step hstep heq hopen with hfalse | ⟨unit, hunit, -⟩
      · cases hfalse
      · cases hunit

/-- A new run leaves the ones that are executed as they are. -/
theorem Sound.created (h : Sound system) {input : CreateDeploymentRunInput}
    (hplan : system.database.loadDeploymentPlan digests input.environmentId input.appReleaseId
      input.mode = .ok plan) :
    Sound { system with database := (system.database.insertRun input plan).2 } := by
  obtain ⟨planInput, -, hbuilt⟩ := Database.loadDeploymentPlan_eq_ok hplan
  refine ⟨h.consistent.insertRun (unitIds_nodup_of_plan hbuilt), ?_, h.alone, h.idle⟩
  intro index execution run plan stage hindex hexecuting
  obtain ⟨stored, hattends⟩ := h.attended index execution run plan stage hindex hexecuting
  refine ⟨stored, hattends.frame (List.mem_append_left _ hattends.mem) ?_
    fun _ hstep _ => hstep⟩
  refine fun row hrow heq => untouched_insertRun.otherResults hrow ?_
  rw [heq]
  exact (lt_nextId (List.mem_map_of_mem hattends.mem)).ne

/-- A call that begins does not execute anything yet. -/
theorem Sound.called (h : Sound system) {deploymentRunId : Int} (hserving : system.serving = true) :
    Sound { system with
      executions := system.executions ++ [⟨deploymentRunId, false, .claiming⟩] } := by
  have hold {index : Nat} {execution : Execution}
      (hindex : (system.executions ++ [⟨deploymentRunId, false, .claiming⟩])[index]? =
        some execution)
      (hexecuting : execution.isExecuting = true) :
      system.executions[index]? = some execution := by
    rw [List.getElem?_append] at hindex
    split at hindex
    · exact hindex
    · have hnew := List.mem_singleton.mp (List.mem_of_getElem? hindex)
      rw [hnew] at hexecuting
      cases hexecuting
  refine ⟨h.consistent, ?_, ?_, fun hfalse => ?_⟩
  · intro index execution run plan stage hindex hexecuting
    refine h.attended index execution run plan stage (hold hindex ?_) hexecuting
    rw [Execution.isExecuting, hexecuting]
  · intro first second execution execution' hfirst hsecond hisFirst hisSecond
    exact h.alone first second execution execution' (hold hfirst hisFirst)
      (hold hsecond hisSecond) hisFirst hisSecond
  · rw [hserving] at hfalse
    cases hfalse

/-- A unit that starts has its row and its step open. -/
theorem Sound.started (h : Sound system) {wave : Wave} {item : DeploymentPlanItem}
    {waves : List (List DeploymentPlanItem)} {row : UnitResult} {signal : Bool}
    (hindex : system.executions[index]? = some execution)
    (hexecuting : execution.progress = .executing run plan (.filling wave item waves))
    (hrow : row ∈ system.database.unitResults)
    (hrun : row.deploymentRunId = execution.deploymentRunId) (hpending : row.status = .pending) :
    Sound { system with
      database := system.database.recordStart execution.deploymentRunId run.taskId item
      executions := system.executions.set index { execution with
        signal
        progress := .executing run plan (.fillWave (parallelism run.maxParallelUnits)
          { wave with running := wave.running ++
              [⟨item, (system.database.newStep run.taskId item).id⟩] } waves) } } := by
  have hwell := h.consistent.wellFormed
  obtain ⟨stored, hattends⟩ := h.attended _ _ _ _ _ hindex hexecuting
  obtain ⟨hrunning, hcovers⟩ := hattends.covers.resolve_left fun hterminal => by
    have hclosed := (agrees_iff_closed hterminal).mp
      (h.consistent.agrees stored hattends.mem)
    simpa [hpending, UnitStatus.isOpen] using
      hclosed.results row hrow (hrun.trans hattends.id.symm)
  refine h.advance hindex hexecuting hattends ?_ ?_
    (exists_reachable_of_observe hattends.reachable (.started _) rfl)
    fun stored' hstored' hidentity => ?_
  all_goals rw [← hattends.id, ← hattends.task]
  · exact h.consistent.recordStart hattends.mem hrunning
  · exact within_recordStart
  · rw [hwell.runIds.eq hstored' hattends.mem (DeploymentRun.of_identity hidentity).1]
    exact .inr ⟨hrunning, covers_recordStart (parallelism_pos _) hcovers⟩

/-- An outcome that is stored closes the row and the step of its unit. -/
theorem Sound.persisted (h : Sound system) {wave : Wave} {unit : StartedUnit}
    {outcome : UnitExecutionOutcome} {waves : List (List DeploymentPlanItem)} {signal : Bool}
    (hindex : system.executions[index]? = some execution)
    (hexecuting : execution.progress = .executing run plan (.persisting wave unit outcome waves)) :
    Sound { system with
      database := system.database.persistUnitOutcome execution.deploymentRunId run.taskId
        unit.stepId run.environmentId plan.targetNodeIds unit.item outcome
      executions := system.executions.set index
        { execution with signal, progress := .executing run plan (.loopWave wave waves) } } := by
  have hwell := h.consistent.wellFormed
  obtain ⟨stored, hattends⟩ := h.attended _ _ _ _ _ hindex hexecuting
  refine h.advance hindex hexecuting hattends ?_ ?_
    (exists_reachable_of_observe hattends.reachable .persisted rfl)
    fun stored' hstored' hidentity => ?_
  all_goals rw [← hattends.id, ← hattends.task]
  · exact h.consistent.persistUnitOutcome hattends.mem
  · exact within_persistUnitOutcome
  · rw [hwell.runIds.eq hstored' hattends.mem (DeploymentRun.of_identity hidentity).1]
    exact hattends.covers.imp_right (And.imp_right covers_persistUnitOutcome)

/-- What has not started is closed before the rows are counted. -/
theorem Sound.closed (h : Sound system) {canceled signal : Bool}
    (hindex : system.executions[index]? = some execution)
    (hexecuting : execution.progress = .executing run plan (.closing canceled)) :
    Sound { system with
      database := system.database.closePendingResults execution.deploymentRunId canceled
      executions := system.executions.set index
        { execution with signal, progress := .executing run plan (.counting canceled) } } := by
  have hwell := h.consistent.wellFormed
  obtain ⟨stored, hattends⟩ := h.attended _ _ _ _ _ hindex hexecuting
  refine h.advance hindex hexecuting hattends ?_ ?_
    (exists_reachable_of_observe hattends.reachable .closed rfl)
    fun stored' hstored' hidentity => ?_
  all_goals rw [← hattends.id]
  · exact h.consistent.closePendingResults hattends.mem
  · exact within_closePendingResults
  · rw [hwell.runIds.eq hstored' hattends.mem (DeploymentRun.of_identity hidentity).1]
    exact hattends.covers.imp_right (And.imp_right covers_closePendingResults)

/-- The final status is recorded when nothing of the run is open. -/
theorem Sound.finalized (h : Sound system) {canceled signal : Bool} {counts : ResultCounts}
    {outcome : DeploymentRunOutcome} (hindex : system.executions[index]? = some execution)
    (hexecuting : execution.progress = .executing run plan (.finalizing canceled counts)) :
    Sound { system with
      database := system.database.recordFinalStatus execution.deploymentRunId plan canceled counts
      executions := system.executions.set index
        { execution with signal, progress := .executing run plan (.returned (.ok outcome)) } } := by
  have hwell := h.consistent.wellFormed
  obtain ⟨stored, hattends⟩ := h.attended _ _ _ _ _ hindex hexecuting
  have hclosed := hattends.closed h.consistent
  have hstatus := hattends.covers.symm.imp_left fun hrunning => hrunning.1
  refine h.advance hindex hexecuting hattends ?_ ?_
    (exists_reachable_of_observe hattends.reachable (.finalized _) rfl)
    fun stored' hstored' hidentity => .inl ?_
  · rw [← hattends.id]
    exact h.consistent.recordFinalStatus hattends.mem hstatus hclosed.1 hclosed.2
  · rw [← hattends.id]
    exact within_recordFinalStatus hwell hattends.mem
  · rw [← hattends.id] at hstored'
    rw [hwell.runIds.eq_of_mem_updateAt hattends.mem hstored' (fun _ => rfl)
      (DeploymentRun.of_identity hidentity).1]
    split
    · exact finalStatus_isTerminal _ _
    · rename_i hrunning
      exact hstatus.resolve_left fun heq => hrunning (by simp [heq])

/-- The rows of runs do not depend on what is edited. -/
theorem Sound.edited (h : Sound system) {catalog : Catalog} {environments : List Environment} :
    Sound { system with database := { system.database with catalog, environments } } := by
  obtain ⟨⟨hrunIds, htaskIds, htasks, hresults, hphases, hsteps⟩, hagrees, hplanned⟩ :=
    h.consistent
  refine ⟨⟨⟨hrunIds, htaskIds, htasks, hresults, hphases, hsteps⟩, fun run hrun => ?_,
    hplanned⟩, fun index execution run plan stage hindex hexecuting => ?_, h.alone, h.idle⟩
  · exact (hagrees run hrun).shrink (fun _ hrow _ => hrow)
      (fun task htask => ⟨task, htask, rfl, rfl⟩) rfl fun _ hstep _ => hstep
  · obtain ⟨stored, hattends⟩ := h.attended index execution run plan stage hindex hexecuting
    exact ⟨stored, hattends.frame hattends.mem (fun _ hrow _ => hrow) fun _ hstep _ => hstep⟩

/-- Every step leaves a sound system. -/
theorem Sound.step (h : Sound system) (hstep : Steps digests system action system') :
    Sound system' := by
  have hwell := h.consistent.wellFormed
  cases hstep with
  | @created input plan hnone hplan hserving => exact h.created hplan
  | @called deploymentRunId hserving => exact h.called hserving
  | signaled hindex => exact h.replace hindex rfl (.inl rfl)
  | refused error hindex hclaiming => exact h.replace hindex rfl (.inr rfl)
  | claimed signal progress hindex hclaiming hstored hid hqueued htask henvironment hplan
      hprogress =>
      exact h.claimed hindex hstored hid hqueued htask henvironment hplan hprogress
  | observed signal hindex hexecuting hquiet hobserve =>
      obtain ⟨stored, hattends⟩ := h.attended _ _ _ _ _ hindex hexecuting
      refine h.advance hindex hexecuting hattends h.consistent (.refl _ _ _)
        (exists_reachable_of_observe hattends.reachable _ hobserve)
        fun stored' hstored' hidentity => ?_
      rw [hwell.runIds.eq hstored' hattends.mem (DeploymentRun.of_identity hidentity).1]
      exact hattends.covers.imp_right (And.imp_right fun hcovers =>
        hcovers.succeeds (succeeds_of_observe (parallelism_pos _) hquiet hobserve))
  | @started index execution run plan wave item waves row signal hindex hexecuting hrow hrun hunit
      hpending => exact h.started hindex hexecuting hrow hrun hpending
  | persisted signal hindex hexecuting => exact h.persisted hindex hexecuting
  | closed signal hindex hexecuting => exact h.closed hindex hexecuting
  | finalized signal outcome hindex hexecuting => exact h.finalized hindex hexecuting
  | unchanged hactive => exact h
  | canceledQueued actor actor' hrun hqueued =>
      refine h.transact hrun (h.consistent.cancelQueued hrun hqueued) within_cancelQueued
        (fun hrunning => ?_) (by rw [hqueued]; rfl)
      rw [hqueued] at hrunning
      cases hrunning
  | canceledRunning actor actor' hrun hrunning =>
      refine h.transact hrun (h.consistent.cancelRunning hrun) within_cancelRunning
        (fun _ stage hcovers run' hrun' hidentity => .inr ⟨?_, ?_⟩) (by rw [hrunning]; rfl)
      · rw [hwell.runIds.eq_of_mem_updateAt hrun hrun' (fun _ => rfl)
          (DeploymentRun.of_identity hidentity).1]
        split <;> exact hrunning
      · exact hcovers.frame (fun _ hrow _ _ => hrow) fun _ hstep _ _ => hstep
  | failed summary counts hindex hrun hid hstatus =>
      refine h.transact hrun (h.consistent.recordInternalError hrun hstatus)
        within_recordInternalError (fun _ stage hcovers run' hrun' hidentity => .inl ?_) ?_
      · rw [hwell.runIds.eq_of_mem_updateAt hrun hrun' (fun _ => rfl)
          (DeploymentRun.of_identity hidentity).1]
        rcases hstatus with hstatus | hstatus <;>
          simpa [hstatus] using abortedStatus_isTerminal counts
      · rcases hstatus with hstatus | hstatus <;> rw [hstatus] <;> rfl
  | restarted =>
      exact ⟨h.consistent, fun _ _ _ _ _ hindex => absurd hindex (by simp),
        fun _ _ _ _ hindex => absurd hindex (by simp), fun _ => rfl⟩
  | reconciled hserving =>
      have hnone := h.idle hserving
      refine ⟨h.consistent.reconcile, fun index execution run plan stage hindex => ?_, h.alone,
        fun hfalse => Bool.noConfusion hfalse⟩
      rw [hnone] at hindex
      cases hindex
  | confirmed actor note actor' note' counts hrun hreconciling =>
      refine h.transact hrun (h.consistent.recordConfirmation hrun hreconciling)
        within_recordConfirmation (fun hrunning => ?_) (by rw [hreconciling]; rfl)
      rw [hreconciling] at hrunning
      cases hrunning
  | edited => exact h.edited

/-- Every reachable system is sound. -/
theorem sound_of_reachable (h : Reachable (orchestrator digests) system) : Sound system := by
  refine Reached.invariant (P := Sound) h ?_ fun _ _ _ _ _ hsound hstep =>
    hsound.step (steps_of_step hstep)
  rintro start ⟨hruns, hresults, htasks, hphases, hsteps, -, -, hexecutions⟩
  refine ⟨⟨⟨?_, ?_, ?_, ?_, ?_, ?_⟩, ?_, ?_⟩, ?_, ?_, fun _ => hexecutions⟩ <;>
    simp [Keyed, hruns, hresults, hphases, hsteps, hexecutions]

/-- When a run is over, none of its results is pending or running, its task is over, and none of
the phases and steps of its task is pending or running. -/
theorem nothing_open_in_terminal_run (h : Reachable (orchestrator digests) system)
    {stored : DeploymentRun} (hstored : stored ∈ system.database.runs)
    (hterminal : stored.status.isTerminal = true) :
    (∀ row ∈ system.database.unitResults, row.deploymentRunId = stored.id →
        row.status ≠ .pending ∧ row.status ≠ .running) ∧
      (∃ task ∈ system.database.tasks, task.id = stored.taskId) ∧
      (∀ task ∈ system.database.tasks, task.id = stored.taskId →
        task.status = .success ∨ task.status = .failed ∨ task.status = .canceled) ∧
      (∀ phase ∈ system.database.phases, phase.taskId = stored.taskId →
        phase.status ≠ .pending ∧ phase.status ≠ .running) ∧
      ∀ step ∈ system.database.steps, step.taskId = stored.taskId →
        step.status ≠ .pending ∧ step.status ≠ .running := by
  obtain ⟨hwell, hagrees, -⟩ := (sound_of_reachable h).consistent
  have hclosed := (agrees_iff_closed hterminal).mp (hagrees stored hstored)
  refine ⟨fun row hrow heq => ?_, List.mem_map.mp (hwell.tasks stored hstored),
    fun task htask heq => ?_, fun phase hphase heq => ?_, fun step hstep heq => ?_⟩
  · have hopen := hclosed.results row hrow heq
    cases hstatus : row.status <;> simp_all [UnitStatus.isOpen]
  · have hopen := hclosed.task task htask heq
    cases hstatus : task.status <;> simp_all [TaskStatus.isOpen]
  · have hopen := hclosed.phases phase hphase heq
    cases hstatus : phase.status <;> simp_all [StepStatus.isOpen]
  · have hopen := hclosed.steps step hstep heq
    cases hstatus : step.status <;> simp_all [StepStatus.isOpen]

/-- Nothing is open after a run whose unit failed. -/
theorem nothing_open_after_failure : ∃ system,
    (orchestrator Sample.digests).exec Sample.installation
        ([.reconcile] ++ Sample.launch 1 1 0 ++
          Sample.conclude 0 (.failed "exit" "exit status 1" (some 1)) 4) = some system ∧
      ∃ stored ∈ system.database.runs, stored.status = .allFailed ∧
        ∀ row ∈ system.database.unitResults, row.deploymentRunId = stored.id →
          row.status ≠ .pending ∧ row.status ≠ .running := by
  obtain ⟨system, hexec, hstatus⟩ := Option.map_eq_some_iff.mp (rfl :
    ((orchestrator Sample.digests).exec Sample.installation
        ([.reconcile] ++ Sample.launch 1 1 0 ++
          Sample.conclude 0 (.failed "exit" "exit status 1" (some 1)) 4)).map
      (fun system => system.database.runs.map (·.status)) = some [.allFailed])
  obtain ⟨stored, rest, hruns, hfailed, -⟩ := List.map_eq_cons_iff.mp hstatus
  have hstored : stored ∈ system.database.runs := hruns ▸ List.mem_cons_self
  exact ⟨system, hexec, stored, hstored, hfailed,
    (nothing_open_in_terminal_run (Sample.reachable_of_installation hexec) hstored
      (hfailed ▸ rfl)).1⟩

end Steps

end EasyDeploy.Orchestrator
