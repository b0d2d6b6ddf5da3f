import EasyDeploy.Orchestrator.ClosedRuns

/-!
# What is frozen in a run

The columns of a run that its creation writes and no statement updates, and the
units that executions start, by the run they execute. Whatever happens between
the creation of a run and its execution, the units that start are the executed
items of the plan that was stored, in their order.
-/

namespace EasyDeploy.Orchestrator
open Foundation Foundation.Transition

/-- The columns that no later step changes. -/
structure FrozenRun where
  id : Int
  appId : Int
  environmentId : Int
  appReleaseId : Int
  configRevisionId : Int
  taskId : Int
  deploymentMode : DeploymentMode
  planHash : String
  planJson : Except String DeploymentPlan
  createdBy : String
deriving Repr, DecidableEq

/-- Those of a run. -/
def DeploymentRun.frozen (run : DeploymentRun) : FrozenRun :=
  { id := run.id, appId := run.appId, environmentId := run.environmentId
    appReleaseId := run.appReleaseId, configRevisionId := run.configRevisionId
    taskId := run.taskId, deploymentMode := run.deploymentMode, planHash := run.planHash
    planJson := run.planJson, createdBy := run.createdBy }

section Frozen

variable {digests : Digests} {system system' : System} {action : Action}

theorem map_frozen_foldl {transaction : Database → DeploymentRun → Database}
    (hstep : ∀ database run, (transaction database run).runs.map (·.frozen) =
      database.runs.map (·.frozen)) (runs : List DeploymentRun) (database : Database) :
    (runs.foldl transaction database).runs.map (·.frozen) = database.runs.map (·.frozen) := by
  induction runs generalizing database with
  | nil => rfl
  | cons run runs ih => exact (ih (transaction database run)).trans (hstep database run)

/-- No step updates the frozen columns; a step that creates a run writes them. -/
theorem frozen_of_steps (h : Steps digests system action system') :
    system'.database.runs.map (·.frozen) = system.database.runs.map (·.frozen) ∨
      ∃ input plan, system.database.loadDeploymentPlan digests input.environmentId
        input.appReleaseId input.mode = .ok plan ∧
        system'.database = (system.database.insertRun input plan).2 := by
  cases h with
  | @created input plan _ hplan => exact .inr ⟨input, plan, hplan, rfl⟩
  | claimed => exact .inl (map_updateAt fun _ => rfl)
  | finalized => exact .inl (map_updateAt fun _ => rfl)
  | @canceledQueued run _ _ actor =>
      refine .inl (Eq.trans (b := (system.database.cancelRunning run actor).runs.map (·.frozen))
        ?_ ?_)
      · exact map_updateAt fun _ => rfl
      · exact map_updateAt fun _ => rfl
  | canceledRunning => exact .inl (map_updateAt fun _ => rfl)
  | failed => exact .inl (map_updateAt fun _ => rfl)
  | reconciled =>
      refine .inl ((map_frozen_foldl ?_ _ _).trans (map_frozen_foldl ?_ _ _))
      · exact fun _ _ => map_updateAt fun _ => rfl
      · exact fun _ _ => map_updateAt fun _ => rfl
  | confirmed => exact .inl (map_updateAt fun _ => rfl)
  | _ => exact .inl rfl

/-- A run keeps its frozen columns. -/
theorem frozen_kept (h : Steps digests system action system') {run : DeploymentRun}
    (hrun : run ∈ system.database.runs) :
    ∃ run' ∈ system'.database.runs, run'.frozen = run.frozen := by
  rcases frozen_of_steps h with hsame | ⟨input, plan, -, hinsert⟩
  · have hmem : run.frozen ∈ system'.database.runs.map (·.frozen) := by
      rw [hsame]
      exact List.mem_map_of_mem hrun
    exact List.mem_map.mp hmem
  · exact ⟨run, by rw [hinsert]; exact List.mem_append_left _ hrun, rfl⟩

end Frozen

/-- The event of an execution, with the run that it executes. -/
def System.unitEvent (system : System) : Action → Option (Int × ExecutionEvent)
  | .advance index response =>
      match system.executions[index]? with
      | none => none
      | some execution =>
          match execution.progress with
          | .executing run plan stage =>
              match stage.perform system.database execution.deploymentRunId run plan
                  execution.signal response with
              | none => none
              | some (observation, _) =>
                  (stage.event observation).map fun event => (execution.deploymentRunId, event)
          | _ => none
  | _ => none

/-- The orchestrator with the log of the events of its executions. -/
def loggedOrchestrator (digests : Digests) :
    Transition (List (Int × ExecutionEvent) × System) Action :=
  (orchestrator digests).logged System.unitEvent

/-- The events of the executions of a run. -/
def eventsOf (deploymentRunId : Int) (log : List (Int × ExecutionEvent)) : List ExecutionEvent :=
  log.filterMap fun entry => if entry.1 = deploymentRunId then some entry.2 else none

section Events

variable {log : List (Int × ExecutionEvent)} {deploymentRunId other : Int}

theorem eventsOf_append (more : List (Int × ExecutionEvent)) :
    eventsOf deploymentRunId (log ++ more) =
      eventsOf deploymentRunId log ++ eventsOf deploymentRunId more := List.filterMap_append

theorem eventsOf_own (event : Option ExecutionEvent) :
    eventsOf deploymentRunId (event.map fun event => (deploymentRunId, event)).toList =
      event.toList := by
  cases event <;> simp [eventsOf]

theorem eventsOf_other (hne : other ≠ deploymentRunId) (event : Option ExecutionEvent) :
    eventsOf deploymentRunId (event.map fun event => (other, event)).toList = [] := by
  cases event <;> simp [eventsOf, hne]

theorem eventsOf_eq_nil (h : deploymentRunId ∉ log.map (·.1)) : eventsOf deploymentRunId log = [] := by
  refine List.filterMap_eq_nil_iff.mpr fun entry hentry => ?_
  exact if_neg fun heq : entry.1 = deploymentRunId => h (heq ▸ List.mem_map_of_mem hentry)

end Events

/-- The log agrees with the runs and with the executions. -/
structure Traced (log : List (Int × ExecutionEvent)) (system : System) : Prop where
  attended : ∀ (index : Nat) execution run plan stage,
    system.executions[index]? = some execution → execution.progress = .executing run plan stage →
    Reachable ((executionOf plan run.maxParallelUnits).logged Stage.event)
      (eventsOf execution.deploymentRunId log, stage)
  waiting : ∀ stored ∈ system.database.runs, stored.status = .queued →
    eventsOf stored.id log = []
  started : ∀ stored ∈ system.database.runs, ∀ plan, stored.planJson = .ok plan →
    startedItems (eventsOf stored.id log) <+: plan.items.filter fun item => item.action ≠ .skip
  known : ∀ entry ∈ log, entry.1 ∈ system.database.runs.map (·.id)

section Runs

variable {digests : Digests} {system system' : System} {action : Action}
  {log : List (Int × ExecutionEvent)}

/-- A run that is queued after a step was queued before, or is new. -/
theorem queued_of_steps (h : Steps digests system action system') {run : DeploymentRun}
    (hrun : run ∈ system'.database.runs) (hqueued : run.status = .queued) :
    (∃ old ∈ system.database.runs, old.id = run.id ∧ old.status = .queued) ∨
      ∀ old ∈ system.database.runs, old.id < run.id := by
  obtain hfollow | ⟨created, hruns, -, hfresh, -⟩ := runs_of_steps h
  · obtain ⟨old, hold, hid, -, hstatus⟩ := hfollow.exists_before hrun
    refine .inl ⟨old, hold, hid.symm, ?_⟩
    rcases hstatus with hsame | hmoves
    · exact hsame.symm.trans hqueued
    · rw [hqueued] at hmoves
      cases hstatus : old.status <;> rw [hstatus] at hmoves <;> cases hmoves.1
  · rw [hruns] at hrun
    rcases List.mem_append.mp hrun with hold | hnew
    · exact .inl ⟨run, hold, rfl, hqueued⟩
    · rw [List.mem_singleton.mp hnew]
      exact .inr hfresh

/-- A step that logs nothing keeps what is known of the runs. -/
theorem Traced.runs (h : Traced log system) (hsteps : Steps digests system action system') :
    (∀ stored ∈ system'.database.runs, stored.status = .queued → eventsOf stored.id log = []) ∧
      (∀ stored ∈ system'.database.runs, ∀ plan, stored.planJson = .ok plan →
        startedItems (eventsOf stored.id log) <+:
          plan.items.filter fun item => item.action ≠ .skip) ∧
      ∀ entry ∈ log, entry.1 ∈ system'.database.runs.map (·.id) := by
  have hfresh {id : Int} (hnew : ∀ old ∈ system.database.runs, old.id < id) :
      eventsOf id log = [] := by
    refine eventsOf_eq_nil fun hmem => ?_
    obtain ⟨entry, hentry, rfl⟩ := List.mem_map.mp hmem
    obtain ⟨old, hold, heq⟩ := List.mem_map.mp (h.known entry hentry)
    exact (hnew old hold).ne heq
  refine ⟨fun stored hstored hqueued => ?_, fun stored hstored plan hplan => ?_,
    fun entry hentry => ?_⟩
  · obtain ⟨old, hold, hid, hstatus⟩ | hnew := queued_of_steps hsteps hstored hqueued
    · rw [← hid]
      exact h.waiting old hold hstatus
    · exact hfresh hnew
  · rcases frozen_of_steps hsteps with hsame | ⟨input, created, -, hinsert⟩
    · have hmem : stored.frozen ∈ system.database.runs.map (·.frozen) := by
        rw [← hsame]
        exact List.mem_map_of_mem hstored
      obtain ⟨old, hold, hfrozen⟩ := List.mem_map.mp hmem
      rw [← show old.id = stored.id from congrArg FrozenRun.id hfrozen]
      exact h.started old hold plan ((congrArg FrozenRun.planJson hfrozen).trans hplan)
    · rw [hinsert] at hstored
      rcases List.mem_append.mp hstored with hold | hnew
      · exact h.started stored hold plan hplan
      · rw [hfresh fun old hold => ?_]
        · exact List.nil_prefix
        · rw [List.mem_singleton.mp hnew]
          exact lt_nextId (List.mem_map_of_mem hold)
  · obtain ⟨old, hold, heq⟩ := List.mem_map.mp (h.known entry hentry)
    obtain ⟨kept, hkept, hfrozen⟩ := frozen_kept hsteps hold
    rw [← heq, ← show kept.id = old.id from congrArg FrozenRun.id hfrozen]
    exact List.mem_map_of_mem hkept

/-- A step that logs nothing and starts no execution keeps the log right. -/
theorem Traced.quiet (h : Traced log system) (hsteps : Steps digests system action system')
    (hexecutions : ∀ (index : Nat) execution run plan stage,
      system'.executions[index]? = some execution → execution.progress = .executing run plan stage →
      (∃ (index' : Nat) (execution' : Execution), system.executions[index']? = some execution' ∧
        execution'.deploymentRunId = execution.deploymentRunId ∧
        execution'.progress = .executing run plan stage) ∨
      Reachable ((executionOf plan run.maxParallelUnits).logged Stage.event)
        (eventsOf execution.deploymentRunId log, stage)) : Traced log system' := by
  obtain ⟨hwaiting, hstarted, hknown⟩ := h.runs hsteps
  refine ⟨fun index execution run plan stage hindex hprogress => ?_, hwaiting, hstarted, hknown⟩
  obtain ⟨index', execution', hindex', hid, hprogress'⟩ | hreachable :=
    hexecutions index execution run plan stage hindex hprogress
  · rw [← hid]
    exact h.attended index' execution' run plan stage hindex' hprogress'
  · exact hreachable

/-- An execution that advances logs what its machine does. -/
theorem Traced.advance {index : Nat} {response : Response} {execution : Execution}
    {run : ExecutionRun} {plan : DeploymentPlan} {stage : Stage} (h : Traced log system)
    (hsound : Sound system) (hindex : system.executions[index]? = some execution)
    (hexecuting : execution.progress = .executing run plan stage)
    (hstep : system.step digests (.advance index response) = some system') :
    Traced (log ++ (system.unitEvent (.advance index response)).toList) system' := by
  obtain ⟨hwaiting, hstarted, hknown⟩ := h.runs (steps_of_step hstep)
  obtain ⟨stored, hattends⟩ := hsound.attended _ _ _ _ _ hindex hexecuting
  have hkeyed := (hsound.step (steps_of_step hstep)).consistent.wellFormed.runIds
  have hmem : execution.deploymentRunId ∈ system'.database.runs.map (·.id) := by
    obtain ⟨kept, hkept, hfrozen⟩ := frozen_kept (steps_of_step hstep) hattends.mem
    rw [← hattends.id, ← show kept.id = stored.id from congrArg FrozenRun.id hfrozen]
    exact List.mem_map_of_mem hkept
  have hsame : ∀ stored' ∈ system'.database.runs, stored'.id = execution.deploymentRunId →
      stored'.status ≠ .queued ∧ stored'.planJson = .ok plan := by
    intro stored' hstored' hid
    obtain ⟨kept, hkept, hfrozen⟩ := frozen_kept (steps_of_step hstep) hattends.mem
    have hkeptId : kept.id = stored.id := congrArg FrozenRun.id hfrozen
    obtain rfl := hkeyed.eq hstored' hkept (hid.trans (hattends.id.symm.trans hkeptId.symm))
    refine ⟨fun hqueued => ?_, (congrArg FrozenRun.planJson hfrozen).trans hattends.planned⟩
    obtain ⟨old, hold, holdId, hstatus⟩ | hnew := queued_of_steps (steps_of_step hstep) hkept hqueued
    · obtain rfl := hsound.consistent.wellFormed.runIds.eq hold hattends.mem
        (holdId.trans hkeptId)
      rcases hattends.covers with hterminal | hrunning
      · rw [hstatus] at hterminal
        cases hterminal
      · rw [hstatus] at hrunning
        cases hrunning.1
    · exact (hnew stored hattends.mem).ne hkeptId.symm
  simp only [System.step, hindex, Execution.advance, hexecuting] at hstep
  split at hstep
  · cases hstep
  · rename_i advanced database hadvance
    obtain rfl := Option.some.inj hstep
    split at hadvance
    · cases hadvance
    · rename_i observation database' hperform
      obtain ⟨stage', hobserve, heq⟩ := Option.map_eq_some_iff.mp hadvance
      obtain ⟨rfl, rfl⟩ := Prod.mk.inj heq
      have hevent : system.unitEvent (.advance index response) =
          (stage.event observation).map fun event => (execution.deploymentRunId, event) := by
        simp only [System.unitEvent, hindex, hexecuting, hperform]
      have hreachable : Reachable ((executionOf plan run.maxParallelUnits).logged Stage.event)
          (eventsOf execution.deploymentRunId log ++ (stage.event observation).toList, stage') :=
        .next (h.attended _ _ _ _ _ hindex hexecuting) trivial
          (step_logged_eq_some.mpr ⟨hobserve, rfl⟩)
      have hown : eventsOf execution.deploymentRunId
          (log ++ (system.unitEvent (.advance index response)).toList) =
          eventsOf execution.deploymentRunId log ++ (stage.event observation).toList := by
        rw [eventsOf_append, hevent, eventsOf_own]
      have hother {id : Int} (hne : execution.deploymentRunId ≠ id) :
          eventsOf id (log ++ (system.unitEvent (.advance index response)).toList) =
            eventsOf id log := by
        rw [eventsOf_append, hevent, eventsOf_other hne, List.append_nil]
      refine ⟨?_, fun stored' hstored' hqueued => ?_, fun stored' hstored' plan' hplan' => ?_, ?_⟩
      · intro index' execution' run' plan' stage'' hindex' hprogress'
        rw [List.getElem?_set] at hindex'
        split at hindex'
        · split at hindex'
          · obtain rfl := Option.some.inj hindex'
            obtain ⟨rfl, rfl, rfl⟩ := Progress.executing.inj hprogress'
            rw [hown]
            exact hreachable
          · cases hindex'
        · rename_i hne
          rw [hother]
          · exact h.attended index' execution' run' plan' stage'' hindex' hprogress'
          · refine fun hid => hne (hsound.alone index index' execution execution' hindex hindex'
              ?_ ?_ hid)
            · rw [Execution.isExecuting, hexecuting]
            · rw [Execution.isExecuting, hprogress']
      · by_cases hid : execution.deploymentRunId = stored'.id
        · exact absurd hqueued (hsame stored' hstored' hid.symm).1
        · rw [hother hid]
          exact hwaiting stored' hstored' hqueued
      · by_cases hid : execution.deploymentRunId = stored'.id
        · obtain rfl := Except.ok.inj ((hsame stored' hstored' hid.symm).2.symm.trans hplan')
          rw [← hid, hown, ← (executionWaves_spec plan.items).1]
          exact (follows_of_reachable hreachable).inOrder.started
        · rw [hother hid]
          exact hstarted stored' hstored' plan' hplan'
      · intro entry hentry
        rcases List.mem_append.mp hentry with hold | hnew
        · exact hknown entry hold
        · rw [hevent] at hnew
          obtain ⟨event, -, rfl⟩ : ∃ event, stage.event observation = some event ∧
              (execution.deploymentRunId, event) = entry := by
            simpa using hnew
          exact hmem

theorem Traced.step (h : Traced log system) (hsound : Sound system)
    (hstep : system.step digests action = some system') :
    Traced (log ++ (system.unitEvent action).toList) system' := by
  have hsteps := steps_of_step hstep
  have hnone (hevent : system.unitEvent action = none) (hexecutions : ∀ (index : Nat)
      (execution : Execution) (run : ExecutionRun) (plan : DeploymentPlan) (stage : Stage),
      system'.executions[index]? = some execution → execution.progress = .executing run plan stage →
      (∃ (index' : Nat) (execution' : Execution), system.executions[index']? = some execution' ∧
        execution'.deploymentRunId = execution.deploymentRunId ∧
        execution'.progress = .executing run plan stage) ∨
      Reachable ((executionOf plan run.maxParallelUnits).logged Stage.event)
        (eventsOf execution.deploymentRunId log, stage)) :
      Traced (log ++ (system.unitEvent action).toList) system' := by
    rw [hevent, Option.toList_none, List.append_nil]
    exact h.quiet hsteps hexecutions
  have hkeep (hevent : system.unitEvent action = none)
      (hexecutions : system'.executions = system.executions) :
      Traced (log ++ (system.unitEvent action).toList) system' := by
    refine hnone hevent fun index execution run plan stage hindex hprogress => .inl ?_
    rw [hexecutions] at hindex
    exact ⟨index, execution, hindex, rfl, hprogress⟩
  have hclaimingEvent {index : Nat} {response : Response} {execution : Execution}
      (hindex : system.executions[index]? = some execution)
      (hclaiming : execution.progress = .claiming) :
      system.unitEvent (.advance index response) = none := by
    simp only [System.unitEvent, hindex, hclaiming]
  cases hsteps with
  | called hserving =>
      refine hnone rfl fun index execution run plan stage hindex hprogress => .inl ?_
      rw [List.getElem?_append] at hindex
      split at hindex
      · exact ⟨index, execution, hindex, rfl, hprogress⟩
      · rw [List.mem_singleton.mp (List.mem_of_getElem? hindex)] at hprogress
        cases hprogress
  | signaled hindex =>
      refine hnone rfl fun index' execution run plan stage hindex' hprogress => .inl ?_
      rw [List.getElem?_set] at hindex'
      split at hindex'
      · split at hindex'
        · obtain rfl := Option.some.inj hindex'
          exact ⟨_, _, hindex, rfl, hprogress⟩
        · cases hindex'
      · exact ⟨index', execution, hindex', rfl, hprogress⟩
  | refused error hindex hclaiming =>
      refine hnone (hclaimingEvent hindex hclaiming)
        fun index' execution run plan stage hindex' hprogress => .inl ?_
      rw [List.getElem?_set] at hindex'
      split at hindex'
      · split at hindex'
        · obtain rfl := Option.some.inj hindex'
          cases hprogress
        · cases hindex'
      · exact ⟨index', execution, hindex', rfl, hprogress⟩
  | @claimed index claiming run stored signal progress hindex hclaiming hstored hid hqueued htask
      henvironment hplan hprogress =>
      refine hnone (hclaimingEvent hindex hclaiming)
        fun index' execution run' plan stage hindex' hexecuting => ?_
      rw [List.getElem?_set] at hindex'
      split at hindex'
      · split at hindex'
        · obtain rfl := Option.some.inj hindex'
          rw [show progress = _ from hexecuting] at hprogress
          obtain ⟨error, herror⟩ | ⟨plan', -, hstarting⟩ := hprogress
          · cases herror
          · obtain ⟨rfl, rfl, rfl⟩ := Progress.executing.inj hstarting
            refine .inr ?_
            rw [show eventsOf claiming.deploymentRunId log = [] from
              hid ▸ h.waiting stored hstored hqueued]
            exact .start ⟨rfl, rfl⟩
        · cases hindex'
      · exact .inl ⟨index', execution, hindex', rfl, hexecuting⟩
  | observed signal hindex hexecuting => exact h.advance hsound hindex hexecuting hstep
  | started signal hindex hexecuting => exact h.advance hsound hindex hexecuting hstep
  | persisted signal hindex hexecuting => exact h.advance hsound hindex hexecuting hstep
  | closed signal hindex hexecuting => exact h.advance hsound hindex hexecuting hstep
  | finalized signal outcome hindex hexecuting => exact h.advance hsound hindex hexecuting hstep
  | restarted =>
      exact hnone rfl fun index execution run plan stage hindex => absurd hindex (by simp)
  | unchanged hactive =>
      obtain ⟨deploymentRunId, actor, rfl⟩ | ⟨index, rfl⟩ := hactive <;> exact hkeep rfl rfl
  | _ => exact hkeep rfl rfl

theorem sound_and_traced (h : Reachable (loggedOrchestrator digests) (log, system)) :
    Sound system ∧ Traced log system := by
  refine h.invariant (P := fun s : List (Int × ExecutionEvent) × System => Sound s.2 ∧ Traced s.1 s.2)
    ?_ ?_
  · rintro ⟨log, start⟩ ⟨hlog, hstart⟩
    obtain rfl : log = [] := hlog
    have hreachable : Reachable (orchestrator digests) start := .start hstart
    refine ⟨sound_of_reachable hreachable, ?_⟩
    obtain ⟨hruns, -, -, -, -, -, -, hexecutions⟩ := hstart
    refine ⟨fun index execution run plan stage hindex => ?_, ?_, ?_, List.forall_mem_nil _⟩
    · rw [hexecutions] at hindex
      cases hindex
    all_goals
      intro stored hstored
      rw [hruns] at hstored
      cases hstored
  · rintro ⟨log, system⟩ action ⟨log', system'⟩ - - ⟨hsound, htraced⟩ hstep
    obtain ⟨hstep', rfl⟩ := step_logged_eq_some.mp hstep
    exact ⟨hsound.step (steps_of_step hstep'), htraced.step hsound hstep'⟩

end Runs

end EasyDeploy.Orchestrator
