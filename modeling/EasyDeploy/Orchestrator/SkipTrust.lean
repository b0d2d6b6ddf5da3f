import EasyDeploy.Orchestrator.ClosedRuns

/-!
# Skipped units

A plan skips a unit whose node states call it healthy in the planned release. A
node state is written when a unit succeeds, and stays as it is when a later
attempt fails or is interrupted. It tells of the last attempt as long as no
attempt ends so while a node state calls its unit healthy.
-/

namespace EasyDeploy.Orchestrator
open Foundation Foundation.Transition

/-- The unit was started. -/
def UnitStatus.isStarted : UnitStatus → Bool
  | running | success | failed | canceledUnknown => true
  | _ => false

/-- The frozen plan of a run deploys on a node. -/
def DeploymentRun.targets (run : DeploymentRun) (nodeId : Int) : Bool :=
  match run.planJson with
  | .ok plan => plan.targetNodeIds.contains nodeId
  | .error _ => false

/-- The result of a unit that was started on a node of an environment. -/
structure IsAttempt (database : Database) (environmentId unitId nodeId : Int)
    (row : UnitResult) : Prop where
  mem : row ∈ database.unitResults
  unit : row.unitId = unitId
  started : row.status.isStarted = true
  run : ∃ run ∈ database.runs, run.id = row.deploymentRunId ∧
    run.environmentId = environmentId ∧ run.targets nodeId = true

/-- When a plan skips an active unit in normal mode and no attempt on it is under way, the last
attempt on every target node ended in success with the planned release and fingerprint. -/
def SkipsTrusted (digests : Digests) (database : Database) : Prop :=
  ∀ environmentId appReleaseId input plan,
    database.planInput digests environmentId appReleaseId .normal = .ok input →
    buildDeploymentPlan digests input = .ok plan →
    ∀ target ∈ input.targetUnits, target.desiredStatus = "active" →
    ∀ item ∈ plan.items, item.unitId = target.unitId → item.action = .skip →
    ∀ nodeId ∈ plan.targetNodeIds,
      (∀ row, IsAttempt database environmentId item.unitId nodeId row → row.status ≠ .running) →
      ∃ attempt, IsAttempt database environmentId item.unitId nodeId attempt ∧
        attempt.status = .success ∧ attempt.unitReleaseId = item.unitReleaseId ∧
        attempt.targetFingerprint = item.targetFingerprint ∧
        ∀ other, IsAttempt database environmentId item.unitId nodeId other → other ≠ attempt →
          other.deploymentRunId < attempt.deploymentRunId

/-- A node state calls a unit healthy that the run deploys there. -/
def Database.callsHealthy (database : Database) (run : DeploymentRun) (unitId : Int) : Bool :=
  database.runtimeStates.any fun state => state.runtimeStatus == .healthy &&
    state.environmentId == run.environmentId && state.unitId == unitId &&
    run.targets state.nodeId

/-- Interrupting the run leaves a unit in an unknown state that a node state calls healthy. -/
def Database.misjudges (database : Database) (run : DeploymentRun) : Bool :=
  database.unitResults.any fun row => row.deploymentRunId == run.id && row.status == .running &&
    database.callsHealthy run row.unitId

/-- The step does not end an attempt without success while a node state calls its unit healthy, and
stores the success of a unit only while its result is running. -/
def System.keepsTrust (system : System) : Action → Bool
  | .advance index .proceed =>
      match system.executions[index]? with
      | some ⟨deploymentRunId, _, .executing _ _ (.persisting _ unit outcome _)⟩ =>
          let running := system.database.unitResults.any fun row =>
            row.deploymentRunId == deploymentRunId && row.unitId == unit.item.unitId &&
              row.status == .running
          if outcome.isSuccess then running
          else !(running && system.database.runs.any fun run => run.id == deploymentRunId &&
            system.database.callsHealthy run unit.item.unitId)
      | _ => true
  | .failRun index =>
      match system.executions[index]? with
      | some execution => !system.database.runs.any fun run =>
          run.id == execution.deploymentRunId && system.database.misjudges run
      | none => true
  | .reconcile => !system.database.runs.any fun run => run.status == .running &&
      system.database.misjudges run
  | _ => true

/-- An active unit is skipped when every node state agrees with it. -/
theorem classifyAction_eq_skip {target : TargetUnitState} {targetNodeIds : List Int}
    {states : List CurrentUnitNodeState} (hactive : target.desiredStatus = "active")
    (h : (classifyAction .normal target targetNodeIds states).1 = .skip) :
    states.length = targetNodeIds.length ∧ ∀ state ∈ states, fullyMatching target state = true := by
  unfold classifyAction at h
  rw [if_neg (by rw [hactive]; decide), if_neg (by decide)] at h
  split at h
  · split at h <;> cases h
  · rename_i hlength
    split at h
    · rename_i hmatching
      exact ⟨not_not.mp hlength, List.all_eq_true.mp hmatching⟩
    · split at h
      · cases h
      · split at h
        · cases h
        · dsimp only at h
          split at h
          · split at h
            · cases h
            · split at h <;> cases h
          · cases h

/-- A skipped active unit has a healthy node state of the planned release on every target. -/
theorem exists_state_of_skip {digests : Digests} {database : Database}
    {environmentId appReleaseId : Int} {input : DeploymentPlanInput} {plan : DeploymentPlan}
    (hinput : database.planInput digests environmentId appReleaseId .normal = .ok input)
    (hplan : buildDeploymentPlan digests input = .ok plan) {target : TargetUnitState}
    (htarget : target ∈ input.targetUnits) (hactive : target.desiredStatus = "active")
    {item : DeploymentPlanItem} (hitem : item ∈ plan.items) (hunit : item.unitId = target.unitId)
    (hskip : item.action = .skip) {nodeId : Int} (hnode : nodeId ∈ plan.targetNodeIds) :
    ∃ state ∈ database.runtimeStates, state.runtimeStatus = .healthy ∧
      state.environmentId = environmentId ∧ state.unitId = item.unitId ∧ state.nodeId = nodeId ∧
      state.activeUnitReleaseId = item.unitReleaseId ∧
      state.activeFingerprint = item.targetFingerprint := by
  obtain ⟨-, hmode, hstates⟩ := Database.planInput_eq_ok hinput
  obtain ⟨other, hother, rfl⟩ := (mem_items_iff hplan).mp hitem
  obtain ⟨-, -, -, hnodup⟩ := buildDeploymentPlan_eq_ok hplan
  obtain rfl : other = target := List.inj_on_of_nodup_map hnodup hother htarget hunit
  rw [hmode] at hskip
  obtain ⟨hlength, hmatching⟩ := classifyAction_eq_skip hactive hskip
  have hfound := List.filterMap_length_eq_length.mp hlength nodeId hnode
  obtain ⟨current, hcurrent⟩ := Option.isSome_iff_exists.mp hfound
  have hfully := hmatching current (List.mem_filterMap.mpr ⟨nodeId, hnode, hcurrent⟩)
  have hkey := List.find?_some hcurrent
  have hmem := List.mem_of_find?_eq_some hcurrent
  rw [Bool.and_eq_true, beq_iff_eq, beq_iff_eq] at hkey
  rw [hstates, Database.currentStates] at hmem
  obtain ⟨state, hstate, rfl⟩ := List.mem_map.mp hmem
  rw [mem_sortBy, List.mem_filter, Bool.and_eq_true, beq_iff_eq] at hstate
  simp only [fullyMatching, Bool.and_eq_true, beq_iff_eq] at hfully
  exact ⟨state, hstate.1, hfully.1.1.1, hstate.2.1, hkey.1, hkey.2, hfully.1.1.2, hfully.1.2⟩

/-- A node state tells of the last attempt that ended. -/
def Backed (database : Database) (state : UnitRuntimeState) : Prop :=
  ∃ attempt, IsAttempt database state.environmentId state.unitId state.nodeId attempt ∧
    attempt.status = .success ∧ attempt.unitReleaseId = state.activeUnitReleaseId ∧
    attempt.targetFingerprint = state.activeFingerprint ∧
    ∀ other, IsAttempt database state.environmentId state.unitId state.nodeId other →
      other.status ≠ .running → other.deploymentRunId ≤ attempt.deploymentRunId

/-- Every healthy node state is backed. -/
structure Recorded (database : Database) : Prop where
  backed : ∀ state ∈ database.runtimeStates, state.runtimeStatus = .healthy →
    Backed database state
  resultKeys : Keyed database.unitResults fun row => (row.deploymentRunId, row.unitId)

/-- Moreover the active run is the last one of its environment. -/
structure Trusted (database : Database) : Prop extends Recorded database where
  latest : ∀ run ∈ database.runs, run.status.isActive = true → ∀ other ∈ database.runs,
    other.environmentId = run.environmentId → other.id ≤ run.id

/-- With such node states a skip is right. -/
theorem Recorded.skipsTrusted {database : Database} (h : Recorded database) (digests : Digests) :
    SkipsTrusted digests database := by
  intro environmentId appReleaseId input plan hinput hplan target htarget hactive item hitem hunit
    hskip nodeId hnode hidle
  obtain ⟨state, hstate, hhealthy, rfl, hstateUnit, rfl, hrelease, hfingerprint⟩ :=
    exists_state_of_skip hinput hplan htarget hactive hitem hunit hskip hnode
  rw [← hstateUnit] at hidle ⊢
  obtain ⟨attempt, hattempt, hsuccess, hsameRelease, hsameFingerprint, hlast⟩ :=
    h.backed state hstate hhealthy
  refine ⟨attempt, hattempt, hsuccess, hsameRelease.trans hrelease,
    hsameFingerprint.trans hfingerprint, fun other hother hne => ?_⟩
  refine lt_of_le_of_ne (hlast other hother (hidle other hother)) fun heq => hne ?_
  exact h.resultKeys.eq hother.mem hattempt.mem
    (Prod.ext heq (hother.unit.trans hattempt.unit.symm))

section Frames

variable {before after : Database} {run : DeploymentRun} {state : UnitRuntimeState}

theorem DeploymentRun.targets_of_identity {run run' : DeploymentRun}
    (h : run.identity = run'.identity) (nodeId : Int) :
    run.targets nodeId = run'.targets nodeId := by
  unfold targets
  rw [(DeploymentRun.of_identity h).2.2.2]

/-- Node states stay right when no attempt of the touched run ends on their nodes. -/
theorem Backed.within (h : Backed before state) (hwell : WellFormed before)
    (hrun : run ∈ before.runs) (hwithin : Within before after run.id run.taskId)
    (hsuccess : ∀ row ∈ before.unitResults, row.status = .success → row ∈ after.unitResults)
    (hended : ∀ row ∈ after.unitResults, row.deploymentRunId = run.id →
      row.unitId = state.unitId → row.status.isStarted = true → row.status ≠ .running →
      state.environmentId = run.environmentId → run.targets state.nodeId = true →
      row ∈ before.unitResults) : Backed after state := by
  obtain ⟨attempt, hattempt, hstatus, hrelease, hfingerprint, hlast⟩ := h
  refine ⟨attempt, ⟨hsuccess _ hattempt.mem hstatus, hattempt.unit, hattempt.started, ?_⟩, hstatus,
    hrelease, hfingerprint, fun other hother hidle => hlast other ?_ hidle⟩
  · obtain ⟨of, hof, hid, henvironment, htargets⟩ := hattempt.run
    obtain ⟨of', hof', hidentity⟩ := hwithin.exists_after hof
    obtain ⟨hsame, hsameEnvironment, -⟩ := DeploymentRun.of_identity hidentity
    exact ⟨of', hof', hsame.trans hid, hsameEnvironment.trans henvironment,
      (DeploymentRun.targets_of_identity hidentity _).trans htargets⟩
  · obtain ⟨of', hof', hid, henvironment, htargets⟩ := hother.run
    obtain ⟨of, hof, hidentity⟩ := hwithin.exists_run hof'
    obtain ⟨hsame, hsameEnvironment, -⟩ := DeploymentRun.of_identity hidentity
    rw [← DeploymentRun.targets_of_identity hidentity] at htargets
    refine ⟨?_, hother.unit, hother.started, of, hof, hsame.trans hid,
      hsameEnvironment.trans henvironment, htargets⟩
    by_cases htouched : other.deploymentRunId = run.id
    · obtain rfl := hwell.runIds.eq hof hrun (hsame.trans (hid.trans htouched))
      exact hended other hother.mem htouched hother.unit hother.started hidle
        (henvironment.symm.trans hsameEnvironment.symm) htargets
    · exact hwithin.otherResults hother.mem htouched

theorem callsHealthy_of_mem (hstate : state ∈ before.runtimeStates)
    (hhealthy : state.runtimeStatus = .healthy)
    (henvironment : state.environmentId = run.environmentId)
    (htargets : run.targets state.nodeId = true) :
    before.callsHealthy run state.unitId = true :=
  List.any_eq_true.mpr ⟨state, hstate, by simp [hhealthy, henvironment, htargets]⟩

/-- Results keep their keys. -/
theorem Within.resultKeys {deploymentRunId taskId : Int}
    (h : Within before after deploymentRunId taskId)
    (hkeys : Keyed before.unitResults fun row => (row.deploymentRunId, row.unitId)) :
    Keyed after.unitResults fun row => (row.deploymentRunId, row.unitId) := by
  have hsame : after.unitResults.map (fun row => (row.deploymentRunId, row.unitId)) =
      before.unitResults.map fun row => (row.deploymentRunId, row.unitId) := by
    simpa [Function.comp_def, UnitResult.identity] using
      congrArg (List.map fun identity => (identity.1, identity.2.1)) h.results
  rw [Keyed, hsame]
  exact hkeys

/-- A transaction that writes no node state and ends attempts only on units that no node state
calls healthy. -/
theorem Recorded.transact (h : Recorded before) (hwell : WellFormed before)
    (hrun : run ∈ before.runs) (hwithin : Within before after run.id run.taskId)
    (hstates : after.runtimeStates = before.runtimeStates)
    (hsuccess : ∀ row ∈ before.unitResults, row.status = .success → row ∈ after.unitResults)
    (hended : ∀ row ∈ after.unitResults, row.deploymentRunId = run.id →
      row.status.isStarted = true → row.status ≠ .running →
      row ∈ before.unitResults ∨ before.callsHealthy run row.unitId = false) :
    Recorded after := by
  refine ⟨fun state hstate hhealthy => ?_, hwithin.resultKeys h.resultKeys⟩
  rw [hstates] at hstate
  refine (h.backed state hstate hhealthy).within hwell hrun hwithin hsuccess ?_
  intro row hrow hid hunit hstarted hidle henvironment htargets
  refine (hended row hrow hid hstarted hidle).resolve_right fun hfalse => ?_
  rw [hunit, callsHealthy_of_mem hstate hhealthy henvironment htargets] at hfalse
  cases hfalse

/-- An interrupted result that counts as started was running. -/
theorem ended_of_interrupted {target : Int} {kind unknown notStarted : String} {row : UnitResult}
    (h : row ∈ updateAt before.unitResults (·.deploymentRunId) target (·.status.isOpen)
      (.interrupted kind unknown notStarted)) (hstarted : row.status.isStarted = true) :
    row ∈ before.unitResults ∨ ∃ old ∈ before.unitResults, old.deploymentRunId = target ∧
      old.status = .running ∧ old.unitId = row.unitId := by
  obtain ⟨old, hold, rfl⟩ := mem_updateAt.mp h
  split
  · rename_i hwanted
    rw [if_pos hwanted] at hstarted
    by_cases hrunning : old.status = .running
    · exact .inr ⟨old, hold, hwanted.1, hrunning, rfl⟩
    · simp [UnitResult.interrupted, hrunning, UnitStatus.isStarted] at hstarted
  · exact .inl hold

/-- Interrupting a run is right when this misjudges no unit. -/
theorem not_callsHealthy_of_interrupted (hmisjudges : before.misjudges run = false)
    {kind unknown notStarted : String} {row : UnitResult}
    (h : row ∈ updateAt before.unitResults (·.deploymentRunId) run.id (·.status.isOpen)
      (.interrupted kind unknown notStarted)) (hstarted : row.status.isStarted = true) :
    row ∈ before.unitResults ∨ before.callsHealthy run row.unitId = false := by
  refine (ended_of_interrupted h hstarted).imp_right ?_
  rintro ⟨old, hold, hid, hrunning, hunit⟩
  have hother := (List.any_eq_false.mp hmisjudges) old hold
  rw [← hunit]
  simpa [hid, hrunning] using hother

end Frames

section Outcomes

variable {database : Database} {deploymentRunId taskId stepId environmentId : Int}
  {targetNodeIds : List Int} {item : DeploymentPlanItem} {outcome : UnitExecutionOutcome}

/-- The node states after a success: the new ones, and the old ones of other keys. -/
theorem mem_deployedStates {states : List UnitRuntimeState} {summary : String}
    {state : UnitRuntimeState}
    (h : state ∈ targetNodeIds.foldl (fun states nodeId => upsert states UnitRuntimeState.key
      (deployedState deploymentRunId environmentId nodeId item summary)) states) :
    (∃ nodeId ∈ targetNodeIds,
      state = deployedState deploymentRunId environmentId nodeId item summary) ∨
    state ∈ states ∧ ∀ nodeId ∈ targetNodeIds,
      state.key ≠ (environmentId, item.unitId, nodeId) := by
  induction targetNodeIds generalizing states with
  | nil => exact .inr ⟨h, fun nodeId hnode => absurd hnode List.not_mem_nil⟩
  | cons first targetNodeIds ih =>
      rcases ih h with ⟨nodeId, hnode, rfl⟩ | ⟨hstate, hkeys⟩
      · exact .inl ⟨nodeId, List.mem_cons_of_mem _ hnode, rfl⟩
      · have hkey : (deployedState deploymentRunId environmentId first item summary).key =
            (environmentId, item.unitId, first) := by
          unfold deployedState
          split <;> rfl
        rcases mem_upsert hstate with rfl | ⟨hold, hne⟩
        · exact .inl ⟨first, List.mem_cons_self, rfl⟩
        · rw [hkey] at hne
          refine .inr ⟨hold, fun nodeId hnode => ?_⟩
          rcases List.mem_cons.mp hnode with rfl | hnode
          · exact hne
          · exact hkeys nodeId hnode

/-- A result is stored as it is, or it was running and records the outcome. -/
theorem mem_results_of_persist_cases {row : UnitResult}
    (h : row ∈ (database.persistUnitOutcome deploymentRunId taskId stepId environmentId
      targetNodeIds item outcome).unitResults) :
    row ∈ database.unitResults ∨ row.deploymentRunId = deploymentRunId ∧
      row.unitId = item.unitId ∧ row.status = outcome.resultStatus ∧
      ∃ old ∈ database.unitResults, old.identity = row.identity ∧ old.status = .running := by
  obtain ⟨old, hold, rfl⟩ := mem_updateAt.mp h
  split
  · rename_i hwanted
    obtain ⟨hid, hunit⟩ := Prod.mk.inj hwanted.1
    exact .inr ⟨hid, hunit, rfl, old, hold, rfl, beq_iff_eq.mp hwanted.2⟩
  · exact .inl hold

end Outcomes

/-- The items that an execution has not finished. -/
def Stage.items (stage : Stage) : List DeploymentPlanItem :=
  stage.unstarted ++ stage.inFlight.map (·.item)

/-- The items that an execution has not finished in a wave and after it. -/
def Wave.items (wave : Wave) (waves : List (List DeploymentPlanItem)) : List DeploymentPlanItem :=
  wave.pending ++ waves.flatten ++ wave.running.map (·.item)

section Items

variable {wave : Wave} {waves : List (List DeploymentPlanItem)} {maxParallel : Nat}
  {stage stage' : Stage} {observation : Observation}

theorem items_nextWave {failed canceled : Bool} :
    (Stage.nextWave waves failed canceled).items ⊆ waves.flatten := by
  have hafter : (Stage.afterWaves failed canceled).items = [] := by
    unfold Stage.afterWaves
    split <;> rfl
  unfold Stage.nextWave
  split
  · rw [hafter]
    exact List.nil_subset _
  · split
    · rw [hafter]
      exact List.nil_subset _
    · simp [Stage.items, Stage.unstarted, Stage.inFlight]

theorem items_endWave : (Stage.endWave wave waves).items ⊆ wave.items waves := by
  have hwaves : waves.flatten ⊆ wave.items waves := fun item hitem =>
    List.mem_append_left _ (List.mem_append_right _ hitem)
  unfold Stage.endWave
  split
  · exact List.Subset.trans items_nextWave hwaves
  · split <;> exact List.Subset.trans items_nextWave hwaves

theorem items_loopWave : (Stage.loopWave wave waves).items ⊆ wave.items waves := by
  unfold Stage.loopWave
  split
  · exact items_endWave
  · exact List.Subset.refl _

theorem items_fillWave : (Stage.fillWave maxParallel wave waves).items ⊆ wave.items waves := by
  have hjoin : (Stage.joinWave wave waves).items ⊆ wave.items waves := by
    unfold Stage.joinWave
    split
    · exact items_endWave
    · exact List.Subset.refl _
  unfold Stage.fillWave
  split
  · split
    · exact hjoin
    · rename_i item pending hpending
      simp [Stage.items, Stage.unstarted, Stage.inFlight, Wave.items, hpending]
  · exact hjoin

/-- No observation adds an item. -/
theorem items_observe (h : stage.observe maxParallel observation = some stage') :
    stage'.items ⊆ stage.items := by
  cases observation with
  | error error =>
      have hfail : (if stage.mayFail then some (Stage.returned (.error error)) else none) =
          some stage' := by
        cases stage <;> exact h
      split at hfail
      · obtain rfl := Option.some.inj hfail
        exact List.nil_subset _
      · cases hfail
  | signal canceled =>
      cases stage with
      | starting waves =>
          obtain rfl := Option.some.inj h
          exact List.Subset.trans items_nextWave (List.subset_append_left _ _)
      | entering items waves =>
          obtain rfl := Option.some.inj h
          exact items_loopWave
      | looping wave waves =>
          obtain rfl := Option.some.inj h
          exact items_fillWave
      | _ => cases h
  | requested canceled =>
      cases stage with
      | polling items waves =>
          obtain rfl := Option.some.inj h
          cases canceled with
          | true => exact List.nil_subset _
          | false => exact List.Subset.refl _
      | _ => cases h
  | started stepId =>
      cases stage with
      | filling wave item waves =>
          obtain rfl := Option.some.inj h
          refine List.Subset.trans items_fillWave fun other hother => ?_
          simp only [Wave.items, Stage.items, Stage.unstarted, Stage.inFlight, List.map_append,
            List.map_cons, List.map_nil, List.mem_append, List.mem_cons] at hother ⊢
          tauto
      | _ => cases h
  | joined index outcome =>
      cases stage with
      | joining wave waves =>
          obtain ⟨unit, hunit, rfl⟩ := Option.map_eq_some_iff.mp h
          have hmem := List.mem_of_getElem? hunit
          simp only [Stage.items, Stage.unstarted, Stage.inFlight, Wave.see_pending,
            Wave.see_running, List.map_cons]
          refine List.append_subset.mpr ⟨List.subset_append_left _ _, fun item hitem => ?_⟩
          refine List.mem_append_right _ ?_
          rcases List.mem_cons.mp hitem with rfl | hitem
          · exact List.mem_map_of_mem hmem
          · exact List.map_subset _ List.eraseIdx_subset hitem
      | _ => cases h
  | persisted =>
      cases stage with
      | persisting wave unit outcome waves =>
          obtain rfl := Option.some.inj h
          refine List.Subset.trans items_loopWave fun item hitem => ?_
          simp only [Wave.items, Stage.items, Stage.unstarted, Stage.inFlight, List.map_cons,
            List.mem_append, List.mem_cons] at hitem ⊢
          tauto
      | _ => cases h
  | closed =>
      cases stage with
      | closing canceled =>
          obtain rfl := Option.some.inj h
          exact List.nil_subset _
      | _ => cases h
  | counted counts =>
      cases stage with
      | counting canceled =>
          obtain rfl := Option.some.inj h
          exact List.nil_subset _
      | _ => cases h
  | finalized outcome =>
      cases stage with
      | finalizing canceled counts =>
          obtain rfl := Option.some.inj h
          exact List.nil_subset _
      | _ => cases h

/-- An execution handles items of its plan. -/
theorem items_of_reachable {plan : DeploymentPlan} {maxParallelUnits : Int}
    {log : List ExecutionEvent}
    (h : Reachable ((executionOf plan maxParallelUnits).logged Stage.event) (log, stage)) :
    stage.items ⊆ plan.items := by
  refine Reached.invariant (P := fun state : List ExecutionEvent × Stage =>
    state.2.items ⊆ plan.items) h ?_ ?_
  · rintro ⟨log, start⟩ ⟨-, hstart⟩
    obtain rfl : start = _ := hstart
    simp only [Stage.items, Stage.unstarted, Stage.inFlight, List.map_nil, List.append_nil]
    rw [(executionWaves_spec plan.items).1]
    exact List.filter_subset_self _
  · rintro ⟨log, before⟩ observation ⟨log', after⟩ - - hbefore hstep
    exact List.Subset.trans (items_observe (step_logged_eq_some.mp hstep).1) hbefore

end Items

section Steps

variable {digests : Digests} {system system' : System} {action : Action}

/-- The active run stays the last one of its environment. -/
theorem latest_of_steps (h : Steps digests system action system')
    (hlatest : ∀ run ∈ system.database.runs, run.status.isActive = true →
      ∀ other ∈ system.database.runs, other.environmentId = run.environmentId →
        other.id ≤ run.id) :
    ∀ run ∈ system'.database.runs, run.status.isActive = true →
      ∀ other ∈ system'.database.runs, other.environmentId = run.environmentId →
        other.id ≤ run.id := by
  intro run' hrun' hactive other' hother' heq
  obtain hfollow | ⟨created, hruns, -, hfresh, hinactive⟩ := runs_of_steps h
  · obtain ⟨run, hrun, hid, henvironment, hstatus⟩ := hfollow.exists_before hrun'
    obtain ⟨other, hother, hotherId, hotherEnvironment, -⟩ := hfollow.exists_before hother'
    have hwas : run.status.isActive = true := by
      rcases hstatus with hsame | hmoves
      · rwa [← hsame]
      · exact RunStatus.isActive_of_mayMoveTo hmoves.1
    rw [hid, hotherId]
    exact hlatest run hrun hwas other hother (by rw [← hotherEnvironment, heq, henvironment])
  · rw [hruns] at hrun' hother'
    rcases List.mem_append.mp hrun' with hrun | hnew <;>
      rcases List.mem_append.mp hother' with hother | hnewOther
    · exact hlatest run' hrun hactive other' hother heq
    · rw [List.mem_singleton.mp hnewOther] at heq
      rw [hinactive run' hrun heq.symm] at hactive
      cases hactive
    · rw [List.mem_singleton.mp hnew]
      exact (hfresh other' hother).le
    · rw [List.mem_singleton.mp hnew, List.mem_singleton.mp hnewOther]

/-- The success of a running unit backs the node states that it writes. -/
theorem Recorded.persistSuccess (h : Recorded system.database)
    (hlatest : ∀ run ∈ system.database.runs, run.status.isActive = true →
      ∀ other ∈ system.database.runs, other.environmentId = run.environmentId →
        other.id ≤ run.id) (hsound : Sound system)
    {execution : Execution} {run : ExecutionRun} {plan : DeploymentPlan} {wave : Wave}
    {unit : StartedUnit} {outcome : UnitExecutionOutcome}
    {waves : List (List DeploymentPlanItem)} {stored : DeploymentRun}
    (hattends : Attends system.database execution.deploymentRunId run plan
      (.persisting wave unit outcome waves) stored) (hsuccess : outcome.isSuccess = true)
    (hrunning : ∃ row ∈ system.database.unitResults, row.deploymentRunId = stored.id ∧
      row.unitId = unit.item.unitId ∧ row.status = .running) :
    Recorded (system.database.persistUnitOutcome stored.id stored.taskId unit.stepId
      stored.environmentId plan.targetNodeIds unit.item outcome) := by
  have hwell := hsound.consistent.wellFormed
  have hwithin : Within system.database (system.database.persistUnitOutcome stored.id
      stored.taskId unit.stepId stored.environmentId plan.targetNodeIds unit.item outcome)
      stored.id stored.taskId := within_persistUnitOutcome
  have htargets (nodeId : Int) : stored.targets nodeId = true ↔ nodeId ∈ plan.targetNodeIds := by
    rw [DeploymentRun.targets, hattends.planned, List.contains_iff_mem]
  have hresultStatus : outcome.resultStatus = .success := by
    cases outcome with
    | success summary => rfl
    | failed _ _ _ => cases hsuccess
    | canceledUnknown _ => cases hsuccess
  refine ⟨fun state hstate hhealthy => ?_, hwithin.resultKeys h.resultKeys⟩
  rw [Database.persistUnitOutcome, if_pos hsuccess] at hstate
  rcases mem_deployedStates hstate with ⟨nodeId, hnode, rfl⟩ | ⟨hold, hkeys⟩
  · obtain ⟨row, hrow, hid, hunit, hrowRunning⟩ := hrunning
    -- The result that becomes a success is the one of the item.
    obtain ⟨plan', hplan', -, hnodup, hresults⟩ := hsound.consistent.planned stored hattends.mem
    obtain rfl := Except.ok.inj (hplan'.symm.trans hattends.planned)
    obtain ⟨item, hitem, hidentity, -⟩ := hresults row hrow hid
    obtain ⟨log, hreachable⟩ := hattends.reachable
    have hplanned : unit.item ∈ plan'.items := items_of_reachable hreachable (by
      simp [Stage.items, Stage.inFlight])
    obtain ⟨-, hsameUnit, hrelease, -, hfingerprint⟩ := UnitResult.of_identity hidentity
    obtain rfl : item = unit.item :=
      List.inj_on_of_nodup_map hnodup hitem hplanned (hsameUnit.symm.trans hunit)
    have hactive : stored.status.isActive = true := by
      rcases hattends.covers with hterminal | ⟨hstatus, -⟩
      · have hclosed := (agrees_iff_closed hterminal).mp
          (hsound.consistent.agrees stored hattends.mem)
        have hfalse := hclosed.results row hrow hid
        rw [hrowRunning] at hfalse
        cases hfalse
      · rw [hstatus]
        rfl
    have hstop : unit.item.action ≠ .stop := fun hstop => by
      rw [deployedState, if_pos hstop] at hhealthy
      cases hhealthy
    obtain ⟨stored', hstored', hstoredIdentity⟩ := hwithin.exists_after hattends.mem
    obtain ⟨hsameId, hsameEnvironment, -⟩ := DeploymentRun.of_identity hstoredIdentity
    have hwanted : ((row.deploymentRunId, row.unitId) = (stored.id, unit.item.unitId)) ∧
        (row.status == .running) = true := ⟨by rw [hid, hunit], beq_iff_eq.mpr hrowRunning⟩
    rw [deployedState, if_neg hstop]
    refine ⟨_, ⟨mem_updateAt.mpr ⟨row, hrow, if_pos hwanted⟩, hunit, ?_, stored', hstored',
      hsameId.trans hid.symm, hsameEnvironment, ?_⟩, hresultStatus, hrelease, hfingerprint, ?_⟩
    · dsimp only
      rw [hresultStatus]
      rfl
    · rw [DeploymentRun.targets_of_identity hstoredIdentity]
      exact (htargets nodeId).mpr hnode
    · intro other hother _
      obtain ⟨otherRun', hotherRun', hotherId, hotherEnvironment, -⟩ := hother.run
      obtain ⟨otherRun, hotherRun, hotherIdentity⟩ := hwithin.exists_run hotherRun'
      obtain ⟨hsameOther, hsameOtherEnvironment, -⟩ := DeploymentRun.of_identity hotherIdentity
      dsimp only
      rw [← hotherId, ← hsameOther, hid]
      exact hlatest stored hattends.mem hactive otherRun hotherRun
        (hsameOtherEnvironment.trans hotherEnvironment)
  · refine (h.backed state hold hhealthy).within hwell hattends.mem hwithin
      (fun row hrow hstatus => mem_updateAt_of_guard hrow (by rw [hstatus]; rfl)) ?_
    intro row hrow hid hunit hstarted hidle henvironment hnode
    refine (mem_results_of_persist_cases hrow).resolve_right fun hchanged => ?_
    refine hkeys state.nodeId ((htargets _).mp hnode) ?_
    rw [UnitRuntimeState.key, henvironment, ← hunit, hchanged.2.1]

/-- A new run starts nothing. -/
theorem Recorded.insertRun {database : Database} (h : Recorded database)
    (hwell : WellFormed database) {input : CreateDeploymentRunInput} {plan : DeploymentPlan}
    (hnodup : (plan.items.map (·.unitId)).Nodup) : Recorded (database.insertRun input plan).2 := by
  refine ⟨fun state hstate hhealthy => ?_, ?_⟩
  · obtain ⟨attempt, ⟨hmem, hunit, hstarted, of, hof, hof'⟩, hstatus, hrelease, hfingerprint,
      hlast⟩ := h.backed state hstate hhealthy
    refine ⟨attempt, ⟨List.mem_append_left _ hmem, hunit, hstarted, of,
      List.mem_append_left _ hof, hof'⟩, hstatus, hrelease, hfingerprint,
      fun other hother hidle => hlast other ?_ hidle⟩
    obtain ⟨hotherMem, hotherUnit, hotherStarted, run, hrun, hid, hkeys⟩ := hother
    have hold : other ∈ database.unitResults := by
      refine (List.mem_append.mp hotherMem).resolve_right fun hnew => ?_
      obtain ⟨item, -, rfl⟩ := List.mem_map.mp hnew
      by_cases hskip : item.action = .skip <;>
        simp [newUnitResult, hskip, UnitStatus.isStarted] at hotherStarted
    refine ⟨hold, hotherUnit, hotherStarted, run, ?_, hid, hkeys⟩
    refine (List.mem_append.mp hrun).resolve_right fun hnew => ?_
    have hlt := lt_nextId (hwell.results other hold)
    rw [← hid, List.mem_singleton.mp hnew] at hlt
    exact lt_irrefl _ hlt
  · have hnewKeys : (plan.items.map fun item =>
        (nextId (database.runs.map (·.id)), item.unitId)).Nodup := by
      refine List.Nodup.of_map Prod.snd ?_
      simpa [Function.comp_def] using hnodup
    rw [Keyed, Database.insertRun, List.map_append, List.nodup_append]
    refine ⟨h.resultKeys, by simpa [Function.comp_def, newUnitResult] using hnewKeys, ?_⟩
    intro key hkey key' hkey' heq
    obtain ⟨row, hrow, rfl⟩ := List.mem_map.mp hkey
    obtain ⟨newRow, hnewRow, rfl⟩ := List.mem_map.mp hkey'
    obtain ⟨item, -, rfl⟩ := List.mem_map.mp hnewRow
    exact (lt_nextId (hwell.results row hrow)).ne (Prod.mk.inj heq).1

/-- Closing results of units that did not start ends no attempt. -/
theorem mem_of_notStarted {rows : List UnitResult} {target : Int} {guard : UnitResult → Bool}
    {change : UnitResult → UnitResult} (hchange : ∀ row, (change row).status = .notStarted)
    {row : UnitResult} (h : row ∈ updateAt rows (·.deploymentRunId) target guard change)
    (hstarted : row.status.isStarted = true) : row ∈ rows :=
  mem_of_updateAt_of_not (P := fun row : UnitResult => row.status.isStarted = true) h
    (fun row _ hfalse => by rw [hchange] at hfalse; cases hfalse) hstarted

/-- Reconciling is right when holding the running runs misjudges no unit. -/
theorem Recorded.reconcile {database : Database} (h : Recorded database)
    (hconsistent : Consistent database)
    (hmisjudges : ∀ run ∈ database.runs, run.status = .running →
      database.misjudges run = false) : Recorded database.reconcileInterruptedRuns.2 := by
  let Keeps (current : Database) : Prop := Consistent current ∧ Recorded current ∧
    current.runtimeStates = database.runtimeStates ∧
    (∀ row ∈ current.unitResults, row.status = .running → row ∈ database.unitResults) ∧
    ∀ run ∈ current.runs, run.status = .running → run ∈ database.runs
  have hcanceled : Keeps ((database.runsIn .queued).foldl .cancelInterrupted database) := by
    refine foldl_runsIn (P := Keeps) (fun current run hkeeps hrun hqueued => ?_)
      (fun _ _ _ hother hne => mem_updateAt_of_ne hother hne) hconsistent.wellFormed.runIds
      ⟨hconsistent, h, rfl, fun _ hrow _ => hrow, fun _ hrun _ => hrun⟩
    obtain ⟨hcurrent, hrecorded, hstates, hrows, hruns⟩ := hkeeps
    refine ⟨hcurrent.cancelInterrupted hrun hqueued,
      hrecorded.transact hcurrent.wellFormed hrun within_cancelInterrupted rfl
        (fun _ hrow hstatus => mem_updateAt_of_guard hrow (by rw [hstatus]; rfl))
        (fun row hrow _ hstarted _ =>
          .inl (mem_of_notStarted (fun _ => rfl) hrow hstarted)), hstates, ?_, ?_⟩
    · intro row hrow hrunning
      exact hrows row (mem_of_notStarted (fun _ => rfl) hrow (by rw [hrunning]; rfl)) hrunning
    · intro other hother hrunning
      refine hruns other (mem_of_updateAt_of_not
        (P := fun run : DeploymentRun => run.status = .running) hother ?_ hrunning) hrunning
      exact fun _ _ hfalse => by cases hfalse
  refine (foldl_runsIn (P := Keeps) (fun current run hkeeps hrun hrunning => ?_)
    (fun _ _ _ hother hne => mem_updateAt_of_ne hother hne) hcanceled.1.wellFormed.runIds
    hcanceled).2.1
  obtain ⟨hcurrent, hrecorded, hstates, hrows, hruns⟩ := hkeeps
  have hright : current.misjudges run = false := by
    refine List.any_eq_false.mpr fun row hrow hwrong => ?_
    have hsame := List.any_eq_false.mp (hmisjudges run (hruns run hrun hrunning) hrunning)
    rw [Bool.and_eq_true, Bool.and_eq_true, beq_iff_eq, beq_iff_eq] at hwrong
    refine hsame row (hrows row hrow hwrong.1.2) ?_
    rw [Database.callsHealthy, hstates] at hwrong
    simpa [Database.callsHealthy, hwrong.1.1, hwrong.1.2] using hwrong.2
  refine ⟨hcurrent.holdInterrupted hrun hrunning,
    hrecorded.transact hcurrent.wellFormed hrun within_holdInterrupted rfl
      (fun _ hrow hstatus => mem_updateAt_of_guard hrow (by rw [hstatus]; rfl)) (fun row hrow _ hstarted _ =>
        not_callsHealthy_of_interrupted hright hrow hstarted), hstates, ?_, ?_⟩
  · intro row hrow hrowRunning
    refine hrows row (mem_of_updateAt_of_not
      (P := fun row : UnitResult => row.status.isOpen = true) hrow ?_ (by rw [hrowRunning]; rfl))
      hrowRunning
    exact fun row _ hopen => by rw [row.interrupted_isOpen] at hopen; cases hopen
  · intro other hother hotherRunning
    refine hruns other (mem_of_updateAt_of_not
      (P := fun run : DeploymentRun => run.status = .running) hother ?_ hotherRunning)
      hotherRunning
    exact fun _ _ hfalse => by cases hfalse

theorem Trusted.step (h : Trusted system.database) (hsound : Sound system)
    (hkeeps : system.keepsTrust action = true) (hstep : Steps digests system action system') :
    Recorded system'.database := by
  have hwell := hsound.consistent.wellFormed
  cases hstep with
  | @created input plan hnone hplan hserving =>
      obtain ⟨planInput, -, hbuilt⟩ := Database.loadDeploymentPlan_eq_ok hplan
      exact h.toRecorded.insertRun hwell (unitIds_nodup_of_plan hbuilt)
  | called hserving => exact h.toRecorded
  | signaled hindex => exact h.toRecorded
  | refused error hindex hclaiming => exact h.toRecorded
  | claimed signal progress hindex hclaiming hstored =>
      exact h.toRecorded.transact hwell hstored within_recordClaim rfl (fun _ hrow _ => hrow)
        fun _ hrow _ _ _ => .inl hrow
  | observed signal hindex hexecuting hquiet hobserve => exact h.toRecorded
  | @started index execution run plan wave item waves row signal hindex hexecuting hrow hrun hunit
      hpending =>
      obtain ⟨stored, hattends⟩ := hsound.attended _ _ _ _ _ hindex hexecuting
      rw [← hattends.id, ← hattends.task]
      refine h.toRecorded.transact hwell hattends.mem within_recordStart rfl
        (fun _ hrow hstatus => mem_updateAt_of_guard hrow (by rw [hstatus]; rfl)) fun row hrow _ _ hidle => .inl ?_
      exact mem_of_updateAt_of_not (P := fun row : UnitResult => row.status ≠ .running) hrow
        (fun _ _ hfalse => hfalse rfl) hidle
  | @persisted index execution run plan wave unit outcome waves signal hindex hexecuting =>
      obtain ⟨stored, hattends⟩ := hsound.attended _ _ _ _ _ hindex hexecuting
      obtain ⟨deploymentRunId, was, progress⟩ := execution
      obtain rfl : progress = _ := hexecuting
      obtain rfl : stored.id = deploymentRunId := hattends.id
      simp only [System.keepsTrust, hindex] at hkeeps
      dsimp only
      rw [← hattends.task, ← hattends.environment]
      split at hkeeps
      · rename_i hsuccess
        obtain ⟨row, hrow, hwanted⟩ := List.any_eq_true.mp hkeeps
        rw [Bool.and_eq_true, Bool.and_eq_true, beq_iff_eq, beq_iff_eq, beq_iff_eq] at hwanted
        exact h.toRecorded.persistSuccess h.latest hsound hattends hsuccess
          ⟨row, hrow, hwanted.1.1, hwanted.1.2, hwanted.2⟩
      · rename_i hunsuccessful
        refine h.toRecorded.transact hwell hattends.mem within_persistUnitOutcome ?_
          (fun _ hrow hstatus => mem_updateAt_of_guard hrow (by rw [hstatus]; rfl))
          fun row hrow hid hstarted hidle => ?_
        · rw [Database.persistUnitOutcome, if_neg hunsuccessful]
        · refine (mem_results_of_persist_cases hrow).imp_right ?_
          rintro ⟨-, hunit, -, old, hold, hidentity, hrunning⟩
          obtain ⟨hsameId, hsameUnit, -⟩ := UnitResult.of_identity hidentity
          have hany : (system.database.unitResults.any fun row =>
              row.deploymentRunId == stored.id && row.unitId == unit.item.unitId &&
                row.status == .running) = true :=
            List.any_eq_true.mpr ⟨old, hold, by simp [hsameId, hid, hsameUnit, hunit, hrunning]⟩
          rw [hany, Bool.true_and, Bool.not_eq_true', List.any_eq_false] at hkeeps
          rw [hunit]
          simpa using hkeeps stored hattends.mem
  | @closed index execution run plan canceled signal hindex hexecuting =>
      obtain ⟨stored, hattends⟩ := hsound.attended _ _ _ _ _ hindex hexecuting
      rw [← hattends.id]
      refine h.toRecorded.transact hwell hattends.mem within_closePendingResults rfl
        (fun _ hrow hstatus => mem_updateAt_of_guard hrow (by rw [hstatus]; rfl)) fun row hrow _ hstarted _ => .inl ?_
      exact mem_of_notStarted (fun _ => by cases canceled <;> rfl) hrow hstarted
  | finalized signal outcome hindex hexecuting =>
      obtain ⟨stored, hattends⟩ := hsound.attended _ _ _ _ _ hindex hexecuting
      rw [← hattends.id]
      exact h.toRecorded.transact hwell hattends.mem (within_recordFinalStatus hwell hattends.mem)
        rfl (fun _ hrow _ => hrow) fun _ hrow _ _ _ => .inl hrow
  | unchanged hactive => exact h.toRecorded
  | canceledQueued actor actor' hrun hqueued =>
      exact h.toRecorded.transact hwell hrun within_cancelQueued rfl (fun _ hrow hstatus => mem_updateAt_of_guard hrow (by rw [hstatus]; rfl))
        fun row hrow _ hstarted _ => .inl (mem_of_notStarted (fun _ => rfl) hrow hstarted)
  | canceledRunning actor actor' hrun hrunning =>
      exact h.toRecorded.transact hwell hrun within_cancelRunning rfl (fun _ hrow _ => hrow)
        fun _ hrow _ _ _ => .inl hrow
  | @failed index execution run summary counts hindex hrun hid hstatus =>
      have hright : system.database.misjudges run = false := by
        simp only [System.keepsTrust, hindex, Bool.not_eq_true', List.any_eq_false] at hkeeps
        simpa [hid] using hkeeps run hrun
      exact h.toRecorded.transact hwell hrun within_recordInternalError rfl
        (fun _ hrow hstatus => mem_updateAt_of_guard hrow (by rw [hstatus]; rfl)) fun row hrow _ hstarted _ =>
          not_callsHealthy_of_interrupted hright hrow hstarted
  | restarted => exact h.toRecorded
  | reconciled hserving =>
      refine h.toRecorded.reconcile hsound.consistent fun run hrun hrunning => ?_
      simp only [System.keepsTrust, Bool.not_eq_true', List.any_eq_false] at hkeeps
      simpa [hrunning] using hkeeps run hrun
  | confirmed actor note actor' note' counts hrun hreconciling =>
      exact h.toRecorded.transact hwell hrun within_recordConfirmation rfl (fun _ hrow _ => hrow)
        fun _ hrow _ _ _ => .inl hrow
  | edited =>
      refine ⟨fun state hstate hhealthy => ?_, h.resultKeys⟩
      obtain ⟨attempt, hattempt, hstatus, hrelease, hfingerprint, hlast⟩ :=
        h.backed state hstate hhealthy
      exact ⟨attempt, ⟨hattempt.mem, hattempt.unit, hattempt.started, hattempt.run⟩, hstatus,
        hrelease, hfingerprint, fun other hother =>
          hlast other ⟨hother.mem, hother.unit, hother.started, hother.run⟩⟩

theorem trusted_of_reached
    (h : Reached (orchestrator digests) (fun system action => system.keepsTrust action = true)
      system) : Trusted system.database := by
  refine Reached.invariant (P := fun system : System => Trusted system.database) h ?_ ?_
  · rintro start ⟨hruns, hresults, -, -, -, hstates, -⟩
    refine ⟨⟨fun state hstate => ?_, ?_⟩, fun run hrun => ?_⟩
    · rw [hstates] at hstate
      cases hstate
    · simp [Keyed, hresults]
    · rw [hruns] at hrun
      cases hrun
  · intro before action after reached hkeeps htrusted hstep
    have hsteps := steps_of_step hstep
    exact ⟨htrusted.step (sound_of_reachable reached.reachable) hkeeps hsteps,
      latest_of_steps hsteps htrusted.latest⟩

/-- In a run whose steps keep the node states right, every skip is trustworthy. -/
theorem skips_trusted
    (h : Reached (orchestrator digests) (fun system action => system.keepsTrust action = true)
      system) : SkipsTrusted digests system.database :=
  (trusted_of_reached h).skipsTrusted digests

end Steps

section Examples

/-- Release 1 succeeds. -/
def deployFirst : List Action :=
  [.reconcile] ++ Sample.launch 1 1 0 ++ Sample.conclude 0 (.success "started") 3

/-- Then release 2 fails. -/
def deploySecond : List Action :=
  deployFirst ++ Sample.launch 2 2 1 ++ Sample.conclude 1 (.failed "exit" "exit 1" (some 1)) 4

def skipTarget : TargetUnitState :=
  { unitId := 1, unitKey := "api", unitReleaseId := some 1, releaseVersion := some "1.0.0"
    releaseVersionCode := some 1, desiredStatus := "active", stageNo := 1, unitOrder := 1
    removalOrder := 1, targetFingerprint := "one" }

/-- What a plan for release 1 is built from, after either of them. -/
def skipInput : DeploymentPlanInput :=
  { appId := 1, environmentId := 1, appReleaseId := 1, configRevisionId := 1, mode := .normal
    targetNodeIds := [1], targetUnits := [skipTarget]
    currentStates := [⟨1, 1, .healthy, some 1, some 1, "one", "1.0.0"⟩] }

def skipItem : DeploymentPlanItem := planItem .normal skipInput.currentStates [1] skipTarget

def skipPlan : DeploymentPlan :=
  { appId := 1, environmentId := 1, appReleaseId := 1, configRevisionId := 1, mode := .normal
    targetNodeIds := [1], items := [skipItem], planHash := "plan" }

/-- After the success the unit is skipped, and its last attempt was this success. -/
theorem skip_after_success : ∃ system,
    ((orchestrator Sample.digests).restrict System.keepsTrust).exec Sample.installation
        deployFirst = some system ∧
      ∃ attempt, IsAttempt system.database 1 1 1 attempt ∧ attempt.status = .success ∧
        attempt.unitReleaseId = some 1 := by
  obtain ⟨system, hexec, hfacts⟩ := Option.map_eq_some_iff.mp (show
    (((orchestrator Sample.digests).restrict System.keepsTrust).exec Sample.installation
        deployFirst).map
      (fun system => (system.database.planInput Sample.digests 1 1 .normal,
        system.database.unitResults.all fun row => row.status != .running)) =
      some (.ok skipInput, true) from rfl)
  obtain ⟨hinput, hidle⟩ := Prod.mk.inj hfacts
  have hstart : Reachable ((orchestrator Sample.digests).restrict System.keepsTrust)
      Sample.installation := .start ⟨rfl, rfl, rfl, rfl, rfl, rfl, rfl, rfl⟩
  have hreached := Reached.of_restrict (hstart.exec hexec)
  obtain ⟨attempt, hattempt, hsuccess, hrelease, -⟩ := skips_trusted hreached 1 1 skipInput
    skipPlan hinput rfl skipTarget List.mem_cons_self rfl skipItem List.mem_cons_self rfl rfl 1
    List.mem_cons_self fun row hrow => by
      simpa using List.all_eq_true.mp hidle row hrow.mem
  exact ⟨system, hexec, attempt, hattempt, hsuccess, hrelease⟩

/-- After the failure the unit is skipped as well, though its last attempt failed. -/
theorem skip_after_failure : ¬ ∀ system, Reachable (orchestrator Sample.digests) system →
    SkipsTrusted Sample.digests system.database := by
  intro h
  obtain ⟨system, hexec, hfacts⟩ := Option.map_eq_some_iff.mp (show
    ((orchestrator Sample.digests).exec Sample.installation deploySecond).map
      (fun system => (system.database.planInput Sample.digests 1 1 .normal,
        system.database.unitResults.all (fun row => row.status != .running),
        system.database.unitResults.all (fun row =>
          row.status != .success || row.deploymentRunId == 1),
        system.database.unitResults.any (fun row => row.deploymentRunId == 2 &&
          row.unitId == 1 && row.status == .failed),
        system.database.runs.any fun run => run.id == 2 && run.environmentId == 1 &&
          run.targets 1)) =
      some (.ok skipInput, true, true, true, true) from rfl)
  obtain ⟨hinput, hidle, hsuccesses, hfailures, hruns⟩ : _ ∧ _ ∧ _ ∧ _ ∧ _ := by
    simpa only [Prod.mk.injEq] using hfacts
  obtain ⟨attempt, hattempt, hsuccess, -, -, hlast⟩ :=
    h system (Sample.reachable_of_installation hexec) 1 1 skipInput skipPlan hinput rfl skipTarget
      List.mem_cons_self rfl skipItem List.mem_cons_self rfl rfl 1 List.mem_cons_self
      fun row hrow => by simpa using List.all_eq_true.mp hidle row hrow.mem
  obtain ⟨failed, hmem, hfailed⟩ := List.any_eq_true.mp hfailures
  obtain ⟨run, hrun, hkeys⟩ := List.any_eq_true.mp hruns
  have hfirst := List.all_eq_true.mp hsuccesses attempt hattempt.mem
  simp only [Bool.and_eq_true, beq_iff_eq] at hfailed hkeys
  have hfirst : attempt.deploymentRunId = 1 := by simpa [hsuccess] using hfirst
  have hother : IsAttempt system.database 1 1 1 failed :=
    ⟨hmem, hfailed.1.2, by rw [hfailed.2]; rfl, run, hrun, hkeys.1.1.trans hfailed.1.1.symm,
      hkeys.1.2, hkeys.2⟩
  have hlt := hlast failed hother fun heq => by
    rw [heq, hsuccess] at hfailed
    cases hfailed.2
  rw [hfailed.1.1, hfirst] at hlt
  exact absurd hlt (by decide)

end Examples

end EasyDeploy.Orchestrator
