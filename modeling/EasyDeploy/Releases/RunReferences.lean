import EasyDeploy.Orchestrator.FrozenRuns
import EasyDeploy.Orchestrator.SkipTrust

/-!
# What runs refer to

The application release and the unit releases that runs, node states and
environments name, and how a step of the orchestrator changes them.
-/

namespace EasyDeploy.Orchestrator
open Foundation Foundation.Transition

/-- The statuses of a run end with it, and its plan is the frozen one. -/
def DeploymentRun.Succeeds (run' run : DeploymentRun) : Prop :=
  run'.frozen = run.frozen ∧ (run'.status = run.status ∨ run.status.isActive = true)

theorem DeploymentRun.of_frozen {run run' : DeploymentRun} (h : run'.frozen = run.frozen) :
    run'.id = run.id ∧ run'.appReleaseId = run.appReleaseId ∧ run'.planJson = run.planJson := by
  simp only [DeploymentRun.frozen, FrozenRun.mk.injEq] at h
  tauto

/-- A plan is for the release that was asked for. -/
theorem appReleaseId_of_plan {digests : Digests} {input : DeploymentPlanInput}
    {plan : DeploymentPlan} (h : buildDeploymentPlan digests input = .ok plan) :
    plan.appReleaseId = input.appReleaseId := by
  simp only [buildDeploymentPlan] at h
  split at h
  · cases h
  · split at h
    · cases h
    · split at h
      · cases h
      · split at h
        · cases h
        · obtain rfl := Except.ok.inj h
          rfl

section Folds

variable {database : Database}

/-- What no transaction of the fold changes. -/
theorem foldl_keeps {β : Type} (part : Database → β) {transaction : Database → DeploymentRun → Database}
    (hstep : ∀ database run, part (transaction database run) = part database)
    (runs : List DeploymentRun) (database : Database) :
    part (runs.foldl transaction database) = part database := by
  induction runs generalizing database with
  | nil => rfl
  | cons run runs ih => rw [List.foldl_cons, ih, hstep]

theorem keeps_reconcile {β : Type} (part : Database → β)
    (hcancel : ∀ database run, part (Database.cancelInterrupted database run) = part database)
    (hhold : ∀ database run, part (Database.holdInterrupted database run) = part database) :
    part database.reconcileInterruptedRuns.2 = part database :=
  (foldl_keeps part hhold _ _).trans (foldl_keeps part hcancel _ _)

end Folds

variable {digests : Digests} {system system' : System} {action : Action}

/-- The orchestrator only reads the catalog. -/
theorem catalog_of_steps (h : Steps digests system action system')
    (hedit : ∀ catalog environments, action ≠ .edit catalog environments) :
    system'.database.catalog = system.database.catalog := by
  cases h with
  | reconciled => exact keeps_reconcile (·.catalog) (fun _ _ => rfl) fun _ _ => rfl
  | edited => exact absurd rfl (hedit _ _)
  | _ => rfl

/-- A new node state names the release of an item that an execution has from its plan. -/
theorem runtimeStates_of_steps (hsound : Sound system) (h : Steps digests system action system')
    {state : UnitRuntimeState} (hstate : state ∈ system'.database.runtimeStates) :
    state ∈ system.database.runtimeStates ∨ ∃ run ∈ system.database.runs, ∃ plan,
      run.planJson = .ok plan ∧ ∃ item ∈ plan.items,
        ∀ unitReleaseId, state.activeUnitReleaseId = some unitReleaseId →
          item.unitReleaseId = some unitReleaseId := by
  cases h with
  | reconciled =>
      rw [show _ = system.database.runtimeStates from
        keeps_reconcile (·.runtimeStates) (fun _ _ => rfl) fun _ _ => rfl] at hstate
      exact .inl hstate
  | @persisted index execution run plan wave unit outcome waves signal hindex hexecuting =>
      obtain ⟨stored, hattends⟩ := hsound.attended index execution run plan _ hindex hexecuting
      obtain ⟨log, hreached⟩ := hattends.reachable
      have hitem : unit.item ∈ plan.items := by
        refine items_of_reachable hreached (List.mem_append_right _ ?_)
        exact List.mem_map_of_mem List.mem_cons_self
      dsimp only [Database.persistUnitOutcome] at hstate
      split at hstate
      · rcases mem_deployedStates hstate with ⟨nodeId, -, rfl⟩ | ⟨hold, -⟩
        · refine .inr ⟨stored, hattends.mem, plan, hattends.planned, unit.item, hitem,
            fun unitReleaseId hactive => ?_⟩
          unfold deployedState at hactive
          split at hactive
          · cases hactive
          · exact hactive
        · exact .inl hold
      · exact .inl hstate
  | _ => exact .inl hstate

/-- The current release of an environment is the one from before, or that of a plan whose
execution finalizes. -/
theorem environments_of_steps (h : Steps digests system action system')
    (hedit : ∀ catalog environments, action ≠ .edit catalog environments)
    {environment : Environment} (henvironment : environment ∈ system'.database.environments) :
    (∃ old ∈ system.database.environments,
        old.currentAppReleaseId = environment.currentAppReleaseId) ∨
      ∃ (index : Nat) (execution : Execution) (run : ExecutionRun) (plan : DeploymentPlan)
        (canceled : Bool) (counts : ResultCounts), system.executions[index]? = some execution ∧
        execution.progress = .executing run plan (.finalizing canceled counts) ∧
        environment.currentAppReleaseId = some plan.appReleaseId := by
  have hupdate {environments : List Environment} {target : Int}
      {change : Environment → Environment}
      (hmem : environment ∈ updateAt environments (·.id) target (fun _ => true) change)
      (hchange : ∀ environment,
        (change environment).currentAppReleaseId = environment.currentAppReleaseId) :
      ∃ old ∈ environments, old.currentAppReleaseId = environment.currentAppReleaseId := by
    obtain ⟨old, hold, rfl⟩ := mem_updateAt.mp hmem
    refine ⟨old, hold, ?_⟩
    split
    · exact (hchange old).symm
    · rfl
  cases h with
  | claimed => exact .inl (hupdate henvironment fun _ => rfl)
  | canceledQueued => exact .inl (hupdate henvironment fun _ => rfl)
  | failed => exact .inl (hupdate henvironment fun _ => rfl)
  | confirmed => exact .inl (hupdate henvironment fun _ => rfl)
  | @finalized index execution run plan canceled counts signal outcome hindex hexecuting =>
      obtain ⟨old, hold, rfl⟩ := mem_updateAt.mp henvironment
      split
      · split
        · exact .inr ⟨index, execution, run, plan, canceled, counts, hindex, hexecuting, rfl⟩
        · exact .inl ⟨old, hold, rfl⟩
      · exact .inl ⟨old, hold, rfl⟩
  | reconciled =>
      have hkept : system.database.reconcileInterruptedRuns.2.environments.map
          (·.currentAppReleaseId) = system.database.environments.map (·.currentAppReleaseId) := by
        refine keeps_reconcile (fun database => database.environments.map (·.currentAppReleaseId))
          ?_ ?_
        · exact fun _ _ => map_updateAt fun _ => rfl
        · exact fun _ _ => map_updateAt fun _ => rfl
      have hmem := List.mem_map_of_mem (f := (·.currentAppReleaseId)) henvironment
      exact .inl (List.mem_map.mp (hkept ▸ hmem))
  | edited => exact absurd rfl (hedit _ _)
  | _ => exact .inl ⟨environment, henvironment, rfl⟩

/-- A run after a step succeeds one from before, or has been created for a loaded plan. -/
theorem exists_run_of_steps (hsound : Sound system) (h : Steps digests system action system')
    {run' : DeploymentRun} (hrun' : run' ∈ system'.database.runs) :
    (∃ run ∈ system.database.runs, run'.Succeeds run) ∨
      ∃ environmentId appReleaseId mode plan, system.database.loadDeploymentPlan digests
        environmentId appReleaseId mode = .ok plan ∧
        run'.appReleaseId = plan.appReleaseId ∧ run'.planJson = .ok plan := by
  rcases frozen_of_steps h with hsame | ⟨input, plan, hplan, hinsert⟩
  · have hmem : run'.frozen ∈ system'.database.runs.map (·.frozen) := List.mem_map_of_mem hrun'
    rw [hsame] at hmem
    obtain ⟨run, hrun, hfrozen⟩ := List.mem_map.mp hmem
    refine .inl ⟨run, hrun, hfrozen.symm, ?_⟩
    have hlength := congrArg List.length hsame
    rw [List.length_map, List.length_map] at hlength
    obtain hfollow | ⟨created, hruns, -⟩ := runs_of_steps h
    · obtain ⟨old, hold, hid, -, hstatus⟩ := hfollow.exists_before hrun'
      have hrunId := (DeploymentRun.of_frozen hfrozen).1
      obtain rfl : old = run :=
        hsound.consistent.wellFormed.runIds.eq hold hrun (hid.symm.trans hrunId.symm)
      exact hstatus.imp id fun hmoves => RunStatus.isActive_of_mayMoveTo hmoves.1
    · rw [hruns] at hlength
      simp at hlength
  · rw [hinsert] at hrun'
    rcases List.mem_append.mp hrun' with hold | hnew
    · exact .inl ⟨run', hold, rfl, .inl rfl⟩
    · obtain rfl := List.mem_singleton.mp hnew
      exact .inr ⟨_, _, _, plan, hplan, rfl, rfl⟩

/-- The execution has claimed its run and has not returned. -/
def Execution.isLive (execution : Execution) : Bool :=
  match execution.progress with
  | .executing _ _ (.returned _) => false
  | .executing .. => true
  | _ => false

/-- Every run is executed once, and it is running as long as its execution goes on. -/
structure Alone (system : System) : Prop where
  single : (system.executions.map (·.deploymentRunId)).Nodup
  live : ∀ execution ∈ system.executions, execution.isLive = true →
    ∃ run ∈ system.database.runs, run.id = execution.deploymentRunId ∧ run.status = .running

section Alone

variable {execution execution' : Execution} {index : Nat}

theorem map_deploymentRunId_set (hindex : system.executions[index]? = some execution)
    (hid : execution'.deploymentRunId = execution.deploymentRunId) :
    (system.executions.set index execution').map (·.deploymentRunId) =
      system.executions.map (·.deploymentRunId) := by
  have hmap : (system.executions.map (·.deploymentRunId))[index]? =
      some execution.deploymentRunId := by
    rw [List.getElem?_map, hindex]
    rfl
  obtain ⟨hlt, hget⟩ := List.getElem?_eq_some_iff.mp hmap
  rw [List.map_set, hid, ← hget, List.set_getElem_self]

/-- What an execution becomes that was live if it is now. -/
theorem Alone.replace (h : Alone system) {database : Database}
    (hindex : system.executions[index]? = some execution)
    (hid : execution'.deploymentRunId = execution.deploymentRunId)
    (hkeep : ∀ run ∈ system.database.runs, run.status = .running →
      ∃ run' ∈ database.runs, run'.id = run.id ∧ run'.status = .running)
    (hlive : execution'.isLive = true → execution.isLive = true ∨
      ∃ run ∈ database.runs, run.id = execution.deploymentRunId ∧ run.status = .running) :
    Alone { system with database, executions := system.executions.set index execution' } := by
  have hold {other : Execution} (hother : other ∈ system.executions)
      (hotherLive : other.isLive = true) :
      ∃ run ∈ database.runs, run.id = other.deploymentRunId ∧ run.status = .running := by
    obtain ⟨run, hrun, hrunId, hrunning⟩ := h.live other hother hotherLive
    obtain ⟨run', hrun', hsame, hrunning'⟩ := hkeep run hrun hrunning
    exact ⟨run', hrun', hsame.trans hrunId, hrunning'⟩
  refine ⟨?_, fun other hother hotherLive => ?_⟩
  · show ((system.executions.set index execution').map (·.deploymentRunId)).Nodup
    rw [map_deploymentRunId_set hindex hid]
    exact h.single
  · rcases List.mem_or_eq_of_mem_set hother with hmem | rfl
    · exact hold hmem hotherLive
    · rcases hlive hotherLive with hwas | hnow
      · rw [hid]
        exact hold (List.mem_of_getElem? hindex) hwas
      · rw [hid]
        exact hnow

/-- An update keeps the runs that are running when its change does. -/
theorem exists_running_updateAt {runs : List DeploymentRun} {target : Int}
    {guard : DeploymentRun → Bool} {change : DeploymentRun → DeploymentRun}
    (hid : ∀ run, (change run).id = run.id)
    (hrunning : ∀ run, guard run = true → run.status = .running →
      (change run).status = .running) :
    ∀ run ∈ runs, run.status = .running → ∃ run' ∈ updateAt runs (·.id) target guard change,
      run'.id = run.id ∧ run'.status = .running := by
  intro run hrun hstatus
  refine ⟨_, mem_updateAt.mpr ⟨run, hrun, rfl⟩, ?_⟩
  split
  · rename_i hwanted
    exact ⟨hid run, hrunning run hwanted.2 hstatus⟩
  · exact ⟨rfl, hstatus⟩

theorem Alone.step (h : Alone system) (hsound : Sound system)
    (hsteps : Steps digests system action system')
    (hcalled : ∀ deploymentRunId, action = .executeRun deploymentRunId →
      deploymentRunId ∉ system.executions.map (·.deploymentRunId))
    (hfailed : ∀ index, action = .failRun index → ∀ execution,
      system.executions[index]? = some execution → execution.isLive = false) :
    Alone system' := by
  have hkept : ∀ run ∈ system.database.runs, run.status = .running →
      ∃ run' ∈ system.database.runs, run'.id = run.id ∧ run'.status = .running :=
    fun run hrun hrunning => ⟨run, hrun, rfl, hrunning⟩
  have hruns {database : Database} (hkeep : ∀ run ∈ system.database.runs, run.status = .running →
      ∃ run' ∈ database.runs, run'.id = run.id ∧ run'.status = .running) :
      Alone { system with database } := by
    refine ⟨h.single, fun execution hexecution hlive => ?_⟩
    obtain ⟨run, hrun, hid, hrunning⟩ := h.live execution hexecution hlive
    obtain ⟨run', hrun', hsame, hrunning'⟩ := hkeep run hrun hrunning
    exact ⟨run', hrun', hsame.trans hid, hrunning'⟩
  cases hsteps with
  | created =>
      exact hruns fun run hrun hrunning => ⟨run, List.mem_append_left _ hrun, rfl, hrunning⟩
  | @called deploymentRunId =>
      refine ⟨?_, fun execution hexecution hlive => ?_⟩
      · show ((system.executions ++ _).map (·.deploymentRunId)).Nodup
        rw [List.map_append, List.map_singleton, List.nodup_append]
        refine ⟨h.single, List.nodup_singleton _, fun id hid id' hid' heq => ?_⟩
        obtain rfl := List.mem_singleton.mp hid'
        exact hcalled _ rfl (heq ▸ hid)
      · rcases List.mem_append.mp hexecution with hold | hnew
        · exact h.live execution hold hlive
        · rw [List.mem_singleton.mp hnew] at hlive
          cases hlive
  | signaled hindex => exact h.replace hindex rfl hkept .inl
  | refused error hindex hclaiming => exact h.replace hindex rfl hkept nofun
  | @claimed index execution run stored signal progress hindex hclaiming hstored hid hqueued =>
      refine h.replace hindex rfl
        (exists_running_updateAt (fun _ => rfl) fun _ _ _ => rfl) fun _ => .inr ?_
      refine ⟨_, mem_updateAt.mpr ⟨stored, hstored, rfl⟩, ?_⟩
      rw [if_pos ⟨rfl, beq_iff_eq.mpr hqueued⟩]
      exact ⟨hid, rfl⟩
  | @observed index response execution run plan stage observation stage' signal hindex hexecuting
      hquiet hobserve =>
      refine h.replace hindex rfl hkept fun _ => .inl ?_
      rw [Execution.isLive, hexecuting]
      cases stage with
      | returned result => cases observation <;> cases hobserve
      | _ => rfl
  | started signal hindex hexecuting =>
      exact h.replace hindex rfl hkept fun _ => .inl (by rw [Execution.isLive, hexecuting])
  | persisted signal hindex hexecuting =>
      exact h.replace hindex rfl hkept fun _ => .inl (by rw [Execution.isLive, hexecuting])
  | closed signal hindex hexecuting =>
      exact h.replace hindex rfl hkept fun _ => .inl (by rw [Execution.isLive, hexecuting])
  | @finalized index execution run plan canceled counts signal outcome hindex hexecuting =>
      have hids : (system.executions.set index { execution with
          signal, progress := .executing run plan (.returned (.ok outcome)) }).map
          (·.deploymentRunId) = system.executions.map (·.deploymentRunId) :=
        map_deploymentRunId_set hindex rfl
      have hsingle := h.single
      rw [← hids] at hsingle
      refine ⟨hsingle, fun other hother hlive => ?_⟩
      have hreturned := List.mem_set (List.getElem?_eq_some_iff.mp hindex).1
        { execution with signal, progress := .executing run plan (.returned (.ok outcome)) }
      rcases List.mem_or_eq_of_mem_set hother with hmem | rfl
      · by_cases heq : other.deploymentRunId = execution.deploymentRunId
        · have hsame := List.inj_on_of_nodup_map hsingle hother hreturned heq
          rw [hsame] at hlive
          cases hlive
        · obtain ⟨stored, hstored, hid, hrunning⟩ := h.live other hmem hlive
          exact ⟨stored, mem_updateAt_of_ne hstored fun hsame => heq (hid.symm.trans hsame), hid,
            hrunning⟩
      · cases hlive
  | unchanged => exact h
  | @canceledQueued canceled _ _ actor =>
      have hrequested : ∀ run ∈ system.database.runs, run.status = .running →
          ∃ run' ∈ (system.database.cancelRunning canceled actor).runs,
            run'.id = run.id ∧ run'.status = .running :=
        exists_running_updateAt (fun _ => rfl) fun _ _ hrunning => hrunning
      have hcanceled : ∀ run ∈ (system.database.cancelRunning canceled actor).runs,
          run.status = .running → ∃ run' ∈ (system.database.cancelQueued canceled actor).runs,
            run'.id = run.id ∧ run'.status = .running :=
        exists_running_updateAt (fun _ => rfl) fun run hguard hrunning => by
          rw [hrunning] at hguard
          cases hguard
      refine hruns fun run hrun hrunning => ?_
      obtain ⟨run₁, hrun₁, hid₁, hrunning₁⟩ := hrequested run hrun hrunning
      obtain ⟨run₂, hrun₂, hid₂, hrunning₂⟩ := hcanceled run₁ hrun₁ hrunning₁
      exact ⟨run₂, hrun₂, hid₂.trans hid₁, hrunning₂⟩
  | canceledRunning =>
      exact hruns (exists_running_updateAt (fun _ => rfl) fun _ _ hrunning => hrunning)
  | @failed index execution run summary counts hindex hrun hid hstatus =>
      refine ⟨h.single, fun other hother hlive => ?_⟩
      have hne : other.deploymentRunId ≠ execution.deploymentRunId := fun heq => by
        have hsame := List.inj_on_of_nodup_map h.single hother (List.mem_of_getElem? hindex) heq
        rw [hsame, hfailed index rfl execution hindex] at hlive
        cases hlive
      obtain ⟨stored, hstored, hotherId, hrunning⟩ := h.live other hother hlive
      exact ⟨stored, mem_updateAt_of_ne hstored fun hsame => hne
        (hotherId.symm.trans (hsame.trans hid)), hotherId, hrunning⟩
  | restarted => exact ⟨List.nodup_nil, fun _ hmem => absurd hmem List.not_mem_nil⟩
  | reconciled hserving =>
      have hnone := hsound.idle hserving
      refine ⟨h.single, fun execution hexecution _ => ?_⟩
      rw [show system.executions = [] from hnone] at hexecution
      cases hexecution
  | confirmed actor note actor' note' counts hrun hreconciling =>
      exact hruns (exists_running_updateAt (fun _ => rfl) fun run hguard hrunning => by
        rw [hrunning] at hguard
        cases hguard)
  | edited => exact hruns hkept

end Alone

end EasyDeploy.Orchestrator
