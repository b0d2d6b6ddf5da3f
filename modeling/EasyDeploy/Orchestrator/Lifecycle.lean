import EasyDeploy.Orchestrator.System
import Mathlib.Data.List.Forall2

/-!
# The environment lock and the life cycle of a run

Every operation either appends a queued run to an environment without an active
one, or moves the statuses of runs along the life cycle. No move makes a run
active again, so that an environment never has two active runs.
-/

namespace EasyDeploy.Orchestrator
open Foundation Foundation.Transition

namespace RunStatus

/-- The moves of the life cycle. -/
def mayMoveTo : RunStatus → RunStatus → Bool
  | queued, running | running, reconciling => true
  | queued, next | running, next | reconciling, next => next.isTerminal
  | _, _ => false

theorem isActive_of_mayMoveTo {status next : RunStatus} (h : status.mayMoveTo next = true) :
    status.isActive = true := by
  cases status <;> first | rfl | cases h

/-- An active run may end. -/
theorem mayMoveTo_of_isTerminal {status next : RunStatus} (hactive : status.isActive = true)
    (hterminal : next.isTerminal = true) : status.mayMoveTo next = true := by
  cases status with
  | queued | running | reconciling =>
      cases next <;> first | rfl | cases hterminal
  | success | partialFailed | allFailed | canceled => cases hactive

end RunStatus

/-- The move of a run's status that an action may make; only its confirmation moves a run
out of `reconciling`. -/
def Moves (action : Action) (deploymentRunId : Int) (status next : RunStatus) : Prop :=
  status.mayMoveTo next = true ∧
    (status = .reconciling → ∃ actor note, action = .confirm deploymentRunId actor note)

/-- The moves of an interruption: a waiting run is canceled, and an executed one is held. -/
def Interrupts (_ : Int) (status next : RunStatus) : Prop :=
  (status = .queued ∧ next = .canceled) ∨ (status = .running ∧ next = .reconciling)

theorem Interrupts.trans {id : Int} {a b c : RunStatus} (hab : Interrupts id a b)
    (hbc : Interrupts id b c) : Interrupts id a c := by
  rcases hab with ⟨-, rfl⟩ | ⟨-, rfl⟩ <;> rcases hbc with ⟨h, -⟩ | ⟨h, -⟩ <;> cases h

theorem Interrupts.moves {action : Action} {id : Int} {status next : RunStatus}
    (h : Interrupts id status next) : Moves action id status next := by
  rcases h with ⟨rfl, rfl⟩ | ⟨rfl, rfl⟩ <;> exact ⟨rfl, fun h => by cases h⟩

/-- The runs are the same ones, with statuses that stay or move. -/
def RunsFollow (via : Int → RunStatus → RunStatus → Prop) (before after : List DeploymentRun) :
    Prop :=
  List.Forall₂ (fun run run' => run'.id = run.id ∧ run'.environmentId = run.environmentId ∧
    (run'.status = run.status ∨ via run.id run.status run'.status)) before after

namespace RunsFollow

variable {via via' : Int → RunStatus → RunStatus → Prop} {before after later : List DeploymentRun}

theorem refl (runs : List DeploymentRun) : RunsFollow via runs runs :=
  List.forall₂_same.mpr fun _ _ => ⟨rfl, rfl, .inl rfl⟩

theorem trans (h : RunsFollow via before after)
    (hvia : ∀ {id a b c}, via id a b → via id b c → via id a c)
    (h' : RunsFollow via after later) :
    RunsFollow via before later := by
  induction h generalizing later with
  | nil => exact h'
  | cons hrun _ ih =>
      cases h' with
      | cons hrun' hruns' =>
          refine .cons ⟨hrun'.1.trans hrun.1, hrun'.2.1.trans hrun.2.1, ?_⟩ (ih hruns')
          obtain ⟨hid, -, hstatus⟩ := hrun
          obtain ⟨-, -, hstatus'⟩ := hrun'
          rw [hid] at hstatus'
          rcases hstatus with hsame | hvia₁ <;> rcases hstatus' with hsame' | hvia₂
          · exact .inl (hsame'.trans hsame)
          · exact .inr (hsame ▸ hvia₂)
          · exact .inr (hsame' ▸ hvia₁)
          · exact .inr (hvia hvia₁ hvia₂)

theorem weaken (hvia : ∀ id a b, via id a b → via' id a b) (h : RunsFollow via before after) :
    RunsFollow via' before after :=
  h.imp fun _ _ hrun => ⟨hrun.1, hrun.2.1, hrun.2.2.imp_right (hvia _ _ _)⟩

/-- An update follows when its change does. -/
theorem update {target : Int} {guard : DeploymentRun → Bool}
    {change : DeploymentRun → DeploymentRun} (hid : ∀ run, (change run).id = run.id)
    (henvironment : ∀ run, (change run).environmentId = run.environmentId)
    (hvia : ∀ run, run.id = target → guard run = true →
      (change run).status = run.status ∨ via run.id run.status (change run).status) :
    RunsFollow via before (updateAt before (·.id) target guard change) := by
  refine List.forall₂_map_right_iff.mpr (List.forall₂_same.mpr fun run _ => ?_)
  split
  · rename_i hwanted
    exact ⟨hid run, henvironment run, hvia run hwanted.1 hwanted.2⟩
  · exact ⟨rfl, rfl, .inl rfl⟩

/-- Transactions of one run after the other follow when each of them does. -/
theorem foldl (hvia : ∀ {id a b c}, via id a b → via id b c → via id a c)
    {transaction : Database → DeploymentRun → Database}
    (hstep : ∀ database run, RunsFollow via database.runs (transaction database run).runs)
    (runs : List DeploymentRun) (database : Database) :
    RunsFollow via database.runs (runs.foldl transaction database).runs := by
  induction runs generalizing database with
  | nil => exact .refl _
  | cons run runs ih => exact (hstep database run).trans hvia (ih (transaction database run))

theorem map_id (h : RunsFollow via before after) : after.map (·.id) = before.map (·.id) := by
  induction h with
  | nil => rfl
  | cons hrun _ ih => rw [List.map_cons, List.map_cons, hrun.1, ih]

theorem exists_mem (h : RunsFollow via before after) {run : DeploymentRun} (hrun : run ∈ before) :
    ∃ run' ∈ after, run'.id = run.id ∧
      (run'.status = run.status ∨ via run.id run.status run'.status) := by
  induction h with
  | nil => cases hrun
  | cons hhead _ ih =>
      rcases List.mem_cons.mp hrun with rfl | hrun
      · exact ⟨_, List.mem_cons_self, hhead.1, hhead.2.2⟩
      · obtain ⟨run', hrun', hfollows⟩ := ih hrun
        exact ⟨run', List.mem_cons_of_mem _ hrun', hfollows⟩

theorem exists_before (h : RunsFollow via before after) {run' : DeploymentRun}
    (hrun' : run' ∈ after) : ∃ run ∈ before, run'.id = run.id ∧
      run'.environmentId = run.environmentId ∧
      (run'.status = run.status ∨ via run.id run.status run'.status) := by
  induction h with
  | nil => cases hrun'
  | cons hhead _ ih =>
      rcases List.mem_cons.mp hrun' with rfl | hrun'
      · exact ⟨_, List.mem_cons_self, hhead⟩
      · obtain ⟨run, hrun, hfollows⟩ := ih hrun'
        exact ⟨run, List.mem_cons_of_mem _ hrun, hfollows⟩

end RunsFollow

/-- No run of the environment is active. -/
theorem not_isActive_of_activeRun_eq_none {database : Database} {environmentId : Int}
    (h : database.activeRun environmentId = none) :
    ∀ run ∈ database.runs, run.environmentId = environmentId → run.status.isActive = false := by
  have hlatest : ∀ runs : List DeploymentRun, latestRun runs = none → runs = [] := by
    intro runs hnone
    cases runs with
    | nil => rfl
    | cons run runs =>
        simp only [latestRun] at hnone
        split at hnone
        · cases hnone
        · split at hnone <;> cases hnone
  intro run hrun henvironment
  have hempty := hlatest _ h
  rw [List.filter_eq_nil_iff] at hempty
  simpa [henvironment] using hempty run hrun

/-- Reconciling cancels the queued runs and holds the running ones. -/
theorem runsFollow_reconcile (database : Database) :
    RunsFollow Interrupts database.runs database.reconcileInterruptedRuns.2.runs := by
  have hcancel (database : Database) (run : DeploymentRun) :
      RunsFollow Interrupts database.runs (database.cancelInterrupted run).runs :=
    .update (fun _ => rfl) (fun _ => rfl) fun _ _ hqueued => .inr (.inl ⟨eq_of_beq hqueued, rfl⟩)
  have hhold (database : Database) (run : DeploymentRun) :
      RunsFollow Interrupts database.runs (database.holdInterrupted run).runs :=
    .update (fun _ => rfl) (fun _ => rfl) fun _ _ hrunning => .inr (.inr ⟨eq_of_beq hrunning, rfl⟩)
  exact (RunsFollow.foldl .trans hcancel _ database).trans .trans
    (RunsFollow.foldl .trans hhold _ _)

theorem runsFollow_cancelRunning (database : Database) (run : DeploymentRun) (actor : String) :
    RunsFollow Interrupts database.runs (database.cancelRunning run actor).runs :=
  .update (fun _ => rfl) (fun _ => rfl) fun _ _ _ => .inl rfl

/-- Canceling a queued run first does what canceling a running one does. -/
theorem runsFollow_cancelQueued (database : Database) (run : DeploymentRun) (actor : String) :
    RunsFollow Interrupts database.runs (database.cancelQueued run actor).runs := by
  refine (runsFollow_cancelRunning database run actor).trans .trans ?_
  exact .update (fun _ => rfl) (fun _ => rfl) fun _ _ hqueued =>
    .inr (.inl ⟨eq_of_beq hqueued, rfl⟩)

theorem abortedStatus_isTerminal (counts : ResultCounts) :
    (abortedStatus counts).isTerminal = true := by
  unfold abortedStatus
  split
  · rfl
  · split <;> rfl

theorem finalStatus_isTerminal (counts : ResultCounts) (canceled : Bool) :
    (finalStatus counts canceled).isTerminal = true := by
  unfold finalStatus
  split
  · rfl
  · split
    · rfl
    · split <;> rfl

section Steps

variable {digests : Digests} {system system' : System} {action : Action}

/-- A step lets the statuses follow the life cycle, or appends a queued run to an environment
without an active one. -/
theorem runs_of_steps (h : Steps digests system action system') :
    RunsFollow (Moves action) system.database.runs system'.database.runs ∨
      ∃ run, system'.database.runs = system.database.runs ++ [run] ∧ run.status = .queued ∧
        (∀ old ∈ system.database.runs, old.id < run.id) ∧ ∀ old ∈ system.database.runs,
          old.environmentId = run.environmentId → old.status.isActive = false := by
  have hmove {id : Int} {status next : RunStatus} (hactive : status.isActive = true)
      (hterminal : next.isTerminal = true) (hne : status ≠ .reconciling) :
      Moves action id status next :=
    ⟨RunStatus.mayMoveTo_of_isTerminal hactive hterminal, fun h => absurd h hne⟩
  cases h with
  | created hnone hplan =>
      refine .inr ⟨_, rfl, rfl, fun old hold => lt_nextId (List.mem_map_of_mem hold), ?_⟩
      intro old hold heq
      rw [Database.environmentId_of_loadDeploymentPlan hplan] at heq
      exact not_isActive_of_activeRun_eq_none hnone old hold heq
  | claimed signal progress hindex hclaiming hstored =>
      refine .inl (.update (fun _ => rfl) (fun _ => rfl) fun run _ hqueued => .inr ?_)
      rw [eq_of_beq hqueued]
      exact ⟨rfl, fun h => by cases h⟩
  | finalized signal outcome hindex hexecuting =>
      refine .inl (.update (fun _ => rfl) (fun _ => rfl) fun run _ hrunning => .inr ?_)
      rw [eq_of_beq hrunning]
      exact hmove rfl (finalStatus_isTerminal _ _) (by decide)
  | canceledQueued actor actor' hrun hqueued =>
      exact .inl ((runsFollow_cancelQueued _ _ _).weaken fun _ _ _ => Interrupts.moves)
  | canceledRunning actor actor' hrun hrunning =>
      exact .inl ((runsFollow_cancelRunning _ _ _).weaken fun _ _ _ => Interrupts.moves)
  | failed summary counts hindex hrun hid hstatus =>
      refine .inl (.update (fun _ => rfl) (fun _ => rfl) fun run _ hopen => .inr ?_)
      rw [Bool.or_eq_true, beq_iff_eq, beq_iff_eq] at hopen
      rcases hopen with hqueued | hrunning
      · rw [hqueued]
        exact hmove rfl (abortedStatus_isTerminal counts) (by decide)
      · rw [hrunning]
        exact hmove rfl (abortedStatus_isTerminal counts) (by decide)
  | reconciled hserving =>
      exact .inl ((runsFollow_reconcile _).weaken fun _ _ _ => Interrupts.moves)
  | confirmed actor note actor' note' counts hrun hreconciling =>
      refine .inl (.update (fun _ => rfl) (fun _ => rfl) fun run hid hstatus => .inr ?_)
      rw [eq_of_beq hstatus, hid]
      exact ⟨RunStatus.mayMoveTo_of_isTerminal rfl (abortedStatus_isTerminal counts),
        fun _ => ⟨actor, note, rfl⟩⟩
  | _ => exact .inl (.refl _)

/-- The active runs of an environment. -/
def activeRuns (database : Database) (environmentId : Int) : List DeploymentRun :=
  database.runs.filter fun run => run.environmentId == environmentId && run.status.isActive

/-- Runs that follow the life cycle have no more active ones among them. -/
theorem length_activeRuns_le (h : RunsFollow (Moves action) system.database.runs
    system'.database.runs) (environmentId : Int) :
    (activeRuns system'.database environmentId).length ≤
      (activeRuns system.database environmentId).length := by
  unfold activeRuns
  generalize system.database.runs = before at h
  generalize system'.database.runs = after at h
  induction h with
  | nil => exact Nat.le_refl _
  | @cons run run' _ _ hrun _ ih =>
      obtain ⟨-, henvironment, hstatus⟩ := hrun
      have hactive : run'.status.isActive = true → run.status.isActive = true := by
        rcases hstatus with hsame | hmoves
        · exact fun h => hsame ▸ h
        · exact fun _ => RunStatus.isActive_of_mayMoveTo hmoves.1
      rw [List.filter_cons, List.filter_cons, henvironment]
      by_cases hwanted : (run.environmentId == environmentId && run'.status.isActive) = true
      · rw [Bool.and_eq_true] at hwanted
        rw [if_pos (by simp [hwanted]), if_pos (by simp [hwanted.1, hactive hwanted.2])]
        simpa using ih
      · rw [if_neg hwanted]
        split
        · exact ih.trans (Nat.le_succ _)
        · exact ih

/-- The lock: no environment has two active runs, and runs are told apart by their identifiers. -/
def Exclusive (database : Database) : Prop :=
  Keyed database.runs (·.id) ∧
    ∀ environmentId, (activeRuns database environmentId).length ≤ 1

theorem Exclusive.step (hexclusive : Exclusive system.database)
    (h : Steps digests system action system') : Exclusive system'.database := by
  obtain hfollow | ⟨run, hruns, hqueued, hfresh, hinactive⟩ := runs_of_steps h
  · refine ⟨?_, fun environmentId => ?_⟩
    · rw [Keyed, hfollow.map_id]
      exact hexclusive.1
    · exact (length_activeRuns_le hfollow environmentId).trans (hexclusive.2 environmentId)
  · refine ⟨?_, fun environmentId => ?_⟩
    · rw [hruns]
      refine hexclusive.1.append fun hmem => ?_
      obtain ⟨old, hold, heq⟩ := List.mem_map.mp hmem
      exact (hfresh old hold).ne heq
    · rw [activeRuns, hruns, List.filter_append, List.length_append]
      by_cases hsame : run.environmentId = environmentId
      · have hnone : system.database.runs.filter (fun run =>
            run.environmentId == environmentId && run.status.isActive) = [] := by
          rw [List.filter_eq_nil_iff]
          intro old hold
          have := hinactive old hold
          by_cases heq : old.environmentId = environmentId
          · simp [this (heq.trans hsame.symm)]
          · simp [heq]
        rw [hnone, List.length_nil, Nat.zero_add]
        exact List.length_filter_le _ _
      · simpa [activeRuns, hsame] using hexclusive.2 environmentId

theorem exclusive_of_reachable (h : Reachable (orchestrator digests) system) :
    Exclusive system.database := by
  refine Reached.invariant (P := fun system : System => Exclusive system.database) h ?_ ?_
  · rintro start ⟨hruns, -⟩
    simp [Exclusive, Keyed, activeRuns, hruns]
  · intro before action after _ _ hexclusive hstep
    exact hexclusive.step (steps_of_step hstep)

/-- A run whose status is terminal keeps it. -/
theorem terminal_of_exec {actions : List Action}
    (h : (orchestrator digests).exec system actions = some system') {run : DeploymentRun}
    (hrun : run ∈ system.database.runs) (hterminal : run.status.isTerminal = true) :
    ∃ run' ∈ system'.database.runs, run'.id = run.id ∧ run'.status = run.status := by
  induction actions generalizing system run with
  | nil =>
      obtain rfl := Option.some.inj h
      exact ⟨run, hrun, rfl, rfl⟩
  | cons action actions ih =>
      simp only [Transition.exec] at h
      split at h
      · rename_i next hstep
        obtain ⟨run', hrun', hid, hstatus⟩ : ∃ run' ∈ next.database.runs, run'.id = run.id ∧
            run'.status = run.status := by
          obtain hfollow | ⟨created, hruns, -⟩ := runs_of_steps (steps_of_step hstep)
          · obtain ⟨run', hrun', hid, hsame | hmoves⟩ := hfollow.exists_mem hrun
            · exact ⟨run', hrun', hid, hsame⟩
            · have hactive := RunStatus.isActive_of_mayMoveTo hmoves.1
              rw [RunStatus.isTerminal, hactive] at hterminal
              cases hterminal
          · exact ⟨run, hruns ▸ List.mem_append_left _ hrun, rfl, rfl⟩
        obtain ⟨last, hlast, hlastId, hlastStatus⟩ := ih h hrun' (hstatus ▸ hterminal)
        exact ⟨last, hlast, hlastId.trans hid, hlastStatus.trans hstatus⟩
      · cases h

/-- In every reachable state an environment has at most one active run. Every step lets the status
of a run as it is or moves it along the life cycle, and out of `reconciling` only by its
confirmation; new runs are queued, and a terminal status stays for ever. -/
theorem environment_lock_and_lifecycle (h : Reachable (orchestrator digests) system) :
    (∀ environmentId, (activeRuns system.database environmentId).length ≤ 1) ∧
      (system.database.runs.map (·.id)).Nodup ∧
      (∀ action system', system.step digests action = some system' →
        (∀ run ∈ system.database.runs, ∃ run' ∈ system'.database.runs, run'.id = run.id ∧
          (run'.status = run.status ∨ run.status.mayMoveTo run'.status = true ∧
            (run.status = .reconciling → ∃ actor note, action = .confirm run.id actor note))) ∧
        ∀ run' ∈ system'.database.runs, run'.id ∉ system.database.runs.map (·.id) →
          run'.status = .queued) ∧
      ∀ actions system', (orchestrator digests).exec system actions = some system' →
        ∀ run ∈ system.database.runs, run.status.isTerminal = true →
          ∃ run' ∈ system'.database.runs, run'.id = run.id ∧ run'.status = run.status := by
  obtain ⟨hkeyed, hlock⟩ := exclusive_of_reachable h
  refine ⟨hlock, hkeyed, fun action system' hstep => ?_, fun actions system' hexec run hrun =>
    terminal_of_exec hexec hrun⟩
  obtain hfollow | ⟨created, hruns, hqueued, -⟩ := runs_of_steps (steps_of_step hstep)
  · refine ⟨fun run hrun => hfollow.exists_mem hrun, fun run' hrun' hfresh => absurd ?_ hfresh⟩
    rw [← hfollow.map_id]
    exact List.mem_map_of_mem hrun'
  · rw [hruns]
    refine ⟨fun run hrun => ⟨run, List.mem_append_left _ hrun, rfl, .inl rfl⟩, ?_⟩
    intro run' hrun' hfresh
    rcases List.mem_append.mp hrun' with hold | hnew
    · exact absurd (List.mem_map_of_mem hold) hfresh
    · exact List.mem_singleton.mp hnew ▸ hqueued

/-- The lock of a run that waits for a confirmation. -/
theorem environment_lock_while_reconciling : ∃ system,
    (orchestrator Sample.digests).exec Sample.installation
        ([.reconcile] ++ Sample.launch 1 1 0 ++ [.restart, .reconcile]) = some system ∧
      (activeRuns system.database 1).map (·.status) = [.reconciling] ∧
      ∀ environmentId, (activeRuns system.database environmentId).length ≤ 1 := by
  obtain ⟨system, hexec, hactive⟩ := Option.map_eq_some_iff.mp (rfl :
    ((orchestrator Sample.digests).exec Sample.installation
        ([.reconcile] ++ Sample.launch 1 1 0 ++ [.restart, .reconcile])).map
      (fun system => (activeRuns system.database 1).map (·.status)) = some [.reconciling])
  exact ⟨system, hexec, hactive,
    (environment_lock_and_lifecycle (Sample.reachable_of_installation hexec)).1⟩

end Steps

end EasyDeploy.Orchestrator
