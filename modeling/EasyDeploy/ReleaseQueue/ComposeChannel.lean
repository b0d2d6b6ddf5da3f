import Mathlib.Data.List.Perm.Subperm
import EasyDeploy.ReleaseQueue.TaskExclusion

/-!
# The channel to the compose worker

The compose worker takes its jobs from a channel of limited capacity, and after
a successful deployment it sends the next job of the application into the same
channel. A sender waits while the channel is full. The worker waits on itself
where it finds the channel full, since nobody else takes a job.
-/

namespace EasyDeploy.ReleaseQueue
open Foundation
open Foundation.Transition
open Orchestrator (TaskStatus)

/-- How many jobs wait at most. -/
def composeTaskQueueCapacity : Nat := 100

/-- The task whose job a dispatch is about to send. -/
def DispatchStage.carries : DispatchStage → List Int
  | marking _ taskId | announcing _ taskId | logging _ taskId | sending _ taskId => [taskId]
  | _ => []

/-- The task whose job the compose worker is about to send. -/
def Work.carries (work : Work) : List Int :=
  match work.stage with
  | .dispatching stage => stage.carries
  | _ => []

/-- A dispatch is at its send. -/
def DispatchStage.sends : DispatchStage → Bool
  | sending _ _ => true
  | _ => false

/-- The worker is at the send of its next job. -/
def Work.sends (work : Work) : Bool :=
  match work.stage with
  | .dispatching stage => stage.sends
  | _ => false

theorem Work.sends_iff {work : Work} : work.sends = true ↔
    ∃ job item taskId, work = ⟨job, .dispatching (.sending item taskId)⟩ := by
  constructor
  · obtain ⟨job, stage⟩ := work
    intro h
    cases stage with
    | dispatching stage =>
        cases stage with
        | sending item taskId => exact ⟨job, item, taskId, rfl⟩
        | _ => cases h
    | _ => cases h
  · rintro ⟨job, item, taskId, rfl⟩
    rfl

namespace World

/-- The steps that put a job into the channel. -/
def sends (world : World) : Action → Bool
  | .sendComposeTask _ works => works
  | .dispatch works => works && world.dispatcher.any (·.stage.sends)
  | .work works => works && world.worker.any (·.sends)
  | _ => false

/-- The worker is at the send of its next job while the channel is full. -/
def WaitsOnItself (capacity : Nat) (world : World) : Prop :=
  world.channel.length = capacity ∧
    ∃ job item taskId, world.worker = some ⟨job, .dispatching (.sending item taskId)⟩

end World

/-- The interleavings of the workers and the requests, where a job is sent when there is room. -/
def boundedInterleaving (capacity : Nat) : Transition World Action :=
  interleaving.restrict fun world action =>
    !(world.sends action && decide (capacity ≤ world.channel.length))

namespace World

variable (world : World)

/-- The task whose job the worker is about to send. -/
def carried : List Int := world.worker.elim [] Work.carries

/-- The tasks of the jobs that wait for the worker or are about to be sent. -/
def heading : List Int :=
  world.dispatcher.elim [] (·.stage.carries) ++
    (world.carried ++ (world.submitting ++ world.channel).map (·.taskId))

/-- The queued tasks, and the jobs on their way whose task is no longer queued. -/
def load : Nat :=
  world.store.tasks.countP (·.status == .queued) +
    world.heading.countP fun taskId => world.store.taskStatus taskId != some .queued

/-- The steps that create a task for the worker, or for others while the worker has a job to
send. -/
def createsBeside : Action → Bool
  | .createComposeTask _ _ => !world.carried.isEmpty
  | .dispatch works => works && !world.carried.isEmpty && world.dispatcher.any fun dispatch =>
      match dispatch.stage with
      | .creatingTask _ => true
      | _ => false
  | .work works => works && world.worker.any fun work =>
      match work.stage with
      | .dispatching (.creatingTask _) => true
      | _ => false
  | _ => false

/-- There is room for the job of every task that is created beside a job of the worker. -/
def Roomy (capacity : Nat) (world : World) (action : Action) : Prop :=
  world.createsBeside action = true → world.load < capacity

instance (capacity : Nat) (action : Action) : Decidable (world.Roomy capacity action) :=
  inferInstanceAs (Decidable (_ → _))

/-- The jobs on their way belong to different tasks that exist, and fit into the channel when one
of them is the worker's. -/
structure Ahead (capacity : Nat) : Prop where
  known : ∀ taskId ∈ world.heading, (world.store.taskStatus taskId).isSome = true
  distinct : world.heading.Nodup
  room : world.carried ≠ [] → world.heading.length ≤ capacity

end World

/-- A dispatch adds a job only when it creates its task. -/
theorem DispatchStage.step_carries (stage : DispatchStage) (works : Bool) (appId : Int)
    (store : Store) (channel : List ComposeTaskJob) {stage' : Option DispatchStage}
    {store' : Store} {channel' : List ComposeTaskJob}
    (h : stage.step works appId store channel = (stage', store', channel')) :
    ((stage'.elim [] carries ++ channel'.map (·.taskId)).Perm
        (stage.carries ++ channel.map (·.taskId)) ∨
      stage'.elim [] carries = [] ∧ channel' = channel) ∧
      (stage'.elim [] carries ≠ [] → stage.carries ≠ []) ∨
    works = true ∧ channel' = channel ∧ ∃ item taskId, stage = .creatingTask item ∧
      store.createTask .releaseDeploy (some appId) (some item.releaseId) = .ok (taskId, store') ∧
      stage' = some (.marking item taskId) := by
  cases works with
  | false =>
      obtain ⟨rfl, -, rfl⟩ : stage' = stage.interrupt ∧ store' = store ∧ channel' = channel := by
        simpa [step, eq_comm] using h
      refine .inl ⟨.inr ⟨?_, rfl⟩, ?_⟩ <;> cases stage <;> first | rfl | exact fun hne => hne.elim rfl
  | true =>
      simp only [step, if_true] at h
      cases stage with
      | creatingTask item =>
          simp only [advance] at h
          split at h
          · obtain ⟨rfl, -, rfl⟩ := by simpa only [Prod.mk.injEq] using h
            exact .inl ⟨.inr ⟨rfl, rfl⟩, fun hne => hne.elim rfl⟩
          · rename_i taskId created hcreate
            obtain ⟨rfl, rfl, rfl⟩ := by simpa only [Prod.mk.injEq] using h
            exact .inr ⟨rfl, rfl, item, taskId, rfl, hcreate, rfl⟩
      | counting =>
          obtain ⟨rfl, -, rfl⟩ := by simpa only [advance, Prod.mk.injEq] using h
          refine .inl ⟨.inr ⟨?_, rfl⟩, fun hne => hne.elim ?_⟩ <;> split <;> rfl
      | selecting =>
          obtain ⟨rfl, -, rfl⟩ := by simpa only [advance, Prod.mk.injEq] using h
          refine .inl ⟨.inr ⟨?_, rfl⟩, fun hne => hne.elim ?_⟩ <;>
            cases store.nextQueueItem appId <;> rfl
      | fetchingApp item =>
          obtain ⟨rfl, -, rfl⟩ := by simpa only [advance, Prod.mk.injEq] using h
          refine .inl ⟨.inr ⟨?_, rfl⟩, fun hne => hne.elim ?_⟩ <;>
            cases item.configSnapshotId <;> rfl
      | marking item taskId =>
          obtain ⟨rfl, -, rfl⟩ := by simpa only [advance, Prod.mk.injEq] using h
          cases (store.markReleaseQueueRunning item.id taskId).1 with
          | false => exact .inl ⟨.inr ⟨rfl, rfl⟩, fun hne => hne.elim rfl⟩
          | true => exact .inl ⟨.inl (.refl _), fun _ => List.cons_ne_nil _ _⟩
      | announcing item taskId | logging item taskId =>
          obtain ⟨rfl, -, rfl⟩ := by simpa only [advance, Prod.mk.injEq] using h
          exact .inl ⟨.inl (.refl _), fun _ => List.cons_ne_nil _ _⟩
      | sending item taskId =>
          obtain ⟨rfl, -, rfl⟩ := by simpa only [advance, Prod.mk.injEq] using h
          refine .inl ⟨.inl ?_, fun hne => hne.elim rfl⟩
          simp [carries]
      | failingRelease item taskId =>
          obtain ⟨rfl, -, rfl⟩ := by simpa only [advance, Prod.mk.injEq] using h
          refine .inl ⟨.inr ⟨?_, rfl⟩, fun hne => hne.elim ?_⟩ <;> cases taskId <;> rfl
      | preparing item | failingItem item taskId | failingTask taskId =>
          obtain ⟨rfl, -, rfl⟩ := by simpa only [advance, Prod.mk.injEq] using h
          exact .inl ⟨.inr ⟨rfl, rfl⟩, fun hne => hne.elim rfl⟩

/-- The worker has no job to send before it dispatches. -/
theorem WorkStage.step_carries {stage : WorkStage} (hstage : ∀ next, stage ≠ .dispatching next)
    (works : Bool) (job : ComposeTaskJob) (store : Store) (channel : List ComposeTaskJob)
    {stage' : Option WorkStage} {store' : Store} {channel' : List ComposeTaskJob}
    (h : stage.step works job store channel = (stage', store', channel')) :
    (stage'.map (⟨job, ·⟩)).elim [] Work.carries = [] ∧ channel' = channel := by
  have hgoOn (success : Bool) : ((goOn success).map (⟨job, ·⟩)).elim [] Work.carries = [] := by
    cases success <;> rfl
  have hbehind (success : Bool) :
      ((behindTask job success).map (⟨job, ·⟩)).elim [] Work.carries = [] := by
    unfold behindTask
    split
    · rfl
    · exact hgoOn success
  cases works with
  | false =>
      obtain ⟨rfl, -, rfl⟩ : stage' = stage.interrupt job ∧ store' = store ∧ channel' = channel := by
        simpa [step, eq_comm] using h
      refine ⟨?_, rfl⟩
      cases stage with
      | dispatching next => exact absurd rfl (hstage next)
      | finishingTask success => exact hbehind success
      | _ => rfl
  | true =>
      simp only [step, if_true] at h
      cases stage with
      | dispatching next => exact absurd rfl (hstage next)
      | starting =>
          simp only [advance] at h
          split at h <;>
            · obtain ⟨rfl, -, rfl⟩ := by simpa only [Prod.mk.injEq] using h
              exact ⟨rfl, rfl⟩
      | lookingUp =>
          obtain ⟨rfl, -, rfl⟩ := by simpa only [advance, Prod.mk.injEq] using h
          refine ⟨?_, rfl⟩
          cases store.activeItemOf job.taskId <;> rfl
      | finishingTask success =>
          obtain ⟨rfl, -, rfl⟩ := by simpa only [advance, Prod.mk.injEq] using h
          exact ⟨hbehind success, rfl⟩
      | finishingRelease releaseId success =>
          obtain ⟨rfl, -, rfl⟩ := by simpa only [advance, Prod.mk.injEq] using h
          exact ⟨hgoOn success, rfl⟩
      | logging | preflight | failingItem | failingRelease | failingTask | deploying
      | finishingItem =>
          obtain ⟨rfl, -, rfl⟩ := by simpa only [advance, Prod.mk.injEq] using h
          exact ⟨rfl, rfl⟩

/-- A dispatch of the worker is a dispatch. -/
theorem WorkStage.step_dispatching (stage : DispatchStage) (works : Bool) (job : ComposeTaskJob)
    (store : Store) (channel : List ComposeTaskJob) :
    (dispatching stage).step works job store channel =
      ((stage.step works job.appId store channel).1.map dispatching,
        (stage.step works job.appId store channel).2) := by
  cases works <;> rfl

namespace World

variable {world world' : World} {capacity : Nat}

/-- Jobs on their way to the worker do not exceed the load. -/
theorem Ahead.heading_le (h : world.Ahead capacity) : world.heading.length ≤ world.load := by
  rw [load, List.length_eq_countP_add_countP
    (fun taskId => world.store.taskStatus taskId == some .queued) (l := world.heading)]
  refine Nat.add_le_add ?_ (le_of_eq (List.countP_congr fun taskId _ => by simp))
  have hsub : (world.heading.filter fun taskId =>
      world.store.taskStatus taskId == some .queued).Subperm
      ((world.store.tasks.filter (·.status == .queued)).map (·.id)) := by
    refine (h.distinct.filter _).subperm fun taskId hmem => ?_
    obtain ⟨-, hqueued⟩ := List.mem_filter.mp hmem
    obtain ⟨task, hfind, hstatus⟩ := Option.map_eq_some_iff.mp (beq_iff_eq.mp hqueued)
    exact List.mem_map.mpr ⟨task, List.mem_filter.mpr
      ⟨List.mem_of_find?_eq_some hfind, beq_iff_eq.mpr hstatus⟩, by simpa using List.find?_some hfind⟩
  simpa [List.countP_eq_length_filter] using hsub.length_le

/-- A step adds no job to those on their way, or creates a task and adds its job. -/
theorem step_heading {action : Action} (h : world.step action = some world') :
    world'.heading.Subperm world.heading ∧ (world'.carried ≠ [] → world.carried ≠ []) ∨
    ∃ kind appId releaseId taskId,
      world.store.createTask kind appId releaseId = .ok (taskId, world'.store) ∧
      world'.heading.Perm (taskId :: world.heading) ∧
      (world'.carried ≠ [] → world.createsBeside action = true) := by
  have hsubperm {left right : List Int} (h : ∀ taskId, left.count taskId ≤ right.count taskId) :
      left.Subperm right := List.subperm_ext_iff.mpr fun taskId _ => h taskId
  cases action with
  | createComposeTask kind appId =>
      simp only [step] at h
      split at h
      · rename_i taskId store hcreate
        obtain rfl := Option.some.inj h
        refine .inr ⟨_, _, _, _, hcreate, List.perm_iff_count.mpr fun other => ?_, fun hne => ?_⟩
        · simp only [heading, carried, List.count_append, List.map_append, List.count_cons,
            List.map_cons, List.map_nil, List.count_nil]
          omega
        · exact (Bool.not_eq_true' _).mpr (List.isEmpty_eq_false_iff.mpr hne)
      · cases h
  | sendComposeTask job works =>
      simp only [step] at h
      split at h
      · rename_i hmem
        have hcount (taskId : Int) := (List.perm_cons_erase hmem).map (·.taskId) |>.count_eq taskId
        split at h <;> obtain rfl := Option.some.inj h
        all_goals
          refine .inl ⟨hsubperm fun taskId => ?_, id⟩
          have := hcount taskId
          simp only [heading, carried, List.count_append, List.map_append, List.count_cons,
            List.map_cons, List.map_nil, List.count_nil] at this ⊢
          omega
      · cases h
  | dispatch works =>
      obtain ⟨dispatch, hdispatch, rfl⟩ := Option.map_eq_some_iff.mp h
      rcases hstep : dispatch.stage.step works dispatch.appId world.store world.channel with
        ⟨stage', store', channel'⟩
      have hbefore : world.dispatcher.elim [] (·.stage.carries) = dispatch.stage.carries := by
        rw [hdispatch, Option.elim_some]
      have hafter : (stage'.map fun stage => (⟨dispatch.appId, stage⟩ : Dispatch)).elim []
          (·.stage.carries) = stage'.elim [] DispatchStage.carries := by cases stage' <;> rfl
      rcases dispatch.stage.step_carries works dispatch.appId world.store world.channel hstep with
        ⟨hkept | ⟨hnone, rfl⟩, -⟩ | ⟨rfl, rfl, item, taskId, hstage, hcreate, rfl⟩
      · refine .inl ⟨hsubperm fun taskId => ?_, id⟩
        have := hkept.count_eq taskId
        simp only [heading, carried, List.count_append, List.map_append, hbefore, hafter] at this ⊢
        omega
      · refine .inl ⟨hsubperm fun taskId => ?_, id⟩
        simp only [heading, carried, List.count_append, hafter, hnone, List.count_nil]
        omega
      · refine .inr ⟨_, _, _, _, hcreate, List.perm_iff_count.mpr fun other => ?_, fun hne => ?_⟩
        · simp only [heading, carried, List.count_append, hbefore, hafter, List.count_cons]
          simp only [hstage, Option.elim_some, DispatchStage.carries, List.count_singleton,
            List.count_nil]
          omega
        · have hsome : world.carried.isEmpty = false := List.isEmpty_eq_false_iff.mpr hne
          simp [createsBeside, hsome, hdispatch, hstage]
  | work works =>
      obtain ⟨work, hwork, rfl⟩ := Option.map_eq_some_iff.mp h
      have hbefore : world.worker.elim [] Work.carries = work.carries := by
        rw [hwork, Option.elim_some]
      by_cases hother : ∀ next, work.stage ≠ .dispatching next
      · rcases hstep : work.stage.step works work.job world.store world.channel with
          ⟨stage', store', channel'⟩
        obtain ⟨hnone, rfl⟩ := WorkStage.step_carries hother works _ _ _ hstep
        refine .inl ⟨hsubperm fun taskId => ?_, fun hne => hne.elim hnone⟩
        simp only [heading, carried, List.count_append, hnone, List.count_nil]
        omega
      · obtain ⟨next, hnext⟩ := not_forall_not.mp hother
        have hcarries : work.carries = next.carries := by rw [Work.carries, hnext]
        rcases hstep : next.step works work.job.appId world.store world.channel with
          ⟨stage', store', channel'⟩
        rw [hnext, WorkStage.step_dispatching, hstep]
        have hafter : ((stage'.map WorkStage.dispatching).map fun stage =>
            (⟨work.job, stage⟩ : Work)).elim [] Work.carries =
              stage'.elim [] DispatchStage.carries := by cases stage' <;> rfl
        rcases next.step_carries works work.job.appId world.store world.channel hstep with
          ⟨hkept | ⟨hnone, rfl⟩, hcarried⟩ | ⟨rfl, rfl, item, taskId, rfl, hcreate, rfl⟩
        · refine .inl ⟨hsubperm fun taskId => ?_, ?_⟩
          · have := hkept.count_eq taskId
            simp only [heading, carried, List.count_append, List.map_append, hbefore, hcarries,
              hafter] at this ⊢
            omega
          · simpa only [carried, hafter, hbefore, hcarries] using hcarried
        · refine .inl ⟨hsubperm fun taskId => ?_, ?_⟩
          · simp only [heading, carried, List.count_append, hafter, hnone, List.count_nil]
            omega
          · simpa only [carried, hafter, hbefore, hcarries] using hcarried
        · refine .inr ⟨_, _, _, _, hcreate, List.perm_iff_count.mpr fun other => ?_, fun _ => ?_⟩
          · simp only [heading, carried, List.count_append, hbefore, hcarries, hafter,
              List.count_cons]
            simp only [Option.elim_some, DispatchStage.carries, List.count_singleton,
              List.count_nil]
            omega
          · simp [createsBeside, hwork, hnext]
  | takeJob =>
      simp only [step] at h
      split at h
      · rename_i job channel hworker hchannel
        obtain rfl := Option.some.inj h
        refine .inl ⟨hsubperm fun taskId => ?_, fun hne => hne.elim rfl⟩
        simp only [heading, carried, List.count_append, List.map_append, hchannel, List.map_cons,
          List.count_cons, Option.elim_some, Work.carries, List.count_nil]
        omega
      · cases h
  | readRelease releaseId scheduledPublishAt =>
      obtain ⟨_, -, rfl⟩ := Option.map_eq_some_iff.mp h
      exact .inl ⟨.refl _, id⟩
  | startDispatch appId =>
      simp only [step] at h
      split at h
      · rename_i hidle
        obtain rfl := Option.some.inj h
        refine .inl ⟨hsubperm fun taskId => ?_, id⟩
        simp only [heading, carried, hidle, Option.elim_some, Option.elim_none,
          DispatchStage.carries, le_refl]
      · cases h
  | readItem queueId =>
      simp only [step] at h
      split at h
      · split at h
        · obtain rfl := Option.some.inj h
          exact .inl ⟨.refl _, id⟩
        · cases h
      · cases h
  | checkRelease | commitRelease | commitItem | cancelTask | commitTask | promoteItem
  | cancelScheduledRelease =>
      simp only [step] at h
      split at h
      · obtain rfl := Option.some.inj h
        exact .inl ⟨.refl _, id⟩
      · cases h

end World

namespace World

variable {world world' : World} {capacity : Nat}

theorem Initial.ahead (h : world.Initial) : world.Ahead capacity := by
  obtain ⟨hchannel, hdispatcher, hworker, -, -, -, hsubmitting, -⟩ := h
  have hcarried : world.carried = [] := by rw [carried, hworker, Option.elim_none]
  have hheading : world.heading = [] := by
    rw [heading, hcarried, hdispatcher, hsubmitting, hchannel]
    rfl
  exact ⟨hheading ▸ fun _ hmem => absurd hmem List.not_mem_nil, hheading ▸ List.nodup_nil,
    fun hne => absurd hcarried hne⟩

theorem Ahead.step (h : world.Ahead capacity) {action : Action}
    (hroomy : world.Roomy capacity action) (hstep : world.step action = some world') :
    world'.Ahead capacity := by
  have hknown (taskId : Int) (hmem : taskId ∈ world.heading) :
      (world'.store.taskStatus taskId).isSome = true :=
    (step_tasks hstep).known (h.known taskId hmem)
  rcases step_heading hstep with
    ⟨hsub, hcarried⟩ | ⟨kind, appId, releaseId, taskId, hcreate, hperm, hbeside⟩
  · have hdistinct : world'.heading.Nodup := by
      obtain ⟨kept, hperm, hsublist⟩ := hsub
      exact hperm.nodup_iff.mp (hsublist.nodup h.distinct)
    exact ⟨fun taskId hmem => hknown taskId (hsub.subset hmem), hdistinct,
      fun hne => hsub.length_le.trans (h.room (hcarried hne))⟩
  · obtain ⟨-, hfresh, hqueued, -⟩ := Store.createTask_eq_ok hcreate
    refine ⟨fun other hmem => ?_, hperm.nodup_iff.mpr (List.nodup_cons.mpr ⟨fun hmem => ?_,
      h.distinct⟩), fun hne => ?_⟩
    · rcases List.mem_cons.mp (hperm.mem_iff.mp hmem) with rfl | hmem
      · rw [hqueued]
        rfl
      · exact hknown other hmem
    · have hsome := h.known taskId hmem
      rw [hfresh] at hsome
      cases hsome
    · rw [hperm.length_eq, List.length_cons]
      exact lt_of_le_of_lt h.heading_le (hroomy (hbeside hne))

/-- The worker finds room for its job. -/
theorem Ahead.not_waits (h : world.Ahead capacity) : ¬ world.WaitsOnItself capacity := by
  rintro ⟨hfull, job, item, taskId, hworker⟩
  have hcarried : world.carried = [taskId] := by rw [carried, hworker]; rfl
  have hroom := h.room (by rw [hcarried]; exact List.cons_ne_nil _ _)
  rw [heading, hcarried, List.length_append, List.length_append, List.length_map,
    List.length_append, List.length_singleton] at hroom
  omega

end World

theorem ahead_of_reached {capacity : Nat} {world : World}
    (h : (boundedInterleaving capacity).Reached (World.Roomy capacity) world) :
    world.Ahead capacity := by
  refine h.invariant (fun _ hinitial => hinitial.ahead) fun world action world' _ hroomy hahead
    hstep => ?_
  obtain ⟨-, hstep⟩ := Option.ite_none_right_eq_some.mp hstep
  exact hahead.step hroomy hstep

/-- With room for the jobs of the tasks that are created beside it, the worker never waits on
itself. -/
theorem worker_never_waits_on_itself {capacity : Nat} {world : World}
    (h : (boundedInterleaving capacity).Reached (World.Roomy capacity) world) :
    ¬ world.WaitsOnItself capacity :=
  (ahead_of_reached h).not_waits

/-- An application with two releases that wait. -/
def backlog : World :=
  ⟨⟨[⟨1, 1, .queued⟩, ⟨2, 1, .queued⟩],
    [⟨1, 1, 1, some 7, 1, .queued, none, none⟩, ⟨2, 1, 2, some 7, 2, .queued, none, none⟩], []⟩,
    [], none, none, [], [], [], []⟩

theorem initial_backlog : backlog.Initial := by
  refine ⟨rfl, rfl, rfl, rfl, rfl, rfl, rfl, by unfold Keyed; decide, fun item hitem => ?_⟩
  simp only [backlog, List.mem_cons, List.not_mem_nil, or_false] at hitem
  rcases hitem with rfl | rfl <;> exact ⟨nofun, fun _ => rfl, nofun⟩

/-- The first release is deployed, and the worker is about to send the job of the second. -/
def deployFirst : List Action :=
  .startDispatch 1 :: List.replicate 9 (.dispatch true) ++
    .takeJob :: List.replicate 15 (.work true)

/-- The worker submits the next release of the application whose task it has finished. -/
theorem worker_never_waits_on_itself_deployFirst : ∃ world,
    (boundedInterleaving composeTaskQueueCapacity).Reached
      (World.Roomy composeTaskQueueCapacity) world ∧
    (∃ job item taskId, world.worker = some ⟨job, .dispatching (.sending item taskId)⟩) ∧
    ¬ world.WaitsOnItself composeTaskQueueCapacity := by
  let roomy := (boundedInterleaving composeTaskQueueCapacity).restrict fun world action =>
    decide (world.Roomy composeTaskQueueCapacity action)
  have hexec : (roomy.exec backlog deployFirst).any (·.worker.any Work.sends) = true := by
    decide +kernel
  obtain ⟨world, hworld, hsends⟩ := (Option.any_eq_true _ _).mp hexec
  obtain ⟨work, hworker, hsends⟩ := (Option.any_eq_true _ _).mp hsends
  have hstart : roomy.Reachable backlog := .start initial_backlog
  have hreached : (boundedInterleaving composeTaskQueueCapacity).Reached
      (World.Roomy composeTaskQueueCapacity) world :=
    (Reached.of_restrict (hstart.exec hworld)).mono fun _ _ => of_decide_eq_true
  obtain ⟨job, item, taskId, rfl⟩ := Work.sends_iff.mp hsends
  exact ⟨world, hreached, ⟨job, item, taskId, hworker⟩, worker_never_waits_on_itself hreached⟩

/-- A task that is created, sent and canceled. -/
def createAndCancel (taskId : Int) : List Action :=
  [.createComposeTask .composeUp 2, .sendComposeTask ⟨taskId, 2, none, none⟩ true,
    .cancelTask taskId, .commitTask taskId true]

/-- The jobs of canceled tasks of another application fill the channel. -/
theorem worker_waits_on_itself : ¬ ∀ world,
    (boundedInterleaving composeTaskQueueCapacity).Reachable world →
      ¬ world.WaitsOnItself composeTaskQueueCapacity := by
  intro hnever
  have hexec : ((boundedInterleaving composeTaskQueueCapacity).exec backlog (deployFirst ++
      (List.range composeTaskQueueCapacity).flatMap fun n => createAndCancel (3 + n))).any
      (fun world => world.channel.length == composeTaskQueueCapacity &&
        world.worker.any Work.sends) = true := by decide +kernel
  obtain ⟨world, hworld, hfacts⟩ := (Option.any_eq_true _ _).mp hexec
  rw [Bool.and_eq_true, beq_iff_eq] at hfacts
  obtain ⟨work, hworker, hsends⟩ := (Option.any_eq_true _ _).mp hfacts.2
  obtain ⟨job, item, taskId, rfl⟩ := Work.sends_iff.mp hsends
  exact hnever world (.exec (.start initial_backlog) hworld) ⟨hfacts.1, job, item, taskId, hworker⟩

end EasyDeploy.ReleaseQueue
