import EasyDeploy.Foundation.Transition
import EasyDeploy.ReleaseQueue.Operations

/-!
# The status of a release and its queue items

Runs of completed operations keep at most one live queue item for each release,
and the status of the release says whether it waits or runs.
-/

namespace EasyDeploy.ReleaseQueue
open Foundation
open Foundation.Transition
open Orchestrator (TaskStatus)

/-- The statuses of the live items that go with the status of a release. -/
def Agrees : ReleaseStatus → List QueueStatus → Prop
  | .queued, statuses => statuses = [.scheduled] ∨ statuses = [.queued]
  | .deploying, statuses => statuses = [.running]
  | _, statuses => statuses = []

namespace Store

variable {store : Store}

/-- An item of a release that has not ended. -/
def isLiveOf (releaseId : Int) (item : QueueItem) : Bool :=
  item.releaseId == releaseId && item.status.isLive

/-- The items of a release that have not ended. -/
def liveOf (queue : List QueueItem) (releaseId : Int) : List QueueItem :=
  queue.filter (isLiveOf releaseId)

/-- The status of every release goes with its live items. -/
def Agreeing (releases : List Release) (queue : List QueueItem) : Prop :=
  ∀ release ∈ releases, Agrees release.status ((liveOf queue release.id).map (·.status))

theorem mem_liveOf {queue : List QueueItem} {releaseId : Int} {item : QueueItem} :
    item ∈ liveOf queue releaseId ↔
      item ∈ queue ∧ item.releaseId = releaseId ∧ item.status.isLive = true := by
  simp [liveOf, isLiveOf]

/-- A live item is the only one of its release. -/
theorem length_le_one_of_agrees {status : ReleaseStatus} {statuses : List QueueStatus}
    (h : Agrees status statuses) : statuses.length ≤ 1 := by
  cases status with
  | queued => rcases h with rfl | rfl <;> rfl
  | deploying => exact le_of_eq (congrArg List.length h)
  | received | deployed | failed | rolledBack | canceled =>
      obtain rfl : statuses = [] := h
      exact Nat.zero_le _

theorem eq_singleton_of_agrees {status : ReleaseStatus} {items : List QueueItem}
    (h : Agrees status (items.map (·.status))) {item : QueueItem} (hitem : item ∈ items) :
    items = [item] := by
  have hlength := length_le_one_of_agrees h
  rw [List.length_map] at hlength
  cases items with
  | nil => cases hitem
  | cons first items =>
      obtain rfl : items = [] := List.eq_nil_of_length_eq_zero (by
        rw [List.length_cons] at hlength
        omega)
      rw [List.mem_singleton.mp hitem]

/-- A release that is neither queued nor deploying has no live item. -/
theorem liveOf_eq_nil {queue : List QueueItem} {release : Release}
    (h : Agrees release.status ((liveOf queue release.id).map (·.status)))
    (hstatus : ¬ (release.status = .queued ∨ release.status = .deploying)) :
    liveOf queue release.id = [] := by
  rw [not_or] at hstatus
  cases hcase : release.status <;> rw [hcase] at h hstatus
  case queued => exact absurd rfl hstatus.1
  case deploying => exact absurd rfl hstatus.2
  all_goals exact List.map_eq_nil_iff.mp h

section Moves

variable {releases : List Release} {queue : List QueueItem} {item : QueueItem}
  {guard : QueueItem → Bool} {change : QueueItem → QueueItem}

/-- The live items of its release after an update of the only live item. -/
theorem liveOf_move_self (hkeyed : Keyed queue (·.id)) (hitem : item ∈ queue)
    (hlive : item.status.isLive = true) (hguard : guard item = true)
    (hrelease : (change item).releaseId = item.releaseId)
    (hsingle : liveOf queue item.releaseId = [item]) :
    liveOf (updateAt queue (·.id) item.id guard change) item.releaseId =
      [change item].filter (·.status.isLive) := by
  obtain ⟨before, after, rfl, hbefore, hafter⟩ := hkeyed.exists_append hitem
  have hself : isLiveOf item.releaseId item = true := by
    simp [isLiveOf, hlive]
  rw [liveOf, List.filter_append, List.filter_cons_of_pos hself] at hsingle
  have hlength := congrArg List.length hsingle
  simp only [List.length_append, List.length_cons, List.length_nil] at hlength
  have hnone : before.filter (isLiveOf item.releaseId) = [] :=
    List.eq_nil_of_length_eq_zero (by omega)
  have hnone' : after.filter (isLiveOf item.releaseId) = [] :=
    List.eq_nil_of_length_eq_zero (by omega)
  rw [updateAt_append rfl hguard hbefore hafter, liveOf, List.filter_append, List.filter_cons,
    hnone, hnone', List.nil_append, List.filter_cons]
  simp [isLiveOf, hrelease]

/-- The live items of other releases after an update of an item. -/
theorem liveOf_move_other (hkeyed : Keyed queue (·.id)) (hitem : item ∈ queue)
    (hguard : guard item = true) (hrelease : (change item).releaseId = item.releaseId)
    {releaseId : Int} (hne : releaseId ≠ item.releaseId) :
    liveOf (updateAt queue (·.id) item.id guard change) releaseId = liveOf queue releaseId := by
  obtain ⟨before, after, rfl, hbefore, hafter⟩ := hkeyed.exists_append hitem
  have hnot (other : QueueItem) (heq : other.releaseId = item.releaseId) :
      isLiveOf releaseId other = false := by
    simp [isLiveOf, heq, Ne.symm hne]
  rw [updateAt_append rfl hguard hbefore hafter, liveOf, liveOf, List.filter_append,
    List.filter_append, List.filter_cons, List.filter_cons, hnot item rfl,
    hnot (change item) hrelease]
  rfl

/-- A live item moves on and takes its release along. -/
theorem Agreeing.move (h : Agreeing releases queue) (hkeyed : Keyed queue (·.id))
    (hitem : item ∈ queue) (hlive : item.status.isLive = true) (hguard : guard item = true)
    (hrelease : (change item).releaseId = item.releaseId) {status : ReleaseStatus}
    (hstatus : Agrees status (([change item].filter (·.status.isLive)).map (·.status))) :
    Agreeing (updateAt releases (·.id) item.releaseId (fun _ => true)
      fun release => { release with status }) (updateAt queue (·.id) item.id guard change) := by
  refine forall_updateAt (fun release hmem heq _ => ?_) fun release hmem hother => ?_
  · have hsingle : liveOf queue item.releaseId = [item] :=
      eq_singleton_of_agrees (heq ▸ h release hmem) (mem_liveOf.mpr ⟨hitem, rfl, hlive⟩)
    rw [show release.id = item.releaseId from heq,
      liveOf_move_self hkeyed hitem hlive hguard hrelease hsingle]
    exact hstatus
  · have hne : release.id ≠ item.releaseId := fun heq => by
      have := hother heq
      cases this
    rw [liveOf_move_other hkeyed hitem hguard hrelease hne]
    exact h release hmem

/-- A release without a live item gets a waiting one. -/
theorem Agreeing.insert (h : Agreeing releases queue) {release : Release}
    (hmem : release ∈ releases)
    (hstatus : ¬ (release.status = .queued ∨ release.status = .deploying))
    (hrelease : item.releaseId = release.id) (hwaiting : item.status.isWaiting = true) :
    Agreeing (updateAt releases (·.id) release.id (fun _ => true)
      fun release => { release with status := .queued }) (queue ++ [item]) := by
  have hnil : liveOf queue release.id = [] := liveOf_eq_nil (h release hmem) hstatus
  have happend (releaseId : Int) : liveOf (queue ++ [item]) releaseId =
      liveOf queue releaseId ++ [item].filter (isLiveOf releaseId) := List.filter_append _ _
  have hlive : isLiveOf release.id item = true := by
    cases hcase : item.status <;> rw [hcase] at hwaiting <;>
      simp_all [isLiveOf, QueueStatus.isLive, QueueStatus.isWaiting]
  refine forall_updateAt (fun other _ heq _ => ?_) fun other hother hne => ?_
  · rw [happend, show other.id = release.id from heq, hnil, List.filter_cons_of_pos hlive]
    cases hcase : item.status <;> rw [hcase] at hwaiting <;>
      simp_all [Agrees, QueueStatus.isWaiting]
  · have hne' : release.id ≠ other.id := fun heq => by
      have := hne heq.symm
      cases this
    rw [happend, List.filter_cons_of_neg (by simp [isLiveOf, hrelease, hne']), List.filter_nil,
      List.append_nil]
    exact h other hother

end Moves

end Store

/-- A job of a release has the running item that names its task. -/
def ComposeTaskJob.Carries (job : ComposeTaskJob) (item : QueueItem) : Prop :=
  job.queueId = some item.id ∧ job.releaseId = some item.releaseId ∧
    item.taskId = some job.taskId ∧ item.status = .running

/-- The tables fit together: rows have their own identifiers, items have releases, whose statuses
they agree with, and a waiting item has no task yet, and another one has a task of the table. -/
structure Store.Sound (store : Store) : Prop where
  items : Keyed store.queue (·.id)
  tasks : Keyed store.tasks (·.id)
  released : ∀ item ∈ store.queue, ∃ release ∈ store.releases, release.id = item.releaseId
  agreeing : Store.Agreeing store.releases store.queue
  waiting : ∀ item ∈ store.queue, item.status.isWaiting = true → item.taskId = none
  known : ∀ item ∈ store.queue, ∀ taskId, item.taskId = some taskId →
    taskId ∈ store.tasks.map (·.id)

/-- The jobs that wait have queued tasks, and the running items of these tasks are theirs; a running
item whose job was lost has none. -/
structure Store.Carried (store : Store) (jobs : List ComposeTaskJob) : Prop where
  distinct : Keyed jobs (·.taskId)
  running : ∀ item ∈ store.queue, item.status = .running → ∀ job ∈ jobs,
    item.taskId = some job.taskId → job.Carries item
  items : ∀ job ∈ jobs, ∀ queueId, job.queueId = some queueId →
    ∃ item ∈ store.queue, job.Carries item
  queued : ∀ job ∈ jobs, ∃ task ∈ store.tasks, task.id = job.taskId ∧ task.status = .queued

namespace Store.Sound

variable {store : Store}

/-- The live items of a release, spelled out. -/
theorem release_status (h : store.Sound) {release : Release} (hmem : release ∈ store.releases) :
    (∀ item ∈ store.queue, ∀ item' ∈ store.queue, item.releaseId = release.id →
      item'.releaseId = release.id → item.status.isLive = true → item'.status.isLive = true →
      item = item') ∧
    (release.status = .queued ↔ ∃ item ∈ store.queue, item.releaseId = release.id ∧
      item.status.isWaiting = true) ∧
    (release.status = .deploying ↔ ∃ item ∈ store.queue, item.releaseId = release.id ∧
      item.status = .running) := by
  have hagrees := h.agreeing release hmem
  have hlive {item : QueueItem} (hitem : item ∈ store.queue)
      (hrelease : item.releaseId = release.id) (hstatus : item.status.isLive = true) :
      Store.liveOf store.queue release.id = [item] :=
    Store.eq_singleton_of_agrees hagrees (Store.mem_liveOf.mpr ⟨hitem, hrelease, hstatus⟩)
  refine ⟨fun item hitem item' hitem' hrelease hrelease' hstatus hstatus' => ?_, ⟨fun hqueued => ?_,
    fun hwaiting => ?_⟩, fun hdeploying => ?_, fun hrunning => ?_⟩
  · have heq := (hlive hitem hrelease hstatus).symm.trans (hlive hitem' hrelease' hstatus')
    exact List.singleton_inj.mp heq
  · rw [hqueued] at hagrees
    rcases hagrees with hone | hone <;>
      obtain ⟨item, hone, hstatus⟩ := List.map_eq_singleton_iff.mp hone <;>
      obtain ⟨hitem, hrelease, -⟩ := Store.mem_liveOf.mp
        (hone ▸ List.mem_singleton_self item : item ∈ Store.liveOf _ _) <;>
      exact ⟨item, hitem, hrelease, by rw [hstatus]; rfl⟩
  · obtain ⟨item, hitem, hrelease, hwaits⟩ := hwaiting
    have hstatus : item.status = .scheduled ∨ item.status = .queued := by
      cases hcase : item.status <;> simp_all [QueueStatus.isWaiting]
    have hone := hlive hitem hrelease (by rcases hstatus with h | h <;> rw [h] <;> rfl)
    rw [hone] at hagrees
    cases hcase : release.status <;> rw [hcase] at hagrees <;>
      rcases hstatus with h | h <;> simp_all [Agrees]
  · rw [hdeploying] at hagrees
    obtain ⟨item, hone, hstatus⟩ := List.map_eq_singleton_iff.mp hagrees
    obtain ⟨hitem, hrelease, -⟩ := Store.mem_liveOf.mp
      (hone ▸ List.mem_singleton_self item : item ∈ Store.liveOf _ _)
    exact ⟨item, hitem, hrelease, hstatus⟩
  · obtain ⟨item, hitem, hrelease, hstatus⟩ := hrunning
    have hone := hlive hitem hrelease (by rw [hstatus]; rfl)
    rw [hone] at hagrees
    cases hcase : release.status <;> rw [hcase] at hagrees <;> simp_all [Agrees]

/-- Live items of one release are the same. -/
theorem eq_of_live (h : store.Sound) {item item' : QueueItem} (hitem : item ∈ store.queue)
    (hitem' : item' ∈ store.queue) (hrelease : item'.releaseId = item.releaseId)
    (hlive : item.status.isLive = true) (hlive' : item'.status.isLive = true) : item = item' := by
  obtain ⟨release, hmem, hid⟩ := h.released item hitem
  exact (h.release_status hmem).1 item hitem item' hitem' hid.symm (hrelease.trans hid.symm) hlive
    hlive'

theorem released_setReleaseStatus {releaseId : Int} {status : ReleaseStatus} {id : Int}
    (h : ∃ release ∈ store.releases, release.id = id) :
    ∃ release ∈ (store.setReleaseStatus releaseId status).releases, release.id = id := by
  have hids : (store.setReleaseStatus releaseId status).releases.map (·.id) =
      store.releases.map (·.id) := map_updateAt fun _ => rfl
  exact List.mem_map.mp (hids ▸ List.mem_map.mpr h)

/-- A live item moves on with its release. -/
theorem move (h : store.Sound) (change : QueueItem → QueueItem) {item : QueueItem}
    (hitem : item ∈ store.queue) (hlive : item.status.isLive = true) {guard : QueueItem → Bool}
    (hguard : guard item = true)
    (hid : ∀ item, (change item).id = item.id)
    (hrelease : ∀ item, (change item).releaseId = item.releaseId)
    (hmoved : (change item).status.isWaiting = false)
    (htask : ∀ taskId, (change item).taskId = some taskId → taskId ∈ store.tasks.map (·.id))
    {status : ReleaseStatus}
    (hstatus : Agrees status (([change item].filter (·.status.isLive)).map (·.status))) :
    ({ store with queue := updateAt store.queue (·.id) item.id guard change }.setReleaseStatus
      item.releaseId status).Sound where
  items := h.items.updateAt hid
  tasks := h.tasks
  released other hother := by
    refine released_setReleaseStatus ?_
    rcases (h.items.mem_updateAt hitem hguard).mp hother with rfl | ⟨hold, -⟩
    · rw [hrelease]
      exact h.released item hitem
    · exact h.released other hold
  agreeing := h.agreeing.move h.items hitem hlive hguard (hrelease item) hstatus
  waiting other hother hwaiting := by
    rcases (h.items.mem_updateAt hitem hguard).mp hother with rfl | ⟨hold, -⟩
    · rw [hmoved] at hwaiting
      cases hwaiting
    · exact h.waiting other hold hwaiting
  known other hother := by
    rcases (h.items.mem_updateAt hitem hguard).mp hother with rfl | ⟨hold, -⟩
    · exact htask
    · exact h.known other hold

/-- A release without a live item gets a waiting one. -/
theorem insert (h : store.Sound) {release : Release} (hmem : release ∈ store.releases)
    (hstatus : ¬ (release.status = .queued ∨ release.status = .deploying)) {item : QueueItem}
    (hid : item.id = nextId (store.queue.map (·.id))) (hrelease : item.releaseId = release.id)
    (hwaiting : item.status.isWaiting = true) (htask : item.taskId = none) :
    ({ store with queue := store.queue ++ [item] }.setReleaseStatus release.id .queued).Sound where
  items := by
    refine h.items.append fun hold => ?_
    exact absurd (lt_nextId hold) (by rw [hid]; exact lt_irrefl _)
  tasks := h.tasks
  released other hother := by
    refine released_setReleaseStatus ?_
    rcases List.mem_append.mp hother with hold | hnew
    · exact h.released other hold
    · obtain rfl := List.mem_singleton.mp hnew
      exact ⟨release, hmem, hrelease.symm⟩
  agreeing := h.agreeing.insert hmem hstatus hrelease hwaiting
  waiting other hother hwaits := by
    rcases List.mem_append.mp hother with hold | hnew
    · exact h.waiting other hold hwaits
    · rw [List.mem_singleton.mp hnew]
      exact htask
  known other hother taskId hknown := by
    rcases List.mem_append.mp hother with hold | hnew
    · exact h.known other hold taskId hknown
    · rw [List.mem_singleton.mp hnew, htask] at hknown
      cases hknown

theorem markTaskRunning (h : store.Sound) (taskId : Int) :
    (store.markTaskRunning taskId).Sound := by
  have hids : (store.markTaskRunning taskId).tasks.map (·.id) = store.tasks.map (·.id) :=
    map_updateAt fun _ => rfl
  exact ⟨h.items, h.tasks.updateAt fun _ => rfl, h.released, h.agreeing, h.waiting,
    hids ▸ h.known⟩

theorem finishTask (h : store.Sound) (taskId : Int) (status : TaskStatus) :
    (store.finishTask taskId status).Sound := by
  have hids : (store.finishTask taskId status).tasks.map (·.id) = store.tasks.map (·.id) :=
    map_updateAt fun _ => rfl
  exact ⟨h.items, h.tasks.updateAt fun _ => rfl, h.released, h.agreeing, h.waiting,
    hids ▸ h.known⟩

theorem closeTask (h : store.Sound) (fails : List OperationStatement) (taskId : Int)
    (status : TaskStatus) :
    (store.closeTask fails taskId status).Sound := by
  unfold Store.closeTask
  split
  · exact h
  · exact h.finishTask taskId status

theorem createTask (h : store.Sound) {kind : TaskKind} {appId releaseId : Option Int}
    {taskId : Int} {store' : Store}
    (hcreate : store.createTask kind appId releaseId = .ok (taskId, store')) :
    store'.Sound ∧ taskId ∉ store.tasks.map (·.id) ∧
      store' = { store with tasks := store.tasks ++ [⟨taskId, kind, appId, releaseId, .queued⟩] } := by
  simp only [Store.createTask] at hcreate
  split at hcreate
  · cases hcreate
  · obtain ⟨rfl, rfl⟩ := Prod.mk.inj (Except.ok.inj hcreate)
    have hfresh : nextId (store.tasks.map (·.id)) ∉ store.tasks.map (·.id) := fun hold =>
      lt_irrefl _ (lt_nextId hold)
    refine ⟨⟨h.items, h.tasks.append hfresh, h.released, h.agreeing, h.waiting,
      fun item hitem taskId hknown => ?_⟩, hfresh, rfl⟩
    rw [List.map_append]
    exact List.mem_append_left _ (h.known item hitem taskId hknown)

end Store.Sound

namespace Store

variable {store store' : Store} {jobs : List ComposeTaskJob}

/-- An item whose time has come waits in the queue, as its release does. -/
theorem Sound.promote (h : store.Sound) {item : QueueItem} (hitem : item ∈ store.queue)
    (hscheduled : item.status = .scheduled) :
    Store.Sound { store with
      queue := updateAt store.queue (·.id) item.id (·.status == .scheduled)
        fun item => { item with status := .queued, scheduledPublishAt := none } } where
  items := h.items.updateAt fun _ => rfl
  tasks := h.tasks
  released other hother := by
    rcases (h.items.mem_updateAt hitem (by simp [hscheduled])).mp hother with rfl | ⟨hold, -⟩
    · exact h.released item hitem
    · exact h.released other hold
  agreeing release hmem := by
    have hagrees := h.agreeing release hmem
    by_cases heq : release.id = item.releaseId
    · have hlive : item.status.isLive = true := by rw [hscheduled]; rfl
      have hsingle := eq_singleton_of_agrees hagrees (mem_liveOf.mpr ⟨hitem, heq.symm, hlive⟩)
      rw [heq] at hsingle
      rw [heq, hsingle] at hagrees
      rw [heq, liveOf_move_self h.items hitem hlive (by simp [hscheduled]) rfl hsingle]
      cases hcase : release.status <;> rw [hcase] at hagrees <;>
        simp_all [Agrees, QueueStatus.isLive]
    · rw [liveOf_move_other h.items hitem (by simp [hscheduled]) rfl heq]
      exact hagrees
  waiting other hother hwaiting := by
    rcases (h.items.mem_updateAt hitem (by simp [hscheduled])).mp hother with rfl | ⟨hold, -⟩
    · exact h.waiting item hitem (by rw [hscheduled]; rfl)
    · exact h.waiting other hold hwaiting
  known other hother := by
    rcases (h.items.mem_updateAt hitem (by simp [hscheduled])).mp hother with rfl | ⟨hold, -⟩
    · exact h.known item hitem
    · exact h.known other hold

/-- The scheduled items of a release are canceled. -/
theorem Sound.cancelScheduledRelease (h : store.Sound) {releaseId : Int}
    (hcancel : store.cancelScheduledRelease releaseId = .ok store') :
    store'.Sound ∧ store'.tasks = store.tasks ∧
      ∀ item, item.status = .running → (item ∈ store'.queue ↔ item ∈ store.queue) := by
  simp only [Store.cancelScheduledRelease] at hcancel
  split at hcancel
  · cases hcancel
  · rename_i haffected
    obtain rfl := Except.ok.inj hcancel
    obtain ⟨item, hitem, hwanted⟩ := List.countP_pos_iff.mp (Nat.pos_of_ne_zero haffected)
    simp only [decide_eq_true_eq] at hwanted
    obtain ⟨rfl, hawaits⟩ := hwanted
    have hscheduled {other : QueueItem} (hother : other.awaitsTime = true) :
        other.status = .scheduled := by
      rw [QueueItem.awaitsTime, Bool.and_eq_true, beq_iff_eq] at hother
      exact hother.1
    have hlive {other : QueueItem} (hother : other.awaitsTime = true) :
        other.status.isLive = true := by
      rw [hscheduled hother]
      rfl
    -- the release has one live item, so the update reaches the row of this item only
    have hrow : updateAt store.queue (·.releaseId) item.releaseId QueueItem.awaitsTime
        (fun item => { item with status := .canceled, scheduledPublishAt := none }) =
        updateAt store.queue (·.id) item.id QueueItem.awaitsTime
          fun item => { item with status := .canceled, scheduledPublishAt := none } := by
      refine List.map_congr_left fun other hother => ?_
      refine if_congr (and_congr_left fun hguard => ⟨fun heq => ?_, fun heq => ?_⟩) rfl rfl
      · rw [h.eq_of_live hitem hother heq (hlive hawaits) (hlive hguard)]
      · rw [h.items.eq hother hitem heq]
    rw [hrow]
    refine ⟨h.move (fun item => { item with status := .canceled, scheduledPublishAt := none })
      hitem (hlive hawaits) hawaits (fun _ => rfl) (fun _ => rfl) rfl (h.known item hitem) rfl, rfl,
      fun other hrunning => ?_⟩
    refine (h.items.mem_updateAt hitem hawaits).trans ⟨fun hmem => ?_, fun hmem => ?_⟩
    · rcases hmem with rfl | ⟨hmem, -⟩
      · cases hrunning
      · exact hmem
    · refine .inr ⟨hmem, fun heq => ?_⟩
      rw [h.items.eq hmem hitem heq, hscheduled hawaits] at hrunning
      cases hrunning

/-- Jobs depend on the running items and on their tasks. -/
theorem Carried.of_running (h : store.Carried jobs)
    (hrunning : ∀ item, item.status = .running → (item ∈ store'.queue ↔ item ∈ store.queue))
    (htasks : ∀ task ∈ store.tasks, task.status = .queued → task ∈ store'.tasks) :
    store'.Carried jobs where
  distinct := h.distinct
  running item hitem hstatus := h.running item ((hrunning item hstatus).mp hitem) hstatus
  items job hjob queueId hqueueId := by
    obtain ⟨item, hitem, hcarries⟩ := h.items job hjob queueId hqueueId
    exact ⟨item, (hrunning item hcarries.2.2.2).mpr hitem, hcarries⟩
  queued job hjob := by
    obtain ⟨task, htask, hid, hstatus⟩ := h.queued job hjob
    exact ⟨task, htasks task htask hstatus, hid, hstatus⟩

/-- Moving an item that does not run and will not run. -/
theorem mem_move_iff (h : store.Sound) {item : QueueItem} (hitem : item ∈ store.queue)
    {guard : QueueItem → Bool} {change : QueueItem → QueueItem} (hguard : guard item = true)
    (hbefore : item.status ≠ .running) (hafter : (change item).status ≠ .running)
    (other : QueueItem) (hrunning : other.status = .running) :
    other ∈ updateAt store.queue (·.id) item.id guard change ↔ other ∈ store.queue := by
  refine (h.items.mem_updateAt hitem hguard).trans ⟨fun hmem => ?_, fun hmem => ?_⟩
  · rcases hmem with rfl | ⟨hmem, -⟩
    · exact absurd hrunning hafter
    · exact hmem
  · refine .inr ⟨hmem, fun heq => hbefore ?_⟩
    rw [← h.items.eq hmem hitem heq]
    exact hrunning

/-- The other jobs still have their items and tasks behind what is done to the task of a job. -/
theorem Carried.rest {taskId : Int} (h : store.Carried jobs) (hnew : taskId ∉ jobs.map (·.taskId))
    (hold : ∀ item, item.status = .running → item ∈ store'.queue → item ∈ store.queue)
    (hkept : ∀ item, item.status = .running → item ∈ store.queue → item.taskId ≠ some taskId →
      item ∈ store'.queue)
    (htasks : ∀ task ∈ store.tasks, task.id ≠ taskId → task ∈ store'.tasks) :
    store'.Carried jobs where
  distinct := h.distinct
  running item hitem hstatus := h.running item (hold item hstatus hitem) hstatus
  items job hjob queueId hqueueId := by
    obtain ⟨item, hitem, hcarries⟩ := h.items job hjob queueId hqueueId
    refine ⟨item, hkept item hcarries.2.2.2 hitem fun heq => hnew ?_, hcarries⟩
    exact List.mem_map.mpr ⟨job, hjob, Option.some.inj (hcarries.2.2.1.symm.trans heq)⟩
  queued job hjob := by
    obtain ⟨task, htask, hid, hstatus⟩ := h.queued job hjob
    refine ⟨task, htasks task htask fun heq => hnew ?_, hid, hstatus⟩
    exact List.mem_map.mpr ⟨job, hjob, hid.symm.trans heq⟩

end Store

end EasyDeploy.ReleaseQueue
