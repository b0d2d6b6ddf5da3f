import EasyDeploy.ReleaseQueue.StatusAgreement

/-!
# Runs of completed operations

Every operation of the release queue leaves coherent tables and jobs. An error
leaves releases and queue items as they were, unless a worker no longer takes
what the operation hands over.
-/

namespace EasyDeploy.ReleaseQueue
open Foundation
open Foundation.Transition
open Orchestrator (TaskStatus)

/-- The tables fit together and the jobs are those of the running items. -/
structure Site.Coherent (site : Site) : Prop where
  sound : site.store.Sound
  carried : site.store.Carried site.jobs

/-- What a completed operation owes: coherence while no update is torn, a reply that says what
happened, and no trace of a refused request. -/
structure Site.Serves (site : Site) (whole undisturbed : Prop) (result : Reply × Site) : Prop where
  coherent : whole → result.2.Coherent
  reply : result.1 ≠ .nothing
  unchanged : undisturbed → ∀ error, result.1 = .error error →
    result.2.store.releases = site.store.releases ∧ result.2.store.queue = site.store.queue

namespace Site

variable {site : Site} {whole undisturbed : Prop}

/-- A refusal leaves a coherent site. -/
theorem Coherent.refused (h : site.Coherent) (error : AppError) :
    site.Serves whole undisturbed (.error error, site) :=
  ⟨fun _ => h, nofun, fun _ _ _ => ⟨rfl, rfl⟩⟩

/-- A call that is done leaves a coherent site. -/
theorem Coherent.served {site' : Site} (h : site'.Coherent) :
    site.Serves whole undisturbed (.done, site') :=
  ⟨fun _ => h, nofun, fun _ _ heq => nomatch heq⟩

/-- The reply is the answer of a worker to whom the operation hands its result. -/
theorem Coherent.handed {site' : Site} (h : site'.Coherent) (answer : Except AppError Unit) :
    site.Serves whole (answer = .ok ()) (.of answer, site') := by
  cases answer with
  | ok done => exact ⟨fun _ => h, nofun, fun _ _ heq => nomatch heq⟩
  | error reason => exact ⟨fun _ => h, nofun, fun hopen => nomatch hopen⟩

/-- An error of an operation that was disturbed. -/
theorem Serves.failed {site' : Site} (h : whole → site'.Coherent) (error : AppError)
    (hdisturbed : ¬ undisturbed) : site.Serves whole undisturbed (.error error, site') :=
  ⟨h, nofun, fun hquiet => absurd hquiet hdisturbed⟩

end Site

namespace Store

variable {store : Store}

/-- A release that is neither queued nor deploying is enqueued. -/
theorem Sound.enqueue (h : store.Sound) {release : Release} (hmem : release ∈ store.releases)
    (hstatus : ¬ (release.status = .queued ∨ release.status = .deploying)) {status : QueueStatus}
    (hwaiting : status.isWaiting = true) (snapshotId : Int) (time : Option String) :
    ∃ queueId store', store.enqueueAppRelease release.appId release.id snapshotId status time =
        some (queueId, store') ∧ (store'.setReleaseStatus release.id .queued).Sound ∧
      store'.tasks = store.tasks ∧
      ∀ item, item.status = .running → (item ∈ store'.queue ↔ item ∈ store.queue) := by
  have hnil := liveOf_eq_nil (h.agreeing release hmem) hstatus
  have hnone : store.queue.any (fun item =>
      item.releaseId == release.id && item.status.isActive) = false := by
    refine List.any_eq_false.mpr fun item hitem hactive => ?_
    rw [Bool.and_eq_true, beq_iff_eq] at hactive
    have hlive : item.status.isLive = true := by
      cases hcase : item.status <;> simp_all [QueueStatus.isActive, QueueStatus.isLive]
    have hmem := mem_liveOf.mpr ⟨hitem, hactive.1, hlive⟩
    rw [hnil] at hmem
    cases hmem
  refine ⟨_, _, by rw [enqueueAppRelease, hnone, Bool.and_false]; rfl,
    h.insert hmem hstatus rfl rfl hwaiting rfl, rfl, fun item hrunning => ?_⟩
  refine List.mem_append.trans ⟨fun hmem => hmem.resolve_right fun hnew => ?_, .inl⟩
  rw [List.mem_singleton.mp hnew] at hrunning
  rw [show status = .running from hrunning] at hwaiting
  cases hwaiting

end Store

namespace Site

variable {site : Site}

/-- A publication owes what it answers, and its dispatch may disturb it. -/
theorem publishReleaseNow_serves (h : site.Coherent) (releaseId : Int) (context : PublishContext) :
    site.Serves True (context.dispatch = .ok ()) (site.publishReleaseNow releaseId context) := by
  unfold publishReleaseNow
  split
  · exact h.refused _
  · rename_i release hfind
    split
    · exact h.refused _
    · split_ifs with hrunning hstatus
      · exact h.refused _
      · exact h.refused _
      · split
        · exact h.refused _
        · rename_i snapshotId _
          split
          · exact h.refused _
          · obtain ⟨queueId, store, henqueue, hsound, htasks, hqueue⟩ :=
              h.sound.enqueue (List.mem_of_find?_eq_some hfind) hstatus
                (rfl : QueueStatus.queued.isWaiting = true) snapshotId none
            have hcarried : store.Carried site.jobs :=
              h.carried.of_running hqueue fun task htask _ => htasks.symm ▸ htask
            have hcoherent : Coherent { site with
                store := store.setReleaseStatus release.id .queued } :=
              ⟨hsound, ⟨hcarried.distinct, hcarried.running, hcarried.items, hcarried.queued⟩⟩
            have hserves : site.Serves True (context.dispatch = .ok ()) (.of context.dispatch, _) :=
              hcoherent.handed context.dispatch
            simp only [Store.publishTransaction, henqueue]
            cases hdispatch : context.dispatch <;> rw [hdispatch] at hserves <;> exact hserves

/-- Nothing disturbs a call that schedules a release. -/
theorem scheduleReleasePublish_serves (h : site.Coherent) (releaseId : Int)
    (scheduledPublishAt : Except AppError String) (context : PublishContext) :
    site.Serves True True (site.scheduleReleasePublish releaseId scheduledPublishAt context) := by
  unfold scheduleReleasePublish
  split
  · exact h.refused _
  · rename_i time
    split
    · exact h.refused _
    · rename_i release hfind
      split
      · exact h.refused _
      · split_ifs with hstatus
        · exact h.refused _
        · split
          · exact h.refused _
          · rename_i snapshotId _
            obtain ⟨queueId, store, henqueue, hsound, htasks, hqueue⟩ :=
              h.sound.enqueue (List.mem_of_find?_eq_some hfind) hstatus
                (rfl : QueueStatus.scheduled.isWaiting = true) snapshotId (some time)
            have hcarried : store.Carried site.jobs :=
              h.carried.of_running hqueue fun task htask _ => htasks.symm ▸ htask
            simp only [Store.scheduleTransaction, henqueue, Option.map_some]
            split
            · exact h.refused _
            exact Coherent.served ⟨hsound, ⟨hcarried.distinct, hcarried.running, hcarried.items,
              hcarried.queued⟩⟩

/-- Nothing disturbs a call that cancels a schedule. -/
theorem cancelScheduledRelease_serves (h : site.Coherent) (releaseId : Int)
    (commit : Except AppError Unit) :
    site.Serves True True (site.cancelScheduledRelease releaseId commit) := by
  unfold cancelScheduledRelease
  split
  · exact h.refused _
  · rename_i store hcancel
    obtain ⟨hsound, htasks, hqueue⟩ := h.sound.cancelScheduledRelease hcancel
    split
    · exact h.refused _
    · refine Coherent.served ⟨hsound, h.carried.of_running hqueue fun task htask _ => ?_⟩
      exact htasks.symm ▸ htask

/-- The dispatch behind it may disturb a call that cancels an item. -/
theorem cancelReleaseQueueItem_serves (h : site.Coherent) (queueId : Int)
    (commit dispatch : Except AppError Unit) :
    site.Serves True (dispatch = .ok ()) (site.cancelReleaseQueueItem queueId commit dispatch) := by
  unfold cancelReleaseQueueItem
  split
  · exact h.refused _
  · rename_i item hfind
    split_ifs with hwaiting
    · obtain ⟨hitem, rfl⟩ := Store.queueItem_eq_some hfind
      have hlive : item.status.isLive = true ∧ item.status ≠ .running := by
        cases hcase : item.status <;> rw [hcase] at hwaiting <;>
          simp_all [QueueStatus.isWaiting, QueueStatus.isLive]
      split
      · exact h.refused _
      refine Coherent.handed ⟨?_, ?_⟩ dispatch
      · exact h.sound.move (fun item => { item with status := .canceled, scheduledPublishAt := none })
          hitem hlive.1 rfl (fun _ => rfl) (fun _ => rfl) rfl (h.sound.known item hitem) rfl
      · have hidle : QueueStatus.canceled ≠ .running := fun heq => by cases heq
        exact h.carried.of_running (Store.mem_move_iff h.sound hitem rfl hlive.2 hidle)
          fun task htask _ => htask
    · exact h.refused _

/-- A scheduled item has no live sibling that could keep it from being promoted. -/
theorem promoteItem_served (h : site.Coherent) (queueId : Int) :
    ∃ promoted store, site.store.promoteItem queueId = .ok (promoted, store) ∧
      Coherent { site with store } := by
  unfold Store.promoteItem
  split
  · rename_i item hfind
    obtain ⟨hitem, rfl⟩ := Store.queueItem_eq_some hfind
    by_cases hscheduled : item.status = .scheduled
    · have hnone : site.store.queue.any (fun other =>
          other.releaseId == item.releaseId && other.status.isActive) = false := by
        refine List.any_eq_false.mpr fun other hother hactive => ?_
        rw [Bool.and_eq_true, beq_iff_eq] at hactive
        have hlive : other.status.isLive = true := by
          cases hcase : other.status <;> simp_all [QueueStatus.isActive, QueueStatus.isLive]
        obtain rfl := h.sound.eq_of_live hitem hother hactive.1 (by rw [hscheduled]; rfl) hlive
        rw [hscheduled] at hactive
        cases hactive.2
      rw [if_pos (beq_iff_eq.mpr hscheduled), hnone]
      refine ⟨true, _, rfl, h.sound.promote hitem hscheduled, ?_⟩
      refine h.carried.of_running (Store.mem_move_iff h.sound hitem (by simp [hscheduled])
        (by simp [hscheduled]) fun heq => by cases heq) fun task htask _ => htask
    · rw [if_neg fun heq => hscheduled (beq_iff_eq.mp heq)]
      exact ⟨false, _, rfl, h⟩
  · exact ⟨false, _, rfl, h⟩

/-- The updates of a scan all work when the statements do. -/
theorem promoteAll_done (items : List QueueItem) (h : site.Coherent) :
    (site.promoteAll none items).1 = .done := by
  induction items generalizing site with
  | nil => rfl
  | cons item items ih =>
      obtain ⟨promoted, store, hpromote, hcoherent⟩ := promoteItem_served h item.id
      unfold promoteAll
      rw [if_neg (Option.some_ne_none 0).symm, hpromote]
      exact ih hcoherent

/-- The scan promotes items until an update fails; the first one that fails leaves no trace. -/
theorem promoteAll_serves (items : List QueueItem) (h : site.Coherent) (working : Option Nat) :
    site.Serves True (∀ count, working = some count → count = 0) (site.promoteAll working items) := by
  induction items generalizing site working with
  | nil => exact h.served
  | cons item items ih =>
      unfold promoteAll
      split_ifs with hfails
      · exact h.refused _
      · obtain ⟨promoted, store, hpromote, hcoherent⟩ := promoteItem_served h item.id
        simp only [hpromote]
        obtain ⟨hlater, hreply, hunchanged⟩ := ih hcoherent (working.map (· - 1))
        refine ⟨hlater, hreply, fun hnone error herror => ?_⟩
        -- every update works when no statement but the first one may fail
        obtain rfl : working = none := Option.eq_none_iff_forall_ne_some.mpr fun count heq =>
          hfails (heq.trans (congrArg some (hnone count heq)))
        exact absurd ((promoteAll_done items hcoherent).symm.trans herror) nofun

/-- A scan that has promoted more than one item is disturbed by a failure. -/
theorem enqueueDueScheduledReleases_serves (h : site.Coherent) (now : String)
    (working : Option Nat) :
    site.Serves True (∀ count, working = some count → count ≤ 1)
      (site.enqueueDueScheduledReleases now working) := by
  unfold enqueueDueScheduledReleases
  split_ifs with hfails
  · exact h.refused _
  · obtain ⟨hcoherent, hreply, hunchanged⟩ :=
      promoteAll_serves (site.dueItems now) h (working.map (· - 1))
    refine ⟨hcoherent, hreply, fun hfew => hunchanged fun count heq => ?_⟩
    obtain ⟨all, hall, rfl⟩ := Option.map_eq_some_iff.mp heq
    have hle := hfew all hall
    omega

end Site

namespace Site

variable {site : Site} {item : QueueItem} {kind : TaskKind} {appId releaseId : Option Int}
  {taskId : Int} {store : Store}

/-- The tables behind `markReleaseQueueRunning` and the update of the release. -/
def deploying (store : Store) (item : QueueItem) (taskId : Int) : Store :=
  (store.markReleaseQueueRunning item.id taskId).2.setReleaseStatus item.releaseId .deploying

/-- Only the item that starts has another status. -/
theorem mem_deploying (h : store.Sound) (hitem : item ∈ store.queue)
    (hqueued : item.status = .queued) (taskId : Int) {other : QueueItem} :
    other ∈ (deploying store item taskId).queue ↔
      other = { item with status := .running, taskId := some taskId } ∨
        other ∈ store.queue ∧ other.id ≠ item.id :=
  h.items.mem_updateAt hitem (by simp [hqueued])

/-- An item that starts has its task. -/
theorem sound_deploying (h : store.Sound) (hitem : item ∈ store.queue)
    (hqueued : item.status = .queued) {taskId : Int} (htask : taskId ∈ store.tasks.map (·.id)) :
    (deploying store item taskId).Sound := by
  refine h.move (fun item => { item with status := .running, taskId := some taskId }) hitem
    (by rw [hqueued]; rfl) (by simp [hqueued]) (fun _ => rfl) (fun _ => rfl) rfl ?_ rfl
  rintro other ⟨⟩
  exact htask

/-- A task that is created has no job yet. -/
theorem Coherent.fresh (h : site.Coherent)
    (hcreate : site.store.createTask kind appId releaseId = .ok (taskId, store)) :
    taskId ∉ site.jobs.map (·.taskId) := by
  obtain ⟨-, hfresh, -⟩ := h.sound.createTask hcreate
  intro hmem
  obtain ⟨job, hjob, rfl⟩ := List.mem_map.mp hmem
  obtain ⟨task, htask, hid, -⟩ := h.carried.queued job hjob
  exact hfresh (List.mem_map.mpr ⟨task, htask, hid⟩)

/-- The task of an item has been created. -/
theorem Coherent.created (h : site.Coherent)
    (hcreate : site.store.createTask kind appId releaseId = .ok (taskId, store)) :
    Coherent { site with store } := by
  obtain ⟨hsound, -, rfl⟩ := h.sound.createTask hcreate
  exact ⟨hsound, h.carried.of_running (fun _ _ => Iff.rfl) fun task htask _ =>
    List.mem_append_left _ htask⟩

/-- The item runs, and its job is not sent yet. -/
theorem Coherent.start (h : site.Coherent)
    (hcreate : site.store.createTask kind appId releaseId = .ok (taskId, store))
    (hitem : item ∈ site.store.queue) (hqueued : item.status = .queued) :
    Coherent { site with store := deploying store item taskId } := by
  have hnew := h.fresh hcreate
  obtain ⟨hsound, hfresh, rfl⟩ := h.sound.createTask hcreate
  have hmem {other : QueueItem} : other ∈ (deploying _ item taskId).queue ↔ _ :=
    mem_deploying hsound hitem hqueued taskId
  refine ⟨sound_deploying hsound hitem hqueued (by simp), ⟨h.carried.distinct,
    fun other hother hrunning job hjob htask => ?_, fun job hjob queueId hqueueId => ?_,
    fun job hjob => ?_⟩⟩
  · rcases hmem.mp hother with rfl | ⟨hold, -⟩
    · exact absurd (List.mem_map.mpr ⟨job, hjob, (Option.some.inj htask).symm⟩) hnew
    · exact h.carried.running other hold hrunning job hjob htask
  · obtain ⟨other, hold, hcarries⟩ := h.carried.items job hjob queueId hqueueId
    refine ⟨other, hmem.mpr (.inr ⟨hold, fun heq => ?_⟩), hcarries⟩
    have hrunning := hcarries.2.2.2
    rw [h.sound.items.eq hold hitem heq, hqueued] at hrunning
    cases hrunning
  · obtain ⟨task, htask, hid, hstatus⟩ := h.carried.queued job hjob
    exact ⟨task, List.mem_append_left _ htask, hid, hstatus⟩

/-- The item runs and its job waits for the worker. -/
theorem Coherent.hand (h : site.Coherent)
    (hcreate : site.store.createTask kind appId releaseId = .ok (taskId, store))
    (hitem : item ∈ site.store.queue) (hqueued : item.status = .queued) (jobApp : Int) :
    Coherent ⟨deploying store item taskId,
      site.jobs ++ [⟨taskId, jobApp, some item.releaseId, some item.id⟩]⟩ := by
  have hnew := h.fresh hcreate
  obtain ⟨hsound', hcarried⟩ := h.start hcreate hitem hqueued
  obtain ⟨hsound, hfresh, rfl⟩ := h.sound.createTask hcreate
  have hmem {other : QueueItem} : other ∈ (deploying _ item taskId).queue ↔ _ :=
    mem_deploying hsound hitem hqueued taskId
  refine ⟨hsound', ⟨Keyed.append h.carried.distinct hnew,
    fun other hother hrunning job hjob htask => ?_, fun job hjob queueId hqueueId => ?_,
    fun job hjob => ?_⟩⟩
  · rcases List.mem_append.mp hjob with hjob | hjob
    · exact hcarried.running other hother hrunning job hjob htask
    · obtain rfl := List.mem_singleton.mp hjob
      rcases hmem.mp hother with rfl | ⟨hold, -⟩
      · exact ⟨rfl, rfl, rfl, rfl⟩
      · exact absurd (h.sound.known other hold taskId htask) hfresh
  · rcases List.mem_append.mp hjob with hjob | hjob
    · exact hcarried.items job hjob queueId hqueueId
    · rw [List.mem_singleton.mp hjob]
      exact ⟨_, hmem.mpr (.inl rfl), rfl, rfl, rfl, rfl⟩
  · rcases List.mem_append.mp hjob with hjob | hjob
    · exact hcarried.queued job hjob
    · rw [List.mem_singleton.mp hjob]
      exact ⟨_, List.mem_append_right _ (List.mem_singleton_self _), rfl, rfl⟩

/-- An item that no job is about ends with its release. -/
theorem Coherent.finish (h : site.Coherent) (hitem : item ∈ site.store.queue)
    (hlive : item.status.isLive = true)
    (hjobless : ∀ job ∈ site.jobs, item.taskId ≠ some job.taskId) {status : QueueStatus}
    (hended : status = .success ∨ status = .failed) : Coherent { site with
      store := site.store.finishReleaseQueueItem item.id item.releaseId status } := by
  have hagrees : status.isWaiting = false ∧ status.isLive = false ∧ status ≠ .running ∧
      Agrees (Store.finishedReleaseStatus status) [] := by
    rcases hended with rfl | rfl <;> exact ⟨rfl, rfl, nofun, rfl⟩
  have hmem {other : QueueItem} : other ∈ updateAt site.store.queue (·.id) item.id
      (fun _ => true) (fun item => { item with status }) ↔ _ :=
    h.sound.items.mem_updateAt hitem rfl
  constructor
  · refine h.sound.move (fun item => { item with status }) hitem hlive rfl (fun _ => rfl)
      (fun _ => rfl) hagrees.1 (h.sound.known item hitem) ?_
    rw [List.filter_cons_of_neg (by simp [hagrees.2.1])]
    exact hagrees.2.2.2
  · refine ⟨h.carried.distinct, fun other hother hrunning => ?_,
      fun job hjob queueId hqueueId => ?_, h.carried.queued⟩
    · rcases hmem.mp hother with rfl | ⟨hold, -⟩
      · exact absurd hrunning hagrees.2.2.1
      · exact h.carried.running other hold hrunning
    · obtain ⟨other, hold, hcarries⟩ := h.carried.items job hjob queueId hqueueId
      refine ⟨other, hmem.mpr (.inr ⟨hold, fun heq => hjobless job hjob ?_⟩), hcarries⟩
      rw [← h.sound.items.eq hold hitem heq]
      exact hcarries.2.2.1

/-- The same when the update of the item, but not that of the release alone, may fail. -/
theorem Coherent.finishing (h : site.Coherent) (hitem : item ∈ site.store.queue)
    (hlive : item.status.isLive = true)
    (hjobless : ∀ job ∈ site.jobs, item.taskId ≠ some job.taskId)
    {fails : List OperationStatement}
    (hwhole : .finishingRelease ∉ fails) {status : QueueStatus}
    (hended : status = .success ∨ status = .failed) : Coherent { site with
      store := (site.store.finishing fails item.id item.releaseId status).2 } := by
  unfold Store.finishing
  split_ifs
  · exact h
  · exact h.finish hitem hlive hjobless hended

/-- The task of no job is closed. -/
theorem Coherent.closeTask (h : site.Coherent) (hnew : taskId ∉ site.jobs.map (·.taskId))
    (fails : List OperationStatement) (status : TaskStatus) :
    Coherent { site with store := site.store.closeTask fails taskId status } := by
  refine ⟨h.sound.closeTask fails taskId status, ?_⟩
  unfold Store.closeTask
  split_ifs
  · exact h.carried
  · exact h.carried.rest hnew (fun _ _ => id) (fun _ _ hitem _ => hitem)
      fun _ htask hne => mem_updateAt_of_ne htask hne

end Site

/-- No statement fails between the updates of an item and its release. -/
def DispatchContext.Whole (context : DispatchContext) : Prop :=
  .announcing ∉ context.fails ∧ .finishingRelease ∉ context.fails

instance (context : DispatchContext) : Decidable context.Whole :=
  inferInstanceAs (Decidable (_ ∧ _))

/-- No statement fails behind an update of the item, and the worker takes the job. -/
def DispatchContext.Undisturbed (context : DispatchContext) : Prop :=
  context.enqueue = .ok () ∧ .announcing ∉ context.fails ∧ .logging ∉ context.fails ∧
    .finishingRelease ∉ context.fails

namespace Site

variable {site : Site} {item : QueueItem} {kind : TaskKind} {appId releaseId : Option Int}
  {taskId : Int} {store : Store} {context : DispatchContext}

/-- The job is sent, or item, release and task have failed. -/
theorem handOver_serves (h : site.Coherent)
    (hcreate : site.store.createTask kind appId releaseId = .ok (taskId, store))
    (hitem : item ∈ site.store.queue) (hqueued : item.status = .queued) (jobApp : Int) :
    site.Serves context.Whole context.Undisturbed
      (site.handOver (deploying store item taskId) item taskId jobApp context) := by
  have hnew := h.fresh hcreate
  have hstart := h.start hcreate hitem hqueued
  obtain ⟨hsound, -, -⟩ := h.sound.createTask hcreate
  have hqueue : item ∈ store.queue := by
    obtain ⟨-, -, rfl⟩ := h.sound.createTask hcreate
    exact hitem
  have hrun := (mem_deploying hsound hqueue hqueued taskId).mpr (.inl rfl)
  have hfinishing (hwhole : context.Whole) : Coherent { site with store :=
      ((deploying store item taskId).finishing context.fails item.id item.releaseId .failed).2 } :=
    hstart.finishing hrun rfl
      (fun job hjob heq => hnew (List.mem_map.mpr ⟨job, hjob, (Option.some.inj heq).symm⟩))
      hwhole.2 (.inr rfl)
  unfold handOver
  split
  · exact (h.hand hcreate hitem hqueued jobApp).served
  · rename_i error henqueue
    have hdisturbed : ¬ context.Undisturbed := fun hquiet => by
      rw [hquiet.1] at henqueue
      cases henqueue
    split
    · rename_i failed hfailed
      refine Serves.failed (fun hwhole => ?_) _ hdisturbed
      have hkept := hfinishing hwhole
      rwa [hfailed] at hkept
    · rename_i finished hfinished
      refine Serves.failed (fun hwhole => ?_) _ hdisturbed
      have hkept := hfinishing hwhole
      rw [hfinished] at hkept
      exact hkept.closeTask hnew context.fails .failed

/-- A statement that fails behind the update of an item disturbs its start. -/
theorem startItem_serves (h : site.Coherent)
    (hcreate : site.store.createTask kind appId releaseId = .ok (taskId, store))
    (hitem : item ∈ site.store.queue) (hqueued : item.status = .queued) (jobApp : Int) :
    site.Serves context.Whole context.Undisturbed
      (site.startItem store item taskId jobApp context) := by
  obtain ⟨-, -, hstore⟩ := h.sound.createTask hcreate
  have hmark : (store.markReleaseQueueRunning item.id taskId).1 = true := by
    rw [hstore]
    exact Store.markReleaseQueueRunning_queued hitem hqueued taskId
  unfold startItem
  split
  · refine ⟨fun _ => h.created hcreate, nofun, fun _ _ _ => ?_⟩
    rw [hstore]
    exact ⟨rfl, rfl⟩
  · split
    · rename_i hfalse
      rw [hfalse] at hmark
      cases hmark
    · rename_i running htrue
      have hdeploying : running.setReleaseStatus item.releaseId .deploying =
          deploying store item taskId := by
        rw [deploying, htrue]
      rw [hdeploying]
      split_ifs with hannouncing hlogging
      · exact Serves.failed (fun hwhole => absurd hannouncing hwhole.1) _
          fun hquiet => hquiet.2.1 hannouncing
      · exact Serves.failed (fun _ => h.start hcreate hitem hqueued) _
          fun hquiet => hquiet.2.2.1 hlogging
      · exact handOver_serves h hcreate hitem hqueued jobApp

/-- A statement that fails behind the update of an item disturbs the dispatch. -/
theorem dispatchNextReleaseForApp_serves (h : site.Coherent) (appId : Int)
    (context : DispatchContext) : site.Serves context.Whole context.Undisturbed
      (site.dispatchNextReleaseForApp appId context) := by
  unfold dispatchNextReleaseForApp
  split
  · exact h.refused _
  · split_ifs with hbusy
    · exact h.served
    · split
      · exact h.served
      · rename_i item hnext
        obtain ⟨hitem, -, hqueued⟩ := Store.nextQueueItem_eq_some hnext
        split
        · exact h.refused _
        · split_ifs with hsnapshot
          · have htask := h.sound.waiting item hitem (by rw [hqueued]; rfl)
            refine ⟨fun hwhole => h.finishing hitem (by rw [hqueued]; rfl) (fun job _ heq => ?_)
              hwhole.2 (.inr rfl), ?_, fun hquiet error herror => ?_⟩
            · rw [htask] at heq
              cases heq
            · dsimp only
              split_ifs <;> nofun
            · revert herror
              unfold Store.finishing
              split_ifs with hfirst hsecond
              · exact fun _ => ⟨rfl, rfl⟩
              · exact absurd hsecond hquiet.2.2.2
              · exact fun herror => nomatch herror
          · split
            · exact h.refused _
            · split
              · exact h.refused _
              · rename_i taskId store hcreate
                exact startItem_serves h hcreate hitem hqueued appId

end Site

namespace Store

variable {store : Store}

/-- An active item of a task is running, for waiting items have no task. -/
theorem Sound.activeItemOf (h : store.Sound) {taskId : Int} {item : QueueItem}
    (hactive : store.activeItemOf taskId = some item) :
    item ∈ store.queue ∧ item.status = .running ∧ item.taskId = some taskId := by
  have hitem := List.mem_of_find?_eq_some hactive
  have hfound := List.find?_some hactive
  simp only [Bool.and_eq_true, beq_iff_eq] at hfound
  refine ⟨hitem, ?_, hfound.1⟩
  cases hcase : item.status with
  | running => rfl
  | queued =>
      have hwaiting := h.waiting item hitem (by rw [hcase]; rfl)
      rw [hwaiting] at hfound
      cases hfound.1
  | scheduled | success | failed | canceled =>
      rw [hcase] at hfound
      cases hfound.2

end Store

namespace Site

variable {store : Store} {job : ComposeTaskJob} {jobs : List ComposeTaskJob}

/-- The worker has taken the job: the others are coherent, and the item of the job is running. -/
structure Ending (store : Store) (job : ComposeTaskJob) (jobs : List ComposeTaskJob) : Prop where
  coherent : Coherent ⟨store, jobs⟩
  alone : job.taskId ∉ jobs.map (·.taskId)
  item : ∀ queueId, job.queueId = some queueId → ∃ item ∈ store.queue, job.Carries item

/-- A job that is taken is the one of its task. -/
theorem Coherent.ending (h : Coherent ⟨store, job :: jobs⟩) : Ending store job jobs where
  coherent := ⟨h.sound, (List.nodup_cons.mp h.carried.distinct).2,
    fun item hitem hrunning other hother =>
      h.carried.running item hitem hrunning other (List.mem_cons_of_mem _ hother),
    fun other hother => h.carried.items other (List.mem_cons_of_mem _ hother),
    fun other hother => h.carried.queued other (List.mem_cons_of_mem _ hother)⟩
  alone := (List.nodup_cons.mp h.carried.distinct).1
  item := h.carried.items job List.mem_cons_self

/-- The rows of a task that is closed are still those of its job. -/
theorem Ending.closeTask (h : Ending store job jobs) (fails : List OperationStatement)
    (status : TaskStatus) : Ending (store.closeTask fails job.taskId status) job jobs where
  coherent := h.coherent.closeTask h.alone fails status
  alone := h.alone
  item := by
    unfold Store.closeTask
    split <;> exact h.item

/-- A task that runs is still that of its job. -/
theorem Ending.markTaskRunning (h : Ending store job jobs) :
    Ending (store.markTaskRunning job.taskId) job jobs where
  coherent := ⟨h.coherent.sound.markTaskRunning _, h.coherent.carried.rest h.alone (fun _ _ => id)
    (fun _ _ hitem _ => hitem) fun _ htask hne => mem_updateAt_of_ne htask hne⟩
  alone := h.alone
  item := h.item

/-- The item of the task ends with its release. -/
theorem Ending.finishing (h : Ending store job jobs) {item : QueueItem}
    (hitem : item ∈ store.queue) (hrunning : item.status = .running)
    (htask : item.taskId = some job.taskId) {fails : List OperationStatement}
    (hwhole : .finishingRelease ∉ fails) {status : QueueStatus}
    (hended : status = .success ∨ status = .failed) :
    Coherent ⟨(store.finishing fails item.id item.releaseId status).2, jobs⟩ := by
  refine h.coherent.finishing hitem (by rw [hrunning]; rfl) (fun other hother heq => ?_) hwhole
    hended
  have hsame : job.taskId = other.taskId := Option.some.inj (htask.symm.trans heq)
  exact h.alone (List.mem_map.mpr ⟨other, hother, hsame.symm⟩)

/-- A task that fails leaves a coherent site unless its release is left behind. -/
theorem failComposeTask_coherent (h : Ending store job jobs) {fails : List OperationStatement}
    (hwhole : .finishingRelease ∉ fails) :
    (failComposeTask ⟨store, jobs⟩ job.taskId fails).Coherent := by
  unfold failComposeTask
  dsimp only
  split
  · rename_i item hfound
    split_ifs at hfound
    obtain ⟨hitem, hrunning, htask⟩ := h.coherent.sound.activeItemOf hfound
    exact (h.finishing hitem hrunning htask hwhole (.inr rfl)).closeTask h.alone fails .failed
  · exact h.coherent.closeTask h.alone fails .failed

/-- A finished job leaves a coherent site unless its release is left behind. -/
theorem Ending.finishingJob (h : Ending store job jobs) {fails : List OperationStatement}
    (hwhole : .finishingRelease ∉ fails) {status : QueueStatus}
    (hended : status = .success ∨ status = .failed) :
    Coherent ⟨(store.finishingJob fails job status).2, jobs⟩ := by
  unfold Store.finishingJob
  split
  · rename_i queueId releaseId hqueueId hreleaseId
    obtain ⟨item, hitem, hid, hrelease, htask, hrunning⟩ := h.item queueId hqueueId
    obtain rfl : queueId = item.id := Option.some.inj (hqueueId.symm.trans hid)
    obtain rfl : releaseId = item.releaseId := Option.some.inj (hreleaseId.symm.trans hrelease)
    exact h.finishing hitem hrunning htask hwhole hended
  · exact h.coherent

/-- A deployment that ends leaves a coherent site unless a statement behind the item fails. -/
theorem closeDeployment_coherent (h : Ending store job jobs) (success : Bool)
    {fails : List OperationStatement} (hwhole : .finishingRelease ∉ fails)
    {context : DispatchContext}
    (hcontext : context.Whole) :
    (closeDeployment ⟨store, jobs⟩ job success fails context).Coherent := by
  have hended : (if success then QueueStatus.success else .failed) = .success ∨
      (if success then QueueStatus.success else .failed) = .failed := by
    cases success with
    | true => exact .inl rfl
    | false => exact .inr rfl
  have hcoherent := (h.closeTask fails (if success then .success else .failed)).finishingJob hwhole
    hended
  unfold closeDeployment
  dsimp only
  generalize Store.finishingJob _ fails job _ = result at hcoherent ⊢
  split
  · exact (dispatchNextReleaseForApp_serves hcoherent job.appId context).coherent hcontext
  · exact hcoherent

end Site

/-- The release of an item is updated when the item is. -/
def JobOutcome.Whole : JobOutcome → Prop
  | .notStarted _ => True
  | .preflightFailed fails | .deployed _ fails => .finishingRelease ∉ fails

instance : DecidablePred JobOutcome.Whole
  | .notStarted _ => instDecidableTrue
  | .preflightFailed fails | .deployed _ fails =>
      inferInstanceAs (Decidable (OperationStatement.finishingRelease ∉ fails))

namespace Site

/-- The first job is executed to its end, up to the dispatch of the next item. -/
theorem runComposeTaskJob_coherent {site site' : Site} (h : site.Coherent) {outcome : JobOutcome}
    (houtcome : outcome.Whole) {context : DispatchContext} (hcontext : context.Whole)
    (hrun : site.runComposeTaskJob outcome context = some site') : site'.Coherent := by
  obtain ⟨store, jobs⟩ := site
  cases jobs with
  | nil => cases hrun
  | cons job jobs =>
      have hending := h.ending
      simp only [runComposeTaskJob] at hrun
      split at hrun
      · rw [← Option.some.inj hrun]
        cases outcome with
        | notStarted marked =>
            cases marked with
            | true => exact hending.markTaskRunning.coherent
            | false => exact hending.coherent
        | preflightFailed fails => exact failComposeTask_coherent hending.markTaskRunning houtcome
        | deployed success fails =>
            exact closeDeployment_coherent hending.markTaskRunning success houtcome hcontext
      · rw [← Option.some.inj hrun]
        exact hending.coherent

/-- A task without a queue item waits for the worker, or has failed. -/
theorem runComposeTask_serves {site : Site} (h : site.Coherent) (kind : TaskKind) (appId : Int)
    (enqueue : Except AppError Unit) :
    site.Serves True True (site.runComposeTask kind appId enqueue) := by
  unfold runComposeTask
  split
  · exact h.refused _
  · rename_i taskId store hcreate
    have hnew := h.fresh hcreate
    cases enqueue with
    | error error =>
        have hcreated := h.created hcreate
        refine ⟨fun _ => hcreated.closeTask hnew [] .failed, nofun, fun _ _ _ => ?_⟩
        obtain ⟨-, -, rfl⟩ := h.sound.createTask hcreate
        exact ⟨rfl, rfl⟩
    | ok done =>
        obtain ⟨hsound, hcarried⟩ := h.created hcreate
        obtain ⟨-, hfresh, rfl⟩ := h.sound.createTask hcreate
        refine Coherent.served ⟨hsound, Keyed.append h.carried.distinct hnew,
          fun item hitem hrunning job hjob htask => ?_, fun job hjob queueId hqueueId => ?_,
          fun job hjob => ?_⟩
        · rcases List.mem_append.mp hjob with hjob | hjob
          · exact hcarried.running item hitem hrunning job hjob htask
          · rw [List.mem_singleton.mp hjob] at htask
            exact absurd (h.sound.known item hitem taskId htask) hfresh
        · rcases List.mem_append.mp hjob with hjob | hjob
          · exact hcarried.items job hjob queueId hqueueId
          · rw [List.mem_singleton.mp hjob] at hqueueId
            cases hqueueId
        · rcases List.mem_append.mp hjob with hjob | hjob
          · exact hcarried.queued job hjob
          · rw [List.mem_singleton.mp hjob]
            exact ⟨_, List.mem_append_right _ (List.mem_singleton_self _), rfl, rfl⟩

end Site

/-- No statement fails between an update of a queue item and that of its release. -/
def Operation.Whole : Operation → Prop
  | .dispatchNextReleaseForApp _ context => context.Whole
  | .runComposeTaskJob outcome context => outcome.Whole ∧ context.Whole
  | _ => True

instance : DecidablePred Operation.Whole
  | .dispatchNextReleaseForApp _ context => inferInstanceAs (Decidable context.Whole)
  | .runComposeTaskJob outcome context =>
      inferInstanceAs (Decidable (outcome.Whole ∧ context.Whole))
  | .publishReleaseNow _ _ | .scheduleReleasePublish _ _ _ | .cancelScheduledRelease _ _
  | .cancelReleaseQueueItem _ _ _ | .enqueueDueScheduledReleases _ _ | .runComposeTask _ _ _ =>
      instDecidableTrue

/-- No statement fails behind a write of the operation, and the workers take what it hands over. -/
def Operation.Undisturbed : Operation → Prop
  | .publishReleaseNow _ context => context.dispatch = .ok ()
  | .cancelReleaseQueueItem _ _ dispatch => dispatch = .ok ()
  | .enqueueDueScheduledReleases _ working => ∀ count, working = some count → count ≤ 1
  | .dispatchNextReleaseForApp _ context => context.Undisturbed
  | _ => True

/-- Every operation owes what it answers. -/
theorem Site.perform_serves {site : Site} (h : site.Coherent) {operation : Operation}
    {result : Reply × Site} (hperform : site.perform operation = some result) :
    site.Serves operation.Whole operation.Undisturbed result := by
  cases operation with
  | runComposeTaskJob outcome context =>
      obtain ⟨site', hrun, rfl⟩ := Option.map_eq_some_iff.mp hperform
      exact ⟨fun hwhole => runComposeTaskJob_coherent h hwhole.1 hwhole.2 hrun, nofun,
        fun _ _ heq => nomatch heq⟩
  | publishReleaseNow releaseId context =>
      rw [← Option.some.inj hperform]
      exact publishReleaseNow_serves h releaseId context
  | scheduleReleasePublish releaseId scheduledPublishAt context =>
      rw [← Option.some.inj hperform]
      exact scheduleReleasePublish_serves h releaseId scheduledPublishAt context
  | cancelScheduledRelease releaseId commit =>
      rw [← Option.some.inj hperform]
      exact cancelScheduledRelease_serves h releaseId commit
  | cancelReleaseQueueItem queueId commit dispatch =>
      rw [← Option.some.inj hperform]
      exact cancelReleaseQueueItem_serves h queueId commit dispatch
  | enqueueDueScheduledReleases now working =>
      rw [← Option.some.inj hperform]
      exact enqueueDueScheduledReleases_serves h now working
  | dispatchNextReleaseForApp appId context =>
      rw [← Option.some.inj hperform]
      exact dispatchNextReleaseForApp_serves h appId context
  | runComposeTask kind appId enqueue =>
      rw [← Option.some.inj hperform]
      exact runComposeTask_serves h kind appId enqueue

/-- Operations that complete one after the other; at the beginning nothing is queued. -/
def completedOperations : Transition Site Operation where
  initial site := site.store.queue = [] ∧ site.jobs = [] ∧ Keyed site.store.tasks (·.id) ∧
    ∀ release ∈ site.store.releases, ¬ (release.status = .queued ∨ release.status = .deploying)
  step site operation := (site.perform operation).map (·.2)

/-- The site is coherent in every state of a run of whole operations. -/
theorem coherent_of_reached {site : Site}
    (h : completedOperations.Reached (fun _ => Operation.Whole) site) : site.Coherent := by
  refine h.invariant (fun site hinitial => ?_) fun site operation site' _ hwhole hcoherent hstep => ?_
  · obtain ⟨store, jobs⟩ := site
    obtain ⟨hqueue, hjobs, htasks, hreleases⟩ := hinitial
    obtain ⟨releases, queue, tasks⟩ := store
    obtain rfl : queue = [] := hqueue
    obtain rfl : jobs = [] := hjobs
    refine ⟨⟨List.nodup_nil, htasks, List.forall_mem_nil _, fun release hmem => ?_,
      List.forall_mem_nil _, List.forall_mem_nil _⟩, ⟨List.nodup_nil, List.forall_mem_nil _,
      List.forall_mem_nil _, List.forall_mem_nil _⟩⟩
    have hstatus := hreleases release hmem
    rw [not_or] at hstatus
    cases hcase : release.status <;> rw [hcase] at hstatus <;> simp_all [Agrees, Store.liveOf]
  · obtain ⟨result, hperform, rfl⟩ := Option.map_eq_some_iff.mp hstep
    exact (Site.perform_serves hcoherent hperform).coherent hwhole

/-- Every release has at most one live item, its status says whether this item waits or runs, and a
refused operation leaves releases and items as they were. -/
theorem release_status_agrees {site : Site}
    (h : completedOperations.Reached (fun _ => Operation.Whole) site) :
    (∀ release ∈ site.store.releases,
      (Store.liveOf site.store.queue release.id).length ≤ 1 ∧
      (release.status = .queued ↔ ∃ item ∈ site.store.queue, item.releaseId = release.id ∧
        (item.status = .scheduled ∨ item.status = .queued)) ∧
      (release.status = .deploying ↔ ∃ item ∈ site.store.queue, item.releaseId = release.id ∧
        item.status = .running)) ∧
    ∀ operation reply site', site.perform operation = some (reply, site') →
      reply ≠ .nothing ∧ (operation.Undisturbed → ∀ error, reply = .error error →
        site'.store.releases = site.store.releases ∧ site'.store.queue = site.store.queue) := by
  have hcoherent := coherent_of_reached h
  refine ⟨fun release hmem => ?_, fun operation reply site' hperform => ?_⟩
  · obtain ⟨-, hqueued, hdeploying⟩ := hcoherent.sound.release_status hmem
    have hlength := Store.length_le_one_of_agrees (hcoherent.sound.agreeing release hmem)
    rw [List.length_map] at hlength
    have hwaits (item : QueueItem) : item.status.isWaiting = true ↔
        item.status = .scheduled ∨ item.status = .queued := by
      cases item.status <;> simp [QueueStatus.isWaiting]
    simp only [hwaits] at hqueued
    exact ⟨hlength, hqueued, hdeploying⟩
  · have hserves := Site.perform_serves hcoherent hperform
    exact ⟨hserves.reply, hserves.unchanged⟩

/-- Two releases that have been received. -/
def receivedSite : Site := ⟨⟨[⟨1, 1, .received⟩, ⟨2, 2, .received⟩], [], []⟩, []⟩

theorem initial_receivedSite : completedOperations.initial receivedSite := by
  refine ⟨rfl, rfl, List.nodup_nil, fun release hmem => ?_⟩
  rcases List.mem_cons.mp hmem with rfl | hmem
  · decide
  · rw [List.mem_singleton.mp hmem]
    decide

/-- A dispatch that finds everything, with the statements that fail. -/
def dispatching (fails : List OperationStatement) : DispatchContext :=
  ⟨.ok (), .ok (), .ok (), .ok (), fails⟩

def publishing (releaseId : Int) : Operation :=
  .publishReleaseNow releaseId ⟨.ok (), .ok 7, .ok (), .ok ()⟩

/-- One release is deployed, and the other one waits behind a cancellation and a dispatch whose log
entry fails. -/
def deployingRun : List Operation :=
  [publishing 1, .dispatchNextReleaseForApp 1 (dispatching []),
    .runComposeTaskJob (.deployed true []) (dispatching []),
    .scheduleReleasePublish 2 (.ok "2026-06-09T10:00:00.000Z") ⟨.ok (), .ok 7, .ok (), .ok ()⟩,
    .cancelScheduledRelease 2 (.ok ()), publishing 2,
    .dispatchNextReleaseForApp 2 (dispatching [.logging]), publishing 1]

/-- The statuses behind the run: the first release waits again, the second one is deploying. -/
theorem release_status_agrees_deploying : ∃ site,
    completedOperations.Reached (fun _ => Operation.Whole) site ∧
    (∃ item ∈ site.store.queue, item.releaseId = 2 ∧ item.status = .running) ∧
    ∃ item ∈ site.store.queue, item.releaseId = 1 ∧
      (item.status = .scheduled ∨ item.status = .queued) := by
  have hany : ((completedOperations.restrict fun _ operation => decide operation.Whole).exec
      receivedSite deployingRun).any (fun site =>
        site.store.releases == [⟨1, 1, .queued⟩, ⟨2, 2, .deploying⟩]) = true := by
    decide +kernel
  obtain ⟨site, hexec, hstate⟩ := (Option.any_eq_true _ _).mp hany
  have hstart : Reachable (completedOperations.restrict fun _ operation => decide operation.Whole)
      receivedSite := .start initial_receivedSite
  have hreached : completedOperations.Reached (fun _ => Operation.Whole) site :=
    (Reached.of_restrict (hstart.exec hexec)).mono fun _ _ => of_decide_eq_true
  have hreleases : site.store.releases = [⟨1, 1, .queued⟩, ⟨2, 2, .deploying⟩] :=
    beq_iff_eq.mp hstate
  have hagrees := (release_status_agrees hreached).1
  rw [hreleases] at hagrees
  exact ⟨site, hreached,
    (hagrees ⟨2, 2, .deploying⟩ (by simp)).2.2.mp rfl,
    (hagrees ⟨1, 1, .queued⟩ (by simp)).2.1.mp rfl⟩

/-- Errors that leave a trace: the dispatch worker has stopped, a log entry of a dispatch fails, or
the second update of a scan fails; and an update of a release that fails behind that of its item. -/
theorem failed_publish_enqueues :
    (¬ ∀ site, completedOperations.Reachable site → ∀ releaseId context error site',
      site.perform (.publishReleaseNow releaseId context) = some (.error error, site') →
        site'.store.releases = site.store.releases ∧ site'.store.queue = site.store.queue) ∧
    (¬ ∀ site, completedOperations.Reachable site → ∀ appId context error site',
      context.enqueue = .ok () →
      site.perform (.dispatchNextReleaseForApp appId context) = some (.error error, site') →
        site'.store.releases = site.store.releases ∧ site'.store.queue = site.store.queue) ∧
    (¬ ∀ site, completedOperations.Reachable site → ∀ now working error site',
      site.perform (.enqueueDueScheduledReleases now working) = some (.error error, site') →
        site'.store.releases = site.store.releases ∧ site'.store.queue = site.store.queue) ∧
    ¬ ∀ site, completedOperations.Reachable site → ∀ release ∈ site.store.releases,
      (release.status = .deploying ↔ ∃ item ∈ site.store.queue, item.releaseId = release.id ∧
        item.status = .running) := by
  have hstart : completedOperations.Reachable receivedSite := .start initial_receivedSite
  refine ⟨fun hunchanged => ?_, fun hunchanged => ?_, fun hunchanged => ?_, fun hagrees => ?_⟩
  · let stopped : AppError := .internal "后台发布调度队列不可用"
    have hperform : receivedSite.perform
        (.publishReleaseNow 1 ⟨.ok (), .ok 7, .ok (), .error stopped⟩) =
        some (.error stopped, ⟨⟨[⟨1, 1, .queued⟩, ⟨2, 2, .received⟩],
          [⟨1, 1, 1, some 7, 1, .queued, none, none⟩], []⟩, []⟩) := by
      decide
    have hqueue := (hunchanged receivedSite hstart _ _ _ _ hperform).2
    cases hqueue
  · have hexec : completedOperations.exec receivedSite [publishing 1] =
        some ⟨⟨[⟨1, 1, .queued⟩, ⟨2, 2, .received⟩],
          [⟨1, 1, 1, some 7, 1, .queued, none, none⟩], []⟩, []⟩ := by
      decide
    have hperform : Site.perform ⟨⟨[⟨1, 1, .queued⟩, ⟨2, 2, .received⟩],
          [⟨1, 1, 1, some 7, 1, .queued, none, none⟩], []⟩, []⟩
        (.dispatchNextReleaseForApp 1 (dispatching [.logging])) =
        some (.error databaseError, ⟨⟨[⟨1, 1, .deploying⟩, ⟨2, 2, .received⟩],
          [⟨1, 1, 1, some 7, 1, .running, some 1, none⟩],
          [⟨1, .releaseDeploy, some 1, some 1, .queued⟩]⟩, []⟩) := by
      decide
    have hqueue := (hunchanged _ (hstart.exec hexec) _ _ _ _ rfl hperform).2
    cases hqueue
  · have hexec : completedOperations.exec receivedSite
        [.scheduleReleasePublish 1 (.ok "2026-06-09T10:00:00.000Z") ⟨.ok (), .ok 7, .ok (), .ok ()⟩,
          .scheduleReleasePublish 2 (.ok "2026-06-09T10:00:00.000Z")
            ⟨.ok (), .ok 7, .ok (), .ok ()⟩] =
        some ⟨⟨[⟨1, 1, .queued⟩, ⟨2, 2, .queued⟩],
          [⟨1, 1, 1, some 7, 1, .scheduled, none, some "2026-06-09T10:00:00.000Z"⟩,
            ⟨2, 2, 2, some 7, 1, .scheduled, none, some "2026-06-09T10:00:00.000Z"⟩], []⟩, []⟩ := by
      decide
    have hperform : Site.perform ⟨⟨[⟨1, 1, .queued⟩, ⟨2, 2, .queued⟩],
          [⟨1, 1, 1, some 7, 1, .scheduled, none, some "2026-06-09T10:00:00.000Z"⟩,
            ⟨2, 2, 2, some 7, 1, .scheduled, none, some "2026-06-09T10:00:00.000Z"⟩], []⟩, []⟩
        (.enqueueDueScheduledReleases "2026-06-09T10:00:30.000Z" (some 2)) =
        some (.error databaseError, ⟨⟨[⟨1, 1, .queued⟩, ⟨2, 2, .queued⟩],
          [⟨1, 1, 1, some 7, 1, .queued, none, none⟩,
            ⟨2, 2, 2, some 7, 1, .scheduled, none, some "2026-06-09T10:00:00.000Z"⟩], []⟩, []⟩) := by
      decide +kernel
    have hqueue := (hunchanged _ (hstart.exec hexec) _ _ _ _ hperform).2
    exact absurd hqueue (by decide)
  · have hexec : completedOperations.exec receivedSite
        [publishing 1, .dispatchNextReleaseForApp 1 (dispatching [.announcing])] =
        some ⟨⟨[⟨1, 1, .queued⟩, ⟨2, 2, .received⟩],
          [⟨1, 1, 1, some 7, 1, .running, some 1, none⟩],
          [⟨1, .releaseDeploy, some 1, some 1, .queued⟩]⟩, []⟩ := by
      decide
    have hdeploying := (hagrees _ (hstart.exec hexec) ⟨1, 1, .queued⟩ List.mem_cons_self).mpr
      ⟨_, List.mem_cons_self, rfl, rfl⟩
    cases hdeploying

end EasyDeploy.ReleaseQueue
