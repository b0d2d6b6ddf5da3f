import EasyDeploy.ReleaseQueue.ItemStatements
import EasyDeploy.ReleaseQueue.PublicationTimes

/-!
# The scan for due items

The schedule worker reads the due items and moves them to the queue one by one,
while all others go on. The applications are sent to the dispatch worker when the
last item is moved, unless an update has failed before.
-/

namespace EasyDeploy.ReleaseQueue
open Foundation
open Foundation.Transition

/-- What the update of an item that was read came to: it was promoted, or it was no longer
scheduled, or its update failed, or it was skipped while it was still scheduled. -/
inductive Promotion
  | promoted
  | unscheduled
  | failed
  | skipped
deriving Repr, DecidableEq

/-- A scan with the items it has read, what became of those it is done with, and the applications
that the worker has sent for it. -/
structure DueScan where
  now : Clock
  read : List QueueItem
  promotions : List (QueueItem × Promotion)
  sent : List Int
deriving Repr, DecidableEq

/-- The `app_ids` that the scan collects. -/
def DueScan.appIds (scan : DueScan) : List Int :=
  (scan.promotions.filter fun promotion => promotion.2 == .promoted).map (·.1.appId)

/-- The place at which `release_schedule_worker` is. -/
inductive ScheduleStage
  | ticking
  | updating (scan : DueScan) (items : List QueueItem)
  | sending (scan : DueScan) (appIds : List Int)
deriving Repr, DecidableEq

/-- The scan under way. -/
def ScheduleStage.scan : ScheduleStage → Option DueScan
  | ticking => none
  | updating scan _ | sending scan _ => some scan

/-- The table with the scans and the calls under way. -/
structure ScheduledWorld where
  world : World
  stage : ScheduleStage
  /-- Applications that were sent to the dispatch queue. -/
  sent : List Int
  /-- The scans that have ended. -/
  scans : List DueScan
deriving Repr, DecidableEq

/-- The steps of scans, calls and time. -/
inductive ScheduleAction
  | others (action : Action)
  | select (now : Clock) (works : Bool)
  | update (works : Bool)
  | collect
  | send
deriving Repr, DecidableEq

namespace Store

/-- Whether an item waits for its time. -/
def isScheduled (store : Store) (queueId : Int) : Bool :=
  (store.queueItem queueId).any fun item => item.status == .scheduled

/-- The identifier of the item that an insert gets. -/
def newQueueId (store : Store) : Int := nextId (store.queue.map (·.id))

/-- An update that may fail. -/
def tryPromoteItem (store : Store) (works : Bool) (queueId : Int) :
    Except AppError (Bool × Store) :=
  if works then store.promoteItem queueId else .error (.internal "database error")

end Store

/-- The items behind an update that failed. -/
def DueScan.abandon (scan : DueScan) (store : Store) (item : QueueItem)
    (items : List QueueItem) : DueScan :=
  { scan with
    promotions := scan.promotions ++ (item, .failed) :: items.map fun other =>
      (other, if store.isScheduled other.id then .skipped else .unscheduled) }

namespace ScheduledWorld

variable (calendar : Calendar) (entered : Int → String) (state : ScheduledWorld)

/-- Steps of the others; items are scheduled at what the entered text is normalized to. -/
def admits : Action → Bool
  | .promoteItem _ => false
  | .commitRelease call _ true =>
      call.scheduledPublishAt.all fun time =>
        match calendar.normalizePublishedAt (entered state.world.store.newQueueId) with
        | .ok normalized => normalized == some time
        | .error _ => false
  | _ => true

def step : ScheduleAction → Option ScheduledWorld
  | .others action =>
      if state.admits calendar entered action then
        (state.world.step action).map fun world => { state with world }
      else
        none
  | .select now works =>
      match state.stage with
      | .ticking =>
          let items := Site.dueItems ⟨state.world.store, []⟩ now.text
          some { state with
            stage := if works then .updating ⟨now, items, [], []⟩ items else .ticking }
      | _ => none
  | .update works =>
      match state.stage with
      | .updating scan (item :: items) =>
          match state.world.store.tryPromoteItem works item.id with
          | .ok (promoted, store) =>
              let promotion := if promoted then Promotion.promoted else .unscheduled
              some { state with
                world := { state.world with store }
                stage := .updating
                  { scan with promotions := scan.promotions ++ [(item, promotion)] } items }
          | .error _ =>
              some { state with
                stage := .ticking
                scans := state.scans ++ [scan.abandon state.world.store item items] }
      | _ => none
  | .collect =>
      match state.stage with
      | .updating scan [] =>
          some { state with stage := .sending scan scan.appIds }
      | _ => none
  | .send =>
      match state.stage with
      | .sending scan [] =>
          some { state with stage := .ticking, scans := state.scans ++ [scan] }
      | .sending scan (appId :: appIds) =>
          some { state with
            stage := .sending { scan with sent := scan.sent ++ [appId] } appIds
            sent := state.sent ++ [appId] }
      | _ => none

end ScheduledWorld

/-- The schedule worker beside the others; `entered` is what the operator enters for the item
that gets the identifier. -/
def scheduling (calendar : Calendar) (entered : Int → String) :
    Transition ScheduledWorld ScheduleAction where
  initial state := state.stage = .ticking ∧ state.sent = [] ∧ state.scans = [] ∧
    ∀ item ∈ state.world.store.queue, item.awaitsTime = false
  step := ScheduledWorld.step calendar entered

namespace Store

/-- A statement that makes no item wait for its time. -/
def Awaits (store store' : Store) : Prop :=
  ∀ item ∈ store'.queue, item.awaitsTime = true → item ∈ store.queue

variable {store store' : Store}

theorem Awaits.of_queue (h : store'.queue = store.queue) : store.Awaits store' :=
  fun _ hitem _ => h ▸ hitem

theorem Awaits.update {κ : Type*} [DecidableEq κ] {key : QueueItem → κ} {target : κ}
    {guard : QueueItem → Bool} {change : QueueItem → QueueItem}
    (hchange : ∀ item, (change item).awaitsTime = false)
    (h : store'.queue = updateAt store.queue key target guard change) : store.Awaits store' := by
  intro item hitem hawaits
  rw [h] at hitem
  refine mem_of_updateAt_of_not (P := fun item => item.awaitsTime = true) hitem ?_ hawaits
  intro other _ hother
  rw [hchange] at hother
  cases hother

theorem awaitsTime_of_status {item : QueueItem} (h : item.status ≠ .scheduled) :
    item.awaitsTime = false := by
  simp [QueueItem.awaitsTime, h]

theorem awaits_finishItem (queueId : Int) {status : QueueStatus} (h : status ≠ .scheduled) :
    store.Awaits (store.finishItem queueId status) :=
  .update (fun _ => awaitsTime_of_status h) rfl

theorem awaits_mark (queueId taskId : Int) :
    store.Awaits (store.markReleaseQueueRunning queueId taskId).2 :=
  .update (fun _ => awaitsTime_of_status (by simp)) rfl

theorem awaits_createTask {kind : TaskKind} {appId releaseId : Option Int} {taskId : Int}
    (h : store.createTask kind appId releaseId = .ok (taskId, store')) : store.Awaits store' :=
  .of_queue (by rw [(createTask_eq_ok h).1])

theorem awaits_cancelTaskTransaction (taskId : Int) :
    store.Awaits (store.cancelTaskTransaction taskId) := by
  rw [cancelTaskTransaction]
  split
  · exact .update (fun _ => awaitsTime_of_status (by simp)) rfl
  · exact .of_queue rfl

theorem awaits_promoteItem {queueId : Int} {promoted : Bool}
    (h : store.promoteItem queueId = .ok (promoted, store')) : store.Awaits store' := by
  rw [promoteItem] at h
  split at h
  · split at h
    · split at h
      · cases h
      · obtain ⟨-, rfl⟩ := Prod.mk.inj (Except.ok.inj h)
        exact .update (fun _ => awaitsTime_of_status (by simp)) rfl
    · obtain ⟨-, rfl⟩ := Prod.mk.inj (Except.ok.inj h)
      exact .of_queue rfl
  · obtain ⟨-, rfl⟩ := Prod.mk.inj (Except.ok.inj h)
    exact .of_queue rfl

theorem awaits_cancelScheduledRelease {releaseId : Int}
    (h : store.cancelScheduledRelease releaseId = .ok store') : store.Awaits store' := by
  rw [cancelScheduledRelease] at h
  split at h
  · cases h
  · obtain rfl := Except.ok.inj h
    exact .update (fun _ => awaitsTime_of_status (by simp)) rfl

/-- The item that an insert adds. -/
theorem mem_of_enqueue {appId releaseId snapshotId queueId : Int} {status : QueueStatus}
    {time : Option String} (h : store.enqueueAppRelease appId releaseId snapshotId status time =
      some (queueId, store')) {item : QueueItem} (hitem : item ∈ store'.queue) :
    item ∈ store.queue ∨
      item.id = store.newQueueId ∧ item.status = status ∧ item.scheduledPublishAt = time := by
  rw [enqueueAppRelease] at h
  split at h
  · cases h
  · obtain ⟨-, rfl⟩ := Prod.mk.inj (Option.some.inj h)
    rcases List.mem_append.mp hitem with hold | hnew
    · exact .inl hold
    · obtain rfl := List.mem_singleton.mp hnew
      exact .inr ⟨rfl, rfl, rfl⟩

end Store

theorem DispatchStage.awaits_step (stage : DispatchStage) (works : Bool) (appId : Int)
    (store : Store) (channel : List ComposeTaskJob) :
    store.Awaits (stage.step works appId store channel).2.1 := by
  cases works with
  | false => exact .of_queue rfl
  | true =>
      cases stage with
      | creatingTask item =>
          change store.Awaits (advance appId store channel (creatingTask item)).2.1
          simp only [advance]
          split
          · exact .of_queue rfl
          · rename_i hcreate
            exact Store.awaits_createTask hcreate
      | marking item taskId => exact Store.awaits_mark item.id taskId
      | failingItem item taskId => exact Store.awaits_finishItem item.id (by simp)
      | _ => exact .of_queue rfl

theorem WorkStage.awaits_step (stage : WorkStage) (works : Bool) (job : ComposeTaskJob)
    (store : Store) (channel : List ComposeTaskJob) :
    store.Awaits (stage.step works job store channel).2.1 := by
  cases works with
  | false => exact .of_queue rfl
  | true =>
      cases stage with
      | starting =>
          change store.Awaits (advance job store channel starting).2.1
          simp only [advance]
          split <;> exact .of_queue rfl
      | failingItem queueId releaseId => exact Store.awaits_finishItem queueId (by simp)
      | finishingItem queueId releaseId success =>
          exact Store.awaits_finishItem queueId (by cases success <;> simp)
      | dispatching stage => exact stage.awaits_step true job.appId store channel
      | _ => exact .of_queue rfl

namespace World

variable {world world' : World}

/-- Items that are scheduled enter with the transaction of `schedule_release_publish`. -/
theorem awaits_step {action : Action} (h : world.step action = some world') {item : QueueItem}
    (hitem : item ∈ world'.store.queue) (hawaits : item.awaitsTime = true) :
    item ∈ world.store.queue ∨ ∃ call snapshotId time,
      action = .commitRelease call snapshotId true ∧ call.scheduledPublishAt = some time ∧
      item.id = world.store.newQueueId ∧ item.scheduledPublishAt = some time := by
  have hkept (hstore : world.store.Awaits world'.store) : item ∈ world.store.queue :=
    hstore item hitem hawaits
  cases action with
  | commitRelease call snapshotId works =>
      simp only [step] at h
      split at h
      · obtain rfl := Option.some.inj h
        cases works with
        | false => exact .inl hitem
        | true =>
            simp only [↓reduceIte, commitRelease] at hitem
            cases htime : call.scheduledPublishAt with
            | none =>
                simp only [htime, Store.publishTransaction] at hitem
                split at hitem
                · rename_i henqueue
                  refine (Store.mem_of_enqueue henqueue hitem).imp_right fun hnew => ?_
                  rw [Store.awaitsTime_of_status (by simp [hnew.2.1])] at hawaits
                  cases hawaits
                · exact .inl hitem
            | some time =>
                simp only [htime, Store.scheduleTransaction] at hitem
                cases henqueue : world.store.enqueueAppRelease call.release.appId call.release.id
                    snapshotId .scheduled (some time) with
                | none =>
                    rw [henqueue] at hitem
                    exact .inl hitem
                | some result =>
                    rw [henqueue] at hitem
                    refine (Store.mem_of_enqueue henqueue hitem).imp_right fun hnew => ?_
                    exact ⟨call, snapshotId, time, rfl, htime, hnew.1, hnew.2.2⟩
      · cases h
  | readRelease releaseId time =>
      obtain ⟨_, -, rfl⟩ := Option.map_eq_some_iff.mp h
      exact .inl hitem
  | promoteItem queueId =>
      simp only [step] at h
      split at h
      · rename_i hpromote
        obtain rfl := Option.some.inj h
        exact .inl (hkept (Store.awaits_promoteItem hpromote))
      · cases h
  | cancelScheduledRelease releaseId =>
      simp only [step] at h
      split at h
      · rename_i hcancel
        obtain rfl := Option.some.inj h
        exact .inl (hkept (Store.awaits_cancelScheduledRelease hcancel))
      · cases h
  | commitItem queueId releaseId works =>
      simp only [step] at h
      split at h
      · obtain rfl := Option.some.inj h
        cases works with
        | false => exact .inl hitem
        | true => exact .inl (hkept (.update (fun _ => Store.awaitsTime_of_status (by simp)) rfl))
      · cases h
  | commitTask taskId works =>
      simp only [step] at h
      split at h
      · obtain rfl := Option.some.inj h
        cases works with
        | false => exact .inl hitem
        | true => exact .inl (hkept (Store.awaits_cancelTaskTransaction taskId))
      · cases h
  | createComposeTask kind appId =>
      simp only [step] at h
      split at h
      · rename_i hcreate
        obtain rfl := Option.some.inj h
        exact .inl (hkept (Store.awaits_createTask hcreate))
      · cases h
  | dispatch works =>
      obtain ⟨dispatch, -, rfl⟩ := Option.map_eq_some_iff.mp h
      exact .inl (hkept (dispatch.stage.awaits_step works _ _ _))
  | work works =>
      obtain ⟨work, -, rfl⟩ := Option.map_eq_some_iff.mp h
      exact .inl (hkept (work.stage.awaits_step works _ _ _))
  | _ =>
      simp only [step] at h
      repeat' split at h
      all_goals first
        | obtain rfl := Option.some.inj h
          exact .inl hitem
        | cases h

end World

namespace ScheduledWorld

variable (calendar : Calendar) (entered : Int → String) (state : ScheduledWorld)

/-- The scans, with the one under way. -/
def allScans : List DueScan := state.scans ++ state.stage.scan.toList

/-- What a scan moves and what it tells. -/
structure Lossless : Prop where
  /-- Items are promoted when the time that the operator entered has come. -/
  punctual : ∀ scan ∈ state.allScans, ∀ item, (item, .promoted) ∈ scan.promotions →
    ∃ instant, calendar.instantEntered (entered item.id) = some instant ∧ instant ≤ scan.now.time
  /-- A scan that has ended has dealt with all that it has read. -/
  covered : ∀ scan ∈ state.scans, scan.promotions.map (·.1) = scan.read
  complete : ∀ scan ∈ state.allScans, ∀ promotion ∈ scan.promotions, promotion.2 ≠ .skipped
  /-- A scan that has ended has sent the application of every item that it has promoted. -/
  sent : ∀ scan ∈ state.scans, scan.sent = scan.appIds
  sending : ∀ scan appIds, state.stage = .sending scan appIds → scan.sent ++ appIds = scan.appIds
  /-- What the scans have sent is what the dispatch queue has got. -/
  delivered : state.sent = state.allScans.flatMap (·.sent)

/-- The times that are entered are read by the program, and an update fails only when its scan
has promoted no item before and no item behind it is still scheduled. -/
def Careful : ScheduleAction → Prop
  | .others (.commitRelease call _ true) => call.scheduledPublishAt.isSome = true →
      calendar.Dated (entered state.world.store.newQueueId)
  | .update works => ∀ scan item items error, state.stage = .updating scan (item :: items) →
      state.world.store.tryPromoteItem works item.id = .error error →
      scan.appIds = [] ∧ ∀ other ∈ items, state.world.store.isScheduled other.id = false
  | _ => True

end ScheduledWorld

end EasyDeploy.ReleaseQueue
