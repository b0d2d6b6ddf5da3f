import EasyDeploy.Foundation.Sequences
import EasyDeploy.Orchestrator.Database

/-!
# The tables of the release queue

The rows of `app_releases`, `app_release_queue` and `operation_tasks` that the
release queue works on, and one function for each statement or transaction. Its
queue items and tasks name no environment, so that the unique index on running
items of an environment does not concern them.
-/

namespace EasyDeploy.ReleaseQueue
open Foundation
open Orchestrator (TaskStatus)

/-- The values of `app_release_queue.status`. -/
inductive QueueStatus
  | scheduled
  | queued
  | running
  | success
  | failed
  | canceled
deriving Repr, DecidableEq

namespace QueueStatus

/-- The item has not been started. -/
def isWaiting : QueueStatus → Bool
  | scheduled | queued => true
  | _ => false

/-- The statuses of the partial unique index on the release. -/
def isActive : QueueStatus → Bool
  | queued | running => true
  | _ => false

/-- The item has not ended. -/
def isLive : QueueStatus → Bool
  | scheduled | queued | running => true
  | _ => false

theorem isLive_of_isWaiting {status : QueueStatus} (h : status.isWaiting = true) :
    status.isLive = true := by
  cases status <;> first | rfl | cases h

end QueueStatus

/-- The values of `app_releases.status`. -/
inductive ReleaseStatus
  | received
  | queued
  | deploying
  | deployed
  | failed
  | rolledBack
  | canceled
deriving Repr, DecidableEq

/-- What a task does. -/
inductive TaskKind
  | composeUp
  | composeDown
  | composeRestart
  | binaryRestart
  | binaryStop
  | artifactGitPublish
  | releaseDeploy
  | releaseRollback
  | releaseManualApply
  | nodeInstall (tool : String)
deriving Repr, DecidableEq

/-- The kinds of the trigger on `operation_tasks`. -/
def TaskKind.isDeployment : TaskKind → Bool
  | nodeInstall _ => false
  | _ => true

/-- The kinds that `active_app_task` looks for. -/
def TaskKind.blocksApp : TaskKind → Bool
  | artifactGitPublish => false
  | _ => true

/-- A row of the releases. -/
structure Release where
  id : Int
  appId : Int
  status : ReleaseStatus
deriving Repr, DecidableEq

/-- A row of the queue. -/
structure QueueItem where
  id : Int
  appId : Int
  releaseId : Int
  configSnapshotId : Option Int
  queueSeq : Int
  status : QueueStatus
  taskId : Option Int
  scheduledPublishAt : Option String
deriving Repr, DecidableEq

/-- The items that `cancel_scheduled_release` cancels. -/
def QueueItem.awaitsTime (item : QueueItem) : Bool :=
  item.status == .scheduled && item.scheduledPublishAt.any fun time => !time.isEmpty

/-- A row of `operation_tasks` without an environment. -/
structure Task where
  id : Int
  kind : TaskKind
  appId : Option Int
  releaseId : Option Int
  status : TaskStatus
deriving Repr, DecidableEq

/-- How a call fails. -/
inductive AppError
  | invalidInput (message : String)
  | conflict (message : String)
  | internal (message : String)
deriving Repr, DecidableEq

/-- The tables of releases, items and tasks. -/
structure Store where
  releases : List Release
  queue : List QueueItem
  tasks : List Task
deriving Repr, DecidableEq

namespace Store

variable (store : Store)

/-- The trigger rejects a second open deployment task of an application. -/
def createTask (kind : TaskKind) (appId releaseId : Option Int) :
    Except AppError (Int × Store) :=
  if kind.isDeployment && appId.isSome && store.tasks.any fun existing =>
      existing.status.isOpen && existing.kind.isDeployment && existing.appId == appId then
    .error (.internal "该应用已有等待中或执行中的部署任务")
  else
    let id := nextId (store.tasks.map (·.id))
    .ok (id, { store with tasks := store.tasks ++ [⟨id, kind, appId, releaseId, .queued⟩] })

/-- The status of a task. -/
def taskStatus (taskId : Int) : Option TaskStatus :=
  (store.tasks.find? fun task => task.id == taskId).map (·.status)

/-- The update of `mark_running`. -/
def markTaskRunning (taskId : Int) : Store :=
  { store with
    tasks := updateAt store.tasks (·.id) taskId (·.status == .queued)
      fun task => { task with status := .running } }

/-- The update of `cancel_queued`. -/
def cancelTask (taskId : Int) : Store :=
  { store with
    tasks := updateAt store.tasks (·.id) taskId (·.status == .queued)
      fun task => { task with status := .canceled } }

/-- The updates of `fail_task` and `finish_with_compose_output`. -/
def finishTask (taskId : Int) (status : TaskStatus) : Store :=
  { store with
    tasks := updateAt store.tasks (·.id) taskId (fun _ => true)
      fun task => { task with status } }

/-- `active_app_task` finds a running task. -/
def hasRunningTask (appId : Int) : Bool :=
  store.tasks.any fun task => task.appId == some appId && task.status == .running &&
    task.kind.blocksApp

/-- The status of a release is changed. -/
def setReleaseStatus (releaseId : Int) (status : ReleaseStatus) : Store :=
  { store with
    releases := updateAt store.releases (·.id) releaseId (fun _ => true)
      fun release => { release with status } }

/-- An insert, unless it violates the unique index on the release. -/
def enqueueAppRelease (appId releaseId configSnapshotId : Int) (status : QueueStatus)
    (scheduledPublishAt : Option String) : Option (Int × Store) :=
  if status.isActive && store.queue.any fun item =>
      item.releaseId == releaseId && item.status.isActive then
    none
  else
    let id := nextId (store.queue.map (·.id))
    let queueSeq := nextId ((store.queue.filter fun item => item.appId == appId).map (·.queueSeq))
    some (id, { store with queue := store.queue ++
      [⟨id, appId, releaseId, some configSnapshotId, queueSeq, status, none,
        scheduledPublishAt⟩] })

/-- The transaction of `publish_release_now`: a violated index leaves the release queued. -/
def publishTransaction (appId releaseId configSnapshotId : Int) : Option Int × Store :=
  match store.enqueueAppRelease appId releaseId configSnapshotId .queued none with
  | some (queueId, store) => (some queueId, store.setReleaseStatus releaseId .queued)
  | none => (none, store.setReleaseStatus releaseId .queued)

/-- The transaction of `schedule_release_publish`. -/
def scheduleTransaction (appId releaseId configSnapshotId : Int) (scheduledPublishAt : String) :
    Option Store :=
  (store.enqueueAppRelease appId releaseId configSnapshotId .scheduled
    (some scheduledPublishAt)).map fun enqueued => enqueued.2.setReleaseStatus releaseId .queued

/-- The transaction of `cancel_scheduled_release`. -/
def cancelScheduledRelease (releaseId : Int) : Except AppError Store :=
  if affectedAt store.queue (·.releaseId) releaseId QueueItem.awaitsTime = 0 then
    .error (.invalidInput "当前发布版本没有待执行的定时发布")
  else
    let canceled := { store with
      queue := updateAt store.queue (·.releaseId) releaseId QueueItem.awaitsTime
        fun item => { item with status := .canceled, scheduledPublishAt := none } }
    .ok (canceled.setReleaseStatus releaseId .received)

/-- The row of an item. -/
def queueItem (queueId : Int) : Option QueueItem :=
  store.queue.find? fun item => item.id == queueId

/-- The transaction of `cancel_release_queue_item`. -/
def cancelItemTransaction (queueId releaseId : Int) : Store :=
  let canceled := { store with
    queue := updateAt store.queue (·.id) queueId (fun _ => true)
      fun item => { item with status := .canceled, scheduledPublishAt := none } }
  canceled.setReleaseStatus releaseId .received

/-- The transaction of `cancel_queued_task` on the queue item of the task. -/
def cancelTaskTransaction (taskId : Int) : Store :=
  match store.queue.find? fun item => item.taskId == some taskId && item.status.isActive with
  | some item =>
      let canceled := { store with
        queue := updateAt store.queue (·.id) item.id (·.status.isActive)
          fun item => { item with status := .canceled } }
      canceled.setReleaseStatus item.releaseId .received
  | none => store

/-- One update of the scan for due items. -/
def promoteItem (queueId : Int) : Except AppError (Bool × Store) :=
  match store.queueItem queueId with
  | some item =>
      if item.status == .scheduled then
        if store.queue.any fun other => other.releaseId == item.releaseId &&
            other.status.isActive then
          .error (.internal "UNIQUE constraint failed: app_release_queue.release_id")
        else
          .ok (true, { store with
            queue := updateAt store.queue (·.id) queueId (·.status == .scheduled)
              fun item => { item with status := .queued, scheduledPublishAt := none } })
      else
        .ok (false, store)
  | none => .ok (false, store)

/-- Whether an item of the application runs. -/
def hasRunningItem (appId : Int) : Bool :=
  store.queue.any fun item => item.appId == appId && item.status == .running

/-- Sequence number and identifier, by which waiting items are taken. -/
def queueLe (left right : QueueItem) : Bool :=
  decide (left.queueSeq < right.queueSeq ∨ left.queueSeq = right.queueSeq ∧ left.id ≤ right.id)

/-- The item that is deployed next. -/
def nextQueueItem (appId : Int) : Option QueueItem :=
  (sortBy queueLe (store.queue.filter fun item =>
    item.appId == appId && item.status == .queued &&
      store.releases.any fun release => release.id == item.releaseId)).head?

/-- An item is started, if it still waits. -/
def markReleaseQueueRunning (queueId taskId : Int) : Bool × Store :=
  (affectedAt store.queue (·.id) queueId (·.status == .queued) != 0,
    { store with
      queue := updateAt store.queue (·.id) queueId (·.status == .queued)
        fun item => { item with status := .running, taskId := some taskId } })

/-- The first update of `finish_release_queue_item`. -/
def finishItem (queueId : Int) (status : QueueStatus) : Store :=
  { store with
    queue := updateAt store.queue (·.id) queueId (fun _ => true)
      fun item => { item with status } }

/-- The status of a release whose item has ended. -/
def finishedReleaseStatus : QueueStatus → ReleaseStatus
  | .success => .deployed
  | .failed => .failed
  | .canceled => .canceled
  | _ => .failed

/-- An item and its release end. -/
def finishReleaseQueueItem (queueId releaseId : Int) (status : QueueStatus) : Store :=
  (store.finishItem queueId status).setReleaseStatus releaseId (finishedReleaseStatus status)

/-- The item that `fail_compose_task` looks up. -/
def activeItemOf (taskId : Int) : Option QueueItem :=
  store.queue.find? fun item => item.taskId == some taskId && item.status.isActive

variable {store : Store}

theorem queueItem_eq_some {queueId : Int} {item : QueueItem}
    (h : store.queueItem queueId = some item) : item ∈ store.queue ∧ item.id = queueId :=
  ⟨List.mem_of_find?_eq_some h, by simpa using List.find?_some h⟩

theorem nextQueueItem_eq_some {appId : Int} {item : QueueItem}
    (h : store.nextQueueItem appId = some item) :
    item ∈ store.queue ∧ item.appId = appId ∧ item.status = .queued := by
  have hmem := mem_sortBy.mp (List.mem_of_mem_head? h)
  simp only [List.mem_filter, Bool.and_eq_true, beq_iff_eq] at hmem
  exact ⟨hmem.1, hmem.2.1.1, hmem.2.1.2⟩

theorem markReleaseQueueRunning_queued {item : QueueItem} (hitem : item ∈ store.queue)
    (hqueued : item.status = .queued) (taskId : Int) :
    (store.markReleaseQueueRunning item.id taskId).1 = true := by
  have hpos : 0 < affectedAt store.queue (·.id) item.id (·.status == .queued) :=
    List.countP_pos_iff.mpr ⟨item, hitem, by simp [hqueued]⟩
  simpa [markReleaseQueueRunning] using hpos.ne'

/-- An item that is not queued is not started. -/
theorem markReleaseQueueRunning_of_not {queueId : Int}
    (h : ∀ item ∈ store.queue, item.id = queueId → item.status ≠ .queued) (taskId : Int) :
    store.markReleaseQueueRunning queueId taskId = (false, store) := by
  have hguard (item : QueueItem) (hitem : item ∈ store.queue) :
      ¬ (item.id = queueId ∧ (item.status == .queued) = true) := fun hwanted =>
    h item hitem hwanted.1 (beq_iff_eq.mp hwanted.2)
  have hzero : affectedAt store.queue (·.id) queueId (·.status == .queued) = 0 := by
    refine List.countP_eq_zero.mpr fun item hitem hwanted => hguard item hitem ?_
    simpa using hwanted
  have hsame : updateAt store.queue (·.id) queueId (·.status == .queued)
      (fun item => { item with status := .running, taskId := some taskId }) = store.queue :=
    (List.map_congr_left fun item hitem => if_neg (hguard item hitem)).trans (List.map_id _)
  rw [markReleaseQueueRunning, hzero, hsame]
  rfl

end Store

end EasyDeploy.ReleaseQueue
