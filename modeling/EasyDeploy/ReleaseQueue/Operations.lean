import EasyDeploy.ReleaseQueue.Tables

/-!
# Operations on the release queue

The operations of the release queue, each run to its end. What an operation
learns from other tables, from the file system and from the channels of the
workers is an argument. An operation returns a reply and what it leaves behind,
also when the reply is an error. A statement on the database may fail; what comes
before the first write of an operation then shows in what it finds.
-/

namespace EasyDeploy.ReleaseQueue
open Foundation
open Orchestrator (TaskStatus)

/-- A job of the worker. -/
structure ComposeTaskJob where
  taskId : Int
  appId : Int
  releaseId : Option Int
  queueId : Option Int
deriving Repr, DecidableEq

/-- The tables and the jobs that wait for the compose worker. -/
structure Site where
  store : Store
  jobs : List ComposeTaskJob
deriving Repr, DecidableEq

/-- What a call answers. -/
inductive Reply
  | done
  /-- `Ok(None)`: nothing was enqueued. -/
  | nothing
  | error (error : AppError)
deriving Repr, DecidableEq

/-- The answer that a result gives. -/
def Reply.of : Except AppError Unit → Reply
  | .ok () => .done
  | .error reason => .error reason

/-- The error of a statement that fails. -/
def databaseError : AppError := .internal "应用数据操作失败"

/-- The statements of a dispatch or a job that may fail behind its first write. -/
inductive OperationStatement
  /-- The update of `mark_release_queue_running`. -/
  | marking
  /-- The update of the release to `deploying`. -/
  | announcing
  /-- The log entries, the runtime states and the strategy of a dispatch. -/
  | logging
  /-- The query of `fail_compose_task`. -/
  | lookingUp
  /-- The updates of `finish_release_queue_item`. -/
  | finishingItem
  | finishingRelease
  /-- The update of the task. -/
  | finishingTask
deriving Repr, DecidableEq

/-- What the checks of `publish_release_now` and `schedule_release_publish` find besides the
release. -/
structure PublishContext where
  /-- The application exists, is enabled and is a compose application. -/
  app : Except AppError Unit
  /-- `resolve_release_snapshot_id`, and the metadata with it. -/
  snapshot : Except AppError Int
  /-- Whether the transaction is committed. -/
  commit : Except AppError Unit
  /-- Whether the dispatch worker takes the application. -/
  dispatch : Except AppError Unit
deriving Repr, DecidableEq

/-- What `dispatch_next_release_for_app` finds besides the queue. -/
structure DispatchContext where
  /-- Whether the queue is read. -/
  read : Except AppError Unit
  /-- The application exists and is enabled. -/
  app : Except AppError Unit
  /-- The snapshot and target nodes exist, and the runtime files are saved. -/
  prepared : Except AppError Unit
  /-- Whether the compose worker takes the job. -/
  enqueue : Except AppError Unit
  fails : List OperationStatement
deriving Repr, DecidableEq

/-- How the execution of a job ends, with the statements that fail on the way. -/
inductive JobOutcome
  /-- `mark_running` fails, before or behind its update. -/
  | notStarted (marked : Bool)
  | preflightFailed (fails : List OperationStatement)
  | deployed (success : Bool) (fails : List OperationStatement)
deriving Repr, DecidableEq

namespace Store

variable (store : Store) (fails : List OperationStatement)

/-- `finish_release_queue_item`, until one of its updates fails. -/
def finishing (queueId releaseId : Int) (status : QueueStatus) : Bool × Store :=
  if .finishingItem ∈ fails then
    (false, store)
  else if .finishingRelease ∈ fails then
    (false, store.finishItem queueId status)
  else
    (true, store.finishReleaseQueueItem queueId releaseId status)

/-- A task gets its final status. -/
def closeTask (taskId : Int) (status : TaskStatus) : Store :=
  if .finishingTask ∈ fails then store else store.finishTask taskId status

/-- The queue item of a job, when it has one, and its release. -/
def finishingJob (job : ComposeTaskJob) (status : QueueStatus) : Bool × Store :=
  match job.queueId, job.releaseId with
  | some queueId, some releaseId => store.finishing fails queueId releaseId status
  | _, _ => (true, store)

end Store

namespace Site

variable (site : Site)

/-- A release is queued at once. -/
def publishReleaseNow (releaseId : Int) (context : PublishContext) : Reply × Site :=
  match site.store.releases.find? fun release => release.id == releaseId with
  | none => (.error (.invalidInput "发布版本不存在"), site)
  | some release =>
      match context.app with
      | .error error => (.error error, site)
      | .ok () =>
          if site.store.hasRunningTask release.appId then
            (.error (.conflict "当前应用正在部署流程中，请等待部署完成后再发布新版本"), site)
          else if release.status = .queued ∨ release.status = .deploying then
            (.error (.conflict "该发布版本已经在发布队列中"), site)
          else
            match context.snapshot with
            | .error error => (.error error, site)
            | .ok snapshotId =>
                match context.commit with
                | .error error => (.error error, site)
                | .ok () =>
                    let (queueId, store) :=
                      site.store.publishTransaction release.appId release.id snapshotId
                    let site := { site with store }
                    match context.dispatch with
                    | .error error => (.error error, site)
                    | .ok () => (if queueId.isSome then .done else .nothing, site)

/-- A release is queued for a time. -/
def scheduleReleasePublish (releaseId : Int) (scheduledPublishAt : Except AppError String)
    (context : PublishContext) : Reply × Site :=
  match scheduledPublishAt with
  | .error error => (.error error, site)
  | .ok scheduledPublishAt =>
      match site.store.releases.find? fun release => release.id == releaseId with
      | none => (.error (.invalidInput "发布版本不存在"), site)
      | some release =>
          match context.app with
          | .error error => (.error error, site)
          | .ok () =>
              if release.status = .queued ∨ release.status = .deploying then
                (.error (.conflict "该发布版本已经在发布队列中"), site)
              else
                match context.snapshot with
                | .error error => (.error error, site)
                | .ok snapshotId =>
                    match site.store.scheduleTransaction release.appId release.id snapshotId
                        scheduledPublishAt with
                    | none => (.error (.internal "UNIQUE constraint failed"), site)
                    | some store =>
                        match context.commit with
                        | .error error => (.error error, site)
                        | .ok () => (.done, { site with store })

/-- A release is not published at its time. -/
def cancelScheduledRelease (releaseId : Int) (commit : Except AppError Unit) : Reply × Site :=
  match site.store.cancelScheduledRelease releaseId with
  | .error error => (.error error, site)
  | .ok store =>
      match commit with
      | .error error => (.error error, site)
      | .ok () => (.done, { site with store })

/-- An item is taken from the queue. -/
def cancelReleaseQueueItem (queueId : Int) (commit dispatch : Except AppError Unit) :
    Reply × Site :=
  match site.store.queueItem queueId with
  | none => (.error (.invalidInput "发布队列项不存在"), site)
  | some item =>
      if item.status.isWaiting then
        match commit with
        | .error error => (.error error, site)
        | .ok () => (.of dispatch,
            { site with store := site.store.cancelItemTransaction queueId item.releaseId })
      else
        (.error (.invalidInput "只能取消等待中或定时等待的发布队列项"), site)

/-- The items that `enqueue_due_scheduled_releases` selects. -/
def dueItems (now : String) : List QueueItem :=
  let le (left right : QueueItem) : Bool :=
    let time (item : QueueItem) := item.scheduledPublishAt.getD ""
    decide (time left < time right) || time left == time right && Store.queueLe left right
  (sortBy le (site.store.queue.filter fun item =>
    item.awaitsTime && item.scheduledPublishAt.any fun time => decide (time ≤ now))).take 20

/-- The updates of the scan, until one of them fails; so many work before a statement fails. -/
def promoteAll (site : Site) (working : Option Nat) : List QueueItem → Reply × Site
  | [] => (.done, site)
  | item :: items =>
      if working = some 0 then
        (.error databaseError, site)
      else
        match site.store.promoteItem item.id with
        | .error error => (.error error, site)
        | .ok (_, store) => promoteAll { site with store } (working.map (· - 1)) items

/-- The query and the updates of the scan. -/
def enqueueDueScheduledReleases (now : String) (working : Option Nat) : Reply × Site :=
  if working = some 0 then
    (.error databaseError, site)
  else
    site.promoteAll (working.map (· - 1)) (site.dueItems now)

/-- The compose worker takes the job of a task that was created for the item, or it does not. -/
def handOver (store : Store) (item : QueueItem) (taskId appId : Int) (context : DispatchContext) :
    Reply × Site :=
  match context.enqueue with
  | .ok () => (.done, { site with
      store
      jobs := site.jobs ++ [⟨taskId, appId, some item.releaseId, some item.id⟩] })
  | .error error =>
      match store.finishing context.fails item.id item.releaseId .failed with
      | (false, store) => (.error databaseError, { site with store })
      | (true, store) =>
          (.error (if .finishingTask ∈ context.fails then databaseError else error),
            { site with store := store.closeTask context.fails taskId .failed })

/-- The item is started with a task that was created for it. -/
def startItem (store : Store) (item : QueueItem) (taskId appId : Int) (context : DispatchContext) :
    Reply × Site :=
  if .marking ∈ context.fails then
    (.error databaseError, { site with store })
  else
    match store.markReleaseQueueRunning item.id taskId with
    | (false, store) =>
        (if .finishingTask ∈ context.fails then .error databaseError else .done,
          { site with store := store.closeTask context.fails taskId .failed })
    | (true, store) =>
        if .announcing ∈ context.fails then
          (.error databaseError, { site with store })
        else
          let store := store.setReleaseStatus item.releaseId .deploying
          if .logging ∈ context.fails then
            (.error databaseError, { site with store })
          else
            site.handOver store item taskId appId context

/-- The next item of an application is handed to the worker. -/
def dispatchNextReleaseForApp (appId : Int) (context : DispatchContext) : Reply × Site :=
  match context.read with
  | .error error => (.error error, site)
  | .ok () =>
      if site.store.hasRunningItem appId then
        (.done, site)
      else
        match site.store.nextQueueItem appId with
        | none => (.done, site)
        | some item =>
            match context.app with
            | .error error => (.error error, site)
            | .ok () =>
                if item.configSnapshotId.isNone then
                  let (finished, store) :=
                    site.store.finishing context.fails item.id item.releaseId .failed
                  (if finished then .done else .error databaseError, { site with store })
                else
                  match context.prepared with
                  | .error error => (.error error, site)
                  | .ok () =>
                      match site.store.createTask .releaseDeploy (some appId)
                          (some item.releaseId) with
                      | .error error => (.error error, site)
                      | .ok (taskId, store) => site.startItem store item taskId appId context

/-- `fail_compose_task`, which goes on behind an error. -/
def failComposeTask (taskId : Int) (fails : List OperationStatement) : Site :=
  let store := match if .lookingUp ∈ fails then none else site.store.activeItemOf taskId with
    | some item => (site.store.finishing fails item.id item.releaseId .failed).2
    | none => site.store
  { site with store := store.closeTask fails taskId .failed }

/-- The end of a deployment: the task and the item are closed, and behind a success the next item
is dispatched. -/
def closeDeployment (job : ComposeTaskJob) (success : Bool) (fails : List OperationStatement)
    (context : DispatchContext) : Site :=
  let store := site.store.closeTask fails job.taskId (if success then .success else .failed)
  let (finished, store) := store.finishingJob fails job (if success then .success else .failed)
  let site := { site with store }
  if finished && success then (site.dispatchNextReleaseForApp job.appId context).2 else site

/-- `run_compose_task_job` of a task that is queued. -/
def executeJob (job : ComposeTaskJob) (outcome : JobOutcome) (context : DispatchContext) : Site :=
  let started : Site := { site with store := site.store.markTaskRunning job.taskId }
  match outcome with
  | .notStarted marked => if marked then started else site
  | .preflightFailed fails => started.failComposeTask job.taskId fails
  | .deployed success fails => started.closeDeployment job success fails context

/-- The compose worker takes the next job. -/
def runComposeTaskJob (outcome : JobOutcome) (context : DispatchContext) : Option Site :=
  match site.jobs with
  | [] => none
  | job :: jobs =>
      let site := { site with jobs }
      if site.store.taskStatus job.taskId = some .queued then
        some (site.executeJob job outcome context)
      else
        some site

/-- `run_compose_task`, when nothing else is wrong. -/
def runComposeTask (kind : TaskKind) (appId : Int) (enqueue : Except AppError Unit) :
    Reply × Site :=
  match site.store.createTask kind (some appId) none with
  | .error error => (.error error, site)
  | .ok (taskId, store) =>
      match enqueue with
      | .error error => (.error error, { site with store := store.finishTask taskId .failed })
      | .ok () => (.done, { site with store, jobs := site.jobs ++ [⟨taskId, appId, none, none⟩] })

end Site

/-- The calls with their contexts. -/
inductive Operation
  | publishReleaseNow (releaseId : Int) (context : PublishContext)
  | scheduleReleasePublish (releaseId : Int) (scheduledPublishAt : Except AppError String)
      (context : PublishContext)
  | cancelScheduledRelease (releaseId : Int) (commit : Except AppError Unit)
  | cancelReleaseQueueItem (queueId : Int) (commit dispatch : Except AppError Unit)
  | enqueueDueScheduledReleases (now : String) (working : Option Nat)
  | dispatchNextReleaseForApp (appId : Int) (context : DispatchContext)
  | runComposeTaskJob (outcome : JobOutcome) (context : DispatchContext)
  | runComposeTask (kind : TaskKind) (appId : Int) (enqueue : Except AppError Unit)
deriving Repr, DecidableEq

/-- The reply of an operation and what it leaves; a job can only be taken when one waits. -/
def Site.perform (site : Site) : Operation → Option (Reply × Site)
  | .publishReleaseNow releaseId context => some (site.publishReleaseNow releaseId context)
  | .scheduleReleasePublish releaseId scheduledPublishAt context =>
      some (site.scheduleReleasePublish releaseId scheduledPublishAt context)
  | .cancelScheduledRelease releaseId commit => some (site.cancelScheduledRelease releaseId commit)
  | .cancelReleaseQueueItem queueId commit dispatch =>
      some (site.cancelReleaseQueueItem queueId commit dispatch)
  | .enqueueDueScheduledReleases now working =>
      some (site.enqueueDueScheduledReleases now working)
  | .dispatchNextReleaseForApp appId context => some (site.dispatchNextReleaseForApp appId context)
  | .runComposeTaskJob outcome context =>
      (site.runComposeTaskJob outcome context).map fun site => (.done, site)
  | .runComposeTask kind appId enqueue => some (site.runComposeTask kind appId enqueue)

end EasyDeploy.ReleaseQueue
