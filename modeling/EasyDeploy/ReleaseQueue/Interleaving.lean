import EasyDeploy.Foundation.Transition
import EasyDeploy.ReleaseQueue.Operations

/-!
# The release queue between statements

The dispatch worker, the compose worker and any number of requests take turns at
every statement and transaction. A statement may fail, and then its caller goes
on as the source does with an error.
-/

namespace EasyDeploy.ReleaseQueue
open Foundation
open Orchestrator (TaskStatus)

/-- The statement at which a call of `dispatch_next_release_for_app` is. -/
inductive DispatchStage
  | counting
  | selecting
  | fetchingApp (item : QueueItem)
  | preparing (item : QueueItem)
  | creatingTask (item : QueueItem)
  | marking (item : QueueItem) (taskId : Int)
  | announcing (item : QueueItem) (taskId : Int)
  | logging (item : QueueItem) (taskId : Int)
  | sending (item : QueueItem) (taskId : Int)
  | failingItem (item : QueueItem) (taskId : Option Int)
  | failingRelease (item : QueueItem) (taskId : Option Int)
  | failingTask (taskId : Int)
deriving Repr, DecidableEq

namespace DispatchStage

/-- Behind an error. -/
def interrupt : DispatchStage → Option DispatchStage
  | sending item taskId => some (failingItem item (some taskId))
  | _ => none

/-- Behind a statement that succeeds, with the tables and the jobs that wait. -/
def advance (appId : Int) (store : Store) (channel : List ComposeTaskJob) :
    DispatchStage → Option DispatchStage × Store × List ComposeTaskJob
  | counting => (if store.hasRunningItem appId then none else some selecting, store, channel)
  | selecting => ((store.nextQueueItem appId).map fetchingApp, store, channel)
  | fetchingApp item =>
      (some (if item.configSnapshotId.isNone then failingItem item none else preparing item),
        store, channel)
  | preparing item => (some (creatingTask item), store, channel)
  | creatingTask item =>
      match store.createTask .releaseDeploy (some appId) (some item.releaseId) with
      | .error _ => (none, store, channel)
      | .ok (taskId, store) => (some (marking item taskId), store, channel)
  | marking item taskId =>
      let (marked, store) := store.markReleaseQueueRunning item.id taskId
      (some (if marked then announcing item taskId else failingTask taskId), store, channel)
  | announcing item taskId =>
      (some (logging item taskId), store.setReleaseStatus item.releaseId .deploying, channel)
  | logging item taskId => (some (sending item taskId), store, channel)
  | sending item taskId =>
      (none, store, channel ++ [⟨taskId, appId, some item.releaseId, some item.id⟩])
  | failingItem item taskId =>
      (some (failingRelease item taskId), store.finishItem item.id .failed, channel)
  | failingRelease item taskId =>
      (taskId.map failingTask, store.setReleaseStatus item.releaseId .failed, channel)
  | failingTask taskId => (none, store.finishTask taskId .failed, channel)

/-- The statement of a stage and what follows it. -/
def step (stage : DispatchStage) (works : Bool) (appId : Int) (store : Store)
    (channel : List ComposeTaskJob) : Option DispatchStage × Store × List ComposeTaskJob :=
  if works then stage.advance appId store channel else (stage.interrupt, store, channel)

end DispatchStage

/-- The statement at which `run_compose_task_job` is. -/
inductive WorkStage
  | starting
  | logging
  | preflight
  | lookingUp
  | failingItem (queueId releaseId : Int)
  | failingRelease (releaseId : Int)
  | failingTask
  | deploying
  | finishingTask (success : Bool)
  | finishingItem (queueId releaseId : Int) (success : Bool)
  | finishingRelease (releaseId : Int) (success : Bool)
  | dispatching (stage : DispatchStage)
deriving Repr, DecidableEq

namespace WorkStage

/-- After a successful deployment the next item is dispatched. -/
def goOn (success : Bool) : Option WorkStage :=
  if success then some (dispatching .counting) else none

/-- What follows the end of a job. -/
def behindTask (job : ComposeTaskJob) (success : Bool) : Option WorkStage :=
  match job.queueId, job.releaseId with
  | some queueId, some releaseId => some (finishingItem queueId releaseId success)
  | _, _ => goOn success

/-- Behind an error, a failed preflight or a failed deployment. -/
def interrupt (job : ComposeTaskJob) : WorkStage → Option WorkStage
  | starting | logging | failingTask => none
  | preflight => some lookingUp
  | lookingUp | failingItem _ _ | failingRelease _ => some failingTask
  | deploying => some (finishingTask false)
  | finishingTask success => behindTask job success
  | finishingItem _ _ _ | finishingRelease _ _ => none
  | dispatching stage => stage.interrupt.map dispatching

/-- The next stage of a job. -/
def advance (job : ComposeTaskJob) (store : Store) (channel : List ComposeTaskJob) :
    WorkStage → Option WorkStage × Store × List ComposeTaskJob
  | starting =>
      if store.taskStatus job.taskId = some .queued then
        (some logging, store.markTaskRunning job.taskId, channel)
      else
        (none, store, channel)
  | logging => (some preflight, store, channel)
  | preflight => (some deploying, store, channel)
  | lookingUp =>
      (some (match store.activeItemOf job.taskId with
        | some item => failingItem item.id item.releaseId
        | none => failingTask), store, channel)
  | failingItem queueId releaseId =>
      (some (failingRelease releaseId), store.finishItem queueId .failed, channel)
  | failingRelease releaseId =>
      (some failingTask, store.setReleaseStatus releaseId .failed, channel)
  | failingTask => (none, store.finishTask job.taskId .failed, channel)
  | deploying => (some (finishingTask true), store, channel)
  | finishingTask success =>
      (behindTask job success,
        store.finishTask job.taskId (if success then .success else .failed), channel)
  | finishingItem queueId releaseId success =>
      (some (finishingRelease releaseId success),
        store.finishItem queueId (if success then .success else .failed), channel)
  | finishingRelease releaseId success =>
      (goOn success, store.setReleaseStatus releaseId (if success then .deployed else .failed),
        channel)
  | dispatching stage =>
      let (stage, store, channel) := stage.advance job.appId store channel
      (stage.map dispatching, store, channel)

/-- The statement of a stage and what follows it. -/
def step (stage : WorkStage) (works : Bool) (job : ComposeTaskJob) (store : Store)
    (channel : List ComposeTaskJob) : Option WorkStage × Store × List ComposeTaskJob :=
  if works then stage.advance job store channel else (stage.interrupt job, store, channel)

end WorkStage

/-- A dispatch with the stage it is at. -/
structure Dispatch where
  appId : Int
  stage : DispatchStage
deriving Repr, DecidableEq

/-- A job with the stage it is at. -/
structure Work where
  job : ComposeTaskJob
  stage : WorkStage
deriving Repr, DecidableEq

/-- A call of `publish_release_now` or, with a time, of `schedule_release_publish` that has read
the release. -/
structure Publishing where
  release : Release
  scheduledPublishAt : Option String
  checked : Bool
deriving Repr, DecidableEq

/-- The tables with everything under way. -/
structure World where
  store : Store
  /-- Jobs that were sent to the compose worker. -/
  channel : List ComposeTaskJob
  dispatcher : Option Dispatch
  worker : Option Work
  publishing : List Publishing
  /-- Queue item and release of the calls of `cancel_release_queue_item` that have read the item. -/
  cancelingItems : List (Int × Int)
  /-- Tasks of the calls of `cancel_queued_task` that have canceled the task. -/
  cancelingTasks : List Int
  /-- Jobs of the calls of `run_compose_task` that have created the task. -/
  submitting : List ComposeTaskJob
deriving Repr, DecidableEq

/-- The steps of the workers and of the requests; `works` tells whether the statement succeeds. -/
inductive Action
  | readRelease (releaseId : Int) (scheduledPublishAt : Option String)
  | checkRelease (call : Publishing)
  | commitRelease (call : Publishing) (snapshotId : Int) (works : Bool)
  | promoteItem (queueId : Int)
  | cancelScheduledRelease (releaseId : Int)
  | readItem (queueId : Int)
  | commitItem (queueId releaseId : Int) (works : Bool)
  | cancelTask (taskId : Int)
  | commitTask (taskId : Int) (works : Bool)
  | createComposeTask (kind : TaskKind) (appId : Int)
  | sendComposeTask (job : ComposeTaskJob) (works : Bool)
  | startDispatch (appId : Int)
  | dispatch (works : Bool)
  | takeJob
  | work (works : Bool)
deriving Repr, DecidableEq

namespace World

variable (world : World)

/-- The transaction of `publish_release_now` or `schedule_release_publish`. -/
def commitRelease (call : Publishing) (snapshotId : Int) : Store :=
  match call.scheduledPublishAt with
  | none => (world.store.publishTransaction call.release.appId call.release.id snapshotId).2
  | some time =>
      (world.store.scheduleTransaction call.release.appId call.release.id snapshotId time).getD
        world.store

/-- Whether the call refuses the release that it has read. -/
def refusesRelease (call : Publishing) : Bool :=
  call.scheduledPublishAt.isNone && world.store.hasRunningTask call.release.appId ||
    call.release.status == .queued || call.release.status == .deploying

/-- The statement of a stage and what follows it. -/
def step : Action → Option World
  | .readRelease releaseId scheduledPublishAt =>
      (world.store.releases.find? fun release => release.id == releaseId).map fun release =>
        { world with publishing := world.publishing ++ [⟨release, scheduledPublishAt, false⟩] }
  | .checkRelease call =>
      if call ∈ world.publishing ∧ call.checked = false then
        let rest := world.publishing.erase call
        some { world with
          publishing := if world.refusesRelease call then rest else
            rest ++ [{ call with checked := true }] }
      else
        none
  | .commitRelease call snapshotId works =>
      if call ∈ world.publishing ∧ call.checked = true then
        some { world with
          publishing := world.publishing.erase call
          store := if works then world.commitRelease call snapshotId else world.store }
      else
        none
  | .promoteItem queueId =>
      match world.store.promoteItem queueId with
      | .ok (_, store) => some { world with store }
      | .error _ => none
  | .cancelScheduledRelease releaseId =>
      match world.store.cancelScheduledRelease releaseId with
      | .ok store => some { world with store }
      | .error _ => none
  | .readItem queueId =>
      match world.store.queueItem queueId with
      | some item =>
          if item.status.isWaiting then
            some { world with
              cancelingItems := world.cancelingItems ++ [(queueId, item.releaseId)] }
          else
            none
      | none => none
  | .commitItem queueId releaseId works =>
      if (queueId, releaseId) ∈ world.cancelingItems then
        some { world with
          cancelingItems := world.cancelingItems.erase (queueId, releaseId)
          store := if works then world.store.cancelItemTransaction queueId releaseId
            else world.store }
      else
        none
  | .cancelTask taskId =>
      if world.store.taskStatus taskId = some .queued then
        some { world with
          store := world.store.cancelTask taskId
          cancelingTasks := world.cancelingTasks ++ [taskId] }
      else
        none
  | .commitTask taskId works =>
      if taskId ∈ world.cancelingTasks then
        some { world with
          cancelingTasks := world.cancelingTasks.erase taskId
          store := if works then world.store.cancelTaskTransaction taskId else world.store }
      else
        none
  | .createComposeTask kind appId =>
      match world.store.createTask kind (some appId) none with
      | .ok (taskId, store) =>
          some { world with store, submitting := world.submitting ++ [⟨taskId, appId, none, none⟩] }
      | .error _ => none
  | .sendComposeTask job works =>
      if job ∈ world.submitting then
        let submitting := world.submitting.erase job
        if works then
          some { world with submitting, channel := world.channel ++ [job] }
        else
          some { world with submitting, store := world.store.finishTask job.taskId .failed }
      else
        none
  | .startDispatch appId =>
      match world.dispatcher with
      | none => some { world with dispatcher := some ⟨appId, .counting⟩ }
      | some _ => none
  | .dispatch works =>
      world.dispatcher.map fun dispatch =>
        let (stage, store, channel) :=
          dispatch.stage.step works dispatch.appId world.store world.channel
        { world with store, channel, dispatcher := stage.map (⟨dispatch.appId, ·⟩) }
  | .takeJob =>
      match world.worker, world.channel with
      | none, job :: channel => some { world with channel, worker := some ⟨job, .starting⟩ }
      | _, _ => none
  | .work works =>
      world.worker.map fun work =>
        let (stage, store, channel) := work.stage.step works work.job world.store world.channel
        { world with store, channel, worker := stage.map (⟨work.job, ·⟩) }

/-- No call is under way, no item is running, and items that wait have no task. -/
def Initial : Prop :=
  world.channel = [] ∧ world.dispatcher = none ∧ world.worker = none ∧ world.publishing = [] ∧
  world.cancelingItems = [] ∧ world.cancelingTasks = [] ∧ world.submitting = [] ∧
  Keyed world.store.queue (·.id) ∧ ∀ item ∈ world.store.queue, item.status ≠ .running ∧
    (item.status.isWaiting = true → item.taskId = none) ∧
    ∀ taskId, item.taskId = some taskId → (world.store.taskStatus taskId).isSome = true

end World

/-- The interleavings of the workers and the requests. -/
def interleaving : Transition World Action where
  initial := World.Initial
  step := World.step

end EasyDeploy.ReleaseQueue
