import EasyDeploy.ReleaseQueue.ItemStatements

/-!
# The life cycle of tasks

Every task that is created is handed over as a job by the call that created it,
or fails there; the worker of the job marks it running and ends it. At the start
of a process the recovery ends what earlier processes left open, while the timers
and the workers already run; requests are served after it.
-/

namespace EasyDeploy.ReleaseQueue
open Foundation
open Foundation.Transition
open Orchestrator (TaskStatus)

namespace Store

variable (store : Store)

/-- The items that the recovery selects. -/
def isInterrupted (item : QueueItem) : Bool :=
  item.status == .running || item.status == .queued && item.taskId.any fun taskId =>
    (store.taskStatus taskId).any (·.isOpen)

/-- The transaction of `recover_interrupted_work` on tasks, queue items and releases. -/
def recoverInterruptedWork : Store where
  tasks := store.tasks.map fun task =>
    if task.status.isOpen then { task with status := .failed } else task
  queue := store.queue.map fun item =>
    if store.isInterrupted item then { item with status := .failed } else item
  releases := store.releases.map fun release =>
    if store.queue.any fun item => store.isInterrupted item && item.releaseId == release.id then
      { release with status := .failed }
    else
      release

end Store

/-- A task that was created is with its creator, or is handed over, or runs. -/
inductive JobStage
  | created
  | handed
  | running
deriving Repr, DecidableEq

/-- A task with who is at it. -/
structure Job where
  taskId : Int
  stage : JobStage
deriving Repr, DecidableEq

/-- The tables with the jobs of the process. -/
structure Process where
  store : Store
  jobs : List Job
  /-- Tasks and queue items from before the process started. -/
  oldTasks : List Int
  oldItems : List Int
  /-- The recovery has committed and requests are served. -/
  serving : Bool
deriving Repr, DecidableEq

/-- What happens to tasks. -/
inductive ProcessAction
  | restart
  | recover
  | createTask (kind : TaskKind) (appId releaseId : Option Int)
  | handOver (taskId : Int)
  | failCreated (taskId : Int)
  | markRunning (taskId : Int)
  | finish (taskId : Int) (success : Bool)
  | leave (job : Job)
  | cancelQueued (taskId : Int)
  | enqueue (appId releaseId snapshotId : Int) (status : QueueStatus)
      (scheduledPublishAt : Option String)
  | promoteItem (queueId : Int)
  | markItem (queueId taskId : Int)
  | finishItem (queueId releaseId : Int) (status : QueueStatus)
  | cancelItem (queueId releaseId : Int)
  | cancelTaskItem (taskId : Int)
deriving Repr, DecidableEq

namespace Process

variable (process : Process)

/-- The job goes on at another stage. -/
def proceed (job : Job) (stage : JobStage) (store : Store) : Process :=
  { process with store, jobs := process.jobs.erase job ++ [⟨job.taskId, stage⟩] }

/-- The job is over. -/
def drop (job : Job) (store : Store) : Process :=
  { process with store, jobs := process.jobs.erase job }

/-- A request. -/
def serve (store : Store) : Option Process :=
  if process.serving then some { process with store } else none

/-- The step of an action, if it can be taken. -/
def step : ProcessAction → Option Process
  | .restart => some
      { process with
        jobs := []
        oldTasks := process.store.tasks.map (·.id)
        oldItems := process.store.queue.map (·.id)
        serving := false }
  | .recover =>
      if process.serving then
        none
      else
        some { process with store := process.store.recoverInterruptedWork, serving := true }
  | .createTask kind appId releaseId =>
      -- The release queue creates tasks from the start.
      if kind = .releaseDeploy ∨ process.serving = true then
        match process.store.createTask kind appId releaseId with
        | .ok (taskId, store) =>
            some { process with store, jobs := process.jobs ++ [⟨taskId, .created⟩] }
        | .error _ => none
      else
        none
  | .handOver taskId =>
      if ⟨taskId, .created⟩ ∈ process.jobs then
        some (process.proceed ⟨taskId, .created⟩ .handed process.store)
      else
        none
  | .failCreated taskId =>
      if ⟨taskId, .created⟩ ∈ process.jobs then
        some (process.drop ⟨taskId, .created⟩ (process.store.finishTask taskId .failed))
      else
        none
  | .markRunning taskId =>
      if ⟨taskId, .handed⟩ ∈ process.jobs then
        if process.store.taskStatus taskId = some .queued then
          some (process.proceed ⟨taskId, .handed⟩ .running (process.store.markTaskRunning taskId))
        else
          some (process.drop ⟨taskId, .handed⟩ process.store)
      else
        none
  | .finish taskId success =>
      if ⟨taskId, .running⟩ ∈ process.jobs then
        some (process.drop ⟨taskId, .running⟩
          (process.store.finishTask taskId (if success then .success else .failed)))
      else
        none
  | .leave job =>
      -- A statement has failed and the caller gives up.
      if job ∈ process.jobs then some (process.drop job process.store) else none
  | .cancelQueued taskId =>
      if process.store.taskStatus taskId = some .queued then
        process.serve (process.store.cancelTask taskId)
      else
        none
  | .enqueue appId releaseId snapshotId status scheduledPublishAt =>
      ((process.store.enqueueAppRelease appId releaseId snapshotId status
        scheduledPublishAt).map (·.2)).bind process.serve
  | .promoteItem queueId =>
      match process.store.promoteItem queueId with
      | .ok (_, store) => some { process with store }
      | .error _ => none
  | .markItem queueId taskId =>
      if ⟨taskId, .created⟩ ∈ process.jobs then
        some { process with store := (process.store.markReleaseQueueRunning queueId taskId).2 }
      else
        none
  | .finishItem queueId releaseId status =>
      some { process with
        store := process.store.finishReleaseQueueItem queueId releaseId status }
  | .cancelItem queueId releaseId =>
      process.serve (process.store.cancelItemTransaction queueId releaseId)
  | .cancelTaskItem taskId => process.serve (process.store.cancelTaskTransaction taskId)

/-- A process that has just started. -/
def Initial : Prop :=
  process.jobs = [] ∧ process.oldTasks = process.store.tasks.map (·.id) ∧
  process.oldItems = process.store.queue.map (·.id) ∧ process.serving = false

end Process

/-- Any number of processes one after the other, each with its workers, timers and requests. -/
def lifecycle : Transition Process ProcessAction where
  initial := Process.Initial
  step := Process.step

/-- The moves of a task. -/
def Moves : TaskStatus → TaskStatus → Bool
  | .queued, .running | .queued, .canceled | .queued, .failed => true
  | .running, .success | .running, .failed => true
  | _, _ => false

/-- Only an open task moves. -/
theorem isOpen_of_moves {status status' : TaskStatus} (h : Moves status status' = true) :
    status.isOpen = true := by
  cases status <;> first | rfl | cases h

namespace Process

/-- Every task is kept or moves lawfully. -/
def Advances (store store' : Store) : Prop :=
  ∀ taskId status, store.taskStatus taskId = some status →
    ∃ status', store'.taskStatus taskId = some status' ∧
      (status' = status ∨ Moves status status' = true)

/-- What changes was there when the process started. -/
def OnlyOld (process process' : Process) : Prop :=
  (∀ task ∈ process.store.tasks, task ∉ process'.store.tasks → task.id ∈ process.oldTasks) ∧
  ∀ item ∈ process.store.queue, item ∉ process'.store.queue → item.id ∈ process.oldItems

/-- The recovery finds no open task that the process itself has created, and a creator fails its
task unless that was canceled. -/
def Careful (process : Process) : ProcessAction → Prop
  | .recover => ∀ task ∈ process.store.tasks, task.status.isOpen = true →
      task.id ∈ process.oldTasks
  | .failCreated taskId => process.store.taskStatus taskId ≠ some .canceled
  | _ => True

/-- What a job knows of its task. -/
def Job.Fits (store : Store) (job : Job) : Prop :=
  match job.stage with
  | .running => store.taskStatus job.taskId = some .running
  | _ => store.taskStatus job.taskId = some .queued ∨ store.taskStatus job.taskId = some .canceled

/-- What the tables and the jobs keep. -/
structure Sound (process : Process) : Prop where
  fits : ∀ job ∈ process.jobs, Job.Fits process.store job
  distinct : (process.jobs.map (·.taskId)).Nodup
  fresh : ∀ job ∈ process.jobs, job.taskId ∉ process.oldTasks
  known : ∀ taskId ∈ process.oldTasks, (process.store.taskStatus taskId).isSome = true
  items : process.serving = false → process.store.queue.map (·.id) ⊆ process.oldItems

variable {process process' : Process} {store store' : Store}

/-- Tasks that are not the target keep their status. -/
def Keeps (store store' : Store) (target : Option Int) : Prop :=
  ∀ taskId status, some taskId ≠ target → store.taskStatus taskId = some status →
    store'.taskStatus taskId = some status

/-- Where the tasks are the same, each one is kept. -/
theorem keeps_of_tasks (h : store'.tasks = store.tasks) (target : Option Int) :
    Keeps store store' target := by
  intro taskId status _ hstatus
  rw [Store.taskStatus, h]
  exact hstatus

/-- Where each task is kept, all advance. -/
theorem Keeps.advances (h : Keeps store store' none) : Advances store store' :=
  fun taskId status hstatus => ⟨status, h taskId status nofun hstatus, .inl rfl⟩

theorem keeps_update (target : Int) (guard : Task → Bool) (status : TaskStatus) :
    Keeps store { store with
      tasks := updateAt store.tasks (·.id) target guard fun task => { task with status } }
      (some target) := by
  intro taskId old hne hold
  exact (Store.taskStatus_updateAt_eq target guard status hold).resolve_right fun hupdated =>
    hne (congrArg some hupdated.1)

/-- A task that moves leaves all others as they are. -/
theorem advances_update {target : Int} {guard : Task → Bool} {old status : TaskStatus}
    (h : store.taskStatus target = some old) (hmoves : Moves old status = true) :
    Advances store { store with
      tasks := updateAt store.tasks (·.id) target guard fun task => { task with status } } := by
  intro taskId before hbefore
  rcases Store.taskStatus_updateAt_eq target guard status hbefore with hsame | ⟨rfl, hnew⟩
  · exact ⟨before, hsame, .inl rfl⟩
  · obtain rfl := Option.some.inj (h.symm.trans hbefore)
    exact ⟨status, hnew, .inr hmoves⟩

/-- A task stays in the table. -/
theorem Advances.isSome (h : Advances store store') {taskId : Int}
    (hsome : (store.taskStatus taskId).isSome = true) :
    (store'.taskStatus taskId).isSome = true := by
  obtain ⟨status, hstatus⟩ := Option.isSome_iff_exists.mp hsome
  obtain ⟨status', hstatus', -⟩ := h taskId status hstatus
  rw [hstatus']
  rfl

theorem Job.Fits.keep {job : Job} (h : Job.Fits store job)
    (hkeeps : ∀ status, store.taskStatus job.taskId = some status →
      store'.taskStatus job.taskId = some status) : Job.Fits store' job := by
  unfold Job.Fits at h ⊢
  split at h
  · exact hkeeps _ h
  · exact h.imp (hkeeps _) (hkeeps _)

/-- The tasks of the other jobs are other tasks. -/
theorem Sound.ne_of_mem_erase (h : process.Sound) {job other : Job} (hjob : job ∈ process.jobs)
    (hother : other ∈ process.jobs.erase job) : other.taskId ≠ job.taskId := by
  have hnodup := ((List.perm_cons_erase hjob).map (·.taskId)).nodup_iff.mp h.distinct
  intro heq
  exact (List.nodup_cons.mp hnodup).1 (List.mem_map.mpr ⟨other, hother, heq⟩)

/-- A job that ends leaves a sound process. -/
theorem Sound.drop (h : process.Sound) {job : Job} (hjob : job ∈ process.jobs)
    (hkeeps : Keeps process.store store' (some job.taskId))
    (hadvances : Advances process.store store')
    (hitems : store'.queue.map (·.id) = process.store.queue.map (·.id)) :
    (process.drop job store').Sound where
  fits other hother := (h.fits other (List.mem_of_mem_erase hother)).keep fun status =>
    hkeeps other.taskId status fun heq => h.ne_of_mem_erase hjob hother (Option.some.inj heq)
  distinct := h.distinct.sublist (List.erase_sublist.map _)
  fresh other hother := h.fresh other (List.mem_of_mem_erase hother)
  known taskId hold := hadvances.isSome (h.known taskId hold)
  items hserving := hitems ▸ h.items hserving

/-- A job that goes on leaves a sound process. -/
theorem Sound.proceed (h : process.Sound) {job : Job} {stage : JobStage}
    (hjob : job ∈ process.jobs) (hkeeps : Keeps process.store store' (some job.taskId))
    (hadvances : Advances process.store store')
    (hitems : store'.queue.map (·.id) = process.store.queue.map (·.id))
    (hfits : Job.Fits store' ⟨job.taskId, stage⟩) : (process.proceed job stage store').Sound := by
  have hdrop := h.drop hjob hkeeps hadvances hitems
  refine ⟨fun other hother => ?_, ?_, fun other hother => ?_, hdrop.known, hdrop.items⟩
  · rcases List.mem_append.mp hother with hold | hnew
    · exact hdrop.fits other hold
    · rw [List.mem_singleton.mp hnew]
      exact hfits
  · have hperm : ((process.jobs.erase job ++ [(⟨job.taskId, stage⟩ : Job)]).map (·.taskId)).Perm
        (process.jobs.map (·.taskId)) := by
      refine List.Perm.trans ?_ ((List.perm_cons_erase hjob).map (·.taskId)).symm
      rw [List.map_append]
      exact List.perm_append_comm
    exact hperm.nodup_iff.mpr h.distinct
  · rcases List.mem_append.mp hother with hold | hnew
    · exact hdrop.fresh other hold
    · rw [List.mem_singleton.mp hnew]
      exact h.fresh job hjob

/-- A statement that leaves the tasks alone. -/
theorem Sound.aside (h : process.Sound) (htasks : store'.tasks = process.store.tasks)
    (hitems : process.serving = false →
      store'.queue.map (·.id) = process.store.queue.map (·.id)) :
    ({ process with store := store' } : Process).Sound where
  fits job hjob := (h.fits job hjob).keep fun status =>
    keeps_of_tasks htasks none job.taskId status nofun
  distinct := h.distinct
  fresh := h.fresh
  known taskId hold := (keeps_of_tasks htasks none).advances.isSome (h.known taskId hold)
  items hserving := hitems hserving ▸ h.items hserving

/-- A restart fails the open tasks. -/
theorem taskStatus_recover (store : Store) (taskId : Int) :
    store.recoverInterruptedWork.taskStatus taskId =
      (store.taskStatus taskId).map fun status => if status.isOpen then .failed else status := by
  simp only [Store.taskStatus, Store.recoverInterruptedWork, List.find?_map, Option.map_map]
  have hkey : (fun task : Task => task.id == taskId) ∘ (fun task : Task =>
      if task.status.isOpen then { task with status := .failed } else task) =
      fun task => task.id == taskId := by
    funext task
    rw [Function.comp_apply]
    split <;> rfl
  rw [hkey]
  congr 1
  funext task
  simp only [Function.comp_apply]
  split <;> rfl

/-- A restart moves tasks as they may move. -/
theorem advances_recover (store : Store) : Advances store store.recoverInterruptedWork := by
  intro taskId status hstatus
  rw [taskStatus_recover, hstatus, Option.map_some]
  refine ⟨_, rfl, ?_⟩
  cases status <;> simp [TaskStatus.isOpen, Moves]

/-- No job of the process has an open task when the recovery runs. -/
theorem Sound.recover_step (h : process.Sound) (hcareful : process.Careful .recover)
    (hstep : process.step .recover = some process') :
    process'.Sound ∧ Advances process.store process'.store := by
  simp only [step] at hstep
  split at hstep
  · cases hstep
  · obtain rfl := Option.some.inj hstep
    refine ⟨⟨fun job hjob => ?_, h.distinct, h.fresh, fun taskId hold => ?_, nofun⟩,
      advances_recover process.store⟩
    · -- What is open is older than the process.
      have hclosed (status : TaskStatus)
          (hstatus : process.store.taskStatus job.taskId = some status) :
          status.isOpen = false := by
        obtain ⟨task, hfind, rfl⟩ := Option.map_eq_some_iff.mp hstatus
        have hid : task.id = job.taskId := by simpa using List.find?_some hfind
        refine Bool.eq_false_iff.mpr fun hopen => h.fresh job hjob ?_
        rw [← hid]
        exact hcareful task (List.mem_of_find?_eq_some hfind) hopen
      refine (h.fits job hjob).keep fun status hstatus => ?_
      rw [taskStatus_recover, hstatus, Option.map_some, hclosed status hstatus]
      rfl
    · exact (advances_recover process.store).isSome (h.known taskId hold)

/-- A new task is queued and has its job. -/
theorem Sound.createTask_step (h : process.Sound) {kind : TaskKind}
    {appId releaseId : Option Int}
    (hstep : process.step (.createTask kind appId releaseId) = some process') :
    process'.Sound ∧ Advances process.store process'.store := by
  simp only [step] at hstep
  split at hstep
  · split at hstep
    · rename_i taskId store hcreate
      obtain rfl := Option.some.inj hstep
      obtain ⟨hqueue, hnew, hqueued, hother⟩ := Store.createTask_eq_ok hcreate
      have hkeeps : Keeps process.store store none := fun other status _ hstatus =>
        (hother other (by rw [hstatus]; rfl)).trans hstatus
      refine ⟨⟨fun job hjob => ?_, ?_, fun job hjob => ?_, fun old hold => ?_, fun hserving => ?_⟩,
        hkeeps.advances⟩
      · rcases List.mem_append.mp hjob with hmem | hlast
        · exact (h.fits job hmem).keep fun status => hkeeps job.taskId status nofun
        · rw [List.mem_singleton.mp hlast]
          exact .inl hqueued
      · rw [List.map_append, List.nodup_append]
        refine ⟨h.distinct, List.nodup_singleton _, fun other hmem last hlast heq => ?_⟩
        obtain ⟨job, hjob, rfl⟩ := List.mem_map.mp hmem
        obtain rfl := List.mem_singleton.mp hlast
        have hfits := h.fits job hjob
        unfold Job.Fits at hfits
        rw [heq, hnew] at hfits
        split at hfits
        · cases hfits
        · rcases hfits with hfits | hfits <;> cases hfits
      · rcases List.mem_append.mp hjob with hmem | hlast
        · exact h.fresh job hmem
        · rw [List.mem_singleton.mp hlast]
          intro hold
          have hsome := h.known taskId hold
          rw [hnew] at hsome
          cases hsome
      · exact hkeeps.advances.isSome (h.known old hold)
      · rw [hqueue]
        exact h.items hserving
    · cases hstep
  · cases hstep

/-- The statements of the queue. -/
theorem Sound.aside_step (h : process.Sound) (htasks : store'.tasks = process.store.tasks)
    (hitems : process.serving = false →
      store'.queue.map (·.id) = process.store.queue.map (·.id)) :
    ({ process with store := store' } : Process).Sound ∧ Advances process.store store' :=
  ⟨h.aside htasks hitems, (keeps_of_tasks htasks none).advances⟩

/-- What the calls of clients change leaves the tasks. -/
theorem Sound.serve_step (h : process.Sound) (htasks : store'.tasks = process.store.tasks)
    (hstep : process.serve store' = some process') :
    process'.Sound ∧ Advances process.store process'.store := by
  simp only [serve] at hstep
  split at hstep
  · rename_i hserving
    obtain rfl := Option.some.inj hstep
    refine h.aside_step htasks fun hnot => ?_
    rw [hserving] at hnot
    cases hnot
  · cases hstep

theorem taskStatus_update {target : Int} {guard : Task → Bool} {old : TaskStatus}
    (h : store.taskStatus target = some old) (hguard : ∀ task, task.status = old → guard task = true)
    (status : TaskStatus) : { store with
      tasks := updateAt store.tasks (·.id) target guard fun task =>
        { task with status } }.taskStatus target = some status := by
  obtain ⟨task, hfind, hstatus⟩ := Option.map_eq_some_iff.mp h
  have hid : task.id = target := by simpa using List.find?_some hfind
  rw [Store.taskStatus_updateAt, hfind, Option.map_some, if_pos ⟨hid, hguard task hstatus⟩]

/-- A canceled task is one whose job has not begun. -/
theorem Sound.cancelQueued_step (h : process.Sound) {taskId : Int}
    (hqueued : process.store.taskStatus taskId = some .queued)
    (hstep : process.serve (process.store.cancelTask taskId) = some process') :
    process'.Sound ∧ Advances process.store process'.store := by
  simp only [serve] at hstep
  split at hstep
  · obtain rfl := Option.some.inj hstep
    have hadvances : Advances process.store (process.store.cancelTask taskId) :=
      advances_update hqueued rfl
    refine ⟨⟨fun job hjob => ?_, h.distinct, h.fresh,
      fun old hold => hadvances.isSome (h.known old hold), h.items⟩, hadvances⟩
    by_cases heq : job.taskId = taskId
    · have hfits := h.fits job hjob
      have hcanceled : (process.store.cancelTask taskId).taskStatus taskId = some .canceled :=
        taskStatus_update hqueued (fun task htask => beq_iff_eq.mpr htask) .canceled
      unfold Job.Fits at hfits ⊢
      rw [heq, hqueued] at hfits
      rw [heq]
      split
      · rename_i hrunning
        rw [hrunning] at hfits
        cases hfits
      · exact .inr hcanceled
    · exact (h.fits job hjob).keep fun status =>
        keeps_update taskId _ .canceled job.taskId status fun hsome => heq (Option.some.inj hsome)
  · cases hstep

/-- A promotion leaves the tasks and the items there are. -/
theorem promoteItem_frame {queueId : Int} {promoted : Bool}
    (h : store.promoteItem queueId = .ok (promoted, store')) :
    store'.tasks = store.tasks ∧ store'.queue.map (·.id) = store.queue.map (·.id) := by
  rw [Store.promoteItem] at h
  split at h
  · split at h
    · split at h
      · cases h
      · obtain ⟨-, rfl⟩ := Prod.mk.inj (Except.ok.inj h)
        exact ⟨rfl, map_updateAt fun _ => rfl⟩
    · obtain ⟨-, rfl⟩ := Prod.mk.inj (Except.ok.inj h)
      exact ⟨rfl, rfl⟩
  · obtain ⟨-, rfl⟩ := Prod.mk.inj (Except.ok.inj h)
    exact ⟨rfl, rfl⟩

/-- A careful step leaves a sound process, and tasks move as they may. -/
theorem Sound.step (h : process.Sound) {action : ProcessAction} (hcareful : process.Careful action)
    (hstep : process.step action = some process') :
    process'.Sound ∧ Advances process.store process'.store := by
  have hsame : Keeps process.store process.store none := fun _ _ _ hstatus => hstatus
  cases action with
  | recover => exact h.recover_step hcareful hstep
  | createTask kind appId releaseId => exact h.createTask_step hstep
  | restart =>
      obtain rfl := Option.some.inj hstep
      refine ⟨⟨nofun, List.nodup_nil, nofun, fun taskId hold => ?_, fun _ => List.Subset.refl _⟩,
        hsame.advances⟩
      obtain ⟨task, htask, rfl⟩ := List.mem_map.mp hold
      rw [Store.taskStatus, Option.isSome_map, List.find?_isSome]
      exact ⟨task, htask, by simp⟩
  | handOver taskId =>
      simp only [Process.step] at hstep
      split at hstep
      · rename_i hjob
        obtain rfl := Option.some.inj hstep
        exact ⟨h.proceed hjob (fun _ _ _ hstatus => hstatus) hsame.advances rfl
          (h.fits ⟨taskId, .created⟩ hjob), hsame.advances⟩
      · cases hstep
  | leave job =>
      simp only [Process.step] at hstep
      split at hstep
      · rename_i hjob
        obtain rfl := Option.some.inj hstep
        exact ⟨h.drop hjob (fun _ _ _ hstatus => hstatus) hsame.advances rfl, hsame.advances⟩
      · cases hstep
  | failCreated taskId =>
      simp only [Process.step] at hstep
      split at hstep
      · rename_i hjob
        obtain rfl := Option.some.inj hstep
        have hadvances : Advances process.store (process.store.finishTask taskId .failed) :=
          advances_update ((h.fits _ hjob).resolve_right hcareful) rfl
        exact ⟨h.drop hjob (keeps_update taskId _ .failed) hadvances rfl, hadvances⟩
      · cases hstep
  | markRunning taskId =>
      simp only [Process.step] at hstep
      split at hstep
      · rename_i hjob
        split at hstep
        · rename_i hqueued
          obtain rfl := Option.some.inj hstep
          have hadvances : Advances process.store (process.store.markTaskRunning taskId) :=
            advances_update hqueued rfl
          exact ⟨h.proceed hjob (keeps_update taskId _ .running) hadvances rfl
            (taskStatus_update hqueued (fun task htask => beq_iff_eq.mpr htask) .running), hadvances⟩
        · obtain rfl := Option.some.inj hstep
          exact ⟨h.drop hjob (fun _ _ _ hstatus => hstatus) hsame.advances rfl, hsame.advances⟩
      · cases hstep
  | finish taskId success =>
      simp only [Process.step] at hstep
      split at hstep
      · rename_i hjob
        obtain rfl := Option.some.inj hstep
        have hadvances : Advances process.store
            (process.store.finishTask taskId (if success then .success else .failed)) :=
          advances_update (h.fits _ hjob) (by cases success <;> rfl)
        exact ⟨h.drop hjob (keeps_update taskId _ _) hadvances rfl, hadvances⟩
      · cases hstep
  | cancelQueued taskId =>
      simp only [Process.step] at hstep
      split at hstep
      · rename_i hqueued
        exact h.cancelQueued_step hqueued hstep
      · cases hstep
  | enqueue appId releaseId snapshotId status scheduledPublishAt =>
      obtain ⟨store, hstore, hserve⟩ := Option.bind_eq_some_iff.mp hstep
      obtain ⟨⟨queueId, store⟩, henqueue, rfl⟩ := Option.map_eq_some_iff.mp hstore
      refine h.serve_step ?_ hserve
      rw [Store.enqueueAppRelease] at henqueue
      split at henqueue
      · cases henqueue
      · obtain ⟨-, rfl⟩ := Prod.mk.inj (Option.some.inj henqueue)
        rfl
  | promoteItem queueId =>
      simp only [Process.step] at hstep
      split at hstep
      · rename_i hpromote
        obtain rfl := Option.some.inj hstep
        obtain ⟨htasks, hitems⟩ := promoteItem_frame hpromote
        exact h.aside_step htasks fun _ => hitems
      · cases hstep
  | markItem queueId taskId =>
      simp only [Process.step] at hstep
      split at hstep
      · obtain rfl := Option.some.inj hstep
        exact h.aside_step rfl fun _ => map_updateAt fun _ => rfl
      · cases hstep
  | finishItem queueId releaseId status =>
      obtain rfl := Option.some.inj hstep
      exact h.aside_step rfl fun _ => map_updateAt fun _ => rfl
  | cancelItem queueId releaseId =>
      have htasks : (process.store.cancelItemTransaction queueId releaseId).tasks =
          process.store.tasks := rfl
      exact h.serve_step htasks hstep
  | cancelTaskItem taskId =>
      refine h.serve_step ?_ hstep
      rw [Store.cancelTaskTransaction]
      split <;> rfl

theorem Initial.sound (h : process.Initial) : process.Sound := by
  obtain ⟨hjobs, htasks, hitems, -⟩ := h
  refine ⟨?_, ?_, ?_, fun taskId hold => ?_, fun _ => by rw [hitems]; exact List.Subset.refl _⟩
  · rw [hjobs]
    nofun
  · rw [hjobs]
    exact List.nodup_nil
  · rw [hjobs]
    nofun
  · rw [htasks] at hold
    obtain ⟨task, htask, rfl⟩ := List.mem_map.mp hold
    rw [Store.taskStatus, Option.isSome_map, List.find?_isSome]
    exact ⟨task, htask, by simp⟩

/-- What the recovery changes is open or interrupted. -/
theorem Sound.onlyOld (h : process.Sound) (hcareful : process.Careful .recover)
    (hstep : process.step .recover = some process') : process.OnlyOld process' := by
  simp only [Process.step] at hstep
  split at hstep
  · cases hstep
  · rename_i hserving
    obtain rfl := Option.some.inj hstep
    refine ⟨fun task htask hchanged => ?_, fun item hitem _ => ?_⟩
    · refine hcareful task htask (Bool.of_not_eq_false fun hclosed => hchanged ?_)
      refine List.mem_map.mpr ⟨task, htask, ?_⟩
      rw [hclosed]
      rfl
    · exact h.items (Bool.eq_false_iff.mpr hserving) (List.mem_map_of_mem hitem)

end Process

/-- The process is sound in every state of a careful run. -/
theorem sound_of_reached {process : Process} (h : lifecycle.Reached Process.Careful process) :
    process.Sound :=
  h.invariant (fun _ => Process.Initial.sound) fun _ _ _ _ hcareful hsound hstep =>
    (hsound.step hcareful hstep).1

/-- Tasks that have ended stay as they are. -/
theorem ended_of_later {process later : Process} (h : lifecycle.Reached Process.Careful process)
    (hlater : (lifecycle.startingAt process).Reached Process.Careful later) {taskId : Int}
    {status : TaskStatus} (hstatus : process.store.taskStatus taskId = some status)
    (hended : status.isOpen = false) : later.store.taskStatus taskId = some status := by
  induction hlater with
  | start hstart =>
      obtain rfl := hstart
      exact hstatus
  | @next before action _ hbefore hcareful hstep ih =>
      have hsound := sound_of_reached (h.of_startingAt hbefore)
      obtain ⟨status', hstatus', rfl | hmoves⟩ := (hsound.step hcareful hstep).2 taskId status ih
      · exact hstatus'
      · rw [isOpen_of_moves hmoves] at hended
        cases hended

/-- Tasks move only as they should, the recovery changes only what was there when the process
started, and tasks that have ended never change. -/
def Process.Orderly (permitted : Process → ProcessAction → Prop) (process : Process) : Prop :=
  (∀ action process', permitted process action → lifecycle.step process action = some process' →
    Process.Advances process.store process'.store ∧
    (action = .recover → process.OnlyOld process')) ∧
  ∀ later, (lifecycle.startingAt process).Reached permitted later →
    ∀ taskId status, process.store.taskStatus taskId = some status → status.isOpen = false →
      later.store.taskStatus taskId = some status

/-- The life cycle of tasks in careful runs. -/
theorem task_life_cycle {process : Process} (h : lifecycle.Reached Process.Careful process) :
    process.Orderly Process.Careful := by
  refine ⟨fun action process' hcareful hstep => ?_, fun later hlater taskId status =>
    ended_of_later h hlater⟩
  refine ⟨((sound_of_reached h).step hcareful hstep).2, ?_⟩
  rintro rfl
  exact (sound_of_reached h).onlyOld hcareful hstep

/-- A queue with a waiting item, before the process has started its timers. -/
def startedProcess : Process :=
  ⟨⟨[⟨1, 1, .queued⟩], [⟨1, 1, 1, some 7, 1, .queued, none, none⟩], []⟩, [], [], [1], false⟩

theorem initial_startedProcess : startedProcess.Initial := ⟨rfl, rfl, rfl, rfl⟩

/-- The same queue behind a task that another process has left running. -/
def interruptedProcess : Process :=
  ⟨⟨[⟨1, 1, .queued⟩, ⟨2, 1, .deploying⟩], [⟨1, 1, 1, some 7, 1, .queued, none, none⟩,
    ⟨2, 1, 2, some 7, 2, .running, some 1, none⟩],
    [⟨1, .releaseDeploy, some 1, some 2, .running⟩]⟩, [], [1], [1, 2], false⟩

/-- Only old tasks are open when the process recovers, and no creator fails its task. -/
def recoversFirst (process : Process) : ProcessAction → Bool
  | .recover => process.store.tasks.all fun task => !task.status.isOpen ||
      process.oldTasks.contains task.id
  | .failCreated _ => false
  | _ => true

theorem careful_of_recoversFirst (process : Process) (action : ProcessAction)
    (h : recoversFirst process action = true) : process.Careful action := by
  cases action with
  | recover =>
      intro task htask hopen
      have hold := List.all_eq_true.mp h task htask
      rw [hopen, Bool.not_true, Bool.false_or, List.contains_iff_mem] at hold
      exact hold
  | failCreated taskId => cases h
  | _ => exact trivial

/-- A process fails the task that was left to it; then a job of its own ends, and a task is canceled
before its job begins. -/
theorem task_life_cycle_recovered : ∃ process, lifecycle.Reached Process.Careful process ∧
    process.store.tasks.map (·.status) = [.failed, .success, .canceled] ∧
    process.Orderly Process.Careful := by
  obtain ⟨process, hexec, hstatuses⟩ := Option.map_eq_some_iff.mp
    (show ((lifecycle.restrict recoversFirst).exec interruptedProcess [.recover,
      .createTask .releaseDeploy (some 1) (some 1), .markItem 1 2, .handOver 2, .markRunning 2,
      .finish 2 true, .createTask .composeUp (some 1) none, .cancelQueued 3]).map
        (fun process => process.store.tasks.map (·.status)) =
          some [.failed, .success, .canceled] by decide)
  have hstart : Reachable (lifecycle.restrict recoversFirst) interruptedProcess :=
    .start ⟨rfl, rfl, rfl, rfl⟩
  have hreached := (Reached.of_restrict (hstart.exec hexec)).mono careful_of_recoversFirst
  exact ⟨process, hreached, hstatuses, task_life_cycle hreached⟩

/-- The recovery fails a task that the release queue has created since the start, whose worker then
ends it with success; a creator fails a task that was canceled. -/
theorem task_ends_twice :
    (¬ ∀ process, lifecycle.Reachable process → process.Orderly fun _ _ => True) ∧
    (∃ before after, lifecycle.Reachable before ∧
      lifecycle.step before (.finish 1 true) = some after ∧
      before.store.taskStatus 1 = some .failed ∧ after.store.taskStatus 1 = some .success) ∧
    ∃ before after, lifecycle.Reachable before ∧
      lifecycle.step before (.failCreated 1) = some after ∧
      before.store.taskStatus 1 = some .canceled ∧ after.store.taskStatus 1 = some .failed := by
  have hstart : lifecycle.Reachable startedProcess := .start initial_startedProcess
  refine ⟨fun horderly => ?_, ?_, ?_⟩
  · have hrunning := @Reachable.exec _ _ lifecycle _ _ [.createTask .releaseDeploy (some 1) (some 1),
      .markItem 1 1, .handOver 1, .markRunning 1] hstart rfl
    have hold := ((horderly _ hrunning).1 .recover _ trivial rfl).2 rfl
    exact absurd (hold.1 _ (List.mem_singleton_self _) (by decide)) (by decide)
  · exact ⟨_, _, @Reachable.exec _ _ lifecycle _ _ [.createTask .releaseDeploy (some 1) (some 1),
      .markItem 1 1, .handOver 1, .markRunning 1, .recover] hstart rfl, rfl, rfl, rfl⟩
  · exact ⟨_, _, @Reachable.exec _ _ lifecycle _ _ [.recover, .createTask .composeUp (some 1) none,
      .cancelQueued 1] hstart rfl, rfl, rfl, rfl⟩

end EasyDeploy.ReleaseQueue
