import EasyDeploy.ReleaseQueue.Interleaving

/-!
# What statements do to queue items and tasks

A statement moves the items of one task at most; of the other items those that
do not run may end. What a job knows of its own task and item is therefore not
disturbed by the statements of others.
-/

namespace EasyDeploy.ReleaseQueue
open Foundation
open Orchestrator (TaskStatus)

/-- A queue item before and after a statement that may move the item of the task `moved`. -/
structure QueueItem.Follows (moved : Option Int) (item item' : QueueItem) : Prop where
  id : item'.id = item.id
  appId : item'.appId = item.appId
  configSnapshotId : item'.configSnapshotId = item.configSnapshotId
  taskId : item'.taskId = item.taskId ∨ item.taskId = none ∧ moved.isSome ∧ item'.taskId = moved
  status : item'.status = item.status ∨ (item.status ≠ .running ∧ item'.status ≠ .running) ∨
    (moved.isSome ∧ item'.taskId = moved)
  /-- Canceled items stay canceled. -/
  canceled : item.status = .canceled → item'.status = .canceled
  waiting : item'.status.isWaiting = true → item'.taskId = none
  running : item'.status = .running → item.status = .running ∨ item.configSnapshotId.isSome = true

/-- A queue item that a statement inserts. -/
structure QueueItem.Enters (queue : List QueueItem) (item : QueueItem) : Prop where
  fresh : item.id ∉ queue.map (·.id)
  waiting : item.status.isWaiting = true
  taskId : item.taskId = none

namespace Store

/-- Items that wait have no task, items that run have a snapshot and a task, and tasks exist. -/
structure Formed (store : Store) : Prop where
  keyed : Keyed store.queue (·.id)
  waiting : ∀ item ∈ store.queue, item.status.isWaiting = true → item.taskId = none
  running : ∀ item ∈ store.queue, item.status = .running →
    item.configSnapshotId.isSome = true ∧ item.taskId.isSome = true
  tasks : ∀ item ∈ store.queue, ∀ taskId, item.taskId = some taskId →
    (store.taskStatus taskId).isSome = true

/-- What a statement does that may move the task `moved` and its items. -/
structure Statement (moved : Option Int) (store store' : Store) : Prop where
  formed : store'.Formed
  kept : ∀ item ∈ store.queue, ∃ item' ∈ store'.queue, item.Follows moved item'
  items : ∀ item' ∈ store'.queue,
    (∃ item ∈ store.queue, item.Follows moved item') ∨ item'.Enters store.queue
  tasks : ∀ taskId, some taskId ≠ moved → (store.taskStatus taskId).isSome = true →
    store'.taskStatus taskId = store.taskStatus taskId
  /-- Tasks never return to the queue. -/
  unqueued : ∀ taskId status, store.taskStatus taskId = some status → status ≠ .queued →
    ∃ status', store'.taskStatus taskId = some status' ∧ status' ≠ .queued

end Store

theorem QueueItem.Follows.refl {moved : Option Int} {item : QueueItem}
    (h : item.status.isWaiting = true → item.taskId = none) : item.Follows moved item :=
  ⟨rfl, rfl, rfl, .inl rfl, .inl rfl, fun heq => heq, h, .inl⟩

namespace Store

variable {store store' : Store} {moved : Option Int}

/-- Statements on tasks. -/
theorem Formed.statement_tasks (h : store.Formed) {tasks : List Task}
    (hsome : ∀ taskId, (store.taskStatus taskId).isSome = true →
      ({ store with tasks }.taskStatus taskId).isSome = true)
    (htasks : ∀ taskId, some taskId ≠ moved → (store.taskStatus taskId).isSome = true →
      { store with tasks }.taskStatus taskId = store.taskStatus taskId)
    (hunqueued : ∀ taskId status, store.taskStatus taskId = some status → status ≠ .queued →
      ∃ status', { store with tasks }.taskStatus taskId = some status' ∧ status' ≠ .queued) :
    Statement moved store { store with tasks } where
  formed := ⟨h.keyed, h.waiting, h.running, fun item hitem taskId htask =>
    hsome taskId (h.tasks item hitem taskId htask)⟩
  kept item hitem := ⟨item, hitem, .refl (h.waiting item hitem)⟩
  items item hitem := .inl ⟨item, hitem, .refl (h.waiting item hitem)⟩
  tasks := htasks
  unqueued := hunqueued

theorem taskStatus_updateAt {target taskId : Int} {guard : Task → Bool} {status : TaskStatus} :
    { store with tasks := updateAt store.tasks (·.id) target guard fun task =>
        { task with status } }.taskStatus taskId =
      (store.tasks.find? fun task => task.id == taskId).map fun task =>
        if task.id = target ∧ guard task then status else task.status := by
  rw [taskStatus, find?_updateAt, Option.map_map]
  · congr 1
    funext task
    rw [Function.comp_apply]
    split <;> rfl
  · exact fun _ => rfl

/-- The status of a task after an update of tasks. -/
theorem taskStatus_updateAt_eq (target : Int) (guard : Task → Bool) (status : TaskStatus)
    {taskId : Int} {old : TaskStatus} (h : store.taskStatus taskId = some old) :
    { store with tasks := updateAt store.tasks (·.id) target guard fun task =>
        { task with status } }.taskStatus taskId = some old ∨
    taskId = target ∧ { store with tasks := updateAt store.tasks (·.id) target guard fun task =>
        { task with status } }.taskStatus taskId = some status := by
  rw [taskStatus_updateAt]
  obtain ⟨task, hfind, rfl⟩ := Option.map_eq_some_iff.mp h
  have hid : task.id = taskId := by simpa using List.find?_some hfind
  rw [hfind, Option.map_some]
  split
  · rename_i hwanted
    exact .inr ⟨hid.symm.trans hwanted.1, rfl⟩
  · exact .inl rfl

/-- An update of a task to a status other than queued. -/
theorem Formed.statement_task (h : store.Formed) (target : Int) (guard : Task → Bool)
    {status : TaskStatus} (hstatus : status ≠ .queued) :
    Statement (some target) store { store with
      tasks := updateAt store.tasks (·.id) target guard fun task => { task with status } } := by
  refine h.statement_tasks (fun taskId hsome => ?_) (fun taskId hne hsome => ?_)
    fun taskId old hold hne => ?_
  · obtain ⟨old, hold⟩ := Option.isSome_iff_exists.mp hsome
    rcases taskStatus_updateAt_eq target guard status hold with heq | ⟨-, heq⟩ <;> rw [heq] <;> rfl
  · obtain ⟨old, hold⟩ := Option.isSome_iff_exists.mp hsome
    rcases taskStatus_updateAt_eq target guard status hold with heq | ⟨rfl, -⟩
    · rw [heq, hold]
    · exact absurd rfl hne
  · rcases taskStatus_updateAt_eq target guard status hold with heq | ⟨-, heq⟩
    · exact ⟨old, heq, hne⟩
    · exact ⟨status, heq, hstatus⟩

/-- A task that is created was unknown and is queued. -/
theorem createTask_eq_ok {kind : TaskKind} {appId releaseId : Option Int} {taskId : Int}
    (h : store.createTask kind appId releaseId = .ok (taskId, store')) :
    store'.queue = store.queue ∧ store.taskStatus taskId = none ∧
      store'.taskStatus taskId = some .queued ∧
      ∀ other, (store.taskStatus other).isSome = true →
        store'.taskStatus other = store.taskStatus other := by
  simp only [createTask] at h
  split at h
  · cases h
  · obtain ⟨rfl, rfl⟩ := Prod.mk.inj (Except.ok.inj h)
    have hnone : store.tasks.find? (fun task => task.id == nextId (store.tasks.map (·.id))) =
        none := by
      refine List.find?_eq_none.mpr fun task htask heq => ?_
      have hlt := lt_nextId (List.mem_map_of_mem htask : task.id ∈ store.tasks.map (·.id))
      rw [beq_iff_eq.mp heq] at hlt
      exact lt_irrefl _ hlt
    refine ⟨rfl, by rw [taskStatus, hnone]; rfl, ?_, fun other hsome => ?_⟩
    · simp [taskStatus, List.find?_append, hnone]
    · rw [taskStatus, Option.isSome_map] at hsome
      obtain ⟨task, hfind⟩ := Option.isSome_iff_exists.mp hsome
      simp [taskStatus, List.find?_append, hfind]

theorem Formed.statement_createTask (h : store.Formed) {kind : TaskKind}
    {appId releaseId : Option Int} {taskId : Int}
    (hcreate : store.createTask kind appId releaseId = .ok (taskId, store')) :
    Statement none store store' := by
  obtain ⟨-, -, -, hother⟩ := createTask_eq_ok hcreate
  simp only [createTask] at hcreate
  split at hcreate
  · cases hcreate
  · obtain ⟨-, rfl⟩ := Prod.mk.inj (Except.ok.inj hcreate)
    refine h.statement_tasks (fun other hsome => ?_) (fun other _ hsome => hother other hsome)
      fun other status hold hne => ?_
    · rw [hother other hsome]
      exact hsome
    · exact ⟨status, (hother other (by rw [hold]; rfl)).trans hold, hne⟩

theorem Statement.setReleaseStatus (h : Statement moved store store') (releaseId : Int)
    (status : ReleaseStatus) : Statement moved store (store'.setReleaseStatus releaseId status) :=
  ⟨⟨h.formed.keyed, h.formed.waiting, h.formed.running, h.formed.tasks⟩, h.kept, h.items, h.tasks,
    h.unqueued⟩

theorem Formed.statement_none (h : store.Formed) : Statement moved store store :=
  h.statement_tasks (fun _ hsome => hsome) (fun _ _ _ => rfl) fun _ status hold hne =>
    ⟨status, hold, hne⟩

/-- An update of queue items that follow the old ones. -/
theorem Formed.statement_update (h : store.Formed) {κ : Type*} [DecidableEq κ]
    {key : QueueItem → κ} {target : κ} {guard : QueueItem → Bool} (change : QueueItem → QueueItem)
    (hid : ∀ item, (change item).id = item.id)
    (hfollows : ∀ item ∈ store.queue, key item = target → guard item = true →
      item.Follows moved (change item))
    (hmoved : ∀ taskId, moved = some taskId → (store.taskStatus taskId).isSome = true) :
    Statement moved store { store with queue := updateAt store.queue key target guard change } := by
  have hitems : ∀ item' ∈ updateAt store.queue key target guard change,
      ∃ item ∈ store.queue, item.Follows moved item' :=
    forall_updateAt (fun item hitem hkey hguard => ⟨item, hitem, hfollows item hitem hkey hguard⟩)
      fun item hitem _ => ⟨item, hitem, .refl (h.waiting item hitem)⟩
  refine ⟨⟨?_, fun item' hitem' hwaiting => ?_, fun item' hitem' hrunning => ?_,
    fun item' hitem' taskId htask => ?_⟩, fun item hitem => ?_,
    fun item' hitem' => .inl (hitems item' hitem'), fun _ _ _ => rfl,
    fun _ status hold hne => ⟨status, hold, hne⟩⟩
  · rw [Keyed, map_updateAt hid]
    exact h.keyed
  · obtain ⟨item, -, hitem⟩ := hitems item' hitem'
    exact hitem.waiting hwaiting
  · obtain ⟨item, hold, hitem⟩ := hitems item' hitem'
    refine ⟨?_, ?_⟩
    · rw [hitem.configSnapshotId]
      exact (hitem.running hrunning).elim (fun heq => (h.running item hold heq).1) fun heq => heq
    · rcases hitem.status with heq | hne | ⟨hsome, heq⟩
      · have hsome := (h.running item hold (heq.symm.trans hrunning)).2
        rcases hitem.taskId with htask | htask
        · rwa [htask]
        · rw [htask.1] at hsome
          cases hsome
      · exact absurd hrunning hne.2
      · rwa [heq]
  · obtain ⟨item, hold, hitem⟩ := hitems item' hitem'
    rcases hitem.taskId with heq | ⟨-, -, heq⟩
    · exact h.tasks item hold taskId (heq.symm.trans htask)
    · exact hmoved taskId (heq.symm.trans htask)
  · by_cases hwanted : key item = target ∧ guard item = true
    · refine ⟨change item, mem_updateAt.mpr ⟨item, hitem, if_pos hwanted⟩, ?_⟩
      exact hfollows item hitem hwanted.1 hwanted.2
    · exact ⟨item, mem_updateAt.mpr ⟨item, hitem, if_neg hwanted⟩, .refl (h.waiting item hitem)⟩

end Store

/-- Items that are not running end. -/
theorem QueueItem.Follows.ended {moved : Option Int} {item item' : QueueItem} (hid : item'.id = item.id)
    (happ : item'.appId = item.appId) (hsnapshot : item'.configSnapshotId = item.configSnapshotId)
    (htask : item'.taskId = item.taskId) (hidle : item.status ≠ .running)
    (hended : item'.status.isLive = false)
    (hcanceled : item.status = .canceled → item'.status = .canceled) :
    item.Follows moved item' where
  id := hid
  appId := happ
  configSnapshotId := hsnapshot
  taskId := .inl htask
  status := .inr (.inl ⟨hidle, fun heq => by rw [heq] at hended; cases hended⟩)
  canceled := hcanceled
  waiting hwaiting := by
    rw [QueueStatus.isLive_of_isWaiting hwaiting] at hended
    cases hended
  running hrunning := by
    rw [hrunning] at hended
    cases hended

namespace Store

variable {store store' : Store}

theorem Formed.statement_enqueue (h : store.Formed) {appId releaseId snapshotId queueId : Int}
    {status : QueueStatus} {time : Option String} (hwaiting : status.isWaiting = true)
    (henqueue : store.enqueueAppRelease appId releaseId snapshotId status time =
      some (queueId, store')) : Statement none store store' := by
  simp only [enqueueAppRelease] at henqueue
  split at henqueue
  · cases henqueue
  · obtain ⟨-, rfl⟩ := Prod.mk.inj (Option.some.inj henqueue)
    have hfresh : nextId (store.queue.map (·.id)) ∉ store.queue.map (·.id) := fun hold =>
      lt_irrefl _ (lt_nextId hold)
    have hnew {item : QueueItem} (hitem : item ∈ [(⟨nextId (store.queue.map (·.id)), appId,
        releaseId, some snapshotId, nextId ((store.queue.filter fun item =>
          item.appId == appId).map (·.queueSeq)), status, none, time⟩ : QueueItem)]) :
        item.Enters store.queue := by
      rw [List.mem_singleton.mp hitem]
      exact ⟨hfresh, hwaiting, rfl⟩
    have hcases {item : QueueItem} {rest : List QueueItem}
        (hrest : ∀ item ∈ rest, item.Enters store.queue) (hitem : item ∈ store.queue ++ rest) :
        item ∈ store.queue ∨ item.Enters store.queue :=
      (List.mem_append.mp hitem).imp_right (hrest item)
    refine ⟨⟨h.keyed.append hfresh, fun item hitem hwaits => ?_, fun item hitem hrunning => ?_,
      fun item hitem taskId htask => ?_⟩, fun item hitem => ?_, fun item hitem => ?_,
      fun _ _ _ => rfl, fun _ status hold hne => ⟨status, hold, hne⟩⟩
    · rcases hcases (fun _ => hnew) hitem with hold | hnew
      · exact h.waiting item hold hwaits
      · exact hnew.taskId
    · rcases hcases (fun _ => hnew) hitem with hold | hnew
      · exact h.running item hold hrunning
      · have hwaits := hnew.waiting
        rw [hrunning] at hwaits
        cases hwaits
    · rcases hcases (fun _ => hnew) hitem with hold | hnew
      · exact h.tasks item hold taskId htask
      · rw [hnew.taskId] at htask
        cases htask
    · exact ⟨item, List.mem_append_left _ hitem, .refl (h.waiting item hitem)⟩
    · rcases hcases (fun _ => hnew) hitem with hold | hnew
      · exact .inl ⟨item, hold, .refl (h.waiting item hold)⟩
      · exact .inr hnew

end Store

/-- How far a job has come: its task and its item are in corresponding statuses. -/
inductive Phase
  /-- The task has not been started. -/
  | waiting
  /-- The task is running with its item. -/
  | live
  /-- The task is about to fail. -/
  | failing
  /-- The task has been started, the item is still running. -/
  | finishing
  /-- The task has been started, the item has ended. -/
  | finished
  /-- The item has ended or was never running. -/
  | dropped
deriving Repr, DecidableEq

namespace Phase

/-- The statuses that a task may have in a phase. -/
def task : Phase → TaskStatus → Prop
  | waiting, status => status = .queued ∨ status = .canceled
  | live, status | failing, status => status = .running
  | finishing, status | finished, status => status ≠ .queued
  | dropped, _ => True

/-- Those that its item may have. -/
def item : Phase → TaskStatus → QueueStatus → Prop
  | waiting, task, item => item = .running ∨ task = .canceled ∧ item = .canceled
  | live, _, item | finishing, _, item => item = .running
  | failing, _, _ => True
  | finished, _, item | dropped, _, item => item ≠ .running

/-- Items that are not running may end. -/
theorem item_of_ended {phase : Phase} {task : TaskStatus} {item item' : QueueStatus}
    (h : phase.item task item) (hidle : item ≠ .running) (hidle' : item' ≠ .running)
    (hcanceled : item = .canceled → item' = .canceled) : phase.item task item' := by
  cases phase with
  | waiting => exact .inr ⟨(h.resolve_left hidle).1, hcanceled (h.resolve_left hidle).2⟩
  | live | finishing => exact absurd h hidle
  | failing => trivial
  | finished | dropped => exact hidle'

end Phase

namespace Store

variable {store store' : Store} {moved : Option Int}

/-- A job has this task and this item, if any, and is in this phase. -/
structure Holds (store : Store) (taskId : Int) (queueId : Option Int) (phase : Phase) : Prop where
  known : ∀ id, queueId = some id → id ∈ store.queue.map (·.id)
  named : ∀ item ∈ store.queue, item.taskId = some taskId ↔ queueId = some item.id
  statuses : ∃ status, store.taskStatus taskId = some status ∧ phase.task status ∧
    ∀ item ∈ store.queue, item.taskId = some taskId → phase.item status item.status

/-- The statements of others do not disturb a job. -/
theorem Holds.keep {taskId : Int} {queueId : Option Int} {phase : Phase}
    (h : store.Holds taskId queueId phase) (hstatement : Statement moved store store')
    (hne : some taskId ≠ moved) : store'.Holds taskId queueId phase := by
  obtain ⟨status, hstatus, htask, hitem⟩ := h.statuses
  have hsome : (store.taskStatus taskId).isSome = true := by rw [hstatus]; rfl
  refine ⟨fun id hid => ?_, fun item' hitem' => ?_, status,
    (hstatement.tasks taskId hne hsome).trans hstatus, htask, fun item' hitem' hname => ?_⟩
  · obtain ⟨item, hmem, rfl⟩ := List.mem_map.mp (h.known id hid)
    obtain ⟨item', hmem', hfollows⟩ := hstatement.kept item hmem
    exact List.mem_map.mpr ⟨item', hmem', hfollows.id⟩
  · rcases hstatement.items item' hitem' with ⟨item, hmem, hfollows⟩ | henters
    · rw [hfollows.id, ← h.named item hmem]
      rcases hfollows.taskId with heq | ⟨hnone, hsome, heq⟩
      · rw [heq]
      · rw [heq, hnone]
        exact ⟨fun hsame => absurd hsame.symm hne, fun hsame => nomatch hsame⟩
    · rw [henters.taskId]
      exact ⟨fun hsame => (nomatch hsame), fun hsame => absurd (h.known _ hsame) henters.fresh⟩
  · rcases hstatement.items item' hitem' with ⟨item, hmem, hfollows⟩ | henters
    · have hold : item.taskId = some taskId := by
        rcases hfollows.taskId with heq | ⟨-, -, heq⟩
        · exact heq.symm.trans hname
        · exact absurd (hname.symm.trans heq) hne
      rcases hfollows.status with heq | ⟨hidle, hidle'⟩ | ⟨-, heq⟩
      · rw [heq]
        exact hitem item hmem hold
      · exact Phase.item_of_ended (hitem item hmem hold) hidle hidle' hfollows.canceled
      · exact absurd (hname.symm.trans heq) hne
    · rw [henters.taskId] at hname
      cases hname

end Store

end EasyDeploy.ReleaseQueue
