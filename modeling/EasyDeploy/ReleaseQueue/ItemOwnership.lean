import EasyDeploy.ReleaseQueue.ItemStatements

/-!
# The workers and their items

A task that has a job belongs to one worker, to the channel or to the request
that created it. What a worker does with its own task and item is stated here
for every statement; the statements at which other requests may have come in
between are singled out as conditions.
-/

namespace EasyDeploy.ReleaseQueue
open Foundation
open Orchestrator (TaskStatus)

namespace Store

variable {store store' : Store} {moved : Option Int}

/-- The task is queued or running. -/
def Open (store : Store) (taskId : Int) : Prop :=
  store.taskStatus taskId = some .queued ∨ store.taskStatus taskId = some .running

/-- No running item names the task. -/
def Unnamed (store : Store) (taskId : Int) : Prop :=
  ∀ item ∈ store.queue, item.status = .running → item.taskId ≠ some taskId

/-- The task can be left to itself. -/
def Settled (store : Store) (taskId : Int) : Prop := store.Open taskId ∨ store.Unnamed taskId

/-- At most one item of an application is running. -/
def Alone (store : Store) : Prop :=
  ∀ item ∈ store.queue, ∀ item' ∈ store.queue, item.status = .running → item'.status = .running →
    item.appId = item'.appId → item = item'

/-- Where no item is started, items stay alone. -/
theorem Alone.of_running (h : store.Alone) (hformed' : store'.Formed)
    (hrunning : ∀ item' ∈ store'.queue, item'.status = .running → ∃ item ∈ store.queue,
      item.status = .running ∧ item.id = item'.id ∧ item.appId = item'.appId) :
    store'.Alone := by
  intro item hitem item' hitem' hrun hrun' happ
  obtain ⟨old, hold, holdrun, hid, holdapp⟩ := hrunning item hitem hrun
  obtain ⟨old', hold', holdrun', hid', holdapp'⟩ := hrunning item' hitem' hrun'
  have heq := h old hold old' hold' holdrun holdrun' (holdapp.trans (happ.trans holdapp'.symm))
  refine hformed'.keyed.eq hitem hitem' ?_
  exact hid.symm.trans ((congrArg QueueItem.id heq).trans hid')

/-- A running item of another task was running before. -/
theorem Statement.running_of (h : Statement moved store store') {item' : QueueItem}
    (hitem' : item' ∈ store'.queue) (hrunning : item'.status = .running)
    (hmoved : moved = none ∨ item'.taskId ≠ moved) : ∃ item ∈ store.queue,
      item.status = .running ∧ item.id = item'.id ∧ item.appId = item'.appId ∧
        item.taskId = item'.taskId := by
  rcases h.items item' hitem' with ⟨item, hitem, hfollows⟩ | henters
  · refine ⟨item, hitem, ?_, hfollows.id.symm, hfollows.appId.symm, ?_⟩
    · rcases hfollows.status with heq | hne | ⟨hsome, heq⟩
      · exact heq.symm.trans hrunning
      · exact absurd hrunning hne.2
      · rcases hmoved with rfl | hne
        · cases hsome
        · exact absurd heq hne
    · rcases hfollows.taskId with heq | ⟨-, hsome, heq⟩
      · exact heq.symm
      · rcases hmoved with rfl | hne
        · cases hsome
        · exact absurd heq hne
  · have hwaiting := henters.waiting
    rw [hrunning] at hwaiting
    cases hwaiting

theorem Statement.alone (h : Statement none store store') (halone : store.Alone) :
    store'.Alone := by
  refine halone.of_running h.formed fun item' hitem' hrunning => ?_
  obtain ⟨item, hitem, hrun, hid, happ, -⟩ := h.running_of hitem' hrunning (.inl rfl)
  exact ⟨item, hitem, hrun, hid, happ⟩

/-- A party that holds the jobs of the tasks `held` takes a step and then holds those of
`held'`. -/
structure Acts (store store' : Store) (held held' : List Int) : Prop where
  moves : ∃ moved, Statement moved store store' ∧ ∀ taskId, moved = some taskId → taskId ∈ held
  count : ∀ taskId, held'.count taskId ≤ held.count taskId ∨
    store.taskStatus taskId = none ∧ held'.count taskId ≤ 1
  paired : ∀ item ∈ store'.queue, item.status = .running → ∀ taskId ∈ held,
    item.taskId = some taskId → store'.Open taskId ∨ taskId ∈ held'
  alone : store.Alone → store'.Alone

/-- A step that moves no item and gives no job away. -/
theorem Statement.acts (h : Statement none store store') (held : List Int) :
    store.Acts store' held held where
  moves := ⟨none, h, nofun⟩
  count _ := .inl le_rfl
  paired _ _ _ _ hheld _ := .inr hheld
  alone := h.alone

/-- A party gives its jobs away that can be left to themselves. -/
theorem Acts.leave {held : List Int} (h : store.Acts store' held held)
    (hsettled : ∀ taskId ∈ held, store'.Settled taskId) : store.Acts store' held [] where
  moves := h.moves
  count _ := .inl (Nat.zero_le _)
  paired item hitem hrunning taskId hheld hname :=
    (hsettled taskId hheld).imp_right fun hfree => absurd hname (hfree item hitem hrunning)
  alone := h.alone

/-- A party leaves a job behind. -/
theorem Formed.acts_leave (h : store.Formed) {held : List Int}
    (hsettled : ∀ taskId ∈ held, store.Settled taskId) : store.Acts store held [] :=
  (h.statement_none.acts held).leave hsettled

section Parties

variable {held held' others : List Int}

/-- Running items stay paired when a party takes a step. -/
theorem Acts.paired_all (h : store.Acts store' held held') (others : List Int)
    (hformed : store.Formed)
    (hpaired : ∀ item ∈ store.queue, item.status = .running → ∀ taskId,
      item.taskId = some taskId → store.Open taskId ∨ taskId ∈ held ++ others) :
    ∀ item ∈ store'.queue, item.status = .running → ∀ taskId,
      item.taskId = some taskId → store'.Open taskId ∨ taskId ∈ held' ++ others := by
  intro item' hitem' hrunning taskId hname
  by_cases hheld : taskId ∈ held
  · exact (h.paired item' hitem' hrunning taskId hheld hname).imp_right (List.mem_append_left _)
  · obtain ⟨moved, hstatement, hmoved⟩ := h.moves
    have hne : some taskId ≠ moved := fun heq => hheld (hmoved taskId heq.symm)
    obtain ⟨item, hitem, hrun, -, -, htask⟩ :=
      hstatement.running_of hitem' hrunning (.inr (hname ▸ hne))
    have hold : item.taskId = some taskId := htask.trans hname
    refine (hpaired item hitem hrun taskId hold).imp (fun hopen => ?_) fun hmem => ?_
    · rw [Open, hstatement.tasks taskId hne (hformed.tasks item hitem taskId hold)]
      exact hopen
    · exact List.mem_append_right _ ((List.mem_append.mp hmem).resolve_left hheld)

/-- No job is held twice when a party takes a step. -/
theorem Acts.distinct (h : store.Acts store' held held')
    (hknown : ∀ taskId ∈ others, (store.taskStatus taskId).isSome = true)
    (hdistinct : ∀ taskId, (held ++ others).count taskId ≤ 1) (taskId : Int) :
    (held' ++ others).count taskId ≤ 1 := by
  have hold := hdistinct taskId
  rw [List.count_append] at hold ⊢
  rcases h.count taskId with hle | ⟨hnone, hle⟩
  · omega
  · have hzero : others.count taskId = 0 := List.count_eq_zero.mpr fun hmem => by
      have hsome := hknown taskId hmem
      rw [hnone] at hsome
      cases hsome
    omega

/-- The jobs that others hold are not touched. -/
theorem Acts.statement (h : store.Acts store' held held')
    (hdistinct : ∀ taskId, (held ++ others).count taskId ≤ 1) :
    ∃ moved, Statement moved store store' ∧ ∀ taskId ∈ others, some taskId ≠ moved := by
  obtain ⟨moved, hstatement, hmoved⟩ := h.moves
  refine ⟨moved, hstatement, fun taskId hmem heq => ?_⟩
  have hpos := List.count_pos_iff.mpr (hmoved taskId heq.symm)
  have hpos' := List.count_pos_iff.mpr hmem
  have hle := hdistinct taskId
  rw [List.count_append] at hle
  omega

end Parties

end Store

/-- The task of a dispatch, once it has created one. -/
def DispatchStage.held : DispatchStage → List Int
  | marking _ taskId | announcing _ taskId | logging _ taskId | sending _ taskId |
    failingItem _ (some taskId) | failingRelease _ (some taskId) | failingTask taskId => [taskId]
  | _ => []

/-- What keeps a dispatch clear of the others: it leaves behind a task that is open or that no item
names; no other item of the application has been started when it starts one; and the item that it
lets fail has not been canceled. -/
def DispatchStage.Clear (store : Store) (stage : DispatchStage) : Bool → Prop
  | false => stage.interrupt = none → ∀ taskId ∈ stage.held, store.Settled taskId
  | true =>
      match stage with
      | marking item _ => ∀ old ∈ store.queue, old.id = item.id → old.status = .queued →
          ∀ other ∈ store.queue, other.status = .running → other.appId ≠ old.appId
      | failingItem item _ => ∀ old ∈ store.queue, old.id = item.id → old.status ≠ .canceled
      | _ => True

namespace Store

variable {store store' : Store} {moved : Option Int}

/-- The item of a dispatch is a row of the queue with this snapshot. -/
structure Selected (store : Store) (item : QueueItem) : Prop where
  known : item.id ∈ store.queue.map (·.id)
  snapshot : ∀ old ∈ store.queue, old.id = item.id → old.configSnapshotId = item.configSnapshotId

theorem Selected.keep {item : QueueItem} (h : store.Selected item)
    (hstatement : Statement moved store store') : store'.Selected item := by
  refine ⟨?_, fun item' hitem' hid => ?_⟩
  · obtain ⟨old, hold, hid⟩ := List.mem_map.mp h.known
    obtain ⟨item', hitem', hfollows⟩ := hstatement.kept old hold
    exact List.mem_map.mpr ⟨item', hitem', hfollows.id.trans hid⟩
  · rcases hstatement.items item' hitem' with ⟨old, hold, hfollows⟩ | henters
    · rw [hfollows.configSnapshotId]
      exact h.snapshot old hold (hfollows.id.symm.trans hid)
    · exact absurd (hid ▸ h.known) henters.fresh

/-- What a dispatch knows of its item and of its task. -/
def Dispatches (store : Store) : DispatchStage → Prop
  | .counting | .selecting | .failingRelease _ none => True
  | .fetchingApp item => store.Selected item
  | .preparing item | .creatingTask item =>
      store.Selected item ∧ item.configSnapshotId.isSome = true
  | .marking item taskId => store.Selected item ∧ item.configSnapshotId.isSome = true ∧
      store.Holds taskId none .waiting
  | .announcing item taskId | .logging item taskId | .sending item taskId |
    .failingItem item (some taskId) => store.Holds taskId (some item.id) .waiting
  | .failingItem item none => store.Selected item ∧ item.configSnapshotId = none
  | .failingRelease _ (some taskId) | .failingTask taskId =>
      ∃ queueId, store.Holds taskId queueId .dropped

theorem Holds.known_task {taskId : Int} {queueId : Option Int} {phase : Phase}
    (h : store.Holds taskId queueId phase) : (store.taskStatus taskId).isSome = true := by
  obtain ⟨status, hstatus, -⟩ := h.statuses
  rw [hstatus]
  rfl

theorem Holds.unnamed {taskId : Int} {queueId : Option Int} {phase : Phase}
    (h : store.Holds taskId queueId phase)
    (hidle : ∀ task item, phase.item task item → item ≠ .running) : store.Unnamed taskId := by
  intro item hitem hrunning hname
  obtain ⟨status, -, -, hstatuses⟩ := h.statuses
  exact hidle _ _ (hstatuses item hitem hname) hrunning

/-- A job without an item has none. -/
theorem Holds.unnamed_of_none {taskId : Int} {phase : Phase} (h : store.Holds taskId none phase) :
    store.Unnamed taskId :=
  fun item hitem _ hname => nomatch (h.named item hitem).mp hname

theorem Dispatches.known {stage : DispatchStage} (h : store.Dispatches stage) :
    ∀ taskId ∈ stage.held, (store.taskStatus taskId).isSome = true := by
  intro taskId hmem
  cases stage with
  | marking item held =>
      rw [List.mem_singleton.mp hmem]
      exact h.2.2.known_task
  | announcing item held | logging item held | sending item held =>
      rw [List.mem_singleton.mp hmem]
      exact Holds.known_task h
  | failingTask held =>
      rw [List.mem_singleton.mp hmem]
      exact h.elim fun _ h => h.known_task
  | failingItem item held =>
      cases held with
      | none => cases hmem
      | some held =>
          rw [List.mem_singleton.mp hmem]
          exact Holds.known_task h
  | failingRelease item held =>
      cases held with
      | none => cases hmem
      | some held =>
          rw [List.mem_singleton.mp hmem]
          exact h.elim fun _ h => h.known_task
  | counting | selecting | fetchingApp | preparing | creatingTask => cases hmem

/-- A dispatch knows the same where its item and its task are known in the same way. -/
theorem Dispatches.map {stage : DispatchStage} (h : store.Dispatches stage)
    (hselected : ∀ item, store.Selected item → store'.Selected item)
    (hholds : ∀ taskId ∈ stage.held, ∀ queueId phase, phase = .waiting ∨ phase = .dropped →
      store.Holds taskId queueId phase → store'.Holds taskId queueId phase) :
    store'.Dispatches stage := by
  cases stage with
  | counting | selecting => trivial
  | fetchingApp item => exact hselected item h
  | preparing item | creatingTask item => exact ⟨hselected item h.1, h.2⟩
  | marking item taskId =>
      exact ⟨hselected item h.1, h.2.1, hholds taskId (.head _) _ _ (.inl rfl) h.2.2⟩
  | announcing item taskId | logging item taskId | sending item taskId =>
      exact hholds taskId (.head _) _ _ (.inl rfl) h
  | failingTask taskId =>
      exact h.elim fun queueId h => ⟨queueId, hholds taskId (.head _) _ _ (.inr rfl) h⟩
  | failingItem item taskId =>
      cases taskId with
      | none => exact ⟨hselected item h.1, h.2⟩
      | some taskId => exact hholds taskId (.head _) _ _ (.inl rfl) h
  | failingRelease item taskId =>
      cases taskId with
      | none => trivial
      | some taskId =>
          exact h.elim fun queueId h => ⟨queueId, hholds taskId (.head _) _ _ (.inr rfl) h⟩

/-- The statements of others do not disturb a dispatch. -/
theorem Dispatches.keep {stage : DispatchStage} (h : store.Dispatches stage)
    (hstatement : Statement moved store store') (hne : ∀ taskId ∈ stage.held, some taskId ≠ moved) :
    store'.Dispatches stage :=
  h.map (fun _ hselected => hselected.keep hstatement) fun taskId hmem _ _ _ hholds =>
    hholds.keep hstatement (hne taskId hmem)

section OwnItem

variable {taskId queueId : Int} {phase phase' : Phase} {status : QueueStatus}

/-- A running item of the own task ends. -/
theorem Holds.statement_finishItem (h : store.Holds taskId (some queueId) phase)
    (hformed : store.Formed)
    (hrunning : ∀ item ∈ store.queue, item.taskId = some taskId → item.status = .running)
    (hended : status.isLive = false) :
    Statement (some taskId) store (store.finishItem queueId status) := by
  refine hformed.statement_update (fun item => { item with status }) (fun _ => rfl)
    (fun item hitem hid _ => ?_) fun other hother => ?_
  · have hname := (h.named item hitem).mpr (congrArg some (Eq.symm hid))
    refine ⟨rfl, rfl, rfl, .inl rfl, .inr (.inr ⟨rfl, hname⟩), fun hcanceled => ?_,
      fun hwaiting => ?_, fun hrun => ?_⟩
    · rw [hrunning item hitem hname] at hcanceled
      cases hcanceled
    · rw [QueueStatus.isLive_of_isWaiting hwaiting] at hended
      cases hended
    · rw [show status = .running from hrun] at hended
      cases hended
  · rw [← Option.some.inj hother]
    exact h.known_task

/-- The statuses of a job whose item has ended. -/
theorem Holds.finishItem (h : store.Holds taskId (some queueId) phase)
    (htask : ∀ status, phase.task status → phase'.task status)
    (hitem : ∀ task, phase'.item task status) :
    (store.finishItem queueId status).Holds taskId (some queueId) phase' := by
  obtain ⟨task, hstatus, hphase, -⟩ := h.statuses
  refine ⟨fun id hid => ?_, ?_, task, hstatus, htask task hphase, ?_⟩
  · have hids : (store.finishItem queueId status).queue.map (·.id) = store.queue.map (·.id) :=
      map_updateAt fun _ => rfl
    rw [hids]
    exact h.known id hid
  · exact forall_updateAt (fun item hmem _ _ => h.named item hmem) fun item hmem _ =>
      h.named item hmem
  · refine forall_updateAt (fun item hmem _ _ _ => hitem task) fun item hmem hother hname => ?_
    have hid := Option.some.inj ((h.named item hmem).mp hname)
    exact absurd (hother hid.symm) nofun

theorem mem_of_finishItem {item : QueueItem} (hitem : item ∈ (store.finishItem queueId status).queue)
    (hrunning : item.status = .running) (hended : status.isLive = false) : item ∈ store.queue := by
  have hchange : ∀ item : QueueItem, true = true → ¬ { item with status }.status = .running :=
    fun item _ heq => by
      rw [show status = .running from heq] at hended
      cases hended
  exact mem_of_updateAt_of_not (P := fun item => item.status = .running) hitem hchange hrunning

theorem alone_finishItem (h : store.Alone) (hended : status.isLive = false) :
    (store.finishItem queueId status).Alone :=
  fun item hitem item' hitem' hrun hrun' => h item (mem_of_finishItem hitem hrun hended) item'
    (mem_of_finishItem hitem' hrun' hended) hrun hrun'

/-- A party whose running item ends. -/
theorem Holds.acts_finishItem (h : store.Holds taskId (some queueId) phase)
    (hformed : store.Formed)
    (hrunning : ∀ item ∈ store.queue, item.taskId = some taskId → item.status = .running)
    (hended : status.isLive = false) :
    store.Acts (store.finishItem queueId status) [taskId] [taskId] where
  moves := ⟨some taskId, h.statement_finishItem hformed hrunning hended, fun _ heq =>
    List.mem_singleton.mpr (Option.some.inj heq).symm⟩
  count _ := .inl le_rfl
  paired _ _ _ _ hheld _ := .inr hheld
  alone halone := alone_finishItem halone hended

/-- A task without a running item ends. -/
theorem Formed.acts_finishTask (hformed : store.Formed)
    (hunnamed : store.Unnamed taskId) {status : TaskStatus} (hstatus : status ≠ .queued) :
    store.Acts (store.finishTask taskId status) [taskId] [] where
  moves := ⟨some taskId, hformed.statement_task taskId _ hstatus, fun _ heq =>
    List.mem_singleton.mpr (Option.some.inj heq).symm⟩
  count _ := .inl (Nat.zero_le _)
  paired item hitem hrunning other hother hname := by
    rw [List.mem_singleton.mp hother] at hname
    exact absurd hname (hunnamed item hitem hrunning)
  alone h := h

/-- A queued item is started with a task that no item names yet. -/
theorem Holds.mark {item : QueueItem} (h : store.Holds taskId none .waiting) (hformed : store.Formed)
    (hselected : store.Selected item) (hsnapshot : item.configSnapshotId.isSome = true)
    (hclear : DispatchStage.Clear store (.marking item taskId) true) :
    store.Acts (store.markReleaseQueueRunning item.id taskId).2 [taskId] [taskId] ∧
      (store.markReleaseQueueRunning item.id taskId).2.Dispatches
        (if (store.markReleaseQueueRunning item.id taskId).1 then .announcing item taskId
          else .failingTask taskId) := by
  obtain ⟨task, hstatus, hphase, -⟩ := h.statuses
  have hstatement : Statement (some taskId) store
      (store.markReleaseQueueRunning item.id taskId).2 := by
    refine hformed.statement_update
      (fun item => { item with status := .running, taskId := some taskId }) (fun _ => rfl)
      (fun old hold hid hguard => ?_) fun other hother => ?_
    · have hqueued : old.status = .queued := beq_iff_eq.mp hguard
      have hnone := hformed.waiting old hold (by rw [hqueued]; rfl)
      refine ⟨rfl, rfl, rfl, .inr ⟨hnone, rfl, rfl⟩, .inr (.inr ⟨rfl, rfl⟩), fun heq => ?_, nofun,
        fun _ => .inr ?_⟩
      · rw [hqueued] at heq
        cases heq
      · rw [hselected.snapshot old hold hid]
        exact hsnapshot
    · rw [← Option.some.inj hother]
      exact h.known_task
  refine ⟨⟨⟨some taskId, hstatement, fun _ heq =>
    List.mem_singleton.mpr (Option.some.inj heq).symm⟩, fun _ => .inl le_rfl,
    fun _ _ _ _ hheld _ => .inr hheld, fun halone => ?_⟩, ?_⟩
  · have hcases : ∀ item' ∈ (store.markReleaseQueueRunning item.id taskId).2.queue,
        item'.status = .running → item' ∈ store.queue ∨ ∃ old ∈ store.queue, old.id = item.id ∧
          old.status = .queued ∧ item' = { old with status := .running, taskId := some taskId } :=
      forall_updateAt (fun old hold hid hguard _ =>
        .inr ⟨old, hold, hid, beq_iff_eq.mp hguard, rfl⟩) fun old hold _ _ => .inl hold
    intro first hfirst second hsecond hrun hrun' happ
    rcases hcases first hfirst hrun with hold | ⟨old, hold, hid, hqueued, rfl⟩ <;>
      rcases hcases second hsecond hrun' with hold' | ⟨old', hold', hid', hqueued', rfl⟩
    · exact halone first hold second hold' hrun hrun' happ
    · exact absurd happ (hclear old' hold' hid' hqueued' first hold hrun)
    · exact absurd happ.symm (hclear old hold hid hqueued second hold' hrun')
    · rw [hformed.keyed.eq hold hold' (hid.trans hid'.symm)]
  · by_cases hfound : ∃ old ∈ store.queue, old.id = item.id ∧ old.status = .queued
    · obtain ⟨old, hold, hid, hqueued⟩ := hfound
      have hmarked := markReleaseQueueRunning_queued hold hqueued taskId
      rw [hid] at hmarked
      rw [hmarked, if_pos rfl]
      refine ⟨fun id heq => ?_, ?_, task, hstatus, hphase, ?_⟩
      · have hids : (store.markReleaseQueueRunning item.id taskId).2.queue.map (·.id) =
            store.queue.map (·.id) := map_updateAt fun _ => rfl
        rw [hids, ← Option.some.inj heq]
        exact hselected.known
      · refine forall_updateAt (fun old _ hid _ => ?_) fun other hother hne => ?_
        · rw [show old.id = item.id from hid]
          exact ⟨fun _ => rfl, fun _ => rfl⟩
        · refine (h.named other hother).trans ⟨nofun, fun heq => ?_⟩
          have hsame : other.id = item.id := (Option.some.inj heq).symm
          obtain rfl := hformed.keyed.eq hother hold (hsame.trans hid.symm)
          have hfalse := hne hsame
          rw [hqueued] at hfalse
          cases hfalse
      · refine forall_updateAt (fun _ _ _ _ _ => .inl rfl) fun other hother _ hname => ?_
        exact nomatch (h.named other hother).mp hname
    · have hnone := markReleaseQueueRunning_of_not (fun old hold hid hqueued =>
        hfound ⟨old, hold, hid, hqueued⟩) taskId
      rw [hnone, if_neg Bool.false_ne_true]
      refine ⟨none, h.known, h.named, task, hstatus, trivial, fun other hother hname => ?_⟩
      exact nomatch (h.named other hother).mp hname

end OwnItem

end Store

/-- A job of the compose worker in a phase. -/
structure Store.HoldsJob (store : Store) (job : ComposeTaskJob) (phase : Phase) : Prop where
  holds : store.Holds job.taskId job.queueId phase
  release : job.queueId.isSome = job.releaseId.isSome

namespace DispatchStage

/-- The item of a dispatch. -/
def heldBy (stage : Option DispatchStage) : List Int := stage.elim [] held

/-- A step of a dispatch that hands the jobs `sent` to the compose worker. -/
structure Moves (stage : DispatchStage) (store : Store) (channel : List ComposeTaskJob)
    (result : Option DispatchStage × Store × List ComposeTaskJob)
    (sent : List ComposeTaskJob) : Prop where
  channel : result.2.2 = channel ++ sent
  acts : store.Acts result.2.1 stage.held (heldBy result.1 ++ sent.map (·.taskId))
  next : ∀ next, result.1 = some next → result.2.1.Dispatches next
  sent : ∀ job ∈ sent, result.2.1.HoldsJob job .waiting

variable {stage : DispatchStage} {store store' : Store} {channel : List ComposeTaskJob}
  {appId : Int}

/-- The dispatch ends. -/
theorem Moves.leave (hacts : store.Acts store' stage.held []) :
    stage.Moves store channel (none, store', channel) [] where
  channel := (List.append_nil _).symm
  acts := hacts
  next _ heq := nomatch heq
  sent := List.forall_mem_nil _

/-- The dispatch goes on to its next statement. -/
theorem Moves.goOn {next : DispatchStage} (hacts : store.Acts store' stage.held next.held)
    (hnext : store'.Dispatches next) : stage.Moves store channel (some next, store', channel) [] where
  channel := (List.append_nil _).symm
  acts := by
    rw [List.map_nil, List.append_nil]
    exact hacts
  next stage heq := Option.some.inj heq ▸ hnext
  sent := List.forall_mem_nil _

/-- A statement of a dispatch that fails. -/
theorem interrupt_moves (hformed : store.Formed) (howns : store.Dispatches stage)
    (hclear : stage.Clear store false) :
    stage.Moves store channel (stage.interrupt, store, channel) [] := by
  cases hnext : stage.interrupt with
  | none => exact .leave (hformed.acts_leave (hclear hnext))
  | some next =>
      cases stage with
      | sending item taskId =>
          rw [← Option.some.inj hnext]
          exact .goOn (hformed.statement_none.acts [taskId]) howns
      | _ => cases hnext

/-- The task that a dispatch creates is new, and no item names it. -/
theorem creatingTask_moves (hformed : store.Formed) {item : QueueItem}
    (hselected : store.Selected item) (hsnapshot : item.configSnapshotId.isSome = true)
    {taskId : Int} (hcreate : store.createTask .releaseDeploy (some appId) (some item.releaseId) =
      .ok (taskId, store')) :
    (creatingTask item).Moves store channel (some (marking item taskId), store', channel) [] := by
  have hstatement := hformed.statement_createTask hcreate
  obtain ⟨hqueue, hnone, hqueued, -⟩ := Store.createTask_eq_ok hcreate
  have hunnamed : ∀ old ∈ store'.queue, old.taskId ≠ some taskId := by
    rw [hqueue]
    intro old hold hname
    have hsome := hformed.tasks old hold taskId hname
    rw [hnone] at hsome
    cases hsome
  refine .goOn ⟨⟨none, hstatement, nofun⟩, fun other => ?_, ?_, hstatement.alone⟩
    ⟨hselected.keep hstatement, hsnapshot, nofun, fun old hold => ?_, .queued, hqueued, .inl rfl,
      fun old hold hname => absurd hname (hunnamed old hold)⟩
  · by_cases heq : taskId = other
    · exact .inr ⟨heq ▸ hnone, by simp [held, heq]⟩
    · exact .inl (by simp [held, heq])
  · intro _ _ _ taskId hheld
    cases hheld
  · exact ⟨fun hname => absurd hname (hunnamed old hold), nofun⟩

/-- A statement of a dispatch that succeeds. -/
theorem advance_moves (hformed : store.Formed) (howns : store.Dispatches stage)
    (hclear : stage.Clear store true) :
    ∃ sent, stage.Moves store channel (stage.advance appId store channel) sent := by
  cases stage with
  | counting =>
      refine ⟨[], ?_⟩
      simp only [advance]
      split_ifs
      · exact .leave (hformed.statement_none.acts [])
      · exact .goOn (hformed.statement_none.acts []) trivial
  | selecting =>
      refine ⟨[], ?_⟩
      simp only [advance]
      cases hnext : store.nextQueueItem appId with
      | none => exact .leave (hformed.statement_none.acts [])
      | some item =>
          obtain ⟨hitem, -, -⟩ := Store.nextQueueItem_eq_some hnext
          refine .goOn (hformed.statement_none.acts []) ⟨List.mem_map_of_mem hitem, ?_⟩
          intro old hold hid
          rw [hformed.keyed.eq hold hitem hid]
  | fetchingApp item =>
      refine ⟨[], ?_⟩
      simp only [advance]
      split_ifs with hsnapshot
      · exact .goOn (hformed.statement_none.acts []) ⟨howns, Option.isNone_iff_eq_none.mp hsnapshot⟩
      · exact .goOn (hformed.statement_none.acts []) ⟨howns,
          Option.isSome_iff_ne_none.mpr fun hnone => hsnapshot (Option.isNone_iff_eq_none.mpr hnone)⟩
  | preparing item => exact ⟨[], .goOn (hformed.statement_none.acts []) howns⟩
  | creatingTask item =>
      refine ⟨[], ?_⟩
      simp only [advance]
      cases hcreate : store.createTask .releaseDeploy (some appId) (some item.releaseId) with
      | error error => exact .leave (hformed.statement_none.acts [])
      | ok created => exact creatingTask_moves hformed howns.1 howns.2 hcreate
  | marking item taskId =>
      obtain ⟨hacts, hnext⟩ := howns.2.2.mark hformed howns.1 howns.2.1 hclear
      refine ⟨[], .goOn ?_ hnext⟩
      split_ifs <;> exact hacts
  | announcing item taskId =>
      have hstatement : Store.Statement none store (store.setReleaseStatus item.releaseId .deploying) :=
        hformed.statement_none.setReleaseStatus _ _
      have hnamed : some taskId ≠ none := Option.some_ne_none taskId
      exact ⟨[], .goOn (hstatement.acts [taskId]) (Store.Holds.keep howns hstatement hnamed)⟩
  | logging item taskId => exact ⟨[], .goOn (hformed.statement_none.acts [taskId]) howns⟩
  | sending item taskId =>
      refine ⟨[⟨taskId, appId, some item.releaseId, some item.id⟩], rfl,
        hformed.statement_none.acts [taskId], fun _ heq => (by cases heq), fun job hjob => ?_⟩
      rw [List.mem_singleton.mp hjob]
      exact ⟨howns, rfl⟩
  | failingItem item taskId =>
      cases taskId with
      | none =>
          have hidle : ∀ old ∈ store.queue, old.id = item.id → old.status ≠ .running :=
            fun old hold hid hrunning => by
              have hsome := (hformed.running old hold hrunning).1
              rw [howns.1.snapshot old hold hid, howns.2] at hsome
              cases hsome
          have hstatement : Store.Statement none store (store.finishItem item.id .failed) :=
            hformed.statement_update (fun item => { item with status := .failed }) (fun _ => rfl)
              (fun old hold hid _ => .ended rfl rfl rfl rfl (hidle old hold hid) rfl
                fun hcanceled => absurd hcanceled (hclear old hold hid)) (by intros; contradiction)
          exact ⟨[], .goOn (hstatement.acts []) trivial⟩
      | some taskId =>
          have hholds : store.Holds taskId (some item.id) .waiting := howns
          have hrunning : ∀ old ∈ store.queue, old.taskId = some taskId → old.status = .running := by
            obtain ⟨task, -, -, hstatuses⟩ := hholds.statuses
            intro old hold hname
            have hid := Option.some.inj ((hholds.named old hold).mp hname)
            exact (hstatuses old hold hname).resolve_right fun hcanceled =>
              hclear old hold hid.symm hcanceled.2
          exact ⟨[], .goOn (hholds.acts_finishItem hformed hrunning rfl)
            ⟨_, hholds.finishItem (fun _ _ => trivial) fun _ hfailed => by cases hfailed⟩⟩
  | failingRelease item taskId =>
      have hstatement : Store.Statement none store (store.setReleaseStatus item.releaseId .failed) :=
        hformed.statement_none.setReleaseStatus _ _
      cases taskId with
      | none => exact ⟨[], .leave (hstatement.acts [])⟩
      | some taskId =>
          obtain ⟨queueId, hholds⟩ := howns
          have hnamed : some taskId ≠ none := Option.some_ne_none taskId
          exact ⟨[], .goOn (hstatement.acts [taskId]) ⟨queueId, hholds.keep hstatement hnamed⟩⟩
  | failingTask taskId =>
      obtain ⟨queueId, hholds⟩ := howns
      have hended : TaskStatus.failed ≠ .queued := fun heq => by cases heq
      exact ⟨[], .leave (hformed.acts_finishTask (hholds.unnamed fun _ _ hidle => hidle) hended)⟩

/-- A step of a dispatch. -/
theorem step_moves (appId : Int) (channel : List ComposeTaskJob) (hformed : store.Formed) (howns : store.Dispatches stage) {works : Bool}
    (hclear : stage.Clear store works) :
    ∃ sent, stage.Moves store channel (stage.step works appId store channel) sent := by
  cases works with
  | false => exact ⟨[], interrupt_moves hformed howns hclear⟩
  | true => exact advance_moves hformed howns hclear

end DispatchStage

end EasyDeploy.ReleaseQueue
