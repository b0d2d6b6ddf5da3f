import EasyDeploy.ReleaseQueue.ItemOwnership

/-!
# Queue items stay paired with their tasks

The compose worker keeps the task and the item of its job together. With the
dispatch worker and the requests this gives the invariant of all interleavings
whose steps keep clear of each other.
-/

namespace EasyDeploy.ReleaseQueue
open Foundation
open Foundation.Transition
open Orchestrator (TaskStatus)

namespace Store

variable {store store' : Store} {moved : Option Int} {job : ComposeTaskJob} {phase phase' : Phase}

theorem HoldsJob.keep (h : store.HoldsJob job phase) (hstatement : Statement moved store store')
    (hne : some job.taskId ≠ moved) : store'.HoldsJob job phase :=
  ⟨h.holds.keep hstatement hne, h.release⟩

/-- A phase that asks for less. -/
theorem HoldsJob.weaken (h : store.HoldsJob job phase)
    (htask : ∀ task, phase.task task → phase'.task task)
    (hitem : ∀ task item, phase.item task item → phase'.item task item) :
    store.HoldsJob job phase' := by
  obtain ⟨status, hstatus, hphase, hitems⟩ := h.holds.statuses
  exact ⟨⟨h.holds.known, h.holds.named, status, hstatus, htask status hphase,
    fun item hmem hname => hitem _ _ (hitems item hmem hname)⟩, h.release⟩

/-- The task of a job changes its status. -/
theorem HoldsJob.task (h : store.HoldsJob job phase) {guard : Task → Bool} {status : TaskStatus}
    (hchanged : { store with tasks := updateAt store.tasks (·.id) job.taskId guard fun task =>
      { task with status } }.taskStatus job.taskId = some status)
    (htask : phase'.task status)
    (hitem : ∀ item ∈ store.queue, item.taskId = some job.taskId → phase'.item status item.status) :
    { store with tasks := updateAt store.tasks (·.id) job.taskId guard fun task =>
      { task with status } }.HoldsJob job phase' :=
  ⟨⟨h.holds.known, h.holds.named, status, hchanged, htask, hitem⟩, h.release⟩

theorem taskStatus_finishTask {taskId : Int} {status : TaskStatus}
    (h : (store.taskStatus taskId).isSome = true) :
    (store.finishTask taskId status).taskStatus taskId = some status := by
  rw [taskStatus, Option.isSome_map] at h
  obtain ⟨task, hfind⟩ := Option.isSome_iff_exists.mp h
  have hid : task.id = taskId := by simpa using List.find?_some hfind
  refine taskStatus_updateAt.trans ?_
  rw [hfind, Option.map_some, if_pos ⟨hid, rfl⟩]

/-- A queued task after an update of queued tasks. -/
theorem taskStatus_of_queued {taskId : Int} (h : store.taskStatus taskId = some .queued)
    (status : TaskStatus) : { store with
      tasks := updateAt store.tasks (·.id) taskId (·.status == TaskStatus.queued) fun task =>
        { task with status } }.taskStatus taskId = some status := by
  obtain ⟨task, hfind, hqueued⟩ := Option.map_eq_some_iff.mp h
  have hid : task.id = taskId := by simpa using List.find?_some hfind
  refine taskStatus_updateAt.trans ?_
  rw [hfind, Option.map_some, if_pos ⟨hid, beq_iff_eq.mpr hqueued⟩]

end Store

namespace WorkStage

/-- The tasks whose jobs the worker has not returned from, or is about to hand over. -/
def held (job : ComposeTaskJob) : WorkStage → List Int
  | dispatching stage => stage.held
  | _ => [job.taskId]

/-- The task of the job has been started. -/
def started : WorkStage → Bool
  | starting | dispatching _ => false
  | _ => true

theorem held_of_started {job : ComposeTaskJob} {stage : WorkStage} (h : stage.started = true) :
    stage.held job = [job.taskId] := by
  cases stage <;> first | rfl | cases h

/-- What keeps the worker clear of the others: a job that returns leaves a task that is open or that
no running item names, and a task that it lets fail is named by no running item. -/
def Clear (store : Store) (job : ComposeTaskJob) : WorkStage → Bool → Prop
  | starting, _ | finishingItem _ _ _, false => store.Settled job.taskId
  | failingTask, true => store.Unnamed job.taskId
  | dispatching stage, works => stage.Clear store works
  | _, _ => True

end WorkStage

/-- What the worker knows of its job. -/
def Store.Works (store : Store) (job : ComposeTaskJob) : WorkStage → Prop
  | .starting => store.HoldsJob job .waiting
  | .logging | .preflight | .lookingUp | .deploying | .finishingTask _ => store.HoldsJob job .live
  | .failingItem queueId _ => store.HoldsJob job .live ∧ job.queueId = some queueId
  | .failingRelease _ | .failingTask => store.HoldsJob job .failing
  | .finishingItem queueId _ _ => store.HoldsJob job .finishing ∧ job.queueId = some queueId
  | .finishingRelease _ _ => store.HoldsJob job .finished
  | .dispatching stage => store.Dispatches stage

namespace Store.Works

variable {store store' : Store} {moved : Option Int} {job : ComposeTaskJob} {stage : WorkStage}

theorem known (h : store.Works job stage) :
    ∀ taskId ∈ stage.held job, (store.taskStatus taskId).isSome = true := by
  intro taskId hmem
  cases stage with
  | dispatching stage => exact Store.Dispatches.known h taskId hmem
  | starting | logging | preflight | lookingUp | deploying | finishingTask | failingRelease
  | failingTask | finishingRelease =>
      rw [List.mem_singleton.mp hmem]
      exact (Store.HoldsJob.holds h).known_task
  | failingItem | finishingItem =>
      rw [List.mem_singleton.mp hmem]
      exact h.1.holds.known_task

/-- The statements of others do not disturb the worker. -/
theorem keep (h : store.Works job stage) (hstatement : Statement moved store store')
    (hne : ∀ taskId ∈ stage.held job, some taskId ≠ moved) : store'.Works job stage := by
  cases stage with
  | dispatching stage => exact Store.Dispatches.keep h hstatement hne
  | starting | logging | preflight | lookingUp | deploying | finishingTask | failingRelease
  | failingTask | finishingRelease =>
      exact Store.HoldsJob.keep h hstatement (hne job.taskId (.head _))
  | failingItem | finishingItem => exact ⟨h.1.keep hstatement (hne job.taskId (.head _)), h.2⟩

/-- A worker that has not started its job, or is behind it, knows the same where tasks and items are
known in the same way. -/
theorem map (h : store.Works job stage) (hidle : stage.started = false)
    (hselected : ∀ item, store.Selected item → store'.Selected item)
    (hholds : ∀ taskId queueId phase, phase = .waiting ∨ phase = .dropped →
      store.Holds taskId queueId phase → store'.Holds taskId queueId phase) :
    store'.Works job stage := by
  cases stage with
  | starting =>
      have hjob : store.HoldsJob job .waiting := h
      exact Store.HoldsJob.mk (hholds _ _ _ (.inl rfl) hjob.holds) hjob.release
  | dispatching stage =>
      exact Store.Dispatches.map h hselected fun taskId _ queueId phase hphase =>
        hholds taskId queueId phase hphase
  | _ => cases hidle

/-- A job that was started has a task that is not queued. -/
theorem unqueued (h : store.Works job stage) (hstarted : stage.started = true) :
    ∃ status, store.taskStatus job.taskId = some status ∧ status ≠ .queued := by
  have hof (phase : Phase) (hphase : ∀ status, phase.task status → status ≠ .queued)
      (hholds : store.HoldsJob job phase) :
      ∃ status, store.taskStatus job.taskId = some status ∧ status ≠ .queued := by
    obtain ⟨status, hstatus, htask, -⟩ := hholds.holds.statuses
    exact ⟨status, hstatus, hphase status htask⟩
  have hrunning (status : TaskStatus) (heq : status = .running) : status ≠ .queued := by
    rw [heq]
    nofun
  cases stage with
  | starting | dispatching => cases hstarted
  | logging | preflight | lookingUp | deploying | finishingTask => exact hof .live hrunning h
  | failingRelease | failingTask => exact hof .failing hrunning h
  | failingItem => exact hof .live hrunning h.1
  | finishingItem => exact hof .finishing (fun _ hne => hne) h.1
  | finishingRelease => exact hof .finished (fun _ hne => hne) h

end Store.Works

namespace WorkStage

/-- The item of a job. -/
def heldBy (job : ComposeTaskJob) (stage : Option WorkStage) : List Int :=
  stage.elim [] (held job)

/-- A step of the compose worker that hands over the jobs `sent`. -/
structure Moves (stage : WorkStage) (job : ComposeTaskJob) (store : Store)
    (channel : List ComposeTaskJob) (result : Option WorkStage × Store × List ComposeTaskJob)
    (sent : List ComposeTaskJob) : Prop where
  channel : result.2.2 = channel ++ sent
  acts : store.Acts result.2.1 (stage.held job) (heldBy job result.1 ++ sent.map (·.taskId))
  next : ∀ next, result.1 = some next → result.2.1.Works job next
  sent : ∀ job ∈ sent, result.2.1.HoldsJob job .waiting
  /-- Only a queued task is started. -/
  started : ∀ next, result.1 = some next → next.started = true →
    stage.started = true ∨ store.taskStatus job.taskId = some .queued

variable {stage : WorkStage} {job : ComposeTaskJob} {store store' : Store}
  {channel : List ComposeTaskJob}

/-- The job returns. -/
theorem Moves.leave (hacts : store.Acts store' (stage.held job) []) :
    stage.Moves job store channel (none, store', channel) [] where
  channel := (List.append_nil _).symm
  acts := hacts
  next _ heq := nomatch heq
  sent := List.forall_mem_nil _
  started _ heq := nomatch heq

/-- The job goes on to its next statement. -/
theorem Moves.proceed {next : WorkStage} (hstarted : stage.started = true)
    (hacts : store.Acts store' (stage.held job) (next.held job)) (hnext : store'.Works job next) :
    stage.Moves job store channel (some next, store', channel) [] where
  channel := (List.append_nil _).symm
  acts := by
    rw [List.map_nil, List.append_nil]
    exact hacts
  next stage heq := Option.some.inj heq ▸ hnext
  sent := List.forall_mem_nil _
  started _ _ _ := .inl hstarted

/-- After the job the worker dispatches the next item, or nothing. -/
theorem Moves.behind (hstarted : stage.started = true) (success : Bool)
    (hacts : store.Acts store' (stage.held job) []) :
    stage.Moves job store channel (goOn success, store', channel) [] := by
  cases success with
  | true => exact .proceed hstarted hacts trivial
  | false => exact .leave hacts

/-- The worker's own dispatch takes a step. -/
theorem dispatching_moves {stage : DispatchStage} (hformed : store.Formed)
    (howns : store.Dispatches stage) (works : Bool) (hclear : stage.Clear store works) :
    ∃ sent, (dispatching stage).Moves job store channel
      ((dispatching stage).step works job store channel) sent := by
  obtain ⟨sent, hchannel, hacts, hnext, hsent⟩ :=
    DispatchStage.step_moves job.appId channel hformed howns hclear
  have hstep : (dispatching stage).step works job store channel =
      ((stage.step works job.appId store channel).1.map dispatching,
        (stage.step works job.appId store channel).2) := by
    cases works <;> rfl
  rw [hstep]
  refine ⟨sent, hchannel, ?_, fun next heq => ?_, hsent, fun next heq hstarted => ?_⟩
  · cases hcase : (stage.step works job.appId store channel).1 <;> rw [hcase] at hacts <;>
      exact hacts
  · obtain ⟨next, hcase, rfl⟩ := Option.map_eq_some_iff.mp heq
    exact hnext next hcase
  · obtain ⟨next, -, rfl⟩ := Option.map_eq_some_iff.mp heq
    cases hstarted

theorem holdsJob_finishItem {phase phase' : Phase} (h : store.HoldsJob job phase) {queueId : Int}
    (hqueue : job.queueId = some queueId) {status : QueueStatus}
    (htask : ∀ task, phase.task task → phase'.task task) (hitem : ∀ task, phase'.item task status) :
    (store.finishItem queueId status).HoldsJob job phase' := by
  have hholds := h.holds
  rw [hqueue] at hholds
  refine ⟨?_, h.release⟩
  rw [hqueue]
  exact hholds.finishItem htask hitem

/-- The item of a job that is running ends with the status of the deployment. -/
theorem acts_finishItem (hformed : store.Formed) {phase : Phase} (h : store.HoldsJob job phase) {queueId : Int}
    (hqueue : job.queueId = some queueId)
    (hrunning : ∀ task item, phase.item task item → item = .running) {status : QueueStatus}
    (hended : status.isLive = false) :
    store.Acts (store.finishItem queueId status) [job.taskId] [job.taskId] := by
  have hholds := h.holds
  rw [hqueue] at hholds
  obtain ⟨task, -, -, hstatuses⟩ := hholds.statuses
  exact hholds.acts_finishItem hformed (fun item hitem hname =>
    hrunning task item.status (hstatuses item hitem hname)) hended

/-- The task of a job is started or ends, its item stays as it is. -/
theorem acts_task (hformed : store.Formed) (guard : Task → Bool) {status : TaskStatus} (hstatus : status ≠ .queued) :
    store.Acts { store with tasks := updateAt store.tasks (·.id) job.taskId guard fun task =>
      { task with status } } [job.taskId] [job.taskId] where
  moves := ⟨some job.taskId, hformed.statement_task job.taskId guard hstatus, fun _ heq =>
    List.mem_singleton.mpr (Option.some.inj heq).symm⟩
  count _ := .inl le_rfl
  paired _ _ _ _ hheld _ := .inr hheld
  alone h := h

/-- Behind the end of the task the item ends, if the job has one. -/
theorem behindTask_moves {success : Bool} (hacts : store.Acts store' [job.taskId] [job.taskId])
    (h : store'.HoldsJob job .finishing) : (finishingTask success).Moves job store channel
      (behindTask job success, store', channel) [] := by
  have hrelease := h.release
  cases hqueue : job.queueId with
  | none =>
      have hunnamed : store'.Unnamed job.taskId := by
        have hholds := h.holds
        rw [hqueue] at hholds
        exact hholds.unnamed_of_none
      rw [behindTask, hqueue]
      refine .behind rfl success (hacts.leave fun taskId hheld => ?_)
      rw [List.mem_singleton.mp hheld]
      exact .inr hunnamed
  | some queueId =>
      rw [hqueue] at hrelease
      obtain ⟨releaseId, hsome⟩ := Option.isSome_iff_exists.mp hrelease.symm
      rw [behindTask, hqueue, hsome]
      exact .proceed rfl hacts ⟨h, hqueue⟩

/-- A live job has a running task. -/
theorem settled_of_running {phase : Phase} (h : store.HoldsJob job phase)
    (hrunning : ∀ task, phase.task task → task = .running) : store.Settled job.taskId := by
  obtain ⟨task, hstatus, hphase, -⟩ := h.holds.statuses
  exact .inl (.inr (hstatus.trans (congrArg some (hrunning task hphase))))

/-- Before anything is known to have gone wrong, a live job is one whose task may fail. -/
theorem failing_of_live (h : store.HoldsJob job .live) : store.HoldsJob job .failing :=
  h.weaken (fun _ heq => heq) fun _ _ _ => trivial

theorem finishing_of_live (h : store.HoldsJob job .live) : store.HoldsJob job .finishing :=
  h.weaken (fun task heq => by rw [show task = .running from heq]; nofun) fun _ _ heq => heq

/-- A statement of a job that fails. -/
theorem interrupt_moves (hformed : store.Formed) (howns : store.Works job stage)
    (hclear : stage.Clear store job false) :
    ∃ sent, stage.Moves job store channel (stage.interrupt job, store, channel) sent := by
  have hsame : store.Acts store [job.taskId] [job.taskId] := hformed.statement_none.acts _
  have hleave (hsettled : store.Settled job.taskId) : store.Acts store [job.taskId] [] :=
    hsame.leave fun taskId hheld => by rwa [List.mem_singleton.mp hheld]
  cases stage with
  | starting => exact ⟨[], .leave (hleave hclear)⟩
  | logging | failingTask =>
      exact ⟨[], .leave (hleave (settled_of_running howns fun _ heq => heq))⟩
  | preflight | deploying => exact ⟨[], .proceed rfl hsame howns⟩
  | lookingUp => exact ⟨[], .proceed rfl hsame (failing_of_live howns)⟩
  | failingItem queueId releaseId => exact ⟨[], .proceed rfl hsame (failing_of_live howns.1)⟩
  | failingRelease releaseId => exact ⟨[], .proceed rfl hsame howns⟩
  | finishingTask success => exact ⟨[], behindTask_moves hsame (finishing_of_live howns)⟩
  | finishingItem queueId releaseId success => exact ⟨[], .leave (hleave hclear)⟩
  | finishingRelease releaseId success =>
      have hunnamed := (Store.HoldsJob.holds howns).unnamed fun _ _ hidle => hidle
      exact ⟨[], .leave (hleave (.inr hunnamed))⟩
  | dispatching stage => exact dispatching_moves hformed howns false hclear

/-- A job whose task is queued is started. -/
theorem starting_moves (hformed : store.Formed) (howns : store.Works job .starting)
    (hqueued : store.taskStatus job.taskId = some .queued) :
    starting.Moves job store channel (some logging, store.markTaskRunning job.taskId, channel)
      [] where
  channel := (List.append_nil _).symm
  acts := acts_task hformed (·.status == .queued) nofun
  next next heq := by
    obtain ⟨task, hstatus, -, hitems⟩ := (Store.HoldsJob.holds howns).statuses
    rw [← Option.some.inj heq]
    refine Store.HoldsJob.task howns (Store.taskStatus_of_queued hqueued .running) rfl
      fun item hitem hname => (hitems item hitem hname).resolve_right fun hcanceled => ?_
    rw [hcanceled.1, hqueued] at hstatus
    cases hstatus
  sent := List.forall_mem_nil _
  started _ _ _ := .inr hqueued

/-- The item that a live job looks up is its own. -/
theorem lookingUp_moves (hformed : store.Formed) (howns : store.HoldsJob job .live) :
    lookingUp.Moves job store channel (some (match store.activeItemOf job.taskId with
      | some item => failingItem item.id item.releaseId
      | none => failingTask), store, channel) [] := by
  have hsame : store.Acts store [job.taskId] [job.taskId] := hformed.statement_none.acts _
  cases hactive : store.activeItemOf job.taskId with
  | none => exact .proceed rfl hsame (failing_of_live howns)
  | some item =>
      have hname := List.find?_some hactive
      simp only [Bool.and_eq_true, beq_iff_eq] at hname
      exact .proceed rfl hsame ⟨howns,
        (howns.holds.named item (List.mem_of_find?_eq_some hactive)).mp hname.1⟩

/-- A statement of a job that succeeds. -/
theorem advance_moves (hformed : store.Formed) (howns : store.Works job stage)
    (hclear : stage.Clear store job true) :
    ∃ sent, stage.Moves job store channel (stage.advance job store channel) sent := by
  have hsame : store.Acts store [job.taskId] [job.taskId] := hformed.statement_none.acts _
  have hrelease (releaseId : Int) (status : ReleaseStatus) :
      Store.Statement none store (store.setReleaseStatus releaseId status) :=
    hformed.statement_none.setReleaseStatus releaseId status
  cases stage with
  | starting =>
      refine ⟨[], ?_⟩
      simp only [advance]
      split_ifs with hqueued
      · exact starting_moves hformed howns hqueued
      · exact .leave (hsame.leave fun taskId hheld => by rwa [List.mem_singleton.mp hheld])
  | logging | preflight | deploying => exact ⟨[], .proceed rfl hsame howns⟩
  | lookingUp => exact ⟨[], lookingUp_moves hformed howns⟩
  | failingItem queueId releaseId =>
      exact ⟨[], .proceed rfl (acts_finishItem hformed howns.1 howns.2 (fun _ _ heq => heq) rfl)
        (holdsJob_finishItem howns.1 howns.2 (fun _ heq => heq) fun _ => trivial)⟩
  | failingRelease releaseId =>
      exact ⟨[], .proceed rfl ((hrelease releaseId .failed).acts _)
        (Store.HoldsJob.keep howns (hrelease releaseId .failed) (Option.some_ne_none _))⟩
  | failingTask =>
      have hended : TaskStatus.failed ≠ .queued := fun heq => by cases heq
      exact ⟨[], .leave (hformed.acts_finishTask hclear hended)⟩
  | finishingTask success =>
      have hstatus : (if success then TaskStatus.success else .failed) ≠ .queued := by
        cases success <;> exact fun heq => by cases heq
      obtain ⟨task, -, -, hitems⟩ := (Store.HoldsJob.holds howns).statuses
      refine ⟨[], behindTask_moves (acts_task hformed (fun _ => true) hstatus) ?_⟩
      exact Store.HoldsJob.task howns
        (Store.taskStatus_finishTask (Store.HoldsJob.holds howns).known_task) hstatus hitems
  | finishingItem queueId releaseId success =>
      have hended : (if success then QueueStatus.success else .failed).isLive = false := by
        cases success <;> rfl
      have hidle : (if success then QueueStatus.success else .failed) ≠ .running := by
        cases success <;> exact fun heq => by cases heq
      exact ⟨[], .proceed rfl (acts_finishItem hformed howns.1 howns.2 (fun _ _ heq => heq) hended)
        (holdsJob_finishItem howns.1 howns.2 (fun _ hne => hne) fun _ => hidle)⟩
  | finishingRelease releaseId success =>
      have hstatement := hrelease releaseId (if success then .deployed else .failed)
      have hholds := (Store.HoldsJob.holds howns).keep hstatement (Option.some_ne_none _)
      have hunnamed := hholds.unnamed fun _ _ hidle => hidle
      refine ⟨[], .behind rfl success ((hstatement.acts _).leave fun taskId hheld => ?_)⟩
      rw [List.mem_singleton.mp hheld]
      exact .inr hunnamed
  | dispatching stage => exact dispatching_moves hformed howns true hclear

/-- A step of the compose worker. -/
theorem step_moves (channel : List ComposeTaskJob) (hformed : store.Formed)
    (howns : store.Works job stage) {works : Bool}
    (hclear : stage.Clear store job works) :
    ∃ sent, stage.Moves job store channel (stage.step works job store channel) sent := by
  cases works with
  | false => exact interrupt_moves hformed howns hclear
  | true => exact advance_moves hformed howns hclear

end WorkStage

end EasyDeploy.ReleaseQueue
