import EasyDeploy.ReleaseQueue.RuntimeFiles
import EasyDeploy.ReleaseQueue.TaskExclusion

/-!
# Tasks deploy the configuration recorded for them

What a dispatch does to its seat and to the tasks, and the invariant of the runs
in which nobody writes the files of an application while a task deploys them or
while somebody else is writing them.
-/

namespace EasyDeploy.ReleaseQueue
open Foundation
open Foundation.Transition
open Orchestrator (TaskStatus)

/-- The later row of a task, which is not opened again. -/
structure Task.Continues (task task' : Task) : Prop where
  id : task'.id = task.id
  kind : task'.kind = task.kind
  appId : task'.appId = task.appId
  isOpen : task'.status.isOpen = true → task.status.isOpen = true

namespace Store

variable {store store' : Store}

theorem TasksKept.continues (h : store.TasksKept store') :
    ∀ task' ∈ store'.tasks, ∃ task ∈ store.tasks, task.Continues task' := by
  intro task' hmem
  cases h with
  | same h => exact ⟨task', h ▸ hmem, rfl, rfl, rfl, id⟩
  | updated h hopen =>
      obtain ⟨task, htask, rfl⟩ := mem_updateAt.mp (h ▸ hmem)
      refine ⟨task, htask, ?_⟩
      split
      · rename_i hwanted
        exact ⟨rfl, rfl, rfl, hopen task hwanted.2⟩
      · exact ⟨rfl, rfl, rfl, id⟩

theorem isSome_taskStatus_iff {taskId : Int} :
    (store.taskStatus taskId).isSome = true ↔ ∃ task ∈ store.tasks, task.id = taskId := by
  rw [taskStatus, Option.isSome_map, List.find?_isSome]
  simp only [beq_iff_eq]

/-- The rows after a task was created. -/
theorem mem_createTask {kind : TaskKind} {appId releaseId : Option Int} {taskId : Int}
    (h : store.createTask kind appId releaseId = .ok (taskId, store')) :
    (∀ task ∈ store.tasks, task.id ≠ taskId) ∧ ∀ task' ∈ store'.tasks,
      task' ∈ store.tasks ∨ task'.id = taskId ∧ task'.kind = kind ∧ task'.appId = appId := by
  simp only [createTask] at h
  split at h
  · cases h
  · obtain ⟨rfl, rfl⟩ := Prod.mk.inj (Except.ok.inj h)
    refine ⟨fun task htask => ne_of_lt (lt_nextId (List.mem_map_of_mem htask)), fun task' hmem => ?_⟩
    rcases List.mem_append.mp hmem with hmem | hmem
    · exact .inl hmem
    · obtain rfl := List.mem_singleton.mp hmem
      exact .inr ⟨rfl, rfl, rfl⟩

end Store

/-- A dispatch keeps the tasks or creates its own. -/
theorem DispatchStage.step_created (stage : DispatchStage) (works : Bool) (appId : Int)
    (store : Store) (channel : List ComposeTaskJob) :
    store.TasksKept (stage.step works appId store channel).2.1 ∨
    ∃ item taskId, stage = .creatingTask item ∧
      store.createTask .releaseDeploy (some appId) (some item.releaseId) =
        .ok (taskId, (stage.step works appId store channel).2.1) ∧
      (stage.step works appId store channel).1 = some (.marking item taskId) := by
  cases hcreates : works && stage.creates with
  | false => exact .inl (step_keeps hcreates appId store channel)
  | true =>
      obtain ⟨rfl, hstage⟩ := (Bool.and_eq_true _ _).mp hcreates
      cases stage with
      | creatingTask item =>
          simp only [step, if_true, advance]
          cases hcreate : store.createTask .releaseDeploy (some appId) (some item.releaseId) with
          | error error => exact .inl (.same rfl)
          | ok created => exact .inr ⟨item, created.1, rfl, hcreate, rfl⟩
      | _ => cases hstage

/-- How a dispatch comes to create its task, and from there to mark its item. -/
def DispatchStage.Enters (stage : DispatchStage) (works : Bool) (appId : Int)
    (store store' : Store) : DispatchStage → Prop
  | creatingTask item => stage = preparing item ∧ works = true
  | marking _ taskId => ∃ releaseId,
      store.createTask .releaseDeploy (some appId) releaseId = .ok (taskId, store')
  | _ => True

theorem DispatchStage.step_next {stage next : DispatchStage} {works : Bool} {appId : Int}
    {store : Store} {channel : List ComposeTaskJob}
    (h : (stage.step works appId store channel).1 = some next) :
    stage.Enters works appId store (stage.step works appId store channel).2.1 next := by
  cases works with
  | false =>
      simp only [step, Bool.false_eq_true, if_false] at h
      cases stage <;> cases h
      trivial
  | true =>
      simp only [step, if_true] at h ⊢
      cases stage with
      | creatingTask item =>
          simp only [advance] at h ⊢
          split at h
          · cases h
          · rename_i taskId created hcreate
            obtain rfl := Option.some.inj h
            exact ⟨some item.releaseId, by rw [hcreate]⟩
      | preparing item =>
          obtain rfl := Option.some.inj h
          exact ⟨rfl, rfl⟩
      | selecting | failingRelease =>
          obtain ⟨_, -, rfl⟩ := Option.map_eq_some_iff.mp h
          trivial
      | sending | failingTask => cases h
      | announcing | logging | failingItem =>
          obtain rfl := Option.some.inj h
          trivial
      | counting =>
          simp only [advance] at h
          split at h <;> cases h
          trivial
      | fetchingApp item =>
          simp only [advance] at h
          split at h <;> obtain rfl := Option.some.inj h <;> trivial
      | marking item taskId =>
          simp only [advance] at h
          split at h <;> obtain rfl := Option.some.inj h <;> trivial

/-- A step of the worker outside of its dispatches keeps the tasks, and may begin to dispatch. -/
theorem WorkStage.step_kept {stage : WorkStage} (hstage : ∀ next, stage ≠ .dispatching next)
    (works : Bool) (job : ComposeTaskJob) (store : Store) (channel : List ComposeTaskJob) :
    store.TasksKept (stage.step works job store channel).2.1 ∧
    ∀ next, (stage.step works job store channel).1 = some (.dispatching next) →
      next = .counting := by
  have hgoOn (success : Bool) (next : DispatchStage)
      (h : goOn success = some (.dispatching next)) : next = .counting := by
    cases success with
    | false => cases h
    | true => exact (WorkStage.dispatching.inj (Option.some.inj h)).symm
  have hbehind (success : Bool) (next : DispatchStage)
      (h : behindTask job success = some (.dispatching next)) : next = .counting := by
    unfold behindTask at h
    split at h
    · cases h
    · exact hgoOn success next h
  cases works with
  | false =>
      refine ⟨.same rfl, fun next h => ?_⟩
      simp only [step, Bool.false_eq_true, if_false] at h
      cases stage with
      | dispatching stage => exact absurd rfl (hstage stage)
      | finishingTask success => exact hbehind success next h
      | _ => cases h
  | true =>
      simp only [step, if_true]
      cases stage with
      | dispatching stage => exact absurd rfl (hstage stage)
      | starting =>
          simp only [advance]
          by_cases hqueued : store.taskStatus job.taskId = some .queued
          · rw [if_pos hqueued]
            exact ⟨Store.tasksKept_queued job.taskId .running, fun _ h => by cases h⟩
          · rw [if_neg hqueued]
            exact ⟨.same rfl, fun _ h => by cases h⟩
      | lookingUp =>
          refine ⟨.same rfl, fun next h => ?_⟩
          simp only [advance] at h
          split at h <;> cases h
      | failingTask => exact ⟨Store.tasksKept_finishTask rfl job.taskId, fun _ h => by cases h⟩
      | finishingTask success =>
          refine ⟨?_, hbehind success⟩
          cases success <;> exact Store.tasksKept_finishTask rfl job.taskId
      | finishingRelease releaseId success => exact ⟨.same rfl, hgoOn success⟩
      | _ => exact ⟨.same rfl, fun _ h => by cases h⟩

/-- The step of a seat. -/
def Seat.action : Seat → Bool → Action
  | .dispatcher, works => .dispatch works
  | .worker, works => .work works

/-- The steps that change what the dispatch worker or the compose worker is at. -/
def Action.movesWorkers : Action → Bool
  | startDispatch _ | dispatch _ | takeJob | work _ => true
  | _ => false

namespace World

variable {world world' : World} {action : Action}

/-- Requests leave the workers where they are. -/
theorem step_workers (h : world.step action = some world') (hother : action.movesWorkers = false) :
    world'.dispatcher = world.dispatcher ∧ world'.worker = world.worker := by
  cases action with
  | startDispatch | dispatch | takeJob | work => cases hother
  | readRelease releaseId scheduledPublishAt =>
      obtain ⟨_, -, rfl⟩ := Option.map_eq_some_iff.mp h
      exact ⟨rfl, rfl⟩
  | readItem queueId =>
      simp only [step] at h
      split at h
      · split at h
        · obtain rfl := Option.some.inj h
          exact ⟨rfl, rfl⟩
        · cases h
      · cases h
  | sendComposeTask job works =>
      simp only [step] at h
      split at h
      · split at h <;>
          · obtain rfl := Option.some.inj h
            exact ⟨rfl, rfl⟩
      · cases h
  | checkRelease | commitRelease | commitItem | cancelTask | commitTask | promoteItem
  | cancelScheduledRelease | createComposeTask =>
      simp only [step] at h
      split at h
      · obtain rfl := Option.some.inj h
        exact ⟨rfl, rfl⟩
      · cases h

/-- A step of the worker in a dispatch. -/
theorem step_work_dispatching {job : ComposeTaskJob} {stage : DispatchStage} {works : Bool}
    (h : world.step (.work works) = some world')
    (hwork : world.worker = some ⟨job, .dispatching stage⟩) :
    world.dispatchAt .worker = some ⟨job.appId, stage⟩ ∧
    world'.dispatchAt .worker =
      (stage.step works job.appId world.store world.channel).1.map (⟨job.appId, ·⟩) ∧
    world'.store = (stage.step works job.appId world.store world.channel).2.1 := by
  simp only [step, hwork, Option.map_some, Option.some.injEq] at h
  subst h
  refine ⟨by rw [dispatchAt, hwork]; rfl, ?_, by cases works <;> rfl⟩
  cases works with
  | false =>
      cases hinterrupt : stage.interrupt <;>
        simp [dispatchAt, WorkStage.step, WorkStage.interrupt, DispatchStage.step, hinterrupt]
  | true =>
      cases hadvance : (stage.advance job.appId world.store world.channel).1 <;>
        simp [dispatchAt, WorkStage.step, WorkStage.advance, DispatchStage.step, hadvance]

/-- A step leaves a seat where it is, lets it begin or leave a dispatch, or advances its
dispatch. -/
theorem step_seat (h : world.step action = some world') (seat : Seat) :
    world'.dispatchAt seat = world.dispatchAt seat ∨
    (∀ dispatch, world'.dispatchAt seat = some dispatch → dispatch.stage = .counting) ∨
    ∃ appId stage works, action = seat.action works ∧
      world.dispatchAt seat = some ⟨appId, stage⟩ ∧
      world'.dispatchAt seat =
        (stage.step works appId world.store world.channel).1.map (⟨appId, ·⟩) ∧
      world'.store = (stage.step works appId world.store world.channel).2.1 := by
  by_cases hother : action.movesWorkers = false
  · obtain ⟨hdispatcher, hworker⟩ := step_workers h hother
    refine .inl ?_
    cases seat with
    | dispatcher => exact hdispatcher
    | worker => rw [dispatchAt, dispatchAt, hworker]
  cases action with
  | startDispatch appId =>
      simp only [step] at h
      split at h
      · obtain rfl := Option.some.inj h
        cases seat with
        | dispatcher =>
            refine .inr (.inl fun dispatch hdispatch => ?_)
            rw [← Option.some.inj hdispatch]
        | worker => exact .inl rfl
      · cases h
  | takeJob =>
      simp only [step] at h
      split at h
      · obtain rfl := Option.some.inj h
        cases seat with
        | dispatcher => exact .inl rfl
        | worker => exact .inr (.inl fun _ hdispatch => by cases hdispatch)
      · cases h
  | dispatch works =>
      obtain ⟨⟨appId, stage⟩, hdispatch, rfl⟩ := Option.map_eq_some_iff.mp h
      cases seat with
      | dispatcher => exact .inr (.inr ⟨appId, stage, works, rfl, hdispatch, rfl, rfl⟩)
      | worker => exact .inl rfl
  | work works =>
      cases seat with
      | dispatcher =>
          obtain ⟨_, -, rfl⟩ := Option.map_eq_some_iff.mp h
          exact .inl rfl
      | worker =>
          obtain ⟨⟨job, stage⟩, hwork, hworld⟩ := Option.map_eq_some_iff.mp h
          by_cases hdispatching : ∀ next, stage ≠ .dispatching next
          · refine .inr (.inl fun dispatch hdispatch => ?_)
            obtain rfl := hworld
            obtain ⟨work, hstage, hdispatch⟩ := Option.bind_eq_some_iff.mp hdispatch
            obtain ⟨next, hnext, rfl⟩ := Option.map_eq_some_iff.mp hstage
            cases next with
            | dispatching next =>
                rw [← Option.some.inj hdispatch]
                exact (WorkStage.step_kept hdispatching works job _ _).2 next hnext
            | _ => cases hdispatch
          · obtain ⟨next, hnext⟩ := not_forall_not.mp hdispatching
            obtain rfl : stage = .dispatching next := hnext
            exact .inr (.inr ⟨job.appId, next, works, rfl, step_work_dispatching h hwork⟩)
  | _ => exact absurd rfl hother

/-- A task after a step was there before, or it is new and was created for a request or by a
dispatch. -/
theorem step_origin (h : world.step action = some world') {task' : Task}
    (hmem : task' ∈ world'.store.tasks) :
    (∃ task ∈ world.store.tasks, task.Continues task') ∨
    (∀ task ∈ world.store.tasks, task.id ≠ task'.id) ∧
      ((∃ appId, action = .createComposeTask task'.kind appId ∧ task'.appId = some appId) ∨
        ∃ seat appId item, world.dispatchAt seat = some ⟨appId, .creatingTask item⟩ ∧
          world'.dispatchAt seat = some ⟨appId, .marking item task'.id⟩ ∧
          task'.appId = some appId) := by
  have hkept (hkept : world.store.TasksKept world'.store) :
      ∃ task ∈ world.store.tasks, task.Continues task' := hkept.continues task' hmem
  have hdispatch (seat : Seat) (appId : Int) (stage : DispatchStage) (works : Bool)
      (hbefore : world.dispatchAt seat = some ⟨appId, stage⟩)
      (hafter : world'.dispatchAt seat =
        (stage.step works appId world.store world.channel).1.map (⟨appId, ·⟩))
      (hstore : world'.store = (stage.step works appId world.store world.channel).2.1) :
      (∃ task ∈ world.store.tasks, task.Continues task') ∨
      (∀ task ∈ world.store.tasks, task.id ≠ task'.id) ∧
        ∃ seat appId item, world.dispatchAt seat = some ⟨appId, .creatingTask item⟩ ∧
          world'.dispatchAt seat = some ⟨appId, .marking item task'.id⟩ ∧
          task'.appId = some appId := by
    rcases stage.step_created works appId world.store world.channel with
      hsame | ⟨item, taskId, rfl, hcreate, hmarking⟩
    · exact .inl (hkept (hstore ▸ hsame))
    · obtain ⟨hfresh, hrows⟩ := Store.mem_createTask hcreate
      rcases hrows task' (hstore ▸ hmem) with hold | ⟨rfl, -, happ⟩
      · exact .inl ⟨task', hold, rfl, rfl, rfl, id⟩
      · exact .inr ⟨hfresh, seat, appId, item, hbefore, by rw [hafter, hmarking]; rfl, happ⟩
  cases action with
  | createComposeTask kind appId =>
      simp only [step] at h
      split at h
      · rename_i taskId store hcreate
        obtain rfl := Option.some.inj h
        obtain ⟨hfresh, hrows⟩ := Store.mem_createTask hcreate
        rcases hrows task' hmem with hold | ⟨rfl, rfl, happ⟩
        · exact .inl ⟨task', hold, rfl, rfl, rfl, id⟩
        · exact .inr ⟨hfresh, .inl ⟨appId, rfl, happ⟩⟩
      · cases h
  | dispatch works =>
      obtain ⟨⟨appId, stage⟩, hbefore, rfl⟩ := Option.map_eq_some_iff.mp h
      exact (hdispatch .dispatcher appId stage works hbefore rfl rfl).imp_right
        fun hnew => ⟨hnew.1, .inr hnew.2⟩
  | work works =>
      obtain ⟨⟨job, stage⟩, hwork, hworld⟩ := Option.map_eq_some_iff.mp h
      by_cases hdispatching : ∀ next, stage ≠ .dispatching next
      · obtain rfl := hworld
        exact .inl (hkept (WorkStage.step_kept hdispatching works job _ _).1)
      · obtain ⟨next, hnext⟩ := not_forall_not.mp hdispatching
        obtain rfl : stage = .dispatching next := hnext
        obtain ⟨hbefore, hafter, hstore⟩ := step_work_dispatching h hwork
        exact (hdispatch .worker job.appId next works hbefore hafter hstore).imp_right
          fun hnew => ⟨hnew.1, .inr hnew.2⟩
  | _ => exact .inl (hkept (step_kept h rfl))

end World

/-- The submitted jobs are those from before, or one for a task that a request has created. -/
theorem World.step_submitting {world world' : World} {action : Action}
    (h : world.step action = some world') {job : ComposeTaskJob} (hjob : job ∈ world'.submitting) :
    job ∈ world.submitting ∨ ∃ kind, world.store.createTask kind (some job.appId) none =
      .ok (job.taskId, world'.store) := by
  cases action with
  | createComposeTask kind appId =>
      simp only [step] at h
      split at h
      · rename_i taskId store hcreate
        obtain rfl := Option.some.inj h
        rcases List.mem_append.mp hjob with hold | hnew
        · exact .inl hold
        · obtain rfl := List.mem_singleton.mp hnew
          exact .inr ⟨kind, hcreate⟩
      · cases h
  | sendComposeTask job' works =>
      simp only [step] at h
      split at h
      · split at h <;>
          · obtain rfl := Option.some.inj h
            exact .inl (List.mem_of_mem_erase hjob)
      · cases h
  | readRelease | dispatch | work =>
      obtain ⟨_, -, rfl⟩ := Option.map_eq_some_iff.mp h
      exact .inl hjob
  | readItem queueId =>
      simp only [step] at h
      split at h
      · split at h
        · obtain rfl := Option.some.inj h
          exact .inl hjob
        · cases h
      · cases h
  | checkRelease | commitRelease | commitItem | cancelTask | commitTask | promoteItem
  | cancelScheduledRelease | startDispatch | takeJob =>
      simp only [step] at h
      split at h
      · obtain rfl := Option.some.inj h
        exact .inl hjob
      · cases h

/-- An open task of the application that deploys its files. -/
structure World.Deploys (world : World) (appId : Int) (task : Task) : Prop where
  mem : task ∈ world.store.tasks
  app : task.appId = some appId
  kind : task.kind.deploysFiles = true
  isOpen : task.status.isOpen = true

namespace RuntimeSite

section Conditions

variable (site : RuntimeSite)

/-- A dispatch has begun to write the files of the application and has not created its task. -/
def Begun (seat : Seat) (appId : Int) : Prop :=
  ∃ item, site.world.dispatchAt seat = some ⟨appId, .creatingTask item⟩ ∨
    site.world.dispatchAt seat = some ⟨appId, .preparing item⟩ ∧
      site.remaining seat ≠ RuntimeFile.all

/-- Files are written while no open task deploys them and nobody else is writing them, and a task
for them is requested when they are those of the latest snapshot. -/
def Careful : RuntimeAction → Prop
  | .writeFile seat => ∀ dispatch, site.world.dispatchAt seat = some dispatch →
      (∀ task, ¬ site.world.Deploys dispatch.appId task) ∧
      (∀ other, other ≠ seat → ¬ site.Begun other dispatch.appId) ∧
      ∀ call ∈ site.updating, call.appId = dispatch.appId → call.remaining = RuntimeFile.all
  | .writeUpdate call =>
      (∀ task, ¬ site.world.Deploys call.appId task) ∧ (∀ seat, ¬ site.Begun seat call.appId) ∧
      ∀ other ∈ site.updating.erase call, other.appId = call.appId →
        other.remaining = RuntimeFile.all
  | .world (.createComposeTask kind appId) => kind.deploysFiles = true →
      ∀ snapshot, site.latestConfigSnapshot appId = some snapshot →
        (site.files appId).Holds snapshot.content
  | _ => True

/-- What holds between the steps of careful runs. -/
structure Sound : Prop where
  prepared : ∀ seat appId item, site.world.dispatchAt seat = some ⟨appId, .preparing item⟩ →
    site.remaining seat ≠ RuntimeFile.all → ∃ snapshot, site.snapshotOf appId item = some snapshot ∧
      ∀ file, file ∉ site.remaining seat → (site.files appId).HoldsAt snapshot.content file
  ready : ∀ seat appId item, site.world.dispatchAt seat = some ⟨appId, .creatingTask item⟩ →
    ∃ snapshot, site.snapshotOf appId item = some snapshot ∧
      (site.files appId).Holds snapshot.content
  updates : ∀ call ∈ site.updating, ∀ file, file ∉ call.remaining →
    (site.files call.appId).HoldsAt call.content file
  tasks : ∀ appId task, site.world.Deploys appId task → ∀ snapshot,
    site.recorded task.id = some (some snapshot) ∨
      site.recorded task.id = none ∧ site.latestConfigSnapshot appId = some snapshot →
    (site.files appId).Holds snapshot.content
  known : ∀ entry ∈ site.bound, (site.world.store.taskStatus entry.1).isSome = true
  submitted : ∀ job ∈ site.world.submitting,
    ∀ task ∈ site.world.store.tasks, task.id = job.taskId → task.appId = some job.appId
  submittedKnown : ∀ job ∈ site.world.submitting,
    (site.world.store.taskStatus job.taskId).isSome = true

end Conditions

variable {site site' : RuntimeSite}

/-- Where no open task deploys the files that change, what the tasks know stays. -/
theorem Sound.tasks_of_write (h : site.Sound) {appId : Int} {content : RuntimeFiles}
    (hidle : ∀ task, ¬ site.world.Deploys appId task) {other : Int} {task : Task}
    (htask : site.world.Deploys other task) {snapshot : ConfigSnapshot}
    (hbound : site.recorded task.id = some (some snapshot) ∨
      site.recorded task.id = none ∧ site.latestConfigSnapshot other = some snapshot) :
    (Function.update site.files appId content other).Holds snapshot.content := by
  have hne : other ≠ appId := fun heq => hidle task (heq ▸ htask)
  rw [Function.update_of_ne hne]
  exact h.tasks other task htask snapshot hbound

/-- One more file is that of the content. -/
theorem holdsAt_write {files content : RuntimeFiles} {file other : RuntimeFile}
    (h : other ≠ file → files.HoldsAt content other) :
    (files.write file content).HoldsAt content other := by
  by_cases heq : other = file
  · subst heq
    rw [RuntimeFiles.HoldsAt, RuntimeFiles.get_write, RuntimeFile.effective_effective]
  · rw [RuntimeFiles.HoldsAt, RuntimeFiles.get_write_of_ne _ _ heq]
    exact h heq

theorem Sound.writeFile (h : site.Sound) {seat : Seat} (hcareful : site.Careful (.writeFile seat))
    (hstep : site.step (.writeFile seat) = some site') : site'.Sound := by
  simp only [step] at hstep
  split at hstep
  · rename_i appId item file rest hdispatch hremaining
    obtain ⟨snapshot, hsnapshot, rfl⟩ := Option.map_eq_some_iff.mp hstep
    obtain ⟨hidle, hseats, hcalls⟩ := hcareful _ hdispatch
    refine ⟨fun other appId' item' hother hbegun => ?_, fun other appId' item' hother => ?_,
      fun call hcall file' hfile => ?_, fun appId' task htask snapshot' hbound =>
        h.tasks_of_write hidle htask hbound, h.known, h.submitted, h.submittedKnown⟩
    · by_cases hseat : other = seat
      · subst hseat
        obtain ⟨rfl, rfl⟩ : appId = appId' ∧ item = item' := by
          simpa using hdispatch.symm.trans hother
        refine ⟨snapshot, hsnapshot, fun file' hfile => ?_⟩
        simp only [Function.update_self] at hfile ⊢
        refine holdsAt_write fun hne => ?_
        have hunwritten : file' ∉ site.remaining other := by
          rw [hremaining]
          exact fun hmem => (List.mem_cons.mp hmem).elim hne hfile
        obtain ⟨old, hold, hholds⟩ := h.prepared other appId item hdispatch
          fun hall => hunwritten (hall ▸ file'.mem_all)
        obtain rfl : old = snapshot := Option.some.inj (hold.symm.trans hsnapshot)
        exact hholds file' hunwritten
      · simp only [Function.update_of_ne hseat] at hbegun ⊢
        have hne : appId' ≠ appId := fun heq =>
          hseats other hseat ⟨item', .inr ⟨heq ▸ hother, hbegun⟩⟩
        rw [Function.update_of_ne hne]
        exact h.prepared other appId' item' hother hbegun
    · have hseat : other ≠ seat := by
        rintro rfl
        cases hdispatch.symm.trans hother
      have hne : appId' ≠ appId := fun heq => hseats other hseat ⟨item', .inl (heq ▸ hother)⟩
      simp only [Function.update_of_ne hne]
      exact h.ready other appId' item' hother
    · have hne : call.appId ≠ appId := fun heq => hfile (hcalls call hcall heq ▸ file'.mem_all)
      simp only [Function.update_of_ne hne]
      exact h.updates call hcall file' hfile
  · cases hstep

theorem Sound.writeUpdate (h : site.Sound) {call : Updating}
    (hcareful : site.Careful (.writeUpdate call))
    (hstep : site.step (.writeUpdate call) = some site') : site'.Sound := by
  simp only [step] at hstep
  split at hstep
  · rename_i hcall
    split at hstep
    · rename_i file rest hremaining
      obtain rfl := Option.some.inj hstep
      obtain ⟨hidle, hseats, hcalls⟩ := hcareful
      refine ⟨fun seat appId item hdispatch hbegun => ?_, fun seat appId item hdispatch => ?_,
        fun other hother file' hfile => ?_, fun appId task htask snapshot hbound =>
          h.tasks_of_write hidle htask hbound, h.known, h.submitted, h.submittedKnown⟩
      · have hne : appId ≠ call.appId := fun heq =>
          hseats seat ⟨item, .inr ⟨heq ▸ hdispatch, hbegun⟩⟩
        simp only [Function.update_of_ne hne]
        exact h.prepared seat appId item hdispatch hbegun
      · have hne : appId ≠ call.appId := fun heq => hseats seat ⟨item, .inl (heq ▸ hdispatch)⟩
        simp only [Function.update_of_ne hne]
        exact h.ready seat appId item hdispatch
      · rcases List.mem_cons.mp hother with rfl | hother
        · simp only [Function.update_self]
          refine holdsAt_write fun hne => h.updates call hcall file' ?_
          rw [hremaining]
          exact fun hmem => (List.mem_cons.mp hmem).elim hne hfile
        · have hne : other.appId ≠ call.appId := fun heq =>
            hfile (hcalls other hother heq ▸ file'.mem_all)
          simp only [Function.update_of_ne hne]
          exact h.updates other (List.mem_of_mem_erase hother) file' hfile
    · cases hstep
  · cases hstep

theorem snapshotOf_addSnapshot {appId other : Int} {content : RuntimeFiles} {item : QueueItem}
    {snapshot : ConfigSnapshot} (h : site.snapshotOf appId item = some snapshot) :
    { site with snapshots := site.addSnapshot other content }.snapshotOf appId item =
      some snapshot := by
  obtain ⟨snapshotId, hid, hfind⟩ := Option.bind_eq_some_iff.mp h
  rw [snapshotOf, hid, Option.bind_some, addSnapshot, List.find?_append, hfind, Option.some_or]

/-- The latest snapshot is the one that was added, or the latest from before. -/
theorem latest_addSnapshot {appId other : Int} {content : RuntimeFiles} {snapshot : ConfigSnapshot}
    (h : { site with snapshots := site.addSnapshot other content }.latestConfigSnapshot appId =
      some snapshot) :
    site.latestConfigSnapshot appId = some snapshot ∨
      appId = other ∧ snapshot.content = content := by
  rw [latestConfigSnapshot, addSnapshot, List.filter_append, List.filter_singleton] at h
  cases happ : other == appId with
  | false =>
      rw [happ, cond_false, List.append_nil] at h
      exact .inl h
  | true =>
      rw [happ, cond_true, List.argmax_concat] at h
      cases hlatest : site.latestConfigSnapshot appId with
      | none =>
          rw [latestConfigSnapshot] at hlatest
          rw [hlatest] at h
          obtain rfl := Option.some.inj h
          exact .inr ⟨(beq_iff_eq.mp happ).symm, rfl⟩
      | some latest =>
          rw [latestConfigSnapshot] at hlatest
          rw [hlatest] at h
          dsimp only at h
          split at h
          · obtain rfl := Option.some.inj h
            exact .inr ⟨(beq_iff_eq.mp happ).symm, rfl⟩
          · exact .inl h

/-- A snapshot is added that has the files of its application. -/
theorem Sound.addSnapshot (h : site.Sound) {appId : Int} {content : RuntimeFiles}
    (hholds : (site.files appId).Holds content) :
    { site with snapshots := site.addSnapshot appId content }.Sound := by
  refine ⟨fun seat other item hdispatch hbegun => ?_, fun seat other item hdispatch => ?_,
    h.updates, fun other task htask snapshot hbound => ?_, h.known, h.submitted, h.submittedKnown⟩
  · obtain ⟨snapshot, hsnapshot, hfiles⟩ := h.prepared seat other item hdispatch hbegun
    exact ⟨snapshot, snapshotOf_addSnapshot hsnapshot, hfiles⟩
  · obtain ⟨snapshot, hsnapshot, hfiles⟩ := h.ready seat other item hdispatch
    exact ⟨snapshot, snapshotOf_addSnapshot hsnapshot, hfiles⟩
  · rcases hbound with hbound | ⟨hnone, hlatest⟩
    · exact h.tasks other task htask snapshot (.inl hbound)
    · rcases latest_addSnapshot hlatest with hlatest | ⟨rfl, rfl⟩
      · exact h.tasks other task htask snapshot (.inr ⟨hnone, hlatest⟩)
      · exact hholds

/-- What a dispatch records belongs to the task that it has created. -/
theorem mem_created {world' : World} {seat : Seat} {entry : Int × Option ConfigSnapshot}
    (h : entry ∈ site.created world' seat) : ∃ appId item,
      site.world.dispatchAt seat = some ⟨appId, .creatingTask item⟩ ∧
      (∃ other item', world'.dispatchAt seat = some ⟨other, .marking item' entry.1⟩) ∧
      entry.2 = site.snapshotOf appId item := by
  unfold created at h
  split at h
  · rename_i appId item other item' taskId hbefore hafter
    obtain rfl := List.mem_singleton.mp h
    exact ⟨appId, item, hbefore, ⟨other, item', hafter⟩, rfl⟩
  · cases h

/-- A step that lets a seat create a task is a step of that seat, and the task is new. -/
theorem step_creating {world world' : World} {action : Action}
    (h : world.step action = some world') {seat : Seat} {appId other : Int} {item item' : QueueItem}
    {taskId : Int} (hbefore : world.dispatchAt seat = some ⟨appId, .creatingTask item⟩)
    (hafter : world'.dispatchAt seat = some ⟨other, .marking item' taskId⟩) :
    (∃ works, action = seat.action works) ∧ world.store.taskStatus taskId = none ∧
      (world'.store.taskStatus taskId).isSome = true := by
  rcases World.step_seat h seat with hsame | hcounting | ⟨_, stage, works, haction, hstage, hmoved,
    hstore⟩
  · rw [hsame, hbefore] at hafter
    cases hafter
  · cases hcounting _ hafter
  · obtain ⟨rfl, rfl⟩ : appId = _ ∧ _ = stage := by simpa using hbefore.symm.trans hstage
    refine ⟨⟨works, haction⟩, ?_⟩
    rw [hmoved] at hafter
    obtain ⟨next, hnext, hdispatch⟩ := Option.map_eq_some_iff.mp hafter
    obtain rfl : next = .marking item' taskId := congrArg Dispatch.stage hdispatch
    obtain ⟨releaseId, hcreate⟩ := DispatchStage.step_next hnext
    obtain ⟨-, hfresh, hqueued, -⟩ := Store.createTask_eq_ok hcreate
    rw [hstore, hqueued]
    exact ⟨hfresh, rfl⟩

/-- A seat is ready to create its task when it has written all files. -/
theorem Sound.ready_of_step (h : site.Sound) {world' : World} {action : Action}
    (hadmits : site.admits action = true) (hworld : site.world.step action = some world')
    {seat : Seat} {appId : Int} {item : QueueItem}
    (hafter : world'.dispatchAt seat = some ⟨appId, .creatingTask item⟩) :
    ∃ snapshot, site.snapshotOf appId item = some snapshot ∧
      (site.files appId).Holds snapshot.content := by
  rcases World.step_seat hworld seat with hsame | hcounting | ⟨_, stage, works, rfl, hbefore, hmoved, -⟩
  · exact h.ready seat appId item (hsame ▸ hafter)
  · cases hcounting _ hafter
  · rw [hmoved] at hafter
    obtain ⟨next, hnext, hdispatch⟩ := Option.map_eq_some_iff.mp hafter
    obtain rfl : next = .creatingTask item := congrArg Dispatch.stage hdispatch
    obtain rfl : _ = appId := congrArg Dispatch.appId hdispatch
    obtain ⟨rfl, rfl⟩ := DispatchStage.step_next hnext
    have hwritten : site.remaining seat = [] := by
      cases seat <;> simpa only [admits, Seat.action, hbefore, List.isEmpty_iff] using hadmits
    obtain ⟨snapshot, hsnapshot, hholds⟩ := h.prepared seat _ item hbefore
      (by rw [hwritten]; exact (List.cons_ne_nil _ _).symm)
    exact ⟨snapshot, hsnapshot, fun file => hholds file (by rw [hwritten]; exact List.not_mem_nil)⟩

/-- What a step records belongs to the task that a seat has created in it. -/
theorem mem_created_step {world' : World} {action : Action}
    (hworld : site.world.step action = some world') {entry : Int × Option ConfigSnapshot}
    (hentry : entry ∈ site.created world' .dispatcher ++ site.created world' .worker) :
    site.world.store.taskStatus entry.1 = none ∧ (world'.store.taskStatus entry.1).isSome = true ∧
      ∃ seat appId item works, action = seat.action works ∧
        site.world.dispatchAt seat = some ⟨appId, .creatingTask item⟩ ∧
        entry.2 = site.snapshotOf appId item := by
  obtain ⟨seat, hmem⟩ : ∃ seat, entry ∈ site.created world' seat :=
    (List.mem_append.mp hentry).elim (⟨_, ·⟩) (⟨_, ·⟩)
  obtain ⟨appId, item, hbefore, ⟨other, item', hafter⟩, hsnapshot⟩ := mem_created hmem
  obtain ⟨⟨works, haction⟩, hfresh, hknown⟩ := step_creating hworld hbefore hafter
  exact ⟨hfresh, hknown, seat, appId, item, works, haction, hbefore, hsnapshot⟩

/-- What is recorded for the tasks from before stays. -/
theorem recorded_step {world' : World} {action : Action}
    (hworld : site.world.step action = some world') {taskId : Int}
    (hknown : (site.world.store.taskStatus taskId).isSome = true) :
    ((site.created world' .dispatcher ++ site.created world' .worker ++ site.bound).find?
      fun entry => entry.1 == taskId).map (·.2) = site.recorded taskId := by
  have hnone : (site.created world' .dispatcher ++ site.created world' .worker).find?
      (fun entry => entry.1 == taskId) = none := by
    refine List.find?_eq_none.mpr fun entry hentry heq => ?_
    rw [← beq_iff_eq.mp heq, (mem_created_step hworld hentry).1] at hknown
    cases hknown
  rw [recorded, List.find?_append, hnone, Option.none_or]

/-- What is recorded for a new task is the snapshot of its dispatch. -/
theorem recorded_new (h : site.Sound) {world' : World} {action : Action}
    (hworld : site.world.step action = some world') {taskId : Int}
    (hfresh : ∀ task ∈ site.world.store.tasks, task.id ≠ taskId) {recorded : Option ConfigSnapshot}
    (hrecorded : ((site.created world' .dispatcher ++ site.created world' .worker ++ site.bound).find?
      fun entry => entry.1 == taskId).map (·.2) = some recorded) :
    ∃ seat appId item works, action = seat.action works ∧
      site.world.dispatchAt seat = some ⟨appId, .creatingTask item⟩ ∧
      recorded = site.snapshotOf appId item := by
  obtain ⟨entry, hfind, rfl⟩ := Option.map_eq_some_iff.mp hrecorded
  obtain rfl : entry.1 = taskId := by simpa using List.find?_some hfind
  rcases List.mem_append.mp (List.mem_of_find?_eq_some hfind) with hnew | hold
  · exact (mem_created_step hworld hnew).2.2
  · obtain ⟨task, htask, hid⟩ := Store.isSome_taskStatus_iff.mp (h.known entry hold)
    exact absurd hid (hfresh task htask)

/-- What a deploying task is to deploy, after a step of the queue. -/
theorem Sound.tasks_of_step (h : site.Sound) {action : Action}
    (hcareful : site.Careful (.world action)) {world' : World}
    (hworld : site.world.step action = some world') {appId : Int} {task : Task}
    (htask : world'.Deploys appId task) {snapshot : ConfigSnapshot}
    (hbound : ((site.created world' .dispatcher ++ site.created world' .worker ++ site.bound).find?
        fun entry => entry.1 == task.id).map (·.2) = some (some snapshot) ∨
      ((site.created world' .dispatcher ++ site.created world' .worker ++ site.bound).find?
        fun entry => entry.1 == task.id).map (·.2) = none ∧
        site.latestConfigSnapshot appId = some snapshot) :
    (site.files appId).Holds snapshot.content := by
  rcases World.step_origin hworld htask.mem with
    ⟨old, hold, hcontinues⟩ | ⟨hfresh, ⟨_, rfl, happ⟩ | ⟨seat, other, item, hbefore, hafter, happ⟩⟩
  · have hdeploys : site.world.Deploys appId old :=
      ⟨hold, hcontinues.appId.symm.trans htask.app, hcontinues.kind ▸ htask.kind,
        hcontinues.isOpen htask.isOpen⟩
    rw [recorded_step hworld
      (Store.isSome_taskStatus_iff.mpr ⟨old, hold, hcontinues.id.symm⟩), hcontinues.id] at hbound
    exact h.tasks appId old hdeploys snapshot hbound
  · obtain rfl : _ = appId := Option.some.inj (happ.symm.trans htask.app)
    rcases hbound with hrecorded | ⟨-, hlatest⟩
    · obtain ⟨seat, _, _, works, haction, -⟩ := recorded_new h hworld hfresh hrecorded
      cases seat <;> cases haction
    · exact hcareful htask.kind snapshot hlatest
  · obtain rfl : appId = other := Option.some.inj (htask.app.symm.trans happ)
    obtain ⟨⟨works, rfl⟩, -⟩ := step_creating hworld hbefore hafter
    obtain ⟨ready, hready, hholds⟩ := h.ready seat appId item hbefore
    rcases hbound with hrecorded | ⟨hnone, -⟩
    · obtain ⟨seat', appId', item', works', haction, hbefore', hsnapshot⟩ :=
        recorded_new h hworld hfresh hrecorded
      obtain rfl : seat' = seat := by cases seat' <;> cases seat <;> first | rfl | cases haction
      obtain ⟨rfl, rfl⟩ : appId = appId' ∧ item = item' := by
        simpa using hbefore.symm.trans hbefore'
      obtain rfl := Option.some.inj (hsnapshot.trans hready)
      exact hholds
    · have hentry : (task.id, site.snapshotOf appId item) ∈ site.created world' seat := by
        rw [created, hbefore, hafter]
        exact List.mem_singleton_self _
      have hmem : (task.id, site.snapshotOf appId item) ∈
          site.created world' .dispatcher ++ site.created world' .worker ++ site.bound := by
        cases seat <;> simp [hentry]
      exact absurd (beq_self_eq_true task.id)
        (List.find?_eq_none.mp (Option.map_eq_none_iff.mp hnone) _ hmem)

theorem Sound.world (h : site.Sound) {action : Action} (hcareful : site.Careful (.world action))
    (hstep : site.step (.world action) = some site') : site'.Sound := by
  simp only [step] at hstep
  split at hstep
  · rename_i hadmits
    obtain ⟨world', hworld, rfl⟩ := Option.map_eq_some_iff.mp hstep
    have hmoves := World.step_tasks hworld
    refine ⟨fun seat appId item hafter hbegun => ?_, fun seat appId item hafter =>
      h.ready_of_step hadmits hworld hafter, h.updates, fun appId task htask snapshot hbound => ?_,
      fun entry hentry => ?_, fun job hjob task htask hid => ?_, fun job hjob => ?_⟩
    · simp only [remainingAfter] at hbegun ⊢
      split at hbegun
      · rename_i hsame
        rw [if_pos hsame]
        exact h.prepared seat appId item (hsame ▸ hafter) hbegun
      · exact absurd rfl hbegun
    · exact h.tasks_of_step hcareful hworld htask hbound
    · rcases List.mem_append.mp hentry with hnew | hold
      · exact (mem_created_step hworld hnew).2.1
      · exact hmoves.known (h.known entry hold)
    · rcases World.step_submitting hworld hjob with hold | ⟨kind, hcreate⟩
      · rcases World.step_origin hworld htask with ⟨old, hmem, hcontinues⟩ | ⟨hfresh, -⟩
        · exact hcontinues.appId.trans (h.submitted job hold old hmem (hcontinues.id.symm.trans hid))
        · obtain ⟨old, hmem, hold⟩ := Store.isSome_taskStatus_iff.mp (h.submittedKnown job hold)
          exact absurd (hold.trans hid.symm) (hfresh old hmem)
      · obtain ⟨hfresh, hrows⟩ := Store.mem_createTask hcreate
        rcases hrows task htask with hmem | ⟨-, -, happ⟩
        · exact absurd hid (hfresh task hmem)
        · exact happ
    · rcases World.step_submitting hworld hjob with hold | ⟨kind, hcreate⟩
      · exact hmoves.known (h.submittedKnown job hold)
      · rw [(Store.createTask_eq_ok hcreate).2.2.1]
        rfl
  · cases hstep

theorem Sound.recordSnapshot (h : site.Sound) {job : ComposeTaskJob}
    (hstep : site.step (.recordSnapshot job) = some site') : site'.Sound := by
  simp only [step] at hstep
  split at hstep
  · rename_i hjob
    obtain rfl := Option.some.inj hstep
    refine ⟨h.prepared, h.ready, h.updates, fun appId task htask snapshot hbound => ?_,
      fun entry hentry => ?_, h.submitted, h.submittedKnown⟩
    · by_cases hid : job.taskId = task.id
      · simp only [recorded, List.find?_cons, hid, beq_self_eq_true, Option.map_some,
          Option.some.injEq, reduceCtorEq, false_and, or_false] at hbound
        have happ := h.submitted job hjob.1 task htask.mem hid.symm
        obtain rfl : appId = job.appId := Option.some.inj (htask.app.symm.trans happ)
        exact h.tasks _ task htask snapshot (.inr ⟨hid ▸ hjob.2, hbound⟩)
      · have hother : (job.taskId == task.id) = false := beq_eq_false_iff_ne.mpr hid
        simp only [recorded, List.find?_cons, hother] at hbound
        exact h.tasks appId task htask snapshot hbound
    · rcases List.mem_cons.mp hentry with rfl | hold
      · exact h.submittedKnown job hjob.1
      · exact h.known entry hold
  · cases hstep

theorem Sound.step (h : site.Sound) {action : RuntimeAction} (hcareful : site.Careful action)
    (hstep : site.step action = some site') : site'.Sound := by
  cases action with
  | world action => exact h.world hcareful hstep
  | writeFile seat => exact h.writeFile hcareful hstep
  | writeUpdate call => exact h.writeUpdate hcareful hstep
  | recordSnapshot job => exact h.recordSnapshot hstep
  | startUpdate appId content =>
      simp only [RuntimeSite.step] at hstep
      split at hstep
      · cases hstep
      · obtain rfl := Option.some.inj hstep
        refine ⟨h.prepared, h.ready, fun call hcall file hfile => ?_, h.tasks, h.known,
          h.submitted, h.submittedKnown⟩
        rcases List.mem_append.mp hcall with hold | hnew
        · exact h.updates call hold file hfile
        · obtain rfl := List.mem_singleton.mp hnew
          exact absurd file.mem_all hfile
  | storeUpdate call =>
      simp only [RuntimeSite.step] at hstep
      split at hstep
      · rename_i hcall
        obtain rfl := Option.some.inj hstep
        have hholds : (site.files call.appId).Holds call.content := fun file =>
          h.updates call hcall.1 file (by rw [hcall.2]; exact List.not_mem_nil)
        have hadded := h.addSnapshot hholds
        exact ⟨hadded.prepared, hadded.ready,
          fun other hother => h.updates other (List.mem_of_mem_erase hother), hadded.tasks, h.known,
          h.submitted, h.submittedKnown⟩
      · cases hstep
  | abandonUpdate call =>
      simp only [RuntimeSite.step] at hstep
      split at hstep
      · obtain rfl := Option.some.inj hstep
        exact ⟨h.prepared, h.ready, fun other hother => h.updates other
          (List.mem_of_mem_erase hother), h.tasks, h.known, h.submitted, h.submittedKnown⟩
      · cases hstep
  | recordDeploySnapshot =>
      simp only [RuntimeSite.step] at hstep
      split at hstep
      · obtain rfl := Option.some.inj hstep
        exact h.addSnapshot (site.files _).holds_self
      · cases hstep

theorem Initial.sound (h : site.Initial) : site.Sound := by
  obtain ⟨⟨-, hdispatcher, hworker, -, -, -, hsubmitting, -⟩, hupdating, hbound, hclosed⟩ := h
  have hidle (seat : Seat) : site.world.dispatchAt seat = none := by
    cases seat with
    | dispatcher => exact hdispatcher
    | worker => rw [World.dispatchAt, hworker, Option.bind_none]
  refine ⟨fun seat appId item hdispatch => ?_, fun seat appId item hdispatch => ?_, ?_,
    fun appId task htask => ?_, ?_, ?_, ?_⟩
  · cases (hidle seat).symm.trans hdispatch
  · cases (hidle seat).symm.trans hdispatch
  · rw [hupdating]
    exact fun call hcall => absurd hcall List.not_mem_nil
  · have hopen := htask.isOpen
    rw [hclosed task htask.mem htask.kind] at hopen
    cases hopen
  · rw [hbound]
    exact fun entry hentry => absurd hentry List.not_mem_nil
  · rw [hsubmitting]
    exact fun job hjob => absurd hjob List.not_mem_nil
  · rw [hsubmitting]
    exact fun job hjob => absurd hjob List.not_mem_nil

theorem sound_of_reached (h : deployment.Reached Careful site) : site.Sound :=
  h.invariant (fun _ hinitial => Initial.sound hinitial)
    fun _ _ _ _ hcareful hsound hstep => hsound.step hcareful hstep

/-- Careful steps leave the files alone that an open task deploys. -/
theorem files_of_step {action : RuntimeAction} (hcareful : site.Careful action)
    (hstep : site.step action = some site') {appId : Int} {task : Task}
    (htask : site.world.Deploys appId task) : site'.files appId = site.files appId := by
  cases action with
  | writeFile seat =>
      simp only [RuntimeSite.step] at hstep
      split at hstep
      · rename_i other item file rest hdispatch hremaining
        obtain ⟨snapshot, -, rfl⟩ := Option.map_eq_some_iff.mp hstep
        have hne : appId ≠ other := fun heq => (hcareful _ hdispatch).1 task (heq ▸ htask)
        exact Function.update_of_ne hne _ _
      · cases hstep
  | writeUpdate call =>
      simp only [RuntimeSite.step] at hstep
      split at hstep
      · split at hstep
        · obtain rfl := Option.some.inj hstep
          have hne : appId ≠ call.appId := fun heq => hcareful.1 task (heq ▸ htask)
          exact Function.update_of_ne hne _ _
        · cases hstep
      · cases hstep
  | world action =>
      simp only [RuntimeSite.step] at hstep
      split at hstep
      · obtain ⟨_, -, rfl⟩ := Option.map_eq_some_iff.mp hstep
        rfl
      · cases hstep
  | startUpdate | storeUpdate | abandonUpdate | recordSnapshot | recordDeploySnapshot =>
      simp only [RuntimeSite.step] at hstep
      split at hstep <;> cases hstep
      rfl

/-- A step of the system steps the queue or leaves it alone. -/
theorem world_of_step {action : RuntimeAction} (hstep : site.step action = some site') :
    site'.world = site.world ∨ ∃ queued, site.world.step queued = some site'.world := by
  cases action with
  | world action =>
      simp only [RuntimeSite.step] at hstep
      split at hstep
      · obtain ⟨_, hworld, rfl⟩ := Option.map_eq_some_iff.mp hstep
        exact .inr ⟨action, hworld⟩
      · cases hstep
  | writeFile seat =>
      simp only [RuntimeSite.step] at hstep
      split at hstep
      · obtain ⟨_, -, rfl⟩ := Option.map_eq_some_iff.mp hstep
        exact .inl rfl
      · cases hstep
  | writeUpdate call =>
      simp only [RuntimeSite.step] at hstep
      split at hstep
      · split at hstep
        · obtain rfl := Option.some.inj hstep
          exact .inl rfl
        · cases hstep
      · cases hstep
  | startUpdate | storeUpdate | abandonUpdate | recordSnapshot | recordDeploySnapshot =>
      simp only [RuntimeSite.step] at hstep
      split at hstep <;> cases hstep
      exact .inl rfl

/-- While a task is open that deploys the files of its application, they stay as they are. -/
theorem files_of_later {later : RuntimeSite}
    (h : (deployment.startingAt site).Reached Careful later) {appId : Int} {task task' : Task}
    (htask : site.world.Deploys appId task) (htask' : later.world.Deploys appId task')
    (hid : task'.id = task.id) : later.files appId = site.files appId := by
  have hrun : (later.world.store.taskStatus task.id).isSome = true ∧
      ∀ task', later.world.Deploys appId task' → task'.id = task.id →
        later.files appId = site.files appId := by
    refine h.invariant (P := fun later => (later.world.store.taskStatus task.id).isSome = true ∧
      ∀ task', later.world.Deploys appId task' → task'.id = task.id →
        later.files appId = site.files appId) (fun start hstart => ?_)
      fun before action after _ hcareful ih hstep => ?_
    · obtain rfl := hstart
      exact ⟨Store.isSome_taskStatus_iff.mpr ⟨task, htask.mem, rfl⟩, fun _ _ _ => rfl⟩
    · obtain ⟨hknown, hfiles⟩ := ih
      rcases world_of_step hstep with hworld | ⟨queued, hworld⟩
      · rw [hworld]
        exact ⟨hknown, fun task' htask' hid =>
          (files_of_step hcareful hstep htask').trans (hfiles task' htask' hid)⟩
      · refine ⟨(World.step_tasks hworld).known hknown, fun task' htask' hid => ?_⟩
        rcases World.step_origin hworld htask'.mem with ⟨old, hold, hcontinues⟩ | ⟨hfresh, -⟩
        · have hdeploys : before.world.Deploys appId old :=
            ⟨hold, hcontinues.appId.symm.trans htask'.app, hcontinues.kind ▸ htask'.kind,
              hcontinues.isOpen htask'.isOpen⟩
          exact (files_of_step hcareful hstep hdeploys).trans
            (hfiles old hdeploys (hcontinues.id.symm.trans hid))
        · obtain ⟨old, hold, hsame⟩ := Store.isSome_taskStatus_iff.mp hknown
          exact absurd (hsame.trans hid.symm) (hfresh old hold)
  exact hrun.2 task' htask' hid

/-- While a task is open that deploys files, the files of its application are those of the snapshot
that is recorded for it, also before it is recorded. -/
def KeepsConfiguration (permitted : RuntimeSite → RuntimeAction → Prop) (site : RuntimeSite) :
    Prop :=
  ∀ later, (deployment.startingAt site).Reached permitted later → ∀ appId task task',
    site.world.Deploys appId task → later.world.Deploys appId task' → task'.id = task.id →
      ∀ snapshot, later.boundTo task.id = some snapshot →
        (site.files appId).Holds snapshot.content

/-- In careful runs a deploy task deploys the configuration recorded for it. -/
theorem deploy_task_keeps_configuration (h : deployment.Reached Careful site) :
    site.KeepsConfiguration Careful := by
  intro later hlater appId task task' htask htask' hid snapshot hbound
  have hsound := sound_of_reached (h.of_startingAt hlater)
  have hrecorded : later.recorded task'.id = some (some snapshot) := by
    rw [hid]
    exact Option.join_eq_some_iff.mp hbound
  have hholds := hsound.tasks appId task' htask' snapshot (.inl hrecorded)
  rwa [files_of_later hlater htask htask' hid] at hholds

/-- An application whose compose file has been edited since a release of it was queued. -/
def editedSite : RuntimeSite where
  world := ⟨⟨[⟨1, 1, .queued⟩], [⟨1, 1, 1, some 1, 1, .queued, none, none⟩], []⟩, [], none, none,
    [], [], [], []⟩
  files _ := ⟨"image: new", "", "", "", "", "", ""⟩
  snapshots := [⟨1, 1, ⟨"image: old", "", "", "", "", "", ""⟩⟩,
    ⟨2, 1, ⟨"image: new", "", "", "", "", "", ""⟩⟩]
  updating := []
  remaining _ := RuntimeFile.all
  bound := []

theorem initial_editedSite : editedSite.Initial := by
  refine ⟨⟨rfl, rfl, rfl, rfl, rfl, rfl, rfl, List.nodup_singleton 1, fun item hitem => ?_⟩, rfl,
    rfl, fun _ htask => absurd htask List.not_mem_nil⟩
  rw [List.mem_singleton.mp hitem]
  exact ⟨nofun, fun _ => rfl, nofun⟩

/-- A compose task of the application is created. -/
def submitTask : RuntimeAction := .world (.createComposeTask .composeUp 1)

/-- The latest snapshot is recorded for it. -/
def bindTask : RuntimeAction := .recordSnapshot ⟨1, 1, none, none⟩

theorem careful_submitTask : editedSite.Careful submitTask := by
  intro _ snapshot hlatest
  have hedited : editedSite.latestConfigSnapshot 1 = some ⟨2, 1, editedSite.files 1⟩ := by
    decide
  obtain rfl := Option.some.inj (hedited.symm.trans hlatest)
  exact (editedSite.files 1).holds_self

/-- A task that was submitted and has not been claimed yet. -/
theorem deploy_task_keeps_configuration_submitted : ∃ site snapshot,
    deployment.Reached Careful site ∧ site.world.Deploys 1 ⟨1, .composeUp, some 1, none, .queued⟩ ∧
    site.boundTo 1 = some snapshot ∧ site.KeepsConfiguration Careful := by
  have hsteps : (deployment.step editedSite submitTask).any (fun submitted =>
      (deployment.step submitted bindTask).any fun site =>
        site.world.store.tasks == [⟨1, .composeUp, some 1, none, .queued⟩] &&
          (site.boundTo 1).isSome) = true := by decide
  obtain ⟨submitted, hsubmit, hbinds⟩ := (Option.any_eq_true _ _).mp hsteps
  obtain ⟨site, hbind, hfacts⟩ := (Option.any_eq_true _ _).mp hbinds
  rw [Bool.and_eq_true, beq_iff_eq] at hfacts
  obtain ⟨snapshot, hbound⟩ := Option.isSome_iff_exists.mp hfacts.2
  have hcareful : submitted.Careful bindTask := trivial
  have hreached : deployment.Reached Careful site :=
    .next (.next (.start initial_editedSite) careful_submitTask hsubmit) hcareful hbind
  exact ⟨site, snapshot, hreached, ⟨hfacts.1 ▸ List.mem_singleton_self _, rfl, rfl, rfl⟩, hbound,
    deploy_task_keeps_configuration hreached⟩

/-- A release is dispatched while the task is queued. -/
theorem queued_task_loses_configuration : ¬ ∀ site, deployment.Reachable site →
    site.KeepsConfiguration fun _ _ => True := by
  intro hkeeps
  have hexec : (deployment.exec editedSite [submitTask, bindTask, .world (.startDispatch 1),
      .world (.dispatch true), .world (.dispatch true), .world (.dispatch true),
      .writeFile .dispatcher]).any (fun site =>
      site.world.store.tasks == [⟨1, .composeUp, some 1, none, .queued⟩] &&
        (site.boundTo 1).any fun snapshot =>
          RuntimeFile.compose.effective ((site.files 1).get .compose) !=
            RuntimeFile.compose.effective (snapshot.content.get .compose)) = true := by
    decide
  obtain ⟨site, hsite, hfacts⟩ := (Option.any_eq_true _ _).mp hexec
  rw [Bool.and_eq_true, beq_iff_eq] at hfacts
  obtain ⟨snapshot, hbound, hdiffers⟩ := (Option.any_eq_true _ _).mp hfacts.2
  have htask : site.world.Deploys 1 ⟨1, .composeUp, some 1, none, .queued⟩ :=
    ⟨hfacts.1 ▸ List.mem_singleton_self _, rfl, rfl, rfl⟩
  exact bne_iff_ne.mp hdiffers (hkeeps site (.exec (.start initial_editedSite) hsite) site
    (.start rfl) 1 _ _ htask htask rfl snapshot hbound .compose)

end RuntimeSite

end EasyDeploy.ReleaseQueue
