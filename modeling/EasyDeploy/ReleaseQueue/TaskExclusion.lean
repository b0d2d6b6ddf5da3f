import EasyDeploy.Orchestrator.Canonicality
import EasyDeploy.Orchestrator.Lifecycle
import EasyDeploy.ReleaseQueue.ItemStatements

/-!
# Runs of environments beside deployments of applications

Runs of environments and the tasks of the release queue share the table
`operation_tasks`, whose trigger compares tasks of one environment, and tasks
without an environment of one application. A run and a task of one application
exclude each other only as long as their creators look for the other kind.
-/

namespace EasyDeploy.ReleaseQueue
open Foundation
open Foundation.Transition
open Orchestrator (System Digests TaskStatus DeploymentRun Database DeploymentPlan activeRuns
  buildDeploymentPlan Steps steps_of_step)

/-- The orchestrator of environments beside the release queue. -/
structure Platform where
  orchestrator : System
  queue : World
deriving Repr, DecidableEq

/-- The steps of both parts of the program. -/
inductive PlatformAction
  | orchestrator (action : Orchestrator.Action)
  | queue (action : Action)
deriving Repr, DecidableEq

namespace Platform

/-- The step of an action, if it can be taken. -/
def step (digests : Digests) (platform : Platform) : PlatformAction → Option Platform
  | .orchestrator action =>
      (platform.orchestrator.step digests action).map fun orchestrator =>
        { platform with orchestrator }
  | .queue action => (platform.queue.step action).map fun queue => { platform with queue }

end Platform

/-- The interleavings of environment runs with the release queue, from an installation without
tasks. -/
def platform (digests : Digests) : Transition Platform PlatformAction where
  initial platform := platform.orchestrator.IsInitial ∧ platform.queue.Initial ∧
    platform.queue.store.tasks = []
  step := Platform.step digests

namespace Store

variable {store store' : Store}

/-- What a statement does to the tasks of the release queue: it creates one, or updates some
without opening any again. -/
inductive TasksMove (store store' : Store) : Prop
  | same (h : store'.tasks = store.tasks)
  | created {kind appId releaseId taskId}
      (h : store.createTask kind appId releaseId = .ok (taskId, store'))
  | updated {taskId guard status} (h : store'.tasks = updateAt store.tasks (·.id) taskId guard
        fun task => { task with status })
      (hopen : ∀ task, guard task = true → status.isOpen = true → task.status.isOpen = true)

/-- What a statement does to the tasks when it creates none. -/
inductive TasksKept (store store' : Store) : Prop
  | same (h : store'.tasks = store.tasks)
  | updated {taskId guard status} (h : store'.tasks = updateAt store.tasks (·.id) taskId guard
        fun task => { task with status })
      (hopen : ∀ task, guard task = true → status.isOpen = true → task.status.isOpen = true)

theorem TasksKept.moves (h : store.TasksKept store') : store.TasksMove store' := by
  cases h with
  | same h => exact .same h
  | updated h hopen => exact .updated h hopen

/-- The open deployment tasks of an application. -/
def openTasks (store : Store) (appId : Int) : Nat :=
  store.tasks.countP fun task =>
    task.status.isOpen && task.kind.isDeployment && task.appId == some appId

/-- No application gets another open task where tasks are kept. -/
theorem TasksKept.openTasks_le (h : store.TasksKept store') (appId : Int) :
    store'.openTasks appId ≤ store.openTasks appId := by
  cases h with
  | same h => exact le_of_eq (congrArg (List.countP _) h)
  | updated h hopen =>
      rw [openTasks, openTasks, h, updateAt, List.countP_map]
      refine List.countP_mono_left fun task _ hcounted => ?_
      rw [Function.comp_apply] at hcounted
      split at hcounted
      · rename_i hwanted
        simp only [Bool.and_eq_true] at hcounted ⊢
        exact ⟨⟨hopen task hwanted.2 hcounted.1.1, hcounted.1.2⟩, hcounted.2⟩
      · exact hcounted

/-- No application gets a second open task where tasks move as they may. -/
theorem TasksMove.openTasks_le (h : store.TasksMove store') {appId : Int}
    (hone : store.openTasks appId ≤ 1) : store'.openTasks appId ≤ 1 := by
  cases h with
  | same h => rwa [openTasks, h]
  | created h =>
      simp only [createTask] at h
      split at h
      · cases h
      · rename_i hnone
        obtain ⟨-, rfl⟩ := Prod.mk.inj (Except.ok.inj h)
        rw [openTasks, List.countP_append, List.countP_singleton]
        split
        · rename_i hcounted
          simp only [Bool.and_eq_true, beq_iff_eq] at hcounted
          have hzero : store.openTasks appId = 0 := by
            refine List.countP_eq_zero.mpr fun task htask hmatch => hnone ?_
            rw [hcounted.1.2, hcounted.2]
            exact List.any_eq_true.mpr ⟨task, htask, hmatch⟩
          rw [openTasks] at hzero
          omega
        · exact hone
  | updated h hopen => exact le_trans ((TasksKept.updated h hopen).openTasks_le appId) hone

/-- A new task counts for its own application, and only when it deploys. -/
theorem openTasks_createTask {kind : TaskKind} {target appId taskId : Int} {releaseId : Option Int}
    (h : store.createTask kind (some target) releaseId = .ok (taskId, store'))
    (hother : kind.isDeployment = true → target ≠ appId) :
    store'.openTasks appId = store.openTasks appId := by
  simp only [createTask] at h
  split at h
  · cases h
  · obtain ⟨-, rfl⟩ := Prod.mk.inj (Except.ok.inj h)
    rw [openTasks, List.countP_append, List.countP_singleton, if_neg]
    · exact Nat.add_zero _
    · rw [Bool.and_eq_true, Bool.and_eq_true, beq_iff_eq]
      rintro ⟨⟨-, hkind⟩, htarget⟩
      exact hother hkind (Option.some.inj htarget)

/-- Tasks are not forgotten. -/
theorem TasksMove.known (h : store.TasksMove store') {taskId : Int}
    (hsome : (store.taskStatus taskId).isSome = true) :
    (store'.taskStatus taskId).isSome = true := by
  cases h with
  | same h => rwa [taskStatus, h]
  | created h => rwa [(createTask_eq_ok h).2.2.2 taskId hsome]
  | @updated target guard status h _ =>
      obtain ⟨old, hold⟩ := Option.isSome_iff_exists.mp hsome
      rw [taskStatus, h]
      rcases taskStatus_updateAt_eq target guard status hold with heq | ⟨-, heq⟩ <;>
        rw [taskStatus] at heq <;> rw [heq] <;> rfl

/-- A task that ends leaves the others. -/
theorem tasksKept_finishTask {status : TaskStatus} (hclosed : status.isOpen = false)
    (taskId : Int) : store.TasksKept (store.finishTask taskId status) :=
  .updated rfl fun _ _ hopen => by
    rw [hclosed] at hopen
    cases hopen

/-- A queued task is started or canceled. -/
theorem tasksKept_queued (taskId : Int) (status : TaskStatus) : store.TasksKept { store with
    tasks := updateAt store.tasks (·.id) taskId (·.status == TaskStatus.queued) fun task =>
      { task with status } } :=
  .updated rfl fun task hguard _ => by
    rw [beq_iff_eq.mp hguard]
    rfl

/-- An item that is queued creates no task. -/
theorem tasks_enqueue {appId releaseId snapshotId queueId : Int} {status : QueueStatus}
    {time : Option String} (h : store.enqueueAppRelease appId releaseId snapshotId status time =
      some (queueId, store')) : store'.tasks = store.tasks := by
  simp only [enqueueAppRelease] at h
  split at h
  · cases h
  · obtain ⟨-, rfl⟩ := Prod.mk.inj (Option.some.inj h)
    rfl

/-- A published release creates no task. -/
theorem tasks_commitRelease (world : World) (call : Publishing) (snapshotId : Int) :
    (world.commitRelease call snapshotId).tasks = world.store.tasks := by
  unfold World.commitRelease
  split
  · unfold publishTransaction
    split
    · rename_i henqueue
      have htasks := tasks_enqueue henqueue
      exact htasks
    · rfl
  · rename_i time _
    unfold scheduleTransaction
    cases henqueue : world.store.enqueueAppRelease call.release.appId call.release.id snapshotId
        .scheduled (some time) with
    | none => rfl
    | some enqueued =>
        have htasks := tasks_enqueue henqueue
        exact htasks

end Store

/-- The statement creates a deployment task. -/
def DispatchStage.creates : DispatchStage → Bool
  | creatingTask _ => true
  | _ => false

/-- The stage that inserts a task. -/
def WorkStage.creates : WorkStage → Bool
  | dispatching stage => stage.creates
  | _ => false

/-- A dispatch that does not create a task keeps all tasks. -/
theorem DispatchStage.step_keeps {stage : DispatchStage} {works : Bool}
    (hother : (works && stage.creates) = false) (appId : Int) (store : Store)
    (channel : List ComposeTaskJob) :
    store.TasksKept (stage.step works appId store channel).2.1 := by
  cases works with
  | false => exact .same rfl
  | true =>
      cases stage with
      | creatingTask item => cases hother
      | failingTask taskId => exact Store.tasksKept_finishTask rfl taskId
      | _ => exact .same rfl

theorem DispatchStage.step_tasks (stage : DispatchStage) (works : Bool) (appId : Int)
    (store : Store) (channel : List ComposeTaskJob) :
    store.TasksMove (stage.step works appId store channel).2.1 := by
  cases hcreates : works && stage.creates with
  | false => exact (step_keeps hcreates appId store channel).moves
  | true =>
      cases stage with
      | creatingTask item =>
          cases works with
          | false => exact .same rfl
          | true =>
              simp only [step, if_true, advance]
              cases hcreate : store.createTask .releaseDeploy (some appId)
                  (some item.releaseId) with
              | error error => exact .same rfl
              | ok created => exact .created hcreate
      | _ =>
          rw [Bool.and_eq_true] at hcreates
          cases hcreates.2

/-- A worker that does not create a task keeps all tasks. -/
theorem WorkStage.step_keeps {stage : WorkStage} {works : Bool}
    (hother : (works && stage.creates) = false) (job : ComposeTaskJob) (store : Store)
    (channel : List ComposeTaskJob) :
    store.TasksKept (stage.step works job store channel).2.1 := by
  cases works with
  | false => exact .same rfl
  | true =>
      cases stage with
      | starting =>
          simp only [step, if_true, advance]
          split
          · exact Store.tasksKept_queued job.taskId .running
          · exact .same rfl
      | failingTask => exact Store.tasksKept_finishTask rfl job.taskId
      | finishingTask success =>
          cases success with
          | false => exact Store.tasksKept_finishTask rfl job.taskId
          | true => exact Store.tasksKept_finishTask rfl job.taskId
      | dispatching stage => exact DispatchStage.step_keeps hother job.appId store channel
      | _ => exact .same rfl

theorem WorkStage.step_tasks (stage : WorkStage) (works : Bool) (job : ComposeTaskJob)
    (store : Store) (channel : List ComposeTaskJob) :
    store.TasksMove (stage.step works job store channel).2.1 := by
  cases hcreates : works && stage.creates with
  | false => exact (step_keeps hcreates job store channel).moves
  | true =>
      cases stage with
      | dispatching stage =>
          cases works with
          | false => exact .same rfl
          | true => exact stage.step_tasks true job.appId store channel
      | _ =>
          rw [Bool.and_eq_true] at hcreates
          cases hcreates.2

/-- The steps that may create a task. -/
def Action.creates : Action → Bool
  | createComposeTask _ _ | dispatch _ | work _ => true
  | _ => false

/-- A step that does not create a task keeps all tasks. -/
theorem World.step_kept {world world' : World} {action : Action}
    (h : world.step action = some world') (hother : action.creates = false) :
    world.store.TasksKept world'.store := by
  cases action with
  | readRelease releaseId scheduledPublishAt =>
      obtain ⟨release, -, rfl⟩ := Option.map_eq_some_iff.mp h
      exact .same rfl
  | dispatch | work | createComposeTask => cases hother
  | checkRelease call =>
      simp only [step] at h
      split at h
      · obtain rfl := Option.some.inj h
        exact .same rfl
      · cases h
  | readItem queueId =>
      simp only [step] at h
      split at h
      · split at h
        · obtain rfl := Option.some.inj h
          exact .same rfl
        · cases h
      · cases h
  | startDispatch appId =>
      simp only [step] at h
      split at h
      · obtain rfl := Option.some.inj h
        exact .same rfl
      · cases h
  | takeJob =>
      simp only [step] at h
      split at h
      · obtain rfl := Option.some.inj h
        exact .same rfl
      · cases h
  | commitRelease call snapshotId works =>
      simp only [step] at h
      split at h
      · obtain rfl := Option.some.inj h
        cases works with
        | false => exact .same rfl
        | true => exact .same (Store.tasks_commitRelease world call snapshotId)
      · cases h
  | promoteItem queueId =>
      simp only [step] at h
      split at h
      · rename_i promoted store hpromote
        obtain rfl := Option.some.inj h
        refine .same ?_
        unfold Store.promoteItem at hpromote
        split at hpromote
        · split at hpromote
          · split at hpromote
            · cases hpromote
            · rw [← (Prod.mk.inj (Except.ok.inj hpromote)).2]
          · rw [← (Prod.mk.inj (Except.ok.inj hpromote)).2]
        · rw [← (Prod.mk.inj (Except.ok.inj hpromote)).2]
      · cases h
  | cancelScheduledRelease releaseId =>
      simp only [step] at h
      split at h
      · rename_i store hcancel
        obtain rfl := Option.some.inj h
        refine .same ?_
        unfold Store.cancelScheduledRelease at hcancel
        split at hcancel
        · cases hcancel
        · rw [← Except.ok.inj hcancel]
          rfl
      · cases h
  | commitItem queueId releaseId works =>
      simp only [step] at h
      split at h
      · obtain rfl := Option.some.inj h
        cases works <;> exact .same rfl
      · cases h
  | cancelTask taskId =>
      simp only [step] at h
      split at h
      · obtain rfl := Option.some.inj h
        exact Store.tasksKept_queued taskId .canceled
      · cases h
  | commitTask taskId works =>
      simp only [step] at h
      split at h
      · obtain rfl := Option.some.inj h
        refine .same ?_
        cases works with
        | false => rfl
        | true =>
            show (world.store.cancelTaskTransaction taskId).tasks = world.store.tasks
            unfold Store.cancelTaskTransaction
            split <;> rfl
      · cases h
  | sendComposeTask job works =>
      simp only [step] at h
      split at h
      · cases works with
        | true =>
            obtain rfl := Option.some.inj h
            exact .same rfl
        | false =>
            obtain rfl := Option.some.inj h
            exact Store.tasksKept_finishTask rfl job.taskId
      · cases h

/-- A step of the release queue creates a task, or updates some without opening any again. -/
theorem World.step_tasks {world world' : World} {action : Action}
    (h : world.step action = some world') : world.store.TasksMove world'.store := by
  cases action with
  | dispatch works =>
      obtain ⟨dispatch, -, rfl⟩ := Option.map_eq_some_iff.mp h
      exact dispatch.stage.step_tasks works dispatch.appId world.store world.channel
  | work works =>
      obtain ⟨work, -, rfl⟩ := Option.map_eq_some_iff.mp h
      exact work.stage.step_tasks works work.job world.store world.channel
  | createComposeTask kind appId =>
      simp only [step] at h
      split at h
      · rename_i taskId store hcreate
        obtain rfl := Option.some.inj h
        exact .created hcreate
      · cases h
  | _ => exact (step_kept h rfl).moves

/-- The application that a step creates a deployment task for. -/
def World.creating (world : World) : Action → Option Int
  | .createComposeTask kind appId => if kind.isDeployment then some appId else none
  | .dispatch works => world.dispatcher.bind fun dispatch =>
      if works && dispatch.stage.creates then some dispatch.appId else none
  | .work works => world.worker.bind fun work =>
      if works && work.stage.creates then some work.job.appId else none
  | _ => none

/-- The open deployment tasks of an application do not become more by a step that creates none
for it. -/
theorem World.openTasks_step {world world' : World} {action : Action} {appId : Int}
    (h : world.step action = some world') (hother : world.creating action ≠ some appId) :
    world'.store.openTasks appId ≤ world.store.openTasks appId := by
  cases action with
  | dispatch works =>
      obtain ⟨dispatch, hdispatch, rfl⟩ := Option.map_eq_some_iff.mp h
      rw [creating, hdispatch, Option.bind_some] at hother
      cases hcreates : works && dispatch.stage.creates with
      | false => exact (DispatchStage.step_keeps hcreates _ _ _).openTasks_le appId
      | true =>
          rw [hcreates, if_pos rfl] at hother
          rw [Bool.and_eq_true] at hcreates
          obtain ⟨rfl, hstage⟩ := hcreates
          cases hitem : dispatch.stage with
          | creatingTask item =>
              dsimp only
              simp only [DispatchStage.step, if_true, DispatchStage.advance]
              cases hcreate : world.store.createTask .releaseDeploy (some dispatch.appId)
                  (some item.releaseId) with
              | error error => exact le_refl _
              | ok created =>
                  exact le_of_eq (Store.openTasks_createTask hcreate fun _ heq =>
                    hother (congrArg some heq))
          | _ =>
              rw [hitem] at hstage
              cases hstage
  | work works =>
      obtain ⟨work, hwork, rfl⟩ := Option.map_eq_some_iff.mp h
      rw [creating, hwork, Option.bind_some] at hother
      cases hcreates : works && work.stage.creates with
      | false => exact (WorkStage.step_keeps hcreates _ _ _).openTasks_le appId
      | true =>
          rw [hcreates, if_pos rfl] at hother
          rw [Bool.and_eq_true] at hcreates
          obtain ⟨rfl, hstage⟩ := hcreates
          cases hdispatching : work.stage with
          | dispatching stage =>
              rw [hdispatching] at hstage
              cases stage with
              | creatingTask item =>
                  dsimp only
                  simp only [WorkStage.step, if_true, WorkStage.advance, DispatchStage.advance]
                  cases hcreate : world.store.createTask .releaseDeploy (some work.job.appId)
                      (some item.releaseId) with
                  | error error => exact le_refl _
                  | ok created =>
                      exact le_of_eq (Store.openTasks_createTask hcreate fun _ heq =>
                        hother (congrArg some heq))
              | _ => cases hstage
          | _ =>
              rw [hdispatching] at hstage
              cases hstage
  | createComposeTask kind target =>
      simp only [step] at h
      split at h
      · rename_i taskId store hcreate
        obtain rfl := Option.some.inj h
        refine le_of_eq (Store.openTasks_createTask hcreate fun hkind heq => hother ?_)
        rw [creating, if_pos hkind, heq]
      · cases h
  | _ => exact (step_kept h rfl).openTasks_le appId

section Applications

/-- A plan is for the application of its environment. -/
theorem appId_of_loadDeploymentPlan {database : Database} {digests : Digests}
    {environmentId appReleaseId : Int} {mode : Orchestrator.DeploymentMode} {plan : DeploymentPlan}
    (h : database.loadDeploymentPlan digests environmentId appReleaseId mode = .ok plan) :
    ∃ environment ∈ database.environments, environment.id = environmentId ∧
      environment.appId = plan.appId := by
  obtain ⟨input, hinput, hbuilt⟩ := Database.loadDeploymentPlan_eq_ok h
  have hplan : plan.appId = input.appId := by
    rw [(Orchestrator.buildDeploymentPlan_eq_ok_iff.mp hbuilt).2]
    rfl
  unfold Database.planInput at hinput
  split at hinput
  · cases hinput
  · rename_i identity hidentity
    obtain rfl := Except.ok.inj hinput
    unfold Database.planIdentity at hidentity
    split at hidentity
    · cases hidentity
    · rename_i environment hfind
      have hid := List.find?_some hfind
      rw [Bool.and_eq_true, beq_iff_eq] at hid
      refine ⟨environment, List.mem_of_find?_eq_some hfind, hid.1, ?_⟩
      rw [hplan]
      split at hidentity
      · split at hidentity
        · cases hidentity
        · obtain ⟨revision, -, rfl⟩ := Option.map_eq_some_iff.mp hidentity
          rfl
      · cases hidentity

/-- Which run is of which application. -/
def ownersOf (runs : List DeploymentRun) : List (Int × Int) :=
  runs.map fun run => (run.id, run.appId)

theorem ownersOf_foldl {transaction : Database → DeploymentRun → Database}
    (hkept : ∀ database run, ownersOf (transaction database run).runs = ownersOf database.runs)
    (runs : List DeploymentRun) (database : Database) :
    ownersOf (runs.foldl transaction database).runs = ownersOf database.runs := by
  induction runs generalizing database with
  | nil => rfl
  | cons run runs ih => exact (ih (transaction database run)).trans (hkept database run)

/-- A restart leaves the environments that open runs hold. -/
theorem ownersOf_reconcile (database : Database) :
    ownersOf database.reconcileInterruptedRuns.2.runs = ownersOf database.runs := by
  have hcancel (database : Database) (run : DeploymentRun) :
      ownersOf (database.cancelInterrupted run).runs = ownersOf database.runs :=
    map_updateAt fun _ => rfl
  have hhold (database : Database) (run : DeploymentRun) :
      ownersOf (database.holdInterrupted run).runs = ownersOf database.runs :=
    map_updateAt fun _ => rfl
  exact (ownersOf_foldl hhold _ _).trans (ownersOf_foldl hcancel _ _)

variable {digests : Digests} {system system' : System} {action : Orchestrator.Action}

/-- A step leaves the runs to their applications and may add one to that of an environment. -/
theorem ownersOf_step (h : Steps digests system action system') :
    ownersOf system'.database.runs = ownersOf system.database.runs ∨
      ∃ input run, action = .createRun input ∧
        system'.database.runs = system.database.runs ++ [run] ∧
        ∃ environment ∈ system.database.environments, environment.id = input.environmentId ∧
          environment.appId = run.appId := by
  cases h with
  | created hnone hplan => exact .inr ⟨_, _, rfl, rfl, appId_of_loadDeploymentPlan hplan⟩
  | @canceledQueued run deploymentRunId actor actor' hrun hqueued =>
      have hfirst : ownersOf (system.database.cancelRunning run actor').runs =
          ownersOf system.database.runs := map_updateAt fun _ => rfl
      have hsecond : ownersOf (system.database.cancelQueued run actor').runs =
          ownersOf (system.database.cancelRunning run actor').runs := map_updateAt fun _ => rfl
      exact .inl (hsecond.trans hfirst)
  | reconciled hserving => exact .inl (ownersOf_reconcile _)
  | claimed | finalized | canceledRunning | failed | confirmed =>
      exact .inl (map_updateAt fun _ => rfl)
  | _ => exact .inl rfl

/-- A run that is active after a step has been active before, or the step has created it for the
application of an environment. -/
theorem active_before_step (hreachable : Reachable (Orchestrator.orchestrator digests) system)
    (hstep : system.step digests action = some system') {run' : DeploymentRun}
    (hrun' : run' ∈ system'.database.runs) (hactive : run'.status.isActive = true) :
    (∃ run ∈ system.database.runs, run.appId = run'.appId ∧ run.status.isActive = true) ∨
      ∃ input, action = .createRun input ∧ ∃ environment ∈ system.database.environments,
        environment.id = input.environmentId ∧ environment.appId = run'.appId := by
  have hold {run : DeploymentRun} (hrun : run ∈ system.database.runs) (hid : run.id = run'.id)
      (happ : run.appId = run'.appId) :
      ∃ run ∈ system.database.runs, run.appId = run'.appId ∧ run.status.isActive = true := by
    refine ⟨run, hrun, happ, ?_⟩
    by_contra hended
    have hexec : (Orchestrator.orchestrator digests).exec system [action] = some system' := by
      simp [Transition.exec, Orchestrator.orchestrator, hstep]
    obtain ⟨later, hlater, hlaterId, hstatus⟩ := Orchestrator.terminal_of_exec hexec hrun
      (by rw [Orchestrator.RunStatus.isTerminal, Bool.not_eq_true']; simpa using hended)
    have hkeys := (Orchestrator.exclusive_of_reachable (.next hreachable trivial hstep)).1
    rw [← hkeys.eq hlater hrun' (hlaterId.trans hid), hstatus] at hactive
    exact hended hactive
  rcases ownersOf_step (steps_of_step hstep) with hsame | ⟨input, run, rfl, hruns, henvironment⟩
  · have hmem : (run'.id, run'.appId) ∈ ownersOf system.database.runs :=
      hsame ▸ List.mem_map_of_mem hrun'
    obtain ⟨run, hrun, heq⟩ := List.mem_map.mp hmem
    obtain ⟨hid, happ⟩ := Prod.mk.inj heq
    exact .inl (hold hrun hid happ)
  · rw [hruns] at hrun'
    rcases List.mem_append.mp hrun' with hbefore | hnew
    · exact .inl (hold hbefore rfl rfl)
    · obtain rfl := List.mem_singleton.mp hnew
      exact .inr ⟨input, rfl, henvironment⟩

end Applications

variable {digests : Digests}

/-- The environments of a platform run as they do on their own. -/
theorem orchestrator_of_platform {p : Platform} (h : Reachable (platform digests) p) :
    Reachable (Orchestrator.orchestrator digests) p.orchestrator := by
  refine h.invariant (P := fun p => Reachable (Orchestrator.orchestrator digests) p.orchestrator)
    (fun p hinitial => ?_) fun p action p' _ _ ih hstep => ?_
  · exact .start hinitial.1
  cases action with
  | orchestrator action =>
      obtain ⟨system, hsystem, rfl⟩ := Option.map_eq_some_iff.mp hstep
      exact .next ih trivial hsystem
  | queue action =>
      obtain ⟨world, -, rfl⟩ := Option.map_eq_some_iff.mp hstep
      exact ih

/-- In every reachable state an environment has at most one active run, and an application has at
most one open deployment task that names no environment. -/
theorem deployments_exclude_per_scope {p : Platform} (h : Reachable (platform digests) p) :
    (∀ environmentId, (activeRuns p.orchestrator.database environmentId).length ≤ 1) ∧
      ∀ appId, p.queue.store.openTasks appId ≤ 1 := by
  refine ⟨(Orchestrator.exclusive_of_reachable (orchestrator_of_platform h)).2, fun appId => ?_⟩
  refine h.invariant (P := fun p => p.queue.store.openTasks appId ≤ 1)
    (fun p hinitial => ?_) fun p action p' _ _ ih hstep => ?_
  · rw [Store.openTasks, hinitial.2.2]
    exact Nat.zero_le _
  · cases action with
    | orchestrator action =>
        obtain ⟨system, -, rfl⟩ := Option.map_eq_some_iff.mp hstep
        exact ih
    | queue action =>
        obtain ⟨world, hworld, rfl⟩ := Option.map_eq_some_iff.mp hstep
        exact (World.step_tasks hworld).openTasks_le ih

namespace Platform

/-- A run or a deployment task is created only while its application has none of the other kind
that is open. -/
def careful (p : Platform) : PlatformAction → Bool
  | .orchestrator (.createRun input) => p.orchestrator.database.environments.all fun environment =>
      environment.id != input.environmentId || p.queue.store.openTasks environment.appId == 0
  | .orchestrator _ => true
  | .queue action => match p.queue.creating action with
      | some appId => p.orchestrator.database.runs.all fun run =>
          run.appId != appId || !run.status.isActive
      | none => true

/-- No application has both a run that is active and a deployment task that is open. -/
def Exclusive (p : Platform) : Prop :=
  ∀ run ∈ p.orchestrator.database.runs, run.status.isActive = true →
    p.queue.store.openTasks run.appId = 0

variable {p p' : Platform}

/-- A careful step of the orchestrator keeps runs and tasks apart. -/
theorem Exclusive.orchestrator (h : p.Exclusive)
    (hreachable : Reachable (Orchestrator.orchestrator digests) p.orchestrator)
    {action : Orchestrator.Action} {system : System}
    (hcareful : p.careful (.orchestrator action) = true)
    (hstep : p.orchestrator.step digests action = some system) :
    Exclusive { p with orchestrator := system } := by
  intro run' hrun' hactive
  rcases active_before_step hreachable hstep hrun' hactive with
    ⟨run, hrun, happ, hbefore⟩ | ⟨input, rfl, environment, hmem, hid, happ⟩
  · rw [← happ]
    exact h run hrun hbefore
  · rw [← happ]
    have hnone := List.all_eq_true.mp hcareful environment hmem
    rw [Bool.or_eq_true, bne_iff_ne, beq_iff_eq] at hnone
    exact hnone.resolve_left fun hne => hne hid

/-- A careful step of the queue keeps runs and tasks apart. -/
theorem Exclusive.queue (h : p.Exclusive) {action : Action} {world : World}
    (hcareful : p.careful (.queue action) = true) (hstep : p.queue.step action = some world) :
    Exclusive { p with queue := world } := by
  intro run hrun hactive
  have hother : p.queue.creating action ≠ some run.appId := by
    intro hcreating
    rw [careful, hcreating] at hcareful
    have hended := List.all_eq_true.mp hcareful run hrun
    rw [hactive, Bool.not_true, Bool.or_false, bne_self_eq_false] at hended
    cases hended
  exact Nat.le_zero.mp ((World.openTasks_step hstep hother).trans (h run hrun hactive).le)

end Platform

/-- As long as runs and deployment tasks are created only where the other kind is not open, no
state has both for one application. -/
theorem runs_and_tasks_exclude {p : Platform}
    (h : Reached (platform digests) (fun p action => p.careful action = true) p) :
    p.Exclusive := by
  refine h.invariant (fun p hinitial => ?_) fun p action p' hreached hcareful ih hstep => ?_
  · intro run hrun
    rw [hinitial.1.1] at hrun
    cases hrun
  · cases action with
    | orchestrator action =>
        obtain ⟨system, hsystem, rfl⟩ := Option.map_eq_some_iff.mp hstep
        exact ih.orchestrator (orchestrator_of_platform hreached.reachable) hcareful hsystem
    | queue action =>
        obtain ⟨world, hworld, rfl⟩ := Option.map_eq_some_iff.mp hstep
        exact ih.queue hcareful hworld

/-- One application with an environment and a release for it, which waits in the queue. -/
def queuedPlatform : Platform :=
  ⟨Orchestrator.Sample.installation,
    ⟨⟨[⟨1, 1, .queued⟩], [⟨1, 1, 1, some 1, 0, .queued, none, none⟩], []⟩,
      [], none, none, [], [], [], []⟩⟩

theorem initial_queuedPlatform :
    (platform Orchestrator.Sample.digests).initial queuedPlatform := by
  refine ⟨⟨rfl, rfl, rfl, rfl, rfl, rfl, rfl, rfl⟩, ⟨rfl, rfl, rfl, rfl, rfl, rfl, rfl, ?_, ?_⟩,
    rfl⟩
  · exact List.nodup_singleton _
  · intro item hitem
    obtain rfl := List.mem_singleton.mp hitem
    exact ⟨by decide, fun _ => rfl, fun taskId htask => by cases htask⟩

/-- The dispatch of the waiting item, up to its task. -/
def dispatchItem : List PlatformAction :=
  .queue (.startDispatch 1) :: List.replicate 5 (.queue (.dispatch true))

/-- A run is created, then a waiting item of its application is dispatched. -/
def overlap : List PlatformAction :=
  [.orchestrator .reconcile, .orchestrator (.createRun ⟨1, 1, .normal, "plan", "operator"⟩)] ++
    dispatchItem

/-- The run is canceled before. -/
def oneByOne : List PlatformAction :=
  [.orchestrator .reconcile, .orchestrator (.createRun ⟨1, 1, .normal, "plan", "operator"⟩),
    .orchestrator (.requestCancellation 1 "operator")] ++ dispatchItem

/-- A run ends before a task of the same application is created. -/
theorem runs_and_tasks_exclude_one_by_one :
    ∃ p, ((platform Orchestrator.Sample.digests).restrict Platform.careful).exec queuedPlatform
        oneByOne = some p ∧
      p.orchestrator.database.runs.length = 1 ∧ p.queue.store.openTasks 1 = 1 ∧ p.Exclusive := by
  obtain ⟨p, hexec, hboth⟩ := Option.map_eq_some_iff.mp (show
    (((platform Orchestrator.Sample.digests).restrict Platform.careful).exec queuedPlatform
      oneByOne).map (fun p => (p.orchestrator.database.runs.length,
        p.queue.store.openTasks 1)) = some (1, 1) from rfl)
  obtain ⟨hruns, htasks⟩ := Prod.mk.inj hboth
  exact ⟨p, hexec, hruns, htasks, runs_and_tasks_exclude
    (.of_restrict (.exec (.start initial_queuedPlatform) hexec))⟩

/-- The run and the task of the dispatched item are open at once. -/
theorem run_beside_task : ¬ ∀ p, Reachable (platform Orchestrator.Sample.digests) p →
    p.Exclusive := by
  intro h
  obtain ⟨p, hexec, hopen⟩ := Option.map_eq_some_iff.mp (show
    ((platform Orchestrator.Sample.digests).exec queuedPlatform overlap).map (fun p =>
      p.orchestrator.database.runs.any fun run =>
        run.status.isActive && p.queue.store.openTasks run.appId != 0) = some true from rfl)
  obtain ⟨run, hrun, hboth⟩ := List.any_eq_true.mp hopen
  rw [Bool.and_eq_true, bne_iff_ne] at hboth
  exact hboth.2 (h p (.exec (.start initial_queuedPlatform) hexec) run hrun hboth.1)

end EasyDeploy.ReleaseQueue
