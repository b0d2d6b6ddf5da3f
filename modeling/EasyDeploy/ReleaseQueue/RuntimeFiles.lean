import Mathlib.Data.List.MinMax
import Mathlib.Logic.Function.Basic
import EasyDeploy.ReleaseQueue.Interleaving

/-!
# The runtime directories of applications

The compose file, the environment file and the deploy scripts of an application
stand in one directory. A dispatch writes them before it creates its task, and
`update_app_config` writes them behind its own check, one file after the other.
-/

namespace EasyDeploy.ReleaseQueue
open Foundation

/-- The files that `save_app_runtime_files_with_scripts` writes, in its order. -/
inductive RuntimeFile
  | compose
  | env
  | preDeploy
  | deploy
  | postDeploy
  | switchTraffic
  | cleanup
deriving Repr, DecidableEq

namespace RuntimeFile

/-- The runtime files. -/
def all : List RuntimeFile :=
  [compose, env, preDeploy, deploy, postDeploy, switchTraffic, cleanup]

theorem mem_all (file : RuntimeFile) : file ∈ all := by cases file <;> decide

/-- `write_optional_file` removes a file that would be blank. -/
def effective (file : RuntimeFile) (text : String) : String :=
  if file ≠ env ∧ (trim text).isEmpty then "" else text

theorem effective_effective (file : RuntimeFile) (text : String) :
    file.effective (file.effective text) = file.effective text := by
  by_cases hblank : file ≠ env ∧ (trim text).isEmpty
  · rw [effective, effective, if_pos hblank]
    exact ite_self _
  · rw [effective, effective, if_neg hblank, if_neg hblank]

end RuntimeFile

/-- The contents of the files; a file that does not exist is empty. -/
structure RuntimeFiles where
  compose : String
  env : String
  preDeploy : String
  deploy : String
  postDeploy : String
  switchTraffic : String
  cleanup : String
deriving Repr, DecidableEq

namespace RuntimeFiles

variable (files : RuntimeFiles)

/-- The content of a file. -/
def get : RuntimeFile → String
  | .compose => files.compose
  | .env => files.env
  | .preDeploy => files.preDeploy
  | .deploy => files.deploy
  | .postDeploy => files.postDeploy
  | .switchTraffic => files.switchTraffic
  | .cleanup => files.cleanup

/-- One write of `save_app_runtime_files_with_scripts`. -/
def write (file : RuntimeFile) (content : RuntimeFiles) : RuntimeFiles :=
  let text := file.effective (content.get file)
  match file with
  | .compose => { files with compose := text }
  | .env => { files with env := text }
  | .preDeploy => { files with preDeploy := text }
  | .deploy => { files with deploy := text }
  | .postDeploy => { files with postDeploy := text }
  | .switchTraffic => { files with switchTraffic := text }
  | .cleanup => { files with cleanup := text }

theorem get_write (file : RuntimeFile) (content : RuntimeFiles) :
    (files.write file content).get file = file.effective (content.get file) := by
  cases file <;> simp only [write, get]

theorem get_write_of_ne {file other : RuntimeFile} (content : RuntimeFiles) (h : other ≠ file) :
    (files.write file content).get other = files.get other := by
  cases file <;> cases other <;> first | exact absurd rfl h | simp only [write, get]

/-- The file is that of the content, where a blank optional file is the same as none. -/
def HoldsAt (content : RuntimeFiles) (file : RuntimeFile) : Prop :=
  file.effective (files.get file) = file.effective (content.get file)

/-- The files are those of the content. -/
def Holds (content : RuntimeFiles) : Prop := ∀ file, files.HoldsAt content file

theorem holds_self : files.Holds files := fun _ => rfl

end RuntimeFiles

/-- A row of `app_config_snapshots`; rows are never changed. -/
structure ConfigSnapshot where
  id : Int
  appId : Int
  content : RuntimeFiles
deriving Repr, DecidableEq

/-- A call of `update_app_config` behind its checks, with the files it has not written. -/
structure Updating where
  appId : Int
  content : RuntimeFiles
  remaining : List RuntimeFile
deriving Repr, DecidableEq

/-- Who may be in a call of `dispatch_next_release_for_app`. -/
inductive Seat
  | dispatcher
  | worker
deriving Repr, DecidableEq

/-- The call that a seat is in. -/
def World.dispatchAt (world : World) : Seat → Option Dispatch
  | .dispatcher => world.dispatcher
  | .worker => world.worker.bind fun work =>
      match work.stage with
      | .dispatching stage => some ⟨work.job.appId, stage⟩
      | _ => none

/-- The snapshots with the files. -/
structure RuntimeSite where
  world : World
  files : Int → RuntimeFiles
  snapshots : List ConfigSnapshot
  updating : List Updating
  /-- The files that the dispatches have not written. -/
  remaining : Seat → List RuntimeFile
  /-- The snapshots recorded for tasks, in their jobs. -/
  bound : List (Int × Option ConfigSnapshot)

/-- What changes snapshots and files. -/
inductive RuntimeAction
  | world (action : Action)
  | writeFile (seat : Seat)
  | startUpdate (appId : Int) (content : RuntimeFiles)
  | writeUpdate (call : Updating)
  | storeUpdate (call : Updating)
  | abandonUpdate (call : Updating)
  | recordSnapshot (job : ComposeTaskJob)
  | recordDeploySnapshot
deriving Repr, DecidableEq

/-- The kinds of tasks that deploy the files of their application. -/
def TaskKind.deploysFiles : TaskKind → Bool
  | composeUp | releaseDeploy => true
  | _ => false

namespace RuntimeSite

variable (site : RuntimeSite)

/-- The snapshot of a queue item. -/
def snapshotOf (appId : Int) (item : QueueItem) : Option ConfigSnapshot :=
  item.configSnapshotId.bind fun snapshotId =>
    site.snapshots.find? fun snapshot => snapshot.id == snapshotId && snapshot.appId == appId

/-- The last snapshot of an application. -/
def latestConfigSnapshot (appId : Int) : Option ConfigSnapshot :=
  @List.argmax _ _ Int.instLinearOrder.toPreorder inferInstance (·.id)
    (site.snapshots.filter fun snapshot => snapshot.appId == appId)

/-- `active_app_task` finds a task. -/
def hasActiveTask (appId : Int) : Bool :=
  site.world.store.tasks.any fun task =>
    task.appId == some appId && task.status.isOpen && task.kind.blocksApp

/-- What has been recorded for a task; `some none` when there was no snapshot. -/
def recorded (taskId : Int) : Option (Option ConfigSnapshot) :=
  (site.bound.find? fun entry => entry.1 == taskId).map (·.2)

/-- The snapshot that a task is to deploy. -/
def boundTo (taskId : Int) : Option ConfigSnapshot := (site.recorded taskId).join

/-- A dispatch goes on when its files are written, and a job is sent with its snapshot. -/
def admits : Action → Bool
  | .dispatch true => match site.world.dispatchAt .dispatcher with
      | some ⟨_, .preparing _⟩ => (site.remaining .dispatcher).isEmpty
      | _ => true
  | .work true => match site.world.dispatchAt .worker with
      | some ⟨_, .preparing _⟩ => (site.remaining .worker).isEmpty
      | _ => true
  | .sendComposeTask job true => (site.recorded job.taskId).isSome
  | _ => true

/-- What a dispatch records with the task that it creates. -/
def created (world' : World) (seat : Seat) : List (Int × Option ConfigSnapshot) :=
  match site.world.dispatchAt seat, world'.dispatchAt seat with
  | some ⟨appId, .creatingTask item⟩, some ⟨_, .marking _ taskId⟩ =>
      [(taskId, site.snapshotOf appId item)]
  | _, _ => []

/-- The files that a seat has not written after a step of the queue. -/
def remainingAfter (world' : World) (seat : Seat) : List RuntimeFile :=
  if world'.dispatchAt seat = site.world.dispatchAt seat then site.remaining seat
  else RuntimeFile.all

/-- A snapshot is added. -/
def addSnapshot (appId : Int) (content : RuntimeFiles) : List ConfigSnapshot :=
  site.snapshots ++ [⟨nextId (site.snapshots.map (·.id)), appId, content⟩]

def step : RuntimeAction → Option RuntimeSite
  | .world action =>
      if site.admits action then
        (site.world.step action).map fun world' =>
          { site with
            world := world'
            remaining := site.remainingAfter world'
            bound := site.created world' .dispatcher ++ site.created world' .worker ++ site.bound }
      else
        none
  | .writeFile seat =>
      match site.world.dispatchAt seat, site.remaining seat with
      | some ⟨appId, .preparing item⟩, file :: rest =>
          (site.snapshotOf appId item).map fun snapshot =>
            { site with
              files := Function.update site.files appId
                ((site.files appId).write file snapshot.content)
              remaining := Function.update site.remaining seat rest }
      | _, _ => none
  | .startUpdate appId content =>
      if site.hasActiveTask appId then none
      else some { site with updating := site.updating ++ [⟨appId, content, RuntimeFile.all⟩] }
  | .writeUpdate call =>
      if call ∈ site.updating then
        match call.remaining with
        | file :: rest => some { site with
            files := Function.update site.files call.appId
              ((site.files call.appId).write file call.content)
            updating := { call with remaining := rest } :: site.updating.erase call }
        | [] => none
      else
        none
  | .storeUpdate call =>
      if call ∈ site.updating ∧ call.remaining = [] then
        some { site with
          updating := site.updating.erase call
          snapshots := site.addSnapshot call.appId call.content }
      else
        none
  | .abandonUpdate call =>
      if call ∈ site.updating then some { site with updating := site.updating.erase call } else none
  | .recordSnapshot job =>
      if job ∈ site.world.submitting ∧ site.recorded job.taskId = none then
        some { site with
          bound := (job.taskId, site.latestConfigSnapshot job.appId) :: site.bound }
      else
        none
  | .recordDeploySnapshot =>
      match site.world.worker with
      | some ⟨job, .finishingTask true⟩ => some { site with
          snapshots := site.addSnapshot job.appId (site.files job.appId) }
      | _ => none

/-- No call is under way, and no task that deploys files is open. -/
def Initial : Prop :=
  site.world.Initial ∧ site.updating = [] ∧ site.bound = [] ∧
  ∀ task ∈ site.world.store.tasks, task.kind.deploysFiles = true → task.status.isOpen = false

end RuntimeSite

/-- The interleavings of the workers and the requests at the files and the tables. -/
def deployment : Transition RuntimeSite RuntimeAction where
  initial := RuntimeSite.Initial
  step := RuntimeSite.step

end EasyDeploy.ReleaseQueue
