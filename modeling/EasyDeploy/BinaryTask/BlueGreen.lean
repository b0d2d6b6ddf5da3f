import EasyDeploy.Foundation.Sequences
import EasyDeploy.Foundation.Transition
import Mathlib.Logic.Function.Basic

/-!
# Blue/green restarts

`run_binary_task_job` for the restart of an application whose releases are
blue/green: the standby slot is started on every target node, then the proxy of
every node is switched to it, then the slot is recorded as the active one. What
the commands do on the nodes is read from a script.
-/

namespace EasyDeploy.BinaryTask
open Foundation

/-- The slots that traffic is switched between. -/
inductive Slot
  | blue
  | green
deriving Repr, DecidableEq

/-- The word for a slot. -/
def Slot.asStr : Slot → String
  | blue => "blue"
  | green => "green"

/-- Any other word means the blue one. -/
def normalizedSlot (slot : String) : Slot := if slot = "green" then .green else .blue

/-- The slot without traffic. -/
def standbySlot (activeSlot : String) : Slot := if activeSlot = "green" then .blue else .green

theorem standbySlot_ne (activeSlot : String) : standbySlot activeSlot ≠ normalizedSlot activeSlot := by
  unfold standbySlot normalizedSlot
  split <;> nofun

@[simp] theorem normalizedSlot_asStr (slot : Slot) : normalizedSlot slot.asStr = slot := by
  cases slot <;> decide

/-- How a deployment goes on after a failure. -/
inductive DeployStrategy
  | rollingStopOnFailure
  | rollingContinue
deriving Repr, DecidableEq

/-- Whether a failing node ends it. -/
def DeployStrategy.shouldStopAfterFailure (strategy : DeployStrategy) : Bool :=
  strategy == .rollingStopOnFailure

/-- The job of a blue/green restart. -/
structure BinaryTaskJob where
  activeSlot : String
  basePort : Int
  standbyPort : Int
  proxyEnabled : Bool
  proxyKind : String
  proxyDomain : String
  deployStrategy : DeployStrategy
deriving Repr, DecidableEq

namespace BinaryTaskJob

variable (job : BinaryTaskJob)

/-- The slot that is deployed to. -/
def targetSlot : Slot := standbySlot job.activeSlot

/-- Its port. -/
def targetPort : Int :=
  match job.targetSlot with
  | .green => job.standbyPort
  | .blue => job.basePort

/-- The slot that becomes the active one. -/
def promotedSlot (success : Bool) : Option Slot := if success then some job.targetSlot else none

/-- Whether `render_binary_proxy_config` succeeds. -/
def rendersProxyConfig : Bool :=
  !(trim job.proxyDomain).isEmpty && decide (0 < job.targetPort) &&
    (job.proxyKind == "caddy" || job.proxyKind == "nginx")

end BinaryTaskJob

/-- How a command ends: its output reports success or failure, or there is no output. -/
inductive Outcome
  | success
  | failed
  | error
deriving Repr, DecidableEq

/-- The slot that the proxy configuration points at, if any, and the slots that run. -/
structure NodeState where
  proxy : Option Slot
  running : Slot → Bool

/-- The nodes with the proxies, and the active slot on record. -/
structure AppState where
  activeSlot : String
  nodes : Int → NodeState
  /-- The nodes on which a command restarted or stopped the slot that receives the traffic. -/
  interrupted : List Int

namespace AppState

variable (state : AppState)

/-- `systemctl restart` or `systemctl stop` on the unit of a slot. -/
def systemctl (node : Int) (slot : Slot) (running : Bool) : AppState :=
  { state with
    nodes := Function.update state.nodes node { state.nodes node with
      running := Function.update (state.nodes node).running slot running }
    interrupted := if (state.nodes node).proxy = some slot then node :: state.interrupted
      else state.interrupted }

/-- The proxy configuration of a node is written. -/
def pointProxy (node : Int) (proxy : Option Slot) : AppState :=
  { state with
    nodes := Function.update state.nodes node { state.nodes node with proxy } }

end AppState

/-- What the commands of `run_binary_task_on_node` do. -/
structure NodeScript where
  /-- The preflight and the runtime files. -/
  prepared : Outcome
  restarted : Outcome
  healthy : Outcome
  /-- Whether the slot runs when not all of this succeeds. -/
  leftRunning : Bool
deriving Repr, DecidableEq

/-- What the commands of `switch_binary_proxy_on_node` do. -/
structure SwitchScript where
  /-- The steps before the configuration is written. -/
  prepared : Bool
  written : Outcome
  /-- What the configuration points at when it is not written. -/
  leftProxy : Option Slot
  validated : Outcome
  reloaded : Outcome
  /-- The record of the step. -/
  finished : Bool
deriving Repr, DecidableEq

/-- What the commands of `cleanup_binary_standby_slot` do on a node. -/
structure StopScript where
  prepared : Bool
  stopped : Outcome
  /-- Whether the slot runs when it is not stopped. -/
  leftRunning : Bool
  /-- The record of the step. -/
  finished : Bool
deriving Repr, DecidableEq

/-- How the scripts of a run end. -/
structure RunScript where
  /-- The steps before the first node. -/
  started : Bool
  nodes : Int → NodeScript
  switches : Int → SwitchScript
  stops : Int → StopScript
  /-- The log entry behind the switch of all proxies. -/
  logged : Bool
  /-- The update of `app_binary_configs.active_slot`. -/
  recorded : Bool

/-- Everything on a node goes well. -/
def NodeScript.succeeds (script : NodeScript) : Bool :=
  script.prepared == .success && script.restarted == .success && script.healthy == .success

/-- The switch on a node goes well. -/
def SwitchScript.succeeds (script : SwitchScript) : Bool :=
  script.prepared && script.written == .success && script.validated == .success &&
    script.reloaded == .success && script.finished

section Run

variable (job : BinaryTaskJob) (script : RunScript)

/-- The result of `run_binary_task_on_node`: `Ok` with its success, or `Err`. -/
def runBinaryTaskOnNode (node : Int) (state : AppState) : Except Unit Bool × AppState :=
  let commands := script.nodes node
  match commands.prepared with
  | .error => (.error (), state)
  | .failed => (.ok false, state)
  | .success =>
      let state := state.systemctl node job.targetSlot (commands.succeeds || commands.leftRunning)
      match commands.restarted with
      | .error => (.error (), state)
      | .failed => (.ok false, state)
      | .success =>
          match commands.healthy with
          | .error => (.error (), state)
          | .failed => (.ok false, state)
          | .success => (.ok true, state)

/-- The loop over the target nodes, with the overall success and the promoted slot. -/
def runOnNodes : List Int → Bool → Option Slot → AppState → Bool × Option Slot × AppState
  | [], overallSuccess, promotedSlot, state => (overallSuccess, promotedSlot, state)
  | node :: rest, overallSuccess, promotedSlot, state =>
      match runBinaryTaskOnNode job script node state with
      | (.ok true, state) =>
          match job.promotedSlot true with
          | some slot =>
              if promotedSlot.any fun existing => existing != slot then
                runOnNodes rest false promotedSlot state
              else
                runOnNodes rest overallSuccess (some slot) state
          | none => runOnNodes rest overallSuccess promotedSlot state
      | (_, state) =>
          if job.deployStrategy.shouldStopAfterFailure then (false, promotedSlot, state)
          else runOnNodes rest false promotedSlot state

/-- The switch of one proxy, which is undone when it fails. -/
def switchBinaryProxyOnNode (node : Int) (state : AppState) : Bool × AppState :=
  let commands := script.switches node
  if commands.prepared then
    (commands.succeeds, state.pointProxy node
      (if commands.written = .success then some job.targetSlot else commands.leftProxy))
  else
    (false, state)

/-- The loop of `switch_binary_proxy_to_targets`, up to the first error. -/
def switchProxies : List Int → AppState → Bool × AppState
  | [], state => (true, state)
  | node :: rest, state =>
      match switchBinaryProxyOnNode job script node state with
      | (true, state) => switchProxies rest state
      | (false, state) => (false, state)

/-- The switch of all proxies. -/
def switchBinaryProxyToTargets (targets : List Int) (state : AppState) : Bool × AppState :=
  if job.proxyEnabled then
    if job.rendersProxyConfig then switchProxies job script targets state else (false, state)
  else
    (true, state)

/-- The loop over the target nodes, up to the first error. -/
def cleanupBinaryStandbySlot : List Int → AppState → AppState
  | [], state => state
  | node :: rest, state =>
      let commands := script.stops node
      if commands.prepared then
        let state := state.systemctl node job.targetSlot
          (commands.stopped != .success && commands.leftRunning)
        if commands.stopped = .success ∧ commands.finished then
          cleanupBinaryStandbySlot rest state
        else
          state
      else
        state

/-- The job as a whole. -/
def runBinaryTaskJob (targets : List Int) (state : AppState) : AppState :=
  if script.started && !targets.isEmpty then
    match runOnNodes job script targets true none state with
    | (true, some slot, state) =>
        match switchBinaryProxyToTargets job script targets state with
        | (true, state) =>
            if job.proxyEnabled && !script.logged then state
            else if script.recorded then { state with activeSlot := slot.asStr } else state
        | (false, state) => cleanupBinaryStandbySlot job script targets state
    | (_, _, state) => state
  else
    state

end Run

/-- The configuration of an application with blue/green releases; the active slot is recorded beside
it. -/
structure BinaryConfig where
  basePort : Int
  standbyPort : Int
  proxyEnabled : Bool
  proxyKind : String
  proxyDomain : String
  deployStrategy : DeployStrategy
deriving Repr, DecidableEq

/-- The job that `run_binary_task` submits. -/
def BinaryConfig.job (config : BinaryConfig) (activeSlot : String) : BinaryTaskJob :=
  { activeSlot
    basePort := config.basePort
    standbyPort := config.standbyPort
    proxyEnabled := config.proxyEnabled
    proxyKind := config.proxyKind
    proxyDomain := config.proxyDomain
    deployStrategy := config.deployStrategy }

namespace AppState

/-- On every target node the proxy configuration points at the recorded active slot, and it runs. -/
def Serves (state : AppState) (targets : List Int) : Prop :=
  ∀ node ∈ targets, (state.nodes node).proxy = some (normalizedSlot state.activeSlot) ∧
    (state.nodes node).running (normalizedSlot state.activeSlot) = true

/-- One blue/green restart of the application. -/
def restart (config : BinaryConfig) (targets : List Int) (state : AppState) (script : RunScript) :
    AppState :=
  runBinaryTaskJob (config.job state.activeSlot) script targets state

end AppState

/-- The restarts of an application, one after the other. -/
def restarts (config : BinaryConfig) (targets : List Int) : Transition AppState RunScript where
  initial state := state.Serves targets ∧ state.interrupted = []
  step state script := some (state.restart config targets script)

end EasyDeploy.BinaryTask
