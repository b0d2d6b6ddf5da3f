import EasyDeploy.Foundation.Transition
import EasyDeploy.Retention.LogBudget

/-!
# The log service and one step of it

Calls of the log service on one step interleave where they acquire a lock and
where they execute a statement. A call is the point that it has reached; the
lock of the task is never held across a point. The other steps of the task
share its budget only. Columns are `i64`, limits are `usize` values.
-/

namespace EasyDeploy.Retention
open Foundation

/-- `as i64`. -/
def asI64 (n : UInt64) : Int := n.toBitVec.toInt

/-- `as u64`. -/
def asU64 (n : Int) : UInt64 := ⟨BitVec.ofInt 64 n⟩

@[simp] theorem asU64_asI64 (n : UInt64) : asU64 (asI64 n) = n := by
  simp [asU64, asI64]

/-- A row of `deployment_task_log_budgets`. -/
structure TaskLogRow where
  storedBytes : Int
  receivedBytes : Int
  droppedBytes : Int
  maxBytes : Int
  truncated : Bool
deriving Repr, DecidableEq

/-- A row of `deployment_step_log_buffers`. -/
structure StepLogRow where
  headContent : Bytes
  tailContent : Bytes
  storedBytes : Int
  receivedBytes : Int
  droppedBytes : Int
  headLimitBytes : Int
  tailLimitBytes : Int
  truncated : Bool
  finished : Bool
deriving Repr, DecidableEq

/-- The `CHECK` constraints of the table. -/
def TaskLogRow.checked (row : TaskLogRow) : Bool :=
  decide (0 ≤ row.storedBytes ∧ 0 ≤ row.receivedBytes ∧ 0 ≤ row.droppedBytes ∧ 0 < row.maxBytes)

/-- The `CHECK` constraints of the table. -/
def StepLogRow.checked (row : StepLogRow) : Bool :=
  decide (0 ≤ row.storedBytes ∧ 0 ≤ row.receivedBytes ∧ 0 ≤ row.droppedBytes ∧
    0 ≤ row.headLimitBytes ∧ 0 ≤ row.tailLimitBytes)

/-- The `ON CONFLICT` clause of the table. -/
def TaskLogRow.merge (row excluded : TaskLogRow) : TaskLogRow :=
  { storedBytes := max row.storedBytes excluded.storedBytes
    receivedBytes := max row.receivedBytes excluded.receivedBytes
    droppedBytes := max row.droppedBytes excluded.droppedBytes
    maxBytes := excluded.maxBytes
    truncated := row.truncated || excluded.truncated }

/-- The `ON CONFLICT` clause of the table. -/
def StepLogRow.merge (row excluded : StepLogRow) : StepLogRow :=
  if row.receivedBytes ≤ excluded.receivedBytes then
    { row with
      headContent := excluded.headContent
      tailContent := excluded.tailContent
      storedBytes := excluded.storedBytes
      receivedBytes := excluded.receivedBytes
      droppedBytes := excluded.droppedBytes
      truncated := excluded.truncated
      finished := row.finished || excluded.finished }
  else
    row

/-- What is stored of a step. -/
structure BoundedLogSnapshot where
  head : Bytes
  tail : Bytes
  storedBytes : UInt64
  receivedBytes : UInt64
  droppedBytes : UInt64
  truncated : Bool
deriving Repr, DecidableEq

/-- The snapshot of a buffer. -/
def BoundedLogBuffer.snapshot (buffer : BoundedLogBuffer) : BoundedLogSnapshot :=
  { head := buffer.head, tail := buffer.tail
    storedBytes := UInt64.ofNat (buffer.head.length + buffer.tail.length)
    receivedBytes := buffer.receivedBytes, droppedBytes := buffer.droppedBytes
    truncated := buffer.truncated }

/-- A buffer from a stored row. -/
def BoundedLogBuffer.fromPersisted (headLimit tailLimit : Nat) (head tail : Bytes)
    (receivedBytes droppedBytes : UInt64) (secrets : List Bytes) : BoundedLogBuffer :=
  { headLimit, tailLimit, head := head.take headLimit, tail := tail.drop (tail.length - tailLimit)
    receivedBytes, droppedBytes, redactor := StreamingRedactor.new secrets }

/-- A budget from a stored row. -/
def TaskLogBudget.fromUsage (maxBytes storedBytes : Nat) (receivedBytes droppedBytes : UInt64) :
    TaskLogBudget :=
  { maxBytes, storedBytes := min storedBytes maxBytes, receivedBytes, droppedBytes }

/-- What the snapshot query makes of a row. -/
def StepLogRow.snapshot (row : StepLogRow) : BoundedLogSnapshot :=
  { head := row.headContent, tail := row.tailContent, storedBytes := asU64 row.storedBytes
    receivedBytes := asU64 row.receivedBytes, droppedBytes := asU64 row.droppedBytes
    truncated := row.truncated }

/-- What is stored of a step and its task. -/
structure LogPersistenceSnapshot where
  step : BoundedLogSnapshot
  headLimit : Nat
  tailLimit : Nat
  taskMaxBytes : Nat
  taskStoredBytes : UInt64
  taskReceivedBytes : UInt64
  taskDroppedBytes : UInt64
  taskTruncated : Bool
  finished : Bool
deriving Repr, DecidableEq

/-- The values that are bound to the statement on the task. -/
def LogPersistenceSnapshot.taskRow (snapshot : LogPersistenceSnapshot) : TaskLogRow :=
  { storedBytes := asI64 snapshot.taskStoredBytes
    receivedBytes := asI64 snapshot.taskReceivedBytes
    droppedBytes := asI64 snapshot.taskDroppedBytes
    maxBytes := asI64 (UInt64.ofNat snapshot.taskMaxBytes)
    truncated := snapshot.taskTruncated }

/-- The values that are bound to the statement on the step. -/
def LogPersistenceSnapshot.stepRow (snapshot : LogPersistenceSnapshot) : StepLogRow :=
  { headContent := snapshot.step.head
    tailContent := snapshot.step.tail
    storedBytes := asI64 snapshot.step.storedBytes
    receivedBytes := asI64 snapshot.step.receivedBytes
    droppedBytes := asI64 snapshot.step.droppedBytes
    headLimitBytes := asI64 (UInt64.ofNat snapshot.headLimit)
    tailLimitBytes := asI64 (UInt64.ofNat snapshot.tailLimit)
    truncated := snapshot.step.truncated
    finished := snapshot.finished }

/-- The log of a step in memory. -/
structure ActiveStepLog where
  buffer : BoundedLogBuffer
  finished : Bool
deriving Repr, DecidableEq

/-- A task in memory and the entry of the step in it. -/
structure ActiveTaskLog where
  budget : TaskLogBudget
  step : Option ActiveStepLog
deriving Repr, DecidableEq

/-- How a call fails. -/
inductive DeploymentRetentionError
  | notFound (message : String)
  | invalidState (message : String)
  | database
deriving Repr, DecidableEq

/-- What a call does. -/
inductive LogOperation
  | appendBuffered (secrets : List Bytes) (chunk : Bytes)
  | recordDropped (secrets : List Bytes) (droppedBytes : UInt64)
  | checkpoint
  | finish
  | snapshot
deriving Repr, DecidableEq

/-- How `mutate_buffer` is called. -/
inductive BufferMutation
  | appendBuffered (secrets : List Bytes) (chunk : Bytes)
  | recordDropped (secrets : List Bytes) (droppedBytes : UInt64)
  | finish
deriving Repr, DecidableEq

/-! The arguments of `mutate_buffer`. -/

/-- The secrets that a buffer is created with. -/
def BufferMutation.secrets : BufferMutation → List Bytes
  | .appendBuffered secrets _ => secrets
  | .recordDropped secrets _ => secrets
  | .finish => []

/-- The bytes that are appended. -/
def BufferMutation.chunk : BufferMutation → Option Bytes
  | .appendBuffered _ chunk => some chunk
  | _ => none

/-- The bytes that did not get here. -/
def BufferMutation.droppedBytes : BufferMutation → UInt64
  | .recordDropped _ droppedBytes => droppedBytes
  | _ => 0

/-- Whether the log ends. -/
def BufferMutation.finishes : BufferMutation → Bool
  | .finish => true
  | _ => false

/-- The points of the calls at which others may come between. -/
inductive LogCall
  | activeTask (mutation : BufferMutation)
  | loadBudget (mutation : BufferMutation)
  | insertTask (mutation : BufferMutation) (budget : TaskLogBudget)
  | lookForStep (mutation : BufferMutation)
  | loadStep (mutation : BufferMutation)
  | insertStep (mutation : BufferMutation) (loaded : ActiveStepLog)
  | mutateStep (mutation : BufferMutation)
  | findTask (finishing : Bool)
  | takeSnapshot (finishing : Bool)
  | persist (finishing : Bool) (snapshot : LogPersistenceSnapshot)
  | findTaskToRemove (snapshot : BoundedLogSnapshot)
  | removeStep (snapshot : BoundedLogSnapshot)
  | selectSnapshot
deriving Repr, DecidableEq

/-- What is observed of the calls. A snapshot is read once and returned later. -/
inductive LogServiceEvent
  | buffered
  | read (snapshot : BoundedLogSnapshot)
  | checkpointed (snapshot : BoundedLogSnapshot)
  | finished (snapshot : BoundedLogSnapshot)
  | failed (error : DeploymentRetentionError)
  | panicked
deriving Repr, DecidableEq

/-- The service, its limits and the rows that belong to the step. -/
structure LogService where
  headLimit : UInt64
  tailLimit : UInt64
  taskLimit : UInt64
  stepExists : Bool
  budgetRow : Option TaskLogRow
  stepRow : Option StepLogRow
  task : Option ActiveTaskLog
  calls : List LogCall
deriving Repr, DecidableEq

namespace LogService

/-- The entry of the step. -/
def live (service : LogService) : Option ActiveStepLog := service.task.bind (·.step)

/-- The step in memory is replaced. -/
def setLive (service : LogService) (step : Option ActiveStepLog) : LogService :=
  { service with task := service.task.map fun task => { task with step } }

/-- The first point of an operation. -/
def begin : LogOperation → LogCall
  | .appendBuffered secrets chunk => .activeTask (.appendBuffered secrets chunk)
  | .recordDropped secrets droppedBytes => .activeTask (.recordDropped secrets droppedBytes)
  | .checkpoint => .findTask false
  | .finish => .activeTask .finish
  | .snapshot => .selectSnapshot

/-- The budget of a task that is not in memory. -/
def loadedBudget (service : LogService) : TaskLogBudget :=
  match service.budgetRow with
  | some row => TaskLogBudget.fromUsage (max row.maxBytes 1).toNat (max row.storedBytes 0).toNat
      (asU64 (max row.receivedBytes 0)) (asU64 (max row.droppedBytes 0))
  | none => TaskLogBudget.new service.taskLimit.toNat

/-- `load_step`, and the entry that is made of it. -/
def loadedStep (service : LogService) (secrets : List Bytes) : ActiveStepLog :=
  match service.stepRow with
  | some row =>
      { buffer := .fromPersisted (max row.headLimitBytes 0).toNat (max row.tailLimitBytes 0).toNat
          row.headContent row.tailContent (asU64 (max row.receivedBytes 0))
          (asU64 (max row.droppedBytes 0)) secrets
        finished := row.finished }
  | none =>
      { buffer := .fromPersisted service.headLimit.toNat service.tailLimit.toNat [] [] 0 0 secrets
        finished := false }

/-- What a mutation makes of the entry of the step and of the budget. -/
def applyMutation (mutation : BufferMutation) (step : ActiveStepLog) (budget : TaskLogBudget) :
    ActiveStepLog × TaskLogBudget :=
  let (buffer, budget) := match mutation.chunk with
    | some chunk => step.buffer.append chunk budget
    | none => (step.buffer, budget)
  let (buffer, budget) := if 0 < mutation.droppedBytes then
      buffer.recordExternalDrop mutation.droppedBytes budget
    else
      (buffer, budget)
  if mutation.finishes && !step.finished then
    let (buffer, budget) := buffer.finish budget
    (⟨buffer, true⟩, budget)
  else
    (⟨buffer, step.finished⟩, budget)

/-- What is stored after a call. -/
def persistenceSnapshot (budget : TaskLogBudget) (step : ActiveStepLog) : LogPersistenceSnapshot :=
  { step := step.buffer.snapshot, headLimit := step.buffer.headLimit
    tailLimit := step.buffer.tailLimit, taskMaxBytes := budget.maxBytes
    taskStoredBytes := UInt64.ofNat budget.storedBytes
    taskReceivedBytes := budget.receivedBytes, taskDroppedBytes := budget.droppedBytes
    taskTruncated := decide (0 < budget.droppedBytes), finished := step.finished }

/-- The transaction of `persist`. -/
def persistRows (service : LogService) (snapshot : LogPersistenceSnapshot) : Option LogService :=
  if snapshot.taskRow.checked && snapshot.stepRow.checked && service.stepExists then
    some { service with
      budgetRow := match service.budgetRow with
        | some row => some (row.merge snapshot.taskRow)
        | none => some snapshot.taskRow
      stepRow := match service.stepRow with
        | some row => some (row.merge snapshot.stepRow)
        | none => some snapshot.stepRow }
  else
    none

/-- What one step of a call leaves: the service, the next point, if any, and what is observed. -/
structure Progress where
  service : LogService
  next : Option LogCall
  event : Option LogServiceEvent

/-- One step of a call; `answers` tells whether a statement on the database succeeds. -/
def advanceCall (service : LogService) (answers : Bool) : LogCall → Progress
  | .activeTask mutation =>
      match service.task with
      | some _ => ⟨service, some (.lookForStep mutation), none⟩
      | none => ⟨service, some (.loadBudget mutation), none⟩
  | .loadBudget mutation =>
      if answers then
        ⟨service, some (.insertTask mutation service.loadedBudget), none⟩
      else
        ⟨service, none, some (.failed .database)⟩
  | .insertTask mutation budget =>
      match service.task with
      | some _ => ⟨service, some (.lookForStep mutation), none⟩
      | none => ⟨{ service with task := some ⟨budget, none⟩ }, some (.lookForStep mutation), none⟩
  | .lookForStep mutation =>
      match service.live with
      | some _ => ⟨service, some (.mutateStep mutation), none⟩
      | none => ⟨service, some (.loadStep mutation), none⟩
  | .loadStep mutation =>
      if answers then
        if service.stepExists then
          ⟨service, some (.insertStep mutation (service.loadedStep mutation.secrets)), none⟩
        else
          ⟨service, none, some (.failed (.notFound "任务步骤不存在"))⟩
      else
        ⟨service, none, some (.failed .database)⟩
  | .insertStep mutation loaded =>
      match service.live with
      | some _ => ⟨service, some (.mutateStep mutation), none⟩
      | none => ⟨service.setLive (some loaded), some (.mutateStep mutation), none⟩
  | .mutateStep mutation =>
      match service.task with
      | some ⟨budget, some step⟩ =>
          if step.finished && !mutation.finishes then
            ⟨service, none, some (.failed (.invalidState "步骤日志已经结束或不属于该任务"))⟩
          else
            let (step, budget) := applyMutation mutation step budget
            let service := { service with task := some ⟨budget, some step⟩ }
            if mutation.finishes then
              ⟨service, some (.findTask true), none⟩
            else
              ⟨service, none, some .buffered⟩
      -- the entry was removed behind the call that found or inserted it
      | _ => ⟨service, none, some .panicked⟩
  | .findTask finishing =>
      match service.task with
      | some _ => ⟨service, some (.takeSnapshot finishing), none⟩
      | none => ⟨service, if finishing then none else some .selectSnapshot,
          if finishing then some (.failed (.notFound "步骤日志不存在")) else none⟩
  | .takeSnapshot finishing =>
      match service.task with
      | some ⟨budget, some step⟩ =>
          ⟨service, some (.persist finishing (persistenceSnapshot budget step)),
            some (.read step.buffer.snapshot)⟩
      | _ => ⟨service, if finishing then none else some .selectSnapshot,
          if finishing then some (.failed (.notFound "步骤日志不存在")) else none⟩
  | .persist finishing snapshot =>
      match if answers then service.persistRows snapshot else none with
      | some service =>
          if finishing then
            ⟨service, some (.findTaskToRemove snapshot.step), none⟩
          else
            ⟨service, none, some (.checkpointed snapshot.step)⟩
      | none => ⟨service, none, some (.failed .database)⟩
  | .findTaskToRemove snapshot =>
      match service.task with
      | some _ => ⟨service, some (.removeStep snapshot), none⟩
      | none => ⟨service, none, some (.finished snapshot)⟩
  | .removeStep snapshot => ⟨service.setLive none, none, some (.finished snapshot)⟩
  | .selectSnapshot =>
      if answers then
        match service.stepRow with
        | some row => ⟨service, none, some (.read row.snapshot)⟩
        | none => ⟨service, none, some (.failed (.notFound "步骤日志不存在"))⟩
      else
        ⟨service, none, some (.failed .database)⟩

/-- What happens to the service. -/
inductive Action
  | call (operation : LogOperation)
  | advance (index : Nat) (answers : Bool)
  /-- Calls on other steps change the budget of the task and its row. -/
  | otherSteps (budget : TaskLogBudget) (budgetRow : Option TaskLogRow)
  /-- A new service on the same database; the calls of the old one are lost. -/
  | restart (headLimit tailLimit taskLimit : UInt64)
deriving Repr, DecidableEq

/-- The service after a step of the call at an index. -/
def Progress.settle (progress : Progress) (index : Nat) : LogService :=
  { progress.service with
    calls := match progress.next with
      | some call => progress.service.calls.set index call
      | none => progress.service.calls.eraseIdx index }

/-- The step of an action, if it can be taken. -/
def step (service : LogService) : Action → Option LogService
  | .call operation => some { service with calls := service.calls ++ [begin operation] }
  | .advance index answers =>
      service.calls[index]?.map fun call => (service.advanceCall answers call).settle index
  | .otherSteps budget budgetRow =>
      some { service with budgetRow, task := some ⟨budget, service.live⟩ }
  | .restart headLimit tailLimit taskLimit =>
      some { service with headLimit, tailLimit, taskLimit, task := none, calls := [] }

/-- What a step tells its caller. -/
def event (service : LogService) : Action → Option LogServiceEvent
  | .advance index answers =>
      service.calls[index]?.bind fun call => (service.advanceCall answers call).event
  | _ => none

/-- Before its first call nothing is known of a step. -/
structure Initial (service : LogService) : Prop where
  stepRow : service.stepRow = none
  task : service.task = none
  calls : service.calls = []

end LogService

/-- The log service with any number of calls on one step. -/
def logService : Transition LogService LogService.Action where
  initial := LogService.Initial
  step := LogService.step

end EasyDeploy.Retention
