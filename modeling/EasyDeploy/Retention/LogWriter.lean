import EasyDeploy.Foundation.Transition
import EasyDeploy.Retention.StreamingRedactor

/-!
# The writer of a step log

Calls of `write` redact what a command says and put it in chunks into a bounded queue; a
chunk that finds the queue full is counted as dropped. A task takes the chunks out and hands
them to the log service when there are enough of them, when its timer ticks and when a
barrier comes out of the queue. `finish_redaction` is called once, after the calls of
`write`, and sends a barrier of its own behind the last bytes.
-/

namespace EasyDeploy.Retention
open Foundation

/-- So many bytes are handed over at once. -/
def flushBytes : Nat := 1024 * 1024

/-- How many messages wait at most. -/
def writerCapacity : Nat := 256

/-- The greatest chunk of a message. -/
def writerChunkBytes : Nat := 16 * 1024

/-- The chunks of a text. -/
def chunksLoop (size : Nat) : Nat → Bytes → List Bytes
  | 0, _ => []
  | rounds + 1, bytes =>
      if bytes = [] then [] else bytes.take size :: chunksLoop size rounds (bytes.drop size)

/-- `slice::chunks`. -/
def chunks (size : Nat) (bytes : Bytes) : List Bytes := chunksLoop size bytes.length bytes

/-- The barrier of `finish_redaction` has no number. -/
inductive WriterMessage
  | chunk (bytes : Bytes)
  | barrier (call : Option Nat)
deriving Repr, DecidableEq

/-- A call of `enqueue`, with the chunks that it has still to send. -/
inductive EnqueueStage
  | sending (remaining : List Bytes)
  /-- The queue was full for a chunk of so many bytes. -/
  | counting (refused : Nat) (remaining : List Bytes)
deriving Repr, DecidableEq

/-- A call that sends a barrier and waits for the answer. -/
inductive BarrierStage
  | idle
  | sending
  | waiting
  | answered (ok : Bool)
  /-- Nobody waits for the answer any longer. -/
  | abandoned
deriving Repr, DecidableEq

/-- A call whose answer will not come. -/
def BarrierStage.unanswered : BarrierStage → BarrierStage
  | .waiting => .answered false
  | stage => stage

/-- Why the bytes are handed over. -/
inductive FlushTrigger
  | size
  | tick
  | barrier (call : Option Nat)
deriving Repr, DecidableEq

/-- Where the task is; the steps of a flush know whether it has changed the log. -/
inductive WriterStage
  | idle
  | append (trigger : FlushTrigger)
  | swap (trigger : FlushTrigger) (changed : Bool)
  | record (trigger : FlushTrigger) (changed : Bool) (dropped : Nat)
  | checkpoint
  | stopped
deriving Repr, DecidableEq

/-- The queue with the calls and the task behind it. -/
structure LogWriter where
  redactor : StreamingRedactor
  queue : List WriterMessage
  /-- An `AtomicU64`, which would wrap after 2 ^ 64 refused bytes between two recordings. -/
  droppedBytes : Nat
  /-- The calls of `enqueue` that are under way. -/
  writes : List EnqueueStage
  flushes : List BarrierStage
  finish : BarrierStage
  writer : WriterStage
  /-- The chunks that the buffer is made of. -/
  pending : List Bytes
  dirty : Bool
  /-- The redacted bytes so far. -/
  produced : Nat
  /-- The chunks in the order of their calls of `try_send`, with those that the queue took. -/
  enqueued : List (Bytes × Bool)
  /-- The chunks of each successful call of `append_buffered`. -/
  handedOver : List (List Bytes)
  /-- The sum of the successful calls of `record_dropped`. -/
  recorded : Nat
  /-- Bytes that came when the task had stopped. -/
  lost : Nat
deriving Repr, DecidableEq

namespace LogWriter

/-- Nothing has been written. -/
def new (secrets : List Bytes) : LogWriter where
  redactor := .new secrets
  queue := []
  droppedBytes := 0
  writes := []
  flushes := []
  finish := .idle
  writer := .idle
  pending := []
  dirty := false
  produced := 0
  enqueued := []
  handedOver := []
  recorded := 0
  lost := 0

/-- The steps of the calls and of the task. -/
inductive Action
  | write (chunk : Bytes)
  | finishRedaction
  /-- With the places in the queue that are promised to barriers. -/
  | enqueue (index reserved : Nat)
  | flush
  | sendBarrier (call : Option Nat)
  | abandon (index : Nat)
  | receive
  | tick
  /-- The calls of the log service and their outcomes. -/
  | append (ok : Bool)
  | swap
  | record (ok : Bool)
  /-- Not yet due, or done with this outcome. -/
  | checkpoint (outcome : Option Bool)
  | stop
deriving Repr, DecidableEq

variable (state : LogWriter)

/-- A call of `enqueue` begins with what the redactor has shown. -/
def begin (redacted : Bytes × StreamingRedactor) : LogWriter :=
  { state with
    redactor := redacted.2
    writes := state.writes ++ [.sending (chunks writerChunkBytes redacted.1)]
    produced := state.produced + redacted.1.length }

/-- The next step of a call. A stopped task has dropped the receiver. -/
def advance (index reserved : Nat) : EnqueueStage → LogWriter
  | .counting refused remaining =>
      { state with
        droppedBytes := state.droppedBytes + refused
        writes := state.writes.set index (.sending remaining) }
  | .sending [] => { state with writes := state.writes.eraseIdx index }
  | .sending (chunk :: remaining) =>
      if state.writer = .stopped then
        { state with
          writes := state.writes.eraseIdx index
          finish := if state.finish = .sending then .answered false else state.finish
          lost := state.lost + (chunk :: remaining).flatten.length }
      else if state.queue.length + reserved < writerCapacity then
        { state with
          queue := state.queue ++ [.chunk chunk]
          writes := state.writes.set index (.sending remaining)
          enqueued := state.enqueued ++ [(chunk, true)] }
      else
        { state with
          writes := state.writes.set index (.counting chunk.length remaining)
          enqueued := state.enqueued ++ [(chunk, false)] }

/-- How far a call for everything before it is. -/
def barrier : Option Nat → Option BarrierStage
  | none => some state.finish
  | some index => state.flushes[index]?

/-- Such a call moves on. -/
def setBarrier (call : Option Nat) (stage : BarrierStage) : LogWriter :=
  match call with
  | none => { state with finish := stage }
  | some index => { state with flushes := state.flushes.set index stage }

/-- Only who waits gets the answer. -/
def reply (call : Option Nat) (ok : Bool) : LogWriter :=
  if state.barrier call = some .waiting then state.setBarrier call (.answered ok) else state

/-- The task after a flush, which may have changed the log. -/
def settle (changed : Option Bool) : FlushTrigger → LogWriter
  | .size => { state with writer := .idle, dirty := state.dirty || changed.getD false }
  | .tick =>
      let dirty := state.dirty || changed.getD false
      { state with writer := if dirty then .checkpoint else .idle, dirty }
  | .barrier call =>
      { state with writer := .idle, dirty := state.dirty || changed.getD false }.reply call
        changed.isSome

/-- The task takes a message. -/
def take : List WriterMessage → Option LogWriter
  | [] => none
  | .chunk bytes :: rest =>
      let pending := state.pending ++ [bytes]
      some { state with
        queue := rest
        pending
        writer := if flushBytes ≤ pending.flatten.length then .append .size else .idle }
  | .barrier call :: rest => some { state with queue := rest, writer := .append (.barrier call) }

/-- The step of an action, if it can be taken. -/
def step : Action → Option LogWriter
  | .write chunk =>
      if chunk ≠ [] ∧ state.finish = .idle then some (state.begin (state.redactor.push chunk))
      else none
  | .finishRedaction =>
      if state.finish = .idle ∧ state.writes = [] then
        some { state.begin state.redactor.finish with finish := .sending }
      else none
  | .enqueue index reserved =>
      if reserved ≤ state.flushes.count .sending then
        (state.writes[index]?).map (state.advance index reserved)
      else none
  | .flush => some { state with flushes := state.flushes ++ [.sending] }
  | .sendBarrier call =>
      if state.barrier call ≠ some .sending ∨ (call = none ∧ state.writes ≠ []) then none
      else if state.writer = .stopped then some (state.setBarrier call (.answered false))
      else if state.queue.length < writerCapacity then
        some { state.setBarrier call .waiting with queue := state.queue ++ [.barrier call] }
      else none
  | .abandon index =>
      if index < state.flushes.length then
        some (state.setBarrier (some index) .abandoned)
      else none
  | .receive => if state.writer = .idle then state.take state.queue else none
  | .tick => if state.writer = .idle then some { state with writer := .append .tick } else none
  | .append ok =>
      match state.writer with
      | .append trigger =>
          if state.pending.flatten = [] then some { state with writer := .swap trigger false }
          else if ok then
            some { state with
              writer := .swap trigger true
              pending := []
              handedOver := state.handedOver ++ [state.pending] }
          else some (state.settle none trigger)
      | _ => none
  | .swap =>
      match state.writer with
      | .swap trigger changed =>
          if state.droppedBytes = 0 then some (state.settle (some changed) trigger)
          else
            some { state with
              writer := .record trigger changed state.droppedBytes
              droppedBytes := 0 }
      | _ => none
  | .record ok =>
      match state.writer with
      | .record trigger _ dropped =>
          if ok then
            some ({ state with recorded := state.recorded + dropped }.settle (some true) trigger)
          else
            some ({ state with droppedBytes := state.droppedBytes + dropped }.settle none trigger)
      | _ => none
  | .checkpoint outcome =>
      if state.writer = .checkpoint then
        some { state with
          writer := .idle
          dirty := if outcome = some true then false else state.dirty }
      else none
  | .stop =>
      some { state with
        writer := .stopped
        finish := state.finish.unanswered
        flushes := state.flushes.map BarrierStage.unanswered }

end LogWriter

/-- One sink with its task, and the calls of a deployment. -/
def logWriter : Transition LogWriter LogWriter.Action where
  initial state := ∃ secrets, state = .new secrets
  step := LogWriter.step

end EasyDeploy.Retention
