import EasyDeploy.Foundation.KeptEnds
import EasyDeploy.Retention.StreamingRedactor
import Mathlib.Algebra.Group.Nat.Defs
import Mathlib.Logic.Function.Basic

/-!
# Bounded step logs under a task budget

The steps of a task record their logs in bounded buffers that draw on one
budget. Byte counters are `UInt64` and wrap like the `+=` of a release build;
lengths and limits are natural numbers.
-/

namespace EasyDeploy.Retention
open Foundation

/-- `u64::saturating_add`. -/
def saturatingAdd (left right : UInt64) : UInt64 :=
  if left.toNat + right.toNat < 2 ^ 64 then left + right else UInt64.ofNat (2 ^ 64 - 1)

/-- What the steps of a task share. -/
structure TaskLogBudget where
  maxBytes : Nat
  storedBytes : Nat
  receivedBytes : UInt64
  droppedBytes : UInt64
deriving Repr, DecidableEq

namespace TaskLogBudget

/-- Nothing has been stored. -/
def new (maxBytes : Nat) : TaskLogBudget :=
  { maxBytes, storedBytes := 0, receivedBytes := 0, droppedBytes := 0 }

/-- The bytes that may still be stored. -/
def available (budget : TaskLogBudget) : Nat := budget.maxBytes - budget.storedBytes

/-- How many of the requested bytes are granted, and the budget without them. -/
def allocate (budget : TaskLogBudget) (requested : Nat) : Nat × TaskLogBudget :=
  let allocated := min requested budget.available
  (allocated, { budget with storedBytes := budget.storedBytes + allocated })

end TaskLogBudget

/-- The beginning and the end of a step's log. -/
structure BoundedLogBuffer where
  headLimit : Nat
  tailLimit : Nat
  head : Bytes
  tail : Bytes
  receivedBytes : UInt64
  droppedBytes : UInt64
  redactor : StreamingRedactor
deriving Repr, DecidableEq

namespace BoundedLogBuffer

/-- Nothing has been logged. -/
def new (headLimit tailLimit : Nat) (secrets : List Bytes) : BoundedLogBuffer :=
  { headLimit, tailLimit, head := [], tail := [], receivedBytes := 0, droppedBytes := 0
    redactor := StreamingRedactor.new secrets }

/-- Something is missing. -/
def truncated (buffer : BoundedLogBuffer) : Bool := decide (0 < buffer.droppedBytes)

/-- Bytes that are not kept are counted. -/
def recordDrop (buffer : BoundedLogBuffer) (count : UInt64) (budget : TaskLogBudget) :
    BoundedLogBuffer × TaskLogBudget :=
  ({ buffer with droppedBytes := buffer.droppedBytes + count },
    { budget with droppedBytes := budget.droppedBytes + count })

/-- The part of `append_redacted` that fills the head; the bytes for the tail are left. -/
def fillHead (buffer : BoundedLogBuffer) (bytes : Bytes) (budget : TaskLogBudget) :
    BoundedLogBuffer × TaskLogBudget × Bytes :=
  if buffer.head.length < buffer.headLimit then
    let requested := min (buffer.headLimit - buffer.head.length) bytes.length
    let (allocated, budget) := budget.allocate requested
    let buffer := { buffer with head := buffer.head ++ bytes.take allocated }
    if allocated < requested then
      let (buffer, budget) := buffer.recordDrop (UInt64.ofNat (requested - allocated)) budget
      (buffer, budget, bytes.drop (allocated + (requested - allocated)))
    else
      (buffer, budget, bytes.drop allocated)
  else
    (buffer, budget, bytes)

/-- The part of `append_redacted` that lets the tail grow. -/
def fillTail (buffer : BoundedLogBuffer) (remaining : Bytes) (budget : TaskLogBudget) :
    BoundedLogBuffer × TaskLogBudget × Bytes :=
  if buffer.tail.length < buffer.tailLimit && !remaining.isEmpty then
    let requested := min (buffer.tailLimit - buffer.tail.length) remaining.length
    let (allocated, budget) := budget.allocate requested
    ({ buffer with tail := buffer.tail ++ remaining.take allocated }, budget,
      remaining.drop allocated)
  else
    (buffer, budget, remaining)

/-- The part of `append_redacted` that moves the tail to the latest bytes. -/
def rotateTail (buffer : BoundedLogBuffer) (remaining : Bytes) (budget : TaskLogBudget) :
    BoundedLogBuffer × TaskLogBudget :=
  if remaining.isEmpty then
    (buffer, budget)
  else
    let retained := buffer.tail.length
    if retained = 0 then
      buffer.recordDrop (UInt64.ofNat remaining.length) budget
    else if remaining.length ≥ retained then
      { buffer with tail := remaining.drop (remaining.length - retained) }.recordDrop
        (UInt64.ofNat remaining.length) budget
    else
      { buffer with tail := buffer.tail.drop remaining.length ++ remaining }.recordDrop
        (UInt64.ofNat remaining.length) budget

/-- The part of `append_redacted` behind the counting of received bytes. -/
def store (buffer : BoundedLogBuffer) (bytes : Bytes) (budget : TaskLogBudget) :
    BoundedLogBuffer × TaskLogBudget :=
  let (buffer, budget, remaining) := buffer.fillHead bytes budget
  let (buffer, budget, remaining) := buffer.fillTail remaining budget
  buffer.rotateTail remaining budget

/-- Bytes without secrets are kept where there is room. -/
def appendRedacted (buffer : BoundedLogBuffer) (bytes : Bytes) (budget : TaskLogBudget) :
    BoundedLogBuffer × TaskLogBudget :=
  if bytes.isEmpty then
    (buffer, budget)
  else
    let received := UInt64.ofNat bytes.length
    { buffer with receivedBytes := buffer.receivedBytes + received }.store bytes
      { budget with receivedBytes := budget.receivedBytes + received }

/-- A chunk of the log. -/
def append (buffer : BoundedLogBuffer) (chunk : Bytes) (budget : TaskLogBudget) :
    BoundedLogBuffer × TaskLogBudget :=
  let (redacted, redactor) := buffer.redactor.push chunk
  { buffer with redactor }.appendRedacted redacted budget

/-- The end of the log. -/
def finish (buffer : BoundedLogBuffer) (budget : TaskLogBudget) :
    BoundedLogBuffer × TaskLogBudget :=
  let (redacted, redactor) := buffer.redactor.finish
  { buffer with redactor }.appendRedacted redacted budget

/-- Bytes that did not get here are counted. -/
def recordExternalDrop (buffer : BoundedLogBuffer) (count : UInt64) (budget : TaskLogBudget) :
    BoundedLogBuffer × TaskLogBudget :=
  let buffer := { buffer with receivedBytes := saturatingAdd buffer.receivedBytes count }
  let budget := { budget with receivedBytes := saturatingAdd budget.receivedBytes count }
  buffer.recordDrop count budget

variable (buffer : BoundedLogBuffer) (bytes : Bytes) (budget : TaskLogBudget)

/-- How many bytes the head asks for. -/
def headRequest : Nat := min (buffer.headLimit - buffer.head.length) bytes.length

/-- How many bytes the head gets. -/
def headTaken : Nat := min (buffer.headRequest bytes) budget.available

/-- How many bytes the tail grows by. -/
def tailTaken : Nat :=
  min (min (buffer.tailLimit - buffer.tail.length) (bytes.length - buffer.headRequest bytes))
    (budget.available - buffer.headTaken bytes budget)

theorem headTaken_le : buffer.headTaken bytes budget ≤ buffer.headRequest bytes :=
  Nat.min_le_left _ _

theorem headRequest_le : buffer.headRequest bytes ≤ bytes.length := Nat.min_le_right _ _

theorem tailTaken_le :
    buffer.tailTaken bytes budget ≤ bytes.length - buffer.headRequest bytes :=
  (Nat.min_le_left _ _).trans (Nat.min_le_right _ _)

theorem fillHead_eq : buffer.fillHead bytes budget =
    ({ buffer with
        head := buffer.head ++ bytes.take (buffer.headTaken bytes budget)
        droppedBytes := buffer.droppedBytes +
          UInt64.ofNat (buffer.headRequest bytes - buffer.headTaken bytes budget) },
      { budget with
        storedBytes := budget.storedBytes + buffer.headTaken bytes budget
        droppedBytes := budget.droppedBytes +
          UInt64.ofNat (buffer.headRequest bytes - buffer.headTaken bytes budget) },
      bytes.drop (buffer.headRequest bytes)) := by
  have hle := buffer.headTaken_le bytes budget
  unfold headTaken headRequest at *
  unfold fillHead
  split
  · cases hgrant : budget.allocate
        (min (buffer.headLimit - buffer.head.length) bytes.length) with
    | mk allocated granted =>
        dsimp only [recordDrop]
        split
        · cases hgrant
          simp only [TaskLogBudget.allocate, Nat.add_sub_cancel' hle]
        · rename_i hall
          cases hgrant
          simp only [TaskLogBudget.allocate] at hall ⊢
          rw [Nat.le_antisymm hle (Nat.le_of_not_lt hall)]
          simp
  · rename_i hfull
    have hzero : min (buffer.headLimit - buffer.head.length) bytes.length = 0 := by omega
    simp [hzero]

theorem fillTail_eq : buffer.fillTail bytes budget =
    let grown := min (min (buffer.tailLimit - buffer.tail.length) bytes.length) budget.available
    ({ buffer with tail := buffer.tail ++ bytes.take grown },
      { budget with storedBytes := budget.storedBytes + grown }, bytes.drop grown) := by
  unfold fillTail
  split
  · rfl
  · rename_i hfull
    have hzero : min (min (buffer.tailLimit - buffer.tail.length) bytes.length)
        budget.available = 0 := by
      simp only [Bool.and_eq_true, decide_eq_true_eq, Bool.not_eq_true',
        List.isEmpty_eq_false_iff, not_and_or, not_not] at hfull
      rcases hfull with hfull | rfl
      · omega
      · simp
    simp [hzero]

theorem rotateTail_eq : buffer.rotateTail bytes budget =
    ({ buffer with
        tail := (buffer.tail ++ bytes).rtake buffer.tail.length
        droppedBytes := buffer.droppedBytes + UInt64.ofNat bytes.length },
      { budget with droppedBytes := budget.droppedBytes + UInt64.ofNat bytes.length }) := by
  unfold rotateTail
  split
  · rename_i hempty
    rw [List.isEmpty_iff.mp hempty, List.append_nil, rtake_of_length_le (Nat.le_refl _)]
    simp
  · simp only [recordDrop]
    split
    · rename_i hnone
      rw [List.eq_nil_of_length_eq_zero hnone]
      simp
    · split
      · rename_i hlong
        rw [rtake_append_right hlong]
        rfl
      · rename_i hshort
        rw [rtake_append_left (Nat.le_of_not_le hshort), List.rtake]
        congr 4
        omega

theorem store_eq : buffer.store bytes budget =
    ({ buffer with
        head := buffer.head ++ bytes.take (buffer.headTaken bytes budget)
        tail := (buffer.tail ++ bytes.drop (buffer.headRequest bytes)).rtake
          (buffer.tail.length + buffer.tailTaken bytes budget)
        droppedBytes := buffer.droppedBytes + UInt64.ofNat
          (bytes.length - buffer.headTaken bytes budget - buffer.tailTaken bytes budget) },
      { budget with
        storedBytes := budget.storedBytes + buffer.headTaken bytes budget +
          buffer.tailTaken bytes budget
        droppedBytes := budget.droppedBytes + UInt64.ofNat
          (bytes.length - buffer.headTaken bytes budget - buffer.tailTaken bytes budget) }) := by
  have htaken := buffer.headTaken_le bytes budget
  have hrequest := buffer.headRequest_le bytes
  have htail := buffer.tailTaken_le bytes budget
  have hgrown : min (min (buffer.tailLimit - buffer.tail.length)
      (bytes.length - buffer.headRequest bytes))
      (budget.maxBytes - (budget.storedBytes + buffer.headTaken bytes budget)) =
      buffer.tailTaken bytes budget := by
    rw [tailTaken, TaskLogBudget.available, Nat.sub_add_eq]
  have hdropped : bytes.length - buffer.headTaken bytes budget - buffer.tailTaken bytes budget =
      (buffer.headRequest bytes - buffer.headTaken bytes budget) +
        (bytes.length - buffer.headRequest bytes - buffer.tailTaken bytes budget) := by omega
  simp only [store, fillHead_eq, fillTail_eq, rotateTail_eq, List.length_drop,
    TaskLogBudget.available, hgrown, hdropped, UInt64.ofNat_add, UInt64.add_assoc,
    List.append_assoc, List.take_append_drop, List.length_append, List.length_take,
    Nat.min_eq_left htail]

/-- One append in closed form: the head grows, the tail grows and moves to the latest
bytes, and what is stored nowhere is counted as dropped. -/
theorem appendRedacted_eq : buffer.appendRedacted bytes budget =
    ({ buffer with
        head := buffer.head ++ bytes.take (buffer.headTaken bytes budget)
        tail := (buffer.tail ++ bytes.drop (buffer.headRequest bytes)).rtake
          (buffer.tail.length + buffer.tailTaken bytes budget)
        receivedBytes := buffer.receivedBytes + UInt64.ofNat bytes.length
        droppedBytes := buffer.droppedBytes + UInt64.ofNat
          (bytes.length - buffer.headTaken bytes budget - buffer.tailTaken bytes budget) },
      { budget with
        storedBytes := budget.storedBytes + buffer.headTaken bytes budget +
          buffer.tailTaken bytes budget
        receivedBytes := budget.receivedBytes + UInt64.ofNat bytes.length
        droppedBytes := budget.droppedBytes + UInt64.ofNat
          (bytes.length - buffer.headTaken bytes budget - buffer.tailTaken bytes budget) }) := by
  unfold appendRedacted
  split
  · rename_i hempty
    obtain rfl := List.isEmpty_iff.mp hempty
    have hnone : buffer.headTaken [] budget = 0 := by
      simpa [headRequest] using buffer.headTaken_le [] budget
    have hnone' : buffer.tailTaken [] budget = 0 := by
      simpa using buffer.tailTaken_le [] budget
    simp [hnone, hnone', rtake_of_length_le]
  · rw [store_eq]
    rfl

theorem available_appendRedacted : (buffer.appendRedacted bytes budget).2.available =
    budget.available - buffer.headTaken bytes budget - buffer.tailTaken bytes budget := by
  rw [appendRedacted_eq]
  simp only [TaskLogBudget.available, Nat.sub_add_eq]

theorem taken_le_available :
    buffer.headTaken bytes budget + buffer.tailTaken bytes budget ≤ budget.available := by
  unfold tailTaken headTaken
  omega

theorem length_head_appendRedacted : (buffer.appendRedacted bytes budget).1.head.length =
    buffer.head.length + buffer.headTaken bytes budget := by
  have hrequest := buffer.headRequest_le bytes
  have htaken := buffer.headTaken_le bytes budget
  rw [appendRedacted_eq, List.length_append, List.length_take]
  omega

theorem length_tail_appendRedacted : (buffer.appendRedacted bytes budget).1.tail.length =
    buffer.tail.length + buffer.tailTaken bytes budget := by
  have htail := buffer.tailTaken_le bytes budget
  rw [appendRedacted_eq]
  apply length_rtake
  rw [List.length_append, List.length_drop]
  omega

end BoundedLogBuffer

/-- The step logs of one task and the budget that they share. -/
structure LogTask (ι : Type*) where
  budget : TaskLogBudget
  buffers : ι → BoundedLogBuffer

/-- What happens to the logs of a task. -/
inductive LogEvent (ι : Type*)
  | append (step : ι) (chunk : Bytes)
  | finish (step : ι)
  | recordExternalDrop (step : ι) (count : UInt64)

/-- The limits and the secrets with which a step log is created. -/
structure LogLimits where
  headLimit : Nat
  tailLimit : Nat
  secrets : List Bytes

namespace LogTask

variable {ι : Type*}

/-- Every step starts with an empty buffer. -/
def start (budget : TaskLogBudget) (limits : ι → LogLimits) : LogTask ι :=
  { budget, buffers := fun step =>
      BoundedLogBuffer.new (limits step).headLimit (limits step).tailLimit (limits step).secrets }

variable [DecidableEq ι]

/-- A step's buffer and the budget after a call on them. -/
def set (task : LogTask ι) (step : ι) (result : BoundedLogBuffer × TaskLogBudget) : LogTask ι :=
  { budget := result.2, buffers := Function.update task.buffers step result.1 }

@[simp] theorem budget_set (task : LogTask ι) (step : ι)
    (result : BoundedLogBuffer × TaskLogBudget) : (task.set step result).budget = result.2 := rfl

@[simp] theorem buffers_set_self (task : LogTask ι) (step : ι)
    (result : BoundedLogBuffer × TaskLogBudget) :
    (task.set step result).buffers step = result.1 := Function.update_self _ _ _

theorem buffers_set_of_ne (task : LogTask ι) {step other : ι} (h : other ≠ step)
    (result : BoundedLogBuffer × TaskLogBudget) :
    (task.set step result).buffers other = task.buffers other := Function.update_of_ne h _ _

/-- Bytes of a step. -/
def appendRedacted (task : LogTask ι) (step : ι) (bytes : Bytes) : LogTask ι :=
  task.set step ((task.buffers step).appendRedacted bytes task.budget)

/-- Appends of redacted bytes by any steps, in the order of the list. -/
def appendAll (task : LogTask ι) : List (ι × Bytes) → LogTask ι
  | [] => task
  | (step, bytes) :: appends => (task.appendRedacted step bytes).appendAll appends

/-- One event. -/
def apply (task : LogTask ι) : LogEvent ι → LogTask ι
  | .append step chunk => task.set step ((task.buffers step).append chunk task.budget)
  | .finish step => task.set step ((task.buffers step).finish task.budget)
  | .recordExternalDrop step count =>
      task.set step ((task.buffers step).recordExternalDrop count task.budget)

/-- Events one after another. -/
def run (task : LogTask ι) : List (LogEvent ι) → LogTask ι
  | [] => task
  | event :: events => (task.apply event).run events

end LogTask

end EasyDeploy.Retention
