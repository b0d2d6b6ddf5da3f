import EasyDeploy.Retention.LogBudget
import Mathlib.Algebra.BigOperators.Group.Finset.Basic
import Mathlib.Algebra.Order.BigOperators.Group.Finset
import Mathlib.Data.Fintype.BigOperators

/-!
# Byte accounting of the step logs

Every byte that reaches a step's buffer is either stored, and then drawn from
the task budget, or counted as dropped. The counters of the budget are the sums
of the counters of the buffers.
-/

namespace EasyDeploy.Retention
open Foundation

theorem toNat_add_ofNat {counter : UInt64} {n : Nat} (h : counter.toNat + n < 2 ^ 64) :
    (counter + UInt64.ofNat n).toNat = counter.toNat + n := by
  rw [UInt64.toNat_add, UInt64.toNat_ofNat', Nat.add_mod_mod, Nat.mod_eq_of_lt h]

theorem toNat_add_of_lt {left right : UInt64} (h : left.toNat + right.toNat < 2 ^ 64) :
    (left + right).toNat = left.toNat + right.toNat := by
  rw [UInt64.toNat_add, Nat.mod_eq_of_lt h]

theorem toNat_saturatingAdd {left right : UInt64} (h : left.toNat + right.toNat < 2 ^ 64) :
    (saturatingAdd left right).toNat = left.toNat + right.toNat := by
  rw [saturatingAdd, if_pos h, toNat_add_of_lt h]

/-- Changing one summand changes the sum by as much. -/
theorem sum_update {ι β : Type*} [Fintype ι] [DecidableEq ι] (f : ι → β) (measure : β → Nat)
    (step : ι) (value : β) {n : Nat} (h : measure value = measure (f step) + n) :
    ∑ i, measure (Function.update f step value i) = (∑ i, measure (f i)) + n := by
  rw [← Finset.add_sum_erase _ _ (Finset.mem_univ step),
    ← Finset.add_sum_erase _ (fun i => measure (f i)) (Finset.mem_univ step),
    Function.update_self, h]
  have hrest : ∑ i ∈ Finset.univ.erase step, measure (Function.update f step value i) =
      ∑ i ∈ Finset.univ.erase step, measure (f i) := by
    refine Finset.sum_congr rfl fun i hi => ?_
    rw [Function.update_of_ne (Finset.ne_of_mem_erase hi)]
  rw [hrest]
  omega

/-- The bytes that a step keeps. -/
def BoundedLogBuffer.storedBytes (buffer : BoundedLogBuffer) : Nat :=
  buffer.head.length + buffer.tail.length

variable {ι : Type*} [DecidableEq ι]

/-- The bytes that a call adds to the received bytes. -/
def LogEvent.offered (task : LogTask ι) : LogEvent ι → Nat
  | .append step chunk => ((task.buffers step).redactor.push chunk).1.length
  | .finish step => (task.buffers step).redactor.finish.1.length
  | .recordExternalDrop _ count => count.toNat

/-- The bytes that a sequence of calls adds to the received bytes. -/
def LogTask.offered (task : LogTask ι) : List (LogEvent ι) → Nat
  | [] => 0
  | event :: events => event.offered task + (task.apply event).offered events

variable [Fintype ι]

/-- What is kept and what is counted of a task. -/
structure LogTask.Accounted (task : LogTask ι) : Prop where
  stored_eq : task.budget.storedBytes = ∑ step, (task.buffers step).storedBytes
  stored_le : task.budget.storedBytes ≤ task.budget.maxBytes
  received_split : ∀ step, (task.buffers step).receivedBytes.toNat =
    (task.buffers step).storedBytes + (task.buffers step).droppedBytes.toNat
  received_eq : task.budget.receivedBytes.toNat =
    ∑ step, (task.buffers step).receivedBytes.toNat
  dropped_eq : task.budget.droppedBytes.toNat =
    ∑ step, (task.buffers step).droppedBytes.toNat

/-- What a call changes that stores and drops as many bytes as it receives. -/
structure Charged (buffer : BoundedLogBuffer) (budget : TaskLogBudget)
    (after : BoundedLogBuffer × TaskLogBudget) (stored dropped : Nat) : Prop where
  maxBytes_eq : after.2.maxBytes = budget.maxBytes
  stored_le : stored ≤ budget.available
  stored_budget : after.2.storedBytes = budget.storedBytes + stored
  stored_buffer : after.1.storedBytes = buffer.storedBytes + stored
  received_budget : after.2.receivedBytes.toNat =
    budget.receivedBytes.toNat + (stored + dropped)
  received_buffer : after.1.receivedBytes.toNat =
    buffer.receivedBytes.toNat + (stored + dropped)
  dropped_budget : after.2.droppedBytes.toNat = budget.droppedBytes.toNat + dropped
  dropped_buffer : after.1.droppedBytes.toNat = buffer.droppedBytes.toNat + dropped

namespace LogTask.Accounted

variable {task : LogTask ι}

omit [DecidableEq ι] in
theorem start (maxBytes : Nat) (limits : ι → LogLimits) :
    (LogTask.start (TaskLogBudget.new maxBytes) limits).Accounted where
  stored_eq := by simp [LogTask.start, TaskLogBudget.new, BoundedLogBuffer.new,
    BoundedLogBuffer.storedBytes]
  stored_le := Nat.zero_le _
  received_split := fun _ => rfl
  received_eq := by simp [LogTask.start, TaskLogBudget.new, BoundedLogBuffer.new]
  dropped_eq := by simp [LogTask.start, TaskLogBudget.new, BoundedLogBuffer.new]

omit [DecidableEq ι] in
/-- No counter exceeds the received bytes of the budget. -/
theorem counters_le (h : task.Accounted) (step : ι) :
    (task.buffers step).receivedBytes.toNat ≤ task.budget.receivedBytes.toNat ∧
      (task.buffers step).droppedBytes.toNat ≤ task.budget.receivedBytes.toNat ∧
      task.budget.droppedBytes.toNat ≤ task.budget.receivedBytes.toNat := by
  have hstep : (task.buffers step).receivedBytes.toNat ≤ task.budget.receivedBytes.toNat := by
    rw [h.received_eq]
    exact Finset.single_le_sum (f := fun i => (task.buffers i).receivedBytes.toNat)
      (fun _ _ => Nat.zero_le _) (Finset.mem_univ step)
  refine ⟨hstep, ?_, ?_⟩
  · have hsplit := h.received_split step
    omega
  · rw [h.received_eq, h.dropped_eq]
    refine Finset.sum_le_sum fun i _ => ?_
    have hsplit := h.received_split i
    omega

/-- A call that is charged for what it receives keeps the accounts. -/
theorem set (h : task.Accounted) (step : ι) {after : BoundedLogBuffer × TaskLogBudget}
    {stored dropped : Nat}
    (hcharged : Charged (task.buffers step) task.budget after stored dropped) :
    (task.set step after).Accounted where
  stored_eq := by
    rw [budget_set, hcharged.stored_budget, h.stored_eq]
    exact (sum_update task.buffers BoundedLogBuffer.storedBytes step after.1
      hcharged.stored_buffer).symm
  stored_le := by
    have hroom := hcharged.stored_le
    have hle := h.stored_le
    rw [TaskLogBudget.available] at hroom
    rw [budget_set, hcharged.maxBytes_eq, hcharged.stored_budget]
    omega
  received_split := by
    intro other
    by_cases hother : other = step
    · subst hother
      have hsplit := h.received_split other
      rw [buffers_set_self, hcharged.received_buffer, hcharged.stored_buffer,
        hcharged.dropped_buffer]
      omega
    · rw [buffers_set_of_ne _ hother]
      exact h.received_split other
  received_eq := by
    rw [budget_set, hcharged.received_budget, h.received_eq]
    exact (sum_update task.buffers (fun buffer => buffer.receivedBytes.toNat) step after.1
      hcharged.received_buffer).symm
  dropped_eq := by
    rw [budget_set, hcharged.dropped_budget, h.dropped_eq]
    exact (sum_update task.buffers (fun buffer => buffer.droppedBytes.toNat) step after.1
      hcharged.dropped_buffer).symm

end LogTask.Accounted

/-- Appended bytes are charged: stored in the head or the tail, or dropped. -/
theorem BoundedLogBuffer.charged_appendRedacted (buffer : BoundedLogBuffer) (bytes : Bytes)
    (budget : TaskLogBudget)
    (hbuffer : buffer.receivedBytes.toNat + bytes.length < 2 ^ 64)
    (hbuffer' : buffer.droppedBytes.toNat + bytes.length < 2 ^ 64)
    (hbudget : budget.receivedBytes.toNat + bytes.length < 2 ^ 64)
    (hbudget' : budget.droppedBytes.toNat + bytes.length < 2 ^ 64) :
    ∃ stored dropped, stored + dropped = bytes.length ∧
      Charged buffer budget (buffer.appendRedacted bytes budget) stored dropped := by
  have htaken := buffer.taken_le_available bytes budget
  have hhead := buffer.length_head_appendRedacted bytes budget
  have htail := buffer.length_tail_appendRedacted bytes budget
  have hrequest := buffer.headRequest_le bytes
  have hheadTaken := buffer.headTaken_le bytes budget
  have htailTaken := buffer.tailTaken_le bytes budget
  refine ⟨buffer.headTaken bytes budget + buffer.tailTaken bytes budget,
    bytes.length - buffer.headTaken bytes budget - buffer.tailTaken bytes budget, by omega, ?_⟩
  have hall : buffer.headTaken bytes budget + buffer.tailTaken bytes budget +
      (bytes.length - buffer.headTaken bytes budget - buffer.tailTaken bytes budget) =
      bytes.length := by omega
  constructor
  · rw [appendRedacted_eq]
  · exact htaken
  · rw [appendRedacted_eq, Nat.add_assoc]
  · rw [storedBytes, hhead, htail, storedBytes]
    omega
  · rw [appendRedacted_eq, hall, toNat_add_ofNat hbudget]
  · rw [appendRedacted_eq, hall, toNat_add_ofNat hbuffer]
  · rw [appendRedacted_eq, toNat_add_ofNat (by omega)]
  · rw [appendRedacted_eq, toNat_add_ofNat (by omega)]

namespace LogTask

variable {task : LogTask ι}

/-- Every call is charged for what it offers. -/
theorem Accounted.charged (h : task.Accounted) (event : LogEvent ι)
    (hbound : task.budget.receivedBytes.toNat + event.offered task < 2 ^ 64) :
    ∃ step after stored dropped, task.apply event = task.set step after ∧
      stored + dropped = event.offered task ∧
      Charged (task.buffers step) task.budget after stored dropped := by
  have happend : ∀ (step : ι) (redactor : StreamingRedactor) (bytes : Bytes),
      task.budget.receivedBytes.toNat + bytes.length < 2 ^ 64 →
      ∃ stored dropped, stored + dropped = bytes.length ∧
        Charged (task.buffers step) task.budget
          ({ task.buffers step with redactor }.appendRedacted bytes task.budget)
          stored dropped := by
    intro step redactor bytes hbytes
    obtain ⟨hreceived, hdropped, hbudget⟩ := h.counters_le step
    obtain ⟨stored, dropped, hall, hcharged⟩ :=
      BoundedLogBuffer.charged_appendRedacted { task.buffers step with redactor } bytes
        task.budget (Nat.lt_of_le_of_lt (Nat.add_le_add_right hreceived _) hbytes)
        (Nat.lt_of_le_of_lt (Nat.add_le_add_right hdropped _) hbytes) hbytes (by omega)
    exact ⟨stored, dropped, hall, { hcharged with }⟩
  cases event with
  | append step chunk =>
      obtain ⟨stored, dropped, hall, hcharged⟩ := happend step _ _ hbound
      exact ⟨step, _, stored, dropped, rfl, hall, hcharged⟩
  | finish step =>
      obtain ⟨stored, dropped, hall, hcharged⟩ := happend step _ _ hbound
      exact ⟨step, _, stored, dropped, rfl, hall, hcharged⟩
  | recordExternalDrop step count =>
      obtain ⟨hreceived, hdropped, hbudget⟩ := h.counters_le step
      have hbound : task.budget.receivedBytes.toNat + count.toNat < 2 ^ 64 := hbound
      refine ⟨step, _, 0, count.toNat, rfl, Nat.zero_add _, rfl, Nat.zero_le _, rfl, rfl,
        ?_, ?_, toNat_add_of_lt ?_, toNat_add_of_lt ?_⟩
      · rw [Nat.zero_add]
        exact toNat_saturatingAdd hbound
      · rw [Nat.zero_add]
        exact toNat_saturatingAdd (by omega)
      · exact Nat.lt_of_le_of_lt (Nat.add_le_add_right hbudget _) hbound
      · exact Nat.lt_of_le_of_lt (Nat.add_le_add_right hdropped _) hbound

/-- One call keeps the accounts and the size of the budget, and adds what it offers. -/
theorem Accounted.apply (h : task.Accounted) (event : LogEvent ι)
    (hbound : task.budget.receivedBytes.toNat + event.offered task < 2 ^ 64) :
    (task.apply event).Accounted ∧
      (task.apply event).budget.maxBytes = task.budget.maxBytes ∧
      (task.apply event).budget.receivedBytes.toNat =
        task.budget.receivedBytes.toNat + event.offered task := by
  obtain ⟨step, after, stored, dropped, heq, hall, hcharged⟩ := h.charged event hbound
  rw [heq, ← hall]
  exact ⟨h.set step hcharged, hcharged.maxBytes_eq, hcharged.received_budget⟩

/-- Any calls keep the accounts, as long as the received bytes fit into the counters. -/
theorem Accounted.run (h : task.Accounted) (events : List (LogEvent ι))
    (hbound : task.budget.receivedBytes.toNat + task.offered events < 2 ^ 64) :
    (task.run events).Accounted ∧
      (task.run events).budget.maxBytes = task.budget.maxBytes := by
  induction events generalizing task with
  | nil => exact ⟨h, rfl⟩
  | cons event events ih =>
      rw [LogTask.offered] at hbound
      obtain ⟨hstep, hmax, hreceived⟩ := h.apply event (by omega)
      rw [← hmax]
      exact ih hstep (by omega)

end LogTask

/-- After any calls on the buffers that share a budget, the stored bytes are those of the
buffers and within the budget, every buffer has stored or dropped what it received, and
the counters of the budget are the sums of those of the buffers. -/
theorem log_bytes_accounted (maxBytes : Nat) (limits : ι → LogLimits)
    (events : List (LogEvent ι))
    (hbound : (LogTask.start (TaskLogBudget.new maxBytes) limits).offered events < 2 ^ 64) :
    let task := (LogTask.start (TaskLogBudget.new maxBytes) limits).run events
    task.budget.storedBytes =
        ∑ step, ((task.buffers step).head.length + (task.buffers step).tail.length) ∧
      task.budget.storedBytes ≤ maxBytes ∧
      (∀ step, (task.buffers step).receivedBytes.toNat =
        (task.buffers step).head.length + (task.buffers step).tail.length +
          (task.buffers step).droppedBytes.toNat) ∧
      task.budget.receivedBytes.toNat =
        ∑ step, (task.buffers step).receivedBytes.toNat ∧
      task.budget.droppedBytes.toNat =
        ∑ step, (task.buffers step).droppedBytes.toNat := by
  intro task
  obtain ⟨haccounted, hmax⟩ := (LogTask.Accounted.start maxBytes limits).run events
    (show 0 + _ < _ by rw [Nat.zero_add]; exact hbound)
  have hle := haccounted.stored_le
  rw [hmax] at hle
  exact ⟨haccounted.stored_eq, hle, haccounted.received_split, haccounted.received_eq,
    haccounted.dropped_eq⟩

/-- Two steps under a budget of eight bytes, with a chunk, an end and an external drop. -/
theorem log_bytes_accounted_two_steps :
    let limits : Bool → LogLimits := fun _ => ⟨4, 4, []⟩
    let events := [.append false (ascii "abcdefgh"), .finish false, .append true (ascii "ijkl"),
      .finish true, .recordExternalDrop true 5]
    let task := (LogTask.start (TaskLogBudget.new 8) limits).run events
    task.budget.storedBytes = 8 ∧ task.budget.receivedBytes.toNat = 17 ∧
      task.budget.droppedBytes.toNat =
        ∑ step, (task.buffers step).droppedBytes.toNat := by
  intro limits events task
  have haccounted := log_bytes_accounted 8 limits events (by decide +kernel)
  exact ⟨by decide +kernel, by decide +kernel, haccounted.2.2.2.2⟩

end EasyDeploy.Retention
