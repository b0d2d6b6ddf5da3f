import EasyDeploy.Retention.LogBudget

/-!
# A bounded log keeps the two ends of its stream

A step's buffer is a head and a tail of what the step has appended. Either
region is short only when the stream is or when the task budget is used up, and
the budget, once used up, stays so.
-/

namespace EasyDeploy.Retention
open Foundation

/-- What a buffer records of the bytes `s` that its step has appended. -/
structure Records (headLimit tailLimit : Nat) (s : Bytes) (buffer : BoundedLogBuffer)
    (budget : TaskLogBudget) : Prop where
  headLimit_eq : buffer.headLimit = headLimit
  tailLimit_eq : buffer.tailLimit = tailLimit
  ends : KeepsEnds headLimit tailLimit s buffer.head buffer.tail
  head_short : buffer.head.length < headLimit → buffer.head = s ∨ budget.available = 0
  tail_short : buffer.tail.length < tailLimit →
    buffer.tail = s.drop buffer.head.length ∨ budget.available = 0
  dropped_eq : buffer.droppedBytes =
    UInt64.ofNat (s.length - buffer.head.length - buffer.tail.length)

namespace Records

variable {headLimit tailLimit : Nat} {s : Bytes} {buffer : BoundedLogBuffer}
  {budget budget' : TaskLogBudget}

theorem new (headLimit tailLimit : Nat) (secrets : List Bytes) (budget : TaskLogBudget) :
    Records headLimit tailLimit [] (BoundedLogBuffer.new headLimit tailLimit secrets) budget :=
  ⟨rfl, rfl, .empty, fun _ => .inl rfl, fun _ => .inl rfl, rfl⟩

/-- Another step may use up the budget. -/
theorem mono (h : Records headLimit tailLimit s buffer budget)
    (hle : budget'.available ≤ budget.available) :
    Records headLimit tailLimit s buffer budget' :=
  { h with
    head_short := fun hlt => (h.head_short hlt).imp_right fun hzero => by omega
    tail_short := fun hlt => (h.tail_short hlt).imp_right fun hzero => by omega }

variable (h : Records headLimit tailLimit s buffer budget) (bytes : Bytes)
include h

/-- Bytes for the head are lost only when the budget is used up, and then the tail is empty. -/
theorem headTaken_cases : buffer.headTaken bytes budget = buffer.headRequest bytes ∨
    (buffer.headTaken bytes budget = budget.available ∧ buffer.tail = []) := by
  have hends := h.ends
  have hheadLimit := h.headLimit_eq
  by_cases hall : buffer.headTaken bytes budget = buffer.headRequest bytes
  · exact .inl hall
  · right
    unfold BoundedLogBuffer.headTaken BoundedLogBuffer.headRequest at *
    refine ⟨by omega, ?_⟩
    by_contra hne
    have hfull := hends.head_full hne
    omega

/-- Where the tail keeps something after an append, the head is full. -/
theorem head_full_append
    (hkept : 0 < buffer.tail.length + buffer.tailTaken bytes budget) :
    buffer.head.length + buffer.headTaken bytes budget = headLimit := by
  have hle := h.ends.head_le
  have hheadLimit := h.headLimit_eq
  rcases Nat.eq_zero_or_pos buffer.tail.length with hzero | hpos
  · have hcases := h.headTaken_cases bytes
    unfold BoundedLogBuffer.tailTaken BoundedLogBuffer.headTaken
      BoundedLogBuffer.headRequest at *
    omega
  · have hfull := h.ends.head_full (List.ne_nil_of_length_pos hpos)
    unfold BoundedLogBuffer.headTaken BoundedLogBuffer.headRequest
    omega

/-- The head takes bytes only while it holds the whole stream. -/
theorem head_whole (htaken : 0 < buffer.headTaken bytes budget) : buffer.head = s := by
  have hheadLimit := h.headLimit_eq
  unfold BoundedLogBuffer.headTaken BoundedLogBuffer.headRequest at htaken
  rcases h.head_short (by omega) with hwhole | hzero
  · exact hwhole
  · omega

theorem kept_tail : (buffer.tail ++ bytes.drop (buffer.headRequest bytes)).rtake
      (buffer.tail.length + buffer.tailTaken bytes budget) =
    (buffer.tail ++ bytes.drop (buffer.headTaken bytes budget)).rtake
      (buffer.tail.length + buffer.tailTaken bytes budget) := by
  rcases h.headTaken_cases bytes with hall | ⟨hused, hnil⟩
  · rw [hall]
  · have hzero : buffer.tailTaken bytes budget = 0 := by
      unfold BoundedLogBuffer.tailTaken
      omega
    simp [hnil, hzero]

theorem appendRedacted :
    Records headLimit tailLimit (s ++ bytes) (buffer.appendRedacted bytes budget).1
      (buffer.appendRedacted bytes budget).2 := by
  have havailable := buffer.available_appendRedacted bytes budget
  have hrequest := buffer.headRequest_le bytes
  have htaken := buffer.headTaken_le bytes budget
  have htail := buffer.tailTaken_le bytes budget
  have hheadLimit := h.headLimit_eq
  have htailLimit := h.tailLimit_eq
  have hlen := h.ends.length_le
  have hheadLen := buffer.length_head_appendRedacted bytes budget
  have htailLen := buffer.length_tail_appendRedacted bytes budget
  rw [BoundedLogBuffer.appendRedacted_eq] at havailable hheadLen htailLen ⊢
  refine ⟨hheadLimit, htailLimit, ?_, ?_, ?_, ?_⟩
  · rw [h.kept_tail bytes]
    refine h.ends.append (by omega) ?_ (h.head_whole bytes) ?_ (h.head_full_append bytes)
    · have := h.ends.head_le
      unfold BoundedLogBuffer.headTaken BoundedLogBuffer.headRequest
      omega
    · have := h.ends.tail_le
      unfold BoundedLogBuffer.tailTaken
      omega
  · intro hlt
    simp only [hheadLen] at hlt
    rw [havailable]
    rcases h.head_short (by omega) with rfl | hzero
    · rcases h.headTaken_cases bytes with hall | ⟨hused, -⟩
      · left
        have hwhole : bytes.length ≤ buffer.headTaken bytes budget := by
          unfold BoundedLogBuffer.headRequest at hall
          omega
        rw [List.take_of_length_le hwhole]
      · right
        omega
    · right
      omega
  · intro hlt
    simp only [htailLen] at hlt
    rw [havailable]
    rcases h.tail_short (by omega) with hrest | hzero
    · by_cases hused : budget.available - buffer.headTaken bytes budget -
          buffer.tailTaken bytes budget = 0
      · exact .inr hused
      · left
        simp only [hheadLen]
        have hall : buffer.headTaken bytes budget = buffer.headRequest bytes := by
          rcases h.headTaken_cases bytes with hall | ⟨hused', -⟩
          · exact hall
          · omega
        have hgrown : buffer.tailTaken bytes budget =
            bytes.length - buffer.headRequest bytes := by
          unfold BoundedLogBuffer.tailTaken at *
          omega
        rw [rtake_of_length_le (by rw [List.length_append, List.length_drop]; omega), ← hall]
        rcases Nat.eq_zero_or_pos (buffer.headTaken bytes budget) with hnone | hpos
        · rw [hnone, Nat.add_zero, List.drop_zero,
            List.drop_append_of_le_length (by omega), ← hrest]
        · have hwhole := h.head_whole bytes hpos
          rw [← List.drop_drop, hwhole, List.drop_left, hrest, hwhole, List.drop_length,
            List.nil_append]
    · exact .inr (by omega)
  · simp only [hheadLen, htailLen, h.dropped_eq]
    rw [← UInt64.ofNat_add, List.length_append]
    congr 1
    omega

omit h in
/-- Without other steps, a buffer that records the stream from an empty start holds
as much of both ends as the limits and the budget allow. -/
theorem unshared (h : Records headLimit tailLimit s buffer budget) {granted : Nat}
    (hgranted : budget.available = granted - (buffer.head.length + buffer.tail.length))
    (hstored : buffer.head.length + buffer.tail.length ≤ granted) :
    buffer.head = s.take (min headLimit granted) ∧
      buffer.tail = (s.drop buffer.head.length).rtake
        (min tailLimit (granted - buffer.head.length)) := by
  have hends := h.ends
  have hlen := hends.length_le
  have hbegins := List.prefix_iff_eq_take.mp hends.head_prefix
  have hheadLe := hends.head_le
  have htailLe := hends.tail_le
  constructor
  · by_cases hshort : buffer.head.length < headLimit
    · have hempty : buffer.tail.length = 0 := by
        by_contra hne
        have hfull := hends.head_full (List.ne_nil_of_length_pos (by omega))
        omega
      rcases h.head_short hshort with hwhole | hused
      · rw [hwhole] at hshort hstored ⊢
        rw [List.take_of_length_le (by omega)]
      · rw [show min headLimit granted = buffer.head.length by omega, ← hbegins]
    · rw [show min headLimit granted = buffer.head.length by omega, ← hbegins]
  · have hsuffix := eq_rtake_of_suffix hends.tail_suffix
    by_cases hshort : buffer.tail.length < tailLimit
    · rcases h.tail_short hshort with hwhole | hused
      · rw [← hwhole, rtake_of_length_le (by omega)]
      · rw [show min tailLimit (granted - buffer.head.length) = buffer.tail.length by omega,
          ← hsuffix]
    · rw [show min tailLimit (granted - buffer.head.length) = buffer.tail.length by omega,
        ← hsuffix]

end Records

/-- The bytes that one step appends in a sequence of appends. -/
def consumed {ι : Type*} [DecidableEq ι] (step : ι) : List (ι × Bytes) → Bytes
  | [] => []
  | (other, bytes) :: appends =>
      if other = step then bytes ++ consumed step appends else consumed step appends

namespace LogTask

variable {ι : Type*} [DecidableEq ι] {task : LogTask ι} {step : ι}

theorem available_appendRedacted_le (task : LogTask ι) (other : ι) (bytes : Bytes) :
    (task.appendRedacted other bytes).budget.available ≤ task.budget.available := by
  rw [appendRedacted, budget_set, BoundedLogBuffer.available_appendRedacted]
  omega

/-- A step's buffer records what the step appends, whatever other steps append. -/
theorem records_appendAll {headLimit tailLimit : Nat} {s : Bytes}
    (h : Records headLimit tailLimit s (task.buffers step) task.budget)
    (appends : List (ι × Bytes)) :
    Records headLimit tailLimit (s ++ consumed step appends)
      ((task.appendAll appends).buffers step) (task.appendAll appends).budget := by
  induction appends generalizing task s with
  | nil => simpa [consumed, appendAll] using h
  | cons append appends ih =>
      obtain ⟨other, bytes⟩ := append
      by_cases hother : other = step
      · subst hother
        have hstep : Records headLimit tailLimit (s ++ bytes)
            ((task.appendRedacted other bytes).buffers other)
            (task.appendRedacted other bytes).budget := by
          simpa [appendRedacted] using h.appendRedacted bytes
        simpa [consumed, appendAll] using ih hstep
      · have hstep : Records headLimit tailLimit s
            ((task.appendRedacted other bytes).buffers step)
            (task.appendRedacted other bytes).budget := by
          rw [appendRedacted, buffers_set_of_ne _ (Ne.symm hother)]
          exact h.mono (task.available_appendRedacted_le other bytes)
        simpa [consumed, appendAll, hother] using ih hstep

/-- Where one step appends alone, the budget gives what its buffer holds. -/
theorem available_appendAll_alone {granted : Nat} (appends : List (ι × Bytes))
    (halone : ∀ append ∈ appends, append.1 = step)
    (h : task.budget.available + ((task.buffers step).head.length +
      (task.buffers step).tail.length) = granted) :
    (task.appendAll appends).budget.available +
      (((task.appendAll appends).buffers step).head.length +
        ((task.appendAll appends).buffers step).tail.length) = granted := by
  induction appends generalizing task with
  | nil => exact h
  | cons append appends ih =>
      obtain ⟨other, bytes⟩ := append
      obtain rfl : other = step := halone _ List.mem_cons_self
      refine ih (fun append hmem => halone append (List.mem_cons_of_mem _ hmem)) ?_
      have htaken := (task.buffers other).taken_le_available bytes task.budget
      simp only [appendRedacted, budget_set, buffers_set_self,
        BoundedLogBuffer.available_appendRedacted, BoundedLogBuffer.length_head_appendRedacted,
        BoundedLogBuffer.length_tail_appendRedacted]
      omega

end LogTask

/-- After any appends of a task's steps, a step's buffer is a head and a tail of what the
step appended; it is marked as truncated exactly when something is missing; and a step
that has the budget for itself keeps as much as its limits and the budget allow. -/
theorem log_keeps_ends {ι : Type*} [DecidableEq ι] (budget : TaskLogBudget)
    (limits : ι → LogLimits) (appends : List (ι × Bytes)) (step : ι) :
    let buffer := ((LogTask.start budget limits).appendAll appends).buffers step
    let s := consumed step appends
    KeepsEnds (limits step).headLimit (limits step).tailLimit s buffer.head buffer.tail ∧
      (s.length < 2 ^ 64 → (buffer.truncated = false ↔ buffer.head ++ buffer.tail = s)) ∧
      ((∀ append ∈ appends, append.1 = step) →
        buffer.head = s.take (min (limits step).headLimit budget.available) ∧
        buffer.tail = (s.drop buffer.head.length).rtake
          (min (limits step).tailLimit (budget.available - buffer.head.length))) := by
  intro buffer s
  have hrecords : Records (limits step).headLimit (limits step).tailLimit s buffer
      ((LogTask.start budget limits).appendAll appends).budget := by
    have hstart : Records (limits step).headLimit (limits step).tailLimit []
        ((LogTask.start budget limits).buffers step) (LogTask.start budget limits).budget :=
      .new _ _ _ _
    simpa using LogTask.records_appendAll hstart appends
  refine ⟨hrecords.ends, ?_, ?_⟩
  · intro hsmall
    rw [hrecords.ends.append_eq_iff, BoundedLogBuffer.truncated, hrecords.dropped_eq,
      decide_eq_false_iff_not, UInt64.lt_iff_toNat_lt, UInt64.toNat_ofNat', UInt64.toNat_zero,
      Nat.mod_eq_of_lt (by omega), Nat.pos_iff_ne_zero, not_not]
  · intro halone
    have hstart : (LogTask.start budget limits).budget.available +
        (((LogTask.start budget limits).buffers step).head.length +
          ((LogTask.start budget limits).buffers step).tail.length) = budget.available := rfl
    have hgranted : ((LogTask.start budget limits).appendAll appends).budget.available +
        (buffer.head.length + buffer.tail.length) = budget.available :=
      LogTask.available_appendAll_alone appends halone hstart
    exact hrecords.unshared (by omega) (by omega)

end EasyDeploy.Retention
