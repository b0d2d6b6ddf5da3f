import EasyDeploy.Retention.LogAccounting
import EasyDeploy.Retention.LogService

/-!
# Step logs in memory and in their rows

A buffer, its row and a snapshot of it hold the same log. Of two states of one
log the later one counts more received bytes or is the same.
-/

namespace EasyDeploy.Retention
open Foundation

/-- The second snapshot was taken after the first of the same log: it counts more received bytes or,
as long as they can be stored, is the same. -/
structure BoundedLogSnapshot.Precedes (first later : BoundedLogSnapshot) : Prop where
  received_le : first.receivedBytes.toNat ≤ later.receivedBytes.toNat
  same : first.receivedBytes.toNat = later.receivedBytes.toNat →
    later.receivedBytes.toNat < 2 ^ 63 → first = later

namespace BoundedLogSnapshot.Precedes

variable {first second third : BoundedLogSnapshot}

theorem refl (snapshot : BoundedLogSnapshot) : snapshot.Precedes snapshot := ⟨le_rfl, fun _ _ => rfl⟩

theorem trans (h : first.Precedes second) (h' : second.Precedes third) : first.Precedes third where
  received_le := h.received_le.trans h'.received_le
  same heq hlt := by
    have hle := h.received_le
    have hle' := h'.received_le
    rw [h.same (by omega) (by omega), h'.same (by omega) hlt]

end BoundedLogSnapshot.Precedes

namespace BoundedLogBuffer

/-- The kept bytes are within the limits, and these are `usize` values. -/
structure Fits (buffer : BoundedLogBuffer) : Prop where
  head_le : buffer.head.length ≤ buffer.headLimit
  tail_le : buffer.tail.length ≤ buffer.tailLimit
  headLimit_lt : buffer.headLimit < 2 ^ 64
  tailLimit_lt : buffer.tailLimit < 2 ^ 64

/-- How much is kept of a step. -/
def limits (buffer : BoundedLogBuffer) : Nat × Nat := (buffer.headLimit, buffer.tailLimit)

/-- What a call makes of a buffer: limits stay, and the snapshot comes later. -/
structure Grows (buffer after : BoundedLogBuffer) : Prop where
  fits : buffer.Fits → after.Fits
  limits : after.limits = buffer.limits
  precedes : buffer.snapshot.Precedes after.snapshot

variable {buffer : BoundedLogBuffer} {budget : TaskLogBudget}

theorem grows_appendRedacted {bytes : Bytes}
    (hroom : buffer.receivedBytes.toNat + bytes.length < 2 ^ 64) :
    buffer.Grows (buffer.appendRedacted bytes budget).1 where
  fits h := by
    have hhead := buffer.headTaken_le bytes budget
    have htail : buffer.tailTaken bytes budget ≤ buffer.tailLimit - buffer.tail.length :=
      (Nat.min_le_left _ _).trans (Nat.min_le_left _ _)
    have hrequest : buffer.headRequest bytes ≤ buffer.headLimit - buffer.head.length :=
      Nat.min_le_left _ _
    have hheadLe := h.head_le
    have htailLe := h.tail_le
    refine ⟨?_, ?_, ?_, ?_⟩
    · rw [length_head_appendRedacted, appendRedacted_eq]
      show _ ≤ buffer.headLimit
      omega
    · rw [length_tail_appendRedacted, appendRedacted_eq]
      show _ ≤ buffer.tailLimit
      omega
    · rw [appendRedacted_eq]
      exact h.headLimit_lt
    · rw [appendRedacted_eq]
      exact h.tailLimit_lt
  limits := by
    rw [appendRedacted_eq]
    rfl
  precedes := by
    by_cases hempty : bytes = []
    · rw [appendRedacted, if_pos (List.isEmpty_iff.mpr hempty)]
      exact .refl _
    · have hreceived : (buffer.appendRedacted bytes budget).1.snapshot.receivedBytes.toNat =
          buffer.receivedBytes.toNat + bytes.length := by
        rw [appendRedacted_eq]
        exact toNat_add_ofNat hroom
      have hlength := List.length_pos_of_ne_nil hempty
      refine ⟨?_, fun heq _ => ?_⟩
      · rw [hreceived]
        exact Nat.le_add_right _ _
      · rw [hreceived] at heq
        simp only [snapshot] at heq
        omega

theorem grows_append {chunk : Bytes}
    (hroom : buffer.receivedBytes.toNat + (buffer.redactor.push chunk).1.length < 2 ^ 64) :
    buffer.Grows (buffer.append chunk budget).1 := by
  let pushed : BoundedLogBuffer := { buffer with redactor := (buffer.redactor.push chunk).2 }
  have hgrows : pushed.Grows (pushed.appendRedacted _ budget).1 := grows_appendRedacted hroom
  exact ⟨fun h => hgrows.fits ⟨h.head_le, h.tail_le, h.headLimit_lt, h.tailLimit_lt⟩,
    hgrows.limits, hgrows.precedes⟩

theorem grows_finish
    (hroom : buffer.receivedBytes.toNat + buffer.redactor.finish.1.length < 2 ^ 64) :
    buffer.Grows (buffer.finish budget).1 := by
  let finished : BoundedLogBuffer := { buffer with redactor := buffer.redactor.finish.2 }
  have hgrows : finished.Grows (finished.appendRedacted _ budget).1 := grows_appendRedacted hroom
  exact ⟨fun h => hgrows.fits ⟨h.head_le, h.tail_le, h.headLimit_lt, h.tailLimit_lt⟩,
    hgrows.limits, hgrows.precedes⟩

theorem grows_recordExternalDrop {count : UInt64} (hcount : 0 < count) :
    buffer.Grows (buffer.recordExternalDrop count budget).1 where
  fits h := ⟨h.head_le, h.tail_le, h.headLimit_lt, h.tailLimit_lt⟩
  limits := rfl
  precedes := by
    have hpos : 0 < count.toNat := UInt64.lt_iff_toNat_lt.mp hcount
    have hlt := buffer.receivedBytes.toNat_lt
    have hreceived : (buffer.recordExternalDrop count budget).1.snapshot.receivedBytes =
        saturatingAdd buffer.receivedBytes count := rfl
    have hcases : (saturatingAdd buffer.receivedBytes count).toNat =
        min (buffer.receivedBytes.toNat + count.toNat) (2 ^ 64 - 1) := by
      by_cases hroom : buffer.receivedBytes.toNat + count.toNat < 2 ^ 64
      · rw [toNat_saturatingAdd hroom]
        omega
      · rw [saturatingAdd, if_neg hroom, UInt64.toNat_ofNat']
        omega
    refine ⟨?_, fun heq hlt' => ?_⟩
    · rw [hreceived, hcases]
      simp only [snapshot]
      omega
    · rw [hreceived, hcases] at heq hlt'
      simp only [snapshot] at heq
      omega

end BoundedLogBuffer

theorem asI64_eq {n : UInt64} (h : 0 ≤ asI64 n) : asI64 n = n.toNat ∧ n.toNat < 2 ^ 63 := by
  have hlt := n.toNat_lt
  have htoNat : n.toBitVec.toNat = n.toNat := rfl
  simp only [asI64, BitVec.toInt_eq_toNat_cond, htoNat] at h ⊢
  split at h <;> omega

/-- The snapshot to persist was taken of a buffer with these limits. -/
structure LogPersistenceSnapshot.Taken (snapshot : LogPersistenceSnapshot) (limits : Nat × Nat) :
    Prop where
  buffer : ∃ buffer : BoundedLogBuffer, buffer.Fits ∧ buffer.snapshot = snapshot.step ∧
    buffer.limits = limits
  limits : (snapshot.headLimit, snapshot.tailLimit) = limits

/-- How much a row keeps. -/
def StepLogRow.limits (row : StepLogRow) : Nat × Nat :=
  ((max row.headLimitBytes 0).toNat, (max row.tailLimitBytes 0).toNat)

/-- The row holds the columns of a buffer. -/
structure StepLogRow.Sound (row : StepLogRow) : Prop where
  checked : row.checked = true
  written : ∃ snapshot : LogPersistenceSnapshot, snapshot.Taken row.limits ∧
    row = { snapshot.stepRow with finished := row.finished }

namespace StepLogRow

variable {row : StepLogRow} {snapshot : LogPersistenceSnapshot} {limits : Nat × Nat}

theorem snapshot_stepRow : snapshot.stepRow.snapshot = snapshot.step := by
  simp [StepLogRow.snapshot, LogPersistenceSnapshot.stepRow]

theorem limits_stepRow (htaken : snapshot.Taken limits)
    (hchecked : snapshot.stepRow.checked = true) : snapshot.stepRow.limits = limits := by
  obtain ⟨buffer, hfits, -, hbuffer⟩ := htaken.buffer
  have hlimits := htaken.limits
  obtain ⟨-, -, -, hhead, htail⟩ := of_decide_eq_true hchecked
  obtain ⟨hheadLimit, htailLimit⟩ := Prod.mk.inj (hlimits.trans hbuffer.symm)
  have hhead' : snapshot.headLimit < 2 ^ 64 := hheadLimit ▸ hfits.headLimit_lt
  have htail' : snapshot.tailLimit < 2 ^ 64 := htailLimit ▸ hfits.tailLimit_lt
  rw [← hlimits]
  simp only [StepLogRow.limits, LogPersistenceSnapshot.stepRow, (asI64_eq hhead).1,
    (asI64_eq htail).1, UInt64.toNat_ofNat', Nat.mod_eq_of_lt hhead', Nat.mod_eq_of_lt htail',
    Int.max_eq_left (Int.natCast_nonneg _), Int.toNat_natCast]

theorem sound_stepRow (htaken : snapshot.Taken limits)
    (hchecked : snapshot.stepRow.checked = true) : snapshot.stepRow.Sound where
  checked := hchecked
  written := ⟨snapshot, by rwa [limits_stepRow htaken hchecked], rfl⟩

/-- Columns that are compared in the database are compared as the counters that they hold. -/
theorem receivedBytes_eq (hchecked : row.checked = true)
    (hwritten : ∃ n, row.receivedBytes = asI64 n) :
    row.receivedBytes = row.snapshot.receivedBytes.toNat ∧
      row.snapshot.receivedBytes.toNat < 2 ^ 63 := by
  obtain ⟨n, hn⟩ := hwritten
  have hpos := (of_decide_eq_true hchecked).2.1
  have hreceived : row.snapshot.receivedBytes = n := by
    simp [StepLogRow.snapshot, hn]
  rw [hreceived, hn]
  exact asI64_eq (hn ▸ hpos)

theorem Sound.receivedBytes (h : row.Sound) :
    row.receivedBytes = row.snapshot.receivedBytes.toNat ∧
      row.snapshot.receivedBytes.toNat < 2 ^ 63 := by
  obtain ⟨snapshot, -, hrow⟩ := h.written
  exact receivedBytes_eq h.checked ⟨_, congrArg StepLogRow.receivedBytes hrow⟩

/-- A write that is not refused leaves what was written, and a log that was finished finished. -/
theorem merge_cases (hrow : row.Sound) (htaken : snapshot.Taken row.limits)
    (hchecked : snapshot.stepRow.checked = true) :
    (row.merge snapshot.stepRow = row ∧
      snapshot.step.receivedBytes.toNat < row.snapshot.receivedBytes.toNat) ∨
    ((row.merge snapshot.stepRow).snapshot = snapshot.step ∧
      (row.merge snapshot.stepRow).finished = (row.finished || snapshot.finished) ∧
      row.snapshot.receivedBytes.toNat ≤ snapshot.step.receivedBytes.toNat ∧
      (row.merge snapshot.stepRow).limits = row.limits ∧
      (row.merge snapshot.stepRow).Sound) := by
  have hreceived := (hrow.receivedBytes).1
  have hreceived' := (receivedBytes_eq hchecked ⟨_, rfl⟩).1
  rw [snapshot_stepRow] at hreceived'
  have hlimits := limits_stepRow htaken hchecked
  by_cases hle : row.receivedBytes ≤ snapshot.stepRow.receivedBytes
  · have hmerge : row.merge snapshot.stepRow = { snapshot.stepRow with
        headLimitBytes := row.headLimitBytes, tailLimitBytes := row.tailLimitBytes
        finished := row.finished || snapshot.finished } := by
      rw [merge, if_pos hle]
      rfl
    have hrowChecked := hrow.checked
    simp only [checked, decide_eq_true_eq] at hchecked hrowChecked
    have hhead : row.headLimitBytes = snapshot.stepRow.headLimitBytes := by
      have := congrArg Prod.fst hlimits
      simp only [StepLogRow.limits] at this
      omega
    have htail : row.tailLimitBytes = snapshot.stepRow.tailLimitBytes := by
      have := congrArg Prod.snd hlimits
      simp only [StepLogRow.limits] at this
      omega
    refine .inr ⟨?_, ?_, ?_, ?_, ?_, ?_⟩
    · rw [hmerge]
      exact snapshot_stepRow
    · rw [hmerge]
    · omega
    · rw [hmerge]
      rfl
    · rw [hmerge, hhead, htail]
      simpa only [checked, decide_eq_true_eq] using hchecked
    · refine ⟨snapshot, ?_, ?_⟩
      · rw [hmerge]
        exact htaken
      · rw [hmerge, hhead, htail]
  · refine .inl ⟨by rw [merge, if_neg hle], ?_⟩
    omega

end StepLogRow

namespace LogService

variable {service : LogService} {log : List LogServiceEvent}

/-- The limits that the buffers of the step have. -/
def limits (service : LogService) : Nat × Nat :=
  match service.stepRow with
  | some row => row.limits
  | none => (service.headLimit.toNat, service.tailLimit.toNat)

/-- An entry that is made of a row holds what the row holds. -/
theorem loadedStep_row {row : StepLogRow} (hrow : service.stepRow = some row) (h : row.Sound)
    (secrets : List Bytes) : (service.loadedStep secrets).buffer.Fits ∧
      (service.loadedStep secrets).buffer.limits = row.limits ∧
      (service.loadedStep secrets).buffer.snapshot = row.snapshot ∧
      (service.loadedStep secrets).finished = row.finished := by
  obtain ⟨snapshot, htaken, heq⟩ := h.written
  obtain ⟨buffer, hfits, hsnapshot, hlimits⟩ := htaken.buffer
  have hhead : (max row.headLimitBytes 0).toNat = buffer.headLimit :=
    (congrArg Prod.fst hlimits).symm
  have htail : (max row.tailLimitBytes 0).toNat = buffer.tailLimit :=
    (congrArg Prod.snd hlimits).symm
  have hchecked := of_decide_eq_true h.checked
  have hsnapshot' : row.snapshot = buffer.snapshot := by
    rw [hsnapshot, ← StepLogRow.snapshot_stepRow, heq]
    rfl
  have hcontent : row.headContent = buffer.head := congrArg BoundedLogSnapshot.head hsnapshot'
  have hcontent' : row.tailContent = buffer.tail := congrArg BoundedLogSnapshot.tail hsnapshot'
  have hbuffer : (service.loadedStep secrets).buffer =
      { buffer with redactor := StreamingRedactor.new secrets } := by
    simp only [loadedStep, hrow, BoundedLogBuffer.fromPersisted, hhead, htail, hcontent, hcontent',
      max_eq_left hchecked.2.1, max_eq_left hchecked.2.2.1, List.take_of_length_le hfits.head_le,
      Nat.sub_eq_zero_of_le hfits.tail_le, List.drop_zero]
    rw [show asU64 row.receivedBytes = buffer.receivedBytes from
        congrArg BoundedLogSnapshot.receivedBytes hsnapshot',
      show asU64 row.droppedBytes = buffer.droppedBytes from
        congrArg BoundedLogSnapshot.droppedBytes hsnapshot']
  refine ⟨?_, ?_, ?_, ?_⟩
  · rw [hbuffer]
    exact ⟨hfits.head_le, hfits.tail_le, hfits.headLimit_lt, hfits.tailLimit_lt⟩
  · rw [hbuffer]
    exact hlimits
  · rw [hbuffer, hsnapshot']
    rfl
  · rw [loadedStep, hrow]

/-- Without a row the entry is empty. -/
theorem loadedStep_none (hrow : service.stepRow = none) (secrets : List Bytes) :
    (service.loadedStep secrets).buffer.Fits ∧
      (service.loadedStep secrets).buffer.limits = service.limits ∧
      (service.loadedStep secrets).finished = false := by
  simp only [loadedStep, limits, hrow]
  exact ⟨⟨by simp [BoundedLogBuffer.fromPersisted], by simp [BoundedLogBuffer.fromPersisted],
    service.headLimit.toNat_lt, service.tailLimit.toNat_lt⟩, rfl, trivial⟩

end LogService

end EasyDeploy.Retention
