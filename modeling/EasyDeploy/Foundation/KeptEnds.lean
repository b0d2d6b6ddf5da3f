import Mathlib.Data.List.DropRight
import Mathlib.Data.List.Infix
import Mathlib.Order.Basic

/-!
# Keeping the two ends of a stream

A bounded recorder keeps a head and a tail of the stream it has received. The
relation below is what such a recorder maintains when the head takes bytes as
long as nothing was lost and the tail keeps the latest ones.
-/

namespace EasyDeploy.Foundation

variable {α : Type*}

/-- `head` is a front of `s` and `tail` an end of what follows it, both within
their limits; the tail is used only behind a full head. -/
structure KeepsEnds (headLimit tailLimit : Nat) (s head tail : List α) : Prop where
  head_prefix : head <+: s
  head_le : head.length ≤ headLimit
  tail_suffix : tail <:+ s.drop head.length
  tail_le : tail.length ≤ tailLimit
  head_full : tail ≠ [] → head.length = headLimit

theorem rtake_suffix (s : List α) (n : Nat) : s.rtake n <:+ s := List.drop_suffix _ _

theorem length_rtake {s : List α} {n : Nat} (h : n ≤ s.length) : (s.rtake n).length = n := by
  rw [List.rtake, List.length_drop]
  omega

/-- A suffix is what its length takes from the end. -/
theorem eq_rtake_of_suffix {s tail : List α} (h : tail <:+ s) : tail = s.rtake tail.length := by
  obtain ⟨front, rfl⟩ := h
  rw [List.rtake, List.length_append, Nat.add_sub_cancel, List.drop_left]

theorem rtake_of_length_le {s : List α} {n : Nat} (h : s.length ≤ n) : s.rtake n = s := by
  rw [List.rtake, Nat.sub_eq_zero_of_le h, List.drop_zero]

/-- What the end takes of two parts when the second one is long enough. -/
theorem rtake_append_right {s t : List α} {n : Nat} (h : n ≤ t.length) :
    (s ++ t).rtake n = t.rtake n := by
  rw [List.rtake, List.rtake, List.length_append, List.drop_append,
    List.drop_eq_nil_of_le (by omega), List.nil_append]
  congr 1
  omega

/-- What the end takes of two parts when it reaches into the first one. -/
theorem rtake_append_left {s t : List α} {n : Nat} (h : t.length ≤ n) :
    (s ++ t).rtake n = s.rtake (n - t.length) ++ t := by
  rw [List.rtake, List.rtake, List.length_append, List.drop_append_of_le_length (by omega)]
  congr 2
  omega

/-- What a bounded end of a stream is after more of it. -/
theorem rtake_append (s t : List UInt8) (n : Nat) :
    (s ++ t).rtake n = (s.rtake n ++ t).rtake n := by
  rcases Nat.le_total n t.length with hle | hle
  · rw [rtake_append_right hle, rtake_append_right hle]
  · rw [rtake_append_left hle, rtake_append_left hle]
    congr 1
    rw [List.rtake, List.rtake, List.rtake, List.drop_drop, List.length_drop]
    congr 1
    omega

theorem length_rtake_min (s : List UInt8) (n : Nat) : (s.rtake n).length = min n s.length := by
  rw [List.rtake, List.length_drop]
  omega

namespace KeepsEnds

variable {headLimit tailLimit : Nat} {s head tail : List α}

theorem empty : KeepsEnds headLimit tailLimit ([] : List α) [] [] :=
  ⟨List.nil_prefix, Nat.zero_le _, List.nil_suffix, Nat.zero_le _, fun h => absurd rfl h⟩

theorem length_le (h : KeepsEnds headLimit tailLimit s head tail) :
    head.length + tail.length ≤ s.length := by
  have hhead := h.head_prefix.length_le
  have htail := h.tail_suffix.length_le
  rw [List.length_drop] at htail
  omega

/-- Nothing is lost exactly when the lengths add up. -/
theorem append_eq_iff (h : KeepsEnds headLimit tailLimit s head tail) :
    head ++ tail = s ↔ s.length - head.length - tail.length = 0 := by
  have hle := h.length_le
  obtain ⟨rest, rfl⟩ := h.head_prefix
  have hsuffix := h.tail_suffix
  rw [List.drop_left] at hsuffix
  rw [List.length_append] at hle ⊢
  constructor
  · intro heq
    rw [List.append_cancel_left heq]
    omega
  · intro hlen
    rw [hsuffix.eq_of_length (by omega)]

/-- More text arrives: the head takes `taken` bytes of it, and the tail keeps the
latest `kept` bytes behind the head. -/
theorem append (h : KeepsEnds headLimit tailLimit s head tail) {text : List α} {taken kept : Nat}
    (htaken : taken ≤ text.length) (hroom : head.length + taken ≤ headLimit)
    (hwhole : 0 < taken → head = s) (hkept : kept ≤ tailLimit)
    (hfull : 0 < kept → head.length + taken = headLimit) :
    KeepsEnds headLimit tailLimit (s ++ text) (head ++ text.take taken)
      ((tail ++ text.drop taken).rtake kept) := by
  have hlen : (head ++ text.take taken).length = head.length + taken := by
    rw [List.length_append, List.length_take, Nat.min_eq_left htaken]
  have hrest : tail ++ text.drop taken <:+ (s ++ text).drop (head.length + taken) := by
    rcases Nat.eq_zero_or_pos taken with rfl | hpos
    · rw [List.drop_zero, Nat.add_zero,
        List.drop_append_of_le_length h.head_prefix.length_le]
      obtain ⟨front, hfront⟩ := h.tail_suffix
      exact ⟨front, by rw [← List.append_assoc, hfront]⟩
    · obtain rfl := hwhole hpos
      have hempty : tail = [] := by
        simpa using h.tail_suffix
      rw [hempty, List.nil_append, ← List.drop_drop, List.drop_left]
  refine ⟨?_, ?_, ?_, ?_, ?_⟩
  · rcases Nat.eq_zero_or_pos taken with rfl | hpos
    · rw [List.take_zero, List.append_nil]
      exact h.head_prefix.trans (List.prefix_append _ _)
    · obtain rfl := hwhole hpos
      exact (List.prefix_append_right_inj head).mpr (List.take_prefix _ _)
  · rw [hlen]
    exact hroom
  · rw [hlen]
    exact (rtake_suffix _ _).trans hrest
  · rw [List.rtake, List.length_drop]
    omega
  · intro hne
    rw [hlen]
    apply hfull
    rcases Nat.eq_zero_or_pos kept with rfl | hpos
    · simp at hne
    · exact hpos

end KeepsEnds

end EasyDeploy.Foundation
