import Mathlib.Data.List.Basic
import Mathlib.Data.List.DropRight
import Mathlib.Data.List.Perm.Basic
import Mathlib.Data.List.Sort
import Mathlib.Tactic.Cases

/-!
# Sequences of a Rust program

Vector and string operations of the Rust standard library that Lean's lists and
strings do not have under the same meaning.
-/

namespace EasyDeploy.Foundation

section Vectors

variable {α : Type*} [DecidableEq α]

/-- `Vec::dedup`: drop an entry that equals the one before it. -/
def dedup : List α → List α
  | [] => []
  | [item] => [item]
  | first :: second :: rest =>
      if first = second then dedup (second :: rest) else first :: dedup (second :: rest)

@[simp] theorem mem_dedup {item : α} {items : List α} : item ∈ dedup items ↔ item ∈ items := by
  induction items using dedup.induct with
  | case1 => rfl
  | case2 => rfl
  | case3 rest first ih => simp [dedup, ih]
  | case4 rest first second hne ih => simp [dedup, hne, ih]

/-- In a sorted list no entry is kept twice. -/
theorem pairwise_dedup {le : α → α → Prop} (anti : ∀ a b, le a b → le b a → a = b) {items : List α}
    (h : items.Pairwise le) : (dedup items).Pairwise fun a b => le a b ∧ a ≠ b := by
  induction items using dedup.induct with
  | case1 => exact .nil
  | case2 item => exact List.pairwise_singleton _ _
  | case3 rest first ih =>
      rw [dedup, if_pos rfl]
      exact ih (List.pairwise_cons.mp h).2
  | case4 first second rest hne ih =>
      rw [dedup, if_neg hne]
      obtain ⟨hfirst, hrest⟩ := List.pairwise_cons.mp h
      refine List.pairwise_cons.mpr ⟨fun item hitem => ?_, ih hrest⟩
      have hle := hfirst item (mem_dedup.mp hitem)
      refine ⟨hle, fun heq => hne ?_⟩
      rcases List.mem_cons.mp (mem_dedup.mp hitem) with hsame | hlater
      · exact heq.trans hsame
      · have hback := (List.pairwise_cons.mp hrest).1 item hlater
        rw [← heq] at hback
        exact anti first second (hfirst second List.mem_cons_self) hback

/-- An element that is taken out of a list no longer counts. -/
theorem countP_erase_add {items : List α} {item : α} (h : item ∈ items) (p : α → Bool) :
    (items.erase item).countP p + (if p item = true then 1 else 0) = items.countP p := by
  rw [(List.perm_cons_erase h).countP_eq, List.countP_cons]

end Vectors

section Sorting

variable {α : Type*}

/-- `slice::sort_by`, a stable sort. -/
def sortBy (le : α → α → Bool) (items : List α) : List α :=
  items.insertionSort fun left right => le left right = true

variable {le : α → α → Bool} {items : List α}

theorem sortBy_perm : (sortBy le items).Perm items := List.perm_insertionSort _ _

@[simp] theorem mem_sortBy {item : α} : item ∈ sortBy le items ↔ item ∈ items :=
  List.mem_insertionSort _

theorem pairwise_sortBy (trans : ∀ a b c, le a b = true → le b c = true → le a c = true)
    (total : ∀ a b, (le a b || le b a) = true) :
    (sortBy le items).Pairwise fun left right => le left right = true := by
  have : Std.Total fun left right => le left right = true :=
    ⟨fun a b => Bool.or_eq_true_iff.mp (total a b)⟩
  have : IsTrans α fun left right => le left right = true := ⟨trans⟩
  exact List.pairwise_insertionSort _ _

/-- The order of the entries does not matter when only equal entries are equivalent. -/
theorem sortBy_congr (trans : ∀ a b c, le a b = true → le b c = true → le a c = true)
    (total : ∀ a b, (le a b || le b a) = true) {items' : List α} (h : items.Perm items')
    (anti : ∀ a ∈ items, ∀ b ∈ items, le a b = true → le b a = true → a = b) :
    sortBy le items = sortBy le items' := by
  refine List.Perm.eq_of_pairwise (fun a b ha hb => ?_) (pairwise_sortBy trans total)
    (pairwise_sortBy trans total) (sortBy_perm.trans (h.trans sortBy_perm.symm))
  exact anti a (mem_sortBy.mp ha) b (h.mem_iff.mpr (mem_sortBy.mp hb))

end Sorting

section Strings

/-- `char::is_whitespace`: the Unicode property White_Space. -/
def isWhitespace (char : Char) : Bool :=
  let code := char.toNat
  (9 ≤ code && code ≤ 13) || code == 32 || code == 0x85 || code == 0xA0 || code == 0x1680 ||
    (0x2000 ≤ code && code ≤ 0x200A) || code == 0x2028 || code == 0x2029 || code == 0x202F ||
    code == 0x205F || code == 0x3000

/-- `str::trim`. -/
def trim (text : String) : String :=
  String.ofList ((text.toList.dropWhile isWhitespace).rdropWhile isWhitespace)

/-- `text.chars().take(limit).collect()`. -/
def takeChars (text : String) (limit : Nat) : String := String.ofList (text.toList.take limit)

end Strings

end EasyDeploy.Foundation
