import Mathlib.Algebra.Group.Nat.Defs
import Mathlib.Data.Char
import Mathlib.Data.List.Lex
import Mathlib.Order.Lattice

/-!
# Numbers of a fixed width

Decimal numbers that are filled up with zeros to one width sort as texts as they
sort as numbers, and what follows them decides where they are equal.
-/

namespace EasyDeploy.Foundation

/-- Lists that sort by their first elements, and where these are equal by the others. -/
theorem cons_le_cons_iff {α : Type*} [LinearOrder α] {a b : α} {s t : List α} :
    a :: s ≤ b :: t ↔ a < b ∨ a = b ∧ s ≤ t := by
  rw [← not_lt, ← not_lt, List.cons_lt_cons_iff]
  rcases lt_trichotomy a b with hlt | rfl | hgt
  · simp [hlt, hlt.not_gt, hlt.ne']
  · simp
  · simp [hgt, hgt.not_gt, hgt.ne']

/-- The last `width` decimal digits of a number. -/
def fixedWidth : Nat → Nat → List Char
  | 0, _ => []
  | width + 1, n => fixedWidth width (n / 10) ++ [Nat.digitChar (n % 10)]

theorem digitChar_lt_iff {m n : Nat} (hm : m < 10) (hn : n < 10) :
    Nat.digitChar m < Nat.digitChar n ↔ m < n := by
  have hall : ∀ m n : Fin 10, Nat.digitChar m < Nat.digitChar n ↔ m.val < n.val := by decide
  exact hall ⟨m, hm⟩ ⟨n, hn⟩

theorem digitChar_inj {m n : Nat} (hm : m < 10) (hn : n < 10) :
    Nat.digitChar m = Nat.digitChar n ↔ m = n := by
  have hall : ∀ m n : Fin 10, Nat.digitChar m = Nat.digitChar n ↔ m.val = n.val := by decide
  exact hall ⟨m, hm⟩ ⟨n, hn⟩

/-- Texts that begin with numbers of one width. -/
theorem fixedWidth_append_le_iff {width a b : Nat} (ha : a < 10 ^ width) (hb : b < 10 ^ width)
    {s t : List Char} :
    fixedWidth width a ++ s ≤ fixedWidth width b ++ t ↔ a < b ∨ a = b ∧ s ≤ t := by
  induction width generalizing a b s t with
  | zero =>
      obtain rfl : a = 0 := by simpa using ha
      obtain rfl : b = 0 := by simpa using hb
      simp [fixedWidth]
  | succ width ih =>
      have hmod (n : Nat) : n % 10 < 10 := Nat.mod_lt _ (by decide)
      have hdiv {n : Nat} (hn : n < 10 ^ (width + 1)) : n / 10 < 10 ^ width := by
        rw [Nat.pow_succ] at hn
        omega
      rw [fixedWidth, fixedWidth, List.append_assoc, List.append_assoc, ih (hdiv ha) (hdiv hb),
        List.singleton_append, List.singleton_append, cons_le_cons_iff,
        digitChar_lt_iff (hmod a) (hmod b), digitChar_inj (hmod a) (hmod b)]
      constructor
      · rintro (hlt | ⟨heq, hlt | ⟨hlast, hrest⟩⟩)
        · left
          omega
        · left
          omega
        · exact .inr ⟨by omega, hrest⟩
      · rintro (hlt | ⟨rfl, hrest⟩)
        · rcases Nat.lt_or_ge (a / 10) (b / 10) with h | h
          · exact .inl h
          · exact .inr ⟨by omega, .inl (by omega)⟩
        · exact .inr ⟨rfl, .inr ⟨rfl, hrest⟩⟩

end EasyDeploy.Foundation
