import Mathlib.Algebra.Group.Nat.Defs
import Mathlib.Data.List.Basic
import Mathlib.Tactic.Cases

/-!
# Framed parts

Parts that are each written behind their length can be told apart again: two
sequences of parts with the same bytes are the same parts.
-/

namespace EasyDeploy.Foundation

/-- The last `width` bytes of a number, the most significant first. -/
def bigEndian : Nat → Nat → List UInt8
  | 0, _ => []
  | width + 1, n => bigEndian width (n / 256) ++ [UInt8.ofNat (n % 256)]

theorem length_bigEndian (width n : Nat) : (bigEndian width n).length = width := by
  induction width generalizing n with
  | zero => rfl
  | succ width ih => rw [bigEndian, List.length_append, ih]; rfl

theorem bigEndian_inj {width m n : Nat} (hm : m < 256 ^ width) (hn : n < 256 ^ width)
    (h : bigEndian width m = bigEndian width n) : m = n := by
  induction width generalizing m n with
  | zero =>
      rw [Nat.pow_zero] at hm hn
      omega
  | succ width ih =>
      obtain ⟨hinit, hlast⟩ := List.append_inj' h rfl
      have hdiv {n : Nat} (hn : n < 256 ^ (width + 1)) : n / 256 < 256 ^ width := by
        rw [Nat.pow_succ] at hn
        omega
      have hhigh := ih (hdiv hm) (hdiv hn) hinit
      have hlow : m % 256 = n % 256 := by
        have hbyte := congrArg UInt8.toNat (List.singleton_inj.mp hlast)
        simpa using hbyte
      omega

/-- Every part behind its length in eight bytes. -/
def framed (parts : List (List UInt8)) : List UInt8 :=
  parts.flatMap fun part => bigEndian 8 part.length ++ part

theorem framed_injective {parts parts' : List (List UInt8)}
    (hshort : ∀ part ∈ parts, part.length < 256 ^ 8)
    (hshort' : ∀ part ∈ parts', part.length < 256 ^ 8) (h : framed parts = framed parts') :
    parts = parts' := by
  induction parts generalizing parts' with
  | nil =>
      cases parts' with
      | nil => rfl
      | cons part' parts' =>
          have hlength := congrArg List.length h
          simp [framed, length_bigEndian] at hlength
          omega
  | cons part parts ih =>
      cases parts' with
      | nil =>
          have hlength := congrArg List.length h
          simp [framed, length_bigEndian] at hlength
      | cons part' parts' =>
          simp only [framed, List.flatMap_cons, List.append_assoc] at h
          obtain ⟨hsize, hrest⟩ := List.append_inj h
            ((length_bigEndian _ _).trans (length_bigEndian _ _).symm)
          have hlength := bigEndian_inj (hshort part List.mem_cons_self)
            (hshort' part' List.mem_cons_self) hsize
          obtain ⟨rfl, hparts⟩ := List.append_inj hrest hlength
          rw [ih (fun other hother => hshort other (List.mem_cons_of_mem _ hother))
            (fun other hother => hshort' other (List.mem_cons_of_mem _ hother)) hparts]

end EasyDeploy.Foundation
