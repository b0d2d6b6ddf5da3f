import Mathlib.Data.List.Infix
import Mathlib.Tactic.Cases

/-!
# Places that names lead to

A path is a list of names. Without links, a name leads into a directory, a dot
stays and two dots lead back.
-/

namespace EasyDeploy.Foundation

/-- A place is a list of names without dots. -/
abbrev Place := List String

/-- One component further. -/
def Place.step (place : Place) (name : String) : Place :=
  if name = "" ∨ name = "." then place
  else if name = ".." then place.dropLast
  else place ++ [name]

/-- Where the names lead from a place. -/
def Place.follow (place : Place) (names : List String) : Place := names.foldl Place.step place

/-- The name leads into a directory. -/
def IsPlain (name : String) : Prop := name ≠ "" ∧ name ≠ "." ∧ name ≠ ".."

instance (name : String) : Decidable (IsPlain name) := inferInstanceAs (Decidable (_ ∧ _ ∧ _))

/-- A place within another one. -/
def StrictlyBelow (place other : Place) : Prop := place <+: other ∧ place ≠ other

theorem Place.follow_append (place : Place) (names rest : List String) :
    place.follow (names ++ rest) = (place.follow names).follow rest :=
  List.foldl_append

theorem Place.step_plain {name : String} (place : Place) (h : IsPlain name) :
    place.step name = place ++ [name] := by
  rw [Place.step, if_neg (not_or.mpr ⟨h.1, h.2.1⟩), if_neg h.2.2]

theorem Place.follow_plain {names : List String} (place : Place) (h : ∀ name ∈ names, IsPlain name) :
    place.follow names = place ++ names := by
  induction names generalizing place with
  | nil => exact (List.append_nil place).symm
  | cons name names ih =>
      show (place.step name).follow names = _
      rw [place.step_plain (h name List.mem_cons_self),
        ih _ fun other hother => h other (List.mem_cons_of_mem _ hother), List.append_assoc,
        List.singleton_append]

theorem strictlyBelow_append {place : Place} {names : List String} (h : names ≠ []) :
    StrictlyBelow place (place ++ names) := by
  refine ⟨List.prefix_append place names, ?_⟩
  intro heq
  exact h (List.append_right_eq_self.mp heq.symm)

end EasyDeploy.Foundation
