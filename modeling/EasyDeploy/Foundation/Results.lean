import Mathlib.Data.List.Forall2
import Mathlib.Tactic.Cases

/-!
# Results that are no errors

What a result that is a value says of the steps that led to it.
-/

namespace EasyDeploy.Foundation

variable {ε ε' α β : Type}

theorem except_bind_eq_ok {first : Except ε α} {next : α → Except ε β} {value : β} :
    first >>= next = .ok value ↔ ∃ between, first = .ok between ∧ next between = .ok value := by
  cases first with
  | error error =>
      constructor
      · intro h
        cases h
      · rintro ⟨between, hfalse, -⟩
        cases hfalse
  | ok between =>
      constructor
      · intro h
        exact ⟨between, rfl, h⟩
      · rintro ⟨other, heq, h⟩
        obtain rfl := Except.ok.inj heq
        exact h

theorem mapError_eq_ok {f : ε → ε'} {result : Except ε α} {value : α}
    (h : result.mapError f = .ok value) : result = .ok value := by
  cases result with
  | error error => cases h
  | ok found => rw [Except.ok.inj h]

theorem exists_of_isOk {result : Except ε α} (h : result.isOk = true) :
    ∃ value, result = .ok value := by
  cases result with
  | error error => cases h
  | ok value => exact ⟨value, rfl⟩

/-- A list of results is a value when each of them is. -/
theorem mapM_eq_ok {f : α → Except ε β} {items : List α} {values : List β} :
    items.mapM f = .ok values ↔
      List.Forall₂ (fun item value => f item = .ok value) items values := by
  induction items generalizing values with
  | nil =>
      rw [List.forall₂_nil_left_iff, List.mapM_nil]
      exact ⟨fun h => (Except.ok.inj h).symm, fun h => congrArg Except.ok h.symm⟩
  | cons item items ih =>
      rw [List.mapM_cons, except_bind_eq_ok, List.forall₂_cons_left_iff]
      constructor
      · rintro ⟨value, hvalue, h⟩
        obtain ⟨rest, hrest, h⟩ := except_bind_eq_ok.mp h
        exact ⟨value, rest, hvalue, ih.mp hrest, (Except.ok.inj h).symm⟩
      · rintro ⟨value, rest, hvalue, hrest, rfl⟩
        exact ⟨value, hvalue, except_bind_eq_ok.mpr ⟨rest, ih.mpr hrest, rfl⟩⟩

theorem exists_of_mem_mapM {f : α → Except ε β} {items : List α} {values : List β}
    (h : items.mapM f = .ok values) {item : α} (hitem : item ∈ items) :
    ∃ value ∈ values, f item = .ok value := by
  have hall := mapM_eq_ok.mp h
  clear h
  induction hall with
  | nil => cases hitem
  | cons hvalue _ ih =>
      rcases List.mem_cons.mp hitem with rfl | hrest
      · exact ⟨_, List.mem_cons_self, hvalue⟩
      · obtain ⟨value, hmem, hvalue⟩ := ih hrest
        exact ⟨value, List.mem_cons_of_mem _ hmem, hvalue⟩

theorem exists_of_mem_mapM_values {f : α → Except ε β} {items : List α} {values : List β}
    (h : items.mapM f = .ok values) {value : β} (hvalue : value ∈ values) :
    ∃ item ∈ items, f item = .ok value := by
  have hall := mapM_eq_ok.mp h
  clear h
  induction hall with
  | nil => cases hvalue
  | cons hitem _ ih =>
      rcases List.mem_cons.mp hvalue with rfl | hrest
      · exact ⟨_, List.mem_cons_self, hitem⟩
      · obtain ⟨item, hmem, hitem⟩ := ih hrest
        exact ⟨item, List.mem_cons_of_mem _ hmem, hitem⟩

end EasyDeploy.Foundation
