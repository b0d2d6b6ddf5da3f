import Mathlib.Data.List.Basic
import Mathlib.Data.List.Nodup

/-!
# First occurrences by key

A list is filtered by inserting the key of each item into a set: an item stays
when its key is not in the set yet.
-/

namespace EasyDeploy.Foundation

variable {α κ : Type*} [DecidableEq κ] {key : α → κ} {seen : List κ} {items : List α} {item : α}

/-- The items whose key has not been seen, neither at the start nor at an earlier item. -/
def firstsBy (key : α → κ) : List κ → List α → List α
  | _, [] => []
  | seen, item :: rest =>
      if key item ∈ seen then firstsBy key seen rest
      else item :: firstsBy key (key item :: seen) rest

theorem firstsBy_sublist (seen : List κ) (items : List α) :
    (firstsBy key seen items).Sublist items := by
  induction items generalizing seen with
  | nil => exact List.Sublist.slnil
  | cons item rest ih =>
      rw [firstsBy]
      split
      · exact (ih seen).cons item
      · exact (ih (key item :: seen)).cons_cons item

theorem mem_of_mem_firstsBy (h : item ∈ firstsBy key seen items) : item ∈ items :=
  (firstsBy_sublist seen items).subset h

/-- The keys that remain are those of the items that had not been seen. -/
theorem mem_map_firstsBy {value : κ} :
    value ∈ (firstsBy key seen items).map key ↔ value ∉ seen ∧ value ∈ items.map key := by
  induction items generalizing seen with
  | nil => simp [firstsBy]
  | cons item rest ih =>
      rw [firstsBy]
      split
      · rename_i hseen
        rw [ih, List.map_cons, List.mem_cons]
        constructor
        · rintro ⟨hnew, hrest⟩
          exact ⟨hnew, .inr hrest⟩
        · rintro ⟨hnew, rfl | hrest⟩
          · exact absurd hseen hnew
          · exact ⟨hnew, hrest⟩
      · rename_i hseen
        rw [List.map_cons, List.mem_cons, ih, List.map_cons, List.mem_cons, List.mem_cons, not_or]
        constructor
        · rintro (rfl | ⟨⟨-, hnew⟩, hrest⟩)
          · exact ⟨hseen, .inl rfl⟩
          · exact ⟨hnew, .inr hrest⟩
        · rintro ⟨hnew, rfl | hrest⟩
          · exact .inl rfl
          · by_cases heq : value = key item
            · exact .inl heq
            · exact .inr ⟨⟨heq, hnew⟩, hrest⟩

theorem nodup_map_firstsBy (seen : List κ) (items : List α) :
    ((firstsBy key seen items).map key).Nodup := by
  induction items generalizing seen with
  | nil => exact List.nodup_nil
  | cons item rest ih =>
      rw [firstsBy]
      split
      · exact ih seen
      · rw [List.map_cons, List.nodup_cons]
        refine ⟨fun hmem => ?_, ih _⟩
        exact (mem_map_firstsBy.mp hmem).1 List.mem_cons_self

/-- Among items with different keys each one is a first occurrence. -/
theorem firstsBy_eq_self (hnodup : (items.map key).Nodup)
    (hnew : ∀ item ∈ items, key item ∉ seen) : firstsBy key seen items = items := by
  induction items generalizing seen with
  | nil => rfl
  | cons item rest ih =>
      rw [List.map_cons, List.nodup_cons] at hnodup
      rw [firstsBy, if_neg (hnew item List.mem_cons_self)]
      refine congrArg (item :: ·) (ih hnodup.2 fun other hother => ?_)
      rw [List.mem_cons, not_or]
      refine ⟨fun heq => hnodup.1 ?_, hnew other (List.mem_cons_of_mem _ hother)⟩
      exact heq ▸ List.mem_map_of_mem hother

/-- An item that stays is the first one with its key. -/
theorem first_of_mem_firstsBy (h : item ∈ firstsBy key seen items) :
    ∃ before after, items = before ++ item :: after ∧
      ∀ other ∈ before, key other ≠ key item := by
  induction items generalizing seen with
  | nil => cases h
  | cons first rest ih =>
      rw [firstsBy] at h
      split at h
      · rename_i hseen
        obtain ⟨before, after, heq, hbefore⟩ := ih h
        refine ⟨first :: before, after, congrArg (first :: ·) heq, fun other hother => ?_⟩
        rcases List.mem_cons.mp hother with rfl | hother
        · intro hkey
          exact (mem_map_firstsBy.mp (List.mem_map_of_mem h)).1 (hkey ▸ hseen)
        · exact hbefore other hother
      · rcases List.mem_cons.mp h with rfl | h
        · exact ⟨[], rest, rfl, fun other hother => absurd hother List.not_mem_nil⟩
        · obtain ⟨before, after, heq, hbefore⟩ := ih h
          refine ⟨first :: before, after, congrArg (first :: ·) heq, fun other hother => ?_⟩
          rcases List.mem_cons.mp hother with rfl | hother
          · intro hkey
            have hnew := (mem_map_firstsBy.mp (List.mem_map_of_mem h)).1
            exact hnew (hkey ▸ List.mem_cons_self)
          · exact hbefore other hother

end EasyDeploy.Foundation
