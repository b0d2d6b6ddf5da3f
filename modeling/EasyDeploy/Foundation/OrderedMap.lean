import Mathlib.Data.List.Nodup
import Mathlib.Tactic.Cases

/-!
# Ordered maps

Rows in the order of a key that no two of them share, as a map from keys to rows
keeps them. A row that is inserted takes the place of the one with its key.
-/

namespace EasyDeploy.Foundation

variable {ρ : Type*} {key : ρ → Int}

/-- Rows ordered by their keys, without a row of the key of another. -/
structure OrderedMap (ρ : Type*) (key : ρ → Int) where
  rows : List ρ
  ordered : rows.Pairwise fun before after => key before < key after

namespace OrderedMap

/-- Put a row where its key belongs. -/
def place (key : ρ → Int) (row : ρ) : List ρ → List ρ
  | [] => [row]
  | old :: rows =>
      if key row < key old then row :: old :: rows
      else if key row = key old then row :: rows
      else old :: place key row rows

theorem mem_of_mem_place {row other : ρ} {rows : List ρ} (h : other ∈ place key row rows) :
    other = row ∨ other ∈ rows := by
  induction rows with
  | nil => exact .inl (List.mem_singleton.mp h)
  | cons old rows ih =>
      rw [place] at h
      split at h
      · exact (List.mem_cons.mp h)
      · split at h
        · exact (List.mem_cons.mp h).imp_right (List.mem_cons_of_mem _)
        · rcases List.mem_cons.mp h with rfl | h
          · exact .inr List.mem_cons_self
          · exact (ih h).imp_right (List.mem_cons_of_mem _)

theorem ordered_place {row : ρ} {rows : List ρ}
    (h : rows.Pairwise fun before after => key before < key after) :
    (place key row rows).Pairwise fun before after => key before < key after := by
  induction rows with
  | nil => exact List.pairwise_singleton _ _
  | cons old rows ih =>
      obtain ⟨hfirst, hrest⟩ := List.pairwise_cons.mp h
      rw [place]
      split
      · rename_i hlt
        refine List.pairwise_cons.mpr ⟨fun other hother => ?_, h⟩
        rcases List.mem_cons.mp hother with rfl | hother
        · exact hlt
        · exact Int.lt_trans hlt (hfirst other hother)
      · split
        · rename_i heq
          exact List.pairwise_cons.mpr ⟨fun other hother => heq ▸ hfirst other hother, hrest⟩
        · rename_i hlt hne
          refine List.pairwise_cons.mpr ⟨fun other hother => ?_, ih hrest⟩
          rcases mem_of_mem_place hother with rfl | hother
          · omega
          · exact hfirst other hother

theorem find?_place {row : ρ} {rows : List ρ}
    (h : rows.Pairwise fun before after => key before < key after) (target : Int) :
    (place key row rows).find? (fun other => key other == target) =
      if key row = target then some row else rows.find? fun other => key other == target := by
  induction rows with
  | nil =>
      by_cases heq : key row = target <;> simp [place, heq]
  | cons old rows ih =>
      obtain ⟨hfirst, hrest⟩ := List.pairwise_cons.mp h
      rw [place]
      split
      · by_cases heq : key row = target <;> simp [heq]
      · split
        · rename_i hold
          by_cases heq : key row = target
          · simp [heq]
          · simp [heq, hold ▸ heq]
        · rename_i hlt hne
          by_cases hold : key old = target
          · have hrow : ¬ key row = target := fun heq => hne (heq.trans hold.symm)
            simp [hold, hrow]
          · simpa [hold] using ih hrest

/-- No row. -/
def empty : OrderedMap ρ key := ⟨[], List.Pairwise.nil⟩

/-- A row takes the place of the one with its key. -/
def insert (map : OrderedMap ρ key) (row : ρ) : OrderedMap ρ key :=
  ⟨place key row map.rows, ordered_place map.ordered⟩

/-- Insert one row after the other. -/
def ofRows (rows : List ρ) : OrderedMap ρ key := rows.foldl insert empty

/-- The row with a key. -/
def find? (map : OrderedMap ρ key) (target : Int) : Option ρ :=
  map.rows.find? fun row => key row == target

/-- The keys in their order. -/
def keys (map : OrderedMap ρ key) : List Int := map.rows.map key

variable {map : OrderedMap ρ key}

theorem find?_insert (row : ρ) (target : Int) :
    (map.insert row).find? target = if key row = target then some row else map.find? target :=
  find?_place map.ordered target

theorem mem_of_find? {target : Int} {row : ρ} (h : map.find? target = some row) :
    row ∈ map.rows :=
  List.mem_of_find?_eq_some h

theorem find?_of_mem {row : ρ} (h : row ∈ map.rows) : map.find? (key row) = some row := by
  obtain ⟨rows, hordered⟩ := map
  rw [find?]
  induction rows with
  | nil => cases h
  | cons old rows ih =>
      obtain ⟨hfirst, hrest⟩ := List.pairwise_cons.mp hordered
      rcases List.mem_cons.mp h with rfl | h
      · simp
      · have hne : key old ≠ key row := Int.ne_of_lt (hfirst row h)
        simpa [hne] using ih hrest h

theorem nodup_keys : map.keys.Nodup :=
  List.Pairwise.map _ (fun _ _ => Int.ne_of_lt) map.ordered

end OrderedMap

end EasyDeploy.Foundation
