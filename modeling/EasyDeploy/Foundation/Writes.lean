import Mathlib.Data.List.Nodup
import Mathlib.Logic.Function.Basic

/-!
# Sequences of writes

A sequence of writes to a store stops at the first one that fails, and nothing
takes the earlier ones back. The store is as before exactly when each write that
was reached had nothing to change.
-/

namespace EasyDeploy.Foundation

variable {κ δ ν ε : Type}

/-- A step of a series of writes. -/
inductive WriteStep (κ δ ν ε : Type)
  /-- Something that a later write needs, and that does not show in the store. -/
  | prepare (place : δ)
  | put (key : κ) (value : ν)
  | reject (error : ε)

/-- The steps that fail. A failing write leaves some value behind. -/
structure WriteFailures (κ δ ν ε : Type) where
  prepare : δ → Option ε
  put : κ → Option (ε × ν)

namespace WriteStep

variable (failures : WriteFailures κ δ ν ε)

/-- The error of a step that fails. -/
def error : WriteStep κ δ ν ε → Option ε
  | .prepare place => failures.prepare place
  | .put key _ => (failures.put key).map (·.1)
  | .reject error => some error

/-- The key that a step writes. -/
def key? : WriteStep κ δ ν ε → Option κ
  | .put key _ => some key
  | _ => none

/-- What a write leaves at its key. -/
def leaves (key : κ) (value : ν) : ν := ((failures.put key).map (·.2)).getD value

variable [DecidableEq κ]

/-- What a step changes. -/
def effect (store : κ → ν) : WriteStep κ δ ν ε → κ → ν
  | .put key value => Function.update store key (leaves failures key value)
  | _ => store

end WriteStep

variable [DecidableEq κ] (failures : WriteFailures κ δ ν ε)

/-- The steps up to the first that fails. -/
def runWrites : List (WriteStep κ δ ν ε) → (κ → ν) → Option ε × (κ → ν)
  | [], store => (none, store)
  | step :: rest, store =>
      match step.error failures with
      | none => runWrites rest (step.effect failures store)
      | some error => (some error, step.effect failures store)

/-- The step has nothing to change. -/
def WriteStep.Idle (store : κ → ν) : WriteStep κ δ ν ε → Prop
  | .put key value => store key = leaves failures key value
  | _ => True

/-- No step that is reached has something to change. -/
def Idle (store : κ → ν) : List (WriteStep κ δ ν ε) → Prop
  | [] => True
  | step :: rest =>
      step.Idle failures store ∧ (step.error failures = none → Idle store rest)

variable {failures} {steps : List (WriteStep κ δ ν ε)} {step : WriteStep κ δ ν ε} {store : κ → ν}
  {key : κ}

theorem WriteStep.effect_eq_self_iff : step.effect failures store = store ↔
    step.Idle failures store := by
  cases step with
  | put key value =>
      rw [effect, Idle, Function.update_eq_self_iff]
      exact eq_comm
  | prepare place => exact ⟨fun _ => trivial, fun _ => rfl⟩
  | reject error => exact ⟨fun _ => trivial, fun _ => rfl⟩

theorem WriteStep.effect_of_ne (h : step.key? ≠ some key) :
    step.effect failures store key = store key := by
  cases step with
  | put written value =>
      apply Function.update_of_ne
      rintro rfl
      exact h rfl
  | prepare place => rfl
  | reject error => rfl

/-- Keys that no step writes keep their values. -/
theorem runWrites_of_not_mem (h : key ∉ steps.filterMap WriteStep.key?) :
    (runWrites failures steps store).2 key = store key := by
  induction steps generalizing store with
  | nil => rfl
  | cons step rest ih =>
      have hstep : step.key? ≠ some key := by
        intro heq
        exact h (List.mem_filterMap.mpr ⟨step, List.mem_cons_self, heq⟩)
      have hrest : key ∉ rest.filterMap WriteStep.key? := by
        intro hmem
        obtain ⟨other, hother, heq⟩ := List.mem_filterMap.mp hmem
        exact h (List.mem_filterMap.mpr ⟨other, List.mem_cons_of_mem _ hother, heq⟩)
      rw [runWrites]
      split
      · rw [ih hrest, WriteStep.effect_of_ne hstep]
      · exact WriteStep.effect_of_ne hstep

theorem runWrites_eq_none_iff :
    (runWrites failures steps store).1 = none ↔ ∀ step ∈ steps, step.error failures = none := by
  induction steps generalizing store with
  | nil => exact ⟨fun _ _ hmem => absurd hmem List.not_mem_nil, fun _ => rfl⟩
  | cons step rest ih =>
      rw [runWrites, List.forall_mem_cons]
      split
      · rename_i hnone
        rw [ih]
        exact ⟨fun h => ⟨hnone, h⟩, fun h => h.2⟩
      · rename_i error hsome
        constructor
        · intro h
          cases h
        · intro h
          rw [hsome] at h
          cases h.1

/-- A later step does not write the key again, so that a change at it stays. -/
theorem runWrites_eq_self_iff (hkeys : (steps.filterMap WriteStep.key?).Nodup) :
    (runWrites failures steps store).2 = store ↔ Idle failures store steps := by
  induction steps generalizing store with
  | nil => exact ⟨fun _ => trivial, fun _ => rfl⟩
  | cons step rest ih =>
      have hrest : (rest.filterMap WriteStep.key?).Nodup := by
        rw [List.filterMap_cons] at hkeys
        split at hkeys
        · exact hkeys
        · exact (List.nodup_cons.mp hkeys).2
      rw [runWrites, Idle]
      split
      · rename_i hnone
        constructor
        · intro h
          have hidle : step.effect failures store = store := by
            cases step with
            | put key value =>
                have hnew : key ∉ rest.filterMap WriteStep.key? := by
                  rw [List.filterMap_cons] at hkeys
                  exact (List.nodup_cons.mp hkeys).1
                have hvalue := congrFun h key
                rw [runWrites_of_not_mem hnew, WriteStep.effect, Function.update_self] at hvalue
                exact Function.update_eq_self_iff.mpr hvalue
            | prepare place => rfl
            | reject error => rfl
          rw [hidle] at h
          exact ⟨WriteStep.effect_eq_self_iff.mp hidle, fun _ => (ih hrest).mp h⟩
        · intro h
          rw [WriteStep.effect_eq_self_iff.mpr h.1]
          exact (ih hrest).mpr (h.2 hnone)
      · rename_i error hsome
        constructor
        · intro h
          refine ⟨WriteStep.effect_eq_self_iff.mp h, fun hnone => ?_⟩
          rw [hsome] at hnone
          cases hnone
        · intro h
          exact WriteStep.effect_eq_self_iff.mpr h.1

/-- When no step fails, each key has the value that was written. -/
theorem runWrites_of_mem (hkeys : (steps.filterMap WriteStep.key?).Nodup)
    (hnone : ∀ step ∈ steps, step.error failures = none) {value : ν}
    (h : WriteStep.put key value ∈ steps) :
    (runWrites failures steps store).2 key = value := by
  induction steps generalizing store with
  | nil => exact absurd h List.not_mem_nil
  | cons step rest ih =>
      have hfirst := hnone step List.mem_cons_self
      rw [runWrites, hfirst]
      rw [List.filterMap_cons] at hkeys
      rcases List.mem_cons.mp h with rfl | hrest
      · have hnew := (List.nodup_cons.mp hkeys).1
        have hwrites : failures.put key = none := Option.map_eq_none_iff.mp hfirst
        show (runWrites failures rest _).2 key = value
        rw [runWrites_of_not_mem hnew, WriteStep.effect, Function.update_self, WriteStep.leaves,
          hwrites]
        rfl
      · apply ih _ (fun other hother => hnone other (List.mem_cons_of_mem _ hother)) hrest
        split at hkeys
        · exact hkeys
        · exact (List.nodup_cons.mp hkeys).2

end EasyDeploy.Foundation
