import EasyDeploy.Foundation.Transition
import Mathlib.Data.List.Forall2

/-!
# Simulation

A system is simulated by another one when a relation between their states is kept
by each of its steps, with a step of the other system or with none. What is known
of all states that the other system reaches then holds of the related ones. Steps
of two programs that give related results are composed by a rule for `bind`.
-/

namespace EasyDeploy.Foundation

namespace Transition

variable {σ τ α β : Type*} {T : Transition σ α} {U : Transition τ β}
  {permitted : σ → α → Prop}

/-- The relation starts and each permitted step keeps it. -/
structure Simulates (T : Transition σ α) (permitted : σ → α → Prop) (U : Transition τ β)
    (related : σ → τ → Prop) : Prop where
  start : ∀ s, T.initial s → ∃ t, U.initial t ∧ related s t
  step : ∀ s a s' t, permitted s a → related s t → T.step s a = some s' →
    related s' t ∨ ∃ b t', U.step t b = some t' ∧ related s' t'

/-- A state that is reached is related to a state that the other system reaches. -/
theorem Reached.exists_related {related : σ → τ → Prop} {s : σ} (h : Reached T permitted s)
    (hsimulates : Simulates T permitted U related) : ∃ t, Reachable U t ∧ related s t := by
  induction h with
  | start h =>
      obtain ⟨t, hstart, hrelated⟩ := hsimulates.start _ h
      exact ⟨t, .start hstart, hrelated⟩
  | next _ allowed h ih =>
      obtain ⟨t, hreached, hrelated⟩ := ih
      rcases hsimulates.step _ _ _ t allowed hrelated h with hrelated' | ⟨b, t', hstep, hrelated'⟩
      · exact ⟨t, hreached, hrelated'⟩
      · exact ⟨t', .next hreached trivial hstep, hrelated'⟩

end Transition

section Results

variable {ε α β α' β' : Type}

/-- The same error, or related values. -/
inductive Agree (R : α → β → Prop) : Except ε α → Except ε β → Prop
  | ok {value value'} (h : R value value') : Agree R (.ok value) (.ok value')
  | error (error : ε) : Agree R (.error error) (.error error)

variable {R : α → β → Prop} {R' : α' → β' → Prop}

theorem Agree.refl (result : Except ε α) : Agree (· = ·) result result := by
  cases result with
  | error error => exact .error error
  | ok value => exact .ok rfl

theorem Agree.bind {first : Except ε α} {first' : Except ε β} {next : α → Except ε α'}
    {next' : β → Except ε β'} (h : Agree R first first')
    (hnext : ∀ value value', R value value' → Agree R' (next value) (next' value')) :
    Agree R' (first >>= next) (first' >>= next') := by
  cases h with
  | ok h => exact hnext _ _ h
  | error error => exact .error error

theorem Agree.map_eq {f : α → α'} {f' : β → α'} {result : Except ε α} {result' : Except ε β}
    (h : Agree R result result') (hmap : ∀ value value', R value value' → f value = f' value') :
    result.map f = result'.map f' := by
  cases h with
  | ok h => exact congrArg Except.ok (hmap _ _ h)
  | error => rfl

theorem rel_imp {S : α → β → Prop} (himp : ∀ value value', R value value' → S value value')
    {value : Option α} {value' : Option β} (h : Option.Rel R value value') :
    Option.Rel S value value' := by
  cases h with
  | none => exact .none
  | some h => exact .some (himp _ _ h)

theorem rel_map_eq {f : α → α'} {f' : β → α'}
    (hmap : ∀ value value', R value value' → f value = f' value')
    {value : Option α} {value' : Option β} (h : Option.Rel R value value') :
    value.map f = value'.map f' := by
  cases h with
  | none => rfl
  | some h => exact congrArg some (hmap _ _ h)

theorem rel_toList {value : Option α} {value' : Option β} (h : Option.Rel R value value') :
    List.Forall₂ R value.toList value'.toList := by
  cases h with
  | none => exact .nil
  | some h => exact .cons h .nil

/-- What is found in related lists by related conditions. -/
theorem rel_find? {p : α → Bool} {p' : β → Bool}
    (hp : ∀ item item', R item item' → p item = p' item')
    {items : List α} {items' : List β} (h : List.Forall₂ R items items') :
    Option.Rel R (items.find? p) (items'.find? p') := by
  induction h with
  | nil => exact .none
  | @cons item item' rest rest' hitem _ ih =>
      rw [List.find?_cons, List.find?_cons, ← hp item item' hitem]
      cases p item with
      | true => exact .some hitem
      | false => exact ih

/-- Related lists are split alike. -/
theorem exists_append_of_forall₂ {before after : List α} {items : List β}
    (h : List.Forall₂ R (before ++ after) items) :
    ∃ before' after', items = before' ++ after' ∧ List.Forall₂ R before before' ∧
      List.Forall₂ R after after' := by
  induction before generalizing items with
  | nil => exact ⟨[], items, rfl, .nil, h⟩
  | cons item rest ih =>
      obtain ⟨item', rest', hitem, hrest, rfl⟩ := List.forall₂_cons_left_iff.mp h
      obtain ⟨before', after', rfl, hbefore, hafter⟩ := ih hrest
      exact ⟨item' :: before', after', rfl, .cons hitem hbefore, hafter⟩

end Results

end EasyDeploy.Foundation
