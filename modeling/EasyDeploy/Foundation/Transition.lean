import Mathlib.Data.List.Basic
import Mathlib.Tactic.Cases

/-!
# Transition systems

A system moves by actions that a step function accepts or refuses. Runs may be
restricted to steps that meet a condition, so that an invariant can be proved
for all runs or for the runs that keep clear of a defect.
-/

namespace EasyDeploy.Foundation

/-- Initial states and a step function; `none` refuses the action. -/
structure Transition (σ α : Type*) where
  initial : σ → Prop
  step : σ → α → Option σ

namespace Transition

variable {σ α : Type*} {T : Transition σ α} {permitted permitted' : σ → α → Prop}

/-- The states of the runs whose steps are all permitted. -/
inductive Reached (T : Transition σ α) (permitted : σ → α → Prop) : σ → Prop
  | start {s} (h : T.initial s) : Reached T permitted s
  | next {s a s'} (before : Reached T permitted s) (allowed : permitted s a)
      (h : T.step s a = some s') : Reached T permitted s'

/-- The states of all runs. -/
abbrev Reachable (T : Transition σ α) : σ → Prop := Reached T fun _ _ => True

/-- Runs that may do less reach no more. -/
theorem Reached.mono {s : σ} (h : Reached T permitted s)
    (weaken : ∀ s a, permitted s a → permitted' s a) : Reached T permitted' s := by
  induction h with
  | start h => exact .start h
  | next _ allowed h ih => exact .next ih (weaken _ _ allowed) h

theorem Reached.reachable {s : σ} (h : Reached T permitted s) : Reachable T s :=
  h.mono fun _ _ _ => trivial

/-- What holds initially and is kept by permitted steps holds in every state of the runs. -/
theorem Reached.invariant {P : σ → Prop} {s : σ} (h : Reached T permitted s)
    (start : ∀ s, T.initial s → P s)
    (keep : ∀ s a s', Reached T permitted s → permitted s a → P s → T.step s a = some s' →
      P s') : P s := by
  induction h with
  | start h => exact start _ h
  | next before allowed h ih => exact keep _ _ _ before allowed ih h

/-- The state after a list of actions. -/
def exec (T : Transition σ α) (s : σ) : List α → Option σ
  | [] => some s
  | a :: as =>
      match T.step s a with
      | some s' => T.exec s' as
      | none => none

/-- Executed actions lead from reachable states to reachable states. -/
theorem Reachable.exec {s s' : σ} {as : List α} (h : Reachable T s)
    (hexec : T.exec s as = some s') : Reachable T s' := by
  induction as generalizing s with
  | nil =>
      obtain rfl := Option.some.inj hexec
      exact h
  | cons a as ih =>
      simp only [Transition.exec] at hexec
      split at hexec
      · rename_i s₁ hstep
        exact ih (.next h trivial hstep) hexec
      · cases hexec

/-- The same steps from a given state. -/
def startingAt (T : Transition σ α) (s : σ) : Transition σ α := { T with initial := (· = s) }

theorem Reached.of_startingAt {s s' : σ} (h : Reached T permitted s)
    (hlater : Reached (T.startingAt s) permitted s') : Reached T permitted s' := by
  induction hlater with
  | start hstart =>
      obtain rfl := hstart
      exact h
  | next _ allowed hstep ih => exact .next ih allowed hstep

/-- The system that refuses what is not allowed. -/
def restrict (T : Transition σ α) (allowed : σ → α → Bool) : Transition σ α where
  initial := T.initial
  step s a := if allowed s a then T.step s a else none

theorem Reached.of_restrict {allowed : σ → α → Bool} {s : σ}
    (h : Reachable (T.restrict allowed) s) : Reached T (fun s a => allowed s a = true) s := by
  induction h with
  | start h => exact .start h
  | next _ _ h ih =>
      simp only [restrict] at h
      split at h
      · rename_i hallowed
        exact .next ih hallowed h
      · cases h

variable {ε : Type*} {event : σ → α → Option ε}

/-- The system that keeps the events of its steps. -/
def logged (T : Transition σ α) (event : σ → α → Option ε) : Transition (List ε × σ) α where
  initial state := state.1 = [] ∧ T.initial state.2
  step state a := (T.step state.2 a).map fun s' => (state.1 ++ (event state.2 a).toList, s')

theorem step_logged_eq_some {log log' : List ε} {s s' : σ} {a : α} :
    (T.logged event).step (log, s) a = some (log', s') ↔
      T.step s a = some s' ∧ log ++ (event s a).toList = log' := by
  simp only [logged, Option.map_eq_some_iff, Prod.mk.injEq]
  constructor
  · rintro ⟨_, hstep, hlog, rfl⟩
    exact ⟨hstep, hlog⟩
  · rintro ⟨hstep, hlog⟩
    exact ⟨s', hstep, hlog, rfl⟩

/-- Every event of a log was the event of a step, taken when the events before it had been
logged. -/
theorem Reachable.of_logged {before after : List ε} {e : ε} {s : σ}
    (h : Reachable (T.logged event) (before ++ e :: after, s)) :
    ∃ s₁ a s₂, Reachable (T.logged event) (before, s₁) ∧ T.step s₁ a = some s₂ ∧
      event s₁ a = some e := by
  generalize hstate : (before ++ e :: after, s) = state at h
  induction h generalizing after s with
  | start h =>
      obtain rfl := hstate
      exact absurd h.1 (by simp)
  | @next old a _ reached _ h ih =>
      obtain rfl := hstate
      obtain ⟨log, s₁⟩ := old
      obtain ⟨hstep, hlog⟩ := step_logged_eq_some.mp h
      cases hevent : event s₁ a with
      | none =>
          rw [hevent, Option.toList_none, List.append_nil] at hlog
          exact ih (by rw [hlog])
      | some last =>
          rw [hevent, Option.toList_some] at hlog
          rcases List.eq_nil_or_concat after with rfl | ⟨init, final, rfl⟩
          · obtain ⟨rfl, hlast⟩ := List.append_inj' hlog rfl
            obtain rfl := List.singleton_inj.mp hlast
            exact ⟨s₁, a, s, reached, hstep, hevent⟩
          · rw [List.concat_eq_append, ← List.cons_append, ← List.append_assoc] at hlog
            exact ih (by rw [(List.append_inj' hlog rfl).1])

end Transition

end EasyDeploy.Foundation
