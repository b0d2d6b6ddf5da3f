import Mathlib.Data.List.Basic
import Mathlib.Tactic.Cases

/-!
# Lexing an input into tokens

A lexing cuts an input, from the left, into tokens. Which token may be cut at
a position depends on the current mode and on the whole remaining input, so a
lexer with unbounded lookahead is covered. The relation is kept separate from
any algorithm: a streaming algorithm is compared with it, and two algorithms
that refine the same deterministic lexing produce the same tokens.
-/

namespace EasyDeploy.Foundation

/-- The text a token stands for and the mode in which the next token is cut. -/
structure TokenKind (σ α τ : Type*) where
  source : τ → List α
  next : τ → σ

variable {σ α τ : Type*} {K : TokenKind σ α τ}
variable {fits fits' : σ → List α → τ → Prop}

/-- `Lexes K fits m s ts m' rest` holds when the tokens `ts` are cut from the
front of `s`, starting in mode `m`, and leave `rest` in mode `m'`. -/
inductive Lexes (K : TokenKind σ α τ) (fits : σ → List α → τ → Prop) :
    σ → List α → List τ → σ → List α → Prop
  | done (m s) : Lexes K fits m s [] m s
  | cut {m t rest ts m' rest'} (h : fits m (K.source t ++ rest) t)
      (tail : Lexes K fits (K.next t) rest ts m' rest') :
      Lexes K fits m (K.source t ++ rest) (t :: ts) m' rest'

/-- A text inside the concatenated texts of a list starts inside one of them. -/
theorem exists_flatMap_split {f : τ → List α} {ts : List τ} {first : α} {text : List α}
    (h : first :: text <:+: ts.flatMap f) :
    ∃ before t after front back, ts = before ++ t :: after ∧
      f t = front ++ first :: back ∧ text <+: back ++ after.flatMap f := by
  induction ts with
  | nil => simp at h
  | cons t ts ih =>
      obtain ⟨left, right, heq⟩ := h
      rw [List.flatMap_cons, List.append_assoc] at heq
      rcases List.append_eq_append_iff.mp heq with ⟨back, hft, htail⟩ | ⟨back, hleft, htail⟩
      · cases back with
        | nil =>
            have hin : first :: text <:+: ts.flatMap f := ⟨[], right, by simpa using htail⟩
            obtain ⟨before, t', after, front, back, rfl, h⟩ := ih hin
            exact ⟨t :: before, t', after, front, back, rfl, h⟩
        | cons byte back =>
            rw [List.cons_append, List.cons_append] at htail
            obtain ⟨rfl, hback⟩ := List.cons.inj htail
            exact ⟨[], t, ts, left, back, rfl, hft, ⟨right, hback⟩⟩
      · have hin : first :: text <:+: ts.flatMap f := ⟨back, right, by simp [htail]⟩
        obtain ⟨before, t', after, front, back, rfl, h⟩ := ih hin
        exact ⟨t :: before, t', after, front, back, rfl, h⟩

namespace Lexes

/-- The input is the text of the tokens followed by what is left. -/
theorem source_eq {m s ts m' rest} (h : Lexes K fits m s ts m' rest) :
    s = ts.flatMap K.source ++ rest := by
  induction h with
  | done => simp
  | cut _ _ ih => rw [List.flatMap_cons, List.append_assoc, ← ih]

/-- The remaining input never grows. -/
theorem length_le {m s ts m' rest} (h : Lexes K fits m s ts m' rest) :
    rest.length ≤ s.length := by
  rw [h.source_eq, List.length_append]
  exact Nat.le_add_left _ _

theorem append {m s ts m₁ s₁ ts' m₂ s₂} (h : Lexes K fits m s ts m₁ s₁)
    (h' : Lexes K fits m₁ s₁ ts' m₂ s₂) : Lexes K fits m s (ts ++ ts') m₂ s₂ := by
  induction h with
  | done => exact h'
  | cut hfit _ ih => exact .cut hfit (ih h')

/-- A lexing under stronger cutting rules is a lexing under weaker ones. -/
theorem mono {m s ts m' rest} (h : Lexes K fits m s ts m' rest)
    (weaken : ∀ m s t, fits m s t → fits' m s t) : Lexes K fits' m s ts m' rest := by
  induction h with
  | done => exact .done _ _
  | cut hfit _ ih => exact .cut (weaken _ _ _ hfit) ih

theorem nil_inv {m s m' rest} (h : Lexes K fits m s [] m' rest) : m' = m ∧ rest = s := by
  cases h
  exact ⟨rfl, rfl⟩

theorem cons_inv {m s t ts m' rest} (h : Lexes K fits m s (t :: ts) m' rest) :
    ∃ s', s = K.source t ++ s' ∧ fits m s t ∧ Lexes K fits (K.next t) s' ts m' rest := by
  cases h with
  | cut hfit tail => exact ⟨_, rfl, hfit, tail⟩

/-- A single token is cut. -/
theorem single {m t rest} (h : fits m (K.source t ++ rest) t) :
    Lexes K fits m (K.source t ++ rest) [t] (K.next t) rest :=
  .cut h (.done _ _)

theorem split {m s ts ts' m' rest} (h : Lexes K fits m s (ts ++ ts') m' rest) :
    ∃ m₁ s₁, Lexes K fits m s ts m₁ s₁ ∧ Lexes K fits m₁ s₁ ts' m' rest := by
  induction ts generalizing m s with
  | nil => exact ⟨m, s, .done m s, h⟩
  | cons t ts ih =>
      obtain ⟨s', rfl, hfit, tail⟩ := h.cons_inv
      obtain ⟨m₁, s₁, hl, hl'⟩ := ih tail
      exact ⟨m₁, s₁, .cut hfit hl, hl'⟩

/-- The tokens alone decide the mode in which they end. -/
theorem mode_eq {m s s' ts m₁ m₂ rest rest'} (h : Lexes K fits m s ts m₁ rest)
    (h' : Lexes K fits' m s' ts m₂ rest') : m₁ = m₂ := by
  induction h generalizing s' with
  | done => exact h'.nil_inv.1.symm
  | cut _ _ ih =>
      obtain ⟨s', -, -, tail'⟩ := h'.cons_inv
      exact ih tail'

/-- What follows a lexed front of the same input. -/
theorem after {m s ts ts' m₁ s₁ m' rest} (h : Lexes K fits m s (ts ++ ts') m' rest)
    (front : Lexes K fits' m s ts m₁ s₁) : Lexes K fits m₁ s₁ ts' m' rest := by
  obtain ⟨m₂, s₂, hl, hl'⟩ := h.split
  obtain rfl := hl.mode_eq front
  have hs := hl.source_eq
  rw [front.source_eq] at hs
  rwa [List.append_cancel_left hs]

/-- Cutting is unambiguous at every position that a lexing of `s` reaches. -/
def Unambiguous (K : TokenKind σ α τ) (fits : σ → List α → τ → Prop) (m : σ) (s : List α) :
    Prop :=
  ∀ ts m' rest, Lexes K fits m s ts m' rest →
    ∀ t t', fits m' rest t → fits m' rest t' → t = t'

theorem Unambiguous.tail {m : σ} {s : List α} {t : τ} {rest : List α}
    (h : Unambiguous K fits m s) (hs : s = K.source t ++ rest) (hfit : fits m s t) :
    Unambiguous K fits (K.next t) rest := by
  subst hs
  intro ts m' rest' hl
  exact h (t :: ts) m' rest' (.cut hfit hl)

/-- Where cutting is unambiguous, the lexing that leaves less continues the
one that leaves more. -/
theorem resume {m s ts m₁ s₁ ts' m₂ s₂} (h : Lexes K fits m s ts m₁ s₁)
    (h' : Lexes K fits m s ts' m₂ s₂) (unique : Unambiguous K fits m s)
    (nonempty : ∀ m s t, fits m s t → K.source t ≠ []) (hle : s₂.length ≤ s₁.length) :
    ∃ ts'', ts' = ts ++ ts'' ∧ Lexes K fits m₁ s₁ ts'' m₂ s₂ := by
  induction h generalizing ts' with
  | done m s => exact ⟨ts', rfl, h'⟩
  | @cut m t rest ts m₁ s₁ hfit tail ih =>
      cases ts' with
      | nil =>
          obtain ⟨-, rfl⟩ := h'.nil_inv
          have hpos := List.length_pos_iff.mpr (nonempty _ _ _ hfit)
          have hrest := tail.length_le
          rw [List.length_append] at hle
          omega
      | cons t' ts' =>
          obtain ⟨s', hs', hfit', tail'⟩ := h'.cons_inv
          obtain rfl := unique [] m _ (.done _ _) t t' hfit hfit'
          obtain rfl := List.append_cancel_left hs'
          obtain ⟨ts'', rfl, hl⟩ := ih tail' (unique.tail rfl hfit) hle
          exact ⟨ts'', rfl, hl⟩

/-- An unambiguous input has at most one complete lexing. -/
theorem unique_complete {m s ts m₁ ts' m₂} (h : Lexes K fits m s ts m₁ [])
    (h' : Lexes K fits m s ts' m₂ []) (unique : Unambiguous K fits m s)
    (nonempty : ∀ m s t, fits m s t → K.source t ≠ []) : ts = ts' ∧ m₁ = m₂ := by
  obtain ⟨ts'', rfl, hl⟩ := h.resume h' unique nonempty (Nat.le_refl _)
  cases ts'' with
  | nil => exact ⟨(List.append_nil _).symm, (hl.nil_inv).1.symm⟩
  | cons t ts'' =>
      obtain ⟨s', hs', hfit, -⟩ := hl.cons_inv
      have hempty : K.source t = [] := (List.append_eq_nil_iff.mp hs'.symm).1
      exact absurd hempty (nonempty _ _ _ hfit)

end Lexes

end EasyDeploy.Foundation
