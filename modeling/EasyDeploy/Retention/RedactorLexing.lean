import EasyDeploy.Foundation.Lexing
import EasyDeploy.Retention.AssignmentPrefix

/-!
# The redactor as a lexing of the stream

What the redactor shows is the text of a lexing of the whole stream into
secrets, assignment prefixes, masked bytes, terminators and plain bytes. The
tokens cut while part of the stream is still to come are the tokens of every
continuation, with one exception: a key followed by more blanks than the
redactor holds back is cut as plain bytes when its separator has not arrived.
-/

namespace EasyDeploy.Retention
open Foundation

/-- What the redactor tells apart. -/
inductive Token
  | secret (text : Bytes)
  | assignment (text : Bytes)
  | masked (byte : UInt8)
  | terminator (byte : UInt8)
  | plain (byte : UInt8)

namespace Token

/-- The bytes of a token. -/
def source : Token → Bytes
  | secret text => text
  | assignment text => text
  | masked byte => [byte]
  | terminator byte => [byte]
  | plain byte => [byte]

/-- What the redactor shows for a token. -/
def shown : Token → Bytes
  | secret _ => redactedMark
  | assignment text => text ++ redactedMark
  | masked _ => []
  | terminator byte => [byte]
  | plain byte => [byte]

/-- Whether the bytes after the token belong to an assignment value. -/
def masks : Token → Bool
  | assignment _ => true
  | masked _ => true
  | _ => false

end Token

/-- The tokens as the library of tokens wants them. -/
def tokenKind : TokenKind Bool UInt8 Token where
  source := Token.source
  next := Token.masks

theorem redactedMark_eq : redactedMark = [91, 82, 69, 68, 65, 67, 84, 69, 68, 93] := by decide

/-- The text that is shown for a list of tokens. -/
def shownText (tokens : List Token) : Bytes := tokens.flatMap Token.shown

@[simp] theorem shownText_nil : shownText [] = [] := rfl

@[simp] theorem shownText_cons (t : Token) (ts : List Token) :
    shownText (t :: ts) = t.shown ++ shownText ts := rfl

@[simp] theorem shownText_append (ts ts' : List Token) :
    shownText (ts ++ ts') = shownText ts ++ shownText ts' := by simp [shownText]

/-- The declared secret that is cut at the front of `s`. -/
def secretAt (secrets : List Bytes) (s : Bytes) : Option Bytes :=
  secrets.find? fun secret => secret.isPrefixOf s

/-- When a token may be cut. `slack` says where a plain byte may be cut although
a sensitive assignment starts there. -/
def Fits (secrets : List Bytes) (slack : Bytes → Prop) : Bool → Bytes → Token → Prop
  | true, s, .masked byte => s.head? = some byte ∧ isAssignmentTerminator byte = false
  | true, s, .terminator byte => s.head? = some byte ∧ isAssignmentTerminator byte = true
  | false, s, .secret text => secretAt secrets s = some text
  | false, s, .assignment text => secretAt secrets s = none ∧
      (sensitiveAssignmentPrefix s).map s.take = some text
  | false, s, .plain byte => secretAt secrets s = none ∧ s.head? = some byte ∧
      (sensitiveAssignmentPrefix s = none ∨ slack s)
  | _, _, _ => False

/-- The key and the blanks before its separator are longer than `overlap`. -/
def Overlong (overlap : Nat) (s : Bytes) : Prop :=
  ∃ offset, sensitiveSeparator s = some offset ∧ overlap < offset

/-- Lexings in which every sensitive assignment is recognised. -/
abbrev Strict : Bytes → Prop := fun _ => False

theorem Fits.weaken {secrets : List Bytes} {slack slack' : Bytes → Prop}
    (h : ∀ s, slack s → slack' s) :
    ∀ m s t, Fits secrets slack m s t → Fits secrets slack' m s t := by
  intro m s t hfit
  cases m <;> cases t <;> try exact hfit
  exact ⟨hfit.1, hfit.2.1, hfit.2.2.imp_right (h s)⟩

theorem fits_assignment_iff {secrets : List Bytes} {slack : Bytes → Prop} {s text : Bytes} :
    Fits secrets slack false s (.assignment text) ↔ secretAt secrets s = none ∧
      ∃ (p : AssignmentPrefix) (rest : Bytes), s = p.text ++ rest ∧ StartsUnblank rest ∧
        text = p.text := by
  simp only [Fits, Option.map_eq_some_iff]
  refine and_congr_right fun _ => ⟨?_, ?_⟩
  · rintro ⟨n, hn, rfl⟩
    obtain ⟨p, rest, rfl, hrest, rfl⟩ := sensitiveAssignmentPrefix_eq_some_iff.mp hn
    exact ⟨p, rest, rfl, hrest, List.take_left⟩
  · rintro ⟨p, rest, rfl, hrest, rfl⟩
    exact ⟨_, sensitiveAssignmentPrefix_eq_some_iff.mpr ⟨p, rest, rfl, hrest, rfl⟩,
      List.take_left⟩

/-- A token's text is not empty, provided that no secret is empty. -/
theorem Fits.source_ne_nil {secrets : List Bytes} {slack : Bytes → Prop}
    (hne : ∀ secret ∈ secrets, secret ≠ []) :
    ∀ m s t, Fits secrets slack m s t → tokenKind.source t ≠ [] := by
  intro m s t hfit
  cases t with
  | secret text =>
      cases m
      · exact hne _ (List.mem_of_find?_eq_some hfit)
      · exact hfit.elim
  | assignment text =>
      cases m
      · obtain ⟨-, p, rest, -, -, rfl⟩ := fits_assignment_iff.mp hfit
        exact p.text_ne_nil
      · exact hfit.elim
  | _ => exact List.cons_ne_nil _ _

/-- Outside overlong key runs at most one token can be cut. -/
theorem Fits.unique {secrets : List Bytes} {slack : Bytes → Prop} {m : Bool} {s : Bytes}
    {t t' : Token} (h : Fits secrets slack m s t) (h' : Fits secrets slack m s t')
    (tight : m = false → secretAt secrets s = none → ¬ slack s) : t = t' := by
  cases m <;> cases t <;> simp only [Fits] at h <;> cases t' <;> simp only [Fits] at h' <;>
    simp_all

/-- Bytes that end no value. -/
def TerminatorFree (text : Bytes) : Prop :=
  ∀ byte ∈ text, isAssignmentTerminator byte = false

instance (text : Bytes) : Decidable (TerminatorFree text) :=
  inferInstanceAs (Decidable (∀ byte ∈ text, isAssignmentTerminator byte = false))

/-- A text without terminators is masked whole. -/
theorem masked_lexes {secrets : List Bytes} {slack : Bytes → Prop} {value : Bytes}
    (hvalue : TerminatorFree value) (rest : Bytes) :
    Lexes tokenKind (Fits secrets slack) true (value ++ rest) (value.map .masked) true rest := by
  induction value with
  | nil => exact .done _ _
  | cons byte value ih =>
      have hfit : Fits secrets slack true (tokenKind.source (.masked byte) ++ (value ++ rest))
          (.masked byte) := ⟨rfl, hvalue byte List.mem_cons_self⟩
      exact .cut hfit (ih fun b hb => hvalue b (List.mem_cons_of_mem _ hb))

@[simp] theorem shownText_masked (value : Bytes) : shownText (value.map .masked) = [] := by
  simp [shownText, List.flatMap_map, Token.shown]

/-- A masked position stands behind a recognised assignment and a part of its value. -/
theorem masked_run {secrets : List Bytes} {slack : Bytes → Prop} {m : Bool} {s : Bytes}
    {ts : List Token} {rest : Bytes}
    (hl : Lexes tokenKind (Fits secrets slack) m s ts true rest) :
    (m = true ∧ ∃ value, s = value ++ rest ∧ TerminatorFree value) ∨
      ∃ (p : AssignmentPrefix) (value : Bytes),
        secretAt secrets (p.text ++ (value ++ rest)) = none ∧
        StartsUnblank (value ++ rest) ∧ TerminatorFree value := by
  induction ts generalizing m s with
  | nil =>
      obtain ⟨rfl, rfl⟩ := hl.nil_inv
      exact .inl ⟨rfl, [], rfl, by simp [TerminatorFree]⟩
  | cons t ts ih =>
      obtain ⟨s', rfl, hfit, htail⟩ := hl.cons_inv
      rcases ih htail with ⟨hmasks, value, rfl, hvalue⟩ | hbehind
      · cases t with
        | assignment text =>
            cases m with
            | true => exact hfit.elim
            | false =>
                obtain ⟨hsecret, p, rest', heq, hrest, rfl⟩ := fits_assignment_iff.mp hfit
                obtain rfl := List.append_cancel_left heq
                exact .inr ⟨p, value, hsecret, hrest, hvalue⟩
        | masked byte =>
            cases m with
            | true =>
                refine .inl ⟨rfl, byte :: value, rfl, ?_⟩
                intro b hb
                rcases List.mem_cons.mp hb with rfl | hb
                · exact hfit.2
                · exact hvalue b hb
            | false => exact hfit.elim
        | _ => cases hmasks
      · exact .inr hbehind

theorem secretAt_append {secrets : List Bytes} {visible future : Bytes}
    (hlen : ∀ secret ∈ secrets, secret.length ≤ visible.length) :
    secretAt secrets (visible ++ future) = secretAt secrets visible := by
  apply List.find?_congr
  intro secret hmem
  rw [Bool.eq_iff_iff, List.isPrefixOf_iff_prefix, List.isPrefixOf_iff_prefix]
  constructor
  · intro h
    exact List.prefix_of_prefix_length_le h (List.prefix_append _ _) (hlen secret hmem)
  · intro h
    exact h.trans (List.prefix_append _ _)

/-- A separator that is visible is seen, whatever follows. -/
theorem sensitiveSeparator_visible {visible future : Bytes} {offset : Nat}
    (h : sensitiveSeparator (visible ++ future) = some offset) (hlt : offset < visible.length) :
    sensitiveSeparator visible = some offset := by
  obtain ⟨p, rest, heq, rfl⟩ := sensitiveSeparator_eq_some_iff.mp h
  have hfront : p.keyRun ++ [p.separator] <+: visible ++ future := ⟨rest, by rw [heq]; simp⟩
  obtain ⟨rest', rfl⟩ := List.prefix_of_prefix_length_le hfront (List.prefix_append _ _)
    (by simpa using Nat.succ_le_of_lt hlt)
  exact sensitiveSeparator_eq_some_iff.mpr ⟨p, rest', by simp, rfl⟩

/-- A prefix that ends before the visible part does is the prefix of every continuation. -/
theorem sensitiveAssignmentPrefix_append {visible future : Bytes} {n : Nat}
    (h : sensitiveAssignmentPrefix visible = some n) (hlt : n < visible.length) :
    sensitiveAssignmentPrefix (visible ++ future) = some n := by
  obtain ⟨p, rest, rfl, hrest, rfl⟩ := sensitiveAssignmentPrefix_eq_some_iff.mp h
  have hne : rest ≠ [] := by
    rintro rfl
    simp at hlt
  exact sensitiveAssignmentPrefix_eq_some_iff.mpr
    ⟨p, rest ++ future, List.append_assoc _ _ _, hrest.append hne future, rfl⟩

/-- Where no prefix is visible, a continuation shows one only behind an overlong key run. -/
theorem sensitiveAssignmentPrefix_none_append {visible : Bytes} {overlap : Nat}
    (h : sensitiveAssignmentPrefix visible = none) (hlen : overlap < visible.length)
    (future : Bytes) : sensitiveAssignmentPrefix (visible ++ future) = none ∨
      Overlong overlap (visible ++ future) := by
  rw [sensitiveAssignmentPrefix_eq_none_iff] at h ⊢
  cases hsep : sensitiveSeparator (visible ++ future) with
  | none => exact .inl rfl
  | some offset =>
      refine .inr ⟨offset, hsep, ?_⟩
      by_contra hle
      rw [sensitiveSeparator_visible hsep (by omega)] at h
      cases h

/-- A token cut on a visible part longer than the overlap is cut of every continuation. -/
theorem Fits.extend {secrets : List Bytes} {overlap : Nat} {m : Bool} {visible : Bytes}
    {t : Token} (h : Fits secrets Strict m visible t) (hlen : overlap < visible.length)
    (hsecrets : ∀ secret ∈ secrets, secret.length ≤ overlap + 1)
    (hassign : ∀ text, t = .assignment text → text.length < visible.length) (future : Bytes) :
    Fits secrets (Overlong overlap) m (visible ++ future) t := by
  have hsecret : secretAt secrets (visible ++ future) = secretAt secrets visible :=
    secretAt_append fun secret hmem => (hsecrets secret hmem).trans hlen
  have hhead : (visible ++ future).head? = visible.head? :=
    List.head?_append_of_ne_nil _ (List.ne_nil_of_length_pos (by omega))
  cases m <;> cases t <;> simp only [Fits, hsecret, hhead] at h ⊢
  · exact h
  · rename_i text
    obtain ⟨hnone, htext⟩ := h
    obtain ⟨n, hn, rfl⟩ := Option.map_eq_some_iff.mp htext
    have hlt : n < visible.length := by
      have hlong := hassign _ rfl
      rw [List.length_take] at hlong
      omega
    refine ⟨hnone, ?_⟩
    rw [sensitiveAssignmentPrefix_append hn hlt, Option.map_some,
      List.take_append_of_le_length hlt.le]
  · obtain ⟨hnone, hbyte, hbegins⟩ := h
    simp only [Strict, or_false] at hbegins
    exact ⟨hnone, hbyte, sensitiveAssignmentPrefix_none_append hbegins hlen future⟩
  · exact h
  · exact h

end EasyDeploy.Retention
