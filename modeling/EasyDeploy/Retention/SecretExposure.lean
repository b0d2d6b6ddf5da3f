import EasyDeploy.Retention.RedactorRefinement

/-!
# Which declared secrets can reach the log

The redactor looks for secrets at every position outside masked values, and
copies two kinds of text without looking: the prefix of a sensitive assignment
behind its first byte, and the terminator of a masked value. A secret reaches
the log exactly when it fits into one of these gaps.
-/

namespace EasyDeploy.Retention
open Foundation

/-- Non-empty secrets that do not collide with the mark. -/
structure DeclaredSecrets (secrets : List Bytes) : Prop where
  ne_nil : ∀ secret ∈ secrets, secret ≠ []
  no_open : ∀ secret ∈ secrets, 91 ∉ secret
  no_close : ∀ secret ∈ secrets, 93 ∉ secret
  not_in_mark : ∀ secret ∈ secrets, ¬ secret <:+: ascii "REDACTED"

/-- No secret stands inside an assignment prefix, unless the prefix begins with a secret. -/
def PrefixesCovered (secrets : List Bytes) : Prop :=
  ∀ p : AssignmentPrefix, (∃ secret ∈ secrets, secret <+: p.text) ∨
    ∀ secret ∈ secrets, ¬ secret <:+: p.text.tail

/-- An assignment prefix inside `text` that ends before `text` does. -/
def HoldsAssignment (text : Bytes) : Prop :=
  ∃ (before : Bytes) (p : AssignmentPrefix) (after : Bytes),
    text = before ++ p.text ++ after ∧ after ≠ [] ∧ StartsUnblank after

/-- A secret that starts with a terminator holds another secret or an assignment
behind it, or cannot end a masked value since a secret hides the assignment. -/
def TerminatorsCovered (secrets : List Bytes) : Prop :=
  ∀ terminator text, terminator :: text ∈ secrets → isAssignmentTerminator terminator = true →
    (∃ secret ∈ secrets, secret <:+: text) ∨ HoldsAssignment text ∨
      ∀ (p : AssignmentPrefix) (value : Bytes), TerminatorFree value →
        StartsUnblank (value ++ terminator :: text) →
        ∃ secret ∈ secrets, secret <+: p.text ++ (value ++ terminator :: text)

variable {secrets : List Bytes}

/-- A text without `byte` ends before `byte`. -/
theorem prefix_of_not_mem {text front back : Bytes} {byte : UInt8}
    (h : text <+: front ++ byte :: back) (hbyte : byte ∉ text) : text <+: front := by
  rcases Nat.lt_or_ge front.length text.length with hlt | hge
  · have hlong : front ++ [byte] <+: text :=
      List.prefix_of_prefix_length_le (by simp) h
        (by rw [List.length_append]; exact hlt)
    exact absurd (hlong.subset (by simp)) hbyte
  · exact List.prefix_of_prefix_length_le h (List.prefix_append _ _) hge

/-- A text without brackets stops before the mark. -/
theorem prefix_before_mark {text front back : Bytes}
    (h : text <+: front ++ redactedMark ++ back) (hbracket : 91 ∉ text) : text <+: front := by
  rw [redactedMark_eq, List.append_assoc, List.cons_append] at h
  exact prefix_of_not_mem h hbracket

/-- Outside masked values, a shown text without brackets is the text of the stream. -/
theorem prefix_source {slack : Bytes → Prop} {s : Bytes} {ts : List Token} {m : Bool}
    {rest text : Bytes} (hl : Lexes tokenKind (Fits secrets slack) false s ts m rest)
    (hshown : text <+: shownText ts) (hbracket : 91 ∉ text) : text <+: s := by
  induction ts generalizing s text with
  | nil => exact (List.prefix_nil.mp hshown) ▸ List.nil_prefix
  | cons t ts ih =>
      obtain ⟨s', rfl, hfit, htail⟩ := hl.cons_inv
      cases t with
      | plain byte =>
          cases text with
          | nil => exact List.nil_prefix
          | cons first text =>
              obtain ⟨rfl, htext⟩ := List.cons_prefix_cons.mp hshown
              exact List.cons_prefix_cons.mpr ⟨rfl, ih htail htext fun hmem =>
                hbracket (List.mem_cons_of_mem _ hmem)⟩
      | assignment prefixText =>
          exact (prefix_before_mark hshown hbracket).trans (List.prefix_append _ _)
      | secret secret =>
          have hnil : text <+: [] := prefix_before_mark hshown hbracket
          exact (List.prefix_nil.mp hnil) ▸ List.nil_prefix
      | masked byte => exact hfit.elim
      | terminator byte => exact hfit.elim

/-- An assignment that stands whole in a shown text is the last of it. -/
theorem not_holdsAssignment {s : Bytes} {ts : List Token} {m : Bool} {rest text : Bytes}
    (hl : Lexes tokenKind (ChunkedFits secrets) false s ts m rest)
    (hshown : text <+: shownText ts) (hbracket : 91 ∉ text)
    (hlen : text.length ≤ overlapOf (orderedSecrets secrets)) : ¬ HoldsAssignment text := by
  rintro ⟨before, p, after, rfl, hafter, hunblank⟩
  induction ts generalizing s before with
  | nil => simp [p.text_ne_nil] at hshown
  | cons t ts ih =>
      have hsource := prefix_source hl hshown hbracket
      obtain ⟨s', rfl, hfit, htail⟩ := hl.cons_inv
      cases t with
      | plain byte =>
          cases before with
          | nil =>
              -- the assignment starts at a plain byte
              obtain ⟨future, heq⟩ := hsource
              have hsep : sensitiveSeparator (tokenKind.source (.plain byte) ++ s') =
                  some p.keyRun.length :=
                sensitiveSeparator_eq_some_iff.mpr
                  ⟨p, p.margin ++ after ++ future, by simp [← heq, AssignmentPrefix.text], rfl⟩
              rcases hfit.2.2 with hnone | ⟨offset, hoffset, hover⟩
              · rw [sensitiveAssignmentPrefix_eq_none_iff, hsep] at hnone
                cases hnone
              · obtain rfl := Option.some.inj (hsep.symm.trans hoffset)
                simp [AssignmentPrefix.text] at hlen
                omega
          | cons first before =>
              obtain ⟨-, htext⟩ := List.cons_prefix_cons.mp hshown
              refine ih htail before htext (fun hmem => hbracket (List.mem_cons_of_mem _ hmem)) ?_
              simp only [List.cons_append, List.length_cons] at hlen
              omega
      | assignment prefixText =>
          obtain ⟨-, q, rest', heq, hrest, rfl⟩ := fits_assignment_iff.mp hfit
          have hinside : before ++ p.text ++ after <+: q.text := prefix_before_mark hshown hbracket
          cases before with
          | nil =>
              obtain ⟨future, hfuture⟩ := hsource
              have hp : sensitiveAssignmentPrefix (q.text ++ s') = some p.text.length := by
                refine sensitiveAssignmentPrefix_eq_some_iff.mpr
                  ⟨p, after ++ future, ?_, hunblank.append hafter _, rfl⟩
                rw [← List.append_assoc]
                exact hfuture.symm
              have hq : sensitiveAssignmentPrefix (q.text ++ s') = some q.text.length :=
                sensitiveAssignmentPrefix_eq_some_iff.mpr ⟨q, rest', heq, hrest, rfl⟩
              have hsame := Option.some.inj (hp.symm.trans hq)
              have hle := hinside.length_le
              have hpos := List.length_pos_iff.mpr hafter
              simp only [List.nil_append, List.length_append] at hle
              omega
          | cons first before =>
              obtain ⟨future, hfuture⟩ := hinside
              have hdrop : q.text.drop (first :: before).length = p.text ++ (after ++ future) := by
                rw [← hfuture, List.append_assoc, List.append_assoc, List.drop_left]
              exact q.text_drop_ne _ (Nat.succ_pos _) p _ hdrop
      | secret secret =>
          have hnil : before ++ p.text ++ after <+: [] := prefix_before_mark hshown hbracket
          simp [p.text_ne_nil] at hnil
      | masked byte => exact hfit.elim
      | terminator byte => exact hfit.elim

/-- A text that starts inside the mark and holds no bracket stands inside the word
between the brackets. -/
theorem infix_of_mark {front back text rest : Bytes} {first : UInt8}
    (heq : redactedMark = front ++ first :: back) (htext : text <+: back ++ rest)
    (hopen : 91 ∉ first :: text) (hclose : 93 ∉ first :: text) :
    first :: text <:+: ascii "REDACTED" := by
  have hmark : redactedMark = 91 :: (ascii "REDACTED" ++ [93]) := by decide
  rw [hmark] at heq
  cases front with
  | nil =>
      rw [List.nil_append] at heq
      exact absurd (List.mem_cons.mpr (.inl (List.cons.inj heq).1)) hopen
  | cons byte front =>
      rw [List.cons_append] at heq
      rcases List.append_eq_append_iff.mp (List.cons.inj heq).2 with
        ⟨back', hfront, htail⟩ | ⟨back', hword, htail⟩
      · cases back' with
        | nil => exact absurd (List.mem_cons.mpr (.inl (List.cons.inj htail).1)) hclose
        | cons byte back' =>
            have hlen := congrArg List.length htail
            simp at hlen
      · cases back' with
        | nil => exact absurd (List.mem_cons.mpr (.inl (List.cons.inj htail).1.symm)) hclose
        | cons byte back' =>
            obtain ⟨rfl, rfl⟩ := List.cons.inj htail
            have hinner : text <+: back' := by
              have htext : text <+: back' ++ 93 :: rest := by simpa using htext
              exact prefix_of_not_mem htext fun hmem => hclose (List.mem_cons_of_mem _ hmem)
            obtain ⟨tail, rfl⟩ := hinner
            exact ⟨front, tail, by rw [hword]; simp⟩

/-- No secret is shown from the start of a token that is cut where no secret starts. -/
theorem not_shown_from_start {slack : Bytes → Prop} {s : Bytes} {ts : List Token} {m : Bool}
    {rest secret : Bytes}
    (hl : Lexes tokenKind (Fits (orderedSecrets secrets) slack) false s ts m rest)
    (hnone : secretAt (orderedSecrets secrets) s = none) (hmem : secret ∈ secrets)
    (hne : secret ≠ []) (hbracket : 91 ∉ secret) : ¬ secret <+: shownText ts :=
  fun hshown => secretAt_eq_none_iff.mp hnone secret hmem hne (prefix_source hl hshown hbracket)

/-- No secret starts inside a shown assignment prefix. -/
theorem not_shown_from_assignment (hdecl : DeclaredSecrets secrets)
    (hcovered : PrefixesCovered secrets) {slack : Bytes → Prop} {s : Bytes} {ts : List Token}
    {m : Bool} {rest prefixText front back text : Bytes} {first : UInt8}
    (hl : Lexes tokenKind (Fits (orderedSecrets secrets) slack) false s
      (.assignment prefixText :: ts) m rest)
    (hshown : prefixText ++ redactedMark = front ++ first :: back)
    (htext : text <+: back ++ shownText ts) : first :: text ∉ secrets := by
  intro hmem
  have hopen := hdecl.no_open _ hmem
  obtain ⟨s', rfl, hfit, -⟩ := hl.cons_inv
  obtain ⟨hnone, p, rest', -, -, rfl⟩ := fits_assignment_iff.mp hfit
  rcases List.append_eq_append_iff.mp hshown with ⟨front', rfl, hmark⟩ | ⟨back', hbegins, htail⟩
  · exact hdecl.not_in_mark _ hmem (infix_of_mark hmark htext hopen (hdecl.no_close _ hmem))
  · cases back' with
    | nil =>
        rw [redactedMark_eq, List.nil_append] at htail
        exact hopen (List.mem_cons.mpr (.inl (List.cons.inj htail).1.symm))
    | cons byte back' =>
        obtain ⟨rfl, rfl⟩ := List.cons.inj htail
        have hinner : first :: text <+: first :: back' :=
          List.cons_prefix_cons.mpr ⟨rfl, prefix_before_mark htext fun hmem' =>
            hopen (List.mem_cons_of_mem _ hmem')⟩
        cases front with
        | nil =>
            rw [List.nil_append] at hbegins
            refine secretAt_eq_none_iff.mp hnone _ hmem (List.cons_ne_nil _ _) ?_
            rw [← hbegins] at hinner
            exact hinner.trans (List.prefix_append _ _)
        | cons byte front =>
            rcases hcovered p with ⟨secret, hsecret, hstart⟩ | hfree
            · exact secretAt_eq_none_iff.mp hnone secret hsecret (hdecl.ne_nil _ hsecret)
                (hstart.trans (List.prefix_append _ _))
            · apply hfree _ hmem
              rw [hbegins, List.cons_append, List.tail_cons]
              exact hinner.isInfix.trans (List.suffix_append _ _).isInfix

/-- No secret is shown from the terminator of a masked value on, provided that the
shorter secrets are not shown. -/
theorem not_shown_from_terminator (hdecl : DeclaredSecrets secrets)
    (hcovered : TerminatorsCovered secrets) {s : Bytes} {before after : List Token} {m : Bool}
    {terminator : UInt8} {text : Bytes}
    (hl : Lexes tokenKind (ChunkedFits secrets) false s
      (before ++ .terminator terminator :: after) m [])
    (htext : text <+: shownText after)
    (hshorter : ∀ secret ∈ secrets, secret.length ≤ text.length →
      ¬ secret <:+: shownText after) : terminator :: text ∉ secrets := by
  intro hmem
  have hopen : 91 ∉ text := fun hmem' => hdecl.no_open _ hmem (List.mem_cons_of_mem _ hmem')
  obtain ⟨m₁, s₁, hbefore, hl₁⟩ := hl.split
  obtain ⟨s', rfl, hfit, hafter⟩ := hl₁.cons_inv
  cases m₁ with
  | false => exact hfit.elim
  | true =>
      rcases hcovered terminator text hmem hfit.2 with ⟨secret, hsecret, hin⟩ | hholds | hhidden
      · exact hshorter secret hsecret hin.length_le (hin.trans htext.isInfix)
      · refine not_holdsAssignment hafter htext hopen ?_ hholds
        have hle := length_le_overlapOf (mem_orderedSecrets.mpr ⟨hmem, List.cons_ne_nil _ _⟩)
        exact Nat.le_of_succ_le_succ hle
      · obtain ⟨future, rfl⟩ := prefix_source hafter htext hopen
        obtain ⟨hfalse, -⟩ | ⟨p, value, hnone, hunblank, hvalue⟩ := masked_run hbefore
        · cases hfalse
        · have hsource : tokenKind.source (.terminator terminator) ++ (text ++ future) =
              terminator :: text ++ future := rfl
          rw [hsource] at hnone hunblank
          obtain ⟨secret, hsecret, hstart⟩ := hhidden p value hvalue (by
            intro byte hbyte
            apply hunblank byte
            rw [← List.append_assoc, List.head?_append_of_ne_nil _ (by simp)]
            exact hbyte)
          refine secretAt_eq_none_iff.mp hnone secret hsecret (hdecl.ne_nil _ hsecret) ?_
          exact hstart.trans ⟨future, by simp⟩

/-- Where both gaps are covered, no token list of a stream shows a secret. -/
theorem not_shown_of_covered (hdecl : DeclaredSecrets secrets)
    (hbeginses : PrefixesCovered secrets) (hterminators : TerminatorsCovered secrets)
    {s : Bytes} {ts : List Token} {m : Bool}
    (hl : Lexes tokenKind (ChunkedFits secrets) false s ts m []) {secret : Bytes}
    (hmem : secret ∈ secrets) : ¬ secret <:+: shownText ts := by
  induction hn : secret.length using Nat.strong_induction_on generalizing secret with
  | _ n ih =>
      subst hn
      intro hin
      cases secret with
      | nil => exact hdecl.ne_nil _ hmem rfl
      | cons first text =>
          have hopen := hdecl.no_open _ hmem
          obtain ⟨before, t, after, front, back, rfl, hshown, htext⟩ :=
            exists_flatMap_split hin
          obtain ⟨m₁, s₁, hbefore, hafter⟩ := hl.split
          obtain ⟨s', hs', hfit, -⟩ := hafter.cons_inv
          cases t with
          | secret secret =>
              exact hdecl.not_in_mark _ hmem
                (infix_of_mark hshown htext hopen (hdecl.no_close _ hmem))
          | assignment prefixText =>
              cases m₁ with
              | true => exact hfit.elim
              | false =>
                  exact not_shown_from_assignment hdecl hbeginses hafter hshown htext hmem
          | masked byte => simp [Token.shown] at hshown
          | terminator byte =>
              obtain ⟨rfl, hone⟩ | ⟨-, hnil⟩ := List.singleton_eq_append_iff.mp hshown
              · obtain ⟨rfl, rfl⟩ := List.cons.inj hone
                refine not_shown_from_terminator hdecl hterminators hl htext ?_ hmem
                intro secret hsecret hle hshow
                refine ih secret.length (Nat.lt_succ_of_le hle) hsecret rfl ?_
                refine hshow.trans (List.IsSuffix.isInfix ?_)
                rw [shownText_append, shownText_cons, ← List.append_assoc]
                exact List.suffix_append _ _
              · cases hnil
          | plain byte =>
              cases m₁ with
              | true => exact hfit.elim
              | false =>
                  obtain ⟨rfl, hone⟩ | ⟨-, hnil⟩ := List.singleton_eq_append_iff.mp hshown
                  · obtain ⟨rfl, rfl⟩ := List.cons.inj hone
                    refine not_shown_from_start hafter hfit.1 hmem (List.cons_ne_nil _ _) hopen ?_
                    exact List.cons_prefix_cons.mpr ⟨rfl, htext⟩
                  · cases hnil

theorem prefixesCovered_of_hidden
    (hidden : ∀ chunks, ∀ secret ∈ secrets, ¬ secret <:+: redactChunks secrets chunks) :
    PrefixesCovered secrets := by
  intro p
  by_contra hopen
  simp only [not_or, not_exists, not_and, not_forall, not_not] at hopen
  obtain ⟨hstart, secret, hmem, hin⟩ := hopen
  have hnone : secretAt (orderedSecrets secrets) (p.text ++ []) = none := by
    rw [List.append_nil]
    exact secretAt_eq_none_iff.mpr fun secret hsecret _ => hstart secret hsecret
  obtain ⟨ts, m, hout, -⟩ :=
    redactChunks_single_resume (assignment_lexes hnone (by simp [StartsUnblank]))
  apply hidden [p.text ++ []] secret hmem
  rw [hout, shownText_append, shownText_cons, Token.shown, List.append_assoc, List.append_assoc]
  exact (hin.trans (List.tail_suffix _).isInfix).trans (List.prefix_append _ _).isInfix

/-- A text that holds neither a secret nor an assignment in front of more text is
shown as it stands. -/
theorem shown_of_bare {text : Bytes} {ts : List Token} {m : Bool}
    (hl : Lexes tokenKind (StrictFits secrets) false text ts m [])
    (hsecrets : ∀ secret ∈ secrets, ¬ secret <:+: text) (hholds : ¬ HoldsAssignment text) :
    text <+: shownText ts := by
  induction ts generalizing text with
  | nil =>
      obtain ⟨-, rfl⟩ := hl.nil_inv
      exact List.nil_prefix
  | cons t ts ih =>
      obtain ⟨rest, rfl, hfit, htail⟩ := hl.cons_inv
      cases t with
      | secret secret =>
          have hmem := (mem_orderedSecrets.mp (List.mem_of_find?_eq_some hfit)).1
          exact absurd (List.prefix_append _ _).isInfix (hsecrets secret hmem)
      | assignment text =>
          obtain ⟨-, p, rest', heq, hunblank, rfl⟩ := fits_assignment_iff.mp hfit
          have hend : rest' = [] := by
            by_contra hne
            exact hholds ⟨[], p, rest', heq, hne, hunblank⟩
          rw [heq, hend, List.append_nil, shownText_cons, Token.shown, List.append_assoc]
          exact List.prefix_append _ _
      | plain byte =>
          refine List.cons_prefix_cons.mpr ⟨rfl, ih htail ?_ ?_⟩
          · intro secret hmem hin
            exact hsecrets secret hmem (hin.trans (List.suffix_cons _ _).isInfix)
          · rintro ⟨before, p, after, rfl, hafter, hunblank⟩
            exact hholds ⟨byte :: before, p, after, rfl, hafter, hunblank⟩
      | masked byte => exact hfit.elim
      | terminator byte => exact hfit.elim

theorem terminatorsCovered_of_hidden
    (hidden : ∀ chunks, ∀ secret ∈ secrets, ¬ secret <:+: redactChunks secrets chunks) :
    TerminatorsCovered secrets := by
  intro terminator text hmem hterminator
  by_contra hopen
  simp only [not_or, not_exists, not_and, not_forall] at hopen
  obtain ⟨hinside, hholds, p, value, hvalue, hunblank, hstart⟩ := hopen
  have hnone : secretAt (orderedSecrets secrets)
      (p.text ++ (value ++ terminator :: text)) = none :=
    secretAt_eq_none_iff.mpr fun secret hsecret _ => hstart secret hsecret
  have hend : StrictFits secrets true (tokenKind.source (.terminator terminator) ++ text)
      (.terminator terminator) := ⟨rfl, hterminator⟩
  have hfront := (assignment_lexes hnone hunblank).append
    ((masked_lexes hvalue _).append (.single hend))
  obtain ⟨ts, m, hout, hrest⟩ := redactChunks_single_resume hfront
  obtain ⟨tail, htail⟩ := shown_of_bare hrest hinside hholds
  refine hidden [p.text ++ (value ++ terminator :: text)] _ hmem
    ⟨p.text ++ redactedMark, tail, ?_⟩
  rw [hout]
  simp [Token.shown, ← htail]

/-- No chunking of any stream shows a declared secret, exactly when no secret fits
into an assignment prefix or behind a masked value. -/
theorem secrets_hidden_iff (secrets : List Bytes) (hdecl : DeclaredSecrets secrets) :
    (∀ chunks, ∀ secret ∈ secrets, ¬ secret <:+: redactChunks secrets chunks) ↔
      PrefixesCovered secrets ∧ TerminatorsCovered secrets := by
  constructor
  · intro hidden
    exact ⟨prefixesCovered_of_hidden hidden, terminatorsCovered_of_hidden hidden⟩
  · rintro ⟨hbeginses, hterminators⟩ chunks secret hmem
    obtain ⟨ts, m, hout, hl⟩ := redactChunks_lexes secrets chunks
    rw [hout]
    exact not_shown_of_covered hdecl hbeginses hterminators hl hmem

/-- The secret "hunter2" fits into neither gap: it holds a digit, and starts with a letter. -/
theorem hunter2_hidden :
    ¬ ∃ chunks : List Bytes, ascii "hunter2" <:+: redactChunks [ascii "hunter2"] chunks := by
  rintro ⟨chunks, hshown⟩
  refine (secrets_hidden_iff [ascii "hunter2"]
    ⟨by decide, by decide, by decide, by decide⟩).mpr ⟨fun p => .inr ?_, ?_⟩ chunks _
    List.mem_cons_self hshown
  · intro secret hmem hin
    obtain rfl := List.mem_singleton.mp hmem
    have hdigit : 50 ∈ p.text := List.mem_of_mem_tail (hin.subset (by decide))
    rcases p.byte_cases hdigit with ⟨hlow, -⟩ | hblank | hsep
    · revert hlow; decide
    · revert hblank; decide
    · revert hsep; decide
  · intro terminator text hmem hterminator
    obtain rfl : terminator = 104 := (List.cons.inj (List.mem_singleton.mp hmem)).1
    cases hterminator

/-- The word "word" is declared, and the key "password" shows it. -/
theorem secret_shown_in_key : ¬ ∀ secrets, DeclaredSecrets secrets → ∀ chunks,
    ∀ secret ∈ secrets, ¬ secret <:+: redactChunks secrets chunks := by
  intro h
  have hshown := h [ascii "word"] ⟨by decide, by decide, by decide, by decide⟩
    [ascii "password=x"] (ascii "word") (by decide)
  revert hshown
  decide +kernel

end EasyDeploy.Retention
