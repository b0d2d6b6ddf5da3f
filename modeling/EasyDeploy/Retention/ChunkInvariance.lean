import EasyDeploy.Retention.RedactorRefinement

/-!
# When redaction does not depend on the chunks

A stream that arrives in chunks is shown like the stream that arrives at once,
unless a sensitive key is followed by more blanks than the redactor holds back.
The condition is exact: behind such a key run there is a split that shows the
key as plain text and leaves the assignment unmasked.
-/

namespace EasyDeploy.Retention
open Foundation

/-- From mode `m` on, every sensitive assignment that is met in `s` has its key
and the blanks before its separator within the overlap. -/
def KeyRunsFitFrom (secrets : List Bytes) (m : Bool) (s : Bytes) : Prop :=
  ∀ ts rest, Lexes tokenKind (StrictFits secrets) m s ts false rest →
    secretAt (orderedSecrets secrets) rest = none →
    ¬ Overlong (overlapOf (orderedSecrets secrets)) rest

/-- Every sensitive assignment that is met in the stream `s` has its key and the
blanks before its separator within the overlap. -/
def KeyRunsFit (secrets : List Bytes) (s : Bytes) : Prop := KeyRunsFitFrom secrets false s

variable {secrets : List Bytes}

/-- Where the key runs fit, a lexing of chunks is a lexing without slack. -/
theorem strict_of_keyRunsFit {m : Bool} {s : Bytes} {ts : List Token} {m' : Bool}
    {rest : Bytes} (h : Lexes tokenKind (ChunkedFits secrets) m s ts m' rest)
    (hfit : KeyRunsFitFrom secrets m s) :
    Lexes tokenKind (StrictFits secrets) m s ts m' rest := by
  induction h with
  | done m s => exact .done m s
  | @cut m t rest ts m' rest' hcut tail ih =>
      have hstrict : StrictFits secrets m (tokenKind.source t ++ rest) t := by
        cases m with
        | true => cases t <;> exact hcut
        | false =>
            cases t with
            | plain byte =>
                obtain ⟨hsecret, hbyte, hbegins⟩ := hcut
                refine ⟨hsecret, hbyte, .inl (hbegins.resolve_right ?_)⟩
                exact hfit [] _ (.done _ _) hsecret
            | _ => exact hcut
      refine .cut hstrict (ih ?_)
      intro ts' rest'' hl
      exact hfit (t :: ts') rest'' (.cut hstrict hl)

/-- In a stream that is no longer than the overlap all key runs fit. -/
theorem keyRunsFit_of_length_le {s : Bytes}
    (h : s.length ≤ overlapOf (orderedSecrets secrets)) : KeyRunsFit secrets s := by
  rintro ts rest hl - ⟨offset, hsep, hlong⟩
  obtain ⟨p, tail, rfl, rfl⟩ := sensitiveSeparator_eq_some_iff.mp hsep
  have hle := hl.length_le
  rw [List.length_append] at hle
  omega

/-- Two ways to split a stream whose key runs fit show the same text. -/
theorem redactChunks_eq_of_keyRunsFit {chunks chunks' : List Bytes}
    (hsame : chunks.flatten = chunks'.flatten) (hfit : KeyRunsFit secrets chunks.flatten) :
    redactChunks secrets chunks = redactChunks secrets chunks' := by
  obtain ⟨ts, m, hout, hl⟩ := redactChunks_lexes secrets chunks
  obtain ⟨ts', m', hout', hl'⟩ := redactChunks_lexes secrets chunks'
  rw [← hsame] at hl'
  have hts := (strict_of_keyRunsFit hl hfit).unique_complete (strict_of_keyRunsFit hl' hfit)
    (StrictFits.unambiguous _ _) StrictFits.source_ne_nil
  rw [hout, hout', hts.1]

theorem StrictFits.truncate {m : Bool} {t : Token} {rest future : Bytes}
    (h : StrictFits secrets m (t.source ++ (rest ++ future)) t) :
    StrictFits secrets m (t.source ++ rest) t := by
  have hnone (hs : secretAt (orderedSecrets secrets) (t.source ++ (rest ++ future)) = none) :
      secretAt (orderedSecrets secrets) (t.source ++ rest) = none := by
    simp only [secretAt, List.find?_eq_none, List.isPrefixOf_iff_prefix] at hs ⊢
    intro secret hmem hbegins
    apply hs secret hmem
    rw [← List.append_assoc]
    exact hbegins.trans (List.prefix_append _ _)
  cases m with
  | true => cases t <;> exact h
  | false =>
      cases t with
      | secret text =>
          simp only [Fits, secretAt, Token.source, List.find?_eq_some_iff_append,
            List.isPrefixOf_iff_prefix] at h ⊢
          obtain ⟨-, before, after, heq, hbefore⟩ := h
          refine ⟨List.prefix_append _ _, before, after, heq, fun secret hmem => ?_⟩
          simp only [Bool.not_eq_eq_eq_not, Bool.not_true, Bool.eq_false_iff, ne_eq,
            List.isPrefixOf_iff_prefix] at hbefore ⊢
          intro hbegins
          apply hbefore secret hmem
          rw [← List.append_assoc]
          exact hbegins.trans (List.prefix_append _ _)
      | assignment text =>
          obtain ⟨hs, p, rest', heq, hunblank, rfl⟩ := fits_assignment_iff.mp h
          obtain rfl := List.append_cancel_left heq
          refine fits_assignment_iff.mpr ⟨hnone hs, p, rest, rfl, ?_, rfl⟩
          intro byte hbyte
          exact hunblank byte (by rw [List.head?_append, hbyte]; rfl)
      | plain byte =>
          obtain ⟨hs, hbyte, hbegins⟩ := h
          refine ⟨hnone hs, rfl, .inl ?_⟩
          have hbegins := hbegins.resolve_right id
          rw [sensitiveAssignmentPrefix_eq_none_iff] at hbegins ⊢
          cases hsep : sensitiveSeparator ((Token.plain byte).source ++ rest) with
          | none => rfl
          | some offset =>
              obtain ⟨p, rest', heq, rfl⟩ := sensitiveSeparator_eq_some_iff.mp hsep
              rw [← List.append_assoc, heq, List.append_assoc, List.cons_append,
                sensitiveSeparator_keyRun] at hbegins
              cases hbegins
      | _ => exact h.elim

/-- The tokens cut before a position are cut of the stream that ends a little later. -/
theorem lexes_truncate {m : Bool} {s : Bytes} {ts : List Token} {m' : Bool}
    {rest future : Bytes}
    (h : Lexes tokenKind (StrictFits secrets) m s ts m' (rest ++ future)) :
    Lexes tokenKind (StrictFits secrets) m (ts.flatMap Token.source ++ rest) ts m' rest := by
  generalize hend : rest ++ future = tail at h
  induction h with
  | done m s => exact .done _ _
  | @cut m t s' ts m' tail hfit htail ih =>
      subst hend
      rw [List.flatMap_cons, List.append_assoc]
      refine .cut ?_ (ih rfl)
      have hwhole : StrictFits secrets m
          (t.source ++ ((ts.flatMap Token.source ++ rest) ++ future)) t := by
        rw [List.append_assoc,
          show ts.flatMap Token.source = ts.flatMap tokenKind.source from rfl,
          ← htail.source_eq]
        exact hfit
      exact hwhole.truncate

/-- Tokens cut while more than the overlap was left are cut of every continuation. -/
theorem lexes_extend {m : Bool} {s : Bytes} {ts : List Token} {m' : Bool} {rest : Bytes}
    (h : Lexes tokenKind (StrictFits secrets) m s ts m' rest)
    (hlong : overlapOf (orderedSecrets secrets) < rest.length) (future : Bytes) :
    Lexes tokenKind (ChunkedFits secrets) m (s ++ future) ts m' (rest ++ future) := by
  induction h with
  | done m s => exact .done _ _
  | @cut m t s' ts m' rest hfit htail ih =>
      have hle := htail.length_le
      rw [List.append_assoc]
      refine .cut ?_ (ih hlong)
      rw [← List.append_assoc]
      apply hfit.extend (by rw [List.length_append]; omega)
        (fun secret hmem => length_le_overlapOf hmem)
      rintro text rfl
      rw [List.length_append]
      show text.length < text.length + _
      omega

/-- A prefix of a stream whose key runs fit has key runs that fit. -/
theorem KeyRunsFit.of_prefix {s s' : Bytes} (h : KeyRunsFit secrets s) (hbegins : s' <+: s) :
    KeyRunsFit secrets s' := by
  obtain ⟨future, rfl⟩ := hbegins
  intro ts rest hl hsecret hover
  obtain ⟨offset, hsep, hlt⟩ := hover
  obtain ⟨p, tail, rfl, rfl⟩ := sensitiveSeparator_eq_some_iff.mp hsep
  have hlong : overlapOf (orderedSecrets secrets) < (p.keyRun ++ p.separator :: tail).length := by
    rw [List.length_append]
    omega
  have hext := strict_of_keyRunsFit (lexes_extend hl hlong future) h
  apply h ts _ hext
  · rw [secretAt_append, hsecret]
    intro secret hmem
    have := length_le_overlapOf hmem
    omega
  · refine ⟨p.keyRun.length, ?_, hlt⟩
    rw [List.append_assoc, List.cons_append]
    exact sensitiveSeparator_keyRun p _

/-- The first push of a stream, and the tokens of the whole stream. -/
theorem redactChunks_cons_lexes (secrets : List Bytes) (u : Bytes) (chunks : List Bytes) :
    ∃ ts m rest ts' m', redactChunks secrets (u :: chunks) = shownText (ts ++ ts') ∧
      Lexes tokenKind (StrictFits secrets) false u ts m rest ∧
      Lexes tokenKind (ChunkedFits secrets) false (u ++ chunks.flatten) (ts ++ ts') m' [] ∧
      (rest.length ≤ overlapOf (orderedSecrets secrets) ∨
        ∃ n, m = false ∧ secretAt (orderedSecrets secrets) rest = none ∧
          sensitiveAssignmentPrefix rest = some n ∧
          rest.length < overlapOf (orderedSecrets secrets) + n) := by
  have wf := StreamingRedactor.wellFormed_new secrets
  have wf' : StreamingRedactor.WellFormed
      { StreamingRedactor.new secrets with pending := [] ++ u } :=
    ⟨wf.secret_ne_nil, wf.secret_le, wf.overlap_pos⟩
  obtain ⟨ts, c, hstop, heq, hstrict, hfuture⟩ := StreamingRedactor.process_lexes wf' false
  obtain ⟨ts₁, hout₁, hwf₁, hsecrets₁, -, hpushed⟩ :=
    StreamingRedactor.pushAll_lexes (wf'.process false) chunks
  obtain ⟨ts₂, m, hout₂, hrest⟩ := StreamingRedactor.finish_lexes hwf₁
  refine ⟨ts, c.maskingAssignment, u.drop c.offset, ts₁ ++ ts₂, m, ?_, hstrict, ?_, ?_⟩
  · rw [shownText_append, shownText_append, ← hout₁, ← hout₂]
    simp only [redactChunks, StreamingRedactor.pushAll, StreamingRedactor.push]
    rw [show (StreamingRedactor.new secrets).pending = [] from rfl, heq, List.append_assoc]
  · have hhead := hfuture rfl chunks.flatten
    have hmid := hpushed []
    rw [List.append_nil, List.append_nil, heq] at hmid
    rw [hsecrets₁] at hrest
    rw [heq] at hrest
    exact hhead.append (hmid.append (hrest.mono (Fits.weaken fun _ h => h.elim)))
  · have hover : (StreamingRedactor.new secrets).overlap = overlapOf (orderedSecrets secrets) := rfl
    have hpos := wf.overlap_pos
    cases hstop with
    | safe h =>
        simp only [StreamingRedactor.safeEnd, Bool.false_eq_true, if_false, hover,
          List.nil_append] at h
        left
        rw [List.length_drop]
        omega
    | stalled n hfinal hmode hsecret hbegins h =>
        simp only [StreamingRedactor.safeEnd, Bool.false_eq_true, if_false, hover,
          List.nil_append] at h
        refine .inr ⟨n, hmode, hsecret, hbegins, ?_⟩
        rw [List.length_drop]
        omega

/-- When a stream is split behind an overlong key run, the first byte of the key
is shown as plain text and the assignment goes unnoticed. -/
theorem exposed_lexes {s : Bytes} {ts : List Token} {p : AssignmentPrefix} {tail : Bytes}
    (hl : Lexes tokenKind (StrictFits secrets) false s ts false
      (p.keyRun ++ p.separator :: tail))
    (hsecret : secretAt (orderedSecrets secrets) (p.keyRun ++ p.separator :: tail) = none)
    (hlong : overlapOf (orderedSecrets secrets) < p.keyRun.length) :
    ∃ byte ts' m, p.keyRun = byte :: p.keyRun.tail ∧
      redactChunks secrets [ts.flatMap Token.source ++ p.keyRun, p.separator :: tail] =
        shownText ts ++ byte :: shownText ts' ∧
      Lexes tokenKind (ChunkedFits secrets) false (p.keyRun.tail ++ p.separator :: tail)
        ts' m [] := by
  have hne : p.keyRun ≠ [] := List.ne_nil_of_length_pos (by omega)
  have hkey : secretAt (orderedSecrets secrets) p.keyRun = none := by
    rw [← hsecret]
    exact (secretAt_append fun secret hmem =>
      (length_le_overlapOf hmem).trans (Nat.succ_le_of_lt hlong)).symm
  have hplain : sensitiveAssignmentPrefix p.keyRun = none :=
    sensitiveAssignmentPrefix_eq_none_iff.mpr (sensitiveSeparator_keyRun_none p)
  have hfront := lexes_truncate hl
  obtain ⟨ts₁, m₁, rest₁, ts₂, m₂, hout, hfirst, hwhole, hstop⟩ :=
    redactChunks_cons_lexes secrets (ts.flatMap Token.source ++ p.keyRun) [p.separator :: tail]
  have hshort : rest₁.length < p.keyRun.length := by
    rcases hstop with hstop | ⟨n, rfl, hsecret₁, hbegins₁, hstop⟩
    · exact hstop.trans_lt hlong
    · by_contra hge
      -- the first push would have stalled at an assignment that ends before the key run
      obtain ⟨ts₃, -, hrest⟩ := hfirst.resume hfront (StrictFits.unambiguous _ _)
        StrictFits.source_ne_nil (Nat.le_of_not_lt hge)
      cases ts₃ with
      | nil =>
          obtain ⟨-, rfl⟩ := hrest.nil_inv
          rw [hplain] at hbegins₁
          cases hbegins₁
      | cons t ts₃ =>
          obtain ⟨s', hs', hfit, hrest⟩ := hrest.cons_inv
          have hassign : StrictFits secrets false rest₁ (.assignment (rest₁.take n)) :=
            ⟨hsecret₁, by rw [hbegins₁]; rfl⟩
          obtain rfl := Fits.unique hfit hassign fun _ _ h => h
          have hlen := congrArg List.length hs'
          have hle := hrest.length_le
          obtain ⟨q, rest', hq, -, rfl⟩ := sensitiveAssignmentPrefix_eq_some_iff.mp hbegins₁
          have hsource : tokenKind.source (.assignment (rest₁.take q.text.length)) = q.text := by
            rw [hq]
            exact List.take_left
          rw [hsource, List.length_append] at hlen
          omega
  obtain ⟨ts₃, rfl, hrest⟩ := hfront.resume hfirst (StrictFits.unambiguous _ _)
    StrictFits.source_ne_nil hshort.le
  cases ts₃ with
  | nil =>
      obtain ⟨-, rfl⟩ := hrest.nil_inv
      exact absurd hshort (Nat.lt_irrefl _)
  | cons t ts₃ =>
      obtain ⟨byte, run, hrun⟩ := List.exists_cons_of_ne_nil hne
      obtain ⟨s', hs', hfit, -⟩ := hrest.cons_inv
      have hbyte : StrictFits secrets false p.keyRun (.plain byte) :=
        ⟨hkey, by rw [hrun]; rfl, .inl hplain⟩
      obtain rfl := Fits.unique hfit hbyte fun _ _ h => h
      refine ⟨byte, ts₃ ++ ts₂, m₂, by rw [hrun]; rfl, ?_, ?_⟩
      · rw [hout]
        simp [Token.shown]
      · rw [List.flatten_singleton, List.append_assoc, List.append_assoc] at hwhole
        have hafter := hwhole.after (hl.source_eq ▸ hl)
        rw [hrun] at hafter ⊢
        obtain ⟨s'', hs'', -, hrest''⟩ := hafter.cons_inv
        obtain rfl := List.append_cancel_left (show [byte] ++ _ = [byte] ++ _ from hs'')
        exact hrest''

/-- Text without a sensitive assignment and without a bracket is never shown as
itself followed by the mark. -/
theorem shownText_ne_append_mark {ts : List Token} {m : Bool} {text : Bytes}
    (hl : Lexes tokenKind (ChunkedFits secrets) false text ts m [])
    (hplain : ∀ n, sensitiveSeparator (text.drop n) = none) (hbracket : 91 ∉ text) :
    shownText ts ≠ text ++ redactedMark := by
  induction ts generalizing text with
  | nil =>
      obtain ⟨-, rfl⟩ := hl.nil_inv
      simp [redactedMark_eq]
  | cons t ts ih =>
      obtain ⟨rest, rfl, hfit, htail⟩ := hl.cons_inv
      cases t with
      | plain byte =>
          have hrest : ∀ n, sensitiveSeparator (rest.drop n) = none := fun n => hplain (n + 1)
          have hne := ih htail hrest fun hmem => hbracket (List.mem_cons_of_mem _ hmem)
          intro heq
          exact hne (List.cons.inj heq).2
      | secret secret =>
          obtain ⟨byte, secret, rfl⟩ :=
            List.exists_cons_of_ne_nil (ChunkedFits.source_ne_nil _ _ _ hfit)
          intro heq
          have hhead := congrArg List.head? heq
          simp only [shownText_cons, Token.shown, redactedMark_eq, List.cons_append,
            List.head?_cons, tokenKind, Token.source, Option.some.injEq] at hhead
          exact hbracket (by rw [hhead]; simp [tokenKind, Token.source])
      | assignment text =>
          obtain ⟨-, p, rest', heq, -⟩ := fits_assignment_iff.mp hfit
          have hnone := hplain 0
          rw [List.drop_zero, heq, AssignmentPrefix.text, List.append_assoc, List.cons_append,
            sensitiveSeparator_keyRun] at hnone
          cases hnone
      | _ => exact hfit.elim

theorem bracket_not_mem_keyRun (p : AssignmentPrefix) : 91 ∉ p.keyRun ++ [p.separator] := by
  intro hmem
  rcases List.mem_append.mp hmem with hmem | hmem
  · rcases List.mem_append.mp hmem with hkey | hgap
    · have hlower := sensitiveKeys_letters _ p.key_sensitive _ (List.mem_map_of_mem hkey)
      revert hlower
      decide
    · have := p.gap_blank _ hgap
      revert this
      decide
  · have hsep := p.separator_ok
    rw [← List.mem_singleton.mp hmem] at hsep
    revert hsep
    decide

/-- A key run and its separator, without the first byte, hold no sensitive assignment. -/
theorem sensitiveSeparator_keyRun_tail (p : AssignmentPrefix) (n : Nat) :
    sensitiveSeparator ((p.keyRun.tail ++ [p.separator]).drop n) = none := by
  rcases Nat.lt_or_ge p.keyRun.tail.length n with hlt | hge
  · rw [List.drop_eq_nil_of_le (by simpa using Nat.succ_le_of_lt hlt)]
    decide
  · rw [List.drop_append_of_le_length hge, ← List.drop_one, List.drop_drop]
    exact sensitiveSeparator_inside_none p [] (by omega)

/-- Behind a key run that does not fit there is a prefix of the stream and a
split of this prefix that changes what is shown. -/
theorem chunks_differ_of_overlong {s : Bytes} (h : ¬ KeyRunsFit secrets s) :
    ∃ s' chunks, s' <+: s ∧ chunks.flatten = s' ∧
      redactChunks secrets chunks ≠ redactChunks secrets [s'] := by
  simp only [KeyRunsFit, KeyRunsFitFrom, not_forall, not_not] at h
  obtain ⟨ts, rest, hl, hsecret, offset, hsep, hlong⟩ := h
  obtain ⟨p, tail, rfl, rfl⟩ := sensitiveSeparator_eq_some_iff.mp hsep
  have hcut : p.keyRun ++ p.separator :: tail = (p.keyRun ++ [p.separator]) ++ tail := by simp
  rw [hcut] at hl hsecret
  have hshort := lexes_truncate hl
  have hnone : secretAt (orderedSecrets secrets) (p.keyRun ++ [p.separator]) = none := by
    rw [← hsecret]
    refine (secretAt_append fun secret hmem => ?_).symm
    have := length_le_overlapOf hmem
    rw [List.length_append, List.length_singleton]
    omega
  obtain ⟨byte, ts', m, hbyte, hout, hrest⟩ := exposed_lexes hshort hnone hlong
  refine ⟨ts.flatMap Token.source ++ (p.keyRun ++ [p.separator]),
    [ts.flatMap Token.source ++ p.keyRun, [p.separator]], ?_, by simp, ?_⟩
  · exact ⟨tail, by rw [hl.source_eq, List.append_assoc]; rfl⟩
  · obtain ⟨ts'', mOnce, houtOnce, hend⟩ := redactChunks_single_resume hshort
    have hassign : StrictFits secrets false (p.keyRun ++ [p.separator])
        (.assignment p.bare.text) :=
      fits_assignment_iff.mpr ⟨hnone, p.bare, [], by simp, by simp [StartsUnblank], rfl⟩
    have hend' : Lexes tokenKind (StrictFits secrets) false (p.keyRun ++ [p.separator])
        [.assignment p.bare.text] true [] := by
      have hcut' : p.keyRun ++ [p.separator] =
          tokenKind.source (.assignment p.bare.text) ++ [] := by
        rw [List.append_nil]; rfl
      rw [hcut'] at hassign ⊢
      exact .single hassign
    obtain ⟨rfl, -⟩ := hend.unique_complete hend' (StrictFits.unambiguous _ _)
      StrictFits.source_ne_nil
    rw [hout, houtOnce, shownText_append]
    intro heq
    have htail := List.append_cancel_left heq
    simp only [shownText_cons, Token.shown, AssignmentPrefix.text_bare, shownText_nil,
      List.append_nil] at htail
    rw [hbyte, List.cons_append, List.cons_append] at htail
    refine shownText_ne_append_mark hrest (sensitiveSeparator_keyRun_tail p) ?_
      (List.cons.inj htail).2
    intro hmem
    apply bracket_not_mem_keyRun p
    rw [hbyte]
    exact List.mem_cons_of_mem _ hmem

/-- Redaction does not depend on the chunks, for a stream and all that was
received before its end, exactly when the key runs met in the stream fit into
the overlap. -/
theorem redaction_chunk_invariant_iff (secrets : List Bytes) (s : Bytes) :
    (∀ s', s' <+: s → ∀ chunks : List Bytes, chunks.flatten = s' →
        redactChunks secrets chunks = redactChunks secrets [s']) ↔
      KeyRunsFit secrets s := by
  constructor
  · intro h
    by_contra hfit
    obtain ⟨s', chunks, hbegins, hflat, hne⟩ := chunks_differ_of_overlong hfit
    exact hne (h s' hbegins chunks hflat)
  · rintro hfit s' hbegins chunks rfl
    exact redactChunks_eq_of_keyRunsFit (by simp) (hfit.of_prefix hbegins)

/-- A token key, 252 blanks and its separator in the next chunk: the value is
shown although the whole stream at once would mask it. -/
theorem redaction_chunk_dependent :
    ¬ ∀ (secrets chunks : List Bytes), redactChunks secrets chunks =
      redactChunks secrets [chunks.flatten] := by
  intro h
  have hsplit := h [] [ascii "token" ++ List.replicate 252 32, ascii "=hunter2"]
  revert hsplit
  decide +kernel

end EasyDeploy.Retention
