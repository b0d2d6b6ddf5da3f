import EasyDeploy.Retention.RedactorLexing

/-!
# The redactor's loop refines the lexing

One round of `process` cuts one token. A whole push cuts a lexing of the
pending bytes that is also a lexing of every continuation, and the pushes of a
stream followed by `finish` cut a complete lexing of the stream.
-/

namespace EasyDeploy.Retention
open Foundation

/-- What `new` establishes and no operation changes. -/
structure StreamingRedactor.WellFormed (redactor : StreamingRedactor) : Prop where
  secret_ne_nil : ∀ secret ∈ redactor.secrets, secret ≠ []
  secret_le : ∀ secret ∈ redactor.secrets, secret.length ≤ redactor.overlap + 1
  overlap_pos : 0 < redactor.overlap

theorem mem_orderedSecrets {secret : Bytes} {secrets : List Bytes} :
    secret ∈ orderedSecrets secrets ↔ secret ∈ secrets ∧ secret ≠ [] := by
  simp [orderedSecrets, mem_dedup, List.mem_mergeSort]

theorem secretAt_eq_none_iff {secrets : List Bytes} {s : Bytes} :
    secretAt (orderedSecrets secrets) s = none ↔
      ∀ secret ∈ secrets, secret ≠ [] → ¬ secret <+: s := by
  simp only [secretAt, List.find?_eq_none, List.isPrefixOf_iff_prefix, mem_orderedSecrets]
  exact ⟨fun h secret hmem hne => h secret ⟨hmem, hne⟩,
    fun h secret hmem => h secret hmem.1 hmem.2⟩

theorem length_le_overlapOf {secret : Bytes} {secrets : List Bytes} (h : secret ∈ secrets) :
    secret.length ≤ overlapOf secrets + 1 := by
  unfold overlapOf
  have hmem : secret.length ∈ secrets.map List.length := List.mem_map_of_mem h
  cases hmax : (secrets.map List.length).max? with
  | none => simp [List.max?_eq_none_iff] at hmax; simp [hmax] at h
  | some longest =>
      have hle := (List.max?_eq_some_iff.mp hmax).2 _ hmem
      simp only [Option.getD_some]
      omega

namespace StreamingRedactor

theorem wellFormed_new (secrets : List Bytes) : (new secrets).WellFormed where
  secret_ne_nil := fun _ h => (mem_orderedSecrets.mp h).2
  secret_le := fun _ h => length_le_overlapOf h
  overlap_pos := by simp only [new, overlapOf]; omega

variable {redactor : StreamingRedactor}

@[simp] theorem secrets_process (redactor : StreamingRedactor) (finalChunk : Bool) :
    (redactor.process finalChunk).2.secrets = redactor.secrets := rfl

@[simp] theorem overlap_process (redactor : StreamingRedactor) (finalChunk : Bool) :
    (redactor.process finalChunk).2.overlap = redactor.overlap := rfl

theorem WellFormed.process (h : redactor.WellFormed) (finalChunk : Bool) :
    (redactor.process finalChunk).2.WellFormed :=
  ⟨h.secret_ne_nil, h.secret_le, h.overlap_pos⟩

theorem safeEnd_le (redactor : StreamingRedactor) (finalChunk : Bool) :
    redactor.safeEnd finalChunk ≤ redactor.pending.length := by
  unfold safeEnd
  split <;> omega

/-- `t` is the token that a round cuts when the cursor moves from `c` to `c'`. -/
structure Cuts (redactor : StreamingRedactor) (finalChunk : Bool) (c c' : Cursor) (t : Token) :
    Prop where
  output_eq : c'.output = c.output ++ t.shown
  masks_eq : c'.maskingAssignment = t.masks
  rest_eq : redactor.pending.drop c.offset = t.source ++ redactor.pending.drop c'.offset
  offset_lt : c.offset < c'.offset
  offset_le : c'.offset ≤ redactor.pending.length
  fits : Fits redactor.secrets Strict c.maskingAssignment (redactor.pending.drop c.offset) t
  /-- An assignment of a chunk that is not the last ends before the held back bytes. -/
  within : finalChunk = false → ∀ text, t = .assignment text →
    c'.offset ≤ redactor.safeEnd finalChunk

/-- A round that does not break cuts one token. -/
theorem processRound_cuts (wf : redactor.WellFormed) {finalChunk : Bool} {c c' : Cursor}
    (hlt : c.offset < redactor.safeEnd finalChunk)
    (h : redactor.processRound finalChunk (redactor.safeEnd finalChunk) c = some c') :
    ∃ t, Cuts redactor finalChunk c c' t := by
  have hlen : c.offset < redactor.pending.length := hlt.trans_le (redactor.safeEnd_le _)
  obtain ⟨byte, rest, hrest⟩ := List.exists_cons_of_length_pos
    (l := redactor.pending.drop c.offset) (by rw [List.length_drop]; omega)
  have hone : redactor.pending.drop (c.offset + 1) = rest := by
    rw [← List.drop_drop, hrest]; rfl
  have hskip {text tail : Bytes} (heq : redactor.pending.drop c.offset = text ++ tail) :
      redactor.pending.drop (c.offset + text.length) = tail := by
    rw [← List.drop_drop, heq, List.drop_left]
  have hbound {text tail : Bytes} (heq : redactor.pending.drop c.offset = text ++ tail) :
      c.offset + text.length ≤ redactor.pending.length := by
    have := congrArg List.length heq
    rw [List.length_drop, List.length_append] at this
    omega
  simp only [processRound] at h
  cases hmask : c.maskingAssignment with
  | true =>
      rw [hmask, if_pos rfl, hrest, List.headD_cons] at h
      split at h
      · rename_i hterm
        obtain rfl := Option.some.inj h
        refine ⟨.terminator byte, rfl, rfl, ?_, Nat.lt_succ_self _, hlen, ?_, ?_⟩
        · rw [hrest, hone]; rfl
        · rw [hmask, hrest]; exact ⟨rfl, hterm⟩
        · intro _ _ heq; cases heq
      · rename_i hterm
        obtain rfl := Option.some.inj h
        refine ⟨.masked byte, (List.append_nil _).symm, rfl, ?_, Nat.lt_succ_self _, hlen, ?_, ?_⟩
        · rw [hrest, hone]; rfl
        · rw [hmask, hrest]; exact ⟨rfl, Bool.eq_false_iff.mpr hterm⟩
        · intro _ _ heq; cases heq
  | false =>
      rw [hmask, if_neg Bool.false_ne_true] at h
      split at h
      · rename_i secret hsecret
        obtain rfl := Option.some.inj h
        have hmatch : secret.isPrefixOf (redactor.pending.drop c.offset) = true := by
          simpa using List.find?_some hsecret
        obtain ⟨tail, htail⟩ := List.isPrefixOf_iff_prefix.mp hmatch
        have hpos := List.length_pos_iff.mpr
          (wf.secret_ne_nil _ (List.mem_of_find?_eq_some hsecret))
        refine ⟨.secret secret, rfl, rfl, ?_, Nat.lt_add_of_pos_right hpos, hbound htail.symm,
          ?_, ?_⟩
        · rw [hskip htail.symm, ← htail]; rfl
        · rw [hmask]; exact hsecret
        · intro _ _ heq; cases heq
      · rename_i hsecret
        split at h
        · rename_i n hn
          split at h
          · cases h
          · rename_i hwithin
            obtain rfl := Option.some.inj h
            obtain ⟨p, tail, heq, -, rfl⟩ := sensitiveAssignmentPrefix_eq_some_iff.mp hn
            have hpos := List.length_pos_iff.mpr p.text_ne_nil
            refine ⟨.assignment p.text, ?_, rfl, ?_, Nat.lt_add_of_pos_right hpos, hbound heq,
              ?_, ?_⟩
            · rw [heq, List.take_left, List.append_assoc]; rfl
            · rw [hskip heq, heq]; rfl
            · rw [hmask]
              refine ⟨hsecret, ?_⟩
              rw [hn, Option.map_some, heq, List.take_left]
            · rintro rfl _ _
              simpa using hwithin
        · rename_i hn
          obtain rfl := Option.some.inj h
          refine ⟨.plain byte, ?_, rfl, ?_, Nat.lt_succ_self _, hlen, ?_, ?_⟩
          · rw [hrest]; rfl
          · rw [hrest, hone]; rfl
          · rw [hmask]
            exact ⟨hsecret, by rw [hrest]; rfl, .inl hn⟩
          · intro _ _ heq; cases heq

/-- A token cut while more is to come is cut of every continuation. -/
theorem Cuts.extend (wf : redactor.WellFormed) {c c' : Cursor} {t : Token}
    (h : Cuts redactor false c c' t) (hlt : c.offset < redactor.safeEnd false) (future : Bytes) :
    Fits redactor.secrets (Overlong redactor.overlap) c.maskingAssignment
      (redactor.pending.drop c.offset ++ future) t := by
  have hsafe : redactor.safeEnd false = redactor.pending.length - redactor.overlap := rfl
  have hpos := wf.overlap_pos
  apply h.fits.extend (by rw [List.length_drop]; omega) wf.secret_le
  rintro text rfl
  have hend := h.within rfl text rfl
  have hlen := congrArg List.length h.rest_eq
  rw [List.length_append, List.length_drop, List.length_drop] at hlen
  have hle := h.offset_le
  have hoff := h.offset_lt
  have htext : (Token.assignment text).source.length = text.length := rfl
  rw [List.length_drop]
  omega

/-- Where the loop of `process` stands when it has stopped. -/
inductive Stopped (redactor : StreamingRedactor) (finalChunk : Bool) (c : Cursor) : Prop
  | safe (h : redactor.safeEnd finalChunk ≤ c.offset)
  | stalled (n : Nat) (hfinal : finalChunk = false) (hmode : c.maskingAssignment = false)
      (hsecret : secretAt redactor.secrets (redactor.pending.drop c.offset) = none)
      (hbegins : sensitiveAssignmentPrefix (redactor.pending.drop c.offset) = some n)
      (h : redactor.safeEnd finalChunk < c.offset + n)

/-- A round that breaks has met a sensitive assignment that reaches into the
held back bytes. -/
theorem processRound_none {finalChunk : Bool} {c : Cursor}
    (h : redactor.processRound finalChunk (redactor.safeEnd finalChunk) c = none) :
    Stopped redactor finalChunk c := by
  simp only [processRound] at h
  split at h
  · split at h <;> cases h
  · rename_i hmode
    split at h
    · cases h
    · rename_i hsecret
      split at h
      · rename_i n hn
        split at h
        · rename_i hstall
          simp only [Bool.and_eq_true, decide_eq_true_eq, Bool.not_eq_true'] at hstall
          exact .stalled n hstall.2 (Bool.eq_false_iff.mpr hmode) hsecret hn hstall.1
        · cases h
      · cases h

/-- The tokens that the loop cuts from a cursor on. -/
theorem processLoop_lexes (wf : redactor.WellFormed) (finalChunk : Bool) (rounds : Nat)
    (c : Cursor) (hc : c.offset ≤ redactor.pending.length) :
    ∃ ts c', redactor.processLoop finalChunk (redactor.safeEnd finalChunk) rounds c = c' ∧
      c'.output = c.output ++ shownText ts ∧ c'.offset ≤ redactor.pending.length ∧
      Lexes tokenKind (Fits redactor.secrets Strict) c.maskingAssignment
        (redactor.pending.drop c.offset) ts c'.maskingAssignment
        (redactor.pending.drop c'.offset) ∧
      (finalChunk = false → ∀ future,
        Lexes tokenKind (Fits redactor.secrets (Overlong redactor.overlap)) c.maskingAssignment
          (redactor.pending.drop c.offset ++ future) ts c'.maskingAssignment
          (redactor.pending.drop c'.offset ++ future)) ∧
      (redactor.safeEnd finalChunk ≤ c.offset + rounds → Stopped redactor finalChunk c') := by
  induction rounds generalizing c with
  | zero =>
      refine ⟨[], c, rfl, (List.append_nil _).symm, hc, .done _ _, fun _ _ => .done _ _, ?_⟩
      exact fun h => .safe h
  | succ rounds ih =>
      by_cases hlt : c.offset < redactor.safeEnd finalChunk
      · cases hround : redactor.processRound finalChunk (redactor.safeEnd finalChunk) c with
        | none =>
            refine ⟨[], c, ?_, (List.append_nil _).symm, hc, .done _ _, fun _ _ => .done _ _, ?_⟩
            · simp [processLoop, hlt, hround]
            · exact fun _ => processRound_none hround
        | some next =>
            obtain ⟨t, ht⟩ := processRound_cuts wf hlt hround
            obtain ⟨ts, c', hloop, hout, hle, hstrict, hfuture, hstop⟩ := ih next ht.offset_le
            refine ⟨t :: ts, c', ?_, ?_, hle, ?_, ?_, ?_⟩
            · simp [processLoop, hlt, hround, hloop]
            · rw [hout, ht.output_eq, shownText_cons, List.append_assoc]
            · have hfit := ht.fits
              rw [ht.rest_eq] at hfit ⊢
              rw [ht.masks_eq] at hstrict
              exact .cut hfit hstrict
            · intro hfinal future
              subst hfinal
              have hfit := ht.extend wf hlt future
              rw [ht.rest_eq, List.append_assoc] at hfit ⊢
              have htail := hfuture rfl future
              rw [ht.masks_eq] at htail
              exact .cut hfit htail
            · intro hrounds
              have := ht.offset_lt
              exact hstop (by omega)
      · refine ⟨[], c, ?_, (List.append_nil _).symm, hc, .done _ _, fun _ _ => .done _ _, ?_⟩
        · simp [processLoop, hlt]
        · exact fun _ => .safe (Nat.le_of_not_lt hlt)

/-- `process` cuts a lexing of the pending bytes. -/
theorem process_lexes (wf : redactor.WellFormed) (finalChunk : Bool) :
    ∃ ts c, Stopped redactor finalChunk c ∧ redactor.process finalChunk = (shownText ts,
        { redactor with
          pending := redactor.pending.drop c.offset
          maskingAssignment := c.maskingAssignment }) ∧
      Lexes tokenKind (Fits redactor.secrets Strict) redactor.maskingAssignment
        redactor.pending ts c.maskingAssignment (redactor.pending.drop c.offset) ∧
      (finalChunk = false → ∀ future,
        Lexes tokenKind (Fits redactor.secrets (Overlong redactor.overlap))
          redactor.maskingAssignment (redactor.pending ++ future) ts c.maskingAssignment
          (redactor.pending.drop c.offset ++ future)) := by
  obtain ⟨ts, c, hloop, hout, -, hstrict, hfuture, hstop⟩ :=
    processLoop_lexes wf finalChunk (redactor.safeEnd finalChunk)
      ⟨0, redactor.maskingAssignment, []⟩ (Nat.zero_le _)
  refine ⟨ts, c, hstop (by simp), ?_, by simpa using hstrict, by simpa using hfuture⟩
  simp only [process, hloop]
  rw [hout, List.nil_append]

/-- `finish` cuts all that is pending. -/
theorem finish_lexes (wf : redactor.WellFormed) :
    ∃ ts m, redactor.finish.1 = shownText ts ∧
      Lexes tokenKind (Fits redactor.secrets Strict) redactor.maskingAssignment
        redactor.pending ts m [] := by
  obtain ⟨ts, c, hstop, heq, hstrict, -⟩ := process_lexes wf true
  refine ⟨ts, c.maskingAssignment, by rw [finish, heq], ?_⟩
  cases hstop with
  | safe h =>
      have hend : redactor.pending.drop c.offset = [] := List.drop_eq_nil_of_le h
      rw [hend] at hstrict
      exact hstrict
  | stalled n hfinal => cases hfinal

/-- The pushes of a stream cut a lexing of every continuation of it. -/
theorem pushAll_lexes (wf : redactor.WellFormed) (chunks : List Bytes) :
    ∃ ts, (redactor.pushAll chunks).1 = shownText ts ∧
      (redactor.pushAll chunks).2.WellFormed ∧
      (redactor.pushAll chunks).2.secrets = redactor.secrets ∧
      (redactor.pushAll chunks).2.overlap = redactor.overlap ∧
      ∀ future, Lexes tokenKind (Fits redactor.secrets (Overlong redactor.overlap))
        redactor.maskingAssignment (redactor.pending ++ (chunks.flatten ++ future)) ts
        (redactor.pushAll chunks).2.maskingAssignment
        ((redactor.pushAll chunks).2.pending ++ future) := by
  induction chunks generalizing redactor with
  | nil => exact ⟨[], rfl, wf, rfl, rfl, fun _ => .done _ _⟩
  | cons chunk chunks ih =>
      have wf' : StreamingRedactor.WellFormed
          { redactor with pending := redactor.pending ++ chunk } :=
        ⟨wf.secret_ne_nil, wf.secret_le, wf.overlap_pos⟩
      obtain ⟨ts, c, -, heq, -, hfuture⟩ := process_lexes wf' false
      obtain ⟨ts', hout, hwf, hsecrets, hoverlap, hrest⟩ := ih (wf'.process false)
      refine ⟨ts ++ ts', ?_, hwf, hsecrets, hoverlap, fun future => ?_⟩
      · rw [shownText_append, ← hout]
        simp only [pushAll, push, heq]
      · have hhead := hfuture rfl (chunks.flatten ++ future)
        have htail := hrest future
        simp only [heq] at htail
        simp only [pushAll, push, heq, List.flatten_cons]
        rw [List.append_assoc] at hhead
        rw [List.append_assoc]
        exact hhead.append htail

end StreamingRedactor

/-- The rule by which a stream that arrives in chunks is cut. -/
abbrev ChunkedFits (secrets : List Bytes) : Bool → Bytes → Token → Prop :=
  Fits (orderedSecrets secrets) (Overlong (overlapOf (orderedSecrets secrets)))

/-- The rule by which a stream that arrives at once is cut. -/
abbrev StrictFits (secrets : List Bytes) : Bool → Bytes → Token → Prop :=
  Fits (orderedSecrets secrets) Strict

theorem StrictFits.chunked {secrets : List Bytes} :
    ∀ m s t, StrictFits secrets m s t → ChunkedFits secrets m s t :=
  Fits.weaken fun _ h => h.elim

theorem ChunkedFits.source_ne_nil {secrets : List Bytes} :
    ∀ m s t, ChunkedFits secrets m s t → tokenKind.source t ≠ [] :=
  Fits.source_ne_nil fun _ h => (mem_orderedSecrets.mp h).2

theorem StrictFits.source_ne_nil {secrets : List Bytes} :
    ∀ m s t, StrictFits secrets m s t → tokenKind.source t ≠ [] :=
  Fits.source_ne_nil fun _ h => (mem_orderedSecrets.mp h).2

/-- What is shown of a stream is the text of a lexing of the stream. -/
theorem redactChunks_lexes (secrets chunks : List Bytes) :
    ∃ ts m, redactChunks secrets chunks = shownText ts ∧
      Lexes tokenKind (ChunkedFits secrets) false chunks.flatten ts m [] := by
  obtain ⟨ts, hout, hwf, hsecrets, hoverlap, hpushed⟩ :=
    StreamingRedactor.pushAll_lexes (StreamingRedactor.wellFormed_new secrets) chunks
  obtain ⟨ts', m, hfinish, hrest⟩ := StreamingRedactor.finish_lexes hwf
  refine ⟨ts ++ ts', m, ?_, ?_⟩
  · simp only [redactChunks, hout, hfinish, shownText_append]
  · have hhead := hpushed []
    rw [List.append_nil, List.append_nil] at hhead
    rw [hsecrets] at hrest
    exact hhead.append (hrest.mono (Fits.weaken fun _ h => h.elim))

/-- A stream that arrives at once is cut without slack. -/
theorem redactChunks_single_lexes (secrets : List Bytes) (s : Bytes) :
    ∃ ts m, redactChunks secrets [s] = shownText ts ∧
      Lexes tokenKind (StrictFits secrets) false s ts m [] := by
  have wf := StreamingRedactor.wellFormed_new secrets
  have wf' : StreamingRedactor.WellFormed
      { StreamingRedactor.new secrets with pending := [] ++ s } :=
    ⟨wf.secret_ne_nil, wf.secret_le, wf.overlap_pos⟩
  obtain ⟨ts, c, -, heq, hstrict, -⟩ := StreamingRedactor.process_lexes wf' false
  obtain ⟨ts', m, hfinish, hrest⟩ := StreamingRedactor.finish_lexes (wf'.process false)
  rw [heq] at hfinish hrest
  refine ⟨ts ++ ts', m, ?_, hstrict.append hrest⟩
  rw [shownText_append, ← hfinish]
  simp only [redactChunks, StreamingRedactor.pushAll, StreamingRedactor.push]
  rw [show (StreamingRedactor.new secrets).pending = [] from rfl, heq, List.append_nil]

theorem StrictFits.unambiguous {secrets : List Bytes} (m : Bool) (s : Bytes) :
    Lexes.Unambiguous tokenKind (StrictFits secrets) m s :=
  fun _ _ _ _ _ _ h h' => Fits.unique h h' fun _ _ hslack => hslack

/-- What is shown of a stream that arrives at once continues any lexing without slack. -/
theorem redactChunks_single_resume {secrets : List Bytes} {s : Bytes} {ts : List Token}
    {m : Bool} {rest : Bytes} (hl : Lexes tokenKind (StrictFits secrets) false s ts m rest) :
    ∃ ts' m', redactChunks secrets [s] = shownText (ts ++ ts') ∧
      Lexes tokenKind (StrictFits secrets) m rest ts' m' [] := by
  obtain ⟨tsOnce, m', hout, hlOnce⟩ := redactChunks_single_lexes secrets s
  obtain ⟨ts', rfl, hrest⟩ := hl.resume hlOnce (StrictFits.unambiguous _ _)
    StrictFits.source_ne_nil (Nat.zero_le _)
  exact ⟨ts', m', hout, hrest⟩

/-- An assignment prefix where no secret starts is cut as one token. -/
theorem assignment_lexes {secrets : List Bytes} {p : AssignmentPrefix} {rest : Bytes}
    (hnone : secretAt (orderedSecrets secrets) (p.text ++ rest) = none)
    (hunblank : StartsUnblank rest) :
    Lexes tokenKind (StrictFits secrets) false (p.text ++ rest) [.assignment p.text] true rest := by
  have hfit : StrictFits secrets false (tokenKind.source (.assignment p.text) ++ rest)
      (.assignment p.text) :=
    fits_assignment_iff.mpr ⟨hnone, p, rest, rfl, hunblank, rfl⟩
  exact .single hfit

end EasyDeploy.Retention
