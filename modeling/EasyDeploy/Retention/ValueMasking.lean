import EasyDeploy.Retention.ChunkInvariance

/-!
# Masked assignment values

What is shown of a stream with an unquoted sensitive assignment is made of the
text before it, its prefix, the mark and the text after its value. A quoted
value is shown, since the opening quote already ends the masking, and so is a
value behind an overlong key run that a chunk boundary splits.
-/

namespace EasyDeploy.Retention
open Foundation

/-- What a quoted value begins with. -/
def isQuote (byte : UInt8) : Bool := byte == 34 || byte == 39

/-- A place for the value of a sensitive assignment: the text around the value and,
for a quoted value, the quote byte on both sides. -/
structure Occurrence where
  before : Bytes
  parts : AssignmentPrefix
  quote : Option UInt8
  after : Bytes
  quote_closed : ∀ byte, quote = some byte → isQuote byte = true ∧ after.head? = some byte
  terminated : ∀ byte, after.head? = some byte → isAssignmentTerminator byte = true

namespace Occurrence

/-- The part of the stream from the key on. -/
def fromKey (o : Occurrence) (value : Bytes) : Bytes :=
  o.parts.text ++ (o.quote.toList ++ (value ++ o.after))

/-- The stream with a value in its place. -/
def stream (o : Occurrence) (value : Bytes) : Bytes := o.before ++ o.fromKey value

/-- A maximal run without terminators; blanks in front of an unquoted value belong
to the prefix. -/
structure IsValue (o : Occurrence) (value : Bytes) : Prop where
  terminatorFree : TerminatorFree value
  startsUnblank : o.quote = none → StartsUnblank (value ++ o.after)

/-- The key is reached outside masked values and outside the declared secrets. -/
def Reached (secrets : List Bytes) (o : Occurrence) (value : Bytes) : Prop :=
  ∃ ts, Lexes tokenKind (StrictFits secrets) false (o.stream value) ts false (o.fromKey value)

/-- The key is reached outside masked values, and no declared secret starts there. -/
def Outside (secrets : List Bytes) (o : Occurrence) (value : Bytes) : Prop :=
  secretAt (orderedSecrets secrets) (o.fromKey value) = none ∧ o.Reached secrets value

/-- The other sensitive assignments met in the stream have key runs within the overlap. -/
def OthersFit (secrets : List Bytes) (o : Occurrence) (value : Bytes) : Prop :=
  ∀ ts rest, Lexes tokenKind (StrictFits secrets) false (o.stream value) ts false rest →
    secretAt (orderedSecrets secrets) rest = none → rest ≠ o.fromKey value →
    ¬ Overlong (overlapOf (orderedSecrets secrets)) rest

/-- For every value and every chunking the mark is shown in place of the value,
between texts that do not depend on the value. -/
def Masked (secrets : List Bytes) (o : Occurrence) : Prop :=
  ∃ front back, ∀ value chunks, o.IsValue value → chunks.flatten = o.stream value →
    redactChunks secrets chunks = front ++ redactedMark ++ back

/-- What is shown when the value is masked: it is made of the text around the value. -/
def shown (secrets : List Bytes) (o : Occurrence) : Bytes :=
  redactChunks secrets [o.before] ++ o.parts.text ++ redactedMark ++
    (o.after.take 1 ++ redactChunks secrets [o.after.drop 1])

end Occurrence

/-- Streams that differ in unquoted values that are reached outside masked values. -/
inductive SameButValues (secrets : List Bytes) : Bytes → Bytes → Prop
  | same (s) : SameButValues secrets s s
  | value {o o' : Occurrence} {value value'} (hbefore : o.before = o'.before)
      (hparts : o.parts = o'.parts) (hend : o.after.take 1 = o'.after.take 1)
      (hquote : o.quote = none) (hquote' : o'.quote = none)
      (hvalue : o.IsValue value) (hvalue' : o'.IsValue value')
      (houtside : o.Outside secrets value) (houtside' : o'.Outside secrets value')
      (hafter : SameButValues secrets (o.after.drop 1) (o'.after.drop 1)) :
      SameButValues secrets (o.stream value) (o'.stream value')

variable {secrets : List Bytes}

/-- Tokens that end where the stream ends are all that is shown. -/
theorem redactChunks_single_of_lexes {s : Bytes} {ts : List Token} {m : Bool}
    (hl : Lexes tokenKind (StrictFits secrets) false s ts m []) :
    redactChunks secrets [s] = shownText ts := by
  obtain ⟨ts', m', hout, hrest⟩ := redactChunks_single_resume hl
  cases ts' with
  | nil => rw [hout, List.append_nil]
  | cons t ts' =>
      obtain ⟨s', hs', hfit, -⟩ := hrest.cons_inv
      exact absurd (List.append_eq_nil_iff.mp hs'.symm).1 (StrictFits.source_ne_nil _ _ _ hfit)

/-- What is shown behind a masked value starts with its terminator. -/
theorem shownText_after_value {after : Bytes} {ts : List Token} {m : Bool}
    (hl : Lexes tokenKind (StrictFits secrets) true after ts m [])
    (hterminated : ∀ byte, after.head? = some byte → isAssignmentTerminator byte = true) :
    shownText ts = after.take 1 ++ redactChunks secrets [after.drop 1] := by
  cases ts with
  | nil =>
      obtain ⟨-, rfl⟩ := hl.nil_inv
      have hempty : Lexes tokenKind (StrictFits secrets) false [] [] false [] := .done _ _
      exact (redactChunks_single_of_lexes hempty).symm
  | cons t ts =>
      obtain ⟨rest, rfl, hfit, htail⟩ := hl.cons_inv
      cases t with
      | masked byte =>
          have hterminator := hterminated byte rfl
          rw [hfit.2] at hterminator
          cases hterminator
      | terminator byte =>
          exact congrArg (byte :: ·) (redactChunks_single_of_lexes htail).symm
      | secret _ => exact hfit.elim
      | assignment _ => exact hfit.elim
      | plain _ => exact hfit.elim

namespace Occurrence

variable {o : Occurrence} {value : Bytes}

/-- The key, when it is reached, starts an assignment token. -/
theorem fromKey_lexes (hnone : secretAt (orderedSecrets secrets) (o.fromKey value) = none)
    (hvalue : o.IsValue value) :
    Lexes tokenKind (StrictFits secrets) false (o.fromKey value) [.assignment o.parts.text] true
      (o.quote.toList ++ (value ++ o.after)) := by
  refine assignment_lexes hnone ?_
  cases hquote : o.quote with
  | none => exact hvalue.startsUnblank hquote
  | some byte =>
      have hbyte := (o.quote_closed byte hquote).1
      intro first hfirst
      obtain rfl := Option.some.inj hfirst
      simp only [isQuote, Bool.or_eq_true, beq_iff_eq] at hbyte
      rcases hbyte with rfl | rfl <;> rfl

/-- At once, the value is masked. -/
theorem redactChunks_single (hquote : o.quote = none) (hvalue : o.IsValue value)
    (houtside : o.Outside secrets value) :
    redactChunks secrets [o.stream value] = o.shown secrets := by
  obtain ⟨hnone, ts, hbefore⟩ := houtside
  have hkey := fromKey_lexes hnone hvalue
  rw [hquote] at hkey
  have hmasked := hbefore.append (hkey.append (masked_lexes hvalue.terminatorFree o.after))
  obtain ⟨ts', m, hout, hafter⟩ := redactChunks_single_resume hmasked
  have hsource : o.before = ts.flatMap Token.source :=
    List.append_cancel_right hbefore.source_eq
  have halone : redactChunks secrets [o.before] = shownText ts := by
    have hcut : Lexes tokenKind (StrictFits secrets) false (ts.flatMap Token.source ++ []) ts
        false [] := lexes_truncate hbefore
    rw [List.append_nil, ← hsource] at hcut
    exact redactChunks_single_of_lexes hcut
  rw [hout, shown, halone, ← shownText_after_value hafter o.terminated]
  simp [Token.shown]

theorem keyRunsFit (hfit : o.OthersFit secrets value)
    (hkey : o.parts.keyRun.length ≤ overlapOf (orderedSecrets secrets)) :
    KeyRunsFit secrets (o.stream value) := by
  intro ts rest hl hnone hover
  by_cases hrest : rest = o.fromKey value
  · obtain ⟨offset, hsep, hlong⟩ := hover
    rw [hrest, fromKey, AssignmentPrefix.text, List.append_assoc, List.cons_append,
      sensitiveSeparator_keyRun] at hsep
    obtain rfl := Option.some.inj hsep
    omega
  · exact hfit ts rest hl hnone hrest hover

end Occurrence

theorem SameButValues.single_eq {s s' : Bytes} (h : SameButValues secrets s s') :
    redactChunks secrets [s] = redactChunks secrets [s'] := by
  induction h with
  | same => rfl
  | value hbefore hparts hend hquote hquote' hvalue hvalue' houtside houtside' _ ih =>
      rw [Occurrence.redactChunks_single hquote hvalue houtside,
        Occurrence.redactChunks_single hquote' hvalue' houtside', Occurrence.shown,
        Occurrence.shown, hbefore, hparts, hend, ih]

/-- Where no assignment starts, every token shows something, so much text shows much. -/
theorem length_le_mul_shown {front rest : Bytes} {ts : List Token} {m : Bool}
    (hl : Lexes tokenKind (ChunkedFits secrets) false (front ++ rest) ts m [])
    (hnone : ∀ n < front.length, sensitiveSeparator (front.drop n ++ rest) = none) :
    front.length ≤ (overlapOf (orderedSecrets secrets) + 1) * (shownText ts).length := by
  induction ts generalizing front with
  | nil =>
      obtain ⟨-, hnil⟩ := hl.nil_inv
      simp [(List.append_eq_nil_iff.mp hnil.symm).1]
  | cons t ts ih =>
      obtain ⟨s', hs', hfit, htail⟩ := hl.cons_inv
      have hstep : t.masks = false → 1 ≤ t.shown.length →
          t.source.length ≤ overlapOf (orderedSecrets secrets) + 1 →
          front.length ≤
            (overlapOf (orderedSecrets secrets) + 1) * (shownText (t :: ts)).length := by
        intro hmasks hshown hsource
        rw [shownText_cons, List.length_append, Nat.mul_add]
        have hone := Nat.mul_le_mul_left (overlapOf (orderedSecrets secrets) + 1) hshown
        rcases Nat.lt_or_ge front.length t.source.length with hlt | hge
        · omega
        · obtain ⟨front', rfl⟩ := List.prefix_of_prefix_length_le
            (⟨s', hs'.symm⟩ : t.source <+: front ++ rest) (List.prefix_append _ _) hge
          rw [List.append_assoc] at hs'
          obtain rfl := List.append_cancel_left hs'
          have htail : Lexes tokenKind (ChunkedFits secrets) t.masks (front' ++ rest) ts m [] :=
            htail
          rw [hmasks] at htail
          have hle := ih htail fun n hn => by
            have hdrop := hnone (t.source.length + n) (by rw [List.length_append]; omega)
            rwa [← List.drop_drop, List.drop_left] at hdrop
          rw [List.length_append]
          omega
      cases t with
      | secret secret =>
          have hshown : 1 ≤ redactedMark.length := by decide
          exact hstep rfl hshown (length_le_overlapOf (List.mem_of_find?_eq_some hfit))
      | assignment text =>
          cases front with
          | nil => exact Nat.zero_le _
          | cons byte front =>
              obtain ⟨-, p, rest', heq, -⟩ := fits_assignment_iff.mp hfit
              have hsep := hnone 0 (Nat.succ_pos _)
              rw [List.drop_zero, heq, AssignmentPrefix.text, List.append_assoc, List.cons_append,
                sensitiveSeparator_keyRun] at hsep
              cases hsep
      | plain byte => exact hstep rfl (Nat.le_refl _) (Nat.succ_le_succ (Nat.zero_le _))
      | masked byte => exact hfit.elim
      | terminator byte => exact hfit.elim

/-- No assignment starts inside a text without letters. -/
theorem sensitiveSeparator_drop_letterless {text : Bytes}
    (h : ∀ byte ∈ text, ¬ ((97 : UInt8) ≤ toAsciiLowercase byte ∧ toAsciiLowercase byte ≤ 122))
    (rest : Bytes) {n : Nat} (hn : n < text.length) :
    sensitiveSeparator (text.drop n ++ rest) = none := by
  obtain ⟨byte, tail, htail⟩ := List.exists_cons_of_length_pos
    (show 0 < (text.drop n).length by rw [List.length_drop]; omega)
  rw [htail]
  exact sensitiveSeparator_letterless
    (h byte (List.mem_of_mem_drop (htail ▸ List.mem_cons_self)))

/-- A value without letters leaves its length in what is shown behind a key run that
has lost its first byte. -/
theorem length_le_of_exposed (p : AssignmentPrefix) {value after : Bytes} {ts : List Token}
    {m : Bool}
    (hvalue : ∀ byte ∈ value,
      ¬ ((97 : UInt8) ≤ toAsciiLowercase byte ∧ toAsciiLowercase byte ≤ 122))
    (hl : Lexes tokenKind (ChunkedFits secrets) false
      (p.keyRun.tail ++ p.separator :: (p.margin ++ (value ++ after))) ts m []) :
    value.length ≤ (overlapOf (orderedSecrets secrets) + 1) * (shownText ts).length := by
  have hletterless : ∀ byte ∈ p.separator :: (p.margin ++ value),
      ¬ ((97 : UInt8) ≤ toAsciiLowercase byte ∧ toAsciiLowercase byte ≤ 122) := by
    intro byte hbyte
    rcases List.mem_cons.mp hbyte with rfl | hbyte
    · exact not_letter_of_separator p.separator_ok
    · rcases List.mem_append.mp hbyte with hbyte | hbyte
      · exact not_letter_of_blank (p.margin_blank _ hbyte)
      · exact hvalue byte hbyte
  have hshape : p.keyRun.tail ++ p.separator :: (p.margin ++ (value ++ after)) =
      (p.keyRun.tail ++ p.separator :: (p.margin ++ value)) ++ after := by simp
  rw [hshape] at hl
  refine Nat.le_trans ?_ (length_le_mul_shown hl fun n hn => ?_)
  · simp only [List.length_append, List.length_cons]
    omega
  · rcases Nat.lt_or_ge p.keyRun.tail.length n with hlt | hge
    · rw [List.drop_append, List.drop_eq_nil_of_le hlt.le, List.nil_append]
      apply sensitiveSeparator_drop_letterless hletterless
      rw [List.length_append] at hn
      omega
    · rw [List.drop_append_of_le_length hge, List.append_assoc, List.cons_append,
        ← List.drop_one, List.drop_drop]
      exact sensitiveSeparator_inside_none p _ (by omega)

namespace Occurrence

variable {o : Occurrence}

/-- A value of zero bytes, which are neither letters nor blanks nor terminators. -/
theorem isValue_zeros (o : Occurrence) {n : Nat} (hn : 0 < n) :
    o.IsValue (List.replicate n 0) where
  terminatorFree := by
    intro byte hbyte
    obtain rfl := List.eq_of_mem_replicate hbyte
    rfl
  startsUnblank := by
    intro _ byte hbyte
    rw [List.head?_append_of_ne_nil _ (List.ne_nil_of_length_pos (by simpa using hn)),
      List.head?_replicate, if_neg (by omega)] at hbyte
    obtain rfl := Option.some.inj hbyte
    rfl

theorem zeros_letterless (n : Nat) : ∀ byte ∈ List.replicate n (0 : UInt8),
    ¬ ((97 : UInt8) ≤ toAsciiLowercase byte ∧ toAsciiLowercase byte ≤ 122) := by
  intro byte hbyte
  obtain rfl := List.eq_of_mem_replicate hbyte
  decide

/-- A masked place shows texts of one length, so it shows no run of zeros of every length. -/
theorem not_masked_of_shown
    (h : ∀ n, 0 < n → ∃ chunks, chunks.flatten = o.stream (List.replicate n 0) ∧
      n ≤ (overlapOf (orderedSecrets secrets) + 1) * (redactChunks secrets chunks).length) :
    ¬ o.Masked secrets := by
  rintro ⟨front, back, hmasked⟩
  obtain ⟨chunks, hflat, hle⟩ := h ((overlapOf (orderedSecrets secrets) + 1) *
    (front ++ redactedMark ++ back).length + 1) (Nat.succ_pos _)
  rw [hmasked _ chunks (o.isValue_zeros (Nat.succ_pos _)) hflat] at hle
  omega

/-- A quoted value is shown behind its opening quote. -/
theorem not_masked_of_quote {byte : UInt8} (hquote : o.quote = some byte)
    (houtside : ∀ value, o.IsValue value → o.Outside secrets value) : ¬ o.Masked secrets := by
  refine not_masked_of_shown fun n hn => ?_
  have hvalue := o.isValue_zeros hn
  obtain ⟨hnone, ts, hbefore⟩ := houtside _ hvalue
  have hkey := fromKey_lexes hnone hvalue
  rw [hquote] at hkey
  have hend : StrictFits secrets true
      (tokenKind.source (.terminator byte) ++ (List.replicate n 0 ++ o.after))
      (.terminator byte) := by
    refine ⟨rfl, ?_⟩
    have hbyte := (o.quote_closed byte hquote).1
    simp only [isQuote, Bool.or_eq_true, beq_iff_eq] at hbyte
    rcases hbyte with rfl | rfl <;> rfl
  obtain ⟨ts', m, hout, hrest⟩ :=
    redactChunks_single_resume (hbefore.append (hkey.append (.single hend)))
  refine ⟨[o.stream (List.replicate n 0)], by simp, ?_⟩
  have hle := length_le_mul_shown (hrest.mono StrictFits.chunked)
    fun k hk => sensitiveSeparator_drop_letterless (zeros_letterless n) o.after hk
  rw [List.length_replicate] at hle
  refine hle.trans (Nat.mul_le_mul_left _ ?_)
  rw [hout, shownText_append, List.length_append]
  exact Nat.le_add_left _ _

/-- A value behind an overlong key run is shown when the separator comes late. -/
theorem not_masked_of_overlong
    (hlong : overlapOf (orderedSecrets secrets) < o.parts.keyRun.length)
    (houtside : ∀ value, o.IsValue value → o.Outside secrets value) : ¬ o.Masked secrets := by
  cases hquote : o.quote with
  | some byte => exact not_masked_of_quote hquote houtside
  | none =>
      refine not_masked_of_shown fun n hn => ?_
      have hvalue := o.isValue_zeros hn
      obtain ⟨hnone, ts, hbefore⟩ := houtside _ hvalue
      have hcut : o.fromKey (List.replicate n 0) = o.parts.keyRun ++ o.parts.separator ::
          (o.parts.margin ++ (List.replicate n 0 ++ o.after)) := by
        simp [fromKey, hquote, AssignmentPrefix.text]
      have hstream := hbefore.source_eq
      rw [hcut] at hnone hbefore hstream
      obtain ⟨byte, ts', m, -, hout, hrest⟩ := exposed_lexes hbefore hnone hlong
      have hle := length_le_of_exposed o.parts (zeros_letterless n) hrest
      rw [List.length_replicate] at hle
      refine ⟨[ts.flatMap Token.source ++ o.parts.keyRun, o.parts.separator ::
        (o.parts.margin ++ (List.replicate n 0 ++ o.after))], by simp [hstream, tokenKind], ?_⟩
      rw [hout]
      refine hle.trans (Nat.mul_le_mul_left _ ?_)
      simp only [List.length_append, List.length_cons]
      omega

/-- Behind the first byte of an assignment with a value of zeros no assignment starts. -/
theorem sensitiveSeparator_drop_fromKey {n k : Nat} (hpos : 0 < k)
    (hk : k < (o.parts.text ++ (o.quote.toList ++ List.replicate n 0)).length) :
    sensitiveSeparator ((o.parts.text ++ (o.quote.toList ++ List.replicate n 0)).drop k ++
      o.after) = none := by
  have hletterless : ∀ byte ∈ o.parts.separator ::
      (o.parts.margin ++ (o.quote.toList ++ List.replicate n 0)),
      ¬ ((97 : UInt8) ≤ toAsciiLowercase byte ∧ toAsciiLowercase byte ≤ 122) := by
    intro byte hbyte
    rcases List.mem_cons.mp hbyte with rfl | hbyte
    · exact not_letter_of_separator o.parts.separator_ok
    rcases List.mem_append.mp hbyte with hbyte | hbyte
    · exact not_letter_of_blank (o.parts.margin_blank _ hbyte)
    rcases List.mem_append.mp hbyte with hbyte | hbyte
    · have hquote := (o.quote_closed byte (Option.mem_toList.mp hbyte)).1
      simp only [isQuote, Bool.or_eq_true, beq_iff_eq] at hquote
      rcases hquote with rfl | rfl <;> decide
    · exact zeros_letterless n byte hbyte
  have hshape : o.parts.text ++ (o.quote.toList ++ List.replicate n 0) = o.parts.keyRun ++
      o.parts.separator :: (o.parts.margin ++ (o.quote.toList ++ List.replicate n 0)) := by
    simp [AssignmentPrefix.text]
  rw [hshape] at hk ⊢
  rcases Nat.lt_or_ge o.parts.keyRun.length k with hlt | hge
  · rw [List.drop_append, List.drop_eq_nil_of_le hlt.le, List.nil_append]
    apply sensitiveSeparator_drop_letterless hletterless
    rw [List.length_append] at hk
    omega
  · rw [List.drop_append_of_le_length hge, List.append_assoc, List.cons_append]
    exact sensitiveSeparator_inside_none o.parts _ hpos

/-- A value behind a declared secret that starts at the key is shown: the key is gone with
the secret, and a value longer than the secrets is left. -/
theorem not_masked_of_declared (hreached : ∀ value, o.IsValue value → o.Reached secrets value)
    (hdeclared : ∀ value, o.IsValue value →
      secretAt (orderedSecrets secrets) (o.fromKey value) ≠ none) : ¬ o.Masked secrets := by
  refine not_masked_of_shown fun n hn => ⟨[o.stream (List.replicate n 0)], by simp, ?_⟩
  have hvalue := o.isValue_zeros hn
  obtain ⟨ts, hbefore⟩ := hreached _ hvalue
  obtain ⟨secret, hsecret⟩ := Option.ne_none_iff_exists'.mp (hdeclared _ hvalue)
  have hfound := List.find?_some (p := fun secret : Bytes =>
    secret.isPrefixOf (o.fromKey (List.replicate n 0))) hsecret
  obtain ⟨rest, hrest⟩ := List.isPrefixOf_iff_prefix.mp hfound
  have hfit : StrictFits secrets false (tokenKind.source (.secret secret) ++ rest)
      (.secret secret) := by
    change secretAt (orderedSecrets secrets) (secret ++ rest) = some secret
    rw [hrest, hsecret]
  have hpos : 0 < secret.length :=
    List.length_pos_of_ne_nil (StrictFits.source_ne_nil _ _ _ hfit)
  have hshort : secret.length ≤ overlapOf (orderedSecrets secrets) + 1 :=
    length_le_overlapOf (List.mem_of_find?_eq_some hsecret)
  rw [← hrest] at hbefore
  obtain ⟨ts', m, hout, hafter⟩ :=
    redactChunks_single_resume (hbefore.append (.single hfit))
  have hmark : 1 ≤ redactedMark.length := by decide
  have hshown : 1 + (shownText ts').length ≤
      (redactChunks secrets [o.stream (List.replicate n 0)]).length := by
    rw [hout]
    simp only [shownText_append, shownText_cons, shownText_nil, Token.shown, List.length_append,
      List.length_nil]
    omega
  refine Nat.le_trans ?_ (Nat.mul_le_mul_left _ hshown)
  rw [Nat.mul_add, Nat.mul_one]
  have hshape : secret ++ rest =
      (o.parts.text ++ (o.quote.toList ++ List.replicate n 0)) ++ o.after := by
    rw [hrest, fromKey]
    simp
  have hlength : n ≤ (o.parts.text ++ (o.quote.toList ++ List.replicate n 0)).length := by
    simp only [List.length_append, List.length_replicate]
    omega
  rcases Nat.lt_or_ge secret.length
    (o.parts.text ++ (o.quote.toList ++ List.replicate n 0)).length with hlt | hge
  · have hleft : rest = (o.parts.text ++ (o.quote.toList ++ List.replicate n 0)).drop
        secret.length ++ o.after := by
      rw [← List.drop_append_of_le_length hlt.le, ← hshape, List.drop_left]
    have hafter : Lexes tokenKind (StrictFits secrets) false rest ts' m [] := hafter
    rw [hleft] at hafter
    have hle := length_le_mul_shown (hafter.mono StrictFits.chunked) fun k hk => by
      rw [List.drop_drop]
      rw [List.length_drop] at hk
      exact sensitiveSeparator_drop_fromKey (by omega) (by omega)
    rw [List.length_drop] at hle
    omega
  · omega

end Occurrence

/-- A value outside masked values is masked in every chunking when it is unquoted and
the key runs of the stream fit into the overlap; streams that differ in such values
show the same. The conditions are exact: a value in quotes, one behind an overlong key
run and one whose key a declared secret covers are not masked, and where the other key
runs fit, the values that are left are. -/
theorem sensitive_values_masked (secrets : List Bytes) :
    (∀ (o : Occurrence) (value : Bytes), o.quote = none → o.IsValue value →
      o.Outside secrets value → KeyRunsFit secrets (o.stream value) →
      ∀ chunks, chunks.flatten = o.stream value →
        redactChunks secrets chunks = o.shown secrets) ∧
    (∀ s s', SameButValues secrets s s' → KeyRunsFit secrets s → KeyRunsFit secrets s' →
      ∀ chunks chunks', chunks.flatten = s → chunks'.flatten = s' →
        redactChunks secrets chunks = redactChunks secrets chunks') ∧
    (∀ o : Occurrence, (∀ value, o.IsValue value → o.Outside secrets value) →
      (o.Masked secrets → o.quote = none ∧
        o.parts.keyRun.length ≤ overlapOf (orderedSecrets secrets)) ∧
      ((∀ value, o.IsValue value → o.OthersFit secrets value) → o.quote = none →
        o.parts.keyRun.length ≤ overlapOf (orderedSecrets secrets) → o.Masked secrets)) ∧
    (∀ o : Occurrence, (∀ value, o.IsValue value → o.Reached secrets value) →
      (∀ value, o.IsValue value →
        secretAt (orderedSecrets secrets) (o.fromKey value) ≠ none) → ¬ o.Masked secrets) := by
  have hmasked : ∀ (o : Occurrence) (value : Bytes), o.quote = none → o.IsValue value →
      o.Outside secrets value → KeyRunsFit secrets (o.stream value) →
      ∀ chunks, chunks.flatten = o.stream value →
        redactChunks secrets chunks = o.shown secrets := by
    intro o value hquote hvalue houtside hfit chunks hflat
    rw [← hflat] at hfit
    rw [← Occurrence.redactChunks_single hquote hvalue houtside]
    exact redactChunks_eq_of_keyRunsFit (by simp [hflat]) hfit
  refine ⟨hmasked, ?_, ?_, fun o => o.not_masked_of_declared⟩
  · rintro s s' hsame hfit hfit' chunks chunks' rfl rfl
    calc redactChunks secrets chunks = redactChunks secrets [chunks.flatten] :=
          redactChunks_eq_of_keyRunsFit (by simp) hfit
      _ = redactChunks secrets [chunks'.flatten] := hsame.single_eq
      _ = redactChunks secrets chunks' := (redactChunks_eq_of_keyRunsFit (by simp) hfit').symm
  · intro o houtside
    constructor
    · intro hmask
      constructor
      · cases hquote : o.quote with
        | none => rfl
        | some byte => exact absurd hmask (Occurrence.not_masked_of_quote hquote houtside)
      · by_contra hlong
        exact Occurrence.not_masked_of_overlong (Nat.lt_of_not_le hlong) houtside hmask
    · intro hothers hquote hkey
      refine ⟨redactChunks secrets [o.before] ++ o.parts.text,
        o.after.take 1 ++ redactChunks secrets [o.after.drop 1], ?_⟩
      intro value chunks hvalue hflat
      exact hmasked o value hquote hvalue (houtside value hvalue)
        (Occurrence.keyRunsFit (hothers value hvalue) hkey) chunks hflat

theorem password_sensitive : IsSensitiveKey (ascii "password") := by
  unfold IsSensitiveKey
  decide +kernel

/-- The prefix "password=". -/
def passwordPrefix : AssignmentPrefix where
  key := ascii "password"
  gap := []
  separator := 61
  margin := []
  key_sensitive := password_sensitive
  gap_blank := isBlank_nil
  separator_ok := rfl
  margin_blank := isBlank_nil

/-- An unquoted password followed by a line that starts with "ok". -/
def unquotedPassword : Occurrence where
  before := ascii "a: 1\n"
  parts := passwordPrefix
  quote := none
  after := ascii "\nok"
  quote_closed := by simp
  terminated := by decide +kernel

/-- An unquoted password that is the whole stream. -/
def barePassword : Occurrence where
  before := []
  parts := passwordPrefix
  quote := none
  after := []
  quote_closed := by simp
  terminated := by simp

/-- A password in double quotes at the start of the stream. -/
def quotedPassword : Occurrence where
  before := []
  parts := passwordPrefix
  quote := some 34
  after := ascii "\"\nok"
  quote_closed := by decide +kernel
  terminated := by decide +kernel

/-- Where neither a secret nor an assignment starts, plain bytes are cut. -/
theorem plain_lexes {text rest : Bytes}
    (hsecret : ∀ n < text.length, secretAt (orderedSecrets secrets) (text.drop n ++ rest) = none)
    (hnone : ∀ n < text.length, sensitiveSeparator (text.drop n ++ rest) = none) :
    Lexes tokenKind (StrictFits secrets) false (text ++ rest) (text.map .plain) false rest := by
  induction text with
  | nil => exact .done _ _
  | cons byte text ih =>
      have hfit : StrictFits secrets false (tokenKind.source (.plain byte) ++ (text ++ rest))
          (.plain byte) :=
        ⟨hsecret 0 (Nat.succ_pos _), rfl,
          .inl (sensitiveAssignmentPrefix_eq_none_iff.mpr (hnone 0 (Nat.succ_pos _)))⟩
      exact .cut hfit (ih (fun n hn => hsecret (n + 1) (Nat.succ_lt_succ hn))
        fun n hn => hnone (n + 1) (Nat.succ_lt_succ hn))

/-- Inside a masked value no other assignment is reached. -/
theorem not_lexes_of_masked {value : Bytes} {ts : List Token} {rest : Bytes}
    (hvalue : TerminatorFree value) :
    ¬ Lexes tokenKind (StrictFits secrets) true value ts false rest := by
  induction value generalizing ts with
  | nil =>
      intro hl
      cases ts with
      | nil => exact absurd hl.nil_inv.1 Bool.false_ne_true
      | cons t ts =>
          obtain ⟨s', hs', hfit, -⟩ := hl.cons_inv
          exact StrictFits.source_ne_nil _ _ _ hfit (List.append_eq_nil_iff.mp hs'.symm).1
  | cons byte value ih =>
      intro hl
      cases ts with
      | nil => exact absurd hl.nil_inv.1 Bool.false_ne_true
      | cons t ts =>
          obtain ⟨s', hs', hfit, htail⟩ := hl.cons_inv
          cases t with
          | masked other =>
              obtain ⟨-, rfl⟩ := List.cons.inj hs'
              exact ih (fun other hother => hvalue other (List.mem_cons_of_mem _ hother)) htail
          | terminator other =>
              obtain ⟨rfl, -⟩ := List.cons.inj hs'
              have hterminator := hvalue _ List.mem_cons_self
              rw [hfit.2] at hterminator
              cases hterminator
          | secret _ => exact hfit.elim
          | assignment _ => exact hfit.elim
          | plain _ => exact hfit.elim

theorem barePassword_othersFit {value : Bytes} (hvalue : barePassword.IsValue value) :
    barePassword.OthersFit [] value := by
  intro ts rest hl hnone hrest
  have hempty : secretAt (orderedSecrets []) (barePassword.fromKey value) = none :=
    secretAt_eq_none_iff.mpr (by simp)
  cases ts with
  | nil => exact absurd hl.nil_inv.2 hrest
  | cons t ts =>
      obtain ⟨s', hs', hfit, htail⟩ := hl.cons_inv
      obtain ⟨-, -, hassignment, -⟩ := (Occurrence.fromKey_lexes hempty hvalue).cons_inv
      obtain rfl := Fits.unique hfit hassignment fun _ _ => id
      have hstream : passwordPrefix.text ++ (value ++ []) = passwordPrefix.text ++ s' := hs'
      rw [List.append_nil] at hstream
      obtain rfl := List.append_cancel_left hstream
      exact absurd htail (not_lexes_of_masked hvalue.terminatorFree)

/-- An unquoted password is masked in no chunking otherwise, and every one that is the whole
stream is; in quotes, and where a declared secret covers the key, it is not. -/
theorem sensitive_values_masked_password :
    (¬ ∃ chunks : List Bytes, chunks.flatten = ascii "a: 1\npassword=hunter2\nok" ∧
      redactChunks [] chunks ≠ ascii "a: 1\npassword=[REDACTED]\nok") ∧
    barePassword.Masked [] ∧ ¬ quotedPassword.Masked [] ∧
      ¬ barePassword.Masked [ascii "pass"] := by
  refine ⟨?_, ?_, fun hmask => ?_, ?_⟩
  · rintro ⟨chunks, hflat, hshown⟩
    apply hshown
    have hvalue : unquotedPassword.IsValue (ascii "hunter2") :=
      ⟨by decide +kernel, by decide +kernel⟩
    have houtside : unquotedPassword.Outside [] (ascii "hunter2") :=
      ⟨secretAt_eq_none_iff.mpr (by simp), _,
        plain_lexes (fun _ _ => secretAt_eq_none_iff.mpr (by simp)) (by decide +kernel)⟩
    have hstream : unquotedPassword.stream (ascii "hunter2") =
        ascii "a: 1\npassword=hunter2\nok" := by decide +kernel
    rw [(sensitive_values_masked []).1 unquotedPassword (ascii "hunter2") rfl hvalue
      houtside (keyRunsFit_of_length_le (by decide +kernel)) chunks
      (hflat.trans hstream.symm)]
    decide +kernel
  · exact ((sensitive_values_masked []).2.2.1 barePassword fun value _ =>
      ⟨secretAt_eq_none_iff.mpr (by simp), [], .done _ _⟩).2
        (fun value hvalue => barePassword_othersFit hvalue) rfl (by decide +kernel)
  · have hquote := (((sensitive_values_masked []).2.2.1 quotedPassword fun value _ =>
      ⟨secretAt_eq_none_iff.mpr (by simp), [], .done _ _⟩).1 hmask).1
    cases hquote
  · exact (sensitive_values_masked [ascii "pass"]).2.2.2 barePassword
      (fun value _ => ⟨[], .done _ _⟩) fun value _ => by
        have hordered : orderedSecrets [ascii "pass"] = [ascii "pass"] := by decide +kernel
        rw [hordered]
        exact Option.some_ne_none (ascii "pass")

/-- Two quoted passwords show two texts. -/
theorem quoted_password_shown :
    ¬ ∀ (secrets : List Bytes) (o : Occurrence) (value value' : Bytes), o.IsValue value →
      o.IsValue value' → o.Outside secrets value → o.Outside secrets value' →
      redactChunks secrets [o.stream value] = redactChunks secrets [o.stream value'] := by
  intro h
  have houtside (value : Bytes) : quotedPassword.Outside [] value :=
    ⟨secretAt_eq_none_iff.mpr (by simp), [], .done _ _⟩
  have hsame := h [] quotedPassword (ascii "hunter2") (ascii "hunter3")
    ⟨by decide +kernel, by simp [quotedPassword]⟩ ⟨by decide +kernel, by simp [quotedPassword]⟩
    (houtside _) (houtside _)
  revert hsame
  decide +kernel

end EasyDeploy.Retention
