import EasyDeploy.Retention.StreamingRedactor

/-!
# Sensitive assignment prefixes

The recogniser `sensitiveAssignmentPrefix` is characterised by the texts it
accepts: a sensitive key in any letter case, blanks, a separator, blanks. Most
facts about streams follow from how such a text can stand at the front of an
input that is only partly visible.
-/

namespace EasyDeploy.Retention

/-- A text that one of the sensitive keys equals up to ASCII case. -/
def IsSensitiveKey (key : Bytes) : Prop := key.map toAsciiLowercase ∈ sensitiveKeys

/-- Nothing but blanks. -/
def IsBlank (text : Bytes) : Prop := ∀ byte ∈ text, isAsciiWhitespace byte = true

theorem isBlank_nil : IsBlank [] := fun _ hmem => absurd hmem List.not_mem_nil

/-- The first byte, if there is one, is not whitespace. -/
def StartsUnblank (text : Bytes) : Prop :=
  ∀ byte, text.head? = some byte → isAsciiWhitespace byte = false

instance (text : Bytes) : Decidable (StartsUnblank text) :=
  inferInstanceAs (Decidable (∀ byte, text.head? = some byte → isAsciiWhitespace byte = false))

theorem StartsUnblank.append {text : Bytes} (h : StartsUnblank text) (hne : text ≠ [])
    (rest : Bytes) : StartsUnblank (text ++ rest) := by
  intro byte hbyte
  rw [List.head?_append_of_ne_nil _ hne] at hbyte
  exact h byte hbyte

/-- The parts of an assignment up to its value. -/
structure AssignmentPrefix where
  key : Bytes
  gap : Bytes
  separator : UInt8
  margin : Bytes
  key_sensitive : IsSensitiveKey key
  gap_blank : IsBlank gap
  separator_ok : isSeparator separator = true
  margin_blank : IsBlank margin

namespace AssignmentPrefix

/-- The key and the blanks before the separator. -/
def keyRun (p : AssignmentPrefix) : Bytes := p.key ++ p.gap

/-- The bytes of a prefix. -/
def text (p : AssignmentPrefix) : Bytes := p.keyRun ++ p.separator :: p.margin

/-- The same key and separator with no blanks after the separator. -/
def bare (p : AssignmentPrefix) : AssignmentPrefix :=
  { p with margin := [], margin_blank := by simp [IsBlank] }

@[simp] theorem keyRun_bare (p : AssignmentPrefix) : p.bare.keyRun = p.keyRun := rfl

@[simp] theorem text_bare (p : AssignmentPrefix) : p.bare.text = p.keyRun ++ [p.separator] := rfl

theorem text_ne_nil (p : AssignmentPrefix) : p.text ≠ [] := by simp [text]

end AssignmentPrefix

theorem separator_not_whitespace {byte : UInt8} (h : isSeparator byte = true) :
    isAsciiWhitespace byte = false := by
  simp only [isSeparator, Bool.or_eq_true, beq_iff_eq] at h
  rcases h with rfl | rfl <;> rfl

theorem sensitiveKeys_eq : sensitiveKeys =
    [[112, 97, 115, 115, 119, 111, 114, 100], [116, 111, 107, 101, 110],
      [115, 101, 99, 114, 101, 116],
      [97, 117, 116, 104, 111, 114, 105, 122, 97, 116, 105, 111, 110]] := by
  decide

/-- Every byte of a lower case key is a lower case letter. -/
theorem sensitiveKeys_letters :
    ∀ key ∈ sensitiveKeys, ∀ byte ∈ key, (97 : UInt8) ≤ byte ∧ byte ≤ 122 := by
  rw [sensitiveKeys_eq]
  decide +kernel

/-- The keys differ in their first letter. -/
theorem sensitiveKeys_head :
    ∀ key ∈ sensitiveKeys, ∀ key' ∈ sensitiveKeys, key.head? = key'.head? → key = key' := by
  rw [sensitiveKeys_eq]
  decide

theorem sensitiveKeys_ne_nil : ∀ key ∈ sensitiveKeys, key ≠ [] := by
  rw [sensitiveKeys_eq]
  decide

/-- No key ends in another key. -/
theorem sensitiveKeys_suffix :
    ∀ key ∈ sensitiveKeys, ∀ n, 0 < n → key.drop n ∉ sensitiveKeys := by
  have hshort : ∀ key ∈ sensitiveKeys, ∀ n < 13, 0 < n → key.drop n ∉ sensitiveKeys := by
    rw [sensitiveKeys_eq]
    decide
  have hlen : ∀ key ∈ sensitiveKeys, key.length ≤ 13 := by
    rw [sensitiveKeys_eq]
    decide
  intro key hkey n hn
  rcases Nat.lt_or_ge n 13 with h | h
  · exact hshort key hkey n h hn
  · rw [List.drop_eq_nil_of_le (Nat.le_trans (hlen key hkey) h)]
    exact fun hmem => sensitiveKeys_ne_nil [] hmem rfl

/-- A byte whose lower case form is a letter is neither blank nor a separator. -/
theorem letter_of_lowercase {byte : UInt8}
    (h : (97 : UInt8) ≤ toAsciiLowercase byte ∧ toAsciiLowercase byte ≤ 122) :
    isAsciiWhitespace byte = false ∧ isSeparator byte = false := by
  constructor
  · by_contra hblank
    simp only [isAsciiWhitespace, Bool.not_eq_false, Bool.or_eq_true, beq_iff_eq] at hblank
    rcases hblank with (((rfl | rfl) | rfl) | rfl) | rfl <;> revert h <;> decide
  · by_contra hsep
    simp only [isSeparator, Bool.not_eq_false, Bool.or_eq_true, beq_iff_eq] at hsep
    rcases hsep with rfl | rfl <;> revert h <;> decide

theorem IsSensitiveKey.ne_nil {key : Bytes} (h : IsSensitiveKey key) : key ≠ [] := by
  rintro rfl
  exact sensitiveKeys_ne_nil [] h rfl

theorem IsSensitiveKey.letters {key : Bytes} (h : IsSensitiveKey key) :
    ∀ byte ∈ key, isAsciiWhitespace byte = false ∧ isSeparator byte = false := by
  intro byte hbyte
  exact letter_of_lowercase (sensitiveKeys_letters _ h _ (List.mem_map_of_mem hbyte))

/-- The bytes of an assignment prefix: letters, blanks and the separator. -/
theorem AssignmentPrefix.byte_cases (p : AssignmentPrefix) {byte : UInt8} (h : byte ∈ p.text) :
    ((97 : UInt8) ≤ toAsciiLowercase byte ∧ toAsciiLowercase byte ≤ 122) ∨
      isAsciiWhitespace byte = true ∨ isSeparator byte = true := by
  rcases List.mem_append.mp h with h | h
  · rcases List.mem_append.mp h with h | h
    · exact .inl (sensitiveKeys_letters _ p.key_sensitive _ (List.mem_map_of_mem h))
    · exact .inr (.inl (p.gap_blank _ h))
  · rcases List.mem_cons.mp h with rfl | h
    · exact .inr (.inr p.separator_ok)
    · exact .inr (.inl (p.margin_blank _ h))

theorem whitespaceLen_append {blank rest : Bytes} (hblank : IsBlank blank)
    (hrest : StartsUnblank rest) : whitespaceLen (blank ++ rest) = blank.length := by
  induction blank with
  | nil =>
      cases rest with
      | nil => rfl
      | cons byte rest => simp [whitespaceLen, hrest byte rfl]
  | cons byte blank ih =>
      have hbyte : isAsciiWhitespace byte = true := hblank byte (by simp)
      have ih := ih fun b hb => hblank b (by simp [hb])
      simpa [whitespaceLen, List.takeWhile_cons, hbyte] using ih

/-- Every input is a blank run followed by a part that starts unblank. -/
theorem blank_split (s : Bytes) : ∃ blank rest, s = blank ++ rest ∧ IsBlank blank ∧
    StartsUnblank rest ∧ blank.length = whitespaceLen s := by
  refine ⟨s.takeWhile isAsciiWhitespace, s.dropWhile isAsciiWhitespace,
    (List.takeWhile_append_dropWhile).symm, ?_, ?_, rfl⟩
  · intro byte hbyte
    exact List.all_eq_true.mp (List.all_takeWhile) byte hbyte
  · intro byte hbyte
    have h := List.head?_dropWhile_not isAsciiWhitespace s
    rw [hbyte] at h
    simpa using h

theorem separatorOffset_eq_some_iff {value key : Bytes} {offset : Nat} :
    separatorOffset value key = some offset ↔
      ∃ front gap byte rest, value = front ++ gap ++ byte :: rest ∧
        front.map toAsciiLowercase = key.map toAsciiLowercase ∧ IsBlank gap ∧
        isSeparator byte = true ∧ offset = (front ++ gap).length := by
  constructor
  · intro h
    unfold separatorOffset at h
    split at h
    · cases h
    · rename_i hkey
      simp only [Bool.or_eq_true, decide_eq_true_eq, not_or, Nat.not_lt, Bool.not_eq_true',
        Bool.not_eq_false, eqIgnoreAsciiCase, beq_iff_eq] at hkey
      obtain ⟨gap, rest, hdrop, hgap, -, hlen⟩ := blank_split (value.drop key.length)
      have hvalue : value = value.take key.length ++ gap ++ rest := by
        rw [List.append_assoc, ← hdrop, List.take_append_drop]
      have hfront : (value.take key.length).length = key.length := by
        rw [List.length_take]; omega
      rw [← hlen] at h
      have hat : value[key.length + gap.length]? = rest.head? := by
        conv_lhs => rw [hvalue]
        rw [List.getElem?_append_right (by simp [hfront])]
        simp [hfront, List.head?_eq_getElem?]
      simp only [hat] at h
      cases rest with
      | nil => simp at h
      | cons byte rest =>
          simp only [List.head?_cons] at h
          split at h
          · rename_i hsep
            refine ⟨_, gap, byte, rest, hvalue, hkey.2, hgap, hsep, ?_⟩
            rw [List.length_append, hfront]
            exact (Option.some.inj h).symm
          · cases h
  · rintro ⟨front, gap, byte, rest, rfl, hkey, hgap, hsep, rfl⟩
    have hlen : front.length = key.length := by simpa using congrArg List.length hkey
    have hws : whitespaceLen (gap ++ byte :: rest) = gap.length :=
      whitespaceLen_append hgap (by
        intro b hb
        obtain rfl := Option.some.inj hb
        exact separator_not_whitespace hsep)
    have hdrop : (front ++ gap ++ byte :: rest).drop key.length = gap ++ byte :: rest := by
      rw [List.append_assoc, ← hlen, List.drop_left]
    have htake : (front ++ gap ++ byte :: rest).take key.length = front := by
      rw [List.append_assoc, ← hlen, List.take_left]
    have hat : (front ++ gap ++ byte :: rest)[key.length + gap.length]? = some byte := by
      rw [List.getElem?_append_right (by simp [hlen])]
      simp [hlen]
    have hcase : eqIgnoreAsciiCase front key = true := by simp [eqIgnoreAsciiCase, hkey]
    unfold separatorOffset
    rw [hdrop, htake, hws, hcase]
    simp [hsep, hlen]

/-- Lower casing a lower case key changes nothing. -/
theorem sensitiveKeys_lowercase : ∀ key ∈ sensitiveKeys, key.map toAsciiLowercase = key := by
  rw [sensitiveKeys_eq]
  decide

theorem sensitiveSeparator_eq_some_iff {value : Bytes} {offset : Nat} :
    sensitiveSeparator value = some offset ↔
      ∃ (p : AssignmentPrefix) (rest : Bytes), value = p.keyRun ++ p.separator :: rest ∧
        offset = p.keyRun.length := by
  unfold sensitiveSeparator
  constructor
  · intro h
    obtain ⟨key, hkey, h⟩ := List.exists_of_findSome?_eq_some h
    obtain ⟨front, gap, byte, rest, rfl, hfront, hgap, hsep, rfl⟩ :=
      Iff.mp separatorOffset_eq_some_iff h
    have hsens : IsSensitiveKey front := by
      rw [IsSensitiveKey, hfront, sensitiveKeys_lowercase key hkey]
      exact hkey
    exact ⟨⟨front, gap, byte, [], hsens, hgap, hsep, by simp [IsBlank]⟩, rest, rfl, rfl⟩
  · rintro ⟨p, rest, rfl, rfl⟩
    have haccept : separatorOffset (p.keyRun ++ p.separator :: rest)
        (p.key.map toAsciiLowercase) = some p.keyRun.length :=
      Iff.mpr separatorOffset_eq_some_iff ⟨p.key, p.gap, p.separator, rest, rfl,
        (sensitiveKeys_lowercase _ p.key_sensitive).symm, p.gap_blank, p.separator_ok, rfl⟩
    -- another key cannot accept the input: keys differ in their first letter
    have hother : ∀ key ∈ sensitiveKeys, ∀ offset,
        separatorOffset (p.keyRun ++ p.separator :: rest) key = some offset →
        key = p.key.map toAsciiLowercase := by
      intro key hkey offset h
      obtain ⟨front, gap, byte, rest', heq, hfront, -⟩ := Iff.mp separatorOffset_eq_some_iff h
      rw [sensitiveKeys_lowercase key hkey] at hfront
      apply sensitiveKeys_head key hkey _ p.key_sensitive
      have hne : front ≠ [] := by
        rintro rfl
        exact sensitiveKeys_ne_nil key hkey (by simpa using hfront.symm)
      have hhead := congrArg List.head? heq
      simp only [AssignmentPrefix.keyRun, List.append_assoc,
        List.head?_append_of_ne_nil _ hne,
        List.head?_append_of_ne_nil _ p.key_sensitive.ne_nil] at hhead
      rw [← hfront, List.head?_map, List.head?_map, hhead]
    cases hfind : sensitiveKeys.findSome?
        (separatorOffset (p.keyRun ++ p.separator :: rest)) with
    | none =>
        rw [List.findSome?_eq_none_iff] at hfind
        rw [hfind _ p.key_sensitive] at haccept
        cases haccept
    | some offset =>
        obtain ⟨key, hkey, h⟩ := List.exists_of_findSome?_eq_some hfind
        rw [hother key hkey offset h, haccept] at h
        exact h.symm

theorem sensitiveAssignmentPrefix_eq_some_iff {value : Bytes} {n : Nat} :
    sensitiveAssignmentPrefix value = some n ↔
      ∃ (p : AssignmentPrefix) (rest : Bytes), value = p.text ++ rest ∧ StartsUnblank rest ∧
        n = p.text.length := by
  unfold sensitiveAssignmentPrefix
  constructor
  · intro h
    obtain ⟨offset, hsep, rfl⟩ := Option.map_eq_some_iff.mp h
    obtain ⟨p, rest, rfl, rfl⟩ := Iff.mp sensitiveSeparator_eq_some_iff hsep
    obtain ⟨margin, rest, rfl, hmargin, hrest, hlen⟩ := blank_split rest
    refine ⟨{ p with margin, margin_blank := hmargin }, rest, ?_, hrest, ?_⟩
    · simp [AssignmentPrefix.text, AssignmentPrefix.keyRun]
    · have hdrop : (p.keyRun ++ p.separator :: (margin ++ rest)).drop (p.keyRun.length + 1) =
          margin ++ rest := by
        rw [← List.drop_drop, List.drop_left]; rfl
      rw [hdrop, ← hlen]
      simp [AssignmentPrefix.text, AssignmentPrefix.keyRun]
      omega
  · rintro ⟨p, rest, rfl, hrest, rfl⟩
    have hsep : sensitiveSeparator (p.text ++ rest) = some p.keyRun.length :=
      Iff.mpr sensitiveSeparator_eq_some_iff ⟨p, p.margin ++ rest, by
        simp [AssignmentPrefix.text], rfl⟩
    have hdrop : (p.text ++ rest).drop (p.keyRun.length + 1) = p.margin ++ rest := by
      rw [AssignmentPrefix.text, List.append_assoc, ← List.drop_drop, List.drop_left]; rfl
    rw [hsep, Option.map_some, hdrop, whitespaceLen_append p.margin_blank hrest]
    simp [AssignmentPrefix.text]
    omega

/-- The separator of a sensitive assignment is the one that its parts name. -/
theorem sensitiveSeparator_keyRun (p : AssignmentPrefix) (rest : Bytes) :
    sensitiveSeparator (p.keyRun ++ p.separator :: rest) = some p.keyRun.length :=
  Iff.mpr sensitiveSeparator_eq_some_iff ⟨p, rest, rfl, rfl⟩

/-- A key run is cut off from its sensitivity when the separator is missing. -/
theorem sensitiveSeparator_keyRun_none (p : AssignmentPrefix) :
    sensitiveSeparator p.keyRun = none := by
  cases hsep : sensitiveSeparator p.keyRun with
  | none => rfl
  | some offset =>
      obtain ⟨q, rest, heq, rfl⟩ := Iff.mp sensitiveSeparator_eq_some_iff hsep
      have hwhole := sensitiveSeparator_keyRun p []
      rw [heq, List.append_assoc, List.cons_append, sensitiveSeparator_keyRun q] at hwhole
      have hlen := Option.some.inj hwhole
      simp at hlen

/-- A byte that may belong to a key. -/
def isKeyByte (byte : UInt8) : Bool := !isAsciiWhitespace byte && !isSeparator byte

/-- The key is the longest run of key bytes at the front. -/
theorem takeWhile_keyRun {key gap : Bytes} {separator : UInt8} (rest : Bytes)
    (hkey : ∀ byte ∈ key, isAsciiWhitespace byte = false ∧ isSeparator byte = false)
    (hgap : IsBlank gap) (hsep : isSeparator separator = true) :
    (key ++ gap ++ separator :: rest).takeWhile isKeyByte = key := by
  rw [List.append_assoc, List.takeWhile_append_of_pos]
  · cases gap with
    | nil => simp [isKeyByte, hsep]
    | cons byte gap => simp [isKeyByte, hgap byte (by simp)]
  · intro byte hbyte
    simp [isKeyByte, hkey byte hbyte]

/-- No sensitive assignment starts inside the key run of another one. -/
theorem sensitiveSeparator_inside_none (p : AssignmentPrefix) (rest : Bytes) {n : Nat}
    (hpos : 0 < n) :
    sensitiveSeparator (p.keyRun.drop n ++ p.separator :: rest) = none := by
  cases hsep : sensitiveSeparator (p.keyRun.drop n ++ p.separator :: rest) with
  | none => rfl
  | some offset =>
      obtain ⟨q, rest', heq, -⟩ := Iff.mp sensitiveSeparator_eq_some_iff hsep
      have hq := takeWhile_keyRun rest' q.key_sensitive.letters q.gap_blank q.separator_ok
      have hp : (p.keyRun.drop n ++ p.separator :: rest).takeWhile isKeyByte = p.key.drop n := by
        rw [AssignmentPrefix.keyRun, List.drop_append]
        apply takeWhile_keyRun _ _ _ p.separator_ok
        · exact fun byte hbyte => p.key_sensitive.letters byte (List.mem_of_mem_drop hbyte)
        · exact fun byte hbyte => p.gap_blank byte (List.mem_of_mem_drop hbyte)
      have hkey : q.key = p.key.drop n := by rw [← hq, ← hp, heq]; rfl
      have hsens := q.key_sensitive
      rw [IsSensitiveKey, hkey, List.map_drop] at hsens
      exact absurd hsens (sensitiveKeys_suffix _ p.key_sensitive n hpos)

/-- A text whose first byte is no letter is not a sensitive assignment. -/
theorem sensitiveSeparator_letterless {byte : UInt8} {rest : Bytes}
    (h : ¬ ((97 : UInt8) ≤ toAsciiLowercase byte ∧ toAsciiLowercase byte ≤ 122)) :
    sensitiveSeparator (byte :: rest) = none := by
  cases hsep : sensitiveSeparator (byte :: rest) with
  | none => rfl
  | some offset =>
      obtain ⟨p, rest', heq, -⟩ := Iff.mp sensitiveSeparator_eq_some_iff hsep
      obtain ⟨first, key, hkey⟩ := List.exists_cons_of_ne_nil p.key_sensitive.ne_nil
      rw [AssignmentPrefix.keyRun, hkey] at heq
      have hmem : byte ∈ p.key := by
        rw [hkey, (List.cons.inj heq).1]
        exact List.mem_cons_self
      exact absurd (sensitiveKeys_letters _ p.key_sensitive _ (List.mem_map_of_mem hmem)) h

/-- A blank is no letter. -/
theorem not_letter_of_blank {byte : UInt8} (h : isAsciiWhitespace byte = true) :
    ¬ ((97 : UInt8) ≤ toAsciiLowercase byte ∧ toAsciiLowercase byte ≤ 122) := by
  intro hletter
  rw [(letter_of_lowercase hletter).1] at h
  cases h

/-- A separator is no letter. -/
theorem not_letter_of_separator {byte : UInt8} (h : isSeparator byte = true) :
    ¬ ((97 : UInt8) ≤ toAsciiLowercase byte ∧ toAsciiLowercase byte ≤ 122) := by
  intro hletter
  rw [(letter_of_lowercase hletter).2] at h
  cases h

/-- No sensitive assignment starts inside the prefix of another one. -/
theorem AssignmentPrefix.text_drop_ne (q : AssignmentPrefix) (n : Nat) (hpos : 0 < n)
    (p : AssignmentPrefix) (rest : Bytes) : q.text.drop n ≠ p.text ++ rest := by
  intro heq
  have hsep : sensitiveSeparator (q.text.drop n) = some p.keyRun.length := by
    rw [heq, AssignmentPrefix.text, List.append_assoc]
    exact sensitiveSeparator_keyRun p _
  rcases Nat.lt_or_ge q.keyRun.length n with hlt | hge
  · rw [AssignmentPrefix.text, List.drop_append,
      List.drop_eq_nil_of_le hlt.le, List.nil_append] at hsep
    obtain ⟨k, hk⟩ := Nat.exists_eq_add_of_lt hlt
    rw [show n - q.keyRun.length = k + 1 by omega, List.drop_succ_cons] at hsep
    cases hmargin : q.margin.drop k with
    | nil => rw [hmargin] at hsep; cases hsep
    | cons byte margin =>
        have hblank := q.margin_blank byte (List.mem_of_mem_drop (hmargin ▸ List.mem_cons_self))
        rw [hmargin, sensitiveSeparator_letterless (not_letter_of_blank hblank)] at hsep
        cases hsep
  · rw [AssignmentPrefix.text, List.drop_append_of_le_length hge,
      sensitiveSeparator_inside_none q _ hpos] at hsep
    cases hsep

theorem sensitiveAssignmentPrefix_eq_none_iff {value : Bytes} :
    sensitiveAssignmentPrefix value = none ↔ sensitiveSeparator value = none := by
  simp [sensitiveAssignmentPrefix]

end EasyDeploy.Retention
