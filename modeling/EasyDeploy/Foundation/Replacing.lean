import EasyDeploy.Foundation.Trimming

/-!
# Texts with other parts

Replacing each occurrence of a text by another one, and the words of a text that
blanks separate.
-/

namespace EasyDeploy.Foundation

/-- `skip` characters belong to an occurrence that was replaced. -/
def replaceFrom (pattern replacement : List Char) : Nat → List Char → List Char
  | _, [] => []
  | skip + 1, _ :: rest => replaceFrom pattern replacement skip rest
  | 0, char :: rest =>
      if pattern.isPrefixOf (char :: rest) then
        replacement ++ replaceFrom pattern replacement (pattern.length - 1) rest
      else
        char :: replaceFrom pattern replacement 0 rest

/-- `str::replace`, from a text that is not empty. -/
def replaceText (pattern replacement text : List Char) : List Char :=
  replaceFrom pattern replacement 0 text

/-- `str::split_whitespace`. -/
def splitWhitespace (text : List Char) : List (List Char) :=
  (text.splitOnP isWhitespace).filter (· ≠ [])

/-- The words with a blank between them. -/
def joinWords : List (List Char) → List Char
  | [] => []
  | [word] => word
  | word :: rest => word ++ ' ' :: joinWords rest

section Replacing

variable {pattern replacement : List Char}

theorem replaceFrom_drop (skip : Nat) (text : List Char) :
    replaceFrom pattern replacement skip text =
      replaceText pattern replacement (text.drop skip) := by
  induction skip generalizing text with
  | zero => rfl
  | succ skip ih =>
      cases text with
      | nil => rfl
      | cons char rest => exact ih rest

theorem replaceText_occurrence (h : pattern ≠ []) (rest : List Char) :
    replaceText pattern replacement (pattern ++ rest) =
      replacement ++ replaceText pattern replacement rest := by
  obtain ⟨first, others, rfl⟩ := List.exists_cons_of_ne_nil h
  have hfront : (first :: others).isPrefixOf (first :: (others ++ rest)) = true :=
    List.isPrefixOf_iff_prefix.mpr (List.prefix_append (first :: others) rest)
  rw [replaceText, List.cons_append, replaceFrom, if_pos hfront, replaceFrom_drop]
  congr 2
  exact List.drop_left

theorem replaceText_cons {char : Char} {rest : List Char} (h : ¬pattern <+: char :: rest) :
    replaceText pattern replacement (char :: rest) =
      char :: replaceText pattern replacement rest := by
  rw [replaceText, replaceFrom, if_neg (mt List.isPrefixOf_iff_prefix.mp h)]
  rfl

/-- A text begins with an occurrence, or its first character is kept. -/
theorem replaceText_induction (motive : List Char → List Char → Prop) (h : pattern ≠ [])
    (nil : motive [] [])
    (keep : ∀ char rest, ¬pattern <+: char :: rest →
      motive rest (replaceText pattern replacement rest) →
      motive (char :: rest) (char :: replaceText pattern replacement rest))
    (occurrence : ∀ rest, motive rest (replaceText pattern replacement rest) →
      motive (pattern ++ rest) (replacement ++ replaceText pattern replacement rest))
    (text : List Char) : motive text (replaceText pattern replacement text) := by
  induction hlength : text.length using Nat.strong_induction_on generalizing text with
  | _ length ih =>
      cases text with
      | nil => exact nil
      | cons char rest =>
          by_cases hfront : pattern <+: char :: rest
          · obtain ⟨behind, hbehind⟩ := hfront
            have hpositive := List.length_pos_of_ne_nil h
            have hshorter : behind.length < length := by
              rw [← hlength, ← hbehind, List.length_append]
              omega
            rw [← hbehind, replaceText_occurrence h]
            exact occurrence behind (ih _ hshorter behind rfl)
          · have hshorter : rest.length < length := by
              rw [← hlength, List.length_cons]
              omega
            rw [replaceText_cons hfront]
            exact keep char rest hfront (ih _ hshorter rest rfl)

theorem mem_replaceText {text : List Char} (h : pattern ≠ []) {char : Char}
    (hchar : char ∈ replaceText pattern replacement text) : char ∈ text ∨ char ∈ replacement := by
  revert hchar
  refine replaceText_induction
    (fun text out => char ∈ out → char ∈ text ∨ char ∈ replacement) h ?_ ?_ ?_ text
  · exact fun hchar => absurd hchar List.not_mem_nil
  · intro first rest _ ih hchar
    rcases List.mem_cons.mp hchar with heq | hlater
    · exact Or.inl (List.mem_cons.mpr (Or.inl heq))
    · exact (ih hlater).imp_left (List.mem_cons_of_mem _)
  · intro rest ih hchar
    rcases List.mem_append.mp hchar with hnew | hlater
    · exact Or.inr hnew
    · exact (ih hlater).imp_left (List.mem_append_right _)

theorem replaceText_ne_nil {text : List Char} (h : pattern ≠ []) (hreplacement : replacement ≠ [])
    (htext : text ≠ []) : replaceText pattern replacement text ≠ [] := by
  revert htext
  refine replaceText_induction (fun text out => text ≠ [] → out ≠ []) h ?_ ?_ ?_ text
  · exact fun htext => htext
  · exact fun char rest _ _ _ => List.cons_ne_nil _ _
  · exact fun rest _ _ => List.append_ne_nil_of_left_ne_nil hreplacement _

/-- The characters at the end stay that neither text ends in. -/
theorem rtakeWhile_replaceText {p : Char → Bool} {init newInit : List Char} {last newLast : Char}
    (hlast : p last = false) (hnew : p newLast = false) (text : List Char) :
    (replaceText (init ++ [last]) (newInit ++ [newLast]) text).rtakeWhile p =
      text.rtakeWhile p := by
  have hne : init ++ [last] ≠ [] := List.append_ne_nil_of_right_ne_nil _ (by simp)
  refine (replaceText_induction (fun text out => out.rtakeWhile p = text.rtakeWhile p ∧
    ((∃ char ∈ out, p char = false) ↔ ∃ char ∈ text, p char = false)) hne ?_ ?_ ?_ text).1
  · exact ⟨rfl, Iff.rfl⟩
  · intro first rest _ ih
    constructor
    · by_cases hall : ∃ char ∈ rest, p char = false
      · rw [rtakeWhile_cons_of_exists hall, rtakeWhile_cons_of_exists (ih.2.mpr hall), ih.1]
      · have hself : ∀ {text : List Char}, (¬∃ char ∈ text, p char = false) →
            text.rtakeWhile p = text := by
          intro text hnone
          apply List.rtakeWhile_eq_self_iff.mpr
          intro char hchar
          exact Bool.not_eq_false _ ▸ fun hfalse => hnone ⟨char, hchar, hfalse⟩
        have hsame := ih.1
        rw [hself hall, hself (mt ih.2.mp hall)] at hsame
        rw [hsame]
    · simp only [List.mem_cons, exists_eq_or_imp, ih.2]
  · intro rest ih
    rw [List.append_assoc, List.append_assoc, List.singleton_append, List.singleton_append,
      rtakeWhile_append_cons hlast, rtakeWhile_append_cons hnew]
    refine ⟨ih.1, ?_⟩
    constructor
    · exact fun _ => ⟨last, List.mem_append_right _ List.mem_cons_self, hlast⟩
    · exact fun _ => ⟨newLast, List.mem_append_right _ List.mem_cons_self, hnew⟩

end Replacing

section Words

theorem splitWhitespace_append_blank {blank : Char} (h : isWhitespace blank = true)
    (before text : List Char) :
    splitWhitespace (before ++ blank :: text) = splitWhitespace before ++ splitWhitespace text := by
  rw [splitWhitespace, List.splitOnP_append_cons before text h, List.filter_append]
  rfl

/-- A text that is not empty and has no blanks. -/
def IsWord (word : List Char) : Prop := word ≠ [] ∧ ∀ char ∈ word, isWhitespace char = false

theorem splitWhitespace_word {word : List Char} (h : IsWord word) :
    splitWhitespace word = [word] := by
  rw [splitWhitespace, List.splitOnP_eq_singleton h.2, List.filter_cons_of_pos (by simpa using h.1),
    List.filter_nil]

theorem isWord_of_mem_splitWhitespace {text word : List Char} (h : word ∈ splitWhitespace text) :
    IsWord word := by
  obtain ⟨hpart, hne⟩ := List.mem_filter.mp h
  exact ⟨of_decide_eq_true hne, not_of_mem_splitOnP hpart⟩

/-- The parts of a split text are made of its characters. -/
theorem mem_of_mem_splitOnP {p : Char → Bool} {text part : List Char}
    (h : part ∈ text.splitOnP p) {char : Char} (hchar : char ∈ part) : char ∈ text := by
  induction text generalizing part with
  | nil =>
      rw [List.splitOnP_nil, List.mem_singleton] at h
      rw [h] at hchar
      exact absurd hchar List.not_mem_nil
  | cons first rest ih =>
      rw [List.splitOnP_cons_eq_if_modifyHead] at h
      obtain ⟨part', others, hparts⟩ := List.exists_cons_of_ne_nil (List.splitOnP_ne_nil p rest)
      rw [hparts] at h ih
      split at h
      · rcases List.mem_cons.mp h with heq | hlater
        · rw [heq] at hchar
          exact absurd hchar List.not_mem_nil
        · exact List.mem_cons_of_mem _ (ih hlater hchar)
      · rw [List.modifyHead_cons] at h
        rcases List.mem_cons.mp h with heq | hlater
        · rw [heq] at hchar
          exact List.mem_cons.mpr ((List.mem_cons.mp hchar).imp_right (ih List.mem_cons_self))
        · exact List.mem_cons_of_mem _ (ih (List.mem_cons_of_mem _ hlater) hchar)

theorem mem_of_mem_splitWhitespace {text word : List Char} (h : word ∈ splitWhitespace text)
    {char : Char} (hchar : char ∈ word) : char ∈ text :=
  mem_of_mem_splitOnP (List.mem_filter.mp h).1 hchar

/-- A text that does not end in a blank ends in its last word. -/
theorem last_word {text : List Char} {last : Char} (hlast : text.getLast? = some last)
    (hword : isWhitespace last = false) : ∃ before word, text = before ++ word ∧
      splitWhitespace text = splitWhitespace before ++ [word] ∧
      (before = [] ∨ ∃ front blank, before = front ++ [blank] ∧ isWhitespace blank = true) := by
  obtain ⟨before, word, hsplit, hword, hend⟩ : ∃ before word, before ++ word = text ∧ IsWord word ∧
      ∀ hne : before ≠ [], isWhitespace (before.getLast hne) = true := by
    refine ⟨text.rdropWhile fun char => !isWhitespace char,
      text.rtakeWhile fun char => !isWhitespace char, List.rdropWhile_append_rtakeWhile,
      ⟨?_, fun char hchar => ?_⟩, fun hne => ?_⟩
    · obtain ⟨init, rfl⟩ := List.getLast?_eq_some_iff.mp hlast
      rw [List.rtakeWhile_concat_pos _ _ _ (by rw [hword]; rfl)]
      exact List.append_ne_nil_of_right_ne_nil _ (by simp)
    · have hkept := List.mem_rtakeWhile_imp hchar
      exact (Bool.not_eq_true' _).mp hkept
    · simpa using List.rdropWhile_last_not _ _ hne
  refine ⟨before, word, hsplit.symm, ?_⟩
  cases before using List.reverseRecOn with
  | nil =>
      rw [← hsplit, List.nil_append, splitWhitespace_word hword]
      exact ⟨rfl, Or.inl rfl⟩
  | append_singleton front blank =>
      have hblank : isWhitespace blank = true := by
        have hlast := hend (List.append_ne_nil_of_right_ne_nil front (by simp))
        rwa [List.getLast_append_singleton] at hlast
      have hempty : splitWhitespace [] = [] := rfl
      rw [← hsplit, List.append_assoc, List.singleton_append, splitWhitespace_append_blank hblank,
        splitWhitespace_append_blank hblank, splitWhitespace_word hword, hempty, List.append_nil]
      exact ⟨rfl, Or.inr ⟨front, blank, rfl, hblank⟩⟩

theorem splitWhitespace_dropWhile (text : List Char) :
    splitWhitespace (text.dropWhile isWhitespace) = splitWhitespace text := by
  induction text with
  | nil => rfl
  | cons char rest ih =>
      by_cases hblank : isWhitespace char = true
      · rw [List.dropWhile_cons_of_pos hblank, ih]
        exact (splitWhitespace_append_blank hblank [] rest).symm
      · rw [List.dropWhile_cons_of_neg hblank]

theorem splitWhitespace_rdropWhile (text : List Char) :
    splitWhitespace (text.rdropWhile isWhitespace) = splitWhitespace text := by
  induction text using List.reverseRecOn with
  | nil => rfl
  | append_singleton init char ih =>
      by_cases hblank : isWhitespace char = true
      · rw [List.rdropWhile_concat_pos _ _ _ hblank, ih, splitWhitespace_append_blank hblank init []]
        exact (List.append_nil _).symm
      · rw [List.rdropWhile_concat_neg _ _ _ hblank]

/-- Blanks at the ends separate nothing. -/
theorem splitWhitespace_trim (text : String) :
    splitWhitespace (trim text).toList = splitWhitespace text.toList := by
  rw [toList_trim, splitWhitespace_rdropWhile, splitWhitespace_dropWhile]

theorem joinWords_cons_cons (word next : List Char) (rest : List (List Char)) :
    joinWords (word :: next :: rest) = word ++ ' ' :: joinWords (next :: rest) := rfl

theorem mem_joinWords {words : List (List Char)} {char : Char} (h : char ∈ joinWords words) :
    char = ' ' ∨ ∃ word ∈ words, char ∈ word := by
  induction words with
  | nil => exact absurd h List.not_mem_nil
  | cons word rest ih =>
      cases rest with
      | nil => exact Or.inr ⟨word, List.mem_cons_self, h⟩
      | cons next rest =>
          rw [joinWords_cons_cons] at h
          rcases List.mem_append.mp h with hword | hlater
          · exact Or.inr ⟨word, List.mem_cons_self, hword⟩
          · rcases List.mem_cons.mp hlater with hblank | hlater
            · exact Or.inl hblank
            · refine (ih hlater).imp_right fun hmem => ?_
              obtain ⟨other, hother, hchar⟩ := hmem
              exact ⟨other, List.mem_cons_of_mem _ hother, hchar⟩

theorem joinWords_concat (words : List (List Char)) (last : List Char) :
    ∃ before, joinWords (words ++ [last]) = before ++ last ∧
      (before = [] ∨ ∃ front, before = front ++ [' ']) := by
  induction words with
  | nil => exact ⟨[], rfl, Or.inl rfl⟩
  | cons word rest ih =>
      obtain ⟨before, hbefore, hend⟩ := ih
      have hjoin : joinWords (word :: (rest ++ [last])) =
          word ++ ' ' :: joinWords (rest ++ [last]) := by
        cases rest <;> rfl
      refine ⟨word ++ ' ' :: before, ?_, Or.inr ?_⟩
      · rw [List.cons_append, hjoin, hbefore, List.append_assoc, List.cons_append]
      · rcases hend with rfl | ⟨front, rfl⟩
        · exact ⟨word, rfl⟩
        · exact ⟨word ++ ' ' :: front, by rw [List.append_assoc, List.cons_append]⟩

theorem head?_joinWords {word : List Char} (h : word ≠ []) (rest : List (List Char)) :
    (joinWords (word :: rest)).head? = word.head? := by
  cases rest with
  | nil => rfl
  | cons next rest => rw [joinWords_cons_cons, List.head?_append_of_ne_nil _ h]

/-- Words with blanks between them have none at the ends. -/
theorem trim_joinWords {words : List (List Char)} (h : ∀ word ∈ words, IsWord word) :
    trim (String.ofList (joinWords words)) = String.ofList (joinWords words) := by
  rw [trim_eq_self_iff, String.toList_ofList]
  constructor
  · intro char hchar
    cases words with
    | nil => cases hchar
    | cons word rest =>
        have hword := h word List.mem_cons_self
        rw [head?_joinWords hword.1] at hchar
        exact hword.2 char (List.mem_of_mem_head? hchar)
  · intro char hchar
    cases words using List.reverseRecOn with
    | nil => cases hchar
    | append_singleton words last =>
        have hword := h last (List.mem_append_right words List.mem_cons_self)
        obtain ⟨before, hbefore, -⟩ := joinWords_concat words last
        rw [hbefore, List.getLast?_append_of_ne_nil _ hword.1] at hchar
        exact hword.2 char (List.mem_of_getLast? hchar)

theorem joinWords_eq_nil {words : List (List Char)} (h : ∀ word ∈ words, IsWord word) :
    joinWords words = [] ↔ words = [] := by
  constructor
  · intro hnil
    cases words with
    | nil => rfl
    | cons word rest =>
        have hword := h word List.mem_cons_self
        have hhead := head?_joinWords hword.1 rest
        rw [hnil] at hhead
        exact absurd (List.head?_eq_none_iff.mp hhead.symm) hword.1
  · rintro rfl
    rfl

end Words

end EasyDeploy.Foundation
