import EasyDeploy.Foundation.Sequences

/-!
# Trimmed texts

Texts are often compared after the blanks at their ends have been dropped, and a
text of blanks counts as empty.
-/

namespace EasyDeploy.Foundation

/-- Nothing is left of the text. -/
def Blank (text : String) : Prop := trim text = ""

instance (text : String) : Decidable (Blank text) := inferInstanceAs (Decidable (_ = _))

theorem toList_trim (text : String) :
    (trim text).toList = (text.toList.dropWhile isWhitespace).rdropWhile isWhitespace :=
  String.toList_ofList

/-- Behind the first drop the text begins with no blank, and it does so still without its end. -/
theorem trim_trim (text : String) : trim (trim text) = trim text := by
  have hstart : ((text.toList.dropWhile isWhitespace).rdropWhile isWhitespace).dropWhile
      isWhitespace = (text.toList.dropWhile isWhitespace).rdropWhile isWhitespace := by
    apply List.dropWhile_eq_self_iff.mpr
    intro hlength
    obtain ⟨rest, hrest⟩ := List.rdropWhile_prefix isWhitespace (text.toList.dropWhile isWhitespace)
    have hlong : 0 < (text.toList.dropWhile isWhitespace).length := by
      rw [← hrest, List.length_append]
      omega
    have hfirst := List.dropWhile_get_zero_not isWhitespace text.toList hlong
    have hsame := List.IsPrefix.getElem ⟨rest, hrest⟩ hlength
    rw [hsame]
    exact hfirst
  have hlist : (trim (trim text)).toList = (trim text).toList := by
    rw [toList_trim, toList_trim, hstart, List.rdropWhile_idempotent]
  exact String.toList_inj.mp hlist

theorem blank_trim {text : String} : Blank (trim text) ↔ Blank text := by
  rw [Blank, Blank, trim_trim]

@[simp] theorem trim_empty : trim "" = "" := rfl

/-- A line end is one of the blanks. -/
theorem trim_newline (text : String) : trim (text ++ "\n") = trim text := by
  have hlist : (text ++ "\n").toList = text.toList ++ ['\n'] := String.toList_append
  apply String.toList_inj.mp
  rw [toList_trim, toList_trim, hlist, List.dropWhile_append]
  split
  · rename_i hnone
    rw [List.isEmpty_iff.mp hnone]
    rfl
  · exact List.rdropWhile_concat_pos isWhitespace _ _ rfl

/-- A text without blanks at its ends. -/
theorem trim_eq_self_iff {text : String} : trim text = text ↔
    (∀ char ∈ text.toList.head?, isWhitespace char = false) ∧
      ∀ char ∈ text.toList.getLast?, isWhitespace char = false := by
  constructor
  · intro h
    have hlist := (toList_trim text).symm.trans (congrArg String.toList h)
    obtain ⟨blanks, hblanks⟩ := List.rdropWhile_prefix isWhitespace
      (text.toList.dropWhile isWhitespace)
    rw [hlist] at hblanks
    constructor
    · intro char hchar
      have hfirst := List.head?_dropWhile_not isWhitespace text.toList
      have hhead : (text.toList ++ blanks).head? = some char := by
        rw [List.head?_append, Option.mem_def.mp hchar]
        rfl
      rw [← hblanks, hhead] at hfirst
      exact hfirst
    · intro char hchar
      obtain ⟨init, hinit⟩ := List.getLast?_eq_some_iff.mp hchar
      have hsame : (init ++ [char]).rdropWhile isWhitespace = init ++ [char] := by
        rw [← hinit, ← hlist, List.rdropWhile_idempotent]
      have hlast := List.rdropWhile_eq_self_iff.mp hsame
        (List.append_ne_nil_of_right_ne_nil _ (by simp))
      rw [List.getLast_append_singleton] at hlast
      exact Bool.eq_false_iff.mpr hlast
  · intro h
    have hdrop : text.toList.dropWhile isWhitespace = text.toList := by
      cases hlist : text.toList with
      | nil => rfl
      | cons char rest =>
          rw [List.dropWhile_cons, h.1 char (by rw [hlist]; rfl)]
          rfl
    apply String.toList_inj.mp
    rw [toList_trim, hdrop]
    apply List.rdropWhile_eq_self_iff.mpr
    intro hne
    exact ne_of_eq_of_ne (h.2 _ (List.getLast?_eq_getLast_of_ne_nil hne)) Bool.false_ne_true

/-- What is before the last character that does not belong does not count. -/
theorem rtakeWhile_append_cons {p : Char → Bool} {char : Char} (h : p char = false)
    (before text : List Char) : (before ++ char :: text).rtakeWhile p = text.rtakeWhile p := by
  induction text using List.reverseRecOn with
  | nil =>
      have hchar : ¬p char = true := ne_of_eq_of_ne h Bool.false_ne_true
      rw [List.rtakeWhile_concat_neg _ _ _ hchar, List.rtakeWhile_nil]
  | append_singleton text last ih =>
      have happend : before ++ char :: (text ++ [last]) = (before ++ char :: text) ++ [last] := by
        simp
      rw [happend]
      by_cases hlast : p last = true
      · rw [List.rtakeWhile_concat_pos _ _ _ hlast, List.rtakeWhile_concat_pos _ _ _ hlast, ih]
      · rw [List.rtakeWhile_concat_neg _ _ _ hlast, List.rtakeWhile_concat_neg _ _ _ hlast]

/-- A character in front counts only if all others do. -/
theorem rtakeWhile_cons_of_exists {p : Char → Bool} {text : List Char}
    (h : ∃ char ∈ text, p char = false) (first : Char) :
    (first :: text).rtakeWhile p = text.rtakeWhile p := by
  obtain ⟨char, hchar, hp⟩ := h
  obtain ⟨before, behind, rfl⟩ := List.append_of_mem hchar
  rw [rtakeWhile_append_cons hp before, ← List.cons_append, rtakeWhile_append_cons hp]

/-- What is before a separator and behind it. -/
theorem takeWhile_append_separator {separator : Char} {before : List Char} (h : separator ∉ before)
    (behind : List Char) :
    (before ++ separator :: behind).takeWhile (· != separator) = before ∧
      (before ++ separator :: behind).dropWhile (· != separator) = separator :: behind := by
  have hkept : ∀ char ∈ before, (char != separator) = true := by
    intro char hchar
    apply bne_iff_ne.mpr
    rintro rfl
    exact h hchar
  rw [List.takeWhile_append_of_pos hkept, List.dropWhile_append_of_pos hkept]
  simp

/-- No part has a character that the text is split at. -/
theorem not_of_mem_splitOnP {p : Char → Bool} {text part : List Char} (h : part ∈ text.splitOnP p) :
    ∀ char ∈ part, p char = false := by
  induction text generalizing part with
  | nil =>
      rw [List.splitOnP_nil, List.mem_singleton] at h
      rw [h]
      exact fun char hchar => absurd hchar List.not_mem_nil
  | cons first rest ih =>
      rw [List.splitOnP_cons_eq_if_modifyHead] at h
      split at h
      · rcases List.mem_cons.mp h with heq | hlater
        · rw [heq]
          exact fun char hchar => absurd hchar List.not_mem_nil
        · exact ih hlater
      · rename_i hfirst
        obtain ⟨part', others, hparts⟩ := List.exists_cons_of_ne_nil (List.splitOnP_ne_nil p rest)
        rw [hparts, List.modifyHead_cons] at h
        rcases List.mem_cons.mp h with heq | hlater
        · rw [heq]
          have hpart' : part' ∈ rest.splitOnP p := by
            rw [hparts]
            exact List.mem_cons_self
          exact List.forall_mem_cons.mpr ⟨Bool.eq_false_iff.mpr hfirst, ih hpart'⟩
        · apply ih
          rw [hparts]
          exact List.mem_cons_of_mem _ hlater

end EasyDeploy.Foundation
