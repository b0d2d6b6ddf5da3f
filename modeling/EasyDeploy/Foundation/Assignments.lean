import Mathlib.Data.List.Basic

/-!
# Texts of assignments

A text that gives values to names has an assignment on each line, with the name
before the first equals sign. Lines without one and comments are skipped.
-/

namespace EasyDeploy.Foundation

/-- The lines of a text. -/
def lines : List Char → List (List Char)
  | [] => [[]]
  | char :: rest =>
      if char = '\n' then [] :: lines rest
      else ((lines rest).head?.getD []).cons char :: (lines rest).tail

/-- The name and the value of a line. -/
def assignment? (line : List Char) : Option (String × String) :=
  if line.head? = some '#' ∨ '=' ∉ line then none
  else some (String.ofList (line.takeWhile (· != '=')), String.ofList (line.dropWhile (· != '=')).tail)

/-- The names and values of a text. -/
def assignments (text : String) : List (String × String) := (lines text.toList).filterMap assignment?

/-- A line for each entry. -/
def renderAssignments (entries : List (String × String)) : String :=
  String.ofList (entries.flatMap fun entry =>
    entry.1.toList ++ '=' :: (entry.2.toList ++ ['\n']))

/-- A name and a value that can stand on a line of their own. -/
def OnOneLine (entry : String × String) : Prop :=
  '=' ∉ entry.1.toList ∧ '\n' ∉ entry.1.toList ∧ entry.1.toList.head? ≠ some '#' ∧
    '\n' ∉ entry.2.toList

theorem lines_append {line rest : List Char} (h : '\n' ∉ line) :
    lines (line ++ '\n' :: rest) = line :: lines rest := by
  induction line with
  | nil => rw [List.nil_append, lines, if_pos rfl]
  | cons char line ih =>
      rw [List.mem_cons, not_or] at h
      rw [List.cons_append, lines, if_neg (Ne.symm h.1), ih h.2]
      rfl

theorem assignment?_append {name value : List Char} (hname : '=' ∉ name)
    (hcomment : name.head? ≠ some '#') :
    assignment? (name ++ '=' :: value) = some (String.ofList name, String.ofList value) := by
  have hhead : (name ++ '=' :: value).head? ≠ some '#' := by
    cases name with
    | nil => exact fun hfalse => absurd (Option.some.inj hfalse) (by decide)
    | cons char rest => exact hcomment
  have hmem : '=' ∈ name ++ '=' :: value := List.mem_append_right _ List.mem_cons_self
  have hkept : ∀ char ∈ name, (char != '=') = true := by
    intro char hchar
    apply bne_iff_ne.mpr
    rintro rfl
    exact hname hchar
  have htake : (name ++ '=' :: value).takeWhile (· != '=') = name := by
    rw [List.takeWhile_append_of_pos hkept]
    simp
  have hdrop : (name ++ '=' :: value).dropWhile (· != '=') = '=' :: value := by
    rw [List.dropWhile_append_of_pos hkept]
    simp
  rw [assignment?, if_neg (not_or.mpr ⟨hhead, not_not.mpr hmem⟩), htake, hdrop, List.tail_cons]

/-- Reading gives the assignments that were written. -/
theorem assignments_render {entries : List (String × String)}
    (h : ∀ entry ∈ entries, OnOneLine entry) :
    assignments (renderAssignments entries) = entries := by
  rw [assignments, renderAssignments, String.toList_ofList]
  induction entries with
  | nil => rfl
  | cons entry rest ih =>
      obtain ⟨hname, hline, hcomment, hvalue⟩ := h entry List.mem_cons_self
      have hwhole : '\n' ∉ entry.1.toList ++ '=' :: entry.2.toList := by
        rw [List.mem_append, List.mem_cons, not_or, not_or]
        exact ⟨hline, by decide, hvalue⟩
      have hsplit : (entry :: rest).flatMap (fun entry =>
          entry.1.toList ++ '=' :: (entry.2.toList ++ ['\n'])) =
          (entry.1.toList ++ '=' :: entry.2.toList) ++ '\n' :: rest.flatMap fun entry =>
            entry.1.toList ++ '=' :: (entry.2.toList ++ ['\n']) := by
        rw [List.flatMap_cons]
        simp only [List.append_assoc, List.cons_append, List.nil_append]
      rw [hsplit, lines_append hwhole, List.filterMap_cons, assignment?_append hname hcomment,
        ih fun other hother => h other (List.mem_cons_of_mem _ hother), String.ofList_toList,
        String.ofList_toList]

end EasyDeploy.Foundation
