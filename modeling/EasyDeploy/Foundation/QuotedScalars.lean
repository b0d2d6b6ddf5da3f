import Mathlib.Data.List.Basic
import Mathlib.Tactic.Cases

/-!
# Double-quoted scalars of YAML

The body of a scalar is read up to its closing quote. Escapes stand for single
characters, blanks around a line break are dropped, and a line break is folded to a
space unless more line breaks follow.
-/

namespace EasyDeploy.Foundation.Yaml

/-- The characters that a stream may hold. -/
def isAllowed (char : Char) : Bool :=
  let code := char.toNat
  code == 0x09 || code == 0x0A || code == 0x0D || (0x20 ≤ code && code ≤ 0x7E) || code == 0x85 ||
    (0xA0 ≤ code && code ≤ 0xFFFD) || 0x10000 ≤ code

/-- A blank within a line. -/
def isBlank (char : Char) : Bool := char == ' ' || char == '\t'

/-- A line break that is read as a line feed. -/
def isLineFeed (char : Char) : Bool := char == '\n' || char == '\r' || char.toNat == 0x85

/-- A line break that is read as it is: the separators of lines and of paragraphs. -/
def isSeparator (char : Char) : Bool := char.toNat == 0x2028 || char.toNat == 0x2029

/-- The end of a line. -/
def isBreak (char : Char) : Bool := isLineFeed char || isSeparator char

/-- What folding is about. -/
def isSpace (char : Char) : Bool := isBlank char || isBreak char

/-- A number of marks with space behind them. -/
def startsMarked (mark : Char) : Nat → List Char → Bool
  | 0, char :: _ => isSpace char
  | count + 1, char :: rest => char == mark && startsMarked mark count rest
  | _, [] => false

/-- The start of a line that ends a document. -/
def marksDocument (text : List Char) : Bool :=
  startsMarked '-' 3 text || startsMarked '.' 3 text

/-- The space behind the last character that is none: blanks on one line, or line breaks, of which
the first one is missing if it is escaped. -/
inductive Space
  | blanks (kept : List Char)
  | lines (first : Option Char) (more : List Char)
deriving Repr, DecidableEq

/-- What is left of a space when a character follows it. -/
def Space.text : Space → List Char
  | .blanks kept => kept
  | .lines first more =>
      if first = some '\n' then (if more = [] then [' '] else more) else first.toList ++ more

/-- The space with one more blank. -/
def Space.blank (char : Char) : Space → Space
  | .blanks kept => .blanks (kept ++ [char])
  | .lines first more => .lines first more

/-- The space with one more line break. -/
def Space.break (char : Char) : Space → Space
  | .blanks _ => .lines (some (if isSeparator char then char else '\n')) []
  | .lines first more => .lines first (more ++ [if isSeparator char then char else '\n'])

/-- What is in front of the next character. -/
inductive Front
  | line
  | lineBreak
  /-- A carriage return, with which a line feed is one line break. -/
  | carriageReturn
deriving Repr, DecidableEq

/-- What may still belong to a line break. -/
def Front.behindBreak (char : Char) : Front := if char = '\r' then .carriageReturn else .lineBreak

/-- The character that a short escape means. -/
def simpleEscape : Char → Option Char
  | '0' => some (Char.ofNat 0x00)
  | 'a' => some (Char.ofNat 0x07)
  | 'b' => some (Char.ofNat 0x08)
  | 't' | '\t' => some '\t'
  | 'n' => some '\n'
  | 'v' => some (Char.ofNat 0x0B)
  | 'f' => some (Char.ofNat 0x0C)
  | 'r' => some '\r'
  | 'e' => some (Char.ofNat 0x1B)
  | ' ' => some ' '
  | '"' => some '"'
  | '/' => some '/'
  | '\\' => some '\\'
  | 'N' => some (Char.ofNat 0x85)
  | '_' => some (Char.ofNat 0xA0)
  | 'L' => some (Char.ofNat 0x2028)
  | 'P' => some (Char.ofNat 0x2029)
  | _ => none

/-- How many digits an escape has. -/
def hexLength : Char → Option Nat
  | 'x' => some 2
  | 'u' => some 4
  | 'U' => some 8
  | _ => none

/-- The value of a digit. -/
def hexDigit (char : Char) : Option Nat :=
  if char.isDigit then some (char.toNat - '0'.toNat)
  else if 'a' ≤ char ∧ char ≤ 'f' then some (char.toNat - 'a'.toNat + 10)
  else if 'A' ≤ char ∧ char ≤ 'F' then some (char.toNat - 'A'.toNat + 10)
  else none

/-- Where the reader is. -/
inductive Mode
  | text
  | escape
  /-- Digits that are missing, and the value of those before. -/
  | hex (missing value : Nat)
deriving Repr, DecidableEq

/-- Text in front of what is read next. -/
def before (text : List Char) (read : Option (List Char × List Char)) :
    Option (List Char × List Char) :=
  read.map fun parts => (text ++ parts.1, parts.2)

/-- Reads the body of a scalar, with what follows its closing quote. -/
def readQuoted (space : Space) (front : Front) : Mode → List Char →
    Option (List Char × List Char)
  | _, [] => none
  | .hex missing value, char :: rest =>
      match hexDigit char, missing with
      | none, _ => none
      | some digit, missing + 1 =>
          if missing = 0 then
            if (16 * value + digit).isValidChar then
              before [Char.ofNat (16 * value + digit)] (readQuoted (.blanks []) .line .text rest)
            else none
          else readQuoted space front (.hex missing (16 * value + digit)) rest
      | some _, 0 => none
  | .escape, char :: rest =>
      if isBreak char then readQuoted (.lines none []) (.behindBreak char) .text rest
      else match simpleEscape char, hexLength char with
        | some escaped, _ => before [escaped] (readQuoted (.blanks []) .line .text rest)
        | none, some missing => readQuoted (.blanks []) .line (.hex missing 0) rest
        | none, none => none
  | .text, char :: rest =>
      if front ≠ .line ∧ marksDocument (char :: rest) then none
      else if char = '"' then some (space.text, rest)
      else if char = '\\' then before space.text (readQuoted (.blanks []) .line .escape rest)
      else if isBlank char then readQuoted (space.blank char) .line .text rest
      else if isBreak char then
        if char = '\n' ∧ front = .carriageReturn then readQuoted space .lineBreak .text rest
        else readQuoted (space.break char) (.behindBreak char) .text rest
      else before (space.text ++ [char]) (readQuoted (.blanks []) .line .text rest)

/-- A value with its quotes and backslashes escaped. -/
def escape : List Char → List Char
  | [] => []
  | char :: value =>
      if char = '\\' ∨ char = '"' then '\\' :: char :: escape value else char :: escape value

/-- What is read of a value that is escaped so. -/
def folded (space : Space) (front : Front) : List Char → Option (List Char)
  | [] => some space.text
  | char :: value =>
      if front ≠ .line ∧ marksDocument (char :: value) then none
      else if isBlank char then folded (space.blank char) .line value
      else if isBreak char then
        if char = '\n' ∧ front = .carriageReturn then folded space .lineBreak value
        else folded (space.break char) (.behindBreak char) value
      else (folded (.blanks []) .line value).map (space.text ++ [char] ++ ·)

/-- Whether a character is kept behind another: a line feed is kept only behind a separator, where
it is not the first line break. -/
def mayFollow (last char : Char) : Bool :=
  if isBlank char then !isBreak last
  else if isSeparator char then !isBlank last
  else if char = '\n' then isBreak last
  else !isLineFeed char

/-- The values that are read as they are. -/
def isKept (last : Char) : List Char → Bool
  | [] => true
  | char :: value =>
      mayFollow last char && !(isBreak last && marksDocument (char :: value)) && isKept char value

theorem escape_special {char : Char} (h : char = '\\' ∨ char = '"') (value : List Char) :
    escape (char :: value) = '\\' :: char :: escape value := by
  rw [escape, if_pos h]

theorem escape_other {char : Char} (h : ¬(char = '\\' ∨ char = '"')) (value : List Char) :
    escape (char :: value) = char :: escape value := by
  rw [escape, if_neg h]

theorem isSpace_special {char : Char} (h : char = '\\' ∨ char = '"') : isSpace char = false := by
  rcases h with rfl | rfl
  · decide
  · decide

theorem startsMarked_escape {mark : Char} (hmark : ¬(mark = '\\' ∨ mark = '"')) (count : Nat)
    (value rest : List Char) :
    startsMarked mark count (escape value ++ '"' :: rest) = startsMarked mark count value := by
  have hother : ∀ {char : Char}, char = '\\' ∨ char = '"' → (char == mark) = false := by
    intro char hchar
    rw [beq_eq_false_iff_ne]
    rintro rfl
    exact hmark hchar
  induction count generalizing value with
  | zero =>
      cases value with
      | nil => rfl
      | cons char value =>
          by_cases hchar : char = '\\' ∨ char = '"'
          · rw [escape_special hchar, startsMarked, isSpace_special hchar]
            rfl
          · rw [escape_other hchar]
            rfl
  | succ count ih =>
      cases value with
      | nil =>
          rw [escape, List.nil_append, startsMarked, startsMarked, hother (.inr rfl),
            Bool.false_and]
      | cons char value =>
          by_cases hchar : char = '\\' ∨ char = '"'
          · rw [escape_special hchar, List.cons_append, startsMarked, startsMarked,
              hother (.inl rfl), hother hchar, Bool.false_and, Bool.false_and]
          · rw [escape_other hchar, List.cons_append, startsMarked, startsMarked, ih]

theorem marksDocument_escape (value rest : List Char) :
    marksDocument (escape value ++ '"' :: rest) = marksDocument value := by
  rw [marksDocument, marksDocument, startsMarked_escape (by decide),
    startsMarked_escape (by decide)]

theorem marksDocument_of_head {char : Char} (rest : List Char) (h : char = '\\' ∨ char = '"') :
    marksDocument (char :: rest) = false := by
  rcases h with rfl | rfl
  · rfl
  · rfl

theorem isBlank_special {char : Char} (h : char = '\\' ∨ char = '"') :
    isBlank char = false ∧ isBreak char = false := by
  rw [← Bool.or_eq_false_iff]
  exact isSpace_special h

/-- An escaped value is read up to its closing quote. -/
theorem readQuoted_escape (space : Space) (front : Front) (value rest : List Char) :
    readQuoted space front .text (escape value ++ '"' :: rest) =
      (folded space front value).map fun text => (text, rest) := by
  induction value generalizing space front with
  | nil =>
      have hmarks := marksDocument_of_head rest (.inr rfl)
      simp only [escape, List.nil_append, readQuoted, folded, hmarks, if_true, Option.map_some,
        Bool.false_eq_true, and_false, if_false]
  | cons char value ih =>
      have hmarks := marksDocument_escape (char :: value) rest
      by_cases hchar : char = '\\' ∨ char = '"'
      · obtain ⟨hblank, hbreak⟩ := isBlank_special hchar
        have hescape : simpleEscape char = some char := by
          rcases hchar with rfl | rfl
          · rfl
          · rfl
        have hvalue := marksDocument_of_head value hchar
        rw [escape_special hchar] at hmarks ⊢
        rw [hvalue] at hmarks
        rw [List.cons_append] at hmarks ⊢
        rw [List.cons_append] at hmarks ⊢
        rw [readQuoted, hmarks, folded, hvalue, hblank, hbreak]
        simp only [Bool.false_eq_true, and_false, if_false, if_true, Char.reduceEq]
        rw [readQuoted, hbreak, hescape, if_neg Bool.false_ne_true]
        dsimp only
        rw [ih]
        cases folded (.blanks []) .line value with
        | none => rfl
        | some text => simp only [before, Option.map_some, List.append_assoc]
      · rw [escape_other hchar] at hmarks ⊢
        rw [List.cons_append] at hmarks ⊢
        rw [readQuoted, folded, hmarks]
        rw [not_or] at hchar
        simp only [hchar.1, hchar.2, if_false, ih]
        split
        · rfl
        split
        · rfl
        split
        · split
          · rfl
          · rfl
        · cases folded (.blanks []) .line value with
          | none => rfl
          | some text => rfl

theorem length_blank_le (space : Space) (char : Char) :
    (space.blank char).text.length ≤ space.text.length + 1 := by
  cases space with
  | blanks kept => simp [Space.blank, Space.text]
  | lines first more => exact Nat.le_succ _

theorem length_lines_le (first : Option Char) (more : List Char) (char : Char) :
    (Space.lines first (more ++ [char])).text.length ≤
      (Space.lines first more).text.length + 1 := by
  have hne := List.append_ne_nil_of_right_ne_nil more (List.cons_ne_nil char [])
  simp only [Space.text, if_neg hne]
  by_cases hfirst : first = some '\n'
  · rw [if_pos hfirst, if_pos hfirst, List.length_append, List.length_singleton]
    apply Nat.succ_le_succ
    split
    · rename_i hmore
      rw [hmore]
      exact Nat.zero_le _
    · exact Nat.le_refl _
  · rw [if_neg hfirst, if_neg hfirst, ← List.append_assoc, List.length_append]
    exact Nat.le_refl _

theorem length_break_le (space : Space) (char : Char) :
    (space.break char).text.length ≤ space.text.length + 1 := by
  cases space with
  | blanks kept =>
      refine Nat.le_trans (m := 1) ?_ (Nat.le_add_left 1 _)
      generalize hread : (if isSeparator char then char else '\n') = read
      simp only [Space.break, hread, Space.text]
      split
      · exact Nat.le_refl _
      · exact Nat.le_refl _
  | lines first more => exact length_lines_le first more _

/-- Folding makes nothing longer. -/
theorem length_folded {space : Space} {front : Front} {value text : List Char}
    (h : folded space front value = some text) :
    text.length ≤ space.text.length + value.length := by
  induction value generalizing space front text with
  | nil =>
      obtain rfl := Option.some.inj h
      exact Nat.le_refl _
  | cons char value ih =>
      rw [List.length_cons]
      simp only [folded] at h
      split at h
      · cases h
      split at h
      · have hlength := ih h
        have hblank := length_blank_le space char
        omega
      split at h
      · split at h
        · have hlength := ih h
          omega
        · have hlength := ih h
          have hbreak := length_break_le space char
          omega
      · obtain ⟨rest, hrest, rfl⟩ := Option.map_eq_some_iff.mp h
        have hlength := ih hrest
        simp only [List.length_append, List.length_singleton, Space.text, List.length_nil]
          at hlength ⊢
        omega

/-- A first line feed is lost, or read as a space. -/
theorem folded_lineFeed {more : List Char} {front : Front} {value text : List Char}
    (h : folded (.lines (some '\n') more) front value = some text) :
    text.length ≤ more.length + value.length ∨ text.head? = some ' ' := by
  induction value generalizing more front with
  | nil =>
      obtain rfl := Option.some.inj h
      simp only [Space.text, if_true]
      split
      · exact .inr rfl
      · exact .inl (Nat.le_refl _)
  | cons char value ih =>
      rw [List.length_cons]
      simp only [folded] at h
      split at h
      · cases h
      split at h
      · exact (ih h).imp_left fun hlength => by omega
      split at h
      · split at h
        · exact (ih h).imp_left fun hlength => by omega
        · refine (ih h).imp_left fun hlength => ?_
          rw [List.length_append, List.length_singleton] at hlength
          omega
      · obtain ⟨rest, hrest, rfl⟩ := Option.map_eq_some_iff.mp h
        have hlength := length_folded hrest
        simp only [Space.text, if_true]
        split
        · exact .inr rfl
        · left
          simp only [List.length_append, List.length_singleton, Space.text, List.length_nil]
            at hlength ⊢
          omega

/-- Line breaks behind a separator are read with it. -/
theorem folded_separator {first : Char} {more : List Char} {front : Front} {value text : List Char}
    (hfirst : first ≠ '\n') (h : folded (.lines (some first) more) front value = some text) :
    first :: more <+: text := by
  have hne : some first ≠ some '\n' := fun hsame => hfirst (Option.some.inj hsame)
  induction value generalizing more front text with
  | nil =>
      obtain rfl := Option.some.inj h
      simp only [Space.text, if_neg hne]
      exact List.prefix_refl _
  | cons char value ih =>
      simp only [folded] at h
      split at h
      · cases h
      split at h
      · exact ih h
      split at h
      · split at h
        · exact ih h
        · have hlonger := ih h
          rw [← List.cons_append] at hlonger
          exact (List.prefix_append _ _).trans hlonger
      · obtain ⟨rest, -, rfl⟩ := Option.map_eq_some_iff.mp h
        simp only [Space.text, if_neg hne, List.append_assoc]
        exact List.prefix_append _ _

/-- The space behind a character of a value that has been kept so far. -/
inductive Behind : Char → Space → Front → Prop
  | other {last} (h : isSpace last = false) : Behind last (.blanks []) .line
  | blank {last kept} (h : isBlank last = true) (hkept : kept ≠ []) :
      Behind last (.blanks kept) .line
  | separator {last first more} (hfirst : isSeparator first = true) (h : isBreak last = true) :
      Behind last (.lines (some first) more) .lineBreak

theorem isBreak_of_isBlank {char : Char} (h : isBlank char = true) : isBreak char = false := by
  rw [isBlank, Bool.or_eq_true, beq_iff_eq, beq_iff_eq] at h
  rcases h with rfl | rfl
  · decide
  · decide

theorem isSeparator_ne {char : Char} (h : isSeparator char = true) : char ≠ '\n' ∧ char ≠ '\r' := by
  constructor
  · rintro rfl
    revert h
    decide
  · rintro rfl
    revert h
    decide

theorem Behind.front_iff {last : Char} {space : Space} {front : Front}
    (h : Behind last space front) : front ≠ .line ↔ isBreak last = true := by
  cases h with
  | other h =>
      rw [isSpace, Bool.or_eq_false_iff] at h
      simp [h.2]
  | blank h _ => simp [isBreak_of_isBlank h]
  | separator _ h => simp [h]

section Steps

variable {last char : Char} {space : Space} {front : Front} {value : List Char}

/-- A blank is kept but behind a line break. -/
theorem Behind.blank_step (h : Behind last space front) (hchar : isBlank char = true)
    (hlast : isBreak last = false) :
    Behind char (space.blank char) .line ∧ (space.blank char).text = space.text ++ [char] := by
  cases h with
  | other _ => exact ⟨.blank hchar (List.cons_ne_nil char []), rfl⟩
  | @blank kept _ _ =>
      exact ⟨.blank hchar (List.append_ne_nil_of_right_ne_nil kept (List.cons_ne_nil char [])), rfl⟩
  | separator _ hbreak =>
      rw [hlast] at hbreak
      cases hbreak

theorem Behind.blank_refused (h : Behind last space front) (hlast : isBreak last = true) :
    folded (space.blank char) .line value ≠ some (space.text ++ char :: value) := by
  intro hread
  have hlength := length_folded hread
  rw [List.length_append, List.length_cons] at hlength
  cases h with
  | other hother =>
      rw [isSpace, hlast, Bool.or_true] at hother
      cases hother
  | blank hblank _ =>
      rw [isBreak_of_isBlank hblank] at hlast
      cases hlast
  | separator _ _ =>
      simp only [Space.blank] at hlength
      omega

/-- A separator is kept but behind a blank. -/
theorem Behind.separator_step (h : Behind last space front) (hchar : isSeparator char = true)
    (hlast : isBlank last = false) :
    Behind char (space.break char) .lineBreak ∧ (space.break char).text = space.text ++ [char] := by
  have hbreak : isBreak char = true := by rw [isBreak, hchar, Bool.or_true]
  have hnewline : some char ≠ some '\n' := fun hsame =>
    (isSeparator_ne hchar).1 (Option.some.inj hsame)
  cases h with
  | other _ =>
      simp only [Space.break, Space.text, if_pos hchar, if_neg hnewline]
      exact ⟨.separator hchar hbreak, rfl⟩
  | blank hblank _ =>
      rw [hlast] at hblank
      cases hblank
  | @separator first more hfirst _ =>
      have hne : some first ≠ some '\n' := fun hsame =>
        (isSeparator_ne hfirst).1 (Option.some.inj hsame)
      simp only [Space.break, Space.text, if_pos hchar, if_neg hne]
      exact ⟨.separator hfirst hbreak, (List.append_assoc _ _ _).symm⟩

theorem Behind.separator_refused (h : Behind last space front) (hchar : isSeparator char = true)
    (hlast : isBlank last = true) :
    folded (space.break char) .lineBreak value ≠ some (space.text ++ char :: value) := by
  intro hread
  have hlength := length_folded hread
  have hnewline : some char ≠ some '\n' := fun hsame =>
    (isSeparator_ne hchar).1 (Option.some.inj hsame)
  cases h with
  | other hother =>
      rw [isSpace, hlast, Bool.true_or] at hother
      cases hother
  | @blank kept _ hkept =>
      have hpositive := List.length_pos_iff.mpr hkept
      simp only [Space.break, Space.text, if_pos hchar, if_neg hnewline, List.length_append,
        List.length_cons, Option.toList_some, List.length_nil] at hlength
      omega
  | separator _ hbreak =>
      rw [isBreak_of_isBlank hlast] at hbreak
      cases hbreak

/-- A line feed is kept behind a separator. -/
theorem Behind.lineFeed_step (h : Behind last space front) (hlast : isBreak last = true) :
    Behind '\n' (space.break '\n') .lineBreak ∧
      (space.break '\n').text = space.text ++ ['\n'] := by
  cases h with
  | other hother =>
      rw [isSpace, hlast, Bool.or_true] at hother
      cases hother
  | blank hblank _ =>
      rw [isBreak_of_isBlank hblank] at hlast
      cases hlast
  | @separator first more hfirst _ =>
      have hne : some first ≠ some '\n' := fun hsame =>
        (isSeparator_ne hfirst).1 (Option.some.inj hsame)
      have hfeed : isSeparator '\n' = false := by decide
      simp only [Space.break, Space.text, hfeed, Bool.false_eq_true, if_false, if_neg hne]
      exact ⟨.separator hfirst (by decide), (List.append_assoc _ _ _).symm⟩

/-- Other line breaks are not kept, nor is a line feed that comes first. -/
theorem Behind.lineFeed_refused (h : Behind last space front) (hchar : isLineFeed char = true)
    (hseparator : isSeparator char = false) (hlast : isBreak last = true → char ≠ '\n') :
    folded (space.break char) (.behindBreak char) value ≠ some (space.text ++ char :: value) := by
  intro hread
  have hfirst : ∀ kept : List Char, space = .blanks kept → False := by
    rintro kept rfl
    have hlength := length_folded hread
    simp only [Space.break, Space.text, hseparator, Bool.false_eq_true, if_false, if_true,
      List.length_append, List.length_cons, List.length_nil] at hlength
    obtain rfl : kept = [] := List.length_eq_zero_iff.mp (by omega)
    simp only [Space.break, hseparator, Bool.false_eq_true, if_false] at hread
    rcases folded_lineFeed hread with hshort | hhead
    · simp only [Space.text, List.nil_append, List.length_cons, List.length_nil] at hshort
      omega
    · obtain rfl := Option.some.inj hhead
      exact absurd hchar (by decide)
  cases h with
  | other _ => exact hfirst _ rfl
  | blank _ _ => exact hfirst _ rfl
  | @separator first more hseparates hbreak =>
      have hne : some first ≠ some '\n' := fun hsame =>
        (isSeparator_ne hseparates).1 (Option.some.inj hsame)
      simp only [Space.break, hseparator, Bool.false_eq_true, if_false] at hread
      have hread := folded_separator (isSeparator_ne hseparates).1 hread
      simp only [Space.text, if_neg hne, Option.toList_some, List.cons_append, List.nil_append,
        List.cons_prefix_cons, true_and, List.prefix_append_right_inj] at hread
      exact hlast hbreak hread.1.symm

end Steps

/-- Behind a kept part the rest of a value is read as it is if each character may follow. -/
theorem folded_eq_iff {last : Char} {space : Space} {front : Front} (h : Behind last space front)
    (value : List Char) :
    folded space front value = some (space.text ++ value) ↔ isKept last value = true := by
  induction value generalizing last space front with
  | nil =>
      rw [folded, List.append_nil]
      exact ⟨fun _ => rfl, fun _ => rfl⟩
  | cons char value ih =>
      -- a character that may follow is part of the space in front of the rest
      have hstep : ∀ {next : Space} {nextFront : Front},
          Behind char next nextFront ∧ next.text = space.text ++ [char] →
          (folded next nextFront value = some (space.text ++ char :: value) ↔
            true = true ∧ isKept char value = true) := by
        rintro next nextFront ⟨hnext, htext⟩
        rw [← ih hnext, htext, List.append_assoc, List.singleton_append]
        exact (and_iff_right rfl).symm
      have hrefused : ∀ {read : Option (List Char)}, read ≠ some (space.text ++ char :: value) →
          (read = some (space.text ++ char :: value) ↔
            false = true ∧ isKept char value = true) := fun hne =>
        ⟨fun hread => absurd hread hne, fun hfalse => absurd hfalse.1 Bool.false_ne_true⟩
      rw [folded, isKept]
      by_cases hmarks : front ≠ .line ∧ marksDocument (char :: value) = true
      · rw [if_pos hmarks, h.front_iff.mp hmarks.1, hmarks.2, Bool.and_self, Bool.not_true,
          Bool.and_false, Bool.false_and]
        exact ⟨fun hfalse => (by cases hfalse), fun hfalse => (by cases hfalse)⟩
      have hunmarked : (!(isBreak last && marksDocument (char :: value))) = true := by
        rw [Bool.not_eq_true', Bool.eq_false_iff, ne_eq, Bool.and_eq_true, ← h.front_iff]
        exact hmarks
      rw [if_neg hmarks, hunmarked, Bool.and_true, Bool.and_eq_true, mayFollow]
      by_cases hblank : isBlank char = true
      · rw [if_pos hblank, if_pos hblank]
        cases hlast : isBreak last with
        | false => exact hstep (h.blank_step hblank hlast)
        | true => exact hrefused (h.blank_refused hlast)
      rw [if_neg hblank, if_neg hblank]
      by_cases hbreak : isBreak char = true
      · have hfront : ¬(char = '\n' ∧ front = .carriageReturn) := by
          rintro ⟨-, rfl⟩
          cases h
        rw [if_pos hbreak, if_neg hfront]
        cases hseparator : isSeparator char with
        | true =>
            rw [if_pos rfl, Front.behindBreak, if_neg (isSeparator_ne hseparator).2]
            cases hlast : isBlank last with
            | false => exact hstep (h.separator_step hseparator hlast)
            | true => exact hrefused (h.separator_refused hseparator hlast)
        | false =>
            have hfeed : isLineFeed char = true := by
              rwa [isBreak, hseparator, Bool.or_false] at hbreak
            rw [if_neg Bool.false_ne_true, hfeed]
            by_cases hnewline : char = '\n'
            · subst hnewline
              rw [if_pos rfl]
              cases hlast : isBreak last with
              | true => exact hstep (h.lineFeed_step hlast)
              | false =>
                  refine hrefused (h.lineFeed_refused hfeed hseparator fun hfalse => ?_)
                  rw [hlast] at hfalse
                  cases hfalse
            · rw [if_neg hnewline]
              exact hrefused (h.lineFeed_refused hfeed hseparator fun _ => hnewline)
      · have hbreak' := Bool.eq_false_iff.mpr hbreak
        have hclasses := hbreak'
        rw [isBreak, Bool.or_eq_false_iff] at hclasses
        have hnewline : char ≠ '\n' := by
          rintro rfl
          exact hbreak (by decide)
        have hspace : isSpace char = false := by
          rw [isSpace, Bool.eq_false_iff.mpr hblank, hbreak', Bool.or_self]
        rw [if_neg hbreak, hclasses.2, if_neg Bool.false_ne_true, if_neg hnewline, hclasses.1,
          ← ih (.other hspace), Option.map_eq_some_iff]
        constructor
        · rintro ⟨text, htext, hsame⟩
          rw [List.append_assoc, List.append_cancel_left_eq] at hsame
          obtain rfl : text = value := (List.cons.inj hsame).2
          exact ⟨rfl, htext⟩
        · rintro ⟨-, htext⟩
          exact ⟨value, htext, by simp only [List.append_assoc, List.singleton_append]⟩

end EasyDeploy.Foundation.Yaml
