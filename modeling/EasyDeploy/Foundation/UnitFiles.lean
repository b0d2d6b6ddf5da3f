import EasyDeploy.Foundation.Replacing

/-!
# Unit files of systemd

A unit file has a section or a directive on each line. A line that ends in a
backslash goes on in the next one, where the backslash counts as a blank. Blanks
around a line, a key or a value do not count, and comments are skipped. A command
is read as words.
-/

namespace EasyDeploy.Foundation.UnitFile

/-- What a line of a unit file holds. -/
inductive Item
  | heading (name : List Char)
  | directive (key value : List Char)
  | unreadable
deriving Repr, DecidableEq

/-- What ends a line. -/
def isLineEnd (char : Char) : Bool := char == '\n' || char == '\r' || char == '\x00'

/-- Blanks, which lines are stripped of. -/
def isBlank (char : Char) : Bool := char == ' ' || char == '\t' || char == '\n' || char == '\r'

/-- A line without blanks around it. -/
def strip (text : List Char) : List Char := (text.dropWhile isBlank).rdropWhile isBlank

/-- The backslash at the end is not one that another backslash escapes. -/
def endsEscaped (line : List Char) : Bool := (line.rtakeWhile (· == '\\')).length % 2 == 1

/-- A line that is skipped. -/
def isComment (line : List Char) : Bool := line.head? == some '#' || line.head? == some ';'

/-- The lines with the ones that they go on in. A comment does not end such a line. -/
def joinLines (begun : List Char) : List (List Char) → List (List Char)
  | [] => [begun]
  | line :: rest =>
      let line := line.dropWhile isBlank
      if isComment line then joinLines begun rest
      else if endsEscaped (begun ++ line) then joinLines ((begun ++ line).dropLast ++ [' ']) rest
      else (begun ++ line) :: joinLines [] rest

/-- The item of a line. -/
def item? (line : List Char) : Option Item :=
  let line := line.dropWhile isBlank
  let key := strip (line.takeWhile (· != '='))
  if line = [] then none
  else if line.head? = some '[' then
    if (strip line).getLast? = some ']' then some (.heading (strip line).tail.dropLast)
    else some .unreadable
  else if '=' ∈ line ∧ key ≠ [] then
    some (.directive key (strip (line.dropWhile (· != '=')).tail))
  else
    some .unreadable

/-- The items of a unit file. -/
def read (text : List Char) : List Item := (joinLines [] (text.splitOnP isLineEnd)).filterMap item?

/-- Blanks between the words of a command. -/
def isSeparator (char : Char) : Bool := char == ' ' || char == '\t'

/-- Quotes, between which blanks belong to a word. -/
def isQuote (char : Char) : Bool := char == '"' || char == '\''

/-- The words of a command from inside a quoted part and a word that has begun, perhaps. -/
def wordsFrom : Option Char → Option (List Char) → List Char → Option (List (List Char))
  | none, word, [] => some word.toList
  | some _, _, [] => none
  | none, word, char :: rest =>
      if isSeparator char then (wordsFrom none none rest).map (word.toList ++ ·)
      else if isQuote char then wordsFrom (some char) (some (word.getD [])) rest
      else wordsFrom none (some (word.getD [] ++ [char])) rest
  | some quote, word, char :: rest =>
      if char = quote then wordsFrom none word rest
      else wordsFrom (some quote) (some (word.getD [] ++ [char])) rest

/-- The words of a command without escapes: blanks and tabs separate them, and quotes keep what is
between them together. -/
def commandWords (text : List Char) : Option (List (List Char)) := wordsFrom none none text

/-- Lines as a text. -/
def render (lines : List (List Char)) : List Char := lines.flatMap fun line => line ++ ['\n']

/-- A text without line ends. -/
def OnOneLine (text : List Char) : Prop := ∀ char ∈ text, isLineEnd char = false

instance (text : List Char) : Decidable (OnOneLine text) := List.decidableBAll _ _

theorem OnOneLine.append {text rest : List Char} (h : OnOneLine text) (hrest : OnOneLine rest) :
    OnOneLine (text ++ rest) := by
  intro char hchar
  rcases List.mem_append.mp hchar with hfirst | hlater
  · exact h char hfirst
  · exact hrest char hlater

theorem OnOneLine.of_subset {text rest : List Char} (h : OnOneLine rest) (hsub : text ⊆ rest) :
    OnOneLine text :=
  fun char hchar => h char (hsub hchar)

theorem endsEscaped_append_cons {char : Char} (h : char ≠ '\\') (before text : List Char) :
    endsEscaped (before ++ char :: text) = endsEscaped text := by
  have hchar : (char == '\\') = false := beq_eq_false_iff_ne.mpr h
  rw [endsEscaped, @rtakeWhile_append_cons (· == '\\') char hchar, endsEscaped]

theorem endsEscaped_concat {char : Char} (h : char ≠ '\\') (before : List Char) :
    endsEscaped (before ++ [char]) = false :=
  endsEscaped_append_cons h before []

theorem endsEscaped_of_not_mem {text : List Char} (h : '\\' ∉ text) : endsEscaped text = false := by
  cases text using List.reverseRecOn with
  | nil => rfl
  | append_singleton before last =>
      refine endsEscaped_concat ?_ before
      rintro rfl
      exact h (List.mem_append_right before List.mem_cons_self)

/-- A line that stands on its own. -/
structure Whole (line : List Char) : Prop where
  on_one_line : OnOneLine line
  not_escaped : endsEscaped line = false
  starts : line.dropWhile isBlank = line ∧ isComment line = false

theorem splitOnP_render {lines : List (List Char)} (h : ∀ line ∈ lines, OnOneLine line)
    (rest : List Char) :
    (render lines ++ rest).splitOnP isLineEnd = lines ++ rest.splitOnP isLineEnd := by
  induction lines with
  | nil => rfl
  | cons line lines ih =>
      have happend : render (line :: lines) ++ rest = line ++ '\n' :: (render lines ++ rest) := by
        simp [render]
      rw [happend,
        List.splitOnP_append_cons_of_forall_mem (h line List.mem_cons_self) '\n' rfl,
        ih fun other hother => h other (List.mem_cons_of_mem _ hother), List.cons_append]

theorem joinLines_cons {line : List Char} (h : Whole line) (rest : List (List Char)) :
    joinLines [] (line :: rest) = line :: joinLines [] rest := by
  rw [joinLines, h.starts.1, h.starts.2, List.nil_append, h.not_escaped]
  rfl

theorem joinLines_append {lines : List (List Char)} (h : ∀ line ∈ lines, Whole line)
    (rest : List (List Char)) : joinLines [] (lines ++ rest) = lines ++ joinLines [] rest := by
  induction lines with
  | nil => rfl
  | cons line lines ih =>
      rw [List.cons_append, joinLines_cons (h line List.mem_cons_self),
        ih fun other hother => h other (List.mem_cons_of_mem _ hother), List.cons_append]

/-- Lines that stand on their own are read one by one. -/
theorem read_render {lines : List (List Char)} (h : ∀ line ∈ lines, Whole line) :
    read (render lines) = lines.filterMap item? := by
  have hsplit := splitOnP_render (fun line hline => (h line hline).on_one_line) []
  rw [List.append_nil] at hsplit
  rw [read, hsplit, joinLines_append h, List.filterMap_append]
  exact List.append_nil _

/-- A line that goes on takes the next one from its place. -/
theorem read_render_escaped {before after : List (List Char)} {line next : List Char}
    (hbefore : ∀ other ∈ before, Whole other) (hline : OnOneLine line)
    (hstart : line.dropWhile isBlank = line ∧ isComment line = false)
    (hescaped : endsEscaped line = true) (hnext : Whole next)
    (hafter : ∀ other ∈ after, Whole other) :
    read (render (before ++ line :: next :: after)) =
      (before ++ (line.dropLast ++ [' '] ++ next) :: after).filterMap item? := by
  have hone : ∀ other ∈ before ++ line :: next :: after, OnOneLine other := by
    intro other hother
    rcases List.mem_append.mp hother with hfirst | hlater
    · exact (hbefore other hfirst).on_one_line
    · rcases List.mem_cons.mp hlater with heq | hlater
      · rw [heq]
        exact hline
      · rcases List.mem_cons.mp hlater with heq | hlater
        · rw [heq]
          exact hnext.on_one_line
        · exact (hafter other hlater).on_one_line
  have hjoined : endsEscaped (line.dropLast ++ [' '] ++ next) = false := by
    rw [List.append_assoc, List.singleton_append, endsEscaped_append_cons (by decide)]
    exact hnext.not_escaped
  have hsplit := splitOnP_render hone []
  rw [List.append_nil] at hsplit
  have hjoin : joinLines [] (line :: next :: (after ++ [[]])) =
      (line.dropLast ++ [' '] ++ next) :: (after ++ [[], []]) := by
    rw [joinLines, hstart.1, hstart.2, List.nil_append, hescaped]
    show joinLines (line.dropLast ++ [' ']) (next :: (after ++ [[]])) = _
    rw [joinLines, hnext.starts.1, hnext.starts.2, hjoined]
    show _ :: joinLines [] (after ++ [[]]) = _
    rw [joinLines_append hafter]
    rfl
  rw [read, hsplit, List.append_assoc, joinLines_append hbefore, List.cons_append,
    List.cons_append, List.splitOnP_nil, hjoin, List.filterMap_append, List.filterMap_append,
    List.filterMap_cons, List.filterMap_cons, List.filterMap_append]
  have hends : ([[], []] : List (List Char)).filterMap item? = [] := rfl
  rw [hends, List.append_nil]

theorem strip_subset (text : List Char) : strip text ⊆ text := fun _ hchar =>
  (List.dropWhile_suffix isBlank).subset ((List.rdropWhile_prefix isBlank _).subset hchar)

/-- A text without blanks at its ends. -/
theorem strip_eq_self {text : List Char} (hhead : ∀ char ∈ text.head?, isBlank char = false)
    (hlast : ∀ char ∈ text.getLast?, isBlank char = false) : strip text = text := by
  have hdrop : text.dropWhile isBlank = text := by
    cases text with
    | nil => rfl
    | cons char rest => rw [List.dropWhile_cons, hhead char rfl]; rfl
  rw [strip, hdrop]
  cases text using List.reverseRecOn with
  | nil => rfl
  | append_singleton before last =>
      have hblank := hlast last (List.getLast?_concat ..)
      exact List.rdropWhile_concat_neg isBlank _ _ (ne_of_eq_of_ne hblank Bool.false_ne_true)

/-- The characters of keys. -/
def isKeyChar (char : Char) : Bool :=
  !(isLineEnd char || isBlank char || ['=', '[', '#', ';'].contains char)

/-- A name that a directive can have. -/
def IsKey (key : List Char) : Prop := key ≠ [] ∧ key.all isKeyChar = true

instance (key : List Char) : Decidable (IsKey key) := inferInstanceAs (Decidable (_ ∧ _))

section Keys

variable {key : List Char}

theorem IsKey.char (h : IsKey key) {char : Char} (hchar : char ∈ key) :
    isLineEnd char = false ∧ isBlank char = false ∧ char ≠ '=' ∧ char ≠ '[' ∧ char ≠ '#' ∧
      char ≠ ';' := by
  have hkey := List.all_eq_true.mp h.2 char hchar
  simp only [isKeyChar, Bool.not_eq_true', Bool.or_eq_false_iff, List.contains_eq_mem,
    decide_eq_false_iff_not, List.mem_cons, List.not_mem_nil, or_false, not_or] at hkey
  exact ⟨hkey.1.1, hkey.1.2, hkey.2.1, hkey.2.2.1, hkey.2.2.2.1, hkey.2.2.2.2⟩

theorem IsKey.starts (h : IsKey key) (rest : List Char) :
    (key ++ rest).dropWhile isBlank = key ++ rest ∧ isComment (key ++ rest) = false ∧
      (key ++ rest).head? ≠ some '[' := by
  cases key with
  | nil => exact absurd rfl h.1
  | cons first name =>
      obtain ⟨-, hblank, -, hbracket, hhash, hsemicolon⟩ := h.char List.mem_cons_self
      refine ⟨?_, ?_, fun hhead => hbracket (Option.some.inj hhead)⟩
      · rw [List.cons_append, List.dropWhile_cons, hblank]
        rfl
      · simp [isComment, hhash, hsemicolon]

theorem item?_directive (h : IsKey key) (value : List Char) :
    item? (key ++ '=' :: value) = some (.directive key (strip value)) := by
  obtain ⟨hdrop, -, hbracket⟩ := h.starts ('=' :: value)
  obtain ⟨htake, hvalue⟩ := takeWhile_append_separator
    (fun hmem => (h.char hmem).2.2.1 rfl : '=' ∉ key) value
  have hkey : strip key = key := by
    apply strip_eq_self
    · exact fun char hchar => (h.char (List.mem_of_mem_head? hchar)).2.1
    · exact fun char hchar => (h.char (List.mem_of_getLast? hchar)).2.1
  have hnonempty : key ++ '=' :: value ≠ [] := List.append_ne_nil_of_right_ne_nil _ (by simp)
  have hequals : '=' ∈ key ++ '=' :: value := List.mem_append_right _ List.mem_cons_self
  rw [item?, hdrop, htake, hkey, hvalue]
  rw [if_neg hnonempty, if_neg hbracket, if_pos ⟨hequals, h.1⟩, List.tail_cons]

theorem IsKey.onOneLine (h : IsKey key) : OnOneLine key := fun _ hchar => (h.char hchar).1

theorem whole_directive (h : IsKey key) {value : List Char} (hvalue : OnOneLine value)
    (hescaped : endsEscaped value = false) : Whole (key ++ '=' :: value) := by
  obtain ⟨hdrop, hcomment, -⟩ := h.starts ('=' :: value)
  refine ⟨h.onOneLine.append ?_, ?_, hdrop, hcomment⟩
  · exact List.forall_mem_cons.mpr ⟨rfl, hvalue⟩
  · rw [endsEscaped_append_cons (by decide), hescaped]

end Keys

theorem item?_heading (name : List Char) :
    item? ('[' :: name ++ [']']) = some (.heading name) := by
  have hdrop : ('[' :: name ++ [']']).dropWhile isBlank = '[' :: name ++ [']'] := rfl
  have hstrip : strip ('[' :: name ++ [']']) = '[' :: name ++ [']'] := by
    apply strip_eq_self
    · exact fun char hchar => Option.some.inj hchar ▸ rfl
    · intro char hchar
      rw [List.getLast?_concat] at hchar
      exact Option.some.inj hchar ▸ rfl
  have hfirst : ('[' :: name ++ [']']).head? = some '[' := rfl
  have htail : ('[' :: name ++ [']']).tail = name ++ [']'] := rfl
  rw [item?, hdrop, hstrip, if_neg (by simp), if_pos hfirst, List.getLast?_concat, if_pos rfl,
    htail, List.dropLast_concat]

theorem whole_heading {name : List Char} (h : IsKey name) : Whole ('[' :: name ++ [']']) := by
  refine ⟨?_, endsEscaped_concat (by decide) _, rfl, rfl⟩
  rw [List.cons_append]
  exact List.forall_mem_cons.mpr ⟨rfl, h.onOneLine.append (by decide)⟩

/-- A line that is written. -/
inductive Entry
  | empty
  | heading (name : List Char)
  | directive (key value : List Char)
deriving Repr, DecidableEq

/-- Its text. -/
def Entry.line : Entry → List Char
  | .empty => []
  | .heading name => '[' :: name ++ [']']
  | .directive key value => key ++ '=' :: value

/-- What the entry is meant to say. -/
def Entry.item? : Entry → Option Item
  | .empty => none
  | .heading name => some (.heading name)
  | .directive key value => some (.directive key (strip value))

/-- The key of an entry is one. -/
def Entry.HasKey : Entry → Prop
  | .empty => True
  | .heading name => IsKey name
  | .directive key _ => IsKey key

/-- A value that stays on the line of its key. -/
def Fits (value : List Char) : Prop := OnOneLine value ∧ endsEscaped value = false

instance (value : List Char) : Decidable (Fits value) := inferInstanceAs (Decidable (_ ∧ _))

/-- An entry takes one line. -/
def Entry.Fits : Entry → Prop
  | .directive _ value => UnitFile.Fits value
  | _ => True

/-- A text of characters of which none ends or escapes a line. -/
theorem fits_of_all {p : Char → Bool}
    (hp : ['\n', '\r', '\x00', '\\'].all (fun char => !p char) = true) {text : List Char}
    (h : ∀ char ∈ text, p char = true) : Fits text := by
  have hnone : ∀ char ∈ text, char ∉ ['\n', '\r', '\x00', '\\'] := by
    intro char hchar hmem
    have hnot := List.all_eq_true.mp hp char hmem
    rw [h char hchar] at hnot
    exact Bool.false_ne_true hnot
  refine ⟨fun char hchar => ?_, endsEscaped_of_not_mem fun hmem => ?_⟩
  · have hchar := hnone char hchar
    simp only [List.mem_cons, List.not_mem_nil, or_false, not_or] at hchar
    simp [isLineEnd, hchar]
  · exact hnone _ hmem (by decide)

theorem Entry.item?_line {entry : Entry} (h : entry.HasKey) :
    UnitFile.item? entry.line = entry.item? := by
  cases entry with
  | empty => rfl
  | heading name => exact item?_heading name
  | directive key value => exact item?_directive h value

theorem Entry.whole_line {entry : Entry} (h : entry.HasKey) (hfits : entry.Fits) :
    Whole entry.line := by
  cases entry with
  | empty => exact ⟨by decide, rfl, rfl, rfl⟩
  | heading name => exact whole_heading h
  | directive key value => exact whole_directive h hfits.1 hfits.2

/-- The file says what its entries are meant to say. -/
theorem read_entries {entries : List Entry} (hkeys : ∀ entry ∈ entries, entry.HasKey)
    (hfits : ∀ entry ∈ entries, entry.Fits) :
    read (render (entries.map Entry.line)) = entries.filterMap Entry.item? := by
  have hwhole : ∀ line ∈ entries.map Entry.line, Whole line := by
    intro line hline
    obtain ⟨entry, hentry, rfl⟩ := List.mem_map.mp hline
    exact entry.whole_line (hkeys entry hentry) (hfits entry hentry)
  rw [read_render hwhole, List.filterMap_map]
  exact List.filterMap_congr fun entry hentry => entry.item?_line (hkeys entry hentry)

/-- A value that escapes its line end takes the next entry with it. -/
theorem read_entries_escaped {before after : List Entry} {key value : List Char} {next : Entry}
    (hkeys : ∀ entry ∈ before ++ .directive key value :: next :: after, entry.HasKey)
    (hfits : ∀ entry ∈ before ++ next :: after, entry.Fits) (hvalue : OnOneLine value)
    (hescaped : endsEscaped value = true) :
    ∃ item, read (render ((before ++ .directive key value :: next :: after).map Entry.line)) =
      before.filterMap Entry.item? ++ (item ++ after.filterMap Entry.item?) ∧ item.length ≤ 1 := by
  have hkey : IsKey key := hkeys _ (List.mem_append_right before List.mem_cons_self)
  have hwhole : ∀ entry ∈ before ++ next :: after, Whole entry.line := by
    intro entry hentry
    refine entry.whole_line (hkeys entry ?_) (hfits entry hentry)
    rcases List.mem_append.mp hentry with hfirst | hlater
    · exact List.mem_append_left _ hfirst
    · exact List.mem_append_right before (List.mem_cons_of_mem _ hlater)
  have hbefore : ∀ line ∈ before.map Entry.line, Whole line :=
    List.forall_mem_map.mpr fun entry hentry => hwhole entry (List.mem_append_left _ hentry)
  have hafter : ∀ line ∈ after.map Entry.line, Whole line :=
    List.forall_mem_map.mpr fun entry hentry =>
      hwhole entry (List.mem_append_right before (List.mem_cons_of_mem _ hentry))
  have hnext := hwhole next (List.mem_append_right before List.mem_cons_self)
  obtain ⟨hdrop, hcomment, -⟩ := hkey.starts ('=' :: value)
  have hline : OnOneLine (key ++ '=' :: value) :=
    hkey.onOneLine.append (List.forall_mem_cons.mpr ⟨rfl, hvalue⟩)
  have hread := read_render_escaped hbefore hline ⟨hdrop, hcomment⟩
    ((endsEscaped_append_cons (by decide) key value).trans hescaped) hnext hafter
  have hitems : ∀ {entries : List Entry}, (∀ entry ∈ entries, entry.HasKey) →
      (entries.map Entry.line).filterMap UnitFile.item? = entries.filterMap Entry.item? := by
    intro entries hall
    rw [List.filterMap_map]
    exact List.filterMap_congr fun entry hentry => entry.item?_line (hall entry hentry)
  have hcons : ∀ line lines, (line :: lines).filterMap UnitFile.item? =
      (UnitFile.item? line).toList ++ lines.filterMap UnitFile.item? := by
    intro line lines
    rw [List.filterMap_cons]
    cases UnitFile.item? line <;> rfl
  refine ⟨((UnitFile.item? ((key ++ '=' :: value).dropLast ++ [' '] ++ next.line)).toList), ?_, ?_⟩
  · rw [List.map_append, List.map_cons, List.map_cons]
    refine hread.trans ?_
    rw [List.filterMap_append, hcons,
      hitems fun entry hentry => hkeys entry (List.mem_append_left _ hentry),
      hitems fun entry hentry => hkeys entry (List.mem_append_right before
        (List.mem_cons_of_mem _ (List.mem_cons_of_mem _ hentry)))]
  · exact Option.length_toList_le

theorem onOneLine_joinLines {lines : List (List Char)} (h : ∀ line ∈ lines, OnOneLine line)
    {begun : List Char} (hbegun : OnOneLine begun) {line : List Char}
    (hline : line ∈ joinLines begun lines) : OnOneLine line := by
  induction lines generalizing begun with
  | nil =>
      rw [joinLines, List.mem_singleton] at hline
      rw [hline]
      exact hbegun
  | cons first rest ih =>
      have hrest : ∀ line ∈ rest, OnOneLine line :=
        fun other hother => h other (List.mem_cons_of_mem _ hother)
      have hfirst : OnOneLine (first.dropWhile isBlank) :=
        (h first List.mem_cons_self).of_subset (List.dropWhile_suffix isBlank).subset
      have hboth := hbegun.append hfirst
      have hblank : OnOneLine [' '] := by decide
      rw [joinLines] at hline
      by_cases hcomment : isComment (first.dropWhile isBlank) = true
      · rw [if_pos hcomment] at hline
        exact ih hrest hbegun hline
      · rw [if_neg hcomment] at hline
        by_cases hescaped : endsEscaped (begun ++ first.dropWhile isBlank) = true
        · rw [if_pos hescaped] at hline
          have hcut := hboth.of_subset (List.dropLast_prefix _).subset
          exact ih hrest (hcut.append hblank) hline
        · rw [if_neg hescaped] at hline
          rcases List.mem_cons.mp hline with heq | hlater
          · rw [heq]
            exact hboth
          · exact ih hrest (fun char hchar => absurd hchar List.not_mem_nil) hlater

/-- No value that is read has a line end. -/
theorem onOneLine_of_mem_read {text key value : List Char}
    (h : .directive key value ∈ read text) : OnOneLine value := by
  obtain ⟨line, hline, hitem⟩ := List.mem_filterMap.mp h
  have hone := onOneLine_joinLines (fun other hother => not_of_mem_splitOnP hother)
    (fun char hchar => absurd hchar List.not_mem_nil) hline
  rw [item?] at hitem
  by_cases hempty : line.dropWhile isBlank = []
  · rw [if_pos hempty] at hitem
    cases hitem
  rw [if_neg hempty] at hitem
  by_cases hheading : (line.dropWhile isBlank).head? = some '['
  · rw [if_pos hheading] at hitem
    split at hitem <;> cases hitem
  rw [if_neg hheading] at hitem
  split at hitem
  · cases hitem
    apply hone.of_subset
    intro char hchar
    have htail := List.mem_of_mem_tail (strip_subset _ hchar)
    exact (List.dropWhile_suffix isBlank).subset ((List.dropWhile_suffix _).subset htail)
  · cases hitem

/-- A text without quotes and escapes in which every blank separates words. -/
def PlainWords (text : List Char) : Prop :=
  ∀ char ∈ text, char ≠ '\\' ∧ isQuote char = false ∧
    (isWhitespace char = true → isSeparator char = true)

instance (text : List Char) : Decidable (PlainWords text) := List.decidableBAll _ _

theorem isWhitespace_of_isSeparator {char : Char} (h : isSeparator char = true) :
    isWhitespace char = true := by
  rw [isSeparator, Bool.or_eq_true, beq_iff_eq, beq_iff_eq] at h
  rcases h with rfl | rfl <;> decide

/-- The words are read from the parts between the blanks; the first part goes on with the word that
has begun. -/
theorem wordsFrom_plain {text : List Char} (h : PlainWords text) :
    commandWords text = some (splitWhitespace text) ∧
    ∀ word first others, text.splitOnP isWhitespace = first :: others →
      wordsFrom none (some word) text = some ((word ++ first) :: others.filter (· ≠ [])) := by
  induction text with
  | nil =>
      refine ⟨rfl, fun word first others hsplit => ?_⟩
      rw [List.splitOnP_nil] at hsplit
      obtain ⟨rfl, rfl⟩ := List.cons.inj hsplit
      rw [wordsFrom, List.append_nil]
      rfl
  | cons char rest ih =>
      obtain ⟨⟨-, hquote, hblank⟩, hrest⟩ := List.forall_mem_cons.mp h
      obtain ⟨hwords, hbegun⟩ := ih hrest
      obtain ⟨first, others, hparts⟩ := List.exists_cons_of_ne_nil
        (List.splitOnP_ne_nil isWhitespace rest)
      rw [commandWords] at hwords ⊢
      rw [splitWhitespace, List.splitOnP_cons_eq_if_modifyHead]
      by_cases hseparator : isSeparator char = true
      · have hspace := isWhitespace_of_isSeparator hseparator
        rw [if_pos hspace]
        constructor
        · rw [wordsFrom, if_pos hseparator, hwords]
          rfl
        · intro word first' others' hsplit
          obtain ⟨rfl, rfl⟩ := List.cons.inj hsplit
          rw [wordsFrom, if_pos hseparator, hwords, List.append_nil]
          rfl
      · have hword : isWhitespace char = false := by
          rw [← Bool.not_eq_true]
          exact fun hspace => hseparator (hblank hspace)
        rw [hword, if_neg Bool.false_ne_true, hparts, List.modifyHead_cons]
        constructor
        · rw [wordsFrom, if_neg hseparator, if_neg (by rw [hquote]; decide),
            hbegun _ first others hparts, List.filter_cons_of_pos (by simp)]
          rfl
        · intro word first' others' hsplit
          obtain ⟨rfl, rfl⟩ := List.cons.inj hsplit
          rw [wordsFrom, if_neg hseparator, if_neg (by rw [hquote]; decide),
            hbegun _ first others hparts, Option.getD_some, List.append_assoc]
          rfl

theorem commandWords_plain {text : List Char} (h : PlainWords text) :
    commandWords text = some (splitWhitespace text) := (wordsFrom_plain h).1

/-- Behind a whole command and a blank the words of the rest follow. -/
theorem wordsFrom_append {quote : Option Char} {word : Option (List Char)} {text : List Char}
    {words : List (List Char)} (h : wordsFrom quote word text = some words) (rest : List Char) :
    wordsFrom quote word (text ++ ' ' :: rest) = (commandWords rest).map (words ++ ·) := by
  induction text generalizing quote word words with
  | nil =>
      cases quote with
      | some quote => cases h
      | none =>
          obtain rfl := Option.some.inj h
          rw [List.nil_append, wordsFrom, if_pos (by decide), commandWords]
  | cons char text ih =>
      cases quote with
      | some quote =>
          rw [wordsFrom] at h
          rw [List.cons_append, wordsFrom]
          split at h
          · rename_i hends
            rw [if_pos hends]
            exact ih h
          · rename_i hinside
            rw [if_neg hinside]
            exact ih h
      | none =>
          rw [wordsFrom] at h
          rw [List.cons_append, wordsFrom]
          split at h
          · rename_i hseparator
            obtain ⟨later, hlater, rfl⟩ := Option.map_eq_some_iff.mp h
            rw [if_pos hseparator, ih hlater, Option.map_map]
            simp only [Function.comp_def, List.append_assoc]
          · rename_i hseparator
            rw [if_neg hseparator]
            split at h
            · rename_i hquote
              rw [if_pos hquote]
              exact ih h
            · rename_i hquote
              rw [if_neg hquote]
              exact ih h

end EasyDeploy.Foundation.UnitFile
