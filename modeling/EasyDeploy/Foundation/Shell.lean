import Mathlib.Data.List.Basic
import Mathlib.Tactic.Cases

/-!
# Command lines of a shell

A shell cuts a line into words, of which single quotes and backslashes take away
the meaning of characters, and runs the commands between `&&` one after another
until one fails. Lines with any other syntax (expansions, patterns, redirections,
comments) have no meaning here.
-/

namespace EasyDeploy.Foundation.Shell

/-- A blank between words. -/
def isBlank (char : Char) : Bool := char == ' ' || char == '\t'

/-- The character stands for itself inside a word. -/
def isLiteral (char : Char) : Bool :=
  !(" \t\n'\"\\&;|<>()$*?[".toList.contains char || char == Char.ofNat 96)

/-- The character stands for itself at the start of a word. -/
def isLiteralFirst (char : Char) : Bool := isLiteral char && char != '#' && char != '~'

/-- A word or what separates commands. -/
inductive Token
  | word (text : String)
  | conjunction
deriving Repr, DecidableEq

/-- What has been read of the current word. -/
inductive Mode
  | blank
  | word (text : List Char)
  | quoted (text : List Char)
  | escaped (text : List Char)
  | ampersand

/-- The tokens of a line; `none` when a quote is not closed. -/
def lex : Mode → List Char → Option (List Token)
  | .blank, [] => some []
  | .word text, [] => some [.word (String.ofList text)]
  | .quoted _, [] => none
  | .escaped _, [] => none
  | .ampersand, [] => none
  | .blank, char :: rest =>
      if isBlank char then lex .blank rest
      else if char = '\'' then lex (.quoted []) rest
      else if char = '\\' then lex (.escaped []) rest
      else if char = '&' then lex .ampersand rest
      else if isLiteralFirst char then lex (.word [char]) rest
      else none
  | .word text, char :: rest =>
      if isBlank char then (lex .blank rest).map (.word (String.ofList text) :: ·)
      else if char = '\'' then lex (.quoted text) rest
      else if char = '\\' then lex (.escaped text) rest
      else if char = '&' then (lex .ampersand rest).map (.word (String.ofList text) :: ·)
      else if isLiteral char then lex (.word (text ++ [char])) rest
      else none
  | .quoted text, char :: rest =>
      if char = '\'' then lex (.word text) rest else lex (.quoted (text ++ [char])) rest
  | .escaped text, char :: rest =>
      if char = '\n' then none else lex (.word (text ++ [char])) rest
  | .ampersand, char :: rest =>
      if char = '&' then (lex .blank rest).map (.conjunction :: ·) else none

/-- In single quotes, with each single quote outside of them behind a backslash. -/
def quote (text : List Char) : List Char :=
  '\'' :: (text.flatMap fun char => if char = '\'' then ['\'', '\\', '\'', '\''] else [char]) ++
    ['\'']

/-- Inside a word, the characters add the value. -/
def Continues (text value : List Char) : Prop :=
  ∀ start rest, lex (.word start) (text ++ rest) = lex (.word (start ++ value)) rest

/-- Between words, the characters begin a word with the value. -/
def Begins (text value : List Char) : Prop :=
  ∀ rest, lex .blank (text ++ rest) = lex (.word value) rest

theorem lex_word_literal {char : Char} (h : isLiteral char = true) (start rest : List Char) :
    lex (.word start) (char :: rest) = lex (.word (start ++ [char])) rest := by
  have hblank : isBlank char = false := by
    rw [← Bool.not_eq_true]
    intro hblank
    rcases Bool.or_eq_true_iff.mp hblank with heq | heq <;> rw [beq_iff_eq.mp heq] at h <;>
      revert h <;> decide
  have hquote : char ≠ '\'' := by
    rintro rfl
    revert h
    decide
  have hescape : char ≠ '\\' := by
    rintro rfl
    revert h
    decide
  have hampersand : char ≠ '&' := by
    rintro rfl
    revert h
    decide
  rw [lex, hblank, if_neg Bool.false_ne_true, if_neg hquote, if_neg hescape, if_neg hampersand,
    if_pos h]

theorem continues_literal {text : List Char} (h : ∀ char ∈ text, isLiteral char = true) :
    Continues text text := by
  induction text with
  | nil =>
      intro start rest
      rw [List.append_nil, List.nil_append]
  | cons char text ih =>
      intro start rest
      rw [List.cons_append, lex_word_literal (h char List.mem_cons_self),
        ih (fun other hother => h other (List.mem_cons_of_mem _ hother)), List.append_assoc,
        List.singleton_append]

theorem Continues.append {first second firstValue secondValue : List Char}
    (hfirst : Continues first firstValue) (hsecond : Continues second secondValue) :
    Continues (first ++ second) (firstValue ++ secondValue) := by
  intro start rest
  rw [List.append_assoc, hfirst, hsecond, List.append_assoc]

theorem Begins.append {first second firstValue secondValue : List Char}
    (hfirst : Begins first firstValue) (hsecond : Continues second secondValue) :
    Begins (first ++ second) (firstValue ++ secondValue) := by
  intro rest
  rw [List.append_assoc, hfirst, hsecond]

theorem begins_literal {char : Char} {text : List Char} (hfirst : isLiteralFirst char = true)
    (h : ∀ other ∈ text, isLiteral other = true) : Begins (char :: text) (char :: text) := by
  have hliteral : isLiteral char = true := by
    rw [isLiteralFirst, Bool.and_eq_true, Bool.and_eq_true] at hfirst
    exact hfirst.1.1
  intro rest
  have hword := lex_word_literal hliteral [] (text ++ rest)
  have hblank : lex .blank (char :: (text ++ rest)) = lex (.word [char]) (text ++ rest) := by
    have hnot (other : Char) (hother : isLiteral other = false) : char ≠ other := by
      rintro rfl
      rw [hliteral] at hother
      cases hother
    have hisBlank : isBlank char = false := by
      rw [isBlank, Bool.or_eq_false_iff, beq_eq_false_iff_ne, beq_eq_false_iff_ne]
      exact ⟨hnot _ (by decide), hnot _ (by decide)⟩
    rw [lex, hisBlank, if_neg Bool.false_ne_true, if_neg (hnot _ (by decide)),
      if_neg (hnot _ (by decide)), if_neg (hnot _ (by decide)), if_pos hfirst]
  rw [List.cons_append, hblank, continues_literal h]
  rfl

theorem lex_quoted (text start rest : List Char) :
    lex (.quoted start)
      ((text.flatMap fun char => if char = '\'' then ['\'', '\\', '\'', '\''] else [char]) ++
        '\'' :: rest) = lex (.word (start ++ text)) rest := by
  induction text generalizing start with
  | nil =>
      rw [List.flatMap_nil, List.nil_append, lex, if_pos rfl, List.append_nil]
  | cons char text ih =>
      rw [List.flatMap_cons, List.append_assoc]
      by_cases hquote : char = '\''
      · subst hquote
        rw [if_pos rfl]
        rw [List.cons_append, List.cons_append, List.cons_append, List.cons_append,
          List.nil_append, lex, if_pos rfl, lex, if_neg (by decide), if_neg (by decide), if_pos rfl, lex,
          if_neg (by decide), lex, if_neg (by decide), if_pos rfl, ih, List.append_assoc,
          List.singleton_append]
      · rw [if_neg hquote, List.singleton_append, lex, if_neg hquote, ih, List.append_assoc,
          List.singleton_append]

/-- A quoted text is read back, whatever it contains. -/
theorem continues_quote (text : List Char) : Continues (quote text) text := by
  intro start rest
  rw [quote, List.append_assoc, List.singleton_append, List.cons_append, lex, if_neg (by decide),
    if_pos rfl]
  exact lex_quoted text start rest

theorem begins_quote (text : List Char) : Begins (quote text) text := by
  intro rest
  rw [quote, List.append_assoc, List.singleton_append, List.cons_append, lex, if_neg (by decide),
    if_pos rfl]
  exact lex_quoted text [] rest

/-- The texts with a blank between them. -/
def join : List (List Char) → List Char
  | [] => []
  | [text] => text
  | text :: rest => text ++ ' ' :: join rest

/-- The text is read as the token, in front of a blank and at the end of a line. -/
structure Renders (text : List Char) (token : Token) : Prop where
  last : lex .blank text = some [token]
  before : ∀ rest, lex .blank (text ++ ' ' :: rest) = (lex .blank rest).map (token :: ·)

theorem Begins.renders {text value : List Char} (h : Begins text value) :
    Renders text (.word (String.ofList value)) := by
  constructor
  · have hlast := h []
    rw [List.append_nil] at hlast
    rw [hlast, lex]
  · intro rest
    rw [h, lex, if_pos (by decide)]

theorem renders_conjunction : Renders ['&', '&'] .conjunction := by
  constructor
  · rfl
  · intro rest
    show lex .blank ('&' :: '&' :: ' ' :: rest) = _
    rw [lex, if_neg (by decide), if_neg (by decide), if_neg (by decide), if_pos rfl, lex,
      if_pos rfl, lex, if_pos (by decide)]

theorem lex_flatMap {pieces : List (List Char × Token)}
    (h : ∀ piece ∈ pieces, Renders piece.1 piece.2) (rest : List Char) :
    lex .blank ((pieces.flatMap fun piece => piece.1 ++ [' ']) ++ rest) =
      (lex .blank rest).map (pieces.map (·.2) ++ ·) := by
  induction pieces with
  | nil =>
      rw [List.flatMap_nil, List.nil_append, List.map_nil]
      cases lex .blank rest with
      | none => rfl
      | some tokens => rfl
  | cons piece pieces ih =>
      rw [List.flatMap_cons, List.append_assoc, List.append_assoc, List.singleton_append,
        (h piece List.mem_cons_self).before,
        ih fun other hother => h other (List.mem_cons_of_mem _ hother), Option.map_map]
      rfl

theorem join_append (texts : List (List Char)) (first : List Char) (rest : List (List Char)) :
    join (texts ++ first :: rest) =
      (texts.flatMap fun text => text ++ [' ']) ++ join (first :: rest) := by
  induction texts with
  | nil => rfl
  | cons text texts ih =>
      have hjoin : join (text :: (texts ++ first :: rest)) =
          text ++ ' ' :: join (texts ++ first :: rest) := by
        cases texts with
        | nil => rfl
        | cons next texts => rfl
      rw [List.cons_append, hjoin, ih, List.flatMap_cons, List.append_assoc, List.append_assoc]
      rfl

/-- Behind the first text, each has a blank in front of it. -/
theorem join_cons (first : List Char) (rest : List (List Char)) :
    join (first :: rest) = first ++ rest.flatMap fun text => ' ' :: text := by
  induction rest generalizing first with
  | nil => exact (List.append_nil first).symm
  | cons next rest ih =>
      show first ++ ' ' :: join (next :: rest) = _
      rw [ih, List.flatMap_cons]
      rfl

/-- The last piece is read in its own way. -/
theorem lex_join_concat {pieces : List (List Char × Token)}
    (h : ∀ piece ∈ pieces, Renders piece.1 piece.2) (last : List Char) :
    lex .blank (join (pieces.map (·.1) ++ [last])) =
      (lex .blank last).map (pieces.map (·.2) ++ ·) := by
  rw [join_append, List.flatMap_map, lex_flatMap h]
  rfl

theorem lex_join {pieces : List (List Char × Token)}
    (h : ∀ piece ∈ pieces, Renders piece.1 piece.2) :
    lex .blank (join (pieces.map (·.1))) = some (pieces.map (·.2)) := by
  rcases List.eq_nil_or_concat pieces with rfl | ⟨before, last, rfl⟩
  · rfl
  · rw [List.concat_eq_append] at h ⊢
    rw [List.map_append, List.map_append, List.map_singleton, List.map_singleton,
      lex_join_concat fun piece hpiece => h piece (List.mem_append_left _ hpiece),
      (h last (List.mem_append_right _ (List.mem_singleton_self _))).last]
    rfl

/-- A word of which no character means anything. -/
def isLiteralWord : List Char → Bool
  | [] => false
  | first :: rest => isLiteralFirst first && rest.all isLiteral

theorem renders_literal {text : List Char} (h : isLiteralWord text = true) :
    Renders text (.word (String.ofList text)) := by
  cases text with
  | nil => cases h
  | cons first rest =>
      rw [isLiteralWord, Bool.and_eq_true, List.all_eq_true] at h
      exact (begins_literal h.1 h.2).renders

/-- Characters that end or quote a word. -/
def isQuoting (char : Char) : Bool :=
  isBlank char || char == '\'' || char == '\\' || char == '&'

theorem all_literal_of_lex_word {text rest start : List Char}
    (hquoting : ∀ char ∈ text, isQuoting char = false)
    (h : (lex (.word start) (text ++ rest)).isSome = true) :
    text.all isLiteral = true := by
  induction text generalizing start with
  | nil => rfl
  | cons char text ih =>
      have hchar := hquoting char List.mem_cons_self
      simp only [isQuoting, Bool.or_eq_false_iff, beq_eq_false_iff_ne] at hchar
      obtain ⟨⟨⟨hblank, hquote⟩, hescape⟩, hampersand⟩ := hchar
      rw [List.cons_append, lex, hblank, if_neg Bool.false_ne_true, if_neg hquote,
        if_neg hescape, if_neg hampersand] at h
      by_cases hliteral : isLiteral char = true
      · rw [if_pos hliteral] at h
        rw [List.all_cons, hliteral, Bool.true_and]
        exact ih (fun other hother => hquoting other (List.mem_cons_of_mem _ hother)) h
      · rw [if_neg hliteral] at h
        cases h

/-- A text that is read at all, and quotes nothing, is a word of which no character means
anything. -/
theorem isLiteralWord_of_lex {text rest : List Char} (hne : text ≠ [])
    (hquoting : ∀ char ∈ text, isQuoting char = false)
    (h : (lex .blank (text ++ rest)).isSome = true) : isLiteralWord text = true := by
  cases text with
  | nil => exact absurd rfl hne
  | cons first text =>
      have hfirst := hquoting first List.mem_cons_self
      simp only [isQuoting, Bool.or_eq_false_iff, beq_eq_false_iff_ne] at hfirst
      obtain ⟨⟨⟨hblank, hquote⟩, hescape⟩, hampersand⟩ := hfirst
      rw [List.cons_append, lex, hblank, if_neg Bool.false_ne_true, if_neg hquote,
        if_neg hescape, if_neg hampersand] at h
      by_cases hliteral : isLiteralFirst first = true
      · rw [if_pos hliteral] at h
        rw [isLiteralWord, hliteral, Bool.true_and]
        exact all_literal_of_lex_word
          (fun other hother => hquoting other (List.mem_cons_of_mem _ hother)) h
      · rw [if_neg hliteral] at h
        cases h

/-- The words that are not commands. -/
def reserved : List String :=
  ["if", "then", "else", "elif", "fi", "do", "done", "case", "esac", "while", "until", "for", "in"]

/-- A word that names a command. -/
def isName (word : String) : Bool :=
  !word.isEmpty && word.toList.all (fun char => char.isAlphanum || "/._-".toList.contains char) &&
    !reserved.contains word

/-- Words that begin with one. -/
def isCommand (words : List String) : Bool := words.head?.any isName

/-- The commands that tokens make up. -/
def commandsFrom (current : List String) : List Token → Option (List (List String))
  | [] => if isCommand current then some [current] else none
  | .word text :: rest => commandsFrom (current ++ [text]) rest
  | .conjunction :: rest =>
      if isCommand current then (commandsFrom [] rest).map (current :: ·) else none

/-- The commands of a line. -/
def parse (line : List Char) : Option (List (List String)) :=
  (lex .blank line).bind fun tokens => if tokens = [] then some [] else commandsFrom [] tokens

theorem commandsFrom_words (current words : List String) (rest : List Token) :
    commandsFrom current (words.map .word ++ rest) = commandsFrom (current ++ words) rest := by
  induction words generalizing current with
  | nil => rw [List.map_nil, List.nil_append, List.append_nil]
  | cons word words ih =>
      rw [List.map_cons, List.cons_append, commandsFrom, ih, List.append_assoc,
        List.singleton_append]

/-- A program that is run. -/
structure Run where
  cwd : String
  argv : List String
deriving Repr, DecidableEq

/-- What directories there are and which programs succeed, after the programs that have been run. -/
structure Host where
  home : String
  isDir : List Run → String → Bool
  succeeds : List Run → Run → Bool

/-- The programs that have been run, and whether the last command succeeded. -/
abbrev Outcome := List Run × Bool

/-- `cd`, `sh -lc` and programs, until one fails. -/
def runCommands (shell : List Run → String → String → Option Outcome) (host : Host) :
    List Run → String → List (List String) → Option Outcome
  | history, _, [] => some (history, true)
  | history, cwd, words :: rest =>
      if words.head? = some "cd" then
        match words.tail with
        | [] => runCommands shell host history host.home rest
        | [dir] =>
            if dir.toList.head? ≠ some '/' then none
            else if host.isDir history dir then runCommands shell host history dir rest
            else some (history, false)
        | _ => none
      else if words.take 2 = ["sh", "-lc"] then
        match words.drop 2 with
        | [] => none
        | script :: _ =>
            match shell history cwd script with
            | none => none
            | some (after, false) => some (after, false)
            | some (after, true) => runCommands shell host after cwd rest
      else if host.succeeds history ⟨cwd, words⟩ then
        runCommands shell host (history ++ [⟨cwd, words⟩]) cwd rest
      else some (history ++ [⟨cwd, words⟩], false)

/-- With a bound on the depth of shells. -/
def runLine : Nat → Host → List Run → String → List Char → Option Outcome
  | 0, _, _, _, _ => none
  | depth + 1, host, history, cwd, line =>
      (parse line).bind fun commands =>
        runCommands (fun before dir script => runLine depth host before dir script.toList) host
          history cwd commands

/-- A shell in a line that succeeds. -/
theorem runCommands_shell {shell : List Run → String → String → Option Outcome} {host : Host}
    {history after : List Run} {cwd script : String} (h : shell history cwd script = some (after, true))
    (args : List String) (rest : List (List String)) :
    runCommands shell host history cwd (("sh" :: "-lc" :: script :: args) :: rest) =
      runCommands shell host after cwd rest := by
  have hcd : (("sh" :: "-lc" :: script :: args).head? = some "cd") = False := by simp
  have hsh : (("sh" :: "-lc" :: script :: args).take 2 = ["sh", "-lc"]) = True := by simp
  simp only [runCommands, hcd, hsh, if_false, if_true, List.drop_succ_cons, List.drop_zero, h]

/-- A program that is no command of the shell itself. -/
def isProgram (words : List String) : Bool :=
  isCommand words && words.head? != some "cd" && words.take 2 != ["sh", "-lc"]

theorem runCommands_program {shell : List Run → String → String → Option Outcome} {host : Host}
    {history : List Run} {cwd : String} {words : List String} (h : isProgram words = true) :
    runCommands shell host history cwd [words] =
      some (history ++ [⟨cwd, words⟩], host.succeeds history ⟨cwd, words⟩) := by
  rw [isProgram, Bool.and_eq_true, Bool.and_eq_true, bne_iff_ne, bne_iff_ne] at h
  rw [runCommands, if_neg h.1.2, if_neg h.2]
  by_cases hsucceeds : host.succeeds history ⟨cwd, words⟩ = true
  · rw [if_pos hsucceeds, hsucceeds, runCommands]
  · rw [if_neg hsucceeds, Bool.eq_false_iff.mpr hsucceeds]

theorem parse_join {pieces : List (List Char × Token)} (hne : pieces ≠ [])
    (h : ∀ piece ∈ pieces, Renders piece.1 piece.2) :
    parse (join (pieces.map (·.1))) = commandsFrom [] (pieces.map (·.2)) := by
  have hmap : pieces.map (·.2) ≠ [] := fun heq => hne (List.map_eq_nil_iff.mp heq)
  rw [parse, lex_join h, Option.bind_some, if_neg hmap]

/-- The piece of a word that means nothing else. -/
def piece (word : String) : List Char × Token := (word.toList, .word word)

theorem renders_piece {word : String} (h : isLiteralWord word.toList = true) :
    Renders (piece word).1 (piece word).2 := by
  have hrenders := renders_literal h
  rw [String.ofList_toList] at hrenders
  exact hrenders

/-- A line of words that mean nothing else runs the program with these words. -/
theorem runLine_words {depth : Nat} {host : Host} {history : List Run} {cwd : String}
    {words : List String} (hwords : ∀ word ∈ words, isLiteralWord word.toList = true)
    (hprogram : isProgram words = true) :
    runLine (depth + 1) host history cwd (join (words.map String.toList)) =
      some (history ++ [⟨cwd, words⟩], host.succeeds history ⟨cwd, words⟩) := by
  have hcommand : isCommand words = true := by
    rw [isProgram, Bool.and_eq_true, Bool.and_eq_true] at hprogram
    exact hprogram.1.1
  have hne : words.map piece ≠ [] := by
    intro heq
    rw [List.map_eq_nil_iff.mp heq] at hcommand
    cases hcommand
  have hparse : parse (join (words.map String.toList)) = some [words] := by
    have hjoin := parse_join hne (by
      intro rendered hrendered
      obtain ⟨word, hword, rfl⟩ := List.mem_map.mp hrendered
      exact renders_piece (hwords word hword))
    rw [List.map_map, List.map_map] at hjoin
    have hfrom := commandsFrom_words [] words []
    rw [List.append_nil, List.nil_append, commandsFrom, if_pos hcommand] at hfrom
    exact hjoin.trans hfrom
  rw [runLine, hparse, Option.bind_some, runCommands_program hprogram]

/-- Behind `cd`, the program runs in the directory. -/
theorem runLine_cd {depth : Nat} {host : Host} {history : List Run} {cwd dir : String}
    {words : List String} (hdir : isLiteralWord dir.toList = true)
    (hroot : dir.toList.head? = some '/') (hexists : host.isDir history dir = true)
    (hwords : ∀ word ∈ words, isLiteralWord word.toList = true)
    (hprogram : isProgram words = true) :
    runLine (depth + 1) host history cwd
        (join ((["cd", dir, "&&"] ++ words).map String.toList)) =
      some (history ++ [⟨dir, words⟩], host.succeeds history ⟨dir, words⟩) := by
  have hcommand : isCommand words = true := by
    rw [isProgram, Bool.and_eq_true, Bool.and_eq_true] at hprogram
    exact hprogram.1.1
  have hparse : parse (join ((["cd", dir, "&&"] ++ words).map String.toList)) =
      some [["cd", dir], words] := by
    have hjoin := @parse_join ([piece "cd", piece dir, (['&', '&'], .conjunction)] ++
      words.map piece) (by simp) (by
        intro rendered hrendered
        simp only [List.cons_append, List.nil_append, List.mem_cons, List.mem_map] at hrendered
        rcases hrendered with rfl | rfl | rfl | ⟨word, hword, rfl⟩
        · exact renders_piece (by decide)
        · exact renders_piece hdir
        · exact renders_conjunction
        · exact renders_piece (hwords word hword))
    have hfrom := commandsFrom_words [] words []
    rw [List.append_nil, List.nil_append, commandsFrom, if_pos hcommand] at hfrom
    rw [List.map_append, List.map_append, List.map_map, List.map_map] at hjoin
    rw [List.map_append]
    refine hjoin.trans ?_
    show commandsFrom [] (.word "cd" :: .word dir :: .conjunction :: words.map .word) = _
    rw [commandsFrom, commandsFrom, commandsFrom]
    show (if isCommand ["cd", dir] then _ else _) = _
    have hcd : isCommand ["cd", dir] = true := by
      show isName "cd" = true
      decide
    rw [if_pos hcd, hfrom]
    rfl
  rw [runLine, hparse, Option.bind_some, runCommands,
    if_pos (show ["cd", dir].head? = some "cd" from rfl)]
  show (if dir.toList.head? ≠ some '/' then none
    else if host.isDir history dir then _ else _) = _
  rw [if_neg (not_not.mpr hroot), if_pos hexists, runCommands_program hprogram]

/-- A text behind words that mean nothing else is such a word when the line has a meaning. -/
theorem isLiteralWord_of_runLine {depth : Nat} {host : Host} {history : List Run} {cwd : String}
    {before rest : List String} {word : String} {outcome : Outcome}
    (hbefore : ∀ other ∈ before, isLiteralWord other.toList = true) (hne : word ≠ "")
    (hquoting : ∀ char ∈ word.toList, isQuoting char = false)
    (h : runLine depth host history cwd (join ((before ++ word :: rest).map String.toList)) =
      some outcome) : isLiteralWord word.toList = true := by
  obtain ⟨tail, htail⟩ : ∃ tail, join (word.toList :: rest.map String.toList) =
      word.toList ++ tail := ⟨_, join_cons word.toList _⟩
  have hlex := @lex_flatMap (before.map piece) (by
    intro rendered hrendered
    obtain ⟨other, hother, rfl⟩ := List.mem_map.mp hrendered
    exact renders_piece (hbefore other hother)) (word.toList ++ tail)
  rw [List.flatMap_map] at hlex
  rw [List.map_append, List.map_cons, join_append, htail, List.flatMap_map] at h
  have hsome : (lex .blank (word.toList ++ tail)).isSome = true := by
    cases depth with
    | zero => cases h
    | succ depth =>
        rw [runLine, parse] at h
        cases hline : lex .blank (word.toList ++ tail) with
        | some tokens => rfl
        | none =>
            rw [hline, Option.map_none] at hlex
            have hnone : lex .blank ((before.flatMap fun other => other.toList ++ [' ']) ++
                (word.toList ++ tail)) = none := hlex
            rw [hnone] at h
            cases h
  have hlist : word.toList ≠ [] := fun heq => hne (String.toList_inj.mp heq)
  exact isLiteralWord_of_lex hlist hquoting hsome

end EasyDeploy.Foundation.Shell
