import EasyDeploy.RuntimeFs.UnitDirectives

/-!
# Commands of slots

The unit of a slot has the command of the plain unit with the port as a variable: in its
path wherever the digits of the port stand, and in the words of its arguments that are the
port or its option.
-/

namespace EasyDeploy.RuntimeFs
open Foundation Apps

/-- The port, also as the value of its option. -/
def DenotesPort (port word : List Char) : Prop := word = port ∨ isPortOption port word = true

instance (port word : List Char) : Decidable (DenotesPort port word) :=
  inferInstanceAs (Decidable (_ ∨ _))

/-- A word that denotes the port with another value in its place. -/
def portWord (port value word : List Char) : List Char :=
  if word = port then value
  else if isPortOption port word then "--port=".toList ++ value
  else word

/-- A word of a command in which the variable has its value. -/
def expandPort (value word : List Char) : List Char := replaceText portVariable value word

variable {port value : List Char}

/-- Where the pattern cannot begin, a text stays. -/
theorem replaceText_append_of_head {first : Char} {pattern replacement : List Char}
    {front : List Char} (h : first ∉ front) (rest : List Char) :
    replaceText (first :: pattern) replacement (front ++ rest) =
      front ++ replaceText (first :: pattern) replacement rest := by
  induction front with
  | nil => rfl
  | cons char front ih =>
      rw [List.mem_cons, not_or] at h
      rw [List.cons_append, replaceText_cons, ih h.2]
      · rfl
      · intro hstarts
        exact h.1 (List.cons_prefix_cons.mp hstarts).1

theorem replaceText_whole {pattern : List Char} (h : pattern ≠ []) (replacement : List Char) :
    replaceText pattern replacement pattern = replacement := by
  have hwhole := @replaceText_occurrence pattern replacement h []
  rw [List.append_nil] at hwhole
  exact hwhole.trans (List.append_nil replacement)

theorem replaceText_portWord (hdigits : ∀ char ∈ port, char.isDigit = true) (hne : port ≠ []) :
    replaceText port portVariable ("--port=".toList ++ port) =
      "--port=".toList ++ portVariable := by
  obtain ⟨first, others, rfl⟩ := List.exists_cons_of_ne_nil hne
  have hfirst : first ∉ "--port=".toList := by
    intro hmem
    have hall : "--port=".toList.all (fun char => !char.isDigit) = true := by decide
    have hdigit := List.all_eq_true.mp hall first hmem
    rw [hdigits first List.mem_cons_self] at hdigit
    cases hdigit
  rw [replaceText_append_of_head hfirst, replaceText_whole hne]

/-- The loop changes each word by itself. -/
theorem replacePortInParts_eq (hdigits : ∀ char ∈ port, char.isDigit = true) (hne : port ≠ [])
    (flag : Bool) (words : List (List Char)) :
    replacePortInParts port flag words = words.map (portWord port portVariable) := by
  induction words generalizing flag with
  | nil => rfl
  | cons word words ih =>
      have hword : (if flag = true ∧ word = port then portVariable
          else if word = port ∨ isPortOption port word = true then
            replaceText port portVariable word
          else word) = portWord port portVariable word := by
        rw [portWord]
        by_cases hport : word = port
        · rw [if_pos hport]
          split
          · rfl
          · rw [if_pos (.inl hport), hport, replaceText_whole hne]
        · rw [if_neg hport, if_neg (fun h => hport h.2)]
          by_cases hoption : isPortOption port word = true
          · rw [if_pos (.inr hoption), if_pos hoption]
            rw [isPortOption, beq_iff_eq] at hoption
            rw [hoption, replaceText_portWord hdigits hne]
          · rw [if_neg (not_or.mpr ⟨hport, hoption⟩), if_neg hoption]
      rw [replacePortInParts, List.map_cons, ih]
      exact congrArg (· :: words.map (portWord port portVariable)) hword

theorem splitWhitespace_joinWords {words : List (List Char)} (h : ∀ word ∈ words, IsWord word) :
    splitWhitespace (joinWords words) = words := by
  induction words with
  | nil => rfl
  | cons word words ih =>
      obtain ⟨hword, hrest⟩ := List.forall_mem_cons.mp h
      cases words with
      | nil => exact splitWhitespace_word hword
      | cons next rest =>
          rw [joinWords_cons_cons, splitWhitespace_append_blank (by decide),
            splitWhitespace_word hword, ih hrest]
          rfl

theorem expandPort_variable (value : List Char) : expandPort value portVariable = value :=
  replaceText_whole (by decide) value

theorem expandPort_append {front : List Char} (h : '$' ∉ front) (rest : List Char) :
    expandPort value (front ++ rest) = front ++ expandPort value rest := by
  have hvariable : portVariable = '$' :: portVariable.tail := rfl
  rw [expandPort, hvariable, replaceText_append_of_head h]
  rfl

theorem expandPort_digits (hdigits : ∀ char ∈ port, char.isDigit = true) :
    expandPort value port = port := by
  have hdollar : '$' ∉ port := by
    intro hmem
    exact absurd (hdigits '$' hmem) (by decide)
  have happend := @expandPort_append value port hdollar []
  rw [List.append_nil] at happend
  exact happend.trans (List.append_nil port)

/-- A changed word has the value in the place of the port, another one is expanded as it is. -/
theorem expandPort_portWord (value word : List Char) :
    expandPort value (portWord port portVariable word) =
      if DenotesPort port word then portWord port value word else expandPort value word := by
  have hdollar : '$' ∉ "--port=".toList := by decide
  by_cases hport : word = port
  · rw [portWord, if_pos hport, expandPort_variable, if_pos (.inl hport), portWord, if_pos hport]
  · rw [portWord, if_neg hport]
    by_cases hoption : isPortOption port word = true
    · rw [if_pos hoption, expandPort_append hdollar, expandPort_variable, if_pos (.inr hoption),
        portWord, if_neg hport, if_pos hoption]
    · have hother : ¬DenotesPort port word := not_or.mpr ⟨hport, hoption⟩
      rw [if_neg hoption, if_neg hother]

/-- With the port itself as its value the variable changes no word. -/
theorem expandPort_port (hdigits : ∀ char ∈ port, char.isDigit = true) (word : List Char) :
    expandPort port (portWord port portVariable word) = expandPort port word := by
  have hdollar : '$' ∉ "--port=".toList := by decide
  rw [expandPort_portWord]
  split
  · rename_i hdenotes
    rw [portWord]
    split
    · rename_i hport
      rw [hport, expandPort_digits hdigits]
    · rename_i hport
      have hoption := hdenotes.resolve_left hport
      rw [if_pos hoption]
      rw [isPortOption, beq_iff_eq] at hoption
      rw [hoption, expandPort_append hdollar, expandPort_digits hdigits]
  · rfl

/-- The text is made of lines with this one among them. -/
def HasLine (text line : String) : Prop :=
  ∃ lines, text.toList = UnitFile.render lines ∧ line.toList ∈ lines

theorem hasLine_entry {config : BinaryRuntimeConfig} {slot : Option Slot} {key value line : String}
    (h : entry key value ∈ (config.values slot).entries)
    (hline : line.toList = key.toList ++ '=' :: value.toList) :
    HasLine (unitContent config slot) line := by
  refine ⟨_, toList_unitContent config slot, ?_⟩
  rw [hline, ← line_entry]
  exact List.mem_map_of_mem h

theorem toList_execStart (command : String) :
    ("ExecStart=" ++ command).toList = "ExecStart".toList ++ '=' :: command.toList := by
  rw [String.toList_append]
  rfl

theorem toList_environment (port : String) : ("Environment=PORT=" ++ port).toList =
    "Environment".toList ++ '=' :: ("PORT=" ++ port).toList := by
  rw [String.toList_append, String.toList_append]
  rfl

theorem port_slot (config : BinaryRuntimeConfig) (slot : Slot) :
    (config.values (some slot)).port =
      if 0 < config.slotPort slot then some (toString (config.slotPort slot).toInt) else none := by
  delta BinaryRuntimeConfig.values unitValues
  dsimp only

/-- A port in digits. -/
def portText (port : Int64) : List Char := (toString port.toInt).toList

/-- The unit of a slot beside the plain unit, with the words that systemd reads in the arguments of
both, in which it puts a value for the variable. -/
structure FollowsPort (config : BinaryRuntimeConfig) (slot : Slot)
    (arguments slotArguments : List (List Char)) : Prop where
  plain_line : HasLine (unitContent config none)
    ("ExecStart=" ++ execStart config.artifactPath config.execArgs)
  slot_line : HasLine (unitContent config (some slot))
    ("ExecStart=" ++ execStart (config.slotCommand slot).1 (config.slotCommand slot).2)
  port_line : 0 < config.slotPort slot → HasLine (unitContent config (some slot))
    ("Environment=PORT=" ++ toString (config.slotPort slot).toInt)
  plain_words : ∀ program, UnitFile.commandWords config.artifactPath.toList = some program →
    UnitFile.commandWords (execStart config.artifactPath config.execArgs).toList =
      some (program ++ arguments)
  slot_words : ∀ program, UnitFile.commandWords (config.slotCommand slot).1.toList = some program →
    UnitFile.commandWords
        (execStart (config.slotCommand slot).1 (config.slotCommand slot).2).toList =
      some (program ++ slotArguments)
  unchanged : config.templatePort slot ≤ 0 →
    config.slotCommand slot = (config.artifactPath, config.execArgs) ∧ slotArguments = arguments
  path : 0 < config.templatePort slot → (config.slotCommand slot).1.toList =
    replaceText (portText (config.templatePort slot)) portVariable config.artifactPath.toList
  words : 0 < config.templatePort slot → slotArguments =
    arguments.map (portWord (portText (config.templatePort slot)) portVariable)
  other_port : 0 < config.templatePort slot →
    slotArguments.map (expandPort (portText (config.slotPort slot))) = arguments.map fun word =>
      if DenotesPort (portText (config.templatePort slot)) word then
        portWord (portText (config.templatePort slot)) (portText (config.slotPort slot)) word
      else expandPort (portText (config.slotPort slot)) word
  same_port : 0 < config.templatePort slot → config.slotPort slot = config.templatePort slot →
    slotArguments.map (expandPort (portText (config.slotPort slot))) =
      arguments.map (expandPort (portText (config.slotPort slot)))

theorem words_slotExecStart {artifactPath execArgs : String} {port : Int64} (h : 0 < port) :
    splitWhitespace (slotExecStart artifactPath execArgs port).2.toList =
      (splitWhitespace execArgs.toList).map (portWord (portText port) portVariable) := by
  obtain ⟨hne, hdigits⟩ := isDigit_port h
  have hwords : ∀ word ∈ splitWhitespace execArgs.toList, IsWord word := fun word hword =>
    isWord_of_mem_splitWhitespace hword
  rw [slotExecStart, if_neg (Int64.not_le.mpr h), replacePortInArgs, String.toList_ofList,
    splitWhitespace_joinWords (isWord_replacePortInParts hne hwords),
    replacePortInParts_eq hdigits hne, portText]

/-- Each character of the changed arguments is one of the arguments, of the variable or a blank. -/
theorem plainWords_slotCommand {config : BinaryRuntimeConfig} {slot : Slot}
    (h : UnitFile.PlainWords config.execArgs.toList) :
    UnitFile.PlainWords (config.slotCommand slot).2.toList := by
  rw [BinaryRuntimeConfig.slotCommand]
  by_cases hport : config.templatePort slot ≤ 0
  · rw [slotExecStart, if_pos hport]
    exact h
  · obtain ⟨hne, hdigits⟩ := isDigit_port (Int64.not_le.mp hport)
    rw [slotExecStart, if_neg hport, replacePortInArgs, String.toList_ofList,
      replacePortInParts_eq hdigits hne]
    have hvariable : UnitFile.PlainWords portVariable := by decide
    have hoption : UnitFile.PlainWords ("--port=".toList ++ portVariable) := by decide
    have hblank : UnitFile.PlainWords [' '] := by decide
    intro char hchar
    rcases mem_joinWords hchar with rfl | ⟨word, hword, hin⟩
    · exact hblank ' ' (List.mem_singleton_self ' ')
    · obtain ⟨old, hold, rfl⟩ := List.mem_map.mp hword
      rw [portWord] at hin
      split at hin
      · exact hvariable char hin
      · split at hin
        · exact hoption char hin
        · exact h char (mem_of_mem_splitWhitespace hold hin)

/-- The words of a command are those of its program and of its arguments. -/
theorem commandWords_execStart {path args : String} (h : UnitFile.PlainWords args.toList)
    {program : List (List Char)} (hprogram : UnitFile.commandWords path.toList = some program) :
    UnitFile.commandWords (execStart path args).toList =
      some (program ++ splitWhitespace args.toList) := by
  have htrimmed : UnitFile.PlainWords (trim args).toList := by
    intro char hchar
    rw [toList_trim] at hchar
    exact h char ((List.dropWhile_suffix _).subset ((List.rdropWhile_prefix _ _).subset hchar))
  rw [execStart]
  by_cases hblank : Blank args
  · have hnone : splitWhitespace args.toList = [] := by
      rw [← splitWhitespace_trim, show trim args = "" from hblank]
      rfl
    rw [if_pos hblank, hnone, List.append_nil]
    exact hprogram
  · rw [if_neg hblank, String.toList_append, String.toList_append, List.append_assoc]
    refine (UnitFile.wordsFrom_append hprogram (trim args).toList).trans ?_
    rw [UnitFile.commandWords_plain htrimmed, splitWhitespace_trim]
    rfl

namespace Server

def input (execArgs : String) : BinaryConfigInput :=
  { artifactVersion := "v1", artifactPath := "/opt/worker/bin/server-8080"
    execArgs, serviceUser := "", unitName := ""
    releaseStrategy := "blue_green", activeSlot := "", basePort := 8080, standbyPort := 18080
    proxyEnabled := false, proxyKind := "", proxyDomain := "", proxyConfigPath := "" }

def config (execArgs : String) : BinaryConfigItem :=
  { serviceName := "worker", artifactVersion := "v1"
    artifactPath := "/opt/worker/bin/server-8080", execArgs
    workingDir := "/opt/worker", serviceUser := "deploy"
    unitName := "easy-deploy-worker.service", releaseStrategy := "blue_green"
    activeSlot := "blue", basePort := 8080, standbyPort := 18080, proxyEnabled := 0
    proxyKind := "none", proxyDomain := "", proxyConfigPath := "", envContent := "" }

def runtime (execArgs : String) : BinaryRuntimeConfig :=
  binaryRuntimeConfig "worker" "Worker" (config execArgs)

end Server

end EasyDeploy.RuntimeFs
