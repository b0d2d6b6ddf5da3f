import EasyDeploy.Foundation.UnitFiles
import EasyDeploy.RuntimeFs.SystemdUnits

/-!
# Directives of units

A unit is meant to have the directives of its template, each with the value of the
configuration. The checks of a configuration leave line ends within its fields and
a backslash at their end, which make other directives.
-/

namespace EasyDeploy.RuntimeFs
open Foundation Apps
open UnitFile (Entry Item)

/-- The values that a unit is written with. -/
structure UnitValues where
  description : String
  workingDir : String
  envFile : String
  port : Option String
  user : String
  command : String
deriving Repr, DecidableEq

/-- A line with a key and a value. -/
def entry (key value : String) : Entry := .directive key.toList value.toList

/-- The line with the port of a slot. -/
def UnitValues.portEntries (values : UnitValues) : List Entry :=
  (values.port.map fun port => entry "Environment" ("PORT=" ++ port)).toList

/-- The entries before the command. -/
def UnitValues.front (values : UnitValues) : List Entry :=
  [.heading "Unit".toList, entry "Description" values.description,
    entry "After" "network-online.target", entry "Wants" "network-online.target", .empty,
    .heading "Service".toList, entry "Type" "simple", entry "WorkingDirectory" values.workingDir,
    entry "EnvironmentFile" values.envFile] ++ values.portEntries ++ [entry "User" values.user]

/-- The lines at the end. -/
def back : List Entry :=
  [entry "RestartSec" "5", entry "KillSignal" "SIGTERM", entry "TimeoutStopSec" "30", .empty,
    .heading "Install".toList, entry "WantedBy" "multi-user.target"]

/-- All lines. -/
def UnitValues.entries (values : UnitValues) : List Entry :=
  values.front ++ entry "ExecStart" values.command :: entry "Restart" "always" :: back

/-- The values that the configuration gives. -/
def unitValues (config : BinaryRuntimeConfig) (slot envRelative executablePath execArgs : String)
    (port : Int64) : UnitValues :=
  { description := "Easy Deploy " ++ config.name ++ " (" ++ config.appKey ++ ")" ++
      (if slot = "" then "" else " " ++ slot)
    workingDir := forwardSlashes config.workingDir
    envFile := "-" ++ targetPath config.workingDir envRelative
    port := if 0 < port then some (toString port.toInt) else none
    user := config.serviceUser
    command := execStart executablePath execArgs }

/-- The values of a unit of an application. -/
def BinaryRuntimeConfig.values (config : BinaryRuntimeConfig) : Option Slot → UnitValues
  | none => unitValues config "" (envRelative config.unitName) config.artifactPath config.execArgs 0
  | some slot =>
      unitValues config slot.name (envRelative (blueGreenUnitName config.unitName slot.name))
        (config.slotCommand slot).1 (config.slotCommand slot).2 (config.slotPort slot)

section Projections

variable (config : BinaryRuntimeConfig)

theorem description_plain : (config.values none).description =
    "Easy Deploy " ++ config.name ++ " (" ++ config.appKey ++ ")" ++ "" := by
  delta BinaryRuntimeConfig.values unitValues
  dsimp only
  rw [if_pos rfl]

theorem workingDir_plain : (config.values none).workingDir = forwardSlashes config.workingDir := by
  delta BinaryRuntimeConfig.values unitValues
  dsimp only

theorem command_plain : (config.values none).command =
    execStart config.artifactPath config.execArgs := by
  delta BinaryRuntimeConfig.values unitValues
  dsimp only

theorem command_slot (slot : Slot) : (config.values (some slot)).command =
    execStart (config.slotCommand slot).1 (config.slotCommand slot).2 := by
  delta BinaryRuntimeConfig.values unitValues
  dsimp only

end Projections

section Members

variable (values : UnitValues)

theorem mem_entries_description : entry "Description" values.description ∈ values.entries :=
  List.mem_append_left _ (List.mem_append_left _ (List.mem_append_left _
    (List.mem_cons_of_mem _ List.mem_cons_self)))

theorem mem_entries_workingDir : entry "WorkingDirectory" values.workingDir ∈ values.entries := by
  simp only [UnitValues.entries, UnitValues.front, List.mem_append, List.mem_cons, true_or, or_true]

theorem mem_entries_command : entry "ExecStart" values.command ∈ values.entries :=
  List.mem_append_right _ List.mem_cons_self

end Members

theorem render_cons (entry : Entry) (entries : List Entry) :
    UnitFile.render ((entry :: entries).map Entry.line) =
      entry.line ++ '\n' :: UnitFile.render (entries.map Entry.line) := by
  rw [UnitFile.render, List.map_cons, List.flatMap_cons, List.append_assoc]
  rfl

theorem line_entry (key value : String) :
    (entry key value).line = key.toList ++ '=' :: value.toList := rfl

theorem render_portEntries (values : UnitValues) (rest : List Entry) :
    UnitFile.render ((values.portEntries ++ rest).map Entry.line) =
      (values.port.elim "" fun port => "Environment=PORT=" ++ port ++ "\n").toList ++
        UnitFile.render (rest.map Entry.line) := by
  cases hport : values.port with
  | none => rw [UnitValues.portEntries, hport]; rfl
  | some port =>
      have htext : "Environment=PORT=".toList = "Environment".toList ++ '=' :: "PORT=".toList := by
        decide
      have hend : "\n".toList = ['\n'] := rfl
      rw [UnitValues.portEntries, hport, Option.map_some, Option.toList_some, List.singleton_append,
        render_cons, line_entry, Option.elim_some]
      simp only [String.toList_append, htext, hend, List.append_assoc, List.cons_append,
        List.nil_append]

theorem toList_renderSystemdUnitContent (config : BinaryRuntimeConfig)
    (slot envRelative executablePath execArgs : String) (port : Int64) :
    (renderSystemdUnitContent config slot envRelative executablePath execArgs port).toList =
      UnitFile.render
        ((unitValues config slot envRelative executablePath execArgs port).entries.map
          Entry.line) := by
  have hport : ((unitValues config slot envRelative executablePath execArgs port).port.elim ""
      fun port => "Environment=PORT=" ++ port ++ "\n") =
      if 0 < port then "Environment=PORT=" ++ toString port.toInt ++ "\n" else "" := by
    show ((if 0 < port then some (toString port.toInt) else none).elim "" fun port =>
      "Environment=PORT=" ++ port ++ "\n") = _
    split <;> rfl
  have hback : UnitFile.render ((entry "Restart" "always" :: back).map Entry.line) =
      "Restart=always\nRestartSec=5\nKillSignal=SIGTERM\nTimeoutStopSec=30\n\n".toList ++
        "[Install]\nWantedBy=multi-user.target\n".toList := by decide
  have hunit : "[Unit]\nDescription=Easy Deploy ".toList =
      '[' :: "Unit".toList ++ ']' :: '\n' :: "Description".toList ++ '=' ::
        "Easy Deploy ".toList := by decide
  have hafter : "\nAfter=network-online.target\nWants=network-online.target\n\n".toList =
      '\n' :: "After".toList ++ '=' :: "network-online.target".toList ++ '\n' ::
        "Wants".toList ++ '=' :: "network-online.target".toList ++ ['\n', '\n'] := by decide
  have hservice : "[Service]\nType=simple\nWorkingDirectory=".toList =
      '[' :: "Service".toList ++ ']' :: '\n' :: "Type".toList ++ '=' :: "simple".toList ++
        '\n' :: "WorkingDirectory".toList ++ ['='] := by decide
  have henv : "\nEnvironmentFile=-".toList = '\n' :: "EnvironmentFile".toList ++ '=' ::
      "-".toList := by decide
  have huser : "User=".toList = "User".toList ++ ['='] := by decide
  have hexec : "\nExecStart=".toList = '\n' :: "ExecStart".toList ++ ['='] := by decide
  have hrestart :
      "\nRestart=always\nRestartSec=5\nKillSignal=SIGTERM\nTimeoutStopSec=30\n\n".toList =
        '\n' :: "Restart=always\nRestartSec=5\nKillSignal=SIGTERM\nTimeoutStopSec=30\n\n".toList :=
    by decide
  have hend : "\n".toList = ['\n'] := rfl
  delta renderSystemdUnitContent
  simp only [UnitValues.entries, UnitValues.front, List.append_assoc, List.cons_append,
    List.nil_append, render_cons, render_portEntries, hport, hback]
  delta unitValues
  simp only [entry, Entry.line, String.toList_append, hunit, hafter, hservice, henv, huser, hexec,
    hrestart, hend, List.append_assoc, List.cons_append, List.nil_append]

/-- Values that take one line each. -/
structure UnitValues.Fits (values : UnitValues) : Prop where
  description : UnitFile.Fits values.description.toList
  working_dir : UnitFile.Fits values.workingDir.toList
  env_file : UnitFile.Fits values.envFile.toList
  port : ∀ port ∈ values.port, UnitFile.Fits ("PORT=" ++ port).toList
  user : UnitFile.Fits values.user.toList

theorem hasKey_entry {key : String} (h : UnitFile.IsKey key.toList) (value : String) :
    (entry key value).HasKey := h

theorem fits_entry {value : String} (h : UnitFile.Fits value.toList) (key : String) :
    (entry key value).Fits := h

theorem hasKey_back : ∀ other ∈ entry "Restart" "always" :: back, other.HasKey := by
  simp only [back, List.forall_mem_cons]
  exact ⟨hasKey_entry (by decide) _, hasKey_entry (by decide) _, hasKey_entry (by decide) _,
    hasKey_entry (by decide) _, trivial, (by decide : UnitFile.IsKey _),
    hasKey_entry (by decide) _, fun entry hentry => absurd hentry List.not_mem_nil⟩

theorem fits_back : ∀ other ∈ entry "Restart" "always" :: back, other.Fits := by
  simp only [back, List.forall_mem_cons]
  exact ⟨fits_entry (by decide) _, fits_entry (by decide) _, fits_entry (by decide) _,
    fits_entry (by decide) _, trivial, trivial, fits_entry (by decide) _,
    fun entry hentry => absurd hentry List.not_mem_nil⟩

theorem hasKey_front (values : UnitValues) : ∀ entry ∈ values.front, entry.HasKey := by
  have hport : ∀ entry ∈ values.portEntries, entry.HasKey := by
    intro port hport
    obtain ⟨text, -, rfl⟩ := Option.map_eq_some_iff.mp (Option.mem_toList.mp hport)
    exact hasKey_entry (by decide) _
  simp only [UnitValues.front, List.forall_mem_append, List.forall_mem_cons]
  have hnone : ∀ entry ∈ ([] : List Entry), entry.HasKey :=
    fun entry hentry => absurd hentry List.not_mem_nil
  exact ⟨⟨⟨(by decide : UnitFile.IsKey _), hasKey_entry (by decide) _, hasKey_entry (by decide) _,
    hasKey_entry (by decide) _, trivial, (by decide : UnitFile.IsKey _),
    hasKey_entry (by decide) _, hasKey_entry (by decide) _, hasKey_entry (by decide) _, hnone⟩,
    hport⟩, hasKey_entry (by decide) _, hnone⟩

theorem fits_front {values : UnitValues} (h : values.Fits) :
    ∀ entry ∈ values.front, entry.Fits := by
  have hport : ∀ entry ∈ values.portEntries, entry.Fits := by
    intro port hport
    obtain ⟨text, htext, rfl⟩ := Option.map_eq_some_iff.mp (Option.mem_toList.mp hport)
    exact fits_entry (h.port text htext) _
  simp only [UnitValues.front, List.forall_mem_append, List.forall_mem_cons]
  have hnone : ∀ entry ∈ ([] : List Entry), entry.Fits :=
    fun entry hentry => absurd hentry List.not_mem_nil
  exact ⟨⟨⟨trivial, fits_entry h.description _, fits_entry (by decide) _,
    fits_entry (by decide) _, trivial, trivial, fits_entry (by decide) _,
    fits_entry h.working_dir _, fits_entry h.env_file _, hnone⟩, hport⟩,
    fits_entry h.user _, hnone⟩

/-- The unit has the directives of its template exactly when the command stays on its line. -/
theorem read_values_iff {values : UnitValues} (h : values.Fits)
    (hcommand : UnitFile.OnOneLine values.command.toList) :
    UnitFile.read (UnitFile.render (values.entries.map Entry.line)) =
        values.entries.filterMap Entry.item? ↔
      UnitFile.endsEscaped values.command.toList = false := by
  have hkeys : ∀ entry ∈ values.entries, entry.HasKey := by
    rw [UnitValues.entries, List.forall_mem_append, List.forall_mem_cons]
    exact ⟨hasKey_front values, hasKey_entry (by decide) _, hasKey_back⟩
  constructor
  · intro hread
    apply Bool.eq_false_iff.mpr
    intro hescaped
    have hfits : ∀ other ∈ values.front ++ entry "Restart" "always" :: back, other.Fits :=
      List.forall_mem_append.mpr ⟨fits_front h, fits_back⟩
    obtain ⟨item, hitems, hlength⟩ :=
      UnitFile.read_entries_escaped hkeys hfits hcommand hescaped
    have hboth := hitems.symm.trans hread
    rw [UnitValues.entries, List.filterMap_append, List.append_cancel_left_eq] at hboth
    have hsame := congrArg List.length hboth
    rw [List.length_append] at hsame
    have hexec : ((entry "ExecStart" values.command :: entry "Restart" "always" :: back).filterMap
        Entry.item?).length = 2 + (back.filterMap Entry.item?).length := by
      rw [entry, entry, List.filterMap_cons_some (by rfl), List.filterMap_cons_some (by rfl),
        List.length_cons, List.length_cons, Nat.add_comm 2]
    omega
  · intro hescaped
    apply UnitFile.read_entries hkeys
    rw [UnitValues.entries, List.forall_mem_append, List.forall_mem_cons]
    exact ⟨fits_front h, ⟨hcommand, hescaped⟩, fits_back⟩

theorem toList_forwardSlashes (path : String) : (forwardSlashes path).toList =
    path.toList.map fun char => if char = '\\' then '/' else char := String.toList_ofList

theorem not_mem_forwardSlashes (path : String) : '\\' ∉ (forwardSlashes path).toList := by
  rw [toList_forwardSlashes]
  intro hmem
  obtain ⟨char, -, hchar⟩ := List.mem_map.mp hmem
  split at hchar
  · exact absurd hchar (by decide)
  · rename_i hne
    exact hne hchar

theorem isLineEnd_forwardSlash (char : Char) :
    UnitFile.isLineEnd (if char = '\\' then '/' else char) = UnitFile.isLineEnd char := by
  split
  · rename_i hchar
    rw [hchar]
    rfl
  · rfl

theorem onOneLine_forwardSlashes {path : String} :
    UnitFile.OnOneLine (forwardSlashes path).toList ↔ UnitFile.OnOneLine path.toList := by
  rw [UnitFile.OnOneLine, toList_forwardSlashes, List.forall_mem_map]
  exact forall₂_congr fun char _ => by rw [isLineEnd_forwardSlash]

theorem fits_targetPath {workDir relativePath : String}
    (h : UnitFile.OnOneLine workDir.toList) (hrelative : UnitFile.Fits relativePath.toList) :
    UnitFile.Fits (targetPath workDir relativePath).toList := by
  have hdir : UnitFile.OnOneLine ((forwardSlashes workDir).toList.rdropWhile (· == '/')) :=
    (onOneLine_forwardSlashes.mpr h).of_subset (List.rdropWhile_prefix _ _).subset
  rw [targetPath]
  split
  · exact hrelative
  · have hslash : "/".toList = ['/'] := rfl
    rw [String.toList_append, String.toList_append, String.toList_ofList, hslash]
    constructor
    · exact (hdir.append (by decide)).append hrelative.1
    · rw [List.append_assoc, List.singleton_append, UnitFile.endsEscaped_append_cons (by decide)]
      exact hrelative.2

/-- The characters of unit names. -/
def isUnitNameChar (char : Char) : Bool := char.isAlphanum || ['-', '_', '.', '@'].contains char

/-- The characters of paths in units. -/
def isUnitPathChar (char : Char) : Bool :=
  char.isAlphanum || ['-', '_', '.', '@', '/'].contains char

theorem isUnitPathChar_of_isUnitNameChar {char : Char} (h : isUnitNameChar char = true) :
    isUnitPathChar char = true := by
  simp only [isUnitNameChar, isUnitPathChar, Bool.or_eq_true, List.contains_eq_mem,
    decide_eq_true_eq] at h ⊢
  refine h.imp_right fun hmem => ?_
  have hsub : ['-', '_', '.', '@'] ⊆ ['-', '_', '.', '@', '/'] := by decide
  exact hsub hmem

theorem unitStem_subset (unitName : String) : (unitStem unitName).toList ⊆ unitName.toList := by
  rw [unitStem]
  split
  · rw [String.toList_ofList]
    exact (List.take_prefix _ _).subset
  · exact List.Subset.refl _

/-- The characters of the names of units and of their environment files. -/
theorem isUnitPathChar_envRelative {unitName : String}
    (h : ∀ char ∈ unitName.toList, isUnitNameChar char = true) :
    ∀ char ∈ (envRelative unitName).toList, isUnitPathChar char = true := by
  delta envRelative unitEnvFileName
  rw [String.toList_append, String.toList_append, List.forall_mem_append, List.forall_mem_append]
  refine ⟨List.all_eq_true.mp (by decide), fun char hchar => ?_, List.all_eq_true.mp (by decide)⟩
  exact isUnitPathChar_of_isUnitNameChar (h char (unitStem_subset unitName hchar))

theorem isUnitNameChar_blueGreenUnitName {unitName : String}
    (h : ∀ char ∈ unitName.toList, isUnitNameChar char = true) (slot : Slot) :
    ∀ char ∈ (blueGreenUnitName unitName slot.name).toList, isUnitNameChar char = true := by
  rw [blueGreenUnitName, String.toList_append, List.forall_mem_append]
  refine ⟨fun char hchar => h char (unitStem_subset unitName hchar), ?_⟩
  cases slot <;> exact List.all_eq_true.mp (by decide)

/-- The digits of a port. -/
theorem isDigit_port {port : Int64} (h : 0 < port) :
    (toString port.toInt).toList ≠ [] ∧ ∀ char ∈ (toString port.toInt).toList, char.isDigit = true := by
  have hpositive : 0 ≤ port.toInt := by
    have hlt := Int64.lt_iff_toInt_lt.mp h
    have hzero : (0 : Int64).toInt = 0 := rfl
    omega
  obtain ⟨number, hnumber⟩ := Int.eq_ofNat_of_zero_le hpositive
  have htext : (toString port.toInt).toList = Nat.toDigits 10 number := by
    rw [hnumber]
    exact Nat.toList_repr
  rw [htext]
  exact ⟨Nat.toDigits_ne_nil, fun char hchar =>
    Nat.isDigit_of_mem_toDigits (by decide) (by decide) hchar⟩

/-- What the command ends in. -/
def commandEnd (executablePath execArgs : String) : String :=
  if Blank execArgs then executablePath else trim execArgs

theorem endsEscaped_execStart (executablePath execArgs : String) :
    UnitFile.endsEscaped (execStart executablePath execArgs).toList =
      UnitFile.endsEscaped (commandEnd executablePath execArgs).toList := by
  have hblank : " ".toList = [' '] := rfl
  rw [execStart, commandEnd]
  split
  · rfl
  · rw [String.toList_append, String.toList_append, hblank, List.append_assoc,
      List.singleton_append, UnitFile.endsEscaped_append_cons (by decide)]

theorem onOneLine_execStart {executablePath execArgs : String}
    (hpath : UnitFile.OnOneLine executablePath.toList) (hargs : UnitFile.OnOneLine execArgs.toList) :
    UnitFile.OnOneLine (execStart executablePath execArgs).toList := by
  have hblank : UnitFile.OnOneLine " ".toList := by decide
  rw [execStart]
  split
  · exact hpath
  · rw [String.toList_append, String.toList_append, toList_trim]
    refine (hpath.append hblank).append (hargs.of_subset fun char hchar => ?_)
    exact (List.dropWhile_suffix _).subset ((List.rdropWhile_prefix _ _).subset hchar)

theorem portVariable_eq : portVariable = "$\x7bPORT".toList ++ ['\x7d'] := by decide

theorem fits_portVariable : UnitFile.Fits portVariable := by decide

theorem endsEscaped_replaceText {digits : List Char} (hne : digits ≠ [])
    (hdigits : ∀ char ∈ digits, char.isDigit = true) (text : List Char) :
    UnitFile.endsEscaped (replaceText digits portVariable text) = UnitFile.endsEscaped text := by
  obtain ⟨init, last, rfl⟩ : ∃ init last, digits = init ++ [last] :=
    ⟨digits.dropLast, digits.getLast hne, (List.dropLast_append_getLast hne).symm⟩
  have hlast : (last == '\\') = false := by
    apply beq_eq_false_iff_ne.mpr
    rintro rfl
    exact absurd (hdigits '\\' (List.mem_append_right init List.mem_cons_self)) (by decide)
  rw [UnitFile.endsEscaped, portVariable_eq,
    @rtakeWhile_replaceText (· == '\\') init _ last '\x7d' hlast rfl, UnitFile.endsEscaped]

theorem onOneLine_replaceText {digits text : List Char} (hne : digits ≠ [])
    (h : UnitFile.OnOneLine text) : UnitFile.OnOneLine (replaceText digits portVariable text) := by
  intro char hchar
  rcases mem_replaceText hne hchar with htext | hnew
  · exact h char htext
  · exact fits_portVariable.1 char hnew

/-- What the loop makes of an argument. -/
theorem replacePortInParts_concat (digits : List Char) (flag : Bool) (words : List (List Char))
    (last : List Char) : ∃ words' last', replacePortInParts digits flag (words ++ [last]) =
      words' ++ [last'] ∧ (last' = portVariable ∨ last' = last ∨
        last' = replaceText digits portVariable last) := by
  induction words generalizing flag with
  | nil =>
      refine ⟨[], _, rfl, ?_⟩
      split
      · exact Or.inl rfl
      · split
        · exact Or.inr (Or.inr rfl)
        · exact Or.inr (Or.inl rfl)
  | cons word rest ih =>
      obtain ⟨words', last', hwords, hlast⟩ := ih (word == "--port".toList || word == "-p".toList)
      rw [List.cons_append, replacePortInParts, hwords]
      exact ⟨_ :: words', last', rfl, hlast⟩

theorem isWord_replacePortInParts {digits : List Char} (hne : digits ≠ []) {flag : Bool}
    {words : List (List Char)} (h : ∀ word ∈ words, IsWord word) :
    ∀ word ∈ replacePortInParts digits flag words, IsWord word := by
  have hvariable : IsWord portVariable := by
    have hall : portVariable.all (fun char => !isWhitespace char) = true := by decide
    refine ⟨by decide, fun char hchar => ?_⟩
    exact (Bool.not_eq_true' _).mp (List.all_eq_true.mp hall char hchar)
  have hreplaced : ∀ word, IsWord word → IsWord (replaceText digits portVariable word) := by
    intro word hword
    refine ⟨replaceText_ne_nil hne hvariable.1 hword.1, fun char hchar => ?_⟩
    rcases mem_replaceText hne hchar with htext | hnew
    · exact hword.2 char htext
    · exact hvariable.2 char hnew
  induction words generalizing flag with
  | nil => exact fun word hword => absurd hword List.not_mem_nil
  | cons word rest ih =>
      obtain ⟨hword, hrest⟩ := List.forall_mem_cons.mp h
      rw [replacePortInParts]
      refine List.forall_mem_cons.mpr ⟨?_, ih hrest⟩
      split
      · exact hvariable
      · split
        · exact hreplaced word hword
        · exact hword

theorem onOneLine_replacePortInParts {digits : List Char} (hne : digits ≠ []) {flag : Bool}
    {words : List (List Char)} (h : ∀ word ∈ words, UnitFile.OnOneLine word) :
    ∀ word ∈ replacePortInParts digits flag words, UnitFile.OnOneLine word := by
  induction words generalizing flag with
  | nil => exact fun word hword => absurd hword List.not_mem_nil
  | cons word rest ih =>
      obtain ⟨hword, hrest⟩ := List.forall_mem_cons.mp h
      rw [replacePortInParts]
      refine List.forall_mem_cons.mpr ⟨?_, ih hrest⟩
      split
      · exact fits_portVariable.1
      · split
        · exact onOneLine_replaceText hne hword
        · exact hword

theorem endsEscaped_append_of_blank {before : List Char} (h : before = [] ∨
    ∃ front blank, before = front ++ [blank] ∧ isWhitespace blank = true) (word : List Char) :
    UnitFile.endsEscaped (before ++ word) = UnitFile.endsEscaped word := by
  rcases h with rfl | ⟨front, blank, rfl, hblank⟩
  · rfl
  · have hne : blank ≠ '\\' := by
      rintro rfl
      exact absurd hblank (by decide)
    rw [List.append_assoc, List.singleton_append, UnitFile.endsEscaped_append_cons hne]

/-- The command of a slot stays on its line if the one of the application does. -/
theorem slotExecStart_stays {artifactPath execArgs : String} (port : Int64)
    (hpath : UnitFile.OnOneLine artifactPath.toList) (hargs : UnitFile.OnOneLine execArgs.toList)
    (htrim : trim execArgs = execArgs)
    (hend : UnitFile.endsEscaped (commandEnd artifactPath execArgs).toList = false) :
    UnitFile.OnOneLine (slotExecStart artifactPath execArgs port).1.toList ∧
      UnitFile.OnOneLine (slotExecStart artifactPath execArgs port).2.toList ∧
      UnitFile.endsEscaped (commandEnd (slotExecStart artifactPath execArgs port).1
        (slotExecStart artifactPath execArgs port).2).toList = false := by
  by_cases hport : port ≤ 0
  · rw [slotExecStart, if_pos hport]
    exact ⟨hpath, hargs, hend⟩
  rw [slotExecStart, if_neg hport]
  obtain ⟨hne, hdigits⟩ := isDigit_port (Int64.not_le.mp hport)
  refine ⟨?_, ?_, ?_⟩
  · rw [String.toList_ofList]
    exact onOneLine_replaceText hne hpath
  · rw [replacePortInArgs, String.toList_ofList]
    intro char hchar
    rcases mem_joinWords hchar with rfl | ⟨word, hword, hchar⟩
    · rfl
    · exact onOneLine_replacePortInParts hne (fun word hword char hchar =>
        hargs char (mem_of_mem_splitWhitespace hword hchar)) word hword char hchar
  · have hwords : ∀ word ∈ replacePortInParts (toString port.toInt).toList false
        (splitWhitespace execArgs.toList), IsWord word :=
      isWord_replacePortInParts hne fun word hword => isWord_of_mem_splitWhitespace hword
    have hempty : splitWhitespace [] = [] := rfl
    by_cases hblank : execArgs = ""
    · have hnone : replacePortInArgs execArgs port = "" := by
        rw [hblank]
        rfl
      rw [commandEnd, if_pos (show Blank execArgs by rw [hblank]; rfl)] at hend
      rw [hnone, commandEnd, if_pos (show Blank "" from rfl), String.toList_ofList,
        endsEscaped_replaceText hne hdigits, hend]
    · have hnotBlank : ¬Blank execArgs := by rwa [Blank, htrim]
      rw [commandEnd, if_neg hnotBlank, htrim] at hend
      have hnil : execArgs.toList ≠ [] := fun hnil => hblank (String.toList_inj.mp hnil)
      have hlast := List.getLast?_eq_getLast_of_ne_nil hnil
      obtain ⟨before, word, htext, hsplit, hbefore⟩ := last_word hlast
        ((trim_eq_self_iff.mp htrim).2 _ hlast)
      rw [htext, endsEscaped_append_of_blank hbefore] at hend
      obtain ⟨words', last', hparts, hchoice⟩ := replacePortInParts_concat
        (toString port.toInt).toList false (splitWhitespace before) word
      rw [← hsplit] at hparts
      rw [hparts] at hwords
      obtain ⟨front, hjoin, hfront⟩ := joinWords_concat words' last'
      have hjoined : replacePortInArgs execArgs port = String.ofList (joinWords (words' ++ [last'])) := by
        rw [replacePortInArgs, hparts]
      have hlast' : UnitFile.endsEscaped last' = false := by
        rcases hchoice with rfl | rfl | rfl
        · exact fits_portVariable.2
        · exact hend
        · rw [endsEscaped_replaceText hne hdigits, hend]
      have hsome : ¬Blank (String.ofList (joinWords (words' ++ [last']))) := by
        rw [Blank, trim_joinWords hwords]
        intro hnil
        have hnone := (joinWords_eq_nil hwords).mp (String.ofList_eq_empty_iff.mp hnil)
        exact absurd hnone (List.append_ne_nil_of_right_ne_nil _ (by simp))
      have hkept : UnitFile.endsEscaped (front ++ last') = UnitFile.endsEscaped last' := by
        apply endsEscaped_append_of_blank
        rcases hfront with hnil | ⟨init, hinit⟩
        · exact .inl hnil
        · exact .inr ⟨init, ' ', hinit, rfl⟩
      rw [hjoined, commandEnd, if_neg hsome, trim_joinWords hwords, String.toList_ofList, hjoin,
        hkept, hlast']

/-- What a unit is to say. -/
def intendedItems (config : BinaryRuntimeConfig) (slot : Option Slot) : List Item :=
  (config.values slot).entries.filterMap Entry.item?

/-- The values of a configuration stay on their lines. -/
structure StaysOnLines (name : String) (config : BinaryConfigItem) : Prop where
  name : UnitFile.OnOneLine name.toList
  working_dir : UnitFile.OnOneLine config.workingDir.toList
  artifact_path : UnitFile.OnOneLine config.artifactPath.toList
  exec_args : UnitFile.OnOneLine config.execArgs.toList
  command_end : UnitFile.endsEscaped (if config.execArgs = "" then config.artifactPath
    else config.execArgs).toList = false

theorem toList_unitContent (config : BinaryRuntimeConfig) (slot : Option Slot) :
    (unitContent config slot).toList =
      UnitFile.render ((config.values slot).entries.map Entry.line) := by
  cases slot with
  | none => exact toList_renderSystemdUnitContent ..
  | some slot => exact toList_renderSystemdUnitContent ..

theorem validateKey_eq_ok {key : String} (h : validateKey key = .ok ()) :
    ∀ char ∈ key.toList, isUnitNameChar char = true := by
  unfold validateKey at h
  split at h
  · rename_i hvalid
    intro char hchar
    have hall := List.all_eq_true.mp hvalid.2 char hchar
    simp only [Bool.or_eq_true, beq_iff_eq] at hall
    rcases hall with (halnum | rfl) | rfl
    · rw [isUnitNameChar, halnum, Bool.true_or]
    · rfl
    · rfl
  · cases h

section Fits

variable {config : BinaryRuntimeConfig}

theorem fits_description (hkey : ∀ char ∈ config.appKey.toList, isUnitNameChar char = true)
    (hname : UnitFile.OnOneLine config.name.toList) {slot : String}
    (hslot : slot ∈ ["", "blue", "green"]) :
    UnitFile.Fits ("Easy Deploy " ++ config.name ++ " (" ++ config.appKey ++ ")" ++
      (if slot = "" then "" else " " ++ slot)).toList := by
  have hchars : ['\n', '\r', '\x00', '\\'].all (fun char => !isUnitNameChar char) = true := by decide
  have hend : UnitFile.Fits (if slot = "" then "" else " " ++ slot).toList := by
    rcases List.mem_cons.mp hslot with rfl | hslot
    · decide
    · rcases List.mem_cons.mp hslot with rfl | hslot
      · decide
      · rw [List.mem_singleton.mp hslot]
        decide
  have hparen : ")".toList = [')'] := rfl
  simp only [String.toList_append]
  constructor
  · have hfront : UnitFile.OnOneLine "Easy Deploy ".toList := by decide
    have hopen : UnitFile.OnOneLine " (".toList := by decide
    exact ((((hfront.append hname).append hopen).append
      (UnitFile.fits_of_all hchars hkey).1).append (by decide)).append hend.1
  · rw [hparen, List.append_assoc _ [')'], List.singleton_append,
      UnitFile.endsEscaped_append_cons (by decide), hend.2]

theorem fits_unitValues (hkey : ∀ char ∈ config.appKey.toList, isUnitNameChar char = true)
    (hname : UnitFile.OnOneLine config.name.toList)
    (hdir : UnitFile.OnOneLine config.workingDir.toList)
    (huser : ∀ char ∈ config.serviceUser.toList, isUnitNameChar char = true) {slot : String}
    (hslot : slot ∈ ["", "blue", "green"]) {envRelative : String}
    (henv : ∀ char ∈ envRelative.toList, isUnitPathChar char = true)
    (executablePath execArgs : String) (port : Int64) :
    (unitValues config slot envRelative executablePath execArgs port).Fits := by
  have hchars : ['\n', '\r', '\x00', '\\'].all (fun char => !isUnitNameChar char) = true := by decide
  have hpathChars : ['\n', '\r', '\x00', '\\'].all (fun char => !isUnitPathChar char) = true := by
    decide
  have hdigits : ['\n', '\r', '\x00', '\\'].all (fun char => !char.isDigit) = true := by decide
  constructor
  · exact fits_description hkey hname hslot
  · exact ⟨onOneLine_forwardSlashes.mpr hdir,
      UnitFile.endsEscaped_of_not_mem (not_mem_forwardSlashes _)⟩
  · have hpath := fits_targetPath hdir (UnitFile.fits_of_all hpathChars henv)
    have hdash : "-".toList = [] ++ ['-'] := rfl
    show UnitFile.Fits ("-" ++ targetPath config.workingDir envRelative).toList
    rw [String.toList_append]
    refine ⟨UnitFile.OnOneLine.append (by decide) hpath.1, ?_⟩
    rw [hdash, List.append_assoc, List.singleton_append,
      UnitFile.endsEscaped_append_cons (by decide), hpath.2]
  · intro text htext
    have hsome : (if 0 < port then some (toString port.toInt) else none) = some text := htext
    obtain ⟨hport, rfl⟩ : 0 < port ∧ toString port.toInt = text := by
      rw [Option.ite_none_right_eq_some] at hsome
      exact ⟨hsome.1, Option.some.inj hsome.2⟩
    have hport := UnitFile.fits_of_all hdigits (isDigit_port hport).2
    have hequals : "PORT=".toList = "PORT".toList ++ ['='] := by decide
    rw [String.toList_append]
    refine ⟨UnitFile.OnOneLine.append (by decide) hport.1, ?_⟩
    rw [hequals, List.append_assoc, List.singleton_append,
      UnitFile.endsEscaped_append_cons (by decide), hport.2]
  · exact UnitFile.fits_of_all hchars huser

end Fits

section Units

variable {appKey name : String} {config : BinaryConfigItem}

theorem fits_values (hkey : validateKey appKey = .ok ()) (hconfig : Accepted config)
    (hname : UnitFile.OnOneLine name.toList) (hdir : UnitFile.OnOneLine config.workingDir.toList)
    (slot : Option Slot) : ((binaryRuntimeConfig appKey name config).values slot).Fits := by
  have huser : ∀ char ∈ config.serviceUser.toList, isUnitNameChar char = true := by
    intro char hchar
    have hall := hconfig.service_user.2 char hchar
    simp only [Bool.or_eq_true, beq_iff_eq] at hall
    rcases hall with (halnum | rfl) | rfl
    · rw [isUnitNameChar, halnum, Bool.true_or]
    · rfl
    · rfl
  have hunit : ∀ char ∈ config.unitName.toList, isUnitNameChar char = true := hconfig.unit_name
  cases slot with
  | none =>
      have henv := isUnitPathChar_envRelative hunit
      have hslot : "" ∈ ["", "blue", "green"] := by decide
      exact @fits_unitValues (binaryRuntimeConfig appKey name config) (validateKey_eq_ok hkey) hname
        hdir huser "" hslot (envRelative config.unitName) henv config.artifactPath config.execArgs 0
  | some slot =>
      have hslot : slot.name ∈ ["", "blue", "green"] := by cases slot <;> decide
      have henv := isUnitPathChar_envRelative (isUnitNameChar_blueGreenUnitName hunit slot)
      exact @fits_unitValues (binaryRuntimeConfig appKey name config) (validateKey_eq_ok hkey) hname
        hdir huser slot.name hslot (envRelative (blueGreenUnitName config.unitName slot.name)) henv
        ((binaryRuntimeConfig appKey name config).slotCommand slot).1
        ((binaryRuntimeConfig appKey name config).slotCommand slot).2
        ((binaryRuntimeConfig appKey name config).slotPort slot)

/-- A value of a directive that is read, where nothing is stripped. -/
theorem onOneLine_of_read {values : UnitValues} {text : List Char}
    (hread : UnitFile.read text = values.entries.filterMap Entry.item?) {key value : String}
    (h : entry key value ∈ values.entries) :
    UnitFile.OnOneLine (UnitFile.strip value.toList) := by
  have hitem : .directive key.toList (UnitFile.strip value.toList) ∈ UnitFile.read text := by
    rw [hread]
    exact List.mem_filterMap.mpr ⟨entry key value, h, rfl⟩
  exact UnitFile.onOneLine_of_mem_read hitem

theorem isBlank_eq_false {char : Char} (h : isWhitespace char = false) :
    UnitFile.isBlank char = false := by
  apply Bool.eq_false_iff.mpr
  intro hblank
  simp only [UnitFile.isBlank, Bool.or_eq_true, beq_iff_eq] at hblank
  rcases hblank with ((rfl | rfl) | rfl) | rfl <;> exact absurd h (by decide)

theorem strip_trimmed {text : String} (h : trim text = text) :
    UnitFile.strip text.toList = text.toList := by
  obtain ⟨hhead, hlast⟩ := trim_eq_self_iff.mp h
  exact UnitFile.strip_eq_self (fun char hchar => isBlank_eq_false (hhead char hchar))
    fun char hchar => isBlank_eq_false (hlast char hchar)

theorem trim_forwardSlashes {path : String} (h : trim path = path) :
    trim (forwardSlashes path) = forwardSlashes path := by
  have hslash : ∀ {char : Char}, isWhitespace char = false →
      isWhitespace (if char = '\\' then '/' else char) = false := by
    intro char hchar
    split
    · rfl
    · exact hchar
  obtain ⟨hhead, hlast⟩ := trim_eq_self_iff.mp h
  rw [trim_eq_self_iff, toList_forwardSlashes, List.head?_map, List.getLast?_map]
  constructor
  · intro char hchar
    obtain ⟨first, hfirst, rfl⟩ := Option.map_eq_some_iff.mp hchar
    exact hslash (hhead first hfirst)
  · intro char hchar
    obtain ⟨last, hend, rfl⟩ := Option.map_eq_some_iff.mp hchar
    exact hslash (hlast last hend)

theorem commandEnd_eq {executablePath execArgs : String} (h : trim execArgs = execArgs) :
    commandEnd executablePath execArgs = if execArgs = "" then executablePath else execArgs := by
  rw [commandEnd, h]
  exact if_congr (by rw [Blank, h]) rfl rfl

/-- Nothing of the command is stripped but the blank before the arguments. -/
theorem subset_strip_execStart {executablePath execArgs : String}
    (hpath : trim executablePath = executablePath) (hargs : trim execArgs = execArgs) :
    executablePath.toList ⊆ UnitFile.strip (execStart executablePath execArgs).toList ∧
      execArgs.toList ⊆ UnitFile.strip (execStart executablePath execArgs).toList := by
  have hblank : " ".toList = [' '] := rfl
  rw [execStart]
  split
  · rename_i hnone
    have hempty : execArgs = "" := hargs.symm.trans hnone
    rw [strip_trimmed hpath, hempty]
    exact ⟨List.Subset.refl _, List.nil_subset _⟩
  · rename_i hsome
    rw [hargs, String.toList_append, String.toList_append, hblank, List.append_assoc,
      List.singleton_append]
    cases hlist : executablePath.toList with
    | nil =>
        have hstrip : UnitFile.strip ([] ++ ' ' :: execArgs.toList) =
            UnitFile.strip execArgs.toList := rfl
        rw [hstrip, strip_trimmed hargs]
        exact ⟨List.nil_subset _, List.Subset.refl _⟩
    | cons first rest =>
        have hne : execArgs.toList ≠ [] := by
          intro hnil
          apply hsome
          rw [Blank, hargs]
          exact String.toList_inj.mp hnil
        have hself : UnitFile.strip (first :: rest ++ ' ' :: execArgs.toList) =
            first :: rest ++ ' ' :: execArgs.toList := by
          apply UnitFile.strip_eq_self
          · intro char hchar
            apply isBlank_eq_false
            exact (trim_eq_self_iff.mp hpath).1 char (by rw [hlist]; exact hchar)
          · intro char hchar
            apply isBlank_eq_false
            apply (trim_eq_self_iff.mp hargs).2 char
            rwa [List.getLast?_append_cons, List.getLast?_cons_of_ne_nil hne] at hchar
        rw [hself]
        exact ⟨List.subset_append_left _ _,
          List.subset_append_of_subset_right _ (List.subset_cons_self _ _)⟩

theorem staysOnLines_of_read (hkey : validateKey appKey = .ok ()) (hconfig : Accepted config)
    (hread : UnitFile.read (unitContent (binaryRuntimeConfig appKey name config) none).toList =
      intendedItems (binaryRuntimeConfig appKey name config) none) :
    StaysOnLines name config := by
  obtain ⟨hpath, hargs⟩ := subset_strip_execStart hconfig.artifact_path hconfig.exec_args
  have hcommand := onOneLine_of_read hread (mem_entries_command _)
  rw [command_plain] at hcommand
  have hdir : UnitFile.OnOneLine config.workingDir.toList := by
    have hvalue := onOneLine_of_read hread (mem_entries_workingDir _)
    rw [workingDir_plain] at hvalue
    have hstrip := strip_trimmed (trim_forwardSlashes hconfig.working_dir)
    exact onOneLine_forwardSlashes.mp (hstrip ▸ hvalue)
  have hname : UnitFile.OnOneLine name.toList := by
    have hvalue := onOneLine_of_read hread (mem_entries_description _)
    rw [description_plain] at hvalue
    have hfirst : "Easy Deploy ".toList = 'E' :: "asy Deploy ".toList := by decide
    have hlast : ")".toList = [')'] := rfl
    have hend : "".toList = [] := rfl
    simp only [String.toList_append, hfirst, hlast, hend, List.append_nil, List.cons_append] at hvalue
    rw [UnitFile.strip_eq_self] at hvalue
    · refine hvalue.of_subset fun char hchar => ?_
      simp only [List.mem_cons, List.mem_append]
      exact Or.inr (Or.inl (Or.inl (Or.inl (Or.inr hchar))))
    · exact fun char hchar => Option.some.inj hchar ▸ rfl
    · intro char hchar
      rw [← List.cons_append, List.getLast?_concat] at hchar
      exact Option.some.inj hchar ▸ rfl
  refine ⟨hname, hdir, hcommand.of_subset hpath, hcommand.of_subset hargs, ?_⟩
  rw [toList_unitContent] at hread
  have hends := (read_values_iff (fits_values hkey hconfig hname hdir none)
    (by
      rw [command_plain]
      exact onOneLine_execStart (hcommand.of_subset hpath) (hcommand.of_subset hargs))).mp hread
  rw [command_plain] at hends
  have hcommandEnd := (endsEscaped_execStart config.artifactPath config.execArgs).symm.trans hends
  rwa [commandEnd_eq hconfig.exec_args] at hcommandEnd

/-- The units have exactly the directives of the template, each with the value of the configuration,
if the values stay on their lines. -/
theorem unit_directives_iff {workDir envContent : String} {input : BinaryConfigInput}
    (hkey : validateKey appKey = .ok ())
    (hconfig : normalizeBinaryConfig appKey workDir envContent input = .ok config) :
    (∀ slot, UnitFile.read (unitContent (binaryRuntimeConfig appKey name config) slot).toList =
      intendedItems (binaryRuntimeConfig appKey name config) slot) ↔ StaysOnLines name config := by
  have haccepted := accepted_of_normalizeBinaryConfig hconfig
  constructor
  · intro hread
    exact staysOnLines_of_read hkey haccepted (hread none)
  · intro h slot
    have hfits := @fits_values appKey name config hkey haccepted h.name h.working_dir slot
    have hend : UnitFile.endsEscaped (commandEnd config.artifactPath config.execArgs).toList =
        false := by
      rw [commandEnd_eq haccepted.exec_args]
      exact h.command_end
    rw [toList_unitContent, intendedItems]
    cases slot with
    | none =>
        refine (read_values_iff hfits ?_).mpr ?_
        · rw [command_plain]
          exact onOneLine_execStart h.artifact_path h.exec_args
        · rw [command_plain]
          exact (endsEscaped_execStart _ _).trans hend
    | some slot =>
        obtain ⟨hpath, hargs, hslot⟩ := slotExecStart_stays
          ((binaryRuntimeConfig appKey name config).templatePort slot) h.artifact_path h.exec_args
          haccepted.exec_args hend
        refine (read_values_iff hfits ?_).mpr ?_
        · rw [command_slot]
          exact onOneLine_execStart hpath hargs
        · rw [command_slot]
          exact (endsEscaped_execStart _ _).trans hslot

end Units

namespace Orders

def input (execArgs : String) : BinaryConfigInput :=
  { artifactVersion := "v1", artifactPath := "/opt/orders", execArgs, serviceUser := ""
    unitName := "", releaseStrategy := "blue_green", activeSlot := "", basePort := 80
    standbyPort := 81, proxyEnabled := false, proxyKind := "", proxyDomain := ""
    proxyConfigPath := "" }

def config (execArgs : String) : BinaryConfigItem :=
  { serviceName := "orders", artifactVersion := "v1", artifactPath := "/opt/orders", execArgs
    workingDir := "/srv", serviceUser := "deploy", unitName := "easy-deploy-orders.service"
    releaseStrategy := "blue_green", activeSlot := "blue", basePort := 80, standbyPort := 81
    proxyEnabled := 0, proxyKind := "none", proxyDomain := "", proxyConfigPath := ""
    envContent := "" }

end Orders

/-- A unit for orders with two arguments. -/
theorem unit_directives_iff_orders : StaysOnLines "Orders" (Orders.config "-p 80") ∧ ∀ slot,
    UnitFile.read (unitContent (binaryRuntimeConfig "orders" "Orders" (Orders.config "-p 80"))
      slot).toList =
      intendedItems (binaryRuntimeConfig "orders" "Orders" (Orders.config "-p 80")) slot := by
  have hlines : StaysOnLines "Orders" (Orders.config "-p 80") :=
    ⟨by decide, by decide, by decide, by decide, by decide⟩
  exact ⟨hlines, (@unit_directives_iff "orders" "Orders" (Orders.config "-p 80") "/srv" ""
    (Orders.input "-p 80") (by decide) (by decide)).mpr hlines⟩

/-- Behind a line end the arguments go on as a directive of the unit. -/
theorem arguments_as_directive :
    requiredText "Orders" "" = .ok "Orders" ∧ validateKey "orders" = .ok () ∧
      normalizeBinaryConfig "orders" "/srv" "" (Orders.input "-p 80\nUser=root") =
        .ok (Orders.config "-p 80\nUser=root") ∧
      ¬∀ slot, UnitFile.read (unitContent (binaryRuntimeConfig "orders" "Orders"
        (Orders.config "-p 80\nUser=root")) slot).toList =
        intendedItems (binaryRuntimeConfig "orders" "Orders" (Orders.config "-p 80\nUser=root"))
          slot := by
  refine ⟨by decide, by decide, by decide, fun hread => ?_⟩
  have haccepted : Accepted (Orders.config "-p 80\nUser=root") :=
    @accepted_of_normalizeBinaryConfig "orders" "/srv" "" (Orders.input "-p 80\nUser=root") _
      (by decide)
  have hlines := staysOnLines_of_read (by decide) haccepted (hread none)
  exact absurd hlines.exec_args (by decide)

end EasyDeploy.RuntimeFs
