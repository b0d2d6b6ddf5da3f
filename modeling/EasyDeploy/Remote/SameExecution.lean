import EasyDeploy.Remote.Agreement

/-!
# Remote execution is local execution

The commands that reach a node as they are given, and that no others do.
-/

namespace EasyDeploy.Remote
open Foundation Shell

variable {executor : SshExecutor} {target : SshTarget} {host : Host} {history : List Run}
  {command : NodeCommand} {args : List String}

/-- The values that programs take as operands. -/
def NodeCommand.givenOperands : NodeCommand → List String
  | .mkdirAll path => [path]
  | .copyFile localPath _ => [localPath]
  | .compose _ _ => []
  | .runScript _ _ _ => []
  | .httpHealthCheck endpoint _ => [trim endpoint]
  | .tcpHealthCheck endpoint _ =>
      (rsplitColon (trim endpoint).toList).toList.map fun split => String.ofList split.1

/-- The node runs the program that the command stands for, and no value is an option. -/
def SameExecution (executor : SshExecutor) (target : SshTarget) (command : NodeCommand) : Prop :=
  (∀ operand ∈ command.givenOperands, startsWithDash operand = false) ∧
    ∀ host history outcome, command.localOutcome host history = some outcome →
      command.remoteOutcome executor target host history = some outcome

/-- The same of a command that is sent to a known host. -/
def SameSent (executor : SshExecutor) (target : SshTarget) (command : NodeCommand) : Prop :=
  (∀ operand ∈ command.givenOperands, startsWithDash operand = false) ∧
    ∀ host history outcome, command.localOutcome host history = some outcome →
      command.sentOutcome executor target host history = some outcome

/-- A word that is neither an option nor changed by the shell. -/
def isOperandWord (word : List Char) : Bool := isLiteralWord word && word.head? != some '-'

/-- A path that the checks leave as it is. -/
def isNormalized (path : String) : Bool :=
  (normalizeRemoteAbsolutePath path).toOption == some path

/-- The key of the node is known, or its address is not read as an option when it is asked for. -/
def SshExecutor.finds (executor : SshExecutor) (target : SshTarget) : Bool :=
  executor.knownHostsFile.all fun file =>
    file.entries.contains target.lookupKey || !startsWithDash target.address

/-- No value means anything to a client, a shell or a program, and no script is run. -/
def NodeCommand.transparent (target : SshTarget) : NodeCommand → Bool
  | .mkdirAll path => !startsWithDash target.user && isNormalized path
  | .copyFile localPath remotePath =>
      !startsWithDash localPath && !isRemoteOperand localPath && isNormalized remotePath
  | .compose _ workDir => !startsWithDash target.user && isNormalized workDir
  | .runScript _ _ _ => false
  | .httpHealthCheck endpoint _ =>
      !startsWithDash target.user && isOperandWord (trim endpoint).toList
  | .tcpHealthCheck endpoint _ =>
      !startsWithDash target.user &&
        (rsplitColon (trim endpoint).toList).any fun split => isOperandWord split.1

/-- A normalized path is one that the check returns as it is. -/
theorem isNormalized_iff {path : String} :
    isNormalized path = true ↔ normalizeRemoteAbsolutePath path = .ok path := by
  rw [isNormalized, beq_iff_eq]
  cases normalizeRemoteAbsolutePath path with
  | error error => simp [Except.toOption]
  | ok other => simp [Except.toOption]

/-- An operand is a literal word that is not read as an option. -/
theorem isOperandWord_iff {word : List Char} :
    isOperandWord word = true ↔ isLiteralWord word = true ∧ word.head? ≠ some '-' := by
  rw [isOperandWord, Bool.and_eq_true, bne_iff_ne]

theorem ne_empty_of_isNormalized {path : String} (h : isNormalized path = true) : path ≠ "" := by
  rintro rfl
  revert h
  decide

/-- A normalized path is absolute and literal. -/
theorem slash_of_isNormalized {path : String} (h : isNormalized path = true) :
    isLiteralWord path.toList = true ∧ path.toList.head? = some '/' := by
  have hne := ne_empty_of_isNormalized h
  obtain ⟨hliteral, hslash⟩ := normalizeRemoteAbsolutePath_eq_ok (isNormalized_iff.mp h)
  refine ⟨isLiteralWord_of_all ?_ hliteral, hslash.resolve_left hne⟩
  intro heq
  exact hne (String.toList_inj.mp heq)

/-- Timeouts are between 1 and 60. -/
theorem isLiteralWord_clampTimeout (timeoutSecs : Nat) :
    isLiteralWord (toString (clampTimeout timeoutSecs)).toList = true := by
  have hall : ∀ seconds : Fin 61, isLiteralWord (toString seconds.val).toList = true := by
    decide
  have hlt : clampTimeout timeoutSecs < 61 := by
    unfold clampTimeout
    omega
  exact hall ⟨clampTimeout timeoutSecs, hlt⟩

/-- The arguments of `curl` are literal. -/
theorem isLiteralWord_curlArgs {timeoutSecs : Nat} :
    ∀ word ∈ curlArgs timeoutSecs, isLiteralWord word.toList = true := by
  intro word hword
  simp only [curlArgs, List.mem_cons, List.not_mem_nil, or_false] at hword
  rcases hword with rfl | rfl | rfl | rfl | rfl | rfl | rfl | rfl | rfl | rfl | rfl
  all_goals first | decide | exact isLiteralWord_clampTimeout timeoutSecs

/-- The arguments of `nc` are literal. -/
theorem isLiteralWord_ncArgs {timeoutSecs : Nat} :
    ∀ word ∈ ncArgs timeoutSecs, isLiteralWord word.toList = true := by
  intro word hword
  simp only [ncArgs, List.mem_cons, List.not_mem_nil, or_false] at hword
  rcases hword with rfl | rfl | rfl | rfl
  all_goals first | decide | exact isLiteralWord_clampTimeout timeoutSecs

/-- The arguments of `docker compose` are literal. -/
theorem isLiteralWord_composeArgs (action : ComposeAction) :
    ∀ word ∈ "docker" :: "compose" :: action.args, isLiteralWord word.toList = true := by
  cases action <;> decide

/-- A name that is no builtin is run as a program. -/
theorem isProgram_of_head {name : String} {words : List String} (hname : isName name = true)
    (hcd : name ≠ "cd") (hsh : name ≠ "sh") : isProgram (name :: words) = true := by
  rw [isProgram, Bool.and_eq_true, Bool.and_eq_true, bne_iff_ne, bne_iff_ne]
  refine ⟨⟨hname, ?_⟩, ?_⟩
  · intro heq
    exact hcd (Option.some.inj heq)
  · intro heq
    cases words with
    | nil => cases heq
    | cons word words => exact hsh (List.cons.inj heq).1

/-- The words that `ssh` hands to the shell of the node. -/
theorem sentOutcome_ssh (huser : target.user ≠ "") (hargs : command.remoteArgs = .ok args)
    (hcopy : ∀ localPath remotePath, command ≠ .copyFile localPath remotePath)
    (hhead : args.head?.any startsWithDash = false) :
    command.sentOutcome executor target host history =
      if startsWithDash target.user then none
      else runLine 2 host history host.home (join (args.map String.toList)) := by
  have hsent : command.sentOutcome executor target host history =
      (sshCommand (runSshArgs executor target args)).bind fun sent =>
        if sent.1 = target.destination then
          runLine 2 host history host.home (join (sent.2.map String.toList))
        else none := by
    unfold NodeCommand.sentOutcome
    rw [hargs]
    cases command with
    | copyFile localPath remotePath => exact absurd rfl (hcopy localPath remotePath)
    | _ => rfl
  rw [hsent, sshCommand_runSshArgs huser hhead]
  by_cases hdash : startsWithDash target.user = true
  · rw [if_pos hdash, if_pos hdash]
    rfl
  · rw [if_neg hdash, if_neg hdash, Option.bind_some, if_pos rfl]

/-- A host on which every directory exists and every program succeeds. -/
def willingHost (home : String) : Host := ⟨home, fun _ _ => true, fun _ _ => true⟩

/-- What the same execution says on a willing host. -/
theorem SameSent.willing {run : Run} {home : String}
    (h : SameSent executor target command) (hrun : command.localRun home = .ok run) :
    command.sentOutcome executor target (willingHost home) [] = some ([run], true) := by
  apply h.2
  unfold NodeCommand.localOutcome
  have hhome : command.localRun (willingHost home).home = .ok run := hrun
  rw [hhome]
  rfl

/-- A local command has run in a directory that is there. -/
theorem exists_run_of_localOutcome {outcome : Outcome}
    (h : command.localOutcome host history = some outcome) :
    ∃ run, command.localRun host.home = .ok run ∧ host.isDir history run.cwd = true ∧
      outcome = (history ++ [run], host.succeeds history run) := by
  unfold NodeCommand.localOutcome at h
  cases hrun : command.localRun host.home with
  | error error =>
      rw [hrun] at h
      cases h
  | ok run =>
      simp only [hrun] at h
      split at h
      · rename_i hdir
        exact ⟨run, rfl, hdir, (Option.some.inj h).symm⟩
      · cases h

/-- A node that starts in `""` runs the words exactly when no option and no syntax is in them. -/
theorem same_words {words : List String} (huser : target.user ≠ "")
    (hargs : command.remoteArgs = .ok words)
    (hcopy : ∀ localPath remotePath, command ≠ .copyFile localPath remotePath)
    (hhead : words.head?.any startsWithDash = false) (hprogram : isProgram words = true)
    (hlocal : ∀ home, command.localRun home = .ok ⟨home, words⟩)
    (hdash : startsWithDash target.user = false)
    (hwords : ∀ word ∈ words, isLiteralWord word.toList = true) :
    ∀ host history outcome, command.localOutcome host history = some outcome →
      command.sentOutcome executor target host history = some outcome := by
  intro host history outcome houtcome
  obtain ⟨run, hrun, -, rfl⟩ := exists_run_of_localOutcome houtcome
  obtain rfl := Except.ok.inj ((hlocal host.home).symm.trans hrun)
  rw [sentOutcome_ssh huser hargs hcopy hhead, hdash, if_neg Bool.false_ne_true]
  exact runLine_words hwords hprogram

/-- What the same execution says of the line for the shell. -/
theorem SameSent.line {run : Run} {home : String} (huser : target.user ≠ "")
    (hargs : command.remoteArgs = .ok args)
    (hcopy : ∀ localPath remotePath, command ≠ .copyFile localPath remotePath)
    (hhead : args.head?.any startsWithDash = false)
    (h : SameSent executor target command) (hrun : command.localRun home = .ok run) :
    startsWithDash target.user = false ∧
      runLine 2 (willingHost home) [] home (join (args.map String.toList)) = some ([run], true) := by
  have hwilling := h.willing hrun
  rw [sentOutcome_ssh huser hargs hcopy hhead] at hwilling
  by_cases hdash : startsWithDash target.user = true
  · rw [if_pos hdash] at hwilling
    cases hwilling
  · rw [if_neg hdash] at hwilling
    exact ⟨Bool.eq_false_iff.mpr hdash, hwilling⟩

/-- A directory is made alike if and only if its path is transparent. -/
theorem same_mkdirAll_iff {path : String} (huser : target.user ≠ "")
    (hargs : (NodeCommand.mkdirAll path).remoteArgs = .ok args) :
    SameSent executor target (.mkdirAll path) ↔
      (NodeCommand.mkdirAll path).transparent target = true := by
  obtain ⟨normalized, hpath, h⟩ := except_bind_eq_ok.mp hargs
  obtain rfl := Except.ok.inj h
  obtain ⟨hliteral, -⟩ := normalizeRemoteAbsolutePath_eq_ok hpath
  rw [NodeCommand.transparent, Bool.and_eq_true, Bool.not_eq_true']
  have hmkdir : ∀ word ∈ ["mkdir", "-p"], isLiteralWord word.toList = true := by decide
  constructor
  · intro hsame
    obtain ⟨hdash, hline⟩ := hsame.line huser hargs (fun _ _ heq => by cases heq)
      (show startsWithDash "mkdir" = false by decide)
      (rfl : (NodeCommand.mkdirAll path).localRun "" = _)
    refine ⟨hdash, isNormalized_iff.mpr ?_⟩
    by_cases hempty : normalized = ""
    · subst hempty
      have hnone : runLine 2 (willingHost "") [] "" (join (["mkdir", "-p", ""].map String.toList)) =
          some ([⟨"", ["mkdir", "-p"]⟩], true) := by decide
      rw [hnone] at hline
      simp at hline
    · have hwords : ∀ word ∈ ["mkdir", "-p", normalized], isLiteralWord word.toList = true := by
        intro word hword
        rcases List.mem_append.mp
            (show word ∈ ["mkdir", "-p"] ++ [normalized] from hword) with hold | hnew
        · exact hmkdir word hold
        · rw [List.mem_singleton.mp hnew]
          exact isLiteralWord_of_all (fun heq => hempty (String.toList_inj.mp heq)) hliteral
      rw [runLine_words hwords (isProgram_of_head (by decide) (by decide) (by decide))]
        at hline
      have hrun := List.singleton_inj.mp (Prod.mk.inj (Option.some.inj hline)).1
      have hargv := (Run.mk.inj hrun).2
      simp only [List.cons.injEq, and_true, true_and] at hargv
      rw [← hargv]
      rw [← hargv] at hpath
      exact hpath
  · rintro ⟨hdash, hnormalized⟩
    obtain ⟨hword, hslash⟩ := slash_of_isNormalized hnormalized
    obtain rfl := Except.ok.inj (hpath.symm.trans (isNormalized_iff.mp hnormalized))
    constructor
    · intro operand hoperand
      rw [List.mem_singleton.mp hoperand, startsWithDash, hslash]
      decide
    · apply same_words huser hargs (fun _ _ heq => by cases heq)
        (show startsWithDash "mkdir" = false by decide)
        (isProgram_of_head (by decide) (by decide) (by decide)) (fun _ => rfl) hdash
      intro word hin
      rcases List.mem_append.mp
          (show word ∈ ["mkdir", "-p"] ++ [normalized] from hin) with hold | hnew
      · exact hmkdir word hold
      · rw [List.mem_singleton.mp hnew]
        exact hword

/-- A file is copied alike if and only if both paths are transparent. -/
theorem same_copyFile_iff {localPath remotePath : String}
    (hargs : (NodeCommand.copyFile localPath remotePath).remoteArgs = .ok args) :
    SameSent executor target (.copyFile localPath remotePath) ↔
      (NodeCommand.copyFile localPath remotePath).transparent target = true := by
  obtain ⟨path, hpath, h⟩ := except_bind_eq_ok.mp hargs
  obtain rfl := Except.ok.inj h
  rw [NodeCommand.transparent, Bool.and_eq_true, Bool.and_eq_true, Bool.not_eq_true',
    Bool.not_eq_true', isNormalized_iff]
  have hscp (hdash : startsWithDash localPath = false) :
      scpCommand (copyFileArgs executor target localPath path) =
        if isRemoteOperand localPath then none
        else some (localPath, target.destination ++ ":" ++ path) := by
    have hflags : localPath ∉ ["-P", "-o", "-i"] := by
      intro hmem
      simp only [List.mem_cons, List.not_mem_nil, or_false] at hmem
      rcases hmem with rfl | rfl | rfl <;> revert hdash <;> decide
    rw [scpCommand, copyFileArgs,
      operands_connectionArgs (by decide) (by decide) (by decide), operands_operand hflags, hdash,
      if_neg Bool.false_ne_true]
  have houtcome (host : Host) (history : List Run) (hdash : startsWithDash localPath = false) :
      (NodeCommand.copyFile localPath remotePath).sentOutcome executor target host history =
        if isRemoteOperand localPath then none
        else some (history ++ [⟨host.home, ["cp", localPath, path]⟩],
          host.succeeds history ⟨host.home, ["cp", localPath, path]⟩) := by
    unfold NodeCommand.sentOutcome
    rw [hargs]
    dsimp only
    rw [List.head?_cons, Option.bind_some, hscp hdash]
    by_cases hremote : isRemoteOperand localPath = true
    · rw [if_pos hremote, if_pos hremote]
      rfl
    · rw [if_neg hremote, if_neg hremote, Option.bind_some, if_pos rfl]
  constructor
  · intro hsame
    have hdash := hsame.1 localPath List.mem_cons_self
    have hwilling := hsame.willing (rfl : (NodeCommand.copyFile localPath remotePath).localRun "" = _)
    rw [houtcome _ _ hdash] at hwilling
    by_cases hremote : isRemoteOperand localPath = true
    · rw [if_pos hremote] at hwilling
      cases hwilling
    · rw [if_neg hremote] at hwilling
      have hrun := List.singleton_inj.mp (Prod.mk.inj (Option.some.inj hwilling)).1
      have hargv := (Run.mk.inj hrun).2
      simp only [List.cons.injEq, and_true, true_and] at hargv
      refine ⟨⟨hdash, Bool.eq_false_iff.mpr hremote⟩, ?_⟩
      rw [← hargv]
      rw [← hargv] at hpath
      exact hpath
  · rintro ⟨⟨hdash, hremote⟩, hnormalized⟩
    obtain rfl := Except.ok.inj (hpath.symm.trans hnormalized)
    constructor
    · intro operand hoperand
      rw [List.mem_singleton.mp hoperand]
      exact hdash
    · intro host history outcome hlocal
      obtain ⟨run, hrun, -, rfl⟩ := exists_run_of_localOutcome hlocal
      obtain rfl := Except.ok.inj hrun
      rw [houtcome host history hdash, hremote, if_neg Bool.false_ne_true]

/-- Compose runs alike if and only if the command is transparent. -/
theorem same_compose_iff {action : ComposeAction} {workDir : String} (huser : target.user ≠ "")
    (hargs : (NodeCommand.compose action workDir).remoteArgs = .ok args) :
    SameSent executor target (.compose action workDir) ↔
      (NodeCommand.compose action workDir).transparent target = true := by
  obtain ⟨normalized, hpath, h⟩ := except_bind_eq_ok.mp hargs
  obtain rfl := Except.ok.inj h
  obtain ⟨hliteral, hslash⟩ := normalizeRemoteAbsolutePath_eq_ok hpath
  rw [NodeCommand.transparent, Bool.and_eq_true, Bool.not_eq_true']
  have hhead : (["cd", normalized, "&&", "docker", "compose"] ++ action.args).head?.any
      startsWithDash = false :=
    show startsWithDash "cd" = false by decide
  have hcompose := isLiteralWord_composeArgs action
  have hprogram : isProgram ("docker" :: "compose" :: action.args) = true :=
    isProgram_of_head (by decide) (by decide) (by decide)
  constructor
  · intro hsame
    obtain ⟨hdash, hline⟩ := hsame.line huser hargs (fun _ _ heq => by cases heq) hhead
      (rfl : (NodeCommand.compose action workDir).localRun "" = _)
    refine ⟨hdash, isNormalized_iff.mpr ?_⟩
    by_cases hempty : normalized = ""
    · -- `cd` without an operand stays where the login shell starts
      subst hempty
      have hhome : runLine 2 (willingHost "") [] "" (join
          ((["cd", "", "&&", "docker", "compose"] ++ action.args).map String.toList)) =
            some ([⟨"", "docker" :: "compose" :: action.args⟩], true) := by
        cases action <;> decide
      rw [hhome] at hline
      have hrun := List.singleton_inj.mp (Prod.mk.inj (Option.some.inj hline)).1
      obtain rfl := (Run.mk.inj hrun).1
      revert hpath
      decide
    · have hword := isLiteralWord_of_all (fun heq => hempty (String.toList_inj.mp heq)) hliteral
      have hcd := @runLine_cd 1 (willingHost "") [] "" _ _ hword (hslash.resolve_left hempty) rfl
        hcompose hprogram
      rw [show ["cd", normalized, "&&", "docker", "compose"] ++ action.args =
        ["cd", normalized, "&&"] ++ "docker" :: "compose" :: action.args from rfl, hcd] at hline
      have hrun := List.singleton_inj.mp (Prod.mk.inj (Option.some.inj hline)).1
      have hcwd := (Run.mk.inj hrun).1
      rw [← hcwd]
      rw [← hcwd] at hpath
      exact hpath
  · rintro ⟨hdash, hnormalized⟩
    obtain ⟨hword, hroot⟩ := slash_of_isNormalized hnormalized
    obtain rfl := Except.ok.inj (hpath.symm.trans (isNormalized_iff.mp hnormalized))
    constructor
    · rintro operand ⟨⟩
    · intro host history outcome hlocal
      obtain ⟨run, hrun, hdir, rfl⟩ := exists_run_of_localOutcome hlocal
      obtain rfl := Except.ok.inj hrun
      rw [sentOutcome_ssh huser hargs (fun _ _ heq => by cases heq) hhead, hdash,
        if_neg Bool.false_ne_true]
      exact runLine_cd hword hroot hdir hcompose hprogram

/-- A health check with values behind the words of its program, all of them the values that were
given, and the last ones literal in any case. -/
theorem same_healthCheck_iff {fixed rest : List String} {value : String}
    (huser : target.user ≠ "") (hargs : command.remoteArgs = .ok (fixed ++ value :: rest))
    (hcopy : ∀ localPath remotePath, command ≠ .copyFile localPath remotePath)
    (hhead : (fixed ++ value :: rest).head?.any startsWithDash = false)
    (hprogram : isProgram (fixed ++ value :: rest) = true)
    (hlocal : ∀ home, command.localRun home = .ok ⟨home, fixed ++ value :: rest⟩)
    (hgiven : command.givenOperands = [value])
    (hfixed : ∀ word ∈ fixed, isLiteralWord word.toList = true)
    (hrest : ∀ word ∈ rest, isLiteralWord word.toList = true)
    (hne : value ≠ "") (hquoting : ∀ char ∈ value.toList, isQuoting char = false) :
    SameSent executor target command ↔
      (!startsWithDash target.user && isOperandWord value.toList) = true := by
  rw [Bool.and_eq_true, Bool.not_eq_true', isOperandWord_iff]
  constructor
  · intro hsame
    obtain ⟨hdash, hline⟩ := hsame.line huser hargs hcopy hhead (hlocal "")
    have hvalue := hsame.1 value (by rw [hgiven]; exact List.mem_cons_self)
    rw [startsWithDash, beq_eq_false_iff_ne] at hvalue
    exact ⟨hdash, isLiteralWord_of_runLine hfixed hne hquoting hline, hvalue⟩
  · rintro ⟨hdash, hliteral, hvalue⟩
    constructor
    · intro operand hoperand
      rw [hgiven] at hoperand
      rw [List.mem_singleton.mp hoperand, startsWithDash, beq_eq_false_iff_ne]
      exact hvalue
    · apply same_words huser hargs hcopy hhead hprogram hlocal hdash
      intro word hword
      rcases List.mem_append.mp hword with hold | hnew
      · exact hfixed word hold
      · rcases List.mem_cons.mp hnew with rfl | hlast
        · exact hliteral
        · exact hrest word hlast

/-- A check by HTTP runs alike if and only if it is transparent. -/
theorem same_httpHealthCheck_iff {endpoint : String} {timeoutSecs : Nat} (huser : target.user ≠ "")
    (hargs : (NodeCommand.httpHealthCheck endpoint timeoutSecs).remoteArgs = .ok args) :
    SameSent executor target (.httpHealthCheck endpoint timeoutSecs) ↔
      (NodeCommand.httpHealthCheck endpoint timeoutSecs).transparent target = true := by
  obtain ⟨normalized, hendpoint, h⟩ := except_bind_eq_ok.mp hargs
  obtain rfl := Except.ok.inj h
  obtain ⟨rfl, hne, hquoting⟩ := normalizeRemoteHealthEndpoint_eq_ok hendpoint
  apply same_healthCheck_iff huser hargs (fun _ _ heq => by cases heq)
    (show startsWithDash "curl" = false by decide)
    (isProgram_of_head (by decide) (by decide) (by decide)) ?_ rfl isLiteralWord_curlArgs
    (by rintro word ⟨⟩) hne hquoting
  intro home
  rw [NodeCommand.localRun, hendpoint]
  rfl

/-- A check by TCP runs alike if and only if it is transparent. -/
theorem same_tcpHealthCheck_iff {endpoint : String} {timeoutSecs : Nat} (huser : target.user ≠ "")
    (hargs : (NodeCommand.tcpHealthCheck endpoint timeoutSecs).remoteArgs = .ok args) :
    SameSent executor target (.tcpHealthCheck endpoint timeoutSecs) ↔
      (NodeCommand.tcpHealthCheck endpoint timeoutSecs).transparent target = true := by
  obtain ⟨⟨name, port⟩, hendpoint, h⟩ := except_bind_eq_ok.mp hargs
  obtain rfl := Except.ok.inj h
  obtain ⟨hsplit, hne, hquoting, hport⟩ := normalizeRemoteTcpEndpoint_eq_ok hendpoint
  have htransparent : (NodeCommand.tcpHealthCheck endpoint timeoutSecs).transparent target =
      (!startsWithDash target.user && isOperandWord name.toList) := by
    rw [NodeCommand.transparent, hsplit]
    rfl
  rw [htransparent]
  apply same_healthCheck_iff huser hargs (fun _ _ heq => by cases heq)
    (show startsWithDash "nc" = false by decide)
    (isProgram_of_head (by decide) (by decide) (by decide)) ?_ ?_ isLiteralWord_ncArgs ?_
    hne hquoting
  · intro home
    rw [NodeCommand.localRun, hendpoint]
    rfl
  · rw [NodeCommand.givenOperands, hsplit]
    show [String.ofList name.toList] = [name]
    rw [String.ofList_toList]
  · intro word hword
    rw [List.mem_singleton.mp hword]
    exact (isLiteralWord_of_isPort hport).1

/-- The name of a variable is literal. -/
theorem normalizeEnvName_eq_ok {value key : String} (h : normalizeEnvName value = .ok key) :
    isLiteralWord key.toList = true := by
  unfold normalizeEnvName at h
  split at h
  · cases h
  rename_i hvalid
  obtain rfl := Except.ok.inj h
  rw [not_or, not_or, Bool.not_eq_true', Bool.not_eq_false, List.all_eq_true] at hvalid
  apply isLiteralWord_of_all (fun heq => hvalid.1 (String.toList_inj.mp heq))
  intro char hchar
  have hname := hvalid.2.2 char hchar
  have hunderscore : isLiteralFirst '_' = true := by decide
  have hchars : ∀ other ∈ ['_'], isLiteralFirst other = true := by
    intro other hother
    rwa [List.mem_singleton.mp hother]
  apply isLiteralFirst_of_isOneOf hchars
  simp only [Bool.or_eq_true, beq_iff_eq] at hname
  show (char.isUpper || char.isLower || char.isDigit || ['_'].contains char) = true
  rcases hname with (hupper | hdigit) | rfl
  · rw [hupper, Bool.true_or, Bool.true_or, Bool.true_or]
  · rw [hdigit, Bool.or_true, Bool.true_or]
  · decide

/-- The names of all variables are literal. -/
theorem normalizedEnvPairs_eq_ok {env pairs : List (String × String)}
    (h : normalizedEnvPairs env = .ok pairs) :
    ∀ pair ∈ pairs, isLiteralWord pair.1.toList = true := by
  induction env generalizing pairs with
  | nil =>
      obtain rfl := Except.ok.inj h
      rintro pair ⟨⟩
  | cons entry env ih =>
      obtain ⟨key, hkey, h⟩ := except_bind_eq_ok.mp h
      obtain ⟨rest, hrest, h⟩ := except_bind_eq_ok.mp h
      obtain rfl := Except.ok.inj h
      intro pair hpair
      rcases List.mem_cons.mp hpair with rfl | hlater
      · exact normalizeEnvName_eq_ok hkey
      · exact ih hrest pair hlater

/-- A variable with the word that the shell reads. -/
def envPiece (pair : String × String) : List Char × Token :=
  (pair.1.toList ++ ['='] ++ shellQuote pair.2, .word (pair.1 ++ "=" ++ pair.2))

/-- A quoted text with the word that the shell reads. -/
def quotedPiece (value : String) : List Char × Token := (shellQuote value, .word value)

/-- A quoted piece is read as its text. -/
theorem renders_quotedPiece (value : String) :
    Renders (quotedPiece value).1 (quotedPiece value).2 := by
  have hrenders := (begins_quote value.toList).renders
  rw [String.ofList_toList] at hrenders
  exact hrenders

/-- An assignment is one word, whatever its value is. -/
theorem renders_envPiece {pair : String × String} (h : isLiteralWord pair.1.toList = true) :
    Renders (envPiece pair).1 (envPiece pair).2 := by
  have hword : Begins pair.1.toList pair.1.toList := by
    cases hkey : pair.1.toList with
    | nil =>
        rw [hkey] at h
        cases h
    | cons first rest =>
        rw [hkey, isLiteralWord, Bool.and_eq_true, List.all_eq_true] at h
        exact begins_literal h.1 h.2
  have hliteral : isLiteral '=' = true := by decide
  have hequals : Continues ['='] ['='] := by
    apply continues_literal
    intro char hchar
    rwa [List.mem_singleton.mp hchar]
  have hrenders := ((hword.append hequals).append (continues_quote pair.2.toList)).renders
  have hvalue : String.ofList (pair.1.toList ++ ['='] ++ pair.2.toList) =
      pair.1 ++ "=" ++ pair.2 := by
    apply String.toList_inj.mp
    rw [String.toList_ofList, String.toList_append, String.toList_append]
    rfl
  rw [hvalue] at hrenders
  exact hrenders

/-- The pieces of the line for a script. -/
def scriptPieces (workDir path : String) (env : List (String × String)) :
    List (List Char × Token) :=
  [piece "sh", piece "-lc", piece "cd", quotedPiece workDir, (['&', '&'], .conjunction),
    piece "env"] ++ (env.map envPiece ++ [piece "sh", quotedPiece path])

/-- The script's line is its pieces, one after the other. -/
theorem join_scriptCommand (workDir script : String) (env : List (String × String)) :
    join ((["sh", "-lc", scriptCommand workDir script env]).map String.toList) =
      join ((scriptPieces workDir (workDir ++ "/" ++ script) env).map (·.1)) := by
  have hcommand : (scriptCommand workDir script env).toList =
      ['c', 'd', ' '] ++ shellQuote workDir ++ [' ', '&', '&', ' ', 'e', 'n', 'v'] ++
        (env.flatMap fun pair => ' ' :: (pair.1.toList ++ '=' :: shellQuote pair.2)) ++
        [' ', 's', 'h', ' '] ++ shellQuote (workDir ++ "/" ++ script) :=
    String.toList_ofList
  have henv : (env.map envPiece).flatMap (fun rendered => ' ' :: rendered.1) =
      env.flatMap fun pair => ' ' :: (pair.1.toList ++ '=' :: shellQuote pair.2) := by
    rw [List.flatMap_map]
    apply List.flatMap_congr
    intro pair _
    show ' ' :: (pair.1.toList ++ ['='] ++ shellQuote pair.2) = _
    rw [List.append_assoc, List.singleton_append]
  have hright : join ((scriptPieces workDir (workDir ++ "/" ++ script) env).map (·.1)) =
      ['s', 'h'] ++ (' ' :: ['-', 'l', 'c'] ++ (' ' :: ['c', 'd'] ++ (' ' :: shellQuote workDir ++
        (' ' :: ['&', '&'] ++ (' ' :: ['e', 'n', 'v'] ++
          ((env.map envPiece).flatMap (fun rendered => ' ' :: rendered.1) ++
            (' ' :: ['s', 'h'] ++ (' ' :: shellQuote (workDir ++ "/" ++ script))))))))) := by
    rw [scriptPieces, List.map_append, List.map_append, List.map_cons, List.cons_append, join_cons,
      List.flatMap_append, List.flatMap_append, List.flatMap_map]
    simp [piece, quotedPiece, List.flatMap_map, Function.comp_def]
  rw [hright, henv]
  show ['s', 'h'] ++ ' ' :: (['-', 'l', 'c'] ++ ' ' :: (scriptCommand workDir script env).toList) = _
  rw [hcommand]
  simp only [List.append_assoc, List.cons_append, List.nil_append]

/-- The words of `sh -lc` end at the directory. -/
theorem parse_scriptCommand {workDir script : String} {env : List (String × String)}
    (henv : ∀ pair ∈ env, isLiteralWord pair.1.toList = true) :
    parse (join ((["sh", "-lc", scriptCommand workDir script env]).map String.toList)) =
      some [["sh", "-lc", "cd", workDir], "env" :: (env.map (fun pair => pair.1 ++ "=" ++ pair.2) ++
        ["sh", workDir ++ "/" ++ script])] := by
  have hrenders : ∀ rendered ∈ scriptPieces workDir (workDir ++ "/" ++ script) env,
      Renders rendered.1 rendered.2 := by
    intro rendered hrendered
    simp only [scriptPieces, List.cons_append, List.nil_append, List.mem_cons, List.mem_append,
      List.mem_map, List.not_mem_nil, or_false] at hrendered
    rcases hrendered with rfl | rfl | rfl | rfl | rfl | rfl | ⟨pair, hpair, rfl⟩ | rfl | rfl
    · exact renders_piece (by decide)
    · exact renders_piece (by decide)
    · exact renders_piece (by decide)
    · exact renders_quotedPiece workDir
    · exact renders_conjunction
    · exact renders_piece (by decide)
    · exact renders_envPiece (henv pair hpair)
    · exact renders_piece (by decide)
    · exact renders_quotedPiece _
  have hwords := commandsFrom_words []
    ("env" :: (env.map (fun pair => pair.1 ++ "=" ++ pair.2) ++ ["sh", workDir ++ "/" ++ script])) []
  have htokens : (scriptPieces workDir (workDir ++ "/" ++ script) env).map (·.2) =
      .word "sh" :: .word "-lc" :: .word "cd" :: .word workDir :: .conjunction ::
        (("env" :: (env.map (fun pair => pair.1 ++ "=" ++ pair.2) ++
          ["sh", workDir ++ "/" ++ script])).map .word ++ []) := by
    simp [scriptPieces, piece, quotedPiece, envPiece, Function.comp_def]
  have hsh : isCommand ([] ++ ["sh"] ++ ["-lc"] ++ ["cd"] ++ [workDir]) = true :=
    show isName "sh" = true by decide
  rw [join_scriptCommand, parse_join (by simp [scriptPieces]) hrenders, htokens, commandsFrom,
    commandsFrom, commandsFrom, commandsFrom, commandsFrom, if_pos hsh, hwords, commandsFrom,
    if_pos (show isCommand ([] ++ "env" :: _) = true from (by decide : isName "env" = true))]
  rfl

/-- The script is run where the login shell starts. -/
theorem runLine_scriptCommand {workDir script : String} {env : List (String × String)}
    (henv : ∀ pair ∈ env, isLiteralWord pair.1.toList = true) :
    runLine 2 (willingHost "") [] ""
        (join ((["sh", "-lc", scriptCommand workDir script env]).map String.toList)) =
      some ([⟨"", "env" :: (env.map (fun pair => pair.1 ++ "=" ++ pair.2) ++
        ["sh", workDir ++ "/" ++ script])⟩], true) := by
  have hshell : runLine 1 (willingHost "") [] "" "cd".toList = some ([], true) := by
    decide
  rw [runLine, parse_scriptCommand henv, Option.bind_some, runCommands_shell hshell]
  rw [runCommands_program (isProgram_of_head (by decide) (by decide) (by decide))]
  rfl

/-- A script never runs alike, since its line is read a second time. -/
theorem not_same_runScript {workDir script : String} {env : List (String × String)}
    (huser : target.user ≠ "")
    (hargs : (NodeCommand.runScript workDir script env).remoteArgs = .ok args) :
    ¬ SameSent executor target (.runScript workDir script env) := by
  intro hsame
  obtain ⟨normalized, hpath, h⟩ := except_bind_eq_ok.mp hargs
  obtain ⟨relative, hscript, h⟩ := except_bind_eq_ok.mp h
  obtain ⟨pairs, hpairs, h⟩ := except_bind_eq_ok.mp h
  obtain rfl := Except.ok.inj h
  have hrun : (NodeCommand.runScript workDir script env).localRun "" =
      .ok ⟨workDir, "env" :: (pairs.map (fun pair => pair.1 ++ "=" ++ pair.2) ++
        ["sh", relative])⟩ := by
    rw [NodeCommand.localRun, hscript, normalizedEnvArgs, hpairs]
    rfl
  obtain ⟨-, hline⟩ := hsame.line huser hargs (fun _ _ heq => by cases heq)
    (show startsWithDash "sh" = false by decide) hrun
  rw [runLine_scriptCommand (normalizedEnvPairs_eq_ok hpairs)] at hline
  have hsingle := List.singleton_inj.mp (Prod.mk.inj (Option.some.inj hline)).1
  obtain rfl := (Run.mk.inj hsingle).1
  have hempty : (normalizeRemoteAbsolutePath "").isOk = false := by decide
  rw [hpath] at hempty
  cases hempty

/-- What is sent is run alike if and only if the command is transparent. -/
theorem same_sent_iff (huser : target.user ≠ "") (hargs : command.remoteArgs = .ok args) :
    SameSent executor target command ↔ command.transparent target = true := by
  cases command with
  | mkdirAll path => exact same_mkdirAll_iff huser hargs
  | copyFile localPath remotePath => exact same_copyFile_iff hargs
  | compose action workDir => exact same_compose_iff huser hargs
  | runScript workDir script env =>
      constructor
      · intro hsame
        exact absurd hsame (not_same_runScript huser hargs)
      · rintro ⟨⟩
  | httpHealthCheck endpoint timeoutSecs => exact same_httpHealthCheck_iff huser hargs
  | tcpHealthCheck endpoint timeoutSecs => exact same_tcpHealthCheck_iff huser hargs

/-- `ssh-keyscan` asks the node unless its address begins with a dash. -/
theorem keyscanAddresses_keyscanArgs (target : SshTarget) :
    keyscanAddresses target.keyscanArgs = some [target.address] ↔
      startsWithDash target.address = false := by
  have hoptions : keyscanAddresses target.keyscanArgs = keyscanAddresses [target.address] := rfl
  rw [hoptions]
  constructor
  · intro hasked
    rw [Bool.eq_false_iff]
    intro hdash
    unfold keyscanAddresses at hasked
    split at hasked
    · cases hasked
    · split at hasked
      · cases hasked
      · cases hasked
  · intro hdash
    have hoption (flag : String) (hflag : startsWithDash flag = true) : target.address ≠ flag := by
      rintro heq
      rw [heq, hflag] at hdash
      cases hdash
    unfold keyscanAddresses
    rw [if_neg (not_or.mpr ⟨hoption "-p" (by decide), hoption "-T" (by decide)⟩),
      if_neg (hoption "-H" (by decide)), hdash, if_neg Bool.false_ne_true]

/-- The keys of a host are looked up where its programs are. -/
theorem knowsHost_eq (executor : SshExecutor) (target : SshTarget) :
    executor.knowsHost target = executor.finds target := by
  have hasked : (keyscanAddresses target.keyscanArgs == some [target.address]) =
      !startsWithDash target.address := by
    rw [Bool.eq_iff_iff, beq_iff_eq, keyscanAddresses_keyscanArgs, Bool.not_eq_true']
  rw [SshExecutor.knowsHost, SshExecutor.finds, hasked]

/-- A command that is accepted can be run on the control host. -/
theorem exists_localRun (hargs : command.remoteArgs = .ok args) (home : String) :
    ∃ run, command.localRun home = .ok run := by
  cases command with
  | mkdirAll path => exact ⟨_, rfl⟩
  | copyFile localPath remotePath => exact ⟨_, rfl⟩
  | compose action workDir => exact ⟨_, rfl⟩
  | runScript workDir script env =>
      obtain ⟨normalized, hpath, h⟩ := except_bind_eq_ok.mp hargs
      obtain ⟨relative, hscript, h⟩ := except_bind_eq_ok.mp h
      obtain ⟨pairs, hpairs, -⟩ := except_bind_eq_ok.mp h
      rw [NodeCommand.localRun, hscript, normalizedEnvArgs, hpairs]
      exact ⟨_, rfl⟩
  | httpHealthCheck endpoint timeoutSecs =>
      obtain ⟨checked, hchecked, -⟩ := except_bind_eq_ok.mp hargs
      rw [NodeCommand.localRun, hchecked]
      exact ⟨_, rfl⟩
  | tcpHealthCheck endpoint timeoutSecs =>
      obtain ⟨checked, hchecked, -⟩ := except_bind_eq_ok.mp hargs
      rw [NodeCommand.localRun, hchecked]
      exact ⟨_, rfl⟩

/-- A node whose address is read as an option is not reached at all. -/
theorem same_execution_iff (huser : target.user ≠ "") (hargs : command.remoteArgs = .ok args) :
    SameExecution executor target command ↔
      executor.finds target = true ∧ command.transparent target = true := by
  have hsent : SameSent executor target command ↔ command.transparent target = true :=
    same_sent_iff huser hargs
  rw [← hsent, ← knowsHost_eq]
  cases hknown : executor.knowsHost target with
  | true =>
      rw [SameExecution, SameSent]
      simp only [NodeCommand.remoteOutcome, hknown, if_true, true_and]
  | false =>
      refine iff_of_false (fun hsame => ?_) fun hboth => Bool.false_ne_true hboth.1
      obtain ⟨run, hrun⟩ := exists_localRun hargs ""
      have hlocal : command.localOutcome (willingHost "") [] = some ([run], true) := by
        rw [NodeCommand.localOutcome, show (willingHost "").home = "" from rfl, hrun]
        rfl
      have hremote := hsame.2 _ _ _ hlocal
      rw [NodeCommand.remoteOutcome, hknown, if_neg Bool.false_ne_true] at hremote
      cases hremote

/-- Each command of a unit is executed on a node as it is on the control host, and so are the
commands one after another. -/
structure RemoteEqualsLocal (executor : SshExecutor) (target : SshTarget) (unit : UnitCommands) :
    Prop where
  commands : ∀ command ∈ unit.commands, SameExecution executor target command
  slots : ∀ slot ⊆ unit.commands, ∀ host history outcome,
    runAll (fun before command => command.localOutcome host before) history slot = some outcome →
      runAll (fun before command => command.remoteOutcome executor target host before) history
        slot = some outcome

/-- The sequence stops behind the same command on both sides. -/
theorem runAll_of_same {slot : List NodeCommand} {outcome : Outcome}
    (hsame : ∀ command ∈ slot, SameExecution executor target command)
    (h : runAll (fun before command => command.localOutcome host before) history slot =
      some outcome) :
    runAll (fun before command => command.remoteOutcome executor target host before) history slot =
      some outcome := by
  induction slot generalizing history with
  | nil => exact h
  | cons command slot ih =>
      rw [runAll] at h ⊢
      cases hlocal : command.localOutcome host history with
      | none =>
          rw [hlocal] at h
          cases h
      | some result =>
          rw [(hsame command List.mem_cons_self).2 host history result hlocal]
          rw [hlocal] at h
          obtain ⟨after, success⟩ := result
          cases success with
          | false => exact h
          | true => exact ih (fun other hother => hsame other (List.mem_cons_of_mem _ hother)) h

/-- An accepted target has a user. -/
theorem user_ne_empty {user address : String} {port : Int} {base : SshTarget}
    (h : SshTarget.new user address port = .ok base) : base.user ≠ "" := by
  obtain ⟨name, hname, h⟩ := except_bind_eq_ok.mp h
  obtain ⟨hostName, -, h⟩ := except_bind_eq_ok.mp h
  split at h
  · obtain rfl := Except.ok.inj h
    exact normalizeWord_eq_ok hname
  · cases h

namespace Sample

/-- A unit with a compose file, and perhaps a deploy script. -/
def composeUnit (scripts : List (String × String)) : UnitCommands where
  action := .deploy
  workDir := "/srv/api"
  files := [("/data/runs/7/compose.yaml", "compose.yaml")]
  scripts := scripts
  env := [("TOKEN", "it's \"x\" && y")]
  health := .http "http://127.0.0.1:8080/health" 5

def deployTarget : SshTarget := ⟨"deploy", "10.0.0.7", 22, none⟩

end Sample

end EasyDeploy.Remote
