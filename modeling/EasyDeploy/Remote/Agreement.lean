import EasyDeploy.Foundation.Results
import EasyDeploy.Remote.Executors

/-!
# Where remote execution is local execution

Compose commands, directories, files and health checks reach the node as they
are given unless a checked value begins an option or has a meaning for the shell.
A deploy script never runs in the work directory of its unit.
-/

namespace EasyDeploy.Remote
open Foundation Shell

variable {executor : SshExecutor} {target : SshTarget} {host : Host} {history : List Run}
  {command : NodeCommand} {args : List String}

theorem isLiteralFirst_of_isOneOf {chars : List Char} {char : Char}
    (hchars : ∀ other ∈ chars, isLiteralFirst other = true) (h : isOneOf chars char = true) :
    isLiteralFirst char = true := by
  rw [isOneOf, Bool.or_eq_true, List.contains_iff_mem] at h
  rcases h with halnum | hmem
  · have hnot (other : Char) (hother : other.isAlphanum = false) : char ≠ other := by
      rintro rfl
      rw [halnum] at hother
      cases hother
    have hliteral : isLiteral char = true := by
      rw [isLiteral, Bool.not_eq_true', Bool.or_eq_false_iff, beq_eq_false_iff_ne]
      refine ⟨?_, hnot _ (by decide)⟩
      rw [← Bool.not_eq_true, List.contains_iff_mem]
      intro hmem
      have hall : (" \t\n'\"\\&;|<>()$*?[".toList.all fun other => !other.isAlphanum) = true := by
        decide
      have hother := List.all_eq_true.mp hall char hmem
      rw [halnum] at hother
      cases hother
    rw [isLiteralFirst, hliteral, Bool.true_and, Bool.and_eq_true, bne_iff_ne, bne_iff_ne]
    exact ⟨hnot _ (by decide), hnot _ (by decide)⟩
  · exact hchars char hmem

theorem isLiteral_of_isLiteralFirst {char : Char} (h : isLiteralFirst char = true) :
    isLiteral char = true := by
  rw [isLiteralFirst, Bool.and_eq_true, Bool.and_eq_true] at h
  exact h.1.1

theorem isLiteralWord_of_all {text : List Char} (hne : text ≠ [])
    (h : ∀ char ∈ text, isLiteralFirst char = true) : isLiteralWord text = true := by
  cases text with
  | nil => exact absurd rfl hne
  | cons first rest =>
      rw [isLiteralWord, Bool.and_eq_true, List.all_eq_true]
      exact ⟨h first List.mem_cons_self, fun char hchar =>
        isLiteral_of_isLiteralFirst (h char (List.mem_cons_of_mem _ hchar))⟩

theorem isLiteralFirst_pathChars : ∀ char ∈ pathChars, isLiteralFirst char = true := by
  have hall : pathChars.all isLiteralFirst = true := by decide
  exact List.all_eq_true.mp hall

/-- A checked path is empty or a word that begins with a slash. -/
theorem normalizeRemoteAbsolutePath_eq_ok {value path : String}
    (h : normalizeRemoteAbsolutePath value = .ok path) :
    (∀ char ∈ path.toList, isLiteralFirst char = true) ∧
      (path = "" ∨ path.toList.head? = some '/') := by
  unfold normalizeRemoteAbsolutePath at h
  by_cases habsolute : (withSlashes value).head? ≠ some '/'
  · rw [if_pos habsolute] at h
    cases h
  rw [if_neg habsolute] at h
  split at h
  · cases h
  rename_i hvalid
  obtain rfl := Except.ok.inj h
  rw [not_or, not_or, Bool.not_eq_true', Bool.not_eq_false, List.all_eq_true] at hvalid
  have hkept := List.rdropWhile_prefix (· == '/') (withSlashes value)
  rw [String.toList_ofList]
  constructor
  · intro char hchar
    exact isLiteralFirst_of_isOneOf isLiteralFirst_pathChars
      (hvalid.2.1 char (hkept.subset hchar))
  · cases hpath : (withSlashes value).rdropWhile (· == '/') with
    | nil => exact .inl rfl
    | cons first rest =>
        right
        obtain ⟨suffix, hsuffix⟩ := hkept
        rw [← hsuffix, hpath] at habsolute
        exact not_not.mp habsolute

theorem normalizeWord_eq_ok {chars : List Char} {empty invalid value word : String}
    (h : normalizeWord chars empty invalid value = .ok word) : word ≠ "" := by
  unfold normalizeWord at h
  split at h
  · cases h
  · rename_i hne
    split at h
    · cases h
    · obtain rfl := Except.ok.inj h
      exact hne

/-- A checked endpoint is not empty and has no blank and no quote. -/
theorem normalizeRemoteHealthEndpoint_eq_ok {value label endpoint : String}
    (h : normalizeRemoteHealthEndpoint value label = .ok endpoint) :
    endpoint = trim value ∧ endpoint ≠ "" ∧
      ∀ char ∈ endpoint.toList, isQuoting char = false := by
  unfold normalizeRemoteHealthEndpoint at h
  split at h
  · cases h
  rename_i hne
  split at h
  · cases h
  rename_i hvalid
  obtain rfl := Except.ok.inj h
  rw [not_or, not_or, List.any_eq_true, List.any_eq_true] at hvalid
  refine ⟨rfl, hne, ?_⟩
  intro char hchar
  have hblank : isWhitespace char = false := by
    rw [← Bool.not_eq_true]
    exact fun hwhite => hvalid.1 ⟨char, hchar, hwhite⟩
  have hrefused : char ∉ refusedChars := fun hmem =>
    hvalid.2.2 ⟨char, hchar, List.contains_iff_mem.mpr hmem⟩
  have hnot (other : Char) (hother : isWhitespace other = true ∨ other ∈ refusedChars) :
      char ≠ other := by
    rintro rfl
    rcases hother with hwhite | hmem
    · rw [hblank] at hwhite
      cases hwhite
    · exact hrefused hmem
  simp only [isQuoting, isBlank, Bool.or_eq_false_iff, beq_eq_false_iff_ne]
  exact ⟨⟨⟨⟨hnot _ (by decide), hnot _ (by decide)⟩, hnot _ (by decide)⟩, hnot _ (by decide)⟩,
    hnot _ (by decide)⟩

theorem isLiteralFirst_of_isDigit {char : Char} (h : char.isDigit = true) :
    isLiteralFirst char = true := by
  apply @isLiteralFirst_of_isOneOf [] char (by simp)
  rw [isOneOf, Char.isAlphanum, h, Bool.or_true, Bool.true_or]

theorem isLiteralWord_of_isPort {port : List Char} (h : isPort port = true) :
    isLiteralWord port = true ∧ port.head? ≠ some '-' := by
  unfold isPort at h
  by_cases hplus : port.head? = some '+'
  · obtain ⟨digits, rfl⟩ := List.head?_eq_some_iff.mp hplus
    simp only [hplus, if_true, List.tail_cons, Bool.and_eq_true, List.all_eq_true] at h
    constructor
    · rw [isLiteralWord, Bool.and_eq_true, List.all_eq_true]
      exact ⟨by decide, fun char hchar =>
        isLiteral_of_isLiteralFirst (isLiteralFirst_of_isDigit (h.1.2 char hchar))⟩
    · rw [hplus]
      decide
  · simp only [hplus, if_false, Bool.and_eq_true, List.all_eq_true, Bool.not_eq_true'] at h
    have hne : port ≠ [] := by
      rintro rfl
      cases h.1.1
    constructor
    · exact isLiteralWord_of_all hne fun char hchar => isLiteralFirst_of_isDigit (h.1.2 char hchar)
    · intro hdash
      obtain ⟨digits, rfl⟩ := List.head?_eq_some_iff.mp hdash
      have hdigit := h.1.2 '-' List.mem_cons_self
      revert hdigit
      decide

theorem normalizeRemoteTcpEndpoint_eq_ok {value name port : String}
    (h : normalizeRemoteTcpEndpoint value = .ok (name, port)) :
    rsplitColon (trim value).toList = some (name.toList, port.toList) ∧ name ≠ "" ∧
      (∀ char ∈ name.toList, isQuoting char = false) ∧ isPort port.toList = true := by
  obtain ⟨endpoint, hendpoint, h⟩ := except_bind_eq_ok.mp h
  obtain ⟨rfl, -, hquoting⟩ := normalizeRemoteHealthEndpoint_eq_ok hendpoint
  cases hsplit : rsplitColon (trim value).toList with
  | none =>
      simp only [hsplit] at h
      cases h
  | some split =>
      obtain ⟨first, last⟩ := split
      simp only [hsplit] at h
      split at h
      · cases h
      rename_i hvalid
      rw [not_or, Bool.not_eq_true', Bool.not_eq_false] at hvalid
      obtain ⟨rfl, rfl⟩ := Prod.mk.inj (Except.ok.inj h)
      rw [String.toList_ofList, String.toList_ofList]
      refine ⟨rfl, ?_, ?_, hvalid.2⟩
      · intro heq
        apply hvalid.1
        exact String.ofList_eq_empty_iff.mp heq
      · intro char hchar
        unfold rsplitColon at hsplit
        split at hsplit
        · obtain ⟨rfl, -⟩ := Prod.mk.inj (Option.some.inj hsplit)
          exact hquoting char
            ((List.rdropWhile_prefix _ _).subset (List.dropLast_subset _ hchar))
        · cases hsplit

theorem operands_flag {flags rest : List String} {flag value : String} (h : flag ∈ flags) :
    operands flags (flag :: value :: rest) = operands flags rest := by
  simp only [operands, h, if_true]

theorem operands_operand {flags rest : List String} {operand : String} (h : operand ∉ flags) :
    operands flags (operand :: rest) =
      if startsWithDash operand then none else some (operand :: rest) := by
  cases rest <;> simp only [operands, h, if_false]

theorem operands_connectionArgs {flags : List String} {portFlag : String} {rest : List String}
    (hport : portFlag ∈ flags) (hoption : "-o" ∈ flags) (hidentity : "-i" ∈ flags) :
    operands flags (connectionArgs executor target portFlag ++ rest) = operands flags rest := by
  rw [connectionArgs, List.append_assoc, List.append_assoc, List.cons_append, List.cons_append,
    List.nil_append, operands_flag hport]
  cases executor.knownHostsFile <;> cases target.identityFile <;>
    simp only [List.cons_append, List.nil_append, operands_flag hoption, operands_flag hidentity]

theorem destination_ne_flag {flag : String} (h : '@' ∉ flag.toList) : target.destination ≠ flag := by
  rintro rfl
  apply h
  rw [SshTarget.destination, String.toList_append, String.toList_append]
  exact List.mem_append_left _ (List.mem_append_right _ (by decide))

theorem startsWithDash_destination (huser : target.user ≠ "") :
    startsWithDash target.destination = startsWithDash target.user := by
  have hne : target.user.toList ≠ [] := by
    intro heq
    apply huser
    exact String.toList_inj.mp heq
  rw [startsWithDash, startsWithDash, SshTarget.destination, String.toList_append,
    String.toList_append, List.append_assoc, List.head?_append_of_ne_nil _ hne]

/-- The line for the shell, unless the user is an option. -/
theorem sshCommand_runSshArgs (huser : target.user ≠ "")
    (hargs : args.head?.any startsWithDash = false) :
    sshCommand (runSshArgs executor target args) =
      if startsWithDash target.user then none else some (target.destination, args) := by
  rw [sshCommand, runSshArgs, operands_connectionArgs (by decide) (by decide) (by decide)]
  have hflags : target.destination ∉ ["-p", "-o", "-i"] := by
    intro hmem
    simp only [List.mem_cons, List.not_mem_nil, or_false] at hmem
    rcases hmem with heq | heq | heq <;> exact destination_ne_flag (by decide) heq
  rw [operands_operand hflags, startsWithDash_destination huser]
  by_cases hdash : startsWithDash target.user = true
  · rw [if_pos hdash, if_pos hdash]
  · rw [if_neg hdash, if_neg hdash]
    dsimp only
    rw [hargs, if_neg Bool.false_ne_true]

end EasyDeploy.Remote
