import EasyDeploy.Configs.Documents
import EasyDeploy.Configs.Published
import EasyDeploy.Foundation.Urls
import EasyDeploy.Remote.Executors
import EasyDeploy.UnitRuntime.PublishedFiles

/-!
# The checks of a deployment

A deployment checks the directory, the scripts, the variables and the health check of each
unit that it finds in the published configuration. The check of a draft reads none of them but
the directory, with a rule of its own.
-/

namespace EasyDeploy.Configs
open Foundation Remote

/-- How a unit is checked. -/
inductive HealthCheckKind
  | none
  | http
  | tcp
  | composeRunning
  | systemdActive
deriving Repr, DecidableEq

/-- A check with its endpoint and times. -/
structure HealthCheckConfig where
  kind : HealthCheckKind
  endpoint : String
  timeoutSecs : Int
  expectedStatus : Int
deriving Repr, DecidableEq

/-- The word for a kind. -/
def HealthCheckKind.asStr : HealthCheckKind → String
  | none => "none"
  | http => "http"
  | tcp => "tcp"
  | composeRunning => "compose_running"
  | systemdActive => "systemd_active"

/-- The kind that a word means. -/
def HealthCheckKind.tryFrom : String → Except String HealthCheckKind
  | "none" => .ok .none
  | "http" => .ok .http
  | "tcp" => .ok .tcp
  | "compose_running" => .ok .composeRunning
  | "systemd_active" => .ok .systemdActive
  | _ => .error "健康检查类型无效"

/-- A number within bounds. -/
def clamp (low high value : Int) : Int := max low (min high value)

/-- A host with a port. -/
def parseTcpEndpoint (value : String) : Except String String :=
  match rsplitOnce ':' (trim value).toList with
  | none => .error "TCP 健康检查地址格式应为 host:port"
  | some (host, port) =>
      if trim (String.ofList host) = "" ∨ parseU16 port = none then
        .error "TCP 健康检查地址格式应为 host:port"
      else
        .ok (trim (String.ofList host) ++ ":" ++ trim (String.ofList port))

/-- What is left of the endpoint of a kind. -/
def checkedEndpoint (library : UrlLibrary) (endpoint : String) :
    HealthCheckKind → Except String String
  | .none | .composeRunning => .ok ""
  | .systemdActive =>
      if endpoint = "" then .error "systemd active 检查需要填写 unit 名称" else .ok endpoint
  | .http =>
      match library.parse endpoint with
      | none => .error "HTTP 健康检查地址无效"
      | some url =>
          if url.IsHttp then .ok endpoint else .error "HTTP 健康检查只支持 http 或 https"
  | .tcp => (parseTcpEndpoint endpoint).map fun _ => endpoint

/-- The checks that a health check passes. -/
def normalizeHealthConfig (library : UrlLibrary) (kind endpoint : String)
    (timeoutSecs expectedStatus : Int) : Except String HealthCheckConfig := do
  let kind ← HealthCheckKind.tryFrom kind
  let endpoint ← checkedEndpoint library (trim endpoint) kind
  .ok ⟨kind, endpoint, clamp 1 60 timeoutSecs, clamp 100 599 expectedStatus⟩

/-- The kind that a document asks for. -/
def healthKind (health : JsonValue) : String := ((health.field "kind").bind (·.asStr)).getD "none"

/-- The endpoint that it asks for. -/
def healthEndpoint (health : JsonValue) : String :=
  ((health.field "endpoint").bind (·.asStr)).getD ""

/-- The health check of a unit. -/
def normalizedUnitHealthCheck (library : UrlLibrary) (unit : ConfigUnit) :
    Except String HealthCheckConfig :=
  normalizeHealthConfig library (healthKind unit.healthCheck) (healthEndpoint unit.healthCheck)
    (((unit.healthCheck.field "timeout_secs").bind (·.asI64)).getD 5)
    (((unit.healthCheck.field "expected_status").bind (·.asI64)).getD 200)

/-- A separator of directories. -/
def isSlash (char : Char) : Bool := char == '/' || char == '\\'

/-- The path has a component below the root. -/
def hasComponent (path : List Char) : Bool :=
  (path.splitOn '/').any fun part => part != [] && part != ['.']

/-- The working directory on a node. -/
def validatedTargetWorkDir (workDir : String) : Except String String :=
  if (trim workDir).toList.head? ≠ some '/' ∨ !hasComponent (trim workDir).toList then
    .error "deployment unit work_dir must be a non-root absolute path"
  else
    .ok (String.ofList ((trim workDir).toList.rdropWhile isSlash))

/-- Where commands are run. -/
inductive NodeType
  | local
  | ssh
deriving Repr, DecidableEq

/-- The check of an endpoint that is tested from a remote host. -/
def remoteEndpointCheck (config : HealthCheckConfig) : Except DeployError Unit :=
  match config.kind with
  | .http => (normalizeRemoteHealthEndpoint config.endpoint "HTTP").map fun _ => ()
  | .tcp => (normalizeRemoteTcpEndpoint config.endpoint).map fun _ => ()
  | _ => .ok ()

/-- Everything that the deployment of a unit to a node checks of the configuration passes. -/
structure ChecksSucceed (library : UrlLibrary) (secrets : UnitRuntime.Entries)
    (environment : ConfigEnvironment) (unit : ConfigUnit) (node : NodeType) : Prop where
  environment_variables : UnitRuntime.validateEnvironmentVariables
    (UnitRuntime.environmentVariables secrets environment.key unit.key) = .ok ()
  scripts : ∀ entry ∈ unit.scripts.entries, (UnitRuntime.scriptFileName entry.1).isOk = true
  work_dir : ∃ workDir, validatedTargetWorkDir unit.workDir = .ok workDir ∧
    (node = .ssh → (normalizeRemoteAbsolutePath workDir).isOk = true)
  /-- Each script runs with the variables of the unit and of the platform. -/
  script_variables : unit.scripts.entries ≠ [] → ∀ spec : UnitRuntime.UnitExecutionSpec,
    spec.environmentVariables =
        UnitRuntime.environmentVariables secrets environment.key unit.key →
      (normalizedEnvPairs (UnitRuntime.executionEnvironment spec)).isOk = true
  health : ∃ config, normalizedUnitHealthCheck library unit = .ok config ∧
    config.kind ≠ .systemdActive ∧ (node = .ssh → (remoteEndpointCheck config).isOk = true)

/-- The directory without the blanks and slashes at its ends, with slashes for backslashes. -/
def remoteDirectory (workDir : String) : List Char :=
  withSlashes (String.ofList ((trim workDir).toList.rdropWhile isSlash))

/-- Names behind single slashes, of letters, digits and the other characters of a path. -/
structure IsRemotePath (path : List Char) : Prop where
  absolute : path.head? = some '/'
  single : ¬ ['/', '/'] <:+: path
  chars : ∀ char ∈ path, isOneOf pathChars char = true
  names : ['.'] ∉ path.splitOn '/'

/-- The scripts of a unit in the order of a deployment. -/
def scriptSlots : List String :=
  ["pre_deploy", "deploy", "post_deploy", "switch_traffic", "cleanup"]

/-- A text of graphic characters that no shell reads. -/
def IsPlainText (text : String) : Prop :=
  text ≠ "" ∧ ∀ char ∈ text.toList,
    isWhitespace char = false ∧ isAsciiGraphic char = true ∧ char ∉ refusedChars

/-- A host that is not blank and a port. -/
def IsHostPort (text : String) : Prop :=
  ∃ host port, text.toList = host ++ ':' :: port ∧ ':' ∉ port ∧ trim (String.ofList host) ≠ "" ∧
    parseU16 port ≠ none

/-- Compose units have no health check, one of their containers, or one of an endpoint. -/
def HealthReady (library : UrlLibrary) (node : NodeType) (kind endpoint : String) : Prop :=
  kind = "none" ∨ kind = "compose_running" ∨
    (kind = "http" ∨ kind = "tcp") ∧ (node = .ssh → IsPlainText endpoint) ∧
      (kind = "http" → ∃ url, library.parse endpoint = some url ∧ url.IsHttp) ∧
      (kind = "tcp" → IsHostPort endpoint)

/-- The text is the value of a variable of the unit in the environment. -/
def IsVariable (secrets : UnitRuntime.Entries) (environment : ConfigEnvironment)
    (unit : ConfigUnit) (name value : String) : Prop :=
  (environment.key ++ "." ++ unit.key ++ "." ++ name, value) ∈ secrets.entries

/-- What the deployment asks of a unit, field by field. -/
structure Deployable (library : UrlLibrary) (secrets : UnitRuntime.Entries)
    (environment : ConfigEnvironment) (unit : ConfigUnit) (node : NodeType) : Prop where
  names : ∀ name value, IsVariable secrets environment unit name value →
    UnitRuntime.validName name = true ∧
      (unit.scripts.entries ≠ [] → ∀ char ∈ name.toList, char.isLower = false)
  values : ∀ name value, IsVariable secrets environment unit name value →
    '\r' ∉ value.toList ∧ '\n' ∉ value.toList
  scripts : ∀ entry ∈ unit.scripts.entries, entry.1 ∈ scriptSlots
  component : hasComponent (trim unit.workDir).toList = true
  remote : node = .ssh → IsRemotePath (remoteDirectory unit.workDir)
  health : HealthReady library node (healthKind unit.healthCheck)
    (trim (healthEndpoint unit.healthCheck))

variable {library : UrlLibrary} {secrets : UnitRuntime.Entries} {environment : ConfigEnvironment}
  {unit : ConfigUnit} {node : NodeType}

/-- Variables are accepted if and only if they have names and values of one line. -/
theorem validateEnvironmentVariables_eq_ok_iff {entries : List (String × String)} :
    UnitRuntime.validateEnvironmentVariables entries = .ok () ↔ ∀ entry ∈ entries,
      UnitRuntime.validName entry.1 = true ∧ '\r' ∉ entry.2.toList ∧ '\n' ∉ entry.2.toList := by
  induction entries with
  | nil => exact ⟨fun _ entry h => absurd h List.not_mem_nil, fun _ => rfl⟩
  | cons first rest ih =>
      rw [UnitRuntime.validateEnvironmentVariables, List.forall_mem_cons, ← ih]
      split
      · rename_i hinvalid
        simp only [Bool.or_eq_true, Bool.not_eq_true', List.contains_iff_mem] at hinvalid
        constructor
        · intro h
          cases h
        · rintro ⟨⟨hname, hreturn, hnewline⟩, -⟩
          rcases hinvalid with (hfalse | hfalse) | hfalse
          · rw [hname] at hfalse
            cases hfalse
          · exact absurd hfalse hreturn
          · exact absurd hfalse hnewline
      · rename_i hvalid
        simp only [Bool.or_eq_true, Bool.not_eq_true', List.contains_iff_mem, not_or,
          Bool.not_eq_false] at hvalid
        exact ⟨fun h => ⟨⟨hvalid.1.1, hvalid.1.2, hvalid.2⟩, h⟩, fun h => h.2⟩

/-- No character of a name is a blank. -/
theorem isWhitespace_of_validName {name : String} (h : UnitRuntime.validName name = true) :
    ∀ char ∈ name.toList, isWhitespace char = false := by
  intro char hchar
  rw [UnitRuntime.validName, Bool.and_eq_true, Bool.and_eq_true, List.all_eq_true] at h
  have hword := h.1.2 char hchar
  have hbounds : 48 ≤ char.toNat ∧ char.toNat ≤ 122 := by
    have hword' : ((char.isUpper || char.isLower) || char.isDigit || char == '_') = true := hword
    simp only [Bool.or_eq_true, isUpper_iff, isLower_iff, Char.isDigit_iff_toNat, beq_iff_eq]
      at hword'
    rcases hword' with ((hrange | hrange) | hrange) | rfl
    · exact ⟨Nat.le_trans (by decide) hrange.1, Nat.le_trans hrange.2 (by decide)⟩
    · exact ⟨Nat.le_trans (by decide) hrange.1, hrange.2⟩
    · exact ⟨hrange.1, Nat.le_trans hrange.2 (by decide)⟩
    · decide
  simp only [isWhitespace, Bool.or_eq_false_iff, Bool.and_eq_false_iff, decide_eq_false_iff_not,
    beq_eq_false_iff_ne]
  omega

/-- The name of a variable is not trimmed. -/
theorem trim_of_validName {name : String} (h : UnitRuntime.validName name = true) :
    trim name = name := by
  apply trim_eq_self_iff.mpr
  constructor
  · intro char hchar
    exact isWhitespace_of_validName h char (List.mem_of_head? hchar)
  · intro char hchar
    exact isWhitespace_of_validName h char (List.mem_of_getLast? hchar)

/-- The names that a script may be given among the valid ones. -/
theorem normalizeEnvName_isOk_iff {name : String} (h : UnitRuntime.validName name = true) :
    (normalizeEnvName name).isOk = true ↔ ∀ char ∈ name.toList, char.isLower = false := by
  have hvalid := h
  rw [UnitRuntime.validName, Bool.and_eq_true, Bool.and_eq_true, List.all_eq_true] at hvalid
  obtain ⟨⟨hne, hword⟩, hhead⟩ := hvalid
  have hchars : (name.toList.all fun char => char.isUpper || char.isDigit || char == '_') = true ↔
      ∀ char ∈ name.toList, char.isLower = false := by
    rw [List.all_eq_true]
    constructor
    · intro hall char hchar
      have hupper := hall char hchar
      simp only [Bool.or_eq_true, isUpper_iff, Char.isDigit_iff_toNat, beq_iff_eq] at hupper
      rw [Bool.eq_false_iff, ne_eq, isLower_iff]
      intro hlower
      rcases hupper with (hrange | hrange) | rfl
      · exact absurd (Nat.le_trans hlower.1 hrange.2) (by decide)
      · exact absurd (Nat.le_trans hlower.1 hrange.2) (by decide)
      · exact absurd hlower.1 (by decide)
    · intro hlower char hchar
      have hchoice : ((char.isUpper || char.isLower) || char.isDigit || char == '_') = true :=
        hword char hchar
      rwa [hlower char hchar, Bool.or_false] at hchoice
  have hempty : name ≠ "" := by
    rintro rfl
    revert hne
    decide
  rw [normalizeEnvName, trim_of_validName h, ← hchars]
  rw [Bool.not_eq_true', Bool.eq_false_iff] at hhead
  constructor
  · intro hok
    by_contra hfalse
    rw [if_pos (.inr (.inr (by rw [Bool.not_eq_true', Bool.eq_false_iff]; exact hfalse)))] at hok
    cases hok
  · intro hall
    rw [if_neg]
    · rfl
    · rintro (hfalse | hfalse | hfalse)
      · exact hempty hfalse
      · exact hhead hfalse
      · rw [hall] at hfalse
        cases hfalse

/-- Variables are accepted if and only if their names are. -/
theorem normalizedEnvPairs_isOk_iff {env : List (String × String)} :
    (normalizedEnvPairs env).isOk = true ↔
      ∀ pair ∈ env, (normalizeEnvName pair.1).isOk = true := by
  induction env with
  | nil => exact ⟨fun _ pair h => absurd h List.not_mem_nil, fun _ => rfl⟩
  | cons first rest ih =>
      rw [List.forall_mem_cons, ← ih]
      show (normalizeEnvName first.1 >>= fun key => normalizedEnvPairs rest >>= fun rest =>
        .ok ((key, first.2) :: rest)).isOk = true ↔ _
      cases hfirst : normalizeEnvName first.1 with
      | error error =>
          constructor
          · intro h
            cases h
          · rintro ⟨hfalse, -⟩
            cases hfalse
      | ok key =>
          cases hrest : normalizedEnvPairs rest with
          | error error =>
              constructor
              · intro h
                cases h
              · rintro ⟨-, hfalse⟩
                cases hfalse
          | ok pairs => exact ⟨fun _ => ⟨rfl, rfl⟩, fun _ => rfl⟩

/-- The variables of the platform have names. -/
theorem platformVariables_names (spec : UnitRuntime.UnitExecutionSpec) :
    ∀ pair ∈ UnitRuntime.platformVariables spec, (normalizeEnvName pair.1).isOk = true := by
  have hnames : (UnitRuntime.platformVariables spec).map (·.1) =
      ["EASY_DEPLOY_APP_KEY", "EASY_DEPLOY_ENVIRONMENT", "EASY_DEPLOY_UNIT_KEY",
        "EASY_DEPLOY_VERSION"] := rfl
  have hall : (["EASY_DEPLOY_APP_KEY", "EASY_DEPLOY_ENVIRONMENT", "EASY_DEPLOY_UNIT_KEY",
      "EASY_DEPLOY_VERSION"].all fun name => (normalizeEnvName name).isOk) = true := by
    decide
  intro pair hpair
  apply List.all_eq_true.mp hall
  rw [← hnames]
  exact List.mem_map_of_mem hpair

/-- The variables that a unit gets. -/
theorem mem_variables_iff {name value : String} :
    (name, value) ∈ UnitRuntime.environmentVariables secrets environment.key unit.key ↔
      IsVariable secrets environment unit name value :=
  UnitRuntime.mem_environmentVariables

/-- A slot has a script if and only if it is one of those that are known. -/
theorem scriptFileName_isOk_iff {slot : String} :
    (UnitRuntime.scriptFileName slot).isOk = true ↔ slot ∈ scriptSlots := by
  constructor
  · intro h
    unfold UnitRuntime.scriptFileName at h
    split at h
    all_goals first
      | decide
      | cases h
  · intro h
    have hall : (scriptSlots.all fun slot => (UnitRuntime.scriptFileName slot).isOk) = true := by
      decide
    exact List.all_eq_true.mp hall slot h

/-- Each part of a text stands in it. -/
theorem infix_of_mem_splitOn {separator : Char} {text part : List Char}
    (h : part ∈ text.splitOn separator) : part <:+: text := by
  have hjoin : [separator].intercalate (text.splitOn separator) = text :=
    List.intercalate_splitOn separator
  have hparts (parts : List (List Char)) (hmem : part ∈ parts) :
      part ∈ parts.intersperse [separator] := by
    induction parts with
    | nil => cases hmem
    | cons first rest ih =>
        cases rest with
        | nil => exact hmem
        | cons second others =>
            rw [List.intersperse_cons_cons]
            rcases List.mem_cons.mp hmem with rfl | hlater
            · exact List.mem_cons_self
            · exact List.mem_cons_of_mem _ (List.mem_cons_of_mem _ (ih hlater))
  rw [← hjoin]
  exact List.infix_of_mem_flatten (hparts _ h)

/-- The characters of the remote directory are those of the directory, in their order. -/
theorem remoteDirectory_within (workDir : String) : remoteDirectory workDir <:+:
    workDir.toList.map fun char => if char = '\\' then '/' else char := by
  rw [remoteDirectory, withSlashes]
  apply List.IsInfix.map
  have htrim (text : String) : (trim text).toList <:+: text.toList := by
    rw [toList_trim]
    exact (List.rdropWhile_prefix _ _).isInfix.trans (List.dropWhile_suffix _).isInfix
  have hkept := List.rdropWhile_prefix isSlash (trim workDir).toList
  have hdropped := htrim (String.ofList ((trim workDir).toList.rdropWhile isSlash))
  rw [String.toList_ofList] at hdropped
  exact (hdropped.trans hkept.isInfix).trans (htrim workDir)

/-- A directory without dots has none on the other host. -/
theorem dots_not_mem_remoteDirectory {workDir : String}
    (h : ¬ ['.', '.'] <:+: workDir.toList) :
    ['.', '.'] ∉ (remoteDirectory workDir).splitOn '/' := by
  intro hmem
  have hdots := (infix_of_mem_splitOn hmem).trans (remoteDirectory_within workDir)
  obtain ⟨before, behind, heq⟩ := hdots
  obtain ⟨front, rest, htext, hfront, hrest⟩ := List.map_eq_append_iff.mp heq.symm
  obtain ⟨first, second, hfirst, rfl, hdot⟩ := List.map_eq_append_iff.mp hfront
  have hdot' : second = ['.', '.'] := by
    have hchar (char : Char) (hmapped : (if char = '\\' then '/' else char) = '.') :
        char = '.' := by
      split at hmapped
      · exact absurd hmapped (by decide)
      · exact hmapped
    obtain ⟨char, tail, rfl, hhead, htail⟩ := List.map_eq_cons_iff.mp hdot
    obtain ⟨char', tail', rfl, hhead', htail'⟩ := List.map_eq_cons_iff.mp htail
    rw [List.map_eq_nil_iff.mp htail', hchar char hhead, hchar char' hhead']
  apply h
  rw [htext, hfirst, hdot']
  exact ⟨first, rest, rfl⟩

/-- An absolute path stays one without the blanks around it. -/
theorem trim_of_absolute {workDir : String} (h : workDir.toList.head? = some '/') :
    (trim workDir).toList.head? = some '/' := by
  obtain ⟨rest, hrest⟩ := List.head?_eq_some_iff.mp h
  rw [toList_trim, hrest, List.dropWhile_cons_of_neg (by decide)]
  have hkept := List.rdropWhile_prefix isWhitespace ('/' :: rest)
  cases htrimmed : ('/' :: rest).rdropWhile isWhitespace with
  | nil =>
      have hblank := List.rdropWhile_eq_nil_iff.mp htrimmed '/' List.mem_cons_self
      exact absurd hblank (by decide)
  | cons first others =>
      rw [htrimmed] at hkept
      obtain ⟨suffix, hsuffix⟩ := hkept
      rw [(List.cons.inj hsuffix).1]
      rfl

/-- The check of an accepted directory. -/
theorem validatedTargetWorkDir_eq_ok_iff {workDir checked : String}
    (h : workDir.toList.head? = some '/') :
    validatedTargetWorkDir workDir = .ok checked ↔ hasComponent (trim workDir).toList = true ∧
      checked = String.ofList ((trim workDir).toList.rdropWhile isSlash) := by
  rw [validatedTargetWorkDir]
  have habsolute := trim_of_absolute h
  cases hcomponent : hasComponent (trim workDir).toList with
  | false =>
      rw [if_pos (.inr rfl)]
      constructor
      · intro hfalse
        cases hfalse
      · rintro ⟨hfalse, -⟩
        cases hfalse
  | true =>
      rw [if_neg (by rintro (hfalse | hfalse); exacts [hfalse habsolute, by cases hfalse])]
      constructor
      · intro heq
        exact ⟨rfl, (Except.ok.inj heq).symm⟩
      · rintro ⟨-, rfl⟩
        rfl

/-- A path is accepted for another host if and only if it is absolute, not the root, and of
characters that are allowed. -/
theorem normalizeRemoteAbsolutePath_isOk_iff {value : String}
    (h : ['.', '.'] ∉ (withSlashes value).splitOn '/') :
    (normalizeRemoteAbsolutePath value).isOk = true ↔ IsRemotePath (withSlashes value) := by
  rw [normalizeRemoteAbsolutePath]
  have hdots : (((withSlashes value).splitOn '/').any fun part =>
      part == ['.'] || part == ['.', '.']) = true ↔ ['.'] ∈ (withSlashes value).splitOn '/' := by
    rw [List.any_eq_true]
    constructor
    · rintro ⟨part, hpart, hdot⟩
      rw [Bool.or_eq_true, beq_iff_eq, beq_iff_eq] at hdot
      rcases hdot with rfl | rfl
      · exact hpart
      · exact absurd hpart h
    · intro hdot
      exact ⟨_, hdot, rfl⟩
  split
  · rename_i hrelative
    constructor
    · intro hfalse
      cases hfalse
    · intro hpath
      exact absurd hpath.absolute hrelative
  rename_i habsolute
  split
  · rename_i hinvalid
    constructor
    · intro hfalse
      cases hfalse
    · intro hpath
      rw [hdots] at hinvalid
      rcases hinvalid with hdouble | hchars | hdot
      · exact absurd hdouble hpath.single
      · rw [List.all_eq_true.mpr hpath.chars] at hchars
        cases hchars
      · exact absurd hdot hpath.names
  · rename_i hvalid
    rw [hdots, not_or, not_or, Bool.not_eq_true', Bool.not_eq_false, List.all_eq_true] at hvalid
    exact ⟨fun _ => ⟨not_not.mp habsolute, hvalid.1, hvalid.2.1, hvalid.2.2⟩, fun _ => rfl⟩

/-- The text of a kind of check is the one that is written. -/
theorem tryFrom_eq_ok_iff {text : String} {kind : HealthCheckKind} :
    HealthCheckKind.tryFrom text = .ok kind ↔ text = kind.asStr := by
  constructor
  · intro h
    unfold HealthCheckKind.tryFrom at h
    split at h
    all_goals first
      | obtain rfl := Except.ok.inj h
        rfl
      | cases h
  · rintro rfl
    cases kind <;> rfl

/-- A port is accepted if and only if it is a number of sixteen bits. -/
theorem isPort_iff {port : List Char} : isPort port = true ↔ parseU16 port ≠ none := by
  have hvalue (digits : List Char) : digits.foldl (fun number char =>
      number * 10 + (char.toNat - 48)) 0 = Nat.ofDigitChars 10 digits 0 := by
    have hstep : (fun (number : Nat) (char : Char) => number * 10 + (char.toNat - 48)) =
        fun number char => 10 * number + (char.toNat - '0'.toNat) := by
      funext number char
      rw [Nat.mul_comm]
      rfl
    rw [hstep]
    rfl
  rw [isPort, parseU16, parseDigits, hvalue, Bool.and_eq_true, Bool.and_eq_true,
    Bool.not_eq_true', List.isEmpty_eq_false_iff, decide_eq_true_eq]
  by_cases hdigits : (if port.head? = some '+' then port.tail else port) ≠ [] ∧
      (if port.head? = some '+' then port.tail else port).all Char.isDigit = true
  · rw [if_pos hdigits, Option.bind_some]
    constructor
    · rintro ⟨-, hbound⟩
      rw [if_pos hbound]
      exact Option.some_ne_none _
    · intro h
      refine ⟨hdigits, ?_⟩
      by_contra hbound
      rw [if_neg hbound] at h
      exact h rfl
  · rw [if_neg hdigits]
    constructor
    · rintro ⟨hfalse, -⟩
      exact absurd hfalse hdigits
    · intro h
      exact absurd rfl h

/-- An endpoint is one for TCP if and only if it is a host with a port. -/
theorem parseTcpEndpoint_isOk_iff {endpoint : String} (h : trim endpoint = endpoint) :
    (parseTcpEndpoint endpoint).isOk = true ↔ IsHostPort endpoint := by
  rw [parseTcpEndpoint, h]
  constructor
  · intro hok
    split at hok
    · cases hok
    · rename_i host port hsplit
      split at hok
      · cases hok
      · rename_i hvalid
        rw [not_or] at hvalid
        obtain ⟨htext, hport⟩ := rsplitOnce_eq_some_iff.mp hsplit
        exact ⟨host, port, htext, hport, hvalid.1, hvalid.2⟩
  · rintro ⟨host, port, htext, hport, hhost, hnumber⟩
    rw [rsplitOnce_eq_some_iff.mpr ⟨htext, hport⟩]
    dsimp only
    rw [if_neg (not_or.mpr ⟨hhost, hnumber⟩)]
    rfl

/-- An endpoint that is accepted for another host is taken as it is. -/
theorem normalizeRemoteHealthEndpoint_eq_ok_iff {endpoint label checked : String}
    (h : trim endpoint = endpoint) :
    normalizeRemoteHealthEndpoint endpoint label = .ok checked ↔
      checked = endpoint ∧ IsPlainText endpoint := by
  rw [normalizeRemoteHealthEndpoint, h]
  split
  · rename_i hempty
    constructor
    · intro hfalse
      cases hfalse
    · rintro ⟨-, hne, -⟩
      exact absurd hempty hne
  rename_i hne
  split
  · rename_i hinvalid
    constructor
    · intro hfalse
      cases hfalse
    · rintro ⟨-, -, hchars⟩
      rw [List.any_eq_true, List.any_eq_true, Bool.not_eq_true', List.all_eq_false] at hinvalid
      rcases hinvalid with ⟨char, hchar, hblank⟩ | ⟨char, hchar, hgraphic⟩ | ⟨char, hchar, hmem⟩
      · rw [(hchars char hchar).1] at hblank
        cases hblank
      · exact absurd (hchars char hchar).2.1 hgraphic
      · exact absurd (List.contains_iff_mem.mp hmem) (hchars char hchar).2.2
  · rename_i hvalid
    rw [not_or, not_or, Bool.not_eq_true', Bool.not_eq_false, List.all_eq_true,
      List.any_eq_true, List.any_eq_true] at hvalid
    constructor
    · intro heq
      refine ⟨(Except.ok.inj heq).symm, hne, fun char hchar => ⟨?_, ?_, ?_⟩⟩
      · rw [← Bool.not_eq_true]
        exact fun hblank => hvalid.1 ⟨char, hchar, hblank⟩
      · exact hvalid.2.1 char hchar
      · exact fun hmem => hvalid.2.2 ⟨char, hchar, List.contains_iff_mem.mpr hmem⟩
    · rintro ⟨rfl, -⟩
      rfl

/-- A host with a port is accepted for another host if and only if its text is plain. -/
theorem normalizeRemoteTcpEndpoint_isOk_iff {endpoint : String} (h : trim endpoint = endpoint)
    (hsocket : IsHostPort endpoint) :
    (normalizeRemoteTcpEndpoint endpoint).isOk = true ↔ IsPlainText endpoint := by
  constructor
  · intro hok
    obtain ⟨split, hsplit⟩ := exists_of_isOk hok
    obtain ⟨checked, hchecked, -⟩ := except_bind_eq_ok.mp hsplit
    exact ((normalizeRemoteHealthEndpoint_eq_ok_iff h).mp hchecked).2
  · intro hplain
    obtain ⟨host, port, htext, hport, hhost, hnumber⟩ := hsocket
    have hsplit : rsplitColon endpoint.toList = some (host, port) :=
      rsplitOnce_eq_some_iff.mpr ⟨htext, hport⟩
    have hvalid : ¬ (host = [] ∨ (!isPort port) = true) := by
      rintro (rfl | hfalse)
      · exact hhost (by decide)
      · rw [isPort_iff.mpr hnumber] at hfalse
        cases hfalse
    have hvalue : normalizeRemoteTcpEndpoint endpoint =
        .ok (String.ofList host, String.ofList port) := by
      apply except_bind_eq_ok.mpr
      refine ⟨endpoint, (normalizeRemoteHealthEndpoint_eq_ok_iff h).mpr ⟨rfl, hplain⟩, ?_⟩
      simp only [hsplit, hvalid, if_false]
    rw [hvalue]
    rfl

/-- An endpoint is checked by HTTP if and only if it is read as an address of the web. -/
theorem checkedEndpoint_http {endpoint checked : String} :
    checkedEndpoint library endpoint .http = .ok checked ↔
      checked = endpoint ∧ ∃ url, library.parse endpoint = some url ∧ url.IsHttp := by
  rw [checkedEndpoint]
  cases hparse : library.parse endpoint with
  | none =>
      constructor
      · intro hfalse
        cases hfalse
      · rintro ⟨-, url, hfalse, -⟩
        cases hfalse
  | some url =>
      dsimp only
      split
      · rename_i hhttp
        constructor
        · intro heq
          exact ⟨(Except.ok.inj heq).symm, url, rfl, hhttp⟩
        · rintro ⟨rfl, -⟩
          rfl
      · rename_i hother
        constructor
        · intro hfalse
          cases hfalse
        · rintro ⟨-, found, heq, hhttp⟩
          obtain rfl := Option.some.inj heq
          exact absurd hhttp hother

/-- An endpoint is checked by TCP if and only if it is a host with a port. -/
theorem checkedEndpoint_tcp {endpoint checked : String} (h : trim endpoint = endpoint) :
    checkedEndpoint library endpoint .tcp = .ok checked ↔
      checked = endpoint ∧ IsHostPort endpoint := by
  rw [checkedEndpoint, ← parseTcpEndpoint_isOk_iff h]
  cases parseTcpEndpoint endpoint with
  | error error =>
      constructor
      · intro hfalse
        cases hfalse
      · rintro ⟨-, hfalse⟩
        cases hfalse
  | ok socket =>
      constructor
      · intro heq
        exact ⟨(Except.ok.inj heq).symm, rfl⟩
      · rintro ⟨rfl, -⟩
        rfl

theorem isOk_map_unit {α : Type} {result : Except DeployError α} :
    (result.map fun _ => ()).isOk = result.isOk := by
  cases result <;> rfl

/-- A check by HTTP is sent to another host if and only if its endpoint is plain. -/
theorem remoteEndpointCheck_http {endpoint : String} {timeoutSecs expectedStatus : Int}
    (h : trim endpoint = endpoint) :
    (remoteEndpointCheck ⟨.http, endpoint, timeoutSecs, expectedStatus⟩).isOk = true ↔
      IsPlainText endpoint := by
  rw [remoteEndpointCheck, isOk_map_unit]
  constructor
  · intro hok
    obtain ⟨checked, hchecked⟩ := exists_of_isOk hok
    exact ((normalizeRemoteHealthEndpoint_eq_ok_iff h).mp hchecked).2
  · intro hplain
    rw [(normalizeRemoteHealthEndpoint_eq_ok_iff h).mpr ⟨rfl, hplain⟩]
    rfl

/-- A check by TCP is sent to another host if and only if its endpoint is plain. -/
theorem remoteEndpointCheck_tcp {endpoint : String} {timeoutSecs expectedStatus : Int}
    (h : trim endpoint = endpoint) (hsocket : IsHostPort endpoint) :
    (remoteEndpointCheck ⟨.tcp, endpoint, timeoutSecs, expectedStatus⟩).isOk = true ↔
      IsPlainText endpoint := by
  rw [remoteEndpointCheck, isOk_map_unit]
  exact normalizeRemoteTcpEndpoint_isOk_iff h hsocket

/-- A unit with a checked endpoint, which a remote host can test. -/
theorem health_iff {kind : HealthCheckKind} {endpoint : String} {timeoutSecs expectedStatus : Int}
    (h : trim endpoint = endpoint) :
    (∃ checked, checkedEndpoint library endpoint kind = .ok checked ∧ kind ≠ .systemdActive ∧
      (node = .ssh →
        (remoteEndpointCheck ⟨kind, checked, timeoutSecs, expectedStatus⟩).isOk = true)) ↔
      HealthReady library node kind.asStr endpoint := by
  cases kind with
  | none => exact ⟨fun _ => .inl rfl, fun _ => ⟨"", rfl, by decide, fun _ => rfl⟩⟩
  | composeRunning =>
      exact ⟨fun _ => .inr (.inl rfl), fun _ => ⟨"", rfl, by decide, fun _ => rfl⟩⟩
  | systemdActive =>
      constructor
      · rintro ⟨_, -, hkind, -⟩
        exact absurd rfl hkind
      · rintro (hfalse | hfalse | ⟨hfalse | hfalse, -⟩) <;> exact absurd hfalse (by decide)
  | http =>
      constructor
      · rintro ⟨checked, hchecked, -, hremote⟩
        obtain ⟨rfl, hurl⟩ := checkedEndpoint_http.mp hchecked
        exact .inr (.inr ⟨.inl rfl, fun hssh => (remoteEndpointCheck_http h).mp (hremote hssh),
          fun _ => hurl, fun hfalse => absurd hfalse (by decide)⟩)
      · rintro (hfalse | hfalse | ⟨-, hplain, hurl, -⟩)
        · exact absurd hfalse (by decide)
        · exact absurd hfalse (by decide)
        · exact ⟨endpoint, checkedEndpoint_http.mpr ⟨rfl, hurl rfl⟩, by decide,
            fun hssh => (remoteEndpointCheck_http h).mpr (hplain hssh)⟩
  | tcp =>
      constructor
      · rintro ⟨checked, hchecked, -, hremote⟩
        obtain ⟨rfl, hsocket⟩ := (checkedEndpoint_tcp h).mp hchecked
        exact .inr (.inr ⟨.inr rfl,
          fun hssh => (remoteEndpointCheck_tcp h hsocket).mp (hremote hssh),
          fun hfalse => absurd hfalse (by decide), fun _ => hsocket⟩)
      · rintro (hfalse | hfalse | ⟨-, hplain, -, hsocket⟩)
        · exact absurd hfalse (by decide)
        · exact absurd hfalse (by decide)
        · exact ⟨endpoint, (checkedEndpoint_tcp h).mpr ⟨rfl, hsocket rfl⟩, by decide,
            fun hssh => (remoteEndpointCheck_tcp h (hsocket rfl)).mpr (hplain hssh)⟩

/-- The kinds of a unit that is ready are those of the code. -/
theorem exists_kind_of_healthReady {kind endpoint : String}
    (h : HealthReady library node kind endpoint) :
    ∃ parsed : HealthCheckKind, kind = parsed.asStr := by
  rcases h with rfl | rfl | ⟨rfl | rfl, -⟩
  · exact ⟨.none, rfl⟩
  · exact ⟨.composeRunning, rfl⟩
  · exact ⟨.http, rfl⟩
  · exact ⟨.tcp, rfl⟩

/-- The check of a unit is done if and only if it is ready for the node. -/
theorem unit_health_iff :
    (∃ config, normalizedUnitHealthCheck library unit = .ok config ∧
      config.kind ≠ .systemdActive ∧
      (node = .ssh → (remoteEndpointCheck config).isOk = true)) ↔
      HealthReady library node (healthKind unit.healthCheck)
        (trim (healthEndpoint unit.healthCheck)) := by
  constructor
  · rintro ⟨config, hconfig, hkind, hremote⟩
    obtain ⟨kind, hparsed, hconfig⟩ := except_bind_eq_ok.mp hconfig
    obtain ⟨checked, hchecked, hconfig⟩ := except_bind_eq_ok.mp hconfig
    obtain rfl := Except.ok.inj hconfig
    rw [tryFrom_eq_ok_iff.mp hparsed]
    exact (health_iff (trim_trim _)).mp ⟨checked, hchecked, hkind, hremote⟩
  · intro hready
    obtain ⟨kind, hparsed⟩ := exists_kind_of_healthReady hready
    rw [hparsed] at hready
    obtain ⟨checked, hchecked, hkind, hremote⟩ := (health_iff (trim_trim _)).mpr hready
    refine ⟨_, ?_, hkind, hremote⟩
    apply except_bind_eq_ok.mpr
    refine ⟨kind, tryFrom_eq_ok_iff.mpr hparsed, ?_⟩
    exact except_bind_eq_ok.mpr ⟨checked, hchecked, rfl⟩

/-- What is left to check of a unit whose directory was accepted. -/
theorem checksSucceed_iff (habsolute : unit.workDir.toList.head? = some '/')
    (hdots : ¬ ['.', '.'] <:+: unit.workDir.toList) :
    ChecksSucceed library secrets environment unit node ↔
      Deployable library secrets environment unit node := by
  have hremote : (normalizeRemoteAbsolutePath
      (String.ofList ((trim unit.workDir).toList.rdropWhile isSlash))).isOk = true ↔
        IsRemotePath (remoteDirectory unit.workDir) :=
    normalizeRemoteAbsolutePath_isOk_iff (dots_not_mem_remoteDirectory hdots)
  constructor
  · intro h
    have hvariables := validateEnvironmentVariables_eq_ok_iff.mp h.environment_variables
    obtain ⟨workDir, hdir, hpath⟩ := h.work_dir
    obtain ⟨hcomponent, rfl⟩ := (validatedTargetWorkDir_eq_ok_iff habsolute).mp hdir
    refine ⟨?_, ?_, ?_, hcomponent, fun hssh => hremote.mp (hpath hssh),
      unit_health_iff.mp h.health⟩
    · intro name value hvariable
      have hmem := mem_variables_iff.mpr hvariable
      have hvalid := (hvariables _ hmem).1
      refine ⟨hvalid, fun hscripts => ?_⟩
      apply (normalizeEnvName_isOk_iff hvalid).mp
      have hrun := h.script_variables hscripts ⟨"", "", 0, "", ⟨"", "", "", "", unit.scripts⟩,
        .deploy, none, [], _⟩ rfl
      exact normalizedEnvPairs_isOk_iff.mp hrun _ (List.mem_append_left _ hmem)
    · intro name value hvariable
      exact (hvariables _ (mem_variables_iff.mpr hvariable)).2
    · intro entry hentry
      exact scriptFileName_isOk_iff.mp (h.scripts entry hentry)
  · intro h
    refine ⟨?_, ?_, ?_, ?_, unit_health_iff.mpr h.health⟩
    · apply validateEnvironmentVariables_eq_ok_iff.mpr
      rintro ⟨name, value⟩ hmem
      have hvariable := mem_variables_iff.mp hmem
      exact ⟨(h.names _ _ hvariable).1, h.values _ _ hvariable⟩
    · intro entry hentry
      exact scriptFileName_isOk_iff.mpr (h.scripts entry hentry)
    · exact ⟨_, (validatedTargetWorkDir_eq_ok_iff habsolute).mpr ⟨h.component, rfl⟩,
        fun hssh => hremote.mpr (h.remote hssh)⟩
    · intro hscripts spec hspec
      apply normalizedEnvPairs_isOk_iff.mpr
      intro pair hpair
      rcases List.mem_append.mp hpair with hunit | hplatform
      · rw [hspec] at hunit
        obtain ⟨hvalid, hlower⟩ := h.names pair.1 pair.2 (mem_variables_iff.mp hunit)
        exact (normalizeEnvName_isOk_iff hvalid).mpr (hlower hscripts)
      · exact platformVariables_names spec pair hplatform

/-- The deployment of a published configuration fails on its own content unless each active unit
is deployable. -/
theorem published_checks_iff {codec : ConfigCodec ApplicationConfigDocument}
    {document : ApplicationConfigDocument} (haccepted : Accepted codec document secrets) :
    (∀ environment ∈ document.environments, ∀ unit ∈ document.units, unit.status = "active" →
        ∀ node, ChecksSucceed library secrets environment unit node) ↔
      ∀ environment ∈ document.environments, ∀ unit ∈ document.units, unit.status = "active" →
        ∀ node, Deployable library secrets environment unit node := by
  have hdirs := workDir_of_validateDocument haccepted.valid
  have hunit (environment : ConfigEnvironment) (unit : ConfigUnit) (hmem : unit ∈ document.units)
      (node : NodeType) : ChecksSucceed library secrets environment unit node ↔
        Deployable library secrets environment unit node :=
    checksSucceed_iff (hdirs unit hmem).1 (hdirs unit hmem).2
  constructor
  · intro h environment henvironment unit hmem hactive node
    exact (hunit environment unit hmem node).mp (h environment henvironment unit hmem hactive node)
  · intro h environment henvironment unit hmem hactive node
    exact (hunit environment unit hmem node).mpr (h environment henvironment unit hmem hactive node)

/-- What is saved and published has been accepted. -/
theorem accepted_of_isOk {codec : ConfigCodec ApplicationConfigDocument}
    {document : ApplicationConfigDocument} (store : ConfigStore) (nonce : Nat)
    (h : (store.saveDraft (documentCodec codec) nonce document secrets.entries >>= fun saved =>
      saved.publishDraft (documentCodec codec) none
        ((saved.draft.map (·.draftHash)).getD "")).isOk = true) :
    Accepted codec document secrets := by
  obtain ⟨⟨draft, result, published⟩, h⟩ := exists_of_isOk h
  obtain ⟨saved, hsave, hpublish⟩ := except_bind_eq_ok.mp h
  exact ⟨store, saved, nonce, _, draft, result, published, hsave, hpublish⟩

namespace Shop

def production : ConfigEnvironment := ⟨"prod", "P", 1, [1]⟩

def apiUnit (workDir : String) : ConfigUnit :=
  ⟨"api", "A", true, "active", workDir, ⟨[("deploy", "docker compose up -d")], by decide⟩,
    .object [("kind", .string "tcp"), ("endpoint", .string "127.0.0.1:80")]⟩

def shop (workDir : String) : ApplicationConfigDocument :=
  ⟨[production], [apiUnit workDir], [⟨1, "main", "units", ["api"]⟩]⟩

def apiSecrets : UnitRuntime.Entries := ⟨[("prod.api.TOKEN", "x")], by decide⟩

/-- The text of such a document is the directory of its unit. -/
def texts : ConfigCodec ApplicationConfigDocument where
  writeDocument document := .ok ((document.units.map (·.workDir)).headD "")
  readDocument text := .ok (shop text)
  writeMap := Sample.textCodec.writeMap
  readMap := Sample.textCodec.readMap
  validate := validateDocument
  encrypt _ text := .ok text
  decrypt := .ok
  contentHash parts := parts.headD ""

def noUrls : UrlLibrary := ⟨fun _ => none, fun url => url.rest⟩

/-- The shop below `/srv/api` is accepted. -/
theorem accepted_srv : Accepted texts (shop "/srv/api") apiSecrets :=
  accepted_of_isOk Sample.noConfig 0 (by decide +kernel)

/-- The shop at the root is accepted. -/
theorem accepted_root : Accepted texts (shop "/") apiSecrets :=
  accepted_of_isOk Sample.noConfig 0 (by decide +kernel)

/-- The shop below `/srv/api` can be deployed on both kinds of nodes. -/
theorem deployable (node : NodeType) :
    Deployable noUrls apiSecrets production (apiUnit "/srv/api") node := by
  have hvariable (name value : String)
      (h : IsVariable apiSecrets production (apiUnit "/srv/api") name value) :
      name = "TOKEN" ∧ value = "x" := by
    obtain ⟨hname, hvalue⟩ := Prod.mk.inj (List.mem_singleton.mp h)
    refine ⟨?_, hvalue⟩
    have hlist := congrArg String.toList hname
    rw [String.toList_append] at hlist
    exact String.toList_inj.mp (List.append_cancel_left
      (hlist.trans (by decide : "prod.api.TOKEN".toList =
        ("prod" ++ "." ++ "api" ++ ".").toList ++ "TOKEN".toList)))
  refine ⟨?_, ?_, ?_, by decide, fun _ => ⟨by decide, by decide, ?_, by decide⟩, ?_⟩
  · intro name value h
    rw [(hvariable name value h).1]
    have hupper : ("TOKEN".toList.all fun char => !char.isLower) = true := by decide
    exact ⟨by decide, fun _ char hchar =>
      Bool.not_eq_true' _ |>.mp (List.all_eq_true.mp hupper char hchar)⟩
  · intro name value h
    rw [(hvariable name value h).2]
    decide
  · decide
  · have hchars : ((remoteDirectory "/srv/api").all (isOneOf pathChars)) = true := by decide
    exact List.all_eq_true.mp hchars
  · refine .inr (.inr ⟨.inr rfl, fun _ => ⟨by decide, ?_⟩, fun hfalse => absurd hfalse (by decide),
      fun _ => ⟨"127.0.0.1".toList, "80".toList, by decide, by decide, by decide, by decide⟩⟩)
    intro char hchar
    have hall : ("127.0.0.1:80".toList.all fun char => isWhitespace char == false &&
        isAsciiGraphic char && !refusedChars.contains char) = true := by
      decide
    have hplain := List.all_eq_true.mp hall char hchar
    simp only [Bool.and_eq_true, beq_iff_eq, Bool.not_eq_true', List.contains_eq_mem,
      decide_eq_false_iff_not] at hplain
    exact ⟨hplain.1.1, hplain.1.2, hplain.2⟩

end Shop

/-- A shop whose environments deploy one unit below an absolute path. -/
theorem published_checks_iff_shop :
    Accepted Shop.texts (Shop.shop "/srv/api") Shop.apiSecrets ∧
      ∀ environment ∈ (Shop.shop "/srv/api").environments,
        ∀ unit ∈ (Shop.shop "/srv/api").units, unit.status = "active" →
          ∀ node, ChecksSucceed Shop.noUrls Shop.apiSecrets environment unit node := by
  refine ⟨Shop.accepted_srv, (published_checks_iff Shop.accepted_srv).mpr ?_⟩
  intro environment henvironment unit hunit _ node
  rw [List.mem_singleton.mp henvironment, List.mem_singleton.mp hunit]
  exact Shop.deployable node

/-- The root is an accepted directory. -/
theorem root_is_accepted : ¬ ∀ (library : UrlLibrary)
    (codec : ConfigCodec ApplicationConfigDocument) (document : ApplicationConfigDocument)
    (secrets : UnitRuntime.Entries), Accepted codec document secrets →
      ∀ environment ∈ document.environments, ∀ unit ∈ document.units, unit.status = "active" →
        ∀ node, ChecksSucceed library secrets environment unit node := by
  intro hall
  obtain ⟨workDir, hdir, -⟩ := (hall Shop.noUrls _ _ _ Shop.accepted_root _ List.mem_cons_self _
    List.mem_cons_self rfl .local).work_dir
  have hok : (validatedTargetWorkDir "/").isOk = true := by
    rw [show validatedTargetWorkDir "/" = .ok workDir from hdir]
    rfl
  exact absurd hok (by decide)

end EasyDeploy.Configs
