import EasyDeploy.Foundation.Sequences
import EasyDeploy.Foundation.Shell
import EasyDeploy.Orchestrator.Plan
import Mathlib.Data.List.Infix

/-!
# Local and remote execution

The commands of a deployment unit run on the control host or, over SSH, on a
node. The executors check what they are given and build the arguments of a
process; `ssh` sends its operands as one line to the shell of the node.
-/

namespace EasyDeploy.Remote
open Foundation Shell

/-- How a command is refused. -/
inductive DeployError
  | invalidInput (message : String)
deriving Repr, DecidableEq

/-- Letters, digits and some other characters. -/
def isOneOf (chars : List Char) (char : Char) : Bool := char.isAlphanum || chars.contains char

/-- A trimmed text of letters, digits and some other characters. -/
def normalizeWord (chars : List Char) (empty invalid : String) (value : String) :
    Except DeployError String :=
  if trim value = "" then .error (.invalidInput empty)
  else if !(trim value).toList.all (isOneOf chars) then .error (.invalidInput invalid)
  else .ok (trim value)

/-- The characters of users. -/
def normalizeSshUser : String → Except DeployError String :=
  normalizeWord ['-', '_'] "SSH 用户不能为空" "SSH 用户仅支持字母、数字、短横线和下划线"

/-- The characters of addresses. -/
def normalizeSshAddress : String → Except DeployError String :=
  normalizeWord ['.', '-', '_'] "SSH 地址不能为空" "SSH 地址仅支持主机名或 IPv4 地址"

/-- `trim().replace('\\', "/")`. -/
def withSlashes (value : String) : List Char :=
  (trim value).toList.map fun char => if char = '\\' then '/' else char

/-- What else paths on nodes consist of. -/
def pathChars : List Char := ['/', '.', '-', '_', '@']

/-- An absolute path on a node. -/
def normalizeRemoteAbsolutePath (value : String) : Except DeployError String :=
  if (withSlashes value).head? ≠ some '/' then
    .error (.invalidInput "SSH 部署路径必须是绝对路径")
  else if ['/', '/'] <:+: withSlashes value ∨ !(withSlashes value).all (isOneOf pathChars) ∨
      ((withSlashes value).splitOn '/').any fun part => part == ['.'] || part == ['.', '.'] then
    .error (.invalidInput "SSH 部署路径仅支持字母、数字、斜线、点、短横线、下划线和 @")
  else
    .ok (String.ofList ((withSlashes value).rdropWhile (· == '/')))

/-- A path that begins with a drive. -/
def isWindowsAbsolutePath : List Char → Bool
  | drive :: colon :: slash :: _ => drive.isAlpha && colon == ':' && (slash == '/' || slash == '\\')
  | _ => false

/-- A script below the working directory. -/
def normalizeScriptRelativePath (value : String) : Except DeployError String :=
  if withSlashes value = [] ∨ (withSlashes value).head? = some '/' ∨
      isWindowsAbsolutePath (withSlashes value) then
    .error (.invalidInput "部署脚本路径必须是相对路径")
  else if ['/', '/'] <:+: withSlashes value ∨
      (((withSlashes value).splitOn '/').any fun part =>
        part == [] || part == ['.'] || part == ['.', '.']) ∨
      !(withSlashes value).all (isOneOf pathChars) then
    .error (.invalidInput "部署脚本路径仅支持字母、数字、斜线、点、短横线、下划线和 @")
  else
    .ok (String.ofList (withSlashes value))

/-- The name of a variable. -/
def normalizeEnvName (value : String) : Except DeployError String :=
  if trim value = "" ∨ (trim value).toList.head?.any Char.isDigit ∨
      !(trim value).toList.all (fun char => char.isUpper || char.isDigit || char == '_') then
    .error (.invalidInput "部署脚本环境变量名仅支持大写字母、数字和下划线，且不能以数字开头")
  else
    .ok (trim value)

/-- Variables whose names are accepted. -/
def normalizedEnvPairs : List (String × String) → Except DeployError (List (String × String))
  | [] => .ok []
  | (key, value) :: rest => do
      let key ← normalizeEnvName key
      let rest ← normalizedEnvPairs rest
      .ok ((key, value) :: rest)

/-- The words that set variables. -/
def normalizedEnvArgs (env : List (String × String)) : Except DeployError (List String) :=
  (normalizedEnvPairs env).map fun pairs => pairs.map fun pair => pair.1 ++ "=" ++ pair.2

/-- A visible character. -/
def isAsciiGraphic (char : Char) : Bool := 33 ≤ char.toNat && char.toNat ≤ 126

/-- Characters that no health endpoint may contain. -/
def refusedChars : List Char :=
  ['"', '\'', Char.ofNat 96, '$', '\\', ';', '|', '&', '<', '>']

/-- A URL that is asked on a node. -/
def normalizeRemoteHealthEndpoint (value label : String) : Except DeployError String :=
  if trim value = "" then .error (.invalidInput (label ++ " 健康检查地址不能为空"))
  else if (trim value).toList.any isWhitespace ∨ !(trim value).toList.all isAsciiGraphic ∨
      (trim value).toList.any refusedChars.contains then
    .error (.invalidInput (label ++ " 健康检查地址包含不支持的字符"))
  else .ok (trim value)

/-- `rsplit_once(':')`. -/
def rsplitColon (value : List Char) : Option (List Char × List Char) :=
  if ':' ∈ value then
    some ((value.rdropWhile (· != ':')).dropLast, value.rtakeWhile (· != ':'))
  else none

/-- `parse::<u16>`, which allows a plus sign. -/
def isPort (port : List Char) : Bool :=
  let digits := if port.head? = some '+' then port.tail else port
  !digits.isEmpty && digits.all Char.isDigit &&
    digits.foldl (fun number char => number * 10 + (char.toNat - 48)) 0 ≤ 65535

/-- A host and a port that are connected to on a node. -/
def normalizeRemoteTcpEndpoint (value : String) : Except DeployError (String × String) := do
  let value ← normalizeRemoteHealthEndpoint value "TCP"
  match rsplitColon value.toList with
  | none => .error (.invalidInput "TCP 健康检查地址格式应为 host:port")
  | some (host, port) =>
      if host = [] ∨ !isPort port then
        .error (.invalidInput "TCP 健康检查地址格式应为 host:port")
      else
        .ok (String.ofList host, String.ofList port)

/-- A text as one word of the shell. -/
def shellQuote (value : String) : List Char := quote value.toList

/-- A node with the user and the key. -/
structure SshTarget where
  user : String
  address : String
  port : Int
  identityFile : Option String
deriving Repr, DecidableEq

/-- A node whose address is accepted. -/
def SshTarget.new (user address : String) (port : Int) : Except DeployError SshTarget := do
  let user ← normalizeSshUser user
  let address ← normalizeSshAddress address
  if 1 ≤ port ∧ port ≤ 65535 then .ok ⟨user, address, port, none⟩
  else .error (.invalidInput "SSH 端口需要在 1 到 65535 之间")

/-- The node with another key. -/
def SshTarget.withIdentityFile (target : SshTarget) (identityFile : Option String) : SshTarget :=
  { target with identityFile := identityFile.filter (· != "") }

/-- How `ssh` names the node. -/
def SshTarget.destination (target : SshTarget) : String := target.user ++ "@" ++ target.address

/-- A file of host keys with the names that `ssh-keygen` finds in it. -/
structure KnownHostsFile where
  path : String
  entries : List String
deriving Repr, DecidableEq

/-- The files that `ssh` is run with. -/
structure SshExecutor where
  knownHostsFile : Option KnownHostsFile
deriving Repr, DecidableEq

/-- `ssh_known_host_lookup_key`. -/
def SshTarget.lookupKey (target : SshTarget) : String :=
  if target.port = 22 then target.address else "[" ++ target.address ++ "]:" ++ toString target.port

/-- The arguments of `ssh-keyscan` in `append_known_host_entry`. -/
def SshTarget.keyscanArgs (target : SshTarget) : List String :=
  ["-p", toString target.port, "-T", "10", "-H", target.address]

/-- What is done with a compose project. -/
inductive ComposeAction
  | up
  | down
  | psRunning
deriving Repr, DecidableEq

/-- The words of an action. -/
def ComposeAction.args : ComposeAction → List String
  | .up => ["up", "-d", "--remove-orphans"]
  | .down => ["down"]
  | .psRunning => ["ps", "--status", "running"]

/-- What is asked of a node. -/
inductive NodeCommand
  | mkdirAll (path : String)
  | copyFile (localPath remotePath : String)
  | compose (action : ComposeAction) (workDir : String)
  | runScript (workDir scriptRelativePath : String) (env : List (String × String))
  | httpHealthCheck (endpoint : String) (timeoutSecs : Nat)
  | tcpHealthCheck (endpoint : String) (timeoutSecs : Nat)
deriving Repr, DecidableEq

/-- `clamp(1, 60)`. -/
def clampTimeout (timeoutSecs : Nat) : Nat := max 1 (min timeoutSecs 60)

/-- The words before the URL. -/
def curlArgs (timeoutSecs : Nat) : List String :=
  ["curl", "-sS", "-L", "-o", "/dev/null", "-w", "%\x7bhttp_code\x7d", "--max-time",
    toString (clampTimeout timeoutSecs), "--connect-timeout", toString (clampTimeout timeoutSecs)]

/-- The words before the host. -/
def ncArgs (timeoutSecs : Nat) : List String :=
  ["nc", "-z", "-w", toString (clampTimeout timeoutSecs)]

/-- The program that a command stands for. Compose commands and scripts are what the local
executor runs; the others have no local command. -/
def NodeCommand.localRun (home : String) : NodeCommand → Except DeployError Run
  | .mkdirAll path => .ok ⟨home, ["mkdir", "-p", path]⟩
  | .copyFile localPath remotePath => .ok ⟨home, ["cp", localPath, remotePath]⟩
  | .compose action workDir => .ok ⟨workDir, "docker" :: "compose" :: action.args⟩
  | .runScript workDir scriptRelativePath env => do
      let script ← normalizeScriptRelativePath scriptRelativePath
      let args ← normalizedEnvArgs env
      .ok ⟨workDir, "env" :: (args ++ ["sh", script])⟩
  | .httpHealthCheck endpoint timeoutSecs => do
      let endpoint ← normalizeRemoteHealthEndpoint endpoint "HTTP"
      .ok ⟨home, curlArgs timeoutSecs ++ [endpoint]⟩
  | .tcpHealthCheck endpoint timeoutSecs => do
      let (host, port) ← normalizeRemoteTcpEndpoint endpoint
      .ok ⟨home, ncArgs timeoutSecs ++ [host, port]⟩

/-- The command of `run_script`. -/
def scriptCommand (workDir script : String) (env : List (String × String)) : String :=
  String.ofList ("cd ".toList ++ shellQuote workDir ++ " && env".toList ++
    (env.flatMap fun pair => ' ' :: (pair.1.toList ++ '=' :: shellQuote pair.2)) ++
    " sh ".toList ++ shellQuote (workDir ++ "/" ++ script))

/-- The operands of `ssh` behind the destination. -/
def NodeCommand.remoteArgs : NodeCommand → Except DeployError (List String)
  | .mkdirAll path => do
      let path ← normalizeRemoteAbsolutePath path
      .ok ["mkdir", "-p", path]
  | .copyFile _ remotePath => do
      let path ← normalizeRemoteAbsolutePath remotePath
      .ok [path]
  | .compose action workDir => do
      let workDir ← normalizeRemoteAbsolutePath workDir
      .ok (["cd", workDir, "&&", "docker", "compose"] ++ action.args)
  | .runScript workDir scriptRelativePath env => do
      let workDir ← normalizeRemoteAbsolutePath workDir
      let script ← normalizeScriptRelativePath scriptRelativePath
      let env ← normalizedEnvPairs env
      .ok ["sh", "-lc", scriptCommand workDir script env]
  | .httpHealthCheck endpoint timeoutSecs => do
      let endpoint ← normalizeRemoteHealthEndpoint endpoint "HTTP"
      .ok (curlArgs timeoutSecs ++ [endpoint])
  | .tcpHealthCheck endpoint timeoutSecs => do
      let (host, port) ← normalizeRemoteTcpEndpoint endpoint
      .ok (ncArgs timeoutSecs ++ [host, port])

/-- The options of `ssh` and `scp`. -/
def connectionArgs (executor : SshExecutor) (target : SshTarget) (portFlag : String) :
    List String :=
  [portFlag, toString target.port] ++
    (match executor.knownHostsFile with
      | some file => ["-o", "UserKnownHostsFile=" ++ file.path, "-o", "StrictHostKeyChecking=yes"]
      | none => []) ++
    (match target.identityFile with
      | some file => ["-i", file, "-o", "IdentitiesOnly=yes"]
      | none => [])

/-- The words of `ssh`. -/
def runSshArgs (executor : SshExecutor) (target : SshTarget) (remoteArgs : List String) :
    List String :=
  connectionArgs executor target "-p" ++ target.destination :: remoteArgs

/-- The words of `scp`. -/
def copyFileArgs (executor : SshExecutor) (target : SshTarget) (localPath remotePath : String) :
    List String :=
  connectionArgs executor target "-P" ++ [localPath, target.destination ++ ":" ++ remotePath]

/-- A word that is read as an option. -/
def startsWithDash (word : String) : Bool := word.toList.head? == some '-'

/-- The operands of `ssh` and `scp`, behind options that each take a value. -/
def operands (flags : List String) : List String → Option (List String)
  | [] => some []
  | flag :: rest =>
      if flag ∈ flags then
        match rest with
        | [] => none
        | _ :: rest => operands flags rest
      else if startsWithDash flag then none
      else some (flag :: rest)

/-- The destination and the words of the line for the shell. Behind the destination `ssh` looks
for options once more. -/
def sshCommand (args : List String) : Option (String × List String) :=
  match operands ["-p", "-o", "-i"] args with
  | some (destination :: words) =>
      if words.head?.any startsWithDash then none else some (destination, words)
  | _ => none

/-- A colon in front of the first slash separates a host from a path. -/
def isRemoteOperand (operand : String) : Bool :=
  (operand.toList.takeWhile (· != '/')).contains ':'

/-- The file and its destination. -/
def scpCommand (args : List String) : Option (String × String) :=
  match operands ["-P", "-o", "-i"] args with
  | some [source, destination] =>
      if isRemoteOperand source then none else some (source, destination)
  | _ => none

/-- The addresses that `ssh-keyscan` asks for their keys. -/
def keyscanAddresses : List String → Option (List String)
  | [] => some []
  | word :: rest =>
      if word = "-p" ∨ word = "-T" then
        match rest with
        | [] => none
        | _ :: rest => keyscanAddresses rest
      else if word = "-H" then keyscanAddresses rest
      else if startsWithDash word then none
      else some (word :: rest)

/-- `ensure_ssh_known_host` with a node that answers: `ssh-keygen -F` finds an entry, or
`ssh-keyscan` asks the address of the node for one. -/
def SshExecutor.knowsHost (executor : SshExecutor) (target : SshTarget) : Bool :=
  executor.knownHostsFile.all fun file =>
    file.entries.contains target.lookupKey ||
      keyscanAddresses target.keyscanArgs == some [target.address]

/-- A remote command behind `ensure_target_known_host`, as the login shell of the node runs it. -/
def NodeCommand.sentOutcome (executor : SshExecutor) (target : SshTarget) (host : Host)
    (history : List Run) (command : NodeCommand) : Option Outcome :=
  match command.remoteArgs with
  | .error _ => none
  | .ok args => match command with
    | .copyFile localPath _ =>
        args.head?.bind fun path =>
          (scpCommand (copyFileArgs executor target localPath path)).bind fun copied =>
            if copied.2 = target.destination ++ ":" ++ path then
              let run : Run := ⟨host.home, ["cp", copied.1, path]⟩
              some (history ++ [run], host.succeeds history run)
            else none
    | _ =>
        (sshCommand (runSshArgs executor target args)).bind fun sent =>
          if sent.1 = target.destination then
            runLine 2 host history host.home (join (sent.2.map String.toList))
          else none

/-- A remote command. -/
def NodeCommand.remoteOutcome (executor : SshExecutor) (target : SshTarget) (host : Host)
    (history : List Run) (command : NodeCommand) : Option Outcome :=
  if executor.knowsHost target then command.sentOutcome executor target host history else none

/-- A local command, in a directory that exists. -/
def NodeCommand.localOutcome (host : Host) (history : List Run) (command : NodeCommand) :
    Option Outcome :=
  match command.localRun host.home with
  | .error _ => none
  | .ok run =>
      if host.isDir history run.cwd then some (history ++ [run], host.succeeds history run)
      else none

/-- One command after another, until one fails. -/
def runAll (execute : List Run → NodeCommand → Option Outcome) :
    List Run → List NodeCommand → Option Outcome
  | history, [] => some (history, true)
  | history, command :: rest =>
      match execute history command with
      | none => none
      | some (after, false) => some (after, false)
      | some (after, true) => runAll execute after rest

/-- How a unit is checked. -/
inductive HealthCheckConfig
  | none
  | composeRunning
  | http (endpoint : String) (timeoutSecs : Nat)
  | tcp (endpoint : String) (timeoutSecs : Nat)
deriving Repr, DecidableEq

/-- What the commands of a unit are made of. -/
structure UnitCommands where
  action : Orchestrator.DeploymentAction
  workDir : String
  /-- The files of the staging directory, with their relative paths. -/
  files : List (String × String)
  /-- The slots that have a script, with the paths. -/
  scripts : List (String × String)
  env : List (String × String)
  health : HealthCheckConfig

namespace UnitCommands

variable (unit : UnitCommands)

/-- `sync_runtime_to_ssh` and `copy_runtime_tree`. -/
def syncRuntime : List NodeCommand :=
  unit.files.flatMap fun file =>
    let path := unit.workDir ++ "/" ++ file.2
    [.mkdirAll (String.ofList (path.toList.rdropWhile (· != '/')).dropLast),
      .copyFile file.1 path]

/-- The script of a stage, if there is one. -/
def scriptOf (slot : String) : List NodeCommand :=
  (unit.scripts.filter (·.1 = slot)).map fun entry => .runScript unit.workDir entry.2 unit.env

/-- The commands that deploy a slot. -/
def deploySlot : List NodeCommand :=
  if unit.scripts.any (·.1 = "deploy") then unit.scriptOf "deploy"
  else [.compose .up unit.workDir]

/-- The command that checks a unit. -/
def healthCheck : List NodeCommand :=
  match unit.health with
  | .none => []
  | .composeRunning => [.compose .psRunning unit.workDir]
  | .http endpoint timeoutSecs => [.httpHealthCheck endpoint timeoutSecs]
  | .tcp endpoint timeoutSecs => [.tcpHealthCheck endpoint timeoutSecs]

/-- `execute_prepared_unit_on_node`. -/
def commands : List NodeCommand :=
  if unit.action = .stop then [.compose .down unit.workDir]
  else
    unit.syncRuntime ++ unit.scriptOf "pre_deploy" ++ unit.deploySlot ++
      unit.scriptOf "post_deploy" ++ unit.healthCheck ++ unit.scriptOf "switch_traffic" ++
      unit.scriptOf "cleanup"

end UnitCommands

end EasyDeploy.Remote
