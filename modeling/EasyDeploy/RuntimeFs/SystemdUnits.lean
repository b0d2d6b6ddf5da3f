import EasyDeploy.Apps.BinaryConfigs
import EasyDeploy.Foundation.Replacing

/-!
# Units of binary applications

A binary application has a unit, and one for each of its slots. The fields of the
configuration stand in the text of a unit as they are, with the port of a slot as a
variable of its environment.
-/

namespace EasyDeploy.RuntimeFs
open Foundation Apps

/-- What the units of an application are written from. -/
structure BinaryRuntimeConfig where
  appKey : String
  name : String
  artifactPath : String
  execArgs : String
  workingDir : String
  serviceUser : String
  unitName : String
  basePort : Int64
  standbyPort : Int64
deriving Repr, DecidableEq

/-- The same for a stored configuration. -/
def binaryRuntimeConfig (appKey name : String) (config : BinaryConfigItem) : BinaryRuntimeConfig :=
  { appKey, name, artifactPath := config.artifactPath, execArgs := config.execArgs
    workingDir := config.workingDir, serviceUser := config.serviceUser
    unitName := config.unitName, basePort := config.basePort, standbyPort := config.standbyPort }

/-- The slots that have a unit of their own. -/
inductive Slot
  | blue
  | green
deriving Repr, DecidableEq

/-- The word for a slot. -/
def Slot.name : Slot → String
  | .blue => "blue"
  | .green => "green"

/-- `replace('\\', "/")`. -/
def forwardSlashes (path : String) : String :=
  String.ofList (path.toList.map fun char => if char = '\\' then '/' else char)

/-- A path below the working directory. -/
def targetPath (workDir relativePath : String) : String :=
  let workDir := String.ofList ((forwardSlashes workDir).toList.rdropWhile (· == '/'))
  if workDir = "" then relativePath else workDir ++ "/" ++ relativePath

/-- `env_relative` of `binary_runtime_relative_paths`. -/
def envRelative (unitName : String) : String :=
  ".easy-deploy/systemd/" ++ unitEnvFileName unitName

/-- How the port is named in arguments. -/
def portVariable : List Char := "$\x7bPORT\x7d".toList

/-- `part.strip_prefix("--port=").is_some_and(|value| value == port_value)`. -/
def isPortOption (portValue part : List Char) : Bool := part == "--port=".toList ++ portValue

/-- The loop of `replace_port_in_args`. -/
def replacePortInParts (portValue : List Char) : Bool → List (List Char) → List (List Char)
  | _, [] => []
  | previousIsPortFlag, part :: rest =>
      let next :=
        if previousIsPortFlag ∧ part = portValue then portVariable
        else if part = portValue ∨ isPortOption portValue part then
          replaceText portValue portVariable part
        else part
      next :: replacePortInParts portValue (part == "--port".toList || part == "-p".toList) rest

/-- Arguments with the variable in the place of the port. -/
def replacePortInArgs (execArgs : String) (port : Int64) : String :=
  String.ofList (joinWords
    (replacePortInParts (toString port.toInt).toList false (splitWhitespace execArgs.toList)))

/-- The program and the arguments of a slot. -/
def slotExecStart (artifactPath execArgs : String) (port : Int64) : String × String :=
  if port ≤ 0 then (artifactPath, execArgs)
  else
    (String.ofList (replaceText (toString port.toInt).toList portVariable artifactPath.toList),
      replacePortInArgs execArgs port)

/-- The command of a unit. -/
def execStart (executablePath execArgs : String) : String :=
  if Blank execArgs then executablePath else executablePath ++ " " ++ trim execArgs

/-- The lines of a unit. -/
def renderSystemdUnitContent (config : BinaryRuntimeConfig) (slot envRelative : String)
    (executablePath execArgs : String) (port : Int64) : String :=
  let envFile := targetPath config.workingDir envRelative
  let workingDir := forwardSlashes config.workingDir
  let descriptionSlot := if slot = "" then "" else " " ++ slot
  let portEnv := if 0 < port then "Environment=PORT=" ++ toString port.toInt ++ "\n" else ""
  "[Unit]\nDescription=Easy Deploy " ++ config.name ++ " (" ++ config.appKey ++ ")" ++
    descriptionSlot ++ "\nAfter=network-online.target\nWants=network-online.target\n\n" ++
    "[Service]\nType=simple\nWorkingDirectory=" ++ workingDir ++ "\nEnvironmentFile=-" ++ envFile ++
    "\n" ++ portEnv ++ "User=" ++ config.serviceUser ++ "\nExecStart=" ++
    execStart executablePath execArgs ++
    "\nRestart=always\nRestartSec=5\nKillSignal=SIGTERM\nTimeoutStopSec=30\n\n" ++
    "[Install]\nWantedBy=multi-user.target\n"

/-- The unit of an application. -/
def renderSystemdUnit (config : BinaryRuntimeConfig) (envRelative : String) : String :=
  renderSystemdUnitContent config "" envRelative config.artifactPath config.execArgs 0

/-- The port of a slot. -/
def BinaryRuntimeConfig.slotPort (config : BinaryRuntimeConfig) : Slot → Int64
  | .blue => config.basePort
  | .green => config.standbyPort

/-- The port that stands in the arguments. -/
def BinaryRuntimeConfig.templatePort (config : BinaryRuntimeConfig) (slot : Slot) : Int64 :=
  if 0 < config.basePort then config.basePort else config.slotPort slot

/-- The program and the arguments of a slot. -/
def BinaryRuntimeConfig.slotCommand (config : BinaryRuntimeConfig) (slot : Slot) : String × String :=
  slotExecStart config.artifactPath config.execArgs (config.templatePort slot)

/-- The unit of a slot. -/
def renderBlueGreenSystemdUnit (config : BinaryRuntimeConfig) (slot : Slot) (envRelative : String) :
    String :=
  renderSystemdUnitContent config slot.name envRelative (config.slotCommand slot).1
    (config.slotCommand slot).2 (config.slotPort slot)

/-- The units that `save_binary_runtime_files` writes: one for the application and the slots. -/
def unitContent (config : BinaryRuntimeConfig) : Option Slot → String
  | none => renderSystemdUnit config (envRelative config.unitName)
  | some slot =>
      renderBlueGreenSystemdUnit config slot
        (envRelative (blueGreenUnitName config.unitName slot.name))

example : slotExecStart "/opt/easy-deploy/worker" "--host 0.0.0.0 --port 8080" 8080 =
    ("/opt/easy-deploy/worker", "--host 0.0.0.0 --port $\x7bPORT\x7d") := by decide

end EasyDeploy.RuntimeFs
