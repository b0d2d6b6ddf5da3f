import EasyDeploy.Foundation.Json
import EasyDeploy.Foundation.Trimming

/-!
# Restoring a configuration snapshot

A snapshot keeps the configuration of a binary application as a JSON object with
all its fields. Restoring takes each field from there, and from the current
configuration when the snapshot does not have it. A field that was empty when the
snapshot was made counts as missing.
-/

namespace EasyDeploy.Apps
open Foundation

/-- The configuration of a binary application. -/
structure BinaryConfigItem where
  serviceName : String
  artifactVersion : String
  artifactPath : String
  execArgs : String
  workingDir : String
  serviceUser : String
  unitName : String
  releaseStrategy : String
  activeSlot : String
  basePort : Int64
  standbyPort : Int64
  proxyEnabled : Int64
  proxyKind : String
  proxyDomain : String
  proxyConfigPath : String
  envContent : String
deriving Repr, DecidableEq

/-- An artifact as the restoration reads it. -/
structure BinaryArtifactItem where
  version : String
  artifactPath : String
deriving Repr, DecidableEq

/-- The scripts of a deployment. -/
structure DeployScriptSet where
  preDeploy : String
  deploy : String
  postDeploy : String
  switchTraffic : String
  cleanup : String
deriving Repr, DecidableEq

/-- No script. -/
def DeployScriptSet.default : DeployScriptSet := ⟨"", "", "", "", ""⟩

/-- The application that a snapshot belongs to. -/
structure AppDetailItem where
  id : Int
  appKey : String
  name : String
  description : String
  environment : String
  appType : String
  deployMode : String
  deployStrategy : String
  releaseSource : String
  autoQueueRelease : Int
  workDir : String
  status : String
deriving Repr, DecidableEq

/-- A stored snapshot. -/
structure AppConfigSnapshotItem where
  metadata : String
  envContent : String
deriving Repr, DecidableEq

/-- The fields of an object come in the order of their names. -/
def DeployScriptSet.toValue (scripts : DeployScriptSet) : Json :=
  .object [("cleanup", .string scripts.cleanup), ("deploy", .string scripts.deploy),
    ("post_deploy", .string scripts.postDeploy), ("pre_deploy", .string scripts.preDeploy),
    ("switch_traffic", .string scripts.switchTraffic)]

/-- The fields in the order in which they are stored. -/
def BinaryConfigItem.fields (binary : BinaryConfigItem) : List (String × Json) :=
  [("active_slot", .string binary.activeSlot),
    ("artifact_path", .string binary.artifactPath),
    ("artifact_version", .string binary.artifactVersion),
    ("base_port", .int binary.basePort.toInt), ("exec_args", .string binary.execArgs),
    ("proxy_config_path", .string binary.proxyConfigPath),
    ("proxy_domain", .string binary.proxyDomain),
    ("proxy_enabled", .int binary.proxyEnabled.toInt), ("proxy_kind", .string binary.proxyKind),
    ("release_strategy", .string binary.releaseStrategy),
    ("service_name", .string binary.serviceName), ("service_user", .string binary.serviceUser),
    ("standby_port", .int binary.standbyPort.toInt), ("unit_name", .string binary.unitName),
    ("working_dir", .string binary.workingDir)]

/-- The configuration as it is stored. -/
def BinaryConfigItem.toValue (binary : BinaryConfigItem) : Json := .object binary.fields

/-- The metadata of a snapshot. -/
def snapshotValue (source runtimeRoot : String) (version : Option String)
    (deployScripts : Option DeployScriptSet) (binary : Option BinaryConfigItem) : Json :=
  .object ((binary.map fun binary => ("binary", binary.toValue)).toList ++
    (deployScripts.map fun scripts => ("deploy_scripts", scripts.toValue)).toList ++
    [("runtime", .string "file"), ("runtime_root", .string runtimeRoot),
      ("source", .string source)] ++
    (version.map fun version => ("version", .string version)).toList)

/-- Their text. -/
def runtimeSnapshotMetadata (text : JsonText) (source runtimeRoot : String)
    (version : Option String) (deployScripts : Option DeployScriptSet)
    (binary : Option BinaryConfigItem) : Except String String :=
  text.toString (snapshotValue source runtimeRoot version deployScripts binary)

/-- `Value::get`. -/
def valueGet (key : String) : Json → Option Json
  | .object fields => (fields.find? fun entry => entry.1 == key).map (·.2)
  | _ => none

/-- An object of fields. -/
def isObject : Json → Bool
  | .object _ => true
  | _ => false

/-- A text. -/
def asStr : Json → Option String
  | .string text => some text
  | _ => none

/-- `Value::as_i64`. -/
def asI64 : Json → Option Int64
  | .int value =>
      if -9223372036854775808 ≤ value ∧ value < 9223372036854775808 then some (Int64.ofInt value)
      else none
  | _ => none

/-- A flag. -/
def asBool : Json → Option Bool
  | .bool value => some value
  | _ => none

/-- A text field. -/
def jsonString (value : Option Json) (key : String) : Option String :=
  (((value.bind (valueGet key)).bind asStr).map trim).filter (· != "")

/-- A number field. -/
def jsonI64 (value : Option Json) (key : String) : Option Int64 :=
  (value.bind (valueGet key)).bind asI64

/-- A flag field. -/
def jsonBool (value : Option Json) (key : String) : Option Bool :=
  (value.bind (valueGet key)).bind asBool

/-- A text that ends its last line. -/
def ensureTrailingNewline (value : String) : String :=
  if value = "" then "" else if value.toList.getLast? = some '\n' then value else value ++ "\n"

/-- The variables as they are stored. -/
def normalizeEnvContent (value : String) : String := ensureTrailingNewline (trim value)

/-- A required field that is blank takes its default. -/
def withDefault (value fallback : String) : String := if Blank value then fallback else value

/-- The configuration that is made from the metadata and from its part about the binary. -/
def configFromValues (app : AppDetailItem) (metadata binary : Option Json) (envContent : String)
    (current : BinaryConfigItem) (artifact : Option BinaryArtifactItem) : BinaryConfigItem :=
  let version := ((jsonString binary "artifact_version").or (jsonString metadata "version")).filter
    fun version => trim version != ""
  let path := (jsonString binary "artifact_path").filter fun path => trim path != ""
  { serviceName :=
      withDefault ((jsonString binary "service_name").getD current.serviceName) app.appKey
    artifactVersion := match artifact with
      | some artifact => artifact.version
      | none => version.getD current.artifactVersion
    artifactPath := match artifact, version with
      | some artifact, _ => artifact.artifactPath
      | none, some _ => path.getD current.artifactPath
      | none, none => current.artifactPath
    execArgs := (jsonString binary "exec_args").getD current.execArgs
    workingDir := withDefault ((jsonString binary "working_dir").getD current.workingDir) app.workDir
    serviceUser :=
      withDefault ((jsonString binary "service_user").getD current.serviceUser) "deploy"
    unitName := withDefault ((jsonString binary "unit_name").getD current.unitName)
      ("easy-deploy-" ++ app.appKey ++ ".service")
    releaseStrategy :=
      withDefault ((jsonString binary "release_strategy").getD current.releaseStrategy) "restart"
    activeSlot := withDefault ((jsonString binary "active_slot").getD current.activeSlot) "blue"
    basePort := (jsonI64 binary "base_port").getD current.basePort
    standbyPort := (jsonI64 binary "standby_port").getD current.standbyPort
    proxyEnabled := ((jsonI64 binary "proxy_enabled").or
      ((jsonBool binary "proxy_enabled").map fun value => if value then 1 else 0)).getD
        current.proxyEnabled
    proxyKind := (jsonString binary "proxy_kind").getD current.proxyKind
    proxyDomain := (jsonString binary "proxy_domain").getD current.proxyDomain
    proxyConfigPath := (jsonString binary "proxy_config_path").getD current.proxyConfigPath
    envContent := normalizeEnvContent envContent }

/-- The configuration that a snapshot restores. -/
def binaryConfigFromSnapshot (text : JsonText) (app : AppDetailItem)
    (snapshot : AppConfigSnapshotItem) (current : BinaryConfigItem)
    (artifact : Option BinaryArtifactItem) : BinaryConfigItem :=
  let metadata := (text.fromStr snapshot.metadata).toOption
  configFromValues app metadata ((metadata.bind (valueGet "binary")).filter isObject)
    snapshot.envContent current artifact

/-- A script of an object, which may be missing. -/
def scriptField (fields : List (String × Json)) (name : String) : Option String :=
  match fields.find? fun entry => entry.1 == name with
  | none => some ""
  | some entry => asStr entry.2

/-- `serde_json::from_value`; a structure is read from an object or from an array. -/
def DeployScriptSet.fromValue : Json → Option DeployScriptSet
  | .object fields => do
      let preDeploy ← scriptField fields "pre_deploy"
      let deploy ← scriptField fields "deploy"
      let postDeploy ← scriptField fields "post_deploy"
      let switchTraffic ← scriptField fields "switch_traffic"
      let cleanup ← scriptField fields "cleanup"
      some ⟨preDeploy, deploy, postDeploy, switchTraffic, cleanup⟩
  | .array elements => do
      let scripts ← elements.mapM asStr
      if scripts.length ≤ 5 then
        some ⟨scripts.getD 0 "", scripts.getD 1 "", scripts.getD 2 "", scripts.getD 3 "",
          scripts.getD 4 ""⟩
      else
        none
  | _ => none

/-- The scripts that a snapshot restores. -/
def deployScriptsFromSnapshotMetadata (text : JsonText) (metadata : String) : DeployScriptSet :=
  (((text.fromStr metadata).toOption.bind (valueGet "deploy_scripts")).bind
    DeployScriptSet.fromValue).getD .default

/-- A field of an object whose names differ. -/
theorem valueGet_of_mem {fields : List (String × Json)} (hkeys : (fields.map (·.1)).Nodup)
    {key : String} {value : Json} (h : (key, value) ∈ fields) :
    valueGet key (.object fields) = some value := by
  rw [valueGet]
  induction fields with
  | nil => exact absurd h List.not_mem_nil
  | cons entry rest ih =>
      rw [List.map_cons, List.nodup_cons] at hkeys
      rw [List.find?_cons]
      rcases List.mem_cons.mp h with rfl | hrest
      · rw [beq_self_eq_true]
        rfl
      · have hne : (entry.1 == key) = false := by
          apply beq_false_of_ne
          rintro rfl
          exact hkeys.1 (List.mem_map.mpr ⟨_, hrest, rfl⟩)
        rw [hne]
        exact ih hkeys.2 hrest

variable {text : JsonText} {source runtimeRoot metadata : String} {version : Option String}
  {deployScripts : Option DeployScriptSet} {binary current : BinaryConfigItem}
  {app : AppDetailItem} {value old fallback key : String}

theorem asI64_toInt (value : Int64) : asI64 (.int value.toInt) = some value := by
  have hle := value.le_toInt
  have hlt := value.toInt_lt
  rw [asI64, if_pos ⟨by omega, by omega⟩, Int64.ofInt_toInt]

/-- A text field that was written is read unless it is blank. -/
theorem jsonString_eq {object : Json} (h : valueGet key object = some (.string value)) :
    jsonString (some object) key = if Blank value then none else some (trim value) := by
  rw [jsonString, Option.bind_some, h, Option.bind_some, asStr, Option.map_some]
  by_cases hblank : Blank value
  · have htrim : trim value = "" := hblank
    rw [if_pos hblank, htrim]
    rfl
  · have htrim : (trim value != "") = true := bne_iff_ne.mpr hblank
    rw [if_neg hblank, Option.filter_some, if_pos htrim]

theorem jsonI64_eq {object : Json} {value : Int64}
    (h : valueGet key object = some (.int value.toInt)) :
    jsonI64 (some object) key = some value := by
  rw [jsonI64, Option.bind_some, h, Option.bind_some, asI64_toInt]

/-- An optional field comes back if it is not blank or the current one is blank as well. -/
theorem restored_iff {object : Json} (h : valueGet key object = some (.string value)) :
    trim ((jsonString (some object) key).getD old) = trim value ↔ (Blank value → Blank old) := by
  rw [jsonString_eq h]
  by_cases hblank : Blank value
  · rw [if_pos hblank, Option.getD_none, show trim value = "" from hblank]
    exact ⟨fun heq _ => heq, fun himplies => himplies hblank⟩
  · rw [if_neg hblank, Option.getD_some, trim_trim]
    exact ⟨fun _ hfalse => absurd hfalse hblank, fun _ => rfl⟩

/-- A required field comes back, too, if the current one is its default. -/
theorem restored_required_iff {object : Json}
    (h : valueGet key object = some (.string value)) :
    trim (withDefault ((jsonString (some object) key).getD old) fallback) =
        trim (withDefault value fallback) ↔
      (Blank value → Blank old ∨ trim old = trim fallback) := by
  rw [jsonString_eq h]
  by_cases hblank : Blank value
  · rw [if_pos hblank, Option.getD_none, withDefault, withDefault, if_pos hblank]
    by_cases hold : Blank old
    · rw [if_pos hold]
      exact ⟨fun _ _ => .inl hold, fun _ => rfl⟩
    · rw [if_neg hold]
      exact ⟨fun heq _ => .inr heq, fun himplies => (himplies hblank).resolve_left hold⟩
  · have hkept : ¬ Blank (trim value) := fun hfalse => hblank (blank_trim.mp hfalse)
    rw [if_neg hblank, Option.getD_some, withDefault, withDefault, if_neg hkept, if_neg hblank,
      trim_trim]
    exact ⟨fun _ hfalse => absurd hfalse hblank, fun _ => rfl⟩

theorem trim_normalizeEnvContent (value : String) :
    trim (normalizeEnvContent value) = trim value := by
  rw [normalizeEnvContent, ensureTrailingNewline]
  split
  · rename_i hempty
    rw [hempty, trim_empty]
  · split
    · exact trim_trim value
    · rw [trim_newline, trim_trim]

theorem valueGet_version :
    valueGet "version" (snapshotValue source runtimeRoot version deployScripts (some binary)) =
      version.map Json.string := by
  cases deployScripts <;> cases version <;> rfl

theorem valueGet_deployScripts {scripts : DeployScriptSet} {binary : Option BinaryConfigItem} :
    valueGet "deploy_scripts" (snapshotValue source runtimeRoot version (some scripts) binary) =
      some scripts.toValue := by
  cases binary <;> rfl

theorem fromValue_toValue (scripts : DeployScriptSet) :
    DeployScriptSet.fromValue scripts.toValue = some scripts := rfl

/-- A configuration is back, up to blanks at the ends of its texts; the required fields take their
defaults when they are blank. -/
structure Restores (app : AppDetailItem) (made restored : BinaryConfigItem) : Prop where
  serviceName : trim restored.serviceName = trim (withDefault made.serviceName app.appKey)
  artifactVersion : trim restored.artifactVersion = trim made.artifactVersion
  artifactPath : trim restored.artifactPath = trim made.artifactPath
  execArgs : trim restored.execArgs = trim made.execArgs
  workingDir : trim restored.workingDir = trim (withDefault made.workingDir app.workDir)
  serviceUser : trim restored.serviceUser = trim (withDefault made.serviceUser "deploy")
  unitName : trim restored.unitName =
    trim (withDefault made.unitName ("easy-deploy-" ++ app.appKey ++ ".service"))
  releaseStrategy : trim restored.releaseStrategy = trim (withDefault made.releaseStrategy "restart")
  activeSlot : trim restored.activeSlot = trim (withDefault made.activeSlot "blue")
  basePort : restored.basePort = made.basePort
  standbyPort : restored.standbyPort = made.standbyPort
  proxyEnabled : restored.proxyEnabled = made.proxyEnabled
  proxyKind : trim restored.proxyKind = trim made.proxyKind
  proxyDomain : trim restored.proxyDomain = trim made.proxyDomain
  proxyConfigPath : trim restored.proxyConfigPath = trim made.proxyConfigPath
  envContent : trim restored.envContent = trim made.envContent

/-- Where a field of the snapshot is blank, the current configuration has nothing to put there:
its field is blank as well or is the default of a required one. A snapshot without the version of
its artifact was made without a version, and the current artifact is that of the snapshot. -/
structure LeavesNothing (app : AppDetailItem) (version : Option String)
    (made current : BinaryConfigItem) : Prop where
  serviceName : Blank made.serviceName →
    Blank current.serviceName ∨ trim current.serviceName = trim app.appKey
  artifactVersion : Blank made.artifactVersion →
    (∀ given, version = some given → Blank given) ∧ Blank current.artifactVersion ∧
      trim current.artifactPath = trim made.artifactPath
  artifactPath : ¬ Blank made.artifactVersion → Blank made.artifactPath →
    Blank current.artifactPath
  execArgs : Blank made.execArgs → Blank current.execArgs
  workingDir : Blank made.workingDir →
    Blank current.workingDir ∨ trim current.workingDir = trim app.workDir
  serviceUser : Blank made.serviceUser →
    Blank current.serviceUser ∨ trim current.serviceUser = trim "deploy"
  unitName : Blank made.unitName → Blank current.unitName ∨
    trim current.unitName = trim ("easy-deploy-" ++ app.appKey ++ ".service")
  releaseStrategy : Blank made.releaseStrategy →
    Blank current.releaseStrategy ∨ trim current.releaseStrategy = trim "restart"
  activeSlot : Blank made.activeSlot →
    Blank current.activeSlot ∨ trim current.activeSlot = trim "blue"
  proxyKind : Blank made.proxyKind → Blank current.proxyKind
  proxyDomain : Blank made.proxyDomain → Blank current.proxyDomain
  proxyConfigPath : Blank made.proxyConfigPath → Blank current.proxyConfigPath

theorem valueGet_binaryField (h : (key, .string value) ∈ binary.fields) :
    valueGet key binary.toValue = some (.string value) :=
  valueGet_of_mem (show (binary.fields.map (·.1)).Nodup by simp [BinaryConfigItem.fields]) h

theorem valueGet_binaryNumber {number : Int64} (h : (key, .int number.toInt) ∈ binary.fields) :
    valueGet key binary.toValue = some (.int number.toInt) :=
  valueGet_of_mem (show (binary.fields.map (·.1)).Nodup by simp [BinaryConfigItem.fields]) h

/-- The version that a restore finds, in the configuration or beside it. -/
theorem version_eq :
    ((jsonString (some binary.toValue) "artifact_version").or
      (jsonString (some (snapshotValue source runtimeRoot version deployScripts (some binary)))
        "version")).filter (fun version => trim version != "") =
    if Blank binary.artifactVersion then (version.map trim).filter (· != "")
    else some (trim binary.artifactVersion) := by
  have hbeside : jsonString
      (some (snapshotValue source runtimeRoot version deployScripts (some binary))) "version" =
      (version.map trim).filter (· != "") := by
    rw [jsonString, Option.bind_some, valueGet_version]
    cases version <;> rfl
  have hfield : ("artifact_version", .string binary.artifactVersion) ∈ binary.fields := by
    simp [BinaryConfigItem.fields]
  rw [hbeside, jsonString_eq (valueGet_binaryField hfield)]
  by_cases hblank : Blank binary.artifactVersion
  · rw [if_pos hblank, if_pos hblank, Option.none_or]
    cases version with
    | none => rfl
    | some given =>
        rw [Option.map_some, Option.filter_some]
        split
        · rename_i hgiven
          rw [Option.filter_some, trim_trim, if_pos hgiven]
        · rfl
  · have hkept : (trim (trim binary.artifactVersion) != "") = true := by
      rw [trim_trim]
      exact bne_iff_ne.mpr hblank
    rw [if_neg hblank, if_neg hblank, Option.some_or, Option.filter_some, if_pos hkept]

/-- The path beside a version. -/
theorem path_iff {path : Option String}
    (hpath : path = if Blank value then none else some (trim value)) :
    trim ((path.filter fun path => trim path != "").getD old) = trim value ↔
      (Blank value → Blank old) := by
  by_cases hblank : Blank value
  · rw [hpath, if_pos hblank, Option.filter_none, Option.getD_none, show trim value = "" from hblank]
    exact ⟨fun heq _ => heq, fun himplies => himplies hblank⟩
  · have hkept : (trim (trim value) != "") = true := by
      rw [trim_trim]
      exact bne_iff_ne.mpr hblank
    rw [hpath, if_neg hblank, Option.filter_some, if_pos hkept, Option.getD_some, trim_trim]
    exact ⟨fun _ hfalse => absurd hfalse hblank, fun _ => rfl⟩

/-- The version and the path of the artifact are restored together. -/
theorem artifact_iff {restored : BinaryConfigItem} {envContent : String}
    (hrestored : restored = configFromValues app
      (some (snapshotValue source runtimeRoot version deployScripts (some binary)))
      (some binary.toValue) envContent current none) :
    trim restored.artifactVersion = trim binary.artifactVersion ∧
        trim restored.artifactPath = trim binary.artifactPath ↔
      (Blank binary.artifactVersion → (∀ given, version = some given → Blank given) ∧
        Blank current.artifactVersion ∧ trim current.artifactPath = trim binary.artifactPath) ∧
      (¬ Blank binary.artifactVersion → Blank binary.artifactPath →
        Blank current.artifactPath) := by
  have hfield : ("artifact_path", .string binary.artifactPath) ∈ binary.fields := by
    simp [BinaryConfigItem.fields]
  have hpath := jsonString_eq (valueGet_binaryField hfield)
  rw [hrestored]
  simp only [configFromValues, version_eq]
  by_cases hblank : Blank binary.artifactVersion
  · rw [if_pos hblank, show trim binary.artifactVersion = "" from hblank]
    cases version with
    | none =>
        simp only [Option.map_none, Option.filter_none, Option.getD_none]
        exact ⟨fun h => ⟨fun _ => ⟨(fun _ heq => by cases heq), h⟩,
          fun hfalse => absurd hblank hfalse⟩, fun h => (h.1 hblank).2⟩
    | some given =>
        by_cases hgiven : Blank given
        · have hnone : (Option.map trim (some given)).filter (· != "") = none := by
            rw [Option.map_some, show trim given = "" from hgiven]
            rfl
          rw [hnone]
          simp only [Option.getD_none]
          refine ⟨fun h => ⟨fun _ => ⟨fun other heq => ?_, h⟩,
            fun hfalse => absurd hblank hfalse⟩, fun h => (h.1 hblank).2⟩
          rw [← Option.some.inj heq]
          exact hgiven
        · have hsome : (Option.map trim (some given)).filter (· != "") = some (trim given) := by
            rw [Option.map_some, Option.filter_some, if_pos (bne_iff_ne.mpr hgiven)]
          rw [hsome]
          simp only [Option.getD_some, trim_trim]
          exact ⟨fun h => absurd h.1 hgiven, fun h => absurd ((h.1 hblank).1 given rfl) hgiven⟩
  · rw [if_neg hblank]
    simp only [Option.getD_some, trim_trim, true_and]
    rw [path_iff hpath]
    exact ⟨fun h => ⟨fun hfalse => absurd hfalse hblank, fun _ => h⟩, fun h => h.2 hblank⟩

/-- A snapshot that is read back. -/
theorem restores_iff (hread : text.fromStr metadata =
      .ok (snapshotValue source runtimeRoot version deployScripts (some binary))) :
    Restores app binary
        (binaryConfigFromSnapshot text app ⟨metadata, binary.envContent⟩ current none) ↔
      LeavesNothing app version binary current := by
  have hrestored : binaryConfigFromSnapshot text app ⟨metadata, binary.envContent⟩ current none =
      configFromValues app
        (some (snapshotValue source runtimeRoot version deployScripts (some binary)))
        (some binary.toValue) binary.envContent current none := by
    rw [binaryConfigFromSnapshot, hread]
    rfl
  have hartifact := artifact_iff hrestored
  rw [hrestored] at hartifact ⊢
  simp only [configFromValues] at hartifact ⊢
  have hfield {key value old : String} (h : (key, .string value) ∈ binary.fields) :
      trim ((jsonString (some binary.toValue) key).getD old) = trim value ↔
        (Blank value → Blank old) := restored_iff (valueGet_binaryField h)
  have hrequired {key value old fallback : String} (h : (key, .string value) ∈ binary.fields) :
      trim (withDefault ((jsonString (some binary.toValue) key).getD old) fallback) =
          trim (withDefault value fallback) ↔
        (Blank value → Blank old ∨ trim old = trim fallback) :=
    restored_required_iff (valueGet_binaryField h)
  have hnumber {key : String} {number old : Int64} (h : (key, .int number.toInt) ∈ binary.fields) :
      (jsonI64 (some binary.toValue) key).getD old = number := by
    rw [jsonI64_eq (valueGet_binaryNumber h), Option.getD_some]
  have hserviceName : ("service_name", .string binary.serviceName) ∈ binary.fields := by
    simp [BinaryConfigItem.fields]
  have hworkingDir : ("working_dir", .string binary.workingDir) ∈ binary.fields := by
    simp [BinaryConfigItem.fields]
  have hserviceUser : ("service_user", .string binary.serviceUser) ∈ binary.fields := by
    simp [BinaryConfigItem.fields]
  have hunitName : ("unit_name", .string binary.unitName) ∈ binary.fields := by
    simp [BinaryConfigItem.fields]
  have hreleaseStrategy : ("release_strategy", .string binary.releaseStrategy) ∈ binary.fields := by
    simp [BinaryConfigItem.fields]
  have hactiveSlot : ("active_slot", .string binary.activeSlot) ∈ binary.fields := by
    simp [BinaryConfigItem.fields]
  have hexecArgs : ("exec_args", .string binary.execArgs) ∈ binary.fields := by
    simp [BinaryConfigItem.fields]
  have hproxyKind : ("proxy_kind", .string binary.proxyKind) ∈ binary.fields := by
    simp [BinaryConfigItem.fields]
  have hproxyDomain : ("proxy_domain", .string binary.proxyDomain) ∈ binary.fields := by
    simp [BinaryConfigItem.fields]
  have hproxyConfigPath : ("proxy_config_path", .string binary.proxyConfigPath) ∈ binary.fields := by
    simp [BinaryConfigItem.fields]
  have hbasePort : ("base_port", .int binary.basePort.toInt) ∈ binary.fields := by
    simp [BinaryConfigItem.fields]
  have hstandbyPort : ("standby_port", .int binary.standbyPort.toInt) ∈ binary.fields := by
    simp [BinaryConfigItem.fields]
  have hproxyEnabled : ("proxy_enabled", .int binary.proxyEnabled.toInt) ∈ binary.fields := by
    simp [BinaryConfigItem.fields]
  constructor
  · intro h
    have hboth := hartifact.mp ⟨h.artifactVersion, h.artifactPath⟩
    obtain ⟨hname, -, -, hargs, hdir, huser, hunit, hstrategy, hslot, -, -, -, hkind, hdomain, hproxy,
      -⟩ := h
    dsimp only at hname hargs hdir huser hunit hstrategy hslot hkind hdomain hproxy
    constructor
    · exact (hrequired hserviceName).mp hname
    · exact hboth.1
    · exact hboth.2
    · exact (hfield hexecArgs).mp hargs
    · exact (hrequired hworkingDir).mp hdir
    · exact (hrequired hserviceUser).mp huser
    · exact (hrequired hunitName).mp hunit
    · exact (hrequired hreleaseStrategy).mp hstrategy
    · exact (hrequired hactiveSlot).mp hslot
    · exact (hfield hproxyKind).mp hkind
    · exact (hfield hproxyDomain).mp hdomain
    · exact (hfield hproxyConfigPath).mp hproxy
  · intro h
    have hboth := hartifact.mpr ⟨h.artifactVersion, h.artifactPath⟩
    constructor <;> dsimp only
    · exact (hrequired hserviceName).mpr h.serviceName
    · exact hboth.1
    · exact hboth.2
    · exact (hfield hexecArgs).mpr h.execArgs
    · exact (hrequired hworkingDir).mpr h.workingDir
    · exact (hrequired hserviceUser).mpr h.serviceUser
    · exact (hrequired hunitName).mpr h.unitName
    · exact (hrequired hreleaseStrategy).mpr h.releaseStrategy
    · exact (hrequired hactiveSlot).mpr h.activeSlot
    · exact hnumber hbasePort
    · exact hnumber hstandbyPort
    · rw [jsonI64_eq (valueGet_binaryNumber hproxyEnabled), Option.some_or, Option.getD_some]
    · exact (hfield hproxyKind).mpr h.proxyKind
    · exact (hfield hproxyDomain).mpr h.proxyDomain
    · exact (hfield hproxyConfigPath).mpr h.proxyConfigPath
    · exact trim_normalizeEnvContent binary.envContent

/-- The snapshot of a configuration restores it where the current configuration does not take the
place of blank fields, and it restores the scripts. -/
theorem snapshot_restores_iff (htext : text.RoundTrips)
    (hmetadata : runtimeSnapshotMetadata text source runtimeRoot version deployScripts
      (some binary) = .ok metadata) :
    (Restores app binary
        (binaryConfigFromSnapshot text app ⟨metadata, binary.envContent⟩ current none) ↔
      LeavesNothing app version binary current) ∧
    ∀ scripts, deployScripts = some scripts →
      deployScriptsFromSnapshotMetadata text metadata = scripts := by
  have hread := htext _ _ hmetadata
  refine ⟨restores_iff hread, ?_⟩
  rintro scripts rfl
  rw [deployScriptsFromSnapshotMetadata, hread, Except.toOption, Option.bind_some,
    valueGet_deployScripts, Option.bind_some, fromValue_toValue, Option.getD_some]

namespace Sample

def codec (expected : Json) : JsonText where
  toString value := if value = expected then .ok "snapshot" else .error "unexpected value"
  fromStr written := if written = "snapshot" then .ok expected else .error "unexpected text"

theorem roundTrips_codec (expected : Json) : (codec expected).RoundTrips := by
  intro value written h
  simp only [codec] at h ⊢
  split at h
  · rename_i hvalue
    rw [← Except.ok.inj h, if_pos rfl, hvalue]
  · cases h

def gateway : AppDetailItem :=
  { id := 1, appKey := "gateway", name := "Gateway", description := "", environment := "test"
    appType := "binary", deployMode := "binary", deployStrategy := "rolling_stop_on_failure"
    releaseSource := "package_upload", autoQueueRelease := 0, workDir := "/srv/gateway"
    status := "ready" }

/-- A service without arguments. -/
def quiet : BinaryConfigItem :=
  { serviceName := "gateway", artifactVersion := "1.4.0", artifactPath := "/data/gateway-1.4.0"
    execArgs := "", workingDir := "/srv/gateway", serviceUser := "deploy"
    unitName := "gateway.service", releaseStrategy := "restart", activeSlot := "blue"
    basePort := 8080, standbyPort := 8081, proxyEnabled := 0, proxyKind := "", proxyDomain := ""
    proxyConfigPath := "", envContent := "MODE=quiet\n" }

/-- The same service after an upgrade. -/
def upgraded : BinaryConfigItem :=
  { quiet with artifactVersion := "1.5.0", artifactPath := "/data/gateway-1.5.0", basePort := 9090 }

def debugging : BinaryConfigItem := { quiet with execArgs := "--debug" }

def scripts : DeployScriptSet := ⟨"systemctl stop gateway", "", "", "", "rm -rf /tmp/gateway"⟩

def quietValue : Json :=
  snapshotValue "manual" "/data/runtime" (some "1.4.0") (some scripts) (some quiet)

end Sample

/-- The upgrade is taken back. -/
theorem snapshot_restores_iff_upgraded :
    Restores Sample.gateway Sample.quiet
        (binaryConfigFromSnapshot (Sample.codec Sample.quietValue) Sample.gateway
          ⟨"snapshot", Sample.quiet.envContent⟩ Sample.upgraded none) ∧
      deployScriptsFromSnapshotMetadata (Sample.codec Sample.quietValue) "snapshot" =
        Sample.scripts := by
  have hmetadata : runtimeSnapshotMetadata (Sample.codec Sample.quietValue) "manual"
      "/data/runtime" (some "1.4.0") (some Sample.scripts) (some Sample.quiet) =
        .ok "snapshot" := by
    decide
  have hleaves : LeavesNothing Sample.gateway (some "1.4.0") Sample.quiet Sample.upgraded := by
    constructor <;> decide
  obtain ⟨hiff, hscripts⟩ :=
    snapshot_restores_iff (Sample.roundTrips_codec Sample.quietValue) hmetadata
  exact ⟨hiff.mpr hleaves, hscripts Sample.scripts rfl⟩

/-- Arguments that were given after the snapshot stay. -/
theorem arguments_stay : ¬ ∀ (text : JsonText), text.RoundTrips →
    ∀ (app : AppDetailItem) (made current : BinaryConfigItem) (source runtimeRoot metadata : String)
      (version : Option String) (deployScripts : Option DeployScriptSet),
    runtimeSnapshotMetadata text source runtimeRoot version deployScripts (some made) =
        .ok metadata →
      Restores app made
        (binaryConfigFromSnapshot text app ⟨metadata, made.envContent⟩ current none) := by
  intro hall
  have hmetadata : runtimeSnapshotMetadata (Sample.codec Sample.quietValue) "manual"
      "/data/runtime" (some "1.4.0") (some Sample.scripts) (some Sample.quiet) =
        .ok "snapshot" := by
    decide
  have hrestored := hall (Sample.codec Sample.quietValue)
    (Sample.roundTrips_codec Sample.quietValue) Sample.gateway Sample.quiet Sample.debugging
    "manual" "/data/runtime" "snapshot" (some "1.4.0") (some Sample.scripts) hmetadata
  have hdiffer : ¬ trim (binaryConfigFromSnapshot (Sample.codec Sample.quietValue) Sample.gateway
      ⟨"snapshot", Sample.quiet.envContent⟩ Sample.debugging none).execArgs =
        trim Sample.quiet.execArgs := by
    decide
  exact hdiffer hrestored.execArgs

end EasyDeploy.Apps
