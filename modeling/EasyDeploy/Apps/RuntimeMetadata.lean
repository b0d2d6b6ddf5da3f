import EasyDeploy.Apps.BinaryConfigs
import EasyDeploy.Foundation.BlockMappings
import EasyDeploy.Foundation.Replacing

/-!
# Runtime metadata

The metadata of an application are written line by line as YAML, with two characters
escaped, and the configuration of a binary application is read back from them.
-/

namespace EasyDeploy.Apps
open Foundation

/-- A node as the metadata name it. -/
structure TargetNodeMetadata where
  nodeKey : String
  name : String
deriving Repr, DecidableEq

/-- A text as it stands between double quotes. -/
def yamlEscape (value : String) : String :=
  String.ofList (replaceText ['"'] ['\\', '"'] (replaceText ['\\'] ['\\', '\\'] value.toList))

/-- A line with a quoted text. -/
def pushYamlString (output key value : String) : String :=
  output ++ key ++ ": \"" ++ yamlEscape value ++ "\"\n"

/-- The same within a list or a mapping. -/
def pushIndentedYamlString (output key value : String) (indent : Nat) : String :=
  pushYamlString (output ++ String.ofList (List.replicate indent ' ')) key value

/-- The lines of a node. -/
def pushTargetNode (output : String) (node : TargetNodeMetadata) : String :=
  output ++ "  - node_key: \"" ++ yamlEscape node.nodeKey ++ "\"\n" ++ "    name: \"" ++
    yamlEscape node.name ++ "\"\n"

/-- The part of `render_runtime_metadata` for a binary application. -/
def pushBinary (output : String) (binary : BinaryConfigItem) : String :=
  let output := output ++ "binary:\n"
  let output := pushIndentedYamlString output "service_name" binary.serviceName 2
  let output := pushIndentedYamlString output "artifact_version" binary.artifactVersion 2
  let output := pushIndentedYamlString output "artifact_path" binary.artifactPath 2
  let output := pushIndentedYamlString output "exec_args" binary.execArgs 2
  let output := pushIndentedYamlString output "working_dir" binary.workingDir 2
  let output := pushIndentedYamlString output "service_user" binary.serviceUser 2
  let output := pushIndentedYamlString output "unit_name" binary.unitName 2
  let output := pushIndentedYamlString output "release_strategy" binary.releaseStrategy 2
  let output := pushIndentedYamlString output "active_slot" binary.activeSlot 2
  let output := output ++ "  base_port: " ++ toString binary.basePort.toInt ++ "\n"
  let output := output ++ "  standby_port: " ++ toString binary.standbyPort.toInt ++ "\n"
  let output := output ++ "  proxy_enabled: " ++
    (if binary.proxyEnabled = 1 then "true" else "false") ++ "\n"
  let output := pushIndentedYamlString output "proxy_kind" binary.proxyKind 2
  let output := pushIndentedYamlString output "proxy_domain" binary.proxyDomain 2
  let output := pushIndentedYamlString output "proxy_config_path" binary.proxyConfigPath 2
  let output := pushIndentedYamlString output "unit_file"
    (".easy-deploy/systemd/" ++ binary.unitName) 2
  let output := pushIndentedYamlString output "env_file"
    (".easy-deploy/systemd/" ++ unitEnvFileName binary.unitName) 2
  let output := pushIndentedYamlString output "release_file"
    ("releases/" ++ binary.artifactVersion ++ "/release.yaml") 2
  pushIndentedYamlString output "current_release_file" "current" 2

/-- The document that is written next to the runtime files. -/
def renderRuntimeMetadata (app : AppDetailItem) (targetNodes : List TargetNodeMetadata)
    (runtimeRoot : String) (binary : Option BinaryConfigItem) : String :=
  let output := "app_id: " ++ toString app.id ++ "\n"
  let output := pushYamlString output "app_key" app.appKey
  let output := pushYamlString output "name" app.name
  let output := pushYamlString output "description" app.description
  let output := pushYamlString output "environment" app.environment
  let output := pushYamlString output "app_type" app.appType
  let output := pushYamlString output "deploy_mode" app.deployMode
  let output := pushYamlString output "deploy_strategy" app.deployStrategy
  let output := pushYamlString output "release_source" app.releaseSource
  let output := output ++ "auto_queue_release: " ++
    (if app.autoQueueRelease = 1 then "true" else "false") ++ "\n"
  let output := pushYamlString output "deploy_work_dir" app.workDir
  let output := pushYamlString output "runtime_root" runtimeRoot
  let output := output ++ "target_nodes:\n"
  let output := targetNodes.foldl pushTargetNode output
  match binary with
  | some binary => pushBinary output binary
  | none => output

/-- A text field, empty when it is missing. -/
def yamlString (value : Json) (key : String) : String := ((valueGet key value).bind asStr).getD ""

/-- A number field, zero when it is missing. -/
def yamlI64 (value : Json) (key : String) : Int64 := ((valueGet key value).bind asI64).getD 0

/-- A flag, false when it is missing. -/
def yamlBool (value : Json) (key : String) : Bool := ((valueGet key value).bind asBool).getD false

/-- The configuration of an application without one. -/
def BinaryConfigItem.default : BinaryConfigItem :=
  { serviceName := "", artifactVersion := "", artifactPath := "", execArgs := "", workingDir := ""
    serviceUser := "", unitName := "", releaseStrategy := "", activeSlot := "", basePort := 0
    standbyPort := 0, proxyEnabled := 0, proxyKind := "", proxyDomain := ""
    proxyConfigPath := "", envContent := "" }

/-- The configuration as it is read back. -/
def binaryConfigFromMetadata (metadata : String) : BinaryConfigItem :=
  match (Yaml.readDocument metadata.toList).bind (valueGet "binary") with
  | none => .default
  | some binary =>
      { serviceName := yamlString binary "service_name"
        artifactVersion := yamlString binary "artifact_version"
        artifactPath := yamlString binary "artifact_path"
        execArgs := yamlString binary "exec_args"
        workingDir := yamlString binary "working_dir"
        serviceUser := yamlString binary "service_user"
        unitName := yamlString binary "unit_name"
        releaseStrategy := yamlString binary "release_strategy"
        activeSlot := yamlString binary "active_slot"
        basePort := yamlI64 binary "base_port"
        standbyPort := yamlI64 binary "standby_port"
        proxyEnabled := if yamlBool binary "proxy_enabled" then 1 else 0
        proxyKind := yamlString binary "proxy_kind"
        proxyDomain := yamlString binary "proxy_domain"
        proxyConfigPath := yamlString binary "proxy_config_path"
        envContent := "" }

/-- The fields of a node. -/
def targetNodeFields (node : TargetNodeMetadata) : Yaml.Field × List Yaml.Field :=
  (("node_key", .text node.nodeKey), [("name", .text node.name)])

/-- The fields of a configuration. -/
def binaryFields (binary : BinaryConfigItem) : List Yaml.Field :=
  [("artifact_version", .text binary.artifactVersion),
    ("artifact_path", .text binary.artifactPath), ("exec_args", .text binary.execArgs),
    ("working_dir", .text binary.workingDir), ("service_user", .text binary.serviceUser),
    ("unit_name", .text binary.unitName), ("release_strategy", .text binary.releaseStrategy),
    ("active_slot", .text binary.activeSlot), ("base_port", .int binary.basePort.toInt),
    ("standby_port", .int binary.standbyPort.toInt),
    ("proxy_enabled", .bool (binary.proxyEnabled = 1)), ("proxy_kind", .text binary.proxyKind),
    ("proxy_domain", .text binary.proxyDomain),
    ("proxy_config_path", .text binary.proxyConfigPath),
    ("unit_file", .text (".easy-deploy/systemd/" ++ binary.unitName)),
    ("env_file", .text (".easy-deploy/systemd/" ++ unitEnvFileName binary.unitName)),
    ("release_file", .text ("releases/" ++ binary.artifactVersion ++ "/release.yaml")),
    ("current_release_file", .text "current")]

/-- The keys of the metadata with the values that are given for them. -/
def runtimeMetadata (app : AppDetailItem) (targetNodes : List TargetNodeMetadata)
    (runtimeRoot : String) (binary : Option BinaryConfigItem) : List (String × Yaml.Value) :=
  [("app_id", .scalar (.int app.id)), ("app_key", .scalar (.text app.appKey)),
    ("name", .scalar (.text app.name)), ("description", .scalar (.text app.description)),
    ("environment", .scalar (.text app.environment)), ("app_type", .scalar (.text app.appType)),
    ("deploy_mode", .scalar (.text app.deployMode)),
    ("deploy_strategy", .scalar (.text app.deployStrategy)),
    ("release_source", .scalar (.text app.releaseSource)),
    ("auto_queue_release", .scalar (.bool (app.autoQueueRelease = 1))),
    ("deploy_work_dir", .scalar (.text app.workDir)),
    ("runtime_root", .scalar (.text runtimeRoot)),
    ("target_nodes", .items (targetNodes.map targetNodeFields))] ++
  (binary.map fun binary =>
    ("binary", .fields ("service_name", .text binary.serviceName) (binaryFields binary))).toList

theorem replaceText_single (char : Char) (replacement : List Char) (next : Char)
    (rest : List Char) : replaceText [char] replacement (next :: rest) =
      if next = char then replacement ++ replaceText [char] replacement rest
      else next :: replaceText [char] replacement rest := by
  split
  · rename_i hsame
    rw [hsame]
    exact replaceText_occurrence (List.cons_ne_nil char []) rest
  · rename_i hne
    apply replaceText_cons
    intro hstarts
    exact hne (List.cons_prefix_cons.mp hstarts).1.symm

theorem toList_yamlEscape (value : String) :
    (yamlEscape value).toList = Yaml.escape value.toList := by
  rw [yamlEscape, String.toList_ofList]
  induction value.toList with
  | nil => rfl
  | cons char rest ih =>
      by_cases hbackslash : char = '\\'
      · rw [replaceText_single, if_pos hbackslash, Yaml.escape_special (.inl hbackslash),
          List.cons_append, List.cons_append, List.nil_append, replaceText_single,
          if_neg (by decide), replaceText_single, if_neg (by decide), ih, hbackslash]
      · by_cases hquote : char = '"'
        · rw [replaceText_single, if_neg hbackslash, Yaml.escape_special (.inr hquote),
            replaceText_single, if_pos hquote, ih, hquote]
          rfl
        · rw [replaceText_single, if_neg hbackslash, Yaml.escape_other (not_or.mpr
            ⟨hbackslash, hquote⟩), replaceText_single, if_neg hquote, ih]

variable (output : String)

theorem toList_pushYamlString (key value : String) :
    (pushYamlString output key value).toList =
      output.toList ++ Yaml.Field.source (key, .text value) := by
  have hopen : ": \"".toList = [':', ' ', '"'] := by decide
  have hclose : "\"\n".toList = ['"', '\n'] := by decide
  simp only [pushYamlString, String.toList_append, toList_yamlEscape, hopen, hclose,
    Yaml.Field.source, Yaml.Scalar.source, List.append_assoc, List.cons_append, List.nil_append]

theorem toList_pushIndentedYamlString (key value : String) (indent : Nat) :
    (pushIndentedYamlString output key value indent).toList =
      output.toList ++ (List.replicate indent ' ' ++ Yaml.Field.source (key, .text value)) := by
  rw [pushIndentedYamlString, toList_pushYamlString, String.toList_append, String.toList_ofList,
    List.append_assoc]

/-- A line that starts with a key and goes on with a plain scalar. -/
theorem toList_plain {line : String} {blanks : List Char} {key text : String}
    {value : Yaml.Scalar} (hline : line.toList = blanks ++ (key.toList ++ [':', ' ']))
    (hvalue : text.toList = value.source) : (output ++ line ++ text ++ "\n").toList =
      output.toList ++ (blanks ++ Yaml.Field.source (key, value)) := by
  have hend : "\n".toList = ['\n'] := by decide
  simp only [String.toList_append, hline, hvalue, hend, Yaml.Field.source, List.append_assoc,
    List.cons_append, List.nil_append]

theorem toList_pushTargetNode (node : TargetNodeMetadata) :
    (pushTargetNode output node).toList =
      output.toList ++ Yaml.itemsSource 2 [targetNodeFields node] := by
  have hkey : "  - node_key: \"".toList =
      [' ', ' ', '-', ' '] ++ ("node_key".toList ++ [':', ' ', '"']) := by decide
  have hname : "    name: \"".toList =
      [' ', ' ', ' ', ' '] ++ ("name".toList ++ [':', ' ', '"']) := by decide
  have hclose : "\"\n".toList = ['"', '\n'] := by decide
  simp only [pushTargetNode, String.toList_append, toList_yamlEscape, hkey, hname, hclose,
    Yaml.itemsSource, targetNodeFields, Yaml.fieldsSource, Yaml.Field.source, Yaml.Scalar.source,
    List.replicate, List.append_assoc, List.cons_append, List.nil_append, List.append_nil]

theorem itemsSource_append (indent : Nat) (items others : List (Yaml.Field × List Yaml.Field)) :
    Yaml.itemsSource indent (items ++ others) =
      Yaml.itemsSource indent items ++ Yaml.itemsSource indent others := by
  induction items with
  | nil => rfl
  | cons item items ih =>
      simp only [List.cons_append, Yaml.itemsSource, ih, List.append_assoc]

theorem toList_targetNodes (targetNodes : List TargetNodeMetadata) :
    (targetNodes.foldl pushTargetNode output).toList =
      output.toList ++ Yaml.itemsSource 2 (targetNodes.map targetNodeFields) := by
  induction targetNodes generalizing output with
  | nil => exact (List.append_nil _).symm
  | cons node nodes ih =>
      rw [List.foldl_cons, ih, toList_pushTargetNode, List.append_assoc, ← itemsSource_append]
      rfl

theorem toList_truth (condition : Prop) [Decidable condition] :
    (if condition then "true" else "false").toList = (Yaml.Scalar.bool condition).source := by
  by_cases h : condition
  · rw [if_pos h, decide_eq_true h]
    decide
  · rw [if_neg h, decide_eq_false h]
    decide

theorem toList_pushBinary (binary : BinaryConfigItem) :
    (pushBinary output binary).toList = output.toList ++ Yaml.source [("binary",
      .fields ("service_name", .text binary.serviceName) (binaryFields binary))] := by
  have hbinary : ∀ output : String, (output ++ "binary:\n").toList =
      output.toList ++ ("binary".toList ++ [':', '\n']) := by
    intro output
    rw [String.toList_append]
    congr 1
  have hbasePort := fun output => @toList_plain output "  base_port: " [' ', ' '] "base_port"
    (toString binary.basePort.toInt) (.int binary.basePort.toInt) (by decide) rfl
  have hstandbyPort := fun output => @toList_plain output "  standby_port: " [' ', ' ']
    "standby_port" (toString binary.standbyPort.toInt) (.int binary.standbyPort.toInt)
    (by decide) rfl
  have hproxyEnabled := fun output => @toList_plain output "  proxy_enabled: " [' ', ' ']
    "proxy_enabled" _ _ (by decide) (toList_truth (binary.proxyEnabled = 1))
  simp only [pushBinary, toList_pushIndentedYamlString, hproxyEnabled, hstandbyPort, hbasePort,
    hbinary, Yaml.source, Yaml.Value.source, Yaml.fieldsSource, binaryFields, List.replicate,
    List.append_assoc, List.cons_append, List.nil_append, List.append_nil]

/-- The text of the metadata is that of the document of its values. -/
theorem toList_renderRuntimeMetadata (app : AppDetailItem)
    (targetNodes : List TargetNodeMetadata) (runtimeRoot : String)
    (binary : Option BinaryConfigItem) :
    (renderRuntimeMetadata app targetNodes runtimeRoot binary).toList =
      Yaml.source (runtimeMetadata app targetNodes runtimeRoot binary) := by
  have happId : ("app_id: " ++ toString app.id ++ "\n").toList =
      Yaml.Field.source ("app_id", .int app.id) := by
    have hline := @toList_plain "" "app_id: " [] "app_id" (toString app.id) (.int app.id)
      (by decide) rfl
    rwa [String.empty_append] at hline
  have hqueue := fun output => @toList_plain output "auto_queue_release: " []
    "auto_queue_release" _ _ (by decide) (toList_truth (app.autoQueueRelease = 1))
  have hnodes : ∀ output : String, (output ++ "target_nodes:\n").toList =
      output.toList ++ ("target_nodes".toList ++ [':', '\n']) := by
    intro output
    rw [String.toList_append]
    congr 1
  have hscalar : ∀ key value rest, Yaml.source ((key, .scalar value) :: rest) =
      Yaml.Field.source (key, value) ++ Yaml.source rest := by
    intro key value rest
    simp only [Yaml.source, Yaml.Value.source, Yaml.Field.source, List.append_assoc,
      List.cons_append]
  have hitems : ∀ key items rest, Yaml.source ((key, .items items) :: rest) =
      key.toList ++ ([':', '\n'] ++ (Yaml.itemsSource 2 items ++ Yaml.source rest)) := by
    intro key items rest
    simp only [Yaml.source, Yaml.Value.source, List.cons_append, List.nil_append]
  have hend : Yaml.source [] = [] := rfl
  cases binary with
  | none =>
      simp only [renderRuntimeMetadata, toList_targetNodes, hnodes, toList_pushYamlString, hqueue,
        happId, runtimeMetadata, hscalar, hitems, hend, Option.map_none, Option.toList_none,
        List.append_nil, List.append_assoc, List.nil_append]
  | some binary =>
      simp only [renderRuntimeMetadata, toList_pushBinary, toList_targetNodes, hnodes,
        toList_pushYamlString, hqueue, happId, runtimeMetadata, hscalar, hitems, Option.map_some,
        Option.toList_some, List.append_assoc, List.cons_append, List.nil_append]

theorem isKey_targetNodes (targetNodes : List TargetNodeMetadata) :
    (Yaml.Value.items (targetNodes.map targetNodeFields)).Keys := by
  intro item hitem field hfield
  obtain ⟨node, -, rfl⟩ := List.mem_map.mp hitem
  have hkeys : ∀ key ∈ ["node_key", "name"], Yaml.IsKey key := by decide
  exact hkeys _ (List.mem_map_of_mem (f := Prod.fst) hfield)

theorem isKey_binary (binary : BinaryConfigItem) :
    (Yaml.Value.fields ("service_name", .text binary.serviceName) (binaryFields binary)).Keys := by
  intro field hfield
  have hkeys : ∀ key ∈ ["service_name", "artifact_version", "artifact_path", "exec_args",
      "working_dir", "service_user", "unit_name", "release_strategy", "active_slot", "base_port",
      "standby_port", "proxy_enabled", "proxy_kind", "proxy_domain", "proxy_config_path",
      "unit_file", "env_file", "release_file", "current_release_file"], Yaml.IsKey key := by decide
  exact hkeys _ (List.mem_map_of_mem (f := Prod.fst) hfield)

theorem isKey_runtimeMetadata (app : AppDetailItem) (targetNodes : List TargetNodeMetadata)
    (runtimeRoot : String) (binary : Option BinaryConfigItem) :
    ∀ entry ∈ runtimeMetadata app targetNodes runtimeRoot binary,
      Yaml.IsKey entry.1 ∧ entry.2.Keys := by
  have hbinary : ∀ entry ∈ (binary.map fun binary => ("binary",
      Yaml.Value.fields ("service_name", .text binary.serviceName) (binaryFields binary))).toList,
      Yaml.IsKey entry.1 ∧ entry.2.Keys := by
    intro entry hentry
    cases binary with
    | none => cases hentry
    | some binary =>
        obtain rfl := List.mem_singleton.mp hentry
        exact ⟨(by decide : Yaml.IsKey "binary"), isKey_binary binary⟩
  simp only [runtimeMetadata, List.forall_mem_append, List.forall_mem_cons]
  refine ⟨?_, hbinary⟩
  refine ⟨⟨by decide, trivial⟩, ⟨by decide, trivial⟩, ⟨by decide, trivial⟩, ⟨by decide, trivial⟩,
    ⟨by decide, trivial⟩, ⟨by decide, trivial⟩, ⟨by decide, trivial⟩, ⟨by decide, trivial⟩,
    ⟨by decide, trivial⟩, ⟨by decide, trivial⟩, ⟨by decide, trivial⟩, ⟨by decide, trivial⟩,
    ⟨by decide, isKey_targetNodes targetNodes⟩, fun entry hentry => (by cases hentry)⟩

theorem yamlI64_toInt {value : Json} {key : String} {number : Int64}
    (h : valueGet key value = some (.int number.toInt)) : yamlI64 value key = number := by
  rw [yamlI64, h, Option.bind_some, asI64_toInt, Option.getD_some]

/-- The configuration that is read where the document is read as given. -/
theorem binaryConfigFromMetadata_eq {app : AppDetailItem} {targetNodes : List TargetNodeMetadata}
    {runtimeRoot metadata : String} {binary : BinaryConfigItem}
    (h : Yaml.readDocument metadata.toList = some (.object
      ((runtimeMetadata app targetNodes runtimeRoot (some binary)).map fun entry =>
        (entry.1, entry.2.given)))) :
    binaryConfigFromMetadata metadata =
      { binary with
        proxyEnabled := if binary.proxyEnabled = 1 then 1 else 0
        envContent := "" } := by
  have hbinary : (Yaml.readDocument metadata.toList).bind (valueGet "binary") = some (.object
      ((("service_name", .text binary.serviceName) :: binaryFields binary).map
        Yaml.Field.given)) := by
    rw [h]
    rfl
  rw [binaryConfigFromMetadata, hbinary]
  generalize hvalue : Json.object ((("service_name", .text binary.serviceName) ::
    binaryFields binary).map Yaml.Field.given) = value
  have hbasePort : valueGet "base_port" value = some (.int binary.basePort.toInt) := by
    rw [← hvalue]
    rfl
  have hstandbyPort : valueGet "standby_port" value = some (.int binary.standbyPort.toInt) := by
    rw [← hvalue]
    rfl
  have hproxyEnabled : yamlBool value "proxy_enabled" = decide (binary.proxyEnabled = 1) := by
    rw [← hvalue]
    rfl
  simp only [yamlI64_toInt hbasePort, yamlI64_toInt hstandbyPort, hproxyEnabled,
    decide_eq_true_eq]
  rw [← hvalue]
  rfl

theorem enabled_of_normalizeBinaryProxyConfig {enabled : Bool}
    {kind domain configPath releaseStrategy appKey : String} {proxy : ProxyConfig}
    (h : normalizeBinaryProxyConfig enabled kind domain configPath releaseStrategy appKey =
      .ok proxy) : proxy.enabled = 0 ∨ proxy.enabled = 1 := by
  unfold normalizeBinaryProxyConfig at h
  dsimp only at h
  generalize (if Blank kind then "none" else (trim kind).toLower) = kind at h
  split at h
  · split at h
    · obtain rfl := Except.ok.inj h
      exact .inl rfl
    · cases h
  split at h
  · cases h
  split at h
  · cases h
  split at h
  · cases h
  split at h
  · obtain ⟨configPath, -, hproxy⟩ := except_bind_eq_ok.mp h
    obtain rfl := Except.ok.inj hproxy
    exact .inr rfl
  · obtain ⟨configPath, -, hproxy⟩ := except_bind_eq_ok.mp h
    obtain rfl := Except.ok.inj hproxy
    exact .inr rfl

theorem proxyEnabled_of_normalizeBinaryConfig {appKey workDir envContent : String}
    {input : BinaryConfigInput} {config : BinaryConfigItem}
    (h : normalizeBinaryConfig appKey workDir envContent input = .ok config) :
    config.proxyEnabled = 0 ∨ config.proxyEnabled = 1 := by
  obtain ⟨unitName, -, h⟩ := except_bind_eq_ok.mp h
  obtain ⟨serviceUser, -, h⟩ := except_bind_eq_ok.mp h
  obtain ⟨releaseStrategy, -, h⟩ := except_bind_eq_ok.mp h
  obtain ⟨activeSlot, -, h⟩ := except_bind_eq_ok.mp h
  obtain ⟨basePort, -, h⟩ := except_bind_eq_ok.mp h
  obtain ⟨standbyPort, -, h⟩ := except_bind_eq_ok.mp h
  obtain ⟨proxy, hproxy, h⟩ := except_bind_eq_ok.mp h
  obtain rfl := Except.ok.inj h
  exact enabled_of_normalizeBinaryProxyConfig hproxy

/-- The metadata read as the values that they were written from. -/
def RoundTrips (app : AppDetailItem) (targetNodes : List TargetNodeMetadata)
    (runtimeRoot : String) (binary : Option BinaryConfigItem) : Prop :=
  Yaml.readDocument (renderRuntimeMetadata app targetNodes runtimeRoot binary).toList =
      some (.object ((runtimeMetadata app targetNodes runtimeRoot binary).map fun entry =>
        (entry.1, entry.2.given))) ∧
    ∀ config, binary = some config →
      binaryConfigFromMetadata (renderRuntimeMetadata app targetNodes runtimeRoot binary) =
        { config with envContent := "" }

variable {app : AppDetailItem} {targetNodes : List TargetNodeMetadata} {runtimeRoot : String}
  {binary : Option BinaryConfigItem}

theorem items_iff : (∀ entry ∈ runtimeMetadata app targetNodes runtimeRoot binary,
    entry.2 ≠ .items []) ↔ targetNodes ≠ [] := by
  have hbinary : ∀ entry ∈ (binary.map fun binary => ("binary",
      Yaml.Value.fields ("service_name", .text binary.serviceName) (binaryFields binary))).toList,
      entry.2 ≠ .items [] := by
    intro entry hentry
    cases binary with
    | none => cases hentry
    | some binary =>
        obtain rfl := List.mem_singleton.mp hentry
        exact Yaml.Value.noConfusion
  rw [runtimeMetadata, List.forall_mem_append]
  refine (and_iff_left hbinary).trans ?_
  simp [targetNodes.map_eq_nil_iff]

/-- The document is read as given if there is a target node and the texts are carried. -/
theorem readRuntimeMetadata_iff :
    Yaml.readDocument (renderRuntimeMetadata app targetNodes runtimeRoot binary).toList =
        some (.object ((runtimeMetadata app targetNodes runtimeRoot binary).map fun entry =>
          (entry.1, entry.2.given))) ↔
      targetNodes ≠ [] ∧
        ∀ text ∈ Yaml.texts (runtimeMetadata app targetNodes runtimeRoot binary),
          Yaml.Carried text := by
  rw [toList_renderRuntimeMetadata, Yaml.readDocument_source_iff
    (isKey_runtimeMetadata app targetNodes runtimeRoot binary), items_iff]
  exact and_comm

/-- The metadata of accepted configurations can be read back exactly if there is a target node and
YAML carries each of the texts. -/
theorem runtime_metadata_round_trips_iff
    (haccepted : ∀ config, binary = some config → ∃ appKey workDir envContent input,
      normalizeBinaryConfig appKey workDir envContent input = .ok config) :
    RoundTrips app targetNodes runtimeRoot binary ↔ targetNodes ≠ [] ∧
      ∀ text ∈ Yaml.texts (runtimeMetadata app targetNodes runtimeRoot binary),
        Yaml.Carried text := by
  rw [← readRuntimeMetadata_iff]
  refine ⟨fun h => h.1, fun hread => ⟨hread, ?_⟩⟩
  rintro config rfl
  obtain ⟨appKey, workDir, envContent, input, hconfig⟩ := haccepted config rfl
  rw [binaryConfigFromMetadata_eq hread]
  rcases proxyEnabled_of_normalizeBinaryConfig hconfig with hproxy | hproxy
  · rw [hproxy, if_neg (by decide)]
  · rw [hproxy, if_pos rfl]

def workerInput (execArgs : String) : BinaryConfigInput :=
  { artifactVersion := "v2.0.0", artifactPath := "/opt/worker", execArgs, serviceUser := ""
    unitName := "", releaseStrategy := "", activeSlot := "", basePort := 8080
    standbyPort := 0, proxyEnabled := false, proxyKind := "", proxyDomain := ""
    proxyConfigPath := "" }

def workerConfig (execArgs : String) : BinaryConfigItem :=
  { serviceName := "worker", artifactVersion := "v2.0.0", artifactPath := "/opt/worker", execArgs
    workingDir := "/srv", serviceUser := "deploy", unitName := "easy-deploy-worker.service"
    releaseStrategy := "restart", activeSlot := "blue", basePort := 8080, standbyPort := 0
    proxyEnabled := 0, proxyKind := "none", proxyDomain := "", proxyConfigPath := ""
    envContent := "" }

def workerApp : AppDetailItem :=
  { id := 9, appKey := "worker", name := "Worker"
    description := "needs \"quotes\" and \\slashes", environment := "prod", appType := "binary"
    deployMode := "systemd", deployStrategy := "rolling", releaseSource := "upload"
    autoQueueRelease := 1, workDir := "/srv", status := "active" }

/-- The metadata of a worker with arguments, on a node whose name has quotes. -/
theorem runtime_metadata_round_trips_worker :
    RoundTrips workerApp [⟨"node-a", "Node \"A\""⟩] "/data/apps/worker"
      (some (workerConfig "--port 8080")) := by
  refine (runtime_metadata_round_trips_iff fun config hconfig => ?_).mpr ⟨by decide, ?_⟩
  · obtain rfl := Option.some.inj hconfig
    exact ⟨"worker", "/srv", "", workerInput "--port 8080", by decide⟩
  · decide +kernel

/-- A line break in the arguments is read as a space. -/
theorem line_breaks_are_folded :
    normalizeBinaryConfig "worker" "/srv" "" (workerInput "--a\n--b") =
        .ok (workerConfig "--a\n--b") ∧
      ¬RoundTrips workerApp [⟨"node-a", "Node"⟩] "/data/apps/worker"
        (some (workerConfig "--a\n--b")) := by
  refine ⟨by decide, fun h => ?_⟩
  have hcarried := (readRuntimeMetadata_iff.mp h.1).2 "--a\n--b" (by decide)
  exact absurd hcarried.kept (by decide)

end EasyDeploy.Apps
