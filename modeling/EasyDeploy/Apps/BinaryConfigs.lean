import EasyDeploy.Apps.Settings
import EasyDeploy.Foundation.Results
import Mathlib.Data.List.Infix

/-!
# Configurations of binary applications

`normalize_binary_config` trims the fields of a configuration. It checks the names
and the ports, and takes the path of the artifact and the arguments as they are.
-/

namespace EasyDeploy.Apps
open Foundation

/-- The name of the systemd unit, which is made from the key of the application when it is blank. -/
def normalizeUnitName (value appKey : String) : Except String String :=
  let unitName := if Blank value then "easy-deploy-" ++ appKey ++ ".service" else trim value
  if ¬".service".toList <:+ unitName.toList then
    .error "systemd unit 必须以 .service 结尾"
  else if !unitName.toList.all fun char =>
      char.isAlphanum || ['-', '_', '.', '@'].contains char then
    .error "systemd unit 仅支持字母、数字、短横线、下划线、点和 @"
  else
    .ok unitName

/-- The user that the service runs as. -/
def normalizeServiceUser (value : String) : Except String String :=
  let serviceUser := if Blank value then "deploy" else trim value
  if serviceUser.toList.all fun char => char.isAlphanum || char == '-' || char == '_' then
    .ok serviceUser
  else
    .error "运行用户仅支持字母、数字、短横线和下划线"

/-- Only the two strategies of the program are accepted. -/
def normalizeBinaryReleaseStrategy (value : String) : Except String String :=
  match trim value with
  | "" => .ok "restart"
  | "restart" => .ok "restart"
  | "blue_green" => .ok "blue_green"
  | _ => .error "二进制发布策略仅支持 restart 或 blue_green"

/-- Only the two slots are accepted. -/
def normalizeBinarySlot (value : String) : Except String String :=
  match trim value with
  | "" => .ok "blue"
  | "blue" => .ok "blue"
  | "green" => .ok "green"
  | _ => .error "当前流量槽位仅支持 blue 或 green"

/-- A port is zero, which is none, or a port number. -/
def normalizeBinaryPort (port : Int64) (label : String) : Except String Int64 :=
  if port = 0 ∨ (1 ≤ port ∧ port ≤ 65535) then .ok port
  else .error (label ++ "需要在 1 到 65535 之间，留空时使用 0")

/-- A part of a dotted address. -/
def isIpv4Octet (part : List Char) : Bool :=
  !part.isEmpty && part.length ≤ 3 && part.all Char.isDigit &&
    (part.length == 1 || part.head? != some '0') &&
    part.foldl (fun value digit => 10 * value + (digit.toNat - '0'.toNat)) 0 ≤ 255

/-- `value.parse::<Ipv4Addr>().is_ok()`. -/
def isIpv4Addr (value : String) : Bool :=
  let parts := value.toList.splitOn '.'
  parts.length == 4 && parts.all isIpv4Octet

/-- A label of a domain name. -/
def isDomainPart (part : List Char) : Bool :=
  !part.isEmpty && part.length ≤ 63 && part.head? != some '-' && part.getLast? != some '-' &&
    part.all fun char => char.isAlphanum || char == '-'

/-- A domain name or a dotted address. -/
def isValidProxyDomain (value : String) : Bool :=
  if value.toLower = "localhost" ∨ isIpv4Addr value then true
  else if 253 < value.utf8ByteSize ∨ value = "" ∨ value.toList.head? = some '.' ∨
      value.toList.getLast? = some '.' then false
  else (value.toList.splitOn '.').all isDomainPart

/-- Where the configuration of a proxy is written unless another path is given. -/
def defaultProxyConfigPath (kind appKey : String) : String :=
  if kind = "nginx" then "/etc/nginx/conf.d/" ++ appKey ++ ".conf"
  else "/etc/caddy/Caddyfile.d/" ++ appKey ++ ".caddy"

/-- A path that begins with a drive. -/
def isWindowsAbsolutePath (value : List Char) : Bool :=
  value.head?.any Char.isAlpha && (value.drop 1).take 2 == [':', '/']

/-- The path of a proxy's configuration is absolute and has no parent directories. -/
def normalizeProxyConfigPath (value : String) : Except String String :=
  let chars := value.toList
  if chars.head? ≠ some '/' ∧ !isWindowsAbsolutePath chars then
    .error "反向代理配置路径必须是绝对路径"
  else if "//".toList <:+: chars ∨
      (chars.splitOn '/').any (fun part => part == ['.'] || part == ['.', '.']) ∨
      !chars.all fun char => char.isAlphanum || ['/', ':', '.', '-', '_', '@'].contains char then
    .error "反向代理配置路径仅支持字母、数字、斜线、盘符、点、短横线、下划线和 @"
  else
    .ok (String.ofList (chars.rdropWhile (· == '/')))

/-- The settings of the proxy after the checks. -/
structure ProxyConfig where
  enabled : Int64
  kind : String
  domain : String
  configPath : String
deriving Repr, DecidableEq

/-- The checks of the proxy's settings. -/
def normalizeBinaryProxyConfig (enabled : Bool) (kind domain configPath releaseStrategy : String)
    (appKey : String) : Except String ProxyConfig := do
  let kind := if Blank kind then "none" else (trim kind).toLower
  let domain := trim domain
  let configPath := String.ofList ((trim configPath).toList.map fun char =>
    if char = '\\' then '/' else char)
  if enabled = false then
    if kind ∈ ["none", "caddy", "nginx"] then .ok ⟨0, kind, domain, configPath⟩
    else .error "反向代理类型仅支持 none、caddy 或 nginx"
  else if releaseStrategy ≠ "blue_green" then
    .error "反向代理切流仅支持 Blue/Green 发布策略"
  else if kind ∉ ["caddy", "nginx"] then
    .error "启用反向代理切流时请选择 caddy 或 nginx"
  else if !isValidProxyDomain domain then
    .error "反向代理域名仅支持合法域名、IPv4 或 localhost"
  else
    let configPath ← if configPath = "" then .ok (defaultProxyConfigPath kind appKey)
      else normalizeProxyConfigPath configPath
    .ok ⟨1, kind, domain, configPath⟩

/-- The checks of a submitted configuration, in the order in which they are made. -/
def normalizeBinaryConfig (appKey workDir envContent : String) (input : BinaryConfigInput) :
    Except String BinaryConfigItem := do
  let unitName ← normalizeUnitName input.unitName appKey
  let serviceUser ← normalizeServiceUser input.serviceUser
  let releaseStrategy ← normalizeBinaryReleaseStrategy input.releaseStrategy
  let activeSlot ← normalizeBinarySlot input.activeSlot
  let basePort ← normalizeBinaryPort input.basePort "主槽端口"
  let standbyPort ← normalizeBinaryPort input.standbyPort "备用槽端口"
  let proxy ← normalizeBinaryProxyConfig input.proxyEnabled input.proxyKind input.proxyDomain
    input.proxyConfigPath releaseStrategy appKey
  .ok
    { serviceName := appKey, artifactVersion := trim input.artifactVersion
      artifactPath := trim input.artifactPath, execArgs := trim input.execArgs
      workingDir := trim workDir, serviceUser, unitName, releaseStrategy, activeSlot, basePort
      standbyPort, proxyEnabled := proxy.enabled, proxyKind := proxy.kind
      proxyDomain := proxy.domain, proxyConfigPath := proxy.configPath
      envContent := normalizeEnvContent envContent }

/-- What the checks of a configuration leave of its fields. -/
structure Accepted (config : BinaryConfigItem) : Prop where
  artifact_path : trim config.artifactPath = config.artifactPath
  exec_args : trim config.execArgs = config.execArgs
  working_dir : trim config.workingDir = config.workingDir
  service_user : config.serviceUser.toList ≠ [] ∧
    ∀ char ∈ config.serviceUser.toList, (char.isAlphanum || char == '-' || char == '_') = true
  unit_name : ∀ char ∈ config.unitName.toList,
    (char.isAlphanum || ['-', '_', '.', '@'].contains char) = true
  ports : (config.basePort = 0 ∨ (1 ≤ config.basePort ∧ config.basePort ≤ 65535)) ∧
    (config.standbyPort = 0 ∨ (1 ≤ config.standbyPort ∧ config.standbyPort ≤ 65535))

theorem normalizeUnitName_eq_ok {value appKey unitName : String}
    (h : normalizeUnitName value appKey = .ok unitName) :
    ∀ char ∈ unitName.toList, (char.isAlphanum || ['-', '_', '.', '@'].contains char) = true := by
  unfold normalizeUnitName at h
  dsimp only at h
  generalize (if Blank value then "easy-deploy-" ++ appKey ++ ".service" else trim value) = name at h
  split at h
  · cases h
  split at h
  · cases h
  rename_i hchars
  obtain rfl := Except.ok.inj h
  rw [Bool.not_eq_true', Bool.not_eq_false] at hchars
  exact List.all_eq_true.mp hchars

theorem normalizeServiceUser_eq_ok {value serviceUser : String}
    (h : normalizeServiceUser value = .ok serviceUser) : serviceUser.toList ≠ [] ∧
    ∀ char ∈ serviceUser.toList, (char.isAlphanum || char == '-' || char == '_') = true := by
  have hname : (if Blank value then "deploy" else trim value) ≠ "" := by
    split
    · decide
    · assumption
  unfold normalizeServiceUser at h
  dsimp only at h
  generalize (if Blank value then "deploy" else trim value) = name at h hname
  split at h
  · rename_i hchars
    obtain rfl := Except.ok.inj h
    exact ⟨fun hnil => hname (String.toList_inj.mp hnil), List.all_eq_true.mp hchars⟩
  · cases h

theorem normalizeBinaryPort_eq_ok {port accepted : Int64} {label : String}
    (h : normalizeBinaryPort port label = .ok accepted) :
    accepted = 0 ∨ (1 ≤ accepted ∧ accepted ≤ 65535) := by
  unfold normalizeBinaryPort at h
  split at h
  · rename_i hrange
    obtain rfl := Except.ok.inj h
    exact hrange
  · cases h

theorem accepted_of_normalizeBinaryConfig {appKey workDir envContent : String}
    {input : BinaryConfigInput} {config : BinaryConfigItem}
    (h : normalizeBinaryConfig appKey workDir envContent input = .ok config) : Accepted config := by
  obtain ⟨unitName, hunit, h⟩ := except_bind_eq_ok.mp h
  obtain ⟨serviceUser, huser, h⟩ := except_bind_eq_ok.mp h
  obtain ⟨releaseStrategy, -, h⟩ := except_bind_eq_ok.mp h
  obtain ⟨activeSlot, -, h⟩ := except_bind_eq_ok.mp h
  obtain ⟨basePort, hbase, h⟩ := except_bind_eq_ok.mp h
  obtain ⟨standbyPort, hstandby, h⟩ := except_bind_eq_ok.mp h
  obtain ⟨proxy, -, h⟩ := except_bind_eq_ok.mp h
  obtain rfl := Except.ok.inj h
  exact
    { artifact_path := trim_trim _
      exec_args := trim_trim _
      working_dir := trim_trim _
      service_user := normalizeServiceUser_eq_ok huser
      unit_name := normalizeUnitName_eq_ok hunit
      ports := ⟨normalizeBinaryPort_eq_ok hbase, normalizeBinaryPort_eq_ok hstandby⟩ }

end EasyDeploy.Apps
