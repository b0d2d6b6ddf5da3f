import EasyDeploy.BinaryTask.BlueGreen
import EasyDeploy.Foundation.Urls

/-!
# Health checks of the standby slot

Before the proxy is switched, the health check of a blue/green restart has to test
the slot that was started. The port in its address is replaced by the one of that
slot, which fails silently where the address does not show the port to the URL
library.
-/

namespace EasyDeploy.BinaryTask
open Foundation

/-- What a job does. -/
inductive BinaryTaskAction
  | restart
  | stop
deriving Repr, DecidableEq

/-- A job with what decides which slot it works on. -/
structure SlotJob extends BinaryTaskJob where
  releaseStrategy : String
  action : BinaryTaskAction
deriving Repr, DecidableEq

namespace SlotJob

variable (job : SlotJob)

/-- A restart that changes the slot. -/
def isBlueGreenRestart : Prop := job.releaseStrategy = "blue_green" ∧ job.action = .restart

instance : Decidable job.isBlueGreenRestart := inferInstanceAs (Decidable (_ ∧ _))

/-- The slot that is started. -/
def targetSlot : Slot :=
  if job.isBlueGreenRestart then standbySlot job.activeSlot else normalizedSlot job.activeSlot

/-- The port of a slot. -/
def portOf : Slot → Int
  | .green => job.standbyPort
  | .blue => job.basePort

/-- The port with the traffic. -/
def activePort : Int := job.portOf (normalizedSlot job.activeSlot)

/-- The port that is checked. -/
def targetPort : Int := job.portOf job.targetSlot

end SlotJob

/-- `port as u16`. -/
def toU16 (port : Int) : Nat := (port % 65536).toNat

section Replacing

variable (library : UrlLibrary)

/-- The endpoint with the port of the other slot. -/
def replaceEndpointPort (endpoint : String) (activePort targetPort : Int) : String :=
  if activePort ≤ 0 ∨ targetPort ≤ 0 ∨ activePort = targetPort then endpoint
  else match library.parse endpoint with
    | some url =>
        if url.port = some (toU16 activePort) then
          ((url.setPort (toU16 targetPort)).map library.serialize).getD endpoint
        else endpoint
    | none => match rsplitOnce ':' endpoint.toList with
      | none => endpoint
      | some (host, port) =>
          if parseI64 port = some activePort then socketText (String.ofList host) targetPort
          else endpoint

/-- The endpoint that a job checks. -/
def SlotJob.slotHealthEndpoint (job : SlotJob) (endpoint : String) : String :=
  if job.isBlueGreenRestart then replaceEndpointPort library endpoint job.activePort job.targetPort
  else endpoint

end Replacing

/-- The checks that connect to an endpoint. -/
inductive CheckKind
  | http
  | tcp
deriving Repr, DecidableEq

/-- What a check connects to. -/
inductive Address
  | url (url : Url)
  | socket (host : String) (port : Nat)
deriving Repr, DecidableEq

/-- The port that an address names. -/
def Address.port : Address → Option Int
  | .url parsed => parsed.portOrKnownDefault.map Nat.cast
  | .socket _ port => some port

/-- The address with another port. -/
def Address.withPort (port : Int) : Address → Address
  | .url parsed => .url (parsed.withPort port.toNat)
  | .socket host _ => .socket host port.toNat

/-- What the check connects to with this endpoint. -/
def CheckKind.read (library : UrlLibrary) : CheckKind → String → Option Address
  | .http, endpoint =>
      (library.parse endpoint).bind fun url => if url.IsHttp then some (.url url) else none
  | .tcp, endpoint =>
      (rsplitOnce ':' endpoint.toList).bind fun parts =>
        (parseU16 parts.2).map (.socket (String.ofList parts.1))

/-- A host name, an IPv4 address, or an IPv6 address in brackets. -/
def IsHost (host : List Char) : Prop :=
  (host ≠ [] ∧ host.all (fun char => char.isAlphanum || ['-', '.', '_'].contains char) = true) ∨
    ∃ address, host = '[' :: address ++ [']'] ∧
      address.all (fun char => char.isAlphanum || [':', '.'].contains char) = true

/-- A host and a port. -/
def IsSocketText (endpoint : String) : Prop :=
  ∃ host, ∃ port : Nat, IsHost host.toList ∧ port ≤ 65535 ∧ endpoint = socketText host port

/-- The check tests the slot that was started, and endpoints of other ports are left alone. -/
structure TestsTarget (library : UrlLibrary) (job : SlotJob) (kind : CheckKind) (endpoint : String)
    (address : Address) : Prop where
  replaced : address.port = some job.activePort →
    kind.read library (job.slotHealthEndpoint library endpoint) =
      some (address.withPort job.targetPort)
  kept : address.port ≠ some job.activePort → job.slotHealthEndpoint library endpoint = endpoint
  not_active : ∀ other, kind.read library (job.slotHealthEndpoint library endpoint) = some other →
    other.port ≠ some job.activePort

/-- A URL shows a port that its scheme does not imply, and a host is no scheme. -/
def ShowsPort : Address → Prop
  | .url url => url.portOrKnownDefault ≠ Url.defaultPort url.scheme
  | .socket host _ => ¬IsScheme host.toList

section Hosts

variable {library : UrlLibrary} {host : String} {port : Nat}

/-- A host with a port is read as an address of TCP. -/
theorem read_socketText (h : port ≤ 65535) :
    CheckKind.read library .tcp (socketText host port) = some (.socket host port) := by
  rw [CheckKind.read, rsplitOnce_socketText, Option.bind_some, parseU16_toString h, Option.map_some,
    String.ofList_toList]

theorem isAddressChar_socketText (h : IsHost host.toList) :
    ∀ char ∈ (socketText host port).toList, isAddressChar char = true := by
  have hmore : ∀ {chars : List Char} {char : Char}, chars ⊆ ['-', '.', '_', ':', '[', ']'] →
      (char.isAlphanum || chars.contains char) = true → isAddressChar char = true := by
    intro chars char hsub hchar
    simp only [isAddressChar, Bool.or_eq_true, List.contains_eq_mem, decide_eq_true_eq] at hchar ⊢
    exact hchar.imp_right fun hmem => hsub hmem
  have hhost : ∀ char ∈ host.toList, isAddressChar char = true := by
    rcases h with ⟨-, hname⟩ | ⟨address, haddress, hchars⟩
    · exact fun char hchar => hmore (by decide) (List.all_eq_true.mp hname char hchar)
    · rw [haddress, List.forall_mem_append, List.forall_mem_cons]
      exact ⟨⟨rfl, fun char hchar => hmore (by decide) (List.all_eq_true.mp hchars char hchar)⟩,
        List.all_eq_true.mp (by decide)⟩
  have hport : ∀ char ∈ (toString (port : Int)).toList, isAddressChar char = true := by
    intro char hchar
    rw [toList_toString_nat] at hchar
    have halnum : char.isAlphanum = true := Bool.or_eq_true_iff.mpr (Or.inr (isDigit_toDigits hchar))
    rw [isAddressChar, halnum, Bool.true_or]
  rw [socketText, String.toList_append, String.toList_append, List.forall_mem_append,
    List.forall_mem_append]
  exact ⟨⟨hhost, List.all_eq_true.mp (by decide)⟩, hport⟩

theorem colon_not_mem {chars text : List Char} (hcolon : ':' ∉ chars)
    (h : text.all (fun char => char.isAlphanum || chars.contains char) = true) : ':' ∉ text := by
  intro hmem
  have hchar := List.all_eq_true.mp h ':' hmem
  rw [Bool.or_eq_true, List.contains_eq_mem, decide_eq_true_eq] at hchar
  rcases hchar with halnum | hmem
  · exact absurd halnum (by decide)
  · exact hcolon hmem

/-- A host with a port is no URL if the host is no scheme. -/
theorem parse_socketText (hstandard : library.Standard) (h : IsHost host.toList)
    (hscheme : ¬IsScheme host.toList) : library.parse (socketText host port) = none := by
  apply Option.eq_none_iff_forall_ne_some.mpr
  intro url hparse
  obtain ⟨scheme, rest, htext, hvalid⟩ :=
    hstandard.begins_with_scheme _ url hparse (isAddressChar_socketText h)
  have hcolon : ":".toList = [':'] := rfl
  rw [socketText, String.toList_append, String.toList_append, hcolon, List.append_assoc,
    List.singleton_append] at htext
  have hbefore := (takeWhile_append_separator (colon_not_mem (by decide) hvalid.2) rest).1
  rw [← htext] at hbefore
  rcases h with ⟨-, hname⟩ | ⟨address, haddress, -⟩
  · rw [(takeWhile_append_separator (colon_not_mem (by decide) hname) _).1] at hbefore
    rw [hbefore] at hscheme
    exact hscheme hvalid
  · -- a scheme does not begin with a bracket
    have hfirst : scheme.head? = some '[' := by
      rw [← hbefore, haddress]
      rfl
    have hletter := hvalid.1
    rw [hfirst] at hletter
    exact absurd hletter (by decide)

end Hosts

section Endpoints

variable {library : UrlLibrary} {job : SlotJob}

/-- The ports of the two slots. -/
theorem ports_of_restart (hrestart : job.isBlueGreenRestart)
    (hbase : 0 < job.basePort ∧ job.basePort ≤ 65535)
    (hstandby : 0 < job.standbyPort ∧ job.standbyPort ≤ 65535)
    (hne : job.basePort ≠ job.standbyPort) :
    ∃ active target : Nat, job.activePort = active ∧ job.targetPort = target ∧
      0 < active ∧ active ≤ 65535 ∧ 0 < target ∧ target ≤ 65535 ∧ active ≠ target := by
  obtain ⟨base, hbaseEq⟩ := Int.eq_ofNat_of_zero_le hbase.1.le
  obtain ⟨standby, hstandbyEq⟩ := Int.eq_ofNat_of_zero_le hstandby.1.le
  rw [SlotJob.activePort, SlotJob.targetPort, SlotJob.targetSlot, if_pos hrestart, normalizedSlot,
    standbySlot]
  split
  · exact ⟨standby, base, hstandbyEq, hbaseEq, by omega, by omega, by omega, by omega, by omega⟩
  · exact ⟨base, standby, hbaseEq, hstandbyEq, by omega, by omega, by omega, by omega, by omega⟩

theorem toU16_natCast {port : Nat} (h : port ≤ 65535) : toU16 port = port := by
  rw [toU16]
  omega

variable {active target : Nat}

/-- In the address of a page the active port is replaced if it is the one that is used. -/
theorem replaceEndpointPort_url (hstandard : library.Standard) {endpoint : String} {url : Url}
    (hparse : library.parse endpoint = some url) (hhttp : url.IsHttp) (hactive : 0 < active)
    (hactiveLe : active ≤ 65535) (htarget : 0 < target) (htargetLe : target ≤ 65535)
    (hne : active ≠ target) : replaceEndpointPort library endpoint active target =
      if url.port = some active then library.serialize (url.withPort target) else endpoint := by
  have hguard : ¬((active : Int) ≤ 0 ∨ (target : Int) ≤ 0 ∨ (active : Int) = target) := by omega
  have hset : url.setPort target = some (url.withPort target) := by
    rw [Url.setPort, if_neg]
    rintro (hhost | hfile)
    · exact hstandard.http_host _ _ hparse hhttp hhost
    · rcases hhttp with hscheme | hscheme <;> rw [hfile] at hscheme <;> exact absurd hscheme (by decide)
  rw [replaceEndpointPort, if_neg hguard, hparse]
  dsimp only
  rw [toU16_natCast hactiveLe, toU16_natCast htargetLe, hset]
  rfl

/-- In a host with a port the active port is replaced. -/
theorem replaceEndpointPort_socket (hstandard : library.Standard) {host : String} {port : Nat}
    (hhost : IsHost host.toList) (hport : port ≤ 65535) (hactive : 0 < active)
    (hactiveLe : active ≤ 65535) (htarget : 0 < target) (hne : active ≠ target) :
    replaceEndpointPort library (socketText host port) active target =
      if ¬IsScheme host.toList ∧ port = active then socketText host target
      else socketText host port := by
  have hguard : ¬((active : Int) ≤ 0 ∨ (target : Int) ≤ 0 ∨ (active : Int) = target) := by omega
  rw [replaceEndpointPort, if_neg hguard]
  by_cases hscheme : IsScheme host.toList
  · obtain ⟨url, hparse, hnone⟩ := hstandard.scheme_and_number host port hscheme hport
    rw [hparse, if_neg fun h => h.1 hscheme]
    dsimp only
    rw [hnone, if_neg (by simp)]
  · rw [parse_socketText hstandard hhost hscheme, rsplitOnce_socketText]
    dsimp only
    rw [parseI64_toString hport, String.ofList_toList]
    by_cases hsame : port = active
    · rw [if_pos (by rw [hsame]), if_pos ⟨hscheme, hsame⟩]
    · have hother : ¬some (port : Int) = some (active : Int) :=
        fun heq => hsame (Int.natCast_inj.mp (Option.some.inj heq))
      rw [if_neg hother, if_neg fun h => hsame h.2]

/-- The port that a URL shows. -/
theorem port_eq_some_iff {parsed : Url} {port : Nat}
    (h : parsed.port = none ∨ parsed.port ≠ Url.defaultPort parsed.scheme) :
    parsed.port = some port ↔
      parsed.portOrKnownDefault = some port ∧ ShowsPort (.url parsed) := by
  rw [ShowsPort, Url.portOrKnownDefault]
  cases hport : parsed.port with
  | none => simp
  | some other =>
      rw [hport] at h
      have hother := h.resolve_left (by simp)
      simp [hother]

theorem port_withPort (address : Address) (port : Nat) :
    (address.withPort port).port = some (port : Int) := by
  cases address with
  | url parsed =>
      rw [Address.withPort, Int.toNat_natCast, Address.port, Url.portOrKnownDefault, Url.withPort]
      dsimp only
      split
      · rename_i hdefault
        rw [← hdefault]
        rfl
      · rfl
  | socket host other => rfl

/-- An endpoint that is replaced where it addresses the active port tests the target. -/
theorem testsTarget_of_replaced {kind : CheckKind} {endpoint : String} {address : Address}
    (hactive : job.activePort = active) (htarget : job.targetPort = target) (hne : active ≠ target)
    (hread : kind.read library endpoint = some address)
    (hreplaced : address.port = some job.activePort →
      kind.read library (job.slotHealthEndpoint library endpoint) =
        some (address.withPort job.targetPort))
    (hkept : address.port ≠ some job.activePort →
      job.slotHealthEndpoint library endpoint = endpoint) :
    TestsTarget library job kind endpoint address := by
  refine ⟨hreplaced, hkept, fun other hother => ?_⟩
  by_cases hport : address.port = some job.activePort
  · rw [hreplaced hport, htarget] at hother
    rw [← Option.some.inj hother, port_withPort, hactive]
    exact fun heq => hne (Int.natCast_inj.mp (Option.some.inj heq)).symm
  · rw [hkept hport, hread] at hother
    rwa [← Option.some.inj hother]

/-- The check tests the standby slot if the endpoint shows the port of the active one. -/
theorem tests_target_iff (hstandard : library.Standard) (hrestart : job.isBlueGreenRestart)
    (hbase : 0 < job.basePort ∧ job.basePort ≤ 65535)
    (hstandby : 0 < job.standbyPort ∧ job.standbyPort ≤ 65535)
    (hne : job.basePort ≠ job.standbyPort) {kind : CheckKind} {endpoint : String}
    {address : Address} (hread : kind.read library endpoint = some address)
    (hform : kind = .tcp → IsSocketText endpoint) :
    TestsTarget library job kind endpoint address ↔
      (address.port = some job.activePort → ShowsPort address) := by
  obtain ⟨active, target, hactive, htarget, hactivePos, hactiveLe, htargetPos, htargetLe, hdiff⟩ :=
    ports_of_restart hrestart hbase hstandby hne
  have hslot : job.slotHealthEndpoint library endpoint =
      replaceEndpointPort library endpoint active target := by
    rw [SlotJob.slotHealthEndpoint, if_pos hrestart, hactive, htarget]
  cases kind with
  | http =>
      have hread' := hread
      obtain ⟨parsed, hparse, hchosen⟩ := Option.bind_eq_some_iff.mp hread
      obtain ⟨hhttp, hurl⟩ := Option.ite_none_right_eq_some.mp hchosen
      obtain rfl := Option.some.inj hurl
      rw [replaceEndpointPort_url hstandard hparse hhttp hactivePos hactiveLe htargetPos htargetLe
        hdiff] at hslot
      have haddresses : (Address.url parsed).port = some job.activePort ↔
          parsed.portOrKnownDefault = some active := by
        rw [Address.port, hactive, Option.map_eq_some_iff]
        exact ⟨fun ⟨port, hport, heq⟩ => Int.natCast_inj.mp heq ▸ hport,
          fun hport => ⟨active, hport, rfl⟩⟩
      have hshown := @port_eq_some_iff parsed active (hstandard.default_port _ _ hparse)
      constructor
      · intro h hsame
        by_contra hhidden
        have hreplaced := h.replaced hsame
        rw [hslot, if_neg fun hport => hhidden (hshown.mp hport).2, hread'] at hreplaced
        have hports := congrArg (Option.map Address.port) hreplaced
        rw [Option.map_some, Option.map_some, hsame, htarget, port_withPort, hactive] at hports
        exact hdiff (Int.natCast_inj.mp (Option.some.inj (Option.some.inj hports)))
      · intro h
        apply testsTarget_of_replaced hactive htarget hdiff hread'
        · intro hsame
          have hparsed := hstandard.parse_serialize _ _ _ hparse hhttp htargetLe
          rw [hslot, if_pos (hshown.mpr ⟨haddresses.mp hsame, h hsame⟩), CheckKind.read, hparsed,
            Option.bind_some, if_pos (show (parsed.withPort target).IsHttp from hhttp), htarget]
          rfl
        · intro hother
          rw [hslot, if_neg fun hport => hother (haddresses.mpr (hshown.mp hport).1)]
  | tcp =>
      obtain ⟨host, port, hhost, hport, rfl⟩ := hform rfl
      rw [read_socketText hport] at hread
      obtain rfl := Option.some.inj hread
      rw [replaceEndpointPort_socket hstandard hhost hport hactivePos hactiveLe htargetPos hdiff]
        at hslot
      have haddresses : (Address.socket host port).port = some job.activePort ↔ port = active := by
        rw [Address.port, hactive, Option.some_inj, Int.natCast_inj]
      constructor
      · intro h hsame hscheme
        have hreplaced := h.replaced hsame
        rw [hslot, if_neg fun hboth => hboth.1 hscheme, read_socketText hport] at hreplaced
        have hports := congrArg (Option.map Address.port) hreplaced
        rw [Option.map_some, Option.map_some, hsame, htarget, port_withPort, hactive] at hports
        exact hdiff (Int.natCast_inj.mp (Option.some.inj (Option.some.inj hports)))
      · intro h
        apply testsTarget_of_replaced hactive htarget hdiff (read_socketText hport)
        · intro hsame
          rw [hslot, if_pos ⟨h hsame, haddresses.mp hsame⟩, read_socketText htargetLe, htarget]
          rfl
        · intro hother
          rw [hslot, if_neg fun hboth => hother (haddresses.mpr hboth.2)]

end Endpoints

namespace SmallUrls

/-- A URL of a web server, with what stands behind the two slashes. -/
def parseHttp (scheme : String) (text : List Char) : Option Url :=
  let authority := text.takeWhile (· != '/')
  let host := authority.takeWhile (· != ':')
  let port := authority.dropWhile (· != ':')
  let parsed : Url :=
    { scheme, userinfo := "", host := some (String.ofList host), port := none
      rest := String.ofList (text.dropWhile (· != '/')) }
  if host = [] then none
  else if port = [] then some parsed
  else (parseU16 port.tail).map parsed.withPort

def parse (text : String) : Option Url :=
  let scheme := String.ofList (text.toList.takeWhile (· != ':'))
  let rest := (text.toList.dropWhile (· != ':')).tail
  if ':' ∉ text.toList ∨ ¬IsScheme scheme.toList then none
  else if scheme = "http" ∨ scheme = "https" then
    if rest.take 2 = ['/', '/'] then parseHttp scheme (rest.drop 2)
    else some { scheme, userinfo := "", host := some "0.0.0.0", port := none, rest := "" }
  else some { scheme, userinfo := "", host := none, port := none, rest := String.ofList rest }

def serialize (url : Url) : String :=
  url.scheme ++ "://" ++ url.host.getD "" ++
    (url.port.elim "" fun port => ":" ++ toString (port : Int)) ++ url.rest

def library : UrlLibrary := ⟨parse, serialize⟩

/-- What the parser gives for a web server. -/
def Sound (url : Url) : Prop :=
  url.userinfo = "" ∧ (∃ host, url.host = some (String.ofList host) ∧ host ≠ [] ∧ '/' ∉ host ∧ ':' ∉ host) ∧
    (url.rest.toList = [] ∨ ∃ path, url.rest.toList = '/' :: path)

theorem split_separator {separator : Char} {before rest : List Char} (h : separator ∉ before)
    (hrest : rest = [] ∨ ∃ behind, rest = separator :: behind) :
    (before ++ rest).takeWhile (· != separator) = before ∧
      (before ++ rest).dropWhile (· != separator) = rest := by
  rcases hrest with rfl | ⟨behind, rfl⟩
  · have hkept : ∀ char ∈ before, (char != separator) = true := by
      intro char hchar
      apply bne_iff_ne.mpr
      rintro rfl
      exact h hchar
    rw [List.append_nil]
    exact ⟨List.takeWhile_eq_self_iff.mpr hkept, List.dropWhile_eq_nil_iff.mpr hkept⟩
  · exact takeWhile_append_separator h behind

theorem parse_of_scheme {text : String} {scheme rest : List Char}
    (htext : text.toList = scheme ++ ':' :: rest) (hscheme : IsScheme scheme) :
    parse text =
      if String.ofList scheme = "http" ∨ String.ofList scheme = "https" then
        if rest.take 2 = ['/', '/'] then parseHttp (String.ofList scheme) (rest.drop 2)
        else
          some { scheme := String.ofList scheme, userinfo := "", host := some "0.0.0.0", port := none
                 rest := "" }
      else
        some { scheme := String.ofList scheme, userinfo := "", host := none, port := none
               rest := String.ofList rest } := by
  obtain ⟨htake, hdrop⟩ := takeWhile_append_separator (colon_not_mem (by decide) hscheme.2) rest
  have hcolon : ¬(':' ∉ scheme ++ ':' :: rest ∨ ¬IsScheme scheme) :=
    not_or.mpr ⟨not_not.mpr (List.mem_append_right _ List.mem_cons_self), not_not.mpr hscheme⟩
  rw [parse, htext, htake, hdrop, List.tail_cons, String.toList_ofList, if_neg hcolon]

/-- An address that is read begins with a scheme. -/
theorem exists_scheme_of_parse {text : String} {url : Url} (h : parse text = some url) :
    ∃ scheme rest, text.toList = scheme ++ ':' :: rest ∧ IsScheme scheme := by
  unfold parse at h
  dsimp only at h
  split at h
  · cases h
  rename_i hvalid
  rw [not_or, not_not, not_not, String.toList_ofList] at hvalid
  have hboth := List.takeWhile_append_dropWhile (p := (· != ':')) (l := text.toList)
  have hfirst := List.head?_dropWhile_not (· != ':') text.toList
  cases hdrop : text.toList.dropWhile (· != ':') with
  | nil =>
      have hall := List.dropWhile_eq_nil_iff.mp hdrop ':' hvalid.1
      exact absurd hall (by decide)
  | cons char rest =>
      rw [hdrop] at hboth hfirst
      have hcolon : char = ':' := bne_eq_false_iff_eq.mp hfirst
      rw [hcolon] at hboth
      exact ⟨_, rest, hboth.symm, hvalid.2⟩

theorem not_mem_takeWhile_bne (separator : Char) (text : List Char) :
    separator ∉ text.takeWhile (· != separator) := by
  intro hmem
  have hkept := List.mem_takeWhile_imp hmem
  exact absurd hkept (by simp)

theorem sound_of_parseHttp {scheme : String} {text : List Char} {url : Url}
    (h : parseHttp scheme text = some url) : Sound url := by
  have hauthority := not_mem_takeWhile_bne '/' text
  have hcolon := not_mem_takeWhile_bne ':' (text.takeWhile (· != '/'))
  have hpath : text.dropWhile (· != '/') = [] ∨ ∃ path, text.dropWhile (· != '/') = '/' :: path := by
    have hfirst := List.head?_dropWhile_not (· != '/') text
    cases hdrop : text.dropWhile (· != '/') with
    | nil => exact Or.inl rfl
    | cons char path =>
        rw [hdrop] at hfirst
        exact Or.inr ⟨path, by rw [bne_eq_false_iff_eq.mp hfirst]⟩
  unfold parseHttp at h
  dsimp only at h
  generalize text.takeWhile (· != '/') = authority at h hauthority hcolon
  have hslash : '/' ∉ authority.takeWhile (· != ':') :=
    fun hmem => hauthority ((List.takeWhile_prefix _).subset hmem)
  split at h
  · cases h
  rename_i hhost
  split at h
  · obtain rfl := Option.some.inj h
    exact ⟨rfl, ⟨_, rfl, hhost, hslash, hcolon⟩, by rwa [String.toList_ofList]⟩
  · obtain ⟨port, -, rfl⟩ := Option.map_eq_some_iff.mp h
    refine ⟨rfl, ⟨_, rfl, hhost, hslash, hcolon⟩, ?_⟩
    rw [Url.withPort, String.toList_ofList]
    exact hpath

theorem port_withPort_or (url : Url) (port : Nat) :
    (url.withPort port).port = none ∨
      (url.withPort port).port ≠ Url.defaultPort (url.withPort port).scheme := by
  rw [Url.withPort]
  dsimp only
  split
  · exact Or.inl rfl
  · rename_i hdefault
    exact Or.inr hdefault

theorem port_of_parseHttp {scheme : String} {text : List Char} {url : Url}
    (h : parseHttp scheme text = some url) :
    url.port = none ∨ url.port ≠ Url.defaultPort url.scheme := by
  unfold parseHttp at h
  dsimp only at h
  split at h
  · cases h
  split at h
  · exact Or.inl (Option.some.inj h ▸ rfl)
  · obtain ⟨port, -, rfl⟩ := Option.map_eq_some_iff.mp h
    exact port_withPort_or _ port

/-- An address that is read has no port that its scheme implies. -/
theorem sound_of_parse {text : String} {url : Url} (h : parse text = some url)
    (hhttp : url.IsHttp) : Sound url := by
  obtain ⟨scheme, rest, htext, hscheme⟩ := exists_scheme_of_parse h
  rw [parse_of_scheme htext hscheme] at h
  by_cases hweb : String.ofList scheme = "http" ∨ String.ofList scheme = "https"
  · rw [if_pos hweb] at h
    by_cases hslashes : rest.take 2 = ['/', '/']
    · rw [if_pos hslashes] at h
      exact sound_of_parseHttp h
    · rw [if_neg hslashes] at h
      obtain rfl := Option.some.inj h
      exact ⟨rfl, ⟨"0.0.0.0".toList, rfl, by decide, by decide, by decide⟩, Or.inl rfl⟩
  · rw [if_neg hweb] at h
    obtain rfl := Option.some.inj h
    exact absurd hhttp hweb

theorem toList_serialize (url : Url) : (serialize url).toList =
    url.scheme.toList ++ ':' :: '/' :: '/' :: ((url.host.getD "").toList ++
      (url.port.elim "" fun port => ":" ++ toString (port : Int)).toList ++ url.rest.toList) := by
  have hslashes : "://".toList = [':', '/', '/'] := by decide
  rw [serialize, String.toList_append, String.toList_append, String.toList_append,
    String.toList_append, hslashes]
  simp only [List.append_assoc, List.cons_append, List.nil_append]

theorem parseHttp_parts {scheme : String} {host path : List Char} (hne : host ≠ [])
    (hslash : '/' ∉ host) (hcolon : ':' ∉ host) (hpath : path = [] ∨ ∃ behind, path = '/' :: behind)
    (port : Option Nat) (hport : ∀ number ∈ port, number ≤ 65535) :
    parseHttp scheme (host ++ (port.elim "" fun port => ":" ++ toString (port : Int)).toList ++ path) =
      some (port.elim
        { scheme, userinfo := "", host := some (String.ofList host), port := none
          rest := String.ofList path }
        (Url.withPort { scheme, userinfo := "", host := some (String.ofList host), port := none
                        rest := String.ofList path })) := by
  have hcolonText : ":".toList = [':'] := rfl
  cases port with
  | none =>
      have hempty : (Option.elim none "" fun port : Nat => ":" ++ toString (port : Int)).toList = [] :=
        rfl
      obtain ⟨htake, hdrop⟩ := split_separator hslash hpath
      obtain ⟨hhost, hnone⟩ := split_separator hcolon (Or.inl rfl)
      rw [List.append_nil] at hhost hnone
      rw [hempty, List.append_nil, parseHttp, htake, hdrop, hhost, hnone, if_neg hne, if_pos rfl,
        Option.elim_none]
  | some number =>
      have hdigits : '/' ∉ (toString (number : Int)).toList := by
        rw [toList_toString_nat]
        exact fun hmem => absurd (isDigit_toDigits hmem) (by decide)
      have hauthority : '/' ∉ host ++ ':' :: (toString (number : Int)).toList := by
        rw [List.mem_append, List.mem_cons, not_or, not_or]
        exact ⟨hslash, by decide, hdigits⟩
      obtain ⟨htake, hdrop⟩ := split_separator hauthority hpath
      obtain ⟨hhost, hsome⟩ := takeWhile_append_separator hcolon (toString (number : Int)).toList
      rw [Option.elim_some, String.toList_append, hcolonText, List.singleton_append, parseHttp, htake,
        hdrop, hhost, hsome, if_neg hne, if_neg (List.cons_ne_nil _ _), List.tail_cons,
        parseU16_toString (hport number rfl), Option.map_some, Option.elim_some]

/-- An address is read back with its new port. -/
theorem parse_serialize {url : Url} (hhttp : url.IsHttp) (h : Sound url) {port : Nat}
    (hport : port ≤ 65535) : parse (serialize (url.withPort port)) = some (url.withPort port) := by
  obtain ⟨huser, ⟨host, hhost, hne, hslash, hcolon⟩, hpath⟩ := h
  have htext := toList_serialize (url.withPort port)
  have hscheme : IsScheme (url.withPort port).scheme.toList := by
    rcases hhttp with hweb | hweb <;> rw [Url.withPort, hweb] <;> decide
  have hshown : ∀ number ∈ (url.withPort port).port, number ≤ 65535 := by
    intro number hnumber
    rw [Url.withPort] at hnumber
    obtain ⟨-, hsame⟩ := Option.ite_none_left_eq_some.mp hnumber
    obtain rfl := Option.some.inj hsame
    exact hport
  have hweb : (url.withPort port).scheme = "http" ∨ (url.withPort port).scheme = "https" := hhttp
  rw [parse_of_scheme htext hscheme, String.ofList_toList, if_pos hweb]
  have hbehind : (url.withPort port).host.getD "" = String.ofList host := by
    rw [Url.withPort, hhost]
    rfl
  rw [List.take_succ_cons, List.take_succ_cons, List.take_zero, if_pos rfl, List.drop_succ_cons,
    List.drop_succ_cons, List.drop_zero, hbehind, String.toList_ofList]
  refine (parseHttp_parts hne hslash hcolon hpath _ hshown).trans ?_
  obtain ⟨scheme, userinfo, hostText, shown, rest⟩ := url
  obtain rfl : hostText = some (String.ofList host) := hhost
  obtain rfl : userinfo = "" := huser
  rw [Url.withPort]
  dsimp only
  by_cases hdefault : some port = Url.defaultPort scheme
  · rw [if_pos hdefault, Option.elim_none, String.ofList_toList]
  · rw [if_neg hdefault, Option.elim_some, Url.withPort, if_neg hdefault, String.ofList_toList]

theorem standard : library.Standard where
  begins_with_scheme := by
    intro text url h _
    exact exists_scheme_of_parse h
  scheme_and_number := by
    intro name port hname _
    have hcolon : ":".toList = [':'] := rfl
    have htext : (socketText name port).toList = name.toList ++ ':' :: (toString (port : Int)).toList := by
      rw [socketText, String.toList_append, String.toList_append, hcolon, List.append_assoc]
      rfl
    show ∃ url, parse (socketText name port) = some url ∧ url.port = none
    rw [parse_of_scheme htext hname]
    split
    · split
      · rename_i hslashes
        have hmem : '/' ∈ (toString (port : Int)).toList := by
          apply List.mem_of_mem_take
          rw [hslashes]
          exact List.mem_cons_self
        rw [toList_toString_nat] at hmem
        exact absurd (isDigit_toDigits hmem) (by decide)
      · exact ⟨_, rfl, rfl⟩
    · exact ⟨_, rfl, rfl⟩
  default_port := by
    intro text url h
    obtain ⟨scheme, rest, htext, hscheme⟩ := exists_scheme_of_parse h
    have hsome : parse text = some url := h
    rw [parse_of_scheme htext hscheme] at hsome
    split at hsome
    · split at hsome
      · exact port_of_parseHttp hsome
      · exact Or.inl (Option.some.inj hsome ▸ rfl)
    · exact Or.inl (Option.some.inj hsome ▸ rfl)
  http_host := by
    intro text url h hhttp
    obtain ⟨-, ⟨host, hhost, hne, -⟩, -⟩ := sound_of_parse h hhttp
    rw [hhost]
    intro hempty
    exact hne (String.ofList_eq_empty_iff.mp hempty)
  parse_serialize := by
    intro text url port h hhttp hport
    exact parse_serialize hhttp (sound_of_parse h hhttp) hport

end SmallUrls

namespace Worker

/-- The restart of a worker whose active slot has the port 8080. -/
def job : SlotJob :=
  { activeSlot := "blue", basePort := 8080, standbyPort := 18080, proxyEnabled := false
    proxyKind := "none", proxyDomain := "", deployStrategy := .rollingStopOnFailure
    releaseStrategy := "blue_green", action := .restart }

def address : Url :=
  { scheme := "http", userinfo := "", host := some "127.0.0.1", port := some 8080
    rest := "/healthz" }

end Worker

/-- The endpoint of a worker that is restarted blue-green. -/
theorem tests_target_iff_worker :
    CheckKind.read SmallUrls.library .http "http://127.0.0.1:8080/healthz" =
        some (.url Worker.address) ∧
      TestsTarget SmallUrls.library Worker.job .http "http://127.0.0.1:8080/healthz"
        (.url Worker.address) :=
  ⟨by decide, (tests_target_iff SmallUrls.standard (by decide) (by decide) (by decide) (by decide)
    (by decide) (by simp)).mpr fun _ => (by decide : Url.portOrKnownDefault _ ≠ _)⟩

/-- The name of the host looks like a scheme, and the active slot is tested. -/
theorem localhost_is_not_replaced : SmallUrls.library.Standard ∧ Worker.job.isBlueGreenRestart ∧
    CheckKind.read SmallUrls.library .tcp "localhost:8080" = some (.socket "localhost" 8080) ∧
    IsSocketText "localhost:8080" ∧ Worker.job.activePort = 8080 ∧
    Worker.job.slotHealthEndpoint SmallUrls.library "localhost:8080" = "localhost:8080" ∧
    ¬TestsTarget SmallUrls.library Worker.job .tcp "localhost:8080" (.socket "localhost" 8080) := by
  have hread : CheckKind.read SmallUrls.library .tcp "localhost:8080" =
      some (.socket "localhost" 8080) := by decide
  have hsame : Worker.job.slotHealthEndpoint SmallUrls.library "localhost:8080" =
      "localhost:8080" := by decide
  refine ⟨SmallUrls.standard, by decide, hread, ⟨"localhost", 8080, ?_, by decide, by decide⟩,
    by decide, hsame, fun h => ?_⟩
  · exact Or.inl ⟨by decide, by decide⟩
  · have hother := h.not_active (.socket "localhost" 8080) (by rw [hsame]; exact hread)
    exact hother (by decide)

end EasyDeploy.BinaryTask
