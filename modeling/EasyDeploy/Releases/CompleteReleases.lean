import EasyDeploy.Releases.ReleaseLifecycle

/-!
# Complete releases

An application release that is created holds what was asked for, for the units
and the environments that the application has, under a version code that is
larger than those before. The entries that it takes over from its base release
are not checked again.
-/

namespace EasyDeploy.Releases
open Foundation Foundation.Transition
open Orchestrator (DeploymentUnit)

variable {text : JsonText} {sha256Hex : String → String} {digests : Orchestrator.Digests}
  {faults : ReleaseStatement → Option String} {registry registry' : Registry}
  {s s' : Platform} {action : Action}

/-- The version code that a step hands out, with its scope. -/
def Platform.handedOut (text : JsonText) (sha256Hex : String → String) (s : Platform) :
    Action → Option ((ScopeKind × Int) × Int)
  | .registerUnitRelease faults input =>
      match registerUnitReleaseCall text faults input s.registry with
      | (.ok result, registry') =>
          if registry'.unitReleases.length = s.registry.unitReleases.length then none
          else some ((.unitRelease, input.unitId), result.versionCode)
      | (.error _, _) => none
  | .createApplicationRelease faults input =>
      match createApplicationReleaseCall text sha256Hex faults input s.registry with
      | (.ok result, _) => some ((.appRelease, input.appId), result.versionCode)
      | (.error _, _) => none
  | _ => none

/-- The platform with the log of the version codes that it has handed out. -/
def codedPlatform (text : JsonText) (sha256Hex : String → String) (digests : Orchestrator.Digests) :
    Transition (List ((ScopeKind × Int) × Int) × Platform) Action :=
  (platform text sha256Hex digests).logged (Platform.handedOut text sha256Hex)

/-- The next code of a counter that has been advanced; the other counters stay. -/
theorem nextValue_advanced (registry : Registry) (scopeKind other : ScopeKind)
    (scopeId otherId : Int) :
    Registry.nextValue { registry with versionCounters := registry.advanced scopeKind scopeId }
        other otherId =
      if (other, otherId) = (scopeKind, scopeId) then
        some ((registry.nextValue scopeKind scopeId).getD 100 + 1)
      else registry.nextValue other otherId := by
  have hfind (counters : List VersionCounter) :
      (updateAt counters VersionCounter.scope (scopeKind, scopeId) (fun _ => true)
          fun counter => { counter with nextValue := counter.nextValue + 1 }).find?
        (fun counter => counter.scope == (other, otherId)) =
      (counters.find? fun counter => counter.scope == (other, otherId)).map fun counter =>
        if counter.scope = (scopeKind, scopeId) then
          { counter with nextValue := counter.nextValue + 1 } else counter := by
    induction counters with
    | nil => rfl
    | cons counter counters ih =>
        have hscope : (if counter.scope = (scopeKind, scopeId) ∧ true = true then
            { counter with nextValue := counter.nextValue + 1 } else counter).scope =
              counter.scope := by
          split <;> rfl
        rw [updateAt, List.map_cons, List.find?_cons, List.find?_cons, hscope]
        split
        · simp
        · exact ih
  have hother (hne : (other, otherId) ≠ (scopeKind, scopeId)) :
      (registry.initCounter scopeKind scopeId).nextValue other otherId =
        registry.nextValue other otherId := by
    unfold Registry.initCounter
    split
    · rfl
    · rw [Registry.nextValue, List.find?_append]
      have hnew : ([⟨scopeKind, scopeId, 100⟩] : List VersionCounter).find?
          (fun counter => counter.scope == (other, otherId)) = none := by
        refine List.find?_eq_none.mpr fun counter hcounter heq => hne ?_
        rw [List.mem_singleton.mp hcounter] at heq
        exact (eq_of_beq heq).symm
      rw [hnew, Option.or_none]
      rfl
  have hadvanced := hfind (registry.initCounter scopeKind scopeId).versionCounters
  rw [Registry.nextValue, Registry.advanced, hadvanced]
  split
  · rename_i heq
    obtain ⟨rfl, rfl⟩ := Prod.mk.inj heq
    have hinit := nextValue_initCounter registry other otherId
    rw [Registry.nextValue] at hinit
    obtain ⟨counter, hcounter, hvalue⟩ := Option.map_eq_some_iff.mp hinit
    have hscope : counter.scope = (other, otherId) := by
      simpa using List.find?_some hcounter
    rw [hcounter, Option.map_some, if_pos hscope, Option.map_some, hvalue]
  · rename_i hne
    rw [← hother hne, Registry.nextValue]
    cases hcounter : (registry.initCounter scopeKind scopeId).versionCounters.find?
        fun counter => counter.scope == (other, otherId) with
    | none => rfl
    | some counter =>
        have hscope : counter.scope = (other, otherId) := by
          simpa using List.find?_some hcounter
        rw [Option.map_some, if_neg (hscope ▸ hne)]

/-- The codes in the log are below their counters. -/
def Counted (log : List ((ScopeKind × Int) × Int)) (registry : Registry) : Prop :=
  ∀ entry ∈ log, ∃ value, registry.nextValue entry.1.1 entry.1.2 = some value ∧ entry.2 < value

theorem Counted.advance {log : List ((ScopeKind × Int) × Int)} (h : Counted log registry)
    {scopeKind : ScopeKind} {scopeId : Int}
    (hcounters : registry'.versionCounters = registry.advanced scopeKind scopeId) :
    Counted (log ++ [((scopeKind, scopeId), (registry.nextValue scopeKind scopeId).getD 100)])
      registry' := by
  have hnext (other : ScopeKind) (otherId : Int) : registry'.nextValue other otherId = _ :=
    (by rw [Registry.nextValue, hcounters]; rfl :
      registry'.nextValue other otherId = Registry.nextValue
        { registry with versionCounters := registry.advanced scopeKind scopeId } other
        otherId).trans (nextValue_advanced registry scopeKind other scopeId otherId)
  intro entry hentry
  rw [hnext]
  split
  · rename_i heq
    refine ⟨_, rfl, ?_⟩
    rcases List.mem_append.mp hentry with hold | hnew
    · obtain ⟨value, hvalue, hlt⟩ := h entry hold
      obtain ⟨hkind, hid⟩ := Prod.mk.inj heq
      rw [hkind, hid] at hvalue
      rw [hvalue, Option.getD_some]
      omega
    · rw [List.mem_singleton.mp hnew]
      omega
  · rename_i hne
    rcases List.mem_append.mp hentry with hold | hnew
    · exact h entry hold
    · rw [List.mem_singleton.mp hnew] at hne
      exact absurd rfl hne

/-- The counters stay ahead of the codes that they hand out. -/
theorem counted_of_reachable {log : List ((ScopeKind × Int) × Int)}
    (h : Reachable (codedPlatform text sha256Hex digests) (log, s)) :
    Counted log s.registry ∧ Reachable (platform text sha256Hex digests) s := by
  refine h.invariant (P := fun state : List ((ScopeKind × Int) × Int) × Platform =>
    Counted state.1 state.2.registry ∧ Reachable (platform text sha256Hex digests) state.2) ?_ ?_
  · rintro ⟨log, start⟩ ⟨hlog, hstart⟩
    obtain rfl : log = [] := hlog
    exact ⟨fun _ hmem => absurd hmem List.not_mem_nil, .start hstart⟩
  · rintro ⟨log, before⟩ action ⟨log', after⟩ - - ⟨hcounted, hreachable⟩ hlogged
    obtain ⟨hstep, rfl⟩ := step_logged_eq_some.mp hlogged
    refine ⟨?_, .next hreachable trivial hstep⟩
    have hkept {registry' : Registry}
        (hcounters : registry'.versionCounters = before.registry.versionCounters) :
        Counted log registry' := fun entry hentry => by
      rw [Registry.nextValue, hcounters]
      exact hcounted entry hentry
    rcases becomes_of_step hstep with ⟨hresult⟩ | ⟨hresult⟩ | ⟨-, -, hcounters, hregister, hcreate⟩
    · rename_i faults input result
      simp only [Platform.handedOut, hresult]
      rcases registerUnitRelease_changes hresult with heq | ⟨release, -, -, heq, hcode⟩
      · rw [heq]
        cases result <;> simpa using hcounted
      · cases result with
        | error error =>
            have hsame := (congrArg Prod.snd hresult).symm.trans
              (Statements.transact_eq_error (congrArg Prod.fst hresult))
            simpa using hkept (congrArg Registry.versionCounters hsame)
        | ok result =>
            have hlonger : after.registry.unitReleases.length ≠
                before.registry.unitReleases.length := by
              rw [heq, List.length_append, List.length_singleton]
              omega
            simp only [if_neg hlonger, Option.toList_some]
            rw [hcode result rfl]
            exact hcounted.advance (by rw [heq])
    · rename_i faults input result
      simp only [Platform.handedOut, hresult]
      cases result with
      | error error =>
          have hsame := createApplicationRelease_eq_error hresult
          simpa using hkept (congrArg Registry.versionCounters hsame)
      | ok result =>
          have hcreated := createApplicationRelease_eq_ok hresult
          obtain ⟨manifestJson, -, heq⟩ := hcreated.stored
          simp only [Option.toList_some]
          rw [hcreated.versionCode]
          exact hcounted.advance (by rw [heq]; rfl)
    · have hnone : before.handedOut text sha256Hex action = none := by
        cases action with
        | registerUnitRelease faults input => exact absurd rfl (hregister faults input)
        | createApplicationRelease faults input => exact absurd rfl (hcreate faults input)
        | _ => rfl
      simpa [hnone] using hkept hcounters

/-- The release has an entry for each unit and a config for each enabled environment of the
application: those of the base release, overridden by what was given. Rows and text agree. -/
structure CompleteRelease (text : JsonText) (sha256Hex : String → String)
    (input : CreateApplicationReleaseInput) (registry : Registry)
    (result : ApplicationReleaseResult) (registry' : Registry) : Prop where
  units : ∀ unitId, result.units.find? (fun unit => unit.unitId == unitId) =
    registry.resolvedUnit sha256Hex input unitId
  configs : ∀ environmentId,
    result.environmentConfigs.find? (fun config => config.environmentId == environmentId) =
      registry.resolvedConfig input environmentId
  unitsOnce : (result.units.map (·.unitId)).Nodup
  configsOnce : (result.environmentConfigs.map (·.environmentId)).Nodup
  unitsCover : ∀ unitId, unitId ∈ result.units.map (·.unitId) ↔
    ∃ unit ∈ registry.units, unit.appId = input.appId ∧ unit.id = unitId
  configsCover : ∀ environmentId,
    environmentId ∈ result.environmentConfigs.map (·.environmentId) ↔
      ∃ environment ∈ registry.environments, environment.appId = input.appId ∧
        environment.status ≠ .disabled ∧ environment.id = environmentId
  storedUnits : (registry'.releaseUnits.filter fun row =>
    row.appReleaseId == result.appReleaseId) = result.units.map (·.row result.appReleaseId)
  storedConfigs : (registry'.environmentConfigs.filter fun row =>
    row.appReleaseId == result.appReleaseId) =
      result.environmentConfigs.map (·.row result.appReleaseId)
  manifest : ∃ manifest ∈ registry'.manifests, manifest.appReleaseId = result.appReleaseId ∧
    ManifestDocument.read text manifest.manifestJson =
      .ok ⟨result.units, result.environmentConfigs⟩

/-- Every entry that is to run names an active release of its unit. -/
def EntriesActive (registry : Registry) (result : ApplicationReleaseResult) : Prop :=
  ∀ unit ∈ result.units, registry.EntryActive unit

/-- So does every entry of the base release that is not changed. -/
def InheritsActive (registry : Registry) (input : CreateApplicationReleaseInput) : Prop :=
  ∀ unit ∈ (registry.baseEntries input).rows,
    unit.unitId ∉ input.unitChanges.map (·.unitId) → registry.EntryActive unit

theorem mem_configuredUnits {appId unitId : Int} :
    unitId ∈ (registry.configuredUnits appId).map (·.unitId) ↔
      ∃ unit ∈ registry.units, unit.appId = appId ∧ unit.id = unitId := by
  have hrows (unit : DeploymentUnit) : unit.id ∈ (registry.configuredRows unit).map (·.unitId) ∧
      ∀ row ∈ registry.configuredRows unit, row.unitId = unit.id := by
    unfold Registry.configuredRows
    split
    · exact ⟨List.mem_singleton_self _, fun row hrow => by rw [List.mem_singleton.mp hrow]⟩
    · rename_i hlinks
      cases hfilter : registry.stageUnits.filter fun link => link.unitId == unit.id with
      | nil => exact absurd hfilter hlinks
      | cons link links =>
          refine ⟨by simp, fun row hrow => ?_⟩
          obtain ⟨other, -, rfl⟩ := List.mem_map.mp hrow
          rfl
  simp only [Registry.configuredUnits, List.mem_map, mem_sortBy, List.mem_flatMap, List.mem_filter,
    beq_iff_eq]
  constructor
  · rintro ⟨row, ⟨unit, ⟨hunit, happ⟩, hrow⟩, rfl⟩
    exact ⟨unit, hunit, happ, ((hrows unit).2 row hrow).symm⟩
  · rintro ⟨unit, hunit, happ, rfl⟩
    obtain ⟨row, hrow, hid⟩ := List.mem_map.mp (hrows unit).1
    exact ⟨row, ⟨unit, ⟨hunit, happ⟩, hrow⟩, hid⟩

theorem mem_configuredEnvironmentIds {appId environmentId : Int} :
    environmentId ∈ registry.configuredEnvironmentIds appId ↔
      ∃ environment ∈ registry.environments, environment.appId = appId ∧
        environment.status ≠ .disabled ∧ environment.id = environmentId := by
  simp [Registry.configuredEnvironmentIds, and_assoc]

/-- Of the rows with a new identifier there are only the new ones. -/
theorem filter_append_new {α : Type} {key : α → Int} {rows added : List α} {id : Int}
    (hold : ∀ row ∈ rows, key row ≠ id) (hnew : ∀ row ∈ added, key row = id) :
    (rows ++ added).filter (fun row => key row == id) = added := by
  rw [List.filter_append, List.filter_eq_nil_iff.mpr fun row hrow => by simpa using hold row hrow,
    List.filter_eq_self.mpr fun row hrow => beq_iff_eq.mpr (hnew row hrow), List.nil_append]

theorem Created.complete {input : CreateApplicationReleaseInput} {result : ApplicationReleaseResult}
    (h : Created text sha256Hex input registry result registry') (htext : text.RoundTrips)
    (hsound : registry.Sound) :
    CompleteRelease text sha256Hex input registry result registry' := by
  obtain ⟨manifestJson, hwritten, rfl⟩ := h.stored
  have hfresh {appReleaseId : Int}
      (hmem : appReleaseId ∈ registry.manifests.map (·.appReleaseId)) :
      appReleaseId ≠ result.appReleaseId := by
    obtain ⟨manifest, hmanifest, rfl⟩ := List.mem_map.mp hmem
    obtain ⟨release, hrelease, hsame⟩ := List.mem_map.mp (hsound.manifests manifest hmanifest)
    have hle := hsound.releases release hrelease
    rw [h.id]
    omega
  refine ⟨h.units, h.configs, h.unitsOnce, h.configsOnce, fun unitId => ?_, fun environmentId => ?_,
    ?_, ?_, ⟨_, List.mem_append_right _ (List.mem_singleton_self _), rfl,
      ManifestDocument.read_of_write htext hwritten⟩⟩
  · rw [← mem_configuredUnits]
    exact ⟨h.unitsCover.1 unitId, h.unitsCover.2 unitId⟩
  · rw [← mem_configuredEnvironmentIds]
    exact ⟨h.configsCover.1 environmentId, h.configsCover.2 environmentId⟩
  · refine filter_append_new (fun row hrow => hfresh (hsound.units row hrow)) fun row hrow => ?_
    obtain ⟨unit, -, rfl⟩ := List.mem_map.mp hrow
    rfl
  · refine filter_append_new (fun row hrow => hfresh (hsound.configs row hrow)) fun row hrow => ?_
    obtain ⟨config, -, rfl⟩ := List.mem_map.mp hrow
    rfl

/-- The entries of changes have been checked; the others are those of the base release. -/
theorem Created.entriesActive_iff {input : CreateApplicationReleaseInput}
    {result : ApplicationReleaseResult}
    (h : Created text sha256Hex input registry result registry') :
    EntriesActive registry' result ↔ InheritsActive registry input := by
  obtain ⟨manifestJson, -, rfl⟩ := h.stored
  have hfound {unit : ManifestUnit} : unit ∈ result.units ↔
      registry.resolvedUnit sha256Hex input unit.unitId = some unit := by
    rw [← h.units]
    constructor
    · intro hunit
      cases hfind : result.units.find? fun other => other.unitId == unit.unitId with
      | none => exact absurd (beq_self_eq_true _) (List.find?_eq_none.mp hfind unit hunit)
      | some other =>
          have hsame : other.unitId = unit.unitId := by simpa using List.find?_some hfind
          rw [List.inj_on_of_nodup_map h.unitsOnce (List.mem_of_find?_eq_some hfind) hunit hsame]
    · exact List.mem_of_find?_eq_some
  constructor
  · intro hactive unit hunit hunchanged
    refine hactive unit (hfound.mpr ?_)
    have hnone : input.unitChanges.find? (fun change => change.unitId == unit.unitId) = none :=
      List.find?_eq_none.mpr fun change hchange heq => hunchanged
        (List.mem_map.mpr ⟨change, hchange, eq_of_beq heq⟩)
    rw [Registry.resolvedUnit, hnone]
    exact OrderedMap.find?_of_mem hunit
  · intro hinherits unit hunit
    have hresolved := hfound.mp hunit
    unfold Registry.resolvedUnit at hresolved
    split at hresolved
    · rename_i change hchange
      exact h.changed change (List.mem_of_find?_eq_some hchange) unit hresolved
    · rename_i hnone
      refine hinherits unit (OrderedMap.mem_of_find? hresolved) fun hmem => ?_
      obtain ⟨change, hchange, heq⟩ := List.mem_map.mp hmem
      exact List.find?_eq_none.mp hnone change hchange (by simp [heq])

/-- A created release is complete and atomic, under a larger version code than those before, and
its entries are active exactly when those are that it inherits. -/
theorem created_release_complete (htext : text.RoundTrips)
    {log : List ((ScopeKind × Int) × Int)}
    (h : Reachable (codedPlatform text sha256Hex digests) (log, s))
    (faults : ReleaseStatement → Option String) (input : CreateApplicationReleaseInput) :
    (∀ result registry', createApplicationReleaseCall text sha256Hex faults input s.registry =
        (.ok result, registry') →
      ((CompleteRelease text sha256Hex input s.registry result registry' ∧
          EntriesActive registry' result ∧
          ∀ entry ∈ log, entry.1 = (.appRelease, input.appId) → entry.2 < result.versionCode) ↔
        InheritsActive s.registry input)) ∧
      ∀ error registry', createApplicationReleaseCall text sha256Hex faults input s.registry =
        (.error error, registry') → registry' = s.registry := by
  obtain ⟨hcounted, hreachable⟩ := counted_of_reachable h
  refine ⟨fun result registry' hresult => ?_,
    fun error registry' => createApplicationRelease_eq_error⟩
  have hcreated := createApplicationRelease_eq_ok hresult
  have hsound := (tracked_of_reachable hreachable).references.guarded.toSound
  rw [hcreated.entriesActive_iff]
  refine ⟨fun hholds => hholds.2.1, fun hinherits =>
    ⟨hcreated.complete htext hsound, hinherits, fun entry hentry hscope => ?_⟩⟩
  obtain ⟨value, hvalue, hlt⟩ := hcounted entry hentry
  rw [hscope] at hvalue
  rw [hcreated.versionCode, hvalue]
  exact hlt

namespace Sample

/-- A codec of these values. -/
def codec (values : List Json) : JsonText where
  toString value :=
    if value ∈ values then .ok (String.ofList value.compact) else .error "unexpected value"
  fromStr written :=
    match values.find? fun value => String.ofList value.compact == written with
    | some value => .ok value
    | none => .error "unexpected text"

theorem roundTrips_codec {values : List Json}
    (h : ∀ value ∈ values, (codec values).fromStr (String.ofList value.compact) = .ok value) :
    (codec values).RoundTrips := by
  intro value written hwritten
  simp only [codec] at hwritten
  split at hwritten
  · rename_i hvalue
    obtain rfl := Except.ok.inj hwritten
    exact h value hvalue
  · cases hwritten

/-- A second revision of the configuration. -/
def revisedRegistry : Registry :=
  { Sample.registry with configRevisions := [⟨1, 1, "config"⟩, ⟨2, 1, "revised"⟩] }

def revisedWorkshop : Platform :=
  { workshop with
    registry := revisedRegistry
    system := { workshop.system with database := { workshop.system.database with
      catalog := revisedRegistry.catalog } } }

theorem initial_revisedWorkshop : revisedWorkshop.IsInitial := by
  refine ⟨⟨rfl, rfl, rfl, rfl, rfl, rfl, rfl, rfl⟩, rfl, rfl, ⟨List.nodup_nil, List.nodup_nil,
    ?_, ?_, ?_, ?_⟩, ?_, ?_, ?_, rfl, rfl, rfl⟩
  case refine_7 =>
    intro environment hmem appReleaseId hid
    rw [List.mem_singleton.mp hmem] at hid
    cases hid
  all_goals exact fun _ hmem => absurd hmem List.not_mem_nil

def apiEntry : ManifestUnit :=
  ⟨1, some 1, "active", 1, 1, 1, "active:" ++ String.ofList (List.replicate 64 'a')⟩

/-- What an upload and the two releases write. -/
def releaseValues : List Json :=
  [.object [], (ManifestDocument.mk [apiEntry] [⟨1, 1⟩]).toJson,
    (ManifestDocument.mk [apiEntry] [⟨1, 2⟩]).toJson]

def firstRelease : CreateApplicationReleaseInput :=
  { appId := 1, version := "1.0.0", baseAppReleaseId := none
    unitChanges := [⟨1, some 1, "active"⟩], environmentConfigs := [⟨1, 1⟩]
    createdBy := "operator" }

/-- A release that takes the second revision and inherits what the first one says of the unit. -/
def secondRelease : CreateApplicationReleaseInput :=
  { appId := 1, version := "1.1.0", baseAppReleaseId := some 1, unitChanges := []
    environmentConfigs := [⟨1, 2⟩], createdBy := "operator" }

/-- A release from before there were manifests, whose package is not known. -/
def legacyRegistry : Registry :=
  { Sample.registry with
    appReleases := [⟨1, 1, "0.9.0", 99, ""⟩], lastAppReleaseId := 1
    manifests := [⟨1, none, "legacy-release-1-", "legacy", .ready, "migration-0049"⟩]
    releaseUnits := [⟨1, 1, none, "active", 1, 1, 1, ":config"⟩]
    environmentConfigs := [⟨1, 1, 1⟩]
    versionCounters := [⟨.unitRelease, 1, 100⟩, ⟨.appRelease, 1, 100⟩] }

def legacyWorkshop : Platform :=
  { workshop with
    registry := legacyRegistry
    system := { workshop.system with database := { workshop.system.database with
      catalog := legacyRegistry.catalog } } }

theorem initial_legacyWorkshop : legacyWorkshop.IsInitial := by
  refine ⟨⟨rfl, rfl, rfl, rfl, rfl, rfl, rfl, rfl⟩, rfl, rfl,
    ⟨List.nodup_nil, List.nodup_singleton _, ?_, ?_, ?_, ?_⟩, ?_, ?_, ?_, rfl, rfl, rfl⟩
  · exact fun release hmem => by rw [List.mem_singleton.mp hmem]; decide
  · exact fun manifest hmem => by rw [List.mem_singleton.mp hmem]; decide
  · exact fun row hmem => by rw [List.mem_singleton.mp hmem]; decide
  · exact fun row hmem => by rw [List.mem_singleton.mp hmem]; decide
  · exact fun release hmem => absurd hmem List.not_mem_nil
  · exact fun manifest hmem => by rw [List.mem_singleton.mp hmem]
  · intro environment hmem appReleaseId hid
    rw [List.mem_singleton.mp hmem] at hid
    cases hid

/-- A release like the one before. -/
def inheritingRelease : CreateApplicationReleaseInput :=
  { appId := 1, version := "1.0.0", baseAppReleaseId := some 1, unitChanges := []
    environmentConfigs := [], createdBy := "operator" }

end Sample

/-- A release is created on the base of the first one, whose entries it inherits. -/
theorem created_release_complete_first : ∃ log s result registry',
    Reachable (codedPlatform (Sample.codec Sample.releaseValues) id Orchestrator.Sample.digests)
      (log, s) ∧ log ≠ [] ∧
    createApplicationReleaseCall (Sample.codec Sample.releaseValues) id (fun _ => none)
      Sample.secondRelease s.registry = (.ok result, registry') ∧
    CompleteRelease (Sample.codec Sample.releaseValues) id Sample.secondRelease s.registry result
      registry' ∧ EntriesActive registry' result := by
  have hexec : ((codedPlatform (Sample.codec Sample.releaseValues) id
      Orchestrator.Sample.digests).exec ([], Sample.revisedWorkshop) [Sample.upload "1.0.0" 'a',
        .createApplicationRelease (fun _ => none) Sample.firstRelease]).any
        (fun state => !state.1.isEmpty && (createApplicationReleaseCall
          (Sample.codec Sample.releaseValues) id (fun _ => none) Sample.secondRelease
          state.2.registry).1.toOption.isSome &&
          (state.2.registry.baseEntries Sample.secondRelease).rows.all fun unit =>
            unit.unitReleaseId == some 1 &&
              state.2.registry.unitReleaseActive unit.unitId 1) = true := by decide +kernel
  obtain ⟨⟨log, s⟩, hs, hfacts⟩ := (Option.any_eq_true _ _).mp hexec
  rw [Bool.and_eq_true, Bool.and_eq_true] at hfacts
  obtain ⟨⟨hlog, hcreated⟩, hentries⟩ := hfacts
  have hreachable : Reachable (codedPlatform (Sample.codec Sample.releaseValues) id
      Orchestrator.Sample.digests) (log, s) :=
    .exec (s := ([], Sample.revisedWorkshop)) (.start ⟨rfl, Sample.initial_revisedWorkshop⟩) hs
  have htext : (Sample.codec Sample.releaseValues).RoundTrips :=
    Sample.roundTrips_codec (by decide +kernel)
  have hinherits : InheritsActive s.registry Sample.secondRelease := by
    intro unit hunit _ _
    have hentry := List.all_eq_true.mp hentries unit hunit
    rw [Bool.and_eq_true, beq_iff_eq] at hentry
    exact ⟨1, hentry.1, hentry.2⟩
  cases hcall : createApplicationReleaseCall (Sample.codec Sample.releaseValues) id (fun _ => none)
      Sample.secondRelease s.registry with
  | mk result registry' =>
  cases result with
  | error error =>
      rw [hcall] at hcreated
      cases hcreated
  | ok result =>
      have hcomplete := ((created_release_complete htext hreachable (fun _ => none)
        Sample.secondRelease).1 result registry' hcall).mpr hinherits
      refine ⟨log, s, result, registry', hreachable, fun hnil => ?_, hcall, hcomplete.1,
        hcomplete.2.1⟩
      rw [hnil] at hlog
      cases hlog

/-- A release inherits a unit whose package was never known. -/
theorem release_inherits_missing_package : ¬ ∀ s,
    Reachable (platform Sample.compactText id Orchestrator.Sample.digests) s →
      ∀ faults input result registry',
        createApplicationReleaseCall Sample.compactText id faults input s.registry =
          (.ok result, registry') → EntriesActive registry' result := by
  intro h
  have hcall : (createApplicationReleaseCall Sample.compactText id (fun _ => none)
      Sample.inheritingRelease Sample.legacyWorkshop.registry).1.toOption.any (fun result =>
        result.units.any fun unit => unit.desiredStatus == "active" &&
          unit.unitReleaseId.isNone) = true := by decide +kernel
  cases hresult : createApplicationReleaseCall Sample.compactText id (fun _ => none)
      Sample.inheritingRelease Sample.legacyWorkshop.registry with
  | mk result registry' =>
  rw [hresult] at hcall
  cases result with
  | error error => cases hcall
  | ok result =>
      obtain ⟨unit, hunit, hmissing⟩ := List.any_eq_true.mp hcall
      rw [Bool.and_eq_true, beq_iff_eq] at hmissing
      obtain ⟨unitReleaseId, hid, -⟩ := h _ (.start Sample.initial_legacyWorkshop) _ _ _ _ hresult
        unit hunit hmissing.1
      rw [hid] at hmissing
      cases hmissing.2

end EasyDeploy.Releases
