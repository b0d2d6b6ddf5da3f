import EasyDeploy.Releases.Platform
import EasyDeploy.Releases.ResolvedManifests

/-!
# What the operations change in the registry

Which releases stay ready and which artifacts are kept, operation by operation.
-/

namespace EasyDeploy.Releases
open Foundation
open Foundation.Statements

namespace Registry

/-- The artifact has not been chosen for deletion. -/
def Kept (registry : Registry) (unitReleaseId : Int) : Prop :=
  ∀ release ∈ registry.unitReleases, release.id = unitReleaseId →
    release.artifactStatus ≠ .deleting ∧ release.artifactStatus ≠ .deleted

/-- The release exists, and its manifest is ready. -/
structure IsReady (registry : Registry) (appReleaseId : Int) : Prop where
  release : appReleaseId ∈ registry.appReleases.map (·.id)
  manifest : appReleaseId ∈ registry.manifests.map (·.appReleaseId)
  ready : ∀ manifest ∈ registry.manifests, manifest.appReleaseId = appReleaseId →
    manifest.immutableStatus = .ready

/-- Moreover no manifest names an artifact that has been chosen for deletion. -/
structure Guarded (registry : Registry) : Prop extends registry.Sound where
  statuses : ∀ manifest ∈ registry.manifests,
    manifest.immutableStatus = .ready ∨ manifest.immutableStatus = .archived
  artifacts : ∀ row ∈ registry.releaseUnits, ∀ unitReleaseId,
    row.unitReleaseId = some unitReleaseId → registry.Kept unitReleaseId

end Registry

variable {text : JsonText} {sha256Hex : String → String}
  {faults : ReleaseStatement → Option String} {registry registry' : Registry}

/-- What a registration that succeeds has found or added. -/
inductive Registered (input : RegisterUnitReleaseInput) (registry : Registry)
    (result : UnitReleaseResult) : Registry → Prop
  | existing (release : UnitRelease) (hmem : release ∈ registry.unitReleases)
      (hunit : release.unitId = input.unitId) (hversion : release.version = input.version)
      (hchecksum : release.checksumSha256 = input.checksumSha256)
      (hid : result.releaseId = release.id) : Registered input registry result registry
  | added (release : UnitRelease)
      (hfresh : ∀ other ∈ registry.unitReleases, other.unitId = input.unitId →
        other.version ≠ input.version)
      (hnext : release.id = nextId (registry.unitReleases.map (·.id)))
      (hunit : release.unitId = input.unitId) (hversion : release.version = input.version)
      (hchecksum : release.checksumSha256 = input.checksumSha256)
      (hcode : release.versionCode = (registry.nextValue .unitRelease input.unitId).getD 100)
      (hactive : release.artifactStatus = .active) (hid : result.releaseId = release.id)
      (hresult : result.versionCode = release.versionCode) :
      Registered input registry result { registry with
        unitReleases := registry.unitReleases ++ [release]
        versionCounters := registry.advanced .unitRelease input.unitId }

theorem registerUnitRelease_eq_ok {input : RegisterUnitReleaseInput} {result : UnitReleaseResult}
    (hcall : registerUnitReleaseCall text faults input registry = (.ok result, registry')) :
    Registered input registry result registry' := by
  have h := transact_eq_ok.mp hcall
  unfold registerUnitRelease at h
  obtain ⟨⟨⟩, _, hversion, h⟩ := bind_eq_ok.mp h
  obtain ⟨-, rfl⟩ := check_eq_ok.mp hversion
  obtain ⟨⟨⟩, _, hchecksum, h⟩ := bind_eq_ok.mp h
  obtain ⟨-, rfl⟩ := check_eq_ok.mp hchecksum
  obtain ⟨⟨⟩, _, hinput, h⟩ := bind_eq_ok.mp h
  obtain ⟨-, rfl⟩ := compute_eq_ok.mp hinput
  obtain ⟨⟨⟩, _, hbegin, h⟩ := bind_eq_ok.mp h
  obtain ⟨-, rfl⟩ := perform_eq_ok.mp hbegin
  obtain ⟨⟨⟩, _, hunit, h⟩ := bind_eq_ok.mp h
  obtain ⟨-, -, rfl⟩ := query_eq_ok.mp hunit
  obtain ⟨existing, _, hexisting, h⟩ := bind_eq_ok.mp h
  obtain ⟨-, hfind, rfl⟩ := query_eq_ok.mp hexisting
  replace hfind := Except.ok.inj hfind
  cases existing with
  | some existing =>
      obtain ⟨⟨⟩, _, hsame, h⟩ := bind_eq_ok.mp h
      obtain ⟨hchecksum, rfl⟩ := check_eq_ok.mp hsame
      obtain ⟨⟨⟩, _, hcommit, h⟩ := bind_eq_ok.mp h
      obtain ⟨-, rfl⟩ := perform_eq_ok.mp hcommit
      obtain ⟨rfl, rfl⟩ := Prod.mk.inj (pure_eq_ok.mp h)
      have hkey := List.find?_some hfind
      rw [Bool.and_eq_true, beq_iff_eq, beq_iff_eq] at hkey
      exact .existing existing (List.mem_of_find?_eq_some hfind) hkey.1 hkey.2 hchecksum rfl
  | none =>
      obtain ⟨versionCode, _, hcode, h⟩ := bind_eq_ok.mp h
      obtain ⟨rfl, rfl⟩ := allocateVersionCode_eq_ok hcode
      obtain ⟨metadata, _, hmetadata, h⟩ := bind_eq_ok.mp h
      obtain ⟨-, rfl⟩ := compute_eq_ok.mp hmetadata
      obtain ⟨releaseId, _, hrelease, h⟩ := bind_eq_ok.mp h
      obtain ⟨rfl, rfl⟩ := Prod.mk.inj (Except.ok.inj (statement_eq_ok.mp hrelease).2)
      obtain ⟨⟨⟩, _, hcommit, h⟩ := bind_eq_ok.mp h
      obtain ⟨-, rfl⟩ := perform_eq_ok.mp hcommit
      obtain ⟨rfl, rfl⟩ := Prod.mk.inj (pure_eq_ok.mp h)
      refine .added _ (fun other hother hunit hversion => ?_) rfl rfl rfl rfl rfl rfl rfl rfl
      refine List.find?_eq_none.mp hfind other hother ?_
      rw [hunit, hversion, beq_self_eq_true, beq_self_eq_true, Bool.and_self]

/-- A call that fails changes nothing. -/
theorem registerUnitRelease_eq_error {input : RegisterUnitReleaseInput}
    {error : ApplicationReleaseError}
    (hcall : registerUnitReleaseCall text faults input registry = (.error error, registry')) :
    registry' = registry :=
  (congrArg Prod.snd hcall).symm.trans (transact_eq_error (congrArg Prod.fst hcall))

/-- A registered unit release was there before, or is new and active. -/
theorem registerUnitRelease_changes {input : RegisterUnitReleaseInput}
    {result : Except ApplicationReleaseError UnitReleaseResult}
    (hcall : registerUnitReleaseCall text faults input registry = (result, registry')) :
    registry' = registry ∨ ∃ release,
      release.id = nextId (registry.unitReleases.map (·.id)) ∧ release.artifactStatus = .active ∧
      registry' = { registry with
        unitReleases := registry.unitReleases ++ [release]
        versionCounters := registry.advanced .unitRelease input.unitId } ∧
      ∀ registered, result = .ok registered →
        registered.versionCode = (registry.nextValue .unitRelease input.unitId).getD 100 := by
  cases result with
  | error error => exact .inl (registerUnitRelease_eq_error hcall)
  | ok result =>
      cases registerUnitRelease_eq_ok hcall with
      | existing release => exact .inl rfl
      | added release _ hnext _ _ _ hcode hactive _ hresult =>
          refine .inr ⟨release, hnext, hactive, rfl, fun registered heq => ?_⟩
          rw [← Except.ok.inj heq, hresult, hcode]

/-- What a created release holds. -/
structure Created (text : JsonText) (sha256Hex : String → String)
    (input : CreateApplicationReleaseInput) (registry : Registry)
    (result : ApplicationReleaseResult) (registry' : Registry) : Prop where
  stored : ∃ manifestJson,
    (ManifestDocument.mk result.units result.environmentConfigs).write text = .ok manifestJson ∧
      registry' = registry.withRelease input result manifestJson
  id : result.appReleaseId = registry.lastAppReleaseId + 1
  versionCode : result.versionCode = (registry.nextValue .appRelease input.appId).getD 100
  units : ∀ unitId, result.units.find? (fun unit => unit.unitId == unitId) =
    registry.resolvedUnit sha256Hex input unitId
  configs : ∀ environmentId,
    result.environmentConfigs.find? (fun config => config.environmentId == environmentId) =
      registry.resolvedConfig input environmentId
  unitsOnce : (result.units.map (·.unitId)).Nodup
  configsOnce : (result.environmentConfigs.map (·.environmentId)).Nodup
  unitsCover : SameKeys (result.units.map (·.unitId))
    ((registry.configuredUnits input.appId).map (·.unitId))
  configsCover : SameKeys (result.environmentConfigs.map (·.environmentId))
    (registry.configuredEnvironmentIds input.appId)
  changed : ∀ change ∈ input.unitChanges, ∀ unit,
    registry.changedEntry sha256Hex input.appId change = some unit → registry.EntryActive unit

theorem createApplicationRelease_eq_ok {input : CreateApplicationReleaseInput}
    {result : ApplicationReleaseResult}
    (hcall : createApplicationReleaseCall text sha256Hex faults input registry =
      (.ok result, registry')) : Created text sha256Hex input registry result registry' := by
  have h := transact_eq_ok.mp hcall
  unfold createApplicationRelease at h
  obtain ⟨⟨⟩, _, hversion, h⟩ := bind_eq_ok.mp h
  obtain ⟨-, rfl⟩ := check_eq_ok.mp hversion
  obtain ⟨⟨⟩, _, hbegin, h⟩ := bind_eq_ok.mp h
  obtain ⟨-, rfl⟩ := perform_eq_ok.mp hbegin
  obtain ⟨⟨⟩, _, havailable, h⟩ := bind_eq_ok.mp h
  obtain ⟨⟨⟩, _, happ, havailable⟩ := bind_eq_ok.mp havailable
  obtain ⟨-, -, rfl⟩ := query_eq_ok.mp happ
  obtain ⟨-, -, rfl⟩ := query_eq_ok.mp havailable
  obtain ⟨configuredUnits, _, hquery, h⟩ := bind_eq_ok.mp h
  obtain ⟨-, hconfigured, rfl⟩ := query_eq_ok.mp hquery
  obtain rfl := Except.ok.inj hconfigured
  obtain ⟨⟨⟩, _, hempty, h⟩ := bind_eq_ok.mp h
  obtain ⟨-, rfl⟩ := check_eq_ok.mp hempty
  obtain ⟨base, _, hbase, h⟩ := bind_eq_ok.mp h
  obtain ⟨rfl, rfl, -⟩ := baseUnits_eq_ok hbase
  obtain ⟨units, _, hchanges, h⟩ := bind_eq_ok.mp h
  obtain ⟨rfl, -, hunits, hchanged⟩ := applyUnitChanges_eq_ok hchanges
  obtain ⟨⟨⟩, _, hcover, h⟩ := bind_eq_ok.mp h
  obtain ⟨hunitsCover, rfl⟩ := check_eq_ok.mp hcover
  obtain ⟨selections, _, hselections, h⟩ := bind_eq_ok.mp h
  obtain ⟨rfl, rfl⟩ := baseConfigs_eq_ok hselections
  obtain ⟨configs, _, happlied, h⟩ := bind_eq_ok.mp h
  obtain ⟨rfl, -, hconfigs⟩ := applyConfigSelections_eq_ok happlied
  obtain ⟨environmentIds, _, hquery, h⟩ := bind_eq_ok.mp h
  obtain ⟨-, henvironments, rfl⟩ := query_eq_ok.mp hquery
  obtain rfl := Except.ok.inj henvironments
  obtain ⟨⟨⟩, _, hcover, h⟩ := bind_eq_ok.mp h
  obtain ⟨hconfigsCover, rfl⟩ := check_eq_ok.mp hcover
  obtain ⟨manifestJson, hwritten, rfl, rfl⟩ := storeRelease_eq_ok h
  exact ⟨⟨manifestJson, hwritten, rfl⟩, rfl, rfl, hunits, hconfigs, OrderedMap.nodup_keys,
    OrderedMap.nodup_keys, hunitsCover, hconfigsCover, hchanged⟩

/-- A call that fails changes nothing. -/
theorem createApplicationRelease_eq_error {input : CreateApplicationReleaseInput}
    {error : ApplicationReleaseError}
    (hcall : createApplicationReleaseCall text sha256Hex faults input registry =
      (.error error, registry')) : registry' = registry :=
  (show (_ : Except ApplicationReleaseError ApplicationReleaseResult × Registry).2 = registry' from
    congrArg Prod.snd hcall).symm.trans (transact_eq_error (congrArg Prod.fst hcall))

/-- An entry that no change overrides is stored for the base release. -/
theorem mem_baseEntries {input : CreateApplicationReleaseInput} {unit : ManifestUnit} {unitId : Int}
    (h : (registry.baseEntries input).find? unitId = some unit) :
    ∃ row ∈ registry.releaseUnits, ManifestUnit.ofRow row = unit := by
  have hinsert (rows : List ManifestUnit) : ∀ map : ManifestUnits,
      (rows.foldl OrderedMap.insert map).find? unitId = some unit →
        unit ∈ rows ∨ map.find? unitId = some unit := by
    induction rows with
    | nil => exact fun _ h => .inr h
    | cons first rows ih =>
        intro map h
        rcases ih (map.insert first) h with hmem | hfound
        · exact .inl (List.mem_cons_of_mem _ hmem)
        · rw [OrderedMap.find?_insert] at hfound
          split at hfound
          · exact .inl (Option.some.inj hfound ▸ List.mem_cons_self)
          · exact .inr hfound
  unfold Registry.baseEntries at h
  split at h
  · cases h
  · rcases hinsert _ _ h with hmem | hnone
    · obtain ⟨row, hrow, heq⟩ := List.mem_map.mp hmem
      exact ⟨row, (List.mem_filter.mp hrow).1, heq⟩
    · cases hnone

end EasyDeploy.Releases
