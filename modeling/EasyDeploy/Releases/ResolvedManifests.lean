import EasyDeploy.Releases.CreateRelease

/-!
# Resolved manifests

What `create_application_release` stores when it succeeds: for every unit the
entry of its change, or else the one of the base release.
-/

namespace EasyDeploy.Releases
open Foundation
open Foundation.Statements

namespace Registry

variable (registry : Registry) (sha256Hex : String → String)

/-- The entry of a change of a unit of the application. -/
def changedEntry (appId : Int) (change : UnitReleaseChange) : Option ManifestUnit :=
  let unitReleaseId := if change.desiredStatus = "active" then change.unitReleaseId else none
  match (registry.configuredUnits appId).find? fun unit => unit.unitId == change.unitId,
    registry.unitTargetFingerprint sha256Hex unitReleaseId change.desiredStatus with
  | some configured, .ok targetFingerprint => some
      { unitId := change.unitId, unitReleaseId, desiredStatus := change.desiredStatus
        stageNo := configured.stageNo.getD 1, unitOrder := configured.unitOrder.getD 1
        removalOrder := configured.removalOrder.getD 1, targetFingerprint }
  | _, _ => none

/-- The entries of the base release. -/
def baseEntries (input : CreateApplicationReleaseInput) : ManifestUnits :=
  match input.baseAppReleaseId with
  | none => .empty
  | some baseId => registry.manifestUnits baseId

/-- The configurations of the base release. -/
def baseSelections (input : CreateApplicationReleaseInput) : ManifestConfigs :=
  match input.baseAppReleaseId with
  | none => .empty
  | some baseId => registry.manifestConfigs baseId

/-- The entries of the base release, overridden by the changes. -/
def resolvedUnit (input : CreateApplicationReleaseInput) (unitId : Int) : Option ManifestUnit :=
  match input.unitChanges.find? fun change => change.unitId == unitId with
  | some change => registry.changedEntry sha256Hex input.appId change
  | none => (registry.baseEntries input).find? unitId

/-- The configs of the base release, overridden by the selections. -/
def resolvedConfig (input : CreateApplicationReleaseInput) (environmentId : Int) :
    Option ManifestEnvironmentConfig :=
  match input.environmentConfigs.find? fun selection =>
      selection.environmentId == environmentId with
  | some selection => some ⟨selection.environmentId, selection.configRevisionId⟩
  | none => (registry.baseSelections input).find? environmentId

/-- If the entry is to run, it names an active release of its unit. -/
def EntryActive (unit : ManifestUnit) : Prop :=
  unit.desiredStatus = "active" → ∃ unitReleaseId, unit.unitReleaseId = some unitReleaseId ∧
    registry.unitReleaseActive unit.unitId unitReleaseId = true

end Registry

variable {text : JsonText} {sha256Hex : String → String}
  {faults : ReleaseStatement → Option String} {registry registry' : Registry}

theorem changedUnitRelease_eq_ok {change : UnitReleaseChange} {value : Option Int}
    (h : changedUnitRelease faults change registry = .ok (value, registry')) :
    registry = registry' ∧
      value = (if change.desiredStatus = "active" then change.unitReleaseId else none) ∧
      (change.desiredStatus = "active" → ∃ releaseId, value = some releaseId ∧
        registry.unitReleaseActive change.unitId releaseId = true) := by
  unfold changedUnitRelease at h
  split at h
  · rename_i hactive
    obtain ⟨releaseId, _, hcompute, h⟩ := bind_eq_ok.mp h
    obtain ⟨hreleaseId, rfl⟩ := compute_eq_ok.mp hcompute
    obtain ⟨⟨⟩, _, hquery, h⟩ := bind_eq_ok.mp h
    obtain ⟨-, hvalid, rfl⟩ := query_eq_ok.mp hquery
    obtain ⟨rfl, rfl⟩ := Prod.mk.inj (pure_eq_ok.mp h)
    rw [if_pos hactive]
    have hgiven : change.unitReleaseId = some releaseId := by
      split at hreleaseId
      · cases hreleaseId
      · rename_i heq
        rw [heq, Except.ok.inj hreleaseId]
    have hvalid : registry.unitReleaseActive change.unitId releaseId = true := by
      split at hvalid
      · assumption
      · cases hvalid
    exact ⟨rfl, hgiven.symm, fun _ => ⟨releaseId, rfl, hvalid⟩⟩
  · rename_i hother
    obtain ⟨rfl, rfl⟩ := Prod.mk.inj (pure_eq_ok.mp h)
    exact ⟨rfl, (if_neg hother).symm, fun hactive => absurd hactive hother⟩

theorem changedUnit_eq_ok {appId : Int} {change : UnitReleaseChange} {unit : ManifestUnit}
    (h : changedUnit sha256Hex faults (registry.configuredUnits appId) change registry =
      .ok (unit, registry')) :
    registry = registry' ∧ registry.changedEntry sha256Hex appId change = some unit ∧
      unit.unitId = change.unitId ∧ registry.EntryActive unit := by
  unfold changedUnit at h
  obtain ⟨configured, _, hcompute, h⟩ := bind_eq_ok.mp h
  obtain ⟨hconfigured, rfl⟩ := compute_eq_ok.mp hcompute
  obtain ⟨⟨⟩, _, hcheck, h⟩ := bind_eq_ok.mp h
  obtain ⟨-, rfl⟩ := check_eq_ok.mp hcheck
  obtain ⟨value, _, hrelease, h⟩ := bind_eq_ok.mp h
  obtain ⟨rfl, hvalue, hactive⟩ := changedUnitRelease_eq_ok hrelease
  obtain ⟨targetFingerprint, _, hquery, h⟩ := bind_eq_ok.mp h
  obtain ⟨-, hfingerprint, rfl⟩ := query_eq_ok.mp hquery
  obtain ⟨rfl, rfl⟩ := Prod.mk.inj (pure_eq_ok.mp h)
  refine ⟨rfl, ?_, rfl, hactive⟩
  split at hconfigured
  · cases hconfigured
  · rename_i found hfind
    obtain rfl := Except.ok.inj hconfigured
    subst hvalue
    simp only [Registry.changedEntry, hfind, hfingerprint]

/-- The loop overrides the entries of the changed units, whose releases it has checked. -/
theorem applyUnitChanges_eq_ok {appId : Int} {changes : List UnitReleaseChange}
    {units units' : ManifestUnits} {changedUnits : List Int}
    (h : applyUnitChanges sha256Hex faults (registry.configuredUnits appId) units changedUnits
      changes registry = .ok (units', registry')) :
    registry = registry' ∧ (∀ change ∈ changes, change.unitId ∉ changedUnits) ∧
      (∀ unitId, units'.find? unitId =
        match changes.find? fun change => change.unitId == unitId with
        | some change => registry.changedEntry sha256Hex appId change
        | none => units.find? unitId) ∧
      ∀ change ∈ changes, ∀ unit, registry.changedEntry sha256Hex appId change = some unit →
        registry.EntryActive unit := by
  induction changes generalizing units changedUnits with
  | nil =>
      obtain ⟨rfl, rfl⟩ := Prod.mk.inj (pure_eq_ok.mp h)
      exact ⟨rfl, nofun, fun _ => rfl, nofun⟩
  | cons change changes ih =>
      unfold applyUnitChanges at h
      obtain ⟨⟨⟩, _, hcheck, h⟩ := bind_eq_ok.mp h
      obtain ⟨hfresh, rfl⟩ := check_eq_ok.mp hcheck
      obtain ⟨unit, _, hunit, h⟩ := bind_eq_ok.mp h
      obtain ⟨rfl, hentry, hid, hactive⟩ := changedUnit_eq_ok hunit
      obtain ⟨rfl, hdistinct, hfind, hrest⟩ := ih h
      refine ⟨rfl, fun other hother => ?_, fun unitId => ?_, fun other hother unit' hunit' => ?_⟩
      · rcases List.mem_cons.mp hother with rfl | hother
        · exact hfresh
        · exact fun hmem => hdistinct other hother (List.mem_cons_of_mem _ hmem)
      · rw [hfind, List.find?_cons]
        by_cases hkey : change.unitId = unitId
        · have hnone : changes.find? (fun other => other.unitId == unitId) = none := by
            refine List.find?_eq_none.mpr fun other hother heq => ?_
            exact hdistinct other hother (by simp [hkey, eq_of_beq heq])
          rw [hnone]
          simp [hkey, OrderedMap.find?_insert, hid, hentry]
        · rw [OrderedMap.find?_insert, if_neg (hid ▸ hkey), beq_false_of_ne hkey]
      · rcases List.mem_cons.mp hother with rfl | hother
        · rw [hentry] at hunit'
          exact Option.some.inj hunit' ▸ hactive
        · exact hrest other hother unit' hunit'

theorem applyConfigSelections_eq_ok {appId : Int} {selections : List EnvironmentConfigSelection}
    {configs configs' : ManifestConfigs} {changedEnvironments : List Int}
    (h : applyConfigSelections faults appId configs changedEnvironments selections registry =
      .ok (configs', registry')) :
    registry = registry' ∧
      (∀ selection ∈ selections, selection.environmentId ∉ changedEnvironments) ∧
      ∀ environmentId, configs'.find? environmentId =
        match selections.find? fun selection => selection.environmentId == environmentId with
        | some selection => some ⟨selection.environmentId, selection.configRevisionId⟩
        | none => configs.find? environmentId := by
  induction selections generalizing configs changedEnvironments with
  | nil =>
      obtain ⟨rfl, rfl⟩ := Prod.mk.inj (pure_eq_ok.mp h)
      exact ⟨rfl, nofun, fun _ => rfl⟩
  | cons selection selections ih =>
      unfold applyConfigSelections at h
      obtain ⟨⟨⟩, _, hcheck, h⟩ := bind_eq_ok.mp h
      obtain ⟨hfresh, rfl⟩ := check_eq_ok.mp hcheck
      obtain ⟨⟨⟩, _, hquery, h⟩ := bind_eq_ok.mp h
      obtain ⟨-, -, rfl⟩ := query_eq_ok.mp hquery
      obtain ⟨rfl, hdistinct, hfind⟩ := ih h
      refine ⟨rfl, fun other hother => ?_, fun environmentId => ?_⟩
      · rcases List.mem_cons.mp hother with rfl | hother
        · exact hfresh
        · exact fun hmem => hdistinct other hother (List.mem_cons_of_mem _ hmem)
      · rw [hfind, List.find?_cons]
        by_cases hkey : selection.environmentId = environmentId
        · have hnone : selections.find? (fun other => other.environmentId == environmentId) =
              none := by
            refine List.find?_eq_none.mpr fun other hother heq => ?_
            exact hdistinct other hother (by simp [hkey, eq_of_beq heq])
          rw [hnone]
          simp [hkey, OrderedMap.find?_insert]
        · rw [OrderedMap.find?_insert, if_neg hkey, beq_false_of_ne hkey]

theorem baseUnits_eq_ok {input : CreateApplicationReleaseInput} {units : ManifestUnits}
    (h : baseUnits faults input registry = .ok (units, registry')) :
    registry = registry' ∧ units = registry.baseEntries input ∧
      ∀ baseId, input.baseAppReleaseId = some baseId →
        registry.baseIsReady input.appId baseId = true := by
  unfold baseUnits at h
  unfold Registry.baseEntries
  cases hbase : input.baseAppReleaseId with
  | none =>
      rw [hbase] at h
      obtain ⟨rfl, rfl⟩ := Prod.mk.inj (pure_eq_ok.mp h)
      exact ⟨rfl, rfl, nofun⟩
  | some baseId =>
      rw [hbase] at h
      obtain ⟨⟨⟩, _, hquery, h⟩ := bind_eq_ok.mp h
      obtain ⟨-, hready, rfl⟩ := query_eq_ok.mp hquery
      obtain ⟨-, hunits, rfl⟩ := query_eq_ok.mp h
      refine ⟨rfl, (Except.ok.inj hunits).symm, fun other hother => ?_⟩
      obtain rfl := Option.some.inj hother
      split at hready
      · assumption
      · cases hready

theorem baseConfigs_eq_ok {input : CreateApplicationReleaseInput} {configs : ManifestConfigs}
    (h : baseConfigs faults input registry = .ok (configs, registry')) :
    registry = registry' ∧ configs = registry.baseSelections input := by
  unfold baseConfigs at h
  unfold Registry.baseSelections
  cases hbase : input.baseAppReleaseId with
  | none =>
      rw [hbase] at h
      obtain ⟨rfl, rfl⟩ := Prod.mk.inj (pure_eq_ok.mp h)
      exact ⟨rfl, rfl⟩
  | some baseId =>
      rw [hbase] at h
      obtain ⟨-, hconfigs, rfl⟩ := query_eq_ok.mp h
      exact ⟨rfl, (Except.ok.inj hconfigs).symm⟩

theorem nextValue_initCounter (registry : Registry) (scopeKind : ScopeKind) (scopeId : Int) :
    (registry.initCounter scopeKind scopeId).nextValue scopeKind scopeId =
      some ((registry.nextValue scopeKind scopeId).getD 100) := by
  unfold Registry.initCounter
  split
  · rename_i hsome
    obtain ⟨value, hvalue⟩ := Option.isSome_iff_exists.mp hsome
    rw [hvalue]
    rfl
  · rename_i hnone
    have hnone : registry.nextValue scopeKind scopeId = none := by simpa using hnone
    rw [hnone]
    rw [Registry.nextValue, Option.map_eq_none_iff] at hnone
    rw [Registry.nextValue, List.find?_append, hnone]
    simp [VersionCounter.scope]

/-- The counters after a version code has been handed out. -/
def Registry.advanced (registry : Registry) (scopeKind : ScopeKind) (scopeId : Int) :
    List VersionCounter :=
  updateAt (registry.initCounter scopeKind scopeId).versionCounters VersionCounter.scope
    (scopeKind, scopeId) (fun _ => true)
    fun counter => { counter with nextValue := counter.nextValue + 1 }

/-- A new version code is the value of its counter, and only the counters are written. -/
theorem allocateVersionCode_eq_ok {scopeKind : ScopeKind} {scopeId versionCode : Int}
    (h : allocateVersionCode faults scopeKind scopeId registry = .ok (versionCode, registry')) :
    versionCode = (registry.nextValue scopeKind scopeId).getD 100 ∧
      registry' = { registry with versionCounters := registry.advanced scopeKind scopeId } := by
  unfold allocateVersionCode at h
  obtain ⟨⟨⟩, _, hinit, h⟩ := bind_eq_ok.mp h
  obtain ⟨-, rfl⟩ := perform_eq_ok.mp hinit
  obtain ⟨-, h⟩ := statement_eq_ok.mp h
  rw [Registry.advanceCounter, nextValue_initCounter] at h
  obtain ⟨rfl, rfl⟩ := Prod.mk.inj (Except.ok.inj h)
  refine ⟨rfl, ?_⟩
  unfold Registry.advanced Registry.initCounter
  split <;> rfl

theorem foldl_insertUnit (appReleaseId : Int) (units : List ManifestUnit) (registry : Registry) :
    units.foldl (fun registry => registry.insertUnit appReleaseId) registry = { registry with
      releaseUnits := registry.releaseUnits ++ units.map (·.row appReleaseId) } := by
  induction units generalizing registry with
  | nil => simp
  | cons unit units ih =>
      rw [List.foldl_cons, ih]
      simp [Registry.insertUnit]

theorem foldl_insertConfig (appReleaseId : Int) (configs : List ManifestEnvironmentConfig)
    (registry : Registry) :
    configs.foldl (fun registry => registry.insertConfig appReleaseId) registry = { registry with
      environmentConfigs := registry.environmentConfigs ++ configs.map (·.row appReleaseId) } := by
  induction configs generalizing registry with
  | nil => simp
  | cons config configs ih =>
      rw [List.foldl_cons, ih]
      simp [Registry.insertConfig]

/-- The registry with a release of these entries. -/
def Registry.withRelease (registry : Registry) (input : CreateApplicationReleaseInput)
    (result : ApplicationReleaseResult) (manifestJson : String) : Registry :=
  { registry with
    lastAppReleaseId := result.appReleaseId
    appReleases := registry.appReleases ++ [
      { id := result.appReleaseId, appId := input.appId, version := input.version
        versionCode := result.versionCode, checksumSha256 := result.manifestHash }]
    manifests := registry.manifests ++ [
      { appReleaseId := result.appReleaseId, baseAppReleaseId := input.baseAppReleaseId
        manifestHash := result.manifestHash, manifestJson, immutableStatus := .ready
        createdBy := trim input.createdBy }]
    releaseUnits := registry.releaseUnits ++ result.units.map (·.row result.appReleaseId)
    environmentConfigs := registry.environmentConfigs ++
      result.environmentConfigs.map (·.row result.appReleaseId)
    versionCounters := registry.advanced .appRelease input.appId }

theorem storeRelease_eq_ok {input : CreateApplicationReleaseInput} {units : List ManifestUnit}
    {configs : List ManifestEnvironmentConfig} {result : ApplicationReleaseResult}
    (h : storeRelease text sha256Hex faults input units configs registry =
      .ok (result, registry')) :
    ∃ manifestJson, (ManifestDocument.mk units configs).write text = .ok manifestJson ∧
      result =
        { appReleaseId := registry.lastAppReleaseId + 1, version := input.version
          versionCode := (registry.nextValue .appRelease input.appId).getD 100
          manifestHash := sha256Hex manifestJson, units, environmentConfigs := configs } ∧
      registry' = registry.withRelease input result manifestJson := by
  unfold storeRelease at h
  obtain ⟨manifestJson, _, hcompute, h⟩ := bind_eq_ok.mp h
  obtain ⟨hwritten, rfl⟩ := compute_eq_ok.mp hcompute
  obtain ⟨⟨⟩, _, hquery, h⟩ := bind_eq_ok.mp h
  obtain ⟨-, -, rfl⟩ := query_eq_ok.mp hquery
  obtain ⟨versionCode, _, hcode, h⟩ := bind_eq_ok.mp h
  obtain ⟨rfl, rfl⟩ := allocateVersionCode_eq_ok hcode
  obtain ⟨appReleaseId, _, hrelease, h⟩ := bind_eq_ok.mp h
  obtain ⟨rfl, rfl⟩ := Prod.mk.inj (Except.ok.inj (statement_eq_ok.mp hrelease).2)
  obtain ⟨⟨⟩, _, hmanifest, h⟩ := bind_eq_ok.mp h
  obtain ⟨-, rfl⟩ := perform_eq_ok.mp hmanifest
  obtain ⟨⟨⟩, _, hunits, h⟩ := bind_eq_ok.mp h
  obtain rfl := forEach_eq_ok (fun _ _ _ heach => (perform_eq_ok.mp heach).2.symm) hunits
  obtain ⟨⟨⟩, _, hconfigs, h⟩ := bind_eq_ok.mp h
  obtain rfl := forEach_eq_ok (fun _ _ _ heach => (perform_eq_ok.mp heach).2.symm) hconfigs
  obtain ⟨⟨⟩, _, hcommit, h⟩ := bind_eq_ok.mp h
  obtain ⟨-, rfl⟩ := perform_eq_ok.mp hcommit
  obtain ⟨rfl, rfl⟩ := Prod.mk.inj (pure_eq_ok.mp h)
  refine ⟨manifestJson, ?_, rfl, ?_⟩
  · cases hwrite : (ManifestDocument.mk units configs).write text with
    | error message =>
        rw [hwrite] at hwritten
        cases hwritten
    | ok written =>
        rw [hwrite] at hwritten
        exact congrArg Except.ok (Except.ok.inj hwritten)
  · rw [foldl_insertUnit, foldl_insertConfig]
    rfl

end EasyDeploy.Releases
