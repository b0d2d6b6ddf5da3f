import EasyDeploy.Releases.CompleteReleases

/-!
# The identity of unit releases

A unit release is known by its unit and its version, keeps its checksum and has a
version code above those before it. Registering a version again gives the release
that exists, whatever has become of its artifact since, and a version is compared
as it was written, although surrounding blanks pass its validation.
-/

namespace EasyDeploy.Releases
open Foundation Foundation.Transition

variable {text : JsonText} {sha256Hex : String → String} {digests : Orchestrator.Digests}
  {faults : ReleaseStatement → Option String} {registry registry' : Registry}
  {s s' : Platform} {action : Action}

/-- The rows of unit releases and the cleanups under way, before and after a step. -/
inductive Platform.Cleaning (text : JsonText) (s s' : Platform) : Action → Prop
  | registered {faults : ReleaseStatement → Option String} {input : RegisterUnitReleaseInput}
      (hcall : s'.registry = (registerUnitReleaseCall text faults input s.registry).2)
      (hcleanups : s'.cleanups = s.cleanups) : Cleaning text s s' (.registerUnitRelease faults input)
  | begun {action : Action} {unitReleaseId : Int} {recovery : Option (List Int)}
      {registry : Registry}
      (hcall : s.cleanupArtifact unitReleaseId = .ok registry)
      (hrows : s'.registry.unitReleases = (s.registry.markDeleting unitReleaseId).unitReleases)
      (hcleanups : s'.cleanups = s.cleanups ++ [⟨unitReleaseId, .deletingObject, recovery⟩])
      (hother : ∀ index failure, action ≠ .deleteObject index failure) : Cleaning text s s' action
  | deleted {index : Nat} {failure : Option String} {unitReleaseId : Int}
      {recovery : Option (List Int)}
      (hindex : s.cleanups[index]? = some ⟨unitReleaseId, .deletingObject, recovery⟩)
      (hrows : s'.registry.unitReleases = s.registry.unitReleases)
      (hcleanups : s'.cleanups =
        s.cleanups.set index ⟨unitReleaseId, .recording failure, recovery⟩) :
      Cleaning text s s' (.deleteObject index failure)
  | recorded {index : Nat} {unitReleaseId : Int} {failure : Option String}
      {recovery : Option (List Int)}
      (hindex : s.cleanups[index]? = some ⟨unitReleaseId, .recording failure, recovery⟩)
      (hrows : s'.registry.unitReleases =
        (s.registry.recordDeletion unitReleaseId failure).unitReleases)
      (hcleanups : s'.cleanups = s.cleanups.eraseIdx index) :
      Cleaning text s s' (.recordDeletion index true)
  | other {action : Action} (hrows : s'.registry.unitReleases = s.registry.unitReleases)
      (hcleanups : s'.cleanups.Sublist s.cleanups)
      (hregister : ∀ faults input, action ≠ .registerUnitRelease faults input)
      (hdelete : ∀ index failure, action ≠ .deleteObject index failure)
      (hrecord : ∀ index, action ≠ .recordDeletion index true) : Cleaning text s s' action

theorem registry_of_register {input : RegisterUnitReleaseInput}
    (hstep : s.step text sha256Hex digests (.registerUnitRelease faults input) = some s') :
    s'.registry = (registerUnitReleaseCall text faults input s.registry).2 ∧
      s'.cleanups = s.cleanups := by
  have hcommit : s.commit (registerUnitReleaseCall text faults input s.registry) = s' :=
    Option.some.inj hstep
  generalize registerUnitReleaseCall text faults input s.registry = result at hcommit
  rw [← hcommit]
  exact ⟨rfl, rfl⟩

theorem cleaning_of_step (hstep : s.step text sha256Hex digests action = some s') :
    s.Cleaning text s' action := by
  -- What neither registers a release nor deletes an artifact.
  have haside {action : Action} (hrows : s'.registry.unitReleases = s.registry.unitReleases)
      (hcleanups : s'.cleanups.Sublist s.cleanups)
      (hregister : ∀ faults input, action ≠ .registerUnitRelease faults input)
      (hdelete : ∀ index failure, action ≠ .deleteObject index failure)
      (hrecord : ∀ index, action ≠ .recordDeletion index true) : s.Cleaning text s' action :=
    .other hrows hcleanups hregister hdelete hrecord
  cases action with
  | registerUnitRelease faults input =>
      obtain ⟨hcall, hcleanups⟩ := registry_of_register hstep
      exact .registered hcall hcleanups
  | createApplicationRelease faults input =>
      rw [Platform.step, Platform.commit] at hstep
      cases hresult : createApplicationReleaseCall text sha256Hex faults input s.registry with
      | mk result registry' =>
          rw [hresult] at hstep
          obtain rfl := Option.some.inj hstep
          refine haside ?_ (List.Sublist.refl _) (by simp) (by simp) (by simp)
          rw [Platform.publish]
          cases result with
          | error error => rw [createApplicationRelease_eq_error hresult]
          | ok result =>
              obtain ⟨manifestJson, -, rfl⟩ := (createApplicationRelease_eq_ok hresult).stored
              rfl
  | archiveApplicationRelease appId appReleaseId =>
      simp only [Platform.step] at hstep
      split at hstep
      · cases hstep
      · rename_i registry hcall
        obtain ⟨rfl, -⟩ := archive_eq_ok hcall
        obtain rfl := Option.some.inj hstep
        exact haside rfl (List.Sublist.refl _) (by simp) (by simp) (by simp)
  | deleteApplicationRelease appId appReleaseId =>
      simp only [Platform.step] at hstep
      split at hstep
      · cases hstep
      · rename_i registry hcall
        obtain ⟨rfl, -⟩ := delete_eq_ok hcall
        obtain rfl := Option.some.inj hstep
        exact haside rfl (List.Sublist.refl _) (by simp) (by simp) (by simp)
  | cleanupArtifact unitReleaseId =>
      simp only [Platform.step] at hstep
      split at hstep
      · cases hstep
      · rename_i registry hcall
        obtain rfl := Option.some.inj hstep
        obtain ⟨rfl, -⟩ := cleanup_eq_ok hcall
        exact .begun hcall rfl rfl (by simp)
  | deleteObject index failure =>
      simp only [Platform.step] at hstep
      split at hstep
      · rename_i unitReleaseId recovery hindex
        obtain rfl := Option.some.inj hstep
        exact .deleted hindex rfl rfl
      · cases hstep
  | recordDeletion index works =>
      simp only [Platform.step] at hstep
      split at hstep
      · rename_i unitReleaseId failure recovery hindex
        obtain rfl := Option.some.inj hstep
        cases works with
        | false => exact haside rfl (List.eraseIdx_sublist _ _) (by simp) (by simp) (by simp)
        | true => exact .recorded hindex rfl rfl
      · cases hstep
  | recoverDeletingArtifacts =>
      obtain rfl := Option.some.inj hstep
      exact haside rfl (List.Sublist.refl _) (by simp) (by simp) (by simp)
  | recoverNext index works =>
      simp only [Platform.step] at hstep
      split at hstep
      · split at hstep
        · rename_i registry hcall
          obtain rfl := Option.some.inj hstep
          obtain ⟨rfl, -⟩ := cleanup_eq_ok hcall
          exact .begun hcall rfl rfl (by simp)
        · obtain rfl := Option.some.inj hstep
          exact haside rfl (List.Sublist.refl _) (by simp) (by simp) (by simp)
      · cases hstep
  | deleteDeploymentSnapshot deploymentRunId =>
      simp only [Platform.step] at hstep
      split at hstep
      · cases hstep
      · rename_i platform hcall
        obtain rfl := Option.some.inj hstep
        unfold Platform.deleteDeploymentSnapshot at hcall
        split at hcall
        · cases hcall
        · split at hcall
          · cases hcall
          · obtain rfl := Except.ok.inj hcall
            exact haside rfl (List.Sublist.refl _) (by simp) (by simp) (by simp)
  | orchestrate action =>
      simp only [Platform.step] at hstep
      split at hstep
      · obtain ⟨system', -, rfl⟩ := Option.map_eq_some_iff.mp hstep
        exact haside rfl (List.Sublist.refl _) (by simp) (by simp) (by simp)
      · cases hstep
  | configure settings others =>
      simp only [Platform.step] at hstep
      split at hstep
      · obtain rfl := Option.some.inj hstep
        exact haside rfl (List.Sublist.refl _) (by simp) (by simp) (by simp)
      · cases hstep
  | restart =>
      simp only [Platform.step] at hstep
      obtain ⟨system', -, rfl⟩ := Option.map_eq_some_iff.mp hstep
      exact haside rfl (List.nil_sublist _) (by simp) (by simp) (by simp)

/-- What a release is known by. -/
structure ReleaseIdentity where
  id : Int
  unitId : Int
  version : String
  versionCode : Int
  checksumSha256 : String
deriving Repr, DecidableEq

/-- What never changes of a unit release. -/
def UnitRelease.identity (release : UnitRelease) : ReleaseIdentity :=
  { id := release.id, unitId := release.unitId, version := release.version
    versionCode := release.versionCode, checksumSha256 := release.checksumSha256 }

/-- The releases in the order in which they were registered. -/
def Registry.identities (registry : Registry) : List ReleaseIdentity :=
  registry.unitReleases.map (·.identity)

/-- A unit has one release for each version, and later releases have higher codes. -/
structure Registry.Distinct (registry : Registry) : Prop where
  versions : registry.identities.Pairwise fun before after =>
    before.unitId = after.unitId → trim before.version ≠ trim after.version
  codes : registry.identities.Pairwise fun before after =>
    before.unitId = after.unitId → before.versionCode < after.versionCode

/-- Moreover rows have their own identifiers, and the counters are ahead of the codes. -/
structure Registry.Identified (registry : Registry) : Prop extends registry.Distinct where
  ids : (registry.identities.map (·.id)).Nodup
  counters : ∀ release ∈ registry.identities, ∃ value,
    registry.nextValue .unitRelease release.unitId = some value ∧ release.versionCode < value

/-- The version differs from those of the unit by more than blanks around it, and a release that
has the version and the checksum already still has its artifact. -/
def Registry.Registers (registry : Registry) (input : RegisterUnitReleaseInput) : Prop :=
  ∀ release ∈ registry.unitReleases, release.unitId = input.unitId →
    trim release.version = trim input.version → release.version = input.version ∧
      (release.checksumSha256 = input.checksumSha256 → release.artifactStatus = .active)

/-- The result names a release of the unit with the version and the checksum that
`create_application_release` accepts. -/
def Registry.Names (registry : Registry) (input : RegisterUnitReleaseInput)
    (result : UnitReleaseResult) : Prop :=
  registry.unitReleaseActive input.unitId result.releaseId = true ∧
    ∃ release ∈ registry.unitReleases, release.id = result.releaseId ∧
      release.unitId = input.unitId ∧ trim release.version = trim input.version ∧
      release.checksumSha256 = input.checksumSha256

/-- Registrations that meet the condition. -/
def Platform.Registers (s : Platform) : Action → Prop
  | .registerUnitRelease _ input => s.registry.Registers input
  | _ => True

/-- The platform from tables that a migration may have filled. -/
def identifiedPlatform (text : JsonText) (sha256Hex : String → String)
    (digests : Orchestrator.Digests) : Transition Platform Action where
  initial s := s.IsInitial ∧ s.registry.Identified
  step := Platform.step text sha256Hex digests

/-- Only a registration adds to the identities. -/
theorem identities_of_step (hstep : s.step text sha256Hex digests action = some s')
    (hregister : ∀ faults input, action ≠ .registerUnitRelease faults input) :
    s'.registry.identities = s.registry.identities := by
  have hrows {rows : List UnitRelease} (h : s'.registry.unitReleases = rows)
      (hrows : rows.map (·.identity) = s.registry.identities) :
      s'.registry.identities = s.registry.identities := by
    rw [Registry.identities, h]
    exact hrows
  cases cleaning_of_step hstep with
  | registered hcall hcleanups => exact absurd rfl (hregister _ _)
  | begun hcall h hcleanups hother => exact hrows h (map_updateAt fun _ => rfl)
  | deleted hindex h hcleanups => exact hrows h rfl
  | @recorded index unitReleaseId failure recovery hindex h hcleanups =>
      refine hrows h (map_updateAt fun release => ?_)
      cases failure <;> rfl
  | other h hcleanups hregister hdelete hrecord => exact hrows h rfl

/-- Only a registration advances the counters of units. -/
theorem nextValue_of_step (hstep : s.step text sha256Hex digests action = some s')
    (hregister : ∀ faults input, action ≠ .registerUnitRelease faults input) (unitId : Int) :
    s'.registry.nextValue .unitRelease unitId = s.registry.nextValue .unitRelease unitId := by
  have hsame (hcounters : s'.registry.versionCounters = s.registry.versionCounters) :
      s'.registry.nextValue .unitRelease unitId = s.registry.nextValue .unitRelease unitId := by
    rw [Registry.nextValue, hcounters]
    rfl
  rcases becomes_of_step hstep with ⟨hresult⟩ | ⟨hresult⟩ | ⟨-, -, hcounters, -, -⟩
  · exact absurd rfl (hregister _ _)
  · rename_i faults input result
    cases result with
    | error error => rw [createApplicationRelease_eq_error hresult]
    | ok result =>
        obtain ⟨manifestJson, -, heq⟩ := (createApplicationRelease_eq_ok hresult).stored
        rw [heq]
        refine (nextValue_advanced s.registry .appRelease .unitRelease input.appId unitId).trans ?_
        exact if_neg fun h => by cases h
  · exact hsame hcounters

namespace Registry.Identified

variable {input : RegisterUnitReleaseInput} {result : UnitReleaseResult}

theorem congr (h : registry.Identified) (hidentities : registry'.identities = registry.identities)
    (hnext : ∀ unitId, registry'.nextValue .unitRelease unitId =
      registry.nextValue .unitRelease unitId) : registry'.Identified := by
  refine ⟨⟨?_, ?_⟩, ?_, ?_⟩
  · rw [hidentities]
    exact h.versions
  · rw [hidentities]
    exact h.codes
  · rw [hidentities]
    exact h.ids
  · rw [hidentities]
    intro release hrelease
    rw [hnext]
    exact h.counters release hrelease

theorem keyed (h : registry.Identified) : Keyed registry.unitReleases (·.id) := by
  have hids := h.ids
  rw [identities, List.map_map] at hids
  exact hids

/-- Different releases of a unit have different versions. -/
theorem versions_ne (h : registry.Identified) {release other : ReleaseIdentity}
    (hrelease : release ∈ registry.identities) (hother : other ∈ registry.identities)
    (hne : release ≠ other) (hunit : release.unitId = other.unitId) :
    trim release.version ≠ trim other.version := by
  obtain ⟨i, hi, rfl⟩ := List.getElem_of_mem hrelease
  obtain ⟨j, hj, rfl⟩ := List.getElem_of_mem hother
  have hpairs := List.pairwise_iff_getElem.mp h.versions
  rcases Nat.lt_trichotomy i j with hlt | rfl | hgt
  · exact hpairs i j hi hj hlt hunit
  · exact absurd rfl hne
  · exact (hpairs j i hj hi hgt hunit.symm).symm

/-- A new row comes behind those of its unit. -/
theorem register (h : registry.Identified) (hregisters : registry.Registers input)
    (hregistered : Registered input registry result registry') : registry'.Identified := by
  cases hregistered with
  | existing release => exact h
  | added release hfresh hnext hunit hversion hchecksum hcode hactive hid hresult =>
      have hidentities (rows : List UnitRelease) (counters : List VersionCounter) :
          ({ registry with unitReleases := rows ++ [release], versionCounters := counters } :
            Registry).identities = rows.map (·.identity) ++ [release.identity] := by
        rw [identities, List.map_append, List.map_singleton]
      refine ⟨⟨?_, ?_⟩, ?_, ?_⟩
      all_goals rw [hidentities]
      · refine List.pairwise_append.mpr ⟨h.versions, List.pairwise_singleton _ _, ?_⟩
        intro before hbefore after hafter hsame heq
        obtain rfl := List.mem_singleton.mp hafter
        obtain ⟨other, hother, rfl⟩ := List.mem_map.mp hbefore
        have hunit' : other.unitId = input.unitId := hsame.trans hunit
        have htrim : trim other.version = trim input.version := by
          rw [← hversion]
          exact heq
        exact hfresh other hother hunit' (hregisters other hother hunit' htrim).1
      · refine List.pairwise_append.mpr ⟨h.codes, List.pairwise_singleton _ _, ?_⟩
        intro before hbefore after hafter hsame
        obtain rfl := List.mem_singleton.mp hafter
        obtain ⟨value, hvalue, hlt⟩ := h.counters before hbefore
        rw [hsame, UnitRelease.identity, hunit] at hvalue
        show before.versionCode < release.versionCode
        rw [hcode, hvalue]
        exact hlt
      · have hids : (registry.unitReleases.map (·.identity)).map (·.id) =
            registry.unitReleases.map (·.id) := by
          rw [List.map_map]
          rfl
        rw [List.map_append, List.map_singleton, hids, List.nodup_append]
        refine ⟨hids ▸ h.ids, List.nodup_singleton _, fun id hold new hnew heq => ?_⟩
        rw [List.mem_singleton.mp hnew] at heq
        have hlt := lt_nextId hold
        rw [heq, ← hnext] at hlt
        exact absurd hlt (lt_irrefl _)
      · intro other hother
        have hadvanced := nextValue_advanced registry .unitRelease .unitRelease input.unitId
          other.unitId
        have hvalue : Registry.nextValue { registry with
            unitReleases := registry.unitReleases ++ [release]
            versionCounters := registry.advanced .unitRelease input.unitId } .unitRelease
              other.unitId = _ := hadvanced
        rw [hvalue]
        rcases List.mem_append.mp hother with hold | hnew
        · obtain ⟨value, hold, hlt⟩ := h.counters other hold
          split
          · rename_i heq
            rw [(Prod.mk.inj heq).2] at hold
            refine ⟨_, rfl, ?_⟩
            rw [hold, Option.getD_some]
            omega
          · exact ⟨value, hold, hlt⟩
        · obtain rfl := List.mem_singleton.mp hnew
          rw [if_pos (show (ScopeKind.unitRelease, release.identity.unitId) = _ from by
            rw [UnitRelease.identity, hunit])]
          refine ⟨_, rfl, ?_⟩
          show release.versionCode < _
          rw [hcode]
          omega

theorem step (h : s.registry.Identified) (hpermitted : s.Registers action)
    (hstep : s.step text sha256Hex digests action = some s') : s'.registry.Identified := by
  by_cases hregister : ∃ faults input, action = .registerUnitRelease faults input
  · obtain ⟨faults, input, rfl⟩ := hregister
    rw [(registry_of_register hstep).1]
    cases hcall : registerUnitReleaseCall text faults input s.registry with
    | mk result registry' =>
        cases result with
        | error error =>
            rw [registerUnitRelease_eq_error hcall]
            exact h
        | ok result => exact h.register hpermitted (registerUnitRelease_eq_ok hcall)
  · have hne (faults : ReleaseStatement → Option String) (input : RegisterUnitReleaseInput) :
        action ≠ .registerUnitRelease faults input :=
      fun heq => hregister ⟨faults, input, heq⟩
    exact h.congr (identities_of_step hstep hne) (nextValue_of_step hstep hne)

end Registry.Identified

theorem identified_of_reached
    (h : (identifiedPlatform text sha256Hex digests).Reached Platform.Registers s) :
    s.registry.Identified :=
  h.invariant (fun _ hinitial => hinitial.2)
    fun _ _ _ _ hpermitted hidentified hstep => hidentified.step hpermitted hstep

/-- Identities are appended, never changed. -/
theorem identities_grow (hstep : s.step text sha256Hex digests action = some s') :
    s.registry.identities <+: s'.registry.identities := by
  by_cases hregister : ∃ faults input, action = .registerUnitRelease faults input
  · obtain ⟨faults, input, rfl⟩ := hregister
    rw [(registry_of_register hstep).1]
    cases hcall : registerUnitReleaseCall text faults input s.registry with
    | mk result registry' =>
        rcases registerUnitRelease_changes hcall with heq | ⟨release, -, -, heq, -⟩
        · exact heq ▸ List.prefix_rfl
        · rw [heq, Registry.identities, Registry.identities, List.map_append]
          exact List.prefix_append _ _
  · have hsame := identities_of_step hstep fun faults input heq => hregister ⟨faults, input, heq⟩
    exact hsame ▸ List.prefix_rfl

section Call

variable {input : RegisterUnitReleaseInput} {result : UnitReleaseResult}

/-- A call that succeeds names an active release of a version that the unit has once exactly when
it meets the condition. -/
theorem Registry.Identified.names_iff (h : registry.Identified)
    (hregistered : Registered input registry result registry') :
    registry'.Distinct ∧ registry'.Names input result ↔ registry.Registers input := by
  constructor
  · rintro ⟨hdistinct, hactive, -⟩ other hother hunit' htrim
    cases hregistered with
    | existing release hmem hunit hversion hchecksum hid =>
        have hrow : other = release := by
          by_contra hne
          have hid' : other.identity ≠ release.identity := fun heq =>
            hne (h.keyed.eq hother hmem (congrArg ReleaseIdentity.id heq))
          exact h.versions_ne (List.mem_map_of_mem hother) (List.mem_map_of_mem hmem) hid'
            (hunit'.trans hunit.symm) (htrim.trans (congrArg trim hversion.symm))
        subst hrow
        refine ⟨hversion, fun _ => ?_⟩
        obtain ⟨active, hmem', hfacts⟩ := List.any_eq_true.mp hactive
        simp only [Bool.and_eq_true, beq_iff_eq] at hfacts
        have hsame := h.keyed.eq hmem' hmem (hfacts.1.1.trans hid)
        rw [← hsame]
        exact hfacts.2
    | added release hfresh hnext hunit hversion hchecksum hcode hactive hid hresult =>
        have hpair := hdistinct.versions
        rw [Registry.identities, List.map_append, List.map_singleton,
          List.pairwise_append] at hpair
        have hmem : other.identity ∈ registry.unitReleases.map (·.identity) :=
          List.mem_map_of_mem hother
        have hne : trim other.version ≠ trim release.version :=
          hpair.2.2 other.identity hmem release.identity (List.mem_singleton_self _)
            (hunit'.trans hunit.symm)
        rw [hversion] at hne
        exact absurd htrim hne
  · intro hregisters
    refine ⟨(h.register hregisters hregistered).toDistinct, ?_⟩
    cases hregistered with
    | existing release hmem hunit hversion hchecksum hid =>
        have hactive := (hregisters release hmem hunit (by rw [hversion])).2 hchecksum
        refine ⟨List.any_eq_true.mpr ⟨release, hmem, ?_⟩, release, hmem, hid.symm, hunit,
          by rw [hversion], hchecksum⟩
        simp [hid, hunit, hactive]
    | added release hfresh hnext hunit hversion hchecksum hcode hactive hid hresult =>
        have hmem : release ∈ registry.unitReleases ++ [release] := by simp
        refine ⟨List.any_eq_true.mpr ⟨release, hmem, ?_⟩, release, hmem, hid.symm, hunit,
          by rw [hversion], hchecksum⟩
        simp [hid, hunit, hactive]

end Call

/-- In every run whose registrations meet the condition, the releases of a unit keep their
identities, differ in their versions and have ascending codes, and a registration that succeeds
names a release that can be used exactly when it meets the condition as well; a registration that
fails changes nothing. -/
theorem unit_releases_identified
    (h : (identifiedPlatform text sha256Hex digests).Reached Platform.Registers s) :
    s.registry.Distinct ∧
      (∀ action s', s.step text sha256Hex digests action = some s' →
        s.registry.identities <+: s'.registry.identities) ∧
      (∀ faults input result registry',
        registerUnitReleaseCall text faults input s.registry = (.ok result, registry') →
          (registry'.Distinct ∧ registry'.Names input result ↔ s.registry.Registers input)) ∧
      ∀ faults input error registry',
        registerUnitReleaseCall text faults input s.registry = (.error error, registry') →
          registry' = s.registry := by
  have hidentified := identified_of_reached h
  refine ⟨hidentified.toDistinct, fun _ _ hstep => identities_grow hstep, ?_, ?_⟩
  · intro faults input result registry' hcall
    exact hidentified.names_iff (registerUnitRelease_eq_ok hcall)
  · intro faults input error registry' hcall
    exact registerUnitRelease_eq_error hcall

namespace Sample

def packageInput (version : String) : RegisterUnitReleaseInput :=
  { unitId := 1, version, packageName := "api.tgz", packagePath := "", extractDir := ""
    checksumSha256 := String.ofList (List.replicate 64 'a'), sizeBytes := 1
    publishedAt := "2026-01-01T00:00:00Z", source := "web", metadata := .object []
    storage := .local }

theorem identified_workshop : workshop.registry.Identified :=
  ⟨⟨.nil, .nil⟩, List.nodup_nil, fun _ hmem => absurd hmem List.not_mem_nil⟩

end Sample

/-- A package that is uploaded again. -/
theorem unit_releases_identified_again : ∃ s result registry',
    (identifiedPlatform Sample.compactText id Orchestrator.Sample.digests).Reached
      Platform.Registers s ∧
    registerUnitReleaseCall Sample.compactText (fun _ => none) (Sample.packageInput "1.0.0")
      s.registry = (.ok result, registry') ∧
    registry'.Distinct ∧ registry'.Names (Sample.packageInput "1.0.0") result := by
  have hstep : (Sample.workshop.step Sample.compactText id Orchestrator.Sample.digests
      (.registerUnitRelease (fun _ => none) (Sample.packageInput "1.0.0"))).any (fun s =>
        (registerUnitReleaseCall Sample.compactText (fun _ => none) (Sample.packageInput "1.0.0")
          s.registry).1.toOption.isSome &&
        s.registry.unitReleases.all fun release =>
          release.version == "1.0.0" && release.artifactStatus == .active) = true := by
    decide
  obtain ⟨s, hs, hfacts⟩ := (Option.any_eq_true _ _).mp hstep
  rw [Bool.and_eq_true, List.all_eq_true] at hfacts
  obtain ⟨hok, hall⟩ := hfacts
  have hpermitted : Sample.workshop.Registers
      (.registerUnitRelease (fun _ => none) (Sample.packageInput "1.0.0")) :=
    fun _ hmem => absurd hmem List.not_mem_nil
  have hreached : (identifiedPlatform Sample.compactText id Orchestrator.Sample.digests).Reached
      Platform.Registers s :=
    .next (.start ⟨Sample.initial_workshop, Sample.identified_workshop⟩) hpermitted hs
  have hregisters : s.registry.Registers (Sample.packageInput "1.0.0") := by
    intro release hrelease _ _
    have hrow := hall release hrelease
    rw [Bool.and_eq_true, beq_iff_eq, beq_iff_eq] at hrow
    exact ⟨hrow.1, fun _ => hrow.2⟩
  cases hcall : registerUnitReleaseCall Sample.compactText (fun _ => none)
      (Sample.packageInput "1.0.0") s.registry with
  | mk result registry' =>
  rw [hcall] at hok
  cases result with
  | error error => cases hok
  | ok result =>
      exact ⟨s, result, registry', hreached, hcall,
        ((unit_releases_identified hreached).2.2.1 _ _ _ _ hcall).mpr hregisters⟩

/-- A release is named again after its artifact has been deleted. -/
theorem deleted_release_registered_again : ¬ ∀ s,
    (identifiedPlatform Sample.compactText id Orchestrator.Sample.digests).Reachable s →
      ∀ faults input result registry',
        registerUnitReleaseCall Sample.compactText faults input s.registry =
          (.ok result, registry') → registry'.Distinct ∧ registry'.Names input result := by
  intro h
  have hexec : ((identifiedPlatform Sample.compactText id Orchestrator.Sample.digests).exec
      Sample.workshop [.registerUnitRelease (fun _ => none) (Sample.packageInput "1.0.0"),
        .cleanupArtifact 1, .deleteObject 0 none, .recordDeletion 0 true]).any (fun s =>
          (registerUnitReleaseCall Sample.compactText (fun _ => none)
            (Sample.packageInput "1.0.0") s.registry).1.toOption.any fun result =>
              !(registerUnitReleaseCall Sample.compactText (fun _ => none)
                (Sample.packageInput "1.0.0") s.registry).2.unitReleaseActive 1
                  result.releaseId) = true := by decide
  obtain ⟨s, hs, hfacts⟩ := (Option.any_eq_true _ _).mp hexec
  have hreachable : (identifiedPlatform Sample.compactText id
      Orchestrator.Sample.digests).Reachable s :=
    .exec (.start ⟨Sample.initial_workshop, Sample.identified_workshop⟩) hs
  cases hcall : registerUnitReleaseCall Sample.compactText (fun _ => none)
      (Sample.packageInput "1.0.0") s.registry with
  | mk result registry' =>
  rw [hcall] at hfacts
  cases result with
  | error error => cases hfacts
  | ok result =>
      have hnames := (h s hreachable _ _ _ _ hcall).2.1
      rw [show (Sample.packageInput "1.0.0").unitId = 1 from rfl] at hnames
      simp only [Except.toOption, Option.any_some, hnames, Bool.not_true,
        Bool.false_eq_true] at hfacts

end EasyDeploy.Releases
