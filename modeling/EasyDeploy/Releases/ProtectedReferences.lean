import EasyDeploy.Releases.RegistryChanges
import EasyDeploy.Releases.RunReferences

/-!
# Protected references

The invariant of releases, deployments and cleanup together: what manifests, runs
and node states name is kept, and the releases of active runs and of environments
are ready.
-/

namespace EasyDeploy.Releases
open Foundation Foundation.Transition
open Orchestrator (DeploymentRun UnitRuntimeState Database Alone)

/-- What rows refer to is there. -/
structure Protected (platform : Platform) : Prop where
  guarded : platform.registry.Guarded
  catalog : platform.system.database.catalog = platform.registry.catalog
  environments : platform.system.database.environments = platform.registry.environments
  states : ∀ state ∈ platform.system.database.runtimeStates, ∀ unitReleaseId,
    state.activeUnitReleaseId = some unitReleaseId → platform.registry.Kept unitReleaseId
  targets : ∀ run ∈ platform.system.database.runs,
    run.appReleaseId ∈ platform.registry.manifests.map (·.appReleaseId)
  plans : ∀ run ∈ platform.system.database.runs, ∀ plan, run.planJson = .ok plan →
    plan.appReleaseId = run.appReleaseId ∧ ∀ item ∈ plan.items, ∀ unitReleaseId,
      item.unitReleaseId = some unitReleaseId → ∃ row ∈ platform.registry.releaseUnits,
        row.appReleaseId = run.appReleaseId ∧ row.unitReleaseId = some unitReleaseId
  active : ∀ run ∈ platform.system.database.runs, run.status.isActive = true →
    platform.registry.IsReady run.appReleaseId
  current : ∀ environment ∈ platform.registry.environments, ∀ appReleaseId,
    environment.currentAppReleaseId = some appReleaseId → platform.registry.IsReady appReleaseId

variable {text : JsonText} {sha256Hex : String → String} {digests : Orchestrator.Digests}
  {faults : ReleaseStatement → Option String} {registry registry' : Registry}
  {platform : Platform}

theorem blocker_eq_nil {references : Nat} {message : String} :
    blocker references message = [] ↔ references = 0 := by
  unfold blocker
  split
  · simp
    omega
  · simp
    omega

theorem not_mem_of_countP_eq_zero {α : Type} {p : α → Bool} {rows : List α} {row : α}
    (h : rows.countP p = 0) (hrow : row ∈ rows) : p row ≠ true :=
  List.countP_eq_zero.mp h row hrow

namespace Registry

theorem Kept.of_active (h : registry.Guarded) {unitId unitReleaseId : Int}
    (hactive : registry.unitReleaseActive unitId unitReleaseId = true) :
    registry.Kept unitReleaseId := by
  obtain ⟨release, hrelease, hmatch⟩ := List.any_eq_true.mp hactive
  simp only [Bool.and_eq_true, beq_iff_eq] at hmatch
  intro other hother hid
  obtain rfl := h.unitReleaseKeys.eq hother hrelease (hid.trans hmatch.1.1.symm)
  rw [hmatch.2]
  exact ⟨nofun, nofun⟩

/-- What an operation has to keep of the registry for the references into it. -/
structure Keeps (registry registry' : Registry) : Prop where
  guarded : registry'.Guarded
  kept : ∀ unitReleaseId, registry.Kept unitReleaseId → registry'.Kept unitReleaseId
  rows : registry.releaseUnits ⊆ registry'.releaseUnits
  manifests : registry.manifests.map (·.appReleaseId) ⊆ registry'.manifests.map (·.appReleaseId)
  ready : ∀ appReleaseId, registry.IsReady appReleaseId → registry'.IsReady appReleaseId
  environments : registry'.environments = registry.environments

theorem Keeps.refl (h : registry.Guarded) : registry.Keeps registry :=
  ⟨h, fun _ => id, List.Subset.refl _, List.Subset.refl _, fun _ => id, rfl⟩

theorem keeps_registerUnitRelease {input : RegisterUnitReleaseInput} (h : registry.Guarded) :
    registry.Keeps (registerUnitReleaseCall text faults input registry).2 := by
  cases hresult : registerUnitReleaseCall text faults input registry with
  | mk result registry' =>
  rcases registerUnitRelease_changes hresult with
    rfl | ⟨release, hid, hactive, rfl, -⟩
  · exact .refl h
  · have hkept : ∀ unitReleaseId, registry.Kept unitReleaseId →
        Kept { registry with
          unitReleases := registry.unitReleases ++ [release]
          versionCounters := registry.advanced .unitRelease input.unitId } unitReleaseId := by
      intro unitReleaseId hkept other hother heq
      rcases List.mem_append.mp hother with hold | hlast
      · exact hkept other hold heq
      · rw [List.mem_singleton.mp hlast, hactive]
        exact ⟨nofun, nofun⟩
    refine ⟨{ h with
      unitReleaseKeys := h.unitReleaseKeys.append fun hmem => ?_
      artifacts := fun row hrow id hid => hkept id (h.artifacts row hrow id hid) },
      hkept, List.Subset.refl _, List.Subset.refl _,
      fun _ hready => ⟨hready.release, hready.manifest, hready.ready⟩, rfl⟩
    rw [hid] at hmem
    exact Int.lt_irrefl _ (lt_nextId hmem)

theorem keeps_createApplicationRelease {input : CreateApplicationReleaseInput}
    (h : registry.Guarded) :
    registry.Keeps (createApplicationReleaseCall text sha256Hex faults input registry).2 := by
  cases hresult : createApplicationReleaseCall text sha256Hex faults input registry with
  | mk result registry' =>
  cases result with
  | error error =>
      rw [createApplicationRelease_eq_error hresult]
      exact .refl h
  | ok result =>
      have hcreated := createApplicationRelease_eq_ok hresult
      obtain ⟨manifestJson, -, rfl⟩ := hcreated.stored
      have hfresh {appReleaseId : Int} (hmem : appReleaseId ∈ registry.appReleases.map (·.id)) :
          appReleaseId ≠ result.appReleaseId := by
        obtain ⟨release, hrelease, rfl⟩ := List.mem_map.mp hmem
        have hle := h.releases release hrelease
        rw [hcreated.id]
        omega
      have hfreshManifest {appReleaseId : Int}
          (hmem : appReleaseId ∈ registry.manifests.map (·.appReleaseId)) :
          appReleaseId ≠ result.appReleaseId := by
        obtain ⟨manifest, hmanifest, rfl⟩ := List.mem_map.mp hmem
        exact hfresh (h.manifests manifest hmanifest)
      have hnewManifest : result.appReleaseId ∈
          (registry.withRelease input result manifestJson).manifests.map (·.appReleaseId) :=
        List.mem_map.mpr ⟨_, List.mem_append_right _ (List.mem_singleton_self _), rfl⟩
      have hmanifests : registry.manifests.map (·.appReleaseId) ⊆
          (registry.withRelease input result manifestJson).manifests.map (·.appReleaseId) :=
        List.map_subset _ (List.subset_append_left _ _)
      have hsound : (registry.withRelease input result manifestJson).Sound := by
        refine ⟨h.unitReleaseKeys, h.manifestKeys.append fun hmem => hfreshManifest hmem rfl,
          fun release hrelease => ?_, fun manifest hmanifest => ?_, fun row hrow => ?_,
          fun row hrow => ?_⟩
        · rcases List.mem_append.mp hrelease with hold | hnew
          · have hle := h.releases release hold
            show release.id ≤ result.appReleaseId
            rw [hcreated.id]
            omega
          · rw [List.mem_singleton.mp hnew]
            exact Int.le_refl _
        · rcases List.mem_append.mp hmanifest with hold | hnew
          · exact List.map_subset _ (List.subset_append_left _ _) (h.manifests manifest hold)
          · rw [List.mem_singleton.mp hnew]
            exact List.mem_map.mpr ⟨_, List.mem_append_right _ (List.mem_singleton_self _), rfl⟩
        · rcases List.mem_append.mp hrow with hold | hnew
          · exact hmanifests (h.units row hold)
          · obtain ⟨unit, -, rfl⟩ := List.mem_map.mp hnew
            exact hnewManifest
        · rcases List.mem_append.mp hrow with hold | hnew
          · exact hmanifests (h.configs row hold)
          · obtain ⟨config, -, rfl⟩ := List.mem_map.mp hnew
            exact hnewManifest
      refine ⟨⟨hsound, fun manifest hmanifest => ?_, fun row hrow unitReleaseId hid => ?_⟩,
        fun _ hkept => hkept, List.subset_append_left _ _, hmanifests,
        fun appReleaseId hready => ?_, rfl⟩
      · rcases List.mem_append.mp hmanifest with hold | hnew
        · exact h.statuses manifest hold
        · rw [List.mem_singleton.mp hnew]
          exact .inl rfl
      · rcases List.mem_append.mp hrow with hold | hnew
        · exact h.artifacts row hold unitReleaseId hid
        · obtain ⟨unit, hunit, rfl⟩ := List.mem_map.mp hnew
          -- The entry is that of a change, which was checked, or one of the base release.
          have hfind : result.units.find? (fun other => other.unitId == unit.unitId) =
              some unit := by
            refine List.find?_eq_some_iff_append.mpr ⟨by simp, ?_⟩
            obtain ⟨before, after, heq⟩ := List.append_of_mem hunit
            refine ⟨before, after, heq, fun other hother => ?_⟩
            have hnodup := hcreated.unitsOnce
            rw [heq, List.map_append, List.map_cons, List.nodup_append] at hnodup
            have hne := hnodup.2.2 _ (List.mem_map_of_mem hother) _ List.mem_cons_self
            simpa using hne
          rw [hcreated.units] at hfind
          unfold resolvedUnit at hfind
          split at hfind
          · rename_i change hchange
            have hactive := hcreated.changed change (List.mem_of_find?_eq_some hchange) unit hfind
            have hstatus : unit.desiredStatus = "active" := by
              unfold changedEntry at hfind
              dsimp only at hfind
              split at hfind
              · obtain rfl := Option.some.inj hfind
                by_contra hother
                rw [ManifestUnit.row, if_neg hother] at hid
                cases hid
              · cases hfind
            obtain ⟨activeId, hsame, hactive⟩ := hactive hstatus
            obtain rfl := Option.some.inj (hid.symm.trans hsame)
            exact Kept.of_active h hactive
          · obtain ⟨stored, hstored, rfl⟩ := mem_baseEntries hfind
            exact h.artifacts stored hstored unitReleaseId hid
      · refine ⟨List.map_subset _ (List.subset_append_left _ _) hready.release,
          hmanifests hready.manifest, fun manifest hmanifest heq => ?_⟩
        rcases List.mem_append.mp hmanifest with hold | hnew
        · exact hready.ready manifest hold heq
        · rw [List.mem_singleton.mp hnew]

theorem kept_recordDeletion {unitReleaseId other : Int} {failure : Option String}
    (h : registry.Kept other) : (registry.recordDeletion unitReleaseId failure).Kept other := by
  refine forall_updateAt (P := fun release : UnitRelease => release.id = other →
    release.artifactStatus ≠ .deleting ∧ release.artifactStatus ≠ .deleted) ?_ ?_
  · intro release hrelease _ hdeleting hid
    have hsame : release.id = other := by
      cases failure <;> exact hid
    exact absurd (eq_of_beq hdeleting) (h release hrelease hsame).1
  · exact fun release hrelease _ hid => h release hrelease hid

theorem keeps_recordDeletion {unitReleaseId : Int} {failure : Option String}
    (h : registry.Guarded) : registry.Keeps (registry.recordDeletion unitReleaseId failure) := by
  refine ⟨{ h with
    unitReleaseKeys := h.unitReleaseKeys.updateAt fun release => by cases failure <;> rfl
    artifacts := fun row hrow id hid => kept_recordDeletion (h.artifacts row hrow id hid) },
    fun _ => kept_recordDeletion, List.Subset.refl _, List.Subset.refl _,
    fun _ hready => ⟨hready.release, hready.manifest, hready.ready⟩, rfl⟩

end Registry

/-- What keeps the registry keeps the invariant. -/
theorem Protected.publish (h : Protected platform) (hkeeps : platform.registry.Keeps registry') :
    Protected (platform.publish registry') := by
  refine ⟨hkeeps.guarded, rfl, rfl, fun state hstate id hid => ?_, fun run hrun => ?_,
    fun run hrun plan hplan => ?_, fun run hrun hactive => ?_, fun environment hmem id hid => ?_⟩
  · exact hkeeps.kept _ (h.states state hstate id hid)
  · exact hkeeps.manifests (h.targets run hrun)
  · obtain ⟨hrelease, hitems⟩ := h.plans run hrun plan hplan
    refine ⟨hrelease, fun item hitem id hid => ?_⟩
    obtain ⟨row, hrow, hmatch⟩ := hitems item hitem id hid
    exact ⟨row, hkeeps.rows hrow, hmatch⟩
  · exact hkeeps.ready _ (h.active run hrun hactive)
  · have hold : environment ∈ platform.registry.environments := hkeeps.environments ▸ hmem
    exact hkeeps.ready _ (h.current environment hold id hid)

end EasyDeploy.Releases
