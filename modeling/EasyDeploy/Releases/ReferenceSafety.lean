import EasyDeploy.Releases.ProtectedReferences

/-!
# Reference safety

Whatever the order of the operations and wherever the process stops, an artifact
that is being deleted is not named by a manifest, by a node state or by the plan
of an active run, and the releases of active runs and of environments are ready.
-/

namespace EasyDeploy.Releases
open Foundation Foundation.Transition
open Orchestrator (DeploymentRun UnitRuntimeState Database Alone)

variable {text : JsonText} {sha256Hex : String → String} {digests : Orchestrator.Digests}
  {registry registry' : Registry} {platform platform' : Platform}

/-- What a preview without blockers says. -/
structure Unreferenced (platform : Platform) (appReleaseId : Int) : Prop where
  current : ∀ environment ∈ platform.registry.environments,
    environment.currentAppReleaseId ≠ some appReleaseId

theorem unreferenced_of_currentRefs {appReleaseId : Int}
    (h : platform.currentRefs appReleaseId = 0) : Unreferenced platform appReleaseId :=
  ⟨fun environment hmem heq => not_mem_of_countP_eq_zero h hmem (by simp [heq])⟩

theorem archive_eq_ok {appId appReleaseId : Int}
    (h : platform.archiveApplicationRelease appId appReleaseId = .ok registry') :
    registry' = platform.registry.markArchived appReleaseId ∧
      Unreferenced platform appReleaseId ∧ ∀ run ∈ platform.system.database.runs,
        run.status.isActive = true → run.appReleaseId ≠ appReleaseId := by
  unfold Platform.archiveApplicationRelease at h
  split at h
  · cases h
  · rename_i preview hpreview
    split at h
    · rename_i hallowed
      obtain rfl := Except.ok.inj h
      unfold Platform.applicationReleaseCleanupPreview at hpreview
      split at hpreview
      · obtain rfl := Except.ok.inj hpreview
        simp only [Platform.ApplicationReleaseCleanupPreview.canArchive, Bool.and_eq_true,
          List.isEmpty_iff, List.append_eq_nil_iff, blocker_eq_nil] at hallowed
        refine ⟨rfl, unreferenced_of_currentRefs hallowed.2.1.1, fun run hrun hactive heq => ?_⟩
        exact not_mem_of_countP_eq_zero hallowed.2.1.2 hrun (by simp [heq, hactive])
      · cases hpreview
    · cases h

theorem delete_eq_ok {appId appReleaseId : Int}
    (h : platform.deleteApplicationRelease appId appReleaseId = .ok registry') :
    registry' = platform.registry.removeRelease appReleaseId ∧
      Unreferenced platform appReleaseId ∧ (∀ run ∈ platform.system.database.runs,
        run.appReleaseId ≠ appReleaseId) ∧
      appReleaseId ∈ platform.registry.appReleases.map (·.id) := by
  unfold Platform.deleteApplicationRelease at h
  split at h
  · cases h
  · rename_i preview hpreview
    split at h
    · rename_i hallowed
      obtain rfl := Except.ok.inj h
      unfold Platform.applicationReleaseCleanupPreview at hpreview
      split at hpreview
      · rename_i release manifest hrelease hmanifest
        obtain rfl := Except.ok.inj hpreview
        simp only [Platform.ApplicationReleaseCleanupPreview.canDelete, Bool.and_eq_true,
          List.isEmpty_iff, List.append_eq_nil_iff, blocker_eq_nil] at hallowed
        have hfound := List.find?_some hrelease
        rw [Bool.and_eq_true, beq_iff_eq] at hfound
        refine ⟨rfl, unreferenced_of_currentRefs hallowed.2.1.1.1.1.1, fun run hrun heq => ?_,
          List.mem_map.mpr ⟨release, List.mem_of_find?_eq_some hrelease, hfound.1⟩⟩
        exact not_mem_of_countP_eq_zero hallowed.2.1.1.1.1.2 hrun (by simp [heq])
      · cases hpreview
    · cases h

theorem cleanup_eq_ok {unitReleaseId : Int}
    (h : platform.cleanupArtifact unitReleaseId = .ok registry') :
    registry' = platform.registry.markDeleting unitReleaseId ∧
      platform.appReleaseRefs unitReleaseId = 0 ∧ platform.runtimeRefs unitReleaseId = 0 := by
  unfold Platform.cleanupArtifact at h
  split at h
  · cases h
  · rename_i preview hpreview
    split at h
    · rename_i hallowed
      obtain rfl := Except.ok.inj h
      unfold Platform.artifactCleanupPreview at hpreview
      split at hpreview
      · cases hpreview
      · obtain rfl := Except.ok.inj hpreview
        simp only [Platform.ArtifactCleanupPreview.allowed, Bool.and_eq_true,
          List.isEmpty_iff, List.append_eq_nil_iff, blocker_eq_nil] at hallowed
        exact ⟨rfl, hallowed.1.1.1, hallowed.1.1.2⟩
    · cases h

section Steps

variable (h : Protected platform)

include h

theorem Protected.archive {appReleaseId : Int} (hunreferenced : Unreferenced platform appReleaseId)
    (hidle : ∀ run ∈ platform.system.database.runs, run.status.isActive = true →
      run.appReleaseId ≠ appReleaseId) :
    Protected (platform.publish (platform.registry.markArchived appReleaseId)) := by
  have hids : (platform.registry.markArchived appReleaseId).manifests.map (·.appReleaseId) =
      platform.registry.manifests.map (·.appReleaseId) := map_updateAt fun _ => rfl
  have hready {other : Int} (hne : other ≠ appReleaseId) (hready : platform.registry.IsReady other) :
      (platform.registry.markArchived appReleaseId).IsReady other := by
    refine ⟨hready.release, hids ▸ hready.manifest, fun manifest hmanifest heq => ?_⟩
    exact hready.ready manifest
      (mem_of_updateAt hmanifest (fun _ => rfl) (heq.symm ▸ hne)) heq
  refine ⟨⟨{ h.guarded with
    manifestKeys := h.guarded.manifestKeys.updateAt fun _ => rfl
    manifests := ?_, units := ?_, configs := ?_ }, ?_, h.guarded.artifacts⟩, rfl, rfl, h.states,
    fun run hrun => hids ▸ h.targets run hrun, h.plans,
    fun run hrun hactive => hready (hidle run hrun hactive) (h.active run hrun hactive),
    fun environment hmem id hid => hready (fun heq => hunreferenced.current environment hmem
      (heq ▸ hid)) (h.current environment hmem id hid)⟩
  · refine forall_updateAt (fun manifest hmanifest _ _ => h.guarded.manifests manifest hmanifest)
      fun manifest hmanifest _ => h.guarded.manifests manifest hmanifest
  · exact fun row hrow => hids ▸ h.guarded.units row hrow
  · exact fun row hrow => hids ▸ h.guarded.configs row hrow
  · exact forall_updateAt (fun _ _ _ _ => .inr rfl)
      fun manifest hmanifest _ => h.guarded.statuses manifest hmanifest

theorem Protected.delete {appReleaseId : Int} (hunreferenced : Unreferenced platform appReleaseId)
    (hidle : ∀ run ∈ platform.system.database.runs, run.appReleaseId ≠ appReleaseId) :
    Protected (platform.publish (platform.registry.removeRelease appReleaseId)) := by
  have hmanifest {other : Int} (hne : other ≠ appReleaseId)
      (hmem : other ∈ platform.registry.manifests.map (·.appReleaseId)) :
      other ∈ (platform.registry.removeRelease appReleaseId).manifests.map (·.appReleaseId) := by
    obtain ⟨manifest, hmanifest, rfl⟩ := List.mem_map.mp hmem
    exact List.mem_map_of_mem (List.mem_filter.mpr ⟨hmanifest, bne_iff_ne.mpr hne⟩)
  have hrelease {other : Int} (hne : other ≠ appReleaseId)
      (hmem : other ∈ platform.registry.appReleases.map (·.id)) :
      other ∈ (platform.registry.removeRelease appReleaseId).appReleases.map (·.id) := by
    obtain ⟨release, hrelease, rfl⟩ := List.mem_map.mp hmem
    exact List.mem_map_of_mem (List.mem_filter.mpr ⟨hrelease, bne_iff_ne.mpr hne⟩)
  have hready {other : Int} (hne : other ≠ appReleaseId) (hready : platform.registry.IsReady other) :
      (platform.registry.removeRelease appReleaseId).IsReady other :=
    ⟨hrelease hne hready.release, hmanifest hne hready.manifest,
      fun manifest hmem => hready.ready manifest (List.mem_filter.mp hmem).1⟩
  have hguarded := h.guarded
  refine ⟨⟨⟨hguarded.unitReleaseKeys,
      hguarded.manifestKeys.sublist (List.filter_sublist.map _),
      fun release hmem => hguarded.releases release (List.mem_filter.mp hmem).1,
      fun manifest hmem => ?_, fun row hrow => ?_, fun row hrow => ?_⟩,
      fun manifest hmem => hguarded.statuses manifest (List.mem_filter.mp hmem).1,
      fun row hrow => hguarded.artifacts row (List.mem_filter.mp hrow).1⟩, rfl, rfl, h.states,
    fun run hrun => hmanifest (hidle run hrun) (h.targets run hrun), fun run hrun plan hplan => ?_,
    fun run hrun hactive => hready (hidle run hrun) (h.active run hrun hactive),
    fun environment hmem id hid => hready (fun heq => hunreferenced.current environment hmem
      (heq ▸ hid)) (h.current environment hmem id hid)⟩
  · obtain ⟨hmem, hne⟩ := List.mem_filter.mp hmem
    exact hrelease (bne_iff_ne.mp hne) (hguarded.manifests manifest hmem)
  · obtain ⟨hmem, hne⟩ := List.mem_filter.mp hrow
    exact hmanifest (bne_iff_ne.mp hne) (hguarded.units row hmem)
  · obtain ⟨hmem, hne⟩ := List.mem_filter.mp hrow
    exact hmanifest (bne_iff_ne.mp hne) (hguarded.configs row hmem)
  · obtain ⟨hsame, hitems⟩ := h.plans run hrun plan hplan
    refine ⟨hsame, fun item hitem id hid => ?_⟩
    obtain ⟨row, hrow, heq, hunit⟩ := hitems item hitem id hid
    exact ⟨row, List.mem_filter.mpr ⟨hrow, bne_iff_ne.mpr (heq ▸ hidle run hrun)⟩, heq, hunit⟩

theorem Protected.cleanup {unitReleaseId : Int} (hrefs : platform.appReleaseRefs unitReleaseId = 0)
    (hruntime : platform.runtimeRefs unitReleaseId = 0) :
    Protected (platform.publish (platform.registry.markDeleting unitReleaseId)) := by
  have hkept {other : Int} (hne : other ≠ unitReleaseId) (hkept : platform.registry.Kept other) :
      (platform.registry.markDeleting unitReleaseId).Kept other := fun release hrelease heq =>
    hkept release (mem_of_updateAt hrelease (fun _ => rfl) (heq.symm ▸ hne)) heq
  refine ⟨⟨{ h.guarded with
    unitReleaseKeys := h.guarded.unitReleaseKeys.updateAt fun _ => rfl }, h.guarded.statuses,
    fun row hrow id hid => hkept (fun heq => ?_) (h.guarded.artifacts row hrow id hid)⟩, rfl, rfl,
    fun state hstate id hid => hkept (fun heq => ?_) (h.states state hstate id hid), h.targets,
    h.plans, fun run hrun hactive => ?_, fun environment hmem id hid => ?_⟩
  · obtain ⟨manifest, hmanifest, hsame⟩ := List.mem_map.mp (h.guarded.units row hrow)
    refine not_mem_of_countP_eq_zero hrefs hrow ?_
    rw [Bool.and_eq_true, List.any_eq_true]
    refine ⟨by simp [hid, heq], manifest, hmanifest, ?_⟩
    rcases h.guarded.statuses manifest hmanifest with hstatus | hstatus <;>
      simp [hsame, hstatus]
  · exact not_mem_of_countP_eq_zero hruntime hstate (by simp [hid, heq])
  · obtain ⟨hrelease, hmanifest, hready⟩ := h.active run hrun hactive
    exact ⟨hrelease, hmanifest, hready⟩
  · obtain ⟨hrelease, hmanifest, hready⟩ := h.current environment hmem id hid
    exact ⟨hrelease, hmanifest, hready⟩

theorem Protected.configure {settings : Settings}
    (hkeeps : platform.registry.keepsCurrent settings.environments = true) :
    Protected (platform.publish (platform.registry.configure settings)) := by
  have hready {other : Int} (hready : platform.registry.IsReady other) :
      (platform.registry.configure settings).IsReady other :=
    ⟨hready.release, hready.manifest, hready.ready⟩
  refine ⟨⟨{ h.guarded with }, h.guarded.statuses, h.guarded.artifacts⟩, rfl, rfl, h.states,
    h.targets, h.plans, fun run hrun hactive => hready (h.active run hrun hactive),
    fun environment hmem id hid => ?_⟩
  have hsome := List.all_eq_true.mp hkeeps environment hmem
  rw [hid, Option.isNone_some, Bool.false_or, List.any_eq_true] at hsome
  obtain ⟨old, hold, hmatch⟩ := hsome
  rw [Bool.and_eq_true, beq_iff_eq, beq_iff_eq] at hmatch
  exact hready (h.current old hold id hmatch.2)

/-- The plan that is loaded for a release names what its entries name, and the release is ready. -/
theorem Protected.loaded {environmentId appReleaseId : Int} {mode : Orchestrator.DeploymentMode}
    {plan : Orchestrator.DeploymentPlan}
    (hplan : platform.system.database.loadDeploymentPlan digests environmentId appReleaseId mode =
      .ok plan) :
    platform.registry.IsReady plan.appReleaseId ∧ ∀ item ∈ plan.items, ∀ unitReleaseId,
      item.unitReleaseId = some unitReleaseId → ∃ row ∈ platform.registry.releaseUnits,
        row.appReleaseId = plan.appReleaseId ∧ row.unitReleaseId = some unitReleaseId := by
  obtain ⟨input, hinput, hbuilt⟩ := Database.loadDeploymentPlan_eq_ok hplan
  unfold Database.planInput at hinput
  split at hinput
  · cases hinput
  · rename_i identity hidentity
    obtain rfl := Except.ok.inj hinput
    rw [Orchestrator.appReleaseId_of_plan hbuilt]
    refine ⟨?_, fun item hitem unitReleaseId hid => ?_⟩
    · unfold Database.planIdentity at hidentity
      split at hidentity
      · cases hidentity
      · split at hidentity
        · rename_i hany
          rw [h.catalog] at hany
          obtain ⟨row, hrow, hmatch⟩ := List.any_eq_true.mp hany
          obtain ⟨release, hmem, rfl⟩ := List.mem_map.mp hrow
          simp only [Bool.and_eq_true, beq_iff_eq, List.any_eq_true] at hmatch
          obtain ⟨⟨rfl, -⟩, manifest, hmanifest, hsame, hready⟩ := hmatch
          refine ⟨List.mem_map_of_mem hmem, List.mem_map.mpr ⟨manifest, hmanifest, hsame⟩,
            fun other hother heq => ?_⟩
          rw [h.guarded.manifestKeys.eq hother hmanifest (heq.trans hsame.symm)]
          exact hready
        · cases hidentity
    · obtain ⟨target, htarget, rfl⟩ := (Orchestrator.mem_items_iff hbuilt).mp hitem
      rw [Database.targetUnits, mem_sortBy, List.mem_filterMap] at htarget
      obtain ⟨row, hrow, htarget⟩ := htarget
      obtain ⟨unit, -, rfl⟩ := Option.map_eq_some_iff.mp htarget
      rw [List.mem_filter, beq_iff_eq, h.catalog] at hrow
      exact ⟨row, hrow.1, hrow.2, hid⟩

theorem Protected.orchestrate {system' : Orchestrator.System} {action : Orchestrator.Action}
    (hsound : Orchestrator.Sound platform.system) (halone : Alone platform.system)
    (hsteps : Orchestrator.Steps digests platform.system action system')
    (hedit : ∀ catalog environments, action ≠ .edit catalog environments) :
    Protected (platform.follow system') := by
  have hready {other : Int} (hready : platform.registry.IsReady other) :
      (platform.follow system').registry.IsReady other :=
    ⟨hready.release, hready.manifest, hready.ready⟩
  have hcatalog := Orchestrator.catalog_of_steps hsteps hedit
  refine ⟨⟨{ h.guarded with }, h.guarded.statuses, h.guarded.artifacts⟩, ?_, rfl,
    fun state hstate id hid => ?_, fun run' hrun' => ?_, fun run' hrun' plan hplan => ?_,
    fun run' hrun' hactive => ?_, fun environment hmem id hid => ?_⟩
  · exact hcatalog.trans h.catalog
  · rcases Orchestrator.runtimeStates_of_steps hsound hsteps hstate with
      hold | ⟨run, hrun, plan, hplan, item, hitem, hnames⟩
    · exact h.states state hold id hid
    · obtain ⟨row, hrow, -, hrowId⟩ := (h.plans run hrun plan hplan).2 item hitem id (hnames id hid)
      exact h.guarded.artifacts row hrow id hrowId
  · rcases Orchestrator.exists_run_of_steps hsound hsteps hrun' with
      ⟨run, hrun, hfrozen, -⟩ | ⟨_, _, _, plan, hloaded, htarget, -⟩
    · rw [(DeploymentRun.of_frozen hfrozen).2.1]
      exact h.targets run hrun
    · rw [htarget]
      exact (h.loaded hloaded).1.manifest
  · rcases Orchestrator.exists_run_of_steps hsound hsteps hrun' with
      ⟨run, hrun, hfrozen, -⟩ | ⟨_, _, _, loaded, hloaded, htarget, hplanned⟩
    · obtain ⟨-, htarget, hsame⟩ := DeploymentRun.of_frozen hfrozen
      rw [htarget]
      exact h.plans run hrun plan (hsame ▸ hplan)
    · obtain rfl := Except.ok.inj (hplanned.symm.trans hplan)
      rw [htarget]
      exact ⟨rfl, (h.loaded hloaded).2⟩
  · rcases Orchestrator.exists_run_of_steps hsound hsteps hrun' with
      ⟨run, hrun, hfrozen, hstatus⟩ | ⟨_, _, _, plan, hloaded, htarget, -⟩
    · rw [(DeploymentRun.of_frozen hfrozen).2.1]
      refine hready (h.active run hrun ?_)
      rcases hstatus with hsame | hwas
      · exact hsame ▸ hactive
      · exact hwas
    · rw [htarget]
      exact hready (h.loaded hloaded).1
  · rcases Orchestrator.environments_of_steps hsteps hedit hmem with
      ⟨old, hold, hsame⟩ |
        ⟨index, execution, run, plan, canceled, counts, hindex, hexecuting, hcurrent⟩
    · rw [h.environments] at hold
      exact hready (h.current old hold id (hsame.trans hid))
    · -- An execution that finalizes still runs, so that the release of its run is ready.
      obtain ⟨stored, hstored, hstoredId, hrunning⟩ := halone.live execution
        (List.mem_of_getElem? hindex) (by rw [Orchestrator.Execution.isLive, hexecuting])
      obtain ⟨attended, hattends⟩ := hsound.attended index execution run plan _ hindex hexecuting
      obtain rfl : attended = stored := hsound.consistent.wellFormed.runIds.eq hattends.mem hstored
        (hattends.id.trans hstoredId.symm)
      have htarget := (h.plans attended hstored plan hattends.planned).1
      rw [hcurrent] at hid
      obtain rfl := Option.some.inj hid
      rw [htarget]
      exact hready (h.active attended hstored (by rw [hrunning]; rfl))

end Steps

end EasyDeploy.Releases
