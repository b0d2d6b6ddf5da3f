import EasyDeploy.Releases.ReferenceSafety

/-!
# The life cycle of releases

From the steps every run of the platform: what is deployed is ready, what is named
is kept, and a deleted release does not come back.
-/

namespace EasyDeploy.Releases
open Foundation Foundation.Transition
open Orchestrator (Alone orchestrator)

variable {text : JsonText} {sha256Hex : String → String} {digests : Orchestrator.Digests}
  {s s' s'' : Platform} {action : Action}

/-- The system of a platform moves as an orchestrator does. -/
structure Tracked (digests : Orchestrator.Digests) (s : Platform) : Prop where
  reachable : Reachable (orchestrator digests) s.system
  alone : Alone s.system
  references : Protected s

/-- Storing the registry is an edit of the orchestrator's catalog. -/
theorem Tracked.publish {registry' : Registry} (h : Tracked digests s)
    (hreferences : Protected (s.publish registry')) : Tracked digests (s.publish registry') :=
  ⟨.next (a := .edit registry'.catalog registry'.environments) h.reachable trivial rfl,
    ⟨h.alone.single, h.alone.live⟩, hreferences⟩

theorem isLive_of_failure {execution : Orchestrator.Execution}
    {error : Orchestrator.OrchestratorError} (h : execution.failure = some error) :
    execution.isLive = false := by
  unfold Orchestrator.Execution.failure at h
  unfold Orchestrator.Execution.isLive
  split at h <;> simp_all

theorem Tracked.orchestrate {system' : Orchestrator.System} {action : Orchestrator.Action}
    (h : Tracked digests s) (hstep : s.system.step digests action = some system')
    (hadmits : s.admits action = true) : Tracked digests (s.follow system') := by
  have hsound := Orchestrator.sound_of_reachable h.reachable
  have hsteps := Orchestrator.steps_of_step hstep
  refine ⟨h.reachable.next trivial hstep, h.alone.step hsound hsteps ?_ ?_,
    h.references.orchestrate hsound h.alone hsteps ?_⟩
  · rintro deploymentRunId rfl hmem
    obtain ⟨execution, hexecution, rfl⟩ := List.mem_map.mp hmem
    have hne := List.all_eq_true.mp hadmits execution hexecution
    exact bne_iff_ne.mp hne rfl
  · rintro index rfl execution hindex
    simp only [Orchestrator.System.step, hindex] at hstep
    split at hstep
    · cases hstep
    · rename_i error hfailure
      exact isLive_of_failure hfailure
  · rintro catalog environments rfl
    cases hadmits

theorem Tracked.step (h : Tracked digests s)
    (hstep : s.step text sha256Hex digests action = some s') : Tracked digests s' := by
  have hguarded := h.references.guarded
  -- A step may also note where the calls of the process are.
  have hnoted {platform : Platform} (htracked : Tracked digests platform)
      (others : OtherReferences) (deletedSnapshots : List Int) (cleanups : List Cleanup)
      (recoveries : List (List Int)) :
      Tracked digests { platform with others, deletedSnapshots, cleanups, recoveries } :=
    ⟨htracked.reachable, htracked.alone, { htracked.references with }⟩
  cases action with
  | registerUnitRelease faults input =>
      obtain rfl := Option.some.inj hstep
      exact h.publish (h.references.publish (Registry.keeps_registerUnitRelease hguarded))
  | createApplicationRelease faults input =>
      obtain rfl := Option.some.inj hstep
      exact h.publish (h.references.publish (Registry.keeps_createApplicationRelease hguarded))
  | archiveApplicationRelease appId appReleaseId =>
      simp only [Platform.step] at hstep
      split at hstep
      · cases hstep
      · rename_i registry hcall
        obtain ⟨rfl, hunreferenced, hidle⟩ := archive_eq_ok hcall
        obtain rfl := Option.some.inj hstep
        exact h.publish (h.references.archive hunreferenced hidle)
  | deleteApplicationRelease appId appReleaseId =>
      simp only [Platform.step] at hstep
      split at hstep
      · cases hstep
      · rename_i registry hcall
        obtain ⟨rfl, hunreferenced, hidle, -⟩ := delete_eq_ok hcall
        obtain rfl := Option.some.inj hstep
        exact h.publish (h.references.delete hunreferenced hidle)
  | cleanupArtifact unitReleaseId =>
      simp only [Platform.step] at hstep
      split at hstep
      · cases hstep
      · rename_i registry hcall
        obtain ⟨rfl, hrefs, hruntime⟩ := cleanup_eq_ok hcall
        obtain rfl := Option.some.inj hstep
        exact hnoted (h.publish (h.references.cleanup hrefs hruntime)) _ _ _ _
  | deleteObject index failure =>
      simp only [Platform.step] at hstep
      split at hstep
      · obtain rfl := Option.some.inj hstep
        exact hnoted h _ _ _ _
      · cases hstep
  | recordDeletion index works =>
      simp only [Platform.step] at hstep
      split at hstep
      · obtain rfl := Option.some.inj hstep
        refine hnoted (h.publish (h.references.publish ?_)) _ _ _ _
        split
        · exact Registry.keeps_recordDeletion hguarded
        · exact .refl hguarded
      · cases hstep
  | recoverDeletingArtifacts =>
      obtain rfl := Option.some.inj hstep
      exact hnoted h _ _ _ _
  | recoverNext index works =>
      simp only [Platform.step] at hstep
      split at hstep
      · split at hstep
        · rename_i registry hcall
          obtain ⟨rfl, hrefs, hruntime⟩ := cleanup_eq_ok hcall
          obtain rfl := Option.some.inj hstep
          exact hnoted (h.publish (h.references.cleanup hrefs hruntime)) _ _ _ _
        · obtain rfl := Option.some.inj hstep
          exact hnoted h _ _ _ _
      · cases hstep
  | deleteDeploymentSnapshot deploymentRunId =>
      simp only [Platform.step] at hstep
      split at hstep
      · cases hstep
      · rename_i platform hcall
        obtain rfl := Option.some.inj hstep
        unfold Platform.deleteDeploymentSnapshot at hcall
        split at hcall
        · cases hcall
        · split at hcall
          · cases hcall
          · obtain rfl := Except.ok.inj hcall
            exact hnoted h _ _ _ _
  | orchestrate action =>
      simp only [Platform.step] at hstep
      split at hstep
      · rename_i hadmits
        obtain ⟨system', hsystem, rfl⟩ := Option.map_eq_some_iff.mp hstep
        exact h.orchestrate hsystem hadmits
      · cases hstep
  | configure settings others =>
      simp only [Platform.step] at hstep
      split at hstep
      · rename_i hkeeps
        obtain rfl := Option.some.inj hstep
        exact hnoted (h.publish (h.references.configure hkeeps)) _ _ _ _
      · cases hstep
  | restart =>
      simp only [Platform.step] at hstep
      obtain ⟨system', hsystem, rfl⟩ := Option.map_eq_some_iff.mp hstep
      have hsound := Orchestrator.sound_of_reachable h.reachable
      have hsteps := Orchestrator.steps_of_step hsystem
      have hfollowed : Tracked digests (s.follow system') :=
        ⟨.next (a := Orchestrator.Action.restart) h.reachable trivial hsystem,
          h.alone.step hsound hsteps (fun _ heq => nomatch heq) (fun _ heq => nomatch heq),
          h.references.orchestrate hsound h.alone hsteps fun _ _ heq => nomatch heq⟩
      exact hnoted hfollowed _ _ _ _

theorem tracked_of_reachable (h : Reachable (platform text sha256Hex digests) s) :
    Tracked digests s := by
  refine h.invariant (P := Tracked digests) (fun start hstart => ?_)
    fun _ _ _ _ _ htracked hstep => htracked.step hstep
  obtain ⟨hruns, -, -, -, -, hstates, -, hexecutions⟩ := hstart.system
  have hactive : ∀ unitReleaseId, start.registry.Kept unitReleaseId := by
    intro unitReleaseId release hrelease _
    rw [hstart.artifacts release hrelease]
    exact ⟨nofun, nofun⟩
  refine ⟨.start hstart.system, ⟨?_, ?_⟩, ⟨⟨hstart.sound, ?_, fun _ _ id _ => hactive id⟩,
    hstart.catalog, hstart.environments, ?_, ?_, ?_, ?_, ?_⟩⟩
  · rw [hexecutions]
    exact List.nodup_nil
  · rw [hexecutions]
    exact fun _ hmem => absurd hmem List.not_mem_nil
  · exact fun manifest hmanifest => .inl (hstart.manifests manifest hmanifest)
  · exact fun _ _ id _ => hactive id
  · rw [hruns]
    exact fun _ hmem => absurd hmem List.not_mem_nil
  · rw [hruns]
    exact fun _ hmem => absurd hmem List.not_mem_nil
  · rw [hruns]
    exact fun _ hmem => absurd hmem List.not_mem_nil
  · intro environment hmem appReleaseId hid
    have hmanifest := hstart.current environment hmem appReleaseId hid
    obtain ⟨manifest, hmem, rfl⟩ := List.mem_map.mp hmanifest
    exact ⟨hstart.sound.manifests manifest hmem, hmanifest,
      fun other hother _ => hstart.manifests other hother⟩

/-- What a step makes of the registry: an operation hands out codes and identifiers, or releases
are only deleted. -/
inductive Registry.Becomes (text : JsonText) (sha256Hex : String → String) (registry : Registry) :
    Action → Registry → Prop
  | registered {faults input result registry'}
      (hresult : registerUnitReleaseCall text faults input registry = (result, registry')) :
      Becomes text sha256Hex registry (.registerUnitRelease faults input) registry'
  | created {faults input result registry'}
      (hresult : createApplicationReleaseCall text sha256Hex faults input registry =
        (result, registry')) :
      Becomes text sha256Hex registry (.createApplicationRelease faults input) registry'
  | other {action registry'} (hlast : registry'.lastAppReleaseId = registry.lastAppReleaseId)
      (hreleases : registry'.appReleases ⊆ registry.appReleases)
      (hcounters : registry'.versionCounters = registry.versionCounters)
      (hregister : ∀ faults input, action ≠ .registerUnitRelease faults input)
      (hcreate : ∀ faults input, action ≠ .createApplicationRelease faults input) :
      Becomes text sha256Hex registry action registry'

theorem becomes_of_step (hstep : s.step text sha256Hex digests action = some s') :
    s.registry.Becomes text sha256Hex action s'.registry := by
  have hkept {registry' : Registry} {action : Action}
      (hregister : ∀ faults input, action ≠ .registerUnitRelease faults input)
      (hcreate : ∀ faults input, action ≠ .createApplicationRelease faults input)
      (hlast : registry'.lastAppReleaseId = s.registry.lastAppReleaseId)
      (hreleases : registry'.appReleases ⊆ s.registry.appReleases)
      (hcounters : registry'.versionCounters = s.registry.versionCounters) :
      s.registry.Becomes text sha256Hex action registry' :=
    .other hlast hreleases hcounters hregister hcreate
  cases action with
  | registerUnitRelease faults input =>
      obtain rfl := Option.some.inj hstep
      cases hresult : registerUnitReleaseCall text faults input s.registry with
      | mk result registry' => exact .registered hresult
  | createApplicationRelease faults input =>
      obtain rfl := Option.some.inj hstep
      cases hresult : createApplicationReleaseCall text sha256Hex faults input s.registry with
      | mk result registry' => exact .created hresult
  | archiveApplicationRelease appId appReleaseId =>
      simp only [Platform.step] at hstep
      split at hstep
      · cases hstep
      · rename_i registry hcall
        obtain ⟨rfl, -⟩ := archive_eq_ok hcall
        obtain rfl := Option.some.inj hstep
        exact hkept nofun nofun rfl (List.Subset.refl _) rfl
  | deleteApplicationRelease appId appReleaseId =>
      simp only [Platform.step] at hstep
      split at hstep
      · cases hstep
      · rename_i registry hcall
        obtain ⟨rfl, -⟩ := delete_eq_ok hcall
        obtain rfl := Option.some.inj hstep
        exact hkept nofun nofun rfl (List.filter_subset_self _) rfl
  | cleanupArtifact unitReleaseId =>
      simp only [Platform.step] at hstep
      split at hstep
      · cases hstep
      · rename_i registry hcall
        obtain ⟨rfl, -⟩ := cleanup_eq_ok hcall
        obtain rfl := Option.some.inj hstep
        exact hkept nofun nofun rfl (List.Subset.refl _) rfl
  | deleteObject index failure =>
      simp only [Platform.step] at hstep
      split at hstep
      · obtain rfl := Option.some.inj hstep
        exact hkept nofun nofun rfl (List.Subset.refl _) rfl
      · cases hstep
  | recordDeletion index works =>
      simp only [Platform.step] at hstep
      split at hstep
      · obtain rfl := Option.some.inj hstep
        cases works <;> exact hkept nofun nofun rfl (List.Subset.refl _) rfl
      · cases hstep
  | recoverDeletingArtifacts =>
      obtain rfl := Option.some.inj hstep
      exact hkept nofun nofun rfl (List.Subset.refl _) rfl
  | recoverNext index works =>
      simp only [Platform.step] at hstep
      split at hstep
      · split at hstep
        · rename_i registry hcall
          obtain ⟨rfl, -⟩ := cleanup_eq_ok hcall
          obtain rfl := Option.some.inj hstep
          exact hkept nofun nofun rfl (List.Subset.refl _) rfl
        · obtain rfl := Option.some.inj hstep
          exact hkept nofun nofun rfl (List.Subset.refl _) rfl
      · cases hstep
  | deleteDeploymentSnapshot deploymentRunId =>
      simp only [Platform.step] at hstep
      split at hstep
      · cases hstep
      · rename_i platform hcall
        obtain rfl := Option.some.inj hstep
        unfold Platform.deleteDeploymentSnapshot at hcall
        split at hcall
        · cases hcall
        · split at hcall
          · cases hcall
          · obtain rfl := Except.ok.inj hcall
            exact hkept nofun nofun rfl (List.Subset.refl _) rfl
  | orchestrate action =>
      simp only [Platform.step] at hstep
      split at hstep
      · obtain ⟨system', -, rfl⟩ := Option.map_eq_some_iff.mp hstep
        exact hkept nofun nofun rfl (List.Subset.refl _) rfl
      · cases hstep
  | configure settings others =>
      simp only [Platform.step] at hstep
      split at hstep
      · obtain rfl := Option.some.inj hstep
        exact hkept nofun nofun rfl (List.Subset.refl _) rfl
      · cases hstep
  | restart =>
      simp only [Platform.step] at hstep
      obtain ⟨system', -, rfl⟩ := Option.map_eq_some_iff.mp hstep
      exact hkept nofun nofun rfl (List.Subset.refl _) rfl

/-- The identifier has been given to a release that does not exist any more. -/
def Platform.Removed (s : Platform) (appReleaseId : Int) : Prop :=
  appReleaseId ≤ s.registry.lastAppReleaseId ∧
    appReleaseId ∉ s.registry.appReleases.map (·.id)

/-- Identifiers are given once. -/
theorem Platform.Removed.step {appReleaseId : Int} (h : s.Removed appReleaseId)
    (hstep : s.step text sha256Hex digests action = some s') : s'.Removed appReleaseId := by
  obtain ⟨hlast, hmissing⟩ := h
  rcases becomes_of_step hstep with ⟨hresult⟩ | ⟨hresult⟩ | ⟨hsame, hreleases, -⟩
  · rcases registerUnitRelease_changes hresult with heq | ⟨release, -, -, heq, -⟩
    · exact ⟨by rw [heq]; exact hlast, by rw [heq]; exact hmissing⟩
    · exact ⟨by rw [heq]; exact hlast, by rw [heq]; exact hmissing⟩
  · rename_i result
    cases result with
    | error error =>
        have heq := createApplicationRelease_eq_error hresult
        exact ⟨by rw [heq]; exact hlast, by rw [heq]; exact hmissing⟩
    | ok result =>
        have hcreated := createApplicationRelease_eq_ok hresult
        obtain ⟨manifestJson, -, heq⟩ := hcreated.stored
        have hid := hcreated.id
        rw [Platform.Removed, heq]
        refine ⟨show appReleaseId ≤ result.appReleaseId by omega, fun hmem => ?_⟩
        obtain ⟨release, hrelease, rfl⟩ := List.mem_map.mp hmem
        rcases List.mem_append.mp hrelease with hold | hnew
        · exact hmissing (List.mem_map_of_mem hold)
        · rw [List.mem_singleton.mp hnew] at hlast
          exact absurd (show result.appReleaseId ≤ s.registry.lastAppReleaseId from hlast) (by omega)
  · exact ⟨hsame ▸ hlast, fun hmem => hmissing (List.map_subset _ hreleases hmem)⟩

/-- A release that a call has deleted. -/
theorem removed_of_delete {appId appReleaseId : Int}
    (h : Reachable (platform text sha256Hex digests) s)
    (hstep : s.step text sha256Hex digests (.deleteApplicationRelease appId appReleaseId) =
      some s') : s'.Removed appReleaseId := by
  simp only [Platform.step] at hstep
  split at hstep
  · cases hstep
  · rename_i registry hcall
    obtain ⟨rfl, -, -, hexists⟩ := delete_eq_ok hcall
    obtain rfl := Option.some.inj hstep
    obtain ⟨release, hrelease, rfl⟩ := List.mem_map.mp hexists
    refine ⟨(tracked_of_reachable h).references.guarded.releases release hrelease, fun hmem => ?_⟩
    obtain ⟨other, hother, heq⟩ := List.mem_map.mp hmem
    exact bne_iff_ne.mp (List.mem_filter.mp hother).2 heq

namespace Sample

def compactText : JsonText := ⟨fun value => .ok (String.ofList value.compact), fun _ => .error "not read"⟩

/-- One unit, whose application has one environment with one node. -/
def registry : Registry :=
  { apps := [1], units := [⟨1, 1, "api"⟩], stages := [⟨1, 1, 1⟩], stageUnits := [⟨1, 1, 1, 1⟩]
    environments := [Orchestrator.Sample.environment], targets := [⟨1, 1⟩]
    configRevisions := [⟨1, 1, "config"⟩], unitReleases := [], appReleases := []
    lastAppReleaseId := 0, manifests := [], releaseUnits := [], environmentConfigs := []
    versionCounters := [] }

/-- The platform before its first start. -/
def workshop : Platform :=
  { registry
    system :=
      { database := ⟨registry.catalog, registry.environments, [], [], [], [], [], [], []⟩
        serving := false, executions := [] }
    others := ⟨[], [], []⟩, deletedSnapshots := [], cleanups := [], recoveries := [] }

def upload (version : String) (digit : Char) : Action :=
  .registerUnitRelease (fun _ => none)
    { unitId := 1, version, packageName := "api.tgz", packagePath := "", extractDir := ""
      checksumSha256 := String.ofList (List.replicate 64 digit), sizeBytes := 1
      publishedAt := "2026-01-01T00:00:00Z", source := "web", metadata := .object []
      storage := .local }

def release (version : String) (unitReleaseId : Int) : Action :=
  .createApplicationRelease (fun _ => none)
    { appId := 1, version, baseAppReleaseId := none
      unitChanges := [⟨1, some unitReleaseId, "active"⟩], environmentConfigs := [⟨1, 1⟩]
      createdBy := "operator" }

/-- The second release is to be deployed, and the first one and its artifact go. -/
def replacement : List Action :=
  [upload "1.0.0" 'a', upload "1.1.0" 'b', release "1.0.0" 1, release "2.0.0" 2,
    .orchestrate .reconcile, .orchestrate (.createRun ⟨1, 2, .normal, "plan", "operator"⟩),
    .archiveApplicationRelease 1 1, .deleteApplicationRelease 1 1, .cleanupArtifact 1]

theorem initial_workshop : workshop.IsInitial := by
  refine ⟨⟨rfl, rfl, rfl, rfl, rfl, rfl, rfl, rfl⟩, rfl, rfl, ⟨List.nodup_nil, List.nodup_nil, ?_, ?_,
    ?_, ?_⟩, ?_, ?_, ?_, rfl, rfl, rfl⟩
  case refine_7 =>
    intro environment hmem appReleaseId hid
    rw [List.mem_singleton.mp hmem] at hid
    cases hid
  all_goals exact fun _ hmem => absurd hmem List.not_mem_nil

theorem reachable_of_workshop {actions : List Action} {s : Platform}
    (h : (platform compactText id Orchestrator.Sample.digests).exec workshop actions = some s) :
    Reachable (platform compactText id Orchestrator.Sample.digests) s :=
  .exec (.start initial_workshop) h

end Sample

/-- Nothing names an artifact that is being deleted or has been deleted. -/
theorem artifact_references_safe (h : Reachable (platform text sha256Hex digests) s)
    (release : UnitRelease) (hrelease : release ∈ s.registry.unitReleases)
    (hdoomed : release.artifactStatus = .deleting ∨ release.artifactStatus = .deleted) :
    (∀ manifest ∈ s.registry.manifests, manifest.immutableStatus ≠ .deleted →
        ∀ row ∈ s.registry.releaseUnits, row.appReleaseId = manifest.appReleaseId →
          row.unitReleaseId ≠ some release.id) ∧
      (∀ state ∈ s.system.database.runtimeStates,
        state.activeUnitReleaseId ≠ some release.id) ∧
      ∀ run ∈ s.system.database.runs, run.status.isActive = true → ∀ plan,
        run.planJson = .ok plan → ∀ item ∈ plan.items, item.unitReleaseId ≠ some release.id := by
  have hprotected := (tracked_of_reachable h).references
  have hdeleted (hkept : s.registry.Kept release.id) : False := by
    obtain ⟨hdeleting, hdeleted⟩ := hkept release hrelease rfl
    exact hdoomed.elim hdeleting hdeleted
  refine ⟨fun _ _ _ row hrow _ hid => ?_, fun state hstate hid => ?_,
    fun run hrun _ plan hplan item hitem hid => ?_⟩
  · exact hdeleted (hprotected.guarded.artifacts row hrow _ hid)
  · exact hdeleted (hprotected.states state hstate _ hid)
  · obtain ⟨row, hrow, -, hrowId⟩ := (hprotected.plans run hrun plan hplan).2 item hitem _ hid
    exact hdeleted (hprotected.guarded.artifacts row hrow _ hrowId)

/-- The artifact of a deleted release is being deleted while its successor is deployed. -/
theorem artifact_references_safe_after_replacement : ∃ s,
    Reachable (platform Sample.compactText id Orchestrator.Sample.digests) s ∧
    ∃ release ∈ s.registry.unitReleases, release.artifactStatus = .deleting ∧
    ∃ run ∈ s.system.database.runs, run.status.isActive = true ∧
    ∀ plan, run.planJson = .ok plan → ∀ item ∈ plan.items,
      item.unitReleaseId ≠ some release.id := by
  have hexec : ((platform Sample.compactText id Orchestrator.Sample.digests).exec Sample.workshop
      Sample.replacement).any (fun s =>
        (s.registry.unitReleases.any fun release => release.artifactStatus == .deleting) &&
          s.system.database.runs.any fun run => run.status.isActive) = true := by decide +kernel
  obtain ⟨s, hs, hfacts⟩ := (Option.any_eq_true _ _).mp hexec
  rw [Bool.and_eq_true, List.any_eq_true, List.any_eq_true] at hfacts
  obtain ⟨⟨release, hrelease, hdeleting⟩, run, hrun, hactive⟩ := hfacts
  have hreachable := Sample.reachable_of_workshop hs
  exact ⟨s, hreachable, release, hrelease, eq_of_beq hdeleting, run, hrun, hactive,
    (artifact_references_safe hreachable release hrelease (.inl (eq_of_beq hdeleting))).2.2 run
      hrun hactive⟩

/-- The targets of active runs and the current releases of environments are ready, and a deleted
release is never a target again. -/
theorem deployed_releases_ready (h : Reachable (platform text sha256Hex digests) s) :
    (∀ run ∈ s.system.database.runs, run.status.isActive = true →
        s.registry.IsReady run.appReleaseId) ∧
      (∀ environment ∈ s.system.database.environments, ∀ appReleaseId,
        environment.currentAppReleaseId = some appReleaseId →
          s.registry.IsReady appReleaseId) ∧
      ∀ appId appReleaseId s' s'',
        s.step text sha256Hex digests (.deleteApplicationRelease appId appReleaseId) = some s' →
        Reachable ((platform text sha256Hex digests).startingAt s') s'' →
          ∀ run ∈ s''.system.database.runs, run.appReleaseId ≠ appReleaseId := by
  have hprotected := (tracked_of_reachable h).references
  refine ⟨hprotected.active, fun environment hmem => ?_,
    fun appId appReleaseId s' s'' hstep hlater run hrun heq => ?_⟩
  · rw [hprotected.environments] at hmem
    exact hprotected.current environment hmem
  · have hremoved : s''.Removed appReleaseId := by
      refine hlater.invariant (P := (·.Removed appReleaseId)) ?_
        fun _ _ _ _ _ hremoved hstep => hremoved.step hstep
      rintro start rfl
      exact removed_of_delete h hstep
    have hafter : Reachable (platform text sha256Hex digests) s'' :=
      Reached.of_startingAt
        (.next (a := Action.deleteApplicationRelease appId appReleaseId) h trivial hstep) hlater
    have hlaterProtected := (tracked_of_reachable hafter).references
    obtain ⟨manifest, hmanifest, hsame⟩ := List.mem_map.mp (hlaterProtected.targets run hrun)
    refine hremoved.2 ?_
    rw [← heq, ← hsame]
    exact hlaterProtected.guarded.manifests manifest hmanifest

/-- The release that is being deployed is ready, and the one before it is gone. -/
theorem deployed_releases_ready_after_replacement : ∃ s,
    Reachable (platform Sample.compactText id Orchestrator.Sample.digests) s ∧
    ∃ run ∈ s.system.database.runs, run.status.isActive = true ∧
      s.registry.IsReady run.appReleaseId := by
  have hexec : ((platform Sample.compactText id Orchestrator.Sample.digests).exec Sample.workshop
      Sample.replacement).any (fun s =>
        s.system.database.runs.any fun run => run.status.isActive) = true := by decide +kernel
  obtain ⟨s, hs, hfacts⟩ := (Option.any_eq_true _ _).mp hexec
  obtain ⟨run, hrun, hactive⟩ := List.any_eq_true.mp hfacts
  have hreachable := Sample.reachable_of_workshop hs
  exact ⟨s, hreachable, run, hrun, hactive,
    (deployed_releases_ready hreachable).1 run hrun hactive⟩

end EasyDeploy.Releases
