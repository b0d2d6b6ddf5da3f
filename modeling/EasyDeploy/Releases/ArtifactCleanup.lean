import EasyDeploy.Releases.UnitReleases

/-!
# What a cleanup reports

A cleanup marks a unit release, deletes its object and records how that went. Two
cleanups of one release can both pass the first transaction, and the one whose
deletion fails records this over the other's success. A recovery stops at the
first release that cannot be cleaned up and at the first fault of the database.
-/

namespace EasyDeploy.Releases
open Foundation Foundation.Transition

variable {text : JsonText} {sha256Hex : String → String} {digests : Orchestrator.Digests}
  {s s' : Platform} {action : Action} {log : List Int}

/-- The release whose object a step deletes. -/
def Platform.objectDeleted (s : Platform) : Action → Option Int
  | .deleteObject index none => (s.cleanups[index]?).map (·.unitReleaseId)
  | _ => none

/-- The platform with the log of the objects that have been deleted. -/
def deletingPlatform (text : JsonText) (sha256Hex : String → String)
    (digests : Orchestrator.Digests) : Transition (List Int × Platform) Action :=
  (platform text sha256Hex digests).logged Platform.objectDeleted

/-- The failure of a deletion is not recorded while another cleanup of the release is under way or
after its object has been deleted, and a recovery comes to releases that can be cleaned up and
finds the database at work. -/
def RecordsTruth (state : List Int × Platform) : Action → Prop
  | .recordDeletion index true => ∀ unitReleaseId error recovery,
      state.2.cleanups[index]? = some ⟨unitReleaseId, .recording (some error), recovery⟩ →
        unitReleaseId ∉ state.1 ∧ ∀ other cleanup, state.2.cleanups[other]? = some cleanup →
          cleanup.unitReleaseId = unitReleaseId → other = index
  | .recordDeletion index false => ∀ cleanup,
      state.2.cleanups[index]? = some cleanup → cleanup.recovery = none
  | .recoverNext index works => works = true ∧ ∀ unitReleaseId rest,
      state.2.recoveries[index]? = some (unitReleaseId :: rest) →
        (state.2.artifactCleanupPreview unitReleaseId).toOption.any (·.allowed) = true
  | _ => True

/-- What each recovery has left to clean up. -/
def Platform.awaited (s : Platform) : List (List Int) :=
  s.recoveries ++ s.cleanups.filterMap (·.recovery)

/-- Where the package of a release is. -/
def UnitRelease.location (release : UnitRelease) : String × String × UnitReleaseStorage :=
  (release.packagePath, release.extractDir, release.storage)

/-- The artifact is being deleted or has been. -/
def UnitRelease.Doomed (release : UnitRelease) : Prop :=
  release.artifactStatus = .deleting ∨ release.artifactStatus = .deleted

/-- What the log and the cleanups under way say of the rows. -/
structure Reported (log : List Int) (s : Platform) : Prop where
  logged : ∀ unitReleaseId ∈ log, unitReleaseId ∈ s.registry.unitReleases.map (·.id)
  begun : ∀ cleanup ∈ s.cleanups, cleanup.unitReleaseId ∈ s.registry.unitReleases.map (·.id)
  loggedDoomed : ∀ release ∈ s.registry.unitReleases, release.id ∈ log → release.Doomed
  begunDoomed : ∀ cleanup ∈ s.cleanups, ∀ release ∈ s.registry.unitReleases,
    release.id = cleanup.unitReleaseId → release.Doomed
  deleted : ∀ release ∈ s.registry.unitReleases, release.artifactStatus = .deleted →
    release.id ∈ log
  recording : ∀ cleanup ∈ s.cleanups, cleanup.stage = .recording none →
    cleanup.unitReleaseId ∈ log

/-- A release that is chosen has not been deleted. -/
theorem cleanup_not_deleted {unitReleaseId : Int} {registry' : Registry}
    (hkeys : Keyed s.registry.unitReleases (·.id))
    (h : s.cleanupArtifact unitReleaseId = .ok registry') :
    unitReleaseId ∈ s.registry.unitReleases.map (·.id) ∧
      ∀ release ∈ s.registry.unitReleases, release.id = unitReleaseId →
        release.artifactStatus ≠ .deleted := by
  unfold Platform.cleanupArtifact at h
  split at h
  · cases h
  · rename_i preview hpreview
    split at h
    · rename_i hallowed
      unfold Platform.artifactCleanupPreview at hpreview
      split at hpreview
      · cases hpreview
      · rename_i found hfound
        obtain rfl := Except.ok.inj hpreview
        have hmem := List.mem_of_find?_eq_some hfound
        have hid : found.id = unitReleaseId := by simpa using List.find?_some hfound
        refine ⟨List.mem_map.mpr ⟨found, hmem, hid⟩, fun release hrelease heq hdeleted => ?_⟩
        obtain rfl := hkeys.eq hrelease hmem (heq.trans hid.symm)
        simp [Platform.ArtifactCleanupPreview.allowed, hdeleted] at hallowed
    · cases h

namespace Reported

/-- Rows that keep their identifiers and statuses keep what is known of them. -/
theorem rows (h : Reported log s) (hrows : s'.registry.unitReleases = s.registry.unitReleases)
    (hcleanups : ∀ cleanup ∈ s'.cleanups, cleanup ∈ s.cleanups) : Reported log s' := by
  refine ⟨?_, fun cleanup hmem => ?_, ?_, fun cleanup hmem => ?_, ?_, fun cleanup hmem => ?_⟩
  · rw [hrows]
    exact h.logged
  · rw [hrows]
    exact h.begun cleanup (hcleanups cleanup hmem)
  · rw [hrows]
    exact h.loggedDoomed
  · rw [hrows]
    exact h.begunDoomed cleanup (hcleanups cleanup hmem)
  · rw [hrows]
    exact h.deleted
  · exact h.recording cleanup (hcleanups cleanup hmem)

/-- A new row has an identifier of its own, and its artifact is there. -/
theorem register (h : Reported log s) {release : UnitRelease}
    (hnext : release.id = nextId (s.registry.unitReleases.map (·.id)))
    (hactive : release.artifactStatus = .active)
    (hrows : s'.registry.unitReleases = s.registry.unitReleases ++ [release])
    (hcleanups : s'.cleanups = s.cleanups) : Reported log s' := by
  have hfresh : release.id ∉ s.registry.unitReleases.map (·.id) := fun hmem => by
    have hlt := lt_nextId hmem
    rw [← hnext] at hlt
    exact lt_irrefl _ hlt
  have hids {unitReleaseId : Int} (hmem : unitReleaseId ∈ s.registry.unitReleases.map (·.id)) :
      unitReleaseId ∈ s'.registry.unitReleases.map (·.id) := by
    rw [hrows, List.map_append]
    exact List.mem_append_left _ hmem
  have hold {other : UnitRelease} (hother : other ∈ s'.registry.unitReleases)
      (hmem : other.id ∈ s.registry.unitReleases.map (·.id)) :
      other ∈ s.registry.unitReleases := by
    rw [hrows] at hother
    rcases List.mem_append.mp hother with hold | hnew
    · exact hold
    · rw [List.mem_singleton.mp hnew] at hmem
      exact absurd hmem hfresh
  refine ⟨fun id hid => hids (h.logged id hid), fun cleanup hmem => ?_, fun other hother hlog => ?_,
    fun cleanup hmem other hother hid => ?_, fun other hother hdeleted => ?_, ?_⟩
  · rw [hcleanups] at hmem
    exact hids (h.begun cleanup hmem)
  · exact h.loggedDoomed other (hold hother (h.logged _ hlog)) hlog
  · rw [hcleanups] at hmem
    exact h.begunDoomed cleanup hmem other (hold hother (hid ▸ h.begun cleanup hmem)) hid
  · rw [hrows] at hother
    rcases List.mem_append.mp hother with hold | hnew
    · exact h.deleted other hold hdeleted
    · rw [List.mem_singleton.mp hnew, hactive] at hdeleted
      cases hdeleted
  · rw [hcleanups]
    exact h.recording

/-- The first transaction of a cleanup. -/
theorem begins (h : Reported log s) {unitReleaseId : Int} {recovery : Option (List Int)}
    (hexists : unitReleaseId ∈ s.registry.unitReleases.map (·.id))
    (hrows : s'.registry.unitReleases = (s.registry.markDeleting unitReleaseId).unitReleases)
    (hcleanups : s'.cleanups = s.cleanups ++ [⟨unitReleaseId, .deletingObject, recovery⟩]) :
    Reported log s' := by
  have hids : s'.registry.unitReleases.map (·.id) = s.registry.unitReleases.map (·.id) := by
    rw [hrows]
    exact map_updateAt fun _ => rfl
  have hrow {P : UnitRelease → Prop}
      (hmarked : ∀ release, release.id = unitReleaseId → release.artifactStatus = .deleting →
        P release)
      (hrest : ∀ release ∈ s.registry.unitReleases, P release) :
      ∀ release ∈ s'.registry.unitReleases, P release := by
    rw [hrows]
    exact forall_updateAt (fun release _ hid _ => hmarked _ hid rfl)
      fun release hrelease _ => hrest release hrelease
  refine ⟨?_, fun cleanup hmem => ?_, ?_, fun cleanup hmem => ?_, ?_, fun cleanup hmem hstage => ?_⟩
  · rw [hids]
    exact h.logged
  · rw [hids]
    rw [hcleanups] at hmem
    rcases List.mem_append.mp hmem with hold | hnew
    · exact h.begun cleanup hold
    · rw [List.mem_singleton.mp hnew]
      exact hexists
  · exact hrow (fun _ _ hdeleting _ => .inl hdeleting) h.loggedDoomed
  · rw [hcleanups] at hmem
    rcases List.mem_append.mp hmem with hold | hnew
    · exact hrow (fun _ _ hdeleting _ => .inl hdeleting) (h.begunDoomed cleanup hold)
    · rw [List.mem_singleton.mp hnew, hrows]
      exact fun release hrelease hid =>
        holds_of_updateAt (P := UnitRelease.Doomed) hrelease (fun _ _ => .inl rfl)
          (fun _ _ _ => .inl rfl) hid
  · exact hrow (fun _ _ hdeleting hdeleted => by rw [hdeleting] at hdeleted; cases hdeleted)
      h.deleted
  · rw [hcleanups] at hmem
    rcases List.mem_append.mp hmem with hold | hnew
    · exact h.recording cleanup hold hstage
    · rw [List.mem_singleton.mp hnew] at hstage
      cases hstage

/-- The deleter of a cleanup returns. -/
theorem delete (h : Reported log s) {index : Nat} {unitReleaseId : Int} {failure : Option String}
    {recovery : Option (List Int)}
    (hindex : s.cleanups[index]? = some ⟨unitReleaseId, .deletingObject, recovery⟩)
    (hrows : s'.registry.unitReleases = s.registry.unitReleases)
    (hcleanups : s'.cleanups =
      s.cleanups.set index ⟨unitReleaseId, .recording failure, recovery⟩) :
    Reported (log ++ if failure = none then [unitReleaseId] else []) s' := by
  have hcleanup := List.mem_of_getElem? hindex
  have hmem {cleanup : Cleanup} (hmem : cleanup ∈ s'.cleanups) :
      cleanup ∈ s.cleanups ∨ cleanup = ⟨unitReleaseId, .recording failure, recovery⟩ := by
    rw [hcleanups] at hmem
    exact (List.mem_or_eq_of_mem_set hmem)
  have hlog {id : Int} (hid : id ∈ log ++ if failure = none then [unitReleaseId] else []) :
      id ∈ log ∨ id = unitReleaseId := by
    rcases List.mem_append.mp hid with hold | hnew
    · exact .inl hold
    · split at hnew
      · exact .inr (List.mem_singleton.mp hnew)
      · exact absurd hnew List.not_mem_nil
  refine ⟨fun id hid => ?_, fun cleanup hcleanup' => ?_, fun release hrelease hid => ?_,
    fun cleanup hcleanup' release hrelease hid => ?_, fun release hrelease hdeleted => ?_,
    fun cleanup hcleanup' hstage => ?_⟩
  · rw [hrows]
    rcases hlog hid with hold | rfl
    · exact h.logged id hold
    · exact h.begun _ hcleanup
  · rw [hrows]
    rcases hmem hcleanup' with hold | heq
    · exact h.begun cleanup hold
    · rw [heq]
      exact h.begun ⟨unitReleaseId, .deletingObject, recovery⟩ hcleanup
  · rw [hrows] at hrelease
    rcases hlog hid with hold | heq
    · exact h.loggedDoomed release hrelease hold
    · exact h.begunDoomed _ hcleanup release hrelease heq
  · rw [hrows] at hrelease
    rcases hmem hcleanup' with hold | heq
    · exact h.begunDoomed cleanup hold release hrelease hid
    · rw [heq] at hid
      exact h.begunDoomed _ hcleanup release hrelease hid
  · rw [hrows] at hrelease
    exact List.mem_append_left _ (h.deleted release hrelease hdeleted)
  · rcases hmem hcleanup' with hold | rfl
    · exact List.mem_append_left _ (h.recording cleanup hold hstage)
    · have hnone : failure = none := by cases hstage; rfl
      rw [if_pos hnone]
      exact List.mem_append_right _ (List.mem_singleton_self _)

/-- The second transaction of a cleanup. -/
theorem record (h : Reported log s) {index : Nat} {unitReleaseId : Int} {failure : Option String}
    {recovery : Option (List Int)}
    (hindex : s.cleanups[index]? = some ⟨unitReleaseId, .recording failure, recovery⟩)
    (hpermitted : RecordsTruth (log, s) (.recordDeletion index true))
    (hrows : s'.registry.unitReleases =
      (s.registry.recordDeletion unitReleaseId failure).unitReleases)
    (hcleanups : s'.cleanups = s.cleanups.eraseIdx index) : Reported log s' := by
  have hids : s'.registry.unitReleases.map (·.id) = s.registry.unitReleases.map (·.id) := by
    rw [hrows]
    refine map_updateAt fun release => ?_
    cases failure <;> rfl
  have hrest {cleanup : Cleanup} (hmem : cleanup ∈ s'.cleanups) : ∃ other, other ≠ index ∧
      s.cleanups[other]? = some cleanup := by
    rw [hcleanups] at hmem
    exact List.mem_eraseIdx_iff_getElem?.mp hmem
  have hold {cleanup : Cleanup} (hmem : cleanup ∈ s'.cleanups) : cleanup ∈ s.cleanups := by
    obtain ⟨other, -, hother⟩ := hrest hmem
    exact List.mem_of_getElem? hother
  -- A row is as it was, or it was being deleted and how that went is recorded.
  have hrow {release' : UnitRelease} (hmem : release' ∈ s'.registry.unitReleases) :
      release' ∈ s.registry.unitReleases ∨ release'.id = unitReleaseId ∧
        release'.artifactStatus = if failure = none then .deleted else .deleteFailed := by
    rw [hrows] at hmem
    obtain ⟨release, hrelease, rfl⟩ := mem_updateAt.mp hmem
    split
    · rename_i hwanted
      refine .inr ?_
      cases failure <;> exact ⟨hwanted.1, rfl⟩
    · exact .inl hrelease
  refine ⟨?_, fun cleanup hmem => ?_, fun release hmem hid => ?_,
    fun cleanup hcleanup release hmem hid => ?_, fun release hmem hdeleted => ?_,
    fun cleanup hmem => h.recording cleanup (hold hmem)⟩
  · rw [hids]
    exact h.logged
  · rw [hids]
    exact h.begun cleanup (hold hmem)
  · rcases hrow hmem with hrelease | ⟨heq, hstatus⟩
    · exact h.loggedDoomed release hrelease hid
    · cases failure with
      | none => exact .inr hstatus
      | some error => exact absurd (heq ▸ hid) (hpermitted unitReleaseId error recovery hindex).1
  · rcases hrow hmem with hrelease | ⟨heq, hstatus⟩
    · exact h.begunDoomed cleanup (hold hcleanup) release hrelease hid
    · cases failure with
      | none => exact .inr hstatus
      | some error =>
          obtain ⟨other, hne, hother⟩ := hrest hcleanup
          exact absurd ((hpermitted unitReleaseId error recovery hindex).2 other cleanup hother
            (hid.symm.trans heq)) hne
  · rcases hrow hmem with hrelease | ⟨heq, hstatus⟩
    · exact h.deleted release hrelease hdeleted
    · cases failure with
      | none =>
          rw [heq]
          exact h.recording _ (List.mem_of_getElem? hindex) rfl
      | some error =>
          rw [hstatus] at hdeleted
          cases hdeleted

theorem step (h : Reported log s) (hkeys : Keyed s.registry.unitReleases (·.id))
    (hpermitted : RecordsTruth (log, s) action)
    (hstep : s.step text sha256Hex digests action = some s') :
    Reported (log ++ (s.objectDeleted action).toList) s' := by
  have hlog (hdelete : ∀ index failure, action ≠ .deleteObject index failure)
      (h : Reported log s') : Reported (log ++ (s.objectDeleted action).toList) s' := by
    have hnone : s.objectDeleted action = none := by
      cases action with
      | deleteObject index failure => exact absurd rfl (hdelete index failure)
      | _ => rfl
    rw [hnone, Option.toList_none, List.append_nil]
    exact h
  cases cleaning_of_step hstep with
  | @registered faults input hcall hcleanups =>
      refine hlog (fun _ _ heq => by cases heq) ?_
      cases hresult : registerUnitReleaseCall text faults input s.registry with
      | mk result registry' =>
          rw [hresult] at hcall
          have hregistry : s'.registry = registry' := hcall
          rcases registerUnitRelease_changes hresult with heq | ⟨release, hnext, hactive, heq, -⟩
          · refine h.rows ?_ fun cleanup hmem => hcleanups ▸ hmem
            rw [hregistry, heq]
          · refine h.register hnext hactive ?_ hcleanups
            rw [hregistry, heq]
  | begun hcall hrows hcleanups hother =>
      exact hlog hother (h.begins (cleanup_not_deleted hkeys hcall).1 hrows hcleanups)
  | @deleted index failure unitReleaseId recovery hindex hrows hcleanups =>
      have hdeleted := h.delete hindex hrows hcleanups
      cases failure with
      | none =>
          rw [Platform.objectDeleted, hindex]
          exact hdeleted
      | some error =>
          rw [if_neg (Option.some_ne_none error)] at hdeleted
          exact hdeleted
  | recorded hindex hrows hcleanups =>
      exact hlog (fun _ _ heq => by cases heq) (h.record hindex hpermitted hrows hcleanups)
  | other hrows hcleanups hregister hdelete hrecord =>
      exact hlog hdelete (h.rows hrows fun cleanup hmem => hcleanups.subset hmem)

end Reported

theorem reported_of_reached
    (h : (deletingPlatform text sha256Hex digests).Reached RecordsTruth (log, s)) :
    Reported log s ∧ Keyed s.registry.unitReleases (·.id) := by
  have hpair : Reported log s ∧ Reachable (platform text sha256Hex digests) s := by
    refine h.invariant (P := fun state : List Int × Platform =>
      Reported state.1 state.2 ∧ Reachable (platform text sha256Hex digests) state.2) ?_ ?_
    · rintro ⟨log, start⟩ ⟨hlog, hstart⟩
      obtain rfl : log = [] := hlog
      refine ⟨⟨?_, ?_, ?_, ?_, fun release hrelease hdeleted => ?_, ?_⟩, .start hstart⟩
      · exact fun _ hmem => absurd hmem List.not_mem_nil
      · rw [hstart.cleanups]
        exact fun _ hmem => absurd hmem List.not_mem_nil
      · exact fun _ _ hmem => absurd hmem List.not_mem_nil
      · rw [hstart.cleanups]
        exact fun _ hmem => absurd hmem List.not_mem_nil
      · rw [hstart.artifacts release hrelease] at hdeleted
        cases hdeleted
      · rw [hstart.cleanups]
        exact fun _ hmem => absurd hmem List.not_mem_nil
    · rintro ⟨log, before⟩ action ⟨log', after⟩ - hpermitted ⟨hreported, hreachable⟩ hlogged
      obtain ⟨hstep, rfl⟩ := step_logged_eq_some.mp hlogged
      have hkeys := (tracked_of_reachable hreachable).references.guarded.unitReleaseKeys
      exact ⟨hreported.step hkeys hpermitted hstep, .next hreachable trivial hstep⟩
  exact ⟨hpair.1, (tracked_of_reachable hpair.2).references.guarded.unitReleaseKeys⟩

/-- The rows behind a recorded deletion. -/
theorem status_of_record {index : Nat} {unitReleaseId : Int} {failure : Option String}
    {recovery : Option (List Int)} (h : Reported log s)
    (hindex : s.cleanups[index]? = some ⟨unitReleaseId, .recording failure, recovery⟩)
    (hstep : s.step text sha256Hex digests (.recordDeletion index true) = some s') :
    ∀ release ∈ s'.registry.unitReleases, release.id = unitReleaseId →
      release.artifactStatus = .deleted ∨
        failure ≠ none ∧ release.artifactStatus = .deleteFailed := by
  have hdoomed := h.begunDoomed _ (List.mem_of_getElem? hindex)
  simp only [Platform.step, hindex, if_true] at hstep
  obtain rfl := Option.some.inj hstep
  intro release' hmem hid
  obtain ⟨release, hrelease, rfl⟩ := mem_updateAt.mp hmem
  split at hid
  · rename_i hwanted
    rw [if_pos hwanted]
    cases failure with
    | none => exact .inl rfl
    | some error => exact .inr ⟨Option.some_ne_none error, rfl⟩
  · rename_i hwanted
    rw [if_neg hwanted]
    rcases hdoomed release hrelease hid with hdeleting | hdeleted
    · exact absurd ⟨hid, by rw [hdeleting]; rfl⟩ hwanted
    · exact .inl hdeleted

/-- A row with an identifier that has been given out was there before a registration. -/
theorem mem_of_register {input : RegisterUnitReleaseInput}
    {faults : ReleaseStatement → Option String}
    (hcall : s'.registry = (registerUnitReleaseCall text faults input s.registry).2)
    {release release' : UnitRelease} (hrelease : release ∈ s.registry.unitReleases)
    (hrelease' : release' ∈ s'.registry.unitReleases) (hid : release'.id = release.id) :
    release' ∈ s.registry.unitReleases := by
  cases hresult : registerUnitReleaseCall text faults input s.registry with
  | mk result registry' =>
      rw [hresult] at hcall
      have hregistry : s'.registry = registry' := hcall
      rcases registerUnitRelease_changes hresult with heq | ⟨added, hnext, -, heq, -⟩
      · rw [hregistry, heq] at hrelease'
        exact hrelease'
      · rw [hregistry, heq] at hrelease'
        rcases List.mem_append.mp hrelease' with hold | hnew
        · exact hold
        · rw [List.mem_singleton.mp hnew, hnext] at hid
          have hlt := lt_nextId (List.mem_map_of_mem (f := (·.id)) hrelease)
          rw [hid] at hlt
          exact absurd hlt (lt_irrefl _)

/-- A release that has been deleted stays deleted. -/
theorem deleted_of_step (hkeys : Keyed s.registry.unitReleases (·.id))
    (hstep : s.step text sha256Hex digests action = some s') {release : UnitRelease}
    (hrelease : release ∈ s.registry.unitReleases) (hdeleted : release.artifactStatus = .deleted)
    {release' : UnitRelease} (hrelease' : release' ∈ s'.registry.unitReleases)
    (hid : release'.id = release.id) : release'.artifactStatus = .deleted := by
  have hsame (hmem : release' ∈ s.registry.unitReleases) : release'.artifactStatus = .deleted := by
    rw [hkeys.eq hmem hrelease hid]
    exact hdeleted
  cases cleaning_of_step hstep with
  | @registered faults input hcall hcleanups =>
      exact hsame (mem_of_register hcall hrelease hrelease' hid)
  | @begun action unitReleaseId recovery registry hcall hrows hcleanups hother =>
      have hne : release.id ≠ unitReleaseId := fun heq =>
        (cleanup_not_deleted hkeys hcall).2 release hrelease heq hdeleted
      rw [hrows] at hrelease'
      exact hsame (mem_of_updateAt hrelease' (fun _ => rfl) (hid ▸ hne))
  | deleted hindex hrows hcleanups => exact hsame (hrows ▸ hrelease')
  | @recorded index unitReleaseId failure recovery hindex hrows hcleanups =>
      rw [hrows] at hrelease'
      obtain ⟨old, hold, heq⟩ := mem_updateAt.mp hrelease'
      have hsameId : old.id = release'.id := by
        rw [← heq]
        split
        · cases failure <;> rfl
        · rfl
      obtain rfl := hkeys.eq hold hrelease (hsameId.trans hid)
      rw [if_neg fun hwanted => by rw [hdeleted] at hwanted; cases hwanted.2] at heq
      rw [← heq]
      exact hdeleted
  | other hrows hcleanups hregister hdelete hrecord => exact hsame (hrows ▸ hrelease')

/-- A release whose object has not been deleted keeps its location. -/
theorem location_of_step (h : Reported log s) (hkeys : Keyed s.registry.unitReleases (·.id))
    (hstep : s.step text sha256Hex digests action = some s') {release : UnitRelease}
    (hrelease : release ∈ s.registry.unitReleases) (hlog : release.id ∉ log)
    {release' : UnitRelease} (hrelease' : release' ∈ s'.registry.unitReleases)
    (hid : release'.id = release.id) : release'.location = release.location := by
  have hsame (hmem : release' ∈ s.registry.unitReleases) :
      release'.location = release.location := by
    rw [hkeys.eq hmem hrelease hid]
  -- An update of rows with the key that leaves locations alone.
  have hupdate {target : Int} {guard : UnitRelease → Bool} {change : UnitRelease → UnitRelease}
      (hrows : s'.registry.unitReleases =
        updateAt s.registry.unitReleases (·.id) target guard change)
      (hchange : ∀ old, (change old).id = old.id)
      (hkept : ∀ old, old.id = target → old.id = release.id →
        (change old).location = old.location) : release'.location = release.location := by
    rw [hrows] at hrelease'
    obtain ⟨old, hold, rfl⟩ := mem_updateAt.mp hrelease'
    split at hid
    · rename_i hwanted
      rw [if_pos hwanted]
      obtain rfl := hkeys.eq hold hrelease ((hchange old).symm.trans hid)
      exact hkept old hwanted.1 rfl
    · rename_i hwanted
      rw [if_neg hwanted, hkeys.eq hold hrelease hid]
  cases cleaning_of_step hstep with
  | @registered faults input hcall hcleanups =>
      exact hsame (mem_of_register hcall hrelease hrelease' hid)
  | begun hcall hrows hcleanups hother =>
      exact hupdate hrows (fun _ => rfl) fun _ _ _ => rfl
  | deleted hindex hrows hcleanups => exact hsame (hrows ▸ hrelease')
  | @recorded index unitReleaseId failure recovery hindex hrows hcleanups =>
      refine hupdate hrows (fun old => by cases failure <;> rfl) fun old htarget hold => ?_
      cases failure with
      | none =>
          have hrecorded : unitReleaseId ∈ log :=
            h.recording _ (List.mem_of_getElem? hindex) rfl
          rw [← htarget, hold] at hrecorded
          exact absurd hrecorded hlog
      | some error => rfl
  | other hrows hcleanups hregister hdelete hrecord => exact hsame (hrows ▸ hrelease')

/-- What cleanups and recoveries report and leave is what has happened to the objects. -/
structure CleanupTruth (text : JsonText) (sha256Hex : String → String)
    (digests : Orchestrator.Digests) (log : List Int) (s : Platform) : Prop where
  /-- A release whose object has been deleted is on its way to `deleted` or has come there. -/
  deletedObject : ∀ release ∈ s.registry.unitReleases, release.id ∈ log → release.Doomed
  /-- A call returns `deleted`. -/
  reportsDeleted : ∀ index unitReleaseId recovery s',
    s.cleanups[index]? = some ⟨unitReleaseId, .recording none, recovery⟩ →
    s.step text sha256Hex digests (.recordDeletion index true) = some s' →
      ∀ release ∈ s'.registry.unitReleases, release.id = unitReleaseId →
        release.artifactStatus = .deleted
  /-- A call returns `delete_failed`. -/
  reportsFailed : ∀ index unitReleaseId error recovery s',
    s.cleanups[index]? = some ⟨unitReleaseId, .recording (some error), recovery⟩ →
    RecordsTruth (log, s) (.recordDeletion index true) →
    s.step text sha256Hex digests (.recordDeletion index true) = some s' →
      ∀ release ∈ s'.registry.unitReleases, release.id = unitReleaseId →
        release.artifactStatus ≠ .deleted
  /-- A deleted release stays deleted. -/
  staysDeleted : ∀ action s', s.step text sha256Hex digests action = some s' →
    ∀ release ∈ s.registry.unitReleases, release.artifactStatus = .deleted →
    ∀ release' ∈ s'.registry.unitReleases, release'.id = release.id →
      release'.artifactStatus = .deleted
  /-- The location of a release whose object has not been deleted stays. -/
  keepsLocation : ∀ action s', s.step text sha256Hex digests action = some s' →
    ∀ release ∈ s.registry.unitReleases, release.id ∉ log →
    ∀ release' ∈ s'.registry.unitReleases, release'.id = release.id →
      release'.location = release.location
  /-- A recovery takes up all releases that are being deleted. -/
  recoversAll : ∀ s', s.step text sha256Hex digests .recoverDeletingArtifacts = some s' →
    ∃ ids, s'.recoveries = s.recoveries ++ [ids] ∧
      ∀ release ∈ s.registry.unitReleases, release.artifactStatus = .deleting → release.id ∈ ids
  /-- It cleans up the next one and has the rest left. -/
  recoversNext : ∀ index unitReleaseId rest works s',
    s.recoveries[index]? = some (unitReleaseId :: rest) →
    RecordsTruth (log, s) (.recoverNext index works) →
    s.step text sha256Hex digests (.recoverNext index works) = some s' →
      s'.cleanups = s.cleanups ++ [⟨unitReleaseId, .deletingObject, some rest⟩]
  /-- However that ends, it goes on with the rest. -/
  recoversOn : ∀ index unitReleaseId failure rest works s',
    s.cleanups[index]? = some ⟨unitReleaseId, .recording failure, some rest⟩ →
    RecordsTruth (log, s) (.recordDeletion index works) →
    s.step text sha256Hex digests (.recordDeletion index works) = some s' →
      rest ∈ s'.recoveries
  /-- Until the process stops, what a recovery has left is lost by no other step. -/
  awaits : ∀ action s', RecordsTruth (log, s) action →
    s.step text sha256Hex digests action = some s' → action ≠ .restart →
      ∀ ids ∈ s.awaited, ids ∈ s'.awaited ∨ ∃ unitReleaseId rest,
        ids = unitReleaseId :: rest ∧ ⟨unitReleaseId, .deletingObject, some rest⟩ ∈ s'.cleanups

/-- A cleanup goes through when the preview allows it. -/
theorem cleanup_of_allowed {unitReleaseId : Int}
    (h : (s.artifactCleanupPreview unitReleaseId).toOption.any (·.allowed) = true) :
    s.cleanupArtifact unitReleaseId = .ok (s.registry.markDeleting unitReleaseId) := by
  unfold Platform.cleanupArtifact
  cases hpreview : s.artifactCleanupPreview unitReleaseId with
  | error error =>
      rw [hpreview] at h
      cases h
  | ok preview =>
      rw [hpreview] at h
      exact if_pos h

/-- What is left to clean up stays while the rows of recoveries and cleanups do. -/
theorem awaited_subset (hrecoveries : s.recoveries ⊆ s'.recoveries)
    (hcleanups : s.cleanups.filterMap (·.recovery) ⊆ s'.cleanups.filterMap (·.recovery)) :
    s.awaited ⊆ s'.awaited := by
  intro ids hids
  rcases List.mem_append.mp hids with hrecovery | hcleanup
  · exact List.mem_append_left _ (hrecoveries hrecovery)
  · exact List.mem_append_right _ (hcleanups hcleanup)

theorem awaited_commit {α ε : Type} (s : Platform) (result : Except ε α × Registry) :
    (s.commit result).awaited = s.awaited := rfl

/-- A cleanup whose object has been deleted still has its recovery. -/
theorem awaited_deleteObject {index : Nat} {failure : Option String}
    (hstep : s.step text sha256Hex digests (.deleteObject index failure) = some s') :
    s.awaited ⊆ s'.awaited := by
  simp only [Platform.step] at hstep
  split at hstep
  · rename_i unitReleaseId recovery hindex
    obtain rfl := Option.some.inj hstep
    refine awaited_subset (List.Subset.refl _) fun ids hids => ?_
    obtain ⟨cleanup, hcleanup, hrecovery⟩ := List.mem_filterMap.mp hids
    obtain ⟨other, hother⟩ := List.mem_iff_getElem?.mp hcleanup
    by_cases hsame : index = other
    · subst hsame
      obtain rfl := Option.some.inj (hother.symm.trans hindex)
      exact List.mem_filterMap.mpr ⟨_, List.mem_of_getElem?
        (List.getElem?_set_self (List.getElem?_eq_some_iff.mp hindex).1), hrecovery⟩
    · refine List.mem_filterMap.mpr ⟨cleanup, List.mem_of_getElem? (i := other) ?_, hrecovery⟩
      rw [List.getElem?_set_ne hsame]
      exact hother
  · cases hstep

/-- A recovery goes on when its cleanup has been recorded. -/
theorem awaited_recordDeletion {index : Nat} {works : Bool}
    (hpermitted : RecordsTruth (log, s) (.recordDeletion index works))
    (hstep : s.step text sha256Hex digests (.recordDeletion index works) = some s') :
    s.awaited ⊆ s'.awaited := by
  simp only [Platform.step] at hstep
  split at hstep
  · rename_i unitReleaseId failure recovery hindex
    obtain rfl := Option.some.inj hstep
    intro ids hids
    rcases List.mem_append.mp hids with hrecovery | hcleanup
    · exact List.mem_append_left _ (List.mem_append_left _ hrecovery)
    · obtain ⟨cleanup, hmem, hrecovery⟩ := List.mem_filterMap.mp hcleanup
      obtain ⟨other, hother⟩ := List.mem_iff_getElem?.mp hmem
      by_cases hsame : other = index
      · -- The recovery that has waited for this cleanup goes on.
        subst hsame
        obtain rfl := Option.some.inj (hother.symm.trans hindex)
        obtain rfl : recovery = some ids := hrecovery
        cases works with
        | false => cases hpermitted _ hindex
        | true =>
            exact List.mem_append_left _
              (List.mem_append_right _ (List.mem_singleton_self ids))
      · exact List.mem_append_right _ (List.mem_filterMap.mpr
          ⟨cleanup, List.mem_eraseIdx_iff_getElem?.mpr ⟨other, hsame, hother⟩, hrecovery⟩)
  · cases hstep

/-- A recovery begins to clean up the next release. -/
theorem awaited_recoverNext {index : Nat} {works : Bool}
    (hpermitted : RecordsTruth (log, s) (.recoverNext index works))
    (hstep : s.step text sha256Hex digests (.recoverNext index works) = some s') :
    ∀ ids ∈ s.awaited, ids ∈ s'.awaited ∨ ∃ unitReleaseId rest,
      ids = unitReleaseId :: rest ∧
        ⟨unitReleaseId, .deletingObject, some rest⟩ ∈ s'.cleanups := by
  obtain ⟨rfl, hallowed⟩ := hpermitted
  cases hindex : s.recoveries[index]? with
  | none =>
      simp only [Platform.step, hindex] at hstep
      cases hstep
  | some pending =>
      cases pending with
      | nil =>
          simp only [Platform.step, hindex] at hstep
          cases hstep
      | cons unitReleaseId rest =>
          have hcall := cleanup_of_allowed (hallowed unitReleaseId rest hindex)
          simp only [Platform.step, hindex, hcall] at hstep
          obtain rfl := Option.some.inj hstep
          intro ids hids
          rcases List.mem_append.mp hids with hrecovery | hcleanup
          · obtain ⟨other, hother⟩ := List.mem_iff_getElem?.mp hrecovery
            by_cases hsame : other = index
            · subst hsame
              refine .inr ⟨unitReleaseId, rest, ?_, ?_⟩
              · exact Option.some.inj (hother.symm.trans hindex)
              · exact List.mem_append_right _ (List.mem_singleton_self _)
            · exact .inl (List.mem_append_left _
                (List.mem_eraseIdx_iff_getElem?.mpr ⟨other, hsame, hother⟩))
          · refine .inl (List.mem_append_right _ ?_)
            rw [List.filterMap_append]
            exact List.mem_append_left _ hcleanup

/-- A recovery loses nothing but what it begins to clean up. -/
theorem awaited_of_step (hpermitted : RecordsTruth (log, s) action)
    (hstep : s.step text sha256Hex digests action = some s') (hrestart : action ≠ .restart) :
    ∀ ids ∈ s.awaited, ids ∈ s'.awaited ∨ ∃ unitReleaseId rest,
      ids = unitReleaseId :: rest ∧
        ⟨unitReleaseId, .deletingObject, some rest⟩ ∈ s'.cleanups := by
  -- What only adds to the recoveries and cleanups.
  have hmore (hrecoveries : s.recoveries ⊆ s'.recoveries)
      (hcleanups : s.cleanups.filterMap (·.recovery) ⊆ s'.cleanups.filterMap (·.recovery)) :
      ∀ ids ∈ s.awaited, ids ∈ s'.awaited ∨ ∃ unitReleaseId rest,
        ids = unitReleaseId :: rest ∧
          ⟨unitReleaseId, .deletingObject, some rest⟩ ∈ s'.cleanups :=
    fun ids hids => .inl (awaited_subset hrecoveries hcleanups hids)
  cases action with
  | registerUnitRelease faults input =>
      obtain rfl := Option.some.inj hstep
      rw [awaited_commit]
      exact fun ids hids => .inl hids
  | createApplicationRelease faults input =>
      obtain rfl := Option.some.inj hstep
      rw [awaited_commit]
      exact fun ids hids => .inl hids
  | archiveApplicationRelease appId appReleaseId =>
      simp only [Platform.step] at hstep
      split at hstep
      · cases hstep
      · obtain rfl := Option.some.inj hstep
        exact hmore (List.Subset.refl _) (List.Subset.refl _)
  | deleteApplicationRelease appId appReleaseId =>
      simp only [Platform.step] at hstep
      split at hstep
      · cases hstep
      · obtain rfl := Option.some.inj hstep
        exact hmore (List.Subset.refl _) (List.Subset.refl _)
  | cleanupArtifact unitReleaseId =>
      simp only [Platform.step] at hstep
      split at hstep
      · cases hstep
      · obtain rfl := Option.some.inj hstep
        refine hmore (List.Subset.refl _) ?_
        rw [List.filterMap_append]
        exact List.subset_append_left _ _
  | deleteObject index failure => exact fun ids hids => .inl (awaited_deleteObject hstep hids)
  | recordDeletion index works =>
      exact fun ids hids => .inl (awaited_recordDeletion hpermitted hstep hids)
  | recoverDeletingArtifacts =>
      obtain rfl := Option.some.inj hstep
      exact hmore (List.subset_append_left _ _) (List.Subset.refl _)
  | recoverNext index works => exact awaited_recoverNext hpermitted hstep
  | deleteDeploymentSnapshot deploymentRunId =>
      simp only [Platform.step] at hstep
      split at hstep
      · cases hstep
      · rename_i platform hcall
        obtain rfl := Option.some.inj hstep
        unfold Platform.deleteDeploymentSnapshot at hcall
        split at hcall
        · cases hcall
        · split at hcall
          · cases hcall
          · obtain rfl := Except.ok.inj hcall
            exact hmore (List.Subset.refl _) (List.Subset.refl _)
  | orchestrate action =>
      simp only [Platform.step] at hstep
      split at hstep
      · obtain ⟨system', -, rfl⟩ := Option.map_eq_some_iff.mp hstep
        exact hmore (List.Subset.refl _) (List.Subset.refl _)
      · cases hstep
  | configure settings others =>
      simp only [Platform.step] at hstep
      split at hstep
      · obtain rfl := Option.some.inj hstep
        exact hmore (List.Subset.refl _) (List.Subset.refl _)
      · cases hstep
  | restart => exact absurd rfl hrestart

/-- Cleanups report the truth in every run that records failures of deletions as they are and whose
recoveries are not stopped. -/
theorem cleanup_reports_truth
    (h : (deletingPlatform text sha256Hex digests).Reached RecordsTruth (log, s)) :
    CleanupTruth text sha256Hex digests log s := by
  obtain ⟨hreported, hkeys⟩ := reported_of_reached h
  refine ⟨hreported.loggedDoomed, ?_, ?_, ?_, ?_, ?_, ?_, ?_, ?_⟩
  · intro index unitReleaseId recovery s' hindex hstep release hrelease hid
    exact (status_of_record hreported hindex hstep release hrelease hid).resolve_right
      fun hfailed => hfailed.1 rfl
  · intro index unitReleaseId error recovery s' hindex hpermitted hstep release hrelease hid
      hdeleted
    have hafter : Reported log s' := by
      have hnext := hreported.step hkeys hpermitted hstep
      have hnone : s.objectDeleted (.recordDeletion index true) = none := rfl
      rw [hnone, Option.toList_none, List.append_nil] at hnext
      exact hnext
    have hlogged := hafter.deleted release hrelease hdeleted
    rw [hid] at hlogged
    exact (hpermitted unitReleaseId error recovery hindex).1 hlogged
  · intro action s' hstep release hrelease hdeleted release' hrelease' hid
    exact deleted_of_step hkeys hstep hrelease hdeleted hrelease' hid
  · intro action s' hstep release hrelease hlog release' hrelease' hid
    exact location_of_step hreported hkeys hstep hrelease hlog hrelease' hid
  · intro s' hstep
    obtain rfl := Option.some.inj hstep
    refine ⟨_, rfl, fun release hrelease hdeleting => ?_⟩
    rw [mem_sortBy, List.mem_map]
    exact ⟨release, List.mem_filter.mpr ⟨hrelease, beq_iff_eq.mpr hdeleting⟩, rfl⟩
  · intro index unitReleaseId rest works s' hindex hpermitted hstep
    obtain ⟨rfl, hallowed⟩ := hpermitted
    have hcall := cleanup_of_allowed (hallowed unitReleaseId rest hindex)
    simp only [Platform.step, hindex, hcall] at hstep
    obtain rfl := Option.some.inj hstep
    rfl
  · intro index unitReleaseId failure rest works s' hindex hpermitted hstep
    cases works with
    | false => cases hpermitted _ hindex
    | true =>
        simp only [Platform.step, hindex, if_true] at hstep
        obtain rfl := Option.some.inj hstep
        exact List.mem_append_right _ (List.mem_singleton_self rest)
  · intro action s' hpermitted hstep hrestart
    exact awaited_of_step hpermitted hstep hrestart

namespace Sample

/-- A cleanup whose deletion fails, a restart during two others, and a recovery that goes on to the
second release although the object of the first one cannot be deleted. -/
def retriedCleanup : List Action :=
  [upload "1.0.0" 'a', upload "1.1.0" 'b', .cleanupArtifact 1, .deleteObject 0 (some "timeout"),
    .recordDeletion 0 true, .cleanupArtifact 1, .cleanupArtifact 2, .restart,
    .recoverDeletingArtifacts, .recoverNext 0 true, .deleteObject 0 (some "timeout"),
    .recordDeletion 0 true, .recoverNext 0 true, .deleteObject 0 none]

/-- Two cleanups that overlap. -/
def overlappingCleanups : List Action :=
  [upload "1.0.0" 'a', .cleanupArtifact 1, .cleanupArtifact 1,
    .deleteObject 0 (some "timeout"), .deleteObject 1 none, .recordDeletion 0 true]

/-- One cleanup is recorded at a time and before an object has been deleted, and a recovery comes to
releases that can be cleaned up. -/
def oneAtATime (state : List Int × Platform) : Action → Bool
  | .recordDeletion _ works =>
      works && state.1.isEmpty && decide (state.2.cleanups.length ≤ 1)
  | .recoverNext index works => works && (state.2.recoveries[index]?).all fun ids =>
      ids.all fun unitReleaseId =>
        (state.2.artifactCleanupPreview unitReleaseId).toOption.any (·.allowed)
  | _ => true

theorem recordsTruth_of_oneAtATime (state : List Int × Platform) (action : Action)
    (h : oneAtATime state action = true) : RecordsTruth state action := by
  cases action with
  | recordDeletion index works =>
      cases works with
      | false => cases h
      | true =>
          rw [oneAtATime, Bool.true_and, Bool.and_eq_true, List.isEmpty_iff,
            decide_eq_true_iff] at h
          obtain ⟨hlog, hlength⟩ := h
          intro unitReleaseId error recovery hindex
          refine ⟨by rw [hlog]; exact List.not_mem_nil, fun other cleanup hother _ => ?_⟩
          obtain ⟨hlt, -⟩ := List.getElem?_eq_some_iff.mp hindex
          obtain ⟨hltOther, -⟩ := List.getElem?_eq_some_iff.mp hother
          omega
  | recoverNext index works =>
      rw [oneAtATime, Bool.and_eq_true] at h
      refine ⟨h.1, fun unitReleaseId rest hindex => ?_⟩
      have hall := h.2
      rw [hindex, Option.all_some, List.all_cons, Bool.and_eq_true] at hall
      exact hall.1
  | _ => exact trivial

end Sample

/-- The deletion of an artifact fails and is tried again. -/
theorem cleanup_reports_truth_retried : ∃ log s,
    (deletingPlatform Sample.compactText id Orchestrator.Sample.digests).Reached RecordsTruth
      (log, s) ∧ log = [2] ∧
    CleanupTruth Sample.compactText id Orchestrator.Sample.digests log s := by
  have hexec : (((deletingPlatform Sample.compactText id Orchestrator.Sample.digests).restrict
      Sample.oneAtATime).exec ([], Sample.workshop) Sample.retriedCleanup).any (fun state =>
        state.1 == [2]) = true := by decide
  obtain ⟨⟨log, s⟩, hs, hlog⟩ := (Option.any_eq_true _ _).mp hexec
  have hstart : Reachable ((deletingPlatform Sample.compactText id
      Orchestrator.Sample.digests).restrict Sample.oneAtATime) ([], Sample.workshop) :=
    .start ⟨rfl, Sample.initial_workshop⟩
  have hreached :=
    (Reached.of_restrict (hstart.exec hs)).mono Sample.recordsTruth_of_oneAtATime
  exact ⟨log, s, hreached, beq_iff_eq.mp hlog, cleanup_reports_truth hreached⟩

/-- A cleanup reports that the release is deleted, which has been recorded as failed. -/
theorem overlapping_cleanups_misreport : ¬ ∀ log s,
    (deletingPlatform Sample.compactText id Orchestrator.Sample.digests).Reachable (log, s) →
      ∀ index unitReleaseId recovery s',
        s.cleanups[index]? = some ⟨unitReleaseId, .recording none, recovery⟩ →
        s.step Sample.compactText id Orchestrator.Sample.digests (.recordDeletion index true) =
          some s' → ∀ release ∈ s'.registry.unitReleases, release.id = unitReleaseId →
            release.artifactStatus = .deleted := by
  intro h
  have hexec : ((deletingPlatform Sample.compactText id Orchestrator.Sample.digests).exec
      ([], Sample.workshop) Sample.overlappingCleanups).any (fun state =>
        state.2.cleanups == [⟨1, .recording none, none⟩] &&
          (state.2.step Sample.compactText id Orchestrator.Sample.digests
            (.recordDeletion 0 true)).any fun s' => s'.registry.unitReleases.any fun release =>
              release.id == 1 && release.artifactStatus == .deleteFailed) = true := by
    decide
  obtain ⟨⟨log, s⟩, hs, hfacts⟩ := (Option.any_eq_true _ _).mp hexec
  rw [Bool.and_eq_true, beq_iff_eq] at hfacts
  obtain ⟨hcleanups, hany⟩ := hfacts
  obtain ⟨s', hstep, hrows⟩ := (Option.any_eq_true _ _).mp hany
  obtain ⟨release, hrelease, hrow⟩ := List.any_eq_true.mp hrows
  rw [Bool.and_eq_true, beq_iff_eq, beq_iff_eq] at hrow
  have hreachable : (deletingPlatform Sample.compactText id
      Orchestrator.Sample.digests).Reachable (log, s) :=
    .exec (s := ([], Sample.workshop)) (.start ⟨rfl, Sample.initial_workshop⟩) hs
  have hdeleted := h log s hreachable 0 1 none s' (by rw [hcleanups]; rfl) hstep release hrelease hrow.1
  rw [hrow.2] at hdeleted
  cases hdeleted

end EasyDeploy.Releases
