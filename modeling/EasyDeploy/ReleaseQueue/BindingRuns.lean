import EasyDeploy.ReleaseQueue.Bindings

/-!
# Bindings over runs

What each statement does to the keys and to the bindings, and from it that the
operations keep releases bound when a release is scheduled only where its
version code and the revision of its snapshot are one number.
-/

namespace EasyDeploy.ReleaseQueue
open Foundation
open Foundation.Transition

namespace Bindings

variable {text : JsonText} {s s' : Bindings}

/-- Keys and bindings are in order. -/
structure Sound (text : JsonText) (s : Bindings) : Prop extends WellFormed s where
  bound : s.Bound text

/-- The bindings of a state are its own. -/
theorem KeepsBindings.refl (s : Bindings) : KeepsBindings text s s :=
  fun release hmem _ hid => ⟨release, hmem, rfl, hid⟩

/-- What two runs keep, both keep. -/
theorem KeepsBindings.trans {s'' : Bindings} (h : KeepsBindings text s s')
    (h' : KeepsBindings text s' s'') : KeepsBindings text s s'' := by
  intro release hmem snapshotId hid
  obtain ⟨between, hbetween, heq, hid⟩ := h release hmem snapshotId hid
  obtain ⟨release', hmem', heq', hid⟩ := h' between hbetween snapshotId hid
  exact ⟨release', hmem', heq'.trans heq, hid⟩

/-- A statement that keeps the order and the bindings. -/
structure Proceeds (text : JsonText) (s s' : Bindings) : Prop where
  sound : s'.Sound text
  keeps : KeepsBindings text s s'

theorem Proceeds.refl (h : s.Sound text) : Proceeds text s s := ⟨h, .refl s⟩

/-- One run goes on where another one has ended. -/
theorem Proceeds.trans {s'' : Bindings} (h : Proceeds text s s') (h' : Proceeds text s' s'') :
    Proceeds text s s'' := ⟨h'.sound, h.keeps.trans h'.keeps⟩

theorem nodup_append_nextId {ids : List Int} (h : ids.Nodup) : (ids ++ [nextId ids]).Nodup := by
  apply h.append (List.nodup_singleton _)
  intro id hid hnew
  obtain rfl := List.mem_singleton.mp hnew
  exact lt_irrefl _ (lt_nextId hid)

/-- A number that is counted in 64 bits is the number. -/
theorem toInt_counted {value : Int} {number : Int64} (hlow : 0 ≤ value)
    (h : counted value = .ok number) : number.toInt = value := by
  unfold counted at h
  split at h
  · obtain rfl := Except.ok.inj h
    exact Int64.toInt_ofInt_of_le (by lia) (by lia)
  · cases h

theorem nextId_pos (ids : List Int) : 0 < nextId ids := by
  unfold nextId
  have hnonneg : 0 ≤ ids.foldr max 0 := by
    induction ids with
    | nil => exact le_refl 0
    | cons id ids ih => exact ih.trans (le_max_right id _)
  omega

/-- Inserting a snapshot. -/
theorem proceeds_insertRuntimeConfigSnapshot (h : s.Sound text) {appId : Int}
    {snapshot : RuntimeConfigSnapshotRecord}
    (hinsert : s.insertRuntimeConfigSnapshot appId = .ok (snapshot, s')) :
    Proceeds text s s' ∧ snapshot ∈ s'.snapshots ∧ snapshot.appId = appId := by
  obtain ⟨revisionNo, -, hinsert⟩ := except_bind_eq_ok.mp hinsert
  obtain ⟨id, hcount, hinsert⟩ := except_bind_eq_ok.mp hinsert
  obtain ⟨rfl, rfl⟩ := Prod.mk.inj (Except.ok.inj hinsert)
  have hid := toInt_counted (nextId_pos _).le hcount
  refine ⟨⟨⟨⟨h.releaseIds, ?_, h.items⟩, ?_⟩, .refl s⟩, List.mem_append_right _
    (List.mem_singleton_self _), rfl⟩
  · rw [List.map_append]
    apply h.snapshotIds.append (List.nodup_singleton _)
    intro old hold hnew
    obtain rfl : old = id := List.mem_singleton.mp hnew
    obtain ⟨snapshot, hsnapshot, rfl⟩ := List.mem_map.mp hold
    have hlt := lt_nextId (List.mem_map_of_mem (f := fun snapshot : RuntimeConfigSnapshotRecord =>
      snapshot.id.toInt) hsnapshot)
    rw [← hid] at hlt
    exact lt_irrefl _ hlt
  · intro release hrelease snapshotId hnamed
    obtain ⟨⟨snapshot, hsnapshot, hbinding⟩, hitems⟩ := h.bound release hrelease snapshotId hnamed
    exact ⟨⟨snapshot, List.mem_append_left _ hsnapshot, hbinding⟩, hitems⟩

/-- Inserting a release that names a snapshot of its application with its revision. -/
theorem proceeds_insertAppReleaseImmutable (h : s.Sound text) {appId versionId : Int}
    {version metadata : String} {versionCode : Int64} {status : ReleaseStatus}
    {snapshot : RuntimeConfigSnapshotRecord} (hsnapshot : snapshot ∈ s.snapshots)
    (happ : snapshot.appId = appId)
    (hmetadata : releaseMetadataSnapshotId text metadata = some snapshot.id ∧
      metadataNumber text "config_revision_no" metadata = some snapshot.revisionNo)
    (hinsert : s.insertAppReleaseImmutable appId version versionCode status metadata =
      .ok (versionId, s')) :
    Proceeds text s s' ∧ snapshot ∈ s'.snapshots ∧
      ∃ release ∈ s'.releases, release.id = versionId ∧
        releaseMetadataSnapshotId text release.metadata = some snapshot.id := by
  unfold insertAppReleaseImmutable at hinsert
  split at hinsert
  · cases hinsert
  · obtain ⟨rfl, rfl⟩ := Prod.mk.inj (Except.ok.inj hinsert)
    refine ⟨⟨⟨⟨?_, h.snapshotIds, ?_⟩, ?_⟩, ?_⟩, hsnapshot, _, List.mem_append_right _
      (List.mem_singleton_self _), rfl, hmetadata.1⟩
    · rw [List.map_append]
      exact nodup_append_nextId h.releaseIds
    · intro item hitem
      obtain ⟨release, hrelease, heq⟩ := h.items item hitem
      exact ⟨release, List.mem_append_left _ hrelease, heq⟩
    · intro release hrelease snapshotId hnamed
      rcases List.mem_append.mp hrelease with hrelease | hrelease
      · exact h.bound release hrelease snapshotId hnamed
      · obtain rfl := List.mem_singleton.mp hrelease
        obtain rfl := Option.some.inj (hmetadata.1.symm.trans hnamed)
        refine ⟨⟨snapshot, hsnapshot, rfl, happ, hmetadata.2⟩, fun item hitem hnew => ?_⟩
        -- no item refers to a release that was not there
        obtain ⟨old, hold, heq⟩ := h.items item hitem
        have hlt := lt_nextId (List.mem_map_of_mem (f := fun release : BoundRelease =>
          release.id) hold)
        rw [heq, hnew] at hlt
        exact absurd hlt (lt_irrefl _)
    · intro release hrelease snapshotId hnamed
      exact ⟨release, List.mem_append_left _ hrelease, rfl, hnamed⟩

/-- Enqueueing a release with the snapshot it names, if it names one. -/
theorem proceeds_enqueueAppRelease (h : s.Sound text) {appId releaseId queueId : Int}
    {snapshotId : Int64} {status : QueueStatus} {scheduledPublishAt : Option String}
    (hrelease : ∃ release ∈ s.releases, release.id = releaseId)
    (hnamed : ∀ release ∈ s.releases, release.id = releaseId → ∀ named,
      releaseMetadataSnapshotId text release.metadata = some named → named = snapshotId)
    (henqueue : s.enqueueAppRelease appId releaseId snapshotId status scheduledPublishAt =
      some (queueId, s')) :
    Proceeds text s s' ∧ s'.releases = s.releases ∧ s'.snapshots = s.snapshots ∧
      ∀ item ∈ s'.queue, item ∈ s.queue ∨
        item.releaseId = releaseId ∧ item.configSnapshotId = some snapshotId.toInt := by
  obtain ⟨⟨id, store⟩, hstore, heq⟩ := Option.map_eq_some_iff.mp henqueue
  obtain ⟨rfl, rfl⟩ := Prod.mk.inj heq
  unfold Store.enqueueAppRelease at hstore
  split at hstore
  · cases hstore
  · obtain ⟨rfl, rfl⟩ := Prod.mk.inj (Option.some.inj hstore)
    have hqueue (id queueSeq : Int) : ∀ item ∈ s.queue ++ [⟨id, appId, releaseId,
        some snapshotId.toInt, queueSeq, status, none, scheduledPublishAt⟩], item ∈ s.queue ∨
        item.releaseId = releaseId ∧ item.configSnapshotId = some snapshotId.toInt := by
      intro item hitem
      rcases List.mem_append.mp hitem with hitem | hitem
      · exact .inl hitem
      · obtain rfl := List.mem_singleton.mp hitem
        exact .inr ⟨rfl, rfl⟩
    refine ⟨⟨⟨⟨h.releaseIds, h.snapshotIds, fun item hitem => ?_⟩, ?_⟩, .refl s⟩, rfl, rfl,
      hqueue _ _⟩
    · rcases hqueue _ _ item hitem with hitem | ⟨heq, -⟩
      · exact h.items item hitem
      · rw [heq]
        exact hrelease
    · intro release hmem named hid
      obtain ⟨hsnapshot, hitems⟩ := h.bound release hmem named hid
      refine ⟨hsnapshot, fun item hitem heq => ?_⟩
      rcases hqueue _ _ item hitem with hitem | ⟨hnew, hcarried⟩
      · exact hitems item hitem heq
      · rw [hcarried, hnamed release hmem (heq.symm.trans hnew) named hid]

/-- Changing a release so that what it names stays or is bound. -/
theorem proceeds_changeRelease (h : s.Sound text) {releaseId : Int}
    {change : BoundRelease → BoundRelease}
    (hid : ∀ release, (change release).id = release.id)
    (hchange : ∀ release ∈ s.releases, release.id = releaseId →
      (∀ named, releaseMetadataSnapshotId text release.metadata = some named →
        releaseMetadataSnapshotId text (change release).metadata = some named) ∧
      ∀ named, releaseMetadataSnapshotId text (change release).metadata = some named →
        s.BoundTo text (change release) named) :
    Proceeds text s (s.changeRelease releaseId change) := by
  refine ⟨⟨⟨?_, h.snapshotIds, fun item hitem => ?_⟩, ?_⟩, ?_⟩
  · have hids : (s.changeRelease releaseId change).releases.map (·.id) =
        s.releases.map (·.id) := by
      rw [changeRelease, updateAt, List.map_map]
      apply List.map_congr_left
      intro release _
      rw [Function.comp_apply]
      split
      · exact hid release
      · rfl
    rw [hids]
    exact h.releaseIds
  · obtain ⟨release, hrelease, heq⟩ := h.items item hitem
    refine ⟨_, mem_updateAt.mpr ⟨release, hrelease, rfl⟩, ?_⟩
    split
    · exact (hid release).trans heq
    · exact heq
  · intro release' hrelease' named hnamed
    obtain ⟨release, hrelease, rfl⟩ := mem_updateAt.mp hrelease'
    split at hnamed
    · rename_i hwanted
      rw [if_pos hwanted]
      exact (hchange release hrelease hwanted.1).2 named hnamed
    · rename_i hother
      rw [if_neg hother]
      exact h.bound release hrelease named hnamed
  · intro release hrelease named hnamed
    refine ⟨_, mem_updateAt.mpr ⟨release, hrelease, rfl⟩, ?_⟩
    split
    · rename_i hwanted
      exact ⟨hid release, (hchange release hrelease hwanted.1).1 named hnamed⟩
    · exact ⟨rfl, hnamed⟩

/-- Changing what no binding reads of a release. -/
theorem proceeds_changeStatus (h : s.Sound text) {releaseId : Int} {status : ReleaseStatus} :
    Proceeds text s (s.changeRelease releaseId fun release => { release with status }) := by
  refine proceeds_changeRelease h (fun _ => rfl) fun release hrelease _ => ?_
  exact ⟨fun _ hnamed => hnamed, fun named hnamed => h.bound release hrelease named hnamed⟩

/-- A package is registered with the configuration that it shows. -/
theorem proceeds_registerPackage (h : s.Sound text) {app : BoundApp} {upload : PackageUpload}
    {render : RuntimeConfigSnapshotRecord → Except AppError String}
    (hrender : ∀ snapshot metadata, render snapshot = .ok metadata →
      releaseMetadataSnapshotId text metadata = some snapshot.id ∧
      metadataNumber text "config_revision_no" metadata = some snapshot.revisionNo)
    (hregister : s.registerPackage app upload render = .ok s') : Proceeds text s s' := by
  obtain ⟨⟨snapshot, s₁⟩, hsnapshot, hregister⟩ := except_bind_eq_ok.mp hregister
  obtain ⟨metadata, hmetadata, hregister⟩ := except_bind_eq_ok.mp hregister
  obtain ⟨⟨releaseId, s₂⟩, hrelease, hregister⟩ := except_bind_eq_ok.mp hregister
  obtain ⟨hfirst, hmem, happ⟩ := proceeds_insertRuntimeConfigSnapshot h hsnapshot
  obtain ⟨hsecond, -, release, hnew, hid, hnames⟩ := proceeds_insertAppReleaseImmutable
    hfirst.sound hmem happ (hrender snapshot metadata hmetadata) hrelease
  have hboth := hfirst.trans hsecond
  dsimp only at hregister
  split at hregister
  · split at hregister
    · rename_i enqueued henqueue
      obtain rfl := Except.ok.inj hregister
      have hnamed : ∀ other ∈ s₂.releases, other.id = releaseId → ∀ named,
          releaseMetadataSnapshotId text other.metadata = some named → named = snapshot.id := by
        intro other hother heq named hnamed
        have hsame : other = release :=
          List.inj_on_of_nodup_map hsecond.sound.releaseIds hother hnew (heq.trans hid.symm)
        rw [hsame, hnames] at hnamed
        exact (Option.some.inj hnamed).symm
      exact hboth.trans (proceeds_enqueueAppRelease hsecond.sound ⟨release, hnew, hid⟩ hnamed
        henqueue).1
    · cases hregister
  · obtain rfl := Except.ok.inj hregister
    exact hboth

/-- An upload keeps all bindings. -/
theorem proceeds_uploadReleasePackage (htext : text.KeepsValues) (h : s.Sound text)
    {upload : PackageUpload} (hupload : s.uploadReleasePackage text upload = .ok s') :
    Proceeds text s s' := by
  unfold uploadReleasePackage at hupload
  obtain ⟨app, -, hrest⟩ := except_bind_eq_ok.mp hupload
  obtain ⟨-, -, hrest⟩ := except_bind_eq_ok.mp hrest
  obtain ⟨-, -, hrest⟩ := except_bind_eq_ok.mp hrest
  obtain ⟨-, -, hrest⟩ := except_bind_eq_ok.mp hrest
  obtain ⟨-, -, hregister⟩ := except_bind_eq_ok.mp hrest
  exact proceeds_registerPackage h
    (fun _ _ => numbers_renderArtifactMetadata htext rfl rfl) hregister

/-- A completed upload keeps all bindings. -/
theorem proceeds_completeReleasePackageUpload (htext : text.KeepsValues) (h : s.Sound text)
    {upload : PackageUpload} {storage : ArtifactStorageMetadataInput}
    (hcomplete : s.completeReleasePackageUpload text upload storage = .ok s') :
    Proceeds text s s' := by
  unfold completeReleasePackageUpload at hcomplete
  obtain ⟨app, -, hrest⟩ := except_bind_eq_ok.mp hcomplete
  obtain ⟨-, -, hrest⟩ := except_bind_eq_ok.mp hrest
  obtain ⟨-, -, hrest⟩ := except_bind_eq_ok.mp hrest
  obtain ⟨-, -, hregister⟩ := except_bind_eq_ok.mp hrest
  exact proceeds_registerPackage h
    (fun _ _ => numbers_renderArtifactMetadataWithStorage htext rfl rfl) hregister

/-- The release that is found has the identifier that was asked for. -/
theorem fetchRelease_eq_ok {releaseId : Int} {release : BoundRelease}
    (h : s.fetchRelease releaseId = .ok release) :
    release ∈ s.releases ∧ release.id = releaseId := by
  unfold fetchRelease at h
  split at h
  · rename_i found hfind
    obtain rfl := Except.ok.inj h
    have hfound := List.find?_some hfind
    rw [Bool.and_eq_true, beq_iff_eq] at hfound
    exact ⟨List.mem_of_find?_eq_some hfind, hfound.1⟩
  · cases h

/-- The snapshot that a release resolves to: the one it names, or one of its application. -/
theorem resolveReleaseSnapshotId_eq_ok {appId : Int} {metadata : String} {snapshotId : Int64}
    (h : s.resolveReleaseSnapshotId text appId metadata = .ok snapshotId) :
    releaseMetadataSnapshotId text metadata = some snapshotId ∨
    releaseMetadataSnapshotId text metadata = none ∧
      ∃ snapshot ∈ s.snapshots, snapshot.id = snapshotId ∧ snapshot.appId = appId := by
  unfold resolveReleaseSnapshotId at h
  split at h
  · rename_i named hnamed
    obtain rfl := Except.ok.inj h
    exact .inl hnamed
  · rename_i hnone
    split at h
    · rename_i snapshot hlatest
      obtain rfl := Except.ok.inj h
      have hmem := mem_sortBy.mp (List.mem_of_head? hlatest)
      rw [List.mem_filter, beq_iff_eq] at hmem
      exact .inr ⟨hnone, snapshot, hmem.1, rfl, hmem.2⟩
    · cases h

/-- What a release names is what it resolves to. -/
theorem eq_of_resolve (h : s.Sound text) {release other : BoundRelease} {snapshotId named : Int64}
    (hrelease : release ∈ s.releases) (hother : other ∈ s.releases) (hid : other.id = release.id)
    (hresolve : s.resolveReleaseSnapshotId text release.appId release.metadata = .ok snapshotId)
    (hnamed : releaseMetadataSnapshotId text other.metadata = some named) :
    named = snapshotId := by
  obtain rfl := List.inj_on_of_nodup_map h.releaseIds hother hrelease hid
  rcases resolveReleaseSnapshotId_eq_ok hresolve with hsame | ⟨hnone, -⟩
  · exact Option.some.inj (hnamed.symm.trans hsame)
  · rw [hnone] at hnamed
    cases hnamed

/-- A publication keeps all bindings. -/
theorem proceeds_publishReleaseNow (h : s.Sound text) {releaseId : Int} {queueId : Option Int}
    (hpublish : s.publishReleaseNow text releaseId = .ok (queueId, s')) :
    Proceeds text s s' := by
  unfold publishReleaseNow at hpublish
  obtain ⟨release, hfetch, hrest⟩ := except_bind_eq_ok.mp hpublish
  obtain ⟨-, -, hrest⟩ := except_bind_eq_ok.mp hrest
  obtain ⟨-, -, hrest⟩ := except_bind_eq_ok.mp hrest
  obtain ⟨-, -, hrest⟩ := except_bind_eq_ok.mp hrest
  obtain ⟨snapshotId, hresolve, hrest⟩ := except_bind_eq_ok.mp hrest
  have hrelease := (fetchRelease_eq_ok hfetch).1
  split at hrest
  · rename_i enqueuedId s₁ henqueue
    obtain ⟨-, rfl⟩ := Prod.mk.inj (Except.ok.inj hrest)
    obtain ⟨hfirst, -⟩ := proceeds_enqueueAppRelease h ⟨release, hrelease, rfl⟩
      (fun _ hother hid _ => eq_of_resolve h hrelease hother hid hresolve) henqueue
    exact hfirst.trans (proceeds_changeStatus hfirst.sound)
  · obtain ⟨-, rfl⟩ := Prod.mk.inj (Except.ok.inj hrest)
    exact proceeds_changeStatus h

/-- Scheduling keeps the bindings when the version code is the revision of the snapshot and the
items of the release carry that snapshot. -/
theorem proceeds_scheduleReleasePublish (htext : text.KeepsValues) (h : s.Sound text)
    {releaseId : Int} {scheduledPublishAt : String}
    (hcareful : s.Careful text (.schedule releaseId scheduledPublishAt))
    (hschedule : s.scheduleReleasePublish text releaseId scheduledPublishAt = .ok s') :
    Proceeds text s s' := by
  unfold scheduleReleasePublish at hschedule
  obtain ⟨release, hfetch, hrest⟩ := except_bind_eq_ok.mp hschedule
  obtain ⟨-, -, hrest⟩ := except_bind_eq_ok.mp hrest
  obtain ⟨-, -, hrest⟩ := except_bind_eq_ok.mp hrest
  obtain ⟨snapshotId, hresolve, hrest⟩ := except_bind_eq_ok.mp hrest
  obtain ⟨metadata, hmetadata, hrest⟩ := except_bind_eq_ok.mp hrest
  obtain ⟨hrelease, hreleaseId⟩ := fetchRelease_eq_ok hfetch
  obtain ⟨hrevision, hitems⟩ := hcareful release hrelease hreleaseId snapshotId hresolve
  split at hrest
  · rename_i queueId s₁ henqueue
    obtain rfl := Except.ok.inj hrest
    obtain ⟨hfirst, hreleases, hsnapshots, hqueue⟩ := proceeds_enqueueAppRelease h
      ⟨release, hrelease, rfl⟩
      (fun _ hother hid _ => eq_of_resolve h hrelease hother hid hresolve) henqueue
    obtain ⟨hid, hrevisionNo⟩ := numbers_releaseMetadataWithSnapshot htext hmetadata
    refine hfirst.trans (proceeds_changeRelease hfirst.sound (fun _ => rfl)
      fun other hother heq => ?_)
    rw [hreleases] at hother
    refine ⟨fun named hnamed => ?_, fun named hnamed => ?_⟩
    · rw [hid, eq_of_resolve h hrelease hother heq hresolve hnamed]
    · obtain rfl := Option.some.inj (hid.symm.trans hnamed)
      obtain rfl := List.inj_on_of_nodup_map h.releaseIds hother hrelease heq
      -- the snapshot is the one the release named, or the latest of its application
      have hsnapshot : ∃ snapshot ∈ s.snapshots, snapshot.id = snapshotId ∧
          snapshot.appId = other.appId := by
        rcases resolveReleaseSnapshotId_eq_ok hresolve with hsame | ⟨-, hlatest⟩
        · obtain ⟨⟨snapshot, hmem, heq, happ, -⟩, -⟩ := h.bound other hrelease snapshotId hsame
          exact ⟨snapshot, hmem, heq, happ⟩
        · exact hlatest
      obtain ⟨snapshot, hmem, heq, happ⟩ := hsnapshot
      refine ⟨⟨snapshot, hsnapshots ▸ hmem, heq, happ, ?_⟩, fun item hitem hof => ?_⟩
      · rw [hrevision snapshot hmem heq]
        exact hrevisionNo
      · rcases hqueue item hitem with hold | ⟨-, hnew⟩
        · exact hitems item hold (hof.trans hreleaseId)
        · exact hnew
  · cases hrest

/-- A new configuration keeps all bindings. -/
theorem proceeds_recordConfiguration (h : s.Sound text) {appId : Int}
    (hrecord : s.recordConfiguration appId = .ok s') : Proceeds text s s' := by
  obtain ⟨app, -, hrecord⟩ := except_bind_eq_ok.mp hrecord
  obtain ⟨⟨snapshot, s₁⟩, hinsert, hrecord⟩ := except_bind_eq_ok.mp hrecord
  obtain rfl := Except.ok.inj hrecord
  exact (proceeds_insertRuntimeConfigSnapshot h hinsert).1

/-- Statuses of items are not part of a binding. -/
theorem proceeds_setItemStatus (h : s.Sound text) {queueId : Int} {status : QueueStatus}
    {taskId : Option Int} : Proceeds text s (s.setItemStatus queueId status taskId) := by
  have hqueue : ∀ item' ∈ (s.setItemStatus queueId status taskId).queue, ∃ item ∈ s.queue,
      item'.releaseId = item.releaseId ∧ item'.configSnapshotId = item.configSnapshotId := by
    intro item' hitem'
    obtain ⟨item, hitem, rfl⟩ := mem_updateAt.mp hitem'
    refine ⟨item, hitem, ?_⟩
    split
    · exact ⟨rfl, rfl⟩
    · exact ⟨rfl, rfl⟩
  refine ⟨⟨⟨h.releaseIds, h.snapshotIds, fun item' hitem' => ?_⟩, ?_⟩, .refl s⟩
  · obtain ⟨item, hitem, hof, -⟩ := hqueue item' hitem'
    rw [hof]
    exact h.items item hitem
  · intro release hrelease named hnamed
    obtain ⟨hsnapshot, hitems⟩ := h.bound release hrelease named hnamed
    refine ⟨hsnapshot, fun item' hitem' hof' => ?_⟩
    obtain ⟨item, hitem, hof, hcarried⟩ := hqueue item' hitem'
    rw [hcarried]
    exact hitems item hitem (hof.symm.trans hof')

/-- An operation keeps the order and the bindings. -/
theorem proceeds_perform (htext : text.KeepsValues) (h : s.Sound text) {operation : Operation}
    (hcareful : s.Careful text operation) (hperform : s.perform text operation = .ok s') :
    Proceeds text s s' := by
  cases operation with
  | upload upload => exact proceeds_uploadReleasePackage htext h hperform
  | completeUpload upload storage =>
      exact proceeds_completeReleasePackageUpload htext h hperform
  | publish releaseId =>
      rw [perform] at hperform
      cases hpublish : s.publishReleaseNow text releaseId with
      | error error =>
          rw [hpublish] at hperform
          cases hperform
      | ok result =>
          rw [hpublish] at hperform
          obtain rfl := Except.ok.inj hperform
          exact proceeds_publishReleaseNow h hpublish
  | schedule releaseId scheduledPublishAt =>
      exact proceeds_scheduleReleasePublish htext h hcareful hperform
  | updateConfig appId => exact proceeds_recordConfiguration h hperform
  | setReleaseStatus releaseId status =>
      obtain rfl := Except.ok.inj hperform
      exact proceeds_changeStatus h
  | setItemStatus queueId status taskId =>
      obtain rfl := Except.ok.inj hperform
      exact proceeds_setItemStatus h
  | setTasks tasks | setApps apps =>
      obtain rfl := Except.ok.inj hperform
      exact ⟨⟨⟨h.releaseIds, h.snapshotIds, h.items⟩, h.bound⟩, .refl s⟩

/-- Every careful operation keeps all bindings. -/
theorem proceeds_afterOperation (htext : text.KeepsValues) (h : s.Sound text)
    {operation : Operation} (hcareful : s.Careful text operation) :
    Proceeds text s (s.afterOperation text operation) := by
  unfold afterOperation
  cases hperform : s.perform text operation with
  | error error => exact .refl h
  | ok s' => exact proceeds_perform htext h hcareful hperform

theorem reached_after (h : Reached (bindings text) (Careful text) s) (operation : Operation)
    (hcareful : s.Careful text operation) :
    Reached (bindings text) (Careful text) (s.afterOperation text operation) :=
  .next h hcareful rfl

/-- The bindings are sound in every state of a careful run. -/
theorem reached_sound (htext : text.KeepsValues)
    (hreached : Reached (bindings text) (Careful text) s) : s.Sound text := by
  refine hreached.invariant (fun s h => ⟨h.1, h.2⟩) fun s operation s' _ hcareful hsound hstep => ?_
  obtain rfl := Option.some.inj hstep
  exact (proceeds_afterOperation htext hsound hcareful).sound

/-- A careful run keeps the bindings of the state that it starts in. -/
theorem reached_keeps (htext : text.KeepsValues) (hsound : s.Sound text)
    (hreached : Reached ((bindings text).startingAt s) (Careful text) s') :
    Proceeds text s s' := by
  refine hreached.invariant (fun s' h => ?_) fun between operation s' _ hcareful hbefore hstep => ?_
  · obtain rfl := h
    exact .refl hsound
  · obtain rfl := Option.some.inj hstep
    exact hbefore.trans (proceeds_afterOperation htext hbefore.sound hcareful)

/-- Releases stay bound to the snapshots they name as long as a release is scheduled where its
version code is the revision of its snapshot and its items carry that snapshot. -/
theorem release_bindings_kept (htext : text.KeepsValues)
    (hreached : Reached (bindings text) (Careful text) s) :
    s.Bound text ∧ ∀ s', Reached ((bindings text).startingAt s) (Careful text) s' →
      KeepsBindings text s s' :=
  have hsound := reached_sound htext hreached
  ⟨hsound.bound, fun _ hlater => (reached_keeps htext hsound hlater).keeps⟩

end Bindings

namespace Sample

open Bindings

/-- The text of two values. -/
def metadataCodec (first second : Json) : JsonText where
  toString value :=
    if value = first ∨ value = second then .ok (String.ofList value.compact)
    else .error "unexpected value"
  fromStr written :=
    if written = String.ofList first.compact then .ok first
    else if written = String.ofList second.compact then .ok second
    else .error "unexpected text"

theorem keepsValues_metadataCodec {first second : Json} (hfirst : first.sorted = true)
    (hsecond : second.sorted = true) (hinj : second.compact = first.compact → second = first) :
    (metadataCodec first second).KeepsValues := by
  refine ⟨fun written value h => ?_, fun value written _ h => ?_⟩
  · simp only [metadataCodec] at h
    split at h
    · obtain rfl := Except.ok.inj h
      exact hfirst
    · split at h
      · obtain rfl := Except.ok.inj h
        exact hsecond
      · cases h
  simp only [metadataCodec] at h ⊢
  split at h
  · rename_i hvalue
    obtain rfl := Except.ok.inj h
    rcases hvalue with rfl | rfl
    · rw [if_pos rfl]
    · split
      · rename_i heq
        rw [hinj (String.ofList_inj.mp heq)]
      · rw [if_pos rfl]
  · cases h

def shop : BoundApp := ⟨1, "compose", "ready", "package_upload", false⟩

def boundSite : Bindings := ⟨[shop], [], [], [], []⟩

def package (versionCode : Int64) : PackageUpload :=
  ⟨1, "v1.0.0", versionCode, "web", "", "", "", "", 7⟩

def packageMetadata (revisionNo : Int64) : Json :=
  artifactMetadataValueJson { (package 1).metadata "" ⟨1, 1, 1⟩ with
    configRevisionNo := some revisionNo }

def codec (versionCode : Int64) : JsonText :=
  metadataCodec (packageMetadata 1) (packageMetadata versionCode)

def uploadedSite (versionCode : Int64) : Bindings where
  apps := [shop]
  snapshots := [⟨1, 1, 1⟩]
  releases :=
    [⟨⟨1, 1, .received⟩, "v1.0.0", versionCode, String.ofList (packageMetadata 1).compact⟩]
  queue := []
  tasks := []

theorem upload_boundSite :
    boundSite.afterOperation (codec 1) (.upload (package 1)) = uploadedSite 1 ∧
    boundSite.afterOperation (codec 1000000) (.upload (package 1000000)) =
      uploadedSite 1000000 := by
  decide +kernel

theorem initial_boundSite (text : JsonText) : (bindings text).initial boundSite :=
  ⟨⟨List.nodup_nil, List.nodup_nil, fun _ h => absurd h List.not_mem_nil⟩,
    fun _ h => absurd h List.not_mem_nil⟩

/-- The bindings of a release that is scheduled after its upload. -/
theorem release_bindings_kept_first :
    ((uploadedSite 1).afterOperation (codec 1) (.schedule 1 "2026-02-01T00:00:00Z")).Bound
        (codec 1) ∧
      ∀ s', Reached ((bindings (codec 1)).startingAt ((uploadedSite 1).afterOperation (codec 1)
          (.schedule 1 "2026-02-01T00:00:00Z"))) (Careful (codec 1)) s' →
        KeepsBindings (codec 1) ((uploadedSite 1).afterOperation (codec 1)
          (.schedule 1 "2026-02-01T00:00:00Z")) s' := by
  have huploaded := reached_after (.start (initial_boundSite (codec 1))) (.upload (package 1))
    trivial
  rw [upload_boundSite.1] at huploaded
  refine release_bindings_kept (keepsValues_metadataCodec sorted_artifactMetadataValueJson
    sorted_artifactMetadataValueJson fun _ => rfl)
    (reached_after huploaded _ ?_)
  intro release hmem _ snapshotId hresolve
  obtain rfl := List.mem_singleton.mp hmem
  have hfirst : (uploadedSite 1).resolveReleaseSnapshotId (codec 1) 1
      (String.ofList (packageMetadata 1).compact) = .ok 1 := by decide +kernel
  obtain rfl := Except.ok.inj (hfirst.symm.trans hresolve)
  exact ⟨by decide, by decide⟩

/-- Scheduling records the version code as the revision of the configuration. -/
theorem version_code_recorded : ¬ ∀ (text : JsonText), text.KeepsValues → ∀ s,
    Reachable (bindings text) s → s.Bound text ∧
      ∀ s', Reached ((bindings text).startingAt s) (fun _ _ => True) s' →
        KeepsBindings text s s' := by
  intro hclaim
  have htext : (codec 1000000).KeepsValues := keepsValues_metadataCodec
    sorted_artifactMetadataValueJson sorted_artifactMetadataValueJson (by decide +kernel)
  have huploaded := (reached_after (.start (initial_boundSite (codec 1000000)))
    (.upload (package 1000000)) trivial).reachable
  rw [upload_boundSite.2] at huploaded
  have hbound := (hclaim (codec 1000000) htext _
    (.next huploaded trivial (a := .schedule 1 "2026-02-01T00:00:00Z") rfl)).1
  have hscheduled : (uploadedSite 1000000).afterOperation (codec 1000000)
      (.schedule 1 "2026-02-01T00:00:00Z") =
      { uploadedSite 1000000 with
        releases := [⟨⟨1, 1, .queued⟩, "v1.0.0", 1000000,
          String.ofList (packageMetadata 1000000).compact⟩]
        queue := [⟨1, 1, 1, some 1, 1, .scheduled, none, some "2026-02-01T00:00:00Z"⟩] } := by
    decide +kernel
  rw [hscheduled] at hbound
  have hwritten : writeValue (codec 1000000) (packageMetadata 1000000) =
      .ok (String.ofList (packageMetadata 1000000).compact) := by decide +kernel
  have hnumbers := numbers_renderArtifactMetadata htext rfl rfl hwritten
  obtain ⟨⟨snapshot, hmem, -, -, hrevision⟩, -⟩ := hbound _ (List.mem_singleton_self _) 1
    hnumbers.1
  have hfirst : snapshot = ⟨1, 1, 1⟩ := List.mem_singleton.mp hmem
  rw [hfirst] at hrevision
  exact absurd (hrevision.symm.trans hnumbers.2) (by decide)

end Sample

end EasyDeploy.ReleaseQueue
