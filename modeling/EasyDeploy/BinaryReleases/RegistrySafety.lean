import EasyDeploy.BinaryReleases.Registry

/-!
# What the registry keeps however calls interleave

The version that is configured for an application is one of its rows, at the path
of the configuration, and it is not disabled. At most one version is active. Both
hold between any two steps, since each transaction establishes them alone.
-/

namespace EasyDeploy.BinaryReleases
open Foundation Foundation.Transition
open Apps (AppDetailItem BinaryConfigItem)

variable {text : JsonText} {appId other artifactId : Int} {version : String}
  {rows rows' : ArtifactTable} {row row' : BinaryArtifactItem} {config : BinaryConfigItem}
  {change : BinaryArtifactItem → BinaryArtifactItem} {upload : PreparedUpload}
  {entry : Int × BinaryConfigItem}

theorem ArtifactStatus.registered_ne_disabled : registered ≠ disabled := by decide

theorem ArtifactStatus.registered_ne_active : registered ≠ active := by decide

theorem ArtifactStatus.active_ne_disabled : active ≠ disabled := by decide

/-- The settings leave the keys of a row. -/
theorem KeepsKeys.configured (config : BinaryConfigItem) : KeepsKeys fun row =>
    { row with
      artifactPath := config.artifactPath, status := .registered
      metadata := Apps.manualMetadata config } :=
  ⟨fun _ => rfl, fun _ => rfl, fun _ => rfl⟩

/-- An upload leaves the keys of a row. -/
theorem KeepsKeys.uploaded (upload : PreparedUpload) : KeepsKeys fun row =>
    { row with
      versionCode := upload.versionCode, artifactPath := upload.config.artifactPath
      artifactKind := upload.artifactKind, status := .active
      publishedAt := upload.publishedAt, metadata := upload.metadata } :=
  ⟨fun _ => rfl, fun _ => rfl, fun _ => rfl⟩

/-- A status leaves the keys of a row. -/
theorem KeepsKeys.status (status : BinaryArtifactItem → ArtifactStatus) : KeepsKeys fun row =>
    { row with status := status row } :=
  ⟨fun _ => rfl, fun _ => rfl, fun _ => rfl⟩

/-- A deployment leaves the keys of a row. -/
theorem KeepsKeys.deployed (artifact : BinaryArtifactItem) : KeepsKeys fun row =>
    if row.id = artifact.id then
      { row with
        status := .active, metadata := artifact.metadata, artifactPath := artifact.artifactPath }
    else { row with status := .registered } := by
  constructor <;> intro row <;> split <;> rfl

/-- An update leaves the rows of other applications. -/
theorem rowsOf_updateAt {guard : BinaryArtifactItem → Bool} (hchange : KeepsKeys change)
    (hne : appId ≠ other) :
    rowsOf other (updateAt rows (·.appId) appId guard change) = rowsOf other rows := by
  apply filter_updateAt
  · intro row
    rw [hchange.appId]
  · intro row happ heq
    exact hne (heq.symm.trans (beq_iff_eq.mp happ))

/-- A registered row leaves those of other applications. -/
theorem rowsOf_insertOrUpdate (hchange : KeepsKeys change) (hne : row.appId ≠ other) :
    rowsOf other (insertOrUpdate row change rows) = rowsOf other rows := by
  unfold insertOrUpdate
  split
  · apply filter_updateAt
    · intro row
      rw [hchange.appId]
    · intro old happ heq
      refine hne ?_
      rw [← beq_iff_eq.mp happ]
      exact (congrArg Prod.fst heq).symm
  · have hother : (row.appId == other) = false := beq_eq_false_iff_ne.mpr hne
    rw [rowsOf, List.filter_append, List.filter_cons, hother]
    exact List.append_nil _

/-- The settings of an application leave the rows of others. -/
theorem rowsOf_registerConfigured (hne : appId ≠ other) :
    rowsOf other (registerConfigured appId config rows) = rowsOf other rows :=
  rowsOf_insertOrUpdate (.configured config) hne

/-- The first start of an application leaves the rows of others. -/
theorem rowsOf_registerInitial {now : String} (hne : appId ≠ other) :
    rowsOf other (registerInitial appId config now rows) = rowsOf other rows :=
  rowsOf_insertOrUpdate ⟨fun _ => rfl, fun _ => rfl, fun _ => rfl⟩ hne

/-- An upload leaves the rows of other applications. -/
theorem rowsOf_registerUploaded (hne : upload.appId ≠ other) :
    rowsOf other (registerUploaded upload rows) = rowsOf other rows :=
  rowsOf_insertOrUpdate (.uploaded upload) hne

/-- The retention of an application leaves the rows of others. -/
theorem rowsOf_prune {releasesToKeep : Nat} {activeVersion : String} (h : WellKeyed rows)
    (hne : appId ≠ other) :
    rowsOf other (pruneUploadedBinaryReleases text activeVersion releasesToKeep appId rows).1 =
      rowsOf other rows := by
  rw [pruneUploadedBinaryReleases_eq, rowsOf, rowsOf]
  rw [List.filter_map]
  have hfilter : rows.filter ((fun row => row.appId == other) ∘ fun row =>
      if row.id ∈ (prunedUploads text activeVersion releasesToKeep appId rows).map (·.id) then
        { row with status := .disabled } else row) = rows.filter fun row => row.appId == other := by
    refine List.filter_congr fun row _ => ?_
    rw [Function.comp_apply]
    split <;> rfl
  rw [hfilter]
  refine (List.map_congr_left fun row hrow => if_neg fun hid => ?_).trans (List.map_id _)
  obtain ⟨hmem, happ⟩ := List.mem_filter.mp hrow
  obtain ⟨pruned, hpruned, heq⟩ := List.mem_map.mp hid
  obtain ⟨hold, holdApp, -⟩ := of_mem_prunedUploads hpruned
  obtain rfl := h.ids.eq hold hmem heq
  exact hne (holdApp.symm.trans (beq_iff_eq.mp happ))

/-- The retention adds no row. -/
theorem WellKeyed.prune {releasesToKeep : Nat} {activeVersion : String} (h : WellKeyed rows) :
    WellKeyed (pruneUploadedBinaryReleases text activeVersion releasesToKeep appId rows).1 := by
  rw [pruneUploadedBinaryReleases_eq]
  constructor
  · rw [Keyed, List.map_map]
    refine (congrArg List.Nodup (List.map_congr_left fun row _ => ?_)).mp h.ids
    rw [Function.comp_apply]
    split <;> rfl
  · rw [Keyed, List.map_map]
    refine (congrArg List.Nodup (List.map_congr_left fun row _ => ?_)).mp h.slots
    rw [Function.comp_apply]
    split <;> rfl

/-- A row after the retention is an earlier one, perhaps disabled. -/
theorem of_mem_prune {releasesToKeep : Nat} {activeVersion : String}
    (h : row' ∈ (pruneUploadedBinaryReleases text activeVersion releasesToKeep appId rows).1) :
    ∃ row ∈ rows, row.slot = row'.slot ∧ (row' = row ∨ row'.status = .disabled) := by
  rw [pruneUploadedBinaryReleases_eq] at h
  obtain ⟨row, hrow, rfl⟩ := List.mem_map.mp h
  refine ⟨row, hrow, ?_, ?_⟩
  · split <;> rfl
  · split
    · exact .inr rfl
    · exact .inl rfl

/-- An application has at most one active version. -/
def OneActive (rows : ArtifactTable) : Prop :=
  ∀ row ∈ rows, ∀ row' ∈ rows, row.status = .active → row'.status = .active →
    row.appId = row'.appId → row.slot = row'.slot

/-- Versions that are active were active before. -/
theorem OneActive.fewer (h : OneActive rows)
    (hfewer : ∀ row' ∈ rows', row'.status = .active →
      ∃ row ∈ rows, row.status = .active ∧ row.slot = row'.slot) : OneActive rows' := by
  intro row' hrow' next' hnext' hactive hactive' happ
  obtain ⟨row, hrow, hstatus, hslot⟩ := hfewer row' hrow' hactive
  obtain ⟨next, hnext, hstatus', hslot'⟩ := hfewer next' hnext' hactive'
  rw [← hslot, ← hslot']
  apply h row hrow next hnext hstatus hstatus'
  exact (congrArg Prod.fst hslot).trans (happ.trans (congrArg Prod.fst hslot').symm)

/-- The application whose rows change has one active version, and the others have theirs. -/
theorem OneActive.changed (h : OneActive rows) {slot : Int × String}
    (hslot : ∀ row' ∈ rows', row'.appId = appId → row'.status = .active → row'.slot = slot)
    (hframe : ∀ other, appId ≠ other → rowsOf other rows' = rowsOf other rows) :
    OneActive rows' := by
  intro row' hrow' next' hnext' hactive hactive' happ
  by_cases hown : row'.appId = appId
  · rw [hslot row' hrow' hown hactive, hslot next' hnext' (happ.symm.trans hown) hactive']
  · have hsame (row : BinaryArtifactItem) (hrow : row ∈ rows') (hother : row.appId ≠ appId) :
        row ∈ rows := by
      have hmem := mem_rowsOf.mpr ⟨hrow, rfl⟩
      rw [hframe row.appId fun heq => hother heq.symm] at hmem
      exact (mem_rowsOf.mp hmem).1
    exact h row' (hsame row' hrow' hown) next'
      (hsame next' hnext' fun heq => hown (happ.trans heq)) hactive hactive' happ

/-- The configured version has a row at its path that is not disabled. -/
def Registered (entry : Int × BinaryConfigItem) (rows : ArtifactTable) : Prop :=
  ∃ row ∈ rows, row.slot = (entry.1, entry.2.artifactVersion) ∧
    row.artifactPath = entry.2.artifactPath ∧ row.status ≠ .disabled

/-- A version stays registered while the rows of its application stay. -/
theorem Registered.of_rowsOf (h : Registered entry rows)
    (hframe : rowsOf entry.1 rows' = rowsOf entry.1 rows) : Registered entry rows' := by
  obtain ⟨row, hrow, hslot, hpath, hstatus⟩ := h
  have hmem := mem_rowsOf.mpr ⟨hrow, congrArg Prod.fst hslot⟩
  rw [← hframe] at hmem
  exact ⟨row, (mem_rowsOf.mp hmem).1, hslot, hpath, hstatus⟩

/-- What is inserted or updated is registered. -/
theorem registered_insertOrUpdate (hchange : KeepsKeys change)
    (hslot : row.slot = (entry.1, entry.2.artifactVersion))
    (hpath : row.artifactPath = entry.2.artifactPath) (hstatus : row.status ≠ .disabled)
    (hpath' : ∀ old, (change old).artifactPath = entry.2.artifactPath)
    (hstatus' : ∀ old, (change old).status ≠ .disabled) :
    Registered entry (insertOrUpdate row change rows) := by
  obtain ⟨row', hrow', heq⟩ : ∃ row' ∈ insertOrUpdate row change rows, row'.slot = row.slot :=
    exists_mem_insertOrUpdate hchange
  refine ⟨row', hrow', heq.trans hslot, ?_⟩
  rcases mem_insertOrUpdate hchange hrow' with ⟨-, rfl | ⟨old, -, -, rfl⟩⟩ | ⟨-, hne⟩
  · exact ⟨hpath, hstatus⟩
  · exact ⟨hpath' old, hstatus' old⟩
  · exact absurd heq hne

/-- The configured version is registered by the settings. -/
theorem registered_registerConfigured :
    Registered (appId, config) (registerConfigured appId config rows) :=
  registered_insertOrUpdate (.configured config) rfl rfl ArtifactStatus.registered_ne_disabled
    (fun _ => rfl) fun _ => ArtifactStatus.registered_ne_disabled

/-- No version becomes active by a registration. -/
theorem OneActive.insertOrUpdate (h : OneActive rows) (hchange : KeepsKeys change)
    (hrow : row.status ≠ .active) (hstatus : ∀ old, (change old).status ≠ .active) :
    OneActive (insertOrUpdate row change rows) := by
  refine h.fewer fun row' hrow' hactive => ?_
  rcases mem_insertOrUpdate hchange hrow' with ⟨-, rfl | ⟨old, -, -, rfl⟩⟩ | ⟨hmem, -⟩
  · exact absurd hactive hrow
  · exact absurd hactive (hstatus old)
  · exact ⟨row', hmem, hactive, rfl⟩

/-- No version becomes active by the settings. -/
theorem OneActive.registerConfigured (h : OneActive rows) :
    OneActive (registerConfigured appId config rows) :=
  h.insertOrUpdate (.configured config) ArtifactStatus.registered_ne_active
    fun _ => ArtifactStatus.registered_ne_active

/-- The statements of an upload before the retention. -/
def replaceActive (upload : PreparedUpload) (rows : ArtifactTable) : ArtifactTable :=
  demoteOthers upload.appId upload.version (registerUploaded upload rows)

/-- An upload that replaces the active version leaves the rows of other applications. -/
theorem rowsOf_replaceActive (hne : upload.appId ≠ other) :
    rowsOf other (replaceActive upload rows) = rowsOf other rows := by
  rw [replaceActive, demoteOthers, rowsOf_updateAt (.status fun _ => .registered) hne,
    rowsOf_registerUploaded hne]

/-- An upload that replaces the active version keeps identifiers and versions apart. -/
theorem WellKeyed.replaceActive (h : WellKeyed rows) : WellKeyed (replaceActive upload rows) :=
  (h.insertOrUpdate (.uploaded upload)).updateAt (.status fun _ => .registered)

/-- Behind an upload only its version is active. -/
theorem slot_of_active_replaceActive (h : row' ∈ replaceActive upload rows)
    (happ : row'.appId = upload.appId) (hactive : row'.status = .active) :
    row'.slot = (upload.appId, upload.version) := by
  obtain ⟨row, hrow, rfl⟩ := mem_updateAt.mp h
  split at hactive <;> rename_i hwanted
  · cases hactive
  · rw [if_neg hwanted] at happ ⊢
    have hversion : row.version = upload.version := by
      by_contra hne
      refine hwanted ⟨happ, ?_⟩
      simp [hne, hactive]
    rw [BinaryArtifactItem.slot, happ, hversion]

/-- An uploaded version is the only active one of its application. -/
theorem OneActive.replaceActive (h : OneActive rows) : OneActive (replaceActive upload rows) := by
  have hslot : ∀ row' ∈ BinaryReleases.replaceActive upload rows, row'.appId = upload.appId →
      row'.status = .active → row'.slot = (upload.appId, upload.version) :=
    fun row' hrow' happ hactive => slot_of_active_replaceActive hrow' happ hactive
  exact h.changed hslot fun other hne => rowsOf_replaceActive hne

/-- The retention activates nothing. -/
theorem OneActive.prune {releasesToKeep : Nat} {activeVersion : String} (h : OneActive rows) :
    OneActive (pruneUploadedBinaryReleases text activeVersion releasesToKeep appId rows).1 := by
  refine h.fewer fun row' hrow' hactive => ?_
  obtain ⟨row, hrow, hslot, rfl | hdisabled⟩ := of_mem_prune hrow'
  · exact ⟨row', hrow, hactive, hslot⟩
  · rw [hdisabled] at hactive
    cases hactive

/-- The version that an upload configures is registered. -/
theorem registered_replaceActive :
    Registered (upload.appId, upload.config) (replaceActive upload rows) := by
  have huploaded : Registered (upload.appId, upload.config) (registerUploaded upload rows) :=
    registered_insertOrUpdate (.uploaded upload) rfl rfl ArtifactStatus.active_ne_disabled
      (fun _ => rfl) fun _ => ArtifactStatus.active_ne_disabled
  obtain ⟨row, hrow, hslot, hpath, hstatus⟩ := huploaded
  refine ⟨row, mem_updateAt.mpr ⟨row, hrow, if_neg fun hwanted => ?_⟩, hslot, hpath, hstatus⟩
  have hversion : row.version = upload.version := congrArg Prod.snd hslot
  simp [hversion] at hwanted

/-- The active version is not disabled with the surplus. -/
theorem Registered.prune {releasesToKeep : Nat} (hkeyed : WellKeyed rows)
    (h : Registered entry rows) :
    Registered entry (pruneUploadedBinaryReleases text entry.2.artifactVersion releasesToKeep
      entry.1 rows).1 := by
  obtain ⟨row, hrow, hslot, hpath, hstatus⟩ := h
  rw [pruneUploadedBinaryReleases_eq]
  refine ⟨row, List.mem_map.mpr ⟨row, hrow, if_neg fun hid => ?_⟩, hslot, hpath, hstatus⟩
  obtain ⟨pruned, hpruned, heq⟩ := List.mem_map.mp hid
  obtain ⟨hmem, -, -, hversion⟩ := of_mem_prunedUploads hpruned
  obtain rfl := hkeyed.ids.eq hmem hrow heq
  exact hversion (congrArg Prod.snd hslot)

/-- An update that activates one row of an application. -/
theorem slot_of_active_updateAt (h : WellKeyed rows)
    (hchange : KeepsKeys change) (hactive : ∀ row, (change row).status = .active →
      row.id = artifactId)
    (hrow : row ∈ updateAt rows (·.appId) appId (fun row => row.status != .disabled) change)
    (hrow' : row' ∈ updateAt rows (·.appId) appId (fun row => row.status != .disabled) change)
    (happ : row.appId = appId) (happ' : row'.appId = appId) (hstatus : row.status = .active)
    (hstatus' : row'.status = .active) : row.slot = row'.slot := by
  have hid (row : BinaryArtifactItem)
      (hrow : row ∈ updateAt rows (·.appId) appId (fun row => row.status != .disabled) change)
      (happ : row.appId = appId) (hstatus : row.status = .active) : row.id = artifactId := by
    obtain ⟨old, hold, rfl⟩ := mem_updateAt.mp hrow
    split at happ <;> rename_i hwanted
    · rw [if_pos hwanted] at hstatus ⊢
      rw [hchange.id]
      exact hactive old hstatus
    · rw [if_neg hwanted] at hstatus
      exact absurd ⟨happ, by rw [hstatus]; rfl⟩ hwanted
  have hkeyed : WellKeyed
      (updateAt rows (·.appId) appId (fun row => row.status != .disabled) change) :=
    h.updateAt hchange
  rw [hkeyed.ids.eq hrow hrow'
    ((hid row hrow happ hstatus).trans (hid row' hrow' happ' hstatus').symm)]

/-- An update that activates one row leaves one active version. -/
theorem OneActive.updateAt (h : OneActive rows) (artifactId : Int) (hkeyed : WellKeyed rows)
    (hchange : KeepsKeys change) (hactive : ∀ row, (change row).status = .active →
      row.id = artifactId) :
    OneActive (updateAt rows (·.appId) appId (fun row => row.status != .disabled) change) := by
  intro row' hrow' next' hnext' hstatus hstatus' happ
  by_cases hown : row'.appId = appId
  · exact slot_of_active_updateAt hkeyed hchange hactive hrow' hnext' hown (happ.symm.trans hown)
      hstatus hstatus'
  · apply h row' _ next' _ hstatus hstatus' happ
    · exact mem_of_updateAt hrow' hchange.appId hown
    · exact mem_of_updateAt hnext' hchange.appId fun heq => hown (happ.trans heq)

/-- An update that keeps the path and disables nothing keeps a version registered. -/
theorem Registered.updateAt (h : Registered entry rows) (hchange : KeepsKeys change)
    (hpath : ∀ row, row.artifactPath = entry.2.artifactPath →
      (change row).artifactPath = entry.2.artifactPath)
    (hstatus : ∀ row, (change row).status ≠ .disabled) :
    Registered entry
      (updateAt rows (·.appId) appId (fun row => row.status != .disabled) change) := by
  obtain ⟨row, hrow, hslot, hrowPath, hrowStatus⟩ := h
  refine ⟨_, mem_updateAt.mpr ⟨row, hrow, rfl⟩, ?_⟩
  split
  · exact ⟨(hchange.slot row).trans hslot, hpath row hrowPath, hstatus row⟩
  · exact ⟨hslot, hrowPath, hrowStatus⟩

end EasyDeploy.BinaryReleases
