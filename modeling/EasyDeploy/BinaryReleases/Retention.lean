import EasyDeploy.BinaryReleases.Artifacts

/-!
# Uploads that are kept

An upload disables the uploads of its application behind the first ones in the
order of their version codes, and never the one that was uploaded just now. The
other statements make no row an upload that was none.
-/

namespace EasyDeploy.BinaryReleases
open Foundation
open Apps (BinaryConfigItem manualMetadata)

variable {text : JsonText} {appId other : Int} {activeVersion : String} {releasesToKeep : Nat}
  {rows : ArtifactTable} {row : BinaryArtifactItem}
  {change : BinaryArtifactItem → BinaryArtifactItem}

/-- An upload that is not disabled. -/
def BinaryArtifactItem.isRetained (text : JsonText) (row : BinaryArtifactItem) : Bool :=
  row.isUpload text && row.status != .disabled

/-- The uploads of an application that are not disabled. -/
def retainedUploads (text : JsonText) (appId : Int) (rows : ArtifactTable) : ArtifactTable :=
  rows.filter fun row => row.appId == appId && row.isRetained text

/-- The versions of an application. -/
def rowsOf (appId : Int) (rows : ArtifactTable) : ArtifactTable :=
  rows.filter fun row => row.appId == appId

theorem mem_rowsOf : row ∈ rowsOf appId rows ↔ row ∈ rows ∧ row.appId = appId := by
  simp [rowsOf]

theorem retainedUploads_rowsOf : retainedUploads text appId (rowsOf appId rows) =
    retainedUploads text appId rows := by
  rw [retainedUploads, rowsOf, List.filter_filter, retainedUploads]
  refine List.filter_congr fun row _ => ?_
  cases row.appId == appId <;> simp

/-- The uploads behind the first ones, without the version that stays active. -/
def surplusUploads (text : JsonText) (activeVersion : String) (releasesToKeep : Nat)
    (rows : ArtifactTable) : ArtifactTable :=
  ((rows.filter (·.isUpload text)).drop releasesToKeep).filter fun row =>
    row.version != activeVersion

theorem foldl_visit (rows : ArtifactTable) (selection : PruneSelection) :
    rows.foldl (PruneSelection.visit text activeVersion releasesToKeep) selection =
      let surplus := surplusUploads text activeVersion (releasesToKeep - selection.seenUploads) rows
      ⟨selection.seenUploads + (rows.filter (·.isUpload text)).length,
        selection.pruneIds ++ surplus.map (·.id),
        selection.prunedVersions ++ surplus.map (·.version)⟩ := by
  induction rows generalizing selection with
  | nil => simp [surplusUploads]
  | cons row rows ih =>
      rw [List.foldl_cons, ih]
      by_cases hupload : row.isUpload text = true
      · have hsource : (row.metadataValue text "source" != "upload") = false := by
          rw [bne, Bool.not_eq_false']
          exact hupload
        simp only [surplusUploads, List.filter_cons, hupload, if_true]
        by_cases hkeep : releasesToKeep < selection.seenUploads + 1
        · -- The first ones have been seen.
          have hnone : releasesToKeep - selection.seenUploads = 0 := by omega
          have hnone' : releasesToKeep - (selection.seenUploads + 1) = 0 := by omega
          by_cases hactive : row.version = activeVersion
          · simp [PruneSelection.visit, hsource, hactive, hnone, hnone', Nat.add_assoc,
              Nat.add_comm 1]
          · simp [PruneSelection.visit, hsource, hactive, hkeep, hnone, hnone', Nat.add_assoc,
              Nat.add_comm 1]
        · obtain ⟨rest, hrest⟩ : ∃ rest, releasesToKeep - selection.seenUploads = rest + 1 :=
            ⟨releasesToKeep - selection.seenUploads - 1, by omega⟩
          have hrest' : releasesToKeep - (selection.seenUploads + 1) = rest := by omega
          by_cases hactive : row.version = activeVersion
          · simp [PruneSelection.visit, hsource, hactive, hrest, hrest', Nat.add_assoc,
              Nat.add_comm 1]
          · simp [PruneSelection.visit, hsource, hactive, hkeep, hrest, hrest', Nat.add_assoc,
              Nat.add_comm 1]
      · have hsource : (row.metadataValue text "source" != "upload") = true := by
          rw [bne, Bool.not_eq_true']
          exact Bool.eq_false_iff.mpr hupload
        have hskip : PruneSelection.visit text activeVersion releasesToKeep selection row =
            selection := by
          rw [PruneSelection.visit, if_pos hsource]
        rw [hskip]
        simp only [surplusUploads, List.filter_cons, hupload]
        rfl

theorem selectUploadedBinaryReleasePrunes_eq (rows : ArtifactTable) :
    selectUploadedBinaryReleasePrunes text activeVersion releasesToKeep rows =
      ((surplusUploads text activeVersion (max releasesToKeep 1) rows).map (·.id),
        (surplusUploads text activeVersion (max releasesToKeep 1) rows).map (·.version)) := by
  rw [selectUploadedBinaryReleasePrunes, foldl_visit]
  simp

theorem foldl_disableArtifact (ids : List Int) (rows : ArtifactTable) :
    ids.foldl (fun rows artifactId => disableArtifact artifactId rows) rows =
      rows.map fun row => if row.id ∈ ids then { row with status := .disabled } else row := by
  induction ids generalizing rows with
  | nil => simp
  | cons first ids ih =>
      rw [List.foldl_cons, ih, disableArtifact, updateAt, List.map_map]
      refine List.map_congr_left fun row _ => ?_
      by_cases hfirst : row.id = first
      · simp [hfirst]
      · simp [hfirst]

/-- The uploads that a transaction disables. -/
def prunedUploads (text : JsonText) (activeVersion : String) (releasesToKeep : Nat) (appId : Int)
    (rows : ArtifactTable) : ArtifactTable :=
  surplusUploads text activeVersion (max releasesToKeep 1) (enabledArtifacts appId rows)

theorem pruneUploadedBinaryReleases_eq (appId : Int) (rows : ArtifactTable) :
    pruneUploadedBinaryReleases text activeVersion releasesToKeep appId rows =
      let pruned := prunedUploads text activeVersion releasesToKeep appId rows
      (rows.map fun row =>
        if row.id ∈ pruned.map (·.id) then { row with status := .disabled } else row,
        pruned.map (·.version)) := by
  rw [pruneUploadedBinaryReleases, selectUploadedBinaryReleasePrunes_eq, foldl_disableArtifact]
  rfl

theorem mem_enabledArtifacts : row ∈ enabledArtifacts appId rows ↔
    row ∈ rows ∧ row.appId = appId ∧ row.status ≠ .disabled := by
  rw [enabledArtifacts, sortBy_perm.mem_iff]
  simp

theorem of_mem_prunedUploads
    (h : row ∈ prunedUploads text activeVersion releasesToKeep appId rows) :
    row ∈ rows ∧ row.appId = appId ∧ row.isRetained text = true ∧ row.version ≠ activeVersion := by
  obtain ⟨hdrop, hversion⟩ := List.mem_filter.mp h
  obtain ⟨hmem, hupload⟩ := List.mem_filter.mp (List.mem_of_mem_drop hdrop)
  obtain ⟨hrow, happ, hstatus⟩ := mem_enabledArtifacts.mp hmem
  refine ⟨hrow, happ, ?_, bne_iff_ne.mp hversion⟩
  rw [BinaryArtifactItem.isRetained, hupload, Bool.true_and]
  exact bne_iff_ne.mpr hstatus

/-- The versions that a transaction disables. -/
theorem exists_of_mem_prunedVersions {version : String}
    (h : version ∈ (pruneUploadedBinaryReleases text activeVersion releasesToKeep appId rows).2) :
    ∃ row ∈ rows, row.isRetained text = true ∧ row.version ≠ activeVersion ∧
      row.version = version := by
  rw [pruneUploadedBinaryReleases_eq] at h
  obtain ⟨row, hrow, rfl⟩ := List.mem_map.mp h
  obtain ⟨hmem, -, hretained, hversion⟩ := of_mem_prunedUploads hrow
  exact ⟨row, hmem, hretained, hversion, rfl⟩

theorem not_isRetained_of_pruned (hkeyed : WellKeyed rows) {version : String}
    (hrow : row ∈ (pruneUploadedBinaryReleases text activeVersion releasesToKeep appId rows).1)
    (h : version ∈ (pruneUploadedBinaryReleases text activeVersion releasesToKeep appId rows).2)
    (hslot : row.slot = (appId, version)) : row.isRetained text = false := by
  rw [pruneUploadedBinaryReleases_eq] at hrow h
  obtain ⟨pruned, hpruned, rfl⟩ := List.mem_map.mp h
  obtain ⟨hmem, happ, -, -⟩ := of_mem_prunedUploads hpruned
  obtain ⟨old, hold, rfl⟩ := List.mem_map.mp hrow
  have hsame : old.slot = pruned.slot := by
    rw [BinaryArtifactItem.slot, BinaryArtifactItem.slot, happ, ← hslot]
    split <;> rfl
  obtain rfl := hkeyed.slots.eq hold hmem hsame
  rw [if_pos (List.mem_map_of_mem hpruned), BinaryArtifactItem.isRetained]
  exact Bool.and_false _

/-- At most one row of an application has a version. -/
theorem WellKeyed.countP_version_le (h : WellKeyed rows) {uploads : ArtifactTable}
    (hsub : uploads.Sublist (retainedUploads text appId rows)) :
    uploads.countP (fun row => row.version == activeVersion) ≤ 1 := by
  have hslots : (uploads.map (·.slot)).Nodup :=
    (h.slots.sublist ((hsub.trans List.filter_sublist).map _))
  have hcount := List.nodup_iff_count_le_one.mp hslots (appId, activeVersion)
  rw [List.count, List.countP_map] at hcount
  refine Nat.le_trans (Nat.le_of_eq (List.countP_congr fun row hrow => ?_)) hcount
  have happ := (List.mem_filter.mp (hsub.subset hrow)).2
  rw [Bool.and_eq_true, beq_iff_eq] at happ
  simp [BinaryArtifactItem.slot, happ.1]

/-- A transaction leaves the uploads that fit, and the one that was uploaded just now. -/
theorem length_retainedUploads_prune (h : WellKeyed rows) :
    (retainedUploads text appId
      (pruneUploadedBinaryReleases text activeVersion releasesToKeep appId rows).1).length ≤
      max releasesToKeep 1 + 1 := by
  rw [pruneUploadedBinaryReleases_eq]
  set pruned := prunedUploads text activeVersion releasesToKeep appId rows with hpruned
  set uploads := (enabledArtifacts appId rows).filter (·.isUpload text) with huploads
  have hperm : uploads.Perm (retainedUploads text appId rows) := by
    refine (sortBy_perm.filter _).trans (List.Perm.of_eq ?_)
    rw [List.filter_filter, retainedUploads]
    refine List.filter_congr fun row _ => ?_
    rw [BinaryArtifactItem.isRetained, Bool.and_left_comm]
  have hstay : (retainedUploads text appId (rows.map fun row =>
      if row.id ∈ pruned.map (·.id) then { row with status := .disabled } else row)).length =
      uploads.countP fun row => row.id ∉ pruned.map (·.id) := by
    rw [hperm.countP_eq, retainedUploads, ← List.countP_eq_length_filter, List.countP_map,
      retainedUploads, List.countP_filter]
    refine List.countP_congr fun row _ => ?_
    rw [Function.comp_apply]
    split <;> rename_i hid
    · simp [BinaryArtifactItem.isRetained, hid]
    · simp [hid, BinaryArtifactItem.isRetained]
  rw [hstay, ← List.take_append_drop (max releasesToKeep 1) uploads, List.countP_append]
  refine Nat.add_le_add (List.countP_le_length.trans (List.length_take_le _ _)) ?_
  -- Behind the first ones only the active version is not pruned.
  refine (List.countP_mono_left (q := fun row => row.version == activeVersion)
    fun row hrow hid => ?_).trans ?_
  · by_contra hversion
    refine of_decide_eq_true hid (List.mem_map_of_mem ?_)
    exact List.mem_filter.mpr ⟨hrow, bne_iff_ne.mpr fun heq => hversion (beq_iff_eq.mpr heq)⟩
  · have hdrop : (retainedUploads text appId rows).countP
        (fun row => row.version == activeVersion) ≤ 1 := h.countP_version_le (.refl _)
    rw [← hperm.countP_eq] at hdrop
    exact (List.Sublist.countP_le (List.drop_sublist _ _)).trans hdrop

end EasyDeploy.BinaryReleases
