import EasyDeploy.Apps.PackageNames
import EasyDeploy.Apps.Settings
import EasyDeploy.Foundation.Sequences
import EasyDeploy.ReleaseQueue.Bindings

/-!
# Versions of binary applications

A binary application has a row for each of its versions. Uploads, configurations
and snapshots write the same rows, and each upload disables the uploads that are
too many. A row says where it came from in its metadata, which are JSON text.
-/

namespace EasyDeploy.BinaryReleases
open Foundation
open Apps (AppDetailItem BinaryConfigItem manualMetadata valueGet)

/-- What a version consists of. -/
inductive ArtifactKind
  | binary
  | tarGz
deriving Repr, DecidableEq

/-- How a version is used. -/
inductive ArtifactStatus
  | registered
  | active
  | disabled
deriving Repr, DecidableEq

/-- A row of `binary_artifacts`. -/
structure BinaryArtifactItem where
  id : Int
  appId : Int
  version : String
  versionCode : Int
  artifactPath : String
  artifactKind : ArtifactKind
  status : ArtifactStatus
  metadata : String
  publishedAt : String
deriving Repr, DecidableEq

/-- A version is unique in its application. -/
def BinaryArtifactItem.slot (row : BinaryArtifactItem) : Int × String := (row.appId, row.version)

/-- The versions of all applications. -/
abbrev ArtifactTable := List BinaryArtifactItem

/-- A field as text. -/
def fieldText : Json → Option String
  | .string value => some value
  | .int value => some (toString value)
  | .bool value => some (if value then "true" else "false")
  | _ => none

/-- A field of the metadata, empty when there is none. -/
def artifactMetadataValue (text : JsonText) (metadata key : String) : String :=
  (((text.fromStr metadata).toOption.bind (valueGet key)).bind fieldText).getD ""

/-- The same of a row. -/
def BinaryArtifactItem.metadataValue (text : JsonText) (row : BinaryArtifactItem) (key : String) :
    String :=
  artifactMetadataValue text row.metadata key

/-- A row that counts for the retention of uploads. -/
def BinaryArtifactItem.isUpload (text : JsonText) (row : BinaryArtifactItem) : Bool :=
  row.metadataValue text "source" == "upload"

/-- `INSERT .. ON CONFLICT(app_id, version) DO UPDATE`. -/
def insertOrUpdate (row : BinaryArtifactItem) (change : BinaryArtifactItem → BinaryArtifactItem)
    (rows : ArtifactTable) : ArtifactTable :=
  if rows.any fun old => old.slot == row.slot then
    updateAt rows (·.slot) row.slot (fun _ => true) change
  else
    rows ++ [{ row with id := nextId (rows.map (·.id)) }]

/-- The row of `upsert_binary_config`. -/
def registerConfigured (appId : Int) (config : BinaryConfigItem) (rows : ArtifactTable) :
    ArtifactTable :=
  insertOrUpdate
    { id := 0, appId, version := config.artifactVersion, versionCode := 0
      artifactPath := config.artifactPath, artifactKind := .binary, status := .registered
      metadata := manualMetadata config, publishedAt := "" }
    (fun row =>
      { row with
        artifactPath := config.artifactPath, status := .registered
        metadata := manualMetadata config })
    rows

/-- The row of `create_app`. -/
def registerInitial (appId : Int) (config : BinaryConfigItem) (now : String)
    (rows : ArtifactTable) : ArtifactTable :=
  let versionCode := (Apps.versionCodeFromRelease config.artifactVersion).getD 0
  insertOrUpdate
    { id := 0, appId, version := config.artifactVersion, versionCode
      artifactPath := config.artifactPath, artifactKind := .binary, status := .registered
      metadata := manualMetadata config, publishedAt := now }
    (fun row =>
      { row with
        versionCode, artifactPath := config.artifactPath, status := .registered
        publishedAt := now, metadata := manualMetadata config })
    rows

/-- What `register_binary_artifact` has made of a package before its transaction; the version and
the path are those of the configuration. -/
structure PreparedUpload where
  appId : Int
  versionCode : Int
  artifactKind : ArtifactKind
  publishedAt : String
  metadata : String
  config : BinaryConfigItem
deriving Repr, DecidableEq

/-- The version that is uploaded. -/
def PreparedUpload.version (upload : PreparedUpload) : String := upload.config.artifactVersion

/-- The row of `register_binary_artifact`. -/
def registerUploaded (upload : PreparedUpload) (rows : ArtifactTable) : ArtifactTable :=
  insertOrUpdate
    { id := 0, appId := upload.appId, version := upload.version, versionCode := upload.versionCode
      artifactPath := upload.config.artifactPath, artifactKind := upload.artifactKind
      status := .active, metadata := upload.metadata, publishedAt := upload.publishedAt }
    (fun row =>
      { row with
        versionCode := upload.versionCode, artifactPath := upload.config.artifactPath
        artifactKind := upload.artifactKind, status := .active
        publishedAt := upload.publishedAt, metadata := upload.metadata })
    rows

/-- The versions that were active before an upload. -/
def demoteOthers (appId : Int) (version : String) (rows : ArtifactTable) : ArtifactTable :=
  updateAt rows (·.appId) appId (fun row => row.version != version && row.status == .active)
    fun row => { row with status := .registered }

/-- The statement of `deploy_binary_artifact`: the columns are those that were read. -/
def activateDeployed (appId : Int) (artifact : BinaryArtifactItem) (rows : ArtifactTable) :
    ArtifactTable :=
  updateAt rows (·.appId) appId (fun row => row.status != .disabled) fun row =>
    if row.id = artifact.id then
      { row with
        status := .active, metadata := artifact.metadata, artifactPath := artifact.artifactPath }
    else
      { row with status := .registered }

/-- The statement of `restore_config_snapshot`. -/
def activateRestored (appId artifactId : Int) (rows : ArtifactTable) : ArtifactTable :=
  updateAt rows (·.appId) appId (fun row => row.status != .disabled) fun row =>
    { row with status := if row.id = artifactId then .active else .registered }

/-- A version is not used any more. -/
def disableArtifact (artifactId : Int) (rows : ArtifactTable) : ArtifactTable :=
  updateAt rows (·.id) artifactId (fun _ => true) fun row => { row with status := .disabled }

/-- `ORDER BY version_code DESC, published_at DESC, id DESC`. -/
def releaseOrder (row other : BinaryArtifactItem) : Bool :=
  other.versionCode < row.versionCode || (other.versionCode == row.versionCode &&
    (other.publishedAt < row.publishedAt || (other.publishedAt == row.publishedAt &&
      other.id ≤ row.id)))

/-- The rows that `prune_uploaded_binary_releases` reads. -/
def enabledArtifacts (appId : Int) (rows : ArtifactTable) : ArtifactTable :=
  sortBy releaseOrder (rows.filter fun row => row.appId == appId && row.status != .disabled)

/-- What has been chosen so far. -/
structure PruneSelection where
  seenUploads : Nat
  pruneIds : List Int
  prunedVersions : List String
deriving Repr, DecidableEq

section Selection

variable (text : JsonText) (activeVersion : String) (releasesToKeep : Nat)

/-- One row is looked at. -/
def PruneSelection.visit (selection : PruneSelection) (row : BinaryArtifactItem) :
    PruneSelection :=
  if row.metadataValue text "source" != "upload" then selection
  else
    let seenUploads := selection.seenUploads + 1
    if row.version = activeVersion then { selection with seenUploads }
    else if releasesToKeep < seenUploads then
      ⟨seenUploads, selection.pruneIds ++ [row.id], selection.prunedVersions ++ [row.version]⟩
    else { selection with seenUploads }

/-- The uploads that are disabled and the directories that are removed. -/
def selectUploadedBinaryReleasePrunes (rows : ArtifactTable) : List Int × List String :=
  let selection := rows.foldl (PruneSelection.visit text activeVersion (max releasesToKeep 1))
    ⟨0, [], []⟩
  (selection.pruneIds, selection.prunedVersions)

/-- The rows afterwards, and the versions that are disabled now. -/
def pruneUploadedBinaryReleases (appId : Int) (rows : ArtifactTable) :
    ArtifactTable × List String :=
  let selected := selectUploadedBinaryReleasePrunes text activeVersion releasesToKeep
    (enabledArtifacts appId rows)
  (selected.1.foldl (fun rows artifactId => disableArtifact artifactId rows) rows, selected.2)

end Selection

/-- The columns that do not change: identifiers and versions. -/
structure WellKeyed (rows : ArtifactTable) : Prop where
  ids : Keyed rows (·.id)
  slots : Keyed rows (·.slot)

section Statements

variable {rows : ArtifactTable} {row : BinaryArtifactItem}
  {change : BinaryArtifactItem → BinaryArtifactItem}

theorem WellKeyed.nil : WellKeyed [] := ⟨List.nodup_nil, List.nodup_nil⟩

/-- An update leaves identifiers and versions alone. -/
structure KeepsKeys (change : BinaryArtifactItem → BinaryArtifactItem) : Prop where
  id : ∀ row, (change row).id = row.id
  appId : ∀ row, (change row).appId = row.appId
  version : ∀ row, (change row).version = row.version

theorem KeepsKeys.slot (h : KeepsKeys change) (row : BinaryArtifactItem) :
    (change row).slot = row.slot := by
  rw [BinaryArtifactItem.slot, h.appId, h.version, BinaryArtifactItem.slot]

/-- The slots of the rows that a statement selects, and of the others. -/
theorem KeepsKeys.slot_ite (h : KeepsKeys change) (selected : Prop) [Decidable selected]
    (row : BinaryArtifactItem) : (if selected then change row else row).slot = row.slot := by
  split
  · exact h.slot row
  · rfl

theorem WellKeyed.updateAt {κ : Type} [DecidableEq κ] (h : WellKeyed rows)
    {key : BinaryArtifactItem → κ} {target : κ} {guard : BinaryArtifactItem → Bool}
    (hchange : KeepsKeys change) : WellKeyed (updateAt rows key target guard change) where
  ids := by
    rw [Keyed, map_updateAt hchange.id]
    exact h.ids
  slots := by
    rw [Keyed, map_updateAt hchange.slot]
    exact h.slots

theorem WellKeyed.insertOrUpdate (h : WellKeyed rows) (hchange : KeepsKeys change) :
    WellKeyed (insertOrUpdate row change rows) := by
  unfold BinaryReleases.insertOrUpdate
  split
  · exact h.updateAt hchange
  · rename_i hnone
    constructor
    · apply h.ids.append
      intro hmem
      exact absurd (lt_nextId hmem) (Int.lt_irrefl _)
    · apply h.slots.append
      intro hmem
      obtain ⟨old, hold, heq⟩ := List.mem_map.mp hmem
      exact hnone (List.any_eq_true.mpr ⟨old, hold, beq_iff_eq.mpr heq⟩)

/-- The row of the slot after an insertion, and the rows of the other slots. -/
theorem mem_insertOrUpdate {row' : BinaryArtifactItem} (hchange : KeepsKeys change)
    (h : row' ∈ insertOrUpdate row change rows) :
    (row'.slot = row.slot ∧ (row' = { row with id := nextId (rows.map (·.id)) } ∨
      ∃ old ∈ rows, old.slot = row.slot ∧ row' = change old)) ∨
    (row' ∈ rows ∧ row'.slot ≠ row.slot) := by
  unfold insertOrUpdate at h
  split at h
  · obtain ⟨old, hold, rfl⟩ := mem_updateAt.mp h
    split
    · rename_i hwanted
      exact .inl ⟨(hchange.slot old).trans hwanted.1, .inr ⟨old, hold, hwanted.1, rfl⟩⟩
    · rename_i hother
      exact .inr ⟨hold, fun heq => hother ⟨heq, rfl⟩⟩
  · rename_i hnone
    rcases List.mem_append.mp h with h | h
    · refine .inr ⟨h, fun heq => hnone ?_⟩
      exact List.any_eq_true.mpr ⟨row', h, beq_iff_eq.mpr heq⟩
    · obtain rfl := List.mem_singleton.mp h
      exact .inl ⟨rfl, .inl rfl⟩

/-- The slot is taken afterwards. -/
theorem exists_mem_insertOrUpdate (hchange : KeepsKeys change) :
    ∃ row' ∈ insertOrUpdate row change rows, row'.slot = row.slot := by
  unfold insertOrUpdate
  split
  · rename_i hany
    obtain ⟨old, hold, heq⟩ := List.any_eq_true.mp hany
    have hslot := beq_iff_eq.mp heq
    exact ⟨change old, mem_updateAt.mpr ⟨old, hold, if_pos ⟨hslot, rfl⟩⟩,
      (hchange.slot old).trans hslot⟩
  · exact ⟨_, List.mem_append_right _ (List.mem_singleton_self _), rfl⟩

/-- A version that has a row takes its columns from the configuration. -/
theorem registerConfigured_of_taken {appId : Int} {config : BinaryConfigItem}
    (h : (rows.any fun old => old.slot == (appId, config.artifactVersion)) = true) :
    registerConfigured appId config rows =
      updateAt rows (·.slot) (appId, config.artifactVersion) (fun _ => true) fun row =>
        { row with
          artifactPath := config.artifactPath, status := .registered
          metadata := manualMetadata config } :=
  if_pos h

end Statements

/-- The word in the database. -/
def ArtifactKind.text : ArtifactKind → String
  | .binary => "binary"
  | .tarGz => "tar_gz"

/-- The word in the database. -/
def ArtifactStatus.text : ArtifactStatus → String
  | .registered => "registered"
  | .active => "active"
  | .disabled => "disabled"

/-- The columns that `upsert_binary_config` reads and writes. -/
def BinaryArtifactItem.artifact (row : BinaryArtifactItem) : Apps.BinaryArtifact where
  appId := row.appId
  version := row.version
  artifactPath := row.artifactPath
  artifactKind := row.artifactKind.text
  status := row.status.text
  metadata := row.metadata

/-- The row of a configuration is the one that edits of the settings write. -/
theorem map_artifact_registerConfigured (appId : Int) (config : BinaryConfigItem)
    (rows : ArtifactTable) : (registerConfigured appId config rows).map (·.artifact) =
      Apps.upsertArtifact appId config (rows.map (·.artifact)) := by
  have hany : (rows.map (·.artifact)).any (fun row =>
      row.appId == appId && row.version == config.artifactVersion) =
      rows.any fun old => old.slot == (appId, config.artifactVersion) := by
    rw [List.any_map]
    rfl
  have hslot (row : BinaryArtifactItem) : row.slot = (appId, config.artifactVersion) ∧ true = true ↔
      row.appId = appId ∧ row.version = config.artifactVersion := by
    rw [BinaryArtifactItem.slot, Prod.mk.injEq, and_iff_left rfl]
  cases htaken : rows.any fun old => old.slot == (appId, config.artifactVersion) with
  | true =>
      rw [registerConfigured_of_taken htaken, Apps.upsertArtifact, if_pos (hany.trans htaken),
        updateAt, List.map_map, List.map_map]
      refine List.map_congr_left fun row _ => ?_
      rw [Function.comp_apply, Function.comp_apply]
      by_cases hwanted : row.appId = appId ∧ row.version = config.artifactVersion
      · rw [if_pos ((hslot row).mpr hwanted)]
        exact (if_pos hwanted).symm
      · rw [if_neg fun h => hwanted ((hslot row).mp h)]
        exact (if_neg hwanted).symm
  | false =>
      have hrows : registerConfigured appId config rows = rows ++ [_] :=
        if_neg (Bool.eq_false_iff.mp htaken)
      rw [hrows, Apps.upsertArtifact, if_neg (Bool.eq_false_iff.mp (hany.trans htaken)),
        List.map_append]
      rfl

end EasyDeploy.BinaryReleases
