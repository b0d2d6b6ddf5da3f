import EasyDeploy.Apps.SnapshotRestore
import EasyDeploy.Foundation.Results
import EasyDeploy.Foundation.Transition
import EasyDeploy.ReleaseQueue.Tables

/-!
# Releases and the configurations they are bound to

A release names its configuration snapshot in its metadata, and so do the queue
items of the release in a column. The operations that write either are each run
to its end; an operation that fails rolls its transaction back. What an upload
does to files and to its session is not part of them.
-/

namespace EasyDeploy.ReleaseQueue
open Foundation
open Apps (valueGet asI64 asI64_toInt isObject)

/-- What is noted of a package. -/
structure ArtifactMetadataInput where
  source : String
  sourceDetail : String
  unitName : String
  uploadedPath : String
  originalFileName : String
  entryFile : String
  sha256 : String
  sizeBytes : UInt64
  configSnapshotId : Option Int64
  configRevisionNo : Option Int64
deriving Repr, DecidableEq

/-- Where a package is stored. -/
structure ArtifactStorageMetadataInput where
  provider : String
  bucket : String
  objectKey : String
  objectVersionId : String
  integrity : String
  endpoint : String
deriving Repr, DecidableEq

/-- `value[name] = field` for an object. -/
def setField (name : String) (field : Json) : Json → Json
  | .object fields => .object (Json.insertField name field fields)
  | value => value

/-- A field that is set when it has a value. -/
def setOptional (name : String) (field : Option Int64) (value : Json) : Json :=
  match field with
  | some number => setField name (.int number.toInt) value
  | none => value

/-- The metadata of a package. -/
def artifactMetadataValueJson (input : ArtifactMetadataInput) : Json :=
  setOptional "config_revision_no" input.configRevisionNo
    (setOptional "config_snapshot_id" input.configSnapshotId
      (.object [
        ("entry_file", .string input.entryFile),
        ("original_file_name", .string input.originalFileName),
        ("sha256", .string input.sha256),
        ("size_bytes", .int input.sizeBytes.toNat),
        ("source", .string input.source),
        ("source_detail", .string input.sourceDetail),
        ("unit_name", .string input.unitName),
        ("uploaded_path", .string input.uploadedPath)]))

/-- The fields that tell where it is. -/
def ArtifactStorageMetadataInput.fields (storage : ArtifactStorageMetadataInput) :
    List (String × String) :=
  [("storage_provider", storage.provider), ("storage_bucket", storage.bucket),
    ("storage_object_key", storage.objectKey),
    ("storage_object_version_id", storage.objectVersionId),
    ("storage_integrity", storage.integrity), ("storage_endpoint", storage.endpoint)]

/-- The metadata with these fields. -/
def withStorage (storage : ArtifactStorageMetadataInput) (metadata : Json) : Json :=
  storage.fields.foldl (fun metadata entry => setField entry.1 (.string entry.2) metadata) metadata

section Text

variable (text : JsonText)

/-- Metadata as text. -/
def writeValue (value : Json) : Except AppError String := (text.toString value).mapError .internal

/-- The text of the metadata. -/
def renderArtifactMetadata (input : ArtifactMetadataInput) : Except AppError String :=
  writeValue text (artifactMetadataValueJson input)

/-- The text with the place of the package. -/
def renderArtifactMetadataWithStorage (input : ArtifactMetadataInput)
    (storage : ArtifactStorageMetadataInput) : Except AppError String :=
  writeValue text (withStorage storage (artifactMetadataValueJson input))

/-- A number that the metadata give under a name. -/
def metadataNumber (name metadata : String) : Option Int64 :=
  (text.fromStr metadata).toOption.bind fun value => (valueGet name value).bind asI64

/-- The snapshot that the metadata name. -/
def releaseMetadataSnapshotId (metadata : String) : Option Int64 :=
  metadataNumber text "config_snapshot_id" metadata

/-- The value that the fields of a binding are set in. -/
def metadataValue (metadata : String) : Except AppError Json :=
  if trim metadata = "" then .ok (.object [])
  else ((text.fromStr metadata).mapError fun _ => .invalidInput "发布版本元数据格式损坏").map
    fun value => if isObject value then value else .object []

/-- The metadata with another snapshot. -/
def releaseMetadataWithSnapshot (metadata : String) (snapshotId : Int64)
    (revisionNo : Option Int64) : Except AppError String := do
  let value ← metadataValue text metadata
  writeValue text (setOptional "config_revision_no" revisionNo
    (setOptional "config_snapshot_id" (some snapshotId) value))

end Text

section Metadata

variable {text : JsonText} {key name metadata written : String} {field value : Json}
  {snapshotId revisionNo : Int64}

theorem isObject_setField (h : isObject value = true) :
    isObject (setField name field value) = true := by
  cases value with
  | object fields => rfl
  | _ => cases h

theorem sorted_setField (h : value.sorted = true) (hfield : field.sorted = true) :
    (setField name field value).sorted = true := by
  cases value with
  | object fields => exact Json.sortedFields_insertField h hfield
  | _ => exact h

/-- A field that was set is the only one that changed. -/
theorem valueGet_setField (h : isObject value = true) :
    valueGet key (setField name field value) =
      if name = key then some field else valueGet key value := by
  cases value with
  | object fields => exact Json.find?_insertField fields key
  | _ => cases h

theorem sorted_setOptional {number : Option Int64} (h : value.sorted = true) :
    (setOptional name number value).sorted = true := by
  cases number with
  | none => exact h
  | some number => exact sorted_setField h rfl

theorem isObject_setOptional {number : Option Int64} (h : isObject value = true) :
    isObject (setOptional name number value) = true := by
  cases number with
  | none => exact h
  | some number => exact isObject_setField h

theorem valueGet_setOptional {number : Int64} (h : isObject value = true) :
    valueGet key (setOptional name (some number) value) =
      if name = key then some (.int number.toInt) else valueGet key value :=
  valueGet_setField h

/-- A number of a written value. -/
theorem metadataNumber_writeValue (htext : text.KeepsValues) (hsorted : value.sorted = true)
    (hwritten : writeValue text value = .ok written) :
    metadataNumber text name written = (valueGet name value).bind asI64 := by
  rw [metadataNumber, htext.roundTrips value written hsorted (mapError_eq_ok hwritten)]
  rfl

/-- The two numbers of a binding, read from a value that has them as fields. -/
theorem numbers_of_fields (htext : text.KeepsValues) (hsorted : value.sorted = true)
    (hwritten : writeValue text value = .ok written)
    (hid : valueGet "config_snapshot_id" value = some (.int snapshotId.toInt))
    (hrevision : valueGet "config_revision_no" value = some (.int revisionNo.toInt)) :
    releaseMetadataSnapshotId text written = some snapshotId ∧
    metadataNumber text "config_revision_no" written = some revisionNo := by
  constructor
  · rw [releaseMetadataSnapshotId, metadataNumber_writeValue htext hsorted hwritten, hid]
    exact asI64_toInt snapshotId
  · rw [metadataNumber_writeValue htext hsorted hwritten, hrevision]
    exact asI64_toInt revisionNo

theorem fields_of_binding (h : isObject value = true) :
    valueGet "config_snapshot_id" (setOptional "config_revision_no" (some revisionNo)
      (setOptional "config_snapshot_id" (some snapshotId) value)) =
        some (.int snapshotId.toInt) ∧
    valueGet "config_revision_no" (setOptional "config_revision_no" (some revisionNo)
      (setOptional "config_snapshot_id" (some snapshotId) value)) =
        some (.int revisionNo.toInt) := by
  constructor
  · rw [valueGet_setOptional (isObject_setOptional h), if_neg (by decide),
      valueGet_setOptional h, if_pos rfl]
  · rw [valueGet_setOptional (isObject_setOptional h), if_pos rfl]

section Render

variable {input : ArtifactMetadataInput} {storage : ArtifactStorageMetadataInput}

theorem isObject_artifactMetadataValueJson : isObject (artifactMetadataValueJson input) = true :=
  isObject_setOptional (isObject_setOptional rfl)

theorem sorted_artifactMetadataValueJson : (artifactMetadataValueJson input).sorted = true := by
  apply sorted_setOptional
  apply sorted_setOptional
  simp only [Json.sorted, Json.sortedFields, List.all_cons, List.all_nil, Bool.and_eq_true,
    decide_eq_true_eq]
  and_intros
  all_goals decide

theorem fields_artifactMetadataValueJson (hid : input.configSnapshotId = some snapshotId)
    (hrevision : input.configRevisionNo = some revisionNo) :
    valueGet "config_snapshot_id" (artifactMetadataValueJson input) =
      some (.int snapshotId.toInt) ∧
    valueGet "config_revision_no" (artifactMetadataValueJson input) =
      some (.int revisionNo.toInt) := by
  rw [artifactMetadataValueJson, hid, hrevision]
  exact fields_of_binding rfl

/-- The fields of the storage leave the other fields as they are. -/
theorem valueGet_withStorage (h : isObject value = true) (hkey : key ∉ storage.fields.map (·.1)) :
    valueGet key (withStorage storage value) = valueGet key value := by
  unfold withStorage
  generalize storage.fields = entries at hkey
  induction entries generalizing value with
  | nil => rfl
  | cons entry rest ih =>
      rw [List.map_cons, List.mem_cons, not_or] at hkey
      rw [List.foldl_cons, ih (isObject_setField h) hkey.2, valueGet_setField h,
        if_neg (Ne.symm hkey.1)]

theorem sorted_withStorage (h : value.sorted = true) :
    (withStorage storage value).sorted = true := by
  unfold withStorage
  generalize storage.fields = entries
  induction entries generalizing value with
  | nil => exact h
  | cons entry rest ih => exact ih (sorted_setField h rfl)

theorem numbers_renderArtifactMetadata (htext : text.KeepsValues)
    (hid : input.configSnapshotId = some snapshotId)
    (hrevision : input.configRevisionNo = some revisionNo)
    (hwritten : renderArtifactMetadata text input = .ok written) :
    releaseMetadataSnapshotId text written = some snapshotId ∧
    metadataNumber text "config_revision_no" written = some revisionNo := by
  obtain ⟨hid, hrevision⟩ := fields_artifactMetadataValueJson hid hrevision
  exact numbers_of_fields htext sorted_artifactMetadataValueJson hwritten hid hrevision

theorem numbers_renderArtifactMetadataWithStorage (htext : text.KeepsValues)
    (hid : input.configSnapshotId = some snapshotId)
    (hrevision : input.configRevisionNo = some revisionNo)
    (hwritten : renderArtifactMetadataWithStorage text input storage = .ok written) :
    releaseMetadataSnapshotId text written = some snapshotId ∧
    metadataNumber text "config_revision_no" written = some revisionNo := by
  obtain ⟨hid, hrevision⟩ := fields_artifactMetadataValueJson hid hrevision
  refine numbers_of_fields htext (sorted_withStorage sorted_artifactMetadataValueJson) hwritten
    ?_ ?_
  · rw [valueGet_withStorage isObject_artifactMetadataValueJson, hid]
    simp [ArtifactStorageMetadataInput.fields]
  · rw [valueGet_withStorage isObject_artifactMetadataValueJson, hrevision]
    simp [ArtifactStorageMetadataInput.fields]

end Render

theorem isObject_metadataValue (h : metadataValue text metadata = .ok value) :
    isObject value = true := by
  unfold metadataValue at h
  split at h
  · obtain rfl := Except.ok.inj h
    rfl
  · cases hread : (text.fromStr metadata).mapError fun _ =>
        AppError.invalidInput "发布版本元数据格式损坏" with
    | error error =>
        rw [hread] at h
        cases h
    | ok read =>
        rw [hread] at h
        obtain rfl := Except.ok.inj h
        dsimp only
        split
        · assumption
        · rfl

theorem sorted_metadataValue (htext : text.KeepsValues)
    (h : metadataValue text metadata = .ok value) : value.sorted = true := by
  unfold metadataValue at h
  split at h
  · obtain rfl := Except.ok.inj h
    rfl
  · cases hread : text.fromStr metadata with
    | error error =>
        rw [hread] at h
        cases h
    | ok read =>
        rw [hread] at h
        obtain rfl := Except.ok.inj h
        dsimp only
        split
        · exact htext.sorted metadata read hread
        · rfl

theorem numbers_releaseMetadataWithSnapshot (htext : text.KeepsValues)
    (hwritten : releaseMetadataWithSnapshot text metadata snapshotId (some revisionNo) =
      .ok written) :
    releaseMetadataSnapshotId text written = some snapshotId ∧
    metadataNumber text "config_revision_no" written = some revisionNo := by
  obtain ⟨value, hvalue, hwritten⟩ := except_bind_eq_ok.mp hwritten
  obtain ⟨hid, hrevision⟩ := fields_of_binding (isObject_metadataValue hvalue)
  exact numbers_of_fields htext
    (sorted_setOptional (sorted_setOptional (sorted_metadataValue htext hvalue))) hwritten hid
    hrevision

end Metadata

/-- A row of `app_releases` with what names its configuration. -/
structure BoundRelease extends Release where
  version : String
  versionCode : Int64
  metadata : String
deriving Repr, DecidableEq

/-- A row of `app_config_snapshots` without its content. -/
structure RuntimeConfigSnapshotRecord where
  id : Int64
  appId : Int
  revisionNo : Int64
deriving Repr, DecidableEq

/-- An application as the handlers read it. -/
structure BoundApp where
  id : Int
  appType : String
  status : String
  releaseSource : String
  autoQueueRelease : Bool
deriving Repr, DecidableEq

/-- The tables of releases, snapshots and items. -/
structure Bindings where
  apps : List BoundApp
  snapshots : List RuntimeConfigSnapshotRecord
  releases : List BoundRelease
  queue : List QueueItem
  tasks : List Task
deriving Repr, DecidableEq

/-- What an upload registers: the values it normalised and the metadata it describes them by. -/
structure PackageUpload where
  appId : Int
  releaseVersion : String
  versionCode : Int64
  sourceDetail : String
  uploadedPath : String
  fileName : String
  entryFile : String
  checksum : String
  sizeBytes : UInt64
deriving Repr, DecidableEq

/-- The metadata of an upload. -/
def PackageUpload.metadata (upload : PackageUpload) (entryFile : String)
    (snapshot : RuntimeConfigSnapshotRecord) : ArtifactMetadataInput where
  source := "package_upload"
  sourceDetail := upload.sourceDetail
  unitName := ""
  uploadedPath := upload.uploadedPath
  originalFileName := upload.fileName
  entryFile := entryFile
  sha256 := upload.checksum
  sizeBytes := upload.sizeBytes
  configSnapshotId := some snapshot.id
  configRevisionNo := some snapshot.revisionNo

/-- Only applications that are enabled take releases. -/
def ensureAppEnabled (app : BoundApp) : Except AppError Unit :=
  if app.status = "disabled" then .error (.invalidInput "应用已停用，不能执行变更操作") else .ok ()

/-- Only compose applications do. -/
def ensureComposeApp (app : BoundApp) : Except AppError Unit :=
  if app.appType = "compose" then .ok ()
  else .error (.invalidInput "当前应用不是 Docker Compose 应用")

/-- The application takes releases from this source. -/
def ensureReleaseSource (app : BoundApp) (message : String) : Except AppError Unit :=
  if app.releaseSource = "package_upload" then .ok () else .error (.invalidInput message)

/-- Version codes are positive. -/
def ensureVersionCode (versionCode : Int64) : Except AppError Unit :=
  if 0 < versionCode then .ok () else .error (.invalidInput "versionCode 必须是大于 0 的整数")

/-- A counter that no longer fits is an error of the database. -/
def counted (value : Int) : Except AppError Int64 :=
  if value < 9223372036854775808 then .ok (Int64.ofInt value)
  else .error (.internal "database or disk is full")

namespace Bindings

variable (text : JsonText) (s : Bindings)

/-- The application, or that there is none. -/
def fetchAppDetail (appId : Int) : Except AppError BoundApp :=
  match s.apps.find? fun app => app.id == appId with
  | some app => .ok app
  | none => .error (.invalidInput "应用不存在")

/-- The release, which an application must own. -/
def fetchRelease (releaseId : Int) : Except AppError BoundRelease :=
  match s.releases.find? fun release => release.id == releaseId &&
      s.apps.any fun app => app.id == release.appId with
  | some release => .ok release
  | none => .error (.invalidInput "发布版本不存在")

/-- The snapshot with the greatest identifier. -/
def latestConfigSnapshot (appId : Int) : Option RuntimeConfigSnapshotRecord :=
  (sortBy (fun left right => decide (right.id.toInt ≤ left.id.toInt))
    (s.snapshots.filter fun snapshot => snapshot.appId == appId)).head?

/-- A snapshot with the next revision is stored. -/
def insertRuntimeConfigSnapshot (appId : Int) :
    Except AppError (RuntimeConfigSnapshotRecord × Bindings) := do
  let revisionNo ← counted (nextId ((s.snapshots.filter fun snapshot =>
    snapshot.appId == appId).map (·.revisionNo.toInt)))
  let id ← counted (nextId (s.snapshots.map (·.id.toInt)))
  .ok (⟨id, appId, revisionNo⟩, { s with snapshots := s.snapshots ++ [⟨id, appId, revisionNo⟩] })

/-- A release whose version is new. -/
def insertAppReleaseImmutable (appId : Int) (version : String) (versionCode : Int64)
    (status : ReleaseStatus) (metadata : String) : Except AppError (Int × Bindings) :=
  if s.releases.any fun release => release.appId == appId && release.version == version then
    .error (.conflict "发布版本已经存在，不能覆盖历史制品")
  else
    let id := nextId (s.releases.map (·.id))
    .ok (id, { s with releases := s.releases ++
      [⟨⟨id, appId, status⟩, version, versionCode, metadata⟩] })

/-- The statement of the queue; `none` is a violated unique index. -/
def enqueueAppRelease (appId releaseId : Int) (snapshotId : Int64) (status : QueueStatus)
    (scheduledPublishAt : Option String) : Option (Int × Bindings) :=
  ((⟨s.releases.map (·.toRelease), s.queue, s.tasks⟩ : Store).enqueueAppRelease appId releaseId
    snapshotId.toInt status scheduledPublishAt).map fun enqueued =>
      (enqueued.1, { s with queue := enqueued.2.queue })

/-- An update of one release. -/
def changeRelease (releaseId : Int) (change : BoundRelease → BoundRelease) : Bindings :=
  { s with releases := updateAt s.releases (·.id) releaseId (fun _ => true) change }

/-- An update of the status of a queue item. -/
def setItemStatus (queueId : Int) (status : QueueStatus) (taskId : Option Int) : Bindings :=
  { s with
    queue := updateAt s.queue (·.id) queueId (fun _ => true)
      fun item => { item with
        status
        taskId } }

/-- The snapshot that a release is published with. -/
def resolveReleaseSnapshotId (appId : Int) (metadata : String) : Except AppError Int64 :=
  match releaseMetadataSnapshotId text metadata with
  | some snapshotId => .ok snapshotId
  | none =>
      match s.latestConfigSnapshot appId with
      | some snapshot => .ok snapshot.id
      | none => .error (.invalidInput "当前应用还没有可用配置快照")

/-- The status of a release after its upload. -/
def statusAfterUpload (autoQueueRelease : Bool) : ReleaseStatus :=
  if autoQueueRelease then .queued else .received

/-- The transaction of an upload: a snapshot, the release bound to it, and perhaps an item. -/
def registerPackage (app : BoundApp) (upload : PackageUpload)
    (render : RuntimeConfigSnapshotRecord → Except AppError String) :
    Except AppError Bindings := do
  let (snapshot, s) ← s.insertRuntimeConfigSnapshot app.id
  let metadata ← render snapshot
  let (releaseId, s) ← s.insertAppReleaseImmutable app.id upload.releaseVersion
    upload.versionCode (statusAfterUpload app.autoQueueRelease) metadata
  if app.autoQueueRelease then
    match s.enqueueAppRelease app.id releaseId snapshot.id .queued none with
    | some enqueued => .ok enqueued.2
    | none => .error (.internal "UNIQUE constraint failed: app_release_queue.release_id")
  else .ok s

/-- An upload is registered. -/
def uploadReleasePackage (upload : PackageUpload) : Except AppError Bindings := do
  let app ← s.fetchAppDetail upload.appId
  ensureAppEnabled app
  ensureComposeApp app
  ensureReleaseSource app "当前应用不是版本包发布模式，不能上传版本包"
  ensureVersionCode upload.versionCode
  s.registerPackage app upload fun snapshot =>
    renderArtifactMetadata text (upload.metadata upload.entryFile snapshot)

/-- The upload is the session with what the verification of its object found. -/
def completeReleasePackageUpload (upload : PackageUpload)
    (storage : ArtifactStorageMetadataInput) : Except AppError Bindings := do
  let app ← s.fetchAppDetail upload.appId
  ensureAppEnabled app
  ensureComposeApp app
  ensureReleaseSource app "当前应用不是版本包发布模式，不能登记版本包"
  s.registerPackage app upload fun snapshot =>
    renderArtifactMetadataWithStorage text (upload.metadata "" snapshot) storage

/-- What both ways to publish check of a release. -/
def checkRelease (release : BoundRelease) : Except AppError Unit := do
  let app ← s.fetchAppDetail release.appId
  ensureAppEnabled app
  ensureComposeApp app

/-- No task of the application runs. -/
def ensureNoRunningTask (appId : Int) : Except AppError Unit :=
  if (⟨[], s.queue, s.tasks⟩ : Store).hasRunningTask appId then
    .error (.conflict "当前应用正在部署流程中，请等待部署完成后再发布新版本")
  else .ok ()

/-- The release does not wait already. -/
def ensureNotQueued (release : BoundRelease) : Except AppError Unit :=
  if release.status = .queued ∨ release.status = .deploying then
    .error (.conflict "该发布版本已经在发布队列中")
  else .ok ()

/-- A violated index leaves the release queued without a new item. -/
def publishReleaseNow (releaseId : Int) : Except AppError (Option Int × Bindings) := do
  let release ← s.fetchRelease releaseId
  s.checkRelease release
  s.ensureNoRunningTask release.appId
  ensureNotQueued release
  let snapshotId ← s.resolveReleaseSnapshotId text release.appId release.metadata
  match s.enqueueAppRelease release.appId release.id snapshotId .queued none with
  | some (queueId, s) =>
      .ok (some queueId, s.changeRelease release.id fun release => { release with
        status := .queued })
  | none =>
      .ok (none, s.changeRelease release.id fun release => { release with status := .queued })

/-- The third number handed to the metadata is the version code of the release. -/
def scheduleReleasePublish (releaseId : Int) (scheduledPublishAt : String) :
    Except AppError Bindings := do
  let release ← s.fetchRelease releaseId
  s.checkRelease release
  ensureNotQueued release
  let snapshotId ← s.resolveReleaseSnapshotId text release.appId release.metadata
  let metadata ←
    releaseMetadataWithSnapshot text release.metadata snapshotId (some release.versionCode)
  match s.enqueueAppRelease release.appId release.id snapshotId .scheduled
      (some scheduledPublishAt) with
  | some (_, s) =>
      .ok (s.changeRelease release.id fun release => { release with
        status := .queued
        metadata })
  | none => .error (.internal "UNIQUE constraint failed: app_release_queue.release_id")

/-- The snapshot that a configuration update, a restore or a deployment inserts behind its own
checks. -/
def recordConfiguration (appId : Int) : Except AppError Bindings := do
  let app ← s.fetchAppDetail appId
  let (_, s) ← s.insertRuntimeConfigSnapshot app.id
  .ok s

/-- The operations on bindings, and what the workers and the forms write beside them: statuses,
tasks and applications. -/
inductive Operation
  | upload (upload : PackageUpload)
  | completeUpload (upload : PackageUpload) (storage : ArtifactStorageMetadataInput)
  | publish (releaseId : Int)
  | schedule (releaseId : Int) (scheduledPublishAt : String)
  | updateConfig (appId : Int)
  | setReleaseStatus (releaseId : Int) (status : ReleaseStatus)
  | setItemStatus (queueId : Int) (status : QueueStatus) (taskId : Option Int)
  | setTasks (tasks : List Task)
  | setApps (apps : List BoundApp)
deriving Repr, DecidableEq

/-- The calls with what they change. -/
def perform : Operation → Except AppError Bindings
  | .upload upload => s.uploadReleasePackage text upload
  | .completeUpload upload storage => s.completeReleasePackageUpload text upload storage
  | .publish releaseId => (s.publishReleaseNow text releaseId).map (·.2)
  | .schedule releaseId scheduledPublishAt =>
      s.scheduleReleasePublish text releaseId scheduledPublishAt
  | .updateConfig appId => s.recordConfiguration appId
  | .setReleaseStatus releaseId status =>
      .ok (s.changeRelease releaseId fun release => { release with status })
  | .setItemStatus queueId status taskId => .ok (s.setItemStatus queueId status taskId)
  | .setTasks tasks => .ok { s with tasks }
  | .setApps apps => .ok { s with apps }

/-- The database after an operation; a failed one changes nothing. -/
def afterOperation (operation : Operation) : Bindings :=
  ((s.perform text operation).toOption).getD s

/-- The keys of the tables. -/
structure WellFormed : Prop where
  releaseIds : (s.releases.map (·.id)).Nodup
  snapshotIds : (s.snapshots.map (·.id)).Nodup
  items : ∀ item ∈ s.queue, ∃ release ∈ s.releases, release.id = item.releaseId

/-- The snapshot belongs to the application of the release, its revision is the recorded one,
and the items of the release carry it. -/
def BoundTo (release : BoundRelease) (snapshotId : Int64) : Prop :=
  (∃ snapshot ∈ s.snapshots, snapshot.id = snapshotId ∧ snapshot.appId = release.appId ∧
    metadataNumber text "config_revision_no" release.metadata = some snapshot.revisionNo) ∧
  ∀ item ∈ s.queue, item.releaseId = release.id →
    item.configSnapshotId = some snapshotId.toInt

/-- Releases are bound to the snapshots they name. -/
def Bound : Prop :=
  ∀ release ∈ s.releases, ∀ snapshotId,
    releaseMetadataSnapshotId text release.metadata = some snapshotId →
      s.BoundTo text release snapshotId

/-- Releases that name a snapshot go on naming it. -/
def KeepsBindings (s s' : Bindings) : Prop :=
  ∀ release ∈ s.releases, ∀ snapshotId,
    releaseMetadataSnapshotId text release.metadata = some snapshotId →
      ∃ release' ∈ s'.releases, release'.id = release.id ∧
        releaseMetadataSnapshotId text release'.metadata = some snapshotId

/-- A release is scheduled when its version code is the revision of the snapshot it resolves
to, and its items carry that snapshot. -/
def Careful : Operation → Prop
  | .schedule releaseId _ => ∀ release ∈ s.releases, release.id = releaseId → ∀ snapshotId,
      s.resolveReleaseSnapshotId text release.appId release.metadata = .ok snapshotId →
        (∀ snapshot ∈ s.snapshots, snapshot.id = snapshotId →
          snapshot.revisionNo = release.versionCode) ∧
        ∀ item ∈ s.queue, item.releaseId = releaseId →
          item.configSnapshotId = some snapshotId.toInt
  | _ => True

end Bindings

/-- Operations one after the other, from any database with keys and bindings in order. -/
def bindings (text : JsonText) : Transition Bindings Bindings.Operation where
  initial s := s.WellFormed ∧ s.Bound text
  step s operation := some (s.afterOperation text operation)

end EasyDeploy.ReleaseQueue
