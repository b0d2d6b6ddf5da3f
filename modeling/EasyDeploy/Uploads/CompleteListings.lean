import EasyDeploy.Uploads.Tables

/-!
# Listings are complete

A listing that succeeds has read a chain of pages in which each request names the
markers of the page before it and only the last page is not truncated. What it
returns are the first entries with each version identifier, so a cleanup that is
recorded has deleted every entry of the chain.
-/

namespace EasyDeploy.Uploads
open Foundation

variable {store : ObjectStore} {objectKey key : String} {keyMarker versionIdMarker : Option String}
  {request limit : Nat} {seenMarkers : List (String × String)}
  {listed result : List ArtifactObjectVersion} {pages : List OssObjectVersionsPage}

/-- The pages from a request on, up to the first one that is not truncated: each further request
has the markers of the page before it. -/
inductive Listing (store : ObjectStore) (objectKey : String) :
    Nat → Option String → Option String → List OssObjectVersionsPage → Prop
  | last {request keyMarker versionIdMarker page}
      (hpage : listPage store request objectKey keyMarker versionIdMarker = .ok page)
      (hlast : page.isTruncated = false) :
      Listing store objectKey request keyMarker versionIdMarker [page]
  | more {request keyMarker versionIdMarker page nextKeyMarker pages}
      (hpage : listPage store request objectKey keyMarker versionIdMarker = .ok page)
      (hmore : page.isTruncated = true) (hnext : page.nextKeyMarker = some nextKeyMarker)
      (hblank : ¬ Blank nextKeyMarker)
      (hrest : Listing store objectKey (request + 1) (some nextKeyMarker)
        (page.nextVersionIdMarker.filter fun value => !(trim value).isEmpty) pages) :
      Listing store objectKey request keyMarker versionIdMarker (page :: pages)

/-- The identifier by which an entry is deleted. -/
def OssListedObjectVersion.deletableId (item : OssListedObjectVersion) :
    Except ArtifactStorageError (Option String) :=
  normalized normalizeDeletableObjectVersionId item.versionId

/-- The entries of some pages in order. -/
def entriesOf (objectKey : String) :
    List OssObjectVersionsPage → Except ArtifactStorageError (List ArtifactObjectVersion)
  | [] => .ok []
  | page :: pages => do
      let entries ← page.entries objectKey
      let later ← entriesOf objectKey pages
      .ok (entries ++ later)

/-- What a listing that succeeds has read. -/
theorem listing_of_listVersionsFrom (h : listVersionsFrom store objectKey limit request keyMarker
    versionIdMarker seenMarkers listed = .ok result) :
    ∃ pages entries, Listing store objectKey request keyMarker versionIdMarker pages ∧
      pages.length ≤ limit ∧ entriesOf objectKey pages = .ok entries ∧
        validateListedObjectVersions (listed ++ entries) = .ok result := by
  induction limit generalizing request keyMarker versionIdMarker seenMarkers listed with
  | zero => cases h
  | succ limit ih =>
      rw [listVersionsFrom, except_bind_eq_ok] at h
      obtain ⟨page, hpage, h⟩ := h
      rw [except_bind_eq_ok] at h
      obtain ⟨entries, hentries, h⟩ := h
      split at h
      · rename_i hlast
        refine ⟨[page], entries, .last hpage hlast, Nat.succ_pos _, ?_, h⟩
        exact except_bind_eq_ok.mpr ⟨entries, hentries, congrArg Except.ok (List.append_nil _)⟩
      · rename_i hmore
        split at h
        · cases h
        · rename_i nextKeyMarker hnext
          obtain ⟨hsome, hblank⟩ := Option.filter_eq_some_iff.mp hnext
          dsimp only at h
          split at h
          · cases h
          · obtain ⟨pages, later, hchain, hlength, hlater, hvalid⟩ := ih h
            have hnot : ¬ Blank nextKeyMarker := fun hempty => by
              rw [Blank] at hempty
              rw [hempty] at hblank
              cases hblank
            refine ⟨page :: pages, entries ++ later, .more hpage (by simpa using hmore) hsome hnot
              hchain, Nat.succ_le_succ hlength, ?_, by rwa [← List.append_assoc]⟩
            exact except_bind_eq_ok.mpr ⟨entries, hentries,
              except_bind_eq_ok.mpr ⟨later, hlater, rfl⟩⟩

/-- An entry of a page is an entry of the listing, and the other way. -/
theorem exists_of_entries {page : OssObjectVersionsPage} {entries : List ArtifactObjectVersion}
    (h : page.entries key = .ok entries) :
    (∀ item ∈ page.versions ++ page.deleteMarkers, item.key = key →
      ∃ entry ∈ entries, item.deletableId = .ok entry.versionId) ∧
    ∀ entry ∈ entries, ∃ item ∈ (if entry.isDeleteMarker then page.deleteMarkers
      else page.versions), item.key = key ∧ item.deletableId = .ok entry.versionId := by
  obtain ⟨versions, hversions, h⟩ := except_bind_eq_ok.mp h
  obtain ⟨markers, hmarkers, h⟩ := except_bind_eq_ok.mp h
  obtain rfl := Except.ok.inj h
  have hkind {kind : Bool} {item : OssListedObjectVersion} {entry : ArtifactObjectVersion}
      (hentry : artifactObjectVersionFromListItem kind item = .ok entry) :
      item.deletableId = .ok entry.versionId ∧ entry.isDeleteMarker = kind := by
    unfold artifactObjectVersionFromListItem at hentry
    rw [OssListedObjectVersion.deletableId]
    cases hid : normalized normalizeDeletableObjectVersionId item.versionId with
    | error err =>
        rw [hid] at hentry
        cases hentry
    | ok id =>
        rw [hid] at hentry
        obtain rfl := Except.ok.inj hentry
        exact ⟨rfl, rfl⟩
  have hfilter {items : List OssListedObjectVersion} {item : OssListedObjectVersion} :
      item ∈ items.filter (fun item => item.key = key) ↔ item ∈ items ∧ item.key = key := by
    rw [List.mem_filter, decide_eq_true_eq]
  constructor
  · intro item hitem hkey
    rcases List.mem_append.mp hitem with hitem | hitem
    · obtain ⟨entry, hmem, hentry⟩ := exists_of_mem_mapM hversions (hfilter.mpr ⟨hitem, hkey⟩)
      exact ⟨entry, List.mem_append_left _ hmem, (hkind hentry).1⟩
    · obtain ⟨entry, hmem, hentry⟩ := exists_of_mem_mapM hmarkers (hfilter.mpr ⟨hitem, hkey⟩)
      exact ⟨entry, List.mem_append_right _ hmem, (hkind hentry).1⟩
  · intro entry hmem
    rcases List.mem_append.mp hmem with hmem | hmem
    · obtain ⟨item, hitem, hentry⟩ := exists_of_mem_mapM_values hversions hmem
      obtain ⟨hitem, hkey⟩ := hfilter.mp hitem
      rw [(hkind hentry).2]
      exact ⟨item, hitem, hkey, (hkind hentry).1⟩
    · obtain ⟨item, hitem, hentry⟩ := exists_of_mem_mapM_values hmarkers hmem
      obtain ⟨hitem, hkey⟩ := hfilter.mp hitem
      rw [(hkind hentry).2]
      exact ⟨item, hitem, hkey, (hkind hentry).1⟩

theorem exists_of_entriesOf {entries : List ArtifactObjectVersion}
    (h : entriesOf key pages = .ok entries) :
    (∀ page ∈ pages, ∀ item ∈ page.versions ++ page.deleteMarkers, item.key = key →
      ∃ entry ∈ entries, item.deletableId = .ok entry.versionId) ∧
    ∀ entry ∈ entries, ∃ page ∈ pages, ∃ item ∈ (if entry.isDeleteMarker then page.deleteMarkers
      else page.versions), item.key = key ∧ item.deletableId = .ok entry.versionId := by
  induction pages generalizing entries with
  | nil =>
      obtain rfl := Except.ok.inj h
      constructor
      · intro page hpage
        cases hpage
      · intro entry hentry
        cases hentry
  | cons page pages ih =>
      obtain ⟨first, hfirst, h⟩ := except_bind_eq_ok.mp h
      obtain ⟨later, hlater, h⟩ := except_bind_eq_ok.mp h
      obtain rfl := Except.ok.inj h
      obtain ⟨hread, hlisted⟩ := exists_of_entries hfirst
      obtain ⟨hread', hlisted'⟩ := ih hlater
      constructor
      · intro other hother item hitem hkey
        rcases List.mem_cons.mp hother with rfl | hother
        · obtain ⟨entry, hmem, hid⟩ := hread item hitem hkey
          exact ⟨entry, List.mem_append_left _ hmem, hid⟩
        · obtain ⟨entry, hmem, hid⟩ := hread' other hother item hitem hkey
          exact ⟨entry, List.mem_append_right _ hmem, hid⟩
      · intro entry hmem
        rcases List.mem_append.mp hmem with hmem | hmem
        · exact ⟨page, List.mem_cons_self, hlisted entry hmem⟩
        · obtain ⟨other, hother, hitem⟩ := hlisted' entry hmem
          exact ⟨other, List.mem_cons_of_mem _ hother, hitem⟩

theorem eq_firstsBy_of_validate (h : validateListedObjectVersions listed = .ok result) :
    result = firstsBy ArtifactObjectVersion.versionId [] listed := by
  unfold validateListedObjectVersions at h
  split at h
  · cases h
  · split at h
    · cases h
    · exact (Except.ok.inj h).symm

/-- A listing that succeeds has read a chain of pages to its end; its result are the first entries
with each identifier among the entries of the key. -/
theorem listing_of_listVersions (h : listVersions store objectKey = .ok result) :
    ∃ key pages, normalizeObjectKey objectKey = .ok key ∧
      Listing store key 0 none none pages ∧ pages.length ≤ ossListObjectVersionsMaxPages ∧
      (result.map (·.versionId)).Nodup ∧
      (∀ page ∈ pages, ∀ item ∈ page.versions ++ page.deleteMarkers, item.key = key →
        ∃ entry ∈ result, item.deletableId = .ok entry.versionId) ∧
      (∀ entry ∈ result, ∃ page ∈ pages, ∃ item ∈ (if entry.isDeleteMarker then
        page.deleteMarkers else page.versions), item.key = key ∧
          item.deletableId = .ok entry.versionId) ∧
      ∃ entries, entriesOf key pages = .ok entries ∧
        result = firstsBy ArtifactObjectVersion.versionId [] entries ∧ result.Sublist entries ∧
        (∀ entry ∈ result, ∃ before after, entries = before ++ entry :: after ∧
          ∀ other ∈ before, other.versionId ≠ entry.versionId) ∧
        ((entries.map (·.versionId)).Nodup → result = entries) := by
  obtain ⟨key, hkey, h⟩ := except_bind_eq_ok.mp h
  obtain ⟨pages, entries, hchain, hlength, hentries, hvalid⟩ := listing_of_listVersionsFrom h
  rw [List.nil_append] at hvalid
  obtain rfl := eq_firstsBy_of_validate hvalid
  obtain ⟨hread, hlisted⟩ := exists_of_entriesOf hentries
  refine ⟨key, pages, hkey, hchain, hlength, nodup_map_firstsBy _ _, ?_, ?_, entries, hentries,
    rfl, firstsBy_sublist _ _, fun entry hmem => first_of_mem_firstsBy hmem, fun hnodup => firstsBy_eq_self hnodup fun entry _ => by simp⟩
  · intro page hpage item hitem hitemKey
    obtain ⟨entry, hmem, hid⟩ := hread page hpage item hitem hitemKey
    have hkept : entry.versionId ∈ (firstsBy ArtifactObjectVersion.versionId [] entries).map
        (·.versionId) := mem_map_firstsBy.mpr ⟨List.not_mem_nil, List.mem_map_of_mem hmem⟩
    obtain ⟨kept, hmem', heq⟩ := List.mem_map.mp hkept
    exact ⟨kept, hmem', by rw [heq, hid]⟩
  · intro entry hmem
    exact hlisted entry (mem_of_mem_firstsBy hmem)

/-- Only the first requests are made. -/
theorem listVersionsFrom_congr {store' : ObjectStore}
    (hlist : ∀ other < request + limit, store.list other = store'.list other)
    (hrequired : store.validateRequired = store'.validateRequired)
    (hxml : store.fromXml = store'.fromXml)
    (hreason : store.canonicalReason = store'.canonicalReason) :
    listVersionsFrom store objectKey limit request keyMarker versionIdMarker seenMarkers listed =
      listVersionsFrom store' objectKey limit request keyMarker versionIdMarker seenMarkers
        listed := by
  induction limit generalizing request keyMarker versionIdMarker seenMarkers listed with
  | zero => rfl
  | succ limit ih =>
      have hpage : listPage store request objectKey keyMarker versionIdMarker =
          listPage store' request objectKey keyMarker versionIdMarker := by
        unfold listPage presignListObjectVersions parseOssObjectVersionsPage ObjectStore.statusText
        rw [hlist request (by omega), hrequired, hxml, hreason]
      rw [listVersionsFrom, listVersionsFrom, hpage]
      refine congrArg _ (funext fun page => congrArg _ (funext fun entries => ?_))
      split
      · rfl
      · split
        · rfl
        · dsimp only
          split
          · rfl
          · exact ih fun other hother => hlist other (by omega)

/-- What is deleted without an error has been deleted one by one. -/
theorem deleted_of_deleteVersions {versions : List ArtifactObjectVersion}
    (h : deleteVersions store objectKey request versions = .ok ()) :
    ∀ version ∈ versions, ∃ other,
      deleteVersion store other objectKey version.versionId = .ok () := by
  induction versions generalizing request with
  | nil => exact fun version hversion => by cases hversion
  | cons first rest ih =>
      obtain ⟨done, hfirst, hrest⟩ := except_bind_eq_ok.mp h
      intro version hversion
      rcases List.mem_cons.mp hversion with rfl | hversion
      · unfold deleteListed at hfirst
        split at hfirst
        · cases hfirst
        · exact ⟨request, hfirst⟩
      · exact ih hrest version hversion

/-- The listing and the deletions of a cleanup. -/
def cleanObject (store : ObjectStore) (objectKey : String) : Except ArtifactStorageError Unit := do
  let versions ← listVersions store objectKey
  deleteVersions store objectKey 0 versions

/-- `cleanup_release_upload_object`: the claim, the cleanup and the statement that records it. The
store is that of the row's bucket and endpoint; each of the two statements may fail. -/
def cleanupReleaseUploadObject
    (storeFor : String → String → Except ArtifactStorageError ObjectStore) (now later : Int)
    (claimFails recordFails : Bool) (uploads : UploadTable) (uploadId : String) : UploadTable :=
  if claimFails then uploads
  else
    match uploads.claimCleanup now uploadId with
    | none => uploads
    | some (upload, claimed) =>
        let outcome := do
          let store ← storeFor upload.bucket upload.endpoint
          cleanObject store upload.objectKey
        if recordFails then claimed else claimed.finishCleanup later upload.id outcome

theorem cleaned_of_cleanObject (h : cleanObject store objectKey = .ok ()) :
    ∃ versions, listVersions store objectKey = .ok versions ∧ ∀ version ∈ versions, ∃ request,
      deleteVersion store request objectKey version.versionId = .ok () := by
  obtain ⟨versions, hversions, h⟩ := except_bind_eq_ok.mp h
  exact ⟨versions, hversions, deleted_of_deleteVersions h⟩

theorem claimCleanup_eq_some {uploads claimed : UploadTable} {now : Int} {uploadId : String}
    {upload : ReleaseUpload} (h : uploads.claimCleanup now uploadId = some (upload, claimed)) :
    ∃ old ∈ uploads, old.id = uploadId ∧ old.isCleanable now = true ∧
      upload = old.startCleanup now ∧
        claimed = uploads.change uploadId (·.isCleanable now) (·.startCleanup now) := by
  obtain ⟨old, hfind, heq⟩ := Option.map_eq_some_iff.mp h
  obtain ⟨rfl, rfl⟩ := Prod.mk.inj heq
  have hcond := List.find?_some hfind
  rw [Bool.and_eq_true, decide_eq_true_eq] at hcond
  exact ⟨old, List.mem_of_find?_eq_some hfind, hcond.1, hcond.2, rfl, rfl⟩

/-- A statement that leaves the records of cleanups alone. -/
theorem exists_of_mem_change {uploads : UploadTable} {uploadId : String}
    {guard : ReleaseUpload → Bool} {update : ReleaseUpload → ReleaseUpload} {upload : ReleaseUpload}
    (h : upload ∈ uploads.change uploadId guard update)
    (hid : ∀ row, (update row).id = row.id)
    (hkeep : ∀ row, (update row).cleanupCompletedAt = row.cleanupCompletedAt) :
    ∃ old ∈ uploads, old.id = upload.id ∧ old.cleanupCompletedAt = upload.cleanupCompletedAt := by
  obtain ⟨old, hold, rfl⟩ := mem_updateAt.mp h
  refine ⟨old, hold, ?_⟩
  split
  · exact ⟨(hid old).symm, (hkeep old).symm⟩
  · exact ⟨rfl, rfl⟩

/-- A row whose cleanup a call records is one whose object the call has cleaned. -/
theorem cleaned_of_cleanupReleaseUploadObject
    {storeFor : String → String → Except ArtifactStorageError ObjectStore} {now later : Int}
    {claimFails recordFails : Bool} {uploads : UploadTable} {uploadId : String}
    {old upload : ReleaseUpload} (hkeys : Keyed uploads ReleaseUpload.id) (hold : old ∈ uploads)
    (hbefore : old.cleanupCompletedAt = none) (h : upload ∈ cleanupReleaseUploadObject storeFor now
      later claimFails recordFails uploads uploadId) (hid : upload.id = old.id)
    (hrecorded : upload.cleanupCompletedAt ≠ none) :
    ∃ store versions, storeFor old.bucket old.endpoint = .ok store ∧
      listVersions store old.objectKey = .ok versions ∧ ∀ version ∈ versions, ∃ request,
        deleteVersion store request old.objectKey version.versionId = .ok () := by
  -- Rows that keep the column do not have the record.
  have hrow {row : ReleaseUpload} (hmem : row ∈ uploads) (heq : row.id = upload.id) :
      row.cleanupCompletedAt = none := by
    rw [hkeys.eq hmem hold (heq.trans hid)]
    exact hbefore
  unfold cleanupReleaseUploadObject at h
  split at h
  · exact absurd (hrow h rfl) hrecorded
  · split at h
    · exact absurd (hrow h rfl) hrecorded
    · rename_i found claimed hclaim
      obtain ⟨row, hmem, hrowId, -, rfl, rfl⟩ := claimCleanup_eq_some hclaim
      have hclaimed {other : ReleaseUpload} (hother : other ∈ uploads.change uploadId
          (·.isCleanable now) (·.startCleanup now)) (heq : other.id = upload.id) :
          other.cleanupCompletedAt = none := by
        obtain ⟨before, hmem', hsame, hnone⟩ := exists_of_mem_change hother (fun _ => rfl)
          fun _ => rfl
        rw [← hnone]
        exact hrow hmem' (hsame.trans heq)
      dsimp only at h
      split at h
      · exact absurd (hclaimed h rfl) hrecorded
      · cases hclean : (do
            let store ← storeFor row.bucket row.endpoint
            cleanObject store row.objectKey) with
        | error err =>
            have hstart : (do
                let store ← storeFor (row.startCleanup now).bucket (row.startCleanup now).endpoint
                cleanObject store (row.startCleanup now).objectKey) = .error err := hclean
            rw [hstart, UploadTable.finishCleanup] at h
            obtain ⟨other, hother, hsame, hnone⟩ := exists_of_mem_change h (fun _ => rfl)
              fun _ => rfl
            rw [hclaimed hother hsame] at hnone
            exact absurd hnone.symm hrecorded
        | ok done =>
            have hstart : (do
                let store ← storeFor (row.startCleanup now).bucket (row.startCleanup now).endpoint
                cleanObject store (row.startCleanup now).objectKey) = .ok done := hclean
            rw [hstart, UploadTable.finishCleanup] at h
            by_cases hsame : upload.id = (row.startCleanup now).id
            · obtain rfl : row = old := hkeys.eq hmem hold (hsame.symm.trans hid)
              obtain ⟨store, hstore, hclean⟩ := except_bind_eq_ok.mp hclean
              obtain ⟨versions, hversions, hdeleted⟩ := cleaned_of_cleanObject hclean
              exact ⟨store, versions, hstore, hversions, hdeleted⟩
            · exact absurd (hclaimed (mem_of_updateAt h (fun _ => rfl) hsame) rfl) hrecorded

/-- A listing that succeeds has followed the markers, in their normal form, from page to page up to
one that is not truncated, over at most the allowed number of pages; for each identifier among the
versions and delete markers of the key it returns the first entry that has it, and so all of them in
order when the identifiers differ. No further request can matter. A cleanup is recorded only after each of them
has been deleted. -/
theorem listing_complete (store : ObjectStore) (objectKey : String) :
    (∀ result, listVersions store objectKey = .ok result →
      ∃ key pages, normalizeObjectKey objectKey = .ok key ∧
        Listing store key 0 none none pages ∧ pages.length ≤ ossListObjectVersionsMaxPages ∧
        (result.map (·.versionId)).Nodup ∧
        (∀ page ∈ pages, ∀ item ∈ page.versions ++ page.deleteMarkers, item.key = key →
          ∃ entry ∈ result, item.deletableId = .ok entry.versionId) ∧
        (∀ entry ∈ result, ∃ page ∈ pages, ∃ item ∈ (if entry.isDeleteMarker then
          page.deleteMarkers else page.versions), item.key = key ∧
            item.deletableId = .ok entry.versionId) ∧
        ∃ entries, entriesOf key pages = .ok entries ∧
          result = firstsBy ArtifactObjectVersion.versionId [] entries ∧ result.Sublist entries ∧
          (∀ entry ∈ result, ∃ before after, entries = before ++ entry :: after ∧
            ∀ other ∈ before, other.versionId ≠ entry.versionId) ∧
          ((entries.map (·.versionId)).Nodup → result = entries)) ∧
    (∀ store' : ObjectStore, (∀ request < ossListObjectVersionsMaxPages,
      store.list request = store'.list request) → store.validateRequired = store'.validateRequired →
        store.fromXml = store'.fromXml → store.canonicalReason = store'.canonicalReason →
          listVersions store objectKey = listVersions store' objectKey) ∧
    ∀ (storeFor : String → String → Except ArtifactStorageError ObjectStore) (now later : Int)
      (claimFails recordFails : Bool) (uploads : UploadTable) (uploadId : String)
      (old upload : ReleaseUpload), Keyed uploads ReleaseUpload.id → old ∈ uploads →
        old.cleanupCompletedAt = none → upload ∈ cleanupReleaseUploadObject storeFor now later
          claimFails recordFails uploads uploadId → upload.id = old.id →
            upload.cleanupCompletedAt ≠ none →
              ∃ store versions, storeFor old.bucket old.endpoint = .ok store ∧
                listVersions store old.objectKey = .ok versions ∧ ∀ version ∈ versions,
                  ∃ request, deleteVersion store request old.objectKey version.versionId =
                    .ok () := by
  refine ⟨fun result h => listing_of_listVersions h, ?_, ?_⟩
  · intro store' hlist hrequired hxml hreason
    unfold listVersions
    refine congrArg _ (funext fun key => listVersionsFrom_congr ?_ hrequired hxml hreason)
    intro request hrequest
    exact hlist request (by omega)
  · intro storeFor now later claimFails recordFails uploads uploadId old upload hkeys hold hbefore h
      hid hrecorded
    exact cleaned_of_cleanupReleaseUploadObject hkeys hold hbefore h hid hrecorded

def sharedIdentifierPage : String :=
  "<ListVersionsResult><IsTruncated>false</IsTruncated>" ++
    "<Version><Key>package</Key><VersionId>1</VersionId></Version>" ++
    "<DeleteMarker><Key>package</Key><VersionId>1</VersionId></DeleteMarker></ListVersionsResult>"

/-- A store whose only page has a version and a delete marker with one identifier. -/
def sharedIdentifierStore : ObjectStore where
  validateRequired := .ok ()
  list _ _ := .ok ⟨200, none, [.ok sharedIdentifierPage.toUTF8.data.toList]⟩
  delete _ _ _ := .ok 204
  fromXml text :=
    if text = sharedIdentifierPage then
      .ok ⟨some "false", none, none, [⟨"package", some "1"⟩], [⟨"package", some "1"⟩]⟩
    else .error "missing field"
  canonicalReason _ := none

/-- Of a version and a delete marker with one identifier only the version is returned. -/
theorem shared_identifier_collapses :
    ¬ ∀ (store : ObjectStore) (objectKey : String) (result : List ArtifactObjectVersion),
      listVersions store objectKey = .ok result → ∃ key pages,
        normalizeObjectKey objectKey = .ok key ∧ Listing store key 0 none none pages ∧
          ∀ page ∈ pages, ∀ item ∈ page.deleteMarkers, item.key = key →
            ∃ entry ∈ result, entry.isDeleteMarker = true ∧
              item.deletableId = .ok entry.versionId := by
  intro h
  have hlist : listVersions sharedIdentifierStore "package" = .ok [⟨some "1", false⟩] := by
    decide +kernel
  have hkey : normalizeObjectKey "package" = .ok "package" := by decide +kernel
  have hpage : listPage sharedIdentifierStore 0 "package" none none =
      .ok ⟨false, none, none, [⟨"package", some "1"⟩], [⟨"package", some "1"⟩]⟩ := by
    decide +kernel
  obtain ⟨key, pages, hnormal, hchain, hall⟩ := h _ _ _ hlist
  obtain rfl := Except.ok.inj (hkey.symm.trans hnormal)
  cases hchain with
  | last hread hlast =>
      obtain rfl := Except.ok.inj (hpage.symm.trans hread)
      obtain ⟨entry, hentry, hmarker, -⟩ := hall _ List.mem_cons_self _ List.mem_cons_self rfl
      rw [List.mem_singleton.mp hentry] at hmarker
      cases hmarker
  | more hread hmore hnext hblank hrest =>
      obtain rfl := Except.ok.inj (hpage.symm.trans hread)
      cases hmore

end EasyDeploy.Uploads
