import EasyDeploy.Foundation.FirstOccurrences
import EasyDeploy.Foundation.Results
import EasyDeploy.Foundation.Trimming
import Mathlib.Data.List.Infix

/-!
# Listing the versions of an object

The store lists the versions and delete markers of the keys with a prefix in
pages. A listing follows the markers of each page to the last one, keeps the
entries of one key and fails rather than report a part of them.
-/

namespace EasyDeploy.Uploads
open Foundation

/-- How a request to the store fails. -/
inductive ArtifactStorageError
  | invalidInput (message : String)
  | unsupported (message : String)
  | internal (message : String)
deriving Repr, DecidableEq

/-- The text of an error. -/
def ArtifactStorageError.message : ArtifactStorageError → String
  | .invalidInput message | .unsupported message | .internal message => message

/-- So many pages are read at most. -/
def ossListObjectVersionsMaxPages : Nat := 1000

/-- So long is a page at most. -/
def ossListObjectVersionsMaxResponseBytes : Nat := 8 * 1024 * 1024

/-- A version as the store lists it. -/
structure OssListedObjectVersion where
  key : String
  versionId : Option String
deriving Repr, DecidableEq

/-- A page as it is parsed. -/
structure OssObjectVersionsPageResponse where
  isTruncated : Option String
  nextKeyMarker : Option String
  nextVersionIdMarker : Option String
  versions : List OssListedObjectVersion
  deleteMarkers : List OssListedObjectVersion
deriving Repr, DecidableEq

/-- A page after the checks. -/
structure OssObjectVersionsPage where
  isTruncated : Bool
  nextKeyMarker : Option String
  nextVersionIdMarker : Option String
  versions : List OssListedObjectVersion
  deleteMarkers : List OssListedObjectVersion
deriving Repr, DecidableEq

/-- A version or a delete marker of an object. -/
structure ArtifactObjectVersion where
  versionId : Option String
  isDeleteMarker : Bool
deriving Repr, DecidableEq

/-- A key that is not empty and does not lead elsewhere. -/
def normalizeObjectKey (value : String) : Except ArtifactStorageError String :=
  let value := String.ofList
    ((trim value).toList.map fun char => if char = '\\' then '/' else char)
  if value.isEmpty || value.toList.head? = some '/' || ['/', '/'] <:+: value.toList ||
      (value.toList.splitOn '/').any
        (fun part => part.isEmpty || part = ['.'] || part = ['.', '.']) ||
      !value.toList.all
        (fun char => char.isAlphanum || ['/', '.', '-', '_', '@'].contains char) then
    .error (.invalidInput
      "OSS ObjectKey 仅支持字母、数字、斜线、点、短横线、下划线和 @，且不能包含上级目录")
  else
    .ok value

/-- `is_ascii_control`. -/
def isAsciiControl (char : Char) : Bool := char.toNat < 32 || char.toNat = 127

/-- A version that may be deleted. -/
def normalizeDeletableObjectVersionId (value : String) : Except ArtifactStorageError String :=
  let value := trim value
  if value.isEmpty || 1024 < value.utf8ByteSize || value.toList.any isAsciiControl then
    .error (.invalidInput "OSS 对象版本号格式无效")
  else
    .ok value

/-- A value that is not blank, in its normal form. -/
def normalized (normalize : String → Except ArtifactStorageError String) (value : Option String) :
    Except ArtifactStorageError (Option String) :=
  match value.filter fun value => !(trim value).isEmpty with
  | none => .ok none
  | some value => (normalize value).map some

/-- The query of a listing, without the signature. -/
structure ListRequest where
  prefixKey : String
  keyMarker : Option String
  versionIdMarker : Option String
deriving Repr, DecidableEq

/-- An answer with the chunks of its body. -/
structure HttpResponse where
  status : Nat
  contentLength : Option Nat
  /-- The pieces of the body as they arrive; an error ends it. -/
  chunks : List (Except String (List UInt8))

/-- The answers of a request that was carried out. -/
def HttpResponse.isSuccess (response : HttpResponse) : Bool :=
  200 ≤ response.status && response.status < 300

/-- The store and what stands between it and the platform: each request is answered by its own
answer, so that the store may change between two requests. The phrase of a status code is that of
the HTTP library. -/
structure ObjectStore where
  validateRequired : Except ArtifactStorageError Unit
  list : Nat → ListRequest → Except String HttpResponse
  delete : Nat → String → Option String → Except String Nat
  fromXml : String → Except String OssObjectVersionsPageResponse
  canonicalReason : Nat → Option String

/-- A status code as the messages print it. -/
def ObjectStore.statusText (store : ObjectStore) (status : Nat) : String :=
  let reason := (store.canonicalReason status).getD "<unknown status code>"
  s!"{status} {reason}"

/-- The request for a page. -/
def presignListObjectVersions (store : ObjectStore) (objectKey : String)
    (keyMarker versionIdMarker : Option String) : Except ArtifactStorageError ListRequest := do
  store.validateRequired
  let objectKey ← normalizeObjectKey objectKey
  let keyMarker ← normalized normalizeObjectKey keyMarker
  let versionIdMarker ← normalized normalizeDeletableObjectVersionId versionIdMarker
  if versionIdMarker.isSome ∧ keyMarker.isNone then
    .error (.invalidInput "枚举 OSS 对象版本时 version-id-marker 必须与 key-marker 一起使用")
  else
    .ok ⟨objectKey, keyMarker, versionIdMarker⟩

/-- A body with one more chunk. -/
def appendBoundedOssResponseChunk (body chunk : List UInt8) (maxBytes : Nat) :
    Except ArtifactStorageError (List UInt8) :=
  if maxBytes < body.length + chunk.length then
    .error (.internal s!"OSS 对象版本列表响应超过 {maxBytes} 字节上限")
  else
    .ok (body ++ chunk)

/-- All chunks of a body. -/
def readChunks (maxBytes : Nat) (body : List UInt8) :
    List (Except String (List UInt8)) → Except ArtifactStorageError (List UInt8)
  | [] => .ok body
  | .error err :: _ => .error (.internal s!"读取 OSS 对象版本列表响应失败: {err}")
  | .ok chunk :: rest =>
      match appendBoundedOssResponseChunk body chunk maxBytes with
      | .error err => .error err
      | .ok body => readChunks maxBytes body rest

/-- The text of an answer. -/
def readOssListVersionsResponse (response : HttpResponse) : Except ArtifactStorageError String :=
  if response.contentLength.any (ossListObjectVersionsMaxResponseBytes < ·) then
    .error (.internal "OSS 对象版本列表响应超过 8 MiB 上限")
  else
    match readChunks ossListObjectVersionsMaxResponseBytes [] response.chunks with
    | .error err => .error err
    | .ok body =>
        match String.fromUTF8? ⟨body.toArray⟩ with
        | none => .error (.internal "OSS 对象版本列表响应不是有效 UTF-8")
        | some text => .ok text

/-- The page of a text. -/
def parseOssObjectVersionsPage (store : ObjectStore) (value : String) :
    Except ArtifactStorageError OssObjectVersionsPage :=
  match store.fromXml value with
  | .error err => .error (.internal s!"解析 OSS 对象版本列表响应失败: {err}")
  | .ok response =>
      let page (isTruncated : Bool) : OssObjectVersionsPage :=
        ⟨isTruncated, response.nextKeyMarker, response.nextVersionIdMarker, response.versions,
          response.deleteMarkers⟩
      match response.isTruncated.map trim with
      | some "true" => .ok (page true)
      | some "false" => .ok (page false)
      | _ => .error (.internal "OSS 对象版本列表缺少或包含无效的 IsTruncated")

/-- The answer to the request behind two markers. -/
def listPage (store : ObjectStore) (request : Nat) (objectKey : String)
    (keyMarker versionIdMarker : Option String) :
    Except ArtifactStorageError OssObjectVersionsPage := do
  let signed ← presignListObjectVersions store objectKey keyMarker versionIdMarker
  match store.list request signed with
  | .error err => .error (.internal s!"枚举 OSS 上传对象版本失败: {err}")
  | .ok response =>
      if !response.isSuccess then
        .error (.internal (s!"枚举 OSS 上传对象版本失败，响应状态为 {store.statusText response.status}；" ++
          "请确认 AccessKey 具备 oss:ListObjectVersions 权限"))
      else do
        let text ← readOssListVersionsResponse response
        parseOssObjectVersionsPage store text

/-- A version of a page. -/
def artifactObjectVersionFromListItem (isDeleteMarker : Bool) (item : OssListedObjectVersion) :
    Except ArtifactStorageError ArtifactObjectVersion :=
  (normalized normalizeDeletableObjectVersionId item.versionId).map
    fun versionId => ⟨versionId, isDeleteMarker⟩

/-- The checks of a whole listing. -/
def validateListedObjectVersions (listedVersions : List ArtifactObjectVersion) :
    Except ArtifactStorageError (List ArtifactObjectVersion) :=
  if listedVersions.any fun item => item.isDeleteMarker && item.versionId.isNone then
    .error (.internal "OSS 删除标记缺少版本号，拒绝将对象标记为已清理")
  else if (listedVersions.any fun item => item.isDeleteMarker || item.versionId.isSome) &&
      listedVersions.any fun item => item.versionId.isNone then
    .error (.internal "OSS 对象版本列表混入未标识版本，拒绝将对象标记为已清理")
  else
    .ok (firstsBy ArtifactObjectVersion.versionId [] listedVersions)

/-- The entries of a page that belong to a key, versions first. -/
def OssObjectVersionsPage.entries (page : OssObjectVersionsPage) (objectKey : String) :
    Except ArtifactStorageError (List ArtifactObjectVersion) := do
  let versions ← (page.versions.filter fun item => item.key = objectKey).mapM
    (artifactObjectVersionFromListItem false)
  let markers ← (page.deleteMarkers.filter fun item => item.key = objectKey).mapM
    (artifactObjectVersionFromListItem true)
  .ok (versions ++ markers)

/-- The pages from one on: at most `pages` more requests, of which the next has the number
`request`. -/
def listVersionsFrom (store : ObjectStore) (objectKey : String) (pages request : Nat)
    (keyMarker versionIdMarker : Option String) (seenMarkers : List (String × String))
    (listedVersions : List ArtifactObjectVersion) :
    Except ArtifactStorageError (List ArtifactObjectVersion) :=
  match pages with
  | 0 => .error (.internal "OSS 对象版本数量超过清理上限，拒绝将对象标记为已清理")
  | pages + 1 => do
      let page ← listPage store request objectKey keyMarker versionIdMarker
      let entries ← page.entries objectKey
      if page.isTruncated = false then validateListedObjectVersions (listedVersions ++ entries)
      else
        match page.nextKeyMarker.filter fun value => !(trim value).isEmpty with
        | none => .error (.internal "OSS 对象版本列表缺少下一页 key-marker")
        | some nextKeyMarker =>
            let nextVersionIdMarker :=
              page.nextVersionIdMarker.filter fun value => !(trim value).isEmpty
            let marker := (nextKeyMarker, nextVersionIdMarker.getD "")
            if marker ∈ seenMarkers then
              .error (.internal "OSS 对象版本列表分页标记重复，拒绝将对象标记为已清理")
            else
              listVersionsFrom store objectKey pages (request + 1) (some nextKeyMarker)
                nextVersionIdMarker (marker :: seenMarkers) (listedVersions ++ entries)

/-- The versions of an object. -/
def listVersions (store : ObjectStore) (objectKey : String) :
    Except ArtifactStorageError (List ArtifactObjectVersion) := do
  let objectKey ← normalizeObjectKey objectKey
  listVersionsFrom store objectKey ossListObjectVersionsMaxPages 0 none none [] []

/-- The request that deletes a version. -/
def deleteVersion (store : ObjectStore) (request : Nat) (objectKey : String)
    (versionId : Option String) : Except ArtifactStorageError Unit := do
  store.validateRequired
  let objectKey ← normalizeObjectKey objectKey
  let versionId ← normalized normalizeDeletableObjectVersionId versionId
  match store.delete request objectKey versionId with
  | .error err => .error (.internal s!"删除 OSS 上传对象失败: {err}")
  | .ok status =>
      if (200 ≤ status ∧ status < 300) ∨ status = 404 then .ok ()
      else .error (.internal s!"删除 OSS 上传对象失败，响应状态为 {store.statusText status}")

/-- One round of the loop of a cleanup. -/
def deleteListed (store : ObjectStore) (request : Nat) (objectKey : String)
    (version : ArtifactObjectVersion) : Except ArtifactStorageError Unit :=
  if version.isDeleteMarker ∧ version.versionId.isNone then
    .error (.internal "OSS 删除标记缺少版本号，拒绝将上传对象标记为已清理")
  else
    deleteVersion store request objectKey version.versionId

/-- The versions one after the other; the first failure ends it. -/
def deleteVersions (store : ObjectStore) (objectKey : String) :
    Nat → List ArtifactObjectVersion → Except ArtifactStorageError Unit
  | _, [] => .ok ()
  | request, version :: rest => do
      deleteListed store request objectKey version
      deleteVersions store objectKey (request + 1) rest

end EasyDeploy.Uploads
