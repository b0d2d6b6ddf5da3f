import EasyDeploy.Foundation.Framing
import EasyDeploy.Foundation.Json
import EasyDeploy.Foundation.Sequences

/-!
# Idempotency keys of the API

A request that creates a release carries a key. The answer of the first such
request is recorded under the token, the action and the key, together with a
hash of the request, and is given again to later requests with the same hash.
-/

namespace EasyDeploy.Web
open Foundation

/-- A status and a body. -/
structure Response where
  status : Nat
  body : Json
deriving Repr, DecidableEq

/-- The answer of an error. -/
def apiErrorCode (status : Nat) (code message : String) : Response :=
  ⟨status, .object [("code", .string code), ("error", .string message)]⟩

/-- The answer of a failed statement. -/
def databaseError (message : String) : Response := apiErrorCode 500 "DATABASE_ERROR" message

/-- `StatusCode::from_u16`, or 200. -/
def statusFromU16 (status : Nat) : Nat := if 100 ≤ status ∧ status < 1000 then status else 200

/-- `HeaderValue::to_str`. -/
def headerText (value : List UInt8) : Option String :=
  if value.all fun byte => byte == 9 || 32 ≤ byte && byte < 127 then
    some (String.ofList (value.map fun byte => Char.ofNat byte.toNat))
  else none

/-- `char::is_control`. -/
def isControl (char : Char) : Bool :=
  char.toNat < 32 || 127 ≤ char.toNat && char.toNat < 160

/-- The key that a request must have. -/
def requiredIdempotencyKey (header : Option (List UInt8)) : Except Response String :=
  let key := trim ((header.bind headerText).getD "")
  if key = "" ∨ 128 < key.utf8ByteSize ∨ key.toList.any isControl = true then
    .error (apiErrorCode 400 "INVALID_IDEMPOTENCY_KEY"
      "Idempotency-Key is required and must be at most 128 visible characters")
  else .ok key

/-- `{:x}` of a digest. -/
def hexText (bytes : List UInt8) : String :=
  String.ofList (bytes.flatMap fun byte =>
    [Nat.digitChar (byte.toNat / 16), Nat.digitChar (byte.toNat % 16)])

/-- The digest of a request's parts. -/
def stableRequestHash (sha256 : List UInt8 → List UInt8) (parts : List (List UInt8)) : String :=
  hexText (sha256 (framed parts))

/-- Whom a record belongs to. -/
structure IdempotencyKey where
  tokenId : Int
  action : String
  key : String
deriving Repr, DecidableEq

/-- A request behind the checks of permissions, scopes and its form. -/
structure IdempotentRequest where
  owner : IdempotencyKey
  parts : List (List UInt8)
  resourceType : String
deriving Repr, DecidableEq

/-- The request under another key. -/
def IdempotentRequest.withKey (request : IdempotentRequest) (key : String) : IdempotentRequest :=
  { request with owner := { request.owner with key } }

/-- The bytes of a text. -/
def utf8Bytes (text : String) : List UInt8 := text.toUTF8.data.toList

/-- The request that uploads a unit release. -/
def apiV1UploadUnitRelease (tokenId : Int) (key appKey unitKey artifactVersion fileName
    checksum : String) : IdempotentRequest where
  owner := ⟨tokenId, "unit_release.upload", key⟩
  parts := [utf8Bytes appKey, utf8Bytes unitKey, utf8Bytes artifactVersion, utf8Bytes fileName,
    utf8Bytes checksum]
  resourceType := "deployment_unit_release"

/-- The request that creates an application release. -/
def apiV1CreateApplicationRelease (tokenId : Int) (key appKey : String)
    (payloadJson : List UInt8) : IdempotentRequest where
  owner := ⟨tokenId, "application_release.create", key⟩
  parts := [utf8Bytes appKey, payloadJson]
  resourceType := "application_release"

/-- A row of `api_idempotency_records`; times are milliseconds. -/
structure IdempotencyRecord where
  owner : IdempotencyKey
  requestHash : String
  resourceType : String
  resourceId : String
  responseStatus : Nat
  responseBody : String
  expiresAt : Nat
deriving Repr, DecidableEq

/-- `+24 hours`. -/
def recordLife : Nat := 86400000

/-- The deletion of expired records. -/
def purgeExpired (records : List IdempotencyRecord) (now : Nat) : List IdempotencyRecord :=
  records.filter fun record => now < record.expiresAt

/-- The record of a key. -/
def findRecord (records : List IdempotencyRecord) (owner : IdempotencyKey) :
    Option IdempotencyRecord :=
  records.find? fun record => record.owner == owner

/-- A key that was used for another request. -/
def contentConflict : Response :=
  apiErrorCode 409 "IDEMPOTENCY_CONFLICT"
    "Idempotency-Key was already used with different request content"

/-- What `idempotency_replay` makes of the record it selects. -/
def idempotencyReplay (text : JsonText) (record : Option IdempotencyRecord)
    (requestHash : String) : Except Response (Option Response) :=
  match record with
  | none => .ok none
  | some record =>
      if record.requestHash ≠ requestHash then .error contentConflict
      else
        match text.fromStr record.responseBody with
        | .error message => .error (apiErrorCode 500 "IDEMPOTENCY_RECORD_CORRUPTED" message)
        | .ok body => .ok (some ⟨statusFromU16 record.responseStatus, body⟩)

/-- `INSERT .. ON CONFLICT DO NOTHING` on records of existing tokens. -/
def insertRecord (tokens : List Int) (records : List IdempotencyRecord)
    (record : IdempotencyRecord) : Except Response (List IdempotencyRecord) :=
  if record.owner.tokenId ∉ tokens then .error (databaseError "FOREIGN KEY constraint failed")
  else if records.any fun old => old.owner == record.owner then
    .error (apiErrorCode 409 "IDEMPOTENCY_CONFLICT"
      "Idempotency-Key was completed concurrently; retry the request to read its result")
  else .ok (records ++ [record])

/-- What was created, for the answer. -/
structure Created where
  resourceId : String
  body : Json
deriving Repr, DecidableEq

/-- The answer of a creation. -/
def Created.response (created : Created) : Response := ⟨201, created.body⟩

section Store

variable (text : JsonText) (sha256 : List UInt8 → List UInt8)

/-- What is noted of a creation. -/
def newRecord (request : IdempotentRequest) (created : Created) (body : String) (now : Nat) :
    IdempotencyRecord where
  owner := request.owner
  requestHash := stableRequestHash sha256 request.parts
  resourceType := request.resourceType
  resourceId := created.resourceId
  responseStatus := 201
  responseBody := body
  expiresAt := now + recordLife

/-- The answer is recorded. -/
def storeIdempotencyResponse (tokens : List Int) (records : List IdempotencyRecord)
    (request : IdempotentRequest) (created : Created) (now : Nat) :
    Except Response (List IdempotencyRecord) :=
  match text.toString created.body with
  | .error message => .error (apiErrorCode 500 "SERIALIZATION_ERROR" message)
  | .ok body => insertRecord tokens records (newRecord sha256 request created body now)

end Store

section Hashes

variable {sha256 : List UInt8 → List UInt8}

theorem digitChar_injective {m n : Nat} (hm : m < 16) (hn : n < 16)
    (h : Nat.digitChar m = Nat.digitChar n) : m = n := by
  have hall : ((List.range 16).all fun m => (List.range 16).all fun n =>
      Nat.digitChar m != Nat.digitChar n || m == n) = true := by decide
  have hpair := List.all_eq_true.mp (List.all_eq_true.mp hall m (List.mem_range.mpr hm)) n
    (List.mem_range.mpr hn)
  rw [h, bne_self_eq_false, Bool.false_or, beq_iff_eq] at hpair
  exact hpair

theorem hexText_injective {bytes bytes' : List UInt8} (h : hexText bytes = hexText bytes') :
    bytes = bytes' := by
  have hchars := String.ofList_inj.mp h
  clear h
  induction bytes generalizing bytes' with
  | nil =>
      cases bytes' with
      | nil => rfl
      | cons byte' rest' => cases hchars
  | cons byte rest ih =>
      cases bytes' with
      | nil => cases hchars
      | cons byte' rest' =>
          simp only [List.flatMap_cons, List.cons_append, List.nil_append, List.cons.injEq]
            at hchars
          obtain ⟨hhigh, hlow, hrest⟩ := hchars
          have hlt := byte.toNat_lt
          have hlt' := byte'.toNat_lt
          have hdiv := digitChar_injective (by omega) (by omega) hhigh
          have hmod := digitChar_injective (by omega) (by omega) hlow
          have hbyte : byte = byte' := UInt8.toNat_inj.mp (by omega)
          rw [hbyte, ih hrest]

end Hashes

section Records

variable {records records' : List IdempotencyRecord} {record : IdempotencyRecord}
  {owner : IdempotencyKey} {tokens : List Int}

theorem findRecord_eq_some (howners : (records.map (·.owner)).Nodup) (hmem : record ∈ records) :
    findRecord records record.owner = some record := by
  rw [findRecord]
  cases hfind : records.find? fun other => other.owner == record.owner with
  | none => exact absurd (beq_self_eq_true record.owner) (List.find?_eq_none.mp hfind record hmem)
  | some found =>
      have howner := List.find?_some hfind
      rw [beq_iff_eq] at howner
      rw [List.inj_on_of_nodup_map howners (List.mem_of_find?_eq_some hfind) hmem howner]

theorem mem_of_findRecord (h : findRecord records owner = some record) :
    record ∈ records ∧ record.owner = owner := by
  rw [findRecord] at h
  have howner := List.find?_some h
  rw [beq_iff_eq] at howner
  exact ⟨List.mem_of_find?_eq_some h, howner⟩

/-- An inserted record is new under its key, and its token exists. -/
theorem insertRecord_eq_ok (h : insertRecord tokens records record = .ok records') :
    records' = records ++ [record] ∧ record.owner.tokenId ∈ tokens ∧
      ∀ old ∈ records, old.owner ≠ record.owner := by
  unfold insertRecord at h
  split at h
  · cases h
  · rename_i htoken
    split at h
    · cases h
    · rename_i hnone
      refine ⟨(Except.ok.inj h).symm, not_not.mp htoken, fun old hold heq => ?_⟩
      exact hnone (List.any_eq_true.mpr ⟨old, hold, beq_iff_eq.mpr heq⟩)

end Records

end EasyDeploy.Web
