import EasyDeploy.Foundation.Table
import EasyDeploy.Uploads.ObjectVersions

/-!
# Upload sessions

The rows of upload sessions with the statements that change them. A session
reserves its version until it is completed, expires or is canceled; in the last
two cases its object is cleaned up.
-/

namespace EasyDeploy.Uploads
open Foundation

/-- What has become of a session. -/
inductive UploadStatus
  | pending
  | completed
  | expired
  | canceled
deriving Repr, DecidableEq

/-- A row of `app_release_uploads`; times are milliseconds. -/
structure ReleaseUpload where
  id : String
  appId : Int
  releaseVersion : String
  versionCode : Int
  fileName : String
  objectKey : String
  bucket : String
  endpoint : String
  checksumSha256 : String
  sizeBytes : Nat
  status : UploadStatus
  expiresAt : Int
  reservationActive : Bool
  verificationStartedAt : Option Int
  objectCleanupAt : Option Int
  cleanupError : String
  objectVersionId : String
  cleanupStartedAt : Option Int
  cleanupCompletedAt : Option Int
  cleanupAttempts : Nat
deriving Repr, DecidableEq

namespace ReleaseUpload

variable (upload : ReleaseUpload) (now : Int)

/-- A session that nobody verifies and whose time is over. -/
def isDue : Bool :=
  upload.status = .pending && upload.reservationActive && upload.verificationStartedAt.isNone &&
    upload.expiresAt ≤ now

/-- The time of a session is over. -/
def expire : ReleaseUpload :=
  { upload with
    status := .expired
    reservationActive := false
    verificationStartedAt := none
    objectCleanupAt := some (upload.objectCleanupAt.getD now) }

/-- A session is given up. -/
def cancel (cleanupError : String) : ReleaseUpload :=
  { upload with
    status := .canceled
    reservationActive := false
    verificationStartedAt := none
    objectCleanupAt := some (upload.objectCleanupAt.getD (max upload.expiresAt now))
    cleanupError := cleanupError }

/-- A session that is open. -/
def isPending : Bool := upload.status = .pending

/-- An open session that nobody verifies. -/
def isClaimable : Bool :=
  upload.status = .pending && upload.reservationActive && upload.verificationStartedAt.isNone

/-- An open session. -/
def isReserved : Bool := upload.status = .pending && upload.reservationActive

/-- An open session that someone verifies. -/
def isClaimed : Bool :=
  upload.status = .pending && upload.reservationActive && upload.verificationStartedAt.isSome

/-- Someone begins to verify the object. -/
def claimVerification : ReleaseUpload := { upload with verificationStartedAt := some now }

/-- Nobody verifies it any more. -/
def clearVerification : ReleaseUpload := { upload with verificationStartedAt := none }

/-- The version of the object is noted. -/
def storeObjectVersion (objectVersionId : String) : ReleaseUpload :=
  { upload with objectVersionId := objectVersionId }

/-- A session has its release. -/
def complete (checksum : String) (sizeBytes : Nat) (objectVersionId : String) : ReleaseUpload :=
  { upload with
    status := .completed
    reservationActive := false
    verificationStartedAt := none
    checksumSha256 := checksum
    sizeBytes := sizeBytes
    objectVersionId := objectVersionId }

/-- A session whose object waits for its cleanup. -/
def isCleanable : Bool :=
  upload.objectCleanupAt.any (· ≤ now) && (upload.status = .expired || upload.status = .canceled) &&
    upload.cleanupCompletedAt.isNone && upload.cleanupStartedAt.isNone

/-- A worker begins with the object. -/
def startCleanup : ReleaseUpload :=
  { upload with
    cleanupStartedAt := some now
    cleanupAttempts := upload.cleanupAttempts + 1 }

/-- The object has been deleted. -/
def completeCleanup : ReleaseUpload :=
  { upload with
    cleanupStartedAt := none
    cleanupCompletedAt := some now
    cleanupError := "" }

/-- The object has not been deleted. -/
def failCleanup (message : String) : ReleaseUpload :=
  { upload with
    cleanupStartedAt := none
    cleanupError := message }

/-- A cleanup that a restart interrupted. -/
def isInterrupted : Bool := upload.cleanupCompletedAt.isNone && upload.cleanupStartedAt.isSome

/-- No worker is at it any more. -/
def releaseCleanup : ReleaseUpload := { upload with cleanupStartedAt := none }

/-- A row after the two statements of a restart. -/
def recovered : ReleaseUpload :=
  let upload := if upload.isClaimed then upload.clearVerification else upload
  if upload.isInterrupted then upload.releaseCleanup else upload

end ReleaseUpload

/-- The sessions. -/
abbrev UploadTable := List ReleaseUpload

namespace UploadTable

variable (uploads : UploadTable) (now : Int)

/-- `UPDATE .. WHERE id = ?1 AND ..`. -/
def change (uploadId : String) (guard : ReleaseUpload → Bool)
    (update : ReleaseUpload → ReleaseUpload) : UploadTable :=
  updateAt uploads ReleaseUpload.id uploadId guard update

/-- Whether such an update affects a row. -/
def affects (uploadId : String) (guard : ReleaseUpload → Bool) : Bool :=
  uploads.any fun upload => upload.id = uploadId && guard upload

/-- `ORDER BY .. ASC, id ASC LIMIT 20`, of which the identifiers are read. -/
def firstIds (time : ReleaseUpload → Int) : List String :=
  ((sortBy (fun upload other => time upload < time other ||
    time upload = time other && upload.id ≤ other.id) uploads).take 20).map (·.id)

/-- The candidates of `expire_due_release_uploads`. -/
def dueReleaseUploadIds : List String :=
  firstIds (uploads.filter (·.isDue now)) (·.expiresAt)

/-- The sessions that have waited longest for their cleanup. -/
def pendingReleaseUploadCleanupIds : List String :=
  firstIds (uploads.filter (·.isCleanable now)) fun upload => upload.objectCleanupAt.getD 0

/-- One candidate of `expire_due_release_uploads`. -/
def expireDueReleaseUpload (uploadId : String) : UploadTable :=
  uploads.change uploadId (·.isDue now) (·.expire now)

/-- The sessions of a version that are due expire. -/
def expireReleaseUploadReservation (appId : Int) (releaseVersion : String) : UploadTable :=
  uploads.map fun upload =>
    if upload.appId = appId ∧ upload.releaseVersion = releaseVersion ∧ upload.isDue now then
      upload.expire now
    else upload

/-- An open session expires. -/
def expireReleaseUpload (uploadId : String) : UploadTable :=
  uploads.change uploadId (·.isPending) (·.expire now)

/-- An open session is given up. -/
def cancelReleaseUpload (uploadId cleanupError : String) : UploadTable :=
  uploads.change uploadId (·.isPending) (·.cancel now cleanupError)

/-- A session is claimed for its verification. -/
def claimReleaseUploadVerification (uploadId : String) : UploadTable :=
  uploads.change uploadId (·.isClaimable) (·.claimVerification now)

/-- The claim is given back. -/
def clearReleaseUploadVerification (uploadId : String) : UploadTable :=
  uploads.change uploadId (·.isReserved) (·.clearVerification)

/-- The version that has been verified is noted. -/
def storeReleaseUploadObjectVersion (uploadId objectVersionId : String) : UploadTable :=
  uploads.change uploadId (·.isClaimed) (·.storeObjectVersion objectVersionId)

/-- A session is completed. -/
def completeReleaseUpload (uploadId checksum : String) (sizeBytes : Nat)
    (objectVersionId : String) : UploadTable :=
  uploads.change uploadId (·.isClaimed) (·.complete checksum sizeBytes objectVersionId)

/-- What a restart gives back. -/
def recoverInterrupted : UploadTable := uploads.map ReleaseUpload.recovered

/-- `INSERT .. ON CONFLICT DO NOTHING`: there is a primary key, and a unique index on the version of
the active reservations. -/
def insertNew (upload : ReleaseUpload) : Option UploadTable :=
  if uploads.any (fun other => other.id = upload.id ||
      (other.reservationActive && upload.reservationActive && other.appId = upload.appId &&
        other.releaseVersion = upload.releaseVersion)) then none
  else some (uploads ++ [upload])

/-- The claim of `cleanup_release_upload_object`, with the row as it is returned. -/
def claimCleanup (uploadId : String) : Option (ReleaseUpload × UploadTable) :=
  (uploads.find? fun upload => upload.id = uploadId && upload.isCleanable now).map fun upload =>
    (upload.startCleanup now, uploads.change uploadId (·.isCleanable now) (·.startCleanup now))

/-- How a cleanup went is noted. -/
def finishCleanup (uploadId : String) : Except ArtifactStorageError Unit → UploadTable
  | .ok _ => uploads.change uploadId (fun _ => true) (·.completeCleanup now)
  | .error err => uploads.change uploadId (fun _ => true) (·.failCleanup err.message)

end UploadTable

end EasyDeploy.Uploads
