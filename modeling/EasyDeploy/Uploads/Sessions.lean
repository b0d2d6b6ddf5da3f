import EasyDeploy.Foundation.Transition
import EasyDeploy.Uploads.ObjectKeys
import EasyDeploy.Uploads.CompleteListings

/-!
# The life of upload sessions

Clients create sessions and complete them, a schedule expires them, and a worker
cleans up the objects of those that were not completed. A transaction or a
request to the store is one step; the steps of any number of calls interleave. A
call may end between any two steps: a statement of it fails, or the process
stops. The checks of the application are left out, since they only refuse.
-/

namespace EasyDeploy.Uploads
open Foundation

/-- Where a package is. -/
inductive StorageProvider
  | localDisk
  | aliyunOss
deriving Repr, DecidableEq

/-- Who has verified a package; `legacy` is what rows from before verifications say. -/
inductive StorageIntegrity
  | legacy
  | localDisk
  | uniqueKey
  | versionPinned
deriving Repr, DecidableEq

/-- Where the package of a release is. -/
structure ReleaseStorage where
  provider : StorageProvider
  bucket : String
  objectKey : String
  objectVersionId : String
  integrity : StorageIntegrity
  endpoint : String
deriving Repr, DecidableEq

/-- A package on the host itself. -/
def ReleaseStorage.onDisk : ReleaseStorage := ⟨.localDisk, "", "", "", .localDisk, ""⟩

/-- A row of `app_releases`. -/
structure AppRelease where
  id : Int
  appId : Int
  version : String
  versionCode : Int
  packageName : String
  checksumSha256 : String
  sizeBytes : Nat
  storage : ReleaseStorage
deriving Repr, DecidableEq

/-- The version that a release takes. -/
def AppRelease.slot (release : AppRelease) : Int × String := (release.appId, release.version)

/-- `insert_app_release_immutable`: a version that exists is not replaced. -/
def insertAppReleaseImmutable (releases : List AppRelease) (release : AppRelease) :
    Option (List AppRelease) :=
  if release.slot ∈ releases.map AppRelease.slot then none
  else some (releases ++ [{ release with id := nextId (releases.map AppRelease.id) }])

/-- What `create_release_package_upload` knows before its transaction. -/
structure CreateUpload where
  millis : Nat
  random : List (Fin 256)
  appId : Int
  appKey : String
  releaseVersion : String
  versionCode : Int
  fileName : String
  objectPrefix : String
  bucket : String
  endpoint : String
  expiresAt : Int
deriving Repr, DecidableEq

/-- The row of a new session. -/
def CreateUpload.row (input : CreateUpload) : ReleaseUpload where
  id := generatedReleaseUploadId input.millis input.random
  appId := input.appId
  releaseVersion := input.releaseVersion
  versionCode := input.versionCode
  fileName := input.fileName
  objectKey := uploadObjectKey input.objectPrefix input.appKey input.releaseVersion
    (generatedReleaseUploadId input.millis input.random) input.fileName
  bucket := input.bucket
  endpoint := input.endpoint
  checksumSha256 := ""
  sizeBytes := 0
  status := .pending
  expiresAt := input.expiresAt
  reservationActive := true
  verificationStartedAt := none
  objectCleanupAt := none
  cleanupError := ""
  objectVersionId := ""
  cleanupStartedAt := none
  cleanupCompletedAt := none
  cleanupAttempts := 0

/-- What the verifier has read of an object; the version is empty when the store has none. -/
structure VerifiedObject where
  checksumSha256 : String
  sizeBytes : Nat
  versionId : String
deriving Repr, DecidableEq

/-- How far a call of `complete_release_package_upload` is. -/
inductive CompletionStage
  | loaded
  | expiring
  | claiming
  | verifying
  | storing (verified : VerifiedObject)
  | finishing (verified : VerifiedObject)
  | clearing
  | canceling
deriving Repr, DecidableEq

/-- A call with the row it has read and what the client declared. -/
structure Completion where
  upload : ReleaseUpload
  checksumSha256 : String
  sizeBytes : Nat
  stage : CompletionStage
deriving Repr, DecidableEq

/-- How far a call of `cleanup_release_upload_object` is after its claim. -/
inductive UploadCleanupStage
  | listing
  | deleting (remaining : List ArtifactObjectVersion)
  | recording (outcome : Except ArtifactStorageError Unit)
deriving DecidableEq

/-- A cleanup with the row that it has claimed. -/
structure UploadCleanup where
  upload : ReleaseUpload
  stage : UploadCleanupStage
deriving DecidableEq

/-- The tables with the calls under way. -/
structure Sessions where
  now : Int
  uploads : UploadTable
  releases : List AppRelease
  completions : List Completion
  cleanups : List UploadCleanup
deriving DecidableEq

/-- The statements of the calls and the requests to the store. -/
inductive Action
  | tick (millis : Nat)
  | create (input : CreateUpload)
  /-- The registration of a package that was uploaded to the platform itself. -/
  | registerLocal (release : AppRelease)
  /-- The creation of an application release, which does not ask for reservations. -/
  | registerComposed (release : AppRelease)
  | deleteRelease (releaseId : Int)
  /-- The check before a package is staged. -/
  | ensureVersionAvailable (appId : Int) (version : String)
  | complete (uploadId checksumSha256 : String) (sizeBytes : Nat)
  | check (call : Nat)
  | expireSession (call : Nat)
  | claim (call : Nat)
  /-- No result when the slots are taken or the verification fails. -/
  | verify (call : Nat) (verified : Option VerifiedObject)
  | store (call : Nat)
  | finish (call : Nat)
  /-- The registration fails otherwise than by a conflict. -/
  | failFinish (call : Nat)
  | clear (call : Nat)
  | cancel (call : Nat)
  | abandon (call : Nat)
  | expireDue (uploadId : String)
  | startCleanup (uploadId : String)
  | list (call : Nat) (store : ObjectStore)
  | delete (call : Nat) (store : ObjectStore)
  | record (call : Nat)
  | abandonCleanup (call : Nat)
  | recover

namespace Sessions

variable (s : Sessions)

/-- `upload_session_expired`: compared by seconds. -/
def sessionExpired (upload : ReleaseUpload) : Bool := upload.expiresAt / 1000 ≤ s.now / 1000

/-- A completion is at another stage. -/
def advance (call : Nat) (completion : Completion) (stage : CompletionStage) : Sessions :=
  { s with completions := s.completions.set call { completion with stage } }

/-- A completion ends. -/
def endCall (call : Nat) : Sessions := { s with completions := s.completions.eraseIdx call }

/-- A cleanup is at another stage. -/
def advanceCleanup (call : Nat) (cleanup : UploadCleanup) (stage : UploadCleanupStage) :
    Sessions :=
  { s with cleanups := s.cleanups.set call { cleanup with stage } }

/-- A cleanup ends. -/
def endCleanup (call : Nat) : Sessions := { s with cleanups := s.cleanups.eraseIdx call }

/-- The transaction of `create_release_package_upload`. -/
def create (input : CreateUpload) : Option Sessions :=
  let uploads := s.uploads.expireReleaseUploadReservation s.now input.appId input.releaseVersion
  if (input.appId, input.releaseVersion) ∈ s.releases.map AppRelease.slot then none
  else (uploads.insertNew input.row).map fun uploads => { s with uploads }

/-- `ensure_release_version_available_in_transaction`. -/
def versionAvailable (uploads : UploadTable) (appId : Int) (version : String) : Bool :=
  !(s.releases.map AppRelease.slot).contains (appId, version) &&
    !uploads.any fun upload => upload.appId = appId && upload.releaseVersion = version &&
      upload.reservationActive

/-- A release whose package is on the host. -/
def registerLocal (release : AppRelease) : Option Sessions :=
  let uploads := s.uploads.expireReleaseUploadReservation s.now release.appId release.version
  if s.versionAvailable uploads release.appId release.version then
    (insertAppReleaseImmutable s.releases { release with storage := .onDisk }).map fun releases =>
      { s with uploads, releases }
  else none

/-- A release of several units. -/
def registerComposed (release : AppRelease) : Option Sessions :=
  (insertAppReleaseImmutable s.releases { release with storage := .onDisk }).map fun releases =>
    { s with releases }

/-- The row that a completion reads; only a pending one is gone on with. -/
def complete (uploadId checksumSha256 : String) (sizeBytes : Nat) : Option Sessions :=
  (s.uploads.find? fun upload => upload.id = uploadId && upload.isPending).map fun upload =>
    { s with completions := s.completions ++ [⟨upload, checksumSha256, sizeBytes, .loaded⟩] }

/-- The release that a completed session registers. -/
def release (upload : ReleaseUpload) (verified : VerifiedObject) : AppRelease where
  id := 0
  appId := upload.appId
  version := upload.releaseVersion
  versionCode := upload.versionCode
  packageName := upload.fileName
  checksumSha256 := verified.checksumSha256
  sizeBytes := verified.sizeBytes
  storage :=
    { provider := .aliyunOss, bucket := upload.bucket, objectKey := upload.objectKey
      objectVersionId := verified.versionId
      integrity := if verified.versionId.isEmpty then .uniqueKey else .versionPinned
      endpoint := upload.endpoint }

/-- The transaction that registers the release and completes the session. -/
def register (completion : Completion) (verified : VerifiedObject) : Option Sessions :=
  match insertAppReleaseImmutable s.releases (release completion.upload verified) with
  | none => none
  | some releases =>
      if s.uploads.affects completion.upload.id (·.isClaimed) then
        some { s with
          releases
          uploads := s.uploads.completeReleaseUpload completion.upload.id
            verified.checksumSha256 verified.sizeBytes verified.versionId }
      else none

/-- A step of a completion. -/
def stepCompletion (call : Nat) (completion : Completion) : Action → Option Sessions
  | .check _ =>
      match completion.stage with
      | .loaded =>
          some (s.advance call completion
            (if s.sessionExpired completion.upload then .expiring else .claiming))
      | _ => none
  | .expireSession _ =>
      match completion.stage with
      | .expiring =>
          some ({ s with
            uploads := s.uploads.expireReleaseUpload s.now completion.upload.id }.endCall call)
      | _ => none
  | .claim _ =>
      match completion.stage with
      | .claiming =>
          if s.uploads.affects completion.upload.id (·.isClaimable) then
            some ({ s with
              uploads := s.uploads.claimReleaseUploadVerification s.now
                completion.upload.id }.advance call completion .verifying)
          else some (s.endCall call)
      | _ => none
  | .verify _ verified =>
      match completion.stage with
      | .verifying =>
          some (s.advance call completion (verified.elim .clearing fun found => .storing found))
      | _ => none
  | .store _ =>
      match completion.stage with
      | .storing verified =>
          if s.uploads.affects completion.upload.id (·.isClaimed) then
            some ({ s with
              uploads := s.uploads.storeReleaseUploadObjectVersion completion.upload.id
                verified.versionId }.advance call completion
                  (if verified.checksumSha256 = completion.checksumSha256 ∧
                    verified.sizeBytes = completion.sizeBytes then .finishing verified
                  else .clearing))
          else some (s.advance call completion .clearing)
      | _ => none
  | .finish _ =>
      match completion.stage with
      | .finishing verified =>
          match s.register completion verified with
          | some s' => some (s'.endCall call)
          | none => some (s.advance call completion .canceling)
      | _ => none
  | .failFinish _ =>
      match completion.stage with
      | .finishing _ => some (s.advance call completion .clearing)
      | _ => none
  | .clear _ =>
      match completion.stage with
      | .clearing =>
          some ({ s with
            uploads := s.uploads.clearReleaseUploadVerification
              completion.upload.id }.endCall call)
      | _ => none
  | .cancel _ =>
      match completion.stage with
      | .canceling =>
          some ({ s with
            uploads := s.uploads.cancelReleaseUpload s.now completion.upload.id
              "release_registration_conflict" }.endCall call)
      | _ => none
  | .abandon _ => some (s.endCall call)
  | _ => none

/-- The claim of a cleanup. -/
def startCleanup (uploadId : String) : Option Sessions :=
  (s.uploads.claimCleanup s.now uploadId).map fun claimed =>
    { s with uploads := claimed.2, cleanups := s.cleanups ++ [⟨claimed.1, .listing⟩] }

/-- A step of a cleanup. -/
def stepCleanup (call : Nat) (cleanup : UploadCleanup) : Action → Option Sessions
  | .list _ store =>
      match cleanup.stage with
      | .listing =>
          match listVersions store cleanup.upload.objectKey with
          | .ok versions => some (s.advanceCleanup call cleanup (.deleting versions))
          | .error err => some (s.advanceCleanup call cleanup (.recording (.error err)))
      | _ => none
  | .delete _ store =>
      match cleanup.stage with
      | .deleting [] => some (s.advanceCleanup call cleanup (.recording (.ok ())))
      | .deleting (version :: rest) =>
          match deleteListed store 0 cleanup.upload.objectKey version with
          | .ok _ => some (s.advanceCleanup call cleanup (.deleting rest))
          | .error err => some (s.advanceCleanup call cleanup (.recording (.error err)))
      | _ => none
  | .record _ =>
      match cleanup.stage with
      | .recording outcome =>
          some ({ s with
            uploads := s.uploads.finishCleanup s.now cleanup.upload.id outcome }.endCleanup call)
      | _ => none
  | .abandonCleanup _ => some (s.endCleanup call)
  | _ => none

/-- The step of an action, if it can be taken. -/
def step (a : Action) : Option Sessions :=
  match a with
  | .tick millis => some { s with now := s.now + millis }
  | .create input => s.create input
  | .registerLocal release => s.registerLocal release
  | .registerComposed release => s.registerComposed release
  | .deleteRelease releaseId =>
      some { s with releases := s.releases.filter fun release => release.id ≠ releaseId }
  | .ensureVersionAvailable appId version =>
      some { s with uploads := s.uploads.expireReleaseUploadReservation s.now appId version }
  | .complete uploadId checksumSha256 sizeBytes => s.complete uploadId checksumSha256 sizeBytes
  | .expireDue uploadId =>
      some { s with uploads := s.uploads.expireDueReleaseUpload s.now uploadId }
  | .startCleanup uploadId => s.startCleanup uploadId
  | .recover => some { s with uploads := s.uploads.recoverInterrupted }
  | .check call | .expireSession call | .claim call | .verify call _ | .store call | .finish call
  | .failFinish call | .clear call | .cancel call | .abandon call =>
      s.completions[call]?.bind fun completion => s.stepCompletion call completion a
  | .list call _ | .delete call _ | .record call | .abandonCleanup call =>
      s.cleanups[call]?.bind fun cleanup => s.stepCleanup call cleanup a

end Sessions

/-- What the steps do outside the tables. -/
inductive SessionEvent
  /-- The content of an object as the verifier has read it. -/
  | verified (objectKey : String) (object : VerifiedObject)
  /-- A completion that is answered with success. -/
  | registered (uploadId : String)
  /-- A request that deletes a version of an object. -/
  | deleted (objectKey : String) (versionId : Option String)
deriving Repr, DecidableEq

/-- What a step does outside the tables. -/
def Sessions.event (s : Sessions) : Action → Option SessionEvent
  | .verify call (some verified) =>
      (s.completions[call]?).map fun completion =>
        .verified completion.upload.objectKey verified
  | .finish call =>
      (s.completions[call]?).bind fun completion =>
        match completion.stage with
        | .finishing verified =>
            (s.register completion verified).map fun _ => .registered completion.upload.id
        | _ => none
  | .delete call _ =>
      (s.cleanups[call]?).bind fun cleanup =>
        match cleanup.stage with
        | .deleting (version :: _) => some (.deleted cleanup.upload.objectKey version.versionId)
        | _ => none
  | _ => none

/-- The sessions of a platform that starts without any, with the log of their events. -/
def uploadSessions : Foundation.Transition (List SessionEvent × Sessions) Action :=
  Transition.logged
    { initial := fun s => s.uploads = [] ∧ s.releases = [] ∧ s.completions = [] ∧ s.cleanups = []
      step := Sessions.step } Sessions.event

end EasyDeploy.Uploads
