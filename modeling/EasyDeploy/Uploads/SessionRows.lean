import EasyDeploy.Uploads.Sessions

/-!
# What the statements keep of a session

Every statement leaves the identity of a session as it is, and the outcome of a
session that is no longer pending. The columns of a row agree with its status.
-/

namespace EasyDeploy.Uploads
open Foundation

namespace ReleaseUpload

/-- The columns that no statement changes. -/
def identity (upload : ReleaseUpload) :=
  (upload.id, upload.appId, upload.releaseVersion, upload.versionCode, upload.fileName,
    upload.objectKey, upload.bucket, upload.endpoint, upload.expiresAt)

/-- The columns that are settled when the session is no longer pending. -/
def outcome (upload : ReleaseUpload) :=
  (upload.status, upload.checksumSha256, upload.sizeBytes, upload.objectVersionId)

/-- Expired or canceled. -/
def Discarded (upload : ReleaseUpload) : Prop :=
  upload.status = .expired ∨ upload.status = .canceled

/-- The columns agree with the status. -/
structure Coherent (upload : ReleaseUpload) : Prop where
  named : NamesUpload upload.objectKey upload.id
  reserved : upload.reservationActive = true ↔ upload.status = .pending
  verifying : upload.verificationStartedAt ≠ none → upload.status = .pending
  due : upload.objectCleanupAt ≠ none ↔ upload.Discarded
  cleaning : upload.cleanupStartedAt ≠ none → upload.Discarded
  cleaned : upload.cleanupCompletedAt ≠ none →
    upload.Discarded ∧ upload.cleanupStartedAt = none

/-- How a row may change. -/
structure Kept (before after : ReleaseUpload) : Prop where
  identity : after.identity = before.identity
  outcome : before.status ≠ .pending → after.outcome = before.outcome
  reservation : after.reservationActive = true → before.reservationActive = true
  coherent : before.Coherent → after.Coherent

variable {upload before after : ReleaseUpload} {now : Int}

/-- A row that does not change is kept. -/
theorem Kept.refl (upload : ReleaseUpload) : Kept upload upload :=
  ⟨rfl, fun _ => rfl, fun hactive => hactive, fun hcoherent => hcoherent⟩

/-- What two updates keep, both keep. -/
theorem Kept.trans {later : ReleaseUpload} (h : Kept before after) (h' : Kept after later) :
    Kept before later where
  identity := h'.identity.trans h.identity
  outcome hclosed := by
    have hsame := h.outcome hclosed
    have hstatus : after.status = before.status := congrArg Prod.fst hsame
    exact (h'.outcome (hstatus ▸ hclosed)).trans hsame
  reservation hactive := h.reservation (h'.reservation hactive)
  coherent hcoherent := h'.coherent (h.coherent hcoherent)

/-- A change that completes nothing. -/
structure Quiet (before after : ReleaseUpload) : Prop extends Kept before after where
  completed : after.status = .completed → before.status = .completed

/-- A row that does not change is quiet. -/
theorem Quiet.refl (upload : ReleaseUpload) : Quiet upload upload :=
  ⟨.refl upload, fun hcompleted => hcompleted⟩

/-- Two quiet updates are a quiet one. -/
theorem Quiet.trans {later : ReleaseUpload} (h : Quiet before after) (h' : Quiet after later) :
    Quiet before later :=
  ⟨h.toKept.trans h'.toKept, fun hcompleted => h.completed (h'.completed hcompleted)⟩

theorem id_eq_of_identity (h : before.identity = after.identity) : before.id = after.id :=
  congrArg Prod.fst h

theorem objectKey_eq_of_identity (h : before.identity = after.identity) :
    before.objectKey = after.objectKey :=
  congrArg (fun columns => columns.2.2.2.2.2.1) h

theorem slot_eq_of_identity (h : before.identity = after.identity) :
    before.appId = after.appId ∧ before.releaseVersion = after.releaseVersion :=
  ⟨congrArg (fun columns => columns.2.1) h, congrArg (fun columns => columns.2.2.1) h⟩

theorem status_eq_of_outcome (h : before.outcome = after.outcome) : before.status = after.status :=
  congrArg Prod.fst h

/-- A discarded session is not pending. -/
theorem Discarded.not_pending (h : upload.Discarded) : upload.status ≠ .pending := by
  intro hpending
  rcases h with h | h <;> rw [hpending] at h <;> cases h

/-- A discarded session is not completed. -/
theorem Discarded.not_completed (h : upload.Discarded) : upload.status ≠ .completed := by
  intro hcompleted
  rcases h with h | h <;> rw [hcompleted] at h <;> cases h

/-- A discarded session stays discarded. -/
theorem Discarded.kept (h : before.Discarded) (hkept : Kept before after) : after.Discarded := by
  rw [Discarded, status_eq_of_outcome (hkept.outcome h.not_pending)]
  exact h

/-- A pending session expires quietly. -/
theorem quiet_expire (h : upload.status = .pending) : Quiet upload (upload.expire now) where
  identity := rfl
  outcome hclosed := absurd h hclosed
  reservation hactive := by cases hactive
  completed hcompleted := by cases hcompleted
  coherent hcoherent :=
    { named := hcoherent.named
      reserved := iff_of_false Bool.false_ne_true (by rintro ⟨⟩)
      verifying := fun hnone => absurd rfl hnone
      due := iff_of_true (Option.some_ne_none _) (.inl rfl)
      cleaning := fun _ => .inl rfl
      cleaned := fun hsome => ⟨.inl rfl, (hcoherent.cleaned hsome).2⟩ }

/-- A pending session is canceled quietly. -/
theorem quiet_cancel (cleanupError : String) (h : upload.status = .pending) :
    Quiet upload (upload.cancel now cleanupError) where
  identity := rfl
  outcome hclosed := absurd h hclosed
  reservation hactive := by cases hactive
  completed hcompleted := by cases hcompleted
  coherent hcoherent :=
    { named := hcoherent.named
      reserved := iff_of_false Bool.false_ne_true (by rintro ⟨⟩)
      verifying := fun hnone => absurd rfl hnone
      due := iff_of_true (Option.some_ne_none _) (.inr rfl)
      cleaning := fun _ => .inr rfl
      cleaned := fun hsome => ⟨.inr rfl, (hcoherent.cleaned hsome).2⟩ }

/-- The verification of a pending session is claimed quietly. -/
theorem quiet_claimVerification (h : upload.status = .pending) :
    Quiet upload (upload.claimVerification now) where
  identity := rfl
  outcome _ := rfl
  reservation hactive := hactive
  completed hcompleted := hcompleted
  coherent hcoherent := { hcoherent with verifying := fun _ => h }

/-- A claim on a verification is given back quietly. -/
theorem quiet_clearVerification (upload : ReleaseUpload) :
    Quiet upload upload.clearVerification where
  identity := rfl
  outcome _ := rfl
  reservation hactive := hactive
  completed hcompleted := hcompleted
  coherent hcoherent := { hcoherent with verifying := fun hnone => absurd rfl hnone }

/-- The version of the object of a pending session is stored quietly. -/
theorem quiet_storeObjectVersion (objectVersionId : String) (h : upload.status = .pending) :
    Quiet upload (upload.storeObjectVersion objectVersionId) where
  identity := rfl
  outcome hclosed := absurd h hclosed
  reservation hactive := hactive
  completed hcompleted := hcompleted
  coherent hcoherent := { hcoherent with }

/-- A completion keeps a pending session, though not quietly. -/
theorem kept_complete (checksum : String) (sizeBytes : Nat) (objectVersionId : String)
    (h : upload.status = .pending) :
    Kept upload (upload.complete checksum sizeBytes objectVersionId) where
  identity := rfl
  outcome hclosed := absurd h hclosed
  reservation hactive := by cases hactive
  coherent hcoherent := by
    have hnot : ¬ upload.Discarded := fun hdiscarded => hdiscarded.not_pending h
    exact
      { named := hcoherent.named
        reserved := iff_of_false Bool.false_ne_true (by rintro ⟨⟩)
        verifying := fun hnone => absurd rfl hnone
        due := iff_of_false (fun hsome => hnot (hcoherent.due.mp hsome))
          (fun hdiscarded => hdiscarded.not_completed rfl)
        cleaning := fun hsome => absurd (hcoherent.cleaning hsome) hnot
        cleaned := fun hsome => absurd (hcoherent.cleaned hsome).1 hnot }

/-- A cleanup starts quietly. -/
theorem quiet_startCleanup (h : upload.isCleanable now = true) :
    Quiet upload (upload.startCleanup now) where
  identity := rfl
  outcome _ := rfl
  reservation hactive := hactive
  completed hcompleted := hcompleted
  coherent hcoherent := by
    simp only [isCleanable, Bool.and_eq_true, Bool.or_eq_true, decide_eq_true_eq] at h
    refine { hcoherent with cleaning := fun _ => h.1.1.2, cleaned := fun hsome => ?_ }
    rw [Option.isNone_iff_eq_none] at h
    exact absurd h.1.2 hsome

/-- The cleanup of a discarded session is recorded quietly. -/
theorem quiet_completeCleanup (h : upload.Discarded) :
    Quiet upload (upload.completeCleanup now) where
  identity := rfl
  outcome _ := rfl
  reservation hactive := hactive
  completed hcompleted := hcompleted
  coherent hcoherent :=
    { hcoherent with
      cleaning := fun hnone => absurd rfl hnone
      cleaned := fun _ => ⟨h, rfl⟩ }

/-- A failed cleanup is recorded quietly. -/
theorem quiet_failCleanup (upload : ReleaseUpload) (message : String) :
    Quiet upload (upload.failCleanup message) where
  identity := rfl
  outcome _ := rfl
  reservation hactive := hactive
  completed hcompleted := hcompleted
  coherent hcoherent :=
    { hcoherent with
      cleaning := fun hnone => absurd rfl hnone
      cleaned := fun hsome => ⟨(hcoherent.cleaned hsome).1, rfl⟩ }

/-- A claim on a cleanup is given back quietly. -/
theorem quiet_releaseCleanup (upload : ReleaseUpload) : Quiet upload upload.releaseCleanup where
  identity := rfl
  outcome _ := rfl
  reservation hactive := hactive
  completed hcompleted := hcompleted
  coherent hcoherent :=
    { hcoherent with
      cleaning := fun hnone => absurd rfl hnone
      cleaned := fun hsome => ⟨(hcoherent.cleaned hsome).1, rfl⟩ }

/-- A restart takes back the claims on a session quietly. -/
theorem quiet_recovered (upload : ReleaseUpload) : Quiet upload upload.recovered := by
  have hsecond (row : ReleaseUpload) :
      Quiet row (if row.isInterrupted then row.releaseCleanup else row) := by
    split
    · exact quiet_releaseCleanup row
    · exact .refl row
  have hfirst : Quiet upload (if upload.isClaimed then upload.clearVerification else upload) := by
    split
    · exact quiet_clearVerification upload
    · exact .refl upload
  exact hfirst.trans (hsecond _)

/-- Restarted, a row keeps the record of its cleanup. -/
theorem cleanupCompletedAt_recovered (upload : ReleaseUpload) :
    upload.recovered.cleanupCompletedAt = upload.cleanupCompletedAt := by
  unfold recovered
  dsimp only
  split <;> split <;> rfl

/-- Restarted, a row that is not cleaned is claimed by nobody. -/
theorem unclaimed_recovered (h : upload.Coherent) (hopen : upload.cleanupCompletedAt = none) :
    upload.recovered.verificationStartedAt = none ∧ upload.recovered.cleanupStartedAt = none := by
  have hfirst : (if upload.isClaimed then upload.clearVerification else
      upload).verificationStartedAt = none := by
    split
    · rfl
    · rename_i hclaimed
      by_contra hsome
      have hpending := h.verifying hsome
      refine hclaimed ?_
      rw [isClaimed, hpending, h.reserved.mpr hpending, Option.isSome_iff_ne_none.mpr hsome]
      rfl
  have hkept : (if upload.isClaimed then upload.clearVerification else
      upload).cleanupCompletedAt = none := by
    split
    · exact hopen
    · exact hopen
  unfold recovered
  generalize (if upload.isClaimed then upload.clearVerification else upload) = row at hfirst hkept ⊢
  dsimp only
  split
  · exact ⟨hfirst, rfl⟩
  · rename_i hinterrupted
    refine ⟨hfirst, ?_⟩
    by_contra hsome
    refine hinterrupted ?_
    rw [isInterrupted, hkept, Option.isSome_iff_ne_none.mpr hsome]
    rfl

/-- Only pending sessions are due. -/
theorem pending_of_isDue (h : upload.isDue now = true) : upload.status = .pending := by
  simp only [isDue, Bool.and_eq_true, decide_eq_true_eq] at h
  exact h.1.1.1

theorem pending_of_isPending (h : upload.isPending = true) : upload.status = .pending :=
  of_decide_eq_true h

/-- Only the verification of a pending session can be claimed. -/
theorem pending_of_isClaimable (h : upload.isClaimable = true) : upload.status = .pending := by
  simp only [isClaimable, Bool.and_eq_true, decide_eq_true_eq] at h
  exact h.1.1

/-- Only pending sessions are being verified. -/
theorem pending_of_isClaimed (h : upload.isClaimed = true) : upload.status = .pending := by
  simp only [isClaimed, Bool.and_eq_true, decide_eq_true_eq] at h
  exact h.1.1

/-- Only discarded sessions are cleaned up. -/
theorem discarded_of_isCleanable (h : upload.isCleanable now = true) : upload.Discarded := by
  simp only [isCleanable, Bool.and_eq_true, Bool.or_eq_true, decide_eq_true_eq] at h
  exact h.1.1.2

end ReleaseUpload

namespace UploadTable
open ReleaseUpload

variable {uploads : UploadTable} {now : Int} {uploadId : String}

/-- A statement that changes the rows of a table one by one. -/
def ChangesRows (R : ReleaseUpload → ReleaseUpload → Prop) (uploads uploads' : UploadTable) :
    Prop :=
  ∃ f : ReleaseUpload → ReleaseUpload, uploads' = uploads.map f ∧ ∀ upload ∈ uploads,
    R upload (f upload)

/-- An update changes its row in one way and leaves the others. -/
theorem changesRows_change {R : ReleaseUpload → ReleaseUpload → Prop}
    {guard : ReleaseUpload → Bool} {update : ReleaseUpload → ReleaseUpload}
    (hrefl : ∀ upload, R upload upload) (h : ∀ upload ∈ uploads, upload.id = uploadId →
      guard upload = true → R upload (update upload)) :
    ChangesRows R uploads (uploads.change uploadId guard update) := by
  refine ⟨_, rfl, fun upload hupload => ?_⟩
  split
  · rename_i hwanted
    exact h upload hupload hwanted.1 hwanted.2
  · exact hrefl upload

/-- The reservation of a version expires quietly. -/
theorem quiet_expireReservation (appId : Int) (releaseVersion : String) :
    ChangesRows Quiet uploads
      (uploads.expireReleaseUploadReservation now appId releaseVersion) := by
  refine ⟨_, rfl, fun upload _ => ?_⟩
  split
  · rename_i hdue
    exact quiet_expire (pending_of_isDue hdue.2.2)
  · exact .refl upload

/-- A restart changes all sessions quietly. -/
theorem quiet_recoverInterrupted : ChangesRows Quiet uploads uploads.recoverInterrupted :=
  ⟨_, rfl, fun upload _ => quiet_recovered upload⟩

/-- The outcome of a cleanup is recorded quietly. -/
theorem quiet_finishCleanup (outcome : Except ArtifactStorageError Unit)
    (h : ∀ upload ∈ uploads, upload.id = uploadId → upload.Discarded) :
    ChangesRows Quiet uploads (uploads.finishCleanup now uploadId outcome) := by
  cases outcome with
  | ok done =>
      exact changesRows_change Quiet.refl fun upload hupload hid _ =>
        quiet_completeCleanup (h upload hupload hid)
  | error err =>
      exact changesRows_change Quiet.refl fun upload _ _ _ => quiet_failCleanup upload _

/-- An update that affects a row finds it. -/
theorem exists_of_affects {guard : ReleaseUpload → Bool}
    (h : uploads.affects uploadId guard = true) :
    ∃ upload ∈ uploads, upload.id = uploadId ∧ guard upload = true := by
  obtain ⟨upload, hupload, hcond⟩ := List.any_eq_true.mp h
  rw [Bool.and_eq_true, decide_eq_true_eq] at hcond
  exact ⟨upload, hupload, hcond⟩

namespace ChangesRows

variable {uploads' : UploadTable} {upload : ReleaseUpload}
  {R : ReleaseUpload → ReleaseUpload → Prop}

theorem kept (h : ChangesRows Quiet uploads uploads') : ChangesRows Kept uploads uploads' := by
  obtain ⟨f, heq, hquiet⟩ := h
  exact ⟨f, heq, fun upload hupload => (hquiet upload hupload).toKept⟩

/-- Each row is found again. -/
theorem forward (h : ChangesRows R uploads uploads') (hupload : upload ∈ uploads) :
    ∃ after ∈ uploads', R upload after := by
  obtain ⟨f, rfl, hall⟩ := h
  exact ⟨f upload, List.mem_map_of_mem hupload, hall upload hupload⟩

/-- Each row was there before. -/
theorem backward (h : ChangesRows R uploads uploads') (hupload : upload ∈ uploads') :
    ∃ before ∈ uploads, R before upload := by
  obtain ⟨f, rfl, hall⟩ := h
  obtain ⟨before, hbefore, rfl⟩ := List.mem_map.mp hupload
  exact ⟨before, hbefore, hall before hbefore⟩

/-- No session is added or removed. -/
theorem map_id (h : ChangesRows Kept uploads uploads') :
    uploads'.map ReleaseUpload.id = uploads.map ReleaseUpload.id := by
  obtain ⟨f, rfl, hall⟩ := h
  rw [List.map_map]
  exact List.map_congr_left fun upload hupload => id_eq_of_identity (hall upload hupload).identity

end ChangesRows

end UploadTable

end EasyDeploy.Uploads
