import EasyDeploy.Uploads.SessionSafety

/-!
# Runs of upload sessions

The invariant holds in every state of every run, whatever calls interleave and
end early. So what is published is kept, and each session is registered once.
-/

namespace EasyDeploy.Uploads
open Foundation Foundation.Transition ReleaseUpload UploadTable

variable {log : List SessionEvent} {s s' : Sessions} {call : Nat} {a : Action}

namespace Sound

theorem coherent_row (input : CreateUpload) : input.row.Coherent where
  named := by
    dsimp only [CreateUpload.row]
    exact namesUpload_uploadObjectKey input.objectPrefix input.appKey input.releaseVersion
      input.fileName input.millis input.random
  reserved := iff_of_true rfl rfl
  verifying hnone := absurd rfl hnone
  due := by
    have hstatus : input.row.status = .pending := rfl
    refine iff_of_false (fun hnone => hnone rfl) fun hdiscarded => ?_
    exact hdiscarded.not_pending hstatus
  cleaning hnone := absurd rfl hnone
  cleaned hnone := absurd rfl hnone

/-- A new session leaves the sessions sound. -/
theorem create (h : Sound log s) {input : CreateUpload} (hstep : s.create input = some s') :
    Sound log s' := by
  unfold Sessions.create at hstep
  dsimp only at hstep
  split at hstep
  · cases hstep
  · obtain ⟨uploads, hinsert, rfl⟩ := Option.map_eq_some_iff.mp hstep
    exact (h.keepQuiet (quiet_expireReservation _ _)).insert hinsert (coherent_row input) rfl

/-- A package that was uploaded to the platform leaves the sessions sound. -/
theorem registerLocal (h : Sound log s) {release : AppRelease}
    (hstep : s.registerLocal release = some s') : Sound log s' := by
  unfold Sessions.registerLocal at hstep
  dsimp only at hstep
  split at hstep
  · obtain ⟨releases, hinsert, rfl⟩ := Option.map_eq_some_iff.mp hstep
    refine (h.keepQuiet (quiet_expireReservation _ _)).insertRelease hinsert fun hprovider => ?_
    cases hprovider
  · cases hstep

/-- A release of an application leaves the sessions sound. -/
theorem registerComposed (h : Sound log s) {release : AppRelease}
    (hstep : s.registerComposed release = some s') : Sound log s' := by
  obtain ⟨releases, hinsert, rfl⟩ := Option.map_eq_some_iff.mp hstep
  refine h.insertRelease hinsert fun hprovider => ?_
  cases hprovider

/-- A completion that begins leaves the sessions sound. -/
theorem complete (h : Sound log s) {uploadId checksumSha256 : String} {sizeBytes : Nat}
    (hstep : s.complete uploadId checksumSha256 sizeBytes = some s') : Sound log s' := by
  obtain ⟨upload, hfind, rfl⟩ := Option.map_eq_some_iff.mp hstep
  refine h.withCompletions fun completion hcompletion => ?_
  rcases List.mem_append.mp hcompletion with hcompletion | hcompletion
  · exact h.completions completion hcompletion
  · rw [List.mem_singleton.mp hcompletion]
    exact ⟨⟨upload, List.mem_of_find?_eq_some hfind, rfl⟩, trivial⟩

/-- A cleanup that begins leaves the sessions sound. -/
theorem startCleanup (h : Sound log s) {uploadId : String}
    (hstep : s.startCleanup uploadId = some s') : Sound log s' := by
  obtain ⟨claimed, hclaim, rfl⟩ := Option.map_eq_some_iff.mp hstep
  obtain ⟨old, hold, hid, hcleanable, hrow, huploads⟩ := claimCleanup_eq_some hclaim
  have hquiet : ChangesRows Quiet s.uploads claimed.2 := by
    rw [huploads]
    exact changesRows_change Quiet.refl fun upload _ _ hguard => quiet_startCleanup hguard
  have hkept := h.keepQuiet hquiet
  refine hkept.withCleanups fun cleanup hcleanup => ?_
  rcases List.mem_append.mp hcleanup with hcleanup | hcleanup
  · exact hkept.cleanups cleanup hcleanup
  · obtain ⟨after, hafter, hchange⟩ := hquiet.forward hold
    rw [List.mem_singleton.mp hcleanup, hrow]
    exact ⟨after, hafter, hchange.identity,
      (discarded_of_isCleanable hcleanable).kept hchange.toKept⟩

/-- The transaction of a completion that was verified. -/
theorem register (h : Sound log s) {completion : Completion} {verified : VerifiedObject}
    (hcompletion : completion ∈ s.completions) (hstage : completion.stage = .finishing verified)
    (hstep : s.register completion verified = some s') :
    Sound (log ++ [.registered completion.upload.id]) s' := by
  obtain ⟨⟨known, hknown, hidentity⟩, hverified⟩ := h.completions completion hcompletion
  rw [hstage] at hverified
  unfold Sessions.register at hstep
  split at hstep
  · cases hstep
  · rename_i releases hinsert
    split at hstep
    · rename_i haffects
      obtain rfl := Option.some.inj hstep
      obtain ⟨row, hrow, hrowId, hclaimed⟩ := exists_of_affects haffects
      obtain rfl : row = known := h.keyed.eq hrow hknown
        (hrowId.trans (id_eq_of_identity hidentity).symm)
      have hpending := pending_of_isClaimed hclaimed
      have hchange : ChangesRows Kept s.uploads (s.uploads.completeReleaseUpload
          completion.upload.id verified.checksumSha256 verified.sizeBytes verified.versionId) :=
        changesRows_change Kept.refl fun upload _ _ hguard =>
          kept_complete _ _ _ (pending_of_isClaimed hguard)
      have hdone : row.complete verified.checksumSha256 verified.sizeBytes verified.versionId ∈
          s.uploads.completeReleaseUpload completion.upload.id verified.checksumSha256
            verified.sizeBytes verified.versionId :=
        mem_updateAt.mpr ⟨row, hrow, if_pos ⟨hrowId, hclaimed⟩⟩
      -- The rows: only the claimed one completes, with what was verified.
      have hrows := h.keepRows hchange fun upload hupload hstatus => by
        obtain ⟨before, hbefore, rfl⟩ := mem_updateAt.mp hupload
        split
        · rename_i hwanted
          obtain rfl := h.keyed.eq hbefore hrow (hwanted.1.trans hrowId.symm)
          right
          have hread := hverified.1
          rw [← objectKey_eq_of_identity hidentity] at hread
          exact hread
        · rename_i hother
          rw [if_neg hother] at hstatus
          exact .inl ⟨before, hbefore, hstatus, .refl before⟩
      have hpublished := hrows.insertRelease hinsert fun _ => by
        refine ⟨_, hdone, rfl, ?_⟩
        simp only [ReleaseUpload.identity, Prod.mk.injEq] at hidentity
        obtain ⟨-, happ, hversion, hcode, hfile, hkey, hbucket, hendpoint, -⟩ := hidentity
        simp only [Publishes, Sessions.release, ReleaseUpload.complete, happ, hversion, hcode,
          hfile, hkey, hbucket, hendpoint]
      refine hpublished.observe (fun objectKey versionId heq => by cases heq) ?_
      intro uploadId heq
      obtain rfl := SessionEvent.registered.inj heq
      refine ⟨fun hbefore => ?_, _, hdone, hrowId, rfl⟩
      obtain ⟨other, hother, hotherId, hotherStatus⟩ := h.registered _ hbefore
      obtain rfl := h.keyed.eq hother hrow (hotherId.trans hrowId.symm)
      rw [hpending] at hotherStatus
      cases hotherStatus
    · cases hstep

/-- The session of a completion is in the table. -/
theorem known (h : Sound log s) {completion : Completion}
    (hcompletion : completion ∈ s.completions) :
    ∃ upload ∈ s.uploads, upload.identity = completion.upload.identity :=
  (h.completions completion hcompletion).known

/-- The rows after a quiet statement still have the identities. -/
theorem known_quiet (h : Sound log s) {completion : Completion} {uploads : UploadTable}
    (hcompletion : completion ∈ s.completions) (hquiet : ChangesRows Quiet s.uploads uploads) :
    ∃ upload ∈ uploads, upload.identity = completion.upload.identity := by
  obtain ⟨before, hbefore, hidentity⟩ := h.known hcompletion
  obtain ⟨after, hafter, hchange⟩ := hquiet.forward hbefore
  exact ⟨after, hafter, hchange.identity.trans hidentity⟩

/-- A step of a call without an event, by the stage of the call. -/
theorem stepCompletion (h : Sound log s) {completion : Completion}
    (hcompletion : completion ∈ s.completions) (hfinish : ∀ other, a ≠ .finish other)
    (hverify : ∀ other verified, a ≠ .verify other (some verified))
    (hstep : s.stepCompletion call completion a = some s') : Sound log s' := by
  have hknown := h.known hcompletion
  have hverified := (h.completions completion hcompletion).verified
  unfold Sessions.stepCompletion at hstep
  split at hstep
  · split at hstep
    · obtain rfl := Option.some.inj hstep
      refine h.advance hknown ?_
      split <;> trivial
    · cases hstep
  · split at hstep
    · obtain rfl := Option.some.inj hstep
      exact (h.keepQuiet (changesRows_change Quiet.refl fun upload _ _ hguard =>
        quiet_expire (pending_of_isPending hguard))).endCall call
    · cases hstep
  · split at hstep
    · split at hstep
      · obtain rfl := Option.some.inj hstep
        have hquiet : ChangesRows Quiet s.uploads
            (s.uploads.claimReleaseUploadVerification s.now completion.upload.id) :=
          changesRows_change Quiet.refl fun upload _ _ hguard =>
            quiet_claimVerification (pending_of_isClaimable hguard)
        exact (h.keepQuiet hquiet).advance (h.known_quiet hcompletion hquiet) trivial
      · obtain rfl := Option.some.inj hstep
        exact h.endCall call
    · cases hstep
  · rename_i other verified
    split at hstep
    · cases verified with
      | some verified => exact absurd rfl (hverify other verified)
      | none =>
          obtain rfl := Option.some.inj hstep
          exact h.advance hknown trivial
    · cases hstep
  · split at hstep
    · rename_i verified hstage
      rw [hstage] at hverified
      split at hstep
      · obtain rfl := Option.some.inj hstep
        have hquiet : ChangesRows Quiet s.uploads (s.uploads.storeReleaseUploadObjectVersion
            completion.upload.id verified.versionId) :=
          changesRows_change Quiet.refl fun upload _ _ hguard =>
            quiet_storeObjectVersion _ (pending_of_isClaimed hguard)
        refine (h.keepQuiet hquiet).advance (h.known_quiet hcompletion hquiet) ?_
        split
        · rename_i hsame
          exact ⟨hverified, hsame⟩
        · trivial
      · obtain rfl := Option.some.inj hstep
        exact h.advance hknown trivial
    · cases hstep
  · rename_i other
    exact absurd rfl (hfinish other)
  · split at hstep
    · obtain rfl := Option.some.inj hstep
      exact h.advance hknown trivial
    · cases hstep
  · split at hstep
    · obtain rfl := Option.some.inj hstep
      exact (h.keepQuiet (changesRows_change Quiet.refl fun upload _ _ _ =>
        quiet_clearVerification upload)).endCall call
    · cases hstep
  · split at hstep
    · obtain rfl := Option.some.inj hstep
      exact (h.keepQuiet (changesRows_change Quiet.refl fun upload _ _ hguard =>
        quiet_cancel _ (pending_of_isPending hguard))).endCall call
    · cases hstep
  · obtain rfl := Option.some.inj hstep
    exact h.endCall call
  · cases hstep

/-- Only the rows of discarded sessions get the record of a cleanup. -/
theorem quiet_finish (h : Sound log s) {cleanup : UploadCleanup} (hcleanup : cleanup ∈ s.cleanups)
    (outcome : Except ArtifactStorageError Unit) : ChangesRows Quiet s.uploads
      (s.uploads.finishCleanup s.now cleanup.upload.id outcome) := by
  obtain ⟨row, hrow, hidentity, hdiscarded⟩ := h.cleanups cleanup hcleanup
  refine quiet_finishCleanup outcome fun upload hupload hid => ?_
  rw [h.keyed.eq hupload hrow (hid.trans (id_eq_of_identity hidentity).symm)]
  exact hdiscarded

/-- A cleanup that goes on leaves the sessions sound. -/
theorem stepCleanup (h : Sound log s) {cleanup : UploadCleanup}
    (hcleanup : cleanup ∈ s.cleanups) (hstep : s.stepCleanup call cleanup a = some s') :
    Sound log s' := by
  unfold Sessions.stepCleanup at hstep
  split at hstep
  · split at hstep
    · split at hstep
      · obtain rfl := Option.some.inj hstep
        exact h.advanceCleanup _ hcleanup
      · obtain rfl := Option.some.inj hstep
        exact h.advanceCleanup _ hcleanup
    · cases hstep
  · split at hstep
    · obtain rfl := Option.some.inj hstep
      exact h.advanceCleanup _ hcleanup
    · split at hstep
      · obtain rfl := Option.some.inj hstep
        exact h.advanceCleanup _ hcleanup
      · obtain rfl := Option.some.inj hstep
        exact h.advanceCleanup _ hcleanup
    · cases hstep
  · split at hstep
    · obtain rfl := Option.some.inj hstep
      exact (h.keepQuiet (h.quiet_finish hcleanup _)).endCleanup call
    · cases hstep
  · obtain rfl := Option.some.inj hstep
    exact h.endCleanup call
  · cases hstep

/-- An event that registers nothing and names a version of a discarded object, if it deletes. -/
theorem observeQuiet (h : Sound log s) {event : SessionEvent}
    (hquiet : event.registeredUpload = none) (hdeleted : ∀ objectKey versionId,
      event = .deleted objectKey versionId → ∃ upload ∈ s.uploads,
        upload.objectKey = objectKey ∧ upload.Discarded) : Sound (log ++ [event]) s := by
  refine h.observe hdeleted fun uploadId heq => ?_
  rw [heq] at hquiet
  cases hquiet

/-- A verification leaves the sessions sound. -/
theorem verify (h : Sound log s) {verified : VerifiedObject}
    (hstep : s.step (.verify call (some verified)) = some s') :
    Sound (log ++ (s.event (.verify call (some verified))).toList) s' := by
  obtain ⟨completion, hcall, hstep⟩ := Option.bind_eq_some_iff.mp hstep
  have hevent : s.event (.verify call (some verified)) =
      some (.verified completion.upload.objectKey verified) := by
    rw [Sessions.event, hcall, Option.map_some]
  rw [hevent, Option.toList_some]
  have hread : Sound (log ++ [.verified completion.upload.objectKey verified]) s :=
    h.observeQuiet rfl fun _ _ heq => by cases heq
  unfold Sessions.stepCompletion at hstep
  dsimp only at hstep
  split at hstep
  · obtain rfl := Option.some.inj hstep
    exact hread.advance (h.known (List.mem_of_getElem? hcall))
      (List.mem_append_right _ List.mem_cons_self)
  · cases hstep

/-- A registration leaves the sessions sound. -/
theorem finish (h : Sound log s) (hstep : s.step (.finish call) = some s') :
    Sound (log ++ (s.event (.finish call)).toList) s' := by
  obtain ⟨completion, hcall, hstep⟩ := Option.bind_eq_some_iff.mp hstep
  have hcompletion := List.mem_of_getElem? hcall
  unfold Sessions.stepCompletion at hstep
  dsimp only at hstep
  split at hstep
  · rename_i verified hstage
    have hevent : s.event (.finish call) = (s.register completion verified).map fun _ =>
        .registered completion.upload.id := by
      rw [Sessions.event, hcall, Option.bind_some, hstage]
    rw [hevent]
    split at hstep
    · rename_i registered hregister
      obtain rfl := Option.some.inj hstep
      rw [hregister, Option.map_some, Option.toList_some]
      exact (h.register hcompletion hstage hregister).endCall call
    · rename_i hregister
      obtain rfl := Option.some.inj hstep
      rw [hregister, Option.map_none, Option.toList_none, List.append_nil]
      exact h.advance (h.known hcompletion) trivial
  · cases hstep

/-- The deletion of an object leaves the sessions sound. -/
theorem delete (h : Sound log s) {store : ObjectStore}
    (hstep : s.step (.delete call store) = some s') :
    Sound (log ++ (s.event (.delete call store)).toList) s' := by
  obtain ⟨cleanup, hcall, hstep⟩ := Option.bind_eq_some_iff.mp hstep
  have hcleanup := List.mem_of_getElem? hcall
  have hnext := h.stepCleanup hcleanup hstep
  cases hstage : cleanup.stage with
  | listing =>
      rw [Sessions.event, hcall, Option.bind_some, hstage]
      rw [Option.toList_none, List.append_nil]
      exact hnext
  | recording outcome =>
      rw [Sessions.event, hcall, Option.bind_some, hstage]
      rw [Option.toList_none, List.append_nil]
      exact hnext
  | deleting remaining =>
      cases remaining with
      | nil =>
          rw [Sessions.event, hcall, Option.bind_some, hstage]
          rw [Option.toList_none, List.append_nil]
          exact hnext
      | cons version rest =>
          have hevent : s.event (.delete call store) =
              some (.deleted cleanup.upload.objectKey version.versionId) := by
            rw [Sessions.event, hcall, Option.bind_some, hstage]
          rw [hevent, Option.toList_some]
          obtain ⟨row, hrow, hidentity, hdiscarded⟩ := h.cleanups cleanup hcleanup
          have hsent : Sound (log ++ [.deleted cleanup.upload.objectKey version.versionId]) s := by
            refine h.observeQuiet rfl fun objectKey versionId heq => ?_
            obtain ⟨rfl, -⟩ := SessionEvent.deleted.inj heq
            exact ⟨row, hrow, objectKey_eq_of_identity hidentity, hdiscarded⟩
          exact hsent.stepCleanup hcleanup hstep

/-- A step without an event. -/
theorem silent (h : Sound log s') (hnone : s.event a = none) :
    Sound (log ++ (s.event a).toList) s' := by
  rw [hnone, Option.toList_none, List.append_nil]
  exact h

/-- Each step keeps the invariant. -/
theorem step (h : Sound log s) (hstep : s.step a = some s') :
    Sound (log ++ (s.event a).toList) s' := by
  have hcall {call : Nat} (hstep : (s.completions[call]?.bind fun completion =>
      s.stepCompletion call completion a) = some s') (hfinish : ∀ other, a ≠ .finish other)
      (hverify : ∀ other verified, a ≠ .verify other (some verified)) : Sound log s' := by
    obtain ⟨completion, hcompletion, hstep⟩ := Option.bind_eq_some_iff.mp hstep
    exact h.stepCompletion (List.mem_of_getElem? hcompletion) hfinish hverify hstep
  have hclean {call : Nat} (hstep : (s.cleanups[call]?.bind fun cleanup =>
      s.stepCleanup call cleanup a) = some s') : Sound log s' := by
    obtain ⟨cleanup, hcleanup, hstep⟩ := Option.bind_eq_some_iff.mp hstep
    exact h.stepCleanup (List.mem_of_getElem? hcleanup) hstep
  cases a with
  | tick millis =>
      obtain rfl := Option.some.inj hstep
      exact silent { h with } rfl
  | create input => exact silent (h.create hstep) rfl
  | registerLocal release => exact silent (h.registerLocal hstep) rfl
  | registerComposed release => exact silent (h.registerComposed hstep) rfl
  | deleteRelease releaseId =>
      obtain rfl := Option.some.inj hstep
      refine silent (h.withReleases ?_ fun release hrelease => ?_) rfl
      · exact (List.filter_sublist.map _).nodup h.slots
      · exact h.published release (List.mem_of_mem_filter hrelease)
  | ensureVersionAvailable appId version =>
      obtain rfl := Option.some.inj hstep
      exact silent (h.keepQuiet (quiet_expireReservation _ _)) rfl
  | complete uploadId checksumSha256 sizeBytes => exact silent (h.complete hstep) rfl
  | check call => exact silent (hcall hstep (by rintro _ ⟨⟩) (by rintro _ _ ⟨⟩)) rfl
  | expireSession call => exact silent (hcall hstep (by rintro _ ⟨⟩) (by rintro _ _ ⟨⟩)) rfl
  | claim call => exact silent (hcall hstep (by rintro _ ⟨⟩) (by rintro _ _ ⟨⟩)) rfl
  | verify call verified =>
      cases verified with
      | some verified => exact h.verify hstep
      | none => exact silent (hcall hstep (by rintro _ ⟨⟩) (by rintro _ _ ⟨⟩)) rfl
  | store call => exact silent (hcall hstep (by rintro _ ⟨⟩) (by rintro _ _ ⟨⟩)) rfl
  | finish call => exact h.finish hstep
  | failFinish call => exact silent (hcall hstep (by rintro _ ⟨⟩) (by rintro _ _ ⟨⟩)) rfl
  | clear call => exact silent (hcall hstep (by rintro _ ⟨⟩) (by rintro _ _ ⟨⟩)) rfl
  | cancel call => exact silent (hcall hstep (by rintro _ ⟨⟩) (by rintro _ _ ⟨⟩)) rfl
  | abandon call => exact silent (hcall hstep (by rintro _ ⟨⟩) (by rintro _ _ ⟨⟩)) rfl
  | expireDue uploadId =>
      obtain rfl := Option.some.inj hstep
      exact silent (h.keepQuiet (changesRows_change Quiet.refl fun upload _ _ hguard =>
        quiet_expire (pending_of_isDue hguard))) rfl
  | startCleanup uploadId => exact silent (h.startCleanup hstep) rfl
  | list call store => exact silent (hclean hstep) rfl
  | delete call store => exact h.delete hstep
  | record call => exact silent (hclean hstep) rfl
  | abandonCleanup call => exact silent (hclean hstep) rfl
  | recover =>
      obtain rfl := Option.some.inj hstep
      exact silent (h.keepQuiet quiet_recoverInterrupted) rfl

end Sound

/-- Every state of every run is sound. -/
theorem sound_of_reachable {state : List SessionEvent × Sessions}
    (h : Reachable uploadSessions state) : Sound state.1 state.2 := by
  refine h.invariant (P := fun state => Sound state.1 state.2) (fun state hstart => ?_)
    fun state a state' _ _ hsound hstep => ?_
  · obtain ⟨log, s⟩ := state
    obtain ⟨rfl, huploads, hreleases, hcompletions, hcleanups⟩ := hstart
    obtain ⟨now, uploads, releases, completions, cleanups⟩ := s
    obtain rfl := huploads
    obtain rfl := hreleases
    obtain rfl := hcompletions
    obtain rfl := hcleanups
    constructor <;> simp [Keyed]
  · obtain ⟨log, s⟩ := state
    obtain ⟨log', s'⟩ := state'
    obtain ⟨hnext, rfl⟩ := step_logged_eq_some.mp hstep
    exact hsound.step hnext

/-- A release in the object store is that of one completed session, no two releases are of one
session, what it says of the object is what the verifier has read, and no request ever deletes a
version of its object. Each session is registered at most once. -/
theorem published_objects_kept (log : List SessionEvent) (s : Sessions)
    (h : Reachable uploadSessions (log, s)) :
    (∀ release ∈ s.releases, release.storage.provider = .aliyunOss →
      ∃ upload ∈ s.uploads, upload.status = .completed ∧ Publishes upload release ∧
        (∀ other ∈ s.uploads, Publishes other release → other = upload) ∧
        (∀ other ∈ s.releases, Publishes upload other → other = release) ∧
        .verified release.storage.objectKey ⟨release.checksumSha256, release.sizeBytes,
          release.storage.objectVersionId⟩ ∈ log ∧
        ∀ versionId, .deleted release.storage.objectKey versionId ∉ log) ∧
    (log.filterMap SessionEvent.registeredUpload).Nodup := by
  have hsound := sound_of_reachable h
  refine ⟨fun release hrelease hprovider => ?_, hsound.once⟩
  obtain ⟨upload, hupload, hstatus, hpublishes⟩ := hsound.published release hrelease hprovider
  have hfields : release.storage.objectKey = upload.objectKey ∧
      release.checksumSha256 = upload.checksumSha256 ∧ release.sizeBytes = upload.sizeBytes ∧
        release.storage.objectVersionId = upload.objectVersionId := by
    rw [hpublishes]
    exact ⟨rfl, rfl, rfl, rfl⟩
  refine ⟨upload, hupload, hstatus, hpublishes, ?_, ?_, ?_, ?_⟩
  · intro other hother hsame
    refine hsound.eq_of_objectKey hother hupload ?_
    rw [← hfields.1, hsame]
    rfl
  · intro other hother hsame
    have hslot : other.slot = release.slot := by
      rw [hsame, hpublishes]
      rfl
    exact List.inj_on_of_nodup_map hsound.slots hother hrelease hslot
  · rw [hfields.1, hfields.2.1, hfields.2.2.1, hfields.2.2.2]
    exact hsound.verified upload hupload hstatus
  · intro versionId hdeleted
    obtain ⟨other, hother, hkey, hdiscarded⟩ := hsound.deleted _ _ hdeleted
    rw [hfields.1] at hkey
    obtain rfl := hsound.eq_of_objectKey hother hupload hkey
    exact hdiscarded.not_completed hstatus

/-- The rows of a table that are found again in another one, changed as rows may change. -/
def Forward (uploads uploads' : UploadTable) : Prop :=
  ∀ upload ∈ uploads, ∃ after ∈ uploads', Kept upload after

/-- Each row is found again where nothing changes. -/
theorem Forward.refl (uploads : UploadTable) : Forward uploads uploads :=
  fun upload hupload => ⟨upload, hupload, .refl upload⟩

/-- An update loses no row. -/
theorem forward_change {uploads : UploadTable} {uploadId : String} {guard : ReleaseUpload → Bool}
    {update : ReleaseUpload → ReleaseUpload} (h : ∀ upload, guard upload = true →
      Kept upload (update upload)) : Forward uploads (uploads.change uploadId guard update) :=
  fun _ hupload => (changesRows_change Kept.refl fun upload _ _ hguard =>
    h upload hguard).forward hupload

/-- A registration loses no row. -/
theorem forward_register {completion : Completion} {verified : VerifiedObject}
    (hstep : s.register completion verified = some s') : Forward s.uploads s'.uploads := by
  unfold Sessions.register at hstep
  split at hstep
  · cases hstep
  · split at hstep
    · obtain rfl := Option.some.inj hstep
      exact forward_change fun upload hguard => kept_complete _ _ _ (pending_of_isClaimed hguard)
    · cases hstep

/-- A completion loses no row. -/
theorem forward_stepCompletion {completion : Completion}
    (hstep : s.stepCompletion call completion a = some s') : Forward s.uploads s'.uploads := by
  unfold Sessions.stepCompletion at hstep
  split at hstep
  · split at hstep
    · obtain rfl := Option.some.inj hstep
      exact .refl _
    · cases hstep
  · split at hstep
    · obtain rfl := Option.some.inj hstep
      exact forward_change fun upload hguard =>
        (quiet_expire (pending_of_isPending hguard)).toKept
    · cases hstep
  · split at hstep
    · split at hstep
      · obtain rfl := Option.some.inj hstep
        exact forward_change fun upload hguard =>
          (quiet_claimVerification (pending_of_isClaimable hguard)).toKept
      · obtain rfl := Option.some.inj hstep
        exact .refl _
    · cases hstep
  · split at hstep
    · obtain rfl := Option.some.inj hstep
      exact .refl _
    · cases hstep
  · split at hstep
    · split at hstep
      · obtain rfl := Option.some.inj hstep
        exact forward_change fun upload hguard =>
          (quiet_storeObjectVersion _ (pending_of_isClaimed hguard)).toKept
      · obtain rfl := Option.some.inj hstep
        exact .refl _
    · cases hstep
  · split at hstep
    · split at hstep
      · rename_i registered hregister
        obtain rfl := Option.some.inj hstep
        have hforward := forward_register hregister
        exact hforward
      · obtain rfl := Option.some.inj hstep
        exact .refl _
    · cases hstep
  · split at hstep
    · obtain rfl := Option.some.inj hstep
      exact .refl _
    · cases hstep
  · split at hstep
    · obtain rfl := Option.some.inj hstep
      exact forward_change fun upload _ => (quiet_clearVerification upload).toKept
    · cases hstep
  · split at hstep
    · obtain rfl := Option.some.inj hstep
      exact forward_change fun upload hguard =>
        (quiet_cancel _ (pending_of_isPending hguard)).toKept
    · cases hstep
  · obtain rfl := Option.some.inj hstep
    exact .refl _
  · cases hstep

/-- A cleanup loses no row. -/
theorem forward_stepCleanup (hsound : Sound log s) {cleanup : UploadCleanup}
    (hcleanup : cleanup ∈ s.cleanups) (hstep : s.stepCleanup call cleanup a = some s') :
    Forward s.uploads s'.uploads := by
  unfold Sessions.stepCleanup at hstep
  split at hstep
  · split at hstep
    · split at hstep
      · obtain rfl := Option.some.inj hstep
        exact .refl _
      · obtain rfl := Option.some.inj hstep
        exact .refl _
    · cases hstep
  · split at hstep
    · obtain rfl := Option.some.inj hstep
      exact .refl _
    · split at hstep
      · obtain rfl := Option.some.inj hstep
        exact .refl _
      · obtain rfl := Option.some.inj hstep
        exact .refl _
    · cases hstep
  · split at hstep
    · obtain rfl := Option.some.inj hstep
      exact fun _ hupload => (hsound.quiet_finish hcleanup _).kept.forward hupload
    · cases hstep
  · obtain rfl := Option.some.inj hstep
    exact .refl _
  · cases hstep

/-- No step loses a row or changes what is settled about it. -/
theorem forward_step (hsound : Sound log s) (hstep : s.step a = some s') :
    Forward s.uploads s'.uploads := by
  have hcall {call : Nat} (hstep : (s.completions[call]?.bind fun completion =>
      s.stepCompletion call completion a) = some s') : Forward s.uploads s'.uploads := by
    obtain ⟨completion, -, hstep⟩ := Option.bind_eq_some_iff.mp hstep
    exact forward_stepCompletion hstep
  have hclean {call : Nat} (hstep : (s.cleanups[call]?.bind fun cleanup =>
      s.stepCleanup call cleanup a) = some s') : Forward s.uploads s'.uploads := by
    obtain ⟨cleanup, hcleanup, hstep⟩ := Option.bind_eq_some_iff.mp hstep
    exact forward_stepCleanup hsound (List.mem_of_getElem? hcleanup) hstep
  have hreservation (appId : Int) (version : String) : Forward s.uploads
      (s.uploads.expireReleaseUploadReservation s.now appId version) :=
    fun _ hupload => (quiet_expireReservation appId version).kept.forward hupload
  cases a with
  | tick millis =>
      obtain rfl := Option.some.inj hstep
      exact .refl _
  | create input =>
      change s.create input = some s' at hstep
      unfold Sessions.create at hstep
      dsimp only at hstep
      split at hstep
      · cases hstep
      · obtain ⟨uploads, hinsert, rfl⟩ := Option.map_eq_some_iff.mp hstep
        unfold UploadTable.insertNew at hinsert
        split at hinsert
        · cases hinsert
        · obtain rfl := Option.some.inj hinsert
          intro upload hupload
          obtain ⟨after, hafter, hkept⟩ := hreservation _ _ upload hupload
          exact ⟨after, List.mem_append_left _ hafter, hkept⟩
  | registerLocal release =>
      change s.registerLocal release = some s' at hstep
      unfold Sessions.registerLocal at hstep
      dsimp only at hstep
      split at hstep
      · obtain ⟨releases, -, rfl⟩ := Option.map_eq_some_iff.mp hstep
        exact hreservation _ _
      · cases hstep
  | registerComposed release =>
      obtain ⟨releases, -, rfl⟩ := Option.map_eq_some_iff.mp hstep
      exact .refl _
  | deleteRelease releaseId =>
      obtain rfl := Option.some.inj hstep
      exact .refl _
  | ensureVersionAvailable appId version =>
      obtain rfl := Option.some.inj hstep
      exact hreservation _ _
  | complete uploadId checksumSha256 sizeBytes =>
      obtain ⟨upload, -, rfl⟩ := Option.map_eq_some_iff.mp hstep
      exact .refl _
  | expireDue uploadId =>
      obtain rfl := Option.some.inj hstep
      exact forward_change fun upload hguard => (quiet_expire (pending_of_isDue hguard)).toKept
  | startCleanup uploadId =>
      obtain ⟨claimed, hclaim, rfl⟩ := Option.map_eq_some_iff.mp hstep
      obtain ⟨old, -, -, -, -, huploads⟩ := claimCleanup_eq_some hclaim
      rw [huploads]
      exact forward_change fun upload hguard => (quiet_startCleanup hguard).toKept
  | recover =>
      obtain rfl := Option.some.inj hstep
      exact fun _ hupload => quiet_recoverInterrupted.kept.forward hupload
  | list call store => exact hclean hstep
  | delete call store => exact hclean hstep
  | record call => exact hclean hstep
  | abandonCleanup call => exact hclean hstep
  | _ => exact hcall hstep

/-- Rows in later states: a session stays, and its outcome once it is settled. -/
theorem forward_of_later {state later : List SessionEvent × Sessions}
    (h : Reachable uploadSessions state)
    (hlater : Reachable (uploadSessions.startingAt state) later) :
    Forward state.2.uploads later.2.uploads := by
  induction hlater with
  | start hstart =>
      rw [hstart]
      exact .refl _
  | @next before a after hbefore _ hstep ih =>
      obtain ⟨log, s⟩ := before
      obtain ⟨log', s'⟩ := after
      obtain ⟨hnext, -⟩ := step_logged_eq_some.mp hstep
      have hsound := sound_of_reachable (h.of_startingAt hbefore)
      intro upload hupload
      obtain ⟨between, hbetween, hkept⟩ := ih upload hupload
      obtain ⟨last, hlast, hkept'⟩ := forward_step hsound hnext between hbetween
      exact ⟨last, hlast, hkept.trans hkept'⟩

/-- In every state the columns of a session agree with its status, and a version is reserved by at
most one session, which is pending. In every later state the session is still there, and once it is
no longer pending its status, checksum, size and object version are final. -/
theorem upload_sessions_settle (log : List SessionEvent) (s : Sessions)
    (h : Reachable uploadSessions (log, s)) :
    (∀ upload ∈ s.uploads, upload.Coherent) ∧
    (∀ upload ∈ s.uploads, ∀ other ∈ s.uploads, upload.reservationActive = true →
      other.reservationActive = true → upload.appId = other.appId →
        upload.releaseVersion = other.releaseVersion → upload = other) ∧
    ∀ log' s', Reachable (uploadSessions.startingAt (log, s)) (log', s') →
      ∀ upload ∈ s.uploads, ∃ after ∈ s'.uploads, after.identity = upload.identity ∧
        (upload.status ≠ .pending → after.outcome = upload.outcome) := by
  have hsound := sound_of_reachable h
  refine ⟨hsound.coherent, fun upload hupload other hother hactive hactive' happ hversion => ?_,
    fun log' s' hlater upload hupload => ?_⟩
  · exact hsound.keyed.eq hupload hother
      (hsound.reserved upload hupload other hother hactive hactive' happ hversion)
  · obtain ⟨after, hafter, hkept⟩ := forward_of_later h hlater upload hupload
    exact ⟨after, hafter, hkept.identity, hkept.outcome⟩

namespace Sample

def created (millis : Nat) (version : String) : CreateUpload where
  millis := millis
  random := [171]
  appId := 1
  appKey := "a"
  releaseVersion := version
  versionCode := 1000000
  fileName := "a.zip"
  objectPrefix := ""
  bucket := "packages"
  endpoint := ""
  expiresAt := 900000

def listing : String :=
  "<ListVersionsResult><IsTruncated>false</IsTruncated><Version>" ++
    "<Key>a/v2/uploads/upload-2-ab/a.zip</Key><VersionId>7</VersionId></Version>" ++
    "</ListVersionsResult>"

/-- A store that has one version of the object of the second session. -/
def store : ObjectStore where
  validateRequired := .ok ()
  list _ _ := .ok ⟨200, none, [.ok listing.toUTF8.data.toList]⟩
  delete _ _ _ := .ok 204
  fromXml text :=
    if text = listing then
      .ok ⟨some "false", none, none, [⟨"a/v2/uploads/upload-2-ab/a.zip", some "7"⟩], []⟩
    else .error "missing field"
  canonicalReason _ := none

def start : Sessions := ⟨0, [], [], [], []⟩

/-- The first session is completed; the second one expires, and its object is deleted. -/
def actions : List Action :=
  [.create (created 1 "v1"), .create (created 2 "v2"), .complete "upload-1-ab" "c0ffee" 12,
    .check 0, .claim 0, .verify 0 (some ⟨"c0ffee", 12, "3"⟩), .store 0, .finish 0, .tick 900000,
    .expireDue "upload-2-ab", .startCleanup "upload-2-ab", .list 0 store, .delete 0 store,
    .delete 0 store, .record 0]

theorem reachable_start : Reachable uploadSessions ([], start) := .start ⟨rfl, rfl, rfl, rfl, rfl⟩

theorem run : (uploadSessions.exec ([], start) actions).map (fun state =>
    (state.2.releases.map (·.version), state.2.uploads.map (·.status))) =
      some (["v1"], [.completed, .expired]) := by
  decide +kernel

/-- The package that is registered, and the request that deletes the other one. -/
theorem run_releases : (uploadSessions.exec ([], start) actions).map (fun state =>
    (state.2.releases.map fun release => (release.storage.provider, release.storage.objectKey),
      state.1)) =
    some ([(.aliyunOss, "a/v1/uploads/upload-1-ab/a.zip")],
      [.verified "a/v1/uploads/upload-1-ab/a.zip" ⟨"c0ffee", 12, "3"⟩, .registered "upload-1-ab",
        .deleted "a/v2/uploads/upload-2-ab/a.zip" (some "7")]) := by
  decide +kernel

end Sample

/-- One session is registered, and the object of another one is deleted. -/
theorem published_objects_kept_sample : ∃ log s,
    uploadSessions.exec ([], Sample.start) Sample.actions = some (log, s) ∧
      .deleted "a/v2/uploads/upload-2-ab/a.zip" (some "7") ∈ log ∧
      (∃ release ∈ s.releases, ∃ upload ∈ s.uploads, upload.status = .completed ∧
        Publishes upload release ∧ ∀ versionId,
          .deleted release.storage.objectKey versionId ∉ log) ∧
      (log.filterMap SessionEvent.registeredUpload).Nodup := by
  obtain ⟨⟨log, s⟩, hexec, hrun⟩ := Option.map_eq_some_iff.mp Sample.run_releases
  obtain ⟨hreleases, hlog⟩ := Prod.mk.inj hrun
  obtain ⟨hpublished, honce⟩ := published_objects_kept log s (Sample.reachable_start.exec hexec)
  obtain ⟨release, hrelease, hfields⟩ := List.mem_map.mp (hreleases ▸ List.mem_singleton_self _)
  obtain ⟨upload, hupload, hstatus, hpublishes, -, -, -, hkept⟩ :=
    hpublished release hrelease (Prod.mk.inj hfields).1
  refine ⟨log, s, hexec, ?_, ⟨release, hrelease, upload, hupload, hstatus, hpublishes, hkept⟩,
    honce⟩
  rw [show log = _ from hlog]
  exact List.mem_cons_of_mem _ (List.mem_cons_of_mem _ List.mem_cons_self)

/-- One session is completed and the other one has expired. -/
theorem upload_sessions_settle_sample : ∃ log s,
    uploadSessions.exec ([], Sample.start) Sample.actions = some (log, s) ∧
      s.uploads.map (·.status) = [.completed, .expired] ∧
        ∀ upload ∈ s.uploads, upload.Coherent := by
  obtain ⟨⟨log, s⟩, hexec, hrun⟩ := Option.map_eq_some_iff.mp Sample.run
  exact ⟨log, s, hexec, congrArg Prod.snd hrun,
    (upload_sessions_settle log s (Sample.reachable_start.exec hexec)).1⟩

end EasyDeploy.Uploads
