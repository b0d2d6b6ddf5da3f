import EasyDeploy.Uploads.SessionRows

/-!
# Sessions and releases

A release in the object store is the release of one completed session, whose
object no cleanup touches; cleanups belong to sessions that expired or were
canceled, and no session is both.
-/

namespace EasyDeploy.Uploads
open Foundation Foundation.Transition ReleaseUpload UploadTable

variable {log : List SessionEvent} {s s' : Sessions} {call : Nat}

/-- The session of a registration. -/
def SessionEvent.registeredUpload : SessionEvent → Option String
  | .registered uploadId => some uploadId
  | _ => none

/-- What the completed session has registered. -/
def Publishes (upload : ReleaseUpload) (release : AppRelease) : Prop :=
  release = { Sessions.release upload
    ⟨upload.checksumSha256, upload.sizeBytes, upload.objectVersionId⟩ with id := release.id }

/-- What the verifier has read before a completion stores or registers it. -/
def CompletionStage.Verified (log : List SessionEvent) (completion : Completion) :
    CompletionStage → Prop
  | .storing verified => .verified completion.upload.objectKey verified ∈ log
  | .finishing verified => .verified completion.upload.objectKey verified ∈ log ∧
      verified.checksumSha256 = completion.checksumSha256 ∧
        verified.sizeBytes = completion.sizeBytes
  | _ => True

/-- What a call knows at its stage. -/
structure CompletionSound (log : List SessionEvent) (uploads : UploadTable)
    (completion : Completion) : Prop where
  known : ∃ upload ∈ uploads, upload.identity = completion.upload.identity
  verified : completion.stage.Verified log completion

/-- The invariant of the sessions. -/
structure Sound (log : List SessionEvent) (s : Sessions) : Prop where
  keyed : Keyed s.uploads ReleaseUpload.id
  coherent : ∀ upload ∈ s.uploads, upload.Coherent
  reserved : ∀ upload ∈ s.uploads, ∀ other ∈ s.uploads, upload.reservationActive = true →
    other.reservationActive = true → upload.appId = other.appId →
      upload.releaseVersion = other.releaseVersion → upload.id = other.id
  slots : (s.releases.map AppRelease.slot).Nodup
  published : ∀ release ∈ s.releases, release.storage.provider = .aliyunOss →
    ∃ upload ∈ s.uploads, upload.status = .completed ∧ Publishes upload release
  completions : ∀ completion ∈ s.completions, CompletionSound log s.uploads completion
  cleanups : ∀ cleanup ∈ s.cleanups, ∃ upload ∈ s.uploads,
    upload.identity = cleanup.upload.identity ∧ upload.Discarded
  deleted : ∀ objectKey versionId, .deleted objectKey versionId ∈ log →
    ∃ upload ∈ s.uploads, upload.objectKey = objectKey ∧ upload.Discarded
  registered : ∀ uploadId, .registered uploadId ∈ log →
    ∃ upload ∈ s.uploads, upload.id = uploadId ∧ upload.status = .completed
  once : (log.filterMap SessionEvent.registeredUpload).Nodup
  verified : ∀ upload ∈ s.uploads, upload.status = .completed → .verified upload.objectKey
    ⟨upload.checksumSha256, upload.sizeBytes, upload.objectVersionId⟩ ∈ log

theorem Publishes.kept {upload after : ReleaseUpload} {release : AppRelease}
    (h : Publishes upload release) (hidentity : after.identity = upload.identity)
    (houtcome : after.outcome = upload.outcome) : Publishes after release := by
  have hsame : Sessions.release after
      ⟨after.checksumSha256, after.sizeBytes, after.objectVersionId⟩ = Sessions.release upload
        ⟨upload.checksumSha256, upload.sizeBytes, upload.objectVersionId⟩ := by
    simp only [ReleaseUpload.identity, Prod.mk.injEq] at hidentity
    simp only [ReleaseUpload.outcome, Prod.mk.injEq] at houtcome
    obtain ⟨-, happ, hversion, hcode, hfile, hkey, hbucket, hendpoint, -⟩ := hidentity
    obtain ⟨-, hchecksum, hsize, hobject⟩ := houtcome
    simp only [Sessions.release, happ, hversion, hcode, hfile, hkey, hbucket, hendpoint, hchecksum,
      hsize, hobject]
  rw [Publishes, hsame]
  exact h

theorem CompletionStage.Verified.mono {log' : List SessionEvent} {completion : Completion}
    {stage : CompletionStage} (h : stage.Verified log completion)
    (hlog : ∀ event ∈ log, event ∈ log') : stage.Verified log' completion := by
  cases stage with
  | storing verified => exact hlog _ h
  | finishing verified => exact ⟨hlog _ h.1, h.2⟩
  | loaded => trivial
  | expiring => trivial
  | claiming => trivial
  | verifying => trivial
  | clearing => trivial
  | canceling => trivial

namespace Sound

/-- Objects of different sessions are different. -/
theorem eq_of_objectKey (h : Sound log s) {upload other : ReleaseUpload}
    (hupload : upload ∈ s.uploads) (hother : other ∈ s.uploads)
    (heq : upload.objectKey = other.objectKey) : upload = other := by
  have hnamed := (h.coherent upload hupload).named
  rw [heq] at hnamed
  exact h.keyed.eq hupload hother (hnamed.eq (h.coherent other hother).named)

/-- The rows change as rows may change, and what completes has been verified. -/
theorem keepRows (h : Sound log s) {uploads : UploadTable}
    (hkeeps : ChangesRows Kept s.uploads uploads)
    (hcompleted : ∀ upload ∈ uploads, upload.status = .completed →
      (∃ before ∈ s.uploads, before.status = .completed ∧ Kept before upload) ∨
        .verified upload.objectKey
          ⟨upload.checksumSha256, upload.sizeBytes, upload.objectVersionId⟩ ∈ log) :
    Sound log { s with uploads } where
  keyed := by
    rw [Keyed, hkeeps.map_id]
    exact h.keyed
  coherent upload hupload := by
    obtain ⟨before, hbefore, hkept⟩ := hkeeps.backward hupload
    exact hkept.coherent (h.coherent before hbefore)
  reserved upload hupload other hother hactive hactive' happ hversion := by
    obtain ⟨before, hbefore, hkept⟩ := hkeeps.backward hupload
    obtain ⟨before', hbefore', hkept'⟩ := hkeeps.backward hother
    obtain ⟨happ₁, hversion₁⟩ := slot_eq_of_identity hkept.identity
    obtain ⟨happ₂, hversion₂⟩ := slot_eq_of_identity hkept'.identity
    have hsame := h.reserved before hbefore before' hbefore' (hkept.reservation hactive)
      (hkept'.reservation hactive') (by rw [← happ₁, ← happ₂, happ])
      (by rw [← hversion₁, ← hversion₂, hversion])
    rw [id_eq_of_identity hkept.identity, id_eq_of_identity hkept'.identity, hsame]
  slots := h.slots
  published release hrelease hprovider := by
    obtain ⟨before, hbefore, hstatus, hpublishes⟩ := h.published release hrelease hprovider
    obtain ⟨after, hafter, hkept⟩ := hkeeps.forward hbefore
    have houtcome := hkept.outcome (by rw [hstatus]; rintro ⟨⟩)
    exact ⟨after, hafter, (status_eq_of_outcome houtcome).trans hstatus,
      hpublishes.kept hkept.identity houtcome⟩
  completions completion hcompletion := by
    obtain ⟨⟨before, hbefore, hidentity⟩, hverified⟩ := h.completions completion hcompletion
    obtain ⟨after, hafter, hkept⟩ := hkeeps.forward hbefore
    exact ⟨⟨after, hafter, hkept.identity.trans hidentity⟩, hverified⟩
  cleanups cleanup hcleanup := by
    obtain ⟨before, hbefore, hidentity, hdiscarded⟩ := h.cleanups cleanup hcleanup
    obtain ⟨after, hafter, hkept⟩ := hkeeps.forward hbefore
    exact ⟨after, hafter, hkept.identity.trans hidentity, hdiscarded.kept hkept⟩
  deleted objectKey versionId hevent := by
    obtain ⟨before, hbefore, hkey, hdiscarded⟩ := h.deleted objectKey versionId hevent
    obtain ⟨after, hafter, hkept⟩ := hkeeps.forward hbefore
    exact ⟨after, hafter, (objectKey_eq_of_identity hkept.identity).trans hkey,
      hdiscarded.kept hkept⟩
  registered uploadId hevent := by
    obtain ⟨before, hbefore, hid, hstatus⟩ := h.registered uploadId hevent
    obtain ⟨after, hafter, hkept⟩ := hkeeps.forward hbefore
    have houtcome := hkept.outcome (by rw [hstatus]; rintro ⟨⟩)
    exact ⟨after, hafter, (id_eq_of_identity hkept.identity).trans hid,
      (status_eq_of_outcome houtcome).trans hstatus⟩
  once := h.once
  verified upload hupload hstatus := by
    rcases hcompleted upload hupload hstatus with ⟨before, hbefore, hbeforeStatus, hkept⟩ | hevent
    · have hverified := h.verified before hbefore hbeforeStatus
      have houtcome := hkept.outcome (by rw [hbeforeStatus]; rintro ⟨⟩)
      simp only [ReleaseUpload.outcome, Prod.mk.injEq] at houtcome
      rw [objectKey_eq_of_identity hkept.identity, houtcome.2.1, houtcome.2.2.1, houtcome.2.2.2]
      exact hverified
    · exact hevent

/-- A statement that completes nothing. -/
theorem keepQuiet (h : Sound log s) {uploads : UploadTable}
    (hquiet : ChangesRows Quiet s.uploads uploads) : Sound log { s with uploads } := by
  refine h.keepRows hquiet.kept fun upload hupload hstatus => ?_
  obtain ⟨before, hbefore, hchange⟩ := hquiet.backward hupload
  exact .inl ⟨before, hbefore, hchange.completed hstatus, hchange.toKept⟩

/-- A new session. -/
theorem insert (h : Sound log s) {upload : ReleaseUpload} {uploads : UploadTable}
    (hinsert : s.uploads.insertNew upload = some uploads) (hcoherent : upload.Coherent)
    (hpending : upload.status = .pending) : Sound log { s with uploads } := by
  unfold UploadTable.insertNew at hinsert
  split at hinsert
  · cases hinsert
  · rename_i hfree
    obtain rfl := Option.some.inj hinsert
    have hold {row : ReleaseUpload} (hrow : row ∈ s.uploads) : row ∈ s.uploads ++ [upload] :=
      List.mem_append_left _ hrow
    have hother {row : ReleaseUpload} (hrow : row ∈ s.uploads) : row.id ≠ upload.id ∧
        ¬ (row.reservationActive = true ∧ upload.reservationActive = true ∧
          row.appId = upload.appId ∧ row.releaseVersion = upload.releaseVersion) := by
      have hnot := fun hcond => hfree (List.any_eq_true.mpr ⟨row, hrow, hcond⟩)
      simp only [Bool.or_eq_true, Bool.and_eq_true, decide_eq_true_eq] at hnot
      exact ⟨fun heq => hnot (.inl heq), fun hsame =>
        hnot (.inr ⟨⟨⟨hsame.1, hsame.2.1⟩, hsame.2.2.1⟩, hsame.2.2.2⟩)⟩
    exact
      { keyed := by
          refine h.keyed.append fun hmem => ?_
          obtain ⟨row, hrow, heq⟩ := List.mem_map.mp hmem
          exact (hother hrow).1 heq
        coherent := fun row hrow => by
          rcases List.mem_append.mp hrow with hrow | hrow
          · exact h.coherent row hrow
          · rw [List.mem_singleton.mp hrow]
            exact hcoherent
        reserved := fun row hrow row' hrow' hactive hactive' happ hversion => by
          rcases List.mem_append.mp hrow with hmem | hmem <;>
            rcases List.mem_append.mp hrow' with hmem' | hmem'
          · exact h.reserved row hmem row' hmem' hactive hactive' happ hversion
          · rw [List.mem_singleton.mp hmem'] at hactive' happ hversion
            exact absurd ⟨hactive, hactive', happ, hversion⟩ (hother hmem).2
          · rw [List.mem_singleton.mp hmem] at hactive happ hversion
            exact absurd ⟨hactive', hactive, happ.symm, hversion.symm⟩ (hother hmem').2
          · rw [List.mem_singleton.mp hmem, List.mem_singleton.mp hmem']
        slots := h.slots
        published := fun release hrelease hprovider => by
          obtain ⟨row, hrow, hpublished⟩ := h.published release hrelease hprovider
          exact ⟨row, hold hrow, hpublished⟩
        completions := fun completion hcompletion => by
          obtain ⟨⟨row, hrow, hidentity⟩, hverified⟩ := h.completions completion hcompletion
          exact ⟨⟨row, hold hrow, hidentity⟩, hverified⟩
        cleanups := fun cleanup hcleanup => by
          obtain ⟨row, hrow, hknown⟩ := h.cleanups cleanup hcleanup
          exact ⟨row, hold hrow, hknown⟩
        deleted := fun objectKey versionId hevent => by
          obtain ⟨row, hrow, hknown⟩ := h.deleted objectKey versionId hevent
          exact ⟨row, hold hrow, hknown⟩
        registered := fun uploadId hevent => by
          obtain ⟨row, hrow, hknown⟩ := h.registered uploadId hevent
          exact ⟨row, hold hrow, hknown⟩
        once := h.once
        verified := fun row hrow hstatus => by
          rcases List.mem_append.mp hrow with hrow | hrow
          · exact h.verified row hrow hstatus
          · rw [List.mem_singleton.mp hrow, hpending] at hstatus
            cases hstatus }

/-- Other releases whose slots differ and of which each in the object store is published. -/
theorem withReleases (h : Sound log s) {releases : List AppRelease}
    (hslots : (releases.map AppRelease.slot).Nodup)
    (hpublished : ∀ release ∈ releases, release.storage.provider = .aliyunOss →
      ∃ upload ∈ s.uploads, upload.status = .completed ∧ Publishes upload release) :
    Sound log { s with releases } :=
  { h with slots := hslots, published := hpublished }

theorem insertRelease (h : Sound log s) {release : AppRelease} {releases : List AppRelease}
    (hinsert : insertAppReleaseImmutable s.releases release = some releases)
    (hpublished : release.storage.provider = .aliyunOss →
      ∃ upload ∈ s.uploads, upload.status = .completed ∧ Publishes upload
        { release with id := nextId (s.releases.map AppRelease.id) }) :
    Sound log { s with releases } := by
  unfold insertAppReleaseImmutable at hinsert
  split at hinsert
  · cases hinsert
  · rename_i hfree
    obtain rfl := Option.some.inj hinsert
    refine h.withReleases ?_ fun other hother hprovider => ?_
    · rw [List.map_append, List.map_singleton, List.nodup_append]
      refine ⟨h.slots, List.nodup_singleton _, fun slot hslot slot' hslot' heq => hfree ?_⟩
      rw [List.mem_singleton.mp hslot'] at heq
      exact heq ▸ hslot
    · rcases List.mem_append.mp hother with hother | hother
      · exact h.published other hother hprovider
      · rw [List.mem_singleton.mp hother] at hprovider ⊢
        exact hpublished hprovider

theorem withCompletions (h : Sound log s) {completions : List Completion}
    (hsound : ∀ completion ∈ completions, CompletionSound log s.uploads completion) :
    Sound log { s with completions } := { h with completions := hsound }

theorem withCleanups (h : Sound log s) {cleanups : List UploadCleanup}
    (hsound : ∀ cleanup ∈ cleanups, ∃ upload ∈ s.uploads,
      upload.identity = cleanup.upload.identity ∧ upload.Discarded) :
    Sound log { s with cleanups } := { h with cleanups := hsound }

theorem endCall (h : Sound log s) (call : Nat) : Sound log (s.endCall call) :=
  h.withCompletions fun completion hcompletion =>
    h.completions completion (List.mem_of_mem_eraseIdx hcompletion)

theorem endCleanup (h : Sound log s) (call : Nat) : Sound log (s.endCleanup call) :=
  h.withCleanups fun cleanup hcleanup => h.cleanups cleanup (List.mem_of_mem_eraseIdx hcleanup)

theorem advance (h : Sound log s) {completion : Completion} {stage : CompletionStage}
    (hknown : ∃ upload ∈ s.uploads, upload.identity = completion.upload.identity)
    (hverified : stage.Verified log { completion with stage }) :
    Sound log (s.advance call completion stage) :=
  h.withCompletions fun other hother => by
    rcases List.mem_or_eq_of_mem_set hother with hother | rfl
    · exact h.completions other hother
    · exact ⟨hknown, hverified⟩

theorem advanceCleanup (h : Sound log s) {cleanup : UploadCleanup} (stage : UploadCleanupStage)
    (hcleanup : cleanup ∈ s.cleanups) : Sound log (s.advanceCleanup call cleanup stage) :=
  h.withCleanups fun other hother => by
    rcases List.mem_or_eq_of_mem_set hother with hother | rfl
    · exact h.cleanups other hother
    · exact h.cleanups cleanup hcleanup

/-- An event that the state accounts for. -/
theorem observe (h : Sound log s) {event : SessionEvent}
    (hdeleted : ∀ objectKey versionId, event = .deleted objectKey versionId →
      ∃ upload ∈ s.uploads, upload.objectKey = objectKey ∧ upload.Discarded)
    (hregistered : ∀ uploadId, event = .registered uploadId → .registered uploadId ∉ log ∧
      ∃ upload ∈ s.uploads, upload.id = uploadId ∧ upload.status = .completed) :
    Sound (log ++ [event]) s where
  keyed := h.keyed
  coherent := h.coherent
  reserved := h.reserved
  slots := h.slots
  published := h.published
  completions completion hcompletion := by
    obtain ⟨hknown, hverified⟩ := h.completions completion hcompletion
    exact ⟨hknown, hverified.mono fun _ hevent => List.mem_append_left _ hevent⟩
  cleanups := h.cleanups
  deleted objectKey versionId hevent := by
    rcases List.mem_append.mp hevent with hevent | hevent
    · exact h.deleted objectKey versionId hevent
    · exact hdeleted objectKey versionId (List.mem_singleton.mp hevent).symm
  registered uploadId hevent := by
    rcases List.mem_append.mp hevent with hevent | hevent
    · exact h.registered uploadId hevent
    · exact (hregistered uploadId (List.mem_singleton.mp hevent).symm).2
  once := by
    rw [List.filterMap_append, List.nodup_append]
    refine ⟨h.once, ?_, fun uploadId hold uploadId' hnew heq => ?_⟩
    · cases event with
      | registered uploadId => exact List.nodup_singleton _
      | verified objectKey object => exact List.nodup_nil
      | deleted objectKey versionId => exact List.nodup_nil
    · cases event with
      | registered uploadId'' =>
          obtain ⟨old, hmem, hregistered'⟩ := List.mem_filterMap.mp hold
          cases old with
          | registered other =>
              obtain rfl := Option.some.inj hregistered'
              obtain rfl : uploadId' = uploadId'' := by
                simpa [SessionEvent.registeredUpload] using hnew
              exact (hregistered _ rfl).1 (heq ▸ hmem)
          | verified objectKey object => cases hregistered'
          | deleted objectKey versionId => cases hregistered'
      | verified objectKey object => simp [SessionEvent.registeredUpload] at hnew
      | deleted objectKey versionId => simp [SessionEvent.registeredUpload] at hnew
  verified upload hupload hstatus := List.mem_append_left _ (h.verified upload hupload hstatus)

end Sound

end EasyDeploy.Uploads
