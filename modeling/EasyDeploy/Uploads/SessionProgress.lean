import EasyDeploy.Uploads.SessionRuns

/-!
# Which sessions are stuck

Whatever calls have ended early, a session that was not completed can still be
cleaned up: a restart takes back the claims on it, and when its time is over it
expires and its object is deleted. The schedule selects the twenty sessions that
have waited longest, and one whose cleanup fails keeps its place among them, so
that twenty objects that the store does not delete would hold up all others.
-/

namespace EasyDeploy.Uploads
open Foundation Foundation.Transition ReleaseUpload UploadTable

variable {log : List SessionEvent} {s s' : Sessions} {upload : ReleaseUpload}
  {start : List SessionEvent × Sessions}

/-- What the schedule selects expires and is cleaned up. -/
def Scheduled (state : List SessionEvent × Sessions) : Action → Prop
  | .expireDue uploadId => uploadId ∈ state.2.uploads.dueReleaseUploadIds state.2.now
  | .startCleanup uploadId =>
      uploadId ∈ state.2.uploads.pendingReleaseUploadCleanupIds state.2.now
  | _ => True

/-- The store lists the versions of an object and deletes each of them. -/
def ObjectStore.Cleans (store : ObjectStore) (objectKey : String) : Prop :=
  ∃ versions, listVersions store objectKey = .ok versions ∧
    ∀ version ∈ versions, deleteListed store 0 objectKey version = .ok ()

/-- The session is the same and stays completed. -/
structure Continues (before after : ReleaseUpload) : Prop where
  identity : before.identity = after.identity
  completed : before.status = .completed → after.status = .completed

theorem Continues.trans {before after later : ReleaseUpload} (h : Continues before after)
    (h' : Continues after later) : Continues before later :=
  ⟨h.identity.trans h'.identity, fun hcompleted => h'.completed (h.completed hcompleted)⟩

theorem ReleaseUpload.Kept.continues {before after : ReleaseUpload} (h : Kept before after) :
    Continues before after := by
  refine ⟨h.identity.symm, fun hcompleted => ?_⟩
  have houtcome := h.outcome (by rw [hcompleted]; exact nofun)
  rw [status_eq_of_outcome houtcome, hcompleted]

/-- The store cleans the objects of all sessions that are not completed, but for these. -/
def ObjectStore.CleansBut (store : ObjectStore) (stuck : List String) (uploads : UploadTable) :
    Prop :=
  ∀ row ∈ uploads, row.status ≠ .completed → row.id ∉ stuck → store.Cleans row.objectKey

theorem ObjectStore.CleansBut.later {store : ObjectStore} {stuck : List String}
    {uploads uploads' : UploadTable} (h : store.CleansBut stuck uploads)
    (horigin : ∀ row' ∈ uploads', ∃ row ∈ uploads, Continues row row') :
    store.CleansBut stuck uploads' := by
  intro row' hrow' hopen hfree
  obtain ⟨row, hrow, hsame⟩ := horigin row' hrow'
  rw [← objectKey_eq_of_identity hsame.identity]
  exact h row hrow (fun hcompleted => hopen (hsame.completed hcompleted))
    (id_eq_of_identity hsame.identity ▸ hfree)

/-- A step later. -/
theorem reached_step {a : Action} (h : (uploadSessions.startingAt start).Reached Scheduled (log, s))
    (hstep : s.step a = some s') (hscheduled : Scheduled (log, s) a) :
    (uploadSessions.startingAt start).Reached Scheduled (log ++ (s.event a).toList, s') := by
  have hnext : (uploadSessions.startingAt start).step (log, s) a =
      some (log ++ (s.event a).toList, s') := step_logged_eq_some.mpr ⟨hstep, rfl⟩
  exact .next h hscheduled hnext

/-- The identifiers that a selection reads are those of its rows. -/
theorem exists_of_mem_firstIds {rows : UploadTable} {time : ReleaseUpload → Int} {id : String}
    (h : id ∈ rows.firstIds time) : ∃ row ∈ rows, row.id = id := by
  obtain ⟨row, hrow, hid⟩ := List.mem_map.mp h
  exact ⟨row, mem_sortBy.mp (List.mem_of_mem_take hrow), hid⟩

/-- A row that is not read has twenty others before it. -/
theorem length_firstIds {rows : UploadTable} {time : ReleaseUpload → Int} {row : ReleaseUpload}
    (hrow : row ∈ rows) (hnot : row.id ∉ rows.firstIds time) :
    (rows.firstIds time).length = 20 := by
  rw [UploadTable.firstIds, List.length_map, List.length_take]
  refine min_eq_left (Nat.le_of_lt (Nat.lt_of_not_le fun hshort => hnot ?_))
  rw [UploadTable.firstIds, List.take_of_length_le hshort]
  exact List.mem_map.mpr ⟨row, mem_sortBy.mpr hrow, rfl⟩

theorem nodup_firstIds {rows : UploadTable} {time : ReleaseUpload → Int}
    (h : Keyed rows ReleaseUpload.id) : (rows.firstIds time).Nodup := by
  have hsorted : Keyed (sortBy (fun upload other => time upload < time other ||
      time upload = time other && upload.id ≤ other.id) rows) ReleaseUpload.id :=
    (sortBy_perm.map _).nodup_iff.mpr h
  exact List.Nodup.sublist ((List.take_sublist _ _).map _) hsorted

/-- Of twenty identifiers that are read, fewer than twenty cannot be all. -/
theorem exists_selected {rows : UploadTable} {time : ReleaseUpload → Int} {row : ReleaseUpload}
    {stuck : List String} (hkeyed : Keyed rows ReleaseUpload.id) (hrow : row ∈ rows)
    (hnot : row.id ∉ rows.firstIds time) (hfew : stuck.length < 20) :
    ∃ other ∈ rows, other.id ∈ rows.firstIds time ∧ other.id ∉ stuck ∧ other.id ≠ row.id := by
  by_contra hnone
  have hsubset : rows.firstIds time ⊆ stuck := by
    intro id hid
    by_contra hfree
    obtain ⟨other, hother, rfl⟩ := exists_of_mem_firstIds hid
    exact hnone ⟨other, hother, hid, hfree, fun hsame => hnot (hsame ▸ hid)⟩
  have hlength := (nodup_firstIds hkeyed).length_le_of_subset hsubset
  rw [length_firstIds hrow hnot] at hlength
  omega

/-- The rest of the versions is deleted one by one. -/
theorem reached_deletions {store : ObjectStore} {call : Nat} {row : ReleaseUpload}
    {remaining : List ArtifactObjectVersion}
    (h : (uploadSessions.startingAt start).Reached Scheduled (log, s))
    (hcall : s.cleanups[call]? = some ⟨row, .deleting remaining⟩)
    (hdelete : ∀ version ∈ remaining, deleteListed store 0 row.objectKey version = .ok ()) :
    ∃ log' s', (uploadSessions.startingAt start).Reached Scheduled (log', s') ∧
      s'.uploads = s.uploads ∧ s'.now = s.now ∧
      s'.cleanups[call]? = some ⟨row, .recording (.ok ())⟩ ∧
      (∀ event ∈ log, event ∈ log') ∧
      ∀ version ∈ remaining, .deleted row.objectKey version.versionId ∈ log' := by
  have hlt : call < s.cleanups.length := (List.getElem?_eq_some_iff.mp hcall).1
  induction remaining generalizing log s with
  | nil =>
      have hstep : s.step (.delete call store) =
          some (s.advanceCleanup call ⟨row, .deleting []⟩ (.recording (.ok ()))) := by
        rw [Sessions.step, hcall, Option.bind_some, Sessions.stepCleanup]
      have hevent : s.event (.delete call store) = none := by
        rw [Sessions.event, hcall, Option.bind_some]
      have hnext := reached_step h hstep trivial
      rw [hevent, Option.toList_none, List.append_nil] at hnext
      refine ⟨log, _, hnext, rfl, rfl, ?_, fun event hevent => hevent, fun version hversion => ?_⟩
      · exact List.getElem?_set_self hlt
      · cases hversion
  | cons version rest ih =>
      have hdone := hdelete version List.mem_cons_self
      have hstep : s.step (.delete call store) =
          some (s.advanceCleanup call ⟨row, .deleting (version :: rest)⟩ (.deleting rest)) := by
        rw [Sessions.step, hcall, Option.bind_some, Sessions.stepCleanup]
        dsimp only
        rw [hdone]
      have hevent : s.event (.delete call store) =
          some (.deleted row.objectKey version.versionId) := by
        rw [Sessions.event, hcall, Option.bind_some]
      have hnext := reached_step h hstep trivial
      rw [hevent, Option.toList_some] at hnext
      have hcall' : (s.advanceCleanup call ⟨row, .deleting (version :: rest)⟩
          (.deleting rest)).cleanups[call]? = some ⟨row, .deleting rest⟩ :=
        List.getElem?_set_self hlt
      obtain ⟨log', s', hreached, huploads, hnow, hrecording, hlog, hdeleted⟩ := ih hnext hcall'
        (fun other hother => hdelete other (List.mem_cons_of_mem _ hother))
        (List.getElem?_eq_some_iff.mp hcall').1
      refine ⟨log', s', hreached, huploads, hnow, hrecording, ?_, ?_⟩
      · exact fun event hmem => hlog event (List.mem_append_left _ hmem)
      · intro other hother
        rcases List.mem_cons.mp hother with rfl | hother
        · exact hlog _ (List.mem_append_right _ List.mem_cons_self)
        · exact hdeleted other hother

/-- The rows after a cleanup that has deleted the object of a session. -/
def UploadTable.cleanedUp (uploads : UploadTable) (now : Int) (uploadId : String) : UploadTable :=
  (uploads.change uploadId (·.isCleanable now) (·.startCleanup now)).finishCleanup now uploadId
    (.ok ())

theorem mem_cleanedUp_of_ne {uploads : UploadTable} {now : Int} {uploadId : String}
    {row : ReleaseUpload} (hrow : row ∈ uploads) (hne : row.id ≠ uploadId) :
    row ∈ uploads.cleanedUp now uploadId :=
  mem_updateAt_of_ne (mem_updateAt_of_ne hrow hne) hne

theorem keyed_cleanedUp {uploads : UploadTable} {now : Int} {uploadId : String}
    (h : Keyed uploads ReleaseUpload.id) :
    Keyed (uploads.cleanedUp now uploadId) ReleaseUpload.id := by
  have hclaimed : Keyed (uploads.change uploadId (·.isCleanable now) (·.startCleanup now))
      ReleaseUpload.id := h.updateAt fun _ => rfl
  exact Keyed.updateAt hclaimed fun _ => rfl

theorem continues_cleanedUp {uploads : UploadTable} {now : Int} {uploadId : String}
    {row' : ReleaseUpload} (h : row' ∈ uploads.cleanedUp now uploadId) :
    ∃ row ∈ uploads, Continues row row' := by
  obtain ⟨claimed, hclaimed, rfl⟩ := mem_updateAt.mp h
  obtain ⟨row, hrow, rfl⟩ := mem_updateAt.mp hclaimed
  refine ⟨row, hrow, ?_⟩
  split <;> split <;> exact ⟨rfl, id⟩

/-- The session leaves those that wait for a cleanup. -/
theorem countP_cleanedUp {uploads : UploadTable} {now : Int} {row : ReleaseUpload}
    (hrow : row ∈ uploads) (hcleanable : row.isCleanable now = true) :
    (uploads.cleanedUp now row.id).countP (·.isCleanable now) <
      uploads.countP (·.isCleanable now) := by
  have hstarted (other : ReleaseUpload) : (other.startCleanup now).isCleanable now = false := by
    rw [isCleanable, startCleanup, Option.isNone_some, Bool.and_false]
  have hcompleted (other : ReleaseUpload) :
      (other.completeCleanup now).isCleanable now = false := by
    rw [isCleanable, completeCleanup, Option.isNone_some, Bool.and_false, Bool.false_and]
  exact (countP_updateAt_le hcompleted).trans_lt
    (countP_updateAt_lt hstarted hrow rfl hcleanable hcleanable)

/-- A session that is selected is cleaned up by a worker that the store serves. -/
theorem reached_cleanup {store : ObjectStore} {versions : List ArtifactObjectVersion}
    (h : (uploadSessions.startingAt start).Reached Scheduled (log, s))
    (hkeyed : Keyed s.uploads ReleaseUpload.id) (hupload : upload ∈ s.uploads)
    (hcleanable : upload.isCleanable s.now = true)
    (hselected : upload.id ∈ s.uploads.pendingReleaseUploadCleanupIds s.now)
    (hlist : listVersions store upload.objectKey = .ok versions)
    (hdelete : ∀ version ∈ versions, deleteListed store 0 upload.objectKey version = .ok ()) :
    ∃ log' s', (uploadSessions.startingAt start).Reached Scheduled (log', s') ∧
      s'.now = s.now ∧ s'.uploads = s.uploads.cleanedUp s.now upload.id ∧
      ∀ version ∈ versions, .deleted upload.objectKey version.versionId ∈ log' := by
  have hfind : (s.uploads.find? fun row => row.id = upload.id && row.isCleanable s.now) =
      some upload := by
    cases hfound : s.uploads.find? fun row => row.id = upload.id && row.isCleanable s.now with
    | none =>
        have hnone := List.find?_eq_none.mp hfound upload hupload
        rw [hcleanable] at hnone
        simp at hnone
    | some row =>
        have hcond := List.find?_some hfound
        rw [Bool.and_eq_true, decide_eq_true_eq] at hcond
        rw [hkeyed.eq (List.mem_of_find?_eq_some hfound) hupload hcond.1]
  obtain ⟨s₁, hs₁⟩ : ∃ s₁ : Sessions, s₁ = { s with
      uploads := s.uploads.change upload.id (·.isCleanable s.now) (·.startCleanup s.now)
      cleanups := s.cleanups ++ [⟨upload.startCleanup s.now, .listing⟩] } := ⟨_, rfl⟩
  have hstart : s.step (.startCleanup upload.id) = some s₁ := by
    rw [Sessions.step, Sessions.startCleanup, UploadTable.claimCleanup, hfind, Option.map_some,
      Option.map_some, hs₁]
  have hreached₁ := reached_step h hstart hselected
  have hcall₁ : s₁.cleanups[s.cleanups.length]? = some ⟨upload.startCleanup s.now, .listing⟩ := by
    rw [hs₁]
    exact List.getElem?_concat_length
  have hlisted : s₁.step (.list s.cleanups.length store) = some (s₁.advanceCleanup
      s.cleanups.length ⟨upload.startCleanup s.now, .listing⟩ (.deleting versions)) := by
    rw [Sessions.step, hcall₁, Option.bind_some, Sessions.stepCleanup]
    dsimp only
    have hsame : listVersions store (upload.startCleanup s.now).objectKey = .ok versions := hlist
    rw [hsame]
  have hreached₂ := reached_step hreached₁ hlisted trivial
  obtain ⟨log₃, s₃, hreached₃, huploads₃, hnow₃, hcall₃, -, hdeleted₃⟩ :=
    reached_deletions hreached₂
      (List.getElem?_set_self (List.getElem?_eq_some_iff.mp hcall₁).1) hdelete
  have hrecord : s₃.step (.record s.cleanups.length) = some ({ s₃ with
      uploads := s₃.uploads.finishCleanup s₃.now (upload.startCleanup s.now).id
        (.ok ()) }.endCleanup s.cleanups.length) := by
    rw [Sessions.step, hcall₃, Option.bind_some, Sessions.stepCleanup]
  have hreached₄ := reached_step hreached₃ hrecord trivial
  have hnow : s₃.now = s.now := hnow₃.trans (by rw [hs₁]; rfl)
  have huploads : s₃.uploads =
      s.uploads.change upload.id (·.isCleanable s.now) (·.startCleanup s.now) :=
    huploads₃.trans (by rw [hs₁]; rfl)
  refine ⟨_, _, hreached₄, hnow, ?_, ?_⟩
  · rw [UploadTable.cleanedUp, ← huploads, ← hnow]
    rfl
  · exact fun version hversion => List.mem_append_left _ (hdeleted₃ version hversion)

/-- A session is cleaned up after those that have waited longer, if the store cleans the objects of
all but fewer than twenty of them. -/
theorem reached_selected_cleanup {store : ObjectStore} {versions : List ArtifactObjectVersion}
    {stuck : List String} (hfew : stuck.length < 20)
    (h : (uploadSessions.startingAt start).Reached Scheduled (log, s))
    (hkeyed : Keyed s.uploads ReleaseUpload.id) (hupload : upload ∈ s.uploads)
    (hcleanable : upload.isCleanable s.now = true)
    (hcleans : store.CleansBut stuck s.uploads)
    (hlist : listVersions store upload.objectKey = .ok versions)
    (hdelete : ∀ version ∈ versions, deleteListed store 0 upload.objectKey version = .ok ()) :
    ∃ log' s', (uploadSessions.startingAt start).Reached Scheduled (log', s') ∧
      (∃ after ∈ s'.uploads, after.identity = upload.identity ∧
        after.cleanupCompletedAt ≠ none) ∧
      ∀ version ∈ versions, .deleted upload.objectKey version.versionId ∈ log' := by
  -- The induction is on the number of sessions that wait for a cleanup.
  induction hwaiting : s.uploads.countP (·.isCleanable s.now) using Nat.strong_induction_on
    generalizing log s with
  | _ waiting ih =>
      by_cases hselected : upload.id ∈ s.uploads.pendingReleaseUploadCleanupIds s.now
      · obtain ⟨log', s', hreached, -, huploads, hdeleted⟩ :=
          reached_cleanup h hkeyed hupload hcleanable hselected hlist hdelete
        refine ⟨log', s', hreached, ⟨(upload.startCleanup s.now).completeCleanup s.now, ?_, rfl,
          Option.some_ne_none _⟩, hdeleted⟩
        rw [huploads]
        refine mem_updateAt.mpr ⟨upload.startCleanup s.now, ?_, if_pos ⟨rfl, rfl⟩⟩
        exact mem_updateAt.mpr ⟨upload, hupload, if_pos ⟨rfl, hcleanable⟩⟩
      · have hwaits : upload ∈ s.uploads.filter (·.isCleanable s.now) :=
          List.mem_filter.mpr ⟨hupload, hcleanable⟩
        have hkeys : Keyed (s.uploads.filter (·.isCleanable s.now)) ReleaseUpload.id :=
          List.Nodup.sublist (List.filter_sublist.map _) hkeyed
        obtain ⟨other, hother, hchosen, hfree, hne⟩ :=
          exists_selected hkeys hwaits hselected hfew
        obtain ⟨hmem, hotherCleanable⟩ := List.mem_filter.mp hother
        obtain ⟨otherVersions, hotherList, hotherDelete⟩ :=
          hcleans other hmem (discarded_of_isCleanable hotherCleanable).not_completed hfree
        obtain ⟨log₁, s₁, hreached, hnow, huploads, -⟩ :=
          reached_cleanup h hkeyed hmem hotherCleanable hchosen hotherList hotherDelete
        refine ih _ ?_ hreached ?_ ?_ ?_ ?_ rfl
        · rw [← hwaiting, hnow, huploads]
          exact countP_cleanedUp hmem hotherCleanable
        · rw [huploads]
          exact keyed_cleanedUp hkeyed
        · rw [huploads]
          exact mem_cleanedUp_of_ne hupload hne.symm
        · rw [hnow]
          exact hcleanable
        · rw [huploads]
          exact hcleans.later fun row' hrow' => continues_cleanedUp hrow'

/-- A session whose time is over expires after those whose time was over before. -/
theorem reached_expiry (h : (uploadSessions.startingAt start).Reached Scheduled (log, s))
    (hkeyed : Keyed s.uploads ReleaseUpload.id) (hupload : upload ∈ s.uploads)
    (hdue : upload.isDue s.now = true) :
    ∃ s', (uploadSessions.startingAt start).Reached Scheduled (log, s') ∧ s'.now = s.now ∧
      upload.expire s.now ∈ s'.uploads ∧ Keyed s'.uploads ReleaseUpload.id ∧
      ∀ row' ∈ s'.uploads, ∃ row ∈ s.uploads, Continues row row' := by
  -- The induction is on the number of sessions whose time is over.
  induction hwaiting : s.uploads.countP (·.isDue s.now) using Nat.strong_induction_on
    generalizing s with
  | _ waiting ih =>
      have hexpired (row : ReleaseUpload) : (row.expire s.now).isDue s.now = false := by
        rw [isDue, expire, Bool.and_assoc, Bool.and_assoc]
        rfl
      have horigin (uploadId : String) :
          ∀ row' ∈ s.uploads.expireDueReleaseUpload s.now uploadId,
            ∃ row ∈ s.uploads, Continues row row' := by
        intro row' hrow'
        obtain ⟨row, hrow, rfl⟩ := mem_updateAt.mp hrow'
        refine ⟨row, hrow, ?_⟩
        split
        · rename_i hguard
          exact (quiet_expire (pending_of_isDue hguard.2)).toKept.continues
        · exact (Kept.refl row).continues
      have hkeyedAfter (uploadId : String) :
          Keyed (s.uploads.expireDueReleaseUpload s.now uploadId) ReleaseUpload.id :=
        hkeyed.updateAt fun _ => rfl
      have hnext {uploadId : String} (hselected : uploadId ∈ s.uploads.dueReleaseUploadIds s.now) :
          (uploadSessions.startingAt start).Reached Scheduled (log, { s with
            uploads := s.uploads.expireDueReleaseUpload s.now uploadId }) := by
        have hreached := reached_step h (a := .expireDue uploadId) rfl hselected
        rw [show s.event (.expireDue uploadId) = none from rfl, Option.toList_none,
          List.append_nil] at hreached
        exact hreached
      by_cases hselected : upload.id ∈ s.uploads.dueReleaseUploadIds s.now
      · exact ⟨_, hnext hselected, rfl, mem_updateAt.mpr ⟨upload, hupload, if_pos ⟨rfl, hdue⟩⟩,
          hkeyedAfter upload.id, horigin upload.id⟩
      · have hwaits : upload ∈ s.uploads.filter (·.isDue s.now) :=
          List.mem_filter.mpr ⟨hupload, hdue⟩
        have hkeys : Keyed (s.uploads.filter (·.isDue s.now)) ReleaseUpload.id :=
          List.Nodup.sublist (List.filter_sublist.map _) hkeyed
        have hnone : ([] : List String).length < 20 := by decide
        obtain ⟨other, hother, hchosen, -, hne⟩ := exists_selected hkeys hwaits hselected hnone
        obtain ⟨hmem, hotherDue⟩ := List.mem_filter.mp hother
        obtain ⟨s', hreached, hnow, htarget, hkeyed', horigin'⟩ := ih _
          (hwaiting ▸ countP_updateAt_lt hexpired hmem rfl hotherDue hotherDue) (hnext hchosen)
          (hkeyedAfter other.id) (mem_updateAt_of_ne hupload hne.symm) hdue rfl
        refine ⟨s', hreached, hnow, htarget, hkeyed', fun row' hrow' => ?_⟩
        obtain ⟨row, hrow, hlater⟩ := horigin' row' hrow'
        obtain ⟨earlier, hearlier, hsame⟩ := horigin other.id row hrow
        exact ⟨earlier, hearlier, hsame.trans hlater⟩

/-- A session whose time and whose cleanup's time have come may be cleaned up once it has
expired. -/
theorem cleanable_of_due {row : ReleaseUpload} {now : Int} (hcoherent : row.Coherent)
    (hstatus : row.status ≠ .completed) (hopen : row.cleanupCompletedAt = none)
    (hunclaimed : row.verificationStartedAt = none) (hfree : row.cleanupStartedAt = none)
    (hexpires : row.expiresAt ≤ now) (hdue : ∀ time ∈ row.objectCleanupAt, time ≤ now) :
    (if row.isDue now then row.expire now else row).isCleanable now = true := by
  cases hrow : row.status with
  | pending =>
      have hnone : row.objectCleanupAt = none := by
        by_contra hsome
        exact (hcoherent.due.mp hsome).not_pending hrow
      have hisDue : row.isDue now = true := by
        rw [isDue, hrow, hcoherent.reserved.mpr hrow, hunclaimed, decide_eq_true hexpires]
        rfl
      rw [if_pos hisDue, isCleanable, expire, hnone, hopen, hfree]
      simp
  | completed => exact absurd hrow hstatus
  | expired =>
      have hsome := hcoherent.due.mpr (.inl hrow)
      obtain ⟨time, htime⟩ := Option.ne_none_iff_exists'.mp hsome
      have hnot : ¬ row.isDue now = true := fun h => by
        rw [pending_of_isDue h] at hrow
        cases hrow
      rw [if_neg hnot, isCleanable, hrow, hopen, hfree, htime]
      simp [hdue time htime]
  | canceled =>
      have hsome := hcoherent.due.mpr (.inr hrow)
      obtain ⟨time, htime⟩ := Option.ne_none_iff_exists'.mp hsome
      have hnot : ¬ row.isDue now = true := fun h => by
        rw [pending_of_isDue h] at hrow
        cases hrow
      rw [if_neg hnot, isCleanable, hrow, hopen, hfree, htime]
      simp [hdue time htime]

end EasyDeploy.Uploads
