import EasyDeploy.BinaryReleases.SerialCalls

/-!
# Runs without overlapping calls

In these runs an application keeps no more uploads than the platform is set to, and
one more, and each of them still has its release directory.
-/

namespace EasyDeploy.BinaryReleases
open Foundation Foundation.Transition
open Apps (AppDetailItem BinaryConfigItem)

variable {text : JsonText} {s s' : Registry} {a : Action} {appId other : Int} {number : Nat}
  {call call' : Call} {upload : PreparedUpload} {releasesToKeep bound : Nat}

/-- A call that goes on is still the only one of its application. -/
theorem keyed_setCall (h : Keyed s.calls Call.appId) (hcall : s.calls[number]? = some call)
    (heq : call'.appId = call.appId) : Keyed (s.calls.set number call') Call.appId := by
  obtain ⟨hlt, rfl⟩ := List.getElem?_eq_some_iff.mp hcall
  rw [Keyed, List.map_set, heq]
  have hsame : (s.calls.map Call.appId).set number (s.calls[number]).appId =
      s.calls.map Call.appId := by
    rw [← List.getElem_map Call.appId (h := by rw [List.length_map]; exact hlt)]
    exact List.set_getElem_self _
  rw [hsame]
  exact h

/-- The registration of an upload leaves the rows of other applications. -/
theorem rowsOf_registerBinaryArtifact (h : WellKeyed s.rows) (hne : upload.appId ≠ other) :
    rowsOf other (s.registerBinaryArtifact text upload).1.rows = rowsOf other s.rows := by
  have hconfigured : WellKeyed (registerConfigured upload.appId upload.config s.rows) :=
    h.insertOrUpdate (.configured upload.config)
  exact ((rowsOf_prune hconfigured.replaceActive hne).trans (rowsOf_replaceActive hne)).trans
    (rowsOf_registerConfigured hne)

/-- A row stays where the rows of its application stay. -/
theorem mem_rows_of_rowsOf {rows rows' : ArtifactTable} {row : BinaryArtifactItem}
    (hframe : rowsOf other rows' = rowsOf other rows) (happ : row.appId = other) :
    row ∈ rows' ↔ row ∈ rows := by
  constructor
  · intro hrow
    have hmem := mem_rowsOf.mpr ⟨hrow, happ⟩
    rw [hframe] at hmem
    exact (mem_rowsOf.mp hmem).1
  · intro hrow
    have hmem := mem_rowsOf.mpr ⟨hrow, happ⟩
    rw [← hframe] at hmem
    exact (mem_rowsOf.mp hmem).1

namespace Serial

/-- A call that ends leaves a serial state. -/
theorem sublist (h : Serial s) (hcalls : s'.calls.Sublist s.calls)
    (hframe : ∀ call ∈ s'.calls, rowsOf call.appId s'.rows = rowsOf call.appId s.rows) :
    Serial s' where
  keyed := h.keyed.sublist (hcalls.map _)
  deploying app artifact current hcall := by
    obtain ⟨hmem, hstatus, happ⟩ := h.deploying app artifact current (hcalls.subset hcall)
    exact ⟨(mem_rows_of_rowsOf (hframe _ hcall) happ).mpr hmem, hstatus, happ⟩

/-- A call goes on, and the rows of its application may change. -/
theorem set (h : Serial s) (hcall : s.calls[number]? = some call)
    (hcalls : s'.calls = s.calls.set number call') (heq : call'.appId = call.appId)
    (hnew : ∀ app artifact current, call' ≠ .deploying app artifact current)
    (hframe : ∀ other, call.appId ≠ other → rowsOf other s'.rows = rowsOf other s.rows) :
    Serial s' := by
  have hkeyed : Keyed s'.calls Call.appId := by
    rw [hcalls]
    exact keyed_setCall h.keyed hcall heq
  refine ⟨hkeyed, fun app artifact current hmem => ?_⟩
  have hset : call' ∈ s'.calls := by
    rw [hcalls]
    exact List.mem_set (List.getElem?_eq_some_iff.mp hcall).1 call'
  have hne : call.appId ≠ app.id := by
    intro happ
    exact hnew app artifact current (hkeyed.eq hset hmem (heq.trans happ))
  rw [hcalls] at hmem
  rcases List.mem_or_eq_of_mem_set hmem with hmem | hmem
  · obtain ⟨hartifact, hstatus, happ⟩ := h.deploying app artifact current hmem
    exact ⟨(mem_rows_of_rowsOf (hframe _ hne) happ).mpr hartifact, hstatus, happ⟩
  · exact absurd hmem.symm (hnew app artifact current)

/-- A call that begins alone leaves a serial state. -/
theorem withCall (h : Serial s) (hnew : ∀ other ∈ s.calls, other.appId ≠ call.appId)
    (hcall : call.Begun text s a) : Serial (s.withCall call) where
  keyed := by
    apply h.keyed.append
    intro hmem
    obtain ⟨other, hother, heq⟩ := List.mem_map.mp hmem
    exact hnew other hother heq
  deploying app artifact current hmem := by
    rcases List.mem_append.mp hmem with hmem | hmem
    · exact h.deploying app artifact current hmem
    · obtain rfl := List.mem_singleton.mp hmem
      exact hcall

/-- Every move leaves a serial state. -/
theorem move (h : Serial s) (hcoherent : Coherent s) (hmove : Move text s a s') : Serial s' := by
  cases hmove with
  | neutral hrows _ hcalls _ => exact h.sublist hcalls fun call _ => by rw [hrows]
  | begun call heq hnew hcall =>
      rw [heq]
      exact h.withCall hnew hcall
  | edited appId hidle hcalls _ _ hframe _ =>
      exact h.sublist hcalls fun call hcall =>
        hframe call.appId fun heq => hidle call hcall heq.symm
  | saved number upload hcall hstep =>
      obtain rfl := Option.some.inj hstep
      exact h.set hcall rfl rfl (fun _ _ _ heq => by cases heq) fun _ _ => rfl
  | registered number upload hcall hstep =>
      obtain rfl := Option.some.inj hstep
      exact h.set hcall rfl rfl (fun _ _ _ heq => by cases heq) fun other hne =>
        rowsOf_registerBinaryArtifact hcoherent.keyed hne
  | removed number appId version versions hcall hstep =>
      obtain rfl := Option.some.inj hstep
      exact h.set hcall rfl rfl (fun _ _ _ heq => by cases heq) fun _ _ => rfl

end Serial

/-- What the runs share: the tables agree, and what the calls have read still holds. -/
theorem serial_of_reached {permitted : Registry → Action → Prop} (htext : ReadsManual text)
    (hpermitted : ∀ s a, permitted s a → Alone s a)
    (h : Reached (registry text releasesToKeep) permitted s) : Serial s := by
  refine h.invariant (fun s hstart => ?_) fun s a s' hbefore hallowed hserial hstep => ?_
  · obtain rfl := hstart
    exact ⟨List.nodup_nil, fun _ _ _ hcall => by cases hcall⟩
  · have hcoherent := coherent_of_reached hbefore
    exact hserial.move hcoherent
      (move_of_step htext hcoherent hserial (hpermitted s a hallowed) hstep)

/-- The number of uploads that an application keeps. -/
structure Bounded (text : JsonText) (bound : Nat) (s : Registry) : Prop where
  keep : s.releasesToKeep ≤ bound
  count : ∀ appId, (retainedUploads text appId s.rows).length ≤ max bound 1 + 1

namespace Bounded

/-- A registration leaves at most one upload more than the bound. -/
theorem registered (h : Bounded text bound s) (hcoherent : Coherent s) (upload : PreparedUpload)
    (appId : Int) :
    (retainedUploads text appId (s.registerBinaryArtifact text upload).1.rows).length ≤
      max bound 1 + 1 := by
  by_cases heq : upload.appId = appId
  · have hconfigured : WellKeyed (registerConfigured upload.appId upload.config s.rows) :=
      hcoherent.keyed.insertOrUpdate (.configured upload.config)
    rw [← heq]
    have hprune : (retainedUploads text upload.appId
        (s.registerBinaryArtifact text upload).1.rows).length ≤ max s.releasesToKeep 1 + 1 :=
      length_retainedUploads_prune hconfigured.replaceActive
    have hkeep := h.keep
    omega
  · rw [← retainedUploads_rowsOf, rowsOf_registerBinaryArtifact hcoherent.keyed heq,
      retainedUploads_rowsOf]
    exact h.count appId

theorem move (h : Bounded text bound s) (hcoherent : Coherent s)
    (hbound : ∀ keep, a = .updatePlatform keep → keep ≤ bound) (hmove : Move text s a s') :
    Bounded text bound s' := by
  cases hmove with
  | neutral hrows _ _ hkeep =>
      refine ⟨?_, ?_⟩
      · rcases hkeep with hkeep | hkeep
        · rw [hkeep]
          exact h.keep
        · exact hbound _ hkeep
      · rw [hrows]
        exact h.count
  | begun call heq _ _ =>
      rw [heq]
      exact ⟨h.keep, h.count⟩
  | edited appId _ _ _ hkeep _ hfewer =>
      refine ⟨?_, fun other => (hfewer.count other).trans (h.count other)⟩
      rw [hkeep]
      exact h.keep
  | saved number upload _ hstep | removed number appId version versions _ hstep =>
      obtain rfl := Option.some.inj hstep
      exact ⟨h.keep, h.count⟩
  | registered number upload _ hstep =>
      obtain rfl := Option.some.inj hstep
      exact ⟨h.keep, h.registered hcoherent upload⟩

end Bounded

/-- A version that names a directory of its own. -/
def NamesDirectory (version : String) : Prop := version ≠ "." ∧ version ≠ ".."

/-- A version removes the directory of its own name only. -/
theorem removes_iff {version name : String} (h : NamesDirectory version) :
    removes version name = true ↔ version = name := by
  simp [removes, h.1, h.2]

/-- The directories that are there: those of the uploads that are kept, and of the upload that a
call has saved. Those that a call removes belong to none of them. -/
structure Stored (text : JsonText) (s : Registry) : Prop where
  kept : ∀ row ∈ s.rows, row.isRetained text = true →
    row.slot ∈ s.releaseDirs ∧ NamesDirectory row.version
  saving : ∀ upload, Call.saving upload ∈ s.calls → NamesDirectory upload.version
  registering : ∀ upload, Call.registering upload ∈ s.calls →
    (upload.appId, upload.version) ∈ s.releaseDirs ∧ NamesDirectory upload.version
  cleaning : ∀ appId versions, Call.cleaning appId versions ∈ s.calls → ∀ version ∈ versions,
    NamesDirectory version ∧
      ∀ row ∈ s.rows, row.slot = (appId, version) → row.isRetained text = false

namespace Stored

/-- Fewer uploads, with the same directories and the calls of other applications. -/
theorem fewer (h : Stored text s) (hcalls : s'.calls.Sublist s.calls)
    (hdirs : s'.releaseDirs = s.releaseDirs) (hfewer : Fewer text s.rows s'.rows)
    (hframe : ∀ call ∈ s'.calls, rowsOf call.appId s'.rows = rowsOf call.appId s.rows) :
    Stored text s' where
  kept row' hrow' hretained := by
    obtain ⟨row, hrow, hretained', hslot⟩ := hfewer.slots row' hrow' hretained
    obtain ⟨hdir, hnames⟩ := h.kept row hrow hretained'
    have hversion : row.version = row'.version := congrArg Prod.snd hslot
    rw [← hversion, ← hslot, hdirs]
    exact ⟨hdir, hnames⟩
  saving upload hcall := h.saving upload (hcalls.subset hcall)
  registering upload hcall := by
    rw [hdirs]
    exact h.registering upload (hcalls.subset hcall)
  cleaning appId versions hcall version hversion := by
    obtain ⟨hnames, hrows⟩ := h.cleaning appId versions (hcalls.subset hcall) version hversion
    refine ⟨hnames, fun row hrow hslot => hrows row ?_ hslot⟩
    exact (mem_rows_of_rowsOf (hframe _ hcall) (congrArg Prod.fst hslot)).mp hrow

theorem withCall (h : Stored text s) (hcall : call.Begun text s a)
    (hnames : ∀ input, a = .upload input → ∀ version,
      normalizeReleaseId input.artifactVersion = .ok version → NamesDirectory version) :
    Stored text (s.withCall call) where
  kept := h.kept
  saving upload hmem := by
    rcases List.mem_append.mp hmem with hmem | hmem
    · exact h.saving upload hmem
    · obtain rfl := List.mem_singleton.mp hmem
      obtain ⟨input, current, rfl, hprepared⟩ := hcall
      exact hnames input rfl _ (prepareUpload_eq_ok hprepared).2
  registering upload hmem := by
    rcases List.mem_append.mp hmem with hmem | hmem
    · exact h.registering upload hmem
    · obtain rfl := List.mem_singleton.mp hmem
      exact hcall.elim
  cleaning appId versions hmem := by
    rcases List.mem_append.mp hmem with hmem | hmem
    · exact h.cleaning appId versions hmem
    · obtain rfl := List.mem_singleton.mp hmem
      exact hcall.elim

/-- The directory of an upload is saved before its row is. -/
theorem saved (h : Stored text s) (hcall : s.calls[number]? = some (.saving upload))
    (hstep : s.save number (.saving upload) = some s') : Stored text s' := by
  obtain rfl := Option.some.inj hstep
  have hold (dir : Int × String) (hdir : dir ∈ s.releaseDirs) :
      dir ∈ s.releaseDirs ++ [(upload.appId, upload.version)] :=
    List.mem_append_left _ hdir
  refine ⟨fun row hrow hretained => ?_, fun other hmem => ?_, fun other hmem => ?_,
    fun appId versions hmem => ?_⟩
  · exact ⟨hold _ (h.kept row hrow hretained).1, (h.kept row hrow hretained).2⟩
  · rcases List.mem_or_eq_of_mem_set hmem with hmem | hmem
    · exact h.saving other hmem
    · cases hmem
  · rcases List.mem_or_eq_of_mem_set hmem with hmem | hmem
    · exact ⟨hold _ (h.registering other hmem).1, (h.registering other hmem).2⟩
    · obtain rfl := Call.registering.inj hmem
      exact ⟨List.mem_append_right _ (List.mem_singleton_self _),
        h.saving other (List.mem_of_getElem? hcall)⟩
  · rcases List.mem_or_eq_of_mem_set hmem with hmem | hmem
    · exact h.cleaning appId versions hmem
    · cases hmem

/-- Only the directory of a disabled version is removed. -/
theorem removed (h : Stored text s) (hserial : Serial s) {version : String} {versions : List String}
    (hcall : s.calls[number]? = some (.cleaning appId (version :: versions)))
    (hstep : s.removeDir number (.cleaning appId (version :: versions)) = some s') :
    Stored text s' := by
  obtain rfl := Option.some.inj hstep
  have hmem := List.mem_of_getElem? hcall
  obtain ⟨hnames, hrows⟩ := h.cleaning appId _ hmem version List.mem_cons_self
  have hstays (dir : Int × String) (hdir : dir ∈ s.releaseDirs) (hne : dir ≠ (appId, version)) :
      dir ∈ s.releaseDirs.filter fun dir => !(dir.1 == appId && removes version dir.2) := by
    refine List.mem_filter.mpr ⟨hdir, ?_⟩
    rw [Bool.not_eq_true', Bool.and_eq_false_iff]
    by_cases happ : dir.1 = appId
    · right
      rw [Bool.eq_false_iff]
      intro hremoved
      exact hne (Prod.ext happ ((removes_iff hnames).mp hremoved).symm)
    · exact .inl (beq_eq_false_iff_ne.mpr happ)
  refine ⟨fun row hrow hretained => ?_, fun upload hupload => ?_, fun upload hupload => ?_,
    fun other remaining hother => ?_⟩
  · refine ⟨hstays _ (h.kept row hrow hretained).1 fun heq => ?_, (h.kept row hrow hretained).2⟩
    rw [hrows row hrow heq] at hretained
    cases hretained
  · rcases List.mem_or_eq_of_mem_set hupload with hupload | hupload
    · exact h.saving upload hupload
    · cases hupload
  · rcases List.mem_or_eq_of_mem_set hupload with hupload | hupload
    · refine ⟨hstays _ (h.registering upload hupload).1 fun heq => ?_,
        (h.registering upload hupload).2⟩
      cases hserial.keyed.eq hupload hmem (congrArg Prod.fst heq)
    · cases hupload
  · rcases List.mem_or_eq_of_mem_set hother with hother | hother
    · exact h.cleaning other remaining hother
    · obtain ⟨rfl, rfl⟩ := Call.cleaning.inj hother
      exact fun name hname => h.cleaning other _ hmem name (List.mem_cons_of_mem _ hname)

/-- The uploads after the transaction of an upload: its own, and others that were kept before. -/
theorem retained_replaceActive {rows : ArtifactTable} {row' : BinaryArtifactItem}
    (h : row' ∈ replaceActive upload (registerConfigured upload.appId upload.config rows))
    (hretained : row'.isRetained text = true) (hslot : row'.slot ≠ (upload.appId, upload.version)) :
    ∃ row ∈ rows, row.isRetained text = true ∧ row.slot = row'.slot := by
  obtain ⟨old, hold, rfl⟩ := mem_updateAt.mp h
  have hsame := (KeepsKeys.status fun _ => .registered).slot_ite
    (old.appId = upload.appId ∧
      (old.version != upload.version && old.status == .active) = true) old
  rw [hsame] at hslot ⊢
  have hmem : old ∈ rows := by
    rcases mem_insertOrUpdate (.uploaded upload) hold with ⟨heq, -⟩ | ⟨hold, -⟩
    · exact absurd heq hslot
    · rcases mem_insertOrUpdate (.configured upload.config) hold with ⟨heq, -⟩ | ⟨hold, -⟩
      · exact absurd heq hslot
      · exact hold
  refine ⟨old, hmem, ?_, rfl⟩
  split at hretained <;> rename_i hwanted
  · obtain ⟨-, hguard⟩ := hwanted
    rw [Bool.and_eq_true, beq_iff_eq] at hguard
    refine isRetained_of_isUpload (isUpload_of_isRetained hretained :) ?_
    rw [hguard.2]
    exact ArtifactStatus.active_ne_disabled
  · exact hretained

theorem registered (h : Stored text s) (hcoherent : Coherent s) (hserial : Serial s)
    (hcall : s.calls[number]? = some (.registering upload))
    (hstep : s.commit text number (.registering upload) = some s') : Stored text s' := by
  obtain rfl := Option.some.inj hstep
  have hmem := List.mem_of_getElem? hcall
  have hconfigured : WellKeyed (registerConfigured upload.appId upload.config s.rows) :=
    hcoherent.keyed.insertOrUpdate (.configured upload.config)
  have hreplaced : WellKeyed
      (replaceActive upload (registerConfigured upload.appId upload.config s.rows)) :=
    hconfigured.replaceActive
  refine ⟨fun row' hrow' hretained => ?_, fun other hother => ?_, fun other hother => ?_,
    fun appId versions hother => ?_⟩
  · obtain ⟨row, hrow, hslot, rfl | hdisabled⟩ := of_mem_prune hrow'
    · by_cases hown : row'.slot = (upload.appId, upload.version)
      · have hversion : row'.version = upload.version := congrArg Prod.snd hown
        rw [hversion, hown]
        exact h.registering upload hmem
      · obtain ⟨old, hold, hretained', heq⟩ := retained_replaceActive hrow hretained hown
        have hversion : old.version = row'.version := congrArg Prod.snd heq
        rw [← heq, ← hversion]
        exact h.kept old hold hretained'
    · rw [BinaryArtifactItem.isRetained, hdisabled] at hretained
      simp at hretained
  · rcases List.mem_or_eq_of_mem_set hother with hother | hother
    · exact h.saving other hother
    · cases hother
  · rcases List.mem_or_eq_of_mem_set hother with hother | hother
    · exact h.registering other hother
    · cases hother
  · rcases List.mem_or_eq_of_mem_set hother with hother | hother
    · -- A cleanup of another application.
      have hne : upload.appId ≠ appId := by
        intro heq
        cases hserial.keyed.eq hmem hother heq
      intro version hversion
      obtain ⟨hnames, hrows⟩ := h.cleaning appId versions hother version hversion
      refine ⟨hnames, fun row hrow hslot => hrows row ?_ hslot⟩
      exact (mem_rows_of_rowsOf (rowsOf_registerBinaryArtifact hcoherent.keyed hne)
        (congrArg Prod.fst hslot)).mp hrow
    · obtain ⟨rfl, rfl⟩ := Call.cleaning.inj hother
      intro version hversion
      obtain ⟨pruned, hpruned, hretained, hactive, rfl⟩ := exists_of_mem_prunedVersions hversion
      have hslot : pruned.slot ≠ (upload.appId, upload.version) :=
        fun heq => hactive (congrArg Prod.snd heq)
      obtain ⟨old, hold, hretained', heq⟩ := retained_replaceActive hpruned hretained hslot
      have hold' : old.version = pruned.version := congrArg Prod.snd heq
      refine ⟨?_, fun row hrow heq => not_isRetained_of_pruned hreplaced hrow hversion heq⟩
      rw [← hold']
      exact (h.kept old hold hretained').2

theorem move (h : Stored text s) (hcoherent : Coherent s) (hserial : Serial s)
    (hnames : ∀ input, a = .upload input → ∀ version,
      normalizeReleaseId input.artifactVersion = .ok version → NamesDirectory version)
    (hmove : Move text s a s') : Stored text s' := by
  cases hmove with
  | neutral hrows hdirs hcalls _ =>
      refine h.fewer hcalls hdirs ?_ fun call _ => ?_
      · rw [hrows]
        exact .refl _
      · rw [hrows]
  | begun call heq _ hcall =>
      rw [heq]
      exact h.withCall hcall hnames
  | edited appId hidle hcalls hdirs _ hframe hfewer =>
      exact h.fewer hcalls hdirs hfewer fun call hcall =>
        hframe call.appId fun heq => hidle call hcall heq.symm
  | saved number upload hcall hstep => exact h.saved hcall hstep
  | registered number upload hcall hstep => exact h.registered hcoherent hserial hcall hstep
  | removed number appId version versions hcall hstep => exact h.removed hserial hcall hstep

end Stored

/-- While the calls of an application do not overlap and the platform keeps at most a number of
uploads, no application has more than this number and one more. -/
theorem kept_uploads_bounded (text : JsonText) (htext : ReadsManual text)
    (releasesToKeep bound : Nat) (hkeep : releasesToKeep ≤ bound) (s : Registry)
    (h : Reached (registry text releasesToKeep)
      (fun s a => Alone s a ∧ ∀ keep, a = .updatePlatform keep → keep ≤ bound) s)
    (appId : Int) :
    (retainedUploads text appId s.rows).length ≤ max bound 1 + 1 := by
  have hbounded : Bounded text bound s := by
    refine h.invariant (fun s hstart => ?_) fun s a s' hbefore hallowed hbounded hstep => ?_
    · obtain rfl := hstart
      exact ⟨hkeep, fun _ => Nat.zero_le _⟩
    · have hcoherent := coherent_of_reached hbefore
      have hserial := serial_of_reached htext (fun _ _ => And.left) hbefore
      exact hbounded.move hcoherent hallowed.2
        (move_of_step htext hcoherent hserial hallowed.1 hstep)
  exact hbounded.count appId

/-- While the calls of an application do not overlap and no version is a dot or two dots, the
release directory of each upload that is not disabled is there. -/
theorem kept_uploads_stored (text : JsonText) (htext : ReadsManual text) (releasesToKeep : Nat)
    (s : Registry)
    (h : Reached (registry text releasesToKeep)
      (fun s a => Alone s a ∧ ∀ input, a = .upload input → ∀ version,
        normalizeReleaseId input.artifactVersion = .ok version → NamesDirectory version) s)
    (row : BinaryArtifactItem) (hrow : row ∈ s.rows) (hupload : row.isUpload text = true)
    (hstatus : row.status ≠ .disabled) : (row.appId, row.version) ∈ s.releaseDirs := by
  have hstored : Stored text s := by
    refine h.invariant (fun s hstart => ?_) fun s a s' hbefore hallowed hstored hstep => ?_
    · obtain rfl := hstart
      constructor
      · exact List.forall_mem_nil _
      · exact fun _ hcall => (List.not_mem_nil hcall).elim
      · exact fun _ hcall => (List.not_mem_nil hcall).elim
      · exact fun _ _ hcall => (List.not_mem_nil hcall).elim
    · have hcoherent := coherent_of_reached hbefore
      have hserial := serial_of_reached htext (fun _ _ => And.left) hbefore
      exact hstored.move hcoherent hserial hallowed.2
        (move_of_step htext hcoherent hserial hallowed.1 hstep)
  exact (hstored.kept row hrow (isRetained_of_isUpload hupload hstatus)).1

namespace Sample

theorem take_packageText : packageText.toList.take 3 = ['{', '"', 'e'] := by decide +kernel

theorem take_manualMetadata (config : BinaryConfigItem) :
    (Apps.manualMetadata config).toList.take 3 = ['{', '"', 's'] := by
  have hstart : ("\x7b\"source\":\"manual\",\"unit_name\":\"".toList).take 3 =
      ['{', '"', 's'] := by
    decide +kernel
  have hlength : 3 ≤ ("\x7b\"source\":\"manual\",\"unit_name\":\"".toList).length := by
    decide +kernel
  unfold Apps.manualMetadata
  rw [String.toList_append, String.toList_append, List.append_assoc]
  exact (List.take_append_of_le_length hlength).trans hstart

theorem readsManual : ReadsManual packageCodec := by
  intro config
  have hother : Apps.manualMetadata config ≠ packageText := by
    intro heq
    have htake := take_manualMetadata config
    rw [heq, take_packageText] at htake
    exact absurd htake (by decide)
  have hread : packageCodec.fromStr (Apps.manualMetadata config) = .error "unexpected text" := by
    simp only [packageCodec, hother, if_false]
  have hnone : artifactMetadataValue packageCodec (Apps.manualMetadata config) "source" = "" := by
    rw [artifactMetadataValue, hread]
    rfl
  rw [hnone]
  decide

/-- The steps of the sample, and those like them. -/
def allowed (s : Registry) (a : Action) : Bool :=
  decide (Alone s a) &&
    match a with
    | .updatePlatform _ => false
    | .upload input =>
        match normalizeReleaseId input.artifactVersion with
        | .ok version => version != "." && version != ".."
        | .error _ => false
    | _ => true

theorem alone_of_allowed {s : Registry} {a : Action} (h : allowed s a = true) : Alone s a :=
  of_decide_eq_true (Bool.and_eq_true_iff.mp h).1

theorem bounded_of_allowed {s : Registry} {a : Action} (h : allowed s a = true) :
    ∀ keep, a = .updatePlatform keep → keep ≤ 1 := by
  rintro keep rfl
  cases (Bool.and_eq_true_iff.mp h).2

theorem named_of_allowed {s : Registry} {a : Action} (h : allowed s a = true) :
    ∀ input, a = .upload input → ∀ version,
      normalizeReleaseId input.artifactVersion = .ok version → NamesDirectory version := by
  rintro input rfl version hversion
  have hplain := (Bool.and_eq_true_iff.mp h).2
  simp only [hversion, Bool.and_eq_true, bne_iff_ne] at hplain
  exact hplain

theorem serial_run : (((registry packageCodec 1).restrict allowed).exec start actions).map
    (fun s => ((retainedUploads packageCodec 1 s.rows).map (·.version), s.releaseDirs)) =
      some (["v3.0.0"], [(1, "v3.0.0")]) := by
  decide +kernel

theorem reached {s : Registry} {steps : List Action}
    (h : ((registry packageCodec 1).restrict allowed).exec start steps = some s) :
    Reached (registry packageCodec 1) (fun s a => allowed s a = true) s :=
  .of_restrict (Reachable.exec (.start rfl) h)

/-- A deployment that overlaps with an upload activates a version whose directory is gone. -/
def overlapping : List Action :=
  [.upload (package "v2.0.0"), .save 0, .commit 0, .removeDir 0, .deploy shop 1,
    .upload (package "v3.0.0"), .save 1, .commit 1, .removeDir 1, .removeDir 1, .commit 0]

example : (((registry packageCodec 1).exec start overlapping).map fun s =>
    ((retainedUploads packageCodec 1 s.rows).map (·.version), s.releaseDirs.map (·.2))) =
      some (["v2.0.0", "v3.0.0"], ["v3.0.0"]) := by
  decide +kernel

end Sample

/-- After three uploads, where one is kept. -/
theorem kept_uploads_bounded_sample : ∃ s,
    ((registry Sample.packageCodec 1).restrict Sample.allowed).exec Sample.start Sample.actions =
      some s ∧ (retainedUploads Sample.packageCodec 1 s.rows).length ≤ 2 := by
  obtain ⟨s, hexec, -⟩ := Option.map_eq_some_iff.mp Sample.serial_run
  exact ⟨s, hexec, kept_uploads_bounded Sample.packageCodec Sample.readsManual 1 1 (Nat.le_refl 1) s
    ((Sample.reached hexec).mono fun _ _ h =>
      ⟨Sample.alone_of_allowed h, Sample.bounded_of_allowed h⟩) 1⟩

/-- The directory of the last upload is still there. -/
theorem kept_uploads_stored_sample : ∃ s,
    ((registry Sample.packageCodec 1).restrict Sample.allowed).exec Sample.start Sample.actions =
      some s ∧ ∃ row ∈ retainedUploads Sample.packageCodec 1 s.rows, row.version = "v3.0.0" ∧
        (row.appId, row.version) ∈ s.releaseDirs := by
  obtain ⟨s, hexec, hrun⟩ := Option.map_eq_some_iff.mp Sample.serial_run
  have hversions : (retainedUploads Sample.packageCodec 1 s.rows).map (·.version) = ["v3.0.0"] :=
    congrArg Prod.fst hrun
  obtain ⟨row, hrow, hversion⟩ : ∃ row ∈ retainedUploads Sample.packageCodec 1 s.rows,
      row.version = "v3.0.0" :=
    List.mem_map.mp (hversions ▸ List.mem_singleton_self _)
  obtain ⟨hmem, hcounted⟩ := List.mem_filter.mp hrow
  obtain ⟨hupload, hstatus⟩ := Bool.and_eq_true_iff.mp (Bool.and_eq_true_iff.mp hcounted).2
  exact ⟨s, hexec, row, hrow, hversion, kept_uploads_stored Sample.packageCodec Sample.readsManual 1
    s ((Sample.reached hexec).mono fun _ _ h =>
      ⟨Sample.alone_of_allowed h, Sample.named_of_allowed h⟩) row hmem hupload
    (bne_iff_ne.mp hstatus)⟩

end EasyDeploy.BinaryReleases
