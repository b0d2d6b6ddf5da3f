import EasyDeploy.BinaryReleases.RegistryRuns

/-!
# Calls of an application one after the other

While no two calls of an application overlap, what a call has read still holds when
its transaction runs. So a transaction makes no version an upload again that was
disabled in between, and the uploads that are kept stay within their number.
-/

namespace EasyDeploy.BinaryReleases
open Foundation Foundation.Transition
open Apps (AppDetailItem BinaryConfigItem)

variable {text : JsonText} {s s' : Registry} {a : Action} {appId other : Int} {number : Nat}
  {call call' : Call} {config : BinaryConfigItem} {rows rows' rows'' : ArtifactTable}

/-- The manual source is not read as an upload. -/
def ReadsManual (text : JsonText) : Prop :=
  ∀ config, artifactMetadataValue text (Apps.manualMetadata config) "source" ≠ "upload"

/-- The uploads that are kept were kept before, and they are not more. -/
structure Fewer (text : JsonText) (rows rows' : ArtifactTable) : Prop where
  slots : ∀ row' ∈ rows', row'.isRetained text = true →
    ∃ row ∈ rows, row.isRetained text = true ∧ row.slot = row'.slot
  count : ∀ appId, (retainedUploads text appId rows').length ≤
    (retainedUploads text appId rows).length

namespace Fewer

theorem refl (rows : ArtifactTable) : Fewer text rows rows :=
  ⟨fun row hrow hretained => ⟨row, hrow, hretained, rfl⟩, fun _ => Nat.le_refl _⟩

theorem trans (h : Fewer text rows rows') (h' : Fewer text rows' rows'') :
    Fewer text rows rows'' where
  slots row'' hrow'' hretained := by
    obtain ⟨row', hrow', hretained', hslot⟩ := h'.slots row'' hrow'' hretained
    obtain ⟨row, hrow, hretained'', hslot'⟩ := h.slots row' hrow' hretained'
    exact ⟨row, hrow, hretained'', hslot'.trans hslot⟩
  count appId := (h'.count appId).trans (h.count appId)

theorem map {f : BinaryArtifactItem → BinaryArtifactItem} (hslot : ∀ row, (f row).slot = row.slot)
    (hretained : ∀ row ∈ rows, (f row).isRetained text = true → row.isRetained text = true) :
    Fewer text rows (rows.map f) where
  slots row' hrow' hrow'' := by
    obtain ⟨row, hrow, rfl⟩ := List.mem_map.mp hrow'
    exact ⟨row, hrow, hretained row hrow hrow'', (hslot row).symm⟩
  count appId := by
    rw [retainedUploads, retainedUploads, ← List.countP_eq_length_filter,
      ← List.countP_eq_length_filter, List.countP_map]
    refine List.countP_mono_left fun row hrow hcounted => ?_
    rw [Function.comp_apply, Bool.and_eq_true] at hcounted
    rw [Bool.and_eq_true]
    refine ⟨?_, hretained row hrow hcounted.2⟩
    have happ : (f row).appId = row.appId := congrArg Prod.fst (hslot row)
    rw [← happ]
    exact hcounted.1

theorem concat {row : BinaryArtifactItem} (hrow : row.isRetained text = false) :
    Fewer text rows (rows ++ [row]) where
  slots row' hrow' hretained := by
    rcases List.mem_append.mp hrow' with hmem | hmem
    · exact ⟨row', hmem, hretained, rfl⟩
    · rw [List.mem_singleton.mp hmem, hrow] at hretained
      cases hretained
  count appId := by
    rw [retainedUploads, retainedUploads, List.filter_append, List.filter_singleton, hrow,
      Bool.and_false]
    simp

theorem updateAt {κ : Type} [DecidableEq κ] {key : BinaryArtifactItem → κ} {target : κ}
    {guard : BinaryArtifactItem → Bool} {change : BinaryArtifactItem → BinaryArtifactItem}
    (hchange : KeepsKeys change)
    (hretained : ∀ row ∈ rows, key row = target → guard row = true →
      (change row).isRetained text = true → row.isRetained text = true) :
    Fewer text rows (updateAt rows key target guard change) := by
  refine map (fun row => ?_) fun row hrow hafter => ?_
  · split
    · exact hchange.slot row
    · rfl
  · split at hafter <;> rename_i hwanted
    · exact hretained row hrow hwanted.1 hwanted.2 hafter
    · exact hafter

end Fewer

theorem not_isRetained_manual (htext : ReadsManual text) {row : BinaryArtifactItem}
    (hmetadata : row.metadata = Apps.manualMetadata config) : row.isRetained text = false := by
  rw [BinaryArtifactItem.isRetained, BinaryArtifactItem.isUpload,
    BinaryArtifactItem.metadataValue, hmetadata, beq_eq_false_iff_ne.mpr (htext config),
    Bool.false_and]

/-- A manual row counts for nothing. -/
theorem fewer_insertOrUpdate (htext : ReadsManual text) {row : BinaryArtifactItem}
    {change : BinaryArtifactItem → BinaryArtifactItem} (hchange : KeepsKeys change)
    (hrow : row.metadata = Apps.manualMetadata config)
    (hmetadata : ∀ old, (change old).metadata = Apps.manualMetadata config) :
    Fewer text rows (insertOrUpdate row change rows) := by
  unfold insertOrUpdate
  split
  · refine Fewer.updateAt hchange fun old _ _ _ hretained => ?_
    rw [not_isRetained_manual htext (hmetadata old)] at hretained
    cases hretained
  · exact .concat (not_isRetained_manual htext hrow)

theorem fewer_registerConfigured (htext : ReadsManual text) :
    Fewer text rows (registerConfigured appId config rows) :=
  fewer_insertOrUpdate htext (.configured config) rfl fun _ => rfl

theorem fewer_registerInitial (htext : ReadsManual text) {now : String} :
    Fewer text rows (registerInitial appId config now rows) :=
  fewer_insertOrUpdate htext ⟨fun _ => rfl, fun _ => rfl, fun _ => rfl⟩ rfl fun _ => rfl

theorem isRetained_of_isUpload {row : BinaryArtifactItem} (hupload : row.isUpload text = true)
    (hstatus : row.status ≠ .disabled) : row.isRetained text = true := by
  rw [BinaryArtifactItem.isRetained, hupload, Bool.true_and]
  exact bne_iff_ne.mpr hstatus

theorem isUpload_of_isRetained {row : BinaryArtifactItem} (h : row.isRetained text = true) :
    row.isUpload text = true :=
  (Bool.and_eq_true_iff.mp h).1

theorem fewer_activateRestored (artifactId : Int) :
    Fewer text rows (activateRestored appId artifactId rows) := by
  refine Fewer.updateAt (.status fun row => _) fun row _ _ hguard hretained => ?_
  exact isRetained_of_isUpload (isUpload_of_isRetained hretained :)
    (bne_iff_ne.mp hguard)

/-- A deployed version takes back the metadata that were read, when its row is still the one that
was read. -/
theorem fewer_activateDeployed (hkeyed : WellKeyed rows) {artifact : BinaryArtifactItem}
    (hartifact : artifact ∈ rows) (hstatus : artifact.status ≠ .disabled)
    (hversion : config.artifactVersion = artifact.version) (happ : artifact.appId = appId) :
    Fewer text rows (activateDeployed appId artifact (registerConfigured appId config rows)) := by
  have hany : rows.any (fun old => old.slot == (appId, config.artifactVersion)) = true := by
    refine List.any_eq_true.mpr ⟨artifact, hartifact, beq_iff_eq.mpr ?_⟩
    rw [BinaryArtifactItem.slot, happ, hversion]
  rw [registerConfigured_of_taken hany, activateDeployed, updateAt, updateAt, List.map_map]
  refine Fewer.map (fun row => ?_) fun row hmem hretained => ?_
  · rw [Function.comp_apply]
    exact ((KeepsKeys.deployed artifact).slot_ite _ _).trans
      ((KeepsKeys.configured config).slot_ite _ row)
  · by_cases hsame : row = artifact
    · -- The row of the version, whose own metadata come back.
      obtain rfl := hsame
      refine isRetained_of_isUpload ?_ hstatus
      have hslot : row.slot = (appId, config.artifactVersion) := by
        rw [BinaryArtifactItem.slot, happ, hversion]
      simp [hslot, happ, ArtifactStatus.registered_ne_disabled] at hretained
      exact (isUpload_of_isRetained hretained :)
    · have hslot : row.slot ≠ (appId, config.artifactVersion) := by
        intro heq
        refine hsame (hkeyed.slots.eq hmem hartifact (heq.trans ?_))
        rw [BinaryArtifactItem.slot, happ, hversion]
      have hid : row.id ≠ artifact.id := fun heq => hsame (hkeyed.ids.eq hmem hartifact heq)
      simp only [Function.comp_apply, hslot, false_and, if_false, hid] at hretained
      split at hretained <;> rename_i hwanted
      · exact isRetained_of_isUpload (isUpload_of_isRetained hretained :)
          (bne_iff_ne.mp hwanted.2)
      · exact hretained

/-- The application that a call is begun for, or whose tables a step changes on its own. -/
def Action.begins : Action → Option Int
  | .createApp appId _ _ | .configure appId _ => some appId
  | .upload input => some input.app.id
  | .deploy app _ | .restore app _ _ => some app.id
  | _ => none

/-- A step that begins something finds no call of its application under way. -/
def Alone (s : Registry) (a : Action) : Prop := ∀ call ∈ s.calls, a.begins ≠ some call.appId

instance : Decidable (Alone s a) := inferInstanceAs (Decidable (∀ call ∈ s.calls, _))

theorem Alone.idle (h : Alone s a) (hbegins : a.begins = some appId) :
    ∀ call ∈ s.calls, call.appId ≠ appId := by
  intro call hcall heq
  apply h call hcall
  rw [heq]
  exact hbegins

/-- The calls under way are of different applications, and what they read still holds. -/
structure Serial (s : Registry) : Prop where
  keyed : Keyed s.calls Call.appId
  deploying : ∀ app artifact current, Call.deploying app artifact current ∈ s.calls →
    artifact ∈ s.rows ∧ artifact.status ≠ .disabled ∧ artifact.appId = app.id

/-- What is known of a call that is begun by an action. -/
def Call.Begun (text : JsonText) (s : Registry) (a : Action) : Call → Prop
  | .saving upload => ∃ input current, a = .upload input ∧
      prepareUpload text input current = .ok upload
  | .deploying app artifact _ =>
      artifact ∈ s.rows ∧ artifact.status ≠ .disabled ∧ artifact.appId = app.id
  | .restoring _ _ _ => True
  | .registering _ | .cleaning _ _ => False

/-- What a step does while the calls of an application do not overlap. -/
inductive Move (text : JsonText) (s : Registry) (a : Action) (s' : Registry) : Prop
  | neutral (hrows : s'.rows = s.rows) (hdirs : s'.releaseDirs = s.releaseDirs)
      (hcalls : s'.calls.Sublist s.calls)
      (hkeep : s'.releasesToKeep = s.releasesToKeep ∨ a = .updatePlatform s'.releasesToKeep)
  | begun (call : Call) (heq : s' = s.withCall call)
      (hnew : ∀ other ∈ s.calls, other.appId ≠ call.appId) (hcall : call.Begun text s a)
  | edited (appId : Int) (hidle : ∀ call ∈ s'.calls, call.appId ≠ appId)
      (hcalls : s'.calls.Sublist s.calls) (hdirs : s'.releaseDirs = s.releaseDirs)
      (hkeep : s'.releasesToKeep = s.releasesToKeep)
      (hframe : ∀ other, appId ≠ other → rowsOf other s'.rows = rowsOf other s.rows)
      (hfewer : Fewer text s.rows s'.rows)
  | saved (number : Nat) (upload : PreparedUpload)
      (hcall : s.calls[number]? = some (.saving upload))
      (hstep : s.save number (.saving upload) = some s')
  | registered (number : Nat) (upload : PreparedUpload)
      (hcall : s.calls[number]? = some (.registering upload))
      (hstep : s.commit text number (.registering upload) = some s')
  | removed (number : Nat) (appId : Int) (version : String) (versions : List String)
      (hcall : s.calls[number]? = some (.cleaning appId (version :: versions)))
      (hstep : s.removeDir number (.cleaning appId (version :: versions)) = some s')

theorem prepareUpload_eq_ok {input : RegisterBinaryArtifactInput} {current : BinaryConfigItem}
    {upload : PreparedUpload} (h : prepareUpload text input current = .ok upload) :
    upload.appId = input.app.id ∧
      normalizeReleaseId input.artifactVersion = .ok upload.version := by
  unfold prepareUpload at h
  obtain ⟨artifactVersion, hversion, h⟩ := except_bind_eq_ok.mp h
  obtain ⟨versionCode, -, h⟩ := except_bind_eq_ok.mp h
  dsimp only at h
  split at h
  · cases h
  · split at h
    · cases h
    · obtain ⟨entryFile, -, h⟩ := except_bind_eq_ok.mp h
      obtain ⟨metadata, -, h⟩ := except_bind_eq_ok.mp h
      obtain rfl := Except.ok.inj h
      exact ⟨rfl, hversion⟩

/-- The calls besides one are of other applications. -/
theorem Serial.appId_ne (h : Serial s) (hcall : s.calls[number]? = some call)
    (hother : call' ∈ s.calls.eraseIdx number) : call'.appId ≠ call.appId := by
  obtain ⟨hlt, rfl⟩ := List.getElem?_eq_some_iff.mp hcall
  have hsplit : s.calls.take number ++ s.calls[number] :: s.calls.drop (number + 1) = s.calls := by
    rw [List.getElem_cons_drop, List.take_append_drop]
  have hkeyed := h.keyed
  rw [Keyed, ← hsplit, List.map_append, List.map_cons] at hkeyed
  have hnew := (List.nodup_middle.mp hkeyed).notMem
  rw [List.eraseIdx_eq_take_drop_succ] at hother
  intro heq
  refine hnew ?_
  rw [← heq, ← List.map_append]
  exact List.mem_map_of_mem hother

/-- A transaction that leaves no call of its application. -/
theorem Serial.edited (h : Serial s) {rows : ArtifactTable}
    {configs : List (Int × BinaryConfigItem)} (hcall : s.calls[number]? = some call)
    (hframe : ∀ other, call.appId ≠ other → rowsOf other rows = rowsOf other s.rows)
    (hfewer : Fewer text s.rows rows) :
    Move text s a ({ s with rows, configs }.endCall number) :=
  .edited call.appId (fun _ hother => h.appId_ne hcall hother) (List.eraseIdx_sublist _ _) rfl
    rfl hframe hfewer

theorem move_of_commit (htext : ReadsManual text) (hcoherent : Coherent s) (h : Serial s)
    (hcall : s.calls[number]? = some call) (hstep : s.commit text number call = some s') :
    Move text s a s' := by
  cases call with
  | registering upload => exact .registered number upload hcall hstep
  | deploying app artifact current =>
      obtain rfl := Option.some.inj hstep
      obtain ⟨hartifact, hstatus, happ⟩ := h.deploying _ _ _ (List.mem_of_getElem? hcall)
      refine h.edited hcall (fun other hne => ?_) ?_
      · exact (rowsOf_updateAt (.deployed artifact) hne).trans (rowsOf_registerConfigured hne)
      · exact fewer_activateDeployed hcoherent.keyed hartifact hstatus rfl happ
  | restoring appId artifact config =>
      obtain rfl := Option.some.inj hstep
      cases artifact with
      | none =>
          exact h.edited hcall (fun other hne => rowsOf_registerConfigured hne)
            (fewer_registerConfigured htext)
      | some artifact =>
          refine h.edited hcall (fun other hne => ?_) ?_
          · exact (rowsOf_updateAt (.status fun row => _) hne).trans
              (rowsOf_registerConfigured hne)
          · exact (fewer_registerConfigured htext).trans (fewer_activateRestored artifact.id)
  | saving | cleaning => cases hstep

theorem move_of_createApp (htext : ReadsManual text) (halone : ∀ call ∈ s.calls, call.appId ≠ appId)
    {now : String} (hstep : s.createApp appId config now = some s') : Move text s a s' := by
  unfold Registry.createApp at hstep
  split at hstep
  · cases hstep
  · obtain rfl := Option.some.inj hstep
    refine .edited appId halone (.refl _) rfl rfl (fun other hne => ?_) ?_
    · dsimp only
      split
      · rfl
      · exact rowsOf_registerInitial hne
    · dsimp only
      split
      · exact .refl _
      · exact fewer_registerInitial htext

theorem move_of_step (htext : ReadsManual text) (hcoherent : Coherent s) (h : Serial s)
    (halone : Alone s a) (hstep : s.step text a = some s') : Move text s a s' := by
  cases a with
  | createApp appId config now => exact move_of_createApp htext (halone.idle rfl) hstep
  | updatePlatform releasesToKeep =>
      simp only [Registry.step] at hstep
      split at hstep
      · obtain rfl := Option.some.inj hstep
        exact .neutral rfl rfl (.refl _) (.inr rfl)
      · cases hstep
  | configure appId config =>
      obtain rfl := Option.some.inj hstep
      exact .edited appId (halone.idle rfl) (.refl _) rfl rfl
        (fun other hne => rowsOf_registerConfigured hne) (fewer_registerConfigured htext)
  | updateActiveSlot appId slot =>
      obtain rfl := Option.some.inj hstep
      exact .neutral rfl rfl (.refl _) (.inl rfl)
  | upload input =>
      simp only [Registry.step] at hstep
      split at hstep
      · rename_i upload hupload
        obtain rfl := Option.some.inj hstep
        refine .begun (.saving upload) rfl (fun call hcall => ?_) ⟨input, _, rfl, hupload⟩
        rw [Call.appId, (prepareUpload_eq_ok hupload).1]
        exact halone.idle rfl call hcall
      · cases hstep
  | deploy app artifactId =>
      obtain ⟨artifact, hfind, rfl⟩ := Option.map_eq_some_iff.mp hstep
      have hfound := List.find?_some hfind
      simp only [Bool.and_eq_true, beq_iff_eq, bne_iff_ne] at hfound
      exact .begun _ rfl (halone.idle rfl)
        ⟨List.mem_of_find?_eq_some hfind, hfound.2, hfound.1.2⟩
  | restore app artifactVersion snapshot =>
      simp only [Registry.step, Registry.restore] at hstep
      split at hstep
      · obtain rfl := Option.some.inj hstep
        exact .begun _ rfl (halone.idle rfl) trivial
      · obtain ⟨artifact, -, rfl⟩ := Option.map_eq_some_iff.mp hstep
        exact .begun _ rfl (halone.idle rfl) trivial
  | save number =>
      obtain ⟨call, hcall, hsave⟩ := Option.bind_eq_some_iff.mp hstep
      cases call with
      | saving upload => exact .saved number upload hcall hsave
      | registering | cleaning | deploying | restoring => cases hsave
  | commit number =>
      obtain ⟨call, hcall, hcommit⟩ := Option.bind_eq_some_iff.mp hstep
      exact move_of_commit htext hcoherent h hcall hcommit
  | removeDir number =>
      obtain ⟨call, hcall, hremove⟩ := Option.bind_eq_some_iff.mp hstep
      cases call with
      | cleaning appId versions =>
          cases versions with
          | nil =>
              obtain rfl := Option.some.inj hremove
              exact .neutral rfl rfl (List.eraseIdx_sublist _ _) (.inl rfl)
          | cons version versions => exact .removed number appId version versions hcall hremove
      | saving | registering | deploying | restoring => cases hremove
  | abandon number =>
      obtain ⟨call, -, rfl⟩ := Option.map_eq_some_iff.mp hstep
      exact .neutral rfl rfl (List.eraseIdx_sublist _ _) (.inl rfl)

end EasyDeploy.BinaryReleases
