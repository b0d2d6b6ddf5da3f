import EasyDeploy.Configs.Publication
import EasyDeploy.Configs.SecretCipher
import EasyDeploy.Foundation.Simulation

/-!
# Rotating the keys of configurations

A server that encrypts secrets is restarted with other keys at any time. As long as
no restart drops a key that was active before, it behaves like a server that stores
the secrets in the clear.
-/

namespace EasyDeploy.Configs
open Foundation Transition

variable {Document : Type} (base : ConfigCodec Document) (library : SecretLibrary)
  (nonces : Nat → SecretNonce)

/-- The codec of a server with a ring. -/
def ringCodec (cipher : SecretConfigCipher) : ConfigCodec Document :=
  { base with
    encrypt := fun number text =>
      (cipher.encrypt library (nonces number) text).mapError SecretConfigError.message
    decrypt := fun text => (cipher.decrypt library text).mapError SecretConfigError.message }

/-- Secrets stay in the clear. -/
def plainCodec : ConfigCodec Document :=
  { base with
    encrypt := fun _ text => .ok text
    decrypt := .ok }

theorem plainCodec_sound (hbase : base.Sound) : (plainCodec base).Sound := by
  constructor
  · exact hbase.document
  · exact hbase.map
  · rintro number text _ ⟨⟩
    rfl
  · exact hbase.hash

/-- The service that runs, the keys that were active so far, and the rows of an application. -/
structure SealedConfigs where
  cipher : Option SecretConfigCipher
  used : List (String × SecretKey)
  store : ConfigStore
deriving DecidableEq

/-- What the service does between and with restarts. -/
inductive RotationAction (Document : Type)
  | restart (configActiveKeyId configMasterKeys : String)
  | call (action : ConfigAction Document)

/-- Without keys there is no service, and with a wrong specification no server. -/
def SecretLibrary.startService (configActiveKeyId configMasterKeys : String) :
    Option SecretConfigCipher :=
  if Blank configMasterKeys then none
  else (library.fromKeySpec configActiveKeyId configMasterKeys).toOption

/-- The key of new envelopes. -/
def SecretConfigCipher.activeEntry (cipher : SecretConfigCipher) : String × SecretKey :=
  (cipher.activeKeyId, (cipher.keys.lookup cipher.activeKeyId).get cipher.active)

namespace SealedConfigs

/-- The step of an action, if it can be taken. -/
def step (s : SealedConfigs) : RotationAction Document → Option SealedConfigs
  | .restart configActiveKeyId configMasterKeys =>
      let cipher := library.startService configActiveKeyId configMasterKeys
      some { s with
        cipher := cipher
        used := s.used ++ (cipher.map SecretConfigCipher.activeEntry).toList }
  | .call action =>
      s.cipher.map fun cipher =>
        { s with store := s.store.act (ringCodec base library nonces cipher) action }

/-- What a step records. -/
def event (s : SealedConfigs) : RotationAction Document → Option (ConfigEvent Document)
  | .restart _ _ => none
  | .call action =>
      s.cipher.bind fun cipher => s.store.event (ringCodec base library nonces cipher) action

end SealedConfigs

/-- A server and the calls of its clients, from an application without configurations. -/
def rotation : Transition SealedConfigs (RotationAction Document) where
  initial s := s.cipher = none ∧ s.used = [] ∧ s.store.draft = none ∧ s.store.revisions = []
  step := SealedConfigs.step base library nonces

/-- The service with the log of its events. -/
def observedRotation :
    Transition (List (ConfigEvent Document) × SealedConfigs) (RotationAction Document) :=
  (rotation base library nonces).logged (SealedConfigs.event base library nonces)

/-- A server starts with every key that was active before. -/
def SealedConfigs.keepsKeys (s : SealedConfigs) : RotationAction Document → Bool
  | .restart configActiveKeyId configMasterKeys =>
      (library.startService configActiveKeyId configMasterKeys).all fun cipher =>
        decide (cipher.Keeps s.used)
  | .call _ => true

/-- Every ring with the used keys opens what was written, and no ring without one of them. -/
structure Opens (used : List (String × SecretKey)) (written text : String) : Prop where
  reads : ∀ cipher : SecretConfigCipher, cipher.Keeps used →
    cipher.decrypt library written = .ok text
  needs : ∃ entry ∈ used, ∀ cipher : SecretConfigCipher, cipher.keys.lookup entry.1 = none →
    cipher.decrypt library written = .error (.unknownKey entry.1)

/-- A draft holds the sealed secrets of another. -/
structure DraftOpens (used : List (String × SecretKey)) (draft plain : ConfigDraft) : Prop where
  opens : Opens library used draft.secretCiphertext plain.secretCiphertext
  same : { plain with secretCiphertext := draft.secretCiphertext } = draft

/-- So does a revision. -/
structure RevisionOpens (used : List (String × SecretKey)) (revision plain : ConfigRevision) :
    Prop where
  opens : Opens library used revision.secretCiphertext plain.secretCiphertext
  same : { plain with secretCiphertext := revision.secretCiphertext } = revision

/-- So do all rows of a table. -/
structure StoreOpens (used : List (String × SecretKey)) (store plain : ConfigStore) : Prop where
  draft : Option.Rel (DraftOpens library used) store.draft plain.draft
  revisions : List.Forall₂ (RevisionOpens library used) store.revisions plain.revisions
  nextValue : store.nextValue = plain.nextValue
  lastDraftId : store.lastDraftId = plain.lastDraftId
  lastRevisionId : store.lastRevisionId = plain.lastRevisionId

/-- Events that differ in the seal of a draft only. -/
inductive SameEvent : ConfigEvent Document → ConfigEvent Document → Prop
  | saved (document secrets draftHash) :
      SameEvent (.saved document secrets draftHash) (.saved document secrets draftHash)
  | published (expectedDraftHash draft plain result) :
      SameEvent (.published expectedDraftHash draft result)
        (.published expectedDraftHash plain result)

section Calls

variable {base library nonces} {used used' : List (String × SecretKey)} {written text : String}
  {cipher : SecretConfigCipher} {store store' plain : ConfigStore} {document : Document}
  {secrets : List (String × String)}

theorem Opens.mono (h : Opens library used written text) (hused : ∀ entry ∈ used, entry ∈ used') :
    Opens library used' written text := by
  constructor
  · intro cipher hkeeps
    exact h.reads cipher fun entry hentry => hkeeps entry (hused entry hentry)
  · obtain ⟨entry, hentry, hneeds⟩ := h.needs
    exact ⟨entry, hused entry hentry, hneeds⟩

theorem StoreOpens.mono (h : StoreOpens library used store plain)
    (hused : ∀ entry ∈ used, entry ∈ used') : StoreOpens library used' store plain := by
  refine ⟨?_, ?_, h.nextValue, h.lastDraftId, h.lastRevisionId⟩
  · exact rel_imp (fun _ _ hdraft => ⟨hdraft.opens.mono hused, hdraft.same⟩) h.draft
  · exact h.revisions.imp fun _ _ hrevision => ⟨hrevision.opens.mono hused, hrevision.same⟩

/-- What a ring seals is opened by the rings that keep its active key. -/
theorem opens_of_encrypt (hlibrary : library.Sound) {nonce : SecretNonce}
    (hactive : cipher.activeEntry ∈ used) (h : cipher.encrypt library nonce text = .ok written) :
    Opens library used written text := by
  constructor
  · intro other hkeeps
    apply decrypt_encrypt hlibrary h
    exact (hkeeps _ hactive).trans (Option.some_get cipher.active)
  · exact ⟨_, hactive, fun other hnone => decrypt_unknown hlibrary h hnone⟩

theorem Opens.decrypt (h : Opens library used written text) (hkeeps : cipher.Keeps used) :
    (ringCodec base library nonces cipher).decrypt written = .ok text := by
  show (cipher.decrypt library written).mapError _ = _
  rw [h.reads cipher hkeeps]
  rfl

theorem StoreOpens.find?_revision (hopens : StoreOpens library used store plain)
    (revisionId : Int) :
    Option.Rel (RevisionOpens library used)
      (store.revisions.find? fun revision => revision.id == revisionId)
      (plain.revisions.find? fun revision => revision.id == revisionId) := by
  apply rel_find? _ hopens.revisions
  intro revision revision' hrevision
  rw [← hrevision.same]

/-- A draft that is sealed is the plain one with another text for its secrets. -/
theorem sealDraft_opens (hlibrary : library.Sound) (hactive : cipher.activeEntry ∈ used)
    {number : Nat} {id : Int} {draft : ConfigDraft}
    (h : sealDraft (ringCodec base library nonces cipher) number document secrets id = .ok draft) :
    ∃ plain, sealDraft (plainCodec base) number document secrets id = .ok plain ∧
      DraftOpens library used draft plain := by
  unfold sealDraft at h
  obtain ⟨⟨⟩, hvalid, h⟩ := except_bind_eq_ok.mp h
  obtain ⟨publicJson, hjson, h⟩ := except_bind_eq_ok.mp h
  obtain ⟨secretJson, hsecret, h⟩ := except_bind_eq_ok.mp h
  obtain ⟨secretCiphertext, hcipher, h⟩ := except_bind_eq_ok.mp h
  obtain ⟨fingerprints, hfingerprints, h⟩ := except_bind_eq_ok.mp h
  obtain rfl := Except.ok.inj h
  refine ⟨_, except_bind_eq_ok.mpr ⟨(), hvalid, except_bind_eq_ok.mpr ⟨publicJson, hjson,
    except_bind_eq_ok.mpr ⟨secretJson, hsecret, except_bind_eq_ok.mpr ⟨secretJson, rfl,
      except_bind_eq_ok.mpr ⟨fingerprints, hfingerprints, rfl⟩⟩⟩⟩⟩, ?_, rfl⟩
  exact opens_of_encrypt hlibrary hactive (mapError_eq_ok (mapError_eq_ok hcipher))

theorem StoreOpens.saveDraft (hlibrary : library.Sound) (hactive : cipher.activeEntry ∈ used)
    (hopens : StoreOpens library used store plain) {number : Nat}
    (h : store.saveDraft (ringCodec base library nonces cipher) number document secrets =
      .ok store') :
    ∃ plain', plain.saveDraft (plainCodec base) number document secrets = .ok plain' ∧
      StoreOpens library used store' plain' := by
  obtain ⟨draft, hdraft, h⟩ := except_bind_eq_ok.mp h
  obtain rfl := Except.ok.inj h
  have hids : store.draft.map (·.id) = plain.draft.map (·.id) := by
    apply rel_map_eq _ hopens.draft
    intro draft plain hrelated
    rw [← hrelated.same]
  rw [hids, hopens.lastDraftId] at hdraft ⊢
  obtain ⟨draft', hdraft', hrelated⟩ := sealDraft_opens hlibrary hactive hdraft
  refine ⟨_, except_bind_eq_ok.mpr ⟨draft', hdraft', rfl⟩, ?_⟩
  exact ⟨.some hrelated, hopens.revisions, hopens.nextValue, rfl, hopens.lastRevisionId⟩

theorem StoreOpens.expectedDraft (hopens : StoreOpens library used store plain)
    (expectedDraftHash : String) :
    Agree (DraftOpens library used) (store.expectedDraft expectedDraftHash)
      (plain.expectedDraft expectedDraftHash) := by
  obtain ⟨hdraft, -, -, -, -⟩ := hopens
  unfold ConfigStore.expectedDraft
  generalize store.draft = draft at hdraft ⊢
  generalize plain.draft = draft' at hdraft ⊢
  cases hdraft with
  | none => exact .error _
  | @some draft draft' hrelated =>
      have hhash : draft.draftHash = draft'.draftHash := by rw [← hrelated.same]
      simp only [hhash]
      by_cases hchanged : draft'.draftHash ≠ expectedDraftHash
      · rw [if_pos hchanged, if_pos hchanged]
        exact .error _
      · rw [if_neg hchanged, if_neg hchanged]
        exact .ok hrelated

theorem StoreOpens.revisionNo (hopens : StoreOpens library used store plain) :
    store.revisionNo = plain.revisionNo := by
  rw [ConfigStore.revisionNo, hopens.nextValue, ConfigStore.revisionNo]

theorem StoreOpens.insertRevision (hopens : StoreOpens library used store plain)
    {draft draft' : ConfigDraft} (h : DraftOpens library used draft draft') :
    StoreOpens library used (store.insertRevision draft) (plain.insertRevision draft') := by
  constructor
  · exact .none
  · apply List.rel_append hopens.revisions
    refine .cons ⟨h.opens, ?_⟩ .nil
    rw [← h.same, hopens.revisionNo, hopens.lastRevisionId]
  · exact congrArg (fun number => some (number + 1)) hopens.revisionNo
  · exact hopens.lastDraftId
  · exact congrArg (· + 1) hopens.lastRevisionId

/-- What a publication returns and leaves, with and without keys. -/
def PublicationOpens (library : SecretLibrary) (used : List (String × SecretKey))
    (sealedResult plainResult : ConfigDraft × ConfigRevisionResult × ConfigStore) : Prop :=
  sealedResult.2.1 = plainResult.2.1 ∧ StoreOpens library used sealedResult.2.2 plainResult.2.2

/-- A publication with a ring that has the used keys is the one without keys. -/
theorem StoreOpens.publishDraft (hkeeps : cipher.Keeps used)
    (hopens : StoreOpens library used store plain) (fault : Option String)
    (expectedDraftHash : String) :
    Agree (PublicationOpens library used)
      (store.publishDraft (ringCodec base library nonces cipher) fault expectedDraftHash)
      (plain.publishDraft (plainCodec base) fault expectedDraftHash) := by
  apply (hopens.expectedDraft expectedDraftHash).bind
  intro draft draft' hrelated
  have hjson : draft.draftJson = draft'.draftJson := by rw [← hrelated.same]
  have hhash : draft.draftHash = draft'.draftHash := by rw [← hrelated.same]
  rw [hjson]
  refine (Agree.refl _).bind ?_
  rintro document _ rfl
  refine (Agree.refl _).bind ?_
  rintro _ _ rfl
  rw [hrelated.opens.decrypt hkeeps]
  refine (Agree.refl (.ok draft'.secretCiphertext)).bind ?_
  rintro _ _ rfl
  have hfound : Option.Rel (RevisionOpens library used) (store.existing draft)
      (plain.existing draft') := by
    apply rel_find? _ hopens.revisions
    intro revision revision' hrevision
    rw [hhash, ← hrevision.same]
  cases fault with
  | some message => exact .error _
  | none =>
      dsimp only
      generalize store.existing draft = found at hfound ⊢
      generalize plain.existing draft' = found' at hfound ⊢
      cases hfound with
      | none =>
          refine .ok ⟨?_, hopens.insertRevision hrelated⟩
          dsimp only
          rw [hopens.lastRevisionId, hopens.revisionNo, hhash]
      | @some revision revision' hrevision =>
          refine .ok ⟨?_, .none, hopens.revisions, hopens.nextValue, hopens.lastDraftId,
            hopens.lastRevisionId⟩
          show revision.result = revision'.result
          rw [ConfigRevision.result, ConfigRevision.result, ← hrevision.same]

/-- A revision is loaded as the one without keys. -/
theorem StoreOpens.loadRevision (hkeeps : cipher.Keeps used)
    (hopens : StoreOpens library used store plain) (revisionId : Int) :
    store.loadRevision (ringCodec base library nonces cipher) revisionId =
      plain.loadRevision (plainCodec base) revisionId := by
  have hfound := hopens.find?_revision revisionId
  unfold ConfigStore.loadRevision
  generalize (store.revisions.find? fun revision => revision.id == revisionId) = found at hfound ⊢
  generalize (plain.revisions.find? fun revision => revision.id == revisionId) = found' at hfound ⊢
  cases hfound with
  | none => rfl
  | @some revision revision' hrevision =>
      have hjson : revision.configJson = revision'.configJson := by rw [← hrevision.same]
      dsimp only
      rw [hjson, hrevision.opens.decrypt hkeeps]
      rfl

/-- A call with keys changes nothing, or is the call without keys. -/
theorem StoreOpens.act (hlibrary : library.Sound) (hactive : cipher.activeEntry ∈ used)
    (hkeeps : cipher.Keeps used) (hopens : StoreOpens library used store plain)
    (action : ConfigAction Document) :
    (store.act (ringCodec base library nonces cipher) action = store ∧
        store.event (ringCodec base library nonces cipher) action = none) ∨
      StoreOpens library used (store.act (ringCodec base library nonces cipher) action)
          (plain.act (plainCodec base) action) ∧
        Option.Rel SameEvent (store.event (ringCodec base library nonces cipher) action)
          (plain.event (plainCodec base) action) := by
  cases action with
  | save number document secrets =>
      cases hcall : store.saveDraft (ringCodec base library nonces cipher) number document
          secrets with
      | error error =>
          left
          rw [ConfigStore.act, ConfigStore.event, hcall]
          exact ⟨rfl, rfl⟩
      | ok store' =>
          right
          obtain ⟨plain', hplain, hopens'⟩ := hopens.saveDraft hlibrary hactive hcall
          simp only [ConfigStore.act, ConfigStore.event, hcall, hplain, Except.toOption,
            Option.getD_some, Option.bind_some]
          refine ⟨hopens', ?_⟩
          have hdraft := hopens'.draft
          generalize store'.draft = draft at hdraft ⊢
          generalize plain'.draft = draft' at hdraft ⊢
          cases hdraft with
          | none => exact .none
          | @some draft draft' hrelated =>
              have hhash : draft.draftHash = draft'.draftHash := by rw [← hrelated.same]
              simp only [Option.map_some, hhash]
              exact .some (.saved _ _ _)
  | publish fault expectedDraftHash =>
      have hagree : Agree (PublicationOpens library used)
          (store.publishDraft (ringCodec base library nonces cipher) fault expectedDraftHash)
          (plain.publishDraft (plainCodec base) fault expectedDraftHash) :=
        hopens.publishDraft hkeeps fault expectedDraftHash
      simp only [ConfigStore.act, ConfigStore.event]
      generalize store.publishDraft (ringCodec base library nonces cipher) fault
        expectedDraftHash = result at hagree ⊢
      generalize plain.publishDraft (plainCodec base) fault expectedDraftHash = result'
        at hagree ⊢
      cases hagree with
      | error error => exact .inl ⟨rfl, rfl⟩
      | @ok result result' h =>
          right
          refine ⟨h.2, ?_⟩
          simp only [Except.toOption, Option.map_some, h.1]
          exact .some (.published _ _ _ _)

end Calls

end EasyDeploy.Configs
