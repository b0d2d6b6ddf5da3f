import EasyDeploy.Configs.KeyRotation
import EasyDeploy.Configs.Published

/-!
# Configurations under changing keys

Runs in which no restart drops a key that was active show what runs without keys
show. So what was published stays readable, whatever keys have come since.
-/

namespace EasyDeploy.Configs
open Foundation Transition

variable {Document : Type} (base : ConfigCodec Document) (library : SecretLibrary)
  (nonces : Nat → SecretNonce)

/-- The rows with keys and those without, and what both have logged. -/
structure Unsealed (sealedState : List (ConfigEvent Document) × SealedConfigs)
    (plainState : List (ConfigEvent Document) × ConfigStore) : Prop where
  log : List.Forall₂ SameEvent sealedState.1 plainState.1
  store : StoreOpens library sealedState.2.used sealedState.2.store plainState.2
  running : ∀ cipher, sealedState.2.cipher = some cipher →
    cipher.activeEntry ∈ sealedState.2.used ∧ cipher.Keeps sealedState.2.used

section Runs

variable {base library nonces} {log : List (ConfigEvent Document)} {s : SealedConfigs}

theorem Unsealed.restart {plainState : List (ConfigEvent Document) × ConfigStore}
    (h : Unsealed library (log, s) plainState) {cipher : Option SecretConfigCipher}
    (hkeeps : ∀ ring, cipher = some ring → ring.Keeps s.used) :
    Unsealed library (log, { s with
      cipher := cipher
      used := s.used ++ (cipher.map SecretConfigCipher.activeEntry).toList }) plainState := by
  refine ⟨h.log, h.store.mono fun entry hentry => List.mem_append_left _ hentry, ?_⟩
  rintro ring rfl
  constructor
  · exact List.mem_append_right _ (List.mem_singleton_self _)
  · intro entry hentry
    rcases List.mem_append.mp hentry with hused | hnew
    · exact hkeeps ring rfl entry hused
    · rw [List.mem_singleton.mp hnew]
      exact (Option.some_get ring.active).symm

theorem Unsealed.call (hlibrary : library.Sound)
    {plainState : List (ConfigEvent Document) × ConfigStore}
    (h : Unsealed library (log, s) plainState) {cipher : SecretConfigCipher}
    (hcipher : s.cipher = some cipher) (action : ConfigAction Document) :
    let after := (log ++ (s.store.event (ringCodec base library nonces cipher) action).toList,
      { s with store := s.store.act (ringCodec base library nonces cipher) action })
    Unsealed library after plainState ∨
      Unsealed library after (plainState.1 ++ (plainState.2.event (plainCodec base) action).toList,
        plainState.2.act (plainCodec base) action) := by
  obtain ⟨hactive, hkeeps⟩ := h.running cipher hcipher
  rcases h.store.act hlibrary hactive hkeeps action with ⟨hstore, hevent⟩ | ⟨hstore, hevent⟩
  · left
    refine ⟨?_, ?_, h.running⟩
    · rw [hevent, Option.toList_none, List.append_nil]
      exact h.log
    · rw [hstore]
      exact h.store
  · exact .inr ⟨List.rel_append h.log (rel_toList hevent), hstore, h.running⟩

/-- The server with keys is simulated by the one without. -/
theorem simulates_publication (hlibrary : library.Sound) :
    Simulates (observedRotation base library nonces)
      (fun state action => state.2.keepsKeys library action = true)
      (observedPublication (plainCodec base)) (Unsealed library) := by
  constructor
  · rintro ⟨log, s⟩ ⟨hlog, hcipher, hused, hdraft, hrevisions⟩
    obtain rfl : log = [] := hlog
    have hinitial : ConfigStore.Initial (plainCodec base) s.store := by
      constructor
      · exact hdraft
      · rw [hrevisions]
        exact List.nodup_nil
      · rw [hrevisions]
        exact .nil
      · rw [hrevisions]
        exact .nil
      · rw [hrevisions]
        rintro _ ⟨⟩
      · rw [hrevisions]
        rintro _ ⟨⟩
    refine ⟨([], s.store), ⟨rfl, hinitial⟩, .nil, ⟨?_, ?_, rfl, rfl, rfl⟩, ?_⟩
    · rw [hdraft]
      exact .none
    · rw [hrevisions]
      exact .nil
    · intro cipher hsome
      cases hcipher.symm.trans hsome
  · rintro ⟨log, s⟩ action ⟨log', s'⟩ plainState hkeeps h hstep
    obtain ⟨hmove, rfl⟩ := step_logged_eq_some.mp hstep
    cases action with
    | restart configActiveKeyId configMasterKeys =>
        left
        obtain rfl := Option.some.inj hmove
        show Unsealed library (log ++ [], _) _
        rw [List.append_nil]
        apply h.restart
        intro ring hring
        exact of_decide_eq_true ((Option.all_eq_true _ _).mp hkeeps ring hring)
    | call action =>
        obtain ⟨cipher, hcipher, rfl⟩ := Option.map_eq_some_iff.mp hmove
        have hevent : s.event base library nonces (.call action) =
            s.store.event (ringCodec base library nonces cipher) action := by
          rw [SealedConfigs.event, hcipher, Option.bind_some]
        rw [hevent]
        rcases h.call hlibrary hcipher action with hsame | hplain
        · exact .inl hsame
        · exact .inr ⟨action, _, rfl, hplain⟩

/-- A server with the used keys and one without keys answer alike. -/
structure AnswersAlike (base : ConfigCodec Document) (library : SecretLibrary)
    (nonces : Nat → SecretNonce) (log : List (ConfigEvent Document)) (s : SealedConfigs)
    (plainLog : List (ConfigEvent Document)) (plain : ConfigStore) : Prop where
  log : List.Forall₂ SameEvent log plainLog
  loads : ∀ cipher : SecretConfigCipher, cipher.Keeps s.used → ∀ revisionId,
    s.store.loadRevision (ringCodec base library nonces cipher) revisionId =
      plain.loadRevision (plainCodec base) revisionId
  publishes : ∀ cipher : SecretConfigCipher, cipher.Keeps s.used → ∀ fault expectedDraftHash,
    (s.store.publishDraft (ringCodec base library nonces cipher) fault expectedDraftHash).map
        (·.2.1) =
      (plain.publishDraft (plainCodec base) fault expectedDraftHash).map (·.2.1)

/-- A service that restarts with new keys, each time keeping the old ones, answers as one that does
not encrypt; both start without configurations. -/
theorem rotation_refines_publication (hlibrary : library.Sound)
    (h : Reached (observedRotation base library nonces)
      (fun state action => state.2.keepsKeys library action = true) (log, s)) :
    ∃ plainLog plain, Reachable (observedPublication (plainCodec base)) (plainLog, plain) ∧
      AnswersAlike base library nonces log s plainLog plain := by
  obtain ⟨⟨plainLog, plain⟩, hreached, hunsealed⟩ :=
    h.exists_related (simulates_publication hlibrary)
  refine ⟨plainLog, plain, hreached, hunsealed.log, ?_, ?_⟩
  · intro cipher hkeeps revisionId
    exact hunsealed.store.loadRevision hkeeps revisionId
  · intro cipher hkeeps fault expectedDraftHash
    apply (hunsealed.store.publishDraft hkeeps fault expectedDraftHash).map_eq
    exact fun _ _ hpublished => hpublished.1

/-- A revision that is loaded without keys is refused to a ring that lacks one of the keys. -/
theorem StoreOpens.loadRevision_unknown {used : List (String × SecretKey)}
    {store plain : ConfigStore} (hopens : StoreOpens library used store plain) {revisionId : Int}
    {content : Document × List (String × String)}
    (h : plain.loadRevision (plainCodec base) revisionId = .ok content) :
    ∃ entry ∈ used, ∀ cipher : SecretConfigCipher, cipher.keys.lookup entry.1 = none →
      store.loadRevision (ringCodec base library nonces cipher) revisionId =
        .error (.secret ("unknown config encryption key " ++ entry.1)) := by
  have hfound := hopens.find?_revision revisionId
  unfold ConfigStore.loadRevision at h ⊢
  generalize (store.revisions.find? fun revision => revision.id == revisionId) = found at hfound ⊢
  generalize (plain.revisions.find? fun revision => revision.id == revisionId) = found'
    at hfound h
  cases hfound with
  | none => cases h
  | @some revision revision' hrevision =>
      obtain ⟨entry, hentry, hneeds⟩ := hrevision.opens.needs
      obtain ⟨document, hdocument, h⟩ := except_bind_eq_ok.mp h
      obtain ⟨⟨⟩, hvalid, -⟩ := except_bind_eq_ok.mp h
      refine ⟨entry, hentry, ?_⟩
      intro cipher hnone
      have hjson : revision.configJson = revision'.configJson := by rw [← hrevision.same]
      have hdecrypt : (ringCodec base library nonces cipher).decrypt revision.secretCiphertext =
          .error ("unknown config encryption key " ++ entry.1) := by
        show (cipher.decrypt library revision.secretCiphertext).mapError _ = _
        rw [hneeds cipher hnone]
        rfl
      dsimp only
      rw [hjson, hdecrypt]
      change Except.mapError _ ((plainCodec base).readDocument revision'.configJson) >>= _ = _
      rw [hdocument]
      change Except.mapError _ ((plainCodec base).validate document) >>= _ = _
      rw [hvalid]
      rfl

/-- The events before a publication that both servers have logged. -/
theorem getLast?_of_same {before plainBefore : List (ConfigEvent Document)} {document : Document}
    {secrets : List (String × String)} {draftHash : String}
    (h : List.Forall₂ SameEvent before plainBefore)
    (hlast : plainBefore.getLast? = some (.saved document secrets draftHash)) :
    before.getLast? = some (.saved document secrets draftHash) := by
  obtain ⟨init, rfl⟩ := List.getLast?_eq_some_iff.mp hlast
  obtain ⟨before', last, rfl, -, hsame⟩ := exists_append_of_forall₂ h.flip
  obtain ⟨event, rest, hevent, hrest, rfl⟩ := List.forall₂_cons_left_iff.mp hsame
  cases hrest
  cases hevent
  exact List.getLast?_concat

/-- What was saved before a publication is loaded with its secrets as long as the keys are kept,
and refused without the key of its envelope. -/
structure StaysReadable (base : ConfigCodec Document) (library : SecretLibrary)
    (nonces : Nat → SecretNonce) (s : SealedConfigs) (before : List (ConfigEvent Document))
    (expectedDraftHash : String) (revisionId : Int) : Prop where
  saved : ∃ document secrets,
    before.getLast? = some (.saved document secrets expectedDraftHash) ∧
    ∀ cipher : SecretConfigCipher, cipher.Keeps s.used →
      s.store.loadRevision (ringCodec base library nonces cipher) revisionId =
        .ok (document, secrets)
  needed : ∃ entry ∈ s.used, ∀ cipher : SecretConfigCipher, cipher.keys.lookup entry.1 = none →
    s.store.loadRevision (ringCodec base library nonces cipher) revisionId =
      .error (.secret ("unknown config encryption key " ++ entry.1))

/-- What was published since a service without configurations has started stays readable after every
restart that keeps the keys, and a key that is not kept makes it unreadable. -/
theorem published_stays_readable (hlibrary : library.Sound) (hcodec : (plainCodec base).Sound)
    (h : Reached (observedRotation base library nonces)
      (fun state action => state.2.keepsKeys library action = true) (log, s))
    {before later : List (ConfigEvent Document)} {expectedDraftHash : String} {draft : ConfigDraft}
    {result : ConfigRevisionResult}
    (hlog : log = before ++ .published expectedDraftHash draft result :: later) :
    StaysReadable base library nonces s before expectedDraftHash result.revisionId := by
  obtain ⟨⟨plainLog, plain⟩, hreached, hunsealed⟩ :=
    h.exists_related (simulates_publication hlibrary)
  have hsame := hunsealed.log
  rw [hlog] at hsame
  obtain ⟨plainBefore, rest, hplainLog, hbefore, hrest⟩ := exists_append_of_forall₂ hsame
  obtain ⟨event, plainLater, hevent, -, rfl⟩ := List.forall₂_cons_left_iff.mp hrest
  cases hevent with
  | published _ _ plainDraft _ =>
      have hconsistent := consistent_of_reached hcodec hreached
      obtain ⟨-, document, secrets, hlast, -, revision, hrevision, hholds, hresult⟩ :=
        hconsistent.published _ _ _ _ _ hplainLog
      have hload : plain.loadRevision (plainCodec base) result.revisionId =
          .ok (document, secrets) := by
        rw [← hresult]
        exact loadRevision_eq_ok hcodec hconsistent.numbered.ids hrevision hholds
      constructor
      · refine ⟨document, secrets, getLast?_of_same hbefore hlast, ?_⟩
        intro cipher hkeeps
        rw [hunsealed.store.loadRevision hkeeps]
        exact hload
      · exact hunsealed.store.loadRevision_unknown hload

/-- What a server encrypts is decrypted by a server whose specification has all its entries,
among others and in any order. -/
theorem decrypt_of_longer_spec {activeKeyId otherKeyId keySpec otherSpec : String}
    {cipher other : SecretConfigCipher} {nonce : SecretNonce} {text written : String}
    (hlibrary : library.Sound) (h : library.fromKeySpec activeKeyId keySpec = .ok cipher)
    (hother : library.fromKeySpec otherKeyId otherSpec = .ok other)
    (hentries : ∀ entry ∈ keyEntries keySpec, entry ∈ keyEntries otherSpec)
    (hwritten : cipher.encrypt library nonce text = .ok written) :
    other.decrypt library written = .ok text := by
  apply decrypt_encrypt hlibrary hwritten
  obtain ⟨key, hkey⟩ := exists_active cipher
  rw [hkey]
  exact fromKeySpec_keeps h hother hentries _ (mem_of_lookup hkey)

end Runs

namespace Sample

def charBytes (char : Char) : List UInt8 :=
  [UInt8.ofNat (char.toNat / 65536), UInt8.ofNat (char.toNat / 256), UInt8.ofNat char.toNat]

def readChars : List UInt8 → List Char
  | high :: middle :: low :: rest =>
      Char.ofNat (high.toNat * 65536 + middle.toNat * 256 + low.toNat) :: readChars rest
  | _ => []

theorem readChars_charBytes (chars : List Char) : readChars (chars.flatMap charBytes) = chars := by
  induction chars with
  | nil => rfl
  | cons char rest ih =>
      have hvalid : char.toNat < 1114112 := by
        rcases char.valid with hlow | ⟨-, hhigh⟩
        · exact Nat.lt_trans hlow (by decide)
        · exact hhigh
      rw [List.flatMap_cons, charBytes]
      simp only [List.cons_append, List.nil_append, readChars, ih]
      congr 1
      have hnat : (UInt8.ofNat (char.toNat / 65536)).toNat * 65536 +
          (UInt8.ofNat (char.toNat / 256)).toNat * 256 + (UInt8.ofNat char.toNat).toNat =
            char.toNat := by
        simp only [UInt8.toNat_ofNat']
        omega
      rw [hnat, Char.ofNat_toNat]

/-- Ciphertexts start with their key. -/
def encryptBytes (key : SecretKey) (text : String) : List UInt8 :=
  key.val ++ text.toList.flatMap charBytes

def decryptBytes (key : SecretKey) (bytes : List UInt8) : Option String :=
  if bytes.take 32 = key.val then some (String.ofList (readChars (bytes.drop 32))) else none

def encodeBytes (bytes : List UInt8) : String :=
  String.ofList (bytes.map fun byte => Char.ofNat (byte.toNat + 33))

def decodeBytes (text : String) : List UInt8 :=
  text.toList.map fun char => UInt8.ofNat (char.toNat - 33)

theorem decode_encodeBytes (bytes : List UInt8) : decodeBytes (encodeBytes bytes) = bytes := by
  rw [decodeBytes, encodeBytes, String.toList_ofList, List.map_map]
  apply (List.map_congr_left _).trans (List.map_id bytes)
  intro byte _
  have hbyte := byte.toNat_lt
  have hvalid : (byte.toNat + 33).isValidChar := .inl (by omega)
  have hchar : (Char.ofNat (byte.toNat + 33)).toNat = byte.toNat + 33 := by
    rw [Char.ofNat, dif_pos hvalid]
    rfl
  show UInt8.ofNat ((Char.ofNat (byte.toNat + 33)).toNat - 33) = byte
  rw [hchar, Nat.add_sub_cancel, UInt8.ofNat_toNat]

/-- Texts of envelopes and of nothing else. -/
def envelopeText : JsonText where
  toString value :=
    match CipherEnvelope.fromValue value with
    | .error message => .error message
    | .ok envelope =>
        if envelope.version = 1 ∧ envelope.toValue = value then
          .ok (encodeTexts [envelope.keyId, envelope.nonce, envelope.ciphertext])
        else .error "not an envelope"
  fromStr text :=
    match decodeTexts text with
    | [keyId, nonce, ciphertext] => .ok (CipherEnvelope.toValue ⟨1, keyId, nonce, ciphertext⟩)
    | _ => .error "not an envelope"

theorem roundTrips_envelopeText : envelopeText.RoundTrips := by
  intro value written h
  simp only [envelopeText] at h ⊢
  split at h
  · cases h
  · rename_i envelope _
    split at h
    · rename_i hvalue
      obtain ⟨hversion, hvalue⟩ := hvalue
      rw [← Except.ok.inj h, decode_encodeTexts, ← hvalue, ← hversion]
    · cases h

def secretLibrary : SecretLibrary where
  encrypt key _ text := some (encryptBytes key text)
  decrypt key _ bytes := decryptBytes key bytes
  encode := encodeBytes
  decode text := some (decodeBytes text)
  text := envelopeText

theorem secretLibrary_sound : secretLibrary.Sound := by
  constructor
  · rintro key nonce text _ ⟨⟩
    show decryptBytes key (encryptBytes key text) = some text
    rw [decryptBytes, encryptBytes, List.take_left' key.property, if_pos rfl,
      List.drop_left' key.property, readChars_charBytes, String.ofList_toList]
  · intro bytes
    exact congrArg some (decode_encodeBytes bytes)
  · exact roundTrips_envelopeText

def oldKey : String := "old:" ++ encodeBytes (List.replicate 32 1)

def newKey : String := "new:" ++ encodeBytes (List.replicate 32 2)

def zeroNonce (_ : Nat) : SecretNonce := ⟨List.replicate 12 0, rfl⟩

def noService : SealedConfigs := ⟨none, [], noConfig⟩

theorem initial_noService :
    (observedRotation textCodec secretLibrary zeroNonce).initial ([], noService) :=
  ⟨rfl, rfl, rfl, rfl, rfl⟩

/-- A content is published with the old key and read with the new one. -/
def rotated : List (RotationAction String) :=
  .restart "old" oldKey :: (release 0 "A").map .call ++ [.restart "new" (oldKey ++ "," ++ newKey)]

def publishedLast (log : List (ConfigEvent String)) : Bool :=
  match log.getLast? with
  | some (.published _ _ _) => true
  | _ => false

theorem exec_rotated :
    (((observedRotation textCodec secretLibrary zeroNonce).restrict fun state action =>
      state.2.keepsKeys secretLibrary action).exec ([], noService) rotated).any
        (fun state => publishedLast state.1 && state.2.used.length == 2) = true := by
  decide +kernel

/-- What the old key wrote is read with a specification that has both. -/
def rereads : Bool :=
  (secretLibrary.fromKeySpec "old" oldKey).toOption.any fun old =>
    (old.encrypt secretLibrary (zeroNonce 0) "TOKEN").isOk &&
      (secretLibrary.fromKeySpec "new" (newKey ++ ", " ++ oldKey)).isOk

end Sample

/-- The configuration is read after the rotation. -/
theorem published_stays_readable_rotated : ∃ s before expectedDraftHash revisionId,
    s.used.length = 2 ∧
      StaysReadable Sample.textCodec Sample.secretLibrary Sample.zeroNonce s before
        expectedDraftHash revisionId := by
  obtain ⟨⟨log, s⟩, hexec, hoften⟩ := (Option.any_eq_true _ _).mp Sample.exec_rotated
  obtain ⟨hpublished, hused⟩ := Bool.and_eq_true_iff.mp hoften
  unfold Sample.publishedLast at hpublished
  dsimp only at hpublished
  split at hpublished
  · rename_i expectedDraftHash draft result hlast
    obtain ⟨before, hlog⟩ := List.getLast?_eq_some_iff.mp hlast
    exact ⟨s, before, expectedDraftHash, result.revisionId, beq_iff_eq.mp hused,
      published_stays_readable Sample.secretLibrary_sound
        (plainCodec_sound Sample.textCodec Sample.textCodec_sound)
        (Reached.of_restrict (Reachable.exec (.start Sample.initial_noService) hexec)) hlog⟩
  · cases hpublished

/-- A run with two restarts under other keys. -/
theorem rotation_refines_publication_rotated : ∃ log s plainLog plain, s.used.length = 2 ∧
    Reachable (observedPublication (plainCodec Sample.textCodec)) (plainLog, plain) ∧
      AnswersAlike Sample.textCodec Sample.secretLibrary Sample.zeroNonce log s plainLog
        plain := by
  obtain ⟨⟨log, s⟩, hexec, hoften⟩ := (Option.any_eq_true _ _).mp Sample.exec_rotated
  obtain ⟨-, hused⟩ := Bool.and_eq_true_iff.mp hoften
  obtain ⟨plainLog, plain, hreached, halike⟩ :=
    rotation_refines_publication Sample.secretLibrary_sound
      (Reached.of_restrict (Reachable.exec (.start Sample.initial_noService) hexec))
  exact ⟨log, s, plainLog, plain, beq_iff_eq.mp hused, hreached, halike⟩

/-- A new key is put before the old one, with a blank after the comma. -/
theorem decrypt_of_longer_spec_rotated : ∃ old new written,
    Sample.secretLibrary.fromKeySpec "old" Sample.oldKey = .ok old ∧
    Sample.secretLibrary.fromKeySpec "new" (Sample.newKey ++ ", " ++ Sample.oldKey) = .ok new ∧
    old.encrypt Sample.secretLibrary (Sample.zeroNonce 0) "TOKEN" = .ok written ∧
    new.decrypt Sample.secretLibrary written = .ok "TOKEN" := by
  have hrun : Sample.rereads = true := by decide +kernel
  obtain ⟨old, hread, hboth⟩ := (Option.any_eq_true _ _).mp hrun
  obtain ⟨hencrypt, hnew⟩ := Bool.and_eq_true_iff.mp hboth
  obtain ⟨written, hwritten⟩ := exists_of_isOk hencrypt
  obtain ⟨new, hnew⟩ := exists_of_isOk hnew
  have hold : Sample.secretLibrary.fromKeySpec "old" Sample.oldKey = .ok old := by
    cases hspec : Sample.secretLibrary.fromKeySpec "old" Sample.oldKey with
    | error error =>
        rw [hspec] at hread
        cases hread
    | ok found =>
        rw [hspec] at hread
        rw [Option.some.inj hread]
  have hall : ((keyEntries Sample.oldKey).all fun entry =>
      (keyEntries (Sample.newKey ++ ", " ++ Sample.oldKey)).contains entry) = true := by
    decide +kernel
  have hentries : ∀ entry ∈ keyEntries Sample.oldKey,
      entry ∈ keyEntries (Sample.newKey ++ ", " ++ Sample.oldKey) := by
    intro entry hentry
    exact List.contains_iff_mem.mp (List.all_eq_true.mp hall entry hentry)
  exact ⟨old, new, written, hold, hnew, hwritten,
    decrypt_of_longer_spec Sample.secretLibrary_sound hold hnew hentries hwritten⟩

end EasyDeploy.Configs
