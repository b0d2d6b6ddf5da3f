import EasyDeploy.Foundation.Json
import EasyDeploy.Foundation.Results
import EasyDeploy.Foundation.Sequences
import EasyDeploy.Foundation.Trimming

/-!
# Encrypted secrets

Secrets are kept in envelopes that name the key they are encrypted with. New
envelopes take the active key of a ring, and old ones stay readable as long as the
ring has their key. The ring is given as a text with an entry for each key.
-/

namespace EasyDeploy.Configs
open Foundation

/-- The key of the cipher. -/
abbrev SecretKey := { bytes : List UInt8 // bytes.length = 32 }

/-- What the cipher asks for once. -/
abbrev SecretNonce := { bytes : List UInt8 // bytes.length = 12 }

/-- AES-256-GCM on texts, base64, and JSON. -/
structure SecretLibrary where
  encrypt : SecretKey → SecretNonce → String → Option (List UInt8)
  decrypt : SecretKey → SecretNonce → List UInt8 → Option String
  encode : List UInt8 → String
  decode : String → Option (List UInt8)
  text : JsonText

/-- What is encrypted or encoded is read back. -/
structure SecretLibrary.Sound (library : SecretLibrary) : Prop where
  decrypt : ∀ key nonce text sealed, library.encrypt key nonce text = some sealed →
    library.decrypt key nonce sealed = some text
  decode : ∀ bytes, library.decode (library.encode bytes) = some bytes
  text : library.text.RoundTrips

/-- How encryption and decryption fail. -/
inductive SecretConfigError
  | invalidKeySpec (message : String)
  | unknownKey (keyId : String)
  | invalidEnvelope (message : String)
  | encryptFailed
  | decryptFailed
deriving Repr, DecidableEq

/-- The text of an error. -/
def SecretConfigError.message : SecretConfigError → String
  | .invalidKeySpec message | .invalidEnvelope message => message
  | .unknownKey keyId => "unknown config encryption key " ++ keyId
  | .encryptFailed => "encrypt config secrets failed"
  | .decryptFailed => "decrypt config secrets failed"

/-- A ring that has its active key. -/
structure SecretConfigCipher where
  activeKeyId : String
  keys : List (String × SecretKey)
  active : (keys.lookup activeKeyId).isSome = true
deriving DecidableEq

/-- `split_once`. -/
def splitOnce (separator : Char) (text : List Char) : Option (List Char × List Char) :=
  match text.dropWhile (· != separator) with
  | [] => none
  | _ :: rest => some (text.takeWhile (· != separator), rest)

/-- The trimmed entries that are not empty. -/
def keyEntries (keySpec : String) : List String :=
  ((keySpec.toList.splitOn ',').map fun entry => trim (String.ofList entry)).filter
    fun entry => entry != ""

/-- An entry of a key specification. -/
def parseKeyEntry (entry : String) : Option (String × String) :=
  (splitOnce ':' entry.toList).map fun parts =>
    (trim (String.ofList parts.1), trim (String.ofList parts.2))

/-- The entries of a map so far and the next one of the text. -/
def insertKeyEntry (encodedKeys : List (String × String)) (entry : String) :
    Except SecretConfigError (List (String × String)) :=
  match parseKeyEntry entry with
  | none => .error (.invalidKeySpec "config master keys must use key_id:base64 entries")
  | some (keyId, encodedKey) =>
      if encodedKeys.any fun old => old.1 == keyId then
        .error (.invalidKeySpec ("duplicate config encryption key id " ++ keyId))
      else
        .ok (encodedKeys ++ [(keyId, encodedKey)])

namespace SecretLibrary

variable (library : SecretLibrary)

/-- The key of an entry. -/
def decodeKey (entry : String × String) : Except SecretConfigError (String × SecretKey) :=
  if Blank entry.1 then
    .error (.invalidKeySpec "config encryption key id cannot be empty")
  else
    match library.decode (trim entry.2) with
    | none =>
        .error (.invalidKeySpec ("config encryption key " ++ entry.1 ++ " must be base64"))
    | some bytes =>
        if h : bytes.length = 32 then .ok (entry.1, ⟨bytes, h⟩)
        else
          .error (.invalidKeySpec
            ("config encryption key " ++ entry.1 ++ " must contain exactly 32 bytes"))

/-- The map is read in the order of its keys. -/
def fromBase64Keys (activeKeyId : String) (encodedKeys : List (String × String)) :
    Except SecretConfigError SecretConfigCipher :=
  if Blank activeKeyId then
    .error (.invalidKeySpec "active config encryption key id is required")
  else do
    let keys ← (sortBy (fun entry other => entry.1 ≤ other.1) encodedKeys).mapM library.decodeKey
    if h : (keys.lookup activeKeyId).isSome = true then .ok ⟨activeKeyId, keys, h⟩
    else .error (.unknownKey activeKeyId)

/-- The ring that a specification gives. -/
def fromKeySpec (activeKeyId keySpec : String) : Except SecretConfigError SecretConfigCipher := do
  let encodedKeys ← (keyEntries keySpec).foldlM insertKeyEntry []
  library.fromBase64Keys activeKeyId encodedKeys

end SecretLibrary

/-- What is stored of a secret. -/
structure CipherEnvelope where
  version : Int
  keyId : String
  nonce : String
  ciphertext : String
deriving Repr, DecidableEq

/-- The envelope as it is stored. -/
def CipherEnvelope.toValue (envelope : CipherEnvelope) : Json :=
  .object [("version", .int envelope.version), ("key_id", .string envelope.keyId),
    ("nonce", .string envelope.nonce), ("ciphertext", .string envelope.ciphertext)]

/-- A version is a byte. -/
def readVersion (value : Json) : Except String Int := do
  let version ← value.asInt
  if 0 ≤ version ∧ version ≤ 255 then .ok version else .error "invalid value: expected u8"

/-- The envelope as it is read. -/
def CipherEnvelope.fromValue : Json → Except String CipherEnvelope
  | .array [version, keyId, nonce, ciphertext] => do
      .ok ⟨← readVersion version, ← keyId.asString, ← nonce.asString, ← ciphertext.asString⟩
  | value => do
      let version ← value.field "version"
      let version ← readVersion version
      let keyId ← value.field "key_id"
      let keyId ← keyId.asString
      let nonce ← value.field "nonce"
      let nonce ← nonce.asString
      let ciphertext ← value.field "ciphertext"
      let ciphertext ← ciphertext.asString
      .ok ⟨version, keyId, nonce, ciphertext⟩

/-- The nonce of an envelope. -/
def SecretLibrary.readNonce (library : SecretLibrary) (encoded : String) :
    Except SecretConfigError SecretNonce :=
  match library.decode encoded with
  | none => .error (.invalidEnvelope "invalid config secret nonce")
  | some bytes =>
      if h : bytes.length = 12 then .ok ⟨bytes, h⟩
      else .error (.invalidEnvelope "invalid config secret nonce length")

namespace SecretConfigCipher

variable (cipher : SecretConfigCipher) (library : SecretLibrary)

/-- A text in an envelope of the active key. -/
def encrypt (nonce : SecretNonce) (text : String) : Except SecretConfigError String :=
  match cipher.keys.lookup cipher.activeKeyId with
  | none => .error (.unknownKey cipher.activeKeyId)
  | some key =>
      match library.encrypt key nonce text with
      | none => .error .encryptFailed
      | some ciphertext =>
          (library.text.toString (CipherEnvelope.toValue
            ⟨1, cipher.activeKeyId, library.encode nonce.val, library.encode ciphertext⟩)).mapError
              fun _ => .encryptFailed

/-- The text behind an envelope that was read. -/
def openEnvelope (envelope : CipherEnvelope) : Except SecretConfigError String :=
  if envelope.version ≠ 1 then
    .error (.invalidEnvelope
      ("unsupported config secret envelope version " ++ toString envelope.version))
  else
    match cipher.keys.lookup envelope.keyId with
    | none => .error (.unknownKey envelope.keyId)
    | some key => do
        let nonce ← library.readNonce envelope.nonce
        match library.decode envelope.ciphertext with
        | none => .error (.invalidEnvelope "invalid config secret ciphertext")
        | some ciphertext =>
            match library.decrypt key nonce ciphertext with
            | none => .error .decryptFailed
            | some text => .ok text

/-- The text of an envelope, whose key must be in the ring. -/
def decrypt (sealed : String) : Except SecretConfigError String := do
  let envelope ← ((library.text.fromStr sealed).bind CipherEnvelope.fromValue).mapError
    fun _ => .invalidEnvelope "invalid config secret envelope"
  cipher.openEnvelope library envelope

end SecretConfigCipher

/-- The ring has each of these keys. -/
def SecretConfigCipher.Keeps (cipher : SecretConfigCipher) (used : List (String × SecretKey)) :
    Prop :=
  ∀ entry ∈ used, cipher.keys.lookup entry.1 = some entry.2

instance (cipher : SecretConfigCipher) (used : List (String × SecretKey)) :
    Decidable (cipher.Keeps used) :=
  List.decidableBAll
    (fun entry : String × SecretKey => cipher.keys.lookup entry.1 = some entry.2) used

section Lemmas

variable {library : SecretLibrary} {cipher other : SecretConfigCipher} {written text : String}
  {nonce : SecretNonce}

theorem exists_active (cipher : SecretConfigCipher) :
    ∃ key, cipher.keys.lookup cipher.activeKeyId = some key :=
  Option.isSome_iff_exists.mp cipher.active

theorem fromValue_toValue {envelope : CipherEnvelope} (h : 0 ≤ envelope.version)
    (h' : envelope.version ≤ 255) : CipherEnvelope.fromValue envelope.toValue = .ok envelope := by
  have hversion : readVersion (.int envelope.version) = .ok envelope.version := by
    rw [readVersion, Json.asInt]
    exact if_pos ⟨h, h'⟩
  have hfields : envelope.toValue.field "version" = .ok (.int envelope.version) ∧
      envelope.toValue.field "key_id" = .ok (.string envelope.keyId) ∧
      envelope.toValue.field "nonce" = .ok (.string envelope.nonce) ∧
      envelope.toValue.field "ciphertext" = .ok (.string envelope.ciphertext) := by
    refine ⟨?_, ?_, ?_, ?_⟩ <;> simp [CipherEnvelope.toValue, Json.field]
  obtain ⟨h₁, h₂, h₃, h₄⟩ := hfields
  unfold CipherEnvelope.toValue at h₁ h₂ h₃ h₄ ⊢
  simp only [CipherEnvelope.fromValue, h₁, h₂, h₃, h₄, bind, Except.bind, hversion, Json.asString]

theorem readNonce_encode (hlibrary : library.Sound) (nonce : SecretNonce) :
    library.readNonce (library.encode nonce.val) = .ok nonce := by
  rw [SecretLibrary.readNonce, hlibrary.decode]
  exact dif_pos nonce.property

/-- A text that is an envelope is opened as this envelope. -/
theorem decrypt_eq_openEnvelope (hlibrary : library.Sound) {envelope : CipherEnvelope}
    (h : envelope.version = 1)
    (hwritten : library.text.toString envelope.toValue = .ok written) :
    cipher.decrypt library written = cipher.openEnvelope library envelope := by
  have hread : (library.text.fromStr written).bind CipherEnvelope.fromValue = .ok envelope := by
    rw [hlibrary.text _ _ hwritten]
    exact fromValue_toValue (by omega) (by omega)
  rw [SecretConfigCipher.decrypt, hread]
  rfl

/-- What is written with a ring names its active key. -/
theorem encrypt_eq_ok (h : cipher.encrypt library nonce text = .ok written) :
    ∃ key ciphertext, cipher.keys.lookup cipher.activeKeyId = some key ∧
      library.encrypt key nonce text = some ciphertext ∧
      library.text.toString (CipherEnvelope.toValue
        ⟨1, cipher.activeKeyId, library.encode nonce.val, library.encode ciphertext⟩) =
          .ok written := by
  obtain ⟨key, hkey⟩ := exists_active cipher
  simp only [SecretConfigCipher.encrypt, hkey] at h
  cases hencrypt : library.encrypt key nonce text with
  | none =>
      rw [hencrypt] at h
      cases h
  | some ciphertext =>
      rw [hencrypt] at h
      exact ⟨key, ciphertext, hkey, hencrypt, mapError_eq_ok h⟩

/-- Every ring with the key opens what was written. -/
theorem decrypt_encrypt (hlibrary : library.Sound)
    (h : cipher.encrypt library nonce text = .ok written)
    (hkey : other.keys.lookup cipher.activeKeyId = cipher.keys.lookup cipher.activeKeyId) :
    other.decrypt library written = .ok text := by
  obtain ⟨key, ciphertext, hactive, hencrypt, hwritten⟩ := encrypt_eq_ok h
  rw [decrypt_eq_openEnvelope hlibrary rfl hwritten]
  simp only [SecretConfigCipher.openEnvelope, ne_eq, not_true_eq_false, if_false, hkey, hactive,
    readNonce_encode hlibrary, bind, Except.bind, hlibrary.decode,
    hlibrary.decrypt _ _ _ _ hencrypt]

/-- A ring without the key opens nothing that was written with it. -/
theorem decrypt_unknown (hlibrary : library.Sound)
    (h : cipher.encrypt library nonce text = .ok written)
    (hkey : other.keys.lookup cipher.activeKeyId = none) :
    other.decrypt library written = .error (.unknownKey cipher.activeKeyId) := by
  obtain ⟨key, ciphertext, -, -, hwritten⟩ := encrypt_eq_ok h
  rw [decrypt_eq_openEnvelope hlibrary rfl hwritten]
  simp only [SecretConfigCipher.openEnvelope, ne_eq, not_true_eq_false, if_false, hkey]

end Lemmas

section Specifications

variable {library : SecretLibrary} {cipher other : SecretConfigCipher}
  {activeKeyId otherKeyId keySpec otherSpec : String}

theorem insertKeyEntry_eq_ok {encodedKeys encodedKeys' : List (String × String)} {entry : String}
    (h : insertKeyEntry encodedKeys entry = .ok encodedKeys') :
    ∃ key, parseKeyEntry entry = some key ∧ encodedKeys' = encodedKeys ++ [key] ∧
      key.1 ∉ encodedKeys.map Prod.fst := by
  unfold insertKeyEntry at h
  cases hparse : parseKeyEntry entry with
  | none =>
      rw [hparse] at h
      cases h
  | some key =>
      simp only [hparse] at h
      split at h
      · cases h
      · rename_i hnew
        refine ⟨key, rfl, (Except.ok.inj h).symm, ?_⟩
        intro hold
        obtain ⟨old, hmem, hid⟩ := List.mem_map.mp hold
        exact hnew (List.any_eq_true.mpr ⟨old, hmem, beq_iff_eq.mpr hid⟩)

/-- The keys of a specification are those of its entries, each under its own id. -/
theorem foldlM_insertKeyEntry {entries : List String} {start encodedKeys : List (String × String)}
    (h : entries.foldlM insertKeyEntry start = .ok encodedKeys)
    (hstart : (start.map Prod.fst).Nodup) :
    (encodedKeys.map Prod.fst).Nodup ∧ ∀ key, key ∈ encodedKeys ↔
      key ∈ start ∨ ∃ entry ∈ entries, parseKeyEntry entry = some key := by
  induction entries generalizing start with
  | nil =>
      obtain rfl := Except.ok.inj h
      simp [hstart]
  | cons entry rest ih =>
      rw [List.foldlM_cons] at h
      obtain ⟨between, hinsert, h⟩ := except_bind_eq_ok.mp h
      obtain ⟨key, hparse, rfl, hnew⟩ := insertKeyEntry_eq_ok hinsert
      have hnodup : ((start ++ [key]).map Prod.fst).Nodup := by
        rw [List.map_append, List.nodup_append']
        exact ⟨hstart, List.nodup_singleton _, List.disjoint_singleton.mpr hnew⟩
      obtain ⟨hkeys, hmem⟩ := ih h hnodup
      refine ⟨hkeys, ?_⟩
      intro other
      simp only [hmem, List.mem_append, List.mem_cons, List.not_mem_nil, or_false,
        exists_eq_or_imp, hparse, Option.some.injEq, or_assoc, eq_comm (a := other)]

theorem decodeKey_fst {entry : String × String} {key : String × SecretKey}
    (h : library.decodeKey entry = .ok key) : key.1 = entry.1 := by
  unfold SecretLibrary.decodeKey at h
  split at h
  · cases h
  · split at h
    · cases h
    · split at h
      · rw [← Except.ok.inj h]
      · cases h

theorem map_fst_of_decodeKey {entries : List (String × String)} {keys : List (String × SecretKey)}
    (h : List.Forall₂ (fun entry key => library.decodeKey entry = .ok key) entries keys) :
    keys.map Prod.fst = entries.map Prod.fst := by
  induction h with
  | nil => rfl
  | cons hkey _ ih => rw [List.map_cons, List.map_cons, ih, decodeKey_fst hkey]

theorem lookup_of_mem {keys : List (String × SecretKey)} (h : (keys.map Prod.fst).Nodup)
    {key : String × SecretKey} (hkey : key ∈ keys) : keys.lookup key.1 = some key.2 := by
  induction keys with
  | nil => cases hkey
  | cons first rest ih =>
      rw [List.map_cons, List.nodup_cons] at h
      rcases List.mem_cons.mp hkey with rfl | hrest
      · exact List.lookup_cons_self
      · have hne : (key.1 == first.1) = false := by
          apply beq_false_of_ne
          intro heq
          exact h.1 (heq ▸ List.mem_map_of_mem hrest)
        rw [List.lookup_cons, hne]
        exact ih h.2 hrest

theorem mem_of_lookup {keys : List (String × SecretKey)} {keyId : String} {key : SecretKey}
    (h : keys.lookup keyId = some key) : (keyId, key) ∈ keys := by
  induction keys with
  | nil => cases h
  | cons first rest ih =>
      rw [List.lookup_cons] at h
      split at h
      · rename_i hid
        rw [beq_iff_eq.mp hid, Option.some.inj h.symm]
        exact List.mem_cons_self
      · exact List.mem_cons_of_mem _ (ih h)

theorem fromBase64Keys_eq_ok {encodedKeys : List (String × String)}
    (h : library.fromBase64Keys activeKeyId encodedKeys = .ok cipher) :
    cipher.activeKeyId = activeKeyId ∧
      (sortBy (fun entry other => entry.1 ≤ other.1) encodedKeys).mapM library.decodeKey =
        .ok cipher.keys := by
  unfold SecretLibrary.fromBase64Keys at h
  split at h
  · cases h
  · obtain ⟨keys, hkeys, h⟩ := except_bind_eq_ok.mp h
    split at h
    · obtain rfl := Except.ok.inj h
      exact ⟨rfl, hkeys⟩
    · cases h

/-- A ring has the keys of the entries, each under its own id. -/
theorem fromKeySpec_eq_ok (h : library.fromKeySpec activeKeyId keySpec = .ok cipher) :
    cipher.activeKeyId = activeKeyId ∧ (cipher.keys.map Prod.fst).Nodup ∧
      ∀ key, key ∈ cipher.keys ↔ ∃ entry ∈ keyEntries keySpec, ∃ encoded,
        parseKeyEntry entry = some encoded ∧ library.decodeKey encoded = .ok key := by
  obtain ⟨encodedKeys, hentries, h⟩ := except_bind_eq_ok.mp h
  obtain ⟨hactive, hkeys⟩ := fromBase64Keys_eq_ok h
  obtain ⟨hnodup, hmem⟩ := foldlM_insertKeyEntry hentries List.nodup_nil
  refine ⟨hactive, ?_, ?_⟩
  · rw [map_fst_of_decodeKey (mapM_eq_ok.mp hkeys)]
    exact (sortBy_perm.map Prod.fst).nodup_iff.mpr hnodup
  · intro key
    constructor
    · intro hkey
      obtain ⟨encoded, hencoded, hdecode⟩ := exists_of_mem_mapM_values hkeys hkey
      rw [mem_sortBy, hmem] at hencoded
      rcases hencoded with hfalse | ⟨entry, hentry, hparse⟩
      · cases hfalse
      · exact ⟨entry, hentry, encoded, hparse, hdecode⟩
    · rintro ⟨entry, hentry, encoded, hparse, hdecode⟩
      have hencoded := (hmem encoded).mpr (.inr ⟨entry, hentry, hparse⟩)
      obtain ⟨found, hfound, hsame⟩ := exists_of_mem_mapM hkeys (mem_sortBy.mpr hencoded)
      rw [Except.ok.inj (hdecode.symm.trans hsame)]
      exact hfound

/-- A specification with all entries of another one keeps its keys. -/
theorem fromKeySpec_keeps (h : library.fromKeySpec activeKeyId keySpec = .ok cipher)
    (h' : library.fromKeySpec otherKeyId otherSpec = .ok other)
    (hentries : ∀ entry ∈ keyEntries keySpec, entry ∈ keyEntries otherSpec) :
    other.Keeps cipher.keys := by
  intro key hkey
  obtain ⟨entry, hentry, hread⟩ := ((fromKeySpec_eq_ok h).2.2 key).mp hkey
  obtain ⟨-, hnodup, hmem⟩ := fromKeySpec_eq_ok h'
  exact lookup_of_mem hnodup ((hmem key).mpr ⟨entry, hentries entry hentry, hread⟩)

end Specifications

end EasyDeploy.Configs
