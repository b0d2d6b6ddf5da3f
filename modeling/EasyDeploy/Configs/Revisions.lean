import EasyDeploy.Foundation.Table
import EasyDeploy.Foundation.Transition

/-!
# Drafts and revisions of a configuration

An application has at most one draft, which every save replaces. Publishing takes
the draft with the expected hash. It returns the revision that has this hash
already, or makes a new one with the next number.
-/

namespace EasyDeploy.Configs
open Foundation Transition

/-- The texts and hashes that are made of a configuration. Documents are generic; the secrets are
the entries of a map. -/
structure ConfigCodec (Document : Type) where
  writeDocument : Document → Except String String
  readDocument : String → Except String Document
  writeMap : List (String × String) → Except String String
  readMap : String → Except String (List (String × String))
  validate : Document → Except String Unit
  /-- With the number that makes its output unique. -/
  encrypt : Nat → String → Except String String
  decrypt : String → Except String String
  contentHash : List String → String

/-- What is written is read, what is encrypted is decrypted, and hashes do not collide. -/
structure ConfigCodec.Sound {Document : Type} (codec : ConfigCodec Document) : Prop where
  document : ∀ document text, codec.writeDocument document = .ok text →
    codec.readDocument text = .ok document
  map : ∀ entries text, codec.writeMap entries = .ok text → codec.readMap text = .ok entries
  cipher : ∀ nonce text sealed, codec.encrypt nonce text = .ok sealed → codec.decrypt sealed = .ok text
  hash : Function.Injective codec.contentHash

/-- A row of the drafts. -/
structure ConfigDraft where
  id : Int
  draftJson : String
  draftHash : String
  secretCiphertext : String
  secretFingerprints : String
deriving Repr, DecidableEq

/-- A row of the revisions. -/
structure ConfigRevision where
  id : Int
  revisionNo : Int
  configJson : String
  secretCiphertext : String
  secretFingerprints : String
  configHash : String
deriving Repr, DecidableEq

/-- What a publication answers. -/
structure ConfigRevisionResult where
  revisionId : Int
  revisionNo : Int
  configHash : String
deriving Repr, DecidableEq

/-- The answer that names a revision. -/
def ConfigRevision.result (revision : ConfigRevision) : ConfigRevisionResult :=
  ⟨revision.id, revision.revisionNo, revision.configHash⟩

/-- The later of two revisions. -/
def newer : Option ConfigRevision → ConfigRevision → Option ConfigRevision
  | none, revision => some revision
  | some old, revision => if old.revisionNo ≤ revision.revisionNo then some revision else some old

/-- The last of the revisions with the highest number. -/
def latestRevision (revisions : List ConfigRevision) : Option ConfigRevision :=
  revisions.foldl newer none

/-- The rows of an application. -/
structure ConfigStore where
  draft : Option ConfigDraft
  /-- In the order in which they were published. -/
  revisions : List ConfigRevision
  nextValue : Option Int
  lastDraftId : Int
  lastRevisionId : Int
deriving Repr, DecidableEq

/-- How a publication fails. -/
inductive ConfigError
  | validation (message : String)
  | notFound (message : String)
  | conflict (message : String)
  | secret (message : String)
  | database (message : String)
deriving Repr, DecidableEq

variable {Document : Type} (codec : ConfigCodec Document)

/-- The hash of each value stands for it. -/
def secretFingerprints (secrets : List (String × String)) : List (String × String) :=
  secrets.map fun entry => (entry.1, codec.contentHash [entry.2])

/-- The row of a draft that is saved. -/
def sealDraft (nonce : Nat) (document : Document) (secrets : List (String × String)) (id : Int) :
    Except ConfigError ConfigDraft := do
  (codec.validate document).mapError .validation
  let publicJson ← (codec.writeDocument document).mapError .validation
  let secretJson ← (codec.writeMap secrets).mapError .validation
  let secretCiphertext ← (codec.encrypt nonce secretJson).mapError .secret
  let fingerprints ← (codec.writeMap (secretFingerprints codec secrets)).mapError .validation
  .ok ⟨id, publicJson, codec.contentHash [publicJson, fingerprints], secretCiphertext, fingerprints⟩

namespace ConfigStore

variable (store : ConfigStore)

/-- The upsert keeps the id of the draft that is there. -/
def saveDraft (nonce : Nat) (document : Document) (secrets : List (String × String)) :
    Except ConfigError ConfigStore := do
  let id := (store.draft.map (·.id)).getD (store.lastDraftId + 1)
  let draft ← sealDraft codec nonce document secrets id
  .ok { store with draft := some draft, lastDraftId := max store.lastDraftId id }

/-- The draft that may be published. -/
def expectedDraft (expectedDraftHash : String) : Except ConfigError ConfigDraft :=
  match store.draft with
  | none => .error (.notFound "config draft not found")
  | some draft =>
      if draft.draftHash ≠ expectedDraftHash then
        .error (.conflict "config draft changed; reload before publishing")
      else
        .ok draft

/-- `allocate` behind `INSERT .. ON CONFLICT DO NOTHING`. -/
def revisionNo : Int := store.nextValue.getD 100

/-- The revision of a draft is stored. -/
def insertRevision (draft : ConfigDraft) : ConfigStore :=
  { store with
    draft := none
    revisions := store.revisions ++
      [⟨store.lastRevisionId + 1, store.revisionNo, draft.draftJson, draft.secretCiphertext,
        draft.secretFingerprints, draft.draftHash⟩]
    nextValue := some (store.revisionNo + 1)
    lastRevisionId := store.lastRevisionId + 1 }

/-- The revision with the hash of a draft. -/
def existing (draft : ConfigDraft) : Option ConfigRevision :=
  store.revisions.find? fun revision => revision.configHash == draft.draftHash

/-- The transaction, in which any statement may fail. -/
def publishDraft (fault : Option String) (expectedDraftHash : String) :
    Except ConfigError (ConfigDraft × ConfigRevisionResult × ConfigStore) := do
  let draft ← store.expectedDraft expectedDraftHash
  let document ← (codec.readDocument draft.draftJson).mapError .validation
  (codec.validate document).mapError .validation
  let _ ← (codec.decrypt draft.secretCiphertext).mapError .secret
  match fault with
  | some message => .error (.database message)
  | none => match store.existing draft with
    | some revision =>
        .ok (draft, revision.result, { store with draft := none })
    | none =>
        .ok (draft, ⟨store.lastRevisionId + 1, store.revisionNo, draft.draftHash⟩,
          store.insertRevision draft)

/-- The document and the secrets of a revision. -/
def loadRevision (revisionId : Int) : Except ConfigError (Document × List (String × String)) :=
  match store.revisions.find? fun revision => revision.id == revisionId with
  | none => .error (.notFound "config revision not found")
  | some revision => do
      let document ← (codec.readDocument revision.configJson).mapError .validation
      (codec.validate document).mapError .validation
      let secretJson ← (codec.decrypt revision.secretCiphertext).mapError .secret
      let secrets ← (codec.readMap secretJson).mapError .secret
      .ok (document, secrets)

/-- The revision that `load_editable_config_document` reads. -/
def latest : Option ConfigRevision := latestRevision store.revisions

end ConfigStore

/-- What clients ask for. -/
inductive ConfigAction (Document : Type)
  | save (nonce : Nat) (document : Document) (secrets : List (String × String))
  | publish (fault : Option String) (expectedDraftHash : String)

/-- What has been saved and published. -/
inductive ConfigEvent (Document : Type)
  | saved (document : Document) (secrets : List (String × String)) (draftHash : String)
  | published (expectedDraftHash : String) (draft : ConfigDraft) (result : ConfigRevisionResult)
deriving DecidableEq

/-- A call that fails changes no row. -/
def ConfigStore.act (store : ConfigStore) : ConfigAction Document → ConfigStore
  | .save nonce document secrets => (store.saveDraft codec nonce document secrets).toOption.getD store
  | .publish fault expectedDraftHash =>
      ((store.publishDraft codec fault expectedDraftHash).toOption.map (·.2.2)).getD store

/-- What a step records. -/
def ConfigStore.event (store : ConfigStore) : ConfigAction Document → Option (ConfigEvent Document)
  | .save nonce document secrets =>
      (store.saveDraft codec nonce document secrets).toOption.bind fun after =>
        after.draft.map fun draft => .saved document secrets draft.draftHash
  | .publish fault expectedDraftHash =>
      (store.publishDraft codec fault expectedDraftHash).toOption.map fun result =>
        .published expectedDraftHash result.1 result.2.1

/-- Unless it would return an older revision than the latest. -/
def ConfigStore.newest (store : ConfigStore) : ConfigAction Document → Bool
  | .save _ _ _ => true
  | .publish fault expectedDraftHash =>
      fault.isSome || (store.expectedDraft expectedDraftHash).toOption.all fun draft =>
        (store.existing draft).all fun revision => store.latest == some revision

/-- No draft, and revisions in their order, as a migration leaves one. No content has the hash of
such a revision. -/
structure ConfigStore.Initial (store : ConfigStore) : Prop where
  draft : store.draft = none
  hashes : (store.revisions.map (·.configHash)).Nodup
  numbers : (store.revisions.map (·.revisionNo)).Pairwise (· < ·)
  ids : (store.revisions.map (·.id)).Pairwise (· < ·)
  below : ∀ revision ∈ store.revisions,
    revision.revisionNo < store.revisionNo ∧ revision.id ≤ store.lastRevisionId
  legacy : ∀ revision ∈ store.revisions, ∀ parts, codec.contentHash parts ≠ revision.configHash

/-- The calls of all clients, each of which is one transaction. -/
def publication : Transition ConfigStore (ConfigAction Document) where
  initial := ConfigStore.Initial codec
  step store action := some (store.act codec action)

/-- The store with the log of its events. -/
def observedPublication :
    Transition (List (ConfigEvent Document) × ConfigStore) (ConfigAction Document) :=
  (publication codec).logged (ConfigStore.event codec)

end EasyDeploy.Configs
