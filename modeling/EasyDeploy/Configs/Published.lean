import EasyDeploy.Configs.Publication

/-!
# What a publication promises

Runs in which no publication returns an older revision than the latest keep every
promise. Saving an older content and publishing it breaks the one about the latest
revision.
-/

namespace EasyDeploy.Configs
open Foundation Transition

variable {Document : Type} {codec : ConfigCodec Document} {store : ConfigStore}
  {log : List (ConfigEvent Document)}

/-- The last successful call before a publication saved what it returned, and the revision is
loaded with this content. -/
structure PublishedContent (codec : ConfigCodec Document) (store : ConfigStore)
    (before : List (ConfigEvent Document)) (expectedDraftHash : String) (draft : ConfigDraft)
    (result : ConfigRevisionResult) : Prop where
  hash : draft.draftHash = expectedDraftHash
  content : ∃ document secrets,
    before.getLast? = some (.saved document secrets expectedDraftHash) ∧
    draft.Holds codec document secrets ∧
    (∃ revision ∈ store.revisions, revision.Holds codec document secrets ∧
      revision.result = result) ∧
    store.loadRevision codec result.revisionId = .ok (document, secrets)

/-- The promises, after the calls of a log. -/
structure PublicationHolds (codec : ConfigCodec Document) (log : List (ConfigEvent Document))
    (store : ConfigStore) : Prop where
  published : ∀ before expectedDraftHash draft result later,
    log = before ++ .published expectedDraftHash draft result :: later →
      PublishedContent codec store before expectedDraftHash draft result
  hashes : (store.revisions.map (·.configHash)).Nodup
  numbers : (store.revisions.map (·.revisionNo)).Pairwise (· < ·)
  stale : ∀ fault expectedDraftHash,
    (∀ draft, store.draft = some draft → draft.draftHash ≠ expectedDraftHash) →
      (∃ error, store.publishDraft codec fault expectedDraftHash = .error error) ∧
        store.act codec (.publish fault expectedDraftHash) = store
  current : Current log store

theorem Publishes.content (hcodec : codec.Sound) (h : Numbered store)
    {before : List (ConfigEvent Document)} {expectedDraftHash : String} {draft : ConfigDraft}
    {result : ConfigRevisionResult}
    (hpublished : Publishes codec store before expectedDraftHash draft result) :
    PublishedContent codec store before expectedDraftHash draft result := by
  obtain ⟨hhash, document, secrets, hlast, hdraft, revision, hrevision, hholds, rfl⟩ := hpublished
  exact ⟨hhash, document, secrets, hlast, hdraft, ⟨revision, hrevision, hholds, rfl⟩,
    loadRevision_eq_ok hcodec h.ids hrevision hholds⟩

/-- The promises hold in every run whose publications return no older revision than the latest. -/
theorem publication_holds (hcodec : codec.Sound)
    (h : Reached (observedPublication codec) (fun state action => state.2.newest action = true)
      (log, store)) : PublicationHolds codec log store := by
  have hconsistent := consistent_of_reached hcodec h
  constructor
  · intro before expectedDraftHash draft result later hlog
    exact (hconsistent.published _ _ _ _ _ hlog).content hcodec hconsistent.numbered
  · exact hconsistent.numbered.hashes
  · exact hconsistent.numbered.numbers
  · intro fault expectedDraftHash hstale
    exact publishDraft_stale hstale
  · exact current_of_reached hcodec h

namespace Sample

/-- Parts in one text. -/
def encodeParts : List (List Char) → List Char
  | [] => []
  | part :: rest => (part.flatMap fun char => ['a', char]) ++ 'b' :: 'b' :: encodeParts rest

/-- A character of the first part. -/
def pushChar (char : Char) : List (List Char) → List (List Char)
  | [] => [[char]]
  | part :: rest => (char :: part) :: rest

/-- The parts of a text. -/
def decodeParts : List Char → List (List Char)
  | mark :: char :: rest =>
      if mark = 'a' then pushChar char (decodeParts rest) else [] :: decodeParts rest
  | _ => []

theorem decode_encodeParts (parts : List (List Char)) :
    decodeParts (encodeParts parts) = parts := by
  induction parts with
  | nil => rfl
  | cons part rest ih =>
      induction part with
      | nil =>
          show [] :: decodeParts (encodeParts rest) = _
          rw [ih]
      | cons char part ihpart =>
          show pushChar char (decodeParts (encodeParts (part :: rest))) = _
          rw [ihpart]
          rfl

/-- Texts in one. -/
def encodeTexts (texts : List String) : String :=
  String.ofList (encodeParts (texts.map String.toList))

/-- The texts that one was made of. -/
def decodeTexts (text : String) : List String := (decodeParts text.toList).map String.ofList

theorem decode_encodeTexts (texts : List String) : decodeTexts (encodeTexts texts) = texts := by
  rw [decodeTexts, encodeTexts, String.toList_ofList, decode_encodeParts, List.map_map]
  exact (List.map_congr_left fun text _ => String.ofList_toList).trans (List.map_id texts)

/-- Texts two by two. -/
def pairs : List String → List (String × String)
  | name :: value :: rest => (name, value) :: pairs rest
  | _ => []

theorem pairs_flatMap (entries : List (String × String)) :
    pairs (entries.flatMap fun entry => [entry.1, entry.2]) = entries := by
  induction entries with
  | nil => rfl
  | cons entry rest ih =>
      show (entry.1, entry.2) :: pairs (rest.flatMap fun entry => [entry.1, entry.2]) = _
      rw [ih]

/-- Documents are texts; a seal is a number before the text. -/
def textCodec : ConfigCodec String where
  writeDocument := .ok
  readDocument := .ok
  writeMap entries := .ok (encodeTexts (entries.flatMap fun entry => [entry.1, entry.2]))
  readMap text := .ok (pairs (decodeTexts text))
  validate document :=
    if document = "" then .error "at least one environment is required" else .ok ()
  encrypt nonce text := .ok (encodeTexts [toString nonce, text])
  decrypt sealed := match decodeTexts sealed with
    | [_, text] => .ok text
    | _ => .error "secret value is invalid"
  contentHash := encodeTexts

theorem textCodec_sound : textCodec.Sound := by
  constructor
  · rintro document _ ⟨⟩
    rfl
  · rintro entries _ ⟨⟩
    show Except.ok (pairs (decodeTexts (encodeTexts _))) = _
    rw [decode_encodeTexts, pairs_flatMap]
  · rintro nonce text _ ⟨⟩
    simp only [textCodec, decode_encodeTexts]
  · exact Function.LeftInverse.injective decode_encodeTexts

def noConfig : ConfigStore := ⟨none, [], none, 0, 0⟩

theorem initial_noConfig : (observedPublication textCodec).initial ([], noConfig) := by
  refine ⟨rfl, rfl, ?_, ?_, ?_, ?_, ?_⟩
  · exact List.nodup_nil
  · exact .nil
  · exact .nil
  · rintro _ ⟨⟩
  · rintro _ ⟨⟩

/-- A content is saved and published. -/
def release (nonce : Nat) (document : String) : List (ConfigAction String) :=
  [.save nonce document [("TOKEN", "x")],
    .publish none (encodeTexts [document, encodeTexts ["TOKEN", encodeTexts ["x"]]])]

/-- The last call published a revision that is not the latest. -/
def outdated (state : List (ConfigEvent String) × ConfigStore) : Bool :=
  match state.1.getLast? with
  | some (.published _ _ result) => state.2.latest.map ConfigRevision.result != some result
  | _ => false

theorem not_current_of_outdated {log : List (ConfigEvent String)} {store : ConfigStore}
    (h : outdated (log, store) = true) : ¬ Current log store := by
  intro hcurrent
  unfold outdated at h
  dsimp only at h
  split at h
  · rename_i expectedDraftHash draft result hlast
    obtain ⟨before, rfl⟩ := List.getLast?_eq_some_iff.mp hlast
    have hlatest := hcurrent before expectedDraftHash draft result [] rfl (by simp)
    rw [hlatest] at h
    simp at h
  · cases h

end Sample

/-- Republishing the latest content returns its revision. -/
theorem publication_holds_republished : ∃ log store, log.length = 6 ∧
    PublicationHolds Sample.textCodec log store := by
  have hrun : ((((observedPublication Sample.textCodec).restrict fun state action =>
      state.2.newest action).exec ([], Sample.noConfig)
        (Sample.release 0 "A" ++ Sample.release 1 "B" ++ Sample.release 2 "B")).any
          fun state => decide (state.1.length = 6)) = true := by
    decide
  obtain ⟨⟨log, store⟩, hexec, hlength⟩ := (Option.any_eq_true _ _).mp hrun
  exact ⟨log, store, of_decide_eq_true hlength, publication_holds Sample.textCodec_sound
    (Reached.of_restrict (Reachable.exec (.start Sample.initial_noConfig) hexec))⟩

/-- A publication of an older content returns the older revision, which is not the latest. -/
theorem older_content_republished : ¬ ∀ (codec : ConfigCodec String)
    (log : List (ConfigEvent String)) (store : ConfigStore), codec.Sound →
      Reachable (observedPublication codec) (log, store) → PublicationHolds codec log store := by
  intro hall
  have hrun : ((observedPublication Sample.textCodec).exec ([], Sample.noConfig)
      (Sample.release 0 "A" ++ Sample.release 1 "B" ++ Sample.release 2 "A")).any
        Sample.outdated = true := by
    decide
  obtain ⟨⟨log, store⟩, hexec, houtdated⟩ := (Option.any_eq_true _ _).mp hrun
  exact Sample.not_current_of_outdated houtdated
    (hall _ _ _ Sample.textCodec_sound (Reachable.exec (.start Sample.initial_noConfig) hexec)).current

end EasyDeploy.Configs
