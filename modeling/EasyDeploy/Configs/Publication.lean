import EasyDeploy.Configs.Revisions
import EasyDeploy.Foundation.Results

/-!
# Publishing configurations

A publication returns the content that was saved last, and a revision has this
content for ever. It need not be the newest revision: a draft with the content of
an older one is published by returning that one.
-/

namespace EasyDeploy.Configs
open Foundation Transition

variable {Document : Type} {codec : ConfigCodec Document} {store store' : ConfigStore}
  {log : List (ConfigEvent Document)} {document document' : Document}
  {secrets secrets' : List (String × String)}

/-- What is stored of a document and its secrets. -/
structure HasContent (codec : ConfigCodec Document) (document : Document)
    (secrets : List (String × String)) (json ciphertext fingerprints hash : String) : Prop where
  written : codec.writeDocument document = .ok json
  valid : codec.validate document = .ok ()
  fingerprinted : codec.writeMap (secretFingerprints codec secrets) = .ok fingerprints
  encrypted : ∃ nonce text, codec.writeMap secrets = .ok text ∧
    codec.encrypt nonce text = .ok ciphertext
  hashed : hash = codec.contentHash [json, fingerprints]

/-- The document and the secrets of a draft. -/
def ConfigDraft.Holds (codec : ConfigCodec Document) (draft : ConfigDraft) (document : Document)
    (secrets : List (String × String)) : Prop :=
  HasContent codec document secrets draft.draftJson draft.secretCiphertext draft.secretFingerprints
    draft.draftHash

/-- The document and the secrets of a revision. -/
def ConfigRevision.Holds (codec : ConfigCodec Document) (revision : ConfigRevision)
    (document : Document) (secrets : List (String × String)) : Prop :=
  HasContent codec document secrets revision.configJson revision.secretCiphertext
    revision.secretFingerprints revision.configHash

/-- Contents with the same hash are the same. -/
theorem HasContent.unique (hcodec : codec.Sound)
    {json json' ciphertext ciphertext' fingerprints fingerprints' hash : String}
    (h : HasContent codec document secrets json ciphertext fingerprints hash)
    (h' : HasContent codec document' secrets' json' ciphertext' fingerprints' hash) :
    document = document' ∧ secrets = secrets' := by
  have hparts := hcodec.hash (h.hashed.symm.trans h'.hashed)
  obtain ⟨hjson, hrest⟩ := List.cons.inj hparts
  have hfingerprints := (List.cons.inj hrest).1
  constructor
  · have hread := hcodec.document _ _ h.written
    rw [hjson, hcodec.document _ _ h'.written] at hread
    exact (Except.ok.inj hread).symm
  · have hread := hcodec.map _ _ h.fingerprinted
    rw [hfingerprints, hcodec.map _ _ h'.fingerprinted] at hread
    have hinjective : Function.Injective fun entry : String × String =>
        (entry.1, codec.contentHash [entry.2]) := by
      intro left right heq
      obtain ⟨hname, hvalue⟩ := Prod.mk.inj heq
      exact Prod.ext hname (List.cons.inj (hcodec.hash hvalue)).1
    exact (List.map_injective_iff.mpr hinjective (Except.ok.inj hread)).symm

theorem sealDraft_eq_ok {nonce : Nat} {id : Int} {draft : ConfigDraft}
    (h : sealDraft codec nonce document secrets id = .ok draft) :
    draft.id = id ∧ draft.Holds codec document secrets := by
  unfold sealDraft at h
  obtain ⟨⟨⟩, hvalid, h⟩ := except_bind_eq_ok.mp h
  obtain ⟨publicJson, hjson, h⟩ := except_bind_eq_ok.mp h
  obtain ⟨secretJson, hsecret, h⟩ := except_bind_eq_ok.mp h
  obtain ⟨secretCiphertext, hcipher, h⟩ := except_bind_eq_ok.mp h
  obtain ⟨fingerprints, hfingerprints, h⟩ := except_bind_eq_ok.mp h
  obtain rfl := Except.ok.inj h
  exact ⟨rfl, mapError_eq_ok hjson, mapError_eq_ok hvalid, mapError_eq_ok hfingerprints,
    ⟨nonce, secretJson, mapError_eq_ok hsecret, mapError_eq_ok hcipher⟩, rfl⟩

/-- A revision is loaded with what it was published with. -/
theorem loadRevision_eq_ok (hcodec : codec.Sound)
    (hids : (store.revisions.map (·.id)).Pairwise (· < ·)) {revision : ConfigRevision}
    (hrevision : revision ∈ store.revisions) (h : revision.Holds codec document secrets) :
    store.loadRevision codec revision.id = .ok (document, secrets) := by
  have hfind : (store.revisions.find? fun other => other.id == revision.id) = some revision := by
    obtain ⟨found, hfound⟩ := Option.isSome_iff_exists.mp (List.find?_isSome.mpr
      ⟨revision, hrevision, beq_self_eq_true revision.id⟩ :
        (store.revisions.find? fun other => other.id == revision.id).isSome = true)
    have hid : found.id = revision.id := by
      have heq := List.find?_some hfound
      exact beq_iff_eq.mp heq
    rw [hfound, List.inj_on_of_nodup_map (hids.imp fun hlt => Int.ne_of_lt hlt)
      (List.mem_of_find?_eq_some hfound) hrevision hid]
  obtain ⟨nonce, text, hwrite, hencrypt⟩ := h.encrypted
  simp only [ConfigStore.loadRevision, hfind, hcodec.document _ _ h.written, Except.mapError, bind,
    Except.bind, h.valid, hcodec.cipher _ _ _ hencrypt, hcodec.map _ _ hwrite]

theorem saveDraft_eq_ok {nonce : Nat} (h : store.saveDraft codec nonce document secrets = .ok store') :
    ∃ draft, draft.Holds codec document secrets ∧ store'.draft = some draft ∧
      store'.revisions = store.revisions ∧ store'.nextValue = store.nextValue ∧
      store'.lastRevisionId = store.lastRevisionId := by
  obtain ⟨draft, hdraft, h⟩ := except_bind_eq_ok.mp h
  obtain rfl := Except.ok.inj h
  exact ⟨draft, (sealDraft_eq_ok hdraft).2, rfl, rfl, rfl, rfl⟩

theorem expectedDraft_eq_ok {expectedDraftHash : String} {draft : ConfigDraft}
    (h : store.expectedDraft expectedDraftHash = .ok draft) :
    store.draft = some draft ∧ draft.draftHash = expectedDraftHash := by
  unfold ConfigStore.expectedDraft at h
  cases hstored : store.draft with
  | none =>
      rw [hstored] at h
      cases h
  | some stored =>
      simp only [hstored] at h
      by_cases hhash : stored.draftHash ≠ expectedDraftHash
      · rw [if_pos hhash] at h
        cases h
      · rw [if_neg hhash] at h
        obtain rfl := Except.ok.inj h
        exact ⟨rfl, not_not.mp hhash⟩

/-- What a publication takes, what it returns and what it leaves. -/
theorem publishDraft_eq_ok {fault : Option String} {expectedDraftHash : String}
    {draft : ConfigDraft} {result : ConfigRevisionResult}
    (h : store.publishDraft codec fault expectedDraftHash = .ok (draft, result, store')) :
    fault = none ∧ store.draft = some draft ∧ draft.draftHash = expectedDraftHash ∧
      ((∃ revision, store.existing draft = some revision ∧ result = revision.result ∧
          store' = { store with draft := none }) ∨
        store.existing draft = none ∧
          result = ⟨store.lastRevisionId + 1, store.revisionNo, draft.draftHash⟩ ∧
          store' = store.insertRevision draft) := by
  unfold ConfigStore.publishDraft at h
  obtain ⟨found, hdraft, h⟩ := except_bind_eq_ok.mp h
  obtain ⟨document, -, h⟩ := except_bind_eq_ok.mp h
  obtain ⟨⟨⟩, -, h⟩ := except_bind_eq_ok.mp h
  obtain ⟨text, -, h⟩ := except_bind_eq_ok.mp h
  obtain ⟨hstored, hhash⟩ := expectedDraft_eq_ok hdraft
  cases fault with
  | some message => cases h
  | none =>
      cases hexisting : store.existing found with
      | some revision =>
          simp only [hexisting] at h
          obtain ⟨rfl, hrest⟩ := Prod.mk.inj (Except.ok.inj h)
          obtain ⟨rfl, rfl⟩ := Prod.mk.inj hrest
          exact ⟨rfl, hstored, hhash, .inl ⟨revision, hexisting, rfl, rfl⟩⟩
      | none =>
          simp only [hexisting] at h
          obtain ⟨rfl, hrest⟩ := Prod.mk.inj (Except.ok.inj h)
          obtain ⟨rfl, rfl⟩ := Prod.mk.inj hrest
          exact ⟨rfl, hstored, hhash, .inr ⟨hexisting, rfl, rfl⟩⟩

/-- A publication of another draft, or of none, fails. -/
theorem publishDraft_stale {fault : Option String} {expectedDraftHash : String}
    (h : ∀ draft, store.draft = some draft → draft.draftHash ≠ expectedDraftHash) :
    (∃ error, store.publishDraft codec fault expectedDraftHash = .error error) ∧
      store.act codec (.publish fault expectedDraftHash) = store := by
  cases hcall : store.publishDraft codec fault expectedDraftHash with
  | error error =>
      refine ⟨⟨error, rfl⟩, ?_⟩
      rw [ConfigStore.act, hcall]
      rfl
  | ok result =>
      obtain ⟨-, hdraft, hhash, -⟩ := publishDraft_eq_ok hcall
      exact absurd hhash (h _ hdraft)

theorem mem_of_foldl_newer {revisions : List ConfigRevision} {start : Option ConfigRevision}
    {found : ConfigRevision} (h : revisions.foldl newer start = some found) :
    found ∈ revisions ∨ start = some found := by
  induction revisions generalizing start with
  | nil => exact .inr h
  | cons first rest ih =>
      rcases ih h with hrest | hstart
      · exact .inl (List.mem_cons_of_mem _ hrest)
      · unfold newer at hstart
        split at hstart
        · exact .inl (List.mem_cons.mpr (.inl (Option.some.inj hstart).symm))
        · split at hstart
          · exact .inl (List.mem_cons.mpr (.inl (Option.some.inj hstart).symm))
          · exact .inr hstart

/-- The newest of revisions in their order is the last one. -/
theorem latestRevision_concat {revisions : List ConfigRevision} {revision : ConfigRevision}
    (h : ∀ old ∈ revisions, old.revisionNo ≤ revision.revisionNo) :
    latestRevision (revisions ++ [revision]) = some revision := by
  rw [latestRevision, List.foldl_append, List.foldl_cons, List.foldl_nil]
  cases hfound : revisions.foldl newer none with
  | none => rfl
  | some old =>
      rcases mem_of_foldl_newer hfound with hold | hfalse
      · exact if_pos (h old hold)
      · cases hfalse

/-- Revisions are numbered in their order, below the next number, and differ in their hashes. -/
structure Numbered (store : ConfigStore) : Prop where
  hashes : (store.revisions.map (·.configHash)).Nodup
  numbers : (store.revisions.map (·.revisionNo)).Pairwise (· < ·)
  ids : (store.revisions.map (·.id)).Pairwise (· < ·)
  below : ∀ revision ∈ store.revisions,
    revision.revisionNo < store.revisionNo ∧ revision.id ≤ store.lastRevisionId

theorem Numbered.congr (h : Numbered store) (hrevisions : store'.revisions = store.revisions)
    (hnext : store'.nextValue = store.nextValue)
    (hlast : store'.lastRevisionId = store.lastRevisionId) : Numbered store' := by
  have hno : store'.revisionNo = store.revisionNo := by
    rw [ConfigStore.revisionNo, ConfigStore.revisionNo, hnext]
  constructor
  · rw [hrevisions]
    exact h.hashes
  · rw [hrevisions]
    exact h.numbers
  · rw [hrevisions]
    exact h.ids
  · rw [hrevisions, hno, hlast]
    exact h.below

theorem Numbered.insertRevision (h : Numbered store) {draft : ConfigDraft}
    (hnone : store.existing draft = none) : Numbered (store.insertRevision draft) := by
  constructor
  · show ((store.revisions ++ [_]).map ConfigRevision.configHash).Nodup
    rw [List.map_append, List.nodup_append']
    refine ⟨h.hashes, List.nodup_singleton _, ?_⟩
    intro hash hold hnew
    obtain ⟨revision, hrevision, rfl⟩ := List.mem_map.mp hold
    have hother := List.find?_eq_none.mp hnone revision hrevision
    exact hother (beq_iff_eq.mpr (List.mem_singleton.mp hnew))
  · show ((store.revisions ++ [_]).map ConfigRevision.revisionNo).Pairwise (· < ·)
    rw [List.map_append, List.pairwise_append]
    refine ⟨h.numbers, List.pairwise_singleton _ _, ?_⟩
    intro number hold other hnew
    obtain ⟨revision, hrevision, rfl⟩ := List.mem_map.mp hold
    rw [List.mem_singleton.mp hnew]
    exact (h.below revision hrevision).1
  · show ((store.revisions ++ [_]).map ConfigRevision.id).Pairwise (· < ·)
    rw [List.map_append, List.pairwise_append]
    refine ⟨h.ids, List.pairwise_singleton _ _, ?_⟩
    intro id hold other hnew
    obtain ⟨revision, hrevision, rfl⟩ := List.mem_map.mp hold
    rw [List.mem_singleton.mp hnew]
    have hle := (h.below revision hrevision).2
    show revision.id < store.lastRevisionId + 1
    omega
  · intro revision hrevision
    show revision.revisionNo < store.revisionNo + 1 ∧ revision.id ≤ store.lastRevisionId + 1
    rcases List.mem_append.mp hrevision with hold | hnew
    · have hbelow := h.below revision hold
      omega
    · rw [List.mem_singleton.mp hnew]
      dsimp only
      omega

/-- A publication took what was saved last, and a revision has it since. -/
def Publishes (codec : ConfigCodec Document) (store : ConfigStore)
    (before : List (ConfigEvent Document)) (expectedDraftHash : String) (draft : ConfigDraft)
    (result : ConfigRevisionResult) : Prop :=
  draft.draftHash = expectedDraftHash ∧ ∃ document secrets,
    before.getLast? = some (.saved document secrets expectedDraftHash) ∧
    draft.Holds codec document secrets ∧
    ∃ revision ∈ store.revisions, revision.Holds codec document secrets ∧ revision.result = result

/-- The draft is what was saved last, and revisions have contents unless a migration left them. -/
structure Consistent (codec : ConfigCodec Document) (log : List (ConfigEvent Document))
    (store : ConfigStore) : Prop where
  numbered : Numbered store
  draft : ∀ draft, store.draft = some draft → ∃ document secrets,
    log.getLast? = some (.saved document secrets draft.draftHash) ∧
      draft.Holds codec document secrets
  revisions : ∀ revision ∈ store.revisions, (∃ document secrets,
    revision.Holds codec document secrets) ∨
      ∀ parts, codec.contentHash parts ≠ revision.configHash
  published : ∀ before expectedDraftHash draft result later,
    log = before ++ .published expectedDraftHash draft result :: later →
      Publishes codec store before expectedDraftHash draft result

theorem Publishes.mono {before : List (ConfigEvent Document)} {expectedDraftHash : String}
    {draft : ConfigDraft} {result : ConfigRevisionResult}
    (h : Publishes codec store before expectedDraftHash draft result)
    (hrevisions : ∀ revision ∈ store.revisions, revision ∈ store'.revisions) :
    Publishes codec store' before expectedDraftHash draft result := by
  obtain ⟨hhash, document, secrets, hlast, hdraft, revision, hrevision, hholds, hresult⟩ := h
  exact ⟨hhash, document, secrets, hlast, hdraft, revision, hrevisions revision hrevision, hholds,
    hresult⟩

/-- A log with one more event at its end. -/
theorem append_singleton_eq {ε : Type} {log before later : List ε} {last event : ε}
    (h : log ++ [last] = before ++ event :: later) :
    (later = [] ∧ before = log ∧ event = last) ∨
      ∃ rest, later = rest ++ [last] ∧ log = before ++ event :: rest := by
  rcases List.eq_nil_or_concat later with rfl | ⟨rest, final, rfl⟩
  · obtain ⟨hlog, hevent⟩ := List.append_inj' h rfl
    exact .inl ⟨rfl, hlog.symm, (List.singleton_inj.mp hevent).symm⟩
  · rw [List.concat_eq_append] at h ⊢
    rw [← List.cons_append, ← List.append_assoc] at h
    obtain ⟨hlog, hfinal⟩ := List.append_inj' h rfl
    rw [List.singleton_inj.mp hfinal]
    exact .inr ⟨rest, rfl, hlog⟩

theorem Consistent.save (h : Consistent codec log store) {draft : ConfigDraft}
    (hholds : draft.Holds codec document secrets) (hdraft : store'.draft = some draft)
    (hrevisions : store'.revisions = store.revisions) (hnext : store'.nextValue = store.nextValue)
    (hlast : store'.lastRevisionId = store.lastRevisionId) :
    Consistent codec (log ++ [.saved document secrets draft.draftHash]) store' := by
  constructor
  · exact h.numbered.congr hrevisions hnext hlast
  · intro other hother
    obtain rfl := Option.some.inj (hdraft.symm.trans hother)
    exact ⟨document, secrets, List.getLast?_concat, hholds⟩
  · rw [hrevisions]
    exact h.revisions
  · intro before expectedDraftHash other result later hlog
    rcases append_singleton_eq hlog with ⟨-, -, hfalse⟩ | ⟨rest, -, hbefore⟩
    · cases hfalse
    · apply (h.published _ _ _ _ _ hbefore).mono
      rw [hrevisions]
      exact fun _ hrevision => hrevision

theorem Consistent.publish (hcodec : codec.Sound) (h : Consistent codec log store)
    {fault : Option String} {expectedDraftHash : String} {draft : ConfigDraft}
    {result : ConfigRevisionResult}
    (hcall : store.publishDraft codec fault expectedDraftHash = .ok (draft, result, store')) :
    Consistent codec (log ++ [.published expectedDraftHash draft result]) store' := by
  obtain ⟨-, hdraft, hhash, hcases⟩ := publishDraft_eq_ok hcall
  obtain ⟨document, secrets, hlast, hholds⟩ := h.draft draft hdraft
  rw [hhash] at hlast
  have hpublished (hmono : ∀ revision ∈ store.revisions, revision ∈ store'.revisions)
      (hnew : ∃ revision ∈ store'.revisions, revision.Holds codec document secrets ∧
        revision.result = result) :
      ∀ before expected other result' later,
        log ++ [.published expectedDraftHash draft result] =
          before ++ .published expected other result' :: later →
        Publishes codec store' before expected other result' := by
    intro before expected other result' later hlog
    rcases append_singleton_eq hlog with ⟨-, rfl, heq⟩ | ⟨rest, -, hbefore⟩
    · obtain ⟨rfl, rfl, rfl⟩ := ConfigEvent.published.inj heq
      exact ⟨hhash, document, secrets, hlast, hholds, hnew⟩
    · exact (h.published _ _ _ _ _ hbefore).mono hmono
  rcases hcases with ⟨revision, hexisting, hresult, rfl⟩ | ⟨hnone, hresult, rfl⟩
  · have hmem := List.mem_of_find?_eq_some hexisting
    have hsame : revision.configHash = draft.draftHash := by
      have heq := List.find?_some hexisting
      exact beq_iff_eq.mp heq
    constructor
    · exact h.numbered.congr rfl rfl rfl
    · intro other hother
      cases hother
    · exact h.revisions
    · apply hpublished (fun _ hold => hold)
      refine ⟨revision, hmem, ?_, hresult.symm⟩
      rcases h.revisions revision hmem with ⟨document', secrets', hrevision⟩ | hlegacy
      · have hunique : document' = document ∧ secrets' = secrets := by
          unfold ConfigRevision.Holds at hrevision
          rw [hsame] at hrevision
          exact hrevision.unique hcodec hholds
        rw [← hunique.1, ← hunique.2]
        exact hrevision
      · exact absurd (hholds.hashed.symm.trans hsame.symm) (hlegacy _)
  · constructor
    · exact h.numbered.insertRevision hnone
    · intro other hother
      cases hother
    · intro revision hrevision
      rcases List.mem_append.mp hrevision with hold | hnew
      · exact h.revisions revision hold
      · rw [List.mem_singleton.mp hnew]
        exact .inl ⟨document, secrets, hholds⟩
    · apply hpublished (fun _ hold => List.mem_append_left _ hold)
      exact ⟨_, List.mem_append_right _ (List.mem_singleton_self _), hholds, hresult.symm⟩

theorem Consistent.step (hcodec : codec.Sound) (h : Consistent codec log store)
    (action : ConfigAction Document) :
    Consistent codec (log ++ (store.event codec action).toList) (store.act codec action) := by
  cases action with
  | save nonce document secrets =>
      rw [ConfigStore.event, ConfigStore.act]
      cases hcall : store.saveDraft codec nonce document secrets with
      | error error =>
          simp only [Except.toOption, Option.bind_none, Option.toList_none, List.append_nil,
            Option.getD_none]
          exact h
      | ok after =>
          obtain ⟨draft, hholds, hdraft, hrevisions, hnext, hlast⟩ := saveDraft_eq_ok hcall
          simp only [Except.toOption, Option.bind_some, hdraft, Option.map_some,
            Option.toList_some, Option.getD_some]
          exact h.save hholds hdraft hrevisions hnext hlast
  | publish fault expectedDraftHash =>
      rw [ConfigStore.event, ConfigStore.act]
      cases hcall : store.publishDraft codec fault expectedDraftHash with
      | error error =>
          simp only [Except.toOption, Option.map_none, Option.toList_none, List.append_nil,
            Option.getD_none]
          exact h
      | ok result =>
          simp only [Except.toOption, Option.map_some, Option.toList_some, Option.getD_some]
          exact h.publish hcodec hcall

theorem consistent_of_reached {permitted : List (ConfigEvent Document) × ConfigStore →
      ConfigAction Document → Prop} (hcodec : codec.Sound)
    (h : Reached (observedPublication codec) permitted (log, store)) :
    Consistent codec log store := by
  refine Reached.invariant h (P := fun state => Consistent codec state.1 state.2) ?_ ?_
  · rintro ⟨log, store⟩ ⟨hlog, hinitial⟩
    obtain rfl : log = [] := hlog
    constructor
    · exact ⟨hinitial.hashes, hinitial.numbers, hinitial.ids, hinitial.below⟩
    · intro draft hdraft
      rw [hinitial.draft] at hdraft
      cases hdraft
    · intro revision hrevision
      exact .inr (hinitial.legacy revision hrevision)
    · intro before expected draft result later hlog
      simp at hlog
  · rintro ⟨log, store⟩ action ⟨log', store'⟩ - - hconsistent hstep
    obtain ⟨hstore, rfl⟩ := step_logged_eq_some.mp hstep
    obtain rfl := Option.some.inj hstore
    exact hconsistent.step hcodec action

/-- A draft has been saved. -/
def ConfigEvent.IsSaved (event : ConfigEvent Document) : Prop :=
  ∃ document secrets draftHash, event = .saved document secrets draftHash

/-- Until the next publication, the latest revision is the one that was returned. -/
def Current (log : List (ConfigEvent Document)) (store : ConfigStore) : Prop :=
  ∀ before expectedDraftHash draft result later,
    log = before ++ .published expectedDraftHash draft result :: later →
      (∀ event ∈ later, event.IsSaved) → store.latest.map ConfigRevision.result = some result

theorem Current.save (h : Current log store) {draftHash : String}
    (hrevisions : store'.revisions = store.revisions) :
    Current (log ++ [.saved document secrets draftHash]) store' := by
  intro before expectedDraftHash draft result later hlog hsaved
  rw [ConfigStore.latest, hrevisions]
  rcases append_singleton_eq hlog with ⟨-, -, hfalse⟩ | ⟨rest, hlater, hbefore⟩
  · cases hfalse
  · apply h _ _ _ _ _ hbefore
    intro event hevent
    apply hsaved
    rw [hlater]
    exact List.mem_append_left _ hevent

theorem current_of_published {expectedDraftHash : String} {draft : ConfigDraft}
    {result : ConfigRevisionResult} (h : store.latest.map ConfigRevision.result = some result) :
    Current (log ++ [.published expectedDraftHash draft result]) store := by
  intro before expected other result' later hlog hsaved
  rcases append_singleton_eq hlog with ⟨-, -, heq⟩ | ⟨rest, hlater, -⟩
  · obtain ⟨-, -, rfl⟩ := ConfigEvent.published.inj heq
    exact h
  · have hlast : (.published expectedDraftHash draft result : ConfigEvent Document) ∈ later := by
      rw [hlater]
      exact List.mem_append_right _ (List.mem_singleton_self _)
    obtain ⟨document, secrets, draftHash, hfalse⟩ := hsaved _ hlast
    cases hfalse

/-- A new revision is the latest one. -/
theorem Numbered.latest_insertRevision (h : Numbered store) {draft : ConfigDraft} :
    (store.insertRevision draft).latest.map ConfigRevision.result =
      some ⟨store.lastRevisionId + 1, store.revisionNo, draft.draftHash⟩ := by
  rw [ConfigStore.latest, ConfigStore.insertRevision, latestRevision_concat]
  · rfl
  · intro old hold
    exact Int.le_of_lt (h.below old hold).1

theorem Current.step (hconsistent : Consistent codec log store) (h : Current log store)
    {action : ConfigAction Document} (hallowed : store.newest action = true) :
    Current (log ++ (store.event codec action).toList) (store.act codec action) := by
  cases action with
  | save nonce document secrets =>
      rw [ConfigStore.event, ConfigStore.act]
      cases hcall : store.saveDraft codec nonce document secrets with
      | error error =>
          simp only [Except.toOption, Option.bind_none, Option.toList_none, List.append_nil,
            Option.getD_none]
          exact h
      | ok after =>
          obtain ⟨draft, -, hdraft, hrevisions, -, -⟩ := saveDraft_eq_ok hcall
          simp only [Except.toOption, Option.bind_some, hdraft, Option.map_some,
            Option.toList_some, Option.getD_some]
          exact h.save hrevisions
  | publish fault expectedDraftHash =>
      rw [ConfigStore.event, ConfigStore.act]
      cases hcall : store.publishDraft codec fault expectedDraftHash with
      | error error =>
          simp only [Except.toOption, Option.map_none, Option.toList_none, List.append_nil,
            Option.getD_none]
          exact h
      | ok result =>
          simp only [Except.toOption, Option.map_some, Option.toList_some, Option.getD_some]
          apply current_of_published
          obtain ⟨draft, result, after⟩ := result
          obtain ⟨rfl, hdraft, hhash, hcases⟩ := publishDraft_eq_ok hcall
          rcases hcases with ⟨revision, hexisting, rfl, rfl⟩ | ⟨-, rfl, rfl⟩
          · have hexpected : store.expectedDraft expectedDraftHash = .ok draft := by
              simp only [ConfigStore.expectedDraft, hdraft, hhash, ne_eq, not_true_eq_false,
                if_false]
            simp only [ConfigStore.newest, hexpected, Except.toOption, Option.all_some, hexisting,
              Option.isSome_none, Bool.false_or, beq_iff_eq] at hallowed
            show store.latest.map ConfigRevision.result = some revision.result
            rw [hallowed]
            rfl
          · exact hconsistent.numbered.latest_insertRevision

theorem current_of_reached (hcodec : codec.Sound)
    (h : Reached (observedPublication codec) (fun state action => state.2.newest action = true)
      (log, store)) : Current log store := by
  refine Reached.invariant h (P := fun state => Current state.1 state.2) ?_ ?_
  · rintro ⟨log, store⟩ ⟨hlog, -⟩ before expected draft result later hsplit
    obtain rfl : log = [] := hlog
    simp at hsplit
  · rintro ⟨log, store⟩ action ⟨log', store'⟩ hbefore hallowed hcurrent hstep
    obtain ⟨hstore, rfl⟩ := step_logged_eq_some.mp hstep
    obtain rfl := Option.some.inj hstore
    exact hcurrent.step (consistent_of_reached hcodec hbefore) hallowed

end EasyDeploy.Configs
