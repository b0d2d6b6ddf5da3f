import EasyDeploy.Web.IdempotentCalls

/-!
# What calls keep

The steps of the calls by what they change, and the invariants they keep: what
the records are to the answers that were recorded, and what a call had looked up
before it creates anything.
-/

namespace EasyDeploy.Web
open Foundation

/-- The stages behind a lookup that found nothing. -/
def CallStage.hasLookedUp : CallStage → Bool
  | working | storing _ => true
  | _ => false

/-- A step, by what it changes and shows. -/
inductive Api.Changes (text : JsonText) (sha256 : List UInt8 → List UInt8) (s : Api) :
    Api → Option ApiEvent → Prop
  | received (request : IdempotentRequest) :
      Changes text sha256 s { s with calls := s.calls ++ [⟨request, .purging⟩] } none
  | purged {index : Nat} {call : ApiCall} (hcall : s.calls[index]? = some call) :
      Changes text sha256 s
        { s.moveCall index call .lookingUp with records := purgeExpired s.records s.now } none
  | lookedUp {index : Nat} {call : ApiCall} {found : Except Response (Option Response)}
      (hcall : s.calls[index]? = some call)
      (hfound : idempotencyReplay text (findRecord s.records call.request.owner)
        (stableRequestHash sha256 call.request.parts) = found) :
      Changes text sha256 s (s.moveCall index call (stageAfter found))
        (some (.lookedUp index call.request s.now found))
  | stored {index : Nat} {call : ApiCall} {created : Created}
      {records : List IdempotencyRecord} (hcall : s.calls[index]? = some call)
      (hstore : storeIdempotencyResponse text sha256 s.tokens s.records call.request created
        s.now = .ok records) :
      Changes text sha256 s { s.moveCall index call .closed with records }
        (some (.created index call.request created.response s.now))
  | performed {index : Nat} {call : ApiCall} (created : Created)
      (hcall : s.calls[index]? = some call) (hstage : call.stage = .working) :
      Changes text sha256 s (s.moveCall index call (.storing created))
        (some (.performed index call.request created))
  | closed {index : Nat} {call : ApiCall} {event : Option ApiEvent}
      (hcall : s.calls[index]? = some call)
      (hevent : ∀ shown ∈ event, ∃ response, shown = .failed index call.request response) :
      Changes text sha256 s (s.moveCall index call .closed) event
  | ticked (millis : Nat) : Changes text sha256 s { s with now := s.now + millis } none
  | tokenDeleted (tokenId : Int) :
      Changes text sha256 s
        { s with
          tokens := s.tokens.filter fun id => id != tokenId
          records := s.records.filter fun record => record.owner.tokenId != tokenId }
        (some (.tokenDeleted tokenId))

variable {text : JsonText} {sha256 : List UInt8 → List UInt8}

namespace Api

variable {s s' : Api} {action : ApiAction} {event : Option ApiEvent}

theorem failed_of_mem {index : Nat} {call : ApiCall} {response : Response} :
    ∀ shown ∈ some (ApiEvent.failed index call.request response),
      ∃ response, shown = .failed index call.request response := by
  intro shown hshown
  exact ⟨response, (Option.mem_some_iff.mp hshown).symm⟩

theorem changes_execute {index : Nat} {call : ApiCall} (hcall : s.calls[index]? = some call)
    (h : s.execute text sha256 index call = some (s', event)) :
    s.Changes text sha256 s' event := by
  unfold execute at h
  split at h
  · obtain ⟨rfl, rfl⟩ := Prod.mk.inj (Option.some.inj h)
    exact .purged hcall
  · obtain ⟨rfl, rfl⟩ := Prod.mk.inj (Option.some.inj h)
    exact .lookedUp hcall rfl
  · split at h
    · rename_i records hstore
      obtain ⟨rfl, rfl⟩ := Prod.mk.inj (Option.some.inj h)
      exact .stored hcall hstore
    · obtain ⟨rfl, rfl⟩ := Prod.mk.inj (Option.some.inj h)
      exact .closed hcall failed_of_mem
  · cases h
  · cases h

theorem changes_fail {index : Nat} {call : ApiCall} (hcall : s.calls[index]? = some call)
    (h : s.fail index call = some (s', event)) : s.Changes text sha256 s' event := by
  unfold fail at h
  split at h
  · obtain ⟨rfl, rfl⟩ := Prod.mk.inj (Option.some.inj h)
    exact .closed hcall failed_of_mem
  · obtain ⟨rfl, rfl⟩ := Prod.mk.inj (Option.some.inj h)
    exact .closed hcall failed_of_mem
  · obtain ⟨rfl, rfl⟩ := Prod.mk.inj (Option.some.inj h)
    exact .closed hcall failed_of_mem
  · cases h
  · cases h

theorem changes_perform {index : Nat} {call : ApiCall} {outcome : Except WorkError Created}
    (hcall : s.calls[index]? = some call)
    (h : s.perform index call outcome = some (s', event)) : s.Changes text sha256 s' event := by
  unfold perform at h
  split at h
  · rename_i hstage
    split at h
    · rename_i created
      obtain ⟨rfl, rfl⟩ := Prod.mk.inj (Option.some.inj h)
      exact .performed created hcall hstage
    · obtain ⟨rfl, rfl⟩ := Prod.mk.inj (Option.some.inj h)
      exact .closed hcall failed_of_mem
  · cases h

theorem changes_act (h : s.act text sha256 action = some (s', event)) :
    s.Changes text sha256 s' event := by
  cases action with
  | receive header request =>
      simp only [act] at h
      split at h
      · split at h
        · rename_i key hkey
          obtain ⟨rfl, rfl⟩ := Prod.mk.inj (Option.some.inj h)
          exact .received (request.withKey key)
        · cases h
      · cases h
  | statement index works =>
      obtain ⟨call, hcall, h⟩ := Option.bind_eq_some_iff.mp h
      split at h
      · exact changes_execute hcall h
      · exact changes_fail hcall h
  | work index outcome =>
      obtain ⟨call, hcall, h⟩ := Option.bind_eq_some_iff.mp h
      exact changes_perform hcall h
  | abandon index =>
      obtain ⟨call, hcall, h⟩ := Option.map_eq_some_iff.mp h
      obtain ⟨rfl, rfl⟩ := Prod.mk.inj h
      exact .closed hcall fun _ hnone => by cases hnone
  | tick millis =>
      obtain ⟨rfl, rfl⟩ := Prod.mk.inj (Option.some.inj h)
      exact .ticked millis
  | deleteToken tokenId =>
      obtain ⟨rfl, rfl⟩ := Prod.mk.inj (Option.some.inj h)
      exact .tokenDeleted tokenId

end Api

/-- The record of an answer. -/
structure Recorded (text : JsonText) (sha256 : List UInt8 → List UInt8)
    (record : IdempotencyRecord) (request : IdempotentRequest) (response : Response)
    (time : Nat) : Prop where
  owner : record.owner = request.owner
  requestHash : record.requestHash = stableRequestHash sha256 request.parts
  status : response.status = 201
  responseStatus : record.responseStatus = 201
  responseBody : text.toString response.body = .ok record.responseBody
  expiresAt : record.expiresAt = time + recordLife

/-- The time at which an event recorded an answer under a key. -/
def createdAt (owner : IdempotencyKey) : ApiEvent → Option Nat
  | .created _ request _ time => if request.owner = owner then some time else none
  | _ => none

/-- What the records are to the answers that were recorded. -/
structure RecordsSound (text : JsonText) (sha256 : List UInt8 → List UInt8)
    (log : List ApiEvent) (s : Api) : Prop where
  owners : (s.records.map (·.owner)).Nodup
  recorded : ∀ record ∈ s.records, ∃ index request response time,
    .created index request response time ∈ log ∧
      Recorded text sha256 record request response time
  lives : ∀ index request response time, .created index request response time ∈ log →
    time ≤ s.now ∧ (time + recordLife ≤ s.now ∨
      .tokenDeleted request.owner.tokenId ∈ log ∨
      ∃ record ∈ s.records, Recorded text sha256 record request response time)
  deleted : ∀ tokenId, .tokenDeleted tokenId ∈ log → tokenId ∉ s.tokens
  apart : ∀ owner, (log.filterMap (createdAt owner)).Pairwise
    fun time time' => time + recordLife ≤ time'

namespace RecordsSound

variable {log : List ApiEvent} {s s' : Api} {event : ApiEvent}

/-- Calls are not part of the records. -/
theorem congr (h : RecordsSound text sha256 log s) (htokens : s'.tokens = s.tokens)
    (hrecords : s'.records = s.records) (hnow : s'.now = s.now) :
    RecordsSound text sha256 log s' := by
  constructor
  · rw [hrecords]
    exact h.owners
  · rw [hrecords]
    exact h.recorded
  · rw [hrecords, hnow]
    exact h.lives
  · rw [htokens]
    exact h.deleted
  · exact h.apart

/-- An event that records nothing and deletes no token. -/
theorem extend (h : RecordsSound text sha256 log s)
    (hcreated : ∀ owner, createdAt owner event = none)
    (hdeleted : ∀ tokenId, event ≠ .tokenDeleted tokenId) :
    RecordsSound text sha256 (log ++ [event]) s := by
  have hold : ∀ index request response time,
      .created index request response time ∈ log ++ [event] →
        .created index request response time ∈ log := by
    intro index request response time hmem
    rcases List.mem_append.mp hmem with hmem | hmem
    · exact hmem
    · have hnone := hcreated request.owner
      rw [← List.mem_singleton.mp hmem, createdAt, if_pos rfl] at hnone
      cases hnone
  constructor
  · exact h.owners
  · intro record hrecord
    obtain ⟨index, request, response, time, hmem, hrecorded⟩ := h.recorded record hrecord
    exact ⟨index, request, response, time, List.mem_append_left _ hmem, hrecorded⟩
  · intro index request response time hmem
    obtain ⟨hle, hlives⟩ := h.lives index request response time (hold _ _ _ _ hmem)
    exact ⟨hle, hlives.imp_right (Or.imp_left (List.mem_append_left _))⟩
  · intro tokenId hmem
    rcases List.mem_append.mp hmem with hmem | hmem
    · exact h.deleted tokenId hmem
    · exact absurd (List.mem_singleton.mp hmem).symm (hdeleted tokenId)
  · intro owner
    rw [List.filterMap_append, List.filterMap_cons, hcreated owner, List.filterMap_nil,
      List.append_nil]
    exact h.apart owner

/-- Removing records that expired. -/
theorem purge (h : RecordsSound text sha256 log s) :
    RecordsSound text sha256 log { s with records := purgeExpired s.records s.now } := by
  constructor
  · exact h.owners.sublist (List.filter_sublist.map _)
  · exact fun record hrecord => h.recorded record (List.mem_of_mem_filter hrecord)
  · intro index request response time hmem
    obtain ⟨hle, hlives⟩ := h.lives index request response time hmem
    refine ⟨hle, ?_⟩
    rcases hlives with hexpired | hdeleted | ⟨record, hrecord, hrecorded⟩
    · exact .inl hexpired
    · exact .inr (.inl hdeleted)
    · by_cases hexpired : time + recordLife ≤ s.now
      · exact .inl hexpired
      · refine .inr (.inr ⟨record, List.mem_filter.mpr ⟨hrecord, ?_⟩, hrecorded⟩)
        rw [hrecorded.expiresAt, decide_eq_true_eq]
        omega
  · exact h.deleted
  · exact h.apart

theorem tick (h : RecordsSound text sha256 log s) (millis : Nat) :
    RecordsSound text sha256 log { s with now := s.now + millis } := by
  refine ⟨h.owners, h.recorded, fun index request response time hmem => ?_, h.deleted, h.apart⟩
  obtain ⟨hle, hlives⟩ := h.lives index request response time hmem
  refine ⟨Nat.le_add_right_of_le hle, hlives.imp_left fun hexpired => ?_⟩
  exact Nat.le_add_right_of_le hexpired

/-- The records of a deleted token go with it. -/
theorem deleteToken (h : RecordsSound text sha256 log s) (tokenId : Int) :
    RecordsSound text sha256 (log ++ [.tokenDeleted tokenId])
      { s with
        tokens := s.tokens.filter fun id => id != tokenId
        records := s.records.filter fun record => record.owner.tokenId != tokenId } := by
  have hcreated (owner : IdempotencyKey) : createdAt owner (.tokenDeleted tokenId) = none := rfl
  constructor
  · exact h.owners.sublist (List.filter_sublist.map _)
  · intro record hrecord
    obtain ⟨index, request, response, time, hmem, hrecorded⟩ :=
      h.recorded record (List.mem_of_mem_filter hrecord)
    exact ⟨index, request, response, time, List.mem_append_left _ hmem, hrecorded⟩
  · intro index request response time hmem
    have hmem : .created index request response time ∈ log := by
      rcases List.mem_append.mp hmem with hmem | hmem
      · exact hmem
      · cases List.mem_singleton.mp hmem
    obtain ⟨hle, hlives⟩ := h.lives index request response time hmem
    refine ⟨hle, ?_⟩
    rcases hlives with hexpired | hdeleted | ⟨record, hrecord, hrecorded⟩
    · exact .inl hexpired
    · exact .inr (.inl (List.mem_append_left _ hdeleted))
    · by_cases htoken : request.owner.tokenId = tokenId
      · rw [htoken]
        exact .inr (.inl (List.mem_append_right _ (List.mem_singleton_self _)))
      · refine .inr (.inr ⟨record, List.mem_filter.mpr ⟨hrecord, ?_⟩, hrecorded⟩)
        rw [hrecorded.owner]
        exact bne_iff_ne.mpr htoken
  · intro deletedId hmem hkept
    rw [List.mem_filter, bne_iff_ne] at hkept
    rcases List.mem_append.mp hmem with hmem | hmem
    · exact h.deleted deletedId hmem hkept.1
    · cases List.mem_singleton.mp hmem
      exact hkept.2 rfl
  · intro owner
    rw [List.filterMap_append, List.filterMap_cons, hcreated owner, List.filterMap_nil,
      List.append_nil]
    exact h.apart owner

/-- An answer that was recorded under the key of a new record has expired. -/
theorem expired_of_absent (h : RecordsSound text sha256 log s) {owner : IdempotencyKey}
    (htoken : owner.tokenId ∈ s.tokens) (habsent : ∀ record ∈ s.records, record.owner ≠ owner)
    {time : Nat} (hmem : time ∈ log.filterMap (createdAt owner)) :
    time + recordLife ≤ s.now := by
  obtain ⟨event, hevent, htime⟩ := List.mem_filterMap.mp hmem
  cases event with
  | created index request response time' =>
      rw [createdAt] at htime
      split at htime
      · rename_i howner
        obtain rfl := Option.some.inj htime
        rcases (h.lives index request response time' hevent).2 with
          hexpired | hdeleted | ⟨record, hrecord, hrecorded⟩
        · exact hexpired
        · rw [howner] at hdeleted
          exact absurd htoken (h.deleted _ hdeleted)
        · exact absurd (hrecorded.owner.trans howner) (habsent record hrecord)
      · cases htime
  | _ => cases htime

/-- Recording an answer. -/
theorem store (h : RecordsSound text sha256 log s) {index : Nat} {request : IdempotentRequest}
    {created : Created} {records : List IdempotencyRecord}
    (hstore : storeIdempotencyResponse text sha256 s.tokens s.records request created s.now =
      .ok records) :
    RecordsSound text sha256 (log ++ [.created index request created.response s.now])
      { s with records } := by
  unfold storeIdempotencyResponse at hstore
  split at hstore
  · cases hstore
  · rename_i body hbody
    obtain ⟨rfl, htoken, habsent⟩ := insertRecord_eq_ok hstore
    have hnew : Recorded text sha256 (newRecord sha256 request created body s.now) request
        created.response s.now := ⟨rfl, rfl, rfl, rfl, hbody, rfl⟩
    constructor
    · rw [List.map_append]
      apply h.owners.append (List.nodup_singleton _)
      intro owner howner hsame
      obtain ⟨record, hrecord, rfl⟩ := List.mem_map.mp howner
      exact habsent record hrecord (List.mem_singleton.mp hsame)
    · intro record hrecord
      rcases List.mem_append.mp hrecord with hrecord | hrecord
      · obtain ⟨index', request', response, time, hmem, hrecorded⟩ := h.recorded record hrecord
        exact ⟨index', request', response, time, List.mem_append_left _ hmem, hrecorded⟩
      · rw [List.mem_singleton.mp hrecord]
        exact ⟨index, request, created.response, s.now,
          List.mem_append_right _ (List.mem_singleton_self _), hnew⟩
    · intro index' request' response time hmem
      rcases List.mem_append.mp hmem with hmem | hmem
      · obtain ⟨hle, hlives⟩ := h.lives index' request' response time hmem
        refine ⟨hle, hlives.imp_right (Or.imp (List.mem_append_left _) ?_)⟩
        rintro ⟨record, hrecord, hrecorded⟩
        exact ⟨record, List.mem_append_left _ hrecord, hrecorded⟩
      · cases List.mem_singleton.mp hmem
        exact ⟨le_refl _, .inr (.inr ⟨_, List.mem_append_right _ (List.mem_singleton_self _),
          hnew⟩)⟩
    · intro tokenId hmem
      rcases List.mem_append.mp hmem with hmem | hmem
      · exact h.deleted tokenId hmem
      · cases List.mem_singleton.mp hmem
    · intro owner
      rw [List.filterMap_append, List.filterMap_cons, createdAt]
      by_cases howner : request.owner = owner
      · rw [if_pos howner, List.filterMap_nil, List.pairwise_append]
        refine ⟨h.apart owner, List.pairwise_singleton _ _, fun time hmem time' hlast => ?_⟩
        rw [List.mem_singleton.mp hlast]
        subst howner
        exact h.expired_of_absent htoken habsent hmem
      · rw [if_neg howner, List.filterMap_nil, List.append_nil]
        exact h.apart owner

/-- The answer of a record is the one that was recorded. -/
theorem replay_of_mem (htext : text.RoundTrips) (h : RecordsSound text sha256 log s)
    {record : IdempotencyRecord} (hrecord : record ∈ s.records) {request : IdempotentRequest}
    {response : Response} {time : Nat}
    (hrecorded : Recorded text sha256 record request response time) (requestHash : String) :
    idempotencyReplay text (findRecord s.records request.owner) requestHash =
      if stableRequestHash sha256 request.parts = requestHash then .ok (some response)
      else .error contentConflict := by
  have hfind := findRecord_eq_some h.owners hrecord
  rw [hrecorded.owner] at hfind
  rw [hfind, idempotencyReplay, hrecorded.requestHash]
  by_cases hhash : stableRequestHash sha256 request.parts = requestHash
  · rw [if_neg (not_not.mpr hhash), if_pos hhash, htext _ _ hrecorded.responseBody,
      hrecorded.responseStatus]
    have hstatus : statusFromU16 201 = response.status := hrecorded.status.symm
    dsimp only
    rw [hstatus]
  · rw [if_pos hhash, if_neg hhash]

/-- An answer that is given again was recorded for a request with the same hash. -/
theorem recorded_of_replay (htext : text.RoundTrips) (h : RecordsSound text sha256 log s)
    {owner : IdempotencyKey} {requestHash : String} {response : Response}
    (hreplay : idempotencyReplay text (findRecord s.records owner) requestHash =
      .ok (some response)) :
    ∃ index request time, .created index request response time ∈ log ∧
      request.owner = owner ∧ stableRequestHash sha256 request.parts = requestHash := by
  cases hfind : findRecord s.records owner with
  | none =>
      rw [hfind] at hreplay
      cases hreplay
  | some record =>
      obtain ⟨hrecord, rfl⟩ := mem_of_findRecord hfind
      obtain ⟨index, request, answer, time, hmem, hrecorded⟩ := h.recorded record hrecord
      rw [hrecorded.owner, h.replay_of_mem htext hrecord hrecorded] at hreplay
      split at hreplay
      · rename_i hhash
        obtain rfl := Option.some.inj (Except.ok.inj hreplay)
        exact ⟨index, request, time, hmem, hrecorded.owner.symm, hhash⟩
      · cases hreplay

/-- Within its life a recorded answer decides a lookup. -/
theorem replay_of_live (htext : text.RoundTrips) (h : RecordsSound text sha256 log s)
    {index : Nat} {request : IdempotentRequest} {response : Response} {time : Nat}
    (hmem : .created index request response time ∈ log) (hlive : s.now < time + recordLife)
    (htoken : .tokenDeleted request.owner.tokenId ∉ log) (requestHash : String) :
    idempotencyReplay text (findRecord s.records request.owner) requestHash =
      if stableRequestHash sha256 request.parts = requestHash then .ok (some response)
      else .error contentConflict := by
  rcases (h.lives index request response time hmem).2 with
    hexpired | hdeleted | ⟨record, hrecord, hrecorded⟩
  · omega
  · exact absurd hdeleted htoken
  · exact h.replay_of_mem htext hrecord hrecorded requestHash

end RecordsSound

/-- Calls behind their lookup had one that found nothing. -/
structure CallsSound (log : List ApiEvent) (calls : List ApiCall) : Prop where
  working : ∀ index call, calls[index]? = some call → call.stage.hasLookedUp = true →
    ∃ time, .lookedUp index call.request time (.ok none) ∈ log
  performed : ∀ index request created, .performed index request created ∈ log →
    ∃ time, .lookedUp index request time (.ok none) ∈ log

namespace CallsSound

variable {log : List ApiEvent} {calls : List ApiCall} {index : Nat} {call : ApiCall}

/-- A new call has not looked anything up. -/
theorem receive (h : CallsSound log calls) (request : IdempotentRequest) :
    CallsSound log (calls ++ [⟨request, .purging⟩]) := by
  refine ⟨fun index call hcall hstage => ?_, h.performed⟩
  rw [List.getElem?_append] at hcall
  split at hcall
  · exact h.working index call hcall hstage
  · obtain rfl := List.mem_singleton.mp (List.mem_of_getElem? hcall)
    cases hstage

/-- A call that moves, with what it shows. -/
theorem move (h : CallsSound log calls) (hcall : calls[index]? = some call) (stage : CallStage)
    (events : List ApiEvent)
    (hstage : stage.hasLookedUp = true → call.stage.hasLookedUp = true ∨
      ∃ time, .lookedUp index call.request time (.ok none) ∈ events)
    (hevents : ∀ other request created, .performed other request created ∈ events →
      other = index ∧ request = call.request ∧ call.stage.hasLookedUp = true) :
    CallsSound (log ++ events) (calls.set index { call with stage }) := by
  have hbehind (hdone : call.stage.hasLookedUp = true) :
      ∃ time, .lookedUp index call.request time (.ok none) ∈ log ++ events := by
    obtain ⟨time, hmem⟩ := h.working index call hcall hdone
    exact ⟨time, List.mem_append_left _ hmem⟩
  constructor
  · intro other moved hmoved hdone
    rw [List.getElem?_set] at hmoved
    split at hmoved
    · rename_i hsame
      subst hsame
      split at hmoved
      · obtain rfl := Option.some.inj hmoved
        rcases hstage hdone with hdone | ⟨time, hmem⟩
        · exact hbehind hdone
        · exact ⟨time, List.mem_append_right _ hmem⟩
      · cases hmoved
    · obtain ⟨time, hmem⟩ := h.working other moved hmoved hdone
      exact ⟨time, List.mem_append_left _ hmem⟩
  · intro other request created hperformed
    rcases List.mem_append.mp hperformed with hperformed | hperformed
    · obtain ⟨time, hmem⟩ := h.performed other request created hperformed
      exact ⟨time, List.mem_append_left _ hmem⟩
    · obtain ⟨rfl, rfl, hdone⟩ := hevents other request created hperformed
      exact hbehind hdone

/-- An event that performs nothing. -/
theorem extend (h : CallsSound log calls) (event : ApiEvent)
    (hevent : ∀ index request created, event ≠ .performed index request created) :
    CallsSound (log ++ [event]) calls := by
  constructor
  · intro index call hcall hstage
    obtain ⟨time, hmem⟩ := h.working index call hcall hstage
    exact ⟨time, List.mem_append_left _ hmem⟩
  · intro index request created hperformed
    rcases List.mem_append.mp hperformed with hperformed | hperformed
    · obtain ⟨time, hmem⟩ := h.performed index request created hperformed
      exact ⟨time, List.mem_append_left _ hmem⟩
    · exact absurd (List.mem_singleton.mp hperformed).symm (hevent index request created)

end CallsSound

end EasyDeploy.Web
