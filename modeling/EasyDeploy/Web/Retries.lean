import EasyDeploy.Web.CallInvariants

/-!
# Retried requests

What holds of any interleaving of calls. Answers that are given again are
recorded answers of the same request, two answers recorded under one key lie a
day apart, and a call that looks its key up within that day creates nothing.
-/

namespace EasyDeploy.Web
open Foundation
open Foundation.Transition

variable {text : JsonText} {sha256 : List UInt8 → List UInt8}

/-- The invariant of the runs with what they have shown. -/
structure ApiSound (text : JsonText) (sha256 : List UInt8 → List UInt8) (log : List ApiEvent)
    (s : Api) : Prop where
  records : RecordsSound text sha256 log s
  calls : CallsSound log s.calls
  replayed : ∀ index request time response,
    .lookedUp index request time (.ok (some response)) ∈ log →
      ∃ index' request' time', .created index' request' response time' ∈ log ∧
        request'.owner = request.owner ∧
        stableRequestHash sha256 request'.parts = stableRequestHash sha256 request.parts

namespace ApiSound

variable {log : List ApiEvent} {s s' : Api} {event : Option ApiEvent}

/-- Events that replay nothing. -/
theorem replayed_append (h : ApiSound text sha256 log s) {events : List ApiEvent}
    (hevents : ∀ index request time response,
      .lookedUp index request time (.ok (some response)) ∈ events →
        ∃ index' request' time', .created index' request' response time' ∈ log ∧
          request'.owner = request.owner ∧
          stableRequestHash sha256 request'.parts = stableRequestHash sha256 request.parts) :
    ∀ index request time response,
      .lookedUp index request time (.ok (some response)) ∈ log ++ events →
        ∃ index' request' time', .created index' request' response time' ∈ log ++ events ∧
          request'.owner = request.owner ∧
          stableRequestHash sha256 request'.parts =
            stableRequestHash sha256 request.parts := by
  intro index request time response hmem
  have hbefore : ∃ index' request' time', .created index' request' response time' ∈ log ∧
      request'.owner = request.owner ∧
      stableRequestHash sha256 request'.parts = stableRequestHash sha256 request.parts := by
    rcases List.mem_append.mp hmem with hmem | hmem
    · exact h.replayed index request time response hmem
    · exact hevents index request time response hmem
  obtain ⟨index', request', time', hcreated, hsame⟩ := hbefore
  exact ⟨index', request', time', List.mem_append_left _ hcreated, hsame⟩

theorem change (htext : text.RoundTrips) (h : ApiSound text sha256 log s)
    (hchange : s.Changes text sha256 s' event) :
    ApiSound text sha256 (log ++ event.toList) s' := by
  cases hchange with
  | received request =>
      rw [Option.toList_none, List.append_nil]
      exact ⟨h.records.congr rfl rfl rfl, h.calls.receive request, h.replayed⟩
  | purged hcall =>
      rw [Option.toList_none]
      refine ⟨?_, h.calls.move hcall _ [] ?_ ?_, h.replayed_append ?_⟩
      · rw [List.append_nil]
        exact h.records.purge.congr rfl rfl rfl
      · exact fun hdone => by cases hdone
      · exact fun _ _ _ hnone => absurd hnone List.not_mem_nil
      · exact fun _ _ _ _ hnone => absurd hnone List.not_mem_nil
  | @lookedUp index call found hcall hfound =>
      rw [Option.toList_some]
      refine ⟨?_, h.calls.move hcall _ _ (fun hdone => .inr ⟨s.now, ?_⟩) ?_,
        h.replayed_append ?_⟩
      · exact (h.records.extend (fun _ => rfl) fun _ hsame => by cases hsame).congr rfl rfl rfl
      · cases found with
        | error response => cases hdone
        | ok answer =>
            cases answer with
            | none => exact List.mem_singleton_self _
            | some response => cases hdone
      · intro other request created hmem
        cases List.mem_singleton.mp hmem
      · intro other request time response hmem
        cases List.mem_singleton.mp hmem
        exact h.records.recorded_of_replay htext hfound
  | stored hcall hstore =>
      rw [Option.toList_some]
      refine ⟨(h.records.store hstore).congr rfl rfl rfl, h.calls.move hcall _ _ ?_ ?_,
        h.replayed_append ?_⟩
      · exact fun hdone => by cases hdone
      · exact fun _ _ _ hmem => by cases List.mem_singleton.mp hmem
      · exact fun _ _ _ _ hmem => by cases List.mem_singleton.mp hmem
  | performed created hcall hstage =>
      have hdone := congrArg CallStage.hasLookedUp hstage
      rw [Option.toList_some]
      refine ⟨?_, h.calls.move hcall _ _ (fun _ => .inl hdone) ?_, h.replayed_append ?_⟩
      · exact (h.records.extend (fun _ => rfl) fun _ hsame => by cases hsame).congr rfl rfl rfl
      · intro other request created' hmem
        cases List.mem_singleton.mp hmem
        exact ⟨rfl, rfl, hdone⟩
      · exact fun _ _ _ _ hmem => by cases List.mem_singleton.mp hmem
  | @closed index call event hcall hevent =>
      cases event with
      | none =>
          rw [Option.toList_none]
          refine ⟨?_, h.calls.move hcall _ [] ?_ ?_, h.replayed_append ?_⟩
          · rw [List.append_nil]
            exact h.records.congr rfl rfl rfl
          · exact fun hdone => by cases hdone
          · exact fun _ _ _ hnone => absurd hnone List.not_mem_nil
          · exact fun _ _ _ _ hnone => absurd hnone List.not_mem_nil
      | some shown =>
          obtain ⟨response, rfl⟩ := hevent shown rfl
          rw [Option.toList_some]
          refine ⟨?_, h.calls.move hcall _ _ ?_ ?_, h.replayed_append ?_⟩
          · exact (h.records.extend (fun _ => rfl) fun _ hsame => by cases hsame).congr rfl rfl
              rfl
          · exact fun hdone => by cases hdone
          · exact fun _ _ _ hmem => by cases List.mem_singleton.mp hmem
          · exact fun _ _ _ _ hmem => by cases List.mem_singleton.mp hmem
  | ticked millis =>
      rw [Option.toList_none, List.append_nil]
      exact ⟨h.records.tick millis, h.calls, h.replayed⟩
  | tokenDeleted tokenId =>
      rw [Option.toList_some]
      refine ⟨h.records.deleteToken tokenId, h.calls.extend _ ?_, h.replayed_append ?_⟩
      · exact fun _ _ _ hsame => by cases hsame
      · exact fun _ _ _ _ hmem => by cases List.mem_singleton.mp hmem

end ApiSound

theorem apiSound_of_reachable (htext : text.RoundTrips) {log : List ApiEvent} {s : Api}
    (h : Reachable (observedCalls text sha256) (log, s)) : ApiSound text sha256 log s := by
  refine h.invariant (P := fun state => ApiSound text sha256 state.1 state.2) ?_ ?_
  · rintro ⟨log, s⟩ ⟨rfl, hrecords, hcalls⟩
    constructor
    · constructor
      · rw [hrecords]
        exact List.nodup_nil
      · rw [hrecords]
        exact fun _ hnone => absurd hnone List.not_mem_nil
      · exact fun _ _ _ _ hnone => absurd hnone List.not_mem_nil
      · exact fun _ hnone => absurd hnone List.not_mem_nil
      · exact fun _ => .nil
    · constructor
      · intro index call hcall
        rw [hcalls, List.getElem?_nil] at hcall
        cases hcall
      · exact fun _ _ _ hnone => absurd hnone List.not_mem_nil
    · exact fun _ _ _ _ hnone => absurd hnone List.not_mem_nil
  · rintro ⟨log, s⟩ action ⟨log', s'⟩ _ _ hsound hstep
    obtain ⟨hmoved, rfl⟩ := step_logged_eq_some.mp hstep
    obtain ⟨⟨s₁, event⟩, hact, rfl⟩ := Option.map_eq_some_iff.mp hmoved
    have hevent : (s.act text sha256 action).bind (·.2) = event := by
      rw [hact]
      rfl
    rw [hevent]
    exact hsound.change htext (Api.changes_act hact)

/-- A lookup was taken in the state that the events before it had led to. -/
theorem lookup_of_reachable {before after : List ApiEvent} {s : Api} {index time : Nat}
    {request : IdempotentRequest} {found : Except Response (Option Response)}
    (h : Reachable (observedCalls text sha256)
      (before ++ .lookedUp index request time found :: after, s)) :
    ∃ s₁, Reachable (observedCalls text sha256) (before, s₁) ∧ time = s₁.now ∧
      idempotencyReplay text (findRecord s₁.records request.owner)
        (stableRequestHash sha256 request.parts) = found := by
  obtain ⟨s₁, action, s₂, hbefore, hstep, hevent⟩ := Reachable.of_logged h
  obtain ⟨⟨s₃, event⟩, hact, -⟩ := Option.map_eq_some_iff.mp hstep
  have hshown : event = some (.lookedUp index request time found) := by
    rw [hact] at hevent
    exact hevent
  refine ⟨s₁, hbefore, ?_⟩
  have hchange := Api.changes_act hact
  rw [hshown] at hchange
  cases hchange with
  | lookedUp hcall hfound => exact ⟨rfl, hfound⟩
  | closed hcall hclosed =>
      obtain ⟨response, hfailed⟩ := hclosed _ rfl
      cases hfailed

/-- Two byte strings with one digest. -/
def Collides (sha256 : List UInt8 → List UInt8) (bytes bytes' : List UInt8) : Prop :=
  bytes ≠ bytes' ∧ sha256 bytes = sha256 bytes'

/-- Parts whose lengths fit in eight bytes. -/
def IdempotentRequest.Fits (request : IdempotentRequest) : Prop :=
  ∀ part ∈ request.parts, part.length < 256 ^ 8

/-- An answer that is given again is the recorded answer of a request under the same key with the
same parts, unless SHA-256 collides on them. Answers recorded under one key lie a day apart. -/
theorem retried_answers_agree (htext : text.RoundTrips) {log : List ApiEvent} {s : Api}
    (h : Reachable (observedCalls text sha256) (log, s)) :
    (∀ index request time response,
      .lookedUp index request time (.ok (some response)) ∈ log →
        ∃ index' request' time', .created index' request' response time' ∈ log ∧
          request'.owner = request.owner ∧ (request'.Fits → request.Fits →
            request'.parts = request.parts ∨
            Collides sha256 (framed request'.parts) (framed request.parts))) ∧
    ∀ owner, (log.filterMap (createdAt owner)).Pairwise
      fun time time' => time + recordLife ≤ time' := by
  have hsound := apiSound_of_reachable htext h
  refine ⟨fun index request time response hmem => ?_, hsound.records.apart⟩
  obtain ⟨index', request', time', hcreated, howner, hhash⟩ :=
    hsound.replayed index request time response hmem
  refine ⟨index', request', time', hcreated, howner, fun hfits' hfits => ?_⟩
  by_cases hbytes : framed request'.parts = framed request.parts
  · exact .inl (framed_injective hfits' hfits hbytes)
  · exact .inr ⟨hbytes, hexText_injective hhash⟩

/-- Within a day of a recorded answer, and while the token exists, a lookup of the key gives that
answer to the same request and refuses any other. -/
theorem live_key_decides (htext : text.RoundTrips) {before after : List ApiEvent} {s : Api}
    {index index' time time' : Nat} {request request' : IdempotentRequest}
    {found : Except Response (Option Response)} {response : Response}
    (h : Reachable (observedCalls text sha256)
      (before ++ .lookedUp index request time found :: after, s))
    (hcreated : .created index' request' response time' ∈ before)
    (howner : request'.owner = request.owner) (hlive : time < time' + recordLife)
    (htoken : .tokenDeleted request.owner.tokenId ∉ before) :
    found = if stableRequestHash sha256 request'.parts = stableRequestHash sha256 request.parts
      then .ok (some response) else .error contentConflict := by
  obtain ⟨s₁, hbefore, rfl, rfl⟩ := lookup_of_reachable h
  rw [← howner] at htoken ⊢
  exact (apiSound_of_reachable htext hbefore).records.replay_of_live htext hcreated hlive htoken
    (stableRequestHash sha256 request.parts)

/-- A call creates something only behind a lookup at which every answer recorded under its key
was a day old, or its token was deleted. -/
theorem performed_after_lookup (htext : text.RoundTrips) {log : List ApiEvent} {s : Api}
    (h : Reachable (observedCalls text sha256) (log, s)) {index : Nat}
    {request : IdempotentRequest} {created : Created}
    (hperformed : .performed index request created ∈ log) :
    ∃ before time after, log = before ++ .lookedUp index request time (.ok none) :: after ∧
      ∀ index' request' response time', .created index' request' response time' ∈ before →
        request'.owner = request.owner →
          time' + recordLife ≤ time ∨ .tokenDeleted request.owner.tokenId ∈ before := by
  obtain ⟨time, hlookup⟩ := (apiSound_of_reachable htext h).calls.performed index request created
    hperformed
  obtain ⟨before, after, rfl⟩ := List.append_of_mem hlookup
  refine ⟨before, time, after, rfl, fun index' request' response time' hcreated howner => ?_⟩
  by_contra hlive
  rw [not_or, not_le] at hlive
  have hfound := live_key_decides htext h hcreated howner hlive.1 hlive.2
  split at hfound
  · cases hfound
  · cases hfound

namespace Sample

def releaseBody : Json := .object [("data", .object [("unit_release_id", .int 7)])]

def bodyCodec : JsonText where
  toString value :=
    if value = releaseBody then .ok (String.ofList releaseBody.compact)
    else .error "unexpected value"
  fromStr written :=
    if written = String.ofList releaseBody.compact then .ok releaseBody
    else .error "unexpected text"

theorem roundTrips_bodyCodec : bodyCodec.RoundTrips := by
  intro value written h
  simp only [bodyCodec] at h ⊢
  split at h
  · rename_i hvalue
    rw [← Except.ok.inj h, if_pos rfl, hvalue]
  · cases h

def upload : IdempotentRequest :=
  apiV1UploadUnitRelease 1 "retry" "shop" "api" "1.0.0" "api.zip" "ab"

/-- The header `retry`. -/
def header : Option (List UInt8) := some [114, 101, 116, 114, 121]

/-- A stand-in for SHA-256. -/
def digest (bytes : List UInt8) : List UInt8 := bytes.take 32

/-- A call to its end, and the same request a second later. -/
def retry : List ApiAction :=
  [.receive header upload, .statement 0 true, .statement 0 true, .work 0 (.ok ⟨"7", releaseBody⟩),
    .statement 0 true, .tick 1000, .receive header upload, .statement 1 true, .statement 1 true]

def retryLog : List ApiEvent :=
  [.lookedUp 0 upload 0 (.ok none), .performed 0 upload ⟨"7", releaseBody⟩,
    .created 0 upload ⟨201, releaseBody⟩ 0,
    .lookedUp 1 upload 1000 (.ok (some ⟨201, releaseBody⟩))]

theorem reachable_retry :
    ∃ s, Reachable (observedCalls bodyCodec digest) (retryLog, s) := by
  have hexec : ((observedCalls bodyCodec digest).exec ([], ⟨[1], [], [], 0⟩) retry).map (·.1) =
      some retryLog := by rfl
  obtain ⟨⟨log, s⟩, hexec, hlog⟩ := Option.map_eq_some_iff.mp hexec
  subst hlog
  exact ⟨s, Reachable.exec (.start ⟨rfl, rfl, rfl⟩) hexec⟩

/-- A request that is sent again while its record is alive. -/
theorem retried_answers_agree_retry :
    (∀ index request time response,
      .lookedUp index request time (.ok (some response)) ∈ retryLog →
        ∃ index' request' time', .created index' request' response time' ∈ retryLog ∧
          request'.owner = request.owner ∧ (request'.Fits → request.Fits →
            request'.parts = request.parts ∨
            Collides digest (framed request'.parts) (framed request.parts))) ∧
    ∀ owner, (retryLog.filterMap (createdAt owner)).Pairwise
      fun time time' => time + recordLife ≤ time' := by
  obtain ⟨s, hreachable⟩ := reachable_retry
  exact retried_answers_agree roundTrips_bodyCodec hreachable

/-- The record of the first request answers the second one. -/
theorem live_key_decides_retry :
    (.ok (some ⟨201, releaseBody⟩) : Except Response (Option Response)) =
      if stableRequestHash digest upload.parts = stableRequestHash digest upload.parts
      then .ok (some ⟨201, releaseBody⟩) else .error contentConflict := by
  obtain ⟨s, hreachable⟩ := reachable_retry
  have hlog : Reachable (observedCalls bodyCodec digest)
      (retryLog.take 3 ++ .lookedUp 1 upload 1000 (.ok (some ⟨201, releaseBody⟩)) :: [], s) :=
    hreachable
  exact live_key_decides roundTrips_bodyCodec hlog (List.mem_of_mem_getLast? rfl) rfl
    (by decide) (by simp [retryLog])

/-- The first of the two requests is looked up before it is performed. -/
theorem performed_after_lookup_retry :
    ∃ before time after,
      retryLog = before ++ .lookedUp 0 upload time (.ok none) :: after ∧
      ∀ index' request' response time', .created index' request' response time' ∈ before →
        request'.owner = upload.owner →
          time' + recordLife ≤ time ∨ .tokenDeleted upload.owner.tokenId ∈ before := by
  obtain ⟨s, hreachable⟩ := reachable_retry
  exact performed_after_lookup roundTrips_bodyCodec hreachable
    (List.mem_cons_of_mem _ List.mem_cons_self)

end Sample

end EasyDeploy.Web
