import EasyDeploy.Foundation.Transition
import EasyDeploy.Web.IdempotencyRecords

/-!
# Calls with idempotency keys

Calls of the two endpoints run beside each other, one statement at a time:
expired records are deleted, the record of the key is looked up, the release is
created, and its answer is recorded. Tokens may be deleted and time may pass
between any two of them, and a call may end anywhere when the server stops.
-/

namespace EasyDeploy.Web
open Foundation

/-- Why nothing was created. -/
inductive WorkError
  | packageStage (message : String)
  | unitVersionExists (message : String)
  | validation (message : String)
  | conflict (message : String)
  | notFound (message : String)
  | database (message : String)
deriving Repr, DecidableEq

/-- `application_release_api_error`, and the errors of staging. -/
def WorkError.response : WorkError → Response
  | packageStage message => apiErrorCode 409 "PACKAGE_STAGE_FAILED" message
  | unitVersionExists message => apiErrorCode 409 "UNIT_VERSION_EXISTS" message
  | validation message => apiErrorCode 400 "VALIDATION_ERROR" message
  | conflict message => apiErrorCode 409 "VERSION_CONFLICT" message
  | notFound message => apiErrorCode 404 "RESOURCE_NOT_FOUND" message
  | database message => apiErrorCode 500 "DATABASE_ERROR" message

/-- What a call does next. -/
inductive CallStage
  | purging
  | lookingUp
  | working
  | storing (created : Created)
  | closed
deriving Repr, DecidableEq

/-- A call with what it has read. -/
structure ApiCall where
  request : IdempotentRequest
  stage : CallStage
deriving Repr, DecidableEq

/-- The tokens that exist, the records, and the calls in the order of their arrival. -/
structure Api where
  tokens : List Int
  records : List IdempotencyRecord
  calls : List ApiCall
  now : Nat
deriving Repr, DecidableEq

/-- The statements of the calls. -/
inductive ApiAction
  /-- A request and its `Idempotency-Key` header, which gives the key. -/
  | receive (header : Option (List UInt8)) (request : IdempotentRequest)
  /-- A statement of a call, which the database may fail. -/
  | statement (call : Nat) (works : Bool)
  | work (call : Nat) (outcome : Except WorkError Created)
  | abandon (call : Nat)
  | tick (millis : Nat)
  | deleteToken (tokenId : Int)
deriving Repr

/-- What a step of a call shows; a replay and a refusal are the answer of the call. -/
inductive ApiEvent
  | lookedUp (call : Nat) (request : IdempotentRequest) (time : Nat)
      (found : Except Response (Option Response))
  | performed (call : Nat) (request : IdempotentRequest) (created : Created)
  /-- The answer was recorded and given. -/
  | created (call : Nat) (request : IdempotentRequest) (response : Response) (time : Nat)
  | failed (call : Nat) (request : IdempotentRequest) (response : Response)
  | tokenDeleted (tokenId : Int)
deriving Repr

namespace Api

variable (text : JsonText) (sha256 : List UInt8 → List UInt8) (s : Api)

/-- A call is at another stage. -/
def moveCall (index : Nat) (call : ApiCall) (stage : CallStage) : Api :=
  { s with calls := s.calls.set index { call with stage } }

/-- The stage behind a lookup. -/
def stageAfter : Except Response (Option Response) → CallStage
  | .ok none => .working
  | _ => .closed

/-- A statement of a call that the database executes. -/
def execute (index : Nat) (call : ApiCall) : Option (Api × Option ApiEvent) :=
  match call.stage with
  | .purging =>
      some ({ s.moveCall index call .lookingUp with records := purgeExpired s.records s.now }, none)
  | .lookingUp =>
      let found := idempotencyReplay text (findRecord s.records call.request.owner)
        (stableRequestHash sha256 call.request.parts)
      some (s.moveCall index call (stageAfter found),
        some (.lookedUp index call.request s.now found))
  | .storing created =>
      match storeIdempotencyResponse text sha256 s.tokens s.records call.request created s.now with
      | .ok records =>
          some ({ s.moveCall index call .closed with records },
            some (.created index call.request created.response s.now))
      | .error response =>
          some (s.moveCall index call .closed, some (.failed index call.request response))
  | .working | .closed => none

/-- A statement of a call that the database fails. -/
def fail (index : Nat) (call : ApiCall) : Option (Api × Option ApiEvent) :=
  match call.stage with
  | .purging | .lookingUp | .storing _ =>
      some (s.moveCall index call .closed,
        some (.failed index call.request (databaseError "the database failed")))
  | .working | .closed => none

/-- The effect of a call. -/
def perform (index : Nat) (call : ApiCall) (outcome : Except WorkError Created) :
    Option (Api × Option ApiEvent) :=
  match call.stage with
  | .working =>
      match outcome with
      | .ok created =>
          some (s.moveCall index call (.storing created),
            some (.performed index call.request created))
      | .error error =>
          some (s.moveCall index call .closed,
            some (.failed index call.request error.response))
  | _ => none

/-- The step of an action with what it records. -/
def act : ApiAction → Option (Api × Option ApiEvent)
  | .receive header request =>
      if request.owner.tokenId ∈ s.tokens then
        match requiredIdempotencyKey header with
        | .ok key => some ({ s with calls := s.calls ++ [⟨request.withKey key, .purging⟩] }, none)
        | .error _ => none
      else none
  | .statement index works =>
      s.calls[index]?.bind fun call =>
        if works then s.execute text sha256 index call else s.fail index call
  | .work index outcome => s.calls[index]?.bind fun call => s.perform index call outcome
  | .abandon index => s.calls[index]?.map fun call => (s.moveCall index call .closed, none)
  | .tick millis => some ({ s with now := s.now + millis }, none)
  | .deleteToken tokenId =>
      some ({ s with
        tokens := s.tokens.filter fun id => id != tokenId
        records := s.records.filter fun record => record.owner.tokenId != tokenId },
        some (.tokenDeleted tokenId))

end Api

/-- Calls beside each other, from an empty table of records. -/
def idempotentCalls (text : JsonText) (sha256 : List UInt8 → List UInt8) :
    Transition Api ApiAction where
  initial s := s.records = [] ∧ s.calls = []
  step s action := (s.act text sha256 action).map (·.1)

/-- The same runs with what they show. -/
def observedCalls (text : JsonText) (sha256 : List UInt8 → List UInt8) :
    Transition (List ApiEvent × Api) ApiAction :=
  (idempotentCalls text sha256).logged fun s action => (s.act text sha256 action).bind (·.2)

end EasyDeploy.Web
