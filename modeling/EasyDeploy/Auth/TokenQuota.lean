import EasyDeploy.Auth.Accounts
import EasyDeploy.Foundation.Transaction
import EasyDeploy.Foundation.Transition
import Mathlib.Data.List.DropRight

/-!
# Quotas of API tokens

A request with an API token takes a slot of the token in a transaction. The slot
is given back when the permit of the request is dropped. The permit comes into
being only after two more queries, and the slots are in the database, so that a
request that ends early or a process that ends keeps its slots.
-/

namespace EasyDeploy.Auth
open Foundation Foundation.Statements Foundation.Transition

/-- The limits of a token, as the schema checks them. -/
structure TokenLimits where
  rateLimitPerMinute : Int
  maxConcurrentRequests : Int
  rate : 1 ≤ rateLimitPerMinute ∧ rateLimitPerMinute ≤ 10000
  concurrency : 1 ≤ maxConcurrentRequests ∧ maxConcurrentRequests ≤ 100
deriving Repr, DecidableEq

/-- The limits of a new token. -/
def TokenLimits.default : TokenLimits := ⟨60, 2, by decide, by decide⟩

/-- A row of `api_tokens`; times are in milliseconds, and a window that is not open has no
start. -/
structure ApiToken where
  id : Int
  accountId : Int
  tokenHash : String
  source : String
  active : Bool
  appScopeJson : String
  unitScopeJson : String
  expiresAt : Option Int
  limits : TokenLimits
  rateWindowStartedAt : Option Int
  rateWindowCount : Int
  activeRequestCount : Int
  lastUsedAt : Option Int
  lastUsedIp : String
deriving Repr, DecidableEq

namespace ApiToken

variable (now : Int) (token : ApiToken)

/-- Whether the time of a token is over. -/
def expired : Bool := token.expiresAt.any fun expiresAt => decide (expiresAt ≤ now)

/-- The next request opens a window. -/
def windowEnded : Bool :=
  match token.rateWindowStartedAt with
  | none => true
  | some startedAt => decide (startedAt ≤ now - 60000)

/-- The condition of the quota statement. -/
def withinQuota : Bool :=
  decide (token.activeRequestCount < token.limits.maxConcurrentRequests) &&
    (token.windowEnded now || decide (token.rateWindowCount < token.limits.rateLimitPerMinute))

/-- The quota statement. -/
def take (clientIp : String) : ApiToken :=
  { token with
    rateWindowCount := if token.windowEnded now then 1 else token.rateWindowCount + 1
    rateWindowStartedAt := if token.windowEnded now then some now else token.rateWindowStartedAt
    activeRequestCount := token.activeRequestCount + 1
    lastUsedAt := some now
    lastUsedIp := clientIp }

/-- The statement of a dropped permit. -/
def release : ApiToken :=
  { token with activeRequestCount := max (token.activeRequestCount - 1) 0 }

/-- No request has used the token. -/
def Unused : Prop :=
  token.rateWindowStartedAt = none ∧ token.rateWindowCount = 0 ∧ token.activeRequestCount = 0

end ApiToken

/-- A request that has got a slot; the roles come first, then the permissions. -/
structure Admission where
  tokenId : Int
  accountId : Int
  source : String
  appScopeIds : List Int
  unitScopeIds : List Int
  roleCodes : Option (List String)
deriving Repr, DecidableEq

/-- An `ApiTokenAuthSession`, which holds the permit of its request. -/
structure ApiTokenAuthSession where
  tokenId : Int
  accountId : Int
  source : String
  appScopeIds : List Int
  unitScopeIds : List Int
  roleCodes : List String
  permissionKeys : List String
deriving Repr, DecidableEq

/-- The statements of the quota transaction. -/
inductive TokenStatement
  | begin
  | select
  | update
  | commit
deriving Repr, DecidableEq

/-- The row that the transaction reads. -/
def findToken (database : Database) (now : Int) (tokenHash : String) (tokens : List ApiToken) :
    Option ApiToken :=
  tokens.find? fun token => token.tokenHash == tokenHash && token.active && !token.expired now &&
    (database.account token.accountId).any fun account => account.status == .active

/-- The transaction of `authenticate_api_token`; `parseIds` reads a list of numbers. -/
def admitRequest (parseIds : String → Option (List Int))
    (faults : TokenStatement → Option AuthError) (database : Database) (now : Int)
    (tokenHash clientIp : String) : Statements (List ApiToken) AuthError Admission := do
  statement (faults .begin) fun tokens => .ok ((), tokens)
  let token ← query (faults .select) fun tokens =>
    match findToken database now tokenHash tokens with
    | none => .error (.unauthorized "API Token 无效或已吊销")
    | some token => .ok token
  let appScopeIds ← compute (match parseIds token.appScopeJson with
    | none => .error (.internal "API Token 应用范围配置损坏")
    | some ids => .ok ids)
  let unitScopeIds ← compute (match parseIds token.unitScopeJson with
    | none => .error (.internal "API Token 部署单元范围配置损坏")
    | some ids => .ok ids)
  let affected ← statement (faults .update) fun tokens =>
    .ok (affectedAt tokens (·.id) token.id (·.withinQuota now),
      updateAt tokens (·.id) token.id (·.withinQuota now) (·.take now clientIp))
  check (affected = 1) (.rateLimited "API Token 请求过于频繁或并发数已达到上限")
  statement (faults .commit) fun tokens => .ok ((), tokens)
  pure ⟨token.id, token.accountId, token.source, appScopeIds, unitScopeIds, none⟩

/-- The tokens with the requests under way. -/
structure TokenService where
  database : Database
  tokens : List ApiToken
  /-- The last number that the table has given out. -/
  lastTokenId : Int
  admitted : List Admission
  permits : List ApiTokenAuthSession
  /-- Permits that have been dropped and whose statement is still to come. -/
  releasing : List Int
deriving Repr, DecidableEq

/-- A permit is dropped inside the runtime or outside of it; the statement of a dropped permit may
fail, and the process may end. -/
inductive TokenAction
  | createApiToken (accountId : Int) (tokenHash source : String)
  | revokeApiToken (tokenId : Int)
  | deleteRevokedApiToken (tokenId : Int)
  | authenticate (faults : TokenStatement → Option AuthError) (now : Int)
      (tokenHash clientIp : String)
  | readRoles (admission : Admission)
  | readPermissions (admission : Admission)
  | abandon (admission : Admission)
  | dropPermit (session : ApiTokenAuthSession) (spawns : Bool)
  | release (tokenId : Int) (works : Bool)
  | administer (database : Database)
  | restart

namespace TokenService

variable (parseIds : String → Option (List Int)) (service : TokenService)

/-- The answer of the quota transaction and the table behind it. -/
def admission (faults : TokenStatement → Option AuthError) (now : Int)
    (tokenHash clientIp : String) : Except AuthError Admission × List ApiToken :=
  transact (admitRequest parseIds faults service.database now tokenHash clientIp) service.tokens

def step : TokenAction → Option TokenService
  | .createApiToken accountId tokenHash source =>
      if service.tokens.any fun token => token.tokenHash == tokenHash then
        none
      else
        let id := service.lastTokenId + 1
        some { service with
          lastTokenId := id
          tokens := service.tokens ++ [⟨id, accountId, tokenHash, source, true, "[]", "[]", none,
            .default, none, 0, 0, none, ""⟩] }
  | .revokeApiToken tokenId =>
      some { service with
        tokens := updateAt service.tokens (·.id) tokenId (·.active) fun token =>
          { token with active := false } }
  | .deleteRevokedApiToken tokenId =>
      some { service with
        tokens := service.tokens.filter fun token => token.id != tokenId || token.active }
  | .authenticate faults now tokenHash clientIp =>
      match service.admission parseIds faults now tokenHash clientIp with
      | (.ok admission, tokens) =>
          some { service with tokens, admitted := service.admitted ++ [admission] }
      | (.error _, tokens) => some { service with tokens }
  | .readRoles admission =>
      if admission ∈ service.admitted ∧ admission.roleCodes = none then
        some { service with
          admitted := service.admitted.erase admission ++
            [{ admission with
              roleCodes := some (service.database.roleCodes admission.accountId) }] }
      else
        none
  | .readPermissions admission =>
      match admission.roleCodes with
      | some roleCodes =>
          if admission ∈ service.admitted then
            some { service with
              admitted := service.admitted.erase admission
              permits := service.permits ++
                [⟨admission.tokenId, admission.accountId, admission.source,
                  admission.appScopeIds, admission.unitScopeIds, roleCodes,
                  service.database.permissionKeys admission.accountId⟩] }
          else
            none
      | none => none
  | .abandon admission =>
      if admission ∈ service.admitted then
        some { service with admitted := service.admitted.erase admission }
      else
        none
  | .dropPermit session spawns =>
      if session ∈ service.permits then
        some { service with
          permits := service.permits.erase session
          releasing := service.releasing ++ if spawns then [session.tokenId] else [] }
      else
        none
  | .release tokenId works =>
      if tokenId ∈ service.releasing then
        some { service with
          tokens := if works then
              updateAt service.tokens (·.id) tokenId (fun _ => true) ApiToken.release
            else
              service.tokens
          releasing := service.releasing.erase tokenId }
      else
        none
  | .administer database => some { service with database }
  | .restart => some { service with admitted := [], permits := [], releasing := [] }

/-- The requests of a token between the quota statement and their permit. -/
def admissions (tokenId : Int) : Nat :=
  service.admitted.countP fun admission => admission.tokenId == tokenId

/-- The live permits of a token. -/
def requests (tokenId : Int) : Nat :=
  service.permits.countP fun session => session.tokenId == tokenId

/-- The releases of a token that are in flight. -/
def releases (tokenId : Int) : Nat := service.releasing.countP fun id => id == tokenId

/-- The slots of a token that somebody will give back. -/
def held (tokenId : Int) : Nat :=
  service.admissions tokenId + service.requests tokenId + service.releases tokenId

/-- Tokens that nobody has used, and no request. -/
structure Initial : Prop where
  keyed : Keyed service.tokens (·.id)
  numbered : ∀ token ∈ service.tokens, token.id ≤ service.lastTokenId
  unused : ∀ token ∈ service.tokens, token.Unused
  admitted : service.admitted = []
  permits : service.permits = []
  releasing : service.releasing = []

end TokenService

/-- A request of a token is accepted, as the first of a rate window or as a later one. -/
inductive TokenEvent
  | opened (tokenId : Int)
  | accepted (tokenId : Int)
deriving Repr, DecidableEq

/-- What a step tells the owner of a token. -/
def tokenEvent (parseIds : String → Option (List Int)) (service : TokenService) :
    TokenAction → Option TokenEvent
  | .authenticate faults now tokenHash clientIp =>
      match (service.admission parseIds faults now tokenHash clientIp).1 with
      | .ok admission => (service.tokens.find? fun token => token.id == admission.tokenId).map
          fun token => if token.windowEnded now then .opened token.id else .accepted token.id
      | .error _ => none
  | _ => none

/-- The service that starts without requests. -/
def tokenSystem (parseIds : String → Option (List Int)) : Transition TokenService TokenAction where
  initial := TokenService.Initial
  step service := service.step parseIds

/-- The service with the log of the requests that were accepted. -/
def tokenRequests (parseIds : String → Option (List Int)) :
    Transition (List TokenEvent × TokenService) TokenAction :=
  (tokenSystem parseIds).logged (tokenEvent parseIds)

/-- The number of requests that were accepted in the last rate window of a token. -/
def acceptedInWindow (log : List TokenEvent) (tokenId : Int) : Nat :=
  (log.rtakeWhile (· != .opened tokenId)).count (.accepted tokenId) +
    if .opened tokenId ∈ log then 1 else 0

section Counts

variable {log : List TokenEvent} {tokenId : Int} {event : TokenEvent}

theorem acceptedInWindow_opened : acceptedInWindow (log ++ [.opened tokenId]) tokenId = 1 := by
  rw [acceptedInWindow, List.rtakeWhile_concat, if_neg (by simp),
    if_pos (List.mem_append_right _ (List.mem_singleton_self _))]
  rfl

theorem acceptedInWindow_accepted :
    acceptedInWindow (log ++ [.accepted tokenId]) tokenId = acceptedInWindow log tokenId + 1 := by
  have hopened : TokenEvent.opened tokenId ∈ log ++ [.accepted tokenId] ↔
      TokenEvent.opened tokenId ∈ log := by simp
  simp only [acceptedInWindow, List.rtakeWhile_concat, hopened, if_pos (show
    (TokenEvent.accepted tokenId != .opened tokenId) = true from rfl), List.count_append,
    List.count_singleton_self]
  omega

theorem acceptedInWindow_other (hopened : event ≠ .opened tokenId)
    (haccepted : event ≠ .accepted tokenId) :
    acceptedInWindow (log ++ [event]) tokenId = acceptedInWindow log tokenId := by
  have hmem : TokenEvent.opened tokenId ∈ log ++ [event] ↔ TokenEvent.opened tokenId ∈ log := by
    simp [hopened.symm]
  have hcount : [event].count (.accepted tokenId) = 0 := by
    rw [List.count_singleton, if_neg (by simpa using haccepted)]
  simp only [acceptedInWindow, List.rtakeWhile_concat, hmem, if_pos (show
    (event != .opened tokenId) = true from bne_iff_ne.mpr hopened), List.count_append, hcount,
    Nat.add_zero]

end Counts

/-- No slot is lost: a request that has got a slot comes to its permit, a permit is given back with
a statement that works, and the process ends while no slot is taken. -/
def TokenService.Undisturbed (service : TokenService) : TokenAction → Prop
  | .abandon admission => ∀ token ∈ service.tokens, token.id ≠ admission.tokenId
  | .dropPermit session spawns => spawns = true ∨ ∀ token ∈ service.tokens,
      token.id ≠ session.tokenId
  | .release tokenId works => works = true ∨ ∀ token ∈ service.tokens, token.id ≠ tokenId
  | .restart => ∀ token ∈ service.tokens, service.held token.id = 0
  | _ => True

variable {parseIds : String → Option (List Int)} {service service' : TokenService}
  {log : List TokenEvent} {action : TokenAction}

/-- The tokens and the slots, before and after a step. -/
inductive Accounting (parseIds : String → Option (List Int)) (service service' : TokenService) :
    TokenAction → Prop
  | kept {action : TokenAction} (htokens : service'.tokens = service.tokens)
      (hlast : service'.lastTokenId = service.lastTokenId)
      (hheld : ∀ tokenId, service'.held tokenId ≤ service.held tokenId)
      (hbalanced : service.Undisturbed action → ∀ token ∈ service.tokens,
        service'.held token.id = service.held token.id)
      (hevent : tokenEvent parseIds service action = none) :
      Accounting parseIds service service' action
  | admitted {action : TokenAction} {now : Int} {clientIp : String} {token : ApiToken}
      (htoken : token ∈ service.tokens) (hquota : token.withinQuota now = true)
      (htokens : service'.tokens =
        updateAt service.tokens (·.id) token.id (·.withinQuota now) (·.take now clientIp))
      (hlast : service'.lastTokenId = service.lastTokenId)
      (hheld : ∀ tokenId, service'.held tokenId =
        service.held tokenId + if token.id = tokenId then 1 else 0)
      (hevent : tokenEvent parseIds service action =
        some (if token.windowEnded now then .opened token.id else .accepted token.id)) :
      Accounting parseIds service service' action
  | released {action : TokenAction} {released : Int}
      (htokens : service'.tokens =
        updateAt service.tokens (·.id) released (fun _ => true) ApiToken.release)
      (hlast : service'.lastTokenId = service.lastTokenId)
      (hheld : ∀ tokenId, service'.held tokenId + (if released = tokenId then 1 else 0) =
        service.held tokenId)
      (hevent : tokenEvent parseIds service action = none) :
      Accounting parseIds service service' action
  | created {action : TokenAction} {token : ApiToken} (hunused : token.Unused)
      (hid : token.id = service.lastTokenId + 1)
      (htokens : service'.tokens = service.tokens ++ [token])
      (hlast : service'.lastTokenId = token.id)
      (hheld : ∀ tokenId, service'.held tokenId = service.held tokenId)
      (hevent : tokenEvent parseIds service action = none) :
      Accounting parseIds service service' action
  | revoked {action : TokenAction} {revoked : Int}
      (htokens : service'.tokens = updateAt service.tokens (·.id) revoked (·.active) fun token =>
        { token with active := false })
      (hlast : service'.lastTokenId = service.lastTokenId)
      (hheld : ∀ tokenId, service'.held tokenId = service.held tokenId)
      (hevent : tokenEvent parseIds service action = none) :
      Accounting parseIds service service' action
  | deleted {action : TokenAction} (htokens : service'.tokens.Sublist service.tokens)
      (hlast : service'.lastTokenId = service.lastTokenId)
      (hheld : ∀ tokenId, service'.held tokenId = service.held tokenId)
      (hevent : tokenEvent parseIds service action = none) :
      Accounting parseIds service service' action

/-- A transaction that admits a request takes a slot of a token within its quota. -/
theorem admitRequest_eq_ok {faults : TokenStatement → Option AuthError} {database : Database}
    {now : Int} {tokenHash clientIp : String} {tokens tokens' : List ApiToken}
    {admission : Admission}
    (h : admitRequest parseIds faults database now tokenHash clientIp tokens =
      .ok (admission, tokens')) :
    ∃ token ∈ tokens, token.id = admission.tokenId ∧
      affectedAt tokens (·.id) token.id (·.withinQuota now) = 1 ∧
      tokens' = updateAt tokens (·.id) token.id (·.withinQuota now) (·.take now clientIp) := by
  unfold admitRequest at h
  obtain ⟨⟨⟩, between, hbegin, h⟩ := bind_eq_ok.mp h
  obtain rfl : tokens = between := (perform_eq_ok.mp hbegin).2
  obtain ⟨token, between, hselect, h⟩ := bind_eq_ok.mp h
  obtain ⟨-, hfound, rfl⟩ := query_eq_ok.mp hselect
  obtain ⟨appScopeIds, between, happs, h⟩ := bind_eq_ok.mp h
  obtain ⟨-, rfl⟩ := compute_eq_ok.mp happs
  obtain ⟨unitScopeIds, between, hunits, h⟩ := bind_eq_ok.mp h
  obtain ⟨-, rfl⟩ := compute_eq_ok.mp hunits
  obtain ⟨affected, between, hupdate, h⟩ := bind_eq_ok.mp h
  obtain ⟨haffected, rfl⟩ := Prod.mk.inj (Except.ok.inj (statement_eq_ok.mp hupdate).2)
  obtain ⟨⟨⟩, between, hcheck, h⟩ := bind_eq_ok.mp h
  obtain ⟨hone, rfl⟩ := check_eq_ok.mp hcheck
  obtain ⟨⟨⟩, between, hcommit, h⟩ := bind_eq_ok.mp h
  obtain rfl := (perform_eq_ok.mp hcommit).2
  obtain ⟨rfl, rfl⟩ := Prod.mk.inj (pure_eq_ok.mp h)
  split at hfound
  · cases hfound
  · rename_i found hmem
    obtain rfl := Except.ok.inj hfound
    exact ⟨found, List.mem_of_find?_eq_some hmem, rfl, haffected.trans hone, rfl⟩

theorem find?_id (hkeyed : Keyed service.tokens (·.id)) {token : ApiToken}
    (htoken : token ∈ service.tokens) :
    service.tokens.find? (fun row => row.id == token.id) = some token := by
  cases hfound : service.tokens.find? fun row => row.id == token.id with
  | none =>
      have hnone := List.find?_eq_none.mp hfound token htoken
      exact absurd (beq_self_eq_true _) hnone
  | some found =>
      have hid : found.id = token.id := by simpa using List.find?_some hfound
      rw [hkeyed.eq (List.mem_of_find?_eq_some hfound) htoken hid]

theorem withinQuota_of_affected (hkeyed : Keyed service.tokens (·.id)) {token : ApiToken}
    (htoken : token ∈ service.tokens) {now : Int}
    (haffected : affectedAt service.tokens (·.id) token.id (·.withinQuota now) = 1) :
    token.withinQuota now = true := by
  have hpos : 0 < affectedAt service.tokens (·.id) token.id (·.withinQuota now) := by omega
  obtain ⟨row, hrow, hwanted⟩ := List.countP_pos_iff.mp hpos
  rw [decide_eq_true_iff] at hwanted
  rw [← hkeyed.eq hrow htoken hwanted.1]
  exact hwanted.2

/-- A request is admitted within the quota of its token, or refused without a change. -/
theorem accounting_authenticate (hkeyed : Keyed service.tokens (·.id))
    {faults : TokenStatement → Option AuthError} {now : Int}
    {tokenHash clientIp : String}
    (hstep : service.step parseIds (.authenticate faults now tokenHash clientIp) = some service') :
    Accounting parseIds service service' (.authenticate faults now tokenHash clientIp) := by
  cases hresult : service.admission parseIds faults now tokenHash clientIp with
  | mk result tokens =>
  simp only [TokenService.step, hresult] at hstep
  cases result with
  | error error =>
      obtain rfl := Option.some.inj hstep
      have hsame := transact_eq_error (congrArg Prod.fst hresult)
      refine .kept ?_ rfl (fun _ => le_rfl) (fun _ _ _ => rfl) ?_
      · rw [TokenService.admission] at hresult
        rw [hresult] at hsame
        exact hsame
      · simp only [tokenEvent, hresult]
  | ok admission =>
      obtain rfl := Option.some.inj hstep
      obtain ⟨token, htoken, hid, haffected, rfl⟩ :=
        admitRequest_eq_ok (transact_eq_ok.mp hresult)
      refine .admitted htoken (withinQuota_of_affected hkeyed htoken haffected) rfl rfl ?_ ?_
      · intro tokenId
        simp only [TokenService.held, TokenService.admissions, TokenService.requests,
          TokenService.releases, List.countP_append, List.countP_singleton, beq_iff_eq, hid]
        omega
      · simp only [tokenEvent, hresult, ← hid, find?_id hkeyed htoken, Option.map_some]

/-- A request keeps its slot while its roles are read. -/
theorem accounting_readRoles {admission : Admission}
    (hstep : service.step parseIds (.readRoles admission) = some service') :
    Accounting parseIds service service' (.readRoles admission) := by
  simp only [TokenService.step] at hstep
  split at hstep
  · rename_i hwanted
    obtain rfl := Option.some.inj hstep
    have hheld (tokenId : Int) : TokenService.held { service with
        admitted := service.admitted.erase admission ++
          [{ admission with
            roleCodes := some (service.database.roleCodes admission.accountId) }] } tokenId =
        service.held tokenId := by
      have herase := countP_erase_add hwanted.1 fun admission => admission.tokenId == tokenId
      simp only [TokenService.held, TokenService.admissions, TokenService.requests,
        TokenService.releases, List.countP_append, List.countP_singleton]
      omega
    exact .kept rfl rfl (fun tokenId => (hheld tokenId).le) (fun _ _ _ => hheld _) rfl
  · cases hstep

/-- A request passes its slot on to its permit. -/
theorem accounting_readPermissions {admission : Admission}
    (hstep : service.step parseIds (.readPermissions admission) = some service') :
    Accounting parseIds service service' (.readPermissions admission) := by
  simp only [TokenService.step] at hstep
  split at hstep
  · rename_i roleCodes hroles
    split at hstep
    · rename_i hmem
      obtain rfl := Option.some.inj hstep
      have hheld (tokenId : Int) : TokenService.held { service with
          admitted := service.admitted.erase admission
          permits := service.permits ++
            [⟨admission.tokenId, admission.accountId, admission.source,
              admission.appScopeIds, admission.unitScopeIds, roleCodes,
              service.database.permissionKeys admission.accountId⟩] } tokenId =
          service.held tokenId := by
        have herase := countP_erase_add hmem fun admission => admission.tokenId == tokenId
        simp only [TokenService.held, TokenService.admissions, TokenService.requests,
          TokenService.releases, List.countP_append, List.countP_singleton]
        omega
      exact .kept rfl rfl (fun tokenId => (hheld tokenId).le) (fun _ _ _ => hheld _) rfl
    · cases hstep
  · cases hstep

/-- A request that ends before its permit loses its slot. -/
theorem accounting_abandon {admission : Admission}
    (hstep : service.step parseIds (.abandon admission) = some service') :
    Accounting parseIds service service' (.abandon admission) := by
  simp only [TokenService.step] at hstep
  split at hstep
  · rename_i hmem
    obtain rfl := Option.some.inj hstep
    have hheld (tokenId : Int) : TokenService.held { service with
        admitted := service.admitted.erase admission } tokenId +
          (if admission.tokenId = tokenId then 1 else 0) = service.held tokenId := by
      have herase := countP_erase_add hmem fun admission => admission.tokenId == tokenId
      simp only [beq_iff_eq] at herase
      simp only [TokenService.held, TokenService.admissions, TokenService.requests,
        TokenService.releases]
      omega
    refine .kept rfl rfl (fun tokenId => ?_) (fun hgone token htoken => ?_) rfl
    · have hless := hheld tokenId
      omega
    · have hless := hheld token.id
      rw [if_neg (hgone token htoken).symm] at hless
      omega
  · cases hstep

/-- A permit passes its slot on to its release, if that is spawned. -/
theorem accounting_dropPermit {session : ApiTokenAuthSession} {spawns : Bool}
    (hstep : service.step parseIds (.dropPermit session spawns) = some service') :
    Accounting parseIds service service' (.dropPermit session spawns) := by
  simp only [TokenService.step] at hstep
  split at hstep
  · rename_i hmem
    obtain rfl := Option.some.inj hstep
    have hheld (tokenId : Int) : TokenService.held { service with
        permits := service.permits.erase session
        releasing := service.releasing ++ if spawns then [session.tokenId] else [] } tokenId +
          (if spawns = false ∧ session.tokenId = tokenId then 1 else 0) =
        service.held tokenId := by
      have herase := countP_erase_add hmem fun session => session.tokenId == tokenId
      simp only [beq_iff_eq] at herase
      cases spawns with
      | false =>
          simp only [TokenService.held, TokenService.admissions, TokenService.requests,
            TokenService.releases, List.countP_append, Bool.false_eq_true, if_false,
            List.countP_nil, true_and]
          omega
      | true =>
          simp only [TokenService.held, TokenService.admissions, TokenService.requests,
            TokenService.releases, List.countP_append, if_true, List.countP_singleton,
            beq_iff_eq, Bool.true_eq_false, false_and, if_false]
          omega
    refine .kept rfl rfl (fun tokenId => ?_) (fun hkept token htoken => ?_) rfl
    · have hless := hheld tokenId
      omega
    · have hnot : ¬ (spawns = false ∧ session.tokenId = token.id) := by
        rintro ⟨hlost, hid⟩
        rcases hkept with hspawns | hgone
        · rw [hlost] at hspawns
          cases hspawns
        · exact hgone token htoken hid.symm
      have hless := hheld token.id
      rw [if_neg hnot] at hless
      omega
  · cases hstep

/-- A release frees its slot, if its statement works. -/
theorem accounting_release {tokenId : Int} {works : Bool}
    (hstep : service.step parseIds (.release tokenId works) = some service') :
    Accounting parseIds service service' (.release tokenId works) := by
  simp only [TokenService.step] at hstep
  split at hstep
  · rename_i hmem
    have hheld (tokens : List ApiToken) (other : Int) : TokenService.held { service with
        tokens, releasing := service.releasing.erase tokenId } other +
          (if tokenId = other then 1 else 0) = service.held other := by
      have herase := countP_erase_add hmem fun id => id == other
      simp only [beq_iff_eq] at herase
      simp only [TokenService.held, TokenService.admissions, TokenService.requests,
        TokenService.releases]
      omega
    obtain rfl := Option.some.inj hstep
    cases works with
    | true => exact .released rfl rfl (hheld _) rfl
    | false =>
        refine .kept rfl rfl (fun other => ?_) (fun hkept token htoken => ?_) rfl
        · have hless := hheld service.tokens other
          simp only [Bool.false_eq_true, if_false]
          omega
        · have hless := hheld service.tokens token.id
          rcases hkept with hworks | hgone
          · cases hworks
          · rw [if_neg (hgone token htoken).symm] at hless
            simp only [Bool.false_eq_true, if_false]
            omega
  · cases hstep

theorem accounting_of_step (hkeyed : Keyed service.tokens (·.id))
    (hstep : service.step parseIds action = some service') :
    Accounting parseIds service service' action := by
  cases action with
  | createApiToken accountId tokenHash source =>
      simp only [TokenService.step] at hstep
      split at hstep
      · cases hstep
      · obtain rfl := Option.some.inj hstep
        exact .created ⟨rfl, rfl, rfl⟩ rfl rfl rfl (fun _ => rfl) rfl
  | revokeApiToken tokenId =>
      obtain rfl := Option.some.inj hstep
      exact .revoked rfl rfl (fun _ => rfl) rfl
  | deleteRevokedApiToken tokenId =>
      obtain rfl := Option.some.inj hstep
      exact .deleted List.filter_sublist rfl (fun _ => rfl) rfl
  | authenticate faults now tokenHash clientIp => exact accounting_authenticate hkeyed hstep
  | readRoles admission => exact accounting_readRoles hstep
  | readPermissions admission => exact accounting_readPermissions hstep
  | abandon admission => exact accounting_abandon hstep
  | dropPermit session spawns => exact accounting_dropPermit hstep
  | release tokenId works => exact accounting_release hstep
  | administer database =>
      obtain rfl := Option.some.inj hstep
      exact .kept rfl rfl (fun _ => le_rfl) (fun _ _ _ => rfl) rfl
  | restart =>
      obtain rfl := Option.some.inj hstep
      refine .kept rfl rfl (fun tokenId => Nat.zero_le _) (fun hnone token htoken => ?_) rfl
      rw [hnone token htoken]
      rfl

/-- What holds of the counts whether slots are lost or not. -/
structure Accounted (log : List TokenEvent) (service : TokenService) : Prop where
  keyed : Keyed service.tokens (·.id)
  numbered : ∀ token ∈ service.tokens, token.id ≤ service.lastTokenId
  unknown : ∀ tokenId, service.lastTokenId < tokenId → service.held tokenId = 0 ∧
    acceptedInWindow log tokenId = 0
  held : ∀ token ∈ service.tokens, (service.held token.id : Int) ≤ token.activeRequestCount
  limited : ∀ token ∈ service.tokens,
    token.activeRequestCount ≤ token.limits.maxConcurrentRequests
  counted : ∀ token ∈ service.tokens, token.rateWindowCount = acceptedInWindow log token.id
  windowed : ∀ token ∈ service.tokens, token.rateWindowCount ≤ token.limits.rateLimitPerMinute

namespace Accounted

/-- Slots that are lost or change hands leave the counts as they are. -/
theorem kept (h : Accounted log service) (htokens : service'.tokens = service.tokens)
    (hlast : service'.lastTokenId = service.lastTokenId)
    (hheld : ∀ tokenId, service'.held tokenId ≤ service.held tokenId) :
    Accounted log service' := by
  constructor
  · rw [htokens]
    exact h.keyed
  · rw [htokens, hlast]
    exact h.numbered
  · intro tokenId hlt
    rw [hlast] at hlt
    have hbefore := (h.unknown tokenId hlt).1
    have hless := hheld tokenId
    exact ⟨by omega, (h.unknown tokenId hlt).2⟩
  · intro token htoken
    rw [htokens] at htoken
    have hbefore := h.held token htoken
    have hless := hheld token.id
    omega
  · rw [htokens]
    exact h.limited
  · rw [htokens]
    exact h.counted
  · rw [htokens]
    exact h.windowed

/-- A request that is admitted takes a slot and is counted in its window. -/
theorem admitted (h : Accounted log service) {now : Int} {clientIp : String} {token : ApiToken}
    (htoken : token ∈ service.tokens) (hquota : token.withinQuota now = true)
    (htokens : service'.tokens =
      updateAt service.tokens (·.id) token.id (·.withinQuota now) (·.take now clientIp))
    (hlast : service'.lastTokenId = service.lastTokenId)
    (hheld : ∀ tokenId, service'.held tokenId =
      service.held tokenId + if token.id = tokenId then 1 else 0) :
    Accounted (log ++ [if token.windowEnded now then .opened token.id else .accepted token.id])
      service' := by
  rw [ApiToken.withinQuota, Bool.and_eq_true, decide_eq_true_iff] at hquota
  obtain ⟨hslots, hrate⟩ := hquota
  have hnumbered := h.numbered token htoken
  have hother {tokenId : Int} (hne : tokenId ≠ token.id) : acceptedInWindow (log ++
      [if token.windowEnded now then .opened token.id else .accepted token.id]) tokenId =
      acceptedInWindow log tokenId := by
    apply acceptedInWindow_other
    · split
      · exact fun heq => hne (TokenEvent.opened.inj heq).symm
      · exact fun heq => by cases heq
    · split
      · exact fun heq => by cases heq
      · exact fun heq => hne (TokenEvent.accepted.inj heq).symm
  -- The statement reaches the row that was read, and no other.
  have hrows {P : ApiToken → Prop} (htaken : P (token.take now clientIp))
      (hrest : ∀ row ∈ service.tokens, row.id ≠ token.id → P row) :
      ∀ row ∈ service'.tokens, P row := by
    rw [htokens]
    apply forall_updateAt
    · intro row hrow hid _
      rw [h.keyed.eq hrow htoken hid]
      exact htaken
    · intro row hrow hguard
      apply hrest row hrow
      intro hid
      have hfalse := hguard hid
      rw [h.keyed.eq hrow htoken hid, ApiToken.withinQuota, decide_eq_true hslots, hrate] at hfalse
      cases hfalse
  constructor
  · rw [htokens]
    exact h.keyed.updateAt fun _ => rfl
  · rw [hlast]
    exact hrows hnumbered fun row hrow _ => h.numbered row hrow
  · intro tokenId hlt
    rw [hlast] at hlt
    have hne : tokenId ≠ token.id := by omega
    rw [hheld, if_neg hne.symm, hother hne]
    exact h.unknown tokenId hlt
  · apply hrows
    · have hbefore := h.held token htoken
      show (service'.held token.id : Int) ≤ token.activeRequestCount + 1
      rw [hheld, if_pos rfl]
      omega
    · intro row hrow hne
      rw [hheld, if_neg hne.symm]
      exact h.held row hrow
  · apply hrows
    · exact hslots
    · exact fun row hrow _ => h.limited row hrow
  · apply hrows
    · show (if token.windowEnded now then 1 else token.rateWindowCount + 1) =
        (acceptedInWindow _ token.id : Int)
      split
      · rw [acceptedInWindow_opened]
        rfl
      · rw [acceptedInWindow_accepted, h.counted token htoken]
        rfl
    · intro row hrow hne
      rw [hother hne]
      exact h.counted row hrow
  · apply hrows
    · show (if token.windowEnded now then 1 else token.rateWindowCount + 1) ≤ _
      split
      · exact token.limits.rate.1
      · rename_i hsame
        rw [Bool.eq_false_iff.mpr hsame, Bool.false_or, decide_eq_true_iff] at hrate
        exact hrate
    · exact fun row hrow _ => h.windowed row hrow

/-- A permit that is given back frees its slot. -/
theorem released (h : Accounted log service) {released : Int}
    (htokens : service'.tokens =
      updateAt service.tokens (·.id) released (fun _ => true) ApiToken.release)
    (hlast : service'.lastTokenId = service.lastTokenId)
    (hheld : ∀ tokenId, service'.held tokenId + (if released = tokenId then 1 else 0) =
      service.held tokenId) : Accounted log service' := by
  have hids : service'.tokens.map (·.id) = service.tokens.map (·.id) := by
    rw [htokens]
    exact map_updateAt fun _ => rfl
  constructor
  · rw [Keyed, hids]
    exact h.keyed
  · rw [htokens, hlast]
    apply forall_updateAt
    · exact fun row hrow _ _ => h.numbered row hrow
    · exact fun row hrow _ => h.numbered row hrow
  · intro tokenId hlt
    rw [hlast] at hlt
    have hbefore := (h.unknown tokenId hlt).1
    have hless := hheld tokenId
    exact ⟨by omega, (h.unknown tokenId hlt).2⟩
  · rw [htokens]
    apply forall_updateAt
    · intro row hrow hid _
      have hbefore := h.held row hrow
      have hless := hheld row.id
      rw [if_pos hid.symm] at hless
      show (service'.held row.id : Int) ≤ max (row.activeRequestCount - 1) 0
      omega
    · intro row hrow _
      have hbefore := h.held row hrow
      have hless := hheld row.id
      omega
  · rw [htokens]
    apply forall_updateAt
    · intro row hrow _ _
      have hbefore := h.limited row hrow
      have hpos := row.limits.concurrency.1
      show max (row.activeRequestCount - 1) 0 ≤ row.limits.maxConcurrentRequests
      omega
    · exact fun row hrow _ => h.limited row hrow
  · rw [htokens]
    apply forall_updateAt
    · exact fun row hrow _ _ => h.counted row hrow
    · exact fun row hrow _ => h.counted row hrow
  · rw [htokens]
    apply forall_updateAt
    · exact fun row hrow _ _ => h.windowed row hrow
    · exact fun row hrow _ => h.windowed row hrow

/-- No slot of a new token is taken. -/
theorem created (h : Accounted log service) {token : ApiToken} (hunused : token.Unused)
    (hid : token.id = service.lastTokenId + 1) (htokens : service'.tokens = service.tokens ++ [token])
    (hlast : service'.lastTokenId = token.id)
    (hheld : ∀ tokenId, service'.held tokenId = service.held tokenId) :
    Accounted log service' := by
  obtain ⟨-, hcount, hactive⟩ := hunused
  have hfresh : token.id ∉ service.tokens.map (·.id) := by
    intro hmem
    obtain ⟨row, hrow, heq⟩ := List.mem_map.mp hmem
    have hnumbered := h.numbered row hrow
    omega
  have hnone := h.unknown token.id (by omega)
  have hrows {P : ApiToken → Prop} (hnew : P token) (hold : ∀ row ∈ service.tokens, P row) :
      ∀ row ∈ service'.tokens, P row := by
    intro row hrow
    rw [htokens] at hrow
    rcases List.mem_append.mp hrow with hmem | hmem
    · exact hold row hmem
    · rw [List.mem_singleton.mp hmem]
      exact hnew
  constructor
  · rw [htokens]
    exact h.keyed.append hfresh
  · rw [hlast]
    apply hrows
    · exact le_rfl
    · intro row hrow
      have hnumbered := h.numbered row hrow
      omega
  · intro tokenId hlt
    rw [hlast] at hlt
    rw [hheld]
    exact h.unknown tokenId (by omega)
  · apply hrows
    · rw [hheld, hnone.1, hactive]
      rfl
    · intro row hrow
      rw [hheld]
      exact h.held row hrow
  · apply hrows
    · have hpos := token.limits.concurrency.1
      omega
    · exact h.limited
  · apply hrows
    · rw [hnone.2, hcount]
      rfl
    · exact h.counted
  · apply hrows
    · have hpos := token.limits.rate.1
      omega
    · exact h.windowed

/-- A token that is revoked keeps its counts. -/
theorem revoked (h : Accounted log service) {revoked : Int}
    (htokens : service'.tokens = updateAt service.tokens (·.id) revoked (·.active) fun token =>
      { token with active := false })
    (hlast : service'.lastTokenId = service.lastTokenId)
    (hheld : ∀ tokenId, service'.held tokenId = service.held tokenId) :
    Accounted log service' := by
  constructor
  · rw [htokens]
    exact h.keyed.updateAt fun _ => rfl
  · rw [htokens, hlast]
    apply forall_updateAt
    · exact fun row hrow _ _ => h.numbered row hrow
    · exact fun row hrow _ => h.numbered row hrow
  · intro tokenId hlt
    rw [hlast] at hlt
    rw [hheld]
    exact h.unknown tokenId hlt
  · rw [htokens]
    apply forall_updateAt
    · intro row hrow _ _
      rw [hheld]
      exact h.held row hrow
    · intro row hrow _
      rw [hheld]
      exact h.held row hrow
  · rw [htokens]
    apply forall_updateAt
    · exact fun row hrow _ _ => h.limited row hrow
    · exact fun row hrow _ => h.limited row hrow
  · rw [htokens]
    apply forall_updateAt
    · exact fun row hrow _ _ => h.counted row hrow
    · exact fun row hrow _ => h.counted row hrow
  · rw [htokens]
    apply forall_updateAt
    · exact fun row hrow _ _ => h.windowed row hrow
    · exact fun row hrow _ => h.windowed row hrow

/-- The tokens that are left keep their counts. -/
theorem deleted (h : Accounted log service) (htokens : service'.tokens.Sublist service.tokens)
    (hlast : service'.lastTokenId = service.lastTokenId)
    (hheld : ∀ tokenId, service'.held tokenId = service.held tokenId) :
    Accounted log service' := by
  constructor
  · exact (htokens.map _).nodup h.keyed
  · rw [hlast]
    exact fun row hrow => h.numbered row (htokens.subset hrow)
  · intro tokenId hlt
    rw [hlast] at hlt
    rw [hheld]
    exact h.unknown tokenId hlt
  · intro row hrow
    rw [hheld]
    exact h.held row (htokens.subset hrow)
  · exact fun row hrow => h.limited row (htokens.subset hrow)
  · exact fun row hrow => h.counted row (htokens.subset hrow)
  · exact fun row hrow => h.windowed row (htokens.subset hrow)

theorem step (h : Accounted log service)
    (hchange : Accounting parseIds service service' action) :
    Accounted (log ++ (tokenEvent parseIds service action).toList) service' := by
  cases hchange with
  | kept htokens hlast hheld hbalanced hevent =>
      rw [hevent, Option.toList_none, List.append_nil]
      exact h.kept htokens hlast hheld
  | admitted htoken hquota htokens hlast hheld hevent =>
      rw [hevent, Option.toList_some]
      exact h.admitted htoken hquota htokens hlast hheld
  | released htokens hlast hheld hevent =>
      rw [hevent, Option.toList_none, List.append_nil]
      exact h.released htokens hlast hheld
  | created hunused hid htokens hlast hheld hevent =>
      rw [hevent, Option.toList_none, List.append_nil]
      exact h.created hunused hid htokens hlast hheld
  | revoked htokens hlast hheld hevent =>
      rw [hevent, Option.toList_none, List.append_nil]
      exact h.revoked htokens hlast hheld
  | deleted htokens hlast hheld hevent =>
      rw [hevent, Option.toList_none, List.append_nil]
      exact h.deleted htokens hlast hheld

end Accounted

/-- No slot has been lost. -/
def TokenService.Balanced (service : TokenService) : Prop :=
  ∀ token ∈ service.tokens, token.activeRequestCount = service.held token.id

theorem TokenService.Balanced.step (h : service.Balanced) (haccounted : Accounted log service)
    (hpermitted : service.Undisturbed action)
    (hchange : Accounting parseIds service service' action) : service'.Balanced := by
  cases hchange with
  | kept htokens hlast hheld hbalanced hevent =>
      intro token htoken
      rw [htokens] at htoken
      rw [hbalanced hpermitted token htoken]
      exact h token htoken
  | @admitted now clientIp token htoken hquota htokens hlast hheld hevent =>
      rw [TokenService.Balanced, htokens]
      apply forall_updateAt
      · intro row hrow hid _
        show row.activeRequestCount + 1 = (service'.held row.id : Int)
        rw [hheld, if_pos hid.symm, h row hrow]
        rfl
      · intro row hrow hguard
        have hne : token.id ≠ row.id := by
          intro hid
          have hfalse := hguard hid.symm
          rw [haccounted.keyed.eq hrow htoken hid.symm, hquota] at hfalse
          cases hfalse
        rw [hheld, if_neg hne]
        exact h row hrow
  | @released released htokens hlast hheld hevent =>
      rw [TokenService.Balanced, htokens]
      apply forall_updateAt
      · intro row hrow hid _
        have hbefore := h row hrow
        have hless := hheld row.id
        rw [if_pos hid.symm] at hless
        show max (row.activeRequestCount - 1) 0 = (service'.held row.id : Int)
        omega
      · intro row hrow hguard
        have hbefore := h row hrow
        have hless := hheld row.id
        rw [if_neg fun hid => Bool.noConfusion (hguard hid.symm)] at hless
        omega
  | @created token hunused hid htokens hlast hheld hevent =>
      intro row hrow
      rw [htokens] at hrow
      rw [hheld]
      rcases List.mem_append.mp hrow with hold | hnew
      · exact h row hold
      · rw [List.mem_singleton.mp hnew, hunused.2.2, (haccounted.unknown _ (by omega)).1]
        rfl
  | revoked htokens hlast hheld hevent =>
      rw [TokenService.Balanced, htokens]
      apply forall_updateAt
      · intro row hrow _ _
        rw [hheld]
        exact h row hrow
      · intro row hrow _
        rw [hheld]
        exact h row hrow
  | deleted htokens hlast hheld hevent =>
      intro row hrow
      rw [hheld]
      exact h row (htokens.subset hrow)

theorem held_of_initial (h : service.Initial) (tokenId : Int) : service.held tokenId = 0 := by
  simp only [TokenService.held, TokenService.admissions, TokenService.requests,
    TokenService.releases, h.admitted, h.permits, h.releasing, List.countP_nil]

/-- The counts in every run. -/
theorem accounted_of_reached {permitted : List TokenEvent × TokenService → TokenAction → Prop}
    (h : (tokenRequests parseIds).Reached permitted (log, service)) : Accounted log service := by
  refine h.invariant (P := fun state : List TokenEvent × TokenService =>
    Accounted state.1 state.2) ?_ ?_
  · rintro ⟨log, start⟩ ⟨hlog, hstart⟩
    obtain rfl : log = [] := hlog
    have hstart : start.Initial := hstart
    constructor
    · exact hstart.keyed
    · exact hstart.numbered
    · exact fun tokenId _ => ⟨held_of_initial hstart tokenId, rfl⟩
    · intro token htoken
      rw [held_of_initial hstart, (hstart.unused token htoken).2.2]
      rfl
    · intro token htoken
      have hpos := token.limits.concurrency.1
      rw [(hstart.unused token htoken).2.2]
      omega
    · intro token htoken
      rw [(hstart.unused token htoken).2.1]
      rfl
    · intro token htoken
      have hpos := token.limits.rate.1
      rw [(hstart.unused token htoken).2.1]
      omega
  · rintro ⟨log, before⟩ action ⟨log', after⟩ - - haccounted hlogged
    have hentry : ((tokenSystem parseIds).logged (tokenEvent parseIds)).step (log, before) action =
        some (log', after) := hlogged
    obtain ⟨hstep, rfl⟩ := step_logged_eq_some.mp hentry
    have haccounted : Accounted log before := haccounted
    exact haccounted.step (accounting_of_step haccounted.keyed hstep)

/-- The counts in the runs that lose no slot. -/
theorem balanced_of_reached
    (h : (tokenRequests parseIds).Reached (fun state => state.2.Undisturbed) (log, service)) :
    service.Balanced := by
  refine h.invariant (P := fun state : List TokenEvent × TokenService => state.2.Balanced) ?_ ?_
  · rintro ⟨log, start⟩ ⟨-, hstart⟩ token htoken
    have hstart : start.Initial := hstart
    rw [held_of_initial hstart, (hstart.unused token htoken).2.2]
    rfl
  · rintro ⟨log, before⟩ action ⟨log', after⟩ hreached hallowed hbalanced hlogged
    have hentry : ((tokenSystem parseIds).logged (tokenEvent parseIds)).step (log, before) action =
        some (log', after) := hlogged
    obtain ⟨hstep, -⟩ := step_logged_eq_some.mp hentry
    have haccounted : Accounted log before := accounted_of_reached hreached
    have hbalanced : before.Balanced := hbalanced
    exact hbalanced.step haccounted hallowed (accounting_of_step haccounted.keyed hstep)

/-- What the quota columns of the tokens say. -/
structure QuotasHold (parseIds : String → Option (List Int)) (log : List TokenEvent)
    (service : TokenService) : Prop where
  /-- When neither a release nor a request before its permit is in flight, a token has as many
  active requests as live permits. -/
  settled : ∀ token ∈ service.tokens, service.releases token.id = 0 →
    service.admissions token.id = 0 → token.activeRequestCount = service.requests token.id
  /-- A slot is taken by such a request, by a permit or by a release. -/
  balanced : ∀ token ∈ service.tokens, token.activeRequestCount = service.held token.id
  limited : ∀ token ∈ service.tokens,
    token.activeRequestCount ≤ token.limits.maxConcurrentRequests
  windowed : ∀ token ∈ service.tokens,
    (acceptedInWindow log token.id : Int) ≤ token.limits.rateLimitPerMinute
  /-- A refused request changes no token. -/
  refused : ∀ faults now tokenHash clientIp error,
    (service.admission parseIds faults now tokenHash clientIp).1 = .error error →
      (service.admission parseIds faults now tokenHash clientIp).2 = service.tokens

/-- The quotas hold in every run in which no slot is lost on the way to its release. -/
theorem quotas_hold
    (h : (tokenRequests parseIds).Reached (fun state => state.2.Undisturbed) (log, service)) :
    QuotasHold parseIds log service := by
  have haccounted := accounted_of_reached h
  have hbalanced := balanced_of_reached h
  constructor
  · intro token htoken hreleases hadmissions
    rw [hbalanced token htoken, TokenService.held, hreleases, hadmissions, Nat.zero_add,
      Nat.add_zero]
  · exact hbalanced
  · exact haccounted.limited
  · intro token htoken
    rw [← haccounted.counted token htoken]
    exact haccounted.windowed token htoken
  · intro faults now tokenHash clientIp error herror
    exact transact_eq_error herror

namespace QuotaSample

def parseNoIds (text : String) : Option (List Int) := if text = "[]" then some [] else none

/-- A platform with one account and no token. -/
def noTokens : TokenService :=
  ⟨⟨[⟨1, "hash", .active⟩], [], [], [], []⟩, [], 0, [], [], []⟩

def admission (roleCodes : Option (List String)) : Admission := ⟨1, 1, "ci", [], [], roleCodes⟩

/-- A request that is served. -/
def request : List TokenAction :=
  [.createApiToken 1 "token" "ci", .authenticate (fun _ => none) 1000 "token" "10.0.0.1",
    .readRoles (admission none), .readPermissions (admission (some [])),
    .dropPermit ⟨1, 1, "ci", [], [], [], []⟩ true]

/-- A request that ends before its permit. -/
def lostRequest : List TokenAction :=
  [.createApiToken 1 "token" "ci", .authenticate (fun _ => none) 1000 "token" "10.0.0.1",
    .abandon (admission none)]

def noLoss (_ : List TokenEvent × TokenService) : TokenAction → Bool
  | .abandon _ => false
  | .dropPermit _ spawns => spawns
  | .release _ works => works
  | .restart => false
  | _ => true

theorem undisturbed_of_noLoss (state : List TokenEvent × TokenService) (action : TokenAction)
    (h : noLoss state action = true) : state.2.Undisturbed action := by
  cases action with
  | abandon admission => cases h
  | dropPermit session spawns => exact .inl h
  | release tokenId works => exact .inl h
  | restart => cases h
  | _ => exact trivial

theorem initial_noTokens : noTokens.Initial :=
  ⟨List.nodup_nil, fun _ hmem => absurd hmem List.not_mem_nil,
    fun _ hmem => absurd hmem List.not_mem_nil, rfl, rfl, rfl⟩

end QuotaSample

/-- The slot of a request whose permit has been dropped. -/
theorem quotas_hold_request : ∃ log service,
    (tokenRequests QuotaSample.parseNoIds).Reached (fun state => state.2.Undisturbed)
      (log, service) ∧ service.releasing = [1] ∧
    QuotasHold QuotaSample.parseNoIds log service := by
  have hexec : (((tokenRequests QuotaSample.parseNoIds).restrict QuotaSample.noLoss).exec
      ([], QuotaSample.noTokens) QuotaSample.request).any (fun state =>
        state.2.releasing == [1]) = true := by decide
  obtain ⟨⟨log, service⟩, hs, hreleasing⟩ := (Option.any_eq_true _ _).mp hexec
  have hstart : Reachable ((tokenRequests QuotaSample.parseNoIds).restrict QuotaSample.noLoss)
      ([], QuotaSample.noTokens) := .start ⟨rfl, QuotaSample.initial_noTokens⟩
  have hreached := (Reached.of_restrict (hstart.exec hs)).mono QuotaSample.undisturbed_of_noLoss
  exact ⟨log, service, hreached, beq_iff_eq.mp hreleasing, quotas_hold hreached⟩

/-- A slot that nobody gives back. -/
theorem lost_request_keeps_slot : ¬ ∀ log service,
    (tokenRequests QuotaSample.parseNoIds).Reachable (log, service) →
      ∀ token ∈ service.tokens, service.releases token.id = 0 → service.admissions token.id = 0 →
        token.activeRequestCount = service.requests token.id := by
  intro h
  have hexec : ((tokenRequests QuotaSample.parseNoIds).exec ([], QuotaSample.noTokens)
      QuotaSample.lostRequest).any (fun state => state.2.admitted == [] &&
        state.2.permits == [] && state.2.releasing == [] &&
        state.2.tokens.any fun token => token.activeRequestCount == 1) = true := by decide
  obtain ⟨⟨log, service⟩, hs, hfacts⟩ := (Option.any_eq_true _ _).mp hexec
  simp only [Bool.and_eq_true, beq_iff_eq] at hfacts
  obtain ⟨⟨⟨hadmitted, hpermits⟩, hreleasing⟩, hany⟩ := hfacts
  obtain ⟨token, htoken, hactive⟩ := List.any_eq_true.mp hany
  have hstart : (tokenRequests QuotaSample.parseNoIds).Reachable ([], QuotaSample.noTokens) :=
    .start ⟨rfl, QuotaSample.initial_noTokens⟩
  have hsettled := h log service (hstart.exec hs) token htoken
    (by rw [TokenService.releases, hreleasing]; rfl)
    (by rw [TokenService.admissions, hadmitted]; rfl)
  rw [beq_iff_eq.mp hactive, TokenService.requests, hpermits, List.countP_nil] at hsettled
  exact absurd hsettled (by decide)

end EasyDeploy.Auth
