import EasyDeploy.Auth.Accounts
import EasyDeploy.Foundation.Transition

/-!
# Sessions and administrative calls

Logins, refreshes, authentications and administrative calls take turns at every
statement on the database and every operation of the session store. A session
is issued from what its call has read in separate statements; an administrative
call first makes its change and then revokes the sessions of the accounts that
it affects.
-/

namespace EasyDeploy.Auth
open Foundation

/-- A `SessionSnapshot` of the session store. -/
structure Snapshot where
  sessionId : Int
  accountId : Int
  roleCodes : List String
  permissionKeys : List String
  accessTokenHash : String
  refreshTokenHash : String
deriving Repr, DecidableEq

/-- The statement at which `issue_session` is; a refresh goes on with the session it replaces. -/
inductive IssueStage
  | readingRoles
  | readingPermissions (roleCodes : List String)
  | inserting (roleCodes permissionKeys : List String)
  | saving (snapshot : Snapshot)
  | revokingOld
  | deletingOld
deriving Repr, DecidableEq

/-- What a call has changed: the data of accounts, with the session that is spared, or one
session; `rights` tells whether roles or permissions are concerned. -/
structure Change where
  number : Nat
  accounts : List Int
  spared : Option Int
  session : Option Int
  rights : Bool
deriving Repr, DecidableEq

/-- A login or a refresh that has read the account, after so many changes; a refresh goes on from
the password of the session it replaces, with the changes that this session has missed. -/
structure Issue where
  accountId : Int
  stamp : Nat
  missed : List Change
  refreshed : Option Int
  stage : IssueStage
deriving Repr, DecidableEq

/-- A session, the number of changes before its account was read, and the changes that the session
it replaces had missed by then. -/
structure Issued where
  snapshot : Snapshot
  stamp : Nat
  missed : List Change
deriving Repr, DecidableEq

/-- A failed login that locks the account makes the statements of `setAccountStatus`. -/
inductive Request
  | setAccountStatus (accountId : Int) (status : AccountStatus)
  | resetAccountPassword (accountId : Int) (passwordHash : String)
  | updateAccountRoles (accountId : Int) (roleIds : List Int)
  | setRoleStatus (roleId : Int) (active : Bool)
  | updateRolePermissions (roleId : Int) (permissionKeys : List String)
  | changeOwnPassword (accountId sessionId : Int) (passwordHash : String)
  | revokeAdminSession (sessionId : Int)
deriving Repr, DecidableEq

/-- How far a request that revokes is. -/
inductive CallStage
  | changing
  | listing (roleId : Int)
  | revoking (accounts : List Int)
  | deleting (accounts : List Int)
  | revokingOthers (accountId sessionId : Int)
  | deletingSession (sessionId : Int)
deriving Repr, DecidableEq

/-- Such a request with what it has read. -/
structure Call where
  request : Request
  change : Option Change
  stage : CallStage
deriving Repr, DecidableEq

/-- Whether the sessions of an account, or one of them, are revoked. -/
def Change.concerns (change : Change) (accountId sessionId : Int) : Bool :=
  change.accounts.contains accountId && change.spared != some sessionId ||
    change.session == some sessionId

/-- The session was issued from what was before the change, which concerns it: its account was
read before, or it was refreshed from a session with the former password. -/
def Issued.stale (issued : Issued) (change : Change) : Bool :=
  (decide (issued.stamp < change.number) || issued.missed.contains change) &&
    change.concerns issued.snapshot.accountId issued.snapshot.sessionId

/-- The call is still to revoke the sessions of the account. -/
def Call.willRevoke (call : Call) (accountId : Int) : Bool :=
  match call.stage with
  | .listing _ => call.change.any fun change => change.accounts.contains accountId
  | .revoking accounts => accounts.contains accountId
  | .deleting accounts => accounts.tail.contains accountId
  | .revokingOthers own _ => own == accountId
  | _ => false

/-- The tables with the calls under way and what has been issued. -/
structure Service where
  database : Database
  /-- The session store. -/
  store : List Snapshot
  issuing : List Issue
  /-- Calls of `authenticate_access_token` and of `refresh` that have found a snapshot. -/
  authenticating : List Snapshot
  refreshing : List Snapshot
  calls : List Call
  /-- The number of changes so far, the changes of the calls that did not fail, and the sessions
  that were issued. -/
  clock : Nat
  changes : List Change
  issued : List Issued
deriving Repr, DecidableEq

/-- The statements of the calls. -/
inductive Action
  | login (accountId : Int) (password : String)
  | readRoles (issue : Issue)
  | readPermissions (issue : Issue)
  | insert (issue : Issue) (accessTokenHash refreshTokenHash : String)
  | save (issue : Issue)
  | revokeOld (issue : Issue)
  | deleteOld (issue : Issue)
  | authenticate (accessTokenHash : String)
  | confirm (snapshot : Snapshot)
  | refresh (refreshTokenHash : String)
  | confirmRefresh (snapshot : Snapshot)
  | start (request : Request)
  | change (call : Call)
  | list (call : Call)
  | revoke (call : Call)
  | delete (call : Call)
  | answer (call : Call)
  | fail (call : Call)
deriving Repr, DecidableEq

namespace Service

variable (service : Service)

/-- A role that may be edited. -/
def customRole (roleId : Int) : Bool :=
  service.database.roles.any fun role => role.id == roleId && !role.isSystem

/-- The checks before the change. -/
def admits : Request → Bool
  | .setRoleStatus roleId _ | .updateRolePermissions roleId _ => service.customRole roleId
  | _ => true

/-- The statement that makes the change, with the accounts it concerns and the next stage. -/
def makeChange (number : Nat) : Request → Database × Option Change × Option CallStage
  | .setAccountStatus accountId status =>
      let database := service.database.setAccountStatus accountId status
      if status = .active then
        (database, none, none)
      else
        (database, some ⟨number, [accountId], none, none, false⟩, some (.revoking [accountId]))
  | .resetAccountPassword accountId passwordHash =>
      (service.database.setPasswordHash accountId passwordHash,
        some ⟨number, [accountId], none, none, false⟩, some (.revoking [accountId]))
  | .updateAccountRoles accountId roleIds =>
      (service.database.replaceAccountRoles accountId roleIds,
        some ⟨number, [accountId], none, none, true⟩, some (.revoking [accountId]))
  | .setRoleStatus roleId active =>
      (service.database.setRoleStatus roleId active,
        some ⟨number, service.database.roleAccounts roleId, none, none, true⟩,
        some (.listing roleId))
  | .updateRolePermissions roleId permissionKeys =>
      (service.database.replaceRolePermissions roleId permissionKeys,
        some ⟨number, service.database.roleAccounts roleId, none, none, true⟩,
        some (.listing roleId))
  | .changeOwnPassword accountId sessionId passwordHash =>
      (service.database.setPasswordHash accountId passwordHash,
        some ⟨number, [accountId], some sessionId, none, false⟩,
        some (.revokingOthers accountId sessionId))
  | .revokeAdminSession sessionId =>
      (service.database.revokeSessionRecord sessionId,
        some ⟨number, [], none, some sessionId, false⟩, some (.deletingSession sessionId))

/-- An issue moves to another stage. -/
def issueAt (issue : Issue) (stage : IssueStage) : List Issue :=
  service.issuing.erase issue ++ [{ issue with stage }]

def callAt (call : Call) (stage : CallStage) : List Call :=
  service.calls.erase call ++ [{ call with stage }]

/-- The store behind `delete_session`. -/
def without (snapshot : Snapshot) : List Snapshot :=
  service.store.filter fun stored => stored.sessionId != snapshot.sessionId

/-- The changes that a session has missed and that a refresh of it does not make good: roles and
permissions are read anew, the password is not asked for. -/
def missedBy (sessionId : Int) : List Change :=
  service.changes.filter fun change => !change.rights &&
    service.issued.any fun issued => issued.snapshot.sessionId == sessionId && issued.stale change

variable (verify : String → String → Bool)

def step : Action → Option Service
  | .login accountId password =>
      match service.database.account accountId with
      | some account =>
          if account.status = .active ∧ verify password account.passwordHash = true then
            some { service with
              issuing := service.issuing ++ [⟨accountId, service.clock, [], none, .readingRoles⟩] }
          else
            none
      | none => none
  | .readRoles issue =>
      if issue ∈ service.issuing ∧ issue.stage = .readingRoles then
        some { service with
          issuing := service.issueAt issue
            (.readingPermissions (service.database.roleCodes issue.accountId)) }
      else
        none
  | .readPermissions issue =>
      match issue.stage with
      | .readingPermissions roleCodes =>
          if issue ∈ service.issuing then
            some { service with
              issuing := service.issueAt issue
                (.inserting roleCodes (service.database.permissionKeys issue.accountId)) }
          else
            none
      | _ => none
  | .insert issue accessTokenHash refreshTokenHash =>
      match issue.stage with
      | .inserting roleCodes permissionKeys =>
          if issue ∈ service.issuing then
            let (sessionId, database) :=
              service.database.insertSession issue.accountId accessTokenHash refreshTokenHash
            let snapshot : Snapshot :=
              ⟨sessionId, issue.accountId, roleCodes, permissionKeys, accessTokenHash,
                refreshTokenHash⟩
            some { service with
              database
              issuing := service.issueAt issue (.saving snapshot)
              issued := service.issued ++ [⟨snapshot, issue.stamp, issue.missed⟩] }
          else
            none
      | _ => none
  | .save issue =>
      match issue.stage with
      | .saving snapshot =>
          if issue ∈ service.issuing then
            some { service with
              store := service.store ++ [snapshot]
              issuing := if issue.refreshed.isSome then service.issueAt issue .revokingOld
                else service.issuing.erase issue }
          else
            none
      | _ => none
  | .revokeOld issue =>
      match issue.refreshed with
      | some old =>
          if issue ∈ service.issuing ∧ issue.stage = .revokingOld then
            some { service with
              database := service.database.revokeSessionRecord old
              issuing := service.issueAt issue .deletingOld }
          else
            none
      | none => none
  | .deleteOld issue =>
      match issue.refreshed with
      | some old =>
          if issue ∈ service.issuing ∧ issue.stage = .deletingOld then
            some { service with
              store := service.store.filter fun snapshot => snapshot.sessionId != old
              issuing := service.issuing.erase issue }
          else
            none
      | none => none
  | .authenticate accessTokenHash =>
      (service.store.find? fun snapshot => snapshot.accessTokenHash == accessTokenHash).map
        fun snapshot => { service with authenticating := service.authenticating ++ [snapshot] }
  | .confirm snapshot =>
      if snapshot ∈ service.authenticating then
        some { service with
          authenticating := service.authenticating.erase snapshot
          store := if service.database.admitsAccess snapshot.sessionId snapshot.accessTokenHash then
            service.store else service.without snapshot }
      else
        none
  | .refresh refreshTokenHash =>
      (service.store.find? fun snapshot => snapshot.refreshTokenHash == refreshTokenHash).map
        fun snapshot => { service with refreshing := service.refreshing ++ [snapshot] }
  | .confirmRefresh snapshot =>
      if snapshot ∈ service.refreshing then
        let refreshing := service.refreshing.erase snapshot
        match service.database.refreshRow snapshot.sessionId snapshot.refreshTokenHash with
        | some (row, account) =>
            if account.status = .active then
              some { service with
                refreshing
                issuing := service.issuing ++
                  [⟨account.id, service.clock, service.missedBy row.id, some row.id,
                    .readingRoles⟩] }
            else
              some { service with refreshing, store := service.without snapshot }
        | none => some { service with refreshing, store := service.without snapshot }
      else
        none
  | .start request =>
      if service.admits request then
        some { service with calls := service.calls ++ [⟨request, none, .changing⟩] }
      else
        none
  | .change call =>
      if call ∈ service.calls ∧ call.stage = .changing then
        let (database, change, stage) := service.makeChange (service.clock + 1) call.request
        some { service with
          database
          clock := service.clock + 1
          changes := service.changes ++ change.toList
          calls := service.calls.erase call ++
            (stage.map fun stage => ({ call with change, stage } : Call)).toList }
      else
        none
  | .list call =>
      match call.stage with
      | .listing roleId =>
          if call ∈ service.calls then
            some { service with
              calls := service.callAt call (.revoking (service.database.roleAccounts roleId)) }
          else
            none
      | _ => none
  | .revoke call =>
      match call.stage with
      | .revoking (accountId :: accounts) =>
          if call ∈ service.calls then
            some { service with
              database := service.database.revokeAccountSessions accountId none
              calls := service.callAt call (.deleting (accountId :: accounts)) }
          else
            none
      | .revokingOthers accountId sessionId =>
          if call ∈ service.calls then
            some { service with
              database := service.database.revokeAccountSessions accountId (some sessionId)
              calls := service.callAt call (.revoking []) }
          else
            none
      | _ => none
  | .delete call =>
      match call.stage with
      | .deleting (accountId :: accounts) =>
          if call ∈ service.calls then
            some { service with
              store := service.store.filter fun snapshot => snapshot.accountId != accountId
              calls := service.callAt call (.revoking accounts) }
          else
            none
      | .deletingSession sessionId =>
          if call ∈ service.calls then
            some { service with
              store := service.store.filter fun snapshot => snapshot.sessionId != sessionId
              calls := service.callAt call (.revoking []) }
          else
            none
      | _ => none
  | .answer call =>
      if call ∈ service.calls ∧ call.stage = .revoking [] then
        some { service with calls := service.calls.erase call }
      else
        none
  | .fail call =>
      if call ∈ service.calls then
        some { service with
          calls := service.calls.erase call
          changes := service.changes.filter fun change => some change != call.change }
      else
        none

/-- Nobody is logged in and no call is under way. -/
def Initial : Prop :=
  service.store = [] ∧ service.issuing = [] ∧ service.authenticating = [] ∧
  service.refreshing = [] ∧ service.calls = [] ∧ service.changes = [] ∧ service.issued = [] ∧
  ∀ row ∈ service.database.sessions, row.active = false

end Service

/-- The interleavings of clients and administrators; `verify` is the check of a password against
its hash. -/
def authentication (verify : String → String → Bool) : Transition Service Action where
  initial := Service.Initial
  step service := service.step verify

end EasyDeploy.Auth
