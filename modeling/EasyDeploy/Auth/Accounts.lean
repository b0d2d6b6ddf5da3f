import EasyDeploy.Foundation.Sequences
import EasyDeploy.Foundation.Table

/-!
# Accounts, roles and sessions

The tables of the administration with one function for each statement that
changes them, and the two queries by which a session gets its roles and its
permissions.
-/

namespace EasyDeploy.Auth
open Foundation

/-- How a request is refused. -/
inductive AuthError
  | invalidInput (message : String)
  | unauthorized (message : String)
  | forbidden (message : String)
  | conflict (message : String)
  | rateLimited (message : String)
  | internal (message : String)
deriving Repr, DecidableEq

/-- Whether an account may be used. -/
inductive AccountStatus
  | active
  | disabled
  | locked
deriving Repr, DecidableEq

/-- A row of the accounts. -/
structure AuthAccount where
  id : Int
  passwordHash : String
  status : AccountStatus
deriving Repr, DecidableEq

/-- A row of the roles. -/
structure Role where
  id : Int
  roleCode : String
  active : Bool
  isSystem : Bool
deriving Repr, DecidableEq

/-- A row of `admin_sessions`. -/
structure SessionRow where
  id : Int
  accountId : Int
  active : Bool
  accessTokenHash : String
  refreshTokenHash : String
deriving Repr, DecidableEq

/-- The tables of accounts, roles and sessions. -/
structure Database where
  accounts : List AuthAccount
  roles : List Role
  /-- Account and role. -/
  accountRoles : List (Int × Int)
  /-- Role and permission key. -/
  rolePermissions : List (Int × String)
  sessions : List SessionRow
deriving Repr, DecidableEq

namespace Database

variable (database : Database)

/-- The row of an account. -/
def account (accountId : Int) : Option AuthAccount :=
  database.accounts.find? fun account => account.id == accountId

/-- Whether an account has been given a role. -/
def holdsRole (accountId roleId : Int) : Bool := database.accountRoles.contains (accountId, roleId)

/-- Whether a role is in force. -/
def roleActive (roleId : Int) : Bool :=
  database.roles.any fun role => role.id == roleId && role.active

/-- The order of texts. -/
def textLe (left right : String) : Bool := decide (left ≤ right)

/-- The codes of an account's roles, in order. -/
def roleCodes (accountId : Int) : List String :=
  sortBy textLe (database.roles.filterMap fun role =>
    if database.holdsRole accountId role.id && role.active then some role.roleCode else none)

/-- The permissions that its roles give, in order. -/
def permissionKeys (accountId : Int) : List String :=
  dedup (sortBy textLe (database.rolePermissions.filterMap fun entry =>
    if database.holdsRole accountId entry.1 && database.roleActive entry.1 then
      some entry.2
    else
      none))

/-- The accounts that `revoke_sessions_by_role` lists. -/
def roleAccounts (roleId : Int) : List Int :=
  (database.accountRoles.filter fun entry => entry.2 == roleId).map (·.1)

/-- The status of an account is changed. -/
def setAccountStatus (accountId : Int) (status : AccountStatus) : Database :=
  { database with
    accounts := updateAt database.accounts (·.id) accountId (fun _ => true) fun account =>
      { account with status } }

/-- The password of an account is changed. -/
def setPasswordHash (accountId : Int) (passwordHash : String) : Database :=
  { database with
    accounts := updateAt database.accounts (·.id) accountId (fun _ => true) fun account =>
      { account with passwordHash } }

/-- The transaction of `replace_account_roles`. -/
def replaceAccountRoles (accountId : Int) (roleIds : List Int) : Database :=
  { database with
    accountRoles := database.accountRoles.filter (fun entry => entry.1 != accountId) ++
      roleIds.eraseDups.map fun roleId => (accountId, roleId) }

/-- A role is put in force or out of it. -/
def setRoleStatus (roleId : Int) (active : Bool) : Database :=
  { database with
    roles := updateAt database.roles (·.id) roleId (fun _ => true) fun role =>
      { role with active } }

/-- The transaction of `replace_role_permissions`. -/
def replaceRolePermissions (roleId : Int) (permissionKeys : List String) : Database :=
  { database with
    rolePermissions := database.rolePermissions.filter (fun entry => entry.1 != roleId) ++
      permissionKeys.eraseDups.map fun key => (roleId, key) }

/-- A new session of an account. -/
def insertSession (accountId : Int) (accessTokenHash refreshTokenHash : String) :
    Int × Database :=
  let id := nextId (database.sessions.map (·.id))
  (id, { database with
    sessions := database.sessions ++ [⟨id, accountId, true, accessTokenHash, refreshTokenHash⟩] })

/-- The update of `revoke_sessions_by_account`, or with a session to spare that of
`change_own_password`. -/
def revokeAccountSessions (accountId : Int) (spared : Option Int) : Database :=
  { database with
    sessions := updateAt database.sessions (·.accountId) accountId
      (fun row => row.active && spared != some row.id) fun row => { row with active := false } }

/-- A session is revoked. -/
def revokeSessionRecord (sessionId : Int) : Database :=
  { database with
    sessions := updateAt database.sessions (·.id) sessionId (fun _ => true) fun row =>
      { row with active := false } }

/-- The session is active. -/
def isActive (sessionId : Int) : Bool :=
  database.sessions.any fun row => row.id == sessionId && row.active

/-- The count of `authenticate_access_token`; its row may have expired. -/
def admitsAccess (sessionId : Int) (accessTokenHash : String) : Bool :=
  database.sessions.any fun row => row.id == sessionId && row.active &&
    row.accessTokenHash == accessTokenHash &&
    database.accounts.any fun account => account.id == row.accountId && account.status == .active

/-- The row that `refresh` reads, with the account. -/
def refreshRow (sessionId : Int) (refreshTokenHash : String) : Option (SessionRow × AuthAccount) :=
  (database.sessions.find? fun row => row.id == sessionId && row.active &&
    row.refreshTokenHash == refreshTokenHash).bind fun row =>
      (database.account row.accountId).map fun account => (row, account)

/-- What a session takes from the tables. -/
def rights (accountId : Int) : List String × List String :=
  (database.roleCodes accountId, database.permissionKeys accountId)

variable {database}

theorem roleActive_setRoleStatus {roleId other : Int} (active : Bool) (hne : other ≠ roleId) :
    (database.setRoleStatus roleId active).roleActive other = database.roleActive other := by
  simp only [roleActive, setRoleStatus, updateAt, List.any_map]
  congr 1
  funext role
  rw [Function.comp_apply]
  split
  · rename_i hrole
    simp [hrole.1, beq_false_of_ne hne.symm]
  · rfl

/-- Changes of a role concern the accounts that hold it. -/
theorem rights_setRoleStatus {roleId accountId : Int} (active : Bool)
    (h : database.holdsRole accountId roleId = false) :
    (database.setRoleStatus roleId active).rights accountId = database.rights accountId := by
  have hcodes : (database.setRoleStatus roleId active).roles.filterMap (fun role =>
      if database.holdsRole accountId role.id && role.active then some role.roleCode else none) =
      database.roles.filterMap fun role =>
        if database.holdsRole accountId role.id && role.active then some role.roleCode
        else none := by
    rw [setRoleStatus, updateAt, List.filterMap_map]
    refine List.filterMap_congr fun role _ => ?_
    rw [Function.comp_apply]
    split
    · rename_i hrole
      simp [hrole.1, h]
    · rfl
  have hkeys : (database.rolePermissions.filterMap fun entry =>
      if database.holdsRole accountId entry.1 &&
          (database.setRoleStatus roleId active).roleActive entry.1 then some entry.2 else none) =
      database.rolePermissions.filterMap fun entry =>
        if database.holdsRole accountId entry.1 && database.roleActive entry.1 then some entry.2
        else none := by
    refine List.filterMap_congr fun entry _ => ?_
    rcases eq_or_ne entry.1 roleId with heq | hne
    · simp [heq, h]
    · rw [roleActive_setRoleStatus active hne]
  exact Prod.ext (congrArg (sortBy textLe) hcodes)
    (congrArg (fun keys => dedup (sortBy textLe keys)) hkeys)

theorem rights_replaceRolePermissions {roleId accountId : Int} (keys : List String)
    (h : database.holdsRole accountId roleId = false) :
    (database.replaceRolePermissions roleId keys).rights accountId =
      database.rights accountId := by
  have hkeys : ((database.replaceRolePermissions roleId keys).rolePermissions.filterMap fun entry =>
      if database.holdsRole accountId entry.1 && database.roleActive entry.1 then some entry.2
      else none) =
      database.rolePermissions.filterMap fun entry =>
        if database.holdsRole accountId entry.1 && database.roleActive entry.1 then some entry.2
        else none := by
    rw [replaceRolePermissions, List.filterMap_append, List.filterMap_map, List.filterMap_filter]
    rw [show (List.filterMap _ (List.eraseDups keys)) = [] from ?_, List.append_nil]
    · refine List.filterMap_congr fun entry _ => ?_
      rcases eq_or_ne entry.1 roleId with heq | hne
      · simp [heq, h]
      · simp [hne]
    · refine List.filterMap_eq_nil_iff.mpr fun key _ => ?_
      rw [Function.comp_apply, h]
      rfl
  exact Prod.ext rfl (congrArg (fun keys => dedup (sortBy textLe keys)) hkeys)

theorem holdsRole_replaceAccountRoles {accountId other roleId : Int} (roleIds : List Int)
    (hne : other ≠ accountId) :
    (database.replaceAccountRoles accountId roleIds).holdsRole other roleId =
      database.holdsRole other roleId := by
  rw [Bool.eq_iff_iff]
  simp [holdsRole, replaceAccountRoles, hne, hne.symm]

theorem rights_replaceAccountRoles {accountId other : Int} (roleIds : List Int)
    (hne : other ≠ accountId) :
    (database.replaceAccountRoles accountId roleIds).rights other = database.rights other := by
  simp only [rights, roleCodes, permissionKeys, holdsRole_replaceAccountRoles roleIds hne]
  rfl

theorem fresh_insertSession : nextId (database.sessions.map (·.id)) ∉
    database.sessions.map (·.id) := fun hmem => lt_irrefl _ (lt_nextId hmem)

theorem isActive_insertSession {accountId sessionId : Int} {accessTokenHash refreshTokenHash : String}
    (hne : sessionId ∈ database.sessions.map (·.id))
    (h : (database.insertSession accountId accessTokenHash refreshTokenHash).2.isActive sessionId =
      true) : database.isActive sessionId = true := by
  obtain ⟨row, hrow, hactive⟩ := List.any_eq_true.mp h
  rcases List.mem_append.mp hrow with hold | hnew
  · exact List.any_eq_true.mpr ⟨row, hold, hactive⟩
  · rw [List.mem_singleton.mp hnew] at hactive
    simp only [Bool.and_true, beq_iff_eq] at hactive
    exact absurd (hactive ▸ hne) fresh_insertSession

/-- Rows of the same identifier and account. -/
theorem row_of_updateAt {κ : Type*} [DecidableEq κ] {key : SessionRow → κ} {target : κ}
    {guard : SessionRow → Bool} {row' : SessionRow}
    (h : row' ∈ updateAt database.sessions key target guard fun row =>
      { row with active := false }) :
    ∃ row ∈ database.sessions, row.id = row'.id ∧ row.accountId = row'.accountId := by
  obtain ⟨row, hrow, rfl⟩ := mem_updateAt.mp h
  refine ⟨row, hrow, ?_⟩
  split <;> exact ⟨rfl, rfl⟩

theorem isActive_revokeAccountSessions {accountId sessionId : Int} {spared : Option Int}
    (h : (database.revokeAccountSessions accountId spared).isActive sessionId = true) :
    database.isActive sessionId = true := by
  obtain ⟨row', hrow', hactive⟩ := List.any_eq_true.mp h
  obtain ⟨row, hrow, rfl⟩ := mem_updateAt.mp hrow'
  refine List.any_eq_true.mpr ⟨row, hrow, ?_⟩
  split at hactive
  · simp at hactive
  · exact hactive

/-- No session of the account stays active but the one that is spared. -/
theorem spared_of_isActive {accountId sessionId : Int} {spared : Option Int}
    (howner : ∀ row ∈ database.sessions, row.id = sessionId → row.accountId = accountId)
    (h : (database.revokeAccountSessions accountId spared).isActive sessionId = true) :
    spared = some sessionId := by
  obtain ⟨row', hrow', hactive⟩ := List.any_eq_true.mp h
  obtain ⟨row, hrow, rfl⟩ := mem_updateAt.mp hrow'
  split at hactive
  · simp at hactive
  · rename_i hnot
    simp only [Bool.and_eq_true, beq_iff_eq] at hactive
    by_contra hne
    refine hnot ⟨howner row hrow hactive.1, ?_⟩
    rw [hactive.2, hactive.1]
    simpa using hne

theorem isActive_revokeSessionRecord {sessionId other : Int}
    (h : (database.revokeSessionRecord sessionId).isActive other = true) :
    database.isActive other = true ∧ other ≠ sessionId := by
  obtain ⟨row', hrow', hactive⟩ := List.any_eq_true.mp h
  obtain ⟨row, hrow, rfl⟩ := mem_updateAt.mp hrow'
  split at hactive
  · simp at hactive
  · rename_i hnot
    simp only [Bool.and_eq_true, beq_iff_eq] at hactive
    refine ⟨List.any_eq_true.mpr ⟨row, hrow, by simp [hactive]⟩, fun heq => ?_⟩
    exact hnot ⟨hactive.1.trans heq, rfl⟩

end Database

end EasyDeploy.Auth
