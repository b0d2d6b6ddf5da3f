import EasyDeploy.Auth.Accounts
import EasyDeploy.Foundation.Closures
import EasyDeploy.Foundation.Transition

/-!
# Permissions of roles

The permissions that roles have, with the other permissions that these depend on.
The registry of permissions is brought up to date with the platform at its start:
permissions are added and deleted, and the built-in roles get what the platform
gives them. Names and descriptions are left out, and so are the sessions and the
audit records that a change entails.
-/

namespace EasyDeploy.Auth
open Foundation

/-- The keys of `all_permissions`. -/
def allPermissions : List String :=
  ["dashboard.view", "apps.view", "apps.create", "apps.update", "apps.status", "services.view",
   "services.deploy", "services.deploy.force", "services.deploy.cancel",
   "services.deploy.reconcile", "deployments.cleanup", "services.logs", "services.rollback",
   "nodes.view", "nodes.manage", "nodes.install", "node_credentials.view",
   "node_credentials.manage", "tasks.view", "tasks.cancel", "tasks.retry", "templates.view",
   "artifacts.view", "artifacts.upload", "rbac.accounts.view", "rbac.accounts.manage",
   "rbac.roles.view", "rbac.permissions.view", "rbac.roles.manage", "profile.view",
   "profile.password.change", "settings.view", "settings.update", "audit.view",
   "rbac.sessions.view", "rbac.sessions.manage", "api_tokens.view", "api_tokens.manage"]

/-- What a permission cannot be used without. -/
def permissionDependencies : String → List String
  | "apps.create" | "apps.update" | "apps.status" => ["apps.view"]
  | "services.deploy" | "services.deploy.force" | "services.deploy.cancel"
  | "services.deploy.reconcile" | "services.rollback" =>
      ["apps.view", "services.view", "tasks.view"]
  | "deployments.cleanup" => ["apps.view", "tasks.view", "artifacts.view"]
  | "services.logs" => ["services.view"]
  | "nodes.manage" => ["nodes.view"]
  | "nodes.install" => ["nodes.view", "tasks.view"]
  | "node_credentials.manage" => ["node_credentials.view"]
  | "tasks.cancel" | "tasks.retry" => ["tasks.view"]
  | "artifacts.upload" => ["artifacts.view"]
  | "rbac.accounts.manage" => ["rbac.accounts.view"]
  | "rbac.roles.manage" => ["rbac.roles.view", "rbac.permissions.view"]
  | "rbac.sessions.manage" => ["rbac.sessions.view"]
  | "api_tokens.manage" => ["api_tokens.view"]
  | "profile.password.change" => ["profile.view"]
  | "settings.update" => ["settings.view"]
  | _ => []

/-- Which permissions a role has from the start. -/
inductive BuiltinPermissionScope
  | allCurrent
  | explicit (permissionKeys : List String)
deriving Repr, DecidableEq

/-- A role that the program sets up. -/
structure BuiltinRolePolicy where
  roleCode : String
  permissions : BuiltinPermissionScope
deriving Repr, DecidableEq

/-- The permissions of those who deploy. -/
def deployerPermissionKeys : List String :=
  ["dashboard.view", "apps.view", "services.view", "services.deploy", "services.deploy.force",
   "services.deploy.cancel", "deployments.cleanup", "services.logs", "services.rollback",
   "nodes.view", "node_credentials.view", "tasks.view", "tasks.cancel", "tasks.retry",
   "templates.view", "artifacts.view", "profile.view", "profile.password.change"]

/-- The permissions of those who operate. -/
def operatorPermissionKeys : List String :=
  ["dashboard.view", "apps.view", "apps.create", "apps.update", "apps.status", "services.view",
   "services.logs", "nodes.view", "nodes.manage", "nodes.install", "node_credentials.view",
   "node_credentials.manage", "tasks.view", "templates.view", "artifacts.view",
   "artifacts.upload", "settings.view", "profile.view", "profile.password.change"]

/-- The permissions of those who look. -/
def viewerPermissionKeys : List String :=
  ["dashboard.view", "apps.view", "services.view", "nodes.view", "node_credentials.view",
   "tasks.view", "templates.view", "artifacts.view", "settings.view", "profile.view",
   "profile.password.change"]

/-- The permissions of those who audit. -/
def auditorPermissionKeys : List String :=
  ["dashboard.view", "apps.view", "services.view", "nodes.view", "node_credentials.view",
   "tasks.view", "audit.view", "profile.view", "profile.password.change"]

/-- The roles that the program sets up, in their order. -/
def builtinRolePolicies : List BuiltinRolePolicy :=
  [⟨"super_admin", .allCurrent⟩, ⟨"admin", .allCurrent⟩,
    ⟨"deployer", .explicit deployerPermissionKeys⟩, ⟨"operator", .explicit operatorPermissionKeys⟩,
    ⟨"viewer", .explicit viewerPermissionKeys⟩, ⟨"auditor", .explicit auditorPermissionKeys⟩]

/-- A row of `admin_permissions`. -/
structure Permission where
  id : Int
  permissionKey : String
deriving Repr, DecidableEq

/-- The table, whose identifiers and keys are unique, with the last identifier given out. -/
structure PermissionRegistry where
  rows : List Permission
  lastId : Int
  keyed : Keyed rows (·.id)
  named : Keyed rows (·.permissionKey)
  le_lastId : ∀ row ∈ rows, row.id ≤ lastId

namespace PermissionRegistry

variable (registry : PermissionRegistry)

/-- The key of a permission. -/
def keyOf (id : Int) : Option String :=
  (registry.rows.find? fun row => row.id == id).map (·.permissionKey)

/-- The identifier of a permission. -/
def idOf (permissionKey : String) : Option Int :=
  (registry.rows.find? fun row => row.permissionKey == permissionKey).map (·.id)

/-- `INSERT .. ON CONFLICT(permission_key) DO UPDATE`, which keeps the identifier. -/
def register (permissionKey : String) : PermissionRegistry :=
  if h : permissionKey ∈ registry.rows.map (·.permissionKey) then registry
  else
    { rows := registry.rows ++ [⟨registry.lastId + 1, permissionKey⟩]
      lastId := registry.lastId + 1
      keyed := registry.keyed.append fun hmem => by
        obtain ⟨row, hrow, hid⟩ := List.mem_map.mp hmem
        have hle := registry.le_lastId row hrow
        dsimp only at hid
        omega
      named := registry.named.append h
      le_lastId := fun row hrow => by
        rcases List.mem_append.mp hrow with hrow | hrow
        · exact (registry.le_lastId row hrow).trans (Int.le_of_lt (Int.lt_succ _))
        · rw [List.mem_singleton.mp hrow] }

/-- `delete_stale_permissions`. -/
def deleteStale (permissionKeys : List String) : PermissionRegistry :=
  { rows := registry.rows.filter fun row => row.permissionKey ∈ permissionKeys
    lastId := registry.lastId
    keyed := registry.keyed.sublist (List.filter_sublist.map _)
    named := registry.named.sublist (List.filter_sublist.map _)
    le_lastId := fun row hrow => registry.le_lastId row (List.mem_of_mem_filter hrow) }

/-- The registry with the permissions of the keys and no others. -/
def synced (permissionKeys : List String) : PermissionRegistry :=
  (permissionKeys.foldl register registry).deleteStale permissionKeys

/-- The dependencies of a permission that the registry has. -/
def dependencyIds (id : Int) : List Int :=
  match registry.keyOf id with
  | none => []
  | some permissionKey => (permissionDependencies permissionKey).filterMap registry.idOf

end PermissionRegistry

/-- Identifiers without repetitions. -/
def uniqueIds (ids : List Int) : List Int :=
  dedup (sortBy (fun left right => decide (left ≤ right)) ids)

/-- `none` if the loop over the dependencies would not end. -/
def normalizedPermissionIds (registry : PermissionRegistry) (permissionIds : List Int) :
    Option (Except AuthError (List Int)) :=
  let ids := uniqueIds permissionIds
  if ids.isEmpty then some (.ok ids)
  else if ids.any fun id => (registry.keyOf id).isNone then
    some (.error (.invalidInput "权限不存在"))
  else
    (closeFrom registry.dependencyIds (registry.rows.length + 1) 0 ids).map fun ids =>
      .ok (uniqueIds ids)

/-- The tables of permissions and roles. -/
structure RbacTables where
  registry : PermissionRegistry
  roles : List Role
  lastRoleId : Int
  /-- Role and permission. -/
  rolePermissions : List (Int × Int)
  rolesKeyed : Keyed roles (·.id)
  rolesNamed : Keyed roles (·.roleCode)
  le_lastRoleId : ∀ role ∈ roles, role.id ≤ lastRoleId
  granted : ∀ entry ∈ rolePermissions, entry.2 ∈ registry.rows.map (·.id)

/-- The code of a new role. -/
def normalizeRoleCode (roleCode : String) : Except AuthError String :=
  let roleCode := String.ofList ((trim roleCode).toList.map Char.toLower)
  if roleCode.isEmpty then .error (.invalidInput "请输入角色编码")
  else if roleCode.toList.all fun char =>
      char.isLower || char.isDigit || char == '_' || char == '-' then
    .ok roleCode
  else
    .error (.invalidInput "角色编码只能包含小写字母、数字、下划线和中划线")

namespace RbacTables

variable (tables : RbacTables)

/-- The error of a failed statement. -/
def databaseError (message : String) : AuthError := .internal ("数据库操作失败: " ++ message)

/-- `replace_role_permissions`, whose inserts check that the permissions exist. -/
def replaceRolePermissions (roleId : Int) (permissionIds : List Int) :
    Except AuthError RbacTables :=
  if h : ∀ id ∈ uniqueIds permissionIds, id ∈ tables.registry.rows.map (·.id) then
    .ok { tables with
      rolePermissions := tables.rolePermissions.filter (fun entry => entry.1 != roleId) ++
        (uniqueIds permissionIds).map fun id => (roleId, id)
      granted := fun entry hentry => by
        rcases List.mem_append.mp hentry with hentry | hentry
        · exact tables.granted entry (List.mem_of_mem_filter hentry)
        · obtain ⟨id, hid, rfl⟩ := List.mem_map.mp hentry
          exact h id hid }
  else
    .error (databaseError "FOREIGN KEY constraint failed")

/-- A new role, whose code must be free. -/
def insertRole (roleCode : String) : Except AuthError (Int × RbacTables) :=
  if h : roleCode ∈ tables.roles.map (·.roleCode) then .error (.conflict "角色编码已存在")
  else
    .ok (tables.lastRoleId + 1, { tables with
      roles := tables.roles ++ [⟨tables.lastRoleId + 1, roleCode, true, false⟩]
      lastRoleId := tables.lastRoleId + 1
      rolesKeyed := tables.rolesKeyed.append fun hmem => by
        obtain ⟨role, hrole, hid⟩ := List.mem_map.mp hmem
        have hle := tables.le_lastRoleId role hrole
        dsimp only at hid
        omega
      rolesNamed := tables.rolesNamed.append h
      le_lastRoleId := fun role hrole => by
        rcases List.mem_append.mp hrole with hrole | hrole
        · exact (tables.le_lastRoleId role hrole).trans (Int.le_of_lt (Int.lt_succ _))
        · rw [List.mem_singleton.mp hrole] })

/-- The end of a transaction, which the database may refuse. -/
def commit (fault : Option String) (result : Except AuthError RbacTables) :
    Except AuthError RbacTables :=
  match fault with
  | none => result
  | some message => result.bind fun _ => .error (databaseError message)

/-- A role with its permissions and what these depend on, in one transaction. -/
def createRole (roleCode roleName : String) (permissionIds : List Int) (fault : Option String) :
    Option (Except AuthError RbacTables) :=
  match normalizeRoleCode roleCode with
  | .error error => some (.error error)
  | .ok roleCode =>
      if (trim roleName).isEmpty then some (.error (.invalidInput "请输入角色名称"))
      else
        (normalizedPermissionIds tables.registry permissionIds).map fun normalized =>
          commit fault do
            let permissionIds ← normalized
            let (roleId, inserted) ← tables.insertRole roleCode
            inserted.replaceRolePermissions roleId permissionIds

/-- The roles of the program are not edited. -/
def ensureCustomRole (roleId : Int) : Except AuthError Unit :=
  match tables.roles.find? fun role => role.id == roleId with
  | none => .error (.invalidInput "角色不存在")
  | some role =>
      if role.isSystem then .error (.invalidInput "系统内置角色由平台版本维护，不能在页面中修改")
      else .ok ()

/-- The permissions of a role are replaced, in one transaction. -/
def updateRolePermissions (roleId : Int) (permissionIds : List Int) (fault : Option String) :
    Option (Except AuthError RbacTables) :=
  match tables.ensureCustomRole roleId with
  | .error error => some (.error error)
  | .ok () =>
      (normalizedPermissionIds tables.registry permissionIds).map fun normalized =>
        commit fault do
          let permissionIds ← normalized
          tables.replaceRolePermissions roleId permissionIds

/-- Another registry; what roles have of permissions that it lacks is deleted. -/
def withRegistry (registry : PermissionRegistry) : RbacTables :=
  { tables with
    registry
    rolePermissions := tables.rolePermissions.filter fun entry =>
      entry.2 ∈ registry.rows.map (·.id)
    granted := fun _ hentry => of_decide_eq_true (List.mem_filter.mp hentry).2 }

/-- The permissions of a scope. -/
def scopeIds : BuiltinPermissionScope → List Int
  | .allCurrent => tables.registry.rows.map (·.id)
  | .explicit permissionKeys => permissionKeys.filterMap tables.registry.idOf

/-- A role of the program gets the permissions of its policy. -/
def syncBuiltinRole (policy : BuiltinRolePolicy) : Except AuthError RbacTables :=
  match tables.roles.find? fun role => role.roleCode == policy.roleCode with
  | none => .ok tables
  | some role => tables.replaceRolePermissions role.id (tables.scopeIds policy.permissions)

/-- `sync_builtin_role_permissions`. -/
def syncBuiltinRoles : List BuiltinRolePolicy → RbacTables → Except AuthError RbacTables
  | [], tables => .ok tables
  | policy :: policies, tables => do
      let tables ← tables.syncBuiltinRole policy
      syncBuiltinRoles policies tables

/-- All of them do, in one transaction. -/
def syncPermissionRegistry (fault : Option String) : Except AuthError RbacTables :=
  commit fault (syncBuiltinRoles builtinRolePolicies
    (tables.withRegistry (tables.registry.synced allPermissions)))

/-- What changes roles. -/
inductive RbacAction
  | createRole (roleCode roleName : String) (permissionIds : List Int) (fault : Option String)
  | updateRolePermissions (roleId : Int) (permissionIds : List Int) (fault : Option String)
  | syncPermissionRegistry (fault : Option String)
deriving Repr, DecidableEq

/-- A transaction that fails is rolled back. -/
def afterwards : Except AuthError RbacTables → RbacTables
  | .ok tables' => tables'
  | .error _ => tables

def step : RbacAction → Option RbacTables
  | .createRole roleCode roleName permissionIds fault =>
      (tables.createRole roleCode roleName permissionIds fault).map tables.afterwards
  | .updateRolePermissions roleId permissionIds fault =>
      (tables.updateRolePermissions roleId permissionIds fault).map tables.afterwards
  | .syncPermissionRegistry fault => some (tables.afterwards (tables.syncPermissionRegistry fault))

end RbacTables

end EasyDeploy.Auth
