import EasyDeploy.Auth.Permissions
import EasyDeploy.Foundation.Results

/-!
# Roles keep what their permissions depend on

The permissions that a form gives are normalised to the least closed set. A
synchronisation rewrites the built-in roles but not the others, so these stay
closed when the registry gets no dependency that it lacked.
-/

namespace EasyDeploy.Auth
open Foundation

namespace PermissionRegistry

variable {registry : PermissionRegistry} {id other : Int} {permissionKey : String}

/-- An identifier has the key of its row. -/
theorem keyOf_eq_some : registry.keyOf id = some permissionKey ↔
    ⟨id, permissionKey⟩ ∈ registry.rows := by
  rw [keyOf, Option.map_eq_some_iff]
  constructor
  · rintro ⟨⟨id', permissionKey'⟩, hfind, rfl⟩
    have hid : id' = id := by simpa using List.find?_some hfind
    exact hid ▸ List.mem_of_find?_eq_some hfind
  · intro hmem
    have hsome : (registry.rows.find? fun row => row.id == id).isSome = true :=
      List.find?_isSome.mpr ⟨_, hmem, beq_self_eq_true id⟩
    obtain ⟨row, hfind⟩ := Option.isSome_iff_exists.mp hsome
    have hid : row.id = id := by simpa using List.find?_some hfind
    have hrow := registry.keyed.eq (List.mem_of_find?_eq_some hfind) hmem hid
    exact ⟨row, hfind, congrArg Permission.permissionKey hrow⟩

/-- A key has the identifier of its row. -/
theorem idOf_eq_some : registry.idOf permissionKey = some id ↔
    ⟨id, permissionKey⟩ ∈ registry.rows := by
  rw [idOf, Option.map_eq_some_iff]
  constructor
  · rintro ⟨⟨id', permissionKey'⟩, hfind, rfl⟩
    have hkey : permissionKey' = permissionKey := by simpa using List.find?_some hfind
    exact hkey ▸ List.mem_of_find?_eq_some hfind
  · intro hmem
    have hsome : (registry.rows.find? fun row => row.permissionKey == permissionKey).isSome =
        true :=
      List.find?_isSome.mpr ⟨_, hmem, beq_self_eq_true permissionKey⟩
    obtain ⟨row, hfind⟩ := Option.isSome_iff_exists.mp hsome
    have hkey : row.permissionKey = permissionKey := by simpa using List.find?_some hfind
    have hrow := registry.named.eq (List.mem_of_find?_eq_some hfind) hmem hkey
    exact ⟨row, hfind, congrArg Permission.id hrow⟩

theorem mem_ids : id ∈ registry.rows.map (·.id) ↔ ∃ key, ⟨id, key⟩ ∈ registry.rows := by
  rw [List.mem_map]
  constructor
  · rintro ⟨row, hrow, rfl⟩
    exact ⟨row.permissionKey, hrow⟩
  · rintro ⟨key, hrow⟩
    exact ⟨_, hrow, rfl⟩

theorem mem_keys : permissionKey ∈ registry.rows.map (·.permissionKey) ↔
    ∃ id, ⟨id, permissionKey⟩ ∈ registry.rows := by
  rw [List.mem_map]
  constructor
  · rintro ⟨row, hrow, rfl⟩
    exact ⟨row.id, hrow⟩
  · rintro ⟨id, hrow⟩
    exact ⟨_, hrow, rfl⟩

/-- An identifier without a key has no row. -/
theorem isNone_keyOf : (registry.keyOf id).isNone = true ↔ id ∉ registry.rows.map (·.id) := by
  rw [mem_ids, Option.isNone_iff_eq_none, ← not_iff_not, not_not, ← ne_eq,
    Option.ne_none_iff_exists']
  exact exists_congr fun _ => keyOf_eq_some

/-- The dependencies of a permission are those of its key that are registered. -/
theorem mem_dependencyIds : other ∈ registry.dependencyIds id ↔
    ∃ key, ⟨id, key⟩ ∈ registry.rows ∧ ∃ dependency ∈ permissionDependencies key,
      ⟨other, dependency⟩ ∈ registry.rows := by
  unfold dependencyIds
  split
  · rename_i hnone
    refine ⟨fun h => absurd h List.not_mem_nil, ?_⟩
    rintro ⟨key, hkey, -⟩
    rw [keyOf_eq_some.mpr hkey] at hnone
    cases hnone
  · rename_i key hkey
    rw [List.mem_filterMap]
    constructor
    · rintro ⟨dependency, hdependency, hid⟩
      exact ⟨key, keyOf_eq_some.mp hkey, dependency, hdependency, idOf_eq_some.mp hid⟩
    · rintro ⟨key', hkey', dependency, hdependency, hid⟩
      obtain rfl := Option.some.inj (hkey.symm.trans (keyOf_eq_some.mpr hkey'))
      exact ⟨dependency, hdependency, idOf_eq_some.mpr hid⟩

/-- Every dependency that is found is registered. -/
theorem closedUnder_ids :
    ClosedUnder registry.dependencyIds {id | id ∈ registry.rows.map (·.id)} := by
  intro id _ other hother
  obtain ⟨-, -, dependency, -, hrow⟩ := mem_dependencyIds.mp hother
  exact mem_ids.mpr ⟨dependency, hrow⟩

/-- A key is registered once, with an identifier that is not in use. -/
theorem mem_register {row : Permission} : row ∈ (registry.register permissionKey).rows ↔
    row ∈ registry.rows ∨ permissionKey ∉ registry.rows.map (·.permissionKey) ∧
      row = ⟨registry.lastId + 1, permissionKey⟩ := by
  unfold register
  split
  · rename_i hknown
    exact ⟨.inl, fun h => h.resolve_right fun hnew => hnew.1 hknown⟩
  · rename_i hnew
    rw [List.mem_append, List.mem_singleton]
    exact or_congr_right ⟨fun h => ⟨hnew, h⟩, fun h => h.2⟩

/-- Identifiers only grow. -/
theorem lastId_le_register : registry.lastId ≤ (registry.register permissionKey).lastId := by
  unfold register
  split
  · exact Int.le_refl _
  · exact Int.le_of_lt (Int.lt_succ _)

/-- Registering keeps the rows and adds rows with new identifiers only. -/
theorem foldl_register (registry : PermissionRegistry) (keys : List String) :
    (∀ row ∈ registry.rows, row ∈ (keys.foldl register registry).rows) ∧
      (∀ key ∈ keys, key ∈ (keys.foldl register registry).rows.map (·.permissionKey)) ∧
      ∀ row ∈ (keys.foldl register registry).rows,
        row ∈ registry.rows ∨ registry.lastId < row.id := by
  induction keys generalizing registry with
  | nil => exact ⟨fun _ h => h, fun _ h => absurd h List.not_mem_nil, fun _ h => .inl h⟩
  | cons key keys ih =>
      obtain ⟨hkept, hadded, horigin⟩ := ih (registry.register key)
      rw [List.foldl_cons]
      refine ⟨fun row hrow => hkept row (mem_register.mpr (.inl hrow)), ?_, ?_⟩
      · intro other hother
        rcases List.mem_cons.mp hother with rfl | hother
        · by_cases hknown : other ∈ registry.rows.map (·.permissionKey)
          · obtain ⟨row, hrow, hkey⟩ := List.mem_map.mp hknown
            exact List.mem_map.mpr ⟨row, hkept row (mem_register.mpr (.inl hrow)), hkey⟩
          · exact List.mem_map.mpr ⟨_, hkept _ (mem_register.mpr (.inr ⟨hknown, rfl⟩)), rfl⟩
        · exact hadded other hother
      · intro row hrow
        rcases horigin row hrow with hbefore | hlt
        · rcases mem_register.mp hbefore with hold | ⟨-, rfl⟩
          · exact .inl hold
          · exact .inr (Int.lt_succ _)
        · exact .inr (Int.lt_of_le_of_lt lastId_le_register hlt)

variable {keys : List String} {row : Permission}

/-- After the synchronization each row is an earlier one or has a new identifier. -/
theorem mem_synced (h : row ∈ (registry.synced keys).rows) :
    row.permissionKey ∈ keys ∧ (row ∈ registry.rows ∨ registry.lastId < row.id) := by
  obtain ⟨hrow, hkey⟩ := List.mem_filter.mp h
  exact ⟨of_decide_eq_true hkey, (foldl_register registry keys).2.2 row hrow⟩

/-- A known permission keeps its row. -/
theorem mem_synced_of_mem (h : row ∈ registry.rows) (hkey : row.permissionKey ∈ keys) :
    row ∈ (registry.synced keys).rows :=
  List.mem_filter.mpr ⟨(foldl_register registry keys).1 row h, decide_eq_true hkey⟩

/-- Every known key is registered by the synchronization. -/
theorem exists_mem_synced (h : permissionKey ∈ keys) :
    ∃ id, ⟨id, permissionKey⟩ ∈ (registry.synced keys).rows := by
  obtain ⟨id, hrow⟩ := mem_keys.mp ((foldl_register registry keys).2.1 permissionKey h)
  exact ⟨id, List.mem_filter.mpr ⟨hrow, decide_eq_true h⟩⟩

/-- A permission that was registered before has kept its row. -/
theorem mem_of_mem_synced (h : row ∈ (registry.synced keys).rows)
    (hid : row.id ∈ registry.rows.map (·.id)) : row ∈ registry.rows := by
  obtain ⟨old, hold, heq⟩ := List.mem_map.mp hid
  have hle := registry.le_lastId old hold
  exact (mem_synced h).2.resolve_right fun hlt => by omega

end PermissionRegistry

@[simp] theorem mem_uniqueIds {ids : List Int} {id : Int} : id ∈ uniqueIds ids ↔ id ∈ ids := by
  rw [uniqueIds, mem_dedup, mem_sortBy]

/-- The identifiers are sorted, each once. -/
theorem pairwise_uniqueIds (ids : List Int) : (uniqueIds ids).Pairwise (· < ·) := by
  have hsorted : (sortBy (fun left right : Int => decide (left ≤ right)) ids).Pairwise
      fun left right => decide (left ≤ right) = true := by
    refine pairwise_sortBy (fun a b c hab hbc => ?_) (fun a b => ?_)
    · exact decide_eq_true ((of_decide_eq_true hab).trans (of_decide_eq_true hbc))
    · rw [Bool.or_eq_true, decide_eq_true_eq, decide_eq_true_eq]
      exact Int.le_total a b
  refine (pairwise_dedup (fun a b hab hba => ?_) hsorted).imp fun {a b} h => ?_
  · exact Int.le_antisymm (of_decide_eq_true hab) (of_decide_eq_true hba)
  · exact lt_of_le_of_ne (of_decide_eq_true h.1) h.2

theorem nodup_of_ascending {ids : List Int} (h : ids.Pairwise (· < ·)) : ids.Nodup :=
  h.imp fun hlt => Int.ne_of_lt hlt

/-- Ascending lists of the same numbers are equal. -/
theorem eq_of_ascending {ids ids' : List Int} (h : ids.Pairwise (· < ·))
    (h' : ids'.Pairwise (· < ·)) (hmem : ∀ id, id ∈ ids ↔ id ∈ ids') : ids = ids' := by
  refine List.Perm.eq_of_pairwise (fun a b _ _ hab hba => ?_) h h'
    ((List.perm_ext_iff_of_nodup (nodup_of_ascending h) (nodup_of_ascending h')).mpr hmem)
  exact absurd hab (Int.lt_asymm hba)

section Normalized

variable {registry : PermissionRegistry} {ids : List Int}

/-- An identifier that is not registered is refused. -/
theorem normalizedPermissionIds_unknown (h : ∃ id ∈ ids, id ∉ registry.rows.map (·.id)) :
    normalizedPermissionIds registry ids = some (.error (.invalidInput "权限不存在")) := by
  obtain ⟨id, hid, hunknown⟩ := h
  have hmem : id ∈ uniqueIds ids := mem_uniqueIds.mpr hid
  have hany : ((uniqueIds ids).any fun id => (registry.keyOf id).isNone) = true :=
    List.any_eq_true.mpr ⟨id, hmem, PermissionRegistry.isNone_keyOf.mpr hunknown⟩
  have hempty : ¬ (uniqueIds ids).isEmpty = true := fun hempty => by
    rw [List.isEmpty_iff.mp hempty] at hmem
    cases hmem
  simp only [normalizedPermissionIds, hany, if_neg hempty, if_true]

/-- The loop ends, with the least closed set of permissions. -/
theorem normalizedPermissionIds_known (h : ∀ id ∈ ids, id ∈ registry.rows.map (·.id)) :
    ∃ result, normalizedPermissionIds registry ids = some (.ok result) ∧
      result.Pairwise (· < ·) ∧ LeastClosed registry.dependencyIds ids result := by
  have hunique := nodup_of_ascending (pairwise_uniqueIds ids)
  have hknown : uniqueIds ids ⊆ registry.rows.map (·.id) :=
    fun id hid => h id (mem_uniqueIds.mp hid)
  by_cases hempty : (uniqueIds ids).isEmpty = true
  · refine ⟨uniqueIds ids, by simp only [normalizedPermissionIds, if_pos hempty],
      pairwise_uniqueIds ids, ?_⟩
    have hnil := List.isEmpty_iff.mp hempty
    have hids : ids = [] := List.eq_nil_iff_forall_not_mem.mpr fun id hid => by
      have hmem : id ∈ uniqueIds ids := mem_uniqueIds.mpr hid
      rw [hnil] at hmem
      cases hmem
    rw [hnil, hids]
    exact ⟨List.Subset.refl _, fun _ hitem => absurd hitem List.not_mem_nil,
      fun _ _ _ _ hitem => absurd hitem List.not_mem_nil⟩
  · have hany : ¬ ((uniqueIds ids).any fun id => (registry.keyOf id).isNone) = true := by
      intro hany
      obtain ⟨id, hid, hnone⟩ := List.any_eq_true.mp hany
      exact PermissionRegistry.isNone_keyOf.mp hnone (hknown hid)
    have hfuel : (registry.rows.map (·.id)).length < 0 + (registry.rows.length + 1) := by
      rw [List.length_map]
      omega
    obtain ⟨closed, hclose, -, hleast⟩ := (Passed.initially hunique).closeFrom hknown
      PermissionRegistry.closedUnder_ids hfuel
    refine ⟨uniqueIds closed, ?_, pairwise_uniqueIds closed,
      hleast.congr (fun _ => mem_uniqueIds.symm) fun _ => mem_uniqueIds⟩
    simp only [normalizedPermissionIds, if_neg hempty, if_neg hany, hclose, Option.map_some]

end Normalized

namespace RbacTables

variable {tables tables' : RbacTables} {roleId : Int} {ids : List Int}

/-- What a role has. -/
def grants (tables : RbacTables) (roleId : Int) : Set Int :=
  {id | (roleId, id) ∈ tables.rolePermissions}

/-- Every role has what its permissions depend on. -/
def Closed (tables : RbacTables) : Prop :=
  ∀ role ∈ tables.roles, ClosedUnder tables.registry.dependencyIds (tables.grants role.id)

/-- What `replaceRolePermissions` does when it does not fail. -/
structure Replaced (tables : RbacTables) (roleId : Int) (ids : List Int) (tables' : RbacTables) :
    Prop where
  registry_eq : tables'.registry = tables.registry
  roles_eq : tables'.roles = tables.roles
  grants_eq : tables'.grants roleId = {id | id ∈ ids}
  others_eq : ∀ other, other ≠ roleId → tables'.grants other = tables.grants other

/-- What a replacement of grants has changed. -/
theorem replaceRolePermissions_eq_ok (h : tables.replaceRolePermissions roleId ids = .ok tables') :
    Replaced tables roleId ids tables' := by
  unfold replaceRolePermissions at h
  split at h
  · obtain rfl := Except.ok.inj h
    refine ⟨rfl, rfl, Set.ext fun id => ?_, fun other hother => Set.ext fun id => ?_⟩
    · simp [grants]
    · simp [grants, hother, Ne.symm hother]
  · cases h

/-- Registered permissions are granted. -/
theorem exists_replaced (roleId : Int) (h : ∀ id ∈ ids, id ∈ tables.registry.rows.map (·.id)) :
    ∃ tables', tables.replaceRolePermissions roleId ids = .ok tables' := by
  have hunique : ∀ id ∈ uniqueIds ids, id ∈ tables.registry.rows.map (·.id) :=
    fun id hid => h id (mem_uniqueIds.mp hid)
  exact ⟨_, dif_pos hunique⟩

/-- The grants stay closed when closed ones replace those of a role. -/
theorem Replaced.closed (h : Replaced tables roleId ids tables')
    (hids : ClosedUnder tables.registry.dependencyIds {id | id ∈ ids})
    (hothers : ∀ role ∈ tables.roles, role.id ≠ roleId →
      ClosedUnder tables.registry.dependencyIds (tables.grants role.id)) : tables'.Closed := by
  intro role hrole
  rw [h.roles_eq] at hrole
  rw [h.registry_eq]
  by_cases hid : role.id = roleId
  · rw [hid, h.grants_eq]
    exact hids
  · rw [h.others_eq role.id hid]
    exact hothers role hrole hid

/-- A transaction that is committed has not failed. -/
theorem commit_eq_ok {fault : Option String} {result : Except AuthError RbacTables}
    (h : commit fault result = .ok tables') : fault = none ∧ result = .ok tables' := by
  cases fault with
  | none => exact ⟨rfl, h⟩
  | some message =>
      obtain ⟨_, -, hfalse⟩ := except_bind_eq_ok.mp h
      cases hfalse

/-- A normalized selection has the dependencies of its permissions. -/
theorem normalized_closed {registry : PermissionRegistry} {result : List Int}
    (h : normalizedPermissionIds registry ids = some (.ok result)) :
    ClosedUnder registry.dependencyIds {id | id ∈ result} := by
  by_cases hknown : ∀ id ∈ ids, id ∈ registry.rows.map (·.id)
  · obtain ⟨result', hresult, -, hleast⟩ := normalizedPermissionIds_known hknown
    obtain rfl := Except.ok.inj (Option.some.inj (h.symm.trans hresult))
    exact hleast.closed
  · rw [normalizedPermissionIds_unknown (by simpa using hknown)] at h
    cases h

/-- An update of a role leaves the grants closed. -/
theorem closed_updateRolePermissions (h : tables.Closed) {fault : Option String}
    (hupdate : tables.updateRolePermissions roleId ids fault = some (.ok tables')) :
    tables'.Closed := by
  unfold updateRolePermissions at hupdate
  split at hupdate
  · cases hupdate
  · obtain ⟨normalized, hnormalized, hcommit⟩ := Option.map_eq_some_iff.mp hupdate
    obtain ⟨result, rfl, hreplace⟩ := except_bind_eq_ok.mp (commit_eq_ok hcommit).2
    exact (replaceRolePermissions_eq_ok hreplace).closed (normalized_closed hnormalized)
      fun role hrole _ => h role hrole

/-- A new role has closed grants. -/
theorem closed_createRole (h : tables.Closed) {roleCode roleName : String} {fault : Option String}
    (hcreate : tables.createRole roleCode roleName ids fault = some (.ok tables')) :
    tables'.Closed := by
  unfold createRole at hcreate
  split at hcreate
  · cases hcreate
  · split at hcreate
    · cases hcreate
    · obtain ⟨normalized, hnormalized, hcommit⟩ := Option.map_eq_some_iff.mp hcreate
      obtain ⟨result, rfl, hinsert⟩ := except_bind_eq_ok.mp (commit_eq_ok hcommit).2
      obtain ⟨⟨newId, inserted⟩, hinserted, hreplace⟩ := except_bind_eq_ok.mp hinsert
      unfold insertRole at hinserted
      split at hinserted
      · cases hinserted
      · obtain ⟨rfl, rfl⟩ := Prod.mk.inj (Except.ok.inj hinserted)
        refine (replaceRolePermissions_eq_ok hreplace).closed (normalized_closed hnormalized) ?_
        intro role hrole hid
        rcases List.mem_append.mp hrole with hold | hnew
        · exact h role hold
        · rw [List.mem_singleton.mp hnew] at hid
          exact absurd rfl hid

/-- Every dependency of a permission is a known permission. -/
theorem dependencies_known {permissionKey dependency : String}
    (h : dependency ∈ permissionDependencies permissionKey) : dependency ∈ allPermissions := by
  revert dependency
  unfold permissionDependencies
  split <;> decide

/-- The built-in roles get closed sets of permissions. -/
theorem policies_closed : ∀ policy ∈ builtinRolePolicies, ∀ keys,
    policy.permissions = .explicit keys →
      ∀ key ∈ keys, ∀ dependency ∈ permissionDependencies key, dependency ∈ keys := by
  intro policy hpolicy keys hkeys
  simp only [builtinRolePolicies, List.mem_cons, List.not_mem_nil, or_false] at hpolicy
  rcases hpolicy with rfl | rfl | rfl | rfl | rfl | rfl
  · cases hkeys
  · cases hkeys
  all_goals
    obtain rfl := BuiltinPermissionScope.explicit.inj hkeys
    decide

/-- The permissions of a built-in role are registered. -/
theorem known_scopeIds (scope : BuiltinPermissionScope) :
    ∀ id ∈ tables.scopeIds scope, id ∈ tables.registry.rows.map (·.id) := by
  intro id hid
  cases scope with
  | allCurrent => exact hid
  | explicit keys =>
      obtain ⟨key, -, hkey⟩ := List.mem_filterMap.mp hid
      exact PermissionRegistry.mem_ids.mpr ⟨key, PermissionRegistry.idOf_eq_some.mp hkey⟩

/-- The permissions of a built-in role are closed. -/
theorem closed_scopeIds {policy : BuiltinRolePolicy} (h : policy ∈ builtinRolePolicies) :
    ClosedUnder tables.registry.dependencyIds {id | id ∈ tables.scopeIds policy.permissions} := by
  cases hscope : policy.permissions with
  | allCurrent => exact PermissionRegistry.closedUnder_ids
  | explicit keys =>
      intro id hid other hother
      obtain ⟨key, hkey, hrow⟩ := List.mem_filterMap.mp hid
      obtain ⟨key', hrow', dependency, hdependency, hdependencyRow⟩ :=
        PermissionRegistry.mem_dependencyIds.mp hother
      have hsame := tables.registry.keyed.eq hrow' (PermissionRegistry.idOf_eq_some.mp hrow) rfl
      obtain rfl : key' = key := congrArg Permission.permissionKey hsame
      exact List.mem_filterMap.mpr ⟨dependency,
        policies_closed policy h keys hscope key' hkey dependency hdependency,
        PermissionRegistry.idOf_eq_some.mpr hdependencyRow⟩

/-- The built-in roles are rewritten, and the others are left as they are. -/
theorem syncBuiltinRoles_ok {policies : List BuiltinRolePolicy}
    (h : ∀ policy ∈ policies, policy ∈ builtinRolePolicies) :
    ∃ tables', syncBuiltinRoles policies tables = .ok tables' ∧
      tables'.registry = tables.registry ∧ tables'.roles = tables.roles ∧
      (∀ role ∈ tables.roles, role.roleCode ∉ policies.map (·.roleCode) →
        tables'.grants role.id = tables.grants role.id) ∧
      ∀ role ∈ tables.roles, role.roleCode ∈ policies.map (·.roleCode) ∨
          ClosedUnder tables.registry.dependencyIds (tables.grants role.id) →
        ClosedUnder tables'.registry.dependencyIds (tables'.grants role.id) := by
  induction policies generalizing tables with
  | nil =>
      refine ⟨tables, rfl, rfl, rfl, fun _ _ _ => rfl, fun role _ hrole => ?_⟩
      exact hrole.resolve_left List.not_mem_nil
  | cons policy policies ih =>
      have hrest : ∀ policy ∈ policies, policy ∈ builtinRolePolicies :=
        fun other hother => h other (List.mem_cons_of_mem _ hother)
      rw [syncBuiltinRoles, syncBuiltinRole]
      cases hfind : tables.roles.find? fun role => role.roleCode == policy.roleCode with
      | none =>
          obtain ⟨tables', hok, hregistry, hroles, hothers, hclosed⟩ := @ih tables hrest
          have habsent : ∀ role ∈ tables.roles, role.roleCode ≠ policy.roleCode :=
            fun role hrole heq => by simpa [heq] using List.find?_eq_none.mp hfind role hrole
          refine ⟨tables', hok, hregistry, hroles, ?_, ?_⟩
          · intro role hrole hcode
            exact hothers role hrole fun hmem => hcode (List.mem_cons_of_mem _ hmem)
          · intro role hrole hcode
            refine hclosed role hrole (hcode.imp_left fun hmem => ?_)
            exact (List.mem_cons.mp hmem).resolve_left (habsent role hrole)
      | some builtin =>
          have hbuiltin : builtin ∈ tables.roles := List.mem_of_find?_eq_some hfind
          have hcode : builtin.roleCode = policy.roleCode := by simpa using List.find?_some hfind
          obtain ⟨between, hbetween⟩ :=
            exists_replaced builtin.id (known_scopeIds policy.permissions)
          have hreplaced := replaceRolePermissions_eq_ok hbetween
          obtain ⟨tables', hok, hregistry, hroles, hothers, hclosed⟩ := @ih between hrest
          rw [hreplaced.registry_eq] at hregistry
          rw [hreplaced.roles_eq] at hroles hothers hclosed
          have hother : ∀ role ∈ tables.roles, role.roleCode ≠ policy.roleCode →
              role.id ≠ builtin.id := fun role hrole hne heq =>
            hne ((congrArg Role.roleCode (tables.rolesKeyed.eq hrole hbuiltin heq)).trans hcode)
          refine ⟨tables', ?_, hregistry, hroles, ?_, ?_⟩
          · show (tables.replaceRolePermissions builtin.id _ >>= _) = _
            rw [hbetween]
            exact hok
          · intro role hrole hnot
            rw [List.map_cons, List.mem_cons, not_or] at hnot
            rw [hothers role hrole hnot.2,
              hreplaced.others_eq role.id (hother role hrole hnot.1)]
          · intro role hrole hbefore
            refine hclosed role hrole ?_
            rw [List.map_cons, List.mem_cons, or_assoc] at hbefore
            by_cases hsame : role.roleCode = policy.roleCode
            · obtain rfl := tables.rolesNamed.eq hrole hbuiltin (hsame.trans hcode.symm)
              right
              rw [hreplaced.registry_eq, hreplaced.grants_eq]
              exact closed_scopeIds (h policy List.mem_cons_self)
            · rw [hreplaced.registry_eq, hreplaced.others_eq role.id (hother role hrole hsame)]
              exact hbefore.resolve_left hsame

/-- The registry lacks no dependency of a permission that a role has, which the platform knows and
does not give to the role itself. -/
def Unextended (tables : RbacTables) : Prop :=
  ∀ role ∈ tables.roles, role.roleCode ∉ builtinRolePolicies.map (·.roleCode) →
    ∀ permission ∈ tables.registry.rows, permission.id ∈ tables.grants role.id →
      permission.permissionKey ∈ allPermissions →
        ∀ dependency ∈ permissionDependencies permission.permissionKey,
          dependency ∈ tables.registry.rows.map (·.permissionKey)

section Synced

variable {role : Role}

/-- A synchronization drops the grants whose permission is gone. -/
theorem mem_grants_withRegistry {registry : PermissionRegistry} {id : Int} :
    id ∈ (tables.withRegistry registry).grants roleId ↔
      id ∈ tables.grants roleId ∧ id ∈ registry.rows.map (·.id) := by
  show (roleId, id) ∈ tables.rolePermissions.filter _ ↔ _
  rw [List.mem_filter, decide_eq_true_eq]
  rfl

/-- A role that is not rewritten stays closed if the registry lacks nothing that it needs. -/
theorem closed_withRegistry {keys : List String}
    (hdependencies : ∀ key, ∀ dependency ∈ permissionDependencies key, dependency ∈ keys)
    (h : ClosedUnder tables.registry.dependencyIds (tables.grants role.id))
    (hknown : ∀ permission ∈ tables.registry.rows, permission.id ∈ tables.grants role.id →
      permission.permissionKey ∈ keys →
        ∀ dependency ∈ permissionDependencies permission.permissionKey,
          dependency ∈ tables.registry.rows.map (·.permissionKey)) :
    ClosedUnder (tables.registry.synced keys).dependencyIds
      ((tables.withRegistry (tables.registry.synced keys)).grants role.id) := by
  intro id hid other hother
  obtain ⟨hgranted, -⟩ := mem_grants_withRegistry.mp hid
  obtain ⟨key, hrow, dependency, hdependency, hotherRow⟩ :=
    PermissionRegistry.mem_dependencyIds.mp hother
  have hbefore : (⟨id, key⟩ : Permission) ∈ tables.registry.rows :=
    PermissionRegistry.mem_of_mem_synced hrow (tables.granted _ hgranted)
  obtain ⟨other', hdependencyRow⟩ := PermissionRegistry.mem_keys.mp
    (hknown _ hbefore hgranted (PermissionRegistry.mem_synced hrow).1 dependency hdependency)
  have hsynced : (⟨other', dependency⟩ : Permission) ∈ (tables.registry.synced keys).rows :=
    PermissionRegistry.mem_synced_of_mem hdependencyRow (hdependencies key dependency hdependency)
  have hsame := (tables.registry.synced keys).named.eq hotherRow hsynced rfl
  obtain rfl : other = other' := congrArg Permission.id hsame
  refine mem_grants_withRegistry.mpr ⟨?_, PermissionRegistry.mem_ids.mpr ⟨_, hsynced⟩⟩
  exact h id hgranted other (PermissionRegistry.mem_dependencyIds.mpr
    ⟨key, hbefore, dependency, hdependency, hdependencyRow⟩)

/-- And only then. -/
theorem known_of_closed_withRegistry {keys : List String}
    (hdependencies : ∀ key, ∀ dependency ∈ permissionDependencies key, dependency ∈ keys)
    (h : ClosedUnder (tables.registry.synced keys).dependencyIds
      ((tables.withRegistry (tables.registry.synced keys)).grants role.id))
    {permission : Permission} (hrow : permission ∈ tables.registry.rows)
    (hgranted : permission.id ∈ tables.grants role.id) (hkey : permission.permissionKey ∈ keys)
    {dependency : String}
    (hdependency : dependency ∈ permissionDependencies permission.permissionKey) :
    dependency ∈ tables.registry.rows.map (·.permissionKey) := by
  have hsynced : permission ∈ (tables.registry.synced keys).rows :=
    PermissionRegistry.mem_synced_of_mem hrow hkey
  obtain ⟨other, hother⟩ : ∃ id, ⟨id, dependency⟩ ∈ (tables.registry.synced keys).rows :=
    PermissionRegistry.exists_mem_synced (hdependencies _ dependency hdependency)
  have hgranted' := h permission.id
    (mem_grants_withRegistry.mpr ⟨hgranted, List.mem_map_of_mem hsynced⟩) other
    (PermissionRegistry.mem_dependencyIds.mpr
      ⟨permission.permissionKey, hsynced, dependency, hdependency, hother⟩)
  have hbefore := tables.granted _ (mem_grants_withRegistry.mp hgranted').1
  exact PermissionRegistry.mem_keys.mpr
    ⟨other, PermissionRegistry.mem_of_mem_synced hother hbefore⟩

end Synced

/-- A synchronisation leaves every role closed exactly when it extends the registry by nothing that
a role lacks. -/
theorem syncPermissionRegistry_closed_iff (h : tables.Closed) :
    ∃ tables', tables.syncPermissionRegistry none = .ok tables' ∧
      (tables'.Closed ↔ tables.Unextended) := by
  have hdependencies : ∀ key, ∀ dependency ∈ permissionDependencies key,
      dependency ∈ allPermissions := fun _ _ => dependencies_known
  rw [syncPermissionRegistry, commit]
  unfold Unextended
  generalize allPermissions = keys at hdependencies ⊢
  obtain ⟨tables', hok, hregistry, hroles, hothers, hclosed⟩ :=
    @syncBuiltinRoles_ok (tables.withRegistry (tables.registry.synced keys))
      builtinRolePolicies fun _ hpolicy => hpolicy
  refine ⟨tables', hok, fun hall role hrole hcode permission hrow hgranted hkey dependency
    hdependency => ?_, fun hunextended role hrole => ?_⟩
  · have hrole' := hall role (hroles ▸ hrole)
    rw [hregistry, hothers role hrole hcode] at hrole'
    exact known_of_closed_withRegistry hdependencies hrole' hrow hgranted hkey hdependency
  · rw [hroles] at hrole
    refine hclosed role hrole ?_
    by_cases hcode : role.roleCode ∈ builtinRolePolicies.map (·.roleCode)
    · exact .inl hcode
    · exact .inr (closed_withRegistry hdependencies (h role hrole)
        (hunextended role hrole hcode))

end RbacTables

/-- Databases in which the roles are closed, whatever registry an earlier version has left. -/
def rbac : Transition RbacTables RbacTables.RbacAction where
  initial := RbacTables.Closed
  step := RbacTables.step

/-- A synchronisation that is not rolled back does not extend what a role has. -/
def Careful (tables : RbacTables) : RbacTables.RbacAction → Prop
  | .syncPermissionRegistry none => tables.Unextended
  | _ => True

/-- A careful step leaves the grants closed. -/
theorem closed_step {tables tables' : RbacTables} {action : RbacTables.RbacAction}
    (h : tables.Closed) (hcareful : Careful tables action)
    (hstep : tables.step action = some tables') : tables'.Closed := by
  cases action with
  | createRole roleCode roleName permissionIds fault =>
      rw [RbacTables.step] at hstep
      obtain ⟨result, hresult, rfl⟩ := Option.map_eq_some_iff.mp hstep
      cases result with
      | error error => exact h
      | ok created => exact RbacTables.closed_createRole h hresult
  | updateRolePermissions roleId permissionIds fault =>
      rw [RbacTables.step] at hstep
      obtain ⟨result, hresult, rfl⟩ := Option.map_eq_some_iff.mp hstep
      cases result with
      | error error => exact h
      | ok updated => exact RbacTables.closed_updateRolePermissions h hresult
  | syncPermissionRegistry fault =>
      rw [RbacTables.step] at hstep
      have hafter := Option.some.inj hstep
      cases hresult : tables.syncPermissionRegistry fault with
      | error error =>
          rw [hresult] at hafter
          exact hafter ▸ h
      | ok synced =>
          rw [hresult] at hafter
          obtain ⟨rfl, -⟩ := RbacTables.commit_eq_ok hresult
          obtain ⟨synced', hsynced, hiff⟩ := RbacTables.syncPermissionRegistry_closed_iff h
          obtain rfl := Except.ok.inj (hresult.symm.trans hsynced)
          exact hafter ▸ hiff.mpr hcareful

/-- What normalising a list of permissions gives. -/
structure Normalizes (registry : PermissionRegistry) (ids : List Int) : Prop where
  unknown : (∃ id ∈ ids, id ∉ registry.rows.map (·.id)) →
    normalizedPermissionIds registry ids = some (.error (.invalidInput "权限不存在"))
  known : (∀ id ∈ ids, id ∈ registry.rows.map (·.id)) →
    ∃ result, normalizedPermissionIds registry ids = some (.ok result) ∧
      result.Pairwise (· < ·) ∧ (∀ id ∈ result, id ∈ registry.rows.map (·.id)) ∧
      LeastClosed registry.dependencyIds ids result ∧
      normalizedPermissionIds registry result = some (.ok result) ∧
      ∀ larger largerResult, ids ⊆ larger →
        normalizedPermissionIds registry larger = some (.ok largerResult) → result ⊆ largerResult

/-- The normalization ends and adds the dependencies. -/
theorem normalizes (registry : PermissionRegistry) (ids : List Int) :
    Normalizes registry ids := by
  refine ⟨normalizedPermissionIds_unknown, fun hids => ?_⟩
  obtain ⟨result, hresult, hascending, hleast⟩ := normalizedPermissionIds_known hids
  have hknown : ∀ id ∈ result, id ∈ registry.rows.map (·.id) :=
    hleast.least _ hids PermissionRegistry.closedUnder_ids
  refine ⟨result, hresult, hascending, hknown, hleast, ?_,
    fun larger largerResult hsub hlarger => ?_⟩
  · obtain ⟨again, hagain, hascending', hleast'⟩ := normalizedPermissionIds_known hknown
    rw [hagain, eq_of_ascending hascending' hascending (hleast.again hleast')]
  · by_cases hlargerKnown : ∀ id ∈ larger, id ∈ registry.rows.map (·.id)
    · obtain ⟨result', hresult', -, hleast'⟩ := normalizedPermissionIds_known hlargerKnown
      obtain rfl := Except.ok.inj (Option.some.inj (hlarger.symm.trans hresult'))
      exact hleast.mono hleast' hsub
    · rw [normalizedPermissionIds_unknown (by simpa using hlargerKnown)] at hlarger
      cases hlarger

/-- Permissions are normalised to the least closed set. In every run whose synchronisations extend
nothing that a role has, every role is closed, and a synchronisation leaves it so exactly then. -/
theorem role_permissions_closed {tables : RbacTables} (h : rbac.Reached Careful tables) :
    (∀ registry ids, Normalizes registry ids) ∧ tables.Closed ∧
      ∃ tables', tables.syncPermissionRegistry none = .ok tables' ∧
        (tables'.Closed ↔ tables.Unextended) := by
  have hclosed : tables.Closed := h.invariant (fun _ hinitial => hinitial)
    fun _ _ _ _ hcareful hclosed hstep => closed_step hclosed hcareful hstep
  exact ⟨normalizes, hclosed, RbacTables.syncPermissionRegistry_closed_iff hclosed⟩

namespace Sample

/-- A database of an earlier version, which has no page of permissions yet. -/
def earlierTables : RbacTables where
  registry :=
    { rows := [⟨1, "tasks.view"⟩, ⟨2, "tasks.retry"⟩, ⟨3, "rbac.roles.view"⟩,
        ⟨4, "rbac.roles.manage"⟩]
      lastId := 4
      keyed := (by decide : ([1, 2, 3, 4] : List Int).Nodup)
      named := (by decide : (["tasks.view", "tasks.retry", "rbac.roles.view",
        "rbac.roles.manage"] : List String).Nodup)
      le_lastId := by decide }
  roles := []
  lastRoleId := 0
  rolePermissions := []
  rolesKeyed := List.nodup_nil
  rolesNamed := List.nodup_nil
  le_lastRoleId := by decide
  granted := by decide

/-- The grants before the synchronization are closed. -/
theorem closed_earlierTables : earlierTables.Closed := fun _ hrole => absurd hrole List.not_mem_nil

/-- A role that retries tasks, whose dependency the registry has. -/
def createRetrier : RbacTables.RbacAction := .createRole "retrier" "Retries tasks" [2] none

/-- A role that manages roles, of which this version also asks the page of permissions. -/
def createManager : RbacTables.RbacAction := .createRole "role-manager" "Manages roles" [4] none

/-- Each dependency of what a custom role has is in the registry. -/
def unextended (tables : RbacTables) : Bool :=
  tables.roles.all fun role =>
    (builtinRolePolicies.map (·.roleCode)).contains role.roleCode ||
      tables.registry.rows.all fun permission =>
        !tables.rolePermissions.contains (role.id, permission.id) ||
          !allPermissions.contains permission.permissionKey ||
            (permissionDependencies permission.permissionKey).all fun dependency =>
              (tables.registry.rows.map (·.permissionKey)).contains dependency

theorem unextended_of_all {tables : RbacTables} (h : unextended tables = true) :
    tables.Unextended := by
  intro role hrole hcode permission hrow hgranted hkey dependency hdependency
  have hrows := List.all_eq_true.mp h role hrole
  rw [Bool.or_eq_true, List.contains_iff_mem] at hrows
  have hpermission := List.all_eq_true.mp (hrows.resolve_left hcode) permission hrow
  have hgranted' : tables.rolePermissions.contains (role.id, permission.id) = true :=
    List.contains_iff_mem.mpr hgranted
  rw [hgranted', List.contains_iff_mem.mpr hkey] at hpermission
  exact List.contains_iff_mem.mp (List.all_eq_true.mp hpermission dependency hdependency)

/-- A role has a permission but not what this depends on. -/
def lacksDependency (tables : RbacTables) : Bool :=
  tables.roles.any fun role => tables.rolePermissions.any fun entry => entry.1 == role.id &&
    (tables.registry.dependencyIds entry.2).any fun other =>
      !tables.rolePermissions.contains (role.id, other)

/-- A grant without its dependency is not closed. -/
theorem not_closed_of_lacksDependency {tables : RbacTables} (h : lacksDependency tables = true) :
    ¬ tables.Closed := by
  intro hclosed
  obtain ⟨role, hrole, hentries⟩ := List.any_eq_true.mp h
  obtain ⟨⟨roleId, id⟩, hentry, hlacks⟩ := List.any_eq_true.mp hentries
  rw [Bool.and_eq_true, beq_iff_eq] at hlacks
  obtain ⟨rfl, hothers⟩ := hlacks
  obtain ⟨other, hother, habsent⟩ := List.any_eq_true.mp hothers
  have hgranted : (role.id, other) ∈ tables.rolePermissions :=
    hclosed role hrole id hentry other hother
  rw [List.contains_iff_mem.mpr hgranted] at habsent
  cases habsent

end Sample

/-- A role that has all its permission depends on is closed after a synchronisation as well. -/
theorem role_permissions_closed_synced : ∃ tables, rbac.Reached Careful tables ∧
    (1, 2) ∈ tables.rolePermissions ∧ tables.Closed := by
  have hcreated : (Sample.earlierTables.step Sample.createRetrier).any (fun tables =>
      Sample.unextended tables && (tables.step (.syncPermissionRegistry none)).any fun synced =>
        synced.rolePermissions.contains (1, 2)) = true := by
    decide +kernel
  obtain ⟨created, hcreate, hboth⟩ := (Option.any_eq_true _ _).mp hcreated
  obtain ⟨hunextended, hsynced⟩ := Bool.and_eq_true_iff.mp hboth
  obtain ⟨synced, hsync, hgranted⟩ := (Option.any_eq_true _ _).mp hsynced
  have hcareful : Careful Sample.earlierTables Sample.createRetrier := trivial
  have hunextended' : Careful created (.syncPermissionRegistry none) :=
    Sample.unextended_of_all hunextended
  have hreached : rbac.Reached Careful synced :=
    .next (.next (.start Sample.closed_earlierTables) hcareful hcreate) hunextended' hsync
  exact ⟨synced, hreached, List.contains_iff_mem.mp hgranted,
    (role_permissions_closed hreached).2.1⟩

/-- A role with a permission whose dependency comes with the next version. -/
theorem extended_role_stays_open : ¬ ∀ tables, rbac.Reachable tables → tables.Closed := by
  intro h
  have hexec : (rbac.exec Sample.earlierTables
      [Sample.createManager, .syncPermissionRegistry none]).any Sample.lacksDependency = true := by
    decide +kernel
  obtain ⟨tables, htables, hlacks⟩ := (Option.any_eq_true _ _).mp hexec
  exact Sample.not_closed_of_lacksDependency hlacks
    (h tables (.exec (.start Sample.closed_earlierTables) htables))

end EasyDeploy.Auth
