import BusinessPlatform.Guards
import BusinessPlatform.Proofs.MemoFreshness

/-! The permissions of a member are loaded in three places: by the services that change
roles, by the guards and by the point of sale. On the same rows all three load the same. -/

namespace BusinessPlatform
open Engine Program
open PermissionService (PermissionSnapshot OWNER)

variable {members : Rbac.RbacDb} {tenantId userId : Id}

/-- The tables of the guards hold the same members, roles and grants. -/
structure GuardRows (members : Rbac.RbacDb) (db : Database Guards.access) : Prop where
  memberships : (db.table .membership).rows = (members.table .membership).rows
  roles : (db.table .role).rows = (members.table .role).rows
  permissions : (db.table .permission).rows = (members.table .permission).rows
  grants : (db.table .rolePermission).rows = (members.table .rolePermission).rows

def saleMembership (membership : Rbac.Membership) : Membership :=
  ⟨membership.id, membership.tenantId, membership.userId, membership.roleId, membership.status⟩

def saleRole (role : Rbac.Role) : Role := ⟨role.id, role.tenantId, role.key⟩

/-- A grant with the key of its permission. -/
def saleGrant (permissions : List Rbac.Permission) (grant : Rbac.RolePermission) : Option RolePermission :=
  (permissions.find? fun permission => permission.id = grant.permissionId).map fun permission => ⟨grant.roleId, permission.key⟩

/-- The commerce tables hold the columns of the same rows that a sale reads. -/
structure SaleRows (members : Rbac.RbacDb) (db : Db) : Prop where
  memberships : (db.table .membership).rows = (members.table .membership).rows.map saleMembership
  roles : (db.table .role).rows = (members.table .role).rows.map saleRole
  grants : (db.table .rolePermission).rows =
    (members.table .rolePermission).rows.filterMap (saleGrant (members.table .permission).rows)

/-- A membership refers to a role of its own tenant. -/
def RolesInside (members : Rbac.RbacDb) : Prop :=
  ∀ membership ∈ (members.table .membership).rows, ∀ role ∈ (members.table .role).rows,
    Rbac.Role.id role = Rbac.Membership.roleId membership → Rbac.Role.tenantId role = Rbac.Membership.tenantId membership

theorem loadSnapshot_guard {moment : Moment Guards.access} (same : GuardRows members moment.database) :
    (Guards.loadSnapshot tenantId userId).Succeeds none moment fun snapshot pending later =>
      snapshot = Rbac.snapshotIn members tenantId userId ∧ pending = none ∧ later.database = moment.database := by
  rw [Guards.loadSnapshot, succeeds_bind, succeeds_findFirst]
  have view : moment.view none = moment.database := rfl
  rw [view, Rbac.snapshotIn, ← same.memberships, ← same.roles, ← same.grants, ← same.permissions]
  cases (moment.database.table .membership).rows.find? fun row => row.userId = userId && row.tenantId = tenantId with
  | none => exact ⟨rfl, rfl, rfl⟩
  | some membership =>
    dsimp only
    rw [succeeds_bind, succeeds_findFirst, succeeds_bind, succeeds_findMany, succeeds_bind, succeeds_findMany]
    exact ⟨rfl, rfl, rfl⟩

theorem saleGrant_keys {grants : List Rbac.RolePermission} {permissions : List Rbac.Permission} {roleId : Id} :
    ((grants.filterMap (saleGrant permissions)).filter fun row => row.roleId = roleId).map RolePermission.permissionKey =
      Rbac.grantedKeys (grants.filter fun row => row.roleId = roleId)
        (permissions.filter fun row =>
          row.id ∈ (grants.filter fun row => row.roleId = roleId).map Rbac.RolePermission.permissionId) := by
  rw [Rbac.grantedKeys, List.filter_filterMap, List.map_filterMap, List.filterMap_filter]
  refine List.filterMap_congr fun grant member => ?_
  rw [List.find?_filter, saleGrant]
  split
  next granted =>
    have named : grant.permissionId ∈ (grants.filter fun row => row.roleId = roleId).map Rbac.RolePermission.permissionId :=
      List.mem_map_of_mem (List.mem_filter.mpr ⟨member, granted⟩)
    have same : (permissions.find? fun row => decide (decide (row.id ∈ (grants.filter fun row => row.roleId = roleId).map
        Rbac.RolePermission.permissionId) = true ∧ decide (row.id = grant.permissionId) = true)) =
        permissions.find? fun row => row.id = grant.permissionId := by
      refine List.find?_congr fun row _ => ?_
      rw [Bool.eq_iff_iff]
      simp only [decide_eq_true_eq]
      exact and_iff_right_of_imp fun own => own ▸ named
    rw [same]
    cases permissions.find? fun row => row.id = grant.permissionId with
    | none => rfl
    | some permission => simpa using granted
  next foreign =>
    cases permissions.find? fun row => row.id = grant.permissionId with
    | none => rfl
    | some permission => simpa using foreign

theorem loadSnapshot_sale {moment : Moment commerce} (same : SaleRows members moment.database) (inside : RolesInside members) :
    (PermissionService.loadSnapshot tenantId userId).Succeeds none moment fun snapshot pending later =>
      snapshot = Rbac.snapshotIn members tenantId userId ∧ pending = none ∧ later.database = moment.database := by
  rw [PermissionService.loadSnapshot, succeeds_bind]
  refine succeeds_findFirst.mpr ?_
  have found : (moment.database.table .membership).rows.find? (fun row => row.userId = userId && row.tenantId = tenantId) =
      ((members.table .membership).rows.find? fun row => row.userId = userId && row.tenantId = tenantId).map saleMembership := by
    rw [same.memberships, List.find?_map]
    rfl
  have view : moment.view none = moment.database := rfl
  rw [view, found, Rbac.snapshotIn]
  cases listed : (members.table .membership).rows.find? fun row => row.userId = userId && row.tenantId = tenantId with
  | none => exact ⟨rfl, rfl, rfl⟩
  | some membership =>
    dsimp only [Option.map_some]
    rw [succeeds_bind]
    refine succeeds_findFirst.mpr ?_
    rw [succeeds_bind]
    refine succeeds_findMany.mpr ?_
    have role : (moment.database.table .role).rows.find? (fun row => row.id = membership.roleId) =
        ((members.table .role).rows.find? fun row =>
          row.id = membership.roleId && row.tenantId = membership.tenantId).map saleRole := by
      rw [same.roles, List.find?_map]
      congr 1
      refine List.find?_congr fun row member => ?_
      have tenant := inside membership (List.mem_of_find?_eq_some listed) row member
      rw [Function.comp_apply, saleRole, Bool.eq_iff_iff]
      simpa only [Bool.and_eq_true, decide_eq_true_eq] using ⟨fun own => ⟨own, tenant own⟩, And.left⟩
    have grants : ((moment.database.table .rolePermission).rows.filter fun row => row.roleId = membership.roleId).map
        RolePermission.permissionKey = Rbac.grantedKeys
          ((members.table .rolePermission).rows.filter fun row => row.roleId = membership.roleId)
          ((members.table .permission).rows.filter fun row => row.id ∈
            ((members.table .rolePermission).rows.filter fun row => row.roleId = membership.roleId).map
              Rbac.RolePermission.permissionId) := by
      rw [same.grants]
      exact saleGrant_keys
    change Succeeds (if membership.status ≠ .active then _
      else if ((moment.database.table .role).rows.find? fun row => row.id = membership.roleId).map Role.key = some OWNER then _
      else pure (PermissionSnapshot.mk false
        (((moment.database.table .rolePermission).rows.filter fun row => row.roleId = membership.roleId).map
          RolePermission.permissionKey))) _ _ _
    rw [role, grants, Option.map_map, Rbac.snapshotOf]
    split
    next => exact ⟨rfl, rfl, rfl⟩
    next =>
      have keys : Role.key ∘ saleRole = Rbac.Role.key := rfl
      rw [keys]
      split
      next => exact ⟨rfl, rfl, rfl⟩
      next => exact ⟨rfl, rfl, rfl⟩

theorem loadSnapshot_agrees {sale : Moment commerce} {guard : Moment Guards.access} {moment : Moment Rbac.rbac}
    (sold : SaleRows moment.database sale.database) (guarded : GuardRows moment.database guard.database)
    (inside : RolesInside moment.database) :
    ((PermissionService.loadSnapshot tenantId userId).evaluate none sale).1 =
        ((Rbac.loadSnapshot tenantId userId).evaluate none moment).1 ∧
      ((Guards.loadSnapshot tenantId userId).evaluate none guard).1 =
        ((Rbac.loadSnapshot tenantId userId).evaluate none moment).1 := by
  obtain ⟨_, loaded, rfl, _⟩ := succeeds_iff.mp (Rbac.loadSnapshot_succeeds tenantId userId moment)
  obtain ⟨_, inSale, rfl, _⟩ := succeeds_iff.mp (@loadSnapshot_sale _ tenantId userId _ sold inside)
  obtain ⟨_, inGuard, rfl, _⟩ := succeeds_iff.mp (@loadSnapshot_guard _ tenantId userId _ guarded)
  exact ⟨by rw [loaded, inSale], by rw [loaded, inGuard]⟩

end BusinessPlatform
