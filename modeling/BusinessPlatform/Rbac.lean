import BusinessPlatform.PermissionService

/-! The tables of members, roles and permissions, and what the services that change
them share: the permissions of the acting user and the lock on the owners. -/

namespace BusinessPlatform.Rbac
open Engine Program
open PermissionService (PermissionSnapshot PermissionRequirement satisfies INSUFFICIENT_PERMISSIONS OWNER)

structure User where
  id : Id
  email : String
  firstName : Option String
  lastName : Option String
  deriving DecidableEq, Repr

structure Membership where
  id : Id
  tenantId : Id
  userId : Id
  roleId : Id
  status : MembershipStatus
  createdAt : Nat
  deriving DecidableEq, Repr

structure Role where
  id : Id
  tenantId : Id
  key : String
  name : String
  description : Option String
  isSystem : Bool
  createdAt : Nat
  deriving DecidableEq, Repr

/-- The catalog, the same for all tenants. -/
structure Permission where
  id : String
  key : String
  name : String
  deriving DecidableEq, Repr

structure RolePermission where
  roleId : Id
  permissionId : String
  deriving DecidableEq, Repr

inductive RbacModel where
  | user | membership | role | permission | rolePermission
  deriving DecidableEq, Repr

namespace RbacModel

abbrev Row : RbacModel → Type
  | user => User
  | membership => Membership
  | role => Role
  | permission => Permission
  | rolePermission => RolePermission

abbrev Key : RbacModel → Type
  | permission => String
  | rolePermission => Id × String
  | _ => Id

inductive Index where
  | email (email : String)
  | member (userId tenantId : Id)
  | roleKey (tenantId : Id) (key : String)
  | permissionKey (key : String)
  deriving DecidableEq, Repr

def key : {m : RbacModel} → Row m → Key m
  | user => User.id
  | membership => Membership.id
  | role => Role.id
  | permission => Permission.id
  | rolePermission => fun row => (row.roleId, row.permissionId)

def indexes : {m : RbacModel} → Row m → List Index
  | user => fun row => [.email row.email]
  | membership => fun row => [.member row.userId row.tenantId]
  | role => fun row => [.roleKey row.tenantId row.key]
  | permission => fun row => [.permissionKey row.key]
  | rolePermission => fun _ => []

def keyColumns : RbacModel → List String
  | rolePermission => ["roleId", "permissionId"]
  | _ => ["id"]

def columns : Index → List String
  | .email _ => ["email"]
  | .member _ _ => ["userId", "tenantId"]
  | .roleKey _ _ => ["tenantId", "key"]
  | .permissionKey _ => ["key"]

def parents : {m : RbacModel} → Row m → List ((m : RbacModel) × Key m)
  | membership => fun row => [⟨user, row.userId⟩, ⟨role, row.roleId⟩]
  | rolePermission => fun row => [⟨role, row.roleId⟩, ⟨permission, row.permissionId⟩]
  | user | role | permission => fun _ => []

/-- `onDelete: Cascade`. -/
def cascade : {m : RbacModel} → Key m → List ((m : RbacModel) × (Row m → Bool))
  | user => fun id => [⟨membership, fun row => row.userId = id⟩]
  | role => fun id => [⟨rolePermission, fun row => row.roleId = id⟩]
  | permission => fun id => [⟨rolePermission, fun row => row.permissionId = id⟩]
  | membership | rolePermission => fun _ => []

/-- `onDelete: Restrict`. -/
def restrict : {m : RbacModel} → Key m → List ((m : RbacModel) × (Row m → Bool))
  | role => fun id => [⟨membership, fun row => row.roleId = id⟩]
  | user | membership | permission | rolePermission => fun _ => []

instance keys : (m : RbacModel) → DecidableEq (Key m)
  | user | membership | role => inferInstanceAs (DecidableEq Nat)
  | permission => inferInstanceAs (DecidableEq String)
  | rolePermission => inferInstanceAs (DecidableEq (Nat × String))

end RbacModel

@[reducible] def rbac : Schema where
  Model := RbacModel
  Row := RbacModel.Row
  Key := RbacModel.Key
  Index := RbacModel.Index
  key := RbacModel.key
  indexes := RbacModel.indexes
  keyColumns := RbacModel.keyColumns
  columns := RbacModel.columns
  check _ := true
  excludes _ _ := false
  parents := RbacModel.parents
  cascade := RbacModel.cascade
  restrict := RbacModel.restrict

abbrev RbacService (α : Type) : Type 1 := Program rbac HttpException α

abbrev RbacDb : Type := Database rbac

def ADMIN := "admin"
def EMPLOYEE := "employee"

def SYSTEM_ROLE_KEYS : List String := [OWNER, ADMIN, EMPLOYEE]

/-- The catalog keys of some grants. -/
def grantedKeys (grants : List RolePermission) (permissions : List Permission) : List String :=
  grants.filterMap fun grant =>
    (permissions.find? fun permission => permission.id = grant.permissionId).map Permission.key

def snapshotOf (membership : Membership) (role : Option Role) (grants : List RolePermission)
    (permissions : List Permission) : PermissionSnapshot :=
  if membership.status ≠ .active then ⟨false, []⟩
  else if role.map Role.key = some OWNER then ⟨true, []⟩
  else ⟨false, grantedKeys grants permissions⟩

/-- The role that a membership refers to by tenant and id. -/
def roleOf (membership : Membership) : RbacService (Option Role) :=
  findFirst (S := rbac) .role fun row => row.id = membership.roleId && row.tenantId = membership.tenantId

def grantsOf (roleId : Id) : RbacService (List RolePermission × List Permission) := do
  let grants ← findMany (S := rbac) .rolePermission fun row => row.roleId = roleId
  let permissions ← findMany (S := rbac) .permission fun row => row.id ∈ grants.map RolePermission.permissionId
  pure (grants, permissions)

def loadSnapshot (tenantId userId : Id) : RbacService PermissionSnapshot := do
  let membership ← findFirst (S := rbac) .membership fun row => row.userId = userId && row.tenantId = tenantId
  match membership with
  | none => pure ⟨false, []⟩
  | some membership => do
    let role ← roleOf membership
    let (grants, permissions) ← grantsOf membership.roleId
    pure (snapshotOf membership role grants permissions)

/-- The memo of the request keeps the permissions that are loaded here. -/
def assertPermissions (tenantId userId : Id) (requirement : PermissionRequirement) : RbacService PermissionSnapshot := do
  let snapshot ← loadSnapshot tenantId userId
  throwIf (!satisfies snapshot requirement) (.forbidden INSUFFICIENT_PERMISSIONS)
  pure snapshot

/-- Lock the tenant's active owners; there must be another one. -/
def assertNotLastActiveOwner (tenantId : Id) (message : String) : RbacService Unit := do
  let roles ← findMany (S := rbac) .role fun row => row.tenantId = tenantId && row.key = OWNER
  let owners ← lock (S := rbac) .membership fun row =>
    row.tenantId = tenantId && row.status = .active && row.roleId ∈ roles.map Role.id
  throwIf (owners.length ≤ 1) (.conflict message)

def isP2003 : Failure HttpException → Bool
  | .database .foreignKeyViolation => true
  | _ => false

/-- The row of the tenant that `where: { id }` finds. -/
def inTenant (tenantId id : Id) (row : Membership) : Bool := row.id = id && row.tenantId = tenantId

end BusinessPlatform.Rbac
