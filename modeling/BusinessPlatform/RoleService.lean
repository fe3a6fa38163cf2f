import BusinessPlatform.Rbac

/-! `RoleService`: custom roles, their permissions and the roles of the members. -/

namespace BusinessPlatform.Rbac.RoleService
open Engine Program
open PermissionService (PermissionSnapshot OWNER)

def ROLE_KEY_TAKEN := "Role key already exists in this tenant"
def ROLE_ASSIGNED := "Role is assigned to memberships"
def ROLE_NOT_FOUND := "Role not found"
def SYSTEM_ROLE_IMMUTABLE := "System roles are immutable"
def UNKNOWN_PERMISSION := "Unknown permission id"
def DUPLICATE_PERMISSION := "Duplicate permission ids are not allowed"
def PERMISSION_LIST_TOO_LARGE := "Permission list exceeds the maximum allowed size"
def PERMISSION_ID_TOO_LONG := "Permission id exceeds the maximum allowed length"
def CREATE_REQUIRES_PERMISSION := "At least one permission is required"
def RESERVED_ROLE_KEY := "Role key is reserved for system roles"
def GRANT_EXCEEDS_ACTOR := "Cannot grant permissions you do not hold"
def SELF_ROLE_CHANGE := "Cannot change your own role"
def OWNER_ASSIGNMENT := "Only the owner can assign the owner role"
def LAST_OWNER := "Cannot demote the last owner of the tenant"
def MEMBERSHIP_NOT_FOUND := "Membership not found"
def MAX_PERMISSION_IDS := 50
def MAX_PERMISSION_ID_LENGTH := 40
def ROLE_READ := "role:read"
def ROLE_MANAGE := "role:manage"

structure CreateRoleDto where
  key : String
  name : String
  description : Option String := none
  permissionIds : List String
  deriving DecidableEq, Repr

/-- A description may be left out, `null` or a text. -/
structure UpdateRoleDto where
  name : Option String := none
  description : Option (Option String) := none
  deriving DecidableEq, Repr

structure AssignRolePermissionsDto where
  permissionIds : List String
  deriving DecidableEq, Repr

structure AssignRoleToMembershipDto where
  membershipId : Option Id
  roleId : Id
  deriving DecidableEq, Repr

structure RoleSummary where
  id : Id
  key : String
  name : String
  description : Option String
  isSystem : Bool
  permissionCount : Nat
  deriving DecidableEq, Repr

structure RoleDetails where
  id : Id
  key : String
  name : String
  description : Option String
  isSystem : Bool
  permissions : List (String × String × String)
  deriving DecidableEq, Repr

def assertManage (tenantId actorUserId : Id) : RbacService PermissionSnapshot :=
  assertPermissions tenantId actorUserId ⟨.all, [ROLE_MANAGE]⟩

def assertRead (tenantId actorUserId : Id) : RbacService PermissionSnapshot :=
  assertPermissions tenantId actorUserId ⟨.all, [ROLE_READ]⟩

def named (tenantId roleId : Id) (row : Role) : Bool := row.id = roleId && row.tenantId = tenantId

/-- The role with the permissions that `include` loads. -/
def findRole (tenantId roleId : Id) : RbacService (Option (Role × List RolePermission × List Permission)) := do
  let role ← findFirst (S := rbac) .role (named tenantId roleId)
  match role with
  | none => pure none
  | some role => do
    let (grants, permissions) ← grantsOf role.id
    pure (some (role, grants, permissions))

/-- The role, or 404. -/
def existingRole (tenantId roleId : Id) : RbacService Role := do
  let found ← findRole tenantId roleId
  let (role, _) ← orThrow found (.notFound ROLE_NOT_FOUND)
  pure role

def assertNotReservedKey (key : String) : RbacService Unit :=
  throwIf (key ∈ SYSTEM_ROLE_KEYS) (.badRequest RESERVED_ROLE_KEY)

def assertMutable (isSystem : Bool) : RbacService Unit := throwIf isSystem (.forbidden SYSTEM_ROLE_IMMUTABLE)

/-- `String.prototype.length` counts UTF-16 code units. -/
def utf16Length (text : String) : Nat :=
  (text.toList.map fun char => if char.toNat < 0x10000 then 1 else 2).sum

/-- The catalog entries of the ids. -/
def resolvePermissions (permissionIds : List String) : RbacService (List Permission) := do
  throwIf (permissionIds.length > MAX_PERMISSION_IDS) (.badRequest PERMISSION_LIST_TOO_LARGE)
  throwIf (permissionIds.any fun permissionId => utf16Length permissionId > MAX_PERMISSION_ID_LENGTH)
    (.badRequest PERMISSION_ID_TOO_LONG)
  let unique := permissionIds.eraseDups
  throwIf (unique.length ≠ permissionIds.length) (.badRequest DUPLICATE_PERMISSION)
  let found ← findMany (S := rbac) .permission fun row => row.id ∈ unique
  throwIf (found.length ≠ unique.length) (.badRequest UNKNOWN_PERMISSION)
  pure found

/-- A permission that the actor does not hold. -/
def unheld (actor : PermissionSnapshot) (permissions : List Permission) : Bool :=
  !actor.isOwner && permissions.any fun permission => permission.key ∉ actor.keys

def assertBoundedGrants (actor : PermissionSnapshot) (permissions : List Permission) : RbacService Unit :=
  throwIf (unheld actor permissions) (.forbidden GRANT_EXCEEDS_ACTOR)

/-- `rolePermission.createMany`. -/
def createGrants (roleId : Id) : List Permission → RbacService Unit
  | [] => pure ()
  | permission :: permissions => do
    let _ ← create (S := rbac) .rolePermission fun _ _ => ⟨roleId, permission.id⟩
    createGrants roleId permissions

def customRole (tenantId : Id) (dto : CreateRoleDto) (id now : Nat) : Role :=
  { id, tenantId, key := dto.key, name := dto.name, description := dto.description, isSystem := false, createdAt := now }

/-- A violated unique index is a key that is taken. -/
def mapKeyTaken {α : Type} (request : RbacService α) : RbacService α :=
  tryCatch request fun failure =>
    if isP2002 failure then throw (.conflict ROLE_KEY_TAKEN) else .done (.error failure)

def insertRole (tenantId : Id) (dto : CreateRoleDto) (permissions : List Permission) : RbacService Role := do
  let created ← create (S := rbac) .role (customRole tenantId dto)
  createGrants created.id permissions
  pure created

def createRole (tenantId actorUserId : Id) (dto : CreateRoleDto) : RbacService (Id × String × String) := do
  let actor ← assertManage tenantId actorUserId
  assertNotReservedKey dto.key
  throwIf dto.permissionIds.isEmpty (.badRequest CREATE_REQUIRES_PERMISSION)
  let permissions ← resolvePermissions dto.permissionIds
  assertBoundedGrants actor permissions
  let role ← mapKeyTaken (transaction (insertRole tenantId dto permissions))
  pure (role.id, role.key, role.name)

def listRoles (tenantId actorUserId : Id) : RbacService (List RoleSummary) := do
  let _ ← assertRead tenantId actorUserId
  let rows ← findMany (S := rbac) .role fun row => row.tenantId = tenantId
  let roles := Prisma.orderBy Role.createdAt rows
  let grants ← findMany (S := rbac) .rolePermission fun row => row.roleId ∈ roles.map Role.id
  pure (roles.map fun role =>
    ⟨role.id, role.key, role.name, role.description, role.isSystem,
      (grants.filter fun grant => grant.roleId = role.id).length⟩)

def getRole (tenantId actorUserId roleId : Id) : RbacService RoleDetails := do
  let _ ← assertRead tenantId actorUserId
  let found ← findRole tenantId roleId
  let (role, grants, permissions) ← orThrow found (.notFound ROLE_NOT_FOUND)
  pure ⟨role.id, role.key, role.name, role.description, role.isSystem,
    grants.filterMap fun grant => (permissions.find? fun permission => permission.id = grant.permissionId).map
      fun permission => (permission.id, permission.key, permission.name)⟩

/-- The columns that are stored where the request leaves them out are those of the
role as it was read. -/
def patch (dto : UpdateRoleDto) (role : Role) : Change rbac .role where
  apply row := { row with name := dto.name.getD role.name, description := dto.description.getD role.description }
  keeps _ := rfl

def updateRole (tenantId actorUserId roleId : Id) (dto : UpdateRoleDto) :
    RbacService (Id × String × String × Option String) := do
  let _ ← assertManage tenantId actorUserId
  let role ← existingRole tenantId roleId
  assertMutable role.isSystem
  let updated ← update (S := rbac) .role (named tenantId roleId) (patch dto role)
  pure (updated.id, updated.key, updated.name, updated.description)

/-- A membership that still has the role keeps it from being deleted. -/
def mapAssigned {α : Type} (request : RbacService α) : RbacService α :=
  tryCatch request fun failure =>
    if isP2003 failure then throw (.conflict ROLE_ASSIGNED) else .done (.error failure)

def deleteRole (tenantId actorUserId roleId : Id) : RbacService Id := do
  let _ ← assertManage tenantId actorUserId
  let role ← existingRole tenantId roleId
  assertMutable role.isSystem
  let memberships ← findMany (S := rbac) .membership fun row => row.roleId = roleId && row.tenantId = tenantId
  throwIf (0 < memberships.length) (.conflict ROLE_ASSIGNED)
  let _ ← mapAssigned (delete (S := rbac) .role (named tenantId roleId))
  pure roleId

def replaceGrants (roleId : Id) (permissions : List Permission) : RbacService Unit := do
  let _ ← deleteMany (S := rbac) .rolePermission fun row => row.roleId = roleId
  createGrants roleId permissions

def assignPermissions (tenantId actorUserId roleId : Id) (dto : AssignRolePermissionsDto) : RbacService (Id × Nat) := do
  let actor ← assertManage tenantId actorUserId
  let role ← existingRole tenantId roleId
  assertMutable role.isSystem
  let permissions ← resolvePermissions dto.permissionIds
  assertBoundedGrants actor permissions
  transaction (replaceGrants roleId permissions)
  pure (roleId, permissions.length)

def setRole (roleId : Id) : Change rbac .membership where
  apply row := { row with roleId }
  keeps _ := rfl

/-- `where: { id: dto.membershipId ?? '' }`: the empty id is nobody's. -/
def target (tenantId : Id) (membershipId : Option Id) (row : Membership) : Bool :=
  some row.id = membershipId && row.tenantId = tenantId

def demoteOwner (tenantId : Id) (membershipId : Option Id) (newRoleId : Id) : RbacService Membership :=
  transaction do
    assertNotLastActiveOwner tenantId LAST_OWNER
    update (S := rbac) .membership (target tenantId membershipId) (setRole newRoleId)

/-- An owner who is to lose the role is demoted under the lock. -/
def storeRole (demotingOwner : Bool) (tenantId : Id) (membershipId : Option Id) (roleId : Id) : RbacService Membership :=
  if demotingOwner then demoteOwner tenantId membershipId roleId
  else update (S := rbac) .membership (target tenantId membershipId) (setRole roleId)

def assignRoleToMembership (tenantId actorUserId : Id) (dto : AssignRoleToMembershipDto) : RbacService (Id × Id) := do
  let actor ← assertManage tenantId actorUserId
  let role ← existingRole tenantId dto.roleId
  let membership ← findFirst (S := rbac) .membership (target tenantId dto.membershipId)
  let membership ← orThrow membership (.notFound MEMBERSHIP_NOT_FOUND)
  let current ← roleOf membership
  throwIf (membership.userId = actorUserId) (.forbidden SELF_ROLE_CHANGE)
  throwIf (role.key = OWNER && !actor.isOwner) (.forbidden OWNER_ASSIGNMENT)
  let demotingOwner := current.map Role.key = some OWNER && role.key ≠ OWNER
  let updated ← storeRole demotingOwner tenantId dto.membershipId role.id
  pure (updated.id, updated.roleId)

end BusinessPlatform.Rbac.RoleService
