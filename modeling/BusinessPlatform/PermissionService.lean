import BusinessPlatform.Client

/-! `PermissionService`: the current permissions of a member. -/

namespace BusinessPlatform.PermissionService
open Engine Program

def INSUFFICIENT_PERMISSIONS := "Insufficient permissions"
def OWNER := "owner"
def POS_CREATE := "pos:create"

inductive PermissionMode where
  | any | all
  deriving DecidableEq, Repr

structure PermissionRequirement where
  mode : PermissionMode
  permissions : List String
  deriving DecidableEq, Repr

structure PermissionSnapshot where
  isOwner : Bool
  keys : List String
  deriving DecidableEq, Repr

def loadSnapshot (tenantId userId : Id) : Service PermissionSnapshot := do
  let membership ← Prisma.findFirst .membership fun row => row.userId = userId && row.tenantId = tenantId
  match membership with
  | none => pure ⟨false, []⟩
  | some membership => do
    -- `select: { role: { permissions } }` follows the relations without a tenant filter
    let role ← Prisma.findFirst .role fun row => row.id = membership.roleId
    let permissions ← Prisma.findMany .rolePermission fun row => row.roleId = membership.roleId
    if membership.status ≠ .active then pure ⟨false, []⟩
    else if role.map Role.key = some OWNER then pure ⟨true, []⟩
    else pure ⟨false, permissions.map RolePermission.permissionKey⟩

def satisfies (snapshot : PermissionSnapshot) (requirement : PermissionRequirement) : Bool :=
  snapshot.isOwner ||
    match requirement.mode with
    | .any => requirement.permissions.any fun key => key ∈ snapshot.keys
    | .all => requirement.permissions.all fun key => key ∈ snapshot.keys

def assertPermissions (tenantId userId : Id) (requirement : PermissionRequirement) : Service Unit := do
  let snapshot ← loadSnapshot tenantId userId
  throwIf (!satisfies snapshot requirement) (.forbidden INSUFFICIENT_PERMISSIONS)

end BusinessPlatform.PermissionService
