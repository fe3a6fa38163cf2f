import BusinessPlatform.Engine.Evaluation
import BusinessPlatform.Engine.Where
import BusinessPlatform.MemberService

/-! The permission memo of a request: the operations of both services and the
permissions that its guards ask for, one after another in one tenant context. -/

namespace BusinessPlatform.Rbac
open Engine Program RoleService MemberService
open PermissionService (PermissionSnapshot PermissionRequirement satisfies INSUFFICIENT_PERMISSIONS OWNER)

/-- What the asynchronous local storage keeps for a request. -/
structure TenantContextState where
  tenantId : Id
  memo : Fields PermissionSnapshot := []

def memoKey (tenantId userId : Id) : String := s!"permissions:{tenantId}:{userId}"

namespace TenantContextState

def cached (context : TenantContextState) (userId : Id) : Option PermissionSnapshot :=
  context.memo.get (memoKey context.tenantId userId)

def memoise (context : TenantContextState) (userId : Id) (snapshot : PermissionSnapshot) : TenantContextState :=
  { context with memo := context.memo.set (memoKey context.tenantId userId) snapshot }

def clearMemo (context : TenantContextState) : TenantContextState := { context with memo := [] }

end TenantContextState

/-- A request between two of its operations: its context and the database. -/
structure Request where
  context : TenantContextState
  moment : Moment rbac

/-- The result of an operation, and the request after it. -/
abbrev Served (α : Type) : Type := Except (Failure HttpException) α × Request

def Request.evaluate {α : Type} (request : Request) (program : RbacService α) : Served α :=
  let (result, _, moment) := program.evaluate none request.moment
  (result, { request with moment })

def getPermissions (request : Request) (userId : Id) : Served PermissionSnapshot :=
  match request.context.cached userId with
  | some cached => (.ok cached, request)
  | none =>
    match request.evaluate (loadSnapshot request.context.tenantId userId) with
    | (.ok snapshot, request) => (.ok snapshot, { request with context := request.context.memoise userId snapshot })
    | (.error failure, request) => (.error failure, request)

/-- The permission that an operation asserts first. -/
def RbacOperation.permission : RbacOperation → String
  | .listRoles | .getRole _ => ROLE_READ
  | .listMembers | .getMember _ => MEMBER_READ
  | .updateMemberStatus _ _ | .createMember _ => MEMBER_MANAGE
  | _ => ROLE_MANAGE

/-- The operation ends with `clearMemo`. -/
def RbacOperation.clears : RbacOperation → Bool
  | .createRole _ | .updateRole _ _ | .deleteRole _ | .assignPermissions _ _ | .assignRoleToMembership _
  | .updateMemberStatus _ _ => true
  | .listRoles | .getRole _ | .listMembers | .getMember _ | .createMember _ => false

/-- What an operation does for an actor whose permissions are known. -/
def RbacCall.proceed (normalizeEmail : String → String) (call : RbacCall) (actor : PermissionSnapshot) :
    RbacService RbacResponse :=
  match call.operation with
  | .createRole dto => do
    assertNotReservedKey dto.key
    throwIf dto.permissionIds.isEmpty (.badRequest CREATE_REQUIRES_PERMISSION)
    let permissions ← resolvePermissions dto.permissionIds
    assertBoundedGrants actor permissions
    let role ← mapKeyTaken (transaction (insertRole call.tenantId dto permissions))
    pure (.created (role.id, role.key, role.name))
  | .listRoles => do
    let rows ← findMany (S := rbac) .role fun row => row.tenantId = call.tenantId
    let roles := Prisma.orderBy Role.createdAt rows
    let grants ← findMany (S := rbac) .rolePermission fun row => row.roleId ∈ roles.map Role.id
    pure (.roles (roles.map fun role =>
      ⟨role.id, role.key, role.name, role.description, role.isSystem,
        (grants.filter fun grant => grant.roleId = role.id).length⟩))
  | .getRole roleId => do
    let found ← findRole call.tenantId roleId
    let (role, grants, permissions) ← orThrow found (.notFound RoleService.ROLE_NOT_FOUND)
    pure (.role ⟨role.id, role.key, role.name, role.description, role.isSystem,
      grants.filterMap fun grant => (permissions.find? fun permission => permission.id = grant.permissionId).map
        fun permission => (permission.id, permission.key, permission.name)⟩)
  | .updateRole roleId dto => do
    let role ← existingRole call.tenantId roleId
    assertMutable role.isSystem
    let updated ← update (S := rbac) .role (named call.tenantId roleId) (patch dto role)
    pure (.updated (updated.id, updated.key, updated.name, updated.description))
  | .deleteRole roleId => do
    let role ← existingRole call.tenantId roleId
    assertMutable role.isSystem
    let memberships ← findMany (S := rbac) .membership fun row => row.roleId = roleId && row.tenantId = call.tenantId
    throwIf (0 < memberships.length) (.conflict ROLE_ASSIGNED)
    let _ ← mapAssigned (delete (S := rbac) .role (named call.tenantId roleId))
    pure (.deleted roleId)
  | .assignPermissions roleId dto => do
    let role ← existingRole call.tenantId roleId
    assertMutable role.isSystem
    let permissions ← resolvePermissions dto.permissionIds
    assertBoundedGrants actor permissions
    transaction (replaceGrants roleId permissions)
    pure (.granted (roleId, permissions.length))
  | .assignRoleToMembership dto => do
    let role ← existingRole call.tenantId dto.roleId
    let membership ← findFirst (S := rbac) .membership (target call.tenantId dto.membershipId)
    let membership ← orThrow membership (.notFound RoleService.MEMBERSHIP_NOT_FOUND)
    let current ← roleOf membership
    throwIf (membership.userId = call.actorUserId) (.forbidden SELF_ROLE_CHANGE)
    throwIf (role.key = OWNER && !actor.isOwner) (.forbidden RoleService.OWNER_ASSIGNMENT)
    let demotingOwner := current.map Role.key = some OWNER && role.key ≠ OWNER
    let updated ← storeRole demotingOwner call.tenantId dto.membershipId role.id
    pure (.assigned (updated.id, updated.roleId))
  | .listMembers => do
    let rows ← findMany (S := rbac) .membership fun row => row.tenantId = call.tenantId
    let members ← loadAllRelations (Prisma.orderBy Membership.createdAt rows)
    pure (.members (members.map toSummary))
  | .getMember userId => do
    let membership ← findFirst (S := rbac) .membership fun row => row.userId = userId && row.tenantId = call.tenantId
    let membership ← orThrow membership (.notFound MemberService.MEMBERSHIP_NOT_FOUND)
    let member ← loadRelations membership
    pure (.member (toSummary member))
  | .updateMemberStatus membershipId dto => do
    let member ← findMembership call.tenantId membershipId
    throwIf (member.membership.userId = call.actorUserId) (.forbidden SELF_STATUS_CHANGE)
    let isOwnerMembership := member.role.key = OWNER
    let removingActiveOwner := isOwnerMembership && member.membership.status = .active && dto.status = .suspended
    let updated ← storeStatus removingActiveOwner call.tenantId membershipId dto.status
    pure (.member (toSummary updated))
  | .createMember dto => do
    let role ← resolveTargetRole call.tenantId dto.roleId
    let role ← orThrow role (.notFound (if dto.roleId.isSome then MemberService.ROLE_NOT_FOUND else DEFAULT_ROLE_NOT_FOUND))
    throwIf (role.key = OWNER && !actor.isOwner) (.forbidden MemberService.OWNER_ASSIGNMENT)
    let summary ← mapAlreadyMember (transaction (onboard normalizeEmail call.tenantId call.actorUserId role.id dto))
    pure (.member summary)

/-- Without a memo an operation loads the permissions of the actor, and goes on with them. -/
theorem RbacCall.program_eq (normalizeEmail : String → String) (call : RbacCall) :
    call.program normalizeEmail =
      assertPermissions call.tenantId call.actorUserId ⟨.all, [call.operation.permission]⟩ >>=
        call.proceed normalizeEmail := by
  obtain ⟨tenantId, actorUserId, operation⟩ := call
  cases operation <;>
    simp only [program, createRole, listRoles, getRole, updateRole, deleteRole, RoleService.assignPermissions, assignRoleToMembership,
      listMembers, getMember, updateMemberStatus, createMember, map_eq_pure_bind, bind_assoc, pure_bind] <;> rfl

/-- What a request does next. -/
inductive RequestStep where
  | permissions (userId : Id)
  | operation (actorUserId : Id) (operation : RbacOperation)

/-- An operation: the permissions of the actor come from the memo if they are there. -/
def serve (normalizeEmail : String → String) (request : Request) (actorUserId : Id) (operation : RbacOperation) :
    Served RbacResponse :=
  match getPermissions request actorUserId with
  | (.error failure, request) => (.error failure, request)
  | (.ok actor, request) =>
    let call : RbacCall := ⟨request.context.tenantId, actorUserId, operation⟩
    match request.evaluate (do
        throwIf (!satisfies actor ⟨.all, [operation.permission]⟩) (.forbidden INSUFFICIENT_PERMISSIONS)
        call.proceed normalizeEmail actor) with
    | (.ok response, request) =>
      (.ok response, if operation.clears then { request with context := request.context.clearMemo } else request)
    | (.error failure, request) => (.error failure, request)

def Request.after (normalizeEmail : String → String) (request : Request) : RequestStep → Request
  | .permissions userId => (getPermissions request userId).2
  | .operation actorUserId operation => (serve normalizeEmail request actorUserId operation).2

end BusinessPlatform.Rbac
