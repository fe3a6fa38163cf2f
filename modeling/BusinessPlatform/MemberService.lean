import BusinessPlatform.RoleService

/-! `MemberService`: the members of a tenant, their status and new members. -/

namespace BusinessPlatform.Rbac.MemberService
open Engine Program
open PermissionService (PermissionSnapshot OWNER)

def MEMBERSHIP_NOT_FOUND := "Membership not found"
def SELF_STATUS_CHANGE := "Cannot change your own membership status"
def SELF_MEMBERSHIP := "Cannot add yourself as a member"
def LAST_ACTIVE_OWNER := "Cannot suspend the last active owner of the tenant"
def ALREADY_MEMBER := "User is already a member of this tenant"
def ROLE_NOT_FOUND := "Role not found"
def DEFAULT_ROLE_NOT_FOUND := "Default role not found"
def OWNER_ASSIGNMENT := "Only the owner can assign the owner role"
def MEMBER_READ := "member:read"
def MEMBER_MANAGE := "member:manage"

structure CreateMemberDto where
  email : String
  firstName : Option String := none
  lastName : Option String := none
  roleId : Option Id := none
  deriving DecidableEq, Repr

structure UpdateMemberStatusDto where
  status : MembershipStatus
  deriving DecidableEq, Repr

/-- A membership with the relations of `MEMBER_INCLUDE`. -/
structure MemberWithRelations where
  membership : Membership
  user : User
  role : Role
  deriving DecidableEq, Repr

structure MemberSummary where
  membershipId : Id
  userId : Id
  email : String
  firstName : Option String
  lastName : Option String
  role : Id × String × String × Bool
  status : MembershipStatus
  createdAt : Nat
  deriving DecidableEq, Repr

def toSummary (member : MemberWithRelations) : MemberSummary :=
  { membershipId := member.membership.id, userId := member.membership.userId, email := member.user.email
    firstName := member.user.firstName, lastName := member.user.lastName
    role := (member.role.id, member.role.key, member.role.name, member.role.isSystem)
    status := member.membership.status, createdAt := member.membership.createdAt }

def assertRead (tenantId actorUserId : Id) : RbacService PermissionSnapshot :=
  assertPermissions tenantId actorUserId ⟨.all, [MEMBER_READ]⟩

def assertManage (tenantId actorUserId : Id) : RbacService PermissionSnapshot :=
  assertPermissions tenantId actorUserId ⟨.all, [MEMBER_MANAGE]⟩

/-- The required relations of a membership. -/
def loadRelations (membership : Membership) : RbacService MemberWithRelations := do
  let user ← findFirst (S := rbac) .user fun row => row.id = membership.userId
  let user ← orThrow user .internalServerError
  let role ← roleOf membership
  let role ← orThrow role .internalServerError
  pure ⟨membership, user, role⟩

def loadAllRelations : List Membership → RbacService (List MemberWithRelations)
  | [] => pure []
  | membership :: memberships => do
    let member ← loadRelations membership
    let members ← loadAllRelations memberships
    pure (member :: members)

def listMembers (tenantId actorUserId : Id) : RbacService (List MemberSummary) := do
  let _ ← assertRead tenantId actorUserId
  let rows ← findMany (S := rbac) .membership fun row => row.tenantId = tenantId
  let members ← loadAllRelations (Prisma.orderBy Membership.createdAt rows)
  pure (members.map toSummary)

def getMember (tenantId actorUserId userId : Id) : RbacService MemberSummary := do
  let _ ← assertRead tenantId actorUserId
  let membership ← findFirst (S := rbac) .membership fun row => row.userId = userId && row.tenantId = tenantId
  let membership ← orThrow membership (.notFound MEMBERSHIP_NOT_FOUND)
  let member ← loadRelations membership
  pure (toSummary member)

/-- The membership with its relations, or 404. -/
def findMembership (tenantId membershipId : Id) : RbacService MemberWithRelations := do
  let membership ← findFirst (S := rbac) .membership (inTenant tenantId membershipId)
  let membership ← orThrow membership (.notFound MEMBERSHIP_NOT_FOUND)
  loadRelations membership

def setStatus (status : MembershipStatus) : Change rbac .membership where
  apply row := { row with status }
  keeps _ := rfl

def updateWithOwnerLock (tenantId membershipId : Id) (status : MembershipStatus) : RbacService MemberWithRelations := do
  let _ ← transaction do
    assertNotLastActiveOwner tenantId LAST_ACTIVE_OWNER
    update (S := rbac) .membership (inTenant tenantId membershipId) (setStatus status)
  findMembership tenantId membershipId

/-- An active owner who is to be suspended is suspended under the lock. -/
def storeStatus (removingActiveOwner : Bool) (tenantId membershipId : Id) (status : MembershipStatus) :
    RbacService MemberWithRelations :=
  if removingActiveOwner then updateWithOwnerLock tenantId membershipId status
  else do
    let updated ← update (S := rbac) .membership (inTenant tenantId membershipId) (setStatus status)
    loadRelations updated

def updateMemberStatus (tenantId actorUserId membershipId : Id) (dto : UpdateMemberStatusDto) :
    RbacService MemberSummary := do
  let _ ← assertManage tenantId actorUserId
  let member ← findMembership tenantId membershipId
  throwIf (member.membership.userId = actorUserId) (.forbidden SELF_STATUS_CHANGE)
  let isOwnerMembership := member.role.key = OWNER
  let removingActiveOwner := isOwnerMembership && member.membership.status = .active && dto.status = .suspended
  let updated ← storeStatus removingActiveOwner tenantId membershipId dto.status
  pure (toSummary updated)

/-- The requested role of the tenant, or its `employee` system role. -/
def resolveTargetRole (tenantId : Id) : Option Id → RbacService (Option Role)
  | some roleId => findFirst (S := rbac) .role (RoleService.named tenantId roleId)
  | none => findFirst (S := rbac) .role fun row => row.tenantId = tenantId && row.key = EMPLOYEE && row.isSystem

/-- `user.upsert` with an empty update. -/
def upsertUser (normalizeEmail : String → String) (dto : CreateMemberDto) : RbacService User := do
  let user ← findFirst (S := rbac) .user fun row => row.email = normalizeEmail dto.email
  match user with
  | some user => pure user
  | none => create (S := rbac) .user fun id _ =>
      { id, email := normalizeEmail dto.email, firstName := dto.firstName, lastName := dto.lastName }

def newMembership (tenantId userId roleId : Id) (id now : Nat) : Membership :=
  { id, tenantId, userId, roleId, status := .active, createdAt := now }

def onboard (normalizeEmail : String → String) (tenantId actorUserId roleId : Id) (dto : CreateMemberDto) :
    RbacService MemberSummary := do
  let user ← upsertUser normalizeEmail dto
  throwIf (user.id = actorUserId) (.forbidden SELF_MEMBERSHIP)
  let existing ← findFirst (S := rbac) .membership fun row => row.userId = user.id && row.tenantId = tenantId
  throwIf existing.isSome (.conflict ALREADY_MEMBER)
  let created ← create (S := rbac) .membership (newMembership tenantId user.id roleId)
  let member ← loadRelations created
  pure (toSummary member)

def mapAlreadyMember {α : Type} (request : RbacService α) : RbacService α :=
  tryCatch request fun failure =>
    if isP2002 failure then throw (.conflict ALREADY_MEMBER) else .done (.error failure)

def createMember (normalizeEmail : String → String) (tenantId actorUserId : Id) (dto : CreateMemberDto) :
    RbacService MemberSummary := do
  let actor ← assertManage tenantId actorUserId
  let role ← resolveTargetRole tenantId dto.roleId
  let role ← orThrow role (.notFound (if dto.roleId.isSome then ROLE_NOT_FOUND else DEFAULT_ROLE_NOT_FOUND))
  throwIf (role.key = OWNER && !actor.isOwner) (.forbidden OWNER_ASSIGNMENT)
  mapAlreadyMember (transaction (onboard normalizeEmail tenantId actorUserId role.id dto))

end BusinessPlatform.Rbac.MemberService

namespace BusinessPlatform.Rbac
open Engine Program

/-- The operations of both services with their arguments. -/
inductive RbacOperation where
  | createRole (dto : RoleService.CreateRoleDto)
  | listRoles
  | getRole (roleId : Id)
  | updateRole (roleId : Id) (dto : RoleService.UpdateRoleDto)
  | deleteRole (roleId : Id)
  | assignPermissions (roleId : Id) (dto : RoleService.AssignRolePermissionsDto)
  | assignRoleToMembership (dto : RoleService.AssignRoleToMembershipDto)
  | listMembers
  | getMember (userId : Id)
  | updateMemberStatus (membershipId : Id) (dto : MemberService.UpdateMemberStatusDto)
  | createMember (dto : MemberService.CreateMemberDto)
  deriving DecidableEq, Repr

/-- An operation of an authenticated user in a tenant. -/
structure RbacCall where
  tenantId : Id
  actorUserId : Id
  operation : RbacOperation
  deriving DecidableEq, Repr

inductive RbacResponse where
  | created (role : Id × String × String)
  | roles (summaries : List RoleService.RoleSummary)
  | role (details : RoleService.RoleDetails)
  | updated (role : Id × String × String × Option String)
  | deleted (roleId : Id)
  | granted (role : Id × Nat)
  | assigned (membership : Id × Id)
  | members (summaries : List MemberService.MemberSummary)
  | member (summary : MemberService.MemberSummary)
  deriving DecidableEq, Repr

def RbacCall.program (normalizeEmail : String → String) (call : RbacCall) : RbacService RbacResponse :=
  match call.operation with
  | .createRole dto => RbacResponse.created <$> RoleService.createRole call.tenantId call.actorUserId dto
  | .listRoles => RbacResponse.roles <$> RoleService.listRoles call.tenantId call.actorUserId
  | .getRole roleId => RbacResponse.role <$> RoleService.getRole call.tenantId call.actorUserId roleId
  | .updateRole roleId dto => RbacResponse.updated <$> RoleService.updateRole call.tenantId call.actorUserId roleId dto
  | .deleteRole roleId => RbacResponse.deleted <$> RoleService.deleteRole call.tenantId call.actorUserId roleId
  | .assignPermissions roleId dto =>
    RbacResponse.granted <$> RoleService.assignPermissions call.tenantId call.actorUserId roleId dto
  | .assignRoleToMembership dto =>
    RbacResponse.assigned <$> RoleService.assignRoleToMembership call.tenantId call.actorUserId dto
  | .listMembers => RbacResponse.members <$> MemberService.listMembers call.tenantId call.actorUserId
  | .getMember userId => RbacResponse.member <$> MemberService.getMember call.tenantId call.actorUserId userId
  | .updateMemberStatus membershipId dto =>
    RbacResponse.member <$> MemberService.updateMemberStatus call.tenantId call.actorUserId membershipId dto
  | .createMember dto =>
    RbacResponse.member <$> MemberService.createMember normalizeEmail call.tenantId call.actorUserId dto

abbrev RbacState (ι : Type) : Type 1 := State rbac HttpException RbacResponse ι

abbrev RbacWorld (ι : Type) : Type := World rbac ι

variable {ι : Type} [DecidableEq ι]

def rbacSystem (normalizeEmail : String → String) (database : RbacDb) (calls : ι → RbacCall) : RbacState ι :=
  State.initial database fun i => (calls i).program normalizeEmail

end BusinessPlatform.Rbac
