import BusinessPlatform.Rbac
import BusinessPlatform.AuthService

/-! The guards of a request: `JwtAuthGuard`, `TenantResolutionGuard` with
`TenantService`, and `PermissionsGuard`. They run before the handler, and only read. -/

namespace BusinessPlatform.Guards
open Engine Program Rbac
open AuthService (UserStatus)
open PermissionService (PermissionSnapshot PermissionRequirement satisfies INSUFFICIENT_PERMISSIONS)

inductive TenantStatus where
  | active | suspended | disabled
  deriving DecidableEq, Repr

structure User where
  id : Id
  status : UserStatus
  deriving DecidableEq, Repr

structure Tenant where
  id : Id
  status : TenantStatus
  deriving DecidableEq, Repr

inductive AccessModel where
  | user | tenant | membership | role | permission | rolePermission
  deriving DecidableEq, Repr

namespace AccessModel

abbrev Row : AccessModel → Type
  | user => User
  | tenant => Tenant
  | membership => Rbac.Membership
  | role => Rbac.Role
  | permission => Rbac.Permission
  | rolePermission => Rbac.RolePermission

abbrev Key : AccessModel → Type
  | permission => String
  | rolePermission => Id × String
  | _ => Id

def key : {m : AccessModel} → Row m → Key m
  | user => User.id
  | tenant => Tenant.id
  | membership => Rbac.Membership.id
  | role => Rbac.Role.id
  | permission => Rbac.Permission.id
  | rolePermission => fun row => (row.roleId, row.permissionId)

/-- The guards write nothing; only the index that they read by is listed. -/
def indexes : {m : AccessModel} → Row m → List (Id × Id)
  | membership => fun row => [(row.userId, row.tenantId)]
  | user | tenant | role | permission | rolePermission => fun _ => []

instance keyDecidableEq : (m : AccessModel) → DecidableEq (Key m)
  | user | tenant | membership | role => inferInstanceAs (DecidableEq Nat)
  | permission => inferInstanceAs (DecidableEq String)
  | rolePermission => inferInstanceAs (DecidableEq (Nat × String))

end AccessModel

@[reducible] def access : Schema where
  Model := AccessModel
  Row := AccessModel.Row
  Key := AccessModel.Key
  Index := Id × Id
  key := AccessModel.key
  indexes := AccessModel.indexes
  keyColumns _ := ["id"]
  columns _ := ["userId", "tenantId"]
  check _ := true
  excludes _ _ := false
  parents _ := []
  cascade _ := []

abbrev Access (α : Type) : Type 1 := Program access HttpException α

def UNAUTHORIZED := "Unauthorized"
def INVALID_TOKEN_ERROR := "Invalid credentials"
def MISSING_TENANT_ERROR := "Missing X-Tenant-ID header"
def TENANT_ACCESS_DENIED := "Tenant access denied"

inductive Header where
  | absent
  | single (value : String)
  | multiple (values : List String)
  deriving DecidableEq, Repr

/-- What the framework has made of a request: the subject of its bearer token, if that
is signed and not expired, and the header `x-tenant-id`. -/
structure Incoming where
  token : Option Id
  tenantHeader : Header
  deriving DecidableEq, Repr

/-- `TenantScopedRequest`: what the guards have attached. -/
structure TenantScopedRequest where
  user : Option Id := none
  tenant : Option Tenant := none
  deriving DecidableEq, Repr

/-- White space and line terminators, as `String.prototype.trim` removes them. -/
def isWhiteSpace (c : Char) : Bool :=
  c.toNat ∈ [0x9, 0xA, 0xB, 0xC, 0xD, 0x20, 0xA0, 0x1680, 0x2028, 0x2029, 0x202F, 0x205F, 0x3000, 0xFEFF] ||
    (0x2000 ≤ c.toNat && c.toNat ≤ 0x200A)

def trim (text : String) : String :=
  .ofList ((text.toList.dropWhile isWhiteSpace).reverse.dropWhile isWhiteSpace).reverse

/-- A request that sends a tenant id. -/
def Header.tenant : Header → Option String
  | .single value => if trim value = "" then none else some (trim value)
  | .absent | .multiple _ => none

/-- `JwtStrategy.validate`. -/
def validate (sub : Id) : Access Id := do
  let user ← findFirst (S := access) .user fun row => row.id = sub
  let user ← orThrow (user.filter fun user => user.status = .active) (.unauthorized INVALID_TOKEN_ERROR)
  pure user.id

/-- `JwtAuthGuard`. -/
def jwtAuth (incoming : Incoming) (request : TenantScopedRequest) : Access TenantScopedRequest := do
  let sub ← orThrow incoming.token (.unauthorized UNAUTHORIZED)
  let userId ← validate sub
  pure { request with user := some userId }

/-- Every failure is a missing tenant. -/
def resolveTenant (userId tenantId : Id) : Access (Option Tenant) := do
  let membership ← findFirst (S := access) .membership fun row => row.userId = userId && row.tenantId = tenantId
  match membership with
  | none => pure none
  | some membership => do
    let tenant ← findFirst (S := access) .tenant fun row => row.id = membership.tenantId
    -- the relation is required, so the client does not return without it
    let tenant ← orThrow tenant .internalServerError
    if membership.status ≠ .active then pure none
    else if tenant.status ≠ .active then pure none
    else pure (some tenant)

/-- The ids of tenants by their texts. -/
abbrev Ids : Type := String → Id

def tenantResolution (idOf : Ids) (incoming : Incoming) (request : TenantScopedRequest) : Access TenantScopedRequest := do
  let request ← jwtAuth incoming request
  let tenantId ← orThrow incoming.tenantHeader.tenant (.badRequest MISSING_TENANT_ERROR)
  let userId ← orThrow request.user .internalServerError
  let tenant ← resolveTenant userId (idOf tenantId)
  let tenant ← orThrow tenant (.forbidden TENANT_ACCESS_DENIED)
  pure { request with tenant := some tenant }

/-- `PermissionService.loadSnapshot`. The relation to the role is by tenant and id. -/
def loadSnapshot (tenantId userId : Id) : Access PermissionSnapshot := do
  let membership ← findFirst (S := access) .membership fun row => row.userId = userId && row.tenantId = tenantId
  match membership with
  | none => pure ⟨false, []⟩
  | some membership => do
    let role ← findFirst (S := access) .role fun row => row.id = membership.roleId && row.tenantId = membership.tenantId
    let grants ← findMany (S := access) .rolePermission fun row => row.roleId = membership.roleId
    let permissions ← findMany (S := access) .permission fun row => row.id ∈ grants.map Rbac.RolePermission.permissionId
    pure (snapshotOf membership role grants permissions)

/-- A handler without metadata, or with an empty one, requires nothing. -/
def permissions (requirement : Option PermissionRequirement) (request : TenantScopedRequest) : Access TenantScopedRequest :=
  match requirement with
  | none => pure request
  | some requirement =>
    if requirement.permissions.isEmpty then pure request
    else do
      let tenant ← orThrow request.tenant (.forbidden TENANT_ACCESS_DENIED)
      let userId ← orThrow request.user .internalServerError
      let snapshot ← loadSnapshot tenant.id userId
      throwIf (!satisfies snapshot requirement) (.forbidden INSUFFICIENT_PERMISSIONS)
      pure request

/-- `@UseGuards`. -/
inductive Guard where
  | jwtAuth | tenantResolution | permissions
  deriving DecidableEq, Repr

/-- A handler with its guards and the metadata of its permissions. -/
structure Handler where
  guards : List Guard
  requirement : Option PermissionRequirement
  deriving DecidableEq, Repr

def Guard.canActivate (idOf : Ids) (incoming : Incoming) (requirement : Option PermissionRequirement)
    (request : TenantScopedRequest) : Guard → Access TenantScopedRequest
  | .jwtAuth => Guards.jwtAuth incoming request
  | .tenantResolution => Guards.tenantResolution idOf incoming request
  | .permissions => Guards.permissions requirement request

/-- The guards one after another; the handler gets the request if they all pass. -/
def canActivate (idOf : Ids) (incoming : Incoming) (requirement : Option PermissionRequirement)
    (request : TenantScopedRequest) : List Guard → Access TenantScopedRequest
  | [] => pure request
  | guard :: rest => do
    let request ← guard.canActivate idOf incoming requirement request
    canActivate idOf incoming requirement request rest

def Handler.guarded (idOf : Ids) (handler : Handler) (incoming : Incoming) : Access TenantScopedRequest :=
  canActivate idOf incoming handler.requirement {} handler.guards

/-- The guards of the controllers; those of carts, orders, payments and the POS
authenticate twice. -/
def TENANT_GUARDS : List (List Guard) :=
  [[.tenantResolution, .permissions], [.jwtAuth, .tenantResolution, .permissions]]

abbrev AccessState (ι : Type) : Type 1 := State access HttpException TenantScopedRequest ι

/-- Concurrent requests. What they ask for is written by others. -/
def accessSystem {ι : Type} [DecidableEq ι] (idOf : Ids) (database : Database access) (handlers : ι → Handler)
    (requests : ι → Incoming) : AccessState ι :=
  State.initial database fun i => (handlers i).guarded idOf (requests i)

end BusinessPlatform.Guards
