import BusinessPlatform.Guards
import BusinessPlatform.Engine.Observation
import BusinessPlatform.Engine.Indexes

/-! Which requests reach their handlers while others suspend users, members and tenants
and change roles. Each guard decides by what it reads, at the moment that it reads it. -/

namespace BusinessPlatform.Guards
open Engine Rbac
open PermissionService (PermissionSnapshot PermissionRequirement satisfies INSUFFICIENT_PERMISSIONS OWNER)

variable {holds : Database access → Prop} {idOf : Ids} {userId tenantId roleId : Id} {key : String}

def UserActive (db : Database access) (userId : Id) : Prop :=
  ∃ user ∈ (db.table .user).rows, user.id = userId ∧ user.status = .active

/-- The membership of the user in the tenant. -/
def Member (db : Database access) (userId tenantId : Id) (membership : Rbac.Membership) : Prop :=
  membership ∈ (db.table .membership).rows ∧ membership.userId = userId ∧ membership.tenantId = tenantId

def MemberActive (db : Database access) (userId tenantId : Id) : Prop :=
  ∃ membership, Member db userId tenantId membership ∧ membership.status = .active

def TenantActive (db : Database access) (tenantId : Id) : Prop :=
  ∃ tenant ∈ (db.table .tenant).rows, tenant.id = tenantId ∧ tenant.status = .active

def OwnerRole (db : Database access) (tenantId roleId : Id) : Prop :=
  ∃ role ∈ (db.table .role).rows, role.id = roleId ∧ role.tenantId = tenantId ∧ role.key = OWNER

/-- The grants of one database and the catalog of another one. -/
def Granted (grants catalog : Database access) (roleId : Id) (key : String) : Prop :=
  ∃ permission ∈ (catalog.table .permission).rows, permission.key = key ∧
    ∃ grant ∈ (grants.table .rolePermission).rows, grant.roleId = roleId ∧ grant.permissionId = permission.id

/-- The permissions of a member, as they are read at several moments. -/
inductive Loaded (holds : Database access → Prop) (tenantId userId : Id) : PermissionSnapshot → Prop where
  | outsider (db : Database access) (held : holds db) (inactive : ¬ MemberActive db userId tenantId) :
      Loaded holds tenantId userId ⟨false, []⟩
  | owner (first second : Database access) (held : holds first ∧ holds second) (membership : Rbac.Membership)
      (member : Member first userId tenantId membership) (active : membership.status = .active)
      (owner : OwnerRole second tenantId membership.roleId) : Loaded holds tenantId userId ⟨true, []⟩
  | member (first second third fourth : Database access) (held : holds first ∧ holds second ∧ holds third ∧ holds fourth)
      (membership : Rbac.Membership) (member : Member first userId tenantId membership) (active : membership.status = .active)
      (other : ¬ OwnerRole second tenantId membership.roleId) (keys : List String)
      (granted : ∀ key, key ∈ keys ↔ Granted third fourth membership.roleId key) : Loaded holds tenantId userId ⟨false, keys⟩

/-- The answer of the guards, with the moment that decides it. -/
inductive Decided (holds : Database access → Prop) (idOf : Ids) (requirement : Option PermissionRequirement)
    (incoming : Incoming) : Except (Failure HttpException) TenantScopedRequest → Prop where
  | unauthenticated (unsigned : incoming.token = none) :
      Decided holds idOf requirement incoming (.error (.thrown (.unauthorized UNAUTHORIZED)))
  | inactiveUser (userId : Id) (token : incoming.token = some userId) (db : Database access) (held : holds db)
      (inactive : ¬ UserActive db userId) :
      Decided holds idOf requirement incoming (.error (.thrown (.unauthorized INVALID_TOKEN_ERROR)))
  | unnamed (missing : incoming.tenantHeader.tenant = none) :
      Decided holds idOf requirement incoming (.error (.thrown (.badRequest MISSING_TENANT_ERROR)))
  | denied (userId : Id) (text : String) (token : incoming.token = some userId)
      (named : incoming.tenantHeader.tenant = some text) (db : Database access) (held : holds db)
      (inactive : ¬ MemberActive db userId (idOf text) ∨ ¬ TenantActive db (idOf text)) :
      Decided holds idOf requirement incoming (.error (.thrown (.forbidden TENANT_ACCESS_DENIED)))
  | vanished (text : String) (named : incoming.tenantHeader.tenant = some text) (db : Database access) (held : holds db)
      (missing : ¬ TenantActive db (idOf text)) : Decided holds idOf requirement incoming (.error (.thrown .internalServerError))
  | insufficient (userId : Id) (text : String) (token : incoming.token = some userId)
      (named : incoming.tenantHeader.tenant = some text) (required : PermissionRequirement)
      (demanded : requirement = some required) (snapshot : PermissionSnapshot)
      (loaded : Loaded holds (idOf text) userId snapshot) (lacking : satisfies snapshot required = false) :
      Decided holds idOf requirement incoming (.error (.thrown (.forbidden INSUFFICIENT_PERMISSIONS)))
  | admitted (userId : Id) (text : String) (tenant : Tenant) (token : incoming.token = some userId)
      (named : incoming.tenantHeader.tenant = some text) (same : tenant.id = idOf text)
      (user : ∃ db, holds db ∧ UserActive db userId) (member : ∃ db, holds db ∧ MemberActive db userId (idOf text))
      (active : ∃ db, holds db ∧ TenantActive db (idOf text))
      (permitted : ∀ required, requirement = some required → required.permissions ≠ [] →
        ∃ snapshot, Loaded holds (idOf text) userId snapshot ∧ satisfies snapshot required = true) :
      Decided holds idOf requirement incoming (.ok ⟨some userId, some tenant⟩)

private theorem validate_observed {result : Except (Failure HttpException) Id}
    (observes : (validate userId).Observes holds result) (spared : Spared result) :
    (∃ db, holds db ∧ UserActive db userId ∧ result = .ok userId) ∨
      ∃ db, holds db ∧ ¬ UserActive db userId ∧ result = .error (.thrown (.unauthorized INVALID_TOKEN_ERROR)) := by
  obtain ⟨db, held, ⟨user, member, matched, rest⟩ | ⟨unmatched, rest⟩⟩ := observes.after_findFirst spared
  · have named : user.id = userId := of_decide_eq_true matched
    rcases rest.after_orThrow with ⟨found, kept, rest⟩ | ⟨dropped, refused⟩
    · obtain ⟨same, active⟩ := Option.filter_eq_some_iff.mp kept
      cases same
      refine .inl ⟨db, held, ⟨user, member, named, of_decide_eq_true active⟩, ?_⟩
      rw [rest.of_done, named]
    · refine .inr ⟨db, held, ?_, refused⟩
      rintro ⟨other, inside, key, live⟩
      have single : other = user := Table.key_unique (db.table .user) inside member (key.trans named.symm)
      simp [← single, live] at dropped
  · rcases rest.after_orThrow with ⟨found, kept, _⟩ | ⟨_, refused⟩
    · cases kept
    · refine .inr ⟨db, held, ?_, refused⟩
      rintro ⟨other, inside, key, _⟩
      simpa [key] using unmatched other inside

variable {incoming : Incoming} {request : TenantScopedRequest} {requirement : Option PermissionRequirement}
  {answer : Except (Failure HttpException) TenantScopedRequest}

private theorem jwtAuth_observed (observes : (jwtAuth incoming request).Observes holds answer) (spared : Spared answer) :
    (∃ userId, incoming.token = some userId ∧ (∃ db, holds db ∧ UserActive db userId) ∧
      answer = .ok { request with user := some userId }) ∨
    Decided holds idOf requirement incoming answer ∧ ∃ exception, answer = .error (.thrown exception) := by
  rcases observes.after_orThrow with ⟨userId, token, rest⟩ | ⟨unsigned, refused⟩
  · obtain ⟨result, first, unhit, ⟨value, same, rest⟩ | ⟨failure, failed, same⟩⟩ := rest.after spared
    · rcases validate_observed first unhit with ⟨db, held, active, valid⟩ | ⟨_, _, _, refused⟩
      · cases same.symm.trans valid
        exact .inl ⟨userId, token, ⟨db, held, active⟩, rest.of_done⟩
      · cases same.symm.trans refused
    · rcases validate_observed first unhit with ⟨_, _, _, valid⟩ | ⟨db, held, inactive, refused⟩
      · cases failed.symm.trans valid
      · cases failed.symm.trans refused
        subst same
        exact .inr ⟨.inactiveUser userId token db held inactive, _, rfl⟩
  · subst refused
    exact .inr ⟨.unauthenticated unsigned, _, rfl⟩

private theorem member_single {db : Database access} (unique : Database.Unique (S := access) .membership db)
    {first second : Rbac.Membership} (one : Member db userId tenantId first) (two : Member db userId tenantId second) :
    first = second := by
  obtain ⟨inside, user, tenant⟩ := one
  obtain ⟨also, sameUser, sameTenant⟩ := two
  refine unique first inside second also (first.userId, first.tenantId) (List.mem_singleton.mpr rfl) ?_
  rw [user, tenant, ← sameUser, ← sameTenant]
  exact List.mem_singleton.mpr rfl

private theorem resolveTenant_observed {result : Except (Failure HttpException) (Option Tenant)}
    (unique : ∀ db, holds db → Database.Unique (S := access) .membership db)
    (observes : (resolveTenant userId tenantId).Observes holds result) (spared : Spared result) :
    (∃ tenant, tenant.id = tenantId ∧ (∃ db, holds db ∧ MemberActive db userId tenantId) ∧
      (∃ db, holds db ∧ TenantActive db tenantId) ∧ result = .ok (some tenant)) ∨
    (∃ db, holds db ∧ (¬ MemberActive db userId tenantId ∨ ¬ TenantActive db tenantId) ∧ result = .ok none) ∨
    ∃ db, holds db ∧ ¬ TenantActive db tenantId ∧ result = .error (.thrown .internalServerError) := by
  obtain ⟨db, held, ⟨membership, member, matched, rest⟩ | ⟨unmatched, rest⟩⟩ := observes.after_findFirst spared
  · simp only [Bool.and_eq_true, decide_eq_true_eq] at matched
    have found : Member db userId tenantId membership := ⟨member, matched⟩
    obtain ⟨second, also, known⟩ := rest.after_findFirst spared
    have missing (unlisted : ∀ row ∈ (second.table .tenant).rows, decide (row.id = membership.tenantId) = false) :
        ¬ TenantActive second tenantId := by
      rintro ⟨tenant, inside, key, _⟩
      simpa [key, matched.2] using unlisted tenant inside
    rcases known with ⟨tenant, inside, named, rest⟩ | ⟨unlisted, rest⟩
    · have named : tenant.id = tenantId := (of_decide_eq_true named).trans matched.2
      change Program.Observes holds (if membership.status ≠ .active then pure none else
        if tenant.status ≠ .active then pure none else pure (some tenant)) result at rest
      by_cases active : membership.status = .active
      · by_cases live : tenant.status = .active
        · rw [if_neg (not_not.mpr active), if_neg (not_not.mpr live)] at rest
          exact .inl ⟨tenant, named, ⟨db, held, membership, found, active⟩, ⟨second, also, tenant, inside, named, live⟩, rest.of_done⟩
        · rw [if_neg (not_not.mpr active), if_pos live] at rest
          refine .inr (.inl ⟨second, also, .inr ?_, rest.of_done⟩)
          rintro ⟨other, there, key, running⟩
          have single : other = tenant := Table.key_unique (second.table .tenant) there inside (key.trans named.symm)
          exact live (single ▸ running)
      · rw [if_pos active] at rest
        refine .inr (.inl ⟨db, held, .inl ?_, rest.of_done⟩)
        rintro ⟨other, there, running⟩
        exact active (member_single (unique db held) there found ▸ running)
    · exact .inr (.inr ⟨second, also, missing unlisted, rest.of_done⟩)
  · refine .inr (.inl ⟨db, held, .inl ?_, rest.of_done⟩)
    rintro ⟨membership, ⟨inside, user, tenant⟩, _⟩
    simpa [user, tenant] using unmatched membership inside

private theorem mem_granted {third fourth : Database access} {grants : List Rbac.RolePermission}
    {permissions : List Rbac.Permission}
    (granted : grants.Perm ((third.table .rolePermission).rows.filter fun row => row.roleId = roleId))
    (listed : permissions.Perm ((fourth.table .permission).rows.filter fun row =>
      row.id ∈ grants.map Rbac.RolePermission.permissionId)) :
    key ∈ grantedKeys grants permissions ↔ Granted third fourth roleId key := by
  have grantOf {grant : Rbac.RolePermission} : grant ∈ grants ↔
      grant ∈ (third.table .rolePermission).rows ∧ grant.roleId = roleId := by
    rw [granted.mem_iff, List.mem_filter, decide_eq_true_eq]
  have permissionOf {permission : Rbac.Permission} : permission ∈ permissions ↔
      permission ∈ (fourth.table .permission).rows ∧ permission.id ∈ grants.map Rbac.RolePermission.permissionId := by
    rw [listed.mem_iff, List.mem_filter, decide_eq_true_eq]
  simp only [grantedKeys, List.mem_filterMap, Option.map_eq_some_iff]
  constructor
  · rintro ⟨grant, member, permission, found, rfl⟩
    have named : permission.id = grant.permissionId := by simpa using List.find?_some found
    obtain ⟨inside, _⟩ := permissionOf.mp (List.mem_of_find?_eq_some found)
    obtain ⟨there, role⟩ := grantOf.mp member
    exact ⟨permission, inside, rfl, grant, there, role, named.symm⟩
  · rintro ⟨permission, inside, rfl, grant, there, role, named⟩
    have member := grantOf.mpr ⟨there, role⟩
    have here := permissionOf.mpr ⟨inside, List.mem_map.mpr ⟨grant, member, named⟩⟩
    refine ⟨grant, member, permission, ?_, rfl⟩
    -- the catalog has one permission of this id
    cases found : permissions.find? fun permission => permission.id = grant.permissionId with
    | none => simpa [named] using List.find?_eq_none.mp found permission here
    | some other =>
      have same : other.id = grant.permissionId := by simpa using List.find?_some found
      have known := (permissionOf.mp (List.mem_of_find?_eq_some found)).1
      rw [Table.key_unique (fourth.table .permission) known inside (same.trans named)]

private theorem loadSnapshot_observed {result : Except (Failure HttpException) PermissionSnapshot}
    (unique : ∀ db, holds db → Database.Unique (S := access) .membership db)
    (observes : (loadSnapshot tenantId userId).Observes holds result) (spared : Spared result) :
    ∃ snapshot, Loaded holds tenantId userId snapshot ∧ result = .ok snapshot := by
  obtain ⟨first, held, ⟨membership, inside, matched, rest⟩ | ⟨unmatched, rest⟩⟩ := observes.after_findFirst spared
  · simp only [Bool.and_eq_true, decide_eq_true_eq] at matched
    have member : Member first userId tenantId membership := ⟨inside, matched⟩
    obtain ⟨second, held₂, role⟩ := rest.after_findFirst spared
    -- the role is the owner role or not, whichever the second scan has found
    obtain ⟨found, owned, rest⟩ : ∃ found : Option Rbac.Role,
        (found.map Rbac.Role.key = some OWNER ↔ OwnerRole second tenantId membership.roleId) ∧
        (do
          let grants ← Program.findMany (S := access) .rolePermission fun row => row.roleId = membership.roleId
          let permissions ← Program.findMany (S := access) .permission fun row =>
            row.id ∈ grants.map Rbac.RolePermission.permissionId
          pure (snapshotOf membership found grants permissions) : Access PermissionSnapshot).Observes holds result := by
      rcases role with ⟨role, stored, named, rest⟩ | ⟨unlisted, rest⟩
      · simp only [Bool.and_eq_true, decide_eq_true_eq] at named
        refine ⟨some role, ⟨fun owner => ?_, ?_⟩, rest⟩
        · exact ⟨role, stored, named.1, named.2.trans matched.2, Option.some.inj owner⟩
        · rintro ⟨other, there, key, _, owner⟩
          have single : other = role := Table.key_unique (second.table .role) there stored (key.trans named.1.symm)
          exact congrArg some (single ▸ owner)
      · refine ⟨none, ⟨nofun, ?_⟩, rest⟩
        rintro ⟨other, there, key, tenant, _⟩
        simpa [key, tenant, matched.2] using unlisted other there
    obtain ⟨third, grants, held₃, granted, rest⟩ := rest.after_findMany spared
    obtain ⟨fourth, permissions, held₄, listed, rest⟩ := rest.after_findMany spared
    refine ⟨snapshotOf membership found grants permissions, ?_, rest.of_done⟩
    unfold snapshotOf
    split
    next inactive =>
      refine .outsider first held ?_
      rintro ⟨other, there, running⟩
      exact inactive (member_single (unique first held) there member ▸ running)
    next active =>
      have active : membership.status = .active := not_not.mp active
      split
      next owner => exact .owner first second ⟨held, held₂⟩ membership member active (owned.mp owner)
      next other =>
        exact .member first second third fourth ⟨held, held₂, held₃, held₄⟩ membership member active
          (fun owner => other (owned.mpr owner)) _ fun _ => mem_granted granted listed
  · refine ⟨⟨false, []⟩, .outsider first held ?_, rest.of_done⟩
    rintro ⟨membership, ⟨inside, user, tenant⟩, _⟩
    simpa [user, tenant] using unmatched membership inside

/-- The tenant of a request has been resolved for its user. -/
structure Resolved (holds : Database access → Prop) (idOf : Ids) (incoming : Incoming) (userId : Id) (text : String)
    (tenant : Tenant) : Prop where
  token : incoming.token = some userId
  named : incoming.tenantHeader.tenant = some text
  same : tenant.id = idOf text
  user : ∃ db, holds db ∧ UserActive db userId
  member : ∃ db, holds db ∧ MemberActive db userId (idOf text)
  active : ∃ db, holds db ∧ TenantActive db (idOf text)

private theorem tenantResolution_observed (unique : ∀ db, holds db → Database.Unique (S := access) .membership db)
    (observes : (tenantResolution idOf incoming request).Observes holds answer) (spared : Spared answer) :
    (∃ userId text tenant, Resolved holds idOf incoming userId text tenant ∧ answer = .ok ⟨some userId, some tenant⟩) ∨
    Decided holds idOf requirement incoming answer ∧ ∃ exception, answer = .error (.thrown exception) := by
  obtain ⟨result, first, unhit, outcome⟩ := observes.after spared
  have signed := @jwtAuth_observed _ idOf _ _ requirement _ first unhit
  rcases signed with ⟨userId, token, user, same⟩ | decided
  · subst same
    obtain ⟨_, same, rest⟩ | ⟨_, failed, _⟩ := outcome
    · cases same
      rcases rest.after_orThrow with ⟨text, named, rest⟩ | ⟨missing, refused⟩
      · change Program.Observes holds (resolveTenant userId (idOf text) >>= _) answer at rest
        obtain ⟨result, resolved, unhit, outcome⟩ := rest.after spared
        rcases resolveTenant_observed unique resolved unhit with
          ⟨tenant, id, member, active, same⟩ | ⟨db, held, inactive, same⟩ | ⟨db, held, missing, same⟩
        · subst same
          obtain ⟨_, same, rest⟩ | ⟨_, failed, _⟩ := outcome
          · cases same
            exact .inl ⟨userId, text, tenant, ⟨token, named, id, user, member, active⟩, rest.of_done⟩
          · cases failed
        · subst same
          obtain ⟨_, same, rest⟩ | ⟨_, failed, _⟩ := outcome
          · cases same
            rw [rest.of_done]
            exact .inr ⟨.denied userId text token named db held inactive, _, rfl⟩
          · cases failed
        · subst same
          obtain ⟨_, same, _⟩ | ⟨_, failed, same⟩ := outcome
          · cases same
          · cases failed
            rw [same]
            exact .inr ⟨.vanished text named db held missing, _, rfl⟩
      · rw [refused]
        exact .inr ⟨.unnamed missing, _, rfl⟩
    · cases failed
  · obtain ⟨_, same, _⟩ | ⟨_, failed, same⟩ := outcome
    · obtain ⟨_, _, thrown⟩ := decided
      cases same.symm.trans thrown
    · rw [same, ← failed]
      exact .inr decided

private theorem permissions_observed {text : String} {tenant : Tenant}
    (unique : ∀ db, holds db → Database.Unique (S := access) .membership db)
    (resolved : Resolved holds idOf incoming userId text tenant)
    (observes : (permissions requirement ⟨some userId, some tenant⟩).Observes holds answer) (spared : Spared answer) :
    Decided holds idOf requirement incoming answer := by
  have admitted (permitted : ∀ required, requirement = some required → required.permissions ≠ [] →
      ∃ snapshot, Loaded holds (idOf text) userId snapshot ∧ satisfies snapshot required = true) :
      Decided holds idOf requirement incoming (.ok ⟨some userId, some tenant⟩) :=
    .admitted userId text tenant resolved.token resolved.named resolved.same resolved.user resolved.member resolved.active permitted
  unfold permissions at observes
  split at observes
  next =>
    rw [observes.of_done]
    exact admitted nofun
  next required =>
    split at observes
    next empty =>
      rw [observes.of_done]
      refine admitted fun other same nonempty => absurd (List.isEmpty_iff.mp empty) ?_
      cases same
      exact nonempty
    next =>
      change Program.Observes holds (loadSnapshot tenant.id userId >>= _) answer at observes
      obtain ⟨result, loading, unhit, outcome⟩ := observes.after spared
      obtain ⟨snapshot, loaded, same⟩ := loadSnapshot_observed unique loading unhit
      rw [resolved.same] at loaded
      subst same
      obtain ⟨_, same, rest⟩ | ⟨_, failed, _⟩ := outcome
      · cases same
        rcases rest.after_throwIf with ⟨sufficient, rest⟩ | ⟨lacking, refused⟩
        · rw [rest.of_done]
          refine admitted fun other same _ => ⟨snapshot, loaded, ?_⟩
          cases same
          simpa using sufficient
        · rw [refused]
          exact .insufficient userId text resolved.token resolved.named required rfl snapshot loaded (by simpa using lacking)
      · cases failed

private theorem admit_observed {guards : List Guard} (chain : guards ∈ TENANT_GUARDS)
    (unique : ∀ db, holds db → Database.Unique (S := access) .membership db)
    (observes : (Handler.guarded idOf ⟨guards, requirement⟩ incoming).Observes holds answer) (spared : Spared answer) :
    Decided holds idOf requirement incoming answer := by
  have resolution (request : TenantScopedRequest) (observes : (canActivate idOf incoming requirement request
      [.tenantResolution, .permissions]).Observes holds answer) : Decided holds idOf requirement incoming answer := by
    change Program.Observes holds (tenantResolution idOf incoming request >>= fun request =>
      permissions requirement request >>= pure) answer at observes
    simp only [bind_pure] at observes
    obtain ⟨result, first, unhit, outcome⟩ := observes.after spared
    rcases tenantResolution_observed unique first unhit with ⟨userId, text, tenant, resolved, same⟩ | ⟨decided, _, thrown⟩
    · subst same
      obtain ⟨_, same, rest⟩ | ⟨_, failed, _⟩ := outcome
      · cases same
        exact permissions_observed unique resolved rest spared
      · cases failed
    · subst thrown
      obtain ⟨_, same, _⟩ | ⟨_, failed, same⟩ := outcome
      · cases same
      · cases failed
        rw [same]
        exact decided
  simp only [TENANT_GUARDS, List.mem_cons, List.not_mem_nil, or_false] at chain
  rcases chain with rfl | rfl
  · exact resolution {} observes
  · obtain ⟨result, first, unhit, outcome⟩ := Program.Observes.after observes spared
    have signed := @jwtAuth_observed _ idOf _ _ requirement _ first unhit
    rcases signed with ⟨_, _, _, same⟩ | ⟨decided, _, thrown⟩
    · subst same
      obtain ⟨_, same, rest⟩ | ⟨_, failed, _⟩ := outcome
      · cases same
        exact resolution _ rest
      · cases failed
    · subst thrown
      obtain ⟨_, same, _⟩ | ⟨_, failed, same⟩ := outcome
      · cases same
      · cases failed
        rw [same]
        exact decided

/-- How a member comes to have permissions. -/
inductive Standing where
  | owner
  | granted (keys : List String)
  deriving DecidableEq, Repr

def Standing.snapshot : Standing → PermissionSnapshot
  | owner => ⟨true, []⟩
  | granted keys => ⟨false, keys⟩

/-- The role is the owner role, or it is granted the permissions of the catalog. -/
def Standing.Stored (standing : Standing) (catalog : String → String) (tenantId roleId : Id) (db : Database access) : Prop :=
  match standing with
  | .owner => OwnerRole db tenantId roleId
  | .granted keys => ∀ key ∈ keys, (∃ permission ∈ (db.table .permission).rows, permission.id = catalog key ∧ permission.key = key) ∧
      ∃ grant ∈ (db.table .rolePermission).rows, grant.roleId = roleId ∧ grant.permissionId = catalog key

/-- The user is an active member of the active tenant with a role that permits it. -/
structure Entitled (standing : Standing) (catalog : String → String) (userId tenantId roleId : Id) (db : Database access) :
    Prop where
  user : UserActive db userId
  member : ∃ membership, Member db userId tenantId membership ∧ membership.status = .active ∧ membership.roleId = roleId
  tenant : TenantActive db tenantId
  rights : standing.Stored catalog tenantId roleId db

variable {standing : Standing} {catalog : String → String}

private theorem satisfies_mono {keys more : List String} {required : PermissionRequirement} (subset : ∀ key ∈ keys, key ∈ more)
    (satisfied : satisfies ⟨false, keys⟩ required = true) : satisfies ⟨false, more⟩ required = true := by
  obtain ⟨mode, permissions⟩ := required
  cases mode with
  | any =>
    simp only [satisfies, Bool.false_or, List.any_eq_true, decide_eq_true_eq] at satisfied ⊢
    obtain ⟨key, demanded, held⟩ := satisfied
    exact ⟨key, demanded, subset key held⟩
  | all =>
    simp only [satisfies, Bool.false_or, List.all_eq_true, decide_eq_true_eq] at satisfied ⊢
    exact fun key demanded => subset key (satisfied key demanded)

/-- Who is entitled all the time has the permissions, at whatever moments they are read. -/
private theorem Loaded.entitled (unique : ∀ db, holds db → Database.Unique (S := access) .membership db)
    (entitled : ∀ db, holds db → Entitled standing catalog userId tenantId roleId db) {snapshot : PermissionSnapshot}
    (loaded : Loaded holds tenantId userId snapshot) {required : PermissionRequirement}
    (enough : satisfies standing.snapshot required = true) : satisfies snapshot required = true := by
  have role {db : Database access} (held : holds db) {membership : Rbac.Membership}
      (member : Member db userId tenantId membership) : membership.roleId = roleId := by
    obtain ⟨other, there, _, same⟩ := (entitled db held).member
    rw [member_single (unique db held) member there, same]
  cases loaded with
  | outsider db held inactive =>
    obtain ⟨membership, member, active, _⟩ := (entitled db held).member
    exact absurd ⟨membership, member, active⟩ inactive
  | owner => rfl
  | member first second third fourth held membership member active other keys granted =>
    obtain ⟨held₁, held₂, held₃, held₄⟩ := held
    have same := role held₁ member
    cases standing with
    | owner => exact absurd (same ▸ (entitled second held₂).rights) other
    | granted given =>
      refine satisfies_mono (fun key member => (granted key).mpr ?_) enough
      obtain ⟨⟨permission, inside, named, rfl⟩, _⟩ := (entitled fourth held₄).rights key member
      obtain ⟨_, grant, there, assigned, refers⟩ := (entitled third held₃).rights _ member
      exact ⟨permission, inside, rfl, grant, there, assigned.trans same.symm, refers.trans named.symm⟩

private theorem jwtAuth_reading : (jwtAuth incoming request).Reading :=
  .bind .orThrow fun _ => .bind (.bind .findFirst fun _ => .bind .orThrow fun _ => .pure) fun _ => .pure

private theorem resolveTenant_reading : (resolveTenant userId tenantId).Reading := by
  refine .bind .findFirst fun membership => ?_
  cases membership with
  | none => exact .pure
  | some membership =>
    refine .bind .findFirst fun tenant => .bind .orThrow fun tenant => ?_
    split
    · exact .pure
    · split <;> exact .pure

private theorem loadSnapshot_reading : (loadSnapshot tenantId userId).Reading := by
  refine .bind .findFirst fun membership => ?_
  cases membership with
  | none => exact .pure
  | some membership => exact .bind .findFirst fun _ => .bind .findMany fun _ => .bind .findMany fun _ => .pure

private theorem canActivate_reading {guards : List Guard} :
    (canActivate idOf incoming requirement request guards).Reading := by
  induction guards generalizing request with
  | nil => exact .pure
  | cons guard rest ih =>
    refine .bind ?_ fun _ => ih
    cases guard with
    | jwtAuth => exact jwtAuth_reading
    | tenantResolution =>
      exact .bind jwtAuth_reading fun _ => .bind .orThrow fun _ => .bind .orThrow fun _ =>
        .bind resolveTenant_reading fun _ => .bind .orThrow fun _ => .pure
    | permissions =>
      change (permissions requirement request).Reading
      unfold permissions
      split
      next => exact .pure
      next =>
        split
        next => exact .pure
        next => exact .bind .orThrow fun _ => .bind .orThrow fun _ => .bind loadSnapshot_reading fun _ =>
            .bind .throwIf fun _ => .pure

variable {ι : Type} [DecidableEq ι] {permitted : AccessState ι → Action access ι → Prop} {database : Database access}
  {handlers : ι → Handler} {requests : ι → Incoming} {state : AccessState ι}

/-- Whatever others do meanwhile, the guards decide by rows that they have read: each
answer has a reason in states of the run. So nobody is admitted in a run in which the
user, the membership or the tenant is never active, and everybody who is entitled in all
of its states is. -/
theorem requests_guarded (reached : State.Reaches permitted (accessSystem idOf database handlers requests) state)
    (throughout : ∀ state action, permitted state action → holds state.world.database)
    (unique : ∀ db, holds db → Database.Unique (S := access) .membership db) {i : ι}
    {result : Except (Failure HttpException) TenantScopedRequest} (chain : (handlers i).guards ∈ TENANT_GUARDS)
    (ended : (state.threads i).program = .done result) :
    (Spared result → Decided holds idOf (handlers i).requirement (requests i) result) ∧
    (∀ userId text, (requests i).token = some userId → (requests i).tenantHeader.tenant = some text →
      (∀ db, holds db → ¬ UserActive db userId) ∨ (∀ db, holds db → ¬ MemberActive db userId (idOf text)) ∨
        (∀ db, holds db → ¬ TenantActive db (idOf text)) → ∀ request, result ≠ .ok request) ∧
    (∀ userId text standing catalog roleId, (requests i).token = some userId → (requests i).tenantHeader.tenant = some text →
      (∀ db, holds db → Entitled standing catalog userId (idOf text) roleId db) →
      (∀ required, (handlers i).requirement = some required → satisfies standing.snapshot required = true) → Spared result →
      ∃ tenant, tenant.id = idOf text ∧ result = .ok ⟨some userId, some tenant⟩) := by
  have decided (spared : Spared result) : Decided holds idOf (handlers i).requirement (requests i) result :=
    admit_observed chain unique (State.Reaches.observes reached throughout canActivate_reading rfl ended) spared
  refine ⟨decided, ?_, ?_⟩
  · rintro userId text token named never request rfl
    cases decided nofun with
    | admitted user other tenant signed sent same active member running =>
      cases token.symm.trans signed
      cases named.symm.trans sent
      rcases never with never | never | never
      · obtain ⟨db, held, holding⟩ := active
        exact never db held holding
      · obtain ⟨db, held, holding⟩ := member
        exact never db held holding
      · obtain ⟨db, held, holding⟩ := running
        exact never db held holding
  · intro userId text standing catalog roleId token named entitled enough spared
    cases decided spared with
    | unauthenticated unsigned => cases unsigned.symm.trans token
    | inactiveUser other signed db held inactive =>
      cases token.symm.trans signed
      exact absurd (entitled db held).user inactive
    | unnamed missing => cases missing.symm.trans named
    | denied user other signed sent db held inactive =>
      cases token.symm.trans signed
      cases named.symm.trans sent
      obtain ⟨membership, member, active, _⟩ := (entitled db held).member
      rcases inactive with inactive | inactive
      · exact absurd ⟨membership, member, active⟩ inactive
      · exact absurd (entitled db held).tenant inactive
    | vanished other sent db held missing =>
      cases named.symm.trans sent
      exact absurd (entitled db held).tenant missing
    | insufficient user other signed sent required demanded snapshot loaded lacking =>
      cases token.symm.trans signed
      cases named.symm.trans sent
      cases (Loaded.entitled unique entitled loaded (enough required demanded)).symm.trans lacking
    | admitted user other tenant signed sent same =>
      cases token.symm.trans signed
      cases named.symm.trans sent
      exact ⟨tenant, same, rfl⟩

/-- Two members of a tenant; the second one is suspended. -/
def demoAccess : Database access := ⟨fun
  | .user => ⟨[⟨7, .active⟩, ⟨8, .suspended⟩], by decide⟩
  | .tenant => ⟨[⟨0, .active⟩], by simp⟩
  | .membership => ⟨[⟨20, 0, 7, 9, .active, 0⟩, ⟨21, 0, 8, 9, .active, 0⟩], by decide⟩
  | .role => ⟨[⟨9, 0, "clerk", "Clerk", none, false, 0⟩], by simp⟩
  | .permission => ⟨[⟨"p", "store:read", "Read stores"⟩], by simp⟩
  | .rolePermission => ⟨[⟨9, "p"⟩], by simp⟩⟩

def readStores (_ : Fin 2) : Handler := ⟨[.tenantResolution, .permissions], some ⟨.all, ["store:read"]⟩⟩

def demoRequests (i : Fin 2) : Incoming := ⟨some (if i = 0 then 7 else 8), .single " zero "⟩

/-- The memberships stay, and so does the suspension of the second user. -/
def suspendedSecond (db : Database access) : Bool :=
  (db.table .membership).rows = (demoAccess.table .membership).rows && db.get .user 8 = some ⟨8, .suspended⟩

/-- The first user is suspended once it has been authenticated, and is still admitted; the
second one is refused. -/
theorem requests_guarded_suspended : ∃ state : AccessState (Fin 2),
    State.Reaches (fun state _ => suspendedSecond state.world.database = true)
      (accessSystem (fun _ => 0) demoAccess readStores demoRequests) state ∧
    ¬ UserActive state.world.database 7 ∧
    (state.threads 0).program = .done (.ok ⟨some 7, some ⟨0, .active⟩⟩) ∧
    Decided (fun db => suspendedSecond db = true) (fun _ => 0) (readStores 0).requirement (demoRequests 0)
      (.ok ⟨some 7, some ⟨0, .active⟩⟩) ∧
    ∃ result, (state.threads 1).program = .done result ∧ ∀ request, result ≠ .ok request := by
  have executed : ((accessSystem (fun _ => 0) demoAccess readStores demoRequests).runAmong suspendedSecond
      ([.run 0 [], .external [.put .user ⟨7, .suspended⟩]] ++ List.replicate 6 (.run 0 []) ++ [.run 1 []])).any (fun state =>
        state.world.database.get .user 7 = some ⟨7, .suspended⟩ &&
          state.answer 0 = some (.ok ⟨some 7, some ⟨0, .active⟩⟩) &&
          state.answer 1 = some (.error (.thrown (.unauthorized INVALID_TOKEN_ERROR)))) = true := by decide +kernel
  obtain ⟨state, reached, seen⟩ := State.Reaches.among executed
  simp only [Bool.and_eq_true, decide_eq_true_eq] at seen
  obtain ⟨⟨suspended, first⟩, second⟩ := seen
  have unique (db : Database access) (held : suspendedSecond db = true) : Database.Unique (S := access) .membership db := by
    simp only [suspendedSecond, Bool.and_eq_true, decide_eq_true_eq] at held
    simp only [Database.Unique, held.1]
    decide
  have never (db : Database access) (held : suspendedSecond db = true) : ¬ UserActive db 8 := by
    simp only [suspendedSecond, Bool.and_eq_true, decide_eq_true_eq] at held
    rintro ⟨user, member, named, active⟩
    cases (Table.find_eq_some.mpr ⟨member, named⟩).symm.trans held.2
    cases active
  refine ⟨state, reached, ?_, State.answer_some first, ?_, _, State.answer_some second, ?_⟩
  · rintro ⟨user, member, named, active⟩
    cases (Table.find_eq_some.mpr ⟨member, named⟩).symm.trans suspended
    cases active
  · exact (requests_guarded reached (fun _ _ => id) unique (i := 0) (by decide) (State.answer_some first)).1 nofun
  · exact (requests_guarded reached (fun _ _ => id) unique (i := 1) (by decide) (State.answer_some second)).2.1 8 "zero" rfl
      (by decide) (.inl never)

end BusinessPlatform.Guards
