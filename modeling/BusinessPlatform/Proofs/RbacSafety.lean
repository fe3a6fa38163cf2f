import BusinessPlatform.MemberService
import BusinessPlatform.Engine.Reading

/-! What each operation on members, roles and permissions may commit, stated over the
rows that the call has seen. All invariants are derived from that. -/

namespace BusinessPlatform.Rbac
open Engine RoleService MemberService
open PermissionService (PermissionSnapshot OWNER satisfies INSUFFICIENT_PERMISSIONS)

abbrev RbacWrites : Type := List (Write rbac)

/-- Some rows of each table: those that are stored, or those that a call has seen. -/
abbrev Rows : Type := (m : RbacModel) → RbacModel.Row m → Prop

def stored (db : RbacDb) : Rows := fun m row => row ∈ (db.table m).rows

/-- A membership has the owner role of its tenant. -/
def HasOwnerRole (rows : Rows) (membership : Membership) : Prop :=
  ∃ role, rows .role role ∧ role.id = membership.roleId ∧ role.tenantId = membership.tenantId ∧ role.key = OWNER

structure ActiveOwner (rows : Rows) (tenantId : Id) (membership : Membership) : Prop where
  tenant : membership.tenantId = tenantId
  active : membership.status = .active
  role : HasOwnerRole rows membership

/-- The user is an active owner of the tenant. -/
def Owns (rows : Rows) (tenantId userId : Id) : Prop :=
  ∃ membership, rows .membership membership ∧ membership.userId = userId ∧ ActiveOwner rows tenantId membership

def RoleHolds (rows : Rows) (roleId : Id) (key : String) : Prop :=
  ∃ grant permission, rows .rolePermission grant ∧ rows .permission permission ∧ grant.roleId = roleId ∧
    permission.id = grant.permissionId ∧ permission.key = key

/-- The user's ACTIVE membership has a role with the permission. -/
def Holds (rows : Rows) (tenantId userId : Id) (key : String) : Prop :=
  ∃ membership, rows .membership membership ∧ membership.userId = userId ∧ membership.tenantId = tenantId ∧
    membership.status = .active ∧ RoleHolds rows membership.roleId key

/-- What the loaded permissions of a user say. -/
structure Loaded (rows : Rows) (tenantId userId : Id) (snapshot : PermissionSnapshot) : Prop where
  owner : snapshot.isOwner = true → Owns rows tenantId userId
  keys : ∀ key ∈ snapshot.keys, Holds rows tenantId userId key

/-- Rows that can be searched. -/
class Searchable (rows : Rows) where
  search : ∀ (m : RbacModel) (p : RbacModel.Row m → Prop) [DecidablePred p], Decidable (∃ row, rows m row ∧ p row)

section Searchable
variable {rows : Rows} [Searchable rows] {tenantId userId roleId : Id} {key : String} {membership : Membership}

instance : Decidable (HasOwnerRole rows membership) :=
  Searchable.search .role fun role => role.id = membership.roleId ∧ role.tenantId = membership.tenantId ∧ role.key = OWNER

instance : Decidable (ActiveOwner rows tenantId membership) :=
  decidable_of_iff (membership.tenantId = tenantId ∧ membership.status = .active ∧ HasOwnerRole rows membership)
    ⟨fun ⟨tenant, active, role⟩ => ⟨tenant, active, role⟩, fun ⟨tenant, active, role⟩ => ⟨tenant, active, role⟩⟩

instance : Decidable (Owns rows tenantId userId) :=
  Searchable.search .membership fun membership => membership.userId = userId ∧ ActiveOwner rows tenantId membership

/-- The grant gives the role the permission. -/
def Gives (rows : Rows) (roleId : Id) (key : String) (grant : RolePermission) : Prop :=
  ∃ permission, rows .permission permission ∧ grant.roleId = roleId ∧ permission.id = grant.permissionId ∧ permission.key = key

instance : DecidablePred (Gives rows roleId key) := fun grant =>
  Searchable.search .permission fun permission => grant.roleId = roleId ∧ permission.id = grant.permissionId ∧
    permission.key = key

instance : Decidable (RoleHolds rows roleId key) :=
  have _ : Decidable (∃ grant, rows .rolePermission grant ∧ Gives rows roleId key grant) := Searchable.search _ _
  decidable_of_iff (∃ grant, rows .rolePermission grant ∧ Gives rows roleId key grant)
    ⟨fun ⟨grant, granted, permission, listed, named⟩ => ⟨grant, permission, granted, listed, named⟩,
      fun ⟨grant, permission, granted, listed, named⟩ => ⟨grant, granted, permission, listed, named⟩⟩

instance : Decidable (Holds rows tenantId userId key) :=
  Searchable.search .membership fun membership => membership.userId = userId ∧ membership.tenantId = tenantId ∧
    membership.status = .active ∧ RoleHolds rows membership.roleId key

end Searchable

instance {db : RbacDb} : Searchable (stored db) where
  search m p _ := inferInstanceAs (Decidable (∃ row ∈ (db.table m).rows, p row))

instance {ι : Type} [DecidableEq ι] {i : ι} {trace : List (Event rbac ι)} : Searchable (Seen i trace) where
  search m p _ := decidable_of_iff (∃ event ∈ trace, event.author = some i ∧ ∃ row ∈ (event.before.table m).rows, p row)
    ⟨fun ⟨event, member, author, row, there, holds⟩ => ⟨row, ⟨event, member, author, there⟩, holds⟩,
      fun ⟨row, ⟨event, member, author, there⟩, holds⟩ => ⟨event, member, author, row, there, holds⟩⟩

def Within (rows more : Rows) : Prop := ∀ m row, rows m row → more m row

section Within
variable {rows more : Rows} {tenantId userId roleId : Id} {key : String} {membership : Membership} {snapshot : PermissionSnapshot}
  (within : Within rows more)
include within

theorem HasOwnerRole.mono (owner : HasOwnerRole rows membership) : HasOwnerRole more membership := by
  obtain ⟨role, found, named⟩ := owner
  exact ⟨role, within _ _ found, named⟩

theorem ActiveOwner.mono (owner : ActiveOwner rows tenantId membership) : ActiveOwner more tenantId membership :=
  ⟨owner.tenant, owner.active, owner.role.mono within⟩

theorem Owns.mono (owns : Owns rows tenantId userId) : Owns more tenantId userId := by
  obtain ⟨membership, found, user, owner⟩ := owns
  exact ⟨membership, within _ _ found, user, owner.mono within⟩

theorem RoleHolds.mono (holds : RoleHolds rows roleId key) : RoleHolds more roleId key := by
  obtain ⟨grant, permission, granted, listed, named⟩ := holds
  exact ⟨grant, permission, within _ _ granted, within _ _ listed, named⟩

theorem Holds.mono (holds : Holds rows tenantId userId key) : Holds more tenantId userId key := by
  obtain ⟨membership, found, user, tenant, active, role⟩ := holds
  exact ⟨membership, within _ _ found, user, tenant, active, role.mono within⟩

theorem Loaded.mono (loaded : Loaded rows tenantId userId snapshot) : Loaded more tenantId userId snapshot :=
  ⟨fun owner => (loaded.owner owner).mono within, fun key listed => (loaded.keys key listed).mono within⟩

end Within

/-- Catalog entries that the actor may grant. -/
def Bounded (rows : Rows) (tenantId actorUserId : Id) (permissions : List Permission) : Prop :=
  ∀ permission ∈ permissions, rows .permission permission ∧
    (Owns rows tenantId actorUserId ∨ Holds rows tenantId actorUserId permission.key)

def grants (roleId : Id) (permissions : List Permission) : RbacWrites :=
  permissions.map fun permission => .put .rolePermission ⟨roleId, permission.id⟩

def signups (users : List User) : RbacWrites := users.map fun user => .put .user user

def revocations (grants : List RolePermission) : RbacWrites :=
  grants.map fun grant => .erase .rolePermission (grant.roleId, grant.permissionId)

/-- A role of the tenant that is no system role. -/
def Custom (rows : Rows) (tenantId roleId : Id) : Prop :=
  ∃ role, rows .role role ∧ role.id = roleId ∧ role.tenantId = tenantId ∧ role.isSystem = false

/-- A role that the actor may give to a member: the owner role only as an owner. -/
structure Assignable (rows : Rows) (tenantId actorUserId : Id) (role : Role) : Prop where
  found : rows .role role
  tenant : role.tenantId = tenantId
  owner : role.key = OWNER → Owns rows tenantId actorUserId

/-- A membership of somebody else. -/
def Foreign (rows : Rows) (tenantId actorUserId membershipId : Id) : Prop :=
  ∃ membership, rows .membership membership ∧ membership.id = membershipId ∧ membership.tenantId = tenantId ∧
    membership.userId ≠ actorUserId

/-- The role that a new member is given. -/
def Chosen (dto : CreateMemberDto) (role : Role) : Prop :=
  match dto.roleId with
  | some roleId => role.id = roleId
  | none => role.key = EMPLOYEE ∧ role.isSystem = true

section Within
variable {rows more : Rows} {tenantId actorUserId : Id} (within : Within rows more)
include within

theorem Bounded.mono {permissions : List Permission} (bounded : Bounded rows tenantId actorUserId permissions) :
    Bounded more tenantId actorUserId permissions := fun permission inside =>
  (bounded permission inside).imp (within _ _) (Or.imp (Owns.mono within) (Holds.mono within))

theorem Custom.mono {roleId : Id} (custom : Custom rows tenantId roleId) : Custom more tenantId roleId := by
  obtain ⟨role, found, named⟩ := custom
  exact ⟨role, within _ _ found, named⟩

theorem Assignable.mono {role : Role} (assignable : Assignable rows tenantId actorUserId role) :
    Assignable more tenantId actorUserId role :=
  ⟨within _ _ assignable.found, assignable.tenant, fun owner => (assignable.owner owner).mono within⟩

theorem Foreign.mono {membershipId : Id} (other : Foreign rows tenantId actorUserId membershipId) :
    Foreign more tenantId actorUserId membershipId := by
  obtain ⟨membership, found, named⟩ := other
  exact ⟨membership, within _ _ found, named⟩

end Within

variable {ι : Type}

theorem seen_within {rely : Guarantee rbac ι} {i : ι} {before after : RbacWorld ι} (idle : Idle rely i before after) :
    Within (Seen i before.trace) (Seen i after.trace) := fun _ _ seen => Seen.idle seen idle

/-- The call has not locked the owners. -/
def Unlocked (i : ι) (trace : List (Event rbac ι)) : Prop :=
  ∀ event ∈ trace, event.author = some i → event.access ≠ some (.membership, .lock)

/-- Two of the stored members are active owners, by a role that was seen. -/
def Guarded (rows : Rows) (db : RbacDb) (tenantId : Id) : Prop :=
  ∃ first second, first.id ≠ second.id ∧ ∀ owner, owner = first ∨ owner = second →
    db.get .membership owner.id = some owner ∧ owner.tenantId = tenantId ∧ owner.status = .active ∧
      ∃ role, rows .role role ∧ role.id = owner.roleId ∧ role.tenantId = tenantId ∧ role.key = OWNER

/-- Everything that one operation may commit, given the rows that it has seen and those
that are stored. -/
inductive Effect (rows : Rows) (db : RbacDb) (unlocked : Prop) (tenantId actorUserId : Id) : RbacOperation → RbacWrites → Prop where
  | createRole {dto : CreateRoleDto} {permissions : List Permission} (id now : Nat)
      (unreserved : dto.key ∉ SYSTEM_ROLE_KEYS) (fresh : db.get .role id = none)
      (bounded : Bounded rows tenantId actorUserId permissions) :
      Effect rows db unlocked tenantId actorUserId (.createRole dto)
        (.put .role (customRole tenantId dto id now) :: grants id permissions)
  | updateRole {roleId : Id} {dto : UpdateRoleDto} {role row : Role} (custom : Custom rows tenantId roleId)
      (found : db.get .role roleId = some row) :
      Effect rows db unlocked tenantId actorUserId (.updateRole roleId dto) [.put .role ((RoleService.patch dto role).apply row)]
  | deleteRole {roleId : Id} {row : Role} (custom : Custom rows tenantId roleId)
      (found : db.get .role roleId = some row) :
      Effect rows db unlocked tenantId actorUserId (.deleteRole roleId) (erases (S := rbac) (m := .role) db row)
  | assignPermissions {roleId : Id} {dto : AssignRolePermissionsDto} {old : List RolePermission} {permissions : List Permission}
      (custom : Custom rows tenantId roleId) (granted : ∀ grant ∈ old, grant.roleId = roleId)
      (bounded : Bounded rows tenantId actorUserId permissions) (changed : revocations old ++ grants roleId permissions ≠ []) :
      Effect rows db unlocked tenantId actorUserId (.assignPermissions roleId dto) (revocations old ++ grants roleId permissions)
  | assignRole {dto : AssignRoleToMembershipDto} {role : Role} {row : Membership}
      (assignable : Assignable rows tenantId actorUserId role) (requested : role.id = dto.roleId)
      (target : dto.membershipId = some row.id) (tenant : row.tenantId = tenantId)
      (other : Foreign rows tenantId actorUserId row.id)
      (found : db.get .membership row.id = some row)
      (secured : unlocked ∨ Guarded rows db tenantId) :
      Effect rows db unlocked tenantId actorUserId (.assignRoleToMembership dto) [.put .membership ((setRole role.id).apply row)]
  | updateStatus {membershipId : Id} {dto : UpdateMemberStatusDto} {row : Membership} (target : row.id = membershipId)
      (tenant : row.tenantId = tenantId) (other : Foreign rows tenantId actorUserId row.id)
      (found : db.get .membership row.id = some row)
      (secured : unlocked ∨ Guarded rows db tenantId) :
      Effect rows db unlocked tenantId actorUserId (.updateMemberStatus membershipId dto)
        [.put .membership ((setStatus dto.status).apply row)]
  | createMember {dto : CreateMemberDto} {role : Role} {users : List User} (userId id now : Nat)
      (assignable : Assignable rows tenantId actorUserId role) (chosen : Chosen dto role)
      (other : userId ≠ actorUserId) (fresh : db.get .membership id = none) :
      Effect rows db unlocked tenantId actorUserId (.createMember dto)
        (signups users ++ [.put .membership (newMembership tenantId userId role.id id now)])

theorem Effect.mono {rows more : Rows} {db : RbacDb} {unlocked : Prop} {tenantId actorUserId : Id} {operation : RbacOperation}
    {writes : RbacWrites} (within : Within rows more) (effect : Effect rows db unlocked tenantId actorUserId operation writes) :
    Effect more db unlocked tenantId actorUserId operation writes := by
  have guarded (secured : unlocked ∨ Guarded rows db tenantId) : unlocked ∨ Guarded more db tenantId := by
    refine secured.imp id ?_
    intro ⟨first, second, distinct, owners⟩
    refine ⟨first, second, distinct, fun owner either => ?_⟩
    obtain ⟨found, tenant, active, role, seen, named⟩ := owners owner either
    exact ⟨found, tenant, active, role, within _ _ seen, named⟩
  cases effect with
  | createRole id now unreserved fresh bounded => exact .createRole id now unreserved fresh (bounded.mono within)
  | updateRole custom found => exact .updateRole (custom.mono within) found
  | deleteRole custom found => exact .deleteRole (custom.mono within) found
  | assignPermissions custom granted bounded changed =>
    exact .assignPermissions (custom.mono within) granted (bounded.mono within) changed
  | assignRole assignable requested target tenant other found secured =>
    exact .assignRole (assignable.mono within) requested target tenant (other.mono within) found (guarded secured)
  | updateStatus target tenant other found secured =>
    exact .updateStatus target tenant (other.mono within) found (guarded secured)
  | createMember userId id now assignable chosen other fresh =>
    exact .createMember userId id now (assignable.mono within) chosen other fresh

/-- A single write of an effect. -/
inductive Written (rows : Rows) (db : RbacDb) (tenantId actorUserId : Id) : RbacOperation → Write rbac → Prop where
  | newRole {dto : CreateRoleDto} (id now : Nat) (unreserved : dto.key ∉ SYSTEM_ROLE_KEYS) (fresh : db.get .role id = none) :
      Written rows db tenantId actorUserId (.createRole dto) (.put .role (customRole tenantId dto id now))
  | patchedRole {roleId : Id} {dto : UpdateRoleDto} {role row : Role} (custom : Custom rows tenantId row.id)
      (found : db.get .role row.id = some row) :
      Written rows db tenantId actorUserId (.updateRole roleId dto) (.put .role ((RoleService.patch dto role).apply row))
  | erasedRole {operation : RbacOperation} {roleId : Id} (custom : Custom rows tenantId roleId) :
      Written rows db tenantId actorUserId operation (.erase .role roleId)
  | granted {operation : RbacOperation} {roleId : Id} {permission : Permission}
      (free : db.get .role roleId = none ∨ Custom rows tenantId roleId) (listed : rows .permission permission)
      (held : Owns rows tenantId actorUserId ∨ Holds rows tenantId actorUserId permission.key) :
      Written rows db tenantId actorUserId operation (.put .rolePermission ⟨roleId, permission.id⟩)
  | revoked {operation : RbacOperation} {roleId : Id} {permissionId : String} (custom : Custom rows tenantId roleId) :
      Written rows db tenantId actorUserId operation (.erase .rolePermission (roleId, permissionId))
  | newUser {operation : RbacOperation} (user : User) : Written rows db tenantId actorUserId operation (.put .user user)
  | newMember {dto : CreateMemberDto} {role : Role} {userId id now : Nat}
      (assignable : Assignable rows tenantId actorUserId role) (other : userId ≠ actorUserId)
      (fresh : db.get .membership id = none) :
      Written rows db tenantId actorUserId (.createMember dto) (.put .membership (newMembership tenantId userId role.id id now))
  | givenRole {dto : AssignRoleToMembershipDto} {role : Role} {row : Membership}
      (assignable : Assignable rows tenantId actorUserId role) (tenant : row.tenantId = tenantId)
      (other : Foreign rows tenantId actorUserId row.id) (found : db.get .membership row.id = some row) :
      Written rows db tenantId actorUserId (.assignRoleToMembership dto) (.put .membership ((setRole role.id).apply row))
  | givenStatus {membershipId : Id} {dto : UpdateMemberStatusDto} {row : Membership}
      (other : Foreign rows tenantId actorUserId row.id) (found : db.get .membership row.id = some row) :
      Written rows db tenantId actorUserId (.updateMemberStatus membershipId dto)
        (.put .membership ((setStatus dto.status).apply row))

theorem Effect.written {rows : Rows} {db : RbacDb} {unlocked : Prop} {tenantId actorUserId : Id} {operation : RbacOperation}
    {writes : RbacWrites} (effect : Effect rows db unlocked tenantId actorUserId operation writes) {write : Write rbac}
    (member : write ∈ writes) : Written rows db tenantId actorUserId operation write := by
  have granted {roleId : Id} {permissions : List Permission} (free : db.get .role roleId = none ∨ Custom rows tenantId roleId)
      (bounded : Bounded rows tenantId actorUserId permissions) (inside : write ∈ grants roleId permissions) :
      Written rows db tenantId actorUserId operation write := by
    obtain ⟨permission, listed, rfl⟩ := List.mem_map.mp inside
    exact .granted free (bounded permission listed).1 (bounded permission listed).2
  cases effect with
  | createRole id now unreserved fresh bounded =>
    rcases List.mem_cons.mp member with rfl | inside
    · exact .newRole id now unreserved fresh
    · exact granted (.inl fresh) bounded inside
  | @updateRole _ _ _ row custom found =>
    have key : row.id = _ := (Table.find_eq_some.mp found).2
    cases List.mem_singleton.mp member
    exact .patchedRole (key ▸ custom) (key ▸ found)
  | @deleteRole _ row custom found =>
    have key : row.id = _ := (Table.find_eq_some.mp found).2
    have custom : Custom rows tenantId row.id := key ▸ custom
    rcases List.mem_cons.mp member with rfl | inside
    · exact .erasedRole custom
    · obtain ⟨child, cascaded, inside⟩ := List.mem_flatMap.mp inside
      cases List.mem_singleton.mp cascaded
      obtain ⟨grant, listed, rfl⟩ := List.mem_map.mp inside
      have same : grant.roleId = row.id := of_decide_eq_true (List.mem_filter.mp listed).2
      exact .revoked (same ▸ custom)
  | assignPermissions custom old bounded =>
    rcases List.mem_append.mp member with inside | inside
    · obtain ⟨grant, listed, rfl⟩ := List.mem_map.mp inside
      exact .revoked (old grant listed ▸ custom)
    · exact granted (.inr custom) bounded inside
  | assignRole assignable requested target tenant other found secured =>
    cases List.mem_singleton.mp member
    exact .givenRole assignable tenant other found
  | updateStatus target tenant other found secured =>
    cases List.mem_singleton.mp member
    exact .givenStatus other found
  | createMember userId id now assignable chosen other fresh =>
    rcases List.mem_append.mp member with inside | inside
    · obtain ⟨user, _, rfl⟩ := List.mem_map.mp inside
      exact .newUser user
    · cases List.mem_singleton.mp inside
      exact .newMember assignable other fresh

variable [DecidableEq ι]

/-- A call commits once. -/
def RbacCommits (i : ι) (call : RbacCall) : Commits rbac ι := fun world writes =>
  world.own i = [] ∧
    Effect (Seen i world.trace) world.database (Unlocked i world.trace) call.tenantId call.actorUserId call.operation writes

variable {rely : Guarantee rbac ι} {i : ι} {α β : Type} {commits : Commits rbac ι} {post : Post rbac HttpException α ι}
  {start world after : RbacWorld ι} {tenantId userId actorUserId roleId membershipId : Id} {call : RbacCall} {rows more : Rows}

omit [DecidableEq ι] in
private theorem snapshot_loaded {membership : Membership} {role : Option Role} {given : List RolePermission}
    {permissions : List Permission} (member : rows .membership membership) (user : membership.userId = userId)
    (tenant : membership.tenantId = tenantId)
    (roles : ∀ found, role = some found → rows .role found ∧ found.id = membership.roleId ∧ found.tenantId = membership.tenantId)
    (granted : ∀ grant ∈ given, rows .rolePermission grant ∧ grant.roleId = membership.roleId)
    (catalog : ∀ permission ∈ permissions, rows .permission permission) :
    Loaded rows tenantId userId (snapshotOf membership role given permissions) := by
  rw [snapshotOf]
  split
  next => exact ⟨nofun, nofun⟩
  next active =>
    have status : membership.status = .active := not_not.mp active
    split
    next owner =>
      obtain ⟨found, same, key⟩ := Option.map_eq_some_iff.mp owner
      obtain ⟨seen, id, place⟩ := roles found same
      exact ⟨fun _ => ⟨membership, member, user, tenant, status, found, seen, id, place, key⟩, nofun⟩
    next =>
      refine ⟨nofun, fun key listed => ?_⟩
      obtain ⟨grant, inside, entry⟩ := List.mem_filterMap.mp listed
      obtain ⟨permission, found, same⟩ := Option.map_eq_some_iff.mp entry
      obtain ⟨seen, role⟩ := granted grant inside
      refine ⟨membership, member, user, tenant, status, grant, permission, seen, ?_, role, ?_, same⟩
      · exact catalog permission (List.mem_of_find?_eq_some found)
      · simpa using List.find?_some found

omit [DecidableEq ι] in
theorem loadSnapshot_safe {next : PermissionSnapshot → Program rbac HttpException α} (tolerant : Tolerant post)
    (resume : ∀ after snapshot, Reads rely i [] world after → Loaded (Seen i after.trace) tenantId userId snapshot →
      Safe commits rely i post (next snapshot) none after) :
    Safe commits rely i post (loadSnapshot tenantId userId >>= next) none world := by
  rw [loadSnapshot, bind_assoc]
  refine Safe.findFirst tolerant.fails fun w₁ members l₁ listed _ => ?_
  have r₁ := Reads.scan l₁ RbacModel.membership members false
  cases head : members.head? with
  | none => exact resume _ _ r₁ ⟨nofun, nofun⟩
  | some membership =>
    obtain ⟨member, matched⟩ := Seen.listed (i := i) listed (List.mem_of_mem_head? head)
    simp only [Bool.and_eq_true, decide_eq_true_eq] at matched
    simp only [roleOf, grantsOf, bind_assoc]
    refine Safe.findFirst tolerant.fails fun w₂ roles l₂ listed₂ _ => ?_
    refine Safe.findMany tolerant.fails fun w₃ given l₃ listed₃ _ => ?_
    refine Safe.findMany tolerant.fails fun w₄ permissions l₄ listed₄ _ => ?_
    have r₂ := Reads.scan l₂ RbacModel.role roles false
    have r₃ := Reads.scan l₃ RbacModel.rolePermission given false
    have r₄ := Reads.scan l₄ RbacModel.permission permissions false
    refine resume _ _ (((r₁.trans r₂).trans r₃).trans r₄) ?_
    refine snapshot_loaded (member.idle (((Reads.idle r₂).trans (Reads.idle r₃)).trans (Reads.idle r₄))) matched.1 matched.2 ?_ ?_ ?_
    · intro found same
      obtain ⟨seen, named⟩ := Seen.listed (i := i) listed₂ (List.mem_of_mem_head? same)
      simp only [Bool.and_eq_true, decide_eq_true_eq] at named
      exact ⟨seen.idle ((Reads.idle r₃).trans (Reads.idle r₄)), named⟩
    · intro grant inside
      obtain ⟨seen, granted⟩ := Seen.listed (i := i) listed₃ inside
      exact ⟨seen.idle (Reads.idle r₄), of_decide_eq_true granted⟩
    · intro permission inside
      exact (Seen.listed (i := i) listed₄ inside).1

omit [DecidableEq ι] in
theorem assertPermissions_safe {requirement : PermissionService.PermissionRequirement}
    {next : PermissionSnapshot → Program rbac HttpException α} (tolerant : Tolerant post)
    (resume : ∀ after snapshot, Reads rely i [] world after → Loaded (Seen i after.trace) tenantId userId snapshot →
      Safe commits rely i post (next snapshot) none after) :
    Safe commits rely i post (assertPermissions tenantId userId requirement >>= next) none world := by
  rw [assertPermissions, bind_assoc]
  refine loadSnapshot_safe tolerant fun after snapshot reads loaded => ?_
  rw [bind_assoc]
  exact Safe.throwIf tolerant.fails trivial fun _ => resume after snapshot reads loaded

omit [DecidableEq ι] in
theorem existingRole_safe {next : Role → Program rbac HttpException α} (tolerant : Tolerant post)
    (resume : ∀ after role, Reads rely i [] world after → Seen i after.trace RbacModel.role role → role.id = roleId →
      role.tenantId = tenantId → Safe commits rely i post (next role) none after) :
    Safe commits rely i post (existingRole tenantId roleId >>= next) none world := by
  rw [existingRole, findRole]
  simp only [bind_assoc]
  refine Safe.findFirst tolerant.fails fun w₁ roles l₁ listed _ => ?_
  have r₁ := Reads.scan l₁ RbacModel.role roles false
  cases head : roles.head? with
  | none => exact Safe.throw tolerant.fails trivial
  | some role =>
    obtain ⟨seen, matched⟩ := Seen.listed (i := i) listed (List.mem_of_mem_head? head)
    simp only [named, Bool.and_eq_true, decide_eq_true_eq] at matched
    simp only [grantsOf, bind_assoc]
    refine Safe.findMany tolerant.fails fun w₂ given l₂ _ _ => ?_
    refine Safe.findMany tolerant.fails fun w₃ permissions l₃ _ _ => ?_
    have r₂ := Reads.scan l₂ RbacModel.rolePermission given false
    have r₃ := Reads.scan l₃ RbacModel.permission permissions false
    exact resume _ role ((r₁.trans r₂).trans r₃) (seen.idle ((Reads.idle r₂).trans (Reads.idle r₃))) matched.1 matched.2

omit [DecidableEq ι] in
theorem resolvePermissions_safe {permissionIds : List String} {next : List Permission → Program rbac HttpException α}
    (tolerant : Tolerant post)
    (resume : ∀ after permissions, Reads rely i [] world after →
      (∀ permission ∈ permissions, Seen i after.trace RbacModel.permission permission) →
      Safe commits rely i post (next permissions) none after) :
    Safe commits rely i post (resolvePermissions permissionIds >>= next) none world := by
  simp only [resolvePermissions, bind_assoc]
  refine Safe.throwIf tolerant.fails trivial fun _ => Safe.throwIf tolerant.fails trivial fun _ => ?_
  refine Safe.throwIf tolerant.fails trivial fun _ => ?_
  refine Safe.findMany tolerant.fails fun w₁ permissions l₁ listed _ => ?_
  refine Safe.throwIf tolerant.fails trivial fun _ => ?_
  exact resume _ permissions (.scan l₁ ..) fun permission inside => (Seen.listed (i := i) listed inside).1

omit [DecidableEq ι] in
private theorem createGrants_safe {permissions : List Permission} {next : Unit → Program rbac HttpException α}
    {first : RbacWorld ι} {pins : List (Pin rbac)} {transaction : Transaction rbac} (tolerant : Tolerant post)
    (held : Held rely first pins world transaction)
    (resume : ∀ after larger, Idle rely i world after → Held rely first pins after larger →
      larger.writes = transaction.writes ++ grants roleId permissions →
      Safe commits rely i post (next ()) (some larger) after) :
    Safe commits rely i post (createGrants roleId permissions >>= next) (some transaction) world := by
  induction permissions generalizing world transaction with
  | nil => exact resume world transaction .refl held (by simp [grants])
  | cons permission permissions ih =>
    rw [createGrants, bind_assoc]
    refine Safe.createInside tolerant.fails fun w₁ l₁ row built _ _ => ?_
    subst built
    refine ih (held.move l₁ _ fun _ => List.mem_append_left _) fun after larger idle held written => ?_
    refine resume after larger ((Idle.record (Later.idle l₁) _).trans idle) held ?_
    rw [written, List.append_assoc]
    rfl

/-- A call that has only read so far. -/
structure Begun (rely : Guarantee rbac ι) (i : ι) (start world : RbacWorld ι) : Prop where
  new : ∀ event ∈ start.trace, event.author ≠ some i
  reads : Reads rely i [] start world

omit [DecidableEq ι] in
theorem Begun.later (begun : Begun rely i start world) (reads : Reads rely i [] world after) : Begun rely i start after :=
  ⟨begun.new, begun.reads.trans reads⟩

theorem Begun.own (begun : Begun rely i start world) (idle : Idle rely i world after) : after.own i = [] := by
  rw [Idle.own ((Reads.idle begun.reads).trans idle)]
  refine List.map_eq_nil_iff.mpr (List.filter_eq_nil_iff.mpr fun event member => ?_)
  simp [begun.new event member]

omit [DecidableEq ι] in
theorem Begun.unlocked (begun : Begun rely i start world) (later : Later rely i [] world after) : Unlocked i after.trace := by
  intro event member author
  rcases Reads.event (begun.reads.trans (Reads.later later)) member author with before | ⟨m, scanned⟩
  · exact absurd author (begun.new event before)
  · rw [scanned]
    nofun

omit [DecidableEq ι] in
private theorem bounded_of {actor : PermissionSnapshot} {permissions : List Permission} (loaded : Loaded rows tenantId userId actor)
    (catalog : ∀ permission ∈ permissions, rows .permission permission) (held : unheld actor permissions = false) :
    Bounded rows tenantId userId permissions := by
  intro permission inside
  refine ⟨catalog permission inside, ?_⟩
  simp only [unheld, Bool.and_eq_false_iff, Bool.not_eq_false', List.any_eq_false, decide_eq_true_eq, not_not] at held
  rcases held with owner | keys
  · exact .inl (loaded.owner owner)
  · exact .inr (loaded.keys _ (keys permission inside))

abbrev SafeRbac {α : Type} (rely : Guarantee rbac ι) (i : ι) (call : RbacCall) (program : RbacService α) (world : RbacWorld ι) :
    Prop := Safe (RbacCommits i call) rely i Closed program none world

theorem createRole_safe {dto : CreateRoleDto} (new : ∀ event ∈ world.trace, event.author ≠ some i) :
    SafeRbac rely i ⟨tenantId, actorUserId, .createRole dto⟩ (createRole tenantId actorUserId dto) world := by
  have begun : Begun rely i world world := ⟨new, .refl⟩
  simp only [createRole, RoleService.assertManage, assertNotReservedKey, assertBoundedGrants]
  refine assertPermissions_safe Closed.tolerant fun w₁ actor r₁ loaded => ?_
  refine Safe.throwIf Closed.tolerant.fails trivial fun unreserved => Safe.throwIf Closed.tolerant.fails trivial fun _ => ?_
  refine resolvePermissions_safe Closed.tolerant fun w₂ permissions r₂ catalog => ?_
  refine Safe.throwIf Closed.tolerant.fails trivial fun held => ?_
  have bounded := bounded_of (loaded.mono (seen_within (Reads.idle r₂))) catalog held
  refine Safe.andThen (Safe.rethrown rfl ?_ ?_) fun _ _ => Safe.done fun _ _ => rfl
  · intro failure
    split
    next => exact ⟨_, rfl⟩
    next => exact ⟨_, rfl⟩
  refine Safe.transaction Closed.tolerant.fails fun w₃ l₃ _ => ?_
  rw [insertRole]
  refine Safe.createInside Closed.tolerant.body.fails fun w₄ l₄ role built created _ => ?_
  have held := (show Held rely _ [] _ _ from Held.start _).insert l₄ ⟨some i, some (RbacModel.role, .create), [], true⟩ role created.fresh
  refine createGrants_safe Closed.tolerant.body held fun w₅ larger idle₅ held written => ?_
  refine Safe.done fun w₆ l₆ => ⟨larger, rfl, .inr ?_, fun _ _ => rfl⟩
  have idle := (Idle.record (Later.idle l₃) _).trans ((Idle.record (Later.idle l₄) _).trans (idle₅.trans (Later.idle l₆)))
  refine ⟨(begun.later (r₁.trans r₂)).own idle, ?_⟩
  have fresh := ((held.later l₆).pinned ⟨RbacModel.role, role.id, none⟩ (by simp [RbacModel.key])).2
  subst built
  rw [written]
  exact .createRole _ _ (of_decide_eq_false unreserved) fresh (bounded.mono (seen_within idle))

omit [DecidableEq ι] in
private theorem role_found {db : RbacDb} {row : Role} (member : row ∈ (db.table .role).rows)
    (matched : named tenantId roleId row = true) : db.get .role roleId = some row := by
  simp only [named, Bool.and_eq_true, decide_eq_true_eq] at matched
  exact Table.find_eq_some.mpr ⟨member, matched.1⟩

theorem updateRole_safe {dto : UpdateRoleDto} (new : ∀ event ∈ world.trace, event.author ≠ some i) :
    SafeRbac rely i ⟨tenantId, actorUserId, .updateRole roleId dto⟩ (updateRole tenantId actorUserId roleId dto) world := by
  have begun : Begun rely i world world := ⟨new, .refl⟩
  simp only [updateRole, RoleService.assertManage, assertMutable]
  refine assertPermissions_safe Closed.tolerant fun w₁ actor r₁ _ => ?_
  refine existingRole_safe Closed.tolerant fun w₂ role r₂ seen id tenant => ?_
  refine Safe.throwIf Closed.tolerant.fails trivial fun custom => ?_
  refine Safe.update Closed.tolerant.fails fun w₃ l₃ row member matched _ => ?_
  have read : Custom (Seen i w₃.trace) tenantId roleId := ⟨role, seen.idle (Later.idle l₃), id, tenant, custom⟩
  refine ⟨.inr ⟨(begun.later (r₁.trans r₂)).own (Later.idle l₃), ?_⟩, Safe.done fun _ _ => rfl⟩
  exact .updateRole read (role_found member matched)

theorem deleteRole_safe (new : ∀ event ∈ world.trace, event.author ≠ some i) :
    SafeRbac rely i ⟨tenantId, actorUserId, .deleteRole roleId⟩ (deleteRole tenantId actorUserId roleId) world := by
  have begun : Begun rely i world world := ⟨new, .refl⟩
  simp only [deleteRole, RoleService.assertManage, assertMutable]
  refine assertPermissions_safe Closed.tolerant fun w₁ actor r₁ _ => ?_
  refine existingRole_safe Closed.tolerant fun w₂ role r₂ seen id tenant => ?_
  refine Safe.throwIf Closed.tolerant.fails trivial fun custom => ?_
  refine Safe.findMany Closed.tolerant.fails fun w₃ memberships l₃ _ _ => ?_
  have r₃ := Reads.scan l₃ RbacModel.membership memberships false
  refine Safe.throwIf Closed.tolerant.fails trivial fun _ => ?_
  refine Safe.andThen (Safe.rethrown rfl ?_ ?_) fun _ _ => Safe.done fun _ _ => rfl
  · intro failure
    split
    next => exact ⟨_, rfl⟩
    next => exact ⟨_, rfl⟩
  rw [← bind_pure (Program.delete ..)]
  refine Safe.delete Closed.tolerant.fails fun w₄ l₄ row member matched => ?_
  have read : Custom (Seen i w₄.trace) tenantId roleId :=
    ⟨role, seen.idle ((Reads.idle r₃).trans (Later.idle l₄)), id, tenant, custom⟩
  refine ⟨.inr ⟨(begun.later ((r₁.trans r₂).trans r₃)).own (Later.idle l₄), ?_⟩, Safe.done fun _ _ => rfl⟩
  exact .deleteRole read (role_found member matched)

omit [DecidableEq ι] in
private theorem erases_grants (view : RbacDb) (old : List RolePermission) :
    old.flatMap (erases (S := rbac) (m := .rolePermission) view) = revocations old := by
  induction old with
  | nil => rfl
  | cons grant rest ih =>
    rw [List.flatMap_cons, ih]
    rfl

theorem assignPermissions_safe {dto : AssignRolePermissionsDto} (new : ∀ event ∈ world.trace, event.author ≠ some i) :
    SafeRbac rely i ⟨tenantId, actorUserId, .assignPermissions roleId dto⟩
      (assignPermissions tenantId actorUserId roleId dto) world := by
  have begun : Begun rely i world world := ⟨new, .refl⟩
  simp only [assignPermissions, RoleService.assertManage, assertMutable, assertBoundedGrants]
  refine assertPermissions_safe Closed.tolerant fun w₁ actor r₁ loaded => ?_
  refine existingRole_safe Closed.tolerant fun w₂ role r₂ seen id tenant => ?_
  refine Safe.throwIf Closed.tolerant.fails trivial fun custom => ?_
  refine resolvePermissions_safe Closed.tolerant fun w₃ permissions r₃ catalog => ?_
  refine Safe.throwIf Closed.tolerant.fails trivial fun held => ?_
  have bounded := bounded_of (loaded.mono (seen_within (Reads.idle (r₂.trans r₃)))) catalog held
  refine Safe.andThen ?_ fun _ _ => Safe.done fun _ _ => rfl
  refine Safe.transaction Closed.tolerant.fails fun w₄ l₄ _ => ?_
  rw [replaceGrants]
  refine Safe.deleteManyInside Closed.tolerant.body.fails fun w₅ l₅ old listed _ => ?_
  rw [← bind_pure (createGrants ..)]
  refine createGrants_safe Closed.tolerant.body (show Held rely _ [] _ _ from ⟨.refl, nofun⟩) ?_
  intro w₆ larger idle₆ held written
  rw [List.nil_append, erases_grants] at written
  refine Safe.done fun w₇ l₇ => ⟨larger, rfl, Or.imp_right (fun changed => ?_) (em (larger.writes = [])), fun _ _ => rfl⟩
  have idle := (Idle.record (Later.idle l₄) ⟨some i, none, [], false⟩).trans
    ((Idle.record (Later.idle l₅) _).trans (idle₆.trans (Later.idle l₇)))
  refine ⟨(begun.later ((r₁.trans r₂).trans r₃)).own idle, ?_⟩
  rw [written] at changed ⊢
  refine .assignPermissions ?_ (fun grant inside => ?_) (bounded.mono (seen_within idle)) changed
  · exact ⟨role, seen.idle ((Reads.idle r₃).trans idle), id, tenant, custom⟩
  · subst listed
    exact of_decide_eq_true (List.mem_filter.mp inside).2

omit [DecidableEq ι] in
private theorem guardedUpdate_safe {commits : Commits rbac ι} {message : String} {filter : Membership → Bool}
    {change : Change rbac .membership}
    (commit : ∀ after (row : Membership), Idle rely i world after → after.database.get .membership row.id = some row →
      filter row = true → Guarded (Seen i after.trace) after.database tenantId →
      commits after [.put .membership (change.apply row)]) :
    Safe commits rely i Closed (Program.transaction (do
      assertNotLastActiveOwner tenantId message
      Program.update (S := rbac) .membership filter change)) none world := by
  refine Safe.transaction Closed.tolerant.fails fun w₁ l₁ _ => ?_
  have tolerant : Tolerant (Body commits rely i (Closed : Post rbac HttpException Membership ι)) := Closed.tolerant.body
  simp only [assertNotLastActiveOwner, bind_assoc]
  refine Safe.findMany tolerant.fails fun w₂ roles l₂ listed _ => ?_
  refine Safe.lockInside tolerant.fails fun w₃ owners l₃ locked _ => ?_
  refine Safe.throwIf tolerant.fails trivial fun several => ?_
  rw [← bind_pure (Program.update ..)]
  refine Safe.updateInside tolerant.fails fun w₄ l₄ row member matched _ _ => ?_
  refine Safe.done fun w₅ l₅ => ⟨_, rfl, .inr ?_, fun _ _ => rfl⟩
  have idle₅ : Idle rely i (w₂.reads i RbacModel.role roles true) w₅ :=
    (Idle.record (Later.idle l₃) _).trans ((Idle.record (Later.idle l₄) _).trans (Later.idle l₅))
  have idle := (Idle.record (Later.idle l₁) ⟨some i, none, [], false⟩).trans ((Reads.idle (Reads.scan l₂ ..)).trans idle₅)
  have kept (owner : Membership) (member : owner ∈ owners) :
      w₅.database.get .membership owner.id = some owner ∧ owner.tenantId = tenantId ∧ owner.status = .active ∧
        ∃ role, Seen i w₅.trace RbacModel.role role ∧ role.id = owner.roleId ∧ role.tenantId = tenantId ∧ role.key = OWNER := by
    obtain ⟨stored, selected⟩ := List.mem_filter.mp (locked.mem_iff.mp member)
    simp only [Bool.and_eq_true, decide_eq_true_eq, List.mem_map] at selected
    obtain ⟨⟨place, active⟩, role, inside, same⟩ := selected
    obtain ⟨seen, named⟩ := Seen.listed (i := i) listed inside
    simp only [Bool.and_eq_true, decide_eq_true_eq] at named
    have lock : Lock.row (S := rbac) .membership owner.id ∈ [] ++ owners.map fun row => Lock.row RbacModel.membership row.id :=
      List.mem_map_of_mem member
    refine ⟨?_, place, active, role, seen.idle idle₅, same, named⟩
    rw [Later.locked l₅ (List.mem_append_left _ lock), World.record_database, Database.applyAll_nil, Later.locked l₄ lock]
    exact Table.find_eq_some.mpr ⟨stored, rfl⟩
  have distinct : (owners.map Membership.id).Nodup :=
    (locked.map Membership.id).nodup_iff.mpr (((w₃.database.table .membership).distinct).sublist (List.filter_sublist.map _))
  have guarded : Guarded (Seen i w₅.trace) w₅.database tenantId := by
    match owners with
    | [] => simp at several
    | [_] => simp at several
    | first :: second :: rest =>
      refine ⟨first, second, by simp_all, ?_⟩
      rintro owner (rfl | rfl)
      · exact kept _ (List.mem_cons_self ..)
      · exact kept _ (List.mem_cons_of_mem _ (List.mem_cons_self ..))
  have still : w₅.database.get .membership row.id = w₄.database.get .membership row.id :=
    Later.locked l₅ (List.mem_append_right _ mem_changeLocks)
  exact commit w₅ row idle (still.trans (Table.find_eq_some.mpr ⟨member, rfl⟩)) matched guarded

private theorem storeRole_safe {dto : AssignRoleToMembershipDto} {role : Role} {demotingOwner : Bool}
    (begun : Begun rely i start world) (assignable : Assignable (Seen i world.trace) tenantId actorUserId role)
    (requested : role.id = dto.roleId) {membership : Membership} (seen : Seen i world.trace RbacModel.membership membership)
    (targeted : target tenantId dto.membershipId membership = true) (other : membership.userId ≠ actorUserId) :
    SafeRbac rely i ⟨tenantId, actorUserId, .assignRoleToMembership dto⟩
      (storeRole demotingOwner tenantId dto.membershipId role.id) world := by
  simp only [target, Bool.and_eq_true, decide_eq_true_eq] at targeted
  have effect (after : RbacWorld ι) (row : Membership) (idle : Idle rely i world after)
      (found : after.database.get .membership row.id = some row) (matched : target tenantId dto.membershipId row = true)
      (secured : Unlocked i after.trace ∨ Guarded (Seen i after.trace) after.database tenantId) :
      RbacCommits i ⟨tenantId, actorUserId, .assignRoleToMembership dto⟩ after
        [.put .membership ((setRole role.id).apply row)] := by
    simp only [target, Bool.and_eq_true, decide_eq_true_eq] at matched
    refine ⟨begun.own idle, .assignRole (assignable.mono (seen_within idle)) requested matched.1.symm matched.2 ?_ found secured⟩
    exact ⟨membership, seen.idle idle, Option.some.inj (targeted.1.trans matched.1.symm), targeted.2, other⟩
  rw [storeRole]
  split
  next => exact guardedUpdate_safe fun after row idle found matched guarded => effect after row idle found matched (.inr guarded)
  next =>
    rw [← bind_pure (Program.update ..)]
    refine Safe.update Closed.tolerant.fails fun w₁ l₁ row member matched _ => ?_
    have found : w₁.database.get .membership row.id = some row := Table.find_eq_some.mpr ⟨member, rfl⟩
    exact ⟨.inr (effect w₁ row (Later.idle l₁) found matched (.inl (begun.unlocked l₁))), Safe.done fun _ _ => rfl⟩

theorem assignRoleToMembership_safe {dto : AssignRoleToMembershipDto} (new : ∀ event ∈ world.trace, event.author ≠ some i) :
    SafeRbac rely i ⟨tenantId, actorUserId, .assignRoleToMembership dto⟩
      (assignRoleToMembership tenantId actorUserId dto) world := by
  have begun : Begun rely i world world := ⟨new, .refl⟩
  simp only [assignRoleToMembership, RoleService.assertManage, roleOf]
  refine assertPermissions_safe Closed.tolerant fun w₁ actor r₁ loaded => ?_
  refine existingRole_safe Closed.tolerant fun w₂ role r₂ seen id tenant => ?_
  refine Safe.findFirst Closed.tolerant.fails fun w₃ members l₃ listed _ => ?_
  refine Safe.orThrow Closed.tolerant.fails trivial fun membership head => ?_
  obtain ⟨member, targeted⟩ := Seen.listed (i := i) listed (List.mem_of_mem_head? head)
  refine Safe.findFirst Closed.tolerant.fails fun w₄ roles l₄ _ _ => ?_
  have r₃ := Reads.scan l₃ RbacModel.membership members false
  have r₄ := Reads.scan l₄ RbacModel.role roles false
  refine Safe.throwIf Closed.tolerant.fails trivial fun other => Safe.throwIf Closed.tolerant.fails trivial fun owner => ?_
  have assignable : Assignable (Seen i (w₄.reads i RbacModel.role roles false).trace) tenantId actorUserId role := by
    refine ⟨seen.idle ((Reads.idle r₃).trans (Reads.idle r₄)), tenant, fun same => ?_⟩
    simp only [same, decide_true, Bool.true_and, Bool.not_eq_false'] at owner
    exact (loaded.owner owner).mono (seen_within ((Reads.idle r₂).trans ((Reads.idle r₃).trans (Reads.idle r₄))))
  refine Safe.andThen ?_ fun _ _ => Safe.done fun _ _ => rfl
  exact storeRole_safe (begun.later (((r₁.trans r₂).trans r₃).trans r₄)) assignable id (member.idle (Reads.idle r₄)) targeted
    (of_decide_eq_false other)

omit [DecidableEq ι] in
theorem loadRelations_reading {membership : Membership} : (loadRelations membership).Reading :=
  Program.Reading.findFirst.bind fun _ => Program.Reading.orThrow.bind fun _ =>
    Program.Reading.findFirst.bind fun _ => Program.Reading.orThrow.bind fun _ => .pure

omit [DecidableEq ι] in
theorem findMembership_reading : (findMembership tenantId membershipId).Reading :=
  Program.Reading.findFirst.bind fun _ => Program.Reading.orThrow.bind fun _ => loadRelations_reading

private theorem storeStatus_safe {dto : UpdateMemberStatusDto} {removingActiveOwner : Bool}
    (begun : Begun rely i start world) {membership : Membership} (seen : Seen i world.trace RbacModel.membership membership)
    (targeted : inTenant tenantId membershipId membership = true) (other : membership.userId ≠ actorUserId) :
    SafeRbac rely i ⟨tenantId, actorUserId, .updateMemberStatus membershipId dto⟩
      (storeStatus removingActiveOwner tenantId membershipId dto.status) world := by
  simp only [inTenant, Bool.and_eq_true, decide_eq_true_eq] at targeted
  have effect (after : RbacWorld ι) (row : Membership) (idle : Idle rely i world after)
      (found : after.database.get .membership row.id = some row) (matched : inTenant tenantId membershipId row = true)
      (secured : Unlocked i after.trace ∨ Guarded (Seen i after.trace) after.database tenantId) :
      RbacCommits i ⟨tenantId, actorUserId, .updateMemberStatus membershipId dto⟩ after
        [.put .membership ((setStatus dto.status).apply row)] := by
    simp only [inTenant, Bool.and_eq_true, decide_eq_true_eq] at matched
    refine ⟨begun.own idle, .updateStatus matched.1 matched.2 ?_ found secured⟩
    exact ⟨membership, seen.idle idle, targeted.1.trans matched.1.symm, targeted.2, other⟩
  rw [storeStatus]
  split
  next =>
    refine Safe.andThen ?_ fun _ after => findMembership_reading.safe Closed.tolerant fun _ _ _ => rfl
    exact guardedUpdate_safe fun after row idle found matched guarded => effect after row idle found matched (.inr guarded)
  next =>
    refine Safe.update Closed.tolerant.fails fun w₁ l₁ row member matched _ => ?_
    have found : w₁.database.get .membership row.id = some row := Table.find_eq_some.mpr ⟨member, rfl⟩
    exact ⟨.inr (effect w₁ row (Later.idle l₁) found matched (.inl (begun.unlocked l₁))),
      loadRelations_reading.safe Closed.tolerant fun _ _ _ => rfl⟩

theorem updateMemberStatus_safe {dto : UpdateMemberStatusDto} (new : ∀ event ∈ world.trace, event.author ≠ some i) :
    SafeRbac rely i ⟨tenantId, actorUserId, .updateMemberStatus membershipId dto⟩
      (updateMemberStatus tenantId actorUserId membershipId dto) world := by
  have begun : Begun rely i world world := ⟨new, .refl⟩
  simp only [updateMemberStatus, MemberService.assertManage, findMembership, loadRelations, roleOf, bind_assoc]
  refine assertPermissions_safe Closed.tolerant fun w₁ actor r₁ _ => ?_
  refine Safe.findFirst Closed.tolerant.fails fun w₂ members l₂ listed _ => ?_
  refine Safe.orThrow Closed.tolerant.fails trivial fun membership head => ?_
  obtain ⟨member, targeted⟩ := Seen.listed (i := i) listed (List.mem_of_mem_head? head)
  refine Safe.findFirst Closed.tolerant.fails fun w₃ users l₃ _ _ => Safe.orThrow Closed.tolerant.fails trivial fun user _ => ?_
  refine Safe.findFirst Closed.tolerant.fails fun w₄ roles l₄ _ _ => Safe.orThrow Closed.tolerant.fails trivial fun role _ => ?_
  have r₂ := Reads.scan l₂ RbacModel.membership members false
  have r₃ := Reads.scan l₃ RbacModel.user users false
  have r₄ := Reads.scan l₄ RbacModel.role roles false
  refine Safe.throwIf Closed.tolerant.fails trivial fun other => ?_
  refine Safe.andThen ?_ fun _ _ => Safe.done fun _ _ => rfl
  exact storeStatus_safe (begun.later (((r₁.trans r₂).trans r₃).trans r₄)) (member.idle ((Reads.idle r₃).trans (Reads.idle r₄)))
    targeted (of_decide_eq_false other)

omit [DecidableEq ι] in
private theorem resolveTargetRole_safe {dto : CreateMemberDto} {next : Option Role → Program rbac HttpException α}
    (tolerant : Tolerant post) (resume : ∀ after found, Reads rely i [] world after →
      (∀ role, found = some role → Seen i after.trace RbacModel.role role ∧ role.tenantId = tenantId ∧ Chosen dto role) →
      Safe commits rely i post (next found) none after) :
    Safe commits rely i post (resolveTargetRole tenantId dto.roleId >>= next) none world := by
  cases given : dto.roleId with
  | some roleId =>
    refine Safe.findFirst tolerant.fails fun w₁ roles l₁ listed _ => resume _ _ (.scan l₁ ..) fun role head => ?_
    obtain ⟨seen, matched⟩ := Seen.listed (i := i) listed (List.mem_of_mem_head? head)
    simp only [named, Bool.and_eq_true, decide_eq_true_eq] at matched
    exact ⟨seen, matched.2, by rw [Chosen, given]; exact matched.1⟩
  | none =>
    refine Safe.findFirst tolerant.fails fun w₁ roles l₁ listed _ => resume _ _ (.scan l₁ ..) fun role head => ?_
    obtain ⟨seen, matched⟩ := Seen.listed (i := i) listed (List.mem_of_mem_head? head)
    simp only [Bool.and_eq_true, decide_eq_true_eq] at matched
    exact ⟨seen, matched.1.1, by rw [Chosen, given]; exact ⟨matched.1.2, matched.2⟩⟩

omit [DecidableEq ι] in
private theorem upsertUser_safe {normalizeEmail : String → String} {dto : CreateMemberDto}
    {next : User → Program rbac HttpException α} (tolerant : Tolerant post)
    (resume : ∀ after user (users : List User) locks, Idle rely i world after →
      Safe commits rely i post (next user) (some ⟨signups users, locks⟩) after) :
    Safe commits rely i post (upsertUser normalizeEmail dto >>= next) (some {}) world := by
  rw [upsertUser, bind_assoc]
  refine Safe.findFirst tolerant.fails fun w₁ users l₁ _ _ => ?_
  have r₁ := Reads.scan l₁ RbacModel.user users true
  cases users.head? with
  | some user => exact resume _ user [] [] (Reads.idle r₁)
  | none =>
    refine Safe.createInside tolerant.fails fun w₂ l₂ user _ _ _ => ?_
    exact resume _ user [user] _ ((Reads.idle r₁).trans (Idle.record (Later.idle l₂) _))

private theorem onboard_safe {normalizeEmail : String → String} {dto : CreateMemberDto} {role : Role}
    (begun : Begun rely i start world) (assignable : Assignable (Seen i world.trace) tenantId actorUserId role)
    (chosen : Chosen dto role) : SafeRbac rely i ⟨tenantId, actorUserId, .createMember dto⟩
      (Program.transaction (onboard normalizeEmail tenantId actorUserId role.id dto)) world := by
  refine Safe.transaction Closed.tolerant.fails fun w₁ l₁ _ => ?_
  have tolerant : Tolerant (Body (RbacCommits i ⟨tenantId, actorUserId, .createMember dto⟩) rely i
    (Closed : Post rbac HttpException MemberSummary ι)) := Closed.tolerant.body
  rw [onboard]
  refine upsertUser_safe tolerant fun w₂ user users locks idle₂ => ?_
  refine Safe.throwIf tolerant.fails trivial fun other => ?_
  refine Safe.findFirst tolerant.fails fun w₃ members l₃ _ _ => Safe.throwIf tolerant.fails trivial fun _ => ?_
  refine Safe.createInside tolerant.fails fun w₄ l₄ row built created _ => ?_
  have kept : erasesOf (S := rbac) .membership (signups users) = [] := erasesOf_map_put ..
  have fresh := (Database.get_none _ kept created.fresh).2
  have held := (show Held rely _ [] _ ⟨signups users, locks⟩ from ⟨.refl, nofun⟩).insert l₄
    ⟨some i, some (RbacModel.membership, .create), [], true⟩ row fresh
  refine (loadRelations_reading.bind fun _ => .pure).safe tolerant fun member w₅ r₅ => ?_
  refine ⟨_, rfl, .inr ?_, fun _ _ => rfl⟩
  have idle := (Idle.record (Later.idle l₁) ⟨some i, none, [], false⟩).trans (idle₂.trans
    ((Reads.idle (Reads.scan l₃ RbacModel.membership members true)).trans
      ((Idle.record (Later.idle l₄) _).trans (Reads.idle r₅))))
  refine ⟨begun.own idle, ?_⟩
  have absent := ((Held.reads held r₅).pinned ⟨RbacModel.membership, row.id, none⟩ (List.mem_singleton_self _)).2
  subst built
  exact .createMember _ _ _ (assignable.mono (seen_within idle)) chosen (of_decide_eq_false other) absent

theorem createMember_safe {normalizeEmail : String → String} {dto : CreateMemberDto}
    (new : ∀ event ∈ world.trace, event.author ≠ some i) :
    SafeRbac rely i ⟨tenantId, actorUserId, .createMember dto⟩ (createMember normalizeEmail tenantId actorUserId dto) world := by
  have begun : Begun rely i world world := ⟨new, .refl⟩
  simp only [createMember, MemberService.assertManage]
  refine assertPermissions_safe Closed.tolerant fun w₁ actor r₁ loaded => ?_
  refine resolveTargetRole_safe Closed.tolerant fun w₂ found r₂ chosen => ?_
  refine Safe.orThrow Closed.tolerant.fails trivial fun role same => Safe.throwIf Closed.tolerant.fails trivial fun owner => ?_
  obtain ⟨seen, tenant, chosen⟩ := chosen role same
  refine Safe.rethrown rfl ?_ (onboard_safe (begun.later (r₁.trans r₂)) ⟨seen, tenant, fun key => ?_⟩ chosen)
  · intro failure
    split
    next => exact ⟨_, rfl⟩
    next => exact ⟨_, rfl⟩
  · simp only [key, decide_true, Bool.true_and, Bool.not_eq_false'] at owner
    exact (loaded.owner owner).mono (seen_within (Reads.idle r₂))

omit [DecidableEq ι] in
private theorem assertPermissions_reading {requirement : PermissionService.PermissionRequirement} :
    (assertPermissions tenantId userId requirement).Reading := by
  refine (Program.Reading.findFirst.bind fun membership => ?_).bind fun _ => Program.Reading.throwIf.bind fun _ => .pure
  cases membership with
  | none => trivial
  | some membership =>
    exact Program.Reading.findFirst.bind fun _ => (Program.Reading.findMany.bind fun _ =>
      Program.Reading.findMany.bind fun _ => .pure).bind fun _ => .pure

omit [DecidableEq ι] in
theorem findRole_reading : (findRole tenantId roleId).Reading := by
  refine Program.Reading.findFirst.bind fun role => ?_
  cases role with
  | none => trivial
  | some role =>
    exact (Program.Reading.findMany.bind fun _ => Program.Reading.findMany.bind fun _ => .pure).bind fun _ => .pure

omit [DecidableEq ι] in
theorem loadAllRelations_reading (memberships : List Membership) : (loadAllRelations memberships).Reading := by
  induction memberships with
  | nil => trivial
  | cons membership rest ih => exact loadRelations_reading.bind fun _ => ih.bind fun _ => .pure

/-- Every operation commits at most once, and only what `Effect` lists. -/
theorem RbacCall.safe {normalizeEmail : String → String} (call : RbacCall) (new : ∀ event ∈ world.trace, event.author ≠ some i) :
    SafeRbac rely i call (call.program normalizeEmail) world := by
  obtain ⟨tenantId, actorUserId, operation⟩ := call
  cases operation with
  | createRole dto => exact (createRole_safe new).answer
  | updateRole roleId dto => exact (updateRole_safe new).answer
  | deleteRole roleId => exact (deleteRole_safe new).answer
  | assignPermissions roleId dto => exact (assignPermissions_safe new).answer
  | assignRoleToMembership dto => exact (assignRoleToMembership_safe new).answer
  | updateMemberStatus membershipId dto => exact (updateMemberStatus_safe new).answer
  | createMember dto => exact (createMember_safe new).answer
  | listRoles =>
    refine Program.Reading.safe (.map ?_) Closed.tolerant fun _ _ _ => rfl
    exact assertPermissions_reading.bind fun _ => Program.Reading.findMany.bind fun _ =>
      Program.Reading.findMany.bind fun _ => .pure
  | getRole roleId =>
    refine Program.Reading.safe (.map ?_) Closed.tolerant fun _ _ _ => rfl
    exact assertPermissions_reading.bind fun _ => findRole_reading.bind fun _ => Program.Reading.orThrow.bind fun _ => .pure
  | listMembers =>
    refine Program.Reading.safe (.map ?_) Closed.tolerant fun _ _ _ => rfl
    exact assertPermissions_reading.bind fun _ => Program.Reading.findMany.bind fun _ =>
      (loadAllRelations_reading _).bind fun _ => .pure
  | getMember userId =>
    refine Program.Reading.safe (.map ?_) Closed.tolerant fun _ _ _ => rfl
    exact assertPermissions_reading.bind fun _ => Program.Reading.findFirst.bind fun _ =>
      Program.Reading.orThrow.bind fun _ => loadRelations_reading.bind fun _ => .pure

end BusinessPlatform.Rbac
