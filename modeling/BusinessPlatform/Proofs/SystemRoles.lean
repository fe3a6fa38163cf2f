import BusinessPlatform.Proofs.RbacSafety
import BusinessPlatform.Engine.Sequential

/-! System roles and ownership under operations that are called one after another. -/

namespace BusinessPlatform.Rbac
open Engine RoleService MemberService
open PermissionService (OWNER)

/-- System roles stay as they are, and so do their permissions. -/
def SystemRolesKept (before after : RbacDb) : Prop :=
  ∀ role ∈ (before.table .role).rows, role.isSystem = true → role ∈ (after.table .role).rows ∧
    ∀ grant : RolePermission, grant.roleId = role.id →
      (grant ∈ (after.table .rolePermission).rows ↔ grant ∈ (before.table .rolePermission).rows)

/-- No custom role has a reserved key. -/
def Unreserved (db : RbacDb) : Prop :=
  ∀ role ∈ (db.table .role).rows, role.isSystem = false → role.key ∉ SYSTEM_ROLE_KEYS

/-- A membership that has got the owner role got it from an active owner. -/
def OwnersByOwners (call : RbacCall) (before after : RbacDb) : Prop :=
  ∀ membership ∈ (after.table .membership).rows, HasOwnerRole (stored after) membership →
    (∃ old ∈ (before.table .membership).rows, old.id = membership.id ∧ HasOwnerRole (stored before) old) ∨
      membership.tenantId = call.tenantId ∧ Owns (stored before) call.tenantId call.actorUserId

/-- The memberships of the acting user stay as they are. -/
def SelfKept (call : RbacCall) (before after : RbacDb) : Prop :=
  ∀ membership : Membership, membership.userId = call.actorUserId →
    (membership ∈ (after.table .membership).rows ↔ membership ∈ (before.table .membership).rows)

variable {db : RbacDb} {tenantId actorUserId roleId : Id} {operation : RbacOperation} {writes : RbacWrites}
  {unlocked : Prop} {call : RbacCall}

/-- A row whose key is not written is stored after the writes iff it was before. -/
theorem mem_untouched {m : RbacModel} {row : m.Row} (free : Lock.row m (rbac.key row) ∉ writes.flatMap Write.locks) :
    row ∈ ((db.applyAll writes).table m).rows ↔ row ∈ (db.table m).rows := by
  have found (db : RbacDb) : row ∈ (db.table m).rows ↔ db.get m (rbac.key row) = some row :=
    ⟨fun member => Table.find_eq_some.mpr ⟨member, rfl⟩, fun found => (Table.find_eq_some.mp found).1⟩
  rw [found, found, db.applyAll_get free]

/-- A write leaves a role and its permissions alone. -/
def Spares (roleId : Id) (write : Write rbac) : Prop :=
  Lock.row RbacModel.role roleId ∉ write.locks ∧
    ∀ permissionId, Lock.row RbacModel.rolePermission (roleId, permissionId) ∉ write.locks

theorem spares_role {row : Role} (other : row.id ≠ roleId) : Spares roleId (.put .role row) := by
  simp [Spares, Write.locks, rowLocks, RbacModel.key, Ne.symm other]

theorem spares_eraseRole {id : Id} (other : id ≠ roleId) : Spares roleId (.erase .role id) := by
  simp [Spares, Write.locks, Ne.symm other]

theorem spares_grant {grant : RolePermission} (other : grant.roleId ≠ roleId) : Spares roleId (.put .rolePermission grant) := by
  simp [Spares, Write.locks, rowLocks, RbacModel.key, Ne.symm other]

theorem spares_eraseGrant {id : Id} {permissionId : String} (other : id ≠ roleId) :
    Spares roleId (.erase .rolePermission (id, permissionId)) := by
  simp [Spares, Write.locks, Ne.symm other]

theorem spares_membership {row : Membership} : Spares roleId (.put .membership row) := by
  simp [Spares, Write.locks, rowLocks]

theorem spares_user {row : User} : Spares roleId (.put .user row) := by
  simp [Spares, Write.locks, rowLocks]

private theorem custom_other (custom : Custom (stored db) tenantId roleId) {role : Role} (member : role ∈ (db.table .role).rows)
    (system : role.isSystem = true) : roleId ≠ role.id := by
  obtain ⟨other, found, id, _, notSystem⟩ := custom
  rintro rfl
  rw [Table.key_unique _ found member id, system] at notSystem
  cases notSystem

theorem Effect.spares (effect : Effect (stored db) db unlocked tenantId actorUserId operation writes) {role : Role}
    (member : role ∈ (db.table .role).rows) (system : role.isSystem = true) : ∀ write ∈ writes, Spares role.id write := by
  have other {id : Id} (free : db.get .role id = none ∨ Custom (stored db) tenantId id) : id ≠ role.id := by
    rcases free with fresh | custom
    · rintro rfl
      cases fresh.symm.trans (Table.find_eq_some.mpr ⟨member, rfl⟩)
    · exact custom_other custom member system
  intro write inside
  cases effect.written inside with
  | newRole id now unreserved fresh => exact spares_role (other (.inl fresh))
  | patchedRole custom found => exact spares_role (other (.inr custom))
  | erasedRole custom => exact spares_eraseRole (other (.inr custom))
  | granted free listed held => exact spares_grant (other free)
  | revoked custom => exact spares_eraseGrant (other (.inr custom))
  | newUser user => exact spares_user
  | newMember | givenRole | givenStatus => exact spares_membership

theorem Effect.system (effect : Effect (stored db) db unlocked tenantId actorUserId operation writes) :
    SystemRolesKept db (db.applyAll writes) := by
  intro role member system
  have spares := effect.spares member system
  refine ⟨(mem_untouched fun locked => ?_).mpr member, fun grant same => mem_untouched fun locked => ?_⟩
  · obtain ⟨write, inside, lock⟩ := List.mem_flatMap.mp locked
    exact (spares write inside).1 lock
  · obtain ⟨write, inside, lock⟩ := List.mem_flatMap.mp locked
    exact (spares write inside).2 grant.permissionId (same ▸ lock)

theorem stored_cases {m : RbacModel} {row : m.Row} (member : row ∈ ((db.applyAll writes).table m).rows) :
    Write.put m row ∈ writes ∨ row ∈ (db.table m).rows := by
  rcases Database.get_found _ (Table.find_eq_some.mpr ⟨member, rfl⟩) with put | there
  · exact .inl (mem_putsOf.mp put)
  · exact .inr (Table.find_eq_some.mp there).1

/-- The role rows after an effect: those before, up to name and description, and a custom
role with a free key. -/
theorem Effect.roles {rows : Rows} (effect : Effect rows db unlocked tenantId actorUserId operation writes) {role : Role}
    (member : role ∈ ((db.applyAll writes).table .role).rows) :
    role.key ∉ SYSTEM_ROLE_KEYS ∨ ∃ old ∈ (db.table .role).rows, old.id = role.id ∧ old.tenantId = role.tenantId ∧
      old.key = role.key ∧ old.isSystem = role.isSystem := by
  rcases stored_cases member with put | there
  · cases effect.written put with
    | newRole id now unreserved fresh => exact .inl unreserved
    | @patchedRole _ _ _ row custom found => exact .inr ⟨row, (Table.find_eq_some.mp found).1, rfl, rfl, rfl, rfl⟩
  · exact .inr ⟨role, there, rfl, rfl, rfl, rfl⟩

/-- What an effect may have made of a membership of somebody else. -/
inductive Altered (db : RbacDb) (tenantId actorUserId : Id) : Membership → Prop where
  | role {row : Membership} {role : Role} (before : row ∈ (db.table .membership).rows) (tenant : row.tenantId = tenantId)
      (other : row.userId ≠ actorUserId) (assignable : Assignable (stored db) tenantId actorUserId role) :
      Altered db tenantId actorUserId { row with roleId := role.id }
  | status {row : Membership} {status : MembershipStatus} (before : row ∈ (db.table .membership).rows)
      (other : row.userId ≠ actorUserId) : Altered db tenantId actorUserId { row with status }
  | new {role : Role} {userId id now : Nat} (fresh : db.get .membership id = none) (other : userId ≠ actorUserId)
      (assignable : Assignable (stored db) tenantId actorUserId role) :
      Altered db tenantId actorUserId (newMembership tenantId userId role.id id now)

private theorem foreign_other {row : Membership} (other : Foreign (stored db) tenantId actorUserId row.id)
    (found : db.get .membership row.id = some row) : row.userId ≠ actorUserId := by
  obtain ⟨seen, member, id, _, different⟩ := other
  rwa [Table.key_unique _ member (Table.find_eq_some.mp found).1 id] at different

theorem Effect.memberships (effect : Effect (stored db) db unlocked tenantId actorUserId operation writes)
    {membership : Membership} (put : Write.put RbacModel.membership membership ∈ writes) :
    Altered db tenantId actorUserId membership := by
  cases effect.written put with
  | newMember assignable other fresh => exact .new fresh other assignable
  | givenRole assignable tenant other found =>
    exact .role (Table.find_eq_some.mp found).1 tenant (foreign_other other found) assignable
  | givenStatus other found => exact .status (Table.find_eq_some.mp found).1 (foreign_other other found)

theorem Effect.members {rows : Rows} (effect : Effect rows db unlocked tenantId actorUserId operation writes) :
    erasesOf (S := rbac) .membership writes = [] := by
  refine List.filterMap_eq_nil_iff.mpr fun write inside => ?_
  cases effect.written inside with
  | _ => rfl

theorem Effect.unreserved (effect : Effect (stored db) db unlocked tenantId actorUserId operation writes)
    (unreserved : Unreserved db) : Unreserved (db.applyAll writes) := by
  intro role member custom
  rcases effect.roles member with free | ⟨old, before, _, _, key, system⟩
  · exact free
  · exact key ▸ unreserved old before (system.trans custom)

theorem Effect.owners (effect : Effect (stored db) db unlocked tenantId actorUserId operation writes) :
    OwnersByOwners ⟨tenantId, actorUserId, operation⟩ db (db.applyAll writes) := by
  rintro membership member ⟨role, found, id, tenant, key⟩
  obtain ⟨owner, before, same, place, named⟩ : ∃ owner ∈ (db.table .role).rows, owner.id = membership.roleId ∧
      owner.tenantId = membership.tenantId ∧ owner.key = OWNER := by
    rcases effect.roles found with free | ⟨old, before, same, place, named, _⟩
    · exact absurd (key ▸ List.mem_cons_self ..) free
    · exact ⟨old, before, same.trans id, place.trans tenant, named.trans key⟩
  have given {role : Role} (assignable : Assignable (stored db) tenantId actorUserId role) (id : owner.id = role.id) :
      Owns (stored db) tenantId actorUserId :=
    assignable.owner (Table.key_unique _ before assignable.found id ▸ named)
  rcases stored_cases member with put | there
  · cases effect.memberships put with
    | role earlier home other assignable => exact .inr ⟨home, given assignable same⟩
    | @status row _ earlier other => exact .inl ⟨row, earlier, rfl, owner, before, same, place, named⟩
    | new fresh other assignable => exact .inr ⟨rfl, given assignable same⟩
  · exact .inl ⟨membership, there, rfl, owner, before, same, place, named⟩

theorem Effect.self (effect : Effect (stored db) db unlocked tenantId actorUserId operation writes) :
    SelfKept ⟨tenantId, actorUserId, operation⟩ db (db.applyAll writes) := by
  intro membership self
  constructor
  · intro member
    rcases stored_cases member with put | there
    · cases effect.memberships put with
      | role _ _ other | status _ other | new _ other => exact absurd self other
    · exact there
  · intro member
    have found : db.get .membership membership.id = some membership := Table.find_eq_some.mpr ⟨member, rfl⟩
    rcases db.get_cases effect.members membership.id with same | ⟨row, put, key, _⟩
    · exact (Table.find_eq_some.mp (same.trans found)).1
    · -- a stored row of this key would be another user's
      cases effect.memberships (mem_putsOf.mp put) with
      | role before _ other _ =>
        exact absurd (Table.key_unique _ before member key ▸ self) other
      | status before other =>
        exact absurd (Table.key_unique _ before member key ▸ self) other
      | @new _ _ id _ fresh _ _ =>
        have same : id = membership.id := key
        rw [same] at fresh
        cases fresh.symm.trans found

variable {normalizeEmail : String → String} {stamp clock : Nat} {state : State rbac HttpException RbacResponse Unit}

theorem RbacCommits.once {middle : RbacWorld Unit} (commits : RbacCommits () call middle writes) :
    middle.own () = [] ∧ writes ≠ [] := by
  obtain ⟨tenantId, actorUserId, operation⟩ := call
  refine ⟨commits.1, ?_⟩
  rintro rfl
  generalize nothing : ([] : RbacWrites) = writes at commits
  cases commits.2 with
  | createRole | updateRole | deleteRole | assignRole | updateStatus => cases nothing
  | assignPermissions _ _ _ changed => exact changed nothing.symm
  | createMember => simp at nothing

/-- A call alone leaves the rows as they were, or has one effect on them. -/
theorem RbacCall.alone (ran : RunsAlone (World.opened db stamp clock) (call.program normalizeEmail) state) :
    state.world.database = db ∨ ∃ unlocked writes, Effect (stored db) db unlocked call.tenantId call.actorUserId
      call.operation writes ∧ state.world.database = db.applyAll writes := by
  have new : ∀ event ∈ (World.opened db stamp clock : RbacWorld Unit).trace, event.author ≠ some () := by
    intro event member author
    cases (World.opened_author member).symm.trans author
  obtain ⟨_, grows⟩ := ran.valid (call.safe new)
  rcases Grows.once grows (fun _ => World.opened_author) (fun _ _ => RbacCommits.once) with ⟨_, same⟩ | ⟨middle, writes, committed⟩
  · exact .inl same
  · have within : Within (Seen () middle.trace) (stored db) := by
      rintro m row ⟨event, member, author, there⟩
      rw [committed.before event member author] at there
      exact there
    have effect := committed.acceptable.2.mono within
    rw [committed.database] at effect
    exact .inr ⟨_, writes, effect, committed.after⟩

theorem SystemRolesKept.trans {first second third : RbacDb} (before : SystemRolesKept first second)
    (after : SystemRolesKept second third) : SystemRolesKept first third := by
  intro role member system
  obtain ⟨kept, granted⟩ := before role member system
  obtain ⟨stays, still⟩ := after role kept system
  exact ⟨stays, fun grant same => (still grant same).trans (granted grant same)⟩

/-- What one call alone does to system roles, to ownership and to the actor. -/
structure Untampered (call : RbacCall) (before after : RbacDb) : Prop where
  system : SystemRolesKept before after
  unreserved : Unreserved before → Unreserved after
  owners : OwnersByOwners call before after
  self : SelfKept call before after

theorem RbacCall.untampered (ran : RunsAlone (World.opened db stamp clock) (call.program normalizeEmail) state) :
    Untampered call db state.world.database := by
  rcases RbacCall.alone ran with same | ⟨unlocked, writes, effect, same⟩
  · rw [same]
    have owners : OwnersByOwners call db db := fun membership member owner => .inl ⟨membership, member, rfl, owner⟩
    exact ⟨fun role member _ => ⟨member, fun _ _ => Iff.rfl⟩, fun free => free, owners, fun _ _ => Iff.rfl⟩
  · rw [same]
    exact ⟨effect.system, effect.unreserved, effect.owners, effect.self⟩

/-- Over every sequence of operations system roles stay as they are and custom roles
have no reserved key; whoever operates next gives ownership only as an active owner and
does not change their own membership. -/
theorem system_roles_untouched {start world : RbacWorld Unit}
    {results : List (RbacCall × Except (Failure HttpException) RbacResponse)}
    (sequence : Sequence (RbacCall.program normalizeEmail) start results world) :
    SystemRolesKept start.database world.database ∧
    (Unreserved start.database → Unreserved world.database) ∧
    ∀ call state, RunsAlone world (RbacCall.program normalizeEmail call) state →
      OwnersByOwners call world.database state.world.database ∧ SelfKept call world.database state.world.database := by
  have kept : SystemRolesKept start.database world.database ∧ (Unreserved start.database → Unreserved world.database) := by
    refine sequence.database (fun db => SystemRolesKept start.database db ∧ (Unreserved start.database → Unreserved db))
      ⟨fun role member _ => ⟨member, fun _ _ => Iff.rfl⟩, fun free => free⟩ ?_
    intro call db stamp clock state ⟨system, unreserved⟩ ran
    have untampered := RbacCall.untampered ran
    exact ⟨system.trans untampered.system, fun free => untampered.unreserved (unreserved free)⟩
  refine ⟨kept.1, kept.2, fun call state ran => ?_⟩
  obtain ⟨twin, again, alike⟩ := ran.rebased
  have untampered := RbacCall.untampered again
  rw [alike.world.database]
  exact ⟨untampered.owners, untampered.self⟩

private theorem founding_distinct : ([1, 2] : List Id).Nodup := by decide

private theorem founder_distinct : ([4] : List Id).Nodup := by decide

/-- A tenant with its owner and the roles of the platform. -/
def founded : RbacDb := ⟨fun
  | .user => ⟨[⟨3, "owner@shop", none, none⟩], by decide⟩
  | .membership => ⟨[⟨4, 0, 3, 1, .active, 0⟩], founder_distinct⟩
  | .role => ⟨[⟨1, 0, OWNER, "Owner", none, true, 0⟩, ⟨2, 0, EMPLOYEE, "Employee", none, true, 0⟩], founding_distinct⟩
  | .permission => ⟨[⟨"perm_role_read", "role:read", "Read roles"⟩], by decide⟩
  | .rolePermission => Table.empty⟩

/-- The owner adds a member, makes a role and gives it to the member. -/
def delegate : List (RbacCall × Nat) :=
  [(⟨0, 3, .assignRoleToMembership ⟨some 9, 19⟩⟩, 10),
    (⟨0, 3, .createRole ⟨"auditor", "Auditor", none, ["perm_role_read"]⟩⟩, 9),
    (⟨0, 3, .createMember ⟨"clerk@shop", none, none, none⟩⟩, 13)]

theorem system_roles_untouched_delegate : ∃ results world,
    Sequence (RbacCall.program id) ⟨founded, [], 0⟩ results world ∧ SystemRolesKept founded world.database ∧
      Unreserved world.database ∧ (world.database.table .membership).rows.map Membership.roleId = [1, 19] ∧
      ∀ call state, RunsAlone world (RbacCall.program id call) state →
        OwnersByOwners call world.database state.world.database ∧ SelfKept call world.database state.world.database := by
  have executed : ((World.mk founded [] 0).executeAll (RbacCall.program id) delegate).any (fun outcome =>
      (outcome.2.database.table RbacModel.membership).rows.map Membership.roleId = [1, 19]) = true := by decide +kernel
  obtain ⟨⟨results, world⟩, ran, given⟩ := (Option.any_eq_true _ _).mp executed
  have unreserved : Unreserved founded := by
    rw [Unreserved]
    decide
  obtain ⟨system, reserved, untampered⟩ := system_roles_untouched (Sequence.executed ran)
  exact ⟨results, world, Sequence.executed ran, system, reserved unreserved, of_decide_eq_true given, untampered⟩

end BusinessPlatform.Rbac
