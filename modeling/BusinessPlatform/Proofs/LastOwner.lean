import BusinessPlatform.Proofs.RbacRuns

/-! The last active owner of a tenant, when roles and statuses of members are changed
at the same time. A call decides from what it has read before whether it takes the lock
on the owners; under the lock an owner remains. -/

namespace BusinessPlatform.Rbac
open Engine RoleService MemberService
open PermissionService (OWNER)

/-- The tenant has an ACTIVE membership with the owner role. -/
def Owned (db : RbacDb) (tenantId : Id) : Prop :=
  ∃ membership ∈ (db.table .membership).rows, ActiveOwner (stored db) tenantId membership

instance {db : RbacDb} {tenantId : Id} : Decidable (Owned db tenantId) :=
  inferInstanceAs (Decidable (∃ membership ∈ (db.table .membership).rows, _))

/-- Calls of `assignRoleToMembership` and `updateMemberStatus`. -/
def Demotes : RbacOperation → Bool
  | .assignRoleToMembership _ | .updateMemberStatus _ _ => true
  | _ => false

variable {ι : Type} {calls : ι → RbacCall} {database db : RbacDb} {normalizeEmail : String → String}
  {tenantId actorUserId : Id} {operation : RbacOperation} {writes : RbacWrites} {rows : Rows} {unlocked : Prop}

/-- What such a call commits: one stored membership of its tenant, changed. -/
structure Changed (rows : Rows) (db : RbacDb) (unlocked : Prop) (tenantId : Id) (writes : RbacWrites) (old row : Membership) :
    Prop where
  writes : writes = [.put .membership row]
  found : db.get .membership row.id = some old
  tenant : row.tenantId = tenantId
  before : old.tenantId = tenantId
  secured : unlocked ∨ Guarded rows db tenantId

theorem Effect.changed (effect : Effect rows db unlocked tenantId actorUserId operation writes)
    (demotes : Demotes operation = true) : ∃ old row, Changed rows db unlocked tenantId writes old row := by
  cases effect with
  | assignRole assignable requested target tenant other found secured =>
    exact ⟨_, _, rfl, found, tenant, tenant, secured⟩
  | updateStatus target tenant other found secured =>
    exact ⟨_, _, rfl, found, tenant, tenant, secured⟩
  | createRole | updateRole | deleteRole | assignPermissions | createMember => cases demotes

/-- The write takes active ownership from nobody. -/
def KeepsOwners (db : RbacDb) (writes : RbacWrites) (tenantId : Id) : Prop :=
  ∀ row ∈ putsOf (S := rbac) .membership writes, ∀ old ∈ db.get .membership row.id,
    ActiveOwner (stored db) tenantId old → ActiveOwner (stored db) tenantId row

instance : Decidable (KeepsOwners db writes tenantId) :=
  inferInstanceAs (Decidable (∀ row ∈ putsOf (S := rbac) .membership writes, ∀ old ∈ db.get .membership row.id, _))

/-- A membership whose tenant, status and role are as before the write. -/
theorem ActiveOwner.put {owner row : Membership} (active : ActiveOwner (stored db) tenantId owner) :
    ActiveOwner (stored (db.applyAll [.put .membership row])) tenantId owner := by
  obtain ⟨tenant, status, role, found, named⟩ := active
  have same : (db.applyAll [.put .membership row]).table .role = db.table .role := Database.applyAll_other _ (by simp [Write.model])
  refine ⟨tenant, status, role, ?_, named⟩
  rw [stored, same]
  exact found

/-- An active owner remains: under the lock there are two, of which one is written at most. -/
theorem Changed.owned {old row : Membership} {ofTenant : Id} (changed : Changed rows db unlocked tenantId writes old row)
    (roles : ∀ role, rows .role role → role ∈ (db.table .role).rows) (owned : Owned db ofTenant)
    (keeps : unlocked → KeepsOwners db writes ofTenant) : Owned (db.applyAll writes) ofTenant := by
  obtain ⟨rfl, found, tenant, before, secured⟩ := changed
  have kept {owner : Membership} (there : db.get .membership owner.id = some owner) (other : owner.id ≠ row.id)
      (active : ActiveOwner (stored db) ofTenant owner) : Owned (db.applyAll [.put .membership row]) ofTenant := by
    have still : (db.applyAll [.put .membership row]).get .membership owner.id = some owner := by
      rw [db.applyAll_get (by simp [Write.locks, rowLocks, RbacModel.key, other])]
      exact there
    exact ⟨owner, (Table.find_eq_some.mp still).1, active.put⟩
  obtain ⟨owner, member, active⟩ := owned
  have there : db.get .membership owner.id = some owner := Table.find_eq_some.mpr ⟨member, rfl⟩
  by_cases same : owner.id = row.id
  · rw [same, found] at there
    cases there
    rcases secured with without | ⟨first, second, distinct, owners⟩
    · have active := keeps without row (by simp [putsOf_put_same]) old found active
      exact ⟨row, (Table.find_eq_some.mp (db.get_put .membership row)).1, active.put⟩
    · -- one of the two locked owners is not the member that is written
      obtain ⟨other, either, different⟩ : ∃ other, (other = first ∨ other = second) ∧ other.id ≠ row.id := by
        by_cases written : first.id = row.id
        · exact ⟨second, .inr rfl, fun again => distinct (written.trans again.symm)⟩
        · exact ⟨first, .inl rfl, written⟩
      obtain ⟨stays, place, status, role, seen, id, home, named⟩ := owners other either
      obtain rfl : tenantId = ofTenant := before.symm.trans active.tenant
      exact kept stays different ⟨place, status, role, roles role seen, id, home.trans place.symm, named⟩
  · exact kept there same active

theorem Owned.spared (owned : Owned db tenantId)
    (spares : ∀ write ∈ writes, write.model ∉ [RbacModel.membership, RbacModel.role]) : Owned (db.applyAll writes) tenantId := by
  have members : (db.applyAll writes).table .membership = db.table .membership :=
    Database.applyAll_other _ fun write member same => spares write member (by simp [same])
  have roles : (db.applyAll writes).table .role = db.table .role :=
    Database.applyAll_other _ fun write member same => spares write member (by simp [same])
  obtain ⟨membership, member, tenant, status, role, found, named⟩ := owned
  refine ⟨membership, members ▸ member, tenant, status, role, ?_, named⟩
  rw [stored, roles]
  exact found

variable [DecidableEq ι] {state : RbacState ι}

/-- A call that has not taken the lock on the owners writes to no active owner, unless
the member stays one. -/
def LocksDemotions (tenantId : Id) (state : RbacState ι) (event : Event rbac ι) : Prop :=
  ∀ i ∈ event.author, Unlocked i state.world.trace → KeepsOwners event.before event.writes tenantId

omit [DecidableEq ι] in
theorem Effect.memberships_only (effect : Effect rows db unlocked tenantId actorUserId operation writes)
    (demotes : Demotes operation = true) : ∀ write ∈ writes, write.model = .membership := by
  obtain ⟨old, row, rfl, _⟩ := effect.changed demotes
  simp [Write.model]

/-- In every run in which calls without the lock take active ownership from nobody who
has it, a tenant that had an active owner has one in every state reached. -/
theorem last_owner_kept (normalizeEmail : String → String) (database : RbacDb) (calls : ι → RbacCall)
    (demotes : ∀ i, Demotes (calls i).operation = true) (tenantId : Id) (owned : Owned database tenantId)
    (reached : State.Reaches (fun state action => RbacEnvironment [.membership, .role] state action ∧
      state.Records (LocksDemotions tenantId) action) (rbacSystem normalizeEmail database calls) state) :
    Owned state.world.database tenantId := by
  let start := (rbacSystem normalizeEmail database calls).world
  have valid := rbacSystem_valid normalizeEmail [.membership, .role] database calls
  have invariant := State.Reaches.invariant
    (fun state => Grows (lawfulRbac [.membership, .role] calls) start state.world ∧ Owned state.world.database tenantId)
    reached valid (fun _ _ permitted => permitted.1.lawful) ⟨.refl, owned⟩ ?_
  · exact invariant.2.2
  · intro state next action _ ⟨grown, owned⟩ permitted executed moves
    refine ⟨grown.trans moves.grows, ?_⟩
    have roles := Unchanged.grown (m := .role) grown rfl (by simp) fun i world writes commits write member => by
      rw [commits.2.memberships_only (demotes i) write member]
      nofun
    cases moves with
    | still same => exact same ▸ owned
    | wait elapsed waited => exact waited ▸ owned
    | event label writes recorded lawful active =>
      rw [recorded, World.record_database]
      have locks := permitted.2 next _ executed (by rw [recorded, World.record_trace])
      rcases lawful with rfl | lawful
      · exact owned
      · cases author : label.author with
        | none =>
          rw [author] at lawful
          exact owned.spared lawful
        | some i =>
          rw [author] at lawful
          obtain ⟨old, row, changed⟩ := lawful.2.changed (demotes i)
          exact changed.owned (fun role seen => roles.seen seen) owned fun without => locks i author without

instance {event : Event rbac ι} : Decidable (LocksDemotions tenantId state event) :=
  inferInstanceAs (Decidable (∀ i ∈ event.author,
    (∀ earlier ∈ state.world.trace, earlier.author = some i → earlier.access ≠ some (.membership, .lock)) → _))

/-- Two owners of a tenant, or an owner and an employee. -/
def staffed (secondRole : Id) : RbacDb := ⟨fun
  | .user => ⟨[⟨10, "first@shop", none, none⟩, ⟨11, "second@shop", none, none⟩], by decide⟩
  | .membership => ⟨[⟨20, 0, 10, 1, .active, 0⟩, ⟨21, 0, 11, secondRole, .active, 0⟩], by simp [RbacModel.key]⟩
  | .role => ⟨[⟨1, 0, OWNER, "Owner", none, true, 0⟩, ⟨2, 0, EMPLOYEE, "Employee", none, true, 0⟩], by decide⟩
  | .permission => Table.empty
  | .rolePermission => Table.empty⟩

/-- Two owners demote each other. -/
def demoteEachOther : Fin 2 → RbacCall
  | 0 => ⟨0, 10, .assignRoleToMembership ⟨some 21, 2⟩⟩
  | 1 => ⟨0, 11, .assignRoleToMembership ⟨some 20, 2⟩⟩

/-- Both have read when the first takes the lock; the second then finds one owner. -/
theorem last_owner_kept_each : ∃ state : RbacState (Fin 2),
    State.Reaches (fun state action => RbacEnvironment [.membership, .role] state action ∧
      state.Records (LocksDemotions 0) action) (rbacSystem id (staffed 1) demoteEachOther) state ∧
      (state.world.database.table .membership).rows.map Membership.roleId = [1, 2] ∧ Owned state.world.database 0 := by
  have executed : ((rbacSystem id (staffed 1) demoteEachOther).runWhile (fun state event => LocksDemotions 0 state event)
      (List.replicate 9 (.run 0 []) ++ List.replicate 11 (.run 1 []) ++ List.replicate 5 (.run 0 []) ++
        List.replicate 2 (.run 1 []))).any
      (fun state => (state.world.database.table RbacModel.membership).rows.map Membership.roleId = [1, 2]) = true := by
    decide +kernel
  obtain ⟨state, ran, seen⟩ := State.Reaches.undisturbed executed rfl
  have reached : State.Reaches (fun state action => RbacEnvironment [.membership, .role] state action ∧
      state.Records (LocksDemotions 0) action) (rbacSystem id (staffed 1) demoteEachOther) state :=
    ran.weaken fun state action allowed => ⟨RbacEnvironment.undisturbed allowed.1, allowed.2⟩
  refine ⟨state, reached, of_decide_eq_true seen, last_owner_kept id (staffed 1) demoteEachOther ?_ 0 ?_ reached⟩
  · decide
  · decide

/-- The first owner is to make the second member an employee again, to make them an
owner, and is to be demoted by them. -/
def promoteAndDemote : Fin 3 → RbacCall
  | 0 => ⟨0, 10, .assignRoleToMembership ⟨some 21, 2⟩⟩
  | 1 => ⟨0, 10, .assignRoleToMembership ⟨some 21, 1⟩⟩
  | 2 => ⟨0, 11, .assignRoleToMembership ⟨some 20, 2⟩⟩

/-- The first call reads an employee; by the time it writes, without the lock, this is
the only owner. -/
theorem last_owner_lost : ∃ state : RbacState (Fin 3),
    RbacReaches [.user, .membership, .role, .permission, .rolePermission] (rbacSystem id (staffed 2) promoteAndDemote) state ∧
      (∀ i, Demotes (promoteAndDemote i).operation = true) ∧ Owned (staffed 2) 0 ∧ ¬ Owned state.world.database 0 := by
  have executed : ((rbacSystem id (staffed 2) promoteAndDemote).run
      (List.replicate 9 (.run 0 []) ++ List.replicate 10 (.run 1 []) ++ List.replicate 14 (.run 2 []) ++ [.run 0 []])).any
        (fun state => ¬ Owned state.world.database 0) = true := by decide +kernel
  obtain ⟨state, ran, lost⟩ := State.Reaches.computed executed rfl
  exact ⟨state, ran.weaken fun _ _ => RbacEnvironment.undisturbed, by decide, by decide, of_decide_eq_true lost⟩

end BusinessPlatform.Rbac
