import BusinessPlatform.Proofs.RbacRuns
import BusinessPlatform.Proofs.SystemRoles

/-! What roles and members come to hold by the operations of an actor. Grants to roles
are bounded by what the actor is seen to hold; a role that is given to a member is not. -/

namespace BusinessPlatform.Rbac
open Engine RoleService MemberService
open PermissionService (OWNER)

variable {rows : Rows} {db : RbacDb} {unlocked : Prop} {tenantId userId roleId actorUserId : Id} {operation : RbacOperation}
  {writes : RbacWrites}

/-- A role holds its permissions; the owner role holds every one. -/
def RoleGrants (rows : Rows) (tenantId roleId : Id) (key : String) : Prop :=
  (∃ role, rows .role role ∧ role.id = roleId ∧ role.tenantId = tenantId ∧ role.key = OWNER) ∨ RoleHolds rows roleId key

/-- An ACTIVE member holds what the role does. -/
def MemberHolds (rows : Rows) (tenantId userId : Id) (key : String) : Prop :=
  ∃ membership, rows .membership membership ∧ membership.userId = userId ∧ membership.tenantId = tenantId ∧
    membership.status = .active ∧ RoleGrants rows tenantId membership.roleId key

instance [Searchable rows] {key : String} : Decidable (RoleGrants rows tenantId roleId key) :=
  have _ : Decidable (∃ role, rows .role role ∧ role.id = roleId ∧ role.tenantId = tenantId ∧ role.key = OWNER) :=
    Searchable.search .role fun role => role.id = roleId ∧ role.tenantId = tenantId ∧ role.key = OWNER
  inferInstanceAs (Decidable (_ ∨ _))

instance [Searchable rows] {key : String} : Decidable (MemberHolds rows tenantId userId key) :=
  Searchable.search .membership fun membership => membership.userId = userId ∧ membership.tenantId = tenantId ∧
    membership.status = .active ∧ RoleGrants rows tenantId membership.roleId key

variable {ι : Type} [DecidableEq ι] {calls : ι → RbacCall} {start world : RbacWorld ι} {state : RbacState ι} {i : ι} {call : RbacCall}
  {event : Event rbac ι} {earlier : List (Event rbac ι)}

/-- In some state since the first statement of the call the actor held the permission. -/
def HeldDuring (i : ι) (call : RbacCall) (key : String) : List (Event rbac ι) → Prop
  | [] => False
  | event :: earlier =>
    (MemberHolds (stored event.before) call.tenantId call.actorUserId key ∧ ∃ own ∈ event :: earlier, own.author = some i) ∨
      HeldDuring i call key earlier

instance heldDecidable {key : String} : (trace : List (Event rbac ι)) → Decidable (HeldDuring i call key trace)
  | [] => isFalse id
  | event :: earlier =>
    have _ : Decidable (HeldDuring i call key earlier) := heldDecidable earlier
    inferInstanceAs (Decidable ((MemberHolds (stored event.before) call.tenantId call.actorUserId key ∧
      ∃ own ∈ event :: earlier, own.author = some i) ∨ HeldDuring i call key earlier))

omit [DecidableEq ι] in
theorem HeldDuring.own {trace : List (Event rbac ι)} {key : String} (member : event ∈ trace) (author : event.author = some i)
    (holds : MemberHolds (stored event.before) call.tenantId call.actorUserId key) : HeldDuring i call key trace := by
  induction trace with
  | nil => cases member
  | cons latest earlier ih =>
    rcases List.mem_cons.mp member with rfl | inside
    · exact .inl ⟨holds, event, List.mem_cons_self .., author⟩
    · exact .inr (ih inside)

/-- What a role or a member holds after the commit, it did before, or the actor held it
during the call. -/
structure Unescalated (i : ι) (call : RbacCall) (event : Event rbac ι) (earlier : List (Event rbac ι)) : Prop where
  roles : ∀ tenantId roleId key, RoleGrants (stored (event.before.applyAll event.writes)) tenantId roleId key →
    RoleGrants (stored event.before) tenantId roleId key ∨ HeldDuring i call key (event :: earlier)
  members : ∀ tenantId userId key, MemberHolds (stored (event.before.applyAll event.writes)) tenantId userId key →
    MemberHolds (stored event.before) tenantId userId key ∨ HeldDuring i call key (event :: earlier)

/-- Of the role that an ACTIVE membership is stored with, the actor held every permission
that the member does not hold already. -/
def GivesHeld (i : ι) (call : RbacCall) (event : Event rbac ι) (earlier : List (Event rbac ι)) : Prop :=
  ∀ membership, Write.put RbacModel.membership membership ∈ event.writes → membership.status = .active →
    ∀ key, RoleGrants (stored event.before) membership.tenantId membership.roleId key →
      MemberHolds (stored event.before) membership.tenantId membership.userId key ∨ HeldDuring i call key (event :: earlier)

/-- Of the permissions that are granted to a role, the actor held every one that the role
does not grant already. -/
def GrantsHeld (i : ι) (call : RbacCall) (event : Event rbac ι) (earlier : List (Event rbac ι)) : Prop :=
  ∀ grant, Write.put RbacModel.rolePermission grant ∈ event.writes →
    ∀ permission ∈ (event.before.table .permission).rows, permission.id = grant.permissionId →
      ∀ tenantId, RoleGrants (stored event.before) tenantId grant.roleId permission.key ∨
        HeldDuring i call permission.key (event :: earlier)

/-- The statements of the call have all found the actor's membership alike. -/
def Unmoved (i : ι) (call : RbacCall) (trace : List (Event rbac ι)) : Prop :=
  ∀ first ∈ trace, first.author = some i → ∀ second ∈ trace, second.author = some i →
    ∀ membership ∈ (first.before.table .membership).rows, membership.userId = call.actorUserId →
      membership.tenantId = call.tenantId → membership ∈ (second.before.table .membership).rows

instance {trace : List (Event rbac ι)} : Decidable (Unmoved i call trace) :=
  inferInstanceAs (Decidable (∀ first ∈ trace, first.author = some i → ∀ second ∈ trace, second.author = some i →
    ∀ membership ∈ (first.before.table .membership).rows, membership.userId = call.actorUserId →
      membership.tenantId = call.tenantId → membership ∈ (second.before.table .membership).rows))

theorem Effect.catalog (effect : Effect rows db unlocked tenantId actorUserId operation writes) :
    ∀ write ∈ writes, write.model ≠ .permission := by
  intro write member
  cases effect.written member with
  | _ => nofun

/-- A grant that is stored is one of a permission that the actor may grant. -/
theorem Effect.granted (effect : Effect rows db unlocked tenantId actorUserId operation writes) {grant : RolePermission}
    (put : Write.put RbacModel.rolePermission grant ∈ writes) :
    ∃ permission, rows .permission permission ∧ permission.id = grant.permissionId ∧
      (Owns rows tenantId actorUserId ∨ Holds rows tenantId actorUserId permission.key) := by
  cases effect.written put with
  | @granted _ _ permission free listed held => exact ⟨permission, listed, rfl, held⟩

private theorem grants_stored {permissions : List Permission} {grant : RolePermission}
    (put : Write.put RbacModel.rolePermission grant ∈ grants roleId permissions) :
    grant ∈ ((db.applyAll (grants roleId permissions)).table .rolePermission).rows := by
  have kept : erasesOf (S := rbac) .rolePermission (grants roleId permissions) = [] := erasesOf_map_put ..
  cases found : (db.applyAll (grants roleId permissions)).get .rolePermission (grant.roleId, grant.permissionId) with
  | none => exact absurd (List.mem_map_of_mem (mem_putsOf.mpr put)) (Database.get_none _ kept found).1
  | some row =>
    obtain ⟨member, key⟩ := Table.find_eq_some.mp found
    obtain ⟨role, permission⟩ := Prod.mk.inj key
    have same : row = grant := by
      cases row
      cases grant
      simp_all
    exact same ▸ member

theorem Effect.grant (effect : Effect rows db unlocked tenantId actorUserId operation writes) {grant : RolePermission}
    (put : Write.put RbacModel.rolePermission grant ∈ writes) : grant ∈ ((db.applyAll writes).table .rolePermission).rows := by
  cases effect with
  | updateRole | assignRole | updateStatus => cases List.mem_singleton.mp put
  | deleteRole =>
    rw [erases, List.mem_cons, List.mem_flatMap] at put
    rcases put with same | ⟨child, _, inside⟩
    · cases same
    · obtain ⟨_, _, same⟩ := List.mem_map.mp inside
      cases same
  | createMember =>
    rcases List.mem_append.mp put with inside | inside
    · obtain ⟨_, _, same⟩ := List.mem_map.mp inside
      cases same
    · cases List.mem_singleton.mp inside
  | createRole =>
    rcases List.mem_cons.mp put with same | inside
    · cases same
    · exact grants_stored inside
  | assignPermissions =>
    rcases List.mem_append.mp put with inside | inside
    · obtain ⟨_, _, same⟩ := List.mem_map.mp inside
      cases same
    · rw [Database.applyAll_append]
      exact grants_stored inside

/-- A call that stores a membership stores no other one, and besides it users only. -/
theorem Effect.membership (effect : Effect rows db unlocked tenantId actorUserId operation writes)
    {membership : Membership} (put : Write.put RbacModel.membership membership ∈ writes) :
    membership ∈ ((db.applyAll writes).table .membership).rows ∧
      ∀ write ∈ writes, write.model = .user ∨ write.model = .membership := by
  have written := effect.written put
  cases effect with
  | createRole | updateRole | deleteRole | assignPermissions => cases written
  | assignRole | updateStatus =>
    cases List.mem_singleton.mp put
    exact ⟨(Table.find_eq_some.mp (db.get_put .membership _)).1, by simp [Write.model]⟩
  | @createMember _ _ users =>
    rcases List.mem_append.mp put with inside | inside
    · obtain ⟨_, _, same⟩ := List.mem_map.mp inside
      cases same
    · cases List.mem_singleton.mp inside
      refine ⟨?_, fun write member => ?_⟩
      · rw [Database.applyAll_append]
        exact (Table.find_eq_some.mp ((db.applyAll (signups users)).get_put .membership _)).1
      · rcases List.mem_append.mp member with inside | inside
        · obtain ⟨_, _, rfl⟩ := List.mem_map.mp inside
          exact .inl rfl
        · cases List.mem_singleton.mp inside
          exact .inr rfl

omit [DecidableEq ι] in
/-- Roles and members newly hold only what the actor held, exactly if that is so of the
role that is given and of the permissions that are granted. -/
theorem Effect.unescalated_iff (effect : Effect rows event.before unlocked tenantId actorUserId operation event.writes) :
    Unescalated i call event earlier ↔ GivesHeld i call event earlier ∧ GrantsHeld i call event earlier := by
  have catalog : (event.before.applyAll event.writes).table .permission = event.before.table .permission :=
    Database.applyAll_other _ effect.catalog
  constructor
  · intro unescalated
    constructor
    · intro membership put active key granted
      obtain ⟨member, others⟩ := effect.membership put
      have same (m : RbacModel) (user : m ≠ .user) (other : m ≠ .membership) :
          (event.before.applyAll event.writes).table m = event.before.table m :=
        Database.applyAll_other _ fun write inside equal => (others write inside).elim (fun is => user (equal ▸ is))
          fun is => other (equal ▸ is)
      have kept : RoleGrants (stored (event.before.applyAll event.writes)) membership.tenantId membership.roleId key := by
        simp only [RoleGrants, RoleHolds, stored, same .role nofun nofun, same .rolePermission nofun nofun, catalog]
        exact granted
      exact unescalated.members _ _ key ⟨membership, member, rfl, rfl, active, kept⟩
    · intro grant put permission listed entry tenantId
      refine unescalated.roles tenantId _ _ (.inr ⟨grant, permission, effect.grant put, ?_, rfl, entry, rfl⟩)
      rwa [stored, catalog]
  · rintro ⟨gives, granted⟩
    have roles (tenantId roleId : Id) (key : String)
        (grants : RoleGrants (stored (event.before.applyAll event.writes)) tenantId roleId key) :
        RoleGrants (stored event.before) tenantId roleId key ∨ HeldDuring i call key (event :: earlier) := by
      rcases grants with ⟨role, found, id, tenant, named⟩ | ⟨grant, permission, present, listed, ofRole, entry, named⟩
      · rcases effect.roles found with free | ⟨old, before, same, place, kept, _⟩
        · exact absurd (named ▸ List.mem_cons_self ..) free
        · exact .inl (.inl ⟨old, before, same.trans id, place.trans tenant, kept.trans named⟩)
      · rw [stored, catalog] at listed
        rcases stored_cases present with put | there
        · exact ofRole ▸ named ▸ granted grant put permission listed entry tenantId
        · exact .inl (.inr ⟨grant, permission, there, listed, ofRole, entry, named⟩)
    refine ⟨roles, ?_⟩
    rintro ofTenant userId key ⟨membership, member, user, tenant, active, grants⟩
    rcases roles _ _ _ grants with before | held
    · rcases stored_cases member with put | there
      · subst user tenant
        exact gives membership put active key before
      · exact .inl ⟨membership, there, user, tenant, active, before⟩
    · exact .inr held

omit [DecidableEq ι] in
/-- What the rows of several statements say that the actor holds, the actor held in one
state, if the membership was the same to all of them. -/
theorem HeldDuring.seen {key : String} (catalog : ∀ event ∈ earlier, ∀ permission, Seen i earlier .permission permission →
      permission ∈ (event.before.table .permission).rows) (unmoved : Unmoved i call earlier)
    (held : Owns (Seen i earlier) call.tenantId call.actorUserId ∨ Holds (Seen i earlier) call.tenantId call.actorUserId key) :
    HeldDuring i call key earlier := by
  rcases held with ⟨membership, ⟨first, member, own, found⟩, user, owner⟩ |
    ⟨membership, ⟨first, member, own, found⟩, user, tenant, active, grant, permission, ⟨second, other, also, granted⟩, listed,
      ofRole, entry, named⟩
  · obtain ⟨role, ⟨second, other, also, there⟩, id, place, named⟩ := owner.role
    have present := unmoved first member own second other also membership found user owner.tenant
    exact .own other also ⟨membership, present, user, owner.tenant, owner.active,
      .inl ⟨role, there, id, place.trans owner.tenant, named⟩⟩
  · have present := unmoved first member own second other also membership found user tenant
    exact .own other also ⟨membership, present, user, tenant, active,
      .inr ⟨grant, permission, granted, catalog second other permission listed, ofRole, entry, named⟩⟩

/-- In every run, what an operation commits lets roles and members newly hold only what
the actor held during the call, exactly if that is so of the role that it gives to a
member and of the permissions that it grants to a role. It is so of these, if the
membership of the actor is not changed meanwhile. -/
theorem grants_bounded (normalizeEmail : String → String) (database : RbacDb) (calls : ι → RbacCall)
    (reached : RbacReaches [.permission] (rbacSystem normalizeEmail database calls) state)
    (suffix : event :: earlier <:+ state.world.trace) (author : event.author = some i) :
    (Unescalated i (calls i) event earlier ↔ GivesHeld i (calls i) event earlier ∧ GrantsHeld i (calls i) event earlier) ∧
      (Unmoved i (calls i) earlier → GrantsHeld i (calls i) event earlier) := by
  have valid := rbacSystem_valid normalizeEmail [.permission] database calls
  have grows := (State.Reaches.valid reached valid fun _ _ permitted => permitted.lawful).2
  obtain ⟨origin, recorded⟩ := Grows.history grows rfl suffix
  have unchanged := Unchanged.grown (m := .permission) recorded.before rfl (by simp) fun i world writes commits =>
    commits.2.catalog
  have catalog : ∀ permission, Seen i earlier .permission permission → permission ∈ (event.before.table .permission).rows := by
    intro permission seen
    rw [← recorded.trace] at seen
    rw [← recorded.database]
    exact unchanged.seen seen
  have always : ∀ event ∈ earlier, ∀ permission, Seen i earlier .permission permission →
      permission ∈ (event.before.table .permission).rows := by
    intro event member permission seen
    rw [← recorded.trace] at member seen
    rw [unchanged.before event member, ← unchanged.now]
    exact unchanged.seen seen
  rcases recorded.lawful with nothing | lawful
  · have gives : GivesHeld i (calls i) event earlier := fun _ put => absurd put (by simp [nothing])
    have granted : GrantsHeld i (calls i) event earlier := fun _ put => absurd put (by simp [nothing])
    have same : event.before.applyAll event.writes = event.before := by rw [nothing, Database.applyAll_nil]
    have unescalated : Unescalated i (calls i) event earlier :=
      ⟨fun _ _ _ holds => .inl (same ▸ holds), fun _ _ _ holds => .inl (same ▸ holds)⟩
    exact ⟨⟨fun _ => ⟨gives, granted⟩, fun _ => unescalated⟩, fun _ => granted⟩
  · rw [author] at lawful
    have effect := lawful.2
    rw [recorded.trace, recorded.database] at effect
    refine ⟨effect.unescalated_iff, fun unmoved grant put permission listed entry tenantId => .inr (.inr ?_)⟩
    obtain ⟨seen, known, same, held⟩ := effect.granted put
    have equal : seen = permission := Table.key_unique _ (catalog seen known) listed (same.trans entry.symm)
    exact HeldDuring.seen always unmoved (equal ▸ held)

private theorem last_event (database : RbacDb) (calls : ι → RbacCall) (schedule : List (Action rbac ι)) (i : ι)
    (p : Event rbac ι → List (Event rbac ι) → Prop) [∀ event earlier, Decidable (p event earlier)]
    (executed : ((rbacSystem id database calls).run schedule).any (fun state => match state.world.trace with
      | event :: earlier => event.author = some i && p event earlier
      | [] => false) = true) (undisturbed : schedule.all Action.undisturbed = true) :
    ∃ state event earlier, RbacReaches [.user, .membership, .role, .permission, .rolePermission]
      (rbacSystem id database calls) state ∧ event :: earlier <:+ state.world.trace ∧ event.author = some i ∧ p event earlier := by
  obtain ⟨state, ran, seen⟩ := State.Reaches.computed executed undisturbed
  split at seen
  next event earlier traced =>
    simp only [Bool.and_eq_true, decide_eq_true_eq] at seen
    exact ⟨state, event, earlier, ran.weaken fun _ _ => RbacEnvironment.undisturbed, traced ▸ List.suffix_refl _, seen.1, seen.2⟩
  next => cases seen

/-- A tenant with a role manager (user 10), a viewer (user 11) and a role for refunds. -/
def managed : RbacDb := ⟨fun
  | .user => ⟨[⟨10, "manager@shop", none, none⟩, ⟨11, "viewer@shop", none, none⟩], by decide⟩
  | .membership => ⟨[⟨20, 0, 10, 3, .active, 0⟩, ⟨21, 0, 11, 5, .active, 0⟩], by decide⟩
  | .role => ⟨[⟨3, 0, ADMIN, "Admin", none, true, 0⟩, ⟨4, 0, "refunds", "Refunds", none, false, 0⟩,
      ⟨5, 0, "viewer", "Viewer", none, false, 0⟩], by decide⟩
  | .permission => ⟨[⟨"perm_role_manage", ROLE_MANAGE, ""⟩, ⟨"perm_product_read", "product:read", ""⟩,
      ⟨"perm_order_refund", "order:refund", ""⟩], by decide⟩
  | .rolePermission => ⟨[⟨3, "perm_role_manage"⟩, ⟨3, "perm_product_read"⟩, ⟨4, "perm_order_refund"⟩], by decide⟩⟩

/-- The manager grants a permission that he holds. -/
def grantHeld : Unit → RbacCall := fun _ => ⟨0, 10, .assignPermissions 5 ⟨["perm_product_read"]⟩⟩

theorem grants_bounded_held : ∃ (state : RbacState Unit) (event : Event rbac Unit) (earlier : List (Event rbac Unit)),
    RbacReaches [.permission] (rbacSystem id managed grantHeld) state ∧ event :: earlier <:+ state.world.trace ∧
      MemberHolds (stored (event.before.applyAll event.writes)) 0 11 "product:read" ∧
      Unescalated () (grantHeld ()) event earlier := by
  obtain ⟨state, event, earlier, reached, suffix, author, holds, none, unmoved⟩ := last_event managed
    grantHeld (List.replicate 12 (.run () [])) ()
    (fun event earlier => MemberHolds (stored (event.before.applyAll event.writes)) 0 11 "product:read" ∧
      putsOf (S := rbac) .membership event.writes = [] ∧ Unmoved () (grantHeld ()) earlier) (by decide +kernel) rfl
  have reached : RbacReaches [.permission] (rbacSystem id managed grantHeld) state :=
    reached.weaken fun _ _ permitted writes same write member => fun fixed => permitted writes same write member (by simp_all)
  refine ⟨state, event, earlier, reached, suffix, holds, ?_⟩
  obtain ⟨bounded, granted⟩ := grants_bounded id managed grantHeld reached suffix author
  refine bounded.mpr ⟨fun membership put => ?_, granted unmoved⟩
  rw [← mem_putsOf, none] at put
  cases put

/-- The manager gives the viewer the role for refunds. -/
def giveUnheld : Unit → RbacCall := fun _ => ⟨0, 10, .assignRoleToMembership ⟨some 21, 4⟩⟩

/-- A tenant with an owner (user 12) and a manager (user 10) by a custom role. -/
def delegated : RbacDb := ⟨fun
  | .user => ⟨[⟨10, "manager@shop", none, none⟩, ⟨12, "owner@shop", none, none⟩], by decide⟩
  | .membership => ⟨[⟨20, 0, 10, 6, .active, 0⟩, ⟨22, 0, 12, 7, .active, 0⟩], by decide⟩
  | .role => ⟨[⟨5, 0, "viewer", "Viewer", none, false, 0⟩, ⟨6, 0, "managers", "Managers", none, false, 0⟩,
      ⟨7, 0, OWNER, "Owner", none, true, 0⟩], by decide⟩
  | .permission => ⟨[⟨"perm_role_manage", ROLE_MANAGE, ""⟩, ⟨"perm_order_refund", "order:refund", ""⟩], by decide⟩
  | .rolePermission => ⟨[⟨6, "perm_role_manage"⟩], by decide⟩⟩

/-- The manager grants refunds to the viewers. The owner makes him a viewer, and then
grants refunds to the managers. -/
def grantTorn : Fin 3 → RbacCall
  | 0 => ⟨0, 10, .assignPermissions 5 ⟨["perm_order_refund"]⟩⟩
  | 1 => ⟨0, 12, .assignRoleToMembership ⟨some 20, 5⟩⟩
  | 2 => ⟨0, 12, .assignPermissions 6 ⟨["perm_role_manage", "perm_order_refund"]⟩⟩

/-- The viewer newly holds a permission that the manager does not hold. A role newly
grants a permission that the manager has held in no state: he was of its former role
before that role granted it. -/
theorem grants_unbounded :
    (∃ (state : RbacState Unit) (event : Event rbac Unit) (earlier : List (Event rbac Unit)),
      RbacReaches [.user, .membership, .role, .permission, .rolePermission] (rbacSystem id managed giveUnheld) state ∧
        event :: earlier <:+ state.world.trace ∧ event.author = some () ∧ ¬ Owns (stored event.before) 0 10 ∧
        ¬ Unescalated () (giveUnheld ()) event earlier) ∧
      ∃ (state : RbacState (Fin 3)) (event : Event rbac (Fin 3)) (earlier : List (Event rbac (Fin 3))),
        RbacReaches [.user, .membership, .role, .permission, .rolePermission] (rbacSystem id delegated grantTorn) state ∧
          event :: earlier <:+ state.world.trace ∧ event.author = some 0 ∧ ¬ Owns (stored event.before) 0 10 ∧
          ¬ Unescalated 0 (grantTorn 0) event earlier := by
  constructor
  · obtain ⟨state, event, earlier, reached, suffix, author, common, after, before, unheld⟩ := last_event managed
      giveUnheld (List.replicate 10 (.run () [])) ()
      (fun event earlier => ¬ Owns (stored event.before) 0 10 ∧
        MemberHolds (stored (event.before.applyAll event.writes)) 0 11 "order:refund" ∧
        ¬ MemberHolds (stored event.before) 0 11 "order:refund" ∧
        ¬ HeldDuring () (giveUnheld ()) "order:refund" (event :: earlier)) (by decide +kernel) rfl
    refine ⟨state, event, earlier, reached, suffix, author, common, fun unescalated => ?_⟩
    exact (unescalated.members 0 11 "order:refund" after).elim before unheld
  · obtain ⟨state, event, earlier, reached, suffix, author, common, after, before, unheld⟩ := last_event delegated
      grantTorn (.run 0 [] :: List.replicate 10 (.run 1 []) ++ List.replicate 13 (.run 2 []) ++ List.replicate 11 (.run 0 [])) 0
      (fun event earlier => ¬ Owns (stored event.before) 0 10 ∧
        RoleGrants (stored (event.before.applyAll event.writes)) 0 5 "order:refund" ∧
        ¬ RoleGrants (stored event.before) 0 5 "order:refund" ∧
        ¬ HeldDuring 0 (grantTorn 0) "order:refund" (event :: earlier)) (by decide +kernel) rfl
    refine ⟨state, event, earlier, reached, suffix, author, common, fun unescalated => ?_⟩
    exact (unescalated.roles 0 5 "order:refund" after).elim before unheld

end BusinessPlatform.Rbac
