import BusinessPlatform.Engine.Atomicity
import BusinessPlatform.PermissionMemo
import BusinessPlatform.Proofs.RbacSafety
import Std.Data.String.ToNat

/-! The memo of a request holds current permissions as long as no new member's
permissions have been asked for before: every other operation clears it after its
writes, and one that fails has written nothing. -/

namespace BusinessPlatform.Rbac
open Engine Program RoleService MemberService
open PermissionService (PermissionSnapshot satisfies INSUFFICIENT_PERMISSIONS OWNER)

variable {tenantId userId roleId : Id} {request : Request} {moment : Moment rbac} {database : RbacDb}

theorem memoKey_injective {tenantId userId other : Id} (same : memoKey tenantId userId = memoKey tenantId other) :
    userId = other := by
  have tail : "permissions:" ++ toString tenantId ++ ":" ++ toString userId =
      "permissions:" ++ toString tenantId ++ ":" ++ toString other := by simpa [memoKey, String.append_assoc] using same
  exact Nat.repr_inj.mp ((String.append_right_inj _).mp tail)

theorem cached_memoise {context : TenantContextState} {snapshot : PermissionSnapshot} {userId other : Id} :
    (context.memoise userId snapshot).cached other = if other = userId then some snapshot else context.cached other := by
  split
  next same =>
    subst same
    exact Fields.get_set_same ..
  next different => exact Fields.get_set_other _ _ fun same => different (memoKey_injective same)

/-- What `loadSnapshot` computes from the rows. -/
def snapshotIn (database : RbacDb) (tenantId userId : Id) : PermissionSnapshot :=
  match (database.table .membership).rows.find? fun row => row.userId = userId && row.tenantId = tenantId with
  | none => ⟨false, []⟩
  | some membership =>
    let role := (database.table .role).rows.find? fun row => row.id = membership.roleId && row.tenantId = membership.tenantId
    let grants := (database.table .rolePermission).rows.filter fun row => row.roleId = membership.roleId
    let permissions := (database.table .permission).rows.filter fun row => row.id ∈ grants.map RolePermission.permissionId
    snapshotOf membership role grants permissions

theorem loadSnapshot_succeeds (tenantId userId : Id) (moment : Moment rbac) : (loadSnapshot tenantId userId).Succeeds none moment fun snapshot pending later =>
    snapshot = snapshotIn moment.database tenantId userId ∧ pending = none ∧ later.database = moment.database := by
  rw [loadSnapshot, succeeds_bind, succeeds_findFirst]
  change Succeeds (match ((moment.database.table .membership).rows.find? _ : Option Membership) with
    | none => _
    | some membership => _) _ _ _
  rw [snapshotIn]
  split
  next => exact ⟨rfl, rfl, rfl⟩
  next membership _ =>
    rw [succeeds_bind, roleOf, succeeds_findFirst, succeeds_bind, grantsOf, succeeds_bind, succeeds_findMany, succeeds_bind,
      succeeds_findMany]
    exact ⟨rfl, rfl, rfl⟩

theorem evaluate_loadSnapshot (request : Request) (tenantId userId : Id) : ∃ later, later.database = request.moment.database ∧
    request.evaluate (loadSnapshot tenantId userId) =
      (.ok (snapshotIn request.moment.database tenantId userId), { request with moment := later }) := by
  obtain ⟨snapshot, loaded, rfl, _, rows⟩ := succeeds_iff.mp (loadSnapshot_succeeds tenantId userId request.moment)
  exact ⟨_, rows, by rw [Request.evaluate, ← loaded]⟩

/-- What the memo holds are the current permissions of users. -/
structure Request.Fresh (request : Request) : Prop where
  current : ∀ userId snapshot, request.context.cached userId = some snapshot →
    snapshot = snapshotIn request.moment.database request.context.tenantId userId
  known : ∀ userId snapshot, request.context.cached userId = some snapshot →
    ∃ user ∈ (request.moment.database.table .user).rows, User.id user = userId

theorem Request.Fresh.cleared : ({ request with context := request.context.clearMemo } : Request).Fresh := ⟨nofun, nofun⟩

theorem Request.Fresh.unchanged {context : TenantContextState} {before after : Moment rbac}
    (fresh : Request.Fresh ⟨context, before⟩) (same : after.database = before.database) : Request.Fresh ⟨context, after⟩ := by
  refine ⟨fun userId snapshot held => ?_, fun userId snapshot held => ?_⟩
  · rw [fresh.current userId snapshot held, same]
  · rw [same]
    exact fresh.known userId snapshot held

/-- Permissions that are asked for are current, and memoised from then on. -/
theorem Request.Fresh.permissions (fresh : request.Fresh)
    (present : ∃ user ∈ (request.moment.database.table .user).rows, User.id user = userId) :
    ∃ context later, context.tenantId = request.context.tenantId ∧ later.database = request.moment.database ∧
      getPermissions request userId =
        (.ok (snapshotIn request.moment.database request.context.tenantId userId), ⟨context, later⟩) ∧
      Request.Fresh ⟨context, later⟩ ∧ ∀ other ≠ userId, context.cached other = request.context.cached other := by
  rw [getPermissions]
  cases held : request.context.cached userId with
  | some cached =>
    refine ⟨request.context, request.moment, rfl, rfl, ?_, fresh, fun _ _ => rfl⟩
    rw [fresh.current userId cached held]
  | none =>
    obtain ⟨later, rows, loaded⟩ := evaluate_loadSnapshot request request.context.tenantId userId
    rw [loaded]
    refine ⟨request.context.memoise userId _, later, rfl, rows, rfl, ⟨?_, ?_⟩, fun other different => ?_⟩
    · intro other snapshot cached
      rw [cached_memoise] at cached
      split at cached
      next same =>
        cases cached
        rw [same, rows]
        rfl
      next =>
        rw [fresh.current other snapshot cached, rows]
        rfl
    · intro other snapshot cached
      rw [cached_memoise] at cached
      rw [rows]
      split at cached
      next same => rwa [same]
      next => exact fresh.known other snapshot cached
    · rw [cached_memoise, if_neg different]

theorem mapped_fails {isError : Failure HttpException → Bool} {exception : HttpException} {α : Type} (failure : Failure HttpException) :
    ∃ other, (if isError failure then throw exception else .done (.error failure) : RbacService α) = .done (.error other) := by
  split <;> exact ⟨_, rfl⟩

private theorem existingRole_reading : (existingRole tenantId roleId).Reading :=
  findRole_reading.bind fun _ => Reading.orThrow.bind fun _ => .pure

private theorem resolvePermissions_reading {permissionIds : List String} : (resolvePermissions permissionIds).Reading :=
  Reading.throwIf.bind fun _ => Reading.throwIf.bind fun _ => Reading.throwIf.bind fun _ => Reading.findMany.bind fun _ =>
    Reading.throwIf.bind fun _ => .pure

private theorem createGrants_inside (permissions : List Permission) : (createGrants roleId permissions).Inside := by
  induction permissions with
  | nil => trivial
  | cons permission rest ih => exact Inside.send.bind fun _ => ih

private theorem assertNotLastActiveOwner_inside {message : String} : (assertNotLastActiveOwner tenantId message).Inside :=
  Reading.findMany.inside.bind fun _ => Inside.send.bind fun _ => .throwIf

private theorem resolveTargetRole_reading {roleId : Option Id} : (resolveTargetRole tenantId roleId).Reading := by
  cases roleId <;> exact .findFirst

private theorem upsertUser_inside {normalizeEmail : String → String} {dto : CreateMemberDto} :
    (upsertUser normalizeEmail dto).Inside := by
  refine Reading.findFirst.inside.bind fun user => ?_
  cases user with
  | some user => trivial
  | none => exact Inside.send

private theorem onboard_inside {normalizeEmail : String → String} {tenantId actorUserId roleId : Id} {dto : CreateMemberDto} :
    (onboard normalizeEmail tenantId actorUserId roleId dto).Inside :=
  upsertUser_inside.bind fun _ => Inside.throwIf.bind fun _ => Reading.findFirst.inside.bind fun _ =>
    Inside.throwIf.bind fun _ => Inside.send.bind fun _ => loadRelations_reading.inside.bind fun _ => .pure

private theorem storeRole_atomic {demotingOwner : Bool} {membershipId : Option Id} :
    (storeRole demotingOwner tenantId membershipId roleId).Atomic := by
  rw [storeRole]
  split
  · exact .transaction (assertNotLastActiveOwner_inside.bind fun _ => .send)
  · exact .query

/-- The relations of a membership are found as long as users and roles are the same. -/
private theorem loadRelations_succeeds {membership : Membership} {post : MemberWithRelations → Pending rbac → Moment rbac → Prop} :
    (loadRelations membership).Succeeds none moment post ↔
      ∃ user, ((moment.database.table .user).rows.find? fun row : User => row.id = membership.userId) = some user ∧
        ∃ role, ((moment.database.table .role).rows.find? fun row : Role =>
            row.id = membership.roleId && row.tenantId = membership.tenantId) = some role ∧
          post ⟨membership, user, role⟩ none moment.tick.tick := by
  rw [loadRelations, succeeds_bind, succeeds_findFirst, succeeds_bind, succeeds_orThrow]
  refine exists_congr fun user => and_congr_right fun _ => ?_
  rw [succeeds_bind, roleOf, succeeds_findFirst, succeeds_bind, succeeds_orThrow]
  rfl

private theorem findMembership_succeeds {membershipId : Id} {post : MemberWithRelations → Pending rbac → Moment rbac → Prop} :
    (findMembership tenantId membershipId).Succeeds none moment post ↔
      ∃ membership, (moment.database.table .membership).rows.find? (inTenant tenantId membershipId) = some membership ∧
        (loadRelations membership).Succeeds none moment.tick post := by
  rw [findMembership, succeeds_bind, succeeds_findFirst, succeeds_bind, succeeds_orThrow]
  rfl

/-- The membership that is changed is found again, with its relations. -/
private theorem changed_found {membershipId : Id} {status : MembershipStatus} {membership : Membership} {before after : Moment rbac}
    (found : (before.database.table .membership).rows.find? (inTenant tenantId membershipId) = some membership)
    (related : (loadRelations membership).Succeeds none before fun _ _ _ => True)
    (changed : after.database = before.database.applyAll [.put .membership ((setStatus status).apply membership)]) :
    (loadRelations ((setStatus status).apply membership)).Succeeds none after (fun _ _ _ => True) ∧
      (findMembership tenantId membershipId).Succeeds none after fun _ _ _ => True := by
  have relations (later : Moment rbac) (changed : later.database =
      before.database.applyAll [.put .membership ((setStatus status).apply membership)]) :
      (loadRelations ((setStatus status).apply membership)).Succeeds none later fun _ _ _ => True := by
    rw [loadRelations_succeeds] at related ⊢
    obtain ⟨user, known, role, held, _⟩ := related
    have users : later.database.table .user = before.database.table .user := by
      rw [changed]
      exact Database.applyAll_other _ (by simp [Write.model])
    have roles : later.database.table .role = before.database.table .role := by
      rw [changed]
      exact Database.applyAll_other _ (by simp [Write.model])
    rw [users, roles]
    exact ⟨user, known, role, held, trivial⟩
  refine ⟨relations after changed, ?_⟩
  rw [findMembership_succeeds]
  have matched : inTenant tenantId membershipId membership = true := List.find?_some found
  refine ⟨(setStatus status).apply membership, ?_, relations after.tick changed⟩
  refine Table.find_filter (k := (membershipId : Nat)) _ (fun row listed => ?_) ?_ matched
  · simp only [inTenant, Bool.and_eq_true, decide_eq_true_eq] at listed
    exact listed.1
  · rw [changed]
    have named : membership.id = membershipId := by
      simp only [inTenant, Bool.and_eq_true, decide_eq_true_eq] at matched
      exact matched.1
    subst named
    exact Database.get_put _ _ _

private theorem assertNotLastActiveOwner_succeeds {message : String} {post : Unit → Pending rbac → Moment rbac → Prop}
    (succeeds : (assertNotLastActiveOwner tenantId message).Succeeds (some []) moment post) :
    post () (some []) moment.tick.tick := by
  rw [assertNotLastActiveOwner, succeeds_bind, succeeds_findMany, succeeds_bind, succeeds_lock, succeeds_throwIf] at succeeds
  exact succeeds.2

private theorem lockedUpdate_commits {membershipId : Id} {status : MembershipStatus} {membership : Membership} {message : String}
    {post : Membership → Pending rbac → Moment rbac → Prop}
    (found : (moment.database.table .membership).rows.find? (inTenant tenantId membershipId) = some membership)
    (succeeds : (transaction (do
      assertNotLastActiveOwner tenantId message
      update (S := rbac) .membership (inTenant tenantId membershipId) (setStatus status)) : RbacService Membership).Succeeds
        none moment post) :
    ∃ later, post ((setStatus status).apply membership) none later ∧
      later.database = moment.database.applyAll [.put .membership ((setStatus status).apply membership)] := by
  rw [succeeds_transaction, succeeds_bind] at succeeds
  obtain ⟨row, listed, _, holds⟩ := succeeds_update.mp (assertNotLastActiveOwner_succeeds succeeds)
  cases found.symm.trans listed
  exact ⟨_, holds, rfl⟩

private theorem storeStatus_unharmed {membershipId : Id} {status : MembershipStatus} {removingActiveOwner : Bool}
    {membership : Membership}
    (found : (moment.database.table .membership).rows.find? (inTenant tenantId membershipId) = some membership)
    (related : (loadRelations membership).Succeeds none moment fun _ _ _ => True) :
    (storeStatus removingActiveOwner tenantId membershipId status).Unharmed moment := by
  cases removingActiveOwner with
  | true =>
    refine Unharmed.completed (Atomic.transaction (assertNotLastActiveOwner_inside.bind fun _ => .send) moment) ?_
    intro post succeeds
    obtain ⟨later, holds, changed⟩ := lockedUpdate_commits found succeeds
    exact ⟨_, _, later, holds, (changed_found found related changed).2⟩
  | false =>
    refine Unharmed.completed (Atomic.query moment) fun post succeeds => ?_
    obtain ⟨row, listed, _, holds⟩ := succeeds_update.mp succeeds
    cases found.symm.trans listed
    exact ⟨_, _, _, holds, (changed_found found related rfl).1⟩

/-- What does not end with `clearMemo` only scans, or makes somebody a member. -/
theorem proceed_reading {normalizeEmail : String → String} {call : RbacCall} {actor : PermissionSnapshot}
    (kept : call.operation.clears = false) (other : ∀ dto, call.operation ≠ .createMember dto) :
    (call.proceed normalizeEmail actor).Reading := by
  obtain ⟨tenantId, actorUserId, operation⟩ := call
  cases operation with
  | listRoles => exact Reading.findMany.bind fun _ => Reading.findMany.bind fun _ => .pure
  | getRole roleId => exact findRole_reading.bind fun _ => Reading.orThrow.bind fun _ => .pure
  | listMembers => exact Reading.findMany.bind fun _ => (loadAllRelations_reading _).bind fun _ => .pure
  | getMember userId => exact Reading.findFirst.bind fun _ => Reading.orThrow.bind fun _ => loadRelations_reading.bind fun _ => .pure
  | createMember dto => exact absurd rfl (other dto)
  | _ => cases kept

theorem proceed_atomic {normalizeEmail : String → String} {call : RbacCall} {actor : PermissionSnapshot} :
    (call.proceed normalizeEmail actor).Atomic := by
  obtain ⟨tenantId, actorUserId, operation⟩ := call
  cases operation with
  | createRole dto =>
    refine .afterReading .throwIf fun _ => .afterReading .throwIf fun _ => .afterReading resolvePermissions_reading fun _ =>
      .afterReading .throwIf fun _ => .answer (.rethrown mapped_fails (.transaction ?_))
    exact Inside.send.bind fun _ => (createGrants_inside _).bind fun _ => .pure
  | listRoles | getRole roleId | listMembers | getMember userId => exact .reading (proceed_reading rfl nofun)
  | updateRole roleId dto =>
    exact .afterReading existingRole_reading fun _ => .afterReading .throwIf fun _ => .answer .query
  | deleteRole roleId =>
    exact .afterReading existingRole_reading fun _ => .afterReading .throwIf fun _ => .afterReading .findMany fun _ =>
      .afterReading .throwIf fun _ => .answer (.rethrown mapped_fails .query)
  | assignPermissions roleId dto =>
    refine .afterReading existingRole_reading fun _ => .afterReading .throwIf fun _ =>
      .afterReading resolvePermissions_reading fun _ => .afterReading .throwIf fun _ => .answer (.transaction ?_)
    exact Inside.send.bind fun _ => createGrants_inside _
  | assignRoleToMembership dto =>
    exact .afterReading existingRole_reading fun _ => .afterReading .findFirst fun _ => .afterReading .orThrow fun _ =>
      .afterReading .findFirst fun _ => .afterReading .throwIf fun _ => .afterReading .throwIf fun _ => .answer storeRole_atomic
  | updateMemberStatus membershipId dto =>
    refine fun moment => Unharmed.afterReading findMembership_reading fun post succeeds => ?_
    obtain ⟨membership, found, related⟩ := findMembership_succeeds.mp succeeds
    obtain ⟨user, known, role, held, holds⟩ := loadRelations_succeeds.mp related
    refine ⟨_, _, _, holds, fun _ rows => ?_⟩
    refine Unharmed.afterReading .throwIf fun post checked => ?_
    obtain ⟨_, passed⟩ := succeeds_throwIf.mp checked
    refine ⟨_, _, _, passed, fun _ _ => ?_⟩
    refine Unharmed.completed (storeStatus_unharmed found ?_) fun post stored => ?_
    · exact loadRelations_succeeds.mpr ⟨user, known, role, held, trivial⟩
    · obtain ⟨value, _, holds⟩ := succeeds_iff.mp stored
      exact ⟨value, _, _, holds, trivial⟩
  | createMember dto =>
    exact .afterReading resolveTargetRole_reading fun _ => .afterReading .orThrow fun _ => .afterReading .throwIf fun _ =>
      .answer (.rethrown mapped_fails (.transaction onboard_inside))

/-- The role that a request names, or the default role. -/
def targetRole (database : RbacDb) (tenantId : Id) : Option Id → Option Role
  | some roleId => (database.table .role).rows.find? (named tenantId roleId)
  | none => (database.table .role).rows.find? fun row => row.tenantId = tenantId && row.key = EMPLOYEE && row.isSystem

/-- The permissions of an active member with the role. -/
def bestowed (database : RbacDb) (role : Role) : PermissionSnapshot :=
  let grants := (database.table .rolePermission).rows.filter fun row => row.roleId = role.id
  let permissions := (database.table .permission).rows.filter fun row => row.id ∈ grants.map RolePermission.permissionId
  if role.key = OWNER then ⟨true, []⟩ else ⟨false, grantedKeys grants permissions⟩

/-- A user has become a member of the tenant, and has perhaps been created for that. -/
structure Onboarded (before after : RbacDb) (tenantId userId roleId : Id) (email : String) : Prop where
  absent : ((before.table .membership).rows.find? fun row : Membership => row.userId = userId && row.tenantId = tenantId) = none
  member : ∃ row : Membership, row.userId = userId ∧ row.tenantId = tenantId ∧ row.roleId = roleId ∧ row.status = .active ∧
    (before.table .membership).find row.id = none ∧ after.table .membership = (before.table .membership).put row
  identified : (∃ user ∈ (before.table .user).rows, User.id user = userId ∧ User.email user = email) ∨
    (before.table .user).find userId = none
  users : ∀ user ∈ (before.table .user).rows, user ∈ (after.table .user).rows
  roles : after.table .role = before.table .role
  grants : after.table .rolePermission = before.table .rolePermission
  permissions : after.table .permission = before.table .permission

/-- The membership is stored beside a user that is there or stored with it. -/
private theorem onboarded {writes : List (Write rbac)} {email : String} {id now : Nat} {before : RbacDb}
    (created : writes = [] ∧ (∃ user ∈ (before.table .user).rows, User.id user = userId ∧ User.email user = email) ∨
      ∃ user : User, writes = [.put .user user] ∧ user.id = userId ∧ (before.table .user).find userId = none)
    (absent : (((before.applyAll writes).table .membership).rows.find? fun row : Membership =>
      row.userId = userId && row.tenantId = tenantId) = none)
    (fresh : (before.applyAll writes).get .membership (newMembership tenantId userId roleId id now).id = none) :
    Onboarded before (before.applyAll (writes ++ [.put .membership (newMembership tenantId userId roleId id now)]))
      tenantId userId roleId email := by
  have only : ∀ write ∈ writes, write.model = .user := by
    rcases created with ⟨rfl, _⟩ | ⟨user, rfl, _⟩
    · simp
    · exact fun write member => by rw [List.mem_singleton.mp member]; rfl
  have same (m : RbacModel) (other : m ≠ .user) : (before.applyAll writes).table m = before.table m :=
    Database.applyAll_other _ fun write member => by rw [only write member]; exact other.symm
  have after (m : RbacModel) (other : m ≠ .membership) :
      (before.applyAll (writes ++ [.put .membership (newMembership tenantId userId roleId id now)])).table m =
        (before.applyAll writes).table m := by
    rw [Database.applyAll_append]
    refine Database.applyAll_other _ fun write member => ?_
    rw [List.mem_singleton.mp member]
    exact other.symm
  have members := same .membership (by decide)
  rw [members] at absent
  rw [Database.get, members] at fresh
  refine ⟨absent, ⟨_, rfl, rfl, rfl, rfl, fresh, ?_⟩, ?_, fun user member => ?_, ?_, ?_, ?_⟩
  · rw [Database.applyAll_append, ← members]
    exact Write.apply_put_same ..
  · rcases created with ⟨_, found⟩ | ⟨_, _, _, unknown⟩
    · exact .inl found
    · exact .inr unknown
  · rw [after .user (by decide)]
    rcases created with ⟨rfl, _⟩ | ⟨new, rfl, named, unknown⟩
    · exact member
    · have stored : (before.applyAll [.put .user new]).table .user = (before.table .user).put new := Write.apply_put_same ..
      rw [stored, Table.mem_put]
      refine .inr ⟨member, fun clash => ?_⟩
      have found := Table.find_eq_some.mpr ⟨member, clash.trans named⟩
      cases found.symm.trans unknown
  · rw [after .role (by decide), same .role (by decide)]
  · rw [after .rolePermission (by decide), same .rolePermission (by decide)]
  · rw [after .permission (by decide), same .permission (by decide)]

private theorem onboard_commits {normalizeEmail : String → String} {actorUserId : Id} {dto : CreateMemberDto}
    {post : MemberSummary → Pending rbac → Moment rbac → Prop}
    (succeeds : (transaction (onboard normalizeEmail tenantId actorUserId roleId dto)).Succeeds none moment post) :
    ∃ summary userId later, post summary none later ∧
      Onboarded moment.database later.database tenantId userId roleId (normalizeEmail dto.email) := by
  rw [succeeds_transaction, onboard, succeeds_bind, upsertUser, succeeds_bind, succeeds_findFirst] at succeeds
  have member (user : User) (writes : List (Write rbac)) (current : Moment rbac) (rows : current.database = moment.database)
      (created : writes = [] ∧ (∃ other ∈ (moment.database.table .user).rows, User.id other = user.id ∧
          User.email other = normalizeEmail dto.email) ∨
        ∃ other : User, writes = [.put .user other] ∧ other.id = user.id ∧ (moment.database.table .user).find user.id = none)
      (succeeds : (do
        throwIf (user.id = actorUserId) (.forbidden SELF_MEMBERSHIP)
        let existing ← findFirst (S := rbac) .membership fun row => row.userId = user.id && row.tenantId = tenantId
        throwIf existing.isSome (.conflict ALREADY_MEMBER)
        let created ← create (S := rbac) .membership (newMembership tenantId user.id roleId)
        let member ← loadRelations created
        pure (toSummary member) : RbacService MemberSummary).Succeeds (some writes) current fun value pending later =>
          post value none (later.commit (pending.getD [])).tick) :
      ∃ summary userId later, post summary none later ∧
        Onboarded moment.database later.database tenantId userId roleId (normalizeEmail dto.email) := by
    rw [succeeds_bind, succeeds_throwIf] at succeeds
    have succeeds := succeeds.2
    rw [succeeds_bind, succeeds_findFirst, succeeds_bind, succeeds_throwIf] at succeeds
    obtain ⟨absent, succeeds⟩ := succeeds
    rw [succeeds_bind, succeeds_create] at succeeds
    obtain ⟨fresh, _, succeeds⟩ := succeeds
    obtain ⟨summary, later, holds, kept⟩ := Reading.succeeds (loadRelations_reading.bind fun _ => .pure) succeeds
    rw [← rows] at created ⊢
    refine ⟨summary, user.id, _, holds, ?_⟩
    have committed : (later.commit (writes ++ [.put .membership (newMembership tenantId user.id roleId current.tick.stamp
        current.tick.clock)])).tick.database = current.database.applyAll (writes ++ [.put .membership
          (newMembership tenantId user.id roleId current.tick.stamp current.tick.clock)]) := by
      change later.database.applyAll _ = _
      rw [kept]
      rfl
    rw [Option.getD_some, committed]
    exact onboarded created (Option.not_isSome_iff_eq_none.mp (Bool.eq_false_iff.mp absent)) fresh
  split at succeeds
  next user found =>
    have matched := List.find?_some found
    refine member user [] moment.tick.tick rfl (.inl ⟨rfl, user, List.mem_of_find?_eq_some found, rfl, ?_⟩) succeeds
    exact of_decide_eq_true matched
  next =>
    rw [succeeds_create] at succeeds
    obtain ⟨fresh, _, succeeds⟩ := succeeds
    exact member ⟨moment.tick.tick.stamp, normalizeEmail dto.email, dto.firstName, dto.lastName⟩ [_] moment.tick.tick.tick rfl
      (.inr ⟨_, rfl, rfl, fresh⟩) succeeds

/-- The permissions of others are not touched, and the new member gets those of the role. -/
theorem Onboarded.snapshot {before after : RbacDb} {email : String} {role : Role}
    (onboarded : Onboarded before after tenantId userId role.id email)
    (found : role ∈ (before.table .role).rows ∧ role.tenantId = tenantId) (other : Id) :
    snapshotIn after tenantId other = if other = userId then bestowed before role else snapshotIn before tenantId other := by
  obtain ⟨row, user, tenant, given, active, fresh, stored⟩ := onboarded.member
  rw [snapshotIn, stored, onboarded.roles, onboarded.grants, onboarded.permissions]
  by_cases same : other = userId
  · subst same
    have listed : ((before.table .membership).put row).rows.find? (fun row => row.userId = other && row.tenantId = tenantId) =
        some row := by
      have present : row ∈ ((before.table .membership).put row).rows := Table.mem_put.mpr (.inl rfl)
      cases first : ((before.table .membership).put row).rows.find? fun row => row.userId = other && row.tenantId = tenantId with
      | none =>
        have unmatched := List.find?_eq_none.mp first row present
        simp [user, tenant] at unmatched
      | some found =>
        rcases Table.mem_put.mp (List.mem_of_find?_eq_some first) with same | ⟨old, _⟩
        · rw [same]
        · exact absurd (List.find?_some first) (List.find?_eq_none.mp onboarded.absent found old)
    have held : ((before.table .role).rows.find? fun other : Role => other.id = row.roleId && other.tenantId = row.tenantId) =
        some role := by
      refine Table.find_filter (k := (role.id : Nat)) _ (fun candidate matched => ?_) (Table.find_eq_some.mpr ⟨found.1, rfl⟩) ?_
      · simp only [Bool.and_eq_true, decide_eq_true_eq] at matched
        exact matched.1.trans given
      · simp [given, tenant, found.2]
    rw [listed, if_pos rfl]
    dsimp only
    rw [held, given, snapshotOf, active, bestowed]
    simp
  · have unlisted : ((before.table .membership).put row).rows.find? (fun row => row.userId = other && row.tenantId = tenantId) =
        (before.table .membership).rows.find? fun row => row.userId = other && row.tenantId = tenantId := by
      rw [← List.head?_filter, ← List.head?_filter]
      refine congrArg _ (Table.filter_put ?_ fun old replaced => ?_)
      · simp [user, Ne.symm same]
      · cases fresh.symm.trans replaced
    rw [unlisted, if_neg same, snapshotIn]

private theorem resolveTargetRole_succeeds {roleId : Option Id} {post : Option Role → Pending rbac → Moment rbac → Prop} :
    (resolveTargetRole tenantId roleId).Succeeds none moment post ↔
      post (targetRole moment.database tenantId roleId) none moment.tick := by
  cases roleId <;> exact succeeds_findFirst

theorem targetRole_found {requested : Option Id} {role : Role} (found : targetRole database tenantId requested = some role) :
    role ∈ (database.table .role).rows ∧ role.tenantId = tenantId := by
  cases requested with
  | some roleId =>
    have matched : named tenantId roleId role = true := List.find?_some found
    simp only [named, Bool.and_eq_true, decide_eq_true_eq] at matched
    exact ⟨List.mem_of_find?_eq_some found, matched.2⟩
  | none =>
    have matched := List.find?_some (l := (database.table .role).rows) found
    simp only [Bool.and_eq_true, decide_eq_true_eq] at matched
    exact ⟨List.mem_of_find?_eq_some found, matched.1.1⟩

/-- The user of a step exists. -/
def RequestStep.known (request : Request) : RequestStep → Prop
  | .permissions userId | .operation userId _ => ∃ user ∈ (request.moment.database.table .user).rows, User.id user = userId

/-- Where the actor may make somebody a member, nothing is memoised for that user
yet, or the user is a member already, or the role bestows no permission. -/
def Harmless (normalizeEmail : String → String) (request : Request) : RequestStep → Prop
  | .operation actorUserId (.createMember dto) =>
    ∀ role, targetRole request.moment.database request.context.tenantId dto.roleId = some role →
      satisfies (snapshotIn request.moment.database request.context.tenantId actorUserId) ⟨.all, [MEMBER_MANAGE]⟩ = true →
      (role.key = OWNER → (snapshotIn request.moment.database request.context.tenantId actorUserId).isOwner = true) →
      ∀ user ∈ (request.moment.database.table .user).rows, User.email user = normalizeEmail dto.email →
        request.context.cached user.id = none ∨
          (∃ row ∈ (request.moment.database.table .membership).rows,
            Membership.userId row = user.id ∧ row.tenantId = request.context.tenantId) ∨
          bestowed request.moment.database role = ⟨false, []⟩
  | _ => True

private theorem Request.Fresh.onboarded {context : TenantContextState} {before after : Moment rbac} {normalizeEmail : String → String}
    {actorUserId : Id} {dto : CreateMemberDto} {role : Role} (fresh : Request.Fresh ⟨context, before⟩)
    (found : targetRole before.database context.tenantId dto.roleId = some role)
    (stored : Onboarded before.database after.database context.tenantId userId role.id (normalizeEmail dto.email))
    (allowed : satisfies (snapshotIn before.database context.tenantId actorUserId) ⟨.all, [MEMBER_MANAGE]⟩ = true)
    (owner : role.key = OWNER → (snapshotIn before.database context.tenantId actorUserId).isOwner = true)
    (harmless : Harmless normalizeEmail ⟨context, before⟩ (.operation actorUserId (.createMember dto))) :
    Request.Fresh ⟨context, after⟩ := by
  refine ⟨fun other snapshot cached => ?_, fun other snapshot cached => ?_⟩
  · have current := fresh.current other snapshot cached
    change snapshot = snapshotIn after.database context.tenantId other
    rw [stored.snapshot (targetRole_found found)]
    split
    next same =>
      subst same
      have outsider : snapshotIn before.database context.tenantId other = ⟨false, []⟩ := by
        rw [snapshotIn, stored.absent]
      rcases stored.identified with ⟨user, present, rfl, email⟩ | unknown
      · rcases harmless role found allowed owner user present email with unasked | ⟨row, member, here, tenant⟩ | nothing
        · cases cached.symm.trans unasked
        · have unmatched := List.find?_eq_none.mp stored.absent row member
          simp [here, tenant] at unmatched
        · rw [current]
          exact outsider.trans nothing.symm
      · obtain ⟨user, present, same⟩ := fresh.known other snapshot cached
        cases (Table.find_eq_some.mpr ⟨present, same⟩).symm.trans unknown
    next => exact current
  · obtain ⟨user, present, same⟩ := fresh.known other snapshot cached
    exact ⟨user, stored.users user present, same⟩

theorem Request.Fresh.operation {normalizeEmail : String → String} {actorUserId : Id} {operation : RbacOperation}
    (fresh : request.Fresh) (known : ∃ user ∈ (request.moment.database.table .user).rows, User.id user = actorUserId)
    (harmless : Harmless normalizeEmail request (.operation actorUserId operation)) :
    (serve normalizeEmail request actorUserId operation).2.Fresh := by
  obtain ⟨context, later, tenant, rows, loaded, current, same⟩ := fresh.permissions known
  have harmless : Harmless normalizeEmail ⟨context, later⟩ (.operation actorUserId operation) := by
    cases operation with
    | createMember dto =>
      simp only [Harmless, tenant, rows] at harmless ⊢
      intro role found allowed owner user present email
      rcases harmless role found allowed owner user present email with unasked | refused
      · by_cases self : user.id = actorUserId
        · refine .inr (.inl ?_)
          rw [snapshotIn] at allowed
          split at allowed
          next => cases allowed
          next row listed =>
            have matched := List.find?_some listed
            simp only [Bool.and_eq_true, decide_eq_true_eq] at matched
            exact ⟨row, List.mem_of_find?_eq_some listed, matched.1.trans self.symm, matched.2⟩
        · exact .inl ((same _ self).trans unasked)
      · exact .inr refused
    | _ => trivial
  rw [← tenant, ← rows] at loaded
  rw [serve, loaded]
  dsimp only
  generalize checked : (throwIf (!satisfies (snapshotIn later.database context.tenantId actorUserId)
    ⟨.all, [operation.permission]⟩) (.forbidden INSUFFICIENT_PERMISSIONS) >>= fun _ =>
      RbacCall.proceed normalizeEmail ⟨context.tenantId, actorUserId, operation⟩
        (snapshotIn later.database context.tenantId actorUserId) : RbacService RbacResponse) = program
  have unharmed : program.Unharmed later := by
    rw [← checked]
    exact Atomic.afterReading .throwIf (fun _ => proceed_atomic) later
  have reached (value : RbacResponse) (ended : (program.evaluate none later).1 = .ok value) :
      program.Succeeds none later fun _ _ final => final = (program.evaluate none later).2.2 :=
    succeeds_iff.mpr ⟨value, ended, rfl⟩
  rw [Request.evaluate]
  rw [Unharmed] at unharmed
  generalize program.evaluate none later = outcome at unharmed reached ⊢
  rcases outcome with ⟨failure | response, after, final⟩
  · exact current.unchanged (unharmed failure rfl)
  · have succeeds := reached response rfl
    cases clears : operation.clears with
    | true => exact .cleared
    | false =>
      change Request.Fresh ⟨context, final⟩
      rw [← checked, succeeds_bind, succeeds_throwIf, Bool.not_eq_false'] at succeeds
      obtain ⟨allowed, succeeds⟩ := succeeds
      by_cases created : ∃ dto, operation = .createMember dto
      · obtain ⟨dto, rfl⟩ := created
        change Succeeds (resolveTargetRole context.tenantId dto.roleId >>= _) _ _ _ at succeeds
        rw [succeeds_bind, resolveTargetRole_succeeds, succeeds_bind, succeeds_orThrow] at succeeds
        obtain ⟨role, found, succeeds⟩ := succeeds
        rw [succeeds_bind, succeeds_throwIf] at succeeds
        obtain ⟨owner, succeeds⟩ := succeeds
        rw [succeeds_bind, mapAlreadyMember, succeeds_tryCatch mapped_fails] at succeeds
        obtain ⟨summary, userId, last, rfl, stored⟩ := onboard_commits succeeds
        refine current.onboarded found stored allowed (fun same => ?_) harmless
        simpa [same] using owner
      · obtain ⟨_, last, rfl, rows⟩ := Reading.succeeds (proceed_reading clears fun dto same => created ⟨dto, same⟩) succeeds
        exact current.unchanged rows

/-- The states of a request in which every step is one of an existing user and harmless. -/
inductive Request.Serves (normalizeEmail : String → String) (permitted : Request → RequestStep → Prop) (start : Request) :
    Request → Prop where
  | start : Serves normalizeEmail permitted start start
  | step {request : Request} (step : RequestStep) (served : Serves normalizeEmail permitted start request)
      (known : step.known request) (allowed : permitted request step) :
      Serves normalizeEmail permitted start (request.after normalizeEmail step)

theorem Request.Serves.fresh {normalizeEmail : String → String} {start : Request} (empty : start.context.memo = [])
    (served : Serves normalizeEmail (Harmless normalizeEmail) start request) : request.Fresh := by
  induction served with
  | start =>
    have absent (userId : Id) : start.context.cached userId = none := by rw [TenantContextState.cached, empty]; rfl
    refine ⟨fun userId snapshot cached => ?_, fun userId snapshot cached => ?_⟩
    · cases (absent userId).symm.trans cached
    · cases (absent userId).symm.trans cached
  | step step served known harmless ih =>
    cases step with
    | permissions userId =>
      obtain ⟨context, later, _, _, loaded, fresh, _⟩ := ih.permissions known
      rw [Request.after, loaded]
      exact fresh
    | operation actorUserId operation => exact ih.operation known harmless

/-- In a request that makes nobody a member whose missing permissions have been
memoised, the permissions of every user are at any time those that would be loaded. -/
theorem permissions_current (normalizeEmail : String → String) (tenantId : Id) (moment : Moment rbac) (request : Request)
    (served : Request.Serves normalizeEmail (Harmless normalizeEmail) ⟨{ tenantId }, moment⟩ request) (userId : Id)
    (known : (RequestStep.permissions userId).known request) :
    (getPermissions request userId).1 = (request.evaluate (loadSnapshot request.context.tenantId userId)).1 := by
  obtain ⟨_, _, _, _, current, _⟩ := (served.fresh rfl).permissions known
  obtain ⟨_, _, loaded⟩ := evaluate_loadSnapshot request request.context.tenantId userId
  rw [current, loaded]

/-- A tenant with its owner, a role that grants something, and a user from outside. -/
def hiring : Request where
  context := { tenantId := 0 }
  moment :=
    { database := ⟨fun
        | .user => ⟨[⟨3, "owner@shop", none, none⟩, ⟨5, "clerk@shop", none, none⟩], by decide⟩
        | .membership => ⟨[⟨4, 0, 3, 1, .active, 0⟩], by decide⟩
        | .role => ⟨[⟨1, 0, OWNER, "Owner", none, true, 0⟩, ⟨2, 0, "auditor", "Auditor", none, false, 0⟩], by decide⟩
        | .permission => ⟨[⟨"perm_role_read", ROLE_READ, "Read roles"⟩], by decide⟩
        | .rolePermission => ⟨[⟨2, "perm_role_read"⟩], by decide⟩⟩
      stamp := 100
      clock := 0 }

/-- The permissions of the outsider are asked for, and then somebody is hired. -/
def hire (email : String) : List RequestStep :=
  [.permissions 5, .operation 3 (.createMember { email, roleId := some 2 })]

def hired (email : String) : Request := (hire email).foldl (Request.after id) hiring

/-- Somebody else is hired, and has the permissions of the role. -/
theorem permissions_current_hired : (getPermissions (hired "new@shop") 108).1 = .ok ⟨false, [ROLE_READ]⟩ ∧
    (getPermissions (hired "new@shop") 108).1 = ((hired "new@shop").evaluate (loadSnapshot 0 108)).1 := by
  refine ⟨by decide +kernel, permissions_current id 0 hiring.moment (hired "new@shop") ?_ 108 ?_⟩
  · refine .step (.operation 3 (.createMember ⟨"new@shop", none, none, some 2⟩)) (.step (.permissions 5) .start ?_ trivial) ?_ ?_
    · exact ⟨⟨5, "clerk@shop", none, none⟩, by decide, rfl⟩
    · exact ⟨⟨3, "owner@shop", none, none⟩, by decide +kernel, rfl⟩
    · intro role found allowed owner user present email
      have unknown : ∀ user ∈ ((Request.after id hiring (.permissions 5)).moment.database.table .user).rows,
          User.email user ≠ "new@shop" := by decide +kernel
      exact absurd email (unknown user present)
  · exact ⟨⟨108, "new@shop", none, none⟩, by decide +kernel, rfl⟩

/-- The outsider is hired, and still has no permissions in this request. -/
theorem permissions_stale : (getPermissions (hired "clerk@shop") 5).1 = .ok ⟨false, []⟩ ∧
    ((hired "clerk@shop").evaluate (loadSnapshot 0 5)).1 = .ok ⟨false, [ROLE_READ]⟩ := by
  decide +kernel

end BusinessPlatform.Rbac
