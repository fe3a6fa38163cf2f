import BusinessPlatform.PosSessionService
import BusinessPlatform.Engine.Faults

/-! The shifts of all devices over whole runs. -/

namespace BusinessPlatform.PosSessionService
open Engine

variable {ι : Type} [DecidableEq ι] {calls : ι → SessionCall} {i : ι} {world before after : SessionWorld ι}
  {writes : List (Write sessions)} {tenantId userId deviceId id : Id}

/-- The call has sent a query, and this held of the rows when it did. -/
def Met (i : ι) (world : SessionWorld ι) (access : SessionModel × Operation) (fact : Database sessions → Prop) : Prop :=
  ∃ attempt ∈ world.trace, attempt.author = some i ∧ attempt.access = some access ∧ fact attempt.before

/-- The device is one of the tenant in one of the statuses. -/
def Known (tenantId deviceId : Id) (status : DeviceStatus → Prop) (device : PosDevice) (db : Database sessions) : Prop :=
  db.get .posDevice deviceId = some device ∧ device.tenantId = tenantId ∧ status device.status

def Occupied (deviceId : Id) (db : Database sessions) : Prop :=
  ∃ other ∈ (db.table .posSession).rows, other.deviceId = deviceId ∧ other.status = .opened

/-- Shifts are opened on a device that has been read ACTIVE and is free, and OPEN
ones of the tenant are closed. -/
inductive SessionCommits (i : ι) (world : SessionWorld ι) : SessionCall → List (Write sessions) → Prop where
  | opened {tenantId userId deviceId : Id} (device : PosDevice) (openedAt id createdAt : Nat)
      (read : Met i world (.posDevice, .find) (Known tenantId deviceId (· = .active) device))
      (fresh : world.database.get .posSession id = none) (stamped : id = world.trace.length)
      (free : ¬ Occupied deviceId world.database) :
      SessionCommits i world (.openSession tenantId userId deviceId)
        [.put .posSession (openedSession tenantId userId device openedAt id createdAt)]
  | closed {tenantId id : Id} {row : PosSession} (closedAt : Nat) (found : world.database.get .posSession id = some row)
      (tenant : row.tenantId = tenantId) (live : row.status = .opened) (ordered : row.openedAt ≤ closedAt) :
      SessionCommits i world (.closeSession tenantId id) [.put .posSession ((setClosed closedAt).apply row)]

/-- A call commits once. Others maintain the devices. -/
def lawfulSessions (calls : ι → SessionCall) : Guarantee sessions ι
  | some i, world, writes => world.own i = [] ∧ SessionCommits i world (calls i) writes
  | none, _, writes => ∀ write ∈ writes, write.model = .posDevice

omit [DecidableEq ι] in
theorem Met.grows {rely : Guarantee sessions ι} {access : SessionModel × Operation} {fact : Database sessions → Prop}
    (met : Met i before access fact) (grows : Grows rely before after) : Met i after access fact := by
  obtain ⟨attempt, member, facts⟩ := met
  exact ⟨attempt, Grows.member grows member, facts⟩

/-- What may have become of a session: it keeps its shift, and once CLOSED it stays
as it is. -/
structure Follows (before after : PosSession) : Prop where
  shift : (after.tenantId, after.deviceId, after.storeId, after.userId, after.openedAt, after.createdAt) =
    (before.tenantId, before.deviceId, before.storeId, before.userId, before.openedAt, before.createdAt)
  closed : before.status = .closed → after = before

theorem Follows.refl (session : PosSession) : Follows session session := ⟨rfl, fun _ => rfl⟩

theorem Follows.trans {first middle last : PosSession} (early : Follows first middle) (late : Follows middle last) :
    Follows first last := by
  refine ⟨late.shift.trans early.shift, fun closed => ?_⟩
  obtain rfl := early.closed closed
  exact late.closed closed

omit [DecidableEq ι] in
/-- A commit of a call stores one session, which is new or follows what it was. -/
theorem SessionCommits.stores {call : SessionCall} (commits : SessionCommits i world call writes) :
    ∃ session, writes = [.put .posSession session] ∧
      ∀ row, world.database.get .posSession session.id = some row → row.status = .opened ∧ Follows row session := by
  cases commits with
  | opened device openedAt id createdAt read fresh =>
    refine ⟨_, rfl, fun row stored => ?_⟩
    cases fresh.symm.trans stored
  | @closed _ id row closedAt found tenant live =>
    refine ⟨_, rfl, fun old stored => ?_⟩
    obtain rfl : row.id = id := (Table.find_eq_some.mp found).2
    cases stored.symm.trans found
    exact ⟨live, rfl, fun closed => absurd (live.symm.trans closed) (by decide)⟩

private theorem others_apart (allowed : ∀ write ∈ writes, write.model = SessionModel.posDevice) :
    ∀ write ∈ writes, write.model ≠ SessionModel.posSession := fun write member => by
  rw [allowed write member]
  decide

theorem lawfulSessions.keeps : Keeps (lawfulSessions calls) .posSession Follows := by
  intro author world writes lawful
  cases author with
  | none =>
    refine ⟨erasesOf_other (others_apart lawful), fun row member => ?_⟩
    rw [putsOf_other (others_apart lawful)] at member
    cases member
  | some i =>
    obtain ⟨session, rfl, follows⟩ := lawful.2.stores
    refine ⟨rfl, fun row member old found => ?_⟩
    cases List.mem_singleton.mp member
    exact (follows old found).2

theorem Grows.follows (grows : Grows (lawfulSessions calls) before after) {session : PosSession}
    (found : before.database.get .posSession id = some session) :
    ∃ later, after.database.get .posSession id = some later ∧ Follows session later := by
  obtain ⟨later, now, path⟩ := Grows.row lawfulSessions.keeps grows found
  refine ⟨later, now, ?_⟩
  clear now
  induction path with
  | refl => exact .refl session
  | tail _ step ih => exact ih.trans step

theorem Grows.closed (grows : Grows (lawfulSessions calls) before after) {session : PosSession}
    (found : before.database.get .posSession id = some session) (closed : session.status = .closed) :
    after.database.get .posSession id = some session := by
  obtain ⟨later, now, follows⟩ := Grows.follows grows found
  rw [now, follows.closed closed]

/-- Sessions are older than the world. -/
def Drawn (world : SessionWorld ι) : Prop :=
  ∀ row ∈ (world.database.table .posSession).rows, row.id < world.trace.length

omit [DecidableEq ι] in
theorem Drawn.fresh (drawn : Drawn world) : world.database.get .posSession world.trace.length = none := by
  cases found : world.database.get .posSession world.trace.length with
  | none => rfl
  | some row =>
    obtain ⟨member, key⟩ := Table.find_eq_some.mp found
    have earlier := drawn row member
    rw [show row.id = world.trace.length from key] at earlier
    exact absurd earlier (Nat.lt_irrefl _)

theorem Drawn.grows (drawn : Drawn before) (grows : Grows (lawfulSessions calls) before after) : Drawn after := by
  refine Grows.invariant Drawn grows drawn (fun world label writes _ drawn lawful row member => ?_)
    (fun _ _ drawn row member => Nat.lt_succ_of_lt (drawn row member)) fun _ _ drawn => drawn
  rw [World.record_trace, List.length_cons]
  refine Nat.lt_succ_of_le ?_
  rcases Database.get_found _ (Table.find_eq_some.mpr ⟨member, rfl⟩) with stored | there
  · generalize label.author = author at lawful
    cases author with
    | none =>
      rw [putsOf_other (others_apart lawful)] at stored
      cases stored
    | some i =>
      obtain ⟨_, commits⟩ := lawful
      generalize calls i = call at commits
      cases commits with
      | opened device openedAt id createdAt read fresh stamped =>
        cases List.mem_singleton.mp stored
        exact Nat.le_of_eq stamped
      | @closed _ id old closedAt found =>
        cases List.mem_singleton.mp stored
        exact Nat.le_of_lt (drawn old (Table.find_eq_some.mp found).1)
  · exact Nat.le_of_lt (drawn row (Table.find_eq_some.mp there).1)

/-- The session is not one of the tenant that is OPEN. -/
def Unopened (tenantId id : Id) (status : SessionStatus → Prop) (db : Database sessions) : Prop :=
  ∀ row, db.get .posSession id = some row → row.tenantId = tenantId → status row.status

/-- What a call answers with, and what it has committed by then. -/
inductive Gives (i : ι) (world : SessionWorld ι) : SessionCall → PosSessionSummary → Prop where
  | opened {tenantId userId deviceId : Id} (device : PosDevice) (openedAt id createdAt : Nat)
      (read : Met i world (.posDevice, .find) (Known tenantId deviceId (· = .active) device))
      (own : world.own i = [[.put .posSession (openedSession tenantId userId device openedAt id createdAt)]]) :
      Gives i world (.openSession tenantId userId deviceId)
        (toSummary (openedSession tenantId userId device openedAt id createdAt))
  | shown {tenantId id : Id} (row : PosSession) (tenant : row.tenantId = tenantId)
      (read : Met i world (.posSession, .find) fun db => db.get .posSession id = some row) (own : world.own i = []) :
      Gives i world (.getSession tenantId id) (toSummary row)
  | closed {tenantId id : Id} (row : PosSession) (tenant : row.tenantId = tenantId) (closed : row.status = .closed)
      (found : world.database.get .posSession id = some row) (own : world.own i = [[.put .posSession row]]) :
      Gives i world (.closeSession tenantId id) (toSummary row)

/-- Why a call is refused: what its deciding query has met. -/
inductive Refused (i : ι) (world : SessionWorld ι) : SessionCall → HttpException → Prop where
  | unknownDevice {tenantId userId deviceId : Id}
      (missing : Met i world (.posDevice, .find) fun db => ∀ device, ¬ Known tenantId deviceId (fun _ => True) device db) :
      Refused i world (.openSession tenantId userId deviceId) (.notFound DEVICE_NOT_FOUND)
  | inactiveDevice {tenantId userId deviceId : Id} (device : PosDevice)
      (read : Met i world (.posDevice, .find) (Known tenantId deviceId (· ≠ .active) device)) :
      Refused i world (.openSession tenantId userId deviceId) (.conflict DEVICE_NOT_ACTIVE)
  | occupied {tenantId userId deviceId : Id} (taken : Met i world (.posSession, .create) (Occupied deviceId)) :
      Refused i world (.openSession tenantId userId deviceId) (.conflict ALREADY_OPEN)
  | unknown {tenantId id : Id}
      (missing : Met i world (.posSession, .find) (Unopened tenantId id fun _ => False)) :
      Refused i world (.getSession tenantId id) (.notFound SESSION_NOT_FOUND)
  | unknownToClose {tenantId id : Id}
      (missing : Met i world (.posSession, .updateMany) (Unopened tenantId id fun _ => False)) :
      Refused i world (.closeSession tenantId id) (.notFound SESSION_NOT_FOUND)
  | unopened {tenantId id : Id} (met : Met i world (.posSession, .updateMany) (Unopened tenantId id (· = .closed))) :
      Refused i world (.closeSession tenantId id) (.conflict NOT_OPEN)

/-- A call that throws has committed nothing, for the reason that it tells. -/
def Answered (i : ι) (call : SessionCall) (result : Except (Failure HttpException) PosSessionSummary)
    (world : SessionWorld ι) : Prop :=
  match result with
  | .ok summary => Gives i world call summary
  | .error (.thrown exception) => world.own i = [] ∧ Refused i world call exception
  | .error _ => True

abbrev SessionPost (i : ι) (call : SessionCall) : Post sessions HttpException PosSessionSummary ι :=
  fun result session world => session = none ∧ Answered i call result world

variable {call : SessionCall} {α : Type}

omit [DecidableEq ι] in
private theorem found_session {row : PosSession} (member : row ∈ (world.database.table .posSession).rows)
    (named : sessionNamed tenantId id row = true) :
    world.database.get .posSession id = some row ∧ row.tenantId = tenantId := by
  simp only [sessionNamed, Bool.and_eq_true, decide_eq_true_eq] at named
  exact ⟨Table.find_eq_some.mpr ⟨member, named.1⟩, named.2⟩

omit [DecidableEq ι] in
private theorem unnamed_session {rows : List PosSession} (db : Database sessions)
    (listed : rows.Perm ((db.table .posSession).rows.filter (sessionNamed tenantId id))) (head : rows.head? = none) :
    Unopened tenantId id (fun _ => False) db := by
  intro row found tenant
  obtain ⟨member, key⟩ := Table.find_eq_some.mp found
  have unmatched := listed_none listed head row member
  have key : row.id = id := key
  simp [sessionNamed, key, tenant] at unmatched

private theorem getSession_safe {commits : Commits sessions ι} (own : world.own i = []) :
    Safe commits (lawfulSessions calls) i (SessionPost i (.getSession tenantId id)) (getSession tenantId id) none world := by
  refine Safe.lookup (fun after _ => ⟨⟨rfl, trivial⟩, rfl, trivial⟩) fun w₁ rows l₁ listed => ?_
  have unwritten : (w₁.reads i .posSession rows false).own i = [] := by
    rw [World.own_record_empty, Idle.own (Later.idle l₁), own]
  have met (fact : Database sessions → Prop) (holds : fact w₁.database) :
      Met i (w₁.reads i .posSession rows false) (.posSession, .find) fact :=
    ⟨_, List.mem_cons_self .., rfl, rfl, holds⟩
  cases head : rows.head? with
  | none =>
    refine Safe.done fun w₂ l₂ => ⟨rfl, (Idle.own (Later.idle l₂)).trans unwritten, .unknown ?_⟩
    exact (met _ (unnamed_session _ listed head)).grows l₂.grows
  | some row =>
    obtain ⟨member, named⟩ := listed_head listed head
    obtain ⟨found, tenant⟩ := found_session member named
    refine Safe.done fun w₂ l₂ => ⟨rfl, .shown row tenant ((met _ found).grows l₂.grows) ?_⟩
    exact (Idle.own (Later.idle l₂)).trans unwritten

omit [DecidableEq ι] in
theorem clash_openedSession {db : Database sessions} {device : PosDevice} {openedAt stamp clock : Nat}
    (fresh : db.get .posSession stamp = none) :
    clash (S := sessions) (db.table .posSession) (openedSession tenantId userId device openedAt stamp clock) = none ↔
      ¬ Occupied device.id db := by
  constructor
  · rintro free ⟨other, member, sameDevice, live⟩
    have own : SessionModel.Index.openOnDevice device.id ∈
        SessionModel.indexes (m := .posSession) (openedSession tenantId userId device openedAt stamp clock) := by
      simp [openedSession, SessionModel.indexes]
    have key : other.id = stamp := clash_none (S := sessions) free own member (by simp [SessionModel.indexes, live, sameDevice])
    exact Table.find_eq_none.mp fresh other member key
  · intro free
    rw [clash, List.find?_eq_none]
    intro entry listed taken
    obtain ⟨other, member, held⟩ := List.any_eq_true.mp taken
    simp only [openedSession, SessionModel.indexes, if_pos, List.mem_singleton] at listed
    subst listed
    simp only [SessionModel.indexes, Bool.and_eq_true, decide_eq_true_eq] at held
    refine free ⟨other, member, ?_⟩
    obtain ⟨_, inside⟩ := held
    split at inside
    next live =>
      have same := List.mem_singleton.mp (of_decide_eq_true inside)
      exact ⟨(SessionModel.Index.openOnDevice.inj same).symm, live⟩
    next => cases of_decide_eq_true inside

omit [DecidableEq ι] in
private theorem unthrown {rely : Guarantee sessions ι} [DecidableEq ι] :
    Fails rely i (fun _ => False) (SessionPost i call) false world := by
  intro failure _ _ kind outside _
  cases failure with
  | thrown exception => cases kind exception rfl
  | _ => exact ⟨outside rfl, trivial⟩

omit [DecidableEq ι] in
/-- A refused insertion has met an OPEN session, or its error is none of an index. -/
private theorem create_refused {db : Database sessions} {device : PosDevice} {openedAt stamp clock : Nat} {order : List Nat}
    {error : DatabaseError} (fresh : db.get .posSession stamp = none)
    (executed : (Query.create (S := sessions) .posSession (openedSession tenantId userId device openedAt)).exec stamp clock
      order db = .error error) : isP2002 (.database error) = true → Occupied device.id db := by
  intro violated
  rcases Query.exec_create_error executed with ⟨present, _⟩ | ⟨_, refused⟩
  · have absent : db.get .posSession (sessions.key (openedSession tenantId userId device openedAt stamp clock)) = none := fresh
    rw [absent] at present
    cases present
  · rcases constrain_error refused with ⟨entry, taken, rfl⟩ | ⟨_, rfl⟩ | ⟨_, rfl⟩ | ⟨_, _, _, rfl⟩
    · by_contra free
      cases taken.symm.trans ((clash_openedSession fresh).mpr free)
    all_goals cases violated

private theorem openSession_safe (own : world.own i = [])
    (drawn : Drawn world) :
    Safe (fun world writes => world.own i = [] ∧ SessionCommits i world (.openSession tenantId userId deviceId) writes)
      (lawfulSessions calls) i (SessionPost i (.openSession tenantId userId deviceId))
      (openSession tenantId userId deviceId) none world := by
  have stalls (world : SessionWorld ι) :
      Stalls (lawfulSessions calls) i (SessionPost i (.openSession tenantId userId deviceId)) world :=
    fun _ _ => ⟨⟨rfl, trivial⟩, rfl, trivial⟩
  refine Safe.lookup (stalls _) fun w₁ rows l₁ listed => ?_
  have unwritten : (w₁.reads i .posDevice rows false).own i = [] := by
    rw [World.own_record_empty, Idle.own (Later.idle l₁), own]
  have met (fact : Database sessions → Prop) (holds : fact w₁.database) :
      Met i (w₁.reads i .posDevice rows false) (.posDevice, .find) fact :=
    ⟨_, List.mem_cons_self .., rfl, rfl, holds⟩
  have refused {exception : HttpException}
      (reason : ∀ after, Later (lawfulSessions calls) i [] (w₁.reads i .posDevice rows false) after →
        Refused i after (.openSession tenantId userId deviceId) exception) :
      Safe (fun world writes => world.own i = [] ∧ SessionCommits i world (.openSession tenantId userId deviceId) writes)
        (lawfulSessions calls) i (SessionPost i (.openSession tenantId userId deviceId))
        (.done (.error (.thrown exception))) none (w₁.reads i .posDevice rows false) :=
    Safe.done fun w₂ l₂ => ⟨rfl, (Idle.own (Later.idle l₂)).trans unwritten, reason w₂ l₂⟩
  cases head : rows.head? with
  | none =>
    refine refused fun w₂ l₂ => .unknownDevice ((met _ ?_).grows l₂.grows)
    rintro device ⟨found, tenant, _⟩
    obtain ⟨member, key⟩ := Table.find_eq_some.mp found
    have unmatched := listed_none listed head device member
    have key : device.id = deviceId := key
    simp [deviceNamed, key, tenant] at unmatched
  | some device =>
    obtain ⟨member, named⟩ := listed_head listed head
    simp only [deviceNamed, Bool.and_eq_true, decide_eq_true_eq] at named
    have found : w₁.database.get .posDevice deviceId = some device := Table.find_eq_some.mpr ⟨member, named.1⟩
    refine Safe.check (fun inactive => refused fun w₂ l₂ => ?_) fun active => ?_
    · exact .inactiveDevice device ((met _ ⟨found, named.2, of_decide_eq_true inactive⟩).grows l₂.grows)
    have read := met (Known tenantId deviceId (· = .active) device) ⟨found, named.2, by simpa using active⟩
    have first : Grows (lawfulSessions calls) world (w₁.reads i .posDevice rows false) := l₁.grows.tail (.empty _)
    generalize w₁.reads i .posDevice rows false = w₁' at unwritten read first
    obtain rfl : device.id = deviceId := named.1
    refine Safe.now unthrown fun w₂ l₂ _ => Safe.bind (Safe.tryCatch rfl ?_)
    have second := (first.trans l₂.grows).tail (.empty ⟨some i, none, [], false⟩)
    rw [← bind_pure (Program.create ..)]
    refine Safe.attempt (fun _ _ => ⟨Safe.done fun _ _ => ⟨rfl, trivial⟩, Safe.done fun _ _ => ⟨rfl, trivial⟩⟩) ?_ ?_
    · intro w₃ order error l₃ executed
      have occupied := create_refused (drawn.grows (second.trans l₃.grows)).fresh executed
      refine Safe.done fun w₄ l₄ => ?_
      simp only
      split
      next violated =>
        refine Safe.done fun w₅ l₅ => ⟨rfl, ?_, .occupied ?_⟩
        · rw [Idle.own (Later.idle l₅), Idle.own (Later.idle l₄), World.own_record_empty, Idle.own (Later.idle l₃),
            World.own_record_empty, Idle.own (Later.idle l₂), unwritten]
        · exact ⟨_, Grows.member (l₄.grows.trans l₅.grows) (List.mem_cons_self ..), rfl, rfl, occupied violated⟩
      next => exact Safe.done fun w₅ l₅ => ⟨rfl, trivial⟩
    · intro w₃ order outcome l₃ executed
      have fresh := (drawn.grows (second.trans l₃.grows)).fresh
      obtain ⟨rfl, created⟩ := Query.exec_create executed
      have none : w₃.own i = [] := by
        rw [Idle.own (Later.idle l₃), World.own_record_empty, Idle.own (Later.idle l₂), unwritten]
      have seen := read.grows ((l₂.grows.tail (.empty ⟨some i, .none, [], false⟩)).trans l₃.grows)
      refine ⟨.inr ⟨none, .opened device _ _ _ seen fresh rfl ((clash_openedSession fresh).mp created.free)⟩, ?_⟩
      refine Safe.done fun w₄ l₄ => Safe.done fun w₅ l₅ => ⟨rfl, .opened device w₂.clock w₃.trace.length w₃.clock ?_ ?_⟩
      · obtain ⟨attempt, member, facts⟩ := seen
        exact ⟨attempt, Grows.member (l₄.grows.trans l₅.grows) (List.mem_cons_of_mem _ member), facts⟩
      · rw [Idle.own (Later.idle l₅), Idle.own (Later.idle l₄)]
        exact World.own_record_same none rfl (List.cons_ne_nil _ _)

private theorem closeSession_safe (own : world.own i = []) :
    Safe (fun world writes => world.own i = [] ∧ SessionCommits i world (.closeSession tenantId id) writes)
      (lawfulSessions calls) i (SessionPost i (.closeSession tenantId id)) (closeSession tenantId id) none world := by
  have stalls (world : SessionWorld ι) : Stalls (lawfulSessions calls) i (SessionPost i (.closeSession tenantId id)) world :=
    fun _ _ => ⟨⟨rfl, trivial⟩, rfl, trivial⟩
  refine Safe.now unthrown fun w₁ l₁ _ => ?_
  refine Safe.updateUnique (k := id) ?_ unthrown ?_ ?_
  · intro row matched
    simp only [openNamed, sessionNamed, Bool.and_eq_true, decide_eq_true_eq] at matched
    exact matched.1.1
  · intro w₂ l₂ missed _
    have none : w₂.own i = [] := by
      rw [Idle.own (Later.idle l₂), World.own_record_empty, Idle.own (Later.idle l₁), own]
    simp only [if_pos]
    refine Safe.lookup (stalls _) fun w₃ rows l₃ listed => ?_
    have met {after : SessionWorld ι} (later : Later (lawfulSessions calls) i [] (w₃.reads i .posSession rows false) after)
        (fact : Database sessions → Prop) (holds : fact w₂.database) : after.own i = [] ∧
        Met i after (.posSession, .updateMany) fact := by
      constructor
      · rw [Idle.own (Later.idle later), World.own_record_empty, Idle.own (Later.idle l₃), World.own_record_empty, none]
      · exact ⟨_, Grows.member later.grows (List.mem_cons_of_mem _ (Grows.member l₃.grows (List.mem_cons_self ..))), rfl, rfl, holds⟩
    cases head : rows.head? with
    | none =>
      -- a session that is missing now was missing when the update ran
      have missing : Unopened tenantId id (fun _ => False) w₂.database := by
        intro row found tenant
        obtain ⟨later, now, follows⟩ := Grows.follows l₃.grows found
        exact unnamed_session _ listed head later now ((Prod.mk.inj follows.shift).1.trans tenant)
      refine Safe.check (fun _ => Safe.done fun w₄ l₄ => ?_) nofun
      obtain ⟨unwritten, attempted⟩ := met l₄ _ missing
      exact ⟨rfl, unwritten, .unknownToClose attempted⟩
    | some row =>
      have closed : Unopened tenantId id (· = .closed) w₂.database := by
        intro row found tenant
        have unmatched := missed row found
        have key : row.id = id := (Table.find_eq_some.mp found).2
        cases status : row.status with
        | closed => rfl
        | opened => simp [openNamed, sessionNamed, key, tenant, status] at unmatched
      refine Safe.check nofun fun _ => Safe.done fun w₄ l₄ => ?_
      obtain ⟨unwritten, attempted⟩ := met l₄ _ closed
      exact ⟨rfl, unwritten, .unopened attempted⟩
  · intro w₂ l₂ row found matched checked
    have none : w₂.own i = [] := by
      rw [Idle.own (Later.idle l₂), World.own_record_empty, Idle.own (Later.idle l₁), own]
    simp only [openNamed, sessionNamed, Bool.and_eq_true, decide_eq_true_eq] at matched
    obtain ⟨⟨key, tenant⟩, live⟩ := matched
    have ordered : row.openedAt ≤ w₁.clock := of_decide_eq_true (show decide _ = true from checked)
    refine ⟨.inr ⟨none, .closed w₁.clock found tenant live ordered⟩, ?_⟩
    have stored : (w₂.record (updating i .posSession false) [.put .posSession ((setClosed w₁.clock).apply row)]).database.get
        .posSession id = some ((setClosed w₁.clock).apply row) := by
      rw [World.record_database, ← key]
      exact w₂.database.get_put .posSession ((setClosed w₁.clock).apply row)
    have written : (w₂.record (updating i .posSession false) [.put .posSession ((setClosed w₁.clock).apply row)]).own i =
        [[.put .posSession ((setClosed w₁.clock).apply row)]] := World.own_record_same none rfl (List.cons_ne_nil _ _)
    generalize w₂.record _ _ = w₂' at stored written
    refine Safe.lookup (stalls _) fun w₃ rows l₃ listed => ?_
    have there := Grows.closed l₃.grows stored rfl
    have only (other : PosSession) (matched : sessionNamed tenantId id other = true) : other.id = id := by
      simp only [sessionNamed, Bool.and_eq_true, decide_eq_true_eq] at matched
      exact matched.1
    have single : rows = [(setClosed w₁.clock).apply row] := by
      rcases (w₃.database.table .posSession).filter_key only with ⟨_, unmatched⟩ | ⟨other, here, _, listing⟩
      · simpa [sessionNamed, setClosed, key, tenant] using unmatched _ there
      · cases here.symm.trans there
        rw [listing] at listed
        exact List.perm_singleton.mp listed
    rw [single]
    refine Safe.done fun w₄ l₄ => ⟨rfl, .closed _ tenant rfl ?_ ?_⟩
    · exact Grows.closed l₄.grows there rfl
    · rw [Idle.own (Later.idle l₄), World.own_record_empty, Idle.own (Later.idle l₃), written]

private theorem SessionCall.safe (own : world.own i = []) (drawn : Drawn world) :
    Safe (lawfulSessions calls (some i)) (lawfulSessions calls) i (SessionPost i (calls i)) (calls i).program none world := by
  change Safe (fun world writes => world.own i = [] ∧ SessionCommits i world (calls i) writes) _ _ _ _ _ _
  generalize calls i = call
  cases call with
  | openSession tenantId userId deviceId => exact openSession_safe own drawn
  | getSession tenantId id => exact getSession_safe own
  | closeSession tenantId id => exact closeSession_safe own

/-- Others maintain the devices; statements may fail, processes stop and time passes. -/
def SessionEnvironment (_ : SessionState ι) : Action sessions ι → Prop
  | .external writes => ∀ write ∈ writes, write.model = .posDevice
  | _ => True

abbrev SessionReaches : SessionState ι → SessionState ι → Prop := State.Reaches SessionEnvironment

abbrev ValidSessions (calls : ι → SessionCall) (state : SessionState ι) : Prop :=
  Valid (lawfulSessions calls) (fun i => SessionPost i (calls i)) state

variable {shifts : Shifts} {state later : SessionState ι}

theorem SessionReaches.grows (reached : SessionReaches state later) (valid : ValidSessions calls state) :
    ValidSessions calls later ∧ Grows (lawfulSessions calls) state.world later.world :=
  State.Reaches.valid reached valid fun _ _ permitted => .inr permitted

omit [DecidableEq ι] in
theorem Shifts.drawn_opened (shifts : Shifts) :
    Drawn (World.opened shifts.database shifts.stamp shifts.clock : SessionWorld ι) := fun row member => by
  simpa [World.opened] using shifts.drawn row member

theorem Shifts.valid (shifts : Shifts) (calls : ι → SessionCall) : ValidSessions calls (shifts.system calls) :=
  Valid.opened fun _ => SessionCall.safe (World.own_opened ..) shifts.drawn_opened

/-- A device has one OPEN session at most. -/
def OneOpen (db : Database sessions) : Prop :=
  ∀ first ∈ (db.table .posSession).rows, ∀ second ∈ (db.table .posSession).rows, first.deviceId = second.deviceId →
    first.status = .opened → second.status = .opened → first = second

theorem oneOpen_unique {db : Database sessions} (unique : Database.Unique (S := sessions) .posSession db) : OneOpen db := by
  intro first one second two device live also
  refine unique first one second two (.openOnDevice first.deviceId) ?_ ?_
  · simp [SessionModel.indexes, live]
  · simp [SessionModel.indexes, also, device]

theorem Shifts.unique_reached (reached : SessionReaches (shifts.system calls) state) :
    Database.Unique (S := sessions) .posSession state.world.database := by
  refine (State.Reaches.unique reached (shifts.valid calls) (fun _ _ permitted => .inr permitted) ?_
    (.opened shifts.unique)).committed
  intro _ writes permitted
  exact others_apart permitted

theorem Grows.timed (grows : Grows (lawfulSessions calls) before after)
    (timed : ∀ row ∈ (before.database.table .posSession).rows, row.Timed) :
    ∀ row ∈ (after.database.table .posSession).rows, row.Timed := by
  refine Grows.database (fun db : Database sessions => ∀ row ∈ (db.table .posSession).rows, row.Timed) grows timed ?_
  intro world label writes _ timed lawful row member
  rcases Database.get_found _ (Table.find_eq_some.mpr ⟨member, rfl⟩) with stored | there
  · generalize label.author = author at lawful
    cases author with
    | none =>
      rw [putsOf_other (others_apart lawful)] at stored
      cases stored
    | some i =>
      obtain ⟨_, commits⟩ := lawful
      generalize calls i = call at commits
      cases commits with
      | opened =>
        cases List.mem_singleton.mp stored
        exact ⟨by simp [openedSession], by simp [openedSession]⟩
      | closed closedAt found tenant live ordered =>
        cases List.mem_singleton.mp stored
        exact ⟨by simp [setClosed], by simpa [setClosed] using ordered⟩
  · exact timed row (Table.find_eq_some.mp there).1

/-- What the closings of a session have left: it is CLOSED, and there was one. -/
structure ClosedOnce (calls : ι → SessionCall) (world : SessionWorld ι) : Prop where
  closed : ∀ i tenantId id, calls i = .closeSession tenantId id → world.own i ≠ [] →
    ∃ row, world.database.get .posSession id = some row ∧ row.status = .closed
  once : ∀ i j first second id, calls i = .closeSession first id → calls j = .closeSession second id →
    world.own i ≠ [] → world.own j ≠ [] → i = j

theorem ClosedOnce.grows (once : ClosedOnce calls before) (grows : Grows (lawfulSessions calls) before after) :
    ClosedOnce calls after := by
  refine Grows.invariant (ClosedOnce calls) grows once ?_ ?_ fun _ _ once => ⟨once.closed, once.once⟩
  · intro world label writes _ once lawful
    have grown : Grows (lawfulSessions calls) world (world.record label writes) := .single (.event label writes (.inr lawful))
    have kept {j tenantId id} (call : calls j = .closeSession tenantId id) (written : world.own j ≠ []) :
        ∃ row, (world.record label writes).database.get .posSession id = some row ∧ row.status = .closed := by
      obtain ⟨row, found, closed⟩ := once.closed j tenantId id call written
      exact ⟨row, Grows.closed grown found closed, closed⟩
    have earlier {j : ι} (other : label.author ≠ some j) (written : (world.record label writes).own j ≠ []) :
        world.own j ≠ [] := by
      rwa [World.own_record_other j world other] at written
    have stores {j tenantId id} (author : label.author = some j) (call : calls j = .closeSession tenantId id) :
        world.own j = [] ∧ ∃ row : PosSession, world.database.get .posSession id = some row ∧ row.status = .opened ∧
          ∃ new, (world.record label writes).database.get .posSession id = some new ∧ new.status = .closed := by
      rw [author] at lawful
      obtain ⟨none, commits⟩ := lawful
      rw [call] at commits
      cases commits with
      | @closed _ _ row closedAt found tenant live =>
        refine ⟨none, row, found, live, (setClosed closedAt).apply row, ?_, rfl⟩
        rw [World.record_database, ← show row.id = id from (Table.find_eq_some.mp found).2]
        exact world.database.get_put .posSession ((setClosed closedAt).apply row)
    constructor
    · intro j tenantId id call written
      by_cases author : label.author = some j
      · obtain ⟨_, _, _, _, new, now, closed⟩ := stores author call
        exact ⟨new, now, closed⟩
      · exact kept call (earlier author written)
    · intro j k first second id one two written also
      by_cases author : label.author = some j
      · by_cases same : label.author = some k
        · exact Option.some.inj (author.symm.trans same)
        · -- the session that `j` closes is OPEN, the one that `k` has closed is not
          obtain ⟨_, row, found, live, _⟩ := stores author one
          obtain ⟨old, there, closed⟩ := once.closed k second id two (earlier same also)
          cases found.symm.trans there
          cases live.symm.trans closed
      · by_cases same : label.author = some k
        · obtain ⟨_, row, found, live, _⟩ := stores same two
          obtain ⟨old, there, closed⟩ := once.closed j first id one (earlier author written)
          cases found.symm.trans there
          cases live.symm.trans closed
        · exact once.once j k first second id one two (earlier author written) (earlier same also)
  · intro world label once
    exact ⟨fun i tenantId id call written => once.closed i tenantId id call (by rwa [World.own_record_empty] at written),
      fun i j first second id one two written also => once.once i j first second id one two
        (by rwa [World.own_record_empty] at written) (by rwa [World.own_record_empty] at also)⟩

/-- In every run a device has one OPEN session at most. Sessions persist with their
shift, are closed once and then stay as they are; and every call that has ended has
the answer that its deciding query calls for: an open is refused as taken only where
it has met an OPEN session of the device, a close as not OPEN only where it has met
none, and refused calls have committed nothing. -/
theorem pos_session_shifts (reached : SessionReaches (shifts.system calls) state) :
    OneOpen state.world.database ∧
    (∀ row ∈ (state.world.database.table .posSession).rows, row.Timed) ∧
    (∀ later, SessionReaches state later → ∀ id session, state.world.database.get .posSession id = some session →
      ∃ after, later.world.database.get .posSession id = some after ∧ Follows session after) ∧
    (∀ i j first second id, calls i = .closeSession first id → calls j = .closeSession second id →
      state.world.own i ≠ [] → state.world.own j ≠ [] → i = j) ∧
    ∀ i result, (state.threads i).program = .done result → Answered i (calls i) result state.world := by
  obtain ⟨valid, grown⟩ := reached.grows (shifts.valid calls)
  have first : ClosedOnce calls (shifts.system calls).world := by
    have none (i : ι) : (shifts.system calls).world.own i = [] := World.own_opened ..
    exact ⟨fun i _ _ _ written => absurd (none i) written, fun i _ _ _ _ _ _ written => absurd (none i) written⟩
  refine ⟨oneOpen_unique (Shifts.unique_reached reached), Grows.timed grown shifts.timed, ?_, (first.grows grown).once, ?_⟩
  · intro later further id session found
    exact Grows.follows (further.grows valid).2 found
  · intro i result ended
    exact (valid.ended ended).2

/-- An ACTIVE device without sessions. -/
def Shifts.demo : Shifts where
  database := ⟨fun
    | .posDevice => ⟨[⟨5, 0, 4, .active, "hash"⟩], by simp⟩
    | .posSession => ⟨[], by simp⟩⟩
  stamp := 10
  clock := 100
  drawn := by simp
  unique := by simp [Database.Unique]
  timed := by simp

/-- Two cashiers open a shift on one device, which is then closed twice. -/
def rivalShifts : Fin 4 → SessionCall
  | 0 => .openSession 0 7 5
  | 1 => .openSession 0 8 5
  | 2 | 3 => .closeSession 0 14

/-- Both cashiers have found the device ACTIVE before one of them opens the session. -/
theorem pos_session_shifts_rivals : ∃ state, SessionReaches (Shifts.demo.system rivalShifts) state ∧
    (state.threads 1).program = .done (.error (.thrown (.conflict ALREADY_OPEN))) ∧
    (state.threads 3).program = .done (.error (.thrown (.conflict NOT_OPEN))) ∧
    state.world.own 2 ≠ [] ∧ OneOpen state.world.database ∧
    Met 1 state.world (.posSession, .create) (Occupied 5) := by
  have executed : ((Shifts.demo.system rivalShifts).run
      ([.run 0 [], .run 1 [], .run 0 [], .run 1 [], .run 0 [], .run 1 []] ++
        [.run 2 [], .run 3 [], .run 2 [], .run 3 [], .run 3 []])).any (fun state =>
          state.answer 1 = some (.error (.thrown (.conflict ALREADY_OPEN))) &&
            state.answer 3 = some (.error (.thrown (.conflict NOT_OPEN))) &&
            state.world.own 2 ≠ []) = true := by decide +kernel
  obtain ⟨state, ran, seen⟩ := State.Reaches.computed executed rfl
  simp only [Bool.and_eq_true, decide_eq_true_eq] at seen
  obtain ⟨⟨refused, late⟩, closed⟩ := seen
  have reached : SessionReaches (Shifts.demo.system rivalShifts) state := ran.weaken fun state action undisturbed => by
    cases action with
    | external writes => cases undisturbed
    | _ => trivial
  obtain ⟨single, _, _, _, answered⟩ := pos_session_shifts reached
  obtain ⟨_, reason⟩ := answered 1 _ (State.answer_some refused)
  change Refused 1 state.world (.openSession 0 8 5) _ at reason
  generalize same : HttpException.conflict ALREADY_OPEN = exception at reason
  cases reason with
  | unknownDevice => cases same
  | inactiveDevice => exact absurd same (by decide)
  | occupied taken => exact ⟨state, reached, State.answer_some refused, State.answer_some late, closed, single, taken⟩

end BusinessPlatform.PosSessionService
