import BusinessPlatform.Proofs.ReservationSafety

/-! The lifecycle of a reservation while any number of calls race for it. What a
call has checked may have changed when it writes; where it has not, the row moves
as the state machine says. -/

namespace BusinessPlatform.ReservationService
open Engine

variable {ι : Type} {enforced : Bool} {calls : ι → ReservationCall} {i : ι} {world : ReservationWorld enforced ι}
  {writes : Writes enforced} {reservationId : Id}

/-- The moves of the status. -/
inductive ReservationStatus.Next : ReservationStatus → ReservationStatus → Prop where
  | start : Next .reserved .active
  | complete : Next .active .completed
  | cancel {status : ReservationStatus} (live : status ≠ .cancelled) : Next status .cancelled

theorem ReservationStatus.Next.unreserved {before after : ReservationStatus} (next : before.Next after) :
    after ≠ .reserved := by
  cases next <;> nofun

theorem ReservationStatus.Next.live {before after : ReservationStatus} (next : before.Next after) : before ≠ .cancelled := by
  cases next with
  | start | complete => nofun
  | cancel live => exact live

theorem ReservationStatus.Next.to_active {before : ReservationStatus} (next : before.Next .active) : before = .reserved := by
  cases next
  rfl

theorem ReservationStatus.Next.to_completed {before : ReservationStatus} (next : before.Next .completed) :
    before = .active := by
  cases next
  rfl

/-- One event moves the status along the state machine or leaves it, changes the
interval only of a RESERVED row, and makes a row ACTIVE only from its start on. -/
structure Proper (clock : Nat) (before after : Reservation) : Prop where
  moves : after.status = before.status ∨ before.status.Next after.status
  fixed : before.status ≠ .reserved → after.startAt = before.startAt ∧ after.endAt = before.endAt
  started : before.status ≠ .active → after.status = .active → after.startAt ≤ clock

theorem Proper.refl (clock : Nat) (row : Reservation) : Proper clock row row :=
  ⟨.inl rfl, fun _ => ⟨rfl, rfl⟩, fun inactive active => absurd active inactive⟩

/-- The row on which a call writes is as its checks demand: a patch moves only a
RESERVED interval, a start meets a RESERVED row whose time has come (or one that is
ACTIVE already), a completion an ACTIVE row (or one that is COMPLETED). -/
def ReservationCall.Meets (call : ReservationCall) (clock : Nat) (row : Reservation) : Prop :=
  match call with
  | .create .. | .delete .. => True
  | .update _ _ dto => row.status = .reserved ∨ (dto.apply row).startAt = row.startAt ∧ (dto.apply row).endAt = row.endAt
  | .start .. => row.status = .active ∨ row.status = .reserved ∧ row.startAt ≤ clock
  | .complete .. => row.status = .active ∨ row.status = .completed

instance (call : ReservationCall) (clock : Nat) (row : Reservation) : Decidable (call.Meets clock row) := by
  cases call <;> unfold ReservationCall.Meets <;> infer_instance

/-- The reservation that a call names. -/
def ReservationCall.target : ReservationCall → Option Id
  | .create .. => none
  | .update _ id _ | .start _ id | .complete _ id | .delete _ id => some id

/-- The row that a call stores in place of another. -/
def ReservationCall.result : ReservationCall → Reservation → Reservation
  | .create .., row => row
  | .update _ _ dto, row => dto.apply row
  | .start .., row => { row with status := .active }
  | .complete .., row => { row with status := .completed }
  | .delete .., row => { row with status := .cancelled }

theorem ReservationCall.meets_iff {call : ReservationCall} {clock : Nat} {row : Reservation} :
    call.Meets clock row ↔ Proper clock row (call.result row) := by
  cases call with
  | create tenantId dto => exact ⟨fun _ => .refl clock row, fun _ => trivial⟩
  | update tenantId id dto =>
    constructor
    · intro meets
      refine ⟨.inl rfl, fun unreserved => meets.resolve_left unreserved, fun inactive active => absurd active inactive⟩
    · intro proper
      by_cases reserved : row.status = .reserved
      · exact .inl reserved
      · exact .inr (proper.fixed reserved)
  | start tenantId id =>
    constructor
    · rintro (active | ⟨reserved, come⟩)
      · exact ⟨.inl active.symm, fun _ => ⟨rfl, rfl⟩, fun inactive => absurd active inactive⟩
      · exact ⟨.inr (reserved ▸ .start), fun _ => ⟨rfl, rfl⟩, fun _ _ => come⟩
    · intro proper
      by_cases active : row.status = .active
      · exact .inl active
      · refine .inr ⟨?_, proper.started active rfl⟩
        rcases proper.moves with same | next
        · exact absurd same.symm active
        · exact ReservationStatus.Next.to_active next
  | complete tenantId id =>
    constructor
    · rintro (active | completed)
      · exact ⟨.inr (active ▸ .complete), fun _ => ⟨rfl, rfl⟩, fun _ => nofun⟩
      · exact ⟨.inl completed.symm, fun _ => ⟨rfl, rfl⟩, fun _ => nofun⟩
    · intro proper
      rcases proper.moves with same | next
      · exact .inr same.symm
      · exact .inl (ReservationStatus.Next.to_completed next)
  | delete tenantId id =>
    refine ⟨fun _ => ⟨?_, fun _ => ⟨rfl, rfl⟩, fun _ => nofun⟩, fun _ => trivial⟩
    by_cases cancelled : row.status = .cancelled
    · exact .inl cancelled.symm
    · exact .inr (.cancel cancelled)

/-- Others maintain the customers and the equipment. -/
def lawfulReservations (calls : ι → ReservationCall) : Guarantee (rentals enforced) ι
  | some i, world, writes => ReservationCommits (fun _ _ _ => True) i world (calls i) writes
  | none, _, writes => ∀ write ∈ writes, write.model ≠ .reservation

/-- What a commit does to the reservations: it adds one, or replaces the one that
the call names. -/
theorem lawfulReservations.cases {author : Option ι} (allowed : Allowed (lawfulReservations calls author) world writes) :
    (erasesOf (S := rentals enforced) .reservation writes = [] ∧
      ∀ row ∈ putsOf (S := rentals enforced) .reservation writes, world.database.get .reservation row.id = none) ∨
    ∃ i id row, author = some i ∧ (calls i).target = some id ∧ world.database.get .reservation id = some row ∧
      writes = [.put .reservation ((calls i).result row)] := by
  rcases allowed with rfl | allowed
  · exact .inl ⟨rfl, nofun⟩
  · cases author with
    | none =>
      refine .inl ⟨erasesOf_other allowed, fun row member => ?_⟩
      rw [putsOf_other allowed] at member
      cases member
    | some i =>
      change ReservationCommits _ i world (calls i) writes at allowed
      generalize called : calls i = call at allowed
      cases allowed with
      | create startAt endAt id now dated fresh range equipped free =>
        refine .inl ⟨rfl, fun row member => ?_⟩
        rw [putsOf_put_same, putsOf_nil, List.mem_singleton] at member
        subst member
        exact fresh
      | @update _ id _ row _ found | @start _ id row _ found | @complete _ id row found | @delete _ id row found =>
        exact .inr ⟨i, id, row, rfl, by rw [called]; rfl, found.1, by rw [called]; rfl⟩

theorem lawfulReservations.targeted (allowed : Allowed (lawfulReservations calls (some i)) world writes)
    (written : writes ≠ []) (target : (calls i).target = some reservationId) :
    ∃ row, world.database.get .reservation reservationId = some row ∧ writes = [.put .reservation ((calls i).result row)] := by
  have allowed : ReservationCommits _ i world (calls i) writes := allowed.resolve_left written
  generalize calls i = call at allowed target
  cases allowed with
  | create => cases target
  | update found | start found | complete found | delete found =>
    cases target
    exact ⟨_, found.1, rfl⟩

theorem lawfulReservations.persists {author : Option ι} (allowed : Allowed (lawfulReservations calls author) world writes)
    {row : Reservation} (found : world.database.get .reservation reservationId = some row) :
    ∃ later, (world.database.applyAll writes).get .reservation reservationId = some later := by
  have kept : erasesOf (S := rentals enforced) .reservation writes = [] := by
    rcases lawfulReservations.cases allowed with ⟨kept, _⟩ | ⟨_, _, _, _, _, _, rfl⟩
    · exact kept
    · rfl
  rcases world.database.get_cases kept reservationId with same | ⟨later, _, _, stored⟩
  · exact ⟨row, same.trans found⟩
  · exact ⟨later, stored⟩

variable {state next earlier : ReservationState enforced ι} {action : Action (rentals enforced) ι}

/-- A call that writes over a reservation meets a row as its checks demand. -/
def Current (calls : ι → ReservationCall) (state : ReservationState enforced ι) (event : Event (rentals enforced) ι) : Prop :=
  event.writes ≠ [] → ∀ i ∈ event.author, ∀ id ∈ (calls i).target, ∀ row ∈ event.before.get .reservation id,
    (calls i).Meets state.world.clock row

instance (calls : ι → ReservationCall) (state : ReservationState enforced ι) (event : Event (rentals enforced) ι) :
    Decidable (Current calls state event) :=
  inferInstanceAs (Decidable (event.writes ≠ [] → ∀ i ∈ event.author, ∀ id ∈ (calls i).target,
    ∀ row ∈ event.before.get .reservation id, (calls i).Meets state.world.clock row))

/-- Every reservation moves properly from one state to the next. -/
def ProperStep (state next : ReservationState enforced ι) : Prop :=
  ∀ id before after, state.world.database.get .reservation id = some before →
    next.world.database.get .reservation id = some after → Proper state.world.clock before after

/-- A step moves the reservations properly exactly if its call is current. -/
theorem properStep_iff [DecidableEq ι] (executed : state.step action = some next)
    (moves : Moves (lawfulReservations calls) state next) : state.Records (Current calls) action ↔ ProperStep state next := by
  cases moves with
  | event label writes recorded allowed active =>
    constructor
    · intro records id before after first second
      have current := records next _ executed (by rw [recorded, World.record_trace])
      rw [recorded, World.record_database] at second
      rcases lawfulReservations.cases allowed with ⟨_, fresh⟩ | ⟨i, target, row, author, named, found, rfl⟩
      · rcases Database.get_found _ second with stored | there
        · have absent := fresh after stored
          rw [show after.id = id from (Table.find_eq_some.mp second).2, first] at absent
          cases absent
        · cases first.symm.trans there
          exact .refl _ _
      · rcases Database.get_found _ second with stored | there
        · rw [putsOf_put_same, putsOf_nil, List.mem_singleton] at stored
          subst stored
          have same : ((calls i).result row).id = id := (Table.find_eq_some.mp second).2
          have key : row.id = target := (Table.find_eq_some.mp found).2
          have kept : ((calls i).result row).id = row.id := by cases calls i <;> rfl
          obtain rfl : target = id := by rw [← key, ← kept, same]
          cases first.symm.trans found
          exact ReservationCall.meets_iff.mp (current nofun i author target named before found)
        · cases first.symm.trans there
          exact .refl _ _
    · intro proper other event stepped traced written i author id named row found
      cases executed.symm.trans stepped
      rw [recorded, World.record_trace, List.cons.injEq] at traced
      obtain ⟨rfl, _⟩ := traced
      change label.author = some i at author
      rw [author] at allowed
      obtain ⟨stored, same, rfl⟩ := lawfulReservations.targeted allowed written named
      rw [Option.mem_def, same] at found
      cases found
      have key : row.id = id := (Table.find_eq_some.mp same).2
      have kept : ((calls i).result row).id = row.id := by cases calls i <;> rfl
      refine ReservationCall.meets_iff.mpr (proper id row _ same ?_)
      rw [recorded, World.record_database, ← key, ← kept]
      exact state.world.database.get_put .reservation ((calls i).result row)
  | still same =>
    constructor
    · intro _ id before after first second
      rw [same] at second
      cases first.symm.trans second
      exact .refl _ _
    · intro _ other event stepped traced
      cases executed.symm.trans stepped
      rw [same] at traced
      exact absurd (congrArg List.length traced) (by simp)
  | wait elapsed waited =>
    constructor
    · intro _ id before after first second
      rw [waited] at second
      cases first.symm.trans second
      exact .refl _ _
    · intro _ other event stepped traced
      cases executed.symm.trans stepped
      rw [waited] at traced
      exact absurd (congrArg List.length traced) (by simp)

variable [DecidableEq ι] {database : Database (rentals enforced)}

/-- Others maintain the customers and the equipment; statements may fail,
processes stop and time pass. -/
def ReservationEnvironment (_ : ReservationState enforced ι) : Action (rentals enforced) ι → Prop
  | .external writes => ∀ write ∈ writes, write.model ≠ .reservation
  | _ => True

omit [DecidableEq ι] in
theorem ReservationEnvironment.lawful {writes : Writes enforced}
    (permitted : ReservationEnvironment state (.external writes)) :
    Allowed (lawfulReservations calls none) state.world writes := .inr permitted

omit [DecidableEq ι] in
theorem ReservationEnvironment.undisturbed (undisturbed : action.undisturbed = true) :
    ReservationEnvironment state action := by
  cases action with
  | external writes => cases undisturbed
  | _ => trivial

abbrev ReservationReaches : ReservationState enforced ι → ReservationState enforced ι → Prop :=
  State.Reaches ReservationEnvironment

/-- Runs in which every call that writes is current. -/
abbrev CurrentReaches (calls : ι → ReservationCall) : ReservationState enforced ι → ReservationState enforced ι → Prop :=
  State.Reaches fun state action => ReservationEnvironment state action ∧ state.Records (Current calls) action

abbrev ValidReservations (calls : ι → ReservationCall) (state : ReservationState enforced ι) : Prop :=
  Valid (lawfulReservations calls) (fun i => ReservationPost (fun _ _ _ => True) i (calls i)) state

omit [DecidableEq ι] in
theorem reservationSystem_valid [DecidableEq ι] (database : Database (rentals enforced)) (calls : ι → ReservationCall) :
    ValidReservations calls (reservationSystem database calls) :=
  Valid.initial fun i => Safe.among (ReservationCall.safe (calls i)) fun _ _ _ _ => trivial

/-- What has become of a reservation in a later state: its status has moved along
the state machine, its interval is fixed once it is not RESERVED, and if it has been
made ACTIVE on the way, it was by a step not before its start. -/
structure Follows (calls : ι → ReservationCall) (earlier state : ReservationState enforced ι) (id : Id)
    (before after : Reservation) : Prop where
  moves : Relation.ReflTransGen ReservationStatus.Next before.status after.status
  cancelled : before.status = .cancelled → after.status = .cancelled
  fixed : before.status ≠ .reserved → after.startAt = before.startAt ∧ after.endAt = before.endAt
  started : before.status ≠ .active → after.status = .active → ∃ middle next action row new,
    CurrentReaches calls earlier middle ∧ middle.step action = some next ∧ CurrentReaches calls next state ∧
      middle.world.database.get .reservation id = some row ∧ row.status ≠ .active ∧
      next.world.database.get .reservation id = some new ∧ new.status = .active ∧
      new.startAt = after.startAt ∧ after.startAt ≤ middle.world.clock

theorem ReservationStatus.final {before after : ReservationStatus}
    (moves : Relation.ReflTransGen ReservationStatus.Next before after) (cancelled : before = .cancelled) :
    after = .cancelled := by
  subst cancelled
  rcases Relation.ReflTransGen.cases_head moves with same | ⟨_, next, _⟩
  · exact same.symm
  · exact absurd rfl next.live

theorem ReservationStatus.unreserved {before after : ReservationStatus}
    (moves : Relation.ReflTransGen ReservationStatus.Next before after) (unreserved : before ≠ .reserved) :
    after ≠ .reserved := by
  induction moves with
  | refl => exact unreserved
  | tail _ next _ => exact next.unreserved

theorem CurrentReaches.follows (reached : CurrentReaches calls earlier state) (valid : ValidReservations calls earlier)
    {before : Reservation} (found : earlier.world.database.get .reservation reservationId = some before) :
    ValidReservations calls state ∧ ∃ after, state.world.database.get .reservation reservationId = some after ∧
      Follows calls earlier state reservationId before after := by
  induction reached with
  | here =>
    exact ⟨valid, before, found, .refl, id, fun _ => ⟨rfl, rfl⟩, fun inactive active => absurd active inactive⟩
  | @step state next action reached allowed executed ih =>
    obtain ⟨sound, row, there, follows⟩ := ih
    obtain ⟨after, moves⟩ := sound.step (fun writes same => ReservationEnvironment.lawful (same ▸ allowed.1)) executed
    obtain ⟨new, now⟩ : ∃ new, next.world.database.get .reservation reservationId = some new := by
      cases moves with
      | event label writes recorded lawful active =>
        rw [recorded]
        exact lawfulReservations.persists lawful there
      | still same => exact ⟨row, same ▸ there⟩
      | wait elapsed waited => exact ⟨row, waited ▸ there⟩
    have proper := (properStep_iff executed moves).mp allowed.2 reservationId row new there now
    have path : Relation.ReflTransGen ReservationStatus.Next before.status new.status := by
      rcases proper.moves with same | step
      · exact same ▸ follows.moves
      · exact follows.moves.tail step
    refine ⟨after, new, now, path, ReservationStatus.final path, fun unreserved => ?_, fun inactive active => ?_⟩
    · obtain ⟨start, finish⟩ := proper.fixed (ReservationStatus.unreserved follows.moves unreserved)
      obtain ⟨start', finish'⟩ := follows.fixed unreserved
      exact ⟨start.trans start', finish.trans finish'⟩
    · by_cases already : row.status = .active
      · obtain ⟨middle, following, step, old, made, first, ran, rest, read, idle, stored, started, same, due⟩ :=
          follows.started inactive already
        obtain ⟨start, _⟩ := proper.fixed (by rw [already]; nofun)
        refine ⟨middle, following, step, old, made, first, ran, rest.step action allowed executed, read, idle, stored,
          started, same.trans start.symm, ?_⟩
        rw [start]
        exact due
      · exact ⟨state, next, action, row, new, reached, executed, .here, there, already, now, active, rfl,
          proper.started already active⟩

/-- A step moves all reservations properly exactly if its call, when it writes, meets
the row as its checks demand; in runs of such steps every reservation follows the
state machine. -/
theorem reservation_lifecycle (database : Database (rentals enforced)) (calls : ι → ReservationCall) :
    (∀ state next action, ReservationReaches (reservationSystem database calls) state →
      ReservationEnvironment state action → state.step action = some next →
      (state.Records (Current calls) action ↔ ProperStep state next)) ∧
    ∀ earlier state, CurrentReaches calls (reservationSystem database calls) earlier → CurrentReaches calls earlier state →
      ∀ id before, earlier.world.database.get .reservation id = some before →
        ∃ after, state.world.database.get .reservation id = some after ∧ Follows calls earlier state id before after := by
  have start := reservationSystem_valid database calls
  constructor
  · intro state next action reached permitted executed
    have valid := (State.Reaches.valid reached start fun _ _ => ReservationEnvironment.lawful).1
    have moves := (valid.step (fun writes same => ReservationEnvironment.lawful (same ▸ permitted)) executed).2
    exact properStep_iff executed moves
  · intro earlier state reached further id before found
    have valid := (State.Reaches.valid reached start fun _ _ permitted => ReservationEnvironment.lawful permitted.1).1
    exact (further.follows valid found).2

/-- Equipment that is reserved from 100 to 200. -/
def demoRentals : Database (rentals true) := ⟨fun
  | .customer => ⟨[⟨1, 0⟩], by simp⟩
  | .equipment => ⟨[⟨2, 0⟩], by simp⟩
  | .reservation => ⟨[⟨3, 0, 1, 2, 100, 200, .reserved, none, 0⟩], by simp⟩⟩

/-- The reservation is started and cancelled. -/
def startAndCancel : Fin 2 → ReservationCall
  | 0 => .start 0 3
  | 1 => .delete 0 3

def statusOf (database : Database (rentals enforced)) (id : Id) : Option ReservationStatus :=
  (database.get .reservation id).map Reservation.status

/-- In turn: it is ACTIVE at 100 and then CANCELLED. -/
theorem reservation_lifecycle_in_turn : ∃ state : ReservationState true (Fin 2),
    CurrentReaches startAndCancel (reservationSystem demoRentals startAndCancel) state ∧
      statusOf state.world.database 3 = some .cancelled ∧
      ∃ after, state.world.database.get .reservation 3 = some after ∧
        Relation.ReflTransGen ReservationStatus.Next .reserved after.status := by
  have executed : ((reservationSystem demoRentals startAndCancel).runWhile
      (fun state event => Current startAndCancel state event)
      ([.wait 100] ++ List.replicate 3 (.run 0 []) ++ List.replicate 2 (.run 1 []))).any
        (fun state => statusOf state.world.database 3 = some .cancelled) = true := by decide +kernel
  obtain ⟨state, ran, seen⟩ := State.Reaches.undisturbed executed rfl
  have reached : CurrentReaches startAndCancel (reservationSystem demoRentals startAndCancel) state :=
    ran.weaken fun state action allowed => ⟨ReservationEnvironment.undisturbed allowed.1, allowed.2⟩
  obtain ⟨after, stored, follows⟩ := (reservation_lifecycle demoRentals startAndCancel).2 _ state .here reached 3
    ⟨3, 0, 1, 2, 100, 200, .reserved, none, 0⟩ rfl
  exact ⟨state, reached, of_decide_eq_true seen, after, stored, follows.moves⟩

/-- The cancellation is made between the check of the start and its write: the
cancelled reservation becomes ACTIVE. -/
theorem reservation_revived : ∃ earlier state : ReservationState true (Fin 2),
    ReservationReaches (reservationSystem demoRentals startAndCancel) earlier ∧ ReservationReaches earlier state ∧
      statusOf earlier.world.database 3 = some .cancelled ∧ statusOf state.world.database 3 = some .active := by
  have executed : ((reservationSystem demoRentals startAndCancel).run
      ([.wait 100] ++ List.replicate 2 (.run 0 []) ++ List.replicate 2 (.run 1 []))).any (fun earlier =>
        (earlier.run [.run 0 []]).any fun state => statusOf earlier.world.database 3 = some .cancelled &&
          statusOf state.world.database 3 = some .active) = true := by decide +kernel
  obtain ⟨earlier, state, ran, continued, seen⟩ := State.Reaches.resumed executed rfl
  simp only [Bool.and_eq_true, decide_eq_true_eq] at seen
  exact ⟨earlier, state, ran.weaken fun _ _ => ReservationEnvironment.undisturbed,
    continued.weaken fun _ _ => ReservationEnvironment.undisturbed, seen⟩

end BusinessPlatform.ReservationService
