import BusinessPlatform.Proofs.QuietRuns

/-! The lifecycle of a booking. A booking is sold without a change of its status,
so its history is made of the patches that were sent. -/

namespace BusinessPlatform
open Engine BookingService OrderService PosSaleService

variable {ι : Type} {db : Db} {writes : Writes} {bookingId : Id}

namespace BookingStatus

def terminal : BookingStatus → Bool
  | cancelled | noShow => true
  | booked | confirmed | active | completed => false

/-- How far a booking has come. -/
def stage : BookingStatus → Nat
  | booked => 0
  | confirmed => 1
  | active => 2
  | completed => 3
  | cancelled | noShow => 4

/-- Forward along BOOKED, CONFIRMED, ACTIVE and COMPLETED, or into CANCELLED or
NO_SHOW, which are final. -/
def Precedes (before after : BookingStatus) : Prop :=
  before = after ∨ before.terminal = false ∧ before.stage < after.stage

instance (before after : BookingStatus) : Decidable (before.Precedes after) :=
  inferInstanceAs (Decidable (_ ∨ _))

theorem Precedes.refl (status : BookingStatus) : status.Precedes status := .inl rfl

theorem Precedes.trans {first second third : BookingStatus} (one : first.Precedes second) (two : second.Precedes third) :
    first.Precedes third := by
  rcases one with rfl | ⟨open', less⟩
  · exact two
  · rcases two with rfl | ⟨_, further⟩
    · exact .inr ⟨open', less⟩
    · exact .inr ⟨open', less.trans further⟩

theorem Precedes.final {before after : BookingStatus} (terminal : before.terminal = true) (precedes : before.Precedes after) :
    after = before := by
  rcases precedes with same | ⟨live, _⟩
  · exact same.symm
  · rw [terminal] at live
    cases live

end BookingStatus

/-- The bookings that are stored again keep their statuses. -/
def KeepsStatus (db : Db) (writes : Writes) : Prop :=
  ∀ row ∈ putsOf (S := commerce) .booking writes, ∀ old, db.get .booking row.id = some old → row.status = old.status

theorem KeepsStatus.nothing (none : putsOf (S := commerce) .booking writes = []) : KeepsStatus db writes := by
  intro row member
  rw [none] at member
  cases member

theorem KeepsStatus.other (other : ∀ write ∈ writes, Write.model write ≠ .booking) : KeepsStatus db writes :=
  .nothing (putsOf_other other)

theorem Placed.keepsStatus {placement : Placement} (placed : Placed db placement) : KeepsStatus db placement.writes := by
  intro row member old stored
  rw [Placement.writes_booking] at member
  obtain ⟨booking, taken, rfl⟩ := List.mem_map.mp member
  obtain ⟨found, _⟩ := placed.booking booking (by simpa using taken)
  cases found.symm.trans stored
  rfl

theorem SaleStep.keepsStatus {i : ι} {tenantId userId : Id} {dto : CreatePosSaleDto} {world : SystemWorld ι}
    {history : List Writes} (step : SaleStep i tenantId userId dto world history writes) :
    KeepsStatus world.database writes := by
  cases step with
  | order placement session ordered => exact ordered.toPlaced.keepsStatus
  | capture placement payment captured =>
    cases captured
    exact .nothing (by simp)
  | _ => exact .nothing (by simp)

theorem SyncStep.keepsStatus {i : ι} {tenantId operationId : Id} {world : SystemWorld ι} {history : List Writes}
    (step : SyncStep i tenantId operationId world history writes) : KeepsStatus world.database writes := by
  cases step with
  | rejected code operated | cleared operated | outOfStock claim held operated =>
    cases operated
    exact .nothing (by simp)
  | claimed row now found pending unclaimed tenant => exact .nothing (by simp)
  | executed claim held row items filled validated history found tenant lines read step => exact step.keepsStatus
  | accepted claim held placement payment paid captures sale once found captured order operated =>
    cases operated
    exact .nothing (by simp)

variable [DecidableEq ι] {calls : ι → Call} {i : ι} {world : SystemWorld ι}

/-- The patch that a call writes, if it is one. -/
def Call.patches : Call → Option (Id × UpdateBookingDto)
  | .updateBooking _ bookingId dto => some (bookingId, dto)
  | _ => none

theorem lawful.status {author : Option ι} (allowed : lawful calls author world writes) :
    KeepsStatus world.database writes ∨ ∃ i bookingId dto booking, author = some i ∧
      (calls i).patches = some (bookingId, dto) ∧ world.database.get .booking bookingId = some booking ∧
      writes = [.put .booking ((patch dto).apply booking)] := by
  cases author with
  | none =>
    refine .inl (.other fun write member same => ?_)
    have external := allowed write member
    rw [same] at external
    cases external
  | some i =>
    simp only [lawful, Call.Commits] at allowed
    split at allowed
    · obtain ⟨_, adjusted⟩ := allowed
      cases adjusted <;> exact .inl (.nothing (by simp))
    · obtain ⟨_, placement, ordered, rfl⟩ := allowed
      exact .inl ordered.toPlaced.keepsStatus
    · obtain ⟨_, cancellation, _, rfl⟩ := allowed
      exact .inl (.nothing (by simp [Cancellation.writes]))
    · obtain ⟨_, payment, _, rfl⟩ := allowed
      exact .inl (.nothing (by simp))
    · obtain ⟨_, captured⟩ := allowed
      cases captured
      exact .inl (.nothing (by simp))
    · obtain ⟨_, failed⟩ := allowed
      cases failed
      exact .inl (.nothing (by simp))
    · exact .inl allowed.keepsStatus
    · obtain ⟨_, operation, items, _, rfl⟩ := allowed
      refine .inl (.other fun write member same => ?_)
      simp only [intentWrites, List.mem_cons, List.mem_map] at member
      rcases member with rfl | ⟨_, _, rfl⟩ <;> cases same
    · exact .inl allowed.keepsStatus
    · obtain ⟨_, booking, created, rfl⟩ := allowed
      refine .inl fun row member old stored => ?_
      rw [putsOf_put_same, putsOf_nil, List.mem_singleton] at member
      subst member
      cases created.fresh.symm.trans stored
    next call =>
      obtain ⟨_, booking, patched, rfl⟩ := allowed
      exact .inr ⟨i, _, _, booking, rfl, by rw [call]; rfl, patched.found, rfl⟩
    all_goals
      cases allowed with
      | discarded cart found => exact .inl (.nothing (by simp [discardWrites]))
      | _ => exact .inl (.nothing (by simp))

/-- A patch that is written names no status, or one that the status of its booking
precedes. -/
def InOrder (calls : ι → Call) (event : Event commerce ι) : Prop :=
  event.writes ≠ [] → ∀ i ∈ event.author, ∀ sent ∈ (calls i).patches, ∀ status ∈ sent.2.status.join,
    ∀ booking ∈ event.before.get .booking sent.1, booking.status.Precedes status

instance (calls : ι → Call) (event : Event commerce ι) : Decidable (InOrder calls event) :=
  inferInstanceAs (Decidable (event.writes ≠ [] → ∀ i ∈ event.author, ∀ sent ∈ (calls i).patches,
    ∀ status ∈ sent.2.status.join, ∀ booking ∈ event.before.get .booking sent.1, booking.status.Precedes status))

/-- The statuses only move forward. -/
def Advances (event : Event commerce ι) : Prop :=
  ∀ bookingId before after, event.before.get .booking bookingId = some before →
    (event.before.applyAll event.writes).get .booking bookingId = some after → before.status.Precedes after.status

theorem KeepsStatus.same (keeps : KeepsStatus db writes) {before after : Booking}
    (first : db.get .booking bookingId = some before) (second : (db.applyAll writes).get .booking bookingId = some after) :
    after.status = before.status := by
  rcases Database.get_found _ second with stored | there
  · have key : after.id = bookingId := (Table.find_eq_some.mp second).2
    exact keeps after stored before (key ▸ first)
  · cases first.symm.trans there
    rfl

theorem lawful.patched {dto : UpdateBookingDto} (call : (calls i).patches = some (bookingId, dto))
    (allowed : lawful calls (some i) world writes) :
    ∃ booking, world.database.get .booking bookingId = some booking ∧ writes = [.put .booking ((patch dto).apply booking)] := by
  change (calls i).Commits i world writes at allowed
  cases called : calls i with
  | updateBooking tenantId id dto =>
    rw [called] at call allowed
    cases call
    obtain ⟨_, booking, patched, rfl⟩ := allowed
    exact ⟨booking, patched.found, rfl⟩
  | _ =>
    rw [called] at call
    cases call

/-- A commit moves the statuses forward exactly if its patch is in order. -/
theorem inOrder_iff {event : Event commerce ι} (database : world.database = event.before)
    (allowed : Allowed (lawful calls event.author) world event.writes) : InOrder calls event ↔ Advances event := by
  constructor
  · intro inOrder id before after first second
    rcases allowed with none | allowed
    · rw [none] at second
      cases first.symm.trans second
      exact .refl _
    · rcases allowed.status with keeps | ⟨i, bookingId, dto, booking, author, call, found, writes⟩
      · rw [database] at keeps
        exact .inl (keeps.same first second).symm
      · rw [writes] at second
        rcases Database.get_found _ second with stored | there
        · rw [putsOf_put_same, putsOf_nil, List.mem_singleton] at stored
          subst stored
          have same : booking.id = id := (Table.find_eq_some.mp second).2
          have key : booking.id = bookingId := (Table.find_eq_some.mp found).2
          rw [database, ← key, same] at found
          cases first.symm.trans found
          cases named : dto.status.join with
          | none => exact .inl (by simp [patch, named])
          | some status =>
            have precedes := inOrder (by rw [writes]; nofun) i author (bookingId, dto) call status named before
              (by rw [← key, same]; exact first)
            simpa [patch, named] using precedes
        · cases first.symm.trans there
          exact .refl _
  · rintro advances filled i author ⟨bookingId, dto⟩ call status named booking first
    rw [Option.mem_def] at author call named first
    rw [author] at allowed
    obtain ⟨found, stored, writes⟩ := (allowed.resolve_left filled).patched call
    rw [database, first] at stored
    cases stored
    have second : (event.before.applyAll event.writes).get .booking bookingId = some ((patch dto).apply booking) := by
      have key : booking.id = bookingId := (Table.find_eq_some.mp first).2
      rw [writes, ← key]
      exact event.before.get_put .booking ((patch dto).apply booking)
    simpa [patch, named] using advances bookingId booking _ first second

variable {sha256 : String → String} {shop : Shop} {earlier state : SystemState ι}

/-- Along a history that moves forward the status of a booking does. -/
theorem Grows.precedes {before after : SystemWorld ι} (grows : Grows (lawful calls) before after)
    (advances : ∀ event ∈ after.trace, Advances event) {old new : Booking}
    (first : before.database.get .booking bookingId = some old) (second : after.database.get .booking bookingId = some new) :
    old.status.Precedes new.status := by
  induction grows generalizing new with
  | refl =>
    cases first.symm.trans second
    exact .refl _
  | @tail middle after earlier step ih =>
    obtain ⟨row, there, _⟩ := Grows.row keepsBooking earlier first
    cases step with
    | event label writes allowed =>
      have before := ih (fun event member => advances event (List.mem_cons_of_mem _ member)) there
      exact before.trans (advances _ List.mem_cons_self bookingId row new there second)
    | wait elapsed => exact ih advances second

/-- In every run the statuses move forward at every event exactly if all patches
that are written are in order; and then a booking's status in a later state is its
own or a later one, and the same once it is CANCELLED or NO_SHOW. -/
theorem booking_lifecycle (reached : shop.Reaches sha256 calls earlier) (further : State.Reaches Environment earlier state) :
    ((∀ event ∈ state.world.trace, InOrder calls event) ↔ ∀ event ∈ state.world.trace, Advances event) ∧
      ((∀ event ∈ state.world.trace, InOrder calls event) → ∀ bookingId before after,
        earlier.world.database.get .booking bookingId = some before →
        state.world.database.get .booking bookingId = some after →
        before.status.Precedes after.status ∧ (before.status.terminal = true → after.status = before.status)) := by
  obtain ⟨valid, grown⟩ := reached.valid
  have grows := (State.Reaches.valid further valid fun _ _ => Environment.lawful).2
  have exact' : ∀ event ∈ state.world.trace, InOrder calls event ↔ Advances event := by
    intro event member
    obtain ⟨_, origin, _, recorded⟩ := Grows.recorded (grown.trans grows) rfl member
    exact inOrder_iff recorded.database recorded.lawful
  refine ⟨forall₂_congr exact', fun inOrder bookingId before after first second => ?_⟩
  have precedes := Grows.precedes grows (fun event member => (exact' event member).mp (inOrder event member)) first second
  exact ⟨precedes, fun terminal => precedes.final terminal⟩

/-- A booking is made, confirmed, cancelled and booked again. -/
def revivedBooking : Fin 4 → Call
  | 0 => .createBooking 0 { serviceId := 10, startAt := some 100, endAt := some 200 }
  | 1 => .updateBooking 0 1 { status := some (some .confirmed) }
  | 2 => .updateBooking 0 1 { status := some (some .cancelled) }
  | 3 => .updateBooking 0 1 { status := some (some .booked) }

/-- The status of a booking. -/
def statusOf (db : Db) (bookingId : Id) : Option BookingStatus := (db.get .booking bookingId).map Booking.status

theorem booking_lifecycle_cancelled : ∃ earlier state, Shop.demo.Reaches (fun _ => "hash") revivedBooking earlier ∧
    State.Reaches Environment earlier state ∧ (∀ event ∈ state.world.trace, Advances event) ∧
    ∃ before after, earlier.world.database.get .booking 1 = some before ∧ state.world.database.get .booking 1 = some after ∧
      before.status = .booked ∧ after.status = .cancelled ∧ before.status.Precedes after.status := by
  have executed : ((Shop.demo.system (fun _ => "hash") revivedBooking).run (runs 0 2)).any (fun earlier =>
      (earlier.run (runs 1 2 ++ runs 2 2)).any fun state => (∀ event ∈ state.world.trace, InOrder revivedBooking event) &&
        (statusOf earlier.world.database 1 = some .booked && statusOf state.world.database 1 = some .cancelled)) = true := by
    decide +kernel
  obtain ⟨earlier, state, ran, continued, seen⟩ := State.Reaches.resumed executed rfl
  have reached : Shop.demo.Reaches (fun _ => "hash") revivedBooking earlier :=
    ran.weaken fun _ _ => Environment.undisturbed
  have further : State.Reaches Environment earlier state := continued.weaken fun _ _ => Environment.undisturbed
  simp only [Bool.and_eq_true, decide_eq_true_eq, statusOf, Option.map_eq_some_iff] at seen
  obtain ⟨inOrder, ⟨before, first, booked⟩, after, second, cancelled⟩ := seen
  obtain ⟨iff, kept⟩ := booking_lifecycle reached further
  exact ⟨earlier, state, reached, further, iff.mp inOrder, before, after, first, second, booked, cancelled,
    (kept inOrder 1 before after first second).1⟩

/-- The last patch revives the cancelled booking. -/
theorem booking_status_revived : ∃ earlier state, Shop.demo.Reaches (fun _ => "hash") revivedBooking earlier ∧
    State.Reaches Environment earlier state ∧ statusOf earlier.world.database 1 = some .cancelled ∧
    statusOf state.world.database 1 = some .booked := by
  have executed : ((Shop.demo.system (fun _ => "hash") revivedBooking).run (runs 0 2 ++ runs 1 2 ++ runs 2 2)).any
      (fun earlier => (earlier.run (runs 3 2)).any fun state => statusOf earlier.world.database 1 = some .cancelled &&
        statusOf state.world.database 1 = some .booked) = true := by decide +kernel
  obtain ⟨earlier, state, ran, continued, seen⟩ := State.Reaches.resumed executed rfl
  have reached : Shop.demo.Reaches (fun _ => "hash") revivedBooking earlier :=
    ran.weaken fun _ _ => Environment.undisturbed
  have further : State.Reaches Environment earlier state := continued.weaken fun _ _ => Environment.undisturbed
  simp only [Bool.and_eq_true, decide_eq_true_eq] at seen
  exact ⟨earlier, state, reached, further, seen⟩

end BusinessPlatform
