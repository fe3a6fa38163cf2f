import BusinessPlatform.BookingService
import BusinessPlatform.Engine.Atomicity

/-! How the two calls that write a booking classify what the database refuses: both
recognise an overlap, only one of them a reversed interval, and none a value that
cannot be stored. -/

namespace BusinessPlatform.BookingService
open Engine Program

/-- A call that writes a booking. -/
inductive BookingWrite where
  | create (dto : CreateBookingDto)
  | update (bookingId : Id) (dto : UpdateBookingDto)

def BookingWrite.program (tenantId : Id) : BookingWrite → Service BookingSummary
  | .create dto => createBooking tenantId dto
  | .update bookingId dto => updateBooking tenantId bookingId dto

variable {db : Db} {tenantId bookingId : Id} {moment : Moment commerce} {service : Option Prisma.Reference}
  {customer : Option Id}

def activeService (db : Db) (tenantId : Id) : Prisma.Reference → Bool
  | .refused => false
  | .id serviceId =>
    ((db.table .service).rows.find? fun row => row.id = serviceId && row.tenantId = tenantId).any fun row =>
      row.status = .active

def knownCustomer (db : Db) (tenantId customerId : Id) : Bool :=
  ((db.table .customer).rows.find? fun row => row.id = customerId && row.tenantId = tenantId).isSome

/-- The service that a write has to look up is active, and the customer exists. -/
def References (db : Db) (tenantId : Id) (service : Option Prisma.Reference) (customer : Option Id) : Prop :=
  (∀ reference ∈ service, activeService db tenantId reference = true) ∧ ∀ id ∈ customer, knownCustomer db tenantId id = true

instance (db : Db) (tenantId : Id) (service : Option Prisma.Reference) (customer : Option Id) :
    Decidable (References db tenantId service customer) :=
  inferInstanceAs (Decidable (_ ∧ _))

/-- The lookups of both calls. -/
def lookups (tenantId : Id) (service : Option Prisma.Reference) (customer : Option Id) : Service Unit := do
  service.elim (pure ()) (assertActiveService tenantId)
  customer.elim (pure ()) (assertCustomer tenantId)

/-- A refusal of the calls' own that is no bad request. -/
def Elsewhere {α : Type} (result : Except (Failure HttpException) α) : Prop :=
  ∃ exception, result = .error (.thrown exception) ∧ ∀ message, exception ≠ .badRequest message

private theorem evaluate_findFirst {m : Model} {filter : m.Row → Bool} :
    (Prisma.findFirst m filter).evaluate none moment = (.ok ((moment.database.table m).rows.find? filter), none, moment.tick) := by
  rw [Prisma.findFirst, findFirst, evaluate_bind]
  simp only [findMany, send, evaluate, Statement.effect, Query.exec, arrange]
  rw [← List.head?_filter]
  rfl

private theorem assertActiveService_evaluate (moment : Moment commerce) (tenantId serviceId : Id) :
    ∃ result, (assertActiveService tenantId (.id serviceId)).evaluate none moment = (result, none, moment.tick) ∧
      if activeService moment.database tenantId (.id serviceId) then result = .ok () else Elsewhere result := by
  rw [assertActiveService, Prisma.sendText, pure_bind, evaluate_bind, evaluate_findFirst, activeService]
  cases (moment.database.table .service).rows.find? fun row : Model.service.Row => row.id = serviceId && row.tenantId = tenantId with
  | none => exact ⟨_, rfl, _, rfl, nofun⟩
  | some service =>
    change ∃ result, (throwIf (service.status ≠ .active) (.conflict SERVICE_NOT_ACTIVE) : Service Unit).evaluate none moment.tick = _ ∧
      if decide (service.status = .active) = true then _ else _
    cases service.status with
    | active => exact ⟨.ok (), rfl, rfl⟩
    | draft | archived => exact ⟨_, rfl, _, rfl, nofun⟩

private theorem assertCustomer_evaluate (moment : Moment commerce) (tenantId customerId : Id) :
    ∃ result, (assertCustomer tenantId customerId).evaluate none moment = (result, none, moment.tick) ∧
      if knownCustomer moment.database tenantId customerId then result = .ok () else Elsewhere result := by
  rw [assertCustomer, evaluate_bind, evaluate_findFirst, knownCustomer]
  cases (moment.database.table .customer).rows.find? fun row : Model.customer.Row => row.id = customerId && row.tenantId = tenantId with
  | none => exact ⟨_, rfl, _, rfl, nofun⟩
  | some customer => exact ⟨.ok (), rfl, rfl⟩

/-- What the lookups of a call come to. -/
def Looked (db : Db) (tenantId : Id) (service : Option Prisma.Reference) (customer : Option Id)
    (result : Except (Failure HttpException) Unit) : Prop :=
  if service = some .refused then result = .error (.database .unknownRequest)
  else if References db tenantId service customer then result = .ok ()
  else Elsewhere result

theorem lookups_evaluate (moment : Moment commerce) (tenantId : Id) (service : Option Prisma.Reference)
    (customer : Option Id) : ∃ result later, (lookups tenantId service customer).evaluate none moment = (result, none, later) ∧
      later.database = moment.database ∧ moment.stamp ≤ later.stamp ∧
        Looked moment.database tenantId service customer result := by
  have known (current : Moment commerce) (rows : current.database = moment.database) : ∃ result later,
      (customer.elim (pure ()) (assertCustomer tenantId)).evaluate none current = (result, none, later) ∧
        later.database = moment.database ∧ current.stamp ≤ later.stamp ∧
        if ∀ id ∈ customer, knownCustomer moment.database tenantId id = true then result = .ok () else Elsewhere result := by
    cases customer with
    | none => exact ⟨.ok (), current, rfl, rows, Nat.le_refl _, by simp⟩
    | some id =>
      obtain ⟨result, evaluated, classified⟩ := assertCustomer_evaluate current tenantId id
      rw [rows] at classified
      exact ⟨result, current.tick, evaluated, rows, Nat.le_succ _, by simpa using classified⟩
  rw [lookups, evaluate_bind]
  rcases service with _ | serviceId | _
  case none =>
    obtain ⟨result, later, evaluated, rows, stamp, classified⟩ := known moment rfl
    exact ⟨result, later, evaluated, rows, stamp, by simpa [Looked, References] using classified⟩
  case refused => exact ⟨_, _, rfl, rfl, Nat.le_refl _, by simp [Looked]⟩
  case id =>
    obtain ⟨first, looked, active⟩ := assertActiveService_evaluate moment tenantId serviceId
    simp only [Option.elim_some]
    rw [looked]
    split at active
    next there =>
      subst active
      obtain ⟨result, later, evaluated, rows, stamp, classified⟩ := known moment.tick rfl
      refine ⟨result, later, evaluated, rows, (Nat.le_succ _).trans stamp, ?_⟩
      simpa [Looked, References, there] using classified
    next missing =>
      obtain ⟨exception, rfl, other⟩ := active
      refine ⟨_, _, rfl, rfl, Nat.le_succ _, ?_⟩
      rw [Looked, if_neg (by simp), if_neg fun references => missing (references.1 _ rfl)]
      exact ⟨exception, rfl, other⟩

/-- `createBooking` looks up its references, and stores the booking. -/
theorem createBooking_eq (tenantId : Id) (dto : CreateBookingDto) : createBooking tenantId dto =
    lookups tenantId (some dto.serviceId) dto.customerId.join >>= fun _ =>
      tryCatch (insertBooking tenantId dto) (fun failure =>
        if isConflictError failure then throw (.conflict OVERLAP_ERROR)
        else if isCheckConstraintViolation failure then throw (.badRequest END_NOT_AFTER_START)
        else .done (.error failure)) >>= fun booking => pure (toSummary booking) := by
  rw [createBooking, lookups, bind_assoc]
  cases dto.customerId.join <;> rfl

/-- The service and the customer that a patch changes to. -/
def changedService (booking : Booking) (dto : UpdateBookingDto) : Option Prisma.Reference :=
  dto.serviceId.join.bind fun serviceId => if serviceId = .id booking.serviceId then none else some serviceId

def changedCustomer (booking : Booking) (dto : UpdateBookingDto) : Option Id :=
  dto.customerId.join.bind fun customerId => if some customerId = booking.customerId then none else some customerId

/-- `updateBooking` looks up what the patch changes of the booking, and stores it. -/
theorem updateBooking_eq (tenantId bookingId : Id) (dto : UpdateBookingDto) : updateBooking tenantId bookingId dto =
    findBooking tenantId bookingId >>= fun booking => orThrow booking (.notFound BOOKING_NOT_FOUND) >>= fun booking =>
      lookups tenantId (changedService booking dto) (changedCustomer booking dto) >>= fun _ =>
        tryCatch (writeBooking tenantId bookingId dto) (fun failure =>
          if isConflictError failure then throw (.conflict OVERLAP_ERROR) else .done (.error failure)) >>= fun booking =>
            pure (toSummary booking) := by
  rw [updateBooking]
  congr 1
  funext found
  congr 1
  funext booking
  rw [lookups, bind_assoc, changedService, changedCustomer]
  cases dto.serviceId.join with
  | none =>
    cases dto.customerId.join with
    | none => rfl
    | some customerId =>
      simp only [Option.bind_some]
      split <;> rfl
  | some serviceId =>
    simp only [Option.bind_some]
    cases dto.customerId.join with
    | none => split <;> rfl
    | some customerId =>
      simp only [Option.bind_some]
      by_cases same : some customerId = booking.customerId
      · simp only [if_pos same]
        split <;> rfl
      · simp only [if_neg same]
        split <;> rfl

def newBooking (tenantId serviceId : Id) (dto : CreateBookingDto) (startAt endAt : Timestamp) (id now : Nat) : Booking :=
  { id, tenantId, serviceId, customerId := dto.customerId.join, orderId := none, startAt, endAt
    status := dto.status.join.getD .booked, createdAt := now }

/-- No column that a patch names is null, and no date is invalid. -/
def Acceptable (dto : UpdateBookingDto) : Prop :=
  dto.serviceId ≠ some none ∧ dto.startAt ≠ some none ∧ dto.endAt ≠ some none ∧ dto.status ≠ some none

/-- The booking that a call is about to store. -/
inductive Results (db : Db) (tenantId : Id) : BookingWrite → Booking → Prop where
  | created {dto : CreateBookingDto} {serviceId : Id} {startAt endAt : Timestamp} (id now : Nat)
      (fresh : db.get .booking id = none) (service : dto.serviceId = .id serviceId)
      (start : dto.startAt = some startAt) (finish : dto.endAt = some endAt) (status : dto.status ≠ some none)
      (references : References db tenantId (some dto.serviceId) dto.customerId.join) :
      Results db tenantId (.create dto) (newBooking tenantId serviceId dto startAt endAt id now)
  | patched {bookingId : Id} {dto : UpdateBookingDto} {booking : Booking}
      (found : ((db.table .booking).rows.find? fun row : Booking => row.id = bookingId && row.tenantId = tenantId) = some booking)
      (acceptable : Acceptable dto)
      (references : References db tenantId (changedService booking dto) (changedCustomer booking dto)) :
      Results db tenantId (.update bookingId dto) ((patch dto).apply booking)

/-- A write sends a text or a date that cannot be stored: no lookup or invalid date
has stopped it before. -/
inductive Unstorable (db : Db) (tenantId : Id) : BookingWrite → Prop where
  | service {dto : CreateBookingDto} (refused : dto.serviceId = .refused) : Unstorable db tenantId (.create dto)
  | dates {dto : CreateBookingDto} {startAt endAt : Timestamp}
      (references : References db tenantId (some dto.serviceId) dto.customerId.join)
      (start : dto.startAt = some startAt) (finish : dto.endAt = some endAt)
      (outside : (Prisma.dates.covers startAt && Prisma.dates.covers endAt) = false) : Unstorable db tenantId (.create dto)
  | newService {bookingId : Id} {dto : UpdateBookingDto} {booking : Booking}
      (found : ((db.table .booking).rows.find? fun row : Booking => row.id = bookingId && row.tenantId = tenantId) = some booking)
      (refused : dto.serviceId = some (some .refused)) : Unstorable db tenantId (.update bookingId dto)
  | newDates {bookingId : Id} {dto : UpdateBookingDto} {booking : Booking}
      (found : ((db.table .booking).rows.find? fun row : Booking => row.id = bookingId && row.tenantId = tenantId) = some booking)
      (references : References db tenantId (changedService booking dto) (changedCustomer booking dto))
      (start : dto.startAt ≠ some none) (finish : dto.endAt ≠ some none)
      (outside : (dto.startAt.join.all Prisma.dates.covers && dto.endAt.join.all Prisma.dates.covers) = false) :
      Unstorable db tenantId (.update bookingId dto)

/-- It holds its slot, and another booking of the service holds a part of it. -/
def Overlapping (db : Db) (booking : Booking) : Prop :=
  booking.status.holding = true ∧ ∃ other ∈ (db.table .booking).rows, Booking.id other ≠ booking.id ∧
    other.serviceId = booking.serviceId ∧ other.status.holding = true ∧ booking.overlaps other = true

theorem overlapping_iff {booking : Booking} : Overlapping db booking ↔
    excluded (S := commerce) (m := .booking) (db.table .booking) booking = true := by
  simp only [Overlapping, excluded, Model.excludes, List.any_eq_true, Bool.and_eq_true, decide_eq_true_eq]
  constructor
  · rintro ⟨holding, other, member, different, service, held, overlaps⟩
    exact ⟨other, member, different, ⟨⟨holding, held⟩, service.symm⟩, overlaps⟩
  · rintro ⟨other, member, different, ⟨⟨holding, held⟩, service⟩, overlaps⟩
    exact ⟨holding, other, member, different, service.symm, held, overlaps⟩

/-- What the call answers, and the database after it. -/
abbrev BookingWrite.outcome (write : BookingWrite) (tenantId : Id) (moment : Moment commerce) :
    Except (Failure HttpException) BookingSummary × Db :=
  (((write.program tenantId).evaluate none moment).1, ((write.program tenantId).evaluate none moment).2.2.database)

/-- A reversed interval is a bad request, an overlap is a conflict, a call that fails
leaves every row as it is, and no error of the database is passed on. -/
structure Classified (tenantId : Id) (write : BookingWrite) (moment : Moment commerce) : Prop where
  reversed : ∀ booking, Results moment.database tenantId write booking → booking.endAt ≤ booking.startAt →
    ∃ message, (write.outcome tenantId moment).1 = .error (.thrown (.badRequest message))
  overlapping : ∀ booking, Results moment.database tenantId write booking → booking.startAt < booking.endAt →
    Overlapping moment.database booking → ∃ message, (write.outcome tenantId moment).1 = .error (.thrown (.conflict message))
  unchanged : ∀ failure, (write.outcome tenantId moment).1 = .error failure →
    (write.outcome tenantId moment).2 = moment.database
  mapped : ∀ error, (write.outcome tenantId moment).1 ≠ .error (.database error)

theorem lookups_reading : (lookups tenantId service customer).Reading := by
  refine Reading.bind ?_ fun _ => ?_
  · cases service with
    | none => trivial
    | some serviceId =>
      refine Reading.bind ?_ fun _ => Reading.findFirst.bind fun _ => Reading.orThrow.bind fun _ => .throwIf
      cases serviceId <;> trivial
  · cases customer with
    | none => trivial
    | some customerId => exact Reading.findFirst.bind fun _ => .throwIf

theorem program_atomic (write : BookingWrite) : (write.program tenantId).Atomic := by
  cases write with
  | create dto =>
    rw [BookingWrite.program, createBooking_eq]
    refine .afterReading lookups_reading fun _ => .answer (.rethrown (fun failure => ?_) ?_)
    · split
      · exact ⟨_, rfl⟩
      · split <;> exact ⟨_, rfl⟩
    · unfold insertBooking
      split
      · exact .reading trivial
      · exact .reading trivial
      iterate 3
        split
        · exact .reading trivial
      · exact .query
  | update bookingId dto =>
    rw [BookingWrite.program, updateBooking_eq]
    refine .afterReading .findFirst fun _ => .afterReading .orThrow fun _ => .afterReading lookups_reading fun _ =>
      .answer (.rethrown (fun failure => ?_) ?_)
    · split <;> exact ⟨_, rfl⟩
    · unfold writeBooking
      iterate 4
        split
        · exact .reading trivial
      · exact .query

private theorem reported_evaluate {request : Service Booking} {handler : Failure HttpException → Service Booking}
    (report : Failure HttpException → Failure HttpException) (reports : ∀ failure, handler failure = .done (.error (report failure))) :
    ((request.tryCatch handler >>= fun booking => pure (toSummary booking)).evaluate none moment).1 =
      match (request.evaluate none moment).1 with
      | .ok booking => .ok (toSummary booking)
      | .error failure => .error (report failure) := by
  rw [evaluate_bind, evaluate_tryCatch]
  rcases request.evaluate none moment with ⟨failure | booking, pending, later⟩
  · simp only [reports]
    rfl
  · rfl

/-- What `createBooking` and `updateBooking` make of the failures of their writes. -/
def createReport (failure : Failure HttpException) : Failure HttpException :=
  if isConflictError failure then .thrown (.conflict OVERLAP_ERROR)
  else if isCheckConstraintViolation failure then .thrown (.badRequest END_NOT_AFTER_START)
  else failure

def updateReport (failure : Failure HttpException) : Failure HttpException :=
  if isConflictError failure then .thrown (.conflict OVERLAP_ERROR) else failure

/-- A booking whose interval is not reversed is refused for a conflict. -/
private theorem constrain_conflict {booking : Booking} {error : DatabaseError} (less : booking.startAt < booking.endAt)
    (refused : constrain (S := commerce) (m := .booking) db booking = .error error) :
    isConflictError (.database error) = true := by
  rcases constrain_error refused with ⟨_, _, rfl⟩ | ⟨unchecked, rfl⟩ | ⟨_, rfl⟩ | ⟨_, _, _, rfl⟩
  · rfl
  · simp [Model.check, less] at unchecked
  · rfl
  · rfl

private theorem constrain_kinds {booking : Booking} {error : DatabaseError}
    (refused : constrain (S := commerce) (m := .booking) db booking = .error error) :
    isConflictError (.database error) = true ∨ error = .checkViolation := by
  rcases constrain_error refused with ⟨_, _, rfl⟩ | ⟨_, rfl⟩ | ⟨_, rfl⟩ | ⟨_, _, _, rfl⟩
  · exact .inl rfl
  · exact .inr rfl
  · exact .inl rfl
  · exact .inl rfl

/-- What the insertion of a new booking comes to. -/
def inserted (db : Db) (tenantId : Id) (dto : CreateBookingDto) (id now : Nat) : Except DatabaseError Booking :=
  match dto.startAt, dto.endAt with
  | none, _ | _, none => .error .validation
  | some startAt, some endAt =>
    if !(Prisma.dates.covers startAt && Prisma.dates.covers endAt) then .error .unknownRequest
    else if dto.status = some none then .error .validation
    else match dto.serviceId with
      | .refused => .error .unknownRequest
      | .id serviceId =>
        match constrain (S := commerce) (m := .booking) db (newBooking tenantId serviceId dto startAt endAt id now) with
        | .error error => .error error
        | .ok () => .ok (newBooking tenantId serviceId dto startAt endAt id now)

private theorem insertBooking_evaluate {dto : CreateBookingDto} (fresh : moment.database.get .booking moment.stamp = none) :
    ((insertBooking tenantId dto).evaluate none moment).1 =
      match inserted moment.database tenantId dto moment.stamp moment.clock with
      | .error error => .error (.database error)
      | .ok booking => .ok booking := by
  unfold insertBooking inserted
  cases dto.startAt with
  | none => rfl
  | some startAt =>
    cases dto.endAt with
    | none => rfl
    | some endAt =>
      dsimp only
      split
      · rfl
      split
      · rfl
      cases dto.serviceId with
      | refused => rfl
      | id serviceId =>
        have free : (moment.database.get .booking (commerce.key (m := .booking)
            (newBooking tenantId serviceId dto startAt endAt moment.stamp moment.clock))).isSome = false := by
          change (moment.database.get .booking moment.stamp).isSome = false
          rw [fresh]
          rfl
        change ((Prisma.create .booking (newBooking tenantId serviceId dto startAt endAt)).evaluate none moment).1 = _
        rw [Prisma.create, create, evaluate_query, Query.exec]
        simp only [free, Bool.false_eq_true, if_false]
        cases constrain (S := commerce) (m := .booking) moment.database
          (newBooking tenantId serviceId dto startAt endAt moment.stamp moment.clock) <;> rfl

/-- What `createBooking` answers: of its references, or of the insertion. -/
private theorem createBooking_answer (tenantId : Id) (dto : CreateBookingDto)
    (new : ∀ row ∈ (moment.database.table .booking).rows, Booking.id row < moment.stamp) :
    ∃ id now, moment.database.get .booking id = none ∧
      if dto.serviceId = .refused then
        (BookingWrite.outcome (.create dto) tenantId moment).1 = .error (.database .unknownRequest)
      else if References moment.database tenantId (some dto.serviceId) dto.customerId.join then
        (BookingWrite.outcome (.create dto) tenantId moment).1 =
          match inserted moment.database tenantId dto id now with
          | .ok booking => .ok (toSummary booking)
          | .error error => .error (createReport (.database error))
      else Elsewhere (BookingWrite.outcome (.create dto) tenantId moment).1 := by
  obtain ⟨result, later, looked, rows, stamp, classified⟩ := lookups_evaluate moment tenantId (some dto.serviceId)
    dto.customerId.join
  have fresh : moment.database.get .booking later.stamp = none := by
    refine Table.find_eq_none.mpr fun row member same => ?_
    have older : row.id < later.stamp := Nat.lt_of_lt_of_le (new row member) stamp
    have same : row.id = later.stamp := same
    exact absurd older (same ▸ Nat.lt_irrefl _)
  refine ⟨later.stamp, later.clock, fresh, ?_⟩
  rw [BookingWrite.outcome, BookingWrite.program, createBooking_eq, evaluate_bind, looked]
  simp only [Looked, Option.some.injEq] at classified
  split at classified
  next refused =>
    rw [if_pos refused, classified]
  next known =>
    rw [if_neg known]
    split at classified
    next references =>
      rw [if_pos references]
      subst classified
      dsimp only
      rw [reported_evaluate createReport fun failure => ?_, insertBooking_evaluate (by rw [rows]; exact fresh), rows]
      · cases inserted moment.database tenantId dto later.stamp later.clock <;> rfl
      · rw [createReport]
        split
        · rfl
        · split <;> rfl
    next missing =>
      rw [if_neg missing]
      obtain ⟨exception, rfl, other⟩ := classified
      exact ⟨exception, rfl, other⟩

private theorem inserted_dated {dto : CreateBookingDto} {serviceId : Id} {startAt endAt : Timestamp} {id now : Nat}
    (service : dto.serviceId = .id serviceId) (start : dto.startAt = some startAt) (finish : dto.endAt = some endAt)
    (status : dto.status ≠ some none) (covered : (Prisma.dates.covers startAt && Prisma.dates.covers endAt) = true) :
    inserted db tenantId dto id now =
      match constrain (S := commerce) (m := .booking) db (newBooking tenantId serviceId dto startAt endAt id now) with
      | .error error => .error error
      | .ok () => .ok (newBooking tenantId serviceId dto startAt endAt id now) := by
  unfold inserted
  simp only [start, finish, service, covered, status, Bool.not_true, Bool.false_eq_true, if_false]

/-- Without an order a reversed booking violates the CHECK constraint first. -/
private theorem constrain_reversed {booking : Booking} (unordered : booking.orderId = none) (reversed : booking.endAt ≤ booking.startAt) :
    constrain (S := commerce) (m := .booking) db booking = .error .checkViolation := by
  have free : clash (S := commerce) (m := .booking) (db.table .booking) booking = none := by
    simp [clash, Model.indexes, unordered]
  have unchecked : Model.check (m := .booking) booking = false := decide_eq_false (not_lt.mpr reversed)
  simp only [constrain, free, unchecked, Bool.not_false, if_true]

private theorem inserted_kinds {dto : CreateBookingDto} {id now : Nat} {error : DatabaseError} (known : dto.serviceId ≠ .refused)
    (sent : ∀ startAt endAt, dto.startAt = some startAt → dto.endAt = some endAt →
      (Prisma.dates.covers startAt && Prisma.dates.covers endAt) = true)
    (refused : inserted db tenantId dto id now = .error error) :
    isConflictError (.database error) = true ∨ error = .checkViolation := by
  unfold inserted at refused
  split at refused
  next =>
    cases refused
    exact .inl rfl
  next =>
    cases refused
    exact .inl rfl
  next start finish =>
    simp only [sent _ _ start finish, Bool.not_true, Bool.false_eq_true, if_false] at refused
    split at refused
    · cases refused
      exact .inl rfl
    split at refused
    next same => exact absurd same known
    next =>
      split at refused
      next unfit =>
        cases refused
        exact constrain_kinds unfit
      next => cases refused

/-- `createBooking` classifies what the database refuses, if what it sends can be stored. -/
theorem createBooking_classified {dto : CreateBookingDto}
    (new : ∀ row ∈ (moment.database.table .booking).rows, Booking.id row < moment.stamp) :
    Classified tenantId (.create dto) moment ↔ ¬ Unstorable moment.database tenantId (.create dto) := by
  obtain ⟨id, now, fresh, answer⟩ := createBooking_answer tenantId dto new
  constructor
  · intro classified unstorable
    refine classified.mapped .unknownRequest ?_
    cases unstorable with
    | service refused => rwa [if_pos refused] at answer
    | dates references start finish outside =>
      split at answer
      · exact answer
      · rw [answer]
        unfold inserted
        simp only [start, finish, outside, Bool.not_false, if_true]
        rfl
  intro storable
  have known : dto.serviceId ≠ .refused := fun refused => storable (.service refused)
  rw [if_neg known] at answer
  have sent (references : References moment.database tenantId (some dto.serviceId) dto.customerId.join) (startAt endAt : Timestamp)
      (start : dto.startAt = some startAt) (finish : dto.endAt = some endAt) :
      (Prisma.dates.covers startAt && Prisma.dates.covers endAt) = true := by
    by_contra outside
    exact storable (.dates references start finish (Bool.eq_false_iff.mpr outside))
  refine ⟨fun booking results reversed => ?_, fun booking results less overlapping => ?_, fun failure failed => ?_, fun error same => ?_⟩
  · cases results with
    | @created _ serviceId startAt endAt _ _ _ service start finish status references =>
      have refused : constrain (S := commerce) (m := .booking) moment.database
          (newBooking tenantId serviceId dto startAt endAt id now) = .error .checkViolation := constrain_reversed rfl reversed
      rw [if_pos references, inserted_dated service start finish status (sent references _ _ start finish), refused] at answer
      exact ⟨_, answer⟩
  · cases results with
    | @created _ serviceId startAt endAt _ _ _ service start finish status references =>
      have excluded : excluded (S := commerce) (m := .booking) (moment.database.table .booking)
          (newBooking tenantId serviceId dto startAt endAt id now) = true := by
        obtain ⟨holding, other, member, _, same, held, overlaps⟩ := overlapping
        refine overlapping_iff.mp ⟨holding, other, member, fun same => ?_, same, held, overlaps⟩
        exact Table.find_eq_none.mp fresh other member same
      rw [if_pos references, inserted_dated service start finish status (sent references _ _ start finish)] at answer
      cases refused : constrain (S := commerce) (m := .booking) moment.database
          (newBooking tenantId serviceId dto startAt endAt id now) with
      | ok _ =>
        have apart := (constrain_iff.mp refused).2.2.1
        rw [excluded] at apart
        cases apart
      | error error =>
        have less : (newBooking tenantId serviceId dto startAt endAt id now).startAt <
            (newBooking tenantId serviceId dto startAt endAt id now).endAt := less
        rw [refused] at answer
        refine ⟨OVERLAP_ERROR, answer.trans ?_⟩
        simp only [createReport, constrain_conflict less refused, if_true]
  · exact program_atomic _ moment failure failed
  · by_cases references : References moment.database tenantId (some dto.serviceId) dto.customerId.join
    · rw [if_pos references, same] at answer
      cases outcome : inserted moment.database tenantId dto id now with
      | ok booking =>
        rw [outcome] at answer
        cases answer
      | error cause =>
        rw [outcome] at answer
        rcases inserted_kinds known (sent references) outcome with conflict | rfl
        · simp [createReport, conflict] at answer
        · simp [createReport, isConflictError, isCheckConstraintViolation] at answer
    · rw [if_neg references, same] at answer
      obtain ⟨_, other, _⟩ := answer
      cases other

/-- What the patch of a booking comes to. -/
def patched (db : Db) (dto : UpdateBookingDto) (booking : Booking) : Except DatabaseError Booking :=
  if dto.startAt = some none || dto.endAt = some none then .error .validation
  else if !(dto.startAt.join.all Prisma.dates.covers && dto.endAt.join.all Prisma.dates.covers) then .error .unknownRequest
  else if dto.serviceId = some none || dto.status = some none then .error .validation
  else if dto.serviceId = some (some .refused) then .error .unknownRequest
  else
    match constrain (S := commerce) (m := .booking) (db.applyAll [.put .booking ((patch dto).apply booking)])
      ((patch dto).apply booking) with
    | .error error => .error error
    | .ok () => .ok ((patch dto).apply booking)

private theorem writeBooking_evaluate {dto : UpdateBookingDto} {booking : Booking}
    (found : ((moment.database.table .booking).rows.find? fun row : Booking => row.id = bookingId && row.tenantId = tenantId) =
      some booking) :
    ((writeBooking tenantId bookingId dto).evaluate none moment).1 =
      match patched moment.database dto booking with
      | .error error => .error (.database error)
      | .ok booking => .ok booking := by
  unfold writeBooking patched
  iterate 4
    split
    · rfl
  rw [Prisma.update, update, evaluate_query, Query.exec]
  rw [← List.head?_filter] at found
  cases listed : (moment.database.table .booking).rows.filter fun row : Booking =>
      row.id = bookingId && row.tenantId = tenantId with
  | nil =>
    rw [listed] at found
    cases found
  | cons row rest =>
    rw [listed] at found
    cases found
    simp only [modified, List.map_cons, List.map_nil, constrainAll]
    cases constrain (S := commerce) (m := .booking) (moment.database.applyAll [.put .booking ((patch dto).apply booking)])
      ((patch dto).apply booking) <;> rfl

private theorem changedService_refused {booking : Booking} {dto : UpdateBookingDto} :
    changedService booking dto = some .refused ↔ dto.serviceId = some (some .refused) := by
  unfold changedService
  rcases dto.serviceId with _ | _ | serviceId | _
  · simp
  · simp
  · simp [Option.join]
  · simp [Option.join]

/-- What `updateBooking` answers of a booking that is there: of its references, or of the patch. -/
private theorem updateBooking_answer (dto : UpdateBookingDto) {booking : Booking}
    (found : ((moment.database.table .booking).rows.find? fun row : Booking => row.id = bookingId && row.tenantId = tenantId) =
      some booking) :
    if dto.serviceId = some (some .refused) then
      (BookingWrite.outcome (.update bookingId dto) tenantId moment).1 = .error (.database .unknownRequest)
    else if References moment.database tenantId (changedService booking dto) (changedCustomer booking dto) then
      (BookingWrite.outcome (.update bookingId dto) tenantId moment).1 =
        match patched moment.database dto booking with
        | .ok booking => .ok (toSummary booking)
        | .error error => .error (updateReport (.database error))
    else Elsewhere (BookingWrite.outcome (.update bookingId dto) tenantId moment).1 := by
  obtain ⟨result, later, looked, rows, _, classified⟩ := lookups_evaluate moment.tick tenantId
    (changedService booking dto) (changedCustomer booking dto)
  have same : later.database = moment.database := rows
  have begun : (BookingWrite.outcome (.update bookingId dto) tenantId moment).1 = ((do
      lookups tenantId (changedService booking dto) (changedCustomer booking dto)
      let booking ← tryCatch (writeBooking tenantId bookingId dto) fun failure =>
        if isConflictError failure then throw (.conflict OVERLAP_ERROR) else .done (.error failure)
      pure (toSummary booking) : Service BookingSummary).evaluate none moment.tick).1 := by
    rw [BookingWrite.outcome, BookingWrite.program, updateBooking_eq, evaluate_bind, findBooking, evaluate_findFirst, found]
    rfl
  rw [begun, evaluate_bind, looked]
  simp only [Looked, changedService_refused] at classified
  split at classified
  next refused => rw [if_pos refused, classified]
  next known =>
    rw [if_neg known]
    split at classified
    next references =>
      rw [if_pos (by exact references)]
      subst classified
      dsimp only
      rw [reported_evaluate updateReport fun failure => by rw [updateReport]; split <;> rfl,
        writeBooking_evaluate (by rw [same]; exact found), same]
      cases patched moment.database dto booking <;> rfl
    next missing =>
      rw [if_neg (by exact missing)]
      obtain ⟨exception, rfl, other⟩ := classified
      exact ⟨exception, rfl, other⟩

private theorem patched_dated {dto : UpdateBookingDto} {booking : Booking} (acceptable : Acceptable dto)
    (known : dto.serviceId ≠ some (some .refused))
    (covered : (dto.startAt.join.all Prisma.dates.covers && dto.endAt.join.all Prisma.dates.covers) = true) :
    patched db dto booking =
      match constrain (S := commerce) (m := .booking) (db.applyAll [.put .booking ((patch dto).apply booking)])
        ((patch dto).apply booking) with
      | .error error => .error error
      | .ok () => .ok ((patch dto).apply booking) := by
  obtain ⟨service, start, finish, status⟩ := acceptable
  simp [patched, service, start, finish, status, known, covered]

/-- What a patch is refused for, once its dates are sent: a violated CHECK only if it
reverses the interval. -/
private theorem patched_kinds {dto : UpdateBookingDto} {booking : Booking} {error : DatabaseError}
    (known : dto.serviceId ≠ some (some .refused))
    (sent : dto.startAt ≠ some none → dto.endAt ≠ some none →
      (dto.startAt.join.all Prisma.dates.covers && dto.endAt.join.all Prisma.dates.covers) = true)
    (less : Acceptable dto → ((patch dto).apply booking : Booking).startAt < ((patch dto).apply booking : Booking).endAt)
    (refused : patched db dto booking = .error error) : isConflictError (.database error) = true := by
  unfold patched at refused
  split at refused
  · cases refused
    rfl
  next dates =>
    simp only [Bool.or_eq_true, decide_eq_true_eq, not_or] at dates
    simp only [sent dates.1 dates.2, Bool.not_true, Bool.false_eq_true, if_false] at refused
    split at refused
    · cases refused
      rfl
    next columns =>
      simp only [Bool.or_eq_true, decide_eq_true_eq, not_or] at columns
      split at refused
      next unfit =>
        cases refused
        exact constrain_conflict (less ⟨columns.1, dates.1, dates.2, columns.2⟩) unfit
      next => cases refused

private theorem updateBooking_never {dto : UpdateBookingDto} {booking : Booking}
    (found : ((moment.database.table .booking).rows.find? fun row : Booking => row.id = bookingId && row.tenantId = tenantId) =
      some booking) (message : String) :
    (BookingWrite.outcome (.update bookingId dto) tenantId moment).1 ≠ .error (.thrown (.badRequest message)) := by
  intro same
  have answer := updateBooking_answer dto found
  rw [same] at answer
  split at answer
  · cases answer
  split at answer
  · cases outcome : patched moment.database dto booking with
    | ok booking =>
      rw [outcome] at answer
      cases answer
    | error error =>
      rw [outcome] at answer
      simp only [updateReport] at answer
      split at answer <;> cases answer
  · obtain ⟨_, failed, other⟩ := answer
    cases failed
    exact other message rfl

/-- `updateBooking` classifies what the database refuses, unless it is a reversed
interval or a value that cannot be stored. -/
theorem updateBooking_classified {dto : UpdateBookingDto} : Classified tenantId (.update bookingId dto) moment ↔
    ¬ Unstorable moment.database tenantId (.update bookingId dto) ∧
      ∀ booking, Results moment.database tenantId (.update bookingId dto) booking → booking.startAt < booking.endAt := by
  constructor
  · intro classified
    constructor
    · intro unstorable
      refine classified.mapped .unknownRequest ?_
      cases unstorable with
      | newService found refused =>
        have answer := updateBooking_answer dto found
        rwa [if_pos refused] at answer
      | @newDates _ _ booking found references start finish outside =>
        have answer := updateBooking_answer dto found
        split at answer
        · exact answer
        · rw [answer]
          have unsent : patched moment.database dto booking = .error .unknownRequest := by
            simp only [patched, start, finish, decide_false, Bool.or_self, outside, Bool.not_false, Bool.false_eq_true,
              if_false, if_true]
          rw [unsent]
          rfl
    · intro booking results
      by_contra reversed
      obtain ⟨message, failed⟩ := classified.reversed booking results (not_lt.mp reversed)
      cases results with
      | patched found acceptable references => exact updateBooking_never found message failed
  · rintro ⟨storable, ordered⟩
    have sent {booking : Booking}
        (found : ((moment.database.table .booking).rows.find? fun row : Booking => row.id = bookingId && row.tenantId = tenantId) =
          some booking)
        (references : References moment.database tenantId (changedService booking dto) (changedCustomer booking dto))
        (start : dto.startAt ≠ some none) (finish : dto.endAt ≠ some none) :
        (dto.startAt.join.all Prisma.dates.covers && dto.endAt.join.all Prisma.dates.covers) = true := by
      by_contra outside
      exact storable (.newDates found references start finish (Bool.eq_false_iff.mpr outside))
    refine ⟨fun booking results reversed => ?_, fun booking results less overlapping => ?_, fun failure failed => ?_,
      fun error same => ?_⟩
    · exact absurd (ordered booking results) (not_lt.mpr reversed)
    · cases results with
      | @patched _ _ booking found acceptable references =>
        have answer := updateBooking_answer dto found
        have known : dto.serviceId ≠ some (some .refused) := fun refused => storable (.newService found refused)
        rw [if_neg known, if_pos references,
          patched_dated acceptable known (sent found references acceptable.2.1 acceptable.2.2.1)] at answer
        cases refused : constrain (S := commerce) (m := .booking) (moment.database.applyAll [.put .booking ((patch dto).apply booking)])
            ((patch dto).apply booking) with
        | ok _ =>
          have apart := (constrain_put_iff.mp refused).2.2.1
          rw [overlapping_iff.mp overlapping] at apart
          cases apart
        | error error =>
          rw [refused] at answer
          refine ⟨OVERLAP_ERROR, answer.trans ?_⟩
          simp only [updateReport, constrain_conflict less refused, if_true]
    · exact program_atomic _ moment failure failed
    · cases found : (moment.database.table .booking).rows.find? fun row : Booking =>
          row.id = bookingId && row.tenantId = tenantId with
      | none =>
        rw [BookingWrite.outcome, BookingWrite.program, updateBooking_eq, evaluate_bind, findBooking, evaluate_findFirst, found] at same
        cases same
      | some booking =>
        have answer := updateBooking_answer dto found
        have known : dto.serviceId ≠ some (some .refused) := fun refused => storable (.newService found refused)
        rw [same, if_neg known] at answer
        split at answer
        next references =>
          cases outcome : patched moment.database dto booking with
          | ok booking =>
            rw [outcome] at answer
            cases answer
          | error cause =>
            have less (acceptable : Acceptable dto) := ordered _ (.patched found acceptable references)
            rw [outcome] at answer
            simp only [updateReport, patched_kinds known (sent found references) less outcome, if_true] at answer
            cases answer
        next =>
          obtain ⟨_, other, _⟩ := answer
          cases other

/-- Both calls classify what the database refuses, unless they send what cannot be
stored or patch a booking so that its interval is reversed. -/
theorem bookings_classified (tenantId : Id) (write : BookingWrite) (moment : Moment commerce)
    (new : ∀ row ∈ (moment.database.table .booking).rows, Booking.id row < moment.stamp) :
    Classified tenantId write moment ↔ ¬ Unstorable moment.database tenantId write ∧ ∀ bookingId dto, write = .update bookingId dto →
      ∀ booking, Results moment.database tenantId write booking → booking.startAt < booking.endAt := by
  cases write with
  | create dto =>
    rw [createBooking_classified new]
    exact ⟨fun storable => ⟨storable, fun _ _ same => by cases same⟩, And.left⟩
  | update bookingId dto =>
    rw [updateBooking_classified]
    refine and_congr_right fun _ => ⟨?_, fun ordered => ordered bookingId dto rfl⟩
    intro ordered _ _ same
    cases same
    exact ordered

/-- A service with a booking from 10 to 20. -/
def scheduled : Moment commerce where
  database := ⟨fun
    | .service => ⟨[⟨1, 0, .active⟩], by decide⟩
    | .booking => ⟨[⟨2, 0, 1, none, none, 10, 20, .booked, 0⟩], by decide⟩
    | _ => Table.empty⟩
  stamp := 50
  clock := 0

theorem bookings_classified_overlap : Classified 0 (.create ⟨1, none, some 15, some 25, none⟩) scheduled ∧
    (BookingWrite.outcome (.create ⟨1, none, some 15, some 25, none⟩) 0 scheduled).1 =
      .error (.thrown (.conflict OVERLAP_ERROR)) := by
  refine ⟨(bookings_classified 0 _ scheduled (by decide)).mpr ⟨?_, fun _ _ same => by cases same⟩, by decide +kernel⟩
  intro unstorable
  cases unstorable with
  | service refused => cases refused
  | dates references start finish outside =>
    cases start
    cases finish
    exact absurd outside (by decide)

/-- A patch moves the end of the booking before its start: the violated CHECK is passed on.
A new booking starts in the year 10000: what refuses the date is passed on, also where the
interval is reversed. -/
theorem patch_unclassified :
    (BookingWrite.outcome (.update 2 { endAt := some (some 5) }) 0 scheduled).1 = .error (.database .checkViolation) ∧
      ¬ Classified 0 (.update 2 { endAt := some (some 5) }) scheduled ∧
    (BookingWrite.outcome (.create ⟨1, none, some 253402340400000, some 25, none⟩) 0 scheduled).1 =
      .error (.database .unknownRequest) ∧
      ¬ Classified 0 (.create ⟨1, none, some 253402340400000, some 25, none⟩) scheduled := by
  have reversed : (BookingWrite.outcome (.update 2 { endAt := some (some 5) }) 0 scheduled).1 =
      .error (.database .checkViolation) := by decide +kernel
  have outside : (BookingWrite.outcome (.create ⟨1, none, some 253402340400000, some 25, none⟩) 0 scheduled).1 =
      .error (.database .unknownRequest) := by decide +kernel
  exact ⟨reversed, fun classified => classified.mapped _ reversed, outside, fun classified => classified.mapped _ outside⟩

end BusinessPlatform.BookingService
