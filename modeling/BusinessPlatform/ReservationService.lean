import BusinessPlatform.Client

/-! `ReservationService`: equipment that is held for an interval of time. -/

namespace BusinessPlatform.ReservationService
open Engine Program

inductive ReservationStatus where
  | reserved | active | completed | cancelled
  deriving DecidableEq, Repr

structure RentalCustomer where
  id : Id
  tenantId : Id
  deriving DecidableEq, Repr

structure Equipment where
  id : Id
  tenantId : Id
  deriving DecidableEq, Repr

structure Reservation where
  id : Id
  tenantId : Id
  customerId : Id
  equipmentId : Id
  startAt : Timestamp
  endAt : Timestamp
  status : ReservationStatus
  notes : Option String
  createdAt : Nat
  deriving DecidableEq, Repr

/-- The statuses in which a reservation holds its equipment. -/
def HOLDING_STATUSES : List ReservationStatus := [.reserved, .active]

namespace Reservation

def holding (row : Reservation) : Bool := row.status ∈ HOLDING_STATUSES

/-- CHECK ("endAt" > "startAt"). -/
def timeRangeCheck (row : Reservation) : Bool := row.startAt < row.endAt

/-- The constraint Reservation_no_overlap on two rows: ranges `[)` of one equipment
that have a common point, both WHERE "status" IN ('RESERVED', 'ACTIVE'). -/
def noOverlap (first second : Reservation) : Bool :=
  first.equipmentId = second.equipmentId && first.holding && second.holding &&
    decide (max first.startAt second.startAt < min first.endAt second.endAt)

end Reservation

inductive RentalModel where
  | customer | equipment | reservation
  deriving DecidableEq, Repr

namespace RentalModel

abbrev Row : RentalModel → Type
  | customer => RentalCustomer
  | equipment => Equipment
  | reservation => Reservation

def key : {m : RentalModel} → Row m → Id
  | customer => RentalCustomer.id
  | equipment => Equipment.id
  | reservation => Reservation.id

def check : {m : RentalModel} → Row m → Bool
  | customer | equipment => fun _ => true
  | reservation => Reservation.timeRangeCheck

def excludes : {m : RentalModel} → Row m → Row m → Bool
  | customer | equipment => fun _ _ => false
  | reservation => Reservation.noOverlap

def parents : {m : RentalModel} → Row m → List (RentalModel × Id)
  | customer | equipment => fun _ => []
  | reservation => fun row => [(customer, row.customerId), (equipment, row.equipmentId)]

end RentalModel

/-- The tables of the rentals. `enforced` tells whether the database has the
constraints of the migration, beside those that the client generates. -/
@[reducible] def rentals (enforced : Bool) : Schema where
  Model := RentalModel
  Row := RentalModel.Row
  Key _ := Id
  Index := Empty
  key := RentalModel.key
  indexes _ := []
  keyColumns _ := ["id"]
  columns := nofun
  check row := !enforced || RentalModel.check row
  excludes first second := enforced && RentalModel.excludes first second
  parents row := (RentalModel.parents row).map fun parent => ⟨parent.1, parent.2⟩
  cascade _ := []

variable {enforced : Bool}

abbrev Rental (enforced : Bool) (α : Type) : Type 1 := Program (rentals enforced) HttpException α

def RESERVATION_NOT_FOUND := "Reservation not found"
def CUSTOMER_NOT_FOUND := "Customer not found"
def EQUIPMENT_NOT_FOUND := "Equipment not found"
def OVERLAP_CONFLICT := "Equipment is already reserved for the selected period"
def NOT_MUTABLE := "Only reservations in RESERVED status can be updated"
def ALREADY_CANCELLED := "Reservation is already cancelled"
def INVALID_RANGE := "startAt must be before endAt"
def NOT_STARTABLE := "Only reservations in RESERVED status can be started"
def NOT_COMPLETABLE := "Only reservations in ACTIVE status can be completed"
def NOT_BEFORE_START := "Reservation cannot be started before its scheduled start time"
def NOT_BEFORE_END := "Reservation cannot be completed before its scheduled end time"

/-- What `new Date(…)` makes of a field. An invalid date has no time. -/
abbrev JsDate := Option Timestamp

structure CreateReservationDto where
  customerId : Id
  equipmentId : Id
  startAt : JsDate
  endAt : JsDate
  notes : Option (Option String) := none
  deriving DecidableEq, Repr

/-- A field is absent, or the date or text of its value: `new Date(null)` is the epoch. -/
structure UpdateReservationDto where
  startAt : Option JsDate := none
  endAt : Option JsDate := none
  notes : Option (Option String) := none
  deriving DecidableEq, Repr

/-- The client reports SQLSTATE 23P01 in the message. -/
def isExclusionViolation : Failure HttpException → Bool
  | .database .exclusionViolation => true
  | _ => false

def parseInstant (value : JsDate) : Rental enforced Timestamp := orThrow value (.badRequest "Invalid ISO-8601 timestamp")

def assertPositiveRange (startAt endAt : Timestamp) : Rental enforced Unit :=
  throwIf (!decide (startAt < endAt)) (.badRequest INVALID_RANGE)

/-- The `where` of the application's own check for another holding reservation. -/
def overlapping (tenantId equipmentId : Id) (startAt endAt : Timestamp) (excludeId : Option Id) (row : Reservation) : Bool :=
  row.equipmentId = equipmentId && decide (row.status ∈ HOLDING_STATUSES) && decide (row.startAt < endAt) &&
    decide (row.endAt > startAt) && decide (some row.id ≠ excludeId) && row.tenantId = tenantId

def assertNoOverlap (tenantId equipmentId : Id) (startAt endAt : Timestamp) (excludeId : Option Id) : Rental enforced Unit := do
  let found ← findFirst (S := rentals enforced) .reservation (overlapping tenantId equipmentId startAt endAt excludeId)
  throwIf found.isSome (.conflict OVERLAP_CONFLICT)

def resolveCustomerId (tenantId customerId : Id) : Rental enforced Unit := do
  let customer ← findFirst (S := rentals enforced) .customer fun row => row.id = customerId && row.tenantId = tenantId
  throwIf customer.isNone (.notFound CUSTOMER_NOT_FOUND)

def resolveEquipmentId (tenantId equipmentId : Id) : Rental enforced Unit := do
  let equipment ← findFirst (S := rentals enforced) .equipment fun row => row.id = equipmentId && row.tenantId = tenantId
  throwIf equipment.isNone (.notFound EQUIPMENT_NOT_FOUND)

/-- The reservation of the tenant that `where: { id }` finds. -/
def named (tenantId reservationId : Id) (row : Reservation) : Bool := row.id = reservationId && row.tenantId = tenantId

def findReservation (tenantId reservationId : Id) : Rental enforced (Option Reservation) :=
  findFirst (S := rentals enforced) .reservation (named tenantId reservationId)

/-- A violated exclusion constraint is a conflict as well. -/
def mapExclusion (request : Rental enforced Reservation) : Rental enforced Reservation :=
  tryCatch request fun failure =>
    if isExclusionViolation failure then throw (.conflict OVERLAP_CONFLICT) else .done (.error failure)

/-- The row that a request asks for, RESERVED by default. -/
def requested (tenantId : Id) (dto : CreateReservationDto) (startAt endAt : Timestamp) (id now : Nat) : Reservation :=
  { id, tenantId, customerId := dto.customerId, equipmentId := dto.equipmentId, startAt, endAt, status := .reserved
    notes := dto.notes.join, createdAt := now }

def createReservation (tenantId : Id) (dto : CreateReservationDto) : Rental enforced Reservation := do
  resolveCustomerId tenantId dto.customerId
  resolveEquipmentId tenantId dto.equipmentId
  let startAt ← parseInstant dto.startAt
  let endAt ← parseInstant dto.endAt
  assertPositiveRange startAt endAt
  assertNoOverlap tenantId dto.equipmentId startAt endAt none
  mapExclusion (create (S := rentals enforced) .reservation (requested tenantId dto startAt endAt))

/-- The columns that a patch names, with its parsed times. -/
def patch (dto : UpdateReservationDto) (startAt endAt : Timestamp) : Change (rentals enforced) .reservation where
  apply row :=
    { row with
      startAt := if dto.startAt.isSome then startAt else row.startAt
      endAt := if dto.endAt.isSome then endAt else row.endAt
      notes := dto.notes.getD row.notes }
  keeps _ := rfl

/-- The parsed time of a field, or the stored one. -/
def timeOf (field : Option JsDate) (stored : Timestamp) : Rental enforced Timestamp :=
  match field with
  | some value => parseInstant value
  | none => pure stored

def updateReservation (tenantId reservationId : Id) (dto : UpdateReservationDto) : Rental enforced Reservation := do
  let reservation ← findReservation tenantId reservationId
  let reservation ← orThrow reservation (.notFound RESERVATION_NOT_FOUND)
  throwIf (reservation.status ≠ .reserved) (.conflict NOT_MUTABLE)
  let startAt ← timeOf dto.startAt reservation.startAt
  let endAt ← timeOf dto.endAt reservation.endAt
  assertPositiveRange startAt endAt
  if dto.startAt.isSome || dto.endAt.isSome then
    assertNoOverlap tenantId reservation.equipmentId startAt endAt (some reservationId)
  else pure ()
  mapExclusion (update (S := rentals enforced) .reservation (named tenantId reservationId) (patch dto startAt endAt))

/-- `data: { status }`. -/
def setStatus (status : ReservationStatus) : Change (rentals enforced) .reservation where
  apply row := { row with status }
  keeps _ := rfl

/-- The strict state machine: only rows in one status move to another, once the
clock has reached a field of the row that was read. -/
def transition (tenantId reservationId : Id) (fromStatus toStatus : ReservationStatus) (conflictMessage : String)
    (field : Reservation → Timestamp) (message : String) : Rental enforced Reservation := do
  let reservation ← findReservation tenantId reservationId
  let reservation ← orThrow reservation (.notFound RESERVATION_NOT_FOUND)
  throwIf (reservation.status ≠ fromStatus) (.conflict conflictMessage)
  let now ← now
  throwIf (field reservation > now) (.conflict message)
  update (S := rentals enforced) .reservation (named tenantId reservationId) (setStatus toStatus)

def startReservation (tenantId reservationId : Id) : Rental enforced Reservation :=
  transition tenantId reservationId .reserved .active NOT_STARTABLE Reservation.startAt NOT_BEFORE_START

def completeReservation (tenantId reservationId : Id) : Rental enforced Reservation :=
  transition tenantId reservationId .active .completed NOT_COMPLETABLE Reservation.endAt NOT_BEFORE_END

/-- A soft cancel. -/
def deleteReservation (tenantId reservationId : Id) : Rental enforced Id := do
  let reservation ← findReservation tenantId reservationId
  let reservation ← orThrow reservation (.notFound RESERVATION_NOT_FOUND)
  throwIf (reservation.status = .cancelled) (.conflict ALREADY_CANCELLED)
  let _ ← update (S := rentals enforced) .reservation (named tenantId reservationId) (setStatus .cancelled)
  pure reservationId

inductive ReservationCall where
  | create (tenantId : Id) (dto : CreateReservationDto)
  | update (tenantId reservationId : Id) (dto : UpdateReservationDto)
  | start (tenantId reservationId : Id)
  | complete (tenantId reservationId : Id)
  | delete (tenantId reservationId : Id)
  deriving DecidableEq, Repr

/-- The reservation, or only the id of one that was deleted. -/
inductive ReservationResponse where
  | reservation (row : Reservation)
  | id (id : Id)
  deriving DecidableEq, Repr

def ReservationCall.program : ReservationCall → Rental enforced ReservationResponse
  | .create tenantId dto => do
    let row ← createReservation tenantId dto
    pure (.reservation row)
  | .update tenantId reservationId dto => do
    let row ← updateReservation tenantId reservationId dto
    pure (.reservation row)
  | .start tenantId reservationId => do
    let row ← startReservation tenantId reservationId
    pure (.reservation row)
  | .complete tenantId reservationId => do
    let row ← completeReservation tenantId reservationId
    pure (.reservation row)
  | .delete tenantId reservationId => do
    let id ← deleteReservation tenantId reservationId
    pure (.id id)

abbrev ReservationState (enforced : Bool) (ι : Type) : Type 1 :=
  State (rentals enforced) HttpException ReservationResponse ι

abbrev ReservationWorld (enforced : Bool) (ι : Type) : Type := World (rentals enforced) ι

variable {ι : Type} [DecidableEq ι]

def reservationSystem (database : Database (rentals enforced)) (calls : ι → ReservationCall) : ReservationState enforced ι :=
  State.initial database fun i => (calls i).program

end BusinessPlatform.ReservationService
