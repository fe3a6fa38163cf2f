import BusinessPlatform.Client

/-! `BookingService`: bookings of a service for an interval of time. -/

namespace BusinessPlatform.BookingService
open Engine Program

def BOOKING_NOT_FOUND := "Booking not found"
def OVERLAP_ERROR := "Another booking for this service overlaps the requested time"
def SERVICE_NOT_FOUND := "Service not found"
def CUSTOMER_NOT_FOUND := "Customer not found"
def SERVICE_NOT_ACTIVE := "Service is not active"
def END_NOT_AFTER_START := "End time must be after start time"

/-- What `new Date(…)` makes of a field. An invalid date has no time. -/
abbrev JsDate := Option Timestamp

structure CreateBookingDto where
  serviceId : Prisma.Reference
  customerId : Field Id := none
  startAt : JsDate
  endAt : JsDate
  status : Field BookingStatus := none
  deriving DecidableEq, Repr

/-- Here a date is absent, or the date of its value: `new Date(null)` is the
epoch. -/
structure UpdateBookingDto where
  serviceId : Field Prisma.Reference := none
  customerId : Field Id := none
  startAt : Option JsDate := none
  endAt : Option JsDate := none
  status : Field BookingStatus := none
  deriving DecidableEq, Repr

structure BookingSummary where
  id : Id
  tenantId : Id
  serviceId : Id
  customerId : Option Id
  orderId : Option Id
  startAt : Timestamp
  endAt : Timestamp
  status : BookingStatus
  createdAt : Nat
  deriving DecidableEq, Repr

def toSummary (booking : Booking) : BookingSummary :=
  ⟨booking.id, booking.tenantId, booking.serviceId, booking.customerId, booking.orderId, booking.startAt, booking.endAt,
    booking.status, booking.createdAt⟩

/-- P2002, P2003, the exclusion violation and arguments that the client refuses. -/
def isConflictError : Failure HttpException → Bool
  | .database (.uniqueViolation _) | .database .foreignKeyViolation | .database .exclusionViolation
  | .database .validation => true
  | _ => false

def isCheckConstraintViolation : Failure HttpException → Bool
  | .database .checkViolation => true
  | _ => false

def findBooking (tenantId bookingId : Id) : Service (Option Booking) :=
  Prisma.findFirst .booking fun row => row.id = bookingId && row.tenantId = tenantId

def assertActiveService (tenantId : Id) (serviceId : Prisma.Reference) : Service Unit := do
  let serviceId ← Prisma.sendText serviceId
  let service ← Prisma.findFirst .service fun row => row.id = serviceId && row.tenantId = tenantId
  let service ← orThrow service (.notFound SERVICE_NOT_FOUND)
  throwIf (service.status ≠ .active) (.conflict SERVICE_NOT_ACTIVE)

def assertCustomer (tenantId customerId : Id) : Service Unit := do
  let customer ← Prisma.findFirst .customer fun row => row.id = customerId && row.tenantId = tenantId
  throwIf customer.isNone (.notFound CUSTOMER_NOT_FOUND)

/-- The client refuses null for a required column, and invalid dates. -/
def refuseArguments {α : Type} : Service α := .done (.error (.database .validation))

def insertBooking (tenantId : Id) (dto : CreateBookingDto) : Service Booking :=
  match dto.startAt, dto.endAt with
  | none, _ | _, none => refuseArguments
  | some startAt, some endAt =>
    if !(Prisma.dates.covers startAt && Prisma.dates.covers endAt) then Prisma.refuseValue
    else if dto.status = some none then refuseArguments
    else match dto.serviceId with
      | .refused => Prisma.refuseValue
      | .id serviceId =>
        Prisma.create .booking fun id now =>
          { id, tenantId, serviceId, customerId := dto.customerId.join, orderId := none, startAt, endAt
            status := dto.status.join.getD .booked, createdAt := now }

def createBooking (tenantId : Id) (dto : CreateBookingDto) : Service BookingSummary := do
  assertActiveService tenantId dto.serviceId
  match dto.customerId.join with
  | some customerId => assertCustomer tenantId customerId
  | none => pure ()
  let booking ← tryCatch (insertBooking tenantId dto) fun failure =>
    if isConflictError failure then throw (.conflict OVERLAP_ERROR)
    else if isCheckConstraintViolation failure then throw (.badRequest END_NOT_AFTER_START)
    else .done (.error failure)
  pure (toSummary booking)

/-- The columns that a patch names. The order is never among them. -/
def patch (dto : UpdateBookingDto) : Change commerce .booking where
  apply row :=
    { row with
      serviceId := (dto.serviceId.join.bind Prisma.Reference.known).getD row.serviceId
      customerId := dto.customerId.getD row.customerId
      startAt := dto.startAt.join.getD row.startAt
      endAt := dto.endAt.join.getD row.endAt
      status := dto.status.join.getD row.status }
  keeps _ := rfl

def writeBooking (tenantId bookingId : Id) (dto : UpdateBookingDto) : Service Booking :=
  if dto.startAt = some none || dto.endAt = some none then refuseArguments
  else if !(dto.startAt.join.all Prisma.dates.covers && dto.endAt.join.all Prisma.dates.covers) then Prisma.refuseValue
  else if dto.serviceId = some none || dto.status = some none then refuseArguments
  else if dto.serviceId = some (some .refused) then Prisma.refuseValue
  else Prisma.update .booking (fun row => row.id = bookingId && row.tenantId = tenantId) (patch dto)

def updateBooking (tenantId bookingId : Id) (dto : UpdateBookingDto) : Service BookingSummary := do
  let booking ← findBooking tenantId bookingId
  let booking ← orThrow booking (.notFound BOOKING_NOT_FOUND)
  match dto.serviceId.join with
  | some serviceId => if serviceId = .id booking.serviceId then pure () else assertActiveService tenantId serviceId
  | none => pure ()
  match dto.customerId.join with
  | some customerId => if some customerId = booking.customerId then pure () else assertCustomer tenantId customerId
  | none => pure ()
  -- a violated CHECK is not among the errors that are mapped here
  let booking ← tryCatch (writeBooking tenantId bookingId dto) fun failure =>
    if isConflictError failure then throw (.conflict OVERLAP_ERROR) else .done (.error failure)
  pure (toSummary booking)

end BusinessPlatform.BookingService
