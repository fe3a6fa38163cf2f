import BusinessPlatform.Client

/-! `PaymentService`: payments of pending orders. -/

namespace BusinessPlatform.PaymentService
open Engine Program

def ORDER_NOT_FOUND := "Order not found"
def NOT_PENDING := "Order is not pending"
def CAPTURED_EXISTS := "Payment already captured for this order"
def PAYMENT_NOT_FOUND := "Payment not found"
def NOT_PROCESSING := "Payment is not in processing state"
def ALREADY_CAPTURED := "Payment already captured"
def ALREADY_FAILED := "Payment already failed"
def FAILED_CANNOT_CAPTURE := "Failed payment cannot be captured"
def CAPTURED_CANNOT_FAIL := "Captured payment cannot be failed"

structure CreatePaymentDto where
  orderId : Id
  method : String
  deriving DecidableEq, Repr

structure PaymentSummary where
  id : Id
  tenantId : Id
  orderId : Id
  status : PaymentStatus
  method : String
  amountMinor : String
  currency : String
  createdAt : Nat
  deriving DecidableEq, Repr

def toSummary (payment : Payment) : PaymentSummary :=
  { id := payment.id, tenantId := payment.tenantId, orderId := payment.orderId, status := payment.status
    method := payment.method, amountMinor := toString payment.amountMinor, currency := payment.currency
    createdAt := payment.createdAt }

def findPayment (tenantId paymentId : Id) : Service (Option Payment) :=
  Prisma.findFirst .payment fun row => row.id = paymentId && row.tenantId = tenantId

/-- Transaction T5: a payment of the full amount of a pending order. -/
def insertPayment (tenantId : Id) (dto : CreatePaymentDto) : Service PaymentSummary := do
  let order ← Prisma.findFirst .order fun row => row.id = dto.orderId && row.tenantId = tenantId
  let order ← orThrow order (.notFound ORDER_NOT_FOUND)
  throwIf (order.status ≠ .pending) (.conflict NOT_PENDING)
  let existingCaptured ← Prisma.findFirst .payment fun row =>
    row.orderId = dto.orderId && row.status = .captured && row.tenantId = tenantId
  throwIf existingCaptured.isSome (.conflict CAPTURED_EXISTS)
  let payment ← Prisma.create .payment fun id now =>
    { id, tenantId := order.tenantId, orderId := dto.orderId, status := .processing, method := dto.method
      amountMinor := order.subtotalMinor, currency := order.currency, createdAt := now }
  pure (toSummary payment)

def createPayment (tenantId : Id) (dto : CreatePaymentDto) : Service PaymentSummary :=
  transaction (insertPayment tenantId dto)

def getPayment (tenantId paymentId : Id) : Service PaymentSummary := do
  let payment ← findPayment tenantId paymentId
  let payment ← orThrow payment (.notFound PAYMENT_NOT_FOUND)
  pure (toSummary payment)

def setPayment (status : PaymentStatus) : Change commerce .payment where
  apply row := { row with status }
  keeps _ := rfl

def setOrder (status : OrderStatus) : Change commerce .order where
  apply row := { row with status }
  keeps _ := rfl

/-- The payment's row after its guarded update, `updated!`. -/
def updatedPayment (tenantId paymentId : Id) : Service PaymentSummary := do
  let updated ← findPayment tenantId paymentId
  let payment ← orThrow updated .internalServerError
  pure (toSummary payment)

/-- The guarded update of a processing payment. -/
def settlePayment (tenantId paymentId : Id) (status : PaymentStatus) : Service Nat :=
  Prisma.updateMany .payment
    (fun row => row.id = paymentId && row.status = .processing && row.tenantId = tenantId) (setPayment status)

/-- Transaction T2: PROCESSING to CAPTURED together with PENDING to PAID. -/
def capture (tenantId paymentId : Id) : Service PaymentSummary := do
  let payment ← findPayment tenantId paymentId
  let payment ← orThrow payment (.notFound PAYMENT_NOT_FOUND)
  if payment.status = .captured then pure (toSummary payment)
  else do
    throwIf (payment.status = .failed) (.conflict FAILED_CANNOT_CAPTURE)
    throwIf (payment.status ≠ .processing) (.conflict NOT_PROCESSING)
    let count ← settlePayment tenantId paymentId .captured
    throwIf (count = 0) (.conflict ALREADY_CAPTURED)
    let paid ← Prisma.updateMany .order
      (fun row => row.id = payment.orderId && row.status = .pending && row.tenantId = tenantId) (setOrder .paid)
    throwIf (paid = 0) (.conflict NOT_PENDING)
    updatedPayment tenantId paymentId

def capturePayment (tenantId paymentId : Id) : Service PaymentSummary :=
  transaction (capture tenantId paymentId)

def markFailed (tenantId paymentId : Id) : Service PaymentSummary := do
  let payment ← findPayment tenantId paymentId
  let payment ← orThrow payment (.notFound PAYMENT_NOT_FOUND)
  if payment.status = .failed then pure (toSummary payment)
  else do
    throwIf (payment.status = .captured) (.conflict CAPTURED_CANNOT_FAIL)
    throwIf (payment.status ≠ .processing) (.conflict NOT_PROCESSING)
    let count ← settlePayment tenantId paymentId .failed
    throwIf (count = 0) (.conflict ALREADY_FAILED)
    updatedPayment tenantId paymentId

def failPayment (tenantId paymentId : Id) : Service PaymentSummary :=
  transaction (markFailed tenantId paymentId)

end BusinessPlatform.PaymentService
