import BusinessPlatform.OrderService
import BusinessPlatform.PaymentService

/-! `PosSaleService`: the sale engine of the point of sale. It runs order,
payment and capture as separate transactions and records the sale last. -/

namespace BusinessPlatform.PosSaleService
open Engine Program OrderService PaymentService

def SESSION_NOT_FOUND := "POS session not found"
def SESSION_NOT_OPEN := "Only open sessions can create sales"
def DEVICE_NOT_ACTIVE := "Device is not active"
def OFFLINE_CASH_ONLY := "Offline payment must be cash"
def CASH := "CASH"

structure CreatePosSaleDto where
  sessionId : Id
  items : List OrderItemInputDto
  method : Option String := none
  customerId : Option Id := none
  bookingId : Option Id := none
  deriving DecidableEq, Repr

structure CreateSaleOptions where
  allowClosedSession : Bool := false
  offline : Bool := false
  deriving DecidableEq, Repr

structure PosSaleSummary where
  id : Id
  tenantId : Id
  orderId : Id
  paymentId : Id
  sessionId : Id
  deviceId : Id
  storeId : Id
  userId : Id
  orderStatus : OrderStatus
  paymentStatus : PaymentStatus
  method : String
  currency : String
  subtotalMinor : String
  items : List OrderItemSummary
  createdAt : Nat
  deriving DecidableEq, Repr

def toSummary (sale : PosSale) (order : OrderSummary) (payment : PaymentSummary) : PosSaleSummary :=
  { id := sale.id, tenantId := sale.tenantId, orderId := sale.orderId, paymentId := sale.paymentId
    sessionId := sale.sessionId, deviceId := sale.deviceId, storeId := sale.storeId, userId := sale.userId
    orderStatus := order.status, paymentStatus := payment.status, method := payment.method
    currency := payment.currency, subtotalMinor := order.subtotalMinor, items := order.items
    createdAt := sale.createdAt }

/-- The session of the sale; store, device and cashier derive from it. -/
def saleSession (tenantId userId sessionId : Id) (options : CreateSaleOptions) : Service PosSession := do
  let session ← Prisma.findFirst .posSession fun row => row.id = sessionId && row.tenantId = tenantId
  let session ← orThrow session (.notFound SESSION_NOT_FOUND)
  throwIf (session.status ≠ .opened && !options.allowClosedSession) (.conflict SESSION_NOT_OPEN)
  let device ← Prisma.findFirst .posDevice fun row => row.id = session.deviceId && row.tenantId = tenantId
  let device ← orThrow device (.notFound SESSION_NOT_FOUND)
  throwIf (device.status ≠ .active) (.conflict DEVICE_NOT_ACTIVE)
  throwIf (session.userId ≠ userId) (.notFound SESSION_NOT_FOUND)
  pure session

def orderDto (dto : CreatePosSaleDto) : CreateOrderDto :=
  { items := some dto.items, customerId := dto.customerId, bookingId := dto.bookingId }

/-- The booking reaches `createOrder` in its dto, which does not read it. -/
def orderOptions (session : PosSession) : CreateOrderOptions :=
  { inventoryScope := .store session.storeId }

/-- Cash is captured at once; other methods leave the payment processing. -/
def settle (tenantId : Id) (method : String) (order : OrderSummary) (payment : PaymentSummary) :
    Service (PaymentSummary × OrderSummary) :=
  if method = CASH then do
    let captured ← capturePayment tenantId payment.id
    let paid ← getOrder tenantId order.id
    pure (captured, paid)
  else pure (payment, order)

def recordSale (tenantId : Id) (session : PosSession) (orderId paymentId : Id) : Service PosSale :=
  Prisma.create .posSale fun id now =>
    { id, tenantId, orderId, paymentId, sessionId := session.id, deviceId := session.deviceId
      storeId := session.storeId, userId := session.userId, createdAt := now }

/-- Steps 2 to 5: the order, its payment, the capture and the sale's own row. -/
def executeSale (tenantId userId : Id) (dto : CreatePosSaleDto) (session : PosSession) :
    Service PosSaleSummary := do
  let method := dto.method.getD CASH
  let order ← createOrder tenantId userId (orderDto dto) (orderOptions session)
  let payment ← createPayment tenantId ⟨order.id, method⟩
  let (currentPayment, currentOrder) ← settle tenantId method order payment
  let sale ← recordSale tenantId session order.id payment.id
  pure (toSummary sale currentOrder currentPayment)

def createSale (tenantId userId : Id) (dto : CreatePosSaleDto) (options : CreateSaleOptions) :
    Service PosSaleSummary := do
  throwIf (options.offline && dto.method.isSome && dto.method ≠ some CASH) (.conflict OFFLINE_CASH_ONLY)
  let session ← saleSession tenantId userId dto.sessionId options
  executeSale tenantId userId dto session

end BusinessPlatform.PosSaleService
