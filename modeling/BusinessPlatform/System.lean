import BusinessPlatform.PosSyncService
import BusinessPlatform.CartService
import BusinessPlatform.BookingService

/-! Any number of concurrent calls of the services over one database. -/

namespace BusinessPlatform
open Engine InventoryService OrderService PaymentService PosSaleService PosOperationService PosSyncService CartService
open BookingService (CreateBookingDto UpdateBookingDto BookingSummary)

/-- One request with the tenant of its context and its authenticated user. -/
inductive Call where
  | adjustScoped (tenantId : Id) (scope : InventoryScope) (dto : AdjustInventoryDto)
  | createOrder (tenantId userId : Id) (dto : CreateOrderDto)
  | cancelOrder (tenantId orderId : Id)
  | createPayment (tenantId : Id) (dto : CreatePaymentDto)
  | capturePayment (tenantId paymentId : Id)
  | failPayment (tenantId paymentId : Id)
  | createSale (tenantId userId : Id) (dto : CreatePosSaleDto) (options : CreateSaleOptions)
  | recordOfflineSaleIntent (tenantId userId : Id) (dto : RecordOfflineSaleIntentDto)
  | syncOperation (tenantId userId operationId : Id) (deviceCredential : Option String)
  | createBooking (tenantId : Id) (dto : CreateBookingDto)
  | updateBooking (tenantId bookingId : Id) (dto : UpdateBookingDto)
  | getCart (tenantId userId : Id)
  | addItem (tenantId userId : Id) (dto : AddCartItemDto)
  | updateItem (tenantId userId itemId : Id) (dto : UpdateCartItemDto)
  | removeItem (tenantId userId itemId : Id)
  | discardCart (tenantId userId : Id)
  deriving DecidableEq, Repr

inductive Response where
  | inventory (summary : InventorySummary)
  | order (summary : OrderSummary)
  | payment (summary : PaymentSummary)
  | sale (summary : PosSaleSummary)
  | operation (summary : OfflineOperationSummary)
  | sync (result : SyncResult)
  | booking (summary : BookingSummary)
  | cart (summary : CartSummary)
  | empty
  deriving DecidableEq, Repr

/-- The order endpoint passes the booking of its dto on as an option. -/
def publicOptions (dto : CreateOrderDto) : CreateOrderOptions := { bookingId := dto.bookingId }

def respond {α : Type} (response : α → Response) (service : Service α) : Service Response := do
  let value ← service
  pure (response value)

def Call.program (sha256 : String → String) : Call → Service Response
  | adjustScoped tenantId scope dto => respond .inventory (InventoryService.adjustScoped tenantId scope dto)
  | createOrder tenantId userId dto =>
    respond .order (OrderService.createOrder tenantId userId dto (publicOptions dto))
  | cancelOrder tenantId orderId => respond .order (OrderService.cancelOrder tenantId orderId)
  | createPayment tenantId dto => respond .payment (PaymentService.createPayment tenantId dto)
  | capturePayment tenantId paymentId => respond .payment (PaymentService.capturePayment tenantId paymentId)
  | failPayment tenantId paymentId => respond .payment (PaymentService.failPayment tenantId paymentId)
  | createSale tenantId userId dto options => respond .sale (PosSaleService.createSale tenantId userId dto options)
  | recordOfflineSaleIntent tenantId userId dto =>
    respond .operation (PosOperationService.recordOfflineSaleIntent tenantId userId dto)
  | syncOperation tenantId userId operationId deviceCredential =>
    respond .sync (PosSyncService.syncOperation sha256 tenantId userId operationId deviceCredential)
  | createBooking tenantId dto => respond .booking (BookingService.createBooking tenantId dto)
  | updateBooking tenantId bookingId dto => respond .booking (BookingService.updateBooking tenantId bookingId dto)
  | getCart tenantId userId => respond .cart (CartService.getCart tenantId userId)
  | addItem tenantId userId dto => respond .cart (CartService.addItem tenantId userId dto)
  | updateItem tenantId userId itemId dto => respond .cart (CartService.updateItem tenantId userId itemId dto)
  | removeItem tenantId userId itemId => respond .cart (CartService.removeItem tenantId userId itemId)
  | discardCart tenantId userId => respond (fun _ => .empty) (CartService.discardCart tenantId userId)

/-- The tables that other services maintain. All others are written by the
calls above alone. -/
def Model.external : Model → Bool
  | productVariant | product | price | customer | store | service | posDevice | posSession | membership
  | role | rolePermission => true
  | inventory | cart | cartItem | order | orderItem | payment | booking | posSale | posOperation | posOperationItem => false

abbrev SystemState (ι : Type) : Type 1 := State commerce HttpException Response ι

abbrev SystemWorld (ι : Type) : Type := World commerce ι

variable {ι : Type} [DecidableEq ι]

/-- Others edit their own tables at any time; statements may fail, processes
stop and time pass. -/
def Environment (_ : SystemState ι) : Action commerce ι → Prop
  | .external writes => ∀ write ∈ writes, Model.external write.model = true
  | _ => True

/-- Stores, catalog, devices and members in any state; no stock, cart, order,
payment, sale or operation yet. -/
structure Shop where
  database : Db
  unused : ∀ m, Model.external m = false → (database.table m).rows = []

def Shop.system (shop : Shop) (sha256 : String → String) (calls : ι → Call) : SystemState ι :=
  State.initial shop.database fun i => (calls i).program sha256

abbrev Shop.Reaches (shop : Shop) (sha256 : String → String) (calls : ι → Call) (state : SystemState ι) : Prop :=
  State.Reaches Environment (shop.system sha256 calls) state

end BusinessPlatform
