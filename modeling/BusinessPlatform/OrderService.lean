import BusinessPlatform.InventoryService
import BusinessPlatform.Engine.Tally

/-! `OrderService`: order creation with its stock debit, and cancellation. -/

namespace BusinessPlatform.OrderService
open Engine Program

def ORDER_NOT_FOUND := "Order not found"
def VARIANT_NOT_FOUND := "Variant not found"
def VARIANT_NOT_ACTIVE := "Variant is not active"
def PRICE_NOT_FOUND := "Price not found for variant"
def CURRENCY_MISMATCH := "All items must have the same currency"
def INSUFFICIENT_STOCK := "Insufficient stock"
def CART_EMPTY := "Cart is empty"
def CUSTOMER_NOT_FOUND := "Customer not found"
def NOT_PENDING := "Only pending orders can be cancelled"
def BOOKING_LINKED := "Booking already linked to another order"

structure OrderItemInputDto where
  variantId : Id
  quantity : Int
  deriving DecidableEq, Repr

structure CreateOrderDto where
  items : Option (List OrderItemInputDto) := none
  customerId : Option Id := none
  bookingId : Option Id := none
  deriving DecidableEq, Repr

/-- What the validation admits as a line: also null, and an array of lines, which
has no `variantId`. -/
inductive OrderItemBody where
  | line (variantId : Prisma.Reference) (quantity : Int)
  | null
  | array
  deriving DecidableEq, Repr

/-- A body that the validation admits. `@IsOptional` lets null through. -/
structure CreateOrderBody where
  items : Field (List OrderItemBody) := none
  customerId : Field Prisma.Reference := none
  bookingId : Field Id := none
  deriving DecidableEq, Repr

/-- Set only by the point of sale, never by an HTTP client. -/
structure CreateOrderOptions where
  inventoryScope : InventoryService.InventoryScope := .global
  bookingId : Option Id := none
  deriving DecidableEq, Repr

structure OrderItemSummary where
  id : Id
  variantId : Id
  productName : String
  variantName : Option String
  sku : String
  quantity : Int
  currency : String
  unitAmountMinor : String
  lineTotalMinor : String
  deriving DecidableEq, Repr

structure OrderSummary where
  id : Id
  tenantId : Id
  userId : Id
  customerId : Option Id
  status : OrderStatus
  currency : String
  subtotalMinor : String
  cancelledAt : Option Nat
  createdAt : Nat
  items : List OrderItemSummary
  deriving DecidableEq, Repr

def itemSummary (item : OrderItem) : OrderItemSummary :=
  { id := item.id, variantId := item.variantId, productName := item.productName
    variantName := item.variantName, sku := item.sku, quantity := item.quantity, currency := item.currency
    unitAmountMinor := toString item.unitAmountMinor, lineTotalMinor := toString item.lineTotalMinor }

def toSummary (order : Order) (items : List OrderItem) : OrderSummary :=
  { id := order.id, tenantId := order.tenantId, userId := order.userId, customerId := order.customerId
    status := order.status, currency := order.currency, subtotalMinor := toString order.subtotalMinor
    cancelledAt := order.cancelledAt, createdAt := order.createdAt, items := items.map itemSummary }

def aggregateItems (items : List OrderItemInputDto) : List (Id × Int) :=
  Tally.collect (items.map fun item => (item.variantId, item.quantity))

def cartInput (item : CartItem) : OrderItemInputDto := ⟨item.variantId, item.quantity⟩

/-- The lines of the caller's oldest open cart, and the cart to convert. -/
def readCart (tenantId userId : Id) : Service (List OrderItemInputDto × Option Id) := do
  let carts ← Prisma.findMany .cart fun row =>
    row.userId = userId && row.status = .opened && row.tenantId = tenantId
  let cart ← orThrow (Prisma.orderBy Cart.createdAt carts).head? (.badRequest CART_EMPTY)
  let cartItems ← Prisma.findMany .cartItem fun row => row.cartId = cart.id && row.tenantId = tenantId
  throwIf cartItems.isEmpty (.badRequest CART_EMPTY)
  pure (cartItems.map cartInput, some cart.id)

def itemsInput (tenantId userId : Id) (dto : CreateOrderDto) :
    Service (List OrderItemInputDto × Option Id) :=
  match dto.items with
  | some (item :: items) => pure (item :: items, none)
  | _ => readCart tenantId userId

def assertCustomer (tenantId : Id) : Option Id → Service Unit
  | none => pure ()
  | some customerId => do
    let customer ← Prisma.findFirst .customer fun row => row.id = customerId && row.tenantId = tenantId
    throwIf customer.isNone (.notFound CUSTOMER_NOT_FOUND)

/-- The unit price of each variant. The first price listed for the first
variant decides the currency of the order. -/
def unitPrices (prices : List Price) :
    Option String → List Id → Except HttpException (Option String × List (Id × Int))
  | targetCurrency, [] => .ok (targetCurrency, [])
  | targetCurrency, variantId :: variantIds =>
    match prices.filter (fun price => price.variantId = variantId) with
    | [] => .error (.conflict PRICE_NOT_FOUND)
    | first :: others =>
      let currency := targetCurrency.getD first.currency
      match (first :: others).find? (fun price => price.currency = currency) with
      | none => .error (.conflict CURRENCY_MISMATCH)
      | some found =>
        match unitPrices prices (some currency) variantIds with
        | .error exception => .error exception
        | .ok (target, units) => .ok (target, (variantId, found.amountMinor) :: units)

/-- `unitPrices.get(variantId)!`: every variant of the order has an entry. -/
def unitPrice (units : List (Id × Int)) (variantId : Id) : Int := (units.lookup variantId).getD 0

def lineTotal (units : List (Id × Int)) (line : Id × Int) : Int := unitPrice units line.1 * line.2

def decrement (quantity : Int) : Change commerce .inventory where
  apply row := { row with quantityOnHand := row.quantityOnHand - quantity }
  keeps _ := rfl

def debit (tenantId : Id) (poolStoreId : Option Id) : List (Id × Int) → Service Unit
  | [] => pure ()
  | (variantId, quantity) :: lines => do
    Prisma.sendInteger quantity
    let count ← Prisma.updateMany .inventory
      (fun row => row.variantId = variantId && row.storeId = poolStoreId && quantity ≤ row.quantityOnHand &&
        row.tenantId = tenantId)
      (decrement quantity)
    throwIf (count = 0) (.conflict INSUFFICIENT_STOCK)
    debit tenantId poolStoreId lines

def linkOrder (orderId : Id) : Change commerce .booking where
  apply row := { row with orderId := some orderId }
  keeps _ := rfl

def linkBooking (tenantId orderId : Id) : Option Id → Service Unit
  | none => pure ()
  | some bookingId => do
    let count ← Prisma.updateMany .booking
      (fun row => row.id = bookingId && row.orderId = none && row.tenantId = tenantId) (linkOrder orderId)
    throwIf (count = 0) (.conflict BOOKING_LINKED)

/-- The product's name at the moment of the sale. -/
def productName (products : List Product) (variant : ProductVariant) : String :=
  ((products.find? fun product => product.id = variant.productId).map Product.name).getD ""

def createItems (tenantId : Id) (order : Order) (variants : List ProductVariant) (products : List Product)
    (units : List (Id × Int)) : List (Id × Int) → Service Unit
  | [] => pure ()
  | line :: lines => do
    let variant ← orThrow (variants.find? fun variant => variant.id = line.1) .internalServerError
    let _ ← Prisma.create .orderItem fun id now =>
      { id, tenantId, orderId := order.id, variantId := line.1, productName := productName products variant
        variantName := variant.name, sku := variant.sku, quantity := line.2, currency := order.currency
        unitAmountMinor := unitPrice units line.1, lineTotalMinor := lineTotal units line, createdAt := now }
    createItems tenantId order variants products units lines

def convert : Change commerce .cart where
  apply row := { row with status := .converted }
  keeps _ := rfl

def convertCart (tenantId : Id) : Option Id → Service Unit
  | none => pure ()
  | some cartId => do
    let _ ← Prisma.update .cart (fun row => row.id = cartId && row.tenantId = tenantId) convert

/-- Transaction T1: price the lines, debit the pool, insert the order. -/
def placeOrder (tenantId userId : Id) (customerId poolStoreId bookingId cartToConvertId : Option Id)
    (aggregated : List (Id × Int)) : Service OrderSummary := do
  let variantIds := aggregated.map Prod.fst
  let variants ← Prisma.findMany .productVariant fun row => row.id ∈ variantIds && row.tenantId = tenantId
  throwIf (variants.length ≠ variantIds.length) (.notFound VARIANT_NOT_FOUND)
  throwIf (variants.any fun variant => variant.status ≠ .active) (.conflict VARIANT_NOT_ACTIVE)
  let prices ← Prisma.findMany .price fun row => row.variantId ∈ variantIds && row.tenantId = tenantId
  let (targetCurrency, units) ← ofExcept (unitPrices prices none variantIds)
  let currency := targetCurrency.getD ""
  throwIf (currency = "") (.conflict PRICE_NOT_FOUND)
  let productIds := variants.map ProductVariant.productId
  let products ← Prisma.findMany .product fun row => row.id ∈ productIds && row.tenantId = tenantId
  debit tenantId poolStoreId aggregated
  let subtotal := (aggregated.map (lineTotal units)).sum
  let order ← Prisma.create .order fun id now =>
    { id, tenantId, userId, customerId, status := .pending, currency, subtotalMinor := subtotal
      cancelledAt := none, createdAt := now }
  linkBooking tenantId order.id bookingId
  createItems tenantId order variants products units aggregated
  convertCart tenantId cartToConvertId
  let items ← Prisma.findMany .orderItem fun row => row.orderId = order.id && row.tenantId = tenantId
  pure (toSummary order (Prisma.orderBy OrderItem.createdAt items))

def createOrder (tenantId userId : Id) (dto : CreateOrderDto) (options : CreateOrderOptions) :
    Service OrderSummary := do
  let (items, cartToConvertId) ← itemsInput tenantId userId dto
  assertCustomer tenantId dto.customerId
  transaction (placeOrder tenantId userId dto.customerId options.inventoryScope.storeId options.bookingId
    cartToConvertId (aggregateItems items))

def OrderItemBody.known : OrderItemBody → Option OrderItemInputDto
  | .line (.id variantId) quantity => some ⟨variantId, quantity⟩
  | _ => none

def OrderItemInputDto.body (item : OrderItemInputDto) : OrderItemBody := .line (.id item.variantId) item.quantity

def bodyItems (tenantId userId : Id) (body : CreateOrderBody) : Service (List OrderItemBody × Option Id) :=
  match body.items.join with
  -- null has no properties to read
  | some (item :: items) => if .null ∈ item :: items then throw .internalServerError else pure (item :: items, none)
  | _ => do
    let (items, cartToConvertId) ← readCart tenantId userId
    pure (items.map OrderItemInputDto.body, cartToConvertId)

/-- Only an absent `customerId` is not looked up. -/
def bodyCustomer (tenantId : Id) : Field Prisma.Reference → Service (Option Id)
  | none => pure none
  | some none => .done (.error (.database .validation))
  | some (some customerId) => do
    let customerId ← Prisma.sendText customerId
    assertCustomer tenantId (some customerId)
    pure (some customerId)

/-- The first query of T1 names all variants. The client refuses undefined in a list. -/
def sendVariants (items : List OrderItemBody) : Service (List OrderItemInputDto) :=
  match items.mapM OrderItemBody.known with
  | some items => pure items
  | none => if .array ∈ items then .done (.error (.database .validation)) else Prisma.refuseValue

/-- `createOrder` of a body that the validation admits. -/
def createOrderBody (tenantId userId : Id) (body : CreateOrderBody) (options : CreateOrderOptions) :
    Service OrderSummary := do
  let (items, cartToConvertId) ← bodyItems tenantId userId body
  let customerId ← bodyCustomer tenantId body.customerId
  transaction do
    let items ← sendVariants items
    placeOrder tenantId userId customerId options.inventoryScope.storeId options.bookingId cartToConvertId
      (aggregateItems items)

def findOrder (tenantId orderId : Id) : Service (Option Order) :=
  Prisma.findFirst .order fun row => row.id = orderId && row.tenantId = tenantId

def findItems (tenantId orderId : Id) : Service (List OrderItem) :=
  Prisma.findMany .orderItem fun row => row.orderId = orderId && row.tenantId = tenantId

def readSummary (tenantId orderId : Id) : Service OrderSummary := do
  let order ← findOrder tenantId orderId
  let order ← orThrow order (.notFound ORDER_NOT_FOUND)
  let items ← findItems tenantId orderId
  pure (toSummary order (Prisma.orderBy OrderItem.createdAt items))

def getOrder (tenantId orderId : Id) : Service OrderSummary := readSummary tenantId orderId

def cancel (now : Nat) : Change commerce .order where
  apply row := { row with status := .cancelled, cancelledAt := some now }
  keeps _ := rfl

def restockLine (tenantId : Id) (restockStoreId : Option Id) (variantId : Id) (quantity : Int) : Service Unit := do
  let existing ← Prisma.findFirst .inventory fun row =>
    row.variantId = variantId && row.storeId = restockStoreId && row.tenantId = tenantId
  match existing with
  | none => do
    let _ ← Prisma.create .inventory fun id _ =>
      { id, tenantId, variantId, storeId := restockStoreId, quantityOnHand := quantity }
  | some _ => do
    let _ ← Prisma.updateMany .inventory
      (fun row => row.variantId = variantId && row.storeId = restockStoreId && row.tenantId = tenantId)
      (InventoryService.increment quantity)

def restock (tenantId : Id) (restockStoreId : Option Id) : List (Id × Int) → Service Unit
  | [] => pure ()
  | (variantId, quantity) :: lines => do
    restockLine tenantId restockStoreId variantId quantity
    restock tenantId restockStoreId lines

/-- Transaction T3: cancel the order and return its units to the pool of its
point-of-sale row, or to the global pool if there is none. -/
def cancelAndRestock (tenantId orderId : Id) : Service OrderSummary := do
  let now ← now
  let count ← Prisma.updateMany .order
    (fun row => row.id = orderId && row.status = .pending && row.tenantId = tenantId) (cancel now)
  throwIf (count = 0) (.conflict NOT_PENDING)
  let posSale ← Prisma.findFirst .posSale fun row => row.orderId = orderId && row.tenantId = tenantId
  let items ← findItems tenantId orderId
  restock tenantId (posSale.map PosSale.storeId)
    (Tally.collect (items.map fun item => (item.variantId, item.quantity)))
  readSummary tenantId orderId

def cancelOrder (tenantId orderId : Id) : Service OrderSummary := do
  let order ← findOrder tenantId orderId
  let order ← orThrow order (.notFound ORDER_NOT_FOUND)
  throwIf (order.status ≠ .pending) (.conflict NOT_PENDING)
  transaction (cancelAndRestock tenantId orderId)

end BusinessPlatform.OrderService
