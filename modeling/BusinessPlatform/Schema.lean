import BusinessPlatform.Engine.Execution

/-! The tables that the commerce and point-of-sale services read and write, as
`schema.prisma` and the migrations declare them. -/

namespace BusinessPlatform
open Engine

/-- Primary keys, foreign keys and tenants are opaque identifiers. -/
abbrev Id := Nat

inductive VariantStatus where
  | active | archived
  deriving DecidableEq, Repr

inductive CartStatus where
  | opened | converted
  deriving DecidableEq, Repr

inductive OrderStatus where
  | pending | paid | cancelled
  deriving DecidableEq, Repr

inductive PaymentStatus where
  | processing | captured | failed
  deriving DecidableEq, Repr

inductive ServiceStatus where
  | draft | active | archived
  deriving DecidableEq, Repr

inductive BookingStatus where
  | booked | confirmed | active | completed | cancelled | noShow
  deriving DecidableEq, Repr

inductive DeviceStatus where
  | active | suspended | retired
  deriving DecidableEq, Repr

inductive SessionStatus where
  | opened | closed
  deriving DecidableEq, Repr

inductive OperationStatus where
  | pending | accepted | duplicate | rejected
  deriving DecidableEq, Repr

inductive MembershipStatus where
  | active | invited | suspended
  deriving DecidableEq, Repr

structure ProductVariant where
  id : Id
  tenantId : Id
  productId : Id
  sku : String
  name : Option String
  status : VariantStatus
  deriving DecidableEq, Repr

structure Product where
  id : Id
  tenantId : Id
  name : String
  deriving DecidableEq, Repr

structure Price where
  id : Id
  tenantId : Id
  variantId : Id
  currency : String
  amountMinor : Int
  deriving DecidableEq, Repr

structure Customer where
  id : Id
  tenantId : Id
  deriving DecidableEq, Repr

structure Store where
  id : Id
  tenantId : Id
  deriving DecidableEq, Repr

/-- A stock pool: the tenant-global one of a variant, or a store's. -/
abbrev Pool : Type := Id × Option Id

structure Inventory where
  id : Id
  tenantId : Id
  variantId : Id
  storeId : Option Id
  quantityOnHand : Int
  deriving DecidableEq, Repr

/-- The partial unique indexes on `variantId` and on `(storeId, variantId)`. -/
def Inventory.pool (row : Inventory) : Pool := (row.variantId, row.storeId)

structure Cart where
  id : Id
  tenantId : Id
  userId : Id
  status : CartStatus
  createdAt : Nat
  deriving DecidableEq, Repr

structure CartItem where
  id : Id
  tenantId : Id
  cartId : Id
  variantId : Id
  quantity : Int
  createdAt : Nat
  deriving DecidableEq, Repr

structure Order where
  id : Id
  tenantId : Id
  userId : Id
  customerId : Option Id
  status : OrderStatus
  currency : String
  subtotalMinor : Int
  cancelledAt : Option Nat
  createdAt : Nat
  deriving DecidableEq, Repr

structure OrderItem where
  id : Id
  tenantId : Id
  orderId : Id
  variantId : Id
  productName : String
  variantName : Option String
  sku : String
  quantity : Int
  currency : String
  unitAmountMinor : Int
  lineTotalMinor : Int
  createdAt : Nat
  deriving DecidableEq, Repr

structure Payment where
  id : Id
  tenantId : Id
  orderId : Id
  status : PaymentStatus
  method : String
  amountMinor : Int
  currency : String
  createdAt : Nat
  deriving DecidableEq, Repr

/-- A service of the booking catalog. -/
structure CatalogService where
  id : Id
  tenantId : Id
  status : ServiceStatus
  deriving DecidableEq, Repr

/-- Milliseconds since the epoch. -/
abbrev Timestamp := Int

structure Booking where
  id : Id
  tenantId : Id
  serviceId : Id
  customerId : Option Id
  orderId : Option Id
  startAt : Timestamp
  endAt : Timestamp
  status : BookingStatus
  createdAt : Nat
  deriving DecidableEq, Repr

/-- The statuses in which a booking holds its slot. -/
def BookingStatus.holding : BookingStatus → Bool
  | booked | confirmed | active => true
  | completed | cancelled | noShow => false

/-- Half-open intervals with a common point. -/
def Booking.overlaps (first second : Booking) : Bool :=
  decide (first.startAt < second.endAt) && decide (second.startAt < first.endAt)

structure PosDevice where
  id : Id
  tenantId : Id
  storeId : Id
  status : DeviceStatus
  credentialHash : String
  deriving DecidableEq, Repr

structure PosSession where
  id : Id
  tenantId : Id
  deviceId : Id
  storeId : Id
  userId : Id
  status : SessionStatus
  deriving DecidableEq, Repr

structure PosSale where
  id : Id
  tenantId : Id
  orderId : Id
  paymentId : Id
  sessionId : Id
  deviceId : Id
  storeId : Id
  userId : Id
  createdAt : Nat
  deriving DecidableEq, Repr

structure PosOperation where
  id : Id
  tenantId : Id
  deviceId : Id
  sessionId : Id
  storeId : Id
  userId : Id
  clientUuid : String
  seq : Int
  status : OperationStatus
  resultCode : Option String
  resultOrderId : Option Id
  resultPaymentId : Option Id
  customerId : Option Id
  processedAt : Option Nat
  createdAt : Nat
  deriving DecidableEq, Repr

structure PosOperationItem where
  id : Id
  tenantId : Id
  operationId : Id
  variantId : Id
  quantity : Int
  currency : String
  observedUnitAmountMinor : Int
  deriving DecidableEq, Repr

structure Membership where
  id : Id
  tenantId : Id
  userId : Id
  roleId : Id
  status : MembershipStatus
  deriving DecidableEq, Repr

structure Role where
  id : Id
  tenantId : Id
  key : String
  deriving DecidableEq, Repr

structure RolePermission where
  roleId : Id
  permissionKey : String
  deriving DecidableEq, Repr

inductive Model where
  | productVariant | product | price | customer | store | inventory | cart | cartItem | order
  | orderItem | payment | service | booking | posDevice | posSession | posSale | posOperation
  | posOperationItem | membership | role | rolePermission
  deriving DecidableEq, Repr

namespace Model

abbrev Row : Model → Type
  | productVariant => ProductVariant
  | product => Product
  | price => Price
  | customer => Customer
  | store => Store
  | inventory => Inventory
  | cart => Cart
  | cartItem => CartItem
  | order => Order
  | orderItem => OrderItem
  | payment => Payment
  | service => CatalogService
  | booking => Booking
  | posDevice => PosDevice
  | posSession => PosSession
  | posSale => PosSale
  | posOperation => PosOperation
  | posOperationItem => PosOperationItem
  | membership => Membership
  | role => Role
  | rolePermission => RolePermission

abbrev Key : Model → Type
  | inventory => Pool
  | rolePermission => Id × String
  | _ => Id

/-- Unique indexes beside the primary keys. -/
inductive Index where
  | price (variantId : Id) (currency : String)
  | cartItem (cartId variantId : Id)
  | bookingOrder (orderId : Id)
  | saleOrder (orderId : Id)
  | salePayment (paymentId : Id)
  | operationUuid (deviceId : Id) (clientUuid : String)
  | operationSeq (deviceId : Id) (seq : Int)
  deriving DecidableEq, Repr

def key : {m : Model} → Row m → Key m
  | productVariant => ProductVariant.id
  | product => Product.id
  | price => Price.id
  | customer => Customer.id
  | store => Store.id
  | inventory => Inventory.pool
  | cart => Cart.id
  | cartItem => CartItem.id
  | order => Order.id
  | orderItem => OrderItem.id
  | payment => Payment.id
  | service => CatalogService.id
  | booking => Booking.id
  | posDevice => PosDevice.id
  | posSession => PosSession.id
  | posSale => PosSale.id
  | posOperation => PosOperation.id
  | posOperationItem => PosOperationItem.id
  | membership => Membership.id
  | role => Role.id
  | rolePermission => fun row => (row.roleId, row.permissionKey)

/-- The migration creates the index on `clientUuid` before the one on `seq`. -/
def indexes : {m : Model} → Row m → List Index
  | price => fun row => [.price row.variantId row.currency]
  | cartItem => fun row => [.cartItem row.cartId row.variantId]
  | booking => fun row => row.orderId.toList.map .bookingOrder
  | posSale => fun row => [.saleOrder row.orderId, .salePayment row.paymentId]
  | posOperation => fun row => [.operationUuid row.deviceId row.clientUuid, .operationSeq row.deviceId row.seq]
  | _ => fun _ => []

def keyColumns : Model → List String
  | inventory => ["storeId", "variantId"]
  | rolePermission => ["roleId", "permissionId"]
  | _ => ["id"]

def columns : Index → List String
  | .price .. => ["variantId", "currency"]
  | .cartItem .. => ["cartId", "variantId"]
  | .bookingOrder _ | .saleOrder _ => ["orderId"]
  | .salePayment _ => ["paymentId"]
  | .operationUuid .. => ["deviceId", "clientUuid"]
  | .operationSeq .. => ["deviceId", "seq"]

/-- INTEGER and BIGINT columns with a non-negative CHECK. -/
def fitsInteger (value : Int) : Bool := 0 ≤ value && value ≤ 2147483647

def fitsBigint (value : Int) : Bool := 0 ≤ value && value ≤ 9223372036854775807

def check : {m : Model} → Row m → Bool
  | price => fun row => fitsBigint row.amountMinor
  | inventory => fun row => fitsInteger row.quantityOnHand
  | cartItem => fun row => decide (0 < row.quantity) && fitsInteger row.quantity
  | order => fun row => fitsBigint row.subtotalMinor
  | orderItem => fun row =>
    decide (0 < row.quantity) && fitsInteger row.quantity && fitsBigint row.unitAmountMinor &&
      fitsBigint row.lineTotalMinor && decide (row.lineTotalMinor = row.quantity * row.unitAmountMinor)
  | payment => fun row => fitsBigint row.amountMinor
  | booking => fun row => decide (row.startAt < row.endAt)
  | posOperation => fun row => decide (0 < row.seq) && fitsInteger row.seq
  | posOperationItem => fun row =>
    decide (0 < row.quantity) && fitsInteger row.quantity && fitsBigint row.observedUnitAmountMinor
  | _ => fun _ => true

/-- The EXCLUDE constraint of bookings that hold their slot. -/
def excludes : {m : Model} → Row m → Row m → Bool
  | booking => fun row other =>
    row.status.holding && other.status.holding && decide (row.serviceId = other.serviceId) && row.overlaps other
  | _ => fun _ _ => false

/-- Foreign keys into the tables of this schema. -/
def parents : {m : Model} → Row m → List ((m : Model) × Key m)
  | price => fun row => [⟨productVariant, row.variantId⟩]
  | inventory => fun row => ⟨productVariant, row.variantId⟩ :: row.storeId.toList.map fun id => ⟨store, id⟩
  | cartItem => fun row => [⟨cart, row.cartId⟩, ⟨productVariant, row.variantId⟩]
  | order => fun row => row.customerId.toList.map fun id => ⟨customer, id⟩
  | orderItem => fun row => [⟨order, row.orderId⟩, ⟨productVariant, row.variantId⟩]
  | payment => fun row => [⟨order, row.orderId⟩]
  | booking => fun row => ⟨service, row.serviceId⟩ :: (row.customerId.toList.map fun id => ⟨customer, id⟩) ++
      row.orderId.toList.map fun id => ⟨order, id⟩
  | posSale => fun row => [⟨order, row.orderId⟩, ⟨payment, row.paymentId⟩, ⟨posSession, row.sessionId⟩,
      ⟨posDevice, row.deviceId⟩, ⟨store, row.storeId⟩]
  | posOperation => fun row => [⟨posDevice, row.deviceId⟩, ⟨posSession, row.sessionId⟩, ⟨store, row.storeId⟩] ++
      (row.resultOrderId.toList.map fun id => ⟨order, id⟩) ++
      row.resultPaymentId.toList.map fun id => ⟨payment, id⟩
  | posOperationItem => fun row => [⟨posOperation, row.operationId⟩]
  | _ => fun _ => []

/-- ON DELETE CASCADE from the one table whose rows the services delete. -/
def cascade : {m : Model} → Key m → List ((m : Model) × (Row m → Bool))
  | cart => fun id => [⟨cartItem, fun row => row.cartId = id⟩]
  | _ => fun _ => []

instance keyDecidableEq : (m : Model) → DecidableEq (Key m)
  | inventory | rolePermission => inferInstanceAs (DecidableEq (Nat × _))
  | productVariant | product | price | customer | store | cart | cartItem | order | orderItem
  | payment | service | booking | posDevice | posSession | posSale | posOperation | posOperationItem
  | membership | role => inferInstanceAs (DecidableEq Nat)

end Model

@[reducible] def commerce : Schema where
  Model := Model
  Row := Model.Row
  Key := Model.Key
  Index := Model.Index
  key := Model.key
  indexes := Model.indexes
  keyColumns := Model.keyColumns
  columns := Model.columns
  check := Model.check
  excludes := Model.excludes
  parents := Model.parents
  cascade := Model.cascade

abbrev Db : Type := Database commerce

end BusinessPlatform
