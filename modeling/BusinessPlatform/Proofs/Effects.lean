import BusinessPlatform.System
import BusinessPlatform.Proofs.Pricing
import BusinessPlatform.Engine.Soundness

/-! What each call may commit, stated once over the rows involved. Every commit
of a run is one of these effects; all invariants are derived from that. -/

namespace BusinessPlatform
open Engine InventoryService OrderService PaymentService PosSaleService PosOperationService PosSyncService CartService
open BookingService (CreateBookingDto UpdateBookingDto patch)

abbrev Writes : Type := List (Write commerce)

variable {ι : Type}

inductive Adjusted (tenantId : Id) (scope : InventoryScope) (dto : AdjustInventoryDto) (db : Db) : Writes → Prop where
  | moved (row : Inventory) (found : db.get .inventory (dto.variantId, scope.storeId) = some row)
      (tenant : row.tenantId = tenantId) (enough : -dto.delta ≤ row.quantityOnHand)
      (fits : Model.fitsInteger (row.quantityOnHand + dto.delta) = true) :
      Adjusted tenantId scope dto db [.put .inventory ((increment dto.delta).apply row)]
  | opened (row : Inventory) (absent : db.get .inventory (dto.variantId, scope.storeId) = none)
      (pool : row.pool = (dto.variantId, scope.storeId)) (tenant : row.tenantId = tenantId)
      (quantity : row.quantityOnHand = dto.delta) (fits : Model.fitsInteger dto.delta = true) :
      Adjusted tenantId scope dto db [.put .inventory row]

/-- One debited pool with its row before the debit. -/
structure Debit where
  variantId : Id
  quantity : Int
  stock : Inventory

/-- One line of a new order. -/
structure PlacedLine extends Debit where
  item : OrderItem

/-- Everything that transaction T1 commits. -/
structure Placement where
  order : Order
  pool : Option Id
  lines : List PlacedLine
  booking : Option Booking
  cart : Option Cart

namespace Debit

def debited (debit : Debit) : Inventory := (decrement debit.quantity).apply debit.stock

def entry (debit : Debit) : Id × Int := (debit.variantId, debit.quantity)

/-- The pool's row covers the debit. -/
structure Covered (debit : Debit) : Prop where
  enough : debit.quantity ≤ debit.stock.quantityOnHand
  fits : Model.fitsInteger debit.debited.quantityOnHand = true

structure Valid (db : Db) (pool : Option Id) (debit : Debit) : Prop extends debit.Covered where
  stocked : db.get .inventory (debit.variantId, pool) = some debit.stock

end Debit

def Placement.writes (placement : Placement) : Writes :=
  (placement.lines.map fun line => .put .inventory line.debited) ++ .put .order placement.order ::
    ((placement.booking.toList.map fun booking => .put .booking ((linkOrder placement.order.id).apply booking)) ++
      (placement.lines.map fun line => .put .orderItem line.item) ++
      placement.cart.toList.map fun cart => .put .cart (convert.apply cart))

/-- All debited pools belong to this place. -/
def Placement.Debits (placement : Placement) (storeId : Option Id) : Prop :=
  ∀ row ∈ putsOf (S := commerce) .inventory placement.writes, row.storeId = storeId

namespace Placement
variable (placement : Placement)

@[simp] theorem writes_erases (m : Model) : erasesOf (S := commerce) m placement.writes = [] := by
  simp [writes]

@[simp] theorem writes_inventory :
    putsOf (S := commerce) .inventory placement.writes = placement.lines.map fun line => line.debited := by
  simp [writes]

@[simp] theorem writes_order : putsOf (S := commerce) .order placement.writes = [placement.order] := by
  simp [writes]

@[simp] theorem writes_items :
    putsOf (S := commerce) .orderItem placement.writes = placement.lines.map PlacedLine.item := by
  simp [writes]

@[simp] theorem writes_booking : putsOf (S := commerce) .booking placement.writes =
    placement.booking.toList.map (linkOrder placement.order.id).apply := by
  simp [writes]

@[simp] theorem writes_cart :
    putsOf (S := commerce) .cart placement.writes = placement.cart.toList.map convert.apply := by
  simp [writes]

@[simp] theorem writes_other {m : Model} (inventory : Model.inventory ≠ m) (order : Model.order ≠ m)
    (booking : Model.booking ≠ m) (item : Model.orderItem ≠ m) (cart : Model.cart ≠ m) :
    putsOf (S := commerce) m placement.writes = [] := by
  rw [writes, putsOf_append, putsOf_map_other _ _ inventory, putsOf_put_other _ _ order, putsOf_append,
    putsOf_append, putsOf_map_other _ _ booking, putsOf_map_other _ _ item, putsOf_map_other _ _ cart]
  rfl

end Placement

/-- The item that a line's order received. -/
structure PlacedLine.Matches (order : Order) (line : PlacedLine) : Prop where
  ordered : line.item.orderId = order.id
  tenant : line.item.tenantId = order.tenantId
  variant : line.item.variantId = line.variantId
  quantity : line.item.quantity = line.quantity
  positive : 0 < line.quantity
  currency : line.item.currency = order.currency
  total : line.item.lineTotalMinor = line.item.unitAmountMinor * line.quantity

structure Placed (db : Db) (placement : Placement) : Prop where
  fresh : db.get .order placement.order.id = none
  pending : placement.order.status = .pending
  nonempty : placement.lines ≠ []
  distinct : (placement.lines.map fun line => line.variantId).Nodup
  debits : ∀ line ∈ placement.lines, line.toDebit.Valid db placement.pool
  lines : ∀ line ∈ placement.lines, line.Matches placement.order
  itemsFresh : ∀ line ∈ placement.lines, db.get .orderItem line.item.id = none
  items : (placement.lines.map fun line => line.item.id).Nodup
  subtotal : placement.order.subtotalMinor = (placement.lines.map fun line => line.item.lineTotalMinor).sum
  cart : ∀ cart, placement.cart = some cart → db.get .cart cart.id = some cart
  booking : ∀ booking, placement.booking = some booking →
    db.get .booking booking.id = some booking ∧ booking.orderId = none

theorem Placed.debits_iff {db : Db} {placement : Placement} (placed : Placed db placement) {storeId : Option Id} :
    placement.Debits storeId ↔ placement.pool = storeId := by
  have pools : ∀ line ∈ placement.lines, line.debited.storeId = placement.pool := fun line member =>
    congrArg Prod.snd (Table.find_eq_some.mp (placed.debits line member).stocked).2
  simp only [Placement.Debits, Placement.writes_inventory, List.forall_mem_map]
  constructor
  · intro all
    obtain ⟨line, member⟩ := List.exists_mem_of_ne_nil _ placed.nonempty
    exact (pools line member).symm.trans (all line member)
  · rintro rfl
    exact pools

/-- Where the lines of an order come from: the request, or the lines of a cart
as this call read them. -/
inductive Input (i : ι) (tenantId : Id) (dto : CreateOrderDto) (world : SystemWorld ι) :
    List OrderItemInputDto → Option Id → Prop where
  | direct {items : List OrderItemInputDto} (given : dto.items = some items) : Input i tenantId dto world items none
  | cart {cartId : Id} {lines : List CartItem} {event : Event commerce ι} (given : dto.items.getD [] = [])
      (member : event ∈ world.trace)
      (author : event.author = some i) (access : event.access = some (.cartItem, .find))
      (listed : event.listed = lines.map (Sigma.mk Model.cartItem))
      (read : lines.Perm ((event.before.table .cartItem).rows.filter fun row =>
        row.cartId = cartId && row.tenantId = tenantId)) :
      Input i tenantId dto world (lines.map cartInput) (some cartId)

/-- The prices that this call read inside its transaction decide the currency
and the unit price of every line. -/
def Priced (i : ι) (world : SystemWorld ι) (placement : Placement) : Prop :=
  ∃ event ∈ world.trace, event.author = some i ∧ event.access = some (.price, .find) ∧ event.inside = true ∧
    ∃ prices units, event.listed = prices.map (Sigma.mk Model.price) ∧
      prices.Perm (pricesOf event.before placement.order.tenantId (placement.lines.map fun line => line.variantId)) ∧
      unitPrices prices none (placement.lines.map fun line => line.variantId) = .ok (some placement.order.currency, units) ∧
      ∀ line ∈ placement.lines, line.item.unitAmountMinor = unitPrice units line.variantId

/-- The statement by which this call links a booking has found this row. -/
def LinkFound (i : ι) (world : SystemWorld ι) (booking : Booking) : Prop :=
  ∃ event ∈ world.trace, event.author = some i ∧ event.access = some (.booking, .updateMany) ∧
    event.before.get .booking booking.id = some booking

structure Ordered (i : ι) (tenantId userId : Id) (dto : CreateOrderDto) (options : CreateOrderOptions)
    (world : SystemWorld ι) (placement : Placement) : Prop extends Placed world.database placement where
  tenant : placement.order.tenantId = tenantId
  user : placement.order.userId = userId
  customer : placement.order.customerId = dto.customerId
  pool : placement.pool = options.inventoryScope.storeId
  cartTenant : ∀ cart, placement.cart = some cart → cart.tenantId = tenantId
  bookingTenant : ∀ booking, placement.booking = some booking → booking.tenantId = tenantId
  linked : placement.booking.map Booking.id = options.bookingId
  linkFound : ∀ booking, placement.booking = some booking → LinkFound i world booking
  input : ∃ items, Input i tenantId dto world items (placement.cart.map Cart.id) ∧
    aggregateItems items = placement.lines.map fun line => line.entry
  priced : Priced i world placement
  stockTenant : ∀ line ∈ placement.lines, line.stock.tenantId = tenantId

/-- One restocked pool with its row after the restock. -/
structure Restock where
  variantId : Id
  quantity : Int
  row : Inventory

def Restock.entry (restock : Restock) : Id × Int := (restock.variantId, restock.quantity)

structure Cancellation where
  order : Order
  now : Nat
  pool : Option Id
  restocks : List Restock

def Cancellation.writes (cancellation : Cancellation) : Writes :=
  .put .order ((cancel cancellation.now).apply cancellation.order) ::
    cancellation.restocks.map fun restock => .put .inventory restock.row

namespace Cancellation
variable (cancellation : Cancellation)

@[simp] theorem writes_erases (m : Model) : erasesOf (S := commerce) m cancellation.writes = [] := by
  simp [writes]

@[simp] theorem writes_inventory :
    putsOf (S := commerce) .inventory cancellation.writes = cancellation.restocks.map Restock.row := by
  simp [writes]

@[simp] theorem writes_order : putsOf (S := commerce) .order cancellation.writes =
    [(cancel cancellation.now).apply cancellation.order] := by
  simp [writes]

@[simp] theorem writes_other {m : Model} (inventory : Model.inventory ≠ m) (order : Model.order ≠ m) :
    putsOf (S := commerce) m cancellation.writes = [] := by
  rw [writes, putsOf_put_other _ _ order, putsOf_map_other _ _ inventory]

end Cancellation

/-- The pool's row before decides whether it is incremented or created. -/
structure Restock.Valid (pool : Option Id) (before : Option Inventory) (restock : Restock) : Prop where
  pooled : restock.row.pool = (restock.variantId, pool)
  fits : Model.fitsInteger restock.row.quantityOnHand = true
  moved : ∀ old, before = some old → restock.row = (increment restock.quantity).apply old
  opened : before = none → restock.row.quantityOnHand = restock.quantity

/-- The store of the point-of-sale row that this call found for the order. -/
def LookedUp (i : ι) (tenantId orderId : Id) (world : SystemWorld ι) (pool : Option Id) : Prop :=
  ∃ event ∈ world.trace, event.author = some i ∧ event.access = some (.posSale, .find) ∧
    ∃ sales : List PosSale, event.listed = sales.map (Sigma.mk Model.posSale) ∧
      sales.Perm ((event.before.table .posSale).rows.filter fun row =>
        row.orderId = orderId && row.tenantId = tenantId) ∧
      pool = sales.head?.map PosSale.storeId

def itemsOf (db : Db) (tenantId orderId : Id) : List OrderItem :=
  (db.table .orderItem).rows.filter fun row => row.orderId = orderId && row.tenantId = tenantId

structure Restocked (tenantId orderId : Id) (db : Db) (cancellation : Cancellation) : Prop where
  found : db.get .order orderId = some cancellation.order
  tenant : cancellation.order.tenantId = tenantId
  pending : cancellation.order.status = .pending
  items : ∃ items : List OrderItem, items.Perm (itemsOf db tenantId orderId) ∧
    cancellation.restocks.map Restock.entry = Tally.collect (items.map fun item => (item.variantId, item.quantity))
  restocks : ∀ restock ∈ cancellation.restocks,
    restock.Valid cancellation.pool (db.get .inventory (restock.variantId, cancellation.pool))

structure Cancelled (i : ι) (tenantId orderId : Id) (world : SystemWorld ι) (cancellation : Cancellation) : Prop
    extends Restocked tenantId orderId world.database cancellation where
  lookup : LookedUp i tenantId orderId world cancellation.pool

structure PaymentCreated (tenantId : Id) (dto : CreatePaymentDto) (db : Db) (payment : Payment) : Prop where
  order : ∃ order, db.get .order dto.orderId = some order ∧ order.tenantId = tenantId ∧
    payment.amountMinor = order.subtotalMinor ∧ payment.currency = order.currency
  fresh : db.get .payment payment.id = none
  orderId : payment.orderId = dto.orderId
  tenant : payment.tenantId = tenantId
  processing : payment.status = .processing

inductive Captured (tenantId paymentId : Id) (db : Db) : Writes → Prop where
  | mk (payment : Payment) (order : Order) (found : db.get .payment paymentId = some payment)
      (processing : payment.status = .processing) (tenant : payment.tenantId = tenantId)
      (ordered : db.get .order payment.orderId = some order) (pending : order.status = .pending) :
      Captured tenantId paymentId db
        [.put .payment ((setPayment .captured).apply payment), .put .order ((setOrder .paid).apply order)]

inductive MarkedFailed (tenantId paymentId : Id) (db : Db) : Writes → Prop where
  | mk (payment : Payment) (found : db.get .payment paymentId = some payment)
      (processing : payment.status = .processing) (tenant : payment.tenantId = tenantId) :
      MarkedFailed tenantId paymentId db [.put .payment ((setPayment .failed).apply payment)]

/-- The commits of the sale engine, one after another, given those that it has
made so far. -/
inductive SaleStep (i : ι) (tenantId userId : Id) (dto : CreatePosSaleDto) (world : SystemWorld ι) :
    List Writes → Writes → Prop where
  | order (placement : Placement) (session : PosSession)
      (ordered : Ordered i tenantId userId (orderDto dto) (orderOptions session) world placement) :
      SaleStep i tenantId userId dto world [] placement.writes
  | payment (placement : Placement) (payment : Payment)
      (created : PaymentCreated tenantId ⟨placement.order.id, dto.method.getD CASH⟩ world.database payment) :
      SaleStep i tenantId userId dto world [placement.writes] [.put .payment payment]
  | capture (placement : Placement) (payment : Payment) {writes : Writes}
      (captured : Captured tenantId payment.id world.database writes) :
      SaleStep i tenantId userId dto world [[.put .payment payment], placement.writes] writes
  | sale (placement : Placement) (payment : Payment) (captures : List Writes) (sale : PosSale)
      (once : captures.length ≤ 1) (fresh : world.database.get .posSale sale.id = none)
      (order : sale.orderId = placement.order.id) (paid : sale.paymentId = payment.id)
      (store : placement.Debits (some sale.storeId)) (tenant : sale.tenantId = tenantId) :
      SaleStep i tenantId userId dto world (captures ++ [[.put .payment payment], placement.writes])
        [.put .posSale sale]

def intentItem (item : PosOperationItem) : OfflineSaleIntentItemDto :=
  ⟨item.variantId, item.quantity, item.currency, item.observedUnitAmountMinor⟩

structure IntentRecorded (tenantId : Id) (dto : RecordOfflineSaleIntentDto) (stamp : Nat) (db : Db)
    (operation : PosOperation) (items : List PosOperationItem) : Prop where
  stamped : operation.id < stamp
  fresh : db.get .posOperation operation.id = none
  tenant : operation.tenantId = tenantId
  identity : operation.clientUuid = dto.clientUuid ∧ operation.seq = dto.seq
  pending : operation.status = .pending
  unclaimed : operation.processedAt = none
  unsettled : operation.resultCode = none ∧ operation.resultOrderId = none ∧ operation.resultPaymentId = none
  frozen : items.map intentItem = dto.items
  lines : ∀ item ∈ items, item.operationId = operation.id ∧ db.get .posOperationItem item.id = none
  distinct : (items.map PosOperationItem.id).Nodup

def intentWrites (operation : PosOperation) (items : List PosOperationItem) : Writes :=
  .put .posOperation operation :: items.map fun item => .put .posOperationItem item

@[simp] theorem intentWrites_erases (operation : PosOperation) (items : List PosOperationItem) (m : Model) :
    erasesOf (S := commerce) m (intentWrites operation items) = [] := by
  rw [intentWrites, erasesOf_put, erasesOf_map_put]

@[simp] theorem intentWrites_operations (operation : PosOperation) (items : List PosOperationItem) :
    putsOf (S := commerce) .posOperation (intentWrites operation items) = [operation] := by
  rw [intentWrites, putsOf_put_same, putsOf_map_other _ _ (by decide)]

@[simp] theorem intentWrites_items (operation : PosOperation) (items : List PosOperationItem) :
    putsOf (S := commerce) .posOperationItem (intentWrites operation items) = items := by
  rw [intentWrites, putsOf_put_other _ _ (by decide), putsOf_map_same, List.map_id']

@[simp] theorem intentWrites_other {operation : PosOperation} {items : List PosOperationItem} {m : Model}
    (operations : Model.posOperation ≠ m) (lines : Model.posOperationItem ≠ m) :
    putsOf (S := commerce) m (intentWrites operation items) = [] := by
  rw [intentWrites, putsOf_put_other _ _ operations, putsOf_map_other _ _ lines]

/-- A guarded update of a pending operation. -/
inductive Operated (tenantId operationId : Id) (db : Db) (change : Change commerce .posOperation) : Writes → Prop where
  | mk (row : PosOperation) (found : db.get .posOperation operationId = some row)
      (pending : row.status = .pending) (tenant : row.tenantId = tenantId) :
      Operated tenantId operationId db change [.put .posOperation (change.apply row)]

/-- The commit by which a call has taken an operation's claim. -/
inductive Claim (operationId : Id) : Writes → Prop where
  | mk (row : PosOperation) (operation : row.id = operationId) (pending : row.status = .pending)
      (claimed : row.processedAt.isSome = true) : Claim operationId [.put .posOperation row]

def linesOf (db : Db) (operationId : Id) : List PosOperationItem :=
  (db.table .posOperationItem).rows.filter fun row => row.operationId = operationId

/-- This call has read these lines. -/
def LinesRead (i : ι) (world : SystemWorld ι) (items : List PosOperationItem) : Prop :=
  ∃ event ∈ world.trace, event.author = some i ∧ event.access = some (.posOperationItem, .find) ∧
    event.listed = items.map (Sigma.mk Model.posOperationItem)

inductive SyncStep (i : ι) (tenantId operationId : Id) (world : SystemWorld ι) : List Writes → Writes → Prop where
  | rejected (code : String) {writes : Writes}
      (operated : Operated tenantId operationId world.database (reject code) writes) :
      SyncStep i tenantId operationId world [] writes
  | claimed (row : PosOperation) (now : Nat) (found : world.database.get .posOperation operationId = some row)
      (pending : row.status = .pending) (unclaimed : row.processedAt = none) (tenant : row.tenantId = tenantId) :
      SyncStep i tenantId operationId world [] [.put .posOperation ((setProcessedAt (some now)).apply row)]
  | cleared {writes : Writes} (operated : Operated tenantId operationId world.database (setProcessedAt none) writes) :
      SyncStep i tenantId operationId world [] writes
  | executed (claim : Writes) (held : Claim operationId claim) (row : PosOperation) (items : List PosOperationItem)
      (filled : items ≠ []) (validated : ∃ prices, checkLines prices none items = none) (history : List Writes)
      {writes : Writes}
      (found : world.database.get .posOperation operationId = some row) (tenant : row.tenantId = tenantId)
      (lines : items.Perm (linesOf world.database operationId)) (read : LinesRead i world items)
      (step : SaleStep i tenantId row.userId (saleDto { row with items }) world history writes) :
      SyncStep i tenantId operationId world (history ++ [claim]) writes
  | outOfStock (claim : Writes) (held : Claim operationId claim) {writes : Writes}
      (operated : Operated tenantId operationId world.database (reject OUT_OF_STOCK) writes) :
      SyncStep i tenantId operationId world [claim] writes
  | accepted (claim : Writes) (held : Claim operationId claim) (placement : Placement) (payment paid : Payment)
      (captures : List Writes) (sale : PosSale) {writes : Writes} (once : captures.length ≤ 1)
      (found : world.database.get .payment payment.id = some paid) (captured : paid.status = .captured)
      (order : paid.orderId = placement.order.id)
      (operated : Operated tenantId operationId world.database (accept placement.order.id payment.id) writes) :
      SyncStep i tenantId operationId world
        ([.put .posSale sale] :: captures ++ [[.put .payment payment], placement.writes, claim]) writes

structure CartOpened (tenantId userId : Id) (stamp : Nat) (db : Db) (cart : Cart) : Prop where
  stamped : cart.id = stamp
  fresh : db.get .cart cart.id = none
  tenant : cart.tenantId = tenantId
  user : cart.userId = userId
  opened : cart.status = .opened

/-- Deleting a cart deletes its lines. -/
def discardWrites (db : Db) (cart : Cart) : Writes :=
  .erase .cart cart.id :: ((db.table .cartItem).rows.filter fun row => row.cartId = cart.id).map fun row =>
    .erase .cartItem row.id

theorem erases_cart (db : Db) (cart : Cart) :
    erases (S := commerce) (m := .cart) db cart = discardWrites db cart := by
  simp only [erases, discardWrites, Model.cascade, List.flatMap_cons, List.flatMap_nil, List.append_nil]
  rfl

inductive CartStep (tenantId userId : Id) (stamp : Nat) (db : Db) : Writes → Prop where
  | cartOpened (cart : Cart) (opened : CartOpened tenantId userId stamp db cart) :
      CartStep tenantId userId stamp db [.put .cart cart]
  | lineAdded (item : CartItem) (fresh : db.get .cartItem item.id = none)
      (cart : ∃ cart, db.get .cart item.cartId = some cart ∧ cart.tenantId = item.tenantId) :
      CartStep tenantId userId stamp db [.put .cartItem item]
  | lineChanged (item : CartItem) (quantity : Int) (found : db.get .cartItem item.id = some item) :
      CartStep tenantId userId stamp db [.put .cartItem { item with quantity }]
  | lineRemoved (item : CartItem) (found : db.get .cartItem item.id = some item) :
      CartStep tenantId userId stamp db [.erase .cartItem item.id]
  | discarded (cart : Cart) (found : db.get .cart cart.id = some cart) :
      CartStep tenantId userId stamp db (discardWrites db cart)

structure BookingCreated (tenantId : Id) (dto : CreateBookingDto) (db : Db) (booking : Booking) : Prop where
  fresh : db.get .booking booking.id = none
  tenant : booking.tenantId = tenantId
  unlinked : booking.orderId = none

structure BookingPatched (tenantId bookingId : Id) (db : Db) (booking : Booking) : Prop where
  found : db.get .booking bookingId = some booking
  tenant : booking.tenantId = tenantId

inductive OperationChange : Change commerce .posOperation → Prop where
  | rejected (code : String) : OperationChange (reject code)
  | processed (processedAt : Option Nat) : OperationChange (setProcessedAt processedAt)
  | accepted (orderId paymentId : Id) : OperationChange (accept orderId paymentId)

inductive Effect (stamp : Nat) (db : Db) : Writes → Prop where
  | external {writes : Writes} (foreign : ∀ write ∈ writes, Model.external write.model = true) : Effect stamp db writes
  | adjusted {tenantId : Id} {scope : InventoryScope} {dto : AdjustInventoryDto} {writes : Writes}
      (adjusted : Adjusted tenantId scope dto db writes) : Effect stamp db writes
  | placed {placement : Placement} (placed : Placed db placement) : Effect stamp db placement.writes
  | cancelled {tenantId orderId : Id} {cancellation : Cancellation}
      (restocked : Restocked tenantId orderId db cancellation) : Effect stamp db cancellation.writes
  | paymentCreated {tenantId : Id} {dto : CreatePaymentDto} {payment : Payment}
      (created : PaymentCreated tenantId dto db payment) : Effect stamp db [.put .payment payment]
  | captured {tenantId paymentId : Id} {writes : Writes} (captured : Captured tenantId paymentId db writes) :
      Effect stamp db writes
  | markedFailed {tenantId paymentId : Id} {writes : Writes} (failed : MarkedFailed tenantId paymentId db writes) :
      Effect stamp db writes
  | saleRecorded {sale : PosSale} (fresh : db.get .posSale sale.id = none) : Effect stamp db [.put .posSale sale]
  | intentRecorded {tenantId : Id} {dto : RecordOfflineSaleIntentDto} {operation : PosOperation}
      {items : List PosOperationItem} (recorded : IntentRecorded tenantId dto stamp db operation items) :
      Effect stamp db (intentWrites operation items)
  | operated {tenantId operationId : Id} {change : Change commerce .posOperation} {writes : Writes}
      (kind : OperationChange change) (operated : Operated tenantId operationId db change writes) : Effect stamp db writes
  | bookingCreated {tenantId : Id} {dto : CreateBookingDto} {booking : Booking}
      (created : BookingCreated tenantId dto db booking) : Effect stamp db [.put .booking booking]
  | bookingPatched {tenantId bookingId : Id} (dto : UpdateBookingDto) {booking : Booking}
      (patched : BookingPatched tenantId bookingId db booking) :
      Effect stamp db [.put .booking ((patch dto).apply booking)]
  | cart {tenantId userId : Id} {writes : Writes} (step : CartStep tenantId userId stamp db writes) : Effect stamp db writes

theorem SaleStep.effect {i : ι} {tenantId userId : Id} {dto : CreatePosSaleDto} {world : SystemWorld ι}
    {history : List Writes} {writes : Writes} (step : SaleStep i tenantId userId dto world history writes) :
    Effect world.trace.length world.database writes := by
  cases step with
  | order placement session ordered => exact .placed ordered.toPlaced
  | payment placement payment created => exact .paymentCreated created
  | capture placement payment captured => exact .captured captured
  | sale placement payment captures sale once fresh order paid store tenant => exact .saleRecorded fresh

theorem SyncStep.effect {i : ι} {tenantId operationId : Id} {world : SystemWorld ι} {history : List Writes}
    {writes : Writes} (step : SyncStep i tenantId operationId world history writes) :
    Effect world.trace.length world.database writes := by
  cases step with
  | rejected code operated | outOfStock claim held operated => exact .operated (.rejected _) operated
  | claimed row now found pending unclaimed tenant =>
    exact .operated (.processed (some now)) (.mk row found pending tenant)
  | cleared operated => exact .operated (.processed none) operated
  | executed claim held row items filled validated history found tenant lines read step => exact step.effect
  | accepted claim held placement payment paid captures sale once found captured order operated =>
    exact .operated (.accepted _ _) operated

section Lawful
variable [DecidableEq ι]

/-- What a call may commit after the commits that it has made so far. -/
def Call.Commits (i : ι) (call : Call) : Commits commerce ι := fun world writes =>
  match call with
  | .adjustScoped tenantId scope dto => world.own i = [] ∧ Adjusted tenantId scope dto world.database writes
  | .createOrder tenantId userId dto => world.own i = [] ∧
      ∃ placement, Ordered i tenantId userId dto (publicOptions dto) world placement ∧ writes = placement.writes
  | .cancelOrder tenantId orderId => world.own i = [] ∧
      ∃ cancellation, Cancelled i tenantId orderId world cancellation ∧ writes = cancellation.writes
  | .createPayment tenantId dto => world.own i = [] ∧
      ∃ payment, PaymentCreated tenantId dto world.database payment ∧ writes = [.put .payment payment]
  | .capturePayment tenantId paymentId => world.own i = [] ∧ Captured tenantId paymentId world.database writes
  | .failPayment tenantId paymentId => world.own i = [] ∧ MarkedFailed tenantId paymentId world.database writes
  | .createSale tenantId userId dto _ => SaleStep i tenantId userId dto world (world.own i) writes
  | .recordOfflineSaleIntent tenantId _ dto => world.own i = [] ∧
      ∃ operation items, IntentRecorded tenantId dto world.trace.length world.database operation items ∧
        writes = intentWrites operation items
  | .syncOperation tenantId _ operationId _ => SyncStep i tenantId operationId world (world.own i) writes
  | .createBooking tenantId dto => world.own i = [] ∧
      ∃ booking, BookingCreated tenantId dto world.database booking ∧ writes = [.put .booking booking]
  | .updateBooking tenantId bookingId dto => world.own i = [] ∧
      ∃ booking, BookingPatched tenantId bookingId world.database booking ∧
        writes = [.put .booking ((patch dto).apply booking)]
  | .getCart tenantId userId | .addItem tenantId userId _ | .updateItem tenantId userId _ _
  | .removeItem tenantId userId _ | .discardCart tenantId userId => 
    CartStep tenantId userId world.trace.length world.database writes

/-- What everybody may commit in a system of calls. -/
def lawful (calls : ι → Call) : Guarantee commerce ι := fun author world writes =>
  match author with
  | none => ∀ write ∈ writes, Model.external write.model = true
  | some i => (calls i).Commits i world writes

theorem lawful.effect {calls : ι → Call} {author : Option ι} {world : SystemWorld ι} {writes : Writes}
    (allowed : lawful calls author world writes) : Effect world.trace.length world.database writes := by
  cases author with
  | none => exact .external allowed
  | some i =>
    simp only [lawful, Call.Commits] at allowed
    split at allowed
    · exact .adjusted allowed.2
    · obtain ⟨_, placement, ordered, rfl⟩ := allowed
      exact .placed ordered.toPlaced
    · obtain ⟨_, cancellation, cancelled, rfl⟩ := allowed
      exact .cancelled cancelled.toRestocked
    · obtain ⟨_, payment, created, rfl⟩ := allowed
      exact .paymentCreated created
    · exact .captured allowed.2
    · exact .markedFailed allowed.2
    · exact allowed.effect
    · obtain ⟨_, operation, items, recorded, rfl⟩ := allowed
      exact .intentRecorded recorded
    · exact allowed.effect
    · obtain ⟨_, booking, created, rfl⟩ := allowed
      exact .bookingCreated created
    · obtain ⟨_, booking, patched, rfl⟩ := allowed
      exact .bookingPatched _ patched
    all_goals exact .cart allowed

end Lawful
end BusinessPlatform
