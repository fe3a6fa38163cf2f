import BusinessPlatform.Engine.Confinement
import BusinessPlatform.Proofs.Checkout
import BusinessPlatform.Proofs.SaleHistory

/-! Tenants are confined. Whatever calls run concurrently, a call is given rows of
its own tenant only and changes rows of its own tenant only. -/

namespace BusinessPlatform
open Engine InventoryService OrderService PaymentService PosSaleService PosOperationService PosSyncService CartService

/-- The tenant of a row. A grant has none of its own. -/
def Model.tenantOf : {m : Model} → Model.Row m → Option Id
  | productVariant, row => some (ProductVariant.tenantId row)
  | product, row => some (Product.tenantId row)
  | price, row => some (Price.tenantId row)
  | customer, row => some (Customer.tenantId row)
  | store, row => some (Store.tenantId row)
  | inventory, row => some (Inventory.tenantId row)
  | cart, row => some (Cart.tenantId row)
  | cartItem, row => some (CartItem.tenantId row)
  | order, row => some (Order.tenantId row)
  | orderItem, row => some (OrderItem.tenantId row)
  | payment, row => some (Payment.tenantId row)
  | service, row => some (CatalogService.tenantId row)
  | booking, row => some (Booking.tenantId row)
  | posDevice, row => some (PosDevice.tenantId row)
  | posSession, row => some (PosSession.tenantId row)
  | posSale, row => some (PosSale.tenantId row)
  | posOperation, row => some (PosOperation.tenantId row)
  | posOperationItem, row => some (PosOperationItem.tenantId row)
  | membership, row => some (Membership.tenantId row)
  | role, row => some (Role.tenantId row)
  | rolePermission, _ => none

/-- The relations that are read along a foreign key, without a tenant filter. -/
def Model.included : Model → Bool
  | role | rolePermission | posOperationItem => true
  | _ => false

def tenantArea (tenantId : Id) : Footprint commerce where
  visible {m} row := Model.included m = true ∨ Model.tenantOf row = some tenantId
  owned row := Model.tenantOf row = some tenantId

/-- A service method that keeps to a tenant. -/
abbrev Scoped {α : Type} (tenantId : Id) (service : Service α) : Prop := Program.Within (tenantArea tenantId) service

section Services
variable {tenantId : Id}

private theorem last {first : Bool} {condition : Prop} [Decidable condition] (matched : (first && decide condition) = true) :
    condition := of_decide_eq_true (Bool.and_eq_true_iff.mp matched).2

private theorem poolWhere_tenant {scope : InventoryScope} {variantId : Id} {row : Inventory}
    (matched : poolWhere tenantId scope variantId row = true) : row.tenantId = tenantId := last matched

private theorem sendInteger_scoped {value : Int} : Scoped tenantId (Prisma.sendInteger value) := by
  unfold Prisma.sendInteger
  split <;> trivial

private theorem adjustScoped_scoped {scope : InventoryScope} {dto : AdjustInventoryDto} :
    Scoped tenantId (adjustScoped tenantId scope dto) := by
  have reread {variantId : Id} : Scoped tenantId (reread tenantId scope variantId) := by
    refine .findFirst (fun _ matched => .inr (congrArg some (poolWhere_tenant matched))) fun found _ => ?_
    cases found <;> trivial
  have guarded : Scoped tenantId (guardedUpdate tenantId scope dto) := by
    refine .bind sendInteger_scoped fun _ => .bind sendInteger_scoped fun _ => ?_
    exact .query ⟨fun _ matched => congrArg some (poolWhere_tenant (Bool.and_eq_true_iff.mp matched).1), fun _ => id⟩
  have retried : Scoped tenantId (retry tenantId scope dto) := by
    refine .bind guarded fun count => ?_
    split
    · exact reread
    · exact .throw
  have opened : Scoped tenantId (openPool tenantId scope dto) := by
    refine .findFirst (fun _ matched => .inr (congrArg some (poolWhere_tenant matched))) fun found _ => ?_
    cases found with
    | some _ => exact .throw
    | none =>
      dsimp only
      split
      · exact .throw
      · refine .tryCatch (.create (fun _ _ => rfl) fun _ => .pure) fun failure => ?_
        split
        · exact retried
        · trivial
  refine .findFirst (fun _ matched => .inr (congrArg some (last matched))) fun variant _ => ?_
  refine .bind .throwIf fun _ => .bind ?_ fun _ => ?_
  · cases scope with
    | global => exact .pure
    | store storeId => exact .findFirst (fun _ matched => .inr (congrArg some (last matched))) fun _ _ => .throwIf
  · refine .bind guarded fun updated => ?_
    split
    · exact reread
    · exact opened

private theorem readSummary_scoped {orderId : Id} : Scoped tenantId (readSummary tenantId orderId) := by
  refine .findFirst (fun _ matched => .inr (congrArg some (last matched))) fun order _ => .orThrow fun _ _ => ?_
  exact .findMany (fun _ matched => .inr (congrArg some (last matched))) fun _ _ => .pure

private theorem debit_scoped {pool : Option Id} (lines : List (Id × Int)) : Scoped tenantId (debit tenantId pool lines) := by
  induction lines with
  | nil => exact .pure
  | cons line lines ih =>
    refine .bind sendInteger_scoped fun _ => ?_
    refine .updateMany (fun _ matched => congrArg some (last matched)) (fun _ => id) fun _ => ?_
    exact .bind .throwIf fun _ => ih

private theorem createItems_scoped {order : Order} {variants : List ProductVariant} {products : List Product}
    {units : List (Id × Int)} (lines : List (Id × Int)) :
    Scoped tenantId (OrderService.createItems tenantId order variants products units lines) := by
  induction lines with
  | nil => exact .pure
  | cons line lines ih => exact .orThrow fun _ _ => .create (fun _ _ => rfl) fun _ => ih

private theorem placeOrder_scoped {userId : Id} {customerId pool bookingId cartId : Option Id} {aggregated : List (Id × Int)} :
    Scoped tenantId (placeOrder tenantId userId customerId pool bookingId cartId aggregated) := by
  refine .findMany (fun _ matched => .inr (congrArg some (last matched))) fun variants _ => ?_
  refine .bind .throwIf fun _ => .bind .throwIf fun _ => ?_
  refine .findMany (fun _ matched => .inr (congrArg some (last matched))) fun prices _ => .bind .ofExcept fun priced => ?_
  refine .bind .throwIf fun _ => .findMany (fun _ matched => .inr (congrArg some (last matched))) fun products _ => ?_
  refine .bind (debit_scoped _) fun _ => .create (fun _ _ => rfl) fun order => .bind ?_ fun _ => ?_
  · cases bookingId with
    | none => exact .pure
    | some bookingId => exact .updateMany (fun _ matched => congrArg some (last matched)) (fun _ => id) fun _ => .throwIf
  · refine .bind (createItems_scoped _) fun _ => .bind ?_ fun _ => ?_
    · cases cartId with
      | none => exact .pure
      | some cartId => exact .update (fun _ matched => congrArg some (last matched)) (fun _ => id) fun _ => .pure
    · exact .findMany (fun _ matched => .inr (congrArg some (last matched))) fun _ _ => .pure

private theorem createOrder_scoped {userId : Id} {dto : CreateOrderDto} {options : CreateOrderOptions} :
    Scoped tenantId (createOrder tenantId userId dto options) := by
  have cart : Scoped tenantId (readCart tenantId userId) := by
    refine .findMany (fun _ matched => .inr (congrArg some (last matched))) fun _ _ => .orThrow fun _ _ => ?_
    exact .findMany (fun _ matched => .inr (congrArg some (last matched))) fun _ _ => .bind .throwIf fun _ => .pure
  refine .bind ?_ fun input => .bind ?_ fun _ => .transaction placeOrder_scoped
  · rw [itemsInput]
    split
    · exact .pure
    · exact cart
  · cases dto.customerId with
    | none => exact .pure
    | some customerId => exact .findFirst (fun _ matched => .inr (congrArg some (last matched))) fun _ _ => .throwIf

private theorem restock_scoped {pool : Option Id} (lines : List (Id × Int)) :
    Scoped tenantId (restock tenantId pool lines) := by
  induction lines with
  | nil => exact .pure
  | cons line lines ih =>
    refine .bind (.findFirst (fun _ matched => .inr (congrArg some (last matched))) fun existing _ => ?_) fun _ => ih
    cases existing with
    | none => exact .create (fun _ _ => rfl) fun _ => .pure
    | some _ => exact .updateMany (fun _ matched => congrArg some (last matched)) (fun _ => id) fun _ => .pure

private theorem cancelOrder_scoped {orderId : Id} : Scoped tenantId (cancelOrder tenantId orderId) := by
  refine .findFirst (fun _ matched => .inr (congrArg some (last matched))) fun order _ => .orThrow fun _ _ => ?_
  refine .bind .throwIf fun _ => .transaction (.now fun _ => ?_)
  refine .updateMany (fun _ matched => congrArg some (last matched)) (fun _ => id) fun _ => .bind .throwIf fun _ => ?_
  refine .findFirst (fun _ matched => .inr (congrArg some (last matched))) fun sale _ => ?_
  refine .findMany (fun _ matched => .inr (congrArg some (last matched))) fun items _ => ?_
  exact .bind (restock_scoped _) fun _ => readSummary_scoped

private theorem createPayment_scoped {dto : CreatePaymentDto} : Scoped tenantId (createPayment tenantId dto) := by
  refine .transaction (.findFirst (fun _ matched => .inr (congrArg some (last matched))) fun order matched => ?_)
  refine .orThrow fun found same => .bind .throwIf fun _ => ?_
  refine .findFirst (fun _ matched => .inr (congrArg some (last matched))) fun _ _ => .bind .throwIf fun _ => ?_
  exact .create (fun _ _ => congrArg some (last (matched found same))) fun _ => .pure

private theorem findPayment_scoped {α : Type} {paymentId : Id} {next : Option Payment → Service α}
    (rest : ∀ found, Scoped tenantId (next found)) : Scoped tenantId (findPayment tenantId paymentId >>= next) :=
  .findFirst (fun _ matched => .inr (congrArg some (last matched))) fun found _ => rest found

private theorem updatedPayment_scoped {paymentId : Id} : Scoped tenantId (updatedPayment tenantId paymentId) :=
  findPayment_scoped fun _ => .orThrow fun _ _ => .pure

private theorem settlePayment_scoped {paymentId : Id} {status : PaymentStatus} :
    Scoped tenantId (settlePayment tenantId paymentId status) :=
  .query ⟨fun _ matched => congrArg some (last matched), fun _ => id⟩

private theorem capturePayment_scoped {paymentId : Id} : Scoped tenantId (capturePayment tenantId paymentId) := by
  refine .transaction (findPayment_scoped fun _ => .orThrow fun payment _ => ?_)
  split
  · exact .pure
  · refine .bind .throwIf fun _ => .bind .throwIf fun _ => .bind settlePayment_scoped fun _ => .bind .throwIf fun _ => ?_
    refine .updateMany (fun _ matched => congrArg some (last matched)) (fun _ => id) fun _ => .bind .throwIf fun _ => ?_
    exact updatedPayment_scoped

private theorem failPayment_scoped {paymentId : Id} : Scoped tenantId (failPayment tenantId paymentId) := by
  refine .transaction (findPayment_scoped fun _ => .orThrow fun payment _ => ?_)
  split
  · exact .pure
  · refine .bind .throwIf fun _ => .bind .throwIf fun _ => .bind settlePayment_scoped fun _ => .bind .throwIf fun _ => ?_
    exact updatedPayment_scoped

private theorem createSale_scoped {userId : Id} {dto : CreatePosSaleDto} {options : CreateSaleOptions} :
    Scoped tenantId (createSale tenantId userId dto options) := by
  refine .bind .throwIf fun _ => .bind ?_ fun session => ?_
  · refine .findFirst (fun _ matched => .inr (congrArg some (last matched))) fun _ _ => .orThrow fun _ _ => ?_
    refine .bind .throwIf fun _ => .findFirst (fun _ matched => .inr (congrArg some (last matched))) fun _ _ => ?_
    exact .orThrow fun _ _ => .bind .throwIf fun _ => .bind .throwIf fun _ => .pure
  · refine .bind createOrder_scoped fun order => .bind createPayment_scoped fun payment => .bind ?_ fun settled => ?_
    · rw [settle]
      split
      · exact .bind capturePayment_scoped fun _ => .bind readSummary_scoped fun _ => .pure
      · exact .pure
    · exact .create (fun _ _ => rfl) fun _ => .pure

private theorem includeItems_scoped {operationId : Id} : Scoped tenantId (includeItems operationId) :=
  .query fun _ _ => .inl rfl

private theorem recordOfflineSaleIntent_scoped {userId : Id} {dto : RecordOfflineSaleIntentDto} :
    Scoped tenantId (recordOfflineSaleIntent tenantId userId dto) := by
  have items {operationId : Id} (lines : List OfflineSaleIntentItemDto) :
      Scoped tenantId (PosOperationService.createItems tenantId operationId lines) := by
    induction lines with
    | nil => exact .pure
    | cons line lines ih => exact .create (fun _ _ => rfl) fun _ => ih
  refine .findFirst (fun _ matched => .inr (congrArg some (last matched))) fun _ _ => .orThrow fun session _ => ?_
  refine .bind .throwIf fun _ => .tryCatch (.transaction ?_) fun failure => ?_
  · refine .create (fun _ _ => rfl) fun created => .bind (items _) fun _ => ?_
    refine .findFirst (fun _ matched => .inr (congrArg some (last matched))) fun _ _ => .orThrow fun _ _ => ?_
    exact .bind includeItems_scoped fun _ => .pure
  · split
    · rw [resolveDuplicate]
      split
      · refine .findFirst (fun _ matched => .inr (congrArg some (last matched))) fun _ _ => .orThrow fun _ _ => ?_
        exact .bind includeItems_scoped fun _ => .pure
      · exact .throw
    · trivial

private theorem findOperation_scoped {operationId : Id} : Scoped tenantId (findOperation tenantId operationId) := by
  refine .findFirst (fun _ matched => .inr (congrArg some (last matched))) fun operation _ => ?_
  cases operation with
  | none => exact .pure
  | some operation => exact .bind includeItems_scoped fun _ => .pure

private theorem loadOperation_scoped {operationId : Id} : Scoped tenantId (loadOperation tenantId operationId) := by
  refine .bind findOperation_scoped fun operation => ?_
  cases operation <;> trivial

private theorem pending_tenant {operationId : Id} {row : PosOperation} (matched : pending tenantId operationId row = true) :
    row.tenantId = tenantId := last matched

private theorem persistRejection_scoped {operationId : Id} {code : String} :
    Scoped tenantId (persistRejection tenantId operationId code) :=
  .updateMany (fun _ matched => congrArg some (pending_tenant matched)) (fun _ => id) fun _ => loadOperation_scoped

private theorem assertSyncAuthority_scoped {sha256 : String → String} {userId : Id} {operation : PosOperation}
    {credential : Option String} : Scoped tenantId (assertSyncAuthority sha256 tenantId userId operation credential) := by
  refine .bind .throwIf fun _ => .findFirst (fun _ matched => .inr (congrArg some (last matched))) fun _ _ => ?_
  refine .orThrow fun _ _ => .bind .throwIf fun _ => .bind .throwIf fun _ => .bind .throwIf fun _ => .bind ?_ fun _ => .throwIf
  refine .findFirst (fun _ matched => .inr (congrArg some (last matched))) fun membership _ => ?_
  cases membership with
  | none => exact .pure
  | some membership =>
    refine .findFirst (fun _ _ => .inl rfl) fun _ _ => .findMany (fun _ _ => .inl rfl) fun _ _ => ?_
    split
    · exact .pure
    · split <;> exact .pure

private theorem validateIntent_scoped {operation : OperationWithItems} : Scoped tenantId (validateIntent tenantId operation) := by
  have stock (lines : List (Id × Int)) : Scoped tenantId (checkStock tenantId operation.storeId lines) := by
    induction lines with
    | nil => exact .pure
    | cons line lines ih =>
      refine .findFirst (fun _ matched => .inr (congrArg some (last matched))) fun row _ => ?_
      cases row with
      | none => exact .pure
      | some row =>
        dsimp only
        split
        · exact .pure
        · exact ih
  rw [validateIntent]
  split
  · exact .pure
  · refine .findMany (fun _ matched => .inr (congrArg some (last matched))) fun variants _ => ?_
    split
    · exact .pure
    · split
      · exact .pure
      · refine .findMany (fun _ matched => .inr (congrArg some (last matched))) fun prices _ => ?_
        split
        · exact .pure
        · exact stock _

private theorem awaitConcurrentResult_scoped {operationId : Id} (polls : Nat) :
    Scoped tenantId (awaitConcurrentResult tenantId operationId polls) := by
  induction polls with
  | zero => exact .pure
  | succ polls ih =>
    refine .bind findOperation_scoped fun operation => ?_
    cases operation with
    | none => exact ih
    | some operation =>
      dsimp only
      split
      · exact .pure
      · split
        · exact ih
        · refine .now fun clock => ?_
          split
          · exact .updateMany (fun _ matched => congrArg some (pending_tenant matched)) (fun _ => id) fun _ => .pure
          · exact ih

private theorem syncOperation_scoped {sha256 : String → String} {userId operationId : Id} {credential : Option String} :
    Scoped tenantId (syncOperation sha256 tenantId userId operationId credential) := by
  refine .bind loadOperation_scoped fun operation => .bind assertSyncAuthority_scoped fun _ => ?_
  split
  · exact .pure
  · refine .bind validateIntent_scoped fun code => ?_
    cases code with
    | some code => exact .bind persistRejection_scoped fun _ => .pure
    | none =>
      refine .bind (.now fun clock => .query ⟨fun _ matched => ?_, fun _ => id⟩) fun claimed => ?_
      · exact congrArg some (pending_tenant (Bool.and_eq_true_iff.mp matched).1)
      · split
        · exact .bind (awaitConcurrentResult_scoped _) fun _ => .orThrow fun _ _ => .pure
        · refine .tryCatch (.bind createSale_scoped fun sale => ?_) fun failure => ?_
          · refine .bind (.query ⟨fun _ matched => congrArg some (pending_tenant matched), fun _ => id⟩) fun _ => ?_
            exact .bind loadOperation_scoped fun _ => .pure
          · split
            · exact .bind persistRejection_scoped fun _ => .pure
            · trivial

private theorem assertActiveService_scoped {serviceId : Prisma.Reference} :
    Scoped tenantId (BookingService.assertActiveService tenantId serviceId) := by
  refine .bind (by cases serviceId <;> trivial) fun _ => ?_
  exact .findFirst (fun _ matched => .inr (congrArg some (last matched))) fun _ _ => .orThrow fun _ _ => .throwIf

private theorem assertCustomer_scoped {customerId : Id} :
    Scoped tenantId (BookingService.assertCustomer tenantId customerId) :=
  .findFirst (fun _ matched => .inr (congrArg some (last matched))) fun _ _ => .throwIf

private theorem createBooking_scoped {dto : BookingService.CreateBookingDto} :
    Scoped tenantId (BookingService.createBooking tenantId dto) := by
  have inserted : Scoped tenantId (BookingService.insertBooking tenantId dto) := by
    rw [BookingService.insertBooking]
    split
    · trivial
    · trivial
    iterate 3
      split
      · trivial
    · exact ⟨fun _ _ => rfl, fun reply _ => by cases reply <;> trivial⟩
  refine .bind assertActiveService_scoped fun _ => ?_
  have stored : Scoped tenantId ((BookingService.insertBooking tenantId dto).tryCatch (fun failure =>
      if BookingService.isConflictError failure then Program.throw (.conflict BookingService.OVERLAP_ERROR)
      else if BookingService.isCheckConstraintViolation failure then
        Program.throw (.badRequest BookingService.END_NOT_AFTER_START)
      else .done (.error failure)) >>= fun booking => Pure.pure (BookingService.toSummary booking)) := by
    refine .bind (.tryCatch inserted fun failure => ?_) fun _ => .pure
    split
    · exact .throw
    · split <;> trivial
  simp only
  split
  · exact .bind assertCustomer_scoped fun _ => stored
  · exact stored

private theorem updateBooking_scoped {bookingId : Id} {dto : BookingService.UpdateBookingDto} :
    Scoped tenantId (BookingService.updateBooking tenantId bookingId dto) := by
  have written : Scoped tenantId (BookingService.writeBooking tenantId bookingId dto) := by
    rw [BookingService.writeBooking]
    iterate 4
      split
      · trivial
    · exact .query ⟨fun _ matched => congrArg some (last matched), fun _ => id⟩
  refine .findFirst (fun _ matched => .inr (congrArg some (last matched))) fun booking _ => .orThrow fun booking _ => ?_
  have stored : Scoped tenantId ((BookingService.writeBooking tenantId bookingId dto).tryCatch (fun failure =>
      if BookingService.isConflictError failure then Program.throw (.conflict BookingService.OVERLAP_ERROR)
      else .done (.error failure)) >>= fun booking => Pure.pure (BookingService.toSummary booking)) := by
    refine .bind (.tryCatch written fun failure => ?_) fun _ => .pure
    split <;> trivial
  simp only
  split
  on_goal 1 => split
  on_goal 2 => refine .bind assertActiveService_scoped fun _ => ?_
  all_goals
    split
    · split
      · exact stored
      · exact .bind assertCustomer_scoped fun _ => stored
    · exact stored

private theorem findOpenCart_scoped {userId : Id} : Scoped tenantId (findOpenCart tenantId userId) :=
  .findMany (fun _ matched => .inr (congrArg some (last matched))) fun _ _ => .pure

private theorem getOrCreateCart_scoped {userId : Id} : Scoped tenantId (getOrCreateCart tenantId userId) := by
  refine .bind findOpenCart_scoped fun existing => ?_
  cases existing with
  | some cart => exact .pure
  | none =>
    refine .tryCatch (.query fun _ _ => rfl) fun failure => ?_
    split
    · refine .bind findOpenCart_scoped fun raced => ?_
      cases raced <;> trivial
    · trivial

private theorem enrichCart_scoped {cart : Cart} : Scoped tenantId (enrichCart tenantId cart) := by
  refine .findMany (fun _ matched => .inr (congrArg some (last matched))) fun rows _ => ?_
  dsimp only
  split
  · exact .pure
  · refine .findMany (fun _ matched => .inr (congrArg some (last matched))) fun _ _ => ?_
    exact .findMany (fun _ matched => .inr (congrArg some (last matched))) fun _ _ => .pure

private theorem freshCart_scoped {cartId : Id} : Scoped tenantId (freshCart tenantId cartId) :=
  .findFirst (fun _ matched => .inr (congrArg some (last matched))) fun _ _ => .orThrow fun _ _ => enrichCart_scoped

private theorem changeLine_scoped {itemId : Id} {change : Change commerce .cartItem}
    (kept : ∀ item : CartItem, CartItem.tenantId (change.apply item) = item.tenantId) :
    Scoped tenantId (changeLine tenantId itemId change) := by
  refine .query ⟨fun _ matched => congrArg some (last matched), fun item owned => ?_⟩
  exact (congrArg some (kept item)).trans owned

private theorem addLine_scoped {cartId : Id} {dto : AddCartItemDto} : Scoped tenantId (addLine tenantId cartId dto) := by
  refine .findFirst (fun _ matched => .inr (congrArg some (last matched))) fun existing _ => ?_
  cases existing with
  | some item => exact changeLine_scoped fun _ => rfl
  | none =>
    refine .tryCatch (.query fun _ _ => rfl) fun failure => ?_
    split
    · refine .findFirst (fun _ matched => .inr (congrArg some (last matched))) fun _ _ => .orThrow fun _ _ => ?_
      exact changeLine_scoped fun _ => rfl
    · trivial

private theorem addItem_scoped {userId : Id} {dto : AddCartItemDto} : Scoped tenantId (addItem tenantId userId dto) := by
  refine .findFirst (fun _ matched => .inr (congrArg some (last matched))) fun _ _ => .bind .throwIf fun _ => ?_
  exact .bind getOrCreateCart_scoped fun _ => .bind addLine_scoped fun _ => freshCart_scoped

private theorem ownLine_scoped {cartId itemId : Id} : Scoped tenantId (ownLine tenantId cartId itemId) :=
  .findFirst (fun _ matched => .inr (congrArg some (last matched))) fun _ _ => .orThrow fun _ _ => .bind .throwIf fun _ => .pure

private theorem updateItem_scoped {userId itemId : Id} {dto : UpdateCartItemDto} :
    Scoped tenantId (updateItem tenantId userId itemId dto) :=
  .bind getOrCreateCart_scoped fun _ => .bind ownLine_scoped fun _ => .bind (changeLine_scoped fun _ => rfl) fun _ =>
    freshCart_scoped

private theorem removeItem_scoped {userId itemId : Id} : Scoped tenantId (removeItem tenantId userId itemId) := by
  refine .bind getOrCreateCart_scoped fun _ => .bind ownLine_scoped fun _ => ?_
  exact .delete (fun _ matched => congrArg some (last matched)) fun _ => freshCart_scoped

private theorem discardCart_scoped {userId : Id} : Scoped tenantId (discardCart tenantId userId) := by
  refine .findFirst (fun _ matched => .inr (congrArg some (last matched))) fun _ _ => .orThrow fun _ _ => ?_
  exact .bind .throwIf fun _ => .delete (fun _ matched => congrArg some (last matched)) fun _ => .pure

end Services

theorem Call.scoped (sha256 : String → String) (call : Call) : Scoped call.tenantId (call.program sha256) := by
  have responds {α : Type} {tenantId : Id} {response : α → Response} {service : Service α} (inside : Scoped tenantId service) :
      Scoped tenantId (respond response service) := .bind inside fun _ => .pure
  cases call with
  | adjustScoped => exact responds adjustScoped_scoped
  | createOrder => exact responds createOrder_scoped
  | cancelOrder => exact responds cancelOrder_scoped
  | createPayment => exact responds createPayment_scoped
  | capturePayment => exact responds capturePayment_scoped
  | failPayment => exact responds failPayment_scoped
  | createSale => exact responds createSale_scoped
  | recordOfflineSaleIntent => exact responds recordOfflineSaleIntent_scoped
  | syncOperation => exact responds syncOperation_scoped
  | createBooking => exact responds createBooking_scoped
  | updateBooking => exact responds updateBooking_scoped
  | getCart => exact responds (.bind getOrCreateCart_scoped fun _ => enrichCart_scoped)
  | addItem => exact responds addItem_scoped
  | updateItem => exact responds updateItem_scoped
  | removeItem => exact responds removeItem_scoped
  | discardCart => exact responds discardCart_scoped

/-- Every line is in a cart of its tenant. -/
def CartLines (db : Db) : Prop :=
  ∀ item ∈ (db.table .cartItem).rows, ∃ cart, db.get .cart (CartItem.cartId item) = some cart ∧
    Cart.tenantId cart = CartItem.tenantId item

section Lines
variable {ι : Type} {db : Db} {writes : Writes}

/-- A commit that keeps the carts and stores lines only in carts of their tenant. -/
private theorem CartLines.kept (lines : CartLines db)
    (carts : ∀ id (cart : Cart), db.get .cart id = some cart →
      ∃ new : Cart, (db.applyAll writes).get .cart id = some new ∧ new.tenantId = cart.tenantId)
    (stored : ∀ item ∈ putsOf (S := commerce) .cartItem writes, ∃ cart, db.get .cart (CartItem.cartId item) = some cart ∧
      Cart.tenantId cart = CartItem.tenantId item) : CartLines (db.applyAll writes) := by
  intro item member
  have before : ∃ cart, db.get .cart (CartItem.cartId item) = some cart ∧ Cart.tenantId cart = CartItem.tenantId item := by
    rcases Database.get_found _ (Table.find_eq_some.mpr ⟨member, rfl⟩) with put | there
    · exact stored item put
    · exact lines item (Table.find_eq_some.mp there).1
  obtain ⟨cart, found, tenant⟩ := before
  obtain ⟨new, now, same⟩ := carts _ cart found
  exact ⟨new, now, same.trans tenant⟩

private theorem remaining (rows : List CartItem) (db : Db) {item : CartItem}
    (member : item ∈ ((db.applyAll (rows.map fun row => .erase .cartItem row.id)).table .cartItem).rows) :
    item ∈ (db.table .cartItem).rows ∧ item ∉ rows := by
  induction rows generalizing db with
  | nil => exact ⟨member, by simp⟩
  | cons row rows ih =>
    rw [List.map_cons, Database.applyAll_cons] at member
    obtain ⟨there, apart⟩ := ih _ member
    rw [Write.apply_erase_same, Table.mem_erase] at there
    refine ⟨there.1, fun among => ?_⟩
    rcases List.mem_cons.mp among with rfl | among
    · exact there.2 rfl
    · exact apart among

/-- The lines that a discarded cart leaves behind are in other carts. -/
private theorem CartLines.discarded (lines : CartLines db) (cart : Cart) : CartLines (db.applyAll (discardWrites db cart)) := by
  intro item member
  rw [discardWrites, Database.applyAll_cons] at member
  obtain ⟨there, apart⟩ := remaining _ _ member
  rw [Write.apply_other _ (by simp [Write.model])] at there
  obtain ⟨own, found, tenant⟩ := lines item there
  refine ⟨own, ?_, tenant⟩
  have elsewhere : cart.id ≠ item.cartId := fun same => apart (List.mem_filter.mpr ⟨there, by simp [same]⟩)
  have other : ∀ write ∈ ((db.table .cartItem).rows.filter fun row => row.cartId = cart.id).map fun row =>
      Write.erase (S := commerce) .cartItem row.id, write.model ≠ .cart := by
    intro write erased
    obtain ⟨row, _, rfl⟩ := List.mem_map.mp erased
    simp [Write.model]
  rw [discardWrites, Database.applyAll_cons, Database.get, Database.applyAll_other _ other, Write.apply_erase_same,
    Table.find_erase, if_neg elsewhere]
  exact found

private theorem CartLines.change {world : SystemWorld ι} {author : Option ι} (lines : CartLines world.database)
    (change : CartChange world author writes) : CartLines (world.database.applyAll writes) := by
  have unchanged {m : Model} {row : Model.Row m} (other : m ≠ .cart) (id : Id) (cart : Cart)
      (found : world.database.get .cart id = some cart) : ∃ new : Cart,
        (world.database.applyAll [.put m row]).get .cart id = some new ∧ new.tenantId = cart.tenantId :=
    ⟨cart, by rwa [Database.get_unwritten _ (by simp) (by simp [other])], rfl⟩
  cases change with
  | ordered i called placement ordered =>
    refine lines.kept (fun id cart found => ?_) (by simp)
    rcases Database.get_cases world.database (Placement.writes_erases placement .cart) id with same | ⟨row, put, key, now⟩
    · exact ⟨cart, same.trans found, rfl⟩
    · rw [Placement.writes_cart] at put
      obtain ⟨old, taken, rfl⟩ := List.mem_map.mp put
      have there := ordered.cart old (by simpa using taken)
      rw [show old.id = id from key, found] at there
      cases there
      exact ⟨_, now, rfl⟩
  | edited step =>
    cases step with
    | cartOpened cart opened =>
      refine lines.kept (fun id old found => ⟨old, ?_, rfl⟩) (by simp)
      rw [Database.get_single _ (by simp) (by simp : putsOf (S := commerce) .cart [.put .cart cart] = [cart])]
      split
      next same => cases (same ▸ found).symm.trans opened.fresh
      next => exact found
    | lineAdded item fresh cart => exact lines.kept (unchanged (by decide)) (by simpa using cart)
    | lineChanged item quantity found =>
      refine lines.kept (unchanged (by decide)) ?_
      simpa using lines item (Table.find_eq_some.mp found).1
    | lineRemoved item found =>
      refine lines.kept (fun id cart found => ⟨cart, ?_, rfl⟩) (by simp)
      rwa [Database.get_unwritten _ (by simp) (by simp)]
    | discarded cart found => exact lines.discarded cart
  | elsewhere other =>
    refine lines.kept (fun id cart found => ⟨cart, ?_, rfl⟩) fun item put => ?_
    · rwa [Database.get, Database.applyAll_other _ fun write member => (other write member).1]
    · exact absurd rfl (other _ (mem_putsOf.mp put)).2

end Lines

section Runs
variable {ι : Type} [DecidableEq ι] {sha256 : String → String} {calls : ι → Call} {shop : Shop} {state : SystemState ι}
  {world : SystemWorld ι}

theorem Shop.cartLines (grows : Grows (lawful calls) (shop.start ι) world) : CartLines world.database := by
  refine Grows.database (fun db : Db => CartLines db) grows ?_ fun world label writes _ lines allowed =>
    lines.change allowed.cartChange
  intro item member
  rw [shop.unused .cartItem rfl] at member
  cases member

private theorem CartLines.cascades {db : Db} (lines : CartLines db) (tenantId : Id) : Cascades (tenantArea tenantId) db := by
  intro m k child among item member depends
  cases m with
  | cart =>
    cases List.mem_singleton.mp among
    obtain ⟨cart, found, tenant⟩ := lines item member
    rw [of_decide_eq_true depends] at found
    exact ⟨cart, found, fun owned => (congrArg some tenant.symm).trans owned⟩
  | _ => cases among

theorem Shop.Reaches.confined (reached : shop.Reaches sha256 calls state) :
    state.Confined fun i => tenantArea (calls i).tenantId :=
  State.Reaches.confined reached (shop.valid sha256 calls) (fun _ _ => Environment.lawful)
    (fun _ grown i => (shop.cartLines grown).cascades (calls i).tenantId) (.initial fun i => (calls i).scoped sha256)

/-- The rows that do not belong to a tenant. -/
def outsideOf (tenantId : Id) (db : Db) (m : Model) : List (Model.Row m) :=
  (db.table m).rows.filter fun row => Model.tenantOf row ≠ some tenantId

/-- A call is shown rows of its own tenant only, but for the relations that are
included along a foreign key, and all rows of other tenants are after each of its
statements what they were before. -/
theorem tenant_confined (reached : shop.Reaches sha256 calls state) {event : Event commerce ι}
    (member : event ∈ state.world.trace) {i : ι} (author : event.author = some i) :
    (∀ read ∈ event.listed, Model.included read.1 = true ∨ Model.tenantOf read.2 = some (calls i).tenantId) ∧
      ∀ m, outsideOf (calls i).tenantId (event.before.applyAll event.writes) m =
        outsideOf (calls i).tenantId event.before m := by
  have within := reached.confined.events event member i author
  exact ⟨within.listed, fun m => event.before.scan_outside within.writes fun row (owned : Model.tenantOf row = _) => by simpa using owned⟩

theorem tenant_confined_sale : ∃ state event, Shop.demo.Reaches (fun _ => "hash") cashSale state ∧
    event ∈ state.world.trace ∧ event.author = some 1 ∧ event.writes ≠ [] ∧
      outsideOf 0 (event.before.applyAll event.writes) .order = outsideOf 0 event.before .order := by
  have executed : ((Shop.demo.system (fun _ => "hash") cashSale).run (runs 0 5 ++ runs 1 25)).any (fun state =>
    state.world.trace.any fun event => event.author = some 1 && !event.writes.isEmpty) = true := by decide +kernel
  obtain ⟨state, reached, seen⟩ := Shop.Reaches.computed executed rfl
  obtain ⟨event, member, sold⟩ := List.any_eq_true.mp seen
  simp only [Bool.and_eq_true, decide_eq_true_eq, Bool.not_eq_true', List.isEmpty_eq_false_iff] at sold
  exact ⟨state, event, reached, member, sold.1, sold.2, (tenant_confined reached member sold.1).2 .order⟩

end Runs
end BusinessPlatform
