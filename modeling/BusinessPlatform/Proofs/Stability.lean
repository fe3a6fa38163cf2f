import BusinessPlatform.Proofs.Effects
import BusinessPlatform.Engine.Stability

/-! How the rows of each table evolve under any lawful commits. -/

namespace BusinessPlatform
open Engine InventoryService OrderService PaymentService PosSaleService PosOperationService PosSyncService CartService
open BookingService (UpdateBookingDto patch)

variable {ι : Type} {db : Db} {writes : Writes} {m : Model}

theorem external_nothing (own : Model.external m = false)
    (foreign : ∀ write ∈ writes, Model.external write.model = true) :
    putsOf (S := commerce) m writes = [] ∧ erasesOf (S := commerce) m writes = [] := by
  have other : ∀ write ∈ writes, write.model ≠ m := by
    rintro write member rfl
    simp [foreign write member] at own
  exact ⟨putsOf_other other, erasesOf_other other⟩

theorem Debit.Valid.pool {pool : Option Id} {debit : Debit} (valid : debit.Valid db pool) :
    debit.stock.pool = (debit.variantId, pool) := (Table.find_eq_some.mp valid.stocked).2

/-- A pool's row stays with its tenant. -/
def Inventory.Follows (old new : Inventory) : Prop := new.tenantId = old.tenantId

inductive Order.Follows (old : Order) : Order → Prop where
  | cancelled (now : Nat) (pending : old.status = .pending) : Follows old ((cancel now).apply old)
  | paid (pending : old.status = .pending) : Follows old ((setOrder .paid).apply old)

inductive Payment.Follows (old : Payment) : Payment → Prop where
  | captured (processing : old.status = .processing) : Follows old ((setPayment .captured).apply old)
  | failed (processing : old.status = .processing) : Follows old ((setPayment .failed).apply old)

inductive PosOperation.Follows (old : PosOperation) : PosOperation → Prop where
  | changed (change : Change commerce .posOperation) (kind : OperationChange change)
      (pending : old.status = .pending) : Follows old (change.apply old)

/-- A booking gets its order only while it has none. -/
inductive Booking.Follows (old : Booking) : Booking → Prop where
  | patched (dto : UpdateBookingDto) : Follows old ((patch dto).apply old)
  | linked (orderId : Id) (unlinked : old.orderId = none) : Follows old ((linkOrder orderId).apply old)

/-- A stored cart is new, or an existing cart that is converted. -/
inductive Cart.Stored (stamp : Nat) (db : Db) (new : Cart) : Prop where
  | opened (stamped : new.id = stamp) (fresh : db.get .cart new.id = none) (status : new.status = .opened)
  | converted (old : Cart) (found : db.get .cart old.id = some old) (same : new = convert.apply old)

section Tables
variable {stamp : Nat} (effect : Effect stamp db writes)
include effect

theorem Effect.inventory : erasesOf (S := commerce) .inventory writes = [] ∧
    ∀ row ∈ putsOf (S := commerce) .inventory writes,
      ∀ old, db.get .inventory row.pool = some old → old.Follows row := by
  cases effect with
  | external foreign =>
    have nothing := external_nothing (m := .inventory) rfl foreign
    simp [nothing]
  | @adjusted tenantId scope dto writes adjusted =>
    cases adjusted with
    | moved row found tenant enough fits =>
      refine ⟨rfl, fun new member old before => ?_⟩
      have pool : row.pool = _ := (Table.find_eq_some.mp found).2
      simp only [putsOf_put_same, putsOf_nil, List.mem_singleton] at member
      subst member
      rw [show ((increment dto.delta).apply row).pool = row.pool from rfl, pool, found] at before
      cases before
      rfl
    | opened row absent pool tenant quantity fits => simp [pool, absent]
  | placed placed =>
    refine ⟨Placement.writes_erases .., fun new member old before => ?_⟩
    simp only [Placement.writes_inventory, List.mem_map] at member
    obtain ⟨line, inside, rfl⟩ := member
    have valid := placed.debits line inside
    rw [show line.debited.pool = line.stock.pool from rfl, valid.pool, valid.stocked] at before
    cases before
    rfl
  | cancelled restocked =>
    refine ⟨Cancellation.writes_erases .., fun new member old before => ?_⟩
    simp only [Cancellation.writes_inventory, List.mem_map] at member
    obtain ⟨restock, inside, rfl⟩ := member
    have valid := restocked.restocks restock inside
    rw [valid.pooled] at before
    rw [valid.moved old before]
    rfl
  | captured captured => cases captured; simp
  | markedFailed failed => cases failed; simp
  | operated kind operated => cases operated; simp
  | cart step =>
    cases step with
    | discarded cart found => simp [discardWrites]
    | _ => simp
  | _ => simp

theorem Effect.order : erasesOf (S := commerce) .order writes = [] ∧
    ∀ row ∈ putsOf (S := commerce) .order writes, ∀ old, db.get .order row.id = some old → old.Follows row := by
  cases effect with
  | external foreign =>
    have nothing := external_nothing (m := .order) rfl foreign
    simp [nothing]
  | adjusted adjusted => cases adjusted <;> simp
  | placed placed => simp [placed.fresh]
  | cancelled restocked =>
    refine ⟨Cancellation.writes_erases .., fun new member old before => ?_⟩
    simp only [Cancellation.writes_order, List.mem_singleton] at member
    subst member
    have same := (Table.find_eq_some.mp restocked.found).2
    rw [show ((cancel _).apply _ : Order).id = _ from same, restocked.found] at before
    cases before
    exact .cancelled _ restocked.pending
  | captured captured =>
    obtain ⟨payment, order, found, processing, tenant, ordered, pending⟩ := captured
    refine ⟨rfl, fun new member old before => ?_⟩
    simp only [putsOf_put_other, putsOf_put_same, putsOf_nil, List.mem_singleton, ne_eq, reduceCtorEq,
      not_false_eq_true] at member
    subst member
    have same := (Table.find_eq_some.mp ordered).2
    rw [show ((setOrder .paid).apply order).id = _ from same, ordered] at before
    cases before
    exact .paid pending
  | markedFailed failed => cases failed; simp
  | operated kind operated => cases operated; simp
  | cart step =>
    cases step with
    | discarded cart found => simp [discardWrites]
    | _ => simp
  | _ => simp

theorem Effect.payment : erasesOf (S := commerce) .payment writes = [] ∧
    ∀ row ∈ putsOf (S := commerce) .payment writes,
      ∀ old, db.get .payment row.id = some old → old.Follows row := by
  cases effect with
  | external foreign =>
    have nothing := external_nothing (m := .payment) rfl foreign
    simp [nothing]
  | adjusted adjusted => cases adjusted <;> simp
  | paymentCreated created => simp [created.fresh]
  | captured captured =>
    obtain ⟨payment, order, found, processing, tenant, ordered, pending⟩ := captured
    refine ⟨rfl, fun new member old before => ?_⟩
    simp only [putsOf_put_other, putsOf_put_same, putsOf_nil, List.mem_singleton, ne_eq, reduceCtorEq,
      not_false_eq_true] at member
    subst member
    have same := (Table.find_eq_some.mp found).2
    rw [show ((setPayment .captured).apply payment).id = _ from same, found] at before
    cases before
    exact .captured processing
  | markedFailed failed =>
    obtain ⟨payment, found, processing, tenant⟩ := failed
    refine ⟨rfl, fun new member old before => ?_⟩
    simp only [putsOf_put_same, putsOf_nil, List.mem_singleton] at member
    subst member
    have same := (Table.find_eq_some.mp found).2
    rw [show ((setPayment .failed).apply payment).id = _ from same, found] at before
    cases before
    exact .failed processing
  | operated kind operated => cases operated; simp
  | cart step =>
    cases step with
    | discarded cart found => simp [discardWrites]
    | _ => simp
  | _ => simp

theorem Effect.operation : erasesOf (S := commerce) .posOperation writes = [] ∧
    ∀ row ∈ putsOf (S := commerce) .posOperation writes,
      ∀ old, db.get .posOperation row.id = some old → old.Follows row := by
  cases effect with
  | external foreign =>
    have nothing := external_nothing (m := .posOperation) rfl foreign
    simp [nothing]
  | adjusted adjusted => cases adjusted <;> simp
  | captured captured => cases captured; simp
  | markedFailed failed => cases failed; simp
  | intentRecorded recorded => simp [recorded.fresh]
  | @operated _ _ change _ kind operated =>
    obtain ⟨operation, found, pending, tenant⟩ := operated
    refine ⟨rfl, fun new member old before => ?_⟩
    simp only [putsOf_put_same, putsOf_nil, List.mem_singleton] at member
    subst member
    have same := (Table.find_eq_some.mp found).2
    rw [show (change.apply operation).id = _ from (change.keeps operation).trans same, found] at before
    cases before
    exact .changed change kind pending
  | cart step =>
    cases step with
    | discarded cart found => simp [discardWrites]
    | _ => simp
  | _ => simp

theorem Effect.item : erasesOf (S := commerce) .orderItem writes = [] ∧
    ∀ row ∈ putsOf (S := commerce) .orderItem writes,
      db.get .orderItem row.id = none ∧ db.get .order row.orderId = none := by
  cases effect with
  | external foreign =>
    have nothing := external_nothing (m := .orderItem) rfl foreign
    simp [nothing]
  | adjusted adjusted => cases adjusted <;> simp
  | placed placed =>
    refine ⟨Placement.writes_erases .., fun row member => ?_⟩
    simp only [Placement.writes_items, List.mem_map] at member
    obtain ⟨line, inside, rfl⟩ := member
    exact ⟨placed.itemsFresh line inside, (placed.lines line inside).ordered ▸ placed.fresh⟩
  | captured captured => cases captured; simp
  | markedFailed failed => cases failed; simp
  | operated kind operated => cases operated; simp
  | cart step =>
    cases step with
    | discarded cart found => simp [discardWrites]
    | _ => simp
  | _ => simp

theorem Effect.sale : erasesOf (S := commerce) .posSale writes = [] ∧
    ∀ row ∈ putsOf (S := commerce) .posSale writes, db.get .posSale row.id = none := by
  cases effect with
  | external foreign =>
    have nothing := external_nothing (m := .posSale) rfl foreign
    simp [nothing]
  | adjusted adjusted => cases adjusted <;> simp
  | captured captured => cases captured; simp
  | markedFailed failed => cases failed; simp
  | saleRecorded fresh => simp [fresh]
  | operated kind operated => cases operated; simp
  | cart step =>
    cases step with
    | discarded cart found => simp [discardWrites]
    | _ => simp
  | _ => simp

theorem Effect.booking : erasesOf (S := commerce) .booking writes = [] ∧
    ∀ row ∈ putsOf (S := commerce) .booking writes, ∀ old, db.get .booking row.id = some old → old.Follows row := by
  cases effect with
  | external foreign =>
    have nothing := external_nothing (m := .booking) rfl foreign
    simp [nothing]
  | adjusted adjusted => cases adjusted <;> simp
  | @placed placement placed =>
    refine ⟨Placement.writes_erases .., fun new member old before => ?_⟩
    rw [Placement.writes_booking] at member
    obtain ⟨booking, taken, rfl⟩ := List.mem_map.mp member
    obtain ⟨found, unlinked⟩ := placed.booking booking (by simpa using taken)
    cases found.symm.trans before
    exact .linked _ unlinked
  | captured captured => cases captured; simp
  | markedFailed failed => cases failed; simp
  | operated kind operated => cases operated; simp
  | bookingCreated created => simp [created.fresh]
  | @bookingPatched tenantId bookingId dto booking patched =>
    refine ⟨rfl, fun new member old before => ?_⟩
    simp only [putsOf_put_same, putsOf_nil, List.mem_singleton] at member
    subst member
    have same : booking.id = bookingId := (Table.find_eq_some.mp patched.found).2
    rw [show ((patch dto).apply booking).id = booking.id from rfl, same, patched.found] at before
    cases before
    exact .patched dto
  | cart step =>
    cases step with
    | discarded cart found => simp [discardWrites]
    | _ => simp
  | _ => simp

/-- The lines of an operation are only ever inserted, with their operation. -/
theorem Effect.line : erasesOf (S := commerce) .posOperationItem writes = [] ∧
    ∀ row ∈ putsOf (S := commerce) .posOperationItem writes,
      db.get .posOperationItem row.id = none ∧ db.get .posOperation row.operationId = none := by
  cases effect with
  | external foreign =>
    have nothing := external_nothing (m := .posOperationItem) rfl foreign
    simp [nothing]
  | adjusted adjusted => cases adjusted <;> simp
  | captured captured => cases captured; simp
  | markedFailed failed => cases failed; simp
  | intentRecorded recorded =>
    refine ⟨intentWrites_erases .., fun row member => ?_⟩
    rw [intentWrites_items] at member
    obtain ⟨operation, fresh⟩ := recorded.lines row member
    exact ⟨fresh, operation ▸ recorded.fresh⟩
  | operated kind operated => cases operated; simp
  | cart step =>
    cases step with
    | discarded cart found => simp [discardWrites]
    | _ => simp
  | _ => simp

theorem Effect.carts : ∀ row ∈ putsOf (S := commerce) .cart writes, row.Stored stamp db := by
  cases effect with
  | external foreign =>
    have nothing := external_nothing (m := .cart) rfl foreign
    simp [nothing]
  | adjusted adjusted => cases adjusted <;> simp
  | @placed placement placed =>
    intro row member
    rw [Placement.writes_cart] at member
    obtain ⟨cart, taken, rfl⟩ := List.mem_map.mp member
    exact .converted cart (placed.cart cart (by simpa using taken)) rfl
  | captured captured => cases captured; simp
  | markedFailed failed => cases failed; simp
  | operated kind operated => cases operated; simp
  | cart step =>
    cases step with
    | cartOpened cart opened =>
      intro row member
      simp only [putsOf_put_same, putsOf_nil, List.mem_singleton] at member
      subst member
      exact .opened opened.stamped opened.fresh opened.opened
    | discarded cart found => simp [discardWrites]
    | _ => simp
  | _ => simp

end Tables

section Growth
variable [DecidableEq ι] {calls : ι → Call} {before after : SystemWorld ι}

theorem keepsInventory : Keeps (lawful calls) .inventory Inventory.Follows :=
  fun _ _ _ allowed => allowed.effect.inventory

theorem keepsOrder : Keeps (lawful calls) .order Order.Follows := fun _ _ _ allowed => allowed.effect.order

theorem keepsPayment : Keeps (lawful calls) .payment Payment.Follows := fun _ _ _ allowed => allowed.effect.payment

theorem keepsOperation : Keeps (lawful calls) .posOperation PosOperation.Follows :=
  fun _ _ _ allowed => allowed.effect.operation

theorem keepsBooking : Keeps (lawful calls) .booking Booking.Follows := fun _ _ _ allowed => allowed.effect.booking

variable (grows : Grows (lawful calls) before after)
include grows

theorem Grows.order {id : Id} {old : Order} (found : before.database.get .order id = some old) :
    ∃ new, after.database.get .order id = some new ∧
      new = { old with status := new.status, cancelledAt := new.cancelledAt } := by
  obtain ⟨new, now, path⟩ := grows.row keepsOrder found
  refine ⟨new, now, ?_⟩
  clear now
  induction path with
  | refl => rfl
  | tail earlier step ih =>
    cases step <;> (rw [ih]; rfl)

theorem Grows.payment {id : Id} {old : Payment} (found : before.database.get .payment id = some old) :
    ∃ new, after.database.get .payment id = some new ∧ new = { old with status := new.status } := by
  obtain ⟨new, now, path⟩ := grows.row keepsPayment found
  refine ⟨new, now, ?_⟩
  clear now
  induction path with
  | refl => rfl
  | tail earlier step ih =>
    cases step <;> (rw [ih]; rfl)

theorem Grows.captured {id : Id} {payment : Payment} (found : before.database.get .payment id = some payment)
    (captured : payment.status = .captured) : after.database.get .payment id = some payment :=
  grows.final keepsPayment found fun _ step => by cases step <;> simp_all

theorem Grows.settled {id : Id} {operation : PosOperation}
    (found : before.database.get .posOperation id = some operation) (settled : operation.status ≠ .pending) :
    after.database.get .posOperation id = some operation :=
  grows.final keepsOperation found fun _ step => by
    cases step with
    | changed change kind pending => exact settled pending

/-- What an operation was recorded with. -/
def PosOperation.provenance (operation : PosOperation) :=
  (operation.id, operation.tenantId, operation.deviceId, operation.sessionId, operation.storeId, operation.userId,
    operation.clientUuid, operation.seq, operation.customerId)

omit grows in
omit [DecidableEq ι] in
theorem OperationChange.provenance {change : Change commerce .posOperation} (kind : OperationChange change)
    (operation : PosOperation) : (change.apply operation : PosOperation).provenance = operation.provenance := by
  cases kind <;> rfl

theorem Grows.provenance {id : Id} {old : PosOperation} (found : before.database.get .posOperation id = some old) :
    ∃ new, after.database.get .posOperation id = some new ∧ new.provenance = old.provenance :=
  grows.field keepsOperation found PosOperation.provenance fun _ _ step => by
    cases step with
    | changed change kind pending => exact kind.provenance _

theorem Grows.pool {pool : Pool} {old : Inventory} (found : before.database.get .inventory pool = some old) :
    ∃ new, after.database.get .inventory pool = some new ∧ new.tenantId = old.tenantId :=
  grows.field keepsInventory found Inventory.tenantId fun _ _ step => step

theorem Grows.items {orderId : Id} (tenantId : Id) (placed : (before.database.get .order orderId).isSome = true) :
    itemsOf after.database tenantId orderId = itemsOf before.database tenantId orderId := by
  refine Grows.scan (m := Model.orderItem) (fun db : Db => (db.get .order orderId).isSome = true) grows placed ?_
  intro author world writes allowed present
  obtain ⟨old, found⟩ := Option.isSome_iff_exists.mp present
  obtain ⟨new, now, _⟩ := keepsOrder.row (.inr allowed) found
  obtain ⟨kept, fresh⟩ := allowed.effect.item
  refine ⟨by simp [now], kept, fun row member => ?_⟩
  obtain ⟨absent, unordered⟩ := fresh row member
  have different : row.orderId ≠ orderId := fun same => by simp [same ▸ unordered] at present
  refine ⟨by simp [different], fun old before => ?_⟩
  cases before.symm.trans absent

theorem Grows.lines {operationId : Id} (recorded : (before.database.get .posOperation operationId).isSome = true) :
    linesOf after.database operationId = linesOf before.database operationId := by
  refine Grows.scan (m := Model.posOperationItem) (fun db : Db => (db.get .posOperation operationId).isSome = true) grows recorded ?_
  intro author world writes allowed present
  obtain ⟨old, found⟩ := Option.isSome_iff_exists.mp present
  obtain ⟨new, now, _⟩ := keepsOperation.row (.inr allowed) found
  obtain ⟨kept, fresh⟩ := allowed.effect.line
  refine ⟨by simp [now], kept, fun row member => ?_⟩
  obtain ⟨absent, unrecorded⟩ := fresh row member
  have different : row.operationId ≠ operationId := fun same => by simp [same ▸ unrecorded] at present
  refine ⟨by simp [different], fun old before => ?_⟩
  cases before.symm.trans absent

end Growth

/-- A cart's identifier is older than the world and never used again, so it
stays with its tenant even if the cart is deleted. -/
structure KnownCart (tenantId cartId : Id) (world : SystemWorld ι) : Prop where
  used : cartId < world.trace.length
  tenant : ∀ cart, world.database.get .cart cartId = some cart → cart.tenantId = tenantId

def KnownCarts (world : SystemWorld ι) : Prop :=
  ∀ id cart, world.database.get .cart id = some cart → KnownCart cart.tenantId id world

section Carts
variable [DecidableEq ι] {calls : ι → Call} {before after : SystemWorld ι} {tenantId cartId : Id}

theorem KnownCart.evolves (known : KnownCart tenantId cartId before) (step : Evolves (lawful calls) before after) :
    KnownCart tenantId cartId after := by
  cases step with
  | wait elapsed => exact ⟨known.used, known.tenant⟩
  | event label writes allowed =>
    refine ⟨Nat.lt_succ_of_lt known.used, fun cart found => ?_⟩
    rcases allowed with rfl | allowed
    · exact known.tenant cart found
    rcases Database.get_found _ found with stored | there
    · have key : cart.id = cartId := (Table.find_eq_some.mp found).2
      cases allowed.effect.carts cart stored with
      | opened stamped fresh status => exact absurd (key ▸ stamped) (Nat.ne_of_lt known.used)
      | converted old there same =>
        subst same
        exact known.tenant old (key ▸ there)
    · exact known.tenant cart there

theorem KnownCart.grows (known : KnownCart tenantId cartId before) (grows : Grows (lawful calls) before after) :
    KnownCart tenantId cartId after := by
  induction grows with
  | refl => exact known
  | tail earlier step ih => exact ih.evolves step

theorem KnownCarts.grows (known : KnownCarts before) (grows : Grows (lawful calls) before after) :
    KnownCarts after := by
  induction grows with
  | refl => exact known
  | @tail world later earlier step ih =>
    cases step with
    | wait elapsed => exact fun id cart found => ⟨(ih id cart found).used, (ih id cart found).tenant⟩
    | event label writes allowed =>
      intro id cart found
      have there : world.database.get .cart id = some cart → KnownCart cart.tenantId id (world.record label writes) :=
        fun there => (ih id cart there).evolves (.event label writes allowed)
      rcases allowed with rfl | lawful
      · exact there found
      rcases Database.get_found _ found with stored | before
      · have key : cart.id = id := (Table.find_eq_some.mp found).2
        cases lawful.effect.carts cart stored with
        | opened stamped fresh status =>
          refine ⟨key ▸ stamped ▸ Nat.lt_succ_self _, fun other same => ?_⟩
          rw [Option.some.inj (same.symm.trans found)]
        | converted old present same =>
          subst same
          exact (ih id old (key ▸ present)).evolves (.event label writes (.inr lawful))
      · exact there before

end Carts
/-- A number is sent, or the call fails before it reaches the database. -/
theorem Safe.sent {α : Type} {commits : Commits commerce ι} {rely : Guarantee commerce ι} {i : ι}
    {post : Post commerce HttpException α ι} {session : Option (Transaction commerce)} {world : SystemWorld ι} {value : Int}
    {next : Unit → Service α}
    (refused : Prisma.sendable value = false →
      Safe commits rely i post (.done (.error (.database .validation))) session world)
    (resume : Prisma.sendable value = true → Safe commits rely i post (next ()) session world) :
    Safe commits rely i post (Prisma.sendInteger value >>= next) session world := by
  rw [Prisma.sendInteger]
  split
  next sent => exact resume sent
  next unsent => exact refused (Bool.eq_false_iff.mpr unsent)

end BusinessPlatform
