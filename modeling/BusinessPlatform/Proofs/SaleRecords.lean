import BusinessPlatform.Proofs.TenantReferences

/-! The books of a shop: what its orders, payments and sales add up to, and what
of them can still change. -/

namespace BusinessPlatform
open Engine OrderService PaymentService PosSaleService PosSyncService

variable {ι : Type} [DecidableEq ι] {sha256 : String → String} {calls : ι → Call} {shop : Shop} {state next : SystemState ι}
  {world : SystemWorld ι} {db : Db}

/-- The captured payments of a tenant in a currency. -/
def capturedPayments (db : Db) (tenantId : Id) (currency : String) : List Payment :=
  (db.table .payment).rows.filter fun row => row.status = .captured && row.currency = currency && row.tenantId = tenantId

/-- The paid orders of a tenant in a currency. -/
def paidOrders (db : Db) (tenantId : Id) (currency : String) : List Order :=
  (db.table .order).rows.filter fun row => row.status = .paid && row.currency = currency && row.tenantId = tenantId

/-- Every payment belongs to its order's tenant. -/
def PaymentsInside (db : Db) : Prop :=
  ∀ payment ∈ (db.table .payment).rows, ∃ order : Order, db.get .order (Payment.orderId payment) = some order ∧
    order.tenantId = Payment.tenantId payment

private theorem capturing {payment : Payment} (member : payment ∈ (db.table .payment).rows)
    (captured : payment.status = .captured) : Payment.Captures db payment.orderId payment :=
  ⟨Table.find_eq_some.mpr ⟨member, rfl⟩, rfl, captured⟩

/-- The orders that payments have been captured for are the paid ones. -/
private theorem capturedPayments_perm (balanced : Balanced db) (inside : PaymentsInside db) (tenantId : Id) (currency : String) :
    ((capturedPayments db tenantId currency).map Payment.orderId).Perm ((paidOrders db tenantId currency).map Order.id) := by
  have paid (payment : Payment) (member : payment ∈ (db.table .payment).rows) (captured : payment.status = .captured) :
      ∃ order, db.get .order payment.orderId = some order ∧ order.status = .paid ∧ payment.currency = order.currency ∧
        order.tenantId = payment.tenantId := by
    obtain ⟨order, found, _, same⟩ := balanced.amounts payment.id payment (Table.find_eq_some.mpr ⟨member, rfl⟩)
    obtain ⟨other, again, tenant⟩ := inside payment member
    cases found.symm.trans again
    refine ⟨order, found, by_contra fun unpaid => ?_, same, tenant⟩
    exact balanced.unpaid _ order found unpaid payment (capturing member captured)
  refine (List.perm_ext_iff_of_nodup ?_ ?_).mpr fun id => ?_
  · refine List.Nodup.map_on (fun first one second two same => ?_) ((db.table .payment).distinct.of_map.filter _)
    obtain ⟨inFirst, captured⟩ := List.mem_filter.mp one
    obtain ⟨inSecond, also⟩ := List.mem_filter.mp two
    simp only [Bool.and_eq_true, decide_eq_true_eq] at captured also
    obtain ⟨order, found, isPaid, _⟩ := paid first inFirst captured.1.1
    have unique := balanced.paid _ order found isPaid
    exact unique.unique (capturing inFirst captured.1.1) (same ▸ capturing inSecond also.1.1)
  · exact List.Nodup.map_on (fun first one second two same =>
      Table.key_unique _ (List.mem_filter.mp one).1 (List.mem_filter.mp two).1 same) ((db.table .order).distinct.of_map.filter _)
  · simp only [List.mem_map, capturedPayments, paidOrders, List.mem_filter, Bool.and_eq_true, decide_eq_true_eq]
    constructor
    · rintro ⟨payment, ⟨member, ⟨captured, rfl⟩, rfl⟩, rfl⟩
      obtain ⟨order, found, isPaid, same, tenant⟩ := paid payment member captured
      obtain ⟨stored, key⟩ := Table.find_eq_some.mp found
      exact ⟨order, ⟨stored, ⟨isPaid, same.symm⟩, tenant⟩, key⟩
    · rintro ⟨order, ⟨member, ⟨isPaid, rfl⟩, rfl⟩, rfl⟩
      have found : db.get .order order.id = some order := Table.find_eq_some.mpr ⟨member, rfl⟩
      obtain ⟨payment, captures, _⟩ := balanced.paid _ order found isPaid
      have stored := (Table.find_eq_some.mp captures.stored).1
      obtain ⟨other, again, _, same, tenant⟩ := paid payment stored captures.captured
      rw [captures.order, found] at again
      cases again
      exact ⟨payment, ⟨stored, ⟨captures.captured, same⟩, tenant.symm⟩, captures.order⟩

/-- What a tenant has captured in a currency. -/
def capturedAmount (db : Db) (tenantId : Id) (currency : String) : Int :=
  ((capturedPayments db tenantId currency).map Payment.amountMinor).sum

def paidAmount (db : Db) (tenantId : Id) (currency : String) : Int :=
  ((paidOrders db tenantId currency).map Order.subtotalMinor).sum

/-- In every state reached, each tenant has captured in each currency exactly what
its paid orders amount to. -/
theorem captured_amount_is_paid (reached : shop.Reaches sha256 calls state) (tenantId : Id) (currency : String) :
    capturedAmount state.world.database tenantId currency = paidAmount state.world.database tenantId currency := by
  generalize stored : state.world.database = db
  have balanced : Balanced db := stored ▸ Shop.balanced (Shop.Reaches.valid reached).2
  have inside : PaymentsInside db := by
    intro payment member
    have leads := Shop.references (Shop.Reaches.valid reached).2 reached.confined.events .payment payment (stored ▸ member)
      ⟨.order, Payment.orderId payment⟩ (by simp [Model.references, Model.parents, Model.external])
    obtain ⟨order, found, tenant⟩ := leads
    exact ⟨order, stored ▸ found, Option.some.inj tenant⟩
  -- both sums are over the subtotals of the same orders
  let subtotal (id : Id) : Int := ((db.get .order id).map Order.subtotalMinor).getD 0
  have payments : (capturedPayments db tenantId currency).map Payment.amountMinor =
      ((capturedPayments db tenantId currency).map Payment.orderId).map subtotal := by
    rw [List.map_map]
    refine List.map_congr_left fun payment member => ?_
    obtain ⟨order, found, amount, _⟩ := balanced.amounts payment.id payment
      (Table.find_eq_some.mpr ⟨(List.mem_filter.mp member).1, rfl⟩)
    simp [subtotal, found, amount]
  have orders : (paidOrders db tenantId currency).map Order.subtotalMinor =
      ((paidOrders db tenantId currency).map Order.id).map subtotal := by
    rw [List.map_map]
    refine List.map_congr_left fun order member => ?_
    have found : db.get .order order.id = some order := Table.find_eq_some.mpr ⟨(List.mem_filter.mp member).1, rfl⟩
    simp [subtotal, found]
  rw [capturedAmount, paidAmount, payments, orders]
  exact ((capturedPayments_perm balanced inside tenantId currency).map subtotal).sum_eq

theorem captured_amount_is_paid_cash : ∃ state, Shop.demo.Reaches (fun _ => "hash") cashSale state ∧
    paidAmount state.world.database 0 "USD" = 200 ∧ capturedAmount state.world.database 0 "USD" = 200 := by
  have executed : ((Shop.demo.system (fun _ => "hash") cashSale).run (runs 0 5 ++ runs 1 25)).any (fun state =>
    decide (paidAmount state.world.database 0 "USD" = 200)) = true := by decide +kernel
  obtain ⟨state, reached, seen⟩ := Shop.Reaches.computed executed rfl
  exact ⟨state, reached, of_decide_eq_true seen, (captured_amount_is_paid reached 0 "USD").trans (of_decide_eq_true seen)⟩

section Sales
variable {i : ι} {writes : Writes} {placement : Placement} {payment : Payment} {base : List Writes}

omit [DecidableEq ι] in
private theorem SaleStep.paysOrder {tenantId userId : Id} {dto : CreatePosSaleDto} {history : List Writes}
    (step : SaleStep i tenantId userId dto world history [.put .payment payment])
    (own : history = [placement.writes]) : payment.orderId = placement.order.id := by
  have orders (other : Placement) (same : other.writes = placement.writes) : other.order = placement.order := by
    have puts := congrArg (putsOf (S := commerce) .order) same
    simpa using puts
  generalize written : [Write.put (S := commerce) .payment payment] = writes at step
  cases step with
  | order other session ordered => simp at own
  | payment other created paid =>
    cases written
    rw [paid.orderId, orders other (List.cons.inj own).1]
  | capture => simp at own
  | sale => cases written

private theorem lawful.paysOrder (allowed : lawful calls (some i) world [.put .payment payment])
    (own : world.own i = placement.writes :: base) (preceding : (calls i).Preceding base) :
    payment.orderId = placement.order.id := by
  simp only [lawful, Call.Commits] at allowed
  cases call : calls i with
  | createSale tenantId userId dto options =>
    rw [call] at allowed preceding
    obtain rfl : base = [] := preceding
    exact SaleStep.paysOrder allowed own
  | syncOperation tenantId userId operationId credential =>
    rw [call] at allowed preceding
    obtain ⟨claim, held, rfl⟩ := preceding
    generalize written : [Write.put (S := commerce) .payment payment] = writes at allowed
    generalize world.own i = history at allowed own
    cases allowed with
    | rejected code operated | cleared operated => cases own
    | claimed => cases own
    | outOfStock claim held operated => simp at own
    | accepted claim held placement payment paid captures sale once found captured order operated =>
      cases operated
      cases written
    | executed claim held row items filled validated earlier found tenant lines read step =>
      subst written
      refine SaleStep.paysOrder step ?_
      have split : earlier ++ [claim] = [placement.writes] ++ [_] := own
      exact (List.append_inj' split rfl).1
  | _ =>
    rw [call] at preceding
    cases preceding

/-- A recorded sale has its payment from the call that recorded it. -/
private theorem Shop.sale_paid (grows : Grows (lawful calls) (shop.start ι) world) {id : Id} {sale : PosSale}
    (found : world.database.get .posSale id = some sale) :
    ∃ payment, world.database.get .payment sale.paymentId = some payment ∧ payment.orderId = sale.orderId := by
  obtain ⟨event, origin, suffix, recorded, absent, present⟩ :=
    Grows.stored (m := Model.posSale) grows (shop.get_unused rfl id) (by simp [found])
  have allowed : lawful calls event.author origin event.writes := recorded.lawful.resolve_left fun empty => by
    rw [empty, Database.applyAll_nil, absent] at present
    cases present
  obtain ⟨new, now⟩ := Option.isSome_iff_exists.mp present
  obtain rfl : new = sale := Option.some.inj ((Grows.final keepsSale recorded.after now fun _ => not_false).symm.trans found)
  have stored := (Database.get_found _ now).resolve_right (by simp [absent])
  obtain ⟨i, placement, payment, captures, base, author, recording⟩ := allowed.recording stored
  obtain ⟨paying, rest, before, inside, paid, by_i, written, earlier⟩ := Grows.own_recorded recorded.before rfl recording.own
  have lawful : BusinessPlatform.lawful calls (some i) before [.put .payment payment] :=
    written ▸ (by_i ▸ paid.lawful).resolve_left fun empty => by simp [written] at empty
  have created : (before.record paying.toLabel paying.writes).database.get .payment payment.id = some payment := by
    rw [World.record_database, written]
    exact Database.get_put (S := commerce) before.database .payment payment
  obtain ⟨kept, current, same⟩ := Grows.payment (paid.after.trans recorded.grows) created
  refine ⟨kept, recording.paid ▸ current, ?_⟩
  rw [same, recording.order]
  exact lawful.paysOrder earlier recording.preceding

end Sales

/-- In every state reached, a sale has its order and its payment, all of one tenant.
The payment is for that order and for its amount, it is captured only if the order
is paid, no other sale has the order or the payment, and the goods came from the
pools of the sale's store. -/
theorem pos_sale_complete (reached : shop.Reaches sha256 calls state) {id : Id} {sale : PosSale}
    (found : state.world.database.get .posSale id = some sale) :
    (∃ (order : Order) (payment : Payment),
      state.world.database.get .order sale.orderId = some order ∧ state.world.database.get .payment sale.paymentId = some payment ∧
        order.tenantId = sale.tenantId ∧ payment.tenantId = sale.tenantId ∧ payment.orderId = sale.orderId ∧
        payment.amountMinor = order.subtotalMinor ∧ payment.currency = order.currency ∧
        (payment.status = .captured → order.status = .paid)) ∧
    (∀ other ∈ (state.world.database.table .posSale).rows,
      PosSale.orderId other = sale.orderId ∨ PosSale.paymentId other = sale.paymentId → other = sale) ∧
    ∃ event ∈ state.world.trace, (createdOrders event).map Order.id = [sale.orderId] ∧
      ∀ pool ∈ putsOf (S := commerce) .inventory event.writes, pool.storeId = some sale.storeId := by
  obtain ⟨_, grows⟩ := Shop.Reaches.valid reached
  have member : sale ∈ (state.world.database.table .posSale).rows := (Table.find_eq_some.mp found).1
  have balanced := Shop.balanced grows
  have leads := Shop.references grows reached.confined.events .posSale sale member
  refine ⟨?_, fun other among shared => ?_, ?_⟩
  · obtain ⟨order, ordered, orderTenant⟩ := leads ⟨.order, sale.orderId⟩ (by simp [Model.references, Model.parents, Model.external])
    obtain ⟨payment, paid, paymentTenant⟩ := leads ⟨.payment, sale.paymentId⟩ (by simp [Model.references, Model.parents, Model.external])
    obtain ⟨again, there, pays⟩ := Shop.sale_paid grows found
    cases paid.symm.trans there
    obtain ⟨its, owed, amount, currency⟩ := balanced.amounts _ payment paid
    rw [pays, ordered] at owed
    cases owed
    refine ⟨order, payment, ordered, paid, Option.some.inj orderTenant, Option.some.inj paymentTenant, pays, amount, currency, fun captured => ?_⟩
    refine by_contra fun unpaid => balanced.unpaid _ order ordered unpaid payment ⟨?_, pays, captured⟩
    rwa [show payment.id = sale.paymentId from (Table.find_eq_some.mp paid).2]
  · have unique := (reached.unique (m := .posSale) rfl).committed
    rcases shared with same | same
    · exact unique other among sale member (.saleOrder sale.orderId) (by simp [Model.indexes, same]) (by simp [Model.indexes])
    · exact unique other among sale member (.salePayment sale.paymentId) (by simp [Model.indexes, same]) (by simp [Model.indexes])
  · obtain ⟨event, origin, placement, placed, order, _, pool⟩ := Shop.sale_placed grows found
    refine ⟨event, placed.member, by rw [placed.created, List.map_singleton, order], ?_⟩
    rw [placed.written]
    exact placed.placed.debits_iff.mpr pool

theorem pos_sale_complete_cash : ∃ (state : SystemState (Fin 2)) (sale : PosSale),
    sale ∈ (state.world.database.table .posSale).rows ∧ ∃ (order : Order) (payment : Payment),
      state.world.database.get .order sale.orderId = some order ∧ state.world.database.get .payment sale.paymentId = some payment ∧
        payment.amountMinor = order.subtotalMinor := by
  have executed : ((Shop.demo.system (fun _ => "hash") cashSale).run (runs 0 5 ++ runs 1 25)).any (fun state =>
    !(state.world.database.table .posSale).rows.isEmpty) = true := by decide +kernel
  obtain ⟨state, reached, seen⟩ := Shop.Reaches.computed executed rfl
  simp only [Bool.not_eq_true', List.isEmpty_eq_false_iff] at seen
  obtain ⟨sale, member⟩ := List.exists_mem_of_ne_nil _ seen
  obtain ⟨order, payment, ordered, paid, _, _, _, amount, _⟩ :=
    (pos_sale_complete reached (Table.find_eq_some.mpr ⟨member, rfl⟩ : state.world.database.get .posSale sale.id = some sale)).1
  exact ⟨state, sale, member, order, payment, ordered, paid, amount⟩

/-- The books of a state as a later one has them: everything is still there. Of an
order only the status may have changed, and only if it was pending; of a payment
only the status, and only if it was processing; of items and sales nothing. -/
structure Continues (before after : Db) : Prop where
  orders : ∀ id order, before.get .order id = some order → ∃ new, after.get .order id = some new ∧
    new = { order with status := new.status, cancelledAt := new.cancelledAt } ∧ (order.status ≠ .pending → new = order)
  items : ∀ tenantId orderId, (before.get .order orderId).isSome = true →
    itemsOf after tenantId orderId = itemsOf before tenantId orderId
  payments : ∀ id payment, before.get .payment id = some payment → ∃ new, after.get .payment id = some new ∧
    new = { payment with status := new.status } ∧ (payment.status ≠ .processing → new = payment)
  sales : ∀ id sale, before.get .posSale id = some sale → after.get .posSale id = some sale

/-- The books only grow. -/
theorem books_append_only (reached : shop.Reaches sha256 calls state) (later : State.Reaches Environment state next) :
    Continues state.world.database next.world.database := by
  obtain ⟨valid, _⟩ := Shop.Reaches.valid reached
  have grows : Grows (lawful calls) state.world next.world := (State.Reaches.valid later valid fun _ _ => Environment.lawful).2
  refine ⟨fun id order found => ?_, fun tenantId orderId placed => Grows.items grows tenantId placed, fun id payment found => ?_,
    fun id sale found => Grows.final keepsSale grows found fun _ => not_false⟩
  · obtain ⟨new, now, same⟩ := Grows.order grows found
    refine ⟨new, now, same, fun settled => ?_⟩
    have final := Grows.final keepsOrder grows found fun _ follows => by
      cases follows <;> exact settled ‹_›
    exact Option.some.inj (now.symm.trans final)
  · obtain ⟨new, now, same⟩ := Grows.payment grows found
    refine ⟨new, now, same, fun settled => ?_⟩
    have final := Grows.final keepsPayment grows found fun _ follows => by
      cases follows <;> exact settled ‹_›
    exact Option.some.inj (now.symm.trans final)

/-- An order that is seen while its sale is under way keeps its amount and is paid in
the end. -/
theorem books_append_only_cash : ∃ (state next : SystemState (Fin 2)) (order new : Order),
    State.Reaches Environment state next ∧
      state.world.database.get .order 12 = some order ∧ order.status = .pending ∧
      next.world.database.get .order 12 = some new ∧ new.status = .paid ∧ new.subtotalMinor = order.subtotalMinor := by
  have executed : ((Shop.demo.system (fun _ => "hash") cashSale).run (runs 0 5 ++ runs 1 16)).any (fun state =>
    (state.world.database.get .order 12).map Order.status = some .pending &&
      (state.run (runs 1 9)).any fun next => (next.world.database.get .order 12).map Order.status = some .paid) = true := by
    decide +kernel
  obtain ⟨state, reached, seen⟩ := Shop.Reaches.computed executed rfl
  obtain ⟨pending, finished⟩ := Bool.and_eq_true_iff.mp seen
  obtain ⟨next, ran, paid⟩ := (Option.any_eq_true _ _).mp finished
  have later : State.Reaches Environment state next := State.Reaches.schedule ran (.of_forall fun action member _ =>
    Regular.environment (List.all_eq_true.mp (rfl : (runs (1 : Fin 2) 9).all Regular = true) action member))
  obtain ⟨order, found, unpaid⟩ := Option.map_eq_some_iff.mp (of_decide_eq_true pending)
  obtain ⟨new, now, settled⟩ := Option.map_eq_some_iff.mp (of_decide_eq_true paid)
  obtain ⟨same, there, kept, _⟩ := (books_append_only reached later).orders 12 order found
  cases now.symm.trans there
  exact ⟨state, next, order, new, later, found, unpaid, now, settled, by rw [kept]⟩

end BusinessPlatform
