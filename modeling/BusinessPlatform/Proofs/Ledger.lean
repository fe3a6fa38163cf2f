import BusinessPlatform.Proofs.SystemSafety

/-! Orders and their payments. The two rows are written by separate guarded
updates; in every state reached they agree. -/

namespace BusinessPlatform
open Engine OrderService PaymentService

variable {ι : Type} {db : Db} {writes : Writes} {stamp : Nat}

/-- A captured payment of an order. -/
structure Payment.Captures (db : Db) (orderId : Id) (payment : Payment) : Prop where
  stored : db.get .payment payment.id = some payment
  order : payment.orderId = orderId
  captured : payment.status = .captured

structure Balanced (db : Db) : Prop where
  amounts : ∀ id payment, db.get .payment id = some payment → ∃ order, db.get .order payment.orderId = some order ∧
    payment.amountMinor = order.subtotalMinor ∧ payment.currency = order.currency
  paid : ∀ id order, db.get .order id = some order → order.status = .paid → ∃! payment, Payment.Captures db id payment
  unpaid : ∀ id order, db.get .order id = some order → order.status ≠ .paid →
    ∀ payment, ¬ Payment.Captures db id payment

/-- What a commit does to the two tables. -/
inductive Ledger (db : Db) (writes : Writes) : Prop where
  | still (orders : putsOf (S := commerce) .order writes = []) (payments : putsOf (S := commerce) .payment writes = [])
  | placed (order : Order) (orders : putsOf (S := commerce) .order writes = [order])
      (payments : putsOf (S := commerce) .payment writes = []) (fresh : db.get .order order.id = none)
      (pending : order.status = .pending)
  | cancelled (order : Order) (now : Nat) (orders : putsOf (S := commerce) .order writes = [(cancel now).apply order])
      (payments : putsOf (S := commerce) .payment writes = []) (found : db.get .order order.id = some order)
      (pending : order.status = .pending)
  | created (payment : Payment) (order : Order) (orders : putsOf (S := commerce) .order writes = [])
      (payments : putsOf (S := commerce) .payment writes = [payment]) (fresh : db.get .payment payment.id = none)
      (processing : payment.status = .processing) (ordered : db.get .order payment.orderId = some order)
      (amount : payment.amountMinor = order.subtotalMinor ∧ payment.currency = order.currency)
  | failed (payment : Payment) (orders : putsOf (S := commerce) .order writes = [])
      (payments : putsOf (S := commerce) .payment writes = [(setPayment .failed).apply payment])
      (found : db.get .payment payment.id = some payment) (processing : payment.status = .processing)
  | captured (payment : Payment) (order : Order)
      (orders : putsOf (S := commerce) .order writes = [(setOrder .paid).apply order])
      (payments : putsOf (S := commerce) .payment writes = [(setPayment .captured).apply payment])
      (found : db.get .payment payment.id = some payment) (processing : payment.status = .processing)
      (ordered : db.get .order order.id = some order) (same : payment.orderId = order.id)
      (pending : order.status = .pending)

theorem Effect.ledger (effect : Effect stamp db writes) : Ledger db writes := by
  cases effect with
  | external foreign =>
    exact .still (external_nothing (m := .order) rfl foreign).1 (external_nothing (m := .payment) rfl foreign).1
  | adjusted adjusted => cases adjusted <;> exact .still (by simp) (by simp)
  | placed placed => exact .placed _ (by simp) (by simp) placed.fresh placed.pending
  | @cancelled _ orderId cancellation restocked =>
    have same : cancellation.order.id = orderId := (Table.find_eq_some.mp restocked.found).2
    exact .cancelled _ _ (Cancellation.writes_order _) (by simp) (same ▸ restocked.found) restocked.pending
  | paymentCreated created =>
    obtain ⟨order, ordered, _, amount⟩ := created.order
    exact .created _ order (by simp) (by simp) created.fresh created.processing (created.orderId ▸ ordered) amount
  | captured captured =>
    obtain ⟨payment, order, found, processing, tenant, ordered, pending⟩ := captured
    have paymentId : payment.id = _ := (Table.find_eq_some.mp found).2
    have orderId : order.id = payment.orderId := (Table.find_eq_some.mp ordered).2
    exact .captured payment order (by simp) (by simp) (paymentId ▸ found) processing (orderId ▸ ordered) orderId.symm
      pending
  | markedFailed failed =>
    obtain ⟨payment, found, processing, tenant⟩ := failed
    have paymentId : payment.id = _ := (Table.find_eq_some.mp found).2
    exact .failed payment (by simp) (by simp) (paymentId ▸ found) processing
  | saleRecorded | intentRecorded | bookingCreated | bookingPatched => exact .still (by simp) (by simp)
  | operated kind operated => cases operated; exact .still (by simp) (by simp)
  | cart step =>
    cases step with
    | discarded cart found => exact .still (by simp [discardWrites]) (by simp [discardWrites])
    | _ => exact .still (by simp) (by simp)

section Preservation
variable {after : Db}

/-- A row of either table keeps what the amounts are compared by. -/
def SameTerms (old new : Order) : Prop := new.subtotalMinor = old.subtotalMinor ∧ new.currency = old.currency

private theorem captures_iff (same : ∀ k, after.get .payment k = db.get .payment k ∨
      (∀ payment, after.get .payment k = some payment → payment.status ≠ .captured) ∧
        ∀ payment, db.get .payment k = some payment → payment.status ≠ .captured) {id : Id} {payment : Payment} :
    Payment.Captures after id payment ↔ Payment.Captures db id payment := by
  constructor
  · rintro ⟨stored, order, captured⟩
    rcases same payment.id with same | ⟨uncaptured, _⟩
    · exact ⟨same ▸ stored, order, captured⟩
    · exact absurd captured (uncaptured payment stored)
  · rintro ⟨stored, order, captured⟩
    rcases same payment.id with same | ⟨_, uncaptured⟩
    · exact ⟨same.trans stored, order, captured⟩
    · exact absurd captured (uncaptured payment stored)

private theorem Balanced.frame (balanced : Balanced db)
    (captures : ∀ id payment, Payment.Captures after id payment ↔ Payment.Captures db id payment)
    (kept : ∀ id old, db.get .order id = some old → ∃ new, after.get .order id = some new ∧ SameTerms old new)
    (orders : ∀ id new, after.get .order id = some new →
      (∃ old, db.get .order id = some old ∧ (new.status = .paid ↔ old.status = .paid)) ∨
        db.get .order id = none ∧ new.status ≠ .paid)
    (payments : ∀ id new, after.get .payment id = some new → ∃ order, db.get .order new.orderId = some order ∧
      new.amountMinor = order.subtotalMinor ∧ new.currency = order.currency) : Balanced after where
  amounts id payment found := by
    obtain ⟨old, ordered, amount, currency⟩ := payments id payment found
    obtain ⟨new, now, terms⟩ := kept _ old ordered
    exact ⟨new, now, amount.trans terms.1.symm, currency.trans terms.2.symm⟩
  paid id order found paid := by
    simp only [captures]
    rcases orders id order found with ⟨old, before, same⟩ | ⟨_, unpaid⟩
    · exact balanced.paid id old before (same.mp paid)
    · exact absurd paid unpaid
  unpaid id order found unpaid payment := by
    rw [captures]
    rcases orders id order found with ⟨old, before, same⟩ | ⟨fresh, _⟩
    · exact balanced.unpaid id old before (fun paid => unpaid (same.mpr paid)) payment
    · intro captured
      obtain ⟨order, ordered, _⟩ := balanced.amounts payment.id payment captured.stored
      rw [captured.order, fresh] at ordered
      cases ordered

private theorem Balanced.ordered (balanced : Balanced db) {order : Order} (old : Order)
    (found : ∀ k, after.get .order k = if order.id = k then some order else db.get .order k)
    (payments : ∀ k, after.get .payment k = db.get .payment k) (unpaid : order.status ≠ .paid)
    (before : db.get .order order.id = none ∨
      db.get .order order.id = some old ∧ old.status ≠ .paid ∧ SameTerms old order) : Balanced after := by
  refine balanced.frame (fun _ _ => captures_iff fun k => .inl (payments k)) (fun id old there => ?_)
    (fun id new now => ?_) fun id new now => balanced.amounts id new (payments id ▸ now)
  · rw [found]
    split
    next same =>
      subst same
      rcases before with absent | ⟨present, _, terms⟩
      · rw [absent] at there
        cases there
      · rw [present] at there
        cases there
        exact ⟨order, rfl, terms⟩
    next => exact ⟨old, there, rfl, rfl⟩
  · rw [found] at now
    split at now
    next same =>
      subst same
      cases now
      rcases before with absent | ⟨present, open_, _⟩
      · exact .inr ⟨absent, unpaid⟩
      · exact .inl ⟨old, present, by simp [unpaid, open_]⟩
    next => exact .inl ⟨new, now, .rfl⟩

private theorem Balanced.uncaptured (balanced : Balanced db) {payment : Payment}
    (orders : ∀ k, after.get .order k = db.get .order k)
    (found : ∀ k, after.get .payment k = if payment.id = k then some payment else db.get .payment k)
    (open_ : payment.status ≠ .captured)
    (before : ∀ old, db.get .payment payment.id = some old → old.status ≠ .captured)
    (amount : ∃ order, db.get .order payment.orderId = some order ∧ payment.amountMinor = order.subtotalMinor ∧
      payment.currency = order.currency) : Balanced after := by
  refine balanced.frame (fun id new => captures_iff fun k => ?_)
    (fun id old there => ⟨old, (orders id).trans there, rfl, rfl⟩) (fun id new now => ?_) fun id new now => ?_
  · rw [found]
    split
    next same =>
      subst same
      refine .inr ⟨fun new now => ?_, before⟩
      cases now
      exact open_
    next => exact .inl rfl
  · exact .inl ⟨new, orders id ▸ now, .rfl⟩
  · rw [found] at now
    split at now
    next => cases now; exact amount
    next => exact balanced.amounts id new now

/-- A captured payment is the only one: its order was pending, so it had none. -/
private theorem Balanced.capture (balanced : Balanced db) (payment : Payment) (order : Order)
    (orders : ∀ k, after.get .order k = if order.id = k then some ((setOrder .paid).apply order) else db.get .order k)
    (payments : ∀ k, after.get .payment k =
      if payment.id = k then some ((setPayment .captured).apply payment) else db.get .payment k)
    (found : db.get .payment payment.id = some payment) (processing : payment.status = .processing)
    (ordered : db.get .order order.id = some order) (same : payment.orderId = order.id)
    (pending : order.status = .pending) : Balanced after := by
  have captures : ∀ id new, Payment.Captures after id new ↔
      (id = order.id ∧ new = (setPayment .captured).apply payment) ∨ Payment.Captures db id new := by
    intro id new
    constructor
    · rintro ⟨stored, of, captured⟩
      rw [payments] at stored
      split at stored
      next =>
        cases stored
        exact .inl ⟨of.symm.trans same, rfl⟩
      next => exact .inr ⟨stored, of, captured⟩
    · rintro (⟨rfl, rfl⟩ | ⟨stored, of, captured⟩)
      · exact ⟨(payments _).trans (if_pos rfl), same, rfl⟩
      · refine ⟨?_, of, captured⟩
        rw [payments, if_neg, stored]
        intro sameId
        rw [← sameId, found] at stored
        cases stored
        simp [processing] at captured
  have unpaid := balanced.unpaid order.id order ordered (by simp [pending])
  refine ⟨fun id new now => ?_, fun id new now paid => ?_, fun id new now open_ => ?_⟩
  · have amounts : ∃ old, db.get .order new.orderId = some old ∧ new.amountMinor = old.subtotalMinor ∧
        new.currency = old.currency := by
      rw [payments] at now
      split at now
      next =>
        cases now
        exact balanced.amounts payment.id payment found
      next => exact balanced.amounts id new now
    obtain ⟨old, there, amount⟩ := amounts
    rw [orders]
    split
    next same =>
      rw [← same, ordered] at there
      cases there
      exact ⟨_, rfl, amount⟩
    next => exact ⟨old, there, amount⟩
  · rw [orders] at now
    split at now
    next sameOrder =>
      subst sameOrder
      refine ⟨(setPayment .captured).apply payment, (captures _ _).mpr (.inl ⟨rfl, rfl⟩), fun other captured => ?_⟩
      rcases (captures _ _).mp captured with ⟨_, rfl⟩ | before
      · rfl
      · exact absurd before (unpaid other)
    next different =>
      obtain ⟨only, captured, unique⟩ := balanced.paid id new now paid
      refine ⟨only, (captures _ _).mpr (.inr captured), fun other now => unique other ?_⟩
      exact ((captures _ _).mp now).resolve_left fun both => different both.1.symm
  · rw [orders] at now
    split at now
    next =>
      cases now
      exact absurd rfl open_
    next different =>
      intro other captured
      rcases (captures _ _).mp captured with ⟨rfl, _⟩ | before
      · exact different rfl
      · exact balanced.unpaid id new now open_ other before

theorem Balanced.effect (balanced : Balanced db) (effect : Effect stamp db writes) : Balanced (db.applyAll writes) := by
  have orders := fun k => Database.get_unwritten (S := commerce) (m := .order) db effect.order.1 (k := k)
  have payments := fun k => Database.get_unwritten (S := commerce) (m := .payment) db effect.payment.1 (k := k)
  cases effect.ledger with
  | still unordered unpaid =>
    refine balanced.frame (fun _ _ => captures_iff fun k => .inl (payments k unpaid))
      (fun id old there => ⟨old, (orders id unordered).trans there, rfl, rfl⟩) (fun id new now => ?_) fun id new now => ?_
    · exact .inl ⟨new, orders id unordered ▸ now, .rfl⟩
    · exact balanced.amounts id new (payments id unpaid ▸ now)
  | placed order ordered unpaid fresh pending =>
    exact balanced.ordered order (Database.get_single (m := Model.order) db effect.order.1 ordered)
      (fun k => payments k unpaid) (by simp [pending]) (.inl fresh)
  | cancelled order now ordered unpaid found pending =>
    exact balanced.ordered order (Database.get_single (m := Model.order) db effect.order.1 ordered)
      (fun k => payments k unpaid) nofun (.inr ⟨found, by simp [pending], rfl, rfl⟩)
  | created payment order unordered paid fresh processing ordered amount =>
    exact balanced.uncaptured (fun k => orders k unordered)
      (Database.get_single (m := Model.payment) db effect.payment.1 paid) (by simp [processing]) (by simp [fresh])
      ⟨order, ordered, amount⟩
  | failed payment unordered paid found processing =>
    exact balanced.uncaptured (fun k => orders k unordered)
      (Database.get_single (m := Model.payment) db effect.payment.1 paid) nofun
      (fun old there => by
        cases found.symm.trans there
        simp [processing])
      (balanced.amounts payment.id payment found)
  | captured payment order ordered paid found processing there same pending =>
    exact balanced.capture payment order (Database.get_single (m := Model.order) db effect.order.1 ordered)
      (Database.get_single (m := Model.payment) db effect.payment.1 paid) found processing there same pending

end Preservation
variable [DecidableEq ι] {sha256 : String → String} {calls : ι → Call} {shop : Shop} {state : SystemState ι}

theorem Shop.balanced {world : SystemWorld ι} (grows : Grows (lawful calls) (shop.start ι) world) :
    Balanced world.database := by
  refine Grows.database Balanced grows ⟨?_, ?_, ?_⟩ fun _ _ _ _ balanced allowed => balanced.effect allowed.effect
  all_goals
    intro id row found
    rw [shop.get_unused rfl] at found
    cases found

inductive OrderStatus.Step : OrderStatus → OrderStatus → Prop where
  | paid : Step .pending .paid
  | cancelled : Step .pending .cancelled

inductive PaymentStatus.Step : PaymentStatus → PaymentStatus → Prop where
  | captured : Step .processing .captured
  | failed : Step .processing .failed

omit [DecidableEq ι] in
theorem own_nil [DecidableEq ι] {world : SystemWorld ι} {i : ι} (own : world.own i = []) {event : Event commerce ι}
    (member : event ∈ world.trace) (author : event.author = some i) : event.writes = [] := by
  simpa [World.own, author] using (List.filter_eq_nil_iff.mp (List.map_eq_nil_iff.mp own)) event member

/-- In every reachable state an order is PAID exactly if it has one captured
payment, payments carry their order's amount, statuses have only moved forward,
and a capture that failed has written nothing. -/
theorem order_payment_agreement (reached : shop.Reaches sha256 calls state) :
    (∀ id order, state.world.database.get .order id = some order →
      (order.status = .paid ↔ ∃! payment, Payment.Captures state.world.database id payment) ∧
        (order.status ≠ .paid → ∀ payment, ¬ Payment.Captures state.world.database id payment)) ∧
    (∀ id payment, state.world.database.get .payment id = some payment →
      ∃ order, state.world.database.get .order payment.orderId = some order ∧
        payment.amountMinor = order.subtotalMinor ∧ payment.currency = order.currency) ∧
    (∀ event ∈ state.world.trace, ∀ id old, event.before.get .order id = some old →
      ∃ new, (event.before.applyAll event.writes).get .order id = some new ∧
        (new.status = old.status ∨ OrderStatus.Step old.status new.status)) ∧
    (∀ event ∈ state.world.trace, ∀ id old, event.before.get .payment id = some old →
      ∃ new, (event.before.applyAll event.writes).get .payment id = some new ∧
        (new.status = old.status ∨ PaymentStatus.Step old.status new.status)) ∧
    ∀ i tenantId paymentId failure, calls i = .capturePayment tenantId paymentId →
      (state.threads i).program = .done (.error failure) →
        ∀ event ∈ state.world.trace, event.author = some i → event.writes = [] := by
  obtain ⟨valid, grows⟩ := reached.valid
  have balanced := Shop.balanced grows
  refine ⟨fun id order found => ⟨⟨balanced.paid id order found, fun captured => ?_⟩, balanced.unpaid id order found⟩,
    balanced.amounts, fun event member id old found => ?_, fun event member id old found => ?_,
    fun i tenantId paymentId failure call ended event member author => ?_⟩
  · by_contra unpaid
    exact balanced.unpaid id order found unpaid _ captured.choose_spec.1
  · obtain ⟨_, origin, _, recorded⟩ := Grows.recorded grows rfl member
    rw [← recorded.database] at found ⊢
    obtain ⟨new, now, same | follows⟩ := keepsOrder.row recorded.lawful found
    · exact ⟨new, now, .inl (same ▸ rfl)⟩
    · refine ⟨new, now, .inr ?_⟩
      cases follows with
      | cancelled now pending => exact pending ▸ .cancelled
      | paid pending => exact pending ▸ .paid
  · obtain ⟨_, origin, _, recorded⟩ := Grows.recorded grows rfl member
    rw [← recorded.database] at found ⊢
    obtain ⟨new, now, same | follows⟩ := keepsPayment.row recorded.lawful found
    · exact ⟨new, now, .inl (same ▸ rfl)⟩
    · refine ⟨new, now, .inr ?_⟩
      cases follows with
      | captured processing => exact processing ▸ .captured
      | failed processing => exact processing ▸ .failed
  · have post := valid.ended ended
    rw [call] at post
    obtain ⟨failed | summary, outcome, same⟩ := post
    · exact own_nil outcome.2.2 member author
    · cases same

/-- Two units are put on stock and sold for cash. -/
def cashSale : Fin 2 → Call
  | 0 => .adjustScoped 0 (.store 4) ⟨1, 10⟩
  | 1 => .createSale 0 7 { sessionId := 6, items := [⟨1, 2⟩] } {}

theorem order_payment_agreement_cash_sale : ∃ state, Shop.demo.Reaches (fun _ => "hash") cashSale state ∧
    ∃! payment, Payment.Captures state.world.database 12 payment := by
  have executed : ((Shop.demo.system (fun _ => "hash") cashSale).run (runs 0 5 ++ runs 1 25)).any (fun state =>
    (state.world.database.get .order 12).map Order.status = some .paid) = true := rfl
  obtain ⟨state, reached, seen⟩ := Shop.Reaches.computed executed rfl
  obtain ⟨order, found, paid⟩ := Option.map_eq_some_iff.mp (of_decide_eq_true seen)
  exact ⟨state, reached, ((order_payment_agreement reached).1 12 order found).1.mp paid⟩

end BusinessPlatform
