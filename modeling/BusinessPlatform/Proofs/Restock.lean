import BusinessPlatform.Proofs.Conservation
import BusinessPlatform.Proofs.SaleHistory

/-! Where the units of a cancelled order go. A cancellation finds the pool of an
order through its point-of-sale row, which is written last. -/

namespace BusinessPlatform
open Engine OrderService

variable {ι : Type}

/-- The event moves these units in the pools of one place, and no others. -/
def Shifts (event : Event commerce ι) (place : Option Id) (units : Id → Int) : Prop :=
  ∀ pool : Pool, stockOf (event.before.applyAll event.writes) pool =
    stockOf event.before pool + if pool.2 = place then units pool.1 else 0

/-- The event has created the order. -/
def Creates (event : Event commerce ι) (orderId : Id) : Prop := orderId ∈ (createdOrders event).map Order.id

/-- The units of a cancelled order go back to the pools from which the order had
been debited when it was created. -/
def ReturnedWhenceTaken (world : SystemWorld ι) (orderId : Id) (cancelled : Event commerce ι) : Prop :=
  ∃ order, cancelled.before.get .order orderId = some order ∧ ∃ placed ∈ world.trace, Creates placed orderId ∧
    ∃ place, Shifts placed place (fun variantId => -orderedOf variantId cancelled.before order) ∧
      Shifts cancelled place fun variantId => orderedOf variantId cancelled.before order

/-- No store pool has been debited for the order. -/
def FromGlobal (world : SystemWorld ι) (orderId : Id) : Prop :=
  ∀ placed ∈ world.trace, Creates placed orderId →
    ∀ row ∈ putsOf (S := commerce) .inventory placed.writes, row.storeId = none

def HasSale (db : Db) (orderId : Id) : Prop := ∃ sale ∈ (db.table .posSale).rows, sale.orderId = orderId

/-- Whenever a call cancels an order of a store pool, the sale had been recorded
when the call looked for it. -/
def CancelsRecorded (calls : ι → Call) (state : SystemState ι) (event : Event commerce ι) : Prop :=
  match event.author.map calls with
  | some (.cancelOrder _ orderId) => FromGlobal state.world orderId ∨
      ∀ lookup ∈ state.world.trace, lookup.author = event.author → lookup.access = some (.posSale, .find) →
        HasSale lookup.before orderId
  | _ => True

section Decide
variable [DecidableEq ι] (calls : ι → Call) (state : SystemState ι) (event : Event commerce ι)

instance (orderId : Id) : Decidable (Creates event orderId) := inferInstanceAs (Decidable (_ ∈ _))

instance (orderId : Id) : Decidable (FromGlobal state.world orderId) :=
  inferInstanceAs (Decidable (∀ placed ∈ state.world.trace, _))

instance (db : Db) (orderId : Id) : Decidable (HasSale db orderId) :=
  inferInstanceAs (Decidable (∃ sale ∈ (db.table .posSale).rows, _))

instance : Decidable (CancelsRecorded calls state event) := by
  unfold CancelsRecorded
  split <;> infer_instance

end Decide

variable [DecidableEq ι] {calls : ι → Call} {shop : Shop} {world : SystemWorld ι}

theorem PlacedBy.units {event : Event commerce ι} {origin : SystemWorld ι} {placement : Placement}
    (history : PlacedBy calls shop world event origin placement) {order : Order}
    (found : world.database.get .order placement.order.id = some order) (variantId : Id) :
    orderedOf variantId world.database order = amountOf variantId placement.entries := by
  obtain ⟨current, now, same⟩ := history.order
  obtain rfl : current = order := Option.some.inj (now.symm.trans found)
  have tenant : current.tenantId = placement.order.tenantId := by rw [same]
  have key : current.id = placement.order.id := by rw [same]
  rw [orderedOf, tenant, key, amountOf_perm (history.items.map _), Placement.entries, List.map_map]
  refine congrArg (amountOf variantId) (List.map_congr_left fun line member => ?_)
  have matched := history.placed.lines line member
  exact Prod.ext matched.variant matched.quantity

/-- The sale that a cancellation finds names the pool of the order. -/
private theorem LookedUp.pool {i : ι} {tenantId : Id} {place : Option Id} {event : Event commerce ι}
    {origin : SystemWorld ι} {placement : Placement} (grows : Grows (lawful calls) (shop.start ι) world)
    (lookup : LookedUp i tenantId placement.order.id world place)
    (history : PlacedBy calls shop world event origin placement) (tenant : placement.order.tenantId = tenantId)
    (recorded : FromGlobal world placement.order.id ∨ ∀ lookup ∈ world.trace, lookup.author = some i →
      lookup.access = some (.posSale, .find) → HasSale lookup.before placement.order.id) :
    place = placement.pool := by
  obtain ⟨looked, member, author, access, sales, _, listed, rfl⟩ := lookup
  obtain ⟨_, middle, _, earlier⟩ := Grows.recorded grows rfl member
  have sold : ∀ sale ∈ (looked.before.table .posSale).rows, sale.orderId = placement.order.id →
      placement.order.tenantId = sale.tenantId ∧ placement.pool = some sale.storeId := by
    intro sale inside ordered
    have found : middle.database.get .posSale sale.id = some sale := by
      rw [earlier.database]
      exact Table.find_eq_some.mpr ⟨inside, rfl⟩
    obtain ⟨other, first, second, again, same, tenant, pool⟩ := Shop.sale_placed earlier.before found
    have again := again.grows earlier.grows
    have order : second.order.id = placement.order.id := same.trans ordered
    refine ⟨?_, (history.pool again order.symm).trans pool⟩
    have orders := history.created.symm.trans ((history.unique again order.symm) ▸ again.created)
    simp only [List.cons.injEq, and_true] at orders
    rw [orders, tenant]
  cases head : sales.head? with
  | some sale =>
    obtain ⟨inside, matched⟩ := listed_head listed head
    simp only [Bool.and_eq_true, decide_eq_true_eq] at matched
    exact (sold sale inside matched.1).2.symm
  | none =>
    rcases recorded with fromGlobal | found
    · refine (history.placed.debits_iff.mp fun row stored => ?_).symm
      refine fromGlobal event history.member ?_ row (history.written ▸ stored)
      simp [Creates, history.created]
    · obtain ⟨sale, inside, ordered⟩ := found looked member author access
      have unlisted := listed_none listed head sale inside
      rw [ordered, ← tenant, (sold sale inside ordered).1] at unlisted
      simp at unlisted

private theorem Cancelled.returned {i : ι} {tenantId orderId : Id} {cancellation : Cancellation} {label : Label commerce ι}
    (grows : Grows (lawful calls) (shop.start ι) world) (cancelled : Cancelled i tenantId orderId world cancellation)
    (recorded : FromGlobal world orderId ∨ ∀ lookup ∈ world.trace, lookup.author = some i →
      lookup.access = some (.posSale, .find) → HasSale lookup.before orderId) :
    ReturnedWhenceTaken world orderId ⟨label, world.database, cancellation.writes⟩ := by
  obtain ⟨event, origin, placement, history, rfl⟩ := Shop.placed grows cancelled.found
  obtain ⟨current, now, same⟩ := history.order
  obtain rfl : current = cancellation.order := Option.some.inj (now.symm.trans cancelled.found)
  have tenant : placement.order.tenantId = tenantId := by rw [← cancelled.tenant, same]
  have pool := cancelled.lookup.pool grows history tenant recorded
  refine ⟨_, cancelled.found, event, history.member, by simp [Creates, history.created], placement.pool, ?_, ?_⟩
  · intro pool
    have taken := stockOf_placed history.placed pool
    rw [← history.units cancelled.found, history.recorded.database, ← history.written] at taken
    refine taken.trans ?_
    dsimp only
    split <;> omega
  · intro other
    rw [stockOf_cancelled cancelled.toRestocked, ← cancelled.toRestocked.units, pool]

variable {sha256 : String → String} {state : SystemState ι}

/-- Every cancellation so far has returned its units. -/
def AllReturned (calls : ι → Call) (world : SystemWorld ι) : Prop :=
  ∀ event ∈ world.trace, ∀ i tenantId orderId, event.author = some i → calls i = .cancelOrder tenantId orderId →
    event.writes ≠ [] → ReturnedWhenceTaken world orderId event

omit [DecidableEq ι] in
private theorem ReturnedWhenceTaken.grows {orderId : Id} {event : Event commerce ι} {after : SystemWorld ι}
    (returned : ReturnedWhenceTaken world orderId event) (later : ∀ event ∈ world.trace, event ∈ after.trace) :
    ReturnedWhenceTaken after orderId event := by
  obtain ⟨order, found, placed, member, moved⟩ := returned
  exact ⟨order, found, placed, later placed member, moved⟩

/-- When cancellations find the sales of the orders that they cancel, every
successful `cancelOrder` returns the units to the pools that they were taken from. -/
theorem cancelled_order_returned
    (reached : State.Reaches (fun state action => Environment state action ∧ state.Records (CancelsRecorded calls) action)
      (shop.system sha256 calls) state) :
    (∀ i tenantId orderId response, calls i = .cancelOrder tenantId orderId →
      (state.threads i).program = .done (.ok response) → ∃ event ∈ state.world.trace,
        event.author = some i ∧ event.writes ≠ []) ∧
    AllReturned calls state.world := by
  constructor
  · intro i tenantId orderId response call ended
    have post := (Shop.Reaches.valid (reached.weaken fun _ _ => And.left)).1.ended ended
    rw [call] at post
    obtain ⟨failure | summary, outcome, same⟩ := post
    · cases same
    · obtain ⟨cancellation, own, _⟩ := outcome.2
      replace own : state.world.own i = [] ++ cancellation.writes :: [] := own
      obtain ⟨event, _, suffix, author, written, _⟩ := World.own_event own
      exact ⟨event, suffix.subset (List.mem_cons_self ..), author, by simp [written, Cancellation.writes]⟩
  · refine Shop.recording (fun state => AllReturned calls state.world) reached (fun _ member => by cases member) ?_ ?_
    · intro state next returned _ still event member i tenantId orderId author call written
      obtain ⟨news, same, unwritten⟩ := still.trace
      rw [same, List.mem_append] at member
      rcases member with new | old
      · exact absurd (unwritten event new) written
      · refine (returned event old i tenantId orderId author call written).grows fun event member => ?_
        rw [same]
        exact List.mem_append_right _ member
    · intro state next label writes grown returned _ moved _ allowed good event member i tenantId orderId author call written
      have later : ∀ event ∈ state.world.trace, event ∈ next.world.trace := fun event member => by
        rw [moved]
        exact List.mem_cons_of_mem _ member
      rw [moved, World.record_trace, List.mem_cons] at member
      rcases member with rfl | old
      · replace author : label.author = some i := author
        rw [author] at allowed
        simp only [lawful, call, Call.Commits] at allowed
        obtain ⟨_, cancellation, cancelled, rfl⟩ := allowed
        simp only [CancelsRecorded, author, Option.map_some, call] at good
        exact (cancelled.returned grown good).grows later
      · exact (returned event old i tenantId orderId author call written).grows later

/-- Two units of a store are sold by card or for cash, and the order is cancelled. -/
def cancelledSale (method : String) : Fin 3 → Call
  | 0 => .adjustScoped 0 (.store 4) ⟨1, 10⟩
  | 1 => .createSale 0 7 { sessionId := 6, items := [⟨1, 2⟩], method := some method } {}
  | 2 => .cancelOrder 0 12

private theorem cancelledSale_returns {state : SystemState (Fin 3)} {method : String}
    (seen : (state.world.trace.any fun event => event.author = some 2 && !event.writes.isEmpty) = true)
    (returned : AllReturned (cancelledSale method) state.world) :
    ∃ event ∈ state.world.trace, event.author = some 2 ∧ ReturnedWhenceTaken state.world 12 event := by
  obtain ⟨event, member, seen⟩ := List.any_eq_true.mp seen
  simp only [Bool.and_eq_true, decide_eq_true_eq, Bool.not_eq_true', List.isEmpty_eq_false_iff] at seen
  exact ⟨event, member, seen.1, returned event member 2 0 12 seen.1 rfl seen.2⟩

/-- The order of a card sale is cancelled after the sale has been recorded. -/
theorem cancelled_order_returned_card_sale : ∃ state : SystemState (Fin 3), ∃ event ∈ state.world.trace,
    event.author = some 2 ∧ ReturnedWhenceTaken state.world 12 event := by
  have executed : ((Shop.demo.system (fun _ => "hash") (cancelledSale "CARD")).runWhile
    (fun state event => CancelsRecorded (cancelledSale "CARD") state event) (runs 0 5 ++ runs 1 17 ++ runs 2 11)).any
      (fun state => state.world.trace.any fun event => event.author = some 2 && !event.writes.isEmpty) = true := by
    decide +kernel
  obtain ⟨state, reached, seen⟩ := Shop.Reaches.checked executed rfl
  exact ⟨state, cancelledSale_returns seen (cancelled_order_returned reached).2⟩

omit [DecidableEq ι] in
/-- Units that a pool lost and did not get back have not been returned. -/
private theorem not_returned {orderId : Id} {event : Event commerce ι} (pool : Pool)
    (taken : ∀ placed ∈ world.trace, Creates placed orderId →
      stockOf (placed.before.applyAll placed.writes) pool ≠ stockOf placed.before pool)
    (kept : stockOf (event.before.applyAll event.writes) pool = stockOf event.before pool) :
    ¬ ReturnedWhenceTaken world orderId event := by
  rintro ⟨order, _, placed, member, creates, place, down, up⟩
  have down := down pool
  have up := up pool
  have moved := taken placed member creates
  split at up
  next same =>
    rw [if_pos same] at down
    dsimp only at down up
    omega
  next apart =>
    rw [if_neg apart] at down
    omega

/-- The sale stops after its order has been committed. The cancellation then
returns the store's units to the global pool. -/
theorem cancelled_order_misdirected : ∃ state, Shop.demo.Reaches (fun _ => "hash") (cancelledSale "CASH") state ∧
    ∃ event ∈ state.world.trace, event.author = some 2 ∧ event.writes ≠ [] ∧
      ¬ ReturnedWhenceTaken state.world 12 event := by
  have executed : ((Shop.demo.system (fun _ => "hash") (cancelledSale "CASH")).run
    (runs 0 5 ++ runs 1 11 ++ [.stop 1] ++ runs 2 11)).any (fun state =>
      (state.world.trace.all fun placed => !decide (Creates placed 12) ||
        stockOf (placed.before.applyAll placed.writes) (1, some 4) ≠ stockOf placed.before (1, some 4)) &&
      state.world.trace.any fun event => event.author = some 2 && !event.writes.isEmpty &&
        stockOf (event.before.applyAll event.writes) (1, some 4) = stockOf event.before (1, some 4)) = true := by
    decide +kernel
  obtain ⟨state, reached, seen⟩ := Shop.Reaches.computed executed rfl
  obtain ⟨taken, seen⟩ := (Bool.and_eq_true _ _).mp seen
  obtain ⟨event, member, seen⟩ := List.any_eq_true.mp seen
  simp only [Bool.and_eq_true, decide_eq_true_eq, Bool.not_eq_true', List.isEmpty_eq_false_iff] at seen
  refine ⟨state, reached, event, member, seen.1.1, seen.1.2, not_returned (1, some 4) (fun placed inside creates => ?_) seen.2⟩
  have moved := List.all_eq_true.mp taken placed inside
  simpa [creates] using moved

end BusinessPlatform
