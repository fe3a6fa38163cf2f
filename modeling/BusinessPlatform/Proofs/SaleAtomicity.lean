import BusinessPlatform.Proofs.Restock

/-! What a failed sale leaves behind. A sale commits its order first and nothing
undoes it, so a sale is undone exactly if it failed before that commit. -/

namespace BusinessPlatform
open Engine OrderService PosSaleService

variable {ι : Type} [DecidableEq ι]

/-- The orders that a call has created. -/
def ordersBy (i : ι) (world : SystemWorld ι) : List Id :=
  (world.trace.filter fun event => event.author = some i).flatMap fun event => (createdOrders event).map Order.id

/-- The event belongs to the call, or cancels one of its orders. -/
def Concerns (calls : ι → Call) (i : ι) (world : SystemWorld ι) (event : Event commerce ι) : Bool :=
  event.author = some i || (ordersBy i world).any fun orderId => cancels calls orderId event

def stockChange (pool : Pool) (event : Event commerce ι) : Int :=
  stockOf (event.before.applyAll event.writes) pool - stockOf event.before pool

/-- What a call and the cancellations of its orders have changed in a pool. -/
def netChange (calls : ι → Call) (i : ι) (world : SystemWorld ι) (pool : Pool) : Int :=
  (world.trace.map fun event => if Concerns calls i world event then stockChange pool event else 0).sum

/-- No order, payment or sale of the call is active, and all pools hold what
they would hold without it. -/
structure Undone (calls : ι → Call) (i : ι) (world : SystemWorld ι) : Prop where
  orders : ∀ orderId ∈ ordersBy i world, isCancelled world.database orderId = true
  payments : ∀ orderId ∈ ordersBy i world, ∀ payment ∈ (world.database.table .payment).rows,
    payment.orderId = orderId → payment.status = .failed
  sales : ∀ orderId ∈ ordersBy i world, ¬ HasSale world.database orderId
  pools : ∀ pool, netChange calls i world pool = 0

variable {calls : ι → Call} {shop : Shop} {world : SystemWorld ι} {i : ι}

omit [DecidableEq ι] in
theorem stockChange_empty {event : Event commerce ι} (empty : event.writes = []) (pool : Pool) :
    stockChange pool event = 0 := by
  rw [stockChange, empty, Database.applyAll_nil, sub_self]

omit [DecidableEq ι] in
private theorem SaleStep.stockChange {tenantId userId : Id} {dto : CreatePosSaleDto} {history : List Writes}
    {writes : Writes} {label : Label commerce ι} (step : SaleStep i tenantId userId dto world history writes) (pool : Pool) :
    stockChange pool ⟨label, world.database, writes⟩ ≤ 0 := by
  have still (effect : Effect world.trace.length world.database writes)
      (stock : putsOf (S := commerce) .inventory writes = []) :
      BusinessPlatform.stockChange pool ⟨label, world.database, writes⟩ ≤ 0 := by
    rw [BusinessPlatform.stockChange, stockOf_still effect.inventory.1 stock, sub_self]
  have effect := step.effect
  cases step with
  | order placement session ordered =>
    have entries : ∀ entry ∈ placement.entries, 0 ≤ entry.2 := by
      intro entry member
      obtain ⟨line, inside, rfl⟩ := List.mem_map.mp member
      exact (ordered.lines line inside).positive.le
    have taken : 0 ≤ amountOf pool.1 placement.entries := by
      refine List.sum_nonneg fun amount member => ?_
      obtain ⟨entry, inside, rfl⟩ := List.mem_map.mp member
      split
      · exact entries entry inside
      · exact le_refl 0
    rw [BusinessPlatform.stockChange, stockOf_placed ordered.toPlaced]
    dsimp only
    split <;> omega
  | payment placement payment created => exact still effect (by simp)
  | capture placement payment captured => exact still effect (by cases captured; simp)
  | sale placement payment captures sale once fresh order paid store tenant => exact still effect (by simp)

private theorem sale_takes {tenantId userId : Id} {dto : CreatePosSaleDto} {options : CreateSaleOptions}
    (grows : Grows (lawful calls) (shop.start ι) world) (call : calls i = .createSale tenantId userId dto options)
    {event : Event commerce ι} (member : event ∈ world.trace) (author : event.author = some i) (pool : Pool) :
    stockChange pool event ≤ 0 := by
  obtain ⟨_, origin, _, recorded⟩ := Grows.recorded grows rfl member
  rcases recorded.lawful with empty | allowed
  · rw [stockChange_empty empty]
  · simp only [author, lawful, call, Call.Commits] at allowed
    have taken : stockChange pool ⟨event.toLabel, origin.database, event.writes⟩ ≤ 0 :=
      SaleStep.stockChange allowed pool
    rwa [recorded.database] at taken

/-- Without its sale's row a cancelled order goes to the global pool. -/
private theorem cancels_elsewhere (grows : Grows (lawful calls) (shop.start ι) world) {orderId : Id}
    (unsold : ¬ HasSale world.database orderId) {event : Event commerce ι} (member : event ∈ world.trace)
    (cancelled : cancels calls orderId event = true) (variantId storeId : Id) :
    stockChange (variantId, some storeId) event = 0 := by
  obtain ⟨_, origin, _, recorded⟩ := Grows.recorded grows rfl member
  rcases recorded.lawful with empty | allowed
  · exact stockChange_empty empty _
  unfold cancels at cancelled
  cases author : event.author with
  | none => simp [author] at cancelled
  | some j =>
    rw [author] at allowed cancelled
    simp only [Option.map_some] at cancelled
    split at cancelled
    next same =>
      simp only [Option.some.injEq] at same
      simp only [lawful, same, Call.Commits] at allowed
      obtain ⟨_, cancellation, cancelled', written⟩ := allowed
      simp only [Bool.and_eq_true, decide_eq_true_eq] at cancelled
      obtain ⟨rfl, _⟩ := cancelled
      obtain ⟨looked, inside, _, _, sales, _, listed, place⟩ := cancelled'.lookup
      obtain ⟨_, middle, _, earlier⟩ := Grows.recorded recorded.before rfl inside
      have global : cancellation.pool = none := by
        cases head : sales.head? with
        | none => rw [place, head, Option.map_none]
        | some sale =>
          obtain ⟨there, matched⟩ := listed_head listed head
          simp only [Bool.and_eq_true, decide_eq_true_eq] at matched
          have found : middle.database.get .posSale sale.id = some sale := by
            rw [earlier.database]
            exact Table.find_eq_some.mpr ⟨there, rfl⟩
          have kept := Grows.final keepsSale (earlier.grows.trans recorded.grows) found fun _ => not_false
          exact (unsold ⟨sale, (Table.find_eq_some.mp kept).1, matched.1⟩).elim
      rw [stockChange, written, ← recorded.database, stockOf_cancelled cancelled'.toRestocked, global,
        if_neg (by simp), add_zero, sub_self]
    next => cases cancelled

variable {sha256 : String → String} {state : SystemState ι}

/-- The first commit of a failed sale that has committed anything is its order. -/
private theorem Unfinished.placed {tenantId userId : Id} {dto : CreatePosSaleDto} {options : CreateSaleOptions}
    (grows : Grows (lawful calls) (shop.start ι) world) (call : calls i = .createSale tenantId userId dto options)
    (unfinished : Unfinished (world.own i)) (committed : world.own i ≠ []) :
    ∃ event origin placement storeId, PlacedBy calls shop world event origin placement ∧ event.author = some i ∧
      placement.pool = some storeId := by
  have first : ∃ later placement, world.own i = later ++ [Placement.writes placement] := by
    generalize world.own i = history at unfinished committed
    cases unfinished with
    | nothing => exact absurd rfl committed
    | ordered placement => exact ⟨[], placement, rfl⟩
    | paid placement payment captures once => exact ⟨captures ++ [[.put .payment payment]], placement, by simp⟩
  obtain ⟨later, placement, own⟩ := first
  obtain ⟨placing, rest, origin, inside, recorded, author, written, none⟩ :=
    Grows.own_recorded grows rfl own
  have allowed : lawful calls (some i) origin placing.writes :=
    (author ▸ recorded.lawful).resolve_left fun empty => by
      have order : placement.order ∈ putsOf (S := commerce) .order placing.writes := by simp [written]
      simp [empty] at order
  have preceding : (calls i).Preceding (origin.own i) := by
    rw [call]
    exact none
  obtain ⟨original, storeId, placed, same, _, pool, _⟩ := allowed.saleOrdered preceding written
  exact ⟨placing, origin, original, storeId,
    ⟨recorded.trace.symm ▸ inside, recorded.trace.symm ▸ recorded, placed, same⟩, author, pool⟩

theorem mem_ordersBy {event : Event commerce ι} {order : Order} (member : event ∈ world.trace)
    (author : event.author = some i) (created : order ∈ createdOrders event) : order.id ∈ ordersBy i world :=
  List.mem_flatMap.mpr ⟨event, List.mem_filter.mpr ⟨member, by simp [author]⟩, List.mem_map_of_mem created⟩

private theorem ordersBy_nil (own : world.own i = []) : ordersBy i world = [] := by
  refine List.flatMap_eq_nil_iff.mpr fun event member => ?_
  obtain ⟨inside, author⟩ := List.mem_filter.mp member
  have empty : event.writes = [] := by
    by_contra written
    have counted := World.mem_own inside (of_decide_eq_true author) written
    rw [own] at counted
    cases counted
  simp [createdOrders, empty]

/-- A sale that has failed is undone if and only if it has not created its order. -/
theorem failed_sale_undone (reached : shop.Reaches sha256 calls state) {tenantId userId : Id} {dto : CreatePosSaleDto}
    {options : CreateSaleOptions} (call : calls i = .createSale tenantId userId dto options)
    (ended : state.failed i) : Undone calls i state.world ↔ ordersBy i state.world = [] := by
  obtain ⟨valid, grows⟩ := reached.valid
  obtain ⟨failure, ended⟩ := ended
  have unfinished : Unfinished (state.world.own i) := by
    have post := valid.ended ended
    rw [call] at post
    obtain ⟨failed | summary, outcome, same⟩ := post
    · obtain ⟨steps, own, unfinished⟩ := outcome.2.2
      rwa [own, List.append_nil]
    · cases same
  by_cases committed : state.world.own i = []
  · have none := ordersBy_nil committed
    refine iff_of_true ⟨by simp [none], by simp [none], by simp [none], fun pool => ?_⟩ none
    refine List.sum_eq_zero fun change member => ?_
    obtain ⟨event, inside, rfl⟩ := List.mem_map.mp member
    split
    next concerned =>
      simp only [Concerns, none, List.any_nil, Bool.or_false, decide_eq_true_eq] at concerned
      refine stockChange_empty (by_contra fun written => ?_) pool
      have counted := World.mem_own inside concerned written
      rw [committed] at counted
      cases counted
    next => rfl
  · obtain ⟨placing, origin, placement, storeId, history, author, pool⟩ := unfinished.placed grows call committed
    have ordered : placement.order.id ∈ ordersBy i state.world :=
      mem_ordersBy history.member author (by simp [history.created])
    refine iff_of_false (fun undone => ?_) (fun none => by simp [none] at ordered)
    obtain ⟨line, first⟩ := List.exists_mem_of_ne_nil _ history.placed.nonempty
    have taken : stockChange (line.variantId, some storeId) placing < 0 := by
      have amount : amountOf line.variantId placement.entries = line.quantity := by
        change amountOf line.entry.1 placement.entries = line.entry.2
        refine amountOf_mem ?_ (List.mem_map_of_mem first)
        rw [Placement.entries, List.map_map]
        exact history.placed.distinct
      have positive := (history.placed.lines line first).positive
      rw [stockChange, history.written, ← history.recorded.database, stockOf_placed history.placed, pool, if_pos rfl, amount]
      omega
    have total : netChange calls i state.world (line.variantId, some storeId) < 0 := by
      refine (List.sum_lt_sum _ (fun _ => 0) (fun event member => ?_) ⟨placing, history.member, ?_⟩).trans_eq (by simp)
      · split
        next concerned =>
          rcases Bool.or_eq_true_iff.mp concerned with own | cancelled
          · exact sale_takes grows call member (of_decide_eq_true own) _
          · obtain ⟨orderId, mine, cancelled⟩ := List.any_eq_true.mp cancelled
            exact (cancels_elsewhere grows (undone.sales orderId mine) member cancelled _ _).le
        next => exact le_refl 0
      · rw [if_pos (by simp [Concerns, author])]
        exact taken
    exact absurd (undone.pools _) total.ne

/-- A sale without stock fails and leaves nothing. -/
theorem failed_sale_undone_out_of_stock : ∃ state : SystemState (Fin 3), state.failed 1 ∧
    Undone (cancelledSale "CASH") 1 state.world := by
  have executed : ((Shop.demo.system (fun _ => "hash") (cancelledSale "CASH")).run (runs 1 8)).any (fun state =>
    state.failed 1 && ordersBy 1 state.world = []) = true := by decide +kernel
  obtain ⟨state, reached, seen⟩ := Shop.Reaches.computed executed rfl
  simp only [Bool.and_eq_true, decide_eq_true_eq] at seen
  exact ⟨state, seen.1, (failed_sale_undone reached rfl seen.1).mpr seen.2⟩

/-- A sale whose payment cannot be inserted leaves its pending order. -/
theorem failed_sale_leaves_order : ∃ state, Shop.demo.Reaches (fun _ => "hash") (cancelledSale "CASH") state ∧
    state.failed 1 ∧ ¬ Undone (cancelledSale "CASH") 1 state.world := by
  have executed : ((Shop.demo.system (fun _ => "hash") (cancelledSale "CASH")).run
    (runs 0 5 ++ runs 1 14 ++ [.fail 1] ++ runs 1 1)).any (fun state =>
      state.failed 1 && 12 ∈ ordersBy 1 state.world && !isCancelled state.world.database 12) = true := by decide +kernel
  obtain ⟨state, reached, seen⟩ := Shop.Reaches.computed executed rfl
  simp only [Bool.and_eq_true, decide_eq_true_eq, Bool.not_eq_true'] at seen
  refine ⟨state, reached, seen.1.1, fun undone => ?_⟩
  rw [undone.orders 12 seen.1.2] at seen
  cases seen.2

end BusinessPlatform
