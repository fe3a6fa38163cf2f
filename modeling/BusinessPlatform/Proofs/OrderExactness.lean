import BusinessPlatform.Proofs.OrderLines
import BusinessPlatform.Engine.Sequential
import BusinessPlatform.Engine.Indexes

/-! `createOrder` alone, on rows of any origin: everything that was requested, at the
listed prices, or nothing. What an order has billed stays as it is. -/

namespace BusinessPlatform
open Engine OrderService

/-- Where the lines of an order come from: the request, or the cart that the call converts. -/
inductive Requested (tenantId : Id) (dto : CreateOrderDto) (before after : Db) : List OrderItemInputDto → Prop where
  | items {lines : List OrderItemInputDto} (given : dto.items = some lines) : Requested tenantId dto before after lines
  | cart {cart : Cart} {rows : List CartItem} (given : dto.items.getD [] = []) (found : before.get .cart cart.id = some cart)
      (converted : after.get .cart cart.id = some (convert.apply cart))
      (read : rows.Perm ((before.table .cartItem).rows.filter fun row => row.cartId = cart.id && row.tenantId = tenantId)) :
      Requested tenantId dto before after (rows.map cartInput)

def amounts (lines : List OrderItemInputDto) : List (Id × Int) := lines.map fun item => (item.variantId, item.quantity)

/-- The equations between an order, its items and the requested lines. -/
structure Billed (db : Db) (order : Order) (lines : List OrderItemInputDto) : Prop where
  stored : db.get .order order.id = some order
  variants : ∀ variantId, variantId ∈ (itemsOf db order.tenantId order.id).map OrderItem.variantId ↔
    variantId ∈ lines.map OrderItemInputDto.variantId
  distinct : ((itemsOf db order.tenantId order.id).map OrderItem.variantId).Nodup
  quantities : ∀ item ∈ itemsOf db order.tenantId order.id, item.quantity = amountOf item.variantId (amounts lines)
  totals : ∀ item ∈ itemsOf db order.tenantId order.id, item.lineTotalMinor = item.quantity * item.unitAmountMinor
  subtotal : order.subtotalMinor = ((itemsOf db order.tenantId order.id).map OrderItem.lineTotalMinor).sum
  currency : ∀ item ∈ itemsOf db order.tenantId order.id, item.currency = order.currency

/-- The effect of an order on the rows: its items are charged at listed prices, and the
chosen pools go down by the requested quantities. -/
structure Charged (before after : Db) (options : CreateOrderOptions) (lines : List OrderItemInputDto) (order : Order) : Prop
    extends Billed after order lines where
  new : before.get .order order.id = none
  priced : ∀ item ∈ itemsOf after order.tenantId order.id, ∃ price ∈ (before.table .price).rows,
    price.tenantId = order.tenantId ∧ price.variantId = item.variantId ∧ price.currency = order.currency ∧
      price.amountMinor = item.unitAmountMinor
  stocked : ∀ line ∈ lines, (before.get .inventory (line.variantId, options.inventoryScope.storeId)).isSome = true
  stock : ∀ variantId storeId, after.get .inventory (variantId, storeId) = (before.get .inventory (variantId, storeId)).map
    (decrement (if storeId = options.inventoryScope.storeId then amountOf variantId (amounts lines) else 0)).apply

variable {ι : Type} {i : ι} {tenantId userId : Id} {dto : CreateOrderDto} {options : CreateOrderOptions} {world : SystemWorld ι}
  {placement : Placement} {lines : List OrderItemInputDto}

theorem amountOf_amounts (variantId : Id) (lines : List OrderItemInputDto) :
    amountOf variantId (aggregateItems lines) = amountOf variantId (amounts lines) := Tally.amountOf_collect ..

private theorem mem_variants (entries : aggregateItems lines = placement.lines.map fun line => line.entry) (variantId : Id) :
    variantId ∈ (placement.lines.map fun line => line.variantId) ↔ variantId ∈ lines.map OrderItemInputDto.variantId := by
  have keys : (placement.lines.map fun line => line.variantId) = (aggregateItems lines).map Prod.fst := by
    rw [entries, List.map_map]
    rfl
  have given : (amounts lines).map Prod.fst = lines.map OrderItemInputDto.variantId := List.map_map
  rw [keys, ← given]
  exact Tally.mem_keys_collect

private theorem line_amount {db : Db} (placed : Placed db placement)
    (entries : aggregateItems lines = placement.lines.map fun line => line.entry) {line : PlacedLine}
    (member : line ∈ placement.lines) : line.quantity = amountOf line.variantId (amounts lines) := by
  have distinct : ((placement.lines.map fun line => line.entry).map Prod.fst).Nodup := by
    rw [List.map_map]
    exact placed.distinct
  rw [← amountOf_amounts, entries]
  exact (amountOf_mem distinct (List.mem_map_of_mem (f := fun line : PlacedLine => line.entry) member)).symm

theorem Placed.billed {db : Db} (placed : Placed db placement)
    (unordered : itemsOf db placement.order.tenantId placement.order.id = [])
    (entries : aggregateItems lines = placement.lines.map fun line => line.entry) :
    Billed (db.applyAll placement.writes) placement.order lines := by
  have items := itemsOf_placed placed unordered
  have variants : (placement.lines.map PlacedLine.item).map OrderItem.variantId =
      placement.lines.map fun line => line.variantId := by
    rw [List.map_map]
    exact List.map_congr_left fun line member => (placed.lines line member).variant
  have item {item : OrderItem} (member : item ∈ itemsOf (db.applyAll placement.writes) placement.order.tenantId placement.order.id) :
      ∃ line ∈ placement.lines, line.item = item := List.mem_map.mp (items.mem_iff.mp member)
  refine ⟨?_, fun variantId => ?_, ?_, fun _ member => ?_, fun _ member => ?_, ?_, fun _ member => ?_⟩
  · exact Database.get_stored (S := commerce) (m := .order) _ (by simp) (by simp) (by simp)
  · rw [(items.map _).mem_iff, variants, mem_variants entries]
  · rw [(items.map _).nodup_iff, variants]
    exact placed.distinct
  · obtain ⟨line, inside, rfl⟩ := item member
    rw [(placed.lines line inside).quantity, (placed.lines line inside).variant]
    exact line_amount placed entries inside
  · obtain ⟨line, inside, rfl⟩ := item member
    rw [(placed.lines line inside).total, (placed.lines line inside).quantity, Int.mul_comm]
  · rw [(items.map _).sum_eq, placed.subtotal, List.map_map]
    rfl
  · obtain ⟨line, inside, rfl⟩ := item member
    exact (placed.lines line inside).currency

private theorem decrement_zero (found : Option Inventory) : found.map (decrement 0).apply = found := by
  cases found with
  | none => rfl
  | some row => simp [decrement]

theorem Placed.stock {db : Db} (placed : Placed db placement)
    (entries : aggregateItems lines = placement.lines.map fun line => line.entry) (variantId : Id) (storeId : Option Id) :
    (db.applyAll placement.writes).get .inventory (variantId, storeId) = (db.get .inventory (variantId, storeId)).map
      (decrement (if storeId = placement.pool then amountOf variantId (amounts lines) else 0)).apply := by
  have pools : ∀ line ∈ placement.lines, line.debited.pool = (line.variantId, placement.pool) := fun line member =>
    (Table.find_eq_some.mp (placed.debits line member).stocked).2
  have keys : (putsOf (S := commerce) .inventory placement.writes).map Inventory.pool =
      (placement.lines.map fun line => line.variantId).map fun variantId => (variantId, placement.pool) := by
    rw [Placement.writes_inventory, List.map_map, List.map_map]
    exact List.map_congr_left pools
  by_cases inside : (variantId, storeId) ∈ (putsOf (S := commerce) .inventory placement.writes).map Inventory.pool
  · rw [keys, List.mem_map] at inside
    obtain ⟨_, listed, same⟩ := inside
    obtain ⟨line, member, rfl⟩ := List.mem_map.mp listed
    cases same
    have distinct : ((putsOf (S := commerce) .inventory placement.writes).map Inventory.pool).Nodup := by
      rw [keys]
      exact placed.distinct.map fun _ _ same => (Prod.mk.inj same).1
    have put : line.debited ∈ putsOf (S := commerce) .inventory placement.writes := by
      rw [Placement.writes_inventory]
      exact List.mem_map_of_mem member
    have stored := Database.get_stored (S := commerce) (m := .inventory) db (Placement.writes_erases ..) distinct put
    rw [if_pos rfl, ← line_amount placed entries member, (placed.debits line member).stocked]
    exact (pools line member) ▸ stored
  · rw [Database.get_untouched (S := commerce) (m := .inventory) _ (Placement.writes_erases ..) inside]
    have nothing : (if storeId = placement.pool then amountOf variantId (amounts lines) else 0) = 0 := by
      split
      next same =>
        refine amountOf_absent fun asked => inside ?_
        rw [keys, same]
        exact List.mem_map_of_mem ((mem_variants entries variantId).mpr (by simpa [amounts] using asked))
      next => rfl
    rw [nothing, decrement_zero]

/-- What an order has billed stays, whatever is called or edited later. -/
theorem Billed.later [DecidableEq ι] {calls : ι → Call} {before after : SystemWorld ι} {order : Order}
    (billed : Billed before.database order lines) (grows : Grows (lawful calls) before after) :
    ∃ current, current.id = order.id ∧ Billed after.database current lines := by
  obtain ⟨current, found, same⟩ := Grows.order grows billed.stored
  have items := Grows.items grows order.tenantId (Option.isSome_of_eq_some billed.stored)
  have key : current.id = order.id := by rw [same]
  have tenant : current.tenantId = order.tenantId := by rw [same]
  have same_items : itemsOf after.database current.tenantId current.id = itemsOf before.database order.tenantId order.id := by
    rw [key, tenant, items]
  refine ⟨current, key, key.symm ▸ found, ?_, ?_, ?_, ?_, ?_, ?_⟩
  all_goals rw [same_items]
  · exact billed.variants
  · exact billed.distinct
  · exact billed.quantities
  · exact billed.totals
  · rw [same]
    exact billed.subtotal
  · rw [same]
    exact billed.currency

theorem Ordered.priced_items {i : ι} (ordered : Ordered i tenantId userId dto options world placement) {db : Db}
    (before : ∀ event ∈ world.trace, event.author = some i → event.before = db) {line : PlacedLine}
    (member : line ∈ placement.lines) : ∃ price ∈ (db.table .price).rows, price.tenantId = placement.order.tenantId ∧
      price.variantId = line.variantId ∧ price.currency = placement.order.currency ∧
      price.amountMinor = line.item.unitAmountMinor := by
  obtain ⟨event, traced, author, _, _, prices, units, _, scanned, priced, unit⟩ := ordered.priced
  rw [before event traced author] at scanned
  obtain ⟨first, rest, shape⟩ := List.exists_cons_of_ne_nil ordered.nonempty
  have listed : listedPrice prices line.variantId placement.order.currency = some (unitPrice units line.variantId) := by
    have inside : line.variantId ∈ placement.lines.map fun line => line.variantId := List.mem_map_of_mem member
    rw [shape, List.map_cons] at priced inside
    obtain ⟨currency, _, priced⟩ := unitPrices_first priced
    obtain ⟨same, listed⟩ := unitPrices_listed priced
    rw [Option.some.inj same]
    exact listed _ inside
  obtain ⟨price, found, amount⟩ := Option.map_eq_some_iff.mp listed
  have matched := List.find?_some found
  simp only [Bool.and_eq_true, decide_eq_true_eq] at matched
  obtain ⟨inside, filtered⟩ := List.mem_filter.mp (scanned.mem_iff.mp (List.mem_of_find?_eq_some found))
  simp only [Bool.and_eq_true, decide_eq_true_eq] at filtered
  exact ⟨price, inside, filtered.2, matched.1, matched.2, amount.trans (unit line member).symm⟩

/-- The lines of a placement were requested, and their cart is converted. -/
private theorem Placed.requested {i : ι} {db : Db} (placed : Placed db placement)
    (before : ∀ event ∈ world.trace, event.author = some i → event.before = db)
    (input : Input i tenantId dto world lines (placement.cart.map Cart.id)) :
    Requested tenantId dto db (db.applyAll placement.writes) lines := by
  generalize converted : placement.cart.map Cart.id = cartId at input
  cases input with
  | direct given => exact .items given
  | cart given member author access listed read =>
    obtain ⟨cart, taken, rfl⟩ := Option.map_eq_some_iff.mp converted
    rw [before _ member author] at read
    refine .cart given (placed.cart cart taken) ?_ read
    have stored : putsOf (S := commerce) .cart placement.writes = [convert.apply cart] := by simp [taken]
    refine Database.get_stored (S := commerce) (m := .cart) db (Placement.writes_erases ..) ?_ (stored ▸ List.mem_singleton_self _)
    simp [stored]

/-- No cart of these rows has a key that is still to be generated. -/
def Issued (db : Db) (stamp : Nat) : Prop := ∀ id cart, db.get .cart id = some cart → id < stamp

variable [DecidableEq ι]

/-- Any calls, and any edits of the other tables, from rows of any origin on. -/
def resumed (db : Db) (stamp clock : Nat) (sha256 : String → String) (calls : ι → Call) : SystemState ι :=
  ⟨World.opened db stamp clock, fun i => { program := (calls i).program sha256 }, fun _ => none⟩

/-- In every later state the order has billed the same. -/
def Lasting (db : Db) (order : Order) (lines : List OrderItemInputDto) : Prop :=
  ∀ (ι : Type) [DecidableEq ι] (sha256 : String → String) (calls : ι → Call) (stamp clock : Nat) (later : SystemState ι),
    Issued db stamp → State.Reaches Environment (resumed db stamp clock sha256 calls) later →
    ∃ current, current.id = order.id ∧ Billed later.world.database current lines

theorem Billed.lasting {db : Db} {order : Order} (billed : Billed db order lines) : Lasting db order lines := by
  intro ι _ sha256 calls stamp clock later issued reached
  have known : KnownCarts (World.opened db stamp clock : SystemWorld ι) := by
    intro id cart found
    refine ⟨by simpa [World.opened] using issued id cart found, fun other same => ?_⟩
    rw [Option.some.inj (same.symm.trans found)]
  have own (i : ι) : (World.opened db stamp clock : SystemWorld ι).own i = [] := World.own_opened ..
  have valid : Valid (lawful calls) (fun i => (calls i).Post i) (resumed db stamp clock sha256 calls) :=
    ⟨fun i => Call.safe known (own i), (by simp [resumed]), (by simp [resumed])⟩
  exact billed.later (State.Reaches.valid reached valid fun _ _ => Environment.lawful).2

/-- The order that a call alone on these rows has placed. -/
structure Issues (db : Db) (stamp clock : Nat) (tenantId userId : Id) (dto : CreateOrderDto) (options : CreateOrderOptions)
    (summary : OrderSummary) (after : Db) (middle : SystemWorld Unit) (placement : Placement) : Prop
    extends Ordered () tenantId userId dto options middle placement where
  database : middle.database = db
  before : ∀ event ∈ middle.trace, event.author = some () → event.before = db
  after : after = db.applyAll placement.writes
  identified : summary.id = placement.order.id

/-- A call alone either fails and leaves the rows as they were, or it places one order. -/
theorem createOrder_alone {db : Db} {stamp clock : Nat} {state : State commerce HttpException OrderSummary Unit}
    (ran : RunsAlone (World.opened db stamp clock) (createOrder tenantId userId dto options) state) :
    (state.failed () → state.world.database = db) ∧
      ∀ summary, (state.threads ()).program = .done (.ok summary) → ∃ middle placement,
        Issues db stamp clock tenantId userId dto options summary state.world.database middle placement := by
  obtain ⟨valid, grows⟩ := ran.valid (createOrder_safe (World.own_opened ..))
  have outcome := Grows.once grows (fun _ => World.opened_author) (by
    rintro middle _ ⟨own, placement, _, rfl⟩
    exact ⟨own, by simp [Placement.writes]⟩)
  constructor
  · rintro ⟨failure, ended⟩
    obtain ⟨_, _, own⟩ := valid.ended ended
    rcases outcome with ⟨_, same⟩ | ⟨_, _, committed⟩
    · exact same
    · cases own.symm.trans committed.own
  · intro summary ended
    obtain ⟨_, returned, own, identified, _⟩ := valid.ended ended
    rcases outcome with ⟨none, _⟩ | ⟨middle, _, ⟨⟨_, placement, ordered, rfl⟩, database, before, committed, after⟩⟩
    · cases none.symm.trans own
    · have same : returned.writes = placement.writes := (List.cons.inj (own.symm.trans committed)).1
      have order : returned.order = placement.order := by
        have orders := congrArg (putsOf (S := commerce) .order) same
        rw [Placement.writes_order, Placement.writes_order] at orders
        exact (List.cons.inj orders).1
      exact ⟨middle, placement, ordered, database, before, after, identified.trans (congrArg Order.id order)⟩

/-- An order is placed exactly as it was requested, for good, or nothing happens. -/
theorem createOrder_exact {db : Db} {stamp clock : Nat} {state : State commerce HttpException OrderSummary Unit}
    (referenced : db.Referenced (S := commerce) .orderItem)
    (ran : RunsAlone (World.opened db stamp clock) (createOrder tenantId userId dto options) state) :
    (state.failed () → state.world.database = db) ∧
      ∀ summary, (state.threads ()).program = .done (.ok summary) →
        ∃ order lines, order.id = summary.id ∧ Requested tenantId dto db state.world.database lines ∧
          Charged db state.world.database options lines order ∧ Lasting state.world.database order lines := by
  refine ⟨(createOrder_alone ran).1, fun summary ended => ?_⟩
  obtain ⟨middle, placement, ordered, database, before, after, identified⟩ := (createOrder_alone ran).2 summary ended
  obtain ⟨lines, input, entries⟩ := ordered.input
  have placed : Placed db placement := by
    have placed := ordered.toPlaced
    rwa [database] at placed
  have unordered : itemsOf db placement.order.tenantId placement.order.id = [] := by
    refine List.filter_eq_nil_iff.mpr fun item member => ?_
    have present := referenced item member ⟨Model.order, item.orderId⟩ (List.mem_cons_self ..)
    have different : item.orderId ≠ placement.order.id := by
      intro same
      rw [same, placed.fresh] at present
      cases present
    simp [different]
  have billed := placed.billed unordered entries
  rw [after]
  refine ⟨placement.order, lines, identified.symm, ?_, ⟨billed, placed.fresh, fun item member => ?_, fun line member => ?_, ?_⟩,
    billed.lasting⟩
  · exact placed.requested before input
  · obtain ⟨line, inside, rfl⟩ := List.mem_map.mp ((itemsOf_placed placed unordered).mem_iff.mp member)
    rw [(placed.lines line inside).variant]
    exact ordered.priced_items before inside
  · obtain ⟨debit, inside, same⟩ := List.mem_map.mp ((mem_variants entries line.variantId).mpr (List.mem_map_of_mem member))
    rw [← ordered.pool, ← same]
    exact Option.isSome_of_eq_some (placed.debits debit inside).stocked
  · rw [← ordered.pool]
    exact placed.stock entries

/-- The demo shop with five units of its variant in the global pool. -/
private def stockedDemo : Db := Shop.demo.database.applyAll [.put .inventory ⟨11, 0, 1, none, 5⟩]

/-- Two lines of one variant are ordered as one. -/
theorem createOrder_exact_repeated : ∃ after order, order.subtotalMinor = 300 ∧
    after.get .inventory (1, none) = some ⟨11, 0, 1, none, 2⟩ ∧ Charged stockedDemo after {} [⟨1, 2⟩, ⟨1, 1⟩] order := by
  have executed : ((World.opened stockedDemo 0 0).execute (createOrder 0 7 { items := some [⟨1, 2⟩, ⟨1, 1⟩] } {}) 9).any
      (fun (result, world) => result.toOption.any fun summary =>
        (world.database.get .order summary.id).any (fun order => order.subtotalMinor = 300) &&
          world.database.get .inventory (1, none) = some ⟨11, 0, 1, none, 2⟩) = true := by decide +kernel
  obtain ⟨⟨result, world⟩, ended, seen⟩ := (Option.any_eq_true _ _).mp executed
  obtain ⟨state, ran, returned, rfl⟩ := RunsAlone.executed ended
  cases result with
  | error failure => cases seen
  | ok summary =>
    obtain ⟨order, lines, identified, requested, charged, _⟩ :=
      (createOrder_exact (fun item member => absurd (show item ∈ [] from member) List.not_mem_nil) ran).2 summary returned
    simp only [Except.toOption, Option.any_some, Bool.and_eq_true, decide_eq_true_eq, ← identified, charged.stored] at seen
    cases requested with
    | items given =>
      cases given
      exact ⟨_, order, seen.1, seen.2, charged⟩
    | cart given => cases given

end BusinessPlatform
