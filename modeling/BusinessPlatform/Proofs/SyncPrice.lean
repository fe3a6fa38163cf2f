import BusinessPlatform.Proofs.OrderLines
import BusinessPlatform.Proofs.Pricing
import BusinessPlatform.Proofs.SyncVerdict

/-! What an executed operation was sold for. Validation compares the prices in
the intent's currency; the order's own transaction reads the prices again and
picks its currency from the first one listed. -/

namespace BusinessPlatform
open Engine OrderService PosSyncService PosSaleService

variable {ι : Type} {sha256 : String → String} {calls : ι → Call} {shop : Shop} {state : SystemState ι}
  {operationId : Id} {world : SystemWorld ι}

/-- The prices listed first are those at which the lines were recorded. -/
def Observed (prices : List Price) (lines : List PosOperationItem) : Prop :=
  ∀ first ∈ lines.head?, ∀ line ∈ lines,
    (prices.find? fun price => price.variantId = first.variantId).map Price.currency = some line.currency ∧
      listedPrice prices line.variantId line.currency = some line.observedUnitAmountMinor

instance {prices : List Price} {lines : List PosOperationItem} : Decidable (Observed prices lines) :=
  inferInstanceAs (Decidable (∀ first ∈ lines.head?, _))

/-- An order that sells the lines of an operation as they were recorded. -/
structure SoldAsRecorded (db : Db) (operationId : Id) (order : Order) : Prop where
  currency : ∀ line ∈ linesOf db operationId, line.currency = order.currency
  distinct : ((itemsOf db order.tenantId order.id).map OrderItem.variantId).Nodup
  quantities : ∀ variantId,
    amountOf variantId ((itemsOf db order.tenantId order.id).map fun item => (item.variantId, item.quantity)) =
      amountOf variantId ((linesOf db operationId).map fun line => (line.variantId, line.quantity))
  units : ∀ item ∈ itemsOf db order.tenantId order.id,
    (∃ line ∈ linesOf db operationId, line.variantId = item.variantId) ∧
      ∀ line ∈ linesOf db operationId, line.variantId = item.variantId → item.unitAmountMinor = line.observedUnitAmountMinor
  subtotal : order.subtotalMinor =
    ((linesOf db operationId).map fun line => line.observedUnitAmountMinor * line.quantity).sum

/-- A placement with the lines of an operation, at the prices at which they were
recorded. -/
private theorem Placed.soldAsRecorded {db after : Db} {placement : Placement} {items : List PosOperationItem}
    {prices : List Price} {units : List (Id × Int)} (placed : Placed db placement) (filled : items ≠ [])
    (lines : items.Perm (linesOf after operationId))
    (stored : (itemsOf after placement.order.tenantId placement.order.id).Perm (placement.lines.map PlacedLine.item))
    (entries : Tally.collect (items.map fun item => (item.variantId, item.quantity)) =
      placement.lines.map fun line => line.entry)
    (priced : unitPrices prices none (placement.lines.map fun line => line.variantId) =
      .ok (some placement.order.currency, units))
    (unit : ∀ line ∈ placement.lines, line.item.unitAmountMinor = unitPrice units line.variantId)
    (observed : Observed prices items) : SoldAsRecorded after operationId placement.order := by
  obtain ⟨first, rest, rfl⟩ := List.exists_cons_of_ne_nil filled
  have keys : (placement.lines.map fun line => line.variantId) =
      (Tally.collect ((first :: rest).map fun item => (item.variantId, item.quantity))).map Prod.fst := by
    rw [entries, List.map_map]
    rfl
  have head := Tally.head_collect (first.variantId, first.quantity) (rest.map fun item => (item.variantId, item.quantity))
  rw [← List.map_cons (f := fun item : PosOperationItem => (item.variantId, item.quantity)), ← keys] at head
  obtain ⟨variantIds, shape⟩ := List.head?_eq_some_iff.mp head
  rw [shape] at priced
  obtain ⟨currency, named, priced⟩ := unitPrices_first priced
  obtain ⟨same, listed⟩ := unitPrices_listed priced
  obtain rfl : placement.order.currency = currency := Option.some.inj same
  -- what was recorded of a line is what its variant was sold at
  have recorded : ∀ line ∈ first :: rest, line.currency = placement.order.currency ∧
      line.observedUnitAmountMinor = unitPrice units line.variantId := by
    intro line member
    obtain ⟨decides, price⟩ := observed first rfl line member
    have currency : line.currency = placement.order.currency := Option.some.inj (decides.symm.trans named)
    refine ⟨currency, ?_⟩
    have inside : line.variantId ∈ placement.lines.map fun line => line.variantId := by
      rw [keys]
      exact Tally.mem_keys_collect.mpr (List.mem_map_of_mem (List.mem_map_of_mem member))
    rw [currency, listed line.variantId (shape ▸ inside)] at price
    exact (Option.some.inj price).symm
  have sold : ∀ item ∈ itemsOf after placement.order.tenantId placement.order.id, ∃ line ∈ placement.lines,
      item = line.item ∧ item.variantId = line.variantId := by
    intro item member
    obtain ⟨line, inside, rfl⟩ := List.mem_map.mp (stored.mem_iff.mp member)
    exact ⟨line, inside, rfl, (placed.lines line inside).variant⟩
  have variants : (placement.lines.map PlacedLine.item).map OrderItem.variantId = placement.lines.map fun line => line.variantId := by
    rw [List.map_map]
    exact List.map_congr_left fun line member => (placed.lines line member).variant
  refine ⟨fun line member => (recorded line (lines.mem_iff.mpr member)).1, ?_, fun variantId => ?_, fun item member => ?_, ?_⟩
  · rw [(stored.map _).nodup_iff, variants]
    exact placed.distinct
  · rw [amountOf_perm (stored.map _), amountOf_perm (lines.symm.map _), ← Tally.amountOf_collect _ (List.map _ (first :: rest)),
      entries, List.map_map]
    refine congrArg _ (List.map_congr_left fun line member => ?_)
    have matched := placed.lines line member
    exact Prod.ext matched.variant matched.quantity
  · obtain ⟨line, inside, rfl, variant⟩ := sold item member
    refine ⟨?_, fun other listed same => ?_⟩
    · have key : line.variantId ∈ placement.lines.map fun line => line.variantId := List.mem_map_of_mem inside
      rw [keys, Tally.mem_keys_collect] at key
      simp only [List.map_map, List.mem_map] at key
      obtain ⟨other, listed, same⟩ := key
      exact ⟨other, lines.mem_iff.mp listed, same.trans variant.symm⟩
    · rw [unit line inside, (recorded other (lines.mem_iff.mpr listed)).2, same, variant]
  · have totals : (placement.lines.map fun line => line.item.lineTotalMinor) =
        (placement.lines.map fun line => line.entry).map fun entry => unitPrice units entry.1 * entry.2 := by
      rw [List.map_map]
      refine List.map_congr_left fun line member => ?_
      rw [(placed.lines line member).total, unit line member]
      rfl
    rw [placed.subtotal, totals, ← entries, Tally.sum_collect (unitPrice units), List.map_map, (lines.symm.map _).sum_eq]
    refine congrArg _ (List.map_congr_left fun line member => ?_)
    rw [(recorded line member).2]
    rfl

variable [DecidableEq ι]

/-- When a call commits an order for the operation, the prices that its
transaction has read are, for the lines as the call has read them, the recorded
ones. -/
def PricedAsObserved (calls : ι → Call) (operationId : Id) (state : SystemState ι) (event : Event commerce ι) : Prop :=
  Synchronises calls operationId event.author = true → createdOrders event ≠ [] →
    ∀ priced ∈ state.world.trace, priced.author = event.author ∧ priced.access = some (.price, .find) ∧ priced.inside = true →
      ∀ read ∈ state.world.trace, read.author = event.author ∧ read.access = some (.posOperationItem, .find) →
        Observed (priced.rows .price) (read.rows .posOperationItem)

instance {event : Event commerce ι} : Decidable (PricedAsObserved calls operationId state event) :=
  inferInstanceAs (Decidable (_ → _ → ∀ priced ∈ state.world.trace, _ → ∀ read ∈ state.world.trace, _))

/-- An order that was created for the operation sells it as it was recorded. -/
structure Unrepriced (operationId : Id) (created : Order) (world : SystemWorld ι) : Prop where
  stored : ∃ order, world.database.get .order created.id = some order ∧
    order = { created with status := order.status, cancelledAt := order.cancelledAt }
  operation : (world.database.get .posOperation operationId).isSome = true
  recorded : SoldAsRecorded world.database operationId created

private theorem Unrepriced.evolves {before after : SystemWorld ι} {created : Order} (sold : Unrepriced operationId created before)
    (step : Evolves (lawful calls) before after) : Unrepriced operationId created after := by
  have grows : Grows (lawful calls) before after := .single step
  obtain ⟨order, found, same⟩ := sold.stored
  obtain ⟨now, there, kept⟩ := Grows.order grows found
  obtain ⟨row, present⟩ := Option.isSome_iff_exists.mp sold.operation
  obtain ⟨current, still, _⟩ := Grows.provenance grows present
  have lines := Grows.lines grows sold.operation
  have items := Grows.items grows created.tenantId (Option.isSome_iff_exists.mpr ⟨order, found⟩)
  refine ⟨⟨now, there, ?_⟩, Option.isSome_iff_exists.mpr ⟨current, still⟩, ?_⟩
  · rw [kept, same]
  · obtain ⟨currency, distinct, quantities, units, subtotal⟩ := sold.recorded
    constructor
    all_goals first | rw [lines, items] | rw [lines] | rw [items]
    all_goals assumption

private theorem SyncStep.sold {i : ι} {tenantId : Id} {history : List Writes} {writes : Writes} {label : Label commerce ι}
    {created : Order} (step : SyncStep i tenantId operationId world history writes)
    (grows : Grows (lawful calls) world (world.record label writes)) (ordered : ItemsOrdered world.database)
    (member : created ∈ createdOrders ⟨label, world.database, writes⟩)
    (observed : ∀ priced ∈ world.trace, priced.author = some i ∧ priced.access = some (.price, .find) ∧ priced.inside = true →
      ∀ read ∈ world.trace, read.author = some i ∧ read.access = some (.posOperationItem, .find) →
        Observed (priced.rows .price) (read.rows .posOperationItem)) :
    Unrepriced operationId created (world.record label writes) := by
  have stored := (List.mem_filter.mp member).1
  cases step with
  | rejected code operated | cleared operated | outOfStock claim held operated => cases operated; simp at stored
  | accepted claim held placement payment paid captures sale once found captured order operated =>
    cases operated
    simp at stored
  | claimed row now found pending unclaimed tenant => simp at stored
  | executed claim held row items filled validated earlier found tenant lines read step =>
    cases step with
    | payment placement payment made => simp at stored
    | sale placement payment captures sale once fresh order paid store tenant => simp at stored
    | capture placement payment captured =>
      obtain ⟨current, order, _, _, _, there, _⟩ := captured
      have existing : ((PaymentService.setOrder .paid).apply order).id = current.orderId := (Table.find_eq_some.mp there).2
      simp [createdOrders, existing, there] at member
    | order placement session placed =>
      rw [Placement.writes_order, List.mem_singleton] at stored
      subst stored
      obtain ⟨pricing, inside, author, access, transactional, prices, units, listed, _, priced, unit⟩ := placed.priced
      obtain ⟨reading, there, reader, accessed, itemized⟩ := read
      have observed := observed pricing inside ⟨author, access, transactional⟩ reading there ⟨reader, accessed⟩
      rw [Label.rows_of listed, Label.rows_of itemized] at observed
      obtain ⟨inputs, input, entries⟩ := placed.input
      have direct : inputs = items.map fun item => ⟨item.variantId, item.quantity⟩ := by
        generalize placement.cart.map Cart.id = cartId at input
        cases input with
        | direct given => exact (Option.some.inj given).symm
        | cart given => exact absurd given (by simpa [orderDto, saleDto] using filled)
      rw [direct, aggregateItems, List.map_map] at entries
      have now : (world.record label placement.writes).database.get .order placement.order.id = some placement.order :=
        Database.get_stored (S := commerce) (m := .order) _ (by simp) (by simp) (by simp)
      have same := Grows.lines grows (Option.isSome_iff_exists.mpr ⟨row, found⟩)
      obtain ⟨current, still, _⟩ := Grows.provenance grows found
      refine ⟨⟨placement.order, now, rfl⟩, Option.isSome_iff_exists.mpr ⟨current, still⟩, ?_⟩
      exact placed.toPlaced.soldAsRecorded filled (same ▸ lines) (itemsOf_placed placed.toPlaced
        (ordered.unordered placed.fresh _)) entries priced
        unit observed

/-- An accepted operation has been sold as it was recorded, in every run in which
the prices that are read for its order are the recorded ones. -/
theorem offline_sale_never_repriced (reached : State.Reaches
    (fun state action => Environment state action ∧ state.Records (PricedAsObserved calls operationId) action)
    (shop.system sha256 calls) state) (row : PosOperation)
    (found : state.world.database.get .posOperation operationId = some row) (accepted : row.status = .accepted) :
    ∃ order, row.resultOrderId = some order.id ∧ state.world.database.get .order order.id = some order ∧
      SoldAsRecorded state.world.database operationId order := by
  have grows := (Shop.Reaches.valid (State.Reaches.weaken reached fun _ _ => And.left)).2
  have sold : ∀ created ∈ syncOrders calls operationId state.world, Unrepriced operationId created state.world := by
    refine Shop.recording (fun state => ∀ created ∈ syncOrders calls operationId state.world,
      Unrepriced operationId created state.world) reached (fun _ none => nomatch none) (fun before after holds _ still created member => ?_)
      fun before after label writes grown holds _ recorded _ lawful priced created member => ?_
    · obtain ⟨stored, operation, recorded⟩ := holds created (syncOrders_still still ▸ member)
      rw [← still.database] at stored operation recorded
      exact ⟨stored, operation, recorded⟩
    · have step : Evolves (BusinessPlatform.lawful calls) before.world (before.world.record label writes) :=
        .event label writes (.inr lawful)
      rw [recorded, syncOrders_record] at member
      rw [recorded]
      rcases List.mem_append.mp member with new | earlier
      · split at new
        next synchronises =>
          obtain ⟨i, author, own⟩ := (Option.any_eq_true _ _).mp synchronises
          obtain ⟨tenantId, userId, credential, call⟩ := Call.synchronises_iff.mp own
          rw [author] at lawful
          simp only [BusinessPlatform.lawful, call] at lawful
          refine SyncStep.sold lawful (.single step) (Shop.itemsOrdered grown) new ?_
          rw [← author]
          exact priced synchronises (List.ne_nil_of_mem new)
        next => cases new
      · exact (holds created earlier).evolves step
  obtain ⟨created, member, order, payment, captures, paid⟩ := accepted_executed grows row found accepted
  obtain ⟨⟨order', there, same⟩, _, recorded⟩ := sold created member
  have key : order'.id = created.id := (Table.find_eq_some.mp there).2
  refine ⟨order', key ▸ order, key ▸ there, ?_⟩
  rw [same]
  exact ⟨recorded.currency, recorded.distinct, recorded.quantities, recorded.units, recorded.subtotal⟩

/-- The intent of two units at USD 100 is executed as it was recorded. -/
theorem offline_sale_never_repriced_same_price : ∃ state : SystemState (Fin 5), ∃ order : Order,
    order.subtotalMinor = 200 ∧ SoldAsRecorded state.world.database 7 order := by
  have executed : ((Shop.demo.system (fun _ => "hash") (offlineSale 10)).runWhile
      (fun state event => PricedAsObserved (offlineSale 10) 7 state event) (runs 0 5 ++ runs 1 7 ++ runs 2 39)).any
      (fun state => (state.world.database.get .posOperation 7).any fun row => row.status = .accepted &&
        row.resultOrderId.any fun id => (state.world.database.get .order id).map Order.subtotalMinor = some 200) = true := by
    decide +kernel
  obtain ⟨state, reached, seen⟩ := Shop.Reaches.checked executed rfl
  obtain ⟨row, found, seen⟩ := (Option.any_eq_true _ _).mp seen
  simp only [Bool.and_eq_true, decide_eq_true_eq] at seen
  obtain ⟨order, result, stored, recorded⟩ := offline_sale_never_repriced reached row found seen.1
  rw [result] at seen
  simp only [Option.any_some, stored, Option.map_some, decide_eq_true_eq, Option.some.injEq] at seen
  exact ⟨state, order, seen.2, recorded⟩

/-- The variant is also priced in EUR, and the transaction lists that price
first. The operation is accepted with an order in EUR. -/
theorem offline_sale_repriced : ∃ state, Shop.demo.Reaches (fun _ => "hash") (offlineSale 10) state ∧
    ∃ (row : PosOperation) (order : Order), state.world.database.get .posOperation 7 = some row ∧ row.status = .accepted ∧
      row.resultOrderId = some order.id ∧ state.world.database.get .order order.id = some order ∧
      ¬ SoldAsRecorded state.world.database 7 order := by
  have executed : ((Shop.demo.system (fun _ => "hash") (offlineSale 10)).run
      (runs 0 5 ++ runs 1 7 ++ [.external [.put .price ⟨90, 0, 1, "EUR", 70⟩]] ++ runs 2 15 ++ [.run 2 [1]] ++ runs 2 23)).any
      (fun state => (state.world.database.get .posOperation 7).any fun row => row.status = .accepted &&
        row.resultOrderId.any fun id => (state.world.database.get .order id).any fun order =>
          order.currency = "EUR" && (linesOf state.world.database 7).any fun line => line.currency = "USD") = true := by
    decide +kernel
  obtain ⟨state, reached, seen⟩ := Shop.Reaches.computed executed rfl
  obtain ⟨row, found, seen⟩ := (Option.any_eq_true _ _).mp seen
  simp only [Bool.and_eq_true, decide_eq_true_eq] at seen
  obtain ⟨accepted, seen⟩ := seen
  obtain ⟨id, result, seen⟩ := (Option.any_eq_true _ _).mp seen
  obtain ⟨order, stored, seen⟩ := (Option.any_eq_true _ _).mp seen
  simp only [Bool.and_eq_true, decide_eq_true_eq, List.any_eq_true] at seen
  obtain ⟨currency, line, member, other⟩ := seen
  have key : order.id = id := (Table.find_eq_some.mp stored).2
  refine ⟨state, reached, row, order, found, accepted, key ▸ result, key ▸ stored, fun recorded => ?_⟩
  have same := recorded.currency line member
  simp [other, currency] at same

end BusinessPlatform
