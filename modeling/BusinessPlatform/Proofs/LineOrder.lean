import BusinessPlatform.Proofs.OrderEvaluation

/-! Two lists with the same total quantity of every variant. Apart from the first
variant's first currency, nothing in `createOrder` depends on the order of the lines. -/

namespace BusinessPlatform
open Engine OrderService Program

/-- The same variants with the same total quantities. -/
def SameQuantities (first second : List OrderItemInputDto) : Prop :=
  ∀ variantId, (variantId ∈ first.map OrderItemInputDto.variantId ↔ variantId ∈ second.map OrderItemInputDto.variantId) ∧
    amountOf variantId (first.map fun item => (item.variantId, item.quantity)) =
      amountOf variantId (second.map fun item => (item.variantId, item.quantity))

theorem SameQuantities.perm {first second : List OrderItemInputDto} (same : SameQuantities first second) :
    (aggregateItems first).Perm (aggregateItems second) := by
  have keys (items : List OrderItemInputDto) : (items.map fun item => (item.variantId, item.quantity)).map Prod.fst =
      items.map OrderItemInputDto.variantId := List.map_map
  refine Tally.collect_perm (fun variantId => ?_) fun variantId => (same variantId).2
  rw [keys, keys]
  exact (same variantId).1

namespace Basket
variable {basket : Basket} {db : Db} {moment : Moment commerce} {currency : String} {lines : List (Id × Int)}

/-- The same basket with its lines in another order. -/
def reordered (basket : Basket) (lines : List (Id × Int)) : Basket := { basket with lines }

theorem unitPrice_units (basket : Basket) (db : Db) (currency : String) {line : Id × Int} (member : line ∈ basket.lines) :
    unitPrice (basket.units db currency) line.1 = (priceIn db basket.tenantId currency line.1).getD 0 := by
  have found (ids : List Id) (id : Id) (inside : id ∈ ids) :
      (ids.map fun id => (id, (priceIn db basket.tenantId currency id).getD 0)).lookup id =
        some ((priceIn db basket.tenantId currency id).getD 0) := by
    induction ids with
    | nil => cases inside
    | cons first rest ih =>
      rw [List.map_cons, List.lookup_cons]
      by_cases same : id = first
      · simp [same]
      · have missed : (id == first) = false := by simpa using same
        rw [missed]
        exact ih ((List.mem_cons.mp inside).resolve_left same)
  rw [unitPrice, units, found _ _ (List.mem_map_of_mem member), Option.getD_some]

theorem subtotal_eq : basket.subtotal db currency =
    (basket.lines.map fun line => (priceIn db basket.tenantId currency line.1).getD 0 * line.2).sum := by
  refine congrArg List.sum (List.map_congr_left fun line member => ?_)
  rw [lineTotal, basket.unitPrice_units _ _ member]

/-- An item without its key. -/
def unnumbered (item : OrderItem) : OrderItem := { item with id := 0 }

theorem items_unnumbered : (basket.items moment currency).map unnumbered = basket.lines.filterMap fun line =>
    ((basket.variants moment.database).find? fun variant => variant.id = line.1).map fun variant =>
      itemOf basket.tenantId (basket.order moment currency) (basket.products moment.database)
        (basket.units moment.database currency) variant line 0 moment.clock := by
  rw [items, itemized, List.map_filterMap]
  conv_rhs => rw [← List.zipIdx_map_fst (basket.itemId moment) basket.lines, List.filterMap_map]
  refine List.filterMap_congr fun line _ => ?_
  rw [Option.map_map]
  rfl

section Reordered
variable (same : basket.lines.Perm lines)
include same

theorem orderId_reordered : (basket.reordered lines).orderId moment = basket.orderId moment := by
  simp [orderId, reordered, same.length_eq]

theorem itemId_reordered : (basket.reordered lines).itemId moment = basket.itemId moment := by
  rw [itemId, orderId_reordered same, reordered, itemId]

theorem subtotal_reordered : (basket.reordered lines).subtotal db currency = basket.subtotal db currency := by
  rw [subtotal_eq, subtotal_eq]
  exact (same.map _).sum_eq.symm

theorem order_reordered : (basket.reordered lines).order moment currency = basket.order moment currency := by
  rw [order, orderId_reordered same, subtotal_reordered same]
  rfl

theorem placeable_reordered (placeable : basket.Placeable moment) : (basket.reordered lines).Placeable moment where
  sold line member := placeable.sold line (same.mem_iff.mpr member)
  stocked line member := placeable.stocked line (same.mem_iff.mpr member)
  quantities line member := placeable.quantities line (same.mem_iff.mpr member)
  fresh := by
    rw [orderId_reordered same]
    exact placeable.fresh
  linkable := by
    rw [orderId_reordered same]
    exact placeable.linkable
  itemsFresh n inside := by
    rw [itemId_reordered same]
    exact placeable.itemsFresh n (same.length_eq ▸ inside)

theorem chargeable_reordered (chargeable : basket.Chargeable db currency) :
    (basket.reordered lines).Chargeable db currency where
  named := chargeable.named
  priced line member := chargeable.priced line (same.mem_iff.mpr member)
  amounts line member := by
    have amounts := chargeable.amounts line (same.mem_iff.mpr member)
    rw [lineTotal, basket.unitPrice_units _ _ (same.mem_iff.mpr member)] at amounts
    rw [lineTotal, unitPrice_units _ _ _ member]
    exact amounts
  subtotal := by
    rw [subtotal_reordered same]
    exact chargeable.subtotal

theorem variants_reordered : (basket.reordered lines).variants db = basket.variants db := by
  refine List.filter_congr fun row _ => ?_
  have listed : row.id ∈ (basket.reordered lines).lines.map Prod.fst ↔ row.id ∈ basket.lines.map Prod.fst :=
    (same.map Prod.fst).mem_iff.symm
  exact congrArg (· && decide (row.tenantId = basket.tenantId)) (decide_eq_decide.mpr listed)

theorem items_reordered : (((basket.reordered lines).items moment currency).map unnumbered).Perm
    ((basket.items moment currency).map unnumbered) := by
  rw [items_unnumbered, items_unnumbered, variants_reordered same, order_reordered same]
  refine .trans (.of_eq ?_) (same.symm.filterMap _)
  refine List.filterMap_congr fun line member => ?_
  have price := basket.unitPrice_units moment.database currency (same.mem_iff.mpr member)
  have again := (basket.reordered lines).unitPrice_units moment.database currency member
  have products : (basket.reordered lines).products moment.database = basket.products moment.database := by
    rw [Basket.products, variants_reordered same]
    rfl
  rw [products]
  refine congrArg (Option.map · _) (funext fun variant => ?_)
  rw [itemOf, itemOf, lineTotal, lineTotal, price, again]
  rfl

theorem debited_reordered (distinct : (basket.lines.map Prod.fst).Nodup) (k : Pool) :
    ((db.table .inventory).putAll (debited db basket.pool lines)).find k =
      ((db.table .inventory).putAll (debited db basket.pool basket.lines)).find k := by
  have pools (some : List (Id × Int)) : ((debited db basket.pool some).map Inventory.pool).Sublist
      ((some.map Prod.fst).map fun variantId => (variantId, basket.pool)) := by
    induction some with
    | nil => exact .slnil
    | cons line rest ih =>
      rw [debited, List.filterMap_cons]
      cases found : db.get .inventory (line.1, basket.pool) with
      | none => exact ih.cons _
      | some row =>
        have pooled : ((decrement line.2).apply row).pool = (line.1, basket.pool) := (Table.find_eq_some.mp found).2
        simp only [Option.map_some, List.map_cons, pooled]
        exact ih.cons_cons _
  refine ((db.table .inventory).find_putAll_perm (same.filterMap _) ?_ k).symm
  refine List.Nodup.sublist (pools basket.lines) (distinct.map fun first second equal => (Prod.mk.inj equal).1)

end Reordered
theorem items_ids : ((basket.items moment currency).map OrderItem.id).Sublist
    (List.range' (basket.itemId moment) basket.lines.length) := by
  have numbers : (basket.lines.zipIdx (basket.itemId moment)).map Prod.snd =
      List.range' (basket.itemId moment) basket.lines.length := List.zipIdx_map_snd ..
  rw [← numbers, items]
  induction basket.lines.zipIdx (basket.itemId moment) with
  | nil => exact .slnil
  | cons numbered rest ih =>
    obtain ⟨line, id⟩ := numbered
    simp only [itemized, List.filterMap_cons]
    cases (basket.variants moment.database).find? fun variant => variant.id = line.1 with
    | none => exact ih.cons _
    | some variant => exact ih.cons_cons _

theorem items_ordered {item : OrderItem} (member : item ∈ basket.items moment currency) :
    item.orderId = basket.orderId moment ∧ item.tenantId = basket.tenantId := by
  obtain ⟨line, _, listed⟩ := List.mem_filterMap.mp member
  obtain ⟨variant, _, rfl⟩ := Option.map_eq_some_iff.mp listed
  exact ⟨rfl, rfl⟩

theorem writes_kept (m : Model) : erasesOf (S := commerce) m (basket.writes moment currency) = [] := by
  simp [writes, linking]

theorem writes_items : putsOf (S := commerce) .orderItem (basket.writes moment currency) = basket.items moment currency := by
  simp [writes, linking]

theorem writes_stock : putsOf (S := commerce) .inventory (basket.writes moment currency) =
    debited moment.database basket.pool basket.lines := by
  simp [writes, linking]

/-- The summary lists the new items beside those that the order's key had before. -/
theorem summary_items (placeable : basket.Placeable moment) : (basket.summary moment currency).items.Perm
    ((((moment.database.table .orderItem).rows.filter fun row =>
      row.orderId = basket.orderId moment && row.tenantId = basket.tenantId) ++ basket.items moment currency).map itemSummary) := by
  have stored : (moment.database.applyAll (basket.writes moment currency)).table .orderItem =
      (moment.database.table .orderItem).putAll (basket.items moment currency) := by
    rw [Database.applyAll_table _ (writes_kept .orderItem), writes_items]
  have distinct : ((basket.items moment currency).map OrderItem.id).Nodup := List.Nodup.sublist items_ids (List.nodup_range' 1)
  have fresh : ∀ item ∈ basket.items moment currency, (moment.database.table .orderItem).find item.id = none := by
    intro item member
    obtain ⟨n, small, same⟩ := List.mem_range'.mp (items_ids.subset (List.mem_map_of_mem (f := OrderItem.id) member))
    rw [same, one_mul]
    exact placeable.itemsFresh n small
  refine ((List.perm_insertionSort _ _).map _).trans (List.Perm.map _ ?_)
  rw [stored]
  refine (((moment.database.table .orderItem).putAll_fresh distinct fresh).filter _).trans ?_
  have all : ∀ item ∈ basket.items moment currency,
      (decide (item.orderId = basket.orderId moment) && decide (item.tenantId = basket.tenantId)) = true := by
    intro item member
    obtain ⟨ordered, tenant⟩ := items_ordered member
    simp [ordered, tenant]
  rw [List.filter_append, List.filter_eq_self.mpr all]

end Basket
/-- The call, alone in the world, returns this summary and leaves this database. -/
def Places (world : World commerce Unit) (call : Service OrderSummary) (summary : OrderSummary) (db : Db) : Prop :=
  ∃ state, State.Reaches InOrder (State.alone world call) state ∧ (state.threads ()).program = .done (.ok summary) ∧
    state.world.database = db

def unnumberedSummary (item : OrderItemSummary) : OrderItemSummary := { item with id := 0 }

/-- The same charge, the same lines and the same stock. -/
structure Alike (first second : OrderSummary) (db other : Db) : Prop where
  currency : first.currency = second.currency
  subtotal : first.subtotalMinor = second.subtotalMinor
  lines : (first.items.map unnumberedSummary).Perm (second.items.map unnumberedSummary)
  stock : ∀ pool, db.get .inventory pool = other.get .inventory pool

/-- The calls succeed in the same cases, and alike. -/
def Interchangeable (world : World commerce Unit) (first second : Service OrderSummary) : Prop :=
  ((∃ summary db, Places world first summary db) ↔ ∃ summary db, Places world second summary db) ∧
    ∀ summary db other otherDb, Places world first summary db → Places world second other otherDb →
      Alike summary other db otherDb

variable {world : World commerce Unit} {call : Service OrderSummary} {summary : OrderSummary} {db : Db}

theorem places_iff : Places world call summary db ↔
    call.Succeeds none world.moment fun value _ later => value = summary ∧ later.database = db := by
  rw [Places, evaluate_iff, succeeds_iff]
  constructor
  · intro ⟨returned, left⟩
    exact ⟨summary, returned, rfl, left⟩
  · rintro ⟨_, returned, rfl, left⟩
    exact ⟨returned, left⟩

theorem Places.unique {other : OrderSummary} {otherDb : Db} (first : Places world call summary db)
    (second : Places world call other otherDb) : summary = other ∧ db = otherDb := by
  obtain ⟨returned, left⟩ := Program.evaluate_iff.mp first
  obtain ⟨again, there⟩ := Program.evaluate_iff.mp second
  exact ⟨Except.ok.inj (returned.symm.trans again), left.symm.trans there⟩

/-- Everything that the order needs is there, whatever it costs. -/
structure Basket.Deliverable (basket : Basket) (moment : Moment commerce) : Prop extends basket.Placeable moment where
  customer : ∀ id, basket.customerId = some id →
    ∃ customer, moment.database.get .customer id = some customer ∧ customer.tenantId = basket.tenantId

variable {tenantId userId : Id} {dto : CreateOrderDto} {options : CreateOrderOptions} {first second : List OrderItemInputDto}

/-- The basket of a call with these items. -/
def basketWith (tenantId userId : Id) (dto : CreateOrderDto) (options : CreateOrderOptions) (items : List OrderItemInputDto) :
    Basket := basketOf tenantId userId { dto with items := some items } options

theorem places_createOrder {item : OrderItemInputDto} {items : List OrderItemInputDto} :
    Places world (createOrder tenantId userId { dto with items := some (item :: items) } options) summary db ↔
      (basketWith tenantId userId dto options (item :: items)).Deliverable (placing dto world.moment) ∧
        ∃ currency, firstCurrency world.database tenantId item.variantId = some currency ∧
          (basketWith tenantId userId dto options (item :: items)).Chargeable world.database currency ∧
          (basketWith tenantId userId dto options (item :: items)).summary (placing dto world.moment) currency = summary ∧
          world.database.applyAll
            ((basketWith tenantId userId dto options (item :: items)).writes (placing dto world.moment) currency) = db := by
  rw [places_iff, succeeds_createOrder rfl]
  constructor
  · intro ⟨customer, placeable, charged⟩
    exact ⟨⟨placeable, customer⟩, charged⟩
  · intro ⟨deliverable, charged⟩
    exact ⟨deliverable.customer, deliverable.toPlaceable, charged⟩

theorem Basket.Deliverable.reordered {basket : Basket} {moment : Moment commerce} {lines : List (Id × Int)}
    (deliverable : basket.Deliverable moment) (same : basket.lines.Perm lines) : (basket.reordered lines).Deliverable moment :=
  ⟨Basket.placeable_reordered same deliverable.toPlaceable, deliverable.customer⟩

theorem Basket.alike {basket : Basket} {moment : Moment commerce} {lines : List (Id × Int)} {currency : String}
    (distinct : (basket.lines.map Prod.fst).Nodup) (same : basket.lines.Perm lines) (placeable : basket.Placeable moment) :
    Alike (basket.summary moment currency) ((basket.reordered lines).summary moment currency)
      (moment.database.applyAll (basket.writes moment currency))
      (moment.database.applyAll ((basket.reordered lines).writes moment currency)) where
  currency := rfl
  subtotal := congrArg toString (Basket.subtotal_reordered same).symm
  lines := by
    refine ((Basket.summary_items placeable).map _).trans
      (.trans ?_ ((Basket.summary_items (Basket.placeable_reordered same placeable)).map _).symm)
    have commute (items : List OrderItem) : (items.map itemSummary).map unnumberedSummary =
        (items.map Basket.unnumbered).map itemSummary := by
      rw [List.map_map, List.map_map]
      rfl
    rw [commute, commute, Basket.orderId_reordered same]
    simp only [List.map_append]
    exact ((Basket.items_reordered same).symm.map _).append_left _
  stock pool := by
    rw [Database.get_applyAll _ (Basket.writes_kept .inventory), Database.get_applyAll _ (Basket.writes_kept .inventory),
      Basket.writes_stock, Basket.writes_stock]
    exact (Basket.debited_reordered same distinct pool).symm

private theorem places_some {item : OrderItemInputDto} {items : List OrderItemInputDto} :
    (∃ summary db, Places world (createOrder tenantId userId { dto with items := some (item :: items) } options) summary db) ↔
      (basketWith tenantId userId dto options (item :: items)).Deliverable (placing dto world.moment) ∧
        ∃ currency, firstCurrency world.database tenantId item.variantId = some currency ∧
          (basketWith tenantId userId dto options (item :: items)).Chargeable world.database currency := by
  constructor
  · intro ⟨summary, db, placed⟩
    obtain ⟨deliverable, currency, named, chargeable, _⟩ := places_createOrder.mp placed
    exact ⟨deliverable, currency, named, chargeable⟩
  · intro ⟨deliverable, currency, named, chargeable⟩
    exact ⟨_, _, places_createOrder.mpr ⟨deliverable, currency, named, chargeable, rfl, rfl⟩⟩

/-- The first variants of both lists are first priced in one currency, or the order
cannot be charged in either. -/
def CurrencySettled (world : World commerce Unit) (tenantId userId : Id) (dto : CreateOrderDto) (options : CreateOrderOptions)
    (first second : List OrderItemInputDto) : Prop :=
  ∀ left ∈ first.head?, ∀ right ∈ second.head?,
    (basketWith tenantId userId dto options first).Deliverable (placing dto world.moment) →
    firstCurrency world.database tenantId left.variantId = firstCurrency world.database tenantId right.variantId ∨
      ∀ currency, firstCurrency world.database tenantId left.variantId = some currency ∨
        firstCurrency world.database tenantId right.variantId = some currency →
        ¬ (basketWith tenantId userId dto options first).Chargeable world.database currency

/-- The order of the lines matters only where it decides the currency. -/
theorem createOrder_line_order (same : SameQuantities first second) :
    Interchangeable world (createOrder tenantId userId { dto with items := some first } options)
        (createOrder tenantId userId { dto with items := some second } options) ↔
      CurrencySettled world tenantId userId dto options first second := by
  have perm := same.perm
  cases first with
  | nil =>
    cases second with
    | nil =>
      refine iff_of_true ⟨Iff.rfl, fun _ _ _ _ one two => ?_⟩ nofun
      obtain ⟨rfl, rfl⟩ := one.unique two
      exact ⟨rfl, rfl, .refl _, fun _ => rfl⟩
    | cons item items => simpa using (same item.variantId).1
  | cons left first =>
    cases second with
    | nil => simpa using (same left.variantId).1
    | cons right second =>
      have distinct : ((basketWith tenantId userId dto options (left :: first)).lines.map Prod.fst).Nodup :=
        Tally.nodup_collect _
      have deliverable_iff : (basketWith tenantId userId dto options (left :: first)).Deliverable (placing dto world.moment) ↔
          (basketWith tenantId userId dto options (right :: second)).Deliverable (placing dto world.moment) :=
        ⟨fun deliverable => deliverable.reordered perm, fun deliverable => deliverable.reordered perm.symm⟩
      have chargeable_iff (currency : String) :
          (basketWith tenantId userId dto options (left :: first)).Chargeable world.database currency ↔
            (basketWith tenantId userId dto options (right :: second)).Chargeable world.database currency :=
        ⟨Basket.chargeable_reordered perm, Basket.chargeable_reordered perm.symm⟩
      constructor
      · intro ⟨both, alike⟩ _ head _ start deliverable
        cases head
        cases start
        by_cases agree : firstCurrency world.database tenantId left.variantId =
          firstCurrency world.database tenantId right.variantId
        · exact .inl agree
        · refine .inr fun currency named chargeable => agree ?_
          -- one call succeeds, so both do, and in one currency
          have one : ∃ summary db, Places world
              (createOrder tenantId userId { dto with items := some (left :: first) } options) summary db := by
            rcases named with named | named
            · exact places_some.mpr ⟨deliverable, currency, named, chargeable⟩
            · exact both.mpr (places_some.mpr ⟨deliverable_iff.mp deliverable, currency, named, (chargeable_iff _).mp chargeable⟩)
          obtain ⟨summary, db, placed⟩ := one
          obtain ⟨other, otherDb, again⟩ := both.mp ⟨summary, db, placed⟩
          have same := (alike summary db other otherDb placed again).currency
          obtain ⟨_, charged, asked, _, rfl, _⟩ := places_createOrder.mp placed
          obtain ⟨_, chargedAgain, askedAgain, _, rfl, _⟩ := places_createOrder.mp again
          rw [asked, askedAgain]
          exact congrArg some same
      · intro settled
        refine ⟨?_, fun summary db other otherDb placed again => ?_⟩
        · rw [places_some, places_some, ← deliverable_iff]
          refine and_congr_right fun deliverable => ?_
          rcases settled left rfl right rfl deliverable with agree | never
          · rw [agree]
            exact exists_congr fun currency => and_congr_right fun _ => chargeable_iff currency
          · constructor
            · intro ⟨currency, named, chargeable⟩
              exact absurd chargeable (never currency (.inl named))
            · intro ⟨currency, named, chargeable⟩
              exact absurd ((chargeable_iff currency).mpr chargeable) (never currency (.inr named))
        · obtain ⟨deliverable, currency, named, chargeable, rfl, rfl⟩ := places_createOrder.mp placed
          obtain ⟨_, chosen, asked, _, rfl, rfl⟩ := places_createOrder.mp again
          rcases settled left rfl right rfl deliverable with agree | never
          · cases named.symm.trans (agree.trans asked)
            exact Basket.alike distinct perm deliverable.toPlaceable
          · exact absurd chargeable (never currency (.inl named))

private def marketRows : (m : Model) → List (Model.Row m)
  | .productVariant => [⟨1, 0, 4, "first", none, .active⟩, ⟨2, 0, 4, "second", none, .active⟩, ⟨3, 0, 4, "third", none, .active⟩]
  | .product => [⟨4, 0, "product"⟩]
  | .price => [⟨5, 0, 1, "USD", 100⟩, ⟨6, 0, 1, "EUR", 90⟩, ⟨7, 0, 2, "EUR", 50⟩, ⟨8, 0, 3, "USD", 30⟩]
  | .inventory => [⟨9, 0, 1, none, 5⟩, ⟨10, 0, 2, none, 5⟩, ⟨11, 0, 3, none, 5⟩]
  | _ => []

/-- One variant with a price in USD and one in EUR, one in EUR only, one in USD only. -/
def market : World commerce Unit where
  database := ⟨fun m => ⟨marketRows m, by cases m <;> simp [marketRows, Model.key, Inventory.pool]⟩⟩

/-- The variants that are first priced in USD may be listed, and split, in any order. -/
theorem createOrder_line_order_split : Interchangeable market (createOrder 0 1 { items := some [⟨1, 2⟩, ⟨3, 1⟩] } {})
    (createOrder 0 1 { items := some [⟨3, 1⟩, ⟨1, 1⟩, ⟨1, 1⟩] } {}) := by
  have same : SameQuantities [⟨1, 2⟩, ⟨3, 1⟩] [⟨3, 1⟩, ⟨1, 1⟩, ⟨1, 1⟩] := by
    intro variantId
    refine ⟨by simp [or_comm], ?_⟩
    simp only [amountOf, List.map_cons, List.map_nil, List.sum_cons, List.sum_nil]
    split <;> split <;> omega
  have settled : CurrencySettled market 0 1 {} {} [⟨1, 2⟩, ⟨3, 1⟩] [⟨3, 1⟩, ⟨1, 1⟩, ⟨1, 1⟩] := by
    intro left head right start _
    cases head
    cases start
    exact .inl rfl
  exact (createOrder_line_order same).mpr settled

/-- Both variants have a price in EUR, but the order is accepted only if the line of
the variant without a price in USD comes first. -/
theorem createOrder_line_order_dependent : SameQuantities [⟨1, 1⟩, ⟨2, 1⟩] [⟨2, 1⟩, ⟨1, 1⟩] ∧
    ¬ Interchangeable market (createOrder 0 1 { items := some [⟨1, 1⟩, ⟨2, 1⟩] } {})
      (createOrder 0 1 { items := some [⟨2, 1⟩, ⟨1, 1⟩] } {}) := by
  refine ⟨fun variantId => ⟨by simp [or_comm], ?_⟩, fun interchangeable => ?_⟩
  · simp only [amountOf, List.map_cons, List.map_nil, List.sum_cons, List.sum_nil]
    split <;> split <;> omega
  · have accepted : ((createOrder 0 1 { items := some [⟨2, 1⟩, ⟨1, 1⟩] } {}).evaluate none market.moment).1.toOption.isSome =
        true := by decide +kernel
    have refused : ((createOrder 0 1 { items := some [⟨1, 1⟩, ⟨2, 1⟩] } {}).evaluate none market.moment).1.toOption.isSome =
        false := by decide +kernel
    cases returned : ((createOrder 0 1 { items := some [⟨2, 1⟩, ⟨1, 1⟩] } {}).evaluate none market.moment).1 with
    | error failure =>
      rw [returned] at accepted
      cases accepted
    | ok summary =>
      obtain ⟨other, db, placed⟩ := interchangeable.1.mpr ⟨summary, _, Program.evaluate_iff.mpr ⟨returned, rfl⟩⟩
      rw [(Program.evaluate_iff.mp placed).1] at refused
      cases refused

end BusinessPlatform
