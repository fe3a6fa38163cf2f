import BusinessPlatform.Engine.Constraints
import BusinessPlatform.Proofs.Conservation
import BusinessPlatform.Proofs.OrderRanges
import BusinessPlatform.Proofs.QuietRuns

/-! When a pending order can be cancelled. -/

namespace BusinessPlatform
open Engine OrderService Program

variable {tenantId : Id} {db : Db} {moment : Moment commerce} {order : Order} {lines : List (Id × Int)}

/-- The global pool to which the units of a line go back. -/
structure Restockable (db : Db) (tenantId : Id) (line : Id × Int) (row : Inventory) : Prop where
  found : db.get .inventory (line.1, none) = some row
  tenant : row.tenantId = tenantId
  least : 0 ≤ row.quantityOnHand
  positive : 0 < line.2
  variant : (db.get .productVariant line.1).isSome = true

/-- The rows of the pools after the lines are restocked. -/
def restocked (db : Db) (lines : List (Id × Int)) : List Inventory :=
  lines.filterMap fun line => (db.get .inventory (line.1, none)).map (InventoryService.increment line.2).apply

private theorem constrain_pool {view : Db} {row : Inventory} (place : row.storeId = none)
    (variant : (view.get .productVariant row.variantId).isSome = true) :
    constrain (m := Model.inventory) view row = .ok () ↔ Model.fitsInteger row.quantityOnHand = true := by
  rw [constrain_iff]
  refine ⟨fun ⟨_, fits, _⟩ => fits, fun fits => ⟨rfl, fits, by simp [excluded, Model.excludes], fun parent member => ?_⟩⟩
  have only : parent ∈ (⟨.productVariant, row.variantId⟩ : (m : Model) × Model.Key m) ::
      row.storeId.toList.map fun id => ⟨Model.store, id⟩ := member
  rw [place] at only
  cases List.mem_singleton.mp only
  exact variant

private theorem view_restocking {earlier : List (Write commerce)} (orders : ∀ write ∈ earlier, write.model = .order)
    {rows : List Inventory} :
    (∀ k, k ∉ rows.map Inventory.pool → (moment.view (some (earlier ++ storing (m := .inventory) rows))).get .inventory k =
        moment.database.get .inventory k) ∧
      ∀ m, m ≠ .order → m ≠ .inventory →
        (moment.view (some (earlier ++ storing (m := .inventory) rows))).table m = moment.database.table m := by
  constructor
  · intro k apart
    have first : putsOf (S := commerce) .inventory earlier = [] :=
      putsOf_other fun write member => by
        rw [orders write member]
        nofun
    have last : erasesOf (S := commerce) .inventory earlier = [] :=
      erasesOf_other fun write member => by
        rw [orders write member]
        nofun
    refine Database.get_untouched (S := commerce) (m := .inventory) _ ?_ ?_
    · rw [Option.getD_some, erasesOf_append, last, erasesOf_storing]
      rfl
    · rw [Option.getD_some, putsOf_append, first, putsOf_storing]
      exact apart
  · intro m order inventory
    refine Database.applyAll_other _ fun write member => ?_
    rcases List.mem_append.mp member with early | late
    · rw [orders write early]
      exact order.symm
    · obtain ⟨_, _, rfl⟩ := List.mem_map.mp late
      exact inventory.symm

theorem succeeds_restock {earlier : List (Write commerce)} {rows : List Inventory}
    {post : Unit → Pending commerce → Moment commerce → Prop} (orders : ∀ write ∈ earlier, write.model = .order)
    (distinct : (lines.map Prod.fst).Nodup) (apart : ∀ line ∈ lines, (line.1, none) ∉ rows.map Inventory.pool)
    (stocked : ∀ line ∈ lines, ∃ row, Restockable moment.database tenantId line row) :
    (restock tenantId none lines).Succeeds (some (earlier ++ storing (m := .inventory) rows)) moment post ↔
      (∀ line ∈ lines, stockOf moment.database (line.1, none) + line.2 ≤ 2147483647) ∧
        post () (some (earlier ++ storing (m := .inventory) (rows ++ restocked moment.database lines)))
          (moment.ticks (2 * lines.length)) := by
  induction lines generalizing rows moment with
  | nil => simp [restock, restocked, Moment.ticks]
  | cons line rest ih =>
    obtain ⟨variantId, quantity⟩ := line
    rw [List.map_cons, List.nodup_cons] at distinct
    rw [List.forall_mem_cons] at apart stocked
    obtain ⟨⟨row, pool⟩, others⟩ := stocked
    have pooled : row.pool = (variantId, none) := (Table.find_eq_some.mp pool.found).2
    obtain ⟨variant, store⟩ := Prod.mk.inj pooled
    obtain ⟨seen, untouched⟩ := @view_restocking moment earlier orders rows
    have here := (seen _ apart.1).trans pool.found
    have only (row : Inventory) (matched : (row.variantId = variantId && row.storeId = none && row.tenantId = tenantId) = true) :
        row.pool = (variantId, none) := by
      simp only [Bool.and_eq_true, decide_eq_true_eq] at matched
      exact Prod.ext matched.1.1 matched.1.2
    have matched : (row.variantId = variantId && row.storeId = none && row.tenantId = tenantId) = true := by
      simp [variant, store, pool.tenant]
    have listed : restocked moment.database ((variantId, quantity) :: rest) =
        (InventoryService.increment quantity).apply row :: restocked moment.database rest := by
      rw [restocked, List.filterMap_cons, pool.found]
      rfl
    have distant : ∀ line ∈ rest, (line.1, none) ∉ (rows ++ [(InventoryService.increment quantity).apply row]).map Inventory.pool := by
      intro line member stored
      rw [List.map_append, List.mem_append, List.map_singleton, List.mem_singleton] at stored
      rcases stored with early | late
      · exact apart.2 line member early
      · exact distinct.1 (List.mem_map.mpr ⟨line, member, (Prod.mk.inj (late.trans pooled)).1⟩)
    have scanned : ((moment.view (some (earlier ++ storing (m := .inventory) rows))).table .inventory).rows.find? (fun row =>
        row.variantId = variantId && row.storeId = none && row.tenantId = tenantId) = some row := by
      rw [← List.head?_filter, Table.filter_only _ (Table.find_eq_some.mp here).1 matched fun other _ same => (only other same).trans pooled.symm,
        List.head?_cons]
    have fits : constrain (m := Model.inventory) (((moment.tick).view (some (earlier ++ storing (m := .inventory) rows))).applyAll
        [.put .inventory ((InventoryService.increment quantity).apply row)]) ((InventoryService.increment quantity).apply row) =
          .ok () ↔ stockOf moment.database (variantId, none) + quantity ≤ 2147483647 := by
      have present : ((((moment.tick).view (some (earlier ++ storing (m := .inventory) rows))).applyAll
          [.put .inventory ((InventoryService.increment quantity).apply row)]).get .productVariant variantId).isSome = true := by
        rw [Database.get, Database.applyAll_other _ (by simp [Write.model])]
        have kept := untouched .productVariant (by decide) (by decide)
        exact (congrArg (fun table : Table _ => (table.find variantId).isSome) kept).trans pool.variant
      refine (@constrain_pool _ ((InventoryService.increment quantity).apply row) store (variant.symm ▸ present)).trans ?_
      rw [stockOf_some pool.found]
      have least := pool.least
      have positive : 0 < quantity := pool.positive
      change Model.fitsInteger (row.quantityOnHand + quantity) = true ↔ _
      simp only [Model.fitsInteger, Bool.and_eq_true, decide_eq_true_eq]
      omega
    rw [restock, succeeds_bind, restockLine, succeeds_bind]
    refine succeeds_findFirst.trans ?_
    rw [scanned]
    simp only
    rw [succeeds_bind]
    have again : (moment.tick.view (some (earlier ++ storing (m := .inventory) rows))).get .inventory (variantId, none) = some row := here
    refine (succeeds_updateMany only again matched).trans ?_
    rw [fits, succeeds_pure, List.forall_mem_cons, and_assoc]
    refine and_congr_right fun _ => ?_
    have stepped := @ih moment.tick.tick (rows ++ [(InventoryService.increment quantity).apply row]) distinct.2 distant others
    rw [storing, List.map_append, List.map_singleton, ← List.append_assoc] at stepped
    refine stepped.trans ?_
    rw [listed, List.append_assoc, List.singleton_append, List.length_cons, Nat.mul_succ, Moment.tick_ticks, Moment.tick_ticks]
    exact Iff.rfl

/-- The rows of a pending order that no point of sale has placed. -/
structure Cancellable (db : Db) (order : Order) : Prop where
  found : db.get .order order.id = some order
  pending : order.status = .pending
  subtotal : Model.fitsBigint order.subtotalMinor = true
  customer : ∀ id, order.customerId = some id → (db.get .customer id).isSome = true
  unsold : (db.table .posSale).rows = []
  stocked : ∀ item ∈ itemsOf db order.tenantId order.id, ∃ row, Restockable db order.tenantId (item.variantId, item.quantity) row

/-- What the cancellation of an order gives back. -/
def returned (db : Db) (order : Order) : List (Id × Int) :=
  Tally.collect ((itemsOf db order.tenantId order.id).map fun item => (item.variantId, item.quantity))

theorem Cancellable.restockable (cancellable : Cancellable db order) {line : Id × Int} (member : line ∈ returned db order) :
    ∃ row, Restockable db order.tenantId line row := by
  have positive : 0 < line.2 := by
    refine @Tally.forall_collect Id Int _ _ (fun quantity => 0 < quantity) _ (fun entry listed => ?_) (fun _ _ => Int.add_pos) line member
    obtain ⟨item, inside, rfl⟩ := List.mem_map.mp listed
    obtain ⟨_, pool⟩ := cancellable.stocked item inside
    exact pool.positive
  have key := Tally.mem_keys_collect.mp (List.mem_map_of_mem (f := Prod.fst) member)
  rw [List.map_map] at key
  obtain ⟨item, inside, same⟩ := List.mem_map.mp key
  obtain ⟨row, pool⟩ := cancellable.stocked item inside
  have same : item.variantId = line.1 := same
  exact ⟨row, same ▸ pool.found, pool.tenant, pool.least, positive, same ▸ pool.variant⟩

private theorem marked (db : Db) (order : Order) (clock : Nat) (rows : List Inventory) :
    (db.applyAll ([.put .order ((cancel clock).apply order)] ++ storing (m := .inventory) rows)).get .order order.id =
      some ((cancel clock).apply order) := by
  rw [Database.applyAll_append, Database.get, Database.applyAll_other]
  · exact Database.get_put (S := commerce) db .order ((cancel clock).apply order)
  · intro write member
    obtain ⟨_, _, rfl⟩ := List.mem_map.mp member
    rintro ⟨⟩

private theorem succeeds_readSummary {pending : Pending commerce} {found : Order}
    (stored : (moment.view pending).get .order found.id = some found) (tenant : found.tenantId = tenantId) :
    (readSummary tenantId found.id).Succeeds pending moment fun _ _ _ => True := by
  have present : (((moment.view pending).table .order).rows.find? fun row =>
      row.id = found.id && row.tenantId = tenantId).isSome = true :=
    List.find?_isSome.mpr ⟨found, (Table.find_eq_some.mp stored).1, by simp [tenant]⟩
  obtain ⟨row, first⟩ := Option.isSome_iff_exists.mp present
  rw [readSummary, succeeds_bind]
  refine succeeds_findFirst.mpr ?_
  rw [first, succeeds_bind, succeeds_orThrow]
  refine ⟨row, rfl, ?_⟩
  rw [succeeds_bind]
  exact succeeds_findMany.mpr trivial

/-- The transaction restocks the pools after it has marked the order. -/
private theorem succeeds_cancelAndRestock (cancellable : Cancellable moment.database order) :
    (cancelAndRestock order.tenantId order.id).Succeeds (some []) moment (fun _ _ _ => True) ↔
      ∀ line ∈ returned moment.database order, stockOf moment.database (line.1, none) + line.2 ≤ 2147483647 := by
  have only (row : Order) (matched : (row.id = order.id && row.status = .pending && row.tenantId = order.tenantId) = true) :
      row.id = order.id := by
    simp only [Bool.and_eq_true, decide_eq_true_eq] at matched
    exact matched.1.1
  have here : (moment.tick.view (some [])).get .order order.id = some order := cancellable.found
  have admitted : constrain (m := Model.order) ((moment.tick.view (some [])).applyAll
      [.put .order ((cancel moment.clock).apply order)]) ((cancel moment.clock).apply order) = .ok () := by
    refine (@constrain_order _ ((cancel moment.clock).apply order) fun id given => ?_).mpr cancellable.subtotal
    rw [Database.get, Database.applyAll_other _ (by simp [Write.model])]
    exact cancellable.customer id given
  obtain ⟨_, untouched⟩ := @view_restocking moment.tick.tick [.put .order ((cancel moment.clock).apply order)]
    (by simp [Write.model]) []
  have orders : ∀ write ∈ [Write.put (S := commerce) Model.order ((cancel moment.clock).apply order)], write.model = Model.order := by simp [Write.model]
  rw [cancelAndRestock, succeeds_bind, succeeds_now, succeeds_bind]
  refine (succeeds_updateMany only here (by simp [cancellable.pending])).trans ?_
  rw [and_iff_right admitted, succeeds_bind, succeeds_throwIf, and_iff_right (by rfl), succeeds_bind]
  refine succeeds_findFirst.trans ?_
  have unsold : ((moment.tick.tick.view (some ([] ++ [.put .order ((cancel moment.clock).apply order)]))).table .posSale).rows = [] :=
    (congrArg Table.rows (untouched .posSale (by decide) (by decide))).trans cancellable.unsold
  rw [unsold, List.find?_nil, Option.map_none, succeeds_bind]
  refine succeeds_findMany.trans ?_
  have items : ((moment.tick.tick.tick.view (some ([] ++ [.put .order ((cancel moment.clock).apply order)]))).table .orderItem).rows.filter
      (fun row => row.orderId = order.id && row.tenantId = order.tenantId) = itemsOf moment.database order.tenantId order.id :=
    congrArg (fun table : Table _ => table.rows.filter _) (untouched .orderItem (by decide) (by decide))
  rw [items, succeeds_bind]
  have none (line : Id × Int) : (line.1, none) ∉ ([] : List Inventory).map Inventory.pool := List.not_mem_nil
  refine Iff.trans (succeeds_restock orders (Tally.nodup_collect _) (fun line _ => none line) fun line member =>
    cancellable.restockable member) ?_
  refine and_iff_left (@succeeds_readSummary order.tenantId _ _ ((cancel moment.clock).apply order) ?_ rfl)
  exact marked ..

/-- A cancellation succeeds exactly if the pools have room for what it gives back. -/
theorem succeeds_cancelOrder (cancellable : Cancellable moment.database order) :
    (cancelOrder order.tenantId order.id).Succeeds none moment (fun _ _ _ => True) ↔
      ∀ line ∈ returned moment.database order, stockOf moment.database (line.1, none) + line.2 ≤ 2147483647 := by
  have scanned : ((moment.view none).table .order).rows.find? (fun row => row.id = order.id && row.tenantId = order.tenantId) =
      some order := by
    rw [← List.head?_filter, @Table.filter_only _ _ _ _ _ order]
    · rfl
    · exact (Table.find_eq_some.mp cancellable.found).1
    · simp
    · intro other _ same
      simp only [Bool.and_eq_true, decide_eq_true_eq] at same
      exact same.1
  rw [cancelOrder, succeeds_bind]
  refine succeeds_findFirst.trans ?_
  rw [scanned, succeeds_bind, succeeds_orThrow]
  simp only [Option.some.injEq, exists_eq_left']
  rw [succeeds_bind, succeeds_throwIf, and_iff_right (by simp [cancellable.pending])]
  refine succeeds_transaction.trans ?_
  exact @succeeds_cancelAndRestock moment.tick.tick order cancellable

variable {ι : Type} {calls : ι → Call} {author : Option ι} {world : SystemWorld ι} {writes : Writes} {state : SystemState ι}

/-- Stock is adjusted, and orders are placed and cancelled. -/
def Call.trades : Call → Bool
  | .adjustScoped .. | .createOrder .. | .cancelOrder .. => true
  | _ => false

/-- Nobody but the calls acts. Statements may fail, processes stop and time pass. -/
def Secluded (_ : SystemState ι) (action : Action commerce ι) : Prop := ∀ writes, action ≠ .external writes

theorem Secluded.environment {action : Action commerce ι} (secluded : Secluded state action) : Environment state action := by
  cases action with
  | external writes => exact absurd rfl (secluded writes)
  | _ => trivial

/-- No sale is recorded, and what is ordered is in a global pool of the same tenant. -/
structure Traded (db : Db) : Prop where
  unsold : (db.table .posSale).rows = []
  stocked : ∀ id item, db.get .orderItem id = some item →
    ∃ row, db.get .inventory (item.variantId, none) = some row ∧ row.tenantId = item.tenantId

section Lawful
variable [DecidableEq ι] (trading : ∀ i, (calls i).trades = true) (allowed : lawful calls author world writes)
include trading allowed

private theorem sales_unwritten : ∀ write ∈ writes, write.model ≠ Model.posSale := by
  cases author with
  | none =>
    intro write member same
    have external := allowed write member
    rw [same] at external
    cases external
  | some i =>
    have kind := trading i
    simp only [lawful, Call.Commits] at allowed
    split at allowed
    next =>
      obtain ⟨_, adjusted⟩ := allowed
      cases adjusted <;> simp [Write.model]
    next =>
      obtain ⟨_, placement, _, rfl⟩ := allowed
      simp [Placement.writes, Write.model, or_imp, forall_and]
    next =>
      obtain ⟨_, cancellation, _, rfl⟩ := allowed
      simp [Cancellation.writes, Write.model]
    all_goals
      next call =>
        rw [call] at kind
        cases kind

private theorem items_stocked {item : OrderItem} (member : item ∈ putsOf (S := commerce) .orderItem writes) :
    ∃ row, world.database.get .inventory (item.variantId, none) = some row ∧ row.tenantId = item.tenantId := by
  cases author with
  | none =>
    rw [(external_nothing (m := .orderItem) rfl allowed).1] at member
    cases member
  | some i =>
    have kind := trading i
    simp only [lawful, Call.Commits] at allowed
    split at allowed
    next =>
      obtain ⟨_, adjusted⟩ := allowed
      cases adjusted <;> cases member
    next =>
      obtain ⟨_, placement, ordered, rfl⟩ := allowed
      rw [Placement.writes_items] at member
      obtain ⟨line, inside, rfl⟩ := List.mem_map.mp member
      have stocked := (ordered.debits line inside).stocked
      have given := ordered.lines line inside
      rw [show placement.pool = none from ordered.pool] at stocked
      refine ⟨line.stock, given.variant ▸ stocked, ?_⟩
      rw [ordered.stockTenant line inside, given.tenant, ordered.tenant]
    next =>
      obtain ⟨_, cancellation, _, rfl⟩ := allowed
      simp at member
    all_goals
      next call =>
        rw [call] at kind
        cases kind

theorem Traded.step (traded : Traded world.database) : Traded (world.database.applyAll writes) := by
  refine ⟨?_, fun id item found => ?_⟩
  · rw [Database.applyAll_other (S := commerce) (m := .posSale) _ (sales_unwritten trading allowed), traded.unsold]
  · have before : ∃ row, world.database.get .inventory (item.variantId, none) = some row ∧ row.tenantId = item.tenantId := by
      rcases Database.get_found _ found with stored | there
      · exact items_stocked trading allowed stored
      · exact traded.stocked id item there
    obtain ⟨old, pooled, tenant⟩ := before
    obtain ⟨new, now, same | follows⟩ := keepsInventory.row (.inr allowed) pooled
    · exact ⟨new, now, same ▸ tenant⟩
    · exact ⟨new, now, Eq.trans follows tenant⟩

end Lawful

variable [DecidableEq ι] {sha256 : String → String} {shop : Shop}

theorem Shop.traded (trading : ∀ i, (calls i).trades = true) (grows : Grows (lawful calls) (shop.start ι) world) :
    Traded world.database := by
  refine Grows.database (fun db : Db => Traded db) grows ⟨shop.unused _ rfl, fun id item found => ?_⟩
    fun _ _ _ _ traded allowed => traded.step trading allowed
  rw [shop.get_unused rfl] at found
  cases found

theorem Secluded.meets (reached : State.Reaches Secluded (shop.system sha256 calls) state) :
    state.Meets Model.external shop.database := by
  refine State.Reaches.meets reached (shop.valid sha256 calls) (fun _ writes secluded => secluded writes rfl)
    (fun _ _ _ allowed => allowed.internal) (State.Meets.initial shop.unused)

omit [DecidableEq ι] in
private theorem item_positive {base : Db} {item : OrderItem} (meets : Meets (m := Model.orderItem) Model.external base item) :
    0 < item.quantity := by
  have checked := meets.checked
  change (decide (0 < item.quantity) && _ && _ && _ && _) = true at checked
  simp only [Bool.and_eq_true, decide_eq_true_eq] at checked
  exact checked.1.1.1.1

theorem Secluded.cancellable (trading : ∀ i, (calls i).trades = true)
    (reached : State.Reaches Secluded (shop.system sha256 calls) state)
    (found : state.world.database.get .order order.id = some order) (pending : order.status = .pending) :
    Cancellable state.world.database order := by
  have grows := (Shop.Reaches.valid (State.Reaches.weaken reached fun _ _ => Secluded.environment)).2
  have traded := Shop.traded trading grows
  have meets := Secluded.meets reached
  have valid := meets.stored .order rfl order (Table.find_eq_some.mp found).1
  have kept {m : Model} (external : Model.external m = true) (k : Model.Key m)
      (present : (shop.database.get m k).isSome = true) : (state.world.database.get m k).isSome = true := by
    rwa [Database.get, meets.stays m external]
  refine ⟨found, pending, valid.checked, fun id given => ?_, traded.unsold, fun item member => ?_⟩
  · refine @kept .customer rfl id (valid.parents ⟨.customer, id⟩ ?_ rfl)
    change (⟨.customer, id⟩ : (m : Model) × Model.Key m) ∈ order.customerId.toList.map fun id => ⟨Model.customer, id⟩
    simp [given]
  · obtain ⟨inside, same⟩ := List.mem_filter.mp member
    simp only [Bool.and_eq_true, decide_eq_true_eq] at same
    have checked := meets.stored .orderItem rfl item inside
    obtain ⟨row, pooled, tenant⟩ := traded.stocked item.id item (Table.find_eq_some.mpr ⟨inside, rfl⟩)
    refine ⟨row, pooled, tenant.trans same.2, Shop.nonnegative grows pooled, ?_, @kept .productVariant rfl _ ?_⟩
    · exact item_positive checked
    · exact checked.parents ⟨.productVariant, item.variantId⟩ (by simp [commerce, Model.parents]) rfl

/-- The order can be cancelled in this state. -/
def Cancels (state : SystemState ι) (order : Order) : Prop :=
  ∃ summary, ((cancelOrder order.tenantId order.id).evaluate none state.world.moment).1 = .ok summary

/-- The pools have room for the units of the order. -/
def RoomFor (db : Db) (order : Order) : Prop :=
  ∀ item ∈ itemsOf db order.tenantId order.id,
    stockOf db (item.variantId, none) + orderedOf item.variantId db order ≤ 2147483647

theorem roomFor_iff : (∀ line ∈ returned db order, stockOf db (line.1, none) + line.2 ≤ 2147483647) ↔ RoomFor db order := by
  constructor
  · intro room item member
    refine room (item.variantId, orderedOf item.variantId db order) (Tally.mem_collect.mpr ⟨?_, rfl⟩)
    rw [List.map_map]
    exact List.mem_map_of_mem (f := fun item : OrderItem => item.variantId) member
  · rintro room ⟨variantId, quantity⟩ member
    obtain ⟨key, rfl⟩ := Tally.mem_collect.mp member
    rw [List.map_map] at key
    obtain ⟨item, inside, rfl⟩ := List.mem_map.mp key
    exact room item inside

private theorem stockOf_le (grows : Grows (lawful calls) (shop.start ι) world) (variantId : Id) (storeId : Option Id) :
    stockOf world.database (variantId, storeId) ≤ stocked variantId world.database := by
  have least : ∀ quantity ∈ (world.database.table .inventory).rows.map fun row : Inventory =>
      if row.variantId = variantId then row.quantityOnHand else 0, 0 ≤ quantity := by
    intro quantity listed
    obtain ⟨row, member, rfl⟩ := List.mem_map.mp listed
    have positive := Shop.nonnegative grows (Table.find_eq_some.mpr ⟨member, rfl⟩)
    split
    · exact positive
    · rfl
  cases found : world.database.get .inventory (variantId, storeId) with
  | none =>
    rw [stockOf_none found]
    exact List.sum_nonneg least
  | some row =>
    obtain ⟨member, pool⟩ := Table.find_eq_some.mp found
    rw [stockOf_some found]
    refine List.single_le_sum least _ (List.mem_map.mpr ⟨row, member, if_pos ?_⟩)
    exact congrArg Prod.fst pool

/-- An order has at most the units that all orders have that are not cancelled. -/
private theorem orderedOf_le (reached : State.Reaches Secluded (shop.system sha256 calls) state) (variantId : Id)
    (found : state.world.database.get .order order.id = some order) (pending : order.status = .pending) :
    orderedOf variantId state.world.database order ≤ sold variantId state.world.database := by
  have meets := Secluded.meets reached
  have least (order : Order) : 0 ≤ orderedOf variantId state.world.database order := by
    refine List.sum_nonneg fun quantity listed => ?_
    obtain ⟨entry, inside, rfl⟩ := List.mem_map.mp listed
    obtain ⟨item, member, rfl⟩ := List.mem_map.mp inside
    have positive := item_positive (meets.stored .orderItem rfl item (List.mem_filter.mp member).1)
    split
    · exact Int.le_of_lt positive
    · rfl
  refine List.single_le_sum (fun quantity listed => ?_) _
    (List.mem_map.mpr ⟨order, (Table.find_eq_some.mp found).1, if_neg (by simp [pending])⟩)
  obtain ⟨order, _, rfl⟩ := List.mem_map.mp listed
  rw [liveUnits]
  split
  · rfl
  · exact least order

/-- In every state that adjustments, orders and cancellations reach, a pending order
can be cancelled exactly if the global pools have room for its units. They have, as
long as the adjustments of its variants do not add up to more than the column holds. -/
theorem cancellation_possible (trading : ∀ i, (calls i).trades = true)
    (reached : State.Reaches Secluded (shop.system sha256 calls) state) {order : Order}
    (found : state.world.database.get .order order.id = some order) (pending : order.status = .pending) :
    (Cancels state order ↔ RoomFor state.world.database order) ∧
      ((∀ item ∈ itemsOf state.world.database order.tenantId order.id,
        adjustments calls item.variantId state.world ≤ 2147483647) → Cancels state order) := by
  have cancels : Cancels state order ↔ RoomFor state.world.database order := by
    have succeeds := @succeeds_cancelOrder state.world.moment order (Secluded.cancellable trading reached found pending)
    rw [succeeds_iff] at succeeds
    simp only [and_true] at succeeds
    exact succeeds.trans roomFor_iff
  refine ⟨cancels, fun bounded => cancels.mpr fun item member => ?_⟩
  have reaches := State.Reaches.weaken reached fun _ _ => Secluded.environment
  calc stockOf state.world.database (item.variantId, none) + orderedOf item.variantId state.world.database order
      ≤ stocked item.variantId state.world.database + sold item.variantId state.world.database :=
        Int.add_le_add (stockOf_le (Shop.Reaches.valid reaches).2 _ _) (orderedOf_le reached _ found pending)
    _ = adjustments calls item.variantId state.world := (Shop.conserved (Shop.Reaches.valid reaches).2).stock _
    _ ≤ 2147483647 := bounded item member

/-- The pool is full, one unit is ordered, and one unit is put in its place. -/
def refilled : Fin 3 → Call
  | 0 => .adjustScoped 0 .global ⟨1, 2147483647⟩
  | 1 => .createOrder 0 7 { items := some [⟨1, 1⟩] }
  | 2 => .adjustScoped 0 .global ⟨1, 1⟩

omit [DecidableEq ι] in
private theorem Secluded.undisturbed {action : Action commerce ι} (undisturbed : action.undisturbed = true) :
    Secluded state action := by
  rintro writes rfl
  cases undisturbed

private def refused (state : SystemState (Fin 3)) (order : Order) : Bool :=
  order.status = .pending && decide (((cancelOrder order.tenantId order.id).evaluate none state.world.moment).1 =
    .error (.database .checkViolation))

/-- The database refuses to cancel a pending order, whose units the pool has no room for. -/
theorem cancellation_refused : (∀ i, (refilled i).trades = true) ∧ ∃ state order, State.Reaches Secluded (Shop.demo.system (fun _ => "hash") refilled) state ∧
      state.world.database.get .order order.id = some order ∧ order.status = .pending ∧
      ((cancelOrder order.tenantId order.id).evaluate none state.world.moment).1 = .error (.database .checkViolation) ∧
      ¬ Cancels state order := by
  have executed : ((Shop.demo.system (fun _ => "hash") refilled).run (runs 0 4 ++ runs 1 9 ++ runs 2 3)).any (fun state =>
      (state.world.database.table .order).rows.any (refused state)) = true := by decide +kernel
  obtain ⟨state, reached, seen⟩ := State.Reaches.computed executed rfl
  obtain ⟨order, member, holds⟩ := List.any_eq_true.mp seen
  simp only [refused, Bool.and_eq_true, decide_eq_true_eq] at holds
  obtain ⟨pending, failed⟩ := holds
  refine ⟨by decide, state, order, State.Reaches.weaken reached fun _ _ => Secluded.undisturbed,
    Table.find_eq_some.mpr ⟨member, rfl⟩, pending, failed, fun ⟨_, succeeded⟩ => ?_⟩
  cases failed.symm.trans succeeded

private def placed (state : SystemState (Fin 3)) (order : Order) : Bool :=
  order.status = .pending && (itemsOf state.world.database order.tenantId order.id).all fun item =>
    stockOf state.world.database (item.variantId, none) + orderedOf item.variantId state.world.database order ≤ 2147483647

/-- Before the pool is refilled, the order can be cancelled. -/
theorem cancellation_possible_refilled : ∃ state order,
    State.Reaches Secluded (Shop.demo.system (fun _ => "hash") refilled) state ∧ order.status = .pending ∧ Cancels state order := by
  have executed : ((Shop.demo.system (fun _ => "hash") refilled).run (runs 0 4 ++ runs 1 9)).any (fun state =>
      (state.world.database.table .order).rows.any (placed state)) = true := by decide +kernel
  obtain ⟨state, reached, seen⟩ := State.Reaches.computed executed rfl
  obtain ⟨order, member, holds⟩ := List.any_eq_true.mp seen
  simp only [placed, Bool.and_eq_true, decide_eq_true_eq, List.all_eq_true] at holds
  obtain ⟨pending, room⟩ := holds
  have secluded : State.Reaches Secluded (Shop.demo.system (fun _ => "hash") refilled) state :=
    State.Reaches.weaken reached fun _ _ => Secluded.undisturbed
  refine ⟨state, order, secluded, pending, ?_⟩
  exact (cancellation_possible (by decide) secluded (Table.find_eq_some.mpr ⟨member, rfl⟩) pending).1.mpr room

end BusinessPlatform
