import BusinessPlatform.Proofs.Ledger
import BusinessPlatform.Proofs.StockMovement

/-! Conservation of stock. What is in the pools and in live orders is what the
adjustments have brought in, and a cancelled order has been restocked once. -/

namespace BusinessPlatform
open Engine InventoryService OrderService PaymentService

variable {ι : Type} {db : Db} {writes : Writes} {world : SystemWorld ι} {label : Label commerce ι} {variantId orderId : Id}

/-- The stock of a variant in all its pools. -/
def stocked (variantId : Id) (db : Db) : Int :=
  (db.table .inventory).total fun row => if row.variantId = variantId then row.quantityOnHand else 0

/-- The units of a variant in an order. -/
def orderedOf (variantId : Id) (db : Db) (order : Order) : Int :=
  amountOf variantId ((itemsOf db order.tenantId order.id).map fun item => (item.variantId, item.quantity))

def liveUnits (variantId : Id) (db : Db) (order : Order) : Int :=
  if order.status = .cancelled then 0 else orderedOf variantId db order

/-- The units of a variant in all orders that are not cancelled. -/
def sold (variantId : Id) (db : Db) : Int := (db.table .order).total (liveUnits variantId db)

/-- The delta of a variant that an event has applied for its call. -/
def appliedDelta (calls : ι → Call) (variantId : Id) (event : Event commerce ι) : Int :=
  match event.author.map calls with
  | some (.adjustScoped _ _ dto) => if dto.variantId = variantId && !event.writes.isEmpty then dto.delta else 0
  | _ => 0

/-- The deltas of all adjustments that have been applied. -/
def adjustments (calls : ι → Call) (variantId : Id) (world : SystemWorld ι) : Int :=
  (world.trace.map (appliedDelta calls variantId)).sum

/-- The event is the commit of a call that cancels the order. -/
def cancels (calls : ι → Call) (orderId : Id) (event : Event commerce ι) : Bool :=
  match event.author.map calls with
  | some (.cancelOrder _ id) => id = orderId && !event.writes.isEmpty
  | _ => false

def isCancelled (db : Db) (orderId : Id) : Bool := (db.get .order orderId).any fun order => order.status = .cancelled

theorem stocked_applyAll (kept : erasesOf (S := commerce) .inventory writes = [])
    (distinct : ((putsOf (S := commerce) .inventory writes).map Inventory.pool).Nodup) :
    stocked variantId (db.applyAll writes) = stocked variantId db +
      ((putsOf (S := commerce) .inventory writes).map fun row =>
        if row.variantId = variantId then row.quantityOnHand - stockOf db row.pool else 0).sum := by
  have moved := (db.table .inventory).total_putAll distinct
    fun row => if row.variantId = variantId then row.quantityOnHand else 0
  rw [← Database.applyAll_table _ kept] at moved
  have split : ((putsOf (S := commerce) .inventory writes).map fun row =>
        if row.variantId = variantId then row.quantityOnHand - stockOf db row.pool else 0).sum +
      ((putsOf (S := commerce) .inventory writes).map fun row => (((db.table .inventory).find row.pool).map
        fun row => if row.variantId = variantId then row.quantityOnHand else 0).getD 0).sum =
      ((putsOf (S := commerce) .inventory writes).map fun row =>
        if row.variantId = variantId then row.quantityOnHand else 0).sum := by
    rw [← List.sum_map_add]
    refine congrArg List.sum (List.map_congr_left fun row _ => ?_)
    cases found : (db.table .inventory).find row.pool with
    | none => simp [stockOf_none found]
    | some old =>
      have variant : old.variantId = row.variantId := congrArg Prod.fst (Table.find_eq_some.mp found).2
      simp only [Option.map_some, Option.getD_some, variant, stockOf_some found]
      split <;> omega
  refine add_right_cancel (moved.trans ?_)
  rw [stocked, add_assoc, ← split]
  rfl

theorem stocked_placed {placement : Placement} (placed : Placed db placement) :
    stocked variantId (db.applyAll placement.writes) = stocked variantId db - amountOf variantId placement.entries := by
  rw [stocked_applyAll (by simp) placed.pools, Placement.writes_inventory, List.map_map]
  have negated : (placement.lines.map ((fun row : Inventory =>
      if row.variantId = variantId then row.quantityOnHand - stockOf db row.pool else 0) ∘ fun line => line.debited)) =
      (placement.lines.map fun line => if line.variantId = variantId then line.quantity else 0).map Neg.neg := by
    rw [List.map_map]
    refine List.map_congr_left fun line member => ?_
    have valid := placed.debits line member
    have variant : line.debited.variantId = line.variantId := congrArg Prod.fst valid.pool
    have before : stockOf db line.debited.pool = line.stock.quantityOnHand := by
      rw [show line.debited.pool = line.stock.pool from rfl, valid.pool, stockOf_some valid.stocked]
    simp only [Function.comp, variant, before]
    split
    next => simp [Debit.debited, decrement]
    next => rfl
  rw [negated, ← List.sum_neg, ← sub_eq_add_neg, Placement.entries, amountOf, List.map_map]
  rfl

theorem stocked_cancelled {tenantId orderId : Id} {cancellation : Cancellation}
    (restocked : Restocked tenantId orderId db cancellation) :
    stocked variantId (db.applyAll cancellation.writes) =
      stocked variantId db + amountOf variantId cancellation.entries := by
  rw [stocked_applyAll (by simp) restocked.pools, Cancellation.writes_inventory, List.map_map, Cancellation.entries, amountOf,
    List.map_map]
  refine congrArg (stocked variantId db + ·) (congrArg List.sum (List.map_congr_left fun restock member => ?_))
  have pooled := (restocked.restocks restock member).pooled
  have variant : restock.row.variantId = restock.variantId := congrArg Prod.fst pooled
  simp only [Function.comp, variant, pooled, restocked.quantity member, add_sub_cancel_left]
  rfl

theorem stocked_adjusted {tenantId : Id} {scope : InventoryScope} {dto : AdjustInventoryDto}
    (adjusted : Adjusted tenantId scope dto db writes) :
    stocked variantId (db.applyAll writes) = stocked variantId db + if dto.variantId = variantId then dto.delta else 0 := by
  cases adjusted with
  | moved row found tenant enough fits =>
    have key : row.pool = (dto.variantId, scope.storeId) := (Table.find_eq_some.mp found).2
    have variant : ((increment dto.delta).apply row).variantId = dto.variantId := congrArg Prod.fst key
    have before : stockOf db ((increment dto.delta).apply row).pool = row.quantityOnHand := by
      rw [show ((increment dto.delta).apply row).pool = _ from key, stockOf_some found]
    rw [stocked_applyAll (by simp) (by simp)]
    simp only [putsOf_put_same, putsOf_nil, List.map_cons, List.map_nil, List.sum_cons, List.sum_nil, variant, before, add_zero]
    simp [increment]
  | opened row absent key tenant quantity fits =>
    have variant : row.variantId = dto.variantId := congrArg Prod.fst key
    rw [stocked_applyAll (by simp) (by simp)]
    simp [variant, key, stockOf_none absent, quantity]

theorem stocked_still (kept : erasesOf (S := commerce) .inventory writes = [])
    (stock : putsOf (S := commerce) .inventory writes = []) :
    stocked variantId (db.applyAll writes) = stocked variantId db := by
  rw [stocked_applyAll kept (by simp [stock]), stock]
  simp

theorem Restocked.units {tenantId orderId : Id} {cancellation : Cancellation}
    (restocked : Restocked tenantId orderId db cancellation) :
    orderedOf variantId db cancellation.order = amountOf variantId cancellation.entries := by
  obtain ⟨items, listed, entries⟩ := restocked.items
  have key : cancellation.order.id = orderId := (Table.find_eq_some.mp restocked.found).2
  rw [Cancellation.entries, entries, Tally.amountOf_collect, orderedOf, restocked.tenant, key]
  exact amountOf_perm (listed.symm.map _) _

theorem orderedOf_placed {placement : Placement} (placed : Placed db placement) (ordered : ItemsOrdered db) :
    orderedOf variantId (db.applyAll placement.writes) placement.order = amountOf variantId placement.entries := by
  rw [orderedOf, amountOf_perm ((itemsOf_placed placed (ordered.unordered placed.fresh _)).map _), List.map_map, Placement.entries]
  refine congrArg _ (List.map_congr_left fun line member => ?_)
  exact Prod.ext (placed.lines line member).variant (placed.lines line member).quantity

section Orders
variable [DecidableEq ι] {calls : ι → Call}

/-- The items of the orders that exist never change, so only the stored orders
move the sum. -/
theorem sold_applyAll (variantId : Id) (allowed : lawful calls label.author world writes)
    (distinct : ((putsOf (S := commerce) .order writes).map Order.id).Nodup) :
    sold variantId (world.database.applyAll writes) +
        ((putsOf (S := commerce) .order writes).map fun row =>
          ((world.database.get .order row.id).map (liveUnits variantId world.database)).getD 0).sum =
      sold variantId world.database +
        ((putsOf (S := commerce) .order writes).map (liveUnits variantId (world.database.applyAll writes))).sum := by
  have same (order : Order) (found : world.database.get .order order.id = some order) :
      liveUnits variantId (world.database.applyAll writes) order = liveUnits variantId world.database order := by
    have step : Grows (lawful calls) world (world.record label writes) := .single (.event label writes (.inr allowed))
    have items : itemsOf (world.database.applyAll writes) order.tenantId order.id = _ :=
      Grows.items step order.tenantId (Option.isSome_iff_exists.mpr ⟨order, found⟩)
    simp only [liveUnits, orderedOf, items]
  have moved := (world.database.table .order).total_putAll distinct (liveUnits variantId (world.database.applyAll writes))
  rw [← Database.applyAll_table _ allowed.effect.order.1] at moved
  have before : (world.database.table .order).total (liveUnits variantId (world.database.applyAll writes)) =
      sold variantId world.database :=
    Table.total_congr _ fun order member => same order (Table.find_eq_some.mpr ⟨member, rfl⟩)
  rw [before] at moved
  refine Eq.trans ?_ moved
  refine congrArg (sold variantId (world.database.applyAll writes) + ·) (congrArg List.sum (List.map_congr_left fun row _ => ?_))
  change ((world.database.get .order row.id).map _).getD 0 = ((world.database.get .order row.id).map _).getD 0
  cases found : world.database.get .order row.id with
  | none => rfl
  | some old =>
    have key : old.id = row.id := (Table.find_eq_some.mp found).2
    exact (same old (key.symm ▸ found)).symm

theorem sold_placed {placement : Placement} (allowed : lawful calls label.author world placement.writes)
    (placed : Placed world.database placement) (ordered : ItemsOrdered world.database) :
    sold variantId (world.database.applyAll placement.writes) =
      sold variantId world.database + amountOf variantId placement.entries := by
  have moved := sold_applyAll variantId allowed (by simp)
  have units : liveUnits variantId (world.database.applyAll placement.writes) placement.order =
      amountOf variantId placement.entries := by
    rw [liveUnits, if_neg (by simp [placed.pending]), orderedOf_placed placed ordered]
  simpa [placed.fresh, units] using moved

theorem sold_cancelled (variantId : Id) {tenantId orderId : Id} {cancellation : Cancellation}
    (allowed : lawful calls label.author world cancellation.writes)
    (restocked : Restocked tenantId orderId world.database cancellation) :
    sold variantId (world.database.applyAll cancellation.writes) + amountOf variantId cancellation.entries =
      sold variantId world.database := by
  have moved := sold_applyAll variantId allowed (by simp)
  have key : cancellation.order.id = orderId := (Table.find_eq_some.mp restocked.found).2
  have before : liveUnits variantId world.database cancellation.order = amountOf variantId cancellation.entries := by
    rw [liveUnits, if_neg (by simp [restocked.pending]), restocked.units]
  have found : world.database.get .order ((OrderService.cancel cancellation.now).apply cancellation.order).id =
      some cancellation.order := by
    rw [show ((OrderService.cancel cancellation.now).apply cancellation.order).id = orderId from key, restocked.found]
  have after : liveUnits variantId (world.database.applyAll cancellation.writes)
      ((OrderService.cancel cancellation.now).apply cancellation.order) = 0 := if_pos rfl
  simpa [found, before, after] using moved

theorem sold_paid {order : Order} (allowed : lawful calls label.author world writes)
    (found : world.database.get .order order.id = some order) (pending : order.status = .pending)
    (orders : putsOf (S := commerce) .order writes = [(setOrder .paid).apply order]) :
    sold variantId (world.database.applyAll writes) = sold variantId world.database := by
  have moved := sold_applyAll variantId allowed (by simp [orders])
  have step : Grows (lawful calls) world (world.record label writes) := .single (.event label writes (.inr allowed))
  have items : itemsOf (world.database.applyAll writes) order.tenantId order.id = _ :=
    Grows.items step order.tenantId (Option.isSome_iff_exists.mpr ⟨order, found⟩)
  have before : liveUnits variantId world.database order = orderedOf variantId world.database order :=
    if_neg (by simp [pending])
  have after : liveUnits variantId (world.database.applyAll writes) ((setOrder .paid).apply order) =
      orderedOf variantId world.database order := by
    rw [liveUnits, if_neg nofun]
    change amountOf variantId ((itemsOf _ order.tenantId order.id).map _) = _
    rw [items]
    rfl
  have there : world.database.get .order ((setOrder .paid).apply order).id = some order := found
  simpa [orders, there, before, after] using moved

end Orders

section Counted
variable {calls : ι → Call} {event : Event commerce ι}

theorem appliedDelta_empty (empty : event.writes = []) : appliedDelta calls variantId event = 0 := by
  unfold appliedDelta
  split <;> simp [empty]

theorem cancels_empty (empty : event.writes = []) : cancels calls orderId event = false := by
  unfold cancels
  split <;> simp [empty]

theorem appliedDelta_plain (plain : ∀ i, event.author = some i → (calls i).plain = true) :
    appliedDelta calls variantId event = 0 := by
  unfold appliedDelta
  cases author : event.author with
  | none => rfl
  | some i =>
    have kind := plain i author
    cases call : calls i <;> simp_all [Call.plain]

theorem cancels_plain (plain : ∀ i, event.author = some i → (calls i).plain = true) :
    cancels calls orderId event = false := by
  unfold cancels
  cases author : event.author with
  | none => rfl
  | some i =>
    have kind := plain i author
    cases call : calls i <;> simp_all [Call.plain]

end Counted

theorem isCancelled_unwritten (kept : erasesOf (S := commerce) .order writes = [])
    (unwritten : putsOf (S := commerce) .order writes = []) :
    isCancelled (db.applyAll writes) orderId = isCancelled db orderId := by
  rw [isCancelled, Database.get_unwritten (S := commerce) (m := .order) db kept unwritten, isCancelled]

theorem isCancelled_single {row : Order} (kept : erasesOf (S := commerce) .order writes = [])
    (written : putsOf (S := commerce) .order writes = [row]) :
    isCancelled (db.applyAll writes) orderId =
      if row.id = orderId then decide (row.status = .cancelled) else isCancelled db orderId := by
  rw [isCancelled, Database.get_single (S := commerce) (m := .order) db kept written]
  change (if row.id = orderId then some row else db.get .order orderId).any _ = _
  split <;> rfl

variable [DecidableEq ι] {calls : ι → Call}

structure Conserved (calls : ι → Call) (world : SystemWorld ι) : Prop where
  stock : ∀ variantId, stocked variantId world.database + sold variantId world.database = adjustments calls variantId world
  restocked : ∀ orderId, (world.trace.filter (cancels calls orderId)).length =
    if isCancelled world.database orderId then 1 else 0

omit [DecidableEq ι] in
private theorem Conserved.plain (conserved : Conserved calls world)
    (plain : ∀ i, label.author = some i → (calls i).plain = true)
    (stock : ∀ variantId, stocked variantId (world.database.applyAll writes) + sold variantId (world.database.applyAll writes) =
      stocked variantId world.database + sold variantId world.database)
    (cancelled : ∀ orderId, isCancelled (world.database.applyAll writes) orderId = isCancelled world.database orderId) :
    Conserved calls (world.record label writes) where
  stock variantId := by
    rw [World.record_database, stock, conserved.stock, adjustments, adjustments, World.record_trace, List.map_cons,
      List.sum_cons, appliedDelta_plain plain, zero_add]
  restocked orderId := by
    have uncounted : cancels calls orderId ⟨label, world.database, writes⟩ = false := cancels_plain plain
    rw [World.record_database, cancelled, ← conserved.restocked, World.record_trace,
      List.filter_cons_of_neg (by simp [uncounted])]

theorem Conserved.event (conserved : Conserved calls world) (ordered : ItemsOrdered world.database)
    (allowed : lawful calls label.author world writes) : Conserved calls (world.record label writes) := by
  have kept (m : Model) (inventory : m = .inventory ∨ m = .order) : erasesOf (S := commerce) m writes = [] := by
    rcases inventory with rfl | rfl
    · exact allowed.effect.inventory.1
    · exact allowed.effect.order.1
  cases allowed.movement with
  | still plain orders stock =>
    refine conserved.plain plain (fun variantId => ?_) fun orderId => isCancelled_unwritten (kept _ (.inr rfl)) orders
    have same := sold_applyAll variantId allowed (by simp [orders])
    rw [orders] at same
    simp only [List.map_nil, List.sum_nil, add_zero] at same
    rw [stocked_still (kept _ (.inl rfl)) stock, same]
  | paid plain order found pending orders stock =>
    refine conserved.plain plain (fun variantId => ?_) fun orderId => ?_
    · rw [stocked_still (kept _ (.inl rfl)) stock, sold_paid allowed found pending orders]
    · rw [isCancelled_single (kept _ (.inr rfl)) orders]
      split
      next same =>
        have there : world.database.get .order orderId = some order := same ▸ found
        simp [isCancelled, there, pending, setOrder]
      next => rfl
  | placed plain placement placed written =>
    subst written
    refine conserved.plain plain (fun variantId => ?_) fun orderId => ?_
    · rw [stocked_placed placed, sold_placed allowed placed ordered]
      omega
    · rw [isCancelled_single (kept _ (.inr rfl)) (Placement.writes_order _)]
      split
      next same => simp [isCancelled, ← same, placed.fresh, placed.pending]
      next => rfl
  | @adjusted i author tenantId scope dto call own adjusted =>
    have orders : putsOf (S := commerce) .order writes = [] := by cases adjusted <;> simp
    have filled : writes.isEmpty = false := by cases adjusted <;> rfl
    constructor
    · intro variantId
      have same := sold_applyAll variantId allowed (by simp [orders])
      rw [orders] at same
      simp only [List.map_nil, List.sum_nil, add_zero] at same
      have applied : appliedDelta calls variantId ⟨label, world.database, writes⟩ =
          if dto.variantId = variantId then dto.delta else 0 := by simp [appliedDelta, author, call, filled]
      have before := conserved.stock variantId
      rw [World.record_database, same, stocked_adjusted adjusted, adjustments, World.record_trace, List.map_cons,
        List.sum_cons, applied, ← adjustments, ← before]
      omega
    · intro orderId
      have uncounted : cancels calls orderId ⟨label, world.database, writes⟩ = false := by simp [cancels, author, call]
      rw [World.record_database, isCancelled_unwritten (kept _ (.inr rfl)) orders, ← conserved.restocked, World.record_trace,
        List.filter_cons_of_neg (by simp [uncounted])]
  | @cancelled i author tenantId id call own cancellation cancels written =>
    subst written
    have restocked := cancels.toRestocked
    have key : cancellation.order.id = id := (Table.find_eq_some.mp restocked.found).2
    constructor
    · intro variantId
      have applied : appliedDelta calls variantId ⟨label, world.database, cancellation.writes⟩ = 0 := by
        simp [appliedDelta, author, call]
      have before := conserved.stock variantId
      have moved := sold_cancelled variantId allowed restocked
      rw [World.record_database, stocked_cancelled restocked, adjustments, World.record_trace, List.map_cons,
        List.sum_cons, applied, ← adjustments, ← before]
      omega
    · intro orderId
      have counted : BusinessPlatform.cancels calls orderId ⟨label, world.database, cancellation.writes⟩ = decide (id = orderId) := by
        simp [BusinessPlatform.cancels, author, call, Cancellation.writes]
      have before := conserved.restocked orderId
      rw [World.record_database, isCancelled_single (kept _ (.inr rfl)) (Cancellation.writes_order _), World.record_trace]
      change _ = if (if cancellation.order.id = orderId then _ else _) = true then 1 else 0
      rw [key]
      by_cases same : id = orderId
      · subst same
        have pending : isCancelled world.database id = false := by simp [isCancelled, restocked.found, restocked.pending]
        rw [List.filter_cons_of_pos (by simp [counted]), List.length_cons, before, pending, if_pos rfl]
        rfl
      · rw [List.filter_cons_of_neg (by simp [counted, same]), before, if_neg same]

theorem Shop.conserved {shop : Shop} (grows : Grows (lawful calls) (shop.start ι) world) : Conserved calls world := by
  refine Grows.invariant (Conserved calls) grows ⟨fun variantId => ?_, fun orderId => ?_⟩
    (fun _ _ _ grown conserved allowed => conserved.event (Shop.itemsOrdered grown) allowed)
    (fun w label conserved => ⟨fun variantId => ?_, fun orderId => ?_⟩) fun _ _ conserved => ⟨conserved.stock, conserved.restocked⟩
  · simp [stocked, sold, Table.total, shop.unused .inventory rfl, shop.unused .order rfl, adjustments]
  · simp [isCancelled, shop.get_unused (m := .order) rfl]
  · rw [World.record_database, Database.applyAll_nil, conserved.stock, adjustments, adjustments, World.record_trace,
      List.map_cons, List.sum_cons, appliedDelta_empty rfl, zero_add]
  · have uncounted : cancels calls orderId ⟨label, w.database, []⟩ = false := cancels_empty rfl
    rw [World.record_database, Database.applyAll_nil, ← conserved.restocked, World.record_trace,
      List.filter_cons_of_neg (by simp [uncounted])]

theorem Effect.fits {stamp : Nat} (effect : Effect stamp db writes) :
    ∀ row ∈ putsOf (S := commerce) .inventory writes, Model.fitsInteger row.quantityOnHand = true := by
  cases effect with
  | external foreign => simp [(external_nothing (m := .inventory) rfl foreign).1]
  | adjusted adjusted =>
    cases adjusted with
    | moved row found tenant enough fits => simpa [increment] using fits
    | opened row absent pool tenant quantity fits => simpa [quantity] using fits
  | placed placed =>
    intro row member
    rw [Placement.writes_inventory] at member
    obtain ⟨line, inside, rfl⟩ := List.mem_map.mp member
    exact (placed.debits line inside).fits
  | cancelled restocked =>
    intro row member
    rw [Cancellation.writes_inventory] at member
    obtain ⟨restock, inside, rfl⟩ := List.mem_map.mp member
    exact (restocked.restocks restock inside).fits
  | captured captured => cases captured; simp
  | markedFailed failed => cases failed; simp
  | operated kind operated => cases operated; simp
  | cart step =>
    cases step with
    | discarded cart found => simp [discardWrites]
    | _ => simp
  | _ => simp

theorem Shop.nonnegative {shop : Shop} (grows : Grows (lawful calls) (shop.start ι) world) {pool : Pool} {row : Inventory}
    (found : world.database.get .inventory pool = some row) : 0 ≤ row.quantityOnHand := by
  have fits : ∀ pool row, world.database.get .inventory pool = some row → Model.fitsInteger row.quantityOnHand = true := by
    refine Grows.database (fun db : Db => ∀ pool row, db.get .inventory pool = some row →
      Model.fitsInteger row.quantityOnHand = true) grows (fun pool row found => ?_) fun w label writes _ fits allowed pool row found => ?_
    · rw [shop.get_unused rfl] at found
      cases found
    · rcases Database.get_found _ found with stored | there
      · exact allowed.effect.fits row stored
      · exact fits pool row there
  exact of_decide_eq_true (Bool.and_eq_true .. ▸ fits pool row found).1

theorem adjusts_once {shop : Shop} (grows : Grows (lawful calls) (shop.start ι) world) {i : ι} {tenantId : Id}
    {scope : InventoryScope} {dto : AdjustInventoryDto} (call : calls i = .adjustScoped tenantId scope dto) :
    (world.own i).length ≤ 1 := by
  refine Grows.invariant (fun world => (world.own i).length ≤ 1) grows (Nat.zero_le _) (fun w label writes _ once allowed => ?_)
    (fun w label once => by rwa [World.own_record_empty]) fun _ _ once => once
  by_cases author : label.author = some i
  · rw [author] at allowed
    simp only [lawful, call, Call.Commits] at allowed
    have filled : writes ≠ [] := by
      rintro rfl
      cases allowed.2
    rw [World.own_record_same allowed.1 author filled]
    exact Nat.le_refl _
  · rwa [World.own_record_other i w author]

variable {sha256 : String → String} {shop : Shop} {state : SystemState ι}

/-- Pools and live orders together hold what adjustments have brought in, no pool
is negative, a cancelled order has been restocked by exactly one commit with
exactly its units, and an adjustment is applied once or not at all. -/
theorem stock_conserved (reached : shop.Reaches sha256 calls state) :
    (∀ variantId, stocked variantId state.world.database + sold variantId state.world.database =
      adjustments calls variantId state.world) ∧
    (∀ pool row, state.world.database.get .inventory pool = some row → 0 ≤ row.quantityOnHand) ∧
    (∀ orderId, (state.world.trace.filter (cancels calls orderId)).length =
      if isCancelled state.world.database orderId then 1 else 0) ∧
    (∀ orderId, ∀ event ∈ state.world.trace, cancels calls orderId event = true →
      ∃ order, event.before.get .order orderId = some order ∧ order.status = .pending ∧
        ∀ variantId, stocked variantId (event.before.applyAll event.writes) =
          stocked variantId event.before + orderedOf variantId event.before order) ∧
    ∀ i tenantId scope dto, calls i = .adjustScoped tenantId scope dto → (state.world.own i).length ≤ 1 ∧
      (∀ response, (state.threads i).program = .done (.ok response) → (state.world.own i).length = 1) ∧
      ∀ exception, (state.threads i).program = .done (.error (.thrown exception)) → state.world.own i = [] := by
  obtain ⟨valid, grows⟩ := reached.valid
  have conserved := Shop.conserved grows
  refine ⟨conserved.stock, fun pool row => Shop.nonnegative grows, conserved.restocked, fun orderId event member counted => ?_,
    fun i tenantId scope dto call => ⟨adjusts_once grows call, fun response ended => ?_, fun exception ended => ?_⟩⟩
  · obtain ⟨_, origin, _, recorded⟩ := Grows.recorded grows rfl member
    rw [← recorded.database]
    have lawful : BusinessPlatform.lawful calls event.author origin event.writes := by
      refine recorded.lawful.resolve_left fun empty => ?_
      rw [cancels_empty empty] at counted
      cases counted
    unfold cancels at counted
    cases author : event.author with
    | none => simp [author] at counted
    | some i =>
      rw [author] at lawful counted
      simp only [Option.map_some] at counted
      split at counted
      next call same =>
        simp only [Option.some.injEq] at same
        simp only [BusinessPlatform.lawful, same, Call.Commits] at lawful
        obtain ⟨_, cancellation, cancelled, written⟩ := lawful
        simp only [Bool.and_eq_true, decide_eq_true_eq] at counted
        obtain ⟨rfl, _⟩ := counted
        refine ⟨cancellation.order, cancelled.found, cancelled.pending, fun variantId => ?_⟩
        rw [written, stocked_cancelled cancelled.toRestocked, cancelled.toRestocked.units]
      next => cases counted
  · have post := valid.ended ended
    rw [call] at post
    obtain ⟨failure | summary, outcome, same⟩ := post
    · cases same
    · obtain ⟨writes, own⟩ := outcome
      rw [own]
      rfl
  · have post := valid.ended ended
    rw [call] at post
    obtain ⟨failure | summary, outcome, same⟩ := post
    · cases same
      exact (outcome.1 (by simp) (by simp)).1
    · cases same

/-- Ten units are put on stock and two are sold. -/
theorem stock_conserved_cash_sale : ∃ state : SystemState (Fin 2), stocked 1 state.world.database = 8 ∧
    sold 1 state.world.database = 2 ∧ adjustments cashSale 1 state.world = 10 := by
  have executed : ((Shop.demo.system (fun _ => "hash") cashSale).run (runs 0 5 ++ runs 1 25)).any (fun state =>
    stocked 1 state.world.database = 8 && sold 1 state.world.database = 2) = true := by decide +kernel
  obtain ⟨state, reached, seen⟩ := Shop.Reaches.computed executed rfl
  simp only [Bool.and_eq_true, decide_eq_true_eq] at seen
  refine ⟨state, seen.1, seen.2, ?_⟩
  rw [← (stock_conserved reached).1 1, seen.1, seen.2]
  rfl

end BusinessPlatform
