import BusinessPlatform.Proofs.OrderLines

/-! How a commit moves stock: by an adjustment, a placement or a cancellation,
each a known amount in each pool. -/

namespace BusinessPlatform
open Engine InventoryService OrderService PaymentService

variable {ι : Type} {db : Db} {writes : Writes} {world : SystemWorld ι} {label : Label commerce ι}

/-- The call neither adjusts stock nor cancels an order. -/
def Call.plain : Call → Bool
  | .adjustScoped .. | .cancelOrder .. => false
  | _ => true

inductive Movement [DecidableEq ι] (calls : ι → Call) (world : SystemWorld ι) (label : Label commerce ι)
    (writes : Writes) : Prop where
  | adjusted (i : ι) (author : label.author = some i) {tenantId : Id} {scope : InventoryScope}
      {dto : AdjustInventoryDto} (call : calls i = .adjustScoped tenantId scope dto) (own : world.own i = [])
      (adjusted : Adjusted tenantId scope dto world.database writes)
  | cancelled (i : ι) (author : label.author = some i) {tenantId orderId : Id}
      (call : calls i = .cancelOrder tenantId orderId) (own : world.own i = []) (cancellation : Cancellation)
      (cancels : Cancelled i tenantId orderId world cancellation) (written : writes = cancellation.writes)
  | placed (plain : ∀ i, label.author = some i → (calls i).plain = true) (placement : Placement)
      (placed : Placed world.database placement) (written : writes = placement.writes)
  | paid (plain : ∀ i, label.author = some i → (calls i).plain = true) (order : Order)
      (found : world.database.get .order order.id = some order) (pending : order.status = .pending)
      (orders : putsOf (S := commerce) .order writes = [(setOrder .paid).apply order])
      (stock : putsOf (S := commerce) .inventory writes = [])
  | still (plain : ∀ i, label.author = some i → (calls i).plain = true)
      (orders : putsOf (S := commerce) .order writes = []) (stock : putsOf (S := commerce) .inventory writes = [])

section Lawful
variable [DecidableEq ι] {calls : ι → Call} (plain : ∀ i, label.author = some i → (calls i).plain = true)
include plain

private theorem Captured.movement {tenantId paymentId : Id} (captured : Captured tenantId paymentId world.database writes) :
    Movement calls world label writes := by
  obtain ⟨payment, order, found, processing, tenant, ordered, pending⟩ := captured
  have same : order.id = payment.orderId := (Table.find_eq_some.mp ordered).2
  exact .paid plain order (same ▸ ordered) pending (by simp) (by simp)

private theorem SaleStep.movement {i : ι} {tenantId userId : Id} {dto : PosSaleService.CreatePosSaleDto}
    {history : List Writes} (step : SaleStep i tenantId userId dto world history writes) :
    Movement calls world label writes := by
  cases step with
  | order placement session ordered => exact .placed plain placement ordered.toPlaced rfl
  | payment placement payment created => exact .still plain (by simp) (by simp)
  | capture placement payment captured => exact captured.movement plain
  | sale placement payment captures sale once fresh order paid store tenant => exact .still plain (by simp) (by simp)

private theorem SyncStep.movement {i : ι} {tenantId operationId : Id} {history : List Writes}
    (step : SyncStep i tenantId operationId world history writes) : Movement calls world label writes := by
  cases step with
  | rejected code operated | cleared operated | outOfStock claim held operated =>
    cases operated
    exact .still plain (by simp) (by simp)
  | claimed row now found pending unclaimed tenant => exact .still plain (by simp) (by simp)
  | accepted claim held placement payment paid captures sale once found captured order operated =>
    cases operated
    exact .still plain (by simp) (by simp)
  | executed claim held row items filled validated history found tenant lines read step => exact step.movement plain

end Lawful

theorem lawful.movement [DecidableEq ι] {calls : ι → Call} (allowed : lawful calls label.author world writes) :
    Movement calls world label writes := by
  cases author : label.author with
  | none =>
    rw [author] at allowed
    exact .still (by simp [author]) (external_nothing (m := .order) rfl allowed).1
      (external_nothing (m := .inventory) rfl allowed).1
  | some i =>
    rw [author] at allowed
    simp only [lawful, Call.Commits] at allowed
    have plain (same : (calls i).plain = true) : ∀ j, label.author = some j → (calls j).plain = true := by
      intro j other
      rwa [← Option.some.inj (author.symm.trans other)]
    split at allowed
    next call => exact .adjusted i author call allowed.1 allowed.2
    next call =>
      obtain ⟨_, placement, ordered, rfl⟩ := allowed
      exact .placed (plain (by rw [call]; rfl)) placement ordered.toPlaced rfl
    next call =>
      obtain ⟨own, cancellation, cancelled, rfl⟩ := allowed
      exact .cancelled i author call own cancellation cancelled rfl
    next call =>
      obtain ⟨_, payment, created, rfl⟩ := allowed
      exact .still (plain (by rw [call]; rfl)) (by simp) (by simp)
    next call => exact allowed.2.movement (plain (by rw [call]; rfl))
    next call =>
      obtain ⟨_, failed⟩ := allowed
      cases failed
      exact .still (plain (by rw [call]; rfl)) (by simp) (by simp)
    next call => exact allowed.movement (plain (by rw [call]; rfl))
    next call =>
      obtain ⟨_, operation, items, recorded, rfl⟩ := allowed
      exact .still (plain (by rw [call]; rfl)) (by simp) (by simp)
    next call => exact allowed.movement (plain (by rw [call]; rfl))
    next call =>
      obtain ⟨_, booking, _, rfl⟩ := allowed
      exact .still (plain (by rw [call]; rfl)) (by simp) (by simp)
    next call =>
      obtain ⟨_, booking, _, rfl⟩ := allowed
      exact .still (plain (by rw [call]; rfl)) (by simp) (by simp)
    all_goals
      next call =>
        have plain := plain (by rw [call]; rfl)
        cases allowed with
        | discarded cart found => exact .still plain (by simp [discardWrites]) (by simp [discardWrites])
        | _ => exact .still plain (by simp) (by simp)

private theorem stockOf_stored (db : Db) (row : Inventory) (kept : erasesOf (S := commerce) .inventory writes = [])
    (distinct : ((putsOf (S := commerce) .inventory writes).map Inventory.pool).Nodup)
    (member : row ∈ putsOf (S := commerce) .inventory writes) :
    stockOf (db.applyAll writes) row.pool = row.quantityOnHand :=
  stockOf_some (Database.get_stored (S := commerce) (m := .inventory) db kept distinct member)

private theorem stockOf_apart (kept : erasesOf (S := commerce) .inventory writes = []) {pool : Pool}
    (apart : ∀ row ∈ putsOf (S := commerce) .inventory writes, row.pool ≠ pool) :
    stockOf (db.applyAll writes) pool = stockOf db pool := by
  have same : (db.applyAll writes).get .inventory pool = db.get .inventory pool := by
    refine Database.get_untouched (S := commerce) db kept fun inside => ?_
    obtain ⟨row, member, key⟩ := List.mem_map.mp inside
    exact apart row member key
  rw [stockOf, same, stockOf]

/-- What a placement takes of each variant. -/
def Placement.entries (placement : Placement) : List (Id × Int) := placement.lines.map fun line => line.entry

theorem Placed.pools {placement : Placement} (placed : Placed db placement) :
    ((putsOf (S := commerce) .inventory placement.writes).map Inventory.pool).Nodup := by
  rw [Placement.writes_inventory, List.map_map]
  refine List.Nodup.of_map Prod.fst ?_
  rw [List.map_map]
  refine Eq.subst (motive := List.Nodup) (List.map_congr_left fun line member => ?_) placed.distinct
  exact (congrArg Prod.fst (placed.debits line member).pool).symm

/-- A placement takes its lines from its pool and leaves every other pool. -/
theorem stockOf_placed {placement : Placement} (placed : Placed db placement) (pool : Pool) :
    stockOf (db.applyAll placement.writes) pool =
      stockOf db pool - if pool.2 = placement.pool then amountOf pool.1 placement.entries else 0 := by
  have pools : ∀ line ∈ placement.lines, line.debited.pool = (line.variantId, placement.pool) := fun line member =>
    (placed.debits line member).pool
  have keys : placement.entries.map Prod.fst = placement.lines.map fun line => line.variantId := by
    rw [Placement.entries, List.map_map]
    rfl
  by_cases taken : ∃ line ∈ placement.lines, (line.variantId, placement.pool) = pool
  · obtain ⟨line, member, rfl⟩ := taken
    have valid := placed.debits line member
    have amount : amountOf line.entry.1 placement.entries = line.entry.2 :=
      amountOf_mem (keys ▸ placed.distinct) (List.mem_map_of_mem member)
    change amountOf line.variantId placement.entries = line.quantity at amount
    have stored := stockOf_stored db line.debited (by simp) placed.pools
      (by rw [Placement.writes_inventory]; exact List.mem_map_of_mem member)
    rw [pools line member] at stored
    rw [stored, stockOf_some valid.stocked, if_pos rfl, amount]
    rfl
  · rw [stockOf_apart (by simp)]
    · split
      next same =>
        have absent : pool.1 ∉ placement.entries.map Prod.fst := by
          rw [keys]
          intro inside
          obtain ⟨line, member, variant⟩ := List.mem_map.mp inside
          exact taken ⟨line, member, Prod.ext variant same.symm⟩
        rw [amountOf_absent absent, sub_zero]
      next => rw [sub_zero]
    · intro row member same
      rw [Placement.writes_inventory] at member
      obtain ⟨line, inside, rfl⟩ := List.mem_map.mp member
      exact taken ⟨line, inside, (pools line inside).symm.trans same⟩

/-- What a cancellation gives back of each variant. -/
def Cancellation.entries (cancellation : Cancellation) : List (Id × Int) := cancellation.restocks.map Restock.entry

theorem Restocked.distinct {tenantId orderId : Id} {cancellation : Cancellation}
    (restocked : Restocked tenantId orderId db cancellation) : (cancellation.entries.map Prod.fst).Nodup := by
  obtain ⟨items, _, entries⟩ := restocked.items
  rw [Cancellation.entries, entries]
  exact Tally.nodup_collect _

theorem Restocked.pools {tenantId orderId : Id} {cancellation : Cancellation}
    (restocked : Restocked tenantId orderId db cancellation) :
    ((putsOf (S := commerce) .inventory cancellation.writes).map Inventory.pool).Nodup := by
  rw [Cancellation.writes_inventory, List.map_map]
  refine List.Nodup.of_map Prod.fst ?_
  rw [List.map_map]
  refine Eq.subst (motive := List.Nodup) ?_ restocked.distinct
  rw [Cancellation.entries, List.map_map]
  exact List.map_congr_left fun restock member => (congrArg Prod.fst (restocked.restocks restock member).pooled).symm

theorem Restocked.quantity {tenantId orderId : Id} {cancellation : Cancellation}
    (restocked : Restocked tenantId orderId db cancellation) {restock : Restock}
    (member : restock ∈ cancellation.restocks) :
    restock.row.quantityOnHand = stockOf db (restock.variantId, cancellation.pool) + restock.quantity := by
  have valid := restocked.restocks restock member
  cases before : db.get .inventory (restock.variantId, cancellation.pool) with
  | none => rw [valid.opened before, stockOf_none before, zero_add]
  | some old =>
    rw [valid.moved old before, stockOf_some before]
    rfl

/-- A cancellation gives its lines back to its pool and leaves every other pool. -/
theorem stockOf_cancelled {tenantId orderId : Id} {cancellation : Cancellation}
    (restocked : Restocked tenantId orderId db cancellation) (pool : Pool) :
    stockOf (db.applyAll cancellation.writes) pool =
      stockOf db pool + if pool.2 = cancellation.pool then amountOf pool.1 cancellation.entries else 0 := by
  by_cases given : ∃ restock ∈ cancellation.restocks, (restock.variantId, cancellation.pool) = pool
  · obtain ⟨restock, member, rfl⟩ := given
    have amount : amountOf restock.entry.1 cancellation.entries = restock.entry.2 :=
      amountOf_mem restocked.distinct (List.mem_map_of_mem member)
    change amountOf restock.variantId cancellation.entries = restock.quantity at amount
    have stored := stockOf_stored db restock.row (by simp) restocked.pools
      (by rw [Cancellation.writes_inventory]; exact List.mem_map_of_mem member)
    rw [(restocked.restocks restock member).pooled] at stored
    rw [stored, if_pos rfl, amount, restocked.quantity member]
  · rw [stockOf_apart (by simp)]
    · split
      next same =>
        have absent : pool.1 ∉ cancellation.entries.map Prod.fst := by
          intro inside
          obtain ⟨entry, listed, variant⟩ := List.mem_map.mp inside
          obtain ⟨restock, member, rfl⟩ := List.mem_map.mp listed
          exact given ⟨restock, member, Prod.ext variant same.symm⟩
        rw [amountOf_absent absent, add_zero]
      next => rw [add_zero]
    · intro row member same
      rw [Cancellation.writes_inventory] at member
      obtain ⟨restock, inside, rfl⟩ := List.mem_map.mp member
      exact given ⟨restock, inside, (restocked.restocks restock inside).pooled.symm.trans same⟩

/-- An adjustment moves its pool by its delta and leaves every other pool. -/
theorem stockOf_adjusted {tenantId : Id} {scope : InventoryScope} {dto : AdjustInventoryDto}
    (adjusted : Adjusted tenantId scope dto db writes) (pool : Pool) :
    stockOf (db.applyAll writes) pool =
      stockOf db pool + if pool = (dto.variantId, scope.storeId) then dto.delta else 0 := by
  cases adjusted with
  | moved row found tenant enough fits =>
    have key : row.pool = (dto.variantId, scope.storeId) := (Table.find_eq_some.mp found).2
    split
    next same =>
      subst same
      rw [← key, ← show ((increment dto.delta).apply row).pool = row.pool from rfl,
        stockOf_stored db ((increment dto.delta).apply row) (by simp) (by simp) (by simp),
        show ((increment dto.delta).apply row).pool = _ from key, stockOf_some found]
      rfl
    next different =>
      rw [stockOf_apart (by simp), add_zero]
      intro other member same
      rw [putsOf_put_same, putsOf_nil, List.mem_singleton] at member
      exact different (by rw [← same, member]; exact key)
  | opened row absent key tenant quantity fits =>
    split
    next same =>
      subst same
      rw [stockOf_none absent, ← key, stockOf_stored db row (by simp) (by simp) (by simp), quantity, zero_add]
    next different =>
      rw [stockOf_apart (by simp), add_zero]
      intro other member same
      rw [putsOf_put_same, putsOf_nil, List.mem_singleton] at member
      exact different (by rw [← same, member]; exact key)

theorem stockOf_still (kept : erasesOf (S := commerce) .inventory writes = [])
    (stock : putsOf (S := commerce) .inventory writes = []) (pool : Pool) :
    stockOf (db.applyAll writes) pool = stockOf db pool :=
  stockOf_apart kept (by simp [stock])

end BusinessPlatform
