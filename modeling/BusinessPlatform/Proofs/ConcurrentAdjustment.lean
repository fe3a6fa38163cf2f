import BusinessPlatform.Engine.Faults
import BusinessPlatform.Proofs.StockMovement

/-! Concurrent adjustments of one pool. None is lost; one that adds stock is
refused only if another call opens the pool between its two looks at it. -/

namespace BusinessPlatform
open Engine InventoryService

variable {ι : Type} [DecidableEq ι]

/-- A pool, with or without a row, of a tenant's variant. -/
structure Stockroom where
  database : Db
  tenantId : Id
  scope : InventoryScope
  variantId : Id
  variant : ∃ row ∈ (database.table .productVariant).rows, row.id = variantId ∧ row.tenantId = tenantId
  store : ∀ storeId, scope = .store storeId →
    ∃ row ∈ (database.table .store).rows, row.id = storeId ∧ row.tenantId = tenantId
  tenant : ∀ row, database.get .inventory (variantId, scope.storeId) = some row → row.tenantId = tenantId
  fits : Model.fitsInteger (stockOf database (variantId, scope.storeId)) = true

abbrev AdjustState (ι : Type) : Type 1 := State commerce HttpException InventorySummary ι

namespace Stockroom
variable (room : Stockroom)

def pool : Pool := (room.variantId, room.scope.storeId)

def adjuster (delta : Int) : Call := .adjustScoped room.tenantId room.scope ⟨room.variantId, delta⟩

/-- Any number of calls that adjust the pool. -/
def system (delta : ι → Int) : AdjustState ι :=
  State.initial room.database fun i => adjustScoped room.tenantId room.scope ⟨room.variantId, delta i⟩

/-- Nobody else commits anything. -/
def guarantee (delta : ι → Int) : Guarantee commerce ι := fun author world writes =>
  author ≠ none ∧ lawful (fun i => room.adjuster (delta i)) author world writes

/-- No adjustment is lost and none is refused without reason. -/
structure Fair [Fintype ι] (delta : ι → Int) (state : AdjustState ι) : Prop where
  added : ∀ i, 0 < delta i → state.failed i → ∃ event ∈ state.world.trace, event.author = some i ∧
    2147483647 < stockOf event.before room.pool + delta i
  taken : ∀ i, delta i < 0 → state.failed i → ∃ event ∈ state.world.trace, event.author = some i ∧
    stockOf event.before room.pool < -delta i
  unmoved : ∀ i, state.failed i → state.world.own i = []
  total : (∀ i, state.finished i) → stockOf state.world.database room.pool =
    stockOf room.database room.pool + ∑ i, if state.failed i then 0 else delta i
  others : ∀ pool, pool ≠ room.pool → state.world.database.get .inventory pool = room.database.get .inventory pool

/-- Whenever a call that adds stock looks the pool up after its guarded update
has moved nothing, the pool still has no row. -/
def FindsNoRow (delta : ι → Int) (state : AdjustState ι) (event : Event commerce ι) : Prop :=
  match event.author with
  | some i => 0 < delta i → state.world.own i = [] → event.access = some (.inventory, .find) →
      event.before.get .inventory room.pool = none
  | none => True

instance (delta : ι → Int) (state : AdjustState ι) (event : Event commerce ι) :
    Decidable (room.FindsNoRow delta state event) := by
  unfold FindsNoRow
  split <;> infer_instance

end Stockroom

variable {room : Stockroom} {delta : ι → Int} {world : SystemWorld ι}

theorem Stockroom.guarantee.adjusted {author : Option ι} {writes : Writes}
    (allowed : room.guarantee delta author world writes) : ∃ i, author = some i ∧ world.own i = [] ∧
      Adjusted room.tenantId room.scope ⟨room.variantId, delta i⟩ world.database writes := by
  obtain ⟨known, allowed⟩ := allowed
  obtain ⟨i, rfl⟩ := Option.ne_none_iff_exists'.mp known
  exact ⟨i, rfl, allowed⟩

/-- The rows of the room in every world that the calls lead to. -/
structure Stockroom.Kept [Fintype ι] (room : Stockroom) (delta : ι → Int) (world : SystemWorld ι) : Prop where
  catalog : ∀ m, m ≠ Model.inventory → world.database.table m = room.database.table m
  tenant : ∀ row, world.database.get .inventory room.pool = some row → row.tenantId = room.tenantId
  fits : Model.fitsInteger (stockOf world.database room.pool) = true
  stock : stockOf world.database room.pool =
    stockOf room.database room.pool + ∑ i, if world.own i = [] then 0 else delta i
  others : ∀ pool, pool ≠ room.pool → world.database.get .inventory pool = room.database.get .inventory pool

private theorem Adjusted.row {tenantId : Id} {scope : InventoryScope} {dto : AdjustInventoryDto} {db : Db}
    {writes : Writes} (adjusted : Adjusted tenantId scope dto db writes)
    (tenant : ∀ row, db.get .inventory (dto.variantId, scope.storeId) = some row → row.tenantId = tenantId) :
    ∃ row : Inventory, writes = [.put .inventory row] ∧ row.pool = (dto.variantId, scope.storeId) ∧
      row.tenantId = tenantId ∧ Model.fitsInteger row.quantityOnHand = true := by
  cases adjusted with
  | moved row found same enough fits => exact ⟨_, rfl, (Table.find_eq_some.mp found).2, tenant row found, fits⟩
  | opened row absent pool same quantity fits => exact ⟨row, rfl, pool, same, quantity ▸ fits⟩

section Kept
variable [Fintype ι]

private theorem sum_committed {label : Label commerce ι} {writes : Writes} {i : ι} (author : label.author = some i)
    (own : world.own i = []) (written : writes ≠ []) :
    (∑ j, if (world.record label writes).own j = [] then 0 else delta j) =
      (∑ j, if world.own j = [] then 0 else delta j) + delta i := by
  have each (j : ι) : (if (world.record label writes).own j = [] then 0 else delta j) =
      (if world.own j = [] then 0 else delta j) + if j = i then delta i else 0 := by
    by_cases same : j = i
    · subst same
      simp [World.own_record_same own author written, own]
    · have other : label.author ≠ some j := by
        rw [author]
        exact fun equal => same (Option.some.inj equal).symm
      rw [World.own_record_other j world other, if_neg same, add_zero]
  rw [Finset.sum_congr rfl fun j _ => each j, Finset.sum_add_distrib, Finset.sum_ite_eq', if_pos (Finset.mem_univ i)]

private theorem Stockroom.Kept.event (kept : room.Kept delta world) {label : Label commerce ι} {writes : Writes}
    (allowed : room.guarantee delta label.author world writes) : room.Kept delta (world.record label writes) := by
  obtain ⟨i, author, own, adjusted⟩ := allowed.adjusted
  obtain ⟨row, rfl, pool, tenant, fits⟩ := adjusted.row kept.tenant
  have stored (other : Pool) : ((world.record label [.put .inventory row]).database).get .inventory other =
      if room.pool = other then some row else world.database.get .inventory other := by
    rw [World.record_database, Database.get_single (S := commerce) (m := .inventory) _ (by simp) (putsOf_put_same ..)]
    exact if_congr (by rw [show commerce.key (m := .inventory) row = room.pool from pool]) rfl rfl
  have quantity : stockOf (world.record label [.put .inventory row]).database room.pool = row.quantityOnHand :=
    stockOf_some (by rw [stored, if_pos rfl])
  refine ⟨fun m different => ?_, fun other found => ?_, quantity ▸ fits, ?_, fun other different => ?_⟩
  · rw [World.record_database, Database.applyAll_other _ (by simpa [Write.model] using different.symm), kept.catalog m different]
  · rw [stored, if_pos rfl] at found
    cases found
    exact tenant
  · have moved := stockOf_adjusted adjusted room.pool
    rw [if_pos (show room.pool = (room.variantId, room.scope.storeId) from rfl)] at moved
    rw [sum_committed author own (by simp), ← add_assoc, ← kept.stock]
    exact moved
  · rw [stored, if_neg different.symm, kept.others other different]

theorem Stockroom.kept (grows : Grows (room.guarantee delta) { database := room.database } world) :
    room.Kept delta world := by
  refine Grows.invariant (room.Kept delta) grows ?_ (fun _ _ _ _ kept allowed => kept.event allowed)
    (fun w label kept => ?_) fun w elapsed kept => ?_
  · exact ⟨fun _ _ => rfl, room.tenant, room.fits, by simp [World.own], fun _ _ => rfl⟩
  · exact ⟨kept.catalog, kept.tenant, kept.fits, by simpa using kept.stock, kept.others⟩
  · exact ⟨kept.catalog, kept.tenant, kept.fits, kept.stock, kept.others⟩

end Kept

private theorem sendInteger_faultless (value : Int) : (Prisma.sendInteger value : Service Unit).Faultless := by
  rw [Prisma.sendInteger]
  split
  · exact .value _
  · exact .failed rfl

theorem adjustScoped_faultless (tenantId : Id) (scope : InventoryScope) (dto : AdjustInventoryDto) :
    (adjustScoped tenantId scope dto).Faultless := by
  have read : (reread tenantId scope dto.variantId).Faultless :=
    .bind (.findFirst _ _) fun _ => .orThrow _ _
  have guarded : (guardedUpdate tenantId scope dto).Faultless :=
    .bind (sendInteger_faultless _) fun _ => .bind (sendInteger_faultless _) fun _ => .send _
  have again : (retry tenantId scope dto).Faultless := by
    refine .bind guarded fun count => ?_
    split
    · exact read
    · exact .throw _
  have created : (createPool tenantId scope dto).Faultless := .bind (.send _) fun _ => .value _
  have opened : (openPool tenantId scope dto).Faultless := by
    refine .bind (.findFirst _ _) fun existing => ?_
    cases existing with
    | some row => exact .throw _
    | none =>
      dsimp only
      split
      · exact .throw _
      · refine .tryCatch created fun failure ordinary => ?_
        split
        · exact again
        · exact .failed ordinary
  refine .bind (.findFirst _ _) fun variant => .bind (.throwIf _ _) fun _ => .bind ?_ fun _ => .bind guarded fun count => ?_
  · cases scope with
    | global => exact .value _
    | store storeId => exact .bind (.findFirst _ _) fun _ => .throwIf _ _
  · split
    · exact read
    · exact opened

private theorem Excused.reason [Fintype ι] {i : ι} (grows : Grows (room.guarantee delta) { database := room.database } world)
    (excused : Excused i room.tenantId room.scope ⟨room.variantId, delta i⟩ world) :
    ∃ event ∈ world.trace, event.author = some i ∧
      (stockOf event.before room.pool < -delta i ∧ delta i < 0 ∨
        2147483647 < stockOf event.before room.pool + delta i ∧ 0 < delta i ∨
        event.access = some (.inventory, .find) ∧ 0 ≤ delta i ∧
          (event.before.get .inventory room.pool).isSome = true) := by
  obtain ⟨event, member, author, refused⟩ := excused
  obtain ⟨_, origin, _, recorded⟩ := Grows.recorded grows rfl member
  have kept := Stockroom.kept recorded.before
  have fits := kept.fits
  have catalog := kept.catalog
  have own := kept.tenant
  rw [recorded.database] at fits catalog own
  simp only [Model.fitsInteger, Bool.and_eq_true, decide_eq_true_eq] at fits
  refine ⟨event, member, author, ?_⟩
  cases refused with
  | variant missing =>
    obtain ⟨row, inside, same, tenant⟩ := room.variant
    exact absurd tenant (missing row (by rwa [catalog .productVariant (by decide)]) same)
  | store storeId given missing =>
    obtain ⟨row, inside, same, tenant⟩ := room.store storeId given
    exact absurd tenant (missing row (by rwa [catalog .store (by decide)]) same)
  | foreign row found tenant => exact absurd (own row found) tenant
  | insufficient short =>
    have short : stockOf event.before room.pool < -delta i := short
    exact .inl ⟨short, by omega⟩
  | raced access positive present => exact .inr (.inr ⟨access, positive, present⟩)
  | overflow unfit =>
    have unfit : Model.fitsInteger (stockOf event.before room.pool + delta i) = false := unfit
    simp only [Model.fitsInteger, Bool.and_eq_false_iff, decide_eq_false_iff_not] at unfit
    by_cases positive : 0 < delta i
    · exact .inr (.inl ⟨by omega, positive⟩)
    · exact .inl ⟨by omega, by omega⟩
  | unsent large =>
    have large : Prisma.sendable (-delta i) = false ∨ Prisma.sendable (delta i) = false := large
    simp only [Prisma.sendable, Bool.and_eq_false_iff, decide_eq_false_iff_not] at large
    by_cases positive : 0 < delta i
    · exact .inr (.inl ⟨by omega, positive⟩)
    · exact .inl ⟨by omega, by omega⟩

/-- Only the calls move, and only as the condition permits. -/
abbrev Stockroom.Reaches (room : Stockroom) (delta : ι → Int) (good : AdjustState ι → Event commerce ι → Prop)
    (state : AdjustState ι) : Prop :=
  State.Reaches (fun state action => action.undisturbed = true ∧ state.Records good action) (room.system delta) state

variable {state : AdjustState ι} {good : AdjustState ι → Event commerce ι → Prop}

private theorem Stockroom.valid (room : Stockroom) (delta : ι → Int) :
    Valid (room.guarantee delta) (fun i => AdjustPost i room.tenantId room.scope ⟨room.variantId, delta i⟩)
      (room.system delta) :=
  Valid.initial fun _ => Safe.permit (Safe.among (adjustScoped_safe rfl) fun _ _ _ => And.right) fun _ _ allowed =>
    ⟨nofun, allowed⟩

private theorem Stockroom.Reaches.valid (reached : room.Reaches delta good state) :
    Valid (room.guarantee delta) (fun i => AdjustPost i room.tenantId room.scope ⟨room.variantId, delta i⟩) state ∧
      Grows (room.guarantee delta) { database := room.database } state.world :=
  State.Reaches.valid reached (room.valid delta) fun _ _ allowed => nomatch allowed.1

/-- A call that has not committed found no row when it looked the pool up. -/
private theorem Stockroom.Reaches.found (reached : room.Reaches delta (room.FindsNoRow delta) state) :
    ∀ event ∈ state.world.trace, ∀ i, event.author = some i → 0 < delta i → state.world.own i = [] →
      event.access = some (.inventory, .find) → event.before.get .inventory room.pool = none := by
  refine (State.Reaches.invariant (fun state : AdjustState ι => ∀ event ∈ state.world.trace, ∀ i, event.author = some i →
    0 < delta i → state.world.own i = [] → event.access = some (.inventory, .find) →
      event.before.get .inventory room.pool = none) reached (room.valid delta) (fun _ _ allowed => nomatch allowed.1) nofun ?_).2
  intro state next action _ holding allowed executed moves event member i author positive own access
  cases moves with
  | event label writes recorded lawful active =>
    have uncommitted : state.world.own i = [] := by
      by_contra committed
      obtain ⟨written, inside⟩ := List.exists_mem_of_ne_nil _ committed
      obtain ⟨earlier, kept, rfl⟩ := List.mem_map.mp inside
      obtain ⟨kept, counted⟩ := List.mem_filter.mp kept
      simp only [Bool.and_eq_true, decide_eq_true_eq, Bool.not_eq_true', List.isEmpty_eq_false_iff] at counted
      have later : earlier.writes ∈ next.world.own i := World.mem_own (by
        rw [recorded, World.record_trace]
        exact List.mem_cons_of_mem _ kept) counted.1 counted.2
      rw [own] at later
      cases later
    have good := allowed.2 next _ executed (by rw [recorded, World.record_trace])
    rw [recorded, World.record_trace, List.mem_cons] at member
    rcases member with rfl | old
    · replace author : label.author = some i := author
      simp only [Stockroom.FindsNoRow, author] at good
      exact good positive uncommitted access
    · exact holding event old i author positive uncommitted access
  | still same =>
    rw [same] at member own
    exact holding event member i author positive own access
  | wait elapsed waited =>
    rw [waited] at member own
    exact holding event member i author positive own access

/-- If calls that add stock find no row when they look the pool up, adjustments
are neither lost nor wrongly refused. -/
theorem adjustments_fair [Fintype ι] (reached : room.Reaches delta (room.FindsNoRow delta) state) :
    room.Fair delta state := by
  obtain ⟨valid, grows⟩ := reached.valid
  have kept := Stockroom.kept grows
  have failed (i : ι) (ended : state.failed i) : state.world.own i = [] ∧
      Excused i room.tenantId room.scope ⟨room.variantId, delta i⟩ state.world := by
    obtain ⟨failure, ended⟩ := ended
    have ordinary := State.Reaches.faultless reached (fun _ _ allowed => Action.undisturbed.spares allowed.1 i)
      (adjustScoped_faultless room.tenantId room.scope ⟨room.variantId, delta i⟩)
    rw [ended] at ordinary
    have ordinary := ordinary failure rfl
    have post : AdjustPost i room.tenantId room.scope ⟨room.variantId, delta i⟩ _ _ _ := valid.ended ended
    exact post.1 (by rintro rfl; cases ordinary) (by rintro rfl; cases ordinary)
  refine ⟨fun i positive ended => ?_, fun i negative ended => ?_, fun i ended => (failed i ended).1, fun ended => ?_,
    kept.others⟩
  · obtain ⟨own, excused⟩ := failed i ended
    obtain ⟨event, member, author, ⟨_, negative⟩ | ⟨overflow, _⟩ | ⟨access, _, present⟩⟩ := excused.reason grows
    · omega
    · exact ⟨event, member, author, overflow⟩
    · rw [reached.found event member i author positive own access] at present
      cases present
  · obtain ⟨own, excused⟩ := failed i ended
    obtain ⟨event, member, author, ⟨short, _⟩ | ⟨_, positive⟩ | ⟨_, positive, _⟩⟩ := excused.reason grows
    · exact ⟨event, member, author, short⟩
    · omega
    · omega
  · rw [kept.stock]
    refine congrArg (stockOf room.database room.pool + ·) (Finset.sum_congr rfl fun i _ => if_congr ?_ rfl rfl)
    refine ⟨fun own => ?_, fun ended => (failed i ended).1⟩
    obtain ⟨result, done⟩ := ended i
    cases result with
    | error failure => exact ⟨failure, done⟩
    | ok summary =>
      obtain ⟨writes, committed⟩ : ∃ writes, state.world.own i = [writes] := valid.ended done
      rw [own] at committed
      cases committed

/-- A variant without stock. -/
def Stockroom.demo : Stockroom where
  database := Shop.demo.database
  tenantId := 0
  scope := .global
  variantId := 1
  variant := ⟨⟨1, 0, 2, "sku", none, .active⟩, by decide, rfl, rfl⟩
  store _ given := nomatch given
  tenant _ found := nomatch found
  fits := rfl

private theorem Stockroom.Reaches.checked {schedule : List (Action commerce ι)} {observed : AdjustState ι → Bool}
    [∀ state event, Decidable (good state event)]
    (executed : ((room.system delta).runWhile (fun state event => good state event) schedule).any observed = true)
    (undisturbed : schedule.all Action.undisturbed = true) :
    ∃ state, room.Reaches delta good state ∧ observed state = true :=
  State.Reaches.undisturbed executed undisturbed

/-- Five units are added and then three and four are taken: the last call fails. -/
theorem adjustments_fair_in_turn : ∃ state : AdjustState (Fin 3), (∀ i, state.finished i) ∧ state.failed 2 ∧
    stockOf state.world.database (1, none) = ∑ i, if state.failed i then 0 else (![5, -3, -4] : Fin 3 → Int) i := by
  have executed : ((Stockroom.demo.system ![5, -3, -4]).runWhile
    (fun state event => Stockroom.demo.FindsNoRow ![5, -3, -4] state event) (runs 0 4 ++ runs 1 3 ++ runs 2 3)).any
      (fun state => (∀ i, state.finished i) && state.failed 2) = true := by decide +kernel
  obtain ⟨state, reached, seen⟩ := Stockroom.Reaches.checked executed rfl
  simp only [Bool.and_eq_true, decide_eq_true_eq] at seen
  refine ⟨state, seen.1, seen.2, ?_⟩
  exact ((adjustments_fair reached).total seen.1).trans (zero_add _)

/-- Two calls add stock to a pool without a row. One opens it between the other's
guarded update and lookup, and the other is refused. -/
theorem addition_refused : ∃ state, Stockroom.demo.Reaches ![5, 7] (fun _ _ => True) state ∧
    ¬ Stockroom.demo.Fair (![5, 7] : Fin 2 → Int) state := by
  have executed : ((Stockroom.demo.system ![5, 7]).runWhile (fun _ _ => decide True)
    (runs 0 2 ++ runs 1 4 ++ runs 0 1)).any (fun state => state.failed 0 &&
      state.world.trace.all fun event => stockOf event.before (1, none) ≤ 7) = true := by decide +kernel
  obtain ⟨state, reached, seen⟩ := Stockroom.Reaches.checked executed rfl
  simp only [Bool.and_eq_true, decide_eq_true_eq] at seen
  refine ⟨state, reached, fun fair => ?_⟩
  obtain ⟨event, member, _, overflow⟩ := fair.added 0 (by decide) seen.1
  have small := of_decide_eq_true (List.all_eq_true.mp seen.2 event member)
  change 2147483647 < stockOf event.before (1, none) + 5 at overflow
  omega

end BusinessPlatform
