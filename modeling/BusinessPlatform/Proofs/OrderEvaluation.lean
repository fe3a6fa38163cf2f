import BusinessPlatform.Engine.Evaluation
import BusinessPlatform.Proofs.Pricing

/-! When `createOrder` of given items succeeds, if it runs alone, and with what. -/

namespace BusinessPlatform
open Engine OrderService Program

variable {tenantId : Id} {pool : Option Id} {db : Db} {lines : List (Id × Int)} {moment : Moment commerce}

/-- The pool's row covers the line and stays valid. -/
structure Debitable (db : Db) (tenantId : Id) (pool : Option Id) (line : Id × Int) (row : Inventory) : Prop where
  found : db.get .inventory (line.1, pool) = some row
  tenant : row.tenantId = tenantId
  enough : line.2 ≤ row.quantityOnHand
  fits : Model.fitsInteger (row.quantityOnHand - line.2) = true
  parents : ∀ parent ∈ Model.parents (m := .inventory) row, (db.get parent.1 parent.2).isSome = true

/-- The rows of the pools after the lines are debited. -/
def debited (db : Db) (pool : Option Id) (lines : List (Id × Int)) : List Inventory :=
  lines.filterMap fun line => (db.get .inventory (line.1, pool)).map (decrement line.2).apply

abbrev storing {m : Model} (rows : List (Model.Row m)) : List (Write commerce) := rows.map (Write.put (S := commerce) m)

@[simp] theorem erasesOf_storing (m : Model) {other : Model} (rows : List (Model.Row other)) :
    erasesOf (S := commerce) m (storing rows) = [] := erasesOf_map_put ..

@[simp] theorem putsOf_storing (m : Model) (rows : List (Model.Row m)) : putsOf (S := commerce) m (storing rows) = rows := by
  rw [storing, putsOf_map_same, List.map_id']

@[simp] theorem putsOf_storing_other {m other : Model} (rows : List (Model.Row other)) (different : other ≠ m) :
    putsOf (S := commerce) m (storing rows) = [] := putsOf_map_other _ _ different

theorem view_storing {rows : List Inventory} {k : Pool} (apart : k ∉ rows.map Inventory.pool) :
    (moment.view (some (storing (m := .inventory) rows))).get .inventory k = moment.database.get .inventory k := by
  refine Database.get_untouched (S := commerce) (m := .inventory) _ (erasesOf_map_put (S := commerce) ..) ?_
  rw [Option.getD_some, putsOf_map_same, List.map_id']
  exact apart

/-- The constraints of a row of stock: a CHECK and two foreign keys. -/
private theorem debitable_iff {view : Db} {variantId : Id} {quantity : Int} {row : Inventory}
    (found : db.get .inventory (variantId, pool) = some row)
    (parents : ∀ m : Model, m ≠ .inventory → view.table m = db.table m) :
    ((row.variantId = variantId && row.storeId = pool && decide (quantity ≤ row.quantityOnHand) &&
        row.tenantId = tenantId) = true ∧
      constrain (m := Model.inventory) view ((decrement quantity).apply row) = .ok ()) ↔
    Debitable db tenantId pool (variantId, quantity) row := by
  have pooled : (row.variantId, row.storeId) = (variantId, pool) := (Table.find_eq_some.mp found).2
  obtain ⟨variant, store⟩ := Prod.mk.inj pooled
  have get (parent : (m : Model) × Model.Key m) (member : parent ∈ Model.parents (m := .inventory) row) :
      view.get parent.1 parent.2 = db.get parent.1 parent.2 := by
    have other : parent.1 ≠ .inventory := by
      rcases List.mem_cons.mp member with rfl | stored
      · nofun
      · obtain ⟨_, _, rfl⟩ := List.mem_map.mp stored
        nofun
    rw [Database.get, parents _ other, Database.get]
  rw [constrain_iff]
  simp only [variant, store, decide_true, Bool.true_and, Bool.and_eq_true, decide_eq_true_eq]
  constructor
  · rintro ⟨⟨enough, tenant⟩, _, fits, _, present⟩
    exact ⟨found, tenant, enough, fits, fun parent member => get parent member ▸ present parent member⟩
  · intro stocked
    refine ⟨⟨stocked.enough, stocked.tenant⟩, rfl, stocked.fits, ?_, fun parent member => ?_⟩
    · simp [excluded, Model.excludes]
    · exact (get parent member).symm ▸ stocked.parents parent member

theorem sendable_of_fits {value : Int} (fits : Model.fitsInteger value = true) : Prisma.sendable value = true := by
  simp only [Model.fitsInteger, Prisma.sendable, Bool.and_eq_true, decide_eq_true_eq] at fits ⊢
  omega

theorem succeeds_sendInteger {value : Int} {pending : Pending commerce} {post : Unit → Pending commerce → Moment commerce → Prop} :
    (Prisma.sendInteger value).Succeeds pending moment post ↔ Prisma.sendable value = true ∧ post () pending moment := by
  rw [Prisma.sendInteger]
  split
  next sent => exact ⟨fun holds => ⟨sent, holds⟩, And.right⟩
  next unsent => exact ⟨False.elim, fun ⟨sent, _⟩ => unsent sent⟩

theorem succeeds_debit {rows : List Inventory} {post : Unit → Pending commerce → Moment commerce → Prop}
    (distinct : (lines.map Prod.fst).Nodup) (apart : ∀ line ∈ lines, (line.1, pool) ∉ rows.map Inventory.pool) :
    (debit tenantId pool lines).Succeeds (some (storing (m := .inventory) rows)) moment post ↔
      (∀ line ∈ lines, Prisma.sendable line.2 = true ∧ ∃ row, Debitable moment.database tenantId pool line row) ∧
        post () (some (storing (m := .inventory) (rows ++ debited moment.database pool lines))) (moment.ticks lines.length) := by
  induction lines generalizing rows moment with
  | nil => simp [debit, debited, Moment.ticks]
  | cons line rest ih =>
    obtain ⟨variantId, quantity⟩ := line
    rw [List.map_cons, List.nodup_cons] at distinct
    have only (row : Inventory) (matched : (row.variantId = variantId && row.storeId = pool &&
        decide (quantity ≤ row.quantityOnHand) && row.tenantId = tenantId) = true) : row.pool = (variantId, pool) := by
      simp only [Bool.and_eq_true, decide_eq_true_eq] at matched
      exact Prod.ext matched.1.1.1 matched.1.1.2
    have get := @view_storing moment rows (variantId, pool) (apart (variantId, quantity) List.mem_cons_self)
    have other (row : Inventory) (m : Model) (different : m ≠ .inventory) :
        ((moment.view (some (storing (m := .inventory) rows))).applyAll [.put .inventory row]).table m =
          moment.database.table m := by
      rw [Moment.view, ← Database.applyAll_append]
      refine Database.applyAll_other _ fun write member => ?_
      rcases List.mem_append.mp member with earlier | last
      · obtain ⟨row, _, rfl⟩ := List.mem_map.mp earlier
        exact different.symm
      · cases List.mem_singleton.mp last
        exact different.symm
    have split : debit tenantId pool ((variantId, quantity) :: rest) = (do
        Prisma.sendInteger quantity
        (do let count ← updateMany (S := commerce) .inventory (fun row => row.variantId = variantId && row.storeId = pool &&
              quantity ≤ row.quantityOnHand && row.tenantId = tenantId) (decrement quantity)
            throwIf (count = 0) (.conflict INSUFFICIENT_STOCK)) >>= fun _ => debit tenantId pool rest) := by
      rw [bind_assoc]
      rfl
    rw [split, succeeds_bind, succeeds_sendInteger, succeeds_bind, succeeds_guarded only, get, List.forall_mem_cons]
    have next (row : Inventory) (stocked : Debitable moment.database tenantId pool (variantId, quantity) row) :
        (debit tenantId pool rest).Succeeds (some (storing (m := .inventory) rows ++
            [.put .inventory ((decrement quantity).apply row)])) moment.tick post ↔
          (∀ line ∈ rest, Prisma.sendable line.2 = true ∧ ∃ row, Debitable moment.database tenantId pool line row) ∧
            post () (some (storing (m := .inventory) (rows ++ debited moment.database pool ((variantId, quantity) :: rest))))
              (moment.ticks (rest.length + 1)) := by
      have pooled : ((decrement quantity).apply row).pool = (variantId, pool) := (Table.find_eq_some.mp stocked.found).2
      have listed : debited moment.database pool ((variantId, quantity) :: rest) =
          (decrement quantity).apply row :: debited moment.database pool rest := by
        rw [debited, List.filterMap_cons, stocked.found]
        rfl
      have distant : ∀ line ∈ rest, (line.1, pool) ∉ (rows ++ [(decrement quantity).apply row]).map Inventory.pool := by
        intro line member stored
        rw [List.map_append, List.mem_append, List.map_singleton, List.mem_singleton, pooled] at stored
        rcases stored with earlier | last
        · exact apart line (List.mem_cons_of_mem _ member) earlier
        · exact distinct.1 (List.mem_map.mpr ⟨line, member, (Prod.mk.inj last).1⟩)
      have stepped := @ih moment.tick (rows ++ [(decrement quantity).apply row]) distinct.2 distant
      rw [storing, List.map_append, List.map_singleton] at stepped
      rw [stepped, listed, List.append_assoc, List.singleton_append, Moment.tick_ticks]
      rfl
    constructor
    · rintro ⟨sent, row, found, matched, admitted, continues⟩
      have stocked := (debitable_iff found (other _)).mp ⟨matched, admitted⟩
      obtain ⟨others, holds⟩ := (next row stocked).mp continues
      exact ⟨⟨⟨sent, row, stocked⟩, others⟩, holds⟩
    · rintro ⟨⟨⟨sent, row, stocked⟩, others⟩, holds⟩
      obtain ⟨matched, admitted⟩ := (debitable_iff stocked.found (other _)).mpr stocked
      exact ⟨sent, row, stocked.found, matched, admitted, (next row stocked).mpr ⟨others, holds⟩⟩

/-- The booking is not linked and keeps its constraints when it is. -/
structure Linkable (db : Db) (tenantId orderId : Id) (booking : Booking) : Prop where
  free : booking.orderId = none
  tenant : booking.tenantId = tenantId
  unique : clash (S := commerce) (m := .booking) (db.table .booking) ((linkOrder orderId).apply booking) = none
  interval : booking.startAt < booking.endAt
  apart : excluded (S := commerce) (m := .booking) (db.table .booking) booking = false
  parents : ∀ parent ∈ Model.parents (m := .booking) booking, (db.get parent.1 parent.2).isSome = true

/-- The write that links the booking. -/
def linking (db : Db) (orderId : Id) (bookingId : Option Id) : List (Write commerce) :=
  (bookingId.bind (db.get .booking)).toList.map fun booking => .put .booking ((linkOrder orderId).apply booking)

theorem succeeds_linkBooking {orderId : Id} {bookingId : Option Id} {earlier : List (Write commerce)}
    {post : Unit → Pending commerce → Moment commerce → Prop}
    (models : ∀ write ∈ earlier, write.model = .inventory ∨ write.model = .order)
    (ordered : ((moment.database.applyAll earlier).get .order orderId).isSome = true) :
    (linkBooking tenantId orderId bookingId).Succeeds (some earlier) moment post ↔
      (∀ id, bookingId = some id →
        ∃ booking, moment.database.get .booking id = some booking ∧ Linkable moment.database tenantId orderId booking) ∧
        post () (some (earlier ++ linking moment.database orderId bookingId)) (moment.ticks bookingId.toList.length) := by
  cases bookingId with
  | none => simp [linkBooking, linking, Moment.ticks]
  | some bookingId =>
    have only (row : Booking) (matched : (row.id = bookingId && row.orderId = none && row.tenantId = tenantId) = true) :
        row.id = bookingId := by
      simp only [Bool.and_eq_true, decide_eq_true_eq] at matched
      exact matched.1.1
    have other (m : Model) (inventory : m ≠ .inventory) (order : m ≠ .order) :
        (moment.view (some earlier)).table m = moment.database.table m := by
      refine Database.applyAll_other _ fun write member => ?_
      rcases models write member with same | same
      · exact same ▸ inventory.symm
      · exact same ▸ order.symm
    have found : (moment.view (some earlier)).get .booking bookingId = moment.database.get .booking bookingId := by
      rw [Database.get, other .booking (by decide) (by decide), Database.get]
    have admitted (booking : Booking) (free : booking.orderId = none) : constrain (m := Model.booking)
        ((moment.view (some earlier)).applyAll [.put .booking ((linkOrder orderId).apply booking)])
          ((linkOrder orderId).apply booking) = .ok () ↔
        clash (S := commerce) (m := .booking) (moment.database.table .booking) ((linkOrder orderId).apply booking) = none ∧
          booking.startAt < booking.endAt ∧ excluded (S := commerce) (m := .booking) (moment.database.table .booking) booking = false ∧
          ∀ parent ∈ Model.parents (m := .booking) booking, (moment.database.get parent.1 parent.2).isSome = true := by
      rw [constrain_put_iff, other .booking (by decide) (by decide)]
      have linked : commerce.parents (m := .booking) ((linkOrder orderId).apply booking) =
          Model.parents (m := .booking) booking ++ [⟨.order, orderId⟩] := by
        simp [Model.parents, linkOrder, free]
      have catalog : ∀ parent ∈ Model.parents (m := .booking) booking, parent.1 = .service ∨ parent.1 = .customer := by
        intro parent member
        simp only [Model.parents, free, Option.toList_none, List.map_nil, List.append_nil, List.mem_cons, List.mem_map] at member
        rcases member with rfl | ⟨_, _, rfl⟩
        · exact .inl rfl
        · exact .inr rfl
      have same (m : Model) (k : Model.Key m) (different : m ≠ .booking) :
          ((moment.view (some earlier)).applyAll [.put .booking ((linkOrder orderId).apply booking)]).get m k =
            (moment.view (some earlier)).get m k := by
        rw [Database.get, Database.applyAll_other, Database.get]
        intro write member
        cases List.mem_singleton.mp member
        exact different.symm
      refine and_congr Iff.rfl (and_congr decide_eq_true_iff (and_congr Iff.rfl ?_))
      rw [linked, List.forall_mem_append, List.forall_mem_singleton]
      have present (parent : (m : Model) × Model.Key m) (member : parent ∈ Model.parents (m := .booking) booking) :
          ((moment.view (some earlier)).applyAll [.put .booking ((linkOrder orderId).apply booking)]).get parent.1 parent.2 =
            moment.database.get parent.1 parent.2 := by
        rw [same, Database.get, other, Database.get]
        all_goals rcases catalog parent member with same | same <;> rw [same] <;> simp
      constructor
      · rintro ⟨parents, _⟩ parent member
        exact present parent member ▸ parents parent member
      · intro parents
        refine ⟨fun parent member => (present parent member).symm ▸ parents parent member, ?_⟩
        exact (congrArg Option.isSome (same .order orderId (by simp))).trans ordered
    rw [linkBooking]
    refine (succeeds_guarded only).trans ?_
    rw [found]
    simp only [Option.some.injEq, forall_eq', linking, Option.bind_some]
    constructor
    · rintro ⟨booking, present, matched, allowed, holds⟩
      simp only [Bool.and_eq_true, decide_eq_true_eq] at matched
      obtain ⟨unique, interval, apart, parents⟩ := (admitted booking matched.1.2).mp allowed
      refine ⟨⟨booking, present, matched.1.2, matched.2, unique, interval, apart, parents⟩, ?_⟩
      rw [present]
      exact holds
    · rintro ⟨⟨booking, present, linkable⟩, holds⟩
      rw [present] at holds
      refine ⟨booking, present, ?_, (admitted booking linkable.free).mpr
        ⟨linkable.unique, linkable.interval, linkable.apart, linkable.parents⟩, holds⟩
      have same : booking.id = bookingId := (Table.find_eq_some.mp present).2
      simp [same, linkable.free, linkable.tenant]

/-- The constraints of an order's item. -/
structure Billable (units : List (Id × Int)) (line : Id × Int) : Prop where
  positive : 0 < line.2
  quantity : Model.fitsInteger line.2 = true
  amount : Model.fitsBigint (unitPrice units line.1) = true
  total : Model.fitsBigint (lineTotal units line) = true

def itemOf (tenantId : Id) (order : Order) (products : List Product) (units : List (Id × Int)) (variant : ProductVariant)
    (line : Id × Int) (id now : Nat) : OrderItem :=
  { id, tenantId, orderId := order.id, variantId := line.1, productName := productName products variant
    variantName := variant.name, sku := variant.sku, quantity := line.2, currency := order.currency
    unitAmountMinor := unitPrice units line.1, lineTotalMinor := lineTotal units line, createdAt := now }

/-- The rows that `createItems` creates for numbered lines. -/
def itemized (tenantId : Id) (order : Order) (variants : List ProductVariant) (products : List Product)
    (units : List (Id × Int)) (now : Nat) (lines : List ((Id × Int) × Nat)) : List OrderItem :=
  lines.filterMap fun (line, id) => (variants.find? fun variant => variant.id = line.1).map fun variant =>
    itemOf tenantId order products units variant line id now

theorem succeeds_createItems {order : Order} {variants : List ProductVariant} {products : List Product}
    {units : List (Id × Int)} {earlier : List (Write commerce)} {done : List OrderItem}
    {post : Unit → Pending commerce → Moment commerce → Prop}
    (unlisted : putsOf (S := commerce) .orderItem earlier = []) (kept : erasesOf (S := commerce) .orderItem earlier = [])
    (before : ∀ item ∈ done, item.id < moment.stamp)
    (ordered : ((moment.database.applyAll earlier).get .order order.id).isSome = true)
    (known : ∀ variant ∈ variants, ((moment.database.applyAll earlier).get .productVariant variant.id).isSome = true) :
    (createItems tenantId order variants products units lines).Succeeds
        (some (earlier ++ storing (m := .orderItem) done)) moment post ↔
      (∀ line ∈ lines, (variants.find? fun variant => variant.id = line.1).isSome = true ∧ Billable units line) ∧
        (∀ n < lines.length, moment.database.get .orderItem (moment.stamp + n) = none) ∧
        post () (some (earlier ++ storing (m := .orderItem)
          (done ++ itemized tenantId order variants products units moment.clock (lines.zipIdx moment.stamp))))
          (moment.ticks lines.length) := by
  induction lines generalizing done moment with
  | nil => simp [createItems, itemized, Moment.ticks]
  | cons line rest ih =>
    rw [createItems, succeeds_bind, succeeds_orThrow, List.forall_mem_cons]
    cases found : variants.find? fun variant => variant.id = line.1 with
    | none => simp
    | some variant =>
      simp only [Option.some.injEq, exists_eq_left', Option.isSome_some, true_and]
      rw [succeeds_bind, succeeds_create]
      have same : variant.id = line.1 := by simpa using List.find?_some found
      have fresh : (moment.view (some (earlier ++ storing (m := .orderItem) done))).get .orderItem moment.stamp =
          moment.database.get .orderItem moment.stamp := by
        refine Database.get_untouched (S := commerce) (m := .orderItem) _ ?_ ?_
        · rw [Option.getD_some, erasesOf_append, kept, erasesOf_map_put, List.append_nil]
        · rw [Option.getD_some, putsOf_append, unlisted, List.nil_append, putsOf_map_same, List.map_id']
          intro inside
          obtain ⟨item, member, equal⟩ := List.mem_map.mp inside
          exact absurd equal (Nat.ne_of_lt (before item member))
      have other (m : Model) (k : Model.Key m) (different : m ≠ .orderItem) :
          ((moment.view (some (earlier ++ storing (m := .orderItem) done))).get m k).isSome =
            ((moment.database.applyAll earlier).get m k).isSome := by
        rw [Moment.view, Option.getD_some, Database.applyAll_append, Database.get, Database.applyAll_other, Database.get]
        intro write member
        obtain ⟨row, _, rfl⟩ := List.mem_map.mp member
        exact different.symm
      have admitted : constrain (m := Model.orderItem) (moment.view (some (earlier ++ storing (m := .orderItem) done)))
          (itemOf tenantId order products units variant line moment.stamp moment.clock) = .ok () ↔ Billable units line := by
        rw [constrain_iff]
        simp only [Model.check, itemOf, Bool.and_eq_true]
        constructor
        · rintro ⟨_, ⟨⟨⟨⟨positive, quantity⟩, amount⟩, total⟩, _⟩, _⟩
          exact ⟨of_decide_eq_true positive, quantity, amount, total⟩
        · intro billable
          refine ⟨rfl, ⟨⟨⟨⟨decide_eq_true billable.positive, billable.quantity⟩, billable.amount⟩, billable.total⟩,
            decide_eq_true (Int.mul_comm ..)⟩, ?_, ?_⟩
          · simp [excluded, Model.excludes]
          · intro parent member
            rcases List.mem_cons.mp member with rfl | last
            · exact (other .order order.id (by decide)).trans ordered
            · cases List.mem_singleton.mp last
              exact (other .productVariant line.1 (by simp)).trans (same ▸ known variant (List.mem_of_find?_eq_some found))
      have listed : itemized tenantId order variants products units moment.clock ((line :: rest).zipIdx moment.stamp) =
          itemOf tenantId order products units variant line moment.stamp moment.clock ::
            itemized tenantId order variants products units moment.clock (rest.zipIdx (moment.stamp + 1)) := by
        simp only [itemized, List.zipIdx_cons, List.filterMap_cons, found, Option.map_some]
      have numbered : (∀ n < (line :: rest).length, moment.database.get .orderItem (moment.stamp + n) = none) ↔
          moment.database.get .orderItem moment.stamp = none ∧
            ∀ n < rest.length, moment.database.get .orderItem (moment.tick.stamp + n) = none := by
        rw [List.length_cons, Nat.forall_lt_succ_left]
        refine and_congr Iff.rfl (forall₂_congr fun n _ => ?_)
        rw [show moment.stamp + (n + 1) = moment.tick.stamp + n from (Nat.succ_add ..).symm]
      have stepped := @ih moment.tick
        (done ++ [itemOf tenantId order products units variant line moment.stamp moment.clock]) ?_ ordered known
      · rw [storing, List.map_append, List.map_singleton, ← List.append_assoc] at stepped
        refine (and_congr ⟨fresh.symm.trans, fresh.trans⟩ (and_congr admitted stepped)).trans ?_
        rw [numbered, listed, Moment.tick_ticks, List.append_assoc, List.singleton_append]
        constructor
        · rintro ⟨free, billable, others, unused, holds⟩
          exact ⟨⟨billable, others⟩, ⟨free, unused⟩, holds⟩
        · rintro ⟨⟨billable, others⟩, ⟨free, unused⟩, holds⟩
          exact ⟨free, billable, others, unused, holds⟩
      · intro item member
        rcases List.mem_append.mp member with earlier | last
        · exact Nat.lt_succ_of_lt (before item earlier)
        · cases List.mem_singleton.mp last
          exact Nat.lt_succ_self _

theorem constrain_order {view : Db} {order : Order}
    (customer : ∀ id, order.customerId = some id → (view.get .customer id).isSome = true) :
    constrain (m := Model.order) view order = .ok () ↔ Model.fitsBigint order.subtotalMinor = true := by
  rw [constrain_iff]
  refine ⟨fun ⟨_, fits, _⟩ => fits, fun fits => ⟨rfl, fits, by simp [excluded, Model.excludes], fun parent member => ?_⟩⟩
  obtain ⟨id, given, rfl⟩ := List.mem_map.mp member
  exact customer id (Option.mem_toList.mp given)

/-- What `placeOrder` is called with, for given lines. -/
structure Basket where
  tenantId : Id
  userId : Id
  customerId : Option Id
  pool : Option Id
  bookingId : Option Id
  lines : List (Id × Int)

namespace Basket
variable (basket : Basket) (db : Db)

/-- A variant that the tenant sells. -/
def Sells (variantId : Id) (variant : ProductVariant) : Prop :=
  db.get .productVariant variantId = some variant ∧ variant.tenantId = basket.tenantId ∧ variant.status = .active

def variants : List ProductVariant :=
  (db.table .productVariant).rows.filter fun row => row.id ∈ basket.lines.map Prod.fst && row.tenantId = basket.tenantId

def products : List Product :=
  (db.table .product).rows.filter fun row =>
    row.id ∈ (basket.variants db).map ProductVariant.productId && row.tenantId = basket.tenantId

/-- The scanned variants are all variants of the lines, each of them active. -/
private theorem variants_iff (distinct : (basket.lines.map Prod.fst).Nodup) :
    (basket.variants db).length = basket.lines.length ∧ (∀ variant ∈ basket.variants db, variant.status = .active) ↔
      ∀ line ∈ basket.lines, ∃ variant, basket.Sells db line.1 variant := by
  have listed (variant : ProductVariant) : variant ∈ basket.variants db ↔
      variant.id ∈ basket.lines.map Prod.fst ∧ db.get .productVariant variant.id = some variant ∧
        variant.tenantId = basket.tenantId := by
    simp only [variants, List.mem_filter, Bool.and_eq_true, decide_eq_true_eq, Database.get]
    rw [show (db.table .productVariant).find variant.id = some variant ↔ variant ∈ (db.table .productVariant).rows from
      Table.find_eq_some.trans (and_iff_left rfl)]
    exact and_left_comm
  have nodup : ((basket.variants db).map ProductVariant.id).Nodup :=
    (db.table .productVariant).distinct.sublist (List.filter_sublist.map _)
  have inside : (basket.variants db).map ProductVariant.id ⊆ basket.lines.map Prod.fst := by
    intro id member
    obtain ⟨variant, found, rfl⟩ := List.mem_map.mp member
    exact ((listed variant).mp found).1
  constructor
  · rintro ⟨complete, active⟩ line member
    have all := (List.subperm_of_subset nodup inside).perm_of_length_le (by simp [complete])
    obtain ⟨variant, found, same⟩ := List.mem_map.mp (all.mem_iff.mpr (List.mem_map_of_mem member))
    obtain ⟨_, stored, tenant⟩ := (listed variant).mp found
    exact ⟨variant, same ▸ stored, tenant, active variant found⟩
  · intro sold
    have covered : basket.lines.map Prod.fst ⊆ (basket.variants db).map ProductVariant.id := by
      intro id member
      obtain ⟨line, inside, rfl⟩ := List.mem_map.mp member
      obtain ⟨variant, stored, tenant, _⟩ := sold line inside
      have same : variant.id = line.1 := (Table.find_eq_some.mp stored).2
      exact List.mem_map.mpr ⟨variant, (listed variant).mpr ⟨same ▸ member, same ▸ stored, tenant⟩, same⟩
    constructor
    · have least := (List.subperm_of_subset distinct covered).length_le
      have most := (List.subperm_of_subset nodup inside).length_le
      rw [List.length_map, List.length_map] at least most
      omega
    · intro variant found
      obtain ⟨member, stored, _⟩ := (listed variant).mp found
      obtain ⟨line, inside, same⟩ := List.mem_map.mp member
      obtain ⟨other, there, _, active⟩ := sold line inside
      rw [same] at there
      cases stored.symm.trans there
      exact active

/-- The unit prices of the lines in a currency. -/
def units (currency : String) : List (Id × Int) :=
  (basket.lines.map Prod.fst).map fun id => (id, (priceIn db basket.tenantId currency id).getD 0)

def subtotal (currency : String) : Int := (basket.lines.map (lineTotal (basket.units db currency))).sum

variable (moment : Moment commerce) (currency : String)

/-- The statements before the order is created number its key. -/
def orderId : Id := moment.stamp + (3 + basket.lines.length)

def order : Order :=
  { id := basket.orderId moment, tenantId := basket.tenantId, userId := basket.userId, customerId := basket.customerId
    status := .pending, currency, subtotalMinor := basket.subtotal moment.database currency, cancelledAt := none
    createdAt := moment.clock }

def itemId : Id := basket.orderId moment + 1 + basket.bookingId.toList.length

def items : List OrderItem :=
  itemized basket.tenantId (basket.order moment currency) (basket.variants moment.database) (basket.products moment.database)
    (basket.units moment.database currency) moment.clock (basket.lines.zipIdx (basket.itemId moment))

/-- Everything that the transaction commits. -/
def writes : List (Write commerce) :=
  storing (m := .inventory) (debited moment.database basket.pool basket.lines) ++ [.put .order (basket.order moment currency)] ++
    linking moment.database (basket.orderId moment) basket.bookingId ++ storing (m := .orderItem) (basket.items moment currency)

def summary : OrderSummary :=
  toSummary (basket.order moment currency) (Prisma.orderBy OrderItem.createdAt
    (((moment.database.applyAll (basket.writes moment currency)).table .orderItem).rows.filter fun row =>
      row.orderId = basket.orderId moment && row.tenantId = basket.tenantId))

/-- The number of statements of `placeOrder`. -/
def statements : Nat := 3 + basket.lines.length + 1 + basket.bookingId.toList.length + basket.lines.length + 1

/-- The rows that the order needs, whatever it costs. -/
structure Placeable : Prop where
  sold : ∀ line ∈ basket.lines, ∃ variant, basket.Sells moment.database line.1 variant
  stocked : ∀ line ∈ basket.lines, ∃ row, Debitable moment.database basket.tenantId basket.pool line row
  quantities : ∀ line ∈ basket.lines, 0 < line.2 ∧ Model.fitsInteger line.2 = true
  fresh : moment.database.get .order (basket.orderId moment) = none
  linkable : ∀ id, basket.bookingId = some id → ∃ booking, moment.database.get .booking id = some booking ∧
    Linkable moment.database basket.tenantId (basket.orderId moment) booking
  itemsFresh : ∀ n < basket.lines.length, moment.database.get .orderItem (basket.itemId moment + n) = none

/-- Every line has a price in the currency, and all amounts fit their columns. -/
structure Chargeable : Prop where
  named : currency ≠ ""
  priced : ∀ line ∈ basket.lines, (priceIn db basket.tenantId currency line.1).isSome = true
  amounts : ∀ line ∈ basket.lines, Model.fitsBigint (unitPrice (basket.units db currency) line.1) = true ∧
    Model.fitsBigint (lineTotal (basket.units db currency) line) = true
  subtotal : Model.fitsBigint (basket.subtotal db currency) = true

variable {basket} {moment}

/-- The statements that link the booking to the order and create its items. -/
def itemize (basket : Basket) (variants : List ProductVariant) (products : List Product) (units : List (Id × Int))
    (order : Order) : Service Unit := do
  linkBooking basket.tenantId order.id basket.bookingId
  createItems basket.tenantId order variants products units basket.lines

/-- The statements of `placeOrder` after the order is created. -/
private def fill (basket : Basket) (variants : List ProductVariant) (products : List Product) (units : List (Id × Int))
    (order : Order) : Service OrderSummary := do
  basket.itemize variants products units order
  let items ← Prisma.findMany .orderItem fun row => row.orderId = order.id && row.tenantId = basket.tenantId
  pure (toSummary order (Prisma.orderBy OrderItem.createdAt items))

/-- The statements of `placeOrder` after the lines are priced. -/
private def charge (basket : Basket) (variants : List ProductVariant) (currency : String) (units : List (Id × Int)) :
    Service OrderSummary := do
  let productIds := variants.map ProductVariant.productId
  let products ← Prisma.findMany .product fun row => row.id ∈ productIds && row.tenantId = basket.tenantId
  debit basket.tenantId basket.pool basket.lines
  let order ← Prisma.create .order fun id now =>
    { id, tenantId := basket.tenantId, userId := basket.userId, customerId := basket.customerId, status := .pending, currency
      subtotalMinor := (basket.lines.map (lineTotal units)).sum, cancelledAt := none, createdAt := now }
  basket.fill variants products units order

theorem ordering (moment : Moment commerce) :
    (∀ write ∈ storing (m := .inventory) (debited moment.database basket.pool basket.lines) ++
      [Write.put Model.order (basket.order moment currency)], write.model = .inventory ∨ write.model = .order) ∧
      (moment.database.applyAll (storing (m := .inventory) (debited moment.database basket.pool basket.lines) ++
        [.put .order (basket.order moment currency)])).get .order (basket.orderId moment) = some (basket.order moment currency) := by
  constructor
  · intro write member
    rcases List.mem_append.mp member with debit | created
    · obtain ⟨row, _, rfl⟩ := List.mem_map.mp debit
      exact .inl rfl
    · cases List.mem_singleton.mp created
      exact .inr rfl
  · rw [Database.applyAll_append]
    exact Database.get_put (S := commerce) _ .order (basket.order moment currency)

theorem succeeds_itemize {post : Unit → Pending commerce → Moment commerce → Prop}
    (sold : ∀ line ∈ basket.lines, ∃ variant, basket.Sells moment.database line.1 variant) :
    (basket.itemize (basket.variants moment.database) (basket.products moment.database) (basket.units moment.database currency)
        (basket.order moment currency)).Succeeds
        (some (storing (m := .inventory) (debited moment.database basket.pool basket.lines) ++
          [.put .order (basket.order moment currency)])) (moment.ticks (3 + basket.lines.length)).tick post ↔
      (∀ id, basket.bookingId = some id → ∃ booking, moment.database.get .booking id = some booking ∧
        Linkable moment.database basket.tenantId (basket.orderId moment) booking) ∧
        (∀ line ∈ basket.lines, Billable (basket.units moment.database currency) line) ∧
        (∀ n < basket.lines.length, moment.database.get .orderItem (basket.itemId moment + n) = none) ∧
        post () (some (basket.writes moment currency))
          (((moment.ticks (3 + basket.lines.length)).tick.ticks basket.bookingId.toList.length).ticks basket.lines.length) := by
  obtain ⟨models, ordered⟩ := @ordering basket currency moment
  have linked : ∀ write ∈ linking moment.database (basket.orderId moment) basket.bookingId, write.model = .booking := by
    intro write member
    obtain ⟨row, _, rfl⟩ := List.mem_map.mp member
    rfl
  have other (m : Model) (inventory : m ≠ .inventory) (order : m ≠ .order) (booking : m ≠ .booking) :
      ∀ write ∈ storing (m := .inventory) (debited moment.database basket.pool basket.lines) ++
        [Write.put Model.order (basket.order moment currency)] ++
        linking moment.database (basket.orderId moment) basket.bookingId, write.model ≠ m := by
    intro write member same
    rcases List.mem_append.mp member with earlier | last
    · rcases models write earlier with model | model
      · exact inventory (same.symm.trans model)
      · exact order (same.symm.trans model)
    · exact booking (same.symm.trans (linked write last))
  rw [itemize, succeeds_bind]
  refine Iff.trans (succeeds_linkBooking models (Option.isSome_of_eq_some ordered)) (and_congr Iff.rfl ?_)
  rw [← List.append_nil (_ ++ linking ..)]
  have none (item : OrderItem) (member : item ∈ ([] : List OrderItem)) :
      item.id < ((moment.ticks (3 + basket.lines.length)).tick.ticks basket.bookingId.toList.length).stamp :=
    absurd member List.not_mem_nil
  refine Iff.trans (succeeds_createItems (putsOf_other (other .orderItem (by decide) (by decide) (by decide)))
    (erasesOf_other (other .orderItem (by decide) (by decide) (by decide))) none ?_ ?_) ?_
  · rw [Database.applyAll_append, Database.get, Database.applyAll_other]
    · exact Option.isSome_of_eq_some ordered
    · intro write member
      rw [linked write member]
      simp
  · intro variant member
    rw [Database.get, Database.applyAll_other _ (other .productVariant (by decide) (by decide) (by decide))]
    exact Option.isSome_of_eq_some (Table.find_eq_some.mpr ⟨List.mem_of_mem_filter member, rfl⟩)
  · have named : ∀ line ∈ basket.lines,
        ((basket.variants moment.database).find? fun variant => variant.id = line.1).isSome = true := by
      intro line member
      obtain ⟨variant, found, tenant, _⟩ := sold line member
      have same : variant.id = line.1 := (Table.find_eq_some.mp found).2
      refine List.find?_isSome.mpr ⟨variant, List.mem_filter.mpr ⟨(Table.find_eq_some.mp found).1, ?_⟩, by simpa using same⟩
      simp only [same, tenant, decide_true, Bool.and_true, decide_eq_true_eq]
      exact List.mem_map_of_mem member
    constructor
    · rintro ⟨billable, itemsFresh, holds⟩
      exact ⟨fun line member => (billable line member).2, itemsFresh, holds⟩
    · rintro ⟨billable, itemsFresh, holds⟩
      exact ⟨fun line member => ⟨named line member, billable line member⟩, itemsFresh, holds⟩

private theorem succeeds_fill {post : OrderSummary → Pending commerce → Moment commerce → Prop}
    (sold : ∀ line ∈ basket.lines, ∃ variant, basket.Sells moment.database line.1 variant) :
    (basket.fill (basket.variants moment.database) (basket.products moment.database) (basket.units moment.database currency)
        (basket.order moment currency)).Succeeds
        (some (storing (m := .inventory) (debited moment.database basket.pool basket.lines) ++
          [.put .order (basket.order moment currency)])) (moment.ticks (3 + basket.lines.length)).tick post ↔
      (∀ id, basket.bookingId = some id → ∃ booking, moment.database.get .booking id = some booking ∧
        Linkable moment.database basket.tenantId (basket.orderId moment) booking) ∧
        (∀ line ∈ basket.lines, Billable (basket.units moment.database currency) line) ∧
        (∀ n < basket.lines.length, moment.database.get .orderItem (basket.itemId moment + n) = none) ∧
        post (basket.summary moment currency) (some (basket.writes moment currency)) (moment.ticks basket.statements) := by
  have finish : (((moment.ticks (3 + basket.lines.length)).tick.ticks basket.bookingId.toList.length).ticks
      basket.lines.length).tick = moment.ticks basket.statements := by
    simp only [Moment.tick, Moment.ticks_ticks, statements]
  rw [fill, succeeds_bind]
  refine (succeeds_itemize currency sold).trans (and_congr Iff.rfl (and_congr Iff.rfl (and_congr Iff.rfl ?_)))
  rw [succeeds_bind]
  refine succeeds_findMany.trans ?_
  rw [finish]
  exact Iff.rfl

private theorem succeeds_charge {post : OrderSummary → Pending commerce → Moment commerce → Prop}
    (sold : ∀ line ∈ basket.lines, ∃ variant, basket.Sells moment.database line.1 variant)
    (distinct : (basket.lines.map Prod.fst).Nodup)
    (customer : ∀ id, basket.customerId = some id → (moment.database.get .customer id).isSome = true) :
    (basket.charge (basket.variants moment.database) currency (basket.units moment.database currency)).Succeeds
        (some []) (moment.ticks 2) post ↔
      basket.Placeable moment ∧ (∀ line ∈ basket.lines, Billable (basket.units moment.database currency) line) ∧
        Model.fitsBigint (basket.subtotal moment.database currency) = true ∧ post (basket.summary moment currency)
          (some (basket.writes moment currency)) (moment.ticks basket.statements) := by
  rw [charge, succeeds_bind]
  refine succeeds_findMany.trans ?_
  rw [succeeds_bind]
  have start : (moment.ticks 2).tick.ticks basket.lines.length = moment.ticks (3 + basket.lines.length) :=
    Moment.ticks_ticks moment 3 _
  have apart (line : Id × Int) : (line.1, basket.pool) ∉ ([] : List Inventory).map Inventory.pool := List.not_mem_nil
  refine (succeeds_debit distinct fun line _ => apart line).trans ?_
  rw [start, List.nil_append, succeeds_bind]
  refine (and_congr Iff.rfl (succeeds_create.trans (and_congr Iff.rfl
    (and_congr Iff.rfl (succeeds_fill currency sold))))).trans ?_
  have untouched (m : Model) (different : m ≠ .inventory) : ((moment.ticks (3 + basket.lines.length)).view
      (some (storing (m := .inventory) (debited moment.database basket.pool basket.lines)))).table m = moment.database.table m := by
    refine Database.applyAll_other _ fun write member => ?_
    obtain ⟨row, _, rfl⟩ := List.mem_map.mp member
    exact different.symm
  have admitted := @constrain_order ((moment.ticks (3 + basket.lines.length)).view
    (some (storing (m := .inventory) (debited moment.database basket.pool basket.lines)))) (basket.order moment currency)
    fun id given => by
      rw [Database.get, untouched .customer (by decide)]
      exact customer id given
  have free : ((moment.ticks (3 + basket.lines.length)).view
      (some (storing (m := .inventory) (debited moment.database basket.pool basket.lines)))).get .order (basket.orderId moment) =
        moment.database.get .order (basket.orderId moment) := by
    rw [Database.get, untouched .order (by decide), Database.get]
  constructor
  · rintro ⟨stocked, fresh, allowed, linkable, billable, itemsFresh, holds⟩
    exact ⟨⟨sold, fun line member => (stocked line member).2,
      fun line member => ⟨(billable line member).positive, (billable line member).quantity⟩, free.symm.trans fresh, linkable,
      itemsFresh⟩, billable, admitted.mp allowed, holds⟩
  · rintro ⟨placeable, billable, fits, holds⟩
    exact ⟨fun line member => ⟨sendable_of_fits (placeable.quantities line member).2, placeable.stocked line member⟩, free.trans placeable.fresh, admitted.mpr fits, placeable.linkable, billable,
      placeable.itemsFresh, holds⟩

/-- The statements of `placeOrder` up to the lines' prices. -/
def quote (basket : Basket) : Service (List ProductVariant × String × List (Id × Int)) := do
  let variants ← Prisma.findMany .productVariant fun row =>
    row.id ∈ basket.lines.map Prod.fst && row.tenantId = basket.tenantId
  throwIf (variants.length ≠ (basket.lines.map Prod.fst).length) (.notFound VARIANT_NOT_FOUND)
  throwIf (variants.any fun variant => variant.status ≠ .active) (.conflict VARIANT_NOT_ACTIVE)
  let prices ← Prisma.findMany .price fun row =>
    row.variantId ∈ basket.lines.map Prod.fst && row.tenantId = basket.tenantId
  let (target, units) ← ofExcept (unitPrices prices none (basket.lines.map Prod.fst))
  throwIf (target.getD "" = "") (.conflict PRICE_NOT_FOUND)
  pure (variants, target.getD "", units)

theorem succeeds_quote {post : List ProductVariant × String × List (Id × Int) → Pending commerce → Moment commerce → Prop}
    {line : Id × Int} {rest : List (Id × Int)} (listed : basket.lines = line :: rest)
    (distinct : (basket.lines.map Prod.fst).Nodup) :
    basket.quote.Succeeds (some []) moment post ↔
      (∀ line ∈ basket.lines, ∃ variant, basket.Sells moment.database line.1 variant) ∧
        ∃ currency, firstCurrency moment.database basket.tenantId line.1 = some currency ∧
          (∀ line ∈ basket.lines, (priceIn moment.database basket.tenantId currency line.1).isSome = true) ∧ currency ≠ "" ∧
          post (basket.variants moment.database, currency, basket.units moment.database currency) (some []) (moment.ticks 2) := by
  have priced (post : Option String × List (Id × Int) → Prop) : (∃ value, unitPrices (pricesOf moment.database basket.tenantId
      (basket.lines.map Prod.fst)) none (basket.lines.map Prod.fst) = .ok value ∧ post value) ↔
      ∃ currency, firstCurrency moment.database basket.tenantId line.1 = some currency ∧
        (∀ line ∈ basket.lines, (priceIn moment.database basket.tenantId currency line.1).isSome = true) ∧
        post (some currency, basket.units moment.database currency) := by
    simp only [Prod.exists, units, listed, List.map_cons, unitPrices_pricesOf]
    constructor
    · rintro ⟨_, _, ⟨currency, first, priced, rfl, rfl⟩, holds⟩
      exact ⟨currency, first, fun line member => priced _ (List.mem_map_of_mem (f := Prod.fst) member), holds⟩
    · rintro ⟨currency, first, priced, holds⟩
      refine ⟨_, _, ⟨currency, first, fun id member => ?_, rfl, rfl⟩, holds⟩
      rw [← List.map_cons] at member
      obtain ⟨line, inside, rfl⟩ := List.mem_map.mp member
      exact priced line inside
  rw [quote, succeeds_bind]
  refine succeeds_findMany.trans ?_
  have scanned : ((moment.view (some [])).table .productVariant).rows.filter (fun row =>
    row.id ∈ basket.lines.map Prod.fst && row.tenantId = basket.tenantId) = basket.variants moment.database := rfl
  rw [scanned, succeeds_bind, succeeds_throwIf, succeeds_bind, succeeds_throwIf, succeeds_bind]
  refine (and_congr Iff.rfl (and_congr Iff.rfl succeeds_findMany)).trans ?_
  rw [succeeds_bind, succeeds_ofExcept]
  refine (and_congr Iff.rfl (and_congr Iff.rfl (priced _))).trans ?_
  simp only [succeeds_bind, succeeds_throwIf, succeeds_pure, Option.getD_some]
  have sold := basket.variants_iff moment.database distinct
  constructor
  · rintro ⟨complete, active, currency, first, asked, named, holds⟩
    exact ⟨sold.mp ⟨by simpa using complete, by simpa using active⟩, currency, first, asked, by simpa using named, holds⟩
  · rintro ⟨all, currency, first, asked, named, holds⟩
    obtain ⟨complete, active⟩ := sold.mpr all
    exact ⟨by simpa using complete, by simpa using active, currency, first, asked, by simpa using named, holds⟩

theorem succeeds_placeOrder {post : OrderSummary → Pending commerce → Moment commerce → Prop} {line : Id × Int}
    {rest : List (Id × Int)} (listed : basket.lines = line :: rest) (distinct : (basket.lines.map Prod.fst).Nodup)
    (customer : ∀ id, basket.customerId = some id → (moment.database.get .customer id).isSome = true) :
    (placeOrder basket.tenantId basket.userId basket.customerId basket.pool basket.bookingId none basket.lines).Succeeds
        (some []) moment post ↔
      basket.Placeable moment ∧ ∃ currency, firstCurrency moment.database basket.tenantId line.1 = some currency ∧
        basket.Chargeable moment.database currency ∧ post (basket.summary moment currency)
          (some (basket.writes moment currency)) (moment.ticks basket.statements) := by
  have opened : placeOrder basket.tenantId basket.userId basket.customerId basket.pool basket.bookingId none basket.lines =
      basket.quote >>= fun (variants, currency, units) => basket.charge variants currency units := by
    simp only [quote, charge, fill, itemize, bind_assoc, pure_bind]
    rfl
  rw [opened, succeeds_bind, succeeds_quote listed distinct]
  constructor
  · intro ⟨sold, currency, first, priced, named, charged⟩
    obtain ⟨placeable, billable, fits, holds⟩ := (succeeds_charge currency sold distinct customer).mp charged
    exact ⟨placeable, currency, first, ⟨named, priced,
      fun line member => ⟨(billable line member).amount, (billable line member).total⟩, fits⟩, holds⟩
  · intro ⟨placeable, currency, first, chargeable, holds⟩
    refine ⟨placeable.sold, currency, first, chargeable.priced, chargeable.named, ?_⟩
    refine (succeeds_charge currency placeable.sold distinct customer).mpr ⟨placeable, fun line member => ?_,
      chargeable.subtotal, holds⟩
    obtain ⟨positive, quantity⟩ := placeable.quantities line member
    obtain ⟨amount, total⟩ := chargeable.amounts line member
    exact ⟨positive, quantity, amount, total⟩

end Basket

theorem succeeds_assertCustomer {customerId : Option Id} {post : Unit → Pending commerce → Moment commerce → Prop} :
    (assertCustomer tenantId customerId).Succeeds none moment post ↔
      (∀ id, customerId = some id → ∃ customer, moment.database.get .customer id = some customer ∧ customer.tenantId = tenantId) ∧
        post () none (moment.ticks customerId.toList.length) := by
  cases customerId with
  | none => simp [assertCustomer, Moment.ticks]
  | some customerId =>
    rw [assertCustomer, succeeds_bind]
    refine succeeds_findFirst.trans ?_
    rw [succeeds_throwIf]
    refine and_congr ?_ Iff.rfl
    simp only [Option.isNone_eq_false_iff, List.find?_isSome, Bool.and_eq_true, decide_eq_true_eq, Option.some.injEq, forall_eq']
    constructor
    · rintro ⟨customer, member, rfl, tenant⟩
      exact ⟨customer, Table.find_eq_some.mpr ⟨member, rfl⟩, tenant⟩
    · rintro ⟨customer, found, tenant⟩
      obtain ⟨member, same⟩ := Table.find_eq_some.mp found
      exact ⟨customer, member, same, tenant⟩

variable {userId : Id} {dto : CreateOrderDto} {options : CreateOrderOptions}

def basketOf (tenantId userId : Id) (dto : CreateOrderDto) (options : CreateOrderOptions) : Basket :=
  { tenantId, userId, customerId := dto.customerId, pool := options.inventoryScope.storeId, bookingId := options.bookingId
    lines := aggregateItems (dto.items.getD []) }

/-- The moment when the transaction of a call starts. -/
def placing (dto : CreateOrderDto) (moment : Moment commerce) : Moment commerce :=
  moment.ticks (dto.customerId.toList.length + 1)

theorem succeeds_createOrder {item : OrderItemInputDto} {items : List OrderItemInputDto}
    {post : OrderSummary → Pending commerce → Moment commerce → Prop} (given : dto.items = some (item :: items)) :
    (createOrder tenantId userId dto options).Succeeds none moment post ↔
      (∀ id, dto.customerId = some id →
        ∃ customer, moment.database.get .customer id = some customer ∧ customer.tenantId = tenantId) ∧
        (basketOf tenantId userId dto options).Placeable (placing dto moment) ∧
        ∃ currency, firstCurrency moment.database tenantId item.variantId = some currency ∧
          (basketOf tenantId userId dto options).Chargeable moment.database currency ∧
          post ((basketOf tenantId userId dto options).summary (placing dto moment) currency) none
            ((((placing dto moment).ticks (basketOf tenantId userId dto options).statements).commit
              ((basketOf tenantId userId dto options).writes (placing dto moment) currency)).tick) := by
  have lines : (basketOf tenantId userId dto options).lines = aggregateItems (item :: items) := by
    rw [basketOf, given, Option.getD_some]
  have head : ((basketOf tenantId userId dto options).lines.map Prod.fst).head? = some item.variantId := by
    rw [lines]
    exact Tally.head_collect (item.variantId, item.quantity) _
  obtain ⟨line, rest, listed⟩ : ∃ line rest, (basketOf tenantId userId dto options).lines = line :: rest := by
    cases listed : (basketOf tenantId userId dto options).lines with
    | nil => simp [listed] at head
    | cons line rest => exact ⟨line, rest, rfl⟩
  have named : line.1 = item.variantId := by simpa [listed] using head
  have input : itemsInput tenantId userId dto = pure (item :: items, none) := by
    rw [itemsInput, given]
  rw [createOrder, input, pure_bind, succeeds_bind, succeeds_assertCustomer]
  refine and_congr_right fun customers => ?_
  rw [succeeds_transaction, ← named]
  have customer : ∀ id, (basketOf tenantId userId dto options).customerId = some id →
      ((placing dto moment).database.get .customer id).isSome = true := by
    intro id same
    obtain ⟨customer, found, _⟩ := customers id same
    exact Option.isSome_of_eq_some found
  have distinct : ((basketOf tenantId userId dto options).lines.map Prod.fst).Nodup := lines ▸ Tally.nodup_collect _
  rw [← lines]
  exact Basket.succeeds_placeOrder listed distinct customer

end BusinessPlatform
