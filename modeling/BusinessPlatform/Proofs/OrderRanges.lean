import BusinessPlatform.Engine.Failing
import BusinessPlatform.Proofs.LineOrder
import BusinessPlatform.Proofs.SystemSafety
import BusinessPlatform.ProductVariantService

/-! Which orders leave the ranges of their columns. -/

namespace BusinessPlatform
open Engine OrderService Program

/-- Every row meets its constraints, and no order or item has a key that is still to be generated. -/
structure Consistent (moment : Moment commerce) : Prop where
  constrained : ∀ (m : Model), ∀ row ∈ (moment.database.table m).rows, constrain (S := commerce) moment.database row = .ok ()
  orders : ∀ stamp, moment.stamp ≤ stamp → moment.database.get .order stamp = none
  items : ∀ stamp, moment.stamp ≤ stamp → moment.database.get .orderItem stamp = none

theorem Consistent.ticks {moment : Moment commerce} (consistent : Consistent moment) (statements : Nat) :
    Consistent (moment.ticks statements) :=
  ⟨consistent.constrained, fun stamp later => consistent.orders stamp (Nat.le_trans (Nat.le_add_right ..) later),
    fun stamp later => consistent.items stamp (Nat.le_trans (Nat.le_add_right ..) later)⟩

/-- The failure is answered with a 4xx status. -/
def ClientError : Failure HttpException → Prop
  | .thrown .internalServerError => False
  | .thrown _ => True
  | _ => False

/-- The failure is answered with status 500. -/
abbrev ServerError (failure : Failure HttpException) : Prop := ¬ ClientError failure

variable {tenantId userId : Id} {dto : CreateOrderDto} {options : CreateOrderOptions} {db : Db} {moment : Moment commerce}

/-- The lines that a call is asked for, and the cart that it converts. -/
inductive Asked (db : Db) (tenantId userId : Id) (dto : CreateOrderDto) : List OrderItemInputDto → Option Id → Prop where
  | items {item : OrderItemInputDto} {items : List OrderItemInputDto} (given : dto.items = some (item :: items)) :
    Asked db tenantId userId dto (item :: items) none
  | cart {cart : Cart} {rows : List CartItem} (given : dto.items.getD [] = [])
      (oldest : (Prisma.orderBy Cart.createdAt ((db.table .cart).rows.filter fun row =>
        row.userId = userId && row.status = .opened && row.tenantId = tenantId)).head? = some cart)
      (listed : (db.table .cartItem).rows.filter (fun row => row.cartId = cart.id && row.tenantId = tenantId) = rows)
      (nonempty : rows ≠ []) :
    Asked db tenantId userId dto (rows.map cartInput) (some cart.id)

theorem Asked.nonempty {lines : List OrderItemInputDto} {cartId : Option Id} (asked : Asked db tenantId userId dto lines cartId) :
    lines ≠ [] := by
  cases asked with
  | items given => exact List.cons_ne_nil _ _
  | cart _ _ _ nonempty => simpa using nonempty

/-- The statements that read the lines. -/
def asking (dto : CreateOrderDto) : Nat := if dto.items.getD [] = [] then 2 else 0

theorem succeeds_readCart (given : dto.items.getD [] = [])
    {post : List OrderItemInputDto × Option Id → Pending commerce → Moment commerce → Prop} :
    (readCart tenantId userId).Succeeds none moment post ↔ ∃ lines cartId,
      Asked moment.database tenantId userId dto lines cartId ∧ post (lines, cartId) none (moment.ticks (asking dto)) := by
  rw [readCart, succeeds_bind]
  refine succeeds_findMany.trans ?_
  rw [succeeds_bind, succeeds_orThrow, asking, if_pos given]
  constructor
  · rintro ⟨cart, oldest, continues⟩
    rw [succeeds_bind] at continues
    have read := succeeds_findMany.mp continues
    rw [succeeds_bind, succeeds_throwIf] at read
    exact ⟨_, _, .cart given oldest rfl (List.isEmpty_eq_false_iff.mp read.1), read.2⟩
  · rintro ⟨lines, cartId, asked, holds⟩
    cases asked with
    | items items =>
      rw [items] at given
      cases given
    | @cart cart rows _ oldest listed nonempty =>
      refine ⟨cart, oldest, ?_⟩
      rw [succeeds_bind]
      refine succeeds_findMany.mpr ?_
      rw [succeeds_bind, succeeds_throwIf]
      have same : ((moment.tick.view none).table .cartItem).rows.filter
          (fun row => row.cartId = cart.id && row.tenantId = tenantId) = rows := listed
      rw [same]
      exact ⟨by simpa using nonempty, holds⟩

theorem succeeds_itemsInput {post : List OrderItemInputDto × Option Id → Pending commerce → Moment commerce → Prop} :
    (itemsInput tenantId userId dto).Succeeds none moment post ↔ ∃ lines cartId,
      Asked moment.database tenantId userId dto lines cartId ∧ post (lines, cartId) none (moment.ticks (asking dto)) := by
  rw [itemsInput]
  split
  next item items given =>
    have shown : asking dto = 0 := by simp [asking, given]
    rw [shown, succeeds_pure]
    constructor
    · exact fun holds => ⟨_, _, .items given, holds⟩
    · rintro ⟨lines, cartId, asked, holds⟩
      cases asked with
      | items same =>
        cases given.symm.trans same
        exact holds
      | cart none =>
        rw [given] at none
        cases none
  next none =>
    refine succeeds_readCart ?_
    cases given : dto.items with
    | none => rfl
    | some items =>
      cases items with
      | nil => rfl
      | cons item rest => exact absurd given (none item rest)

theorem itemsInput_sound : ¬ (itemsInput tenantId userId dto).Breaks ServerError none moment := by
  rw [itemsInput]
  split
  next => exact breaks_pure
  next =>
    rw [readCart, breaks_bind, not_or]
    refine ⟨breaks_findMany, fun continues => ?_⟩
    have chosen := succeeds_findMany.mp continues
    rw [breaks_bind, breaks_orThrow, succeeds_orThrow] at chosen
    rcases chosen with ⟨_, rejected⟩ | ⟨cart, _, read⟩
    · exact rejected trivial
    · rw [breaks_bind] at read
      refine read.elim breaks_findMany fun continues => ?_
      have checked := succeeds_findMany.mp continues
      rw [breaks_bind, breaks_throwIf, succeeds_throwIf] at checked
      rcases checked with ⟨_, rejected⟩ | ⟨_, ended⟩
      · exact rejected trivial
      · exact breaks_pure ended

theorem assertCustomer_sound {customerId : Option Id} :
    ¬ (assertCustomer tenantId customerId).Breaks ServerError none moment := by
  cases customerId with
  | none => exact breaks_pure
  | some customerId =>
    rw [assertCustomer, breaks_bind, not_or]
    refine ⟨breaks_findFirst, fun continues => ?_⟩
    have checked := succeeds_findFirst.mp continues
    rw [breaks_throwIf] at checked
    exact checked.2 trivial

private theorem unitPrices_error {prices : List Price} {target : Option String} {variantIds : List Id} {exception : HttpException}
    (refused : unitPrices prices target variantIds = .error exception) : ClientError (.thrown exception) := by
  induction variantIds generalizing target with
  | nil => cases refused
  | cons variantId rest ih =>
    simp only [unitPrices] at refused
    split at refused
    next =>
      cases refused
      trivial
    next =>
      split at refused
      next =>
        cases refused
        trivial
      next =>
        split at refused
        next failed =>
          cases refused
          exact ih failed
        next => cases refused

/-- The pool holds the quantity of the line. -/
def Covered (db : Db) (tenantId : Id) (pool : Option Id) (line : Id × Int) : Prop :=
  ∃ row, db.get .inventory (line.1, pool) = some row ∧ row.tenantId = tenantId ∧ line.2 ≤ row.quantityOnHand

section Debits
variable {pool : Option Id} {line : Id × Int} {rows : List Inventory}

theorem Consistent.admits (consistent : Consistent moment) {m : Model} {k : Model.Key m} {row : Model.Row m}
    (found : moment.database.get m k = some row) :
    clash (S := commerce) (moment.database.table m) row = none ∧ Model.check row = true ∧
      excluded (S := commerce) (moment.database.table m) row = false ∧
        ∀ parent ∈ Model.parents row, (moment.database.get parent.1 parent.2).isSome = true :=
  constrain_iff.mp (consistent.constrained m row (Table.find_eq_some.mp found).1)

theorem Covered.debitable (consistent : Consistent moment) (positive : 0 < line.2) {row : Inventory}
    (found : moment.database.get .inventory (line.1, pool) = some row) (tenant : row.tenantId = tenantId)
    (enough : line.2 ≤ row.quantityOnHand) : Debitable moment.database tenantId pool line row := by
  obtain ⟨_, fits, _, parents⟩ := consistent.admits found
  have fits : Model.fitsInteger row.quantityOnHand = true := fits
  refine ⟨found, tenant, enough, ?_, parents⟩
  simp only [Model.fitsInteger, Bool.and_eq_true, decide_eq_true_eq] at fits ⊢
  omega

theorem Covered.fits (consistent : Consistent moment) (positive : 0 < line.2)
    (covered : Covered moment.database tenantId pool line) : Model.fitsInteger line.2 = true := by
  obtain ⟨row, found, _, enough⟩ := covered
  have fits : Model.fitsInteger row.quantityOnHand = true := (consistent.admits found).2.1
  simp only [Model.fitsInteger, Bool.and_eq_true, decide_eq_true_eq] at fits ⊢
  omega

theorem covered_iff (consistent : Consistent moment) (positive : 0 < line.2) : Covered moment.database tenantId pool line ↔
    Prisma.sendable line.2 = true ∧ ∃ row, Debitable moment.database tenantId pool line row := by
  constructor
  · intro covered
    refine ⟨sendable_of_fits (covered.fits consistent positive), ?_⟩
    obtain ⟨row, found, tenant, enough⟩ := covered
    exact ⟨row, Covered.debitable consistent positive found tenant enough⟩
  · exact fun ⟨_, row, stocked⟩ => ⟨row, stocked.found, stocked.tenant, stocked.enough⟩

/-- The debit of one line breaks only on a quantity that is not sent. -/
private theorem breaks_line (consistent : Consistent moment) (positive : 0 < line.2)
    (apart : (line.1, pool) ∉ rows.map Inventory.pool) :
    (debit tenantId pool [line]).Breaks ServerError (some (storing (m := .inventory) rows)) moment ↔
      Prisma.sendable line.2 = false := by
  cases sent : Prisma.sendable line.2 with
  | false =>
    rw [debit, Prisma.sendInteger, sent]
    exact iff_of_true (breaks_bind.mpr (.inl (breaks_failed.mpr id))) rfl
  | true =>
    refine iff_of_false (fun breaks => ?_) (by simp)
    have guarded := breaks
    rw [debit, Prisma.sendInteger, sent, if_pos rfl, pure_bind, ← bind_assoc, breaks_bind] at guarded
    rcases guarded with refused | ended
    · obtain ⟨row, member, matched⟩ := refused.matched (not_not_intro trivial)
      simp only [Bool.and_eq_true, decide_eq_true_eq] at matched
      have stored : (moment.view (some (storing (m := .inventory) rows))).get .inventory (line.1, pool) = some row :=
        Table.find_eq_some.mpr ⟨member, Prod.ext matched.1.1.1 matched.1.1.2⟩
      rw [view_storing apart] at stored
      have stocked := Covered.debitable consistent positive stored matched.2 matched.1.2
      have once : ([line].map Prod.fst).Nodup := List.nodup_singleton _
      have single : ∀ other ∈ [line], (other.1, pool) ∉ rows.map Inventory.pool := by simpa using apart
      have debits : (debit tenantId pool [line]).Succeeds (some (storing (m := .inventory) rows)) moment fun _ _ _ => True :=
        (succeeds_debit once single).mpr ⟨List.forall_mem_singleton.mpr ⟨sent, row, stocked⟩, trivial⟩
      exact debits.unbroken breaks
    · obtain ⟨_, _, nothing⟩ := succeeds_iff.mp ended
      exact breaks_pure nothing

/-- The first line whose quantity is not sent, if the pool covers the lines before it. -/
theorem breaks_debit {lines : List (Id × Int)} (consistent : Consistent moment) (positive : ∀ line ∈ lines, 0 < line.2)
    (distinct : (lines.map Prod.fst).Nodup) (apart : ∀ line ∈ lines, (line.1, pool) ∉ rows.map Inventory.pool) :
    (debit tenantId pool lines).Breaks ServerError (some (storing (m := .inventory) rows)) moment ↔
      ∃ earlier line later, lines = earlier ++ line :: later ∧ (∀ other ∈ earlier, Covered moment.database tenantId pool other) ∧
        Prisma.sendable line.2 = false := by
  induction lines generalizing rows moment with
  | nil => simp [debit]
  | cons line rest ih =>
    have split : debit tenantId pool (line :: rest) = debit tenantId pool [line] >>= fun _ => debit tenantId pool rest := by
      simp only [debit, bind_assoc, pure_bind]
    rw [List.forall_mem_cons] at positive apart
    rw [List.map_cons, List.nodup_cons] at distinct
    have distant : ∀ other ∈ rest, (other.1, pool) ∉ (rows ++ debited moment.database pool [line]).map Inventory.pool := by
      intro other member stored
      rw [List.map_append, List.mem_append] at stored
      rcases stored with earlier | last
      · exact apart.2 other member earlier
      · obtain ⟨row, inside, same⟩ := List.mem_map.mp last
        simp only [debited, List.filterMap_cons, List.filterMap_nil] at inside
        cases found : moment.database.get .inventory (line.1, pool) with
        | none => simp [found] at inside
        | some stock =>
          rw [found] at inside
          cases List.mem_singleton.mp inside
          have key : ((decrement line.2).apply stock).pool = (line.1, pool) := (Table.find_eq_some.mp found).2
          exact distinct.1 (List.mem_map.mpr ⟨other, member, (Prod.mk.inj (same.symm.trans key)).1⟩)
    have once : ([line].map Prod.fst).Nodup := List.nodup_singleton _
    have single : ∀ other ∈ [line], (other.1, pool) ∉ rows.map Inventory.pool := by simpa using apart.1
    rw [split, breaks_bind, breaks_line consistent positive.1 apart.1, succeeds_debit once single,
      List.forall_mem_singleton, ← covered_iff consistent positive.1,
      ih (consistent.ticks _) positive.2 distinct.2 distant]
    constructor
    · rintro (unsent | ⟨covered, earlier, next, later, rfl, all, unsent⟩)
      · exact ⟨[], line, rest, rfl, (by simp), unsent⟩
      · exact ⟨line :: earlier, next, later, rfl, List.forall_mem_cons.mpr ⟨covered, all⟩, unsent⟩
    · rintro ⟨earlier, next, later, listed, all, unsent⟩
      cases earlier with
      | nil =>
        cases listed
        exact .inl unsent
      | cons first earlier =>
        cases listed
        rw [List.forall_mem_cons] at all
        exact .inr ⟨all.1, earlier, next, later, rfl, all.2, unsent⟩

end Debits

/-- A free booking of consistent rows can be linked to an order with a new key. -/
private theorem linkable (consistent : Consistent moment) {orderId bookingId : Id} {booking : Booking}
    (unissued : moment.database.get .order orderId = none) (found : moment.database.get .booking bookingId = some booking)
    (free : booking.orderId = none) (tenant : booking.tenantId = tenantId) : Linkable moment.database tenantId orderId booking := by
  obtain ⟨_, checked, apart, parents⟩ := consistent.admits found
  refine ⟨free, tenant, ?_, of_decide_eq_true checked, apart, parents⟩
  refine List.find?_eq_none.mpr fun entry listed taken => ?_
  obtain ⟨other, member, held⟩ := List.any_eq_true.mp taken
  simp only [Bool.and_eq_true, decide_eq_true_eq] at held
  have named : entry = .bookingOrder orderId := List.mem_singleton.mp listed
  have holds : entry ∈ other.orderId.toList.map Model.Index.bookingOrder := held.2
  obtain ⟨linked, given, same⟩ := List.mem_map.mp holds
  obtain rfl : linked = orderId := by
    rw [named] at same
    cases same
    rfl
  have stored : moment.database.get .booking other.id = some other := Table.find_eq_some.mpr ⟨member, rfl⟩
  have present := (consistent.admits stored).2.2.2 ⟨.order, linked⟩
    (List.mem_append_right _ (List.mem_map_of_mem given))
  rw [unissued] at present
  cases present

private theorem linkBooking_sound (consistent : Consistent moment) {orderId : Id} {bookingId : Option Id}
    {earlier : List (Write commerce)} (models : ∀ write ∈ earlier, write.model = .inventory ∨ write.model = .order)
    (unissued : moment.database.get .order orderId = none)
    (ordered : ((moment.database.applyAll earlier).get .order orderId).isSome = true) :
    ¬ (linkBooking tenantId orderId bookingId).Breaks ServerError (some earlier) moment := by
  cases bookingId with
  | none => exact breaks_pure
  | some bookingId =>
    intro breaks
    obtain ⟨booking, member, matched⟩ := breaks.matched (not_not_intro trivial)
    simp only [Bool.and_eq_true, decide_eq_true_eq] at matched
    obtain ⟨⟨rfl, free⟩, tenant⟩ := matched
    have untouched : (moment.view (some earlier)).table .booking = moment.database.table .booking := by
      refine Database.applyAll_other _ fun write member => ?_
      rcases models write member with model | model <;> rw [model] <;> nofun
    rw [untouched] at member
    have found : moment.database.get .booking booking.id = some booking := Table.find_eq_some.mpr ⟨member, rfl⟩
    have links : (linkBooking tenantId orderId (some booking.id)).Succeeds (some earlier) moment fun _ _ _ => True := by
      refine (succeeds_linkBooking models ordered).mpr ⟨fun id same => ?_, trivial⟩
      cases same
      exact ⟨booking, found, linkable consistent unissued found free tenant⟩
    exact links.unbroken breaks

private theorem constrain_cart (view : Db) (cart : Cart) : constrain (m := Model.cart) view cart = .ok () :=
  constrain_iff.mpr ⟨rfl, rfl, by simp [excluded, Model.excludes], nofun⟩

private theorem convertCart_sound {cartId : Option Id} {pending : Pending commerce}
    (listed : ∀ id, cartId = some id → ∃ cart ∈ ((moment.view pending).table .cart).rows, cart.id = id ∧ cart.tenantId = tenantId) :
    ¬ (convertCart tenantId cartId).Breaks ServerError pending moment := by
  cases cartId with
  | none => exact breaks_pure
  | some cartId =>
    obtain ⟨cart, member, same, tenant⟩ := listed cartId rfl
    rw [convertCart, breaks_bind, not_or]
    constructor
    · have present : (((moment.view pending).table .cart).rows.find? fun row =>
          decide (row.id = cartId) && decide (row.tenantId = tenantId)).isSome = true :=
        List.find?_isSome.mpr ⟨cart, member, by simp [same, tenant]⟩
      obtain ⟨found, first⟩ := Option.isSome_iff_exists.mp present
      have updates : (Prisma.update .cart (fun row => row.id = cartId && row.tenantId = tenantId) convert).Succeeds pending moment
          fun _ _ _ => True := by
        refine succeeds_update.mpr ⟨found, first, constrain_cart _ _, ?_⟩
        cases pending <;> trivial
      exact updates.unbroken
    · intro ended
      obtain ⟨_, _, nothing⟩ := succeeds_iff.mp ended
      exact breaks_pure nothing

namespace Basket
variable {basket : Basket} {currency : String} {cartId : Option Id}

/-- A quantity that cannot be sent, or a subtotal that cannot be stored. -/
inductive Overflows (basket : Basket) (db : Db) (currency : String) : Prop where
  | quantity {earlier later : List (Id × Int)} {line : Id × Int} (listed : basket.lines = earlier ++ line :: later)
      (covered : ∀ other ∈ earlier, Covered db basket.tenantId basket.pool other) (large : 2147483647 < line.2)
  | subtotal (covered : ∀ line ∈ basket.lines, Covered db basket.tenantId basket.pool line)
      (large : 9223372036854775807 < basket.subtotal db currency)

/-- The tenant sells every variant, and every variant has a price in the currency of the first one. -/
structure Quoted (basket : Basket) (db : Db) (currency : String) : Prop where
  sold : ∀ line ∈ basket.lines, ∃ variant, basket.Sells db line.1 variant
  first : (basket.lines.head?.bind fun line => firstCurrency db basket.tenantId line.1) = some currency
  priced : ∀ line ∈ basket.lines, (priceIn db basket.tenantId currency line.1).isSome = true
  named : currency ≠ ""

private theorem unitPrice_fits (consistent : Consistent moment) {line : Id × Int} (member : line ∈ basket.lines) :
    Model.fitsBigint (unitPrice (basket.units moment.database currency) line.1) = true := by
  rw [basket.unitPrice_units _ _ member]
  cases asked : priceIn moment.database basket.tenantId currency line.1 with
  | none => rfl
  | some amount =>
    obtain ⟨price, found, rfl⟩ := Option.map_eq_some_iff.mp asked
    have stored : moment.database.get .price price.id = some price :=
      Table.find_eq_some.mpr ⟨List.mem_of_find?_eq_some found, rfl⟩
    exact (consistent.admits stored).2.1

private theorem lineTotal_nonneg (consistent : Consistent moment) (positive : ∀ line ∈ basket.lines, 0 < line.2)
    {line : Id × Int} (member : line ∈ basket.lines) : 0 ≤ lineTotal (basket.units moment.database currency) line := by
  have fits := @unitPrice_fits moment basket currency consistent line member
  simp only [Model.fitsBigint, Bool.and_eq_true, decide_eq_true_eq] at fits
  exact Int.mul_nonneg fits.1 (Int.le_of_lt (positive line member))

private theorem subtotal_fits (consistent : Consistent moment) (positive : ∀ line ∈ basket.lines, 0 < line.2) :
    Model.fitsBigint (basket.subtotal moment.database currency) = true ↔
      basket.subtotal moment.database currency ≤ 9223372036854775807 := by
  have nonnegative : 0 ≤ basket.subtotal moment.database currency := by
    refine List.sum_nonneg fun total member => ?_
    obtain ⟨line, inside, rfl⟩ := List.mem_map.mp member
    exact lineTotal_nonneg consistent positive inside
  simp [Model.fitsBigint, nonnegative]

private theorem billable (consistent : Consistent moment) (positive : ∀ line ∈ basket.lines, 0 < line.2)
    (covered : ∀ line ∈ basket.lines, Covered moment.database basket.tenantId basket.pool line)
    (small : basket.subtotal moment.database currency ≤ 9223372036854775807) {line : Id × Int} (member : line ∈ basket.lines) :
    Billable (basket.units moment.database currency) line := by
  refine ⟨positive line member, (covered line member).fits consistent (positive line member), unitPrice_fits consistent member, ?_⟩
  have nonnegative : ∀ total ∈ basket.lines.map (lineTotal (basket.units moment.database currency)), 0 ≤ total := by
    intro total inside
    obtain ⟨other, listed, rfl⟩ := List.mem_map.mp inside
    exact lineTotal_nonneg consistent positive listed
  have least := nonnegative _ (List.mem_map_of_mem member)
  have most := List.single_le_sum nonnegative _ (List.mem_map_of_mem member)
  have small : (basket.lines.map (lineTotal (basket.units moment.database currency))).sum ≤ 9223372036854775807 := small
  simp only [Model.fitsBigint, Bool.and_eq_true, decide_eq_true_eq]
  exact ⟨least, most.trans small⟩

/-- The statements of `placeOrder` after the order is created, with a cart to convert. -/
private def complete (basket : Basket) (cartId : Option Id) (variants : List ProductVariant) (products : List Product)
    (units : List (Id × Int)) (order : Order) : Service OrderSummary := do
  basket.itemize variants products units order
  convertCart basket.tenantId cartId
  let items ← Prisma.findMany .orderItem fun row => row.orderId = order.id && row.tenantId = basket.tenantId
  pure (toSummary order (Prisma.orderBy OrderItem.createdAt items))

/-- The statements of `placeOrder` after the lines are priced, with a cart to convert. -/
private def bill (basket : Basket) (cartId : Option Id) (variants : List ProductVariant) (currency : String)
    (units : List (Id × Int)) : Service OrderSummary := do
  let productIds := variants.map ProductVariant.productId
  let products ← Prisma.findMany .product fun row => row.id ∈ productIds && row.tenantId = basket.tenantId
  debit basket.tenantId basket.pool basket.lines
  let order ← Prisma.create .order fun id now =>
    { id, tenantId := basket.tenantId, userId := basket.userId, customerId := basket.customerId, status := .pending, currency
      subtotalMinor := (basket.lines.map (lineTotal units)).sum, cancelledAt := none, createdAt := now }
  basket.complete cartId variants products units order

private theorem itemize_sound (consistent : Consistent moment)
    (sold : ∀ line ∈ basket.lines, ∃ variant, basket.Sells moment.database line.1 variant)
    (billable : ∀ line ∈ basket.lines, Billable (basket.units moment.database currency) line) :
    ¬ (basket.itemize (basket.variants moment.database) (basket.products moment.database) (basket.units moment.database currency)
        (basket.order moment currency)).Breaks ServerError
        (some (storing (m := .inventory) (debited moment.database basket.pool basket.lines) ++
          [.put .order (basket.order moment currency)])) (moment.ticks (3 + basket.lines.length)).tick := by
  obtain ⟨models, ordered⟩ := @ordering basket currency moment
  have later := (consistent.ticks (3 + basket.lines.length)).ticks 1
  have unissued := consistent.orders (basket.orderId moment) (Nat.le_add_right ..)
  intro breaks
  rcases breaks_bind.mp breaks with refused | linked
  · exact linkBooking_sound later models unissued (Option.isSome_of_eq_some ordered) refused
  · have linkable := (Iff.mp (succeeds_linkBooking models (by exact Option.isSome_of_eq_some ordered)) linked).1
    have fresh (n : Nat) (_ : n < basket.lines.length) : moment.database.get .orderItem (basket.itemId moment + n) = none := by
      refine consistent.items _ ?_
      rw [itemId, orderId]
      omega
    exact ((succeeds_itemize currency sold).mpr ⟨linkable, billable, fresh, trivial⟩ :
      Succeeds _ _ _ fun _ _ _ => True).unbroken breaks

private theorem complete_sound (consistent : Consistent moment)
    (sold : ∀ line ∈ basket.lines, ∃ variant, basket.Sells moment.database line.1 variant)
    (billable : ∀ line ∈ basket.lines, Billable (basket.units moment.database currency) line)
    (listed : ∀ id, cartId = some id → ∃ cart ∈ (moment.database.table .cart).rows, cart.id = id ∧ cart.tenantId = basket.tenantId) :
    ¬ (basket.complete cartId (basket.variants moment.database) (basket.products moment.database)
        (basket.units moment.database currency) (basket.order moment currency)).Breaks ServerError
        (some (storing (m := .inventory) (debited moment.database basket.pool basket.lines) ++
          [.put .order (basket.order moment currency)])) (moment.ticks (3 + basket.lines.length)).tick := by
  intro breaks
  rcases breaks_bind.mp breaks with refused | itemized
  · exact itemize_sound consistent sold billable refused
  · have continues := ((succeeds_itemize currency sold).mp itemized).2.2.2
    have untouched : ∀ write ∈ basket.writes moment currency, write.model ≠ .cart := by
      intro write member
      simp only [writes, linking, List.mem_append, List.mem_map, List.mem_singleton] at member
      rcases member with ((⟨_, _, rfl⟩ | rfl) | ⟨_, _, rfl⟩) | ⟨_, _, rfl⟩ <;> rintro ⟨⟩
    rcases breaks_bind.mp continues with refused | converted
    · refine convertCart_sound (fun id same => ?_) refused
      rw [Moment.view, Option.getD_some, Database.applyAll_other _ untouched]
      exact listed id same
    · obtain ⟨_, _, read⟩ := succeeds_iff.mp converted
      rcases breaks_bind.mp read with refused | ended
      · exact breaks_findMany refused
      · obtain ⟨_, _, nothing⟩ := succeeds_iff.mp ended
        exact breaks_pure nothing

private theorem sendable_false {value : Int} (positive : 0 < value) : Prisma.sendable value = false ↔ 2147483647 < value := by
  simp only [Prisma.sendable, Bool.and_eq_false_iff, decide_eq_false_iff_not]
  omega

private theorem breaks_record (consistent : Consistent moment) (positive : ∀ line ∈ basket.lines, 0 < line.2)
    (sold : ∀ line ∈ basket.lines, ∃ variant, basket.Sells moment.database line.1 variant)
    (covered : ∀ line ∈ basket.lines, Covered moment.database basket.tenantId basket.pool line)
    (customer : ∀ id, basket.customerId = some id → (moment.database.get .customer id).isSome = true)
    (listed : ∀ id, cartId = some id → ∃ cart ∈ (moment.database.table .cart).rows, cart.id = id ∧ cart.tenantId = basket.tenantId) :
    (do let order ← Prisma.create .order fun id now =>
          { id, tenantId := basket.tenantId, userId := basket.userId, customerId := basket.customerId, status := .pending, currency
            subtotalMinor := basket.subtotal moment.database currency, cancelledAt := none, createdAt := now }
        basket.complete cartId (basket.variants moment.database) (basket.products moment.database)
          (basket.units moment.database currency) order).Breaks ServerError
        (some (storing (m := .inventory) (debited moment.database basket.pool basket.lines)))
        (moment.ticks (3 + basket.lines.length)) ↔
      9223372036854775807 < basket.subtotal moment.database currency := by
  have untouched (m : Model) (different : m ≠ .inventory) : ((moment.ticks (3 + basket.lines.length)).view
      (some (storing (m := .inventory) (debited moment.database basket.pool basket.lines)))).table m = moment.database.table m := by
    refine Database.applyAll_other _ fun write member => ?_
    obtain ⟨row, _, rfl⟩ := List.mem_map.mp member
    exact different.symm
  have fresh : ((moment.ticks (3 + basket.lines.length)).view
      (some (storing (m := .inventory) (debited moment.database basket.pool basket.lines)))).get .order (basket.orderId moment) = none := by
    rw [Database.get, untouched .order (by decide)]
    exact consistent.orders _ (Nat.le_add_right ..)
  have admitted := @constrain_order ((moment.ticks (3 + basket.lines.length)).view
    (some (storing (m := .inventory) (debited moment.database basket.pool basket.lines)))) (basket.order moment currency)
    fun id given => by
      rw [Database.get, untouched .customer (by decide)]
      exact customer id given
  have fits := @subtotal_fits moment basket currency consistent positive
  rw [breaks_bind]
  constructor
  · rintro (refused | created)
    · obtain ⟨error, rejected, _⟩ := (breaks_create fresh).mp refused
      by_contra small
      cases (admitted.mpr (fits.mpr (Int.not_lt.mp small))).symm.trans rejected
    · obtain ⟨_, allowed, breaks⟩ := succeeds_create.mp created
      have small := fits.mp (admitted.mp allowed)
      exact absurd breaks (complete_sound consistent sold (fun line member => billable consistent positive covered small member) listed)
  · intro large
    left
    refine (breaks_create fresh).mpr ?_
    cases outcome : constrain (m := Model.order) ((moment.ticks (3 + basket.lines.length)).view
        (some (storing (m := .inventory) (debited moment.database basket.pool basket.lines)))) (basket.order moment currency) with
    | ok _ => exact absurd (fits.mp (admitted.mp outcome)) (Int.not_le.mpr large)
    | error error => exact ⟨error, outcome, id⟩

private theorem breaks_bill (consistent : Consistent moment) (positive : ∀ line ∈ basket.lines, 0 < line.2)
    (distinct : (basket.lines.map Prod.fst).Nodup)
    (sold : ∀ line ∈ basket.lines, ∃ variant, basket.Sells moment.database line.1 variant)
    (customer : ∀ id, basket.customerId = some id → (moment.database.get .customer id).isSome = true)
    (listed : ∀ id, cartId = some id → ∃ cart ∈ (moment.database.table .cart).rows, cart.id = id ∧ cart.tenantId = basket.tenantId) :
    (basket.bill cartId (basket.variants moment.database) currency (basket.units moment.database currency)).Breaks ServerError
        (some []) (moment.ticks 2) ↔ basket.Overflows moment.database currency := by
  have start : (moment.ticks 2).tick.ticks basket.lines.length = moment.ticks (3 + basket.lines.length) :=
    Moment.ticks_ticks moment 3 _
  have apart (line : Id × Int) : (line.1, basket.pool) ∉ ([] : List Inventory).map Inventory.pool := List.not_mem_nil
  rw [bill, breaks_bind]
  refine (or_iff_right breaks_findMany).trans (succeeds_findMany.trans ?_)
  rw [breaks_bind]
  refine (or_congr (breaks_debit (consistent.ticks 3) positive distinct fun line _ => apart line)
    (succeeds_debit distinct fun line _ => apart line)).trans ?_
  rw [start, List.nil_append]
  constructor
  · rintro (⟨earlier, line, later, listed, covered, unsent⟩ | ⟨stocked, records⟩)
    · exact .quantity listed covered ((sendable_false (positive line (by simp [listed]))).mp unsent)
    · have covered (line : Id × Int) (member : line ∈ basket.lines) :=
        (covered_iff consistent (positive line member)).mpr (stocked line member)
      exact .subtotal covered ((breaks_record consistent positive sold covered customer listed).mp records)
  · rintro (⟨shape, covered, large⟩ | ⟨covered, large⟩)
    · exact .inl ⟨_, _, _, shape, covered, (sendable_false (positive _ (by simp [shape]))).mpr large⟩
    · exact .inr ⟨fun line member => (covered_iff consistent (positive line member)).mp (covered line member),
        (breaks_record consistent positive sold covered customer listed).mpr large⟩

private theorem quote_sound : ¬ basket.quote.Breaks ServerError (some []) moment := by
  intro breaks
  rw [quote, breaks_bind] at breaks
  have counted := succeeds_findMany.mp (breaks.resolve_left breaks_findMany)
  rw [breaks_bind, breaks_throwIf, succeeds_throwIf] at counted
  have checked := (counted.resolve_left fun refused => refused.2 trivial).2
  rw [breaks_bind, breaks_throwIf, succeeds_throwIf] at checked
  have scanned := (checked.resolve_left fun refused => refused.2 trivial).2
  rw [breaks_bind] at scanned
  have priced := succeeds_findMany.mp (scanned.resolve_left breaks_findMany)
  rw [breaks_bind, breaks_ofExcept, succeeds_ofExcept] at priced
  rcases priced with ⟨exception, refused, rejected⟩ | ⟨value, _, named⟩
  · exact rejected (unitPrices_error refused)
  · rw [breaks_bind, breaks_throwIf, succeeds_throwIf] at named
    exact breaks_pure (named.resolve_left fun refused => refused.2 trivial).2

private theorem placeOrder_eq : placeOrder basket.tenantId basket.userId basket.customerId basket.pool basket.bookingId cartId
    basket.lines = basket.quote >>= fun (variants, currency, units) => basket.bill cartId variants currency units := by
  simp only [quote, bill, complete, itemize, bind_assoc, pure_bind]
  rfl

private theorem succeeds_quoted {post : List ProductVariant × String × List (Id × Int) → Pending commerce → Moment commerce → Prop}
    (nonempty : basket.lines ≠ []) (distinct : (basket.lines.map Prod.fst).Nodup) :
    basket.quote.Succeeds (some []) moment post ↔ ∃ currency, basket.Quoted moment.database currency ∧
      post (basket.variants moment.database, currency, basket.units moment.database currency) (some []) (moment.ticks 2) := by
  obtain ⟨line, rest, listed⟩ := List.exists_cons_of_ne_nil nonempty
  rw [succeeds_quote listed distinct]
  constructor
  · intro ⟨sold, currency, first, priced, named, holds⟩
    exact ⟨currency, ⟨sold, by simpa [listed] using first, priced, named⟩, holds⟩
  · intro ⟨currency, quoted, holds⟩
    have first := quoted.first
    rw [listed] at first
    exact ⟨quoted.sold, currency, first, quoted.priced, quoted.named, holds⟩

private theorem breaks_placeOrder (consistent : Consistent moment) (nonempty : basket.lines ≠ [])
    (positive : ∀ line ∈ basket.lines, 0 < line.2) (distinct : (basket.lines.map Prod.fst).Nodup)
    (customer : ∀ id, basket.customerId = some id → (moment.database.get .customer id).isSome = true)
    (listed : ∀ id, cartId = some id → ∃ cart ∈ (moment.database.table .cart).rows, cart.id = id ∧ cart.tenantId = basket.tenantId) :
    (placeOrder basket.tenantId basket.userId basket.customerId basket.pool basket.bookingId cartId basket.lines).Breaks
        ServerError (some []) moment ↔
      ∃ currency, basket.Quoted moment.database currency ∧ basket.Overflows moment.database currency := by
  rw [placeOrder_eq, breaks_bind]
  refine (or_iff_right quote_sound).trans ((succeeds_quoted nonempty distinct).trans (exists_congr fun currency => ?_))
  exact and_congr_right fun quoted => breaks_bill consistent positive distinct quoted.sold customer listed

/-- All numbers of an order fit their columns. -/
structure Fits (basket : Basket) (db : Db) (currency : String) : Prop where
  quantities : ∀ line ∈ basket.lines, Model.fitsInteger line.2 = true
  totals : ∀ line ∈ basket.lines, Model.fitsBigint (lineTotal (basket.units db currency) line) = true
  subtotal : Model.fitsBigint (basket.subtotal db currency) = true

private theorem fits_placeOrder (consistent : Consistent moment) (nonempty : basket.lines ≠ [])
    (positive : ∀ line ∈ basket.lines, 0 < line.2) (distinct : (basket.lines.map Prod.fst).Nodup)
    (customer : ∀ id, basket.customerId = some id → (moment.database.get .customer id).isSome = true)
    {post : OrderSummary → Pending commerce → Moment commerce → Prop}
    (placed : (placeOrder basket.tenantId basket.userId basket.customerId basket.pool basket.bookingId cartId basket.lines).Succeeds
      (some []) moment post) :
    ∃ currency summary pending later, basket.Quoted moment.database currency ∧ basket.Fits moment.database currency ∧
      summary.currency = currency ∧ summary.subtotalMinor = toString (basket.subtotal moment.database currency) ∧
      post summary pending later := by
  rw [placeOrder_eq, succeeds_bind, succeeds_quoted nonempty distinct] at placed
  obtain ⟨currency, quoted, billed⟩ := placed
  have start : (moment.ticks 2).tick.ticks basket.lines.length = moment.ticks (3 + basket.lines.length) :=
    Moment.ticks_ticks moment 3 _
  have apart (line : Id × Int) : (line.1, basket.pool) ∉ ([] : List Inventory).map Inventory.pool := List.not_mem_nil
  have debits := succeeds_findMany.mp (succeeds_bind.mp billed)
  obtain ⟨stocked, records⟩ := (succeeds_debit distinct fun line _ => apart line).mp (succeeds_bind.mp debits)
  rw [start, List.nil_append] at records
  obtain ⟨_, allowed, completes⟩ := succeeds_create.mp (succeeds_bind.mp records)
  have covered (line : Id × Int) (member : line ∈ basket.lines) :=
    (covered_iff consistent (positive line member)).mpr (stocked line member)
  have admitted := (@constrain_order ((moment.ticks (3 + basket.lines.length)).view
    (some (storing (m := .inventory) (debited moment.database basket.pool basket.lines)))) (basket.order moment currency)
    fun id given => by
      rw [Database.get, Moment.view, Database.applyAll_other]
      · exact customer id given
      · intro write member
        obtain ⟨_, _, rfl⟩ := List.mem_map.mp member
        rintro ⟨⟩).mp allowed
  have small := (subtotal_fits consistent positive).mp admitted
  have billable (line : Id × Int) (member : line ∈ basket.lines) := billable consistent positive covered small member
  obtain ⟨_, _, converts⟩ := succeeds_iff.mp (succeeds_bind.mp completes)
  obtain ⟨_, _, reads⟩ := succeeds_iff.mp (succeeds_bind.mp converts)
  have summarized := succeeds_findMany.mp (succeeds_bind.mp reads)
  exact ⟨currency, _, _, _, quoted, ⟨fun line member => (billable line member).quantity,
    fun line member => (billable line member).total, admitted⟩, rfl, rfl, summarized⟩

end Basket

/-- What the validation of the dto admits. -/
def OrderService.CreateOrderDto.Valid (dto : CreateOrderDto) : Prop :=
  ∀ item ∈ dto.items.getD [], 1 ≤ item.quantity ∧ item.quantity ≤ 1000000

theorem Asked.positive (consistent : Consistent moment) (valid : dto.Valid) {lines : List OrderItemInputDto} {cartId : Option Id}
    (asked : Asked moment.database tenantId userId dto lines cartId) : ∀ line ∈ aggregateItems lines, 0 < line.2 := by
  refine @Tally.forall_collect Id Int _ _ (fun quantity => 0 < quantity) _ (fun entry listed => ?_) fun _ _ => Int.add_pos
  obtain ⟨item, member, rfl⟩ := List.mem_map.mp listed
  cases asked with
  | items given =>
    have bounds := valid item (by rwa [given])
    exact bounds.1
  | cart _ _ scanned =>
    obtain ⟨row, inside, rfl⟩ := List.mem_map.mp member
    rw [← scanned] at inside
    have stored : moment.database.get .cartItem row.id = some row :=
      Table.find_eq_some.mpr ⟨(List.mem_filter.mp inside).1, rfl⟩
    have checked := (consistent.admits stored).2.1
    simp only [Model.check, Bool.and_eq_true, decide_eq_true_eq] at checked
    exact checked.1

theorem Asked.listed {lines : List OrderItemInputDto} {cartId : Option Id} (asked : Asked db tenantId userId dto lines cartId) :
    ∀ id, cartId = some id → ∃ cart ∈ (db.table .cart).rows, cart.id = id ∧ cart.tenantId = tenantId := by
  intro id same
  cases asked with
  | items => cases same
  | @cart cart _ _ oldest =>
    cases same
    have sorted := List.mem_of_head? oldest
    have member := List.mem_filter.mp ((List.perm_insertionSort _ _).mem_iff.mp sorted)
    simp only [Bool.and_eq_true, decide_eq_true_eq] at member
    exact ⟨cart, member.1, rfl, member.2.2⟩

/-- The customer is one of the tenant's. -/
def Served (db : Db) (tenantId : Id) (dto : CreateOrderDto) : Prop :=
  ∀ id, dto.customerId = some id → ∃ customer, db.get .customer id = some customer ∧ customer.tenantId = tenantId

theorem Served.stored (served : Served db tenantId dto) (id : Id) (given : dto.customerId = some id) :
    (db.get .customer id).isSome = true := by
  obtain ⟨customer, found, _⟩ := served id given
  exact Option.isSome_of_eq_some found

theorem aggregateItems_nonempty {lines : List OrderItemInputDto} (nonempty : lines ≠ []) : aggregateItems lines ≠ [] := by
  obtain ⟨item, rest, rfl⟩ := List.exists_cons_of_ne_nil nonempty
  intro nothing
  have head := Tally.head_collect (item.variantId, item.quantity) (rest.map fun item => (item.variantId, item.quantity))
  have shape : Tally.collect ((item.variantId, item.quantity) :: rest.map fun item => (item.variantId, item.quantity)) = [] := nothing
  rw [shape] at head
  cases head

/-- The requested quantities and prices reach an order that does not fit its columns. -/
def Oversized (db : Db) (tenantId userId : Id) (dto : CreateOrderDto) (options : CreateOrderOptions) : Prop :=
  ∃ lines cartId, Asked db tenantId userId dto lines cartId ∧ Served db tenantId dto ∧
    ∃ currency, (basketWith tenantId userId dto options lines).Quoted db currency ∧
      (basketWith tenantId userId dto options lines).Overflows db currency

theorem breaks_createOrder (consistent : Consistent moment) (valid : dto.Valid) :
    (createOrder tenantId userId dto options).Breaks ServerError none moment ↔
      Oversized moment.database tenantId userId dto options := by
  rw [createOrder, breaks_bind]
  refine (or_iff_right itemsInput_sound).trans (succeeds_itemsInput.trans ?_)
  refine exists_congr fun lines => exists_congr fun cartId => and_congr_right fun asked => ?_
  rw [breaks_bind]
  refine (or_iff_right assertCustomer_sound).trans (succeeds_assertCustomer.trans (and_congr_right fun served => ?_))
  have later := (((consistent.ticks (asking dto)).ticks dto.customerId.toList.length).ticks 1)
  rw [breaks_transaction]
  exact @Basket.breaks_placeOrder (((moment.ticks (asking dto)).ticks dto.customerId.toList.length).tick)
    (basketWith tenantId userId dto options lines) cartId later (aggregateItems_nonempty asked.nonempty)
    (asked.positive consistent valid) (Tally.nodup_collect _) (Served.stored served) asked.listed

/-- The numbers of a placed order, and its summary. -/
structure Computes (db : Db) (tenantId userId : Id) (dto : CreateOrderDto) (options : CreateOrderOptions)
    (lines : List OrderItemInputDto) (currency : String) (summary : OrderSummary) : Prop where
  fits : (basketWith tenantId userId dto options lines).Fits db currency
  charged : summary.currency = currency
  subtotal : summary.subtotalMinor = toString ((basketWith tenantId userId dto options lines).subtotal db currency)

theorem computes_createOrder (consistent : Consistent moment) (valid : dto.Valid)
    {post : OrderSummary → Pending commerce → Moment commerce → Prop}
    (placed : (createOrder tenantId userId dto options).Succeeds none moment post) :
    ∃ lines cartId currency summary pending later, Asked moment.database tenantId userId dto lines cartId ∧
      Computes moment.database tenantId userId dto options lines currency summary ∧ post summary pending later := by
  obtain ⟨lines, cartId, asked, continues⟩ := succeeds_itemsInput.mp (succeeds_bind.mp placed)
  obtain ⟨served, places⟩ := succeeds_assertCustomer.mp (succeeds_bind.mp continues)
  have later := (((consistent.ticks (asking dto)).ticks dto.customerId.toList.length).ticks 1)
  obtain ⟨currency, summary, _, _, _, fits, named, subtotal, holds⟩ := @Basket.fits_placeOrder
    (((moment.ticks (asking dto)).ticks dto.customerId.toList.length).tick) (basketWith tenantId userId dto options lines) cartId
    later (aggregateItems_nonempty asked.nonempty) (asked.positive consistent valid) (Tally.nodup_collect _) (Served.stored served) _
    (succeeds_transaction.mp places)
  exact ⟨lines, cartId, currency, summary, _, _, asked, ⟨fits, named, subtotal⟩, holds⟩

private theorem debit_inside {pool : Option Id} {lines : List (Id × Int)} : (debit tenantId pool lines).Inside := by
  induction lines with
  | nil => exact .pure
  | cons line rest ih =>
    rw [debit, Prisma.sendInteger]
    refine Inside.bind ?_ fun _ => Inside.send.bind fun _ => Inside.throwIf.bind fun _ => ih
    split <;> trivial

private theorem createItems_inside {order : Order} {variants : List ProductVariant} {products : List Product}
    {units lines : List (Id × Int)} : (createItems tenantId order variants products units lines).Inside := by
  induction lines with
  | nil => exact .pure
  | cons line rest ih => exact Reading.orThrow.inside.bind fun _ => Inside.send.bind fun _ => ih

theorem placeOrder_inside {customerId pool bookingId cartId : Option Id} {lines : List (Id × Int)} :
    (placeOrder tenantId userId customerId pool bookingId cartId lines).Inside := by
  refine Reading.findMany.inside.bind fun _ => Inside.throwIf.bind fun _ => Inside.throwIf.bind fun _ => ?_
  refine Reading.findMany.inside.bind fun _ => Reading.ofExcept.inside.bind fun _ => Inside.throwIf.bind fun _ => ?_
  refine Reading.findMany.inside.bind fun _ => debit_inside.bind fun _ => Inside.send.bind fun order => ?_
  refine Inside.bind ?_ fun _ => createItems_inside.bind fun _ => Inside.bind ?_ fun _ =>
    Reading.findMany.inside.bind fun _ => .pure
  · cases bookingId with
    | none => exact .pure
    | some bookingId => exact Inside.send.bind fun _ => .throwIf
  · cases cartId with
    | none => exact .pure
    | some cartId => exact Inside.send.bind fun _ => .pure

end BusinessPlatform
