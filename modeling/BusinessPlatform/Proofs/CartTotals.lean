import BusinessPlatform.Proofs.OrderExactness

/-! The totals that a cart reports, and what its checkout charges. -/

namespace BusinessPlatform
open Engine OrderService
open CartService (CartSummary CartItemSummary enrichCart)

/-- The amounts of the listed lines, one for each price of their variants. -/
def lineAmounts (lines : List (CartItemSummary × List (String × Int))) : List (String × Int) :=
  lines.flatMap fun line => line.2.map fun price => (price.1, price.2 * line.1.quantity)

/-- The reported totals are the sums of the reported line totals, and these are
quantity times unit price. -/
structure Totalled (report : CartSummary) (lines : List (CartItemSummary × List (String × Int))) : Prop where
  items : lines.map Prod.fst = report.items
  prices : ∀ line ∈ lines, line.1.prices = line.2.map fun price => (price.1, toString price.2)
  lineTotals : ∀ line ∈ lines, line.1.lineTotals = line.2.map fun price => (price.1, toString (price.2 * line.1.quantity))
  distinct : (report.totals.map Prod.fst).Nodup
  totals : ∀ currency total, (currency, total) ∈ report.totals ↔
    currency ∈ (lineAmounts lines).map Prod.fst ∧ total = toString (amountOf currency (lineAmounts lines))

/-- A report of the rows of a cart. -/
structure Reported (db : Db) (tenantId : Id) (cart : Cart) (report : CartSummary) (items : List CartItem)
    (prices : List Price) : Prop where
  rows : items.Perm ((db.table .cartItem).rows.filter fun row => row.cartId = cart.id && row.tenantId = tenantId)
  priced : prices.Perm (pricesOf db tenantId (items.map CartItem.variantId))
  listed : ∃ variants, report.items = items.map (CartService.itemSummary variants prices)
  totals : report.totals = CartService.totals prices items

variable {db : Db} {tenantId : Id} {cart : Cart} {report : CartSummary} {items : List CartItem} {prices : List Price}

theorem enrichCart_alone {world : World commerce Unit} (there : world.database = db) :
    Safe Never Alone () (fun result _ _ => ∀ report, result = .ok report → ∃ items prices, Reported db tenantId cart report items prices)
      (enrichCart tenantId cart) none world := by
  have fails (world : World commerce Unit) : Fails Alone () (fun _ : HttpException => True) (fun result _ _ => ∀ report,
      result = .ok report → ∃ items prices, Reported db tenantId cart report items prices) false world :=
    fun _ _ _ _ _ _ _ same => nomatch same
  refine Safe.findMany (fails world) fun w₁ rows l₁ listed _ => ?_
  rw [World.view_none, Later.alone l₁, there] at listed
  have sorted := (List.perm_insertionSort (fun first second : CartItem => first.createdAt ≤ second.createdAt) rows).trans listed
  simp only
  split
  next empty =>
    refine Safe.done fun _ _ report same => ?_
    cases same
    have nothing : Prisma.orderBy CartItem.createdAt rows = [] := List.isEmpty_iff.mp empty
    refine ⟨[], [], ?_, ?_, ⟨[], rfl⟩, rfl⟩
    · rw [← nothing]
      exact sorted
    · simp [pricesOf]
  next =>
    refine Safe.findMany (fails _) fun w₂ variants l₂ _ _ => ?_
    refine Safe.findMany (fails _) fun w₃ prices l₃ scanned _ => Safe.done fun _ _ report same => ?_
    cases same
    refine ⟨_, prices, sorted, ?_, ⟨variants, rfl⟩, rfl⟩
    have here : w₃.database = db := by
      rw [Later.alone l₃, World.record_database, Database.applyAll_nil, Later.alone l₂, World.record_database,
        Database.applyAll_nil, Later.alone l₁, there]
    rw [World.view_none, here] at scanned
    exact scanned

/-- The amounts of the cart's lines, as they are collected. -/
private def cartAmounts (prices : List Price) (items : List CartItem) : List (String × Int) :=
  items.flatMap fun item =>
    (CartService.pricesOf prices item).map fun price => (price.currency, price.amountMinor * item.quantity)

/-- The reported lines with their unit prices. -/
private def reportedLines (variants : List ProductVariant) (prices : List Price) (items : List CartItem) :
    List (CartItemSummary × List (String × Int)) :=
  items.map fun item => (CartService.itemSummary variants prices item,
    (CartService.pricesOf prices item).map fun price => (price.currency, price.amountMinor))

theorem Reported.totalled (reported : Reported db tenantId cart report items prices) : ∃ lines, Totalled report lines := by
  obtain ⟨variants, listed⟩ := reported.listed
  have amounts : lineAmounts (reportedLines variants prices items) = cartAmounts prices items := by
    rw [lineAmounts, reportedLines, cartAmounts, List.flatMap_map]
    refine List.flatMap_congr fun item _ => ?_
    rw [List.map_map]
    rfl
  have keys : report.totals.map Prod.fst = (Tally.collect (cartAmounts prices items)).map Prod.fst := by
    rw [reported.totals, CartService.totals, List.map_map]
    rfl
  refine ⟨reportedLines variants prices items, ?_, ?_, ?_, ?_, ?_⟩
  · rw [listed, reportedLines, List.map_map]
    rfl
  · intro line member
    obtain ⟨item, _, rfl⟩ := List.mem_map.mp member
    simp only [CartService.itemSummary, List.map_map]
    rfl
  · intro line member
    obtain ⟨item, _, rfl⟩ := List.mem_map.mp member
    simp only [CartService.itemSummary, List.map_map]
    rfl
  · rw [keys]
    exact Tally.nodup_collect _
  · intro currency total
    rw [amounts, reported.totals, CartService.totals, List.mem_map]
    constructor
    · rintro ⟨entry, member, same⟩
      cases same
      obtain ⟨present, amount⟩ := Tally.mem_collect.mp member
      exact ⟨present, congrArg toString amount⟩
    · rintro ⟨present, rfl⟩
      exact ⟨_, Tally.mem_collect.mpr ⟨present, rfl⟩, rfl⟩

/-- The stored prices of a line's variant are among those that the report reads. -/
private theorem mem_pricesOf (priced : prices.Perm (pricesOf db tenantId (items.map CartItem.variantId))) {item : CartItem}
    (inside : item ∈ items) {price : Price} (member : price ∈ (db.table .price).rows) (tenant : price.tenantId = tenantId)
    (variant : price.variantId = item.variantId) : price ∈ CartService.pricesOf prices item := by
  refine List.mem_filter.mpr ⟨priced.mem_iff.mpr (List.mem_filter.mpr ⟨member, ?_⟩), decide_eq_true variant⟩
  rw [tenant, variant]
  simp [List.mem_map_of_mem inside]

section Unique
variable (unique : db.Unique (S := commerce) .price)
include unique

private theorem same_price {first second : Price} (one : first ∈ (db.table .price).rows) (two : second ∈ (db.table .price).rows)
    (variant : first.variantId = second.variantId) (currency : first.currency = second.currency) : first = second := by
  refine unique first one second two (.price first.variantId first.currency) (List.mem_cons_self ..) ?_
  rw [variant, currency]
  exact List.mem_cons_self ..

theorem priceIn_listed {price : Price} (member : price ∈ (db.table .price).rows) :
    priceIn db price.tenantId price.currency price.variantId = some price.amountMinor := by
  cases found : (db.table .price).rows.find? fun row =>
      row.variantId = price.variantId && row.tenantId = price.tenantId && row.currency = price.currency with
  | none => simpa using List.find?_eq_none.mp found price member
  | some other =>
    have matched := List.find?_some found
    simp only [Bool.and_eq_true, decide_eq_true_eq] at matched
    have same := same_price unique (List.mem_of_find?_eq_some found) member matched.1.1 matched.2
    rw [priceIn, found, same]
    rfl

private theorem line_amount_listed (priced : prices.Perm (pricesOf db tenantId (items.map CartItem.variantId))) {item : CartItem}
    (inside : item ∈ items) {price : Price} (member : price ∈ (db.table .price).rows) (tenant : price.tenantId = tenantId)
    (variant : price.variantId = item.variantId) :
    amountOf price.currency ((CartService.pricesOf prices item).map fun price => (price.currency, price.amountMinor * item.quantity)) =
      price.amountMinor * item.quantity := by
  have stored (row : Price) (listed : row ∈ CartService.pricesOf prices item) :
      row ∈ (db.table .price).rows ∧ row.variantId = item.variantId := by
    obtain ⟨read, same⟩ := List.mem_filter.mp listed
    exact ⟨(List.mem_filter.mp (priced.mem_iff.mp read)).1, of_decide_eq_true same⟩
  have rows : (CartService.pricesOf prices item).Nodup := by
    refine List.Nodup.filter _ (priced.nodup_iff.mpr (List.Nodup.filter _ ?_))
    exact (db.table .price).distinct.of_map
  have distinct : (((CartService.pricesOf prices item).map fun price =>
      (price.currency, price.amountMinor * item.quantity)).map Prod.fst).Nodup := by
    rw [List.map_map]
    refine List.Nodup.map_on (fun first one second two same => ?_) rows
    exact same_price unique (stored first one).1 (stored second two).1 ((stored first one).2.trans (stored second two).2.symm) same
  have listed := mem_pricesOf priced inside member tenant variant
  exact amountOf_mem distinct (List.mem_map_of_mem listed)

/-- The amount that a cart reports in a currency in which every line has a price. -/
private theorem cart_amount (priced : prices.Perm (pricesOf db tenantId (items.map CartItem.variantId))) {currency : String}
    (listed : ∀ item ∈ items, ∃ price ∈ (db.table .price).rows, price.tenantId = tenantId ∧ price.variantId = item.variantId ∧
      price.currency = currency) :
    amountOf currency (cartAmounts prices items) =
      (items.map fun item => (priceIn db tenantId currency item.variantId).getD 0 * item.quantity).sum := by
  rw [cartAmounts, amountOf_flatMap]
  refine congrArg List.sum (List.map_congr_left fun item inside => ?_)
  obtain ⟨price, member, rfl, variant, rfl⟩ := listed item inside
  rw [line_amount_listed unique priced inside member rfl variant, ← variant, priceIn_listed unique member]
  rfl

end Unique

variable {userId : Id} {dto : CreateOrderDto} {options : CreateOrderOptions} {placement : Placement} {middle : SystemWorld Unit}

private theorem Ordered.charged (ordered : Ordered () tenantId userId dto options middle placement)
    (unique : db.Unique (S := commerce) .price) (before : ∀ event ∈ middle.trace, event.author = some () → event.before = db)
    (entries : aggregateItems (items.map cartInput) = placement.lines.map fun line => line.entry) :
    placement.order.subtotalMinor =
      (items.map fun item => (priceIn db tenantId placement.order.currency item.variantId).getD 0 * item.quantity).sum := by
  have line (line : PlacedLine) (member : line ∈ placement.lines) : line.item.lineTotalMinor =
      (priceIn db tenantId placement.order.currency line.variantId).getD 0 * line.quantity := by
    obtain ⟨price, listed, tenant, variant, currency, amount⟩ := ordered.priced_items before member
    rw [(ordered.lines line member).total, ← amount, ← ordered.tenant, ← tenant,
      ← variant, ← currency, priceIn_listed unique listed]
    rfl
  calc placement.order.subtotalMinor
      = (placement.lines.map fun line =>
          (priceIn db tenantId placement.order.currency line.variantId).getD 0 * line.quantity).sum := by
        rw [ordered.subtotal, List.map_congr_left line]
    _ = ((aggregateItems (items.map cartInput)).map fun entry =>
          (priceIn db tenantId placement.order.currency entry.1).getD 0 * entry.2).sum := by
        rw [entries, List.map_map]
        rfl
    _ = _ := by
        rw [aggregateItems, Tally.sum_collect fun variantId => (priceIn db tenantId placement.order.currency variantId).getD 0,
          List.map_map, List.map_map]
        rfl

/-- The cart that an order has converted is the one whose lines it has read. -/
private theorem Issues.converted {stamp clock : Nat} {summary : OrderSummary} {after : Db}
    (issues : Issues db stamp clock tenantId userId dto options summary after middle placement)
    (opened : db.get .cart cart.id = some cart) (status : cart.status = .opened) {row : Cart}
    (found : after.get .cart cart.id = some row) (converted : row.status = .converted) :
    ∃ rows : List CartItem,
      rows.Perm ((db.table .cartItem).rows.filter fun row => row.cartId = cart.id && row.tenantId = tenantId) ∧
      aggregateItems (rows.map cartInput) = placement.lines.map fun line => line.entry := by
  rw [issues.after] at found
  have key : row.id = cart.id := (Table.find_eq_some.mp found).2
  rw [← key] at found
  rcases Database.get_found (S := commerce) (m := .cart) _ found with stored | same
  · rw [Placement.writes_cart, List.mem_map] at stored
    obtain ⟨source, listed, rfl⟩ := stored
    obtain ⟨lines, input, entries⟩ := issues.input
    rw [Option.mem_toList.mp listed] at input
    cases input with
    | cart _ member author _ _ read =>
      rw [issues.before _ member author, show source.id = cart.id from key] at read
      exact ⟨_, read, entries⟩
  · rw [key, opened] at same
    cases same
    cases status.symm.trans converted

/-- A checkout charges what the cart reports in the currency of the order, and every
reported total is the sum of the reported lines. -/
theorem cart_total_charged {stamp clock : Nat} {shown : State commerce HttpException CartSummary Unit}
    (read : RunsAlone (World.opened db stamp clock) (enrichCart tenantId cart) shown)
    (ended : (shown.threads ()).program = .done (.ok report)) :
    (∃ lines, Totalled report lines) ∧
      ∀ (userId : Id) (dto : CreateOrderDto) (options : CreateOrderOptions) (stamp clock : Nat)
        (placed : State commerce HttpException OrderSummary Unit) (summary : OrderSummary),
        db.Unique (S := commerce) .price → db.get .cart cart.id = some cart → cart.status = .opened →
        RunsAlone (World.opened db stamp clock) (createOrder tenantId userId dto options) placed →
        (placed.threads ()).program = .done (.ok summary) →
        (∃ row, placed.world.database.get .cart cart.id = some row ∧ row.status = .converted) →
        ∃ order, placed.world.database.get .order summary.id = some order ∧
          (order.currency, toString order.subtotalMinor) ∈ report.totals := by
  obtain ⟨items, prices, reported⟩ := (read.valid (enrichCart_alone rfl)).1.ended ended report rfl
  refine ⟨reported.totalled, fun userId dto options stamp clock placed summary unique opened status ran returned converted => ?_⟩
  obtain ⟨middle, placement, issues⟩ := (createOrder_alone ran).2 summary returned
  obtain ⟨row, found, converted⟩ := converted
  obtain ⟨rows, same, entries⟩ := issues.converted opened status found converted
  have order : placed.world.database.get .order summary.id = some placement.order := by
    rw [issues.after, issues.identified]
    exact Database.get_stored (S := commerce) (m := .order) _ (by simp) (by simp) (by simp)
  refine ⟨placement.order, order, ?_⟩
  have perm : rows.Perm items := same.trans reported.rows.symm
  have variants (variantId : Id) : variantId ∈ (placement.lines.map fun line => line.variantId) ↔
      variantId ∈ items.map CartItem.variantId := by
    have keys : (aggregateItems (rows.map cartInput)).map Prod.fst = placement.lines.map fun line => line.variantId := by
      rw [entries, List.map_map]
      rfl
    rw [← keys, ← (perm.map CartItem.variantId).mem_iff, aggregateItems, Tally.mem_keys_collect, List.map_map, List.map_map]
    rfl
  have listed (item : CartItem) (inside : item ∈ items) : ∃ price ∈ (db.table .price).rows, price.tenantId = tenantId ∧
      price.variantId = item.variantId ∧ price.currency = placement.order.currency := by
    obtain ⟨line, member, equal⟩ := List.mem_map.mp ((variants item.variantId).mpr (List.mem_map_of_mem inside))
    obtain ⟨price, stored, tenant, variant, currency, _⟩ := issues.priced_items issues.before member
    exact ⟨price, stored, tenant.trans issues.tenant, variant.trans equal, currency⟩
  rw [reported.totals, CartService.totals]
  refine List.mem_map.mpr ⟨(placement.order.currency, placement.order.subtotalMinor), Tally.mem_collect.mpr ⟨?_, ?_⟩, rfl⟩
  · obtain ⟨line, member⟩ := List.exists_mem_of_ne_nil _ issues.nonempty
    obtain ⟨item, inside, _⟩ := List.mem_map.mp ((variants line.variantId).mp (List.mem_map_of_mem member))
    obtain ⟨price, stored, tenant, variant, currency⟩ := listed item inside
    have read := mem_pricesOf reported.priced inside stored tenant variant
    exact List.mem_map.mpr ⟨_, List.mem_flatMap.mpr ⟨item, inside, List.mem_map_of_mem read⟩, currency⟩
  · rw [issues.charged unique issues.before entries, (perm.map _).sum_eq]
    exact (cart_amount unique reported.priced listed).symm

/-- The demo shop with a second currency and a cart of three units. -/
private def cartDemo : Db := Shop.demo.database.applyAll [.put .inventory ⟨11, 0, 1, none, 5⟩, .put .price ⟨12, 0, 1, "EUR", 90⟩,
  .put .cart ⟨20, 0, 7, .opened, 0⟩, .put .cartItem ⟨21, 0, 20, 1, 3, 0⟩]

/-- The cart is shown in both currencies and charged in the first one. -/
theorem cart_total_charged_dollars : ∃ (report : CartSummary) (order : Order), report.totals.length = 2 ∧
    order.currency = "USD" ∧ (order.currency, toString order.subtotalMinor) ∈ report.totals := by
  have shown : ((World.opened cartDemo 0 0).execute (enrichCart 0 ⟨20, 0, 7, .opened, 0⟩) 3).any
      (fun (result, _) => result.toOption.any fun report => report.totals.length = 2) = true := by decide +kernel
  have executed : ((World.opened cartDemo 0 0).execute (createOrder 0 7 {} {}) 12).any
      (fun (result, world) => result.toOption.any fun summary =>
        (world.database.get .order summary.id).any (fun order => order.currency = "USD") &&
          (world.database.get .cart 20).any fun cart => cart.status = .converted) = true := by decide +kernel
  have unique : cartDemo.Unique (S := commerce) .price := by
    intro first one second two entry held shared
    have rows : (cartDemo.table .price).rows = [⟨3, 0, 1, "USD", 100⟩, ⟨12, 0, 1, "EUR", 90⟩] := by decide
    have indexes (row : Price) : commerce.indexes (m := .price) row = [.price row.variantId row.currency] := rfl
    rw [indexes, List.mem_singleton] at held shared
    rw [rows, List.mem_pair] at one two
    rcases one with rfl | rfl <;> rcases two with rfl | rfl <;> simp_all
  obtain ⟨⟨result, world⟩, finished, totals⟩ := (Option.any_eq_true _ _).mp shown
  obtain ⟨_, read, ended, rfl⟩ := RunsAlone.executed finished
  cases result with
  | error failure => cases totals
  | ok report =>
    obtain ⟨⟨result, world⟩, finished, seen⟩ := (Option.any_eq_true _ _).mp executed
    obtain ⟨_, ran, returned, rfl⟩ := RunsAlone.executed finished
    cases result with
    | error failure => cases seen
    | ok summary =>
      simp only [Except.toOption, Option.any_some, Bool.and_eq_true, decide_eq_true_eq, Option.any_eq_true] at seen totals
      obtain ⟨⟨placed, stored, currency⟩, converted⟩ := seen
      obtain ⟨order, found, charged⟩ :=
        (cart_total_charged read ended).2 7 {} {} 0 0 _ summary unique (by decide) rfl ran returned converted
      rw [stored] at found
      cases found
      exact ⟨report, placed, totals, currency, charged⟩

end BusinessPlatform
