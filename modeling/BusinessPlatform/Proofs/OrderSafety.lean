import BusinessPlatform.Proofs.Stability

/-! `createOrder` and `cancelOrder` under interference: a call commits its whole
transaction or nothing. -/

namespace BusinessPlatform
open Engine OrderService

variable {ι : Type}

theorem aggregateItems_filled {items : List OrderItemInputDto} (filled : items ≠ []) : aggregateItems items ≠ [] := by
  obtain ⟨item, rest, rfl⟩ := List.exists_cons_of_ne_nil filled
  intro empty
  have inside : item.variantId ∈ (aggregateItems (item :: rest)).map Prod.fst :=
    Tally.mem_keys_collect.mpr (by simp)
  simp [empty] at inside

theorem Input.grows {rely : Guarantee commerce ι} {i : ι} {tenantId : Id} {dto : CreateOrderDto}
    {before after : SystemWorld ι} {items : List OrderItemInputDto} {cartId : Option Id}
    (input : Input i tenantId dto before items cartId) (grows : Grows rely before after) :
    Input i tenantId dto after items cartId := by
  cases input with
  | direct given => exact .direct given
  | cart given member author access listed read => exact .cart given (grows.member member) author access listed read

theorem Priced.grows {rely : Guarantee commerce ι} {i : ι} {before after : SystemWorld ι} {placement : Placement}
    (priced : Priced i before placement) (grows : Grows rely before after) : Priced i after placement := by
  obtain ⟨event, member, rest⟩ := priced
  exact ⟨event, grows.member member, rest⟩

theorem LinkFound.grows {rely : Guarantee commerce ι} {i : ι} {before after : SystemWorld ι} {booking : Booking}
    (found : LinkFound i before booking) (grows : Grows rely before after) : LinkFound i after booking := by
  obtain ⟨event, member, rest⟩ := found
  exact ⟨event, grows.member member, rest⟩

section Place
variable {commits : Commits commerce ι} {rely : Guarantee commerce ι} {i : ι} {kinds : HttpException → Prop}
  {tenantId userId : Id} {dto : CreateOrderDto} {world first : SystemWorld ι} {transaction : Transaction commerce}
  {pins : List (Pin commerce)}

private theorem itemsInput_safe {post : Post commerce HttpException (List OrderItemInputDto × Option Id) ι}
    (fails : Fails rely i kinds post false world) (kind : ∀ exception, kinds exception)
    (resume : ∀ after items cartId, Fails rely i kinds post false after → Input i tenantId dto after items cartId →
      items ≠ [] → post (.ok (items, cartId)) none after) :
    Safe commits rely i post (itemsInput tenantId userId dto) none world := by
  have fromCart (given : dto.items.getD [] = []) :
      Safe commits rely i post (readCart tenantId userId) none world := by
    refine Safe.findMany fails fun w₁ carts l₁ _ fails => ?_
    refine Safe.orThrow fails (kind _) fun cart _ => ?_
    refine Safe.findMany fails fun w₂ lines l₂ listed fails => ?_
    refine Safe.throwIf fails (kind _) fun filled => ?_
    refine Safe.done fun after later => resume after _ _ (fails.idle (Later.idle later)) ?_ ?_
    · exact .cart given (later.grows.member (List.mem_cons_self ..)) rfl rfl rfl listed
    · simpa using filled
  unfold itemsInput
  split
  next item items given =>
    refine Safe.done fun after later => resume after _ _ (fails.idle (Later.idle later)) (.direct given) ?_
    exact nofun
  next none =>
    refine fromCart ?_
    cases given : dto.items with
    | none => rfl
    | some items =>
      cases items with
      | nil => rfl
      | cons item rest => exact absurd given (none item rest)

private theorem assertCustomer_safe {customerId : Option Id} {post : Post commerce HttpException Unit ι}
    (fails : Fails rely i kinds post false world) (kind : ∀ exception, kinds exception)
    (resume : ∀ after, Grows rely world after → Fails rely i kinds post false after → post (.ok ()) none after) :
    Safe commits rely i post (assertCustomer tenantId customerId) none world := by
  cases customerId with
  | none => exact Safe.done fun after later => resume after later.grows (fails.idle (Later.idle later))
  | some customerId =>
    refine Safe.findFirst fails fun w₁ customers l₁ _ fails => ?_
    unfold Program.throwIf
    split
    next => exact Safe.throw fails (kind _)
    next =>
      exact Safe.done fun after later =>
        resume after ((l₁.grows.tail (.empty _)).trans later.grows) (fails.idle (Later.idle later))

def Debit.pin (pool : Option Id) (debit : Debit) : Pin commerce :=
  ⟨.inventory, (debit.variantId, pool), some debit.stock⟩

private theorem debit_safe {pool : Option Id} {lines : List (Id × Int)} (done : List Debit)
    {post : Post commerce HttpException Unit ι}
    (distinct : ((done.map Debit.entry ++ lines).map Prod.fst).Nodup) (covered : ∀ debit ∈ done, debit.Covered ∧ debit.stock.tenantId = tenantId)
    (held : Held rely first (done.map (Debit.pin pool)) world transaction)
    (written : transaction.writes = done.map fun debit => .put .inventory debit.debited)
    (fails : Fails rely i kinds post true world) (kind : ∀ exception, kinds exception)
    (resume : ∀ after transaction (debits : List Debit), debits.map Debit.entry = done.map Debit.entry ++ lines →
      (∀ debit ∈ debits, debit.Covered ∧ debit.stock.tenantId = tenantId) → Held rely first (debits.map (Debit.pin pool)) after transaction →
      transaction.writes = (debits.map fun debit => .put .inventory debit.debited) →
      Fails rely i kinds post true after → post (.ok ()) (some transaction) after) :
    Safe commits rely i post (debit tenantId pool lines) (some transaction) world := by
  induction lines generalizing done world transaction with
  | nil =>
    exact Safe.done fun after later =>
      resume after transaction done (by simp) covered (held.later later) written (fails.idle (Later.idle later))
  | cons line rest ih =>
    obtain ⟨variantId, quantity⟩ := line
    rw [debit]
    refine Safe.sent (fun _ => Safe.failed (by exact fails) nofun) fun _ => ?_
    refine Safe.updateUniqueInside (k := (variantId, pool)) ?_ fails (fun after later _ fails => ?_)
      fun after later row found matched checked fails => ?_
    · intro row matched
      simp only [Bool.and_eq_true, decide_eq_true_eq] at matched
      exact Prod.ext matched.1.1.1 matched.1.1.2
    · exact Safe.throw fails (kind _)
    · simp only [Bool.and_eq_true, decide_eq_true_eq] at matched
      -- this variant is not among those debited so far
      have apart : variantId ∉ done.map Debit.variantId := by
        rw [List.map_append, List.map_map, List.nodup_append] at distinct
        exact fun inside => distinct.2.2 _ inside _ (by simp) rfl
      have pools : ∀ debit ∈ done, debit.debited.pool = (debit.variantId, pool) := fun debit member =>
        (Table.find_eq_some.mp (held.pinned _ (List.mem_map_of_mem member)).2).2
      have committed : after.database.get .inventory (variantId, pool) = some row := by
        rw [written, Database.get_untouched (S := commerce) (m := .inventory)] at found
        · exact found
        · simp
        · rw [putsOf_map_same, List.map_map]
          intro inside
          obtain ⟨debit, member, same⟩ := List.mem_map.mp inside
          exact apart (List.mem_map.mpr ⟨debit, member, congrArg Prod.fst ((pools debit member).symm.trans same)⟩)
      refine ih (done ++ [⟨variantId, quantity, row⟩]) ?_ ?_ ?_ ?_ fails ?_
      · simpa [Debit.entry] using distinct
      · intro debit member
        rcases List.mem_append.mp member with earlier | new
        · exact covered debit earlier
        · cases List.mem_singleton.mp new
          exact ⟨⟨matched.1.2, checked⟩, matched.2⟩
      · rw [List.map_append]
        exact held.change later _ _ committed
      · rw [List.map_append, written]
        rfl
      · intro after transaction debits entries
        rw [List.map_append, List.append_assoc] at entries
        exact resume after transaction debits entries

def bookingPin (booking : Booking) : Pin commerce := ⟨.booking, booking.id, some booking⟩

private theorem linkBooking_safe {orderId : Id} {bookingId : Option Id} {post : Post commerce HttpException Unit ι}
    (untouched : putsOf (S := commerce) .booking transaction.writes = [])
    (kept : erasesOf (S := commerce) .booking transaction.writes = [])
    (held : Held rely first pins world transaction) (fails : Fails rely i kinds post true world)
    (kind : ∀ exception, kinds exception)
    (resume : ∀ after (larger : Transaction commerce) (booking : Option Booking), booking.map Booking.id = bookingId →
      (∀ found, booking = some found → found.orderId = none ∧ found.tenantId = tenantId ∧ LinkFound i after found) →
      larger.writes = transaction.writes ++
        (booking.toList.map fun booking => .put .booking ((linkOrder orderId).apply booking)) →
      Held rely first (pins ++ booking.toList.map bookingPin) after larger →
      Fails rely i kinds post true after → post (.ok ()) (some larger) after) :
    Safe commits rely i post (linkBooking tenantId orderId bookingId) (some transaction) world := by
  cases bookingId with
  | none =>
    exact Safe.done fun after later =>
      resume after transaction none rfl nofun (by simp) (by simpa using held.later later) (fails.idle (Later.idle later))
  | some bookingId =>
    refine Safe.updateUniqueInside (k := bookingId) ?_ fails (fun after later _ fails => ?_)
      fun after later row found matched checked fails => ?_
    · intro row matched
      simp only [Bool.and_eq_true, decide_eq_true_eq] at matched
      exact matched.1.1
    · exact Safe.throw fails (kind _)
    · simp only [Bool.and_eq_true, decide_eq_true_eq] at matched
      have now : after.database.get .booking row.id = some row := by
        rw [matched.1.1, ← Database.get_untouched (S := commerce) (m := .booking) _ kept (by rw [untouched]; exact nofun)]
        exact found
      refine Safe.done fun final more => resume final _ (some row) (congrArg some matched.1.1) ?_ rfl
        ((held.change later _ (linkOrder orderId) now).later more) (fails.idle (Later.idle more))
      rintro _ ⟨⟩
      exact ⟨matched.1.2, matched.2, _, more.grows.member (List.mem_cons_self ..), rfl, rfl, now⟩

private theorem createItems_safe {order : Order} {variants : List ProductVariant} {products : List Product}
    {units : List (Id × Int)} {earlier : Writes} {rest : List Debit} (done : List PlacedLine)
    {post : Post commerce HttpException Unit ι} (tenant : order.tenantId = tenantId)
    (unlisted : putsOf (S := commerce) .orderItem earlier = []) (kept : erasesOf (S := commerce) .orderItem earlier = [])
    (matched : ∀ line ∈ done, line.Matches order ∧ line.item.unitAmountMinor = unitPrice units line.variantId)
    (inserted : Inserted rely first pins earlier .orderItem (done.map PlacedLine.item) world transaction)
    (fails : Fails rely i kinds post true world) (kind : ∀ exception, kinds exception)
    (resume : ∀ after transaction (lines : List PlacedLine),
      lines.map PlacedLine.toDebit = done.map PlacedLine.toDebit ++ rest →
      (∀ line ∈ lines, line.Matches order ∧ line.item.unitAmountMinor = unitPrice units line.variantId) →
      Inserted rely first pins earlier .orderItem (lines.map PlacedLine.item) after transaction →
      Fails rely i kinds post true after → post (.ok ()) (some transaction) after) :
    Safe commits rely i post (createItems tenantId order variants products units (rest.map Debit.entry))
      (some transaction) world := by
  induction rest generalizing done world transaction with
  | nil =>
    exact Safe.done fun after later => resume after transaction done (by simp) matched (inserted.later later)
      (fails.idle (Later.idle later))
  | cons next rest ih =>
    refine Safe.orThrow fails (kind _) fun variant _ => ?_
    refine Safe.insert inserted unlisted kept fails fun after larger item built checked inserted fails => ?_
    obtain ⟨stamp, clock, rfl⟩ := built
    simp only [Model.check, Bool.and_eq_true, decide_eq_true_eq] at checked
    refine ih (done ++ [⟨next, _⟩]) ?_ (by rw [List.map_append]; exact inserted) fails fun after transaction lines debits => ?_
    · intro line member
      rcases List.mem_append.mp member with earlier | new
      · exact matched line earlier
      · cases List.mem_singleton.mp new
        exact ⟨⟨rfl, tenant.symm, rfl, rfl, checked.1.1.1.1, rfl, rfl⟩, rfl⟩
    · rw [List.map_append, List.append_assoc] at debits
      exact resume after transaction lines debits

def cartPin (cart : Cart) : Pin commerce := ⟨.cart, cart.id, some cart⟩

private theorem convertCart_safe {cartId : Option Id} {post : Post commerce HttpException Unit ι}
    (untouched : putsOf (S := commerce) .cart transaction.writes = [])
    (kept : erasesOf (S := commerce) .cart transaction.writes = [])
    (held : Held rely first pins world transaction) (fails : Fails rely i kinds post true world)
    (resume : ∀ after (larger : Transaction commerce) (cart : Option Cart), cart.map Cart.id = cartId →
      (∀ found, cart = some found → found.tenantId = tenantId) →
      larger.writes = transaction.writes ++ (cart.toList.map fun cart => .put .cart (convert.apply cart)) →
      Held rely first (pins ++ cart.toList.map cartPin) after larger →
      Fails rely i kinds post true after → post (.ok ()) (some larger) after) :
    Safe commits rely i post (convertCart tenantId cartId) (some transaction) world := by
  cases cartId with
  | none =>
    exact Safe.done fun after later =>
      resume after transaction none rfl nofun (by simp) (by simpa using held.later later) (fails.idle (Later.idle later))
  | some cartId =>
    refine Safe.updateInside fails fun after later row member matched checked fails => ?_
    simp only [Bool.and_eq_true, decide_eq_true_eq] at matched
    refine Safe.done fun final more => ?_
    have now : after.database.get .cart row.id = some row := by
      rw [← Database.get_untouched (S := commerce) (m := .cart) _ kept (by rw [untouched]; exact nofun)]
      exact Table.find_eq_some.mpr ⟨member, rfl⟩
    exact resume final _ (some row) (congrArg some matched.1) (by rintro _ ⟨⟩; exact matched.2) rfl ((held.change later _ convert now).later more)
      (fails.idle (Later.idle more))

variable [DecidableEq ι] {history : List Writes} {options : CreateOrderOptions} {summary : OrderSummary}

abbrev OrderCommits (i : ι) (history : List Writes) (tenantId userId : Id) (dto : CreateOrderDto)
    (options : CreateOrderOptions) : Commits commerce ι := fun world writes =>
  world.own i = history ∧
    ∃ placement, Ordered i tenantId userId dto options world placement ∧ writes = placement.writes

/-- What the transaction has locked and knows of the committed rows. -/
def Placement.known (placement : Placement) : List (Pin commerce) :=
  (placement.lines.map PlacedLine.toDebit).map (Debit.pin placement.pool) ++ [⟨.order, placement.order.id, none⟩] ++
    placement.booking.toList.map bookingPin ++ (placement.lines.map PlacedLine.item).map (fun item => ⟨.orderItem, item.id, none⟩) ++ placement.cart.toList.map cartPin

omit [DecidableEq ι] in
private theorem Held.placed {placement : Placement} (held : Held rely first placement.known world transaction)
    (pending : placement.order.status = .pending) (nonempty : placement.lines ≠ [])
    (distinct : (placement.lines.map fun line => line.variantId).Nodup)
    (covered : ∀ line ∈ placement.lines, line.toDebit.Covered)
    (matched : ∀ line ∈ placement.lines, line.Matches placement.order)
    (items : (placement.lines.map fun line => line.item.id).Nodup)
    (unlinked : ∀ booking, placement.booking = some booking → booking.orderId = none)
    (subtotal : placement.order.subtotalMinor = (placement.lines.map fun line => line.item.lineTotalMinor).sum) :
    Placed world.database placement where
  fresh := (held.pinned ⟨Model.order, placement.order.id, none⟩ (by simp [Placement.known])).2
  pending := pending
  nonempty := nonempty
  distinct := distinct
  debits line member := ⟨covered line member, (held.pinned (line.toDebit.pin placement.pool) (by
    simp only [Placement.known, List.mem_append]
    exact .inl (.inl (.inl (.inl (List.mem_map_of_mem (List.mem_map_of_mem member))))))).2⟩
  lines := matched
  itemsFresh line member := (held.pinned ⟨Model.orderItem, line.item.id, none⟩ (by
    simp only [Placement.known, List.mem_append]
    exact .inl (.inr (List.mem_map_of_mem (List.mem_map_of_mem member))))).2
  items := items
  subtotal := subtotal
  cart cart taken := (held.pinned (cartPin cart) (by simp [Placement.known, taken])).2
  booking booking taken := ⟨(held.pinned (bookingPin booking) (by simp [Placement.known, taken])).2, unlinked booking taken⟩

/-- The call has committed the order that it returns. -/
def OrderPlaced (i : ι) (history : List Writes) (pool : Option Id) (summary : OrderSummary)
    (world : SystemWorld ι) : Prop :=
  ∃ placement : Placement, world.own i = placement.writes :: history ∧ summary.id = placement.order.id ∧
    placement.Debits pool

abbrev OrderPost (i : ι) (history : List Writes) (pool : Option Id) : Post commerce HttpException OrderSummary ι :=
  Attempt i history (fun _ => True) (OrderPlaced i history pool)

private theorem placeOrder_safe {ordered : List OrderItemInputDto} {cartId : Option Id}
    {aggregated : List (Id × Int)} (collected : aggregateItems ordered = aggregated) (filled : ordered ≠ [])
    (input : Input i tenantId dto world ordered cartId)
    (fails : Fails rely i (fun _ => True) (Body (OrderCommits i history tenantId userId dto options) rely i
      (OrderPost i history options.inventoryScope.storeId)) true world) :
    Safe Never rely i (Body (OrderCommits i history tenantId userId dto options) rely i
        (OrderPost i history options.inventoryScope.storeId))
      (placeOrder tenantId userId dto.customerId options.inventoryScope.storeId options.bookingId cartId aggregated)
      (some {}) world := by
  refine Safe.findMany fails fun w₁ variants l₁ _ fails => ?_
  refine Safe.throwIf fails trivial fun _ => Safe.throwIf fails trivial fun _ => ?_
  refine Safe.findMany fails fun w₂ prices l₂ scanned fails => ?_
  refine Safe.ofExcept fails (fun _ => trivial) fun priced units => ?_
  obtain ⟨target, unit⟩ := priced
  refine Safe.throwIf fails trivial fun named => ?_
  refine Safe.findMany fails fun w₃ products l₃ _ fails => ?_
  have held := (Held.start _).move l₃ ⟨some i, some (.product, .find), products.map (Sigma.mk Model.product), true⟩
    fun _ => id
  refine Safe.bind (debit_safe [] ?_ nofun held rfl fails (fun _ => trivial) ?_)
  · rw [← collected]
    exact Tally.nodup_collect _
  intro w₄ t₄ debits entries covered held written fails
  obtain rfl : debits.map Debit.entry = aggregated := entries
  refine Safe.createInside fails fun w₅ l₅ order built created fails => ?_
  obtain ⟨_, fresh⟩ := Database.get_none (S := commerce) (m := .order) _ (by simp [written]) created.fresh
  refine Safe.bind (linkBooking_safe (by simp [written]) (by simp [written]) (held.insert l₅ _ order fresh) fails
    (fun _ => trivial) ?_)
  intro w₆ t₆ booking chosen unlinked linked held fails
  have priced := held.grown
  replace held := held.restart
  have listed : erasesOf (S := commerce) .orderItem t₆.writes = [] ∧ putsOf (S := commerce) .orderItem t₆.writes = [] := by
    simp [linked, written]
  refine Safe.bind (createItems_safe [] (by rw [built]) listed.2 listed.1 nofun (.none held) fails (fun _ => trivial) ?_)
  intro w₇ t₇ lines same matched ⟨held, itemized, distinct⟩ fails
  replace itemized : t₇.writes = t₆.writes ++ lines.map fun line => .put .orderItem line.item := by
    rw [itemized, List.map_map]
    rfl
  refine Safe.bind (convertCart_safe ?_ ?_ held fails ?_)
  · simp [itemized, linked, written]
  · simp [itemized, linked, written]
  intro w₈ t₈ cart taken member converted held fails
  refine Safe.findMany fails fun w₉ items l₉ _ fails => ?_
  refine Safe.done fun after later => ?_
  have own : after.own i = history := Fails.ownInside (fails.idle (Later.idle later))
  obtain rfl : lines.map PlacedLine.toDebit = debits := same
  have held := (held.move l₉ ⟨some i, some (.orderItem, .find), items.map (Sigma.mk Model.orderItem), true⟩
    fun _ => id).later later
  have entries : aggregateItems ordered = lines.map fun line => line.entry := by
    rw [collected, List.map_map]
    rfl
  have variants : (lines.map fun line => line.variantId).Nodup := by
    have distinct : ((aggregateItems ordered).map Prod.fst).Nodup := Tally.nodup_collect _
    rwa [entries, List.map_map] at distinct
  have placed : Placed after.database ⟨order, options.inventoryScope.storeId, lines, booking, cart⟩ := by
    refine Held.placed held (by rw [built]) ?_ variants ?_
      (fun line member => (matched line member).1) (List.map_map ▸ distinct) (fun found same => (unlinked found same).1) ?_
    · rintro rfl
      exact aggregateItems_filled filled entries
    · exact fun line member => (covered _ (List.mem_map_of_mem member)).1
    · rw [built]
      simp only [List.map_map]
      refine congrArg List.sum (List.map_congr_left fun line member => ?_)
      have item := matched line member
      rw [item.1.total, item.2]
      rfl
  have grown : Grows rely (w₂.reads i .price prices true) after := priced.trans held.grown
  have writes : t₈.writes = Placement.writes ⟨order, options.inventoryScope.storeId, lines, booking, cart⟩ := by
    simp only [converted, itemized, linked, written, Placement.writes, List.map_map, List.append_assoc,
      List.cons_append, List.nil_append]
    rfl
  refine ⟨t₈, rfl, .inr ⟨own, _, ⟨placed, ?_, ?_, ?_, rfl, member, fun found same => (unlinked found same).2.1, chosen,
    fun found same => (unlinked found same).2.2.grows held.grown, ⟨ordered, ?_, entries⟩, ?_,
    fun line member => (covered _ (List.mem_map_of_mem member)).2⟩, writes⟩, fun final more => ?_⟩
  · rw [built]
  · rw [built]
  · rw [built]
  · rw [taken]
    exact input.grows ((((l₁.grows.tail (.empty _)).trans l₂.grows).tail (.empty _)).trans grown)
  · refine ⟨_, grown.member (List.mem_cons_self ..), rfl, rfl, rfl, prices, unit, rfl, ?_, ?_,
      fun line member => (matched line member).2⟩
    · simp only [List.map_map] at scanned
      rw [built]
      exact scanned
    cases target with
    | none => simp at named
    | some currency =>
      rw [List.map_map, List.map_map] at units
      rw [built]
      exact units
  · refine ⟨rfl, ⟨order, options.inventoryScope.storeId, lines, booking, cart⟩, ?_, rfl, placed.debits_iff.mpr rfl⟩
    rw [(Later.idle more).own, ← writes]
    exact World.own_record_same own rfl (by simp [writes, Placement.writes])

theorem createOrder_safe (own : world.own i = history) :
    Safe (OrderCommits i history tenantId userId dto options) rely i
      (OrderPost i history options.inventoryScope.storeId) (createOrder tenantId userId dto options) none world := by
  refine Safe.bind (itemsInput_safe (Attempt.fails own) (fun _ => trivial) ?_)
  intro w₁ items cartId fails input filled
  refine Safe.bind (assertCustomer_safe fails (fun _ => trivial) fun w₂ grown fails => ?_)
  refine Safe.transaction fails fun w₃ l₃ fails => ?_
  exact placeOrder_safe rfl filled (input.grows ((grown.trans l₃.grows).tail (.empty _))) fails

end Place

section Cancel
variable [DecidableEq ι] {calls : ι → Call} {i : ι} {kinds : HttpException → Prop} {tenantId orderId : Id}
  {commits : Commits commerce ι} {world first : SystemWorld ι} {transaction : Transaction commerce}
  {pins : List (Pin commerce)}

/-- The rows of the restocked pools before the transaction. -/
def Restocking (pins : List (Pin commerce)) (pool : Option Id) (restock : Restock) : Prop :=
  ∃ before, (⟨Model.inventory, (restock.variantId, pool), before⟩ : Pin commerce) ∈ pins ∧ restock.Valid pool before

private theorem restock_apart {pool : Option Id} {variantId : Id} {earlier : Writes} {done : List Restock}
    (db : Db) (kept : erasesOf (S := commerce) .inventory earlier = [])
    (unstocked : putsOf (S := commerce) .inventory earlier = [])
    (restocking : ∀ restock ∈ done, Restocking pins pool restock) (apart : variantId ∉ done.map Restock.variantId) :
    (db.applyAll (earlier ++ done.map fun restock => .put Model.inventory restock.row)).get .inventory
      (variantId, pool) = db.get .inventory (variantId, pool) := by
  rw [Database.get_untouched (S := commerce) (m := .inventory)]
  · rw [erasesOf_append, kept, erasesOf_map_put, List.append_nil]
  · rw [putsOf_append, unstocked, List.nil_append, putsOf_map_same, List.map_map]
    intro inside
    obtain ⟨restock, member, same⟩ := List.mem_map.mp inside
    obtain ⟨before, _, valid⟩ := restocking restock member
    exact apart (List.mem_map.mpr ⟨restock, member, congrArg Prod.fst (valid.pooled.symm.trans same)⟩)

private theorem restockLine_safe {pool : Option Id} {variantId : Id} {quantity : Int} {earlier : Writes}
    {done : List Restock} {post : Post commerce HttpException Unit ι}
    (kept : erasesOf (S := commerce) .inventory earlier = [])
    (unstocked : putsOf (S := commerce) .inventory earlier = [])
    (restocking : ∀ restock ∈ done, Restocking pins pool restock) (apart : variantId ∉ done.map Restock.variantId)
    (held : Held (lawful calls) first pins world transaction)
    (written : transaction.writes = earlier ++ done.map fun restock => .put .inventory restock.row)
    (fails : Fails (lawful calls) i kinds post true world)
    (resume : ∀ after (larger : Transaction commerce) (restock : Restock) pin, restock.entry = (variantId, quantity) →
      Restocking (pins ++ [pin]) pool restock → Held (lawful calls) first (pins ++ [pin]) after larger →
      larger.writes = transaction.writes ++ [.put .inventory restock.row] → Fails (lawful calls) i kinds post true after →
      post (.ok ()) (some larger) after) :
    Safe commits (lawful calls) i post (restockLine tenantId pool variantId quantity) (some transaction) world := by
  have view (db : Db) := written ▸ restock_apart db kept unstocked restocking apart
  refine Safe.findFirst fails fun w₁ rows l₁ listed fails => ?_
  cases head : rows.head? with
  | none =>
    refine Safe.createInside fails fun w₂ l₂ row built created fails => ?_
    subst built
    have absent := (view _).symm.trans created.fresh
    refine Safe.done fun after later => resume after _ ⟨variantId, quantity, _⟩ _ rfl ?_
      (((held.move l₁ _ fun _ => id).insert l₂ _ _ absent).later later) rfl (fails.idle (Later.idle later))
    exact ⟨none, List.mem_append_right _ (List.mem_singleton.mpr rfl), rfl, created.checked, nofun, fun _ => rfl⟩
  | some found =>
    obtain ⟨inside, matched⟩ := listed_head listed head
    simp only [Bool.and_eq_true, decide_eq_true_eq] at matched
    have there : w₁.database.get .inventory (variantId, pool) = some found := by
      rw [← view]
      exact Table.find_eq_some.mpr ⟨inside, Prod.ext matched.1.1 matched.1.2⟩
    have held := held.move l₁ ⟨some i, some (.inventory, .find), rows.map (Sigma.mk Model.inventory), true⟩ fun _ => id
    refine Safe.updateUniqueInside (k := (variantId, pool)) ?_ fails (fun w₂ l₂ missed _ => ?_)
      fun w₂ l₂ row now same checked fails => ?_
    · intro row same
      simp only [Bool.and_eq_true, decide_eq_true_eq] at same
      exact Prod.ext same.1.1 same.1.2
    · -- a pool's row never disappears, so the update cannot miss it
      obtain ⟨row, now, tenant⟩ := Grows.pool l₂.grows there
      have pooled := (Table.find_eq_some.mp now).2
      have unmatched := missed row ((view _).trans now)
      obtain ⟨variant, store⟩ := Prod.mk.inj pooled
      simp [variant, store, tenant, matched.2] at unmatched
    · have present := (view _).symm.trans now
      refine Safe.done fun after later => resume after _ ⟨variantId, quantity, _⟩ _ rfl ?_
        ((held.change l₂ _ _ present).later later) rfl (fails.idle (Later.idle later))
      simp only [Bool.and_eq_true, decide_eq_true_eq] at same
      refine ⟨some row, List.mem_append_right _ (List.mem_singleton.mpr rfl), Prod.ext same.1.1 same.1.2, checked, ?_,
        nofun⟩
      rintro _ ⟨⟩
      rfl

omit [DecidableEq ι] in
private theorem Restocking.more {pool : Option Id} {restock : Restock} {pin : Pin commerce}
    (restocking : Restocking pins pool restock) : Restocking (pins ++ [pin]) pool restock := by
  obtain ⟨before, member, valid⟩ := restocking
  exact ⟨before, List.mem_append_left _ member, valid⟩

private theorem restock_safe {pool : Option Id} {lines : List (Id × Int)} {earlier : Writes}
    (done : List Restock) {post : Post commerce HttpException Unit ι}
    (kept : erasesOf (S := commerce) .inventory earlier = [])
    (unstocked : putsOf (S := commerce) .inventory earlier = [])
    (distinct : ((done.map Restock.entry ++ lines).map Prod.fst).Nodup)
    (restocking : ∀ restock ∈ done, Restocking pins pool restock)
    (held : Held (lawful calls) first pins world transaction)
    (written : transaction.writes = earlier ++ done.map fun restock => .put .inventory restock.row)
    (fails : Fails (lawful calls) i kinds post true world)
    (resume : ∀ after (transaction : Transaction commerce) (restocks : List Restock) (added : List (Pin commerce)),
      restocks.map Restock.entry = done.map Restock.entry ++ lines →
      (∀ restock ∈ restocks, Restocking (pins ++ added) pool restock) →
      Held (lawful calls) first (pins ++ added) after transaction →
      transaction.writes = (earlier ++ restocks.map fun restock => .put .inventory restock.row) →
      Fails (lawful calls) i kinds post true after → post (.ok ()) (some transaction) after) :
    Safe commits (lawful calls) i post (restock tenantId pool lines) (some transaction) world := by
  induction lines generalizing done pins world transaction with
  | nil =>
    exact Safe.done fun after later => resume after transaction done [] (by simp) (by simpa using restocking)
      (by simpa using held.later later) written (fails.idle (Later.idle later))
  | cons line rest ih =>
    obtain ⟨variantId, quantity⟩ := line
    have apart : variantId ∉ done.map Restock.variantId := by
      rw [List.map_append, List.map_map, List.nodup_append] at distinct
      exact fun inside => distinct.2.2 _ inside _ (by simp) rfl
    refine Safe.bind (restockLine_safe kept unstocked restocking apart held written fails ?_)
    intro after larger restock pin entry moved held more fails
    have lines : (done ++ [restock]).map Restock.entry ++ rest = done.map Restock.entry ++ (variantId, quantity) :: rest := by
      simp [entry]
    refine ih (done ++ [restock]) (lines ▸ distinct) ?_ held ?_ fails ?_
    · intro other member
      rcases List.mem_append.mp member with earlier | new
      · exact (restocking other earlier).more
      · exact List.mem_singleton.mp new ▸ moved
    · simp [more, written]
    · intro after transaction restocks added entries
      rw [List.append_assoc, List.singleton_append]
      exact resume after transaction restocks (pin :: added) (entries.trans lines)

abbrev CancelCommits (i : ι) (tenantId orderId : Id) : Commits commerce ι := fun world writes =>
  world.own i = [] ∧ ∃ cancellation, Cancelled i tenantId orderId world cancellation ∧ writes = cancellation.writes

/-- The call has committed the cancellation of its order. -/
abbrev CancelPost (i : ι) (orderId : Id) : Post commerce HttpException OrderSummary ι :=
  Attempt i [] (fun _ => True) fun _ world =>
    ∃ cancellation : Cancellation, world.own i = [cancellation.writes] ∧ cancellation.order.id = orderId

private theorem readSummary_safe {post : Post commerce HttpException OrderSummary ι}
    (held : Held (lawful calls) first pins world transaction) (fails : Fails (lawful calls) i kinds post true world)
    (kind : ∀ exception, kinds exception)
    (resume : ∀ after summary, Held (lawful calls) first pins after transaction →
      Fails (lawful calls) i kinds post true after → post (.ok summary) (some transaction) after) :
    Safe commits (lawful calls) i post (readSummary tenantId orderId) (some transaction) world := by
  refine Safe.findFirst fails fun w₁ orders l₁ _ fails => ?_
  refine Safe.orThrow fails (kind _) fun order _ => ?_
  refine Safe.findMany fails fun w₂ items l₂ _ fails => ?_
  exact Safe.done fun after later => resume after _ (((held.move l₁ _ fun _ => id).move l₂ _ fun _ => id).later later)
    (fails.idle (Later.idle later))

private theorem cancelAndRestock_safe
    (fails : Fails (lawful calls) i (fun _ => True)
      (Body (CancelCommits i tenantId orderId) (lawful calls) i (CancelPost i orderId)) true world) :
    Safe Never (lawful calls) i (Body (CancelCommits i tenantId orderId) (lawful calls) i (CancelPost i orderId))
      (cancelAndRestock tenantId orderId) (some {}) world := by
  refine Safe.now fails fun w₁ l₁ fails => ?_
  refine Safe.updateUniqueInside (k := orderId) ?_ fails (fun _ _ _ fails => ?_) fun w₂ l₂ order found matched _ fails => ?_
  · intro row matched
    simp only [Bool.and_eq_true, decide_eq_true_eq] at matched
    exact matched.1.1
  · exact Safe.throw fails trivial
  simp only [Bool.and_eq_true, decide_eq_true_eq] at matched
  have held := (Held.start _).change l₂ (updating i .order true) (cancel w₁.clock) found
  refine Safe.findFirst fails fun w₃ sales l₃ sold fails => ?_
  refine Safe.findMany fails fun w₄ items l₄ listed fails => ?_
  have held := (held.move l₃ ⟨some i, some (.posSale, .find), sales.map (Sigma.mk Model.posSale), true⟩
    fun _ => id).move l₄ ⟨some i, some (.orderItem, .find), items.map (Sigma.mk Model.orderItem), true⟩ fun _ => id
  have present := (held.pinned ⟨Model.order, orderId, some order⟩ (List.mem_singleton.mpr rfl)).2
  have view {t : Transaction commerce} (w : SystemWorld ι) (m : Model) (other : Model.order ≠ m)
      (written : t.writes = [.put Model.order ((cancel w₁.clock).apply order)]) :
      (w.view (some t)).table m = w.database.table m :=
    Database.applyAll_other _ (by simpa [written, Write.model] using other)
  have held : Held (lawful calls) (w₄.reads i .orderItem items true) _ (w₄.reads i .orderItem items true) _ :=
    ⟨.refl, held.pinned⟩
  refine Safe.bind (restock_safe [] ?_ ?_ ?_ (by simp) held (List.append_nil _).symm fails ?_)
  · simp
  · simp
  · exact Tally.nodup_collect _
  intro w₅ t₅ restocks added entries restocking held written fails
  refine readSummary_safe held fails (fun _ => trivial) fun w₆ summary held fails => ?_
  have own : w₆.own i = [] := fails.ownInside
  refine ⟨t₅, rfl, .inr ⟨own, ⟨order, w₁.clock, sales.head?.map PosSale.storeId, restocks⟩,
    ⟨⟨?_, matched.2, matched.1.2, ⟨items, ?_, entries⟩, ?_⟩, ?_⟩, written⟩,
    fun final more => ⟨rfl, ⟨order, w₁.clock, sales.head?.map PosSale.storeId, restocks⟩, ?_, matched.1.1⟩⟩
  · exact (held.pinned ⟨Model.order, orderId, some order⟩ (by simp)).2
  · have unchanged := Grows.items held.grown tenantId (Option.isSome_iff_exists.mpr ⟨order, present⟩)
    rw [unchanged]
    rwa [view w₄ .orderItem (by decide) rfl] at listed
  · intro restock member
    obtain ⟨before, pinned, valid⟩ := restocking restock member
    exact (held.pinned _ pinned).2 ▸ valid
  · refine ⟨_, held.grown.member (List.mem_cons_of_mem _ (l₄.grows.member (List.mem_cons_self ..))), rfl, rfl, sales, rfl,
      ?_, rfl⟩
    rwa [view w₃ .posSale (by decide) rfl] at sold
  · rw [(Later.idle more).own, World.own_record_same own rfl (by simp [written])]
    exact congrArg (· :: []) written

/-- `cancelOrder` commits one cancellation with its restock, or nothing. -/
theorem cancelOrder_safe (own : world.own i = []) :
    Safe (CancelCommits i tenantId orderId) (lawful calls) i (CancelPost i orderId) (cancelOrder tenantId orderId) none
      world := by
  have fails : Fails (lawful calls) i (fun _ => True) (CancelPost i orderId) false world := Attempt.fails own
  refine Safe.findFirst fails fun w₁ orders l₁ _ fails => ?_
  refine Safe.orThrow fails trivial fun order _ => ?_
  refine Safe.throwIf fails trivial fun _ => ?_
  exact Safe.transaction fails fun w₂ l₂ fails => cancelAndRestock_safe fails

end Cancel
end BusinessPlatform
