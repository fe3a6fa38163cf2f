import BusinessPlatform.Proofs.Conservation
import BusinessPlatform.Proofs.OrderExactness

/-! Checkouts of carts. A cart gives one order, and holds what was ordered from then on,
as long as no commit changes a cart that has been checked out. -/

namespace BusinessPlatform
open Engine OrderService

variable {ι : Type} {db : Db} {writes : Writes} {world : SystemWorld ι} {label : Label commerce ι} {cart : Cart} {cartId : Id}

/-- What is in a cart. -/
def linesOfCart (db : Db) (cart : Cart) : List CartItem :=
  (db.table .cartItem).rows.filter fun row => row.cartId = cart.id && row.tenantId = cart.tenantId

/-- The units of a variant in a cart. -/
def held (variantId : Id) (cart : Cart) (db : Db) : Int :=
  amountOf variantId ((linesOfCart db cart).map fun row => (row.variantId, row.quantity))

def isConverted (db : Db) (cartId : Id) : Bool := (db.get .cart cartId).any fun cart => cart.status = .converted

/-- The event commits an order for the content of the cart. -/
def checksOut (cartId : Id) (event : Event commerce ι) : Bool :=
  (putsOf (S := commerce) .cart event.writes).any fun cart => cart.id = cartId && cart.status = .converted

/-- The cart that a write changes, itself or one of its lines. -/
def touched (db : Db) : Write commerce → Option Id
  | .put .cart cart => some (Cart.id cart)
  | .erase .cart id => some id
  | .put .cartItem item => some (CartItem.cartId item)
  | .erase .cartItem id => (db.get .cartItem id).map CartItem.cartId
  | _ => none

/-- No cart is changed that has been checked out, and a checkout finds in its cart what
its call has read there. -/
structure Orderly (state : SystemState ι) (event : Event commerce ι) : Prop where
  unconverted : ∀ write ∈ event.writes, ∀ cartId, touched event.before write = some cartId →
    isConverted event.before cartId = false
  current : ∀ cart ∈ putsOf (S := commerce) .cart event.writes, cart.status = .converted →
    ∀ read ∈ state.world.trace, read.author = event.author → read.access = some (.cartItem, .find) →
      ∀ variantId, held variantId cart read.before = held variantId cart event.before

/-- Carts change by checkouts and by the calls of their owners. -/
inductive CartChange (world : SystemWorld ι) (author : Option ι) : Writes → Prop where
  | ordered (i : ι) (called : author = some i) {tenantId userId : Id} {dto : CreateOrderDto} {options : CreateOrderOptions}
      (placement : Placement) (ordered : Ordered i tenantId userId dto options world placement) :
      CartChange world author placement.writes
  | edited {tenantId userId : Id} {writes : Writes}
      (step : CartStep tenantId userId world.trace.length world.database writes) : CartChange world author writes
  | elsewhere {writes : Writes} (other : ∀ write ∈ writes, write.model ≠ Model.cart ∧ write.model ≠ Model.cartItem) :
      CartChange world author writes

private theorem SaleStep.cartChange {i : ι} {author : Option ι} (called : author = some i) {tenantId userId : Id}
    {dto : PosSaleService.CreatePosSaleDto} {history : List Writes}
    (step : SaleStep i tenantId userId dto world history writes) : CartChange world author writes := by
  cases step with
  | order placement session ordered => exact .ordered i called placement ordered
  | capture placement payment captured =>
    cases captured
    exact .elsewhere (by simp [Write.model])
  | _ => exact .elsewhere (by simp [Write.model])

private theorem SyncStep.cartChange {i : ι} {author : Option ι} (called : author = some i) {tenantId operationId : Id}
    {history : List Writes} (step : SyncStep i tenantId operationId world history writes) :
    CartChange world author writes := by
  cases step with
  | rejected code operated | cleared operated | outOfStock claim held operated =>
    cases operated
    exact .elsewhere (by simp [Write.model])
  | claimed row now found pending unclaimed tenant => exact .elsewhere (by simp [Write.model])
  | accepted claim held placement payment paid captures sale once found captured order operated =>
    cases operated
    exact .elsewhere (by simp [Write.model])
  | executed claim held row items filled validated history found tenant lines read step => exact step.cartChange called

theorem lawful.cartChange [DecidableEq ι] {calls : ι → Call} {author : Option ι} (allowed : lawful calls author world writes) :
    CartChange world author writes := by
  cases author with
  | none =>
    refine .elsewhere fun write member => ⟨fun same => ?_, fun same => ?_⟩
    all_goals
      have external := allowed write member
      rw [same] at external
      cases external
  | some i =>
    simp only [lawful, Call.Commits] at allowed
    split at allowed
    · obtain ⟨_, adjusted⟩ := allowed
      cases adjusted <;> exact .elsewhere (by simp [Write.model])
    · obtain ⟨_, placement, ordered, rfl⟩ := allowed
      exact .ordered i rfl placement ordered
    · obtain ⟨_, cancellation, _, rfl⟩ := allowed
      exact .elsewhere (by simp [Cancellation.writes, Write.model])
    · obtain ⟨_, payment, _, rfl⟩ := allowed
      exact .elsewhere (by simp [Write.model])
    · obtain ⟨_, captured⟩ := allowed
      cases captured
      exact .elsewhere (by simp [Write.model])
    · obtain ⟨_, failed⟩ := allowed
      cases failed
      exact .elsewhere (by simp [Write.model])
    · exact allowed.cartChange rfl
    · obtain ⟨_, operation, items, _, rfl⟩ := allowed
      exact .elsewhere (by simp [intentWrites, Write.model])
    · exact allowed.cartChange rfl
    · obtain ⟨_, booking, _, rfl⟩ := allowed
      exact .elsewhere (by simp [Write.model])
    · obtain ⟨_, booking, _, rfl⟩ := allowed
      exact .elsewhere (by simp [Write.model])
    all_goals exact .edited allowed

private theorem touched_cart {write : Write commerce} (locked : Lock.row (S := commerce) .cart cartId ∈ write.locks) :
    touched db write = some cartId := by
  cases write with
  | put m row =>
    have same := (List.mem_cons.mp locked).resolve_right (by simp)
    cases same
    rfl
  | erase m k =>
    cases List.mem_singleton.mp locked
    rfl

private theorem CartChange.stable {author : Option ι} (change : CartChange world author writes) :
    ∀ row ∈ putsOf (S := commerce) .cartItem writes, ∀ old, world.database.get .cartItem row.id = some old →
      old.cartId = row.cartId := by
  cases change with
  | ordered i called placement ordered => simp
  | elsewhere other =>
    rw [putsOf_other fun write member => (other write member).2]
    exact nofun
  | edited step =>
    cases step with
    | cartOpened cart opened => simp
    | lineAdded item fresh cart =>
      intro row member old found
      cases List.mem_singleton.mp member
      cases fresh.symm.trans found
    | lineChanged item quantity present =>
      intro row member old found
      cases List.mem_singleton.mp member
      cases present.symm.trans found
      rfl
    | lineRemoved item found => simp
    | discarded cart found => simp [discardWrites]

theorem cart_kept (apart : ∀ write ∈ writes, touched db write ≠ some cartId) :
    (db.applyAll writes).get .cart cartId = db.get .cart cartId := by
  refine Database.applyAll_get db fun locked => ?_
  obtain ⟨write, member, inside⟩ := List.mem_flatMap.mp locked
  exact apart write member (touched_cart inside)

theorem linesOfCart_kept {author : Option ι} (change : CartChange world author writes)
    (apart : ∀ write ∈ writes, touched world.database write ≠ some cart.id) :
    linesOfCart (world.database.applyAll writes) cart = linesOfCart world.database cart := by
  refine Database.scan_apart (S := commerce) (m := .cartItem) _ (fun row member => ?_) fun write member k locked old found => ?_
  · have other : row.cartId ≠ cart.id := fun same => apart _ (mem_putsOf.mp member) (congrArg some same)
    simp [other]
  · have other : old.cartId ≠ cart.id := by
      intro same
      cases write with
      | put m row =>
        cases (List.mem_cons.mp locked).resolve_right (by simp)
        have moved := change.stable row (mem_putsOf.mpr member) old found
        exact apart _ member (congrArg some (moved.symm.trans same))
      | erase m key =>
        cases List.mem_singleton.mp locked
        refine apart _ member ?_
        change (world.database.get .cartItem k).map CartItem.cartId = some cart.id
        rw [found]
        exact congrArg some same
    simp [other]

theorem isConverted_iff : isConverted db cartId = true ↔ ∃ cart, db.get .cart cartId = some cart ∧ cart.status = .converted := by
  simp [isConverted, Option.any_eq_true]

theorem checksOut_iff {event : Event commerce ι} : checksOut cartId event = true ↔
    ∃ cart ∈ putsOf (S := commerce) .cart event.writes, cart.id = cartId ∧ cart.status = .converted := by
  simp [checksOut]

theorem CartChange.converts {author : Option ι} (change : CartChange world author writes) {row : Cart}
    (member : row ∈ putsOf (S := commerce) .cart writes) (converted : row.status = .converted) :
    ∃ i tenantId userId dto options placement cart, author = some i ∧ Ordered i tenantId userId dto options world placement ∧
      placement.cart = some cart ∧ row = convert.apply cart ∧ writes = placement.writes := by
  cases change with
  | ordered i called placement ordered =>
    rw [Placement.writes_cart] at member
    obtain ⟨cart, inside, rfl⟩ := List.mem_map.mp member
    exact ⟨i, _, _, _, _, placement, cart, called, ordered, Option.mem_toList.mp inside, rfl, rfl⟩
  | elsewhere other =>
    rw [putsOf_other fun write member => (other write member).1] at member
    cases member
  | edited step =>
    cases step with
    | cartOpened cart opened =>
      cases List.mem_singleton.mp member
      cases opened.opened.symm.trans converted
    | discarded cart found => simp [discardWrites] at member
    | _ => simp at member

/-- A cart is converted if it has been or a checkout converts it now. -/
theorem isConverted_step {author : Option ι} (change : CartChange world author writes) {event : Event commerce ι}
    (written : event.writes = writes) (unconverted : ∀ write ∈ writes, ∀ cartId, touched world.database write = some cartId →
      isConverted world.database cartId = false) :
    isConverted (world.database.applyAll writes) cartId = true ↔
      checksOut cartId event = true ∨ isConverted world.database cartId = true := by
  subst written
  constructor
  · intro after
    obtain ⟨cart, found, status⟩ := isConverted_iff.mp after
    rcases Database.get_found _ found with stored | there
    · exact .inl (checksOut_iff.mpr ⟨cart, stored, (Table.find_eq_some.mp found).2, status⟩)
    · exact .inr (isConverted_iff.mpr ⟨cart, there, status⟩)
  · rintro (now | before)
    · obtain ⟨row, member, rfl, status⟩ := checksOut_iff.mp now
      obtain ⟨_, _, _, _, _, placement, cart, _, _, given, rfl, written⟩ := change.converts member status
      have stored : putsOf (S := commerce) .cart placement.writes = [convert.apply cart] := by simp [given]
      rw [written]
      refine isConverted_iff.mpr ⟨convert.apply cart, ?_, rfl⟩
      exact (world.database.get_single (placement.writes_erases .cart) stored _).trans (if_pos rfl)
    · have apart : ∀ write ∈ event.writes, touched world.database write ≠ some cartId := fun write member same => by
        rw [unconverted write member cartId same] at before
        cases before
      rwa [isConverted, cart_kept apart]

theorem checksOut_touches {event : Event commerce ι} (now : checksOut cartId event = true) :
    ∃ write ∈ event.writes, touched db write = some cartId := by
  obtain ⟨row, member, rfl, _⟩ := checksOut_iff.mp now
  exact ⟨_, mem_putsOf.mp member, rfl⟩

/-- The order of a checkout has what the cart holds, if the cart holds what the call has read. -/
theorem Ordered.holds {i : ι} {tenantId userId : Id} {dto : CreateOrderDto} {options : CreateOrderOptions} {placement : Placement}
    (ordered : Ordered i tenantId userId dto options world placement) (given : placement.cart = some cart)
    (items : ItemsOrdered world.database) (current : ∀ read ∈ world.trace, read.author = some i →
      read.access = some (.cartItem, .find) → ∀ variantId, held variantId cart read.before = held variantId cart world.database)
    (variantId : Id) : orderedOf variantId (world.database.applyAll placement.writes) placement.order =
      held variantId cart (world.database.applyAll placement.writes) := by
  have still : (world.database.applyAll placement.writes).table .cartItem = world.database.table .cartItem :=
    Database.applyAll_other _ (by simp [Placement.writes, Write.model, or_imp, forall_and])
  obtain ⟨inputs, input, aggregated⟩ := ordered.input
  rw [given] at input
  cases input with
  | @cart _ lines event none member author access listed read =>
    have tenant : cart.tenantId = tenantId := ordered.cartTenant cart given
    have read : lines.Perm (linesOfCart event.before cart) := by rwa [linesOfCart, tenant]
    calc orderedOf variantId (world.database.applyAll placement.writes) placement.order
        = amountOf variantId placement.entries := orderedOf_placed ordered.toPlaced items
      _ = amountOf variantId (amounts (lines.map cartInput)) := by
        rw [← amountOf_amounts, aggregated]
        rfl
      _ = held variantId cart event.before := by
        rw [amounts, List.map_map]
        exact amountOf_perm (read.map _) _
      _ = held variantId cart world.database := current event member author access variantId
      _ = held variantId cart (world.database.applyAll placement.writes) := by rw [held, held, linesOfCart, linesOfCart, still]

/-- A converted cart has been checked out once, and its order has what it holds. -/
structure CheckedOut (state : SystemState ι) : Prop where
  once : ∀ cartId, (state.world.trace.filter (checksOut cartId)).length = if isConverted state.world.database cartId then 1 else 0
  holds : ∀ event ∈ state.world.trace, ∀ cart ∈ putsOf (S := commerce) .cart event.writes, cart.status = .converted →
    isConverted state.world.database cart.id = true ∧ ∃ order, putsOf (S := commerce) .order event.writes = [order] ∧
      (state.world.database.get .order order.id).isSome = true ∧
      ∀ variantId, orderedOf variantId state.world.database order = held variantId cart state.world.database

section Runs
variable [DecidableEq ι] {calls : ι → Call} {state next : SystemState ι}

theorem CheckedOut.step (checked : CheckedOut state) (items : ItemsOrdered state.world.database)
    (recorded : next.world = state.world.record label writes) (allowed : lawful calls label.author state.world writes)
    (orderly : Orderly state ⟨label, state.world.database, writes⟩) : CheckedOut next := by
  have change := allowed.cartChange
  have converted (cartId : Id) := @isConverted_step ι writes state.world cartId label.author change
    ⟨label, state.world.database, writes⟩ rfl orderly.unconverted
  have database : next.world.database = state.world.database.applyAll writes := by rw [recorded, World.record_database]
  have trace : next.world.trace = ⟨label, state.world.database, writes⟩ :: state.world.trace := by
    rw [recorded, World.record_trace]
  constructor
  · intro cartId
    rw [trace, database]
    cases now : checksOut cartId ⟨label, state.world.database, writes⟩ with
    | true =>
      obtain ⟨write, member, touches⟩ := @checksOut_touches ι state.world.database cartId _ now
      have before := orderly.unconverted write member cartId touches
      rw [List.filter_cons_of_pos now, List.length_cons, checked.once, before, if_pos ((converted cartId).mpr (.inl now))]
      rfl
    | false =>
      have same : isConverted (state.world.database.applyAll writes) cartId = isConverted state.world.database cartId := by
        rw [Bool.eq_iff_iff, converted, now]
        simp
      rw [List.filter_cons_of_neg (by simp [now]), checked.once, same]
  · intro event member cart stored status
    rw [trace, List.mem_cons] at member
    rw [database]
    rcases member with rfl | old
    · refine ⟨(converted cart.id).mpr (.inl (checksOut_iff.mpr ⟨cart, stored, rfl, status⟩)), ?_⟩
      obtain ⟨i, _, _, _, _, placement, before, called, ordered, given, rfl, written⟩ := change.converts stored status
      have current := orderly.current _ stored status
      subst written
      have order : (state.world.database.applyAll placement.writes).get .order placement.order.id = some placement.order :=
        (state.world.database.get_single (placement.writes_erases .order) placement.writes_order _).trans (if_pos rfl)
      have holds := ordered.holds given items fun read member author => current read member (author.trans called.symm)
      refine ⟨placement.order, placement.writes_order, by rw [order]; rfl, holds⟩
    · obtain ⟨before, order, placed, present, holds⟩ := checked.holds event old cart stored status
      have apart : ∀ write ∈ writes, touched state.world.database write ≠ some cart.id := fun write member same => by
        rw [orderly.unconverted write member cart.id same] at before
        cases before
      refine ⟨(converted cart.id).mpr (.inr before), order, placed, ?_, fun variantId => ?_⟩
      · obtain ⟨row, found⟩ := Option.isSome_iff_exists.mp present
        obtain ⟨_, now, _⟩ := keepsOrder.row (.inr allowed) found
        rw [now]
        rfl
      · have grows : Grows (lawful calls) state.world (state.world.record label writes) := .single (.event label writes (.inr allowed))
        have items : itemsOf (state.world.database.applyAll writes) order.tenantId order.id = _ :=
          Grows.items grows order.tenantId present
        rw [orderedOf, items, held, linesOfCart_kept change apart]
        exact holds variantId

omit [DecidableEq ι] in
theorem CheckedOut.still (checked : CheckedOut state) (still : Still state.world next.world) : CheckedOut next := by
  obtain ⟨news, same, unwritten⟩ := still.trace
  have idle (cartId : Id) : news.filter (checksOut cartId) = [] :=
    List.filter_eq_nil_iff.mpr fun event member => by simp [checksOut, unwritten event member]
  refine ⟨fun cartId => ?_, fun event member cart stored status => ?_⟩
  · rw [same, List.filter_append, idle, List.nil_append, still.database]
    exact checked.once cartId
  · rw [same, List.mem_append] at member
    rcases member with recent | old
    · rw [unwritten event recent] at stored
      cases stored
    · rw [still.database]
      exact checked.holds event old cart stored status

variable {sha256 : String → String} {shop : Shop}

/-- A call that is given no items checks out a cart, or places no order. -/
theorem createOrder_checksOut {event : Event commerce ι} (grows : Grows (lawful calls) (shop.start ι) world)
    (member : event ∈ world.trace) {i : ι} (author : event.author = some i) {tenantId userId : Id} {dto : CreateOrderDto}
    (call : calls i = .createOrder tenantId userId dto) (unlisted : dto.items.getD [] = []) (written : event.writes ≠ []) :
    ∃ cart ∈ putsOf (S := commerce) .cart event.writes, cart.status = .converted := by
  obtain ⟨_, origin, _, recorded⟩ := Grows.recorded grows rfl member
  have allowed := recorded.lawful.resolve_left written
  rw [author] at allowed
  simp only [lawful, call, Call.Commits] at allowed
  obtain ⟨_, placement, ordered, same⟩ := allowed
  obtain ⟨items, input, aggregated⟩ := ordered.input
  cases converts : placement.cart with
  | some cart => exact ⟨convert.apply cart, by simp [same, converts], rfl⟩
  | none =>
    rw [converts] at input
    cases input with
    | direct given =>
      rw [given, Option.getD_some] at unlisted
      subst unlisted
      exact absurd (List.map_eq_nil_iff.mp aggregated.symm) ordered.nonempty

/-- If no commit changes a cart that has been checked out, and each checkout finds in its
cart what its call has read there, then a cart is checked out once at most, by a commit
that places one order, and the order has what the cart holds from then on. -/
theorem checkout_once
    (reached : State.Reaches (fun state action => Environment state action ∧ state.Records Orderly action)
      (shop.system sha256 calls) state) :
    (∀ cartId, (state.world.trace.filter (checksOut cartId)).length =
      if isConverted state.world.database cartId then 1 else 0) ∧
    (∀ event ∈ state.world.trace, ∀ cart ∈ putsOf (S := commerce) .cart event.writes, cart.status = .converted →
      ∃ order, putsOf (S := commerce) .order event.writes = [order] ∧
        ∀ variantId, orderedOf variantId state.world.database order = held variantId cart state.world.database) ∧
    ∀ event ∈ state.world.trace, ∀ i tenantId userId dto, event.author = some i → calls i = .createOrder tenantId userId dto →
      dto.items.getD [] = [] → event.writes ≠ [] →
      ∃ cart ∈ putsOf (S := commerce) .cart event.writes, cart.status = .converted := by
  have checked : CheckedOut state := by
    refine Shop.recording CheckedOut reached ⟨fun cartId => ?_, nofun⟩ (fun state next checked _ still => checked.still still)
      fun state next label writes grown checked _ recorded _ allowed orderly =>
        checked.step (Shop.itemsOrdered grown) recorded allowed orderly
    have unconverted : isConverted shop.database cartId = false := by
      rw [isConverted, shop.get_unused rfl]
      rfl
    change ([].filter _).length = if isConverted shop.database cartId then 1 else 0
    simp [unconverted]
  have grows := (Shop.Reaches.valid (State.Reaches.weaken reached fun _ _ => And.left)).2
  refine ⟨checked.once, fun event member cart stored status => ?_, fun event member i tenantId userId dto author call =>
    createOrder_checksOut grows member author call⟩
  obtain ⟨_, order, placed, _, holds⟩ := checked.holds event member cart stored status
  exact ⟨order, placed, holds⟩

end Runs

/-- A cart with two units, and two calls that check it out. -/
def checkedOutTwice : Fin 4 → Call
  | 0 => .adjustScoped 0 .global ⟨1, 10⟩
  | 1 => .addItem 0 7 ⟨1, 2⟩
  | 2 | 3 => .createOrder 0 7 {}

/-- Both calls read the open cart before the first of them converts it. -/
theorem checkout_twice : ∃ (state : SystemState (Fin 4)) (cartId : Id),
    Shop.demo.Reaches (fun _ => "hash") checkedOutTwice state ∧
    (state.world.trace.filter (checksOut cartId)).length = 2 ∧ (state.world.database.table .order).rows.length = 2 := by
  have executed : ((Shop.demo.system (fun _ => "hash") checkedOutTwice).run
      (runs 0 4 ++ runs 1 9 ++ runs 2 2 ++ runs 3 12 ++ runs 2 10)).any (fun state =>
        (state.world.database.table .order).rows.length = 2 && (state.world.database.table .cart).rows.any fun cart : Cart =>
          (state.world.trace.filter (checksOut cart.id)).length = 2) = true := by decide +kernel
  obtain ⟨state, reached, seen⟩ := Shop.Reaches.computed executed rfl
  simp only [Bool.and_eq_true, decide_eq_true_eq, List.any_eq_true] at seen
  obtain ⟨orders, cart, _, twice⟩ := seen
  exact ⟨state, cart.id, reached, twice, orders⟩

private def unhurried (state : SystemState (Fin 4)) (event : Event commerce (Fin 4)) : Bool :=
  (event.writes.all fun write => (touched event.before write).all fun cartId => !isConverted event.before cartId) &&
    (putsOf (S := commerce) .cart event.writes).all fun cart : Cart =>
      state.world.trace.all fun read => read.author ≠ event.author || read.access ≠ some (.cartItem, .find) ||
        decide (linesOfCart read.before cart = linesOfCart event.before cart)

private theorem unhurried_sound {state : SystemState (Fin 4)} {event : Event commerce (Fin 4)}
    (checked : unhurried state event = true) : Orderly state event := by
  simp only [unhurried, Bool.and_eq_true, List.all_eq_true] at checked
  refine ⟨fun write member cartId touches => ?_, fun cart stored _ read member author access variantId => ?_⟩
  · have unconverted := checked.1 write member
    rw [touches] at unconverted
    simpa using unconverted
  · have same := checked.2 cart stored read member
    simp only [author, access, ne_eq, not_true, decide_false, Bool.false_or, decide_eq_true_eq] at same
    rw [held, held, same]

/-- One checkout that nobody disturbs orders both units. -/
theorem checkout_once_two : ∃ (state : SystemState (Fin 4)) (cart : Cart) (order : Order),
    (state.world.trace.filter (checksOut cart.id)).length = 1 ∧ held 1 cart state.world.database = 2 ∧
      orderedOf 1 state.world.database order = 2 := by
  have executed : ((Shop.demo.system (fun _ => "hash") checkedOutTwice).runWhile unhurried
      (runs 0 4 ++ runs 1 9 ++ runs 2 12)).any (fun state => state.world.trace.any fun event =>
        (putsOf (S := commerce) .cart event.writes).any fun cart : Cart => cart.status = .converted &&
          isConverted state.world.database cart.id && held 1 cart state.world.database = 2) = true := by decide +kernel
  obtain ⟨state, ran, seen⟩ := (Option.any_eq_true _ _).mp executed
  have reached : State.Reaches (fun state action => Environment state action ∧ state.Records Orderly action)
      (Shop.demo.system (fun _ => "hash") checkedOutTwice) state :=
    State.Reaches.checked (fun _ _ => unhurried_sound) ran (fun action member _ =>
      Regular.environment (List.all_eq_true.mp (by rfl) action member)) fun _ _ => And.intro
  simp only [List.any_eq_true, Bool.and_eq_true, decide_eq_true_eq] at seen
  obtain ⟨event, member, cart, stored, ⟨status, converted⟩, two⟩ := seen
  obtain ⟨once, holds, _⟩ := checkout_once reached
  obtain ⟨order, _, units⟩ := holds event member cart stored status
  refine ⟨state, cart, order, ?_, two, (units 1).trans two⟩
  rw [once, if_pos converted]

end BusinessPlatform
