import BusinessPlatform.Proofs.SaleAtomicity

/-! The order that a booking is sold by. It is set once, by the transaction that
places the order. -/

namespace BusinessPlatform
open Engine OrderService

variable {ι : Type} {db : Db} {writes : Writes} {stamp bookingId orderId : Id}

def IsLinked (db : Db) (bookingId orderId : Id) : Prop :=
  ∃ booking, db.get .booking bookingId = some booking ∧ booking.orderId = some orderId

structure BookingsOrdered (db : Db) : Prop where
  ordered : ∀ bookingId orderId, IsLinked db bookingId orderId → (db.get .order orderId).isSome = true
  once : ∀ first second orderId, IsLinked db first orderId → IsLinked db second orderId → first = second

theorem Effect.links (effect : Effect stamp db writes) :
    (∃ placement, Placed db placement ∧ writes = placement.writes) ∨
      ∀ row ∈ putsOf (S := commerce) .booking writes, ∀ orderId, row.orderId = some orderId → IsLinked db row.id orderId := by
  cases effect with
  | external foreign => exact .inr (by simp [external_nothing (m := .booking) rfl foreign])
  | adjusted adjusted => cases adjusted <;> exact .inr (by simp)
  | placed placed => exact .inl ⟨_, placed, rfl⟩
  | captured captured => cases captured; exact .inr (by simp)
  | markedFailed failed => cases failed; exact .inr (by simp)
  | operated kind operated => cases operated; exact .inr (by simp)
  | bookingCreated created => exact .inr (by simp [created.unlinked])
  | @bookingPatched tenantId bookingId dto booking patched =>
    refine .inr fun row member orderId linked => ?_
    simp only [putsOf_put_same, putsOf_nil, List.mem_singleton] at member
    subst member
    have same : booking.id = bookingId := (Table.find_eq_some.mp patched.found).2
    exact ⟨booking, same ▸ patched.found, linked⟩
  | cart step =>
    cases step with
    | discarded cart found => exact .inr (by simp [discardWrites])
    | _ => exact .inr (by simp)
  | _ => exact .inr (by simp)

private theorem Placed.linked {placement : Placement} (linked : IsLinked (db.applyAll placement.writes) bookingId orderId) :
    IsLinked db bookingId orderId ∨
      placement.booking.map Booking.id = some bookingId ∧ placement.order.id = orderId := by
  obtain ⟨row, found, ordered⟩ := linked
  rcases Database.get_found _ found with stored | there
  · have key : row.id = bookingId := (Table.find_eq_some.mp found).2
    rw [Placement.writes_booking] at stored
    obtain ⟨booking, taken, rfl⟩ := List.mem_map.mp stored
    refine .inr ⟨?_, Option.some.inj ordered⟩
    rw [show placement.booking = some booking by simpa using taken, ← key]
    rfl
  · exact .inl ⟨row, there, ordered⟩

private theorem links_before (kept : ∀ row ∈ putsOf (S := commerce) .booking writes, ∀ orderId,
    row.orderId = some orderId → IsLinked db row.id orderId) (linked : IsLinked (db.applyAll writes) bookingId orderId) :
    IsLinked db bookingId orderId := by
  obtain ⟨row, found, ordered⟩ := linked
  rcases Database.get_found _ found with stored | there
  · have key : row.id = bookingId := (Table.find_eq_some.mp found).2
    exact key ▸ kept row stored orderId ordered
  · exact ⟨row, there, ordered⟩

theorem BookingsOrdered.effect (bookings : BookingsOrdered db) (effect : Effect stamp db writes) :
    BookingsOrdered (db.applyAll writes) := by
  have persists (id : Id) (existing : (db.get .order id).isSome = true) :
      ((db.applyAll writes).get .order id).isSome = true := by
    rcases db.get_cases (m := Model.order) effect.order.1 id with same | ⟨row, _, _, now⟩
    · rwa [same]
    · rw [now]
      rfl
  rcases effect.links with ⟨placement, placed, rfl⟩ | kept
  · have unordered (id : Id) (linked : IsLinked db id placement.order.id) : False := by
      have existing := bookings.ordered id _ linked
      rw [placed.fresh] at existing
      cases existing
    constructor
    · intro id orderId linked
      rcases Placed.linked linked with before | ⟨_, rfl⟩
      · exact persists orderId (bookings.ordered id orderId before)
      · exact Option.isSome_iff_exists.mpr ⟨placement.order,
          Database.get_stored (S := commerce) (m := .order) db (by simp) (by simp) (by simp)⟩
    · intro first second orderId one two
      rcases Placed.linked one with earlier | ⟨mine, rfl⟩
      · rcases Placed.linked two with before | ⟨_, rfl⟩
        · exact bookings.once first second orderId earlier before
        · exact (unordered first earlier).elim
      · rcases Placed.linked two with before | ⟨other, _⟩
        · exact (unordered second before).elim
        · exact Option.some.inj (mine.symm.trans other)
  · exact ⟨fun id orderId linked => persists orderId (bookings.ordered id orderId (links_before kept linked)),
      fun first second orderId one two => bookings.once first second orderId (links_before kept one) (links_before kept two)⟩

variable [DecidableEq ι] {calls : ι → Call} {shop : Shop} {world before after : SystemWorld ι}

theorem Shop.bookingsOrdered (grows : Grows (lawful calls) (shop.start ι) world) : BookingsOrdered world.database := by
  have unlinked (bookingId orderId : Id) : ¬ IsLinked shop.database bookingId orderId := by
    rintro ⟨booking, found, _⟩
    rw [shop.get_unused rfl] at found
    cases found
  refine Grows.database BookingsOrdered grows ⟨fun bookingId orderId linked => ?_, fun first second orderId linked => ?_⟩
    fun _ _ _ _ bookings allowed => bookings.effect allowed.effect
  · exact (unlinked bookingId orderId linked).elim
  · exact (unlinked first orderId linked).elim

theorem IsLinked.grows (linked : IsLinked before.database bookingId orderId)
    (grows : Grows (lawful calls) before after) : IsLinked after.database bookingId orderId := by
  obtain ⟨booking, found, ordered⟩ := linked
  obtain ⟨new, now, path⟩ := Grows.row keepsBooking grows found
  refine ⟨new, now, ?_⟩
  clear now
  induction path with
  | refl => exact ordered
  | tail earlier step ih =>
    cases step with
    | patched dto => exact ih
    | linked other unlinked =>
      rw [unlinked] at ih
      cases ih

theorem Grows.linked (grows : Grows (lawful calls) (shop.start ι) world) {event : Event commerce ι}
    (member : event ∈ world.trace) (linked : IsLinked (event.before.applyAll event.writes) bookingId orderId) :
    IsLinked world.database bookingId orderId := by
  obtain ⟨_, origin, _, recorded⟩ := Grows.recorded grows rfl member
  rw [← recorded.database] at linked
  exact IsLinked.grows linked recorded.after

section Order
variable {i : ι} {tenantId userId : Id} {dto : CreateOrderDto} {event : Event commerce ι}

theorem Grows.orderedBy (grows : Grows (lawful calls) (shop.start ι) world)
    (call : calls i = .createOrder tenantId userId dto) (member : event ∈ world.trace)
    (author : event.author = some i) (written : event.writes ≠ []) : ∃ origin placement,
      PlacedBy calls shop world event origin placement ∧
        Ordered i tenantId userId dto (publicOptions dto) origin placement := by
  obtain ⟨earlier, origin, suffix, recorded⟩ := Grows.recorded grows rfl member
  have allowed := recorded.lawful.resolve_left written
  simp only [author, lawful, call, Call.Commits] at allowed
  obtain ⟨_, placement, ordered, same⟩ := allowed
  exact ⟨origin, placement, ⟨recorded.trace.symm ▸ suffix, recorded.trace.symm ▸ recorded, ordered.toPlaced, same⟩, ordered⟩

theorem PlacedBy.booked {origin : SystemWorld ι} {placement : Placement}
    (history : PlacedBy calls shop world event origin placement)
    (ordered : Ordered i tenantId userId dto (publicOptions dto) origin placement)
    (named : dto.bookingId = some bookingId) : ∃ booking, placement.booking = some booking ∧ booking.id = bookingId ∧
      IsLinked (event.before.applyAll event.writes) bookingId placement.order.id := by
  obtain ⟨booking, taken, same⟩ := Option.map_eq_some_iff.mp (ordered.linked.trans named)
  refine ⟨booking, taken, same, (linkOrder placement.order.id).apply booking, ?_, rfl⟩
  rw [history.written, ← same]
  have stored : (linkOrder placement.order.id).apply booking ∈ putsOf (S := commerce) .booking placement.writes := by
    simp [taken]
  exact Database.get_stored (S := commerce) (m := .booking) _ (by simp) (by simp [taken]) stored

end Order

/-- The call has committed nothing and has not succeeded. -/
structure Loses (i : ι) (state : SystemState ι) : Prop where
  unchanged : ∀ event ∈ state.world.trace, event.author = some i → event.writes = []
  failed : ∀ response, (state.threads i).program ≠ .done (.ok response)

variable {sha256 : String → String} {state later : SystemState ι}

section Call
variable {i : ι} {tenantId userId : Id} {dto : CreateOrderDto} (reached : shop.Reaches sha256 calls state)
  (call : calls i = .createOrder tenantId userId dto)
include reached call

private theorem order_unsuccessful (unchanged : ∀ event ∈ state.world.trace, event.author = some i → event.writes = []) :
    Loses i state := by
  refine ⟨unchanged, fun response done => ?_⟩
  have post := reached.valid.1.ended done
  rw [call] at post
  obtain ⟨failure | summary, outcome, same⟩ := post
  · cases same
  · obtain ⟨placement, own, _⟩ := outcome.2
    replace own : state.world.own i = [] ++ placement.writes :: [] := own
    obtain ⟨event, _, suffix, author, written, _⟩ := World.own_event own
    have empty := unchanged event (suffix.subset (List.mem_cons_self ..)) author
    rw [written] at empty
    simp [Placement.writes] at empty

private theorem order_failed (failed : state.failed i) :
    ∀ event ∈ state.world.trace, event.author = some i → event.writes = [] := by
  obtain ⟨failure, done⟩ := failed
  have post := reached.valid.1.ended done
  rw [call] at post
  obtain ⟨other | summary, outcome, same⟩ := post
  · intro event member author
    by_contra written
    have committed := World.mem_own member author written
    rw [outcome.2.2] at committed
    cases committed
  · cases same

/-- A call for a booking that is linked to the order of another call loses. -/
private theorem loses (named : dto.bookingId = some bookingId)
    (linked : IsLinked state.world.database bookingId orderId) (other : orderId ∉ ordersBy i state.world) :
    Loses i state := by
  obtain ⟨_, grows⟩ := reached.valid
  refine order_unsuccessful reached call fun event member author => ?_
  by_contra written
  obtain ⟨origin, placement, history, ordered⟩ := Grows.orderedBy grows call member author written
  obtain ⟨booking, _, _, mine⟩ := history.booked ordered named
  obtain ⟨row, found, order⟩ := linked
  obtain ⟨same, there, placed⟩ := Grows.linked grows member mine
  cases found.symm.trans there
  cases order.symm.trans placed
  exact other (mem_ordersBy member author (by simp [history.created]))

end Call

/-- A booking's order never changes once it is set, orders and bookings
correspond one to one, and a call that loses the race for a booking has changed
nothing. -/
theorem booking_linked_once (reached : shop.Reaches sha256 calls state)
    (continued : State.Reaches Environment state later) :
    (∀ bookingId orderId, IsLinked state.world.database bookingId orderId →
      IsLinked later.world.database bookingId orderId) ∧
    (∀ first second orderId, IsLinked later.world.database first orderId →
      IsLinked later.world.database second orderId → first = second) ∧
    (∀ event ∈ later.world.trace, ∀ other ∈ later.world.trace, ∀ bookingId first second,
      IsLinked (event.before.applyAll event.writes) bookingId first →
      IsLinked (other.before.applyAll other.writes) bookingId second → first = second) ∧
    ∀ i tenantId userId dto bookingId orderId, calls i = .createOrder tenantId userId dto →
      dto.bookingId = some bookingId → IsLinked later.world.database bookingId orderId →
      orderId ∉ ordersBy i later.world → Loses i later := by
  have ends : shop.Reaches sha256 calls later := State.Reaches.trans reached continued
  obtain ⟨_, grows⟩ := ends.valid
  refine ⟨fun bookingId orderId linked => ?_, (Shop.bookingsOrdered grows).once, ?_, ?_⟩
  · obtain ⟨_, grown⟩ := State.Reaches.valid continued reached.valid.1 fun _ _ => Environment.lawful
    exact linked.grows grown
  · intro event member other inside bookingId first second one two
    obtain ⟨row, found, one⟩ := Grows.linked grows member one
    obtain ⟨same, there, two⟩ := Grows.linked grows inside two
    cases found.symm.trans there
    exact Option.some.inj (one.symm.trans two)
  · exact fun i tenantId userId dto bookingId orderId call named linked other => loses ends call named linked other

/-- Stock, a booking, some other call and an order for the booking. -/
def bookingDesk (scope : InventoryService.InventoryScope) (other : Call) : Fin 4 → Call
  | 0 => .adjustScoped 0 scope ⟨1, 10⟩
  | 1 => .createBooking 0 { serviceId := 10, startAt := some 0, endAt := some 60 }
  | 2 => other
  | 3 => .createOrder 0 7 { items := some [⟨1, 3⟩], bookingId := some 5 }

def orderLink (db : Db) (bookingId : Id) : Option Id := (db.get .booking bookingId).bind Booking.orderId

omit [DecidableEq ι] in
theorem orderLink_iff : orderLink db bookingId = some orderId ↔ IsLinked db bookingId orderId := by
  rw [orderLink, Option.bind_eq_some_iff]
  rfl

def bookingRace : Fin 4 → Call :=
  bookingDesk .global (.createOrder 0 7 { items := some [⟨1, 2⟩], bookingId := some 5 })

/-- The second order has begun when the first one takes the booking. -/
theorem booking_linked_once_raced : ∃ state, Shop.demo.Reaches (fun _ => "hash") bookingRace state ∧
    IsLinked state.world.database 5 15 ∧ state.failed 3 ∧ Loses 3 state := by
  have executed : ((Shop.demo.system (fun _ => "hash") bookingRace).run
    (runs 0 4 ++ runs 1 2 ++ runs 3 4 ++ runs 2 10 ++ runs 3 4)).any (fun state =>
      orderLink state.world.database 5 = some 15 && 15 ∉ ordersBy 3 state.world && state.failed 3) = true := by
    decide +kernel
  obtain ⟨state, reached, seen⟩ := Shop.Reaches.computed executed rfl
  simp only [Bool.and_eq_true, decide_eq_true_eq, orderLink_iff] at seen
  obtain ⟨_, _, _, loser⟩ := booking_linked_once reached .here
  exact ⟨state, reached, seen.1.1, seen.2, loser 3 0 7 _ 5 15 rfl rfl seen.1.1 seen.1.2⟩

/-- The tenant and the booking that a call is to link. -/
def Call.booking : Call → Option (Id × Id)
  | .createOrder tenantId _ dto => dto.bookingId.map (tenantId, ·)
  | _ => none

/-- A statement that is to link a booking finds no booking without an order that
is not live. -/
def LinksLive (calls : ι → Call) (event : Event commerce ι) : Prop :=
  event.access = some (.booking, .updateMany) → ∀ i ∈ event.author, ∀ named ∈ (calls i).booking,
    ∀ booking ∈ event.before.get .booking named.2, booking.tenantId = named.1 → booking.orderId = none →
      booking.status.holding = true

/-- An order is sold only for a live booking, and is refused otherwise. -/
structure SoldLive (i : ι) (tenantId bookingId : Id) (state : SystemState ι) : Prop where
  sold : ∀ response, (state.threads i).program = .done (.ok response) → ∃ event ∈ state.world.trace,
    event.author = some i ∧ ∃ booking order, event.before.get .booking bookingId = some booking ∧
      booking.tenantId = tenantId ∧ booking.orderId = none ∧ booking.status.holding = true ∧
      createdOrders event = [order] ∧ IsLinked (event.before.applyAll event.writes) bookingId order.id
  refused : (∀ event ∈ state.world.trace, event.author = some i → ∀ booking,
    event.before.get .booking bookingId = some booking → booking.status.holding = false) → Loses i state
  unchanged : state.failed i → ∀ event ∈ state.world.trace, event.author = some i → event.writes = []

instance (calls : ι → Call) (event : Event commerce ι) : Decidable (LinksLive calls event) :=
  inferInstanceAs (Decidable (_ → _))

private theorem sold_live {i : ι} {tenantId userId : Id} {dto : CreateOrderDto} {event : Event commerce ι}
    (live : ∀ event ∈ world.trace, LinksLive calls event) (grows : Grows (lawful calls) (shop.start ι) world)
    (call : calls i = .createOrder tenantId userId dto) (named : dto.bookingId = some bookingId)
    (member : event ∈ world.trace) (author : event.author = some i) (written : event.writes ≠ []) :
    ∃ booking order, event.before.get .booking bookingId = some booking ∧
      booking.tenantId = tenantId ∧ booking.orderId = none ∧ booking.status.holding = true ∧
      createdOrders event = [order] ∧ IsLinked (event.before.applyAll event.writes) bookingId order.id := by
  obtain ⟨origin, placement, history, ordered⟩ := Grows.orderedBy grows call member author written
  obtain ⟨booking, taken, rfl, linked⟩ := history.booked ordered named
  obtain ⟨found, unlinked⟩ := ordered.booking booking taken
  rw [history.recorded.database] at found
  obtain ⟨earlier, inside, mine, access, row⟩ := ordered.linkFound booking taken
  have past : earlier ∈ world.trace := history.suffix.subset (List.mem_cons_of_mem _ inside)
  have same := ordered.bookingTenant booking taken
  have names : (calls i).booking = some (tenantId, booking.id) := by
    rw [call, Call.booking, named]
    rfl
  exact ⟨booking, placement.order, found, same, unlinked,
    live earlier past access i mine (tenantId, booking.id) names booking row same unlinked, history.created, linked⟩

/-- If the statements that link bookings find them live, only live bookings are
sold. -/
theorem booking_sold_live (reached : State.Reaches
      (fun state action => Environment state action ∧ state.Records (fun _ => LinksLive calls) action)
      (shop.system sha256 calls) state) {i : ι} {tenantId userId : Id} {dto : CreateOrderDto}
    (call : calls i = .createOrder tenantId userId dto) (named : dto.bookingId = some bookingId) :
    SoldLive i tenantId bookingId state := by
  have live := Shop.recorded reached
  replace reached : shop.Reaches sha256 calls state := reached.weaken fun _ _ => And.left
  have grows := reached.valid.2
  refine ⟨fun response done => ?_, fun dead => ?_, order_failed reached call⟩
  · by_contra unsold
    refine (order_unsuccessful reached call fun event member author => ?_).failed response done
    by_contra written
    obtain ⟨booking, order, found, tenant, unlinked, holding, created, linked⟩ :=
      sold_live live grows call named member author written
    exact unsold ⟨event, member, author, booking, order, found, tenant, unlinked, holding, created, linked⟩
  · refine order_unsuccessful reached call fun event member author => ?_
    by_contra written
    obtain ⟨booking, _, found, _, _, holding, _⟩ := sold_live live grows call named member author written
    rw [dead event member author booking found] at holding
    cases holding

/-- A booked service is sold. -/
theorem booking_sold_live_booked : ∃ state : SystemState (Fin 4), (state.finished 3 ∧ ¬ state.failed 3) ∧
    SoldLive 3 0 5 state := by
  have executed : ((Shop.demo.system (fun _ => "hash") bookingRace).runWhile (fun _ event => LinksLive bookingRace event)
    (runs 0 4 ++ runs 1 2 ++ runs 3 10)).any (fun state => state.finished 3 && !state.failed 3) = true := by
    decide +kernel
  obtain ⟨state, reached, seen⟩ := Shop.Reaches.checked executed rfl
  simp only [Bool.and_eq_true, Bool.not_eq_true', decide_eq_true_eq, decide_eq_false_iff_not] at seen
  exact ⟨state, seen, booking_sold_live reached rfl rfl⟩

def cancelledBooking : Fin 4 → Call :=
  bookingDesk .global (.updateBooking 0 5 { status := some (some .cancelled) })

/-- An order takes a booking that has been cancelled. -/
theorem cancelled_booking_sold : ∃ state, Shop.demo.Reaches (fun _ => "hash") cancelledBooking state ∧
    ¬ SoldLive 3 0 5 state := by
  have executed : ((Shop.demo.system (fun _ => "hash") cancelledBooking).run
    (runs 0 4 ++ runs 1 2 ++ runs 2 2 ++ runs 3 10)).any (fun state => (state.finished 3 && !state.failed 3) &&
      state.world.trace.all fun event => event.author = some 3 →
        (event.before.get .booking 5).all fun booking => booking.status = .cancelled) = true := by
    decide +kernel
  obtain ⟨state, reached, seen⟩ := Shop.Reaches.computed executed rfl
  simp only [Bool.and_eq_true, Bool.not_eq_true', decide_eq_true_eq, decide_eq_false_iff_not, List.all_eq_true] at seen
  obtain ⟨⟨⟨result, done⟩, succeeded⟩, cancelled⟩ := seen
  refine ⟨state, reached, fun live => ?_⟩
  cases result with
  | error failure => exact succeeded ⟨failure, done⟩
  | ok response =>
    obtain ⟨event, member, author, booking, order, found, _, _, holding, _⟩ := live.sold response done
    have status := cancelled event member author
    rw [found] at status
    rw [of_decide_eq_true status] at holding
    cases holding

/-- The order was placed with the booking. -/
def LinkedBy (calls : ι → Call) (shop : Shop) (bookingId orderId : Id) (world : SystemWorld ι) : Prop :=
  ∃ event origin placement, PlacedBy calls shop world event origin placement ∧ placement.order.id = orderId ∧
    placement.booking.map Booking.id = some bookingId

private theorem LinkedBy.grows (linked : LinkedBy calls shop bookingId orderId before)
    (grows : Grows (lawful calls) before after) : LinkedBy calls shop bookingId orderId after := by
  obtain ⟨event, origin, placement, history, facts⟩ := linked
  exact ⟨event, origin, placement, history.grows grows, facts⟩

theorem Shop.linkedBy (grows : Grows (lawful calls) (shop.start ι) world)
    (linked : IsLinked world.database bookingId orderId) : LinkedBy calls shop bookingId orderId world := by
  have unlinked : ¬ IsLinked shop.database bookingId orderId := by
    rintro ⟨booking, found, _⟩
    rw [shop.get_unused rfl] at found
    cases found
  refine Grows.invariant (fun world => IsLinked world.database bookingId orderId →
    LinkedBy calls shop bookingId orderId world) grows (fun linked => absurd linked unlinked) ?_ ?_ ?_ linked
  · intro world label writes grown holding allowed linked
    have step : Evolves (lawful calls) world (world.record label writes) := .event label writes (.inr allowed)
    rcases allowed.effect.links with ⟨placement, placed, rfl⟩ | kept
    · rcases Placed.linked linked with before | ⟨booking, order⟩
      · exact (holding before).grows (.single step)
      · exact ⟨⟨label, world.database, placement.writes⟩, world, placement,
          ⟨List.suffix_refl _, ⟨grown, rfl, rfl, .inr allowed, .refl⟩, placed, rfl⟩, order, booking⟩
    · exact (holding (links_before kept linked)).grows (.single step)
  · exact fun world label holding linked => (holding linked).grows (.single (.empty label))
  · exact fun world elapsed holding linked => (holding linked).grows (.single (.wait elapsed))

/-- A sale for a booking settles it, and is refused if that is not possible. -/
structure SettlesBooking (i : ι) (tenantId : Id) (dto : PosSaleService.CreatePosSaleDto) (state : SystemState ι) :
    Prop where
  settled : ∀ summary, (state.threads i).program = .done (.ok (.sale summary)) → ∀ bookingId,
    dto.bookingId = some bookingId → IsLinked state.world.database bookingId summary.orderId
  refused : ∀ bookingId, dto.bookingId = some bookingId →
    (∀ event ∈ state.world.trace, event.author = some i → ∀ booking,
      event.before.get .booking bookingId = some booking → booking.tenantId ≠ tenantId ∨ booking.orderId ≠ none) →
    Loses i state

private theorem sale_unlinked {i : ι} {tenantId userId : Id} {dto : PosSaleService.CreatePosSaleDto}
    {options : PosSaleService.CreateSaleOptions} {summary : PosSaleService.PosSaleSummary}
    (reached : shop.Reaches sha256 calls state) (call : calls i = .createSale tenantId userId dto options)
    (ended : (state.threads i).program = .done (.ok (.sale summary))) (bookingId : Id) :
    ¬ IsLinked state.world.database bookingId summary.orderId := by
  intro linked
  obtain ⟨valid, grows⟩ := reached.valid
  obtain ⟨event, origin, placement, history, order, booked⟩ := Shop.linkedBy grows linked
  have post := valid.ended ended
  rw [call] at post
  obtain ⟨failure | given, outcome, same⟩ := post
  · cases same
  · cases same
    obtain ⟨steps, own, first, payment, captures, sale, rfl, _, sold, _⟩ := outcome.2
    replace own : state.world.own i = ([.put .posSale sale] :: captures ++ [[.put .payment payment]]) ++ first.writes :: [] := by
      rw [own]
      simp
    obtain ⟨placing, rest, earlier, suffix, recorded, author, written, none⟩ := Grows.own_recorded grows rfl own
    have allowed : lawful calls (some i) earlier placing.writes :=
      (author ▸ recorded.lawful).resolve_left fun empty => by
        have order : first.order ∈ putsOf (S := commerce) .order placing.writes := by simp [written]
        simp [empty] at order
    have preceding : (calls i).Preceding (earlier.own i) := by
      rw [call]
      exact none
    obtain ⟨original, _, placed, again, _, _, unbooked⟩ := allowed.saleOrdered preceding written
    have ordered : PlacedBy calls shop state.world placing earlier original :=
      ⟨recorded.trace.symm ▸ suffix, recorded.trace.symm ▸ recorded, placed, again⟩
    have orders := congrArg (putsOf (S := commerce) .order) (written.symm.trans again)
    simp only [Placement.writes_order, List.cons.injEq, and_true] at orders
    have unique : event = placing := history.unique ordered (by rw [order, sold, orders])
    have bookings := congrArg (putsOf (S := commerce) .booking) (history.written.symm.trans (unique ▸ again))
    obtain ⟨booking, taken, _⟩ := Option.map_eq_some_iff.mp booked
    simp [unbooked, taken] at bookings

/-- A successful sale settles the booking of its request exactly if there is
none. -/
theorem sale_settles_booking_iff (reached : shop.Reaches sha256 calls state) {i : ι} {tenantId userId : Id}
    {dto : PosSaleService.CreatePosSaleDto} {options : PosSaleService.CreateSaleOptions}
    {summary : PosSaleService.PosSaleSummary} (call : calls i = .createSale tenantId userId dto options)
    (ended : (state.threads i).program = .done (.ok (.sale summary))) :
    SettlesBooking i tenantId dto state ↔ dto.bookingId = none := by
  constructor
  · intro settles
    cases named : dto.bookingId with
    | none => rfl
    | some bookingId => exact (sale_unlinked reached call ended bookingId (settles.settled summary ended bookingId named)).elim
  · exact fun none => ⟨fun _ _ bookingId named => by simp [none] at named, fun bookingId named => by simp [none] at named⟩

def bookedSale : Fin 4 → Call :=
  bookingDesk (.store 4) (.createSale 0 7 { sessionId := 6, items := [⟨1, 2⟩], bookingId := some 6 } {})

private theorem bookedSale_ends : ∃ state summary, Shop.demo.Reaches (fun _ => "hash") bookedSale state ∧
    (state.threads 2).program = .done (.ok (.sale summary)) := by
  have executed : ((Shop.demo.system (fun _ => "hash") bookedSale).run (runs 0 5 ++ runs 1 2 ++ runs 2 25)).any
      (fun state => state.finished 2 && !state.failed 2) = true := by decide +kernel
  obtain ⟨state, reached, seen⟩ := Shop.Reaches.computed executed rfl
  simp only [Bool.and_eq_true, Bool.not_eq_true', decide_eq_true_eq, decide_eq_false_iff_not] at seen
  obtain ⟨⟨result, done⟩, succeeded⟩ := seen
  cases result with
  | error failure => exact absurd ⟨failure, done⟩ succeeded
  | ok response =>
    have post := reached.valid.1.ended done
    obtain ⟨failure | summary, _, same⟩ := post
    · cases same
    · cases same
      exact ⟨state, summary, reached, done⟩

theorem sale_settles_booking_iff_booked : ∃ state, Shop.demo.Reaches (fun _ => "hash") bookedSale state ∧
    (SettlesBooking 2 0 { sessionId := 6, items := [⟨1, 2⟩], bookingId := some 6 } state ↔ some 6 = (none : Option Id)) := by
  obtain ⟨state, summary, reached, ended⟩ := bookedSale_ends
  exact ⟨state, reached, sale_settles_booking_iff reached rfl ended⟩

/-- A sale for a new booking leaves it without an order. -/
theorem booked_sale_unsettled : ∃ state, Shop.demo.Reaches (fun _ => "hash") bookedSale state ∧
    ¬ SettlesBooking 2 0 { sessionId := 6, items := [⟨1, 2⟩], bookingId := some 6 } state := by
  obtain ⟨state, summary, reached, ended⟩ := bookedSale_ends
  exact ⟨state, reached, fun settles => sale_unlinked reached rfl ended 6 (settles.settled summary ended 6 rfl)⟩

end BusinessPlatform
