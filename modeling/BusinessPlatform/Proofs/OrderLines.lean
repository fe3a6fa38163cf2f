import BusinessPlatform.Proofs.SystemSafety

/-! Every order of a reachable world was committed by one placement, and its
items are the lines of that placement for ever. -/

namespace BusinessPlatform
open Engine OrderService

variable {ι : Type} {db : Db} {writes : Writes} {stamp : Nat}

theorem Effect.placement (effect : Effect stamp db writes) :
    (∃ placement, Placed db placement ∧ writes = placement.writes) ∨
      putsOf (S := commerce) .orderItem writes = [] ∧
        ∀ row ∈ putsOf (S := commerce) .order writes, (db.get .order row.id).isSome = true := by
  cases effect with
  | external foreign =>
    have items := external_nothing (m := .orderItem) rfl foreign
    have orders := external_nothing (m := .order) rfl foreign
    exact .inr (by simp [items, orders])
  | adjusted adjusted => cases adjusted <;> exact .inr (by simp)
  | placed placed => exact .inl ⟨_, placed, rfl⟩
  | @cancelled tenantId orderId cancellation restocked =>
    refine .inr ⟨by simp, fun row member => ?_⟩
    rw [Cancellation.writes_order, List.mem_singleton] at member
    have same : cancellation.order.id = orderId := (Table.find_eq_some.mp restocked.found).2
    rw [member, show ((cancel _).apply _ : Order).id = orderId from same, restocked.found]
    rfl
  | captured captured =>
    obtain ⟨payment, order, found, processing, tenant, ordered, pending⟩ := captured
    have same : order.id = payment.orderId := (Table.find_eq_some.mp ordered).2
    refine .inr ⟨by simp, fun row member => ?_⟩
    simp only [putsOf_put_other, putsOf_put_same, putsOf_nil, List.mem_singleton, ne_eq, reduceCtorEq,
      not_false_eq_true] at member
    rw [member, show ((PaymentService.setOrder .paid).apply order).id = payment.orderId from same, ordered]
    rfl
  | markedFailed failed => cases failed; exact .inr (by simp)
  | operated kind operated => cases operated; exact .inr (by simp)
  | cart step =>
    cases step with
    | discarded cart found => exact .inr (by simp [discardWrites])
    | _ => exact .inr (by simp)
  | _ => exact .inr (by simp)

/-- The orders that an event has created. -/
def createdOrders (event : Event commerce ι) : List Order :=
  (putsOf (S := commerce) .order event.writes).filter fun order => (event.before.get .order order.id).isNone

theorem createdOrders_placed {world : SystemWorld ι} {label : Label commerce ι} {placement : Placement}
    (placed : Placed world.database placement) :
    createdOrders ⟨label, world.database, placement.writes⟩ = [placement.order] := by
  simp [createdOrders, placed.fresh]

/-- Every item belongs to an order of its tenant. -/
def ItemsOrdered (db : Db) : Prop :=
  ∀ id item, db.get .orderItem id = some item →
    ∃ order, db.get .order item.orderId = some order ∧ order.tenantId = item.tenantId

theorem ItemsOrdered.effect (ordered : ItemsOrdered db) (effect : Effect stamp db writes) :
    ItemsOrdered (db.applyAll writes) := by
  intro id item found
  rcases Database.get_found _ found with stored | there
  · rcases effect.placement with ⟨placement, placed, rfl⟩ | ⟨none, _⟩
    · rw [Placement.writes_items] at stored
      obtain ⟨line, member, rfl⟩ := List.mem_map.mp stored
      have matched := placed.lines line member
      refine ⟨placement.order, ?_, matched.tenant.symm⟩
      rw [matched.ordered]
      exact Database.get_stored (S := commerce) (m := .order) _ (by simp) (by simp) (by simp)
    · rw [none] at stored
      cases stored
  · obtain ⟨order, before, tenant⟩ := ordered id item there
    obtain ⟨kept, follows⟩ := effect.order
    rcases db.get_cases kept item.orderId with same | ⟨new, member, key, now⟩
    · exact ⟨order, same.trans before, tenant⟩
    · refine ⟨new, now, ?_⟩
      have step := follows new member order (by rw [show new.id = item.orderId from key]; exact before)
      cases step <;> exact tenant

theorem ItemsOrdered.unordered (ordered : ItemsOrdered db) {orderId : Id} (absent : db.get .order orderId = none)
    (tenantId : Id) : itemsOf db tenantId orderId = [] := by
  refine List.filter_eq_nil_iff.mpr fun item member => ?_
  obtain ⟨order, found, _⟩ := ordered item.id item (Table.find_eq_some.mpr ⟨member, rfl⟩)
  simp only [Bool.and_eq_true, decide_eq_true_eq, not_and]
  rintro rfl
  rw [absent] at found
  cases found

theorem itemsOf_placed {placement : Placement} (placed : Placed db placement)
    (unordered : itemsOf db placement.order.tenantId placement.order.id = []) :
    (itemsOf (db.applyAll placement.writes) placement.order.tenantId placement.order.id).Perm
      (placement.lines.map PlacedLine.item) := by
  rw [← Placement.writes_items]
  refine Database.scan_stored (S := commerce) (m := .orderItem) db (by simp) ?_ ?_ ?_
  · rw [Placement.writes_items, List.map_map]
    exact placed.items
  · intro item member
    rw [Placement.writes_items] at member
    obtain ⟨line, inside, rfl⟩ := List.mem_map.mp member
    simp [(placed.lines line inside).ordered, (placed.lines line inside).tenant]
  · intro item member
    simpa using List.filter_eq_nil_iff.mp unordered item member

variable [DecidableEq ι] {calls : ι → Call} {shop : Shop} {world : SystemWorld ι}

theorem Shop.itemsOrdered (grows : Grows (lawful calls) (shop.start ι) world) : ItemsOrdered world.database := by
  refine Grows.database ItemsOrdered grows (fun id item found => ?_) fun _ _ _ _ ordered allowed =>
    ordered.effect allowed.effect
  rw [shop.get_unused rfl] at found
  cases found

/-- The event by which an order was placed. -/
structure PlacedBy (calls : ι → Call) (shop : Shop) (world : SystemWorld ι) (event : Event commerce ι)
    (origin : SystemWorld ι) (placement : Placement) : Prop where
  suffix : event :: origin.trace <:+ world.trace
  recorded : Recorded (lawful calls) (shop.start ι) world event origin.trace origin
  placed : Placed origin.database placement
  written : event.writes = placement.writes

theorem Shop.placed (grows : Grows (lawful calls) (shop.start ι) world) {id : Id} {order : Order}
    (found : world.database.get .order id = some order) :
    ∃ event origin placement, PlacedBy calls shop world event origin placement ∧ placement.order.id = id := by
  obtain ⟨event, origin, suffix, recorded, absent, stored⟩ :=
    Grows.stored (m := Model.order) grows (shop.get_unused rfl id) (by simp [found])
  have lawful : BusinessPlatform.lawful calls event.author origin event.writes := recorded.lawful.resolve_left fun empty => by
    rw [empty, Database.applyAll_nil, absent] at stored
    cases stored
  obtain ⟨new, now⟩ := Option.isSome_iff_exists.mp stored
  have member := (Database.get_found _ now).resolve_right (by simp [absent])
  have key : new.id = id := (Table.find_eq_some.mp now).2
  rcases lawful.effect.placement with ⟨placement, placed, written⟩ | ⟨_, existing⟩
  · rw [written, Placement.writes_order, List.mem_singleton] at member
    exact ⟨event, origin, placement, ⟨suffix, recorded, placed, written⟩, member ▸ key⟩
  · have before := existing new member
    rw [key, absent] at before
    cases before

section PlacedBy
variable {event : Event commerce ι} {origin : SystemWorld ι} {placement : Placement}
  (history : PlacedBy calls shop world event origin placement)
include history

theorem PlacedBy.stored : (origin.record event.toLabel event.writes).database.get .order placement.order.id =
    some placement.order := by
  rw [World.record_database, history.written]
  exact Database.get_stored (S := commerce) (m := .order) _ (by simp) (by simp) (by simp)

theorem PlacedBy.order : ∃ order, world.database.get .order placement.order.id = some order ∧
    order = { placement.order with status := order.status, cancelledAt := order.cancelledAt } := by
  exact Grows.order history.recorded.after history.stored

theorem PlacedBy.items : (itemsOf world.database placement.order.tenantId placement.order.id).Perm
    (placement.lines.map PlacedLine.item) := by
  have ordered := Shop.itemsOrdered history.recorded.before
  rw [Grows.items history.recorded.after _ (Option.isSome_iff_exists.mpr ⟨_, history.stored⟩), World.record_database, history.written]
  exact itemsOf_placed history.placed (ordered.unordered history.placed.fresh _)

end PlacedBy
end BusinessPlatform
