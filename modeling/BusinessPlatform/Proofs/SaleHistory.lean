import BusinessPlatform.Proofs.OrderLines

/-! The sales of the point of sale, as the trace records them. The call that
records a sale has placed its order before, from the pools of the sale's store. -/

namespace BusinessPlatform
open Engine OrderService PaymentService PosSaleService PosSyncService

variable {ι : Type} [DecidableEq ι] {calls : ι → Call} {shop : Shop} {world : SystemWorld ι} {label : Label commerce ι}
  {writes : Writes}

section PlacedBy
variable {event other : Event commerce ι} {origin first : SystemWorld ι} {placement second : Placement}

theorem PlacedBy.grows {after : SystemWorld ι} (history : PlacedBy calls shop world event origin placement)
    (grows : Grows (lawful calls) world after) : PlacedBy calls shop after event origin placement :=
  { history with
    suffix := history.suffix.trans (Grows.trace grows)
    recorded := { history.recorded with after := history.recorded.after.trans grows } }

theorem PlacedBy.member (history : PlacedBy calls shop world event origin placement) : event ∈ world.trace :=
  history.suffix.subset (List.mem_cons_self ..)

theorem PlacedBy.created (history : PlacedBy calls shop world event origin placement) :
    createdOrders event = [placement.order] := by
  obtain ⟨label, before, writes⟩ := event
  obtain rfl : origin.database = before := history.recorded.database
  obtain rfl : writes = placement.writes := history.written
  exact createdOrders_placed history.placed

private theorem PlacedBy.once (history : PlacedBy calls shop world event origin placement)
    (again : PlacedBy calls shop world other first second) (same : placement.order.id = second.order.id)
    (earlier : event :: origin.trace <:+ first.trace) : False := by
  obtain ⟨middle, recorded⟩ := Grows.history again.recorded.before rfl earlier
  have there : PlacedBy calls shop first event middle placement :=
    { suffix := recorded.trace ▸ earlier
      recorded := recorded.trace.symm ▸ recorded
      placed := by
        rw [recorded.database, ← history.recorded.database]
        exact history.placed
      written := history.written }
  obtain ⟨order, found, _⟩ := there.order
  rw [same, again.placed.fresh] at found
  cases found

theorem PlacedBy.unique (history : PlacedBy calls shop world event origin placement)
    (again : PlacedBy calls shop world other first second) (same : placement.order.id = second.order.id) :
    event = other := by
  rcases List.suffix_or_suffix_of_suffix history.suffix again.suffix with inside | inside
  · rcases List.suffix_cons_iff.mp inside with equal | earlier
    · exact (List.cons.inj equal).1
    · exact (history.once again same earlier).elim
  · rcases List.suffix_cons_iff.mp inside with equal | earlier
    · exact (List.cons.inj equal).1.symm
    · exact (again.once history same.symm earlier).elim

theorem PlacedBy.pool (history : PlacedBy calls shop world event origin placement)
    (again : PlacedBy calls shop world other first second) (same : placement.order.id = second.order.id) :
    placement.pool = second.pool := by
  have debits := again.placed.debits_iff.mpr rfl
  refine history.placed.debits_iff.mp fun row member => debits row ?_
  rwa [← again.written, ← history.unique again same, history.written]

end PlacedBy

theorem keepsSale : Keeps (lawful calls) .posSale fun _ _ => False := by
  intro author world writes allowed
  obtain ⟨kept, fresh⟩ := allowed.effect.sale
  refine ⟨kept, fun row member old found => ?_⟩
  cases (fresh row member).symm.trans found

/-- What a call commits before the order of its sale. -/
def Call.Preceding : Call → List Writes → Prop
  | .createSale .., base => base = []
  | .syncOperation _ _ operationId _, base => ∃ claim, Claim operationId claim ∧ base = [claim]
  | _, _ => False

def Call.tenantId : Call → Id
  | .adjustScoped tenantId .. | .createOrder tenantId .. | .cancelOrder tenantId .. | .createPayment tenantId ..
  | .capturePayment tenantId .. | .failPayment tenantId .. | .createSale tenantId ..
  | .recordOfflineSaleIntent tenantId .. | .syncOperation tenantId .. | .createBooking tenantId ..
  | .updateBooking tenantId .. | .getCart tenantId .. | .addItem tenantId .. | .updateItem tenantId ..
  | .removeItem tenantId .. | .discardCart tenantId .. => tenantId

/-- The commits of a call that is about to record a sale. -/
structure Recording (calls : ι → Call) (i : ι) (world : SystemWorld ι) (sale : PosSale) (placement : Placement)
    (payment : Payment) (captures base : List Writes) : Prop where
  own : world.own i = captures ++ [.put .payment payment] :: placement.writes :: base
  preceding : (calls i).Preceding base
  once : captures.length ≤ 1
  order : sale.orderId = placement.order.id
  paid : sale.paymentId = payment.id
  store : placement.Debits (some sale.storeId)
  tenant : sale.tenantId = (calls i).tenantId

private theorem SaleStep.recording {i : ι} {tenantId userId : Id} {dto : CreatePosSaleDto} {history base : List Writes}
    {sale : PosSale} (step : SaleStep i tenantId userId dto world history writes)
    (own : world.own i = history ++ base) (preceding : (calls i).Preceding base) (tenant : (calls i).tenantId = tenantId)
    (stored : sale ∈ putsOf (S := commerce) .posSale writes) :
    ∃ placement payment captures, Recording calls i world sale placement payment captures base := by
  cases step with
  | order placement session ordered => simp at stored
  | payment placement payment created => simp at stored
  | capture placement payment captured => cases captured; simp at stored
  | sale placement payment captures new once fresh order paid store same =>
    obtain rfl : sale = new := by simpa using stored
    exact ⟨placement, payment, captures, ⟨by simpa using own, preceding, once, order, paid, store, same.trans tenant.symm⟩⟩

private theorem SyncStep.recording {i : ι} {tenantId userId operationId : Id} {credential : Option String} {sale : PosSale}
    (call : calls i = .syncOperation tenantId userId operationId credential)
    (step : SyncStep i tenantId operationId world (world.own i) writes)
    (stored : sale ∈ putsOf (S := commerce) .posSale writes) :
    ∃ placement payment captures base, Recording calls i world sale placement payment captures base := by
  generalize own : world.own i = history at step
  cases step with
  | rejected code operated | cleared operated | outOfStock claim held operated =>
    cases operated
    simp at stored
  | claimed row now found pending unclaimed tenant => simp at stored
  | accepted claim held placement payment paid captures sale once found captured order operated =>
    cases operated
    simp at stored
  | executed claim held row items filled validated earlier found tenant lines read step =>
    have preceding : (calls i).Preceding [claim] := by
      rw [call]
      exact ⟨claim, held, rfl⟩
    have same : (calls i).tenantId = tenantId := by rw [call]; rfl
    obtain ⟨placement, payment, captures, recording⟩ := step.recording own preceding same stored
    exact ⟨placement, payment, captures, [claim], recording⟩

theorem lawful.recording {sale : PosSale} (allowed : lawful calls label.author world writes)
    (stored : sale ∈ putsOf (S := commerce) .posSale writes) :
    ∃ i placement payment captures base, label.author = some i ∧
      Recording calls i world sale placement payment captures base := by
  cases author : label.author with
  | none =>
    rw [author] at allowed
    simp [(external_nothing (m := .posSale) rfl allowed).1] at stored
  | some i =>
    rw [author] at allowed
    simp only [lawful, Call.Commits] at allowed
    split at allowed
    next => obtain ⟨_, adjusted⟩ := allowed; cases adjusted <;> simp at stored
    next => obtain ⟨_, placement, ordered, rfl⟩ := allowed; simp at stored
    next => obtain ⟨_, cancellation, cancelled, rfl⟩ := allowed; simp at stored
    next => obtain ⟨_, payment, created, rfl⟩ := allowed; simp at stored
    next => obtain ⟨_, captured⟩ := allowed; cases captured; simp at stored
    next => obtain ⟨_, failed⟩ := allowed; cases failed; simp at stored
    next call =>
      have preceding : (calls i).Preceding [] := by rw [call]; rfl
      have same : (calls i).tenantId = _ := congrArg Call.tenantId call
      obtain ⟨placement, payment, captures, recording⟩ :=
        allowed.recording (List.append_nil _).symm preceding same stored
      exact ⟨i, placement, payment, captures, [], rfl, recording⟩
    next => obtain ⟨_, operation, items, recorded, rfl⟩ := allowed; simp at stored
    next call =>
      obtain ⟨placement, payment, captures, base, recording⟩ := SyncStep.recording call allowed stored
      exact ⟨i, placement, payment, captures, base, rfl, recording⟩
    next => obtain ⟨_, booking, created, rfl⟩ := allowed; simp at stored
    next => obtain ⟨_, booking, patched, rfl⟩ := allowed; simp at stored
    all_goals
      cases allowed with
      | discarded cart found => simp [discardWrites] at stored
      | _ => simp at stored

/-- The first commit of a sale is the placement of its order, which links no
booking. -/
theorem lawful.saleOrdered {i : ι} (allowed : lawful calls (some i) world writes)
    (preceding : (calls i).Preceding (world.own i)) {placement : Placement} (written : writes = placement.writes) :
    ∃ original storeId, Placed world.database original ∧ writes = original.writes ∧
      original.order.tenantId = (calls i).tenantId ∧ original.pool = some storeId ∧ original.booking = none := by
  have order : placement.order ∈ putsOf (S := commerce) .order writes := by simp [written]
  simp only [lawful, Call.Commits] at allowed
  cases call : calls i with
  | createSale tenantId userId dto options =>
    rw [call] at allowed preceding
    have own : world.own i = [] := preceding
    generalize world.own i = history at allowed own
    cases allowed with
    | order placement session ordered =>
      exact ⟨placement, session.storeId, ordered.toPlaced, rfl, ordered.tenant, ordered.pool,
        Option.map_eq_none_iff.mp ordered.linked⟩
    | payment | capture => cases own
    | sale => simp at own
  | syncOperation tenantId userId operationId credential =>
    rw [call] at allowed preceding
    obtain ⟨claim, held, own⟩ := preceding
    generalize world.own i = history at allowed own
    cases allowed with
    | rejected code operated | cleared operated | outOfStock claim held operated =>
      cases operated
      simp at order
    | claimed row now found pending unclaimed tenant => simp at order
    | accepted claim held placement payment paid captures sale once found captured order' operated =>
      cases operated
      simp at order
    | executed claim held row items filled validated earlier found tenant lines read step =>
      have empty : earlier = [] := by
        cases earlier with
        | nil => rfl
        | cons first rest => simp at own
      cases step with
      | order placement session ordered =>
      exact ⟨placement, session.storeId, ordered.toPlaced, rfl, ordered.tenant, ordered.pool,
        Option.map_eq_none_iff.mp ordered.linked⟩
      | payment | capture => cases empty
      | sale => simp at empty
  | _ =>
    rw [call] at preceding
    cases preceding

/-- A recorded sale belongs to an order of its tenant that was placed from the
pools of its store. -/
theorem Shop.sale_placed (grows : Grows (lawful calls) (shop.start ι) world) {id : Id} {sale : PosSale}
    (found : world.database.get .posSale id = some sale) :
    ∃ event origin placement, PlacedBy calls shop world event origin placement ∧ placement.order.id = sale.orderId ∧
      placement.order.tenantId = sale.tenantId ∧ placement.pool = some sale.storeId := by
  obtain ⟨event, origin, suffix, recorded, absent, present⟩ :=
    Grows.stored (m := Model.posSale) grows (shop.get_unused rfl id) (by simp [found])
  have lawful : BusinessPlatform.lawful calls event.author origin event.writes := recorded.lawful.resolve_left fun empty => by
    rw [empty, Database.applyAll_nil, absent] at present
    cases present
  obtain ⟨new, now⟩ := Option.isSome_iff_exists.mp present
  obtain rfl : new = sale := Option.some.inj ((Grows.final keepsSale recorded.after now fun _ => not_false).symm.trans found)
  have stored := (Database.get_found _ now).resolve_right (by simp [absent])
  obtain ⟨i, placement, payment, captures, base, author, recording⟩ := lawful.recording stored
  have own : origin.own i = (captures ++ [[.put .payment payment]]) ++ placement.writes :: base := by
    rw [recording.own, List.append_assoc]
    rfl
  obtain ⟨placing, rest, before, inside, placed, by_i, written, earlier⟩ := Grows.own_recorded recorded.before rfl own
  have allowed : BusinessPlatform.lawful calls (some i) before placing.writes :=
    (by_i ▸ placed.lawful).resolve_left fun empty => by
      have order : placement.order ∈ putsOf (S := commerce) .order placing.writes := by simp [written]
      simp [empty] at order
  obtain ⟨original, _, ordered, same, tenant, _⟩ := allowed.saleOrdered (earlier ▸ recording.preceding) written
  have history : PlacedBy calls shop origin placing before original :=
    ⟨placed.trace.symm ▸ inside, placed.trace.symm ▸ placed, ordered, same⟩
  have orders := congrArg (putsOf (S := commerce) .order) (written.symm.trans same)
  simp only [Placement.writes_order, List.cons.injEq, and_true] at orders
  refine ⟨placing, before, original, history.grows recorded.grows, ?_, ?_, ?_⟩
  · rw [recording.order, orders]
  · rw [tenant, recording.tenant]
  · refine ordered.debits_iff.mp fun row member => recording.store row ?_
    rwa [← written, same]

end BusinessPlatform
