import BusinessPlatform.Proofs.BookingLink
import BusinessPlatform.Proofs.OfflineInbox
import BusinessPlatform.Proofs.TenantConfinement

/-! References between rows. Whatever a row refers to exists and belongs to the
row's own tenant. The foreign keys see to the first only: that no reference
leaves its tenant is due to the calls. -/

namespace BusinessPlatform
open Engine OrderService PaymentService PosSaleService PosOperationService PosSyncService

variable {ι : Type} [DecidableEq ι] {calls : ι → Call} {shop : Shop} {world before after : SystemWorld ι} {writes : Writes}

/-- Foreign keys into the tables that the calls write. -/
def Model.references {m : Model} (row : Model.Row m) : List ((m : Model) × Model.Key m) :=
  (Model.parents row).filter fun parent => !Model.external parent.1

/-- The reference leads to a row of the tenant. -/
def Leads (db : Db) (tenantId : Option Id) (parent : (m : Model) × Model.Key m) : Prop :=
  ∃ row, db.get parent.1 parent.2 = some row ∧ Model.tenantOf row = tenantId

def References (db : Db) : Prop :=
  ∀ m, ∀ row ∈ (db.table m).rows, ∀ parent ∈ Model.references row, Leads db (Model.tenantOf row) parent

/-- The tables whose rows are never erased. Lines refer to carts, which are. -/
private def lasting : Model → Bool
  | .order | .payment | .posOperation => true
  | _ => false

private theorem references_lasting {m : Model} {row : Model.Row m} {parent : (m : Model) × Model.Key m}
    (refers : parent ∈ Model.references row) : lasting parent.1 = true ∨ m = .cartItem := by
  obtain ⟨among, internal⟩ := List.mem_filter.mp refers
  cases m with
  | cartItem => exact .inr rfl
  | _ => grind [Model.parents, lasting, Model.external]

private theorem references_internal {m : Model} {row : Model.Row m} {parent : (m : Model) × Model.Key m}
    (refers : parent ∈ Model.references row) : Model.external m = false := by
  cases m <;> grind [Model.references, Model.parents, Model.external]

private theorem Leads.grows {tenantId : Option Id} {parent : (m : Model) × Model.Key m} (leads : Leads before.database tenantId parent)
    (grows : Grows (lawful calls) before after) (stays : lasting parent.1 = true) : Leads after.database tenantId parent := by
  obtain ⟨m, k⟩ := parent
  obtain ⟨row, found, tenant⟩ := leads
  cases m with
  | order =>
    obtain ⟨new, now, same⟩ := Grows.order grows found
    exact ⟨new, now, same ▸ tenant⟩
  | payment =>
    obtain ⟨new, now, same⟩ := Grows.payment grows found
    exact ⟨new, now, same ▸ tenant⟩
  | posOperation =>
    obtain ⟨new, now, same⟩ := Grows.provenance grows found
    have kept : new.tenantId = PosOperation.tenantId row := congrArg (fun provenance => provenance.2.1) same
    exact ⟨new, now, (congrArg some kept).trans tenant⟩
  | _ => cases stays

/-- Each call has written rows of its tenant only. -/
def TenantsWritten (calls : ι → Call) (world : SystemWorld ι) : Prop :=
  ∀ event ∈ world.trace, ∀ i, event.author = some i → event.Within (tenantArea (calls i).tenantId)

private theorem stored_leads {i : ι} {parent : (m : Model) × Model.Key m} (own : writes ∈ world.own i) {row : Model.Row parent.1}
    (put : row ∈ putsOf (S := commerce) parent.1 writes) (key : Model.key row = parent.2)
    (written : TenantsWritten calls world) (grows : Grows (lawful calls) (shop.start ι) world)
    (stays : lasting parent.1 = true) : Leads world.database (some (calls i).tenantId) parent := by
  obtain ⟨m, k⟩ := parent
  obtain ⟨later, earlier, split⟩ := List.mem_iff_append.mp own
  obtain ⟨event, rest, origin, suffix, recorded, author, rfl, _⟩ := Grows.own_recorded grows rfl split
  have within := written event (suffix.subset (List.mem_cons_self ..)) i author
  suffices leads : Leads (origin.record event.toLabel event.writes).database (some (calls i).tenantId) ⟨m, k⟩ from
    leads.grows recorded.after stays
  have kept : erasesOf (S := commerce) m event.writes = [] := by
    rcases recorded.lawful with empty | allowed
    · simp [empty]
    · cases m with
      | order => exact allowed.effect.order.1
      | payment => exact allowed.effect.payment.1
      | posOperation => exact allowed.effect.operation.1
      | _ => cases stays
  obtain ⟨stored, among, _, found⟩ := (origin.database.table m).find_putAll
    (List.mem_map.mpr ⟨row, put, key⟩ : k ∈ (putsOf (S := commerce) m event.writes).map Model.key)
  refine ⟨stored, ?_, within.writes _ (mem_putsOf.mp among) |>.stored m stored rfl⟩
  exact (Database.get_applyAll _ kept k).trans found

/-- Where a row that a call stores has a reference from: from the row that it
replaces, from a row that was found, or from the call itself. -/
inductive Refers (i : ι) (world : SystemWorld ι) (writes : Writes) {m : Model} (row : Model.Row m)
    (parent : (m : Model) × Model.Key m) : Prop where
  | kept (old : Model.Row m) (found : world.database.get m (Model.key row) = some old)
      (refers : parent ∈ Model.references old)
  | found (leads : Leads world.database (Model.tenantOf row) parent)
  | stored (own : Writes) (member : own ∈ writes :: world.own i) (other : Model.Row parent.1)
      (put : other ∈ putsOf (S := commerce) parent.1 own) (key : Model.key other = parent.2)

section References
variable {i : ι} {stamp : Nat} {db : Db} {parent : (m : Model) × Model.Key m}

omit [DecidableEq ι] in
private theorem Effect.paymentRefers (effect : Effect stamp db writes) {row : Payment}
    (put : row ∈ putsOf (S := commerce) .payment writes) :
    (∃ old, db.get .payment row.id = some old ∧ old.orderId = row.orderId) ∨
      ∃ order, db.get .order row.orderId = some order ∧ order.tenantId = row.tenantId := by
  cases before : db.get .payment row.id with
  | some old =>
    cases effect.payment.2 row put old before <;> exact .inl ⟨old, rfl, rfl⟩
  | none =>
    cases effect with
    | external foreign => simp [(external_nothing (m := .payment) rfl foreign).1] at put
    | adjusted adjusted => cases adjusted <;> simp at put
    | paymentCreated created =>
      obtain rfl : row = _ := by simpa using put
      obtain ⟨order, found, tenant, _⟩ := created.order
      exact .inr ⟨order, created.orderId ▸ found, tenant.trans created.tenant.symm⟩
    | captured captured =>
      obtain ⟨payment, order, found, processing, tenant, ordered, pending⟩ := captured
      obtain rfl : row = (setPayment .captured).apply payment := by simpa using put
      rw [show ((setPayment .captured).apply payment).id = _ from (Table.find_eq_some.mp found).2, found] at before
      cases before
    | markedFailed failed =>
      obtain ⟨payment, found, processing, tenant⟩ := failed
      obtain rfl : row = (setPayment .failed).apply payment := by simpa using put
      rw [show ((setPayment .failed).apply payment).id = _ from (Table.find_eq_some.mp found).2, found] at before
      cases before
    | operated kind operated => cases operated; simp at put
    | cart step =>
      cases step with
      | discarded cart found => simp [discardWrites] at put
      | _ => simp at put
    | _ => simp at put

private theorem SyncStep.refers {tenantId operationId : Id} (step : SyncStep i tenantId operationId world (world.own i) writes)
    {row : PosOperation} (put : row ∈ putsOf (S := commerce) .posOperation writes)
    (refers : parent ∈ Model.references (m := .posOperation) row) : Refers i world writes (m := .posOperation) row parent := by
  have changed {change : Change commerce .posOperation}
      (same : ∀ old : PosOperation, Model.references (m := .posOperation) (change.apply old) = Model.references (m := .posOperation) old)
      (operated : Operated tenantId operationId world.database change writes) :
      Refers i world writes (m := .posOperation) row parent := by
    obtain ⟨old, found, _, _⟩ := operated
    obtain rfl : row = change.apply old := by simpa using put
    refine .kept old ?_ (same old ▸ refers)
    rw [show Model.key (m := .posOperation) (change.apply old) = operationId from
      (change.keeps old).trans (Table.find_eq_some.mp found).2]
    exact found
  generalize own : world.own i = history at step
  cases step with
  | rejected code operated | outOfStock claim held operated | cleared operated => exact changed (fun _ => rfl) operated
  | claimed old now found pending unclaimed tenant =>
    have operated : Operated tenantId operationId world.database (setProcessedAt (some now))
        [.put .posOperation ((setProcessedAt (some now)).apply old)] := .mk old found pending tenant
    exact changed (fun _ => rfl) operated
  | accepted claim held placement payment paid captures sale once found captured order operated =>
    obtain ⟨old, there, _, _⟩ := operated
    obtain rfl : row = _ := by simpa using put
    have targets : parent = ⟨.order, placement.order.id⟩ ∨ parent = ⟨.payment, payment.id⟩ := by
      simpa [Model.references, Model.parents, Model.external, accept] using refers
    rcases targets with rfl | rfl
    · exact .stored placement.writes (by simp [own]) placement.order (by simp) rfl
    · exact .stored [.put .payment payment] (by simp [own]) payment (by simp) rfl
  | executed claim held old items filled validated earlier found tenant lines read step =>
    cases step with
    | capture placement payment captured => cases captured; simp at put
    | _ => simp at put

private theorem lawful.operationRefers (allowed : lawful calls (some i) world writes) {row : PosOperation}
    (put : row ∈ putsOf (S := commerce) .posOperation writes)
    (refers : parent ∈ Model.references (m := .posOperation) row) : Refers i world writes (m := .posOperation) row parent := by
  rcases allowed.records with ⟨operation, items, records⟩ | ⟨_, existing⟩
  · obtain ⟨_, _, _, _, _, _, recorded⟩ := records.call
    rw [records.written, intentWrites_operations, List.mem_singleton] at put
    subst put
    obtain ⟨_, order, payment⟩ := recorded.unsettled
    simp [Model.references, Model.parents, Model.external, order, payment] at refers
  · cases call : calls i <;> simp only [lawful, call, Call.Commits] at allowed
    case syncOperation tenantId userId operationId credential => exact allowed.refers put refers
    case recordOfflineSaleIntent tenantId userId dto =>
      obtain ⟨_, operation, items, recorded, rfl⟩ := allowed
      have there := existing operation (by simp)
      rw [recorded.fresh] at there
      cases there
    case createSale tenantId userId dto options =>
      generalize world.own i = history at allowed
      cases allowed with
      | capture placement payment captured => cases captured; simp at put
      | _ => simp at put
    case createOrder | cancelOrder | createPayment | createBooking | updateBooking =>
      obtain ⟨_, _, _, rfl⟩ := allowed
      simp at put
    case adjustScoped | capturePayment | failPayment =>
      obtain ⟨_, effect⟩ := allowed
      cases effect <;> simp at put
    all_goals
      cases allowed with
      | discarded cart found => simp [discardWrites] at put
      | _ => simp at put

private theorem lawful.refers (allowed : lawful calls (some i) world writes) {m : Model} {row : Model.Row m}
    (put : row ∈ putsOf (S := commerce) m writes) (line : m ≠ .cartItem) (refers : parent ∈ Model.references row) :
    Refers i world writes row parent := by
  cases m with
  | orderItem =>
    obtain rfl : parent = ⟨.order, OrderItem.orderId row⟩ := by
      simpa [Model.references, Model.parents, Model.external] using refers
    rcases allowed.effect.placement with ⟨placement, placed, rfl⟩ | ⟨nothing, _⟩
    · rw [Placement.writes_items] at put
      obtain ⟨line, member, rfl⟩ := List.mem_map.mp put
      exact .stored _ (List.mem_cons_self ..) placement.order (by simp) (placed.lines line member).ordered.symm
    · rw [nothing] at put
      cases put
  | payment =>
    obtain rfl : parent = ⟨.order, Payment.orderId row⟩ := by
      simpa [Model.references, Model.parents, Model.external] using refers
    rcases allowed.effect.paymentRefers put with ⟨old, found, same⟩ | ⟨order, found, tenant⟩
    · exact .kept old found (by simp [Model.references, Model.parents, Model.external, same])
    · exact .found ⟨order, found, congrArg some tenant⟩
  | booking =>
    obtain ⟨orderId, linked, rfl⟩ : ∃ orderId, Booking.orderId row = some orderId ∧ parent = ⟨.order, orderId⟩ := by
      grind [Model.references, Model.parents, Model.external]
    rcases allowed.effect.links with ⟨placement, placed, rfl⟩ | kept
    · rw [Placement.writes_booking] at put
      obtain ⟨booking, taken, rfl⟩ := List.mem_map.mp put
      cases linked
      exact .stored _ (List.mem_cons_self ..) placement.order (by simp) rfl
    · obtain ⟨old, found, same⟩ := kept row put orderId linked
      exact .kept old found (by simp [Model.references, Model.parents, Model.external, same])
  | posSale =>
    let label : Label commerce ι := ⟨some i, none, [], false⟩
    have allowed : lawful calls label.author world writes := allowed
    obtain ⟨_, placement, payment, captures, base, author, recording⟩ := allowed.recording put
    cases author
    have targets : parent = ⟨.order, PosSale.orderId row⟩ ∨ parent = ⟨.payment, PosSale.paymentId row⟩ := by
      simpa [Model.references, Model.parents, Model.external] using refers
    rcases targets with rfl | rfl
    · exact .stored placement.writes (by simp [recording.own]) placement.order (by simp) recording.order.symm
    · exact .stored [.put .payment payment] (by simp [recording.own]) payment (by simp) recording.paid.symm
  | posOperation => exact allowed.operationRefers put refers
  | posOperationItem =>
    obtain rfl : parent = ⟨.posOperation, PosOperationItem.operationId row⟩ := by
      simpa [Model.references, Model.parents, Model.external] using refers
    rcases allowed.records with ⟨operation, items, records⟩ | ⟨nothing, _⟩
    · obtain ⟨_, _, _, _, _, _, recorded⟩ := records.call
      rw [records.written, intentWrites_items] at put
      refine .stored _ (List.mem_cons_self ..) operation ?_ (recorded.lines row put).1.symm
      rw [records.written, intentWrites_operations]
      exact List.mem_singleton_self _
    · rw [nothing] at put
      cases put
  | cartItem => exact absurd rfl line
  | _ => grind [Model.references, Model.parents, Model.external]

end References

private theorem References.event {label : Label commerce ι} (references : References world.database)
    (grows : Grows (lawful calls) (shop.start ι) world) (allowed : lawful calls label.author world writes)
    (written : TenantsWritten calls (world.record label writes)) : References (world.record label writes).database := by
  have later : Grows (lawful calls) world (world.record label writes) := .single (.event label writes (.inr allowed))
  intro m row member parent refers
  by_cases line : m = .cartItem
  · subst line
    obtain rfl : parent = ⟨.cart, CartItem.cartId row⟩ := by
      simpa [Model.references, Model.parents, Model.external] using refers
    obtain ⟨cart, found, tenant⟩ := Shop.cartLines (grows.trans later) row member
    exact ⟨cart, found, congrArg some tenant⟩
  have stays := (references_lasting refers).resolve_right line
  rcases Database.get_found _ (Table.find_eq_some.mpr ⟨member, rfl⟩) with put | there
  · cases author : label.author with
    | none =>
      rw [author] at allowed
      cases (references_internal refers).symm.trans (allowed _ (mem_putsOf.mp put))
    | some i =>
      have within := (written ⟨label, world.database, writes⟩ (List.mem_cons_self ..) i author).writes _ (mem_putsOf.mp put)
      have tenant := within.stored m row rfl
      cases lawful.refers (author ▸ allowed) put line refers with
      | kept old found same =>
        rw [tenant, ← within.replaced m _ (List.mem_cons_self ..) old found]
        exact (references m old (Table.find_eq_some.mp found).1 parent same).grows later stays
      | found leads => exact leads.grows later stays
      | stored own member other put' key =>
        rw [tenant]
        refine stored_leads (i := i)  ?_ put' key written (grows.trans later) stays
        rwa [World.own_record_same rfl author fun empty => by simp [empty] at put]
  · exact (references m row (Table.find_eq_some.mp there).1 parent refers).grows later stays

theorem Shop.references (grows : Grows (lawful calls) (shop.start ι) world) (written : TenantsWritten calls world) :
    References world.database := by
  refine Grows.invariant (fun world => TenantsWritten calls world → References world.database) grows ?_ ?_ ?_ ?_ written
  · intro _ m row member parent refers
    rw [shop.unused m (references_internal refers)] at member
    cases member
  · exact fun world label writes grows earlier allowed written =>
      (earlier fun event member => written event (List.mem_cons_of_mem _ member)).event grows allowed written
  · exact fun world label earlier written => earlier fun event member => written event (List.mem_cons_of_mem _ member)
  · exact fun world elapsed earlier => earlier

/-- In every state reached, a reference between two rows that the calls maintain
leads to an existing row of the same tenant. -/
theorem references_inside_tenant {sha256 : String → String} {state : SystemState ι} (reached : shop.Reaches sha256 calls state)
    {m : Model} {row : Model.Row m} (member : row ∈ (state.world.database.table m).rows)
    {parent : (m : Model) × Model.Key m} (refers : parent ∈ Model.references row) :
    ∃ other, state.world.database.get parent.1 parent.2 = some other ∧ Model.tenantOf other = Model.tenantOf row :=
  Shop.references (Shop.Reaches.valid reached).2 reached.confined.events m row member parent refers

theorem references_inside_tenant_sale : ∃ (state : SystemState (Fin 2)) (sale : PosSale),
    sale ∈ (state.world.database.table .posSale).rows ∧
      ∃ payment : Payment, state.world.database.get .payment sale.paymentId = some payment ∧ payment.tenantId = sale.tenantId := by
  have executed : ((Shop.demo.system (fun _ => "hash") cashSale).run (runs 0 5 ++ runs 1 25)).any (fun state =>
    !(state.world.database.table .posSale).rows.isEmpty) = true := by decide +kernel
  obtain ⟨state, reached, seen⟩ := Shop.Reaches.computed executed rfl
  simp only [Bool.not_eq_true', List.isEmpty_eq_false_iff] at seen
  obtain ⟨sale, member⟩ := List.exists_mem_of_ne_nil _ seen
  have refers : ⟨.payment, sale.paymentId⟩ ∈ Model.references (m := .posSale) sale := by
    simp [Model.references, Model.parents, Model.external]
  obtain ⟨payment, found, tenant⟩ := references_inside_tenant reached member refers
  exact ⟨state, sale, member, payment, found, Option.some.inj tenant⟩

end BusinessPlatform
