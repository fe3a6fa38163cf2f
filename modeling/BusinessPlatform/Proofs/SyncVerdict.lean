import BusinessPlatform.Proofs.SyncHistory
import BusinessPlatform.Proofs.Ledger

/-! The verdict of an operation and its effects. A settled row never changes, and
an accepted one names what was executed. A rejection is written under a guard
that does not look at the claim, so it may follow an order of another call. -/

namespace BusinessPlatform
open Engine PosSyncService

variable {ι : Type} [DecidableEq ι] {sha256 : String → String} {calls : ι → Call} {shop : Shop}
  {state next : SystemState ι} {operationId : Id} {world : SystemWorld ι}

/-- A settled operation never changes, and no operation changes its provenance
or its lines. -/
theorem settled_operation_immutable {before after : SystemState ι} (reached : shop.Reaches sha256 calls before)
    (later : State.Reaches Environment before after) (row : PosOperation)
    (found : before.world.database.get .posOperation operationId = some row) :
    ∃ now : PosOperation, after.world.database.get .posOperation operationId = some now ∧
      now.provenance = row.provenance ∧ (row.status ≠ .pending → now = row) ∧
        linesOf after.world.database operationId = linesOf before.world.database operationId := by
  have grows := (State.Reaches.valid later reached.valid.1 fun _ _ => Environment.lawful).2
  obtain ⟨now, there, provenance⟩ := Grows.provenance grows found
  refine ⟨now, there, provenance, fun settled => ?_, Grows.lines grows (by simp [found])⟩
  exact Option.some.inj (there.symm.trans (Grows.settled grows found settled))

theorem settled_operation_immutable_accepted : ∃ before after : SystemState (Fin 5),
    ∃ row : PosOperation, before.world.database.get .posOperation 7 = some row ∧ row.status = .accepted ∧
      before.world.trace.length < after.world.trace.length ∧ after.world.database.get .posOperation 7 = some row := by
  have executed : ((Shop.demo.system (fun _ => "hash") (offlineSale 10)).run (runs 0 5 ++ runs 1 7 ++ runs 2 39)).any
      (fun before => (before.world.database.get .posOperation 7).map PosOperation.status = some .accepted &&
        (before.run (runs 3 6)).any fun after => before.world.trace.length < after.world.trace.length) = true := by
    decide +kernel
  obtain ⟨before, reached, seen⟩ := Shop.Reaches.computed executed rfl
  simp only [Bool.and_eq_true, decide_eq_true_eq] at seen
  obtain ⟨accepted, moved⟩ := seen
  obtain ⟨after, ran, longer⟩ := (Option.any_eq_true _ _).mp moved
  obtain ⟨row, found, status⟩ := Option.map_eq_some_iff.mp accepted
  have later : State.Reaches Environment before after := State.Reaches.schedule ran
    (State.Along.of_forall fun action member _ => Regular.environment (List.all_eq_true.mp rfl action member))
  obtain ⟨now, there, _, same, _⟩ := settled_operation_immutable reached later row found
  exact ⟨before, after, row, found, status, of_decide_eq_true longer, same (by simp [status]) ▸ there⟩

theorem synchronised_order {i : ι} (grows : Grows (lawful calls) (shop.start ι) world)
    (synchronises : (calls i).synchronises operationId = true) {later : List Writes} {placement : Placement}
    {claim : Writes} (own : world.own i = later ++ [placement.writes, claim]) :
    placement.order ∈ syncOrders calls operationId world := by
  obtain ⟨⟨label, database, writes⟩, rest, origin, suffix, recorded, author, written, before⟩ :=
    Grows.own_recorded grows rfl own
  obtain rfl : origin.database = database := recorded.database
  simp only at author written
  have sync : Synchronises calls operationId label.author = true := by simp [Synchronises, author, synchronises]
  have allowed : lawful calls label.author origin writes := by
    refine recorded.lawful.resolve_left ?_
    rw [written]
    simp [Placement.writes]
  have placed : putsOf (S := commerce) .order writes = [placement.order] := by simp [written]
  have created : createdOrders ⟨label, origin.database, writes⟩ = [placement.order] := by
    have effect : SyncEffect calls operationId origin label writes := allowed.syncEffect
    -- the call had made its claim only, so this was its order
    cases effect with
    | foreign other unclaimed kept => simp [sync] at other
    | claimed j author' own | cleared j author' own =>
      cases author.symm.trans author'
      cases before.symm.trans own
    | rejected j author' own row found pending code same | accepted j author' _ row found pending _ _ _ _ _ _ _ _ same =>
      rw [same] at placed
      simp at placed
    | continued j author' later other claim own =>
      cases author.symm.trans author'
      have length := congrArg List.length (before.symm.trans own)
      simp at length
    | ordered j author' claim held own other valid same =>
      rw [same, Placement.writes_order] at placed
      rw [same, createdOrders_placed valid, placed]
  exact List.mem_flatMap.mpr ⟨_, List.mem_filter.mpr ⟨suffix.subset (List.mem_cons_self ..), sync⟩, by simp [created]⟩

/-- Until an order is created, the calls have written nothing but the operation. -/
private theorem unexecuted_writes (grows : Grows (lawful calls) (shop.start ι) world)
    (unexecuted : syncOrders calls operationId world = []) (i : ι)
    (synchronises : (calls i).synchronises operationId = true) : ∀ writes ∈ world.own i, OperationOnly writes := by
  intro writes member
  obtain ⟨later, earlier, own⟩ := List.mem_iff_append.mp member
  have unordered {later : List Writes} {placement : Placement} {claim : Writes}
      (own : world.own i = later ++ [placement.writes, claim]) : False := by
    have created := synchronised_order grows synchronises own
    rw [unexecuted] at created
    cases created
  obtain ⟨⟨label, database, written⟩, rest, origin, suffix, recorded, author, rfl, before⟩ :=
    Grows.own_recorded grows rfl own
  rcases recorded.lawful with empty | allowed
  · simp only at empty
    simp [OperationOnly, empty]
  have effect : SyncEffect calls operationId origin label written := allowed.syncEffect
  have single {row : PosOperation} (same : written = [.put .posOperation row]) : OperationOnly written := by
    subst same
    simp [OperationOnly, Write.model]
  cases effect with
  | foreign other => simp [Synchronises, show label.author = some i from author, synchronises] at other
  | claimed _ _ _ _ _ _ _ _ same | cleared _ _ _ _ _ _ same | rejected _ _ _ _ _ _ _ same
  | accepted _ _ _ _ _ _ _ _ _ _ _ _ _ _ same => exact single same
  | ordered j author' claim held own' placement placed same =>
    cases author.symm.trans author'
    subst same
    exact (unordered (by rw [own, ← before, own'])).elim
  | continued j author' later' placement claim own' =>
    cases author.symm.trans author'
    rw [← before, own', ← List.cons_append, ← List.append_assoc] at own
    exact (unordered own).elim

/-- What an accepted row refers to: an order that was created for the operation,
and its captured payment. -/
structure Executed (calls : ι → Call) (operationId : Id) (row : PosOperation) (world : SystemWorld ι) : Prop where
  result : ∃ created ∈ syncOrders calls operationId world, row.resultOrderId = some created.id ∧
    ∃ payment, Payment.Captures world.database created.id payment ∧ row.resultPaymentId = some payment.id

private theorem Executed.evolves {before after : SystemWorld ι} {row : PosOperation}
    (executed : Executed calls operationId row before) (step : Evolves (lawful calls) before after) :
    Executed calls operationId row after := by
  obtain ⟨created, member, order, payment, captures, paid⟩ := executed
  refine ⟨created, ?_, order, payment, ?_, paid⟩
  · cases step with
    | event label writes allowed =>
      rw [syncOrders_record]
      exact List.mem_append_right _ member
    | wait elapsed => exact member
  · exact { captures with stored := Grows.captured (.single step) captures.stored captures.captured }

theorem accepted_executed (grows : Grows (lawful calls) (shop.start ι) world) : ∀ row : PosOperation,
    world.database.get .posOperation operationId = some row → row.status = .accepted →
      Executed calls operationId row world := by
  refine Grows.invariant (fun world : SystemWorld ι => ∀ row : PosOperation, world.database.get .posOperation operationId = some row →
    row.status = .accepted → Executed calls operationId row world) grows (fun row found => ?_)
    (fun w label writes grown executed allowed row found accepted => ?_)
    (fun w label executed row found accepted => (executed row found accepted).evolves (.empty label))
    fun w elapsed executed row found accepted => (executed row found accepted).evolves (.wait elapsed)
  · rw [shop.get_unused rfl] at found
    cases found
  have step : Evolves (lawful calls) w (w.record label writes) := .event label writes (.inr allowed)
  have kept (same : (w.record label writes).database.get .posOperation operationId =
      w.database.get .posOperation operationId) : Executed calls operationId row (w.record label writes) :=
    (executed row (same ▸ found) accepted).evolves step
  have effect : SyncEffect calls operationId w label writes := allowed.syncEffect
  cases effect with
  | foreign other unclaimed untouched =>
    rcases untouched with same | ⟨_, inserted, there, pending, _⟩
    · exact kept same
    · cases found.symm.trans there
      cases accepted.symm.trans pending
  | claimed i author own old there pending unclaimed now written | cleared i author own old there pending written =>
    cases found.symm.trans (get_operated there written)
    cases accepted.symm.trans pending
  | rejected i author own old there pending code written =>
    cases found.symm.trans (get_operated there written)
    cases accepted
  | accepted i author own old there pending claim held later placement payment paid earlier settled written =>
    cases found.symm.trans (get_operated there written)
    have paidId : paid.id = payment.id := (Table.find_eq_some.mp settled.1).2
    have split : w.own i = (later ++ [[.put .payment payment]]) ++ [placement.writes, claim] := by simp [earlier]
    have created := synchronised_order grown own split
    refine Executed.evolves ⟨placement.order, created, rfl, paid, ?_, congrArg some paidId.symm⟩ step
    exact ⟨paidId ▸ settled.1, settled.2.2, settled.2.1⟩
  | ordered i author claim held own placement placed written =>
    exact kept (Database.get_unwritten (S := commerce) _ (by simp [written]) (by simp [written]) _)
  | continued i author later placement claim own uncreated undebited untouched =>
    exact kept (Database.get_unwritten (S := commerce) _ untouched.2 untouched.1 _)

/-- The event rejects the operation. -/
def Rejects (operationId : Id) (event : Event commerce ι) : Prop :=
  ∃ row : PosOperation, row ∈ putsOf (S := commerce) .posOperation event.writes ∧ row.id = operationId ∧
    row.status = .rejected

/-- An operation is rejected only if it has not been executed and no other call
can still execute it. -/
def RejectsUnexecuted (calls : ι → Call) (operationId : Id) (state : SystemState ι) (event : Event commerce ι) : Prop :=
  Rejects operationId event → syncOrders calls operationId state.world = [] ∧
    ∀ i, event.author ≠ some i → HasClaimed operationId i state.world → state.finished i

instance {event : Event commerce ι} : Decidable (Rejects operationId event) :=
  inferInstanceAs (Decidable (∃ row, row ∈ _ ∧ _))

instance [Fintype ι] {event : Event commerce ι} : Decidable (RejectsUnexecuted calls operationId state event) :=
  inferInstanceAs (Decidable (_ → _))

/-- No call has executed the operation, and none that holds a claim runs. -/
structure Withdrawn (calls : ι → Call) (operationId : Id) (state : SystemState ι) : Prop where
  unexecuted : syncOrders calls operationId state.world = []
  ended : ∀ i claim, state.world.own i = [claim] → Claim operationId claim → state.finished i

def RejectedWithdrawn (calls : ι → Call) (operationId : Id) (state : SystemState ι) : Prop :=
  ∀ row : PosOperation, state.world.database.get .posOperation operationId = some row → row.status = .rejected →
    Withdrawn calls operationId state

private theorem Withdrawn.kept {label : Label commerce ι} {writes : Writes} (withdrawn : Withdrawn calls operationId state)
    (later : ∀ i, state.finished i → next.finished i) (recorded : next.world = state.world.record label writes)
    (unclaimed : ¬ Claim operationId writes)
    (orders : syncOrders calls operationId next.world = syncOrders calls operationId state.world) :
    Withdrawn calls operationId next := by
  refine ⟨orders.trans withdrawn.unexecuted, fun i claim only held => ?_⟩
  rw [recorded] at only
  rcases World.own_record i with same | ⟨_, same⟩
  · exact later i (withdrawn.ended i claim (same.symm.trans only) held)
  · rw [same] at only
    exact absurd ((List.cons.inj only).1 ▸ held) unclaimed

private theorem RejectedWithdrawn.event {label : Label commerce ι} {writes : Writes}
    (holds : RejectedWithdrawn calls operationId state) (later : ∀ i, state.finished i → next.finished i)
    (recorded : next.world = state.world.record label writes)
    (active : ∀ i, label.author = some i → ¬ state.finished i) (allowed : lawful calls label.author state.world writes)
    (rejects : RejectsUnexecuted calls operationId state ⟨label, state.world.database, writes⟩) :
    RejectedWithdrawn calls operationId next := by
  intro row found rejected
  rw [recorded] at found
  have effect : SyncEffect calls operationId state.world label writes := allowed.syncEffect
  cases effect with
  | foreign other unclaimed untouched =>
    rcases untouched with same | ⟨_, inserted, there, pending, _⟩
    · refine (holds row (same ▸ found) rejected).kept later recorded unclaimed ?_
      simp [recorded, syncOrders_record, other]
    · cases found.symm.trans there
      cases rejected.symm.trans pending
  | claimed i author own old there pending unclaimed now written | cleared i author own old there pending written =>
    cases found.symm.trans (get_operated there written)
    cases rejected.symm.trans pending
  | accepted i author own old there pending claim held _ placement payment paid _ settled written =>
    cases found.symm.trans (get_operated there written)
    cases rejected
  | rejected i author own old there pending code written =>
    have key : ((reject code).apply old).id = operationId := (Table.find_eq_some.mp there).2
    obtain ⟨unexecuted, ended⟩ := rejects ⟨(reject code).apply old, by simp [written], key, rfl⟩
    refine ⟨?_, fun k claim only held => ?_⟩
    · rw [recorded, syncOrders_same (by rw [written]; rfl), unexecuted]
    · rw [recorded] at only
      by_cases mine : label.author = some k
      · rw [World.own_record_same rfl mine (by simp [written])] at only
        have claimed : Claim operationId writes := (List.cons.inj only).1 ▸ held
        obtain ⟨stored, same, _, pending, _⟩ := claimed.writes_operations
        rw [written, putsOf_put_same] at same
        cases same
        cases pending
      · rw [World.own_record_other k _ mine] at only
        exact later k (ended k mine ⟨claim, by simp [only], held⟩)
  | ordered i author claim held own placement placed written =>
    have unchanged : (state.world.record label writes).database.get .posOperation operationId = _ :=
      Database.get_unwritten (S := commerce) _ (by simp [written]) (by simp [written]) _
    have withdrawn := holds row (unchanged.symm.trans found) rejected
    exact absurd (withdrawn.ended i claim own held) (active i author)
  | continued i author _ placement claim own uncreated undebited untouched =>
    have unchanged : (state.world.record label writes).database.get .posOperation operationId = _ :=
      Database.get_unwritten (S := commerce) _ untouched.2 untouched.1 _
    refine (holds row (unchanged.symm.trans found) rejected).kept later recorded (fun claim => ?_) ?_
    · obtain ⟨_, written, _⟩ := claim.writes_operations
      cases untouched.1.symm.trans written
    · rw [recorded, syncOrders_same uncreated]

/-- In every run in which an operation is rejected only if it has not been
executed and no other call can still execute it: a rejected operation has had no
effect, an accepted one names a PAID order created for it and that order's
captured payment, and all calls that return a verdict return the same one. -/
theorem verdict_agrees (reached : State.Reaches
    (fun state action => Environment state action ∧ state.Records (RejectsUnexecuted calls operationId) action)
    (shop.system sha256 calls) state) :
    (∀ row : PosOperation, state.world.database.get .posOperation operationId = some row →
      (row.status = .rejected → ∀ event ∈ syncEvents calls operationId state.world, OperationOnly event.writes) ∧
      (row.status = .accepted → ∃ order payment, row.resultOrderId = some order.id ∧
        row.resultPaymentId = some payment.id ∧ state.world.database.get .order order.id = some order ∧
        order.status = .paid ∧ (∃ created ∈ syncOrders calls operationId state.world, created.id = order.id) ∧
        Payment.Captures state.world.database order.id payment)) ∧
    ∀ i j first second, (calls i).synchronises operationId = true → (calls j).synchronises operationId = true →
      (state.threads i).program = .done (.ok (.sync first)) → (state.threads j).program = .done (.ok (.sync second)) →
        first = second := by
  have rejected : RejectedWithdrawn calls operationId state := by
    refine Shop.recording (RejectedWithdrawn calls operationId) reached (fun row found => ?_)
      (fun before after holds later still row found rejected => ?_)
      fun _ _ _ _ _ holds later recorded active lawful rejects => holds.event later recorded active lawful rejects
    · rw [show (shop.system sha256 calls).world.database = shop.database from rfl, shop.get_unused rfl] at found
      cases found
    · have withdrawn := holds row (still.database ▸ found) rejected
      exact ⟨(syncOrders_still still).trans withdrawn.unexecuted, fun i claim only held =>
        later i (withdrawn.ended i claim ((still.own i).symm.trans only) held)⟩
  have environment : shop.Reaches sha256 calls state := State.Reaches.weaken reached fun _ _ => And.left
  obtain ⟨valid, grows⟩ := environment.valid
  refine ⟨fun row found => ⟨fun final event member => ?_, fun final => ?_⟩, fun i j first second sync₁ sync₂ done₁ done₂ => ?_⟩
  · obtain ⟨inside, own⟩ := List.mem_filter.mp member
    obtain ⟨i, author, synchronises⟩ := Option.any_eq_true .. |>.mp own
    by_cases written : event.writes = []
    · simp [OperationOnly, written]
    · exact unexecuted_writes grows (rejected row found final).unexecuted i synchronises _
        (World.mem_own inside author written)
  · obtain ⟨created, member, order, payment, captures, paid⟩ := accepted_executed grows row found final
    have balanced := Shop.balanced grows
    obtain ⟨placed, there, _⟩ := balanced.amounts payment.id payment captures.stored
    rw [captures.order] at there
    have same : placed.id = created.id := (Table.find_eq_some.mp there).2
    refine ⟨placed, payment, same ▸ order, paid, same ▸ there, ?_, ⟨created, member, same.symm⟩, same ▸ captures⟩
    by_contra unpaid
    exact balanced.unpaid created.id placed there unpaid payment captures
  · have settled : ∀ k verdict, (calls k).synchronises operationId = true →
        (state.threads k).program = .done (.ok (.sync verdict)) → Verdict operationId verdict state.world := by
      intro k verdict synchronises done
      obtain ⟨tenantId, userId, credential, call⟩ := Call.synchronises_iff.mp synchronises
      have post := valid.ended done
      rw [call] at post
      obtain ⟨failure | given, promised, same⟩ := post
      · cases same
      · cases same
        exact promised verdict rfl
    obtain ⟨row, found, _, rfl⟩ := settled i first sync₁ done₁
    obtain ⟨other, there, _, rfl⟩ := settled j second sync₂ done₂
    rw [Option.some.inj (found.symm.trans there)]

/-- One unit is on stock, so the intent of two is rejected, and no call has
written anything but the operation. -/
theorem verdict_agrees_rejected : ∃ state : SystemState (Fin 5), ∃ row : PosOperation,
    state.world.database.get .posOperation 7 = some row ∧ row.status = .rejected ∧
      ∀ event ∈ syncEvents (offlineSale 1) 7 state.world, OperationOnly event.writes := by
  have executed : ((Shop.demo.system (fun _ => "hash") (offlineSale 1)).runWhile
      (fun state event => RejectsUnexecuted (offlineSale 1) 7 state event) (runs 0 5 ++ runs 1 7 ++ runs 2 12)).any
      (fun state => (state.world.database.get .posOperation 7).map PosOperation.status = some .rejected) = true := by
    decide +kernel
  obtain ⟨state, reached, seen⟩ := Shop.Reaches.checked executed rfl
  obtain ⟨row, found, status⟩ := Option.map_eq_some_iff.mp (of_decide_eq_true seen)
  exact ⟨state, row, found, status, ((verdict_agrees reached).1 row found).1 status⟩

/-- The first call has taken the last two units for its order. The second one
finds the stock empty and rejects the operation. -/
theorem rejected_after_order : ∃ state, Shop.demo.Reaches (fun _ => "hash") (offlineSale 2) state ∧
    ∃ row : PosOperation, state.world.database.get .posOperation 7 = some row ∧ row.status = .rejected ∧
      (syncOrders (offlineSale 2) 7 state.world).length = 1 ∧ (syncDebits (offlineSale 2) 7 1 state.world).length = 1 := by
  have executed : ((Shop.demo.system (fun _ => "hash") (offlineSale 2)).run
      (runs 0 5 ++ runs 1 7 ++ runs 2 22 ++ runs 3 12)).any (fun state =>
        (state.world.database.get .posOperation 7).map PosOperation.status = some .rejected &&
          (syncOrders (offlineSale 2) 7 state.world).length = 1 &&
          (syncDebits (offlineSale 2) 7 1 state.world).length = 1) = true := by decide +kernel
  obtain ⟨state, reached, seen⟩ := Shop.Reaches.computed executed rfl
  simp only [Bool.and_eq_true, decide_eq_true_eq] at seen
  obtain ⟨row, found, status⟩ := Option.map_eq_some_iff.mp seen.1.1
  exact ⟨state, reached, row, found, status, seen.1.2, seen.2⟩

end BusinessPlatform
