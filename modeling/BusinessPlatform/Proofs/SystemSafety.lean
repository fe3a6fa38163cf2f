import BusinessPlatform.Proofs.BookingSafety
import BusinessPlatform.Proofs.CartSafety
import BusinessPlatform.Proofs.InventorySafety
import BusinessPlatform.Proofs.PosOperationSafety
import BusinessPlatform.Proofs.PosSyncSafety

/-! Safety of the whole system: in every run of any calls over any shop, each
commit is one that its call may make, and each result is what the call promises. -/

namespace BusinessPlatform
open Engine InventoryService OrderService PaymentService PosSaleService PosOperationService PosSyncService CartService

variable {ι : Type} [DecidableEq ι] {sha256 : String → String} {calls : ι → Call} {i : ι} {world : SystemWorld ι}

/-- The result of a service, as its endpoint responds with it. -/
def Answers {α : Type} (response : α → Response) (post : Post commerce HttpException α ι) :
    Post commerce HttpException Response ι := fun result session world =>
  ∃ given : Except (Failure HttpException) α, post given session world ∧ result = given.map response

omit [DecidableEq ι] in
theorem respond_safe {α : Type} {commits : Commits commerce ι} {rely : Guarantee commerce ι}
    {response : α → Response} {post : Post commerce HttpException α ι} {service : Service α}
    (safe : Safe commits rely i post service none world) :
    Safe commits rely i (Answers response post) (respond response service) none world := by
  refine Safe.bind (Safe.weaken safe.ends ?_)
  rintro (failure | value) session after ends
  · exact ⟨.error failure, ends after .refl, rfl⟩
  · exact Safe.done fun final later => ⟨.ok value, ends final later, rfl⟩

private theorem respond_anything {α : Type} {commits : Commits commerce ι} {response : α → Response}
    {service : Service α} (safe : Safe commits (lawful calls) i (Anything α ι) service none world) :
    Safe commits (lawful calls) i (Anything Response ι) (respond response service) none world :=
  Safe.weaken (respond_safe safe) fun _ _ _ _ => trivial

/-- What a call promises of its result. -/
def Call.Post (i : ι) : Call → Post commerce HttpException Response ι
  | .adjustScoped tenantId scope dto => Answers .inventory (AdjustPost i tenantId scope dto)
  | .createOrder _ _ dto => Answers .order (OrderPost i [] (publicOptions dto).inventoryScope.storeId)
  | .cancelOrder _ orderId => Answers .order (CancelPost i orderId)
  | .createPayment _ dto => Answers .payment (PaymentPost i [] dto)
  | .capturePayment .. => Answers .payment (Attempt i [] (fun _ => True) fun _ _ => True)
  | .failPayment .. => Answers .payment (FailPost i)
  | .createSale _ _ dto _ => Answers .sale (SalePost i [] dto)
  | .recordOfflineSaleIntent .. => Answers .operation (RecordPost i)
  | .syncOperation _ _ operationId _ => Answers .sync (SyncPost operationId)
  | .createBooking .. | .updateBooking .. => Answers .booking (BookingPost i)
  | .getCart .. | .addItem .. | .updateItem .. | .removeItem .. | .discardCart .. => fun _ _ _ => True

theorem Call.safe (known : KnownCarts world) (own : world.own i = []) :
    Safe ((calls i).Commits i) (lawful calls) i ((calls i).Post i) ((calls i).program sha256) none world := by
  cases call : calls i with
  | adjustScoped tenantId scope dto =>
    exact respond_safe (adjustScoped_safe own)
  | createOrder tenantId userId dto =>
    exact respond_safe (createOrder_safe own)
  | cancelOrder tenantId orderId =>
    exact respond_safe (cancelOrder_safe own)
  | createPayment tenantId dto =>
    exact respond_safe (createPayment_safe own)
  | capturePayment tenantId paymentId =>
    refine respond_safe (Safe.weaken (capturePayment_safe own) fun result session after captured => ?_)
    cases result with
    | ok summary => exact ⟨captured.1, trivial⟩
    | error failure => exact ⟨captured.1, fun _ _ => trivial, captured.2.2⟩
  | failPayment tenantId paymentId =>
    exact respond_safe (failPayment_safe own)
  | createSale tenantId userId dto options =>
    refine respond_safe (Safe.permit (createSale_safe own) ?_)
    rintro w writes ⟨steps, here, step⟩
    rw [List.append_nil] at here
    change SaleStep i tenantId userId dto w (w.own i) writes
    rwa [here]
  | recordOfflineSaleIntent tenantId userId dto =>
    exact respond_safe (recordOfflineSaleIntent_safe own)
  | syncOperation tenantId userId operationId credential =>
    exact respond_safe (syncOperation_safe call own)
  | createBooking tenantId dto =>
    exact respond_safe (createBooking_safe own)
  | updateBooking tenantId bookingId dto =>
    exact respond_safe (updateBooking_safe own)
  | getCart tenantId userId =>
    exact respond_anything (getCart_safe known)
  | addItem tenantId userId dto =>
    exact respond_anything (addItem_safe known)
  | updateItem tenantId userId itemId dto =>
    exact respond_anything (updateItem_safe known)
  | removeItem tenantId userId itemId =>
    exact respond_anything (removeItem_safe known)
  | discardCart tenantId userId =>
    exact respond_anything discardCart_safe

namespace Shop
variable (shop : Shop)

theorem get_unused {m : Model} (own : Model.external m = false) (k : Model.Key m) :
    shop.database.get m k = none :=
  Table.find_eq_none.mpr (by simp [shop.unused m own])

/-- The world before the first call. -/
abbrev start (ι : Type) : SystemWorld ι := { database := shop.database }

theorem valid (sha256 : String → String) (calls : ι → Call) :
    Valid (lawful calls) (fun i => (calls i).Post i) (shop.system sha256 calls) :=
  Valid.initial fun i => Call.safe (fun id cart found => by
    rw [shop.get_unused rfl] at found
    cases found) rfl

end Shop

theorem Environment.lawful {state : SystemState ι} {writes : Writes} (allowed : Environment state (.external writes)) :
    Allowed (lawful calls none) state.world writes := .inr allowed

variable {shop : Shop} {state : SystemState ι} {permitted : SystemState ι → Action commerce ι → Prop}

theorem Shop.Reaches.valid (reached : shop.Reaches sha256 calls state) :
    Valid (lawful calls) (fun i => (calls i).Post i) state ∧ Grows (lawful calls) (shop.start ι) state.world :=
  State.Reaches.valid reached (shop.valid sha256 calls) fun _ _ => Environment.lawful

/-- The run rule for a shop. A step may be assumed to start in a valid state
that has grown from the shop, and to move lawfully. -/
theorem Shop.invariant (holds : SystemState ι → Prop)
    (reached : State.Reaches permitted (shop.system sha256 calls) state)
    (environment : ∀ state action, permitted state action → Environment state action)
    (first : holds (shop.system sha256 calls))
    (preserved : ∀ state next action, Valid (lawful calls) (fun i => (calls i).Post i) state →
      Grows (lawful calls) (shop.start ι) state.world → holds state → permitted state action →
      state.step action = some next → Moves (lawful calls) state next → holds next) : holds state := by
  refine (State.Reaches.invariant (fun state => Grows (lawful calls) (shop.start ι) state.world ∧ holds state) reached
    (shop.valid sha256 calls) (fun _ _ allowed => Environment.lawful (environment _ _ allowed)) ⟨.refl, first⟩ ?_).2.2
  intro state next action valid ⟨grown, holding⟩ allowed executed moves
  exact ⟨grown.trans moves.grows, preserved state next action valid grown holding allowed executed moves⟩

/-- The run rule for runs of good events: it is enough to look at what is
committed. -/
theorem Shop.recording {good : SystemState ι → Event commerce ι → Prop} (holds : SystemState ι → Prop)
    (reached : State.Reaches (fun state action => Environment state action ∧ state.Records good action)
      (shop.system sha256 calls) state)
    (first : holds (shop.system sha256 calls))
    (still : ∀ state next, holds state → (∀ i, state.finished i → next.finished i) → Still state.world next.world →
      holds next)
    (event : ∀ state next label writes, Grows (lawful calls) (shop.start ι) state.world → holds state →
      (∀ i, state.finished i → next.finished i) → next.world = state.world.record label writes →
      (∀ i, label.author = some i → ¬ state.finished i) → BusinessPlatform.lawful calls label.author state.world writes →
      good state ⟨label, state.world.database, writes⟩ → holds next) : holds state := by
  refine Shop.invariant holds reached (fun _ _ => And.left) first ?_
  intro state next action valid grown holding allowed executed moves
  have later (i : ι) (ended : state.finished i) : next.finished i := by
    obtain ⟨result, done⟩ := ended
    exact ⟨result, State.step_done executed done⟩
  rcases moves.cases with unchanged | ⟨label, writes, recorded, lawful, active⟩
  · exact still state next holding later unchanged
  · exact event state next label writes grown holding later recorded active lawful
      (allowed.2 next _ executed (by rw [recorded, World.record_trace]))

theorem Shop.recorded {good : Event commerce ι → Prop}
    (reached : State.Reaches (fun state action => Environment state action ∧ state.Records (fun _ => good) action)
      (shop.system sha256 calls) state) : ∀ event ∈ state.world.trace, good event :=
  State.Reaches.recorded reached (shop.valid sha256 calls) (fun _ _ allowed => Environment.lawful allowed.1) nofun
    fun _ _ => And.right

/-- Everybody else edits only their own tables. -/
def Regular : Action commerce ι → Bool
  | .external writes => writes.all fun write => Model.external write.model
  | _ => true

omit [DecidableEq ι] in
theorem Regular.environment {action : Action commerce ι} (regular : Regular action = true) :
    Environment state action := by
  cases action with
  | external writes => exact List.all_eq_true.mp regular
  | _ => trivial

theorem Shop.Reaches.computed {schedule : List (Action commerce ι)} {observed : SystemState ι → Bool}
    (executed : ((shop.system sha256 calls).run schedule).any observed = true)
    (regular : schedule.all Regular = true) : ∃ state, shop.Reaches sha256 calls state ∧ observed state = true := by
  obtain ⟨state, ran, seen⟩ := (Option.any_eq_true _ _).mp executed
  exact ⟨state, State.Reaches.schedule ran (State.Along.of_forall fun action member _ =>
    Regular.environment (List.all_eq_true.mp regular action member)), seen⟩

theorem Shop.Reaches.checked {good : SystemState ι → Event commerce ι → Prop}
    [∀ state event, Decidable (good state event)] {schedule : List (Action commerce ι)} {observed : SystemState ι → Bool}
    (executed : ((shop.system sha256 calls).runWhile (fun state event => good state event) schedule).any observed = true)
    (regular : schedule.all Regular = true) : ∃ state, State.Reaches
      (fun state action => Environment state action ∧ state.Records good action) (shop.system sha256 calls) state ∧
        observed state = true := by
  obtain ⟨state, ran, seen⟩ := (Option.any_eq_true _ _).mp executed
  refine ⟨state, State.Reaches.checked (fun _ _ => of_decide_eq_true) ran (fun action member _ => ?_)
    (fun _ _ => And.intro), seen⟩
  exact Regular.environment (List.all_eq_true.mp regular action member)

/-- A thread executes some statements whose scans are in table order. -/
def runs (i : ι) (statements : Nat) : List (Action commerce ι) := List.replicate statements (.run i [])

private def demoRows : (m : Model) → List (Model.Row m)
  | .productVariant => [⟨1, 0, 2, "sku", none, .active⟩]
  | .product => [⟨2, 0, "product"⟩]
  | .price => [⟨3, 0, 1, "USD", 100⟩]
  | .store => [⟨4, 0⟩]
  | .posDevice => [⟨5, 0, 4, .active, "hash"⟩]
  | .posSession => [⟨6, 0, 5, 4, 7, .opened⟩]
  | .membership => [⟨8, 0, 7, 9, .active⟩]
  | .role => [⟨9, 0, PermissionService.OWNER⟩]
  | .service => [⟨10, 0, .active⟩]
  | _ => []

/-- One variant with one price, one store with a device and its owner's session,
one service. -/
def Shop.demo : Shop where
  database := ⟨fun m => ⟨demoRows m, by cases m <;> simp [demoRows]⟩⟩
  unused m own := by cases m <;> first | rfl | cases own

end BusinessPlatform
