import BusinessPlatform.Proofs.SystemSafety
import BusinessPlatform.Engine.Faults

/-! Runs in which only the calls act: nobody else edits the catalog, and every
statement is executed. -/

namespace BusinessPlatform
open Engine OrderService PosSaleService PosSyncService

variable {ι : Type}

/-- The writes are to the tables of these services. -/
def Internal (writes : Writes) : Prop := ∀ write ∈ writes, Model.external write.model = false

theorem Placement.internal (placement : Placement) : Internal placement.writes := by
  intro write member
  simp only [Placement.writes, List.mem_append, List.mem_cons, List.mem_map] at member
  rcases member with ⟨_, _, rfl⟩ | rfl | (⟨_, _, rfl⟩ | ⟨_, _, rfl⟩) | ⟨_, _, rfl⟩ <;> rfl

theorem SaleStep.internal {i : ι} {tenantId userId : Id} {dto : CreatePosSaleDto} {world : SystemWorld ι}
    {history : List Writes} {writes : Writes} (step : SaleStep i tenantId userId dto world history writes) :
    Internal writes := by
  cases step with
  | order placement session ordered => exact placement.internal
  | capture placement payment captured => cases captured; simp [Internal, Write.model, Model.external]
  | _ => simp [Internal, Write.model, Model.external]

theorem SyncStep.internal {i : ι} {tenantId operationId : Id} {world : SystemWorld ι} {history : List Writes}
    {writes : Writes} (step : SyncStep i tenantId operationId world history writes) : Internal writes := by
  cases step with
  | rejected code operated | cleared operated | outOfStock claim held operated =>
    cases operated
    simp [Internal, Write.model, Model.external]
  | claimed row now found pending unclaimed tenant => simp [Internal, Write.model, Model.external]
  | executed claim held row items filled validated history found tenant lines read step => exact step.internal
  | accepted claim held placement payment paid captures sale once found captured order operated =>
    cases operated
    simp [Internal, Write.model, Model.external]

variable [DecidableEq ι] {calls : ι → Call} {world before after : SystemWorld ι} {writes : Writes}

theorem discardWrites_internal (db : Db) (cart : Cart) : Internal (discardWrites db cart) := by
  intro write member
  simp only [discardWrites, List.mem_cons, List.mem_map] at member
  rcases member with rfl | ⟨_, _, rfl⟩ <;> rfl

theorem lawful.internal {i : ι} (allowed : lawful calls (some i) world writes) : Internal writes := by
  simp only [lawful, Call.Commits] at allowed
  split at allowed
  · obtain ⟨_, adjusted⟩ := allowed
    cases adjusted <;> simp [Internal, Write.model, Model.external]
  · obtain ⟨_, placement, _, rfl⟩ := allowed
    exact placement.internal
  · obtain ⟨_, cancellation, _, rfl⟩ := allowed
    simp [Internal, Cancellation.writes, Write.model, Model.external]
  · obtain ⟨_, payment, _, rfl⟩ := allowed
    simp [Internal, Write.model, Model.external]
  · obtain ⟨_, captured⟩ := allowed
    cases captured
    simp [Internal, Write.model, Model.external]
  · obtain ⟨_, failed⟩ := allowed
    cases failed
    simp [Internal, Write.model, Model.external]
  · exact allowed.internal
  · obtain ⟨_, operation, items, _, rfl⟩ := allowed
    simp [Internal, intentWrites, Write.model, Model.external]
  · exact allowed.internal
  · obtain ⟨_, booking, _, rfl⟩ := allowed
    simp [Internal, Write.model, Model.external]
  · obtain ⟨_, booking, _, rfl⟩ := allowed
    simp [Internal, Write.model, Model.external]
  all_goals
    cases allowed with
    | discarded cart found => exact discardWrites_internal _ cart
    | _ => simp [Internal, Write.model, Model.external]

/-- The calls commit what they may, and nobody else commits anything. -/
def amongCalls (calls : ι → Call) : Guarantee commerce ι := fun author world writes =>
  author ≠ none ∧ lawful calls author world writes

theorem amongCalls.lawful {author : Option ι} {world : SystemWorld ι} {writes : Writes}
    (allowed : amongCalls calls author world writes) : lawful calls author world writes := allowed.2

theorem Grows.among (grows : Grows (amongCalls calls) before after) : Grows (lawful calls) before after :=
  Relation.ReflTransGen.mono (fun _ _ step => by
    cases step with
    | event label writes allowed => exact .event label writes (allowed.imp_right amongCalls.lawful)
    | wait elapsed => exact .wait elapsed) _ _ grows

theorem Grows.catalog (grows : Grows (amongCalls calls) before after) {m : Model} (external : Model.external m = true) :
    after.database.table m = before.database.table m := by
  induction grows with
  | refl => rfl
  | tail earlier step ih =>
    rw [← ih]
    cases step with
    | event label writes allowed =>
      rcases allowed with rfl | ⟨known, allowed⟩
      · rfl
      · obtain ⟨i, author⟩ := Option.ne_none_iff_exists'.mp known
        rw [author] at allowed
        refine Database.applyAll_other _ fun write member same => ?_
        have internal := allowed.internal write member
        rw [same, external] at internal
        cases internal
    | wait elapsed => rfl

/-- Nobody but the calls acts, and this call is spared all faults. -/
def Quiet (i : ι) (_ : SystemState ι) : Action commerce ι → Prop
  | .external _ => False
  | action => action.spares i

variable {sha256 : String → String} {shop : Shop} {state : SystemState ι}

omit [DecidableEq ι] in
theorem Quiet.environment {i : ι} {action : Action commerce ι} (quiet : Quiet i state action) :
    Environment state action := by
  cases action with
  | external writes => cases quiet
  | _ => trivial

omit [DecidableEq ι] in
theorem Quiet.spares {i : ι} {action : Action commerce ι} (quiet : Quiet i state action) : action.spares i := by
  cases action with
  | external writes => cases quiet
  | _ => exact quiet

theorem Quiet.computed {i : ι} {schedule : List (Action commerce ι)} {observed : SystemState ι → Bool}
    (executed : ((shop.system sha256 calls).run schedule).any observed = true)
    (undisturbed : schedule.all Action.undisturbed = true) :
    ∃ state, State.Reaches (Quiet i) (shop.system sha256 calls) state ∧ observed state = true := by
  obtain ⟨state, ran, seen⟩ := (Option.any_eq_true _ _).mp executed
  refine ⟨state, State.Reaches.schedule ran (State.Along.of_forall fun action member state => ?_), seen⟩
  have spared := Action.undisturbed.spares (List.all_eq_true.mp undisturbed action member) i
  cases action with
  | external writes => cases List.all_eq_true.mp undisturbed _ member
  | _ => exact spared

omit [DecidableEq ι] in
theorem Environment.undisturbed {action : Action commerce ι} (undisturbed : action.undisturbed = true) :
    Environment state action := by
  cases action with
  | external writes => cases undisturbed
  | _ => trivial

/-- In a quiet run a call keeps a promise that it keeps among calls alone. -/
theorem Quiet.promised {i : ι} {commits : Commits commerce ι} {post : Post commerce HttpException Response ι}
    (reached : State.Reaches (Quiet i) (shop.system sha256 calls) state)
    (safe : Safe commits (amongCalls calls) i post ((calls i).program sha256) none (shop.start ι))
    {result : Except (Failure HttpException) Response} (ended : (state.threads i).program = .done result) :
    post result (state.threads i).session state.world := by
  have valid := (shop.valid sha256 calls).among (fun _ _ _ => amongCalls.lawful) fun _ _ _ allowed => ⟨nofun, allowed⟩
  have promised := valid.promise (Safe.both (valid.sound i) safe)
  have kept := (State.Reaches.valid reached promised fun _ _ quiet => nomatch quiet).1.ended ended
  rw [Function.update_self] at kept
  exact kept.2

end BusinessPlatform
