import BusinessPlatform.Engine.Soundness

/-! CHECKs and foreign keys. In every state reached the rows that the threads have
stored meet their constraints, as far as their parents are in tables that nobody writes. -/

namespace BusinessPlatform.Engine
variable {S : Schema} {ε α β ι : Type} {m : S.Model} {still : S.Model → Bool} {base db : Database S}

/-- The row passes its CHECK, and its parents in the still tables exist. -/
structure Meets (still : S.Model → Bool) (base : Database S) (row : S.Row m) : Prop where
  checked : S.check row = true
  parents : ∀ parent ∈ S.parents row, still parent.1 = true → (base.get parent.1 parent.2).isSome = true

/-- The still tables are as they were. -/
def Stays (still : S.Model → Bool) (base db : Database S) : Prop := ∀ m, still m = true → db.table m = base.table m

/-- Nothing is written to a still table. -/
def Apart (still : S.Model → Bool) (writes : List (Write S)) : Prop := ∀ write ∈ writes, still write.model = false

theorem Apart.append {first second : List (Write S)} (apart : Apart still (first ++ second)) :
    Apart still first ∧ Apart still second :=
  ⟨fun write member => apart write (List.mem_append_left _ member), fun write member => apart write (List.mem_append_right _ member)⟩

theorem Stays.applyAll (stays : Stays still base db) {writes : List (Write S)} (apart : Apart still writes) :
    Stays still base (db.applyAll writes) := by
  intro m same
  refine (Database.applyAll_other _ fun write member model => ?_).trans (stays m same)
  rw [← model, apart write member] at same
  cases same

/-- The rows that are written meet their constraints. -/
def Fills (still : S.Model → Bool) (base : Database S) (writes : List (Write S)) : Prop :=
  ∀ (m : S.Model) (row : S.Row m), Write.put m row ∈ writes → Meets still base row

private theorem meets_of_constrain (stays : Stays still base db) {row : S.Row m} (admitted : constrain db row = .ok ()) :
    Meets still base row := by
  obtain ⟨_, checked, _, parents⟩ := constrain_iff.mp admitted
  refine ⟨checked, fun parent member same => ?_⟩
  have present := parents parent member
  rwa [Database.get, stays parent.1 same] at present

/-- A query that writes no still table stores rows that meet their constraints. -/
theorem Query.exec_fills {request : Query S β} {stamp clock : Nat} {order : List Nat} {outcome : Outcome S β}
    (executed : request.exec stamp clock order db = .ok outcome) (stays : Stays still base db)
    (apart : Apart still outcome.writes) : Fills still base outcome.writes := by
  have changed {γ : Type} {other : S.Model} {old : List (S.Row other)} {change : Change S other} {value : γ}
      {outcome : Outcome S γ} (executed : modified db old change value = .ok outcome) (apart : Apart still outcome.writes) :
      Fills still base outcome.writes := by
    obtain ⟨rfl, admitted⟩ := modified_admitted executed
    intro m row member
    obtain ⟨new, listed, same⟩ := List.mem_map.mp member
    cases same
    obtain ⟨before, inside, rfl⟩ := List.mem_map.mp listed
    exact meets_of_constrain (stays.applyAll apart) (admitted before inside)
  have deleted {other : S.Model} (old : List (S.Row other)) : Fills still base (old.flatMap (erases db)) := by
    intro m row member
    obtain ⟨parent, _, inside⟩ := List.mem_flatMap.mp member
    rw [erases, List.mem_cons, List.mem_flatMap] at inside
    rcases inside with same | ⟨child, _, listed⟩
    · cases same
    · obtain ⟨_, _, same⟩ := List.mem_map.mp listed
      cases same
  cases request with
  | find other filter | lock other filter =>
    cases executed
    exact fun _ _ => nofun
  | create other build =>
    obtain ⟨rfl, created⟩ := exec_create executed
    intro m row member
    cases List.mem_singleton.mp member
    refine ⟨created.checked, fun parent listed same => ?_⟩
    have present := created.parents parent listed
    rwa [Database.get, stays parent.1 same] at present
  | updateMany other filter change => exact changed executed apart
  | update other filter change =>
    simp only [exec] at executed
    split at executed
    next => cases executed
    next => exact changed executed apart
  | delete other filter =>
    obtain ⟨row, _, _, rfl⟩ := exec_delete executed
    simpa using deleted [row]
  | deleteMany other filter =>
    obtain rfl := exec_deleteMany executed
    exact deleted _

/-- What a statement commits, and what its session has written after it. -/
theorem Statement.perform_fills {world : World S ι} (order : List Nat) {session : Option (Transaction S)}
    (statement : Statement S β) (stays : Stays still base world.database)
    (pending : ∀ transaction, session = some transaction → Apart still transaction.writes → Fills still base transaction.writes) :
    (Apart still (statement.perform world order session).writes → Fills still base (statement.perform world order session).writes) ∧
      ∀ transaction, (statement.perform world order session).session = some transaction →
        Apart still transaction.writes → Fills still base transaction.writes := by
  have nothing : Fills still base ([] : List (Write S)) := fun _ _ => by simp
  cases statement with
  | start =>
    refine ⟨fun _ => nothing, fun transaction opened _ => ?_⟩
    cases opened
    exact nothing
  | rollback => exact ⟨fun _ => nothing, fun _ same => by cases same⟩
  | now => exact ⟨fun _ => nothing, pending⟩
  | commit =>
    refine ⟨fun apart => ?_, fun _ same => by cases same⟩
    cases session with
    | none => exact nothing
    | some transaction => exact pending transaction rfl apart
  | query request =>
    cases executed : request.exec world.trace.length world.clock order (world.view session) with
    | error error =>
      simp only [perform, executed]
      exact ⟨fun _ => nothing, pending⟩
    | ok outcome =>
      cases session with
      | none =>
        simp only [perform, executed]
        exact ⟨Query.exec_fills executed stays, by simp⟩
      | some transaction =>
        simp only [perform, executed]
        refine ⟨fun _ => nothing, fun larger same apart => ?_⟩
        cases same
        obtain ⟨earlier, last⟩ := apart.append
        have old := pending transaction rfl earlier
        have new := Query.exec_fills executed (stays.applyAll earlier) last
        intro m row member
        exact (List.mem_append.mp member).elim (old m row) (new m row)

/-- The rows of a state that the threads have stored, or are about to store. -/
structure State.Meets (still : S.Model → Bool) (base : Database S) (state : State S ε α ι) : Prop where
  stays : Stays still base state.world.database
  stored : ∀ m, still m = false → ∀ row ∈ (state.world.database.table m).rows, Engine.Meets still base row
  pending : ∀ i transaction, (state.threads i).session = some transaction → Apart still transaction.writes →
    Fills still base transaction.writes

theorem State.Meets.initial {programs : ι → Program S ε α} (empty : ∀ m, still m = false → (base.table m).rows = []) :
    (State.initial base programs).Meets still base :=
  ⟨fun _ _ => rfl, fun m own row member => by simp [State.initial, empty m own] at member, fun _ _ => nofun⟩

variable [DecidableEq ι] {rely : Guarantee S ι} {post : ι → Post S ε α ι} {state next : State S ε α ι}

private theorem State.Meets.thread {world : World S ι} {i : ι} {thread : Thread S ε α} {held : Lock S → Option ι}
    (stays : Stays still base world.database)
    (stored : ∀ m, still m = false → ∀ row ∈ (world.database.table m).rows, Engine.Meets still base row)
    (own : ∀ transaction, thread.session = some transaction → Apart still transaction.writes → Fills still base transaction.writes)
    (others : ∀ j transaction, (state.threads j).session = some transaction → Apart still transaction.writes →
      Fills still base transaction.writes) :
    State.Meets still base ⟨world, state.setThread i thread, held⟩ := by
  refine ⟨stays, stored, fun j transaction opened => ?_⟩
  by_cases same : j = i
  · subst same
    exact own transaction (by simpa [State.setThread] using opened)
  · exact others j transaction (by simpa [State.setThread, same] using opened)

omit [DecidableEq ι] in
private theorem Moves.recorded (moves : Moves rely state next) {label : Label S ι} {writes : List (Write S)}
    (recorded : next.world = state.world.record label writes) : Allowed (rely label.author) state.world writes := by
  have traced : next.world.trace = ⟨label, state.world.database, writes⟩ :: state.world.trace := by
    rw [recorded, World.record_trace]
  cases moves with
  | event other written same lawful =>
    rw [same, World.record_trace] at traced
    cases traced
    exact lawful
  | still same =>
    rw [same] at traced
    exact absurd traced (List.cons_ne_self _ _).symm
  | wait elapsed waited =>
    rw [waited] at traced
    exact absurd traced (List.cons_ne_self _ _).symm

theorem State.Meets.step (meets : state.Meets still base) (moves : Moves rely state next) {action : Action S ι}
    (internal : ∀ i world writes, rely (some i) world writes → Apart still writes)
    (alone : ∀ writes, action ≠ .external writes) (executed : state.step action = some next) : next.Meets still base := by
  cases action with
  | run i order =>
    simp only [State.step] at executed
    split at executed
    next => cases executed
    next β statement rest found =>
      split at executed
      next available =>
        cases executed
        obtain ⟨committed, own⟩ := statement.perform_fills order meets.stays (meets.pending i)
        have apart : Apart still (statement.perform state.world order (state.threads i).session).writes := by
          rcases moves.recorded rfl with nothing | lawful
          · rw [nothing]
            exact fun _ => by simp
          · exact internal i _ _ lawful
        refine State.Meets.thread (meets.stays.applyAll apart) (fun m own row member => ?_) own meets.pending
        rcases Database.get_found _ (Table.find_eq_some.mpr ⟨member, rfl⟩) with stored | there
        · exact committed apart m row (mem_putsOf.mp stored)
        · exact meets.stored m own row (Table.find_eq_some.mp there).1
      next => cases executed
  | fail i =>
    simp only [State.step] at executed
    split at executed
    next => cases executed
    next β statement rest found =>
      cases executed
      refine State.Meets.thread meets.stays meets.stored (fun transaction opened => ?_) meets.pending
      rcases statement.fail_session (state.threads i).session with closed | same
      · rw [closed] at opened
        cases opened
      · rw [same] at opened
        exact meets.pending i transaction opened
  | stop i =>
    simp only [State.step] at executed
    split at executed
    next => cases executed
    next =>
      cases executed
      exact State.Meets.thread meets.stays meets.stored (fun _ => by simp) meets.pending
  | external writes => exact absurd rfl (alone writes)
  | wait elapsed =>
    cases executed
    exact ⟨meets.stays, meets.stored, meets.pending⟩

/-- The constraints hold in every state reached, if nobody else commits. -/
theorem State.Reaches.meets {permitted : State S ε α ι → Action S ι → Prop} {start : State S ε α ι}
    (reached : State.Reaches permitted start state) (valid : Valid rely post start)
    (alone : ∀ state writes, ¬ permitted state (.external writes))
    (internal : ∀ i world writes, rely (some i) world writes → Apart still writes) (first : start.Meets still base) :
    state.Meets still base := by
  refine (State.Reaches.invariant (fun state => state.Meets still base) reached valid
    (fun state writes allowed => absurd allowed (alone state writes)) first ?_).2
  intro state next action _ meets allowed executed moves
  exact meets.step moves internal (fun writes same => alone state writes (same ▸ allowed)) executed

end BusinessPlatform.Engine
