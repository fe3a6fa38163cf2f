import BusinessPlatform.Engine.Sequential

/-! The evaluation of a call that runs alone. Every statement is executed, scans list
their rows in the order of the table, and the clock stands still. -/

namespace BusinessPlatform.Engine
variable {S : Schema} {ε α β ι : Type}

/-- The committed rows, the number of statements so far and the time. -/
structure Moment (S : Schema) where
  database : Database S
  stamp : Nat
  clock : Nat

/-- The writes of an open transaction. -/
abbrev Pending (S : Schema) : Type := Option (List (Write S))

namespace Moment

def ticks (moment : Moment S) (statements : Nat) : Moment S := { moment with stamp := moment.stamp + statements }

def tick (moment : Moment S) : Moment S := moment.ticks 1

theorem ticks_ticks (moment : Moment S) (first second : Nat) :
    (moment.ticks first).ticks second = moment.ticks (first + second) := by
  simp only [ticks, Nat.add_assoc]

theorem tick_ticks (moment : Moment S) (statements : Nat) : moment.tick.ticks statements = moment.ticks (statements + 1) := by
  simp only [tick, ticks, Nat.add_assoc, Nat.add_comm 1]

def commit (moment : Moment S) (writes : List (Write S)) : Moment S :=
  { moment with database := moment.database.applyAll writes }

/-- What a session sees. -/
def view (moment : Moment S) (pending : Pending S) : Database S := moment.database.applyAll (pending.getD [])

end Moment

/-- The reply to a statement, the open transaction and the moment after it. -/
def Statement.effect (pending : Pending S) (moment : Moment S) :
    Statement S β → Except DatabaseError β × Pending S × Moment S
  | .start => (.ok (), some [], moment.tick)
  | .commit => (.ok (), none, (moment.commit (pending.getD [])).tick)
  | .rollback => (.ok (), none, moment.tick)
  | .now => (.ok moment.clock, pending, moment.tick)
  | .query request =>
    match request.exec moment.stamp moment.clock [] (moment.view pending) with
    | .error error => (.error error, pending, moment.tick)
    | .ok outcome =>
      match pending with
      | none => (.ok outcome.value, none, (moment.commit outcome.writes).tick)
      | some writes => (.ok outcome.value, some (writes ++ outcome.writes), moment.tick)

/-- The result of a program, its session and the moment of its end. -/
def Program.evaluate : Program S ε α → Pending S → Moment S → Except (Failure ε) α × Pending S × Moment S
  | .done result, pending, moment => (result, pending, moment)
  | .call statement next, pending, moment =>
    let effect := statement.effect pending moment
    (next effect.1).evaluate effect.2.1 effect.2.2

def World.moment (world : World S ι) : Moment S := ⟨world.database, world.trace.length, world.clock⟩

theorem Statement.perform_effect (statement : Statement S β) (world : World S ι) (session : Option (Transaction S))
    (label : Label S ι) :
    statement.effect (session.map Transaction.writes) world.moment =
      ((statement.perform world [] session).result, (statement.perform world [] session).session.map Transaction.writes,
        (world.record label (statement.perform world [] session).writes).moment) := by
  cases statement with
  | start | rollback | now => rfl
  | commit => cases session <;> rfl
  | query request =>
    have view : world.moment.view (session.map Transaction.writes) = world.view session := rfl
    simp only [effect, perform, view]
    change (match request.exec world.trace.length world.clock [] (world.view session) with | .error _ => _ | .ok _ => _) = _
    cases request.exec world.trace.length world.clock [] (world.view session) with
    | error error => rfl
    | ok outcome => cases session <;> rfl

/-- The next statement is executed, and its rows are listed in the order of the table. -/
def InOrder (_ : State S ε α Unit) (action : Action S Unit) : Prop := action = .run () []

/-- What remains of a call evaluates to what the whole call does. -/
private def Remains (ending : Except (Failure ε) α × Pending S × Moment S) (state : State S ε α Unit) : Prop :=
  (state.threads ()).program.evaluate ((state.threads ()).session.map Transaction.writes) state.world.moment = ending

private theorem step_inOrder {state : State S ε α Unit} {ending : Except (Failure ε) α × Pending S × Moment S} {statement : Statement S β}
    {next : Except DatabaseError β → Program S ε α} (running : (state.threads ()).program = .call statement next)
    (remains : Remains ending state) :
    ∃ after, state.step (.run () []) = some after ∧ Remains ending after ∧
      (after.threads ()).program = next (statement.perform state.world [] (state.threads ()).session).result := by
  have available (locks : List (Lock S)) : state.available (some ()) locks = true := by
    simp only [State.available, List.all_eq_true, Bool.or_eq_true, decide_eq_true_eq]
    intro lock _
    cases state.held lock with
    | none => exact .inl rfl
    | some => exact .inr rfl
  refine ⟨_, by simp only [State.step, running, available, if_true]; rfl, ?_, ?_⟩
  · rw [Remains, running, Program.evaluate] at remains
    rw [statement.perform_effect state.world (state.threads ()).session
      ⟨some (), statement.access, (statement.perform state.world [] (state.threads ()).session).listed,
        (state.threads ()).session.isSome⟩] at remains
    simpa [Remains, State.setThread] using remains
  · simp [State.setThread]

/-- A call that runs alone and in order ends as it is evaluated, and in no other way. -/
theorem Program.evaluate_iff {world : World S Unit} {program : Program S ε α} {result : Except (Failure ε) α}
    {database : Database S} :
    (∃ state, State.Reaches InOrder (State.alone world program) state ∧ (state.threads ()).program = .done result ∧
      state.world.database = database) ↔
      (program.evaluate none world.moment).1 = result ∧ (program.evaluate none world.moment).2.2.database = database := by
  constructor
  · rintro ⟨state, reached, ended, rfl⟩
    have remains : Remains (program.evaluate none world.moment) state := by
      clear ended
      induction reached with
      | here => rfl
      | @step state next action reached allowed executed ih =>
        cases allowed
        cases running : (state.threads ()).program with
        | done result => simp [State.step, running] at executed
        | call statement rest =>
          obtain ⟨after, stepped, remains, _⟩ := step_inOrder running ih
          cases stepped.symm.trans executed
          exact remains
    rw [Remains, ended, evaluate] at remains
    rw [← remains]
    exact ⟨rfl, rfl⟩
  · rintro ⟨rfl, rfl⟩
    have runs (program : Program S ε α) (state : State S ε α Unit) (running : (state.threads ()).program = program)
        (ending : Except (Failure ε) α × Pending S × Moment S) (remains : Remains ending state) :
        ∃ last, State.Reaches InOrder state last ∧ (last.threads ()).program = .done ending.1 ∧
          last.world.database = ending.2.2.database := by
      induction program generalizing state with
      | done result =>
        rw [Remains, running, evaluate] at remains
        subst remains
        exact ⟨state, .here, running, rfl⟩
      | call statement next ih =>
        obtain ⟨after, stepped, remains, going⟩ := step_inOrder running remains
        obtain ⟨last, reached, ended⟩ := ih _ after going remains
        exact ⟨last, (State.Reaches.here.step _ rfl stepped).trans reached, ended⟩
    exact runs program _ rfl _ rfl

namespace Program

/-- The program returns a value of which the postcondition holds. -/
def Succeeds (program : Program S ε α) (pending : Pending S) (moment : Moment S)
    (post : α → Pending S → Moment S → Prop) : Prop :=
  match program.evaluate pending moment with
  | (.ok value, after, later) => post value after later
  | (.error _, _, _) => False

variable {pending : Pending S} {moment : Moment S} {post : α → Pending S → Moment S → Prop} {writes : List (Write S)}
  {m : S.Model}

theorem succeeds_iff {program : Program S ε α} : program.Succeeds pending moment post ↔
    ∃ value, (program.evaluate pending moment).1 = .ok value ∧
      post value (program.evaluate pending moment).2.1 (program.evaluate pending moment).2.2 := by
  rw [Succeeds]
  rcases program.evaluate pending moment with ⟨_ | value, after, later⟩ <;> simp

@[simp] theorem succeeds_done {value : α} :
    (done (.ok value) : Program S ε α).Succeeds pending moment post ↔ post value pending moment := Iff.rfl

@[simp] theorem succeeds_pure {value : α} :
    (pure value : Program S ε α).Succeeds pending moment post ↔ post value pending moment := Iff.rfl

@[simp] theorem succeeds_failed {failure : Failure ε} :
    ¬ (done (.error failure) : Program S ε α).Succeeds pending moment post := id

theorem succeeds_bind {program : Program S ε α} {next : α → Program S ε β} {post : β → Pending S → Moment S → Prop} :
    (program >>= next).Succeeds pending moment post ↔
      program.Succeeds pending moment fun value after later => (next value).Succeeds after later post := by
  change (program.bind next).Succeeds pending moment post ↔ _
  induction program generalizing pending moment with
  | done result => cases result <;> rfl
  | call statement rest ih => exact ih _

theorem succeeds_throwIf {condition : Bool} {exception : ε} {post : Unit → Pending S → Moment S → Prop} :
    (throwIf condition exception).Succeeds pending moment post ↔ condition = false ∧ post () pending moment := by
  cases condition with
  | true => exact ⟨False.elim, nofun⟩
  | false => exact ⟨fun holds => ⟨rfl, holds⟩, And.right⟩

theorem succeeds_orThrow {value : Option α} {exception : ε} :
    (orThrow value exception).Succeeds pending moment post ↔ ∃ found, value = some found ∧ post found pending moment := by
  cases value with
  | none => exact ⟨False.elim, nofun⟩
  | some found => exact ⟨fun holds => ⟨found, rfl, holds⟩, fun ⟨_, same, holds⟩ => Option.some.inj same ▸ holds⟩

theorem succeeds_ofExcept {result : Except ε α} :
    (ofExcept result).Succeeds pending moment post ↔ ∃ value, result = .ok value ∧ post value pending moment := by
  cases result with
  | error exception => exact ⟨False.elim, nofun⟩
  | ok value => exact ⟨fun holds => ⟨value, rfl, holds⟩, fun ⟨_, same, holds⟩ => Except.ok.inj same ▸ holds⟩

theorem succeeds_findMany {filter : S.Row m → Bool} {post : List (S.Row m) → Pending S → Moment S → Prop} :
    (findMany m filter : Program S ε (List (S.Row m))).Succeeds pending moment post ↔
      post (((moment.view pending).table m).rows.filter filter) pending moment.tick := by
  cases pending with
  | none => exact Iff.rfl
  | some writes =>
    simp only [findMany, send, Succeeds, evaluate, Statement.effect, Query.exec, arrange]
    rw [List.append_nil]

theorem succeeds_findFirst {filter : S.Row m → Bool} {post : Option (S.Row m) → Pending S → Moment S → Prop} :
    (findFirst m filter : Program S ε (Option (S.Row m))).Succeeds pending moment post ↔
      post (((moment.view pending).table m).rows.find? filter) pending moment.tick := by
  rw [findFirst, succeeds_bind, succeeds_findMany, succeeds_pure, List.head?_filter]

theorem succeeds_create {build : Nat → Nat → S.Row m} {post : S.Row m → Pending S → Moment S → Prop} :
    (create m build : Program S ε (S.Row m)).Succeeds (some writes) moment post ↔
      (moment.view (some writes)).get m (S.key (build moment.stamp moment.clock)) = none ∧
        constrain (moment.view (some writes)) (build moment.stamp moment.clock) = .ok () ∧
        post (build moment.stamp moment.clock) (some (writes ++ [.put m (build moment.stamp moment.clock)])) moment.tick := by
  simp only [create, send, Succeeds, evaluate, Statement.effect, Query.exec]
  cases (moment.view (some writes)).get m (S.key (build moment.stamp moment.clock)) with
  | some row => simp [evaluate]
  | none =>
    cases constrain (moment.view (some writes)) (build moment.stamp moment.clock) with
    | error error => simp [evaluate]
    | ok _ => simp [evaluate]

theorem succeeds_transaction {body : Program S ε α} : (transaction body).Succeeds none moment post ↔
    body.Succeeds (some []) moment.tick fun value pending later => post value none (later.commit (pending.getD [])).tick := by
  have finish (body : Program S ε α) (pending : Pending S) (moment : Moment S) : body.finish.Succeeds pending moment post ↔
      body.Succeeds pending moment fun value pending later => post value none (later.commit (pending.getD [])).tick := by
    induction body generalizing pending moment with
    | done result => cases result <;> exact Iff.rfl
    | call statement rest ih => exact ih _ _ _
  exact finish body _ _

/-- A guarded update of the one row with a key, inside a transaction. -/
theorem succeeds_guarded {filter : S.Row m → Bool} {change : Change S m} {k : S.Key m} {exception : ε}
    {post : Unit → Pending S → Moment S → Prop} (only : ∀ row, filter row = true → S.key row = k) :
    (do let count ← updateMany m filter change; throwIf (count = 0) exception : Program S ε Unit).Succeeds
        (some writes) moment post ↔
      ∃ row, (moment.view (some writes)).get m k = some row ∧ filter row = true ∧
        constrain ((moment.view (some writes)).applyAll [.put m (change.apply row)]) (change.apply row) = .ok () ∧
        post () (some (writes ++ [.put m (change.apply row)])) moment.tick := by
  simp only [succeeds_bind, succeeds_throwIf]
  simp only [updateMany, send, Succeeds, evaluate, Statement.effect, Query.exec, modified]
  rcases ((moment.view (some writes)).table m).filter_key only with ⟨nothing, absent⟩ | ⟨row, found, matched, listed⟩
  · rw [nothing]
    simp only [List.map_nil, constrainAll, evaluate]
    constructor
    · intro holds
      simp at holds
    · rintro ⟨row, found, matched, _⟩
      cases (absent row found).symm.trans matched
  · rw [listed]
    simp only [List.map_cons, List.map_nil, constrainAll]
    have one (other : S.Row m) (also : (moment.view (some writes)).get m k = some other) : other = row :=
      Option.some.inj (also.symm.trans found)
    cases held : constrain ((moment.view (some writes)).applyAll [.put m (change.apply row)]) (change.apply row) with
    | error error =>
      simp only [evaluate]
      refine ⟨False.elim, ?_⟩
      rintro ⟨other, also, _, admitted, _⟩
      cases one other also
      cases held.symm.trans admitted
    | ok _ =>
      simp only [evaluate]
      refine ⟨fun holds => ⟨row, found, matched, held, holds.2⟩, ?_⟩
      rintro ⟨other, also, _, _, holds⟩
      cases one other also
      exact ⟨by simp, holds⟩

end Program
end BusinessPlatform.Engine
