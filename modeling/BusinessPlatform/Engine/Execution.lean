import BusinessPlatform.Engine.Program

/-! Concurrent execution at READ COMMITTED. Every statement is one atomic step.
A transaction reads committed rows and its own writes; its writes reach the
database when it commits, and the rows they touch stay locked until then. A
statement that needs a lock of another session has to wait. -/

namespace BusinessPlatform.Engine
variable {S : Schema} {ε α β ι : Type}

/-- An open transaction: its pending writes and the locks it has taken. -/
structure Transaction (S : Schema) where
  writes : List (Write S) := []
  locks : List (Lock S) := []

/-- Who sent a statement, what it accessed, which rows it was given and whether
a transaction was open. -/
structure Label (S : Schema) (ι : Type) where
  author : Option ι := none
  access : Option (S.Model × Operation) := none
  listed : List ((m : S.Model) × S.Row m) := []
  inside : Bool := false

/-- The rows of one model among those that a statement was given. -/
def Label.rows (label : Label S ι) (m : S.Model) : List (S.Row m) :=
  label.listed.filterMap fun row => if same : row.1 = m then some (same ▸ row.2) else none

theorem Label.rows_of {label : Label S ι} {m : S.Model} {rows : List (S.Row m)}
    (listed : label.listed = rows.map (Sigma.mk m)) : label.rows m = rows := by
  simp [Label.rows, listed, List.filterMap_map]

/-- One executed statement with the committed database it ran on and the
writes it committed. -/
structure Event (S : Schema) (ι : Type) extends Label S ι where
  before : Database S
  writes : List (Write S)

structure World (S : Schema) (ι : Type) where
  database : Database S
  trace : List (Event S ι) := []
  clock : Nat := 0

namespace World

def record (world : World S ι) (label : Label S ι) (writes : List (Write S)) : World S ι :=
  { world with
    database := world.database.applyAll writes
    trace := ⟨label, world.database, writes⟩ :: world.trace }

def wait (world : World S ι) (elapsed : Nat) : World S ι :=
  { world with clock := world.clock + elapsed }

/-- What a session sees: the committed rows under its own pending writes. -/
def view (world : World S ι) (session : Option (Transaction S)) : Database S :=
  world.database.applyAll ((session.map Transaction.writes).getD [])

end World

structure Reply (S : Schema) (β : Type) where
  result : Except DatabaseError β
  listed : List ((m : S.Model) × S.Row m)
  session : Option (Transaction S)
  writes : List (Write S)
  locks : List (Lock S)

namespace Statement

/-- The effect of a statement in its session. `writes` are those it commits,
`locks` those it must be able to take. -/
def perform (world : World S ι) (order : List Nat) (session : Option (Transaction S)) :
    Statement S β → Reply S β
  | .start => ⟨.ok (), [], some {}, [], []⟩
  | .commit => ⟨.ok (), [], none, (session.map Transaction.writes).getD [], []⟩
  | .rollback => ⟨.ok (), [], none, [], []⟩
  | .now => ⟨.ok world.clock, [], session, [], []⟩
  | .query request =>
    match request.exec world.trace.length world.clock order (world.view session) with
    | .error error => ⟨.error error, [], session, [], []⟩
    | .ok outcome =>
      match session with
      | none => ⟨.ok outcome.value, outcome.listed, none, outcome.writes, outcome.locks⟩
      | some transaction =>
        ⟨.ok outcome.value, outcome.listed,
          some ⟨transaction.writes ++ outcome.writes, transaction.locks ++ outcome.locks⟩, [], outcome.locks⟩

/-- The session after a statement that the engine could not execute; a failed
commit has rolled back. -/
def fail (session : Option (Transaction S)) : Statement S β → Option (Transaction S)
  | .commit | .rollback => none
  | _ => session

end Statement

structure Thread (S : Schema) (ε α : Type) where
  program : Program S ε α
  session : Option (Transaction S) := none

structure State (S : Schema) (ε α ι : Type) where
  world : World S ι
  threads : ι → Thread S ε α
  held : Lock S → Option ι

/-- A step of the system: a thread executes its next statement, the engine
fails that statement, the thread's process stops, somebody else commits writes,
or time passes. -/
inductive Action (S : Schema) (ι : Type) where
  | run (thread : ι) (order : List Nat)
  | fail (thread : ι)
  | stop (thread : ι)
  | external (writes : List (Write S))
  | wait (elapsed : Nat)

namespace State
variable [DecidableEq ι]

def initial (database : Database S) (programs : ι → Program S ε α) : State S ε α ι :=
  ⟨{ database }, fun i => { program := programs i }, fun _ => none⟩

def finished (state : State S ε α ι) (i : ι) : Prop :=
  ∃ result, (state.threads i).program = .done result

instance (state : State S ε α ι) (i : ι) : Decidable (state.finished i) :=
  match program : (state.threads i).program with
  | .done result => isTrue ⟨result, program⟩
  | .call _ _ => isFalse fun ⟨_, done⟩ => nomatch program.symm.trans done

/-- The thread has ended without a value. -/
def failed (state : State S ε α ι) (i : ι) : Prop :=
  ∃ failure, (state.threads i).program = .done (.error failure)

instance (state : State S ε α ι) (i : ι) : Decidable (state.failed i) :=
  match program : (state.threads i).program with
  | .done (.error failure) => isTrue ⟨failure, program⟩
  | .done (.ok _) | .call _ _ => isFalse fun ⟨_, done⟩ => nomatch program.symm.trans done

/-- What the thread has ended with. -/
def answer (state : State S ε α ι) (i : ι) : Option (Except (Failure ε) α) :=
  match (state.threads i).program with
  | .done result => some result
  | .call .. => none

omit [DecidableEq ι] in
theorem answer_some {state : State S ε α ι} {i : ι} {result : Except (Failure ε) α}
    (answered : state.answer i = some result) : (state.threads i).program = .done result := by
  unfold answer at answered
  split at answered
  next ended => rw [ended, Option.some.inj answered]
  next => cases answered

def setThread (state : State S ε α ι) (i : ι) (thread : Thread S ε α) : ι → Thread S ε α :=
  Function.update state.threads i thread

/-- Locks are kept while a transaction is open and released with it. -/
def setHeld (state : State S ε α ι) (i : ι) (session : Option (Transaction S)) (locks : List (Lock S)) :
    Lock S → Option ι := fun lock =>
  match session with
  | none => if state.held lock = some i then none else state.held lock
  | some _ => if lock ∈ locks then some i else state.held lock

def available (state : State S ε α ι) (i : Option ι) (locks : List (Lock S)) : Bool :=
  locks.all fun lock => decide (state.held lock = none) || decide (state.held lock = i)

def step (state : State S ε α ι) : Action S ι → Option (State S ε α ι)
  | .run i order =>
    match (state.threads i).program with
    | .done _ => none
    | .call statement next =>
      let session := (state.threads i).session
      let reply := statement.perform state.world order session
      if state.available (some i) reply.locks then
        some
          ⟨state.world.record ⟨some i, statement.access, reply.listed, session.isSome⟩ reply.writes,
            state.setThread i ⟨next reply.result, reply.session⟩, state.setHeld i reply.session reply.locks⟩
      else none
  | .fail i =>
    match (state.threads i).program with
    | .done _ => none
    | .call statement next =>
      let session := (state.threads i).session
      some
        ⟨state.world, state.setThread i ⟨next (.error .engine), statement.fail session⟩,
          state.setHeld i (statement.fail session) []⟩
  | .stop i =>
    match (state.threads i).program with
    | .done _ => none
    | .call _ _ =>
      some ⟨state.world, state.setThread i ⟨.done (.error .stopped), none⟩, state.setHeld i none []⟩
  | .external writes =>
    if state.available none (writes.flatMap Write.locks) then
      some { state with world := state.world.record {} writes }
    else none
  | .wait elapsed => some { state with world := state.world.wait elapsed }

/-- Execute a schedule; it fails at the first action that is not enabled. -/
def run (state : State S ε α ι) : List (Action S ι) → Option (State S ε α ι)
  | [] => some state
  | action :: rest =>
    match state.step action with
    | some next => next.run rest
    | none => none

/-- The states that steps allowed by `permitted` lead to. -/
inductive Reaches (permitted : State S ε α ι → Action S ι → Prop) (start : State S ε α ι) :
    State S ε α ι → Prop where
  | here : Reaches permitted start start
  | step {state next : State S ε α ι} (action : Action S ι) (reached : Reaches permitted start state)
      (allowed : permitted state action) (executed : state.step action = some next) :
      Reaches permitted start next

end State
end BusinessPlatform.Engine
