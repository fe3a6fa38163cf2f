import BusinessPlatform.Engine.Soundness
import BusinessPlatform.Engine.Stability

/-! Calls one after another. Each runs alone from its first statement to its end;
the engine may still fail its statements, its process may stop, and time passes. -/

namespace BusinessPlatform.Engine
variable {S : Schema} {ε α κ : Type}

/-- A call before its first statement, with nobody else around. -/
def State.alone (world : World S Unit) (program : Program S ε α) : State S ε α Unit :=
  ⟨world, fun _ => { program }, fun _ => none⟩

/-- Nobody else commits. -/
def Undisturbed (_ : State S ε α Unit) (action : Action S Unit) : Prop := ∀ writes, action ≠ .external writes

/-- A call that has run alone from a world to a state. -/
abbrev RunsAlone (world : World S Unit) (program : Program S ε α) (state : State S ε α Unit) : Prop :=
  State.Reaches Undisturbed (State.alone world program) state

/-- Calls with their results, the last one first, and the world that they leave. -/
inductive Sequence (program : κ → Program S ε α) (start : World S Unit) :
    List (κ × Except (Failure ε) α) → World S Unit → Prop where
  | nil : Sequence program start [] start
  | cons {earlier : List (κ × Except (Failure ε) α)} {world : World S Unit} (call : κ) (state : State S ε α Unit)
      (result : Except (Failure ε) α) (before : Sequence program start earlier world)
      (ran : RunsAlone world (program call) state) (ended : (state.threads ()).program = .done result) :
      Sequence program start ((call, result) :: earlier) state.world

/-- Rows of any origin, before any statement of a call. Keys from `stamp` on are new. -/
def World.opened {ι : Type} (database : Database S) (stamp clock : Nat) : World S ι :=
  ⟨database, List.replicate stamp ⟨{}, database, []⟩, clock⟩

theorem World.opened_author {ι : Type} {database : Database S} {stamp clock : Nat} {event : Event S ι}
    (member : event ∈ (World.opened database stamp clock).trace) : event.author = none := by
  rw [List.eq_of_mem_replicate member]

theorem World.own_opened {ι : Type} [DecidableEq ι] (database : Database S) (stamp clock : Nat) (i : ι) :
    (World.opened database stamp clock).own i = [] := by
  refine List.map_eq_nil_iff.mpr (List.filter_eq_nil_iff.mpr fun event member => ?_)
  simp [World.opened_author member]

/-- Threads over rows of any origin, before any statement. -/
def State.opened {ι : Type} (database : Database S) (stamp clock : Nat) (programs : ι → Program S ε α) : State S ε α ι :=
  ⟨World.opened database stamp clock, fun i => { program := programs i }, fun _ => none⟩

theorem Valid.opened {ι : Type} [DecidableEq ι] {rely : Guarantee S ι} {post : ι → Post S ε α ι} {database : Database S}
    {stamp clock : Nat} {programs : ι → Program S ε α}
    (safe : ∀ i, Safe (rely (some i)) rely i (post i) (programs i) none (World.opened database stamp clock)) :
    Valid rely post (State.opened database stamp clock programs) :=
  ⟨safe, nofun, nofun⟩

/-- The result of a call that runs alone, and the world that it leaves. -/
def World.execute (program : Program S ε α) (steps : Nat) (world : World S Unit) :
    Option (Except (Failure ε) α × World S Unit) :=
  ((State.alone world program).run (List.replicate steps (.run () []))).bind fun state =>
    match (state.threads ()).program with
    | .done result => some (result, state.world)
    | _ => none

/-- Calls with the number of their statements, the last one first. -/
def World.executeAll (program : κ → Program S ε α) :
    List (κ × Nat) → World S Unit → Option (List (κ × Except (Failure ε) α) × World S Unit)
  | [], world => some ([], world)
  | (call, steps) :: earlier, world => do
    let (results, world) ← world.executeAll program earlier
    let (result, world) ← world.execute (program call) steps
    some ((call, result) :: results, world)

theorem RunsAlone.executed {program : Program S ε α} {steps : Nat} {world after : World S Unit}
    {result : Except (Failure ε) α} (executed : world.execute program steps = some (result, after)) :
    ∃ state, RunsAlone world program state ∧ (state.threads ()).program = .done result ∧ state.world = after := by
  obtain ⟨state, ran, ended⟩ := Option.bind_eq_some_iff.mp executed
  refine ⟨state, State.Reaches.schedule ran (State.Along.of_forall ?_), ?_⟩
  · intro action member state writes same
    cases (List.eq_of_mem_replicate member).symm.trans same
  · split at ended
    next known =>
      cases ended
      exact ⟨known, rfl⟩
    next => cases ended

theorem Sequence.executed {program : κ → Program S ε α} {calls : List (κ × Nat)} {start world : World S Unit}
    {results : List (κ × Except (Failure ε) α)} (executed : start.executeAll program calls = some (results, world)) :
    Sequence program start results world := by
  induction calls generalizing results world with
  | nil =>
    cases executed
    exact .nil
  | cons call earlier ih =>
    obtain ⟨⟨before, middle⟩, first, rest⟩ := Option.bind_eq_some_iff.mp executed
    obtain ⟨⟨result, after⟩, last, same⟩ := Option.bind_eq_some_iff.mp rest
    cases same
    obtain ⟨state, ran, ended, rfl⟩ := RunsAlone.executed last
    exact .cons call.1 state result (ih first) ran ended

/-- Worlds that differ in their past only. -/
structure World.Alike {ι : Type} (first second : World S ι) : Prop where
  database : first.database = second.database
  clock : first.clock = second.clock
  stamp : first.trace.length = second.trace.length

structure State.Alike (first second : State S ε α Unit) : Prop where
  world : first.world.Alike second.world
  threads : first.threads = second.threads
  held : first.held = second.held

theorem World.Alike.record {ι : Type} {first second : World S ι} (alike : first.Alike second) (label : Label S ι)
    (writes : List (Write S)) : (first.record label writes).Alike (second.record label writes) := by
  refine ⟨?_, alike.clock, ?_⟩
  · rw [World.record_database, World.record_database, alike.database]
  · rw [World.record_trace, World.record_trace, List.length_cons, List.length_cons, alike.stamp]

theorem Statement.perform_alike {ι β : Type} {first second : World S ι} (alike : first.Alike second) (order : List Nat)
    (session : Option (Transaction S)) (statement : Statement S β) :
    statement.perform first order session = statement.perform second order session := by
  cases statement with
  | start | commit | rollback => rfl
  | now => simp only [perform, alike.clock]
  | query request => simp only [perform, World.view, alike.database, alike.clock, alike.stamp]

theorem State.Alike.step {state other next : State S ε α Unit} (alike : state.Alike other) {action : Action S Unit}
    (executed : state.step action = some next) : ∃ twin, other.step action = some twin ∧ next.Alike twin := by
  obtain ⟨world, threads, held⟩ := state
  obtain ⟨world', threads', held'⟩ := other
  obtain ⟨alike, rfl, rfl⟩ := alike
  cases action with
  | run i order =>
    simp only [State.step] at executed ⊢
    split at executed
    next => cases executed
    next β statement rest found =>
      rw [← statement.perform_alike alike]
      split at executed
      next available =>
        cases executed
        have free : State.available (⟨world', threads, held⟩ : State S ε α Unit) (some i)
            (statement.perform world order (threads i).session).locks = true := available
        rw [if_pos free]
        exact ⟨_, rfl, alike.record _ _, rfl, rfl⟩
      next => cases executed
  | fail i | stop i =>
    simp only [State.step] at executed ⊢
    split at executed
    next => cases executed
    next =>
      cases executed
      exact ⟨_, rfl, alike, rfl, rfl⟩
  | external writes =>
    simp only [State.step] at executed ⊢
    split at executed
    next available =>
      cases executed
      have free : State.available (⟨world', threads, held⟩ : State S ε α Unit) none (writes.flatMap Write.locks) = true :=
        available
      rw [if_pos free]
      exact ⟨_, rfl, alike.record _ _, rfl, rfl⟩
    next => cases executed
  | wait elapsed =>
    cases executed
    exact ⟨_, rfl, ⟨alike.database, by rw [World.wait, World.wait, alike.clock], alike.stamp⟩, rfl, rfl⟩

/-- A call does the same on these rows whatever has happened before. -/
theorem RunsAlone.rebased {world : World S Unit} {program : Program S ε α} {state : State S ε α Unit}
    (ran : RunsAlone world program state) :
    ∃ twin, RunsAlone (World.opened world.database world.trace.length world.clock) program twin ∧ state.Alike twin := by
  induction ran with
  | here => exact ⟨_, .here, ⟨rfl, rfl, by simp [State.alone, World.opened]⟩, rfl, rfl⟩
  | step action reached allowed executed ih =>
    obtain ⟨twin, ran, alike⟩ := ih
    obtain ⟨after, again, same⟩ := alike.step executed
    exact ⟨after, .step action ran allowed again, same⟩

/-- What every call that runs alone keeps of the rows is kept by a sequence of calls. -/
theorem Sequence.database {program : κ → Program S ε α} {start world : World S Unit}
    {results : List (κ × Except (Failure ε) α)} (sequence : Sequence program start results world)
    (holds : Database S → Prop) (first : holds start.database)
    (keeps : ∀ call db stamp clock state, holds db → RunsAlone (World.opened db stamp clock) (program call) state →
      holds state.world.database) : holds world.database := by
  induction sequence with
  | nil => exact first
  | cons call state result before ran ended ih =>
    obtain ⟨twin, again, alike⟩ := ran.rebased
    rw [alike.world.database]
    exact keeps call _ _ _ twin ih again

/-- Others commit nothing. -/
def Alone : Guarantee S Unit := fun author _ _ => author ≠ none

/-- The call commits only what is acceptable, and others nothing. -/
def aloneWith (commits : Commits S Unit) : Guarantee S Unit := fun author world writes => author ≠ none ∧ commits world writes

variable {before after world : World S Unit} {locks : List (Lock S)} {commits : Commits S Unit} {post : Post S ε α Unit}
  {program : Program S ε α} {state : State S ε α Unit}

private theorem Interferes.alone (step : Interferes Alone () locks before after) : after.database = before.database := by
  cases step with
  | event label writes other lawful apart =>
    rcases lawful with rfl | known
    · rfl
    · obtain ⟨author, known⟩ := Option.ne_none_iff_exists'.mp known
      exact absurd known other
  | wait elapsed => rfl

/-- Between two commits of a call that runs alone the rows stay as they are. -/
theorem Idle.alone (idle : Idle Alone () before after) : after.database = before.database := by
  induction idle with
  | refl => rfl
  | tail earlier step ih =>
    rw [← ih]
    cases step with
    | other step => exact step.alone
    | empty label => rfl

theorem Later.alone (later : Later Alone () locks before after) : after.database = before.database :=
  Idle.alone (Later.idle later)

theorem RunsAlone.valid (ran : RunsAlone world program state) (safe : Safe commits Alone () post program none world) :
    Valid (aloneWith commits) (fun _ => post) state ∧ Grows (aloneWith commits) world state.world := by
  refine State.Reaches.valid ran ⟨fun _ => ?_, nofun, nofun⟩ fun state writes undisturbed => absurd rfl (undisturbed writes)
  refine Safe.permit (Safe.among safe fun _ _ _ => And.left) fun _ _ acceptable => ⟨nofun, acceptable⟩

/-- The one commit of a call, with the world that it was made in. -/
structure Committed (commits : Commits S Unit) (start world : World S Unit) (middle : World S Unit)
    (writes : List (Write S)) : Prop where
  acceptable : commits middle writes
  database : middle.database = start.database
  before : ∀ event ∈ middle.trace, event.author = some () → event.before = start.database
  own : world.own () = [writes]
  after : world.database = start.database.applyAll writes

/-- A call that commits at most once, and runs alone, leaves the rows as they were or
commits everything to them at once. -/
theorem Grows.once {start : World S Unit} (grows : Grows (aloneWith commits) start world)
    (new : ∀ event ∈ start.trace, event.author = none)
    (once : ∀ middle writes, commits middle writes → middle.own () = [] ∧ writes ≠ []) :
    world.own () = [] ∧ world.database = start.database ∨ ∃ middle writes, Committed commits start world middle writes := by
  have first : start.own () = [] := by
    refine List.map_eq_nil_iff.mpr (List.filter_eq_nil_iff.mpr fun event member => ?_)
    simp [new event member]
  have invariant : (world.own () = [] ∧ world.database = start.database ∧
      ∀ event ∈ world.trace, event.author = some () → event.before = start.database) ∨
        ∃ middle writes, Committed commits start world middle writes := by
    refine Grows.invariant (fun world => (world.own () = [] ∧ world.database = start.database ∧
      ∀ event ∈ world.trace, event.author = some () → event.before = start.database) ∨
        ∃ middle writes, Committed commits start world middle writes) grows
      (.inl ⟨first, rfl, fun event member author => ?_⟩) ?_ ?_ ?_
    · cases (new event member).symm.trans author
    · rintro world label writes _ (⟨own, database, before⟩ | ⟨middle, earlier, committed⟩) ⟨author, acceptable⟩
      · obtain ⟨⟨⟩, author⟩ := Option.ne_none_iff_exists'.mp author
        refine .inr ⟨world, writes, acceptable, database, before, ?_, ?_⟩
        · exact World.own_record_same own author (once _ _ acceptable).2
        · rw [World.record_database, database]
      · cases committed.own.symm.trans (once _ _ acceptable).1
    · rintro world label (⟨own, database, before⟩ | ⟨middle, writes, committed⟩)
      · refine .inl ⟨(World.own_record_empty ..).trans own, database, fun event member author => ?_⟩
        rcases List.mem_cons.mp member with rfl | earlier
        · exact database
        · exact before event earlier author
      · exact .inr ⟨middle, writes, { committed with own := (World.own_record_empty ..).trans committed.own }⟩
    · rintro world elapsed (⟨own, database, before⟩ | ⟨middle, writes, committed⟩)
      · exact .inl ⟨own, database, before⟩
      · exact .inr ⟨middle, writes, { committed with }⟩
  exact invariant.imp_left fun ⟨own, database, _⟩ => ⟨own, database⟩

/-- The induction over a sequence: what the start has and every acceptable commit
keeps holds after it. -/
theorem Sequence.invariant {program : κ → Program S ε α} {start : World S Unit} {results : List (κ × Except (Failure ε) α)}
    (sequence : Sequence program start results world) (commits : κ → Commits S Unit) (post : κ → Post S ε α Unit)
    (safe : ∀ call world, Safe (commits call) Alone () (post call) (program call) none world)
    (holds : World S Unit → Prop) (first : holds start)
    (event : ∀ call world label writes, holds world → commits call world writes → holds (world.record label writes))
    (empty : ∀ world label, holds world → holds (world.record label []))
    (wait : ∀ world elapsed, holds world → holds (world.wait elapsed)) : holds world := by
  induction sequence with
  | nil => exact first
  | @cons earlier world call state result before ran ended ih =>
    have grows := (ran.valid (safe call world)).2
    exact Grows.invariant holds grows ih (fun _ label writes _ holding acceptable =>
      event call _ label writes holding acceptable.2) empty wait

theorem Sequence.promised {program : κ → Program S ε α} {start : World S Unit} {call : κ} {result : Except (Failure ε) α}
    {earlier : List (κ × Except (Failure ε) α)} (sequence : Sequence program start ((call, result) :: earlier) world)
    {commits : Commits S Unit} {post : Post S ε α Unit}
    (safe : ∀ world, Safe commits Alone () post (program call) none world) : ∃ session, post result session world := by
  cases sequence with
  | cons _ state _ before ran ended => exact ⟨_, (ran.valid (safe _)).1.ended ended⟩

end BusinessPlatform.Engine
