import BusinessPlatform.Engine.Queries

/-! Safety carries over to executions. If every thread is safe where it starts,
it is safe where it stands in every state reached, locks exclude each other and
each commit of the run is one that its author is allowed. -/

namespace BusinessPlatform.Engine
variable {S : Schema} {ε α β ι : Type} {rely : Guarantee S ι}

/-- The rest of a thread's program is safe. -/
def Thread.Sound (rely : Guarantee S ι) (post : ι → Post S ε α ι) (world : World S ι) (i : ι)
    (thread : Thread S ε α) : Prop :=
  Safe (rely (some i)) rely i (post i) thread.program thread.session world

structure Valid (rely : Guarantee S ι) (post : ι → Post S ε α ι) (state : State S ε α ι) : Prop where
  sound : ∀ i, (state.threads i).Sound rely post state.world i
  held : ∀ i, ∀ lock ∈ locksOf (state.threads i).session, state.held lock = some i
  pending : ∀ i transaction, (state.threads i).session = some transaction →
    ∀ lock ∈ transaction.writes.flatMap Write.locks, lock ∈ transaction.locks

variable {post : ι → Post S ε α ι} {state next : State S ε α ι} {i : ι}

theorem Thread.Sound.later {thread : Thread S ε α} {before after : World S ι}
    (sound : thread.Sound rely post before i) (later : Later rely i (locksOf thread.session) before after) :
    thread.Sound rely post after i := Safe.later sound later

theorem Valid.ended (valid : Valid rely post state) {result : Except (Failure ε) α}
    (ended : (state.threads i).program = .done result) : post i result (state.threads i).session state.world := by
  have sound := valid.sound i
  rw [Thread.Sound, ended] at sound
  exact sound state.world .refl

/-- Validity among less interference, if the threads may still do the same. -/
theorem Valid.among {fewer : Guarantee S ι} (valid : Valid rely post state)
    (implies : ∀ author world writes, fewer author world writes → rely author world writes)
    (same : ∀ i world writes, rely (some i) world writes → fewer (some i) world writes) : Valid fewer post state :=
  { valid with sound := fun i => Safe.permit (Safe.among (valid.sound i) implies) fun world writes => same i world writes }

theorem Valid.promise [DecidableEq ι] {new : Post S ε α ι} (valid : Valid rely post state)
    (sound : Safe (rely (some i)) rely i new (state.threads i).program (state.threads i).session state.world) :
    Valid rely (Function.update post i new) state := by
  refine { valid with sound := fun j => ?_ }
  by_cases same : j = i
  · subst same
    simpa [Thread.Sound] using sound
  · simpa [Thread.Sound, same] using valid.sound j

/-- A statement commits only rows whose locks its session has or takes. -/
theorem Statement.perform_locks {world : World S ι} {order : List Nat} {session : Option (Transaction S)}
    (pending : ∀ transaction, session = some transaction →
      ∀ lock ∈ transaction.writes.flatMap Write.locks, lock ∈ transaction.locks) (statement : Statement S β) :
    ∀ lock ∈ (statement.perform world order session).writes.flatMap Write.locks,
      lock ∈ (statement.perform world order session).locks ∨ lock ∈ locksOf session := by
  intro lock member
  cases statement with
  | start | rollback | now => cases member
  | commit =>
    cases session with
    | none => cases member
    | some transaction => exact .inr (pending transaction rfl lock member)
  | query request =>
    simp only [perform] at member ⊢
    split at member
    next => cases member
    next outcome executed =>
      cases session with
      | none => exact .inl (Query.exec_locks executed lock member)
      | some transaction => cases member

/-- The session keeps its locks, adds those it takes, and still covers its writes. -/
theorem Statement.perform_session {world : World S ι} {order : List Nat} {session : Option (Transaction S)}
    (pending : ∀ transaction, session = some transaction →
      ∀ lock ∈ transaction.writes.flatMap Write.locks, lock ∈ transaction.locks) (statement : Statement S β)
    {transaction : Transaction S} (opened : (statement.perform world order session).session = some transaction) :
    (∀ lock ∈ transaction.locks, lock ∈ (statement.perform world order session).locks ∨ lock ∈ locksOf session) ∧
      ∀ lock ∈ transaction.writes.flatMap Write.locks, lock ∈ transaction.locks := by
  have unchanged : ∀ locks : List (Lock S), session = some transaction →
      (∀ lock ∈ transaction.locks, lock ∈ locks ∨ lock ∈ locksOf session) ∧
        ∀ lock ∈ transaction.writes.flatMap Write.locks, lock ∈ transaction.locks := by
    rintro locks rfl
    exact ⟨fun lock member => .inr member, pending transaction rfl⟩
  cases statement with
  | start =>
    cases opened
    simp
  | commit | rollback => cases opened
  | now => exact unchanged _ opened
  | query request =>
    cases executed : request.exec world.trace.length world.clock order (world.view session) with
    | error error =>
      simp only [perform, executed] at opened ⊢
      exact unchanged _ opened
    | ok outcome =>
      simp only [perform, executed] at opened ⊢
      cases session with
      | none => cases opened
      | some old =>
        cases opened
        refine ⟨fun lock member => (List.mem_append.mp member).symm, fun lock member => ?_⟩
        rw [List.flatMap_append] at member
        rcases List.mem_append.mp member with earlier | added
        · exact List.mem_append_left _ (pending old rfl lock earlier)
        · exact List.mem_append_right _ (Query.exec_locks executed lock added)

theorem Statement.fail_session (statement : Statement S β) (session : Option (Transaction S)) :
    statement.fail session = none ∨ statement.fail session = session := by
  cases statement <;> simp [fail]

/-- How one step moves the world. -/
inductive Moves (rely : Guarantee S ι) (state next : State S ε α ι) : Prop where
  | event (label : Label S ι) (writes : List (Write S)) (recorded : next.world = state.world.record label writes)
      (lawful : Allowed (rely label.author) state.world writes)
      (active : ∀ i, label.author = some i → ¬ state.finished i)
  | still (same : next.world = state.world)
  | wait (elapsed : Nat) (waited : next.world = state.world.wait elapsed)

theorem Moves.grows (moves : Moves rely state next) : Grows rely state.world next.world := by
  cases moves with
  | event label writes recorded lawful active => exact recorded ▸ .single (.event label writes lawful)
  | still same => exact same ▸ .refl
  | wait elapsed waited => exact waited ▸ .single (.wait elapsed)

/-- Nothing has been committed between two worlds. -/
structure Still (before after : World S ι) : Prop where
  database : after.database = before.database
  trace : ∃ news, after.trace = news ++ before.trace ∧ ∀ event ∈ news, event.writes = []

theorem Still.own [DecidableEq ι] {before after : World S ι} (still : Still before after) (i : ι) :
    after.own i = before.own i := by
  obtain ⟨news, same, empty⟩ := still.trace
  have none : news.filter (fun event => decide (event.author = some i) && !event.writes.isEmpty) = [] :=
    List.filter_eq_nil_iff.mpr fun event member => by simp [empty event member]
  simp [World.own, same, none]

theorem Moves.cases (moves : Moves rely state next) : Still state.world next.world ∨
    ∃ label writes, next.world = state.world.record label writes ∧ rely label.author state.world writes ∧
      ∀ i, label.author = some i → ¬ state.finished i := by
  cases moves with
  | event label writes recorded lawful active =>
    rcases lawful with rfl | lawful
    · exact .inl ⟨by simp [recorded], [⟨label, state.world.database, []⟩], by simp [recorded], by simp⟩
    · exact .inr ⟨label, writes, recorded, lawful, active⟩
  | still same => exact .inl ⟨by rw [same], [], by simp [same], nofun⟩
  | wait elapsed waited => exact .inl ⟨by simp [waited], [], by simp [waited], nofun⟩

section Steps
variable [DecidableEq ι]

theorem State.available_iff {author : Option ι} {locks : List (Lock S)} :
    state.available author locks = true ↔ ∀ lock ∈ locks, state.held lock = none ∨ state.held lock = author := by
  simp [available]

theorem State.setHeld_other {session : Option (Transaction S)} {locks : List (Lock S)} {j : ι} {lock : Lock S}
    (open_locks : state.available (some i) locks = true) (other : j ≠ i) (held : state.held lock = some j) :
    state.setHeld i session locks lock = some j := by
  cases session with
  | none =>
    have foreign : state.held lock ≠ some i := by simpa [held] using other
    rw [setHeld, if_neg foreign, held]
  | some transaction =>
    have untaken : lock ∉ locks := by
      intro member
      have free := State.available_iff.mp open_locks lock member
      simp [held, other] at free
    rw [setHeld, if_neg untaken, held]

theorem State.step_done {action : Action S ι} {result : Except (Failure ε) α}
    (executed : state.step action = some next) (ended : (state.threads i).program = .done result) :
    (next.threads i).program = .done result := by
  have moved : ∀ j thread, (∃ β statement rest, (state.threads j).program = .call (β := β) statement rest) →
      (state.setThread j thread i).program = .done result := by
    rintro j thread ⟨β, statement, rest, running⟩
    have other : i ≠ j := by
      rintro rfl
      simp [ended] at running
    simpa [setThread, other] using ended
  cases action with
  | run j order | fail j | stop j =>
    simp only [step] at executed
    split at executed
    next => cases executed
    next running =>
      first
        | cases executed
          exact moved _ _ ⟨_, _, _, running⟩
        | split at executed
          next =>
            cases executed
            exact moved _ _ ⟨_, _, _, running⟩
          next => cases executed
  | external writes =>
    simp only [step] at executed
    split at executed
    next =>
      cases executed
      exact ended
    next => cases executed
  | wait elapsed =>
    cases executed
    exact ended

variable (valid : Valid rely post state)
include valid

omit [DecidableEq ι] in
private theorem Valid.world {world : World S ι} (sound : ∀ i, (state.threads i).Sound rely post world i) :
    Valid rely post { state with world } := ⟨sound, valid.held, valid.pending⟩

private theorem Valid.thread {world : World S ι} {thread : Thread S ε α} {locks : List (Lock S)}
    (available : state.available (some i) locks = true)
    (others : ∀ j, j ≠ i → (state.threads j).Sound rely post world j) (sound : thread.Sound rely post world i)
    (covered : ∀ transaction, thread.session = some transaction →
      (∀ lock ∈ transaction.locks, lock ∈ locks ∨ lock ∈ locksOf (state.threads i).session) ∧
        ∀ lock ∈ transaction.writes.flatMap Write.locks, lock ∈ transaction.locks) :
    Valid rely post ⟨world, state.setThread i thread, state.setHeld i thread.session locks⟩ := by
  refine ⟨fun j => ?_, fun j lock member => ?_, fun j transaction opened => ?_⟩
  · by_cases same : j = i
    · subst same
      simpa [State.setThread] using sound
    · simpa [State.setThread, same] using others j same
  · by_cases same : j = i
    · subst same
      simp only [State.setThread, Function.update_self] at member
      cases session : thread.session with
      | none => simp [session] at member
      | some transaction =>
        rw [session] at member
        simp only [State.setHeld]
        split
        next => rfl
        next untaken =>
          exact valid.held j lock (((covered transaction session).1 lock member).resolve_left untaken)
    · simp only [State.setThread, Function.update_of_ne same] at member
      exact State.setHeld_other available same (valid.held j lock member)
  · by_cases same : j = i
    · subst same
      simp only [State.setThread, Function.update_self] at opened
      exact (covered transaction opened).2
    · simp only [State.setThread, Function.update_of_ne same] at opened
      exact valid.pending j transaction opened

omit [DecidableEq ι] in
/-- What an author commits under its locks interferes with nobody else's. -/
theorem Valid.apart {author : Option ι} {writes : List (Write S)} {j : ι} (other : author ≠ some j)
    (owned : ∀ lock ∈ writes.flatMap Write.locks, state.held lock = none ∨ state.held lock = author) :
    ∀ lock ∈ writes.flatMap Write.locks, lock ∉ locksOf (state.threads j).session := by
  intro lock written kept
  have held := valid.held j lock kept
  rcases owned lock written with free | mine
  · simp [free] at held
  · exact other (mine ▸ held)

theorem Valid.step {action : Action S ι}
    (environment : ∀ writes, action = .external writes → Allowed (rely none) state.world writes)
    (executed : state.step action = some next) : Valid rely post next ∧ Moves rely state next := by
  cases action with
  | run i order =>
    simp only [State.step] at executed
    split at executed
    next => cases executed
    next β statement rest found =>
      split at executed
      next available =>
        cases executed
        have safe := valid.sound i
        rw [Thread.Sound, found] at safe
        obtain ⟨allowed, resumed⟩ := (safe state.world .refl).2.2 order
        have owned : ∀ lock ∈ (statement.perform state.world order (state.threads i).session).writes.flatMap
            Write.locks, state.held lock = none ∨ state.held lock = some i := by
          intro lock written
          rcases statement.perform_locks (valid.pending i) lock written with taken | kept
          · exact State.available_iff.mp available lock taken
          · exact .inr (valid.held i lock kept)
        have active : ¬ state.finished i := by simp [State.finished, found]
        refine ⟨valid.thread available (fun j other => ?_) resumed fun transaction opened =>
          statement.perform_session (valid.pending i) opened,
          .event _ _ rfl allowed fun _ same => Option.some.inj same ▸ active⟩
        have different : some i ≠ some j := fun same => other (Option.some.inj same).symm
        exact (valid.sound j).later (.single (.event _ _ different allowed (valid.apart different owned)))
      next => cases executed
  | fail i =>
    simp only [State.step] at executed
    split at executed
    next => cases executed
    next β statement rest found =>
      cases executed
      have safe := valid.sound i
      rw [Thread.Sound, found] at safe
      refine ⟨valid.thread (by simp [State.available]) (fun j _ => valid.sound j)
        (safe state.world .refl).2.1 fun transaction opened => ?_, .still rfl⟩
      have kept : (state.threads i).session = some transaction := by
        rcases statement.fail_session (state.threads i).session with closed | same
        · simp [closed] at opened
        · exact same ▸ opened
      exact ⟨fun lock member => .inr (by simpa [kept] using member), valid.pending i transaction kept⟩
  | stop i =>
    simp only [State.step] at executed
    split at executed
    next => cases executed
    next found =>
      cases executed
      have safe := valid.sound i
      rw [Thread.Sound, found] at safe
      exact ⟨valid.thread (by simp [State.available]) (fun j _ => valid.sound j) (safe state.world .refl).1 nofun,
        .still rfl⟩
  | external writes =>
    simp only [State.step] at executed
    split at executed
    next available =>
      cases executed
      have allowed := environment writes rfl
      have owned := State.available_iff.mp available
      refine ⟨valid.world fun j => (valid.sound j).later (.single (.event {} _ ?_ allowed ?_)),
        .event {} _ rfl allowed nofun⟩
      · simp
      · exact valid.apart (by simp : none ≠ some _) owned
    next => cases executed
  | wait elapsed =>
    simp only [State.step] at executed
    cases executed
    exact ⟨valid.world fun j => (valid.sound j).later (.single (.wait elapsed)), .wait elapsed rfl⟩

end Steps

variable [DecidableEq ι] {permitted fewer : State S ε α ι → Action S ι → Prop} {start : State S ε α ι}

omit [DecidableEq ι] in
theorem Valid.initial {database : Database S} {programs : ι → Program S ε α}
    (safe : ∀ i, Safe (rely (some i)) rely i (post i) (programs i) none { database }) :
    Valid rely post (State.initial database programs) :=
  ⟨safe, nofun, nofun⟩

namespace State

theorem Reaches.weaken (reached : Reaches fewer start state)
    (implies : ∀ state action, fewer state action → permitted state action) : Reaches permitted start state := by
  induction reached with
  | here => exact .here
  | step action reached allowed executed ih => exact .step action ih (implies _ _ allowed) executed

theorem Reaches.trans {middle : State S ε α ι} (first : Reaches permitted start middle)
    (second : Reaches permitted middle state) : Reaches permitted start state := by
  induction second with
  | here => exact first
  | step action reached allowed executed ih => exact .step action ih allowed executed

/-- The run rule: what the start has and each step keeps holds in every state
reached. A step may be assumed to start in a valid state and to move lawfully. -/
theorem Reaches.invariant (holds : State S ε α ι → Prop) (reached : Reaches permitted start state)
    (valid : Valid rely post start)
    (environment : ∀ state writes, permitted state (.external writes) → Allowed (rely none) state.world writes)
    (first : holds start)
    (preserved : ∀ state next action, Valid rely post state → holds state → permitted state action →
      state.step action = some next → Moves rely state next → holds next) :
    Valid rely post state ∧ holds state := by
  induction reached with
  | here => exact ⟨valid, first⟩
  | step action reached allowed executed ih =>
    obtain ⟨sound, holding⟩ := ih
    obtain ⟨after, moves⟩ := sound.step (fun writes same => environment _ writes (same ▸ allowed)) executed
    exact ⟨after, preserved _ _ action sound holding allowed executed moves⟩

theorem Reaches.valid (reached : Reaches permitted start state) (valid : Valid rely post start)
    (environment : ∀ state writes, permitted state (.external writes) → Allowed (rely none) state.world writes) :
    Valid rely post state ∧ Grows rely start.world state.world := by
  refine Reaches.invariant (fun state => Grows rely start.world state.world) reached valid environment .refl ?_
  exact fun _ _ _ _ grown _ _ moves => grown.trans moves.grows

/-- Every action of a schedule is permitted where it is executed. -/
def Along (permitted : State S ε α ι → Action S ι → Prop) (state : State S ε α ι) : List (Action S ι) → Prop
  | [] => True
  | action :: rest => permitted state action ∧ ∀ next, state.step action = some next → next.Along permitted rest

theorem Along.of_forall {schedule : List (Action S ι)} (allowed : ∀ action ∈ schedule, ∀ state, permitted state action) :
    start.Along permitted schedule := by
  induction schedule generalizing start with
  | nil => trivial
  | cons action rest ih =>
    exact ⟨allowed action (List.mem_cons_self ..) start, fun next _ => ih fun action member =>
      allowed action (List.mem_cons_of_mem _ member)⟩

/-- Whatever the step records is good in the state before it. -/
def Records (good : State S ε α ι → Event S ι → Prop) (state : State S ε α ι) (action : Action S ι) : Prop :=
  ∀ next event, state.step action = some next → next.world.trace = event :: state.world.trace → good state event

theorem Reaches.recorded {good : Event S ι → Prop} (reached : Reaches permitted start state) (valid : Valid rely post start)
    (environment : ∀ state writes, permitted state (.external writes) → Allowed (rely none) state.world writes)
    (first : ∀ event ∈ start.world.trace, good event)
    (records : ∀ state action, permitted state action → Records (fun _ => good) state action) :
    ∀ event ∈ state.world.trace, good event := by
  refine (Reaches.invariant (fun state => ∀ event ∈ state.world.trace, good event) reached valid environment first ?_).2
  intro state next action _ holding allowed executed moves event member
  cases moves with
  | event label writes recorded lawful active =>
    have good := records state action allowed next _ executed (by rw [recorded, World.record_trace])
    rw [recorded, World.record_trace, List.mem_cons] at member
    rcases member with rfl | old
    · exact good
    · exact holding event old
  | still same => exact holding event (same ▸ member)
  | wait elapsed waited =>
    rw [waited] at member
    exact holding event member

/-- Execute a schedule as long as a check of the recorded events succeeds. -/
def runWhile (check : State S ε α ι → Event S ι → Bool) (state : State S ε α ι) :
    List (Action S ι) → Option (State S ε α ι)
  | [] => some state
  | action :: rest =>
    match state.step action with
    | some next => if next.world.trace.head?.all (check state) then next.runWhile check rest else none
    | none => none

theorem Reaches.schedule {schedule : List (Action S ι)} (executed : start.run schedule = some state)
    (along : start.Along permitted schedule) : Reaches permitted start state := by
  induction schedule generalizing start with
  | nil =>
    cases executed
    exact .here
  | cons action rest ih =>
    simp only [run] at executed
    split at executed
    next next stepped => exact .trans (.step action .here along.1 stepped) (ih executed (along.2 _ stepped))
    next => cases executed

/-- A schedule whose recorded events have been checked is a run of good steps. -/
theorem Reaches.checked {good : State S ε α ι → Event S ι → Prop} {check : State S ε α ι → Event S ι → Bool}
    (sound : ∀ state event, check state event = true → good state event) {schedule : List (Action S ι)}
    (executed : start.runWhile check schedule = some state)
    (allowed : ∀ action ∈ schedule, ∀ state, fewer state action)
    (both : ∀ state action, fewer state action → Records good state action → permitted state action) :
    Reaches permitted start state := by
  induction schedule generalizing start with
  | nil =>
    cases executed
    exact .here
  | cons action rest ih =>
    simp only [runWhile] at executed
    split at executed
    next next stepped =>
      split at executed
      next checked =>
        have first : permitted start action := by
          refine both _ _ (allowed action (List.mem_cons_self ..) start) fun other event same recorded => ?_
          cases stepped.symm.trans same
          rw [recorded] at checked
          exact sound _ _ (by simpa using checked)
        exact .trans (.step action .here first stepped)
          (ih executed fun action member => allowed action (List.mem_cons_of_mem _ member))
      next => cases executed
    next => cases executed

end State
end BusinessPlatform.Engine
