import BusinessPlatform.Engine.Execution

/-! Safety of a program under interference. Other sessions may commit whatever
they are relied upon to commit between two statements, except to the rows that
this session has locked. -/

namespace BusinessPlatform.Engine
variable {S : Schema} {ε α β ι : Type}

/-- The commits that are acceptable in a world. -/
abbrev Commits (S : Schema) (ι : Type) : Type := World S ι → List (Write S) → Prop

/-- What each author may commit. External writers have no name. -/
abbrev Guarantee (S : Schema) (ι : Type) : Type := Option ι → Commits S ι

def Allowed (commits : Commits S ι) (world : World S ι) (writes : List (Write S)) : Prop :=
  writes = [] ∨ commits world writes

/-- One lawful event of anybody, or the passing of time. -/
inductive Evolves (rely : Guarantee S ι) : World S ι → World S ι → Prop where
  | event {world} (label : Label S ι) (writes) (lawful : Allowed (rely label.author) world writes) :
      Evolves rely world (world.record label writes)
  | wait {world} (elapsed) : Evolves rely world (world.wait elapsed)

/-- One lawful event of somebody else that respects the given locks. -/
inductive Interferes (rely : Guarantee S ι) (i : ι) (locks : List (Lock S)) : World S ι → World S ι → Prop where
  | event {world} (label : Label S ι) (writes) (other : label.author ≠ some i)
      (lawful : Allowed (rely label.author) world writes)
      (apart : ∀ lock ∈ writes.flatMap Write.locks, lock ∉ locks) :
      Interferes rely i locks world (world.record label writes)
  | wait {world} (elapsed) : Interferes rely i locks world (world.wait elapsed)

/-- An event of somebody else, or one that commits nothing. -/
inductive Pauses (rely : Guarantee S ι) (i : ι) : World S ι → World S ι → Prop where
  | other {before after} (step : Interferes rely i [] before after) : Pauses rely i before after
  | empty {world} (label : Label S ι) : Pauses rely i world (world.record label [])

abbrev Grows (rely : Guarantee S ι) : World S ι → World S ι → Prop := Relation.ReflTransGen (Evolves rely)

abbrev Later (rely : Guarantee S ι) (i : ι) (locks : List (Lock S)) : World S ι → World S ι → Prop :=
  Relation.ReflTransGen (Interferes rely i locks)

/-- The world has moved on without a commit of this thread. -/
abbrev Idle (rely : Guarantee S ι) (i : ι) : World S ι → World S ι → Prop :=
  Relation.ReflTransGen (Pauses rely i)

namespace World

@[simp] theorem record_database (world : World S ι) (label) (writes : List (Write S)) :
    (world.record label writes).database = world.database.applyAll writes := rfl

@[simp] theorem record_trace (world : World S ι) (label) (writes : List (Write S)) :
    (world.record label writes).trace = ⟨label, world.database, writes⟩ :: world.trace := rfl

@[simp] theorem record_clock (world : World S ι) (label) (writes : List (Write S)) :
    (world.record label writes).clock = world.clock := rfl

@[simp] theorem wait_database (world : World S ι) (elapsed : Nat) :
    (world.wait elapsed).database = world.database := rfl

@[simp] theorem wait_trace (world : World S ι) (elapsed : Nat) :
    (world.wait elapsed).trace = world.trace := rfl

@[simp] theorem view_none (world : World S ι) : world.view none = world.database := rfl

@[simp] theorem view_some (world : World S ι) (transaction : Transaction S) :
    world.view (some transaction) = world.database.applyAll transaction.writes := rfl

variable [DecidableEq ι]

/-- The commits of one author, newest first. -/
def own (i : ι) (world : World S ι) : List (List (Write S)) :=
  (world.trace.filter fun event => decide (event.author = some i) && !event.writes.isEmpty).map Event.writes

@[simp] theorem own_wait (i : ι) (world : World S ι) (elapsed : Nat) : (world.wait elapsed).own i = world.own i := rfl

@[simp] theorem own_record_empty (i : ι) (world : World S ι) (label) :
    (world.record label []).own i = world.own i := by
  simp [own]

theorem own_record_other (i : ι) (world : World S ι) {label : Label S ι} {writes : List (Write S)}
    (other : label.author ≠ some i) : (world.record label writes).own i = world.own i := by
  simp [own, other]

theorem own_record_same {i : ι} {world : World S ι} {history : List (List (Write S))} {label : Label S ι}
    {writes : List (Write S)} (earlier : world.own i = history) (same : label.author = some i)
    (written : writes ≠ []) : (world.record label writes).own i = writes :: history := by
  subst earlier
  simp [own, same, written]

theorem mem_own {i : ι} {world : World S ι} {event : Event S ι} (member : event ∈ world.trace)
    (author : event.author = some i) (written : event.writes ≠ []) : event.writes ∈ world.own i :=
  List.mem_map_of_mem (List.mem_filter.mpr ⟨member, by simp [author, written]⟩)

end World

variable {rely : Guarantee S ι} {i : ι} {before after : World S ι}

def locksOf (session : Option (Transaction S)) : List (Lock S) :=
  (session.map Transaction.locks).getD []

@[simp] theorem locksOf_none : locksOf (none : Option (Transaction S)) = [] := rfl

@[simp] theorem locksOf_some (transaction : Transaction S) : locksOf (some transaction) = transaction.locks := rfl

theorem Evolves.empty {world : World S ι} (label : Label S ι) : Evolves rely world (world.record label []) :=
  .event label [] (.inl rfl)

theorem Interferes.evolves {locks : List (Lock S)} (step : Interferes rely i locks before after) :
    Evolves rely before after := by
  cases step with
  | event label writes other lawful apart => exact .event label writes lawful
  | wait elapsed => exact .wait elapsed

theorem Pauses.evolves (step : Pauses rely i before after) : Evolves rely before after := by
  cases step with
  | other step => exact step.evolves
  | empty label => exact .empty label

theorem Interferes.weaken {locks fewer : List (Lock S)} (step : Interferes rely i locks before after)
    (subset : ∀ lock ∈ fewer, lock ∈ locks) : Interferes rely i fewer before after := by
  cases step with
  | event label writes other lawful apart =>
    exact .event label writes other lawful fun lock written member => apart lock written (subset lock member)
  | wait elapsed => exact .wait elapsed

theorem Later.weaken {locks fewer : List (Lock S)} (later : Later rely i locks before after)
    (subset : ∀ lock ∈ fewer, lock ∈ locks) : Later rely i fewer before after :=
  Relation.ReflTransGen.mono (fun _ _ step => step.weaken subset) _ _ later

theorem Later.idle {locks : List (Lock S)} (later : Later rely i locks before after) : Idle rely i before after :=
  Relation.ReflTransGen.mono (fun _ _ step => .other (step.weaken (by simp))) _ _ later

theorem Idle.grows (idle : Idle rely i before after) : Grows rely before after :=
  Relation.ReflTransGen.mono (fun _ _ => Pauses.evolves) _ _ idle

theorem Later.grows {locks : List (Lock S)} (later : Later rely i locks before after) : Grows rely before after :=
  Idle.grows (Later.idle later)

theorem Idle.record (idle : Idle rely i before after) (label : Label S ι) :
    Idle rely i before (after.record label []) := idle.tail (.empty label)

theorem Idle.own [DecidableEq ι] (idle : Idle rely i before after) : after.own i = before.own i := by
  induction idle with
  | refl => rfl
  | tail earlier step ih =>
    rw [← ih]
    cases step with
    | other step =>
      cases step with
      | event label writes other lawful apart => exact World.own_record_other i _ other
      | wait elapsed => rfl
    | empty label => exact World.own_record_empty ..

theorem Later.locked {locks : List (Lock S)} (later : Later rely i locks before after) {m : S.Model} {k : S.Key m}
    (held : Lock.row m k ∈ locks) : after.database.get m k = before.database.get m k := by
  induction later with
  | refl => rfl
  | tail earlier step ih =>
    rw [← ih]
    cases step with
    | event label writes other lawful apart => exact Database.applyAll_get _ fun inside => apart _ inside held
    | wait elapsed => rfl

theorem Grows.trace (grows : Grows rely before after) : before.trace <:+ after.trace := by
  induction grows with
  | refl => exact List.suffix_refl _
  | tail earlier step ih =>
    cases step with
    | event label writes lawful => exact ih.trans (List.suffix_cons ..)
    | wait elapsed => exact ih

theorem Grows.member (grows : Grows rely before after) {event : Event S ι} (member : event ∈ before.trace) :
    event ∈ after.trace := (Grows.trace grows).subset member

/-- What holds when a program ends: of its result, its session and the world. -/
abbrev Post (S : Schema) (ε α ι : Type) : Type :=
  Except (Failure ε) α → Option (Transaction S) → World S ι → Prop

/-- The postcondition holds of a result from now on. -/
def Ends (rely : Guarantee S ι) (i : ι) (post : Post S ε α ι) (result : Except (Failure ε) α)
    (session : Option (Transaction S)) (world : World S ι) : Prop :=
  ∀ after, Later rely i (locksOf session) world after → post result session after

/-- Every statement that the program may send commits only what is acceptable,
whatever the others do before it and whether or not the engine executes it; and
the postcondition holds from the end of the program on, also if its process
stops before that. -/
def Safe (commits : Commits S ι) (rely : Guarantee S ι) (i : ι) (post : Post S ε α ι) :
    Program S ε α → Option (Transaction S) → World S ι → Prop
  | .done result, session, world => Ends rely i post result session world
  | .call statement next, session, world =>
    ∀ after, Later rely i (locksOf session) world after →
      Ends rely i post (.error .stopped) none after ∧
      Safe commits rely i post (next (.error .engine)) (statement.fail session) after ∧
      ∀ order,
        Allowed commits after (statement.perform after order session).writes ∧
        Safe commits rely i post (next (statement.perform after order session).result)
          (statement.perform after order session).session
          (after.record ⟨some i, statement.access, (statement.perform after order session).listed, session.isSome⟩
            (statement.perform after order session).writes)

/-- The postcondition holds of a failure that happens now or later, as long as
this thread commits nothing: of every database error and of the exceptions of
the given kinds. A failure outside a transaction leaves no session. -/
def Fails (rely : Guarantee S ι) (i : ι) (kinds : ε → Prop) (post : Post S ε α ι) (inside : Bool)
    (world : World S ι) : Prop :=
  ∀ failure session after, (∀ exception, failure = .thrown exception → kinds exception) →
    (inside = false → session = none) → Idle rely i world after → post (.error failure) session after

/-- A program inside a transaction commits nothing by itself. -/
def Never : Commits S ι := fun _ _ => False

variable {commits : Commits S ι} {kinds : ε → Prop} {post other : Post S ε α ι} {inside : Bool}
  {session : Option (Transaction S)} {world : World S ι}

theorem Fails.idle (fails : Fails rely i kinds post inside before) (idle : Idle rely i before after) :
    Fails rely i kinds post inside after :=
  fun failure session final kind outside more => fails failure session final kind outside (idle.trans more)

theorem Fails.read {locks : List (Lock S)} (fails : Fails rely i kinds post inside before)
    (later : Later rely i locks before after) (label : Label S ι) :
    Fails rely i kinds post inside (after.record label []) := fails.idle ((Later.idle later).record label)

theorem Fails.now {failure : Failure ε} (fails : Fails rely i kinds post inside world)
    (kind : ∀ exception, failure = .thrown exception → kinds exception) :
    post (.error failure) none world := fails failure none world kind (fun _ => rfl) .refl

theorem Fails.stopped (fails : Fails rely i kinds post inside world) : Ends rely i post (.error .stopped) none world :=
  fun _ later => (fails.idle (Later.idle later)).now nofun

theorem Safe.later {program : Program S ε α} (safe : Safe commits rely i post program session world)
    (later : Later rely i (locksOf session) world after) : Safe commits rely i post program session after := by
  cases program with
  | done result => exact fun final more => safe final (later.trans more)
  | call statement next => exact fun final more => safe final (later.trans more)

theorem Safe.done {result : Except (Failure ε) α}
    (holds : ∀ after, Later rely i (locksOf session) world after → post result session after) :
    Safe commits rely i post (.done result) session world := holds

theorem Safe.failed {failure : Failure ε} (fails : Fails rely i kinds post session.isSome world)
    (kind : ∀ exception, failure = .thrown exception → kinds exception) :
    Safe commits rely i post (.done (.error failure)) session world :=
  fun after later => fails failure session after kind (by simp) (Later.idle later)

theorem Safe.weaken {program : Program S ε α} (safe : Safe commits rely i post program session world)
    (implies : ∀ result session world, post result session world → other result session world) :
    Safe commits rely i other program session world := by
  induction program generalizing session world with
  | done result => exact fun after later => implies _ _ _ (safe after later)
  | call statement next ih =>
    intro after later
    obtain ⟨stopped, failed, performed⟩ := safe after later
    exact ⟨fun final more => implies _ _ _ (stopped final more), ih _ failed,
      fun order => ⟨(performed order).1, ih _ (performed order).2⟩⟩

theorem Safe.both {more : Commits S ι} {program : Program S ε α} (first : Safe commits rely i post program session world)
    (second : Safe more rely i other program session world) :
    Safe commits rely i (fun result session world => post result session world ∧ other result session world)
      program session world := by
  induction program generalizing session world with
  | done result => exact fun after later => ⟨first after later, second after later⟩
  | call statement next ih =>
    intro after later
    obtain ⟨stopped, failed, performed⟩ := first after later
    obtain ⟨alsoStopped, alsoFailed, alsoPerformed⟩ := second after later
    exact ⟨fun final rest => ⟨stopped final rest, alsoStopped final rest⟩, ih _ failed alsoFailed,
      fun order => ⟨(performed order).1, ih _ (performed order).2 (alsoPerformed order).2⟩⟩

/-- What a program commits has both properties that all of its commits have. -/
theorem Safe.meet {more : Commits S ι} {program : Program S ε α} (first : Safe commits rely i post program session world)
    (second : Safe more rely i other program session world) :
    Safe (fun world writes => commits world writes ∧ more world writes) rely i post program session world := by
  induction program generalizing session world with
  | done result => exact first
  | call statement next ih =>
    intro after later
    obtain ⟨stopped, failed, performed⟩ := first after later
    obtain ⟨_, alsoFailed, alsoPerformed⟩ := second after later
    refine ⟨stopped, ih _ failed alsoFailed, fun order => ⟨?_, ih _ (performed order).2 (alsoPerformed order).2⟩⟩
    rcases (performed order).1 with nothing | lawful
    · exact .inl nothing
    · exact (alsoPerformed order).1.imp_right fun also => ⟨lawful, also⟩

theorem Safe.ends {program : Program S ε α} (safe : Safe commits rely i post program session world) :
    Safe commits rely i (Ends rely i post) program session world := by
  induction program generalizing session world with
  | done result => exact fun after later final more => safe final (later.trans more)
  | call statement next ih =>
    intro after later
    obtain ⟨stopped, failed, performed⟩ := safe after later
    exact ⟨fun middle more final rest => stopped final (more.trans rest), ih _ failed,
      fun order => ⟨(performed order).1, ih _ (performed order).2⟩⟩

theorem Safe.permit {fewer : Commits S ι} {program : Program S ε α}
    (safe : Safe fewer rely i post program session world)
    (permits : ∀ world writes, fewer world writes → commits world writes) :
    Safe commits rely i post program session world := by
  induction program generalizing session world with
  | done result => exact safe
  | call statement next ih =>
    intro after later
    obtain ⟨stopped, failed, performed⟩ := safe after later
    exact ⟨stopped, ih _ failed,
      fun order => ⟨(performed order).1.imp_right (permits _ _), ih _ (performed order).2⟩⟩

theorem Interferes.mono {fewer : Guarantee S ι} {locks : List (Lock S)} (step : Interferes fewer i locks before after)
    (implies : ∀ author world writes, fewer author world writes → rely author world writes) :
    Interferes rely i locks before after := by
  cases step with
  | event label writes other lawful apart =>
    exact .event label writes other (lawful.imp_right (implies _ _ _)) apart
  | wait elapsed => exact .wait elapsed

/-- A program that is safe among some interference is safe among less. -/
theorem Safe.among {fewer : Guarantee S ι} {program : Program S ε α}
    (safe : Safe commits rely i post program session world)
    (implies : ∀ author world writes, fewer author world writes → rely author world writes) :
    Safe commits fewer i post program session world := by
  have later {locks : List (Lock S)} {before after : World S ι} (more : Later fewer i locks before after) :
      Later rely i locks before after := Relation.ReflTransGen.mono (fun _ _ step => step.mono implies) _ _ more
  induction program generalizing session world with
  | done result => exact fun after more => safe after (later more)
  | call statement next ih =>
    intro after more
    obtain ⟨stopped, failed, performed⟩ := safe after (later more)
    exact ⟨fun final rest => stopped final (later rest), ih _ failed,
      fun order => ⟨(performed order).1, ih _ (performed order).2⟩⟩

/-- A program may be permitted more, and its end may be assumed, in the worlds
that grow from an earlier one. -/
theorem Safe.grown {fewer : Commits S ι} {program : Program S ε α}
    (safe : Safe fewer rely i post program session world) (grows : Grows rely before world)
    (permits : ∀ after writes, Grows rely before after → fewer after writes → commits after writes)
    (relied : ∀ world writes, commits world writes → rely (some i) world writes) :
    Safe commits rely i (fun result session after => Grows rely before after ∧ post result session after)
      program session world := by
  induction program generalizing session world with
  | done result => exact fun after later => ⟨grows.trans later.grows, safe after later⟩
  | call statement next ih =>
    intro after later
    have now := grows.trans later.grows
    obtain ⟨stopped, failed, performed⟩ := safe after later
    refine ⟨fun final more => ⟨now.trans more.grows, stopped final more⟩, ih _ failed now, fun order => ?_⟩
    have allowed := (performed order).1.imp_right (permits _ _ now)
    exact ⟨allowed, ih _ (performed order).2 (now.tail (.event _ _ (allowed.imp_right (relied _ _))))⟩

/-- A program that commits nothing by itself only lets the world move on. -/
theorem Safe.idle {program : Program S ε α} (safe : Safe Never rely i post program session world)
    (idle : Idle rely i before world) :
    Safe Never rely i (fun result session after => Idle rely i before after ∧ post result session after)
      program session world := by
  induction program generalizing session world with
  | done result => exact fun after later => ⟨idle.trans later.idle, safe after later⟩
  | call statement next ih =>
    intro after later
    have now := idle.trans later.idle
    obtain ⟨stopped, failed, performed⟩ := safe after later
    refine ⟨fun final more => ⟨now.trans more.idle, stopped final more⟩, ih _ failed now,
      fun order => ⟨(performed order).1, ih _ (performed order).2 ?_⟩⟩
    rw [(performed order).1.resolve_right id]
    exact Idle.record now _

theorem Safe.bind {program : Program S ε β} {next : β → Program S ε α}
    (safe : Safe commits rely i (fun result session world => match result with
      | .ok value => Safe commits rely i post (next value) session world
      | .error failure => post (.error failure) session world) program session world) :
    Safe commits rely i post (program >>= next) session world := by
  change Safe commits rely i post (program.bind next) session world
  induction program generalizing session world with
  | done result =>
    cases result with
    | ok value => exact safe world .refl
    | error failure => exact safe
  | call statement rest ih =>
    intro after later
    obtain ⟨stopped, failed, performed⟩ := safe after later
    exact ⟨stopped, ih _ failed, fun order => ⟨(performed order).1, ih _ (performed order).2⟩⟩

theorem Safe.tryCatch {program : Program S ε α} {handler : Failure ε → Program S ε α}
    (unhandled : handler .stopped = .done (.error .stopped))
    (safe : Safe commits rely i (fun result session world => match result with
      | .ok value => post (.ok value) session world
      | .error failure => Safe commits rely i post (handler failure) session world) program session world) :
    Safe commits rely i post (program.tryCatch handler) session world := by
  induction program generalizing session world with
  | done result =>
    cases result with
    | ok value => exact safe
    | error failure => exact safe world .refl
  | call statement rest ih =>
    intro after later
    obtain ⟨stopped, failed, performed⟩ := safe after later
    refine ⟨fun final more => ?_, ih _ failed, fun order => ⟨(performed order).1, ih _ (performed order).2⟩⟩
    have handled := stopped final more
    simp only [unhandled] at handled
    exact handled final .refl

/-- The engine may fail any statement, and the process may stop. -/
def Stalls (rely : Guarantee S ι) (i : ι) (post : Post S ε α ι) (world : World S ι) : Prop :=
  ∀ after, Idle rely i world after →
    post (.error (.database .engine)) none after ∧ post (.error .stopped) none after

theorem Stalls.idle (stalls : Stalls rely i post before) (idle : Idle rely i before after) :
    Stalls rely i post after := fun final more => stalls final (idle.trans more)

theorem Fails.stalls (fails : Fails rely i kinds post false world) : Stalls rely i post world :=
  fun _ idle => ⟨(fails.idle idle).now nofun, (fails.idle idle).now nofun⟩

/-- What a transaction body has to establish: its pending writes may be
committed, and committing them establishes the outer postcondition. -/
def Body (commits : Commits S ι) (rely : Guarantee S ι) (i : ι) (post : Post S ε α ι) : Post S ε α ι :=
  fun result session world =>
    match result with
    | .ok value => ∃ transaction, session = some transaction ∧ Allowed commits world transaction.writes ∧
        ∀ after, Later rely i [] (world.record ⟨some i, none, [], true⟩ transaction.writes) after →
          post (.ok value) none after
    | .error failure => ∀ after, Idle rely i world after → post (.error failure) none after

theorem Fails.body (fails : Fails rely i kinds post false world) :
    Fails rely i kinds (Body commits rely i post) true world :=
  fun _ _ _ kind _ idle _ more => (fails.idle (idle.trans more)).now kind

theorem Stalls.body (stalls : Stalls rely i post world) (after : World S ι) (idle : Idle rely i world after) :
    Body commits rely i post (.error (.database .engine)) session after ∧
      Body commits rely i post (.error .stopped) session after :=
  ⟨fun final more => (stalls final (idle.trans more)).1, fun final more => (stalls final (idle.trans more)).2⟩

private theorem Safe.finish {body : Program S ε α} (stalls : Stalls rely i post before)
    (safe : Safe Never rely i
      (fun result session after => Idle rely i before after ∧ Body commits rely i post result session after)
      body session world) : Safe commits rely i post body.finish session world := by
  induction body generalizing session world with
  | done result =>
    cases result with
    | ok value =>
      intro after later
      obtain ⟨idle, transaction, rfl, allowed, committed⟩ := safe after later
      have now := stalls.idle idle
      exact ⟨fun final more => (now final (Later.idle more)).2, fun final more => (now final (Later.idle more)).1,
        fun order => ⟨allowed, fun final more => committed final more⟩⟩
    | error failure =>
      intro after later
      obtain ⟨idle, failed⟩ := safe after later
      refine ⟨fun final more => (stalls final (idle.trans (Later.idle more))).2,
        fun final more => failed final (Later.idle more), fun order => ⟨.inl rfl, fun final more => failed final ?_⟩⟩
      exact (Idle.record .refl _).trans (Later.idle more)
  | call statement rest ih =>
    intro after later
    obtain ⟨stopped, failed, performed⟩ := safe after later
    exact ⟨fun final more => (stopped final more).2 final .refl, ih _ failed,
      fun order => ⟨.inl ((performed order).1.resolve_right id), ih _ (performed order).2⟩⟩

/-- A transaction of which nothing is known but that its statements may stall. -/
theorem Safe.begin {body : Program S ε α} (stalls : Stalls rely i post world)
    (safe : ∀ after, Later rely i [] world after →
      Safe Never rely i (Body commits rely i post) body (some {}) (after.record ⟨some i, none, [], false⟩ [])) :
    Safe commits rely i post body.transaction none world := by
  intro after later
  have now := stalls.idle (Later.idle later)
  refine ⟨fun final more => (now final (Later.idle more)).2, fun final more => (now final (Later.idle more)).1,
    fun order => ⟨.inl rfl, ?_⟩⟩
  exact Safe.finish (now.idle (Idle.record .refl _)) ((safe after later).idle .refl)

/-- A transaction that fails leaves no pending writes; one that succeeds has
committed all of them in one event. -/
theorem Safe.transaction {body : Program S ε α} (fails : Fails rely i kinds post false world)
    (safe : ∀ after, Later rely i [] world after →
      Fails rely i kinds (Body commits rely i post) true (after.record ⟨some i, none, [], false⟩ []) →
      Safe Never rely i (Body commits rely i post) body (some {}) (after.record ⟨some i, none, [], false⟩ [])) :
    Safe commits rely i post body.transaction none world :=
  Safe.begin fails.stalls fun after later =>
    safe after later ((fails.idle (Later.idle later)).idle (Idle.record .refl ⟨some i, none, [], false⟩)).body

theorem Safe.throw {exception : ε} (fails : Fails rely i kinds post session.isSome world) (kind : kinds exception) :
    Safe commits rely i post (Program.throw exception) session world :=
  Safe.failed fails fun _ same => by cases same; exact kind

theorem Safe.check {condition : Bool} {exception : ε} {next : Unit → Program S ε α}
    (refused : condition = true → Safe commits rely i post (.done (.error (.thrown exception))) session world)
    (resume : condition = false → Safe commits rely i post (next ()) session world) :
    Safe commits rely i post (Program.throwIf condition exception >>= next) session world := by
  cases condition with
  | true => exact refused rfl
  | false => exact resume rfl

theorem Safe.throwIf {condition : Bool} {exception : ε} {next : Unit → Program S ε α}
    (fails : Fails rely i kinds post session.isSome world) (kind : kinds exception)
    (resume : condition = false → Safe commits rely i post (next ()) session world) :
    Safe commits rely i post (Program.throwIf condition exception >>= next) session world :=
  Safe.check (fun _ => Safe.throw fails kind) resume

theorem Safe.orThrow {value : Option β} {exception : ε} {next : β → Program S ε α}
    (fails : Fails rely i kinds post session.isSome world) (kind : kinds exception)
    (resume : ∀ found, value = some found → Safe commits rely i post (next found) session world) :
    Safe commits rely i post (Program.orThrow value exception >>= next) session world := by
  cases value with
  | none => exact Safe.throw fails kind
  | some found => exact resume found rfl

theorem Safe.ofExcept {result : Except ε β} {next : β → Program S ε α}
    (fails : Fails rely i kinds post session.isSome world)
    (kind : ∀ exception, kinds exception)
    (resume : ∀ value, result = .ok value → Safe commits rely i post (next value) session world) :
    Safe commits rely i post (Program.ofExcept result >>= next) session world := by
  cases result with
  | ok value => exact resume value rfl
  | error exception => exact Safe.throw fails (kind exception)

section Attempt
variable [DecidableEq ι] {history : List (List (Write S))} {ok : α → World S ι → Prop}

/-- A call that fails has added nothing to its earlier commits; what it throws
is of the given kinds. It ends outside a transaction. -/
def Attempt (i : ι) (history : List (List (Write S))) (kinds : ε → Prop) (ok : α → World S ι → Prop) :
    Post S ε α ι := fun result session world =>
  session = none ∧
    match result with
    | .ok value => ok value world
    | .error failure => (∀ exception, failure = .thrown exception → kinds exception) ∧ world.own i = history

theorem Attempt.fails (own : world.own i = history) : Fails rely i kinds (Attempt i history kinds ok) false world :=
  fun _ _ _ kind outside idle => ⟨outside rfl, kind, idle.own.trans own⟩

theorem Fails.own (fails : Fails rely i kinds (Attempt i history kinds ok) inside world) : world.own i = history :=
  (fails.now (nofun : ∀ exception, Failure.database .engine = .thrown exception → _)).2.2

theorem Fails.ownInside (fails : Fails rely i kinds (Body commits rely i (Attempt i history kinds ok)) inside world) :
    world.own i = history :=
  (fails.now (nofun : ∀ exception, Failure.database .engine = .thrown exception → _) world .refl).2.2

end Attempt

/-- The label of a query of this thread. -/
abbrev Query.label (i : ι) (request : Query S β) (listed : List ((m : S.Model) × S.Row m)) (inside : Bool) :
    Label S ι := ⟨some i, some (request.model, request.operation), listed, inside⟩

/-- A query outside a transaction, with what its database errors tell. -/
theorem Safe.attempt {request : Query S β} {next : β → Program S ε α} (stalls : Stalls rely i post world)
    (errored : ∀ after order error, Later rely i [] world after →
      request.exec after.trace.length after.clock order after.database = .error error →
      Safe commits rely i post (.done (.error (.database error))) none (after.record (request.label i [] false) []))
    (resume : ∀ after order outcome, Later rely i [] world after →
      request.exec after.trace.length after.clock order after.database = .ok outcome →
      Allowed commits after outcome.writes ∧
        Safe commits rely i post (next outcome.value) none
          (after.record (request.label i outcome.listed false) outcome.writes)) :
    Safe commits rely i post (Program.send (.query request) >>= next) none world := by
  intro after later
  refine ⟨fun final more => (stalls final ((Later.idle later).trans (Later.idle more))).2,
    fun final more => (stalls final ((Later.idle later).trans (Later.idle more))).1, fun order => ?_⟩
  cases executed : request.exec after.trace.length after.clock order after.database with
  | error error =>
    simp only [Statement.perform, World.view_none, executed]
    exact ⟨.inl rfl, errored after order error later executed⟩
  | ok outcome =>
    simp only [Statement.perform, World.view_none, executed]
    exact resume after order outcome later executed

theorem Safe.query {request : Query S β} {next : β → Program S ε α} (fails : Fails rely i kinds post false world)
    (resume : ∀ after order outcome, Later rely i [] world after →
      request.exec after.trace.length after.clock order after.database = .ok outcome →
      Allowed commits after outcome.writes ∧
        Safe commits rely i post (next outcome.value) none
          (after.record (request.label i outcome.listed false) outcome.writes)) :
    Safe commits rely i post (Program.send (.query request) >>= next) none world :=
  Safe.attempt fails.stalls (fun _ _ _ later _ => Safe.failed (fails.read later _) nofun) resume

/-- A query inside a transaction, with what its database errors tell. -/
theorem Safe.attemptInside {request : Query S β} {next : β → Program S ε α} {transaction : Transaction S}
    (stalls : ∀ after, Idle rely i world after →
      post (.error (.database .engine)) (some transaction) after ∧ post (.error .stopped) none after)
    (errored : ∀ after order error, Later rely i transaction.locks world after →
      request.exec after.trace.length after.clock order (after.database.applyAll transaction.writes) = .error error →
      Safe commits rely i post (.done (.error (.database error))) (some transaction)
        (after.record (request.label i [] true) []))
    (resume : ∀ after order outcome, Later rely i transaction.locks world after →
      request.exec after.trace.length after.clock order (after.database.applyAll transaction.writes) =
        .ok outcome →
      Safe commits rely i post (next outcome.value)
        (some ⟨transaction.writes ++ outcome.writes, transaction.locks ++ outcome.locks⟩)
        (after.record (request.label i outcome.listed true) [])) :
    Safe commits rely i post (Program.send (.query request) >>= next) (some transaction) world := by
  intro after later
  refine ⟨fun final more => (stalls final ((Later.idle later).trans (Later.idle more))).2,
    fun final more => (stalls final ((Later.idle later).trans (Later.idle more))).1, fun order => ?_⟩
  cases executed : request.exec after.trace.length after.clock order
    (after.database.applyAll transaction.writes) with
  | error error =>
    simp only [Statement.perform, World.view_some, executed]
    exact ⟨.inl rfl, errored after order error later executed⟩
  | ok outcome =>
    simp only [Statement.perform, World.view_some, executed]
    exact ⟨.inl rfl, resume after order outcome later executed⟩

/-- A query inside a transaction adds its writes to the pending ones. -/
theorem Safe.queryInside {request : Query S β} {next : β → Program S ε α} {transaction : Transaction S}
    (fails : Fails rely i kinds post true world)
    (resume : ∀ after order outcome, Later rely i transaction.locks world after →
      request.exec after.trace.length after.clock order (after.database.applyAll transaction.writes) =
        .ok outcome →
      Fails rely i kinds post true (after.record (request.label i outcome.listed true) []) →
      Safe commits rely i post (next outcome.value)
        (some ⟨transaction.writes ++ outcome.writes, transaction.locks ++ outcome.locks⟩)
        (after.record (request.label i outcome.listed true) [])) :
    Safe commits rely i post (Program.send (.query request) >>= next) (some transaction) world := by
  refine Safe.attemptInside (fun after idle => ?_) (fun _ _ _ later _ => Safe.failed (fails.read later _) nofun)
    fun after order outcome later executed => resume after order outcome later executed (fails.read later _)
  exact ⟨(fails.idle idle) _ (some transaction) _ nofun nofun .refl, (fails.idle idle).now nofun⟩

end BusinessPlatform.Engine
