import BusinessPlatform.Engine.Queries

/-! Programs that only scan tables, and what a session remembers of its scans. -/

namespace BusinessPlatform.Engine
variable {S : Schema} {ε α β ι : Type}

/-- Somebody else's event, or a scan of this thread. -/
inductive Scans (rely : Guarantee S ι) (i : ι) (locks : List (Lock S)) : World S ι → World S ι → Prop where
  | other {before after} (step : Interferes rely i locks before after) : Scans rely i locks before after
  | read {world} (m : S.Model) (rows : List (S.Row m)) (inside : Bool) :
      Scans rely i locks world (world.reads i m rows inside)

/-- This thread has only scanned, and others have respected its locks. -/
abbrev Reads (rely : Guarantee S ι) (i : ι) (locks : List (Lock S)) : World S ι → World S ι → Prop :=
  Relation.ReflTransGen (Scans rely i locks)

variable {rely : Guarantee S ι} {i : ι} {locks : List (Lock S)} {before after world : World S ι} {m : S.Model}

theorem Reads.later (later : Later rely i locks before after) : Reads rely i locks before after :=
  Relation.ReflTransGen.mono (fun _ _ => Scans.other) _ _ later

theorem Reads.scan (later : Later rely i locks before after) (m : S.Model) (rows : List (S.Row m)) (inside : Bool) :
    Reads rely i locks before (after.reads i m rows inside) := (Reads.later later).tail (.read m rows inside)

theorem Reads.idle (reads : Reads rely i locks before after) : Idle rely i before after := by
  refine Relation.ReflTransGen.mono (fun _ _ step => ?_) _ _ reads
  cases step with
  | other step => exact .other (step.weaken (by simp))
  | read m rows inside => exact .empty _

theorem Reads.event (reads : Reads rely i locks before after) {event : Event S ι} (member : event ∈ after.trace)
    (author : event.author = some i) : event ∈ before.trace ∨ ∃ m, event.access = some (m, .find) := by
  induction reads with
  | refl => exact .inl member
  | tail earlier step ih =>
    cases step with
    | other step =>
      cases step with
      | event label writes other lawful apart =>
        rcases List.mem_cons.mp member with rfl | old
        · exact absurd author other
        · exact ih old
      | wait elapsed => exact ih member
    | read m rows inside =>
      rcases List.mem_cons.mp member with rfl | old
      · exact .inr ⟨m, rfl⟩
      · exact ih old

theorem Held.reads {first : World S ι} {pins : List (Pin S)} {transaction : Transaction S}
    (held : Held rely first pins world transaction) (reads : Reads rely i transaction.locks world after) :
    Held rely first pins after transaction := by
  induction reads with
  | refl => exact held
  | tail earlier step ih =>
    cases step with
    | other step => exact ih.later (.single step)
    | read m rows inside => exact ⟨ih.grown.tail (.empty _), ih.pinned⟩

/-- The row was stored when this thread executed one of its statements. -/
def Seen (i : ι) (trace : List (Event S ι)) (m : S.Model) (row : S.Row m) : Prop :=
  ∃ event ∈ trace, event.author = some i ∧ row ∈ (event.before.table m).rows

theorem Seen.mono {trace larger : List (Event S ι)} {row : S.Row m} (seen : Seen i trace m row) (subset : trace ⊆ larger) :
    Seen i larger m row := by
  obtain ⟨event, member, author, stored⟩ := seen
  exact ⟨event, subset member, author, stored⟩

theorem Seen.idle {row : S.Row m} (seen : Seen i before.trace m row) (idle : Idle rely i before after) :
    Seen i after.trace m row := seen.mono fun _ => Grows.member (Idle.grows idle)

theorem Seen.listed {filter : S.Row m → Bool} {rows : List (S.Row m)} {row : S.Row m} {inside : Bool}
    (listed : rows.Perm ((world.database.table m).rows.filter filter)) (member : row ∈ rows) :
    Seen i (world.reads i m rows inside).trace m row ∧ filter row = true := by
  obtain ⟨stored, matched⟩ := List.mem_filter.mp (listed.mem_iff.mp member)
  exact ⟨⟨_, List.mem_cons_self, rfl, stored⟩, matched⟩

/-- Nothing is promised of a failure. -/
def Tolerant (post : Post S ε α ι) : Prop := ∀ failure session world, post (.error failure) session world

variable {commits : Commits S ι} {post : Post S ε α ι} {session : Option (Transaction S)} {inside : Bool}

theorem Tolerant.fails (tolerant : Tolerant post) : Fails rely i (fun _ => True) post inside world :=
  fun _ _ _ _ _ _ => tolerant _ _ _

theorem Tolerant.body (tolerant : Tolerant post) : Tolerant (Body commits rely i post) :=
  fun _ _ _ _ _ => tolerant _ _ _

/-- Nothing is promised but that a call that succeeds has closed its transaction. -/
def Closed : Post S ε α ι
  | .ok _, session, _ => session = none
  | .error _, _, _ => True

theorem Closed.tolerant : Tolerant (Closed : Post S ε α ι) := fun _ _ _ => trivial

theorem Safe.andThen {program : Program S ε α} {next : α → Program S ε β}
    (safe : Safe commits rely i Closed program session world)
    (rest : ∀ value after, Safe commits rely i Closed (next value) none after) :
    Safe commits rely i Closed (program >>= next) session world := by
  refine Safe.bind (Safe.weaken safe ?_)
  intro result session after closed
  cases result with
  | error failure => trivial
  | ok value =>
    cases closed
    exact rest value after

theorem Safe.answer {program : Program S ε α} {answer : α → β} (safe : Safe commits rely i Closed program session world) :
    Safe commits rely i Closed (answer <$> program) session world := by
  rw [← bind_pure_comp]
  exact safe.andThen fun _ _ => Safe.done fun _ _ => rfl

theorem Safe.rethrown {program : Program S ε α} {handler : Failure ε → Program S ε α}
    (unhandled : handler .stopped = .done (.error .stopped)) (fails : ∀ failure, ∃ other, handler failure = .done (.error other))
    (safe : Safe commits rely i Closed program session world) :
    Safe commits rely i Closed (program.tryCatch handler) session world := by
  refine Safe.tryCatch unhandled (Safe.weaken safe ?_)
  intro result session after closed
  cases result with
  | ok value => exact closed
  | error failure =>
    obtain ⟨other, same⟩ := fails failure
    simp only [same]
    exact Safe.done fun _ _ => trivial

def Statement.scans : Statement S β → Prop
  | .query (.find _ _) => True
  | _ => False

def Program.Reading : Program S ε α → Prop
  | .done _ => True
  | .call statement next => statement.scans ∧ ∀ reply, (next reply).Reading

namespace Program.Reading
variable {program : Program S ε α}

theorem pure {value : α} : (Pure.pure value : Program S ε α).Reading := trivial

theorem bind {next : α → Program S ε β} (reading : program.Reading) (rest : ∀ value, (next value).Reading) :
    (program >>= next).Reading := by
  change (program.bind next).Reading
  induction program with
  | done result =>
    cases result with
    | ok value => exact rest value
    | error failure => trivial
  | call statement after ih => exact ⟨reading.1, fun reply => ih reply (reading.2 reply)⟩

theorem map {answer : α → β} (reading : program.Reading) : (answer <$> program).Reading := by
  rw [← bind_pure_comp]
  exact reading.bind fun _ => trivial

theorem findMany {filter : S.Row m → Bool} : (Program.findMany m filter : Program S ε _).Reading :=
  ⟨trivial, fun reply => by cases reply <;> trivial⟩

theorem findFirst {filter : S.Row m → Bool} : (Program.findFirst m filter : Program S ε _).Reading :=
  findMany.bind fun _ => trivial

theorem orThrow {value : Option α} {exception : ε} : (Program.orThrow value exception : Program S ε α).Reading := by
  cases value <;> trivial

theorem throwIf {condition : Bool} {exception : ε} : (Program.throwIf condition exception : Program S ε Unit).Reading := by
  cases condition <;> trivial

theorem ofExcept {result : Except ε α} : (Program.ofExcept result : Program S ε α).Reading := by
  cases result <;> trivial

/-- A program that only scans commits nothing and leaves its session as it is. -/
theorem safe (reading : program.Reading) (tolerant : Tolerant post)
    (holds : ∀ value after, Reads rely i (locksOf session) world after → post (.ok value) session after) :
    Safe commits rely i post program session world := by
  induction program generalizing world with
  | done result =>
    intro after later
    cases result with
    | ok value => exact holds value after (.later later)
    | error failure => exact tolerant _ _ _
  | @call β statement next ih =>
    obtain ⟨scans, rest⟩ := reading
    intro after later
    refine ⟨fun _ _ => tolerant _ _ _, ?_⟩
    cases statement with
    | start | commit | rollback | now => cases scans
    | query request =>
      cases request with
      | lock | create | updateMany | update | delete | deleteMany => cases scans
      | find m filter =>
        refine ⟨ih _ (rest _) fun value final reads => holds value final ((Reads.later later).trans reads), fun order => ?_⟩
        cases session with
        | none =>
          refine ⟨.inl rfl, ih _ (rest _) fun value final reads => holds value final (?_ : Reads rely i [] world final)⟩
          exact (Reads.scan later m _ false).trans reads
        | some transaction =>
          simp only [Statement.perform, Query.exec, List.append_nil]
          refine ⟨.inl rfl, ih _ (rest _) fun value final reads => holds value final ?_⟩
          exact (Reads.scan later m _ true).trans reads

end Program.Reading
end BusinessPlatform.Engine
