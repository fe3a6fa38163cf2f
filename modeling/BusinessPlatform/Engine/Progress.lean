import BusinessPlatform.Engine.Program
import BusinessPlatform.Engine.Execution

/-! Calls without transactions. Nobody holds a lock between two of their statements,
so none of them waits for another and each comes to its end. -/

namespace BusinessPlatform.Engine
variable {S : Schema} {ε α β ι : Type}

namespace Program

/-- The program sends nothing but queries. -/
def Single : Program S ε α → Prop
  | .done _ => True
  | .call statement next => statement.access.isSome = true ∧ ∀ reply, (next reply).Single

namespace Single
variable {program : Program S ε α} {next : α → Program S ε β}

theorem done (result : Except (Failure ε) α) : (.done result : Program S ε α).Single := trivial

theorem orThrow (found : Option α) (exception : ε) : (Program.orThrow found exception : Program S ε α).Single := by
  cases found <;> trivial

theorem query (request : Query S α) : (Program.send (.query request) : Program S ε α).Single := by
  refine ⟨rfl, fun reply => ?_⟩
  cases reply <;> trivial

theorem bind (first : program.Single) (rest : ∀ value, (next value).Single) : (program >>= next).Single := by
  change (program.bind next).Single
  induction program with
  | done result =>
    cases result with
    | ok value => exact rest value
    | error failure => trivial
  | call statement following ih => exact ⟨first.1, fun reply => ih reply (first.2 reply)⟩

theorem findFirst (m : S.Model) (filter : S.Row m → Bool) : (Program.findFirst (ε := ε) m filter).Single :=
  bind (query _) fun _ => trivial

theorem tryCatch {handler : Failure ε → Program S ε α} (first : program.Single)
    (handled : ∀ failure, (handler failure).Single) : (program.tryCatch handler).Single := by
  induction program with
  | done result =>
    cases result with
    | ok value => trivial
    | error failure => exact handled failure
  | call statement following ih => exact ⟨first.1, fun reply => ih reply (first.2 reply)⟩

end Single
end Program

/-- No session is open and no lock is held, now and later. -/
structure State.Unlocked (state : State S ε α ι) : Prop where
  free : ∀ lock, state.held lock = none
  closed : ∀ i, (state.threads i).session = none
  single : ∀ i, (state.threads i).program.Single

namespace State.Unlocked
variable [DecidableEq ι] {permitted : State S ε α ι → Action S ι → Prop} {start state next : State S ε α ι} {i : ι}

omit [DecidableEq ι] in
theorem opened {world : World S ι} {programs : ι → Program S ε α} (single : ∀ i, (programs i).Single) :
    (⟨world, fun i => { program := programs i }, fun _ => none⟩ : State S ε α ι).Unlocked := ⟨fun _ => rfl, fun _ => rfl, single⟩

private theorem moved (unlocked : state.Unlocked) (world : World S ι) {program : Program S ε α} (single : program.Single)
    (locks : List (Lock S)) :
    (⟨world, state.setThread i ⟨program, none⟩, state.setHeld i none locks⟩ : State S ε α ι).Unlocked := by
  refine ⟨fun lock => ?_, fun j => ?_, fun j => ?_⟩
  · simp [setHeld, unlocked.free lock]
  · by_cases same : j = i
    · subst same
      simp [setThread]
    · simpa [setThread, same] using unlocked.closed j
  · by_cases same : j = i
    · subst same
      simpa [setThread] using single
    · simpa [setThread, same] using unlocked.single j

omit [DecidableEq ι] in
private theorem perform {world : World S ι} {order : List Nat} {statement : Statement S β}
    (query : statement.access.isSome = true) : (statement.perform world order none).session = none := by
  cases statement with
  | query request =>
    simp only [Statement.perform]
    split <;> rfl
  | start | commit | rollback | now => cases query

private theorem fail {statement : Statement S β} : statement.fail none = none := by
  cases statement <;> rfl

theorem step {action : Action S ι} (unlocked : state.Unlocked) (executed : state.step action = some next) :
    next.Unlocked := by
  cases action with
  | run i order =>
    simp only [State.step] at executed
    split at executed
    next => cases executed
    next β statement rest running =>
      have single := unlocked.single i
      rw [running] at single
      rw [unlocked.closed i, perform single.1] at executed
      split at executed
      next =>
        cases executed
        exact unlocked.moved _ (single.2 _) _
      next => cases executed
  | fail i =>
    simp only [State.step] at executed
    split at executed
    next => cases executed
    next β statement rest running =>
      have single := unlocked.single i
      rw [running] at single
      rw [unlocked.closed i, fail] at executed
      cases executed
      exact unlocked.moved _ (single.2 _) _
  | stop i =>
    simp only [State.step] at executed
    split at executed
    next => cases executed
    next =>
      cases executed
      exact unlocked.moved state.world (Program.Single.done (.error .stopped)) []
  | external writes =>
    simp only [State.step] at executed
    split at executed
    next =>
      cases executed
      exact ⟨unlocked.free, unlocked.closed, unlocked.single⟩
    next => cases executed
  | wait elapsed =>
    cases executed
    exact ⟨unlocked.free, unlocked.closed, unlocked.single⟩

theorem reached (unlocked : start.Unlocked) (reached : Reaches permitted start state) : state.Unlocked := by
  induction reached with
  | here => exact unlocked
  | step action reached allowed executed ih => exact ih.step executed

theorem completes (unlocked : state.Unlocked) (i : ι) :
    ∃ count next, state.run (List.replicate count (.run i [])) = some next ∧ next.finished i := by
  generalize program : (state.threads i).program = remaining
  induction remaining generalizing state with
  | done result => exact ⟨0, state, rfl, result, program⟩
  | call statement rest ih =>
    have available (locks : List (Lock S)) : state.available (some i) locks = true :=
      List.all_eq_true.mpr fun lock _ => by simp [unlocked.free lock]
    obtain ⟨following, executed, resumed⟩ : ∃ following, state.step (.run i []) = some following ∧
        (following.threads i).program = rest (statement.perform state.world [] (state.threads i).session).result := by
      simp [State.step, program, available, setThread]
    obtain ⟨count, next, ran, finished⟩ := ih _ (unlocked.step executed) resumed
    refine ⟨count + 1, next, ?_, finished⟩
    rw [List.replicate_succ, run, executed]
    exact ran

end State.Unlocked
end BusinessPlatform.Engine
