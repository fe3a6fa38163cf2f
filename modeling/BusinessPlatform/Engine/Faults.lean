import BusinessPlatform.Engine.Soundness

/-! Runs without faults. As long as the engine executes every statement and no
process stops, no call ends with such a failure. -/

namespace BusinessPlatform.Engine
variable {S : Schema} {ε α β ι : Type}

def Failure.fault : Failure ε → Bool
  | .database .engine | .stopped => true
  | _ => false

namespace Program

/-- Without a fault of one of its statements the program does not end with one. -/
def Faultless : Program S ε α → Prop
  | .done result => ∀ failure, result = .error failure → failure.fault = false
  | .call _ next => ∀ reply, reply ≠ .error .engine → (next reply).Faultless

namespace Faultless
variable {program : Program S ε α} {next : α → Program S ε β}

theorem value (value : α) : (.done (.ok value) : Program S ε α).Faultless := nofun

theorem failed {failure : Failure ε} (ordinary : failure.fault = false) :
    (.done (.error failure) : Program S ε α).Faultless := fun _ same => by cases same; exact ordinary

theorem throw (exception : ε) : (Program.throw exception : Program S ε α).Faultless := failed rfl

theorem throwIf (condition : Bool) (exception : ε) : (Program.throwIf condition exception : Program S ε Unit).Faultless := by
  cases condition
  · exact value ()
  · exact throw exception

theorem orThrow (found : Option α) (exception : ε) : (Program.orThrow found exception : Program S ε α).Faultless := by
  cases found
  · exact throw exception
  · exact value _

theorem bind (first : program.Faultless) (rest : ∀ value, (next value).Faultless) : (program >>= next).Faultless := by
  change (program.bind next).Faultless
  induction program with
  | done result =>
    cases result with
    | ok value => exact rest value
    | error failure => exact failed (first failure rfl)
  | call statement following ih => exact fun reply answered => ih reply (first reply answered)

theorem tryCatch {handler : Failure ε → Program S ε α} (first : program.Faultless)
    (handled : ∀ failure, failure.fault = false → (handler failure).Faultless) : (program.tryCatch handler).Faultless := by
  induction program with
  | done result =>
    cases result with
    | ok value => exact first
    | error failure => exact handled failure (first failure rfl)
  | call statement following ih => exact fun reply answered => ih reply (first reply answered)

private theorem refused {β : Type} {error : DatabaseError} (answered : (.error error : Except DatabaseError β) ≠ .error .engine) :
    (.done (.error (.database error)) : Program S ε α).Faultless :=
  failed (by cases error <;> first | rfl | exact absurd rfl answered)

theorem send (statement : Statement S α) : (Program.send statement : Program S ε α).Faultless := by
  intro reply answered
  cases reply with
  | ok found => exact value found
  | error error => exact refused answered

theorem findFirst (m : S.Model) (filter : S.Row m → Bool) : (Program.findFirst (ε := ε) m filter).Faultless :=
  bind (send _) fun _ => value _

theorem finish (body : program.Faultless) : program.finish.Faultless := by
  induction program with
  | done result =>
    cases result with
    | ok found =>
      intro reply answered
      cases reply with
      | ok _ => exact value found
      | error error => exact refused answered
    | error failure => exact fun _ _ => failed (body failure rfl)
  | call statement following ih => exact fun reply answered => ih reply (body reply answered)

theorem transaction (body : program.Faultless) : program.transaction.Faultless := by
  intro reply answered
  cases reply with
  | ok _ => exact finish body
  | error error => exact refused answered

end Faultless
end Program

theorem Query.exec_ordinary {stamp clock : Nat} {order : List Nat} {view : Database S} (request : Query S β) :
    request.exec stamp clock order view ≠ .error .engine := by
  have refused {m : S.Model} {view : Database S} {row : S.Row m} : constrain view row ≠ .error .engine := fun failed => by
    rcases constrain_error failed with ⟨_, _, same⟩ | ⟨_, same⟩ | ⟨_, same⟩ | ⟨_, _, _, same⟩ <;> cases same
  have allRefused {m : S.Model} {view : Database S} (rows : List (S.Row m)) : constrainAll view rows ≠ .error .engine := by
    induction rows with
    | nil => rintro ⟨⟩
    | cons row rest ih =>
      simp only [constrainAll]
      split
      next error failed => exact fun same => refused (failed.trans same)
      next => exact ih
  have changed {γ : Type} {m : S.Model} {old : List (S.Row m)} {change : Change S m} {value : γ} :
      modified view old change value ≠ .error .engine := by
    simp only [modified]
    split
    next error failed => exact fun same => allRefused _ (failed.trans (congrArg _ (Except.error.inj same)))
    next => simp
  have refuses {γ : Type} {m : S.Model} {old : List (S.Row m)} {value : γ} : erased view old value ≠ .error .engine := by
    simp only [erased]
    split <;> simp
  cases request with
  | find m filter | lock m filter => rintro ⟨⟩
  | create m build =>
    simp only [exec]
    split
    next => simp
    next =>
      split
      next error failed => exact fun same => refused (failed.trans (congrArg _ (Except.error.inj same)))
      next => simp
  | updateMany m filter change => exact changed
  | update m filter change =>
    simp only [exec]
    split
    · simp
    · exact changed
  | delete m filter =>
    simp only [exec]
    split
    · simp
    · exact refuses
  | deleteMany m filter => exact refuses

theorem Statement.perform_ordinary {world : World S ι} {order : List Nat} {session : Option (Transaction S)}
    (statement : Statement S β) : (statement.perform world order session).result ≠ .error .engine := by
  cases statement with
  | start | commit | rollback | now => rintro ⟨⟩
  | query request =>
    simp only [perform]
    split
    next error failed => exact fun same => request.exec_ordinary (failed.trans (congrArg _ (Except.error.inj same)))
    next => split <;> simp

/-- A statement is executed, or time passes. -/
def Action.undisturbed : Action S ι → Bool
  | .run .. | .wait _ => true
  | _ => false

/-- The thread's statements are executed and its process goes on. -/
def Action.spares (i : ι) : Action S ι → Prop
  | .fail j | .stop j => i ≠ j
  | _ => True

theorem Action.undisturbed.spares {action : Action S ι} (undisturbed : action.undisturbed = true) (i : ι) :
    action.spares i := by
  cases action with
  | fail j | stop j => cases undisturbed
  | _ => trivial

variable [DecidableEq ι] {permitted : State S ε α ι → Action S ι → Prop} {start state : State S ε α ι}

theorem State.Reaches.faultless {i : ι} (reached : Reaches permitted start state)
    (spared : ∀ state action, permitted state action → action.spares i) (first : (start.threads i).program.Faultless) :
    (state.threads i).program.Faultless := by
  induction reached with
  | here => exact first
  | @step state next action reached allowed executed ih =>
    have spared := spared _ _ allowed
    cases action with
    | run j order =>
      simp only [State.step] at executed
      split at executed
      next => cases executed
      next β statement rest running =>
        split at executed
        next =>
          cases executed
          by_cases same : i = j
          · subst same
            rw [running] at ih
            simpa [State.setThread] using ih _ (statement.perform_ordinary)
          · simpa [State.setThread, same] using ih
        next => cases executed
    | fail j | stop j =>
      have other : i ≠ j := spared
      simp only [State.step] at executed
      split at executed
      next => cases executed
      next =>
        cases executed
        simpa [State.setThread, other] using ih
    | external writes =>
      simp only [State.step] at executed
      split at executed
      next =>
        cases executed
        exact ih
      next => cases executed
    | wait elapsed =>
      cases executed
      exact ih

/-- A schedule of statements alone is a run; the events that it records are checked. -/
theorem State.Reaches.undisturbed {good : State S ε α ι → Event S ι → Prop} [∀ state event, Decidable (good state event)]
    {schedule : List (Action S ι)} {observed : State S ε α ι → Bool}
    (executed : (start.runWhile (fun state event => good state event) schedule).any observed = true)
    (undisturbed : schedule.all Action.undisturbed = true) :
    ∃ state, Reaches (fun state action => action.undisturbed = true ∧ state.Records good action) start state ∧
      observed state = true := by
  obtain ⟨state, ran, seen⟩ := (Option.any_eq_true _ _).mp executed
  exact ⟨state, Reaches.checked (fun _ _ => of_decide_eq_true) ran
    (fun action member _ => List.all_eq_true.mp undisturbed action member) (fun _ _ => And.intro), seen⟩

theorem State.Reaches.computed {schedule : List (Action S ι)} {observed : State S ε α ι → Bool}
    (executed : (start.run schedule).any observed = true) (undisturbed : schedule.all Action.undisturbed = true) :
    ∃ state, Reaches (fun _ action => action.undisturbed = true) start state ∧ observed state = true := by
  obtain ⟨state, ran, seen⟩ := (Option.any_eq_true _ _).mp executed
  refine ⟨state, Reaches.schedule ran (Along.of_forall fun action member _ => ?_), seen⟩
  exact List.all_eq_true.mp undisturbed action member

theorem State.Reaches.resumed {first second : List (Action S ι)} {observed : State S ε α ι → State S ε α ι → Bool}
    (executed : (start.run first).any (fun earlier => (earlier.run second).any (observed earlier)) = true)
    (undisturbed : (first ++ second).all Action.undisturbed = true) :
    ∃ earlier state, Reaches (fun _ action => action.undisturbed = true) start earlier ∧
      Reaches (fun _ action => action.undisturbed = true) earlier state ∧ observed earlier state = true := by
  obtain ⟨earlier, ran, continued⟩ := (Option.any_eq_true _ _).mp executed
  obtain ⟨state, resumed, seen⟩ := (Option.any_eq_true _ _).mp continued
  rw [List.all_append, Bool.and_eq_true] at undisturbed
  exact ⟨earlier, state, Reaches.schedule ran (Along.of_forall fun action member _ => List.all_eq_true.mp undisturbed.1 action member),
    Reaches.schedule resumed (Along.of_forall fun action member _ => List.all_eq_true.mp undisturbed.2 action member), seen⟩

end BusinessPlatform.Engine
