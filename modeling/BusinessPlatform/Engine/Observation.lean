import BusinessPlatform.Engine.Reading
import BusinessPlatform.Engine.Faults

/-! What a program that only scans can answer. Each of its scans shows it the rows of
some database of the run, so what holds of all of these decides the answer. -/

namespace BusinessPlatform.Engine
variable {S : Schema} {ε α β ι : Type} {holds : Database S → Prop}

/-- No fault has hit the call. -/
def Spared (result : Except (Failure ε) α) : Prop := ∀ failure, result = .error failure → failure.fault = false

/-- What a scan may list: the rows of a database that has the property. -/
def Statement.Shows (holds : Database S → Prop) : {β : Type} → Statement S β → β → Prop
  | _, .query (.find m filter), rows => ∃ db, holds db ∧ rows.Perm ((db.table m).rows.filter filter)
  | _, _, _ => False

namespace Program

/-- A scanning program may end like this if each scan lists the rows of a database that
has the property. The engine may fail a scan, and the process may stop. -/
inductive Observes (holds : Database S → Prop) : Program S ε α → Except (Failure ε) α → Prop where
  | done (result : Except (Failure ε) α) : Observes holds (.done result) result
  | scan {γ : Type} {statement : Statement S γ} {next : Except DatabaseError γ → Program S ε α}
      {result : Except (Failure ε) α} (value : γ) (shown : statement.Shows holds value)
      (rest : Observes holds (next (.ok value)) result) : Observes holds (.call statement next) result
  | failed {γ : Type} {statement : Statement S γ} {next : Except DatabaseError γ → Program S ε α}
      {result : Except (Failure ε) α} (rest : Observes holds (next (.error .engine)) result) :
      Observes holds (.call statement next) result
  | stopped {γ : Type} {statement : Statement S γ} {next : Except DatabaseError γ → Program S ε α} :
      Observes holds (.call statement next) (.error .stopped)

namespace Observes
variable {program : Program S ε α} {result : Except (Failure ε) α} {answer : Except (Failure ε) β}

theorem of_done {outcome : Except (Failure ε) α} (observes : (.done outcome : Program S ε α).Observes holds result) :
    result = outcome := by
  cases observes
  rfl

theorem of_bind {next : α → Program S ε β} (observes : (program >>= next).Observes holds answer) :
    (∃ value, program.Observes holds (.ok value) ∧ (next value).Observes holds answer) ∨
      ∃ failure, answer = .error failure ∧ program.Observes holds (.error failure) := by
  change (program.bind next).Observes holds answer at observes
  induction program with
  | done outcome =>
    cases outcome with
    | ok value => exact .inl ⟨value, .done _, observes⟩
    | error failure => exact .inr ⟨failure, observes.of_done, .done _⟩
  | call statement rest ih =>
    cases observes with
    | scan value shown following =>
      refine (ih _ following).imp ?_ ?_
      · rintro ⟨value, first, last⟩
        exact ⟨value, .scan _ shown first, last⟩
      · rintro ⟨failure, same, first⟩
        exact ⟨failure, same, .scan _ shown first⟩
    | failed following =>
      refine (ih _ following).imp ?_ ?_
      · rintro ⟨value, first, last⟩
        exact ⟨value, .failed first, last⟩
      · rintro ⟨failure, same, first⟩
        exact ⟨failure, same, .failed first⟩
    | stopped => exact .inr ⟨.stopped, rfl, .stopped⟩

/-- A scan lists the rows of such a database, or a fault has hit it. -/
theorem of_findMany {m : S.Model} {filter : S.Row m → Bool} {found : Except (Failure ε) (List (S.Row m))}
    (observes : (Program.findMany m filter).Observes holds found) :
    (∃ db rows, holds db ∧ rows.Perm ((db.table m).rows.filter filter) ∧ found = .ok rows) ∨
      ∃ failure, found = .error failure ∧ failure.fault = true := by
  cases observes with
  | scan rows shown rest =>
    obtain ⟨db, held, listed⟩ := shown
    exact .inl ⟨db, rows, held, listed, rest.of_done⟩
  | failed rest => exact .inr ⟨_, rest.of_done, rfl⟩
  | stopped => exact .inr ⟨_, rfl, rfl⟩

theorem after_findMany {m : S.Model} {filter : S.Row m → Bool} {next : List (S.Row m) → Program S ε β}
    (observes : (Program.findMany m filter >>= next).Observes holds answer) (spared : Spared answer) :
    ∃ db rows, holds db ∧ rows.Perm ((db.table m).rows.filter filter) ∧ (next rows).Observes holds answer := by
  rcases of_bind observes with ⟨rows, scanned, rest⟩ | ⟨failure, rfl, scanned⟩
  · rcases of_findMany scanned with ⟨db, listing, held, listed, same⟩ | ⟨_, same, _⟩
    · cases same
      exact ⟨db, rows, held, listed, rest⟩
    · cases same
  · rcases of_findMany scanned with ⟨_, _, _, _, same⟩ | ⟨other, same, fault⟩
    · cases same
    · cases same
      cases fault.symm.trans (spared failure rfl)

theorem after_findFirst {m : S.Model} {filter : S.Row m → Bool} {next : Option (S.Row m) → Program S ε β}
    (observes : (Program.findFirst m filter >>= next).Observes holds answer) (spared : Spared answer) :
    ∃ db, holds db ∧ ((∃ row ∈ (db.table m).rows, filter row = true ∧ (next (some row)).Observes holds answer) ∨
      (∀ row ∈ (db.table m).rows, filter row = false) ∧ (next none).Observes holds answer) := by
  rw [Program.findFirst, bind_assoc] at observes
  obtain ⟨db, rows, held, listed, rest⟩ := after_findMany observes spared
  refine ⟨db, held, ?_⟩
  rw [pure_bind] at rest
  cases head : rows.head? with
  | some row =>
    obtain ⟨member, matched⟩ := listed_head listed head
    exact .inl ⟨row, member, matched, head ▸ rest⟩
  | none => exact .inr ⟨listed_none listed head, head ▸ rest⟩

theorem after_orThrow {value : Option α} {exception : ε} {next : α → Program S ε β}
    (observes : (Program.orThrow value exception >>= next).Observes holds answer) :
    (∃ found, value = some found ∧ (next found).Observes holds answer) ∨
      value = none ∧ answer = .error (.thrown exception) := by
  cases value with
  | some found => exact .inl ⟨found, rfl, observes⟩
  | none => exact .inr ⟨rfl, observes.of_done⟩

theorem after_throwIf {condition : Bool} {exception : ε} {next : Unit → Program S ε β}
    (observes : (Program.throwIf condition exception >>= next).Observes holds answer) :
    condition = false ∧ (next ()).Observes holds answer ∨ condition = true ∧ answer = .error (.thrown exception) := by
  cases condition with
  | true => exact .inr ⟨rfl, observes.of_done⟩
  | false => exact .inl ⟨rfl, observes⟩

theorem after {next : α → Program S ε β} (observes : (program >>= next).Observes holds answer) (spared : Spared answer) :
    ∃ result, program.Observes holds result ∧ Spared result ∧
      ((∃ value, result = .ok value ∧ (next value).Observes holds answer) ∨
        ∃ failure, result = .error failure ∧ answer = .error failure) := by
  rcases of_bind observes with ⟨value, first, rest⟩ | ⟨failure, rfl, first⟩
  · exact ⟨.ok value, first, fun _ same => (by cases same), .inl ⟨value, rfl, rest⟩⟩
  · exact ⟨.error failure, first, fun _ same => spared _ (congrArg _ (Except.error.inj same)), .inr ⟨failure, rfl, rfl⟩⟩

end Observes
end Program

variable [DecidableEq ι] {permitted : State S ε α ι → Action S ι → Prop} {start state : State S ε α ι}

/-- A scanning call of a run in whose states the property holds has an answer that
databases of this property explain. -/
theorem State.Reaches.observes {i : ι} {result : Except (Failure ε) α} (reached : Reaches permitted start state)
    (throughout : ∀ state action, permitted state action → holds state.world.database)
    (reading : (start.threads i).program.Reading) (outside : (start.threads i).session = none)
    (ended : (state.threads i).program = .done result) : (start.threads i).program.Observes holds result := by
  suffices explained : (state.threads i).session = none ∧ (state.threads i).program.Reading ∧
      ∀ result, (state.threads i).program.Observes holds result → (start.threads i).program.Observes holds result from
    explained.2.2 result (ended ▸ .done result)
  clear ended result
  induction reached with
  | here => exact ⟨outside, reading, fun _ => id⟩
  | @step state next action reached allowed executed ih =>
    obtain ⟨closed, scans, explains⟩ := ih
    cases action with
    | run j order =>
      simp only [State.step] at executed
      split at executed
      next => cases executed
      next γ statement rest running =>
        split at executed
        next =>
          cases executed
          by_cases same : i = j
          · subst same
            rw [running] at scans explains
            simp only [State.setThread, Function.update_self]
            obtain ⟨scan, reads⟩ := scans
            cases statement with
            | start | commit | rollback | now => cases scan
            | query request =>
              cases request with
              | lock | create | updateMany | update | delete | deleteMany => cases scan
              | find m filter =>
                refine ⟨?_, reads _, fun result observed => explains result ?_⟩
                · simp only [Statement.perform, Query.exec, closed]
                · simp only [Statement.perform, Query.exec, closed, World.view_none] at observed
                  exact .scan _ ⟨_, throughout _ _ allowed, arrange_perm _ _⟩ observed
          · simpa [State.setThread, same] using ⟨closed, scans, explains⟩
        next => cases executed
    | fail j =>
      simp only [State.step] at executed
      split at executed
      next => cases executed
      next γ statement rest running =>
        cases executed
        by_cases same : i = j
        · subst same
          rw [running] at scans explains
          simp only [State.setThread, Function.update_self, closed]
          refine ⟨?_, scans.2 _, fun result observed => explains result (.failed observed)⟩
          cases statement <;> rfl
        · simpa [State.setThread, same] using ⟨closed, scans, explains⟩
    | stop j =>
      simp only [State.step] at executed
      split at executed
      next => cases executed
      next γ statement rest running =>
        cases executed
        by_cases same : i = j
        · subst same
          rw [running] at explains
          simp only [State.setThread, Function.update_self]
          refine ⟨trivial, trivial, fun result observed => explains result ?_⟩
          rw [observed.of_done]
          exact .stopped
        · simpa [State.setThread, same] using ⟨closed, scans, explains⟩
    | external writes =>
      simp only [State.step] at executed
      split at executed
      next =>
        cases executed
        exact ⟨closed, scans, explains⟩
      next => cases executed
    | wait elapsed =>
      cases executed
      exact ⟨closed, scans, explains⟩

/-- Execute a schedule while the rows have a property. -/
def State.runAmong (check : Database S → Bool) (state : State S ε α ι) : List (Action S ι) → Option (State S ε α ι)
  | [] => some state
  | action :: rest =>
    if check state.world.database then (state.step action).bind fun next => next.runAmong check rest else none

theorem State.Reaches.among {check : Database S → Bool} {schedule : List (Action S ι)} {observed : State S ε α ι → Bool}
    (executed : (start.runAmong check schedule).any observed = true) :
    ∃ state, Reaches (fun state _ => check state.world.database = true) start state ∧ observed state = true := by
  obtain ⟨state, ran, seen⟩ := (Option.any_eq_true _ _).mp executed
  refine ⟨state, ?_, seen⟩
  clear executed seen
  induction schedule generalizing start with
  | nil =>
    cases ran
    exact .here
  | cons action rest ih =>
    simp only [runAmong] at ran
    split at ran
    next checked =>
      obtain ⟨next, stepped, resumed⟩ := Option.bind_eq_some_iff.mp ran
      exact .trans (.step action .here checked stepped) (ih resumed)
    next => cases ran

end BusinessPlatform.Engine
