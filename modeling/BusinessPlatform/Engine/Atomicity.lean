import BusinessPlatform.Engine.Evaluation
import BusinessPlatform.Engine.Reading

/-! Calls that run alone and change nothing when they fail. -/

namespace BusinessPlatform.Engine
variable {S : Schema} {ε α β : Type} {m : S.Model}

namespace Program
variable {program : Program S ε α} {pending : Pending S} {moment : Moment S}

theorem evaluate_bind {next : α → Program S ε β} : (program >>= next).evaluate pending moment =
    match program.evaluate pending moment with
    | (.ok value, after, later) => (next value).evaluate after later
    | (.error failure, after, later) => (.error failure, after, later) := by
  change (program.bind next).evaluate pending moment = _
  induction program generalizing pending moment with
  | done result => cases result <;> rfl
  | call statement rest ih => exact ih _

theorem evaluate_tryCatch {handler : Failure ε → Program S ε α} : (program.tryCatch handler).evaluate pending moment =
    match program.evaluate pending moment with
    | (.ok value, after, later) => (.ok value, after, later)
    | (.error failure, after, later) => (handler failure).evaluate after later := by
  induction program generalizing pending moment with
  | done result => cases result <;> rfl
  | call statement rest ih => exact ih _

theorem evaluate_query {request : Query S α} : ((send (.query request) : Program S ε α).evaluate none moment).1 =
    match request.exec moment.stamp moment.clock [] moment.database with
    | .error error => .error (.database error)
    | .ok outcome => .ok outcome.value := by
  simp only [send, evaluate, Statement.effect]
  have view : moment.view none = moment.database := rfl
  rw [view]
  cases request.exec moment.stamp moment.clock [] moment.database <;> rfl

/-- A program that only scans leaves the transaction and the rows as they are. -/
theorem Reading.evaluate (reading : program.Reading) : (program.evaluate pending moment).2.1 = pending ∧
    (program.evaluate pending moment).2.2.database = moment.database := by
  induction program generalizing moment with
  | done result => exact ⟨rfl, rfl⟩
  | call statement next ih =>
    obtain ⟨scans, rest⟩ := reading
    cases statement with
    | start | commit | rollback | now => cases scans
    | query request =>
      cases request with
      | lock | create | updateMany | update | delete | deleteMany => cases scans
      | find m filter =>
        cases pending with
        | none => exact ih _ (rest _)
        | some writes =>
          simp only [Program.evaluate, Statement.effect, Query.exec, List.append_nil]
          exact ih _ (rest _)

/-- What is promised of a program that only scans is promised of the rows as they are. -/
theorem Reading.succeeds {post : α → Pending S → Moment S → Prop} (reading : program.Reading)
    (succeeds : program.Succeeds pending moment post) :
    ∃ value later, post value pending later ∧ later.database = moment.database := by
  obtain ⟨session, rows⟩ := @Reading.evaluate S ε α program pending moment reading
  obtain ⟨value, _, holds⟩ := succeeds_iff.mp succeeds
  rw [session] at holds
  exact ⟨value, _, holds, rows⟩

theorem succeeds_lock {filter : S.Row m → Bool} {post : List (S.Row m) → Pending S → Moment S → Prop} :
    (lock m filter : Program S ε (List (S.Row m))).Succeeds pending moment post ↔
      post (((moment.view pending).table m).rows.filter filter) pending moment.tick := by
  cases pending with
  | none => exact Iff.rfl
  | some writes =>
    simp only [lock, send, Succeeds, Program.evaluate, Statement.effect, Query.exec, arrange]
    rw [List.append_nil]

theorem succeeds_now {post : Nat → Pending S → Moment S → Prop} :
    (now : Program S ε Nat).Succeeds pending moment post ↔ post moment.clock pending moment.tick := Iff.rfl

theorem succeeds_updateMany {filter : S.Row m → Bool} {change : Change S m} {k : S.Key m} {row : S.Row m}
    {writes : List (Write S)} {post : Nat → Pending S → Moment S → Prop} (only : ∀ row, filter row = true → S.key row = k)
    (found : (moment.view (some writes)).get m k = some row) (matched : filter row = true) :
    (updateMany m filter change : Program S ε Nat).Succeeds (some writes) moment post ↔
      constrain ((moment.view (some writes)).applyAll [.put m (change.apply row)]) (change.apply row) = .ok () ∧
        post 1 (some (writes ++ [.put m (change.apply row)])) moment.tick := by
  simp only [updateMany, send, Succeeds, Program.evaluate, Statement.effect, Query.exec, modified]
  rcases ((moment.view (some writes)).table m).filter_key only with ⟨_, absent⟩ | ⟨other, there, _, listed⟩
  · cases (absent row found).symm.trans matched
  · obtain rfl : other = row := Option.some.inj (there.symm.trans found)
    rw [listed]
    simp only [List.map_cons, List.map_nil, constrainAll]
    cases constrain ((moment.view (some writes)).applyAll [.put m (change.apply other)]) (change.apply other) with
    | error error => simp [Program.evaluate]
    | ok _ => simp [Program.evaluate]

/-- The rows that an update stores are committed at once outside a transaction. -/
theorem succeeds_update {filter : S.Row m → Bool} {change : Change S m} {post : S.Row m → Pending S → Moment S → Prop} :
    (update m filter change : Program S ε (S.Row m)).Succeeds pending moment post ↔
      ∃ row, ((moment.view pending).table m).rows.find? filter = some row ∧
        constrain ((moment.view pending).applyAll [.put m (change.apply row)]) (change.apply row) = .ok () ∧
        match pending with
        | none => post (change.apply row) none (moment.commit [.put m (change.apply row)]).tick
        | some writes => post (change.apply row) (some (writes ++ [.put m (change.apply row)])) moment.tick := by
  simp only [update, send, Succeeds, Program.evaluate, Statement.effect, Query.exec]
  rw [← List.head?_filter]
  cases ((moment.view pending).table m).rows.filter filter with
  | nil => simp [Program.evaluate]
  | cons row rest =>
    simp only [modified, List.map_cons, List.map_nil, constrainAll, List.head?_cons, Option.some.injEq, exists_eq_left']
    cases constrain ((moment.view pending).applyAll [.put m (change.apply row)]) (change.apply row) with
    | error error => simp [Program.evaluate]
    | ok _ => cases pending <;> simp [Program.evaluate]

theorem succeeds_tryCatch {handler : Failure ε → Program S ε α} {post : α → Pending S → Moment S → Prop}
    (fails : ∀ failure, ∃ other, handler failure = .done (.error other)) :
    (program.tryCatch handler).Succeeds pending moment post ↔ program.Succeeds pending moment post := by
  rw [Succeeds, Succeeds, evaluate_tryCatch]
  rcases program.evaluate pending moment with ⟨failure | value, after, later⟩
  · obtain ⟨other, same⟩ := fails failure
    simp [same, Program.evaluate]
  · rfl

/-- Queries alone. -/
def Inside : Program S ε α → Prop
  | .done _ => True
  | .call (.query _) next => ∀ reply, (next reply).Inside
  | .call _ _ => False

namespace Inside

theorem pure {value : α} : (Pure.pure value : Program S ε α).Inside := trivial

theorem send {request : Query S α} : (Program.send (.query request) : Program S ε α).Inside := by
  intro reply
  cases reply <;> trivial

theorem throwIf {condition : Bool} {exception : ε} : (Program.throwIf condition exception : Program S ε Unit).Inside := by
  cases condition <;> trivial

theorem bind {next : α → Program S ε β} (inside : program.Inside) (rest : ∀ value, (next value).Inside) :
    (program >>= next).Inside := by
  change (program.bind next).Inside
  induction program with
  | done result =>
    cases result with
    | ok value => exact rest value
    | error failure => trivial
  | call statement following ih =>
    cases statement with
    | start | commit | rollback | now => cases inside
    | query request => exact fun reply => ih reply (inside reply)

theorem evaluate (inside : program.Inside) (writes : List (Write S)) :
    (∃ written, (program.evaluate (some writes) moment).2.1 = some written) ∧
      (program.evaluate (some writes) moment).2.2.database = moment.database := by
  induction program generalizing writes moment with
  | done result => exact ⟨⟨writes, rfl⟩, rfl⟩
  | call statement next ih =>
    cases statement with
    | start | commit | rollback | now => cases inside
    | query request =>
      simp only [Program.evaluate, Statement.effect]
      split <;> exact ih _ (inside _) _

end Inside

theorem Reading.inside (reading : program.Reading) : program.Inside := by
  induction program with
  | done result => trivial
  | call statement next ih =>
    obtain ⟨scans, rest⟩ := reading
    cases statement with
    | start | commit | rollback | now => cases scans
    | query request => exact fun reply => ih reply (rest reply)

/-- Outside a transaction a failure at this moment leaves the rows as they are. -/
def Unharmed (program : Program S ε α) (moment : Moment S) : Prop :=
  ∀ failure, (program.evaluate none moment).1 = .error failure → (program.evaluate none moment).2.2.database = moment.database

/-- Outside a transaction a failure leaves the rows as they were. -/
def Atomic (program : Program S ε α) : Prop := ∀ moment, program.Unharmed moment

namespace Unharmed

theorem completed {next : α → Program S ε β} (unharmed : program.Unharmed moment)
    (follows : ∀ post, program.Succeeds none moment post →
      ∃ value after later, post value after later ∧ (next value).Succeeds after later fun _ _ _ => True) :
    (program >>= next).Unharmed moment := by
  intro failure failed
  have completes := follows fun value after later => program.evaluate none moment = (.ok value, after, later)
  rw [Unharmed] at unharmed
  rw [Succeeds] at completes
  rw [evaluate_bind] at failed ⊢
  generalize program.evaluate none moment = outcome at unharmed completes failed ⊢
  rcases outcome with ⟨cause | value, after, later⟩
  · exact unharmed cause rfl
  · obtain ⟨_, _, _, same, goes⟩ := completes rfl
    cases same
    obtain ⟨result, ended, _⟩ := succeeds_iff.mp goes
    cases ended.symm.trans failed

/-- The first part only scans, and tells what the second may rely on. -/
theorem afterReading {next : α → Program S ε β} (reading : program.Reading)
    (follows : ∀ post, program.Succeeds none moment post →
      ∃ value after later, post value after later ∧ (after = none → later.database = moment.database →
        (next value).Unharmed later)) :
    (program >>= next).Unharmed moment := by
  intro failure failed
  obtain ⟨session, rows⟩ := @Reading.evaluate S ε α program none moment reading
  have continues := follows fun value after later => program.evaluate none moment = (.ok value, after, later)
  rw [Succeeds] at continues
  rw [evaluate_bind] at failed ⊢
  generalize program.evaluate none moment = outcome at session rows continues failed ⊢
  rcases outcome with ⟨_ | value, after, later⟩
  · exact rows
  · obtain ⟨_, _, _, same, goes⟩ := continues rfl
    cases same
    cases session
    exact (goes rfl rows failure failed).trans rows

end Unharmed

namespace Atomic

theorem reading (reading : program.Reading) : program.Atomic := fun _ _ _ => reading.evaluate.2

theorem afterReading {next : α → Program S ε β} (reading : program.Reading) (rest : ∀ value, (next value).Atomic) :
    (program >>= next).Atomic := by
  refine fun moment => Unharmed.afterReading reading fun post succeeds => ?_
  obtain ⟨value, _, holds⟩ := succeeds_iff.mp succeeds
  exact ⟨value, _, _, holds, fun _ _ => rest value _⟩

theorem answer {answer : α → β} (atomic : program.Atomic) : (program >>= fun value => pure (answer value)).Atomic := by
  refine fun moment => (atomic moment).completed fun post succeeds => ?_
  obtain ⟨value, _, holds⟩ := succeeds_iff.mp succeeds
  exact ⟨value, _, _, holds, trivial⟩

theorem rethrown {handler : Failure ε → Program S ε α} (fails : ∀ failure, ∃ other, handler failure = .done (.error other))
    (atomic : program.Atomic) : (program.tryCatch handler).Atomic := by
  intro moment failure failed
  have unchanged := atomic moment
  rw [Unharmed] at unchanged
  rw [evaluate_tryCatch] at failed ⊢
  generalize program.evaluate none moment = outcome at unchanged failed ⊢
  rcases outcome with ⟨cause | value, after, later⟩
  · obtain ⟨other, same⟩ := fails cause
    simp only [same]
    exact unchanged cause rfl
  · cases failed

theorem query {request : Query S α} : (send (.query request) : Program S ε α).Atomic := by
  intro moment failure failed
  simp only [send, evaluate, Statement.effect] at failed ⊢
  cases executed : request.exec moment.stamp moment.clock [] (moment.view none) with
  | error error => rfl
  | ok outcome =>
    rw [executed] at failed
    cases failed

theorem transaction (inside : program.Inside) : (Program.transaction program).Atomic := by
  have finish (program : Program S ε α) (inside : program.Inside) (writes : List (Write S)) (moment : Moment S)
      (failure : Failure ε) (failed : (program.finish.evaluate (some writes) moment).1 = .error failure) :
      (program.finish.evaluate (some writes) moment).2.2.database = moment.database := by
    induction program generalizing writes moment with
    | done result =>
      cases result with
      | ok value => cases failed
      | error failure => rfl
    | call statement next ih =>
      cases statement with
      | start | commit | rollback | now => cases inside
      | query request =>
        simp only [Program.finish, evaluate, Statement.effect] at failed ⊢
        split at failed <;> exact ih _ (inside _) _ _ failed
  exact fun moment failure => finish program inside [] moment.tick failure

end Atomic
end Program
end BusinessPlatform.Engine
