import BusinessPlatform.Engine.Atomicity
import BusinessPlatform.Engine.Queries

/-! The failures of a call that runs alone, statement by statement. -/

namespace BusinessPlatform.Engine
variable {S : Schema} {ε α β : Type} {m : S.Model}

namespace Program
variable {kind : Failure ε → Prop} {program : Program S ε α} {pending : Pending S} {moment : Moment S} {writes : List (Write S)}

/-- The program ends with a failure of a kind. -/
def Breaks (kind : Failure ε → Prop) (program : Program S ε α) (pending : Pending S) (moment : Moment S) : Prop :=
  ∃ failure, (program.evaluate pending moment).1 = .error failure ∧ kind failure

theorem Succeeds.unbroken {post : α → Pending S → Moment S → Prop} (succeeds : program.Succeeds pending moment post) :
    ¬ program.Breaks kind pending moment := by
  rintro ⟨failure, failed, _⟩
  obtain ⟨value, ended, _⟩ := succeeds_iff.mp succeeds
  cases ended.symm.trans failed

theorem Succeeds.and {first second : α → Pending S → Moment S → Prop} (left : program.Succeeds pending moment first)
    (right : program.Succeeds pending moment second) :
    program.Succeeds pending moment fun value after later => first value after later ∧ second value after later := by
  obtain ⟨value, ended, holds⟩ := succeeds_iff.mp left
  obtain ⟨other, again, also⟩ := succeeds_iff.mp right
  cases ended.symm.trans again
  exact succeeds_iff.mpr ⟨value, ended, holds, also⟩

theorem Succeeds.imp {first second : α → Pending S → Moment S → Prop} (succeeds : program.Succeeds pending moment first)
    (weaker : ∀ value after later, first value after later → second value after later) :
    program.Succeeds pending moment second := by
  obtain ⟨value, ended, holds⟩ := succeeds_iff.mp succeeds
  exact succeeds_iff.mpr ⟨value, ended, weaker _ _ _ holds⟩

@[simp] theorem breaks_done {value : α} : ¬ (done (.ok value) : Program S ε α).Breaks kind pending moment := nofun

@[simp] theorem breaks_pure {value : α} : ¬ (pure value : Program S ε α).Breaks kind pending moment := nofun

@[simp] theorem breaks_failed {failure : Failure ε} :
    (done (.error failure) : Program S ε α).Breaks kind pending moment ↔ kind failure := by
  simp [Breaks, evaluate]

theorem breaks_bind {next : α → Program S ε β} : (program >>= next).Breaks kind pending moment ↔
    program.Breaks kind pending moment ∨
      program.Succeeds pending moment fun value after later => (next value).Breaks kind after later := by
  rw [Breaks, Breaks, Succeeds, evaluate_bind]
  rcases program.evaluate pending moment with ⟨failure | value, after, later⟩
  · simp
  · simp [Breaks]

theorem breaks_throwIf {condition : Bool} {exception : ε} :
    (throwIf condition exception : Program S ε Unit).Breaks kind pending moment ↔ condition = true ∧ kind (.thrown exception) := by
  cases condition <;> simp [throwIf, throw]

theorem breaks_orThrow {value : Option α} {exception : ε} :
    (orThrow value exception : Program S ε α).Breaks kind pending moment ↔ value = none ∧ kind (.thrown exception) := by
  cases value <;> simp [orThrow, throw]

theorem breaks_ofExcept {result : Except ε α} :
    (ofExcept result : Program S ε α).Breaks kind pending moment ↔ ∃ exception, result = .error exception ∧ kind (.thrown exception) := by
  cases result <;> simp [ofExcept, throw]

theorem breaks_query {request : Query S β} : (send (.query request) : Program S ε β).Breaks kind pending moment ↔
    ∃ error, request.exec moment.stamp moment.clock [] (moment.view pending) = .error error ∧ kind (.database error) := by
  simp only [send, Breaks, evaluate, Statement.effect]
  cases request.exec moment.stamp moment.clock [] (moment.view pending) with
  | error error => simp [evaluate]
  | ok outcome => cases pending <;> simp [evaluate]

theorem breaks_findMany {filter : S.Row m → Bool} :
    ¬ (findMany m filter : Program S ε (List (S.Row m))).Breaks kind pending moment := by
  rw [findMany, breaks_query]
  simp [Query.exec]

theorem breaks_findFirst {filter : S.Row m → Bool} :
    ¬ (findFirst m filter : Program S ε (Option (S.Row m))).Breaks kind pending moment := by
  rw [findFirst, breaks_bind, not_or]
  refine ⟨breaks_findMany, fun succeeds => ?_⟩
  rw [succeeds_findMany] at succeeds
  exact breaks_pure succeeds

theorem breaks_create {build : Nat → Nat → S.Row m}
    (fresh : (moment.view pending).get m (S.key (build moment.stamp moment.clock)) = none) :
    (create m build : Program S ε (S.Row m)).Breaks kind pending moment ↔
      ∃ error, constrain (moment.view pending) (build moment.stamp moment.clock) = .error error ∧ kind (.database error) := by
  rw [create, breaks_query]
  refine exists_congr fun error => and_congr ?_ Iff.rfl
  simp only [Query.exec, fresh, Option.isSome_none, Bool.false_eq_true, if_false]
  cases constrain (moment.view pending) (build moment.stamp moment.clock) <;> simp

/-- A guarded update that breaks has found a row, unless a missing row counts as such a failure. -/
theorem Breaks.matched {filter : S.Row m → Bool} {change : Change S m} {exception : ε}
    (breaks : (do let count ← updateMany m filter change; throwIf (count = 0) exception : Program S ε Unit).Breaks kind pending moment)
    (tolerated : ¬ kind (.thrown exception)) : ∃ row ∈ ((moment.view pending).table m).rows, filter row = true := by
  rcases breaks_bind.mp breaks with refused | counted
  · obtain ⟨error, executed, _⟩ := breaks_query.mp refused
    obtain ⟨row, member, matched, _⟩ := Query.exec_updateMany_error executed
    exact ⟨row, member, matched⟩
  · obtain ⟨count, _, thrown⟩ := succeeds_iff.mp counted
    exact absurd (breaks_throwIf.mp thrown).2 tolerated

theorem breaks_transaction : (transaction program).Breaks kind none moment ↔ program.Breaks kind (some []) moment.tick := by
  have finish (program : Program S ε α) (pending : Pending S) (moment : Moment S) :
      program.finish.Breaks kind pending moment ↔ program.Breaks kind pending moment := by
    induction program generalizing pending moment with
    | done result => cases result <;> exact Iff.rfl
    | call statement rest ih => exact ih _ _ _
  exact finish program _ _

end Program
end BusinessPlatform.Engine
