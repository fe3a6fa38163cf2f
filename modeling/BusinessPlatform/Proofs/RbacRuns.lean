import BusinessPlatform.Proofs.RbacSafety
import BusinessPlatform.Engine.Faults
import BusinessPlatform.Engine.Stability

/-! Operations on members and roles that overlap in any way, while others write to the
tables that a theorem does not fix. -/

namespace BusinessPlatform.Rbac
open Engine

variable {ι : Type} [DecidableEq ι] {calls : ι → RbacCall} {fixed : List RbacModel} {database : RbacDb}
  {normalizeEmail : String → String} {state : RbacState ι} {world start : RbacWorld ι}

/-- What the calls and others may commit. -/
def lawfulRbac (fixed : List RbacModel) (calls : ι → RbacCall) : Guarantee rbac ι
  | some i, world, writes => RbacCommits i (calls i) world writes
  | none, _, writes => ∀ write ∈ writes, write.model ∉ fixed

/-- Others do not write to these tables; statements may fail, processes stop and time
pass. -/
def RbacEnvironment (fixed : List RbacModel) (_ : RbacState ι) (action : Action rbac ι) : Prop :=
  ∀ writes, action = .external writes → ∀ write ∈ writes, write.model ∉ fixed

abbrev RbacReaches (fixed : List RbacModel) : RbacState ι → RbacState ι → Prop :=
  State.Reaches (RbacEnvironment fixed)

theorem RbacEnvironment.lawful {writes : RbacWrites} (permitted : RbacEnvironment fixed state (.external writes)) :
    Allowed (lawfulRbac fixed calls none) state.world writes := .inr (permitted writes rfl)

omit [DecidableEq ι] in
theorem RbacEnvironment.undisturbed {action : Action rbac ι} (undisturbed : action.undisturbed = true) :
    RbacEnvironment fixed state action := by
  rintro writes rfl
  cases undisturbed

theorem rbacSystem_valid (normalizeEmail : String → String) (fixed : List RbacModel) (database : RbacDb) (calls : ι → RbacCall) :
    Valid (lawfulRbac fixed calls) (fun _ => Closed) (rbacSystem normalizeEmail database calls) :=
  Valid.initial fun i => RbacCall.safe (calls i) nofun

/-- The table was the same at every event. -/
structure Unchanged (m : RbacModel) (start world : RbacWorld ι) : Prop where
  now : world.database.table m = start.database.table m
  before : ∀ event ∈ world.trace, event.before.table m = start.database.table m

omit [DecidableEq ι] in
theorem Unchanged.seen {m : RbacModel} {row : m.Row} {i : ι} (unchanged : Unchanged m start world)
    (seen : Seen i world.trace m row) : row ∈ (world.database.table m).rows := by
  obtain ⟨event, member, _, there⟩ := seen
  rwa [unchanged.before event member, ← unchanged.now] at there

/-- A table that neither the calls nor others write to stays as it is. -/
theorem Unchanged.grown {m : RbacModel} (grows : Grows (lawfulRbac fixed calls) start world) (empty : start.trace = [])
    (spared : m ∈ fixed) (spares : ∀ i world writes, RbacCommits i (calls i) world writes → ∀ write ∈ writes, write.model ≠ m) :
    Unchanged m start world := by
  refine Grows.invariant (fun world => Unchanged m start world) grows ⟨rfl, by simp [empty]⟩ ?_ ?_ ?_
  · intro world label writes _ unchanged lawful
    have free : ∀ write ∈ writes, write.model ≠ m := by
      cases author : label.author with
      | some i =>
        rw [author] at lawful
        exact spares i world writes lawful
      | none =>
        rw [author] at lawful
        exact fun write member same => lawful write member (same ▸ spared)
    refine ⟨(Database.applyAll_other _ free).trans unchanged.now, fun event member => ?_⟩
    rcases List.mem_cons.mp member with rfl | earlier
    · exact unchanged.now
    · exact unchanged.before event earlier
  · intro world label unchanged
    refine ⟨unchanged.now, fun event member => ?_⟩
    rcases List.mem_cons.mp member with rfl | earlier
    · exact unchanged.now
    · exact unchanged.before event earlier
  · exact fun _ _ unchanged => ⟨unchanged.now, unchanged.before⟩

end BusinessPlatform.Rbac
