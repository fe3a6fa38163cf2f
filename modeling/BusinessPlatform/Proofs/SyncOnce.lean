import BusinessPlatform.Proofs.SyncHistory

/-! How often an operation is executed. A claim admits one executing call at a
time, but a stale claim may be cleared under a call that has already committed
its order, or still will. -/

namespace BusinessPlatform
open Engine PosSyncService

variable {ι : Type} [DecidableEq ι] {sha256 : String → String} {calls : ι → Call} {shop : Shop}
  {state next : SystemState ι} {operationId : Id}

/-- The operation has not been executed, and every call that may execute it has
ended. -/
structure Orphaned (calls : ι → Call) (operationId : Id) (state : SystemState ι) : Prop where
  unexecuted : syncOrders calls operationId state.world = []
  ended : ∀ i, HasClaimed operationId i state.world → state.finished i

instance [Fintype ι] : Decidable (Orphaned calls operationId state) :=
  decidable_of_iff (syncOrders calls operationId state.world = [] ∧
    ∀ i, HasClaimed operationId i state.world → state.finished i) ⟨fun orphaned => ⟨orphaned.1, orphaned.2⟩,
      fun orphaned => ⟨orphaned.unexecuted, orphaned.ended⟩⟩

/-- The event gives back the claim of a pending operation. -/
def ClearsClaim (operationId : Id) (event : Event commerce ι) : Prop :=
  (event.before.get .posOperation operationId).isSome = true ∧
    ∃ row : PosOperation, row ∈ putsOf (S := commerce) .posOperation event.writes ∧ row.id = operationId ∧
      row.status = .pending ∧ row.processedAt = none

instance {event : Event commerce ι} : Decidable (ClearsClaim operationId event) :=
  inferInstanceAs (Decidable (_ ∧ ∃ row, row ∈ _ ∧ _))

/-- A stale claim is cleared only if its call has ended before its order. -/
def ClearsOrphans (calls : ι → Call) (operationId : Id) (state : SystemState ι) (event : Event commerce ι) : Prop :=
  ClearsClaim operationId event → Orphaned calls operationId state

instance [Fintype ι] {event : Event commerce ι} : Decidable (ClearsOrphans calls operationId state event) :=
  inferInstanceAs (Decidable (_ → _))

/-- The operation can no longer be claimed, or not before its claim is cleared. -/
def Occupied (operationId : Id) (world : SystemWorld ι) : Prop :=
  ∃ row : PosOperation, world.database.get .posOperation operationId = some row ∧
    (row.status ≠ .pending ∨ row.processedAt ≠ none)

structure Exclusive (calls : ι → Call) (operationId : Id) (state : SystemState ι) : Prop where
  quiet : Orphaned calls operationId state ∨ Occupied operationId state.world
  sole : ∀ i j, HasClaimed operationId i state.world → HasClaimed operationId j state.world →
    ¬ state.finished i → ¬ state.finished j → i = j
  spent : ∀ i claim, state.world.own i = [claim] → Claim operationId claim → ¬ state.finished i →
    syncOrders calls operationId state.world = []
  once : (syncOrders calls operationId state.world).length ≤ 1
  undebited : syncOrders calls operationId state.world = [] →
    ∀ variantId, syncDebits calls operationId variantId state.world = []
  debited : ∀ variantId, (syncDebits calls operationId variantId state.world).length ≤ 1

section Step
variable {label : Label commerce ι} {writes : Writes}

private theorem Exclusive.apart (exclusive : Exclusive calls operationId state)
    (later : ∀ i, state.finished i → next.finished i)
    (claims : ∀ i, HasClaimed operationId i next.world → HasClaimed operationId i state.world)
    (own : ∀ i claim, next.world.own i = [claim] → Claim operationId claim → state.world.own i = [claim])
    (orders : syncOrders calls operationId next.world = syncOrders calls operationId state.world)
    (debits : ∀ variantId, syncDebits calls operationId variantId next.world =
      syncDebits calls operationId variantId state.world)
    (occupied : Occupied operationId state.world → Orphaned calls operationId next ∨ Occupied operationId next.world) :
    Exclusive calls operationId next := by
  have running : ∀ i, ¬ next.finished i → ¬ state.finished i := fun i open_ ended => open_ (later i ended)
  refine ⟨?_, fun i j first second openFirst openSecond => ?_, fun i claim only held open_ => ?_, ?_, fun none variantId => ?_,
    fun variantId => ?_⟩
  · rcases exclusive.quiet with orphaned | held
    · exact .inl ⟨orders ▸ orphaned.unexecuted, fun i claimed => later i (orphaned.ended i (claims i claimed))⟩
    · exact occupied held
  · exact exclusive.sole i j (claims i first) (claims j second) (running i openFirst) (running j openSecond)
  · exact orders ▸ exclusive.spent i claim (own i claim only held) held (running i open_)
  · exact orders ▸ exclusive.once
  · exact debits variantId ▸ exclusive.undebited (orders ▸ none) variantId
  · exact debits variantId ▸ exclusive.debited variantId

private theorem Exclusive.event (exclusive : Exclusive calls operationId state)
    (later : ∀ i, state.finished i → next.finished i) (recorded : next.world = state.world.record label writes)
    (active : ∀ i, label.author = some i → ¬ state.finished i) (allowed : lawful calls label.author state.world writes)
    (clears : ClearsClaim operationId ⟨label, state.world.database, writes⟩ → Orphaned calls operationId state) :
    Exclusive calls operationId next := by
  -- a commit that is no claim adds no claimer and no call whose only commit is its claim
  have claims (unclaimed : ¬ Claim operationId writes) (i : ι) (claimed : HasClaimed operationId i next.world) :
      HasClaimed operationId i state.world :=
    (HasClaimed.before (recorded ▸ claimed)).resolve_right fun both => unclaimed both.2
  have own (unclaimed : ¬ Claim operationId writes) (i : ι) (claim : Writes) (only : next.world.own i = [claim])
      (held : Claim operationId claim) : state.world.own i = [claim] := by
    rw [recorded] at only
    rcases World.own_record i with same | ⟨_, same⟩
    · exact same.symm.trans only
    · rw [same] at only
      exact absurd ((List.cons.inj only).1 ▸ held) unclaimed
  have operated {row : PosOperation} (written : writes = [.put .posOperation row])
      (unclaimed : row.status ≠ .pending ∨ row.processedAt = none) : ¬ Claim operationId writes := by
    rintro ⟨claimed, _, pending, processed⟩
    cases written
    rcases unclaimed with settled | free
    · exact settled pending
    · simp [free] at processed
  have orders (uncreated : createdOrders ⟨label, state.world.database, writes⟩ = []) :
      syncOrders calls operationId next.world = syncOrders calls operationId state.world :=
    recorded ▸ syncOrders_same uncreated
  have debits (undebited : putsOf (S := commerce) .inventory writes = []) (variantId : Id) :
      syncDebits calls operationId variantId next.world = syncDebits calls operationId variantId state.world :=
    recorded ▸ syncDebits_same undebited
  have settles {change : Change commerce .posOperation} {row : PosOperation}
      (found : state.world.database.get .posOperation operationId = some row)
      (written : writes = [.put .posOperation (change.apply row)])
      (settled : (change.apply row).status ≠ .pending ∨ (change.apply row).processedAt ≠ none) :
      Occupied operationId next.world := ⟨_, recorded ▸ get_operated found written, settled⟩
  have effect : SyncEffect calls operationId state.world label writes := allowed.syncEffect
  cases effect with
  | foreign other unclaimed kept =>
    refine exclusive.apart later (claims unclaimed) (own unclaimed) ?_ (fun variantId => ?_) ?_
    · simp [recorded, syncOrders_record, other]
    · simp [recorded, syncDebits_record, other]
    · rintro ⟨row, found, held⟩
      rcases kept with same | ⟨absent, _⟩
      · exact .inr ⟨row, recorded ▸ same.trans found, held⟩
      · cases absent.symm.trans found
  | cleared i author own' row found pending written =>
    have unclaimed := operated written (.inr rfl)
    refine exclusive.apart later (claims unclaimed) (own unclaimed) (orders (by rw [written]; rfl))
      (debits (by simp [written])) fun _ => .inl ?_
    have orphaned := clears ⟨by simp [found], (setProcessedAt none).apply row, by simp [written], ?_, pending, rfl⟩
    · exact ⟨(orders (by rw [written]; rfl)).trans orphaned.unexecuted,
        fun k claimed => later k (orphaned.ended k (claims unclaimed k claimed))⟩
    · exact (Table.find_eq_some.mp found).2
  | rejected i author own' row found pending code written =>
    have unclaimed := operated written (.inl nofun)
    exact exclusive.apart later (claims unclaimed) (own unclaimed) (orders (by rw [written]; rfl))
      (debits (by simp [written])) fun _ => .inr (settles found written (.inl nofun))
  | accepted i author _ row found pending claim held _ placement payment paid own' _ written =>
    have unclaimed := operated written (.inl nofun)
    exact exclusive.apart later (claims unclaimed) (own unclaimed) (orders (by rw [written]; rfl))
      (debits (by simp [written])) fun _ => .inr (settles found written (.inl nofun))
  | continued i author _ placement claim own' uncreated undebited untouched =>
    have unclaimed : ¬ Claim operationId writes := fun claim => by
      obtain ⟨row, written, _⟩ := claim.writes_operations
      cases untouched.1.symm.trans written
    refine exclusive.apart later (claims unclaimed) (own unclaimed) (orders uncreated) (debits undebited) ?_
    rintro ⟨row, found, held⟩
    exact .inr ⟨row, recorded ▸ (Database.get_unwritten (S := commerce) _ untouched.2 untouched.1 _).trans found, held⟩
  | claimed i author own' row found pending unclaimed now written =>
    have free : Orphaned calls operationId state := exclusive.quiet.resolve_right fun ⟨other, same, occupied⟩ => by
      cases same.symm.trans found
      rcases occupied with settled | processed
      · exact settled pending
      · exact processed unclaimed
    have unexecuted := (orders (by rw [written]; rfl)).trans free.unexecuted
    have unmoved := debits (by simp [written])
    -- every other claimer has ended
    have only (k : ι) (claimed : HasClaimed operationId k next.world) (open_ : ¬ next.finished k) : k = i := by
      rcases HasClaimed.before (recorded ▸ claimed) with earlier | ⟨same, _⟩
      · exact absurd (later k (free.ended k earlier)) open_
      · exact Option.some.inj (same.symm.trans author)
    refine ⟨.inr (settles found written (.inr nofun)), fun j k first second open₁ open₂ => ?_, fun _ _ _ _ _ => unexecuted,
      by simp [unexecuted], fun _ variantId => ?_, fun variantId => ?_⟩
    · rw [only j first open₁, only k second open₂]
    · exact (unmoved variantId).trans (exclusive.undebited free.unexecuted variantId)
    · exact unmoved variantId ▸ exclusive.debited variantId
  | ordered i author claim held own' placement placed written =>
    subst written
    have unclaimed : ¬ Claim operationId placement.writes := fun claim => by
      obtain ⟨row, written, _⟩ := claim.writes_operations
      simp at written
    have mine : HasClaimed operationId i state.world := ⟨claim, by simp [own'], held⟩
    have running := active i author
    have unexecuted := exclusive.spent i claim own' held running
    have undebited := exclusive.undebited unexecuted
    refine ⟨?_, fun j k first second open₁ open₂ => ?_, fun k other alone claimed open_ => ?_, ?_, fun none variantId => ?_,
      fun variantId => ?_⟩
    · rcases exclusive.quiet with orphaned | ⟨row, found, occupied⟩
      · exact absurd (orphaned.ended i mine) running
      · refine .inr ⟨row, recorded ▸ Eq.trans ?_ found, occupied⟩
        exact Database.get_unwritten (S := commerce) _ (by simp) (by simp) _
    · exact exclusive.sole j k (claims unclaimed j first) (claims unclaimed k second) (fun ended => open₁ (later j ended))
        fun ended => open₂ (later k ended)
    · -- the executing call has more than its claim, and it is the only one left
      have earlier := own unclaimed k other alone claimed
      have same : k = i := exclusive.sole k i ⟨other, by simp [earlier], claimed⟩ mine
        (fun ended => open_ (later k ended)) running
      subst same
      rw [recorded, World.own_record_same own' author (by simp [Placement.writes])] at alone
      cases alone
    · rw [recorded, syncOrders_record, unexecuted, createdOrders_placed placed]
      split <;> simp
    · rw [recorded, syncOrders_record, createdOrders_placed placed] at none
      rw [recorded, syncDebits_record, undebited]
      split at none
      next => simp at none
      next foreign => simp [foreign]
    · rw [recorded, syncDebits_record, undebited, List.append_nil]
      split
      next => exact debitedPools_placed placed
      next => simp

private theorem Exclusive.still (exclusive : Exclusive calls operationId state)
    (later : ∀ i, state.finished i → next.finished i) (still : Still state.world next.world) :
    Exclusive calls operationId next := by
  refine exclusive.apart later (fun i ⟨claim, member, held⟩ => ⟨claim, still.own i ▸ member, held⟩)
    (fun i claim only _ => (still.own i).symm.trans only) (syncOrders_still still) (fun _ => syncDebits_still still)
    fun ⟨row, found, occupied⟩ => .inr ⟨row, ?_, occupied⟩
  exact still.database ▸ found

end Step

private theorem Exclusive.start : Exclusive calls operationId (shop.system sha256 calls) where
  quiet := .inl ⟨rfl, fun _ ⟨_, member, _⟩ => nomatch member⟩
  sole := fun _ _ ⟨_, member, _⟩ => nomatch member
  spent := fun _ _ only => nomatch only
  once := Nat.zero_le _
  undebited := fun _ _ => rfl
  debited := fun _ => Nat.zero_le _

/-- An operation is executed at most once in every run in which stale claims are
cleared only under calls that have ended before their order. -/
theorem operation_executed_once (reached : State.Reaches
    (fun state action => Environment state action ∧ state.Records (ClearsOrphans calls operationId) action)
    (shop.system sha256 calls) state) :
    (syncOrders calls operationId state.world).length ≤ 1 ∧
      ∀ variantId, (syncDebits calls operationId variantId state.world).length ≤ 1 := by
  have exclusive : Exclusive calls operationId state :=
    Shop.recording (Exclusive calls operationId) reached .start
      (fun _ _ exclusive later still => exclusive.still later still)
      fun _ _ _ _ _ exclusive later recorded active lawful clears => exclusive.event later recorded active lawful clears
  exact ⟨exclusive.once, exclusive.debited⟩

/-- The call that holds the claim stops before its order, and the next one
executes the operation. -/
theorem operation_executed_once_retried : ∃ state : SystemState (Fin 5),
    (syncOrders (offlineSale 10) 7 state.world).length = 1 ∧ ∀ variantId, (syncDebits (offlineSale 10) 7 variantId state.world).length ≤ 1 := by
  have executed : ((Shop.demo.system (fun _ => "hash") (offlineSale 10)).runWhile
      (fun state event => ClearsOrphans (offlineSale 10) 7 state event)
      (runs 0 5 ++ runs 1 7 ++ runs 2 12 ++ [.stop 2, .wait 300001] ++ runs 3 15 ++ runs 4 39)).any (fun state =>
        (syncOrders (offlineSale 10) 7 state.world).length = 1) = true := by decide +kernel
  obtain ⟨state, reached, once⟩ := Shop.Reaches.checked executed rfl
  exact ⟨state, of_decide_eq_true once, (operation_executed_once reached).2⟩

/-- The call that holds the claim stops after its order. The stale claim is
cleared all the same, and the operation is executed again. -/
theorem operation_executed_twice : ∃ state, Shop.demo.Reaches (fun _ => "hash") (offlineSale 10) state ∧
    (syncOrders (offlineSale 10) 7 state.world).length = 2 ∧ (syncDebits (offlineSale 10) 7 1 state.world).length = 2 := by
  have executed : ((Shop.demo.system (fun _ => "hash") (offlineSale 10)).run
      (runs 0 5 ++ runs 1 7 ++ runs 2 22 ++ [.stop 2, .wait 300001] ++ runs 3 15 ++ runs 4 22)).any (fun state =>
        (syncOrders (offlineSale 10) 7 state.world).length = 2 && (syncDebits (offlineSale 10) 7 1 state.world).length = 2) = true := by
    decide +kernel
  obtain ⟨state, reached, twice⟩ := Shop.Reaches.computed executed rfl
  simp only [Bool.and_eq_true, decide_eq_true_eq] at twice
  exact ⟨state, reached, twice⟩

end BusinessPlatform
