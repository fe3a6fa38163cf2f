import BusinessPlatform.Proofs.OrderLines

/-! The synchronisation of one operation, as the trace records it: which
statements its calls have executed, and what one more statement can do. -/

namespace BusinessPlatform
open Engine PosSyncService PosOperationService OrderService PaymentService

variable {ι : Type}

/-- The call synchronises the operation. -/
def Call.synchronises (operationId : Id) : Call → Bool
  | .syncOperation _ _ id _ => id = operationId
  | _ => false

theorem Call.synchronises_iff {operationId : Id} {call : Call} : call.synchronises operationId = true ↔
    ∃ tenantId userId credential, call = .syncOperation tenantId userId operationId credential := by
  cases call <;> simp [Call.synchronises, eq_comm]

/-- The statement belongs to a call that synchronises the operation. -/
def Synchronises (calls : ι → Call) (operationId : Id) (author : Option ι) : Bool :=
  author.any fun i => (calls i).synchronises operationId

/-- The pools of a variant from which an event has taken stock. -/
def debitedPools (variantId : Id) (event : Event commerce ι) : List Inventory :=
  (putsOf (S := commerce) .inventory event.writes).filter fun row =>
    row.variantId = variantId && row.quantityOnHand < stockOf event.before row.pool

def syncEvents (calls : ι → Call) (operationId : Id) (world : SystemWorld ι) : List (Event commerce ι) :=
  world.trace.filter fun event => Synchronises calls operationId event.author

/-- The orders created by executing an operation. -/
def syncOrders (calls : ι → Call) (operationId : Id) (world : SystemWorld ι) : List Order :=
  (syncEvents calls operationId world).flatMap createdOrders

/-- The debits of a variant made by executing an operation. -/
def syncDebits (calls : ι → Call) (operationId variantId : Id) (world : SystemWorld ι) : List Inventory :=
  (syncEvents calls operationId world).flatMap (debitedPools variantId)

/-- A commit that changes nothing but operations. -/
def OperationOnly (writes : Writes) : Prop := ∀ write ∈ writes, write.model = Model.posOperation

section Events
variable {calls : ι → Call} {operationId variantId : Id} {world : SystemWorld ι} {label : Label commerce ι}
  {writes : Writes}

theorem syncOrders_record : syncOrders calls operationId (world.record label writes) =
    (if Synchronises calls operationId label.author then createdOrders ⟨label, world.database, writes⟩ else []) ++
      syncOrders calls operationId world := by
  cases own : Synchronises calls operationId label.author <;> simp [syncOrders, syncEvents, own]

theorem syncDebits_record : syncDebits calls operationId variantId (world.record label writes) =
    (if Synchronises calls operationId label.author then debitedPools variantId ⟨label, world.database, writes⟩ else []) ++
      syncDebits calls operationId variantId world := by
  cases own : Synchronises calls operationId label.author <;> simp [syncDebits, syncEvents, own]

theorem syncOrders_same (uncreated : createdOrders ⟨label, world.database, writes⟩ = []) :
    syncOrders calls operationId (world.record label writes) = syncOrders calls operationId world := by
  simp [syncOrders_record, uncreated]

theorem syncDebits_same (undebited : putsOf (S := commerce) .inventory writes = []) :
    syncDebits calls operationId variantId (world.record label writes) = syncDebits calls operationId variantId world := by
  simp [syncDebits_record, debitedPools, undebited]

private theorem syncEvents_still {β : Type} {after : SystemWorld ι} (still : Still world after)
    (collect : Event commerce ι → List β) (empty : ∀ event, event.writes = [] → collect event = []) :
    (syncEvents calls operationId after).flatMap collect = (syncEvents calls operationId world).flatMap collect := by
  obtain ⟨news, same, unwritten⟩ := still.trace
  have none : (news.filter fun event => Synchronises calls operationId event.author).flatMap collect = [] :=
    List.flatMap_eq_nil_iff.mpr fun event member => empty event (unwritten event (List.mem_filter.mp member).1)
  simp [syncEvents, same, none]

theorem syncOrders_still {after : SystemWorld ι} (still : Still world after) :
    syncOrders calls operationId after = syncOrders calls operationId world :=
  syncEvents_still still _ fun _ empty => by simp [createdOrders, empty]

theorem syncDebits_still {after : SystemWorld ι} (still : Still world after) :
    syncDebits calls operationId variantId after = syncDebits calls operationId variantId world :=
  syncEvents_still still _ fun _ empty => by simp [debitedPools, empty]

theorem debitedPools_placed {placement : Placement} (placed : Placed world.database placement) :
    (debitedPools variantId ⟨label, world.database, placement.writes⟩).length ≤ 1 := by
  have variants : (placement.lines.map fun line => line.debited).map Inventory.variantId =
      placement.lines.map fun line => line.variantId := by
    rw [List.map_map]
    exact List.map_congr_left fun line member => congrArg Prod.fst (placed.debits line member).pool
  have once := List.nodup_iff_count_le_one.mp (variants ▸ placed.distinct) variantId
  refine le_trans ?_ once
  simp only [debitedPools, Placement.writes_inventory]
  rw [List.count, List.countP_map, ← List.countP_eq_length_filter]
  refine List.countP_mono_left fun row _ matched => ?_
  simp only [Bool.and_eq_true, decide_eq_true_eq] at matched
  simpa using matched.1

theorem Claim.writes_operations (claim : Claim operationId writes) :
    ∃ row : PosOperation, putsOf (S := commerce) .posOperation writes = [row] ∧ row.id = operationId ∧
      row.status = .pending ∧ row.processedAt.isSome = true := by
  obtain ⟨row, identity, pending, claimed⟩ := claim
  exact ⟨row, by simp, identity, pending, claimed⟩

theorem Claim.iff : Claim operationId writes ↔ writes.length = 1 ∧
    ∃ row ∈ putsOf (S := commerce) .posOperation writes,
      row.id = operationId ∧ row.status = .pending ∧ row.processedAt.isSome = true := by
  constructor
  · rintro ⟨row, identity, pending, claimed⟩
    exact ⟨rfl, row, by simp, identity, pending, claimed⟩
  · rintro ⟨single, row, member, identity, pending, claimed⟩
    obtain ⟨write, rfl⟩ := List.length_eq_one_iff.mp single
    cases write with
    | put m new =>
      by_cases same : m = .posOperation
      · subst same
        simp only [putsOf_put_same, putsOf_nil, List.mem_singleton] at member
        subst member
        exact .mk row identity pending claimed
      · simp [putsOf_put_other _ _ same] at member
    | erase m key => simp at member

instance : Decidable (Claim operationId writes) := decidable_of_iff _ Claim.iff.symm

end Events

section Step
variable [DecidableEq ι] {calls : ι → Call} {operationId : Id} {world : SystemWorld ι} {label : Label commerce ι}
  {writes : Writes}

/-- What a lawful commit does to one operation and to its execution. -/
inductive SyncEffect (calls : ι → Call) (operationId : Id) (world : SystemWorld ι) (label : Label commerce ι)
    (writes : Writes) : Prop where
  | foreign (other : Synchronises calls operationId label.author = false)
      (unclaimed : ¬ Claim operationId writes)
      (kept : (world.database.applyAll writes).get .posOperation operationId =
          world.database.get .posOperation operationId ∨
        world.database.get .posOperation operationId = none ∧
          ∃ row : PosOperation, (world.database.applyAll writes).get .posOperation operationId = some row ∧
            row.status = .pending ∧ row.processedAt = none)
  | claimed (i : ι) (author : label.author = some i) (own : world.own i = []) (row : PosOperation)
      (found : world.database.get .posOperation operationId = some row) (pending : row.status = .pending)
      (unclaimed : row.processedAt = none) (now : Nat)
      (written : writes = [.put .posOperation ((setProcessedAt (some now)).apply row)])
  | cleared (i : ι) (author : label.author = some i) (own : world.own i = []) (row : PosOperation)
      (found : world.database.get .posOperation operationId = some row) (pending : row.status = .pending)
      (written : writes = [.put .posOperation ((setProcessedAt none).apply row)])
  | rejected (i : ι) (author : label.author = some i)
      (own : world.own i = [] ∨ ∃ claim, Claim operationId claim ∧ world.own i = [claim]) (row : PosOperation)
      (found : world.database.get .posOperation operationId = some row) (pending : row.status = .pending)
      (code : String) (written : writes = [.put .posOperation ((reject code).apply row)])
  | accepted (i : ι) (author : label.author = some i) (own : (calls i).synchronises operationId = true) (row : PosOperation)
      (found : world.database.get .posOperation operationId = some row) (pending : row.status = .pending)
      (claim : Writes) (held : Claim operationId claim) (later : List Writes) (placement : Placement)
      (payment paid : Payment) (earlier : world.own i = later ++ [[.put .payment payment], placement.writes, claim])
      (settled : world.database.get .payment payment.id = some paid ∧ paid.status = .captured ∧
        paid.orderId = placement.order.id)
      (written : writes = [.put .posOperation ((accept placement.order.id payment.id).apply row)])
  | ordered (i : ι) (author : label.author = some i) (claim : Writes) (held : Claim operationId claim)
      (own : world.own i = [claim]) (placement : Placement) (placed : Placed world.database placement)
      (written : writes = placement.writes)
  | continued (i : ι) (author : label.author = some i) (later : List Writes) (placement : Placement) (claim : Writes)
      (own : world.own i = later ++ [placement.writes, claim])
      (uncreated : createdOrders ⟨label, world.database, writes⟩ = [])
      (undebited : putsOf (S := commerce) .inventory writes = [])
      (untouched : putsOf (S := commerce) .posOperation writes = [] ∧
        erasesOf (S := commerce) .posOperation writes = [])

omit [DecidableEq ι] in
private theorem Operated.written {tenantId : Id} {change : Change commerce .posOperation}
    (operated : Operated tenantId operationId world.database change writes) :
    ∃ row : PosOperation, world.database.get .posOperation operationId = some row ∧ row.status = .pending ∧
      writes = [.put .posOperation (change.apply row)] := by
  obtain ⟨row, found, pending, _⟩ := operated
  exact ⟨row, found, pending, rfl⟩

private theorem SyncStep.syncEffect {i : ι} {tenantId : Id} (author : label.author = some i)
    (synchronises : (calls i).synchronises operationId = true)
    (step : SyncStep i tenantId operationId world (world.own i) writes) :
    SyncEffect calls operationId world label writes := by
  generalize same : world.own i = history at step
  cases step with
  | rejected code operated =>
    obtain ⟨row, found, pending, written⟩ := operated.written
    exact .rejected i author (.inl same) row found pending code written
  | claimed row now found pending unclaimed tenant =>
    exact .claimed i author same row found pending unclaimed now rfl
  | cleared operated =>
    obtain ⟨row, found, pending, written⟩ := operated.written
    exact .cleared i author same row found pending written
  | outOfStock claim held operated =>
    obtain ⟨row, found, pending, written⟩ := operated.written
    exact .rejected i author (.inr ⟨claim, held, same⟩) row found pending OUT_OF_STOCK written
  | accepted claim held placement payment paid captures sale once found captured order operated =>
    obtain ⟨row, there, pending, written⟩ := operated.written
    exact .accepted i author synchronises row there pending claim held _ placement payment paid same ⟨found, captured, order⟩ written
  | executed claim held row items filled validated earlier found tenant lines read step =>
    cases step with
    | order placement session ordered => exact .ordered i author claim held same placement ordered.toPlaced rfl
    | payment placement payment created =>
      exact .continued i author [] placement claim same rfl (by simp) ⟨by simp, by simp⟩
    | capture placement payment captured =>
      obtain ⟨current, order, _, _, _, ordered, _⟩ := captured
      have existing : ((setOrder .paid).apply order).id = current.orderId := (Table.find_eq_some.mp ordered).2
      refine .continued i author [[.put .payment payment]] placement claim same ?_ (by simp) ⟨by simp, by simp⟩
      simp [createdOrders, existing, ordered]
    | sale placement payment captures sale once fresh order paid store tenant =>
      exact .continued i author (captures ++ [[.put .payment payment]]) placement claim (by simp [same]) rfl (by simp)
        ⟨by simp, by simp⟩

private theorem SyncEffect.unwritten (effect : Effect world.trace.length world.database writes)
    (other : Synchronises calls operationId label.author = false)
    (unwritten : ∀ row ∈ putsOf (S := commerce) .posOperation writes, row.id ≠ operationId) :
    SyncEffect calls operationId world label writes := by
  refine .foreign other (fun claim => ?_) (.inl ?_)
  · obtain ⟨row, written, identity, _⟩ := claim.writes_operations
    exact unwritten row (by simp [written]) identity
  · refine Database.get_untouched (S := commerce) _ effect.operation.1 fun present => ?_
    obtain ⟨row, member, identity⟩ := List.mem_map.mp present
    exact unwritten row member identity

omit [DecidableEq ι] in
/-- A call writes no operation but the one that it synchronises, which exists,
and no line. -/
theorem SyncStep.operations {i : ι} {tenantId : Id} {history : List Writes}
    (step : SyncStep i tenantId operationId world history writes) :
    putsOf (S := commerce) .posOperationItem writes = [] ∧ ∀ row ∈ putsOf (S := commerce) .posOperation writes,
      row.id = operationId ∧ (world.database.get .posOperation operationId).isSome = true := by
  have operated : ∀ {change : Change commerce .posOperation},
      Operated tenantId operationId world.database change writes →
      putsOf (S := commerce) .posOperationItem writes = [] ∧ ∀ row ∈ putsOf (S := commerce) .posOperation writes,
        row.id = operationId ∧ (world.database.get .posOperation operationId).isSome = true := by
    rintro change ⟨row, found, _, _⟩
    refine ⟨by simp, fun new member => ?_⟩
    simp only [putsOf_put_same, putsOf_nil, List.mem_singleton] at member
    subst member
    exact ⟨(change.keeps row).trans (Table.find_eq_some.mp found).2, by simp [found]⟩
  cases step with
  | rejected code change | cleared change | outOfStock claim held change => exact operated change
  | claimed row now found pending unclaimed tenant =>
    have change : Operated tenantId operationId world.database (setProcessedAt (some now))
        [.put .posOperation ((setProcessedAt (some now)).apply row)] := .mk row found pending tenant
    exact operated change
  | accepted claim held placement payment paid captures sale once found captured order change => exact operated change
  | executed claim held row items filled validated earlier found tenant lines read step =>
    cases step with
    | order placement session ordered => simp
    | payment placement payment created => simp
    | capture placement payment captured => cases captured; simp
    | sale placement payment captures sale once fresh order paid store tenant => simp

/-- Calls that do not synchronise the operation leave its row, or insert it. -/
private theorem lawful.foreign (allowed : lawful calls label.author world writes)
    (other : Synchronises calls operationId label.author = false) : SyncEffect calls operationId world label writes := by
  have effect := allowed.effect
  cases author : label.author with
  | none =>
    rw [author] at allowed
    exact .unwritten effect other (by simp [(external_nothing (m := .posOperation) rfl allowed).1])
  | some i =>
    rw [author] at allowed
    simp only [lawful, Call.Commits] at allowed
    split at allowed
    · obtain ⟨_, adjusted⟩ := allowed
      exact .unwritten effect other (by cases adjusted <;> simp)
    · obtain ⟨_, placement, _, rfl⟩ := allowed
      exact .unwritten effect other (by simp)
    · obtain ⟨_, cancellation, _, rfl⟩ := allowed
      exact .unwritten effect other (by simp)
    · obtain ⟨_, payment, _, rfl⟩ := allowed
      exact .unwritten effect other (by simp)
    · obtain ⟨_, captured⟩ := allowed
      exact .unwritten effect other (by cases captured; simp)
    · obtain ⟨_, failed⟩ := allowed
      exact .unwritten effect other (by cases failed; simp)
    · generalize world.own i = history at allowed
      refine .unwritten effect other ?_
      cases allowed with
      | capture placement payment captured => cases captured; simp
      | _ => simp
    · obtain ⟨_, operation, items, recorded, rfl⟩ := allowed
      by_cases same : operation.id = operationId
      · subst same
        refine .foreign other (fun claim => ?_) (.inr ⟨recorded.fresh, operation, ?_, recorded.pending, recorded.unclaimed⟩)
        · obtain ⟨row, written, _, _, claimed⟩ := claim.writes_operations
          simp only [intentWrites_operations, List.cons.injEq, and_true] at written
          subst written
          simp [recorded.unclaimed] at claimed
        · exact Database.get_stored (S := commerce) (m := .posOperation) _ (by simp) (by simp) (by simp)
      · exact .unwritten effect other (by simpa using same)
    · next tenantId userId id credential call =>
      refine .unwritten effect other fun row member same => ?_
      have identity := ((SyncStep.operations allowed).2 row member).1
      rw [author] at other
      simp [Synchronises, call, Call.synchronises, ← identity, same] at other
    · obtain ⟨_, booking, _, rfl⟩ := allowed
      exact .unwritten effect other (by simp)
    · obtain ⟨_, booking, _, rfl⟩ := allowed
      exact .unwritten effect other (by simp)
    all_goals
      refine .unwritten effect other ?_
      cases allowed with
      | discarded cart found => simp [discardWrites]
      | _ => simp

theorem lawful.syncEffect (allowed : lawful calls label.author world writes) :
    SyncEffect calls operationId world label writes := by
  cases synchronises : Synchronises calls operationId label.author with
  | false => exact allowed.foreign synchronises
  | true =>
    cases author : label.author with
    | none => simp [Synchronises, author] at synchronises
    | some i =>
      rw [author] at allowed
      simp only [Synchronises, author, Option.any_some] at synchronises
      have own := synchronises
      simp only [Call.synchronises] at own
      split at own
      next tenantId userId id credential call =>
        simp only [decide_eq_true_eq] at own
        subst own
        simp only [lawful, call] at allowed
        exact SyncStep.syncEffect author synchronises allowed
      next => cases own

/-- A call has taken the operation's claim. -/
def HasClaimed (operationId : Id) (i : ι) (world : SystemWorld ι) : Prop := ∃ claim ∈ world.own i, Claim operationId claim

instance (i : ι) : Decidable (HasClaimed operationId i world) := List.decidableBEx ..

theorem World.own_record (i : ι) : (world.record label writes).own i = world.own i ∨
    label.author = some i ∧ (world.record label writes).own i = writes :: world.own i := by
  by_cases other : label.author = some i
  · by_cases empty : writes = []
    · subst empty
      exact .inl (World.own_record_empty ..)
    · exact .inr ⟨other, World.own_record_same rfl other empty⟩
  · exact .inl (World.own_record_other i world other)

theorem HasClaimed.before {i : ι} (claimed : HasClaimed operationId i (world.record label writes)) :
    HasClaimed operationId i world ∨ label.author = some i ∧ Claim operationId writes := by
  obtain ⟨claim, member, held⟩ := claimed
  rcases World.own_record i with same | ⟨author, same⟩
  · exact .inl ⟨claim, same ▸ member, held⟩
  · rw [same] at member
    rcases List.mem_cons.mp member with rfl | member
    · exact .inr ⟨author, held⟩
    · exact .inl ⟨claim, member, held⟩

omit [DecidableEq ι] in
theorem get_operated {change : Change commerce .posOperation} {row : PosOperation}
    (found : world.database.get .posOperation operationId = some row)
    (written : writes = [.put .posOperation (change.apply row)]) :
    (world.record label writes).database.get .posOperation operationId = some (change.apply row) := by
  subst written
  have key : (change.apply row).id = operationId := (change.keeps row).trans (Table.find_eq_some.mp found).2
  exact key ▸ Database.get_put (S := commerce) world.database .posOperation (change.apply row)

end Step
/-- Some stock, an offline intent of two units, and calls that synchronise it. -/
def offlineSale (stock : Int) : Fin 5 → Call
  | 0 => .adjustScoped 0 (.store 4) ⟨1, stock⟩
  | 1 => .recordOfflineSaleIntent 0 7 { sessionId := 6, clientUuid := "uuid", seq := 1, items := [⟨1, 2, "USD", 100⟩] }
  | _ => .syncOperation 0 7 7 (some "credential")

end BusinessPlatform
