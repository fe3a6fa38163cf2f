import BusinessPlatform.Proofs.Stability

/-! `adjustScoped` under interference: it commits at most one movement of its
pool, and a refusal names a moment at which it was justified. -/

namespace BusinessPlatform
open Engine InventoryService

variable {ι : Type} [DecidableEq ι]

/-- The quantity of a pool; a pool without a row is empty. -/
def stockOf (db : Db) (pool : Pool) : Int := ((db.get .inventory pool).map Inventory.quantityOnHand).getD 0

theorem stockOf_some {db : Db} {pool : Pool} {row : Inventory} (found : db.get .inventory pool = some row) :
    stockOf db pool = row.quantityOnHand := by
  simp [stockOf, found]

theorem stockOf_none {db : Db} {pool : Pool} (absent : db.get .inventory pool = none) : stockOf db pool = 0 := by
  simp [stockOf, absent]

/-- What a statement of a refused adjustment ran on. -/
inductive Refused (tenantId : Id) (scope : InventoryScope) (dto : AdjustInventoryDto) (event : Event commerce ι) :
    Prop where
  | variant (missing : ∀ row ∈ (event.before.table .productVariant).rows, row.id = dto.variantId →
      row.tenantId ≠ tenantId)
  | store (storeId : Id) (given : scope = .store storeId)
      (missing : ∀ row ∈ (event.before.table .store).rows, row.id = storeId → row.tenantId ≠ tenantId)
  | foreign (row : Inventory) (found : event.before.get .inventory (dto.variantId, scope.storeId) = some row)
      (tenant : row.tenantId ≠ tenantId)
  | insufficient (short : stockOf event.before (dto.variantId, scope.storeId) < -dto.delta)
  | raced (access : event.access = some (.inventory, .find)) (positive : 0 ≤ dto.delta)
      (present : (event.before.get .inventory (dto.variantId, scope.storeId)).isSome = true)
  | overflow (fits : Model.fitsInteger (stockOf event.before (dto.variantId, scope.storeId) + dto.delta) = false)
  | unsent (large : Prisma.sendable (-dto.delta) = false ∨ Prisma.sendable dto.delta = false)

def Excused (i : ι) (tenantId : Id) (scope : InventoryScope) (dto : AdjustInventoryDto) (world : SystemWorld ι) : Prop :=
  ∃ event ∈ world.trace, event.author = some i ∧ Refused tenantId scope dto event

/-- A call that succeeds has committed once. A call that fails has committed
nothing, unless the engine failed its last read. -/
def AdjustPost (i : ι) (tenantId : Id) (scope : InventoryScope) (dto : AdjustInventoryDto) :
    Post commerce HttpException InventorySummary ι := fun result _ world =>
  match result with
  | .ok _ => ∃ writes, world.own i = [writes]
  | .error failure =>
    (failure ≠ .database .engine → failure ≠ .stopped → world.own i = [] ∧ Excused i tenantId scope dto world) ∧
      (world.own i = [] ∨ ∃ writes, world.own i = [writes])

section Adjust
variable {calls : ι → Call} {i : ι} {tenantId : Id} {scope : InventoryScope} {dto : AdjustInventoryDto}
  {world before after : SystemWorld ι}

abbrev AdjustCommits (i : ι) (tenantId : Id) (scope : InventoryScope) (dto : AdjustInventoryDto) :
    Commits commerce ι := fun world writes =>
  world.own i = [] ∧ Adjusted tenantId scope dto world.database writes

omit [DecidableEq ι] in
theorem Excused.grows {rely : Guarantee commerce ι} (excused : Excused i tenantId scope dto before)
    (grows : Grows rely before after) : Excused i tenantId scope dto after := by
  obtain ⟨event, member, author, refused⟩ := excused
  exact ⟨event, grows.member member, author, refused⟩

/-- The engine may fail the call at any time: it has committed at most once. -/
private theorem adjust_stalls (own : world.own i = [] ∨ ∃ writes, world.own i = [writes]) :
    Stalls (lawful calls) i (AdjustPost i tenantId scope dto) world :=
  fun _ idle => by
    have still := idle.own ▸ own
    exact ⟨⟨fun different => absurd rfl different, still⟩, fun _ different => absurd rfl different, still⟩

private theorem adjust_refused {failure : Failure HttpException} (own : world.own i = [])
    (excused : Excused i tenantId scope dto world) :
    Safe (AdjustCommits i tenantId scope dto) (lawful calls) i (AdjustPost i tenantId scope dto)
      (.done (.error failure)) none world :=
  fun _ later => ⟨fun _ _ => ⟨(Later.idle later).own.trans own, excused.grows later.grows⟩,
    .inl ((Later.idle later).own.trans own)⟩

omit [DecidableEq ι] in
/-- Why the guarded update or the insert of a pool's row was not admitted. -/
private theorem refused_of_error {event : Event commerce ι} {row : Inventory} {view : Db} {error : DatabaseError}
    (refused : constrain (S := commerce) (m := .inventory) view row = .error error)
    (pool : row.pool = (dto.variantId, scope.storeId))
    (quantity : row.quantityOnHand = stockOf event.before (dto.variantId, scope.storeId) + dto.delta)
    (catalog : ∀ m, m ≠ Model.inventory → view.table m = event.before.table m) :
    Refused tenantId scope dto event ∧ isP2002 (.database error) = false := by
  rcases constrain_error refused with ⟨_, found, _⟩ | ⟨unchecked, rfl⟩ | ⟨overlapping, rfl⟩ | ⟨parent, member, orphaned, rfl⟩
  · cases found
  · change Model.fitsInteger row.quantityOnHand = false at unchecked
    exact ⟨.overflow (quantity ▸ unchecked), rfl⟩
  · simp [excluded, Model.excludes] at overlapping
  · refine ⟨?_, rfl⟩
    obtain ⟨variant, store⟩ := Prod.mk.inj pool
    change parent ∈ (⟨.productVariant, row.variantId⟩ : (m : Model) × m.Key) ::
      row.storeId.toList.map fun id => ⟨Model.store, id⟩ at member
    rcases List.mem_cons.mp member with rfl | inside
    · refine .variant fun product listed same => ?_
      rw [Database.get, catalog .productVariant (by decide), variant] at orphaned
      exact absurd same (Table.find_eq_none.mp orphaned product listed)
    · obtain ⟨storeId, given, rfl⟩ := List.mem_map.mp inside
      cases scope with
      | global =>
        rw [store] at given
        cases given
      | store id =>
        rw [store] at given
        have same : storeId = id := by simpa [InventoryScope.storeId] using given
        subst same
        refine .store storeId rfl fun place listed here => ?_
        rw [Database.get, catalog .store (by decide)] at orphaned
        exact absurd here (Table.find_eq_none.mp orphaned place listed)

/-- The row of a pool that this call has moved is still there to be read. -/
private theorem reread_safe {writes : Writes} (own : world.own i = [writes])
    (stocked : ∃ row, world.database.get .inventory (dto.variantId, scope.storeId) = some row ∧ row.tenantId = tenantId) :
    Safe (AdjustCommits i tenantId scope dto) (lawful calls) i (AdjustPost i tenantId scope dto)
      (reread tenantId scope dto.variantId) none world := by
  refine Safe.lookup (adjust_stalls (.inr ⟨writes, own⟩)) fun after rows later listed => ?_
  obtain ⟨old, found, tenant⟩ := stocked
  obtain ⟨row, now, same⟩ := Grows.pool later.grows found
  cases head : rows.head? with
  | none =>
    obtain ⟨member, key⟩ := Table.find_eq_some.mp now
    have absent := listed_none listed head row member
    obtain ⟨variant, store⟩ := Prod.mk.inj key
    simp only [poolWhere] at absent
    simp_all
  | some found =>
    refine Safe.done fun final more => ⟨writes, ?_⟩
    rw [(Later.idle more).own, World.own_record_empty, (Later.idle later).own, own]

private theorem pool_of_where {row : Inventory} (matched : poolWhere tenantId scope dto.variantId row = true) :
    row.pool = (dto.variantId, scope.storeId) ∧ row.tenantId = tenantId := by
  simp only [poolWhere, Bool.and_eq_true, decide_eq_true_eq] at matched
  exact ⟨Prod.ext matched.1.1 matched.1.2, matched.2⟩

/-- The guarded update either moves the pool's row or finds none to move. -/
private theorem guardedUpdate_safe {next : Nat → Service InventorySummary} (own : world.own i = [])
    (asked : ∃ event ∈ world.trace, event.author = some i) (missed : ∀ after, Later (lawful calls) i [] world after →
      (∀ row, after.database.get .inventory (dto.variantId, scope.storeId) = some row →
        row.tenantId ≠ tenantId ∨ row.quantityOnHand < -dto.delta) →
      Safe (AdjustCommits i tenantId scope dto) (lawful calls) i (AdjustPost i tenantId scope dto) (next 0) none
        (after.record (updating i .inventory false) []))
    (hit : next 1 = reread tenantId scope dto.variantId) :
    Safe (AdjustCommits i tenantId scope dto) (lawful calls) i (AdjustPost i tenantId scope dto)
      (guardedUpdate tenantId scope dto >>= next) none world := by
  have only : ∀ row : Inventory, (poolWhere tenantId scope dto.variantId row &&
      decide (-dto.delta ≤ row.quantityOnHand)) = true → row.pool = (dto.variantId, scope.storeId) :=
    fun row matched => (pool_of_where (Bool.and_eq_true .. ▸ matched).1).1
  have unsent (large : Prisma.sendable (-dto.delta) = false ∨ Prisma.sendable dto.delta = false) :
      Excused i tenantId scope dto world := by
    obtain ⟨event, member, author⟩ := asked
    exact ⟨event, member, author, .unsent large⟩
  rw [guardedUpdate, bind_assoc]
  refine Safe.sent (fun large => adjust_refused own (unsent (.inl large))) fun _ => ?_
  rw [bind_assoc]
  refine Safe.sent (fun large => adjust_refused own (unsent (.inr large))) fun _ => ?_
  refine Safe.attempt (adjust_stalls (.inl own)) ?_ ?_
  · intro after order error later executed
    obtain ⟨row, member, matched, refused⟩ := Query.exec_updateMany_error executed
    have here : after.own i = [] := (Later.idle later).own.trans own
    have pool := only row matched
    have found := Table.find_eq_some.mpr ⟨member, pool⟩
    refine adjust_refused (by rwa [World.own_record_empty])
      ⟨_, List.mem_cons_self .., rfl, (refused_of_error refused pool ?_ ?_).1⟩
    · rw [stockOf_some found]
      rfl
    · intro m different
      exact Database.applyAll_other _ fun write member => (puts_model write member).trans_ne different.symm
  · intro after order outcome later executed
    have here : after.own i = [] := (Later.idle later).own.trans own
    obtain ⟨rfl, checked⟩ := Query.exec_updateMany executed
    rcases (after.database.table Model.inventory).filter_key only with ⟨nothing, absent⟩ | ⟨row, found, matched, listed⟩
    · simp only [nothing]
      refine ⟨.inl rfl, missed after later fun row found => ?_⟩
      have unmatched := absent row found
      obtain ⟨variant, store⟩ := Prod.mk.inj (Table.find_eq_some.mp found).2
      simp only [poolWhere, variant, store, decide_true, Bool.true_and, Bool.and_eq_false_iff, decide_eq_false_iff_not]
        at unmatched
      exact unmatched.imp_right fun short => by omega
    · simp only [listed] at checked ⊢
      have enough : -dto.delta ≤ row.quantityOnHand := of_decide_eq_true (Bool.and_eq_true .. ▸ matched).2
      have tenant := (pool_of_where (Bool.and_eq_true .. ▸ matched).1).2
      refine ⟨.inr ⟨here, .moved row found tenant enough ?_⟩, ?_⟩
      · exact checked row (List.mem_singleton.mpr rfl)
      · rw [List.length_singleton, hit]
        refine reread_safe (World.own_record_same here rfl (by simp [puts])) ?_
        refine ⟨(increment dto.delta).apply row, ?_, tenant⟩
        exact only row matched ▸ Database.get_put (S := commerce) after.database .inventory _

/-- After a lost race the other creator's row is there: only stock or another
tenant can refuse the retry. -/
private theorem retry_safe (own : world.own i = []) (asked : ∃ event ∈ world.trace, event.author = some i)
    (present : (world.database.get .inventory (dto.variantId, scope.storeId)).isSome = true) :
    Safe (AdjustCommits i tenantId scope dto) (lawful calls) i (AdjustPost i tenantId scope dto)
      (retry tenantId scope dto) none world := by
  refine guardedUpdate_safe own asked (fun after later missed => ?_) rfl
  obtain ⟨old, found⟩ := Option.isSome_iff_exists.mp present
  obtain ⟨row, now, _⟩ := Grows.pool later.grows found
  have here : after.own i = [] := (Later.idle later).own.trans own
  refine adjust_refused (by rwa [World.own_record_empty]) ⟨_, List.mem_cons_self .., rfl, ?_⟩
  rcases missed row now with foreign | short
  · exact .foreign row now foreign
  · exact .insufficient (by rwa [stockOf_some now])

private theorem createPool_safe (own : world.own i = []) :
    Safe (AdjustCommits i tenantId scope dto) (lawful calls) i (AdjustPost i tenantId scope dto)
      (Program.tryCatch (createPool tenantId scope dto) fun failure =>
        if isP2002 failure then retry tenantId scope dto else .done (.error failure)) none world := by
  refine Safe.tryCatch rfl (Safe.attempt ?_ ?_ ?_)
  · have stalls : Stalls (lawful calls) i (AdjustPost i tenantId scope dto) world := adjust_stalls (.inl own)
    intro after idle
    exact ⟨Safe.done fun final more => (stalls final (idle.trans (Later.idle more))).1,
      Safe.done fun final more => (stalls final (idle.trans (Later.idle more))).2⟩
  · intro after order error later executed
    have here : after.own i = [] := (Later.idle later).own.trans own
    refine Safe.done fun final more => ?_
    have now : final.own i = [] := (Later.idle more).own.trans (by rwa [World.own_record_empty])
    rcases Query.exec_create_error executed with ⟨present, rfl⟩ | ⟨absent, refused⟩
    · simp only [isP2002, if_true]
      obtain ⟨old, found⟩ := Option.isSome_iff_exists.mp present
      obtain ⟨row, there, _⟩ := Grows.pool (.trans (.single (.empty _)) more.grows) found
      exact retry_safe now ⟨_, more.grows.member (List.mem_cons_self ..), rfl⟩ (Option.isSome_iff_exists.mpr ⟨row, there⟩)
    · have empty : stockOf after.database (dto.variantId, scope.storeId) = 0 := stockOf_none absent
      have refusal (label : Label commerce ι) : Refused tenantId scope dto ⟨label, after.database, []⟩ ∧
          isP2002 (.database error) = false :=
        refused_of_error refused rfl ((zero_add _).symm.trans (by rw [empty])) fun _ _ => rfl
      simp only [(refusal {}).2, if_neg Bool.false_ne_true]
      have excused : Excused i tenantId scope dto final :=
        ⟨_, more.grows.member (List.mem_cons_self ..), rfl, (refusal _).1⟩
      exact adjust_refused now excused
  · intro after order outcome later executed
    obtain ⟨rfl, created⟩ := Query.exec_create executed
    have here : after.own i = [] := (Later.idle later).own.trans own
    refine ⟨.inr ⟨here, .opened _ created.fresh rfl rfl rfl created.checked⟩, ?_⟩
    exact Safe.done fun final more => ⟨_, (Later.idle more).own.trans (World.own_record_same here rfl (by simp))⟩

/-- The guarded update found nothing to move, and the pool is looked up. -/
private theorem openPool_safe (own : world.own i = [])
    (excused : Excused i tenantId scope dto world ∨ 0 ≤ dto.delta) :
    Safe (AdjustCommits i tenantId scope dto) (lawful calls) i (AdjustPost i tenantId scope dto)
      (openPool tenantId scope dto) none world := by
  refine Safe.lookup (adjust_stalls (.inl own)) fun after rows later listed => ?_
  have here : (after.reads i .inventory rows false).own i = [] := by
    rw [World.own_record_empty, (Later.idle later).own, own]
  have grown : Grows (lawful calls) world (after.reads i .inventory rows false) := later.grows.tail (.empty _)
  cases head : rows.head? with
  | some row =>
    refine adjust_refused here ?_
    rcases excused with excused | positive
    · exact excused.grows grown
    · obtain ⟨member, matched⟩ := listed_head listed head
      refine ⟨_, List.mem_cons_self .., rfl, .raced rfl positive ?_⟩
      exact Option.isSome_iff_exists.mpr ⟨row, Table.find_eq_some.mpr ⟨member, (pool_of_where matched).1⟩⟩
  | none =>
    change Safe _ _ _ _ (if dto.delta < 0 then _ else _) _ _
    split
    next negative => exact adjust_refused here ((excused.resolve_right (by omega)).grows grown)
    next => exact createPool_safe here

private theorem adjustPool_safe (own : world.own i = []) (asked : ∃ event ∈ world.trace, event.author = some i) :
    Safe (AdjustCommits i tenantId scope dto) (lawful calls) i (AdjustPost i tenantId scope dto)
      (adjustPool tenantId scope dto) none world := by
  refine guardedUpdate_safe own asked (fun after later missed => ?_) (if_pos rfl)
  rw [if_neg (by decide)]
  refine openPool_safe (by rw [World.own_record_empty, (Later.idle later).own, own]) ?_
  cases found : after.database.get .inventory (dto.variantId, scope.storeId) with
  | none =>
    by_cases positive : 0 ≤ dto.delta
    · exact .inr positive
    · refine .inl ⟨_, List.mem_cons_self .., rfl, .insufficient ?_⟩
      rw [stockOf_none found]
      omega
  | some row =>
    refine .inl ⟨_, List.mem_cons_self .., rfl, ?_⟩
    rcases missed row found with foreign | short
    · exact .foreign row found foreign
    · exact .insufficient (by rwa [stockOf_some found])

theorem adjustScoped_safe (own : world.own i = []) :
    Safe (AdjustCommits i tenantId scope dto) (lawful calls) i (AdjustPost i tenantId scope dto)
      (adjustScoped tenantId scope dto) none world := by
  refine Safe.lookup (adjust_stalls (.inl own)) fun w₁ variants l₁ listed => ?_
  have own₁ : (w₁.reads i .productVariant variants false).own i = [] := by
    rw [World.own_record_empty, (Later.idle l₁).own, own]
  refine Safe.check (fun absent => adjust_refused own₁ ⟨_, List.mem_cons_self .., rfl, .variant ?_⟩) fun _ => ?_
  · intro row member same tenant
    have unlisted := listed_none listed (by simpa using absent) row member
    simp [same, tenant] at unlisted
  cases scope with
  | global => exact adjustPool_safe own₁ ⟨_, List.mem_cons_self .., rfl⟩
  | store storeId =>
    refine Safe.bind (Safe.lookup ?_ fun w₂ stores l₂ places => ?_)
    · exact adjust_stalls (.inl own₁)
    have own₂ : (w₂.reads i .store stores false).own i = [] := by
      rw [World.own_record_empty, (Later.idle l₂).own, own₁]
    cases head : stores.head? with
    | none =>
      refine fun final more => (adjust_refused own₂ ⟨_, List.mem_cons_self .., rfl, .store storeId rfl ?_⟩) final more
      intro row member same tenant
      have unlisted := listed_none places head row member
      simp [same, tenant] at unlisted
    | some store =>
      refine Safe.done fun final more => adjustPool_safe (by rw [(Later.idle more).own, own₂]) ?_
      exact ⟨_, more.grows.member (List.mem_cons_self ..), rfl⟩

end Adjust
end BusinessPlatform
