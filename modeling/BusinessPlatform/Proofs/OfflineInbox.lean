import BusinessPlatform.Proofs.QuietRuns
import BusinessPlatform.Proofs.SyncHistory
import BusinessPlatform.Engine.Indexes

/-! The inbox of offline intents. The insertion arbitrates between calls: a
repeated identifier resolves to the original operation, a sequence number that is
taken is a conflict, and neither leaves a trace. -/

namespace BusinessPlatform
open Engine PosOperationService

variable {ι : Type} [DecidableEq ι] {calls : ι → Call} {world before after : SystemWorld ι} {writes : Writes}

/-- The commit of a call that records an intent. -/
structure Records (calls : ι → Call) (author : Option ι) (world : SystemWorld ι) (writes : Writes)
    (operation : PosOperation) (items : List PosOperationItem) : Prop where
  call : ∃ i tenantId userId dto, author = some i ∧ calls i = .recordOfflineSaleIntent tenantId userId dto ∧
    IntentRecorded tenantId dto world.trace.length world.database operation items
  written : writes = intentWrites operation items

/-- The commit adds neither operations nor lines. -/
def Unrecorded (db : Db) (writes : Writes) : Prop :=
  putsOf (S := commerce) .posOperationItem writes = [] ∧
    ∀ row ∈ putsOf (S := commerce) .posOperation writes, (db.get .posOperation row.id).isSome = true

private theorem Unrecorded.nothing {db : Db} (lines : putsOf (S := commerce) .posOperationItem writes = [])
    (operations : putsOf (S := commerce) .posOperation writes = []) : Unrecorded db writes :=
  ⟨lines, by simp [operations]⟩

theorem lawful.records {author : Option ι} (allowed : lawful calls author world writes) :
    (∃ operation items, Records calls author world writes operation items) ∨ Unrecorded world.database writes := by
  cases author with
  | none =>
    exact .inr (.nothing (external_nothing (m := .posOperationItem) rfl allowed).1
      (external_nothing (m := .posOperation) rfl allowed).1)
  | some i =>
    cases call : calls i <;> simp only [lawful, call, Call.Commits] at allowed
    case recordOfflineSaleIntent tenantId userId dto =>
      obtain ⟨_, operation, items, recorded, written⟩ := allowed
      exact .inl ⟨operation, items, ⟨i, tenantId, userId, dto, rfl, call, recorded⟩, written⟩
    all_goals refine .inr ?_
    case syncOperation tenantId userId operationId credential =>
      obtain ⟨lines, operations⟩ := SyncStep.operations allowed
      refine ⟨lines, fun row member => ?_⟩
      obtain ⟨identity, existing⟩ := operations row member
      rwa [identity]
    case createSale tenantId userId dto options =>
      generalize world.own i = history at allowed
      cases allowed with
      | capture placement payment captured => cases captured; exact .nothing (by simp) (by simp)
      | _ => exact .nothing (by simp) (by simp)
    case createOrder | cancelOrder | createPayment | createBooking | updateBooking =>
      obtain ⟨_, _, _, rfl⟩ := allowed
      exact .nothing (by simp) (by simp)
    case adjustScoped | capturePayment | failPayment =>
      obtain ⟨_, effect⟩ := allowed
      cases effect <;> exact .nothing (by simp) (by simp)
    all_goals
      cases allowed with
      | discarded cart found => exact .nothing (by simp [discardWrites]) (by simp [discardWrites])
      | _ => exact .nothing (by simp) (by simp)

/-- Operations are older than the world, and every line belongs to one. -/
structure Inbox (world : SystemWorld ι) : Prop where
  stamped : ∀ id operation, world.database.get .posOperation id = some operation → id < world.trace.length
  owned : ∀ line ∈ (world.database.table .posOperationItem).rows,
    (world.database.get .posOperation line.operationId).isSome = true

omit [DecidableEq ι] in
theorem Records.stored {author : Option ι} {operation : PosOperation} {items : List PosOperationItem}
    (records : Records calls author world writes operation items) :
    (world.database.applyAll writes).get .posOperation operation.id = some operation := by
  rw [records.written]
  exact Database.get_stored (S := commerce) (m := .posOperation) _ (by simp) (by simp) (by simp)

theorem Inbox.event (inbox : Inbox world) (label : Label commerce ι) (allowed : lawful calls label.author world writes) :
    Inbox (world.record label writes) := by
  constructor
  · intro id operation found
    refine Nat.lt_succ_of_lt ?_
    rcases Database.get_found _ found with stored | there
    · have key : operation.id = id := (Table.find_eq_some.mp found).2
      rcases allowed.records with ⟨created, items, records⟩ | ⟨_, existing⟩
      · obtain ⟨i, tenantId, userId, dto, _, _, recorded⟩ := records.call
        rw [records.written, intentWrites_operations, List.mem_singleton] at stored
        rw [← key, stored]
        exact recorded.stamped
      · obtain ⟨old, before⟩ := Option.isSome_iff_exists.mp (existing operation stored)
        exact inbox.stamped id old (key ▸ before)
    · exact inbox.stamped id operation there
  · intro line member
    rcases Database.get_found _ (Table.find_eq_some.mpr ⟨member, rfl⟩) with stored | there
    · rcases allowed.records with ⟨created, items, records⟩ | ⟨nothing, _⟩
      · obtain ⟨i, tenantId, userId, dto, _, _, recorded⟩ := records.call
        rw [records.written, intentWrites_items] at stored
        rw [(recorded.lines line stored).1]
        exact Option.isSome_iff_exists.mpr ⟨created, records.stored⟩
      · simp [nothing] at stored
    · obtain ⟨old, before⟩ := Option.isSome_iff_exists.mp (inbox.owned line (Table.find_eq_some.mp there).1)
      obtain ⟨new, now, _⟩ := keepsOperation.row (.inr allowed) before
      exact Option.isSome_iff_exists.mpr ⟨new, now⟩

theorem Inbox.grows (inbox : Inbox before) (grows : Grows (lawful calls) before after) : Inbox after :=
  Grows.invariant Inbox grows inbox (fun _ label _ _ inbox allowed => inbox.event label allowed)
    (fun _ _ inbox => ⟨fun id operation found => Nat.lt_succ_of_lt (inbox.stamped id operation found), inbox.owned⟩)
    fun _ _ inbox => ⟨inbox.stamped, inbox.owned⟩

omit [DecidableEq ι] in
theorem Shop.inbox (shop : Shop) : Inbox (shop.start ι) := by
  constructor
  · intro id operation found
    rw [shop.get_unused rfl] at found
    cases found
  · intro line member
    rw [shop.unused .posOperationItem rfl] at member
    cases member

omit [DecidableEq ι] in
theorem linesOf_recorded {tenantId : Id} {dto : RecordOfflineSaleIntentDto} {stamp : Nat} {db : Db}
    {operation : PosOperation} {items : List PosOperationItem}
    (recorded : IntentRecorded tenantId dto stamp db operation items)
    (owned : ∀ line ∈ (db.table .posOperationItem).rows, (db.get .posOperation line.operationId).isSome = true) :
    (linesOf (db.applyAll (intentWrites operation items)) operation.id).Perm items := by
  have inserted : (linesOf (db.applyAll (intentWrites operation items)) operation.id).Perm
      (putsOf (S := commerce) .posOperationItem (intentWrites operation items)) := by
    refine Database.scan_stored (S := commerce) (m := .posOperationItem) db (by simp) ?_ ?_ ?_
    · rw [intentWrites_items]
      exact recorded.distinct
    · intro line member
      rw [intentWrites_items] at member
      exact decide_eq_true (recorded.lines line member).1
    · intro line member
      refine decide_eq_false fun same => ?_
      have parent := owned line member
      rw [same, recorded.fresh] at parent
      cases parent
  rwa [intentWrites_items] at inserted

/-- The call that has recorded an operation with the lines it was sent. -/
structure RecordedBy (calls : ι → Call) (world : SystemWorld ι) (operation : PosOperation) (i : ι)
    (dto : RecordOfflineSaleIntentDto) : Prop where
  call : ∃ tenantId userId, calls i = .recordOfflineSaleIntent tenantId userId dto
  identity : operation.clientUuid = dto.clientUuid ∧ operation.seq = dto.seq
  committed : ∃ created items, intentWrites created items ∈ world.own i ∧ created.provenance = operation.provenance ∧
    items.map intentItem = dto.items ∧ (linesOf world.database operation.id).Perm items

variable {shop : Shop}

theorem Shop.recordedBy (grows : Grows (lawful calls) (shop.start ι) world) {id : Id} {operation : PosOperation}
    (found : world.database.get .posOperation id = some operation) :
    ∃ i dto, RecordedBy calls world operation i dto := by
  obtain ⟨event, origin, suffix, recorded, absent, stored⟩ :=
    Grows.stored (m := Model.posOperation) grows (shop.get_unused rfl id) (by simp [found])
  have allowed : lawful calls event.author origin event.writes := recorded.lawful.resolve_left fun empty => by
    rw [empty, Database.applyAll_nil, absent] at stored
    cases stored
  obtain ⟨new, now⟩ := Option.isSome_iff_exists.mp stored
  have member := (Database.get_found _ now).resolve_right (by simp [absent])
  have key : new.id = id := (Table.find_eq_some.mp now).2
  rcases allowed.records with ⟨created, items, records⟩ | ⟨_, existing⟩
  · obtain ⟨i, tenantId, userId, dto, author, call, intent⟩ := records.call
    rw [records.written, intentWrites_operations, List.mem_singleton] at member
    subst member
    obtain ⟨later, there, same⟩ := Grows.provenance recorded.after now
    cases there.symm.trans found
    have lines : (linesOf world.database id).Perm items := by
      rw [Grows.lines recorded.after (Option.isSome_iff_exists.mpr ⟨new, now⟩), World.record_database, records.written]
      exact key ▸ linesOf_recorded intent ((Shop.inbox shop).grows recorded.before).owned
    have identity : operation.id = id := (Table.find_eq_some.mp found).2
    refine ⟨i, dto, ⟨tenantId, userId, call⟩, ?_, new, items, ?_, same.symm, intent.frozen, identity ▸ lines⟩
    · simp only [PosOperation.provenance, Prod.mk.injEq] at same
      exact ⟨same.2.2.2.2.2.2.1.trans intent.identity.1, same.2.2.2.2.2.2.2.1.trans intent.identity.2⟩
    · rw [← records.written]
      refine World.mem_own (suffix.subset (List.mem_cons_self ..)) author ?_
      rw [records.written]
      exact List.cons_ne_nil _ _
  · have there := existing new member
    rw [key, absent] at there
    cases there

section Insertion
variable {i : ι} {tenantId : Id} {session : PosSession} {dto : RecordOfflineSaleIntentDto}

/-- The operation has the identifier that is pushed from its device. -/
structure Repeats (tenantId : Id) (session : PosSession) (dto : RecordOfflineSaleIntentDto)
    (operation : PosOperation) : Prop where
  tenant : operation.tenantId = tenantId
  device : operation.deviceId = session.deviceId
  clientUuid : operation.clientUuid = dto.clientUuid

/-- No operation of the device has the identifier, but one has the number. -/
structure Contested (session : PosSession) (dto : RecordOfflineSaleIntentDto) (db : Db) : Prop where
  fresh : ∀ row ∈ (db.table .posOperation).rows, row.deviceId = session.deviceId → row.clientUuid ≠ dto.clientUuid
  taken : ∃ row ∈ (db.table .posOperation).rows, row.deviceId = session.deviceId ∧ row.seq = dto.seq

/-- This call has tried to insert its operation. -/
structure Tries (i : ι) (world : SystemWorld ι) (attempt : Event commerce ι) : Prop where
  member : attempt ∈ world.trace
  author : attempt.author = some i
  access : attempt.access = some (.posOperation, .create)

theorem Repeats.same {old new : PosOperation} (repeats : Repeats tenantId session dto old)
    (same : new.provenance = old.provenance) : Repeats tenantId session dto new := by
  simp only [PosOperation.provenance, Prod.mk.injEq] at same
  obtain ⟨_, tenant, device, _, _, _, clientUuid, _⟩ := same
  exact ⟨tenant.trans repeats.tenant, device.trans repeats.device, clientUuid.trans repeats.clientUuid⟩

theorem Grows.repeats (grows : Grows (lawful calls) before after)
    (repeated : ∃ row ∈ (before.database.table .posOperation).rows, Repeats tenantId session dto row) :
    ∃ row ∈ (after.database.table .posOperation).rows, Repeats tenantId session dto row := by
  obtain ⟨old, member, repeats⟩ := repeated
  obtain ⟨new, now, same⟩ := Grows.provenance grows (Table.find_eq_some.mpr ⟨member, rfl⟩)
  exact ⟨new, (Table.find_eq_some.mp now).1, repeats.same same⟩

/-- The insertion has been refused, by the index that says why. -/
structure InsertionRefused (i : ι) (tenantId : Id) (session : PosSession) (dto : RecordOfflineSaleIntentDto) (db : Db)
    (result : Except (Failure HttpException) OfflineOperationSummary) (world : SystemWorld ι) : Prop where
  repeated : (∃ row ∈ (db.table .posOperation).rows, Repeats tenantId session dto row) → world.own i = [] ∧
    (∃ row ∈ (world.database.table .posOperation).rows, Repeats tenantId session dto row) ∧
    ∃ failure, result = .error failure ∧ isP2002 failure = true ∧ p2002Meta failure = "clientUuid"
  contested : Contested session dto db → world.own i = [] ∧
    ∃ failure, result = .error failure ∧ isP2002 failure = true ∧ p2002Meta failure ≠ "clientUuid"

/-- The call has read the operation back that it repeats. -/
structure ReadBack (tenantId : Id) (session : PosSession) (dto : RecordOfflineSaleIntentDto)
    (result : Except (Failure HttpException) OfflineOperationSummary) (world : SystemWorld ι) (read : Event commerce ι)
    (row : PosOperation) (lines : List PosOperationItem) : Prop where
  member : read ∈ world.trace
  found : row ∈ (read.before.table .posOperation).rows
  repeats : Repeats tenantId session dto row
  listed : lines.Perm (linesOf world.database row.id)
  answer : result = .ok (toSummary row lines)

/-- How a call ends after its insertion has met these operations. -/
structure Arbitrated (i : ι) (tenantId : Id) (session : PosSession) (dto : RecordOfflineSaleIntentDto) (db : Db)
    (result : Except (Failure HttpException) OfflineOperationSummary) (world : SystemWorld ι) : Prop where
  repeated : (∃ row ∈ (db.table .posOperation).rows, Repeats tenantId session dto row) → world.own i = [] ∧
    ∃ read row lines, ReadBack tenantId session dto result world read row lines
  contested : Contested session dto db → world.own i = [] ∧ result = .error (.thrown (.conflict SEQUENCE_USED))

def Faulted {α : Type} (result : Except (Failure HttpException) α) : Prop :=
  ∃ failure, result = .error failure ∧ failure.fault = true

/-- The call was hit by a fault, or its one insertion decides. -/
def Decided {α : Type} (i : ι) (verdict : Db → Except (Failure HttpException) α → SystemWorld ι → Prop) :
    Post commerce HttpException α ι := fun result session world =>
  session = none ∧ (Faulted result ∨ ∃ attempt, Tries i world attempt ∧ verdict attempt.before result world)

omit [DecidableEq ι] in
theorem Decided.stalls {α : Type} {rely : Guarantee commerce ι}
    {verdict : Db → Except (Failure HttpException) α → SystemWorld ι → Prop} : Stalls rely i (Decided i verdict) world :=
  fun _ _ => ⟨⟨rfl, .inl ⟨_, rfl, rfl⟩⟩, rfl, .inl ⟨_, rfl, rfl⟩⟩

theorem InsertionRefused.otherwise {db : Db} {result other : Except (Failure HttpException) OfflineOperationSummary}
    (refused : InsertionRefused i tenantId session dto db result before)
    (unviolated : ∀ failure, result = .error failure → isP2002 failure = false) :
    Arbitrated i tenantId session dto db other after := by
  constructor
  · intro repeated
    obtain ⟨_, _, failure, same, violated, _⟩ := refused.repeated repeated
    cases violated.symm.trans (unviolated failure same)
  · intro contested
    obtain ⟨_, failure, same, violated, _⟩ := refused.contested contested
    cases violated.symm.trans (unviolated failure same)

omit [DecidableEq ι] in
theorem Tries.grows {rely : Guarantee commerce ι} {attempt : Event commerce ι} (tries : Tries i before attempt)
    (grows : Grows rely before after) : Tries i after attempt :=
  ⟨Grows.member grows tries.member, tries.author, tries.access⟩

omit [DecidableEq ι] in
private theorem clash_repeated {db : Db} {row : PosOperation} (fresh : db.get .posOperation row.id = none)
    (device : row.deviceId = session.deviceId) (clientUuid : row.clientUuid = dto.clientUuid)
    (repeated : ∃ other ∈ (db.table .posOperation).rows, Repeats tenantId session dto other) :
    clash (S := commerce) (db.table .posOperation) row = some (.operationUuid row.deviceId row.clientUuid) := by
  obtain ⟨other, member, repeats⟩ := repeated
  refine clash_some (List.nil_append _).symm nofun ⟨other, member, Table.find_eq_none.mp fresh other member, ?_⟩
  rw [device, clientUuid, ← repeats.device, ← repeats.clientUuid]
  exact List.mem_cons_self ..

omit [DecidableEq ι] in
private theorem clash_contested {db : Db} {row : PosOperation} (fresh : db.get .posOperation row.id = none)
    (device : row.deviceId = session.deviceId) (clientUuid : row.clientUuid = dto.clientUuid) (seq : row.seq = dto.seq)
    (contested : Contested session dto db) :
    clash (S := commerce) (db.table .posOperation) row = some (.operationSeq row.deviceId row.seq) := by
  obtain ⟨other, member, same, taken⟩ := contested.taken
  have listed : commerce.indexes (m := .posOperation) row =
      [.operationUuid row.deviceId row.clientUuid] ++ [.operationSeq row.deviceId row.seq] := rfl
  refine clash_some listed ?_ ⟨other, member, Table.find_eq_none.mp fresh other member, ?_⟩
  · intro entry first ⟨old, inside, _, held⟩
    rw [List.mem_singleton.mp first] at held
    simp only [commerce, Model.indexes, List.mem_cons, Model.Index.operationUuid.injEq, reduceCtorEq, List.not_mem_nil,
      or_false] at held
    exact contested.fresh old inside (held.1.symm.trans device) (held.2.symm.trans clientUuid)
  · rw [device, seq, ← same, ← taken]
    exact List.mem_cons_of_mem _ (List.mem_cons_self ..)

/-- The loop that inserts the lines keeps what the transaction has done so far. -/
private theorem createLines_traced {operationId : Id} {items : List OfflineSaleIntentItemDto} {transaction : Transaction commerce}
    {post : Post commerce HttpException OfflineOperationSummary ι} {next : Unit → Service OfflineOperationSummary}
    {event : Event commerce ι} (traced : event ∈ world.trace) (fails : Fails (amongCalls calls) i (fun _ => True) post true world)
    (resume : ∀ after transaction, event ∈ after.trace → Fails (amongCalls calls) i (fun _ => True) post true after →
      Safe Never (amongCalls calls) i post (next ()) (some transaction) after) :
    Safe Never (amongCalls calls) i post (createItems tenantId operationId items >>= next) (some transaction) world := by
  induction items generalizing world transaction with
  | nil => exact resume world transaction traced fails
  | cons item rest ih =>
    simp only [createItems, bind_assoc]
    refine Safe.createInside fails fun after later row built created fails => ?_
    exact ih (List.mem_cons_of_mem _ (Grows.member later.grows traced)) fails

omit [DecidableEq ι] in
theorem Inbox.fresh (inbox : Inbox world) : world.database.get .posOperation world.trace.length = none := by
  cases found : world.database.get .posOperation world.trace.length with
  | none => rfl
  | some operation => exact absurd (inbox.stamped _ _ found) (Nat.lt_irrefl _)

/-- An insertion that meets the identifier or the number is refused by their
index. -/
private theorem insertOperation_refused (own : world.own i = []) (inbox : Inbox world) :
    Safe Never (amongCalls calls) i
      (Body (fun _ _ => True) (amongCalls calls) i (Decided i (InsertionRefused i tenantId session dto)))
      (insertOperation tenantId session dto) (some {}) world := by
  refine Safe.attemptInside (fun after idle => ⟨(Decided.stalls.body after idle).1, (Decided.stalls.body after idle).2⟩)
    ?_ ?_
  · intro after order error later executed
    have fresh := (inbox.grows (Grows.among later.grows)).fresh
    refine Safe.done fun next more final rest => ⟨rfl, .inr ⟨_, ⟨Grows.member (more.grows.trans rest.grows)
      (List.mem_cons_self ..), rfl, rfl⟩, ?_, ?_⟩⟩
    all_goals
      have grown := (Grows.among more.grows).trans (Grows.among rest.grows)
      have unchanged : final.own i = [] := by
        rw [Idle.own rest, Idle.own (Later.idle more), World.own_record_empty, Idle.own (Later.idle later), own]
    · intro repeated
      have refused := executed.symm.trans (Query.exec_create_clash fresh (clash_repeated fresh rfl rfl repeated))
      cases refused
      exact ⟨unchanged, Grows.repeats grown repeated, _, rfl, rfl, rfl⟩
    · intro contested
      have refused := executed.symm.trans (Query.exec_create_clash fresh (clash_contested fresh rfl rfl rfl contested))
      cases refused
      exact ⟨unchanged, _, rfl, rfl, by simp [p2002Meta, Model.columns]⟩
  · intro after order outcome later executed
    have fresh := (inbox.grows (Grows.among later.grows)).fresh
    obtain ⟨rfl, created⟩ := Query.exec_create executed
    have unmet : ∀ result final, InsertionRefused i tenantId session dto after.database result final := by
      intro result final
      constructor
      · intro repeated
        cases created.free.symm.trans (clash_repeated fresh rfl rfl repeated)
      · intro contested
        cases created.free.symm.trans (clash_contested fresh rfl rfl rfl contested)
    have ends : ∀ (result : Except (Failure HttpException) OfflineOperationSummary) (final : SystemWorld ι),
        ⟨⟨some i, some (.posOperation, .create), [], true⟩, after.database, []⟩ ∈ final.trace →
        Decided i (InsertionRefused i tenantId session dto) result none final := fun result final traced =>
      ⟨rfl, .inr ⟨_, ⟨traced, rfl, rfl⟩, unmet result final⟩⟩
    have fails : Fails (amongCalls calls) i (fun _ => True) (Body (fun _ _ => True) (amongCalls calls) i
        (Decided i (InsertionRefused i tenantId session dto))) true
          (after.record ⟨some i, some (.posOperation, .create), [], true⟩ []) := fun failure _ middle _ _ idle final more =>
      ends (.error failure) final (Grows.member (idle.grows.trans more.grows) (List.mem_cons_self ..))
    refine createLines_traced (List.mem_cons_self ..) fails fun w₁ t₁ traced fails => ?_
    refine Safe.findFirst fails fun w₂ operations l₂ _ fails => ?_
    refine Safe.orThrow fails trivial fun found _ => ?_
    refine Safe.findMany fails fun w₃ lines l₃ _ fails => ?_
    refine Safe.done fun w₄ l₄ => ⟨t₁, rfl, .inr trivial, fun final more => ends _ final ?_⟩
    have inside := Grows.member l₃.grows (List.mem_cons_of_mem _ (Grows.member l₂.grows traced))
    exact Grows.member more.grows (List.mem_cons_of_mem _ (Grows.member l₄.grows (List.mem_cons_of_mem _ inside)))

private theorem resolveDuplicate_arbitrated {failure : Failure HttpException} {attempt : Event commerce ι}
    (tries : Tries i world attempt) (refused : InsertionRefused i tenantId session dto attempt.before (.error failure) world) :
    Safe (fun _ _ => True) (amongCalls calls) i (Decided i (Arbitrated i tenantId session dto))
      (resolveDuplicate tenantId session dto failure) none world := by
  unfold resolveDuplicate
  split
  next named =>
    have uncontested : ¬ Contested session dto attempt.before := by
      intro contested
      obtain ⟨_, _, same, _, other⟩ := refused.contested contested
      cases same
      exact other named
    by_cases repeated : ∃ row ∈ (attempt.before.table .posOperation).rows, Repeats tenantId session dto row
    · obtain ⟨own, stored, _⟩ := refused.repeated repeated
      refine Safe.lookup Decided.stalls fun w₁ operations l₁ listed => ?_
      obtain ⟨first, member, repeats⟩ := Grows.repeats (Grows.among l₁.grows) stored
      cases found : operations.head? with
      | none =>
        have unmatched := listed_none listed found first member
        simp [repeats.tenant, repeats.device, repeats.clientUuid] at unmatched
      | some row =>
        obtain ⟨inside, matched⟩ := listed_head listed found
        simp only [Bool.and_eq_true, decide_eq_true_eq] at matched
        obtain ⟨⟨device, clientUuid⟩, tenant⟩ := matched
        refine Safe.scan Decided.stalls fun w₂ lines l₂ scanned => Safe.done fun final l₃ => ?_
        have grown : Grows (amongCalls calls) (w₁.reads i .posOperation operations false) final :=
          (l₂.grows.tail (.empty _)).trans l₃.grows
        have idle : Idle (amongCalls calls) i world final :=
          .trans (Idle.record (.trans (Idle.record (Later.idle l₁) _) (Later.idle l₂)) _) (Later.idle l₃)
        have lines : lines.Perm (linesOf final.database row.id) := by
          obtain ⟨now, here, _⟩ := Grows.provenance (Grows.among l₂.grows) (Table.find_eq_some.mpr ⟨inside, rfl⟩)
          have same := Grows.lines (Grows.among l₃.grows) (Option.isSome_iff_exists.mpr ⟨now, here⟩)
          exact same ▸ scanned
        refine ⟨rfl, .inr ⟨attempt, tries.grows idle.grows, fun _ => ⟨?_, ?_⟩, fun contested => absurd contested uncontested⟩⟩
        · rw [Idle.own idle, own]
        · exact ⟨_, row, _, Grows.member grown (List.mem_cons_self ..), inside, ⟨tenant, device, clientUuid⟩, lines, rfl⟩
    · have fails : Fails (amongCalls calls) i (fun _ => True) (Decided i (Arbitrated i tenantId session dto)) false world :=
        fun failure _ _ _ outside idle => ⟨outside rfl, .inr ⟨attempt, tries.grows idle.grows,
          fun again => absurd again repeated, fun contested => absurd contested uncontested⟩⟩
      refine Safe.findFirst fails fun w₁ operations l₁ _ fails => ?_
      refine Safe.orThrow fails trivial fun existing _ => ?_
      refine Safe.findMany fails fun w₂ lines l₂ _ fails => Safe.done fun final l₃ => ⟨rfl, .inr ⟨attempt, ?_,
        fun again => absurd again repeated, fun contested => absurd contested uncontested⟩⟩
      exact tries.grows ((((l₁.grows.tail (.empty _)).trans l₂.grows).tail (.empty _)).trans l₃.grows)
  next other =>
    refine Safe.done fun final later => ⟨rfl, .inr ⟨attempt, tries.grows later.grows, fun repeated => ?_, fun contested => ?_⟩⟩
    · obtain ⟨_, _, _, same, _, named⟩ := refused.repeated repeated
      cases same
      exact absurd named other
    · exact ⟨(Idle.own (Later.idle later)).trans (refused.contested contested).1, rfl⟩

private theorem recordOfflineSaleIntent_arbitrated {userId : Id} (own : world.own i = []) (inbox : Inbox world)
    (found : world.database.get .posSession dto.sessionId = some session) (tenant : session.tenantId = tenantId)
    (opened : session.userId = userId) :
    Safe (fun _ _ => True) (amongCalls calls) i (Decided i (Arbitrated i tenantId session dto))
      (recordOfflineSaleIntent tenantId userId dto) none world := by
  refine Safe.lookup Decided.stalls fun after sessions later listed => ?_
  have unchanged : after.database.get .posSession dto.sessionId = some session := by
    rw [Database.get, Grows.catalog later.grows rfl]
    exact found
  have head : sessions.head? = some session := by
    have only (row : PosSession) (matched : (decide (row.id = dto.sessionId) && decide (row.tenantId = tenantId)) = true) :
        row.id = dto.sessionId := of_decide_eq_true (Bool.and_eq_true_iff.mp matched).1
    rcases Table.filter_key _ only with ⟨_, unmatched⟩ | ⟨row, here, _, single⟩
    · have key : session.id = dto.sessionId := (Table.find_eq_some.mp found).2
      have refused := unmatched session unchanged
      simp [key, tenant] at refused
    · cases here.symm.trans unchanged
      rw [single] at listed
      rw [List.perm_singleton.mp listed, List.head?_cons]
  rw [head]
  change Safe _ _ _ _ (Program.throwIf _ _ >>= _) _ _
  refine Safe.check (fun refused => absurd opened (of_decide_eq_true refused)) fun _ => ?_
  have inserted : Safe (fun _ _ => True) (amongCalls calls) i (Decided i (InsertionRefused i tenantId session dto))
      (insertOperation tenantId session dto).transaction none (after.reads i .posSession sessions false) := by
    refine Safe.begin Decided.stalls fun middle more => ?_
    have idle : Idle (amongCalls calls) i world (middle.record ⟨some i, none, [], false⟩ []) :=
      Idle.record (.trans (Idle.record (Later.idle later) _) (Later.idle more)) _
    exact insertOperation_refused ((Idle.own idle).trans own) (inbox.grows (Grows.among idle.grows))
  refine Safe.tryCatch rfl (Safe.weaken inserted fun result ended w decided => ?_)
  obtain ⟨rfl, fault | ⟨attempt, tries, refused⟩⟩ := decided
  · obtain ⟨failure, rfl, fault⟩ := fault
    have other : isP2002 failure = false := by
      cases failure with
      | database error => cases error <;> first | rfl | cases fault
      | _ => rfl
    simp only [other]
    exact Safe.done fun _ _ => ⟨rfl, .inl ⟨failure, rfl, fault⟩⟩
  · cases result with
    | ok summary => exact ⟨rfl, .inr ⟨attempt, tries, refused.otherwise (by simp)⟩⟩
    | error failure =>
      cases violated : isP2002 failure with
      | true =>
        simp only [violated, if_pos]
        exact resolveDuplicate_arbitrated tries refused
      | false =>
        simp only [violated]
        exact Safe.done fun _ more => ⟨rfl, .inr ⟨attempt, tries.grows more.grows, refused.otherwise (by simp [violated])⟩⟩

end Insertion

private theorem recordOfflineSaleIntent_faultless (tenantId userId : Id) (dto : RecordOfflineSaleIntentDto) :
    (recordOfflineSaleIntent tenantId userId dto).Faultless := by
  have created (operationId : Id) (items : List OfflineSaleIntentItemDto) : (createItems tenantId operationId items).Faultless := by
    induction items with
    | nil => exact .value ()
    | cons item rest ih => exact .bind (.send _) fun _ => ih
  have included (operationId : Id) : (includeItems operationId).Faultless := .send _
  have inserted (session : PosSession) : (insertOperation tenantId session dto).Faultless :=
    .bind (.send _) fun created' => .bind (created created'.id dto.items) fun _ =>
      .bind (.findFirst _ _) fun _ => .bind (.orThrow _ _) fun _ => .bind (included _) fun _ => .value _
  refine .bind (.findFirst _ _) fun _ => .bind (.orThrow _ _) fun session => .bind (.throwIf _ _) fun _ => ?_
  refine .tryCatch (.transaction (inserted session)) fun failure ordinary => ?_
  split
  · unfold resolveDuplicate
    split
    · exact .bind (.findFirst _ _) fun _ => .bind (.orThrow _ _) fun _ => .bind (included _) fun _ => .value _
    · exact .throw _
  · exact .failed ordinary

/-- The lines of an operation are summarised in one order, however they are listed. -/
theorem toSummary_listed {db : Db} {operation : PosOperation} {lines : List PosOperationItem}
    (listed : lines.Perm (linesOf db operation.id)) :
    toSummary operation lines = toSummary operation (linesOf db operation.id) := by
  have sorted (rows : List PosOperationItem) :
      (Prisma.orderBy PosOperationItem.id rows).Pairwise fun first second => first.id ≤ second.id :=
    List.pairwise_insertionSort _ rows
  have same : Prisma.orderBy PosOperationItem.id lines = Prisma.orderBy PosOperationItem.id (linesOf db operation.id) := by
    refine List.Perm.eq_of_pairwise ?_ (sorted _) (sorted _)
      ((List.perm_insertionSort _ _).trans (listed.trans (List.perm_insertionSort _ _).symm))
    intro first second one two below above
    have stored {line : PosOperationItem} (member : line ∈ linesOf db operation.id) :
        line ∈ (db.table .posOperationItem).rows := (List.mem_filter.mp member).1
    refine Table.key_unique (db.table .posOperationItem) (stored ?_) (stored ?_) (Nat.le_antisymm below above)
    · exact listed.mem_iff.mp ((List.perm_insertionSort _ _).mem_iff.mp one)
    · exact (List.perm_insertionSort _ _).mem_iff.mp two
  rw [toSummary, same]
  rfl

variable {sha256 : String → String} {state : SystemState ι}

theorem Shop.Reaches.unique (reached : shop.Reaches sha256 calls state) {m : Model} (own : Model.external m = false) :
    State.Unique (S := commerce) m state := by
  refine State.Reaches.unique reached (shop.valid sha256 calls) (fun _ _ => Environment.lawful) ?_ ?_
  · rintro _ writes allowed write member rfl
    cases own.symm.trans (allowed write member)
  · refine .initial fun first member => ?_
    rw [shop.unused m own] at member
    cases member

/-- A device uses each identifier and each number once. -/
def OneEach (db : Db) : Prop :=
  ∀ first ∈ (db.table .posOperation).rows, ∀ second ∈ (db.table .posOperation).rows, first.deviceId = second.deviceId →
    first.clientUuid = second.clientUuid ∨ first.seq = second.seq → first = second

theorem oneEach_unique {db : Db} (unique : Database.Unique (S := commerce) .posOperation db) : OneEach db := by
  intro first one second two device shared
  rcases shared with clientUuid | seq
  · refine unique first one second two (.operationUuid first.deviceId first.clientUuid) (List.mem_cons_self ..) ?_
    rw [device, clientUuid]
    exact List.mem_cons_self ..
  · refine unique first one second two (.operationSeq first.deviceId first.seq)
      (List.mem_cons_of_mem _ (List.mem_cons_self ..)) ?_
    rw [device, seq]
    exact List.mem_cons_of_mem _ (List.mem_cons_self ..)

/-- A call has committed nothing and answers with the original operation as it
has read it, with its lines. -/
structure Replayed (i : ι) (world : SystemWorld ι) (result : Except (Failure HttpException) Response)
    (original : PosOperation) : Prop where
  untouched : world.own i = []
  answer : ∃ read ∈ world.trace, ∃ row ∈ (read.before.table .posOperation).rows, row.provenance = original.provenance ∧
    result = .ok (.operation (toSummary row (linesOf world.database original.id)))

private theorem ReadBack.original {i : ι} {tenantId : Id} {session : PosSession} {dto : RecordOfflineSaleIntentDto}
    (grows : Grows (lawful calls) (shop.start ι) world) (once : OneEach world.database) {attempt read : Event commerce ι}
    (tries : Tries i world attempt) {original row : PosOperation}
    (recorded : original ∈ (attempt.before.table .posOperation).rows) (first : Repeats tenantId session dto original)
    (traced : read ∈ world.trace) (found : row ∈ (read.before.table .posOperation).rows)
    (second : Repeats tenantId session dto row) : row.provenance = original.provenance := by
  have persists {event : Event commerce ι} (member : event ∈ world.trace) {old : PosOperation}
      (there : old ∈ (event.before.table .posOperation).rows) (repeats : Repeats tenantId session dto old) :
      ∃ new ∈ (world.database.table .posOperation).rows, Repeats tenantId session dto new ∧ new.provenance = old.provenance := by
    obtain ⟨_, origin, _, recorded⟩ := Grows.recorded grows rfl member
    obtain ⟨new, now, same⟩ := Grows.provenance recorded.grows
      (by rw [recorded.database]; exact Table.find_eq_some.mpr ⟨there, rfl⟩)
    exact ⟨new, (Table.find_eq_some.mp now).1, repeats.same same, same⟩
  obtain ⟨one, inside, mine, same⟩ := persists tries.member recorded first
  obtain ⟨two, also, other, equal⟩ := persists traced found second
  have identical := once one inside two also (mine.device.trans other.device.symm)
    (.inl (mine.clientUuid.trans other.clientUuid.symm))
  rw [← same, ← equal, identical]

/-- In every run a device uses each identifier and each number once, for an
operation with the lines of the call that recorded it. A call through a session of
its user tries one insertion: where it meets its own identifier it replays the
original operation, where it meets its number alone it is a conflict, and in both
cases it commits nothing. -/
theorem offline_inbox_idempotent (reached : shop.Reaches sha256 calls state) :
    OneEach state.world.database ∧
      (∀ operation ∈ (state.world.database.table .posOperation).rows, ∃ i dto, RecordedBy calls state.world operation i dto) ∧
      ∀ (i : ι) (tenantId userId : Id) (dto : RecordOfflineSaleIntentDto) (session : PosSession)
        (result : Except (Failure HttpException) Response),
        calls i = .recordOfflineSaleIntent tenantId userId dto →
        shop.database.get .posSession dto.sessionId = some session → session.tenantId = tenantId → session.userId = userId →
        State.Reaches (Quiet i) (shop.system sha256 calls) state → (state.threads i).program = .done result →
        ∃ attempt, Tries i state.world attempt ∧
          (∀ original ∈ (attempt.before.table .posOperation).rows, Repeats tenantId session dto original →
            Replayed i state.world result original) ∧
          (Contested session dto attempt.before →
            state.world.own i = [] ∧ result = .error (.thrown (.conflict SEQUENCE_USED))) := by
  obtain ⟨_, grows⟩ := reached.valid
  have once := oneEach_unique (reached.unique rfl).committed
  refine ⟨once, fun operation member => Shop.recordedBy grows (Table.find_eq_some.mpr ⟨member, rfl⟩), ?_⟩
  intro i tenantId userId dto session result call found tenant opened quiet ended
  have safe : Safe (fun _ _ => True) (amongCalls calls) i
      (Answers .operation (Decided i (Arbitrated i tenantId session dto))) ((calls i).program sha256) none (shop.start ι) := by
    rw [call]
    exact respond_safe (recordOfflineSaleIntent_arbitrated rfl (Shop.inbox shop) found tenant opened)
  obtain ⟨given, ⟨_, decided⟩, answered⟩ := Quiet.promised quiet safe ended
  have ordinary : (state.threads i).program.Faultless := by
    refine State.Reaches.faultless quiet (fun _ _ => Quiet.spares) ?_
    change ((calls i).program sha256).Faultless
    rw [call]
    exact .bind (recordOfflineSaleIntent_faultless _ _ _) fun _ => .value _
  rcases decided with ⟨failure, rfl, fault⟩ | ⟨attempt, tries, arbitrated⟩
  · subst answered
    rw [ended] at ordinary
    cases fault.symm.trans (ordinary failure rfl)
  · refine ⟨attempt, tries, fun original recorded repeats => ?_, fun contested => ?_⟩
    · obtain ⟨own, read, row, lines, back⟩ := arbitrated.repeated ⟨original, recorded, repeats⟩
      have same := ReadBack.original grows once tries recorded repeats back.member back.found back.repeats
      have identity : row.id = original.id := congrArg Prod.fst same
      refine ⟨own, read, back.member, row, back.found, same, ?_⟩
      rw [answered, back.answer, toSummary_listed back.listed, identity]
      rfl
    · obtain ⟨own, conflict⟩ := arbitrated.contested contested
      rw [answered, conflict]
      exact ⟨own, rfl⟩

/-- An intent under its second number. -/
def pushedAgain : RecordOfflineSaleIntentDto := { sessionId := 6, clientUuid := "uuid", seq := 2, items := [⟨1, 3, "USD", 100⟩] }

/-- An intent, the same intent pushed again under another number, and another
intent under the first number. -/
def offlinePushes : Fin 3 → Call
  | 0 => .recordOfflineSaleIntent 0 7 { sessionId := 6, clientUuid := "uuid", seq := 1, items := [⟨1, 2, "USD", 100⟩] }
  | 1 => .recordOfflineSaleIntent 0 7 pushedAgain
  | 2 => .recordOfflineSaleIntent 0 7 { sessionId := 6, clientUuid := "other", seq := 1, items := [⟨1, 2, "USD", 100⟩] }

/-- The operation that the second call repeats. -/
private def recordedFirst (operation : PosOperation) : Bool :=
  operation.tenantId = 0 && operation.deviceId = 5 && operation.clientUuid = pushedAgain.clientUuid

/-- When the second call inserts its operation, that of the first one is there. -/
private def insertedLater (event : Event commerce (Fin 3)) : Bool :=
  !(event.author = some 1 && event.access = some (.posOperation, .create)) ||
    (event.before.table .posOperation).rows.any recordedFirst

theorem offline_inbox_idempotent_pushed : ∃ state result, Shop.demo.Reaches (fun _ => "hash") offlinePushes state ∧
    (state.threads 1).program = .done result ∧ OneEach state.world.database ∧
      ∃ attempt, Tries 1 state.world attempt ∧ ∃ original ∈ (attempt.before.table .posOperation).rows,
        Repeats 0 ⟨6, 0, 5, 4, 7, .opened⟩ pushedAgain original ∧ Replayed 1 state.world result original := by
  have ran : ((Shop.demo.system (fun _ => "hash") offlinePushes).run (runs 1 2 ++ runs 0 7 ++ runs 2 4 ++ runs 1 4)).any
      (fun state => decide (state.finished 1) && state.world.trace.all insertedLater) = true := by decide +kernel
  obtain ⟨state, quiet, seen⟩ := Quiet.computed (i := 1) ran (by decide)
  rw [Bool.and_eq_true, List.all_eq_true] at seen
  obtain ⟨result, ended⟩ := of_decide_eq_true seen.1
  have reached : Shop.demo.Reaches (fun _ => "hash") offlinePushes state := quiet.weaken fun _ _ => Quiet.environment
  obtain ⟨once, _, every⟩ := offline_inbox_idempotent reached
  obtain ⟨attempt, tries, replayed, _⟩ := every 1 0 7 pushedAgain ⟨6, 0, 5, 4, 7, .opened⟩ result rfl rfl rfl rfl quiet ended
  have later := seen.2 attempt tries.member
  rw [insertedLater, tries.author, tries.access] at later
  obtain ⟨original, recorded, first⟩ := List.any_eq_true.mp (show (attempt.before.table .posOperation).rows.any recordedFirst = true by
    simpa using later)
  simp only [recordedFirst, Bool.and_eq_true, decide_eq_true_eq] at first
  obtain ⟨⟨tenant, device⟩, clientUuid⟩ := first
  have repeats : Repeats 0 ⟨6, 0, 5, 4, 7, .opened⟩ pushedAgain original := ⟨tenant, device, clientUuid⟩
  exact ⟨state, result, reached, ended, once, attempt, tries, original, recorded, repeats, replayed original recorded repeats⟩

end BusinessPlatform
