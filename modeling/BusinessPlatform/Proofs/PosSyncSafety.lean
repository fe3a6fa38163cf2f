import BusinessPlatform.Proofs.PosSaleSafety

/-! `syncOperation` under interference: what it may commit after what, and that
a verdict that it returns is the settled row of its operation. -/

namespace BusinessPlatform
open Engine PosSyncService PosOperationService

variable {ι : Type} [DecidableEq ι] {calls : ι → Call} {i : ι} {commits : Commits commerce ι}
  {kinds : HttpException → Prop} {tenantId userId operationId : Id} {world before after : SystemWorld ι}

/-- An operation as it was read. Only its settlement may have changed since. -/
structure Loaded (i : ι) (tenantId operationId : Id) (operation : OperationWithItems) (world : SystemWorld ι) : Prop where
  identity : operation.id = operationId
  tenant : operation.tenantId = tenantId
  row : ∃ row, world.database.get .posOperation operationId = some row ∧
    row.provenance = operation.provenance ∧ (operation.status ≠ .pending → row = operation.toPosOperation)
  lines : operation.items.Perm (linesOf world.database operationId)
  read : LinesRead i world operation.items

omit [DecidableEq ι] in
theorem LinesRead.grows {rely : Guarantee commerce ι} {items : List PosOperationItem} (read : LinesRead i before items)
    (grows : Grows rely before after) : LinesRead i after items := by
  obtain ⟨event, member, facts⟩ := read
  exact ⟨event, grows.member member, facts⟩

theorem Loaded.grows {operation : OperationWithItems} (loaded : Loaded i tenantId operationId operation before)
    (grows : Grows (lawful calls) before after) : Loaded i tenantId operationId operation after := by
  obtain ⟨row, found, provenance, settled⟩ := loaded.row
  obtain ⟨now, there, same⟩ := Grows.provenance grows found
  refine ⟨loaded.identity, loaded.tenant, ⟨now, there, same.trans provenance, fun final => ?_⟩, ?_,
    loaded.read.grows grows⟩
  · have kept := Grows.settled grows found (settled final ▸ final)
    rw [Option.some.inj (there.symm.trans kept), settled final]
  · rw [Grows.lines grows (Option.isSome_iff_exists.mpr ⟨row, found⟩)]
    exact loaded.lines

/-- The operation's row is settled. -/
def Settled (operationId : Id) (world : SystemWorld ι) : Prop :=
  ∃ row, world.database.get .posOperation operationId = some row ∧ row.status ≠ .pending

theorem Settled.grows (settled : Settled operationId before) (grows : Grows (lawful calls) before after) :
    Settled operationId after := by
  obtain ⟨row, found, final⟩ := settled
  exact ⟨row, Grows.settled grows found final, final⟩

/-- A verdict is what the settled row says. -/
def Verdict (operationId : Id) (result : SyncResult) (world : SystemWorld ι) : Prop :=
  ∃ row, world.database.get .posOperation operationId = some row ∧ row.status ≠ .pending ∧ result = toSyncResult row

theorem Verdict.grows {result : SyncResult} (verdict : Verdict operationId result before)
    (grows : Grows (lawful calls) before after) : Verdict operationId result after := by
  obtain ⟨row, found, final, same⟩ := verdict
  exact ⟨row, Grows.settled grows found final, final, same⟩

omit [DecidableEq ι] in
theorem Loaded.verdict {operation : OperationWithItems} (loaded : Loaded i tenantId operationId operation world)
    (settled : operation.status ≠ .pending) : Verdict operationId (toSyncResult operation.toPosOperation) world := by
  obtain ⟨row, found, _, same⟩ := loaded.row
  exact ⟨row, found, same settled ▸ settled, by rw [same settled]⟩

section Reading

private theorem findOperation_safe {post : Post commerce HttpException (Option OperationWithItems) ι}
    (fails : Fails (lawful calls) i kinds post false world)
    (resume : ∀ after operation, Idle (lawful calls) i world after → Fails (lawful calls) i kinds post false after →
      (∀ found, operation = some found → Loaded i tenantId operationId found after) →
      (Settled operationId world → ∀ found, operation = some found → found.status ≠ .pending) →
      post (.ok operation) none after) :
    Safe commits (lawful calls) i post (findOperation tenantId operationId) none world := by
  refine Safe.findFirst fails fun w₁ rows l₁ listed fails => ?_
  cases head : rows.head? with
  | none =>
    refine Safe.done fun after later => resume after none ((Idle.record (Later.idle l₁) _).trans (Later.idle later))
      (fails.idle (Later.idle later)) (by simp) (by simp)
  | some row =>
    obtain ⟨inside, matched⟩ := listed_head listed head
    simp only [Bool.and_eq_true, decide_eq_true_eq] at matched
    have found : w₁.database.get .posOperation operationId = some row := Table.find_eq_some.mpr ⟨inside, matched.1⟩
    refine Safe.findMany fails fun w₂ items l₂ lines fails => ?_
    refine Safe.done fun after later => ?_
    have idle : Idle (lawful calls) i (w₁.reads i .posOperation rows false) after :=
      (Idle.record (Later.idle l₂) _).trans (Later.idle later)
    refine resume after _ ((Idle.record (Later.idle l₁) _).trans idle) (fails.idle (Later.idle later)) ?_ ?_
    · rintro _ ⟨⟩
      have loaded : Loaded i tenantId operationId ⟨row, items⟩ (w₂.reads i .posOperationItem items false) := by
        obtain ⟨now, there, same⟩ := Grows.provenance l₂.grows found
        refine ⟨matched.1, matched.2, ⟨now, there, same, fun settled => ?_⟩, matched.1 ▸ lines,
          ⟨_, List.mem_cons_self .., rfl, rfl, rfl⟩⟩
        exact Option.some.inj (there.symm.trans (Grows.settled l₂.grows found settled))
      exact loaded.grows later.grows
    · rintro ⟨old, there, settled⟩ _ ⟨⟩
      exact Option.some.inj (found.symm.trans (Grows.settled l₁.grows there settled)) ▸ settled

private theorem loadOperation_safe {post : Post commerce HttpException OperationWithItems ι}
    (fails : Fails (lawful calls) i kinds post false world) (kind : kinds (.notFound OPERATION_NOT_FOUND))
    (resume : ∀ after operation, Idle (lawful calls) i world after → Fails (lawful calls) i kinds post false after →
      Loaded i tenantId operationId operation after →
      (Settled operationId world → Verdict operationId (toSyncResult operation.toPosOperation) after) →
      post (.ok operation) none after) :
    Safe commits (lawful calls) i post (loadOperation tenantId operationId) none world := by
  refine Safe.bind (findOperation_safe fails fun after operation idle fails loaded final => ?_)
  cases operation with
  | none => exact Safe.throw fails kind
  | some operation =>
    refine Safe.done fun later more => ?_
    have loaded := (loaded operation rfl).grows more.grows
    refine resume later operation (idle.trans (Later.idle more)) (fails.idle (Later.idle more)) loaded fun settled => ?_
    exact loaded.verdict (final settled operation rfl)

private theorem loadSnapshot_safe {post : Post commerce HttpException PermissionService.PermissionSnapshot ι}
    (fails : Fails (lawful calls) i kinds post false world)
    (resume : ∀ after snapshot, Idle (lawful calls) i world after →
      Fails (lawful calls) i kinds post false after → post (.ok snapshot) none after) :
    Safe commits (lawful calls) i post (PermissionService.loadSnapshot tenantId userId) none world := by
  refine Safe.findFirst fails fun w₁ rows l₁ _ fails => ?_
  cases rows.head? with
  | none =>
    exact Safe.done fun after later => resume after _ ((Idle.record (Later.idle l₁) _).trans (Later.idle later))
      (fails.idle (Later.idle later))
  | some membership =>
    refine Safe.findFirst fails fun w₂ roles l₂ _ fails => ?_
    refine Safe.findMany fails fun w₃ permissions l₃ _ fails => ?_
    have given : ∀ snapshot, Safe commits (lawful calls) i post (.done (.ok snapshot)) none
        (w₃.reads i .rolePermission permissions false) := fun snapshot => Safe.done fun after later =>
      resume after snapshot ((Idle.record ((Idle.record ((Idle.record (Later.idle l₁) _).trans (Later.idle l₂)) _).trans
        (Later.idle l₃)) _).trans (Later.idle later)) (fails.idle (Later.idle later))
    split
    next => exact given _
    next => split <;> exact given _

/-- Checking the device, its credential and the cashier's permissions. -/
private theorem assertSyncAuthority_safe {sha256 : String → String} {operation : PosOperation}
    {credential : Option String} {post : Post commerce HttpException Unit ι}
    (fails : Fails (lawful calls) i kinds post false world) (kind : ∀ exception, kinds exception)
    (resume : ∀ after, Idle (lawful calls) i world after → Fails (lawful calls) i kinds post false after →
      post (.ok ()) none after) :
    Safe commits (lawful calls) i post (assertSyncAuthority sha256 tenantId userId operation credential) none world := by
  refine Safe.throwIf fails (kind _) fun _ => ?_
  refine Safe.findFirst fails fun w₁ devices l₁ _ fails => ?_
  refine Safe.orThrow fails (kind _) fun device _ => ?_
  refine Safe.throwIf fails (kind _) fun _ => Safe.throwIf fails (kind _) fun _ => Safe.throwIf fails (kind _) fun _ => ?_
  refine Safe.bind (loadSnapshot_safe fails fun w₂ snapshot idle fails => ?_)
  have fails : Fails (lawful calls) i kinds post false w₂ := fails
  simp only [Program.throwIf]
  split
  next => exact Safe.throw fails (kind _)
  next =>
    exact Safe.done fun after later => resume after
      (((Idle.record (Later.idle l₁) _).trans idle).trans (Later.idle later)) (fails.idle (Later.idle later))

private theorem checkStock_safe {storeId : Id} {lines : List (Id × Int)}
    {post : Post commerce HttpException (Option String) ι} (fails : Fails (lawful calls) i kinds post false world)
    (resume : ∀ after code, Idle (lawful calls) i world after → Fails (lawful calls) i kinds post false after →
      post (.ok code) none after) :
    Safe commits (lawful calls) i post (checkStock tenantId storeId lines) none world := by
  induction lines generalizing world with
  | nil => exact Safe.done fun after later => resume after _ (Later.idle later) (fails.idle (Later.idle later))
  | cons line lines ih =>
    obtain ⟨variantId, quantity⟩ := line
    refine Safe.findFirst fails fun w₁ rows l₁ _ fails => ?_
    have given : ∀ code, Safe commits (lawful calls) i post (.done (.ok code)) none (w₁.reads i .inventory rows false) :=
      fun code => Safe.done fun after later => resume after code
        ((Idle.record (Later.idle l₁) _).trans (Later.idle later)) (fails.idle (Later.idle later))
    cases rows.head? with
    | none => exact given _
    | some row =>
      simp only
      split
      next => exact given _
      next => exact ih fails fun after code idle => resume after code ((Idle.record (Later.idle l₁) _).trans idle)

/-- What validation has established of an intent's lines. -/
def Validated (items : List PosOperationItem) : Prop := items ≠ [] ∧ ∃ prices, checkLines prices none items = none

private theorem validateIntent_safe {operation : OperationWithItems}
    {post : Post commerce HttpException (Option String) ι} (fails : Fails (lawful calls) i kinds post false world)
    (resume : ∀ after code, Idle (lawful calls) i world after → Fails (lawful calls) i kinds post false after →
      (code = none → Validated operation.items) → post (.ok code) none after) :
    Safe commits (lawful calls) i post (validateIntent tenantId operation) none world := by
  unfold validateIntent
  split
  next =>
    exact Safe.done fun after later => resume after _ (Later.idle later) (fails.idle (Later.idle later)) (by simp)
  next filled =>
    rw [List.isEmpty_iff] at filled
    refine Safe.findMany fails fun w₁ variants l₁ _ fails => ?_
    have rejected : ∀ code, Safe commits (lawful calls) i post (.done (.ok (some code))) none
        (w₁.reads i .productVariant variants false) := fun code => Safe.done fun after later =>
      resume after code ((Idle.record (Later.idle l₁) _).trans (Later.idle later)) (fails.idle (Later.idle later)) (by simp)
    split
    next => exact rejected _
    next =>
      split
      next => exact rejected _
      next =>
        refine Safe.findMany fails fun w₂ prices l₂ _ fails => ?_
        have idle := Idle.record ((Idle.record (Later.idle l₁) _).trans (Later.idle l₂))
          ⟨some i, some (.price, .find), prices.map (Sigma.mk Model.price), false⟩
        split
        next =>
          exact Safe.done fun after later => resume after _ (idle.trans (Later.idle later))
            (fails.idle (Later.idle later)) (by simp)
        next checked =>
          exact checkStock_safe fails fun after code more fails =>
            resume after code (idle.trans more) fails fun _ => ⟨filled, prices, checked⟩

end Reading

section Settling
variable {α : Type} {credential : Option String} {operation : OperationWithItems} {history : List Writes}

abbrev SyncCommits (i : ι) (tenantId operationId : Id) : Commits commerce ι :=
  fun world writes => SyncStep i tenantId operationId world (world.own i) writes

/-- A verdict that is returned is the settled row. -/
abbrev SyncPost (operationId : Id) : Post commerce HttpException SyncResult ι :=
  fun result _ world => ∀ verdict, result = .ok verdict → Verdict operationId verdict world

omit [DecidableEq ι] in
private theorem sync_fails {rely : Guarantee commerce ι} :
    Fails rely i (fun _ => True) (SyncPost operationId) false world := fun _ _ _ _ _ _ => nofun

omit [DecidableEq ι] in
theorem Operated.settles {change : Change commerce .posOperation} {writes : Writes} {label : Label commerce ι}
    (operated : Operated tenantId operationId world.database change writes)
    (final : ∀ row : PosOperation, (change.apply row).status ≠ .pending) :
    Settled operationId (world.record label writes) := by
  obtain ⟨row, found, _, _⟩ := operated
  have key : (change.apply row).id = operationId := (change.keeps row).trans (Table.find_eq_some.mp found).2
  exact ⟨_, key ▸ Database.get_put (S := commerce) world.database .posOperation (change.apply row), final row⟩

private theorem operate_safe {change : Change commerce .posOperation} {next : Nat → Service α}
    {post : Post commerce HttpException α ι} (loaded : Loaded i tenantId operationId operation world)
    (fails : Fails (lawful calls) i kinds post false world)
    (missed : ∀ after, Idle (lawful calls) i world after → Fails (lawful calls) i kinds post false after →
      Settled operationId after → Safe commits (lawful calls) i post (next 0) none after)
    (hit : ∀ after writes, Later (lawful calls) i [] world after →
      Operated tenantId operationId after.database change writes →
      Allowed commits after writes ∧
        Safe commits (lawful calls) i post (next 1) none (after.record (updating i .posOperation false) writes)) :
    Safe commits (lawful calls) i post
      (Prisma.updateMany .posOperation (pending tenantId operationId) change >>= next) none world := by
  refine Safe.updateUnique (k := operationId) ?_ fails (fun after later absent fails => ?_)
    fun after later row found matched _ => ?_
  · intro row matched
    simp only [pending, Bool.and_eq_true, decide_eq_true_eq] at matched
    exact matched.1.1
  · obtain ⟨row, found, provenance, _⟩ := (loaded.grows later.grows).row
    refine missed _ (Idle.record (Later.idle later) _) fails ⟨row, found, fun unsettled => ?_⟩
    have identity : row.id = operation.id := congrArg Prod.fst provenance
    have tenant : row.tenantId = operation.tenantId := congrArg (fun fields => fields.2.1) provenance
    have unmatched := absent row found
    simp [pending, identity, tenant, unsettled, loaded.identity, loaded.tenant] at unmatched
  · simp only [pending, Bool.and_eq_true, decide_eq_true_eq] at matched
    exact hit after _ later (.mk row found matched.1.2 matched.2)

private theorem loadSettled_safe {post : Post commerce HttpException OperationWithItems ι}
    (fails : Fails (lawful calls) i kinds post false world) (kind : kinds (.notFound OPERATION_NOT_FOUND))
    (settled : Settled operationId world)
    (resume : ∀ after operation, Verdict operationId (toSyncResult operation.toPosOperation) after →
      post (.ok operation) none after) :
    Safe commits (lawful calls) i post (loadOperation tenantId operationId) none world :=
  loadOperation_safe fails kind fun after operation _ _ _ verdict => resume after operation (verdict settled)

/-- A rejection is persisted unless the operation has been settled before. -/
private theorem persistRejection_safe {code : String} {post : Post commerce HttpException OperationWithItems ι}
    (loaded : Loaded i tenantId operationId operation world) (own : world.own i = history)
    (fails : ∀ after, Fails (lawful calls) i kinds post false after) (kind : kinds (.notFound OPERATION_NOT_FOUND))
    (step : ∀ after writes, Operated tenantId operationId after.database (reject code) writes →
      SyncStep i tenantId operationId after history writes)
    (resume : ∀ after operation, Verdict operationId (toSyncResult operation.toPosOperation) after →
      post (.ok operation) none after) :
    Safe (SyncCommits i tenantId operationId) (lawful calls) i post
      (persistRejection tenantId operationId code) none world := by
  refine operate_safe loaded (fails world) (fun after _ fails settled => ?_)
    fun after writes later operated => ⟨.inr ?_, ?_⟩
  · exact loadSettled_safe fails kind settled resume
  · change SyncStep i tenantId operationId after (after.own i) writes
    rw [(Later.idle later).own, own]
    exact step after writes operated
  · exact loadSettled_safe (fails _) kind (operated.settles fun _ => nofun) resume

/-- Polling returns a settled operation, or clears a stale claim and gives up. -/
private theorem awaitConcurrentResult_safe {polls : Nat} {post : Post commerce HttpException (Option OperationWithItems) ι}
    (own : world.own i = []) (fails : ∀ after, Fails (lawful calls) i kinds post false after)
    (gone : ∀ after, post (.ok none) none after)
    (resume : ∀ after operation, Loaded i tenantId operationId operation after → operation.status ≠ .pending →
      post (.ok (some operation)) none after) :
    Safe (SyncCommits i tenantId operationId) (lawful calls) i post
      (awaitConcurrentResult tenantId operationId polls) none world := by
  induction polls generalizing world with
  | zero => exact Safe.done fun after _ => gone after
  | succ polls ih =>
    refine Safe.bind (findOperation_safe (fails world) fun w₁ found idle _ loaded _ => ?_)
    have here : w₁.own i = [] := idle.own.trans own
    cases found with
    | none => exact ih here
    | some operation =>
      have loaded := loaded operation rfl
      simp only
      split
      next settled =>
        exact Safe.done fun after later => resume after operation (loaded.grows later.grows) (by simpa using settled)
      next =>
        split
        next => exact ih here
        next claimedAt _ =>
          refine Safe.now (fails w₁) fun w₂ l₂ _ => ?_
          have idle := Idle.record (Later.idle l₂) ⟨some i, none, [], false⟩
          split
          next =>
            refine operate_safe (loaded.grows idle.grows) (fails _) (fun after _ _ _ => Safe.done fun after _ => gone after)
              fun after writes later operated => ⟨.inr ?_, Safe.done fun after _ => gone after⟩
            have now : after.own i = [] := (Later.idle later).own.trans (idle.own.trans here)
            change SyncStep i tenantId operationId after (after.own i) writes
            rw [now]
            exact .cleared operated
          next => exact ih (idle.own.trans here)

private theorem claim_safe {post : Post commerce HttpException Nat ι}
    (relied : ∀ world writes, SyncCommits i tenantId operationId world writes → lawful calls (some i) world writes)
    (own : world.own i = []) (fails : Fails (lawful calls) i kinds post false world)
    (missed : ∀ after, Idle (lawful calls) i world after → post (.ok 0) none after)
    (hit : ∀ after claim, Claim operationId claim → after.own i = [claim] → Grows (lawful calls) world after →
      post (.ok 1) none after) :
    Safe (SyncCommits i tenantId operationId) (lawful calls) i post (claim tenantId operationId) none world := by
  refine Safe.now fails fun w₁ l₁ fails => ?_
  have idle : Idle (lawful calls) i world _ := Idle.record (Later.idle l₁) ⟨some i, none, [], false⟩
  rw [← bind_pure (Prisma.updateMany ..)]
  refine Safe.updateUnique (k := operationId) ?_ fails
    (fun w₂ l₂ _ _ => Safe.done fun after later => ?_) fun w₂ l₂ row found matched _ => ?_
  · intro row matched
    simp only [pending, Bool.and_eq_true, decide_eq_true_eq] at matched
    exact matched.1.1.1
  · exact missed after ((Idle.record (idle.trans (Later.idle l₂)) _).trans (Later.idle later))
  · simp only [pending, Bool.and_eq_true, decide_eq_true_eq] at matched
    obtain ⟨⟨⟨identity, unsettled⟩, tenant⟩, unclaimed⟩ := matched
    have own : w₂.own i = [] := (Idle.own (idle.trans (Later.idle l₂))).trans own
    have step : SyncCommits i tenantId operationId w₂
        [.put .posOperation ((setProcessedAt (some w₁.clock)).apply row)] := by
      change SyncStep i tenantId operationId w₂ (w₂.own i) _
      rw [own]
      exact .claimed row w₁.clock found unsettled unclaimed tenant
    refine ⟨.inr step, Safe.done fun after later => hit after _
      (.mk ((setProcessedAt (some w₁.clock)).apply row) identity unsettled rfl) ?_ ?_⟩
    · rw [(Later.idle later).own]
      exact World.own_record_same own rfl (by simp)
    · have grows : Grows (lawful calls) world w₂ := Idle.grows (idle.trans (Later.idle l₂))
      exact (grows.tail (.event _ _ (.inr (relied _ _ step)))).trans later.grows

/-- The claim's winner, if it fails for want of stock, has committed nothing but
its claim. -/
abbrev ExecutePost (i : ι) (operationId : Id) (claim : Writes) : Post commerce HttpException SyncResult ι :=
  fun result session world => session = none ∧
    match result with
    | .ok verdict => Verdict operationId verdict world
    | .error failure => failure = .thrown (.conflict OrderService.INSUFFICIENT_STOCK) → world.own i = [claim]

private theorem sale_step {claim : Writes} (loaded : Loaded i tenantId operationId operation world)
    (held : Claim operationId claim) (validated : Validated operation.items) {writes : Writes}
    (commits : SaleCommits i [claim] tenantId operation.userId (saleDto operation) world writes) :
    SyncCommits i tenantId operationId world writes := by
  obtain ⟨steps, own, step⟩ := commits
  obtain ⟨row, found, provenance, _⟩ := loaded.row
  obtain ⟨identity, tenant, device, session, store, user, uuid, seq, customer⟩ :
      row.id = operation.id ∧ row.tenantId = operation.tenantId ∧ row.deviceId = operation.deviceId ∧
        row.sessionId = operation.sessionId ∧ row.storeId = operation.storeId ∧ row.userId = operation.userId ∧
        row.clientUuid = operation.clientUuid ∧ row.seq = operation.seq ∧ row.customerId = operation.customerId := by
    simpa [PosOperation.provenance] using provenance
  change SyncStep i tenantId operationId world (world.own i) writes
  rw [own]
  refine .executed claim held row operation.items validated.1 validated.2 steps found (tenant.trans loaded.tenant) loaded.lines
    loaded.read ?_
  have same : saleDto { row with items := operation.items } = saleDto operation := by
    simp [saleDto, session, customer]
  rw [same, user]
  exact step

variable (call : calls i = .syncOperation tenantId userId operationId credential)
include call

private theorem sync_relied (world : SystemWorld ι) (writes : Writes)
    (step : SyncCommits i tenantId operationId world writes) : lawful calls (some i) world writes := by
  rw [lawful, call]
  exact step

private theorem execute_safe {claim : Writes} (loaded : Loaded i tenantId operationId operation world)
    (held : Claim operationId claim) (validated : Validated operation.items) (own : world.own i = [claim]) :
    Safe (SyncCommits i tenantId operationId) (lawful calls) i (ExecutePost i operationId claim)
      (execute tenantId operation) none world := by
  refine Safe.bind (Safe.weaken (Safe.grown (createSale_safe own) .refl
    (fun after writes grows => sale_step (loaded.grows grows) held validated) (sync_relied call)) ?_)
  rintro (failure | sale) session w ⟨grows, rfl, outcome⟩
  · exact ⟨rfl, outcome.1⟩
  · obtain ⟨steps, here, placement, payment, captures, row, rfl, once, order, paid, captured⟩ := outcome
    have loaded := loaded.grows grows
    have fails : ∀ w : SystemWorld ι, Fails (lawful calls) i Stocked (ExecutePost i operationId claim) false w :=
      fun _ _ _ _ kind outside _ => ⟨outside rfl, fun same => absurd rfl (kind _ same)⟩
    have given : ∀ w : SystemWorld ι, Settled operationId w → Safe (SyncCommits i tenantId operationId) (lawful calls) i
        (ExecutePost i operationId claim) (loadOperation tenantId operationId >>= fun settled =>
          pure (toSyncResult settled.toPosOperation)) none w :=
      fun w settled => Safe.bind (loadSettled_safe (fails w) nofun settled fun after operation verdict =>
        Safe.done fun _ more => ⟨rfl, verdict.grows more.grows⟩)
    rw [loaded.identity]
    refine operate_safe loaded (fails w) (fun after _ _ settled => given after settled)
      fun after writes later operated => ⟨.inr ?_, given _ (operated.settles fun _ => nofun)⟩
    obtain ⟨row, found, status, orderId⟩ := captured rfl
    have own := (Later.idle later).own.trans here
    rw [order, paid] at operated
    change SyncStep i tenantId operationId after (after.own i) writes
    rw [own]
    simp only [List.cons_append, List.append_assoc]
    exact .accepted claim held placement payment _ captures _ once (Grows.captured later.grows found status) status
      orderId operated

private theorem executeOrReject_safe {claim : Writes} (loaded : Loaded i tenantId operationId operation world)
    (held : Claim operationId claim) (validated : Validated operation.items) (own : world.own i = [claim]) :
    Safe (SyncCommits i tenantId operationId) (lawful calls) i (SyncPost operationId)
      (executeOrReject tenantId operation) none world := by
  refine Safe.tryCatch rfl (Safe.weaken (Safe.grown (execute_safe call loaded held validated own) .refl
    (fun _ _ _ => id) (sync_relied call)) ?_)
  rintro (failure | verdict) session w ⟨grows, rfl, outcome⟩
  · simp only
    split
    next short =>
      have own := outcome (by simpa [isOutOfStock] using short)
      rw [loaded.identity]
      refine Safe.bind (persistRejection_safe (loaded.grows grows) own (fun _ => sync_fails)
        trivial (fun after writes => .outOfStock claim held) fun after operation verdict => ?_)
      exact Safe.done fun final more _ same => Except.ok.inj same ▸ verdict.grows more.grows
    next => exact Safe.failed sync_fails fun _ _ => trivial
  · exact fun _ same => Except.ok.inj same ▸ outcome

private theorem syncPending_safe (loaded : Loaded i tenantId operationId operation world) (own : world.own i = []) :
    Safe (SyncCommits i tenantId operationId) (lawful calls) i (SyncPost operationId)
      (syncPending tenantId operation) none world := by
  refine Safe.bind (validateIntent_safe sync_fails fun w₁ code idle _ validated => ?_)
  have loaded := loaded.grows idle.grows
  have own := idle.own.trans own
  rw [loaded.identity]
  cases code with
  | some code =>
    refine Safe.bind (persistRejection_safe loaded own (fun _ => sync_fails) trivial
      (fun after writes => .rejected code) fun after operation verdict => ?_)
    exact Safe.done fun final more _ same => Except.ok.inj same ▸ verdict.grows more.grows
  | none =>
    have fails : Fails (lawful calls) i (fun _ => True) (SyncPost operationId) false w₁ := sync_fails
    refine Safe.bind (claim_safe (sync_relied call) own fails (fun w₂ idle => ?_) fun w₂ claim held own grows => ?_)
    · refine Safe.bind (awaitConcurrentResult_safe (idle.own.trans own) (fun _ => sync_fails)
        (fun _ => Safe.failed sync_fails fun _ _ => trivial) fun after found loaded settled => ?_)
      refine Safe.done fun final more _ same => ?_
      cases same
      exact (loaded.grows more.grows).verdict settled
    · exact executeOrReject_safe call (loaded.grows grows) held (validated rfl) own

theorem syncOperation_safe {sha256 : String → String} (own : world.own i = []) :
    Safe (SyncCommits i tenantId operationId) (lawful calls) i (SyncPost operationId)
      (syncOperation sha256 tenantId userId operationId credential) none world := by
  have fails : ∀ w : SystemWorld ι, Fails (lawful calls) i (fun _ => True) (SyncPost operationId) false w :=
    fun _ => sync_fails
  refine Safe.bind (loadOperation_safe (fails world) trivial fun w₁ operation before _ loaded _ => ?_)
  refine Safe.bind (assertSyncAuthority_safe (fails w₁) (fun _ => trivial) fun w₂ idle _ => ?_)
  have loaded := loaded.grows idle.grows
  simp only
  split
  next settled =>
    refine Safe.done fun after later => ?_
    rintro _ ⟨⟩
    exact (loaded.grows later.grows).verdict (by simpa using settled)
  next => exact syncPending_safe call loaded ((Idle.own (before.trans idle)).trans own)

end Settling

end BusinessPlatform
