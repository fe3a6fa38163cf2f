import BusinessPlatform.Proofs.OrderSafety
import BusinessPlatform.Proofs.PaymentSafety

/-! The sale engine under interference: it commits its order, the payment, the
capture and the sale's row one after another, on top of what the call has
committed before. -/

namespace BusinessPlatform
open Engine OrderService PaymentService PosSaleService

variable {ι : Type} [DecidableEq ι] {calls : ι → Call} {i : ι} {base : List Writes} {tenantId userId : Id}
  {dto : CreatePosSaleDto} {options : CreateSaleOptions} {world : SystemWorld ι}

abbrev SaleCommits (i : ι) (base : List Writes) (tenantId userId : Id) (dto : CreatePosSaleDto) : Commits commerce ι :=
  fun world writes => ∃ steps, world.own i = steps ++ base ∧ SaleStep i tenantId userId dto world steps writes

/-- The commits of a sale that has not recorded its own row. -/
inductive Unfinished : List Writes → Prop where
  | nothing : Unfinished []
  | ordered (placement : Placement) : Unfinished [placement.writes]
  | paid (placement : Placement) (payment : Payment) (captures : List Writes) (once : captures.length ≤ 1) :
      Unfinished (captures ++ [[.put .payment payment], placement.writes])

/-- All commits of a sale. -/
def Sold (dto : CreatePosSaleDto) (summary : PosSaleSummary) (world : SystemWorld ι) (steps : List Writes) : Prop :=
  ∃ placement payment captures sale,
    steps = [.put .posSale sale] :: captures ++ [[.put .payment payment], Placement.writes placement] ∧
    captures.length ≤ 1 ∧ summary.orderId = placement.order.id ∧ summary.paymentId = payment.id ∧
    (dto.method.getD CASH = CASH → ∃ paid, world.database.get .payment payment.id = some paid ∧
      paid.status = .captured ∧ paid.orderId = placement.order.id)

/-- A call that fails has committed a part of the sale, and none of it if it
ran out of stock. -/
abbrev SalePost (i : ι) (base : List Writes) (dto : CreatePosSaleDto) :
    Post commerce HttpException PosSaleSummary ι := fun result session world =>
  session = none ∧
    match result with
    | .ok summary => ∃ steps, world.own i = steps ++ base ∧ Sold dto summary world steps
    | .error failure => (failure = .thrown (.conflict INSUFFICIENT_STOCK) → world.own i = base) ∧
        ∃ steps, world.own i = steps ++ base ∧ Unfinished steps

private theorem sale_untouched (own : world.own i = base) {kinds : HttpException → Prop} :
    Fails (lawful calls) i kinds (SalePost i base dto) false world :=
  fun _ _ _ _ outside idle => ⟨outside rfl, fun _ => idle.own.trans own, [], idle.own.trans own, .nothing⟩

private theorem sale_failed {steps : List Writes} {failure : Failure HttpException}
    (kind : ∀ exception, failure = .thrown exception → Stocked exception)
    (own : world.own i = steps ++ base) (unfinished : Unfinished steps) :
    SalePost i base dto (.error failure) none world :=
  ⟨rfl, fun same => absurd rfl (kind _ same), steps, own, unfinished⟩

private theorem sale_unfinished {steps : List Writes} (own : world.own i = steps ++ base)
    (unfinished : Unfinished steps) : Fails (lawful calls) i Stocked (SalePost i base dto) false world :=
  fun _ _ _ kind outside idle => outside rfl ▸ sale_failed kind (idle.own.trans own) unfinished

private theorem saleSession_safe {commits : Commits commerce ι} {sessionId : Id}
    {post : Post commerce HttpException PosSession ι} (fails : Fails (lawful calls) i (fun _ => True) post false world)
    (resume : ∀ after session, Fails (lawful calls) i (fun _ => True) post false after → post (.ok session) none after) :
    Safe commits (lawful calls) i post (saleSession tenantId userId sessionId options) none world := by
  refine Safe.findFirst fails fun w₁ sessions l₁ _ fails => ?_
  refine Safe.orThrow fails trivial fun session _ => ?_
  refine Safe.throwIf fails trivial fun _ => ?_
  refine Safe.findFirst fails fun w₂ devices l₂ _ fails => ?_
  refine Safe.orThrow fails trivial fun device _ => ?_
  refine Safe.throwIf fails trivial fun _ => ?_
  refine Safe.throwIf fails trivial fun _ => ?_
  exact Safe.done fun after later => resume after session (fails.idle (Later.idle later))

section Steps
variable {placement : Placement} {payment : Payment} {session : PosSession}

private theorem recordSale_safe {captures : List Writes} {order : OrderSummary} {current : PaymentSummary}
    (own : world.own i = captures ++ [[.put .payment payment], placement.writes] ++ base) (once : captures.length ≤ 1)
    (pool : placement.Debits (some session.storeId))
    (captured : dto.method.getD CASH = CASH → ∃ paid, world.database.get .payment payment.id = some paid ∧
      paid.status = .captured ∧ paid.orderId = placement.order.id) :
    Safe (SaleCommits i base tenantId userId dto) (lawful calls) i (SalePost i base dto)
      (recordSale tenantId session placement.order.id payment.id >>= fun sale => pure (toSummary sale order current))
      none world := by
  have fails : Fails (lawful calls) i Stocked (SalePost i base dto) false world :=
    sale_unfinished own (.paid placement payment captures once)
  refine Safe.create fails fun w₁ l₁ sale built created => ?_
  have here : w₁.own i = _ := (Later.idle l₁).own.trans own
  refine ⟨.inr ⟨_, here, ?_⟩, Safe.done fun after later => ⟨rfl, _, ?_, placement, payment, captures, sale, rfl, once,
    by rw [built]; rfl, by rw [built]; rfl, fun cash => ?_⟩⟩
  · exact .sale placement payment captures sale once created.fresh (by rw [built]) (by rw [built]) (by rw [built]; exact pool)
      (by rw [built])
  · rw [(Later.idle later).own, World.own_record_same here rfl (by simp)]
    rfl
  · obtain ⟨paid, found, status, orderId⟩ := captured cash
    have there := Grows.captured l₁.grows found status
    rw [← Database.get_untouched (S := commerce) (m := .payment) w₁.database rfl
      (by simp : payment.id ∉ (putsOf (S := commerce) .payment [.put .posSale sale]).map Payment.id)] at there
    exact ⟨paid, Grows.captured later.grows there status, status, orderId⟩

private theorem settle_safe {order : OrderSummary} {created : PaymentSummary}
    (own : world.own i = [[.put .payment payment], placement.writes] ++ base)
    (pool : placement.Debits (some session.storeId)) (ordered : order.id = placement.order.id)
    (paid : created.id = payment.id)
    (known : ∃ row, world.database.get .payment payment.id = some row ∧ row.orderId = placement.order.id) :
    Safe (SaleCommits i base tenantId userId dto) (lawful calls) i (SalePost i base dto)
      (settle tenantId (dto.method.getD CASH) order created >>= fun current =>
        recordSale tenantId session order.id created.id >>= fun sale => pure (toSummary sale current.2 current.1))
      none world := by
  unfold settle
  rw [ordered, paid]
  split
  next cash =>
    refine Safe.bind (Safe.bind (Safe.weaken (Safe.permit (capturePayment_safe own) ?_) ?_))
    · rintro w writes ⟨here, captured⟩
      exact ⟨_, here, .capture placement payment captured⟩
    · rintro (failure | summary) session' w ⟨rfl, outcome⟩
      · exact sale_failed outcome.1 outcome.2 (.paid placement payment [] (Nat.zero_le _))
      · obtain ⟨⟨captures, once, here⟩, captured, found, status, same⟩ := outcome
        obtain ⟨row, before, orderId⟩ := known
        have here : w.own i = captures ++ [[.put .payment payment], placement.writes] ++ base := by
          rw [here, List.append_assoc]
        have fails : Fails (lawful calls) i Stocked (SalePost i base dto) false w :=
          sale_unfinished here (.paid placement payment captures once)
        refine Safe.bind (Safe.findFirst fails fun w₁ orders l₁ _ fails => ?_)
        refine Safe.orThrow fails (by rintro ⟨⟩) fun order _ => ?_
        refine Safe.findMany fails fun w₂ items l₂ _ fails => ?_
        refine Safe.done fun w₃ l₃ => Safe.done fun w₄ l₄ => ?_
        have idle : Idle (lawful calls) i w w₄ := (Idle.record ((Idle.record (Later.idle l₁) _).trans (Later.idle l₂)) _).trans
          ((Later.idle l₃).trans (Later.idle l₄))
        refine recordSale_safe (idle.own.trans here) once pool fun _ => ⟨captured, ?_, status, ?_⟩
        · exact Grows.captured idle.grows found status
        · exact (same row before).trans orderId
  next other =>
    have here := own
    refine Safe.bind (Safe.done fun after later => ?_)
    rw [← (Later.idle later).own, ← List.nil_append [_, _]] at here
    exact recordSale_safe here (Nat.zero_le _) pool fun cash => absurd cash other

private theorem payOrder_safe {order : OrderSummary} (own : world.own i = placement.writes :: base)
    (pool : placement.Debits (some session.storeId)) (ordered : order.id = placement.order.id) :
    Safe (SaleCommits i base tenantId userId dto) (lawful calls) i (SalePost i base dto)
      (createPayment tenantId ⟨order.id, dto.method.getD CASH⟩ >>= fun created =>
        settle tenantId (dto.method.getD CASH) order created >>= fun current =>
          recordSale tenantId session order.id created.id >>= fun sale => pure (toSummary sale current.2 current.1))
      none world := by
  refine Safe.bind (Safe.weaken (Safe.permit (createPayment_safe own) ?_) ?_)
  · rintro w writes ⟨here, payment, created, rfl⟩
    exact ⟨[placement.writes], here, .payment placement payment (ordered ▸ created)⟩
  · rintro (failure | summary) session' w ⟨rfl, outcome⟩
    · exact sale_failed outcome.1 (outcome.2 : _ = [placement.writes] ++ base) (.ordered placement)
    · obtain ⟨payment, here, same, row, found, orderId⟩ := outcome
      exact settle_safe here pool ordered same ⟨row, found, orderId.trans ordered⟩

end Steps

theorem createSale_safe (own : world.own i = base) :
    Safe (SaleCommits i base tenantId userId dto) (lawful calls) i (SalePost i base dto)
      (createSale tenantId userId dto options) none world := by
  have fails : Fails (lawful calls) i (fun _ => True) (SalePost i base dto) false world := sale_untouched own
  refine Safe.throwIf fails trivial fun _ => ?_
  refine Safe.bind (saleSession_safe fails fun after session fails => ?_)
  have here : after.own i = base :=
    (fails (.thrown (.conflict INSUFFICIENT_STOCK)) none after (fun _ _ => trivial) (fun _ => rfl) .refl).2.1 rfl
  refine Safe.bind (Safe.weaken (Safe.permit (createOrder_safe here) ?_) ?_)
  · rintro w writes ⟨here, placement, ordered, rfl⟩
    exact ⟨[], here, .order placement session ordered⟩
  · rintro (failure | summary) session' w ⟨rfl, outcome⟩
    · exact ⟨rfl, fun _ => outcome.2, [], outcome.2, .nothing⟩
    · obtain ⟨placement, here, same, pool⟩ := outcome
      exact payOrder_safe here pool same

end BusinessPlatform
