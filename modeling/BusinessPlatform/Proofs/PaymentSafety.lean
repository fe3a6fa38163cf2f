import BusinessPlatform.Proofs.Stability

/-! `createPayment`, `capturePayment` and `failPayment` under interference. None
of them throws the exception that the sale engine's caller handles. -/

namespace BusinessPlatform
open Engine OrderService PaymentService

variable {ι : Type} [DecidableEq ι] {calls : ι → Call} {i : ι} {history : List Writes} {tenantId paymentId : Id}
  {dto : CreatePaymentDto} {world first : SystemWorld ι} {pins : List (Pin commerce)}

/-- Every exception but a shortage of stock. -/
def Stocked (exception : HttpException) : Prop := exception ≠ .conflict INSUFFICIENT_STOCK

private theorem stocked_conflict {message : String} (other : message ≠ INSUFFICIENT_STOCK) : Stocked (.conflict message) :=
  fun same => other (HttpException.conflict.inj same)

abbrev PaymentCommits (i : ι) (history : List Writes) (tenantId : Id) (dto : CreatePaymentDto) : Commits commerce ι :=
  fun world writes => world.own i = history ∧
    ∃ payment, PaymentCreated tenantId dto world.database payment ∧ writes = [.put .payment payment]

/-- The call has committed the payment that it returns. -/
abbrev PaymentPost (i : ι) (history : List Writes) (dto : CreatePaymentDto) :
    Post commerce HttpException PaymentSummary ι :=
  Attempt i history Stocked fun summary world =>
    ∃ payment : Payment, world.own i = [.put .payment payment] :: history ∧ summary.id = payment.id ∧
      ∃ row, world.database.get .payment payment.id = some row ∧ row.orderId = dto.orderId

private theorem insertPayment_safe
    (fails : Fails (lawful calls) i Stocked
      (Body (PaymentCommits i history tenantId dto) (lawful calls) i (PaymentPost i history dto)) true world) :
    Safe Never (lawful calls) i
      (Body (PaymentCommits i history tenantId dto) (lawful calls) i (PaymentPost i history dto))
      (insertPayment tenantId dto) (some {}) world := by
  refine Safe.findFirst fails fun w₁ orders l₁ listed fails => ?_
  refine Safe.orThrow fails nofun fun order head => ?_
  refine Safe.throwIf fails nofun fun _ => ?_
  refine Safe.findFirst fails fun w₂ captured l₂ _ fails => ?_
  refine Safe.throwIf fails nofun fun _ => ?_
  refine Safe.createInside fails fun w₃ l₃ payment built created fails => ?_
  refine Safe.done fun after later => ?_
  have held := (((Held.start _).move l₂ _ fun _ => id).insert l₃ _ payment created.fresh).later later
  have own : after.own i = history := Fails.ownInside (fails.idle (Later.idle later))
  obtain ⟨inside, matched⟩ := listed_head listed head
  simp only [Bool.and_eq_true, decide_eq_true_eq] at matched
  have found : w₁.database.get .order dto.orderId = some order := Table.find_eq_some.mpr ⟨inside, matched.1⟩
  obtain ⟨now, there, same⟩ := Grows.order held.grown found
  refine ⟨_, rfl, .inr ⟨own, payment, ⟨⟨now, there, ?_⟩, ?_, ?_, ?_, ?_⟩, rfl⟩, fun final more => ?_⟩
  · rw [same, built]
    exact ⟨matched.2, rfl, rfl⟩
  · exact (held.pinned _ (List.mem_singleton.mpr rfl)).2
  · rw [built]
  · rw [built]
    exact matched.2
  · rw [built]
  · refine ⟨rfl, payment, ?_, rfl, ?_⟩
    · rw [(Later.idle more).own]
      exact World.own_record_same own rfl (by simp)
    · have stored := Database.get_put (S := commerce) after.database .payment payment
      obtain ⟨row, found, same⟩ := Grows.payment more.grows stored
      exact ⟨row, found, by rw [same, built]⟩

/-- `createPayment` commits one payment of its order's full amount, or nothing. -/
theorem createPayment_safe (own : world.own i = history) :
    Safe (PaymentCommits i history tenantId dto) (lawful calls) i (PaymentPost i history dto)
      (createPayment tenantId dto) none world :=
  Safe.transaction (Attempt.fails own) fun _ _ fails => insertPayment_safe fails

abbrev CaptureCommits (i : ι) (history : List Writes) (tenantId paymentId : Id) : Commits commerce ι :=
  fun world writes => world.own i = history ∧ Captured tenantId paymentId world.database writes

/-- The payment is captured when the call returns, by this call or before it,
and still belongs to the order that it belonged to before the call. -/
abbrev CapturePost (i : ι) (history : List Writes) (paymentId : Id) (origin : SystemWorld ι) :
    Post commerce HttpException PaymentSummary ι :=
  Attempt i history Stocked fun _ world =>
    (∃ captures, captures.length ≤ 1 ∧ world.own i = captures ++ history) ∧
      ∃ payment, world.database.get .payment paymentId = some payment ∧ payment.status = .captured ∧
        ∀ row, origin.database.get .payment paymentId = some row → payment.orderId = row.orderId

private theorem settlePayment_safe {commits : Commits commerce ι} {α : Type} {status : PaymentStatus}
    {next : Nat → Service α} {post : Post commerce HttpException α ι}
    (fails : Fails (lawful calls) i Stocked post true world)
    (missed : ∀ after, Fails (lawful calls) i Stocked post true after →
      Safe commits (lawful calls) i post (next 0) (some {}) after)
    (hit : ∀ after transaction (row : Payment), row.status = .processing → row.tenantId = tenantId →
      Held (lawful calls) world [⟨Model.payment, paymentId, some row⟩] after transaction →
      transaction.writes = [.put .payment ((setPayment status).apply row)] →
      Fails (lawful calls) i Stocked post true after → Safe commits (lawful calls) i post (next 1) (some transaction) after) :
    Safe commits (lawful calls) i post (settlePayment tenantId paymentId status >>= next) (some {}) world := by
  refine Safe.updateUniqueInside (k := paymentId) ?_ fails (fun after _ _ fails => missed _ fails)
    fun after later row found matched _ fails => ?_
  · intro row matched
    simp only [Bool.and_eq_true, decide_eq_true_eq] at matched
    exact matched.1.1
  · simp only [Bool.and_eq_true, decide_eq_true_eq] at matched
    exact hit _ _ row matched.1.2 matched.2 ((Held.start _).change later _ _ found) rfl fails

private theorem findPayment_safe {commits : Commits commerce ι} {α : Type} {next : Option Payment → Service α}
    {post : Post commerce HttpException α ι} (fails : Fails (lawful calls) i Stocked post true world)
    (resume : ∀ after (payment : Option Payment), Grows (lawful calls) world after →
      (∀ row, payment = some row → after.database.get .payment paymentId = some row) →
      Fails (lawful calls) i Stocked post true after →
      Safe commits (lawful calls) i post (next payment) (some {}) after) :
    Safe commits (lawful calls) i post (findPayment tenantId paymentId >>= next) (some {}) world := by
  refine Safe.findFirst fails fun after rows later listed fails => ?_
  refine resume _ _ (later.grows.tail (.empty _)) (fun row head => ?_) fails
  obtain ⟨inside, matched⟩ := listed_head listed head
  simp only [Bool.and_eq_true, decide_eq_true_eq] at matched
  exact Table.find_eq_some.mpr ⟨inside, matched.1⟩

private theorem updatedPayment_safe {commits : Commits commerce ι} {transaction : Transaction commerce}
    {post : Post commerce HttpException PaymentSummary ι} (held : Held (lawful calls) first pins world transaction)
    (fails : Fails (lawful calls) i Stocked post true world)
    (resume : ∀ after summary, Held (lawful calls) first pins after transaction →
      Fails (lawful calls) i Stocked post true after → post (.ok summary) (some transaction) after) :
    Safe commits (lawful calls) i post (updatedPayment tenantId paymentId) (some transaction) world := by
  refine Safe.findFirst fails fun after rows later _ fails => ?_
  refine Safe.orThrow fails nofun fun payment _ => ?_
  exact Safe.done fun final more => resume final _ ((held.move later _ fun _ => id).later more)
    (fails.idle (Later.idle more))

private theorem sameOrder {before after : SystemWorld ι} {payment : Payment}
    (grows : Grows (lawful calls) before after) (found : after.database.get .payment paymentId = some payment) :
    ∀ row, before.database.get .payment paymentId = some row → payment.orderId = row.orderId := by
  intro row earlier
  obtain ⟨now, there, same⟩ := Grows.payment grows earlier
  rw [Option.some.inj (found.symm.trans there), same]

private theorem capture_safe {origin : SystemWorld ι} (grown : Grows (lawful calls) origin world)
    (fails : Fails (lawful calls) i Stocked
      (Body (CaptureCommits i history tenantId paymentId) (lawful calls) i (CapturePost i history paymentId origin)) true world) :
    Safe Never (lawful calls) i
      (Body (CaptureCommits i history tenantId paymentId) (lawful calls) i (CapturePost i history paymentId origin))
      (capture tenantId paymentId) (some {}) world := by
  refine findPayment_safe fails fun w₁ payment earlier read fails => ?_
  refine Safe.orThrow fails (by rintro ⟨⟩) fun payment same => ?_
  have found := read payment same
  have grown := grown.trans earlier
  change Safe _ _ _ _ (if payment.status = .captured then _ else _) _ _
  split
  next captured =>
    refine Safe.done fun after later => ⟨_, rfl, .inl rfl, fun final more => ?_⟩
    have own : after.own i = history := Fails.ownInside (fails.idle (Later.idle later))
    refine ⟨rfl, ⟨[], Nat.zero_le _, ?_⟩, payment, ?_, captured, sameOrder grown found⟩
    · rw [(Later.idle more).own]
      exact (World.own_record_empty ..).trans own
    · exact Grows.captured (later.grows.trans (.head (.empty _) more.grows)) found captured
  next =>
    refine Safe.throwIf fails (stocked_conflict (by decide)) fun _ => Safe.throwIf fails (stocked_conflict (by decide)) fun _ => ?_
    refine settlePayment_safe fails (fun _ fails => Safe.throw fails (stocked_conflict (by decide))) ?_
    intro w₂ t₂ row processing tenant held written fails
    have orderId : row.orderId = payment.orderId :=
      sameOrder held.grown (held.pinned _ (List.mem_singleton.mpr rfl)).2 payment found
    refine Safe.throwIf fails (stocked_conflict (by decide)) fun _ => ?_
    refine Safe.updateUniqueInside (k := payment.orderId) ?_ fails (fun _ _ _ fails => ?_)
      fun w₃ l₃ order there matched _ fails => ?_
    · intro row matched
      simp only [Bool.and_eq_true, decide_eq_true_eq] at matched
      exact matched.1.1
    · exact Safe.throw fails (stocked_conflict (by decide))
    simp only [Bool.and_eq_true, decide_eq_true_eq] at matched
    rw [written, Database.get_untouched (S := commerce) (m := .order) _ rfl (by simp)] at there
    have held := held.change l₃ (updating i .order true) (setOrder .paid) there
    refine Safe.throwIf fails (stocked_conflict (by decide)) fun _ => ?_
    refine updatedPayment_safe held fails fun w₄ summary held fails => ?_
    have own : w₄.own i = history := fails.ownInside
    have settled := (held.pinned ⟨Model.payment, paymentId, some row⟩ (by simp)).2
    have ordered := (held.pinned ⟨Model.order, payment.orderId, some order⟩ (by simp)).2
    refine ⟨_, rfl, .inr ⟨own, ?_⟩, fun final more => ⟨rfl, ?_, ?_⟩⟩
    · rw [written]
      exact .mk row order settled processing tenant (orderId ▸ ordered) matched.1.2
    · rw [(Later.idle more).own, World.own_record_same own rfl (by simp)]
      exact ⟨[_], Nat.le_refl _, rfl⟩
    · have same : row.id = paymentId := (Table.find_eq_some.mp settled).2
      refine ⟨(setPayment .captured).apply row, Grows.captured more.grows ?_ rfl, rfl,
        fun old before => sameOrder (grown.trans held.grown) settled old before⟩
      exact same ▸ Database.get_stored (S := commerce) (m := .payment) _ (by simp [written]) (by simp [written])
        (by simp [written] : (setPayment .captured).apply row ∈ _)

theorem capturePayment_safe (own : world.own i = history) :
    Safe (CaptureCommits i history tenantId paymentId) (lawful calls) i (CapturePost i history paymentId world)
      (capturePayment tenantId paymentId) none world :=
  Safe.transaction (Attempt.fails own) fun _ later fails => capture_safe (later.grows.tail (.empty _)) fails

abbrev FailCommits (i : ι) (tenantId paymentId : Id) : Commits commerce ι :=
  fun world writes => world.own i = [] ∧ MarkedFailed tenantId paymentId world.database writes

abbrev FailPost (i : ι) : Post commerce HttpException PaymentSummary ι := Attempt i [] Stocked fun _ _ => True

private theorem markFailed_safe
    (fails : Fails (lawful calls) i Stocked
      (Body (FailCommits i tenantId paymentId) (lawful calls) i (FailPost i)) true world) :
    Safe Never (lawful calls) i (Body (FailCommits i tenantId paymentId) (lawful calls) i (FailPost i))
      (markFailed tenantId paymentId) (some {}) world := by
  refine findPayment_safe fails fun w₁ payment _ read fails => ?_
  refine Safe.orThrow fails (by rintro ⟨⟩) fun payment same => ?_
  change Safe _ _ _ _ (if payment.status = .failed then _ else _) _ _
  split
  next => exact Safe.done fun after later => ⟨_, rfl, .inl rfl, fun _ _ => ⟨rfl, trivial⟩⟩
  next =>
    refine Safe.throwIf fails (stocked_conflict (by decide)) fun _ => Safe.throwIf fails (stocked_conflict (by decide)) fun _ => ?_
    refine settlePayment_safe fails (fun _ fails => Safe.throw fails (stocked_conflict (by decide))) ?_
    intro w₂ t₂ row processing tenant held written fails
    refine Safe.throwIf fails (stocked_conflict (by decide)) fun _ => ?_
    refine updatedPayment_safe held fails fun w₃ summary held fails => ?_
    have found := (held.pinned _ (List.mem_singleton.mpr rfl)).2
    exact ⟨t₂, rfl, .inr ⟨fails.ownInside, written ▸ .mk row found processing tenant⟩, fun _ _ => ⟨rfl, trivial⟩⟩

theorem failPayment_safe (own : world.own i = []) :
    Safe (FailCommits i tenantId paymentId) (lawful calls) i (FailPost i) (failPayment tenantId paymentId) none world :=
  Safe.transaction (Attempt.fails own) fun _ _ fails => markFailed_safe fails

end BusinessPlatform
