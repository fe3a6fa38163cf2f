import BusinessPlatform.Proofs.Stability

/-! `createBooking` and `updateBooking` under interference: each commits one
booking, or nothing. -/

namespace BusinessPlatform
open Engine BookingService

variable {ι : Type} [DecidableEq ι] {calls : ι → Call} {i : ι} {tenantId bookingId : Id} {world : SystemWorld ι}

abbrev BookingCommits (i : ι) (tenantId : Id) (dto : CreateBookingDto) : Commits commerce ι :=
  fun world writes => world.own i = [] ∧
    ∃ booking, BookingCreated tenantId dto world.database booking ∧ writes = [.put .booking booking]

abbrev PatchCommits (i : ι) (tenantId bookingId : Id) (dto : UpdateBookingDto) : Commits commerce ι :=
  fun world writes => world.own i = [] ∧ ∃ booking, BookingPatched tenantId bookingId world.database booking ∧
    writes = [.put .booking ((patch dto).apply booking)]

abbrev BookingPost {α : Type} (i : ι) : Post commerce HttpException α ι := Attempt i [] (fun _ => True) fun _ _ => True

/-- A booking call that could still fail may fail in every way. -/
abbrev Refusable {α : Type} (calls : ι → Call) (i : ι) (post : Post commerce HttpException α ι)
    (world : SystemWorld ι) : Prop := Fails (lawful calls) i (fun _ => True) post false world

section Checks
variable {commits : Commits commerce ι} {post : Post commerce HttpException Unit ι}
  (resume : ∀ after, Idle (lawful calls) i world after → post (.ok ()) none after)
include resume

private theorem bookedService_safe {serviceId : Prisma.Reference} (fails : Refusable calls i post world) :
    Safe commits (lawful calls) i post (assertActiveService tenantId serviceId) none world := by
  rcases serviceId with serviceId | _
  case refused => exact Safe.failed fails (by simp)
  refine Safe.findFirst fails fun w₁ services l₁ _ fails => ?_
  refine Safe.orThrow fails trivial fun service _ => ?_
  rw [← bind_pure (Program.throwIf ..)]
  refine Safe.throwIf fails trivial fun _ => Safe.done fun after later => resume after ?_
  exact (Idle.record (Later.idle l₁) _).trans (Later.idle later)

private theorem bookedCustomer_safe {customerId : Id} (fails : Refusable calls i post world) :
    Safe commits (lawful calls) i post (assertCustomer tenantId customerId) none world := by
  refine Safe.findFirst fails fun w₁ customers l₁ _ fails => ?_
  rw [← bind_pure (Program.throwIf ..)]
  refine Safe.throwIf fails trivial fun _ => Safe.done fun after later => resume after ?_
  exact (Idle.record (Later.idle l₁) _).trans (Later.idle later)

end Checks

/-- What every error that is not reported as it is becomes an exception. -/
private theorem reported_safe {commits : Commits commerce ι} {request : Service Booking}
    {handler : Failure HttpException → Service Booking} (unhandled : handler .stopped = .done (.error .stopped))
    (handled : ∀ failure, ∃ other, handler failure = .done (.error other))
    (safe : Safe commits (lawful calls) i (BookingPost i) request none world) :
    Safe commits (lawful calls) i (BookingPost i)
      (request.tryCatch handler >>= fun booking => pure (toSummary booking)) none world := by
  refine Safe.bind (Safe.tryCatch unhandled (Safe.weaken safe ?_))
  rintro (failure | booking) session after ⟨rfl, outcome⟩
  · obtain ⟨other, same⟩ := handled failure
    simp only [same]
    exact Safe.failed (Attempt.fails outcome.2) fun _ _ => trivial
  · exact Safe.done fun _ _ => ⟨rfl, trivial⟩

private theorem insertBooking_safe {dto : CreateBookingDto} (own : world.own i = []) :
    Safe (BookingCommits i tenantId dto) (lawful calls) i (BookingPost i) (insertBooking tenantId dto) none world := by
  have fails : Refusable calls i (BookingPost (α := Booking) i) world := Attempt.fails own
  unfold insertBooking
  split
  · exact Safe.failed fails (by simp)
  · exact Safe.failed fails (by simp)
  split
  · exact Safe.failed fails (by simp)
  split
  · exact Safe.failed fails (by simp)
  split
  · exact Safe.failed fails (by simp)
  · rw [← bind_pure (Prisma.create ..)]
    refine Safe.create fails fun w₁ l₁ booking built created => ⟨.inr ⟨?_, booking, ?_, rfl⟩, ?_⟩
    · exact (Idle.own l₁.idle).trans own
    · exact ⟨created.fresh, by rw [built], by rw [built]⟩
    · exact Safe.done fun _ _ => ⟨rfl, trivial⟩

theorem createBooking_safe {dto : CreateBookingDto} (own : world.own i = []) :
    Safe (BookingCommits i tenantId dto) (lawful calls) i (BookingPost i) (createBooking tenantId dto) none world := by
  have insert (after : SystemWorld ι) (own : after.own i = []) :
      Safe (BookingCommits i tenantId dto) (lawful calls) i (BookingPost i)
        ((insertBooking tenantId dto).tryCatch (fun failure =>
            if isConflictError failure then Program.throw (.conflict OVERLAP_ERROR)
            else if isCheckConstraintViolation failure then Program.throw (.badRequest END_NOT_AFTER_START)
            else .done (.error failure)) >>= fun booking => pure (toSummary booking)) none after := by
    refine reported_safe rfl (fun failure => ?_) (insertBooking_safe own)
    split
    · exact ⟨_, rfl⟩
    · split <;> exact ⟨_, rfl⟩
  refine Safe.bind (bookedService_safe (fun w₁ idle => ?_) (Attempt.fails own))
  simp only
  split
  · refine Safe.bind (bookedCustomer_safe (fun w₂ more => ?_) (Attempt.fails (idle.own.trans own)))
    exact insert w₂ ((Idle.own more).trans ((Idle.own idle).trans own))
  · exact insert w₁ (idle.own.trans own)

private theorem writeBooking_safe {dto : UpdateBookingDto} (own : world.own i = []) :
    Safe (PatchCommits i tenantId bookingId dto) (lawful calls) i (BookingPost i)
      (writeBooking tenantId bookingId dto) none world := by
  have fails : Refusable calls i (BookingPost (α := Booking) i) world := Attempt.fails own
  unfold writeBooking
  iterate 4
    split
    · exact Safe.failed fails (by simp)
  · rw [← bind_pure (Prisma.update ..)]
    refine Safe.update fails fun w₁ l₁ booking member matched _ => ⟨.inr ⟨?_, booking, ?_, rfl⟩, ?_⟩
    · exact (Idle.own l₁.idle).trans own
    · simp only [Bool.and_eq_true, decide_eq_true_eq] at matched
      exact ⟨matched.1 ▸ Table.find_eq_some.mpr ⟨member, rfl⟩, matched.2⟩
    · exact Safe.done fun _ _ => ⟨rfl, trivial⟩

theorem updateBooking_safe {dto : UpdateBookingDto} (own : world.own i = []) :
    Safe (PatchCommits i tenantId bookingId dto) (lawful calls) i (BookingPost i)
      (updateBooking tenantId bookingId dto) none world := by
  have write (after : SystemWorld ι) (own : after.own i = []) :
      Safe (PatchCommits i tenantId bookingId dto) (lawful calls) i (BookingPost i)
        ((writeBooking tenantId bookingId dto).tryCatch (fun failure =>
            if isConflictError failure then Program.throw (.conflict OVERLAP_ERROR)
            else .done (.error failure)) >>= fun booking => pure (toSummary booking)) none after := by
    refine reported_safe rfl (fun failure => ?_) (writeBooking_safe own)
    split <;> exact ⟨_, rfl⟩
  refine Safe.bind (Safe.findFirst (Attempt.fails own) fun w₁ bookings l₁ listed fails => Safe.done fun w₂ l₂ => ?_)
  have idle : Idle (lawful calls) i world w₂ := (Idle.record (Later.idle l₁) _).trans (Later.idle l₂)
  have own : w₂.own i = [] := (Idle.own idle).trans own
  refine Safe.orThrow (Attempt.fails own) trivial fun booking _ => ?_
  have linked (after : SystemWorld ι) (own : after.own i = []) (customerId : Id) :
      Safe (PatchCommits i tenantId bookingId dto) (lawful calls) i (BookingPost i)
        (if some customerId = booking.customerId then
          (writeBooking tenantId bookingId dto).tryCatch (fun failure =>
            if isConflictError failure then Program.throw (.conflict OVERLAP_ERROR)
            else .done (.error failure)) >>= fun booking => pure (toSummary booking)
        else do
          assertCustomer tenantId customerId
          let booking ← (writeBooking tenantId bookingId dto).tryCatch fun failure =>
            if isConflictError failure then Program.throw (.conflict OVERLAP_ERROR) else .done (.error failure)
          pure (toSummary booking)) none after := by
    split
    · exact write after own
    · exact Safe.bind (bookedCustomer_safe (fun w idle => write w ((Idle.own idle).trans own)) (Attempt.fails own))
  cases dto.serviceId.join with
  | none =>
    cases dto.customerId.join with
    | none => exact write w₂ own
    | some customerId => exact linked w₂ own customerId
  | some serviceId =>
    by_cases same : serviceId = .id booking.serviceId
    · simp only [if_pos same]
      cases dto.customerId.join with
      | none => exact write w₂ own
      | some customerId => exact linked w₂ own customerId
    · simp only [if_neg same]
      refine Safe.bind (bookedService_safe (fun w idle => ?_) (Attempt.fails own))
      have own := (Idle.own idle).trans own
      cases dto.customerId.join with
      | none => exact write w own
      | some customerId => exact linked w own customerId

end BusinessPlatform
