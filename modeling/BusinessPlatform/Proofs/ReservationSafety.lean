import BusinessPlatform.ReservationService
import BusinessPlatform.Engine.Faults

/-! What the reservation calls commit, and what each of them has read before,
whatever others do in between. -/

namespace BusinessPlatform.ReservationService
open Engine

variable {ι : Type} {enforced : Bool} {rely : Guarantee (rentals enforced) ι} {i : ι}
  {world before after : ReservationWorld enforced ι} {tenantId reservationId : Id}

abbrev Writes (enforced : Bool) : Type := List (Write (rentals enforced))

abbrev reservationsOf (database : Database (rentals enforced)) : List Reservation := (database.table .reservation).rows

/-- Since some moment, at which the property held, this call has committed nothing. -/
def Earlier (rely : Guarantee (rentals enforced) ι) (i : ι) (holds : ReservationWorld enforced ι → Prop)
    (world : ReservationWorld enforced ι) : Prop := ∃ moment, Idle rely i moment world ∧ holds moment

theorem Earlier.idle {holds : ReservationWorld enforced ι → Prop} (earlier : Earlier rely i holds before)
    (idle : Idle rely i before after) : Earlier rely i holds after := by
  obtain ⟨moment, first, held⟩ := earlier
  exact ⟨moment, first.trans idle, held⟩

/-- The reservation that the call names, as it was read. -/
def Read (tenantId reservationId : Id) (row : Reservation) (world : ReservationWorld enforced ι) : Prop :=
  world.database.get .reservation reservationId = some row ∧ row.tenantId = tenantId

/-- The application's check has found no other reservation. -/
def Unclaimed (tenantId equipmentId : Id) (startAt endAt : Timestamp) (excludeId : Option Id)
    (world : ReservationWorld enforced ι) : Prop :=
  ∀ row ∈ reservationsOf world.database, overlapping tenantId equipmentId startAt endAt excludeId row = false

/-- The equipment is known to the tenant. -/
def Equipped (tenantId equipmentId : Id) (world : ReservationWorld enforced ι) : Prop :=
  ∃ equipment, world.database.get .equipment equipmentId = some equipment ∧ equipment.tenantId = tenantId

/-- The reservation with the columns that a patch names. -/
def UpdateReservationDto.apply (dto : UpdateReservationDto) (row : Reservation) : Reservation :=
  { row with
    startAt := dto.startAt.join.getD row.startAt
    endAt := dto.endAt.join.getD row.endAt
    notes := dto.notes.getD row.notes }

/-- A patch that names a time. -/
def UpdateReservationDto.moves (dto : UpdateReservationDto) : Bool := dto.startAt.isSome || dto.endAt.isSome

/-- A creation stores a new row that is RESERVED; all others store the row that
they name once more. Each has made its checks before. -/
inductive ReservationCommits (rely : Guarantee (rentals enforced) ι) (i : ι) (world : ReservationWorld enforced ι) :
    ReservationCall → Writes enforced → Prop where
  | create {tenantId : Id} {dto : CreateReservationDto} (startAt endAt : Timestamp) (id now : Nat)
      (dated : dto.startAt = some startAt ∧ dto.endAt = some endAt) (fresh : world.database.get .reservation id = none)
      (range : startAt < endAt) (equipped : Earlier rely i (Equipped tenantId dto.equipmentId) world)
      (free : Earlier rely i (Unclaimed tenantId dto.equipmentId startAt endAt none) world) :
      ReservationCommits rely i world (.create tenantId dto)
        [.put .reservation (requested tenantId dto startAt endAt id now)]
  | update {tenantId reservationId : Id} {dto : UpdateReservationDto} {row old : Reservation}
      (found : Read tenantId reservationId row world) (read : Earlier rely i (Read tenantId reservationId old) world)
      (mutable : old.status = .reserved) (range : (dto.apply old).startAt < (dto.apply old).endAt)
      (free : dto.moves = true → Earlier rely i
        (Unclaimed tenantId old.equipmentId (dto.apply old).startAt (dto.apply old).endAt (some reservationId)) world) :
      ReservationCommits rely i world (.update tenantId reservationId dto) [.put .reservation (dto.apply row)]
  | start {tenantId reservationId : Id} {row old : Reservation} (found : Read tenantId reservationId row world)
      (read : Earlier rely i (Read tenantId reservationId old) world) (reserved : old.status = .reserved) :
      ReservationCommits rely i world (.start tenantId reservationId) [.put .reservation { row with status := .active }]
  | complete {tenantId reservationId : Id} {row : Reservation} (found : Read tenantId reservationId row world) :
      ReservationCommits rely i world (.complete tenantId reservationId)
        [.put .reservation { row with status := .completed }]
  | delete {tenantId reservationId : Id} {row : Reservation} (found : Read tenantId reservationId row world) :
      ReservationCommits rely i world (.delete tenantId reservationId)
        [.put .reservation { row with status := .cancelled }]

/-- Why a call was refused for an overlap: its check has found a reservation, or
the database has excluded the row. -/
inductive Refusal (rely : Guarantee (rentals enforced) ι) (i : ι) (world : ReservationWorld enforced ι) :
    ReservationCall → Prop where
  | create {tenantId : Id} {dto : CreateReservationDto} (startAt endAt : Timestamp)
      (dated : dto.startAt = some startAt ∧ dto.endAt = some endAt) (range : startAt < endAt)
      (refused : Earlier rely i (fun world => ¬ Unclaimed tenantId dto.equipmentId startAt endAt none world ∨
        ∃ id now, world.database.get .reservation id = none ∧
          ∃ row ∈ reservationsOf world.database, (requested tenantId dto startAt endAt id now).noOverlap row = true) world) :
      Refusal rely i world (.create tenantId dto)
  | update {tenantId reservationId : Id} {dto : UpdateReservationDto} {old : Reservation}
      (read : Earlier rely i (Read tenantId reservationId old) world) (mutable : old.status = .reserved)
      (range : (dto.apply old).startAt < (dto.apply old).endAt)
      (refused : Earlier rely i (fun world =>
        dto.moves = true ∧ ¬ Unclaimed tenantId old.equipmentId (dto.apply old).startAt (dto.apply old).endAt
          (some reservationId) world ∨
        ∃ row, Read tenantId reservationId row world ∧ ∃ other ∈ reservationsOf world.database, other.id ≠ row.id ∧
          (dto.apply row).noOverlap other = true) world) :
      Refusal rely i world (.update tenantId reservationId dto)

/-- What a call promises: it ends outside a transaction, and a conflict of
reservations has a reason. -/
def ReservationPost {α : Type} (rely : Guarantee (rentals enforced) ι) (i : ι) (call : ReservationCall) :
    Post (rentals enforced) HttpException α ι := fun result _ world =>
  result = .error (.thrown (.conflict OVERLAP_CONFLICT)) → Refusal rely i world call

/-- An exception other than a conflict of reservations. -/
abbrev Ordinary (exception : HttpException) : Prop := exception ≠ .conflict OVERLAP_CONFLICT

abbrev SafeCall {α : Type} (rely : Guarantee (rentals enforced) ι) (i : ι) (call : ReservationCall)
    (program : Rental enforced α) (world : ReservationWorld enforced ι) : Prop :=
  Safe (fun world => ReservationCommits rely i world call) rely i (ReservationPost rely i call) program none world

variable {call : ReservationCall} {α : Type}

private theorem fails_anywhere {inside : Bool} :
    Fails rely i Ordinary (ReservationPost (α := α) rely i call) inside world := by
  intro failure session after kind _ _ same
  cases same
  exact absurd rfl (kind _ rfl)

private theorem equipped_safe {equipmentId : Id} {next : Unit → Rental enforced α}
    (resume : ∀ after, Idle rely i world after → Earlier rely i (Equipped tenantId equipmentId) after →
      SafeCall rely i call (next ()) after) :
    SafeCall rely i call (resolveEquipmentId tenantId equipmentId >>= next) world := by
  refine Safe.bind (Safe.findFirst fails_anywhere fun moment rows later listed _ => ?_)
  have idle : Idle rely i world (moment.reads i .equipment rows false) := (Later.idle later).record _
  rw [← bind_pure (Program.throwIf ..)]
  refine Safe.throwIf fails_anywhere (by simp [Ordinary]) fun present => Safe.done fun after more => ?_
  obtain ⟨row, head⟩ := Option.isSome_iff_exists.mp (by simpa using present : rows.head?.isSome = true)
  obtain ⟨stored, matched⟩ := listed_head listed head
  simp only [Bool.and_eq_true, decide_eq_true_eq] at matched
  have read : Idle rely i moment (moment.reads i .equipment rows false) := Idle.record .refl _
  refine resume after (idle.trans (Later.idle more)) ⟨moment, read.trans (Later.idle more), row, ?_, matched.2⟩
  exact Table.find_eq_some.mpr ⟨stored, matched.1⟩

private theorem customer_safe {customerId : Id} {next : Unit → Rental enforced α}
    (resume : ∀ after, Idle rely i world after → SafeCall rely i call (next ()) after) :
    SafeCall rely i call (resolveCustomerId tenantId customerId >>= next) world := by
  refine Safe.bind (Safe.findFirst fails_anywhere fun moment rows later listed _ => ?_)
  have idle : Idle rely i world (moment.reads i .customer rows false) := (Later.idle later).record _
  rw [← bind_pure (Program.throwIf ..)]
  refine Safe.throwIf fails_anywhere (by simp [Ordinary]) fun _ => Safe.done fun after more => ?_
  exact resume after (idle.trans (Later.idle more))

private theorem unclaimed_safe {equipmentId : Id} {startAt endAt : Timestamp} {excludeId : Option Id}
    {next : Unit → Rental enforced α}
    (refused : ∀ after, Idle rely i world after →
      Earlier rely i (fun world => ¬ Unclaimed tenantId equipmentId startAt endAt excludeId world) after →
      Refusal rely i after call)
    (resume : ∀ after, Idle rely i world after →
      Earlier rely i (Unclaimed tenantId equipmentId startAt endAt excludeId) after → SafeCall rely i call (next ()) after) :
    SafeCall rely i call (assertNoOverlap tenantId equipmentId startAt endAt excludeId >>= next) world := by
  refine Safe.bind (Safe.findFirst fails_anywhere fun moment rows later listed _ => ?_)
  have idle : Idle rely i world (moment.reads i .reservation rows false) := (Later.idle later).record _
  have read : Idle rely i moment (moment.reads i .reservation rows false) := Idle.record .refl _
  rw [← bind_pure (Program.throwIf ..)]
  refine Safe.check (fun present => ?_) fun absent => ?_
  · obtain ⟨row, head⟩ := Option.isSome_iff_exists.mp present
    obtain ⟨stored, matched⟩ := listed_head listed head
    refine Safe.done fun after more _ => refused after (idle.trans (Later.idle more)) ?_
    refine ⟨moment, read.trans (Later.idle more), fun unclaimed => ?_⟩
    cases matched.symm.trans (unclaimed row stored)
  · have none : rows.head? = none := by simpa using absent
    refine Safe.done fun after more => resume after (idle.trans (Later.idle more)) ?_
    exact ⟨moment, read.trans (Later.idle more), fun row stored => by simpa using listed_none listed none row stored⟩

/-- A statement whose violation of the exclusion constraint is a conflict. -/
private theorem excluded_safe {request : Query (rentals enforced) Reservation}
    (excluded : ∀ moment order, Idle rely i world moment →
      request.exec moment.trace.length moment.clock order moment.database = .error .exclusionViolation →
      ∀ after, Idle rely i moment after → Refusal rely i after call)
    (committed : ∀ moment order outcome, Idle rely i world moment →
      request.exec moment.trace.length moment.clock order moment.database = .ok outcome →
      Allowed (fun world => ReservationCommits rely i world call) moment outcome.writes) :
    SafeCall rely i call (mapExclusion (Program.send (.query request))) world := by
  refine Safe.tryCatch rfl ?_
  rw [← bind_pure (Program.send ..)]
  refine Safe.attempt (fun after _ => ?_) (fun moment order error later executed => ?_) fun moment order outcome later executed => ?_
  · exact ⟨Safe.done fun _ _ => nofun, Safe.done fun _ _ => nofun⟩
  · refine Safe.done fun after more => ?_
    have idle : Idle rely i moment after := (Idle.record .refl _).trans (Later.idle more)
    by_cases violated : error = .exclusionViolation
    · subst violated
      refine Safe.done fun final rest _ => ?_
      exact excluded moment order (Later.idle later) executed final (idle.trans (Later.idle rest))
    · have other : isExclusionViolation (.database error) = false := by
        cases error <;> first | rfl | exact absurd rfl violated
      simp only [other]
      exact Safe.done fun _ _ => nofun
  · exact ⟨committed moment order outcome (Later.idle later) executed, Safe.done fun _ _ => nofun⟩

private theorem read_safe {exception : HttpException} (ordinary : Ordinary exception) {next : Reservation → Rental enforced α}
    (resume : ∀ after row, Earlier rely i (Read tenantId reservationId row) after → SafeCall rely i call (next row) after) :
    SafeCall rely i call (do
      let reservation ← findReservation tenantId reservationId
      let reservation ← Program.orThrow reservation exception
      next reservation) world := by
  refine Safe.findFirst fails_anywhere fun moment rows later listed _ => ?_
  refine Safe.orThrow fails_anywhere ordinary fun row head => resume _ row ⟨moment, Idle.record .refl _, ?_⟩
  obtain ⟨stored, matched⟩ := listed_head listed head
  simp only [named, Bool.and_eq_true, decide_eq_true_eq] at matched
  exact ⟨Table.find_eq_some.mpr ⟨stored, matched.1⟩, matched.2⟩

private theorem excluded_other {database : Database (rentals enforced)} {row : Reservation}
    (refused : constrain (m := RentalModel.reservation) database row = .error .exclusionViolation) :
    ∃ other ∈ reservationsOf database, other.id ≠ row.id ∧ row.noOverlap other = true := by
  rcases constrain_error refused with ⟨_, _, wrong⟩ | ⟨_, wrong⟩ | ⟨overlaps, _⟩ | ⟨_, _, _, wrong⟩
  · cases wrong
  · cases wrong
  · obtain ⟨other, member, excludes⟩ := List.any_eq_true.mp overlaps
    simp only [Bool.and_eq_true, decide_eq_true_eq] at excludes
    exact ⟨other, member, excludes.1, excludes.2.2⟩
  · cases wrong

theorem createReservation_safe {dto : CreateReservationDto} :
    SafeCall rely i (.create tenantId dto) (createReservation tenantId dto) world := by
  refine customer_safe fun w₁ _ => equipped_safe fun w₂ _ equipped => ?_
  refine Safe.orThrow fails_anywhere (by simp [Ordinary]) fun startAt first => ?_
  refine Safe.orThrow fails_anywhere (by simp [Ordinary]) fun endAt last => ?_
  refine Safe.throwIf fails_anywhere (by simp [Ordinary]) fun range => ?_
  have range : startAt < endAt := by simpa using range
  refine unclaimed_safe (fun after _ claimed => ?_) fun w₃ idle free => ?_
  · obtain ⟨moment, later, found⟩ := claimed
    exact .create startAt endAt ⟨first, last⟩ range ⟨moment, later, .inl found⟩
  · refine excluded_safe (fun moment order idle' executed after later => ?_) fun moment order outcome idle' executed => ?_
    · rcases Query.exec_create_error executed with ⟨_, wrong⟩ | ⟨fresh, refused⟩
      · cases wrong
      · obtain ⟨other, member, _, overlaps⟩ := excluded_other refused
        exact .create startAt endAt ⟨first, last⟩ range ⟨moment, later, .inr ⟨_, _, fresh, other, member, overlaps⟩⟩
    · obtain ⟨rfl, created⟩ := Query.exec_create executed
      exact .inr (.create startAt endAt _ _ ⟨first, last⟩ created.fresh range (equipped.idle (idle.trans idle'))
        (free.idle idle'))

private theorem time_safe {field : Option JsDate} {stored : Timestamp} {next : Timestamp → Rental enforced α}
    (resume : field ≠ some none → SafeCall rely i call (next (field.join.getD stored)) world) :
    SafeCall rely i call (timeOf field stored >>= next) world := by
  cases field with
  | none => exact resume nofun
  | some value =>
    refine Safe.orThrow fails_anywhere (by simp [Ordinary]) fun time parsed => ?_
    subst parsed
    exact resume nofun

private theorem patch_apply {dto : UpdateReservationDto} {row old : Reservation} (first : dto.startAt ≠ some none)
    (last : dto.endAt ≠ some none) :
    (patch dto (dto.startAt.join.getD old.startAt) (dto.endAt.join.getD old.endAt) : Change (rentals enforced) _).apply row =
      dto.apply row := by
  obtain ⟨startAt, endAt, notes⟩ := dto
  rcases startAt with _ | _ | startAt
  · rcases endAt with _ | _ | endAt
    · rfl
    · exact absurd rfl last
    · rfl
  · exact absurd rfl first
  · rcases endAt with _ | _ | endAt
    · rfl
    · exact absurd rfl last
    · rfl

theorem updateReservation_safe {dto : UpdateReservationDto} :
    SafeCall rely i (.update tenantId reservationId dto) (updateReservation tenantId reservationId dto) world := by
  refine read_safe (by simp [Ordinary]) fun w₁ old read => ?_
  refine Safe.throwIf fails_anywhere (by decide) fun mutable => ?_
  have mutable : old.status = .reserved := by simpa using mutable
  refine time_safe fun first => time_safe fun last => ?_
  refine Safe.throwIf fails_anywhere (by simp [Ordinary]) fun range => ?_
  have range : (dto.apply old).startAt < (dto.apply old).endAt := by simpa [UpdateReservationDto.apply] using range
  have write (after : ReservationWorld enforced ι) (idle : Idle rely i w₁ after) (free : dto.moves = true →
      Earlier rely i (Unclaimed tenantId old.equipmentId (dto.apply old).startAt (dto.apply old).endAt
        (some reservationId)) after) :
      SafeCall rely i (.update tenantId reservationId dto) (mapExclusion (Program.update (S := rentals enforced) .reservation
        (named tenantId reservationId) (patch dto (dto.startAt.join.getD old.startAt) (dto.endAt.join.getD old.endAt))))
        after := by
    have found {moment : ReservationWorld enforced ι} {row : Reservation} (member : row ∈ reservationsOf moment.database)
        (matched : named tenantId reservationId row = true) : Read tenantId reservationId row moment := by
      simp only [named, Bool.and_eq_true, decide_eq_true_eq] at matched
      exact ⟨Table.find_eq_some.mpr ⟨member, matched.1⟩, matched.2⟩
    refine excluded_safe (fun moment order idle' executed final later => ?_) fun moment order outcome idle' executed => ?_
    · have earlier := (read.idle idle).idle (idle'.trans later)
      rcases Query.exec_update_error executed with ⟨_, wrong⟩ | ⟨row, member, matched, refused⟩
      · cases wrong
      · obtain ⟨other, inside, different, overlaps⟩ := excluded_other refused
        rw [patch_apply first last] at different overlaps
        refine .update earlier mutable range ⟨moment, later, .inr ⟨row, found member matched, other, ?_, different, overlaps⟩⟩
        rcases Database.get_found _ (Table.find_eq_some.mpr ⟨inside, rfl⟩) with stored | there
        · rw [puts, List.map_singleton, List.map_singleton, putsOf_put_same, putsOf_nil, List.mem_singleton] at stored
          subst stored
          exact absurd (by rw [patch_apply first last]) different
        · exact (Table.find_eq_some.mp there).1
    · obtain ⟨row, member, matched, rfl, _⟩ := Query.exec_update executed
      simp only [puts, List.map_cons, List.map_nil, patch_apply first last]
      exact .inr (.update (found member matched) ((read.idle idle).idle idle') mutable range fun moves =>
        (free moves).idle idle')
  by_cases moved : dto.moves = true
  · simp only [show (dto.startAt.isSome || dto.endAt.isSome) = true from moved, if_true]
    refine unclaimed_safe (fun after idle claimed => ?_) fun after idle free => write after idle fun _ => free
    obtain ⟨moment, later, found⟩ := claimed
    exact .update (read.idle idle) mutable range ⟨moment, later, .inl ⟨moved, found⟩⟩
  · simp only [show (dto.startAt.isSome || dto.endAt.isSome) = false by simpa [UpdateReservationDto.moves] using moved]
    exact write w₁ .refl fun moves => absurd moves moved

private theorem transition_safe {fromStatus toStatus : ReservationStatus} {conflictMessage message : String}
    {field : Reservation → Timestamp} (ordinary : conflictMessage ≠ OVERLAP_CONFLICT) (other : message ≠ OVERLAP_CONFLICT)
    (commits : ∀ world row old, Read tenantId reservationId row world → Earlier rely i (Read tenantId reservationId old) world →
      old.status = fromStatus → ReservationCommits rely i world call [.put .reservation { row with status := toStatus }]) :
    SafeCall rely i call (transition tenantId reservationId fromStatus toStatus conflictMessage field message) world := by
  refine read_safe (by simp [Ordinary]) fun w₁ old read => ?_
  refine Safe.throwIf fails_anywhere (by simpa [Ordinary] using ordinary) fun matches' => ?_
  have status : old.status = fromStatus := by simpa using matches'
  refine Safe.now fails_anywhere fun w₂ l₂ _ => ?_
  refine Safe.throwIf fails_anywhere (by simpa [Ordinary] using other) fun _ => ?_
  rw [← bind_pure (Program.update ..)]
  refine Safe.update fails_anywhere fun w₃ l₃ row member matched _ => ⟨.inr ?_, Safe.done fun _ _ => nofun⟩
  simp only [named, Bool.and_eq_true, decide_eq_true_eq] at matched
  refine commits w₃ row old ⟨Table.find_eq_some.mpr ⟨member, matched.1⟩, matched.2⟩ ?_ status
  exact (read.idle ((Later.idle l₂).record _)).idle (Later.idle l₃)

theorem startReservation_safe :
    SafeCall rely i (.start tenantId reservationId) (startReservation tenantId reservationId) world :=
  transition_safe (by decide) (by decide) fun _ _ _ found read reserved => .start found read reserved

theorem completeReservation_safe :
    SafeCall rely i (.complete tenantId reservationId) (completeReservation tenantId reservationId) world :=
  transition_safe (by decide) (by decide) fun _ _ _ found _ _ => .complete found

theorem deleteReservation_safe :
    SafeCall rely i (.delete tenantId reservationId) (deleteReservation tenantId reservationId) world := by
  refine read_safe (by simp [Ordinary]) fun w₁ old read => ?_
  refine Safe.throwIf fails_anywhere (by decide) fun _ => ?_
  refine Safe.update fails_anywhere fun w₂ l₂ row member matched _ => ⟨.inr ?_, Safe.done fun _ _ => nofun⟩
  simp only [named, Bool.and_eq_true, decide_eq_true_eq] at matched
  exact .delete ⟨Table.find_eq_some.mpr ⟨member, matched.1⟩, matched.2⟩

private theorem answered_safe {service : Rental enforced α} {answer : α → ReservationResponse}
    (safe : SafeCall rely i call service world) :
    SafeCall rely i call (do let value ← service; pure (answer value)) world := by
  refine Safe.bind (Safe.weaken safe ?_)
  intro result session after refusal
  cases result with
  | error failure => exact fun same => refusal (by cases same; rfl)
  | ok value => exact Safe.done fun _ _ => nofun

theorem ReservationCall.safe (call : ReservationCall) : SafeCall rely i call call.program world := by
  cases call with
  | create tenantId dto => exact answered_safe createReservation_safe
  | update tenantId reservationId dto => exact answered_safe updateReservation_safe
  | start tenantId reservationId => exact answered_safe startReservation_safe
  | complete tenantId reservationId => exact answered_safe completeReservation_safe
  | delete tenantId reservationId => exact answered_safe deleteReservation_safe

end BusinessPlatform.ReservationService
