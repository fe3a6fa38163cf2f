import BusinessPlatform.Engine.Sequential
import BusinessPlatform.Proofs.ReservationSafety

/-! The application's overlap check against the exclusion constraint, over calls one
after another. The database may be one that enforces neither of the constraints. -/

namespace BusinessPlatform.ReservationService
open Engine

variable {enforced : Bool} {database : Database (rentals enforced)} {world : ReservationWorld enforced Unit}
  {writes : Writes enforced} {call : ReservationCall}

/-- The time that a reservation holds its equipment for. -/
def Reservation.interval (row : Reservation) : Set Timestamp := Set.Ico row.startAt row.endAt

theorem Reservation.noOverlap_iff {first second : Reservation} : first.noOverlap second = false ↔
    (first.equipmentId = second.equipmentId → first.holding = true → second.holding = true →
      Disjoint first.interval second.interval) := by
  rw [interval, interval, Set.Ico_disjoint_Ico, ← not_lt, ← Bool.not_eq_true]
  simp only [noOverlap, Bool.and_eq_true, decide_eq_true_eq]
  tauto

theorem overlapping_false {tenantId : Id} {row other : Reservation} {excludeId : Option Id}
    (clear : overlapping tenantId row.equipmentId row.startAt row.endAt excludeId other = false)
    (tenant : other.tenantId = tenantId) (distinct : some other.id ≠ excludeId) : row.noOverlap other = false := by
  rw [Reservation.noOverlap_iff]
  intro equipment _ holding
  have crossed : other.startAt < row.endAt → other.endAt ≤ row.startAt := by
    intro before
    have status : other.status ∈ HOLDING_STATUSES := of_decide_eq_true holding
    simpa [overlapping, equipment, status, before, distinct, tenant] using clear
  rw [Reservation.interval, Reservation.interval, Set.Ico_disjoint_Ico]
  by_cases before : other.startAt < row.endAt
  · exact (min_le_right _ _).trans ((crossed before).trans (le_max_left _ _))
  · exact (min_le_left _ _).trans ((not_lt.mp before).trans (le_max_right _ _))

theorem overlapping_true {tenantId : Id} {row other : Reservation} {excludeId : Option Id}
    (claimed : overlapping tenantId row.equipmentId row.startAt row.endAt excludeId other = true)
    (holding : row.holding = true) (range : row.startAt < row.endAt) (positive : other.startAt < other.endAt) :
    some other.id ≠ excludeId ∧ row.noOverlap other = true := by
  simp only [overlapping, Bool.and_eq_true, decide_eq_true_eq] at claimed
  obtain ⟨⟨⟨⟨⟨equipment, status⟩, before⟩, after⟩, distinct⟩, tenant⟩ := claimed
  have other_holding : other.holding = true := decide_eq_true status
  refine ⟨distinct, ?_⟩
  simp only [Reservation.noOverlap, equipment, holding, other_holding, Bool.and_eq_true, decide_eq_true_eq, and_self, true_and]
  exact max_lt (lt_min range after) (lt_min before positive)

/-- All intervals are positive, those of the reservations that hold the same
equipment are disjoint, and the equipment is of the reservation's tenant. -/
structure Orderly (database : Database (rentals enforced)) : Prop where
  positive : ∀ row ∈ reservationsOf database, row.startAt < row.endAt
  disjoint : ∀ first ∈ reservationsOf database, ∀ second ∈ reservationsOf database, first.id ≠ second.id →
    first.equipmentId = second.equipmentId → first.holding = true → second.holding = true →
      Disjoint first.interval second.interval
  tenants : ∀ row ∈ reservationsOf database, ∃ equipment,
    database.get .equipment row.equipmentId = some equipment ∧ equipment.tenantId = row.tenantId

/-- The database may store the row: it passes the CHECK and is excluded by no other row. -/
def Admissible (database : Database (rentals enforced)) (row : Reservation) : Prop :=
  row.timeRangeCheck = true ∧ ∀ other ∈ reservationsOf database, other.id ≠ row.id → row.noOverlap other = false

/-- An admissible row of the right tenant keeps the reservations in order. -/
theorem Orderly.put (orderly : Orderly database) {row : Reservation} (admissible : Admissible database row)
    (tenant : ∃ equipment, database.get .equipment row.equipmentId = some equipment ∧ equipment.tenantId = row.tenantId) :
    Orderly (database.applyAll [.put .reservation row]) := by
  have found {other : Reservation} (member : other ∈ reservationsOf (database.applyAll [.put .reservation row])) :
      other = row ∨ other ∈ reservationsOf database ∧ other.id ≠ row.id := by
    rw [reservationsOf, Database.applyAll_cons, Database.applyAll_nil, Write.apply_put_same, Table.mem_put] at member
    exact member
  have equipments (id : Id) : (database.applyAll [.put .reservation row]).get .equipment id = database.get .equipment id := by
    rw [Database.get, Database.applyAll_other _ (by simp [Write.model]), Database.get]
  constructor
  · intro other member
    rcases found member with rfl | ⟨inside, _⟩
    · exact of_decide_eq_true admissible.1
    · exact orderly.positive other inside
  · intro first stored second also distinct equipment holding claims
    rcases found stored with rfl | ⟨inside, apart⟩ <;> rcases found also with rfl | ⟨inside', apart'⟩
    · exact absurd rfl distinct
    · exact Reservation.noOverlap_iff.mp (admissible.2 second inside' apart') equipment holding claims
    · exact (Reservation.noOverlap_iff.mp (admissible.2 first inside apart) equipment.symm claims holding).symm
    · exact orderly.disjoint first inside second inside' distinct equipment holding claims
  · intro other member
    rw [equipments]
    rcases found member with rfl | ⟨inside, _⟩
    · exact tenant
    · exact orderly.tenants other inside

theorem Earlier.alone {holds : ReservationWorld enforced Unit → Prop} (earlier : Earlier Alone () holds world) :
    ∃ moment, moment.database = world.database ∧ holds moment := by
  obtain ⟨moment, idle, held⟩ := earlier
  exact ⟨moment, (Idle.alone idle).symm, held⟩

/-- A row that has the interval, the equipment and no more of a claim than a stored one. -/
theorem Orderly.narrowed (orderly : Orderly database) {row old : Reservation} (stored : old ∈ reservationsOf database)
    (same : row.id = old.id) (equipment : row.equipmentId = old.equipmentId) (start : row.startAt = old.startAt)
    (finish : row.endAt = old.endAt) (holding : row.holding = true → old.holding = true) : Admissible database row := by
  refine ⟨?_, fun other member different => ?_⟩
  · rw [Reservation.timeRangeCheck, start, finish, decide_eq_true_eq]
    exact orderly.positive old stored
  · rw [Reservation.noOverlap_iff]
    intro alike claims claims'
    rw [Reservation.interval, start, finish]
    exact orderly.disjoint old stored other member (same ▸ different.symm) (equipment ▸ alike) (holding claims) claims'

theorem Orderly.tenant (orderly : Orderly database) {other : Reservation} {equipment : Equipment}
    (member : other ∈ reservationsOf database) (found : database.get .equipment other.equipmentId = some equipment) :
    other.tenantId = equipment.tenantId := by
  obtain ⟨known, there, tenant⟩ := orderly.tenants other member
  cases there.symm.trans found
  exact tenant.symm

theorem ReservationCommits.admissible (commits : ReservationCommits Alone () world call writes)
    (orderly : Orderly world.database) :
    ∃ row, writes = [.put .reservation row] ∧ Admissible world.database row ∧
      ∃ equipment, world.database.get .equipment row.equipmentId = some equipment ∧ equipment.tenantId = row.tenantId := by
  cases commits with
  | @create tenantId dto startAt endAt id now dated fresh range equipped free =>
    obtain ⟨w₁, same₁, equipment, found, tenant⟩ := equipped.alone
    obtain ⟨w₂, same₂, unclaimed⟩ := free.alone
    rw [same₁] at found
    refine ⟨_, rfl, ⟨decide_eq_true range, fun other member different => ?_⟩, equipment, found, tenant⟩
    by_cases alike : other.equipmentId = dto.equipmentId
    · refine overlapping_false (unclaimed other (same₂ ▸ member)) ?_ (by simp)
      exact (orderly.tenant member (alike ▸ found)).trans tenant
    · rw [Reservation.noOverlap_iff]
      intro equal
      exact absurd equal.symm alike
  | @update tenantId id dto row old found read mutable range free =>
    obtain ⟨w₁, same₁, stored, _⟩ := read.alone
    cases (same₁ ▸ stored).symm.trans found.1
    have inside := Table.find_eq_some.mp found.1
    refine ⟨_, rfl, ?_, orderly.tenants row inside.1⟩
    by_cases moves : dto.moves = true
    · obtain ⟨w₂, same₂, unclaimed⟩ := (free moves).alone
      refine ⟨decide_eq_true range, fun other member different => ?_⟩
      by_cases alike : other.equipmentId = row.equipmentId
      · obtain ⟨equipment, known, tenant⟩ := orderly.tenants row inside.1
        refine overlapping_false (unclaimed other (same₂ ▸ member)) ?_ ?_
        · exact (orderly.tenant member (alike ▸ known)).trans (tenant.trans found.2)
        · intro same
          exact different ((Option.some.inj same).trans inside.2.symm)
      · rw [Reservation.noOverlap_iff]
        intro equal
        exact absurd equal.symm alike
    · have unmoved : dto.startAt = none ∧ dto.endAt = none := by
        simpa [UpdateReservationDto.moves] using moves
      refine orderly.narrowed inside.1 rfl rfl ?_ ?_ fun holding => holding
      · rw [UpdateReservationDto.apply, unmoved.1]
        rfl
      · rw [UpdateReservationDto.apply, unmoved.2]
        rfl
  | @start tenantId id row old found read reserved =>
    obtain ⟨w₁, same₁, stored, _⟩ := read.alone
    cases (same₁ ▸ stored).symm.trans found.1
    have inside := Table.find_eq_some.mp found.1
    refine ⟨_, rfl, orderly.narrowed inside.1 rfl rfl rfl rfl fun _ => ?_, orderly.tenants row inside.1⟩
    rw [Reservation.holding, reserved]
    decide
  | @complete tenantId id row found | @delete tenantId id row found =>
    have inside := Table.find_eq_some.mp found.1
    exact ⟨_, rfl, orderly.narrowed inside.1 rfl rfl rfl rfl (by rintro ⟨⟩), orderly.tenants row inside.1⟩

/-- The rows that the write of a call would store. -/
inductive ReservationCall.Stores (database : Database (rentals enforced)) : ReservationCall → Reservation → Prop where
  | create {tenantId : Id} {dto : CreateReservationDto} {startAt endAt : Timestamp} (id now : Nat)
      (dated : dto.startAt = some startAt ∧ dto.endAt = some endAt) (fresh : database.get .reservation id = none) :
      Stores database (.create tenantId dto) (requested tenantId dto startAt endAt id now)
  | update {tenantId reservationId : Id} {dto : UpdateReservationDto} {row : Reservation}
      (found : database.get .reservation reservationId = some row) (tenant : row.tenantId = tenantId)
      (reserved : row.status = .reserved) : Stores database (.update tenantId reservationId dto) (dto.apply row)

/-- The write of the call would violate the EXCLUDE constraint. -/
def ReservationCall.Violates (database : Database (rentals enforced)) (call : ReservationCall) : Prop :=
  ∃ row, call.Stores database row ∧ ∃ other ∈ reservationsOf database, other.id ≠ row.id ∧ row.noOverlap other = true

private theorem fresh_id (database : Database (rentals enforced)) : ∃ id, database.get .reservation id = none := by
  obtain ⟨id, fresh⟩ := Infinite.exists_notMem_finset ((reservationsOf database).map Reservation.id).toFinset
  refine ⟨id, Table.find_eq_none.mpr fun row member same => fresh ?_⟩
  exact List.mem_toFinset.mpr (List.mem_map.mpr ⟨row, member, same⟩)

theorem Refusal.violates (refusal : Refusal Alone () world call) (orderly : Orderly world.database) :
    call.Violates world.database := by
  cases refusal with
  | @create tenantId dto startAt endAt dated range refused =>
    obtain ⟨moment, same, claimed | ⟨id, now, fresh, other, member, overlaps⟩⟩ := refused.alone
    · simp only [Unclaimed, not_forall, Bool.not_eq_false, same] at claimed
      obtain ⟨other, member, found⟩ := claimed
      obtain ⟨id, fresh⟩ := fresh_id world.database
      refine ⟨_, .create id 0 dated fresh, other, member, Table.find_eq_none.mp fresh other member, ?_⟩
      exact (overlapping_true found rfl range (orderly.positive other member)).2
    · rw [same] at fresh member
      exact ⟨_, .create id now dated fresh, other, member, Table.find_eq_none.mp fresh other member, overlaps⟩
  | @update tenantId id dto old read mutable range refused =>
    obtain ⟨w₁, same₁, stored, tenant⟩ := read.alone
    rw [same₁] at stored
    have stores : (ReservationCall.update tenantId id dto).Stores world.database (dto.apply old) := .update stored tenant mutable
    obtain ⟨moment, same, ⟨_, claimed⟩ | ⟨row, found, other, member, different, overlaps⟩⟩ := refused.alone
    · simp only [Unclaimed, not_forall, Bool.not_eq_false, same] at claimed
      obtain ⟨other, member, found⟩ := claimed
      have holding : (dto.apply old).holding = true := by
        rw [Reservation.holding, UpdateReservationDto.apply, mutable]
        decide
      obtain ⟨different, overlaps⟩ := overlapping_true found holding range (orderly.positive other member)
      refine ⟨_, stores, other, member, fun equal => different ?_, overlaps⟩
      exact congrArg some (equal.trans (Table.find_eq_some.mp stored).2)
    · rw [same] at member
      cases (same ▸ found.1).symm.trans stored
      exact ⟨_, stores, other, member, different, overlaps⟩

/-- The reservations are in order, and the constraints admitted every row when it was stored. -/
structure Kept (world : ReservationWorld enforced Unit) : Prop where
  orderly : Orderly world.database
  stored : ∀ event ∈ world.trace, ∀ row ∈ putsOf (S := rentals enforced) .reservation event.writes,
    Admissible event.before row

variable {results : List (ReservationCall × Except (Failure HttpException) ReservationResponse)}

theorem Sequence.kept (sequence : Sequence ReservationCall.program ⟨database, [], 0⟩ results world)
    (orderly : Orderly database) : Kept world := by
  refine sequence.invariant (fun call world => ReservationCommits Alone () world call) (ReservationPost Alone ())
    (fun call world => call.safe) Kept ⟨orderly, nofun⟩ ?_ ?_ fun _ _ kept => ⟨kept.orderly, kept.stored⟩
  · intro call world label writes kept commits
    obtain ⟨row, rfl, admissible, tenant⟩ := commits.admissible kept.orderly
    refine ⟨kept.orderly.put admissible tenant, fun event member other stores => ?_⟩
    rcases List.mem_cons.mp member with rfl | earlier
    · cases List.mem_singleton.mp stores
      exact admissible
    · exact kept.stored event earlier other stores
  · intro world label kept
    refine ⟨kept.orderly, fun event member other stores => ?_⟩
    rcases List.mem_cons.mp member with rfl | earlier
    · cases stores
    · exact kept.stored event earlier other stores

/-- Whether or not the database enforces its constraints: the intervals stay positive
and disjoint, no write violates them, and what is refused would have. -/
theorem overlap_check_exact (orderly : Orderly database)
    (sequence : Sequence ReservationCall.program ⟨database, [], 0⟩ results world) :
    Orderly world.database ∧
    (∀ event ∈ world.trace, ∀ row ∈ putsOf (S := rentals enforced) .reservation event.writes,
      Admissible event.before row) ∧
    ∀ call earlier, results = (call, .error (.thrown (.conflict OVERLAP_CONFLICT))) :: earlier →
      call.Violates world.database := by
  have kept := Sequence.kept sequence orderly
  refine ⟨kept.orderly, kept.stored, ?_⟩
  rintro call earlier rfl
  obtain ⟨session, post⟩ := sequence.promised fun _ => call.safe
  exact (post rfl).violates kept.orderly

/-- Equipment that nobody has reserved, in a database that enforces nothing. -/
def freeRentals : Database (rentals false) := ⟨fun
  | .customer => ⟨[⟨1, 0⟩], by simp⟩
  | .equipment => ⟨[⟨2, 0⟩], by simp⟩
  | .reservation => Table.empty⟩

/-- The second request is for a part of the time that the first has reserved. -/
def requestTwice : List (ReservationCall × Nat) :=
  [(.create 0 ⟨1, 2, some 150, some 160, none⟩, 3), (.create 0 ⟨1, 2, some 100, some 200, none⟩, 4)]

theorem overlap_check_exact_twice : ∃ results world,
    Sequence ReservationCall.program ⟨freeRentals, [], 0⟩ results world ∧
      Orderly world.database ∧ (reservationsOf world.database).length = 1 ∧
      ReservationCall.Violates world.database (.create 0 ⟨1, 2, some 150, some 160, none⟩) := by
  have executed : ((World.mk freeRentals [] 0).executeAll ReservationCall.program requestTwice).any (fun outcome =>
      outcome.1.head? = some (.create 0 ⟨1, 2, some 150, some 160, none⟩, .error (.thrown (.conflict OVERLAP_CONFLICT))) &&
        (reservationsOf outcome.2.database).length = 1) = true := by decide +kernel
  obtain ⟨⟨results, world⟩, ran, seen⟩ := (Option.any_eq_true _ _).mp executed
  simp only [Bool.and_eq_true, decide_eq_true_eq] at seen
  obtain ⟨refused, single⟩ := seen
  have orderly : Orderly freeRentals := ⟨nofun, nofun, nofun⟩
  obtain ⟨earlier, rfl⟩ := List.head?_eq_some_iff.mp refused
  obtain ⟨ordered, _, exact'⟩ := overlap_check_exact orderly (Sequence.executed ran)
  exact ⟨_, world, Sequence.executed ran, ordered, single, exact' _ earlier rfl⟩

end BusinessPlatform.ReservationService
