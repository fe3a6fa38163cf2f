import BusinessPlatform.Proofs.KeysetWalk

/-! What a cursor can do: it is read back by the query it was issued for, refused by
every other, and may name a value that the database refuses. -/

namespace BusinessPlatform.Pagination
open Engine

variable {platform : Platform} {collation : Collation} {cursor sortBy fingerprint : String} {direction : SortDirection}
  {expected : CursorExpectation} {decoded : DecodedCursor}

/-- A `text` can hold the string: it has no NUL character. -/
def Storable (text : String) : Prop := Char.ofNat 0 ∉ text.toList

instance (text : String) : Decidable (Storable text) :=
  inferInstanceAs (Decidable (Char.ofNat 0 ∉ text.toList))

namespace Json

theorem isNumber_true {value : Option Json} {number : Rat} : isNumber value number = true ↔ value = some (.number number) := by
  unfold isNumber
  split <;> simp_all

theorem isString_true {value : Option Json} {text : String} : isString value text = true ↔ value = some (.string text) := by
  unfold isString
  split <;> simp_all

theorem storable_iff {value : Json} : value.storable = true ↔ ∃ text, value = .string text ∧ Storable text := by
  cases value <;> simp [storable, Storable]

end Json

/-- The payload was made for the expected list. -/
structure Addressed (parsed : Json) (expected : CursorExpectation) : Prop where
  version : parsed.property "v" = some (.number CURSOR_VERSION)
  sortBy : parsed.property "s" = some (.string expected.sortBy)
  direction : parsed.property "d" = some (.string (directionText expected.direction))
  fingerprint : parsed.property "f" = some (.string expected.fingerprint)

/-- The key and the id that a payload continues after. -/
structure Names (parsed : Json) (key : CursorKeyValue) (idValue : Json) : Prop where
  tuple : ∃ primaryValue, parsed.property "k" = some (.array [primaryValue, idValue]) ∧ primaryValue.keyValue = some key
  named : idValue.nonEmpty.isSome = true

theorem Json.isRecord_property {parsed value : Json} {key : String} (found : parsed.property key = some value) :
    parsed.isRecord = true := by
  cases parsed with
  | object fields => rfl
  | _ => cases found

/-- The decoder accepts a payload that is addressed to the list and names a position. -/
theorem decodeCursor_ok : decodeCursor platform cursor expected = .ok decoded ↔
    ∃ parsed idValue, platform.read cursor = some parsed ∧ Addressed parsed expected ∧
      Names parsed decoded.primaryValue idValue ∧ idValue.nonEmpty = some decoded.idValue := by
  unfold decodeCursor
  cases read : platform.read cursor with
  | none => simp
  | some parsed =>
    simp only [Option.some.injEq, exists_and_left, exists_eq_left']
    constructor
    · intro accepted
      split at accepted
      next => cases accepted
      next =>
        split at accepted
        next => cases accepted
        next version =>
          split at accepted
          next => cases accepted
          next sorted =>
            split at accepted
            next => cases accepted
            next covered =>
              simp only [Bool.not_eq_true', Bool.not_eq_false, Bool.or_eq_true, not_or, Json.isNumber_true, Json.isString_true]
                at version sorted covered
              refine ⟨⟨version, sorted.1, sorted.2, covered⟩, ?_⟩
              split at accepted
              next primaryValue idValue tuple =>
                split at accepted
                next key id known named =>
                  cases accepted
                  exact ⟨idValue, ⟨⟨primaryValue, tuple, known⟩, by rw [named]; rfl⟩, named⟩
                next => cases accepted
              next => cases accepted
    · rintro ⟨addressed, idValue, ⟨⟨primaryValue, tuple, known⟩, _⟩, named⟩
      have record := Json.isRecord_property addressed.version
      simp [record, Json.isNumber_true.mpr addressed.version, Json.isString_true.mpr addressed.sortBy,
        Json.isString_true.mpr addressed.direction, Json.isString_true.mpr addressed.fingerprint, tuple, known, named]

theorem decodeCursor_total : (∃ decoded, decodeCursor platform cursor expected = .ok decoded) ∨
    decodeCursor platform cursor expected = .error invalidCursor := by
  unfold decodeCursor
  repeat' split
  all_goals simp

/-- A filter that is neither undefined nor null. -/
def Given (filters : Fields (Option Scalar)) (key : String) (value : Scalar) : Prop :=
  (key, some value) ∈ filters ∧ value ≠ .null

/-- The keys of an object differ. -/
def Distinct (filters : Fields (Option Scalar)) : Prop := (filters.map Prod.fst).Nodup

instance (filters : Fields (Option Scalar)) : Decidable (Distinct filters) := inferInstanceAs (Decidable (List.Nodup _))

theorem mem_normalized {filters : Fields (Option Scalar)} {key : String} {value : Scalar} :
    (key, value) ∈ normalized filters ↔ Given filters key value := by
  simp only [normalized, List.mem_filterMap, List.mem_insertionSort, Given]
  constructor
  · rintro ⟨⟨name, held⟩, member, kept⟩
    split at kept
    next => cases kept
    next => cases kept
    next known same =>
      cases kept
      cases same
      exact ⟨member, fun none => known none⟩
  · rintro ⟨member, known⟩
    refine ⟨(key, some value), member, ?_⟩
    split
    next none => cases none
    next null =>
      cases null
      exact absurd rfl known
    next same =>
      cases same
      rfl

theorem normalized_sorted (filters : Fields (Option Scalar)) :
    (normalized filters).Pairwise fun first second => first.1 ≤ second.1 := by
  have sorted := List.pairwise_insertionSort (fun first second : String × Option Scalar => first.1 ≤ second.1) filters
  refine List.Pairwise.filterMap _ ?_ sorted
  intro first second before one kept other kept'
  split at kept <;> cases kept
  split at kept' <;> cases kept'
  exact before

theorem normalized_nodup {filters : Fields (Option Scalar)} (distinct : Distinct filters) : (normalized filters).Nodup := by
  have sorted : (filters.insertionSort fun first second => first.1 ≤ second.1).Pairwise fun first second =>
      first.1 ≠ second.1 := by
    refine List.pairwise_map.mp ?_
    exact ((List.perm_insertionSort _ filters).map _).nodup_iff.mpr distinct
  refine List.Pairwise.filterMap _ ?_ sorted
  intro first second other one kept two kept' same
  split at kept <;> cases kept
  split at kept' <;> cases kept'
  exact other (Prod.mk.inj same).1

theorem normalized_iff {one two : Fields (Option Scalar)} (first : Distinct one) (second : Distinct two) :
    normalized one = normalized two ↔ ∀ key value, Given one key value ↔ Given two key value := by
  constructor
  · intro same key value
    rw [← mem_normalized, ← mem_normalized, same]
  · intro same
    have perm : (normalized one).Perm (normalized two) := by
      rw [List.perm_ext_iff_of_nodup (normalized_nodup first) (normalized_nodup second)]
      rintro ⟨key, value⟩
      rw [mem_normalized, mem_normalized, same]
    refine List.Perm.eq_of_pairwise ?_ (normalized_sorted one) (normalized_sorted two) perm
    rintro ⟨key, value⟩ ⟨name, other⟩ member member' below above
    obtain rfl : key = name := String.le_antisymm below above
    obtain ⟨here, _⟩ := mem_normalized.mp member
    obtain ⟨there, _⟩ := (same _ _).mpr (mem_normalized.mp member')
    cases List.inj_on_of_nodup_map first here there rfl
    rfl

theorem resolve_ok {covered : Fields (Option Scalar)} {continuation : ListContinuation}
    (resolved : resolveListContinuation platform collation (some cursor) sortBy direction covered = .ok continuation) :
    ∃ decoded, decodeCursor platform cursor ⟨sortBy, direction, filterFingerprint platform covered⟩ = .ok decoded := by
  rcases @decodeCursor_total platform cursor ⟨sortBy, direction, filterFingerprint platform covered⟩ with accepted | refused
  · exact accepted
  · simp only [resolveListContinuation, refused] at resolved
    cases resolved

theorem directionText_injective {one two : SortDirection} (same : directionText one = directionText two) : one = two := by
  cases one <;> cases two <;> first | rfl | simp [directionText] at same

/-- An encoded cursor is addressed to the list that it was made for. -/
theorem encodeCursor_addressed {key : CursorKeyValue} {id : String}
    (accepted : decodeCursor platform (encodeCursor platform sortBy direction key id fingerprint) expected = .ok decoded) :
    sortBy = expected.sortBy ∧ direction = expected.direction ∧ fingerprint = expected.fingerprint := by
  obtain ⟨parsed, _, read, addressed, _⟩ := decodeCursor_ok.mp accepted
  rw [encodeCursor, platform.read_write] at read
  cases read
  have sorted := addressed.sortBy
  have directed := addressed.direction
  have covered := addressed.fingerprint
  simp only [CursorPayload.json, Json.property, Fields.get] at sorted directed covered
  simp at sorted directed covered
  exact ⟨sorted, directionText_injective directed, covered⟩

/-- A cursor is read back as it was written, anything else is read as a payload or
refused as a bad request, and a payload is accepted only by the list it is addressed
to. The fingerprint is one for the same given filters; where it tells the filter
sets in use apart, a list continues only with cursors of its own sort, direction and
filters. -/
theorem cursor_bound (platform : Platform) (collation : Collation) :
    (∀ sortBy direction fingerprint key id, id ≠ "" →
      decodeCursor platform (encodeCursor platform sortBy direction key id fingerprint) ⟨sortBy, direction, fingerprint⟩ =
        .ok ⟨key, id⟩) ∧
    (∀ cursor expected, (∃ decoded, decodeCursor platform cursor expected = .ok decoded) ∨
      decodeCursor platform cursor expected = .error (.badRequest INVALID_CURSOR)) ∧
    (∀ cursor expected decoded, decodeCursor platform cursor expected = .ok decoded →
      ∃ parsed, platform.read cursor = some parsed ∧ Addressed parsed expected) ∧
    (∀ one two, Distinct one → Distinct two → (∀ key value, Given one key value ↔ Given two key value) →
      filterFingerprint platform one = filterFingerprint platform two) ∧
    ∀ inUse : Set (Fields Scalar), Set.InjOn (fun filters => ((platform.digest filters).take 8).toString) inUse →
      ∀ issued presented, Distinct issued → Distinct presented → normalized issued ∈ inUse → normalized presented ∈ inUse →
        ∀ issuedSort issuedDirection key id sortBy direction continuation,
          resolveListContinuation platform collation
            (some (encodeCursor platform issuedSort issuedDirection key id (filterFingerprint platform issued)))
            sortBy direction presented = .ok continuation →
          issuedSort = sortBy ∧ issuedDirection = direction ∧
            ∀ key value, Given issued key value ↔ Given presented key value := by
  refine ⟨fun _ _ _ _ _ => decode_encode, fun _ _ => decodeCursor_total, ?_, ?_, ?_⟩
  · intro cursor expected decoded accepted
    obtain ⟨parsed, _, read, addressed, _⟩ := decodeCursor_ok.mp accepted
    exact ⟨parsed, read, addressed⟩
  · intro one two first second same
    rw [filterFingerprint, filterFingerprint, (normalized_iff first second).mpr same]
  · intro inUse injective issued presented first second here there issuedSort issuedDirection key id sortBy direction
      continuation resolved
    obtain ⟨decoded, accepted⟩ := resolve_ok resolved
    obtain ⟨sorted, directed, covered⟩ := encodeCursor_addressed accepted
    exact ⟨sorted, directed, (normalized_iff first second).mp (injective here there covered)⟩

/-- The SHA-256 of two filter sets. -/
private def knownDigest (filters : Fields Scalar) : String :=
  if filters = [("status", .text "ACTIVE")] then "264e28f4" else "44136fa3"

/-- The cursor of a filtered list continues it when the filters come with keys that
are null, and not the list without filters. -/
theorem cursor_bound_filtered : ∃ platform : Platform,
    filterFingerprint platform [("status", some (.text "ACTIVE")), ("type", none)] =
      filterFingerprint platform [("storeId", some .null), ("status", some (.text "ACTIVE"))] ∧
    ∀ continuation, resolveListContinuation platform default
      (some (encodeCursor platform "createdAt" .asc (.number 0) "id"
        (filterFingerprint platform [("status", some (.text "ACTIVE"))]))) "createdAt" .asc [] ≠ .ok continuation := by
  obtain ⟨base⟩ : Nonempty Platform := inferInstance
  let platform : Platform := { base with digest := knownDigest }
  obtain ⟨_, _, _, canonical, bound⟩ := cursor_bound platform default
  refine ⟨platform, ?_, ?_⟩
  · refine canonical _ _ (by decide) (by decide) fun key value => ?_
    simp only [Given, List.mem_cons, Prod.mk.injEq, Option.some.injEq, List.not_mem_nil, or_false, reduceCtorEq, and_false]
    constructor
    · rintro ⟨⟨rfl, rfl⟩, known⟩
      exact ⟨.inr ⟨rfl, rfl⟩, known⟩
    · rintro ⟨⟨rfl, rfl⟩ | ⟨rfl, rfl⟩, known⟩
      · exact absurd rfl known
      · exact ⟨⟨rfl, rfl⟩, known⟩
  · intro continuation resolved
    have injective : Set.InjOn (fun filters => ((platform.digest filters).take 8).toString)
        {[("status", Scalar.text "ACTIVE")], []} := by
      have apart : ((knownDigest [("status", .text "ACTIVE")]).take 8).toString ≠ ((knownDigest []).take 8).toString := by
        decide +kernel
      rintro one (rfl | rfl) two (rfl | rfl) same
      · rfl
      · exact absurd same apart
      · exact absurd same.symm apart
      · rfl
    obtain ⟨_, _, same⟩ := bound _ injective [("status", some (.text "ACTIVE"))] [] (by decide) (by decide) (.inl rfl) (.inr rfl)
      "createdAt" .asc (.number 0) "id" "createdAt" .asc continuation resolved
    have given : Given [("status", some (.text "ACTIVE"))] "status" (.text "ACTIVE") := ⟨List.mem_singleton_self _, nofun⟩
    exact nomatch ((same _ _).mp given).1

/-- The milliseconds of a `timestamp`: from 4713 BC, and up to the end of 294276 AD. -/
def EARLIEST_TIMESTAMP : Int := -210866803200000
def END_TIMESTAMP : Int := 9224318016000000

/-- A `timestamp` can hold the instant. -/
def Representable (milliseconds : Int) : Prop := EARLIEST_TIMESTAMP ≤ milliseconds ∧ milliseconds < END_TIMESTAMP

/-- A cursor is refused as a bad request, or continues the list after its own id and an
instant that the database accepts, and no list request that it comes with fails otherwise. -/
structure Acceptable (platform : Platform) (collation : Collation) (dates : Prisma.DateRange) (cursor sortBy : String)
    (direction : SortDirection) (filters : Filters) : Prop where
  resolved : resolveListContinuation platform collation (some cursor) sortBy direction filters.covered =
      .error (.badRequest INVALID_CURSOR) ∨
    ∃ milliseconds id, resolveListContinuation platform collation (some cursor) sortBy direction filters.covered =
        .ok ⟨filterFingerprint platform filters.covered,
          some (buildKeysetWhere collation sortBy (.dateTime milliseconds) id direction)⟩ ∧
      Representable milliseconds ∧ cursorId platform cursor = some (.string id) ∧ Storable id
  answered : ∀ (tenantId : String) (query : PageQueryDto) (table : Table sortBy), query.cursor = some cursor →
    query.direction = direction →
      (∃ page, requestList platform collation dates tenantId sortBy filters query table.rows = .ok page) ∨
        requestList platform collation dates tenantId sortBy filters query table.rows = .error (.badRequest INVALID_CURSOR)

theorem timeClip_range {time : Rat} {milliseconds : Int} (clipped : timeClip time = some milliseconds) :
    milliseconds.natAbs ≤ 8640000000000000 := by
  unfold timeClip at clipped
  split at clipped
  next range =>
    cases clipped
    have positive : (0 : Rat) ≤ time.den := by exact_mod_cast Nat.zero_le time.den
    have upper : (time.num : Rat) ≤ 8640000000000000 * time.den := by
      rw [← Rat.mul_den_eq_num]
      exact mul_le_mul_of_nonneg_right range.2 positive
    have lower : -8640000000000000 * (time.den : Rat) ≤ time.num := by
      rw [← Rat.mul_den_eq_num time]
      exact mul_le_mul_of_nonneg_right range.1 positive
    have above : time.num ≤ 8640000000000000 * (time.den : Int) := by exact_mod_cast upper
    have below : -8640000000000000 * (time.den : Int) ≤ time.num := by exact_mod_cast lower
    rw [Int.natAbs_tdiv, Int.natAbs_natCast]
    exact Nat.div_le_of_le_mul (by omega)
  next => cases clipped

theorem dateKey_ok {key : CursorKeyValue} {primary : Scalar} (dated : dateKeyFromCursor platform key = .ok primary) :
    ∃ milliseconds : Int, primary = .dateTime milliseconds ∧ milliseconds.natAbs ≤ 8640000000000000 := by
  unfold dateKeyFromCursor at dated
  dsimp only at dated
  split at dated
  next milliseconds time =>
    refine ⟨milliseconds, (Except.ok.inj dated).symm, ?_⟩
    cases key with
    | number value => exact timeClip_range time
    | string text => exact platform.parseDate_range text milliseconds time
  next => cases dated

theorem dateKey_error {key : CursorKeyValue} {error : PaginationError}
    (undated : dateKeyFromCursor platform key = .error error) : error = invalidCursor := by
  unfold dateKeyFromCursor at undated
  dsimp only at undated
  split at undated
  next => cases undated
  next =>
    cases undated
    rfl

variable {covered : Fields (Option Scalar)}

theorem resolve_accepted {key : CursorKeyValue} {id : String} {primary : Scalar}
    (accepted : decodeCursor platform cursor ⟨sortBy, direction, filterFingerprint platform covered⟩ = .ok ⟨key, id⟩)
    (dated : dateKeyFromCursor platform key = .ok primary) :
    resolveListContinuation platform collation (some cursor) sortBy direction covered =
      .ok ⟨filterFingerprint platform covered, some (buildKeysetWhere collation sortBy primary id direction)⟩ := by
  simp [resolveListContinuation, accepted, dated, bind, Except.bind, pure, Except.pure]

/-- A cursor that is not accepted, or that has no date, is refused as a bad request. -/
theorem resolve_refused {error : PaginationError}
    (refused : resolveListContinuation platform collation (some cursor) sortBy direction covered = .error error) :
    error = invalidCursor := by
  rcases @decodeCursor_total platform cursor ⟨sortBy, direction, filterFingerprint platform covered⟩ with
    ⟨⟨key, id⟩, accepted⟩ | unread
  · cases dated : dateKeyFromCursor platform key with
    | error cause =>
      simp only [resolveListContinuation, accepted, dated, bind, Except.bind, Except.error.injEq] at refused
      exact refused ▸ dateKey_error dated
    | ok primary => cases (resolve_accepted accepted dated).symm.trans refused
  · simp only [resolveListContinuation, unread, bind, Except.bind, Except.error.injEq] at refused
    exact refused.symm

variable {dates : Prisma.DateRange} {tenantId : String} {filters : Filters} {query : PageQueryDto}

theorem fetchPage_ok {found : List Record} {limit : Nat} (positive : 0 < limit)
    (named : ∀ row ∈ found, Named (position sortBy row)) :
    ∃ page, fetchPage found limit (encodeRowCursor platform) sortBy direction fingerprint = .ok page := by
  rw [fetchPage]
  split
  next more =>
    dsimp only
    split
    next last final =>
      have present := named last (List.mem_of_mem_take (List.mem_of_getLast? final))
      simp [encodeRowCursor_named present, bind, Except.bind, pure, Except.pure]
    next none =>
      have empty := congrArg List.length (List.getLast?_eq_none_iff.mp none)
      rw [List.length_take, List.length_nil] at empty
      omega
  next => exact ⟨_, rfl⟩

/-- Once its values are sent, a list request is answered or its cursor is refused. -/
theorem list_answers (table : Table sortBy) :
    (∃ page, list platform collation tenantId sortBy filters query table.rows = .ok page) ∨
      list platform collation tenantId sortBy filters query table.rows = .error (.badRequest INVALID_CURSOR) := by
  rw [list]
  change (∃ page, (resolveListContinuation platform collation _ sortBy query.direction filters.covered).bind _ = .ok page) ∨
    (resolveListContinuation platform collation _ sortBy query.direction filters.covered).bind _ = _
  cases resolved : resolveListContinuation platform collation query.cursor sortBy query.direction filters.covered with
  | ok continuation =>
    refine .inl (fetchPage_ok query.size_positive fun row member => table.named row ?_)
    exact (Collation.mem_ordered.mp (List.mem_of_mem_take member)).1
  | error error =>
    cases given : query.cursor with
    | none =>
      rw [given] at resolved
      cases resolved
    | some cursor =>
      rw [given] at resolved
      rw [resolve_refused resolved]
      exact .inr rfl

theorem Names.unique {parsed first second : Json} {key other : CursorKeyValue} (one : Names parsed key first)
    (two : Names parsed other second) : key = other ∧ first = second := by
  obtain ⟨⟨primaryValue, tuple, known⟩, _⟩ := one
  obtain ⟨⟨_, same, found⟩, _⟩ := two
  cases tuple.symm.trans same
  exact ⟨Option.some.inj (known.symm.trans found), rfl⟩

theorem Names.cursorId {parsed idValue : Json} {key : CursorKeyValue} (names : Names parsed key idValue)
    (read : platform.read cursor = some parsed) : cursorId platform cursor = some idValue := by
  obtain ⟨⟨primaryValue, tuple, _⟩, _⟩ := names
  simp [Pagination.cursorId, read, tuple]

/-- The values of a cursor can be sent unless it is accepted and names an instant that the
client does not send, or an instant and an id that the database does not take. -/
theorem sendable_iff : sendable platform dates cursor sortBy direction covered = true ↔
    ∀ parsed key idValue milliseconds, platform.read cursor = some parsed →
      Addressed parsed ⟨sortBy, direction, filterFingerprint platform covered⟩ → Names parsed key idValue →
      dateKeyFromCursor platform key = .ok (.dateTime milliseconds) →
        dates.covers milliseconds = true ∧ idValue.storable = true := by
  unfold sendable
  cases decoded : decodeCursor platform cursor ⟨sortBy, direction, filterFingerprint platform covered⟩ with
  | error error =>
    refine iff_of_true rfl fun parsed key idValue milliseconds read addressed names _ => ?_
    obtain ⟨text, filled⟩ := Option.isSome_iff_exists.mp names.named
    have accepted : decodeCursor platform cursor ⟨sortBy, direction, filterFingerprint platform covered⟩ =
        .ok ⟨key, text⟩ := decodeCursor_ok.mpr ⟨parsed, idValue, read, addressed, names, filled⟩
    cases decoded.symm.trans accepted
  | ok accepted =>
    obtain ⟨parsed, idValue, read, addressed, names, _⟩ := decodeCursor_ok.mp decoded
    have only {other : Json} {key : CursorKeyValue} {id : Json} (same : platform.read cursor = some other)
        (named : Names other key id) : accepted.primaryValue = key ∧ idValue = id := by
      cases read.symm.trans same
      exact names.unique named
    cases dated : dateKeyFromCursor platform accepted.primaryValue with
    | error error =>
      refine iff_of_true (by simp only [dated]) fun other key id milliseconds same _ named instant => ?_
      rw [← (only same named).1] at instant
      cases dated.symm.trans instant
    | ok primary =>
      obtain ⟨milliseconds, rfl, _⟩ := dateKey_ok dated
      simp only [dated, names.cursorId read, Option.any_some, Bool.and_eq_true]
      constructor
      · intro sent other key id instant same _ named found
        obtain ⟨rfl, rfl⟩ := only same named
        cases dated.symm.trans found
        exact sent
      · exact fun sent => sent parsed _ idValue milliseconds read addressed names dated

theorem Acceptable.sent (acceptable : Acceptable platform collation dates cursor sortBy direction filters) :
    sendable platform dates cursor sortBy direction filters.covered = true := by
  by_contra refused
  let query : PageQueryDto := { cursor := some cursor, order := some direction }
  have failed : requestList platform collation dates "" sortBy filters query [] =
      .error (.error "PrismaClientUnknownRequestError") := if_neg refused
  rcases acceptable.answered "" query ⟨[], by simp, by simp⟩ rfl rfl with ⟨page, answered⟩ | answered
  · cases failed.symm.trans answered
  · cases failed.symm.trans answered

/-- A cursor is harmless exactly if, where it is accepted, it names an instant that the
client sends and an id that the database takes. -/
theorem cursor_acceptable_iff (platform : Platform) (collation : Collation) (dates : Prisma.DateRange)
    (within : EARLIEST_TIMESTAMP ≤ dates.first ∧ dates.last < END_TIMESTAMP) (cursor sortBy : String)
    (direction : SortDirection) (filters : Filters) :
    Acceptable platform collation dates cursor sortBy direction filters ↔
      ∀ parsed key idValue milliseconds, platform.read cursor = some parsed →
        Addressed parsed ⟨sortBy, direction, filterFingerprint platform filters.covered⟩ → Names parsed key idValue →
        dateKeyFromCursor platform key = .ok (.dateTime milliseconds) →
          dates.covers milliseconds = true ∧ idValue.storable = true := by
  rw [← sendable_iff]
  refine ⟨Acceptable.sent, fun sent => ⟨?_, fun tenantId query table given directed => ?_⟩⟩
  · cases resolved : resolveListContinuation platform collation (some cursor) sortBy direction filters.covered with
    | error error => exact .inl (by rw [resolve_refused resolved]; rfl)
    | ok continuation =>
      obtain ⟨⟨key, id⟩, accepted⟩ := resolve_ok resolved
      obtain ⟨parsed, idValue, read, addressed, names, filled⟩ := decodeCursor_ok.mp accepted
      cases dated : dateKeyFromCursor platform key with
      | error error =>
        simp only [resolveListContinuation, accepted, dated, bind, Except.bind] at resolved
        cases resolved
      | ok primary =>
        obtain ⟨milliseconds, rfl, _⟩ := dateKey_ok dated
        obtain ⟨covers, storable⟩ := sendable_iff.mp sent parsed key idValue milliseconds read addressed names dated
        obtain ⟨text, rfl, stored⟩ := Json.storable_iff.mp storable
        have same : text = id := Option.some.inj (Option.ite_none_left_eq_some.mp filled).2
        subst same
        have answered := resolved.symm.trans (resolve_accepted accepted dated)
        refine .inr ⟨milliseconds, text, answered, ?_, names.cursorId read, stored⟩
        simp only [Prisma.DateRange.covers, Bool.and_eq_true, decide_eq_true_eq] at covers
        exact ⟨within.1.trans covers.1, lt_of_le_of_lt covers.2 within.2⟩
  · subst directed
    rw [requestList, if_pos (by rw [given]; exact sent)]
    exact list_answers table

/-- A cursor of the unfiltered list. -/
private def crafted (platform : Platform) (milliseconds : Int) (id : String) : String :=
  encodeCursor platform "createdAt" .asc (.number milliseconds) id (filterFingerprint platform [])

private theorem crafted_sendable {milliseconds : Int} {id : String} (range : milliseconds.natAbs ≤ 8640000000000000)
    (named : id ≠ "") : sendable platform dates (crafted platform milliseconds id) "createdAt" .asc [] = true ↔
      dates.covers milliseconds = true ∧ Storable id := by
  have given : cursorId platform (crafted platform milliseconds id) = some (.string id) := by
    simp [cursorId, crafted, encodeCursor, platform.read_write, CursorPayload.json, Json.property, Fields.get]
  rw [sendable, crafted, decode_encode named]
  simp only [dateKeyFromCursor, timeClip_instant range]
  rw [crafted] at given
  rw [given, Option.any_some, Bool.and_eq_true, Json.storable_iff]
  simp

theorem cursor_acceptable_epoch : ∃ platform : Platform,
    Acceptable platform default Prisma.dates (crafted platform 0 "x") "createdAt" .asc (equality []) := by
  obtain ⟨platform⟩ : Nonempty Platform := inferInstance
  refine ⟨platform, (cursor_acceptable_iff platform default Prisma.dates (by decide) _ "createdAt" .asc (equality [])).mpr ?_⟩
  exact sendable_iff.mp ((crafted_sendable (by decide) (by decide)).mpr ⟨by decide, by decide⟩)

/-- The year 10000 comes after the last date that the client sends, the first date there is
lies before 4713 BC, and an id may be a NUL character. -/
theorem cursor_unacceptable : ∃ platform : Platform,
    ¬ Acceptable platform default Prisma.dates (crafted platform 253402300800000 "x") "createdAt" .asc (equality []) ∧
      ¬ Acceptable platform default Prisma.dates (crafted platform (-8640000000000000) "x") "createdAt" .asc (equality []) ∧
      ¬ Acceptable platform default Prisma.dates (crafted platform 0 (String.singleton (Char.ofNat 0))) "createdAt" .asc
        (equality []) := by
  obtain ⟨platform⟩ : Nonempty Platform := inferInstance
  refine ⟨platform, fun acceptable => ?_, fun acceptable => ?_, fun acceptable => ?_⟩
  · exact absurd ((crafted_sendable (by decide) (by decide)).mp acceptable.sent).1 (by decide)
  · exact absurd ((crafted_sendable (by decide) (by decide)).mp acceptable.sent).1 (by decide)
  · exact ((crafted_sendable (by decide) (by decide)).mp acceptable.sent).2 (by decide)

end BusinessPlatform.Pagination
