import BusinessPlatform.Engine.Keyset
import BusinessPlatform.Pagination
import Std.Data.String.ToNat

/-! A client that follows `nextCursor` while rows come and go between its
requests: the list endpoints walk the tables in the sense of keyset pagination. -/

namespace BusinessPlatform.Pagination
open Engine Engine.Keyset

variable {platform : Platform} {collation : Collation} {tenantId sortBy fingerprint : String} {direction : SortDirection}
  {filters : Filters} {query : PageQueryDto}

private theorem texts_countable : Countable String :=
  Function.Injective.countable (f := fun text : String => text.toList.map Char.toNat) fun _ _ same =>
    String.toList_inj.mp (List.map_injective_iff.mpr (fun _ _ => Char.toNat_inj.mp) same)

private theorem payloads_countable : Countable CursorPayload := by
  have texts := texts_countable
  have directions : Countable SortDirection :=
    Function.Injective.countable (f := fun direction => direction = SortDirection.asc) fun first second same => by
      cases first <;> cases second <;> simp_all
  have keys : Countable CursorKeyValue :=
    Function.Surjective.countable (f := Sum.elim CursorKeyValue.string CursorKeyValue.number) fun key => by
      cases key with
      | string text => exact ⟨.inl text, rfl⟩
      | number value => exact ⟨.inr value, rfl⟩
  exact Function.Injective.countable
    (f := fun payload : CursorPayload => (payload.v, payload.s, payload.d, payload.k, payload.f)) fun first second same => by
      cases first
      cases second
      simp_all

/-- Nothing that a platform promises is contradictory: numbered payloads can be read back. -/
instance : Nonempty Platform := by
  have payloads := payloads_countable
  obtain ⟨number, injective⟩ := exists_injective_nat CursorPayload
  classical
  exact ⟨{
    write := fun payload => Nat.repr (number payload)
    read := fun cursor => cursor.toNat?.bind fun code => (Function.partialInv number code).map CursorPayload.json
    read_write := fun payload => by simp [Function.partialInv_left injective]
    digest := fun _ => ""
    parseDate := fun _ => none
    dateString := fun _ => ""
    toISOString := fun _ => ""
    parseDate_range := nofun }⟩

/-- Where a row stands in the order of the list. -/
def position (sortBy : String) (row : Record) : Scalar × Scalar := (row sortBy, row "id")

/-- The order of positions: the sort column, then the id. -/
abbrev Before (collation : Collation) (direction : SortDirection) : Scalar × Scalar → Scalar × Scalar → Prop :=
  Prod.Lex (fun first second => collation.before direction first second = true)
    fun first second => collation.before direction first second = true

instance : IsStrictTotalOrder (Scalar × Scalar) (Before collation direction) where

theorem before_iff {first second : Scalar × Scalar} : Before collation direction first second ↔
    collation.before direction first.1 second.1 = true ∨
      first.1 = second.1 ∧ collation.before direction first.2 second.2 = true := Prod.lex_def

theorem precedes_position (first second : Record) :
    collation.precedes (buildOrderBy sortBy direction) first second = true ↔
      Before collation direction (position sortBy first) (position sortBy second) := by
  rw [before_iff, buildOrderBy, Collation.precedes_cons, Collation.precedes_cons]
  simp [Collation.precedes, position]

theorem op_true {column : String} {value : Scalar} {row : Record} (stored : row column ≠ .null) :
    (op collation direction column value).eval row = some true ↔ collation.before direction value (row column) = true := by
  cases direction with
  | asc =>
    rw [op, Collation.gt, Condition.eval, compare_true stored]
    rfl
  | desc =>
    rw [op, Collation.lt, Condition.eval, compare_true stored]
    rfl

theorem keyset_matches {primary : Scalar} {id : String} {row : Record} (known : primary ≠ .null)
    (dated : row sortBy ≠ .null) (named : row "id" ≠ .null) :
    (buildKeysetWhere collation sortBy primary id direction).matches row = true ↔
      Before collation direction (primary, .text id) (position sortBy row) := by
  have tied : (equals sortBy primary).eval row = some true ↔ row sortBy = primary := equals_true known
  simp only [buildKeysetWhere, WhereInput.matches_cons, WhereInput.matches_nil, and_true, Condition.or_true,
    List.exists_mem_cons_iff, List.not_mem_nil, false_and, exists_false, or_false, op_true dated, op_true named, tied]
  rw [before_iff, eq_comm (a := row sortBy)]
  rfl

/-- The rows that the filters of the list and the tenant let through. -/
def selected (tenantId : String) (filters : Filters) (row : Record) : Bool :=
  row "tenantId" = .text tenantId && filters.predicates.all fun predicate => predicate.matches row

theorem scopeWhere_matches {filter : WhereInput Record} {row : Record} (unset : ∀ field ∈ filter, field.1 ≠ "tenantId") :
    (TenantScoping.scopeWhere (some filter) tenantId).matches row = true ↔
      row "tenantId" = .text tenantId ∧ filter.matches row = true := by
  have kept : (filter.filter fun field => field.1 ≠ "tenantId") = filter :=
    List.filter_eq_self.mpr fun field member => decide_eq_true (unset field member)
  have own : (equals "tenantId" (.text tenantId)).eval row = some true ↔ row "tenantId" = .text tenantId :=
    equals_true nofun
  rw [TenantScoping.scopeWhere, Option.getD_some, Fields.set, kept, WhereInput.matches_iff, WhereInput.matches_iff,
    List.forall_mem_append, List.forall_mem_singleton, own, and_comm]

/-- What a list reads: the rows of the tenant that all predicates let through. -/
theorem combined_matches {predicates : List (WhereInput Record)} {row : Record} :
    (TenantScoping.scopeWhere (some (composed predicates)) tenantId).matches row = true ↔
      row "tenantId" = .text tenantId ∧ ∀ predicate ∈ predicates, predicate.matches row = true := by
  unfold composed
  cases predicates with
  | nil =>
    rw [List.isEmpty_nil, if_pos rfl, scopeWhere_matches (by simp)]
    simp
  | cons predicate rest =>
    rw [scopeWhere_matches (by simp)]
    simp only [List.isEmpty_cons, Bool.false_eq_true, if_false, WhereInput.matches_cons, WhereInput.matches_nil, and_true,
      Condition.and_true]

/-- A cursor is read back as the key and the id that it was made of. -/
theorem decode_encode {primaryValue : CursorKeyValue} {idValue : String} (named : idValue ≠ "") :
    decodeCursor platform (encodeCursor platform sortBy direction primaryValue idValue fingerprint)
      ⟨sortBy, direction, fingerprint⟩ = .ok ⟨primaryValue, idValue⟩ := by
  have key : primaryValue.json.keyValue = some primaryValue := by cases primaryValue <;> rfl
  simp [decodeCursor, encodeCursor, platform.read_write, CursorPayload.json, Json.isRecord, Json.property, Fields.get,
    Json.isNumber, Json.isString, Json.nonEmpty, key, named]

theorem timeClip_instant {milliseconds : Int} (range : milliseconds.natAbs ≤ 8640000000000000) :
    timeClip milliseconds = some milliseconds := by
  have lower : (-8640000000000000 : Rat) ≤ milliseconds := by exact_mod_cast (by omega : -8640000000000000 ≤ milliseconds)
  have upper : (milliseconds : Rat) ≤ 8640000000000000 := by exact_mod_cast (by omega : milliseconds ≤ 8640000000000000)
  rw [timeClip, if_pos ⟨lower, upper⟩]
  simp

/-- A position that a row can have: its sort key is a Date, and ids are generated. -/
structure Named (place : Scalar × Scalar) : Prop where
  dated : ∃ milliseconds : Int, place.1 = .dateTime milliseconds ∧ milliseconds.natAbs ≤ 8640000000000000
  identified : ∃ id, place.2 = .text id ∧ id ≠ ""

/-- The cursor that names a position. -/
def cursorOf (platform : Platform) (sortBy : String) (direction : SortDirection) (fingerprint : String) :
    Scalar × Scalar → String
  | (.dateTime milliseconds, .text id) => encodeCursor platform sortBy direction (.number milliseconds) id fingerprint
  | _ => ""

theorem encodeRowCursor_named {row : Record} (named : Named (position sortBy row)) :
    encodeRowCursor platform row sortBy direction fingerprint =
      .ok (cursorOf platform sortBy direction fingerprint (position sortBy row)) := by
  obtain ⟨⟨milliseconds, dated, -⟩, id, identified, -⟩ := named
  have key : row sortBy = .dateTime milliseconds := dated
  have name : row "id" = .text id := identified
  simp [encodeRowCursor, keyValueFromRow, position, key, name, stringOf, cursorOf, bind, Except.bind, pure, Except.pure]

theorem resolve_cursorOf {place : Scalar × Scalar} {covered : Fields (Option Scalar)} (named : Named place) :
    ∃ keyset, resolveListContinuation platform collation
        (some (cursorOf platform sortBy direction (filterFingerprint platform covered) place)) sortBy direction covered =
          .ok ⟨filterFingerprint platform covered, some keyset⟩ ∧
      ∀ row, Named (position sortBy row) →
        (keyset.matches row = true ↔ Before collation direction place (position sortBy row)) := by
  obtain ⟨primary, identity⟩ := place
  obtain ⟨⟨milliseconds, dated, range⟩, id, identified, stored⟩ := named
  cases dated
  cases identified
  refine ⟨buildKeysetWhere collation sortBy (.dateTime milliseconds) id direction, ?_, ?_⟩
  · simp [resolveListContinuation, cursorOf, decode_encode stored, dateKeyFromCursor, timeClip_instant range, bind,
      Except.bind, pure, Except.pure]
  · intro row ⟨⟨instant, key, _⟩, name, named, _⟩
    have known : row sortBy ≠ .null := by
      change row sortBy = _ at key
      rw [key]
      nofun
    have present : row "id" ≠ .null := by
      change row "id" = _ at named
      rw [named]
      nofun
    exact keyset_matches nofun known present

/-- A table that is listed in the order of a column. -/
structure Table (sortBy : String) where
  rows : List Record
  named : ∀ row ∈ rows, Named (position sortBy row)
  distinct : (rows.map fun row => row "id").Nodup

/-- The rows that the list has to return. -/
def Table.selection (table : Table sortBy) (tenantId : String) (filters : Filters) : List Record :=
  table.rows.filter (selected tenantId filters)

/-- Rows with distinct ids are in strict order once they are in order. -/
theorem Table.ordered_strict (table : Table sortBy) (filter : WhereInput Record) :
    (collation.ordered table.rows filter (buildOrderBy sortBy direction)).Pairwise fun first second =>
      Before collation direction (position sortBy first) (position sortBy second) := by
  have ids : ((collation.ordered table.rows filter (buildOrderBy sortBy direction)).map fun row => row "id").Nodup := by
    rw [(Collation.ordered_perm.map _).nodup_iff]
    exact table.distinct.sublist (List.filter_sublist.map _)
  have distinct : (collation.ordered table.rows filter (buildOrderBy sortBy direction)).Pairwise fun first second =>
      first "id" ≠ second "id" := List.pairwise_map.mp ids
  apply (Collation.ordered_sorted.and distinct).imp
  intro first second ⟨notAfter, other⟩
  by_contra notBefore
  have strict : IsStrictTotalOrder (Scalar × Scalar) (Before collation direction) := inferInstance
  have same := strict.trichotomous _ _ notBefore fun back =>
    Bool.eq_false_iff.mp notAfter ((precedes_position second first).mpr back)
  exact other (congrArg Prod.snd same)

/-- The page that is cut from one row too many is the next stretch of the rows. -/
theorem fetchPage_stretch {rows remaining : List Record} {last : Option (Scalar × Scalar)} {limit : Nat} (positive : 0 < limit)
    (named : ∀ row ∈ remaining, Named (position sortBy row))
    (members : ∀ row, row ∈ remaining ↔ row ∈ rows ∧ Beyond (Before collation direction) (position sortBy) last row)
    (sorted : remaining.Pairwise fun first second =>
      Before collation direction (position sortBy first) (position sortBy second)) :
    ∃ page next, fetchPage (remaining.take (limit + 1)) limit (encodeRowCursor platform) sortBy direction fingerprint =
        .ok ⟨page, next.map (cursorOf platform sortBy direction fingerprint)⟩ ∧
      (∀ place ∈ next, Named place) ∧
      Stretch (Before collation direction) (position sortBy) rows last page next := by
  obtain ⟨whole, cut⟩ := Stretch.probe limit members sorted
  by_cases more : limit < remaining.length
  · cases final : (remaining.take limit).getLast? with
    | none =>
      have empty := congrArg List.length (List.getLast?_eq_none_iff.mp final)
      rw [List.length_take, List.length_nil] at empty
      omega
    | some row =>
      have probe : limit < (remaining.take (limit + 1)).length := by
        rw [List.length_take]
        omega
      have trimmed : (remaining.take (limit + 1)).take limit = remaining.take limit := by
        rw [List.take_take, Nat.min_eq_left (by omega)]
      have present := named row (List.mem_of_mem_take (List.mem_of_getLast? final))
      refine ⟨remaining.take limit, some (position sortBy row), ?_, ?_, cut row final⟩
      · rw [fetchPage, if_pos probe]
        dsimp only
        rw [trimmed, final]
        simp [encodeRowCursor_named present, bind, Except.bind, pure, Except.pure]
      · intro place same
        cases same
        exact present
  · have all : remaining.take (limit + 1) = remaining := List.take_of_length_le (by omega)
    refine ⟨remaining, none, ?_, nofun, whole (by omega)⟩
    rw [all, fetchPage, if_neg more]
    rfl

theorem resolve_last (direction : SortDirection) {last : Option (Scalar × Scalar)} {covered : Fields (Option Scalar)} (named : ∀ place ∈ last, Named place) :
    ∃ keyset, resolveListContinuation platform collation
        (last.map (cursorOf platform sortBy direction (filterFingerprint platform covered))) sortBy direction covered =
          .ok ⟨filterFingerprint platform covered, keyset⟩ ∧
      ∀ row, Named (position sortBy row) → ((∀ predicate ∈ keyset.toList, predicate.matches row = true) ↔
        Beyond (Before collation direction) (position sortBy) last row) := by
  cases last with
  | none => exact ⟨none, rfl, fun row _ => ⟨fun _ => nofun, fun _ => nofun⟩⟩
  | some place =>
    obtain ⟨keyset, resolved, matched⟩ := resolve_cursorOf (named place rfl)
    refine ⟨some keyset, resolved, fun row known => ?_⟩
    simp [Beyond, matched row known]

theorem PageQueryDto.size_positive (query : PageQueryDto) : 0 < query.size := by
  rw [size]
  cases given : query.limit with
  | none => decide
  | some limit => exact (query.limit_range limit given).1

/-- A request with the cursor of a position returns the stretch after it. -/
theorem list_stretch (table : Table sortBy) {last : Option (Scalar × Scalar)} (named : ∀ place ∈ last, Named place) :
    ∃ page next,
      list platform collation tenantId sortBy filters { query with
          cursor := last.map (cursorOf platform sortBy query.direction (filterFingerprint platform filters.covered)) } table.rows =
        .ok ⟨page, next.map (cursorOf platform sortBy query.direction (filterFingerprint platform filters.covered))⟩ ∧
      (∀ place ∈ next, Named place) ∧
      Stretch (Before collation query.direction) (position sortBy) (table.selection tenantId filters) last page next := by
  obtain ⟨keyset, resolved, matched⟩ := resolve_last query.direction named
  have read : ∀ row, row ∈ collation.ordered table.rows
        (TenantScoping.scopeWhere (some (composed (filters.predicates ++ keyset.toList))) tenantId)
        (buildOrderBy sortBy query.direction) ↔
      row ∈ table.selection tenantId filters ∧ Beyond (Before collation query.direction) (position sortBy) last row := by
    intro row
    rw [Collation.mem_ordered, combined_matches, Table.selection, List.mem_filter, List.forall_mem_append]
    simp only [selected, Bool.and_eq_true, decide_eq_true_eq, List.all_eq_true]
    constructor
    · intro ⟨present, own, given, continuing⟩
      exact ⟨⟨present, own, given⟩, (matched row (table.named row present)).mp continuing⟩
    · intro ⟨⟨present, own, given⟩, beyond⟩
      exact ⟨present, own, given, (matched row (table.named row present)).mpr beyond⟩
  obtain ⟨page, next, fetched, places, stretch⟩ := fetchPage_stretch query.size_positive
    (fun row member => table.named row (Collation.mem_ordered.mp member).1) read (table.ordered_strict _)
  refine ⟨page, next, ?_, places, stretch⟩
  rw [list]
  change (resolveListContinuation platform collation _ sortBy query.direction filters.covered).bind _ = _
  rw [resolved]
  exact fetched

/-- What a client does next: a request, nothing after a null cursor, or nothing
after an error. -/
inductive Next where
  | request (cursor : Option String)
  | done
  | refused (error : PaginationError)

structure Progress where
  rows : List Record
  next : Next

/-- A client that follows `nextCursor` from the first page, after so many requests. -/
def follow (fetch : Nat → Option String → Except PaginationError (Paginated Record)) : Nat → Progress
  | 0 => ⟨[], .request none⟩
  | count + 1 =>
    let progress := follow fetch count
    match progress.next with
    | .request cursor =>
      match fetch count cursor with
      | .ok page =>
        { rows := progress.rows ++ page.data
          next := match page.nextCursor with
            | some cursor => .request (some cursor)
            | none => .done }
      | .error error => ⟨progress.rows, .refused error⟩
    | _ => progress

/-- The walk of a list over the tables that its requests find. -/
def walk (platform : Platform) (collation : Collation) (tenantId sortBy : String) (filters : Filters) (query : PageQueryDto)
    (tables : Nat → Table sortBy) : Nat → Progress :=
  follow fun request cursor => list platform collation tenantId sortBy filters { query with cursor := cursor } (tables request).rows

/-- Rows come and go, but a row keeps its sort key, and no id is given twice. -/
def Kept (tables : Nat → Table sortBy) : Prop :=
  ∀ first second, ∀ row ∈ (tables first).rows, ∀ other ∈ (tables second).rows, row "id" = other "id" → row sortBy = other sortBy

section Follow
variable {tables : Nat → Table sortBy}

/-- Walks in the sense of keyset pagination, over the rows that the list has to return. -/
abbrev Walks (collation : Collation) (tenantId : String) (filters : Filters) (direction : SortDirection)
    (tables : Nat → Table sortBy) : Nat → List Record → Option (Option (Scalar × Scalar)) → Prop :=
  Walk (Before collation direction) (position sortBy) fun request => (tables request).selection tenantId filters

/-- The client is about to request what follows the last position. -/
structure Going (platform : Platform) (collation : Collation) (tenantId : String) (filters : Filters) (query : PageQueryDto)
    (tables : Nat → Table sortBy) (count : Nat) (progress : Progress) (last : Option (Scalar × Scalar)) : Prop where
  next : progress.next =
    .request (last.map (cursorOf platform sortBy query.direction (filterFingerprint platform filters.covered)))
  named : ∀ place ∈ last, Named place
  walks : Walks collation tenantId filters query.direction tables count progress.rows (some last)

theorem Going.step {count : Nat} {last : Option (Scalar × Scalar)}
    (going : Going platform collation tenantId filters query tables count
      (walk platform collation tenantId sortBy filters query tables count) last) :
    (∃ next, Going platform collation tenantId filters query tables (count + 1)
        (walk platform collation tenantId sortBy filters query tables (count + 1)) next) ∨
      (walk platform collation tenantId sortBy filters query tables (count + 1)).next = .done ∧
        Walks collation tenantId filters query.direction tables (count + 1)
          (walk platform collation tenantId sortBy filters query tables (count + 1)).rows none := by
  obtain ⟨page, next, answered, named, stretch⟩ := @list_stretch platform collation tenantId sortBy filters query
    (tables count) _ going.named
  have walks := going.walks.page stretch
  have after : walk platform collation tenantId sortBy filters query tables (count + 1) =
      ⟨(walk platform collation tenantId sortBy filters query tables count).rows ++ page,
        match next.map (cursorOf platform sortBy query.direction (filterFingerprint platform filters.covered)) with
        | some cursor => .request (some cursor)
        | none => .done⟩ := by
    have current := going.next
    rw [walk] at current ⊢
    rw [follow, current]
    dsimp only
    rw [answered]
  rw [after]
  cases next with
  | none => exact .inr ⟨rfl, walks⟩
  | some place => exact .inl ⟨some place, rfl, named, walks⟩

/-- After any number of requests the walk goes on, or it has ended with one of them. -/
theorem walk_state (count : Nat) :
    (∃ last, Going platform collation tenantId filters query tables count
        (walk platform collation tenantId sortBy filters query tables count) last) ∨
      (walk platform collation tenantId sortBy filters query tables count).next = .done ∧
        ∃ made ≤ count, Walks collation tenantId filters query.direction tables made
          (walk platform collation tenantId sortBy filters query tables count).rows none := by
  induction count with
  | zero => exact .inl ⟨none, rfl, nofun, .start⟩
  | succ count ih =>
    rcases ih with ⟨last, going⟩ | ⟨ended, made, earlier, walks⟩
    · rcases going.step with next | ⟨ended, walks⟩
      · exact .inl next
      · exact .inr ⟨ended, count + 1, Nat.le_refl _, walks⟩
    · have unchanged : walk platform collation tenantId sortBy filters query tables (count + 1) =
          walk platform collation tenantId sortBy filters query tables count := by
        rw [walk] at ended ⊢
        rw [follow, ended]
      rw [unchanged]
      exact .inr ⟨ended, made, by omega, walks⟩

/-- Everything that was returned stood in the tables of the requests that were made. -/
theorem walk_ordered (count : Nat) :
    ((walk platform collation tenantId sortBy filters query tables count).rows.Pairwise fun first second =>
        Before collation query.direction (position sortBy first) (position sortBy second)) ∧
      ∀ row ∈ (walk platform collation tenantId sortBy filters query tables count).rows,
        ∃ request < count, row ∈ (tables request).selection tenantId filters := by
  rcases @walk_state platform collation tenantId sortBy filters query tables count with ⟨last, going⟩ | ⟨-, made, earlier, walks⟩
  · exact ⟨going.walks.ordered, going.walks.drawn⟩
  · refine ⟨walks.ordered, fun row member => ?_⟩
    obtain ⟨request, before, present⟩ := walks.drawn row member
    exact ⟨request, by omega, present⟩

end Follow

/-- Rows in strict order of which all that carry the id have one sort key carry it at most once. -/
theorem length_filter_id_le {rows : List Record} {id key : Scalar}
    (ordered : rows.Pairwise fun first second => Before collation direction (position sortBy first) (position sortBy second))
    (same : ∀ row ∈ rows, row "id" = id → row sortBy = key) : (rows.filter fun row => row "id" = id).length ≤ 1 := by
  have strict : IsStrictTotalOrder (Scalar × Scalar) (Before collation direction) := inferInstance
  have inOrder := ordered.filter fun row => row "id" = id
  have positions : ∀ row ∈ rows.filter fun row => row "id" = id, position sortBy row = (key, id) := by
    intro row member
    obtain ⟨present, carries⟩ := List.mem_filter.mp member
    have named : row "id" = id := of_decide_eq_true carries
    exact Prod.ext (same row present named) named
  generalize rows.filter (fun row => row "id" = id) = carrying at inOrder positions ⊢
  match carrying with
  | [] => exact Nat.zero_le _
  | [_] => exact Nat.le_refl _
  | first :: second :: rest =>
    have less := List.rel_of_pairwise_cons inOrder List.mem_cons_self
    rw [positions first (by simp), positions second (by simp)] at less
    exact absurd less (strict.irrefl _)

theorem Table.id_unique (table : Table sortBy) {first second : Record} (left : first ∈ table.rows) (right : second ∈ table.rows)
    (same : first "id" = second "id") : first = second :=
  List.inj_on_of_nodup_map table.distinct left right same

end BusinessPlatform.Pagination

namespace BusinessPlatform
open Engine Pagination

/-- A walk by `nextCursor` loses and repeats nothing, whatever happens to the
table between its requests: no request fails, rows come in strict order, no row
comes twice, and a row that stands there under one sort key during the whole walk
comes once. A walk over a table that does not change ends. -/
theorem keyset_walk (platform : Platform) (collation : Collation) (tenantId sortBy : String) (filters : Filters)
    (query : PageQueryDto) (tables : Nat → Table sortBy) :
    (∀ count error, (walk platform collation tenantId sortBy filters query tables count).next ≠ .refused error) ∧
    (∀ count, (walk platform collation tenantId sortBy filters query tables count).rows.Pairwise fun first second =>
      collation.precedes (buildOrderBy sortBy query.direction) first second = true) ∧
    (Kept tables → ∀ count,
      ((walk platform collation tenantId sortBy filters query tables count).rows.map fun row => row "id").Nodup) ∧
    (∀ count cursor, (walk platform collation tenantId sortBy filters query tables count).next = .request cursor →
      (walk platform collation tenantId sortBy filters query tables (count + 1)).next = .done →
      ∀ id key, (∀ request ≤ count, ∃ row ∈ (tables request).rows,
          selected tenantId filters row = true ∧ row "id" = id ∧ row sortBy = key) →
        ((walk platform collation tenantId sortBy filters query tables (count + 1)).rows.filter fun row =>
          row "id" = id).length = 1) ∧
    ((∀ request, tables request = tables 0) →
      ∃ count, (walk platform collation tenantId sortBy filters query tables count).next = .done) := by
  have strict : IsStrictTotalOrder (Scalar × Scalar) (Before collation query.direction) := inferInstance
  refine ⟨?_, ?_, ?_, ?_, ?_⟩
  · intro count error failed
    rcases @walk_state platform collation tenantId sortBy filters query tables count with ⟨last, going⟩ | ⟨ended, -⟩
    · rw [going.next] at failed
      cases failed
    · rw [ended] at failed
      cases failed
  · intro count
    apply (walk_ordered count).1.imp
    intro first second less
    exact (precedes_position first second).mpr less
  · intro kept count
    obtain ⟨ordered, drawn⟩ := @walk_ordered platform collation tenantId sortBy filters query tables count
    apply List.pairwise_map.mpr
    apply ordered.imp_of_mem
    intro first second left right less same
    obtain ⟨earlier, -, inEarlier⟩ := drawn first left
    obtain ⟨later, -, inLater⟩ := drawn second right
    have key := kept earlier later first (List.mem_of_mem_filter inEarlier) second (List.mem_of_mem_filter inLater) same
    rw [show position sortBy first = position sortBy second from Prod.ext key same] at less
    exact strict.irrefl _ less
  · intro count cursor asked ended id key stands
    rcases @walk_state platform collation tenantId sortBy filters query tables count with ⟨last, going⟩ | ⟨finished, -⟩
    · rcases going.step with ⟨next, going⟩ | ⟨-, walks⟩
      · rw [going.next] at ended
        cases ended
      · have occupied : ∀ request < count + 1, ∃ row ∈ (tables request).selection tenantId filters,
            position sortBy row = (key, id) := by
          intro request made
          obtain ⟨row, present, chosen, named, keyed⟩ := stands request (by omega)
          exact ⟨row, List.mem_filter.mpr ⟨present, chosen⟩, Prod.ext keyed named⟩
        have most := @length_filter_id_le _ _ _ _ id key walks.ordered fun row member named => by
          obtain ⟨request, made, drawn⟩ := walks.drawn row member
          obtain ⟨other, present, -, alike, keyed⟩ := stands request (by omega)
          rw [(tables request).id_unique (List.mem_of_mem_filter drawn) present (named.trans alike.symm)]
          exact keyed
        rcases walks.complete occupied with ⟨row, returned, placed⟩ | ⟨past, goes, -⟩
        · have carries : row "id" = id := congrArg Prod.snd placed
          have least := List.length_pos_of_mem
            ((List.mem_filter (p := fun row => row "id" = id)).mpr ⟨returned, decide_eq_true carries⟩)
          omega
        · cases goes
    · rw [finished] at asked
      cases asked
  · intro unchanged
    refine ⟨((tables 0).selection tenantId filters).length + 1, ?_⟩
    rcases @walk_state platform collation tenantId sortBy filters query tables
      (((tables 0).selection tenantId filters).length + 1) with ⟨last, going⟩ | ⟨ended, -⟩
    · have bound := going.walks.bounded rfl fun request => by rw [unchanged request]
      omega
    · exact ended

end BusinessPlatform
