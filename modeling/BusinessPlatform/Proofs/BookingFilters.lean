import BusinessPlatform.Proofs.CursorBinding

/-! Booking lists and the filters that their query may carry. Three of them are
compared and covered by the fingerprint of the cursors; the fourth, `orderId`, is
accepted and then neither narrows the list nor binds its cursors. -/

namespace BusinessPlatform.Pagination
open Engine Engine.Keyset

variable {platform : Platform} {collation : Collation} {tenantId sortBy : String} {filters : Filters} {query : PageQueryDto}

section Unchanged
variable {table : Table sortBy}

/-- The walk of a list over a table that does not change. -/
abbrev walkOver (platform : Platform) (collation : Collation) (tenantId : String) (filters : Filters) (query : PageQueryDto)
    (table : Table sortBy) : Nat → Progress :=
  walk platform collation tenantId sortBy filters query fun _ => table

theorem walkOver_ends : ∃ count, (walkOver platform collation tenantId filters query table count).next = .done := by
  refine ⟨(table.selection tenantId filters).length + 1, ?_⟩
  rcases @walk_state platform collation tenantId sortBy filters query (fun _ => table)
    ((table.selection tenantId filters).length + 1) with ⟨last, going⟩ | ⟨ended, -⟩
  · have bound := going.walks.bounded rfl fun _ => rfl
    omega
  · exact ended

/-- A walk that has ended has returned the selected rows, each once. -/
theorem walkOver_exact {count : Nat} (ended : (walkOver platform collation tenantId filters query table count).next = .done) :
    ((walkOver platform collation tenantId filters query table count).rows.map fun row => row "id").Nodup ∧
      ∀ row, row ∈ (walkOver platform collation tenantId filters query table count).rows ↔
        row ∈ table.selection tenantId filters := by
  have strict : IsStrictTotalOrder (Scalar × Scalar) (Before collation query.direction) := inferInstance
  rcases @walk_state platform collation tenantId sortBy filters query (fun _ => table) count with
    ⟨last, going⟩ | ⟨-, made, -, walks⟩
  · rw [going.next] at ended
    cases ended
  · have drawn : ∀ row ∈ (walkOver platform collation tenantId filters query table count).rows,
        row ∈ table.selection tenantId filters := by
      intro row member
      obtain ⟨_, _, present⟩ := walks.drawn row member
      exact present
    refine ⟨?_, fun row => ⟨drawn row, fun present => ?_⟩⟩
    · apply List.pairwise_map.mpr
      apply walks.ordered.imp_of_mem
      intro first second left right less same
      have one := table.id_unique (List.mem_of_mem_filter (drawn first left)) (List.mem_of_mem_filter (drawn second right)) same
      rw [one] at less
      exact strict.irrefl _ less
    · rcases walks.complete fun _ _ => ⟨row, present, rfl⟩ with ⟨returned, member, placed⟩ | ⟨_, goes, _⟩
      · have one := table.id_unique (List.mem_of_mem_filter (drawn returned member)) (List.mem_of_mem_filter present)
          (congrArg Prod.snd placed)
        rwa [← one]
      · cases goes

/-- A page is followed by another exactly if one row too many was found. -/
theorem fetchPage_next {ρ : Type} {found : List ρ} {limit : Nat} {direction : SortDirection} {fingerprint : String}
    {cursorFor : ρ → String → SortDirection → String → Except PaginationError String} {page : Paginated ρ}
    (fetched : fetchPage found limit cursorFor sortBy direction fingerprint = .ok page) :
    page.nextCursor.isSome ↔ limit < found.length := by
  unfold fetchPage at fetched
  split at fetched
  next more =>
    dsimp only at fetched
    split at fetched
    next last final =>
      cases made : cursorFor last sortBy direction fingerprint with
      | error error =>
        rw [made] at fetched
        cases fetched
      | ok nextCursor =>
        rw [made] at fetched
        cases fetched
        simp [more]
    next => cases fetched
  next whole =>
    cases fetched
    simp [whole]

/-- The first page is followed by another if the selection does not fit on it. -/
theorem list_first {page : Paginated Record}
    (answered : list platform collation tenantId sortBy filters { query with cursor := none } table.rows = .ok page) :
    page.nextCursor.isSome ↔ query.size < (table.selection tenantId filters).length := by
  have whole : (collation.ordered table.rows
      (TenantScoping.scopeWhere (some (composed (filters.predicates ++ []))) tenantId)
      (buildOrderBy sortBy query.direction)).length = (table.selection tenantId filters).length := by
    rw [Collation.ordered_perm.length_eq, Table.selection]
    congr 1
    apply List.filter_congr
    intro row _
    rw [Bool.eq_iff_iff, combined_matches]
    simp [selected]
  have next := fetchPage_next answered
  rw [next]
  change query.size < ((collation.ordered table.rows
      (TenantScoping.scopeWhere (some (composed (filters.predicates ++ []))) tenantId)
      (buildOrderBy sortBy query.direction)).take (query.size + 1)).length ↔ _
  rw [List.length_take, whole]
  omega

theorem follow_done {fetch : Nat → Option String → Except PaginationError (Paginated Record)} {count : Nat}
    (ended : (follow fetch count).next = .done) (more : Nat) : (follow fetch (count + more)).next = .done := by
  induction more with
  | zero => exact ended
  | succ more ih =>
    rw [← Nat.add_assoc, follow, ih]
    exact ih

/-- A cursor is issued exactly if the selection does not fit on one page. -/
theorem issued_iff : (∃ count cursor, (walkOver platform collation tenantId filters query table count).next =
      .request (some cursor)) ↔ query.size < (table.selection tenantId filters).length := by
  obtain ⟨page, next, answered, _, _⟩ := @list_stretch platform collation tenantId sortBy filters query table none (by simp)
  rw [Option.map_none] at answered
  have first : (walkOver platform collation tenantId filters query table 1).next =
      (next.map (cursorOf platform sortBy query.direction (filterFingerprint platform filters.covered))).elim .done
        fun cursor => .request (some cursor) := by
    rw [walkOver, walk, follow, follow]
    dsimp only
    rewrite [answered]
    cases next <;> rfl
  have fits := list_first answered
  dsimp only at fits
  rw [← fits]
  cases next with
  | none =>
    refine ⟨?_, by simp⟩
    rintro ⟨count, cursor, issued⟩
    cases count with
    | zero => cases issued
    | succ count =>
      have ended := follow_done first count
      rw [Nat.add_comm] at ended
      rw [walkOver, walk, ended] at issued
      cases issued
  | some place => exact ⟨fun _ => rfl, fun _ => ⟨1, _, first⟩⟩

/-- An issued cursor continues the list under filters with the same fingerprint, and is refused under others. -/
theorem issued_refused {count : Nat} {cursor : String} (presented : Filters)
    (issued : (walkOver platform collation tenantId filters query table count).next = .request (some cursor)) :
    (∀ (other : PageQueryDto) (rows : List Record),
      list platform collation tenantId sortBy presented { other with cursor := some cursor } rows =
        .error (.badRequest INVALID_CURSOR)) ↔
      filterFingerprint platform filters.covered ≠ filterFingerprint platform presented.covered := by
  rcases @walk_state platform collation tenantId sortBy filters query (fun _ => table) count with ⟨last, going⟩ | ⟨ended, -⟩
  · rw [going.next] at issued
    cases last with
    | none => cases issued
    | some place =>
      cases issued
      have named := going.named place rfl
      constructor
      · intro refused same
        obtain ⟨page, next, answered, _⟩ := @list_stretch platform collation tenantId sortBy presented query table (some place)
          going.named
        rw [Option.map_some, ← same, refused query table.rows] at answered
        cases answered
      · intro apart other rows
        obtain ⟨milliseconds, dated, _⟩ := named.dated
        obtain ⟨id, identified, _⟩ := named.identified
        have made : cursorOf platform sortBy query.direction (filterFingerprint platform filters.covered) place =
            encodeCursor platform sortBy query.direction (.number milliseconds) id
              (filterFingerprint platform filters.covered) := by
          rw [show place = (.dateTime milliseconds, .text id) from Prod.ext dated identified, cursorOf]
        rw [made]
        rcases @decodeCursor_total platform (encodeCursor platform sortBy query.direction (.number milliseconds) id
            (filterFingerprint platform filters.covered))
          ⟨sortBy, other.direction, filterFingerprint platform presented.covered⟩ with ⟨decoded, accepted⟩ | refused
        · obtain ⟨_, _, same⟩ := encodeCursor_addressed accepted
          exact absurd same apart
        · change (resolveListContinuation platform collation _ sortBy other.direction presented.covered).bind _ = _
          simp only [resolveListContinuation, refused, bind, Except.bind, invalidCursor]
  · rw [walkOver, ended] at issued
    cases issued

end Unchanged

/-- The filters that the query of a booking list may carry. -/
structure BookingFilters where
  status : Option String := none
  serviceId : Option String := none
  customerId : Option String := none
  orderId : Option String := none
  deriving DecidableEq

namespace BookingFilters

/-- What the query supplies. -/
def supplied (given : BookingFilters) : Fields (Option Scalar) :=
  [("status", text given.status), ("serviceId", text given.serviceId), ("customerId", text given.customerId),
    ("orderId", text given.orderId)]

/-- What the service reads of it. -/
def compared (given : BookingFilters) : Fields (Option Scalar) :=
  [("status", text given.status), ("serviceId", text given.serviceId), ("customerId", text given.customerId)]

end BookingFilters

/-- The row has the values that are given for its columns. -/
def Satisfies (given : Fields (Option Scalar)) (row : Record) : Prop :=
  ∀ field ∈ given, ∀ value ∈ field.2, row field.1 = value

instance (given : Fields (Option Scalar)) (row : Record) : Decidable (Satisfies given row) :=
  inferInstanceAs (Decidable (∀ field ∈ given, ∀ value ∈ field.2, row field.1 = value))

/-- A booking of the tenant with the values that are given. -/
def Wanted (tenantId : String) (given : Fields (Option Scalar)) (row : Record) : Prop :=
  row "tenantId" = .text tenantId ∧ Satisfies given row

instance (tenantId : String) (given : Fields (Option Scalar)) (row : Record) : Decidable (Wanted tenantId given row) :=
  inferInstanceAs (Decidable (_ ∧ _))

/-- An endpoint that compares columns selects the rows with the values that are given. -/
theorem selected_equality {given : Fields (Option Scalar)} {row : Record}
    (stored : ∀ field ∈ given, ∀ value ∈ field.2, value ≠ .null) :
    selected tenantId (equality given) row = true ↔ Wanted tenantId given row := by
  have compared : ((equality given).predicates.all fun predicate => predicate.matches row) = true ↔
      ∀ field ∈ given, ∀ value ∈ field.2, (equals field.1 value).eval row = some true := by
    have fields : WhereInput.matches (given.filterMap fun field => field.2.map fun value => (field.1, equals field.1 value))
          row = true ↔ ∀ field ∈ given, ∀ value ∈ field.2, (equals field.1 value).eval row = some true := by
      rw [WhereInput.matches_iff]
      constructor
      · intro all field member value known
        exact all (field.1, equals field.1 value) (List.mem_filterMap.mpr ⟨field, member, by rw [known]; rfl⟩)
      · intro all condition found
        obtain ⟨field, member, made⟩ := List.mem_filterMap.mp found
        obtain ⟨value, known, rfl⟩ := Option.map_eq_some_iff.mp made
        exact all field member value known
    rw [← fields, equality]
    dsimp only
    split
    next empty =>
      rw [List.isEmpty_iff.mp empty]
      simp
    next => simp
  rw [selected, Bool.and_eq_true, decide_eq_true_eq, compared, Wanted, Satisfies]
  refine and_congr_right fun _ => forall₂_congr fun field member => forall₂_congr fun value known => ?_
  exact equals_true (stored field member value known)

theorem BookingFilters.stored (given : BookingFilters) : ∀ field ∈ given.compared, ∀ value ∈ field.2, value ≠ .null := by
  intro field member value known null
  subst null
  simp only [compared, List.mem_cons, List.not_mem_nil, or_false] at member
  rcases member with rfl | rfl | rfl <;> simp [text] at known

theorem satisfies_supplied {given : BookingFilters} {row : Record} :
    Satisfies given.supplied row ↔ Satisfies given.compared row ∧ ∀ orderId ∈ given.orderId, row "orderId" = .text orderId := by
  simp [Satisfies, BookingFilters.supplied, BookingFilters.compared, text, and_assoc]

/-- What a client has been given that follows the cursors of a booking list over a
table that does not change. -/
def bookingWalk (platform : Platform) (collation : Collation) (tenantId : String) (query : PageQueryDto) (given : BookingFilters)
    (bookings : Table "startAt") : Nat → Progress :=
  follow fun _ cursor => listBookings platform collation tenantId { query with cursor := cursor } given.status given.serviceId
    given.customerId given.orderId bookings.rows

/-- The walk returns the bookings that satisfy every filter, each once, and its
cursors are refused under other filters. -/
structure FiltersHonoured (platform : Platform) (collation : Collation) (tenantId : String) (query : PageQueryDto)
    (issued presented : BookingFilters) (bookings : Table "startAt") : Prop where
  ends : ∃ count, (bookingWalk platform collation tenantId query issued bookings count).next = .done
  once : ∀ count, (bookingWalk platform collation tenantId query issued bookings count).next = .done →
    ((bookingWalk platform collation tenantId query issued bookings count).rows.map fun row => row "id").Nodup
  filtered : ∀ count, (bookingWalk platform collation tenantId query issued bookings count).next = .done →
    ∀ row, row ∈ (bookingWalk platform collation tenantId query issued bookings count).rows ↔
      row ∈ bookings.rows ∧ Wanted tenantId issued.supplied row
  bound : presented ≠ issued → ∀ count cursor,
    (bookingWalk platform collation tenantId query issued bookings count).next = .request (some cursor) →
      ∀ (other : PageQueryDto) (rows : List Record),
        listBookings platform collation tenantId { other with cursor := some cursor } presented.status presented.serviceId
          presented.customerId presented.orderId rows = .error (.badRequest INVALID_CURSOR)

variable {issued presented : BookingFilters} {bookings : Table "startAt"}

theorem mem_selection {row : Record} : row ∈ bookings.selection tenantId (equality issued.compared) ↔
    row ∈ bookings.rows ∧ Wanted tenantId issued.compared row := by
  rw [Table.selection, List.mem_filter, selected_equality issued.stored]

theorem length_selection : (bookings.selection tenantId (equality issued.compared)).length =
    (bookings.rows.filter fun row => Wanted tenantId issued.compared row).length := by
  rw [Table.selection]
  congr 1
  apply List.filter_congr
  intro row _
  rw [Bool.eq_iff_iff, selected_equality issued.stored, decide_eq_true_iff]

/-- A booking that may be for an order. -/
private def sampleBooking (id orderId : String) (startAt : Int) : Record
  | "id" => .text id
  | "tenantId" => .text "tenant"
  | "startAt" => .dateTime startAt
  | "orderId" => .text orderId
  | _ => .null

private def sampleBookings : Table "startAt" where
  rows := [sampleBooking "a" "first" 0, sampleBooking "b" "second" 1]
  named := by
    simp only [List.mem_cons, List.not_mem_nil, or_false]
    rintro row (rfl | rfl)
    · exact ⟨⟨0, rfl, by decide⟩, "a", rfl, by decide⟩
    · exact ⟨⟨1, rfl, by decide⟩, "b", rfl, by decide⟩
  distinct := by decide

end BusinessPlatform.Pagination
