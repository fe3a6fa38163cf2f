import BusinessPlatform.Engine.Atomicity
import BusinessPlatform.Engine.Indexes
import BusinessPlatform.Engine.Keyset
import BusinessPlatform.PosFeed

/-! A device that pulls the feed again and again, each time from the cursor that it was
given, while events are appended. -/

namespace BusinessPlatform.PosSyncService
open Engine Engine.Keyset

/-- The events in the order of the table. -/
abbrev feedEvents (db : Database feed) : List PosFeedEvent := (db.table FeedModel.posFeedEvent).rows

variable {events : List PosFeedEvent} {db : Database feed} {tables : Nat → Database feed} {tenantId : Id} {cursor : Int}
  {count : Nat}

/-- What a pull that finds these rows is answered. -/
def answer (db : Database feed) (tenantId : Id) (cursor : Rat) : Except (Failure HttpException) FeedPage :=
  ((pullFeed tenantId cursor).evaluate none ⟨db, 0, 0⟩).1

/-- Pulls of one device, each from the cursor that the one before has returned, with
the rows that each of them finds: the last cursor and everything delivered. -/
def pullAll (tables : Nat → Database feed) (tenantId : Id) (since : Rat) :
    Nat → Except (Failure HttpException) (Rat × List FeedEntry)
  | 0 => .ok (since, [])
  | count + 1 => do
    let (cursor, delivered) ← pullAll tables tenantId since count
    let page ← answer (tables count) tenantId cursor
    pure (page.nextCursor, delivered ++ page.entries)

/-- The events of the tenant. -/
def ofTenant (events : List PosFeedEvent) (tenantId : Id) : List PosFeedEvent :=
  events.filter fun event => event.tenantId = tenantId

/-- Rows that the table can hold: no two events of a tenant have the same number. -/
structure Stored (db : Database feed) : Prop where
  checked : ∀ event ∈ feedEvents db, FeedModel.check (m := .posFeedEvent) event = true
  unique : db.Unique FeedModel.posFeedEvent

/-- Between two pulls events are appended, with greater numbers than all that the
tenant has. -/
def Appends (tables : Nat → Database feed) : Prop :=
  ∀ count, ∃ new, (feedEvents (tables (count + 1))).Perm (feedEvents (tables count) ++ new) ∧
    ∀ event ∈ new, ∀ old ∈ feedEvents (tables count), old.tenantId = event.tenantId → old.feedSeq < event.feedSeq

/-- No two of the events have the same number. -/
def Sequenced (events : List PosFeedEvent) : Prop := (events.map PosFeedEvent.feedSeq).Nodup

theorem Stored.sequenced (stored : Stored db) (tenantId : Id) : Sequenced (ofTenant (feedEvents db) tenantId) := by
  have distinct : (feedEvents db).Nodup := (db.table FeedModel.posFeedEvent).distinct.of_map
  refine (distinct.filter _).map_on fun first one second two same => ?_
  obtain ⟨there, tenant⟩ := List.mem_filter.mp one
  obtain ⟨here, other⟩ := List.mem_filter.mp two
  have entry : FeedModel.Index.feedSeq first.tenantId first.feedSeq = .feedSeq second.tenantId second.feedSeq := by
    rw [same, of_decide_eq_true tenant, of_decide_eq_true other]
  exact stored.unique first there second here _ (List.mem_singleton.mpr rfl) (List.mem_singleton.mpr entry)

theorem Stored.sendable (stored : Stored db) {event : PosFeedEvent} (member : event ∈ feedEvents db) :
    event.feedSeq ≤ 2147483647 := by
  have checked := stored.checked event member
  simp only [FeedModel.check, Model.fitsInteger, Bool.and_eq_true, decide_eq_true_eq] at checked
  exact checked.2.2

/-- What is left after a cursor, in order. -/
def remaining (events : List PosFeedEvent) (tenantId : Id) (cursor : Int) : List PosFeedEvent :=
  (events.filter fun event => cursor < event.feedSeq && event.tenantId = tenantId).insertionSort
    fun first second => first.feedSeq ≤ second.feedSeq

/-- The cursor after a page: the number of its last event. -/
def nextCursor (page : List PosFeedEvent) (cursor : Int) : Int := (page.getLast?.map PosFeedEvent.feedSeq).getD cursor

private theorem answer_valid (positive : 0 ≤ cursor) : answer db tenantId cursor =
    ((Prisma.sendInteger cursor >>= fun _ => do
      let events ← Program.findMany (S := feed) FeedModel.posFeedEvent fun event =>
        (cursor : Rat) < event.feedSeq && event.tenantId = tenantId
      let entries := firstPage events
      pure ⟨entries.map PosFeedEvent.entry, (entries.getLast?.map fun event => (event.feedSeq : Rat)).getD cursor⟩ :
        Program feed HttpException FeedPage).evaluate none ⟨db, 0, 0⟩).1 := by
  have valid : (!(cursor : Rat).isInt || decide ((cursor : Rat) < 0)) = false := by
    simpa [Rat.isInt] using positive
  rw [answer, pullFeed, valid]
  rfl

theorem answer_unsent (large : 2147483647 < cursor) : answer db tenantId cursor = .error (.database .validation) := by
  have unsent : Prisma.sendable cursor = false := by
    simp only [Prisma.sendable, Bool.and_eq_false_iff, decide_eq_false_iff_not]
    omega
  rw [answer_valid (by omega), Prisma.sendInteger, unsent]
  rfl

theorem answer_eq (positive : 0 ≤ cursor) (fits : cursor ≤ 2147483647) : answer db tenantId cursor =
    .ok ⟨((remaining (feedEvents db) tenantId cursor).take 100).map PosFeedEvent.entry,
      nextCursor ((remaining (feedEvents db) tenantId cursor).take 100) cursor⟩ := by
  have sent : Prisma.sendable cursor = true := by
    simp only [Prisma.sendable, Bool.and_eq_true, decide_eq_true_eq]
    omega
  have listed : ((feedEvents db).filter fun event => (cursor : Rat) < event.feedSeq && event.tenantId = tenantId) =
      (feedEvents db).filter fun event => cursor < event.feedSeq && event.tenantId = tenantId :=
    List.filter_congr fun event _ => by rw [decide_eq_decide.mpr Int.cast_lt]
  have number (page : List PosFeedEvent) :
      (page.getLast?.map fun event => (event.feedSeq : Rat)).getD cursor = nextCursor page cursor := by
    rw [nextCursor]
    cases page.getLast? with
    | none => rfl
    | some event => rfl
  have pulled : answer db tenantId cursor =
      .ok ⟨(firstPage ((feedEvents db).filter fun event => (cursor : Rat) < event.feedSeq && event.tenantId = tenantId)).map
          PosFeedEvent.entry,
        ((firstPage ((feedEvents db).filter fun event => (cursor : Rat) < event.feedSeq && event.tenantId = tenantId)).getLast?.map
          fun event => (event.feedSeq : Rat)).getD cursor⟩ := by
    rw [answer_valid positive, Prisma.sendInteger, if_pos sent, pure_bind]
    rfl
  rw [pulled, listed, number]
  rfl

theorem mem_remaining {event : PosFeedEvent} : event ∈ remaining events tenantId cursor ↔
    event ∈ ofTenant events tenantId ∧ Beyond (· < ·) PosFeedEvent.feedSeq (some cursor) event := by
  rw [remaining, (List.perm_insertionSort _ _).mem_iff]
  simp only [ofTenant, List.mem_filter, Bool.and_eq_true, decide_eq_true_eq, Beyond, Option.mem_def, Option.some.injEq,
    forall_eq']
  exact ⟨fun ⟨member, after, tenant⟩ => ⟨⟨member, tenant⟩, after⟩, fun ⟨⟨member, tenant⟩, after⟩ => ⟨member, after, tenant⟩⟩

theorem remaining_sorted (sequenced : Sequenced (ofTenant events tenantId)) :
    (remaining events tenantId cursor).Pairwise fun first second => first.feedSeq < second.feedSeq := by
  have sorted := List.pairwise_insertionSort (fun first second : PosFeedEvent => first.feedSeq ≤ second.feedSeq)
    (events.filter fun event => cursor < event.feedSeq && event.tenantId = tenantId)
  have distinct : ((remaining events tenantId cursor).map PosFeedEvent.feedSeq).Nodup := by
    rw [remaining, ((List.perm_insertionSort _ _).map _).nodup_iff, ← List.filter_filter]
    exact List.Nodup.sublist (List.filter_sublist.map _) sequenced
  exact (sorted.and (List.pairwise_map.mp distinct)).imp fun both => lt_of_le_of_ne both.1 both.2

theorem remaining_stretch (sequenced : Sequenced (ofTenant events tenantId)) :
    Stretch (· < ·) PosFeedEvent.feedSeq (ofTenant events tenantId) (some cursor)
      ((remaining events tenantId cursor).take 100)
      (((remaining events tenantId cursor).take 100).getLast?.map PosFeedEvent.feedSeq) := by
  have probe := @Stretch.probe _ _ (· < ·) PosFeedEvent.feedSeq _ _ (remaining events tenantId cursor) _ 100
    (fun _ => mem_remaining) (remaining_sorted sequenced)
  cases last : ((remaining events tenantId cursor).take 100).getLast? with
  | some row => exact probe.2 row last
  | none =>
    have empty := List.getLast?_eq_none_iff.mp last
    have none : remaining events tenantId cursor = [] := by simpa using empty
    rw [empty]
    rw [none] at probe
    exact probe.1 (Nat.zero_le _)

/-- The cursor does not move back, and it stays on an empty page alone. -/
theorem le_nextCursor : cursor ≤ nextCursor ((remaining events tenantId cursor).take 100) cursor := by
  rw [nextCursor]
  cases last : ((remaining events tenantId cursor).take 100).getLast? with
  | none => exact le_rfl
  | some event =>
    have beyond := (mem_remaining.mp (List.mem_of_mem_take (List.mem_of_getLast? last))).2
    exact (beyond cursor rfl).le

/-- What has been delivered from one cursor to another: each event of the tenant between
them once, in ascending order. -/
structure Delivered (events : List PosFeedEvent) (tenantId : Id) (since cursor : Int) (entries : List FeedEntry) : Prop where
  ascending : entries.Pairwise fun first second => first.feedSeq < second.feedSeq
  exact : ∀ entry, entry ∈ entries ↔
    ∃ event ∈ ofTenant events tenantId, since < event.feedSeq ∧ event.feedSeq ≤ cursor ∧ event.entry = entry

variable {since : Int} {entries : List FeedEntry}

theorem Delivered.pull (delivered : Delivered events tenantId since cursor entries)
    (sequenced : Sequenced (ofTenant events tenantId)) (begun : since ≤ cursor) :
    Delivered events tenantId since (nextCursor ((remaining events tenantId cursor).take 100) cursor)
      (entries ++ ((remaining events tenantId cursor).take 100).map PosFeedEvent.entry) := by
  have stretch := @remaining_stretch events tenantId cursor sequenced
  have inside {event : PosFeedEvent} (member : event ∈ (remaining events tenantId cursor).take 100) :
      cursor < event.feedSeq ∧ event.feedSeq ≤ nextCursor ((remaining events tenantId cursor).take 100) cursor := by
    refine ⟨(stretch.drawn event member).2 cursor rfl, ?_⟩
    rw [nextCursor]
    cases last : ((remaining events tenantId cursor).take 100).getLast? with
    | none =>
      rw [List.getLast?_eq_none_iff.mp last] at member
      cases member
    | some final => exact not_lt.mp (stretch.behind _ (by rw [last]; rfl) event member)
  constructor
  · rw [List.pairwise_append, List.pairwise_map]
    refine ⟨delivered.ascending, stretch.ordered, fun first before second after => ?_⟩
    obtain ⟨event, _, _, behind, rfl⟩ := (delivered.exact first).mp before
    obtain ⟨next, member, rfl⟩ := List.mem_map.mp after
    exact lt_of_le_of_lt behind (inside member).1
  · intro entry
    rw [List.mem_append, List.mem_map]
    constructor
    · rintro (before | ⟨event, member, rfl⟩)
      · obtain ⟨event, there, after, behind, rfl⟩ := (delivered.exact entry).mp before
        exact ⟨event, there, after, behind.trans le_nextCursor, rfl⟩
      · exact ⟨event, (stretch.drawn event member).1, lt_of_le_of_lt begun (inside member).1, (inside member).2, rfl⟩
    · rintro ⟨event, there, after, behind, rfl⟩
      by_cases old : event.feedSeq ≤ cursor
      · exact .inl ((delivered.exact _).mpr ⟨event, there, after, old, rfl⟩)
      · have beyond : Beyond (· < ·) PosFeedEvent.feedSeq (some cursor) event := fun past named => by
          cases named
          exact not_le.mp old
        rcases stretch.complete event there beyond with member | ⟨past, named, later⟩
        · exact .inr ⟨event, member, rfl⟩
        · rw [nextCursor, named] at behind
          exact absurd later (not_lt.mpr behind)

theorem Delivered.append (delivered : Delivered events tenantId since cursor entries) {more new : List PosFeedEvent}
    (appended : more.Perm (events ++ new))
    (later : ∀ event ∈ new, ∀ old ∈ events, old.tenantId = event.tenantId → old.feedSeq < event.feedSeq)
    (named : cursor = since ∨ ∃ event ∈ ofTenant events tenantId, event.feedSeq = cursor) :
    Delivered more tenantId since cursor entries := by
  refine ⟨delivered.ascending, fun entry => (delivered.exact entry).trans ?_⟩
  have members (event : PosFeedEvent) : event ∈ ofTenant more tenantId ↔
      event ∈ ofTenant events tenantId ∨ event ∈ ofTenant new tenantId := by
    rw [ofTenant, (appended.filter _).mem_iff, List.filter_append, List.mem_append, ofTenant, ofTenant]
  constructor
  · rintro ⟨event, there, facts⟩
    exact ⟨event, (members event).mpr (.inl there), facts⟩
  · rintro ⟨event, there, after, behind, same⟩
    rcases (members event).mp there with old | added
    · exact ⟨event, old, after, behind, same⟩
    · rcases named with rfl | ⟨last, member, rfl⟩
      · omega
      · obtain ⟨old, tenant⟩ := List.mem_filter.mp member
        obtain ⟨inside, own⟩ := List.mem_filter.mp added
        have less := later event inside last old ((of_decide_eq_true tenant).trans (of_decide_eq_true own).symm)
        omega

/-- After any number of pulls: what has been delivered, and what the next pull finds. -/
structure Pulled (tables : Nat → Database feed) (tenantId : Id) (since : Int) (count : Nat) (cursor : Int)
    (entries : List FeedEntry) : Prop where
  pulled : pullAll tables tenantId since count = .ok (cursor, entries)
  begun : since ≤ cursor
  delivered : Delivered (feedEvents (tables count)) tenantId since cursor entries
  named : cursor = since ∨ ∃ event ∈ ofTenant (feedEvents (tables count)) tenantId, event.feedSeq = cursor

variable (positive : 0 ≤ since) (fits : since ≤ 2147483647) (stored : ∀ count, Stored (tables count))
include positive fits stored

theorem Pulled.answered (pulled : Pulled tables tenantId since count cursor entries) : answer (tables count) tenantId cursor =
    .ok ⟨((remaining (feedEvents (tables count)) tenantId cursor).take 100).map PosFeedEvent.entry,
      nextCursor ((remaining (feedEvents (tables count)) tenantId cursor).take 100) cursor⟩ := by
  refine answer_eq (positive.trans pulled.begun) ?_
  rcases pulled.named with rfl | ⟨event, member, rfl⟩
  · exact fits
  · exact (stored count).sendable (List.mem_filter.mp member).1

theorem Pulled.next (pulled : Pulled tables tenantId since count cursor entries) (appends : Appends tables) :
    Pulled tables tenantId since (count + 1)
      (nextCursor ((remaining (feedEvents (tables count)) tenantId cursor).take 100) cursor)
      (entries ++ ((remaining (feedEvents (tables count)) tenantId cursor).take 100).map PosFeedEvent.entry) := by
  obtain ⟨new, appended, later⟩ := appends count
  have named : nextCursor ((remaining (feedEvents (tables count)) tenantId cursor).take 100) cursor = since ∨
      ∃ event ∈ ofTenant (feedEvents (tables count)) tenantId,
        event.feedSeq = nextCursor ((remaining (feedEvents (tables count)) tenantId cursor).take 100) cursor := by
    rw [nextCursor]
    cases last : ((remaining (feedEvents (tables count)) tenantId cursor).take 100).getLast? with
    | none => exact pulled.named
    | some event => exact .inr ⟨event, (mem_remaining.mp (List.mem_of_mem_take (List.mem_of_getLast? last))).1, rfl⟩
  refine ⟨?_, pulled.begun.trans le_nextCursor, ?_, named.imp id fun ⟨event, member, same⟩ => ?_⟩
  · rw [pullAll, pulled.pulled]
    change (answer (tables count) tenantId cursor >>= _) = _
    rw [pulled.answered positive fits stored]
    rfl
  · exact (pulled.delivered.pull ((stored count).sequenced tenantId) pulled.begun).append appended later named
  · refine ⟨event, ?_, same⟩
    rw [ofTenant, (appended.filter _).mem_iff, List.filter_append]
    exact List.mem_append_left _ member

theorem pulled_all (appends : Appends tables) (count : Nat) :
    ∃ cursor entries, Pulled tables tenantId since count cursor entries := by
  induction count with
  | zero =>
    refine ⟨since, [], rfl, le_rfl, ⟨.nil, fun entry => ?_⟩, .inl rfl⟩
    simp only [List.not_mem_nil, false_iff]
    rintro ⟨event, _, after, behind, _⟩
    omega
  | succ count ih =>
    obtain ⟨cursor, entries, pulled⟩ := ih
    exact ⟨_, _, pulled.next positive fits stored appends⟩

omit positive fits stored in
theorem remaining_eq_nil :
    remaining events tenantId cursor = [] ↔ ∀ event ∈ ofTenant events tenantId, event.feedSeq ≤ cursor := by
  rw [List.eq_nil_iff_forall_not_mem]
  refine forall_congr' fun event => ?_
  rw [mem_remaining, not_and]
  refine imp_congr_right fun _ => ?_
  simp [Beyond]

omit positive fits stored in
theorem remaining_shrinks (left : remaining events tenantId cursor ≠ []) :
    (remaining events tenantId (nextCursor ((remaining events tenantId cursor).take 100) cursor)).length <
      (remaining events tenantId cursor).length := by
  obtain ⟨last, final⟩ : ∃ last, ((remaining events tenantId cursor).take 100).getLast? = some last := by
    refine Option.ne_none_iff_exists'.mp fun none => left ?_
    simpa using List.getLast?_eq_none_iff.mp none
  have member := List.mem_of_mem_take (List.mem_of_getLast? final)
  have next : nextCursor ((remaining events tenantId cursor).take 100) cursor = last.feedSeq := by rw [nextCursor, final]; rfl
  have beyond : cursor < last.feedSeq := (mem_remaining.mp member).2 cursor rfl
  have fewer : (remaining events tenantId last.feedSeq).length =
      ((remaining events tenantId cursor).filter fun event => last.feedSeq < event.feedSeq).length := by
    rw [remaining, (List.perm_insertionSort _ _).length_eq, remaining,
      ((List.perm_insertionSort _ _).filter _).length_eq, List.filter_filter]
    refine congrArg List.length (List.filter_congr fun event _ => ?_)
    rw [Bool.eq_iff_iff]
    simp only [Bool.and_eq_true, decide_eq_true_eq]
    constructor
    · rintro ⟨after, tenant⟩
      exact ⟨after, beyond.trans after, tenant⟩
    · rintro ⟨after, _, tenant⟩
      exact ⟨after, tenant⟩
  rw [next, fewer]
  exact List.length_filter_lt_length_iff_exists.mpr ⟨last, member, by simp⟩

/-- Once nothing is appended any more, some pull finds nothing left. -/
theorem Pulled.caughtUp (pulled : Pulled tables tenantId since count cursor entries) (appends : Appends tables)
    (settled : ∀ later ≥ count, tables later = tables count) :
    ∃ later ≥ count, ∃ cursor entries, Pulled tables tenantId since later cursor entries ∧
      remaining (feedEvents (tables later)) tenantId cursor = [] := by
  induction left : (remaining (feedEvents (tables count)) tenantId cursor).length using Nat.strong_induction_on
    generalizing count cursor entries with
  | _ length ih =>
    by_cases none : remaining (feedEvents (tables count)) tenantId cursor = []
    · exact ⟨count, le_rfl, cursor, entries, pulled, none⟩
    · have shrinks := remaining_shrinks none
      have same := settled (count + 1) (by omega)
      obtain ⟨later, after, found⟩ := ih _ (by rw [← left, same]; exact shrinks)
        (pulled.next positive fits stored appends) (fun later after => (settled later (by omega)).trans same.symm) rfl
      exact ⟨later, by omega, found⟩

omit positive fits stored

/-- Every pull answers, the cursor does not move back, everything up to it has been
delivered once and in order, and a pull that finds nothing left returns an empty page and
the cursor. Once nothing is appended any more, this happens. -/
structure Walks (tenantId : Id) (since : Nat) (tables : Nat → Database feed) : Prop where
  pulls : ∀ count, ∃ (cursor : Int) (delivered : List FeedEntry) (page : FeedPage),
    pullAll tables tenantId since count = .ok (cursor, delivered) ∧
    answer (tables count) tenantId cursor = .ok page ∧
    Delivered (feedEvents (tables count)) tenantId since cursor delivered ∧
    (since : Int) ≤ cursor ∧ (cursor : Rat) ≤ page.nextCursor ∧
    (page.entries = [] ↔ ∀ event ∈ ofTenant (feedEvents (tables count)) tenantId, event.feedSeq ≤ cursor) ∧
    (page.entries = [] → page.nextCursor = cursor ∧ ∀ entry, entry ∈ delivered ↔
      ∃ event ∈ ofTenant (feedEvents (tables count)) tenantId, since < event.feedSeq ∧ event.entry = entry)
  catchesUp : ∀ count, (∀ later ≥ count, tables later = tables count) →
    ∃ later ≥ count, ∃ (cursor : Int) (delivered : List FeedEntry),
      pullAll tables tenantId since later = .ok (cursor, delivered) ∧
      answer (tables later) tenantId cursor = .ok ⟨[], cursor⟩

theorem Walks.sent {since : Nat} (walks : Walks tenantId since tables) : since ≤ 2147483647 := by
  by_contra large
  obtain ⟨cursor, delivered, page, pulled, answered, _⟩ := walks.pulls 0
  obtain ⟨same, _⟩ := Prod.mk.inj (Except.ok.inj pulled)
  have begun : cursor = since := Int.cast_injective (same.symm.trans (Int.cast_natCast since).symm)
  rw [answer_unsent (by omega)] at answered
  cases answered

/-- However events are appended between the pulls, they deliver the feed exactly if the
first cursor is an INTEGER. -/
theorem feed_walk (tenantId : Id) (since : Nat) (tables : Nat → Database feed) (stored : ∀ count, Stored (tables count))
    (appends : Appends tables) : Walks tenantId since tables ↔ since ≤ 2147483647 := by
  refine ⟨Walks.sent, fun fits => ?_⟩
  have positive : (0 : Int) ≤ since := Int.natCast_nonneg since
  have fits : (since : Int) ≤ 2147483647 := by omega
  constructor
  · intro count
    obtain ⟨cursor, delivered, pulled⟩ := @pulled_all tables tenantId _ positive fits stored appends count
    refine ⟨cursor, delivered, _, pulled.pulled, pulled.answered positive fits stored, pulled.delivered, pulled.begun,
      Int.cast_le.mpr le_nextCursor, ?_, fun empty => ?_⟩
    · rw [← remaining_eq_nil]
      simp
    · have none : remaining (feedEvents (tables count)) tenantId cursor = [] := by simpa using empty
      refine ⟨by simp [none, nextCursor], fun entry => (pulled.delivered.exact entry).trans ?_⟩
      refine exists_congr fun event => and_congr_right fun there => and_congr_right fun _ => ?_
      exact and_iff_right (remaining_eq_nil.mp none event there)
  · intro count settled
    obtain ⟨cursor, delivered, pulled⟩ := @pulled_all tables tenantId _ positive fits stored appends count
    obtain ⟨later, after, cursor, delivered, pulled, none⟩ := pulled.caughtUp positive fits stored appends settled
    refine ⟨later, after, cursor, delivered, pulled.pulled, ?_⟩
    rw [pulled.answered positive fits stored, none]
    rfl

def growingEvents (count : Nat) : List PosFeedEvent :=
  (List.range (120 + min count 1)).map fun index => ⟨index, 0, index + 1, .price, 1⟩

private theorem growingEvents_distinct (count : Nat) : ((growingEvents count).map PosFeedEvent.id).Nodup := by
  rw [growingEvents, List.map_map]
  exact List.nodup_range.map fun one two same => same

/-- Events from 1 on, and one more after the first pull. -/
def growingFeed (count : Nat) : Database feed :=
  ⟨fun | .posFeedEvent => ⟨growingEvents count, growingEvents_distinct count⟩⟩

theorem feed_walk_growing : ∃ (cursor : Int) (delivered : List FeedEntry),
    pullAll growingFeed 0 0 2 = .ok (cursor, delivered) ∧ delivered.length = 121 ∧
      Delivered (feedEvents (growingFeed 2)) 0 0 cursor delivered := by
  have stored (count : Nat) : Stored (growingFeed count) := by
    refine ⟨fun event member => ?_, fun first one second two entry here there => ?_⟩
    · obtain ⟨index, inside, rfl⟩ := List.mem_map.mp member
      have less := List.mem_range.mp inside
      simp only [FeedModel.check, Model.fitsInteger, Bool.and_eq_true, decide_eq_true_eq]
      omega
    · obtain ⟨index, _, rfl⟩ := List.mem_map.mp one
      obtain ⟨other, _, rfl⟩ := List.mem_map.mp two
      have same : FeedModel.Index.feedSeq 0 (index + 1) = .feedSeq 0 (other + 1) :=
        (List.mem_singleton.mp here).symm.trans (List.mem_singleton.mp there)
      injection same with _ same
      have equal : index = other := Int.natCast_inj.mp (add_right_cancel same)
      rw [equal]
  have appends : Appends growingFeed := by
    intro count
    cases count with
    | zero =>
      refine ⟨[⟨120, 0, 121, .price, 1⟩], List.Perm.of_eq rfl, fun event new old before _ => ?_⟩
      cases List.mem_singleton.mp new
      obtain ⟨index, inside, rfl⟩ := List.mem_map.mp before
      have less := List.mem_range.mp inside
      simp only
      omega
    | succ count =>
      refine ⟨[], ?_, fun event new => absurd new List.not_mem_nil⟩
      change (growingEvents (count + 1 + 1)).Perm (growingEvents (count + 1) ++ [])
      rw [List.append_nil, growingEvents, growingEvents, show min (count + 1 + 1) 1 = min (count + 1) 1 by omega]
  obtain ⟨cursor, delivered, _, pulled, _, exact', _⟩ := ((feed_walk 0 0 growingFeed stored appends).mpr (by decide)).pulls 2
  have size : (pullAll growingFeed 0 0 2).toOption.all (fun result => result.2.length = 121) = true := by decide +kernel
  rw [show (0 : Rat) = ((0 : Nat) : Rat) from rfl] at size
  rw [pulled] at size
  exact ⟨cursor, delivered, pulled, of_decide_eq_true size, exact'⟩

/-- From the cursor 2147483648 on no pull is answered, also where nothing is left. -/
theorem feed_unsent : answer (growingFeed 0) 0 2147483648 = .error (.database .validation) ∧
    ¬ Walks 0 2147483648 fun _ => growingFeed 0 :=
  ⟨by decide +kernel, fun walks => absurd walks.sent (by decide)⟩

end BusinessPlatform.PosSyncService
