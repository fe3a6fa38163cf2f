import Mathlib

/-! Keyset pagination. Every page continues after the position of the last row of
the page before. The table may be another one at every request; what a walk has
returned then depends on positions only, never on which rows it has seen. -/

namespace BusinessPlatform.Engine.Keyset
variable {ρ κ : Type} {before : κ → κ → Prop} {position : ρ → κ}

/-- The row is strictly after the last position, if there is one. -/
def Beyond (before : κ → κ → Prop) (position : ρ → κ) (last : Option κ) (row : ρ) : Prop :=
  ∀ past ∈ last, before past (position row)

/-- A page of the table after the last position: in order, without a gap, and
naming its own last position if more rows may follow. -/
structure Stretch (before : κ → κ → Prop) (position : ρ → κ) (table : List ρ) (last : Option κ) (page : List ρ)
    (next : Option κ) : Prop where
  drawn : ∀ row ∈ page, row ∈ table ∧ Beyond before position last row
  ordered : page.Pairwise fun first second => before (position first) (position second)
  ending : ∀ past ∈ next, ∃ row ∈ page, position row = past
  behind : ∀ past ∈ next, ∀ row ∈ page, ¬ before past (position row)
  complete : ∀ row ∈ table, Beyond before position last row → row ∈ page ∨ ∃ past ∈ next, before past (position row)

/-- The pages of a walk over a schedule of tables: how many, their rows, and the
last position if the walk goes on. -/
inductive Walk (before : κ → κ → Prop) (position : ρ → κ) (tables : Nat → List ρ) :
    Nat → List ρ → Option (Option κ) → Prop where
  | start : Walk before position tables 0 [] (some none)
  | page {count : Nat} {rows page : List ρ} {last next : Option κ} : Walk before position tables count rows (some last) →
      Stretch before position (tables count) last page next →
      Walk before position tables (count + 1) (rows ++ page) (next.map some)

section Probe
variable [strict : IsStrictTotalOrder κ before]

/-- One row more than the page is fetched: when it is there, the page names its
last row, otherwise nothing follows. -/
theorem Stretch.probe {table remaining : List ρ} {last : Option κ} (limit : Nat)
    (members : ∀ row, row ∈ remaining ↔ row ∈ table ∧ Beyond before position last row)
    (sorted : remaining.Pairwise fun first second => before (position first) (position second)) :
    (remaining.length ≤ limit → Stretch before position table last remaining none) ∧
      ∀ row, (remaining.take limit).getLast? = some row →
        Stretch before position table last (remaining.take limit) (some (position row)) := by
  constructor
  · intro _
    exact ⟨fun row member => (members row).mp member, sorted, nofun, nofun,
      fun row present beyond => .inl ((members row).mpr ⟨present, beyond⟩)⟩
  · intro row final
    obtain ⟨page, split⟩ := List.getLast?_eq_some_iff.mp final
    have parts : remaining = page ++ row :: remaining.drop limit := by
      have whole := List.take_append_drop limit remaining
      rw [split, List.append_assoc] at whole
      exact whole.symm
    rw [parts, List.pairwise_append] at sorted
    obtain ⟨inPage, rest, across⟩ := sorted
    have following := (List.pairwise_cons.mp rest).1
    refine ⟨fun other member => (members other).mp (List.mem_of_mem_take member), ?_, ?_, ?_, ?_⟩
    · rw [split]
      exact List.pairwise_append.mpr ⟨inPage, List.pairwise_singleton _ _, fun first member second single => by
        rw [List.mem_singleton.mp single]
        exact across first member row List.mem_cons_self⟩
    · intro past named
      cases named
      exact ⟨row, List.mem_of_getLast? final, rfl⟩
    · intro past named other member after
      cases named
      rw [split] at member
      rcases List.mem_append.mp member with early | single
      · exact strict.irrefl _ (strict.trans _ _ _ after (across other early row List.mem_cons_self))
      · rw [List.mem_singleton.mp single] at after
        exact strict.irrefl _ after
    · intro other present beyond
      have found := (members other).mpr ⟨present, beyond⟩
      rw [parts] at found
      rcases List.mem_append.mp found with early | late
      · rw [split]
        exact .inl (List.mem_append_left _ early)
      · rcases List.mem_cons.mp late with rfl | late
        · exact .inl (List.mem_of_getLast? final)
        · exact .inr ⟨_, rfl, following other late⟩

end Probe

namespace Walk
variable {tables : Nat → List ρ} {count : Nat} {rows : List ρ} {state : Option (Option κ)}

theorem drawn (walk : Walk before position tables count rows state) :
    ∀ row ∈ rows, ∃ request < count, row ∈ tables request := by
  induction walk with
  | start => nofun
  | @page count rows page last next _ stretch ih =>
    intro row member
    rcases List.mem_append.mp member with old | new
    · obtain ⟨request, made, present⟩ := ih row old
      exact ⟨request, by omega, present⟩
    · exact ⟨count, by omega, (stretch.drawn row new).1⟩

/-- Every page names a position of its own, so no page of a walk that goes on is empty. -/
theorem length_le {last : Option κ} (walk : Walk before position tables count rows state) (going : state = some last) :
    count ≤ rows.length := by
  induction walk generalizing last with
  | start => exact Nat.zero_le _
  | @page count rows page past next _ stretch ih =>
    have old := ih rfl
    cases next with
    | none => cases going
    | some position =>
      obtain ⟨row, member, -⟩ := stretch.ending position rfl
      have new := List.length_pos_of_mem member
      rw [List.length_append]
      omega

/-- A position that is occupied at every request has been returned, or the walk
has not come to it. -/
theorem complete {place : κ} (walk : Walk before position tables count rows state)
    (occupied : ∀ request < count, ∃ row ∈ tables request, position row = place) :
    (∃ row ∈ rows, position row = place) ∨ ∃ last, state = some last ∧ ∀ past ∈ last, before past place := by
  induction walk with
  | start => exact .inr ⟨none, rfl, nofun⟩
  | @page count rows page last next _ stretch ih =>
    rcases ih fun request made => occupied request (by omega) with ⟨row, member, same⟩ | ⟨past, going, ahead⟩
    · exact .inl ⟨row, List.mem_append_left _ member, same⟩
    · cases going
      obtain ⟨row, present, same⟩ := occupied count (by omega)
      have beyond : Beyond before position last row := fun past named => same ▸ ahead past named
      rcases stretch.complete row present beyond with member | ⟨past, named, after⟩
      · exact .inl ⟨row, List.mem_append_right _ member, same⟩
      · cases next with
        | none => cases named
        | some other =>
          cases named
          exact .inr ⟨some past, rfl, fun other named => by cases named; exact same ▸ after⟩

variable [strict : IsStrictTotalOrder κ before]

theorem behind {last : Option κ} (walk : Walk before position tables count rows state) (going : state = some last) :
    ∀ row ∈ rows, ∃ past ∈ last, ¬ before past (position row) := by
  induction walk generalizing last with
  | start => nofun
  | @page count rows page old next _ stretch ih =>
    intro row member
    cases next with
    | none => cases going
    | some past =>
      cases going
      refine ⟨past, rfl, ?_⟩
      rcases List.mem_append.mp member with early | new
      · intro after
        obtain ⟨earlier, named, notAfter⟩ := ih rfl row early
        obtain ⟨ending, inPage, same⟩ := stretch.ending past rfl
        have beyond := (stretch.drawn ending inPage).2 earlier named
        rw [same] at beyond
        exact notAfter (strict.trans _ _ _ beyond after)
      · exact stretch.behind past rfl row new

theorem ordered (walk : Walk before position tables count rows state) :
    rows.Pairwise fun first second => before (position first) (position second) := by
  induction walk with
  | start => exact .nil
  | @page count rows page last next walk stretch ih =>
    refine List.pairwise_append.mpr ⟨ih, stretch.ordered, fun first old second new => ?_⟩
    obtain ⟨past, named, notAfter⟩ := walk.behind rfl first old
    have beyond := (stretch.drawn second new).2 past named
    by_cases same : position first = past
    · rwa [same]
    · by_cases less : before (position first) past
      · exact strict.trans _ _ _ less beyond
      · exact absurd (strict.trichotomous _ _ less notAfter) same

/-- A walk over a table that does not change makes no more requests than the
table has rows, before its last one. -/
theorem bounded {table : List ρ} {last : Option κ} (walk : Walk before position tables count rows state)
    (going : state = some last) (unchanged : ∀ request, tables request = table) : count ≤ table.length := by
  have distinct : rows.Nodup := by
    apply walk.ordered.imp
    intro first second less same
    rw [same] at less
    exact strict.irrefl _ less
  have contained : rows ⊆ table := fun row member => by
    obtain ⟨request, -, present⟩ := walk.drawn row member
    rwa [unchanged] at present
  exact Nat.le_trans (walk.length_le going) (distinct.subperm contained).length_le

end Walk
end BusinessPlatform.Engine.Keyset
