import Mathlib

/-! Keyed tables. A table cannot hold two rows with one key; rows keep the
place at which they were first stored, so an update never reorders a scan. -/

namespace BusinessPlatform.Engine

/-- Rows stored under the primary key that `key` reads from them. -/
structure Table {ρ κ : Type} (key : ρ → κ) where
  rows : List ρ
  distinct : (rows.map key).Nodup

namespace Table
variable {ρ κ : Type} {key : ρ → κ}

def empty : Table key := ⟨[], List.nodup_nil⟩

@[simp] theorem empty_rows : (empty : Table key).rows = [] := rfl

theorem ext {first second : Table key} (same : first.rows = second.rows) : first = second := by
  cases first
  cases second
  cases same
  rfl

variable [DecidableEq κ]

def find (table : Table key) (k : κ) : Option ρ :=
  table.rows.find? (fun row => key row = k)

/-- Overwrite the row that has the new row's key, or append the row. -/
def replace (key : ρ → κ) (rows : List ρ) (row : ρ) : List ρ :=
  match rows with
  | [] => [row]
  | first :: rest => if key first = key row then row :: rest else first :: replace key rest row

private theorem mem_replace_keys {rows : List ρ} {row : ρ} {k : κ}
    (member : k ∈ (replace key rows row).map key) : k = key row ∨ k ∈ rows.map key := by
  induction rows with
  | nil => simpa [replace] using member
  | cons first rest ih =>
    simp only [replace] at member
    split at member
    · simp only [List.map_cons, List.mem_cons] at member ⊢
      exact member.imp_right Or.inr
    · simp only [List.map_cons, List.mem_cons] at member ⊢
      rcases member with same | inside
      · exact Or.inr (Or.inl same)
      · exact (ih inside).imp_right Or.inr

private theorem replace_distinct {rows : List ρ} (distinct : (rows.map key).Nodup) (row : ρ) :
    ((replace key rows row).map key).Nodup := by
  induction rows with
  | nil => simp [replace]
  | cons first rest ih =>
    simp only [List.map_cons, List.nodup_cons] at distinct
    simp only [replace]
    split
    next same => simpa [← same] using distinct
    next different =>
      simp only [List.map_cons, List.nodup_cons]
      refine ⟨fun member => ?_, ih distinct.2⟩
      rcases mem_replace_keys member with same | inside
      · exact different same
      · exact distinct.1 inside

def put (table : Table key) (row : ρ) : Table key :=
  ⟨replace key table.rows row, replace_distinct table.distinct row⟩

def erase (table : Table key) (k : κ) : Table key :=
  ⟨table.rows.filter (fun row => key row ≠ k), table.distinct.sublist (List.filter_sublist.map key)⟩

omit [DecidableEq κ] in
theorem key_unique (table : Table key) {first second : ρ} (left : first ∈ table.rows)
    (right : second ∈ table.rows) (same : key first = key second) : first = second :=
  List.inj_on_of_nodup_map table.distinct left right same

@[simp] theorem find_empty (k : κ) : (empty : Table key).find k = none := rfl

theorem find_eq_some {table : Table key} {k : κ} {row : ρ} :
    table.find k = some row ↔ row ∈ table.rows ∧ key row = k := by
  constructor
  · intro found
    exact ⟨List.mem_of_find?_eq_some found, by simpa using List.find?_some found⟩
  · rintro ⟨member, rfl⟩
    cases found : table.find (key row) with
    | none =>
      have absent := List.find?_eq_none.mp found row member
      simp at absent
    | some other =>
      have same : key other = key row := by simpa using List.find?_some found
      exact congrArg some (table.key_unique (List.mem_of_find?_eq_some found) member same)

theorem find_eq_none {table : Table key} {k : κ} :
    table.find k = none ↔ ∀ row ∈ table.rows, key row ≠ k := by
  simp [find]

theorem mem_put {table : Table key} {row other : ρ} :
    other ∈ (table.put row).rows ↔ other = row ∨ other ∈ table.rows ∧ key other ≠ key row := by
  obtain ⟨rows, distinct⟩ := table
  simp only [put]
  induction rows with
  | nil => simp [replace]
  | cons first rest ih =>
    simp only [List.map_cons, List.nodup_cons, List.mem_map, not_exists, not_and] at distinct
    simp only [replace]
    split
    next same =>
      simp only [List.mem_cons]
      constructor
      · rintro (here | later)
        · exact Or.inl here
        · exact Or.inr ⟨Or.inr later, fun clash => distinct.1 other later (clash.trans same.symm)⟩
      · rintro (here | ⟨rfl | later, different⟩)
        · exact Or.inl here
        · exact absurd same different
        · exact Or.inr later
    next different =>
      simp only [List.mem_cons, ih distinct.2]
      constructor
      · rintro (rfl | here | ⟨later, apart⟩)
        · exact Or.inr ⟨Or.inl rfl, different⟩
        · exact Or.inl here
        · exact Or.inr ⟨Or.inr later, apart⟩
      · rintro (here | ⟨rfl | later, apart⟩)
        · exact Or.inr (Or.inl here)
        · exact Or.inl rfl
        · exact Or.inr (Or.inr ⟨later, apart⟩)

theorem mem_erase {table : Table key} {k : κ} {row : ρ} :
    row ∈ (table.erase k).rows ↔ row ∈ table.rows ∧ key row ≠ k := by
  simp [erase]

@[simp] theorem find_put_same (table : Table key) (row : ρ) : (table.put row).find (key row) = some row :=
  find_eq_some.mpr ⟨mem_put.mpr (Or.inl rfl), rfl⟩

theorem find_put (table : Table key) (row : ρ) (k : κ) :
    (table.put row).find k = if key row = k then some row else table.find k := by
  split
  next same => subst same; exact find_put_same table row
  next different =>
    apply Option.ext
    intro other
    rw [find_eq_some, find_eq_some, mem_put]
    constructor
    · rintro ⟨rfl | ⟨member, _⟩, same⟩
      · exact absurd same different
      · exact ⟨member, same⟩
    · rintro ⟨member, rfl⟩
      exact ⟨Or.inr ⟨member, Ne.symm different⟩, rfl⟩

theorem find_put_other (table : Table key) {row : ρ} {k : κ} (different : key row ≠ k) :
    (table.put row).find k = table.find k := by
  rw [find_put, if_neg different]

theorem find_erase (table : Table key) (k other : κ) :
    (table.erase k).find other = if k = other then none else table.find other := by
  apply Option.ext
  intro row
  rw [find_eq_some, mem_erase]
  split
  next same => subst same; simp
  next different =>
    rw [find_eq_some]
    exact ⟨fun ⟨⟨member, _⟩, same⟩ => ⟨member, same⟩,
      fun ⟨member, same⟩ => ⟨⟨member, by rw [same]; exact Ne.symm different⟩, same⟩⟩

/-- A filter that fixes the key matches the row of that key or none. -/
theorem filter_key (table : Table key) {filter : ρ → Bool} {k : κ} (only : ∀ row, filter row = true → key row = k) :
    (table.rows.filter filter = [] ∧ ∀ row, table.find k = some row → filter row = false) ∨
      ∃ row, table.find k = some row ∧ filter row = true ∧ table.rows.filter filter = [row] := by
  cases found : table.find k with
  | none =>
    refine .inl ⟨List.filter_eq_nil_iff.mpr fun row member matched => ?_, nofun⟩
    exact find_eq_none.mp found row member (only row matched)
  | some row =>
    obtain ⟨member, here⟩ := find_eq_some.mp found
    cases matched : filter row with
    | false =>
      refine .inl ⟨List.filter_eq_nil_iff.mpr fun other inside accepted => ?_, ?_⟩
      · have same := table.key_unique inside member ((only other accepted).trans here.symm)
        simp [same, matched] at accepted
      · rintro _ ⟨⟩
        exact matched
    | true =>
      refine .inr ⟨row, rfl, matched, ?_⟩
      have unique : ∀ other ∈ table.rows.filter filter, other = row := fun other inside =>
        have ⟨inside, accepted⟩ := List.mem_filter.mp inside
        table.key_unique inside member ((only other accepted).trans here.symm)
      have nodup : (table.rows.filter filter).Nodup := (List.Nodup.of_map _ table.distinct).filter _
      have present := List.mem_filter.mpr ⟨member, matched⟩
      cases listed : table.rows.filter filter with
      | nil => simp [listed] at present
      | cons first rest =>
        rw [listed] at unique nodup
        have head := unique first (List.mem_cons_self ..)
        cases rest with
        | nil => rw [head]
        | cons second rest =>
          have next := unique second (List.mem_cons_of_mem _ (List.mem_cons_self ..))
          simp [head, next] at nodup

theorem find_filter (table : Table key) {filter : ρ → Bool} {k : κ} {row : ρ}
    (only : ∀ row, filter row = true → key row = k) (found : table.find k = some row) (matched : filter row = true) :
    table.rows.find? filter = some row := by
  rcases table.filter_key only with ⟨_, unmatched⟩ | ⟨other, there, _, listed⟩
  · cases (unmatched row found).symm.trans matched
  · cases found.symm.trans there
    rw [← List.head?_filter, listed]
    rfl

omit [DecidableEq κ] in
theorem filter_only (table : Table key) {filter : ρ → Bool} {row : ρ} (member : row ∈ table.rows)
    (matched : filter row = true) (only : ∀ other ∈ table.rows, filter other = true → key other = key row) :
    table.rows.filter filter = [row] := by
  refine List.perm_singleton.mp ((List.perm_ext_iff_of_nodup (table.distinct.of_map.filter _)
    (List.nodup_singleton _)).mpr fun other => ?_)
  rw [List.mem_filter, List.mem_singleton]
  constructor
  · rintro ⟨inside, same⟩
    exact table.key_unique inside member (only other inside same)
  · rintro rfl
    exact ⟨member, matched⟩

/-- A scan that lists neither a new row nor the row it replaces stays as it was. -/
theorem filter_put {table : Table key} {row : ρ} {filter : ρ → Bool} (unlisted : filter row = false)
    (replaced : ∀ old, table.find (key row) = some old → filter old = false) :
    (table.put row).rows.filter filter = table.rows.filter filter := by
  obtain ⟨rows, distinct⟩ := table
  simp only [put, find] at replaced ⊢
  induction rows with
  | nil => simp [replace, unlisted]
  | cons first rest ih =>
    simp only [List.map_cons, List.nodup_cons] at distinct
    simp only [replace]
    split
    next same =>
      have old := replaced first (List.find?_cons_of_pos (by simpa using same))
      simp [unlisted, old]
    next different =>
      rw [List.find?_cons_of_neg (by simpa using different)] at replaced
      rw [List.filter_cons, List.filter_cons, ih distinct.2 replaced]

theorem filter_erase {table : Table key} {k : κ} {filter : ρ → Bool}
    (unlisted : ∀ row, table.find k = some row → filter row = false) :
    (table.erase k).rows.filter filter = table.rows.filter filter := by
  rw [erase, List.filter_filter]
  refine List.filter_congr fun row member => ?_
  by_cases same : key row = k
  · simp [unlisted row (find_eq_some.mpr ⟨member, same⟩)]
  · simp [same]

def putAll (table : Table key) (rows : List ρ) : Table key := rows.foldl put table

@[simp] theorem putAll_nil (table : Table key) : table.putAll [] = table := rfl

@[simp] theorem putAll_cons (table : Table key) (row : ρ) (rows : List ρ) :
    table.putAll (row :: rows) = (table.put row).putAll rows := rfl

theorem find_putAll_other (table : Table key) {rows : List ρ} {k : κ} (absent : k ∉ rows.map key) :
    (table.putAll rows).find k = table.find k := by
  induction rows generalizing table with
  | nil => rfl
  | cons row rest ih =>
    rw [List.map_cons, List.mem_cons, not_or] at absent
    rw [putAll_cons, ih _ absent.2, find_put_other _ (Ne.symm absent.1)]

theorem find_putAll (table : Table key) {rows : List ρ} {k : κ} (present : k ∈ rows.map key) :
    ∃ row ∈ rows, key row = k ∧ (table.putAll rows).find k = some row := by
  induction rows generalizing table with
  | nil => cases present
  | cons row rest ih =>
    by_cases later : k ∈ rest.map key
    · obtain ⟨found, member, same, stored⟩ := ih (table.put row) later
      exact ⟨found, List.mem_cons_of_mem _ member, same, stored⟩
    · have same : key row = k := ((List.mem_cons.mp present).resolve_right later).symm
      refine ⟨row, List.mem_cons_self .., same, ?_⟩
      rw [putAll_cons, find_putAll_other _ later, ← same, find_put_same]

theorem find_putAll_mem (table : Table key) {rows : List ρ} {row : ρ} (distinct : (rows.map key).Nodup)
    (member : row ∈ rows) : (table.putAll rows).find (key row) = some row := by
  obtain ⟨found, inside, same, stored⟩ := table.find_putAll (List.mem_map_of_mem member : key row ∈ rows.map key)
  rw [stored, List.inj_on_of_nodup_map distinct inside member same]

/-- The order in which rows with distinct keys are stored does not matter. -/
theorem find_putAll_perm (table : Table key) {first second : List ρ} (same : first.Perm second)
    (distinct : (first.map key).Nodup) (k : κ) : (table.putAll first).find k = (table.putAll second).find k := by
  by_cases present : k ∈ first.map key
  · obtain ⟨row, member, rfl⟩ := List.mem_map.mp present
    rw [find_putAll_mem _ distinct member, find_putAll_mem _ ((same.map key).nodup_iff.mp distinct) (same.mem_iff.mp member)]
  · rw [find_putAll_other _ present, find_putAll_other _ fun inside => present ((same.map key).mem_iff.mpr inside)]

theorem putAll_fresh (table : Table key) {rows : List ρ} (distinct : (rows.map key).Nodup)
    (fresh : ∀ row ∈ rows, table.find (key row) = none) : (table.putAll rows).rows.Perm (table.rows ++ rows) := by
  have apart : ∀ row ∈ table.rows, row ∉ rows := fun row member inside =>
    find_eq_none.mp (fresh row inside) row member rfl
  refine (List.perm_ext_iff_of_nodup (table.putAll rows).distinct.of_map
    (table.distinct.of_map.append distinct.of_map apart)).mpr fun row => ?_
  rw [List.mem_append, show row ∈ (table.putAll rows).rows ↔ (table.putAll rows).find (key row) = some row from
    (find_eq_some.trans (and_iff_left rfl)).symm]
  by_cases present : key row ∈ rows.map key
  · obtain ⟨stored, member, same, found⟩ := table.find_putAll present
    rw [found, Option.some.injEq]
    constructor
    · rintro rfl
      exact .inr member
    · rintro (earlier | inside)
      · exact absurd same.symm (find_eq_none.mp (fresh stored member) row earlier)
      · exact List.inj_on_of_nodup_map distinct member inside same
  · rw [find_putAll_other _ present, find_eq_some]
    refine ⟨fun found => .inl found.1, fun either => ⟨either.resolve_right fun inside => ?_, rfl⟩⟩
    exact present (List.mem_map_of_mem inside)

theorem filter_putAll {table : Table key} {rows : List ρ} {filter : ρ → Bool}
    (unlisted : ∀ row ∈ rows, filter row = false)
    (replaced : ∀ row ∈ rows, ∀ old, table.find (key row) = some old → filter old = false) :
    (table.putAll rows).rows.filter filter = table.rows.filter filter := by
  induction rows generalizing table with
  | nil => rfl
  | cons row rest ih =>
    have fresh := unlisted row (List.mem_cons_self ..)
    rw [putAll_cons, ih (fun other member => unlisted other (List.mem_cons_of_mem _ member)) ?_,
      filter_put fresh (replaced row (List.mem_cons_self ..))]
    intro other member old found
    rw [find_put] at found
    split at found
    next =>
      cases found
      exact fresh
    next => exact replaced other (List.mem_cons_of_mem _ member) old found

variable {M : Type} [AddCommMonoid M]

def total (table : Table key) (weight : ρ → M) : M := (table.rows.map weight).sum

omit [DecidableEq κ] in
@[simp] theorem total_empty (weight : ρ → M) : (empty : Table key).total weight = 0 := rfl

/-- Storing a row moves the total by the row's weight less the weight of the
row it replaces. The law is stated additively, so it needs no subtraction. -/
theorem total_put (table : Table key) (row : ρ) (weight : ρ → M) :
    (table.put row).total weight + ((table.find (key row)).map weight).getD 0 =
      table.total weight + weight row := by
  obtain ⟨rows, distinct⟩ := table
  simp only [total, put, find]
  induction rows with
  | nil => simp [replace]
  | cons first rest ih =>
    simp only [List.map_cons, List.nodup_cons] at distinct
    simp only [replace]
    by_cases same : key first = key row
    · simp only [same, if_true, List.map_cons, List.sum_cons, decide_true, List.find?_cons_of_pos,
        Option.map_some, Option.getD_some]
      rw [add_comm (weight row), add_right_comm, add_comm (weight first), add_right_comm]
    · simp only [same, if_false, List.map_cons, List.sum_cons, decide_false, Bool.false_eq_true,
        not_false_eq_true, List.find?_cons_of_neg, add_assoc]
      rw [ih distinct.2]

/-- Storing rows with distinct keys moves the total by their weights less the
weights of the rows that they replace. -/
theorem total_putAll (table : Table key) {rows : List ρ} (distinct : (rows.map key).Nodup) (weight : ρ → M) :
    (table.putAll rows).total weight + (rows.map fun row => ((table.find (key row)).map weight).getD 0).sum =
      table.total weight + (rows.map weight).sum := by
  induction rows generalizing table with
  | nil => simp
  | cons row rest ih =>
    rw [List.map_cons, List.nodup_cons] at distinct
    have unchanged : rest.map (fun other => (((table.put row).find (key other)).map weight).getD 0) =
        rest.map fun other => ((table.find (key other)).map weight).getD 0 := by
      refine List.map_congr_left fun other member => ?_
      have different : key row ≠ key other := fun same =>
        distinct.1 (same ▸ List.mem_map_of_mem member)
      rw [find_put_other _ different]
    have rest_total := ih (table.put row) distinct.2
    have first_total := table.total_put row weight
    rw [unchanged] at rest_total
    simp only [putAll_cons, List.map_cons, List.sum_cons]
    rw [add_left_comm, rest_total, ← add_assoc, add_comm _ ((table.put row).total weight), first_total, add_assoc]

omit [DecidableEq κ] in
theorem total_congr (table : Table key) {first second : ρ → M}
    (same : ∀ row ∈ table.rows, first row = second row) : table.total first = table.total second :=
  congrArg List.sum (List.map_congr_left same)

end Table
end BusinessPlatform.Engine
