import Mathlib

/-! Sums per key, in the order in which the keys first occur: what a map filled
by `map.set(k, (map.get(k) ?? 0) + amount)` holds. -/

namespace BusinessPlatform.Engine
variable {κ μ : Type} [DecidableEq κ]

/-- The amounts recorded under one key. -/
def amountOf [AddMonoid μ] (k : κ) (entries : List (κ × μ)) : μ :=
  (entries.map fun entry => if entry.1 = k then entry.2 else 0).sum

theorem amountOf_absent [AddMonoid μ] {entries : List (κ × μ)} {k : κ} (absent : k ∉ entries.map Prod.fst) :
    amountOf k entries = 0 := by
  refine List.sum_eq_zero fun amount listed => ?_
  obtain ⟨entry, member, rfl⟩ := List.mem_map.mp listed
  have other : entry.1 ≠ k := by
    rintro rfl
    exact absent (List.mem_map_of_mem member)
  exact if_neg other

theorem amountOf_mem [AddMonoid μ] {entries : List (κ × μ)} (distinct : (entries.map Prod.fst).Nodup) {entry : κ × μ}
    (member : entry ∈ entries) : amountOf entry.1 entries = entry.2 := by
  induction entries with
  | nil => cases member
  | cons first rest ih =>
    rw [List.map_cons, List.nodup_cons] at distinct
    have split : amountOf entry.1 (first :: rest) = (if first.1 = entry.1 then first.2 else 0) + amountOf entry.1 rest := by
      simp [amountOf]
    rcases List.mem_cons.mp member with rfl | inside
    · rw [split, if_pos rfl, amountOf_absent distinct.1, add_zero]
    · have different : first.1 ≠ entry.1 := by
        intro same
        exact distinct.1 (same ▸ List.mem_map_of_mem inside)
      rw [split, if_neg different, zero_add, ih distinct.2 inside]

theorem amountOf_perm [AddCommMonoid μ] {first second : List (κ × μ)} (same : first.Perm second) (k : κ) :
    amountOf k first = amountOf k second := (same.map _).sum_eq

theorem amountOf_flatMap [AddMonoid μ] {α : Type} (k : κ) (lines : List α) (entries : α → List (κ × μ)) :
    amountOf k (lines.flatMap entries) = (lines.map fun line => amountOf k (entries line)).sum := by
  simp only [amountOf, List.map_flatMap]
  induction lines with
  | nil => rfl
  | cons line rest ih => rw [List.flatMap_cons, List.sum_append, ih, List.map_cons, List.sum_cons]

namespace Tally

def add [Add μ] (k : κ) (amount : μ) : List (κ × μ) → List (κ × μ)
  | [] => [(k, amount)]
  | entry :: rest => if entry.1 = k then (k, entry.2 + amount) :: rest else entry :: add k amount rest

def collect [Add μ] (entries : List (κ × μ)) : List (κ × μ) :=
  entries.foldl (fun tally entry => add entry.1 entry.2 tally) []

theorem mem_keys_add [Add μ] {k other : κ} {amount : μ} {tally : List (κ × μ)} :
    other ∈ (add k amount tally).map Prod.fst ↔ other = k ∨ other ∈ tally.map Prod.fst := by
  induction tally with
  | nil => simp [add]
  | cons entry rest ih =>
    simp only [add]
    split
    next same => simp [same]
    next => simp only [List.map_cons, List.mem_cons, ih, or_left_comm]

theorem nodup_add [Add μ] {k : κ} {amount : μ} {tally : List (κ × μ)} (distinct : (tally.map Prod.fst).Nodup) :
    ((add k amount tally).map Prod.fst).Nodup := by
  induction tally with
  | nil => simp [add]
  | cons entry rest ih =>
    rw [List.map_cons, List.nodup_cons] at distinct
    simp only [add]
    split
    next same => simpa [← same] using distinct
    next different =>
      rw [List.map_cons, List.nodup_cons, mem_keys_add]
      exact ⟨by simp [different, distinct.1], ih distinct.2⟩

theorem amountOf_add [AddCommMonoid μ] {k other : κ} {amount : μ} {tally : List (κ × μ)} :
    amountOf other (add k amount tally) = (if k = other then amount else 0) + amountOf other tally := by
  induction tally with
  | nil => simp [add, amountOf]
  | cons entry rest ih =>
    simp only [add]
    split
    next same =>
      subst same
      simp only [amountOf, List.map_cons, List.sum_cons]
      split
      next => rw [← add_assoc, add_comm amount]
      next => simp
    next => simp only [amountOf, List.map_cons, List.sum_cons] at ih ⊢; rw [ih, add_left_comm]

private theorem nodup_foldl [Add μ] (entries : List (κ × μ)) {tally : List (κ × μ)}
    (distinct : (tally.map Prod.fst).Nodup) :
    ((entries.foldl (fun tally entry => add entry.1 entry.2 tally) tally).map Prod.fst).Nodup := by
  induction entries generalizing tally with
  | nil => exact distinct
  | cons entry rest ih => exact ih (nodup_add distinct)

theorem nodup_collect [Add μ] (entries : List (κ × μ)) : ((collect entries).map Prod.fst).Nodup :=
  nodup_foldl entries (by simp)

/-- What amounts have in common, and their sums too, the collected amounts have. -/
theorem forall_collect [Add μ] {holds : μ → Prop} {entries : List (κ × μ)} (all : ∀ entry ∈ entries, holds entry.2)
    (sums : ∀ first second, holds first → holds second → holds (first + second)) :
    ∀ entry ∈ collect entries, holds entry.2 := by
  have added (entry : κ × μ) (given : holds entry.2) (tally : List (κ × μ)) (sofar : ∀ other ∈ tally, holds other.2) :
      ∀ other ∈ add entry.1 entry.2 tally, holds other.2 := by
    induction tally with
    | nil => simpa [add] using given
    | cons first rest ih =>
      rw [List.forall_mem_cons] at sofar
      simp only [add]
      split
      next => exact List.forall_mem_cons.mpr ⟨sums _ _ sofar.1 given, sofar.2⟩
      next => exact List.forall_mem_cons.mpr ⟨sofar.1, ih sofar.2⟩
  have folded (entries : List (κ × μ)) (all : ∀ entry ∈ entries, holds entry.2) (tally : List (κ × μ))
      (sofar : ∀ other ∈ tally, holds other.2) :
      ∀ other ∈ entries.foldl (fun tally entry => add entry.1 entry.2 tally) tally, holds other.2 := by
    induction entries generalizing tally with
    | nil => exact sofar
    | cons entry rest ih =>
      rw [List.forall_mem_cons] at all
      exact ih all.2 _ (added entry all.1 tally sofar)
  exact folded entries all [] nofun

private theorem mem_keys_foldl [Add μ] (k : κ) (entries tally : List (κ × μ)) :
    k ∈ (entries.foldl (fun tally entry => add entry.1 entry.2 tally) tally).map Prod.fst ↔
      k ∈ entries.map Prod.fst ∨ k ∈ tally.map Prod.fst := by
  induction entries generalizing tally with
  | nil => simp
  | cons entry rest ih =>
    rw [List.foldl_cons, ih, mem_keys_add, List.map_cons, List.mem_cons, or_left_comm, or_assoc]

theorem mem_keys_collect [Add μ] {k : κ} {entries : List (κ × μ)} :
    k ∈ (collect entries).map Prod.fst ↔ k ∈ entries.map Prod.fst := by
  simpa [collect] using mem_keys_foldl k entries []

private theorem amountOf_foldl [AddCommMonoid μ] (k : κ) (entries tally : List (κ × μ)) :
    amountOf k (entries.foldl (fun tally entry => add entry.1 entry.2 tally) tally) =
      amountOf k entries + amountOf k tally := by
  induction entries generalizing tally with
  | nil => simp [amountOf]
  | cons entry rest ih =>
    rw [List.foldl_cons, ih, amountOf_add]
    simp only [amountOf, List.map_cons, List.sum_cons]
    rw [add_left_comm, add_assoc]

theorem amountOf_collect [AddCommMonoid μ] (k : κ) (entries : List (κ × μ)) :
    amountOf k (collect entries) = amountOf k entries := by
  simpa [amountOf, collect] using amountOf_foldl k entries []

theorem mem_collect [AddCommMonoid μ] {k : κ} {amount : μ} {entries : List (κ × μ)} :
    (k, amount) ∈ collect entries ↔ k ∈ entries.map Prod.fst ∧ amount = amountOf k entries := by
  constructor
  · intro member
    refine ⟨mem_keys_collect.mp (List.mem_map_of_mem member), ?_⟩
    rw [← amountOf_collect, amountOf_mem (nodup_collect entries) member]
  · rintro ⟨present, rfl⟩
    obtain ⟨entry, member, rfl⟩ := List.mem_map.mp (mem_keys_collect.mpr present)
    rw [← amountOf_collect, amountOf_mem (nodup_collect entries) member]
    exact member

/-- Entries with the same keys and totals are collected alike, up to the order of the keys. -/
theorem collect_perm [AddCommMonoid μ] {first second : List (κ × μ)}
    (keys : ∀ k, k ∈ first.map Prod.fst ↔ k ∈ second.map Prod.fst) (totals : ∀ k, amountOf k first = amountOf k second) :
    (collect first).Perm (collect second) := by
  refine (List.perm_ext_iff_of_nodup (nodup_collect first).of_map (nodup_collect second).of_map).mpr fun entry => ?_
  obtain ⟨k, amount⟩ := entry
  rw [mem_collect, mem_collect, keys, totals]

theorem head_collect [Add μ] (entry : κ × μ) (rest : List (κ × μ)) :
    ((collect (entry :: rest)).map Prod.fst).head? = some entry.1 := by
  have kept : ∀ (entries tally : List (κ × μ)), (tally.map Prod.fst).head? = some entry.1 →
      ((entries.foldl (fun tally entry => add entry.1 entry.2 tally) tally).map Prod.fst).head? = some entry.1 := by
    intro entries
    induction entries with
    | nil => exact fun tally head => head
    | cons next entries ih =>
      intro tally head
      refine ih _ ?_
      cases tally with
      | nil => cases head
      | cons first tally =>
        simp only [add]
        split
        next same => exact same ▸ head
        next => exact head
  exact kept rest _ (by simp [add])

section Weighted
variable [NonUnitalNonAssocSemiring μ] (weight : κ → μ)

private theorem sum_add {k : κ} {amount : μ} {tally : List (κ × μ)} :
    ((add k amount tally).map fun entry => weight entry.1 * entry.2).sum =
      weight k * amount + (tally.map fun entry => weight entry.1 * entry.2).sum := by
  induction tally with
  | nil => simp [add]
  | cons entry rest ih =>
    simp only [add]
    split
    next same =>
      simp only [List.map_cons, List.sum_cons, same, mul_add]
      rw [← add_assoc, add_comm (weight k * entry.2)]
    next => rw [List.map_cons, List.sum_cons, ih, List.map_cons, List.sum_cons, add_left_comm]

/-- Sums that weigh every amount by its key are not changed by collecting. -/
theorem sum_collect (entries : List (κ × μ)) :
    ((collect entries).map fun entry => weight entry.1 * entry.2).sum =
      (entries.map fun entry => weight entry.1 * entry.2).sum := by
  have folded : ∀ (entries tally : List (κ × μ)),
      ((entries.foldl (fun tally entry => add entry.1 entry.2 tally) tally).map fun entry => weight entry.1 * entry.2).sum =
        (entries.map fun entry => weight entry.1 * entry.2).sum + (tally.map fun entry => weight entry.1 * entry.2).sum := by
    intro entries
    induction entries with
    | nil => simp
    | cons entry rest ih =>
      intro tally
      rw [List.foldl_cons, ih, sum_add, List.map_cons, List.sum_cons, add_left_comm, add_assoc]
  simpa [collect] using folded entries []

end Weighted

end Tally
end BusinessPlatform.Engine
