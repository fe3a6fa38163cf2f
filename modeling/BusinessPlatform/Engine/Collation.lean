import BusinessPlatform.Engine.Where

/-! The order of rows. Texts compare as in the collation of the database, whatever
it is; a column that is sorted on holds values of one type. -/

namespace BusinessPlatform.Engine

/-- How texts compare. -/
structure Collation where
  less : String → String → Bool
  irreflexive : ∀ text, less text text = false
  transitive : ∀ first second third, less first second = true → less second third = true → less first third = true
  total : ∀ first second, less first second = true ∨ first = second ∨ less second first = true

/-- Texts may compare by their characters. -/
instance : Inhabited Collation where
  default :=
    { less := fun first second => first < second
      irreflexive := fun text => by simp
      transitive := fun first second third left right => by
        rw [decide_eq_true_eq] at left right ⊢
        exact lt_trans left right
      total := fun first second => by
        rw [decide_eq_true_eq, decide_eq_true_eq]
        exact lt_trichotomy first second }

inductive SortDirection where
  | asc | desc
  deriving DecidableEq, Repr

/-- The rank of the type, NULL last, then the value. -/
def Scalar.sortKey : Scalar → Nat × Int × String
  | .text value => (0, 0, value)
  | .number value => (1, value, "")
  | .boolean value => (2, value.toNat, "")
  | .dateTime value => (3, value, "")
  | .null => (4, 0, "")

theorem Scalar.sortKey_injective {first second : Scalar} (same : first.sortKey = second.sortKey) : first = second := by
  cases first with
  | boolean value =>
    cases second with
    | boolean other =>
      have values := congrArg (fun key => key.2.1) same
      cases value <;> cases other <;> simp [sortKey] at values ⊢
    | _ => simp [sortKey] at same
  | _ => cases second <;> simp_all [sortKey]

namespace Collation
variable (collation : Collation)

def lessKey (first second : Nat × Int × String) : Bool :=
  first.1 < second.1 ∨ first.1 = second.1 ∧
    (first.2.1 < second.2.1 ∨ first.2.1 = second.2.1 ∧ collation.less first.2.2 second.2.2 = true)

/-- `first < second` on values of a column. -/
def lessScalar (first second : Scalar) : Bool := collation.lessKey first.sortKey second.sortKey

theorem lessScalar_irreflexive (value : Scalar) : collation.lessScalar value value = false := by
  simp [lessScalar, lessKey, collation.irreflexive]

theorem lessScalar_transitive {first second third : Scalar} (left : collation.lessScalar first second = true)
    (right : collation.lessScalar second third = true) : collation.lessScalar first third = true := by
  simp only [lessScalar, lessKey, decide_eq_true_eq] at left right ⊢
  rcases left with left | ⟨rank, left | ⟨value, left⟩⟩
  · omega
  · omega
  · rcases right with right | ⟨sameRank, right | ⟨sameValue, right⟩⟩
    · omega
    · omega
    · exact .inr ⟨by omega, .inr ⟨by omega, collation.transitive _ _ _ left right⟩⟩

theorem lessScalar_total (first second : Scalar) :
    collation.lessScalar first second = true ∨ first = second ∨ collation.lessScalar second first = true := by
  simp only [lessScalar, lessKey, decide_eq_true_eq]
  rcases lt_trichotomy first.sortKey.1 second.sortKey.1 with rank | rank | rank
  · exact .inl (.inl rank)
  · rcases lt_trichotomy first.sortKey.2.1 second.sortKey.2.1 with value | value | value
    · exact .inl (.inr ⟨rank, .inl value⟩)
    · rcases collation.total first.sortKey.2.2 second.sortKey.2.2 with text | text | text
      · exact .inl (.inr ⟨rank, .inr ⟨value, text⟩⟩)
      · exact .inr (.inl (Scalar.sortKey_injective (Prod.ext rank (Prod.ext value text))))
      · exact .inr (.inr (.inr ⟨rank.symm, .inr ⟨value.symm, text⟩⟩))
    · exact .inr (.inr (.inr ⟨rank.symm, .inl value⟩))
  · exact .inr (.inr (.inl rank))

/-- `first` comes before `second` in a column that is sorted in the direction. -/
def before (direction : SortDirection) (first second : Scalar) : Bool :=
  match direction with
  | .asc => collation.lessScalar first second
  | .desc => collation.lessScalar second first

instance before_strict (direction : SortDirection) :
    IsStrictTotalOrder Scalar fun first second => collation.before direction first second = true where
  irrefl value held := by
    cases direction <;> simp [before, lessScalar_irreflexive] at held
  trans first second third left right := by
    cases direction with
    | asc => exact collation.lessScalar_transitive left right
    | desc => exact collation.lessScalar_transitive right left
  trichotomous first second left right := by
    cases direction with
    | asc =>
      rcases collation.lessScalar_total first second with less | same | greater
      · exact absurd less left
      · exact same
      · exact absurd greater right
    | desc =>
      rcases collation.lessScalar_total first second with less | same | greater
      · exact absurd less right
      · exact same
      · exact absurd greater left

/-- `{ gt: value }`. -/
def gt (column : String) (value : Scalar) : Condition Record :=
  .column fun row => compare (fun held => collation.lessScalar value held) (row column)

/-- `{ lt: value }`. -/
def lt (column : String) (value : Scalar) : Condition Record :=
  .column fun row => compare (fun held => collation.lessScalar held value) (row column)

/-- The order of `orderBy`: of the first column, then of the next where that ties. -/
def precedes : List (String × SortDirection) → Record → Record → Bool
  | [], _, _ => false
  | (column, direction) :: rest, first, second =>
    collation.before direction (first column) (second column) ||
      (first column = second column && precedes rest first second)

/-- The rows of the table that match, in the order. -/
def ordered (table : List Record) (filter : WhereInput Record) (orderBy : List (String × SortDirection)) : List Record :=
  (table.filter filter.matches).insertionSort fun first second => collation.precedes orderBy second first = false

/-- `findMany({ where, orderBy, take })`. -/
def findMany (table : List Record) (filter : WhereInput Record) (orderBy : List (String × SortDirection)) (take : Nat) :
    List Record :=
  (collation.ordered table filter orderBy).take take

section
variable {collation} {orderBy : List (String × SortDirection)} {first second third : Record}

theorem precedes_cons {column : String} {direction : SortDirection} :
    collation.precedes ((column, direction) :: orderBy) first second = true ↔
      collation.before direction (first column) (second column) = true ∨
        first column = second column ∧ collation.precedes orderBy first second = true := by
  simp [precedes]

theorem precedes_asymmetric (forth : collation.precedes orderBy first second = true) :
    collation.precedes orderBy second first = false := by
  induction orderBy with
  | nil => cases forth
  | cons entry rest ih =>
    obtain ⟨column, direction⟩ := entry
    apply Bool.eq_false_iff.mpr
    intro back
    have strict := collation.before_strict direction
    rcases precedes_cons.mp forth with less | ⟨same, forth⟩
    · rcases precedes_cons.mp back with greater | ⟨same, -⟩
      · exact strict.irrefl _ (strict.trans _ _ _ less greater)
      · rw [same] at less
        exact strict.irrefl _ less
    · rcases precedes_cons.mp back with greater | ⟨-, back⟩
      · rw [same] at greater
        exact strict.irrefl _ greater
      · rw [ih forth] at back
        cases back

/-- A row that precedes another precedes all that the other does not follow. -/
theorem precedes_of_not_follows (less : collation.precedes orderBy first second = true)
    (notAfter : collation.precedes orderBy third second = false) : collation.precedes orderBy first third = true := by
  induction orderBy with
  | nil => cases less
  | cons entry rest ih =>
    obtain ⟨column, direction⟩ := entry
    have strict := collation.before_strict direction
    have refuted := fun holds => Bool.eq_false_iff.mp notAfter (precedes_cons.mpr holds)
    apply precedes_cons.mpr
    have notGreater : second column = third column ∨ collation.before direction (second column) (third column) = true := by
      by_cases greater : collation.before direction (second column) (third column) = true
      · exact .inr greater
      · exact .inl (strict.trichotomous _ _ greater fun less => refuted (.inl less))
    rcases precedes_cons.mp less with less | ⟨same, less⟩
    · rcases notGreater with tied | greater
      · exact .inl (tied ▸ less)
      · exact .inl (strict.trans _ _ _ less greater)
    · rcases notGreater with tied | greater
      · exact .inr ⟨same.trans tied, ih less (Bool.eq_false_iff.mpr fun holds => refuted (.inr ⟨tied.symm, holds⟩))⟩
      · exact .inl (same ▸ greater)

instance : Std.Total fun first second => collation.precedes orderBy second first = false where
  total first second := by
    by_cases back : collation.precedes orderBy second first = true
    · exact .inr (precedes_asymmetric back)
    · exact .inl (Bool.eq_false_iff.mpr back)

instance : IsTrans Record fun first second => collation.precedes orderBy second first = false where
  trans first second third left right := by
    apply Bool.eq_false_iff.mpr
    intro back
    rw [precedes_of_not_follows back left] at right
    cases right

variable {table : List Record} {filter : WhereInput Record}

theorem ordered_sorted : (collation.ordered table filter orderBy).Pairwise
    fun first second => collation.precedes orderBy second first = false :=
  List.pairwise_insertionSort _ _

theorem mem_ordered {row : Record} :
    row ∈ collation.ordered table filter orderBy ↔ row ∈ table ∧ filter.matches row = true := by
  rw [ordered, List.mem_insertionSort, List.mem_filter]

theorem ordered_perm : (collation.ordered table filter orderBy).Perm (table.filter filter.matches) :=
  List.perm_insertionSort _ _

end
end Collation
end BusinessPlatform.Engine
