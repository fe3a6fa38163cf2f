import Mathlib

/-! Arguments of the client. Objects are lists of keys with their values; the
conditions of a `where` object nest by AND, OR and NOT and are three-valued, as
comparisons with NULL are in SQL. -/

namespace BusinessPlatform.Engine
variable {α ρ : Type}

/-- An object: its keys with their values. -/
abbrev Fields (α : Type) : Type := List (String × α)

namespace Fields

/-- `{ ...fields, key: value }`. -/
def set (fields : Fields α) (key : String) (value : α) : Fields α :=
  fields.filter (fun field => field.1 ≠ key) ++ [(key, value)]

def get (fields : Fields α) (key : String) : Option α := (fields.find? fun field => field.1 = key).map Prod.snd

@[simp] theorem get_set_same (fields : Fields α) (key : String) (value : α) : (fields.set key value).get key = some value := by
  have unset : (fields.filter fun field => field.1 ≠ key).find? (fun field => field.1 = key) = none := by
    simp [List.find?_eq_none]
  rw [get, set, List.find?_append, unset]
  simp

theorem get_set_other (fields : Fields α) {key other : String} (value : α) (different : other ≠ key) :
    (fields.set key value).get other = fields.get other := by
  have kept : (fields.filter fun field => field.1 ≠ key).find? (fun field => field.1 = other) =
      fields.find? fun field => field.1 = other := by
    rw [List.find?_filter]
    congr 1
    funext field
    rw [Bool.eq_iff_iff]
    simp only [decide_eq_true_eq]
    exact ⟨And.right, fun same => ⟨same ▸ different, same⟩⟩
  rw [get, set, List.find?_append, kept, get]
  simp [Ne.symm different]

end Fields

/-- What a column holds. -/
inductive Scalar where
  | null
  | text (text : String)
  | number (number : Int)
  | boolean (boolean : Bool)
  | dateTime (milliseconds : Int)
  deriving DecidableEq, Repr

/-- The columns of a row. -/
abbrev Record : Type := String → Scalar

/-- A truth value; `none` is unknown. -/
abbrev Truth : Type := Option Bool

namespace Truth

def not (truth : Truth) : Truth := truth.map Bool.not

def all (truths : List Truth) : Truth :=
  if some false ∈ truths then some false else if none ∈ truths then none else some true

def any (truths : List Truth) : Truth :=
  if some true ∈ truths then some true else if none ∈ truths then none else some false

@[simp] theorem all_true {truths : List Truth} : all truths = some true ↔ ∀ truth ∈ truths, truth = some true := by
  simp only [all]
  constructor
  · intro holds truth member
    split at holds
    next => cases holds
    next unrefuted =>
      split at holds
      next => cases holds
      next known =>
        rcases truth with _ | _ | _
        · exact absurd member known
        · exact absurd member unrefuted
        · rfl
  · intro holds
    have unrefuted : some false ∉ truths := fun refuted => by cases holds _ refuted
    have known : none ∉ truths := fun unknown => by cases holds _ unknown
    rw [if_neg unrefuted, if_neg known]

@[simp] theorem any_true {truths : List Truth} : any truths = some true ↔ some true ∈ truths := by
  simp only [any]
  constructor
  · intro holds
    split at holds
    next found => exact found
    next =>
      split at holds
      next => cases holds
      next => cases holds
  · intro found
    exact if_pos found

end Truth

/-- What a key of a `where` object demands: a condition on its column, or on the
nested objects of AND, OR and NOT. -/
inductive Condition (ρ : Type) where
  | column (test : ρ → Truth)
  | AND (inputs : List (List (String × Condition ρ)))
  | OR (inputs : List (List (String × Condition ρ)))
  | NOT (inputs : List (List (String × Condition ρ)))

abbrev WhereInput (ρ : Type) : Type := Fields (Condition ρ)

mutual
def Condition.eval (row : ρ) : Condition ρ → Truth
  | .column test => test row
  | .AND inputs => Truth.all (evalInputs row inputs)
  | .OR inputs => Truth.any (evalInputs row inputs)
  | .NOT inputs => Truth.all ((evalInputs row inputs).map Truth.not)

def evalInputs (row : ρ) : List (Fields (Condition ρ)) → List Truth
  | [] => []
  | input :: rest => Truth.all (evalFields row input) :: evalInputs row rest

def evalFields (row : ρ) : Fields (Condition ρ) → List Truth
  | [] => []
  | (_, condition) :: rest => condition.eval row :: evalFields row rest
end

@[simp] theorem evalFields_map (row : ρ) (input : WhereInput ρ) :
    evalFields row input = input.map fun field => field.2.eval row := by
  induction input with
  | nil => rw [evalFields, List.map_nil]
  | cons field rest ih => rw [evalFields, List.map_cons, ih]

@[simp] theorem evalInputs_map (row : ρ) (inputs : List (WhereInput ρ)) :
    evalInputs row inputs = inputs.map fun input => Truth.all (evalFields row input) := by
  induction inputs with
  | nil => rw [evalInputs, List.map_nil]
  | cons input rest ih => rw [evalInputs, List.map_cons, ih]

/-- The row satisfies all keys of the object. -/
def WhereInput.matches (input : WhereInput ρ) (row : ρ) : Bool := Truth.all (evalFields row input) = some true

theorem WhereInput.matches_iff {input : WhereInput ρ} {row : ρ} :
    input.matches row = true ↔ ∀ field ∈ input, field.2.eval row = some true := by
  rw [WhereInput.matches, decide_eq_true_iff, Truth.all_true, evalFields_map]
  exact List.forall_mem_map

@[simp] theorem WhereInput.matches_cons {field : String × Condition ρ} {rest : WhereInput ρ} {row : ρ} :
    WhereInput.matches (field :: rest) row = true ↔ field.2.eval row = some true ∧ rest.matches row = true := by
  rw [WhereInput.matches_iff, WhereInput.matches_iff, List.forall_mem_cons]

@[simp] theorem WhereInput.matches_nil {row : ρ} : WhereInput.matches [] row = true := WhereInput.matches_iff.mpr nofun

theorem Condition.and_true {inputs : List (WhereInput ρ)} {row : ρ} :
    (Condition.AND inputs).eval row = some true ↔ ∀ input ∈ inputs, input.matches row = true := by
  rw [Condition.eval, Truth.all_true, evalInputs_map, List.forall_mem_map]
  simp only [WhereInput.matches, decide_eq_true_eq]

theorem Condition.or_true {inputs : List (WhereInput ρ)} {row : ρ} :
    (Condition.OR inputs).eval row = some true ↔ ∃ input ∈ inputs, input.matches row = true := by
  rw [Condition.eval, Truth.any_true, evalInputs_map, List.mem_map]
  simp only [WhereInput.matches, decide_eq_true_eq]

/-- A key that was set restricts the rows, whatever the object says otherwise. -/
theorem WhereInput.matches_set {input : WhereInput ρ} {key : String} {condition : Condition ρ} {row : ρ}
    (matched : WhereInput.matches (input.set key condition) row = true) : condition.eval row = some true :=
  WhereInput.matches_iff.mp matched (key, condition) (List.mem_append_right _ (List.mem_singleton.mpr rfl))

/-- A comparison with NULL is unknown. -/
def compare (holds : Scalar → Bool) (value : Scalar) : Truth :=
  match value with
  | .null => none
  | value => some (holds value)

theorem compare_true {holds : Scalar → Bool} {value : Scalar} (stored : value ≠ .null) :
    compare holds value = some true ↔ holds value = true := by
  cases value with
  | null => exact absurd rfl stored
  | _ => exact Option.some_inj

/-- `{ equals: value }`. -/
def equals (column : String) (value : Scalar) : Condition Record :=
  .column fun row => compare (fun held => held = value) (row column)

theorem equals_true {column : String} {value : Scalar} {row : Record} (stored : value ≠ .null) :
    (equals column value).eval row = some true ↔ row column = value := by
  rw [equals, Condition.eval]
  cases held : row column with
  | null => simp [compare, Ne.symm stored]
  | _ => simp [compare]

end BusinessPlatform.Engine
