import BusinessPlatform.Engine.Table

/-! A relational database over an arbitrary schema, and what one statement does
to it: the rows it returns, the rows it writes and the locks it takes. -/

namespace BusinessPlatform.Engine

/-- Tables with their primary keys, further unique indexes, row constraints,
pairs of rows that exclude each other and foreign keys. `cascade` lists the rows
that disappear with a parent row, `restrict` those that keep it from being deleted. -/
structure Schema where
  Model : Type
  Row : Model → Type
  Key : Model → Type
  Index : Type
  key : {m : Model} → Row m → Key m
  indexes : {m : Model} → Row m → List Index
  keyColumns : Model → List String
  columns : Index → List String
  check : {m : Model} → Row m → Bool
  excludes : {m : Model} → Row m → Row m → Bool
  parents : {m : Model} → Row m → List ((m : Model) × Key m)
  cascade : {m : Model} → Key m → List ((m : Model) × (Row m → Bool))
  restrict : {m : Model} → Key m → List ((m : Model) × (Row m → Bool)) := fun _ => []
  [models : DecidableEq Model]
  [keys : (m : Model) → DecidableEq (Key m)]
  [indices : DecidableEq Index]

attribute [instance] Schema.models Schema.keys Schema.indices

/-- The errors that the client reports of a statement. `validation` is its own:
arguments that it does not send. `unknownRequest` is a value that is refused later on,
by the query engine or by the database. -/
inductive DatabaseError where
  | uniqueViolation (columns : List String)
  | checkViolation
  | exclusionViolation
  | foreignKeyViolation
  | recordNotFound
  | validation
  | unknownRequest
  | engine
  deriving DecidableEq, Repr

variable {S : Schema}

structure Database (S : Schema) where
  table : (m : S.Model) → Table (S.key (m := m))

inductive Write (S : Schema) where
  | put (m : S.Model) (row : S.Row m)
  | erase (m : S.Model) (k : S.Key m)

/-- What a writer holds until its transaction ends: a row by its primary key,
or an entry of a unique index. -/
inductive Lock (S : Schema) where
  | row (m : S.Model) (k : S.Key m)
  | index (i : S.Index)
  deriving DecidableEq

def rowLocks {m : S.Model} (row : S.Row m) : List (Lock S) :=
  Lock.row m (S.key row) :: (S.indexes row).map Lock.index

namespace Write

def model : Write S → S.Model
  | .put m _ => m
  | .erase m _ => m

def locks : Write S → List (Lock S)
  | .put _ row => rowLocks row
  | .erase m k => [Lock.row m k]

def apply (db : Database S) : Write S → Database S
  | .put m row => ⟨Function.update db.table m ((db.table m).put row)⟩
  | .erase m k => ⟨Function.update db.table m ((db.table m).erase k)⟩

end Write

namespace Database

def get (db : Database S) (m : S.Model) (k : S.Key m) : Option (S.Row m) := (db.table m).find k

def applyAll (db : Database S) (writes : List (Write S)) : Database S :=
  writes.foldl Write.apply db

@[simp] theorem applyAll_nil (db : Database S) : db.applyAll [] = db := rfl

@[simp] theorem applyAll_cons (db : Database S) (write : Write S) (rest : List (Write S)) :
    db.applyAll (write :: rest) = (write.apply db).applyAll rest := rfl

@[simp] theorem applyAll_append (db : Database S) (first second : List (Write S)) :
    db.applyAll (first ++ second) = (db.applyAll first).applyAll second :=
  List.foldl_append

end Database

theorem Write.apply_other (db : Database S) {write : Write S} {m : S.Model} (other : write.model ≠ m) :
    (write.apply db).table m = db.table m := by
  cases write <;> exact Function.update_of_ne (Ne.symm other) _ _

@[simp] theorem Write.apply_put_same (db : Database S) (m : S.Model) (row : S.Row m) :
    ((Write.put m row).apply db).table m = (db.table m).put row := Function.update_self ..

@[simp] theorem Write.apply_erase_same (db : Database S) (m : S.Model) (k : S.Key m) :
    ((Write.erase m k).apply db).table m = (db.table m).erase k := Function.update_self ..

/-- A write that does not take the row's lock leaves the row as it was. -/
theorem Write.apply_get (db : Database S) {write : Write S} {m : S.Model} {k : S.Key m}
    (unlocked : Lock.row m k ∉ write.locks) : (write.apply db).get m k = db.get m k := by
  by_cases same : write.model = m
  · subst same
    cases write with
    | put m row =>
      have different : S.key row ≠ k := by
        rintro rfl
        exact unlocked (List.mem_cons_self ..)
      simp only [Database.get, model, apply_put_same]
      exact Table.find_put_other _ different
    | erase m other =>
      have different : other ≠ k := by
        rintro rfl
        exact unlocked (List.mem_singleton.mpr rfl)
      simp only [Database.get, model, apply_erase_same]
      exact (Table.find_erase ..).trans (if_neg different)
  · simp only [Database.get, write.apply_other db same]

/-- The rows of one model that a list of writes stores. -/
def putsOf (m : S.Model) (writes : List (Write S)) : List (S.Row m) :=
  writes.filterMap fun
    | .put other row => if same : other = m then some (same ▸ row) else none
    | .erase _ _ => none

@[simp] theorem putsOf_nil (m : S.Model) : putsOf m [] = [] := rfl

@[simp] theorem putsOf_append (m : S.Model) (first second : List (Write S)) :
    putsOf m (first ++ second) = putsOf m first ++ putsOf m second := List.filterMap_append

@[simp] theorem putsOf_put_same (m : S.Model) (row : S.Row m) (rest : List (Write S)) :
    putsOf m (.put m row :: rest) = row :: putsOf m rest := by
  simp [putsOf]

@[simp] theorem putsOf_put_other {m other : S.Model} (row : S.Row other) (rest : List (Write S))
    (different : other ≠ m) : putsOf m (.put other row :: rest) = putsOf m rest := by
  simp [putsOf, different]

@[simp] theorem putsOf_erase (m other : S.Model) (k : S.Key other) (rest : List (Write S)) :
    putsOf m (.erase other k :: rest) = putsOf m rest := rfl

@[simp] theorem putsOf_map_same {α : Type} (m : S.Model) (row : α → S.Row m) (rows : List α) :
    putsOf m (rows.map fun a => Write.put m (row a)) = rows.map row := by
  induction rows with
  | nil => rfl
  | cons a rest ih => rw [List.map_cons, putsOf_put_same, ih, List.map_cons]

@[simp] theorem putsOf_map_other {α : Type} {m other : S.Model} (row : α → S.Row other) (rows : List α)
    (different : other ≠ m) : putsOf m (rows.map fun a => Write.put other (row a)) = [] := by
  induction rows with
  | nil => rfl
  | cons a rest ih => rw [List.map_cons, putsOf_put_other _ _ different, ih]

@[simp] theorem putsOf_map_erase {α : Type} (m other : S.Model) (k : α → S.Key other) (rows : List α) :
    putsOf m (rows.map fun a => Write.erase other (k a)) = [] := by
  induction rows with
  | nil => rfl
  | cons a rest ih => rw [List.map_cons, putsOf_erase, ih]

theorem putsOf_other {m : S.Model} {writes : List (Write S)} (other : ∀ write ∈ writes, write.model ≠ m) :
    putsOf m writes = [] := by
  refine List.filterMap_eq_nil_iff.mpr fun write member => ?_
  cases write with
  | put model row => simp [show model ≠ m from other _ member]
  | erase model k => rfl

theorem mem_putsOf {m : S.Model} {row : S.Row m} {writes : List (Write S)} :
    row ∈ putsOf m writes ↔ Write.put m row ∈ writes := by
  induction writes with
  | nil => simp
  | cons write rest ih =>
    cases write with
    | put other new =>
      by_cases same : other = m
      · subst same
        simp [ih]
      · have different : Write.put m row ≠ Write.put other new := fun equal => same (congrArg Write.model equal).symm
        simp [same, ih, different]
    | erase other k => simp [ih]

/-- The keys of one model that a list of writes erases. -/
def erasesOf (m : S.Model) (writes : List (Write S)) : List (S.Key m) :=
  writes.filterMap fun
    | .put _ _ => none
    | .erase other k => if same : other = m then some (same ▸ k) else none

@[simp] theorem erasesOf_nil (m : S.Model) : erasesOf m [] = [] := rfl

@[simp] theorem erasesOf_append (m : S.Model) (first second : List (Write S)) :
    erasesOf m (first ++ second) = erasesOf m first ++ erasesOf m second := List.filterMap_append

@[simp] theorem erasesOf_put (m other : S.Model) (row : S.Row other) (rest : List (Write S)) :
    erasesOf m (.put other row :: rest) = erasesOf m rest := rfl

@[simp] theorem erasesOf_erase_same (m : S.Model) (k : S.Key m) (rest : List (Write S)) :
    erasesOf m (.erase m k :: rest) = k :: erasesOf m rest := by
  simp [erasesOf]

@[simp] theorem erasesOf_erase_other {m other : S.Model} (k : S.Key other) (rest : List (Write S))
    (different : other ≠ m) : erasesOf m (.erase other k :: rest) = erasesOf m rest := by
  simp [erasesOf, different]

@[simp] theorem erasesOf_map_put {α : Type} (m other : S.Model) (row : α → S.Row other) (rows : List α) :
    erasesOf m (rows.map fun a => Write.put other (row a)) = [] := by
  induction rows with
  | nil => rfl
  | cons a rest ih => rw [List.map_cons, erasesOf_put, ih]

@[simp] theorem erasesOf_map_same {α : Type} (m : S.Model) (k : α → S.Key m) (rows : List α) :
    erasesOf m (rows.map fun a => Write.erase m (k a)) = rows.map k := by
  induction rows with
  | nil => rfl
  | cons a rest ih => rw [List.map_cons, erasesOf_erase_same, ih, List.map_cons]

@[simp] theorem erasesOf_map_other {α : Type} {m other : S.Model} (k : α → S.Key other) (rows : List α)
    (different : other ≠ m) : erasesOf m (rows.map fun a => Write.erase other (k a)) = [] := by
  induction rows with
  | nil => rfl
  | cons a rest ih => rw [List.map_cons, erasesOf_erase_other _ _ different, ih]

theorem erasesOf_other {m : S.Model} {writes : List (Write S)} (other : ∀ write ∈ writes, write.model ≠ m) :
    erasesOf m writes = [] := by
  refine List.filterMap_eq_nil_iff.mpr fun write member => ?_
  cases write with
  | put model row => rfl
  | erase model k => simp [show model ≠ m from other _ member]

namespace Database

theorem applyAll_get (db : Database S) {writes : List (Write S)} {m : S.Model} {k : S.Key m}
    (unlocked : Lock.row m k ∉ writes.flatMap Write.locks) :
    (db.applyAll writes).get m k = db.get m k := by
  induction writes generalizing db with
  | nil => rfl
  | cons write rest ih =>
    simp only [List.flatMap_cons, List.mem_append, not_or] at unlocked
    rw [applyAll_cons, ih _ unlocked.2, Write.apply_get db unlocked.1]

theorem applyAll_other (db : Database S) {writes : List (Write S)} {m : S.Model}
    (other : ∀ write ∈ writes, write.model ≠ m) : (db.applyAll writes).table m = db.table m := by
  induction writes generalizing db with
  | nil => rfl
  | cons write rest ih =>
    rw [applyAll_cons, ih _ (fun w member => other w (List.mem_cons_of_mem _ member)),
      Write.apply_other db (other write (List.mem_cons_self ..))]

/-- Writes that erase nothing of a model store its rows one after another. -/
theorem applyAll_table (db : Database S) {m : S.Model} {writes : List (Write S)} (kept : erasesOf m writes = []) :
    (db.applyAll writes).table m = (db.table m).putAll (putsOf m writes) := by
  induction writes generalizing db with
  | nil => rfl
  | cons write rest ih =>
    cases write with
    | put other row =>
      have kept : erasesOf m rest = [] := kept
      rw [applyAll_cons, ih _ kept]
      by_cases same : other = m
      · subst same
        rw [putsOf_put_same, Table.putAll_cons, Write.apply_put_same]
      · rw [putsOf_put_other _ _ same, Write.apply_other db (show (Write.put other row).model ≠ m from same)]
    | erase other k =>
      have different : other ≠ m := by
        rintro rfl
        simp at kept
      rw [erasesOf_erase_other _ _ different] at kept
      rw [applyAll_cons, ih _ kept, putsOf_erase,
        Write.apply_other db (show (Write.erase other k).model ≠ m from different)]

theorem get_applyAll (db : Database S) {m : S.Model} {writes : List (Write S)} (kept : erasesOf m writes = [])
    (k : S.Key m) : (db.applyAll writes).get m k = ((db.table m).putAll (putsOf m writes)).find k := by
  rw [get, db.applyAll_table kept]

theorem get_put (db : Database S) (m : S.Model) (row : S.Row m) :
    ((Write.put m row).apply db).get m (S.key row) = some row := by
  rw [get, Write.apply_put_same, Table.find_put_same]

theorem get_untouched (db : Database S) {m : S.Model} {writes : List (Write S)} {k : S.Key m}
    (kept : erasesOf m writes = []) (absent : k ∉ (putsOf m writes).map S.key) :
    (db.applyAll writes).get m k = db.get m k := by
  rw [db.get_applyAll kept, Table.find_putAll_other _ absent, get]

theorem get_stored (db : Database S) {m : S.Model} {writes : List (Write S)} {row : S.Row m}
    (kept : erasesOf m writes = []) (distinct : ((putsOf m writes).map S.key).Nodup) (member : row ∈ putsOf m writes) :
    (db.applyAll writes).get m (S.key row) = some row := by
  rw [db.get_applyAll kept, Table.find_putAll_mem _ distinct member]

/-- A key without a row after some writes had none before and got none. -/
theorem get_none (db : Database S) {m : S.Model} {writes : List (Write S)} {k : S.Key m}
    (kept : erasesOf m writes = []) (absent : (db.applyAll writes).get m k = none) :
    k ∉ (putsOf m writes).map S.key ∧ db.get m k = none := by
  rw [db.get_applyAll kept] at absent
  have unstored : k ∉ (putsOf m writes).map S.key := fun present => by
    obtain ⟨row, _, _, stored⟩ := (db.table m).find_putAll present
    cases absent.symm.trans stored
  exact ⟨unstored, (Table.find_putAll_other _ unstored).symm.trans absent⟩

theorem get_single (db : Database S) {m : S.Model} {writes : List (Write S)} {row : S.Row m}
    (kept : erasesOf m writes = []) (stored : putsOf m writes = [row]) (k : S.Key m) :
    (db.applyAll writes).get m k = if S.key row = k then some row else db.get m k := by
  rw [db.get_applyAll kept, stored, Table.putAll_cons, Table.putAll_nil, Table.find_put, get]

theorem get_unwritten (db : Database S) {m : S.Model} {writes : List (Write S)} (kept : erasesOf m writes = [])
    (unstored : putsOf m writes = []) (k : S.Key m) : (db.applyAll writes).get m k = db.get m k :=
  db.get_untouched kept (by simp [unstored])

private theorem apply_found (db : Database S) {write : Write S} {m : S.Model} {k : S.Key m} {row : S.Row m}
    (found : (write.apply db).get m k = some row) : row ∈ putsOf m [write] ∨ db.get m k = some row := by
  cases write with
  | put other new =>
    by_cases same : other = m
    · subst same
      rw [get, Write.apply_put_same, Table.find_put] at found
      split at found
      next => simp [Option.some.inj found]
      next => exact .inr found
    · have unchanged := Write.apply_other db (show (Write.put other new).model ≠ m from same)
      exact .inr (by rwa [get, unchanged] at found)
  | erase other key =>
    by_cases same : other = m
    · subst same
      rw [get, Write.apply_erase_same, Table.find_erase] at found
      split at found
      next => cases found
      next => exact .inr found
    · have unchanged := Write.apply_other db (show (Write.erase other key).model ≠ m from same)
      exact .inr (by rwa [get, unchanged] at found)

/-- A row found after some writes was stored by them or was there before. -/
theorem get_found (db : Database S) {m : S.Model} {writes : List (Write S)} {k : S.Key m} {row : S.Row m}
    (found : (db.applyAll writes).get m k = some row) : row ∈ putsOf m writes ∨ db.get m k = some row := by
  induction writes generalizing db with
  | nil => exact .inr found
  | cons write rest ih =>
    rw [← List.singleton_append, putsOf_append, List.mem_append]
    rcases ih _ found with stored | there
    · exact .inl (.inr stored)
    · exact (db.apply_found there).imp .inl id

/-- A row after some writes is one of the rows stored, or was there before. -/
theorem get_cases (db : Database S) {m : S.Model} {writes : List (Write S)} (kept : erasesOf m writes = [])
    (k : S.Key m) : (db.applyAll writes).get m k = db.get m k ∨
      ∃ row ∈ putsOf m writes, S.key row = k ∧ (db.applyAll writes).get m k = some row := by
  by_cases present : k ∈ (putsOf m writes).map S.key
  · rw [db.get_applyAll kept]
    exact .inr (Table.find_putAll _ present)
  · exact .inl (db.get_untouched kept present)

/-- A scan that matches the rows stored and none of the earlier ones lists the
rows stored. -/
theorem scan_stored (db : Database S) {m : S.Model} {writes : List (Write S)} {filter : S.Row m → Bool}
    (kept : erasesOf m writes = []) (distinct : ((putsOf m writes).map S.key).Nodup)
    (matched : ∀ row ∈ putsOf m writes, filter row = true)
    (unmatched : ∀ row ∈ (db.table m).rows, filter row = false) :
    (((db.applyAll writes).table m).rows.filter filter).Perm (putsOf m writes) := by
  refine (List.perm_ext_iff_of_nodup (((db.applyAll writes).table m).distinct.of_map.filter _)
    distinct.of_map).mpr fun row => ?_
  rw [List.mem_filter]
  constructor
  · intro ⟨member, listed⟩
    rcases db.get_found (Table.find_eq_some.mpr ⟨member, rfl⟩) with stored | there
    · exact stored
    · cases listed.symm.trans (unmatched row (Table.find_eq_some.mp there).1)
  · intro stored
    exact ⟨(Table.find_eq_some.mp (db.get_stored kept distinct stored)).1, matched row stored⟩

/-- A scan that lists neither the rows stored nor those that the writes lock. -/
theorem scan_apart (db : Database S) {m : S.Model} {writes : List (Write S)} {filter : S.Row m → Bool}
    (unlisted : ∀ row ∈ putsOf m writes, filter row = false)
    (replaced : ∀ write ∈ writes, ∀ k, Lock.row m k ∈ write.locks → ∀ old, db.get m k = some old → filter old = false) :
    ((db.applyAll writes).table m).rows.filter filter = (db.table m).rows.filter filter := by
  induction writes generalizing db with
  | nil => rfl
  | cons write rest ih =>
    rw [← List.singleton_append, putsOf_append] at unlisted
    have first := replaced write (List.mem_cons_self ..)
    have one : ((write.apply db).table m).rows.filter filter = (db.table m).rows.filter filter := by
      cases write with
      | put other row =>
        by_cases same : other = m
        · subst same
          rw [Write.apply_put_same]
          refine Table.filter_put (unlisted row ?_) (first _ (List.mem_cons_self ..))
          simp
        · rw [Write.apply_other db (show (Write.put other row).model ≠ m from same)]
      | erase other k =>
        by_cases same : other = m
        · subst same
          rw [Write.apply_erase_same]
          exact Table.filter_erase (first k (List.mem_cons_self ..))
        · rw [Write.apply_other db (show (Write.erase other k).model ≠ m from same)]
    refine (ih _ (fun row member => unlisted row (List.mem_append_right _ member)) ?_).trans one
    intro later member k locked old found
    rcases db.apply_found found with stored | there
    · exact unlisted old (List.mem_append_left _ stored)
    · exact replaced later (List.mem_cons_of_mem _ member) k locked old there

end Database

/-- A column update. It cannot move a row to another primary key. -/
structure Change (S : Schema) (m : S.Model) where
  apply : S.Row m → S.Row m
  keeps : ∀ row, S.key (apply row) = S.key row

/-- One query. `create` builds its row from a fresh stamp and the current time. -/
inductive Query (S : Schema) : Type → Type where
  | find (m : S.Model) (filter : S.Row m → Bool) : Query S (List (S.Row m))
  | lock (m : S.Model) (filter : S.Row m → Bool) : Query S (List (S.Row m))
  | create (m : S.Model) (row : Nat → Nat → S.Row m) : Query S (S.Row m)
  | updateMany (m : S.Model) (filter : S.Row m → Bool) (change : Change S m) : Query S Nat
  | update (m : S.Model) (filter : S.Row m → Bool) (change : Change S m) : Query S (S.Row m)
  | delete (m : S.Model) (filter : S.Row m → Bool) : Query S (S.Row m)
  | deleteMany (m : S.Model) (filter : S.Row m → Bool) : Query S Nat

inductive Operation where
  | find | lock | create | updateMany | update | delete | deleteMany
  deriving DecidableEq, Repr

namespace Query

def model {β : Type} : Query S β → S.Model
  | find m _ | lock m _ | create m _ | updateMany m _ _ | update m _ _ | delete m _ | deleteMany m _ => m

def operation {β : Type} : Query S β → Operation
  | find .. => .find
  | lock .. => .lock
  | create .. => .create
  | updateMany .. => .updateMany
  | update .. => .update
  | delete .. => .delete
  | deleteMany .. => .deleteMany

end Query

/-- A scan without an ORDER BY may list its rows in any order: `order` picks
the position of each next row among those that remain. -/
def arrange {α : Type} : List Nat → List α → List α
  | [], rows => rows
  | position :: order, rows =>
    match rows[position % rows.length]? with
    | none => rows
    | some row => row :: arrange order (rows.eraseIdx (position % rows.length))

theorem arrange_perm {α : Type} (order : List Nat) (rows : List α) : (arrange order rows).Perm rows := by
  induction order generalizing rows with
  | nil => exact .refl rows
  | cons position order ih =>
    simp only [arrange]
    split
    next => exact .refl rows
    next row found =>
      obtain ⟨inside, rfl⟩ := List.getElem?_eq_some_iff.mp found
      exact ((ih _).cons _).trans (List.getElem_cons_eraseIdx_perm inside)

/-- The first index entry of the row that another row of the table holds. -/
def clash {m : S.Model} (table : Table (S.key (m := m))) (row : S.Row m) : Option S.Index :=
  (S.indexes row).find? fun i =>
    table.rows.any fun other => decide (S.key other ≠ S.key row) && decide (i ∈ S.indexes other)

/-- Another row of the table excludes the row. -/
def excluded {m : S.Model} (table : Table (S.key (m := m))) (row : S.Row m) : Bool :=
  table.rows.any fun other => decide (S.key other ≠ S.key row) && S.excludes row other

/-- Constraints of a row that do not mention its own key. -/
def constrain {m : S.Model} (view : Database S) (row : S.Row m) : Except DatabaseError Unit :=
  match clash (view.table m) row with
  | some i => .error (.uniqueViolation (S.columns i))
  | none =>
    if !S.check row then .error .checkViolation
    else if excluded (view.table m) row then .error .exclusionViolation
    else if (S.parents row).any (fun parent => (view.get parent.1 parent.2).isNone) then
      .error .foreignKeyViolation
    else .ok ()

def constrainAll {m : S.Model} (view : Database S) : List (S.Row m) → Except DatabaseError Unit
  | [] => .ok ()
  | row :: rest =>
    match constrain view row with
    | .error error => .error error
    | .ok () => constrainAll view rest

/-- The answer to a query, the rows that it lists, what it writes and locks. -/
structure Outcome (S : Schema) (β : Type) where
  value : β
  listed : List ((m : S.Model) × S.Row m)
  writes : List (Write S)
  locks : List (Lock S)

def modified {m : S.Model} (view : Database S) (old : List (S.Row m)) (change : Change S m) (value : β) :
    Except DatabaseError (Outcome S β) :=
  let new := old.map change.apply
  match constrainAll (view.applyAll (new.map (Write.put m))) new with
  | .error error => .error error
  | .ok () => .ok ⟨value, [], new.map (Write.put m), old.flatMap rowLocks ++ new.flatMap rowLocks⟩

/-- The writes of a deletion: the row and the rows that depend on it. -/
def erases {m : S.Model} (view : Database S) (row : S.Row m) : List (Write S) :=
  .erase m (S.key row) :: (S.cascade (S.key row)).flatMap fun child =>
    ((view.table child.1).rows.filter child.2).map fun row => Write.erase child.1 (S.key row)

/-- A row refers to the one that is to be deleted. -/
def restricted {m : S.Model} (view : Database S) (row : S.Row m) : Bool :=
  (S.restrict (S.key row)).any fun child => (view.table child.1).rows.any child.2

def erased {m : S.Model} (view : Database S) (old : List (S.Row m)) (value : β) : Except DatabaseError (Outcome S β) :=
  if old.any (restricted view) then .error .foreignKeyViolation
  else
    let writes := old.flatMap (erases view)
    .ok ⟨value, [], writes, writes.flatMap Write.locks⟩

/-- What a query does against the rows its session sees. -/
def Query.exec {β : Type} (stamp clock : Nat) (order : List Nat) (view : Database S) :
    Query S β → Except DatabaseError (Outcome S β)
  | .find m filter =>
    let rows := arrange order ((view.table m).rows.filter filter)
    .ok ⟨rows, rows.map (Sigma.mk m), [], []⟩
  | .lock m filter =>
    let rows := arrange order ((view.table m).rows.filter filter)
    .ok ⟨rows, rows.map (Sigma.mk m), [], rows.map fun row => Lock.row m (S.key row)⟩
  | .create m build =>
    let row := build stamp clock
    if (view.get m (S.key row)).isSome then .error (.uniqueViolation (S.keyColumns m))
    else match constrain view row with
      | .error error => .error error
      | .ok () => .ok ⟨row, [], [.put m row], rowLocks row⟩
  | .updateMany m filter change =>
    let old := (view.table m).rows.filter filter
    modified view old change old.length
  | .update m filter change =>
    match (view.table m).rows.filter filter with
    | [] => .error .recordNotFound
    | row :: _ => modified view [row] change (change.apply row)
  | .delete m filter =>
    match (view.table m).rows.filter filter with
    | [] => .error .recordNotFound
    | row :: _ => erased view [row] row
  | .deleteMany m filter =>
    let old := (view.table m).rows.filter filter
    erased view old old.length

end BusinessPlatform.Engine
