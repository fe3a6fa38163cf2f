import BusinessPlatform.Engine.Safety

/-! One safety rule for each query of the client. -/

namespace BusinessPlatform.Engine
variable {S : Schema} {ε α β ι : Type}

/-- The constraints under which a row was inserted. -/
structure Created {m : S.Model} (view : Database S) (row : S.Row m) : Prop where
  fresh : view.get m (S.key row) = none
  free : clash (view.table m) row = none
  checked : S.check row = true
  apart : excluded (view.table m) row = false
  parents : ∀ parent ∈ S.parents row, (view.get parent.1 parent.2).isSome = true

def puts {m : S.Model} (change : Change S m) (old : List (S.Row m)) : List (Write S) :=
  (old.map change.apply).map (Write.put m)

theorem puts_model {m : S.Model} {change : Change S m} {old : List (S.Row m)} :
    ∀ write ∈ puts change old, write.model = m := by
  intro write member
  obtain ⟨row, _, rfl⟩ := List.mem_map.mp member
  rfl

def changeLocks {m : S.Model} (change : Change S m) (old : List (S.Row m)) : List (Lock S) :=
  old.flatMap rowLocks ++ (old.map change.apply).flatMap rowLocks

private theorem constrain_ok {m : S.Model} {view : Database S} {row : S.Row m} (admitted : constrain view row = .ok ()) :
    clash (view.table m) row = none ∧ S.check row = true ∧ excluded (view.table m) row = false ∧
      ∀ parent ∈ S.parents row, (view.get parent.1 parent.2).isSome = true := by
  unfold constrain at admitted
  split at admitted
  next => cases admitted
  next free =>
    split at admitted
    next => cases admitted
    next checked =>
      split at admitted
      next => cases admitted
      next apart =>
        split at admitted
        next => cases admitted
        next parents =>
          refine ⟨free, by simpa using checked, by simpa using apart, fun parent member => ?_⟩
          simp only [List.any_eq_true, not_exists, not_and] at parents
          simpa [Option.isSome_iff_ne_none] using parents parent member

theorem constrain_error {m : S.Model} {view : Database S} {row : S.Row m} {error : DatabaseError}
    (refused : constrain view row = .error error) :
    (∃ i, clash (view.table m) row = some i ∧ error = .uniqueViolation (S.columns i)) ∨
      (S.check row = false ∧ error = .checkViolation) ∨
        (excluded (view.table m) row = true ∧ error = .exclusionViolation) ∨
        ∃ parent ∈ S.parents row, view.get parent.1 parent.2 = none ∧ error = .foreignKeyViolation := by
  unfold constrain at refused
  split at refused
  next i found =>
    cases refused
    exact .inl ⟨i, found, rfl⟩
  next =>
    split at refused
    next unchecked =>
      cases refused
      exact .inr (.inl ⟨by simpa using unchecked, rfl⟩)
    next =>
      split at refused
      next overlapping =>
        cases refused
        exact .inr (.inr (.inl ⟨overlapping, rfl⟩))
      next =>
        split at refused
        next orphaned =>
          cases refused
          obtain ⟨parent, member, absent⟩ := List.any_eq_true.mp orphaned
          exact .inr (.inr (.inr ⟨parent, member, by simpa using absent, rfl⟩))
        next => cases refused

theorem constrain_iff {m : S.Model} {view : Database S} {row : S.Row m} : constrain view row = .ok () ↔
    clash (view.table m) row = none ∧ S.check row = true ∧ excluded (view.table m) row = false ∧
      ∀ parent ∈ S.parents row, (view.get parent.1 parent.2).isSome = true := by
  refine ⟨constrain_ok, fun ⟨free, checked, apart, parents⟩ => ?_⟩
  cases outcome : constrain view row with
  | ok _ => rfl
  | error error =>
    rcases constrain_error outcome with ⟨_, found, _⟩ | ⟨unchecked, _⟩ | ⟨overlapping, _⟩ | ⟨parent, member, absent, _⟩
    · cases free.symm.trans found
    · cases checked.symm.trans unchecked
    · cases apart.symm.trans overlapping
    · have present := parents parent member
      rw [absent] at present
      cases present

private theorem any_put {m : S.Model} (table : Table (S.key (m := m))) (row : S.Row m) (held : S.Row m → Bool) :
    ((table.put row).rows.any fun other => decide (S.key other ≠ S.key row) && held other) =
      table.rows.any fun other => decide (S.key other ≠ S.key row) && held other := by
  rw [Bool.eq_iff_iff]
  simp only [List.any_eq_true, Bool.and_eq_true, decide_eq_true_eq, Table.mem_put]
  constructor
  · rintro ⟨other, rfl | ⟨member, _⟩, different, holds⟩
    · exact absurd rfl different
    · exact ⟨other, member, different, holds⟩
  · rintro ⟨other, member, different, holds⟩
    exact ⟨other, .inr ⟨member, different⟩, different, holds⟩

theorem constrain_put_iff {m : S.Model} {view : Database S} {row : S.Row m} :
    constrain (view.applyAll [.put m row]) row = .ok () ↔
      clash (view.table m) row = none ∧ S.check row = true ∧ excluded (view.table m) row = false ∧
        ∀ parent ∈ S.parents row, ((view.applyAll [.put m row]).get parent.1 parent.2).isSome = true := by
  have stored : (view.applyAll [.put m row]).table m = (view.table m).put row := Write.apply_put_same ..
  rw [constrain_iff, stored, clash, excluded, any_put]
  simp only [any_put]
  rfl

private theorem constrainAll_error {m : S.Model} {view : Database S} {rows : List (S.Row m)} {error : DatabaseError}
    (refused : constrainAll view rows = .error error) : ∃ row ∈ rows, constrain view row = .error error := by
  induction rows with
  | nil => cases refused
  | cons first rest ih =>
    simp only [constrainAll] at refused
    split at refused
    next found =>
      cases refused
      exact ⟨first, List.mem_cons_self .., found⟩
    next =>
      obtain ⟨row, member, found⟩ := ih refused
      exact ⟨row, List.mem_cons_of_mem _ member, found⟩

private theorem constrainAll_ok {m : S.Model} {view : Database S} {rows : List (S.Row m)}
    (admitted : constrainAll view rows = .ok ()) : ∀ row ∈ rows, constrain view row = .ok () := by
  induction rows with
  | nil => simp
  | cons first rest ih =>
    simp only [constrainAll] at admitted
    split at admitted
    next => cases admitted
    next head =>
      intro row member
      rcases List.mem_cons.mp member with rfl | inside
      · exact head
      · exact ih admitted row inside

theorem modified_admitted {m : S.Model} {view : Database S} {old : List (S.Row m)} {change : Change S m}
    {value : β} {outcome : Outcome S β} (executed : modified view old change value = .ok outcome) :
    outcome = ⟨value, [], puts change old, changeLocks change old⟩ ∧
      ∀ row ∈ old, constrain (view.applyAll (puts change old)) (change.apply row) = .ok () := by
  simp only [modified] at executed
  split at executed
  next => cases executed
  next admitted =>
    cases executed
    exact ⟨rfl, fun row member => constrainAll_ok admitted _ (List.mem_map_of_mem member)⟩

private theorem modified_ok {m : S.Model} {view : Database S} {old : List (S.Row m)} {change : Change S m}
    {value : β} {outcome : Outcome S β} (executed : modified view old change value = .ok outcome) :
    outcome = ⟨value, [], puts change old, changeLocks change old⟩ ∧ ∀ row ∈ old, S.check (change.apply row) = true :=
  have ⟨same, admitted⟩ := modified_admitted executed
  ⟨same, fun row member => (constrain_ok (admitted row member)).2.1⟩

theorem modified_free {m : S.Model} {view : Database S} {old : List (S.Row m)} {change : Change S m}
    {value : β} {outcome : Outcome S β} (executed : modified view old change value = .ok outcome) :
    outcome.writes = puts change old ∧
      ∀ row ∈ old, clash ((view.applyAll outcome.writes).table m) (change.apply row) = none := by
  obtain ⟨rfl, admitted⟩ := modified_admitted executed
  exact ⟨rfl, fun row member => (constrain_ok (admitted row member)).1⟩

section Executed
variable {stamp clock : Nat} {order : List Nat} {view : Database S} {m : S.Model}
  {filter : S.Row m → Bool} {change : Change S m}

theorem Query.exec_create {build : Nat → Nat → S.Row m} {outcome : Outcome S (S.Row m)}
    (executed : (Query.create m build).exec stamp clock order view = .ok outcome) :
    outcome = ⟨build stamp clock, [], [.put m (build stamp clock)], rowLocks (build stamp clock)⟩ ∧
      Created view (build stamp clock) := by
  simp only [Query.exec] at executed
  split at executed
  next => cases executed
  next absent =>
    split at executed
    next => cases executed
    next admitted =>
      cases executed
      obtain ⟨free, checked, apart, parents⟩ := constrain_ok admitted
      exact ⟨rfl, by simpa using absent, free, checked, apart, parents⟩

theorem Query.exec_updateMany {outcome : Outcome S Nat}
    (executed : (Query.updateMany m filter change).exec stamp clock order view = .ok outcome) :
    let old := (view.table m).rows.filter filter
    outcome = ⟨old.length, [], puts change old, changeLocks change old⟩ ∧
      ∀ row ∈ old, S.check (change.apply row) = true := modified_ok executed

/-- Why a bulk update was refused: a changed row that is not admitted. -/
theorem Query.exec_updateMany_error {error : DatabaseError}
    (executed : (Query.updateMany m filter change).exec stamp clock order view = .error error) :
    ∃ row ∈ (view.table m).rows, filter row = true ∧
      constrain (view.applyAll (puts change ((view.table m).rows.filter filter))) (change.apply row) = .error error := by
  simp only [Query.exec, modified] at executed
  split at executed
  next refused =>
    cases executed
    obtain ⟨new, member, found⟩ := constrainAll_error refused
    obtain ⟨row, inside, rfl⟩ := List.mem_map.mp member
    exact ⟨row, (List.mem_filter.mp inside).1, (List.mem_filter.mp inside).2, found⟩
  next => cases executed

theorem Query.exec_create_error {build : Nat → Nat → S.Row m} {error : DatabaseError}
    (executed : (Query.create m build).exec stamp clock order view = .error error) :
    ((view.get m (S.key (build stamp clock))).isSome = true ∧ error = .uniqueViolation (S.keyColumns m)) ∨
      (view.get m (S.key (build stamp clock)) = none ∧ constrain view (build stamp clock) = .error error) := by
  simp only [Query.exec] at executed
  split at executed
  next present =>
    cases executed
    exact .inl ⟨present, rfl⟩
  next absent =>
    split at executed
    next refused =>
      cases executed
      exact .inr ⟨by simpa using absent, refused⟩
    next => cases executed

/-- The first index entry that is taken refuses a row with a new key. -/
theorem Query.exec_create_clash {build : Nat → Nat → S.Row m} {index : S.Index}
    (fresh : view.get m (S.key (build stamp clock)) = none) (taken : clash (view.table m) (build stamp clock) = some index) :
    (Query.create m build).exec stamp clock order view = .error (.uniqueViolation (S.columns index)) := by
  simp [Query.exec, constrain, fresh, taken]

theorem Query.exec_update {outcome : Outcome S (S.Row m)}
    (executed : (Query.update m filter change).exec stamp clock order view = .ok outcome) :
    ∃ row ∈ (view.table m).rows, filter row = true ∧
      outcome = ⟨change.apply row, [], puts change [row], changeLocks change [row]⟩ ∧
      S.check (change.apply row) = true := by
  simp only [Query.exec] at executed
  split at executed
  next => cases executed
  next row rest found =>
    obtain ⟨same, checked⟩ := modified_ok executed
    have member := List.mem_filter.mp (found ▸ List.mem_cons_self : row ∈ (view.table m).rows.filter filter)
    exact ⟨row, member.1, member.2, same, checked row (List.mem_cons_self ..)⟩

theorem Query.exec_update_error {error : DatabaseError}
    (executed : (Query.update m filter change).exec stamp clock order view = .error error) :
    ((∀ row ∈ (view.table m).rows, filter row = false) ∧ error = .recordNotFound) ∨
      ∃ row ∈ (view.table m).rows, filter row = true ∧
        constrain (view.applyAll (puts change [row])) (change.apply row) = .error error := by
  simp only [Query.exec] at executed
  split at executed
  next none =>
    cases executed
    exact .inl ⟨fun row member => by simpa using List.filter_eq_nil_iff.mp none row member, rfl⟩
  next row rest found =>
    have member := List.mem_filter.mp (found ▸ List.mem_cons_self : row ∈ (view.table m).rows.filter filter)
    simp only [modified] at executed
    split at executed
    next refused =>
      cases executed
      obtain ⟨new, inside, error⟩ := constrainAll_error refused
      cases List.mem_singleton.mp inside
      exact .inr ⟨row, member.1, member.2, error⟩
    next => cases executed

theorem erased_ok {β : Type} {old : List (S.Row m)} {value : β} {outcome : Outcome S β}
    (executed : erased view old value = .ok outcome) :
    outcome = ⟨value, [], old.flatMap (erases view), (old.flatMap (erases view)).flatMap Write.locks⟩ ∧
      ∀ row ∈ old, restricted view row = false := by
  simp only [erased] at executed
  split at executed
  next => cases executed
  next free =>
    cases executed
    exact ⟨rfl, by simpa using free⟩

theorem Query.exec_delete {outcome : Outcome S (S.Row m)}
    (executed : (Query.delete m filter).exec stamp clock order view = .ok outcome) :
    ∃ row ∈ (view.table m).rows, filter row = true ∧
      outcome = ⟨row, [], erases view row, (erases view row).flatMap Write.locks⟩ := by
  simp only [Query.exec] at executed
  split at executed
  next => cases executed
  next row rest found =>
    have member := List.mem_filter.mp (found ▸ List.mem_cons_self : row ∈ (view.table m).rows.filter filter)
    refine ⟨row, member.1, member.2, ?_⟩
    simpa using (erased_ok executed).1

theorem Query.exec_deleteMany {outcome : Outcome S Nat}
    (executed : (Query.deleteMany m filter).exec stamp clock order view = .ok outcome) :
    outcome = ⟨((view.table m).rows.filter filter).length, [], ((view.table m).rows.filter filter).flatMap (erases view),
      (((view.table m).rows.filter filter).flatMap (erases view)).flatMap Write.locks⟩ := (erased_ok executed).1

end Executed

private theorem puts_locks {m : S.Model} (change : Change S m) (old : List (S.Row m)) :
    (puts change old).flatMap Write.locks = (old.map change.apply).flatMap rowLocks := by
  simp only [puts, List.flatMap_map]
  rfl

theorem Query.exec_locks {request : Query S β} {stamp clock : Nat} {order : List Nat} {view : Database S}
    {outcome : Outcome S β} (executed : request.exec stamp clock order view = .ok outcome) :
    ∀ lock ∈ outcome.writes.flatMap Write.locks, lock ∈ outcome.locks := by
  cases request with
  | find m filter => cases executed; simp
  | lock m filter => cases executed; simp
  | create m build =>
    obtain ⟨rfl, _⟩ := exec_create executed
    simp [Write.locks]
  | updateMany m filter change =>
    obtain ⟨rfl, _⟩ := exec_updateMany executed
    rw [puts_locks]
    exact fun lock member => List.mem_append_right _ member
  | update m filter change =>
    obtain ⟨row, _, _, rfl, _⟩ := exec_update executed
    rw [puts_locks]
    exact fun lock member => List.mem_append_right _ member
  | delete m filter =>
    obtain ⟨row, _, _, rfl⟩ := exec_delete executed
    exact fun lock member => member
  | deleteMany m filter =>
    obtain rfl := exec_deleteMany executed
    exact fun lock member => member

variable {commits : Commits S ι} {rely : Guarantee S ι} {i : ι} {kinds : ε → Prop} {post : Post S ε α ι}
  {session : Option (Transaction S)} {transaction : Transaction S} {world : World S ι} {m : S.Model}

/-- The world after this thread has been given rows of a table. -/
abbrev World.reads (world : World S ι) (i : ι) (m : S.Model) (rows : List (S.Row m)) (inside : Bool) :
    World S ι := world.record ⟨some i, some (m, .find), rows.map (Sigma.mk m), inside⟩ []

theorem Safe.findMany {filter : S.Row m → Bool} {next : List (S.Row m) → Program S ε α}
    (fails : Fails rely i kinds post session.isSome world)
    (resume : ∀ after rows, Later rely i (locksOf session) world after →
      rows.Perm (((after.view session).table m).rows.filter filter) →
      Fails rely i kinds post session.isSome (after.reads i m rows session.isSome) →
      Safe commits rely i post (next rows) session (after.reads i m rows session.isSome)) :
    Safe commits rely i post (Program.findMany m filter >>= next) session world := by
  cases session with
  | none =>
    refine Safe.query fails fun after order outcome later executed => ?_
    cases executed
    exact ⟨.inl rfl, resume after _ later (arrange_perm _ _) (fails.read later _)⟩
  | some transaction =>
    refine Safe.queryInside fails fun after order outcome later executed fails => ?_
    cases executed
    rw [List.append_nil, List.append_nil]
    exact resume after _ later (arrange_perm _ _) fails

theorem Safe.findFirst {filter : S.Row m → Bool} {next : Option (S.Row m) → Program S ε α}
    (fails : Fails rely i kinds post session.isSome world)
    (resume : ∀ after rows, Later rely i (locksOf session) world after →
      rows.Perm (((after.view session).table m).rows.filter filter) →
      Fails rely i kinds post session.isSome (after.reads i m rows session.isSome) →
      Safe commits rely i post (next rows.head?) session (after.reads i m rows session.isSome)) :
    Safe commits rely i post (Program.findFirst m filter >>= next) session world :=
  Safe.bind (Safe.findMany fails fun after rows later listed fails =>
    Safe.done fun _ more => Safe.later (resume after rows later listed fails) more)

theorem Safe.scan {filter : S.Row m → Bool} {next : List (S.Row m) → Program S ε α} (stalls : Stalls rely i post world)
    (resume : ∀ after rows, Later rely i [] world after → rows.Perm ((after.database.table m).rows.filter filter) →
      Safe commits rely i post (next rows) none (after.reads i m rows false)) :
    Safe commits rely i post (Program.findMany m filter >>= next) none world := by
  refine Safe.attempt stalls (fun _ _ _ _ executed => nomatch executed) ?_
  intro after order outcome later executed
  cases executed
  exact ⟨.inl rfl, resume after _ later (arrange_perm _ _)⟩

theorem Safe.lookup {filter : S.Row m → Bool} {next : Option (S.Row m) → Program S ε α}
    (stalls : Stalls rely i post world)
    (resume : ∀ after rows, Later rely i [] world after → rows.Perm ((after.database.table m).rows.filter filter) →
      Safe commits rely i post (next rows.head?) none (after.reads i m rows false)) :
    Safe commits rely i post (Program.findFirst m filter >>= next) none world :=
  Safe.bind (Safe.scan stalls fun after rows later listed =>
    Safe.done fun _ more => (resume after rows later listed).later more)

section Listed
variable {ρ : Type} {rows listing : List ρ} {filter : ρ → Bool}

theorem listed_head {row : ρ} (listed : listing.Perm (rows.filter filter)) (head : listing.head? = some row) :
    row ∈ rows ∧ filter row = true :=
  List.mem_filter.mp (listed.mem_iff.mp (List.mem_of_mem_head? head))

theorem listed_none (listed : listing.Perm (rows.filter filter)) (head : listing.head? = none) :
    ∀ row ∈ rows, filter row = false := by
  rw [List.head?_eq_none_iff.mp head] at listed
  intro row member
  simpa using List.filter_eq_nil_iff.mp (List.nil_perm.mp listed) row member

end Listed

theorem Safe.create {build : Nat → Nat → S.Row m} {next : S.Row m → Program S ε α}
    (fails : Fails rely i kinds post false world)
    (resume : ∀ after, Later rely i [] world after →
      ∀ row, row = build after.trace.length after.clock → Created after.database row →
      Allowed commits after [.put m row] ∧
        Safe commits rely i post (next row) none
          (after.record ⟨some i, some (m, .create), [], false⟩ [.put m row])) :
    Safe commits rely i post (Program.create m build >>= next) none world := by
  refine Safe.query fails fun after order outcome later executed => ?_
  obtain ⟨rfl, created⟩ := Query.exec_create executed
  exact resume after later _ rfl created

theorem Safe.createInside {build : Nat → Nat → S.Row m} {next : S.Row m → Program S ε α}
    (fails : Fails rely i kinds post true world)
    (resume : ∀ after, Later rely i transaction.locks world after →
      ∀ row, row = build after.trace.length after.clock →
      Created (after.database.applyAll transaction.writes) row →
      Fails rely i kinds post true (after.record ⟨some i, some (m, .create), [], true⟩ []) →
      Safe commits rely i post (next row)
        (some ⟨transaction.writes ++ [.put m row], transaction.locks ++ rowLocks row⟩)
        (after.record ⟨some i, some (m, .create), [], true⟩ [])) :
    Safe commits rely i post (Program.create m build >>= next) (some transaction) world := by
  refine Safe.queryInside fails fun after order outcome later executed fails => ?_
  obtain ⟨rfl, created⟩ := Query.exec_create executed
  exact resume after later _ rfl created fails

/-- The label of a bulk update. -/
abbrev updating (i : ι) (m : S.Model) (inside : Bool) : Label S ι := ⟨some i, some (m, .updateMany), [], inside⟩

theorem Safe.updateMany {filter : S.Row m → Bool} {change : Change S m} {next : Nat → Program S ε α}
    (fails : Fails rely i kinds post false world)
    (resume : ∀ after, Later rely i [] world after →
      ∀ old, old = (after.database.table m).rows.filter filter →
      (∀ row ∈ old, S.check (change.apply row) = true) →
      Allowed commits after (puts change old) ∧
        Safe commits rely i post (next old.length) none (after.record (updating i m false) (puts change old))) :
    Safe commits rely i post (Program.updateMany m filter change >>= next) none world := by
  refine Safe.query fails fun after order outcome later executed => ?_
  obtain ⟨rfl, checked⟩ := Query.exec_updateMany executed
  exact resume after later _ rfl checked

theorem Safe.updateManyInside {filter : S.Row m → Bool} {change : Change S m} {next : Nat → Program S ε α}
    (fails : Fails rely i kinds post true world)
    (resume : ∀ after, Later rely i transaction.locks world after →
      ∀ old, old = ((after.database.applyAll transaction.writes).table m).rows.filter filter →
      (∀ row ∈ old, S.check (change.apply row) = true) →
      Fails rely i kinds post true (after.record (updating i m true) []) →
      Safe commits rely i post (next old.length)
        (some ⟨transaction.writes ++ puts change old, transaction.locks ++ changeLocks change old⟩)
        (after.record (updating i m true) [])) :
    Safe commits rely i post (Program.updateMany m filter change >>= next) (some transaction) world := by
  refine Safe.queryInside fails fun after order outcome later executed fails => ?_
  obtain ⟨rfl, checked⟩ := Query.exec_updateMany executed
  exact resume after later _ rfl checked fails

/-- An update by primary key: no row matches, or the row of that key. -/
theorem Safe.updateUnique {filter : S.Row m → Bool} {change : Change S m} {next : Nat → Program S ε α} {k : S.Key m}
    (only : ∀ row, filter row = true → S.key row = k) (fails : Fails rely i kinds post false world)
    (missed : ∀ after, Later rely i [] world after →
      (∀ row, after.database.get m k = some row → filter row = false) →
      Fails rely i kinds post false (after.record (updating i m false) []) →
      Safe commits rely i post (next 0) none (after.record (updating i m false) []))
    (hit : ∀ after, Later rely i [] world after →
      ∀ row, after.database.get m k = some row → filter row = true → S.check (change.apply row) = true →
      Allowed commits after [.put m (change.apply row)] ∧
        Safe commits rely i post (next 1) none (after.record (updating i m false) [.put m (change.apply row)])) :
    Safe commits rely i post (Program.updateMany m filter change >>= next) none world := by
  refine Safe.updateMany fails fun after later old same checked => ?_
  rcases (after.database.table m).filter_key only with ⟨nothing, absent⟩ | ⟨row, found, matched, listed⟩
  · rw [nothing] at same
    subst same
    exact ⟨.inl rfl, missed after later absent (fails.read later _)⟩
  · rw [listed] at same
    subst same
    exact hit after later row found matched (checked row (List.mem_singleton.mpr rfl))

theorem mem_changeLocks {change : Change S m} {row : S.Row m} : Lock.row m (S.key row) ∈ changeLocks change [row] := by
  simp [changeLocks, rowLocks]

/-- The committed value of one key, or its absence. -/
structure Pin (S : Schema) where
  model : S.Model
  key : S.Key model
  value : Option (S.Row model)

/-- An open transaction has locked keys whose committed values it knows. -/
structure Held (rely : Guarantee S ι) (first : World S ι) (pins : List (Pin S)) (world : World S ι)
    (transaction : Transaction S) : Prop where
  grown : Grows rely first world
  pinned : ∀ pin ∈ pins, Lock.row pin.model pin.key ∈ transaction.locks ∧
    world.database.get pin.model pin.key = pin.value

section Held
variable {first after : World S ι} {pins : List (Pin S)} {larger : Transaction S}

theorem Held.start (world : World S ι) : Held rely world [] world {} := ⟨.refl, nofun⟩

theorem Held.restart (held : Held rely first pins world transaction) : Held rely world pins world transaction :=
  ⟨.refl, held.pinned⟩

theorem Held.later (held : Held rely first pins world transaction)
    (later : Later rely i transaction.locks world after) : Held rely first pins after transaction :=
  ⟨held.grown.trans later.grows, fun pin member =>
    have ⟨locked, known⟩ := held.pinned pin member
    ⟨locked, (later.locked locked).trans known⟩⟩

theorem Held.move (held : Held rely first pins world transaction)
    (later : Later rely i transaction.locks world after) (label : Label S ι)
    (locks : ∀ lock ∈ transaction.locks, lock ∈ larger.locks) :
    Held rely first pins (after.record label []) larger :=
  ⟨(held.grown.trans later.grows).tail (.empty label), fun pin member =>
    have ⟨locked, known⟩ := held.pinned pin member
    ⟨locks _ locked, (later.locked locked).trans known⟩⟩

theorem Held.add (held : Held rely first pins world transaction) {pin : Pin S}
    (locked : Lock.row pin.model pin.key ∈ transaction.locks)
    (known : world.database.get pin.model pin.key = pin.value) :
    Held rely first (pins ++ [pin]) world transaction :=
  ⟨held.grown, fun other member => by
    rcases List.mem_append.mp member with earlier | new
    · exact held.pinned other earlier
    · cases List.mem_singleton.mp new
      exact ⟨locked, known⟩⟩

/-- A row inserted by the transaction: its key is locked and had no row. -/
theorem Held.insert (held : Held rely first pins world transaction)
    (later : Later rely i transaction.locks world after) (label : Label S ι) (row : S.Row m)
    (absent : after.database.get m (S.key row) = none) :
    Held rely first (pins ++ [⟨m, S.key row, none⟩]) (after.record label [])
      ⟨transaction.writes ++ [.put m row], transaction.locks ++ rowLocks row⟩ :=
  Held.add (held.move later label fun _ => List.mem_append_left _)
    (List.mem_append_right _ (List.mem_cons_self ..)) absent

/-- A row changed by the transaction: it is locked and keeps its committed value. -/
theorem Held.change (held : Held rely first pins world transaction)
    (later : Later rely i transaction.locks world after) (label : Label S ι) (change : Change S m) {k : S.Key m}
    {row : S.Row m} (found : after.database.get m k = some row) :
    Held rely first (pins ++ [⟨m, k, some row⟩]) (after.record label [])
      ⟨transaction.writes ++ [.put m (change.apply row)], transaction.locks ++ changeLocks change [row]⟩ := by
  have key : S.key row = k := (Table.find_eq_some.mp found).2
  exact Held.add (held.move later label fun _ => List.mem_append_left _)
    (List.mem_append_right _ (key ▸ mem_changeLocks)) found

/-- A transaction has inserted some rows of a table after its earlier writes. -/
structure Inserted (rely : Guarantee S ι) (first : World S ι) (pins : List (Pin S)) (earlier : List (Write S))
    (m : S.Model) (rows : List (S.Row m)) (world : World S ι) (transaction : Transaction S) : Prop where
  held : Held rely first (pins ++ rows.map fun row => ⟨m, S.key row, none⟩) world transaction
  written : transaction.writes = earlier ++ rows.map (.put m)
  distinct : (rows.map S.key).Nodup

variable {earlier : List (Write S)} {rows : List (S.Row m)}

theorem Inserted.none (held : Held rely first pins world transaction) :
    Inserted rely first pins transaction.writes m [] world transaction :=
  ⟨by simpa using held, by simp, List.nodup_nil⟩

theorem Inserted.later (inserted : Inserted rely first pins earlier m rows world transaction)
    (later : Later rely i transaction.locks world after) :
    Inserted rely first pins earlier m rows after transaction :=
  ⟨inserted.held.later later, inserted.written, inserted.distinct⟩

theorem Inserted.fresh (inserted : Inserted rely first pins earlier m rows world transaction) {row : S.Row m}
    (member : row ∈ rows) : world.database.get m (S.key row) = Option.none :=
  (inserted.held.pinned ⟨m, S.key row, Option.none⟩ (List.mem_append_right _ (List.mem_map_of_mem member))).2

end Held

theorem Safe.insert {build : Nat → Nat → S.Row m} {next : S.Row m → Program S ε α} {first : World S ι}
    {pins : List (Pin S)} {earlier : List (Write S)} {rows : List (S.Row m)}
    (inserted : Inserted rely first pins earlier m rows world transaction) (unlisted : putsOf m earlier = [])
    (kept : erasesOf m earlier = []) (fails : Fails rely i kinds post true world)
    (resume : ∀ after larger row, (∃ stamp clock, row = build stamp clock) → S.check row = true →
      Inserted rely first pins earlier m (rows ++ [row]) after larger → Fails rely i kinds post true after →
      Safe commits rely i post (next row) (some larger) after) :
    Safe commits rely i post (Program.create m build >>= next) (some transaction) world := by
  refine Safe.createInside fails fun after later row built created fails => ?_
  have erased : erasesOf m transaction.writes = [] := by
    rw [inserted.written, erasesOf_append, kept, erasesOf_map_put, List.append_nil]
  obtain ⟨apart, fresh⟩ := after.database.get_none erased created.fresh
  rw [inserted.written, putsOf_append, unlisted, List.nil_append, putsOf_map_same, List.map_id'] at apart
  refine resume _ _ row ⟨_, _, built⟩ created.checked ⟨?_, ?_, ?_⟩ fails
  · rw [List.map_append, ← List.append_assoc]
    exact inserted.held.insert later _ _ fresh
  · rw [inserted.written, List.map_append, List.append_assoc]
    rfl
  · rw [List.map_append, List.nodup_append]
    refine ⟨inserted.distinct, List.nodup_singleton _, ?_⟩
    rintro _ inside _ new rfl
    rw [List.mem_singleton.mp new] at inside
    exact apart inside

theorem Safe.updateUniqueInside {filter : S.Row m → Bool} {change : Change S m} {next : Nat → Program S ε α}
    {k : S.Key m} (only : ∀ row, filter row = true → S.key row = k) (fails : Fails rely i kinds post true world)
    (missed : ∀ after, Later rely i transaction.locks world after →
      (∀ row, (after.database.applyAll transaction.writes).get m k = some row → filter row = false) →
      Fails rely i kinds post true (after.record (updating i m true) []) →
      Safe commits rely i post (next 0) (some transaction) (after.record (updating i m true) []))
    (hit : ∀ after, Later rely i transaction.locks world after →
      ∀ row, (after.database.applyAll transaction.writes).get m k = some row → filter row = true →
      S.check (change.apply row) = true → Fails rely i kinds post true (after.record (updating i m true) []) →
      Safe commits rely i post (next 1)
        (some ⟨transaction.writes ++ [.put m (change.apply row)], transaction.locks ++ changeLocks change [row]⟩)
        (after.record (updating i m true) [])) :
    Safe commits rely i post (Program.updateMany m filter change >>= next) (some transaction) world := by
  refine Safe.updateManyInside fails fun after later old same checked fails => ?_
  rcases ((after.database.applyAll transaction.writes).table m).filter_key only with
    ⟨nothing, absent⟩ | ⟨row, found, matched, listed⟩
  · rw [nothing] at same
    subst same
    simpa [puts, changeLocks] using missed after later absent fails
  · rw [listed] at same
    subst same
    exact hit after later row found matched (checked row (List.mem_singleton.mpr rfl)) fails

theorem Safe.update {filter : S.Row m → Bool} {change : Change S m} {next : S.Row m → Program S ε α}
    (fails : Fails rely i kinds post false world)
    (resume : ∀ after, Later rely i [] world after →
      ∀ row ∈ (after.database.table m).rows, filter row = true → S.check (change.apply row) = true →
      Allowed commits after [.put m (change.apply row)] ∧
        Safe commits rely i post (next (change.apply row)) none
          (after.record ⟨some i, some (m, .update), [], false⟩ [.put m (change.apply row)])) :
    Safe commits rely i post (Program.update m filter change >>= next) none world := by
  refine Safe.query fails fun after order outcome later executed => ?_
  obtain ⟨row, member, matched, rfl, checked⟩ := Query.exec_update executed
  exact resume after later row member matched checked

theorem Safe.updateInside {filter : S.Row m → Bool} {change : Change S m} {next : S.Row m → Program S ε α}
    (fails : Fails rely i kinds post true world)
    (resume : ∀ after, Later rely i transaction.locks world after →
      ∀ row ∈ ((after.database.applyAll transaction.writes).table m).rows, filter row = true →
      S.check (change.apply row) = true →
      Fails rely i kinds post true (after.record ⟨some i, some (m, .update), [], true⟩ []) →
      Safe commits rely i post (next (change.apply row))
        (some ⟨transaction.writes ++ [.put m (change.apply row)],
          transaction.locks ++ changeLocks change [row]⟩)
        (after.record ⟨some i, some (m, .update), [], true⟩ [])) :
    Safe commits rely i post (Program.update m filter change >>= next) (some transaction) world := by
  refine Safe.queryInside fails fun after order outcome later executed fails => ?_
  obtain ⟨row, member, matched, rfl, checked⟩ := Query.exec_update executed
  exact resume after later row member matched checked fails

theorem Safe.delete {filter : S.Row m → Bool} {next : S.Row m → Program S ε α}
    (fails : Fails rely i kinds post false world)
    (resume : ∀ after, Later rely i [] world after →
      ∀ row ∈ (after.database.table m).rows, filter row = true →
      Allowed commits after (erases after.database row) ∧
        Safe commits rely i post (next row) none
          (after.record ⟨some i, some (m, .delete), [], false⟩ (erases after.database row))) :
    Safe commits rely i post (Program.delete m filter >>= next) none world := by
  refine Safe.query fails fun after order outcome later executed => ?_
  obtain ⟨row, member, matched, rfl⟩ := Query.exec_delete executed
  exact resume after later row member matched

theorem Safe.deleteManyInside {filter : S.Row m → Bool} {next : Nat → Program S ε α}
    (fails : Fails rely i kinds post true world)
    (resume : ∀ after, Later rely i transaction.locks world after →
      ∀ old, old = ((after.database.applyAll transaction.writes).table m).rows.filter filter →
      Fails rely i kinds post true (after.record ⟨some i, some (m, .deleteMany), [], true⟩ []) →
      Safe commits rely i post (next old.length)
        (some ⟨transaction.writes ++ old.flatMap (erases (after.database.applyAll transaction.writes)),
          transaction.locks ++ (old.flatMap (erases (after.database.applyAll transaction.writes))).flatMap Write.locks⟩)
        (after.record ⟨some i, some (m, .deleteMany), [], true⟩ [])) :
    Safe commits rely i post (Program.deleteMany m filter >>= next) (some transaction) world := by
  refine Safe.queryInside fails fun after order outcome later executed fails => ?_
  obtain rfl := Query.exec_deleteMany executed
  exact resume after later _ rfl fails

theorem Safe.lockInside {filter : S.Row m → Bool} {next : List (S.Row m) → Program S ε α}
    (fails : Fails rely i kinds post true world)
    (resume : ∀ after rows, Later rely i transaction.locks world after →
      rows.Perm (((after.database.applyAll transaction.writes).table m).rows.filter filter) →
      Fails rely i kinds post true (after.record ⟨some i, some (m, .lock), rows.map (Sigma.mk m), true⟩ []) →
      Safe commits rely i post (next rows)
        (some ⟨transaction.writes, transaction.locks ++ rows.map fun row => Lock.row m (S.key row)⟩)
        (after.record ⟨some i, some (m, .lock), rows.map (Sigma.mk m), true⟩ [])) :
    Safe commits rely i post (Program.lock m filter >>= next) (some transaction) world := by
  refine Safe.queryInside fails fun after order outcome later executed fails => ?_
  cases executed
  rw [List.append_nil]
  exact resume after _ later (arrange_perm _ _) fails

theorem Safe.now {next : Nat → Program S ε α} (fails : Fails rely i kinds post session.isSome world)
    (resume : ∀ after, Later rely i (locksOf session) world after →
      Fails rely i kinds post session.isSome (after.record ⟨some i, none, [], session.isSome⟩ []) →
      Safe commits rely i post (next after.clock) session
        (after.record ⟨some i, none, [], session.isSome⟩ [])) :
    Safe commits rely i post (Program.now >>= next) session world := by
  intro after later
  have now := fails.idle (Later.idle later)
  exact ⟨now.stopped, Safe.failed now nofun,
    fun order => ⟨.inl rfl, resume after later (fails.read later _)⟩⟩

end BusinessPlatform.Engine
