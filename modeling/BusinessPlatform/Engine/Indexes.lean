import BusinessPlatform.Engine.Sequential

/-! Unique indexes. In every state reached no two rows of a table share an entry,
neither among the committed rows nor in what any session sees. -/

namespace BusinessPlatform.Engine
variable {S : Schema} {ε α β ι : Type} {m : S.Model}

/-- No two rows of the table share an index entry. -/
def Database.Unique (m : S.Model) (db : Database S) : Prop :=
  ∀ first ∈ (db.table m).rows, ∀ second ∈ (db.table m).rows, ∀ entry ∈ S.indexes first, entry ∈ S.indexes second →
    first = second

/-- The foreign keys of a table: the parents of every row exist. -/
def Database.Referenced (m : S.Model) (db : Database S) : Prop :=
  ∀ row ∈ (db.table m).rows, ∀ parent ∈ S.parents row, (db.get parent.1 parent.2).isSome = true

theorem clash_none {table : Table (S.key (m := m))} {row : S.Row m} (free : clash table row = none) {entry : S.Index}
    (own : entry ∈ S.indexes row) {other : S.Row m} (member : other ∈ table.rows) (held : entry ∈ S.indexes other) :
    S.key other = S.key row := by
  have apart := List.find?_eq_none.mp free entry own
  simp only [List.any_eq_true, Bool.and_eq_true, decide_eq_true_eq, not_exists, not_and] at apart
  by_contra different
  exact apart other member different held

/-- Another row of the table holds the entry. -/
def Taken (table : Table (S.key (m := m))) (row : S.Row m) (entry : S.Index) : Prop :=
  ∃ other ∈ table.rows, S.key other ≠ S.key row ∧ entry ∈ S.indexes other

theorem clash_some {table : Table (S.key (m := m))} {row : S.Row m} {entry : S.Index} {earlier later : List S.Index}
    (listed : S.indexes row = earlier ++ entry :: later) (free : ∀ other ∈ earlier, ¬ Taken table row other)
    (taken : Taken table row entry) : clash table row = some entry := by
  refine List.find?_eq_some_iff_append.mpr ⟨?_, earlier, later, listed, fun other before => ?_⟩
  · obtain ⟨holder, member, apart, held⟩ := taken
    exact List.any_eq_true.mpr ⟨holder, member, by simp [apart, held]⟩
  · have untaken := free other before
    simp only [Taken, not_exists, not_and] at untaken
    simp only [Bool.not_eq_true', List.any_eq_false, Bool.and_eq_true, decide_eq_true_eq, not_and]
    exact untaken

namespace Database

/-- Writes leave a key alone, or decide its row whatever it was before. -/
theorem applyAll_decides (writes : List (Write S)) (m : S.Model) (k : S.Key m) :
    (∀ db : Database S, (db.applyAll writes).get m k = db.get m k) ∨
      ∃ found, (∀ db : Database S, (db.applyAll writes).get m k = found) ∧
        ∀ row, found = some row → row ∈ putsOf m writes := by
  induction writes with
  | nil => exact .inl fun _ => rfl
  | cons write rest ih =>
    rw [← List.singleton_append, putsOf_append]
    rcases ih with same | ⟨found, decided, stored⟩
    · by_cases unlocked : Lock.row m k ∈ write.locks
      · refine .inr ?_
        cases write with
        | put other row =>
          have target : Lock.row m k = Lock.row other (S.key row) := by
            simpa [Write.locks, rowLocks] using unlocked
          cases target
          refine ⟨some row, fun db => (same _).trans (db.get_put m row), fun _ equal => ?_⟩
          cases equal
          simp
        | erase other key =>
          have target : Lock.row m k = Lock.row other key := by simpa [Write.locks] using unlocked
          cases target
          refine ⟨none, fun db => (same _).trans ?_, (by simp)⟩
          rw [get, Write.apply_erase_same, Table.find_erase, if_pos rfl]
      · exact .inl fun db => (same _).trans (Write.apply_get db unlocked)
    · exact .inr ⟨found, fun db => decided _, fun row equal => List.mem_append_right _ (stored row equal)⟩

end Database

variable {db : Database S}

theorem Database.Unique.untouched (unique : db.Unique m) {writes : List (Write S)}
    (other : ∀ write ∈ writes, write.model ≠ m) : (db.applyAll writes).Unique m := by
  rw [Database.Unique, db.applyAll_other other]
  exact unique

/-- Two sessions that store no common entry can commit one after the other. -/
theorem Database.Unique.merge {others mine : List (Write S)} (left : (db.applyAll others).Unique m)
    (right : (db.applyAll mine).Unique m) (apart : ∀ row ∈ putsOf m others, ∀ entry ∈ S.indexes row,
      ∀ own ∈ putsOf m mine, entry ∉ S.indexes own) : ((db.applyAll others).applyAll mine).Unique m := by
  have cases (row : S.Row m) (member : row ∈ (((db.applyAll others).applyAll mine).table m).rows) :
      row ∈ ((db.applyAll others).table m).rows ∧
          (row ∈ putsOf m others ∨ row ∈ ((db.applyAll mine).table m).rows) ∨
        row ∈ ((db.applyAll mine).table m).rows ∧ row ∈ putsOf m mine := by
    have found : ((db.applyAll others).applyAll mine).get m (S.key row) = some row :=
      Table.find_eq_some.mpr ⟨member, rfl⟩
    rcases Database.applyAll_decides mine m (S.key row) with same | ⟨decided, all, stored⟩
    · have before : (db.applyAll others).get m (S.key row) = some row := (same _).symm.trans found
      refine .inl ⟨(Table.find_eq_some.mp before).1, (Database.get_found _ before).imp_right fun there => ?_⟩
      exact (Table.find_eq_some.mp ((same db).trans there)).1
    · have now : decided = some row := (all _).symm.trans found
      exact .inr ⟨(Table.find_eq_some.mp ((all db).trans now)).1, stored row now⟩
  intro first one second two entry held shared
  rcases cases first one with ⟨inLeft, origin⟩ | ⟨inRight, put⟩
  · rcases cases second two with ⟨alsoLeft, _⟩ | ⟨alsoRight, put⟩
    · exact left first inLeft second alsoLeft entry held shared
    · rcases origin with foreign | mine
      · exact absurd shared (apart first foreign entry held second put)
      · exact right first mine second alsoRight entry held shared
  · rcases cases second two with ⟨_, foreign | mine⟩ | ⟨alsoRight, _⟩
    · exact absurd held (apart second foreign entry shared first put)
    · exact right first inRight second mine entry held shared
    · exact right first inRight second alsoRight entry held shared

theorem Query.exec_unique {request : Query S β} {stamp clock : Nat} {order : List Nat} {outcome : Outcome S β}
    (executed : request.exec stamp clock order db = .ok outcome) (unique : db.Unique m) :
    (db.applyAll outcome.writes).Unique m := by
  have changed {γ : Type} {other : S.Model} {old : List (S.Row other)} {change : Change S other} {value : γ}
      {outcome : Outcome S γ} (executed : modified db old change value = .ok outcome) :
      (db.applyAll outcome.writes).Unique m := by
    obtain ⟨written, free⟩ := modified_free executed
    by_cases same : other = m
    · subst same
      have fresh (row : S.Row other) (member : row ∈ ((db.applyAll outcome.writes).table other).rows) :
          clash ((db.applyAll outcome.writes).table other) row = none ∨ row ∈ (db.table other).rows := by
        rcases Database.get_found _ (Table.find_eq_some.mpr ⟨member, rfl⟩) with stored | there
        · rw [written, puts, putsOf_map_same, List.map_id'] at stored
          obtain ⟨before, inside, rfl⟩ := List.mem_map.mp stored
          exact .inl (free before inside)
        · exact .inr (Table.find_eq_some.mp there).1
      intro first one second two entry held shared
      have equal (keys : S.key first = S.key second) : first = second := Table.key_unique _ one two keys
      rcases fresh first one with free | before
      · exact equal (clash_none free held two shared).symm
      · rcases fresh second two with free | also
        · exact equal (clash_none free shared one held)
        · exact unique first before second also entry held shared
    · exact unique.untouched fun write member => by
        rw [written] at member
        rw [puts_model write member]
        exact same
  have deleted {other : S.Model} (old : List (S.Row other)) :
      (db.applyAll (old.flatMap (erases db))).Unique m := by
    have rows (row : S.Row m) (member : row ∈ ((db.applyAll (old.flatMap (erases db))).table m).rows) :
        row ∈ (db.table m).rows := by
      rcases Database.get_found _ (Table.find_eq_some.mpr ⟨member, rfl⟩) with stored | there
      · rw [mem_putsOf, List.mem_flatMap] at stored
        obtain ⟨parent, _, stored⟩ := stored
        rw [erases, List.mem_cons, List.mem_flatMap] at stored
        rcases stored with same | ⟨child, _, inside⟩
        · cases same
        · obtain ⟨_, _, same⟩ := List.mem_map.mp inside
          cases same
      · exact (Table.find_eq_some.mp there).1
    exact fun first one second two => unique first (rows first one) second (rows second two)
  cases request with
  | find other filter | lock other filter =>
    cases executed
    exact unique
  | create other build =>
    obtain ⟨rfl, created⟩ := exec_create executed
    by_cases same : other = m
    · subst same
      have apart (row : S.Row other) (member : row ∈ (db.table other).rows) {entry : S.Index}
          (own : entry ∈ S.indexes (build stamp clock)) : entry ∉ S.indexes row := fun held => by
        have key := clash_none created.free own member held
        have found : db.get other (S.key (build stamp clock)) = some row := Table.find_eq_some.mpr ⟨member, key⟩
        rw [created.fresh] at found
        cases found
      have rows (row : S.Row other) (member : row ∈ ((db.applyAll [.put other (build stamp clock)]).table other).rows) :
          row = build stamp clock ∨ row ∈ (db.table other).rows := by
        rw [Database.applyAll_cons, Database.applyAll_nil, Write.apply_put_same] at member
        exact (Table.mem_put.mp member).imp_right And.left
      intro first one second two entry held shared
      rcases rows first one with rfl | before
      · rcases rows second two with rfl | also
        · rfl
        · exact absurd shared (apart second also held)
      · rcases rows second two with rfl | also
        · exact absurd held (apart first before shared)
        · exact unique first before second also entry held shared
    · exact unique.untouched fun write member => by
        rw [List.mem_singleton.mp member]
        exact same
  | updateMany other filter change => exact changed executed
  | update other filter change =>
    simp only [exec] at executed
    split at executed
    next => cases executed
    next => exact changed executed
  | delete other filter =>
    obtain ⟨row, _, _, rfl⟩ := exec_delete executed
    simpa using deleted [row]
  | deleteMany other filter =>
    obtain rfl := exec_deleteMany executed
    exact deleted _

theorem Statement.perform_unique {world : World S ι} (order : List Nat) {session : Option (Transaction S)}
    (statement : Statement S β) (committed : world.database.Unique m) (seen : (world.view session).Unique m) :
    (world.database.applyAll (statement.perform world order session).writes).Unique m ∧
      ((world.database.applyAll (statement.perform world order session).writes).applyAll
        (((statement.perform world order session).session.map Transaction.writes).getD [])).Unique m := by
  cases statement with
  | start | rollback => exact ⟨committed, committed⟩
  | now => exact ⟨committed, seen⟩
  | commit => exact ⟨seen, seen⟩
  | query request =>
    cases executed : request.exec world.trace.length world.clock order (world.view session) with
    | error error =>
      simp only [perform, executed]
      exact ⟨committed, seen⟩
    | ok outcome =>
      have now := Query.exec_unique executed seen
      cases session with
      | none =>
        simp only [perform, executed]
        exact ⟨now, now⟩
      | some transaction =>
        simp only [perform, executed, Option.map_some, Option.getD_some, Database.applyAll_append]
        exact ⟨committed, now⟩

structure State.Unique (m : S.Model) (state : State S ε α ι) : Prop where
  committed : state.world.database.Unique m
  seen : ∀ i, (state.world.view (state.threads i).session).Unique m
  past : ∀ event ∈ state.world.trace, event.before.Unique m

variable {rely : Guarantee S ι} {post : ι → Post S ε α ι} {state next : State S ε α ι}

theorem State.Unique.initial {database : Database S} {programs : ι → Program S ε α} (unique : database.Unique m) :
    (State.initial database programs).Unique m := ⟨unique, fun _ => unique, nofun⟩

theorem State.Unique.opened {database : Database S} {stamp clock : Nat} {programs : ι → Program S ε α}
    (unique : database.Unique m) : (State.opened database stamp clock programs).Unique m := by
  refine ⟨unique, fun _ => unique, fun event member => ?_⟩
  rw [List.eq_of_mem_replicate member]
  exact unique

/-- Others keep what they see while somebody commits under locks of his own. -/
private theorem State.Unique.others (unique : state.Unique m) (valid : Valid rely post state) {author : Option ι}
    {writes : List (Write S)} (committed : (state.world.database.applyAll writes).Unique m)
    (owned : ∀ lock ∈ writes.flatMap Write.locks, state.held lock = none ∨ state.held lock = author) {i : ι}
    (other : author ≠ some i) (label : Label S ι) :
    ((state.world.record label writes).view (state.threads i).session).Unique m := by
  have seen := unique.seen i
  cases session : (state.threads i).session with
  | none => exact committed
  | some transaction =>
    rw [session] at seen
    refine committed.merge seen fun row stored entry held own mine shared => ?_
    have taken : Lock.index entry ∈ writes.flatMap Write.locks :=
      List.mem_flatMap.mpr ⟨_, mem_putsOf.mp stored, List.mem_cons_of_mem _ (List.mem_map_of_mem held)⟩
    have kept : Lock.index entry ∈ transaction.writes.flatMap Write.locks :=
      List.mem_flatMap.mpr ⟨_, mem_putsOf.mp mine, List.mem_cons_of_mem _ (List.mem_map_of_mem shared)⟩
    have apart := valid.apart other owned _ taken
    rw [session] at apart
    exact apart (valid.pending i transaction session _ kept)

variable [DecidableEq ι]

private theorem State.Unique.thread {world : World S ι} {i : ι} {thread : Thread S ε α}
    {held : Lock S → Option ι} (committed : world.database.Unique m) (own : (world.view thread.session).Unique m)
    (others : ∀ j, j ≠ i → (world.view (state.threads j).session).Unique m)
    (past : ∀ event ∈ world.trace, event.before.Unique m) :
    State.Unique m ⟨world, state.setThread i thread, held⟩ := by
  refine ⟨committed, fun j => ?_, past⟩
  by_cases same : j = i
  · subst same
    simpa [State.setThread] using own
  · simpa [State.setThread, same] using others j same

theorem State.Unique.step (unique : state.Unique m) (valid : Valid rely post state) {action : Action S ι}
    (foreign : ∀ writes, action = .external writes → ∀ write ∈ writes, write.model ≠ m)
    (executed : state.step action = some next) : next.Unique m := by
  have past (label : Label S ι) (writes : List (Write S)) :
      ∀ event ∈ (state.world.record label writes).trace, event.before.Unique m := by
    intro event member
    rcases List.mem_cons.mp member with rfl | old
    · exact unique.committed
    · exact unique.past event old
  cases action with
  | run i order =>
    simp only [State.step] at executed
    split at executed
    next => cases executed
    next β statement rest found =>
      split at executed
      next available =>
        cases executed
        obtain ⟨committed, own⟩ := statement.perform_unique order unique.committed (unique.seen i)
        have owned : ∀ lock ∈ (statement.perform state.world order (state.threads i).session).writes.flatMap
            Write.locks, state.held lock = none ∨ state.held lock = some i := by
          intro lock written
          rcases statement.perform_locks (valid.pending i) lock written with taken | kept
          · exact State.available_iff.mp available lock taken
          · exact .inr (valid.held i lock kept)
        refine State.Unique.thread committed own (fun j other => ?_) (past _ _)
        exact unique.others valid committed owned (fun same => other (Option.some.inj same).symm) _
      next => cases executed
  | fail i =>
    simp only [State.step] at executed
    split at executed
    next => cases executed
    next β statement rest found =>
      cases executed
      refine State.Unique.thread unique.committed ?_ (fun j _ => unique.seen j) unique.past
      rcases statement.fail_session (state.threads i).session with closed | same
      · rw [closed]
        exact unique.committed
      · rw [same]
        exact unique.seen i
  | stop i =>
    simp only [State.step] at executed
    split at executed
    next => cases executed
    next =>
      cases executed
      exact State.Unique.thread unique.committed unique.committed (fun j _ => unique.seen j) unique.past
  | external writes =>
    simp only [State.step] at executed
    split at executed
    next available =>
      cases executed
      have committed := unique.committed.untouched (foreign writes rfl)
      refine ⟨committed, fun j => ?_, past _ _⟩
      exact unique.others valid committed (State.available_iff.mp available) (Option.some_ne_none j).symm {}
    next => cases executed
  | wait elapsed =>
    cases executed
    exact ⟨unique.committed, unique.seen, unique.past⟩

/-- The unique indexes of a table that only the threads write hold in every state
reached, and held before every event. -/
theorem State.Reaches.unique {permitted : State S ε α ι → Action S ι → Prop} {start : State S ε α ι}
    (reached : State.Reaches permitted start state) (valid : Valid rely post start)
    (environment : ∀ state writes, permitted state (.external writes) → Allowed (rely none) state.world writes)
    (foreign : ∀ state writes, permitted state (.external writes) → ∀ write ∈ writes, write.model ≠ m)
    (first : start.Unique m) : state.Unique m := by
  refine (State.Reaches.invariant (fun state => state.Unique m) reached valid environment first ?_).2
  intro state next action valid unique allowed executed _
  exact unique.step valid (fun writes same => foreign state writes (same ▸ allowed)) executed

end BusinessPlatform.Engine
