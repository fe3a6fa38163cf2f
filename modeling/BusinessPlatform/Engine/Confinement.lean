import BusinessPlatform.Engine.Soundness

/-! Confinement. A program that asks only for rows of an area and changes only
such rows keeps to the area in every run: whatever a statement is given and
whatever it commits lies inside, and all other rows stay as they are. -/

namespace BusinessPlatform.Engine
variable {S : Schema} {ε α β ι : Type}

/-- The rows that a session may be given, and those that it may write. -/
structure Footprint (S : Schema) where
  visible : {m : S.Model} → S.Row m → Prop
  owned : {m : S.Model} → S.Row m → Prop

variable {area : Footprint S}

/-- The row that is stored and the row that it replaces or erases are owned. -/
structure Write.Within (area : Footprint S) (db : Database S) (write : Write S) : Prop where
  stored : ∀ m row, write = .put m row → area.owned row
  replaced : ∀ m k, Lock.row m k ∈ write.locks → ∀ old, db.get m k = some old → area.owned old

/-- What disappears with a row is owned by the owners of that row. -/
def Cascades (area : Footprint S) (db : Database S) : Prop :=
  ∀ (m : S.Model) (k : S.Key m), ∀ child ∈ S.cascade k, ∀ dependent ∈ (db.table child.1).rows, child.2 dependent = true →
    ∃ row, db.get m k = some row ∧ (area.owned row → area.owned dependent)

def Query.Within (area : Footprint S) : Query S β → Prop
  | .find m filter | .lock m filter => ∀ row : S.Row m, filter row = true → area.visible row
  | .create _ build => ∀ id now, area.owned (build id now)
  | .updateMany m filter change | .update m filter change =>
    (∀ row : S.Row m, filter row = true → area.owned row) ∧ ∀ row, area.owned row → area.owned (change.apply row)
  | .delete m filter | .deleteMany m filter => ∀ row : S.Row m, filter row = true → area.owned row

/-- What the answer of a scan tells about its rows. -/
def Query.Tells : Query S β → β → Prop
  | .find _ filter, rows | .lock _ filter, rows => ∀ row ∈ rows, filter row = true
  | _, _ => True

def Statement.Within (area : Footprint S) : Statement S β → Prop
  | .query request => request.Within area
  | _ => True

def Statement.Tells : Statement S β → β → Prop
  | .query request, value => request.Tells value
  | _, _ => True

namespace Program

/-- Every query that the program may send stays within the area. -/
def Within (area : Footprint S) : Program S ε α → Prop
  | .done _ => True
  | .call statement next =>
    statement.Within area ∧ ∀ reply, (∀ value, reply = .ok value → statement.Tells value) → (next reply).Within area

namespace Within
variable {m : S.Model} {filter : S.Row m → Bool} {program : Program S ε α} {next : α → Program S ε β}

theorem pure {value : α} : (Pure.pure value : Program S ε α).Within area := trivial

theorem throw {exception : ε} : (Program.throw exception : Program S ε α).Within area := trivial

theorem throwIf {condition : Bool} {exception : ε} : (Program.throwIf condition exception : Program S ε Unit).Within area := by
  cases condition <;> trivial

theorem orThrow {value : Option α} {exception : ε} {next : α → Program S ε β}
    (rest : ∀ found, value = some found → (next found).Within area) :
    (Program.orThrow value exception >>= next).Within area := by
  cases value with
  | none => trivial
  | some found => exact rest found rfl

theorem ofExcept {result : Except ε α} : (Program.ofExcept result : Program S ε α).Within area := by
  cases result <;> trivial

theorem bind (first : program.Within area) (rest : ∀ value, (next value).Within area) :
    (program >>= next).Within area := by
  change (program.bind next).Within area
  induction program with
  | done result =>
    cases result with
    | ok value => exact rest value
    | error failure => trivial
  | call statement following ih => exact ⟨first.1, fun reply tells => ih reply (first.2 reply tells)⟩

theorem tryCatch {handler : Failure ε → Program S ε α} (first : program.Within area)
    (handled : ∀ failure, (handler failure).Within area) : (program.tryCatch handler).Within area := by
  induction program with
  | done result =>
    cases result with
    | ok value => trivial
    | error failure => exact handled failure
  | call statement following ih => exact ⟨first.1, fun reply tells => ih reply (first.2 reply tells)⟩

private theorem finish (body : program.Within area) : program.finish.Within area := by
  induction program with
  | done result =>
    cases result with
    | ok value =>
      refine ⟨trivial, fun reply _ => ?_⟩
      cases reply <;> trivial
    | error failure => exact ⟨trivial, fun _ _ => trivial⟩
  | call statement following ih => exact ⟨body.1, fun reply tells => ih reply (body.2 reply tells)⟩

theorem transaction (body : program.Within area) : program.transaction.Within area := by
  refine ⟨trivial, fun reply _ => ?_⟩
  cases reply with
  | ok started => exact body.finish
  | error error => trivial

theorem query {request : Query S α} (inside : request.Within area) :
    (Program.send (.query request) : Program S ε α).Within area := by
  refine ⟨inside, fun reply _ => ?_⟩
  cases reply <;> trivial

theorem send {statement : Statement S α} (inside : statement.Within area)
    (rest : ∀ value, statement.Tells value → (next value).Within area) :
    (Program.send statement >>= next).Within area := by
  refine ⟨inside, fun reply tells => ?_⟩
  cases reply with
  | ok value => exact rest value (tells value rfl)
  | error error => trivial

theorem now {next : Nat → Program S ε β} (rest : ∀ clock, (next clock).Within area) :
    (Program.now >>= next).Within area := send trivial fun value _ => rest value

theorem findMany {next : List (S.Row m) → Program S ε β} (inside : ∀ row, filter row = true → area.visible row)
    (rest : ∀ rows, (∀ row ∈ rows, filter row = true) → (next rows).Within area) :
    (Program.findMany m filter >>= next).Within area := send inside rest

theorem findFirst {next : Option (S.Row m) → Program S ε β} (inside : ∀ row, filter row = true → area.visible row)
    (rest : ∀ found, (∀ row, found = some row → filter row = true) → (next found).Within area) :
    (Program.findFirst m filter >>= next).Within area := by
  rw [Program.findFirst, bind_assoc]
  refine findMany inside fun rows matched => rest rows.head? fun row head => ?_
  exact matched row (List.mem_of_head? head)

theorem lookup (inside : ∀ row, filter row = true → area.visible row) :
    (Program.findFirst m filter : Program S ε (Option (S.Row m))).Within area := bind (query inside) fun _ => trivial

theorem create {build : Nat → Nat → S.Row m} {next : S.Row m → Program S ε β} (inside : ∀ id now, area.owned (build id now))
    (rest : ∀ row, (next row).Within area) : (Program.create m build >>= next).Within area :=
  send inside fun value _ => rest value

theorem updateMany {change : Change S m} {next : Nat → Program S ε β} (inside : ∀ row, filter row = true → area.owned row)
    (kept : ∀ row, area.owned row → area.owned (change.apply row)) (rest : ∀ count, (next count).Within area) :
    (Program.updateMany m filter change >>= next).Within area := send ⟨inside, kept⟩ fun value _ => rest value

theorem update {change : Change S m} {next : S.Row m → Program S ε β} (inside : ∀ row, filter row = true → area.owned row)
    (kept : ∀ row, area.owned row → area.owned (change.apply row)) (rest : ∀ row, (next row).Within area) :
    (Program.update m filter change >>= next).Within area := send ⟨inside, kept⟩ fun value _ => rest value

theorem delete {next : S.Row m → Program S ε β} (inside : ∀ row, filter row = true → area.owned row)
    (rest : ∀ row, (next row).Within area) : (Program.delete m filter >>= next).Within area :=
  send inside fun value _ => rest value

end Within
end Program

section Queries
variable {db : Database S} {pending : List (Write S)} (within : ∀ write ∈ pending, write.Within area db)
include within

/-- A row that is owned as the session sees it is owned as it is stored. -/
private theorem view_owned {m : S.Model} {k : S.Key m}
    (seen : ∀ row, (db.applyAll pending).get m k = some row → area.owned row) :
    ∀ old, db.get m k = some old → area.owned old := by
  intro old stored
  by_cases locked : Lock.row m k ∈ pending.flatMap Write.locks
  · obtain ⟨write, member, inside⟩ := List.mem_flatMap.mp locked
    exact (within write member).replaced m k inside old stored
  · exact seen old ((db.applyAll_get locked).trans stored)

private theorem put_within {m : S.Model} {row : S.Row m} (owned : area.owned row)
    (seen : ∀ old, (db.applyAll pending).get m (S.key row) = some old → area.owned old) :
    (Write.put m row).Within area db := by
  refine ⟨?_, ?_⟩
  · rintro _ _ ⟨⟩
    exact owned
  · intro other k locked
    rcases List.mem_cons.mp locked with same | index
    · cases same
      exact view_owned within seen
    · obtain ⟨_, _, same⟩ := List.mem_map.mp index
      cases same

private theorem erase_within {m : S.Model} {row : S.Row m} (member : row ∈ ((db.applyAll pending).table m).rows)
    (owned : area.owned row) : (Write.erase m (S.key row)).Within area db := by
  refine ⟨?_, ?_⟩
  · rintro _ _ ⟨⟩
  · intro other k locked
    cases List.mem_singleton.mp locked
    refine view_owned within fun seen found => ?_
    rwa [Option.some.inj (found.symm.trans (Table.find_eq_some.mpr ⟨member, rfl⟩))]

private theorem modified_within {m : S.Model} {old : List (S.Row m)} {change : Change S m} {value : β} {outcome : Outcome S β}
    (executed : modified (db.applyAll pending) old change value = .ok outcome)
    (matched : ∀ row ∈ old, row ∈ ((db.applyAll pending).table m).rows ∧ area.owned row)
    (kept : ∀ row, area.owned row → area.owned (change.apply row)) :
    ∀ write ∈ outcome.writes, write.Within area db := by
  obtain ⟨rfl, _⟩ := modified_admitted executed
  intro write member
  obtain ⟨new, listed, rfl⟩ := List.mem_map.mp member
  obtain ⟨row, inside, rfl⟩ := List.mem_map.mp listed
  obtain ⟨stored, owned⟩ := matched row inside
  refine put_within within (kept row owned) fun seen found => ?_
  rw [change.keeps] at found
  rwa [Option.some.inj (found.symm.trans (Table.find_eq_some.mpr ⟨stored, rfl⟩))]

/-- A row that depends on one that the session sees is pending itself, or stored
with the row that it depends on. -/
private theorem cascade_owned {m : S.Model} {row : S.Row m} (cascades : Cascades area db)
    (member : row ∈ ((db.applyAll pending).table m).rows) (owned : area.owned row) {child : (m : S.Model) × (S.Row m → Bool)}
    (among : child ∈ S.cascade (S.key row)) {dependent : S.Row child.1}
    (present : dependent ∈ ((db.applyAll pending).table child.1).rows) (depends : child.2 dependent = true) :
    area.owned dependent := by
  rcases Database.get_found _ (Table.find_eq_some.mpr ⟨present, rfl⟩) with put | stored
  · exact (within _ (mem_putsOf.mp put)).stored _ _ rfl
  · obtain ⟨parent, found, keeps⟩ := cascades m _ child among dependent (Table.find_eq_some.mp stored).1 depends
    refine keeps (view_owned within (fun seen now => ?_) parent found)
    rwa [Option.some.inj (now.symm.trans (Table.find_eq_some.mpr ⟨member, rfl⟩))]

private theorem erased_within {m : S.Model} {old : List (S.Row m)} (cascades : Cascades area db)
    (matched : ∀ row ∈ old, row ∈ ((db.applyAll pending).table m).rows ∧ area.owned row) :
    ∀ write ∈ old.flatMap (erases (db.applyAll pending)), write.Within area db := by
  intro write member
  obtain ⟨row, inside, listed⟩ := List.mem_flatMap.mp member
  obtain ⟨stored, owned⟩ := matched row inside
  rcases List.mem_cons.mp listed with rfl | dependent
  · exact erase_within within stored owned
  · obtain ⟨child, among, children⟩ := List.mem_flatMap.mp dependent
    obtain ⟨other, found, rfl⟩ := List.mem_map.mp children
    obtain ⟨present, depends⟩ := List.mem_filter.mp found
    exact erase_within within present (cascade_owned within cascades stored owned among present depends)

theorem Query.exec_within {request : Query S β} (inside : request.Within area)
    (cascades : Cascades area db) {stamp clock : Nat} {order : List Nat} {outcome : Outcome S β}
    (executed : request.exec stamp clock order (db.applyAll pending) = .ok outcome) :
    (∀ read ∈ outcome.listed, area.visible read.2) ∧ (∀ write ∈ outcome.writes, write.Within area db) ∧
      request.Tells outcome.value := by
  have matching {m : S.Model} {filter : S.Row m → Bool} (owned : ∀ row, filter row = true → area.owned row) :
      ∀ row ∈ ((db.applyAll pending).table m).rows.filter filter,
        row ∈ ((db.applyAll pending).table m).rows ∧ area.owned row := fun row member =>
    ⟨(List.mem_filter.mp member).1, owned row (List.mem_filter.mp member).2⟩
  cases request with
  | find m filter | lock m filter =>
    cases executed
    have matched : ∀ row ∈ arrange order (((db.applyAll pending).table m).rows.filter filter), filter row = true :=
      fun row member => (List.mem_filter.mp ((arrange_perm ..).mem_iff.mp member)).2
    refine ⟨?_, by simp, matched⟩
    simp only [List.forall_mem_map]
    exact fun row member => inside row (matched row member)
  | create m build =>
    obtain ⟨rfl, created⟩ := exec_create executed
    refine ⟨by simp, ?_, trivial⟩
    simp only [List.forall_mem_singleton]
    refine put_within within (inside stamp clock) fun old found => ?_
    cases found.symm.trans created.fresh
  | updateMany m filter change =>
    refine ⟨?_, modified_within within executed (matching inside.1) inside.2, trivial⟩
    obtain ⟨rfl, _⟩ := modified_admitted executed
    simp
  | update m filter change =>
    simp only [exec] at executed
    split at executed
    next => cases executed
    next row rest found =>
      refine ⟨?_, modified_within within executed (fun other member => ?_) inside.2, trivial⟩
      · obtain ⟨rfl, _⟩ := modified_admitted executed
        simp
      · refine matching inside.1 other (found ▸ ?_)
        exact List.mem_singleton.mp member ▸ List.mem_cons_self ..
  | delete m filter =>
    obtain ⟨row, stored, matched, rfl⟩ := exec_delete executed
    refine ⟨by simp, ?_, trivial⟩
    have chosen : ∀ other ∈ [row], other ∈ ((db.applyAll pending).table m).rows ∧ area.owned other := fun other member =>
      List.mem_singleton.mp member ▸ ⟨stored, inside row matched⟩
    simpa using erased_within within cascades chosen
  | deleteMany m filter =>
    obtain rfl := exec_deleteMany executed
    exact ⟨by simp, erased_within within cascades (matching inside), trivial⟩

end Queries

/-- What a session is answered and what it commits or has pending lies inside. -/
structure Reply.Within (area : Footprint S) (db : Database S) (tells : β → Prop) (reply : Reply S β) : Prop where
  listed : ∀ read ∈ reply.listed, area.visible read.2
  writes : ∀ write ∈ reply.writes, write.Within area db
  pending : ∀ transaction, reply.session = some transaction →
    reply.writes = [] ∧ ∀ write ∈ transaction.writes, write.Within area db
  result : ∀ value, reply.result = .ok value → tells value

theorem Statement.perform_within {world : World S ι} (order : List Nat) {session : Option (Transaction S)}
    (statement : Statement S β) (inside : statement.Within area)
    (pending : ∀ transaction, session = some transaction → ∀ write ∈ transaction.writes, write.Within area world.database)
    (cascades : Cascades area world.database) :
    (statement.perform world order session).Within area world.database statement.Tells := by
  have nothing : ∀ write ∈ ([] : List (Write S)), write.Within area world.database := by simp
  cases statement with
  | start => exact ⟨by simp [perform], nothing, fun _ opened => by cases opened; exact ⟨rfl, nothing⟩, fun _ _ => trivial⟩
  | rollback => exact ⟨by simp [perform], nothing, by simp [perform], fun _ _ => trivial⟩
  | now => exact ⟨by simp [perform], nothing, fun transaction opened => ⟨rfl, pending transaction opened⟩, fun _ _ => trivial⟩
  | commit =>
    refine ⟨by simp [perform], ?_, by simp [perform], fun _ _ => trivial⟩
    cases session with
    | none => exact nothing
    | some transaction => exact pending transaction rfl
  | query request =>
    cases executed : request.exec world.trace.length world.clock order (world.view session) with
    | error error =>
      simp only [perform, executed]
      exact ⟨by simp, nothing, fun transaction opened => ⟨rfl, pending transaction opened⟩, by simp⟩
    | ok outcome =>
      cases session with
      | none =>
        obtain ⟨listed, writes, tells⟩ := Query.exec_within nothing inside cascades executed
        simp only [perform, executed]
        exact ⟨listed, writes, by simp, fun value same => Except.ok.inj same ▸ tells⟩
      | some transaction =>
        have earlier := pending transaction rfl
        obtain ⟨listed, writes, tells⟩ := Query.exec_within earlier inside cascades executed
        simp only [perform, executed]
        refine ⟨listed, nothing, fun larger opened => ⟨rfl, ?_⟩, fun value same => Except.ok.inj same ▸ tells⟩
        cases opened
        exact fun write member => (List.mem_append.mp member).elim (earlier write) (writes write)

/-- The event gave its author only what is visible to him and wrote only what is his. -/
structure Event.Within (area : Footprint S) (event : Event S ι) : Prop where
  listed : ∀ read ∈ event.listed, area.visible read.2
  writes : ∀ write ∈ event.writes, write.Within area event.before

structure State.Confined (areas : ι → Footprint S) (state : State S ε α ι) : Prop where
  programs : ∀ i, (state.threads i).program.Within (areas i)
  pending : ∀ i transaction, (state.threads i).session = some transaction →
    ∀ write ∈ transaction.writes, write.Within (areas i) state.world.database
  events : ∀ event ∈ state.world.trace, ∀ i, event.author = some i → event.Within (areas i)

variable {areas : ι → Footprint S} {rely : Guarantee S ι} {post : ι → Post S ε α ι} {state next : State S ε α ι}

theorem State.Confined.initial {database : Database S} {programs : ι → Program S ε α}
    (within : ∀ i, (programs i).Within (areas i)) : (State.initial database programs).Confined areas :=
  ⟨within, fun _ _ opened => by simp [State.initial] at opened, fun _ member => by simp [State.initial] at member⟩

/-- What a session has pending it has locked: nobody else touches those rows. -/
private theorem State.Confined.others (confined : state.Confined areas) (valid : Valid rely post state) {author : Option ι}
    {writes : List (Write S)}
    (owned : ∀ lock ∈ writes.flatMap Write.locks, state.held lock = none ∨ state.held lock = author) {i : ι}
    (other : author ≠ some i) {transaction : Transaction S} (opened : (state.threads i).session = some transaction) :
    ∀ write ∈ transaction.writes, write.Within (areas i) (state.world.database.applyAll writes) := by
  intro write member
  have within := confined.pending i transaction opened write member
  refine ⟨within.stored, fun m k locked old found => within.replaced m k locked old ?_⟩
  rw [← found]
  refine (Database.applyAll_get _ fun taken => ?_).symm
  have apart := valid.apart other owned _ taken
  rw [opened] at apart
  exact apart (valid.pending i transaction opened _ (List.mem_flatMap.mpr ⟨write, member, locked⟩))

variable [DecidableEq ι]

private theorem State.Confined.thread {world : World S ι} {i : ι} {thread : Thread S ε α} {held : Lock S → Option ι}
    (program : thread.program.Within (areas i)) (programs : ∀ j, ((state.threads j).program).Within (areas j))
    (own : ∀ transaction, thread.session = some transaction → ∀ write ∈ transaction.writes, write.Within (areas i) world.database)
    (others : ∀ j, j ≠ i → ∀ transaction, (state.threads j).session = some transaction →
      ∀ write ∈ transaction.writes, write.Within (areas j) world.database)
    (events : ∀ event ∈ world.trace, ∀ j, event.author = some j → event.Within (areas j)) :
    State.Confined areas ⟨world, state.setThread i thread, held⟩ := by
  refine ⟨fun j => ?_, fun j transaction opened => ?_, events⟩
  · by_cases same : j = i
    · subst same
      simpa [State.setThread] using program
    · simpa [State.setThread, same] using programs j
  · by_cases same : j = i
    · subst same
      exact own transaction (by simpa [State.setThread] using opened)
    · exact others j same transaction (by simpa [State.setThread, same] using opened)

theorem State.Confined.step (confined : state.Confined areas) (valid : Valid rely post state)
    (cascades : ∀ i, Cascades (areas i) state.world.database) {action : Action S ι}
    (executed : state.step action = some next) : next.Confined areas := by
  cases action with
  | run i order =>
    simp only [State.step] at executed
    split at executed
    next => cases executed
    next β statement rest found =>
      split at executed
      next available =>
        cases executed
        have program := confined.programs i
        rw [found] at program
        have reply := statement.perform_within order program.1 (confined.pending i) (cascades i)
        have owned : ∀ lock ∈ (statement.perform state.world order (state.threads i).session).writes.flatMap
            Write.locks, state.held lock = none ∨ state.held lock = some i := by
          intro lock written
          rcases statement.perform_locks (valid.pending i) lock written with taken | kept
          · exact State.available_iff.mp available lock taken
          · exact .inr (valid.held i lock kept)
        refine State.Confined.thread (program.2 _ reply.result) confined.programs (fun transaction opened => ?_)
          (fun j other transaction opened => ?_) fun event member j author => ?_
        · obtain ⟨nothing, pending⟩ := reply.pending transaction opened
          rw [nothing]
          exact pending
        · exact confined.others valid owned (fun same => other (Option.some.inj same).symm) opened
        · rcases List.mem_cons.mp member with rfl | old
          · cases author
            exact ⟨reply.listed, reply.writes⟩
          · exact confined.events event old j author
      next => cases executed
  | fail i =>
    simp only [State.step] at executed
    split at executed
    next => cases executed
    next β statement rest found =>
      cases executed
      have program := confined.programs i
      rw [found] at program
      refine State.Confined.thread (program.2 _ (by simp)) confined.programs (fun transaction opened => ?_)
        (fun j _ => confined.pending j) confined.events
      rcases statement.fail_session (state.threads i).session with closed | same
      · rw [closed] at opened
        cases opened
      · rw [same] at opened
        exact confined.pending i transaction opened
  | stop i =>
    simp only [State.step] at executed
    split at executed
    next => cases executed
    next =>
      cases executed
      exact State.Confined.thread trivial confined.programs (by simp) (fun j _ => confined.pending j) confined.events
  | external writes =>
    simp only [State.step] at executed
    split at executed
    next available =>
      cases executed
      refine ⟨confined.programs, fun j transaction opened => ?_, fun event member j author => ?_⟩
      · exact confined.others valid (State.available_iff.mp available) (Option.some_ne_none j).symm opened
      · rcases List.mem_cons.mp member with rfl | old
        · cases author
        · exact confined.events event old j author
    next => cases executed
  | wait elapsed =>
    cases executed
    exact ⟨confined.programs, confined.pending, confined.events⟩

theorem State.Reaches.confined {permitted : State S ε α ι → Action S ι → Prop} {start : State S ε α ι}
    (reached : State.Reaches permitted start state) (valid : Valid rely post start)
    (environment : ∀ state writes, permitted state (.external writes) → Allowed (rely none) state.world writes)
    (cascades : ∀ world, Grows rely start.world world → ∀ i, Cascades (areas i) world.database)
    (first : start.Confined areas) : state.Confined areas := by
  refine (State.Reaches.invariant (fun state => Grows rely start.world state.world ∧ state.Confined areas) reached valid
    environment ⟨.refl, first⟩ ?_).2.2
  intro state next action valid ⟨grown, confined⟩ _ executed moves
  exact ⟨grown.trans moves.grows, confined.step valid (cascades _ grown) executed⟩

/-- Rows outside an area are the same before and after writes inside it. -/
theorem Database.scan_outside (db : Database S) {writes : List (Write S)} (within : ∀ write ∈ writes, write.Within area db)
    {m : S.Model} {filter : S.Row m → Bool} (outside : ∀ row, area.owned row → filter row = false) :
    ((db.applyAll writes).table m).rows.filter filter = (db.table m).rows.filter filter := by
  refine db.scan_apart (fun row stored => outside row ?_) fun write member k locked old found => outside old ?_
  · exact (within _ (mem_putsOf.mp stored)).stored m row rfl
  · exact (within write member).replaced m k locked old found

end BusinessPlatform.Engine
