import BusinessPlatform.Engine.Safety

/-! What survives interference because every commit respects it. -/

namespace BusinessPlatform.Engine
variable {S : Schema} {ι : Type} {rely : Guarantee S ι} {m : S.Model} {follows : S.Row m → S.Row m → Prop}
  {before after : World S ι}

/-- Every commit stores only rows that follow the rows they replace, and erases
none of the model. -/
def Keeps (rely : Guarantee S ι) (m : S.Model) (follows : S.Row m → S.Row m → Prop) : Prop :=
  ∀ author world writes, rely author world writes →
    erasesOf m writes = [] ∧
      ∀ row ∈ putsOf m writes, ∀ old, world.database.get m (S.key row) = some old → follows old row

theorem Keeps.row (keeps : Keeps rely m follows) {author : Option ι} {world : World S ι} {writes : List (Write S)}
    (lawful : Allowed (rely author) world writes) {k : S.Key m} {old : S.Row m}
    (found : world.database.get m k = some old) :
    ∃ new, (world.database.applyAll writes).get m k = some new ∧ (new = old ∨ follows old new) := by
  rcases lawful with rfl | lawful
  · exact ⟨old, found, .inl rfl⟩
  · obtain ⟨kept, stored⟩ := keeps _ _ _ lawful
    rcases world.database.get_cases kept k with same | ⟨row, member, rfl, now⟩
    · exact ⟨old, same.trans found, .inl rfl⟩
    · exact ⟨row, now, .inr (stored row member old found)⟩

/-- A committed row persists and only changes along the kept relation. -/
theorem Grows.row (keeps : Keeps rely m follows) (grows : Grows rely before after) {k : S.Key m} {old : S.Row m}
    (found : before.database.get m k = some old) :
    ∃ new, after.database.get m k = some new ∧ Relation.ReflTransGen follows old new := by
  induction grows with
  | refl => exact ⟨old, found, .refl⟩
  | tail earlier step ih =>
    obtain ⟨middle, there, path⟩ := ih
    cases step with
    | event label writes lawful =>
      obtain ⟨new, now, rfl | follows⟩ := keeps.row lawful there
      · exact ⟨new, now, path⟩
      · exact ⟨new, now, path.tail follows⟩
    | wait elapsed => exact ⟨middle, there, path⟩

/-- What each step of the relation preserves, a committed row keeps. -/
theorem Grows.field {β : Type} (keeps : Keeps rely m follows) (grows : Grows rely before after) {k : S.Key m}
    {old : S.Row m} (found : before.database.get m k = some old) (field : S.Row m → β)
    (same : ∀ old new, follows old new → field new = field old) :
    ∃ new, after.database.get m k = some new ∧ field new = field old := by
  obtain ⟨new, now, path⟩ := grows.row keeps found
  refine ⟨new, now, ?_⟩
  clear now
  induction path with
  | refl => rfl
  | tail earlier step ih => exact (same _ _ step).trans ih

theorem Grows.final (keeps : Keeps rely m follows) (grows : Grows rely before after) {k : S.Key m} {old : S.Row m}
    (found : before.database.get m k = some old) (final : ∀ new, ¬ follows old new) :
    after.database.get m k = some old := by
  obtain ⟨new, now, path⟩ := grows.row keeps found
  cases path.cases_head with
  | inl same => exact same ▸ now
  | inr step =>
    obtain ⟨next, follows, _⟩ := step
    exact absurd follows (final next)

/-- A scan whose rows are neither stored nor replaced by any commit. -/
theorem Grows.scan (guard : Database S → Prop) (grows : Grows rely before after) {filter : S.Row m → Bool}
    (guarded : guard before.database)
    (keeps : ∀ author world writes, rely author world writes → guard world.database →
      guard (world.database.applyAll writes) ∧ erasesOf m writes = [] ∧
        ∀ row ∈ putsOf m writes, filter row = false ∧
          ∀ old, world.database.get m (S.key row) = some old → filter old = false) :
    (after.database.table m).rows.filter filter = (before.database.table m).rows.filter filter := by
  suffices both : guard after.database ∧
      (after.database.table m).rows.filter filter = (before.database.table m).rows.filter filter from both.2
  induction grows with
  | refl => exact ⟨guarded, rfl⟩
  | tail earlier step ih =>
    cases step with
    | event label writes lawful =>
      rcases lawful with rfl | lawful
      · exact ih
      · obtain ⟨still, kept, apart⟩ := keeps _ _ _ lawful ih.1
        refine ⟨still, .trans ?_ ih.2⟩
        rw [World.record_database, Database.applyAll_table _ kept]
        exact Table.filter_putAll (fun row member => (apart row member).1) fun row member => (apart row member).2
    | wait elapsed => exact ih

theorem Grows.invariant {start world : World S ι} (holds : World S ι → Prop) (grows : Grows rely start world)
    (first : holds start)
    (event : ∀ world (label : Label S ι) writes, Grows rely start world → holds world → rely label.author world writes →
      holds (world.record label writes))
    (empty : ∀ world label, holds world → holds (world.record label []))
    (wait : ∀ world elapsed, holds world → holds (world.wait elapsed)) : holds world := by
  induction grows with
  | refl => exact first
  | tail earlier step ih =>
    cases step with
    | event label writes lawful =>
      rcases lawful with rfl | lawful
      · exact empty _ label ih
      · exact event _ label writes earlier ih lawful
    | wait elapsed => exact wait _ elapsed ih

theorem Grows.database {start world : World S ι} (holds : Database S → Prop) (grows : Grows rely start world)
    (first : holds start.database)
    (event : ∀ world (label : Label S ι) writes, Grows rely start world → holds world.database → rely label.author world writes →
      holds (world.database.applyAll writes)) : holds world.database :=
  Grows.invariant (fun world => holds world.database) grows first event (fun _ _ => id) fun _ _ => id

/-- The world that a later one grows from when an event is recorded in it. -/
structure Recorded (rely : Guarantee S ι) (start world : World S ι) (event : Event S ι) (earlier : List (Event S ι))
    (origin : World S ι) : Prop where
  before : Grows rely start origin
  trace : origin.trace = earlier
  database : origin.database = event.before
  lawful : Allowed (rely event.author) origin event.writes
  after : Grows rely (origin.record event.toLabel event.writes) world

theorem Recorded.grows {start world origin : World S ι} {event : Event S ι} {earlier : List (Event S ι)}
    (recorded : Recorded rely start world event earlier origin) : Grows rely origin world :=
  .trans (.single (.event event.toLabel event.writes recorded.lawful)) recorded.after

/-- Every event of a trace was lawful in the world in which it was recorded. -/
theorem Grows.history {start world : World S ι} (grows : Grows rely start world) (empty : start.trace = [])
    {event : Event S ι} {earlier : List (Event S ι)} (suffix : event :: earlier <:+ world.trace) :
    ∃ origin, Recorded rely start world event earlier origin := by
  induction grows with
  | refl =>
    rw [empty] at suffix
    cases List.suffix_nil.mp suffix
  | @tail middle world grown step ih =>
    cases step with
    | event label writes lawful =>
      rcases List.suffix_cons_iff.mp suffix with same | inside
      · cases same
        exact ⟨middle, grown, rfl, rfl, lawful, .refl⟩
      · obtain ⟨origin, recorded⟩ := ih inside
        exact ⟨origin, { recorded with after := recorded.after.tail (.event label writes lawful) }⟩
    | wait elapsed =>
      obtain ⟨origin, recorded⟩ := ih suffix
      exact ⟨origin, { recorded with after := recorded.after.tail (.wait elapsed) }⟩

theorem Grows.recorded {start world : World S ι} (grows : Grows rely start world) (empty : start.trace = [])
    {event : Event S ι} (member : event ∈ world.trace) :
    ∃ earlier origin, event :: earlier <:+ world.trace ∧ Recorded rely start world event earlier origin := by
  obtain ⟨later, earlier, split⟩ := List.mem_iff_append.mp member
  have suffix : event :: earlier <:+ world.trace := ⟨later, split.symm⟩
  obtain ⟨origin, recorded⟩ := Grows.history grows empty suffix
  exact ⟨earlier, origin, suffix, recorded⟩

/-- A row that the start did not have was first stored by an event. -/
theorem Grows.stored {start world : World S ι} (grows : Grows rely start world)
    {k : S.Key m} (absent : start.database.get m k = none) (found : (world.database.get m k).isSome = true) :
    ∃ event origin, event :: origin.trace <:+ world.trace ∧ Recorded rely start world event origin.trace origin ∧
      origin.database.get m k = none ∧ ((origin.database.applyAll event.writes).get m k).isSome = true := by
  induction grows with
  | refl => simp [absent] at found
  | @tail middle world grown step ih =>
    by_cases before : (middle.database.get m k).isSome = true
    · obtain ⟨event, origin, suffix, recorded, facts⟩ := ih before
      refine ⟨event, origin, suffix.trans (Grows.trace (.single step)), ?_, facts⟩
      exact { recorded with after := recorded.after.tail step }
    · cases step with
      | event label writes lawful =>
        refine ⟨⟨label, middle.database, writes⟩, middle, List.suffix_refl _, ⟨grown, rfl, rfl, lawful, .refl⟩, ?_, found⟩
        simpa using before
      | wait elapsed => exact absurd found before

section Own
variable [DecidableEq ι] {i : ι}

/-- An author's commit is an event, before which the author had made the
earlier ones. -/
theorem World.own_event {world : World S ι} {later earlier : List (List (Write S))} {writes : List (Write S)}
    (own : world.own i = later ++ writes :: earlier) :
    ∃ event rest, event :: rest <:+ world.trace ∧ event.author = some i ∧ event.writes = writes ∧
      ∀ origin : World S ι, origin.trace = rest → origin.own i = earlier := by
  obtain ⟨database, trace, clock⟩ := world
  induction trace generalizing later with
  | nil => simp [World.own] at own
  | cons event rest ih =>
    by_cases counted : event.author = some i ∧ event.writes.isEmpty = false
    · simp only [World.own, List.filter_cons, counted, decide_true, Bool.not_false, Bool.and_self, if_pos,
        List.map_cons] at own
      cases later with
      | nil =>
        obtain ⟨same, others⟩ := List.cons.inj own
        exact ⟨event, rest, List.suffix_refl _, counted.1, same, fun origin traced => by rw [World.own, traced, others]⟩
      | cons first later =>
        obtain ⟨found, earlier, suffix, facts⟩ := ih (List.cons.inj own).2
        exact ⟨found, earlier, suffix.trans (List.suffix_cons ..), facts⟩
    · have skipped : (decide (event.author = some i) && !event.writes.isEmpty) = false := by
        simpa using fun author => by simpa using fun filled => counted ⟨author, filled⟩
      simp only [World.own, List.filter_cons, skipped] at own
      obtain ⟨found, earlier, suffix, facts⟩ := ih own
      exact ⟨found, earlier, suffix.trans (List.suffix_cons ..), facts⟩

theorem Grows.own_recorded {start world : World S ι} (grows : Grows rely start world) (empty : start.trace = [])
    {later earlier : List (List (Write S))} {writes : List (Write S)}
    (own : world.own i = later ++ writes :: earlier) :
    ∃ event rest origin, event :: rest <:+ world.trace ∧ Recorded rely start world event rest origin ∧
      event.author = some i ∧ event.writes = writes ∧ origin.own i = earlier := by
  obtain ⟨event, rest, suffix, author, same, before⟩ := World.own_event own
  obtain ⟨origin, recorded⟩ := Grows.history grows empty suffix
  exact ⟨event, rest, origin, suffix, recorded, author, same, before origin recorded.trace⟩

end Own

end BusinessPlatform.Engine
