import BusinessPlatform.TenantScoping

/-! The scoped operations are confined to the tenant of the context. Two
operations that the extension does not know, and the cursors of all others, are
confined only by their own arguments. -/

namespace BusinessPlatform.TenantScoping
open Engine

variable {Rest Answer : Type} {tenantId : String}

def ofTenant (tenantId : String) (row : Record) : Bool := row "tenantId" = .text tenantId

/-- What was left of other tenants, and whose rows were written. -/
structure Confined (tenantId : String) (table : List Record) (reply : Reply Answer) : Prop where
  foreign : (reply.table.filter fun row => !ofTenant tenantId row) = table.filter fun row => !ofTenant tenantId row
  written : ∀ row ∈ reply.written, ofTenant tenantId row = true

def Operation.reads : Operation → Bool
  | .findUnique | .findUniqueOrThrow | .findFirst | .findFirstOrThrow | .findMany | .count | .aggregate | .groupBy => true
  | _ => false

/-- An operation in a tenant's context neither sees nor touches the rows of
others, and without a context it is never sent. -/
structure Isolated (tenantId : String) (operation : Operation) (args : Args Rest) : Prop where
  reading : operation.reads = true → ∀ (Answer : Type) (client : Client Rest Answer) (model : ModelName) (table other : List Record),
    model ∈ TENANT_SCOPED_MODELS → table.filter (ofTenant tenantId) = other.filter (ofTenant tenantId) →
    (applyTenantScoping (some tenantId) model operation args fun args => (client.query model operation table args).answer) =
      applyTenantScoping (some tenantId) model operation args fun args => (client.query model operation other args).answer
  writing : ∀ (Answer : Type) (client : Client Rest Answer) (model : ModelName) (table : List Record) (reply : Reply Answer),
    model ∈ TENANT_SCOPED_MODELS →
    (applyTenantScoping (some tenantId) model operation args fun args => client.query model operation table args) = .ok reply →
    Confined tenantId table reply
  closed : ∀ (β : Type) (model : ModelName) (query : Args Rest → β), model ∈ TENANT_SCOPED_MODELS →
    applyTenantScoping none model operation args query = .error (.internalServerError NO_TENANT_CONTEXT)

section Table
variable {matched : Record → Bool} {change : Record → Record} {table : List Record}

theorem filter_updateFirst (own : ∀ row, matched row = true → ofTenant tenantId row = true ∧ ofTenant tenantId (change row) = true) :
    ((updateFirst matched change table).filter fun row => !ofTenant tenantId row) =
      table.filter fun row => !ofTenant tenantId row := by
  induction table with
  | nil => rfl
  | cons row rest ih =>
    rw [updateFirst]
    split
    next found =>
      obtain ⟨before, after⟩ := own row found
      simp [before, after]
    next => rw [List.filter_cons, List.filter_cons, ih]

theorem filter_updateAll (own : ∀ row, matched row = true → ofTenant tenantId row = true ∧ ofTenant tenantId (change row) = true) :
    ((table.map fun row => if matched row then change row else row).filter fun row => !ofTenant tenantId row) =
      table.filter fun row => !ofTenant tenantId row := by
  induction table with
  | nil => rfl
  | cons row rest ih =>
    rw [List.map_cons, List.filter_cons, List.filter_cons, ih]
    split
    next found =>
      obtain ⟨before, after⟩ := own row found
      simp [before, after]
    next => rfl

theorem filter_eraseFirst (own : ∀ row, matched row = true → ofTenant tenantId row = true) :
    ((table.eraseP matched).filter fun row => !ofTenant tenantId row) = table.filter fun row => !ofTenant tenantId row := by
  induction table with
  | nil => rfl
  | cons row rest ih =>
    rw [List.eraseP_cons]
    cases found : matched row with
    | true => simp [own row found]
    | false => rw [cond_false, List.filter_cons, List.filter_cons, ih]

theorem filter_deleteAll (own : ∀ row, matched row = true → ofTenant tenantId row = true) :
    ((table.filter fun row => !matched row).filter fun row => !ofTenant tenantId row) =
      table.filter fun row => !ofTenant tenantId row := by
  rw [List.filter_filter]
  refine List.filter_congr fun row _ => ?_
  cases found : matched row with
  | true => simp [own row found]
  | false => simp

end Table

theorem scopeWhere_own {filter : Option (WhereInput Record)} {row : Record}
    (matched : WhereInput.matches (scopeWhere filter tenantId) row = true) : ofTenant tenantId row = true :=
  decide_eq_true ((equals_true (by simp)).mp (WhereInput.matches_set matched))

theorem scopeFields_own (fields : Fields Assignment) (row : Record) :
    ofTenant tenantId (assign (scopeFields fields tenantId) row) = true := by
  simp [ofTenant, assign, scopeFields]

/-- A tenant's rows alone decide what a scan for rows of the tenant finds. -/
theorem own_scan {matched : Record → Bool} (own : ∀ row, matched row = true → ofTenant tenantId row = true)
    {table other : List Record} (agree : table.filter (ofTenant tenantId) = other.filter (ofTenant tenantId)) :
    table.filter matched = other.filter matched := by
  have within (rows : List Record) : rows.filter matched = (rows.filter (ofTenant tenantId)).filter matched := by
    rw [List.filter_filter]
    refine List.filter_congr fun row _ => ?_
    cases found : matched row with
    | true => simp [own row found]
    | false => simp
  rw [within table, agree, ← within other]

section Client
variable {client : Client Rest Answer} {model : ModelName} {operation : Operation} {rest : Rest} {table : List Record}

theorem refuse_confined (error : Error) : Confined tenantId table (Client.refuse table error : Reply Answer) :=
  ⟨rfl, nofun⟩

theorem write_confined {after written : List Record}
    (foreign : (after.filter fun row => !ofTenant tenantId row) = table.filter fun row => !ofTenant tenantId row)
    (own : ∀ row ∈ written, ofTenant tenantId row = true) :
    Confined tenantId table (client.write model operation rest table after written) := by
  unfold Client.write
  split
  · exact ⟨foreign, own⟩
  · exact refuse_confined _

theorem insert_confined {rows : List (Fields Assignment)}
    (own : rows.all creatable = true → ∀ fields ∈ rows, ∀ row, ofTenant tenantId (assign fields row) = true) :
    Confined tenantId table (client.insert model operation rest table rows) := by
  unfold Client.insert
  split
  next valid =>
    have created : ∀ row ∈ rows.map fun fields => assign fields (client.default model), ofTenant tenantId row = true := by
      intro row member
      obtain ⟨fields, inside, rfl⟩ := List.mem_map.mp member
      exact own valid fields inside _
    have kept : ((rows.map fun fields => assign fields (client.default model)).filter fun row => !ofTenant tenantId row) = [] :=
      List.filter_eq_nil_iff.mpr fun row member => by simp [created row member]
    exact write_confined (by rw [List.filter_append, kept, List.append_nil]) created
  next => exact refuse_confined _

theorem updateOne_confined {matched : Record → Bool} {fields : Fields Assignment}
    (own : updatable fields = true → ∀ row, matched row = true →
      ofTenant tenantId row = true ∧ ofTenant tenantId (assign fields row) = true) :
    Confined tenantId table (client.updateOne model operation rest table matched fields) := by
  unfold Client.updateOne
  split
  next valid =>
    split
    next row found =>
      refine write_confined (filter_updateFirst (own valid)) fun new member => ?_
      rw [List.mem_singleton.mp member]
      exact (own valid row (List.find?_some found)).2
    next => exact refuse_confined _
  next => exact refuse_confined _

theorem updateAll_confined {matched : Record → Bool} {fields : Fields Assignment}
    (own : updatable fields = true → ∀ row, matched row = true →
      ofTenant tenantId row = true ∧ ofTenant tenantId (assign fields row) = true) :
    Confined tenantId table (client.updateAll model operation rest table matched fields) := by
  unfold Client.updateAll
  split
  next valid =>
    refine write_confined (filter_updateAll (own valid)) fun new member => ?_
    obtain ⟨row, inside, rfl⟩ := List.mem_map.mp member
    exact (own valid row (List.mem_filter.mp inside).2).2
  next => exact refuse_confined _

theorem upsertOne_confined {matched : Record → Bool} {create update : Fields Assignment}
    (own : updatable update = true → ∀ row, matched row = true →
      ofTenant tenantId row = true ∧ ofTenant tenantId (assign update row) = true)
    (new : creatable create = true → ∀ row, ofTenant tenantId (assign create row) = true) :
    Confined tenantId table (client.upsertOne model operation rest table matched create update) := by
  unfold Client.upsertOne
  split
  · exact updateOne_confined own
  · refine insert_confined fun valid fields member row => ?_
    rw [List.mem_singleton.mp member]
    exact new (List.all_eq_true.mp valid create (List.mem_singleton.mpr rfl)) row

theorem deleteOne_confined {matched : Record → Bool} (own : ∀ row, matched row = true → ofTenant tenantId row = true) :
    Confined tenantId table (client.deleteOne model operation rest table matched) := by
  unfold Client.deleteOne
  split
  · exact write_confined (filter_eraseFirst own) nofun
  · exact refuse_confined _

end Client

def Data.rows : Data → List (Fields Assignment)
  | .object fields => [fields]
  | .array rows => rows

/-- The arguments name no other tenant: the new rows are the tenant's, or the
rows that match are the tenant's and stay so, or the cursor names rows of the tenant
alone, unless the client refuses the arguments. -/
def NamesOwn (tenantId : String) (operation : Operation) (args : Args Rest) : Prop :=
  match operation with
  | .createManyAndReturn => args.cursor = none → ∀ data, args.data = some data → data.rows.all creatable = true →
      ∀ fields ∈ data.rows, fields.get "tenantId" = some (.value (.text tenantId))
  | .updateManyAndReturn => args.cursor = none → ∀ fields, args.data = some (.object fields) → updatable fields = true →
      ∀ row, (args.filter.getD []).matches row = true → ofTenant tenantId row = true ∧ ofTenant tenantId (assign fields row) = true
  | .findFirst | .findFirstOrThrow | .findMany | .count | .aggregate => ∀ cursor, args.cursor = some cursor →
      ∀ row, cursor.matches row = true → ofTenant tenantId row = true
  | _ => True

theorem applyTenantScoping_scoped {β : Type} {model : ModelName} {operation : Operation} {args : Args Rest}
    {query : Args Rest → β} (owned : model ∈ TENANT_SCOPED_MODELS) (named : tenantId ≠ "") :
    applyTenantScoping (some tenantId) model operation args query = .ok (query (scopeArgs operation args tenantId)) := by
  simp [applyTenantScoping, owned, requireTenantId, named, pure, Except.pure, bind, Except.bind]

theorem scopeArgs_cursor (operation : Operation) (args : Args Rest) (tenantId : String) :
    (scopeArgs operation args tenantId).cursor = args.cursor := by
  cases operation with
  | createMany => rcases args with ⟨filter, cursor, _ | fields | rows, create, update, rest⟩ <;> rfl
  | _ => rfl

private theorem query_confined {client : Client Rest Answer} {model : ModelName} {operation : Operation} {args : Args Rest}
    {table : List Record}
    (executed : args.cursor = none ∨ operation.takesCursor = true →
      Confined tenantId table (client.execute model operation table (scopeArgs operation args tenantId))) :
    Confined tenantId table (client.query model operation table (scopeArgs operation args tenantId)) := by
  rw [Client.query, scopeArgs_cursor]
  split
  next => exact refuse_confined _
  next taken =>
    refine executed ?_
    cases given : args.cursor with
    | none => exact .inl rfl
    | some cursor => exact .inr (by simpa [given] using taken)

private theorem execute_confined {client : Client Rest Answer} {model : ModelName} {operation : Operation} {args : Args Rest}
    {table : List Record} (named : NamesOwn tenantId operation args) (taken : args.cursor = none ∨ operation.takesCursor = true) :
    Confined tenantId table (client.execute model operation table (scopeArgs operation args tenantId)) := by
  have uncursored (refused : operation.takesCursor = false) : args.cursor = none := taken.resolve_right (by simp [refused])
  have insertion (rows : List (Fields Assignment))
      (names : rows.all creatable = true → ∀ fields ∈ rows, fields.get "tenantId" = some (.value (.text tenantId))) :
      rows.all creatable = true → ∀ fields ∈ rows, ∀ row, ofTenant tenantId (assign fields row) = true :=
    fun valid fields member row => by simp [ofTenant, assign, names valid fields member]
  cases operation with
  | create =>
    refine insert_confined fun _ fields member row => ?_
    rw [List.mem_singleton.mp member]
    exact scopeFields_own _ row
  | createMany =>
    have one (fields : Fields Assignment) :
        Confined tenantId table (client.insert model .createMany args.rest table [scopeFields fields tenantId]) :=
      insert_confined fun _ fields member row => by
        rw [List.mem_singleton.mp member]
        exact scopeFields_own _ row
    rcases args with ⟨filter, cursor, _ | fields | rows, create, update, rest⟩
    · exact one _
    · exact one _
    · refine insert_confined fun _ fields member row => ?_
      obtain ⟨given, _, rfl⟩ := List.mem_map.mp member
      exact scopeFields_own given row
  | createManyAndReturn =>
    rcases args with ⟨filter, cursor, _ | fields | rows, create, update, rest⟩
    · exact refuse_confined _
    · exact insert_confined (insertion _ (named (uncursored rfl) _ rfl))
    · exact insert_confined (insertion _ (named (uncursored rfl) _ rfl))
  | update =>
    exact updateOne_confined fun _ row matched => ⟨scopeWhere_own matched, scopeFields_own _ row⟩
  | updateMany =>
    exact updateAll_confined fun _ row matched => ⟨scopeWhere_own matched, scopeFields_own _ row⟩
  | updateManyAndReturn =>
    rcases args with ⟨filter, cursor, _ | fields | rows, create, update, rest⟩
    · exact refuse_confined _
    · exact updateAll_confined (named (uncursored rfl) fields rfl)
    · exact refuse_confined _
  | upsert =>
    exact upsertOne_confined (fun _ row matched => ⟨scopeWhere_own matched, scopeFields_own _ row⟩)
      fun _ row => scopeFields_own _ row
  | delete => exact deleteOne_confined fun row matched => scopeWhere_own matched
  | deleteMany =>
    exact write_confined (filter_deleteAll fun row matched => scopeWhere_own matched) nofun
  | _ => exact ⟨rfl, nofun⟩

/-- A client that refuses nothing, and tells only whether a cursor has named a row. -/
private def permissive : Client Rest Bool :=
  ⟨fun _ _ => .null, fun _ _ => true, fun _ _ _ anchor _ => .ok (anchor.any fun rows => !rows.isEmpty)⟩

private theorem creatable_tenant {fields : Fields Assignment} (valid : creatable fields = true) :
    ∃ value, fields.get "tenantId" = some (.value value) := by
  simp only [creatable, Bool.and_eq_true] at valid
  obtain ⟨⟨key, assignment⟩, found, same⟩ : ∃ field, (fields.find? fun field => field.1 = "tenantId") = some field ∧
      some field.2 = fields.get "tenantId" := by
    simp only [Fields.get] at valid ⊢
    cases found : fields.find? fun field => field.1 = "tenantId" with
    | none => simp [found] at valid
    | some field => exact ⟨field, rfl, rfl⟩
  have scalar := List.all_eq_true.mp valid.2 _ (List.mem_of_find?_eq_some found)
  cases assignment with
  | value value => exact ⟨value, same.symm⟩
  | _ => cases scalar

private theorem isolated_cursor {operation : Operation} {args : Args Rest} {cursor : WhereInput Record} (named : tenantId ≠ "")
    (taken : operation.takesCursor = true) (given : args.cursor = some cursor) (isolated : Isolated tenantId operation args)
    (row : Record) (matched : cursor.matches row = true) : ofTenant tenantId row = true := by
  by_contra foreign
  have reads : operation.reads = true := by
    cases operation with
    | findFirst | findFirstOrThrow | findMany | count | aggregate => rfl
    | _ => cases taken
  have told (table : List Record) : (permissive.query .store operation table (scopeArgs operation args tenantId)).answer =
      .ok (!(table.filter cursor.matches).isEmpty) := by
    rw [Client.query, scopeArgs_cursor, taken, Bool.not_true, Bool.and_false, if_neg Bool.false_ne_true]
    cases operation with
    | findFirst | findFirstOrThrow | findMany | count | aggregate => simp [scopeArgs, Client.execute, permissive, given]
    | _ => cases taken
  have same := isolated.reading reads Bool permissive .store [] [row] (by decide) (by simp [foreign])
  rw [applyTenantScoping_scoped (by decide) named, applyTenantScoping_scoped (by decide) named, told, told] at same
  simp [matched] at same

/-- An operation is isolated exactly if its own arguments name no other tenant, where
the extension does not scope them. -/
theorem tenant_isolation_iff (named : tenantId ≠ "") (operation : Operation) (args : Args Rest) :
    Isolated tenantId operation args ↔ NamesOwn tenantId operation args := by
  constructor
  · intro isolated
    have confined (table : List Record) : Confined tenantId table
        (permissive.query .store operation table (scopeArgs operation args tenantId)) :=
      isolated.writing Bool permissive .store table _ (by decide) (applyTenantScoping_scoped (by decide) named)
    cases operation with
    | createManyAndReturn =>
      intro uncursored data given valid fields member
      have inserted : permissive.query .store .createManyAndReturn [] (scopeArgs .createManyAndReturn args tenantId) =
          permissive.insert .store .createManyAndReturn args.rest [] data.rows := by
        cases data <;> simp [scopeArgs, Client.query, Client.execute, given, uncursored, Data.rows]
      have admitted (after : List Record) : (permissive : Client Rest Bool).admits .store after = true := rfl
      have own := (confined []).written
      rw [inserted, Client.insert, if_pos valid, Client.write, if_pos (admitted _)] at own
      obtain ⟨value, assigned⟩ := creatable_tenant (List.all_eq_true.mp valid fields member)
      have tenant := own _ (List.mem_map_of_mem member)
      simp only [ofTenant, assign, assigned, decide_eq_true_eq] at tenant
      rw [assigned, tenant]
    | updateManyAndReturn =>
      intro uncursored fields given valid row matched
      have updated : permissive.query .store .updateManyAndReturn [row] (scopeArgs .updateManyAndReturn args tenantId) =
          ⟨[assign fields row], [assign fields row], .ok false⟩ := by
        simp [scopeArgs, Client.query, Client.execute, given, uncursored, Client.updateAll, valid, Client.write, permissive, matched]
      obtain ⟨foreign, written⟩ := confined [row]
      rw [updated] at foreign written
      have after := written _ (List.mem_singleton.mpr rfl)
      refine ⟨?_, after⟩
      simpa [after] using foreign.symm
    | findFirst | findFirstOrThrow | findMany | count | aggregate =>
      exact fun cursor given row matched => isolated_cursor named rfl given isolated row matched
    | _ => trivial
  · intro names
    refine ⟨fun reads Answer client model table other owned agree => ?_, fun Answer client model table reply owned sent => ?_,
      fun β model query owned => ?_⟩
    · rw [applyTenantScoping_scoped owned named, applyTenantScoping_scoped owned named, Client.query, Client.query]
      have same : table.filter (WhereInput.matches (scopeWhere args.filter tenantId)) =
          other.filter (WhereInput.matches (scopeWhere args.filter tenantId)) := own_scan (fun _ => scopeWhere_own) agree
      split
      next => rfl
      next taken =>
        have anchored : (args.cursor.map fun cursor => table.filter cursor.matches) =
            args.cursor.map fun cursor => other.filter cursor.matches := by
          cases given : args.cursor with
          | none => rfl
          | some cursor =>
            rw [scopeArgs_cursor, given] at taken
            have own : ∀ row, cursor.matches row = true → ofTenant tenantId row = true := by
              cases operation with
              | findFirst | findFirstOrThrow | findMany | count | aggregate => exact names cursor given
              | _ => exact absurd rfl taken
            exact congrArg some (own_scan own agree)
        cases operation with
        | findUnique | findUniqueOrThrow | findFirst | findFirstOrThrow | findMany | count | aggregate | groupBy =>
          simp only [scopeArgs, Client.execute, Option.getD_some, same, anchored]
        | _ => cases reads
    · cases (applyTenantScoping_scoped owned named).symm.trans sent
      exact query_confined (execute_confined names)
    · simp [applyTenantScoping, owned, requireTenantId, bind, Except.bind]

/-- A bulk update that would move rows to another tenant is confined. -/
theorem tenant_isolation_iff_updateMany :
    Isolated "one" .updateMany
      ({ data := some (.object [("tenantId", .value (.text "two"))]), rest := () } : Args Unit) :=
  (tenant_isolation_iff (by decide) .updateMany _).mpr trivial

/-- A row is created for another tenant, another tenant's row is updated, and a page
starts at another tenant's row. -/
theorem unscoped_operations :
    ¬ Isolated "one" .createManyAndReturn
        ({ data := some (.array [[("tenantId", .value (.text "two"))]]), rest := () } : Args Unit) ∧
      ¬ Isolated "one" .updateManyAndReturn ({ data := some (.object [("name", .value (.text "name"))]), rest := () } : Args Unit) ∧
      ¬ Isolated "one" .findMany ({ cursor := some [("id", equals "id" (.text "id"))], rest := () } : Args Unit) := by
  refine ⟨fun isolated => ?_, fun isolated => ?_, fun isolated => ?_⟩
  · have confined := isolated.writing Bool permissive .store [] _ (by decide) rfl
    cases confined.written _ (List.mem_singleton.mpr rfl)
  · have confined := isolated.writing Bool permissive .store [fun _ => .text "two"] _ (by decide) rfl
    cases confined.written _ (List.mem_singleton.mpr rfl)
  · have foreign := isolated_cursor (by decide) rfl rfl isolated
      (fun column => if column = "id" then .text "id" else .text "two") (by decide)
    revert foreign
    decide

end BusinessPlatform.TenantScoping
