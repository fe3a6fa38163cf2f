import BusinessPlatform.Engine.Where

/-! `applyTenantScoping`: the extension that rewrites the arguments of every
operation on a model that a tenant owns, and the operations of the client that
receive them. -/

namespace BusinessPlatform.TenantScoping
open Engine

inductive ModelName where
  | membership | role | store | asset | equipment | customer | reservation
  | category | product | productVariant | price | inventory | cart | cartItem | order | orderItem | payment
  | posDevice | posSession | posSale | posOperation | posOperationItem | posFeedEvent
  | service | booking
  | user | refreshToken | tenant | permission | rolePermission
  deriving DecidableEq, Repr

def TENANT_SCOPED_MODELS : List ModelName :=
  [.membership, .role, .store, .asset, .equipment, .customer, .reservation,
    .category, .product, .productVariant, .price, .inventory, .cart, .cartItem, .order, .orderItem, .payment,
    .posDevice, .posSession, .posSale, .posOperation, .posOperationItem, .posFeedEvent,
    .service, .booking]

inductive Operation where
  | findUnique | findUniqueOrThrow | findFirst | findFirstOrThrow | findMany | count | aggregate | groupBy
  | create | createMany | createManyAndReturn
  | update | updateMany | updateManyAndReturn | upsert
  | delete | deleteMany
  deriving DecidableEq, Repr

/-- What an object assigns to a column: a value, an operation on the old value
such as `increment`, or a nested object, which no scalar column takes. -/
inductive Assignment where
  | value (value : Scalar)
  | operation (apply : Scalar → Scalar)
  | object

inductive Data where
  | object (fields : Fields Assignment)
  | array (rows : List (Fields Assignment))

/-- The arguments that the extension knows, the row that a page starts at, and all
others. -/
structure Args (Rest : Type) where
  filter : Option (WhereInput Record) := none
  cursor : Option (WhereInput Record) := none
  data : Option Data := none
  create : Option (Fields Assignment) := none
  update : Option (Fields Assignment) := none
  rest : Rest

variable {Rest Answer : Type}

/-- The keys of an object or the indices of an array. -/
def Data.spread : Data → Fields Assignment
  | .object fields => fields
  | .array rows => (List.range rows.length).map fun index => (toString index, .object)

/-- `{ ...where, tenantId }`. -/
def scopeWhere (filter : Option (WhereInput Record)) (tenantId : String) : WhereInput Record :=
  (filter.getD []).set "tenantId" (equals "tenantId" (.text tenantId))

/-- `{ ...fields, tenantId }`. -/
def scopeFields (fields : Fields Assignment) (tenantId : String) : Fields Assignment :=
  fields.set "tenantId" (.value (.text tenantId))

def scopeArgs (operation : Operation) (args : Args Rest) (tenantId : String) : Args Rest :=
  match operation with
  | .findUnique | .findUniqueOrThrow | .findFirst | .findFirstOrThrow | .findMany | .count | .aggregate | .groupBy =>
    { args with filter := some (scopeWhere args.filter tenantId) }
  | .create => { args with data := some (.object (scopeFields ((args.data.map Data.spread).getD []) tenantId)) }
  | .createMany =>
    match args.data with
    | some (.array rows) => { args with data := some (.array (rows.map fun row => scopeFields row tenantId)) }
    | data => { args with data := some (.object (scopeFields ((data.map Data.spread).getD []) tenantId)) }
  | .update | .updateMany =>
    { args with
      filter := some (scopeWhere args.filter tenantId)
      data := some (.object (scopeFields ((args.data.map Data.spread).getD []) tenantId)) }
  | .delete | .deleteMany => { args with filter := some (scopeWhere args.filter tenantId) }
  | .upsert =>
    { args with
      filter := some (scopeWhere args.filter tenantId)
      create := some (scopeFields (args.create.getD []) tenantId)
      update := some (scopeFields (args.update.getD []) tenantId) }
  | _ => args

inductive Error where
  | internalServerError (message : String)
  | validation
  | recordNotFound
  | constraintViolation
  deriving DecidableEq, Repr

def NO_TENANT_CONTEXT := "Tenant context is not available on this request"

def requireTenantId (context : Option String) : Except Error String :=
  match context with
  | some tenantId => if tenantId = "" then .error (.internalServerError NO_TENANT_CONTEXT) else .ok tenantId
  | none => .error (.internalServerError NO_TENANT_CONTEXT)

/-- `$allOperations`: what `query` is called with, if it is called. -/
def applyTenantScoping {β : Type} (context : Option String) (model : ModelName) (operation : Operation) (args : Args Rest)
    (query : Args Rest → β) : Except Error β :=
  if model ∉ TENANT_SCOPED_MODELS then .ok (query args)
  else do
    let tenantId ← requireTenantId context
    pure (query (scopeArgs operation args tenantId))

/-- What the database and the generated client add: values of columns that are
not given, constraints on the rows of a table, and what the other arguments make
of the rows that an operation has found or written, and of the row that its cursor
names. -/
structure Client (Rest Answer : Type) where
  default : ModelName → Record
  admits : ModelName → List Record → Bool
  answer : ModelName → Operation → Rest → Option (List Record) → List Record → Except Error Answer

def Operation.takesCursor : Operation → Bool
  | .findFirst | .findFirstOrThrow | .findMany | .count | .aggregate => true
  | _ => false

/-- The table after an operation, the rows that it has created or updated as
they are afterwards, and its answer. -/
structure Reply (Answer : Type) where
  table : List Record
  written : List Record
  answer : Except Error Answer

/-- A new row takes scalars alone, and needs its tenant. -/
def creatable (fields : Fields Assignment) : Bool :=
  (fields.get "tenantId").isSome && fields.all fun field => match field.2 with
    | .value _ => true
    | _ => false

def updatable (fields : Fields Assignment) : Bool :=
  fields.all fun field => match field.2 with
    | .object => false
    | _ => true

/-- The row after the assignments. -/
def assign (fields : Fields Assignment) (row : Record) : Record := fun column =>
  match fields.get column with
  | some (.value value) => value
  | some (.operation apply) => apply (row column)
  | _ => row column

/-- Change the first row that matches. -/
def updateFirst (matched : Record → Bool) (change : Record → Record) : List Record → List Record
  | [] => []
  | row :: rest => if matched row then change row :: rest else row :: updateFirst matched change rest

namespace Client
variable (client : Client Rest Answer) (model : ModelName) (operation : Operation) (rest : Rest) (table : List Record)

/-- Nothing happens but the error. -/
def refuse (error : Error) : Reply Answer := ⟨table, [], .error error⟩

def write (after written : List Record) : Reply Answer :=
  if client.admits model after then ⟨after, written, client.answer model operation rest none written⟩
  else refuse table .constraintViolation

def insert (rows : List (Fields Assignment)) : Reply Answer :=
  if rows.all creatable then
    let created := rows.map fun fields => assign fields (client.default model)
    client.write model operation rest table (table ++ created) created
  else refuse table .validation

def updateOne (matched : Record → Bool) (fields : Fields Assignment) : Reply Answer :=
  if updatable fields then
    match table.find? matched with
    | some row => client.write model operation rest table (updateFirst matched (assign fields) table) [assign fields row]
    | none => refuse table .recordNotFound
  else refuse table .validation

def updateAll (matched : Record → Bool) (fields : Fields Assignment) : Reply Answer :=
  if updatable fields then
    client.write model operation rest table (table.map fun row => if matched row then assign fields row else row)
      ((table.filter matched).map (assign fields))
  else refuse table .validation

def upsertOne (matched : Record → Bool) (create update : Fields Assignment) : Reply Answer :=
  if table.any matched then client.updateOne model operation rest table matched update
  else client.insert model operation rest table [create]

def deleteOne (matched : Record → Bool) : Reply Answer :=
  if table.any matched then client.write model operation rest table (table.eraseP matched) []
  else refuse table .recordNotFound

/-- One operation on one table, with arguments that it takes. A cursor is looked up in
the whole table, whatever `where` is. -/
def execute (args : Args Rest) : Reply Answer :=
  let matched := (args.filter.getD []).matches
  match operation with
  | .findUnique | .findUniqueOrThrow | .findFirst | .findFirstOrThrow | .findMany | .count | .aggregate | .groupBy =>
    ⟨table, [], client.answer model operation args.rest (args.cursor.map fun cursor => table.filter cursor.matches)
      (table.filter matched)⟩
  | .create =>
    match args.data with
    | some (.object fields) => client.insert model operation args.rest table [fields]
    | _ => refuse table .validation
  | .createMany | .createManyAndReturn =>
    match args.data with
    | some (.object fields) => client.insert model operation args.rest table [fields]
    | some (.array rows) => client.insert model operation args.rest table rows
    | none => refuse table .validation
  | .update =>
    match args.data with
    | some (.object fields) => client.updateOne model operation args.rest table matched fields
    | _ => refuse table .validation
  | .updateMany | .updateManyAndReturn =>
    match args.data with
    | some (.object fields) => client.updateAll model operation args.rest table matched fields
    | _ => refuse table .validation
  | .upsert =>
    match args.create, args.update with
    | some create, some update => client.upsertOne model operation args.rest table matched create update
    | _, _ => refuse table .validation
  | .delete => client.deleteOne model operation args.rest table matched
  | .deleteMany => client.write model operation args.rest table (table.filter fun row => !matched row) []

def query (args : Args Rest) : Reply Answer :=
  if args.cursor.isSome && !operation.takesCursor then refuse table .validation
  else client.execute model operation table args

end Client
end BusinessPlatform.TenantScoping
