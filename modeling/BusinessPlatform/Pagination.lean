import BusinessPlatform.Client
import BusinessPlatform.Engine.Collation
import BusinessPlatform.TenantScoping

/-! Keyset pagination of the list endpoints: the opaque cursor, the predicate that
continues after it, and the page that is cut from one row too many. -/

namespace BusinessPlatform.Pagination
open Engine

inductive PaginationError where
  | badRequest (message : String)
  | error (message : String)
  deriving DecidableEq, Repr

def CURSOR_VERSION := 1
def INVALID_CURSOR := "Invalid pagination cursor"

def invalidCursor : PaginationError := .badRequest INVALID_CURSOR

inductive CursorKeyValue where
  | string (text : String)
  | number (value : Rat)
  deriving DecidableEq, Repr

structure CursorPayload where
  v : Rat
  s : String
  d : SortDirection
  k : CursorKeyValue × String
  f : String
  deriving DecidableEq, Repr

structure CursorExpectation where
  sortBy : String
  direction : SortDirection
  fingerprint : String

structure DecodedCursor where
  primaryValue : CursorKeyValue
  idValue : String
  deriving DecidableEq, Repr

/-- What `JSON.parse` returns. A literal that overflows is an infinite number, and a
string with a lone surrogate is ill-formed: the text has U+FFFD in its place. -/
inductive Json where
  | null
  | boolean (value : Bool)
  | number (value : Rat)
  | infinite (negative : Bool)
  | string (text : String)
  | illFormed (text : String)
  | array (elements : List Json)
  | object (fields : List (String × Json))

def directionText : SortDirection → String
  | .asc => "asc"
  | .desc => "desc"

def CursorKeyValue.json : CursorKeyValue → Json
  | .string text => .string text
  | .number value => .number value

def CursorPayload.json (payload : CursorPayload) : Json :=
  .object [("v", .number payload.v), ("s", .string payload.s), ("d", .string (directionText payload.d)),
    ("k", .array [payload.k.1.json, .string payload.k.2]), ("f", .string payload.f)]

/-- The functions of the platform that cursors are made of. What was written is
read back, and instants are within 100 million days of the epoch. -/
structure Platform where
  /-- `JSON.stringify`, UTF-8 and base64url. -/
  write : CursorPayload → String
  /-- base64url, UTF-8 and `JSON.parse`, unless that throws. -/
  read : String → Option Json
  read_write : ∀ payload, read (write payload) = some payload.json
  /-- The SHA-256 of the text that `JSON.stringify` makes of an object, in hexadecimal. -/
  digest : Fields Scalar → String
  /-- `new Date(text).getTime()`, unless that is NaN. -/
  parseDate : String → Option Int
  dateString : Int → String
  toISOString : Int → String
  parseDate_range : ∀ text milliseconds, parseDate text = some milliseconds → milliseconds.natAbs ≤ 8640000000000000

variable (platform : Platform)

def encodeCursor (sortBy : String) (direction : SortDirection) (primaryValue : CursorKeyValue) (idValue fingerprint : String) :
    String :=
  platform.write ⟨CURSOR_VERSION, sortBy, direction, (primaryValue, idValue), fingerprint⟩

namespace Json

/-- `typeof value === 'object' && value !== null`. -/
def isRecord : Json → Bool
  | .array _ | .object _ => true
  | _ => false

/-- A property; `none` is undefined. -/
def property (value : Json) (key : String) : Option Json :=
  match value with
  | .object fields => Fields.get fields key
  | _ => none

def isNumber (value : Option Json) (number : Rat) : Bool :=
  match value with
  | some (.number held) => held = number
  | _ => false

def isString (value : Option Json) (text : String) : Bool :=
  match value with
  | some (.string held) => held = text
  | _ => false

/-- A string or a finite number. -/
def keyValue : Json → Option CursorKeyValue
  | .string text | .illFormed text => some (.string text)
  | .number value => some (.number value)
  | _ => none

/-- A string that is not empty. -/
def nonEmpty : Json → Option String
  | .string text => if text = "" then none else some text
  | .illFormed text => some text
  | _ => none

/-- A `text` of the database can hold the string. -/
def storable : Json → Bool
  | .string text => Char.ofNat 0 ∉ text.toList
  | _ => false

end Json

def decodeCursor (cursor : String) (expected : CursorExpectation) : Except PaginationError DecodedCursor :=
  match platform.read cursor with
  | none => .error invalidCursor
  | some parsed =>
    if !parsed.isRecord then .error invalidCursor
    else if !Json.isNumber (parsed.property "v") CURSOR_VERSION then .error invalidCursor
    else if !Json.isString (parsed.property "s") expected.sortBy
        || !Json.isString (parsed.property "d") (directionText expected.direction) then .error invalidCursor
    else if !Json.isString (parsed.property "f") expected.fingerprint then .error invalidCursor
    else
      match parsed.property "k" with
      | some (.array [primaryValue, idValue]) =>
        match primaryValue.keyValue, idValue.nonEmpty with
        | some primaryValue, some idValue => .ok ⟨primaryValue, idValue⟩
        | _, _ => .error invalidCursor
      | _ => .error invalidCursor

/-- A filter that is undefined or null is dropped, and the keys are sorted. -/
def normalized (filters : Fields (Option Scalar)) : Fields Scalar :=
  (filters.insertionSort fun first second => first.1 ≤ second.1).filterMap fun field =>
    match field.2 with
    | none | some .null => none
    | some value => some (field.1, value)

def filterFingerprint (filters : Fields (Option Scalar)) : String :=
  ((platform.digest (normalized filters)).take 8).toString

def keyValueFromRow (row : Record) (field : String) : Except PaginationError CursorKeyValue :=
  match row field with
  | .dateTime milliseconds => .ok (.number milliseconds)
  | .number value => .ok (.number value)
  | .text text => .ok (.string text)
  | _ => .error (.error s!"Unsupported cursor key field: {field}")

structure Paginated (ρ : Type) where
  data : List ρ
  nextCursor : Option String

def buildOrderBy (primaryField : String) (direction : SortDirection) : List (String × SortDirection) :=
  [(primaryField, direction), ("id", direction)]

def op (collation : Collation) (direction : SortDirection) : String → Scalar → Condition Record :=
  match direction with
  | .asc => collation.gt
  | .desc => collation.lt

def buildKeysetWhere (collation : Collation) (primaryField : String) (primaryValue : Scalar) (idValue : String)
    (direction : SortDirection) : WhereInput Record :=
  [("OR", .OR
    [[(primaryField, op collation direction primaryField primaryValue)],
      [(primaryField, equals primaryField primaryValue), ("id", op collation direction "id" (.text idValue))]])]

def fetchPage {ρ : Type} (found : List ρ) (limit : Nat)
    (cursorFor : ρ → String → SortDirection → String → Except PaginationError String)
    (sortBy : String) (direction : SortDirection) (fingerprint : String) : Except PaginationError (Paginated ρ) :=
  if limit < found.length then
    let rows := found.take limit
    match rows.getLast? with
    | some last => do
      let nextCursor ← cursorFor last sortBy direction fingerprint
      pure ⟨rows, some nextCursor⟩
    | none => .error (.error "Cannot read properties of undefined")
  else .ok ⟨found, none⟩

/-- The time value of a Date: whole milliseconds, at most 100 million days from the epoch. -/
def timeClip (time : Rat) : Option Int :=
  if -8640000000000000 ≤ time ∧ time ≤ 8640000000000000 then some (time.num.tdiv time.den) else none

def dateKeyFromCursor (value : CursorKeyValue) : Except PaginationError Scalar :=
  let time := match value with
    | .number value => timeClip value
    | .string text => platform.parseDate text
  match time with
  | some milliseconds => .ok (.dateTime milliseconds)
  | none => .error invalidCursor

structure ListContinuation where
  fingerprint : String
  keyset : Option (WhereInput Record)

def resolveListContinuation (collation : Collation) (cursor : Option String) (sortBy : String) (direction : SortDirection)
    (equality : Fields (Option Scalar)) : Except PaginationError ListContinuation :=
  let fingerprint := filterFingerprint platform equality
  match cursor with
  | none => .ok ⟨fingerprint, none⟩
  | some cursor => do
    let decoded ← decodeCursor platform cursor ⟨sortBy, direction, fingerprint⟩
    let primary ← dateKeyFromCursor platform decoded.primaryValue
    pure ⟨fingerprint, some (buildKeysetWhere collation sortBy primary decoded.idValue direction)⟩

/-- `String(value)`. -/
def stringOf (value : Scalar) : String :=
  match value with
  | .null => "null"
  | .text text => text
  | .number value => toString value
  | .boolean value => toString value
  | .dateTime milliseconds => platform.dateString milliseconds

def encodeRowCursor (lastRow : Record) (sortBy : String) (direction : SortDirection) (fingerprint : String) :
    Except PaginationError String := do
  let primaryValue ← keyValueFromRow lastRow sortBy
  pure (encodeCursor platform sortBy direction primaryValue (stringOf platform (lastRow "id")) fingerprint)

def DEFAULT_PAGE_SIZE := 20
def MAX_PAGE_SIZE := 100

/-- A query that the validators have let pass. -/
structure PageQueryDto where
  limit : Option Nat := none
  cursor : Option String := none
  order : Option SortDirection := none
  limit_range : ∀ size ∈ limit, 1 ≤ size ∧ size ≤ MAX_PAGE_SIZE := by decide

def PageQueryDto.size (query : PageQueryDto) : Nat := query.limit.getD DEFAULT_PAGE_SIZE

def PageQueryDto.direction (query : PageQueryDto) : SortDirection := query.order.getD .asc

/-- `predicates.length > 0 ? { AND: predicates } : {}`. -/
def composed (predicates : List (WhereInput Record)) : WhereInput Record :=
  if predicates.isEmpty then [] else [("AND", .AND predicates)]

/-- The filters of a list: the conditions that it puts on the rows, and the
values that its fingerprint covers. -/
structure Filters where
  predicates : List (WhereInput Record)
  covered : Fields (Option Scalar)

/-- The filters of an endpoint that compares columns with the values that were given. -/
def equality (given : Fields (Option Scalar)) : Filters :=
  let fields := given.filterMap fun field => field.2.map fun value => (field.1, equals field.1 value)
  ⟨if fields.isEmpty then [] else [fields], given⟩

variable (collation : Collation)

/-- What the list endpoints have in common: a page of the rows of the tenant. -/
def list (tenantId sortBy : String) (filters : Filters) (query : PageQueryDto) (table : List Record) :
    Except PaginationError (Paginated Record) := do
  let continuation ← resolveListContinuation platform collation query.cursor sortBy query.direction filters.covered
  let found := collation.findMany table
    (TenantScoping.scopeWhere (some (composed (filters.predicates ++ continuation.keyset.toList))) tenantId)
    (buildOrderBy sortBy query.direction) (query.size + 1)
  fetchPage found query.size (encodeRowCursor platform) sortBy query.direction continuation.fingerprint

/-- The id of a cursor as it was given. -/
def cursorId (cursor : String) : Option Json :=
  match (platform.read cursor).bind fun parsed => parsed.property "k" with
  | some (.array [_, idValue]) => some idValue
  | _ => none

/-- The client sends dates of some range, and the database takes the id. -/
def sendable (dates : Prisma.DateRange) (cursor sortBy : String) (direction : SortDirection)
    (covered : Fields (Option Scalar)) : Bool :=
  match decodeCursor platform cursor ⟨sortBy, direction, filterFingerprint platform covered⟩ with
  | .error _ => true
  | .ok decoded =>
    match dateKeyFromCursor platform decoded.primaryValue with
    | .ok (.dateTime milliseconds) => dates.covers milliseconds && (cursorId platform cursor).any Json.storable
    | _ => true

/-- A list request: it fails where a value of the predicate is refused. -/
def requestList (dates : Prisma.DateRange) (tenantId sortBy : String) (filters : Filters) (query : PageQueryDto)
    (table : List Record) : Except PaginationError (Paginated Record) :=
  if query.cursor.all fun cursor => sendable platform dates cursor sortBy query.direction filters.covered then
    list platform collation tenantId sortBy filters query table
  else .error (.error "PrismaClientUnknownRequestError")

def text (given : Option String) : Option Scalar := given.map .text

def listCustomers (tenantId : String) (query : PageQueryDto) (status : Option String) :=
  list platform collation tenantId "createdAt" (equality [("status", text status)]) query

def listCategories (tenantId : String) (query : PageQueryDto) :=
  list platform collation tenantId "createdAt" (equality []) query

def listProducts (tenantId : String) (query : PageQueryDto) (status categoryId : Option String) :=
  list platform collation tenantId "createdAt" (equality [("status", text status), ("categoryId", text categoryId)]) query

def listOrders (tenantId : String) (query : PageQueryDto) (status : Option String) :=
  list platform collation tenantId "createdAt" (equality [("status", text status)]) query

def listDevices (tenantId : String) (query : PageQueryDto) (status : Option String) :=
  list platform collation tenantId "createdAt" (equality [("status", text status)]) query

def listServices (tenantId : String) (query : PageQueryDto) (status : Option String) :=
  list platform collation tenantId "createdAt" (equality [("status", text status)]) query

def listStores (tenantId : String) (query : PageQueryDto) (status type : Option String) :=
  list platform collation tenantId "createdAt" (equality [("status", text status), ("type", text type)]) query

def listAssets (tenantId : String) (query : PageQueryDto) (type status storeId : Option String) :=
  list platform collation tenantId "createdAt"
    (equality [("type", text type), ("status", text status), ("storeId", text storeId)]) query

def listEquipment (tenantId : String) (query : PageQueryDto) (type : Option String) :=
  list platform collation tenantId "createdAt" (equality [("type", text type)]) query

/-- The query may also carry an `orderId`, which is not read. -/
def listBookings (tenantId : String) (query : PageQueryDto) (status serviceId customerId _orderId : Option String) :=
  list platform collation tenantId "startAt"
    (equality [("status", text status), ("serviceId", text serviceId), ("customerId", text customerId)]) query

def INVALID_LIST_RANGE := "from must be before to"

def parseInstant (value : String) : Except PaginationError Int :=
  match platform.parseDate value with
  | some milliseconds => .ok milliseconds
  | none => .error (.badRequest "Invalid ISO-8601 timestamp")

def listReservations (tenantId : String) (query : PageQueryDto) (sortBy status customerId equipmentId from' to' : Option String)
    (table : List Record) : Except PaginationError (Paginated Record) := do
  let start ← from'.mapM (parseInstant platform)
  let finish ← to'.mapM (parseInstant platform)
  match start, finish with
  | some start, some finish => if start < finish then pure () else .error (.badRequest INVALID_LIST_RANGE)
  | _, _ => pure ()
  let compared := equality [("status", text status), ("customerId", text customerId), ("equipmentId", text equipmentId)]
  let range := (finish.toList.map fun instant => ("startAt", collation.lt "startAt" (.dateTime instant)))
    ++ start.toList.map fun instant => ("endAt", collation.gt "endAt" (.dateTime instant))
  let filters : Filters :=
    { predicates := compared.predicates ++ if range.isEmpty then [] else [range]
      covered := compared.covered ++ [("from", start.map fun instant => .text (platform.toISOString instant)),
        ("to", finish.map fun instant => .text (platform.toISOString instant))] }
  list platform collation tenantId (sortBy.getD "createdAt") filters query table

end BusinessPlatform.Pagination
