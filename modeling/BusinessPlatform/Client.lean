import BusinessPlatform.Schema

/-! The client of this schema: exceptions, service methods and the queries that
they send. -/

namespace BusinessPlatform
open Engine

/-- The HTTP exceptions with their messages, and the response to an error that
no service throws on purpose. -/
inductive HttpException where
  | internalServerError
  | badRequest (message : String)
  | unauthorized (message : String)
  | forbidden (message : String)
  | notFound (message : String)
  | conflict (message : String)
  deriving DecidableEq, Repr

/-- A service method: a program over the commerce tables. -/
abbrev Service (α : Type) : Type 1 := Program commerce HttpException α

/-- An optional field of a body is absent, null or a value. -/
abbrev Field (α : Type) := Option (Option α)

/-- Prisma's code for a violated unique index. -/
def isP2002 : Failure HttpException → Bool
  | .database (.uniqueViolation _) => true
  | _ => false

namespace Prisma

abbrev findMany (m : Model) (filter : m.Row → Bool) : Service (List m.Row) :=
  Program.findMany (S := commerce) m filter

abbrev findFirst (m : Model) (filter : m.Row → Bool) : Service (Option m.Row) :=
  Program.findFirst (S := commerce) m filter

abbrev create (m : Model) (row : Nat → Nat → m.Row) : Service m.Row :=
  Program.create (S := commerce) m row

abbrev updateMany (m : Model) (filter : m.Row → Bool) (change : Change commerce m) : Service Nat :=
  Program.updateMany (S := commerce) m filter change

abbrev update (m : Model) (filter : m.Row → Bool) (change : Change commerce m) : Service m.Row :=
  Program.update (S := commerce) m filter change

/-- The rows of a query with `orderBy: { createdAt: 'asc' }`. -/
def orderBy {ρ : Type} (createdAt : ρ → Nat) (rows : List ρ) : List ρ :=
  rows.insertionSort fun first second => createdAt first ≤ createdAt second

abbrev delete (m : Model) (filter : m.Row → Bool) : Service m.Row :=
  Program.delete (S := commerce) m filter

def sendable (value : Int) : Bool := -2147483648 ≤ value && value ≤ 2147483647

/-- For an `Int` column the client sends no number beyond INTEGER. -/
def sendInteger {S : Schema} (value : Int) : Program S HttpException Unit :=
  if sendable value then pure () else .done (.error (.database .validation))

/-- The instants that can be sent. -/
structure DateRange where
  first : Timestamp
  last : Timestamp
  deriving DecidableEq, Repr

def DateRange.covers (range : DateRange) (instant : Timestamp) : Bool := range.first ≤ instant && instant ≤ range.last

/-- Dates are written with years of four digits: from 0001 to 9999. -/
def dates : DateRange := ⟨-62135596800000, 253402300799999⟩

/-- A text that a request names a row by. The database takes no NUL character. -/
inductive Reference where
  | id (id : Id)
  | refused
  deriving DecidableEq, Repr

instance {id : Nat} : OfNat Reference id := ⟨.id id⟩

def Reference.known : Reference → Option Id
  | .id text => some text
  | .refused => none

/-- The query engine or the database refuses a value. -/
def refuseValue {S : Schema} {α : Type} : Program S HttpException α := .done (.error (.database .unknownRequest))

def sendText {S : Schema} : Reference → Program S HttpException Id
  | .id id => pure id
  | .refused => refuseValue

end Prisma
end BusinessPlatform
