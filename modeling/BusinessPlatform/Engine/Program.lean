import BusinessPlatform.Engine.Database

/-! Programs over a database. A program is the tree of the statements it will
send, so it can be suspended between any two of them. -/

namespace BusinessPlatform.Engine
variable {S : Schema} {ε α β γ : Type}

/-- Why a call ended without a value. A stopped call reported nothing at all. -/
inductive Failure (ε : Type) where
  | database (error : DatabaseError)
  | thrown (exception : ε)
  | stopped
  deriving DecidableEq, Repr

inductive Statement (S : Schema) : Type → Type 1 where
  | query {β : Type} (request : Query S β) : Statement S β
  | start : Statement S Unit
  | commit : Statement S Unit
  | rollback : Statement S Unit
  | now : Statement S Nat

def Statement.access : Statement S β → Option (S.Model × Operation)
  | .query request => some (request.model, request.operation)
  | _ => none

inductive Program (S : Schema) (ε α : Type) : Type 1 where
  | done (result : Except (Failure ε) α)
  | call {β : Type} (statement : Statement S β)
      (next : Except DatabaseError β → Program S ε α)

namespace Program

def bind (program : Program S ε α) (next : α → Program S ε β) : Program S ε β :=
  match program with
  | .done (.ok value) => next value
  | .done (.error failure) => .done (.error failure)
  | .call statement rest => .call statement fun reply => (rest reply).bind next

instance : Monad (Program S ε) where
  pure value := .done (.ok value)
  bind := bind

private theorem bind_id (program : Program S ε α) : id <$> program = program := by
  change program.bind (fun value => .done (.ok value)) = program
  induction program with
  | done result => cases result <;> rfl
  | call statement rest ih => simp only [bind, ih]

private theorem bind_bind (program : Program S ε α) (first : α → Program S ε β) (second : β → Program S ε γ) :
    program >>= first >>= second = program >>= fun value => first value >>= second := by
  change (program.bind first).bind second = program.bind fun value => (first value).bind second
  induction program with
  | done result => cases result <;> rfl
  | call statement rest ih => simp only [bind, ih]

instance : LawfulMonad (Program S ε) := LawfulMonad.mk' _ bind_id (fun _ _ => rfl) bind_bind

/-- Send one statement; a database error ends the program unless caught. -/
def send (statement : Statement S β) : Program S ε β :=
  .call statement fun
    | .ok value => .done (.ok value)
    | .error error => .done (.error (.database error))

def throw (exception : ε) : Program S ε α := .done (.error (.thrown exception))

def throwIf (condition : Bool) (exception : ε) : Program S ε Unit :=
  if condition then throw exception else .done (.ok ())

/-- The value of an option, or the exception. -/
def orThrow (value : Option α) (exception : ε) : Program S ε α :=
  match value with
  | some value => .done (.ok value)
  | none => throw exception

/-- The result of a pure computation, or its exception. -/
def ofExcept (result : Except ε α) : Program S ε α :=
  match result with
  | .ok value => .done (.ok value)
  | .error exception => throw exception

def tryCatch (program : Program S ε α) (handler : Failure ε → Program S ε α) : Program S ε α :=
  match program with
  | .done (.ok value) => .done (.ok value)
  | .done (.error failure) => handler failure
  | .call statement rest => .call statement fun reply => (rest reply).tryCatch handler

/-- End the transaction that a body runs in: commit its value or roll back. -/
def finish : Program S ε α → Program S ε α
  | .done (.ok value) => .call .commit fun
    | .ok () => .done (.ok value)
    | .error error => .done (.error (.database error))
  | .done (.error failure) => .call .rollback fun _ => .done (.error failure)
  | .call statement rest => .call statement fun reply => (rest reply).finish

def transaction (body : Program S ε α) : Program S ε α :=
  .call .start fun
    | .ok () => body.finish
    | .error error => .done (.error (.database error))

def findMany (m : S.Model) (filter : S.Row m → Bool) : Program S ε (List (S.Row m)) :=
  send (.query (.find m filter))

/-- `findFirst` and `findUnique`: the first row that the scan lists. -/
def findFirst (m : S.Model) (filter : S.Row m → Bool) : Program S ε (Option (S.Row m)) :=
  findMany m filter >>= fun rows => pure rows.head?

/-- `SELECT … FOR UPDATE`. -/
def lock (m : S.Model) (filter : S.Row m → Bool) : Program S ε (List (S.Row m)) :=
  send (.query (.lock m filter))

def create (m : S.Model) (row : Nat → Nat → S.Row m) : Program S ε (S.Row m) :=
  send (.query (.create m row))

def updateMany (m : S.Model) (filter : S.Row m → Bool) (change : Change S m) : Program S ε Nat :=
  send (.query (.updateMany m filter change))

def update (m : S.Model) (filter : S.Row m → Bool) (change : Change S m) : Program S ε (S.Row m) :=
  send (.query (.update m filter change))

def delete (m : S.Model) (filter : S.Row m → Bool) : Program S ε (S.Row m) :=
  send (.query (.delete m filter))

def deleteMany (m : S.Model) (filter : S.Row m → Bool) : Program S ε Nat :=
  send (.query (.deleteMany m filter))

def now : Program S ε Nat := send .now

end Program
end BusinessPlatform.Engine
