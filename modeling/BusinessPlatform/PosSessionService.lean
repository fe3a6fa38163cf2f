import BusinessPlatform.Client
import BusinessPlatform.Engine.Indexes

/-! `PosSessionService`: shifts of cashiers on devices. A device has one OPEN session
at most, which a partial unique index enforces. -/

namespace BusinessPlatform.PosSessionService
open Engine Program

structure PosSession where
  id : Id
  tenantId : Id
  deviceId : Id
  storeId : Id
  userId : Id
  status : SessionStatus
  openedAt : Nat
  closedAt : Option Nat
  createdAt : Nat
  deriving DecidableEq, Repr

inductive SessionModel where
  | posDevice | posSession
  deriving DecidableEq, Repr

namespace SessionModel

abbrev Row : SessionModel → Type
  | posDevice => PosDevice
  | posSession => PosSession

inductive Index where
  | openOnDevice (deviceId : Id)
  deriving DecidableEq, Repr

def key : {m : SessionModel} → Row m → Id
  | posDevice => PosDevice.id
  | posSession => PosSession.id

/-- `PosSession_one_open_per_device`: only OPEN sessions are listed. -/
def indexes : {m : SessionModel} → Row m → List Index
  | posDevice => fun _ => []
  | posSession => fun row => if row.status = .opened then [.openOnDevice row.deviceId] else []

/-- `PosSession_time_range_check`. -/
def check : {m : SessionModel} → Row m → Bool
  | posDevice => fun _ => true
  | posSession => fun row => row.closedAt.all fun closedAt => row.openedAt ≤ closedAt

def parents : {m : SessionModel} → Row m → List (SessionModel × Id)
  | posDevice => fun _ => []
  | posSession => fun row => [(posDevice, row.deviceId)]

end SessionModel

@[reducible] def sessions : Schema where
  Model := SessionModel
  Row := SessionModel.Row
  Key _ := Id
  Index := SessionModel.Index
  key := SessionModel.key
  indexes := SessionModel.indexes
  keyColumns _ := ["id"]
  columns _ := ["deviceId"]
  check := SessionModel.check
  excludes _ _ := false
  parents row := (SessionModel.parents row).map fun parent => ⟨parent.1, parent.2⟩
  cascade _ := []

abbrev SessionService (α : Type) : Type 1 := Program sessions HttpException α

def DEVICE_NOT_FOUND := "Pos device not found"
def DEVICE_NOT_ACTIVE := "Device is not active"
def SESSION_NOT_FOUND := "POS session not found"
def ALREADY_OPEN := "Device already has an open session"
def NOT_OPEN := "Only open sessions can be closed"

structure PosSessionSummary where
  id : Id
  tenantId : Id
  deviceId : Id
  storeId : Id
  userId : Id
  status : SessionStatus
  openedAt : Nat
  closedAt : Option Nat
  createdAt : Nat
  deriving DecidableEq, Repr

def toSummary (session : PosSession) : PosSessionSummary :=
  { id := session.id, tenantId := session.tenantId, deviceId := session.deviceId, storeId := session.storeId
    userId := session.userId, status := session.status, openedAt := session.openedAt, closedAt := session.closedAt
    createdAt := session.createdAt }

/-- The store is that of the device. -/
def openedSession (tenantId userId : Id) (device : PosDevice) (openedAt id createdAt : Nat) : PosSession :=
  { id, tenantId, deviceId := device.id, storeId := device.storeId, userId, status := .opened, openedAt
    closedAt := none, createdAt }

/-- The device of the tenant that `where: { id }` finds. -/
def deviceNamed (tenantId id : Id) (row : PosDevice) : Bool := row.id = id && row.tenantId = tenantId

def openSession (tenantId userId deviceId : Id) : SessionService PosSessionSummary := do
  let device ← findFirst (S := sessions) .posDevice (deviceNamed tenantId deviceId)
  let device ← orThrow device (.notFound DEVICE_NOT_FOUND)
  throwIf (device.status ≠ .active) (.conflict DEVICE_NOT_ACTIVE)
  let openedAt ← now
  -- a concurrent open of the same device is refused by the index
  let session ← tryCatch (create (S := sessions) .posSession (openedSession tenantId userId device openedAt)) fun failure =>
    if isP2002 failure then throw (.conflict ALREADY_OPEN) else .done (.error failure)
  pure (toSummary session)

def sessionNamed (tenantId id : Id) (row : PosSession) : Bool := row.id = id && row.tenantId = tenantId

def findSession (tenantId id : Id) : SessionService (Option PosSession) :=
  findFirst (S := sessions) .posSession (sessionNamed tenantId id)

def getSession (tenantId id : Id) : SessionService PosSessionSummary := do
  let session ← findSession tenantId id
  let session ← orThrow session (.notFound SESSION_NOT_FOUND)
  pure (toSummary session)

/-- `where: { id, status: 'OPEN' }`. -/
def openNamed (tenantId id : Id) (row : PosSession) : Bool := sessionNamed tenantId id row && row.status = .opened

/-- `data: { status: 'CLOSED', closedAt }`. -/
def setClosed (closedAt : Nat) : Change sessions .posSession where
  apply row := { row with status := .closed, closedAt := some closedAt }
  keeps _ := rfl

def closeSession (tenantId id : Id) : SessionService PosSessionSummary := do
  let closedAt ← now
  let updated ← updateMany (S := sessions) .posSession (openNamed tenantId id) (setClosed closedAt)
  if updated = 0 then
    let session ← findSession tenantId id
    throwIf session.isNone (.notFound SESSION_NOT_FOUND)
    throw (.conflict NOT_OPEN)
  else
    let fresh ← findSession tenantId id
    let fresh ← orThrow fresh (.notFound SESSION_NOT_FOUND)
    pure (toSummary fresh)

inductive SessionCall where
  | openSession (tenantId userId deviceId : Id)
  | getSession (tenantId id : Id)
  | closeSession (tenantId id : Id)
  deriving DecidableEq, Repr

def SessionCall.program : SessionCall → SessionService PosSessionSummary
  | .openSession tenantId userId deviceId => PosSessionService.openSession tenantId userId deviceId
  | .getSession tenantId id => PosSessionService.getSession tenantId id
  | .closeSession tenantId id => PosSessionService.closeSession tenantId id

abbrev SessionState (ι : Type) : Type 1 := State sessions HttpException PosSessionSummary ι

abbrev SessionWorld (ι : Type) : Type := World sessions ι

/-- A session is CLOSED from its closing time on, which is not before it was opened. -/
structure PosSession.Timed (session : PosSession) : Prop where
  closed : session.status = .opened ↔ session.closedAt = none
  ordered : ∀ closedAt ∈ session.closedAt, session.openedAt ≤ closedAt

/-- Sessions of any origin, with an OPEN one for each device at most. Keys from
`stamp` on are new. -/
structure Shifts where
  database : Database sessions
  stamp : Nat
  clock : Nat
  drawn : ∀ row ∈ (database.table .posSession).rows, row.id < stamp
  unique : Database.Unique (S := sessions) .posSession database
  timed : ∀ row ∈ (database.table .posSession).rows, row.Timed

variable {ι : Type} [DecidableEq ι]

def Shifts.system (shifts : Shifts) (calls : ι → SessionCall) : SessionState ι :=
  State.opened shifts.database shifts.stamp shifts.clock fun i => (calls i).program

end BusinessPlatform.PosSessionService
