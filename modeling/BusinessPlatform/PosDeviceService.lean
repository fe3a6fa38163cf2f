import BusinessPlatform.Client

/-! `PosDeviceService`: registration of devices, their lifecycle and the rotation
of their credentials. -/

namespace BusinessPlatform.PosDeviceService
open Engine Program

inductive PosDeviceStatus where
  | active | suspended | retired
  deriving DecidableEq, Repr

structure Store where
  id : Id
  tenantId : Id
  deriving DecidableEq, Repr

/-- Only the hash of a credential is stored. -/
structure PosDevice where
  id : Id
  tenantId : Id
  storeId : Id
  name : String
  status : PosDeviceStatus
  credentialHash : String
  lastSeenAt : Option Timestamp
  createdAt : Nat
  deriving DecidableEq, Repr

inductive DeviceModel where
  | store | posDevice
  deriving DecidableEq, Repr

namespace DeviceModel

abbrev Row : DeviceModel → Type
  | store => Store
  | posDevice => PosDevice

inductive Index where
  | credentialHash (hash : String)
  | name (tenantId : Id) (name : String)
  deriving DecidableEq, Repr

def key : {m : DeviceModel} → Row m → Id
  | store => Store.id
  | posDevice => PosDevice.id

def indexes : {m : DeviceModel} → Row m → List Index
  | store => fun _ => []
  | posDevice => fun row => [.credentialHash row.credentialHash, .name row.tenantId row.name]

def columns : Index → List String
  | .credentialHash _ => ["credentialHash"]
  | .name _ _ => ["tenantId", "name"]

def parents : {m : DeviceModel} → Row m → List (DeviceModel × Id)
  | store => fun _ => []
  | posDevice => fun row => [(store, row.storeId)]

end DeviceModel

@[reducible] def devices : Schema where
  Model := DeviceModel
  Row := DeviceModel.Row
  Key _ := Id
  Index := DeviceModel.Index
  key := DeviceModel.key
  indexes := DeviceModel.indexes
  keyColumns _ := ["id"]
  columns := DeviceModel.columns
  check _ := true
  excludes _ _ := false
  parents row := (DeviceModel.parents row).map fun parent => ⟨parent.1, parent.2⟩
  cascade _ := []

abbrev DeviceService (α : Type) : Type 1 := Program devices HttpException α

def STORE_NOT_FOUND := "Store not found"
def DEVICE_NOT_FOUND := "Pos device not found"
def NAME_TAKEN := "A POS device with this name already exists in the tenant"
def NOT_ACTIVE := "Device is not active"
def NOT_SUSPENDED := "Device is not suspended"
def ALREADY_RETIRED := "Device is already retired"

structure CreatePosDeviceDto where
  storeId : Id
  name : String
  deriving DecidableEq, Repr

structure UpdatePosDeviceDto where
  name : Option String := none
  deriving DecidableEq, Repr

structure PosDeviceSummary where
  id : Id
  tenantId : Id
  storeId : Id
  name : String
  status : PosDeviceStatus
  lastSeenAt : Option Timestamp
  createdAt : Nat
  deriving DecidableEq, Repr

/-- The credential is told exactly once, to the one who registers or rotates it. -/
structure PosDeviceRegistrationSummary extends PosDeviceSummary where
  credential : String
  deriving DecidableEq, Repr

def toSummary (device : PosDevice) : PosDeviceSummary :=
  { id := device.id, tenantId := device.tenantId, storeId := device.storeId, name := device.name
    status := device.status, lastSeenAt := device.lastSeenAt, createdAt := device.createdAt }

/-- What `node:crypto` gives: SHA-256 in hex. The random material is an argument
of the operation that draws it. -/
abbrev Sha256 : Type := String → String

/-- A violated unique index is a name that is taken. -/
def mapNameTaken {α : Type} (request : DeviceService α) : DeviceService α :=
  tryCatch request fun failure =>
    if isP2002 failure then throw (.conflict NAME_TAKEN) else .done (.error failure)

/-- The device of the tenant that `where: { id }` finds. -/
def named (tenantId id : Id) (row : PosDevice) : Bool := row.id = id && row.tenantId = tenantId

def findDevice (tenantId id : Id) : DeviceService (Option PosDevice) :=
  findFirst (S := devices) .posDevice (named tenantId id)

def registered (sha256 : Sha256) (credential : String) (tenantId : Id) (dto : CreatePosDeviceDto) (id now : Nat) : PosDevice :=
  { id, tenantId, storeId := dto.storeId, name := dto.name, status := .active, credentialHash := sha256 credential
    lastSeenAt := none, createdAt := now }

def registerDevice (sha256 : Sha256) (credential : String) (tenantId : Id) (dto : CreatePosDeviceDto) :
    DeviceService PosDeviceRegistrationSummary := do
  let store ← findFirst (S := devices) .store fun row => row.id = dto.storeId && row.tenantId = tenantId
  throwIf store.isNone (.notFound STORE_NOT_FOUND)
  let device ← mapNameTaken (create (S := devices) .posDevice (registered sha256 credential tenantId dto))
  pure { toSummary device with credential }

/-- The columns that a patch names. -/
def patch (dto : UpdatePosDeviceDto) : Change devices .posDevice where
  apply row := { row with name := dto.name.getD row.name }
  keeps _ := rfl

def updateDevice (tenantId id : Id) (dto : UpdatePosDeviceDto) : DeviceService PosDeviceSummary := do
  let device ← findDevice tenantId id
  throwIf device.isNone (.notFound DEVICE_NOT_FOUND)
  let updated ← mapNameTaken (update (S := devices) .posDevice (named tenantId id) (patch dto))
  pure (toSummary updated)

inductive DeviceAction where
  | suspend | resume | retire
  deriving DecidableEq, Repr

namespace DeviceAction

/-- The statuses that an action starts from. -/
def expected : DeviceAction → List PosDeviceStatus
  | suspend => [.active]
  | resume => [.suspended]
  | retire => [.active, .suspended]

def target : DeviceAction → PosDeviceStatus
  | suspend => .suspended
  | resume => .active
  | retire => .retired

/-- What a guarded update that has found no row is answered with. -/
def refusal : DeviceAction → String
  | suspend => NOT_ACTIVE
  | resume => NOT_SUSPENDED
  | retire => ALREADY_RETIRED

end DeviceAction

/-- `where: { id, status: { in: statuses } }`. -/
def inStatus (tenantId id : Id) (statuses : List PosDeviceStatus) (row : PosDevice) : Bool :=
  named tenantId id row && decide (row.status ∈ statuses)

/-- `data: { status }`. -/
def setStatus (status : PosDeviceStatus) : Change devices .posDevice where
  apply row := { row with status }
  keeps _ := rfl

def setCredentialHash (credentialHash : String) : Change devices .posDevice where
  apply row := { row with credentialHash }
  keeps _ := rfl

/-- A device that is not RETIRED is changed if it is in one of the statuses when
it is written, and read again. -/
def guarded (tenantId id : Id) (statuses : List PosDeviceStatus) (change : Change devices .posDevice) (refusal : String) :
    DeviceService PosDevice := do
  let device ← findDevice tenantId id
  let device ← orThrow device (.notFound DEVICE_NOT_FOUND)
  throwIf (device.status = .retired) (.conflict ALREADY_RETIRED)
  let updated ← updateMany (S := devices) .posDevice (inStatus tenantId id statuses) change
  throwIf (updated = 0) (.conflict refusal)
  let fresh ← findDevice tenantId id
  orThrow fresh (.notFound DEVICE_NOT_FOUND)

def transition (tenantId id : Id) (action : DeviceAction) : DeviceService PosDeviceSummary := do
  let fresh ← guarded tenantId id action.expected (setStatus action.target) action.refusal
  pure (toSummary fresh)

def rotateCredential (sha256 : Sha256) (credential : String) (tenantId id : Id) :
    DeviceService PosDeviceRegistrationSummary := do
  let fresh ← guarded tenantId id [.active, .suspended] (setCredentialHash (sha256 credential)) ALREADY_RETIRED
  pure { toSummary fresh with credential }

/-- `timingSafeEqual` compares buffers of one length. -/
def verifyCredential (sha256 : Sha256) (device : PosDevice) (presentedCredential : String) : Bool :=
  let presentedHash := sha256 presentedCredential
  if presentedHash.utf8ByteSize ≠ device.credentialHash.utf8ByteSize then false
  else presentedHash = device.credentialHash

inductive DeviceCall where
  | register (tenantId : Id) (dto : CreatePosDeviceDto)
  | update (tenantId id : Id) (dto : UpdatePosDeviceDto)
  | transition (tenantId id : Id) (action : DeviceAction)
  | rotate (tenantId id : Id)
  deriving DecidableEq, Repr

inductive DeviceResponse where
  | device (summary : PosDeviceSummary)
  | registration (summary : PosDeviceRegistrationSummary)
  deriving DecidableEq, Repr

def DeviceCall.program (sha256 : Sha256) (credential : String) : DeviceCall → DeviceService DeviceResponse
  | .register tenantId dto => do
    let summary ← registerDevice sha256 credential tenantId dto
    pure (.registration summary)
  | .update tenantId id dto => do
    let summary ← updateDevice tenantId id dto
    pure (.device summary)
  | .transition tenantId id action => do
    let summary ← PosDeviceService.transition tenantId id action
    pure (.device summary)
  | .rotate tenantId id => do
    let summary ← rotateCredential sha256 credential tenantId id
    pure (.registration summary)

abbrev DeviceState (ι : Type) : Type 1 := State devices HttpException DeviceResponse ι

abbrev DeviceWorld (ι : Type) : Type := World devices ι

variable {ι : Type} [DecidableEq ι]

/-- Calls with the random material that each of them draws. -/
def deviceSystem (sha256 : Sha256) (randomBytes : ι → String) (database : Database devices) (calls : ι → DeviceCall) :
    DeviceState ι :=
  State.initial database fun i => (calls i).program sha256 (randomBytes i)

end BusinessPlatform.PosDeviceService
