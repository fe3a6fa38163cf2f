import BusinessPlatform.Client

/-! `PosReconciliationService`: reports of what has become of the offline operations
of a device or of a session. -/

namespace BusinessPlatform.PosReconciliationService
open Engine Program

def DEVICE_NOT_FOUND := "Pos device not found"
def SESSION_NOT_FOUND := "POS session not found"

structure ReconciledOperation where
  operationId : Id
  clientUuid : String
  seq : Int
  status : OperationStatus
  resultCode : Option String
  orderId : Option Id
  paymentId : Option Id
  createdAt : Nat
  deriving DecidableEq, Repr

structure Totals where
  pending : Nat
  accepted : Nat
  rejected : Nat
  deriving DecidableEq, Repr

structure Partition where
  rejected : List ReconciledOperation
  accepted : List ReconciledOperation
  pending : List ReconciledOperation
  deriving DecidableEq, Repr

/-- What the reports of a device and of a session have in common. -/
structure Reconciliation extends Partition where
  totals : Totals
  deriving DecidableEq, Repr

structure DeviceReconciliationReport extends Reconciliation where
  deviceId : Id
  storeId : Id
  deriving DecidableEq, Repr

structure SessionReconciliationReport extends Reconciliation where
  sessionId : Id
  deviceId : Id
  storeId : Id
  cashierId : Id
  deriving DecidableEq, Repr

def project (operation : PosOperation) : ReconciledOperation :=
  { operationId := operation.id, clientUuid := operation.clientUuid, seq := operation.seq, status := operation.status
    resultCode := operation.resultCode, orderId := operation.resultOrderId, paymentId := operation.resultPaymentId
    createdAt := operation.createdAt }

/-- One round of the loop: the operation is pushed to the list of its status. -/
def Partition.push (lists : Partition) (operation : PosOperation) : Partition :=
  match operation.status with
  | .rejected => { lists with rejected := lists.rejected ++ [project operation] }
  | .accepted | .duplicate => { lists with accepted := lists.accepted ++ [project operation] }
  | .pending => { lists with pending := lists.pending ++ [project operation] }

def partitionOperations (operations : List PosOperation) : Partition :=
  operations.foldl Partition.push ⟨[], [], []⟩

def reconcile (operations : List PosOperation) : Reconciliation :=
  let lists := partitionOperations operations
  { lists with totals := ⟨lists.pending.length, lists.accepted.length, lists.rejected.length⟩ }

/-- `orderBy: { seq: 'asc' }`. -/
def orderBySeq {ρ : Type} (seq : ρ → Int) (rows : List ρ) : List ρ :=
  rows.insertionSort fun first second => seq first ≤ seq second

def buildDeviceReport (deviceId storeId : Id) (operations : List PosOperation) : DeviceReconciliationReport :=
  { reconcile operations with deviceId, storeId }

def getDeviceReconciliation (tenantId deviceId : Id) : Service DeviceReconciliationReport := do
  let device ← Prisma.findFirst .posDevice fun row => row.id = deviceId && row.tenantId = tenantId
  let device ← orThrow device (.notFound DEVICE_NOT_FOUND)
  let operations ← Prisma.findMany .posOperation fun row => row.deviceId = deviceId && row.tenantId = tenantId
  pure (buildDeviceReport deviceId device.storeId (orderBySeq PosOperation.seq operations))

def getSessionReconciliation (tenantId sessionId : Id) : Service SessionReconciliationReport := do
  let session ← Prisma.findFirst .posSession fun row => row.id = sessionId && row.tenantId = tenantId
  let session ← orThrow session (.notFound SESSION_NOT_FOUND)
  let operations ← Prisma.findMany .posOperation fun row => row.sessionId = sessionId && row.tenantId = tenantId
  pure { reconcile (orderBySeq PosOperation.seq operations) with
    sessionId := session.id, deviceId := session.deviceId, storeId := session.storeId, cashierId := session.userId }

end BusinessPlatform.PosReconciliationService
