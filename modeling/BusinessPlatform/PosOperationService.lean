import BusinessPlatform.Client

/-! `PosOperationService`: the durable inbox of offline sale intents. -/

namespace BusinessPlatform.PosOperationService
open Engine Program

def SESSION_NOT_FOUND := "POS session not found"
def SEQUENCE_USED := "Device sequence number already used by another operation"
def SALE_INTENT := "SALE_INTENT"

structure OfflineSaleIntentItemDto where
  variantId : Id
  quantity : Int
  currency : String
  observedUnitAmountMinor : Int
  deriving DecidableEq, Repr

structure RecordOfflineSaleIntentDto where
  sessionId : Id
  clientUuid : String
  seq : Int
  items : List OfflineSaleIntentItemDto
  customerId : Option Id := none
  deriving DecidableEq, Repr

structure OfflineIntentItemSummary where
  id : Id
  variantId : Id
  quantity : Int
  currency : String
  observedUnitAmountMinor : String
  deriving DecidableEq, Repr

structure OfflineOperationSummary where
  id : Id
  tenantId : Id
  deviceId : Id
  sessionId : Id
  storeId : Id
  userId : Id
  clientUuid : String
  seq : Int
  type : String
  status : OperationStatus
  resultCode : Option String
  resultOrderId : Option Id
  resultPaymentId : Option Id
  customerId : Option Id
  processedAt : Option Nat
  createdAt : Nat
  items : List OfflineIntentItemSummary
  deriving DecidableEq, Repr

def itemSummary (item : PosOperationItem) : OfflineIntentItemSummary :=
  ⟨item.id, item.variantId, item.quantity, item.currency, toString item.observedUnitAmountMinor⟩

/-- The lines are listed in the order of their identifiers. -/
def toSummary (operation : PosOperation) (items : List PosOperationItem) : OfflineOperationSummary :=
  { id := operation.id, tenantId := operation.tenantId, deviceId := operation.deviceId
    sessionId := operation.sessionId, storeId := operation.storeId, userId := operation.userId
    clientUuid := operation.clientUuid, seq := operation.seq, type := SALE_INTENT, status := operation.status
    resultCode := operation.resultCode, resultOrderId := operation.resultOrderId
    resultPaymentId := operation.resultPaymentId, customerId := operation.customerId
    processedAt := operation.processedAt, createdAt := operation.createdAt
    items := (Prisma.orderBy PosOperationItem.id items).map itemSummary }

/-- `include: { items: true }`, which is not filtered by tenant. -/
def includeItems (operationId : Id) : Service (List PosOperationItem) :=
  Prisma.findMany .posOperationItem fun row => row.operationId = operationId

def createItems (tenantId operationId : Id) : List OfflineSaleIntentItemDto → Service Unit
  | [] => pure ()
  | item :: items => do
    let _ ← Prisma.create .posOperationItem fun id _ =>
      { id, tenantId, operationId, variantId := item.variantId, quantity := item.quantity
        currency := item.currency, observedUnitAmountMinor := item.observedUnitAmountMinor }
    createItems tenantId operationId items

def insertOperation (tenantId : Id) (session : PosSession) (dto : RecordOfflineSaleIntentDto) :
    Service OfflineOperationSummary := do
  let created ← Prisma.create .posOperation fun id now =>
    { id, tenantId, deviceId := session.deviceId, sessionId := session.id, storeId := session.storeId
      userId := session.userId, clientUuid := dto.clientUuid, seq := dto.seq, status := .pending
      resultCode := none, resultOrderId := none, resultPaymentId := none, customerId := dto.customerId
      processedAt := none, createdAt := now }
  createItems tenantId created.id dto.items
  let operation ← Prisma.findFirst .posOperation fun row => row.id = created.id && row.tenantId = tenantId
  -- findUniqueOrThrow
  let operation ← orThrow operation .internalServerError
  let items ← includeItems operation.id
  pure (toSummary operation items)

/-- Which unique index refused the row: `meta.target` of the error. -/
def p2002Meta : Failure HttpException → String
  | .database (.uniqueViolation target) => if "clientUuid" ∈ target then "clientUuid" else "seq"
  | _ => "seq"

/-- The same intent pushed again resolves to its original row. -/
def resolveDuplicate (tenantId : Id) (session : PosSession) (dto : RecordOfflineSaleIntentDto)
    (failure : Failure HttpException) : Service OfflineOperationSummary :=
  if p2002Meta failure = "clientUuid" then do
    let existing ← Prisma.findFirst .posOperation fun row =>
      row.deviceId = session.deviceId && row.clientUuid = dto.clientUuid && row.tenantId = tenantId
    let existing ← orThrow existing (.conflict SEQUENCE_USED)
    let items ← includeItems existing.id
    pure (toSummary existing items)
  else throw (.conflict SEQUENCE_USED)

def recordOfflineSaleIntent (tenantId userId : Id) (dto : RecordOfflineSaleIntentDto) :
    Service OfflineOperationSummary := do
  let session ← Prisma.findFirst .posSession fun row => row.id = dto.sessionId && row.tenantId = tenantId
  let session ← orThrow session (.notFound SESSION_NOT_FOUND)
  throwIf (session.userId ≠ userId) (.notFound SESSION_NOT_FOUND)
  tryCatch (transaction (insertOperation tenantId session dto)) fun failure =>
    if isP2002 failure then resolveDuplicate tenantId session dto failure else .done (.error failure)

end BusinessPlatform.PosOperationService
