import BusinessPlatform.PosSaleService
import BusinessPlatform.PosOperationService
import BusinessPlatform.PermissionService

/-! `PosSyncService`: execution of recorded offline intents through the sale
engine, under a claim that is a guarded update of `processedAt`. -/

namespace BusinessPlatform.PosSyncService
open Engine Program

def OPERATION_NOT_FOUND := "POS operation not found"
def DEVICE_NOT_FOUND := "Pos device not found"
def DEVICE_NOT_ACTIVE := "Device is not active"
def INVALID_DEVICE_CREDENTIAL := "Invalid device credential"
def SYNC_IN_PROGRESS := "Operation is already syncing"

def EMPTY_INTENT := "EMPTY_INTENT"
def VARIANT_NOT_FOUND := "VARIANT_NOT_FOUND"
def VARIANT_NOT_ACTIVE := "VARIANT_NOT_ACTIVE"
def CURRENCY_MIX := "CURRENCY_MIX"
def PRICE_NOT_FOUND := "PRICE_NOT_FOUND"
def PRICE_CHANGED := "PRICE_CHANGED"
def OUT_OF_STOCK := "OUT_OF_STOCK"

def CLAIM_STALENESS_MS := 5 * 60 * 1000
def RESULT_POLL_MAX := 200

structure SyncResult where
  operationId : Id
  clientUuid : String
  seq : Int
  status : OperationStatus
  resultCode : Option String
  orderId : Option Id
  paymentId : Option Id
  deriving DecidableEq, Repr

structure OperationWithItems extends PosOperation where
  items : List PosOperationItem
  deriving DecidableEq, Repr

def toSyncResult (operation : PosOperation) : SyncResult :=
  { operationId := operation.id, clientUuid := operation.clientUuid, seq := operation.seq
    status := operation.status, resultCode := operation.resultCode, orderId := operation.resultOrderId
    paymentId := operation.resultPaymentId }

/-- `findUnique` with `include: { items: true }`. -/
def findOperation (tenantId operationId : Id) : Service (Option OperationWithItems) := do
  let operation ← Prisma.findFirst .posOperation fun row => row.id = operationId && row.tenantId = tenantId
  match operation with
  | none => pure none
  | some operation => do
    let items ← PosOperationService.includeItems operation.id
    pure (some { operation with items })

def loadOperation (tenantId operationId : Id) : Service OperationWithItems := do
  let operation ← findOperation tenantId operationId
  orThrow operation (.notFound OPERATION_NOT_FOUND)

/-- The device's stored hash is the SHA-256 of the presented credential. -/
def verifyCredential (sha256 : String → String) (device : PosDevice) (credential : String) : Bool :=
  sha256 credential = device.credentialHash

def assertSyncAuthority (sha256 : String → String) (tenantId userId : Id) (operation : PosOperation)
    (deviceCredential : Option String) : Service Unit := do
  -- an empty credential is as good as none
  throwIf (deviceCredential.getD "" = "") (.unauthorized INVALID_DEVICE_CREDENTIAL)
  let device ← Prisma.findFirst .posDevice fun row => row.id = operation.deviceId && row.tenantId = tenantId
  let device ← orThrow device (.notFound DEVICE_NOT_FOUND)
  throwIf (device.status ≠ .active) (.conflict DEVICE_NOT_ACTIVE)
  throwIf (!verifyCredential sha256 device (deviceCredential.getD "")) (.unauthorized INVALID_DEVICE_CREDENTIAL)
  throwIf (operation.userId ≠ userId) (.notFound OPERATION_NOT_FOUND)
  PermissionService.assertPermissions tenantId userId ⟨.any, [PermissionService.POS_CREATE]⟩

/-- The server's price of a variant in a currency: the last one listed wins. -/
def serverPrice (prices : List Price) (variantId : Id) (currency : String) : Option Int :=
  ((prices.filter fun price => price.variantId = variantId && price.currency = currency).getLast?).map
    Price.amountMinor

def checkLines (prices : List Price) : Option String → List PosOperationItem → Option String
  | _, [] => none
  | targetCurrency, line :: lines =>
    let target := targetCurrency.getD line.currency
    if line.currency ≠ target then some CURRENCY_MIX
    else match serverPrice prices line.variantId line.currency with
      | none => some PRICE_NOT_FOUND
      | some amount =>
        if amount ≠ line.observedUnitAmountMinor then some PRICE_CHANGED
        else checkLines prices (some target) lines

/-- All-or-nothing stock of the operation's store. -/
def checkStock (tenantId storeId : Id) : List (Id × Int) → Service (Option String)
  | [] => pure none
  | (variantId, quantity) :: lines => do
    let row ← Prisma.findFirst .inventory fun row =>
      row.variantId = variantId && row.storeId = some storeId && row.tenantId = tenantId
    match row with
    | none => pure (some OUT_OF_STOCK)
    | some row =>
      if row.quantityOnHand < quantity then pure (some OUT_OF_STOCK) else checkStock tenantId storeId lines

def aggregated (items : List PosOperationItem) : List (Id × Int) :=
  Tally.collect (items.map fun item => (item.variantId, item.quantity))

/-- The rejection code of an intent, or none if it can be executed now. -/
def validateIntent (tenantId : Id) (operation : OperationWithItems) : Service (Option String) := do
  if operation.items.isEmpty then pure (some EMPTY_INTENT)
  else do
    let variantIds := (operation.items.map PosOperationItem.variantId).dedup
    let variants ← Prisma.findMany .productVariant fun row => row.id ∈ variantIds && row.tenantId = tenantId
    if variants.length ≠ variantIds.length then pure (some VARIANT_NOT_FOUND)
    else if variants.any fun variant => variant.status ≠ .active then pure (some VARIANT_NOT_ACTIVE)
    else do
      let prices ← Prisma.findMany .price fun row => row.variantId ∈ variantIds && row.tenantId = tenantId
      match checkLines prices none operation.items with
      | some code => pure (some code)
      | none => checkStock tenantId operation.storeId (aggregated operation.items)

def pending (tenantId operationId : Id) (row : PosOperation) : Bool :=
  row.id = operationId && row.status = .pending && row.tenantId = tenantId

def setProcessedAt (processedAt : Option Nat) : Change commerce .posOperation where
  apply row := { row with processedAt }
  keeps _ := rfl

def reject (resultCode : String) : Change commerce .posOperation where
  apply row := { row with status := .rejected, resultCode := some resultCode }
  keeps _ := rfl

def accept (orderId paymentId : Id) : Change commerce .posOperation where
  apply row := { row with
    status := .accepted, resultCode := none, resultOrderId := some orderId, resultPaymentId := some paymentId }
  keeps _ := rfl

def persistRejection (tenantId operationId : Id) (resultCode : String) : Service OperationWithItems := do
  let _ ← Prisma.updateMany .posOperation (pending tenantId operationId) (reject resultCode)
  loadOperation tenantId operationId

def claim (tenantId operationId : Id) : Service Nat := do
  let now ← now
  Prisma.updateMany .posOperation (fun row => pending tenantId operationId row && row.processedAt = none)
    (setProcessedAt (some now))

def clear (tenantId operationId : Id) : Service Nat :=
  Prisma.updateMany .posOperation (pending tenantId operationId) (setProcessedAt none)

/-- Poll the durable row, at most the given number of times. A stale claim is
cleared for the next attempt. -/
def awaitConcurrentResult (tenantId operationId : Id) : Nat → Service (Option OperationWithItems)
  | 0 => pure none
  | polls + 1 => do
    let operation ← findOperation tenantId operationId
    match operation with
    | none => awaitConcurrentResult tenantId operationId polls
    | some operation =>
      if operation.status ≠ .pending then pure (some operation)
      else match operation.processedAt with
        | none => awaitConcurrentResult tenantId operationId polls
        | some claimedAt => do
          let now ← now
          if CLAIM_STALENESS_MS < now - claimedAt then do
            let _ ← clear tenantId operationId
            pure none
          else awaitConcurrentResult tenantId operationId polls

def saleDto (operation : OperationWithItems) : PosSaleService.CreatePosSaleDto :=
  { sessionId := operation.sessionId
    items := operation.items.map fun item => ⟨item.variantId, item.quantity⟩
    customerId := operation.customerId
    method := some PosSaleService.CASH }

def finalize (tenantId operationId : Id) (sale : PosSaleService.PosSaleSummary) : Service Nat :=
  Prisma.updateMany .posOperation (pending tenantId operationId) (accept sale.orderId sale.paymentId)

/-- The claim's winner: run the sale engine, then persist its result. Whether
or not the guarded update found the row pending, the durable row is returned. -/
def execute (tenantId : Id) (operation : OperationWithItems) : Service SyncResult := do
  let sale ← PosSaleService.createSale tenantId operation.userId (saleDto operation) ⟨true, true⟩
  let _ ← finalize tenantId operation.id sale
  let settled ← loadOperation tenantId operation.id
  pure (toSyncResult settled.toPosOperation)

def isOutOfStock (failure : Failure HttpException) : Bool :=
  failure = .thrown (.conflict OrderService.INSUFFICIENT_STOCK)

def executeOrReject (tenantId : Id) (operation : OperationWithItems) : Service SyncResult :=
  tryCatch (execute tenantId operation) fun failure =>
    if isOutOfStock failure then do
      let persisted ← persistRejection tenantId operation.id OUT_OF_STOCK
      pure (toSyncResult persisted.toPosOperation)
    else .done (.error failure)

def syncPending (tenantId : Id) (operation : OperationWithItems) : Service SyncResult := do
  let rejectionCode ← validateIntent tenantId operation
  match rejectionCode with
  | some code => do
    let persisted ← persistRejection tenantId operation.id code
    pure (toSyncResult persisted.toPosOperation)
  | none => do
    let claimed ← claim tenantId operation.id
    if claimed = 0 then do
      let settled ← awaitConcurrentResult tenantId operation.id RESULT_POLL_MAX
      let settled ← orThrow settled (.conflict SYNC_IN_PROGRESS)
      pure (toSyncResult settled.toPosOperation)
    else executeOrReject tenantId operation

def syncOperation (sha256 : String → String) (tenantId userId operationId : Id)
    (deviceCredential : Option String) : Service SyncResult := do
  let operation ← loadOperation tenantId operationId
  assertSyncAuthority sha256 tenantId userId operation.toPosOperation deviceCredential
  if operation.status ≠ .pending then pure (toSyncResult operation.toPosOperation)
  else syncPending tenantId operation

end BusinessPlatform.PosSyncService
