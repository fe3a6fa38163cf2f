import BusinessPlatform.Client

/-! `InventoryService`: stock pools and their guarded adjustment. -/

namespace BusinessPlatform.InventoryService
open Engine Program

def VARIANT_NOT_FOUND := "Variant not found"
def STORE_NOT_FOUND := "Store not found"
def INSUFFICIENT_STOCK := "Insufficient stock"

inductive InventoryScope where
  | global
  | store (storeId : Id)
  deriving DecidableEq, Repr

def InventoryScope.storeId : InventoryScope → Option Id
  | global => none
  | store storeId => some storeId

structure AdjustInventoryDto where
  variantId : Id
  delta : Int
  deriving DecidableEq, Repr

structure InventorySummary where
  id : Option Id
  tenantId : Id
  storeId : Option Id
  variantId : Id
  quantityOnHand : Int
  deriving DecidableEq, Repr

def toSummary (inventory : Inventory) : InventorySummary :=
  ⟨some inventory.id, inventory.tenantId, inventory.storeId, inventory.variantId, inventory.quantityOnHand⟩

def zeroSummary (tenantId : Id) (scope : InventoryScope) (variantId : Id) : InventorySummary :=
  ⟨none, tenantId, scope.storeId, variantId, 0⟩

def poolWhere (tenantId : Id) (scope : InventoryScope) (variantId : Id)
    (row : Inventory) : Bool :=
  row.variantId = variantId && row.storeId = scope.storeId && row.tenantId = tenantId

/-- `data: { quantityOnHand: { increment: delta } }`. -/
def increment (delta : Int) : Change commerce .inventory where
  apply row := { row with quantityOnHand := row.quantityOnHand + delta }
  keeps _ := rfl

def findVariant (tenantId variantId : Id) : Service (Option ProductVariant) :=
  Prisma.findFirst .productVariant fun row => row.id = variantId && row.tenantId = tenantId

/-- Tenant-scoped store validation for a store scope. -/
def assertScopeStore (tenantId : Id) : InventoryScope → Service Unit
  | .global => pure ()
  | .store storeId => do
    let store ← Prisma.findFirst .store fun row => row.id = storeId && row.tenantId = tenantId
    throwIf store.isNone (.notFound STORE_NOT_FOUND)

def getScopedInventory (tenantId : Id) (scope : InventoryScope) (variantId : Id) :
    Service InventorySummary := do
  let variant ← findVariant tenantId variantId
  throwIf variant.isNone (.notFound VARIANT_NOT_FOUND)
  assertScopeStore tenantId scope
  let inventory ← Prisma.findFirst .inventory (poolWhere tenantId scope variantId)
  pure ((inventory.map toSummary).getD (zeroSummary tenantId scope variantId))

/-- The pool's row after a successful guarded update. -/
def reread (tenantId : Id) (scope : InventoryScope) (variantId : Id) : Service InventorySummary := do
  let inventory ← Prisma.findFirst .inventory (poolWhere tenantId scope variantId)
  orThrow (inventory.map toSummary) (.conflict INSUFFICIENT_STOCK)

def guardedUpdate (tenantId : Id) (scope : InventoryScope) (dto : AdjustInventoryDto) : Service Nat := do
  Prisma.sendInteger (-dto.delta)
  Prisma.sendInteger dto.delta
  Prisma.updateMany .inventory
    (fun row => poolWhere tenantId scope dto.variantId row && -dto.delta ≤ row.quantityOnHand)
    (increment dto.delta)

/-- The race on the pool's partial unique index was lost: the other creator's
row is now visible. -/
def retry (tenantId : Id) (scope : InventoryScope) (dto : AdjustInventoryDto) : Service InventorySummary := do
  let count ← guardedUpdate tenantId scope dto
  if count = 1 then reread tenantId scope dto.variantId
  else throw (.conflict INSUFFICIENT_STOCK)

def createPool (tenantId : Id) (scope : InventoryScope) (dto : AdjustInventoryDto) :
    Service InventorySummary := do
  let created ← Prisma.create .inventory fun id _ =>
    { id, tenantId, variantId := dto.variantId, storeId := scope.storeId, quantityOnHand := dto.delta }
  pure (toSummary created)

/-- Count 0: either the pool has no row or not enough stock. -/
def openPool (tenantId : Id) (scope : InventoryScope) (dto : AdjustInventoryDto) : Service InventorySummary := do
  let existing ← Prisma.findFirst .inventory (poolWhere tenantId scope dto.variantId)
  match existing with
  | some _ => throw (.conflict INSUFFICIENT_STOCK)
  | none =>
    if dto.delta < 0 then throw (.conflict INSUFFICIENT_STOCK)
    else
      tryCatch (createPool tenantId scope dto) fun failure =>
        if isP2002 failure then retry tenantId scope dto else .done (.error failure)

def adjustPool (tenantId : Id) (scope : InventoryScope) (dto : AdjustInventoryDto) : Service InventorySummary := do
  let updated ← guardedUpdate tenantId scope dto
  if updated = 1 then reread tenantId scope dto.variantId else openPool tenantId scope dto

def adjustScoped (tenantId : Id) (scope : InventoryScope) (dto : AdjustInventoryDto) :
    Service InventorySummary := do
  let variant ← findVariant tenantId dto.variantId
  throwIf variant.isNone (.notFound VARIANT_NOT_FOUND)
  assertScopeStore tenantId scope
  adjustPool tenantId scope dto

end BusinessPlatform.InventoryService
