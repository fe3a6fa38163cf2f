import BusinessPlatform.Client

/-! `ProductVariantService.putPrice`: the current price of a variant in one currency. -/

namespace BusinessPlatform.ProductVariantService
open Engine Program

def VARIANT_NOT_FOUND := "Variant not found"

def MAX_SAFE_INTEGER : Int := 9007199254740991

/-- An uppercase code of three letters and a safe integer that is not negative. -/
structure PutPriceDto where
  currency : String
  amountMinor : Int
  code : currency.length = 3 ∧ currency.toList.all fun letter => 'A' ≤ letter && letter ≤ 'Z'
  least : 0 ≤ amountMinor
  most : amountMinor ≤ MAX_SAFE_INTEGER

structure PriceSummary where
  id : Id
  variantId : Id
  currency : String
  amountMinor : String
  deriving DecidableEq, Repr

def toPriceSummary (price : Price) : PriceSummary :=
  { id := price.id, variantId := price.variantId, currency := price.currency, amountMinor := toString price.amountMinor }

def findVariant (tenantId variantId : Id) : Service (Option ProductVariant) :=
  Prisma.findFirst .productVariant fun row => row.id = variantId && row.tenantId = tenantId

def pairWhere (tenantId variantId : Id) (currency : String) (row : Price) : Bool :=
  row.variantId = variantId && row.currency = currency && row.tenantId = tenantId

def setAmount (amountMinor : Int) : Change commerce .price where
  apply row := { row with amountMinor }
  keeps _ := rfl

def updatePrice (tenantId variantId : Id) (dto : PutPriceDto) : Service Price :=
  Prisma.update .price (pairWhere tenantId variantId dto.currency) (setAmount dto.amountMinor)

def createPrice (tenantId variantId : Id) (dto : PutPriceDto) : Service Price :=
  Prisma.create .price fun id _ =>
    { id, tenantId, variantId, currency := dto.currency, amountMinor := dto.amountMinor }

/-- Replace the price of the pair, or create it. If another request creates it
first, replace that one. -/
def putPrice (tenantId variantId : Id) (dto : PutPriceDto) : Service PriceSummary := do
  let variant ← findVariant tenantId variantId
  let _ ← orThrow variant (.notFound VARIANT_NOT_FOUND)
  let existing ← Prisma.findFirst .price (pairWhere tenantId variantId dto.currency)
  let price ← tryCatch
    (if existing.isSome then updatePrice tenantId variantId dto else createPrice tenantId variantId dto) fun failure =>
      if isP2002 failure then updatePrice tenantId variantId dto else .done (.error failure)
  pure (toPriceSummary price)

end BusinessPlatform.ProductVariantService
