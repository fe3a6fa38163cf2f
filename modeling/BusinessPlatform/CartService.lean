import BusinessPlatform.Client
import BusinessPlatform.Engine.Tally

/-! `CartService`: the open cart of a member and its lines. -/

namespace BusinessPlatform.CartService
open Engine Program

def VARIANT_NOT_FOUND := "Variant not found"
def CART_NOT_FOUND := "Cart not found"
def CART_ITEM_NOT_FOUND := "Cart item not found"

structure AddCartItemDto where
  variantId : Id
  quantity : Int
  deriving DecidableEq, Repr

structure UpdateCartItemDto where
  quantity : Int
  deriving DecidableEq, Repr

structure VariantSummary where
  id : Id
  sku : String
  name : Option String
  status : VariantStatus
  deriving DecidableEq, Repr

structure CartItemSummary where
  id : Id
  variantId : Id
  quantity : Int
  variant : Option VariantSummary
  prices : List (String × String)
  lineTotals : List (String × String)
  deriving DecidableEq, Repr

structure CartSummary where
  id : Id
  tenantId : Id
  userId : Id
  status : CartStatus
  items : List CartItemSummary
  totals : List (String × String)
  createdAt : Nat
  deriving DecidableEq, Repr

def variantSummary (variant : ProductVariant) : VariantSummary :=
  ⟨variant.id, variant.sku, variant.name, variant.status⟩

def pricesOf (prices : List Price) (item : CartItem) : List Price :=
  prices.filter fun price => price.variantId = item.variantId

def itemSummary (variants : List ProductVariant) (prices : List Price) (item : CartItem) : CartItemSummary :=
  { id := item.id, variantId := item.variantId, quantity := item.quantity
    variant := (variants.find? fun variant => variant.id = item.variantId).map variantSummary
    prices := (pricesOf prices item).map fun price => (price.currency, toString price.amountMinor)
    lineTotals := (pricesOf prices item).map fun price =>
      (price.currency, toString (price.amountMinor * item.quantity)) }

/-- The sum of all lines in each currency. -/
def totals (prices : List Price) (items : List CartItem) : List (String × String) :=
  let amounts := items.flatMap fun item =>
    (pricesOf prices item).map fun price => (price.currency, price.amountMinor * item.quantity)
  (Tally.collect amounts).map fun entry => (entry.1, toString entry.2)

def findVariant (tenantId variantId : Id) : Service (Option ProductVariant) :=
  Prisma.findFirst .productVariant fun row => row.id = variantId && row.tenantId = tenantId

def findCartById (tenantId cartId : Id) : Service (Option Cart) :=
  Prisma.findFirst .cart fun row => row.id = cartId && row.tenantId = tenantId

def enrichCart (tenantId : Id) (cart : Cart) : Service CartSummary := do
  let rows ← Prisma.findMany .cartItem fun row => row.cartId = cart.id && row.tenantId = tenantId
  let items := Prisma.orderBy CartItem.createdAt rows
  if items.isEmpty then
    pure { id := cart.id, tenantId := cart.tenantId, userId := cart.userId, status := cart.status
           items := [], totals := [], createdAt := cart.createdAt }
  else do
    let variantIds := items.map CartItem.variantId
    let variants ← Prisma.findMany .productVariant fun row => row.id ∈ variantIds && row.tenantId = tenantId
    let prices ← Prisma.findMany .price fun row => row.variantId ∈ variantIds && row.tenantId = tenantId
    pure { id := cart.id, tenantId := cart.tenantId, userId := cart.userId, status := cart.status
           items := items.map (itemSummary variants prices), totals := totals prices items
           createdAt := cart.createdAt }

/-- The caller's oldest open cart. -/
def findOpenCart (tenantId userId : Id) : Service (Option Cart) := do
  let carts ← Prisma.findMany .cart fun row =>
    row.userId = userId && row.status = .opened && row.tenantId = tenantId
  pure (Prisma.orderBy Cart.createdAt carts).head?

def createCart (tenantId userId : Id) : Service Cart :=
  Prisma.create .cart fun id now => { id, tenantId, userId, status := .opened, createdAt := now }

def racedCart (tenantId userId : Id) (failure : Failure HttpException) : Service Cart := do
  let raced ← findOpenCart tenantId userId
  match raced with
  | some cart => pure cart
  | none => .done (.error failure)

def getOrCreateCart (tenantId userId : Id) : Service Cart := do
  let existing ← findOpenCart tenantId userId
  match existing with
  | some cart => pure cart
  | none =>
    tryCatch (createCart tenantId userId) fun failure =>
      if isP2002 failure then racedCart tenantId userId failure else .done (.error failure)

def getCart (tenantId userId : Id) : Service CartSummary := do
  let cart ← getOrCreateCart tenantId userId
  enrichCart tenantId cart

/-- The cart after a change of its lines. -/
def freshCart (tenantId cartId : Id) : Service CartSummary := do
  let fresh ← findCartById tenantId cartId
  let cart ← orThrow fresh (.notFound CART_NOT_FOUND)
  enrichCart tenantId cart

def incrementQuantity (quantity : Int) : Change commerce .cartItem where
  apply row := { row with quantity := row.quantity + quantity }
  keeps _ := rfl

def setQuantity (quantity : Int) : Change commerce .cartItem where
  apply row := { row with quantity }
  keeps _ := rfl

def findLine (tenantId cartId variantId : Id) : Service (Option CartItem) :=
  Prisma.findFirst .cartItem fun row =>
    row.cartId = cartId && row.variantId = variantId && row.tenantId = tenantId

def changeLine (tenantId itemId : Id) (change : Change commerce .cartItem) : Service CartItem :=
  Prisma.update .cartItem (fun row => row.id = itemId && row.tenantId = tenantId) change

def createLine (tenantId cartId : Id) (dto : AddCartItemDto) : Service CartItem :=
  Prisma.create .cartItem fun id now =>
    { id, tenantId, cartId, variantId := dto.variantId, quantity := dto.quantity, createdAt := now }

/-- Another request created the line first: merge into it. -/
def mergeRaced (tenantId cartId : Id) (dto : AddCartItemDto) : Service CartItem := do
  let raced ← findLine tenantId cartId dto.variantId
  let raced ← orThrow raced (.conflict CART_ITEM_NOT_FOUND)
  changeLine tenantId raced.id (incrementQuantity dto.quantity)

def addLine (tenantId cartId : Id) (dto : AddCartItemDto) : Service CartItem := do
  let existing ← findLine tenantId cartId dto.variantId
  match existing with
  | some item => changeLine tenantId item.id (incrementQuantity dto.quantity)
  | none =>
    tryCatch (createLine tenantId cartId dto) fun failure =>
      if isP2002 failure then mergeRaced tenantId cartId dto else .done (.error failure)

def addItem (tenantId userId : Id) (dto : AddCartItemDto) : Service CartSummary := do
  let variant ← findVariant tenantId dto.variantId
  throwIf variant.isNone (.notFound VARIANT_NOT_FOUND)
  let cart ← getOrCreateCart tenantId userId
  let _ ← addLine tenantId cart.id dto
  freshCart tenantId cart.id

/-- The line must belong to the caller's cart. -/
def ownLine (tenantId cartId itemId : Id) : Service CartItem := do
  let item ← Prisma.findFirst .cartItem fun row => row.id = itemId && row.tenantId = tenantId
  let item ← orThrow item (.notFound CART_ITEM_NOT_FOUND)
  throwIf (item.cartId ≠ cartId) (.notFound CART_ITEM_NOT_FOUND)
  pure item

def updateItem (tenantId userId itemId : Id) (dto : UpdateCartItemDto) : Service CartSummary := do
  let cart ← getOrCreateCart tenantId userId
  let item ← ownLine tenantId cart.id itemId
  let _ ← changeLine tenantId item.id (setQuantity dto.quantity)
  freshCart tenantId cart.id

def removeItem (tenantId userId itemId : Id) : Service CartSummary := do
  let cart ← getOrCreateCart tenantId userId
  let item ← ownLine tenantId cart.id itemId
  let _ ← Prisma.delete .cartItem fun row => row.id = item.id && row.tenantId = tenantId
  freshCart tenantId cart.id

def discardCart (tenantId userId : Id) : Service Unit := do
  let cart ← Prisma.findFirst .cart fun row =>
    row.userId = userId && row.status = .opened && row.tenantId = tenantId
  let cart ← orThrow cart (.notFound CART_NOT_FOUND)
  throwIf (cart.userId ≠ userId) (.notFound CART_NOT_FOUND)
  let _ ← Prisma.delete .cart fun row => row.id = cart.id && row.tenantId = tenantId

end BusinessPlatform.CartService
