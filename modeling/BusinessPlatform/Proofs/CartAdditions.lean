import BusinessPlatform.Engine.Faults
import BusinessPlatform.Engine.Reading
import BusinessPlatform.Proofs.CartTotals

/-! Additions to the cart of one user that overlap in any way. None is lost, but two
calls that find no OPEN cart open one each, and only one of these is shown. -/

namespace BusinessPlatform
open Engine CartService

/-- The OPEN carts of a user. -/
def openCarts (db : Db) (tenantId userId : Id) : List Cart :=
  (db.table .cart).rows.filter fun row => row.userId = userId && row.status = .opened && row.tenantId = tenantId

/-- The line counts as one of the variant in an OPEN cart of the user. -/
def InCart (db : Db) (tenantId userId variantId : Id) (row : CartItem) : Prop :=
  row.tenantId = tenantId ∧ row.variantId = variantId ∧ ∃ cart ∈ openCarts db tenantId userId, cart.id = row.cartId

instance {db : Db} {tenantId userId variantId : Id} : DecidablePred (InCart db tenantId userId variantId) := fun _ =>
  inferInstanceAs (Decidable (_ ∧ _ ∧ _))

/-- The units of a variant in the OPEN carts of the user. -/
def unitsIn (db : Db) (tenantId userId variantId : Id) : Int :=
  (db.table .cartItem).total fun row => if InCart db tenantId userId variantId row then row.quantity else 0

/-- A user with some carts. The tables obey their unique index and their foreign key. -/
structure Shopper where
  database : Db
  stamp : Nat
  clock : Nat
  tenantId : Id
  userId : Id
  unique : database.Unique (S := commerce) .cartItem
  referenced : ∀ row ∈ (database.table .cartItem).rows, (database.get .cart row.cartId).isSome = true
  single : (openCarts database tenantId userId).length ≤ 1

abbrev CartState (ι : Type) : Type 1 := State commerce HttpException CartSummary ι

variable {ι : Type} [DecidableEq ι]

/-- Any number of additions to the user's cart. -/
def Shopper.system (shopper : Shopper) (items : ι → AddCartItemDto) : CartState ι :=
  State.opened shopper.database shopper.stamp shopper.clock fun i => addItem shopper.tenantId shopper.userId (items i)

/-- Nobody else writes to carts; statements may fail, processes stop and time pass. -/
def CartsAlone (_ : CartState ι) (action : Action commerce ι) : Prop :=
  ∀ writes, action = .external writes → ∀ write ∈ writes, write.model ≠ .cart ∧ write.model ≠ .cartItem

/-- The call has stored its quantity. -/
def Stores (i : ι) (world : SystemWorld ι) : Prop := ∃ writes ∈ world.own i, ∃ write ∈ writes, write.model = .cartItem

instance {i : ι} {world : SystemWorld ι} : Decidable (Stores i world) :=
  inferInstanceAs (Decidable (∃ writes ∈ world.own i, _))

/-- It opens a cart after it has found none, and once it stores its quantity, in a new
line or in one of its variant, in an OPEN cart of the user. -/
inductive Adds (tenantId userId : Id) (dto : AddCartItemDto) (i : ι) (world : SystemWorld ι) : Writes → Prop where
  | opened {cart : Cart} (fresh : world.database.get .cart cart.id = none) (user : cart.userId = userId)
      (status : cart.status = .opened) (tenant : cart.tenantId = tenantId)
      (looked : ∃ event ∈ world.trace, event.author = some i ∧ openCarts event.before tenantId userId = [])
      (unstored : ¬ Stores i world) : Adds tenantId userId dto i world [.put .cart cart]
  | line {row : CartItem} (fresh : world.database.get .cartItem row.id = none)
      (free : ∀ other ∈ (world.database.table .cartItem).rows, other.cartId = row.cartId → other.variantId ≠ row.variantId)
      (inCart : InCart world.database tenantId userId dto.variantId row) (quantity : row.quantity = dto.quantity)
      (unstored : ¬ Stores i world) : Adds tenantId userId dto i world [.put .cartItem row]
  | merged {row : CartItem} (found : world.database.get .cartItem row.id = some row)
      (inCart : InCart world.database tenantId userId dto.variantId row) (unstored : ¬ Stores i world) :
      Adds tenantId userId dto i world [.put .cartItem { row with quantity := row.quantity + dto.quantity }]

/-- What the calls and others may commit. -/
def lawfulAdditions (tenantId userId : Id) (items : ι → AddCartItemDto) : Guarantee commerce ι
  | some i, world, writes => Adds tenantId userId (items i) i world writes
  | none, _, writes => ∀ write ∈ writes, write.model ≠ .cart ∧ write.model ≠ .cartItem

variable {tenantId userId variantId cartId itemId : Id} {items : ι → AddCartItemDto} {i : ι} {world after : SystemWorld ι}

variable {rely : Guarantee commerce ι} {start : SystemWorld ι}

private theorem keepsCarts : Keeps (lawfulAdditions tenantId userId items) .cart fun _ _ => False := by
  intro author world writes lawful
  cases author with
  | none =>
    have other : ∀ write ∈ writes, write.model ≠ .cart := fun write member => (lawful write member).1
    exact ⟨erasesOf_other other, fun row member => by simp [putsOf_other other] at member⟩
  | some i =>
    cases lawful with
    | opened fresh =>
      refine ⟨rfl, fun row member old found => ?_⟩
      cases List.mem_singleton.mp member
      cases fresh.symm.trans found
    | line | merged => exact ⟨rfl, nofun⟩

private theorem keepsLines :
    Keeps (lawfulAdditions tenantId userId items) .cartItem fun old new => ∃ quantity, new = { old with quantity } := by
  intro author world writes lawful
  cases author with
  | none =>
    have other : ∀ write ∈ writes, write.model ≠ .cartItem := fun write member => (lawful write member).2
    exact ⟨erasesOf_other other, fun row member => by simp [putsOf_other other] at member⟩
  | some i =>
    cases lawful with
    | opened => exact ⟨rfl, nofun⟩
    | line fresh =>
      refine ⟨rfl, fun row member old found => ?_⟩
      cases List.mem_singleton.mp member
      cases fresh.symm.trans found
    | merged stored =>
      refine ⟨rfl, fun row member old found => ?_⟩
      cases List.mem_singleton.mp member
      cases stored.symm.trans found
      exact ⟨_, rfl⟩

/-- The cart is an OPEN one of the user. -/
def Opened (db : Db) (tenantId userId cartId : Id) : Prop := ∃ cart ∈ openCarts db tenantId userId, cart.id = cartId

theorem mem_openCarts {db : Db} {cart : Cart} : cart ∈ openCarts db tenantId userId ↔
    cart ∈ (db.table .cart).rows ∧ cart.userId = userId ∧ cart.status = .opened ∧ cart.tenantId = tenantId := by
  simp only [openCarts, List.mem_filter, Bool.and_eq_true, decide_eq_true_eq, and_assoc]

private theorem Opened.grows (opened : Opened world.database tenantId userId cartId)
    (grows : Grows (lawfulAdditions tenantId userId items) world after) : Opened after.database tenantId userId cartId := by
  obtain ⟨cart, member, same⟩ := opened
  obtain ⟨stored, owned⟩ := mem_openCarts.mp member
  have found : world.database.get .cart cart.id = some cart := Table.find_eq_some.mpr ⟨stored, rfl⟩
  have still := grows.final keepsCarts found fun _ => id
  exact ⟨cart, mem_openCarts.mpr ⟨(Table.find_eq_some.mp still).1, owned⟩, same⟩

private theorem line_grows {item row : CartItem} (member : item ∈ (world.database.table .cartItem).rows)
    (grows : Grows (lawfulAdditions tenantId userId items) world after)
    (still : row ∈ (after.database.table .cartItem).rows) (same : row.id = item.id) :
    row.cartId = item.cartId ∧ row.variantId = item.variantId ∧ row.tenantId = item.tenantId := by
  have found : world.database.get .cartItem item.id = some item := Table.find_eq_some.mpr ⟨member, rfl⟩
  obtain ⟨new, now, fields⟩ := grows.field keepsLines found (fun row => (row.cartId, row.variantId, row.tenantId)) (by
    rintro old new ⟨quantity, rfl⟩
    rfl)
  have here : after.database.get .cartItem item.id = some row := Table.find_eq_some.mpr ⟨still, same⟩
  cases now.symm.trans here
  simpa using fields

/-- A call that has succeeded has stored its quantity. -/
def Bought (i : ι) {α : Type} : Post commerce HttpException α ι := fun result session world =>
  ∀ value, result = .ok value → session = none ∧ Stores i world

private theorem Bought.tolerant {α : Type} : Tolerant (Bought i : Post commerce HttpException α ι) :=
  fun _ _ _ _ same => nomatch same

private theorem stores_idle (idle : Idle rely i world after) : Stores i after ↔ Stores i world := by
  rw [Stores, Stores, idle.own]

private theorem findOpenCart_adds {commits : Commits commerce ι} {post : Post commerce HttpException (Option Cart) ι}
    (fails : Fails (lawfulAdditions tenantId userId items) i (fun _ => True) post false world)
    (resume : ∀ after cart, Idle (lawfulAdditions tenantId userId items) i world after →
      (∀ found, cart = some found → Opened after.database tenantId userId found.id) →
      (cart = none → ∃ event ∈ after.trace, event.author = some i ∧ openCarts event.before tenantId userId = []) →
      post (.ok cart) none after) :
    Safe commits (lawfulAdditions tenantId userId items) i post (findOpenCart tenantId userId) none world := by
  refine Safe.findMany fails fun w₁ carts l₁ listed _ => Safe.done fun after later => ?_
  have idle := Idle.record (Later.idle l₁) ⟨some i, some (.cart, .find), carts.map fun row => ⟨.cart, row⟩, false⟩
  have sorted : (Prisma.orderBy Cart.createdAt carts).Perm carts := List.perm_insertionSort _ carts
  have grown : Grows (lawfulAdditions tenantId userId items) w₁ after := .head (.empty _) later.grows
  refine resume after _ (idle.trans (Later.idle later)) (fun cart head => ?_) fun empty => ?_
  · have member := sorted.mem_iff.mp (List.mem_of_mem_head? head)
    exact Opened.grows ⟨cart, listed.mem_iff.mp member, rfl⟩ grown
  · refine ⟨_, Grows.member later.grows (List.mem_cons_self ..), rfl, ?_⟩
    rw [List.head?_eq_none_iff.mp empty] at sorted
    obtain rfl : carts = [] := sorted.symm.eq_nil
    exact listed.symm.eq_nil

private theorem stores_record {label : Label commerce ι} {writes : Writes} (author : label.author = some i) (written : writes ≠ []) :
    Stores i (world.record label writes) ↔ (∃ write ∈ writes, write.model = .cartItem) ∨ Stores i world := by
  simp only [Stores, World.own_record_same rfl author written, List.mem_cons, exists_eq_or_imp]

private theorem getOrCreateCart_adds {post : Post commerce HttpException Cart ι} {dto : AddCartItemDto}
    (unstored : ¬ Stores i world)
    (fails : ∀ world, Fails (lawfulAdditions tenantId userId items) i (fun _ => True) post false world)
    (resume : ∀ after cart, Opened after.database tenantId userId cart.id → ¬ Stores i after → post (.ok cart) none after) :
    Safe (Adds tenantId userId dto i) (lawfulAdditions tenantId userId items) i post (getOrCreateCart tenantId userId)
      none world := by
  refine Safe.bind (findOpenCart_adds (fails _) fun w₁ existing idle₁ found empty => ?_)
  have unstored₁ : ¬ Stores i w₁ := fun stores => unstored ((stores_idle idle₁).mp stores)
  cases existing with
  | some cart =>
    exact Safe.done fun after later => resume after cart ((found cart rfl).grows later.grows) fun stores =>
      unstored₁ ((stores_idle (Later.idle later)).mp stores)
  | none =>
    refine Safe.tryCatch rfl ?_
    rw [← bind_pure (createCart ..)]
    refine Safe.create (fun failure session after (_ : ∀ exception, failure = .thrown exception → True) outside idle => ?_) fun w₂ l₂ cart built created => ?_
    · obtain rfl := outside rfl
      simp only
      split
      next =>
        refine Safe.bind (findOpenCart_adds (fails _) fun w₃ raced idle₃ found _ => ?_)
        cases raced with
        | some cart =>
          refine Safe.done fun final later => resume final cart ((found cart rfl).grows later.grows) fun stores => ?_
          exact unstored₁ ((stores_idle (idle.trans (idle₃.trans (Later.idle later)))).mp stores)
        | none => exact Safe.failed (fails _) fun _ _ => trivial
      next => exact Safe.failed (fails _) fun _ _ => trivial
    · have idle := Later.idle l₂
      have unstored₂ : ¬ Stores i w₂ := fun stores => unstored₁ ((stores_idle idle).mp stores)
      obtain ⟨event, member, author, looked⟩ := empty rfl
      have owned : cart.userId = userId ∧ cart.status = .opened ∧ cart.tenantId = tenantId := by
        rw [built]
        exact ⟨rfl, rfl, rfl⟩
      have here : Opened (w₂.record ⟨some i, some (.cart, .create), [], false⟩ [.put .cart cart]).database tenantId userId cart.id :=
        ⟨cart, mem_openCarts.mpr ⟨(Table.find_eq_some.mp (w₂.database.get_put .cart cart)).1, owned⟩, rfl⟩
      refine ⟨.inr (.opened created.fresh owned.1 owned.2.1 owned.2.2 ⟨event, Grows.member l₂.grows member, author, looked⟩ unstored₂),
        Safe.done fun final later => resume final cart (here.grows later.grows) fun stores => unstored₂ ?_⟩
      rw [stores_idle (Later.idle later), stores_record rfl (by simp)] at stores
      simpa [Write.model] using stores

section Lines
variable {dto : AddCartItemDto} {change : Change commerce .cartItem}

/-- A line of the variant that was found before is still there, with another quantity at most. -/
private theorem changeLine_adds {item : CartItem} (member : item ∈ (world.database.table .cartItem).rows)
    (inCart : item.cartId = cartId ∧ item.variantId = dto.variantId ∧ item.tenantId = tenantId)
    (opened : Opened world.database tenantId userId cartId) (unstored : ¬ Stores i world) :
    Safe (Adds tenantId userId dto i) (lawfulAdditions tenantId userId items) i (Bought i)
      (changeLine tenantId item.id (incrementQuantity dto.quantity)) none world := by
  rw [← bind_pure (changeLine ..)]
  refine Safe.update Bought.tolerant.fails fun w₁ l₁ row still matched _ => ?_
  simp only [Bool.and_eq_true, decide_eq_true_eq] at matched
  have unstored₁ : ¬ Stores i w₁ := fun stores => unstored ((stores_idle (Later.idle l₁)).mp stores)
  obtain ⟨cart, variant, tenant⟩ := line_grows member l₁.grows still matched.1
  obtain ⟨owned, there, same⟩ := opened.grows l₁.grows
  have counted : InCart w₁.database tenantId userId dto.variantId row :=
    ⟨tenant.trans inCart.2.2, variant.trans inCart.2.1, owned, there, same.trans (inCart.1.symm.trans cart.symm)⟩
  refine ⟨.inr (.merged (Table.find_eq_some.mpr ⟨still, rfl⟩) counted unstored₁), ?_⟩
  refine Safe.done fun final later value _ => ⟨rfl, ?_⟩
  rw [stores_idle (Later.idle later), stores_record rfl (by simp)]
  exact .inl ⟨_, List.mem_singleton_self _, rfl⟩

private theorem findLine_adds {α : Type} {post : Post commerce HttpException α ι} {next : Option CartItem → Service α}
    (tolerant : Tolerant post) (resume : ∀ after rows, Idle (lawfulAdditions tenantId userId items) i world after →
      (∀ item, rows = some item → item ∈ (after.database.table .cartItem).rows ∧ item.cartId = cartId ∧
        item.variantId = variantId ∧ item.tenantId = tenantId) →
      Safe (Adds tenantId userId dto i) (lawfulAdditions tenantId userId items) i post (next rows) none after) :
    Safe (Adds tenantId userId dto i) (lawfulAdditions tenantId userId items) i post
      (findLine tenantId cartId variantId >>= next) none world := by
  refine Safe.findFirst tolerant.fails fun w₁ rows l₁ listed _ => ?_
  refine resume _ _ (Idle.record (Later.idle l₁) _) fun item head => ?_
  obtain ⟨member, matched⟩ := List.mem_filter.mp (listed.mem_iff.mp (List.mem_of_mem_head? head))
  simp only [Bool.and_eq_true, decide_eq_true_eq] at matched
  exact ⟨member, matched.1.1, matched.1.2, matched.2⟩

private theorem addLine_adds (opened : Opened world.database tenantId userId cartId) (unstored : ¬ Stores i world) :
    Safe (Adds tenantId userId dto i) (lawfulAdditions tenantId userId items) i (Bought i)
      (addLine tenantId cartId dto) none world := by
  refine findLine_adds Bought.tolerant fun w₁ existing idle₁ found => ?_
  have unstored₁ : ¬ Stores i w₁ := fun stores => unstored ((stores_idle idle₁).mp stores)
  have opened₁ := opened.grows idle₁.grows
  cases existing with
  | some item =>
    obtain ⟨member, inCart⟩ := found item rfl
    exact changeLine_adds member inCart opened₁ unstored₁
  | none =>
    refine Safe.tryCatch rfl ?_
    rw [← bind_pure (createLine ..)]
    refine Safe.create (fun failure session after (_ : ∀ exception, failure = .thrown exception → True) outside idle => ?_)
      fun w₂ l₂ row built created => ?_
    · obtain rfl := outside rfl
      simp only
      split
      next =>
        refine findLine_adds Bought.tolerant fun w₃ raced idle₃ found => ?_
        refine Safe.orThrow Bought.tolerant.fails trivial fun item same => ?_
        obtain ⟨member, inCart⟩ := found item same
        refine changeLine_adds member inCart (opened₁.grows (Idle.grows (idle.trans idle₃))) fun stores => unstored₁ ?_
        exact (stores_idle (idle.trans idle₃)).mp stores
      next => exact Safe.failed Bought.tolerant.fails fun _ _ => trivial
    · have unstored₂ : ¬ Stores i w₂ := fun stores => unstored₁ ((stores_idle (Later.idle l₂)).mp stores)
      obtain ⟨owned, there, same⟩ := opened₁.grows l₂.grows
      have free : ∀ other ∈ (w₂.database.table .cartItem).rows, other.cartId = row.cartId → other.variantId ≠ row.variantId := by
        intro other member sameCart sameVariant
        have own : .cartItem row.cartId row.variantId ∈ commerce.indexes (m := .cartItem) row := List.mem_cons_self ..
        have key := clash_none created.free own member (by
          rw [← sameCart, ← sameVariant]
          exact List.mem_cons_self ..)
        cases created.fresh.symm.trans (Table.find_eq_some.mpr ⟨member, key⟩)
      have counted : InCart w₂.database tenantId userId dto.variantId row ∧ row.quantity = dto.quantity := by
        rw [built]
        exact ⟨⟨rfl, rfl, owned, there, same⟩, rfl⟩
      refine ⟨.inr (.line created.fresh free counted.1 counted.2 unstored₂), Safe.done fun final later value _ => ⟨rfl, ?_⟩⟩
      rw [stores_idle (Later.idle later), stores_record rfl (by simp)]
      exact .inl ⟨_, List.mem_singleton_self _, rfl⟩

end Lines

private theorem freshCart_reading : (freshCart tenantId cartId).Reading := by
  refine Program.Reading.findFirst.bind fun cart => Program.Reading.orThrow.bind fun cart => ?_
  refine Program.Reading.findMany.bind fun rows => ?_
  simp only
  split
  next => trivial
  next => exact Program.Reading.findMany.bind fun _ => Program.Reading.findMany.bind fun _ => .pure

theorem addItem_adds {dto : AddCartItemDto} (unstored : ¬ Stores i world) :
    Safe (Adds tenantId userId dto i) (lawfulAdditions tenantId userId items) i (Bought i)
      (addItem tenantId userId dto) none world := by
  refine Safe.findFirst Bought.tolerant.fails fun w₁ variants l₁ _ _ => ?_
  refine Safe.throwIf Bought.tolerant.fails trivial fun _ => ?_
  have idle₁ : Idle (lawfulAdditions tenantId userId items) i world (w₁.reads i .productVariant variants false) :=
    Idle.record (Later.idle l₁) _
  have unstored₁ : ¬ Stores i (w₁.reads i .productVariant variants false) := fun stores =>
    unstored ((stores_idle idle₁).mp stores)
  refine Safe.bind (getOrCreateCart_adds unstored₁ (fun _ _ _ _ _ _ _ => ?_) fun w₂ cart opened unstored₂ => ?_)
  · exact fun _ same => nomatch same
  · refine Safe.bind (Safe.weaken (addLine_adds opened unstored₂) fun result session w₃ bought => ?_)
    cases result with
    | error failure => exact fun _ same => nomatch same
    | ok line =>
      obtain ⟨rfl, stores⟩ := bought line rfl
      refine freshCart_reading.safe Bought.tolerant fun summary final reads value _ => ⟨rfl, ?_⟩
      exact (stores_idle (Reads.idle reads)).mpr stores

section Commits
variable {db : Db} {writes : Writes}

private theorem openCarts_other (other : ∀ write ∈ writes, write.model ≠ .cart) :
    openCarts (db.applyAll writes) tenantId userId = openCarts db tenantId userId := by
  rw [openCarts, db.applyAll_other other, openCarts]

private theorem inCart_other (other : ∀ write ∈ writes, write.model ≠ .cart) {row : CartItem} :
    InCart (db.applyAll writes) tenantId userId variantId row ↔ InCart db tenantId userId variantId row := by
  rw [InCart, openCarts_other other, InCart]

private theorem openCarts_put {cart : Cart} (fresh : db.get .cart cart.id = none) (user : cart.userId = userId)
    (status : cart.status = .opened) (tenant : cart.tenantId = tenantId) :
    (openCarts (db.applyAll [.put .cart cart]) tenantId userId).Perm (openCarts db tenantId userId ++ [cart]) := by
  have rows : ((db.applyAll [.put .cart cart]).table .cart).rows.Perm ((db.table .cart).rows ++ [cart]) := by
    rw [Database.applyAll_cons, Database.applyAll_nil, Write.apply_put_same]
    change ((db.table .cart).putAll [cart]).rows.Perm _
    refine Table.putAll_fresh _ (by simp) fun row inside => ?_
    cases List.mem_singleton.mp inside
    exact fresh
  have listed := rows.filter fun row => row.userId = userId && row.status = .opened && row.tenantId = tenantId
  rw [List.filter_append, List.filter_singleton, user, status, tenant] at listed
  simpa [openCarts] using listed

private theorem unitsIn_other (other : ∀ write ∈ writes, write.model ≠ .cart) :
    unitsIn (db.applyAll writes) tenantId userId variantId = ((db.applyAll writes).table .cartItem).total fun row =>
      if InCart db tenantId userId variantId row then row.quantity else 0 :=
  Table.total_congr _ fun _ _ => if_congr (inCart_other other) rfl rfl

/-- A line is counted in an OPEN cart that was there before the new one. -/
private theorem inCart_put {cart : Cart} (fresh : db.get .cart cart.id = none) (user : cart.userId = userId)
    (status : cart.status = .opened) (tenant : cart.tenantId = tenantId) {row : CartItem}
    (referenced : (db.get .cart row.cartId).isSome = true) :
    InCart (db.applyAll [.put .cart cart]) tenantId userId variantId row ↔ InCart db tenantId userId variantId row := by
  refine and_congr_right fun _ => and_congr_right fun _ => ⟨?_, ?_⟩
  · rintro ⟨found, member, same⟩
    rcases List.mem_append.mp ((openCarts_put fresh user status tenant).mem_iff.mp member) with before | new
    · exact ⟨found, before, same⟩
    · cases List.mem_singleton.mp new
      rw [← same, fresh] at referenced
      cases referenced
  · rintro ⟨found, member, same⟩
    exact ⟨found, (openCarts_put fresh user status tenant).mem_iff.mpr (List.mem_append_left _ member), same⟩

end Commits

/-- Whenever a call opens a cart, the user has none. -/
def OpensFirst (tenantId userId : Id) (trace : List (Event commerce ι)) : Prop :=
  ∀ event ∈ trace, putsOf (S := commerce) .cart event.writes ≠ [] → openCarts event.before tenantId userId = []

variable [Fintype ι] {shopper : Shopper}

/-- The quantities of the calls that have stored theirs. -/
def boughtBy (items : ι → AddCartItemDto) (variantId : Id) (world : SystemWorld ι) : Int :=
  ∑ i, if Stores i world ∧ (items i).variantId = variantId then (items i).quantity else 0

/-- The rows in every world that the additions lead to. -/
structure Shopper.Kept (shopper : Shopper) (items : ι → AddCartItemDto) (world : SystemWorld ι) : Prop where
  unique : ∀ first ∈ (world.database.table .cartItem).rows, ∀ second ∈ (world.database.table .cartItem).rows,
    first.cartId = second.cartId → first.variantId = second.variantId → first = second
  referenced : ∀ row ∈ (world.database.table .cartItem).rows, (world.database.get .cart row.cartId).isSome = true
  units : ∀ variantId, unitsIn world.database shopper.tenantId shopper.userId variantId =
    unitsIn shopper.database shopper.tenantId shopper.userId variantId + boughtBy items variantId world
  listed : ∀ variantId, (∃ row ∈ (world.database.table .cartItem).rows,
      InCart world.database shopper.tenantId shopper.userId variantId row) ↔
    (∃ row ∈ (shopper.database.table .cartItem).rows, InCart shopper.database shopper.tenantId shopper.userId variantId row) ∨
      ∃ i, Stores i world ∧ (items i).variantId = variantId
  single : OpensFirst shopper.tenantId shopper.userId world.trace →
    (openCarts world.database shopper.tenantId shopper.userId).length ≤ 1
  opened : openCarts shopper.database shopper.tenantId shopper.userId ≠ [] →
    OpensFirst shopper.tenantId shopper.userId world.trace ∧
      openCarts world.database shopper.tenantId shopper.userId ≠ [] ∧
      ∀ event ∈ world.trace, event.author ≠ none → openCarts event.before shopper.tenantId shopper.userId ≠ []

section Stores
variable {label : Label commerce ι} {writes : Writes}

omit [Fintype ι] in
private theorem stores_same (kept : ∀ i, label.author = some i → ∀ write ∈ writes, write.model ≠ .cartItem) (i : ι) :
    Stores i (world.record label writes) ↔ Stores i world := by
  by_cases author : label.author = some i
  · by_cases written : writes = []
    · rw [written, Stores, World.own_record_empty, Stores]
    · rw [stores_record author written]
      exact or_iff_right fun ⟨write, member, line⟩ => kept i author write member line
  · rw [Stores, World.own_record_other i world author, Stores]

omit [Fintype ι] in
private theorem stores_new {i : ι} (author : label.author = some i) (line : ∃ write ∈ writes, write.model = .cartItem) (j : ι) :
    Stores j (world.record label writes) ↔ j = i ∨ Stores j world := by
  by_cases same : j = i
  · subst same
    have written : writes ≠ [] := by
      rintro rfl
      simp at line
    rw [stores_record author written]
    exact ⟨fun _ => .inl rfl, fun _ => .inl line⟩
  · have other : label.author ≠ some j := by
      rw [author]
      exact fun equal => same (Option.some.inj equal).symm
    rw [Stores, World.own_record_other j world other, Stores]
    exact (or_iff_right same).symm

private theorem boughtBy_same (kept : ∀ i, label.author = some i → ∀ write ∈ writes, write.model ≠ .cartItem) :
    boughtBy items variantId (world.record label writes) = boughtBy items variantId world :=
  Finset.sum_congr rfl fun i _ => if_congr (and_congr_left fun _ => stores_same kept i) rfl rfl

private theorem boughtBy_new {i : ι} (author : label.author = some i) (line : ∃ write ∈ writes, write.model = .cartItem)
    (unstored : ¬ Stores i world) : boughtBy items variantId (world.record label writes) =
      boughtBy items variantId world + if (items i).variantId = variantId then (items i).quantity else 0 := by
  have each (j : ι) : (if Stores j (world.record label writes) ∧ (items j).variantId = variantId then (items j).quantity else 0) =
      (if Stores j world ∧ (items j).variantId = variantId then (items j).quantity else 0) +
        if j = i then (if (items i).variantId = variantId then (items i).quantity else 0) else 0 := by
    by_cases same : j = i
    · subst same
      simp [stores_new author line, unstored]
    · simp [stores_new author line, same]
  rw [boughtBy, Finset.sum_congr rfl fun j _ => each j, Finset.sum_add_distrib, Finset.sum_ite_eq', if_pos (Finset.mem_univ i)]
  rfl

end Stores

namespace Shopper.Kept
variable {label : Label commerce ι} {writes : Writes}

omit [DecidableEq ι] [Fintype ι] in
private theorem opensFirst_record (none : putsOf (S := commerce) .cart writes = []) :
    OpensFirst tenantId userId (world.record label writes).trace ↔ OpensFirst tenantId userId world.trace := by
  rw [OpensFirst, World.record_trace, List.forall_mem_cons]
  exact and_iff_right fun written => absurd none written

private theorem opened_other (kept : shopper.Kept items world) (other : ∀ write ∈ writes, write.model ≠ .cart) :
    (OpensFirst shopper.tenantId shopper.userId (world.record label writes).trace →
      (openCarts (world.record label writes).database shopper.tenantId shopper.userId).length ≤ 1) ∧
    (openCarts shopper.database shopper.tenantId shopper.userId ≠ [] →
      OpensFirst shopper.tenantId shopper.userId (world.record label writes).trace ∧
        openCarts (world.record label writes).database shopper.tenantId shopper.userId ≠ [] ∧
        ∀ event ∈ (world.record label writes).trace, event.author ≠ none →
          openCarts event.before shopper.tenantId shopper.userId ≠ []) := by
  have same : openCarts (world.record label writes).database shopper.tenantId shopper.userId =
      openCarts world.database shopper.tenantId shopper.userId := openCarts_other other
  rw [opensFirst_record (putsOf_other other), same]
  refine ⟨kept.single, fun first => ?_⟩
  obtain ⟨opens, now, before⟩ := kept.opened first
  refine ⟨opens, now, fun event member author => ?_⟩
  rcases List.mem_cons.mp member with rfl | earlier
  · exact now
  · exact before event earlier author

private theorem elsewhere (kept : shopper.Kept items world)
    (other : ∀ write ∈ writes, write.model ≠ .cart ∧ write.model ≠ .cartItem) :
    shopper.Kept items (world.record label writes) := by
  have carts : ∀ write ∈ writes, write.model ≠ .cart := fun write member => (other write member).1
  have lines : (world.record label writes).database.table .cartItem = world.database.table .cartItem :=
    Database.applyAll_other _ fun write member => (other write member).2
  have stores (i : ι) : Stores i (world.record label writes) ↔ Stores i world :=
    stores_same (fun _ _ write member => (other write member).2) i
  obtain ⟨single, opened⟩ : (OpensFirst shopper.tenantId shopper.userId (world.record label writes).trace → _) ∧ _ :=
    kept.opened_other carts
  refine ⟨?_, ?_, fun variantId => ?_, fun variantId => ?_, single, opened⟩
  · rw [lines]
    exact kept.unique
  · rw [lines]
    intro row member
    rw [World.record_database, Database.get, Database.applyAll_other _ carts]
    exact kept.referenced row member
  · rw [boughtBy_same fun i _ write member => (other write member).2, ← kept.units, World.record_database, unitsIn_other carts,
      show (world.database.applyAll writes).table .cartItem = _ from lines]
    rfl
  · rw [lines, ← exists_congr fun i => and_congr_left fun _ => (stores i).symm, ← kept.listed]
    exact exists_congr fun row => and_congr_right fun _ => inCart_other carts

private theorem cart {cart : Cart} (kept : shopper.Kept items world) (fresh : world.database.get .cart cart.id = none)
    (user : cart.userId = shopper.userId) (status : cart.status = .opened) (tenant : cart.tenantId = shopper.tenantId)
    (looked : ∃ event ∈ world.trace, event.author = some i ∧ openCarts event.before shopper.tenantId shopper.userId = []) :
    shopper.Kept items (world.record label [.put .cart cart]) := by
  have lines : (world.record label [.put .cart cart]).database.table .cartItem = world.database.table .cartItem :=
    Database.applyAll_other _ (by simp [Write.model])
  have none (j : ι) (_ : label.author = some j) : ∀ write ∈ [Write.put (S := commerce) .cart cart], write.model ≠ .cartItem := by
    simp [Write.model]
  have counted {variantId : Id} {row : CartItem} (member : row ∈ (world.database.table .cartItem).rows) :
      InCart (world.database.applyAll [.put .cart cart]) shopper.tenantId shopper.userId variantId row ↔
        InCart world.database shopper.tenantId shopper.userId variantId row :=
    inCart_put fresh user status tenant (kept.referenced row member)
  refine ⟨?_, ?_, fun variantId => ?_, fun variantId => ?_, fun first => ?_, fun start => ?_⟩
  · rw [lines]
    exact kept.unique
  · rw [lines]
    intro row member
    obtain ⟨stored, found⟩ := Option.isSome_iff_exists.mp (kept.referenced row member)
    have other : cart.id ≠ row.cartId := by
      intro same
      cases fresh.symm.trans (same ▸ found)
    rw [World.record_database, Database.applyAll_get _ (by simp [Write.locks, rowLocks, Model.key, other.symm])]
    exact kept.referenced row member
  · rw [boughtBy_same none, ← kept.units, unitsIn, lines]
    exact Table.total_congr _ fun row member => if_congr (counted member) rfl rfl
  · rw [lines, ← exists_congr fun i => and_congr_left fun _ => (stores_same none i).symm, ← kept.listed]
    exact exists_congr fun row => and_congr_right fun member => counted member
  · rw [World.record_database, (openCarts_put fresh user status tenant).length_eq,
      show openCarts world.database shopper.tenantId shopper.userId = [] from
        first _ (List.mem_cons_self ..) (by simp)]
    exact le_rfl
  · obtain ⟨event, member, author, empty⟩ := looked
    exact absurd empty ((kept.opened start).2.2 event member (by simp [author]))

omit [DecidableEq ι] [Fintype ι] in
private theorem moved_by {after before old added : Int} (moved : after + old = before + (old + added)) :
    after = before + added := by
  omega

private theorem stored {row : CartItem} (kept : shopper.Kept items world) (author : label.author = some i)
    (unstored : ¬ Stores i world)
    (inCart : InCart world.database shopper.tenantId shopper.userId (items i).variantId row)
    (free : ∀ other ∈ (world.database.table .cartItem).rows, other.id ≠ row.id → other.cartId = row.cartId →
      other.variantId ≠ row.variantId)
    (quantity : row.quantity = (((world.database.table .cartItem).find row.id).map fun old : CartItem => old.quantity).getD 0 +
      (items i).quantity)
    (before : ∀ old, world.database.get .cartItem row.id = some old →
      InCart world.database shopper.tenantId shopper.userId (items i).variantId old) :
    shopper.Kept items (world.record label [.put .cartItem row]) := by
  have carts : ∀ write ∈ [Write.put (S := commerce) .cartItem row], write.model ≠ .cart := by simp [Write.model]
  have line : ∃ write ∈ [Write.put (S := commerce) .cartItem row], write.model = .cartItem :=
    ⟨_, List.mem_singleton_self _, rfl⟩
  have rows {other : CartItem} : other ∈ ((world.record label [.put .cartItem row]).database.table .cartItem).rows ↔
      other = row ∨ other ∈ (world.database.table .cartItem).rows ∧ other.id ≠ row.id := by
    rw [World.record_database, Database.applyAll_cons, Database.applyAll_nil, Write.apply_put_same]
    exact Table.mem_put
  obtain ⟨single, opened⟩ :
      (OpensFirst shopper.tenantId shopper.userId (world.record label [.put .cartItem row]).trace → _) ∧ _ :=
    kept.opened_other carts
  refine ⟨?_, ?_, fun variantId => ?_, fun variantId => ?_, single, opened⟩
  · intro first one second two cart variant
    rcases rows.mp one with rfl | ⟨old, other⟩
    · rcases rows.mp two with rfl | ⟨old, other⟩
      · rfl
      · exact absurd variant.symm (free second old other cart.symm)
    · rcases rows.mp two with rfl | ⟨old', other'⟩
      · exact absurd variant (free first old other cart)
      · exact kept.unique first old second old' cart variant
  · intro other member
    rw [World.record_database, Database.get, Database.applyAll_other _ carts]
    rcases rows.mp member with rfl | ⟨old, _⟩
    · obtain ⟨_, _, cart, opened, same⟩ := inCart
      obtain ⟨stored, _⟩ := mem_openCarts.mp opened
      rw [← same, show (world.database.table Model.cart).find cart.id = some cart from Table.find_eq_some.mpr ⟨stored, rfl⟩]
      rfl
    · exact kept.referenced other old
  · have moved := (world.database.table .cartItem).total_put row fun row =>
      if InCart world.database shopper.tenantId shopper.userId variantId row then row.quantity else 0
    have ofVariant (other : CartItem)
        (counts : InCart world.database shopper.tenantId shopper.userId (items i).variantId other) :
        InCart world.database shopper.tenantId shopper.userId variantId other ↔ (items i).variantId = variantId :=
      ⟨fun counted => counts.2.1.symm.trans counted.2.1, fun same => same ▸ counts⟩
    rw [boughtBy_new author line unstored, ← add_assoc, ← kept.units, World.record_database, unitsIn_other carts,
      Database.applyAll_cons, Database.applyAll_nil, Write.apply_put_same, unitsIn]
    rw [if_congr (ofVariant row inCart) rfl rfl, quantity] at moved
    cases found : (world.database.table .cartItem).find row.id with
    | none =>
      rw [show commerce.key (m := .cartItem) row = row.id from rfl, found] at moved
      simpa [found] using moved
    | some old =>
      rw [show commerce.key (m := .cartItem) row = row.id from rfl, found] at moved
      simp only [Option.map_some, Option.getD_some, if_congr (ofVariant old (before old found)) rfl rfl] at moved
      by_cases same : (items i).variantId = variantId
      · rw [if_pos same, if_pos same] at moved
        rw [if_pos same]
        exact moved_by moved
      · rw [if_neg same, if_neg same] at moved
        rw [if_neg same]
        exact (add_zero _).symm.trans moved
  · have stores (j : ι) : Stores j (world.record label [.put .cartItem row]) ↔ j = i ∨ Stores j world :=
      stores_new author line j
    constructor
    · rintro ⟨other, member, counted⟩
      rcases rows.mp member with rfl | ⟨old, _⟩
      · exact .inr ⟨i, (stores i).mpr (.inl rfl), inCart.2.1.symm.trans ((inCart_other carts).mp counted).2.1⟩
      · rcases (kept.listed variantId).mp ⟨other, old, (inCart_other carts).mp counted⟩ with start | ⟨j, stored, same⟩
        · exact .inl start
        · exact .inr ⟨j, (stores j).mpr (.inr stored), same⟩
    · intro listed
      have earlier (there : ∃ other ∈ (world.database.table .cartItem).rows,
          InCart world.database shopper.tenantId shopper.userId variantId other) :
          ∃ other ∈ ((world.record label [.put .cartItem row]).database.table .cartItem).rows,
            InCart (world.record label [.put .cartItem row]).database shopper.tenantId shopper.userId variantId other := by
        obtain ⟨other, old, counted⟩ := there
        by_cases same : other.id = row.id
        · have found : world.database.get .cartItem row.id = some other := Table.find_eq_some.mpr ⟨old, same⟩
          have variant := (before other found).2.1.symm.trans counted.2.1
          exact ⟨row, rows.mpr (.inl rfl), (inCart_other carts).mpr (variant ▸ inCart)⟩
        · exact ⟨other, rows.mpr (.inr ⟨old, same⟩), (inCart_other carts).mpr counted⟩
      rcases listed with start | ⟨j, stored, same⟩
      · exact earlier ((kept.listed variantId).mpr (.inl start))
      · rcases (stores j).mp stored with rfl | before
        · exact ⟨row, rows.mpr (.inl rfl), (inCart_other carts).mpr (same ▸ inCart)⟩
        · exact earlier ((kept.listed variantId).mpr (.inr ⟨j, before, same⟩))

theorem grown (grows : Grows (lawfulAdditions shopper.tenantId shopper.userId items)
    (World.opened shopper.database shopper.stamp shopper.clock) world) : shopper.Kept items world := by
  refine Grows.invariant (shopper.Kept items) grows ?_ (fun world label writes _ kept lawful => ?_)
    (fun world label kept => kept.elsewhere (by simp)) fun world elapsed kept => ?_
  · have none (i : ι) : ¬ Stores i (World.opened shopper.database shopper.stamp shopper.clock) := by
      simp [Stores, World.own_opened]
    have opens : OpensFirst shopper.tenantId shopper.userId
        (World.opened shopper.database shopper.stamp shopper.clock : SystemWorld ι).trace := by
      intro event member written
      rw [List.eq_of_mem_replicate member] at written
      exact absurd rfl written
    refine ⟨fun first one second two cart variant => ?_, shopper.referenced, fun variantId => ?_, fun variantId => ?_,
      fun _ => shopper.single, fun start => ⟨opens, start, fun event member author => ?_⟩⟩
    · refine shopper.unique first one second two (.cartItem first.cartId first.variantId) (List.mem_cons_self ..) ?_
      rw [cart, variant]
      exact List.mem_cons_self ..
    · rw [boughtBy, Finset.sum_eq_zero fun i _ => if_neg fun both => none i both.1, add_zero]
      rfl
    · exact (or_iff_left fun stored => none stored.choose stored.choose_spec.left).symm
    · exact absurd (World.opened_author member) author
  · cases author : label.author with
    | none =>
      rw [author] at lawful
      exact kept.elsewhere lawful
    | some i =>
      rw [author] at lawful
      cases lawful with
      | opened fresh user status tenant looked unstored => exact kept.cart fresh user status tenant looked
      | @line row fresh free inCart quantity unstored =>
        have absent : (world.database.table .cartItem).find row.id = Option.none := fresh
        refine kept.stored author unstored inCart (fun other member _ => free other member) ?_ fun old found => ?_
        · rw [absent, quantity]
          exact (zero_add _).symm
        · cases fresh.symm.trans found
      | @merged row found inCart unstored =>
        have here : (world.database.table .cartItem).find row.id = some row := found
        refine kept.stored author unstored inCart (fun other member different cart variant => ?_) ?_ fun old stored => ?_
        · obtain rfl := kept.unique other member row (Table.find_eq_some.mp found).1 cart variant
          exact different rfl
        · rw [here]
          rfl
        · cases found.symm.trans stored
          exact inCart
  · exact ⟨kept.unique, kept.referenced, kept.units, kept.listed, kept.single, kept.opened⟩

end Shopper.Kept

/-- The report has one line for each listed variant, with its units, and no others. -/
structure Shows (summary : CartSummary) (listed : Id → Prop) (units : Id → Int) : Prop where
  lines : ∀ variantId, listed variantId →
    (summary.items.filter fun item => item.variantId = variantId).map CartItemSummary.quantity = [units variantId]
  others : ∀ variantId, ¬ listed variantId → (summary.items.filter fun item => item.variantId = variantId) = []

private theorem sum_counted {rows : List CartItem} {p : CartItem → Prop} [DecidablePred p] :
    (rows.map fun row => if p row then row.quantity else 0).sum = ((rows.filter fun row => p row).map CartItem.quantity).sum := by
  induction rows with
  | nil => rfl
  | cons row rest ih =>
    rw [List.map_cons, List.sum_cons, ih]
    by_cases counted : p row
    · simp [counted]
    · simp [counted]

section Shown
variable {db : Db} {cart : Cart} {summary : CartSummary} {stamp clock : Nat}

private theorem getCart_alone {world : World commerce Unit} (there : world.database = db)
    (single : openCarts db tenantId userId = [cart]) :
    Safe Never Alone () (fun result _ _ => ∀ summary, result = .ok summary →
      ∃ items prices, Reported db tenantId cart summary items prices) (getCart tenantId userId) none world := by
  rw [getCart, getOrCreateCart, findOpenCart]
  simp only [bind_assoc, pure_bind]
  refine Safe.findMany (fun _ _ _ (_ : ∀ exception : HttpException, _ → True) _ _ _ same => nomatch same)
    fun w₁ carts l₁ listed _ => ?_
  rw [World.view_none, Later.alone l₁, there] at listed
  obtain rfl : carts = [cart] := List.perm_singleton.mp (single ▸ listed)
  exact enrichCart_alone ((Later.alone l₁).trans there)

private theorem Reported.shows {items : List CartItem} {prices : List Price} (reported : Reported db tenantId cart summary items prices)
    (single : openCarts db tenantId userId = [cart])
    (unique : ∀ first ∈ (db.table .cartItem).rows, ∀ second ∈ (db.table .cartItem).rows,
      first.cartId = second.cartId → first.variantId = second.variantId → first = second) :
    Shows summary (fun variantId => ∃ row ∈ (db.table .cartItem).rows, InCart db tenantId userId variantId row)
      (unitsIn db tenantId userId) := by
  obtain ⟨variants, listed⟩ := reported.listed
  have counted (variantId : Id) (row : CartItem) : InCart db tenantId userId variantId row ↔
      (row.cartId = cart.id ∧ row.tenantId = tenantId) ∧ row.variantId = variantId := by
    rw [InCart, single]
    simp only [List.mem_singleton, exists_eq_left]
    constructor
    · rintro ⟨tenant, variant, same⟩
      exact ⟨⟨same.symm, tenant⟩, variant⟩
    · rintro ⟨⟨same, tenant⟩, variant⟩
      exact ⟨tenant, variant, same.symm⟩
  have rows (variantId : Id) : (items.filter fun item => item.variantId = variantId).Perm
      ((db.table .cartItem).rows.filter fun row => InCart db tenantId userId variantId row) := by
    refine (reported.rows.filter _).trans (List.Perm.of_eq ?_)
    rw [List.filter_filter]
    refine List.filter_congr fun row _ => ?_
    rw [Bool.eq_iff_iff]
    simp only [Bool.and_eq_true, decide_eq_true_eq, counted, and_comm]
  have lines (variantId : Id) : (summary.items.filter fun item => item.variantId = variantId) =
      (items.filter fun item => item.variantId = variantId).map (CartService.itemSummary variants prices) := by
    rw [listed, List.filter_map]
    rfl
  constructor
  · rintro variantId ⟨row, member, inCart⟩
    have only : (items.filter fun item => item.variantId = variantId) = [row] := by
      refine List.perm_singleton.mp ((rows variantId).trans ?_)
      have distinct := ((db.table .cartItem).distinct.of_map).filter fun row => InCart db tenantId userId variantId row
      refine (List.perm_ext_iff_of_nodup distinct (List.nodup_singleton _)).mpr fun other => ?_
      rw [List.mem_filter, List.mem_singleton, decide_eq_true_eq]
      constructor
      · rintro ⟨there, same⟩
        obtain ⟨⟨cart, _⟩, variant⟩ := (counted variantId other).mp same
        obtain ⟨⟨cart', _⟩, variant'⟩ := (counted variantId row).mp inCart
        exact unique other there row member (cart.trans cart'.symm) (variant.trans variant'.symm)
      · rintro rfl
        exact ⟨member, inCart⟩
    rw [lines, only, unitsIn, Table.total, sum_counted, ← ((rows variantId).map _).sum_eq, only]
    simp [CartService.itemSummary]
  · intro variantId absent
    have none : ((db.table .cartItem).rows.filter fun row => InCart db tenantId userId variantId row) = [] :=
      List.filter_eq_nil_iff.mpr fun row member => by simpa using fun inCart => absent ⟨row, member, inCart⟩
    have same := rows variantId
    rw [none] at same
    rw [lines, same.eq_nil, List.map_nil]

end Shown

variable {state : CartState ι}

omit [Fintype ι] in
private theorem Shopper.valid (shopper : Shopper) (items : ι → AddCartItemDto) :
    Valid (lawfulAdditions shopper.tenantId shopper.userId items) (fun i => Bought i) (shopper.system items) :=
  Valid.opened fun i => addItem_adds (by simp [Stores, World.own_opened])

/-- If all additions succeed none is lost: the units in the user's OPEN carts are those
from before and all that were added, and a cart has one line for a variant at most. If
a cart is opened only while there is none, there is one, and it is what is shown. -/
theorem additions_kept (shopper : Shopper) (items : ι → AddCartItemDto)
    (reached : State.Reaches CartsAlone (shopper.system items) state)
    (succeeded : ∀ i, ∃ summary, (state.threads i).program = .done (.ok summary)) :
    (∀ first ∈ (state.world.database.table .cartItem).rows, ∀ second ∈ (state.world.database.table .cartItem).rows,
      first.cartId = second.cartId → first.variantId = second.variantId → first = second) ∧
    (∀ variantId, unitsIn state.world.database shopper.tenantId shopper.userId variantId =
      unitsIn shopper.database shopper.tenantId shopper.userId variantId +
        ∑ i, if (items i).variantId = variantId then (items i).quantity else 0) ∧
    (openCarts shopper.database shopper.tenantId shopper.userId ≠ [] ∨
        Nonempty ι ∧ OpensFirst shopper.tenantId shopper.userId state.world.trace →
      (∃ cart, openCarts state.world.database shopper.tenantId shopper.userId = [cart]) ∧
      ∀ stamp clock shown summary,
        RunsAlone (World.opened state.world.database stamp clock) (getCart shopper.tenantId shopper.userId) shown →
        (shown.threads ()).program = .done (.ok summary) →
        Shows summary (fun variantId => (∃ row ∈ (shopper.database.table .cartItem).rows,
            InCart shopper.database shopper.tenantId shopper.userId variantId row) ∨ ∃ i, (items i).variantId = variantId)
          fun variantId => unitsIn shopper.database shopper.tenantId shopper.userId variantId +
            ∑ i, if (items i).variantId = variantId then (items i).quantity else 0) := by
  have environment (state : CartState ι) (writes : Writes) (alone : CartsAlone state (.external writes)) :
      Allowed (lawfulAdditions shopper.tenantId shopper.userId items none) state.world writes := .inr (alone writes rfl)
  obtain ⟨valid, grows⟩ := State.Reaches.valid reached (shopper.valid items) environment
  have kept := Shopper.Kept.grown grows
  have stores (i : ι) : Stores i state.world := by
    obtain ⟨summary, done⟩ := succeeded i
    exact (valid.ended done summary rfl).2
  have bought (variantId : Id) : boughtBy items variantId state.world =
      ∑ i, if (items i).variantId = variantId then (items i).quantity else 0 :=
    Finset.sum_congr rfl fun i _ => if_congr (and_iff_right (stores i)) rfl rfl
  have units (variantId : Id) := (kept.units variantId).trans (congrArg _ (bought variantId))
  refine ⟨kept.unique, units, fun condition => ?_⟩
  obtain ⟨opens, nonempty⟩ : OpensFirst shopper.tenantId shopper.userId state.world.trace ∧
      openCarts state.world.database shopper.tenantId shopper.userId ≠ [] := by
    rcases condition with first | ⟨⟨i⟩, opens⟩
    · exact ⟨(kept.opened first).1, (kept.opened first).2.1⟩
    · obtain ⟨row, _, _, _, cart, member, _⟩ := (kept.listed _).mpr (.inr ⟨i, stores i, rfl⟩)
      exact ⟨opens, List.ne_nil_of_mem member⟩
  obtain ⟨cart, single⟩ : ∃ cart, openCarts state.world.database shopper.tenantId shopper.userId = [cart] := by
    have most := kept.single opens
    have least := List.length_pos_iff.mpr nonempty
    exact List.length_eq_one_iff.mp (by omega)
  refine ⟨⟨cart, single⟩, fun stamp clock shown summary ran done => ?_⟩
  obtain ⟨items', prices, reported⟩ := (ran.valid (getCart_alone rfl single)).1.ended done summary rfl
  have shows := Reported.shows reported single kept.unique
  have listed (variantId : Id) := (kept.listed variantId).trans
    (or_congr_right (exists_congr fun i => and_iff_right (stores i)))
  refine ⟨fun variantId given => ?_, fun variantId absent => shows.others variantId fun there => absent ((listed variantId).mp there)⟩
  exact (shows.lines variantId ((listed variantId).mpr given)).trans (congrArg (fun n => [n]) (units variantId))

instance {trace : List (Event commerce ι)} : Decidable (OpensFirst tenantId userId trace) :=
  inferInstanceAs (Decidable (∀ event ∈ trace, _))

/-- A user of the demo shop without a cart. -/
def newShopper : Shopper where
  database := Shop.demo.database
  stamp := 20
  clock := 0
  tenantId := 0
  userId := 7
  unique := by rw [Database.Unique]; decide
  referenced := by decide
  single := by decide

/-- Two units and three units of a variant. -/
def twoAndThree : Fin 2 → AddCartItemDto := ![⟨1, 2⟩, ⟨1, 3⟩]

omit [DecidableEq ι] [Fintype ι] in
private theorem succeeded_of {i : ι} (ended : state.finished i) (unfailed : ¬ state.failed i) :
    ∃ summary, (state.threads i).program = .done (.ok summary) := by
  obtain ⟨result, done⟩ := ended
  cases result with
  | ok summary => exact ⟨summary, done⟩
  | error failure => exact absurd ⟨failure, done⟩ unfailed

/-- The second call reads before the first has stored its line, and merges into it. -/
theorem additions_kept_five : ∃ state : CartState (Fin 2),
    State.Reaches CartsAlone (newShopper.system twoAndThree) state ∧
      unitsIn state.world.database 0 7 1 = 5 ∧ ∃ cart, openCarts state.world.database 0 7 = [cart] := by
  have executed : ((newShopper.system twoAndThree).run (runs 0 3 ++ runs 1 3 ++ runs 0 6 ++ runs 1 7)).any (fun state =>
      OpensFirst 0 7 state.world.trace && (∀ i, state.finished i) && ∀ i, ¬ state.failed i) = true := by decide +kernel
  obtain ⟨state, ran, seen⟩ := State.Reaches.computed executed rfl
  simp only [Bool.and_eq_true, decide_eq_true_eq] at seen
  obtain ⟨⟨opens, ended⟩, unfailed⟩ := seen
  have reached : State.Reaches CartsAlone (newShopper.system twoAndThree) state := ran.weaken fun _ _ undisturbed => by
    rintro writes rfl
    cases undisturbed
  obtain ⟨_, units, single⟩ := additions_kept newShopper twoAndThree reached fun i => succeeded_of (ended i) (unfailed i)
  exact ⟨state, reached, units 1, (single (.inr ⟨⟨0⟩, opens⟩)).1⟩

/-- Both calls find no cart and open one; a following `getCart` shows the units of one. -/
theorem addition_hidden : ∃ state : CartState (Fin 2),
    State.Reaches CartsAlone (newShopper.system twoAndThree) state ∧
      (∀ i, ∃ summary, (state.threads i).program = .done (.ok summary)) ∧
      (openCarts state.world.database 0 7).length = 2 ∧
      ∃ shown summary, RunsAlone (World.opened state.world.database 50 0) (getCart 0 7) shown ∧
        (shown.threads ()).program = .done (.ok summary) ∧ summary.items.map CartItemSummary.quantity = [2] := by
  have executed : ((newShopper.system twoAndThree).run (runs 0 2 ++ runs 1 2 ++ runs 0 7 ++ runs 1 7)).any (fun state =>
      (∀ i, state.finished i) && (∀ i, ¬ state.failed i) && (openCarts state.world.database 0 7).length = 2 &&
        ((World.opened state.world.database 50 0).execute (getCart 0 7) 4).any fun (result, _) =>
          result.toOption.any fun summary => summary.items.map CartItemSummary.quantity = [2]) = true := by decide +kernel
  obtain ⟨state, ran, seen⟩ := State.Reaches.computed executed rfl
  simp only [Bool.and_eq_true, decide_eq_true_eq] at seen
  obtain ⟨⟨⟨ended, unfailed⟩, two⟩, shown⟩ := seen
  obtain ⟨⟨result, world⟩, finished, quantities⟩ := (Option.any_eq_true _ _).mp shown
  obtain ⟨after, read, done, _⟩ := RunsAlone.executed finished
  cases result with
  | error failure => cases quantities
  | ok summary =>
    refine ⟨state, ran.weaken fun _ _ undisturbed => ?_, fun i => succeeded_of (ended i) (unfailed i), two, after, summary,
      read, done, of_decide_eq_true quantities⟩
    rintro writes rfl
    cases undisturbed

end BusinessPlatform
