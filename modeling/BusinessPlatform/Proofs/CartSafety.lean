import BusinessPlatform.Proofs.Stability

/-! The cart operations under interference: each statement opens a cart, changes
one line of a cart of the caller's tenant, or deletes a cart with its lines. -/

namespace BusinessPlatform
open Engine CartService

variable {ι : Type} [DecidableEq ι] {calls : ι → Call} {i : ι} {tenantId userId cartId : Id}
  {commits : Commits commerce ι} {world after : SystemWorld ι}

abbrev CartCommits (tenantId userId : Id) : Commits commerce ι :=
  fun world writes => CartStep tenantId userId world.trace.length world.database writes

/-- Nothing is claimed of the result of a cart operation. -/
abbrev Anything (α ι : Type) : Post commerce HttpException α ι := fun _ _ _ => True

/-- Every failure is covered. -/
abbrev Failing {α : Type} (calls : ι → Call) (i : ι) (post : Post commerce HttpException α ι)
    (world : SystemWorld ι) : Prop := Fails (lawful calls) i (fun _ => True) post false world

private theorem anything {α : Type} (world : SystemWorld ι) : Failing calls i (Anything α ι) world :=
  fun _ _ _ _ _ _ => trivial

private theorem enrichCart_safe {cart : Cart} {world : SystemWorld ι} :
    Safe commits (lawful calls) i (Anything _ ι) (enrichCart tenantId cart) none world := by
  refine Safe.findMany (anything world) fun w₁ rows l₁ _ fails => ?_
  simp only
  split
  next => exact Safe.done fun _ _ => trivial
  next =>
    refine Safe.findMany fails fun w₂ variants l₂ _ fails => ?_
    exact Safe.findMany fails fun w₃ prices l₃ _ fails => Safe.done fun _ _ => trivial

private theorem freshCart_safe {world : SystemWorld ι} :
    Safe commits (lawful calls) i (Anything _ ι) (freshCart tenantId cartId) none world := by
  refine Safe.findFirst (anything world) fun w₁ carts l₁ _ fails => ?_
  exact Safe.orThrow fails trivial fun cart _ => enrichCart_safe

private theorem findOpenCart_safe {post : Post commerce HttpException (Option Cart) ι}
    (known : KnownCarts world) (fails : Failing calls i post world)
    (resume : ∀ after cart, Idle (lawful calls) i world after →
      (∀ found, cart = some found → KnownCart tenantId found.id after) → post (.ok cart) none after) :
    Safe commits (lawful calls) i post (findOpenCart tenantId userId) none world := by
  refine Safe.findMany fails fun w₁ carts l₁ listed _ => Safe.done fun after later => ?_
  have grown : Grows (lawful calls) w₁ after := .head (.empty _) later.grows
  refine resume after _ ((Idle.record (Later.idle l₁) _).trans (Later.idle later)) fun cart head => KnownCart.grows ?_ grown
  have member := (List.perm_insertionSort _ carts).mem_iff.mp (List.mem_of_mem_head? head)
  obtain ⟨inside, matched⟩ := List.mem_filter.mp (listed.mem_iff.mp member)
  simp only [Bool.and_eq_true, decide_eq_true_eq] at matched
  have mine := known.grows l₁.grows cart.id cart (Table.find_eq_some.mpr ⟨inside, rfl⟩)
  exact matched.2 ▸ mine

private theorem createCart_safe {post : Post commerce HttpException Cart ι} (fails : Failing calls i post world)
    (resume : ∀ after cart, KnownCart tenantId cart.id after → post (.ok cart) none after) :
    Safe (CartCommits tenantId userId) (lawful calls) i post (createCart tenantId userId) none world := by
  rw [← bind_pure (createCart tenantId userId)]
  refine Safe.create fails fun w₁ l₁ cart built created => ?_
  have opened : CartOpened tenantId userId w₁.trace.length w₁.database cart := by
    subst built
    exact ⟨rfl, created.fresh, rfl, rfl, rfl⟩
  refine ⟨.inr (.cartOpened cart opened), Safe.done fun after later => resume after cart (KnownCart.grows ?_ later.grows)⟩
  refine ⟨opened.stamped ▸ Nat.lt_succ_self _, fun found same => ?_⟩
  have stored := Database.get_put (S := commerce) w₁.database .cart cart
  rw [Option.some.inj (same.symm.trans stored)]
  exact opened.tenant

private theorem getOrCreateCart_safe {post : Post commerce HttpException Cart ι} (known : KnownCarts world)
    (fails : Failing calls i post world)
    (resume : ∀ after cart, KnownCart tenantId cart.id after → post (.ok cart) none after) :
    Safe (CartCommits tenantId userId) (lawful calls) i post (getOrCreateCart tenantId userId) none world := by
  refine Safe.bind (findOpenCart_safe known fails fun w₁ existing idle found => ?_)
  have fails : Failing calls i post w₁ := fails.idle idle
  have known := known.grows idle.grows
  cases existing with
  | some cart => exact Safe.done fun after later => resume after cart ((found cart rfl).grows later.grows)
  | none =>
    refine Safe.tryCatch rfl (createCart_safe (fun failure session after _ outside idle => ?_) fun after cart => resume after cart)
    obtain rfl := outside rfl
    have fails : Failing calls i post after := fails.idle idle
    simp only
    split
    next =>
      refine Safe.bind (findOpenCart_safe (known.grows idle.grows) fails fun w₂ raced idle found => ?_)
      have fails : Failing calls i post w₂ := fails.idle idle
      cases raced with
      | some cart => exact Safe.done fun after later => resume after cart ((found cart rfl).grows later.grows)
      | none => exact Safe.failed fails fun _ _ => trivial
    next => exact Safe.failed fails fun _ _ => trivial

section Lines
variable {post : Post commerce HttpException CartItem ι} (fails : ∀ world, Failing calls i post world)
  (resume : ∀ after item, post (.ok item) none after)
include fails resume

private theorem changeLine_safe {itemId : Id} {change : Change commerce .cartItem} {world : SystemWorld ι}
    (only : ∀ item : CartItem, ∃ quantity, change.apply item = { item with quantity }) :
    Safe (CartCommits tenantId userId) (lawful calls) i post (changeLine tenantId itemId change) none world := by
  rw [← bind_pure (changeLine ..)]
  refine Safe.update (fails world) fun w₁ l₁ item member matched _ => ⟨.inr ?_, Safe.done fun _ _ => resume _ _⟩
  obtain ⟨quantity, same⟩ := only item
  rw [same]
  exact .lineChanged item quantity (Table.find_eq_some.mpr ⟨member, rfl⟩)

/-- A line is added to a cart of the caller's tenant, or merged into the line
that the cart already has for its variant. -/
private theorem addLine_safe {dto : AddCartItemDto} {world : SystemWorld ι} (known : KnownCart tenantId cartId world) :
    Safe (CartCommits tenantId userId) (lawful calls) i post (addLine tenantId cartId dto) none world := by
  refine Safe.findFirst (fails world) fun w₁ items l₁ _ _ => ?_
  cases items.head? with
  | some item => exact changeLine_safe fails resume fun item => ⟨_, rfl⟩
  | none =>
    refine Safe.tryCatch rfl ?_
    rw [← bind_pure (createLine ..)]
    refine Safe.create (fun failure session after (_ : ∀ exception, failure = .thrown exception → True) outside _ => ?_)
      fun w₂ l₂ item built created => ?_
    · obtain rfl := outside rfl
      simp only
      split
      next =>
        refine Safe.findFirst (fails after) fun w₃ items l₃ _ fails' => ?_
        exact Safe.orThrow fails' trivial fun item _ => changeLine_safe fails resume fun item => ⟨_, rfl⟩
      next => exact Safe.failed (fails after) fun _ _ => trivial
    · obtain ⟨cart, found⟩ := Option.isSome_iff_exists.mp
        (created.parents ⟨.cart, cartId⟩ (by rw [built]; exact List.mem_cons_self ..))
      have known := known.grows ((l₁.grows.tail (.empty _)).trans l₂.grows)
      refine ⟨.inr (.lineAdded item created.fresh ⟨cart, by rw [built]; exact found, ?_⟩), Safe.done fun _ _ => resume _ _⟩
      rw [known.tenant cart found, built]

end Lines

private theorem ownLine_safe {itemId : Id} {α : Type} {next : CartItem → Service α} {world : SystemWorld ι}
    (resume : ∀ after item, Safe commits (lawful calls) i (Anything α ι) (next item) none after) :
    Safe commits (lawful calls) i (Anything α ι) (ownLine tenantId cartId itemId >>= next) none world := by
  refine Safe.bind (Safe.findFirst (fun failure _ _ (_ : ∀ exception, failure = .thrown exception → True) _ _ => trivial)
    fun w₁ items l₁ _ fails => ?_)
  refine Safe.orThrow fails trivial fun item _ => ?_
  exact Safe.throwIf fails trivial fun _ => Safe.done fun after _ => resume after item

theorem getCart_safe (known : KnownCarts world) :
    Safe (CartCommits tenantId userId) (lawful calls) i (Anything _ ι) (getCart tenantId userId) none world :=
  Safe.bind (getOrCreateCart_safe known (fun _ _ _ _ _ _ => trivial) fun _ _ _ => enrichCart_safe)

theorem addItem_safe {dto : AddCartItemDto} (known : KnownCarts world) :
    Safe (CartCommits tenantId userId) (lawful calls) i (Anything _ ι) (addItem tenantId userId dto) none world := by
  refine Safe.findFirst (anything world) fun w₁ variants l₁ _ fails => ?_
  refine Safe.throwIf fails trivial fun _ => ?_
  have known : KnownCarts (w₁.reads i .productVariant variants false) := known.grows (l₁.grows.tail (.empty _))
  refine Safe.bind (getOrCreateCart_safe known (fun _ _ _ _ _ _ => trivial) fun after cart known => ?_)
  exact Safe.bind (addLine_safe (fun _ _ _ _ _ _ _ => trivial) (fun _ _ => freshCart_safe) known)

theorem updateItem_safe {itemId : Id} {dto : UpdateCartItemDto} (known : KnownCarts world) :
    Safe (CartCommits tenantId userId) (lawful calls) i (Anything _ ι) (updateItem tenantId userId itemId dto)
      none world := by
  refine Safe.bind (getOrCreateCart_safe known (fun _ _ _ _ _ _ => trivial) fun after cart _ => ?_)
  refine ownLine_safe fun after item => ?_
  exact Safe.bind (changeLine_safe (fun _ _ _ _ _ _ _ => trivial) (fun _ _ => freshCart_safe) fun item => ⟨_, rfl⟩)

theorem removeItem_safe {itemId : Id} (known : KnownCarts world) :
    Safe (CartCommits tenantId userId) (lawful calls) i (Anything _ ι) (removeItem tenantId userId itemId)
      none world := by
  refine Safe.bind (getOrCreateCart_safe known (fun _ _ _ _ _ _ => trivial) fun after cart _ => ?_)
  refine ownLine_safe fun after item => ?_
  refine Safe.delete (anything after) fun w₁ l₁ row member matched => ⟨.inr ?_, freshCart_safe⟩
  exact .lineRemoved row (Table.find_eq_some.mpr ⟨member, rfl⟩)

theorem discardCart_safe :
    Safe (CartCommits tenantId userId) (lawful calls) i (Anything _ ι) (discardCart tenantId userId) none world := by
  refine Safe.findFirst (anything world) fun w₁ carts l₁ _ fails => ?_
  refine Safe.orThrow fails trivial fun cart _ => ?_
  refine Safe.throwIf fails trivial fun _ => ?_
  refine Safe.delete fails fun w₂ l₂ row member matched => ⟨.inr ?_, Safe.done fun _ _ => trivial⟩
  rw [erases_cart]
  exact .discarded row (Table.find_eq_some.mpr ⟨member, rfl⟩)

end BusinessPlatform
