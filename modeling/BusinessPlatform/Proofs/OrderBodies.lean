import BusinessPlatform.Proofs.OrderRanges

/-! Orders as their bodies ask for them: which bodies are answered with status 500. -/

namespace BusinessPlatform
open Engine OrderService Program

/-- The body reads as the dto: its texts are such as the database takes. -/
structure OrderService.CreateOrderBody.Reads (body : CreateOrderBody) (dto : CreateOrderDto) : Prop where
  items : body.items.join.getD [] = (dto.items.getD []).map OrderItemInputDto.body
  customer : body.customerId = dto.customerId.map fun id => some (.id id)
  booking : body.bookingId.join = dto.bookingId

/-- What the validation of the body admits. -/
def OrderService.CreateOrderBody.Valid (body : CreateOrderBody) : Prop :=
  ∀ variantId quantity, .line variantId quantity ∈ body.items.join.getD [] → 1 ≤ quantity ∧ quantity ≤ 1000000

/-- The lines that a body names, or those of the caller's cart if it names none. -/
inductive Gathered (db : Db) (tenantId userId : Id) (body : CreateOrderBody) : List OrderItemBody → Option Id → Prop where
  | items (named : body.items.join.getD [] ≠ []) : Gathered db tenantId userId body (body.items.join.getD []) none
  | cart {lines : List OrderItemInputDto} {cartId : Option Id} (unnamed : body.items.join.getD [] = [])
      (asked : Asked db tenantId userId {} lines cartId) :
    Gathered db tenantId userId body (lines.map OrderItemInputDto.body) cartId

/-- The statements that read the lines of a body. -/
def gathering (body : CreateOrderBody) : Nat := if body.items.join.getD [] = [] then 2 else 0

/-- What a valid body fails on with status 500: a line that is null, a customer that is
null or a refused text, a variant that is refused or no text, or a number out of range. -/
inductive Fatal (db : Db) (tenantId userId : Id) (options : CreateOrderOptions) (body : CreateOrderBody) : Prop where
  | null (listed : .null ∈ body.items.join.getD [])
  | customer {lines : List OrderItemBody} {cartId : Option Id} (gathered : Gathered db tenantId userId body lines cartId)
      (unknown : body.customerId = some none ∨ body.customerId = some (some .refused))
  | variant {lines : List OrderItemBody} {cartId : Option Id} (gathered : Gathered db tenantId userId body lines cartId)
      (served : ∀ id, body.customerId = some (some (.id id)) →
        ∃ customer, db.get .customer id = some customer ∧ customer.tenantId = tenantId)
      {line : OrderItemBody} (listed : line ∈ lines) (unknown : line.known = none)
  | oversized {dto : CreateOrderDto} (reads : body.Reads dto) (oversized : Oversized db tenantId userId dto options)

/-- A call either computes numbers that fit, or it is rejected with a client error and changes nothing. -/
def InRange (moment : Moment commerce) (tenantId userId : Id) (body : CreateOrderBody) (options : CreateOrderOptions) : Prop :=
  match (createOrderBody tenantId userId body options).evaluate none moment with
  | (.ok summary, _, _) => ∃ dto lines cartId currency, body.Reads dto ∧ Asked moment.database tenantId userId dto lines cartId ∧
      Computes moment.database tenantId userId dto options lines currency summary
  | (.error failure, _, after) => ClientError failure ∧ after.database = moment.database

variable {dto : CreateOrderDto} {body : CreateOrderBody} {items : List OrderItemBody}

@[simp] theorem OrderItemInputDto.known_body (item : OrderItemInputDto) : item.body.known = some item := rfl

theorem OrderItemBody.known_eq_some {line : OrderItemBody} {item : OrderItemInputDto} :
    line.known = some item ↔ line = item.body := by
  constructor
  · intro known
    unfold OrderItemBody.known at known
    split at known <;> cases known
    rfl
  · rintro rfl
    rfl

theorem mapM_known {lines : List OrderItemInputDto} :
    items.mapM OrderItemBody.known = some lines ↔ items = lines.map OrderItemInputDto.body := by
  induction items generalizing lines with
  | nil => cases lines <;> simp
  | cons line rest ih =>
    cases lines with
    | nil => simp [Option.bind_eq_some_iff]
    | cons item others =>
      simp only [List.mapM_cons, List.map_cons, List.cons.injEq, ← ih, ← OrderItemBody.known_eq_some]
      simp [Option.bind_eq_some_iff]

theorem mapM_known_none : items.mapM OrderItemBody.known = none ↔ ∃ line ∈ items, line.known = none := by
  induction items with
  | nil => simp
  | cons line rest ih =>
    rw [List.exists_mem_cons_iff, ← ih]
    cases known : line.known <;> cases others : rest.mapM OrderItemBody.known <;> simp [known, others]

theorem bodyItems_named (named : body.items.join.getD [] ≠ []) : bodyItems tenantId userId body =
    if .null ∈ body.items.join.getD [] then Program.throw .internalServerError
      else pure (body.items.join.getD [], none) := by
  rw [bodyItems]
  split
  next item items given => rw [given, Option.getD_some]
  next unnamed =>
    refine absurd ?_ named
    cases given : body.items.join with
    | none => rfl
    | some items =>
      cases items with
      | nil => rfl
      | cons item items => exact absurd given (unnamed item items)

theorem bodyItems_unnamed (unnamed : body.items.join.getD [] = []) : bodyItems tenantId userId body =
    readCart tenantId userId >>= fun (items, cartId) => pure (items.map OrderItemInputDto.body, cartId) := by
  rw [bodyItems]
  split
  next item items given => simp [given] at unnamed
  next => rfl

theorem customer_cases (field : Field Prisma.Reference) :
    (∃ customerId : Option Id, field = customerId.map fun id => some (.id id)) ∨ field = some none ∨
      field = some (some .refused) := by
  obtain _ | _ | id | _ := field
  · exact .inl ⟨none, rfl⟩
  · exact .inr (.inl rfl)
  · exact .inl ⟨some id, rfl⟩
  · exact .inr (.inr rfl)

theorem bodyCustomer_known {customerId : Option Id} : bodyCustomer tenantId (customerId.map fun id => some (.id id)) =
    assertCustomer tenantId customerId >>= fun _ => pure customerId := by
  cases customerId <;> rfl

theorem createOrderBody_eq (reads : body.Reads dto) :
    createOrderBody tenantId userId body options = createOrder tenantId userId dto options := by
  have customer : bodyCustomer tenantId body.customerId =
      assertCustomer tenantId dto.customerId >>= fun _ => pure dto.customerId := by
    rw [reads.customer, bodyCustomer_known]
  have place (items : List OrderItemInputDto) (cartId : Option Id) : (do
      let items ← sendVariants (items.map OrderItemInputDto.body)
      placeOrder tenantId userId dto.customerId options.inventoryScope.storeId options.bookingId cartId
        (aggregateItems items)) =
      placeOrder tenantId userId dto.customerId options.inventoryScope.storeId options.bookingId cartId
        (aggregateItems items) := by
    rw [sendVariants, mapM_known.mpr rfl]
    exact pure_bind _ _
  rw [createOrderBody, createOrder, customer]
  cases given : dto.items.getD [] with
  | nil =>
    have none : body.items.join.getD [] = [] := by rw [reads.items, given, List.map_nil]
    have cart : itemsInput tenantId userId dto = readCart tenantId userId := by
      rw [itemsInput]
      split
      next item items named => simp [named] at given
      next => rfl
    simp only [bodyItems_unnamed none, cart, bind_assoc, pure_bind, place]
  | cons item items =>
    have named : dto.items = some (item :: items) := by
      cases known : dto.items with
      | none => simp [known] at given
      | some _ => simpa [known] using given
    have listed : body.items.join.getD [] = (item :: items).map OrderItemInputDto.body := by rw [reads.items, given]
    have known : ¬ .null ∈ (item :: items).map OrderItemInputDto.body := by
      simp [OrderItemInputDto.body]
    have shown : bodyItems tenantId userId body = pure ((item :: items).map OrderItemInputDto.body, none) := by
      rw [bodyItems_named (by rw [listed]; exact List.cons_ne_nil _ _), listed, if_neg known]
    have input : itemsInput tenantId userId dto = pure (item :: items, none) := by
      rw [itemsInput, named]
    simp only [shown, input, bind_assoc, pure_bind, place]

theorem OrderService.CreateOrderBody.Reads.valid (reads : body.Reads dto) (valid : body.Valid) : dto.Valid := by
  intro item member
  refine valid (.id item.variantId) item.quantity ?_
  rw [reads.items]
  exact List.mem_map_of_mem member

private theorem readCart_sound : ¬ (readCart tenantId userId).Breaks ServerError none moment :=
  @itemsInput_sound tenantId userId {} moment

private theorem breaks_bodyItems :
    (bodyItems tenantId userId body).Breaks ServerError none moment ↔ .null ∈ body.items.join.getD [] := by
  by_cases named : body.items.join.getD [] = []
  · rw [bodyItems_unnamed named, breaks_bind, named]
    refine iff_of_false ?_ List.not_mem_nil
    rintro (refused | continues)
    · exact readCart_sound refused
    · obtain ⟨_, _, nothing⟩ := succeeds_iff.mp continues
      exact breaks_pure nothing
  · rw [bodyItems_named named]
    split
    next listed => exact iff_of_true (breaks_failed.mpr id) listed
    next unlisted => exact iff_of_false breaks_pure unlisted

private theorem succeeds_bodyItems {post : List OrderItemBody × Option Id → Pending commerce → Moment commerce → Prop} :
    (bodyItems tenantId userId body).Succeeds none moment post ↔ .null ∉ body.items.join.getD [] ∧ ∃ lines cartId,
      Gathered moment.database tenantId userId body lines cartId ∧ post (lines, cartId) none (moment.ticks (gathering body)) := by
  rw [gathering]
  split
  next unnamed =>
    rw [bodyItems_unnamed unnamed, unnamed, and_iff_right List.not_mem_nil, succeeds_bind]
    refine (@succeeds_readCart tenantId userId {} moment rfl _).trans ?_
    constructor
    · rintro ⟨lines, cartId, asked, holds⟩
      exact ⟨_, cartId, .cart unnamed asked, holds⟩
    · rintro ⟨_, _, gathered, holds⟩
      cases gathered with
      | items named => exact absurd unnamed named
      | cart _ asked => exact ⟨_, _, asked, holds⟩
  next named =>
    rw [bodyItems_named named]
    split
    next listed => exact iff_of_false (fun thrown => by simp [Program.throw] at thrown) fun clean => clean.1 listed
    next unlisted =>
      rw [and_iff_right unlisted, succeeds_pure]
      constructor
      · exact fun holds => ⟨_, _, .items named, holds⟩
      · rintro ⟨_, _, gathered, holds⟩
        cases gathered with
        | items => exact holds
        | cart unnamed => exact absurd unnamed named

private theorem bodyCustomer_unknown {field : Field Prisma.Reference}
    (unknown : field = some none ∨ field = some (some .refused)) :
    ∃ failure, bodyCustomer tenantId field = .done (.error failure) ∧ ServerError failure := by
  rcases unknown with rfl | rfl
  · exact ⟨_, rfl, id⟩
  · exact ⟨_, rfl, id⟩

private theorem sendVariants_unknown (unknown : ∃ line ∈ items, line.known = none) :
    ∃ failure, sendVariants items = .done (.error failure) ∧ ServerError failure := by
  rw [sendVariants, mapM_known_none.mpr unknown]
  dsimp only
  split
  next => exact ⟨_, rfl, id⟩
  next => exact ⟨_, rfl, id⟩

private theorem Gathered.reads {lines : List OrderItemBody} {cartId customerId : Option Id}
    (gathered : Gathered db tenantId userId body lines cartId) (named : body.customerId = customerId.map fun id => some (.id id))
    (known : ¬ ∃ line ∈ lines, line.known = none) : ∃ dto, body.Reads dto := by
  cases gathered with
  | items =>
    obtain ⟨items, read⟩ := Option.ne_none_iff_exists'.mp (mt mapM_known_none.mp known)
    exact ⟨⟨some items, customerId, body.bookingId.join⟩, mapM_known.mp read, named, rfl⟩
  | cart unnamed => exact ⟨⟨none, customerId, body.bookingId.join⟩, unnamed, named, rfl⟩

theorem breaks_createOrderBody (consistent : Consistent moment) (valid : body.Valid) :
    (createOrderBody tenantId userId body options).Breaks ServerError none moment ↔
      Fatal moment.database tenantId userId options body := by
  constructor
  · intro breaks
    by_cases null : .null ∈ body.items.join.getD []
    · exact .null null
    obtain ⟨_, lines, cartId, gathered, continues⟩ :=
      succeeds_bodyItems.mp ((breaks_bind.mp breaks).resolve_left (mt breaks_bodyItems.mp null))
    rcases customer_cases body.customerId with ⟨customerId, named⟩ | unknown
    · by_cases unread : ∃ line ∈ lines, line.known = none
      · obtain ⟨line, listed, unknown⟩ := unread
        refine .variant gathered (fun id given => ?_) listed unknown
        dsimp only at continues
        rw [named, bodyCustomer_known, bind_assoc, breaks_bind] at continues
        obtain ⟨served, _⟩ := succeeds_assertCustomer.mp (continues.resolve_left assertCustomer_sound)
        refine served id ?_
        cases customerId with
        | none => cases named.symm.trans given
        | some other =>
          cases named.symm.trans given
          rfl
      · obtain ⟨dto, reads⟩ := gathered.reads named unread
        rw [createOrderBody_eq reads] at breaks
        exact .oversized reads ((breaks_createOrder consistent (reads.valid valid)).mp breaks)
    · exact .customer gathered unknown
  · intro fatal
    by_cases null : .null ∈ body.items.join.getD []
    · exact breaks_bind.mpr (.inl (breaks_bodyItems.mpr null))
    have refused {lines : List OrderItemBody} {cartId : Option Id}
        (gathered : Gathered moment.database tenantId userId body lines cartId)
        (unknown : body.customerId = some none ∨ body.customerId = some (some .refused)) :
        (createOrderBody tenantId userId body options).Breaks ServerError none moment := by
      obtain ⟨failure, ended, server⟩ := @bodyCustomer_unknown tenantId _ unknown
      refine breaks_bind.mpr (.inr (succeeds_bodyItems.mpr ⟨null, lines, cartId, gathered, ?_⟩))
      dsimp only
      rw [ended]
      exact breaks_bind.mpr (.inl (breaks_failed.mpr server))
    cases fatal with
    | null listed => exact absurd listed null
    | customer gathered unknown => exact refused gathered unknown
    | variant gathered served listed unknown =>
      rcases customer_cases body.customerId with ⟨customerId, named⟩ | bad
      · obtain ⟨failure, ended, server⟩ := sendVariants_unknown ⟨_, listed, unknown⟩
        refine breaks_bind.mpr (.inr (succeeds_bodyItems.mpr ⟨null, _, _, gathered, ?_⟩))
        dsimp only
        rw [named, bodyCustomer_known, bind_assoc, breaks_bind]
        refine .inr (succeeds_assertCustomer.mpr ⟨fun id given => served id (by rw [named, given]; rfl), ?_⟩)
        rw [pure_bind, breaks_transaction, ended]
        exact breaks_bind.mpr (.inl (breaks_failed.mpr server))
      · exact refused gathered bad
    | oversized reads oversized =>
      rw [createOrderBody_eq reads]
      exact (breaks_createOrder consistent (reads.valid valid)).mpr oversized

private theorem reads_createOrderBody {post : OrderSummary → Pending commerce → Moment commerce → Prop}
    (placed : (createOrderBody tenantId userId body options).Succeeds none moment post) : ∃ dto, body.Reads dto := by
  obtain ⟨_, lines, cartId, gathered, continues⟩ := succeeds_bodyItems.mp (succeeds_bind.mp placed)
  dsimp only at continues
  rcases customer_cases body.customerId with ⟨customerId, named⟩ | unknown
  · refine gathered.reads named fun unread => ?_
    obtain ⟨failure, ended, _⟩ := sendVariants_unknown unread
    rw [named, bodyCustomer_known, bind_assoc, succeeds_bind] at continues
    obtain ⟨_, places⟩ := succeeds_assertCustomer.mp continues
    rw [pure_bind, succeeds_transaction, ended, succeeds_bind] at places
    simp at places
  · obtain ⟨failure, ended, _⟩ := @bodyCustomer_unknown tenantId _ unknown
    rw [ended, succeeds_bind] at continues
    simp at continues

private theorem sendVariants_inside : (sendVariants items).Inside := by
  rw [sendVariants]
  split
  next => exact .pure
  next => split <;> trivial

theorem createOrderBody_atomic : (createOrderBody tenantId userId body options).Atomic := by
  refine .afterReading ?_ fun _ => .afterReading ?_ fun _ => .transaction (sendVariants_inside.bind fun _ => placeOrder_inside)
  · rw [bodyItems]
    split
    next => split <;> trivial
    next =>
      exact Reading.bind (Reading.findMany.bind fun _ => Reading.orThrow.bind fun _ => Reading.findMany.bind fun _ =>
        Reading.throwIf.bind fun _ => .pure) fun _ => .pure
  · obtain _ | _ | id | _ := body.customerId
    · exact .pure
    · trivial
    · exact Reading.pure.bind fun _ => Reading.bind (Reading.findFirst.bind fun _ => .throwIf) fun _ => .pure
    · trivial

/-- The ranges are kept, and every failure is the client's, exactly unless the body is fatal. -/
theorem createOrder_inRange (consistent : Consistent moment) (valid : body.Valid) :
    InRange moment tenantId userId body options ↔ ¬ Fatal moment.database tenantId userId options body := by
  have atomic : (createOrderBody tenantId userId body options).Unharmed moment := createOrderBody_atomic moment
  rw [← breaks_createOrderBody consistent valid, InRange]
  rw [Unharmed] at atomic
  cases evaluated : (createOrderBody tenantId userId body options).evaluate none moment with
  | mk result rest =>
    obtain ⟨after, later⟩ := rest
    rw [evaluated] at atomic
    cases result with
    | error failure =>
      constructor
      · rintro ⟨client, _⟩ ⟨_, same, server⟩
        rw [evaluated] at same
        cases same
        exact server client
      · intro unbroken
        refine ⟨?_, atomic failure rfl⟩
        by_contra server
        exact unbroken ⟨failure, by rw [evaluated], server⟩
    | ok summary =>
      have succeeds : (createOrderBody tenantId userId body options).Succeeds none moment fun value _ _ => value = summary := by
        rw [Succeeds, evaluated]
      refine iff_of_true ?_ succeeds.unbroken
      obtain ⟨dto, reads⟩ := reads_createOrderBody succeeds
      rw [createOrderBody_eq reads] at succeeds
      obtain ⟨lines, cartId, currency, found, _, _, asked, computed, rfl⟩ :=
        computes_createOrder consistent (reads.valid valid) succeeds
      exact ⟨dto, lines, cartId, currency, reads, asked, computed⟩

/-- The demo shop with the highest price of its variant, and 1025 units of it. -/
private def luxury : Moment commerce :=
  ⟨Shop.demo.database.applyAll [.put .price ⟨3, 0, 1, "USD", 9007199254740991⟩, .put .inventory ⟨11, 0, 1, none, 1025⟩], 20, 0⟩

private def units (quantity : Int) : CreateOrderBody := { items := some (some [.line 1 quantity]) }

private theorem luxury_consistent : Consistent luxury := by
  refine ⟨fun m => ?_, ?_, ?_⟩
  · cases m <;> decide +kernel
  · exact fun stamp _ => rfl
  · exact fun stamp _ => rfl

private theorem units_valid {quantity : Int} (positive : 1 ≤ quantity) (most : quantity ≤ 1000000) : (units quantity).Valid := by
  intro variantId other member
  cases List.mem_singleton.mp member
  exact ⟨positive, most⟩

private theorem not_inRange {error : DatabaseError}
    (refused : ((createOrderBody tenantId userId body options).evaluate none moment).1 = .error (.database error)) :
    ¬ InRange moment tenantId userId body options := by
  rw [InRange]
  generalize (createOrderBody tenantId userId body options).evaluate none moment = outcome at refused
  obtain ⟨result, after, later⟩ := outcome
  cases refused
  exact fun within => within.1

/-- The product of a valid quantity and a valid price is refused by the database, and so
are a customer that is null and a variant that it cannot name. -/
theorem createOrder_out_of_range : Consistent luxury ∧ (units 1025).Valid ∧
    (∀ row ∈ (luxury.database.table .price).rows, ∃ put : ProductVariantService.PutPriceDto,
      put.currency = row.currency ∧ put.amountMinor = row.amountMinor) ∧
    ((createOrderBody 0 7 (units 1025) {}).evaluate none luxury).1 = .error (.database .checkViolation) ∧
    ¬ InRange luxury 0 7 (units 1025) {} ∧ ¬ InRange luxury 0 7 { units 1 with customerId := some none } {} ∧
    ¬ InRange luxury 0 7 { items := some (some [.line .refused 1]) } {} := by
  have refused : ((createOrderBody 0 7 (units 1025) {}).evaluate none luxury).1 = .error (.database .checkViolation) := by
    decide +kernel
  refine ⟨luxury_consistent, units_valid (by decide) (by decide), fun row member => ?_, refused, not_inRange refused, ?_, ?_⟩
  · have rows : (luxury.database.table .price).rows = [⟨3, 0, 1, "USD", 9007199254740991⟩] := by decide +kernel
    rw [rows] at member
    cases List.mem_singleton.mp member
    exact ⟨⟨"USD", 9007199254740991, by decide, by decide, by decide⟩, rfl, rfl⟩
  · exact @not_inRange _ _ _ _ _ .validation (by decide +kernel)
  · exact @not_inRange _ _ _ _ _ .unknownRequest (by decide +kernel)

private theorem single_small {dto : CreateOrderDto} (reads : (units 1).Reads dto) : ¬ Oversized luxury.database 0 7 dto {} := by
  rintro ⟨lines, cartId, asked, _, currency, quoted, overflows⟩
  have items : dto.items.getD [] = [⟨1, 1⟩] := by
    have read : [OrderItemBody.line 1 1] = (dto.items.getD []).map OrderItemInputDto.body := reads.items
    have known := mapM_known.mpr read
    exact (Option.some.inj known).symm
  have listed : lines = [⟨1, 1⟩] := by
    cases asked with
    | items given => rwa [given] at items
    | cart none =>
      rw [none] at items
      cases items
  subst listed
  have same : currency = "USD" := (Option.some.inj quoted.first).symm
  subst same
  cases overflows with
  | quantity shape _ large =>
    have single : (2147483647 : Int) < 1 := by
      cases List.mem_singleton.mp (shape ▸ List.mem_append_right _ List.mem_cons_self : _ ∈ [((1 : Id), (1 : Int))])
      exact large
    exact absurd single (by decide)
  | subtotal _ large =>
    have small : ¬ 9223372036854775807 < (basketWith 0 7 {} {} [⟨1, 1⟩]).subtotal luxury.database "USD" := by decide +kernel
    exact small large

/-- Nothing rejects the order of all units before its subtotal is stored. -/
private theorem all_oversized : Oversized luxury.database 0 7 { items := some [⟨1, 1025⟩] } {} := by
  refine ⟨_, _, .items rfl, nofun, "USD", ⟨?_, by decide +kernel, by decide +kernel, by decide⟩, .subtotal ?_ (by decide +kernel)⟩
  · intro line member
    cases List.mem_singleton.mp member
    exact ⟨_, rfl, rfl, rfl⟩
  · intro line member
    cases List.mem_singleton.mp member
    exact ⟨_, rfl, rfl, by decide⟩

/-- All units are too many, and one unit is not. -/
theorem createOrder_inRange_luxury : ¬ InRange luxury 0 7 (units 1025) {} ∧ InRange luxury 0 7 (units 1) {} := by
  constructor
  · rw [createOrder_inRange luxury_consistent (units_valid (by decide) (by decide)), not_not]
    exact .oversized ⟨rfl, rfl, rfl⟩ all_oversized
  · rw [createOrder_inRange luxury_consistent (units_valid (by decide) (by decide))]
    intro fatal
    cases fatal with
    | null listed => exact absurd listed (by decide)
    | customer _ unknown => exact absurd unknown (by decide)
    | variant gathered _ listed unknown =>
      cases gathered with
      | items =>
        cases List.mem_singleton.mp listed
        cases unknown
      | cart unnamed => cases unnamed
    | oversized reads oversized => exact single_small reads oversized

end BusinessPlatform
