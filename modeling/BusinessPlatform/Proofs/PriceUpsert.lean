import BusinessPlatform.Engine.Faults
import BusinessPlatform.Engine.Indexes
import BusinessPlatform.Engine.Progress
import BusinessPlatform.Engine.Sequential
import BusinessPlatform.ProductVariantService
import BusinessPlatform.Proofs.SystemSafety

/-! Any number of calls that set prices of one variant. None fails, each pair of
variant and currency keeps one row, and the row has the amount that was committed last. -/

namespace BusinessPlatform.ProductVariantService
open Engine

/-- The prices of one pair. -/
def currentPrices (db : Db) (variantId : Id) (currency : String) : List Price :=
  (db.table .price).rows.filter fun row => row.variantId = variantId && row.currency = currency

/-- A variant with some prices. The table obeys its unique index, and a price has the
tenant of its variant. -/
structure PricedVariant where
  database : Db
  stamp : Nat
  clock : Nat
  tenantId : Id
  variantId : Id
  variant : ∃ row, database.get .productVariant variantId = some row ∧ row.tenantId = tenantId
  unique : database.Unique (S := commerce) .price
  owned : ∀ row ∈ (database.table .price).rows, row.variantId = variantId → row.tenantId = tenantId
  drawn : ∀ row ∈ (database.table .price).rows, row.id < stamp

abbrev PriceState (ι : Type) : Type 1 := State commerce HttpException PriceSummary ι

variable {ι : Type}

/-- Any number of calls that set a price of the variant. -/
def PricedVariant.system (priced : PricedVariant) (dtos : ι → PutPriceDto) : PriceState ι :=
  State.opened priced.database priced.stamp priced.clock fun i => putPrice priced.tenantId priced.variantId (dtos i)

/-- Others write no prices, and erase no variant and give none to another tenant. -/
def Elsewhere (db : Db) (writes : Writes) : Prop :=
  (∀ write ∈ writes, write.model ≠ .price) ∧ erasesOf (S := commerce) .productVariant writes = [] ∧
    ∀ row ∈ putsOf (S := commerce) .productVariant writes, ∀ old, db.get .productVariant row.id = some old →
      row.tenantId = old.tenantId

/-- The statements of the calls in any order, among such writes of others. -/
def PricesKept (state : PriceState ι) : Action commerce ι → Prop
  | .run .. | .wait _ => True
  | .external writes => Elsewhere state.world.database writes
  | .fail _ | .stop _ => False

def storesPrice (variantId : Id) (currency : String) : Write commerce → Bool
  | .put .price row => row.variantId = variantId && row.currency = currency
  | _ => false

/-- Who committed last of those that stored a price of the pair. -/
def lastWriter (variantId : Id) (currency : String) (trace : List (Event commerce ι)) : Option ι :=
  (trace.find? fun event => event.writes.any (storesPrice variantId currency)).bind (·.author)

/-- The price that a call stores, and the price that it replaces. -/
structure Sets (tenantId variantId : Id) (dto : PutPriceDto) (world : SystemWorld ι) (row : Price) : Prop where
  tenant : row.tenantId = tenantId
  variant : row.variantId = variantId
  currency : row.currency = dto.currency
  amount : row.amountMinor = dto.amountMinor
  replaces : ∀ other ∈ (world.database.table .price).rows,
    other.variantId = variantId ∧ other.currency = dto.currency ↔ other.id = row.id
  drawn : row.id ≤ world.trace.length

/-- What holds of the prices all the time. -/
structure Kept (tenantId variantId : Id) (world : SystemWorld ι) : Prop where
  variant : ∃ row, world.database.get .productVariant variantId = some row ∧ row.tenantId = tenantId
  unique : world.database.Unique (S := commerce) .price
  owned : ∀ row ∈ (world.database.table .price).rows, row.variantId = variantId → row.tenantId = tenantId
  drawn : ∀ row ∈ (world.database.table .price).rows, row.id < world.trace.length

variable {tenantId variantId : Id} {dto : PutPriceDto} {world after : SystemWorld ι} {row : Price}

private theorem prices_put {label : Label commerce ι} (other : Price) :
    other ∈ ((world.record label [.put .price row]).database.table .price).rows ↔
      other = row ∨ other ∈ (world.database.table .price).rows ∧ other.id ≠ row.id := by
  rw [World.record_database, Database.applyAll_cons, Database.applyAll_nil, Write.apply_put_same]
  exact Table.mem_put

namespace Kept

private theorem elsewhere (kept : Kept tenantId variantId world) {label : Label commerce ι} {writes : Writes}
    (other : Elsewhere world.database writes) : Kept tenantId variantId (world.record label writes) := by
  obtain ⟨prices, erased, stored⟩ := other
  have table : (world.database.applyAll writes).table .price = world.database.table .price :=
    Database.applyAll_other _ prices
  refine ⟨?_, kept.unique.untouched prices, fun row member => ?_, fun row member => ?_⟩
  · obtain ⟨row, found, tenant⟩ := kept.variant
    rcases world.database.get_cases erased variantId with same | ⟨new, member, key, now⟩
    · exact ⟨row, same.trans found, tenant⟩
    · refine ⟨new, now, (stored new member row ?_).trans tenant⟩
      rw [show new.id = variantId from key]
      exact found
  · rw [World.record_database, table] at member
    exact kept.owned row member
  · rw [World.record_database, table] at member
    exact (kept.drawn row member).trans (Nat.lt_succ_self _)

private theorem sets (kept : Kept tenantId variantId world) {label : Label commerce ι}
    (sets : Sets tenantId variantId dto world row) :
    Kept tenantId variantId (world.record label [.put .price row]) := by
  refine ⟨?_, fun first one second two entry held shared => ?_, fun other member variant => ?_, fun other member => ?_⟩
  · obtain ⟨variant, found, tenant⟩ := kept.variant
    refine ⟨variant, ?_, tenant⟩
    exact (Database.get_unwritten (S := commerce) (m := .productVariant) _ (by simp) (by simp [putsOf]) variantId).trans found
  · have apart (other : Price) (before : other ∈ (world.database.table .price).rows) (different : other.id ≠ row.id)
        (entry : Model.Index) (held : entry ∈ Model.indexes (m := .price) other) : entry ∉ Model.indexes (m := .price) row := by
      intro shared
      simp only [Model.indexes, List.mem_singleton] at held shared
      obtain ⟨variant, currency⟩ := Model.Index.price.inj (held.symm.trans shared)
      exact different ((sets.replaces other before).mp ⟨variant.trans sets.variant, currency.trans sets.currency⟩)
    rcases (prices_put first).mp one with rfl | ⟨before, different⟩
    · rcases (prices_put second).mp two with rfl | ⟨also, different⟩
      · rfl
      · exact absurd held (apart second also different entry shared)
    · rcases (prices_put second).mp two with rfl | ⟨also, _⟩
      · exact absurd shared (apart first before different entry held)
      · exact kept.unique first before second also entry held shared
  · rcases (prices_put other).mp member with rfl | ⟨before, _⟩
    · exact sets.tenant
    · exact kept.owned other before variant
  · rcases (prices_put other).mp member with rfl | ⟨before, _⟩
    · exact Nat.lt_succ_of_le sets.drawn
    · exact (kept.drawn other before).trans (Nat.lt_succ_self _)

end Kept

private theorem fits (dto : PutPriceDto) : Model.fitsBigint dto.amountMinor = true := by
  have most : dto.amountMinor ≤ 9007199254740991 := dto.most
  simp only [Model.fitsBigint, Bool.and_eq_true, decide_eq_true_eq]
  exact ⟨dto.least, by omega⟩

private theorem pairWhere_iff {currency : String} : pairWhere tenantId variantId currency row = true ↔
    row.variantId = variantId ∧ row.currency = currency ∧ row.tenantId = tenantId := by
  simp only [pairWhere, Bool.and_eq_true, decide_eq_true_eq, and_assoc]

/-- Somebody has stored a price of the pair. -/
def Priced (db : Db) (variantId : Id) (currency : String) : Prop :=
  ∃ row ∈ (db.table .price).rows, row.variantId = variantId ∧ row.currency = currency

private theorem Kept.matched (kept : Kept tenantId variantId world) {currency : String} {row : Price}
    (member : row ∈ (world.database.table .price).rows) :
    pairWhere tenantId variantId currency row = true ↔ row.variantId = variantId ∧ row.currency = currency := by
  rw [pairWhere_iff]
  exact ⟨fun ⟨variant, currency, _⟩ => ⟨variant, currency⟩,
    fun ⟨variant, currency⟩ => ⟨variant, currency, kept.owned row member variant⟩⟩

private theorem Kept.single (kept : Kept tenantId variantId world) {first second : Price}
    (one : first ∈ (world.database.table .price).rows) (two : second ∈ (world.database.table .price).rows)
    (variant : first.variantId = second.variantId) (currency : first.currency = second.currency) : first = second := by
  refine kept.unique first one second two (.price first.variantId first.currency) (List.mem_singleton_self _) ?_
  rw [variant, currency]
  exact List.mem_singleton_self _

private theorem Kept.parent (kept : Kept tenantId variantId world) (row : Price) (same : row.variantId = variantId) :
    ∀ parent ∈ Model.parents (m := .price) row, (world.database.get parent.1 parent.2).isSome = true := by
  intro parent member
  cases List.mem_singleton.mp member
  obtain ⟨variant, found, _⟩ := kept.variant
  rw [← same] at found
  exact Option.isSome_iff_exists.mpr ⟨variant, found⟩

private theorem Kept.replaces (kept : Kept tenantId variantId world) (member : row ∈ (world.database.table .price).rows)
    (variant : row.variantId = variantId) (currency : row.currency = dto.currency) :
    Sets tenantId variantId dto world ((setAmount dto.amountMinor).apply row) := by
  refine ⟨kept.owned row member variant, variant, currency, rfl, fun other inside => ⟨?_, ?_⟩, (kept.drawn row member).le⟩
  · rintro ⟨sameVariant, sameCurrency⟩
    have only : other = row := kept.single inside member (sameVariant.trans variant.symm) (sameCurrency.trans currency.symm)
    rw [only]
    rfl
  · intro same
    obtain rfl := (world.database.table .price).key_unique inside member same
    exact ⟨variant, currency⟩

private theorem Kept.creates (free : ¬ Priced world.database variantId dto.currency)
    (fresh : world.database.get .price world.trace.length = none) :
    Sets tenantId variantId dto world ⟨world.trace.length, tenantId, variantId, dto.currency, dto.amountMinor⟩ := by
  refine ⟨rfl, rfl, rfl, rfl, fun other inside => ⟨?_, fun same => ?_⟩, le_rfl⟩
  · exact fun pair => absurd ⟨other, inside, pair⟩ free
  · exact absurd same (Table.find_eq_none.mp fresh other inside)

private theorem unpriced (created : Created (S := commerce) (m := .price) world.database row) :
    ¬ Priced world.database row.variantId row.currency := by
  rintro ⟨other, member, variant, currency⟩
  have key : other.id = row.id := by
    refine clash_none (S := commerce) created.free (List.mem_singleton_self _) member (List.mem_singleton.mpr ?_)
    rw [variant, currency]
  exact Table.find_eq_none.mp created.fresh other member key

private theorem Kept.admits (kept : Kept tenantId variantId world) (sets : Sets tenantId variantId dto world row) :
    clash (world.database.table .price) row = none ∧ Model.check (m := .price) row = true ∧
      excluded (world.database.table .price) row = false ∧
      ∀ parent ∈ Model.parents (m := .price) row, (world.database.get parent.1 parent.2).isSome = true := by
  refine ⟨List.find?_eq_none.mpr fun entry own => ?_, ?_, List.any_eq_false.mpr (by simp [Model.excludes]), kept.parent row sets.variant⟩
  · simp only [Bool.not_eq_true, List.any_eq_false, Bool.and_eq_true, decide_eq_true_eq, not_and]
    intro other inside different held
    rw [List.mem_singleton.mp own] at held
    obtain ⟨variant, currency⟩ := Model.Index.price.inj (List.mem_singleton.mp held)
    exact different ((sets.replaces other inside).mp ⟨variant.symm.trans sets.variant, currency.symm.trans sets.currency⟩)
  · change Model.fitsBigint row.amountMinor = true
    rw [sets.amount]
    exact fits dto

variable [DecidableEq ι]

/-- What the calls and others may commit: a call sets its price, once. -/
def lawfulPrices (tenantId variantId : Id) (dtos : ι → PutPriceDto) : Guarantee commerce ι
  | some i, world, writes => world.own i = [] ∧ ∃ row, writes = [.put .price row] ∧ Sets tenantId variantId (dtos i) world row
  | none, world, writes => Elsewhere world.database writes

variable {dtos : ι → PutPriceDto} {i : ι}

theorem Kept.later (kept : Kept tenantId variantId world) (grows : Grows (lawfulPrices tenantId variantId dtos) world after) :
    Kept tenantId variantId after := by
  refine Grows.invariant (Kept tenantId variantId) grows kept (fun world label writes _ kept lawful => ?_)
    (fun world label kept => kept.elsewhere ⟨nofun, rfl, nofun⟩) fun world elapsed kept => ?_
  · cases author : label.author with
    | none =>
      rw [author] at lawful
      exact kept.elsewhere lawful
    | some i =>
      rw [author] at lawful
      obtain ⟨_, row, rfl, sets⟩ := lawful
      exact kept.sets sets
  · exact ⟨kept.variant, kept.unique, kept.owned, kept.drawn⟩

/-- A call ends with its price stored, unless a statement fails or its process stops. -/
def Stored {α : Type} (i : ι) (shown : α → Prop) : Post commerce HttpException α ι := fun result session world =>
  match result with
  | .ok value => session = none ∧ world.own i ≠ [] ∧ shown value
  | .error failure => failure.fault = true

/-- The price of the pair with the amount of the call. -/
def Shown (variantId : Id) (dto : PutPriceDto) (price : Price) : Prop :=
  price.variantId = variantId ∧ price.currency = dto.currency ∧ price.amountMinor = dto.amountMinor

private theorem stalls {α : Type} {shown : α → Prop} {rely : Guarantee commerce ι} : Stalls rely i (Stored i shown) world :=
  fun _ _ => ⟨rfl, rfl⟩

private theorem keepsPrices : Keeps (lawfulPrices tenantId variantId dtos) .price fun old new =>
    (new.variantId, new.currency) = (old.variantId, old.currency) := by
  intro author world writes lawful
  cases author with
  | none => exact ⟨erasesOf_other lawful.1, by simp [putsOf_other lawful.1]⟩
  | some i =>
    obtain ⟨_, row, rfl, sets⟩ := lawful
    refine ⟨rfl, fun other member old found => ?_⟩
    cases List.mem_singleton.mp member
    obtain ⟨member, key⟩ := Table.find_eq_some.mp found
    obtain ⟨variant, currency⟩ := (sets.replaces old member).mpr key
    rw [sets.variant, sets.currency, variant, currency]

private theorem Priced.later {currency : String} (there : Priced world.database variantId currency)
    (grows : Grows (lawfulPrices tenantId variantId dtos) world after) : Priced after.database variantId currency := by
  obtain ⟨row, member, variant, currency⟩ := there
  obtain ⟨new, now, same⟩ := grows.field keepsPrices (Table.find_eq_some.mpr ⟨member, rfl⟩)
    (fun row => (row.variantId, row.currency)) fun _ _ => id
  obtain ⟨sameVariant, sameCurrency⟩ := Prod.mk.inj same
  exact ⟨new, (Table.find_eq_some.mp now).1, sameVariant.trans variant, sameCurrency.trans currency⟩

/-- The update finds the price of the pair, and nothing refuses it. -/
private theorem updatePrice_safe (own : world.own i = []) (kept : Kept tenantId variantId world)
    (there : Priced world.database variantId (dtos i).currency) :
    Safe (lawfulPrices tenantId variantId dtos (some i)) (lawfulPrices tenantId variantId dtos) i
      (Stored i (Shown variantId (dtos i))) (updatePrice tenantId variantId (dtos i)) none world := by
  rw [← bind_pure (updatePrice ..)]
  refine Safe.attempt stalls (fun w₁ order error l₁ executed => ?_) fun w₁ order outcome l₁ executed => ?_
  · have now := kept.later l₁.grows
    rcases Query.exec_update_error executed with ⟨missed, _⟩ | ⟨row, member, matched, refused⟩
    · obtain ⟨row, member, pair⟩ := there.later l₁.grows
      cases (missed row member).symm.trans ((now.matched member).mpr pair)
    · obtain ⟨variant, currency, _⟩ := pairWhere_iff.mp matched
      have sets := now.replaces member variant currency
      obtain ⟨free, checked, apart, _⟩ := now.admits sets
      have stored : Kept tenantId variantId (w₁.record {} [.put .price ((setAmount (dtos i).amountMinor).apply row)]) :=
        now.sets sets
      have parents := stored.parent ((setAmount (dtos i).amountMinor).apply row) variant
      cases (constrain_put_iff.mpr ⟨free, checked, apart, parents⟩).symm.trans refused
  · obtain ⟨row, member, matched, rfl, _⟩ := Query.exec_update executed
    obtain ⟨variant, currency, _⟩ := pairWhere_iff.mp matched
    have sets := (kept.later l₁.grows).replaces member variant currency
    refine ⟨.inr ⟨(Later.idle l₁).own.trans own, _, rfl, sets⟩, Safe.done fun final later => ⟨rfl, ?_, variant, currency, rfl⟩⟩
    rw [(Later.idle later).own, World.own_record_same rfl rfl (by simp [puts])]
    simp

private theorem updatePrice_caught (own : world.own i = []) (kept : Kept tenantId variantId world)
    (there : Priced world.database variantId (dtos i).currency) :
    Safe (lawfulPrices tenantId variantId dtos (some i)) (lawfulPrices tenantId variantId dtos) i
      (Stored i (Shown variantId (dtos i)))
      ((updatePrice tenantId variantId (dtos i)).tryCatch fun failure =>
        if isP2002 failure then updatePrice tenantId variantId (dtos i) else .done (.error failure)) none world := by
  refine Safe.tryCatch rfl (Safe.weaken (updatePrice_safe own kept there) fun result session w₁ stored => ?_)
  cases result with
  | ok price => exact stored
  | error failure =>
    have fault : failure.fault = true := stored
    have unique : isP2002 failure = false := by
      rcases failure with ⟨_ | _⟩ | _ | _ <;> first | rfl | cases fault
    simp only [unique, if_neg Bool.false_ne_true]
    exact Safe.done fun _ _ => fault

private theorem createPrice_safe (own : world.own i = []) (kept : Kept tenantId variantId world) :
    Safe (lawfulPrices tenantId variantId dtos (some i)) (lawfulPrices tenantId variantId dtos) i
      (Stored i (Shown variantId (dtos i)))
      ((createPrice tenantId variantId (dtos i)).tryCatch fun failure =>
        if isP2002 failure then updatePrice tenantId variantId (dtos i) else .done (.error failure)) none world := by
  refine Safe.tryCatch rfl ?_
  rw [← bind_pure (createPrice ..)]
  refine Safe.attempt (fun _ _ => ⟨fun _ _ => rfl, fun _ _ => rfl⟩) (fun w₁ order error l₁ executed => ?_)
    fun w₁ order outcome l₁ executed => ?_
  · have now := kept.later l₁.grows
    have fresh : w₁.database.get .price w₁.trace.length = none :=
      Table.find_eq_none.mpr fun row member same => (now.drawn row member).ne same
    rcases Query.exec_create_error executed with ⟨present, _⟩ | ⟨_, refused⟩
    · cases fresh.symm.trans (Option.isSome_iff_exists.mp present).choose_spec
    · by_cases free : Priced w₁.database variantId (dtos i).currency
      · refine Safe.done fun final later => ?_
        have grown : Grows (lawfulPrices tenantId variantId dtos) w₁ final := .head (.empty _) later.grows
        rcases constrain_error refused with ⟨_, _, rfl⟩ | ⟨unfit, _⟩ | ⟨overlapping, _⟩ | ⟨parent, member, absent, _⟩
        · refine updatePrice_safe ?_ (now.later grown) (free.later grown)
          rw [(Later.idle later).own, World.own_record_empty, (Later.idle l₁).own, own]
        · cases unfit.symm.trans (fits (dtos i))
        · simp [excluded, Model.excludes] at overlapping
        · have present := now.parent ⟨w₁.trace.length, tenantId, variantId, (dtos i).currency, (dtos i).amountMinor⟩ rfl parent member
          rw [absent] at present
          cases present
      · cases (constrain_iff.mpr (now.admits (Kept.creates free fresh))).symm.trans refused
  · obtain ⟨rfl, created⟩ := Query.exec_create executed
    have sets : Sets tenantId variantId (dtos i) w₁ _ := Kept.creates (unpriced created) created.fresh
    refine ⟨.inr ⟨(Later.idle l₁).own.trans own, _, rfl, sets⟩, Safe.done fun final later => ⟨rfl, ?_, rfl, rfl, rfl⟩⟩
    rw [(Later.idle later).own, World.own_record_same rfl rfl (by simp)]
    simp

private theorem putPrice_safe (own : world.own i = []) (kept : Kept tenantId variantId world) :
    Safe (lawfulPrices tenantId variantId dtos (some i)) (lawfulPrices tenantId variantId dtos) i
      (Stored i fun summary : PriceSummary => summary.variantId = variantId ∧ summary.currency = (dtos i).currency ∧
        summary.amountMinor = toString (dtos i).amountMinor) (putPrice tenantId variantId (dtos i)) none world := by
  refine Safe.lookup stalls fun w₁ rows l₁ listed => ?_
  have kept₁ := kept.later l₁.grows
  cases head : rows.head? with
  | none =>
    obtain ⟨row, found, tenant⟩ := kept₁.variant
    obtain ⟨member, key⟩ := Table.find_eq_some.mp found
    have absent := listed_none listed head row member
    replace key : row.id = variantId := key
    simp [key, tenant] at absent
  | some variant =>
    refine Safe.lookup stalls fun w₂ prices l₂ found => ?_
    have kept₂ : Kept tenantId variantId (w₂.reads i .price prices false) :=
      (kept₁.later (.head (.empty _) l₂.grows)).elsewhere ⟨by simp, rfl, by simp⟩
    have own₂ : (w₂.reads i .price prices false).own i = [] := by
      rw [World.own_record_empty, (Later.idle l₂).own, World.own_record_empty, (Later.idle l₁).own, own]
    refine Safe.bind (Safe.weaken (?_ : Safe _ _ i (Stored i (Shown variantId (dtos i))) _ none _) fun result session w₃ stored => ?_)
    · cases existing : prices.head? with
      | none => exact createPrice_safe own₂ kept₂
      | some price =>
        obtain ⟨member, matched⟩ := listed_head found existing
        obtain ⟨same, currency, _⟩ := pairWhere_iff.mp matched
        exact updatePrice_caught own₂ kept₂ ⟨price, member, same, currency⟩
    · cases result with
      | error failure => exact stored
      | ok price =>
        obtain ⟨rfl, committed, same, currency, amount⟩ := stored
        refine Safe.done fun final later => ⟨rfl, ?_, same, currency, congrArg toString amount⟩
        rw [(Later.idle later).own]
        exact committed

/-- Each pair has the price that was committed last, and otherwise what it had. -/
structure PricedVariant.Current (priced : PricedVariant) (dtos : ι → PutPriceDto) (world : SystemWorld ι) : Prop where
  written : ∀ currency i, lastWriter priced.variantId currency world.trace = some i → (dtos i).currency = currency ∧
    ∃ row, currentPrices world.database priced.variantId currency = [row] ∧ row.amountMinor = (dtos i).amountMinor
  others : ∀ variantId currency, (variantId = priced.variantId → lastWriter variantId currency world.trace = none) →
    currentPrices world.database variantId currency = currentPrices priced.database variantId currency
  committed : ∀ i, world.own i ≠ [] → lastWriter priced.variantId (dtos i).currency world.trace ≠ none

omit [DecidableEq ι] in
private theorem lastWriter_record {currency : String} {label : Label commerce ι} {writes : Writes} :
    lastWriter variantId currency (world.record label writes).trace =
      if writes.any (storesPrice variantId currency) then label.author else lastWriter variantId currency world.trace := by
  simp only [lastWriter, World.record_trace, List.find?_cons]
  cases writes.any (storesPrice variantId currency) <;> rfl

private theorem storesPrice_put {currency : String} :
    storesPrice variantId currency (.put .price row) = true ↔ row.variantId = variantId ∧ row.currency = currency := by
  simp [storesPrice]

namespace PricedVariant.Current
variable {priced : PricedVariant}

private theorem elsewhere (current : priced.Current dtos world) {label : Label commerce ι} {writes : Writes}
    (other : ∀ write ∈ writes, write.model ≠ .price) (unowned : ∀ i, (world.record label writes).own i = world.own i) :
    priced.Current dtos (world.record label writes) := by
  have table (variantId : Id) (currency : String) :
      currentPrices (world.record label writes).database variantId currency = currentPrices world.database variantId currency :=
    congrArg (fun table : Table (commerce.key (m := .price)) => table.rows.filter _) (Database.applyAll_other _ other)
  have last (variantId : Id) (currency : String) :
      lastWriter variantId currency (world.record label writes).trace = lastWriter variantId currency world.trace := by
    rw [lastWriter_record, if_neg]
    rw [List.any_eq_true]
    rintro ⟨write, member, stores⟩
    cases write with
    | put m row => cases m <;> first | exact other _ member rfl | cases stores
    | erase m key => cases stores
  refine ⟨fun currency i => ?_, fun variantId currency => ?_, fun i => ?_⟩
  · rw [last, table]
    exact current.written currency i
  · rw [last, table]
    exact current.others variantId currency
  · rw [last, unowned]
    exact current.committed i

private theorem sets (current : priced.Current dtos world) {label : Label commerce ι} (author : label.author = some i)
    (sets : Sets priced.tenantId priced.variantId (dtos i) world row) :
    priced.Current dtos (world.record label [.put .price row]) := by
  have stored : row ∈ ((world.record label [.put .price row]).database.table .price).rows := (prices_put row).mpr (.inl rfl)
  have own : currentPrices (world.record label [.put .price row]).database priced.variantId (dtos i).currency = [row] := by
    refine Table.filter_only _ stored (by simp [sets.variant, sets.currency]) fun other member matched => ?_
    simp only [Bool.and_eq_true, decide_eq_true_eq] at matched
    rcases (prices_put other).mp member with rfl | ⟨before, _⟩
    · rfl
    · exact (sets.replaces other before).mp matched
  have apart (variantId : Id) (currency : String) (different : ¬ (row.variantId = variantId ∧ row.currency = currency)) :
      currentPrices (world.record label [.put .price row]).database variantId currency =
        currentPrices world.database variantId currency := by
    rw [currentPrices, World.record_database, Database.applyAll_cons, Database.applyAll_nil, Write.apply_put_same]
    refine Table.filter_put (by simpa using different) fun old found => ?_
    obtain ⟨member, key⟩ := Table.find_eq_some.mp found
    obtain ⟨variant, same⟩ := (sets.replaces old member).mpr key
    rw [sets.variant, sets.currency, ← variant, ← same] at different
    simpa using different
  have last (variantId : Id) (currency : String) : lastWriter variantId currency (world.record label [.put .price row]).trace =
      if row.variantId = variantId ∧ row.currency = currency then some i else lastWriter variantId currency world.trace := by
    rw [lastWriter_record, author]
    exact if_congr (by simp [storesPrice_put]) rfl rfl
  refine ⟨fun currency j written => ?_, fun variantId currency unwritten => ?_, fun j committed => ?_⟩
  · rw [last] at written
    by_cases same : row.variantId = priced.variantId ∧ row.currency = currency
    · rw [if_pos same] at written
      cases written
      obtain rfl : (dtos i).currency = currency := sets.currency.symm.trans same.2
      exact ⟨rfl, row, own, sets.amount⟩
    · rw [if_neg same] at written
      rw [apart _ _ same]
      exact current.written currency j written
  · by_cases same : row.variantId = variantId ∧ row.currency = currency
    · obtain rfl := same.1
      have none := unwritten sets.variant
      rw [last, if_pos same] at none
      cases none
    · rw [apart _ _ same]
      refine current.others variantId currency fun own => ?_
      have none := unwritten own
      rwa [last, if_neg same] at none
  · rw [last]
    by_cases same : row.variantId = priced.variantId ∧ row.currency = (dtos j).currency
    · rw [if_pos same]
      exact nofun
    · rw [if_neg same]
      refine current.committed j fun none => committed ?_
      rw [World.own_record_other j world, none]
      rw [author]
      rintro equal
      cases equal
      exact same ⟨sets.variant, sets.currency⟩

private theorem grown (grows : Grows (lawfulPrices priced.tenantId priced.variantId dtos)
    (World.opened priced.database priced.stamp priced.clock) world) : priced.Current dtos world := by
  refine Grows.invariant (priced.Current dtos) grows ?_ (fun world label writes _ current lawful => ?_)
    (fun world label current => current.elsewhere (by simp) (by simp)) fun world elapsed current => ?_
  · have none (variantId : Id) (currency : String) :
        lastWriter variantId currency (World.opened (ι := ι) priced.database priced.stamp priced.clock).trace = none := by
      rw [lastWriter, List.find?_eq_none.mpr, Option.bind_none]
      intro event member
      rw [List.eq_of_mem_replicate member]
      simp
    refine ⟨fun currency i written => ?_, fun _ _ _ => rfl, fun i committed => absurd (World.own_opened ..) committed⟩
    cases (none priced.variantId currency).symm.trans written
  · cases author : label.author with
    | none =>
      rw [author] at lawful
      exact current.elsewhere lawful.1 fun i => World.own_record_other i world (by simp [author])
    | some i =>
      rw [author] at lawful
      obtain ⟨_, row, rfl, sets⟩ := lawful
      exact current.sets author sets
  · exact ⟨current.written, current.others, current.committed⟩

end PricedVariant.Current

/-- No call waits or fails. One that has ended has stored its price, and each pair has
one row with the amount that was committed last; other pairs have what they had. -/
structure PricedVariant.Upserted (priced : PricedVariant) (dtos : ι → PutPriceDto) (state : PriceState ι) : Prop where
  ends : ∀ i, ∃ count next, state.run (List.replicate count (.run i [])) = some next ∧ next.finished i
  succeeds : ∀ i result, (state.threads i).program = .done result → ∃ summary, result = .ok summary ∧
    summary.variantId = priced.variantId ∧ summary.currency = (dtos i).currency ∧
    summary.amountMinor = toString (dtos i).amountMinor
  stored : ∀ i, state.finished i → lastWriter priced.variantId (dtos i).currency state.world.trace ≠ none
  last : ∀ currency i, lastWriter priced.variantId currency state.world.trace = some i → (dtos i).currency = currency ∧
    ∃ row, currentPrices state.world.database priced.variantId currency = [row] ∧ row.amountMinor = (dtos i).amountMinor
  others : ∀ variantId currency, (variantId = priced.variantId → ∀ i, (dtos i).currency ≠ currency) →
    currentPrices state.world.database variantId currency = currentPrices priced.database variantId currency

private theorem putPrice_faultless (tenantId variantId : Id) (dto : PutPriceDto) :
    (putPrice tenantId variantId dto).Faultless := by
  refine .bind (.findFirst _ _) fun variant => .bind (.orThrow _ _) fun _ => .bind (.findFirst _ _) fun existing =>
    .bind (.tryCatch ?_ fun failure ordinary => ?_) fun _ => .value _
  · split
    · exact .send _
    · exact .send _
  · split
    · exact .send _
    · exact .failed ordinary

private theorem putPrice_single (tenantId variantId : Id) (dto : PutPriceDto) : (putPrice tenantId variantId dto).Single := by
  refine .bind (.findFirst _ _) fun variant => .bind (.orThrow _ _) fun _ => .bind (.findFirst _ _) fun existing =>
    .bind (.tryCatch ?_ fun failure => ?_) fun _ => .done _
  · split
    · exact .query _
    · exact .query _
  · split
    · exact .query _
    · exact .done _

variable {state : PriceState ι}

omit [DecidableEq ι] in
private theorem PricesKept.spares {action : Action commerce ι} (kept : PricesKept state action) (i : ι) : action.spares i := by
  cases action with
  | fail j | stop j => exact kept.elim
  | _ => trivial

/-- Calls that set prices of one variant are upserts, however their statements interleave. -/
theorem prices_upserted (priced : PricedVariant) (dtos : ι → PutPriceDto)
    (reached : State.Reaches PricesKept (priced.system dtos) state) : priced.Upserted dtos state := by
  have kept : Kept priced.tenantId priced.variantId (World.opened (ι := ι) priced.database priced.stamp priced.clock) :=
    ⟨priced.variant, priced.unique, priced.owned, fun row member => by simpa [World.opened] using priced.drawn row member⟩
  obtain ⟨valid, grows⟩ := State.Reaches.valid reached
    (Valid.opened fun i => putPrice_safe (World.own_opened ..) kept) fun _ _ allowed => .inr allowed
  have current := PricedVariant.Current.grown grows
  have succeeds (i : ι) (result : Except (Failure HttpException) PriceSummary)
      (done : (state.threads i).program = .done result) : ∃ summary, result = .ok summary := by
    cases result with
    | ok summary => exact ⟨summary, rfl⟩
    | error failure =>
      have spared := State.Reaches.faultless reached (fun _ _ kept => PricesKept.spares kept i) (putPrice_faultless priced.tenantId priced.variantId (dtos i))
      rw [done] at spared
      cases (spared failure rfl).symm.trans (valid.ended done)
  refine ⟨(State.Unlocked.reached (State.Unlocked.opened fun i => putPrice_single ..) reached).completes,
    fun i result done => ?_, fun i ended => ?_, current.written, fun variantId currency apart => ?_⟩
  · obtain ⟨summary, rfl⟩ := succeeds i result done
    exact ⟨summary, rfl, (valid.ended done).2.2⟩
  · obtain ⟨result, done⟩ := ended
    obtain ⟨summary, rfl⟩ := succeeds i result done
    exact current.committed i (valid.ended done).2.1
  · refine current.others variantId currency fun same => ?_
    subst same
    cases last : lastWriter priced.variantId currency state.world.trace with
    | none => rfl
    | some i => exact absurd (current.written currency i last).1 (apart rfl i)

/-- The variant of the demo shop with its one price. -/
def demoVariant : PricedVariant where
  database := Shop.demo.database
  stamp := 20
  clock := 0
  tenantId := 0
  variantId := 1
  variant := ⟨⟨1, 0, 2, "sku", none, .active⟩, rfl, rfl⟩
  unique := by rw [Database.Unique]; decide
  owned := by decide
  drawn := by decide

/-- Two prices in another currency. -/
def twoPrices : Fin 2 → PutPriceDto :=
  ![⟨"JPY", 5, by decide, by decide, by decide⟩, ⟨"JPY", 7, by decide, by decide, by decide⟩]

/-- Both calls look before either has created the price. The second cannot create it
again and updates it. -/
theorem prices_upserted_race : ∃ state : PriceState (Fin 2), State.Reaches PricesKept (demoVariant.system twoPrices) state ∧
    (∀ i, state.finished i) ∧ ∃ row, currentPrices state.world.database 1 "JPY" = [row] ∧ row.amountMinor = 7 := by
  have executed : ((demoVariant.system twoPrices).run (runs 0 2 ++ runs 1 2 ++ runs 0 1 ++ runs 1 2)).any (fun state =>
      (∀ i, state.finished i) && lastWriter 1 "JPY" state.world.trace = some 1) = true := by decide +kernel
  obtain ⟨state, ran, seen⟩ := State.Reaches.computed executed rfl
  simp only [Bool.and_eq_true, decide_eq_true_eq] at seen
  have reached : State.Reaches PricesKept (demoVariant.system twoPrices) state := ran.weaken fun _ action undisturbed => by
    cases action <;> trivial
  obtain ⟨_, row, single, amount⟩ := (prices_upserted demoVariant twoPrices reached).last "JPY" 1 seen.2
  exact ⟨state, reached, seen.1, row, single, amount⟩

end BusinessPlatform.ProductVariantService
