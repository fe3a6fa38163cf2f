import BusinessPlatform.OrderService

/-! The pricing of an order: its currency and its unit prices, as the prices are listed. -/

namespace BusinessPlatform
open Engine OrderService

/-- The first price listed for a variant in a currency. -/
def listedPrice (prices : List Price) (variantId : Id) (currency : String) : Option Int :=
  (prices.find? fun price => price.variantId = variantId && price.currency = currency).map Price.amountMinor

theorem unitPrices_listed {prices : List Price} {currency : String} {variantIds : List Id}
    {target : Option String} {units : List (Id × Int)}
    (priced : unitPrices prices (some currency) variantIds = .ok (target, units)) :
    target = some currency ∧ ∀ variantId ∈ variantIds, listedPrice prices variantId currency = some (unitPrice units variantId) := by
  induction variantIds generalizing target units with
  | nil =>
    cases priced
    exact ⟨rfl, nofun⟩
  | cons variantId rest ih =>
    simp only [unitPrices] at priced
    split at priced
    next => cases priced
    next first others listed =>
      rw [← listed, List.find?_filter] at priced
      simp only [Option.getD_some] at priced
      split at priced
      next => cases priced
      next price found =>
        split at priced
        next => cases priced
        next last more remaining =>
          cases priced
          obtain ⟨same, listed⟩ := ih remaining
          have here : listedPrice prices variantId currency = some price.amountMinor := by
            simp only [decide_eq_true_eq] at found
            simp only [listedPrice, ← Bool.decide_and, found, Option.map_some]
          refine ⟨same, fun other member => ?_⟩
          by_cases equal : other = variantId
          · simp [equal, here, unitPrice]
          · have inside := (List.mem_cons.mp member).resolve_left equal
            have missed : (other == variantId) = false := by simpa using equal
            rw [unitPrice, List.lookup_cons, missed]
            exact listed other inside

theorem unitPrices_first {prices : List Price} {variantId : Id} {rest : List Id} {target : Option String}
    {units : List (Id × Int)} (priced : unitPrices prices none (variantId :: rest) = .ok (target, units)) :
    ∃ currency, (prices.find? fun price => price.variantId = variantId).map Price.currency = some currency ∧
      unitPrices prices (some currency) (variantId :: rest) = .ok (target, units) := by
  have head : (prices.filter fun price => price.variantId = variantId).head? = _ := List.head?_filter
  simp only [unitPrices] at priced ⊢
  split at priced
  next => cases priced
  next first others listed =>
    rw [listed, List.head?_cons] at head
    refine ⟨first.currency, by rw [← head]; rfl, ?_⟩
    simpa [listed] using priced

theorem unitPrices_iff {prices : List Price} {currency : String} {variantIds : List Id} {target : Option String}
    {units : List (Id × Int)} : unitPrices prices (some currency) variantIds = .ok (target, units) ↔
      (∀ variantId ∈ variantIds, (listedPrice prices variantId currency).isSome = true) ∧ target = some currency ∧
        units = variantIds.map fun variantId => (variantId, (listedPrice prices variantId currency).getD 0) := by
  induction variantIds generalizing target units with
  | nil =>
    constructor
    · intro priced
      cases priced
      exact ⟨nofun, rfl, rfl⟩
    · rintro ⟨_, rfl, rfl⟩
      rfl
  | cons variantId rest ih =>
    have found : ((prices.filter fun price => price.variantId = variantId).find? fun price => price.currency = currency).map
        Price.amountMinor = listedPrice prices variantId currency := by
      simp only [listedPrice, List.find?_filter, Bool.decide_and, Bool.decide_eq_true]
    simp only [unitPrices]
    split
    next none =>
      rw [none] at found
      simp [← found]
    next first others listed =>
      rw [listed] at found
      simp only [Option.getD_some]
      split
      next absent =>
        rw [absent] at found
        simp [← found]
      next price present =>
        rw [present] at found
        rw [List.forall_mem_cons, List.map_cons, ← found]
        cases remaining : unitPrices prices (some currency) rest with
        | error exception =>
          refine ⟨nofun, fun ⟨⟨_, priced⟩, _⟩ => ?_⟩
          cases remaining.symm.trans (ih.mpr ⟨priced, rfl, rfl⟩)
        | ok rated =>
          obtain ⟨last, more⟩ := rated
          obtain ⟨priced, rfl, rfl⟩ := ih.mp remaining
          constructor
          · intro same
            cases same
            exact ⟨⟨rfl, priced⟩, rfl, rfl⟩
          · rintro ⟨_, rfl, rfl⟩
            rfl

theorem unitPrices_first_iff {prices : List Price} {variantId : Id} {rest : List Id} {target : Option String}
    {units : List (Id × Int)} : unitPrices prices none (variantId :: rest) = .ok (target, units) ↔
      ∃ currency, (prices.find? fun price => price.variantId = variantId).map Price.currency = some currency ∧
        unitPrices prices (some currency) (variantId :: rest) = .ok (target, units) := by
  refine ⟨unitPrices_first, fun ⟨currency, named, priced⟩ => ?_⟩
  have head : (prices.filter fun price => price.variantId = variantId).head? = _ := List.head?_filter
  simp only [unitPrices] at priced ⊢
  split at priced
  next => cases priced
  next first others listed =>
    rw [listed, List.head?_cons] at head
    rw [← head] at named
    cases named
    simpa [listed] using priced

/-- The price that a tenant asks for a variant in a currency. -/
def priceIn (db : Db) (tenantId : Id) (currency : String) (variantId : Id) : Option Int :=
  ((db.table .price).rows.find? fun row =>
    row.variantId = variantId && row.tenantId = tenantId && row.currency = currency).map Price.amountMinor

/-- The currency of the first price that is listed for a variant. -/
def firstCurrency (db : Db) (tenantId variantId : Id) : Option String :=
  ((db.table .price).rows.find? fun row => row.variantId = variantId && row.tenantId = tenantId).map Price.currency

def pricesOf (db : Db) (tenantId : Id) (variantIds : List Id) : List Price :=
  (db.table .price).rows.filter fun row => row.variantId ∈ variantIds && row.tenantId = tenantId

variable {db : Db} {tenantId : Id} {variantIds : List Id}

theorem listedPrice_pricesOf {currency : String} {variantId : Id} (member : variantId ∈ variantIds) :
    listedPrice (pricesOf db tenantId variantIds) variantId currency = priceIn db tenantId currency variantId := by
  rw [listedPrice, pricesOf, List.find?_filter, priceIn]
  refine congrArg (fun filter => Option.map _ (List.find? filter _)) (funext fun row => ?_)
  by_cases same : row.variantId = variantId
  · simp [same, member]
  · simp [same]

theorem find_pricesOf {variantId : Id} (member : variantId ∈ variantIds) :
    ((pricesOf db tenantId variantIds).find? fun price => price.variantId = variantId).map Price.currency =
      firstCurrency db tenantId variantId := by
  rw [pricesOf, List.find?_filter, firstCurrency]
  refine congrArg (fun filter => Option.map _ (List.find? filter _)) (funext fun row => ?_)
  by_cases same : row.variantId = variantId
  · simp [same, member]
  · simp [same]

/-- The prices that an order looks up: the first variant's first currency, and every variant in it. -/
theorem unitPrices_pricesOf {variantId : Id} {rest : List Id} {target : Option String} {units : List (Id × Int)} :
    unitPrices (pricesOf db tenantId (variantId :: rest)) none (variantId :: rest) = .ok (target, units) ↔
      ∃ currency, firstCurrency db tenantId variantId = some currency ∧
        (∀ id ∈ variantId :: rest, (priceIn db tenantId currency id).isSome = true) ∧ target = some currency ∧
        units = (variantId :: rest).map fun id => (id, (priceIn db tenantId currency id).getD 0) := by
  rw [unitPrices_first_iff, find_pricesOf List.mem_cons_self]
  refine exists_congr fun currency => and_congr Iff.rfl ?_
  rw [unitPrices_iff]
  refine and_congr (forall₂_congr fun id member => by rw [listedPrice_pricesOf member]) (and_congr Iff.rfl ?_)
  rw [List.map_congr_left fun id member => by rw [listedPrice_pricesOf member]]

end BusinessPlatform
