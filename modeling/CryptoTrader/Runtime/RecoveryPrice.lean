import CryptoTrader.Runtime.RecoveryLookup

/-!
# The price of a recovery fill

What the two exchanges report of an order's executions, what `normalize_order` keeps of it and
the price recovery books. The Binance adapter divides the executed value by the executed quantity.
The OKX adapter leaves `avgPx` out, and recovery falls back on the limit price or on zero
(`normalization_keeps_executions_iff`).
-/

namespace CryptoTrader

/-- What an exchange reports of an order's executions: quantity and value, zero together. -/
structure Executions where
  quantity : ℚ
  value : ℚ
  quantity_nonneg : 0 ≤ quantity
  value_eq_zero_iff : value = 0 ↔ quantity = 0

namespace Executions

variable {r : Executions}

/-- The executed price. -/
def price (r : Executions) : ℚ :=
  r.value / r.quantity

lemma price_ne_zero (h : r.quantity ≠ 0) : r.price ≠ 0 :=
  div_ne_zero (fun hv => h (r.value_eq_zero_iff.mp hv)) h

lemma price_mul (h : r.quantity ≠ 0) : r.price * r.quantity = r.value :=
  div_mul_cancel₀ _ h

end Executions

/-- Every fill recovery makes of the order for a local one is booked at the price, which is
not zero. -/
def BookedAt (x : Order) (price : ℚ) : Prop :=
  ∀ (σ : Type) (env : RecoveryEnv σ) (ids : RecoveryIds) (l : Order) (fill : Fill), 0 ≤ l.filledQuantity →
    recoveryCall env ids l (.ok x) = .ok (.fill fill) → fill.price = price ∧ fill.price ≠ 0

/-- The order has the executed quantity and the executed value, and is booked at their price. -/
structure KeepsExecutions (x : Order) (r : Executions) : Prop where
  quantity : x.filledQuantity = r.quantity
  value : x.avgFillPrice.getD 0 * x.filledQuantity = r.value
  booked : BookedAt x r.price

/-- The normalization does not raise and keeps the executions. -/
def Normalizes (result : Except TradingError Order) (r : Executions) : Prop :=
  ∃ x, result = .ok x ∧ KeepsExecutions x r

lemma fill_of_recoveryCall {σ : Type} {env : RecoveryEnv σ} {ids : RecoveryIds} {l x : Order} {fill : Fill}
    (h : recoveryCall env ids l (.ok x) = .ok (.fill fill)) :
    Lags l x ∧ fill = recoveryFill env.filledText l x ids.tradeId := by
  by_cases hl : Lags l x
  · rw [recoveryCall, if_pos hl] at h
    exact ⟨hl, (RecoveryCall.fill.inj (Except.ok.inj h)).symm⟩
  · rw [recoveryCall, if_neg hl] at h
    split at h
    · cases h
    · cases hs : adoptStatus x ids.eventId with
      | some call => simp [hs] at h
      | none => simp [hs] at h

/-- Without an execution there is nothing to book. -/
lemma bookedAt_of_zero {x : Order} (hq : x.filledQuantity = 0) (price : ℚ) : BookedAt x price := by
  intro σ env ids l fill hl h
  have hlags := (fill_of_recoveryCall h).1.2
  rw [hq] at hlags
  exact absurd hlags (not_lt.mpr hl)

lemma bookedAt_of_average {x : Order} {price : ℚ} (havg : x.avgFillPrice = some price) (hne : price ≠ 0) :
    BookedAt x price := by
  intro σ env ids l fill _ h
  have hfill : fill.price = price := by
    rw [(fill_of_recoveryCall h).2]
    simp [recoveryFill, recoveryPrice, havg, orDecimal, hne]
  exact ⟨hfill, hfill ▸ hne⟩

/-! ### Binance -/

/-- An order as Binance reports it. -/
structure BinanceReport where
  symbol : String
  orderId : ℕ
  clientOrderId : String
  side : String
  type : String
  timeInForce : String
  status : String
  price : ℚ := 0
  origQty : ℚ
  executedQty : ℚ
  cummulativeQuoteQty : ℚ
  executedQty_nonneg : 0 ≤ executedQty
  quote_eq_zero_iff : cummulativeQuoteQty = 0 ↔ executedQty = 0

namespace BinanceReport

variable (r : BinanceReport)

def json : BinanceOrderJson where
  symbol := some r.symbol
  orderId := some r.orderId
  clientOrderId := some r.clientOrderId
  price := some (.value r.price)
  origQty := some (.value r.origQty)
  executedQty := some (.value r.executedQty)
  cummulativeQuoteQty := some (.value r.cummulativeQuoteQty)
  status := some r.status
  type := some r.type
  side := some r.side
  timeInForce := some r.timeInForce

def executions : Executions where
  quantity := r.executedQty
  value := r.cummulativeQuoteQty
  quantity_nonneg := r.executedQty_nonneg
  value_eq_zero_iff := r.quote_eq_zero_iff

/-- The texts are members of the enumerations of the domain. -/
def Understood : Prop :=
  (OrderSide.ofValue r.side).isSome ∧ (OrderType.ofValue r.type).isSome ∧ (TimeInForce.ofValue r.timeInForce).isSome

/-- The executed price is a decimal of the context. -/
def HasAverage : Prop :=
  r.executedQty = 0 ∨ Decimal.HasDigits contextDigits (r.cummulativeQuoteQty / r.executedQty)

variable {r}

/-- An understood report as an order of the exchange. -/
def order (side : OrderSide) (type : OrderType) (timeInForce : TimeInForce) : BinanceOrder where
  symbol := r.symbol
  orderId := r.orderId
  clientOrderId := r.clientOrderId
  side := side
  type := type
  timeInForce := timeInForce
  price := r.price
  origQty := r.origQty
  executedQty := r.executedQty
  cummulativeQuoteQty := r.cummulativeQuoteQty
  status := r.status

lemma Understood.exists_order (h : r.Understood) : ∃ side type timeInForce,
    r.json = (r.order side type timeInForce).json := by
  obtain ⟨side, hside⟩ := Option.isSome_iff_exists.mp h.1
  obtain ⟨type, htype⟩ := Option.isSome_iff_exists.mp h.2.1
  obtain ⟨timeInForce, htime⟩ := Option.isSome_iff_exists.mp h.2.2
  use side, type, timeInForce
  simp only [json, BinanceOrder.json, order, OrderSide.value_of_ofValue hside, OrderType.value_of_ofValue htype,
    TimeInForce.value_of_ofValue htime]

lemma Understood.normalizeOrder (h : r.Understood) (fallback : Option Order) : ∃ side type timeInForce other,
    BinanceAdapter.normalizeOrder r.json fallback = .ok ((r.order side type timeInForce).normalized other) := by
  obtain ⟨side, type, timeInForce, hjson⟩ := h.exists_order
  use side, type, timeInForce
  rw [hjson]
  cases fallback with
  | some fallback => exact ⟨fallback, BinanceOrder.normalizeWith_json _ fallback⟩
  | none => exact ⟨_, BinanceOrder.normalizeOrder_json _⟩

lemma understood_of_normalizeWith {fallback x : Order} (h : BinanceAdapter.normalizeWith r.json fallback = .ok x) :
    r.Understood := by
  obtain ⟨side, hside, h⟩ := bind_eq_ok.mp h
  obtain ⟨type, htype, h⟩ := bind_eq_ok.mp h
  obtain ⟨timeInForce, htime, -⟩ := bind_eq_ok.mp h
  exact ⟨Option.isSome_iff_exists.mpr ⟨side, enumMember_eq_ok.mp hside⟩,
    Option.isSome_iff_exists.mpr ⟨type, enumMember_eq_ok.mp htype⟩,
    Option.isSome_iff_exists.mpr ⟨timeInForce, enumMember_eq_ok.mp htime⟩⟩

lemma understood_of_normalizeOrder {fallback : Option Order} {x : Order}
    (h : BinanceAdapter.normalizeOrder r.json fallback = .ok x) : r.Understood := by
  cases fallback with
  | some fallback => exact understood_of_normalizeWith h
  | none =>
    obtain ⟨fallback, -, h⟩ := bind_eq_ok.mp h
    exact understood_of_normalizeWith h

lemma keepsExecutions_iff (side : OrderSide) (type : OrderType) (timeInForce : TimeInForce) (fallback : Order) :
    KeepsExecutions ((r.order side type timeInForce).normalized fallback) r.executions ↔ r.HasAverage := by
  rcases eq_or_ne r.executedQty 0 with hzero | hne
  · have hquote := r.quote_eq_zero_iff.mpr hzero
    refine ⟨fun _ => .inl hzero, fun _ => ⟨rfl, ?_, bookedAt_of_zero hzero _⟩⟩
    simp [BinanceOrder.normalized, order, executions, hzero, hquote]
  · have hpos : 0 < r.executedQty := r.executedQty_nonneg.lt_of_ne hne.symm
    have havg : ((r.order side type timeInForce).normalized fallback).avgFillPrice =
        some (divide r.cummulativeQuoteQty r.executedQty) := if_pos hpos
    have hprice : divide r.cummulativeQuoteQty r.executedQty = r.executions.price ↔ r.HasAverage := by
      rw [HasAverage, or_iff_right hne, Decimal.hasDigits_iff]
      rfl
    rw [← hprice]
    constructor
    · intro h
      have hvalue : divide r.cummulativeQuoteQty r.executedQty * r.executedQty = r.cummulativeQuoteQty := by
        have hv := h.value
        rw [havg] at hv
        exact hv
      exact (eq_div_iff hne).mpr hvalue
    · intro h
      rw [h] at havg
      refine ⟨rfl, ?_, bookedAt_of_average havg (Executions.price_ne_zero hne)⟩
      rw [havg]
      exact Executions.price_mul hne

lemma normalizes_iff (fallback : Option Order) :
    Normalizes (BinanceAdapter.normalizeOrder r.json fallback) r.executions ↔ r.Understood ∧ r.HasAverage := by
  constructor
  · rintro ⟨x, hx, hkeeps⟩
    have hu := understood_of_normalizeOrder hx
    obtain ⟨side, type, timeInForce, other, hok⟩ := hu.normalizeOrder fallback
    obtain rfl := Except.ok.inj (hx.symm.trans hok)
    exact ⟨hu, (keepsExecutions_iff side type timeInForce other).mp hkeeps⟩
  · rintro ⟨hu, havg⟩
    obtain ⟨side, type, timeInForce, other, hok⟩ := hu.normalizeOrder fallback
    exact ⟨_, hok, (keepsExecutions_iff side type timeInForce other).mpr havg⟩

end BinanceReport

/-! ### OKX -/

/-- An order as OKX reports it: a market order has no `px`, and an order without a fill no
`avgPx`. -/
structure OkxReport where
  ordId : String
  clOrdId : String
  instId : String
  side : String
  ordType : String
  state : String
  px : Option ℚ := none
  sz : ℚ
  accFillSz : ℚ
  avgPx : Option ℚ := none
  accFillSz_nonneg : 0 ≤ accFillSz
  priced : accFillSz ≠ 0 → avgPx.getD 0 ≠ 0

namespace OkxReport

variable (r : OkxReport) (t : TextFunctions)

/-- The fields `normalize_order` reads; `avgPx` is not one of them. -/
def json : OkxOrderJson where
  ordId := some r.ordId
  clOrdId := some r.clOrdId
  instId := some r.instId
  side := some r.side
  ordType := some r.ordType
  px := r.px.map .value
  sz := some (.value r.sz)
  accFillSz := some (.value r.accFillSz)
  state := some r.state

def executions : Executions where
  quantity := r.accFillSz
  value := r.avgPx.getD 0 * r.accFillSz
  quantity_nonneg := r.accFillSz_nonneg
  value_eq_zero_iff := by
    refine ⟨fun h => ?_, fun h => by rw [h, mul_zero]⟩
    by_contra hne
    exact mul_ne_zero (r.priced hne) hne h

/-- The instrument is mapped, and the texts in upper case are members of the enumerations. -/
def Understood : Prop :=
  (SymbolMapper.canonicalOf (t.upper r.instId)).isSome ∧ (OrderSide.ofValue (t.upper r.side)).isSome ∧
    (OrderType.ofValue (t.upper r.ordType)).isSome

variable {r t}

/-- What `normalize_order` makes of an understood report. -/
def normalized (r : OkxReport) (symbol : String) (side : OrderSide) (type : OrderType) (fallback : Order) : Order where
  internalOrderId := fallback.internalOrderId
  clientOrderId := r.clOrdId
  exchangeOrderId := some r.ordId
  symbol := symbol
  side := side
  orderType := type
  timeInForce := .gtc
  price := r.px.or fallback.price
  quantity := r.sz
  filledQuantity := r.accFillSz
  status := (OkxAdapter.statusMap r.state).getD fallback.status
  tradingMode := fallback.tradingMode
  strategyId := fallback.strategyId
  runId := fallback.runId

lemma mapM_px (r : OkxReport) : r.json.px.mapM D = (.ok r.px : Except TradingError (Option ℚ)) := by
  simp only [json]
  cases r.px <;> rfl

lemma Understood.normalizeOrder (h : r.Understood t) (fallback : Option Order) : ∃ symbol side type other,
    OkxAdapter.normalizeOrder t r.json fallback = .ok (r.normalized symbol side type other) := by
  obtain ⟨symbol, hsymbol⟩ := Option.isSome_iff_exists.mp h.1
  obtain ⟨side, hside⟩ := Option.isSome_iff_exists.mp h.2.1
  obtain ⟨type, htype⟩ := Option.isSome_iff_exists.mp h.2.2
  have hmapped : SymbolMapper.toCanonical t r.instId = .ok symbol := by rw [SymbolMapper.toCanonical, hsymbol]
  have hwith : ∀ other, OkxAdapter.normalizeWith t r.json other = .ok (r.normalized symbol side type other) := by
    intro other
    simp only [OkxAdapter.normalizeWith, mapM_px]
    simp only [json, Option.getD_some, hmapped, hside, htype, enumMember_some, decOr, D, bind, Except.bind, normalized]
  use symbol, side, type
  cases fallback with
  | some fallback => exact ⟨fallback, hwith fallback⟩
  | none =>
    have hfallback : ∃ other, OkxAdapter.fallbackOrder t r.json = .ok other := by
      simp only [OkxAdapter.fallbackOrder, json, Option.getD_some, hmapped, hside, htype, enumMember_some, decOr, D,
        bind, Except.bind]
      exact ⟨_, rfl⟩
    obtain ⟨other, hother⟩ := hfallback
    use other
    rw [OkxAdapter.normalizeOrder, hother]
    exact hwith other

lemma understood_of_normalizeWith {fallback x : Order} (h : OkxAdapter.normalizeWith t r.json fallback = .ok x) :
    r.Understood t ∧ x.avgFillPrice = none ∧ x.price = r.px.or fallback.price := by
  obtain ⟨symbol, hsymbol, h⟩ := bind_eq_ok.mp h
  obtain ⟨side, hside, h⟩ := bind_eq_ok.mp h
  obtain ⟨type, htype, h⟩ := bind_eq_ok.mp h
  obtain ⟨price, hprice, h⟩ := bind_eq_ok.mp h
  obtain ⟨quantity, -, h⟩ := bind_eq_ok.mp h
  obtain ⟨filledQuantity, -, h⟩ := bind_eq_ok.mp h
  have hmapped : (SymbolMapper.canonicalOf (t.upper r.instId)).isSome := by
    simp only [SymbolMapper.toCanonical, json, Option.getD_some] at hsymbol
    cases hc : SymbolMapper.canonicalOf (t.upper r.instId) with
    | none => simp [hc] at hsymbol
    | some canonical => rfl
  obtain rfl : r.px = price := Except.ok.inj (r.mapM_px.symm.trans hprice)
  obtain rfl := Except.ok.inj h
  exact ⟨⟨hmapped, Option.isSome_iff_exists.mpr ⟨side, enumMember_eq_ok.mp hside⟩,
    Option.isSome_iff_exists.mpr ⟨type, enumMember_eq_ok.mp htype⟩⟩, rfl, rfl⟩

lemma price_of_fallbackOrder {raw : OkxOrderJson} {x : Order} (h : OkxAdapter.fallbackOrder t raw = .ok x) :
    x.price = none := by
  obtain ⟨symbol, -, h⟩ := bind_eq_ok.mp h
  obtain ⟨side, -, h⟩ := bind_eq_ok.mp h
  obtain ⟨type, -, h⟩ := bind_eq_ok.mp h
  obtain ⟨quantity, -, h⟩ := bind_eq_ok.mp h
  obtain ⟨filledQuantity, -, h⟩ := bind_eq_ok.mp h
  obtain rfl := Except.ok.inj h
  rfl

lemma exists_normalizeWith {fallback : Option Order} {x : Order}
    (h : OkxAdapter.normalizeOrder t r.json fallback = .ok x) :
    ∃ other, OkxAdapter.normalizeWith t r.json other = .ok x ∧ (fallback = none → other.price = none) := by
  cases fallback with
  | some fallback => exact ⟨fallback, h, nofun⟩
  | none =>
    obtain ⟨other, hother, h⟩ := bind_eq_ok.mp h
    exact ⟨other, h, fun _ => price_of_fallbackOrder hother⟩

/-- What `get_order` returns has no average, and recovery books the limit price or zero. -/
lemma recoveryPrice_of_normalizeOrder {x : Order} (h : OkxAdapter.normalizeOrder t r.json none = .ok x) :
    recoveryPrice x = r.px.getD 0 := by
  obtain ⟨other, hwith, hnone⟩ := exists_normalizeWith h
  obtain ⟨-, havg, hprice⟩ := understood_of_normalizeWith hwith
  rw [hnone rfl, Option.or_none] at hprice
  rw [recoveryPrice, havg, hprice]
  cases r.px with
  | none => rfl
  | some px =>
    simp only [orDecimal, Option.getD_some]
    split
    · rename_i hzero
      exact hzero.symm
    · rfl

lemma normalizes_iff (fallback : Option Order) :
    Normalizes (OkxAdapter.normalizeOrder t r.json fallback) r.executions ↔ r.Understood t ∧ r.accFillSz = 0 := by
  constructor
  · rintro ⟨x, hx, hkeeps⟩
    obtain ⟨other, hwith, -⟩ := exists_normalizeWith hx
    obtain ⟨hu, havg, -⟩ := understood_of_normalizeWith hwith
    have hvalue := hkeeps.value
    rw [havg, Option.getD_none, zero_mul] at hvalue
    exact ⟨hu, r.executions.value_eq_zero_iff.mp hvalue.symm⟩
  · rintro ⟨hu, hzero⟩
    obtain ⟨symbol, side, type, other, hok⟩ := hu.normalizeOrder fallback
    refine ⟨_, hok, rfl, ?_, bookedAt_of_zero hzero _⟩
    simp [normalized, executions, hzero]

end OkxReport

/-- `normalize_order` keeps the executions of a Binance order exactly if its texts are understood
and the executed price is a decimal of the context, and those of an OKX order exactly if its
texts are understood and nothing has been executed. -/
theorem normalization_keeps_executions_iff (t : TextFunctions) (fallback : Option Order) :
    (∀ r : BinanceReport, Normalizes (BinanceAdapter.normalizeOrder r.json fallback) r.executions ↔
        r.Understood ∧ r.HasAverage) ∧
      ∀ r : OkxReport, Normalizes (OkxAdapter.normalizeOrder t r.json fallback) r.executions ↔
        r.Understood t ∧ r.accFillSz = 0 :=
  ⟨fun _ => BinanceReport.normalizes_iff fallback, fun _ => OkxReport.normalizes_iff fallback⟩

/-! ### A market order -/

/-- A market order for two contracts, filled at 30000. -/
def filledMarketReport : OkxReport where
  ordId := "9"
  clOrdId := "C1"
  instId := "BTC-USDT-SWAP"
  side := "buy"
  ordType := "market"
  state := "filled"
  sz := 2
  accFillSz := 2
  avgPx := some 30000
  accFillSz_nonneg := by norm_num
  priced := by norm_num

/-- The order is executed at 30000 and booked at zero. -/
theorem market_order_booked_at_zero :
    ¬ Normalizes (OkxAdapter.normalizeOrder okxText filledMarketReport.json none) filledMarketReport.executions ∧
      filledMarketReport.executions.price = 30000 ∧
      ∃ x, OkxAdapter.normalizeOrder okxText filledMarketReport.json none = .ok x ∧
        ∀ filledText l tradeId, (recoveryFill filledText l x tradeId).price = 0 := by
  have hu : filledMarketReport.Understood okxText := by
    refine ⟨by decide +kernel, by decide +kernel, by decide +kernel⟩
  obtain ⟨symbol, side, type, other, hok⟩ := hu.normalizeOrder none
  refine ⟨fun h => ?_, ?_, _, hok, fun _ _ _ => OkxReport.recoveryPrice_of_normalizeOrder hok⟩
  · have hzero := ((OkxReport.normalizes_iff none).mp h).2
    norm_num [filledMarketReport] at hzero
  · norm_num [Executions.price, OkxReport.executions, filledMarketReport]

end CryptoTrader
