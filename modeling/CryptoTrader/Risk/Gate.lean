import CryptoTrader.Risk.Engine

/-!
# What the risk engine lets through

The approval of `check` against the limits it is there for: which orders that open exposure it holds to
them, which orders that only reduce a position it stops, and how it depends on the size of an order.
-/

namespace CryptoTrader

variable (config : RiskConfig) (killSwitch : Bool) (signal : SignalIntent) (input : RiskInput)

/-! ### Orders that open exposure -/

def notionalOf : ℚ :=
  checkPrice signal input.marketPrice * signal.quantity

/-- The order widens the position, or takes it to the other side. -/
def Opens : Prop :=
  |input.signedQty signal.symbol| < |input.projectedQty signal| ∨
    input.signedQty signal.symbol * input.projectedQty signal < 0

/-- Every limit on exposure holds once the order is added. -/
structure WithinExposure : Prop where
  symbol : input.symbolNotional signal.symbol + notionalOf signal input ≤ config.maxSymbolExposure
  account : input.existingNotional + notionalOf signal input ≤ config.maxAccountExposure
  exchange : input.existingNotional + notionalOf signal input ≤ config.maxExchangeExposure
  position : input.existingNotional + notionalOf signal input ≤ config.maxPositionNotional
  leverage : 0 < input.equity → input.existingNotional + notionalOf signal input ≤ config.maxLeverage * input.equity

/-- The order widens the position within the other limits, and takes the exchange over its own. -/
structure OverExchange : Prop where
  widens : |input.signedQty signal.symbol| < |input.projectedQty signal|
  symbol : input.symbolNotional signal.symbol + notionalOf signal input ≤ config.maxSymbolExposure
  account : input.existingNotional + notionalOf signal input ≤ config.maxAccountExposure
  before : input.existingNotional ≤ config.maxExchangeExposure
  after : config.maxExchangeExposure < input.existingNotional + notionalOf signal input
  position : input.existingNotional + notionalOf signal input ≤ config.maxPositionNotional
  leverage : 0 < input.equity → input.existingNotional + notionalOf signal input ≤ config.maxLeverage * input.equity

/-- The order takes the position to the other side without widening it, beyond a limit. -/
structure OverFlip : Prop where
  flips : input.signedQty signal.symbol * input.projectedQty signal < 0
  narrow : |input.projectedQty signal| ≤ |input.signedQty signal.symbol|
  beyond : ¬WithinExposure config signal input

/-- The limits that `check` looks at where an order widens the position: that of the exchange is
compared with what is there before the order. -/
lemma exposureLimits_iff (symbol : String) (notional : ℚ) :
    (∀ c ∈ exposureLimits config input symbol notional, c.violated = false) ↔
      input.symbolNotional symbol + notional ≤ config.maxSymbolExposure ∧
        input.existingNotional + notional ≤ config.maxAccountExposure ∧
        input.existingNotional ≤ config.maxExchangeExposure ∧
        input.existingNotional + notional ≤ config.maxPositionNotional ∧
        (0 < input.equity → input.existingNotional + notional ≤ config.maxLeverage * input.equity) := by
  have hleverage : (¬(0 < input.equity ∧ config.maxLeverage < (input.existingNotional + notional) / input.equity)) ↔
      (0 < input.equity → input.existingNotional + notional ≤ config.maxLeverage * input.equity) := by
    rw [not_and]
    apply forall_congr'
    intro hequity
    rw [not_lt, div_le_iff₀ hequity]
  simp only [exposureLimits, List.mem_cons, List.not_mem_nil, or_false, forall_eq_or_imp, forall_eq,
    decide_eq_false_iff_not, not_lt]
  rw [hleverage]

/-- An approved order that opens exposure is within every limit exactly when it neither takes the
exchange over its limit nor flips the position beyond one. -/
theorem approval_within_exposure_iff :
    ((check config killSwitch signal input).decision = .approve → Opens signal input → WithinExposure config signal input) ↔
      (Admitted config killSwitch signal input → ¬OverExchange config signal input ∧ ¬OverFlip config signal input) := by
  rw [check_approve_iff, exposureLimits_iff]
  constructor
  · intro hwithin hadmitted
    constructor
    · intro hover
      have hpassed := hwithin ⟨hadmitted, fun _ => ⟨hover.symbol, hover.account, hover.before, hover.position, hover.leverage⟩⟩
        (Or.inl hover.widens)
      exact absurd hpassed.exchange (not_le.mpr hover.after)
    · intro hover
      exact hover.beyond (hwithin ⟨hadmitted, fun hwider => absurd hwider (not_lt.mpr hover.narrow)⟩ (Or.inr hover.flips))
  · rintro hescape ⟨hadmitted, hexposure⟩ hopens
    obtain ⟨hexchange, hflip⟩ := hescape hadmitted
    by_cases hwider : |input.signedQty signal.symbol| < |input.projectedQty signal|
    · obtain ⟨hsymbol, haccount, hbefore, hposition, hleverage⟩ := hexposure hwider
      refine ⟨hsymbol, haccount, ?_, hposition, hleverage⟩
      by_contra hafter
      exact hexchange ⟨hwider, hsymbol, haccount, hbefore, not_le.mp hafter, hposition, hleverage⟩
    · by_contra hbeyond
      exact hflip ⟨hopens.resolve_left hwider, not_lt.mp hwider, hbeyond⟩

/-- A first order for 600 against a limit of 500 on the exchange, and a short of 1.5 out of a long of
1 against a limit of 100 on the symbol. -/
theorem limits_escaped :
    let entry : SignalIntent := { signalId := "s1", strategyId := "ai_brain", symbol := "BTCUSDT", side := .buy, quantity := 6 }
    let flip : SignalIntent := { signalId := "s2", strategyId := "ai_brain", symbol := "BTCUSDT-PERP", side := .sell,
                                 quantity := 3 / 2, marketType := .perpetual }
    let account : RiskInput := { equity := 100000, positions := [], marketPrice := 100, openOrderCount := 0 }
    let long : RiskInput := { account with currentSignedQty := some 1 }
    ((check { maxExchangeExposure := 500 } false entry account).decision = .approve ∧ Opens entry account ∧
        ¬WithinExposure { maxExchangeExposure := 500 } entry account) ∧
      ((check { maxSymbolExposure := 100 } false flip long).decision = .approve ∧ Opens flip long ∧
        ¬WithinExposure { maxSymbolExposure := 100 } flip long) := by
  refine ⟨⟨by decide +kernel, Or.inl (by decide +kernel), fun h => ?_⟩, by decide +kernel, Or.inr (by decide +kernel), fun h => ?_⟩
  · exact absurd h.exchange (by decide +kernel)
  · exact absurd h.symbol (by decide +kernel)

/-! ### Orders that only reduce -/

/-- The limits that a reduce-only order is held to. -/
structure WithinOrderLimits : Prop where
  price : 0 < checkPrice signal input.marketPrice
  notional : notionalOf signal input ≤ config.maxOrderNotional
  openOrders : input.openOrderCount < config.maxOpenOrders
  failures : input.consecutiveFailures < config.maxConsecutiveFailures
  dailyLoss : -|config.maxDailyLoss| ≤ input.dailyPnl
  drawdown : -|config.maxDrawdown| ≤ input.drawdown

lemma orderLimits_iff (notional : ℚ) :
    (∀ c ∈ orderLimits config input notional, c.violated = false) ↔
      notional ≤ config.maxOrderNotional ∧ input.openOrderCount < config.maxOpenOrders ∧
        input.consecutiveFailures < config.maxConsecutiveFailures ∧ -|config.maxDailyLoss| ≤ input.dailyPnl ∧
        -|config.maxDrawdown| ≤ input.drawdown := by
  simp only [orderLimits, List.mem_cons, List.not_mem_nil, or_false, forall_eq_or_imp, forall_eq,
    decide_eq_false_iff_not, not_lt, not_le]

variable {config killSwitch signal input}

/-- A reduce-only order that the reversal gate admits shrinks the position, and does not cross zero. -/
lemma reduceOnly_shrinks (hreduce : signal.isReduceOnly = true)
    (hgate : (checkNoReversal signal.marketType signal.side signal.quantity signal.isReduceOnly
      (input.signedQty signal.symbol)).1 = true) :
    |input.projectedQty signal| < |input.signedQty signal.symbol| ∧
      0 ≤ input.signedQty signal.symbol * input.projectedQty signal := by
  rw [checkNoReversal_iff, if_pos hreduce] at hgate
  obtain ⟨hpos, hle⟩ := hgate
  unfold RiskInput.projectedQty
  cases hside : signal.side with
  | sell =>
    rw [hside] at hle
    dsimp only at hle ⊢
    rw [abs_of_nonneg (by linarith), abs_of_nonneg (by linarith)]
    exact ⟨by linarith, mul_nonneg (by linarith) (by linarith)⟩
  | buy =>
    rw [hside] at hle
    dsimp only at hle ⊢
    rw [abs_of_nonpos (by linarith), abs_of_nonpos (by linarith)]
    exact ⟨by linarith, mul_nonneg_of_nonpos_of_nonpos (by linarith) (by linarith)⟩

/-- A reduce-only order that the reversal gate admits is approved exactly when the limits on the
order and on the account hold. -/
theorem reduce_only_approved_iff (hreduce : signal.isReduceOnly = true)
    (hgate : (checkNoReversal signal.marketType signal.side signal.quantity signal.isReduceOnly
      (input.signedQty signal.symbol)).1 = true) :
    (check config false signal input).decision = .approve ↔ WithinOrderLimits config signal input := by
  have hnarrow := (reduceOnly_shrinks hreduce hgate).1
  rw [check_approve_iff]
  constructor
  · rintro ⟨hadmitted, -⟩
    obtain ⟨hnotional, hopen, hfailures, hloss, hdrawdown⟩ := (orderLimits_iff config input _).mp hadmitted.limits
    exact ⟨hadmitted.price, hnotional, hopen, hfailures, hloss, hdrawdown⟩
  · intro h
    have hpos : 0 < signal.quantity := ((checkNoReversal_iff _ _ _ _ _).mp hgate).1
    have hlimits := (orderLimits_iff config input _).mpr ⟨h.notional, h.openOrders, h.failures, h.dailyLoss, h.drawdown⟩
    exact ⟨⟨rfl, hpos, h.price, hgate, hlimits⟩, fun hwider => absurd hwider hnarrow.not_gt⟩

theorem reduce_only_approved_half :
    let exit : SignalIntent := { signalId := "s1", strategyId := "ai_brain", symbol := "BTCUSDT", side := .sell,
                                 quantity := 1 / 2, reduceOnly := true }
    let long : RiskInput := { equity := 100000, positions := [], marketPrice := 100, openOrderCount := 0,
                              currentSignedQty := some 1 }
    (check {} false exit long).decision = .approve :=
  (reduce_only_approved_iff rfl (by decide +kernel)).mpr
    ⟨by decide +kernel, by decide +kernel, by decide +kernel, by decide +kernel, by decide +kernel, by decide +kernel⟩

/-- Under the default limits, a long of 20 at 100000 cannot be closed by one order. -/
theorem exit_blocked :
    let exit : SignalIntent := { signalId := "s1", strategyId := "ai_brain", symbol := "BTCUSDT", side := .sell,
                                 quantity := 20, reduceOnly := true }
    let long : RiskInput := { equity := 3000000, positions := [], marketPrice := 100000, openOrderCount := 0,
                              currentSignedQty := some 20 }
    (checkNoReversal exit.marketType exit.side exit.quantity exit.isReduceOnly (long.signedQty exit.symbol)).1 = true ∧
      (check {} false exit long).decision = .reject ∧ (check {} false exit long).reason = "MAX_ORDER_NOTIONAL" := by
  decide +kernel

/-! ### The size of an order -/

/-- The absolute value is convex: what a smaller order widens, a larger one on the same side widens
too. -/
lemma widens_of_le {current small large : ℚ} (hsmall : 0 ≤ small) (hle : small ≤ large)
    (h : |current| < |current + small|) : |current| < |current + large| := by
  rcases le_or_gt 0 (current + small) with hside | hside
  · have hlarge : |current + small| ≤ |current + large| := by
      rw [abs_of_nonneg hside, abs_of_nonneg (by linarith)]
      linarith
    exact h.trans_le hlarge
  · have hcurrent : current < 0 := by linarith
    rw [abs_of_neg hside, abs_of_neg hcurrent] at h
    linarith

/-- The same order on the other side is the mirror image. -/
lemma widens_of_le_neg {current small large : ℚ} (hsmall : 0 ≤ small) (hle : small ≤ large)
    (h : |current| < |current + -small|) : |current| < |current + -large| := by
  have hmirror (q : ℚ) : |current + -q| = |-current + q| := by
    rw [← abs_neg, neg_add, neg_neg]
  rw [hmirror, ← abs_neg current] at h ⊢
  exact widens_of_le hsmall hle h

lemma projectedQty_widens {q q' : ℚ} (hpos : 0 < q') (hle : q' ≤ q)
    (h : |input.signedQty signal.symbol| < |input.projectedQty { signal with quantity := q' }|) :
    |input.signedQty signal.symbol| < |input.projectedQty { signal with quantity := q }| := by
  unfold RiskInput.projectedQty at h ⊢
  cases hside : signal.side with
  | buy =>
    rw [hside] at h
    exact widens_of_le hpos.le hle h
  | sell =>
    rw [hside] at h
    exact widens_of_le_neg hpos.le hle h

lemma checkNoReversal_mono {marketType : MarketType} {side : OrderSide} {q q' : ℚ} {reduceOnly : Bool} {current : ℚ}
    (hpos : 0 < q') (hle : q' ≤ q) (h : (checkNoReversal marketType side q reduceOnly current).1 = true) :
    (checkNoReversal marketType side q' reduceOnly current).1 = true := by
  rw [checkNoReversal_iff] at h ⊢
  refine ⟨hpos, ?_⟩
  obtain ⟨-, hwithin⟩ := h
  by_cases hreduce : reduceOnly = true
  · rw [if_pos hreduce] at hwithin ⊢
    exact hle.trans hwithin
  · rw [if_neg hreduce] at hwithin ⊢
    intro hspot hsell
    exact hle.trans (hwithin hspot hsell)

lemma Admitted.mono {q q' : ℚ} (h : Admitted config killSwitch { signal with quantity := q } input) (hpos : 0 < q')
    (hle : q' ≤ q) : Admitted config killSwitch { signal with quantity := q' } input := by
  have hnotional : checkPrice signal input.marketPrice * q' ≤ checkPrice signal input.marketPrice * q :=
    mul_le_mul_of_nonneg_left hle h.price.le
  obtain ⟨hmax, hrest⟩ := (orderLimits_iff config input _).mp h.limits
  exact ⟨h.killSwitch, hpos, h.price, checkNoReversal_mono hpos hle h.noReversal,
    (orderLimits_iff config input _).mpr ⟨hnotional.trans hmax, hrest⟩⟩

/-- What is approved in one size is approved in every smaller one. -/
theorem approval_monotone {q q' : ℚ}
    (h : (check config killSwitch { signal with quantity := q } input).decision = .approve) (hpos : 0 < q') (hle : q' ≤ q) :
    (check config killSwitch { signal with quantity := q' } input).decision = .approve := by
  rw [check_approve_iff] at h ⊢
  obtain ⟨hadmitted, hexposure⟩ := h
  refine ⟨hadmitted.mono hpos hle, fun hwider => ?_⟩
  have hnotional : checkPrice signal input.marketPrice * q' ≤ checkPrice signal input.marketPrice * q :=
    mul_le_mul_of_nonneg_left hle hadmitted.price.le
  obtain ⟨hsymbol, haccount, hexchange, hposition, hleverage⟩ :=
    (exposureLimits_iff config input signal.symbol _).mp (hexposure (projectedQty_widens hpos hle hwider))
  rw [exposureLimits_iff]
  refine ⟨?_, ?_, hexchange, ?_, fun hequity => ?_⟩
  · exact (add_le_add_right hnotional _).trans hsymbol
  · exact (add_le_add_right hnotional _).trans haccount
  · exact (add_le_add_right hnotional _).trans hposition
  · exact (add_le_add_right hnotional _).trans (hleverage hequity)

theorem approval_monotone_entry :
    let entry : SignalIntent := { signalId := "s1", strategyId := "ai_brain", symbol := "BTCUSDT", side := .buy, quantity := 5 }
    let account : RiskInput := { equity := 100000, positions := [], marketPrice := 100, openOrderCount := 0 }
    (check {} false { entry with quantity := 2 } account).decision = .approve :=
  approval_monotone (q := 5) (by decide +kernel) (by decide +kernel) (by decide +kernel)

end CryptoTrader
