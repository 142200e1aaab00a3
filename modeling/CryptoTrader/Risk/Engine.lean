import CryptoTrader.Ledger.Projections

/-!
# The risk engine

`risk/engine.py`: the limits a signal is checked against before it may become an order.
-/

namespace CryptoTrader

open KeyedTable

/-- `check_no_reversal`: whether the order is allowed, and the reason. -/
def checkNoReversal (marketType : MarketType) (side : OrderSide) (quantity : ℚ) (reduceOnly : Bool)
    (currentSignedQty : ℚ) : Bool × String :=
  if quantity ≤ 0 then (false, "INVALID_QUANTITY")
  else if reduceOnly then
    if currentSignedQty = 0 then (false, "REDUCE_ONLY_WITHOUT_POSITION")
    else
      match side with
      | .sell =>
        if currentSignedQty ≤ 0 then (false, "REDUCE_ONLY_SELL_AGAINST_SHORT_OR_FLAT")
        else if currentSignedQty < quantity then (false, "REDUCE_ONLY_WOULD_REVERSE")
        else (true, "NO_REVERSAL_PASS")
      | .buy =>
        if 0 ≤ currentSignedQty then (false, "REDUCE_ONLY_BUY_AGAINST_LONG_OR_FLAT")
        else if -currentSignedQty < quantity then (false, "REDUCE_ONLY_WOULD_REVERSE")
        else (true, "NO_REVERSAL_PASS")
  else if marketType = .spot ∧ side = .sell ∧ currentSignedQty < quantity then (false, "SPOT_OVERSHORT")
  else (true, "NO_REVERSAL_PASS")

structure RiskConfig where
  maxOrderNotional : ℚ := 1000000
  maxPositionNotional : ℚ := 1000000
  maxAccountExposure : ℚ := 5000000
  maxOpenOrders : ℤ := 20
  maxDailyLoss : ℚ := 100000
  maxDrawdown : ℚ := 200000
  maxLeverage : ℚ := 5
  maxSymbolExposure : ℚ := 1000000
  maxExchangeExposure : ℚ := 5000000
  maxConsecutiveFailures : ℤ := 10
  deriving DecidableEq, Repr

/-- A value of the dict `checks`; `amount` stands for the text of a decimal. -/
inductive CheckValue where
  | passed (ok : Bool)
  | text (s : String)
  | amount (q : ℚ)
  | notes (l : List String)
  deriving DecidableEq, Repr

structure RiskDecision where
  clientOrderId : String
  symbol : String
  side : OrderSide
  decision : ExecutionDecision
  reason : String
  checks : List (String × CheckValue) := []
  deriving DecidableEq, Repr

/-- What a check is about: the limit it fails for, and the entry it leaves in `checks`. -/
structure LimitCheck where
  violated : Bool
  reason : String
  name : String
  deriving DecidableEq, Repr

/-- The checks one after the other, up to the first limit that is violated. -/
def runChecks (entries : List (String × CheckValue)) :
    List LimitCheck → Except (String × List (String × CheckValue)) (List (String × CheckValue))
  | [] => .ok entries
  | c :: cs =>
    if c.violated then .error (c.reason, entries ++ [(c.reason, .passed false)])
    else runChecks (entries ++ [(c.name, .passed true)]) cs

/-- What `check` is called with beside the signal. -/
structure RiskInput where
  equity : ℚ
  positions : List PositionView
  marketPrice : ℚ
  openOrderCount : ℤ
  dailyPnl : ℚ := 0
  drawdown : ℚ := 0
  consecutiveFailures : ℤ := 0
  currentSignedQty : Option ℚ := none
  deriving DecidableEq, Repr

/-- The price a signal is checked at. -/
def checkPrice (signal : SignalIntent) (marketPrice : ℚ) : ℚ :=
  orDecimal signal.limitPrice marketPrice

def SignalIntent.isReduceOnly (signal : SignalIntent) : Bool :=
  signal.reduceOnly || signal.metadataReduceOnly

namespace RiskInput

/-- The signed position of the symbol: the given one, or that of the spot projection. -/
def signedQty (input : RiskInput) (symbol : String) : ℚ :=
  match input.currentSignedQty with
  | some q => q
  | none => (row PositionView.symbol symbol input.positions).elim 0 PositionView.quantity

def existingNotional (input : RiskInput) : ℚ :=
  (input.positions.map PositionView.costBasis).sum

/-- `current_symbol_notional`. -/
def symbolNotional (input : RiskInput) (symbol : String) : ℚ :=
  |(row PositionView.symbol symbol input.positions).elim 0 PositionView.costBasis|

/-- `projected_signed`. -/
def projectedQty (input : RiskInput) (signal : SignalIntent) : ℚ :=
  input.signedQty signal.symbol + match signal.side with
    | .buy => signal.quantity
    | .sell => -signal.quantity

end RiskInput

/-- The limits on the order and the account. -/
def orderLimits (config : RiskConfig) (input : RiskInput) (notional : ℚ) : List LimitCheck :=
  [⟨config.maxOrderNotional < notional, "MAX_ORDER_NOTIONAL", "max_order_notional"⟩,
    ⟨config.maxOpenOrders ≤ input.openOrderCount, "MAX_OPEN_ORDERS", "max_open_orders"⟩,
    ⟨config.maxConsecutiveFailures ≤ input.consecutiveFailures, "MAX_CONSECUTIVE_FAILURES", "max_consecutive_failures"⟩,
    ⟨input.dailyPnl < -|config.maxDailyLoss|, "MAX_DAILY_LOSS", "max_daily_loss"⟩,
    ⟨input.drawdown < -|config.maxDrawdown|, "MAX_DRAWDOWN", "max_drawdown"⟩]

/-- The limits on exposure, for an order that widens it. -/
def exposureLimits (config : RiskConfig) (input : RiskInput) (symbol : String) (notional : ℚ) : List LimitCheck :=
  let projected := input.existingNotional + notional
  [⟨config.maxSymbolExposure < input.symbolNotional symbol + notional, "MAX_SYMBOL_EXPOSURE", "max_symbol_exposure"⟩,
    ⟨config.maxAccountExposure < projected, "MAX_ACCOUNT_EXPOSURE", "max_account_exposure"⟩,
    ⟨config.maxExchangeExposure < input.existingNotional, "MAX_EXCHANGE_EXPOSURE", "max_exchange_exposure"⟩,
    ⟨config.maxPositionNotional < projected, "MAX_POSITION_NOTIONAL", "max_position_notional"⟩,
    ⟨0 < input.equity ∧ config.maxLeverage < projected / input.equity, "MAX_LEVERAGE", "max_leverage"⟩]

/-- The entries of `checks` for an order that does not widen the exposure. -/
def reduceOnlyEntries : List (String × CheckValue) :=
  ["max_symbol_exposure", "max_account_exposure", "max_exchange_exposure", "max_position_notional",
    "max_leverage"].map (fun name => (name, .text "REDUCE_ONLY"))

/-- `RiskEngine.check` on a signal. -/
def check (config : RiskConfig) (killSwitch : Bool) (signal : SignalIntent) (input : RiskInput) : RiskDecision :=
  let outcome (decision : ExecutionDecision) (reason : String) (checks : List (String × CheckValue)) : RiskDecision :=
    { clientOrderId := if signal.signalId = "" then "unknown" else signal.signalId
      symbol := signal.symbol
      side := signal.side
      decision, reason, checks }
  let fail (reason : String) : RiskDecision := outcome .reject reason [(reason, .passed false)]
  let price := checkPrice signal input.marketPrice
  let notional := price * signal.quantity
  let current := input.signedQty signal.symbol
  let verdict := checkNoReversal signal.marketType signal.side signal.quantity signal.isReduceOnly current
  let projected := input.projectedQty signal
  if killSwitch then fail "GLOBAL_KILL_SWITCH"
  else if signal.quantity ≤ 0 then fail "INVALID_QUANTITY"
  else if price ≤ 0 then fail "INVALID_PRICE"
  else if !verdict.1 then fail verdict.2
  else
    match runChecks [] (orderLimits config input notional) with
    | .error (reason, checks) => outcome .reject reason checks
    | .ok checks =>
      let checks := checks ++ [("projected_signed_quantity", .amount projected)]
      match if |current| < |projected| then runChecks checks (exposureLimits config input signal.symbol notional)
        else .ok (checks ++ reduceOnlyEntries) with
      | .error (reason, checks) => outcome .reject reason checks
      | .ok checks => outcome .approve "RISK_PASS" (checks ++ [("notional", .amount notional)])

/-! ### What an approval says -/

/-- The gate lets a reduce-only order take off at most the position it is against, and a spot
sale sell at most the position. -/
lemma checkNoReversal_iff (marketType : MarketType) (side : OrderSide) (quantity : ℚ) (reduceOnly : Bool) (current : ℚ) :
    (checkNoReversal marketType side quantity reduceOnly current).1 = true ↔ 0 < quantity ∧
      if reduceOnly then quantity ≤ (match side with
        | .sell => current
        | .buy => -current)
      else marketType = .spot → side = .sell → quantity ≤ current := by
  unfold checkNoReversal
  by_cases hq : quantity ≤ 0
  · rw [if_pos hq]
    simp [hq]
  · have hpos : 0 < quantity := not_le.mp hq
    rw [if_neg hq, and_iff_right hpos]
    by_cases hreduce : reduceOnly = true
    · rw [if_pos hreduce, if_pos hreduce]
      cases side with
      | sell =>
        dsimp only
        by_cases hle : quantity ≤ current
        · have hcurrent : 0 < current := hpos.trans_le hle
          rw [if_neg hcurrent.ne', if_neg (not_le.mpr hcurrent), if_neg (not_lt.mpr hle)]
          exact iff_of_true rfl hle
        · refine iff_of_false ?_ hle
          split
          · exact Bool.false_ne_true
          · split
            · exact Bool.false_ne_true
            · rw [if_pos (not_le.mp hle)]
              exact Bool.false_ne_true
      | buy =>
        dsimp only
        by_cases hle : quantity ≤ -current
        · have hcurrent : current < 0 := by linarith
          rw [if_neg hcurrent.ne, if_neg (not_le.mpr hcurrent), if_neg (not_lt.mpr hle)]
          exact iff_of_true rfl hle
        · refine iff_of_false ?_ hle
          split
          · exact Bool.false_ne_true
          · split
            · exact Bool.false_ne_true
            · rw [if_pos (not_le.mp hle)]
              exact Bool.false_ne_true
    · rw [if_neg hreduce, if_neg hreduce]
      by_cases hover : marketType = .spot ∧ side = .sell ∧ current < quantity
      · rw [if_pos hover]
        exact iff_of_false Bool.false_ne_true (fun h => absurd (h hover.1 hover.2.1) (not_le.mpr hover.2.2))
      · rw [if_neg hover]
        refine iff_of_true rfl (fun hspot hsell => ?_)
        by_contra hlt
        exact hover ⟨hspot, hsell, not_le.mp hlt⟩

lemma runChecks_isOk (entries : List (String × CheckValue)) (checks : List LimitCheck) :
    (∃ entries', runChecks entries checks = .ok entries') ↔ ∀ c ∈ checks, c.violated = false := by
  induction checks generalizing entries with
  | nil => exact iff_of_true ⟨entries, rfl⟩ (by simp)
  | cons c checks ih =>
    unfold runChecks
    rw [List.forall_mem_cons]
    by_cases hc : c.violated = true
    · rw [if_pos hc]
      simp [hc]
    · rw [if_neg hc, ih, and_iff_right (Bool.eq_false_iff.mpr hc)]

/-- What `check` has made sure of before it comes to the limits on exposure. -/
structure Admitted (config : RiskConfig) (killSwitch : Bool) (signal : SignalIntent) (input : RiskInput) : Prop where
  killSwitch : killSwitch = false
  quantity : 0 < signal.quantity
  price : 0 < checkPrice signal input.marketPrice
  noReversal : (checkNoReversal signal.marketType signal.side signal.quantity signal.isReduceOnly
    (input.signedQty signal.symbol)).1 = true
  limits : ∀ c ∈ orderLimits config input (checkPrice signal input.marketPrice * signal.quantity), c.violated = false

/-- A signal is approved when nothing stops it before the limits on exposure, and none of these is
violated where it widens the position. -/
lemma check_approve_iff (config : RiskConfig) (killSwitch : Bool) (signal : SignalIntent) (input : RiskInput) :
    (check config killSwitch signal input).decision = .approve ↔ Admitted config killSwitch signal input ∧
      (|input.signedQty signal.symbol| < |input.projectedQty signal| →
        ∀ c ∈ exposureLimits config input signal.symbol (checkPrice signal input.marketPrice * signal.quantity),
          c.violated = false) := by
  unfold check
  dsimp only
  by_cases hkill : killSwitch = true
  · rw [if_pos hkill]
    exact iff_of_false (by simp) (fun h => absurd h.1.killSwitch (by simp [hkill]))
  rw [if_neg hkill]
  by_cases hq : signal.quantity ≤ 0
  · rw [if_pos hq]
    exact iff_of_false (by simp) (fun h => absurd h.1.quantity (not_lt.mpr hq))
  rw [if_neg hq]
  by_cases hprice : checkPrice signal input.marketPrice ≤ 0
  · rw [if_pos hprice]
    exact iff_of_false (by simp) (fun h => absurd h.1.price (not_lt.mpr hprice))
  rw [if_neg hprice]
  by_cases hverdict : (checkNoReversal signal.marketType signal.side signal.quantity signal.isReduceOnly
    (input.signedQty signal.symbol)).1 = true
  swap
  · rw [if_pos (by simp [hverdict])]
    exact iff_of_false (by simp) (fun h => hverdict h.1.noReversal)
  rw [if_neg (by simp [hverdict])]
  have horder := runChecks_isOk [] (orderLimits config input (checkPrice signal input.marketPrice * signal.quantity))
  cases hrun : runChecks [] (orderLimits config input (checkPrice signal input.marketPrice * signal.quantity)) with
  | error e =>
    rw [hrun] at horder
    exact iff_of_false (by simp) (fun h => by simpa using horder.mpr h.1.limits)
  | ok checks =>
    rw [hrun] at horder
    have hadmitted : Admitted config killSwitch signal input :=
      ⟨by simpa using hkill, not_le.mp hq, not_le.mp hprice, hverdict, horder.mp ⟨checks, rfl⟩⟩
    rw [and_iff_right hadmitted]
    dsimp only
    by_cases hwider : |input.signedQty signal.symbol| < |input.projectedQty signal|
    · rw [if_pos hwider, ← runChecks_isOk (checks ++ [("projected_signed_quantity", .amount (input.projectedQty signal))])]
      cases hexposure : runChecks (checks ++ [("projected_signed_quantity", .amount (input.projectedQty signal))])
          (exposureLimits config input signal.symbol (checkPrice signal input.marketPrice * signal.quantity)) with
      | error e => simp [hwider]
      | ok checks' => simp
    · rw [if_neg hwider]
      exact iff_of_true rfl (fun h => absurd h hwider)

/-- What the runs below use of an approval. -/
structure Approved (config : RiskConfig) (signal : SignalIntent) (input : RiskInput) : Prop where
  quantity : 0 < signal.quantity
  price : 0 < checkPrice signal input.marketPrice
  noReversal : (checkNoReversal signal.marketType signal.side signal.quantity signal.isReduceOnly
    (input.signedQty signal.symbol)).1 = true
  exposure : |input.signedQty signal.symbol| < |input.projectedQty signal| →
    input.symbolNotional signal.symbol + checkPrice signal input.marketPrice * signal.quantity ≤ config.maxSymbolExposure ∧
      input.existingNotional + checkPrice signal input.marketPrice * signal.quantity ≤ config.maxAccountExposure

lemma approved_of_check {config : RiskConfig} {killSwitch : Bool} {signal : SignalIntent} {input : RiskInput}
    (h : (check config killSwitch signal input).decision = .approve) : Approved config signal input := by
  rw [check_approve_iff] at h
  obtain ⟨hadmitted, hexposure⟩ := h
  refine ⟨hadmitted.quantity, hadmitted.price, hadmitted.noReversal, fun hwider => ?_⟩
  have hall := hexposure hwider
  simp only [exposureLimits, List.mem_cons, List.not_mem_nil, or_false, forall_eq_or_imp, forall_eq,
    decide_eq_false_iff_not, not_lt] at hall
  exact ⟨hall.1, hall.2.1⟩

end CryptoTrader
