import CryptoTrader.Risk.Engine
import Mathlib.Data.Rat.Floor

/-!
# The execution authority

`execution/authority.py`: the gate an order passes after the risk engine, with the rounding
of `domain/money.py` that its precision checks use.
-/

namespace CryptoTrader

/-! ### Precision -/

/-- The decimal places of a fraction whose denominator divides a power of ten. -/
def decimalPlaces (den : ℕ) : ℕ → ℕ → ℕ
  | 0, places => places
  | fuel + 1, places => if 10 ^ places % den = 0 then places else decimalPlaces den fuel (places + 1)

/-- The zeros at the end of a number. -/
def trailingZeros : ℕ → ℕ → ℕ
  | 0, _ => 0
  | fuel + 1, n => if n % 10 = 0 then trailingZeros fuel (n / 10) + 1 else 0

/-- The exponent of `value.normalize()`. -/
def normalizedExponent (value : ℚ) : ℤ :=
  if value.den = 1 then trailingZeros (value.num.natAbs.log2 + 1) value.num.natAbs
  else -(decimalPlaces value.den (value.den.log2 + 1) 0)

/-- `ROUND_HALF_UP`: to the nearest integer, a half away from zero. -/
def roundHalfUp (x : ℚ) : ℤ :=
  if 0 ≤ x then ⌊x + 1 / 2⌋ else -⌊-x + 1 / 2⌋

/-- `round_tick`: the value with as many decimal places as the tick. -/
def roundTick (value tick : ℚ) : Except TradingError ℚ :=
  if tick ≤ 0 then .error (.decimalError "tick size must be positive")
  else
    let unit : ℚ := 10 ^ normalizedExponent tick
    .ok (roundHalfUp (value / unit) * unit)

/-- `ROUND_DOWN`: towards zero. -/
def roundDown (x : ℚ) : ℤ :=
  if 0 ≤ x then ⌊x⌋ else -⌊-x⌋

def floorToStep (value step : ℚ) : Except TradingError ℚ :=
  if step ≤ 0 then .error (.decimalError "step size must be positive")
  else .ok (roundDown (value / step) * step)

/-! ### The gate -/

/-- `AuthorizationContext`. Times are counted from an epoch; the rate limiter is what its
`allow(1)` answers. -/
structure AuthorizationContext where
  now : ℤ := 0
  tradingMode : TradingMode := .paper
  liveEnabled : Bool := false
  leaseHeld : Bool := false
  killSwitch : Bool := false
  orderStatus : OrderStatus := .created
  marketDataFresh : Bool := false
  orderbookFresh : Bool := false
  orderbookHealthy : Bool := false
  symbolTradeable : Bool := false
  exchangeConnected : Bool := false
  balanceFresh : Bool := false
  riskDecision : Option RiskDecision := none
  instrument : Option Instrument := none
  duplicateClientOrder : Bool := false
  reconciliationHalted : Bool := false
  rateLimiter : Option Bool := none
  minNotionalOk : Bool := true
  currentSignedQty : ℚ := 0
  deriving DecidableEq, Repr

/-- A condition that turns an order away, how, and the note it leaves. -/
structure GateCheck where
  fails : Bool
  decision : ExecutionDecision
  note : String
  deriving DecidableEq, Repr

/-- The first condition that fails. -/
def firstFailure (checks : List GateCheck) : Option (ExecutionDecision × List String) :=
  (checks.find? GateCheck.fails).map (fun c => (c.decision, [c.note]))

/-- The conditions 1 to 11 of `authorize`. The intent of a signal has the flag `reduce_only`
of the metadata in its own. Every trading mode is one of the valid three. -/
def standingChecks (intent : OrderIntent) (expiresAt : Option ℤ) (ctx : AuthorizationContext) : List GateCheck :=
  let verdict := checkNoReversal intent.marketType intent.side intent.quantity intent.reduceOnly ctx.currentSignedQty
  [⟨!ctx.leaseHeld, .reject, "EXECUTION_LEASE_NOT_HELD"⟩,
    ⟨ctx.tradingMode = .live ∧ ¬ ctx.liveEnabled, .reject, "LIVE_TRADING_DISABLED"⟩,
    ⟨ctx.killSwitch, .reject, "GLOBAL_KILL_SWITCH"⟩,
    ⟨ctx.reconciliationHalted, .hold, "RECONCILIATION_HALT"⟩,
    ⟨expiresAt.any (fun t => t ≤ ctx.now), .reject, "ORDER_EXPIRED"⟩,
    ⟨!ctx.marketDataFresh, .hold, "MARKET_DATA_STALE"⟩,
    ⟨!ctx.orderbookFresh, .hold, "ORDERBOOK_STALE"⟩,
    ⟨!ctx.orderbookHealthy, .hold, "ORDERBOOK_UNHEALTHY"⟩,
    ⟨!ctx.symbolTradeable, .reject, "SYMBOL_NOT_TRADEABLE"⟩,
    ⟨!ctx.exchangeConnected, .hold, "EXCHANGE_NOT_CONNECTED"⟩,
    ⟨!ctx.balanceFresh, .hold, "BALANCE_STALE"⟩,
    ⟨ctx.orderStatus ∉ [OrderStatus.created, .validated, .unknown], .reject, "ORDER_STATE_INVALID"⟩,
    ⟨ctx.duplicateClientOrder, .hold, "DUPLICATE_CLIENT_ORDER_ID"⟩,
    ⟨ctx.riskDecision.map RiskDecision.decision ≠ some .approve, .reject, "RISK_NOT_VALID"⟩,
    ⟨!verdict.1, .reject, verdict.2⟩]

/-- The conditions 12 and 13, for the price and quantity as the instrument rounds them. -/
def instrumentChecks (intent : OrderIntent) (ctx : AuthorizationContext) (instrument : Instrument)
    (price tickPrice stepQty : ℚ) : List GateCheck :=
  let notional := if 0 < price then price * intent.quantity else 0
  [⟨0 < price ∧ tickPrice ≠ price, .reject, "PRICE_PRECISION_INVALID"⟩,
    ⟨stepQty ≠ intent.quantity, .reject, "QUANTITY_PRECISION_INVALID"⟩,
    ⟨intent.quantity < instrument.minQty, .reject, "MIN_QUANTITY_NOT_MET"⟩,
    ⟨0 < notional ∧ notional < instrument.minNotional, .reject, "MIN_NOTIONAL_NOT_MET"⟩,
    ⟨!ctx.minNotionalOk, .reject, "MIN_NOTIONAL_NOT_MET"⟩,
    ⟨ctx.rateLimiter = some false, .hold, "RATE_LIMIT_BUDGET_EXHAUSTED"⟩]

/-- `ExecutionAuthority.authorize`. The quantity is rounded only after the price has passed. -/
def authorize (intent : OrderIntent) (expiresAt : Option ℤ) (ctx : AuthorizationContext) :
    Except TradingError (ExecutionDecision × List String) :=
  match firstFailure (standingChecks intent expiresAt ctx) with
  | some refusal => .ok refusal
  | none =>
    match ctx.instrument with
    | none => .ok (.reject, ["INSTRUMENT_MISSING"])
    | some instrument => do
      let price := orDecimal intent.price 0
      let tickPrice ← if 0 < price then roundTick price instrument.tickSize else pure price
      if 0 < price ∧ tickPrice ≠ price then
        return (.reject, ["PRICE_PRECISION_INVALID"])
      let stepQty ← floorToStep intent.quantity instrument.stepSize
      match firstFailure (instrumentChecks intent ctx instrument price tickPrice stepQty) with
      | some refusal => return refusal
      | none => return (.approve, ["AUTHORITY_PASS"])

/-! ### What an authorization says -/

lemma firstFailure_none {checks : List GateCheck} (h : firstFailure checks = none) : ∀ c ∈ checks, c.fails = false := by
  unfold firstFailure at h
  rw [Option.map_eq_none_iff, List.find?_eq_none] at h
  intro c hc
  simpa using h c hc

lemma firstFailure_some {checks : List GateCheck} {refusal : ExecutionDecision × List String}
    (h : firstFailure checks = some refusal) : ∃ c ∈ checks, refusal.1 = c.decision := by
  unfold firstFailure at h
  obtain ⟨c, hc, rfl⟩ := Option.map_eq_some_iff.mp h
  exact ⟨c, List.mem_of_find?_eq_some hc, rfl⟩

/-- What `authorize` has made sure of when it approves an order. -/
structure Authorized (intent : OrderIntent) (ctx : AuthorizationContext) : Prop where
  tradeable : ctx.symbolTradeable = true
  risk : ctx.riskDecision.map RiskDecision.decision = some .approve
  noReversal : (checkNoReversal intent.marketType intent.side intent.quantity intent.reduceOnly
    ctx.currentSignedQty).1 = true
  instrument : ctx.instrument ≠ none

lemma standing_of_authorize {intent : OrderIntent} {expiresAt : Option ℤ} {ctx : AuthorizationContext}
    {notes : List String} (h : authorize intent expiresAt ctx = .ok (.approve, notes)) :
    firstFailure (standingChecks intent expiresAt ctx) = none := by
  unfold authorize at h
  cases hstanding : firstFailure (standingChecks intent expiresAt ctx) with
  | none => rfl
  | some refusal =>
    obtain ⟨c, hc, hdecision⟩ := firstFailure_some hstanding
    rw [hstanding, Except.ok.injEq] at h
    have happrove : c.decision = .approve := by rw [← hdecision, h]
    have hrefuses : ∀ c ∈ standingChecks intent expiresAt ctx, c.decision ≠ .approve := by
      simp [standingChecks]
    exact absurd happrove (hrefuses c hc)

lemma leaseHeld_of_authorize {intent : OrderIntent} {expiresAt : Option ℤ} {ctx : AuthorizationContext}
    {notes : List String} (h : authorize intent expiresAt ctx = .ok (.approve, notes)) : ctx.leaseHeld = true := by
  have hall := firstFailure_none (standing_of_authorize h)
  simp only [standingChecks, List.forall_mem_cons] at hall
  simpa using hall.1

lemma authorized_of_authorize {intent : OrderIntent} {expiresAt : Option ℤ} {ctx : AuthorizationContext}
    {notes : List String} (h : authorize intent expiresAt ctx = .ok (.approve, notes)) : Authorized intent ctx := by
  have hstanding := standing_of_authorize h
  have hall := firstFailure_none hstanding
  simp only [standingChecks, List.forall_mem_cons] at hall
  obtain ⟨-, -, -, -, -, -, -, -, htradeable, -, -, -, -, hrisk, hverdict, -⟩ := hall
  refine ⟨by simpa using htradeable, by simpa using hrisk, by simpa using hverdict, ?_⟩
  intro hnone
  simp [authorize, hstanding, hnone] at h

end CryptoTrader
