import CryptoTrader.Domain.Models
import Mathlib.Algebra.Order.Ring.Rat
import Mathlib.Algebra.Order.Field.Rat

/-!
# Perpetual contracts, positions and margin

`perpetual/domain.py`, `perpetual/margin.py`, `perpetual/funding.py` and
`perpetual/liquidation.py`. A position's quantity is signed: positive for LONG, negative
for SHORT.
-/

namespace CryptoTrader

structure PerpetualContract where
  symbol : String
  base : String := ""
  quote : String := ""
  contractSize : ℚ := 1
  tickSize : ℚ := 1 / 100
  quantityStep : ℚ := 1 / 1000
  marginAsset : String := "USDT"
  maxLeverage : ℚ := 6
  takerFeeRate : ℚ := 5 / 10000
  deriving DecidableEq, Repr

structure MarginPosition where
  symbol : String
  side : PositionSide := .flat
  quantity : ℚ := 0
  avgEntryPrice : ℚ := 0
  leverage : ℚ := 1
  initialMargin : ℚ := 0
  maintenanceMargin : ℚ := 0
  markPrice : ℚ := 0
  liquidationPrice : Option ℚ := none
  unrealizedPnl : ℚ := 0
  deriving DecidableEq, Repr

def MarginPosition.isFlat (pos : MarginPosition) : Bool :=
  pos.side = .flat || pos.quantity = 0

def signedQty (side : PositionSide) (qty : ℚ) : ℚ :=
  if side = .long then qty else -qty

/-! ### `MarginCalculator` -/

/-- `effective_leverage`: 1 in place of a leverage that is not positive, capped by the
contract. -/
def effectiveLeverage (leverage maxLeverage : ℚ) : ℚ :=
  min (if leverage ≤ 0 then 1 else leverage) maxLeverage

lemma leverageOrOne_pos (leverage : ℚ) : 0 < if leverage ≤ 0 then 1 else leverage := by
  split
  · exact one_pos
  · exact not_le.mp ‹_›

/-- `abs(quantity) * price * contract_size`. -/
def PerpetualContract.notional (contract : PerpetualContract) (quantity price : ℚ) : ℚ :=
  |quantity| * price * contract.contractSize

/-- `initial_margin`, without a tier provider. -/
def initialMargin (contract : PerpetualContract) (quantity entryPrice leverage : ℚ) : Except TradingError ℚ :=
  let lev := effectiveLeverage leverage contract.maxLeverage
  if lev = 0 then .error .divisionByZero else .ok (contract.notional quantity entryPrice / lev)

def defaultMaintenanceRate (notional : ℚ) : ℚ :=
  if 1000000 ≤ notional then 5 / 1000
  else if 100000 ≤ notional then 25 / 10000
  else 1 / 1000

/-- `maintenance_margin`, at the default rate. -/
def maintenanceMargin (contract : PerpetualContract) (quantity entryPrice : ℚ) : ℚ :=
  contract.notional quantity entryPrice * defaultMaintenanceRate (contract.notional quantity entryPrice)

/-- The value of `liquidation_price`. -/
def liquidationPrice (pos : MarginPosition) (contract : PerpetualContract) : ℚ :=
  let qty := |pos.quantity| * contract.contractSize
  if pos.isFlat then 0
  else if qty ≤ 0 then 0
  else if pos.side = .long then pos.avgEntryPrice - (pos.initialMargin - pos.maintenanceMargin) / qty
  else pos.avgEntryPrice + (pos.initialMargin - pos.maintenanceMargin) / qty

/-- The fee of a fill at the taker rate. -/
def PerpetualContract.takerFee (contract : PerpetualContract) (quantity price : ℚ) : ℚ :=
  quantity * price * contract.contractSize * contract.takerFeeRate

/-! ### `FundingCalculator` -/

structure FundingPayment where
  positionSide : PositionSide
  amount : ℚ
  rate : ℚ
  notional : ℚ
  deriving DecidableEq, Repr

/-- `payment`: a long pays a positive rate, a short receives it. -/
def fundingPayment (pos : MarginPosition) (rate markPrice contractSize : ℚ) : FundingPayment :=
  if pos.isFlat then { positionSide := .flat, amount := 0, rate, notional := 0 }
  else
    let notional := |pos.quantity| * markPrice * contractSize
    let raw := notional * rate
    { positionSide := pos.side, amount := if pos.side = .long then -raw else raw, rate, notional }

/-! ### `LiquidationCalculator` -/

structure LiquidationResult where
  liquidated : Bool
  liquidationPrice : ℚ
  bankruptcyPrice : ℚ
  remainingEquity : ℚ
  fee : ℚ
  deriving DecidableEq, Repr

def liquidationFeeRate : ℚ := 5 / 10000

/-- `evaluate`. The bankruptcy price divides by the size of the position. -/
def evaluateLiquidation (pos : MarginPosition) (contract : PerpetualContract) (markPrice : ℚ) :
    Except TradingError LiquidationResult :=
  if pos.isFlat then .ok ⟨false, 0, 0, 0, 0⟩
  else
    let liq := liquidationPrice pos contract
    let liquidated := pos.side = .long ∧ markPrice ≤ liq ∨ pos.side = .short ∧ liq ≤ markPrice
    let fee := contract.notional pos.quantity markPrice * liquidationFeeRate
    let size := |pos.quantity| * contract.contractSize
    if size = 0 then .error .divisionByZero
    else
      let bankruptcy :=
        if pos.side = .long then pos.avgEntryPrice - pos.initialMargin / size
        else pos.avgEntryPrice + pos.initialMargin / size
      .ok ⟨decide liquidated, liq, bankruptcy, max (pos.initialMargin + pos.unrealizedPnl - fee) 0, fee⟩

/-- Only a contract without leverage leaves nothing to divide by. -/
lemma effectiveLeverage_eq_zero_iff (leverage maxLeverage : ℚ) :
    effectiveLeverage leverage maxLeverage = 0 ↔ maxLeverage = 0 := by
  have hpos : 0 < if leverage ≤ 0 then 1 else leverage := by
    split
    · exact one_pos
    · exact not_le.mp ‹_›
  rw [effectiveLeverage]
  generalize (if leverage ≤ 0 then 1 else leverage) = lev at hpos
  rcases le_total maxLeverage lev with h | h
  · rw [min_eq_right h]
  · rw [min_eq_left h]
    exact iff_of_false hpos.ne' (hpos.trans_le h).ne'

end CryptoTrader
