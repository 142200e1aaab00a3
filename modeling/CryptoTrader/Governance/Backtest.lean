import CryptoTrader.Domain.Models
import Mathlib.Algebra.Order.Ring.Rat

/-!
# The backtest

`governance/backtest.py`: `BacktestEngine.run` replays a list of prices bar by bar, asks
the strategy for a signal from the sixtieth bar on, and keeps one position of one unit. The
strategy, with the features and the regime it is shown, is the sequence of its signals.
-/

namespace CryptoTrader

inductive SignalSide where
  | long | short | noTrade
  deriving DecidableEq, Repr

inductive HeldSide where
  | long | short
  deriving DecidableEq, Repr

/-- `position_side` with `entry_price`, while a position is held. -/
structure Holding where
  side : HeldSide
  entryPrice : ℚ
  deriving DecidableEq, Repr

structure Bar where
  price : ℚ
  signal : SignalSide
  deriving DecidableEq, Repr

structure BacktestMetrics where
  cagr : ℚ := 0
  sharpe : ℚ := 0
  sortino : ℚ := 0
  maxDrawdown : ℚ := 0
  calmar : ℚ := 0
  profitFactor : ℚ := 0
  winRate : ℚ := 0
  expectancy : ℚ := 0
  averageR : ℚ := 0
  longContribution : ℚ := 0
  shortContribution : ℚ := 0
  fundingImpact : ℚ := 0
  feesImpact : ℚ := 0
  turnover : ℕ := 0
  deriving DecidableEq, Repr

/-- The variables of the bar loop. -/
structure BacktestState where
  equity : ℚ
  peak : ℚ
  maxDd : ℚ := 0
  returns : List ℚ := []
  pnlList : List ℚ := []
  longPnl : ℚ := 0
  shortPnl : ℚ := 0
  fees : ℚ := 0
  turnover : ℕ := 0
  position : Option Holding := none
  deriving DecidableEq, Repr

namespace BacktestState

/-- Book the PnL of the position that is closed, with the fee of closing it. -/
def realise (st : BacktestState) (held : Holding) (pnl fee : ℚ) : BacktestState :=
  { st with
    equity := st.equity + pnl
    pnlList := st.pnlList ++ [pnl]
    longPnl := if held.side = .long then st.longPnl + pnl else st.longPnl
    shortPnl := if held.side = .long then st.shortPnl else st.shortPnl + pnl
    fees := st.fees + fee
    turnover := st.turnover + 1 }

def enter (st : BacktestState) (new : Holding) (fee : ℚ) : BacktestState :=
  { st with position := some new, fees := st.fees + fee, turnover := st.turnover + 1 }

/-- The return of the open position at this price. -/
def mark (st : BacktestState) (price : ℚ) : Except TradingError BacktestState :=
  match st.position with
  | none => .ok st
  | some held =>
    let mark := if held.side = .long then price - held.entryPrice else held.entryPrice - price
    if held.entryPrice = 0 then .error .divisionByZero
    else .ok { st with returns := st.returns ++ [mark / held.entryPrice] }

def track (st : BacktestState) : BacktestState :=
  let peak := max st.peak st.equity
  let dd := if 0 < peak then (peak - st.equity) / peak else 0
  { st with peak := peak, maxDd := max st.maxDd dd }

end BacktestState

structure BacktestEngine where
  feeRate : ℚ := 5 / 10000
  slippage : ℚ := 2 / 10000
  deriving DecidableEq, Repr

namespace BacktestEngine

/-- The holding a signal asks for at a price. -/
def opens (e : BacktestEngine) (bar : Bar) : Option Holding :=
  match bar.signal with
  | .long => some ⟨.long, bar.price * (1 + e.slippage)⟩
  | .short => some ⟨.short, bar.price * (1 - e.slippage)⟩
  | .noTrade => none

/-- What the branch of the new side books for the position it closes. -/
def flipPnl (e : BacktestEngine) (newSide : HeldSide) (held : Holding) (price : ℚ) : ℚ :=
  match newSide with
  | .long => price * (1 - e.slippage) - held.entryPrice
  | .short => held.entryPrice - price * (1 + e.slippage)

/-- The two branches of the bar loop, each with the closing of an open position. -/
def onSignal (e : BacktestEngine) (st : BacktestState) (bar : Bar) : BacktestState :=
  match e.opens bar with
  | none => st
  | some new =>
    if st.position.map (·.side) = some new.side then st
    else
      let st := match st.position with
        | none => st
        | some held => st.realise held (e.flipPnl new.side held bar.price) (bar.price * e.feeRate)
      st.enter new (new.entryPrice * e.feeRate)

def bar (e : BacktestEngine) (st : BacktestState) (bar : Bar) : Except TradingError BacktestState := do
  let st ← (e.onSignal st bar).mark bar.price
  return st.track

def runBars (e : BacktestEngine) (st : BacktestState) (bars : List Bar) : Except TradingError BacktestState :=
  bars.foldlM e.bar st

/-- The bars from index 59 on, each with the strategy's signal at it. -/
def bars (prices : List ℚ) (signals : ℕ → SignalSide) : List Bar :=
  (prices.zipIdx.drop 59).map (fun (price, i) => ⟨price, signals i⟩)

/-- What closing at the end of the replay books. -/
def finalPnl (held : Holding) (price : ℚ) : ℚ :=
  if held.side = .long then price - held.entryPrice else held.entryPrice - price

/-- The position still open after the last bar is closed at the last price. -/
def closeOut (e : BacktestEngine) (prices : List ℚ) (st : BacktestState) : BacktestState :=
  match st.position with
  | none => st
  | some held => st.realise held (finalPnl held (prices.getLastD 0)) (prices.getLastD 0 * e.feeRate)

/-- The replay, up to the metrics. -/
def simulate (e : BacktestEngine) (prices : List ℚ) (signals : ℕ → SignalSide) (initialEquity : ℚ) :
    Except TradingError BacktestState := do
  let st ← e.runBars { equity := initialEquity, peak := initialEquity } (bars prices signals)
  return e.closeOut prices st

def mean (xs : List ℚ) : ℚ :=
  xs.sum / xs.length

/-- The metrics of a finished replay; `sqrt` is `Decimal.sqrt`. -/
def metrics (sqrt : ℚ → ℚ) (st : BacktestState) : BacktestMetrics :=
  let wins := st.pnlList.filter (0 < ·)
  let losses := (st.pnlList.filter (· < 0)).map (-·)
  let avg := mean st.returns
  let var := if 1 < st.returns.length then
      (st.returns.map (fun r => (r - avg) ^ 2)).sum / ((st.returns.length : ℚ) - 1) else 0
  let std := if 0 < var then sqrt var else 0
  let downside := st.returns.filter (· < 0)
  let dvar := mean (downside.map (· ^ 2))
  { winRate := if st.pnlList = [] then 0 else (wins.length : ℚ) / st.pnlList.length
    profitFactor := if st.pnlList = [] then 0 else if 0 < losses.sum then wins.sum / losses.sum else 999
    expectancy := if st.pnlList = [] then 0 else mean st.pnlList
    averageR := if st.pnlList = [] then 0 else mean st.pnlList
    sharpe := if 0 < std then avg / std * sqrt st.returns.length else 0
    sortino := if downside ≠ [] ∧ 0 < dvar then avg / sqrt dvar * sqrt st.returns.length else 0
    maxDrawdown := st.maxDd
    longContribution := st.longPnl
    shortContribution := st.shortPnl
    feesImpact := st.fees
    turnover := st.turnover }

def run (e : BacktestEngine) (sqrt : ℚ → ℚ) (prices : List ℚ) (signals : ℕ → SignalSide) (initialEquity : ℚ) :
    Except TradingError BacktestMetrics :=
  if prices.length < 60 then .ok {}
  else do
    let st ← e.simulate prices signals initialEquity
    return metrics sqrt st

end BacktestEngine

end CryptoTrader
