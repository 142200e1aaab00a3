import CryptoTrader.Domain.Money
import CryptoTrader.Lib.Journal
import CryptoTrader.Lib.Json
import CryptoTrader.Lib.Samples

/-!
# Capturing the factors

`factors/capture.py`: five groups of factors are computed one after the other from the candles and
the market data, and a group that raises keeps the factors it has computed by then. Every value of
a dictionary is read by its text, and one that is absent is read as zero.
-/

namespace CryptoTrader

open Samples

namespace FactorCapture

/-- A dictionary, by the texts of its values. -/
abbrev Fields := Dict String String

/-- The value of the first key that is there, as of `d.get(k₁, d.get(k₂, …))`. -/
def lookup (keys : List String) (d : Fields) : Option String :=
  keys.findSome? (fun k => Dict.get k d)

/-- `D(str(…))` of a lookup with default `"0"`. -/
def number (keys : List String) (d : Fields) : Except MoneyError ℚ :=
  (parseD ((lookup keys d).getD "0")).map Decimal.value

def closeKeys : List String := ["close", "c"]

def highKeys : List String := ["high", "h"] ++ closeKeys

def lowKeys : List String := ["low", "l"] ++ closeKeys

def volumeKeys : List String := ["volume"]

structure FactorResult where
  factorName : String
  symbol : String
  timeframe : String
  value : ℚ
  confidence : ℚ
  metadata : Dict String Json := []

abbrev Capture := Journal MoneyError FactorResult

def priceFactors : List String := ["return", "momentum", "trend", "breakout", "mean_reversion"]

def volumeFactors : List String := ["volume_change", "volume_anomaly", "volume_divergence"]

def volatilityFactors : List String := ["atr", "realized_volatility", "volatility_regime"]

def orderflowFactors : List String :=
  ["orderbook_imbalance", "buy_sell_imbalance", "cvd", "aggressive_trading_ratio"]

def derivativesFactors : List String :=
  ["funding_rate", "funding_change", "open_interest", "oi_divergence", "liquidation_pressure"]

def factorGroups : Dict String (List String) :=
  [("price", priceFactors), ("volume", volumeFactors), ("volatility", volatilityFactors),
    ("orderflow", orderflowFactors), ("derivatives", derivativesFactors)]

def expectedFactorIds : List String :=
  factorGroups.flatMap Prod.snd

/-- `max(low, min(1, x))`. -/
def clamp (low x : ℚ) : ℚ :=
  max low (min 1 x)

/-- `l[-n]`. -/
def fromEnd (n : ℕ) (l : List ℚ) : ℚ :=
  (l.rtake n).headD 0

section Groups

-- `sqrt` is the square root of floats
variable (sqrt : ℚ → ℚ) (symbol timeframe : String) (candles : List Fields) (md : Fields)

def pstdev (l : List ℚ) : ℚ :=
  sqrt (populationVariance l)

def result (factorId : String) (value confidence : ℚ) (metadata : Dict String Json := []) : FactorResult :=
  ⟨factorId, symbol, timeframe, value, confidence, metadata⟩

/-- The change from a value before to a value now, zero unless the value before is positive. -/
def growth (before now : ℚ) : ℚ :=
  if 0 < before then (now - before) / before else 0

/-- The mean of the last 20 values, or of all if there are fewer. -/
def movingAverage (closes : List ℚ) : ℚ :=
  if 20 ≤ closes.length then mean (closes.rtake 20) else mean closes

def ema (closes : List ℚ) : ℚ :=
  closes.tail.foldl (fun ema price => price * (2 / 11) + ema * (1 - 2 / 11)) (closes.headD 0)

def emaSlope (closes : List ℚ) : ℚ :=
  (ema closes - (if closes.length < 11 then closes.headD 0 else ema closes)) * 100

def zscore (closes : List ℚ) : ℚ :=
  let std := if 20 ≤ closes.length then pstdev sqrt (closes.rtake 20) else 0
  if 0 < std then (fromEnd 1 closes - movingAverage closes) / std else 0

/-- The candles whose highs a breakout is measured against. -/
def priorCandles : List Fields :=
  if 21 ≤ candles.length then (candles.rtake 20).dropLast else candles.rtake 1

def capturePrice : Capture Unit :=
  if candles.length < 2 then pure ()
  else do
    let closes ← .attempt (candles.mapM (number closeKeys))
    let last := fromEnd 1 closes
    let ret := growth (fromEnd 2 closes) last
    .write (result symbol timeframe "return" (clamp (-1) (ret * 100)) (9 / 10) [("return", .decimal ret)])
    let acc := if 3 ≤ closes.length ∧ 0 < fromEnd 3 closes then ret - growth (fromEnd 3 closes) (fromEnd 2 closes) else 0
    .write (result symbol timeframe "momentum" (clamp (-1) (ret * 100 + acc * 50)) (8 / 10) [("acceleration", .decimal acc)])
    let maDistance := growth (movingAverage closes) last
    .write (result symbol timeframe "trend" (clamp (-1) (emaSlope closes + maDistance * 10)) (8 / 10)
      [("ema_slope", .decimal (emaSlope closes)), ("ma_distance", .decimal maDistance)])
    let highs ← .attempt ((priorCandles candles).mapM (number highKeys))
    let priorHigh := highs.tail.foldl max (highs.headD 0)
    let breakout := if 0 < priorHigh then clamp 0 ((last - priorHigh) / priorHigh * 100) else 0
    .write (result symbol timeframe "breakout" breakout (6 / 10) [("prior_high", .decimal priorHigh)])
    .write (result symbol timeframe "mean_reversion" (clamp (-1) (-zscore sqrt closes)) (5 / 10)
      [("zscore", .decimal (zscore sqrt closes))])

def captureVolume : Capture Unit :=
  if candles.length < 2 then pure ()
  else do
    let vols ← .attempt (candles.mapM (number volumeKeys))
    let avg := mean vols.dropLast
    if avg ≤ 0 then pure ()
    else do
      let change := (fromEnd 1 vols - avg) / avg
      .write (result symbol timeframe "volume_change" (clamp (-1) (change * (5 / 10))) (8 / 10)
        [("volume_change", .decimal change)])
      let anomaly := min 1 (|change| / 3)
      .write (result symbol timeframe "volume_anomaly" anomaly (5 / 10 + anomaly * (4 / 10))
        [("volume_anomaly", .decimal anomaly)])
      let closes ← .attempt ((candles.rtake 2).reverse.mapM (number closeKeys))
      let priceDirection : ℚ := if fromEnd 1 closes < closes.headD 0 then 1 else -1
      let volDirection : ℚ := if 0 < change then 1 else -1
      .write (result symbol timeframe "volume_divergence" (if priceDirection = volDirection then 0 else 7 / 10) (5 / 10)
        [("price_direction", .decimal priceDirection), ("volume_direction", .decimal volDirection)])

def trueRanges (highs lows closes : List ℚ) : List ℚ :=
  ((highs.tail.zip lows.tail).zip closes).map
    (fun p => max (p.1.1 - p.1.2) (max |p.1.1 - p.2| |p.1.2 - p.2|))

def closeReturns (closes : List ℚ) : List ℚ :=
  ((closes.zip closes.tail).filter (fun p => 0 < p.1)).map (fun p => (p.2 - p.1) / p.1)

def captureVolatility : Capture Unit :=
  if candles.length < 2 then pure ()
  else do
    let highs ← .attempt (candles.mapM (number highKeys))
    let lows ← .attempt (candles.mapM (number lowKeys))
    let closes ← .attempt (candles.mapM (number closeKeys))
    let atr := mean (trueRanges highs lows closes)
    .write (result symbol timeframe "atr" (min 1 (atr * (2 / 10))) (85 / 100) [("atr", .decimal atr)])
    let rets := closeReturns closes
    let rv := if 1 < rets.length then pstdev sqrt rets else 0
    .write (result symbol timeframe "realized_volatility" (min 1 (rv * 10)) (85 / 100) [("realized_volatility", .decimal rv)])
    let percentile : ℚ := if rets = [] then 0 else (rets.filter (· ≤ rv)).length / rets.length
    .write (result symbol timeframe "volatility_regime" percentile (6 / 10) [("volatility_percentile", .decimal percentile)])

/-- The two factors of the book, marked as without data if there is none. -/
def bookFactors (bid ask : ℚ) : List FactorResult :=
  if 0 < bid + ask then
    let imbalance := (bid - ask) / (bid + ask)
    [result symbol timeframe "orderbook_imbalance" (clamp (-1) imbalance) (75 / 100)
        [("bid_volume", .decimal bid), ("ask_volume", .decimal ask)],
      result symbol timeframe "buy_sell_imbalance" (clamp (-1) imbalance) (6 / 10)]
  else
    [result symbol timeframe "orderbook_imbalance" 0 0 [("status", .text "NO_BOOK")],
      result symbol timeframe "buy_sell_imbalance" 0 0 [("status", .text "NO_TRADES")]]

def captureOrderflow : Capture Unit := do
  let bid ← .attempt (number ["bid_volume"] md)
  let ask ← .attempt (number ["ask_volume"] md)
  .writeAll (bookFactors symbol timeframe bid ask)
  let cvd ← .attempt (number ["cvd"] md)
  .write (result symbol timeframe "cvd" (if cvd = 0 then 0 else clamp (-1) (cvd / 1000)) (4 / 10) [("cvd", .decimal cvd)])
  let aggressiveTotal ← .attempt (number ["aggressive_total"] md)
  let totalVolume ← .attempt (number ["total_volume"] md)
  let ratio := if 0 < totalVolume then aggressiveTotal / totalVolume else 0
  .write (result symbol timeframe "aggressive_trading_ratio" (clamp 0 ratio) (4 / 10)
    [("aggressive_total", .decimal aggressiveTotal)])

/-- `D(str(…))` of a lookup with another number as the default. -/
def numberOr (default : ℚ) (key : String) : Except MoneyError ℚ :=
  if lookup [key] md = none then .ok default else number [key] md

def captureDerivatives : Capture Unit := do
  let funding ← .attempt (number ["funding_rate"] md)
  .write (result symbol timeframe "funding_rate" (clamp (-1) (funding * 10000)) (7 / 10) [("funding_rate", .decimal funding)])
  let prevFunding ← .attempt (numberOr md funding "previous_funding_rate")
  .write (result symbol timeframe "funding_change" (clamp (-1) ((funding - prevFunding) * 10000)) (6 / 10)
    [("funding_change", .decimal (funding - prevFunding))])
  let oi ← .attempt (number ["open_interest"] md)
  let prevOi ← .attempt (numberOr md oi "open_interest_previous")
  let oiChange := growth prevOi oi
  .write (result symbol timeframe "open_interest" (clamp (-1) (oiChange * 10)) (7 / 10) [("oi_change", .decimal oiChange)])
  let priceChange ← .attempt (number ["price_change"] md)
  let divergence :=
    if 0 < priceChange ∧ oiChange < 0 then 7 / 10
    else if priceChange < 0 ∧ 0 < oiChange then -7 / 10
    else 0
  .write (result symbol timeframe "oi_divergence" divergence (6 / 10)
    [("price_change", .decimal priceChange), ("oi_change", .decimal oiChange)])
  let liqPressure ← .attempt (number ["liquidation_pressure"] md)
  .write (result symbol timeframe "liquidation_pressure" (clamp (-1) liqPressure) (4 / 10)
    [("liquidation_pressure", .decimal liqPressure)])

/-- The steps of a capture, by the names of their groups. -/
def steps : List (String × Capture Unit) :=
  [("price", capturePrice sqrt symbol timeframe candles), ("volume", captureVolume symbol timeframe candles),
    ("volatility", captureVolatility sqrt symbol timeframe candles),
    ("orderflow", captureOrderflow symbol timeframe md), ("derivatives", captureDerivatives symbol timeframe md)]

/-- `f"{type(exc).__name__}: {exc}"`. -/
def errorText : MoneyError → String
  | .decimalError message => "DecimalError: " ++ message
  | .invalidOperation => "InvalidOperation: "

/-- An exception is recorded for all factors of its group. -/
def recordError (errors : Dict String String) (step : String × Capture Unit) : Dict String String :=
  match step.2.outcome with
  | .ok _ => errors
  | .error e =>
    ((Dict.get step.1 factorGroups).getD []).foldl (fun errors f => Dict.alter f (fun _ => errorText e) errors) errors

/-- `capture`, with `last_calculation_errors`. -/
def capture : List FactorResult × Dict String String :=
  let steps := steps sqrt symbol timeframe candles md
  (steps.flatMap (fun step => step.2.written), steps.foldl recordError [])

end Groups

end FactorCapture

end CryptoTrader
