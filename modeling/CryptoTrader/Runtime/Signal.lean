import CryptoTrader.Order.Consistency

/-!
# Signals

What `process_signal` of `runtime/engine.py` makes of a signal: its client order id, its
order intent, and the market a perpetual contract is marked against.
-/

namespace CryptoTrader

open KeyedTable

/-- `f"{strategy_id}_{signal_id}"[:60]`. -/
def clientOrderId (signal : SignalIntent) : String :=
  String.ofList ((s!"{signal.strategyId}_{signal.signalId}").toList.take 60)

/-- The intent `process_signal` builds. -/
def intentOfSignal (signal : SignalIntent) (runId : Option String) : OrderIntent where
  clientOrderId := clientOrderId signal
  symbol := signal.symbol
  side := signal.side
  orderType := signal.orderType
  timeInForce := signal.timeInForce
  price := signal.limitPrice
  quantity := signal.quantity
  strategyId := signal.strategyId
  runId := runId
  marketType := signal.marketType
  positionSide := signal.positionSide
  reduceOnly := signal.reduceOnly || signal.metadataReduceOnly
  metadata := upsert Prod.fst ("signal_id", signal.signalId) signal.metadata

def paperPerpetualReferenceSymbols : List String :=
  ["BTCUSDT", "HYPEUSDT", "ZECUSDT", "ENAUSDT", "WLDUSDT", "ONDOUSDT", "FILUSDT", "TAOUSDT", "AAVEUSDT",
    "XLMUSDT", "HBARUSDT"]

def referenceSymbolFor (symbol : String) : String :=
  match paperPerpetualReferenceSymbols.find? (fun reference => s!"{reference}_PERP" = symbol) with
  | some reference => reference
  | none => symbol

end CryptoTrader
