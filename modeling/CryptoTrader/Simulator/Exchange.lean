import CryptoTrader.Ledger.Projections
import CryptoTrader.Simulator.OrderBook

/-!
# The simulated exchange

`simulator/exchange.py` without its fault hooks: an order is matched against the book of its
symbol, each fill moves the balances and the position in memory, and a restart adopts what
the ledger replays to.
-/

namespace CryptoTrader

open KeyedTable

/-- `Decimal.quantize` to eight places, a half going to the even neighbour. -/
def quantize (q : ℚ) : ℚ :=
  let scaled := q * 10 ^ 8
  let down : ℤ := scaled.floor
  let rest := scaled - (down : ℚ)
  let nearest : ℤ := if rest < 1 / 2 then down else if 1 / 2 < rest then down + 1
    else if down % 2 = 0 then down else down + 1
  (nearest : ℚ) / 10 ^ 8

def defaultInstrument : Instrument where
  symbol := "BTCUSDT"
  baseAsset := "BTC"
  quoteAsset := "USDT"
  tickSize := 1 / 100
  stepSize := 1 / 10 ^ 5
  minQty := 1 / 10 ^ 5
  minNotional := 5
  exchange := "SIMULATED"

/-- A `Position` of the exchange has the fields of a projected one. -/
structure SimulatedExchange where
  balances : Balances
  positions : List PositionView := []
  orders : List Order := []
  books : List OrderBook := []
  feeRate : ℚ := 1 / 1000
  nextExchangeOrderId : Nat := 1000
  orderIdNamespace : String := ""
  instruments : List Instrument
  deriving DecidableEq

/-- The quantities, cost and average price that a fill leaves in a position. -/
def filledPosition (pos : PositionView) (fill : Fill) : PositionView :=
  let gross := fill.price * fill.quantity
  match fill.side with
  | .buy =>
    let quantity := pos.quantity + fill.quantity
    let cost := pos.costBasis + gross
    { pos with
      quantity
      costBasis := cost
      avgEntryPrice := if quantity = 0 then none else some (cost / quantity) }
  | .sell =>
    let release := pos.avgEntryPrice.getD 0 * fill.quantity
    let left := pos.quantity - fill.quantity
    { pos with
      quantity := left
      realizedPnl := pos.realizedPnl + (gross - release)
      costBasis := if left = 0 then 0 else max (pos.costBasis - release) 0
      avgEntryPrice := if left = 0 then none else pos.avgEntryPrice }

/-- `limit` of `_match_order`. -/
def Order.limit (order : Order) : Option ℚ :=
  match order.orderType with
  | .limit => order.price
  | .market => none

namespace SimulatedExchange

/-- `__init__`: an empty dict of balances or list of instruments is falsy. -/
def create (initialBalances : Balances) (instruments : List Instrument) (feeRate : ℚ) (orderIdNamespace : String) :
    SimulatedExchange where
  balances := if initialBalances = [] then [("USDT", 100000)] else initialBalances
  feeRate := feeRate
  orderIdNamespace := orderIdNamespace
  instruments := (if instruments = [] then [defaultInstrument] else instruments).foldl
    (fun table i => upsert Instrument.symbol i table) []

variable (ex : SimulatedExchange)

def balance (currency : String) : ℚ :=
  (row Prod.fst currency ex.balances).elim 0 Prod.snd

def position (symbol : String) : Option PositionView :=
  row PositionView.symbol symbol ex.positions

def held (symbol : String) : ℚ :=
  (ex.position symbol).elim 0 PositionView.quantity

def costOf (symbol : String) : ℚ :=
  (ex.position symbol).elim 0 PositionView.costBasis

/-- The instrument that an order of the symbol is executed for. -/
def instrumentOf (symbol : String) : Instrument :=
  (row Instrument.symbol symbol ex.instruments).getD defaultInstrument

/-- The book an order of the symbol is matched against. -/
def bookOf (symbol : String) : OrderBook :=
  (row OrderBook.symbol symbol ex.books).getD (seedBook symbol)

def addBalance (currency : String) (amount : ℚ) : SimulatedExchange :=
  { ex with balances := upsert Prod.fst (currency, ex.balance currency + amount) ex.balances }

def applyFillToBalances (fill : Fill) (instrument : Instrument) : SimulatedExchange :=
  let gross := fill.price * fill.quantity
  let ex := match fill.side with
    | .buy => (ex.addBalance instrument.baseAsset fill.quantity).addBalance instrument.quoteAsset (-gross - fill.fee)
    | .sell => (ex.addBalance instrument.baseAsset (-fill.quantity)).addBalance instrument.quoteAsset (gross - fill.fee)
  let pos := (ex.position fill.symbol).getD
    { symbol := fill.symbol, baseAsset := instrument.baseAsset, quoteAsset := instrument.quoteAsset }
  { ex with positions := upsert PositionView.symbol (filledPosition pos fill) ex.positions }

def localOrderFor (raw : Order) : Order :=
  { raw with
    exchangeOrderId := some s!"sim_{ex.orderIdNamespace}{ex.nextExchangeOrderId}"
    filledQuantity := 0
    avgFillPrice := none
    status := .acknowledged
    rejectionReason := none
    lastEventId := none }

end SimulatedExchange

/-! ### Matching -/

/-- What the loop of `_match_order` works on. -/
structure Matching where
  exchange : SimulatedExchange
  book : OrderBook
  order : Order
  remaining : ℚ
  fills : List Fill := []
  deriving DecidableEq

namespace Matching

/-- The fill of an order by a level, with the ids of the fill and of the trade. -/
def fillOf (m : Matching) (instrument : Instrument) (ids : String × String) (level : BookLevel) : Fill :=
  let quantity := min m.remaining level.quantity
  { fillId := ids.1
    tradeId := some ids.2
    orderId := m.order.internalOrderId
    clientOrderId := some m.order.clientOrderId
    exchangeOrderId := m.order.exchangeOrderId
    symbol := m.order.symbol
    side := m.order.side
    price := level.price
    quantity
    fee := quantize (level.price * quantity * m.exchange.feeRate)
    feeCurrency := some instrument.quoteAsset }

/-- The order after a fill. -/
def filledOrder (order : Order) (fill : Fill) : Order :=
  let filled := order.filledQuantity + fill.quantity
  { order with
    filledQuantity := filled
    avgFillPrice := some ((order.avgFillPrice.getD 0 * (filled - fill.quantity) + fill.price * fill.quantity) / filled)
    status := if filled = order.quantity then .filled else .partiallyFilled }

/-- A turn of the loop, unless it ends. -/
def step (instrument : Instrument) (newIds : Nat → String × String) (m : Matching) : Option Matching :=
  if m.remaining ≤ 0 then none
  else
    match m.book.marketable m.order.side m.order.limit with
    | none => none
    | some level =>
      let fill := m.fillOf instrument (newIds m.fills.length) level
      some {
        exchange := m.exchange.applyFillToBalances fill instrument
        book := m.book.setSide ((m.book.side m.order.side).consume level fill.quantity) m.order.side
        order := filledOrder m.order fill
        remaining := m.remaining - fill.quantity
        fills := m.fills ++ [fill] }

/-- At most `n` turns of the loop. -/
def loop (instrument : Instrument) (newIds : Nat → String × String) : Nat → Matching → Matching
  | 0, m => m
  | n + 1, m =>
    match m.step instrument newIds with
    | none => m
    | some m' => loop instrument newIds n m'

end Matching

namespace SimulatedExchange

variable (ex : SimulatedExchange)

/-- `_match_order`. A turn takes a level out of the book or leaves nothing of the order, so
there are at most as many as levels. -/
def matchOrder (order : Order) (newIds : Nat → String × String) : SimulatedExchange × Order × List Fill :=
  let book := ex.bookOf order.symbol
  let start : Matching := { exchange := ex, book, order, remaining := order.quantity }
  let m := start.loop (ex.instrumentOf order.symbol) newIds (book.side order.side).levels.length
  ({ m.exchange with books := upsert OrderBook.symbol m.book m.exchange.books }, m.order, m.fills)

/-- `submit_order`, with the fills it emits. -/
def submitOrder (raw : Order) (newIds : Nat → String × String) : SimulatedExchange × Order × List Fill :=
  let (matched, order, fills) :=
    { ex with nextExchangeOrderId := ex.nextExchangeOrderId + 1 }.matchOrder (ex.localOrderFor raw) newIds
  ({ matched with orders := upsert Order.exchangeOrderId order matched.orders }, order, fills)

end SimulatedExchange

def futuresExcludedEntryTypes : List LedgerEntryType :=
  [.futuresMarginPost, .futuresMarginRelease, .futuresRealizedPnl, .futuresTradingFee, .fundingPayment, .fundingReceipt]

def SimulatedExchange.hydrateFromLedger (ex : SimulatedExchange) (ledger : Ledger) : Except TradingError SimulatedExchange :=
  match replayProjections [] ledger futuresExcludedEntryTypes with
  | .error e => .error e
  | .ok snapshot => .ok { ex with
      balances := if snapshot.balances = [] then ex.balances else snapshot.balances
      positions := snapshot.positions.filter (fun view => view.quantity ≠ 0) }

end CryptoTrader
