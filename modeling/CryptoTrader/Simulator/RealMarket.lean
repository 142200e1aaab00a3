import CryptoTrader.MarketData.Book
import CryptoTrader.Simulator.BestFirst
import CryptoTrader.Lib.Runs

/-!
# Paper orders at real prices

`PaperRealMarketAdapter` of `simulator/real_market_paper.py` over the simulated exchange, with the
symbol mapper and the part of the public feed that reads the order book. Before an order is
matched, the book of its canonical symbol is replaced by one level a side, at the best prices of the
feed. As long as orders spell their symbols canonically, a run of the matching engine is a
run of an account that trades at the real best price, one unit an order
(`paper_account_run`); another spelling is matched against another book (`submit_ignores_feed`).
-/

namespace CryptoTrader.PaperRealMarket

open KeyedTable SimulatedExchange

/-! ### Symbols -/

def defaultTradingSymbols : List String :=
  ["BTCUSDT", "ETHUSDT", "SOLUSDT", "XRPUSDT", "BNBUSDT", "DOGEUSDT", "ADAUSDT", "AVAXUSDT", "LINKUSDT", "SUIUSDT",
    "LTCUSDT", "BCHUSDT", "DOTUSDT", "NEARUSDT", "APTUSDT", "ARBUSDT", "OPUSDT", "TONUSDT", "TRXUSDT", "UNIUSDT",
    "HYPEUSDT", "ZECUSDT", "ENAUSDT", "WLDUSDT", "ONDOUSDT", "FILUSDT", "TAOUSDT", "AAVEUSDT", "XLMUSDT", "HBARUSDT"]

/-- `str.upper` of a character, where the upper case is ASCII: other characters are in no symbol. -/
def upperChar (c : Char) : List Char :=
  if c = 'ı' then ['I']
  else if c = 'ſ' then ['S']
  else if c = 'ß' then ['S', 'S']
  else if c = 'ﬀ' then ['F', 'F']
  else if c = 'ﬁ' then ['F', 'I']
  else if c = 'ﬂ' then ['F', 'L']
  else if c = 'ﬃ' then ['F', 'F', 'I']
  else if c = 'ﬄ' then ['F', 'F', 'L']
  else if c = 'ﬅ' ∨ c = 'ﬆ' then ['S', 'T']
  else [c.toUpper]

def upper (s : String) : String :=
  String.ofList (s.toList.flatMap upperChar)

/-- The OKX id of a mapping. -/
def okxOf (symbol : String) : String :=
  String.ofList ((if "USDT".toList <:+ symbol.toList then symbol.toList.take (symbol.length - 4) else symbol.toList)
    ++ "-USDT-SWAP".toList)

/-- `SymbolMapper.to_canonical`, where it does not raise. -/
def toCanonical (raw : String) : Option String :=
  if upper raw ∈ defaultTradingSymbols then some (upper raw)
  else defaultTradingSymbols.find? (fun symbol => upper raw = symbol ∨ upper raw = okxOf symbol)

/-! ### The feed -/

/-- The rows of the order book that a refresh of the feed gets, or the name of the exception it ends with. -/
abbrev FeedAnswer := Except String (Updates × Updates)

structure Quote where
  bestBid : ℚ
  bestAsk : ℚ
  deriving DecidableEq, Repr

/-- `apply_snapshot` of the rows, and the best prices of what it leaves, 0 for an empty side. -/
def quoteOf (answer : FeedAnswer) : Except String Quote :=
  match answer with
  | .error name => .error name
  | .ok (bids, asks) =>
    match upsertLevels {} bids, upsertLevels {} asks with
    | (.ok _, bidSide), (.ok _, askSide) =>
      let book : OrderBook := { symbol := "", bids := bidSide, asks := askSide }
      .ok ⟨((book.best .sell).map BookLevel.price).getD 0, ((book.best .buy).map BookLevel.price).getD 0⟩
    | _, _ => .error "ValueError"

def Quote.Real (q : Quote) : Prop :=
  0 < q.bestBid ∧ 0 < q.bestAsk

instance (q : Quote) : Decidable q.Real :=
  inferInstanceAs (Decidable (_ ∧ _))

/-! ### The adapter -/

structure PaperRealMarketAdapter where
  exchange : SimulatedExchange
  connected : Bool := false
  deriving DecidableEq

inductive SubmitError where
  | exchangeError (message : String)
  | connectionError (message : String)
  deriving DecidableEq, Repr

lemma oneUnit_pos : (0 : ℚ) < 1 := by decide

/-- The book that a refresh puts in place of the simulated one. -/
def realBook (symbol : String) (q : Quote) : OrderBook where
  symbol := symbol
  bids := ({} : BookSide).put ⟨q.bestBid, 1⟩ oneUnit_pos
  asks := ({} : BookSide).put ⟨q.bestAsk, 1⟩ oneUnit_pos

/-- `refresh_market_state`, with the name of the exception it raises. -/
def refreshMarketState (symbol : String) (answer : FeedAnswer) (a : PaperRealMarketAdapter) :
    Except String Quote × PaperRealMarketAdapter :=
  match toCanonical symbol with
  | none => (.error "ValueError", a)
  | some canonical =>
    match quoteOf answer with
    | .error name => (.error name, a)
    | .ok q =>
      (.ok q, if q.Real then
        { a with exchange := { a.exchange with books := upsert OrderBook.symbol (realBook canonical q) a.exchange.books } }
      else a)

/-- `submit_order`, with the fills it emits. -/
def submitOrder (order : Order) (answer : FeedAnswer) (newIds : Nat → String × String) (a : PaperRealMarketAdapter) :
    Except SubmitError (Order × List Fill) × PaperRealMarketAdapter :=
  match refreshMarketState order.symbol answer a with
  | (.error name, a') =>
    (.error (.exchangeError ("REAL_REFERENCE_PRICE_UNAVAILABLE for " ++ order.symbol ++ ": " ++ name)), a')
  | (.ok q, a') =>
    if q.Real then
      if a'.connected then
        let (exchange, local', fills) := a'.exchange.submitOrder order newIds
        (.ok (local', fills), { a' with exchange })
      else (.error (.connectionError "simulated exchange is disconnected"), a')
    else (.error (.exchangeError ("REAL_REFERENCE_PRICE_UNAVAILABLE for " ++ order.symbol)), a')

inductive AdapterCall where
  | connect
  | disconnect
  | refresh (symbol : String) (answer : FeedAnswer)
  | submit (order : Order) (answer : FeedAnswer) (newIds : Nat → String × String)

def exec (a : PaperRealMarketAdapter) : AdapterCall → PaperRealMarketAdapter
  | .connect => { a with connected := true }
  | .disconnect => { a with connected := false }
  | .refresh symbol answer => (refreshMarketState symbol answer a).2
  | .submit order answer newIds => (submitOrder order answer newIds a).2

/-- The fills that a call emits. -/
def emitted (a : PaperRealMarketAdapter) : AdapterCall → List Fill
  | .submit order answer newIds =>
    match (submitOrder order answer newIds a).1 with
    | .ok (_, fills) => fills
    | .error _ => []
  | _ => []

/-! ### The account that trades at real prices -/

/-- What an order trades against a quote: at most one unit, at the price of its side, within its limit. -/
def tradeOf (order : Order) (q : Quote) : Option (ℚ × ℚ) :=
  let price := match order.side with
    | .buy => q.bestAsk
    | .sell => q.bestBid
  if 0 < order.quantity ∧ PriceWithin order.side order.limit price then some (price, min order.quantity 1) else none

structure Trade where
  symbol : String
  side : OrderSide
  price : ℚ
  quantity : ℚ
  fee : ℚ
  deriving DecidableEq, Repr

def Trade.ofFill (fill : Fill) : Trade :=
  ⟨fill.symbol, fill.side, fill.price, fill.quantity, fill.fee⟩

def Trade.signed (t : Trade) : ℚ :=
  match t.side with
  | .buy => t.quantity
  | .sell => -t.quantity

def Trade.cash (t : Trade) : ℚ :=
  match t.side with
  | .buy => -(t.price * t.quantity + t.fee)
  | .sell => t.price * t.quantity - t.fee

/-- A paper account, without books or orders. -/
@[ext] structure Account where
  connected : Bool
  cash : String → ℚ
  held : String → ℚ

/-- The terms of the account: its fee rate and the instrument of each symbol. -/
structure Terms where
  feeRate : ℚ
  instrumentOf : String → Instrument

/-- The trade that an order makes of a connected account. -/
def Terms.trade (terms : Terms) (connected : Bool) (order : Order) (answer : FeedAnswer) : Option Trade :=
  if connected ∧ toCanonical order.symbol ≠ none then
    match quoteOf answer with
    | .error _ => none
    | .ok q =>
      if q.Real then
        (tradeOf order q).map (fun t =>
          ⟨order.symbol, order.side, t.1, t.2, quantize (t.1 * t.2 * terms.feeRate)⟩)
      else none
  else none

def Terms.settle (terms : Terms) (acc : Account) (t : Trade) : Account where
  connected := acc.connected
  cash currency := acc.cash currency +
    (if currency = (terms.instrumentOf t.symbol).baseAsset then t.signed else 0) +
    if currency = (terms.instrumentOf t.symbol).quoteAsset then t.cash else 0
  held symbol := acc.held symbol + if symbol = t.symbol then t.signed else 0

def Terms.step (terms : Terms) (acc : Account) : AdapterCall → Account
  | .connect => { acc with connected := true }
  | .disconnect => { acc with connected := false }
  | .refresh _ _ => acc
  | .submit order answer _ => (terms.trade acc.connected order answer).elim acc (terms.settle acc)

def Terms.trades (terms : Terms) (acc : Account) : AdapterCall → List Trade
  | .submit order answer _ => (terms.trade acc.connected order answer).toList
  | _ => []

def account (a : PaperRealMarketAdapter) : Account where
  connected := a.connected
  cash := a.exchange.balance
  held := a.exchange.held

def terms (a : PaperRealMarketAdapter) : Terms where
  feeRate := a.exchange.feeRate
  instrumentOf := a.exchange.instrumentOf

/-- Orders are spelled with the symbol of the mapper. -/
def AdapterCall.Canonical : AdapterCall → Prop
  | .submit order _ _ => ∀ canonical, toCanonical order.symbol = some canonical → canonical = order.symbol
  | _ => True

instance (c : AdapterCall) : Decidable c.Canonical :=
  match c with
  | .connect => .isTrue trivial
  | .disconnect => .isTrue trivial
  | .refresh _ _ => .isTrue trivial
  | .submit order _ _ =>
    match h : toCanonical order.symbol with
    | none => .isTrue (by simp [AdapterCall.Canonical, h])
    | some canonical => decidable_of_iff (canonical = order.symbol) (by simp [AdapterCall.Canonical, h])

/-! ### One order against the book of a refresh -/

section Matched

variable {ex : SimulatedExchange} {order : Order} {q : Quote} {newIds : Nat → String × String}

/-- The one level of a side. -/
def realLevel (orderSide : OrderSide) (q : Quote) : BookLevel :=
  match orderSide with
  | .buy => ⟨q.bestAsk, 1⟩
  | .sell => ⟨q.bestBid, 1⟩

lemma best_realBook (symbol : String) (q : Quote) (orderSide : OrderSide) :
    (realBook symbol q).best orderSide = some (realLevel orderSide q) := by
  cases orderSide <;> rfl

lemma levels_realBook (symbol : String) (q : Quote) (orderSide : OrderSide) :
    ((realBook symbol q).side orderSide).levels = [realLevel orderSide q] := by
  cases orderSide <;> rfl

lemma tradeOf_eq (order : Order) (q : Quote) :
    tradeOf order q = if 0 < order.quantity ∧ PriceWithin order.side order.limit (realLevel order.side q).price
      then some ((realLevel order.side q).price, min order.quantity 1) else none := by
  unfold tradeOf realLevel
  cases order.side <;> rfl

/-- The matching of an order against such a book is over after one turn. -/
lemma last_real (hbook : ex.bookOf order.symbol = realBook order.symbol q) :
    Matching.last ex order newIds =
      match (Matching.start ex order).step (ex.instrumentOf order.symbol) newIds with
      | none => Matching.start ex order
      | some m => m := by
  rw [Matching.last, hbook, levels_realBook]
  rfl

lemma step_real (hbook : ex.bookOf order.symbol = realBook order.symbol q) :
    (Matching.start ex order).step (ex.instrumentOf order.symbol) newIds =
      if 0 < order.quantity ∧ PriceWithin order.side order.limit (realLevel order.side q).price then
        let fill := (Matching.start ex order).fillOf (ex.instrumentOf order.symbol) (newIds 0) (realLevel order.side q)
        some {
          exchange := ex.applyFillToBalances fill (ex.instrumentOf order.symbol)
          book := (ex.bookOf order.symbol).setSide
            (((ex.bookOf order.symbol).side order.side).consume (realLevel order.side q) fill.quantity) order.side
          order := Matching.filledOrder order fill
          remaining := order.quantity - fill.quantity
          fills := [fill] }
      else none := by
  unfold Matching.step
  by_cases hq : 0 < order.quantity
  · rw [if_neg (not_le.mpr hq : ¬ (Matching.start ex order).remaining ≤ 0)]
    have hmarketable : (Matching.start ex order).book.marketable order.side order.limit =
        if PriceWithin order.side order.limit (realLevel order.side q).price then some (realLevel order.side q) else none := by
      change (ex.bookOf order.symbol).marketable order.side order.limit = _
      rw [hbook, OrderBook.marketable_eq, best_realBook, Option.filter_some]
      simp only [decide_eq_true_eq]
    rw [show (Matching.start ex order).order = order from rfl, hmarketable]
    by_cases hw : PriceWithin order.side order.limit (realLevel order.side q).price
    · rw [if_pos hw, if_pos ⟨hq, hw⟩]
      rfl
    · rw [if_neg hw, if_neg (fun h => hw h.2)]
  · rw [if_pos (not_lt.mp hq : (Matching.start ex order).remaining ≤ 0), if_neg (fun h => hq h.1)]

lemma terms_applyFill (fill : Fill) (instrument : Instrument) :
    (ex.applyFillToBalances fill instrument).feeRate = ex.feeRate ∧
      (ex.applyFillToBalances fill instrument).instruments = ex.instruments := by
  unfold applyFillToBalances addBalance
  cases fill.side <;> exact ⟨rfl, rfl⟩

/-- The fills are the trade, and the account settles them. -/
lemma matchOrder_real (hbook : ex.bookOf order.symbol = realBook order.symbol q) (newIds : Nat → String × String) :
    let matched := ex.matchOrder order newIds
    matched.2.2.map Trade.ofFill = ((tradeOf order q).map (fun t =>
      (⟨order.symbol, order.side, t.1, t.2, quantize (t.1 * t.2 * ex.feeRate)⟩ : Trade))).toList ∧
    matched.1.balances = (matched.2.2.foldl (fun e f => e.applyFillToBalances f (ex.instrumentOf order.symbol)) ex).balances ∧
    matched.1.positions = (matched.2.2.foldl (fun e f => e.applyFillToBalances f (ex.instrumentOf order.symbol)) ex).positions ∧
    matched.1.feeRate = ex.feeRate ∧ matched.1.instruments = ex.instruments := by
  intro matched
  have hmatched : matched = _ := ex.matchOrder_last order newIds
  rw [last_real hbook, step_real hbook] at hmatched
  rw [hmatched, tradeOf_eq]
  by_cases h : 0 < order.quantity ∧ PriceWithin order.side order.limit (realLevel order.side q).price
  · rw [if_pos h, if_pos h]
    have hone : (realLevel order.side q).quantity = 1 := by
      unfold realLevel
      cases order.side <;> rfl
    refine ⟨?_, rfl, rfl, terms_applyFill _ _⟩
    simp [Trade.ofFill, Matching.fillOf, Matching.start, hone]
  · rw [if_neg h, if_neg h]
    exact ⟨rfl, rfl, rfl, rfl, rfl⟩

end Matched

/-! ### One call -/

/-- Books, orders and ids of the exchange are no part of the account. -/
lemma account_congr {a b : PaperRealMarketAdapter} (hc : a.connected = b.connected)
    (hb : a.exchange.balances = b.exchange.balances) (hp : a.exchange.positions = b.exchange.positions) :
    account a = account b := by
  ext x
  · exact hc
  · change a.exchange.balance x = b.exchange.balance x
    rw [balance, balance, hb]
  · change a.exchange.held x = b.exchange.held x
    rw [held, held, position, position, hp]

lemma terms_congr {a b : PaperRealMarketAdapter} (hf : a.exchange.feeRate = b.exchange.feeRate)
    (hi : a.exchange.instruments = b.exchange.instruments) : terms a = terms b := by
  rw [terms, terms, hf]
  congr 1
  funext symbol
  rw [instrumentOf, instrumentOf, hi]

/-- A fill settles as its trade. -/
lemma account_applyFill (a : PaperRealMarketAdapter) (fill : Fill) :
    account { a with exchange := a.exchange.applyFillToBalances fill (a.exchange.instrumentOf fill.symbol) } =
      (terms a).settle (account a) (Trade.ofFill fill) := by
  ext x
  · rfl
  · exact balance_applyFill a.exchange fill (a.exchange.instrumentOf fill.symbol) x
  · change (a.exchange.applyFillToBalances fill (a.exchange.instrumentOf fill.symbol)).held x =
      a.exchange.held x + if x = fill.symbol then (Trade.ofFill fill).signed else 0
    rw [held, position_applyFill, held]
    by_cases hx : x = fill.symbol
    · rw [if_pos hx, if_pos hx, hx, fillPosition]
      cases a.exchange.position fill.symbol <;> unfold filledPosition Trade.signed Trade.ofFill <;>
        cases fill.side <;> simp [sub_eq_add_neg]
    · rw [if_neg hx, if_neg hx, add_zero]

/-- The next order id is nothing to a fill. -/
lemma applyFill_numbered (ex : SimulatedExchange) (fill : Fill) (instrument : Instrument) (n : ℕ) :
    (({ ex with nextExchangeOrderId := n } : SimulatedExchange).applyFillToBalances fill instrument).balances =
        (ex.applyFillToBalances fill instrument).balances ∧
      (({ ex with nextExchangeOrderId := n } : SimulatedExchange).applyFillToBalances fill instrument).positions =
        (ex.applyFillToBalances fill instrument).positions := by
  unfold applyFillToBalances addBalance
  cases fill.side <;> exact ⟨rfl, rfl⟩

/-- An accepted order, after a refresh of the book of its symbol. -/
lemma submit_real (a : PaperRealMarketAdapter) {order : Order} {q : Quote}
    (hbook : a.exchange.bookOf order.symbol = realBook order.symbol q) (newIds : Nat → String × String) :
    let submitted := a.exchange.submitOrder order newIds
    let a' : PaperRealMarketAdapter := { a with exchange := submitted.1 }
    let traded : Option Trade := (tradeOf order q).map (fun t =>
      ⟨order.symbol, order.side, t.1, t.2, quantize (t.1 * t.2 * a.exchange.feeRate)⟩)
    submitted.2.2.map Trade.ofFill = traded.toList ∧ account a' = traded.elim (account a) ((terms a).settle (account a)) ∧
      terms a' = terms a := by
  intro submitted a' traded
  have hbook' : ({ a.exchange with nextExchangeOrderId := a.exchange.nextExchangeOrderId + 1 } : SimulatedExchange).bookOf
      (a.exchange.localOrderFor order).symbol = realBook (a.exchange.localOrderFor order).symbol q := hbook
  obtain ⟨hfills, hbalances, hpositions, hfee, hinstruments⟩ := matchOrder_real hbook' newIds
  have hsubmitted : submitted.2.2 = (({ a.exchange with nextExchangeOrderId := a.exchange.nextExchangeOrderId + 1 } :
      SimulatedExchange).matchOrder (a.exchange.localOrderFor order) newIds).2.2 := rfl
  have htrade : submitted.2.2.map Trade.ofFill = traded.toList := by
    rw [hsubmitted, hfills]
    rfl
  refine ⟨htrade, ?_, terms_congr hfee hinstruments⟩
  rw [← hsubmitted] at hbalances hpositions
  cases ht : traded with
  | none =>
    rw [ht, Option.toList_none, List.map_eq_nil_iff] at htrade
    rw [htrade] at hbalances hpositions
    exact account_congr rfl hbalances hpositions
  | some t =>
    rw [ht, Option.toList_some] at htrade
    obtain ⟨fill, hfill, rfl⟩ := List.map_eq_singleton_iff.mp htrade
    rw [hfill] at hbalances hpositions
    have hsymbol : fill.symbol = order.symbol := by
      obtain ⟨u, -, hu⟩ := Option.map_eq_some_iff.mp ht
      exact (congrArg Trade.symbol hu).symm
    rw [Option.elim_some, ← account_applyFill]
    obtain ⟨hb, hp⟩ := applyFill_numbered a.exchange fill (a.exchange.instrumentOf order.symbol)
      (a.exchange.nextExchangeOrderId + 1)
    rw [hsymbol]
    exact account_congr rfl (hbalances.trans hb) (hpositions.trans hp)

lemma submitOrder_unknown {order : Order} (h : toCanonical order.symbol = none) (answer : FeedAnswer)
    (newIds : Nat → String × String) (a : PaperRealMarketAdapter) :
    (submitOrder order answer newIds a).2 = a ∧ ∀ r, (submitOrder order answer newIds a).1 ≠ .ok r := by
  simp [submitOrder, refreshMarketState, h]

lemma submitOrder_failed {order : Order} {canonical name : String} (h : toCanonical order.symbol = some canonical)
    {answer : FeedAnswer} (ha : quoteOf answer = .error name) (newIds : Nat → String × String)
    (a : PaperRealMarketAdapter) :
    (submitOrder order answer newIds a).2 = a ∧ ∀ r, (submitOrder order answer newIds a).1 ≠ .ok r := by
  simp [submitOrder, refreshMarketState, h, ha]

lemma submitOrder_unreal {order : Order} {canonical : String} (h : toCanonical order.symbol = some canonical)
    {answer : FeedAnswer} {q : Quote} (ha : quoteOf answer = .ok q) (hq : ¬ q.Real) (newIds : Nat → String × String)
    (a : PaperRealMarketAdapter) :
    (submitOrder order answer newIds a).2 = a ∧ ∀ r, (submitOrder order answer newIds a).1 ≠ .ok r := by
  simp [submitOrder, refreshMarketState, h, ha, hq]

/-- The adapter with the book of a refresh. -/
def refreshed (a : PaperRealMarketAdapter) (canonical : String) (q : Quote) : PaperRealMarketAdapter :=
  { a with exchange := { a.exchange with books := upsert OrderBook.symbol (realBook canonical q) a.exchange.books } }

lemma bookOf_refreshed (a : PaperRealMarketAdapter) (canonical : String) (q : Quote) :
    (refreshed a canonical q).exchange.bookOf canonical = realBook canonical q := by
  have hrow : row OrderBook.symbol canonical (upsert OrderBook.symbol (realBook canonical q) a.exchange.books) =
      some (realBook canonical q) := row_upsert_self OrderBook.symbol (realBook canonical q) a.exchange.books
  rw [refreshed, bookOf, hrow]
  rfl

lemma submitOrder_quoted {order : Order} {canonical : String} (h : toCanonical order.symbol = some canonical)
    {answer : FeedAnswer} {q : Quote} (ha : quoteOf answer = .ok q) (hq : q.Real) (newIds : Nat → String × String)
    (a : PaperRealMarketAdapter) :
    submitOrder order answer newIds a =
      if a.connected then
        (.ok (((refreshed a canonical q).exchange.submitOrder order newIds).2.1,
            ((refreshed a canonical q).exchange.submitOrder order newIds).2.2),
          { refreshed a canonical q with exchange := ((refreshed a canonical q).exchange.submitOrder order newIds).1 })
      else (.error (.connectionError "simulated exchange is disconnected"), refreshed a canonical q) := by
  simp only [submitOrder, refreshMarketState, h, ha, hq, if_true]
  rfl

/-- What a call does to the account, and what it emits. -/
lemma exec_account (a : PaperRealMarketAdapter) {c : AdapterCall} (hc : c.Canonical) :
    account (exec a c) = (terms a).step (account a) c ∧ terms (exec a c) = terms a ∧
      (emitted a c).map Trade.ofFill = (terms a).trades (account a) c := by
  have hnothing : ∀ {order answer newIds}, (terms a).trade a.connected order answer = none →
      (submitOrder order answer newIds a).2 = a ∧ (∀ r, (submitOrder order answer newIds a).1 ≠ .ok r) →
      account (exec a (.submit order answer newIds)) = (terms a).step (account a) (.submit order answer newIds) ∧
      terms (exec a (.submit order answer newIds)) = terms a ∧
      (emitted a (.submit order answer newIds)).map Trade.ofFill =
        (terms a).trades (account a) (.submit order answer newIds) := by
    intro order answer newIds htrade hsubmit
    rw [exec, hsubmit.1, Terms.step, Terms.trades, emitted, show (account a).connected = a.connected from rfl, htrade]
    refine ⟨rfl, rfl, ?_⟩
    split
    · rename_i r hr
      exact absurd hr (hsubmit.2 _)
    · rfl
  cases c with
  | connect => exact ⟨rfl, rfl, rfl⟩
  | disconnect => exact ⟨rfl, rfl, rfl⟩
  | refresh symbol answer =>
    simp only [exec, refreshMarketState]
    cases toCanonical symbol with
    | none => exact ⟨rfl, rfl, rfl⟩
    | some canonical =>
      cases quoteOf answer with
      | error name => exact ⟨rfl, rfl, rfl⟩
      | ok q =>
        dsimp only
        split <;> exact ⟨rfl, rfl, rfl⟩
  | submit order answer newIds =>
    cases hcanonical : toCanonical order.symbol with
    | none => exact hnothing (by simp [Terms.trade, hcanonical]) (submitOrder_unknown hcanonical answer newIds a)
    | some canonical =>
      obtain rfl : canonical = order.symbol := hc canonical hcanonical
      cases hanswer : quoteOf answer with
      | error name =>
        exact hnothing (by simp [Terms.trade, hanswer]) (submitOrder_failed hcanonical hanswer newIds a)
      | ok q =>
        by_cases hq : q.Real
        · have hsubmit := submitOrder_quoted hcanonical hanswer hq newIds a
          cases hconnected : a.connected with
          | false =>
            rw [hconnected, if_neg (by simp)] at hsubmit
            have htrade : (terms a).trade false order answer = none := by simp [Terms.trade]
            rw [exec, hsubmit, Terms.step, Terms.trades, emitted, hsubmit,
              show (account a).connected = false from hconnected, htrade]
            exact ⟨rfl, rfl, rfl⟩
          | true =>
            rw [hconnected, if_pos rfl] at hsubmit
            have htrade : (terms a).trade true order answer = (tradeOf order q).map (fun t =>
                ⟨order.symbol, order.side, t.1, t.2, quantize (t.1 * t.2 * (terms a).feeRate)⟩) := by
              simp [Terms.trade, hcanonical, hanswer, hq]
            obtain ⟨hfills, haccount, hterms⟩ := submit_real (refreshed a order.symbol q)
              (bookOf_refreshed a order.symbol q) newIds
            rw [exec, hsubmit, Terms.step, Terms.trades, emitted, hsubmit,
              show (account a).connected = true from hconnected, htrade]
            exact ⟨haccount, hterms, hfills⟩
        · exact hnothing (by simp [Terms.trade, hanswer, hq]) (submitOrder_unreal hcanonical hanswer hq newIds a)

/-! ### Runs -/

/-- The fills of a run, in order. -/
def allEmitted : PaperRealMarketAdapter → List AdapterCall → List Fill
  | _, [] => []
  | a, c :: calls => emitted a c ++ allEmitted (exec a c) calls

def Terms.allTrades (terms : Terms) : Account → List AdapterCall → List Trade
  | _, [] => []
  | acc, c :: calls => terms.trades acc c ++ terms.allTrades (terms.step acc c) calls

/-- Whatever the feed answers: over any run of canonically spelled orders, refreshes and disconnections the adapter
fills what the account trades at the best prices of the feed, and its balances and holdings are those of
the account. An order that the feed has no positive best prices for is refused and fills nothing. -/
theorem paper_account_run (a : PaperRealMarketAdapter) (calls : List AdapterCall) (h : ∀ c ∈ calls, c.Canonical) :
    account (Runs.run exec a calls) = Runs.run (terms a).step (account a) calls ∧
      (allEmitted a calls).map Trade.ofFill = (terms a).allTrades (account a) calls := by
  induction calls generalizing a with
  | nil => exact ⟨rfl, rfl⟩
  | cons c calls ih =>
    obtain ⟨haccount, hterms, hfills⟩ := exec_account a (h c List.mem_cons_self)
    obtain ⟨hrun, htrades⟩ := ih (exec a c) (fun c' hc' => h c' (List.mem_cons_of_mem c hc'))
    rw [hterms, haccount] at hrun htrades
    refine ⟨hrun, ?_⟩
    rw [allEmitted, List.map_append, hfills, htrades, Terms.allTrades]

/-- A buy for 2 takes the one unit of the best ask; the feed then fails, and the sale is refused. -/
theorem paper_account_run_refused :
    let order (side : OrderSide) : Order :=
      { internalOrderId := "o", clientOrderId := "c", symbol := "BTCUSDT", side, orderType := .market, quantity := 2 }
    let calls : List AdapterCall :=
      [.connect, .submit (order .buy) (.ok ([(99, 1)], [(101, 5), (102, 1)])) (fun n => (s!"f{n}", s!"t{n}")),
        .submit (order .sell) (.error "ExchangeError") (fun n => (s!"g{n}", s!"u{n}"))]
    (allEmitted ⟨create [] [] (1 / 1000) "", false⟩ calls).map Trade.ofFill = [⟨"BTCUSDT", .buy, 101, 1, 101 / 1000⟩] := by
  intro order calls
  have hcanonical : ∀ c ∈ calls, c.Canonical := by decide +kernel
  have htrades : (terms ⟨create [] [] (1 / 1000) "", false⟩).allTrades (account ⟨create [] [] (1 / 1000) "", false⟩) calls =
      [⟨"BTCUSDT", .buy, 101, 1, 101 / 1000⟩] := by decide +kernel
  rw [(paper_account_run _ calls hcanonical).2, htrades]

/-! ### Other spellings -/

section Spelling

variable {instrument : Instrument} {newIds : Nat → String × String} {m m' n : Matching}

/-- Two matchings that fill the same. -/
structure SameFills (m n : Matching) : Prop where
  fee : m.exchange.feeRate = n.exchange.feeRate
  book : m.book = n.book
  order : m.order = n.order
  remaining : m.remaining = n.remaining
  fills : m.fills = n.fills

lemma SameFills.fillOf (h : SameFills m n) (ids : String × String) (level : BookLevel) :
    m.fillOf instrument ids level = n.fillOf instrument ids level := by
  simp only [Matching.fillOf, h.fee, h.order, h.remaining]

lemma SameFills.loop (h : SameFills m n) (k : ℕ) :
    SameFills (m.loop instrument newIds k) (n.loop instrument newIds k) := by
  induction k generalizing m n with
  | zero => exact h
  | succ k ih =>
    have hfill (ids : String × String) (level : BookLevel) :
        m.fillOf instrument ids level = n.fillOf instrument ids level := h.fillOf ids level
    simp only [Matching.loop, Matching.step, h.remaining, h.book, h.order, h.fills]
    by_cases hdone : n.remaining ≤ 0
    · simp only [hdone, if_true]
      exact h
    · simp only [hdone, if_false]
      cases hlevel : n.book.marketable n.order.side n.order.limit with
      | none => exact h
      | some level =>
        simp only [hfill]
        refine ih ⟨?_, rfl, rfl, rfl, rfl⟩
        exact (terms_applyFill _ _).1.trans (h.fee.trans (terms_applyFill _ _).1.symm)

/-- An order whose symbol the mapper accepts in another spelling than its own is not matched against the book of the
refresh: it fills what the simulated exchange alone fills, the seeded book included, whatever the feed answers. -/
theorem submit_ignores_feed (a : PaperRealMarketAdapter) (order : Order) (answer : FeedAnswer)
    (newIds : Nat → String × String) (hconnected : a.connected = true) {canonical : String}
    (hcanonical : toCanonical order.symbol = some canonical) (hne : canonical ≠ order.symbol) {q : Quote}
    (hanswer : quoteOf answer = .ok q) (hq : q.Real) :
    emitted a (.submit order answer newIds) = (a.exchange.submitOrder order newIds).2.2 := by
  have hsubmit := submitOrder_quoted hcanonical hanswer hq newIds a
  rw [hconnected, if_pos rfl] at hsubmit
  rw [emitted, hsubmit]
  have hbook : (refreshed a canonical q).exchange.bookOf order.symbol = a.exchange.bookOf order.symbol := by
    have hrow : row OrderBook.symbol order.symbol (upsert OrderBook.symbol (realBook canonical q) a.exchange.books) =
        row OrderBook.symbol order.symbol a.exchange.books :=
      row_upsert_of_ne a.exchange.books (r := realBook canonical q) (Ne.symm hne)
    rw [refreshed, bookOf, hrow, bookOf]
  let numbered (ex : SimulatedExchange) : SimulatedExchange := { ex with nextExchangeOrderId := ex.nextExchangeOrderId + 1 }
  have hnumbered : (numbered (refreshed a canonical q).exchange).bookOf order.symbol =
      (numbered a.exchange).bookOf order.symbol := hbook
  have hsame : SameFills (Matching.start (numbered (refreshed a canonical q).exchange) (a.exchange.localOrderFor order))
      (Matching.start (numbered a.exchange) (a.exchange.localOrderFor order)) :=
    ⟨rfl, hnumbered, rfl, rfl, rfl⟩
  have hlast : ∀ ex : SimulatedExchange, (ex.submitOrder order newIds).2.2 =
      (Matching.last (numbered ex) (ex.localOrderFor order) newIds).fills := fun _ => rfl
  change ((refreshed a canonical q).exchange.submitOrder order newIds).2.2 = _
  rw [hlast, hlast, Matching.last, Matching.last,
    show (refreshed a canonical q).exchange.localOrderFor order = a.exchange.localOrderFor order from rfl]
  rw [show ((numbered (refreshed a canonical q).exchange).bookOf (a.exchange.localOrderFor order).symbol) =
    (numbered a.exchange).bookOf (a.exchange.localOrderFor order).symbol from hnumbered]
  exact (hsame.loop _).fills

/-- The OKX id of a symbol is accepted, and filled at the seeded 100.05 when the feed asks for 60000. -/
theorem submit_ignores_feed_swap :
    let a : PaperRealMarketAdapter := ⟨create [] [] (1 / 1000) "", true⟩
    let order : Order := { internalOrderId := "o", clientOrderId := "c", symbol := "BTC-USDT-SWAP", side := .buy,
                           orderType := .market, quantity := 1 }
    (emitted a (.submit order (.ok ([(59999, 1)], [(60000, 1)])) (fun n => (s!"f{n}", s!"t{n}")))).map Fill.price =
      [2001 / 20] := by
  intro a order
  have hcanonical : toCanonical order.symbol = some "BTCUSDT" := by decide +kernel
  have hanswer : quoteOf (.ok ([(59999, 1)], [(60000, 1)])) = .ok ⟨59999, 60000⟩ := by decide +kernel
  rw [submit_ignores_feed a order _ _ rfl hcanonical (by decide) hanswer (by decide +kernel)]
  decide +kernel

end Spelling

end CryptoTrader.PaperRealMarket
