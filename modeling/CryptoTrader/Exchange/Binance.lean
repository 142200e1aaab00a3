import CryptoTrader.Domain.Models
import CryptoTrader.Domain.Money
import CryptoTrader.Lib.Retry
import Mathlib.Algebra.Order.Field.Rat

/-!
# The Binance adapter

`exchange/binance.py`: a signed request is attempted three times, the answer's status and
error code decide the exception, and an order in the answer is normalized. The transport
is a client that says what becomes of each attempt.
-/

namespace CryptoTrader

open Retries

/-- The exceptions of the transport. -/
inductive TransportFailure where
  | timeout
  | transport (text : String)
  deriving DecidableEq, Repr

/-- An answer: the `code` and `msg` of its JSON body where `int(code)` succeeds, and the
body read as what the request asks for. -/
structure HttpResponse (β : Type) where
  statusCode : Nat
  text : String := ""
  payload : Option (Int × String) := some (0, "")
  body : Option β := none
  deriving DecidableEq, Repr

/-- The error code; an unreadable body has none. -/
def HttpResponse.code {β : Type} (response : HttpResponse β) : Int :=
  (response.payload.map Prod.fst).getD 0

def HttpResponse.msg {β : Type} (response : HttpResponse β) : String :=
  (response.payload.map Prod.snd).getD response.text

/-- The fields of an order's JSON object; an empty price is read like a missing one. -/
structure BinanceOrderJson where
  symbol : Option String := none
  orderId : Option Nat := none
  clientOrderId : Option String := none
  price : Option RawDecimal := none
  origQty : Option RawDecimal := none
  executedQty : Option RawDecimal := none
  cummulativeQuoteQty : Option RawDecimal := none
  status : Option String := none
  type : Option String := none
  side : Option String := none
  timeInForce : Option String := none
  rejectReason : Option String := none
  deriving DecidableEq, Repr

/-- The parameters of `POST /api/v3/order`. -/
structure BinanceOrderParams where
  symbol : String
  side : OrderSide
  type : OrderType
  newClientOrderId : String
  price : Option ℚ := none
  timeInForce : Option TimeInForce := none
  quantity : Option ℚ := none
  deriving DecidableEq, Repr

structure BinanceAdapter where
  apiKey : Option String := none
  apiSecret : Option String := none
  deriving DecidableEq, Repr

namespace BinanceAdapter

variable {ι σ β : Type}

def raiseForBinanceError (response : HttpResponse β) : Except TradingError Unit :=
  let status := response.statusCode
  let code := response.code
  let msg := response.msg
  if status = 200 then .ok ()
  else if status = 429 ∨ status = 418 then .error (.rateLimited s!"Binance rate limited: {response.text}")
  else if 500 ≤ status then .error (.exchangeUnavailable s!"Binance 5xx ({status}): {msg}")
  else if code ∈ [-2015, -2014] then .error (.authenticationError s!"Binance auth error {code}: {msg}")
  else if code ∈ [-2010, -1013, -2011] then .error (.invalidOrder s!"Binance invalid order {code}: {msg}")
  else if code = -2013 then .error (.orderNotFound s!"Binance order not found: {msg}")
  else if code = -2019 then .error (.insufficientBalance s!"Binance insufficient balance: {msg}")
  else if code = -2018 then .error (.insufficientBalance s!"Binance insufficient balance: {msg}")
  else if code = -1100 then .error (.invalidOrder s!"Binance illegal characters: {msg}")
  else if code ∈ [-1001, -1002, -1003, -1007, -1008] then
    .error (.temporaryNetworkError s!"Binance transient error {code}: {msg}")
  else if code = -1000 then .error (.exchangeUnavailable s!"Binance error {code}: {msg}")
  else if status ∈ [400, 401, 403, 404] then
    .error (.orderRejected s!"Binance rejected request ({status}, {code}): {msg}")
  else .error (.unknownExecutionState s!"Binance unexpected response {status} code={code}: {msg}")

/-- What the last of the three attempts raises when it fails. -/
def giveUp : TransportFailure → TradingError
  | .timeout => .temporaryNetworkError "Binance request timed out"
  | .transport text => .exchangeUnavailable s!"Binance transport error: {text}"

/-- An answered attempt. -/
def handle (response : HttpResponse β) : Except TradingError β := do
  raiseForBinanceError response
  match response.body with
  | some body => .ok body
  | none => .error (.valueError "Expecting value")

/-- `_request`, signed: `fates` says what the transport meets at each attempt. -/
def request (a : BinanceAdapter) (client : σ → ι → Attempt TransportFailure (HttpResponse β) × σ)
    (fates : Fin 3 → ι) (s : σ) : Except TradingError β × σ :=
  if truthy a.apiKey ∧ truthy a.apiSecret then
    retried client giveUp (.exchangeUnavailable "Binance request failed after retries") handle (List.ofFn fates) s
  else (.error (.authenticationError "Binance API credentials are not configured"), s)

lemma request_keeps (a : BinanceAdapter) {client : σ → ι → Attempt TransportFailure (HttpResponse β) × σ}
    {Q : σ → Prop} (h : ∀ s i, Q s → Q (client s i).2) (fates : Fin 3 → ι) {s : σ} (hs : Q s) :
    Q (a.request client fates s).2 := by
  rw [request]
  split
  · exact retried_keeps h _ hs
  · exact hs

def statusMap : String → Option OrderStatus
  | "NEW" => some .acknowledged
  | "ACK" => some .acknowledged
  | "PARTIALLY_FILLED" => some .partiallyFilled
  | "FILLED" => some .filled
  | "CANCELED" => some .cancelled
  | "PENDING_CANCEL" => some .cancelPending
  | "REJECTED" => some .rejected
  | "EXPIRED" => some .expired
  | "EXPIRED_IN_MATCH" => some .expired
  | _ => none

/-- `fallback or Order(...)`. -/
def fallbackOrder (raw : BinanceOrderJson) : Except TradingError Order := do
  let side := raw.side.getD "BUY"
  let type := raw.type.getD "LIMIT"
  let timeInForce := raw.timeInForce.getD "GTC"
  let side ← enumMember "OrderSide" side (OrderSide.ofValue side)
  let type ← enumMember "OrderType" type (OrderType.ofValue type)
  let timeInForce ← enumMember "TimeInForce" timeInForce (TimeInForce.ofValue timeInForce)
  let price ← raw.price.mapM D
  let quantity ← decOr raw.origQty 0
  let filledQuantity ← decOr raw.executedQty 0
  .ok { internalOrderId := "unknown"
        clientOrderId := orElseNew raw.clientOrderId "unknown"
        symbol := raw.symbol.getD ""
        side := side
        orderType := type
        timeInForce := timeInForce
        price := price
        quantity := quantity
        filledQuantity := filledQuantity
        status := (statusMap (raw.status.getD "NEW")).getD .unknown }

/-- `normalize_order` with the order to fall back on. -/
def normalizeWith (raw : BinanceOrderJson) (fallback : Order) : Except TradingError Order := do
  let side := raw.side.getD fallback.side.value
  let type := raw.type.getD fallback.orderType.value
  let timeInForce := raw.timeInForce.getD fallback.timeInForce.value
  let side ← enumMember "OrderSide" side (OrderSide.ofValue side)
  let type ← enumMember "OrderType" type (OrderType.ofValue type)
  let timeInForce ← enumMember "TimeInForce" timeInForce (TimeInForce.ofValue timeInForce)
  let price ← raw.price.mapM D
  let quantity ← decOr raw.origQty fallback.quantity
  let filledQuantity ← decOr raw.executedQty fallback.filledQuantity
  let executed ← decOr raw.executedQty 0
  let avgFillPrice ←
    if 0 < executed then do
      let quote ← decOr raw.cummulativeQuoteQty 0
      .ok (some (divide quote executed))
    else .ok fallback.avgFillPrice
  let rejectReason := raw.rejectReason.getD ""
  .ok { internalOrderId := fallback.internalOrderId
        clientOrderId := orElseNew raw.clientOrderId fallback.clientOrderId
        exchangeOrderId := some ((raw.orderId.map toString).getD "None")
        symbol := raw.symbol.getD fallback.symbol
        side := side
        orderType := type
        timeInForce := timeInForce
        price := price.or fallback.price
        quantity := quantity
        filledQuantity := filledQuantity
        avgFillPrice := avgFillPrice
        status := (statusMap (raw.status.getD "NEW")).getD fallback.status
        tradingMode := fallback.tradingMode
        strategyId := fallback.strategyId
        runId := fallback.runId
        rejectionReason := if rejectReason = "" then fallback.rejectionReason else some rejectReason
        lastEventId := fallback.lastEventId }

def normalizeOrder (raw : BinanceOrderJson) : Option Order → Except TradingError Order
  | some fallback => normalizeWith raw fallback
  | none => do normalizeWith raw (← fallbackOrder raw)

/-- The order in the answer is normalized. -/
def normalizeAnswer (fallback : Option Order) :
    Except TradingError BinanceOrderJson × σ → Except TradingError Order × σ
  | (.error e, s) => (.error e, s)
  | (.ok raw, s) => (normalizeOrder raw fallback, s)

@[simp] lemma normalizeAnswer_snd (fallback : Option Order) (p : Except TradingError BinanceOrderJson × σ) :
    (normalizeAnswer fallback p).2 = p.2 := by
  rcases p with ⟨e | raw, s⟩ <;> rfl

/-- The parameters `submit_order` sends. -/
def orderParams (order : Order) : Except TradingError BinanceOrderParams :=
  let params : BinanceOrderParams :=
    { symbol := order.symbol
      side := order.side
      type := order.orderType
      newClientOrderId := order.clientOrderId
      quantity := if 0 < order.quantity then some order.quantity else none }
  match order.orderType, order.price with
  | .limit, none => .error (.invalidOrder "LIMIT order requires price")
  | .limit, some price => .ok { params with price := some price, timeInForce := some order.timeInForce }
  | .market, _ => .ok params

def submitOrder (a : BinanceAdapter)
    (client : BinanceOrderParams → σ → ι → Attempt TransportFailure (HttpResponse BinanceOrderJson) × σ)
    (fates : Fin 3 → ι) (order : Order) (s : σ) : Except TradingError Order × σ :=
  match orderParams order with
  | .error e => (.error e, s)
  | .ok params => normalizeAnswer (some order) (a.request (client params) fates s)

/-- `get_order`: the key goes out as `origClientOrderId`. -/
def getOrder (a : BinanceAdapter)
    (client : String → String → σ → ι → Attempt TransportFailure (HttpResponse BinanceOrderJson) × σ)
    (fates : Fin 3 → ι) (s : σ) (symbol exchangeOrderId : String) : Except TradingError Order :=
  (normalizeAnswer none (a.request (client symbol exchangeOrderId) fates s)).1

/-! ### What an error status raises -/

lemma exists_error_ite {α : Type} {p : Prop} [Decidable p] {e : TradingError} {x : Except TradingError α}
    (h : ∃ e', x = .error e') : ∃ e', (if p then .error e else x) = .error e' := by
  by_cases hp : p
  · exact ⟨e, if_pos hp⟩
  · rwa [if_neg hp]

lemma raiseForBinanceError_of_ne {response : HttpResponse β} (h : response.statusCode ≠ 200) :
    ∃ e, raiseForBinanceError response = .error e := by
  simp only [raiseForBinanceError, if_neg h]
  repeat apply exists_error_ite
  exact ⟨_, rfl⟩

lemma handle_of_error {response : HttpResponse β} {e : TradingError}
    (h : raiseForBinanceError response = .error e) : handle response = .error e := by
  rw [handle, h]
  rfl

end BinanceAdapter

end CryptoTrader
