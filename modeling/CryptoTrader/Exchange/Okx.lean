import CryptoTrader.Domain.Models
import CryptoTrader.Lib.Retry
import Mathlib.Data.List.Infix

/-!
# The OKX adapter

`exchange/okx.py` with `exchange/symbol_mapper.py`: symbols are mapped to the exchange's
instruments and back, client ids are hashed, and every answer without code `0` raises an
`OKXDiagnosticError`.
-/

namespace CryptoTrader

open Retries

/-- The functions of the standard library on text: `str.upper`, `str.lower` and the
hexadecimal SHA-256 digest. -/
structure TextFunctions where
  upper : String → String
  lower : String → String
  sha256 : String → String

def IsAscii (s : String) : Prop :=
  s.toList.all (fun c => c.toNat < 128) = true

instance decidableIsAscii (s : String) : Decidable (IsAscii s) :=
  inferInstanceAs (Decidable (_ = true))

/-- `str.upper` on ASCII text. -/
def TextFunctions.UpperAscii (t : TextFunctions) : Prop :=
  ∀ s, IsAscii s → t.upper s = s.toUpper

/-! ### Symbols -/

def defaultTradingSymbols : List String :=
  ["BTCUSDT", "ETHUSDT", "SOLUSDT", "XRPUSDT", "BNBUSDT", "DOGEUSDT", "ADAUSDT", "AVAXUSDT",
    "LINKUSDT", "SUIUSDT", "LTCUSDT", "BCHUSDT", "DOTUSDT", "NEARUSDT", "APTUSDT", "ARBUSDT",
    "OPUSDT", "TONUSDT", "TRXUSDT", "UNIUSDT", "HYPEUSDT", "ZECUSDT", "ENAUSDT", "WLDUSDT",
    "ONDOUSDT", "FILUSDT", "TAOUSDT", "AAVEUSDT", "XLMUSDT", "HBARUSDT"]

structure SymbolMapping where
  canonical : String
  binance : String
  okx : String
  deriving DecidableEq, Repr

/-- `str.removesuffix`. -/
def dropSuffix (s suffix : String) : String :=
  if suffix.toList <:+ s.toList then String.ofList (s.toList.take (s.length - suffix.length)) else s

namespace SymbolMapper

/-- The values of `MAPPINGS`, each filed under its canonical symbol. -/
def mappings : List SymbolMapping :=
  defaultTradingSymbols.map fun symbol => ⟨symbol, symbol, dropSuffix symbol "USDT" ++ "-USDT-SWAP"⟩

def get (key : String) : Option SymbolMapping :=
  mappings.find? (fun m => m.canonical = key)

def toOkx (t : TextFunctions) (canonical : String) : Except TradingError String :=
  match get (t.upper canonical) with
  | some mapping => .ok mapping.okx
  | none => .error (.valueError s!"unknown canonical symbol: {canonical}")

/-- The canonical symbol of a name in upper case. -/
def canonicalOf (normalized : String) : Option String :=
  match get normalized with
  | some _ => some normalized
  | none => (mappings.find? (fun m => normalized = m.binance ∨ normalized = m.okx)).map (·.canonical)

def toCanonical (t : TextFunctions) (raw : String) : Except TradingError String :=
  match canonicalOf (t.upper raw) with
  | some canonical => .ok canonical
  | none => .error (.valueError s!"unknown exchange symbol: {raw}")

lemma canonicalOf_okx : ∀ m ∈ mappings, IsAscii m.okx ∧ m.okx.toUpper = m.okx ∧ canonicalOf m.okx = some m.canonical := by
  decide +kernel

end SymbolMapper

/-! ### Answers -/

/-- The fields of an order's JSON object; an empty `px` is read like a missing one. -/
structure OkxOrderJson where
  ordId : Option String := none
  clOrdId : Option String := none
  instId : Option String := none
  side : Option String := none
  ordType : Option String := none
  px : Option RawDecimal := none
  sz : Option RawDecimal := none
  accFillSz : Option RawDecimal := none
  state : Option String := none
  deriving DecidableEq, Repr

/-- The JSON of an answer. -/
inductive OkxBody where
  | invalidJson
  | notAnObject
  | object (code msg : String) (data : List OkxOrderJson)
  deriving DecidableEq, Repr

/-- What one attempt is answered with: the credentials cannot be encoded, or a response. -/
inductive OkxReply where
  | unicodeError
  | response (statusCode : Nat) (body : OkxBody)
  deriving DecidableEq, Repr

structure OkxAdapter where
  apiKey : Option String := none
  apiSecret : Option String := none
  apiPassphrase : Option String := none
  text : TextFunctions

/-- `part in text`. -/
def occursIn (part text : String) : Bool :=
  decide (part.toList <:+: text.toList)

def classifyOkxError (t : TextFunctions) (exchangeCode message : String) : String :=
  let normalized := t.lower message
  if exchangeCode ∈ ["50011", "50061"] ∨ occursIn "rate limit" normalized then "RATE_LIMITED"
  else if exchangeCode = "50115" ∨ occursIn "ip" normalized ∧
      (occursIn "white" normalized ∨ occursIn "restrict" normalized ∨ occursIn "allow" normalized) then
    "IP_RESTRICTED"
  else if exchangeCode ∈ ["50101", "50102"] ∨
      ["simulated", "demo", "testnet", "environment mismatch"].any (occursIn · normalized) then
    "DEMO_ENV_MISMATCH"
  else if occursIn "permission" normalized ∨ occursIn "not allowed" normalized then "PERMISSION_DENIED"
  else if exchangeCode ∈ ["50103", "50113", "50114", "50121"] ∨
      ["api key", "passphrase", "signature", "authentication", "authorization"].any (occursIn · normalized) then
    "AUTH_FAILED"
  else "OKX_REJECTED"

/-- `OKXDiagnosticError(...)`; the message is cut to 256 characters. -/
def okxError {α : Type} (reasonCode message : String) (exchangeCode : Option String) : Except TradingError α :=
  .error (.okxDiagnostic reasonCode (String.ofList (message.toList.take 256)) exchangeCode)

/-- `_okx_payload`: the `data` of an answer. -/
def okxPayload (t : TextFunctions) (path : String) : OkxBody → Except TradingError (List OkxOrderJson)
  | .invalidJson => okxError "MALFORMED_RESPONSE" s!"OKX returned invalid JSON for {path}" none
  | .notAnObject => okxError "MALFORMED_RESPONSE" s!"OKX returned invalid data for {path}" none
  | .object code msg data =>
    if code ≠ "0" then okxError (classifyOkxError t code msg) msg (some code) else .ok data

namespace OkxAdapter

variable {ι σ : Type}

/-- An answered attempt. -/
def handle (t : TextFunctions) (path : String) : OkxReply → Except TradingError (List OkxOrderJson)
  | .unicodeError => okxError "AUTH_FAILED" "OKX credential contains unsupported characters" none
  | .response statusCode body =>
    if statusCode = 200 then okxPayload t path body
    else if statusCode = 429 then okxError "RATE_LIMITED" "OKX rate limited" none
    else if statusCode ∈ [401, 403] then okxError "AUTH_FAILED" "OKX authentication failed" none
    else if 500 ≤ statusCode then okxError "OKX_UNAVAILABLE" s!"OKX service HTTP {statusCode}" none
    else okxPayload t path body

/-- `_request`, signed. -/
def request (a : OkxAdapter) (path : String) (client : σ → ι → Attempt Unit OkxReply × σ) (fates : Fin 3 → ι)
    (s : σ) : Except TradingError (List OkxOrderJson) × σ :=
  if truthy a.apiKey ∧ truthy a.apiSecret ∧ truthy a.apiPassphrase then
    retried client (fun _ => .okxDiagnostic "NETWORK_ERROR" "Unable to connect to OKX" none)
      (.exchangeUnavailable "OKX request failed after retries") (handle a.text path) (List.ofFn fates) s
  else (.error (.authenticationError "OKX credentials are not configured"), s)

lemma request_keeps (a : OkxAdapter) (path : String) {client : σ → ι → Attempt Unit OkxReply × σ}
    {Q : σ → Prop} (h : ∀ s i, Q s → Q (client s i).2) (fates : Fin 3 → ι) {s : σ} (hs : Q s) :
    Q (a.request path client fates s).2 := by
  rw [request]
  split
  · exact retried_keeps h _ hs
  · exact hs

def clOrdId (t : TextFunctions) (clientOrderId : String) : String :=
  "C" ++ t.upper (String.ofList ((t.sha256 clientOrderId).toList.take 28))

def statusMap : String → Option OrderStatus
  | "live" => some .opened
  | "partially_filled" => some .partiallyFilled
  | "filled" => some .filled
  | "canceled" => some .cancelled
  | _ => none

/-- `fallback or Order(...)`. -/
def fallbackOrder (t : TextFunctions) (raw : OkxOrderJson) : Except TradingError Order := do
  let symbol ← SymbolMapper.toCanonical t (raw.instId.getD "")
  let side := t.upper (raw.side.getD "buy")
  let side ← enumMember "OrderSide" side (OrderSide.ofValue side)
  let type := t.upper (raw.ordType.getD "limit")
  let type ← enumMember "OrderType" type (OrderType.ofValue type)
  let quantity ← decOr raw.sz 0
  let filledQuantity ← decOr raw.accFillSz 0
  .ok { internalOrderId := "unknown"
        clientOrderId := raw.clOrdId.getD "unknown"
        symbol := symbol
        side := side
        orderType := type
        timeInForce := .gtc
        quantity := quantity
        filledQuantity := filledQuantity
        status := (statusMap (raw.state.getD "live")).getD .unknown }

/-- `normalize_order` with the order to fall back on. -/
def normalizeWith (t : TextFunctions) (raw : OkxOrderJson) (fallback : Order) : Except TradingError Order := do
  let symbol ← SymbolMapper.toCanonical t (raw.instId.getD fallback.symbol)
  let side := t.upper (raw.side.getD fallback.side.value)
  let side ← enumMember "OrderSide" side (OrderSide.ofValue side)
  let type := t.upper (raw.ordType.getD fallback.orderType.value)
  let type ← enumMember "OrderType" type (OrderType.ofValue type)
  let price ← raw.px.mapM D
  let quantity ← decOr raw.sz fallback.quantity
  let filledQuantity ← decOr raw.accFillSz fallback.filledQuantity
  .ok { internalOrderId := fallback.internalOrderId
        clientOrderId := raw.clOrdId.getD fallback.clientOrderId
        exchangeOrderId := some (raw.ordId.getD (fallback.exchangeOrderId.getD "None"))
        symbol := symbol
        side := side
        orderType := type
        timeInForce := .gtc
        price := price.or fallback.price
        quantity := quantity
        filledQuantity := filledQuantity
        status := (statusMap (raw.state.getD "live")).getD fallback.status
        tradingMode := fallback.tradingMode
        strategyId := fallback.strategyId
        runId := fallback.runId }

def normalizeOrder (t : TextFunctions) (raw : OkxOrderJson) : Option Order → Except TradingError Order
  | some fallback => normalizeWith t raw fallback
  | none => do normalizeWith t raw (← fallbackOrder t raw)

lemma exchangeOrderId_normalizeWith {t : TextFunctions} {raw : OkxOrderJson} {fallback found : Order}
    {ordId : String} (hid : raw.ordId = some ordId) (h : normalizeWith t raw fallback = .ok found) :
    found.exchangeOrderId = some ordId := by
  obtain ⟨symbol, -, h⟩ := bind_eq_ok.mp h
  obtain ⟨side, -, h⟩ := bind_eq_ok.mp h
  obtain ⟨type, -, h⟩ := bind_eq_ok.mp h
  obtain ⟨price, -, h⟩ := bind_eq_ok.mp h
  obtain ⟨quantity, -, h⟩ := bind_eq_ok.mp h
  obtain ⟨filledQuantity, -, h⟩ := bind_eq_ok.mp h
  simp only [hid, Option.getD_some, Except.ok.injEq] at h
  rw [← h]

lemma exchangeOrderId_normalizeOrder {t : TextFunctions} {raw : OkxOrderJson} {fallback : Option Order}
    {found : Order} {ordId : String} (hid : raw.ordId = some ordId)
    (h : normalizeOrder t raw fallback = .ok found) : found.exchangeOrderId = some ordId := by
  cases fallback with
  | some fallback => exact exchangeOrderId_normalizeWith hid h
  | none =>
    obtain ⟨fallback, -, h⟩ := bind_eq_ok.mp h
    exact exchangeOrderId_normalizeWith hid h

end OkxAdapter

/-- The body of `POST /api/v5/trade/order`; side and type go out as the texts below. -/
structure OkxOrderBody where
  instId : String
  clOrdId : String
  side : OrderSide
  ordType : OrderType
  sz : ℚ
  px : Option ℚ := none
  deriving DecidableEq, Repr

def OrderSide.okx : OrderSide → String
  | .buy => "buy"
  | .sell => "sell"

def OrderType.okx : OrderType → String
  | .limit => "limit"
  | .market => "market"

namespace OkxAdapter

variable {ι σ : Type}

/-- The body `submit_order` sends. -/
def orderBody (t : TextFunctions) (order : Order) : Except TradingError OkxOrderBody := do
  let instId ← SymbolMapper.toOkx t order.symbol
  .ok { instId := instId
        clOrdId := clOrdId t order.clientOrderId
        side := order.side
        ordType := order.orderType
        sz := order.quantity
        px := if order.orderType = .limit then order.price else none }

lemma toOkx_of_orderBody {t : TextFunctions} {order : Order} {body : OkxOrderBody}
    (h : orderBody t order = .ok body) : SymbolMapper.toOkx t order.symbol = .ok body.instId := by
  simp only [orderBody] at h
  cases hi : SymbolMapper.toOkx t order.symbol with
  | error e => simp [hi, bind, Except.bind] at h
  | ok instId =>
    simp only [hi, bind, Except.bind, Except.ok.injEq] at h
    rw [← h]

/-- The first order of the data is normalized. -/
def normalizeFirst (t : TextFunctions) (fallback : Option Order) (missing : TradingError) :
    Except TradingError (List OkxOrderJson) → Except TradingError Order
  | .error e => .error e
  | .ok [] => .error missing
  | .ok (raw :: _) => normalizeOrder t raw fallback

def submitOrder (a : OkxAdapter) (client : OkxOrderBody → σ → ι → Attempt Unit OkxReply × σ) (fates : Fin 3 → ι)
    (order : Order) (s : σ) : Except TradingError Order × σ :=
  match orderBody a.text order with
  | .error e => (.error e, s)
  | .ok body =>
    let p := a.request "/api/v5/trade/order" (client body) fates s
    (normalizeFirst a.text (some order) (.orderRejected "OKX submit_order returned no data") p.1, p.2)

/-- `get_order`: the key goes out as `ordId`. -/
def getOrder (a : OkxAdapter) (client : String → String → σ → ι → Attempt Unit OkxReply × σ) (fates : Fin 3 → ι)
    (s : σ) (symbol exchangeOrderId : String) : Except TradingError Order :=
  match SymbolMapper.toOkx a.text symbol with
  | .error e => .error e
  | .ok instId =>
    normalizeFirst a.text none (.orderNotFound exchangeOrderId)
      (a.request "/api/v5/trade/order" (client instId exchangeOrderId) fates s).1

end OkxAdapter

/-! ### Orders at the exchange -/

/-- An order as the exchange keeps it; a market order has no price. -/
structure OkxOrder where
  ordId : String
  clOrdId : String
  instId : String
  side : OrderSide
  ordType : OrderType
  px : Option ℚ := none
  sz : ℚ := 0
  accFillSz : ℚ := 0
  state : String := "live"
  deriving DecidableEq, Repr

namespace OkxOrder

/-- The order in an answer. -/
def json (x : OkxOrder) : OkxOrderJson where
  ordId := some x.ordId
  clOrdId := some x.clOrdId
  instId := some x.instId
  side := some x.side.okx
  ordType := some x.ordType.okx
  px := x.px.map .value
  sz := some (.value x.sz)
  accFillSz := some (.value x.accFillSz)
  state := some x.state

/-- The answer to a submission names the order and nothing else of it. -/
def receipt (x : OkxOrder) : OkxOrderJson where
  ordId := some x.ordId
  clOrdId := some x.clOrdId

/-- What `get_order` makes of the order in an answer, its symbol mapped back. -/
def normalized (x : OkxOrder) (symbol : String) : Order where
  internalOrderId := "unknown"
  clientOrderId := x.clOrdId
  exchangeOrderId := some x.ordId
  symbol := symbol
  side := x.side
  orderType := x.ordType
  timeInForce := .gtc
  price := x.px
  quantity := x.sz
  filledQuantity := x.accFillSz
  status := (OkxAdapter.statusMap x.state).getD .unknown

end OkxOrder

/-- What becomes of an attempt to submit an order; a delivered one comes with the exchange
id it gets if it is accepted. -/
inductive OkxFate where
  | lost
  | unheard (ordId : String)
  | answered (ordId : String)
  | turnedAway (reply : OkxReply)
  deriving DecidableEq, Repr

/-- The exchange has an order with the client id. -/
def OkxKnown (orders : List OkxOrder) (clOrdId : String) : Prop :=
  ∃ x ∈ orders, x.clOrdId = clOrdId

instance decidableOkxKnown (orders : List OkxOrder) (clOrdId : String) : Decidable (OkxKnown orders clOrdId) :=
  inferInstanceAs (Decidable (∃ x ∈ orders, _))

/-- The order the exchange makes of the body. -/
def acceptedOkxOrder (body : OkxOrderBody) (ordId : String) : OkxOrder where
  ordId := ordId
  clOrdId := body.clOrdId
  instId := body.instId
  side := body.side
  ordType := body.ordType
  px := body.px
  sz := body.sz

/-- The exchange meets a delivered order; a client id it has is refused. -/
def deliverOkx (body : OkxOrderBody) (ordId : String) (orders : List OkxOrder) : OkxReply × List OkxOrder :=
  if OkxKnown orders body.clOrdId then (.response 200 (.object "1" "All operations failed" []), orders)
  else
    let x := acceptedOkxOrder body ordId
    (.response 200 (.object "0" "" [x.receipt]), orders ++ [x])

/-- `POST /api/v5/trade/order`. -/
def postOkxOrder (body : OkxOrderBody) (orders : List OkxOrder) : OkxFate → Attempt Unit OkxReply × List OkxOrder
  | .lost => (.failed (), orders)
  | .unheard ordId => (.failed (), (deliverOkx body ordId orders).2)
  | .answered ordId => (.answered (deliverOkx body ordId orders).1, (deliverOkx body ordId orders).2)
  | .turnedAway reply => (.answered reply, orders)

/-- Every order the exchange has beside the earlier ones was made of the body. -/
def OkxMade (body : OkxOrderBody) (before orders : List OkxOrder) : Prop :=
  ∀ x ∈ orders, x ∈ before ∨ ∃ ordId, x = acceptedOkxOrder body ordId

lemma okxMade_self (body : OkxOrderBody) (before : List OkxOrder) : OkxMade body before before :=
  fun _ hx => .inl hx

lemma deliverOkx_made {body : OkxOrderBody} {before orders : List OkxOrder} (ordId : String)
    (h : OkxMade body before orders) : OkxMade body before (deliverOkx body ordId orders).2 := by
  simp only [deliverOkx]
  split
  · exact h
  · intro x hx
    rcases List.mem_append.mp hx with hx | hx
    · exact h x hx
    · exact .inr ⟨ordId, List.mem_singleton.mp hx⟩

lemma postOkxOrder_made (body : OkxOrderBody) {before : List OkxOrder} (orders : List OkxOrder) (fate : OkxFate)
    (h : OkxMade body before orders) : OkxMade body before (postOkxOrder body orders fate).2 := by
  cases fate with
  | lost => exact h
  | unheard ordId => exact deliverOkx_made ordId h
  | answered ordId => exact deliverOkx_made ordId h
  | turnedAway reply => exact h

/-- `GET /api/v5/trade/order`: by the order whose exchange id is the key, code 51603
otherwise. -/
def queryOkxOrder (orders : List OkxOrder) (ordId : String) : OkxReply :=
  match orders.find? (fun x => x.ordId = ordId) with
  | some x => .response 200 (.object "0" "" [x.json])
  | none => .response 200 (.object "51603" "Order does not exist" [])

section Text

variable {t : TextFunctions}

lemma TextFunctions.UpperAscii.side (h : t.UpperAscii) (s : OrderSide) : t.upper s.okx = s.value := by
  cases s
  · exact (h "buy" (by decide +kernel)).trans (by decide +kernel)
  · exact (h "sell" (by decide +kernel)).trans (by decide +kernel)

lemma TextFunctions.UpperAscii.type (h : t.UpperAscii) (o : OrderType) : t.upper o.okx = o.value := by
  cases o
  · exact (h "market" (by decide +kernel)).trans (by decide +kernel)
  · exact (h "limit" (by decide +kernel)).trans (by decide +kernel)

lemma SymbolMapper.toCanonical_toOkx (h : t.UpperAscii) {symbol instId : String}
    (hi : SymbolMapper.toOkx t symbol = .ok instId) :
    SymbolMapper.toCanonical t instId = .ok (t.upper symbol) := by
  simp only [toOkx] at hi
  cases hm : SymbolMapper.get (t.upper symbol) with
  | none => simp [hm] at hi
  | some m =>
    simp only [hm, Except.ok.injEq] at hi
    subst hi
    have hmem : m ∈ mappings := List.mem_of_find?_eq_some hm
    have hcanonical : m.canonical = t.upper symbol := by simpa using List.find?_some hm
    obtain ⟨hascii, hupper, hback⟩ := canonicalOf_okx m hmem
    simp only [toCanonical, h m.okx hascii, hupper, hback, hcanonical]

lemma OkxOrder.normalizeOrder_json (h : t.UpperAscii) {x : OkxOrder} {symbol : String}
    (hs : SymbolMapper.toCanonical t x.instId = .ok symbol) :
    OkxAdapter.normalizeOrder t x.json none = .ok (x.normalized symbol) := by
  have hprice : x.json.px.mapM D = (.ok x.px : Except TradingError (Option ℚ)) := by
    simp only [json]
    cases x.px <;> rfl
  simp only [OkxAdapter.normalizeOrder, OkxAdapter.fallbackOrder, OkxAdapter.normalizeWith, hprice]
  simp only [json, Option.getD_some, hs, h.side, h.type, OrderSide.ofValue_value, OrderType.ofValue_value,
    enumMember_some, decOr, D, bind, Except.bind, normalized, Option.or_none]
  cases OkxAdapter.statusMap x.state <;> rfl

end Text

end CryptoTrader
