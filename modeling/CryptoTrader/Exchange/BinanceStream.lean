import CryptoTrader.Exchange.Binance
import CryptoTrader.Runtime.Events
import Mathlib.Algebra.BigOperators.Group.List.Basic
import Mathlib.Data.List.Dedup

/-!
# The user data stream of Binance

`dispatch_raw_event` wraps a stream message in an exchange event whose payload has the one
key `raw`, and `process_exchange_event` looks its order up by the payload's key
`exchange_order_id`. So no execution report reaches its order, and the order is as the
reports say only if it was so before them (`execution_reports`).
-/

namespace CryptoTrader

open KeyedTable

/-- The keys of a stream message or of a trade's JSON object that the adapter reads. -/
structure BinanceStreamJson where
  e : Option String := none
  s : Option String := none
  X : Option String := none
  i : Option ℕ := none
  c : Option String := none
  S : Option String := none
  t : Option ℤ := none
  /-- The price and the quantity of the order. -/
  p : Option RawDecimal := none
  q : Option RawDecimal := none
  /-- The price and the quantity of the last execution. -/
  L : Option RawDecimal := none
  l : Option RawDecimal := none
  n : Option RawDecimal := none
  symbol : Option String := none
  orderId : Option ℕ := none
  clientOrderId : Option String := none
  side : Option String := none
  tradeId : Option ℤ := none
  price : Option RawDecimal := none
  qty : Option RawDecimal := none
  lastExecutedQty : Option RawDecimal := none
  commission : Option RawDecimal := none
  commissionAsset : Option String := none
  deriving DecidableEq, Repr

/-- A value in the payload of an exchange event. -/
inductive PayloadValue where
  | text (s : String)
  | decimal (d : RawDecimal)
  | raw (message : BinanceStreamJson)
  deriving DecidableEq, Repr

def PayloadValue.text? : PayloadValue → Option String
  | text s => some s
  | _ => none

def PayloadValue.decimal? : PayloadValue → Option RawDecimal
  | decimal d => some d
  | _ => none

/-- `payload.get(key)`. -/
def payloadGet (key : String) (payload : List (String × PayloadValue)) : Option PayloadValue :=
  (row Prod.fst key payload).map Prod.snd

/-- The payload by the keys that the engine reads. -/
def eventPayload (payload : List (String × PayloadValue)) : EventPayload where
  exchangeOrderId := (payloadGet "exchange_order_id" payload).bind PayloadValue.text?
  fillId := (payloadGet "fill_id" payload).bind PayloadValue.text?
  tradeId := (payloadGet "trade_id" payload).bind PayloadValue.text?
  fillPrice := (payloadGet "fill_price" payload).bind PayloadValue.decimal?
  fillQuantity := (payloadGet "fill_quantity" payload).bind PayloadValue.decimal?
  fee := (payloadGet "fee" payload).bind PayloadValue.decimal?
  feeCurrency := (payloadGet "fee_currency" payload).bind PayloadValue.text?
  reason := (payloadGet "reason" payload).bind PayloadValue.text?

def makeExchangeEvent (minted : String) (eventType : ExchangeEventType) (symbol : Option String)
    (payload : List (String × PayloadValue)) : ExchangeEvent where
  eventId := minted
  eventType := eventType
  symbol := symbol
  payload := eventPayload payload

namespace BinanceAdapter

/-- The event type of an execution report. -/
def reportType (status : String) : ExchangeEventType :=
  if status = "PARTIALLY_FILLED" then .orderPartiallyFilled
  else if status = "FILLED" then .orderFilled
  else if status = "CANCELED" then .orderCancelled
  else if status ∈ ["REJECTED", "EXPIRED", "EXPIRED_IN_MATCH"] then .orderRejected
  else .orderAck

/-- The event `dispatch_raw_event` hands to every subscriber. -/
def rawEvent (minted : String) (raw : BinanceStreamJson) : ExchangeEvent :=
  match raw.e.getD "" with
  | "executionReport" => makeExchangeEvent minted (reportType (raw.X.getD "")) raw.s [("raw", .raw raw)]
  | "depthUpdate" => makeExchangeEvent minted .marketDelta raw.s [("raw", .raw raw)]
  | "outboundAccountPosition" => makeExchangeEvent minted .balanceUpdate none [("raw", .raw raw)]
  | _ => makeExchangeEvent minted .marketSnapshot raw.s [("raw", .raw raw)]

/-- `dispatch_raw_event` with the engine's `_enqueue_event` as the handler of every
subscription: what it puts into the event queue. -/
def dispatchRawEvent (subscriptions : List String) (minted : String) (raw : BinanceStreamJson) :
    List ExchangeEvent :=
  subscriptions.map (fun _ => rawEvent minted raw)

/-- The field of a trade under its long name, else under its name in the stream. -/
def field {α : Type} (long short : Option α) : Option α := long <|> short

def normalizeFill (raw : BinanceStreamJson) : Except TradingError Fill := do
  let price ← decOr (field raw.price raw.p) 0
  let quantity ← decOr (field raw.qty (field raw.q raw.lastExecutedQty)) 0
  let fee ← decOr (field raw.commission raw.n) 0
  return {
    fillId := ((field raw.tradeId raw.t).map toString).getD "unknown"
    tradeId := some (((field raw.tradeId raw.t).map toString).getD "None")
    orderId := ((field raw.orderId raw.i).map toString).getD "unknown"
    clientOrderId := field raw.clientOrderId raw.c
    exchangeOrderId := some (((field raw.orderId raw.i).map toString).getD "None")
    symbol := (field raw.symbol raw.s).getD ""
    side := if (field raw.side raw.S).getD "BUY" = "BUY" then .buy else .sell
    price := price
    quantity := quantity
    fee := fee
    feeCurrency := raw.commissionAsset }

/-- Of an execution report `normalize_fill` takes the quantity and the price of the whole
order, whatever was executed last. -/
lemma normalizeFill_report {raw : BinanceStreamJson} {fill : Fill} {p q : ℚ}
    (hlong : raw.price = none ∧ raw.qty = none) (hp : raw.p = some (.value p)) (hq : raw.q = some (.value q))
    (h : normalizeFill raw = .ok fill) : fill.price = p ∧ fill.quantity = q := by
  obtain ⟨hprice, hqty⟩ := hlong
  simp only [normalizeFill, bind_eq_ok] at h
  obtain ⟨price, hp', quantity, hq', fee, -, hfill⟩ := h
  have hfields : field raw.price raw.p = some (.value p) ∧
      field raw.qty (field raw.q raw.lastExecutedQty) = some (.value q) := by
    rw [hprice, hqty, hp, hq]
    exact ⟨rfl, rfl⟩
  rw [hfields.1] at hp'
  rw [hfields.2] at hq'
  cases hp'
  cases hq'
  cases hfill
  exact ⟨rfl, rfl⟩

end BinanceAdapter

/-! ### Execution reports -/

/-- A message of the stream, with the ids minted for its event and each time it is processed. -/
structure Feed where
  raw : BinanceStreamJson
  minted : String
  ids : ℕ → EventIds

/-- The trade id and the quantity of the execution a report is about, if it is about one. -/
def BinanceStreamJson.execution (raw : BinanceStreamJson) : Option (ℤ × ℚ) :=
  match raw.t, raw.l with
  | some t, some (.value l) => if 0 ≤ t then some (t, l) else none
  | _, _ => none

/-- The status after the report, if it is a terminal one. -/
def BinanceStreamJson.terminalStatus (raw : BinanceStreamJson) : Option OrderStatus :=
  (BinanceAdapter.statusMap (raw.X.getD "")).filter
    (fun status => status ∈ [.filled, .cancelled, .rejected, .expired])

/-- Execution reports about the order with an exchange id. -/
structure OrderReports (x : String) where
  feeds : List Feed
  about : ∀ f ∈ feeds, f.raw.e = some "executionReport" ∧ f.raw.i.map toString = some x

namespace OrderReports

variable {x : String} (R : OrderReports x)

def reported : ℚ :=
  ((R.feeds.filterMap (·.raw.execution)).dedup.map Prod.snd).sum

def final : Option OrderStatus :=
  (R.feeds.filterMap (·.raw.terminalStatus)).getLast?

/-- The order is as the reports say. -/
def Agree (order : Order) : Prop :=
  order.filledQuantity = R.reported ∧ ∀ status, R.final = some status → order.status = status

def Reached {σ : Type} (db : Db σ) : Prop :=
  ∃ order, db.store.getByExchange x = some order ∧ R.Agree order

end OrderReports

variable {σ : Type} (h : EventHandlers σ)

/-- The engine takes the events of a message off its queue. -/
def processFeed (subscriptions : List String) (db : Db σ) (f : Feed) : Db σ :=
  (BinanceAdapter.dispatchRawEvent subscriptions f.minted f.raw).zipIdx.foldl
    (fun db event => (processExchangeEvent h (f.ids event.2) event.1 db).2) db

def processFeeds (subscriptions : List String) (feeds : List Feed) (db : Db σ) : Db σ :=
  feeds.foldl (processFeed h subscriptions) db

lemma rawEvent_exchangeOrderId (minted : String) (raw : BinanceStreamJson) :
    (BinanceAdapter.rawEvent minted raw).payload.exchangeOrderId = none := by
  unfold BinanceAdapter.rawEvent
  split <;> rfl

lemma rawEvent_isMarket {minted : String} {raw : BinanceStreamJson} (he : raw.e = some "executionReport") :
    (BinanceAdapter.rawEvent minted raw).isMarket = false := by
  simp only [BinanceAdapter.rawEvent, he, Option.getD_some, makeExchangeEvent, ExchangeEvent.isMarket,
    BinanceAdapter.reportType]
  split_ifs <;> rfl

/-- The event of an execution report is dropped. -/
lemma process_report {minted : String} {raw : BinanceStreamJson} (he : raw.e = some "executionReport")
    (ids : EventIds) (db : Db σ) :
    processExchangeEvent h ids (BinanceAdapter.rawEvent minted raw) db = (.ok (), db) := by
  have horder : eventOrder (BinanceAdapter.rawEvent minted raw) db.store = none := by
    rw [eventOrder, rawEvent_exchangeOrderId]
  rw [processExchangeEvent, rawEvent_isMarket he, horder]
  rfl

/-- A fold that no element moves. -/
lemma foldl_stays {α β : Type} {g : β → α → β} {b : β} {l : List α} (hg : ∀ a ∈ l, g b a = b) : l.foldl g b = b := by
  induction l with
  | nil => rfl
  | cons a l ih =>
    rw [List.foldl_cons, hg a List.mem_cons_self]
    exact ih (fun a' h' => hg a' (List.mem_cons_of_mem _ h'))

lemma processFeed_eq (subscriptions : List String) (db : Db σ) {f : Feed}
    (he : f.raw.e = some "executionReport") : processFeed h subscriptions db f = db := by
  apply foldl_stays
  intro event hevent
  obtain ⟨_, _, hmem⟩ := List.mem_map.mp (List.fst_mem_of_mem_zipIdx hevent)
  rw [← hmem, process_report h he]

lemma processFeeds_eq (subscriptions : List String) {x : String} (R : OrderReports x) (db : Db σ) :
    processFeeds h subscriptions R.feeds db = db := by
  apply foldl_stays
  intro f hf
  exact processFeed_eq h subscriptions db (R.about f hf).1

/-- The reports leave the order as it is, so it agrees with them after they are processed
if and only if it did before. -/
theorem execution_reports (subscriptions : List String) {x : String} (R : OrderReports x) (db : Db σ) :
    R.Reached (processFeeds h subscriptions R.feeds db) ↔ R.Reached db := by
  rw [processFeeds_eq]

/-- An acknowledged order for two units, with the exchange id 7. -/
def orderSevenDb : Db Unit :=
  ⟨Runs.run exec {} (submittedLife ++ [.lifecycle "o1" (.ack "7" none) "e4"]), ()⟩

/-- The report of its full execution. -/
def filledReport : BinanceStreamJson where
  e := some "executionReport"
  s := some "BTCUSDT"
  X := some "FILLED"
  i := some 7
  S := some "BUY"
  t := some 1
  p := some (.value 100)
  q := some (.value 2)
  L := some (.value 100)
  l := some (.value 2)

def filledReports : OrderReports "7" where
  feeds := [⟨filledReport, "exevt_1", countedIds⟩]
  about := by
    intro f hf
    obtain rfl := List.mem_singleton.mp hf
    exact ⟨rfl, rfl⟩

/-- The keys of the engine's three subscriptions. -/
def engineSubscriptions : List String := ["binance_order_1", "binance_md_*_2", "binance_account_3"]

/-- The order is still open with nothing filled. -/
theorem filled_report_dropped :
    ¬∀ (db : Db Unit) (R : OrderReports "7") (r : Order), db.store.getByExchange "7" = some r →
      R.Reached (processFeeds quietHandlers engineSubscriptions R.feeds db) := by
  intro h
  obtain ⟨r, hr⟩ := Option.isSome_iff_exists.mp
    (by decide +kernel : (orderSevenDb.store.getByExchange "7").isSome = true)
  obtain ⟨order, horder, hfilled, _⟩ := h orderSevenDb filledReports r hr
  have hnone : ∀ o ∈ (processFeeds quietHandlers engineSubscriptions filledReports.feeds orderSevenDb).store.orders,
      o.filledQuantity ≠ filledReports.reported := by
    decide +kernel
  exact hnone order (OrderStore.getByExchange_mem horder).1 hfilled

end CryptoTrader
