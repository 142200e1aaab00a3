import CryptoTrader.Order.Consistency

/-!
# Processing one exchange event

`process_exchange_event` of the engine: find the order by its exchange id, then one call
of the order manager. An event for an exchange id that no order has is dropped.
-/

namespace CryptoTrader

open OrderStore

/-- What the engine reaches outside the order tables while it processes an event: the
settlement callback, `_process_market_event` and `portfolio.refresh`. -/
structure EventHandlers (σ : Type) where
  settle : SettlementCallback σ
  market : ExchangeEvent → σ → Except TradingError Unit × σ
  refresh : σ → Except TradingError Unit × σ

/-- The ids minted while one event is processed. -/
structure EventIds where
  eventId : String
  fillId : String
  fill : FillIds
  deriving DecidableEq, Repr

/-- `value or default` for an entry that holds a decimal as text. -/
def decimalOr (raw : Option RawDecimal) (default : ℚ) : Except TradingError ℚ :=
  match raw with
  | some r => D r
  | none => .ok default

def fillFromPayload (order : Order) (payload : EventPayload) (minted : String) :
    Except TradingError Fill := do
  let price ← decimalOr payload.fillPrice (order.price.getD 0)
  let quantity ← decimalOr payload.fillQuantity 0
  let fee ← decimalOr payload.fee 0
  return {
    fillId := orElseNew payload.fillId minted
    tradeId := payload.tradeId
    orderId := order.internalOrderId
    clientOrderId := some order.clientOrderId
    exchangeOrderId := if truthy payload.exchangeOrderId then payload.exchangeOrderId else order.exchangeOrderId
    symbol := order.symbol
    side := order.side
    price := price
    quantity := quantity
    fee := fee
    feeCurrency := payload.feeCurrency }

/-- What an event makes the engine do once its order is found. -/
inductive EventAction where
  | lifecycle (l : Lifecycle)
  | fill (fill : Fill)
  | refresh
  | nothing
  deriving DecidableEq, Repr

/-- The branches of `process_exchange_event` after the order is found. -/
def eventAction (order : Order) (event : ExchangeEvent) (exchangeOrderId minted : String) :
    Except TradingError EventAction :=
  match event.eventType with
  | .orderAck => .ok (.lifecycle (.ack exchangeOrderId (some event.eventId)))
  | .orderOpened => .ok (.lifecycle (.opened (some event.eventId)))
  | .orderPartiallyFilled | .orderFilled =>
    match fillFromPayload order event.payload minted with
    | .ok fill => .ok (.fill fill)
    | .error e => .error e
  | .orderCancelled => .ok (.lifecycle (.cancelConfirm (some event.eventId)))
  | .orderRejected => .ok (.lifecycle
      (.reject (event.payload.reason.getD "exchange rejection") (some event.eventId)))
  | .balanceUpdate => .ok .refresh
  | _ => .ok .nothing

def runAction {σ : Type} (h : EventHandlers σ) (ids : EventIds) (orderId : String) (action : EventAction)
    (db : Db σ) : Except TradingError Unit × Db σ :=
  match action with
  | .lifecycle l =>
    match l.run orderId ids.eventId db.store with
    | .ok (_, s) => (.ok (), ⟨s, db.rest⟩)
    | .error e => (.error e, db)
  | .fill fill =>
    match applyFill h.settle fill ids.fill db with
    | (.ok _, db') => (.ok (), db')
    | (.error e, db') => (.error e, db')
  | .refresh =>
    match h.refresh db.rest with
    | (r, rest) => (r, ⟨db.store, rest⟩)
  | .nothing => (.ok (), db)

/-- The order an event is for, with the exchange id it was found by. -/
def eventOrder (event : ExchangeEvent) (s : OrderStore) : Option (Order × String) :=
  match event.payload.exchangeOrderId with
  | none => none
  | some x => if x = "" then none else (s.getByExchange x).map (fun order => (order, x))

def ExchangeEvent.isMarket (event : ExchangeEvent) : Bool :=
  event.eventType = .marketDelta || event.eventType = .marketSnapshot

def processExchangeEvent {σ : Type} (h : EventHandlers σ) (ids : EventIds) (event : ExchangeEvent)
    (db : Db σ) : Except TradingError Unit × Db σ :=
  if event.isMarket then
    match h.market event db.rest with
    | (r, rest) => (r, ⟨db.store, rest⟩)
  else
    match eventOrder event db.store with
    -- the acknowledgement may arrive before `submit_order` returns
    | none => (.ok (), db)
    | some (order, x) =>
      match eventAction order event x ids.fillId with
      | .error e => (.error e, db)
      | .ok action => runAction h ids order.internalOrderId action db

lemma eventOrder_eq {event : ExchangeEvent} {s : OrderStore} {x : String}
    (hx : event.payload.exchangeOrderId = some x) (hne : x ≠ "") :
    eventOrder event s = (s.getByExchange x).map (fun order => (order, x)) := by
  simp [eventOrder, hx, hne]

/-- The payload with which the exchange reports a fill of its order `x`. -/
def fillPayload (x : String) (f : Fill) : EventPayload where
  exchangeOrderId := some x
  fillId := some f.fillId
  tradeId := f.tradeId
  fillPrice := some (.value f.price)
  fillQuantity := some (.value f.quantity)
  fee := some (.value f.fee)
  feeCurrency := f.feeCurrency

/-- The event reports the fill `f` of the exchange's order `x`. -/
def Carries (x : String) (event : ExchangeEvent) (f : Fill) : Prop :=
  (event.eventType = .orderPartiallyFilled ∨ event.eventType = .orderFilled) ∧
    event.payload = fillPayload x f

instance (x : String) (event : ExchangeEvent) (f : Fill) : Decidable (Carries x event f) :=
  inferInstanceAs (Decidable (_ ∧ _))

/-- The fill `_fill_from_payload` reads from the report of `f` for the local order `r`. -/
def reportedFill (r : Order) (x : String) (f : Fill) : Fill where
  fillId := f.fillId
  tradeId := f.tradeId
  orderId := r.internalOrderId
  clientOrderId := some r.clientOrderId
  exchangeOrderId := some x
  symbol := r.symbol
  side := r.side
  price := f.price
  quantity := f.quantity
  fee := f.fee
  feeCurrency := f.feeCurrency

lemma fillFromPayload_report (r : Order) {x : String} (hx : x ≠ "") {f : Fill} (hf : f.fillId ≠ "")
    (minted : String) : fillFromPayload r (fillPayload x f) minted = .ok (reportedFill r x f) := by
  simp only [fillFromPayload, fillPayload, decimalOr, D, orElseNew, truthy, bne_iff_ne, ne_eq, hx, hf,
    not_false_eq_true, if_true, Option.getD_some, reportedFill]
  rfl

lemma Carries.eventAction {x : String} {event : ExchangeEvent} {f : Fill} (h : Carries x event f)
    (hx : x ≠ "") (hf : f.fillId ≠ "") (r : Order) (x' minted : String) :
    eventAction r event x' minted = .ok (.fill (reportedFill r x f)) := by
  rcases h with ⟨ht | ht, hp⟩ <;> simp only [CryptoTrader.eventAction, ht, hp, fillFromPayload_report r hx hf]

lemma Carries.unique {x : String} {event : ExchangeEvent} {f g : Fill} (hf : Carries x event f)
    (hg : Carries x event g) : f.fillId = g.fillId := by
  have h : some f.fillId = some g.fillId := congrArg EventPayload.fillId (hf.2.symm.trans hg.2)
  exact Option.some.inj h

/-! ### Handlers and events of one order -/

def quietHandlers : EventHandlers Unit where
  settle := fun _ _ _ => (.ok (), ())
  market := fun _ _ => (.ok (), ())
  refresh := fun _ => (.ok (), ())

def countedIds (n : Nat) : EventIds :=
  ⟨s!"evt_{n}", s!"fill_{n}", ⟨s!"trd_{n}", s!"last_{n}", s!"fevt_{n}"⟩⟩

def acknowledgedDb : Db Unit :=
  ⟨Runs.run exec {} (submittedLife ++ [.lifecycle "o1" (.ack "x1" none) "e4"]), ()⟩

def ackEvent : ExchangeEvent where
  eventId := "exevt_1"
  eventType := .orderAck
  payload := { exchangeOrderId := some "x1" }

def fullFillEvent : ExchangeEvent where
  eventId := "exevt_2"
  eventType := .orderFilled
  payload := fillPayload "x1" (sampleFill "f1" 2)

end CryptoTrader
