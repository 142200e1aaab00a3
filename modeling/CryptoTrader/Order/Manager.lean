import CryptoTrader.Order.StateMachine
import CryptoTrader.Lib.KeyedTable
import Mathlib.Algebra.Order.Field.Rat

/-!
# The order manager

`order/manager.py` over the three order tables. A call that commits one transaction is a
function `OrderStore → Except TradingError (α × OrderStore)`: an exception rolls the
transaction back, so it leaves the tables as they were. Identifiers that `new_id` mints
inside a call are arguments of the call.
-/

namespace CryptoTrader

open KeyedTable

/-- The tables `orders`, `order_events` and `fills`, in insertion order. -/
structure OrderStore where
  orders : List Order := []
  events : List OrderEvent := []
  fills : List Fill := []
  deriving DecidableEq, Repr

namespace OrderStore

def get (s : OrderStore) (orderId : String) : Option Order :=
  row Order.internalOrderId orderId s.orders

def getByClient (s : OrderStore) (clientOrderId : String) : Option Order :=
  row Order.clientOrderId clientOrderId s.orders

def getByExchange (s : OrderStore) (exchangeOrderId : String) : Option Order :=
  row Order.exchangeOrderId (some exchangeOrderId) s.orders

def getFill (s : OrderStore) (fillId : String) : Option Fill :=
  row Fill.fillId fillId s.fills

def getEvent (s : OrderStore) (eventId : String) : Option OrderEvent :=
  row OrderEvent.eventId eventId s.events

def listEvents (s : OrderStore) (orderId : String) : List OrderEvent :=
  s.events.filter (fun e => e.orderId = orderId)

/-- The `FillORM` rows of an order. -/
def fillsOf (s : OrderStore) (orderId : String) : List Fill :=
  s.fills.filter (fun f => f.orderId = orderId)

/-- The statuses `list_open` selects. -/
def openStatuses : List OrderStatus :=
  [.submitted, .acknowledged, .opened, .partiallyFilled, .cancelPending, .unknown]

def listOpen (s : OrderStore) : List Order :=
  s.orders.filter (fun o => o.status ∈ openStatuses)

def countOpen (s : OrderStore) : Nat :=
  s.listOpen.length

/-- UNIQUE(exchange_order_id): no other row holds the exchange id of `r`. -/
def exchangeIdFree (s : OrderStore) (r : Order) : Prop :=
  ∀ x, r.exchangeOrderId = some x →
    ∀ r' ∈ s.orders, r'.internalOrderId ≠ r.internalOrderId → r'.exchangeOrderId ≠ some x

instance (s : OrderStore) (r : Order) : Decidable (s.exchangeIdFree r) :=
  match h : r.exchangeOrderId with
  | none => .isTrue (by simp [exchangeIdFree, h])
  | some x => decidable_of_iff
      (∀ r' ∈ s.orders, r'.internalOrderId ≠ r.internalOrderId → r'.exchangeOrderId ≠ some x)
      (by simp [exchangeIdFree, h])

/-- UNIQUE(trade_id) on the fills. -/
def tradeIdFree (s : OrderStore) (tradeId : String) : Prop :=
  ∀ f ∈ s.fills, f.tradeId ≠ some tradeId

instance (s : OrderStore) (tradeId : String) : Decidable (s.tradeIdFree tradeId) :=
  inferInstanceAs (Decidable (∀ f ∈ s.fills, f.tradeId ≠ some tradeId))

/-- The write every later transaction on an order makes: its row is replaced, an event
and fills are appended. -/
def commit (s : OrderStore) (r : Order) (event : OrderEvent) (fills : List Fill) : OrderStore :=
  ⟨put Order.internalOrderId r s.orders, s.events ++ [event], s.fills ++ fills⟩

end OrderStore

open OrderStore

/-! ### Creating an order -/

def reuseOrConflict (existing : Order) (intent : OrderIntent) : Except TradingError Order :=
  if existing.symbol = intent.symbol ∧ existing.side = intent.side ∧
      existing.orderType = intent.orderType ∧
      existing.price.getD 0 = intent.price.getD 0 ∧ existing.quantity = intent.quantity then
    .ok existing
  else .error (.idempotencyConflict
    s!"client_order_id {intent.clientOrderId} already used for a different order")

/-- The row `create_from_intent` inserts. -/
def intentRow (intent : OrderIntent) (mode : TradingMode) (orderId : String) : Order where
  internalOrderId := orderId
  clientOrderId := intent.clientOrderId
  symbol := intent.symbol
  side := intent.side
  orderType := intent.orderType
  timeInForce := intent.timeInForce
  price := intent.price
  quantity := intent.quantity
  filledQuantity := 0
  status := .created
  tradingMode := mode
  strategyId := intent.strategyId
  runId := intent.runId
  marketType := intent.marketType
  positionSide := intent.positionSide
  reduceOnly := intent.reduceOnly

def createdEvent (intent : OrderIntent) (mode : TradingMode) (orderId eventId : String) :
    OrderEvent where
  eventId := eventId
  orderId := orderId
  clientOrderId := some intent.clientOrderId
  eventType := .orderCreated
  statusAfter := .created
  payload := .tradingMode mode

/-- The insert of `create_from_intent`. The row is flushed outside the `try`, so a taken
order or client id raises; a taken event id raises after the rollback, which has removed
the row. -/
def createInsert (intent : OrderIntent) (mode : TradingMode) (orderId eventId : String)
    (s : OrderStore) : Except TradingError (Order × OrderStore) :=
  if s.get orderId = none ∧ s.getByClient intent.clientOrderId = none ∧ s.getEvent eventId = none then
    .ok (intentRow intent mode orderId,
      ⟨s.orders ++ [intentRow intent mode orderId],
        s.events ++ [createdEvent intent mode orderId eventId], s.fills⟩)
  else .error (.integrityError "orders")

def createFromIntent (intent : OrderIntent) (mode : TradingMode) (orderId eventId : String)
    (s : OrderStore) : Except TradingError (Order × OrderStore) :=
  match s.getByClient intent.clientOrderId with
  | some existing =>
    match reuseOrConflict existing intent with
    | .ok order => .ok (order, s)
    | .error e => .error e
  | none => createInsert intent mode orderId eventId s

/-! ### Recording events -/

/-- The keyword arguments of `_record_event`. -/
structure EventArgs where
  eventId : Option String := none
  exchangeOrderId : Option String := none
  rejectionReason : Option String := none
  payload : OrderEventPayload := .empty
  deriving DecidableEq, Repr

/-- The row `_record_event` writes over `r`. -/
def recordedRow (r : Order) (statusAfter : OrderStatus) (args : EventArgs) (minted : String) : Order :=
  { r with
    status := statusAfter
    lastEventId := some (orElseNew args.eventId minted)
    exchangeOrderId := if truthy args.exchangeOrderId then args.exchangeOrderId else r.exchangeOrderId
    rejectionReason := if truthy args.rejectionReason then args.rejectionReason else r.rejectionReason }

/-- The event `_record_event` inserts for the order it was handed. -/
def recordedEvent (order : Order) (eventType : OrderEventType) (statusAfter : OrderStatus)
    (args : EventArgs) (minted : String) : OrderEvent where
  eventId := orElseNew args.eventId minted
  orderId := order.internalOrderId
  clientOrderId := some order.clientOrderId
  exchangeOrderId := if truthy args.exchangeOrderId then args.exchangeOrderId else order.exchangeOrderId
  eventType := eventType
  statusAfter := statusAfter
  payload := args.payload

/-- `OrderManager._record_event`: an event id that is already recorded rolls the whole
write back and answers with the recorded event. -/
def recordEvent (order : Order) (eventType : OrderEventType) (statusAfter : OrderStatus)
    (args : EventArgs) (minted : String) (s : OrderStore) :
    Except TradingError (OrderEvent × OrderStore) :=
  match s.get order.internalOrderId with
  | none => .error (.orderNotFound order.internalOrderId)
  | some r =>
    let r' := recordedRow r statusAfter args minted
    let event := recordedEvent order eventType statusAfter args minted
    match s.getEvent event.eventId with
    | some existing => .ok (existing, s)
    | none =>
      if s.exchangeIdFree r' then .ok (event, s.commit r' event [])
      else .error (.integrityError "orders.exchange_order_id")

/-- What `transition` has in hand between its two sessions. -/
structure PendingTransition where
  order : Order
  statusAfter : OrderStatus
  noop : Bool
  deriving DecidableEq, Repr

/-- The first session of `transition`: read the order, compute the status to write. -/
def transitionRead (orderId : String) (eventType : OrderEventType) (s : OrderStore) :
    Except TradingError PendingTransition :=
  match s.get orderId with
  | none => .error (.orderNotFound orderId)
  | some order =>
    match OrderStateMachine.transition order.status eventType with
    | .error e => .error e
    | .ok r =>
      if r.noop && !r.changed then .ok ⟨order, order.status, true⟩
      else .ok ⟨order, r.newStatus, false⟩

/-- The second session of `transition`. -/
def transitionWrite (p : PendingTransition) (eventType : OrderEventType) (args : EventArgs)
    (minted : String) (s : OrderStore) : Except TradingError (Option Order × OrderStore) :=
  match recordEvent p.order eventType p.statusAfter args minted s with
  | .error e => .error e
  | .ok (_, s') => .ok (if p.noop then some p.order else s'.get p.order.internalOrderId, s')

def transition (orderId : String) (eventType : OrderEventType) (args : EventArgs) (minted : String)
    (s : OrderStore) : Except TradingError (Option Order × OrderStore) :=
  match transitionRead orderId eventType s with
  | .error e => .error e
  | .ok p => transitionWrite p eventType args minted s

def validate (orderId minted : String) : OrderStore → Except TradingError (Option Order × OrderStore) :=
  transition orderId .orderValidated {} minted

def submitting (orderId minted : String) : OrderStore → Except TradingError (Option Order × OrderStore) :=
  transition orderId .orderSubmitting {} minted

def submitted (orderId minted : String) : OrderStore → Except TradingError (Option Order × OrderStore) :=
  transition orderId .orderSubmitted {} minted

def ack (orderId exchangeOrderId : String) (eventId : Option String) (minted : String) :
    OrderStore → Except TradingError (Option Order × OrderStore) :=
  transition orderId .orderAcknowledged { eventId, exchangeOrderId := some exchangeOrderId } minted

def opened (orderId : String) (eventId : Option String) (minted : String) :
    OrderStore → Except TradingError (Option Order × OrderStore) :=
  transition orderId .orderOpened { eventId } minted

def cancelPending (orderId reason minted : String) :
    OrderStore → Except TradingError (Option Order × OrderStore) :=
  transition orderId .orderCancelPending { payload := .reason reason } minted

def cancelConfirm (orderId : String) (eventId : Option String) (minted : String) :
    OrderStore → Except TradingError (Option Order × OrderStore) :=
  transition orderId .orderCancelled { eventId } minted

def reject (orderId reason : String) (eventId : Option String) (minted : String) :
    OrderStore → Except TradingError (Option Order × OrderStore) :=
  transition orderId .orderRejected
    { eventId, rejectionReason := some reason, payload := .reason reason } minted

def expire (orderId minted : String) : OrderStore → Except TradingError (Option Order × OrderStore) :=
  transition orderId .orderExpired {} minted

def markUnknown (orderId reason minted : String) :
    OrderStore → Except TradingError (Option Order × OrderStore) :=
  transition orderId .orderUnknown { payload := .reason reason } minted

/-! ### Applying fills -/

/-- The ids `apply_fill` mints: a trade id, `last_event_id` and the id of its event. -/
structure FillIds where
  tradeId : String
  lastEventId : String
  eventId : String
  deriving DecidableEq, Repr

/-- What `apply_fill` returns. -/
structure FillResult where
  order : Option Order
  fill : Fill
  newlyApplied : Bool
  deriving DecidableEq, Repr

/-- The order row a fill is applied to: by exchange order id, else by order id. -/
def fillOrder (fill : Fill) (s : OrderStore) : Option Order :=
  match (if truthy fill.exchangeOrderId then s.getByExchange (fill.exchangeOrderId.getD "") else none) with
  | some r => some r
  | none => s.get fill.orderId

def fillEventType (r : Order) (fill : Fill) : OrderEventType :=
  if r.filledQuantity + fill.quantity = r.quantity then .orderFilled else .orderPartiallyFilled

/-- `new_avg`. -/
def newAverage (r : Order) (fill : Fill) : ℚ :=
  if 0 < r.filledQuantity + fill.quantity then
    (r.filledQuantity * r.avgFillPrice.getD 0 + fill.price * fill.quantity) /
      (r.filledQuantity + fill.quantity)
  else 0

/-- The order row after a fill. -/
def filledRow (r : Order) (fill : Fill) (status : OrderStatus) (ids : FillIds) : Order :=
  { r with
    filledQuantity := r.filledQuantity + fill.quantity
    avgFillPrice := some (newAverage r fill)
    status := status
    lastEventId := some ids.lastEventId
    exchangeOrderId := if truthy fill.exchangeOrderId then fill.exchangeOrderId else r.exchangeOrderId }

def filledEvent (r' : Order) (fill : Fill) (eventType : OrderEventType) (ids : FillIds) : OrderEvent where
  eventId := ids.eventId
  orderId := r'.internalOrderId
  clientOrderId := some r'.clientOrderId
  exchangeOrderId := r'.exchangeOrderId
  eventType := eventType
  statusAfter := r'.status
  payload := .fill fill.fillId fill.quantity

/-- The `FillORM` row. -/
def fillRow (r' : Order) (fill : Fill) (ids : FillIds) : Fill :=
  { fill with
    tradeId := some (orElseNew fill.tradeId ids.tradeId)
    orderId := r'.internalOrderId
    clientOrderId := some r'.clientOrderId
    exchangeOrderId := r'.exchangeOrderId }

/-- The transaction of `OrderManager.apply_fill`. -/
def applyFillTxn (fill : Fill) (ids : FillIds) (s : OrderStore) :
    Except TradingError (FillResult × OrderStore) :=
  match s.getFill fill.fillId with
  | some existing => .ok (⟨s.get existing.orderId, existing, false⟩, s)
  | none =>
    match fillOrder fill s with
    | none => .error (.orderNotFound s!"cannot apply fill for unknown order {fill.orderId}")
    | some r =>
      if r.quantity < r.filledQuantity + fill.quantity then
        .error (.fillExceedsRemaining fill.quantity (r.quantity - r.filledQuantity))
      else
        match OrderStateMachine.transition r.status (fillEventType r fill) with
        | .error e => .error e
        | .ok result =>
          let r' := filledRow r fill result.newStatus ids
          let event := filledEvent r' fill (fillEventType r fill) ids
          let f := fillRow r' fill ids
          -- a violated constraint rolls back; no fill has this id, so the exception is raised again
          if s.exchangeIdFree r' ∧ s.getEvent ids.eventId = none ∧
              s.tradeIdFree (orElseNew fill.tradeId ids.tradeId) then
            .ok (⟨some r', fill, true⟩, s.commit r' event [f])
          else .error (.integrityError "fills")

/-- The settlement callback of a manager, called once the commit of a new fill is done:
how it ends, and what it has written by then to tables other than the order tables. -/
abbrev SettlementCallback (σ : Type) :=
  OrderStore → Fill → σ → Except TradingError Unit × σ

/-- The order tables beside the rest of the database. -/
structure Db (σ : Type) where
  store : OrderStore
  rest : σ

/-- `OrderManager.apply_fill`: the transaction, then the settlement callback if the fill
is new. The callback runs after the commit, so its exception does not undo the fill. -/
def applyFill {σ : Type} (settle : SettlementCallback σ) (fill : Fill) (ids : FillIds) (db : Db σ) :
    Except TradingError FillResult × Db σ :=
  match applyFillTxn fill ids db.store with
  | .error e => (.error e, db)
  | .ok (result, s) =>
    if result.newlyApplied then
      match settle s fill db.rest with
      | (.ok _, rest) => (.ok result, ⟨s, rest⟩)
      | (.error e, rest) => (.error e, ⟨s, rest⟩)
    else (.ok result, ⟨s, db.rest⟩)

end CryptoTrader
