import CryptoTrader.Domain.Enums
import Mathlib.Data.Rat.Defs

/-!
# Domain objects

The pydantic models of `domain/models.py` with the fields the core reads, and the errors
it raises. A `Decimal` is a rational number, so every sum, product and quotient is exact.
Timestamps decide nothing in the functions modelled here and are left out.
-/

namespace CryptoTrader

/-- A payload dictionary whose values are read as text. -/
abbrev Payload := List (String × String)

structure Instrument where
  symbol : String
  baseAsset : String
  quoteAsset : String
  status : String := "TRADING"
  tickSize : ℚ := 1 / 10 ^ 8
  stepSize : ℚ := 1 / 10 ^ 8
  minQty : ℚ := 1 / 10 ^ 8
  minNotional : ℚ := 1 / 10 ^ 8
  exchange : String := "UNKNOWN"
  deriving DecidableEq, Repr

structure OrderIntent where
  clientOrderId : String
  symbol : String
  side : OrderSide
  orderType : OrderType := .limit
  timeInForce : TimeInForce := .gtc
  price : Option ℚ := none
  quantity : ℚ
  strategyId : String := "manual"
  runId : Option String := none
  marketType : MarketType := .spot
  positionSide : PositionSide := .flat
  reduceOnly : Bool := false
  metadata : Payload := []
  deriving DecidableEq, Repr

structure SignalIntent where
  signalId : String
  strategyId : String
  symbol : String
  side : OrderSide
  quantity : ℚ
  limitPrice : Option ℚ := none
  orderType : OrderType := .limit
  timeInForce : TimeInForce := .gtc
  marketType : MarketType := .spot
  positionSide : PositionSide := .flat
  reduceOnly : Bool := false
  /-- The entry `reduce_only` of the metadata. -/
  metadataReduceOnly : Bool := false
  metadata : Payload := []
  deriving DecidableEq, Repr

/-- An order: the row of `OrderORM` and the domain object an adapter answers with. -/
structure Order where
  internalOrderId : String
  clientOrderId : String
  exchangeOrderId : Option String := none
  symbol : String
  side : OrderSide
  orderType : OrderType := .limit
  timeInForce : TimeInForce := .gtc
  price : Option ℚ := none
  quantity : ℚ
  filledQuantity : ℚ := 0
  avgFillPrice : Option ℚ := none
  status : OrderStatus := .created
  tradingMode : TradingMode := .paper
  strategyId : String := "manual"
  runId : Option String := none
  rejectionReason : Option String := none
  lastEventId : Option String := none
  marketType : MarketType := .spot
  positionSide : PositionSide := .flat
  reduceOnly : Bool := false
  deriving DecidableEq, Repr

/-- `payload_json` of an order event. -/
inductive OrderEventPayload where
  | empty
  | tradingMode (mode : TradingMode)
  | reason (text : String)
  | fill (fillId : String) (fillQuantity : ℚ)
  deriving DecidableEq, Repr

structure OrderEvent where
  eventId : String
  orderId : String
  clientOrderId : Option String := none
  exchangeOrderId : Option String := none
  eventType : OrderEventType
  statusAfter : OrderStatus
  payload : OrderEventPayload := .empty
  deriving DecidableEq, Repr

structure Fill where
  fillId : String
  tradeId : Option String := none
  orderId : String
  clientOrderId : Option String := none
  exchangeOrderId : Option String := none
  symbol : String
  side : OrderSide
  price : ℚ
  quantity : ℚ
  fee : ℚ := 0
  feeCurrency : Option String := none
  payload : Payload := []
  deriving DecidableEq, Repr

/-- The quantity of a fill, positive for a buy. -/
def Fill.signed (f : Fill) : ℚ :=
  match f.side with
  | .buy => f.quantity
  | .sell => -f.quantity

/-- A decimal as a payload carries it: text that `D` accepts, or text it rejects. -/
inductive RawDecimal where
  | value (q : ℚ)
  | malformed
  deriving DecidableEq, Repr

/-- The fields of an exchange event's payload that the engine reads. -/
structure EventPayload where
  exchangeOrderId : Option String := none
  fillId : Option String := none
  tradeId : Option String := none
  fillPrice : Option RawDecimal := none
  fillQuantity : Option RawDecimal := none
  fee : Option RawDecimal := none
  feeCurrency : Option String := none
  reason : Option String := none
  deriving DecidableEq, Repr

structure ExchangeEvent where
  eventId : String
  eventType : ExchangeEventType
  symbol : Option String := none
  payload : EventPayload := {}
  deriving DecidableEq, Repr

/-- The exceptions the core raises, with the data of their messages. -/
inductive TradingError where
  | orderNotFound (message : String)
  | invalidStateTransition (message : String)
  /-- `InvalidStateTransition("fill quantity ... exceeds remaining ...")`. -/
  | fillExceedsRemaining (quantity remaining : ℚ)
  | idempotencyConflict (message : String)
  | integrityError (constraint : String)
  | journalUnbalanced (message : String)
  /-- `JournalUnbalanced("journal unbalanced: debit=... credit=...")`. -/
  | journalSides (debit credit : ℚ)
  /-- `ValueError("oversell: ... position ... < sell ...")`. -/
  | oversell (symbol : String) (position sell : ℚ)
  | keyError (key : String)
  | decimalError (message : String)
  | attributeError (message : String)
  | valueError (message : String)
  | divisionByZero
  | exchangeUnavailable (message : String)
  /-- `OKXDiagnosticError`, an `ExchangeUnavailable` with a reason code. -/
  | okxDiagnostic (reasonCode safeMessage : String) (exchangeCode : Option String)
  | rateLimited (message : String)
  | authenticationError (message : String)
  | invalidOrder (message : String)
  | insufficientBalance (message : String)
  | orderRejected (message : String)
  | temporaryNetworkError (message : String)
  | unknownExecutionState (message : String)
  | sequenceGap (message : String)
  | marketDataUnhealthy (message : String)
  /-- The process stops at this point; nothing after it runs. -/
  | crashed
  deriving DecidableEq, Repr

/-- Python truthiness of an optional string. -/
def truthy : Option String → Bool
  | none => false
  | some s => s != ""

/-- `value or default` on an optional string. -/
def orElseNew (given : Option String) (minted : String) : String :=
  if truthy given then given.getD minted else minted

/-- `value or default` on an optional decimal: zero is falsy. -/
def orDecimal (given : Option ℚ) (default : ℚ) : ℚ :=
  match given with
  | some q => if q = 0 then default else q
  | none => default

/-- `D`: parse a decimal, raising `DecimalError`. -/
def D : RawDecimal → Except TradingError ℚ
  | .value q => .ok q
  | .malformed => .error (.decimalError "invalid decimal string")

/-- An `Enum` class called on a value. -/
def enumMember {α : Type} (name value : String) : Option α → Except TradingError α
  | some member => .ok member
  | none => .error (.valueError s!"'{value}' is not a valid {name}")

@[simp] lemma enumMember_some {α : Type} (name value : String) (member : α) :
    enumMember name value (some member) = .ok member := rfl

lemma enumMember_eq_ok {α : Type} {name value : String} {found : Option α} {member : α} :
    enumMember name value found = .ok member ↔ found = some member := by
  cases found <;> simp [enumMember]

/-- `D` of a field with a default. -/
def decOr (raw : Option RawDecimal) (default : ℚ) : Except TradingError ℚ :=
  D (raw.getD (.value default))

lemma bind_eq_ok {α β : Type} {x : Except TradingError α} {f : α → Except TradingError β} {b : β} :
    (x >>= f) = .ok b ↔ ∃ a, x = .ok a ∧ f a = .ok b := by
  cases x <;> simp [bind, Except.bind]

lemma truthy_iff (o : Option String) : truthy o = true ↔ ∃ s, o = some s ∧ s ≠ "" := by
  cases o <;> simp [truthy]

lemma orElseNew_of_truthy {o : Option String} (h : truthy o = true) (minted : String) :
    o = some (orElseNew o minted) := by
  obtain ⟨s, rfl, hs⟩ := (truthy_iff o).mp h
  simp [orElseNew, truthy, hs]

lemma orElseNew_of_falsy {o : Option String} (h : ¬ truthy o = true) (minted : String) :
    orElseNew o minted = minted := by
  simp [orElseNew, h]

end CryptoTrader
