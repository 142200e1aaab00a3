import Mathlib.Tactic.Common

/-!
# Enumerations of the trading domain

One inductive type for each `Enum` class of `domain/enums.py` the core uses. `value`
is the string a member is stored as.
-/

namespace CryptoTrader

inductive MarketType where
  | spot
  | perpetual
  deriving DecidableEq, Repr

inductive PositionSide where
  | long
  | short
  | flat
  deriving DecidableEq, Repr

inductive OrderSide where
  | buy
  | sell
  deriving DecidableEq, Repr

inductive OrderType where
  | market
  | limit
  deriving DecidableEq, Repr

inductive TimeInForce where
  | gtc
  | ioc
  | fok
  deriving DecidableEq, Repr

inductive TradingMode where
  | paper
  | live
  | shadow
  deriving DecidableEq, Repr

inductive RuntimeState where
  | stopped
  | starting
  | running
  | recovering
  | stopping
  | halted
  deriving DecidableEq, Repr

inductive MarketDataStatus where
  | healthy
  | resyncing
  | unhealthy
  deriving DecidableEq, Repr

inductive ExecutionDecision where
  | approve
  | hold
  | reject
  deriving DecidableEq, Repr

inductive OrderStatus where
  | created
  | validated
  | submitting
  | submitted
  | acknowledged
  | opened
  | partiallyFilled
  | filled
  | cancelPending
  | cancelled
  | rejected
  | expired
  | unknown
  deriving DecidableEq, Repr

inductive OrderEventType where
  | orderCreated
  | orderValidated
  | orderSubmitting
  | orderSubmitted
  | orderAcknowledged
  | orderOpened
  | orderPartiallyFilled
  | orderFilled
  | orderCancelPending
  | orderCancelled
  | orderRejected
  | orderExpired
  | orderUnknown
  | orderRecovered
  deriving DecidableEq, Repr

inductive ExchangeEventType where
  | orderAck
  | orderOpened
  | orderPartiallyFilled
  | orderFilled
  | orderCancelled
  | orderRejected
  | orderUnknown
  | balanceUpdate
  | positionUpdate
  | marketSnapshot
  | marketDelta
  deriving DecidableEq, Repr

inductive LedgerEntryType where
  | trade
  | fee
  | deposit
  | withdrawal
  | transfer
  | funding
  | interest
  | realizedPnl
  | marginChange
  | futuresMarginPost
  | futuresMarginRelease
  | fundingPayment
  | fundingReceipt
  | futuresRealizedPnl
  | futuresTradingFee
  | liquidationFee
  | marginAdjustment
  deriving DecidableEq, Repr

inductive LedgerDirection where
  | debit
  | credit
  deriving DecidableEq, Repr

namespace MarketType

def value : MarketType → String
  | spot => "SPOT"
  | perpetual => "PERPETUAL"

end MarketType

namespace PositionSide

def value : PositionSide → String
  | long => "LONG"
  | short => "SHORT"
  | flat => "FLAT"

end PositionSide

namespace OrderSide

def value : OrderSide → String
  | buy => "BUY"
  | sell => "SELL"

/-- The member with the value; the `Enum` class raises when there is none. -/
def ofValue : String → Option OrderSide
  | "BUY" => some buy
  | "SELL" => some sell
  | _ => none

@[simp] lemma ofValue_value (s : OrderSide) : ofValue s.value = some s := by
  cases s <;> rfl

lemma value_of_ofValue {v : String} {s : OrderSide} (h : ofValue v = some s) : v = s.value := by
  unfold ofValue at h
  split at h <;> cases h <;> rfl

end OrderSide

namespace OrderType

def value : OrderType → String
  | market => "MARKET"
  | limit => "LIMIT"

def ofValue : String → Option OrderType
  | "MARKET" => some market
  | "LIMIT" => some limit
  | _ => none

@[simp] lemma ofValue_value (t : OrderType) : ofValue t.value = some t := by
  cases t <;> rfl

lemma value_of_ofValue {v : String} {t : OrderType} (h : ofValue v = some t) : v = t.value := by
  unfold ofValue at h
  split at h <;> cases h <;> rfl

end OrderType

namespace TimeInForce

def value : TimeInForce → String
  | gtc => "GTC"
  | ioc => "IOC"
  | fok => "FOK"

def ofValue : String → Option TimeInForce
  | "GTC" => some gtc
  | "IOC" => some ioc
  | "FOK" => some fok
  | _ => none

@[simp] lemma ofValue_value (t : TimeInForce) : ofValue t.value = some t := by
  cases t <;> rfl

lemma value_of_ofValue {v : String} {t : TimeInForce} (h : ofValue v = some t) : v = t.value := by
  unfold ofValue at h
  split at h <;> cases h <;> rfl

end TimeInForce

namespace RuntimeState

def value : RuntimeState → String
  | stopped => "STOPPED"
  | starting => "STARTING"
  | running => "RUNNING"
  | recovering => "RECOVERING"
  | stopping => "STOPPING"
  | halted => "HALTED"

end RuntimeState

namespace ExecutionDecision

def value : ExecutionDecision → String
  | approve => "APPROVE"
  | hold => "HOLD"
  | reject => "REJECT"

end ExecutionDecision

namespace OrderStatus

def value : OrderStatus → String
  | created => "CREATED"
  | validated => "VALIDATED"
  | submitting => "SUBMITTING"
  | submitted => "SUBMITTED"
  | acknowledged => "ACKNOWLEDGED"
  | opened => "OPEN"
  | partiallyFilled => "PARTIALLY_FILLED"
  | filled => "FILLED"
  | cancelPending => "CANCEL_PENDING"
  | cancelled => "CANCELLED"
  | rejected => "REJECTED"
  | expired => "EXPIRED"
  | unknown => "UNKNOWN"

end OrderStatus

namespace OrderEventType

def value : OrderEventType → String
  | orderCreated => "ORDER_CREATED"
  | orderValidated => "ORDER_VALIDATED"
  | orderSubmitting => "ORDER_SUBMITTING"
  | orderSubmitted => "ORDER_SUBMITTED"
  | orderAcknowledged => "ORDER_ACKNOWLEDGED"
  | orderOpened => "ORDER_OPENED"
  | orderPartiallyFilled => "ORDER_PARTIALLY_FILLED"
  | orderFilled => "ORDER_FILLED"
  | orderCancelPending => "ORDER_CANCEL_PENDING"
  | orderCancelled => "ORDER_CANCELLED"
  | orderRejected => "ORDER_REJECTED"
  | orderExpired => "ORDER_EXPIRED"
  | orderUnknown => "ORDER_UNKNOWN"
  | orderRecovered => "ORDER_RECOVERED"

end OrderEventType

namespace ExchangeEventType

/-- The name of the member. -/
def name : ExchangeEventType → String
  | orderAck => "ORDER_ACK"
  | orderOpened => "ORDER_OPENED"
  | orderPartiallyFilled => "ORDER_PARTIALLY_FILLED"
  | orderFilled => "ORDER_FILLED"
  | orderCancelled => "ORDER_CANCELLED"
  | orderRejected => "ORDER_REJECTED"
  | orderUnknown => "ORDER_UNKNOWN"
  | balanceUpdate => "BALANCE_UPDATE"
  | positionUpdate => "POSITION_UPDATE"
  | marketSnapshot => "MARKET_SNAPSHOT"
  | marketDelta => "MARKET_DELTA"

end ExchangeEventType

end CryptoTrader
