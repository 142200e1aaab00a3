import CryptoTrader.Domain.Models

/-!
# The order state machine

`order/state_machine.py`: the table of transitions, the events that are recorded without
moving the status, and `OrderStateMachine.transition`.
-/

namespace CryptoTrader

def transitions : OrderStatus → OrderEventType → Option OrderStatus
  | .created, .orderValidated => some .validated
  | .created, .orderRejected => some .rejected
  | .validated, .orderSubmitting => some .submitting
  | .validated, .orderRejected => some .rejected
  | .submitting, .orderSubmitted => some .submitted
  | .submitting, .orderAcknowledged => some .acknowledged
  | .submitting, .orderOpened => some .opened
  | .submitting, .orderPartiallyFilled => some .partiallyFilled
  | .submitting, .orderFilled => some .filled
  | .submitting, .orderRejected => some .rejected
  | .submitting, .orderUnknown => some .unknown
  | .submitted, .orderAcknowledged => some .acknowledged
  | .submitted, .orderOpened => some .opened
  | .submitted, .orderPartiallyFilled => some .partiallyFilled
  | .submitted, .orderFilled => some .filled
  | .submitted, .orderRejected => some .rejected
  | .submitted, .orderUnknown => some .unknown
  | .acknowledged, .orderOpened => some .opened
  | .acknowledged, .orderPartiallyFilled => some .partiallyFilled
  | .acknowledged, .orderFilled => some .filled
  | .acknowledged, .orderCancelPending => some .cancelPending
  | .acknowledged, .orderRejected => some .rejected
  | .acknowledged, .orderUnknown => some .unknown
  | .opened, .orderPartiallyFilled => some .partiallyFilled
  | .opened, .orderFilled => some .filled
  | .opened, .orderCancelPending => some .cancelPending
  | .opened, .orderRejected => some .rejected
  | .opened, .orderExpired => some .expired
  | .opened, .orderUnknown => some .unknown
  | .partiallyFilled, .orderPartiallyFilled => some .partiallyFilled
  | .partiallyFilled, .orderFilled => some .filled
  | .partiallyFilled, .orderCancelPending => some .cancelPending
  | .partiallyFilled, .orderRejected => some .rejected
  | .partiallyFilled, .orderExpired => some .expired
  | .partiallyFilled, .orderUnknown => some .unknown
  | .cancelPending, .orderCancelled => some .cancelled
  -- cancel/fill race: exchange truth wins
  | .cancelPending, .orderPartiallyFilled => some .partiallyFilled
  | .cancelPending, .orderFilled => some .filled
  | .cancelled, .orderPartiallyFilled => some .partiallyFilled
  | .cancelled, .orderFilled => some .filled
  | .unknown, .orderAcknowledged => some .acknowledged
  | .unknown, .orderOpened => some .opened
  | .unknown, .orderPartiallyFilled => some .partiallyFilled
  | .unknown, .orderFilled => some .filled
  | .unknown, .orderCancelled => some .cancelled
  | .unknown, .orderRejected => some .rejected
  | .unknown, .orderExpired => some .expired
  | _, _ => none

/-- `_NOOP_EVENTS`: recorded for audit, the status does not move. -/
def noopEvents : OrderStatus → OrderEventType → Bool
  | .acknowledged, .orderAcknowledged => true
  | .opened, .orderAcknowledged => true
  | .opened, .orderOpened => true
  | .partiallyFilled, .orderAcknowledged => true
  | .partiallyFilled, .orderOpened => true
  | .filled, .orderAcknowledged => true
  | .filled, .orderOpened => true
  | .cancelled, .orderCancelled => true
  | .filled, .orderFilled => true
  | .rejected, .orderRejected => true
  | .expired, .orderExpired => true
  | _, _ => false

structure TransitionResult where
  newStatus : OrderStatus
  changed : Bool
  noop : Bool := false
  deriving DecidableEq, Repr

def OrderStateMachine.transition (current : OrderStatus) (eventType : OrderEventType) :
    Except TradingError TransitionResult :=
  match transitions current eventType with
  | some new => .ok ⟨new, new != current, false⟩
  | none =>
    if noopEvents current eventType then .ok ⟨current, false, true⟩
    else .error (.invalidStateTransition
      s!"invalid order transition {current.value} -> {eventType.value}")

/-- The status after an event, when the machine accepts it. -/
def nextStatus (current : OrderStatus) (eventType : OrderEventType) : Option OrderStatus :=
  match transitions current eventType with
  | some new => some new
  | none => if noopEvents current eventType then some current else none

lemma transition_eq (current : OrderStatus) (eventType : OrderEventType) :
    OrderStateMachine.transition current eventType =
      match nextStatus current eventType with
      | some new => .ok ⟨new, new != current, (transitions current eventType).isNone⟩
      | none => .error (.invalidStateTransition
          s!"invalid order transition {current.value} -> {eventType.value}") := by
  unfold OrderStateMachine.transition nextStatus
  cases transitions current eventType with
  | some new => rfl
  | none => by_cases hn : noopEvents current eventType <;> simp [hn]

lemma transition_ok_iff (current : OrderStatus) (eventType : OrderEventType) (r : TransitionResult) :
    OrderStateMachine.transition current eventType = .ok r ↔
      nextStatus current eventType = some r.newStatus ∧
        r = ⟨r.newStatus, r.newStatus != current, (transitions current eventType).isNone⟩ := by
  rw [transition_eq]
  cases h : nextStatus current eventType with
  | none => simp
  | some new =>
    simp only [Except.ok.injEq, Option.some.injEq]
    constructor
    · rintro rfl; exact ⟨rfl, rfl⟩
    · rintro ⟨rfl, hr⟩; exact hr.symm

/-- A fill event is never a no-op on an order that is not yet filled, and moves the order
to the status of the event. -/
lemma nextStatus_fill {current : OrderStatus} (new : OrderStatus) (h : current ≠ .filled) :
    (nextStatus current .orderFilled = some new → new = .filled) ∧
      (nextStatus current .orderPartiallyFilled = some new → new = .partiallyFilled) := by
  cases current <;> simp_all [nextStatus, transitions, noopEvents]

end CryptoTrader
