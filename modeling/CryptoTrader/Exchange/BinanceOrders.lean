import CryptoTrader.Exchange.Binance

/-!
# Orders at Binance

The exchange's side of a submission. It accepts the first order delivered with a client
id and answers every later one with error -2010. An attempt may be lost on its way, its
answer may be lost, a server error may replace the answer, or the request may be turned
away before it becomes an order. The adapter retries when it hears nothing, so an order
that was delivered unheard meets its own duplicate (`retried_submission_iff`).
-/

namespace CryptoTrader

open Retries BinanceAdapter

/-- An order as the exchange keeps it. -/
structure BinanceOrder where
  symbol : String
  orderId : Nat
  clientOrderId : String
  side : OrderSide
  type : OrderType
  timeInForce : TimeInForce := .gtc
  price : ℚ := 0
  origQty : ℚ := 0
  executedQty : ℚ := 0
  cummulativeQuoteQty : ℚ := 0
  status : String := "NEW"
  deriving DecidableEq, Repr

namespace BinanceOrder

/-- The order in an answer. -/
def json (x : BinanceOrder) : BinanceOrderJson where
  symbol := some x.symbol
  orderId := some x.orderId
  clientOrderId := some x.clientOrderId
  price := some (.value x.price)
  origQty := some (.value x.origQty)
  executedQty := some (.value x.executedQty)
  cummulativeQuoteQty := some (.value x.cummulativeQuoteQty)
  status := some x.status
  type := some x.type.value
  side := some x.side.value
  timeInForce := some x.timeInForce.value

/-- What `normalize_order` makes of the order in an answer. -/
def normalized (x : BinanceOrder) (fallback : Order) : Order where
  internalOrderId := fallback.internalOrderId
  clientOrderId := orElseNew (some x.clientOrderId) fallback.clientOrderId
  exchangeOrderId := some (toString x.orderId)
  symbol := x.symbol
  side := x.side
  orderType := x.type
  timeInForce := x.timeInForce
  price := some x.price
  quantity := x.origQty
  filledQuantity := x.executedQty
  avgFillPrice := if 0 < x.executedQty then some (divide x.cummulativeQuoteQty x.executedQty) else fallback.avgFillPrice
  status := (statusMap x.status).getD fallback.status
  tradingMode := fallback.tradingMode
  strategyId := fallback.strategyId
  runId := fallback.runId
  rejectionReason := fallback.rejectionReason
  lastEventId := fallback.lastEventId

lemma normalizeWith_json (x : BinanceOrder) (fallback : Order) :
    normalizeWith x.json fallback = .ok (x.normalized fallback) := by
  simp only [normalizeWith, json, Option.getD_some, OrderSide.ofValue_value, OrderType.ofValue_value,
    TimeInForce.ofValue_value, enumMember_some, decOr, D, Option.mapM_some, bind, Except.bind]
  by_cases h : 0 < x.executedQty
  · simp [h, normalized]
  · simp [h, normalized]

/-- The order to fall back on when there is none. -/
def fallback (x : BinanceOrder) : Order where
  internalOrderId := "unknown"
  clientOrderId := orElseNew (some x.clientOrderId) "unknown"
  symbol := x.symbol
  side := x.side
  orderType := x.type
  timeInForce := x.timeInForce
  price := some x.price
  quantity := x.origQty
  filledQuantity := x.executedQty
  status := (statusMap x.status).getD .unknown

lemma normalizeOrder_json (x : BinanceOrder) :
    normalizeOrder x.json none = .ok (x.normalized x.fallback) := by
  have hfallback : fallbackOrder x.json = .ok x.fallback := by
    simp only [fallbackOrder, json, Option.getD_some, OrderSide.ofValue_value, OrderType.ofValue_value,
      TimeInForce.ofValue_value, enumMember_some, decOr, D, Option.mapM_some, bind, Except.bind]
    simp [fallback]
  simp only [normalizeOrder, hfallback, bind, Except.bind, normalizeWith_json]

end BinanceOrder

/-- What the exchange decides when it accepts an order. -/
structure Acceptance where
  orderId : Nat
  executedQty : ℚ := 0
  cummulativeQuoteQty : ℚ := 0
  status : String := "NEW"
  statusCode : Nat := 200
  successful : 200 ≤ statusCode ∧ statusCode < 300 := by decide

/-- An answer with an error status. -/
structure ErrorAnswer where
  response : HttpResponse BinanceOrderJson
  isError : 400 ≤ response.statusCode ∧ response.statusCode < 600 := by decide

/-- What becomes of an attempt to submit an order. -/
inductive PostFate where
  /-- Lost before delivery. -/
  | lost (failure : TransportFailure)
  /-- Delivered, and the answer is lost. -/
  | unheard (acceptance : Acceptance) (failure : TransportFailure)
  /-- Delivered and answered. -/
  | answered (acceptance : Acceptance)
  /-- Answered with an error before it becomes an order. -/
  | turnedAway (answer : ErrorAnswer)
  /-- Delivered, and a server error replaces the answer. -/
  | cutOff (acceptance : Acceptance) (answer : ErrorAnswer) (server : 500 ≤ answer.response.statusCode)

/-- The order the exchange makes of the parameters. -/
def acceptedOrder (params : BinanceOrderParams) (a : Acceptance) : BinanceOrder where
  symbol := params.symbol
  orderId := a.orderId
  clientOrderId := params.newClientOrderId
  side := params.side
  type := params.type
  timeInForce := params.timeInForce.getD .gtc
  price := params.price.getD 0
  origQty := params.quantity.getD 0
  executedQty := a.executedQty
  cummulativeQuoteQty := a.cummulativeQuoteQty
  status := a.status

/-- The exchange has an order with the client id. -/
def Known (orders : List BinanceOrder) (clientOrderId : String) : Prop :=
  ∃ x ∈ orders, x.clientOrderId = clientOrderId

instance decidableKnown (orders : List BinanceOrder) (clientOrderId : String) :
    Decidable (Known orders clientOrderId) :=
  inferInstanceAs (Decidable (∃ x ∈ orders, _))

/-- Error -2010. -/
def duplicateAnswer : HttpResponse BinanceOrderJson where
  statusCode := 400
  payload := some (-2010, "Duplicate order sent.")

/-- The exchange meets a delivered order. -/
def deliver (params : BinanceOrderParams) (a : Acceptance) (orders : List BinanceOrder) :
    HttpResponse BinanceOrderJson × List BinanceOrder :=
  if Known orders params.newClientOrderId then (duplicateAnswer, orders)
  else
    let x := acceptedOrder params a
    ({ statusCode := a.statusCode, body := some x.json }, orders ++ [x])

/-- `POST /api/v3/order`. -/
def postOrder (params : BinanceOrderParams) (orders : List BinanceOrder) :
    PostFate → Attempt TransportFailure (HttpResponse BinanceOrderJson) × List BinanceOrder
  | .lost failure => (.failed failure, orders)
  | .unheard a failure => (.failed failure, (deliver params a orders).2)
  | .answered a => (.answered (deliver params a orders).1, (deliver params a orders).2)
  | .turnedAway answer => (.answered answer.response, orders)
  | .cutOff a answer _ => (.answered answer.response, (deliver params a orders).2)

/-- Every order the exchange has beside the earlier ones was made of the parameters. -/
def Made (params : BinanceOrderParams) (before orders : List BinanceOrder) : Prop :=
  ∀ x ∈ orders, x ∈ before ∨ ∃ a, x = acceptedOrder params a

lemma made_self (params : BinanceOrderParams) (before : List BinanceOrder) : Made params before before :=
  fun _ hx => .inl hx

lemma deliver_made {params : BinanceOrderParams} {before orders : List BinanceOrder} (a : Acceptance)
    (h : Made params before orders) : Made params before (deliver params a orders).2 := by
  simp only [deliver]
  split
  · exact h
  · intro x hx
    rcases List.mem_append.mp hx with hx | hx
    · exact h x hx
    · exact .inr ⟨a, List.mem_singleton.mp hx⟩

lemma postOrder_made (params : BinanceOrderParams) {before : List BinanceOrder} (orders : List BinanceOrder)
    (fate : PostFate) (h : Made params before orders) : Made params before (postOrder params orders fate).2 := by
  cases fate with
  | lost failure => exact h
  | unheard a failure => exact deliver_made a h
  | answered a => exact deliver_made a h
  | turnedAway answer => exact h
  | cutOff a answer server => exact deliver_made a h

/-- `GET /api/v3/order`: by the order whose client id is the key, error -2013 otherwise. -/
def queryOrder (orders : List BinanceOrder) (origClientOrderId : String) : HttpResponse BinanceOrderJson :=
  match orders.find? (fun x => x.clientOrderId = origClientOrderId) with
  | some x => { statusCode := 200, body := some x.json }
  | none => { statusCode := 400, payload := some (-2013, "Order does not exist.") }

/-! ### Refused or unknown -/

namespace TradingError

/-- The errors that say the order was refused. -/
def Definite : TradingError → Prop
  | invalidOrder _ | orderRejected _ | insufficientBalance _ | rateLimited _ => True
  | _ => False

/-- The errors that leave the outcome of a submission open. -/
def OutcomeUnknown : TradingError → Prop
  | temporaryNetworkError _ | exchangeUnavailable _ | unknownExecutionState _ => True
  | _ => False

lemma OutcomeUnknown.not_definite {e : TradingError} (h : e.OutcomeUnknown) : ¬ e.Definite := by
  cases e <;> simp_all [OutcomeUnknown, Definite]

end TradingError

/-- The status and code of an error answer that leave the outcome open: a server error,
or no code of a refusal and either a transient code or a status without an exception. -/
def LeavesOpen (response : HttpResponse BinanceOrderJson) : Prop :=
  500 ≤ response.statusCode ∨
    response.statusCode ∉ [429, 418] ∧
      response.code ∉ [-2015, -2014, -2010, -1013, -2011, -2013, -2019, -2018, -1100] ∧
        (response.code ∈ [-1001, -1002, -1003, -1007, -1008, -1000] ∨
          response.statusCode ∉ [400, 401, 403, 404])

instance decidableLeavesOpen (response : HttpResponse BinanceOrderJson) : Decidable (LeavesOpen response) :=
  inferInstanceAs (Decidable (_ ∨ _ ∧ _ ∧ (_ ∨ _)))

/-- No refusal is heard once an order was delivered unheard: the first attempt answered
then, if any, is answered with an error that leaves the outcome open. -/
def NoLateRefusal : Bool → List PostFate → Prop
  | _, [] => True
  | delivered, .lost _ :: rest => NoLateRefusal delivered rest
  | _, .unheard _ _ :: rest => NoLateRefusal true rest
  | delivered, .answered _ :: _ => delivered = false
  | delivered, .turnedAway answer :: _ => delivered = true → LeavesOpen answer.response
  | _, .cutOff _ _ _ :: _ => True

/-- The submission reports what the exchange holds: a definite error only where it has no
order with the client id, and an order it has is returned or its outcome left open. -/
def Truthful (order : Order) (result : Except TradingError Order × List BinanceOrder) : Prop :=
  (∀ e, result.1 = .error e → e.Definite → ¬ Known result.2 order.clientOrderId) ∧
    ∀ x ∈ result.2, x.clientOrderId = order.clientOrderId →
      result.1 = .ok (x.normalized order) ∨ ∃ e, result.1 = .error e ∧ e.OutcomeUnknown

lemma truthful_error_iff {order : Order} {e : TradingError} {orders : List BinanceOrder} :
    Truthful order (.error e, orders) ↔ (Known orders order.clientOrderId → e.OutcomeUnknown) := by
  constructor
  · rintro ⟨-, hfound⟩ ⟨x, hx, hid⟩
    rcases hfound x hx hid with h | ⟨e', h, he'⟩
    · cases h
    · cases h
      exact he'
  · intro h
    constructor
    · intro e' he' hdef hknown
      cases he'
      exact (h hknown).not_definite hdef
    · intro x hx hid
      exact .inr ⟨e, rfl, h ⟨x, hx, hid⟩⟩

lemma giveUp_outcomeUnknown (failure : TransportFailure) : (giveUp failure).OutcomeUnknown := by
  cases failure <;> exact trivial

/-- An error that leaves the outcome open is raised. -/
def RaisesUnknown {α : Type} : Except TradingError α → Prop
  | .error e => e.OutcomeUnknown
  | .ok _ => False

/-- The adapter reads an error answer as `LeavesOpen` says. -/
lemma raisesUnknown_iff {response : HttpResponse BinanceOrderJson} (h : response.statusCode ≠ 200) :
    RaisesUnknown (raiseForBinanceError response) ↔ LeavesOpen response := by
  simp only [raiseForBinanceError, if_neg h, apply_ite RaisesUnknown]
  simp only [RaisesUnknown, TradingError.OutcomeUnknown, LeavesOpen, List.mem_cons, List.not_mem_nil, or_false]
  generalize response.code = code
  generalize response.statusCode = status
  simp only [if_false_left, if_true_left, if_true_right]
  by_cases hserver : 500 ≤ status
  · have hlimit : ¬ (status = 429 ∨ status = 418) := by omega
    exact iff_of_true ⟨hlimit, fun h => absurd hserver h⟩ (.inl hserver)
  · simp only [hserver, not_false_eq_true, true_imp_iff, false_or, not_or, and_assoc]
    tauto

/-- An answered attempt that raises reports truthfully when the order is unknown to the
exchange or the error leaves the outcome open. -/
lemma truthful_handle_iff {order : Order} {response : HttpResponse BinanceOrderJson} {orders : List BinanceOrder}
    (h : response.statusCode ≠ 200) : Truthful order (normalizeAnswer (some order) (handle response, orders)) ↔
      (Known orders order.clientOrderId → LeavesOpen response) := by
  obtain ⟨e, he⟩ := raiseForBinanceError_of_ne h
  rw [handle_of_error he, normalizeAnswer, truthful_error_iff, ← raisesUnknown_iff h, he]
  exact Iff.rfl

section Deliver

variable {params : BinanceOrderParams} {a : Acceptance} {orders : List BinanceOrder}

lemma deliver_of_known (h : Known orders params.newClientOrderId) :
    deliver params a orders = (duplicateAnswer, orders) :=
  if_pos h

lemma deliver_of_new (h : ¬ Known orders params.newClientOrderId) : deliver params a orders =
    ({ statusCode := a.statusCode, body := some (acceptedOrder params a).json }, orders ++ [acceptedOrder params a]) :=
  if_neg h

lemma known_deliver (params : BinanceOrderParams) (a : Acceptance) (orders : List BinanceOrder) :
    Known (deliver params a orders).2 params.newClientOrderId := by
  by_cases h : Known orders params.newClientOrderId
  · rwa [deliver_of_known h]
  · rw [deliver_of_new h]
    exact ⟨acceptedOrder params a, by simp, rfl⟩

/-- The answer of the exchange is reported truthfully when it is not a duplicate's. -/
lemma truthful_deliver_iff {order : Order} (hid : params.newClientOrderId = order.clientOrderId) :
    Truthful order (normalizeAnswer (some order) (handle (deliver params a orders).1, (deliver params a orders).2)) ↔
      ¬ Known orders order.clientOrderId := by
  by_cases hk : Known orders params.newClientOrderId
  · have h400 : duplicateAnswer.statusCode ≠ 200 := by decide
    have hraise : ¬ LeavesOpen duplicateAnswer := by decide
    rw [deliver_of_known hk, truthful_handle_iff h400, ← hid]
    exact ⟨fun h => absurd (h hk) hraise, fun h => absurd hk h⟩
  · rw [deliver_of_new hk, ← hid]
    refine iff_of_true ?_ hk
    have hs := a.successful
    by_cases h200 : a.statusCode = 200
    · have hfound : normalizeAnswer (some order)
          (handle ⟨a.statusCode, "", some (0, ""), some (acceptedOrder params a).json⟩,
            orders ++ [acceptedOrder params a]) =
          (.ok ((acceptedOrder params a).normalized order), orders ++ [acceptedOrder params a]) := by
        simp only [handle, raiseForBinanceError, h200, if_true, bind, Except.bind, normalizeAnswer,
          normalizeOrder, BinanceOrder.normalizeWith_json]
      rw [hfound]
      refine ⟨by simp, fun x hx hxid => .inl ?_⟩
      rcases List.mem_append.mp hx with hx | hx
      · exact absurd ⟨x, hx, hxid.trans hid.symm⟩ hk
      · rw [List.mem_singleton.mp hx]
    · rw [truthful_handle_iff h200]
      intro _
      refine .inr ⟨?_, by simp [HttpResponse.code], .inr ?_⟩
      · simp only [List.mem_cons, List.not_mem_nil, or_false]
        omega
      · simp only [List.mem_cons, List.not_mem_nil, or_false]
        omega

end Deliver

lemma retried_truthful_iff {params : BinanceOrderParams} {order : Order}
    (hid : params.newClientOrderId = order.clientOrderId) {fates : List PostFate} (hne : fates ≠ [])
    {exhausted : TradingError} (orders : List BinanceOrder) :
    Truthful order (normalizeAnswer (some order)
        (retried (postOrder params) giveUp exhausted handle fates orders)) ↔
      NoLateRefusal (decide (Known orders order.clientOrderId)) fates := by
  induction fates generalizing orders with
  | nil => exact absurd rfl hne
  | cons fate rest ih =>
    have unanswered : ∀ failure orders', postOrder params orders fate = (.failed failure, orders') →
        (Truthful order (normalizeAnswer (some order)
            (retried (postOrder params) giveUp exhausted handle (fate :: rest) orders)) ↔
          NoLateRefusal (decide (Known orders' order.clientOrderId)) rest) := by
      intro failure orders' hc
      by_cases hr : rest = []
      · subst hr
        rw [retried_last hc, normalizeAnswer, truthful_error_iff]
        exact iff_of_true (fun _ => giveUp_outcomeUnknown failure) trivial
      · rw [retried_failed hc hr]
        exact ih hr orders'
    have answered : ∀ response orders', postOrder params orders fate = (.answered response, orders') →
        retried (postOrder params) giveUp exhausted handle (fate :: rest) orders = (handle response, orders') :=
      fun response orders' hc => retried_answered hc rest
    cases fate with
    | lost failure => exact unanswered failure orders rfl
    | unheard a failure =>
      have hknown : decide (Known (deliver params a orders).2 order.clientOrderId) = true :=
        decide_eq_true (hid ▸ known_deliver params a orders)
      rw [unanswered failure (deliver params a orders).2 rfl, hknown]
      exact Iff.rfl
    | answered a =>
      rw [answered _ _ rfl, truthful_deliver_iff hid]
      simp only [NoLateRefusal, decide_eq_false_iff_not]
    | turnedAway answer =>
      have h200 : answer.response.statusCode ≠ 200 := by
        have := answer.isError
        omega
      rw [answered _ _ rfl, truthful_handle_iff h200]
      simp only [NoLateRefusal, decide_eq_true_eq]
    | cutOff a answer server =>
      rw [answered _ _ rfl, truthful_handle_iff (by omega)]
      exact iff_of_true (fun _ => .inl server) trivial

/-- The order is sent: the credentials are there, and a limit order has its price. -/
def Sent (a : BinanceAdapter) (order : Order) : Prop :=
  (truthy a.apiKey ∧ truthy a.apiSecret) ∧ (order.orderType = .limit → order.price ≠ none)

lemma orderParams_cases (order : Order) :
    ((order.orderType = .limit ∧ order.price = none) ∧
        orderParams order = .error (.invalidOrder "LIMIT order requires price")) ∨
      ((order.orderType = .limit → order.price ≠ none) ∧
        ∃ params, orderParams order = .ok params ∧ params.newClientOrderId = order.clientOrderId) := by
  simp only [orderParams]
  cases order.orderType with
  | limit =>
    cases order.price with
    | none => exact .inl ⟨⟨rfl, rfl⟩, rfl⟩
    | some price => exact .inr ⟨by simp, _, rfl, rfl⟩
  | market => exact .inr ⟨by simp, _, rfl, rfl⟩

/-- A submission of a new order reports what the exchange holds exactly when no refusal is
heard after the order was delivered unheard. -/
theorem retried_submission_iff (a : BinanceAdapter) (order : Order) {orders : List BinanceOrder}
    (hnew : ¬ Known orders order.clientOrderId) (fates : Fin 3 → PostFate) :
    Truthful order (a.submitOrder postOrder fates order orders) ↔
      (Sent a order → NoLateRefusal false (List.ofFn fates)) := by
  have unsent : ∀ e, Truthful order ((.error e : Except TradingError Order), orders) :=
    fun e => truthful_error_iff.mpr (fun h => absurd h hnew)
  rcases orderParams_cases order with ⟨⟨hlimit, hprice⟩, hparams⟩ | ⟨hprice, params, hparams, hid⟩
  · rw [submitOrder, hparams]
    exact iff_of_true (unsent _) (fun hs => absurd hprice (hs.2 hlimit))
  · rw [submitOrder, hparams]
    by_cases hkeys : truthy a.apiKey ∧ truthy a.apiSecret
    · simp only [request, if_pos hkeys]
      rw [retried_truthful_iff hid (by simp), decide_eq_false hnew]
      exact ⟨fun h _ => h, fun h => h ⟨hkeys, hprice⟩⟩
    · simp only [request, if_neg hkeys]
      exact iff_of_true (unsent _) (fun hs => absurd hs.1 hkeys)

/-- The keys of the examples. -/
def keyedAdapter : BinanceAdapter where
  apiKey := some "key"
  apiSecret := some "secret"

/-- A market order of the examples. -/
def marketOrder : Order where
  internalOrderId := "ord_1"
  clientOrderId := "trend_1"
  symbol := "BTCUSDT"
  side := .buy
  orderType := .market
  quantity := 1

theorem retried_submission_answered :
    Truthful marketOrder (keyedAdapter.submitOrder postOrder (fun _ => .answered { orderId := 7 }) marketOrder []) :=
  (retried_submission_iff keyedAdapter marketOrder (by decide) _).mpr (fun _ => rfl)

/-- Delivered, timed out, retried. -/
def timedOutFates : Fin 3 → PostFate
  | 0 => .unheard { orderId := 7 } .timeout
  | _ => .answered { orderId := 8 }

/-- The order is live and is reported as invalid. -/
theorem unheard_submission_refused :
    (keyedAdapter.submitOrder postOrder timedOutFates marketOrder []).1 =
        .error (.invalidOrder "Binance invalid order -2010: Duplicate order sent.") ∧
      ¬ Truthful marketOrder (keyedAdapter.submitOrder postOrder timedOutFates marketOrder []) := by
  have herror : (keyedAdapter.submitOrder postOrder timedOutFates marketOrder []).1 =
      .error (.invalidOrder "Binance invalid order -2010: Duplicate order sent.") := by
    decide +kernel
  have hlive : Known (keyedAdapter.submitOrder postOrder timedOutFates marketOrder []).2 "trend_1" := by
    decide +kernel
  exact ⟨herror, fun h => h.1 _ herror trivial hlive⟩

end CryptoTrader
