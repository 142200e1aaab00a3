import CryptoTrader.Exchange.BinanceOrders
import CryptoTrader.Exchange.Okx
import CryptoTrader.Runtime.RecoveryTurn

/-!
# Recovery at the two exchanges

Recovery looks an order up by its exchange id where one is stored and by its client id
otherwise, and hands either to `get_order` as one kind of key. The Binance adapter sends
the key as a client id, the OKX adapter as an exchange id (`recovered_iff`).
-/

namespace CryptoTrader

variable {σ : Type}

/-- Recovery with an adapter's `get_order`. -/
def RecoveryEnv.looking (env : RecoveryEnv σ) (getOrder : String → String → Except TradingError Order) :
    RecoveryEnv σ :=
  { env with getOrder := getOrder }

/-- Every attempt is answered. -/
def answering {φ ρ : Type} (reply : ρ) (s : Unit) (_ : Unit) : Retries.Attempt φ ρ × Unit :=
  (.answered reply, s)

lemma retried_answering {φ ρ ε α : Type} {giveUp : φ → ε} {exhausted : ε} {handle : ρ → Except ε α} (reply : ρ) :
    Retries.retried (answering reply) giveUp exhausted handle (List.ofFn fun _ : Fin 3 => ()) () =
      (handle reply, ()) := by
  have hc : (answering reply () () : Retries.Attempt φ ρ × Unit) = (.answered reply, ()) := rfl
  exact Retries.retried_answered hc _

/-- `BinanceAdapter.get_order` at the exchange. -/
def BinanceAdapter.lookUp (a : BinanceAdapter) (orders : List BinanceOrder) (symbol key : String) :
    Except TradingError Order :=
  a.getOrder (fun _ origClientOrderId => answering (queryOrder orders origClientOrderId)) (fun _ => ()) () symbol key

/-- `OKXAdapter.get_order` at the exchange. -/
def OkxAdapter.lookUp (a : OkxAdapter) (orders : List OkxOrder) (symbol key : String) :
    Except TradingError Order :=
  a.getOrder (fun _ ordId => answering (queryOkxOrder orders ordId)) (fun _ => ()) () symbol key

/-- Recovery retrieves the exchange's order for the local one and reconciles it. -/
def Retrieves (env : RecoveryEnv σ) (l found : Order) : Prop :=
  env.answer l = .ok found ∧ ∀ db, recoverOrder env l db = reconcile env (env.newIds db.store) l found db

lemma retrieves_iff (env : RecoveryEnv σ) (l found : Order) :
    Retrieves env l found ↔ lookupKey l ≠ "" ∧ env.getOrder l.symbol (lookupKey l) = .ok found := by
  by_cases hk : lookupKey l = ""
  · simp [Retrieves, RecoveryEnv.answer, hk]
  · simp only [Retrieves, RecoveryEnv.answer, if_neg hk]
    refine ⟨fun h => ⟨hk, h.1⟩, fun h => ⟨h.2, fun db => ?_⟩⟩
    simp only [recoverOrder, if_neg hk, h.2]

/-- The local row of a submitted order, with the exchange id that was stored, if any. -/
structure LocalRow (order : Order) (exchangeOrderId : Option String) (l : Order) : Prop where
  client : l.clientOrderId = order.clientOrderId
  symbol : l.symbol = order.symbol
  stored : l.exchangeOrderId = exchangeOrderId

/-! ### Binance -/

/-- The order at the exchange: accepted as `accepted`, kept under the same ids since then
and told apart by them from every other order. -/
structure BinanceRecord (orders : List BinanceOrder) (accepted x : BinanceOrder) : Prop where
  mem : x ∈ orders
  orderId : x.orderId = accepted.orderId
  clientOrderId : x.clientOrderId = accepted.clientOrderId
  alone : ∀ y ∈ orders, y.clientOrderId = x.clientOrderId ∨ toString y.orderId = toString x.orderId → y = x

lemma BinanceAdapter.sent_of_accepted {a : BinanceAdapter} {order : Order} {fates : Fin 3 → PostFate}
    {before : List BinanceOrder} {x : BinanceOrder} (hnew : x ∉ before)
    (hx : x ∈ (a.submitOrder postOrder fates order before).2) :
    (truthy a.apiKey ∧ truthy a.apiSecret) ∧ x.clientOrderId = order.clientOrderId := by
  rcases orderParams_cases order with ⟨-, hparams⟩ | ⟨-, params, hparams, hid⟩
  · rw [submitOrder, hparams] at hx
    exact absurd hx hnew
  · rw [submitOrder, hparams, normalizeAnswer_snd] at hx
    by_cases hkeys : truthy a.apiKey ∧ truthy a.apiSecret
    · refine ⟨hkeys, ?_⟩
      have hmade := a.request_keeps (postOrder_made params) fates (made_self params before)
      rcases hmade x hx with hold | ⟨acceptance, rfl⟩
      · exact absurd hold hnew
      · exact hid
    · rw [request, if_neg hkeys] at hx
      exact absurd hx hnew

lemma BinanceAdapter.lookUp_eq {a : BinanceAdapter} (hkeys : truthy a.apiKey ∧ truthy a.apiSecret)
    (orders : List BinanceOrder) (symbol key : String) :
    a.lookUp orders symbol key = match orders.find? (fun x => x.clientOrderId = key) with
      | some y => .ok (y.normalized y.fallback)
      | none => .error (.orderNotFound "Binance order not found: Order does not exist.") := by
  have hreply : ∀ reply : HttpResponse BinanceOrderJson,
      a.request (answering reply) (fun _ => ()) () = (handle reply, ()) := by
    intro reply
    rw [request, if_pos hkeys]
    exact retried_answering reply
  simp only [lookUp, getOrder, hreply, queryOrder]
  cases orders.find? (fun x => x.clientOrderId = key) with
  | some y =>
    change normalizeOrder y.json none = _
    exact y.normalizeOrder_json
  | none => rfl

lemma lookupKey_stored {order l : Order} {text : String} (hl : LocalRow order (some text) l) (h : text ≠ "") :
    lookupKey l = text := by
  have htruthy : truthy (some text) = true := (truthy_iff _).mpr ⟨text, rfl, h⟩
  rw [lookupKey, hl.stored, if_pos htruthy]
  rfl

lemma lookupKey_unstored {order l : Order} (hl : LocalRow order none l) : lookupKey l = order.clientOrderId := by
  rw [lookupKey, hl.stored, ← hl.client]
  rfl

lemma binance_retrieves_iff (env : RecoveryEnv σ) {a : BinanceAdapter}
    (hkeys : truthy a.apiKey ∧ truthy a.apiSecret) {orders : List BinanceOrder} {accepted x : BinanceOrder}
    (hx : BinanceRecord orders accepted x) (l : Order) :
    Retrieves (env.looking (a.lookUp orders)) l (x.normalized x.fallback) ↔
      lookupKey l ≠ "" ∧ lookupKey l = accepted.clientOrderId := by
  rw [retrieves_iff]
  refine and_congr_right fun _ => ?_
  change a.lookUp orders l.symbol (lookupKey l) = _ ↔ _
  rw [BinanceAdapter.lookUp_eq hkeys, ← hx.clientOrderId]
  constructor
  · intro h
    cases hf : orders.find? (fun y => y.clientOrderId = lookupKey l) with
    | none => simp [hf] at h
    | some y =>
      have hkey : y.clientOrderId = lookupKey l := by simpa using List.find?_some hf
      simp only [hf, Except.ok.injEq] at h
      have hid : some (toString y.orderId) = some (toString x.orderId) := congrArg Order.exchangeOrderId h
      rw [← hx.alone y (List.mem_of_find?_eq_some hf) (.inr (Option.some.inj hid)), hkey]
  · intro h
    cases hf : orders.find? (fun y => y.clientOrderId = lookupKey l) with
    | none =>
      have := List.find?_eq_none.mp hf x hx.mem
      simp [h] at this
    | some y =>
      have hkey : y.clientOrderId = lookupKey l := by simpa using List.find?_some hf
      rw [hx.alone y (List.mem_of_find?_eq_some hf) (.inl (hkey.trans h))]

/-! ### OKX -/

/-- The order at the exchange, as `BinanceRecord`; an exchange id is never empty. -/
structure OkxRecord (orders : List OkxOrder) (accepted x : OkxOrder) : Prop where
  mem : x ∈ orders
  ordId : x.ordId = accepted.ordId
  instId : x.instId = accepted.instId
  ordId_ne : x.ordId ≠ ""
  alone : ∀ y ∈ orders, y.ordId = x.ordId → y = x

/-- An order the exchange did not have before was sent, for the symbol's instrument. -/
lemma OkxAdapter.sent_of_accepted {a : OkxAdapter} {order : Order} {fates : Fin 3 → OkxFate}
    {before : List OkxOrder} {x : OkxOrder} (hnew : x ∉ before)
    (hx : x ∈ (a.submitOrder postOkxOrder fates order before).2) :
    (truthy a.apiKey ∧ truthy a.apiSecret ∧ truthy a.apiPassphrase) ∧
      SymbolMapper.toOkx a.text order.symbol = .ok x.instId := by
  cases hb : orderBody a.text order with
  | error e =>
    rw [submitOrder, hb] at hx
    exact absurd hx hnew
  | ok body =>
    rw [submitOrder, hb] at hx
    by_cases hkeys : truthy a.apiKey ∧ truthy a.apiSecret ∧ truthy a.apiPassphrase
    · refine ⟨hkeys, ?_⟩
      have hmade := a.request_keeps "/api/v5/trade/order" (postOkxOrder_made body) fates (okxMade_self body before)
      rcases hmade x hx with hold | ⟨ordId, rfl⟩
      · exact absurd hold hnew
      · exact toOkx_of_orderBody hb
    · simp only [request, if_neg hkeys] at hx
      exact absurd hx hnew

lemma OkxAdapter.lookUp_eq {a : OkxAdapter}
    (hkeys : truthy a.apiKey ∧ truthy a.apiSecret ∧ truthy a.apiPassphrase) (orders : List OkxOrder)
    {symbol instId : String} (hi : SymbolMapper.toOkx a.text symbol = .ok instId) (key : String) :
    a.lookUp orders symbol key = match orders.find? (fun x => x.ordId = key) with
      | some y => normalizeOrder a.text y.json none
      | none => okxError (classifyOkxError a.text "51603" "Order does not exist") "Order does not exist"
          (some "51603") := by
  have hreply : ∀ reply : OkxReply, a.request "/api/v5/trade/order" (answering reply) (fun _ => ()) () =
      (handle a.text "/api/v5/trade/order" reply, ()) := by
    intro reply
    rw [request, if_pos hkeys]
    exact retried_answering reply
  simp only [lookUp, getOrder, hi, hreply, queryOkxOrder]
  cases orders.find? (fun x => x.ordId = key) <;> rfl

lemma okx_retrieves_iff (env : RecoveryEnv σ) {a : OkxAdapter} (ht : a.text.UpperAscii)
    (hkeys : truthy a.apiKey ∧ truthy a.apiSecret ∧ truthy a.apiPassphrase) {orders : List OkxOrder}
    {accepted x : OkxOrder} (hx : OkxRecord orders accepted x) {l : Order}
    (hi : SymbolMapper.toOkx a.text l.symbol = .ok x.instId) :
    Retrieves (env.looking (a.lookUp orders)) l (x.normalized (a.text.upper l.symbol)) ↔
      lookupKey l = accepted.ordId := by
  have hback := SymbolMapper.toCanonical_toOkx ht hi
  rw [retrieves_iff]
  change lookupKey l ≠ "" ∧ a.lookUp orders l.symbol (lookupKey l) = _ ↔ _
  rw [OkxAdapter.lookUp_eq hkeys orders hi, ← hx.ordId]
  constructor
  · rintro ⟨-, h⟩
    cases hf : orders.find? (fun y => y.ordId = lookupKey l) with
    | none => simp [hf, okxError] at h
    | some y =>
      have hkey : y.ordId = lookupKey l := by simpa using List.find?_some hf
      simp only [hf] at h
      have hid := OkxAdapter.exchangeOrderId_normalizeOrder rfl h
      rw [← hkey]
      exact (Option.some.inj hid).symm
  · intro h
    refine ⟨h ▸ hx.ordId_ne, ?_⟩
    cases hf : orders.find? (fun y => y.ordId = lookupKey l) with
    | none =>
      have := List.find?_eq_none.mp hf x hx.mem
      simp [h] at this
    | some y =>
      have hkey : y.ordId = lookupKey l := by simpa using List.find?_some hf
      rw [hx.alone y (List.mem_of_find?_eq_some hf) (hkey.trans h)]
      exact x.normalizeOrder_json ht hback

/-! ### Both adapters -/

/-- An order `submit_order` of the Binance adapter had accepted, the exchange's orders when
recovery runs, and the local row, with the returned id if it was `stored`. -/
structure BinanceSubmission (a : BinanceAdapter) (order : Order) (orders : List BinanceOrder)
    (accepted x : BinanceOrder) (stored : Bool) (l : Order) : Prop where
  submitted : ∃ before fates, accepted ∉ before ∧ accepted ∈ (a.submitOrder postOrder fates order before).2
  record : BinanceRecord orders accepted x
  row : ∃ returned, BinanceAdapter.normalizeOrder accepted.json (some order) = .ok returned ∧
    LocalRow order (if stored then returned.exchangeOrderId else none) l

/-- The same of the OKX adapter, whose answer to a submission is the order's receipt. -/
structure OkxSubmission (a : OkxAdapter) (order : Order) (orders : List OkxOrder) (accepted x : OkxOrder)
    (stored : Bool) (l : Order) : Prop where
  upper : a.text.UpperAscii
  submitted : ∃ before fates, accepted ∉ before ∧ accepted ∈ (a.submitOrder postOkxOrder fates order before).2
  record : OkxRecord orders accepted x
  row : ∃ returned, OkxAdapter.normalizeOrder a.text accepted.receipt (some order) = .ok returned ∧
    LocalRow order (if stored then returned.exchangeOrderId else none) l

lemma BinanceSubmission.lookupKey_eq {a : BinanceAdapter} {order : Order} {orders : List BinanceOrder}
    {accepted x : BinanceOrder} {stored : Bool} {l : Order}
    (h : BinanceSubmission a order orders accepted x stored l) :
    lookupKey l = if stored then toString accepted.orderId else order.clientOrderId := by
  obtain ⟨returned, hreturned, hrow⟩ := h.row
  obtain rfl : accepted.normalized order = returned :=
    Except.ok.inj ((accepted.normalizeWith_json order).symm.trans hreturned)
  cases stored with
  | true => exact lookupKey_stored hrow Nat.repr_ne_empty
  | false => exact lookupKey_unstored hrow

lemma OkxSubmission.lookupKey_eq {a : OkxAdapter} {order : Order} {orders : List OkxOrder}
    {accepted x : OkxOrder} {stored : Bool} {l : Order} (h : OkxSubmission a order orders accepted x stored l) :
    lookupKey l = if stored then accepted.ordId else order.clientOrderId := by
  obtain ⟨returned, hreturned, hrow⟩ := h.row
  cases stored with
  | true =>
    have hid := OkxAdapter.exchangeOrderId_normalizeOrder rfl hreturned
    exact lookupKey_stored (hid ▸ hrow) (h.record.ordId ▸ h.record.ordId_ne)
  | false => exact lookupKey_unstored hrow

/-- Recovery retrieves an order Binance accepted exactly when its key is the client id it was
accepted with: where no exchange id was stored, or one that equals it; and an order OKX
accepted exactly when its key is the exchange id: where that was stored, or equals the
client id. -/
theorem recovery_retrieves_iff (env : RecoveryEnv σ) :
    (∀ {a : BinanceAdapter} {order : Order} {orders : List BinanceOrder} {accepted x : BinanceOrder} {stored : Bool}
        {l : Order}, BinanceSubmission a order orders accepted x stored l →
      (Retrieves (env.looking (a.lookUp orders)) l (x.normalized x.fallback) ↔
        order.clientOrderId ≠ "" ∧ (stored = true → toString accepted.orderId = order.clientOrderId))) ∧
    (∀ {a : OkxAdapter} {order : Order} {orders : List OkxOrder} {accepted x : OkxOrder} {stored : Bool} {l : Order},
      OkxSubmission a order orders accepted x stored l →
      (Retrieves (env.looking (a.lookUp orders)) l (x.normalized (a.text.upper order.symbol)) ↔
        (stored = false → order.clientOrderId = accepted.ordId))) := by
  constructor
  · intro a order orders accepted x stored l h
    obtain ⟨before, fates, hnew, hmem⟩ := h.submitted
    obtain ⟨hkeys, hclient⟩ := BinanceAdapter.sent_of_accepted hnew hmem
    rw [binance_retrieves_iff env hkeys h.record, h.lookupKey_eq, hclient]
    cases stored with
    | true =>
      simp only [if_true, true_imp_iff]
      refine and_congr_left fun heq => ?_
      rw [heq]
    | false => simp
  · intro a order orders accepted x stored l h
    obtain ⟨before, fates, hnew, hmem⟩ := h.submitted
    obtain ⟨hkeys, hinst⟩ := OkxAdapter.sent_of_accepted hnew hmem
    have hsymbol : l.symbol = order.symbol := by
      obtain ⟨returned, -, hrow⟩ := h.row
      exact hrow.symbol
    have hi : SymbolMapper.toOkx a.text l.symbol = .ok x.instId := by
      rw [hsymbol, hinst, h.record.instId]
    rw [← hsymbol, okx_retrieves_iff env h.upper hkeys h.record hi, h.lookupKey_eq]
    cases stored with
    | true => simp
    | false => simp

/-! ### A submitted market order -/

/-- The row of the market order, with the exchange id that was stored. -/
def openRow (exchangeOrderId : Option String) : Order :=
  { marketOrder with exchangeOrderId := exchangeOrderId, status := .opened }

def openDb (exchangeOrderId : Option String) : Db Unit :=
  ⟨{ orders := [openRow exchangeOrderId] }, ()⟩

/-- The market order at Binance. -/
def binanceMarketOrder : BinanceOrder where
  symbol := "BTCUSDT"
  orderId := 7
  clientOrderId := "trend_1"
  side := .buy
  type := .market
  origQty := 1

/-- `text` is the digest of the order's client id. -/
def okxText : TextFunctions where
  upper := String.toUpper
  lower := String.toLower
  sha256 := fun _ => "23dc50840ceeb28e1c509534bee094869ead57dcea1952dedd7e6daadd708ab4"

def okxKeyed : OkxAdapter where
  apiKey := some "key"
  apiSecret := some "secret"
  apiPassphrase := some "phrase"
  text := okxText

/-- The market order at OKX. -/
def okxMarketOrder : OkxOrder where
  ordId := "9"
  clOrdId := "C23DC50840CEEB28E1C509534BEE0"
  instId := "BTC-USDT-SWAP"
  side := .buy
  ordType := .market
  sz := 1

lemma binance_submission (stored : Bool) : BinanceSubmission keyedAdapter marketOrder [binanceMarketOrder]
    binanceMarketOrder binanceMarketOrder stored (openRow (if stored then some "7" else none)) where
  submitted := ⟨[], fun _ => .answered { orderId := 7 }, by simp, by decide +kernel⟩
  record := ⟨by simp, rfl, rfl, by simp⟩
  row := ⟨_, binanceMarketOrder.normalizeWith_json marketOrder, rfl, rfl, by cases stored <;> rfl⟩

lemma okx_submission (stored : Bool) : OkxSubmission okxKeyed marketOrder [okxMarketOrder] okxMarketOrder
    okxMarketOrder stored (openRow (if stored then some "9" else none)) := by
  have hreturned : ∃ returned,
      OkxAdapter.normalizeOrder okxText okxMarketOrder.receipt (some marketOrder) = .ok returned ∧
        returned.exchangeOrderId = some "9" := by
    refine ⟨{ marketOrder with clientOrderId := okxMarketOrder.clOrdId, exchangeOrderId := some "9", status := .opened },
      by decide +kernel, rfl⟩
  obtain ⟨returned, hreturned, hid⟩ := hreturned
  refine ⟨fun _ _ => rfl, ⟨[], fun _ => .answered "9", by simp, by decide +kernel⟩,
    ⟨by simp, rfl, rfl, by decide, by simp⟩, returned, hreturned, rfl, rfl, ?_⟩
  rw [hid]
  cases stored <;> rfl

theorem recovery_retrieves_accepted :
    Retrieves ((steadyExchange settleNothing (.error .crashed)).looking (keyedAdapter.lookUp [binanceMarketOrder]))
        (openRow none) (binanceMarketOrder.normalized binanceMarketOrder.fallback) ∧
      Retrieves ((steadyExchange settleNothing (.error .crashed)).looking (okxKeyed.lookUp [okxMarketOrder]))
        (openRow (some "9")) (okxMarketOrder.normalized (okxText.upper "BTCUSDT")) :=
  ⟨((recovery_retrieves_iff _).1 (binance_submission false)).mpr ⟨by decide, by simp⟩,
    ((recovery_retrieves_iff _).2 (okx_submission true)).mpr (by simp)⟩

/-- With the id stored, the order that is live at Binance is rejected as not on the exchange;
without it, the order that is live at OKX aborts recovery. -/
theorem recovery_misses_accepted :
    ((recover ((steadyExchange settleNothing (.error .crashed)).looking (keyedAdapter.lookUp [binanceMarketOrder]))
          (openDb (some "7"))).1 = .ok [.notOnExchange "trend_1"] ∧
        ((recover ((steadyExchange settleNothing (.error .crashed)).looking
          (keyedAdapter.lookUp [binanceMarketOrder])) (openDb (some "7"))).2.store.get "ord_1").map Order.status =
            some .rejected) ∧
      (recover ((steadyExchange settleNothing (.error .crashed)).looking (okxKeyed.lookUp [okxMarketOrder]))
        (openDb none)).1 = .error (.okxDiagnostic "OKX_REJECTED" "Order does not exist" (some "51603")) := by
  decide +kernel

end CryptoTrader
