import CryptoTrader.Order.Consistency

/-!
# Crash recovery

`runtime/recovery.py`: every order `list_open` selects is looked up at the exchange and
reconciled with the answer, one after the other, and an exception ends the loop. Each
order's turn makes at most one call of the order manager (`recoverOrder_eq`).
-/

namespace CryptoTrader

open KeyedTable OrderStore

variable {σ : Type}

/-- The second step starts from what the first leaves, unless the first raises. -/
def andThen {α β : Type} (p : Except TradingError α × Db σ) (f : α → Db σ → Except TradingError β × Db σ) :
    Except TradingError β × Db σ :=
  match p with
  | (.ok a, db) => f a db
  | (.error e, db) => (.error e, db)

/-- A lifecycle call on the whole database. -/
def callLifecycle (orderId : String) (l : Lifecycle) (minted : String) (db : Db σ) :
    Except TradingError Unit × Db σ :=
  match l.run orderId minted db.store with
  | .ok (_, s) => (.ok (), ⟨s, db.rest⟩)
  | .error e => (.error e, db)

/-- The ids minted in one order's turn: the event id passed to a transition, the one a
transition mints itself, the trade id of a recovery fill and the ids `apply_fill` mints. -/
structure RecoveryIds where
  eventId : String
  minted : String
  tradeId : String
  fill : FillIds
  deriving DecidableEq, Repr

/-- What one run of recovery meets: the settlement callback, the exchange's answers, the
ids `new_id` returns, and the text `format(filled_quantity, 'f')` with its dot replaced. -/
structure RecoveryEnv (σ : Type) where
  settle : SettlementCallback σ
  getOrder : String → String → Except TradingError Order
  newIds : OrderStore → RecoveryIds
  filledText : Order → String

inductive RecoveryAction where
  | missingOrderId (clientOrderId : String)
  | notOnExchange (clientOrderId : String)
  | recoveryFill (clientOrderId : String) (quantity : ℚ)
  | recoveryPartialFill (clientOrderId : String) (quantity : ℚ)
  | moved (clientOrderId : String) (before after : OrderStatus)
  deriving DecidableEq, Repr

/-- `local.exchange_order_id or local.client_order_id`. -/
def lookupKey (o : Order) : String :=
  if truthy o.exchangeOrderId then o.exchangeOrderId.getD "" else o.clientOrderId

/-- The id of a recovery fill. -/
def recoveryFillId (filledText : Order → String) (x : Order) : String :=
  let exchangeOrderId := x.exchangeOrderId.getD "None"
  let text := filledText x
  if x.status = .filled then s!"recovery_{exchangeOrderId}_{text}"
  else s!"recovery_{exchangeOrderId}_partial"

/-- The price of a recovery fill: `avg_fill_price or price or 0`. -/
def recoveryPrice (x : Order) : ℚ :=
  orDecimal x.avgFillPrice (orDecimal x.price 0)

/-- The fill recovery makes up for what the local order `o` lacks. -/
def recoveryFill (filledText : Order → String) (o x : Order) (tradeId : String) : Fill where
  fillId := recoveryFillId filledText x
  tradeId := some tradeId
  orderId := o.internalOrderId
  clientOrderId := some o.clientOrderId
  exchangeOrderId := x.exchangeOrderId
  symbol := o.symbol
  side := o.side
  price := recoveryPrice x
  quantity := x.filledQuantity - o.filledQuantity
  fee := 0
  payload := [("recovery", "True")]

def eventTypeForExchangeStatus : OrderStatus → OrderEventType
  | .acknowledged => .orderAcknowledged
  | .opened => .orderOpened
  | .partiallyFilled => .orderPartiallyFilled
  | .filled => .orderFilled
  | .cancelled => .orderCancelled
  | .cancelPending => .orderCancelPending
  | .rejected => .orderRejected
  | .expired => .orderExpired
  | .unknown => .orderUnknown
  | _ => .orderUnknown

/-- The call that takes over the exchange's status, for the statuses recovery takes over. -/
def adoptStatus (x : Order) (eventId : String) : Option Lifecycle :=
  match x.status with
  | .opened => some (.reopened x.exchangeOrderId (some eventId))
  | .acknowledged => some (.reacknowledged x.exchangeOrderId (some eventId))
  | .cancelled => some (.cancelConfirm (some eventId))
  | .rejected => some (.reject (orElseNew x.rejectionReason "rejected on exchange") (some eventId))
  | .expired => some .expire
  | _ => none

/-- The reconciliation of the local order `o` with the exchange's order `x`. -/
def reconcile (env : RecoveryEnv σ) (ids : RecoveryIds) (o x : Order) (db : Db σ) :
    Except TradingError (List RecoveryAction) × Db σ :=
  let fill := recoveryFill env.filledText o x ids.tradeId
  let filled : Except TradingError (List RecoveryAction) × Db σ :=
    if x.status = .filled ∧ o.filledQuantity < x.filledQuantity then
      andThen (applyFill env.settle fill ids.fill db) fun _ db' =>
        (.ok [.recoveryFill o.clientOrderId fill.quantity], db')
    else (.ok [], db)
  andThen filled fun actions db =>
    if x.status = .partiallyFilled ∧ o.filledQuantity < x.filledQuantity then
      andThen (applyFill env.settle fill ids.fill db) fun _ db' =>
        (.ok (actions ++ [.recoveryPartialFill o.clientOrderId fill.quantity]), db')
    else if x.status ≠ o.status then
      match adoptStatus x ids.eventId with
      | some l => andThen (callLifecycle o.internalOrderId l ids.minted db) fun _ db' =>
          (.ok (actions ++ [.moved o.clientOrderId o.status x.status]), db')
      | none => (.ok (actions ++ [.moved o.clientOrderId o.status x.status]), db)
    else (.ok actions, db)

/-- The turn of one listed order. -/
def recoverOrder (env : RecoveryEnv σ) (o : Order) (db : Db σ) :
    Except TradingError (List RecoveryAction) × Db σ :=
  let ids := env.newIds db.store
  if lookupKey o = "" then
    andThen (callLifecycle o.internalOrderId
      (.reject "no exchange/client order id during recovery; no blind resubmit" (some ids.eventId))
      ids.minted db) fun _ db' => (.ok [.missingOrderId o.clientOrderId], db')
  else
    match env.getOrder o.symbol (lookupKey o) with
    | .error (.orderNotFound _) =>
      andThen (callLifecycle o.internalOrderId
        (.reject "order not found on exchange during recovery; no blind resubmit" (some ids.eventId))
        ids.minted db) fun _ db' => (.ok [.notOnExchange o.clientOrderId], db')
    | .error e => (.error e, db)
    | .ok x => reconcile env ids o x db

def recoverAll (env : RecoveryEnv σ) : List Order → Db σ → Except TradingError (List RecoveryAction) × Db σ
  | [], db => (.ok [], db)
  | o :: os, db =>
    andThen (recoverOrder env o db) fun actions db' =>
      andThen (recoverAll env os db') fun more db'' => (.ok (actions ++ more), db'')

def recover (env : RecoveryEnv σ) (db : Db σ) : Except TradingError (List RecoveryAction) × Db σ :=
  recoverAll env db.store.listOpen db

/-! ### One turn, one call -/

/-- The exchange's answer for a local order; it does not know an order without a key. -/
def RecoveryEnv.answer (env : RecoveryEnv σ) (o : Order) : Except TradingError Order :=
  if lookupKey o = "" then .error (.orderNotFound "") else env.getOrder o.symbol (lookupKey o)

/-- The exchange has executed more of the order than the local row shows, and reports it
with one of the two statuses recovery makes up fills for. -/
def Lags (o x : Order) : Prop :=
  (x.status = .filled ∨ x.status = .partiallyFilled) ∧ o.filledQuantity < x.filledQuantity

instance (o x : Order) : Decidable (Lags o x) :=
  inferInstanceAs (Decidable (_ ∧ _))

/-- The call of the order manager an order's turn makes. -/
inductive RecoveryCall where
  | lifecycle (l : Lifecycle)
  | fill (fill : Fill)
  | nothing
  deriving DecidableEq, Repr

def rejectReason (o : Order) : String :=
  if lookupKey o = "" then "no exchange/client order id during recovery; no blind resubmit"
  else "order not found on exchange during recovery; no blind resubmit"

/-- The call for the answer of the exchange. -/
def recoveryCall (env : RecoveryEnv σ) (ids : RecoveryIds) (o : Order) :
    Except TradingError Order → Except TradingError RecoveryCall
  | .error (.orderNotFound _) => .ok (.lifecycle (.reject (rejectReason o) (some ids.eventId)))
  | .error e => .error e
  | .ok x =>
    if Lags o x then .ok (.fill (recoveryFill env.filledText o x ids.tradeId))
    else if x.status = o.status then .ok .nothing
    else match adoptStatus x ids.eventId with
      | some l => .ok (.lifecycle l)
      | none => .ok .nothing

def runCall (settle : SettlementCallback σ) (ids : RecoveryIds) (orderId : String) (call : RecoveryCall)
    (db : Db σ) : Except TradingError Unit × Db σ :=
  match call with
  | .lifecycle l => callLifecycle orderId l ids.minted db
  | .fill fill => andThen (applyFill settle fill ids.fill db) fun _ db' => (.ok (), db')
  | .nothing => (.ok (), db)

/-- The turn without its report. -/
def recoveryTurn (env : RecoveryEnv σ) (o : Order) (db : Db σ) : Except TradingError Unit × Db σ :=
  match recoveryCall env (env.newIds db.store) o (env.answer o) with
  | .ok call => runCall env.settle (env.newIds db.store) o.internalOrderId call db
  | .error e => (.error e, db)

@[simp] lemma andThen_ok {α β : Type} (a : α) (db : Db σ) (f : α → Db σ → Except TradingError β × Db σ) :
    andThen (.ok a, db) f = f a db := rfl

@[simp] lemma andThen_error {α β : Type} (e : TradingError) (db : Db σ)
    (f : α → Db σ → Except TradingError β × Db σ) : andThen (.error e, db) f = (.error e, db) := rfl

@[simp] lemma andThen_assoc {α β γ : Type} (p : Except TradingError α × Db σ)
    (f : α → Db σ → Except TradingError β × Db σ) (g : β → Db σ → Except TradingError γ × Db σ) :
    andThen (andThen p f) g = andThen p (fun a db => andThen (f a db) g) := by
  rcases p with ⟨_ | _, db⟩ <;> rfl

lemma reconcile_eq (env : RecoveryEnv σ) (ids : RecoveryIds) (o x : Order) (db : Db σ) :
    ∃ call actions, recoveryCall env ids o (.ok x) = .ok call ∧
      reconcile env ids o x db =
        andThen (runCall env.settle ids o.internalOrderId call db) fun _ db' => (.ok actions, db') := by
  by_cases hl : Lags o x
  · obtain ⟨hf | hp, hq⟩ := hl
    · by_cases ho : o.status = .filled
      · simp [recoveryCall, reconcile, Lags, hq, hf, ho, runCall]
        exact ⟨_, rfl⟩
      · -- FILLED is reported, but never adopted as a status
        simp [recoveryCall, reconcile, Lags, hq, hf, Ne.symm ho, runCall, adoptStatus]
        exact ⟨_, rfl⟩
    · simp [recoveryCall, reconcile, Lags, hq, hp, runCall]
      exact ⟨_, rfl⟩
  · have hf : ¬ (x.status = .filled ∧ o.filledQuantity < x.filledQuantity) := fun h => hl ⟨.inl h.1, h.2⟩
    have hp : ¬ (x.status = .partiallyFilled ∧ o.filledQuantity < x.filledQuantity) :=
      fun h => hl ⟨.inr h.1, h.2⟩
    by_cases hs : x.status = o.status
    · refine ⟨.nothing, [], by simp [recoveryCall, hl, hs], ?_⟩
      simp only [reconcile, if_neg hf, if_neg hp, if_neg (not_not.mpr hs), runCall, andThen_ok]
    · cases ha : adoptStatus x ids.eventId with
      | none =>
        refine ⟨.nothing, [.moved o.clientOrderId o.status x.status], by simp [recoveryCall, hl, hs, ha], ?_⟩
        simp only [reconcile, if_neg hf, if_neg hp, ne_eq, hs, not_false_eq_true, if_true, ha, runCall,
          andThen_ok, List.nil_append]
      | some l =>
        refine ⟨.lifecycle l, [.moved o.clientOrderId o.status x.status], by simp [recoveryCall, hl, hs, ha], ?_⟩
        simp only [reconcile, if_neg hf, if_neg hp, ne_eq, hs, not_false_eq_true, if_true, ha, runCall,
          andThen_ok, List.nil_append]

lemma recoverOrder_eq (env : RecoveryEnv σ) (o : Order) (db : Db σ) :
    ∃ actions, recoverOrder env o db = andThen (recoveryTurn env o db) fun _ db' => (.ok actions, db') := by
  by_cases hk : lookupKey o = ""
  · simp only [recoverOrder, recoveryTurn, RecoveryEnv.answer, recoveryCall, rejectReason, hk, if_true]
    exact ⟨_, rfl⟩
  · simp only [recoverOrder, recoveryTurn, RecoveryEnv.answer, hk, if_false]
    cases ha : env.getOrder o.symbol (lookupKey o) with
    | error e =>
      cases e with
      | orderNotFound message =>
        simp only [recoveryCall, rejectReason, hk, if_false]
        exact ⟨_, rfl⟩
      | _ => exact ⟨[], rfl⟩
    | ok x =>
      obtain ⟨call, actions, hcall, heq⟩ := reconcile_eq env (env.newIds db.store) o x db
      simp only [hcall]
      exact ⟨actions, heq⟩

/-- The database after one order's turn. -/
def recoverStep (env : RecoveryEnv σ) (db : Db σ) (o : Order) : Db σ :=
  (recoverOrder env o db).2

lemma recoverStep_eq (env : RecoveryEnv σ) (db : Db σ) (o : Order) :
    recoverStep env db o = (recoveryTurn env o db).2 := by
  obtain ⟨actions, ha⟩ := recoverOrder_eq env o db
  rw [recoverStep, ha]
  rcases recoveryTurn env o db with ⟨e | u, db'⟩ <;> rfl

/-- The listed orders whose turns take place: up to the first that raises. -/
def turnsTaken (env : RecoveryEnv σ) : List Order → Db σ → List Order
  | [], _ => []
  | o :: os, db =>
    o :: match (recoverOrder env o db).1 with
      | .ok _ => turnsTaken env os (recoverStep env db o)
      | .error _ => []

lemma turnsTaken_subset (env : RecoveryEnv σ) (os : List Order) (db : Db σ) :
    turnsTaken env os db ⊆ os := by
  induction os generalizing db with
  | nil => simp [turnsTaken]
  | cons o os ih =>
    simp only [turnsTaken]
    cases (recoverOrder env o db).1 with
    | ok actions => exact List.cons_subset_cons o (ih _)
    | error e => simp

lemma recoverAll_eq_run (env : RecoveryEnv σ) (os : List Order) (db : Db σ) :
    (recoverAll env os db).2 = Runs.run (recoverStep env) db (turnsTaken env os db) := by
  induction os generalizing db with
  | nil => rfl
  | cons o os ih =>
    simp only [recoverAll, turnsTaken, Runs.run_cons, recoverStep] at ih ⊢
    rcases recoverOrder env o db with ⟨e | actions, db'⟩
    · rfl
    · rw [andThen_ok, ← ih]
      rcases recoverAll env os db' with ⟨e | more, db''⟩ <;> rfl

/-! ### What recovery writes to the order tables -/

lemma applyFill_exec (settle : SettlementCallback σ) (fill : Fill) (ids : FillIds) (db : Db σ) :
    (applyFill settle fill ids db).2.store = exec db.store (.applyFill fill ids) := by
  simp only [exec]
  cases h : applyFillTxn fill ids db.store with
  | error e => simp [applyFill, h]
  | ok w => exact applyFill_store settle h

lemma callLifecycle_exec (orderId : String) (l : Lifecycle) (minted : String) (db : Db σ) :
    (callLifecycle orderId l minted db).2.store = exec db.store (.lifecycle orderId l minted) := by
  simp only [exec, callLifecycle]
  cases h : l.run orderId minted db.store <;> rfl

lemma callLifecycle_of_accepted {orderId : String} {l : Lifecycle} {minted : String} {db : Db σ} {r : Order}
    {n : OrderStatus} (hn : nextStatus r.status l.eventType = some n)
    (h : RecordAccepted db.store orderId n l.args minted r) :
    callLifecycle orderId l minted db = (.ok (),
      ⟨db.store.commit (recordedRow r n l.args minted) (recordedEvent r l.eventType n l.args minted) [],
        db.rest⟩) := by
  obtain ⟨a, ha⟩ := transition_of_accepted hn h
  simp only [callLifecycle, l.run_eq, ha]

lemma callLifecycle_illegal {orderId : String} {l : Lifecycle} (minted : String) {db : Db σ} {r : Order}
    (hr : db.store.get orderId = some r) (hn : nextStatus r.status l.eventType = none) :
    ∃ e, callLifecycle orderId l minted db = (.error e, db) := by
  obtain ⟨e, he⟩ := transition_illegal l.args minted hr hn
  exact ⟨e, by simp only [callLifecycle, l.run_eq, he]⟩

lemma runCall_fill (settle : SettlementCallback σ) (ids : RecoveryIds) (orderId : String) (fill : Fill) (db : Db σ) :
    (runCall settle ids orderId (.fill fill) db).2 = (applyFill settle fill ids.fill db).2 := by
  simp only [runCall]
  rcases applyFill settle fill ids.fill db with ⟨_ | _, _⟩ <;> rfl

/-- A lifecycle call settles nothing. -/
lemma callLifecycle_rest (orderId : String) (l : Lifecycle) (minted : String) (db : Db σ) :
    (callLifecycle orderId l minted db).2.rest = db.rest := by
  simp only [callLifecycle]
  cases l.run orderId minted db.store <;> rfl

/-- The tables after an order is reconciled: a lagging order is filled, for another at most
its status is taken over. -/
lemma reconcile_store (env : RecoveryEnv σ) (ids : RecoveryIds) (o x : Order) (db : Db σ) :
    (Lags o x ∧ (reconcile env ids o x db).2.store =
        exec db.store (.applyFill (recoveryFill env.filledText o x ids.tradeId) ids.fill)) ∨
      (¬ Lags o x ∧ ((reconcile env ids o x db).2.store = db.store ∨
        ∃ l, adoptStatus x ids.eventId = some l ∧
          (reconcile env ids o x db).2.store = exec db.store (.lifecycle o.internalOrderId l ids.minted))) := by
  obtain ⟨call, actions, hcall, heq⟩ := reconcile_eq env ids o x db
  have hstore : (reconcile env ids o x db).2.store =
      (runCall env.settle ids o.internalOrderId call db).2.store := by
    rw [heq]
    rcases runCall env.settle ids o.internalOrderId call db with ⟨_ | _, _⟩ <;> rfl
  rw [hstore]
  simp only [recoveryCall] at hcall
  by_cases hl : Lags o x
  · rw [if_pos hl] at hcall
    obtain rfl := Except.ok.inj hcall
    refine .inl ⟨hl, ?_⟩
    rw [runCall_fill, applyFill_exec]
  · rw [if_neg hl] at hcall
    refine .inr ⟨hl, ?_⟩
    by_cases hs : x.status = o.status
    · rw [if_pos hs] at hcall
      obtain rfl := Except.ok.inj hcall
      exact .inl rfl
    · rw [if_neg hs] at hcall
      cases ha : adoptStatus x ids.eventId with
      | none =>
        rw [ha] at hcall
        obtain rfl := Except.ok.inj hcall
        exact .inl rfl
      | some l =>
        rw [ha] at hcall
        obtain rfl := Except.ok.inj hcall
        exact .inr ⟨l, rfl, callLifecycle_exec _ _ _ _⟩

/-- The turn applies a fill if the local order lags behind the answer, and no other. -/
lemma recoveryCall_eq_fill_iff {env : RecoveryEnv σ} {ids : RecoveryIds} {o : Order}
    {answer : Except TradingError Order} {fill : Fill} : recoveryCall env ids o answer = .ok (.fill fill) ↔
      ∃ x, answer = .ok x ∧ Lags o x ∧ fill = recoveryFill env.filledText o x ids.tradeId := by
  cases answer with
  | error e => cases e <;> simp [recoveryCall]
  | ok x =>
    simp only [recoveryCall, Except.ok.injEq, exists_eq_left']
    by_cases hl : Lags o x
    · simp [hl, eq_comm]
    · rw [if_neg hl]
      refine iff_of_false ?_ (fun h => hl h.1)
      split
      · simp
      · cases adoptStatus x ids.eventId <;> simp

lemma recoveryCall_fill {env : RecoveryEnv σ} {ids : RecoveryIds} {o : Order}
    {answer : Except TradingError Order} {fill : Fill} (h : recoveryCall env ids o answer = .ok (.fill fill)) :
    0 < fill.quantity := by
  obtain ⟨x, -, hl, rfl⟩ := recoveryCall_eq_fill_iff.mp h
  exact sub_pos.mpr hl.2

lemma recoverStep_exec (env : RecoveryEnv σ) (o : Order) (db : Db σ) :
    (recoverStep env db o).store = db.store ∨
      ∃ c : OrderCall, c.Positive ∧ (recoverStep env db o).store = exec db.store c := by
  rw [recoverStep_eq, recoveryTurn]
  cases hcall : recoveryCall env (env.newIds db.store) o (env.answer o) with
  | error e => exact .inl rfl
  | ok call =>
    cases call with
    | lifecycle l => exact .inr ⟨.lifecycle o.internalOrderId l _, trivial, callLifecycle_exec _ _ _ _⟩
    | fill fill =>
      refine .inr ⟨.applyFill fill (env.newIds db.store).fill, recoveryCall_fill hcall, ?_⟩
      rw [← applyFill_exec env.settle, ← runCall_fill env.settle _ o.internalOrderId]
    | nothing => exact .inl rfl

lemma recoverAll_exec (env : RecoveryEnv σ) (os : List Order) (db : Db σ) :
    ∃ calls : List OrderCall, (∀ c ∈ calls, c.Positive) ∧
      (recoverAll env os db).2.store = Runs.run exec db.store calls := by
  rw [recoverAll_eq_run]
  generalize turnsTaken env os db = turns
  induction turns generalizing db with
  | nil => exact ⟨[], by simp, rfl⟩
  | cons o turns ih =>
    obtain ⟨calls, hpos, hdb⟩ := ih (recoverStep env db o)
    rw [Runs.run_cons, hdb]
    rcases recoverStep_exec env o db with hs | ⟨c, hc, hs⟩
    · exact ⟨calls, hpos, by rw [hs]⟩
    · refine ⟨c :: calls, ?_, by rw [Runs.run_cons, hs]⟩
      intro c' hc'
      rcases List.mem_cons.mp hc' with rfl | hc'
      · exact hc
      · exact hpos c' hc'

end CryptoTrader
