import CryptoTrader.Runtime.Approval
import CryptoTrader.Runtime.PerpetualOrder
import Mathlib.Algebra.Notation.Lemmas

/-!
# Orders in flight

A signal that risk and authority approve becomes an order, the exchange executes it, and its
fills come back through the event queue to be applied to the order and then settled in the
ledger. The calls of `process_signal`, the exchange, the event loop and the settlements take
their turns in any order.
-/

namespace CryptoTrader

open KeyedTable OrderStore Weights

/-- A signal that is approved at a reference price and not yet submitted. -/
structure ApprovedSignal where
  signal : SignalIntent
  marketPrice : ℚ
  runId : Option String
  deriving DecidableEq, Repr

/-- An order on the book of the exchange. -/
structure WorkingOrder where
  orderId : String
  symbol : String
  side : OrderSide
  price : Option ℚ
  remaining : ℚ
  deriving DecidableEq, Repr

/-- The database, and what is under way: approved signals, working orders, fills in the
event queue, and fills that are applied and wait for `_settle_fill`. -/
structure OrderFlow where
  db : Db Books
  approved : List ApprovedSignal := []
  working : List WorkingOrder := []
  queued : List Fill := []
  unsettled : List Fill := []

inductive FlowTurn where
  /-- `process_signal` up to the answer of the authority. -/
  | decide (signal : SignalIntent) (env : SignalEnv)
  /-- What `process_signal` does with the `n`-th of the approved signals. -/
  | submit (n : Nat) (ids : PerpetualIds)
  | transition (orderId : String) (l : Lifecycle) (minted : String)
  /-- The exchange executes the `n`-th working order. -/
  | execute (n : Nat) (fill : Fill)
  /-- The exchange takes the `n`-th working order off its book. -/
  | withdraw (n : Nat)
  /-- `apply_fill`, up to its commit. -/
  | apply (n : Nat) (ids : FillIds)
  | settle (n : Nat) (ctx : SettleContext)

/-- The life of a spot order in `process_signal`: `create_from_intent` and the three
transitions before `submit_order`. -/
def submitOrder (mode : TradingMode) (intent : OrderIntent) (ids : PerpetualIds) (db : Db Books) :
    Except TradingError Order × Db Books :=
  andThen (callCreate intent mode ids.orderId ids.created db) fun order db =>
  andThen (callLifecycle order.internalOrderId .validate ids.validated db) fun _ db =>
  andThen (callLifecycle order.internalOrderId .submitting ids.submitting db) fun _ db =>
  andThen (callLifecycle order.internalOrderId .submitted ids.submitted db) fun _ db =>
  (.ok order, db)

def ApprovedSignal.intent (a : ApprovedSignal) : OrderIntent :=
  intentOfSignal a.signal a.runId

def WorkingOrder.ofOrder (order : Order) : WorkingOrder where
  orderId := order.internalOrderId
  symbol := order.symbol
  side := order.side
  price := order.price
  remaining := order.quantity

/-- What an execution leaves of a working order. -/
def WorkingOrder.after (w : WorkingOrder) (fill : Fill) : WorkingOrder :=
  { w with remaining := w.remaining - fill.quantity }

def flowStep (setup : PerpetualSetup) (st : OrderFlow) : FlowTurn → OrderFlow
  | .decide signal env =>
    match st.db.store.getByClient (clientOrderId signal) with
    | some _ => st
    | none =>
      if Approves setup.engine env signal st.db then
        { st with approved := st.approved ++ [⟨signal, env.marketPrice, env.runId⟩] }
      else st
  | .submit n ids =>
    match st.approved[n]? with
    | none => st
    | some a =>
      match a.signal.marketType with
      | .perpetual =>
        { st with
          approved := st.approved.eraseIdx n
          db := (executePerpetualOrder setup a.intent a.marketPrice a.signal.positionSide (clientOrderId a.signal) ids none
            st.db).2 }
      | .spot =>
        match submitOrder setup.mode a.intent ids st.db with
        | (.error _, db) => { st with approved := st.approved.eraseIdx n, db }
        | (.ok order, db) =>
          { st with
            approved := st.approved.eraseIdx n
            working := st.working ++ [.ofOrder order]
            db }
  | .transition orderId l minted => { st with db := (callLifecycle orderId l minted st.db).2 }
  | .execute n fill =>
    match st.working[n]? with
    | none => st
    | some w =>
      if w.remaining < fill.quantity then st
      else { st with working := st.working.set n (w.after fill), queued := st.queued ++ [fill] }
  | .withdraw n => { st with working := st.working.eraseIdx n }
  | .apply n ids =>
    match st.queued[n]? with
    | none => st
    | some fill =>
      match applyFillTxn fill ids st.db.store with
      | .error _ => { st with queued := st.queued.eraseIdx n }
      | .ok (result, s) =>
        { st with
          queued := st.queued.eraseIdx n
          unsettled := if result.newlyApplied then st.unsettled ++ [fill] else st.unsettled
          db := ⟨s, st.db.rest⟩ }
  | .settle n ctx =>
    match st.unsettled[n]? with
    | none => st
    | some fill =>
      { st with
        unsettled := st.unsettled.eraseIdx n
        db := ⟨st.db.store, (settleFill setup.quarantined ctx st.db.store fill st.db.rest).2⟩ }

/-! ### The order tables -/

/-- The order with this id has this symbol and side. -/
def Names (s : OrderStore) (orderId symbol : String) (side : OrderSide) : Prop :=
  ∃ r, s.get orderId = some r ∧ r.symbol = symbol ∧ r.side = side

lemma Names.of_get {s : OrderStore} {orderId symbol : String} {side : OrderSide} (h : Names s orderId symbol side)
    {order : Order} (hget : s.get orderId = some order) : order.symbol = symbol ∧ order.side = side := by
  obtain ⟨r, hr, hsymbol, hside⟩ := h
  obtain rfl : r = order := Option.some.inj (hr.symm.trans hget)
  exact ⟨hsymbol, hside⟩

/-- The tables still have unique keys, and every order its symbol and side. -/
structure KeepsOrders (s s' : OrderStore) : Prop where
  keys : UniqueKeys s'
  names : ∀ {orderId symbol side}, Names s orderId symbol side → Names s' orderId symbol side

lemma KeepsOrders.refl {s : OrderStore} (hk : UniqueKeys s) : KeepsOrders s s :=
  ⟨hk, id⟩

lemma KeepsOrders.trans {s s' s'' : OrderStore} (h : KeepsOrders s s') (h' : KeepsOrders s' s'') : KeepsOrders s s'' :=
  ⟨h'.keys, fun hn => h'.names (h.names hn)⟩

lemma keepsOrders_commit {s : OrderStore} (hk : UniqueKeys s) {r w : Order} (hr : r ∈ s.orders)
    (hid : w.internalOrderId = r.internalOrderId) (hclient : w.clientOrderId = r.clientOrderId)
    (hsymbol : w.symbol = r.symbol) (hside : w.side = r.side) (e : OrderEvent) (fs : List Fill) :
    KeepsOrders s (s.commit w e fs) := by
  refine ⟨hk.commit hr hid hclient e fs, ?_⟩
  rintro orderId symbol side ⟨q, hq, rfl, rfl⟩
  by_cases heq : orderId = w.internalOrderId
  · have hget : s.get w.internalOrderId = some r := by
      rw [hid]
      exact hk.get hr
    rw [heq] at hq ⊢
    obtain rfl : r = q := Option.some.inj (hget.symm.trans hq)
    exact ⟨w, get_commit_self e fs hget, hsymbol, hside⟩
  · exact ⟨q, (get_commit_of_ne e fs heq).trans hq, rfl, rfl⟩

lemma exec_keepsOrders {s : OrderStore} (hk : UniqueKeys s) (c : OrderCall) : KeepsOrders s (exec s c) := by
  have heff := exec_effect s c
  generalize exec s c = s' at heff
  cases heff with
  | unchanged => exact .refl hk
  | created intent mode orderId eventId hid hclient =>
    refine ⟨hk.created mode eventId hid hclient, ?_⟩
    rintro id symbol side ⟨q, hq, hrest⟩
    exact ⟨q, row_append_of_some hq, hrest⟩
  | recorded orderId l minted r n hn hacc =>
    apply keepsOrders_commit hk (get_mem hacc.row).1 <;> rfl
  | filled fill ids r n hacc =>
    apply keepsOrders_commit hk (fillOrder_mem hacc.row) <;> rfl

/-! ### Sequences of commits -/

section Sequences

variable {α β : Type} {p : Except TradingError α × Db Books} {f : α → Db Books → Except TradingError β × Db Books}

/-- From what holds after the first step both the end of the first and the second lead on. -/
lemma andThen_leads {P Q : Db Books → Prop} (hp : P p.2) (hstop : ∀ db, P db → Q db) (hf : ∀ a db, P db → Q (f a db).2) :
    Q (andThen p f).2 := by
  obtain ⟨result, db⟩ := p
  cases result with
  | error e => exact hstop db hp
  | ok a => exact hf a db hp

/-- What holds after the first step and is kept by the second holds after both. -/
lemma andThen_keeps {P : Db Books → Prop} (hp : P p.2) (hf : ∀ a db, P db → P (f a db).2) : P (andThen p f).2 :=
  andThen_leads hp (fun _ h => h) hf

lemma andThen_eq_ok {b : β} {db' : Db Books} (h : andThen p f = (.ok b, db')) :
    ∃ a db, p = (.ok a, db) ∧ f a db = (.ok b, db') := by
  obtain ⟨result, db⟩ := p
  cases result with
  | error e => simp [andThen] at h
  | ok a => exact ⟨a, db, rfl, h⟩

end Sequences

/-- The step writes to the order tables only. -/
def OrdersOnly (db db' : Db Books) : Prop :=
  KeepsOrders db.store db'.store ∧ db'.rest = db.rest

section Calls

variable {db db' : Db Books}

lemma KeepsOrders.lifecycle (h : KeepsOrders db.store db'.store) (orderId : String) (l : Lifecycle) (minted : String) :
    KeepsOrders db.store (callLifecycle orderId l minted db').2.store := by
  apply h.trans
  rw [callLifecycle_exec]
  exact exec_keepsOrders h.keys _

lemma OrdersOnly.lifecycle (h : OrdersOnly db db') (orderId : String) (l : Lifecycle) (minted : String) :
    OrdersOnly db (callLifecycle orderId l minted db').2 :=
  ⟨h.1.lifecycle orderId l minted, (callLifecycle_rest orderId l minted db').trans h.2⟩

lemma ordersOnly_create (hk : UniqueKeys db.store) (intent : OrderIntent) (mode : TradingMode) (orderId minted : String) :
    OrdersOnly db (callCreate intent mode orderId minted db).2 := by
  have hkeeps := exec_keepsOrders hk (.createFromIntent intent mode orderId minted)
  unfold callCreate
  unfold exec at hkeeps
  dsimp only at hkeeps
  cases hcreate : createFromIntent intent mode orderId minted db.store with
  | error e => exact ⟨.refl hk, rfl⟩
  | ok w =>
    rw [hcreate] at hkeeps
    exact ⟨hkeeps, rfl⟩

/-- The order that `create_from_intent` returns is in the table and is that of the intent. -/
structure OrderOf (intent : OrderIntent) (s : OrderStore) (order : Order) : Prop where
  names : Names s order.internalOrderId intent.symbol intent.side
  symbol : order.symbol = intent.symbol
  side : order.side = intent.side
  quantity : order.quantity = intent.quantity
  price : order.price.getD 0 = intent.price.getD 0

lemma orderOf_created (hk : UniqueKeys db.store) {intent : OrderIntent} {mode : TradingMode} {orderId minted : String}
    {order : Order} (h : callCreate intent mode orderId minted db = (.ok order, db')) : OrderOf intent db'.store order := by
  unfold callCreate createFromIntent at h
  cases hclient : db.store.getByClient intent.clientOrderId with
  | some existing =>
    rw [hclient] at h
    dsimp only at h
    by_cases hsame : existing.symbol = intent.symbol ∧ existing.side = intent.side ∧
        existing.orderType = intent.orderType ∧ existing.price.getD 0 = intent.price.getD 0 ∧
        existing.quantity = intent.quantity
    · rw [reuseOrConflict, if_pos hsame] at h
      simp only [Prod.mk.injEq, Except.ok.injEq] at h
      obtain ⟨rfl, rfl⟩ := h
      obtain ⟨hsymbol, hside, -, hprice, hquantity⟩ := hsame
      exact ⟨⟨existing, hk.get (row_some hclient).1, hsymbol, hside⟩, hsymbol, hside, hquantity, hprice⟩
    · rw [reuseOrConflict, if_neg hsame] at h
      simp at h
  | none =>
    rw [hclient] at h
    dsimp only at h
    unfold createInsert at h
    by_cases hfree : db.store.get orderId = none ∧ db.store.getByClient intent.clientOrderId = none ∧
        db.store.getEvent minted = none
    · rw [if_pos hfree] at h
      simp only [Prod.mk.injEq, Except.ok.injEq] at h
      obtain ⟨rfl, rfl⟩ := h
      refine ⟨⟨intentRow intent mode orderId, ?_, rfl, rfl⟩, rfl, rfl, rfl, rfl⟩
      exact (row_append_of_none hfree.1).trans (by simp [row, intentRow])
    · rw [if_neg hfree] at h
      simp at h

lemma submitOrder_ordersOnly (hk : UniqueKeys db.store) (mode : TradingMode) (intent : OrderIntent) (ids : PerpetualIds) :
    OrdersOnly db (submitOrder mode intent ids db).2 := by
  unfold submitOrder
  apply andThen_keeps (ordersOnly_create hk intent mode _ _)
  intro order db₁ h₁
  apply andThen_keeps (h₁.lifecycle _ .validate _)
  intro _ db₂ h₂
  apply andThen_keeps (h₂.lifecycle _ .submitting _)
  intro _ db₃ h₃
  apply andThen_keeps (h₃.lifecycle _ .submitted _)
  intro _ db₄ h₄
  exact h₄

lemma submitOrder_ok (hk : UniqueKeys db.store) {mode : TradingMode} {intent : OrderIntent} {ids : PerpetualIds}
    {order : Order} (h : submitOrder mode intent ids db = (.ok order, db')) : OrderOf intent db'.store order := by
  unfold submitOrder at h
  obtain ⟨order', db₁, hcreate, h⟩ := andThen_eq_ok h
  have hkeeps : OrdersOnly db db₁ := by
    have hcreated := ordersOnly_create hk intent mode ids.orderId ids.created
    rwa [hcreate] at hcreated
  have horder := orderOf_created hk hcreate
  obtain ⟨_, db₂, hvalidate, h⟩ := andThen_eq_ok h
  obtain ⟨_, db₃, hsubmitting, h⟩ := andThen_eq_ok h
  obtain ⟨_, db₄, hsubmitted, h⟩ := andThen_eq_ok h
  simp only [Prod.mk.injEq, Except.ok.injEq] at h
  obtain ⟨rfl, rfl⟩ := h
  have h₂ : OrdersOnly db₁ (callLifecycle order'.internalOrderId .validate ids.validated db₁).2 :=
    OrdersOnly.lifecycle ⟨.refl hkeeps.1.keys, rfl⟩ _ _ _
  rw [hvalidate] at h₂
  have h₃ := h₂.lifecycle order'.internalOrderId .submitting ids.submitting
  rw [hsubmitting] at h₃
  have h₄ := h₃.lifecycle order'.internalOrderId .submitted ids.submitted
  rw [hsubmitted] at h₄
  exact { horder with names := h₄.1.names horder.names }

lemma executePerpetualOrder_keepsOrders (hk : UniqueKeys db.store) (setup : PerpetualSetup) (intent : OrderIntent)
    (price : ℚ) (positionSide : PositionSide) (clientOrderId : String) (ids : PerpetualIds) :
    KeepsOrders db.store (executePerpetualOrder setup intent price positionSide clientOrderId ids none db).2.store := by
  unfold executePerpetualOrder
  cases setup.engine with
  | none => exact .refl hk
  | some engine =>
    dsimp only
    by_cases hprice : price ≤ 0
    · rw [if_pos hprice]
      exact .refl hk
    rw [if_neg hprice]
    simp only [unlessCut, reduceCtorEq, if_false]
    generalize hkeep : (fun db' : Db Books => KeepsOrders db.store db'.store) = P
    have hlifecycle : ∀ db', P db' → ∀ orderId l minted, P (callLifecycle orderId l minted db').2 := by
      rw [← hkeep]
      exact fun db' h => h.lifecycle
    have hmove : ∀ db', P db' → ∀ intent side orderId,
        P (movePosition engine intent side price setup.leverage orderId ids.transactionId db').2 := by
      rw [← hkeep]
      intro db' h intent side orderId
      unfold movePosition
      split <;> exact h
    have hfill : ∀ db', P db' → ∀ fill, P (applyFill (settleFill setup.quarantined setup.settlement) fill ids.fill db').2 := by
      rw [← hkeep]
      intro db' h fill
      apply h.trans
      rw [applyFill_exec]
      exact exec_keepsOrders h.keys _
    have hcreate : P (callCreate intent setup.mode ids.orderId ids.created db).2 := by
      rw [← hkeep]
      exact (ordersOnly_create hk intent setup.mode _ _).1
    suffices hall : P (andThen (callCreate intent setup.mode ids.orderId ids.created db) _).2 by
      rw [← hkeep] at hall
      exact hall
    apply andThen_keeps hcreate
    intro order db₁ h₁
    apply andThen_keeps (hlifecycle db₁ h₁ _ _ _)
    intro _ db₂ h₂
    apply andThen_keeps (hlifecycle db₂ h₂ _ _ _)
    intro _ db₃ h₃
    apply andThen_keeps (hlifecycle db₃ h₃ _ _ _)
    intro _ db₄ h₄
    apply andThen_keeps (hmove db₄ h₄ _ _ _)
    intro _ db₅ h₅
    apply andThen_keeps (hfill db₅ h₅ _)
    exact fun _ _ h => h

end Calls

/-! ### What a turn can do -/

section Effects

variable (setup : PerpetualSetup) (st : OrderFlow)

/-- There is nothing for the turn to do. -/
def Idle : FlowTurn → Prop
  | .decide signal env => ¬ (st.db.store.getByClient (clientOrderId signal) = none ∧ Approves setup.engine env signal st.db)
  | .submit n _ => st.approved[n]? = none
  | .settle n _ => st.unsettled[n]? = none
  | _ => True

inductive FlowEffect : FlowTurn → OrderFlow → Prop
  | idle (turn : FlowTurn) (h : Idle setup st turn) : FlowEffect turn st
  | approved (signal : SignalIntent) (env : SignalEnv) (hnew : st.db.store.getByClient (clientOrderId signal) = none)
      (happrove : Approves setup.engine env signal st.db) :
      FlowEffect (.decide signal env) { st with approved := st.approved ++ [⟨signal, env.marketPrice, env.runId⟩] }
  | perpetual (n : Nat) (ids : PerpetualIds) (a : ApprovedSignal) (ha : st.approved[n]? = some a)
      (hperp : a.signal.marketType = .perpetual) :
      FlowEffect (.submit n ids) { st with
        approved := st.approved.eraseIdx n
        db := (executePerpetualOrder setup a.intent a.marketPrice a.signal.positionSide (clientOrderId a.signal) ids none
          st.db).2 }
  | failed (n : Nat) (ids : PerpetualIds) (a : ApprovedSignal) (db : Db Books) (ha : st.approved[n]? = some a)
      (hspot : a.signal.marketType = .spot) (h : OrdersOnly st.db db) :
      FlowEffect (.submit n ids) { st with approved := st.approved.eraseIdx n, db }
  | submitted (n : Nat) (ids : PerpetualIds) (a : ApprovedSignal) (order : Order) (db : Db Books)
      (ha : st.approved[n]? = some a) (hspot : a.signal.marketType = .spot) (h : OrdersOnly st.db db)
      (horder : OrderOf a.intent db.store order) :
      FlowEffect (.submit n ids) { st with
        approved := st.approved.eraseIdx n
        working := st.working ++ [.ofOrder order]
        db }
  | recorded (orderId : String) (l : Lifecycle) (minted : String) (db : Db Books) (h : OrdersOnly st.db db) :
      FlowEffect (.transition orderId l minted) { st with db }
  | executed (n : Nat) (fill : Fill) (w : WorkingOrder) (hw : st.working[n]? = some w) (hle : fill.quantity ≤ w.remaining) :
      FlowEffect (.execute n fill) { st with
        working := st.working.set n (w.after fill)
        queued := st.queued ++ [fill] }
  | withdrawn (n : Nat) : FlowEffect (.withdraw n) { st with working := st.working.eraseIdx n }
  | refused (n : Nat) (ids : FillIds) : FlowEffect (.apply n ids) { st with queued := st.queued.eraseIdx n }
  | applied (n : Nat) (ids : FillIds) (fill : Fill) (s : OrderStore) (hf : st.queued[n]? = some fill)
      (h : KeepsOrders st.db.store s) :
      FlowEffect (.apply n ids) { st with
        queued := st.queued.eraseIdx n
        unsettled := st.unsettled ++ [fill]
        db := ⟨s, st.db.rest⟩ }
  | settled (n : Nat) (ctx : SettleContext) (fill : Fill) (hf : st.unsettled[n]? = some fill) :
      FlowEffect (.settle n ctx) { st with
        unsettled := st.unsettled.eraseIdx n
        db := ⟨st.db.store, (settleFill setup.quarantined ctx st.db.store fill st.db.rest).2⟩ }

variable {st}

lemma flow_effect (hk : UniqueKeys st.db.store) (turn : FlowTurn) : FlowEffect setup st turn (flowStep setup st turn) := by
  cases turn with
  | decide signal env =>
    simp only [flowStep]
    cases hclient : st.db.store.getByClient (clientOrderId signal) with
    | some r => exact .idle _ (by simp [Idle, hclient])
    | none =>
      dsimp only
      by_cases happrove : Approves setup.engine env signal st.db
      · rw [if_pos happrove]
        exact .approved signal env hclient happrove
      · rw [if_neg happrove]
        exact .idle _ (fun h => happrove h.2)
  | submit n ids =>
    simp only [flowStep]
    cases ha : st.approved[n]? with
    | none => exact .idle _ ha
    | some a =>
      dsimp only
      cases hmarket : a.signal.marketType with
      | perpetual => exact .perpetual n ids a ha hmarket
      | spot =>
        have honly := submitOrder_ordersOnly hk setup.mode a.intent ids
        dsimp only
        cases hsubmit : submitOrder setup.mode a.intent ids st.db with
        | mk result db =>
          rw [hsubmit] at honly
          cases result with
          | error e => exact .failed n ids a db ha hmarket honly
          | ok order => exact .submitted n ids a order db ha hmarket honly (submitOrder_ok hk hsubmit)
  | transition orderId l minted => exact .recorded orderId l minted _ (OrdersOnly.lifecycle ⟨.refl hk, rfl⟩ _ _ _)
  | execute n fill =>
    simp only [flowStep]
    cases hw : st.working[n]? with
    | none => exact .idle _ trivial
    | some w =>
      dsimp only
      by_cases hlt : w.remaining < fill.quantity
      · rw [if_pos hlt]
        exact .idle _ trivial
      · rw [if_neg hlt]
        exact .executed n fill w hw (not_lt.mp hlt)
  | withdraw n => exact .withdrawn n
  | apply n ids =>
    simp only [flowStep]
    cases hf : st.queued[n]? with
    | none => exact .idle _ trivial
    | some fill =>
      dsimp only
      have hkeeps := exec_keepsOrders hk (.applyFill fill ids)
      unfold exec at hkeeps
      dsimp only at hkeeps
      cases happly : applyFillTxn fill ids st.db.store with
      | error e => exact .refused n ids
      | ok w =>
        rw [happly] at hkeeps
        obtain ⟨result, s⟩ := w
        dsimp only at hkeeps ⊢
        obtain ⟨f, -, rfl, rfl⟩ | ⟨r, status, -, rfl, -⟩ := applyFillTxn_cases happly
        · exact .refused n ids
        · exact .applied n ids fill s hf hkeeps
  | settle n ctx =>
    simp only [flowStep]
    cases hf : st.unsettled[n]? with
    | none => exact .idle _ hf
    | some fill => exact .settled n ctx fill hf

end Effects

/-! ### What is under way -/

/-- What the parts of an order count for on their way to the ledger. -/
structure Valuation where
  approved : ApprovedSignal → ℚ
  working : WorkingOrder → ℚ
  fill : Fill → ℚ

/-- What is approved and has not reached the ledger. -/
def OrderFlow.outstanding (v : Valuation) (st : OrderFlow) : ℚ :=
  weight v.approved st.approved + (weight v.working st.working + (weight v.fill st.queued + weight v.fill st.unsettled))

/-- Fills and working orders are those of orders in the table. -/
structure OrdersKnown (st : OrderFlow) : Prop where
  keys : UniqueKeys st.db.store
  working : ∀ w ∈ st.working, Names st.db.store w.orderId w.symbol w.side
  queued : ∀ f ∈ st.queued, Names st.db.store f.orderId f.symbol f.side
  unsettled : ∀ f ∈ st.unsettled, Names st.db.store f.orderId f.symbol f.side

/-- An execution is reported as a fill of its order. -/
def ReportsOrder (st : OrderFlow) : FlowTurn → Prop
  | .execute n fill => ∀ w ∈ st.working[n]?, fill.orderId = w.orderId ∧ fill.symbol = w.symbol ∧ fill.side = w.side
  | _ => True

instance (st : OrderFlow) : ∀ turn, Decidable (ReportsOrder st turn)
  | .execute n _ => inferInstanceAs (Decidable (∀ w ∈ st.working[n]?, _))
  | .decide _ _ | .submit _ _ | .transition _ _ _ | .withdraw _ | .apply _ _ | .settle _ _ => .isTrue trivial

/-- The approved signals, the working orders and the fills have their properties. -/
structure UnderWay (A : ApprovedSignal → Prop) (W : WorkingOrder → Prop) (F : Fill → Prop) (st : OrderFlow) : Prop where
  approved : ∀ a ∈ st.approved, A a
  working : ∀ w ∈ st.working, W w
  queued : ∀ f ∈ st.queued, F f
  unsettled : ∀ f ∈ st.unsettled, F f

/-- Nothing counts for less than zero. -/
abbrev Valuation.Nonneg (v : Valuation) (st : OrderFlow) : Prop :=
  UnderWay (fun a => 0 ≤ v.approved a) (fun w => 0 ≤ v.working w) (fun f => 0 ≤ v.fill f) st

/-- An order counts for what its signal did. -/
def Valuation.Submits (v : Valuation) : Prop :=
  ∀ a s order, a.signal.marketType = .spot → OrderOf a.intent s order → v.working (.ofOrder order) = v.approved a

/-- What is approved counts for something, and an execution counts for what it takes off
the order. -/
def Valuation.Splits (v : Valuation) (setup : PerpetualSetup) (st : OrderFlow) : FlowTurn → Prop
  | .decide signal env => Approves setup.engine env signal st.db → 0 ≤ v.approved ⟨signal, env.marketPrice, env.runId⟩
  | .execute n fill => ∀ w, st.working[n]? = some w → fill.quantity ≤ w.remaining →
      0 ≤ v.fill fill ∧ 0 ≤ v.working (w.after fill) ∧ v.working (w.after fill) + v.fill fill = v.working w
  | _ => True

/-- What a turn adds to what is under way. -/
def added (v : Valuation) (setup : PerpetualSetup) (st : OrderFlow) : FlowTurn → ℚ
  | .decide signal env =>
    if st.db.store.getByClient (clientOrderId signal) = none ∧ Approves setup.engine env signal st.db then
      v.approved ⟨signal, env.marketPrice, env.runId⟩
    else 0
  | _ => 0

lemma added_cases (v : Valuation) (setup : PerpetualSetup) (st : OrderFlow) (turn : FlowTurn) :
    added v setup st turn = 0 ∨ ∃ signal env, turn = .decide signal env ∧
      st.db.store.getByClient (clientOrderId signal) = none ∧ Approves setup.engine env signal st.db ∧
      added v setup st turn = v.approved ⟨signal, env.marketPrice, env.runId⟩ := by
  cases turn with
  | decide signal env =>
    by_cases hnew : st.db.store.getByClient (clientOrderId signal) = none ∧ Approves setup.engine env signal st.db
    · exact .inr ⟨signal, env, rfl, hnew.1, hnew.2, if_pos hnew⟩
    · exact .inl (if_neg hnew)
  | _ => exact .inl rfl

/-- What a turn takes to the ledger. -/
def released (v : Valuation) (st : OrderFlow) : FlowTurn → ℚ
  | .submit n _ =>
    match st.approved[n]? with
    | some a => if a.signal.marketType = .perpetual then v.approved a else 0
    | none => 0
  | .settle n _ => (st.unsettled[n]?).elim 0 v.fill
  | _ => 0

section Outstanding

variable {setup : PerpetualSetup} {st st' : OrderFlow} {turn : FlowTurn} {v : Valuation}

lemma OrdersKnown.keeps (h : OrdersKnown st) {db : Db Books} (hkeeps : KeepsOrders st.db.store db.store) :
    OrdersKnown { st with db } :=
  ⟨hkeeps.keys, fun w hw => hkeeps.names (h.working w hw), fun f hf => hkeeps.names (h.queued f hf),
    fun f hf => hkeeps.names (h.unsettled f hf)⟩

lemma FlowEffect.tracked (h : FlowEffect setup st turn st') (ht : OrdersKnown st) (hreports : ReportsOrder st turn) :
    OrdersKnown st' := by
  cases h with
  | idle => exact ht
  | approved => exact ⟨ht.keys, ht.working, ht.queued, ht.unsettled⟩
  | perpetual n ids a ha hperp =>
    have hkept := ht.keeps (executePerpetualOrder_keepsOrders ht.keys setup a.intent a.marketPrice a.signal.positionSide
      (clientOrderId a.signal) ids)
    exact ⟨hkept.keys, hkept.working, hkept.queued, hkept.unsettled⟩
  | failed n ids a db ha hspot honly =>
    have hkept := ht.keeps honly.1
    exact ⟨hkept.keys, hkept.working, hkept.queued, hkept.unsettled⟩
  | submitted n ids a order db ha hspot honly horder =>
    have hkept := ht.keeps honly.1
    refine ⟨hkept.keys, fun w hw => ?_, hkept.queued, hkept.unsettled⟩
    rcases List.mem_append.mp hw with hw | hw
    · exact hkept.working w hw
    · rw [List.mem_singleton.mp hw]
      obtain ⟨r, hr, hsymbol, hside⟩ := horder.names
      exact ⟨r, hr, hsymbol.trans horder.symbol.symm, hside.trans horder.side.symm⟩
  | recorded orderId l minted db honly => exact ht.keeps honly.1
  | executed n fill w hw hle =>
    obtain ⟨hid, hsymbol, hside⟩ := hreports w hw
    refine ⟨ht.keys, fun x hx => ?_, fun f hf => ?_, ht.unsettled⟩
    · rcases List.mem_or_eq_of_mem_set hx with hx | rfl
      · exact ht.working x hx
      · exact ht.working w (List.mem_of_getElem? hw)
    · rcases List.mem_append.mp hf with hf | hf
      · exact ht.queued f hf
      · rw [List.mem_singleton.mp hf, hid, hsymbol, hside]
        exact ht.working w (List.mem_of_getElem? hw)
  | withdrawn n => exact ⟨ht.keys, fun w hw => ht.working w (List.mem_of_mem_eraseIdx hw), ht.queued, ht.unsettled⟩
  | refused n => exact ⟨ht.keys, ht.working, fun f hf => ht.queued f (List.mem_of_mem_eraseIdx hf), ht.unsettled⟩
  | applied n ids fill s hf hkeeps =>
    have hkept := ht.keeps (show KeepsOrders st.db.store (⟨s, st.db.rest⟩ : Db Books).store from hkeeps)
    refine ⟨hkept.keys, hkept.working, fun f hf => hkept.queued f (List.mem_of_mem_eraseIdx hf), fun f hm => ?_⟩
    rcases List.mem_append.mp hm with hm | hm
    · exact hkept.unsettled f hm
    · rw [List.mem_singleton.mp hm]
      exact hkept.queued fill (List.mem_of_getElem? hf)
  | settled n ctx fill hf =>
    exact ⟨ht.keys, ht.working, ht.queued, fun f hf => ht.unsettled f (List.mem_of_mem_eraseIdx hf)⟩

lemma FlowEffect.keepsOrders (h : FlowEffect setup st turn st') (hk : UniqueKeys st.db.store) :
    KeepsOrders st.db.store st'.db.store := by
  cases h with
  | perpetual n ids a ha hperp => exact executePerpetualOrder_keepsOrders hk setup _ _ _ _ _
  | failed n ids a db ha hspot honly => exact honly.1
  | submitted n ids a order db ha hspot honly horder => exact honly.1
  | recorded orderId l minted db honly => exact honly.1
  | applied n ids fill s hf hkeeps => exact hkeeps
  | _ => exact .refl hk

/-- Beside the order tables only settlements and perpetual orders write. -/
lemma FlowEffect.rest (h : FlowEffect setup st turn st') (hsettle : ∀ n ctx, turn ≠ .settle n ctx)
    (hspot : ∀ a n ids, st.approved[n]? = some a → turn = .submit n ids → a.signal.marketType = .spot) :
    st'.db.rest = st.db.rest := by
  cases h with
  | perpetual n ids a ha hperp =>
    have hmarket := hspot a n ids ha rfl
    rw [hperp] at hmarket
    cases hmarket
  | failed n ids a db ha hs honly => exact honly.2
  | submitted n ids a order db ha hs honly horder => exact honly.2
  | recorded orderId l minted db honly => exact honly.2
  | settled n ctx fill hf => exact absurd rfl (hsettle n ctx)
  | _ => rfl

lemma Valuation.Nonneg.outstanding (h : v.Nonneg st) : 0 ≤ st.outstanding v :=
  add_nonneg (weight_nonneg h.approved)
    (add_nonneg (weight_nonneg h.working) (add_nonneg (weight_nonneg h.queued) (weight_nonneg h.unsettled)))

lemma Valuation.Nonneg.released (h : v.Nonneg st) (turn : FlowTurn) : 0 ≤ released v st turn := by
  cases turn with
  | submit n ids =>
    simp only [CryptoTrader.released]
    cases ha : st.approved[n]? with
    | none => exact le_rfl
    | some a =>
      dsimp only
      by_cases hperp : a.signal.marketType = .perpetual
      · rw [if_pos hperp]
        exact h.approved a (List.mem_of_getElem? ha)
      · rw [if_neg hperp]
  | settle n ctx =>
    simp only [CryptoTrader.released]
    cases hf : st.unsettled[n]? with
    | none => exact le_rfl
    | some fill => exact h.unsettled fill (List.mem_of_getElem? hf)
  | _ => exact le_rfl

/-- An approval has its property, an order takes its own from the signal, and an execution
takes it from the order. -/
structure HandsOn (A : ApprovedSignal → Prop) (W : WorkingOrder → Prop) (F : Fill → Prop) (setup : PerpetualSetup)
    (st : OrderFlow) (turn : FlowTurn) : Prop where
  approved : ∀ signal env, turn = .decide signal env → st.db.store.getByClient (clientOrderId signal) = none →
    Approves setup.engine env signal st.db → A ⟨signal, env.marketPrice, env.runId⟩
  submitted : ∀ a s order, a.signal.marketType = .spot → OrderOf a.intent s order → A a → W (.ofOrder order)
  executed : ∀ n fill w, turn = .execute n fill → st.working[n]? = some w → fill.quantity ≤ w.remaining → W w →
    W (w.after fill) ∧ F fill

lemma FlowEffect.underWay {A : ApprovedSignal → Prop} {W : WorkingOrder → Prop} {F : Fill → Prop}
    (h : FlowEffect setup st turn st') (hu : UnderWay A W F st) (hon : HandsOn A W F setup st turn) : UnderWay A W F st' := by
  have herased (n : Nat) : ∀ a ∈ st.approved.eraseIdx n, A a := fun a ha => hu.approved a (List.mem_of_mem_eraseIdx ha)
  cases h with
  | idle => exact hu
  | approved signal env hnew happrove =>
    refine { hu with approved := fun a ha => ?_ }
    rcases List.mem_append.mp ha with ha | ha
    · exact hu.approved a ha
    · rw [List.mem_singleton.mp ha]
      exact hon.approved signal env rfl hnew happrove
  | perpetual n ids a ha hperp => exact ⟨herased n, hu.working, hu.queued, hu.unsettled⟩
  | failed n ids a db ha hspot honly => exact ⟨herased n, hu.working, hu.queued, hu.unsettled⟩
  | submitted n ids a order db ha hspot honly horder =>
    refine ⟨herased n, fun w hw => ?_, hu.queued, hu.unsettled⟩
    rcases List.mem_append.mp hw with hw | hw
    · exact hu.working w hw
    · rw [List.mem_singleton.mp hw]
      exact hon.submitted a _ order hspot horder (hu.approved a (List.mem_of_getElem? ha))
  | recorded => exact ⟨hu.approved, hu.working, hu.queued, hu.unsettled⟩
  | executed n fill w hw hle =>
    obtain ⟨hafter, hfill⟩ := hon.executed n fill w rfl hw hle (hu.working w (List.mem_of_getElem? hw))
    refine ⟨hu.approved, fun x hx => ?_, fun f hf => ?_, hu.unsettled⟩
    · rcases List.mem_or_eq_of_mem_set hx with hx | rfl
      · exact hu.working x hx
      · exact hafter
    · rcases List.mem_append.mp hf with hf | hf
      · exact hu.queued f hf
      · rwa [List.mem_singleton.mp hf]
  | withdrawn n => exact ⟨hu.approved, fun w hw => hu.working w (List.mem_of_mem_eraseIdx hw), hu.queued, hu.unsettled⟩
  | refused n => exact ⟨hu.approved, hu.working, fun f hf => hu.queued f (List.mem_of_mem_eraseIdx hf), hu.unsettled⟩
  | applied n ids fill s hf hkeeps =>
    refine ⟨hu.approved, hu.working, fun f hf => hu.queued f (List.mem_of_mem_eraseIdx hf), fun f hm => ?_⟩
    rcases List.mem_append.mp hm with hm | hm
    · exact hu.unsettled f hm
    · rw [List.mem_singleton.mp hm]
      exact hu.queued fill (List.mem_of_getElem? hf)
  | settled n ctx fill hf =>
    exact ⟨hu.approved, hu.working, hu.queued, fun f hf => hu.unsettled f (List.mem_of_mem_eraseIdx hf)⟩

lemma FlowEffect.nonneg (h : FlowEffect setup st turn st') (hv : v.Nonneg st) (hsubmit : v.Submits)
    (hsplit : v.Splits setup st turn) : v.Nonneg st' := by
  apply h.underWay hv
  constructor
  · rintro signal env rfl - happrove
    exact hsplit happrove
  · intro a s order hspot horder ha
    rwa [hsubmit a s order hspot horder]
  · rintro n fill w rfl hw hle -
    obtain ⟨hfill, hafter, -⟩ := hsplit w hw hle
    exact ⟨hafter, hfill⟩

/-- A turn adds to what is under way only by an approval, and takes off what it brings to
the ledger. -/
lemma FlowEffect.outstanding_le (h : FlowEffect setup st turn st') (hv : v.Nonneg st)
    (hsubmit : ∀ n ids, turn = .submit n ids → v.Submits) (hsplit : v.Splits setup st turn) :
    st'.outstanding v + released v st turn ≤ st.outstanding v + added v setup st turn := by
  have hadded : 0 ≤ added v setup st turn := by
    obtain hnone | ⟨signal, env, rfl, -, happrove, hvalue⟩ := added_cases v setup st turn
    · exact hnone.ge
    · rw [hvalue]
      exact hsplit happrove
  unfold OrderFlow.outstanding
  cases h with
  | idle _ hidle =>
    have hreleased : released v st turn = 0 := by
      cases turn with
      | submit n ids => simp [released, show st.approved[n]? = none from hidle]
      | settle n ctx => simp [released, show st.unsettled[n]? = none from hidle]
      | _ => rfl
    rw [hreleased, add_zero]
    exact le_add_of_nonneg_right hadded
  | approved signal env hnew happrove =>
    simp only [released, added, hnew, happrove, and_self, if_true, weight_append, weight_cons, weight_nil]
    linarith
  | perpetual n ids a ha hperp =>
    have herase := weight_eraseIdx (w := v.approved) ha
    simp only [released, added, ha, hperp, if_true]
    linarith
  | failed n ids a db ha hspot honly =>
    have herase := weight_eraseIdx_le hv.approved n
    simp only [released, added, ha, hspot, reduceCtorEq, if_false]
    linarith
  | submitted n ids a order db ha hspot honly horder =>
    have herase := weight_eraseIdx (w := v.approved) ha
    have hworks := hsubmit n ids rfl a _ order hspot horder
    simp only [released, added, ha, hspot, reduceCtorEq, if_false, weight_append, weight_cons, weight_nil, hworks]
    linarith
  | recorded => simp only [released, added, le_refl]
  | executed n fill w hw hle =>
    obtain ⟨-, -, hsum⟩ := hsplit w hw hle
    have hset := weight_set (w := v.working) hw (w.after fill)
    simp only [released, added, weight_append, weight_cons, weight_nil]
    linarith
  | withdrawn n =>
    have herase := weight_eraseIdx_le hv.working n
    simp only [released, added]
    linarith
  | refused n =>
    have herase := weight_eraseIdx_le hv.queued n
    simp only [released, added]
    linarith
  | applied n ids fill s hf hkeeps =>
    have herase := weight_eraseIdx (w := v.fill) hf
    simp only [released, added, weight_append, weight_cons, weight_nil]
    linarith
  | settled n ctx fill hf =>
    have herase := weight_eraseIdx (w := v.fill) hf
    simp only [released, added, hf, Option.elim_some]
    linarith

end Outstanding

/-! ### Orders of one unit -/

/-- A market order of one unit of BTCUSDT. -/
def unitSignal (signalId : String) (side : OrderSide) : SignalIntent where
  signalId := signalId
  strategyId := "trend"
  symbol := "BTCUSDT"
  side := side
  quantity := 1

def unitEnv : SignalEnv :=
  { runningEnv with instruments := [{ symbol := "BTCUSDT", baseAsset := "BTC", quoteAsset := "USDT" }] }

/-- The `n`-th order is executed in full at 100, applied and settled; it is the `k`-th on the
book of the exchange. -/
def unitSettled (n k : Nat) (side : OrderSide) : List FlowTurn :=
  [.execute k { fillId := s!"fill_{n}", orderId := s!"ord_{n}", symbol := "BTCUSDT", side, price := 100, quantity := 1 },
    .apply 0 (attemptIds n).fill, .settle 0 (cutContext none)]

lemma uncutContext (f : Fill) : (cutContext none).interruption f = none := rfl

end CryptoTrader
