import CryptoTrader.Perpetual.Engine
import CryptoTrader.Runtime.Settlement
import CryptoTrader.Runtime.Signal

/-!
# Perpetual orders

`_execute_perpetual_order` of `runtime/engine.py`, as the sequence of its commits: the
order row, its three transitions, the write of the futures ledger, and the fill. An attempt
may be cut before any of them.
-/

namespace CryptoTrader

open KeyedTable OrderStore

/-- The commits of `_execute_perpetual_order`, in their order. -/
inductive PerpetualCommit where
  | order
  | validate
  | submitting
  | submitted
  | ledger
  | fill
  deriving DecidableEq, Repr

/-- The ids minted in one attempt. -/
structure PerpetualIds where
  orderId : String
  created : String
  validated : String
  submitting : String
  submitted : String
  transactionId : String
  fillId : String
  tradeId : String
  fill : FillIds
  deriving DecidableEq, Repr

/-- One attempt to execute a signal: the reference price, the verdict of risk and
authority, the ids it mints, and the commit it does not get to. -/
structure PerpetualAttempt where
  price : ℚ
  approved : Bool := true
  ids : PerpetualIds
  cut : Option PerpetualCommit := none
  deriving DecidableEq, Repr

/-- What the engine brings to a perpetual order. -/
structure PerpetualSetup where
  engine : Option PerpetualPaperEngine
  mode : TradingMode := .paper
  runId : Option String := none
  /-- `paper_exploration_leverage`. -/
  leverage : ℚ := 1
  quarantined : List String := []
  settlement : SettleContext

/-- The process stops before the commit `c`. -/
def unlessCut {α : Type} (cut : Option PerpetualCommit) (c : PerpetualCommit)
    (step : Db Books → Except TradingError α × Db Books) (db : Db Books) : Except TradingError α × Db Books :=
  if cut = some c then (.error .crashed, db) else step db

/-- `create_from_intent` on the whole database. -/
def callCreate (intent : OrderIntent) (mode : TradingMode) (orderId eventId : String) (db : Db Books) :
    Except TradingError Order × Db Books :=
  match createFromIntent intent mode orderId eventId db.store with
  | .ok (order, s) => (.ok order, ⟨s, db.rest⟩)
  | .error e => (.error e, db)

/-- The side of the position: FLAT stands for the side of the order. -/
def perpetualSide (positionSide : PositionSide) (side : OrderSide) : PositionSide :=
  if positionSide = .flat then (if side = .buy then .long else .short) else positionSide

/-- `close_position` for a reduce-only order, `open_position` for any other. -/
def movePosition (engine : PerpetualPaperEngine) (intent : OrderIntent) (side : PositionSide)
    (price leverage : ℚ) (orderId minted : String) (db : Db Books) : Except TradingError Unit × Db Books :=
  if intent.reduceOnly then
    let (result, ledger) := engine.closePosition side intent.quantity price (some orderId) (some intent.symbol)
      minted db.rest.ledger
    (result.map fun _ => (), ⟨db.store, { db.rest with ledger }⟩)
  else
    let (result, ledger) := engine.openPosition side intent.quantity price leverage (some orderId)
      (some intent.symbol) minted db.rest.ledger
    (result.map fun _ => (), ⟨db.store, { db.rest with ledger }⟩)

/-- The exchange order id of a perpetual fill. -/
def paperExchangeId (orderId : String) : String :=
  s!"paper_perp_{orderId}"

def metadataText (intent : OrderIntent) (key default : String) : String :=
  (intent.metadata.lookup key).getD default

/-- The fill of a perpetual order. -/
def perpetualFill (engine : PerpetualPaperEngine) (intent : OrderIntent) (side : PositionSide) (price : ℚ)
    (orderId clientOrderId fillId tradeId : String) : Fill where
  fillId := fillId
  tradeId := some tradeId
  orderId := orderId
  clientOrderId := some clientOrderId
  exchangeOrderId := some (paperExchangeId orderId)
  symbol := intent.symbol
  side := intent.side
  price := price
  quantity := intent.quantity
  fee := ((engine.contractFor intent.symbol).getD engine.contract).takerFee intent.quantity price
  feeCurrency := some "USDT"
  payload := [("market_type", MarketType.perpetual.value), ("position_side", side.value),
    ("decision_id", metadataText intent "decision_id" ""), ("signal_id", metadataText intent "signal_id" ""),
    ("reference_market_symbol",
      metadataText intent "reference_market_symbol" (referenceSymbolFor intent.symbol)),
    ("exit_reason", metadataText intent "exit_reason" ""), ("paper_execution", "True")]

def executePerpetualOrder (setup : PerpetualSetup) (intent : OrderIntent) (marketPrice : ℚ)
    (positionSide : PositionSide) (clientOrderId : String) (ids : PerpetualIds) (cut : Option PerpetualCommit)
    (db : Db Books) : Except TradingError Unit × Db Books :=
  match setup.engine with
  | none => (.ok (), db)
  | some engine =>
    let side := perpetualSide positionSide intent.side
    if marketPrice ≤ 0 then (.ok (), db)
    else
      andThen (unlessCut cut .order (callCreate intent setup.mode ids.orderId ids.created) db) fun order db =>
      andThen (unlessCut cut .validate (callLifecycle order.internalOrderId .validate ids.validated) db) fun _ db =>
      andThen (unlessCut cut .submitting (callLifecycle order.internalOrderId .submitting ids.submitting) db) fun _ db =>
      andThen (unlessCut cut .submitted (callLifecycle order.internalOrderId .submitted ids.submitted) db) fun _ db =>
      andThen (unlessCut cut .ledger (movePosition engine intent side marketPrice setup.leverage
        order.internalOrderId ids.transactionId) db) fun _ db =>
      andThen (unlessCut cut .fill (applyFill (settleFill setup.quarantined setup.settlement)
        (perpetualFill engine intent side marketPrice order.internalOrderId clientOrderId ids.fillId ids.tradeId)
        ids.fill) db) fun _ db =>
      (.ok (), db)

/-- `process_signal` on a perpetual signal: a known client order id is a duplicate, and
without a reference price or an approval nothing is executed. -/
def processPerpetualSignal (setup : PerpetualSetup) (signal : SignalIntent) (a : PerpetualAttempt) (db : Db Books) :
    Except TradingError Unit × Db Books :=
  let intent := intentOfSignal signal setup.runId
  match db.store.getByClient (clientOrderId signal) with
  | some _ => (.ok (), db)
  | none =>
    if a.price ≤ 0 then (.ok (), db)
    else if a.approved then
      executePerpetualOrder setup intent a.price signal.positionSide (clientOrderId signal) a.ids a.cut db
    else (.ok (), db)

/-! ### The order row on its way to the fill -/

/-- The event ids of an attempt, in the order of their use. -/
def PerpetualIds.events (ids : PerpetualIds) : List String :=
  [ids.created, ids.validated, ids.submitting, ids.submitted, ids.fill.eventId]

/-- `new_id` never returns an id that is in the tables, nor one twice. -/
structure PerpetualIds.Fresh (db : Db Books) (ids : PerpetualIds) : Prop where
  order : db.store.get ids.orderId = none
  exchange : ∀ r ∈ db.store.orders, r.exchangeOrderId ≠ some (paperExchangeId ids.orderId)
  ledger : ∀ t ∈ db.rest.ledger, t.orderId ≠ some ids.orderId
  transaction : ids.transactionId ∉ db.rest.ledger.map LedgerTransaction.transactionId
  distinct : ids.events.Nodup
  events : ∀ e ∈ ids.events, e ∉ db.store.events.map OrderEvent.eventId
  fill : db.store.getFill ids.fillId = none
  trade : db.store.tradeIdFree (orElseNew (some ids.tradeId) ids.fill.tradeId)

/-- The order of the attempt is in the table with status `n`, nothing has filled it, and
the event ids `pending` are still unused. -/
structure Placed (s₀ s : OrderStore) (intent : OrderIntent) (ids : PerpetualIds) (n : OrderStatus)
    (pending : List String) : Prop where
  keys : UniqueKeys s
  row : ∃ r, s.getByClient intent.clientOrderId = some r ∧ r.internalOrderId = ids.orderId ∧ r.status = n ∧
    r.exchangeOrderId = none ∧ r.filledQuantity = 0 ∧ r.quantity = intent.quantity
  exchange : ∀ r ∈ s.orders, r.exchangeOrderId ≠ some (paperExchangeId ids.orderId)
  fills : s.fills = s₀.fills
  events : ∃ used, used ++ pending = ids.events ∧
    s.events.map OrderEvent.eventId = s₀.events.map OrderEvent.eventId ++ used

section Placed

variable {db₀ db : Db Books} {intent : OrderIntent} {ids : PerpetualIds} {n : OrderStatus}

lemma Placed.getEvent {e : String} {pending : List String} (hfresh : ids.Fresh db₀)
    (h : Placed db₀.store db.store intent ids n (e :: pending)) : db.store.getEvent e = none := by
  obtain ⟨used, hused, hevents⟩ := h.events
  rw [getEvent_eq_none_iff, hevents, List.mem_append, not_or]
  refine ⟨hfresh.events e (hused ▸ by simp), fun hmem => ?_⟩
  have hnodup := hused ▸ hfresh.distinct
  exact (List.disjoint_of_nodup_append hnodup) hmem (by simp)

lemma placed_created (hkeys : UniqueKeys db₀.store) (hfresh : ids.Fresh db₀)
    (hclient : db₀.store.getByClient intent.clientOrderId = none) (mode : TradingMode) :
    ∃ r db, callCreate intent mode ids.orderId ids.created db₀ = (.ok r, db) ∧ db.rest = db₀.rest ∧
      r.internalOrderId = ids.orderId ∧ Placed db₀.store db.store intent ids .created
        [ids.validated, ids.submitting, ids.submitted, ids.fill.eventId] := by
  have hevent : db₀.store.getEvent ids.created = none :=
    getEvent_eq_none_iff.mpr (hfresh.events _ (by simp [PerpetualIds.events]))
  have hcreate : callCreate intent mode ids.orderId ids.created db₀ =
      (.ok (intentRow intent mode ids.orderId),
        ⟨⟨db₀.store.orders ++ [intentRow intent mode ids.orderId],
          db₀.store.events ++ [createdEvent intent mode ids.orderId ids.created], db₀.store.fills⟩, db₀.rest⟩) := by
    simp only [callCreate, createFromIntent, hclient, createInsert, hfresh.order, hevent, and_self, if_true]
  refine ⟨_, _, hcreate, rfl, rfl, hkeys.created mode ids.created hfresh.order hclient, ?_, ?_, rfl, [ids.created], rfl, ?_⟩
  · refine ⟨intentRow intent mode ids.orderId, ?_, rfl, rfl, rfl, rfl, rfl⟩
    have happ : row Order.clientOrderId intent.clientOrderId (db₀.store.orders ++ [intentRow intent mode ids.orderId]) =
        row Order.clientOrderId intent.clientOrderId [intentRow intent mode ids.orderId] := row_append_of_none hclient
    exact happ.trans (by simp [row, intentRow])
  · intro r hr
    rcases List.mem_append.mp hr with hm | hm
    · exact hfresh.exchange r hm
    · rw [List.mem_singleton.mp hm]
      simp [intentRow]
  · simp [createdEvent]

lemma Placed.transition {e : String} {pending : List String} (hfresh : ids.Fresh db₀)
    (h : Placed db₀.store db.store intent ids n (e :: pending)) (l : Lifecycle) (n' : OrderStatus)
    (hargs : l.args = {}) (hn : nextStatus n l.eventType = some n') :
    ∃ db', callLifecycle ids.orderId l e db = (.ok (), db') ∧ db'.rest = db.rest ∧
      Placed db₀.store db'.store intent ids n' pending := by
  obtain ⟨r, hr, hid, hstatus, hx, hfilled, hq⟩ := h.row
  have hmem : r ∈ db.store.orders := (row_some hr).1
  have hevent : orElseNew l.args.eventId e = e := by rw [hargs]; rfl
  have hrow : recordedRow r n' l.args e = { r with status := n', lastEventId := some e } := by
    rw [hargs]
    rfl
  have hacc : RecordAccepted db.store ids.orderId n' l.args e r := {
    row := hid ▸ h.keys.get hmem
    eventId := by rw [hevent]; exact h.getEvent hfresh
    exchangeId := by simp [exchangeIdFree, hrow, hx] }
  refine ⟨_, callLifecycle_of_accepted (hstatus ▸ hn) hacc, rfl, ?_⟩
  constructor
  · exact h.keys.commit (w := recordedRow r n' l.args e) hmem rfl rfl _ _
  · exact ⟨_, getByClient_commit_self (r := r) (w := recordedRow r n' l.args e) h.keys rfl rfl _ _ hr, hid, rfl, by simp [hrow, hx], hfilled, hq⟩
  · intro r' hr'
    rcases (mem_commit _ _).mp hr' with ⟨rfl, -⟩ | ⟨hm, -⟩
    · simp [hrow, hx]
    · exact h.exchange r' hm
  · simp [h.fills]
  · obtain ⟨used, hused, hevents⟩ := h.events
    refine ⟨used ++ [e], by simp [← hused], ?_⟩
    simp [hevents, recordedEvent, hevent]

/-- Four commits bring the order of an attempt from nothing to SUBMITTED. -/
lemma placed_submitted (hkeys : UniqueKeys db₀.store) (hfresh : ids.Fresh db₀)
    (hclient : db₀.store.getByClient intent.clientOrderId = none) (mode : TradingMode) :
    ∃ r db₁ db₂ db₃ db₄, callCreate intent mode ids.orderId ids.created db₀ = (.ok r, db₁) ∧
      r.internalOrderId = ids.orderId ∧
      callLifecycle ids.orderId .validate ids.validated db₁ = (.ok (), db₂) ∧
      callLifecycle ids.orderId .submitting ids.submitting db₂ = (.ok (), db₃) ∧
      callLifecycle ids.orderId .submitted ids.submitted db₃ = (.ok (), db₄) ∧
      db₄.rest = db₀.rest ∧ Placed db₀.store db₄.store intent ids .submitted [ids.fill.eventId] := by
  obtain ⟨r, db₁, h₁, hrest₁, hid, p₁⟩ := placed_created hkeys hfresh hclient mode
  obtain ⟨db₂, h₂, hrest₂, p₂⟩ := p₁.transition hfresh .validate .validated rfl rfl
  obtain ⟨db₃, h₃, hrest₃, p₃⟩ := p₂.transition hfresh .submitting .submitting rfl rfl
  obtain ⟨db₄, h₄, hrest₄, p₄⟩ := p₃.transition hfresh .submitted .submitted rfl rfl
  have hrest : db₄.rest = db₀.rest := by rw [hrest₄, hrest₃, hrest₂, hrest₁]
  exact ⟨r, db₁, db₂, db₃, db₄, h₁, hid, h₂, h₃, h₄, hrest, p₄⟩

lemma truthy_paperExchangeId (orderId : String) : truthy (some (paperExchangeId orderId)) = true := by
  have hlen : 0 < (paperExchangeId orderId).length := by
    simp only [paperExchangeId, String.length_append]
    exact Nat.add_pos_left (by decide) _
  simp only [truthy, bne_iff_ne, ne_eq]
  intro h
  simp [h] at hlen

/-- A perpetual fill settles nothing. -/
lemma settleFill_perpetual (quarantined : List String) (ctx : SettleContext) (s : OrderStore) {fill : Fill}
    (h : fill.isPerpetual = true) (books : Books) : settleFill quarantined ctx s fill books = (.ok (), books) := by
  simp [settleFill, h]

lemma Placed.fill (db : Db Books) (hfresh : ids.Fresh db₀)
    (h : Placed db₀.store db.store intent ids .submitted [ids.fill.eventId]) (setup : PerpetualSetup)
    (engine : PerpetualPaperEngine) (side : PositionSide) (price : ℚ) (client : String) :
    ∃ result db' r, applyFill (settleFill setup.quarantined setup.settlement)
        (perpetualFill engine intent side price ids.orderId client ids.fillId ids.tradeId) ids.fill db = (.ok result, db') ∧
      db'.rest = db.rest ∧ UniqueKeys db'.store ∧ db'.store.getByClient intent.clientOrderId = some r ∧
      r.internalOrderId = ids.orderId ∧ r.status = .filled ∧ ∃ f, db'.store.fills = db.store.fills ++ [f] ∧
        f.orderId = ids.orderId ∧ f.symbol = intent.symbol ∧ f.side = intent.side ∧ f.quantity = intent.quantity := by
  obtain ⟨r, hr, hid, hstatus, hx, hfilled, hq⟩ := h.row
  have hmem : r ∈ db.store.orders := (row_some hr).1
  generalize hfill : perpetualFill engine intent side price ids.orderId client ids.fillId ids.tradeId = fill
  have hxid : fill.exchangeOrderId = some (paperExchangeId ids.orderId) := by rw [← hfill]; rfl
  have hrow : filledRow r fill .filled ids.fill = { r with
      filledQuantity := r.filledQuantity + fill.quantity, avgFillPrice := some (newAverage r fill), status := .filled,
      lastEventId := some ids.fill.lastEventId, exchangeOrderId := some (paperExchangeId ids.orderId) } := by
    rw [filledRow, hxid, if_pos (truthy_paperExchangeId _)]
  have hquantity : r.filledQuantity + fill.quantity = r.quantity := by
    rw [hfilled, hq, zero_add, ← hfill]
    rfl
  have hevent : fillEventType r fill = .orderFilled := by
    simp [fillEventType, hquantity]
  have hacc : FillAccepted db.store fill ids.fill r .filled := {
    fresh := by
      rw [← hfill, OrderStore.getFill, h.fills]
      exact hfresh.fill
    row := by
      have hnone : db.store.getByExchange (paperExchangeId ids.orderId) = none := by
        rw [getByExchange, row_eq_none_iff]
        intro hmem'
        obtain ⟨r', hr', hx'⟩ := List.mem_map.mp hmem'
        exact h.exchange r' hr' hx'
      have hget : db.store.get fill.orderId = some r := by
        rw [← hfill]
        exact hid ▸ h.keys.get hmem
      simp only [fillOrder, hxid, truthy_paperExchangeId, if_true, Option.getD_some, hnone, hget]
    room := hquantity.le
    next := by
      rw [hevent, hstatus]
      decide
    exchangeId := by
      intro x hxx r' hr' _
      simp only [hrow, Option.some.injEq] at hxx
      exact hxx ▸ h.exchange r' hr'
    eventId := h.getEvent hfresh
    tradeId := by
      intro f hf
      rw [h.fills] at hf
      rw [← hfill]
      exact hfresh.trade f hf }
  obtain ⟨hdb, hok⟩ := applyFill_of_accepted (settleFill setup.quarantined setup.settlement) hacc
  have hperp : fill.isPerpetual = true := by
    rw [← hfill]
    rfl
  rw [settleFill_perpetual _ _ _ hperp] at hdb hok
  obtain ⟨result, hres⟩ := hok.mpr rfl
  refine ⟨result, _, filledRow r fill .filled ids.fill, Prod.ext hres hdb, rfl, ?_, ?_, hid, rfl, ?_⟩
  · exact h.keys.commit (w := filledRow r fill .filled ids.fill) hmem rfl rfl _ _
  · exact getByClient_commit_self (r := r) (w := filledRow r fill .filled ids.fill) h.keys rfl rfl _ _ hr
  · refine ⟨fillRow (filledRow r fill .filled ids.fill) fill ids.fill, by simp, hid, ?_⟩
    rw [← hfill]
    exact ⟨rfl, rfl, rfl⟩

end Placed

/-! ### Where an attempt ends -/

section Attempt

variable {setup : PerpetualSetup} {engine : PerpetualPaperEngine} {intent : OrderIntent} {side : PositionSide}
  {ids : PerpetualIds} {db db' : Db Books} {price : ℚ}

/-- The ledger write of an attempt takes place. -/
def MoveWrites (engine : PerpetualPaperEngine) (intent : OrderIntent) (side : PositionSide) (ledger : Ledger) : Prop :=
  if intent.reduceOnly then HoldsSide engine side (some intent.symbol) ledger
  else (engine.contractOf (some intent.symbol)).maxLeverage ≠ 0

/-- The opening or closing does not raise. -/
def MoveReturns (engine : PerpetualPaperEngine) (intent : OrderIntent) : Prop :=
  intent.reduceOnly ∨ (engine.contractOf (some intent.symbol)).maxLeverage ≠ 0 ∧
    (engine.contractOf (some intent.symbol)).symbol ≠ ""

/-- The ledger has a transaction that moves a position for the order. -/
def Positioned (ledger : Ledger) (orderId : String) : Prop :=
  ∃ t ∈ ledger, MovesFor (some orderId) t

instance (ledger : Ledger) (orderId : String) : Decidable (Positioned ledger orderId) :=
  inferInstanceAs (Decidable (∃ t ∈ ledger, _))

lemma perpetualSide_ne_flat (positionSide : PositionSide) (side : OrderSide) :
    perpetualSide positionSide side ≠ .flat := by
  cases positionSide <;> cases side <;> decide

lemma positioned_append {ledger : Ledger} {orderId : String} {t : LedgerTransaction} (h : MovesFor (some orderId) t) :
    Positioned (ledger ++ [t]) orderId :=
  ⟨t, by simp, h⟩

lemma PerpetualIds.Fresh.not_positioned (hfresh : ids.Fresh db) : ¬ Positioned db.rest.ledger ids.orderId := by
  rintro ⟨t, ht, hm⟩
  exact hfresh.ledger t ht hm.1

/-- The write of the futures ledger. -/
lemma movePosition_spec (engine : PerpetualPaperEngine) (intent : OrderIntent) (price leverage : ℚ) (db : Db Books)
    (hside : side ≠ .flat) {minted orderId : String}
    (hid : minted ∉ db.rest.ledger.map LedgerTransaction.transactionId) (hnew : ¬ Positioned db.rest.ledger orderId) :
    ∃ result ledger, movePosition engine intent side price leverage orderId minted db =
        (result, ⟨db.store, { db.rest with ledger }⟩) ∧
      (Positioned ledger orderId ↔ MoveWrites engine intent side db.rest.ledger) ∧
      (result = .ok () ↔ MoveReturns engine intent) := by
  by_cases hreduce : intent.reduceOnly = true
  · simp only [movePosition, MoveWrites, MoveReturns, hreduce, if_true, true_or, iff_true]
    by_cases hholds : HoldsSide engine side (some intent.symbol) db.rest.ledger
    · obtain ⟨t, pos, hclose, hm⟩ := engine.closePosition_writes (some orderId) (some intent.symbol)
        intent.quantity price hid hholds
      rw [hclose]
      exact ⟨_, _, rfl, iff_of_true (positioned_append hm) hholds, rfl⟩
    · rw [engine.closePosition_skips _ _ _ _ hholds]
      exact ⟨_, _, rfl, iff_of_false hnew hholds, rfl⟩
  · simp only [movePosition, MoveWrites, MoveReturns, hreduce, if_false, false_or, Bool.false_eq_true]
    by_cases hlev : (engine.contractOf (some intent.symbol)).maxLeverage = 0
    · rw [engine.openPosition_unleveraged _ _ hside _ _ _ hlev]
      exact ⟨_, _, rfl, iff_of_false hnew (not_not.mpr hlev), by simp [hlev, Except.map]⟩
    · obtain ⟨t, hledger, hm, hok⟩ := engine.openPosition_writes (some orderId) (some intent.symbol) hside
        intent.quantity price leverage hid hlev
      rcases hopen : engine.openPosition side intent.quantity price leverage (some orderId) (some intent.symbol)
        minted db.rest.ledger with ⟨result, ledger⟩
      rw [hopen] at hledger hok
      obtain rfl : ledger = db.rest.ledger ++ [t] := hledger
      refine ⟨_, _, rfl, iff_of_true (positioned_append hm) hlev, ?_⟩
      rw [and_iff_right hlev, ← hok]
      cases result <;> simp [Except.map]

/-- The order of the client order id `c` after an attempt: it is filled or not, and the
ledger has its transaction or not. -/
structure AttemptOutcome (db' : Db Books) (c orderId : String) (filled moved : Prop) : Prop where
  keys : UniqueKeys db'.store
  row : ∃ r, db'.store.getByClient c = some r ∧ r.internalOrderId = orderId ∧ (r.status = .filled ↔ filled)
  fill : filled → ∃ f ∈ db'.store.fills, f.orderId = orderId
  moved : Positioned db'.rest.ledger orderId ↔ moved

lemma Placed.outcome (db' : Db Books) {n : OrderStatus} {pending : List String} {s₀ : OrderStore}
    (h : Placed s₀ db'.store intent ids n pending) (hn : n ≠ .filled) {moved : Prop}
    (hm : Positioned db'.rest.ledger ids.orderId ↔ moved) :
    AttemptOutcome db' intent.clientOrderId ids.orderId False moved := by
  obtain ⟨r, hr, hid, hstatus, -⟩ := h.row
  exact ⟨h.keys, ⟨r, hr, hid, iff_of_false (hstatus ▸ hn) id⟩, False.elim, hm⟩

lemma executePerpetualOrder_outcome (intent : OrderIntent) (hengine : setup.engine = some engine) (hprice : 0 < price)
    (positionSide : PositionSide) (hkeys : UniqueKeys db.store) (hfresh : ids.Fresh db)
    (hclient : db.store.getByClient intent.clientOrderId = none) {cut : Option PerpetualCommit}
    (hcut : cut ≠ some .order) :
    AttemptOutcome
      (executePerpetualOrder setup intent price positionSide intent.clientOrderId ids cut db).2
      intent.clientOrderId ids.orderId (cut = none ∧ MoveReturns engine intent)
      ((cut = none ∨ cut = some .fill) ∧
        MoveWrites engine intent (perpetualSide positionSide intent.side) db.rest.ledger) := by
  obtain ⟨r, db₁, h₁, hrest₁, hid, p₁⟩ := placed_created hkeys hfresh hclient setup.mode
  obtain ⟨db₂, h₂, hrest₂, p₂⟩ := p₁.transition hfresh .validate .validated rfl rfl
  obtain ⟨db₃, h₃, hrest₃, p₃⟩ := p₂.transition hfresh .submitting .submitting rfl rfl
  obtain ⟨db₄, h₄, hrest₄, p₄⟩ := p₃.transition hfresh .submitted .submitted rfl rfl
  have hrest : db₄.rest = db.rest := by rw [hrest₄, hrest₃, hrest₂, hrest₁]
  obtain ⟨result, ledger, hmove, hwrites, hreturns⟩ := movePosition_spec engine intent price setup.leverage db₄
    (perpetualSide_ne_flat positionSide intent.side) (hrest ▸ hfresh.transaction) (hrest ▸ hfresh.not_positioned)
  rw [hrest] at hwrites
  have hunmoved : ∀ db' : Db Books, db'.rest = db.rest → (Positioned db'.rest.ledger ids.orderId ↔ False) :=
    fun db' h => iff_of_false (h ▸ hfresh.not_positioned) id
  have hstart := not_le.mpr hprice
  cases cut with
  | some c =>
    simp only [executePerpetualOrder, hengine, hstart, if_false, unlessCut, Option.some.injEq, reduceCtorEq,
      false_and, false_or]
    cases c with
    | order => exact absurd rfl hcut
    | validate =>
      simpa only [reduceCtorEq, if_false, if_true, h₁, andThen_ok, andThen_error, false_and] using
        p₁.outcome db₁ (by decide) (hunmoved db₁ hrest₁)
    | submitting =>
      simpa only [reduceCtorEq, if_false, if_true, h₁, hid, h₂, andThen_ok, andThen_error, false_and] using
        p₂.outcome db₂ (by decide) (hunmoved db₂ (hrest₂.trans hrest₁))
    | submitted =>
      simpa only [reduceCtorEq, if_false, if_true, h₁, hid, h₂, h₃, andThen_ok, andThen_error, false_and] using
        p₃.outcome db₃ (by decide) (hunmoved db₃ (hrest₃.trans (hrest₂.trans hrest₁)))
    | ledger =>
      simpa only [reduceCtorEq, if_false, if_true, h₁, hid, h₂, h₃, h₄, andThen_ok, andThen_error, false_and] using
        p₄.outcome db₄ (by decide) (hunmoved db₄ hrest)
    | fill =>
      have hend := p₄.outcome ⟨db₄.store, { db₄.rest with ledger }⟩ (by decide) hwrites
      simp only [reduceCtorEq, if_false, if_true, h₁, hid, h₂, h₃, h₄, hmove, andThen_ok, true_and]
      cases result <;> exact hend
  | none =>
    simp only [executePerpetualOrder, hengine, hstart, if_false, unlessCut, reduceCtorEq, h₁, hid, h₂, h₃, h₄, hmove,
      andThen_ok, true_and, true_or, ← hreturns]
    cases result with
    | error e =>
      simpa only [andThen_error, reduceCtorEq] using
        p₄.outcome ⟨db₄.store, { db₄.rest with ledger }⟩ (by decide) hwrites
    | ok u =>
      obtain ⟨filled, db₅, r, h₅, hrest₅, hkeys₅, hr₅, hid₅, hstatus₅, f, hfills₅, hf₅, -⟩ :=
        Placed.fill ⟨db₄.store, { db₄.rest with ledger }⟩ hfresh p₄ setup engine
          (perpetualSide positionSide intent.side) price intent.clientOrderId
      simp only [andThen_ok, h₅]
      exact ⟨hkeys₅, ⟨r, hr₅, hid₅, by simp [hstatus₅]⟩, fun _ => ⟨f, by simp [hfills₅], hf₅⟩, by rw [hrest₅]; exact hwrites⟩

end Attempt

/-! ### A paper engine with one contract -/

def paperSetup : PerpetualSetup where
  engine := some { contract := { symbol := "BTCUSDT_PERP" } }
  settlement := ⟨[], fun _ => ⟨"evt", "txn"⟩, fun _ => none⟩

/-- Ids named after `n`. -/
def attemptIds (n : Nat) : PerpetualIds :=
  ⟨s!"ord_{n}", s!"created_{n}", s!"validated_{n}", s!"submitting_{n}", s!"submitted_{n}", s!"txn_{n}", s!"fill_{n}",
    s!"trd_{n}", ⟨s!"trd_{n}", s!"last_{n}", s!"filled_{n}"⟩⟩

end CryptoTrader
