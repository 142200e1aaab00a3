import CryptoTrader.Runtime.ChiefTrader
import CryptoTrader.Runtime.Oversell

/-!
# Entries that stack

No gate of the Chief Trader looks at orders. A spot entry that is still under way when the next tick
reads the positions is not seen by it, and the next entry adds to the first. Entries stay within the
quantity of one as long as every approved spot entry is one whose tick read the positions with
no entry of its symbol under way (`entries_within_one`).
-/

namespace CryptoTrader

open KeyedTable OrderStore Weights Runs

/-- A run, and what is kept on the entries in one execution symbol: the spot orders, what the
entries have brought to the position since it was last flat, what was under way when the tick read
the positions, and the quantity of the last entry. -/
structure EntryLog where
  state : ChiefTraderRun
  orders : List String := []
  entered : ℚ := 0
  underWay : ℚ := 0
  last : ℚ := 0

/-- The quantities of the entries in a symbol whose spot orders are known. -/
def entriesOf (symbol : String) (orders : List String) : Valuation where
  approved a := if a.signal.strategyId = chiefTraderName ∧ a.signal.symbol = symbol then a.signal.quantity else 0
  working w := if w.orderId ∈ orders then w.remaining else 0
  fill f := if f.orderId ∈ orders then f.quantity else 0

/-- The spot order that a turn makes of an entry in the symbol. -/
def entryOrders (setup : PerpetualSetup) (symbol : String) (st : OrderFlow) : FlowTurn → List String
  | .submit n ids =>
    match st.approved[n]? with
    | none => []
    | some a =>
      if a.signal.strategyId = chiefTraderName ∧ a.signal.symbol = symbol ∧ a.signal.marketType = .spot then
        match (submitOrder setup.mode a.intent ids st.db).1 with
        | .ok order => [order.internalOrderId]
        | .error _ => []
      else []
  | _ => []

def positionFlat (symbol : String) (books : Books) : Bool :=
  if isPaperPerpetualSymbol symbol then ((rebuildFuturesProjection books.ledger).position symbol).all MarginPosition.isFlat
  else books.held symbol = 0

/-- The signal that a decision passes on to `process_signal`. -/
def ChiefTraderRun.entry (config : ChiefTraderConfig) (st : ChiefTraderRun) (answer : Option ChiefTraderDecision)
    (signalId : String) : Option SignalIntent :=
  match st.phase with
  | .deciding active symbol _ =>
    (answer.bind (fun d => mapToSignals config symbol signalId (d.annotate config))).filter
      (fun signal => signal.symbol ∉ active)
  | _ => none

/-- The entry that is approved. -/
def ChiefTraderRun.approvedEntry (config : ChiefTraderConfig) (setup : PerpetualSetup) (st : ChiefTraderRun) :
    TickEvent → Option SignalIntent
  | .decided answer signalId env _ =>
    (st.entry config answer signalId).filter (fun signal =>
      st.flow.db.store.getByClient (clientOrderId signal) = none ∧ Approves setup.engine env signal st.flow.db)
  | _ => none

namespace EntryLog

/-- The entries in the symbol, filled since the position was last flat or still outstanding. -/
def total (symbol : String) (s : EntryLog) : ℚ :=
  s.state.flow.outstanding (entriesOf symbol s.orders) + s.entered

def step (config : ChiefTraderConfig) (setup : PerpetualSetup) (symbol : String) (s : EntryLog) (event : TickEvent) :
    EntryLog :=
  let state := tickStep config setup s.state event
  { state
    orders := match event with
      | .flow turn => s.orders ++ entryOrders setup symbol s.state.flow turn
      | _ => s.orders
    entered :=
      if positionFlat symbol state.flow.db.rest then 0
      else match event with
        | .flow turn => s.entered + released (entriesOf symbol s.orders) s.state.flow turn
        | _ => s.entered
    underWay := match s.state.phase, event with
      | .started _, .context _ => s.state.flow.outstanding (entriesOf symbol s.orders)
      | _, _ => s.underWay
    last := (s.state.approvedEntry config setup event).elim s.last
      (fun signal => if signal.symbol = symbol then signal.quantity else s.last) }

end EntryLog

/-- An entry in the symbol is approved only if none was under way when the tick read the positions. -/
def SeesEntries (config : ChiefTraderConfig) (setup : PerpetualSetup) (symbol : String) (s : EntryLog) (event : TickEvent) :
    Prop :=
  ∀ signal ∈ s.state.approvedEntry config setup event, signal.symbol = symbol → s.underWay = 0

instance (config : ChiefTraderConfig) (setup : PerpetualSetup) (symbol : String) (s : EntryLog) (event : TickEvent) :
    Decidable (SeesEntries config setup symbol s event) :=
  inferInstanceAs (Decidable (∀ signal ∈ s.state.approvedEntry config setup event, _))

/-- Executions are reported as they are, only the Chief Trader sends signals under its name, and a
submission mints ids that are new. -/
def EntryTurn (st : ChiefTraderRun) : TickEvent → Prop
  | .flow turn => ReportsOrder st.flow turn ∧ match turn with
    | .decide signal _ => signal.strategyId ≠ chiefTraderName
    | .submit n ids => st.flow.db.store.get ids.orderId = none ∧
        ∀ a ∈ st.flow.approved[n]?, st.flow.db.store.getByClient a.intent.clientOrderId = none
    | .execute _ fill => 0 ≤ fill.quantity
    | _ => True
  | _ => True

instance (st : ChiefTraderRun) : ∀ event, Decidable (EntryTurn st event)
  | .flow turn => match turn with
    | .decide _ _ => inferInstanceAs (Decidable (_ ∧ _))
    | .submit n _ => inferInstanceAs (Decidable (_ ∧ _ ∧ ∀ a ∈ st.flow.approved[n]?, _))
    | .execute _ _ => inferInstanceAs (Decidable (_ ∧ _))
    | .transition _ _ _ | .withdraw _ | .apply _ _ | .settle _ _ => inferInstanceAs (Decidable (_ ∧ True))
  | .start _ | .context _ | .gates _ | .decided _ _ _ _ | .restart => .isTrue trivial

/-! ### Orders and fills -/

lemma entriesOf_nonneg (symbol : String) (orders : List String) {st : OrderFlow} (h : volume.Nonneg st) :
    (entriesOf symbol orders).Nonneg st :=
  ⟨fun a ha => ite_nonneg (h.approved a ha) le_rfl, fun w hw => ite_nonneg (h.working w hw) le_rfl,
    fun f hf => ite_nonneg (h.queued f hf) le_rfl, fun f hf => ite_nonneg (h.unsettled f hf) le_rfl⟩

/-- The order that `create_from_intent` returns for a new client order id has the id that is minted. -/
lemma submitOrder_id {mode : TradingMode} {intent : OrderIntent} {ids : PerpetualIds} {db db' : Db Books} {order : Order}
    (h : submitOrder mode intent ids db = (.ok order, db'))
    (hnew : db.store.getByClient intent.clientOrderId = none) : order.internalOrderId = ids.orderId := by
  unfold submitOrder at h
  obtain ⟨created, db₁, hcreate, h⟩ := andThen_eq_ok h
  obtain ⟨_, db₂, -, h⟩ := andThen_eq_ok h
  obtain ⟨_, db₃, -, h⟩ := andThen_eq_ok h
  obtain ⟨_, db₄, -, h⟩ := andThen_eq_ok h
  simp only [Prod.mk.injEq, Except.ok.injEq] at h
  obtain ⟨rfl, -⟩ := h
  unfold callCreate createFromIntent at hcreate
  rw [hnew] at hcreate
  dsimp only at hcreate
  unfold createInsert at hcreate
  split at hcreate
  · rename_i order s hinserted
    simp only [Prod.mk.injEq, Except.ok.injEq] at hcreate
    split at hinserted
    · simp only [Except.ok.injEq, Prod.mk.injEq] at hinserted
      rw [← hcreate.1, ← hinserted.1]
      rfl
    · simp at hinserted
  · simp at hcreate

section Turns

variable {setup : PerpetualSetup} {symbol : String} {orders : List String} {st : OrderFlow}

/-- Ids in the order table. -/
def KnownOrders (orders : List String) (s : OrderStore) : Prop :=
  ∀ orderId ∈ orders, ∃ symbol side, Names s orderId symbol side

lemma not_names_of_get {s : OrderStore} {orderId : String} (hget : s.get orderId = none) (symbol : String) (side : OrderSide) :
    ¬ Names s orderId symbol side := by
  rintro ⟨r, hr, -⟩
  rw [hget] at hr
  cases hr

/-- An order with a new id changes nothing for those that are under way. -/
lemma outstanding_new (ht : OrdersKnown st) {orderId : String} (hnew : st.db.store.get orderId = none) :
    st.outstanding (entriesOf symbol (orders ++ [orderId])) = st.outstanding (entriesOf symbol orders) := by
  have hmem {id s' : String} {side : OrderSide} (hnames : Names st.db.store id s' side) :
      id ∈ orders ++ [orderId] ↔ id ∈ orders := by
    have hne : id ≠ orderId := by
      rintro rfl
      exact not_names_of_get hnew s' side hnames
    simp [hne]
  have hworking : weight (entriesOf symbol (orders ++ [orderId])).working st.working =
      weight (entriesOf symbol orders).working st.working :=
    congrArg List.sum (List.map_congr_left (fun w hw => if_congr (hmem (ht.working w hw)) rfl rfl))
  have hqueued : weight (entriesOf symbol (orders ++ [orderId])).fill st.queued =
      weight (entriesOf symbol orders).fill st.queued :=
    congrArg List.sum (List.map_congr_left (fun f hf => if_congr (hmem (ht.queued f hf)) rfl rfl))
  have hunsettled : weight (entriesOf symbol (orders ++ [orderId])).fill st.unsettled =
      weight (entriesOf symbol orders).fill st.unsettled :=
    congrArg List.sum (List.map_congr_left (fun f hf => if_congr (hmem (ht.unsettled f hf)) rfl rfl))
  unfold OrderFlow.outstanding
  rw [hworking, hqueued, hunsettled]
  rfl

lemma entryOrders_perpetual {n : Nat} {ids : PerpetualIds} {a : ApprovedSignal} (ha : st.approved[n]? = some a)
    (hperp : a.signal.marketType = .perpetual) : entryOrders setup symbol st (.submit n ids) = [] := by
  simp [entryOrders, ha, hperp]

/-- What a submission takes off the approved signals it puts on the book or takes to the ledger. -/
lemma submit_entries_le (ht : OrdersKnown st) (hv : volume.Nonneg st) (hknown : KnownOrders orders st.db.store) {n : Nat}
    {ids : PerpetualIds} (hnew : st.db.store.get ids.orderId = none)
    (hclient : ∀ a ∈ st.approved[n]?, st.db.store.getByClient a.intent.clientOrderId = none) :
    (flowStep setup st (.submit n ids)).outstanding
        (entriesOf symbol (orders ++ entryOrders setup symbol st (.submit n ids))) +
      released (entriesOf symbol orders) st (.submit n ids) ≤ st.outstanding (entriesOf symbol orders) := by
  have happroved := (entriesOf_nonneg symbol orders hv).approved
  cases ha : st.approved[n]? with
  | none => simp [flowStep, entryOrders, released, ha]
  | some a =>
    have herase := weight_eraseIdx (w := (entriesOf symbol orders).approved) ha
    cases hmarket : a.signal.marketType with
    | perpetual =>
      rw [entryOrders_perpetual ha hmarket, List.append_nil]
      simp only [flowStep, released, ha, hmarket, if_true, OrderFlow.outstanding]
      linarith
    | spot =>
      have hvalue : 0 ≤ (entriesOf symbol orders).approved a := happroved a (List.mem_of_getElem? ha)
      have hreleased : released (entriesOf symbol orders) st (.submit n ids) = 0 := by simp [released, ha, hmarket]
      rw [hreleased, add_zero]
      simp only [flowStep, entryOrders, ha, hmarket, and_true]
      cases hsubmit : submitOrder setup.mode a.intent ids st.db with
      | mk result db =>
        cases result with
        | error e =>
          simp only [ite_self, List.append_nil, OrderFlow.outstanding]
          linarith
        | ok order =>
          have hid := submitOrder_id hsubmit (hclient a (by simp [ha]))
          have hquantity : order.quantity = a.signal.quantity := (submitOrder_ok ht.keys hsubmit).quantity
          dsimp only
          rw [hid]
          by_cases hentry : a.signal.strategyId = chiefTraderName ∧ a.signal.symbol = symbol
          · have hsame : st.outstanding (entriesOf symbol (orders ++ [ids.orderId])) = st.outstanding (entriesOf symbol orders) :=
              outstanding_new ht hnew
            have hworks : (entriesOf symbol (orders ++ [ids.orderId])).working (.ofOrder order) = a.signal.quantity := by
              simp [entriesOf, WorkingOrder.ofOrder, hid, hquantity]
            have hcounts : (entriesOf symbol orders).approved a = a.signal.quantity := if_pos hentry
            rw [if_pos hentry, ← hsame]
            simp only [OrderFlow.outstanding, weight_append, weight_cons, weight_nil, hworks]
            rw [hcounts] at herase
            have happ : (entriesOf symbol (orders ++ [ids.orderId])).approved = (entriesOf symbol orders).approved := rfl
            rw [happ]
            linarith
          · have hworks : (entriesOf symbol orders).working (.ofOrder order) = 0 := by
              apply if_neg
              intro hmem
              obtain ⟨s', side, hnames⟩ := hknown _ hmem
              exact not_names_of_get hnew s' side (hid ▸ hnames)
            rw [if_neg hentry, List.append_nil]
            simp only [OrderFlow.outstanding, weight_append, weight_cons, weight_nil, hworks]
            linarith

lemma entriesOf_splits {turn : FlowTurn} (h : EntryTurn { flow := st } (.flow turn)) :
    (entriesOf symbol orders).Splits setup st turn := by
  cases turn with
  | decide signal env => exact fun happrove => ite_nonneg happrove.approval.gate.1.le le_rfl
  | execute n fill =>
    intro w hw hle
    obtain ⟨hid, -, -⟩ := h.1 w hw
    simp only [entriesOf, WorkingOrder.after, hid]
    split
    · exact ⟨h.2, sub_nonneg.mpr hle, sub_add_cancel _ _⟩
    · exact ⟨le_rfl, le_rfl, add_zero 0⟩
  | _ => trivial

/-- Beside the ticks nothing adds to the entries. -/
lemma flowStep_entries_le (ht : OrdersKnown st) (hv : volume.Nonneg st) (hknown : KnownOrders orders st.db.store)
    {turn : FlowTurn} (h : EntryTurn { flow := st } (.flow turn)) :
    (flowStep setup st turn).outstanding (entriesOf symbol (orders ++ entryOrders setup symbol st turn)) +
      released (entriesOf symbol orders) st turn ≤ st.outstanding (entriesOf symbol orders) := by
  by_cases hsubmit : ∃ n ids, turn = .submit n ids
  · obtain ⟨n, ids, rfl⟩ := hsubmit
    exact submit_entries_le ht hv hknown h.2.1 h.2.2
  · have hle := (flow_effect setup ht.keys turn).outstanding_le (entriesOf_nonneg symbol orders hv)
      (fun n ids heq => absurd ⟨n, ids, heq⟩ hsubmit) (entriesOf_splits h)
    have hadded : added (entriesOf symbol orders) setup st turn = 0 := by
      obtain hnone | ⟨signal, env, rfl, -, -, hvalue⟩ := added_cases (entriesOf symbol orders) setup st turn
      · exact hnone
      · rw [hvalue]
        exact if_neg (fun hentry => h.2 hentry.1)
    have horders : entryOrders setup symbol st turn = [] := by
      cases turn with
      | submit n ids => exact absurd ⟨n, ids, rfl⟩ hsubmit
      | _ => rfl
    rw [horders, List.append_nil]
    rwa [hadded, add_zero] at hle

end Turns

/-! ### The tick and what it has read -/

/-- The market that a signal of the Chief Trader in the symbol is for. -/
def entryMarket (symbol : String) : MarketType :=
  if isPaperPerpetualSymbol symbol then .perpetual else .spot

lemma isPaperPerpetualSymbol_execution {reference : String} (h : reference ∈ paperPerpetualReferenceSymbols) :
    isPaperPerpetualSymbol (executionSymbolFor reference) = true := by
  rw [executionSymbolFor, if_pos h, isPaperPerpetualSymbol, List.any_eq_true]
  exact ⟨reference, h, decide_eq_true rfl⟩

lemma executionSymbolFor_spot {reference symbol : String} (h : executionSymbolFor reference = symbol)
    (hspot : isPaperPerpetualSymbol symbol = false) : reference = symbol := by
  by_cases hmem : reference ∈ paperPerpetualReferenceSymbols
  · rw [← h, isPaperPerpetualSymbol_execution hmem] at hspot
    cases hspot
  · rwa [executionSymbolFor, if_neg hmem] at h

/-- A signal of the Chief Trader. -/
structure IsEntry (reference : String) (signal : SignalIntent) : Prop where
  strategy : signal.strategyId = chiefTraderName
  symbol : signal.symbol = executionSymbolFor reference
  market : signal.marketType = entryMarket signal.symbol

lemma mapToSignals_isEntry {config : ChiefTraderConfig} {reference signalId : String} {d : ChiefTraderDecision}
    {signal : SignalIntent} (h : mapToSignals config reference signalId d = some signal) : IsEntry reference signal := by
  obtain ⟨⟨side, direction⟩, -, rfl⟩ := Option.map_eq_some_iff.mp h
  exact ⟨rfl, rfl, rfl⟩

/-- The position that the phase has found flat is the observed one, and nothing was under way. -/
def TickPhase.Clear (symbol : String) (underWay : ℚ) : TickPhase → Prop
  | .inContext _ reference held => executionSymbolFor reference = symbol ∧ isPaperPerpetualSymbol symbol = false ∧ held = 0 ∧
      underWay = 0
  | .deciding _ reference _ => executionSymbolFor reference = symbol ∧ (isPaperPerpetualSymbol symbol = false → underWay = 0)
  | _ => False

/-- What holds at every moment of a run whose ticks see the entries. -/
structure EntriesSeen (symbol : String) (s : EntryLog) : Prop where
  tracked : OrdersKnown s.state.flow
  volume : volume.Nonneg s.state.flow
  known : KnownOrders s.orders s.state.flow.db.store
  spot : isPaperPerpetualSymbol symbol = true → s.orders = []
  market : ∀ a ∈ s.state.flow.approved, a.signal.strategyId = chiefTraderName → a.signal.marketType = entryMarket a.signal.symbol
  quiet : s.state.phase ≠ .idle → ∀ a ∈ s.state.flow.approved, a.signal.strategyId ≠ chiefTraderName
  entered : 0 ≤ s.entered
  flat : positionFlat symbol s.state.flow.db.rest = true → s.entered = 0
  clear : s.state.phase.Clear symbol s.underWay → s.total symbol ≤ 0
  within : s.total symbol ≤ s.last

namespace EntriesSeen

variable {config : ChiefTraderConfig} {setup : PerpetualSetup} {symbol : String} {s : EntryLog}

lemma outstanding_perpetual (h : EntriesSeen symbol s) (hphase : s.state.phase ≠ .idle)
    (hperp : isPaperPerpetualSymbol symbol = true) : s.state.flow.outstanding (entriesOf symbol s.orders) = 0 := by
  have hquiet : weight (entriesOf symbol s.orders).approved s.state.flow.approved = 0 := by
    apply List.sum_eq_zero
    intro x hx
    obtain ⟨a, ha, rfl⟩ := List.mem_map.mp hx
    exact if_neg (fun hentry => h.quiet hphase a ha hentry.1)
  have hnone {α : Type} {f : α → ℚ} (hf : ∀ a, f a = 0) (l : List α) : weight f l = 0 := by
    apply List.sum_eq_zero
    intro x hx
    obtain ⟨a, -, rfl⟩ := List.mem_map.mp hx
    exact hf a
  have horders := h.spot hperp
  unfold OrderFlow.outstanding
  rw [hquiet, hnone (by simp [entriesOf, horders]), hnone (by simp [entriesOf, horders]), hnone (by simp [entriesOf, horders])]
  simp

lemma entered_eq (h : EntriesSeen symbol s) :
    (if positionFlat symbol s.state.flow.db.rest then 0 else s.entered) = s.entered := by
  split
  · rename_i hflat
    exact (h.flat hflat).symm
  · rfl

lemma moves (h : EntriesSeen symbol s) {state : ChiefTraderRun} {underWay : ℚ}
    (hflow : state.flow = s.state.flow)
    (hquiet : state.phase ≠ .idle → ∀ a ∈ s.state.flow.approved, a.signal.strategyId ≠ chiefTraderName)
    (hclear : state.phase.Clear symbol underWay → s.total symbol ≤ 0) :
    EntriesSeen symbol ⟨state, s.orders, if positionFlat symbol state.flow.db.rest then 0 else s.entered, underWay, s.last⟩ := by
  obtain ⟨flow, adapter, phase⟩ := state
  dsimp only at hflow hquiet hclear ⊢
  subst hflow
  rw [h.entered_eq]
  exact ⟨h.tracked, h.volume, h.known, h.spot, h.market, hquiet, h.entered, h.flat, hclear, h.within⟩

lemma ends (h : EntriesSeen symbol s) {state : ChiefTraderRun} {underWay : ℚ} (hflow : state.flow = s.state.flow)
    (hidle : state.phase = .idle) :
    EntriesSeen symbol ⟨state, s.orders, if positionFlat symbol state.flow.db.rest then 0 else s.entered, underWay, s.last⟩ := by
  refine h.moves hflow (fun hphase => absurd hidle hphase) (fun hclear => ?_)
  rw [hidle] at hclear
  exact hclear.elim

lemma start (h : EntriesSeen symbol s) (readable : Bool) :
    EntriesSeen symbol (s.step config setup symbol (.start readable)) := by
  unfold EntryLog.step
  dsimp only [tickStep]
  cases hphase : s.state.phase with
  | idle =>
    dsimp only
    split
    · rename_i hquiet
      apply h.moves
      · rfl
      · intro _ a ha heq
        exact hquiet.2 ⟨a, ha, heq⟩
      · exact fun hclear => hclear.elim
    · exact h.ends rfl hphase
  | _ => exact h.moves rfl h.quiet h.clear

lemma context (h : EntriesSeen symbol s) (readable : Bool) :
    EntriesSeen symbol (s.step config setup symbol (.context readable)) := by
  unfold EntryLog.step
  dsimp only [tickStep, ChiefTrader.nextSymbol]
  cases hphase : s.state.phase with
  | started active =>
    have hquiet := h.quiet (by simp [hphase])
    dsimp only
    cases config.symbols[s.state.adapter.symbolCursor]? with
    | none => exact h.ends (by rfl) (by rfl)
    | some reference =>
      cases readable with
      | false => exact h.ends (by rfl) (by rfl)
      | true =>
        apply h.moves
        · rfl
        · exact fun _ => hquiet
        · rintro ⟨hsymbol, hspot, hheld, hnone⟩
          rw [executionSymbolFor_spot hsymbol hspot] at hheld
          have hflat : positionFlat symbol s.state.flow.db.rest = true := by
            simp [positionFlat, hspot, hheld]
          rw [EntryLog.total, h.flat hflat, hnone, add_zero]
  | _ => exact h.moves rfl h.quiet h.clear

lemma clear_of_mayAsk (h : EntriesSeen symbol s) {active : List String} {reference : String} {held : ℚ}
    (hphase : s.state.phase = .inContext active reference held) {r : GateReadings}
    (hask : MayAsk config s.state.adapter s.state.flow.db.rest reference held r)
    (hsymbol : executionSymbolFor reference = symbol) (hnone : isPaperPerpetualSymbol symbol = false → s.underWay = 0) :
    s.total symbol ≤ 0 := by
  obtain ⟨-, hheld, -, hclosed, -⟩ := hask
  cases hperp : isPaperPerpetualSymbol symbol with
  | false =>
    apply h.clear
    rw [hphase]
    exact ⟨hsymbol, hperp, hheld, hnone hperp⟩
  | true =>
    have hflat : positionFlat symbol s.state.flow.db.rest = true := by
      rw [hasOpenPerpetualPosition, hsymbol] at hclosed
      rw [positionFlat, if_pos hperp]
      cases hpos : (rebuildFuturesProjection s.state.flow.db.rest.ledger).position symbol with
      | none => rfl
      | some pos => simpa [hpos] using hclosed
    rw [EntryLog.total, h.flat hflat, h.outstanding_perpetual (by simp [hphase]) hperp, add_zero]

lemma gates (h : EntriesSeen symbol s) (r : GateReadings) :
    EntriesSeen symbol (s.step config setup symbol (.gates r)) := by
  unfold EntryLog.step
  dsimp only [tickStep]
  cases hphase : s.state.phase with
  | inContext active reference held =>
    have hquiet := h.quiet (by simp [hphase])
    dsimp only
    split
    · exact h.ends (by rfl) (by rfl)
    · split
      · rename_i hask
        apply h.moves
        · rfl
        · exact fun _ => hquiet
        · rintro ⟨hsymbol, hnone⟩
          exact h.clear_of_mayAsk hphase hask hsymbol hnone
      · exact h.ends (by rfl) (by rfl)
  | _ => exact h.moves rfl h.quiet h.clear

lemma entryOrders_nil (h : EntriesSeen symbol s) (hperp : isPaperPerpetualSymbol symbol = true) (turn : FlowTurn) :
    entryOrders setup symbol s.state.flow turn = [] := by
  cases turn with
  | submit n ids =>
    simp only [entryOrders]
    cases ha : s.state.flow.approved[n]? with
    | none => rfl
    | some a =>
      apply if_neg
      rintro ⟨hname, hsymbol, hspot⟩
      have hmarket := h.market a (List.mem_of_getElem? ha) hname
      rw [hspot, hsymbol, entryMarket, if_pos hperp] at hmarket
      cases hmarket
  | _ => rfl

lemma flow_known (h : EntriesSeen symbol s) {turn : FlowTurn} (hturn : EntryTurn s.state (.flow turn)) :
    KnownOrders (s.orders ++ entryOrders setup symbol s.state.flow turn) (flowStep setup s.state.flow turn).db.store := by
  have hkeeps := (flow_effect setup h.tracked.keys turn).keepsOrders h.tracked.keys
  intro orderId hmem
  rcases List.mem_append.mp hmem with hmem | hmem
  · obtain ⟨symbol', side, hnames⟩ := h.known orderId hmem
    exact ⟨symbol', side, hkeeps.names hnames⟩
  · cases turn with
    | submit n ids =>
      simp only [entryOrders] at hmem
      cases ha : s.state.flow.approved[n]? with
      | none => simp [ha] at hmem
      | some a =>
        rw [ha] at hmem
        dsimp only at hmem
        split at hmem
        · rename_i hentry
          cases hsubmit : submitOrder setup.mode a.intent ids s.state.flow.db with
          | mk result db =>
            rw [hsubmit] at hmem
            cases result with
            | error e => simp at hmem
            | ok order =>
              obtain rfl := List.mem_singleton.mp hmem
              have hnames := (submitOrder_ok h.tracked.keys hsubmit).names
              refine ⟨a.intent.symbol, a.intent.side, ?_⟩
              simpa only [flowStep, ha, hentry.2.2, hsubmit] using hnames
        · simp at hmem
    | _ => simp [entryOrders] at hmem

lemma flow (h : EntriesSeen symbol s) {turn : FlowTurn} (hturn : EntryTurn s.state (.flow turn)) :
    EntriesSeen symbol (s.step config setup symbol (.flow turn)) := by
  have heff := flow_effect setup h.tracked.keys turn
  have hle : (flowStep setup s.state.flow turn).outstanding
        (entriesOf symbol (s.orders ++ entryOrders setup symbol s.state.flow turn)) +
      released (entriesOf symbol s.orders) s.state.flow turn ≤ s.state.flow.outstanding (entriesOf symbol s.orders) :=
    flowStep_entries_le h.tracked h.volume h.known hturn
  have hreleased := (entriesOf_nonneg symbol s.orders h.volume).released turn
  have htotal : (s.step config setup symbol (.flow turn)).total symbol ≤ s.total symbol := by
    have hentered := h.entered
    unfold EntryLog.total EntryLog.step
    dsimp only [tickStep]
    split
    · linarith
    · linarith
  have hdecide : ∀ signal env, turn = .decide signal env → signal.strategyId ≠ chiefTraderName := by
    rintro signal env rfl
    exact hturn.2
  refine ⟨heff.tracked h.tracked hturn.1, ?_, h.flow_known hturn, ?_, ?_, ?_, ?_, ?_, ?_, htotal.trans h.within⟩
  · refine heff.nonneg h.volume volume_submits (volume_splits ?_)
    rintro n fill rfl
    exact hturn.2
  · intro hperp
    change s.orders ++ entryOrders setup symbol s.state.flow turn = []
    rw [h.spot hperp, h.entryOrders_nil hperp turn, List.append_nil]
  · have hunder : UnderWay (fun a => a.signal.strategyId = chiefTraderName → a.signal.marketType = entryMarket a.signal.symbol)
        (fun _ => True) (fun _ => True) s.state.flow := ⟨h.market, by simp, by simp, by simp⟩
    apply (heff.underWay hunder ⟨?_, fun _ _ _ _ _ _ => trivial, fun _ _ _ _ _ _ _ => ⟨trivial, trivial⟩⟩).approved
    exact fun signal env heq _ _ hname => absurd hname (hdecide signal env heq)
  · intro hphase
    have hunder : UnderWay (fun a => a.signal.strategyId ≠ chiefTraderName) (fun _ => True) (fun _ => True) s.state.flow :=
      ⟨h.quiet hphase, by simp, by simp, by simp⟩
    apply (heff.underWay hunder ⟨?_, fun _ _ _ _ _ _ => trivial, fun _ _ _ _ _ _ _ => ⟨trivial, trivial⟩⟩).approved
    exact fun signal env heq _ _ => hdecide signal env heq
  · unfold EntryLog.step
    dsimp only
    split
    · exact le_rfl
    · exact add_nonneg h.entered hreleased
  · intro hflat
    exact if_pos hflat
  · intro hclear
    apply htotal.trans (h.clear _)
    unfold EntryLog.step at hclear
    cases hphase : s.state.phase <;> simpa [tickStep, hphase] using hclear

lemma flowStep_decide (setup : PerpetualSetup) (st : OrderFlow) (signal : SignalIntent) (env : SignalEnv) :
    flowStep setup st (.decide signal env) =
      if st.db.store.getByClient (clientOrderId signal) = none ∧ Approves setup.engine env signal st.db then
        { st with approved := st.approved ++ [⟨signal, env.marketPrice, env.runId⟩] }
      else st := by
  simp only [flowStep]
  cases st.db.store.getByClient (clientOrderId signal) with
  | some r => simp
  | none => simp

/-- A decision lets the tick end, and at most one entry is approved. -/
lemma tickStep_decided (config : ChiefTraderConfig) (setup : PerpetualSetup) (st : ChiefTraderRun)
    (answer : Option ChiefTraderDecision) (signalId : String) (env : SignalEnv) (completedAt : ℚ) :
    let event : TickEvent := .decided answer signalId env completedAt
    let st' := tickStep config setup st event
    st.approvedEntry config setup event = none ∧ (st' = st ∨ (st'.flow = st.flow ∧ st'.phase = .idle)) ∨
      ∃ active reference now signal, st.phase = .deciding active reference now ∧
        st.approvedEntry config setup event = some signal ∧ IsEntry reference signal ∧
        Approves setup.engine env signal st.flow.db ∧
        st'.flow = { st.flow with approved := st.flow.approved ++ [⟨signal, env.marketPrice, env.runId⟩] } ∧
        st'.phase = .idle := by
  dsimp only [tickStep, ChiefTraderRun.approvedEntry, ChiefTraderRun.entry]
  cases hphase : st.phase with
  | deciding active reference now =>
    dsimp only
    generalize hsignal : answer.bind (fun d => mapToSignals config reference signalId (d.annotate config)) = passed
    cases passed with
    | none => exact .inl ⟨rfl, .inr ⟨rfl, rfl⟩⟩
    | some signal =>
      dsimp only
      by_cases hactive : signal.symbol ∈ active
      · exact .inl ⟨by simp [hactive], .inr ⟨if_pos hactive, rfl⟩⟩
      · rw [if_neg hactive, flowStep_decide]
        by_cases hnew : st.flow.db.store.getByClient (clientOrderId signal) = none ∧
            Approves setup.engine env signal st.flow.db
        · obtain ⟨d, -, hmaps⟩ := Option.bind_eq_some_iff.mp hsignal
          refine .inr ⟨active, reference, now, signal, rfl, ?_, mapToSignals_isEntry hmaps, hnew.2, if_pos hnew, rfl⟩
          simp [hactive, hnew]
        · refine .inl ⟨?_, .inr ⟨if_neg hnew, rfl⟩⟩
          simpa [hactive] using hnew
  | _ => exact .inl ⟨rfl, .inl rfl⟩

lemma approves (h : EntriesSeen symbol s) {active : List String} {reference : String} {now : ℚ}
    (hphase : s.state.phase = .deciding active reference now) {signal : SignalIntent} (hentry : IsEntry reference signal)
    {env : SignalEnv} (happrove : Approves setup.engine env signal s.state.flow.db)
    (hsees : signal.symbol = symbol → isPaperPerpetualSymbol symbol = false → s.underWay = 0) {state : ChiefTraderRun}
    (hflow : state.flow = { s.state.flow with approved := s.state.flow.approved ++ [⟨signal, env.marketPrice, env.runId⟩] })
    (hidle : state.phase = .idle) :
    EntriesSeen symbol ⟨state, s.orders, if positionFlat symbol state.flow.db.rest then 0 else s.entered, s.underWay,
      if signal.symbol = symbol then signal.quantity else s.last⟩ := by
  obtain ⟨flow, adapter, phase⟩ := state
  dsimp only at hflow hidle ⊢
  subst hflow hidle
  rw [h.entered_eq]
  have hquantity : 0 < signal.quantity := happrove.approval.gate.1
  refine ⟨⟨h.tracked.keys, h.tracked.working, h.tracked.queued, h.tracked.unsettled⟩,
    ⟨?_, h.volume.working, h.volume.queued, h.volume.unsettled⟩, h.known, h.spot, ?_, fun hphase => absurd rfl hphase,
    h.entered, h.flat, fun hclear => hclear.elim, ?_⟩
  · intro a ha
    rcases List.mem_append.mp ha with ha | ha
    · exact h.volume.approved a ha
    · rw [List.mem_singleton.mp ha]
      exact hquantity.le
  · intro a ha hname
    rcases List.mem_append.mp ha with ha | ha
    · exact h.market a ha hname
    · rw [List.mem_singleton.mp ha]
      exact hentry.market
  · have hwithin := h.within
    unfold EntryLog.total OrderFlow.outstanding at hwithin ⊢
    dsimp only
    rw [weight_append, weight_cons, weight_nil, add_zero]
    by_cases hsymbol : signal.symbol = symbol
    · have hclear := h.clear
      rw [hphase] at hclear
      have hnothing := hclear ⟨hentry.symbol ▸ hsymbol, hsees hsymbol⟩
      unfold EntryLog.total OrderFlow.outstanding at hnothing
      have hcounts : (entriesOf symbol s.orders).approved ⟨signal, env.marketPrice, env.runId⟩ = signal.quantity :=
        if_pos ⟨hentry.strategy, hsymbol⟩
      rw [hcounts, if_pos hsymbol]
      linarith
    · have hcounts : (entriesOf symbol s.orders).approved ⟨signal, env.marketPrice, env.runId⟩ = 0 :=
        if_neg (fun hboth => hsymbol hboth.2)
      rw [hcounts, if_neg hsymbol]
      linarith

lemma decided (h : EntriesSeen symbol s) {answer : Option ChiefTraderDecision} {signalId : String} {env : SignalEnv}
    {completedAt : ℚ}
    (hsees : isPaperPerpetualSymbol symbol = false → SeesEntries config setup symbol s (.decided answer signalId env completedAt)) :
    EntriesSeen symbol (s.step config setup symbol (.decided answer signalId env completedAt)) := by
  have hcases := tickStep_decided config setup s.state answer signalId env completedAt
  have hstep : s.step config setup symbol (.decided answer signalId env completedAt) =
      ⟨tickStep config setup s.state (.decided answer signalId env completedAt), s.orders,
        if positionFlat symbol (tickStep config setup s.state (.decided answer signalId env completedAt)).flow.db.rest then 0
        else s.entered, s.underWay,
        (s.state.approvedEntry config setup (.decided answer signalId env completedAt)).elim s.last
          (fun signal => if signal.symbol = symbol then signal.quantity else s.last)⟩ := by
    unfold EntryLog.step
    cases s.state.phase <;> rfl
  rw [hstep]
  dsimp only at hcases
  generalize tickStep config setup s.state (.decided answer signalId env completedAt) = state at hcases ⊢
  rcases hcases with ⟨hnone, rfl | ⟨hflow, hidle⟩⟩ |
    ⟨active, reference, now, signal, hphase, hentry, his, happrove, hflow, hidle⟩
  · rw [hnone]
    exact h.moves rfl h.quiet h.clear
  · rw [hnone]
    exact h.ends hflow hidle
  · rw [hentry]
    exact h.approves hphase his happrove (fun hsymbol hspot => hsees hspot signal hentry hsymbol) hflow hidle

lemma restart (h : EntriesSeen symbol s) : EntriesSeen symbol (s.step config setup symbol .restart) := by
  have hstep : s.step config setup symbol .restart = ⟨{ flow := { s.state.flow with approved := [] } }, s.orders,
      if positionFlat symbol s.state.flow.db.rest then 0 else s.entered, s.underWay, s.last⟩ := by
    unfold EntryLog.step
    cases s.state.phase <;> rfl
  rw [hstep, h.entered_eq]
  refine ⟨⟨h.tracked.keys, h.tracked.working, h.tracked.queued, h.tracked.unsettled⟩,
    ⟨by simp, h.volume.working, h.volume.queued, h.volume.unsettled⟩, h.known, h.spot, by simp, by simp, h.entered, h.flat,
    fun hclear => hclear.elim, ?_⟩
  have hwithin := h.within
  have happroved := weight_nonneg (entriesOf_nonneg symbol s.orders h.volume).approved
  unfold EntryLog.total OrderFlow.outstanding at hwithin ⊢
  dsimp only
  rw [weight_nil]
  linarith

lemma step (h : EntriesSeen symbol s) {event : TickEvent} (hturn : EntryTurn s.state event)
    (hsees : isPaperPerpetualSymbol symbol = false → SeesEntries config setup symbol s event) :
    EntriesSeen symbol (s.step config setup symbol event) := by
  cases event with
  | start readable => exact h.start readable
  | context readable => exact h.context readable
  | gates r => exact h.gates r
  | decided answer signalId env completedAt => exact h.decided hsees
  | flow turn => exact h.flow hturn
  | restart => exact h.restart

end EntriesSeen

/-! ### Runs -/

/-- A run of an engine whose only strategy is the Chief Trader. -/
structure EntryRun where
  config : ChiefTraderConfig
  setup : PerpetualSetup
  db : Db Books
  keys : UniqueKeys db.store
  events : List TickEvent
  turns : Along (tickStep config setup) EntryTurn { flow := { db } } events

namespace EntryRun

variable (R : EntryRun)

def start : EntryLog := { state := { flow := { db := R.db } } }

/-- At every moment the entries in the symbol are at most the quantity of the last one. -/
def Unstacked (symbol : String) : Prop :=
  Visits (EntryLog.step R.config R.setup symbol) (fun s => s.total symbol ≤ s.last) R.start R.events

/-- Every approved entry in the symbol is one whose tick read the positions with no entry of the
symbol under way. -/
def SeesEntries (symbol : String) : Prop :=
  Along (EntryLog.step R.config R.setup symbol) (CryptoTrader.SeesEntries R.config R.setup symbol) R.start R.events

lemma start_seen (symbol : String) : EntriesSeen symbol R.start := by
  have htotal : R.start.total symbol = 0 := by simp [EntryLog.total, start, OrderFlow.outstanding]
  refine ⟨⟨R.keys, by simp [start], by simp [start], by simp [start]⟩,
    ⟨by simp [start], by simp [start], by simp [start], by simp [start]⟩, by simp [start, KnownOrders], fun _ => rfl,
    by simp [start], by simp [start], le_rfl, fun _ => rfl, fun _ => htotal.le, htotal.le⟩

end EntryRun

/-- In every run the entries in a perpetual symbol stay within the quantity of one, and so do those
in a spot symbol if the ticks see them. -/
theorem entries_within_one (R : EntryRun) (reference : String)
    (hsees : isPaperPerpetualSymbol (executionSymbolFor reference) = false → R.SeesEntries (executionSymbolFor reference)) :
    R.Unstacked (executionSymbolFor reference) := by
  generalize executionSymbolFor reference = symbol at hsees ⊢
  have hturns : Along (EntryLog.step R.config R.setup symbol) (fun s event => EntryTurn s.state event) R.start R.events :=
    (along_map (fun _ _ => rfl) R.start R.events).mpr R.turns
  have hspot : Along (EntryLog.step R.config R.setup symbol)
      (fun s event => isPaperPerpetualSymbol symbol = false → SeesEntries R.config R.setup symbol s event) R.start R.events := by
    cases hperp : isPaperPerpetualSymbol symbol with
    | false => exact (hsees hperp).mono (fun s event h _ => h)
    | true => exact hturns.mono (fun s event _ hfalse => by simp at hfalse)
  have hseen := visits_of_along (I := EntriesSeen symbol) (fun s event h hc => h.step hc.1 hc.2) (R.start_seen symbol)
    (along_and.mpr ⟨hturns, hspot⟩)
  exact hseen.mono (fun s h => h.within)

/-! ### Entries in one symbol -/

def etherConfig : ChiefTraderConfig where
  symbols := ["ETHUSDT"]
  nonempty := by simp
  unique := by simp

def etherEnv : SignalEnv :=
  { runningEnv with instruments := [{ symbol := "ETHUSDT", baseAsset := "ETH", quoteAsset := "USDT" }] }

/-- A tick at a time, in which the LLM decides for the `n`-th entry. -/
def etherTick (n : Nat) (time : ℚ) : List TickEvent :=
  [.start true, .context true, .gates { now := time, nowMonotonic := time, completedAt := time },
    .decided (some { action := "LONG" }) s!"llm_{n}" etherEnv time]

/-- The `n`-th order is executed in full, and its fill is applied and settled. -/
def etherSettled (n : Nat) (side : OrderSide) : List TickEvent :=
  [.flow (.execute 0 { fillId := s!"fill_{n}", orderId := s!"ord_{n}", symbol := "ETHUSDT", side, price := 100
                       quantity := 1 / 1000 }),
    .flow (.apply 0 (attemptIds n).fill), .flow (.settle 0 (cutContext none)), .flow (.withdraw 0)]

/-- The bridge sells what the entry has bought. -/
def etherExit : SignalIntent where
  signalId := "s2"
  strategyId := "ai_brain"
  symbol := "ETHUSDT"
  side := .sell
  quantity := 1 / 1000
  orderType := .market
  reduceOnly := true

/-- An entry is settled and sold again before the next one. -/
def settledEntries : List TickEvent :=
  etherTick 1 0 ++ [.flow (.submit 0 (attemptIds 1))] ++ etherSettled 1 .buy ++ etherTick 2 300 ++
    [.flow (.decide etherExit etherEnv), .flow (.submit 0 (attemptIds 2))] ++ etherSettled 2 .sell ++ etherTick 3 600

/-- The first entry is not executed when the cooldown ends. -/
def slowEntries : List TickEvent :=
  etherTick 1 0 ++ [.flow (.submit 0 (attemptIds 1))] ++ etherTick 2 300

/-- The first entry is not executed when the process is restarted. -/
def restartedEntries : List TickEvent :=
  etherTick 1 0 ++ [.flow (.submit 0 (attemptIds 1)), .restart] ++ etherTick 2 1

def etherRun (events : List TickEvent)
    (h : Along (tickStep etherConfig paperSetup) EntryTurn { flow := { db := ⟨{}, {}⟩ } } events) : EntryRun :=
  ⟨etherConfig, paperSetup, ⟨{}, {}⟩, ⟨by simp, by simp⟩, events, h⟩

instance (R : EntryRun) (symbol : String) : Decidable (R.SeesEntries symbol) :=
  inferInstanceAs (Decidable (Along _ _ _ _))

theorem entries_within_settled :
    (etherRun settledEntries (by decide +kernel)).Unstacked (executionSymbolFor "ETHUSDT") :=
  entries_within_one _ "ETHUSDT" (fun _ => by decide +kernel)

/-- A second entry is approved while the first is still on the book. -/
theorem second_entry_stacks :
    ¬ (etherRun slowEntries (by decide +kernel)).Unstacked (executionSymbolFor "ETHUSDT") ∧
      ¬ (etherRun restartedEntries (by decide +kernel)).Unstacked (executionSymbolFor "ETHUSDT") :=
  ⟨fun h => absurd h.last (by decide +kernel), fun h => absurd h.last (by decide +kernel)⟩

end CryptoTrader
