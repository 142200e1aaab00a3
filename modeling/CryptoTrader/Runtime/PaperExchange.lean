import CryptoTrader.Reconciliation.Service
import CryptoTrader.Runtime.Exposure
import CryptoTrader.Runtime.Seeding
import CryptoTrader.Simulator.Matching

/-!
# The paper exchange beside the ledger

The engine submits spot orders to the simulated exchange and settles the fills in the ledger,
while the paper engine for perpetuals writes there too. At a restart the exchange adopts what
the ledger replays to. Both sides keep the same spot account, apart from base assets.
-/

namespace CryptoTrader

open KeyedTable AverageCost Runs

/-- What the paper exchange is created with, and the quarantined fills. -/
structure PaperConfig where
  initialBalances : Balances
  instruments : List Instrument := []
  feeRate : ℚ := 1 / 1000
  quarantined : List String := []

/-- The exchange, the books, and the emitted fills that are not settled yet. -/
structure PaperState where
  exchange : SimulatedExchange
  books : Books
  pending : List Fill := []

inductive PaperTurn where
  | submit (raw : Order) (newIds : Nat → String × String)
  /-- The book of a symbol is replaced. -/
  | quote (book : OrderBook)
  /-- `_settle_fill` of the next fill, with the orders there are. -/
  | settle (ctx : SettleContext) (orders : OrderStore)
  | perpetual (engine : PerpetualPaperEngine) (call : PerpetualCall × String)
  /-- A fresh exchange adopts the ledger. -/
  | restart (orderIdNamespace : String)

def PaperConfig.create (config : PaperConfig) (orderIdNamespace : String) : SimulatedExchange :=
  .create config.initialBalances config.instruments config.feeRate orderIdNamespace

def PaperConfig.start (config : PaperConfig) (orderIdNamespace : String) (books : Books) : PaperState where
  exchange := config.create orderIdNamespace
  books := books

def paperStep (config : PaperConfig) (st : PaperState) : PaperTurn → PaperState
  | .submit raw newIds =>
    let (exchange, _, fills) := st.exchange.submitOrder raw newIds
    { st with exchange, pending := st.pending ++ fills }
  | .quote book => { st with exchange := { st.exchange with books := upsert OrderBook.symbol book st.exchange.books } }
  | .settle ctx orders =>
    match st.pending with
    | [] => st
    | fill :: pending => { st with pending, books := (settleFill config.quarantined ctx orders fill st.books).2 }
  | .perpetual engine call => { st with books := st.books.called engine call }
  | .restart orderIdNamespace =>
    match (config.create orderIdNamespace).hydrateFromLedger st.books.ledger with
    | .error _ => { st with exchange := config.create orderIdNamespace }
    | .ok exchange => { st with exchange }

/-- A sale is of no more than is held, and a settlement settles the fill of its order and
runs through. -/
def PaperTurn.Proper (config : PaperConfig) (st : PaperState) : PaperTurn → Prop
  | .submit raw _ => raw.side = .sell → raw.quantity ≤ st.exchange.held raw.symbol
  | .settle ctx orders => ctx.Fresh ∧ (∀ f, ctx.interruption f = none) ∧ ∀ fill ∈ st.pending.head?, ∃ order,
    Settles config.quarantined orders fill order ∧ order.symbol = fill.symbol ∧ order.side = fill.side
  | _ => True

/-- The exchange names the assets of an order it fills as the ledger does. A restart finds
every fill settled. -/
def PaperTurn.Named (st : PaperState) : PaperTurn → Prop
  | .submit raw _ => raw.Named st.exchange
  | .restart _ => st.pending = []
  | _ => True

/-- The replayed spot scope and the exchange agree on quantities and costs, and on balances
of currencies that no agreeing position covers; a reconciliation does not halt. -/
structure SidesAgree (ledger : Ledger) (exchange : SimulatedExchange) (snap : ProjectionSnapshot) : Prop where
  replay : replayProjections [] ledger futuresExcludedEntryTypes = .ok snap
  quantity : ∀ symbol, snap.held symbol = exchange.held symbol
  cost : ∀ symbol, (snap.position symbol).elim 0 PositionView.costBasis = exchange.costOf symbol
  balance : ∀ currency, ¬ Covered snap exchange currency → snap.balance currency = exchange.balance currency
  reconciled : ∃ report, ReconciliationService.reconcile ledger exchange = .ok report ∧ report.halt = false

/-- Once every fill is settled both sides agree. -/
def Settled (st : PaperState) : Prop :=
  st.pending = [] → ∃ snap, SidesAgree st.books.ledger st.exchange snap

/-- The ledger has the initial balances and no position. -/
def Deposited (config : PaperConfig) (books : Books) (snap : ProjectionSnapshot) : Prop :=
  replayProjections [] books.ledger futuresExcludedEntryTypes = .ok snap ∧ snap.positions = [] ∧
    ∀ currency, snap.balance currency = (config.create "").balance currency

/-! ### Both sides of one account -/

section Sides

variable {snap : ProjectionSnapshot} {ex : SimulatedExchange} {view : SpotView}

lemma Shows.held (h : Shows snap view) (symbol : String) :
    (snap.position symbol).elim 0 PositionView.quantity = (view.held symbol).quantity ∧
      (snap.position symbol).elim 0 PositionView.costBasis = (view.held symbol).cost := by
  unfold SpotView.held
  cases hpos : snap.position symbol with
  | none =>
    rw [h.untraded symbol hpos]
    exact ⟨rfl, rfl⟩
  | some pos =>
    obtain ⟨holding, hholding, hcarries⟩ := h.carries symbol pos hpos
    rw [hholding]
    exact ⟨hcarries.quantity, hcarries.cost⟩

lemma Shows.agree {ledger : Ledger} (hs : Shows snap view) (hm : Mirrors ex view)
    (hreplay : replayProjections [] ledger futuresExcludedEntryTypes = .ok snap) : SidesAgree ledger ex snap := by
  have hquantity (symbol : String) : snap.held symbol = ex.held symbol := (hs.held symbol).1.trans (hm.held symbol).1.symm
  have hbalance : ∀ currency, ¬ Covered snap ex currency → snap.balance currency = ex.balance currency := by
    intro currency hcovered
    rcases hm.balance currency with heq | ⟨symbol, pos, hpos, hcovers⟩
    · exact (hs.balance currency).trans heq.symm
    · obtain ⟨h, hholding, hcarries⟩ := hm.carries symbol pos hpos
      cases hview : snap.position symbol with
      | none =>
        rw [hs.untraded symbol hview] at hholding
        cases hholding
      | some v =>
        obtain ⟨h', hholding', hcarries'⟩ := hs.carries symbol v hview
        obtain rfl : h' = h := Option.some.inj (hholding'.symm.trans hholding)
        obtain ⟨hmem, hsymbol⟩ := row_some hview
        refine absurd ⟨v, hmem, pos, by rw [hsymbol, hpos], hcarries'.quantity.trans hcarries.quantity.symm, ?_⟩ hcovered
        rw [hs.base symbol v hview]
        exact hcovers.symm
  refine ⟨hreplay, hquantity, fun symbol => (hs.held symbol).2.trans (hm.held symbol).2.symm, hbalance,
    reportOf snap ex, ?_, reportOf_halt.mpr ⟨hbalance, fun v hv => ?_⟩⟩
  · unfold ReconciliationService.reconcile
    rw [show futuresEntryTypes = futuresExcludedEntryTypes from rfl, hreplay]
  · have hrow : snap.position v.symbol = some v := row_of_mem (replay_unique hreplay) hv
    rw [← hquantity, ProjectionSnapshot.held, rowWeight, show row PositionView.symbol v.symbol snap.positions = some v from hrow]
    rfl

lemma Shows.hydrate {ledger : Ledger} (hs : Shows snap view) (hl : view.Long)
    (hreplay : replayProjections [] ledger futuresExcludedEntryTypes = .ok snap)
    (hempty : snap.balances = [] → ∀ currency, ex.balance currency = 0) :
    ∃ ex', ex.hydrateFromLedger ledger = .ok ex' ∧ Mirrors ex' view := by
  unfold SimulatedExchange.hydrateFromLedger
  rw [hreplay]
  refine ⟨_, rfl, fun currency => .inl ?_, fun symbol hnone => ?_, fun symbol pos hpos => ?_⟩
  · rw [← hs.balance]
    unfold SimulatedExchange.balance ProjectionSnapshot.balance
    dsimp only
    by_cases hnil : snap.balances = []
    · rw [if_pos hnil, hnil]
      exact hempty hnil currency
    · rw [if_neg hnil]
      cases row Prod.fst currency snap.balances <;> rfl
  · unfold SimulatedExchange.position at hnone
    dsimp only at hnone
    rw [row_filter (replay_unique hreplay), Option.filter_eq_none_iff] at hnone
    unfold SpotView.held
    cases hpos : snap.position symbol with
    | none => rw [hs.untraded symbol hpos]; rfl
    | some v =>
      obtain ⟨h, hholding, hcarries⟩ := hs.carries symbol v hpos
      have hzero : v.quantity = 0 := by simpa using hnone v hpos
      have hlong := hl symbol
      rw [SpotView.held, hholding] at hlong
      rw [hholding]
      have hquantity : h.quantity = 0 := hcarries.quantity.symm.trans hzero
      have hcost : h.cost = 0 := hlong.flat hquantity
      cases h
      simp_all [AverageCost.Holding.empty]
  · unfold SimulatedExchange.position at hpos
    dsimp only at hpos
    rw [row_filter (replay_unique hreplay), Option.filter_eq_some_iff] at hpos
    exact hs.carries symbol pos hpos.1

end Sides

/-! ### Turns -/

/-- The replay shows an account in which the emitted fills can be settled one by one, and
the account of the exchange is what they lead to. -/
structure PaperInv (config : PaperConfig) (st : PaperState) (snap : ProjectionSnapshot) (view : SpotView) : Prop where
  replay : replayProjections [] st.books.ledger futuresExcludedEntryTypes = .ok snap
  shows : Shows snap view
  long : view.Long
  settleable : Along SpotView.settle SpotView.Settleable view st.pending
  mirrors : Mirrors st.exchange (run SpotView.settle view st.pending)
  unbalanced : snap.balances = [] → ∀ orderIdNamespace currency, (config.create orderIdNamespace).balance currency = 0

lemma Recorded.excluded {engine : PerpetualPaperEngine} {ledger : Ledger} {call : PerpetualCall} {t : LedgerTransaction}
    (hrec : Recorded engine ledger call t) : t.entryType ∈ futuresExcludedEntryTypes := by
  have hsubset : [.futuresMarginPost, .futuresTradingFee, .futuresRealizedPnl, .fundingReceipt, .fundingPayment] ⊆
      futuresExcludedEntryTypes := by decide
  exact hsubset hrec.entryType

section Turns

variable {config : PaperConfig} {st : PaperState} {snap : ProjectionSnapshot} {view : SpotView}

lemma PaperInv.submit (h : PaperInv config st snap view) {raw : Order} {newIds : Nat → String × String}
    (hproper : PaperTurn.Proper config st (.submit raw newIds)) (hnamed : PaperTurn.Named st (.submit raw newIds)) :
    PaperInv config (paperStep config st (.submit raw newIds)) snap view := by
  have hnext : Mirrors { st.exchange with nextExchangeOrderId := st.exchange.nextExchangeOrderId + 1 }
    (run SpotView.settle view st.pending) := h.mirrors.congr rfl rfl
  obtain ⟨hmirrors, hsettleable⟩ := hnext.matchOrder (h.long.run h.settleable) (st.exchange.localOrderFor raw)
    hproper hnamed newIds
  refine ⟨h.replay, h.shows, h.long, (along_append _ _ _).mpr ⟨h.settleable, hsettleable⟩, ?_, h.unbalanced⟩
  have hpending : (paperStep config st (.submit raw newIds)).pending = st.pending ++ _ := rfl
  rw [hpending, run_append]
  exact hmirrors.congr rfl rfl

lemma PaperInv.settle (h : PaperInv config st snap view) {ctx : SettleContext} {orders : OrderStore}
    (hproper : PaperTurn.Proper config st (.settle ctx orders)) :
    ∃ snap' view', PaperInv config (paperStep config st (.settle ctx orders)) snap' view' := by
  obtain ⟨hfresh, huncut, hhead⟩ := hproper
  cases hpending : st.pending with
  | nil =>
    refine ⟨snap, view, ?_⟩
    unfold paperStep
    rwa [hpending]
  | cons fill pending =>
    obtain ⟨order, hsettles, hsymbol, hside⟩ := hhead fill (by simp [hpending])
    have hsettleable := h.settleable
    have hmirrors := h.mirrors
    rw [hpending] at hsettleable hmirrors
    obtain ⟨hfill, hrest⟩ := hsettleable
    rcases settleFill_cases config.quarantined hfresh orders fill st.books with ⟨-, hskip⟩ | ⟨order', t, m, hsettles', ht, hrun⟩
    · exact absurd hsettles (hskip order)
    · obtain rfl : order' = order := Option.some.inj (hsettles'.order.symm.trans hsettles.order)
      rw [huncut] at hrun
      obtain ⟨snap', happly, hshows, hbalances⟩ := h.shows.trade h.long hfill ht hsymbol hside
      refine ⟨snap', view.settle fill, ?_, hshows, h.long.settle hfill, ?_, ?_, fun hempty => absurd hempty hbalances⟩
      · unfold paperStep
        rw [hpending]
        dsimp only
        rw [hrun, Books.refresh_ledger, replayProjections_scoped h.replay, List.filter_singleton, ht.settled.1]
        rw [← happly, ← applyTransactions_single]
        rfl
      · unfold paperStep
        rwa [hpending]
      · unfold paperStep
        rwa [hpending]

lemma PaperInv.perpetual (h : PaperInv config st snap view) (engine : PerpetualPaperEngine) (call : PerpetualCall × String) :
    PaperInv config (paperStep config st (.perpetual engine call)) snap view := by
  refine ⟨?_, h.shows, h.long, h.settleable, h.mirrors, h.unbalanced⟩
  unfold paperStep Books.called
  dsimp only
  rcases engine.perform_cases st.books.ledger call with hsame | ⟨t, hrec, happend⟩
  · rw [hsame]
    exact h.replay
  · rw [happend, replayProjections_scoped h.replay, List.filter_singleton, decide_eq_false (not_not_intro hrec.excluded)]
    rfl

lemma PaperInv.restart (h : PaperInv config st snap view) {orderIdNamespace : String} (hsettled : st.pending = []) :
    PaperInv config (paperStep config st (.restart orderIdNamespace)) snap view := by
  obtain ⟨ex, hhydrate, hmirrors⟩ := h.shows.hydrate h.long h.replay (fun hempty => h.unbalanced hempty orderIdNamespace)
  have hstep : paperStep config st (.restart orderIdNamespace) = { st with exchange := ex } := by
    simp only [paperStep, hhydrate]
  rw [hstep]
  refine ⟨h.replay, h.shows, h.long, h.settleable, ?_, h.unbalanced⟩
  dsimp only
  rwa [hsettled]

lemma PaperInv.agree (h : PaperInv config st snap view) : Settled st := by
  intro hpending
  have hmirrors := h.mirrors
  rw [hpending] at hmirrors
  exact ⟨snap, h.shows.agree hmirrors h.replay⟩

lemma PaperInv.step (h : PaperInv config st snap view) {turn : PaperTurn} (hproper : turn.Proper config st)
    (hnamed : turn.Named st) : ∃ snap' view', PaperInv config (paperStep config st turn) snap' view' := by
  cases turn with
  | submit raw newIds => exact ⟨snap, view, h.submit hproper hnamed⟩
  | quote book => exact ⟨snap, view, h.replay, h.shows, h.long, h.settleable, h.mirrors.congr rfl rfl, h.unbalanced⟩
  | settle ctx orders => exact h.settle hproper
  | perpetual engine call => exact ⟨snap, view, h.perpetual engine call⟩
  | restart orderIdNamespace => exact ⟨snap, view, h.restart hnamed⟩

end Turns

/-- An exchange without positions and a deposited ledger show its balances and no holding. -/
lemma Deposited.start {config : PaperConfig} {books : Books} {snap : ProjectionSnapshot} (h : Deposited config books snap)
    (orderIdNamespace : String) : PaperInv config (config.start orderIdNamespace books) snap ⟨snap.balance, fun _ => none⟩ := by
  obtain ⟨hreplay, hpositions, hbalance⟩ := h
  have hnone (symbol : String) : snap.position symbol = none := by
    unfold ProjectionSnapshot.position
    rw [hpositions]
    rfl
  refine ⟨hreplay, ⟨fun _ => rfl, fun _ _ => rfl, fun symbol pos hpos => ?_, fun symbol pos hpos => ?_⟩,
    fun _ => AverageCost.Holding.long_empty, trivial, ⟨fun currency => .inl (hbalance currency).symm, fun _ _ => rfl, fun symbol pos hpos => ?_⟩,
    fun hempty _ currency => ?_⟩
  · simp [hnone] at hpos
  · simp [hnone] at hpos
  · cases hpos
  · have hzero : snap.balance currency = 0 := by
      unfold ProjectionSnapshot.balance
      rw [hempty]
      rfl
    exact (hbalance currency).symm.trans hzero

/-- Over a deposited ledger, whenever every fill is settled both sides agree, if the exchange
names the assets of the orders it fills as the ledger does. -/
theorem paper_agrees_along (config : PaperConfig) (orderIdNamespace : String) (books : Books) (turns : List PaperTurn)
    {snap : ProjectionSnapshot} (hdeposited : Deposited config books snap)
    (hproper : Along (paperStep config) (PaperTurn.Proper config) (config.start orderIdNamespace books) turns)
    (hnamed : Along (paperStep config) PaperTurn.Named (config.start orderIdNamespace books) turns) :
    Visits (paperStep config) Settled (config.start orderIdNamespace books) turns := by
  refine Visits.mono (P := fun st => ∃ snap view, PaperInv config st snap view) ?_ (visits_of_along ?_ ?_
    (along_and.mpr ⟨hproper, hnamed⟩))
  · rintro st ⟨snap, view, h⟩
    exact h.agree
  · rintro st turn ⟨snap, view, h⟩ ⟨hturn, hturn'⟩
    exact h.step hturn hturn'
  · exact ⟨snap, _, hdeposited.start orderIdNamespace⟩

/-! ### A buy, a restart, and another buy -/

/-- A market order that buys one unit, the `n`-th of a run. -/
def unitBuy (symbol : String) (n : Nat) : Order where
  internalOrderId := s!"ord_{n}"
  clientOrderId := s!"sig_{n}"
  symbol := symbol
  side := .buy
  orderType := .market
  quantity := 1

/-- The order is filled by the best level, and the fill is settled. -/
def unitBought (symbol : String) (n : Nat) : List PaperTurn :=
  [.submit (unitBuy symbol n) (fun _ => (s!"fill_{n}", s!"trade_{n}")), .settle (cutContext none) { orders := [unitBuy symbol n] }]

/-- An exchange with one instrument, and a deposit of 1000 in its quote asset. -/
def oneInstrument (symbol baseAsset quoteAsset : String) : PaperConfig where
  initialBalances := [(quoteAsset, 1000)]
  instruments := [{ symbol, baseAsset, quoteAsset }]

def depositedBooks (quoteAsset : String) : Books where
  ledger := (recordDeposits (fun _ => "txn_deposit") [(quoteAsset, 1000)] []).2

/-- What the deposit replays to. -/
def depositedSnapshot (quoteAsset : String) : ProjectionSnapshot where
  balances := [(quoteAsset, 1000)]
  totalDeposits := 1000

lemma deposited_start (symbol : String) {baseAsset quoteAsset : String}
    (hreplay : replayProjections [] (depositedBooks quoteAsset).ledger futuresExcludedEntryTypes = .ok (depositedSnapshot quoteAsset)) :
    Deposited (oneInstrument symbol baseAsset quoteAsset) (depositedBooks quoteAsset) (depositedSnapshot quoteAsset) := by
  refine ⟨hreplay, rfl, fun currency => ?_⟩
  unfold ProjectionSnapshot.balance SimulatedExchange.balance
  rw [show ((oneInstrument symbol baseAsset quoteAsset).create "").balances = (depositedSnapshot quoteAsset).balances from rfl]
  cases row Prod.fst currency (depositedSnapshot quoteAsset).balances <;> rfl

lemma proper_settle {config : PaperConfig} {st : PaperState} {order : Order}
    (h : ∀ fill ∈ st.pending.head?, fill.isPerpetual = false ∧ fill.orderId = order.internalOrderId ∧
      fill.fillId ∉ config.quarantined ∧ order.symbol = fill.symbol ∧ order.side = fill.side) :
    PaperTurn.Proper config st (.settle (cutContext none) { orders := [order] }) := by
  refine ⟨cutContext_fresh none, fun _ => rfl, fun fill hfill => ?_⟩
  obtain ⟨hspot, horder, hquarantined, hsymbol, hside⟩ := h fill hfill
  exact ⟨order, ⟨hspot, by simp [OrderStore.get, row, horder], hquarantined⟩, hsymbol, hside⟩

/-- A buy in BTCUSDT, and a restart. -/
theorem paper_agrees_restarted :
    let config := oneInstrument "BTCUSDT" "BTC" "USDT"
    Visits (paperStep config) Settled (config.start "" (depositedBooks "USDT")) (unitBought "BTCUSDT" 1 ++ [.restart "r2"]) := by
  intro config
  refine paper_agrees_along config "" (depositedBooks "USDT") _ (deposited_start "BTCUSDT" (by decide +kernel)) ?_ ?_
  · refine ⟨nofun, proper_settle ?_, trivial, trivial⟩
    decide +kernel
  · have hsettled : (run (paperStep config) (config.start "" (depositedBooks "USDT")) (unitBought "BTCUSDT" 1)).pending = [] := by
      decide +kernel
    refine ⟨fun _ _ => ⟨?_, ?_, nofun⟩, trivial, hsettled, trivial⟩
    · decide +kernel
    · decide +kernel

lemma not_settled_of_balance {st : PaperState} {replayed : ProjectionSnapshot} {currency name : String}
    (hpending : st.pending = []) (hreplay : replayProjections [] st.books.ledger futuresExcludedEntryTypes = .ok replayed)
    (hlocal : replayed.positions.map PositionView.baseAsset = [name])
    (hexchange : st.exchange.positions.map PositionView.baseAsset = [name]) (hname : currency ≠ name)
    (hbalance : replayed.balance currency ≠ st.exchange.balance currency) : ¬ Settled st := by
  intro hsettled
  obtain ⟨snap, hagree⟩ := hsettled hpending
  obtain rfl : snap = replayed := Except.ok.inj (hagree.replay.symm.trans hreplay)
  apply hbalance
  apply hagree.balance currency
  rintro ⟨view, hview, pos, hpos, -, hcovers⟩
  have hlocal' := List.mem_map_of_mem (f := PositionView.baseAsset) hview
  have hexchange' := List.mem_map_of_mem (f := PositionView.baseAsset) (row_some hpos).1
  rw [hlocal, List.mem_singleton] at hlocal'
  rw [hexchange, List.mem_singleton] at hexchange'
  rcases hcovers with hcovers | hcovers
  · exact hname (hcovers.trans hlocal')
  · exact hname (hcovers.trans hexchange')

/-- A buy in BTCUSDC, a restart, and another buy. -/
def boughtAround : List PaperTurn :=
  unitBought "BTCUSDC" 1 ++ .restart "r2" :: unitBought "BTCUSDC" 2

def boughtAroundStart (baseAsset : String) : PaperState :=
  (oneInstrument "BTCUSDC" baseAsset "USDC").start "" (depositedBooks "USDC")

def boughtAroundEnd (baseAsset : String) : PaperState :=
  run (paperStep (oneInstrument "BTCUSDC" baseAsset "USDC")) (boughtAroundStart baseAsset) boughtAround

section BoughtAround

variable {baseAsset : String} (hbase : baseAsset = "BTC" ∨ baseAsset = "XBT")
include hbase

lemma boughtAround_proper : Along (paperStep (oneInstrument "BTCUSDC" baseAsset "USDC"))
    (PaperTurn.Proper (oneInstrument "BTCUSDC" baseAsset "USDC")) (boughtAroundStart baseAsset) boughtAround := by
  refine ⟨nofun, proper_settle ?_, trivial, nofun, proper_settle ?_, trivial⟩
  · rcases hbase with rfl | rfl <;> decide +kernel
  · rcases hbase with rfl | rfl <;> decide +kernel

lemma boughtAround_replay :
    ∃ replayed, replayProjections [] (boughtAroundEnd baseAsset).books.ledger futuresExcludedEntryTypes = .ok replayed ∧
      replayed.balance baseAsset = 0 ∧ replayed.positions.map PositionView.baseAsset = ["BTCUSDC".replace "USDT" ""] := by
  have hbalance : (replayProjections [] (boughtAroundEnd baseAsset).books.ledger futuresExcludedEntryTypes).map
      (fun replayed => replayed.balance baseAsset) = .ok 0 := by
    rcases hbase with rfl | rfl <;> decide +kernel
  have hnames : (replayProjections [] (boughtAroundEnd baseAsset).books.ledger futuresExcludedEntryTypes).map
      (fun replayed => replayed.positions.map PositionView.baseAsset) = .ok ["BTCUSDC".replace "USDT" ""] := by
    rcases hbase with rfl | rfl
    · with_unfolding_all rfl
    · with_unfolding_all rfl
  generalize replayProjections [] (boughtAroundEnd baseAsset).books.ledger futuresExcludedEntryTypes = result
    at hbalance hnames ⊢
  cases result with
  | error e => cases hbalance
  | ok replayed => exact ⟨replayed, rfl, Except.ok.inj hbalance, Except.ok.inj hnames⟩

lemma boughtAround_position :
    (boughtAroundEnd baseAsset).exchange.positions.map PositionView.baseAsset = ["BTCUSDC".replace "USDT" ""] := by
  rcases hbase with rfl | rfl
  · with_unfolding_all rfl
  · with_unfolding_all rfl

lemma boughtAround_settled : (boughtAroundEnd baseAsset).pending = [] ∧
    (boughtAroundEnd baseAsset).exchange.balance baseAsset = 1 := by
  rcases hbase with rfl | rfl <;> decide +kernel

end BoughtAround

/-- The restart renames the position to what the symbol gives, and the buy after it books a
balance of the instrument's base asset again. -/
theorem restart_renames_base_asset : ∃ baseAsset ∈ ["BTC", "XBT"],
    let config := oneInstrument "BTCUSDC" baseAsset "USDC"
    (∃ snap, Deposited config (depositedBooks "USDC") snap) ∧
      Along (paperStep config) (PaperTurn.Proper config) (boughtAroundStart baseAsset) boughtAround ∧
      ¬ Visits (paperStep config) Settled (boughtAroundStart baseAsset) boughtAround := by
  have hother : ∃ baseAsset ∈ ["BTC", "XBT"], baseAsset ≠ "BTCUSDC".replace "USDT" "" := by
    by_cases hname : "BTCUSDC".replace "USDT" "" = "BTC"
    · exact ⟨"XBT", by simp, by simp [hname]⟩
    · exact ⟨"BTC", by simp, Ne.symm hname⟩
  obtain ⟨baseAsset, hmem, hne⟩ := hother
  have hbase : baseAsset = "BTC" ∨ baseAsset = "XBT" := by simpa using hmem
  refine ⟨baseAsset, hmem, ⟨_, deposited_start "BTCUSDC" (by decide +kernel)⟩, boughtAround_proper hbase, fun hvisits => ?_⟩
  obtain ⟨replayed, hreplay, hzero, hnames⟩ := boughtAround_replay hbase
  obtain ⟨hpending, hone⟩ := boughtAround_settled hbase
  refine not_settled_of_balance hpending hreplay hnames (boughtAround_position hbase) hne ?_ hvisits.last
  rw [hzero, hone]
  exact zero_ne_one

end CryptoTrader
