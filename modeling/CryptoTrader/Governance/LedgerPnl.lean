import CryptoTrader.Governance.DailyReviewCoverage
import CryptoTrader.Runtime.Exposure
import CryptoTrader.Runtime.SettlementJournal
import Mathlib.Tactic.Linarith

/-!
# Trade memory and the ledgers

`_settle_fill` saves a row of trade memory for a spot fill, with its fee and without a result,
and for a perpetual fill it saves none. So a daily review has the fees of the spot fills only,
and agrees with the replays where the rest comes to nothing (`reviewed_eq_ledger_iff`).
-/

namespace CryptoTrader

open KeyedTable Runs

/-- The row that `_settle_fill` saves before it settles. -/
def rememberedFill (quarantined : List String) (s : OrderStore) (fill : Fill) (now : Instant) : List StoredTrade :=
  if fill.isPerpetual then []
  else
    match s.get fill.orderId with
    | none => []
    | some order =>
      if fill.fillId ∈ quarantined then []
      else [{
        decisionId := fill.fillId
        side := order.side.value
        fees := fill.fee
        realizedPnl := some 0
        ts := now
        storedAt := now }]

/-- A call of `_execute_perpetual_order`, with the orders it finds. -/
structure PerpetualTrade where
  setup : PerpetualSetup
  orders : OrderStore
  intent : OrderIntent
  price : ℚ
  positionSide : PositionSide
  ids : PerpetualIds

namespace PerpetualTrade

variable (p : PerpetualTrade)

def execute (books : Books) : Db Books :=
  (executePerpetualOrder p.setup p.intent p.price p.positionSide p.intent.clientOrderId p.ids none ⟨p.orders, books⟩).2

/-- The fill that is settled, if the order has an engine. -/
def fills : List Fill :=
  p.setup.engine.toList.map (fun engine => perpetualFill engine p.intent (perpetualSide p.positionSide p.intent.side) p.price
    p.ids.orderId p.intent.clientOrderId p.ids.fillId p.ids.tradeId)

/-- The call of the paper engine. -/
def call : PerpetualCall :=
  positionCall p.intent (perpetualSide p.positionSide p.intent.side) p.price p.setup.leverage p.ids.orderId

end PerpetualTrade

inductive TradeEvent where
  | settle (call : Settlement)
  | perpetual (p : PerpetualTrade)

structure DatedTrade where
  event : TradeEvent
  now : Instant

/-- The books and the persisted trade memory. -/
structure TradingRecords where
  books : Books
  memory : List StoredTrade := []

namespace TradingRecords

def step (st : TradingRecords) (l : DatedTrade) : TradingRecords :=
  match l.event with
  | .settle call =>
    { books := settleNext [] st.books call
      memory := st.memory ++ rememberedFill [] call.orders call.fill l.now }
  | .perpetual p =>
    let db := p.execute st.books
    { books := db.rest
      memory := st.memory ++ p.fills.flatMap (fun fill => rememberedFill [] db.store fill l.now) }

/-- A settlement is not cut short and sells no more than is held. A perpetual order is new.
All ids are new. -/
def Trades (st : TradingRecords) (l : DatedTrade) : Prop :=
  match l.event with
  | .settle call =>
    call.ctx.Fresh ∧ call.ctx.interruption call.fill = none ∧
      ∀ order, Settles [] call.orders call.fill order → order.side = .sell → call.fill.quantity ≤ st.books.held order.symbol
  | .perpetual p =>
    UniqueKeys p.orders ∧ p.ids.Fresh ⟨p.orders, st.books⟩ ∧ p.orders.getByClient p.intent.clientOrderId = none

end TradingRecords

/-! ### What the replays say -/

/-- The realized profit of the futures replay, less the fees. -/
def FuturesSnapshot.netPnl (snap : FuturesSnapshot) : ℚ := snap.realizedPnl - snap.feesPaid

def spotReplay (ledger : Ledger) : ProjectionSnapshot := (replayProjections [] ledger).toOption.getD {}

/-- The realized profit of both replays, minus the fees. -/
def ledgerPnl (ledger : Ledger) : ℚ :=
  (spotReplay ledger).realizedPnl - (spotReplay ledger).totalFees + (rebuildFuturesProjection ledger).netPnl

/-- Settled spot fills and perpetual orders, from replayed books and an empty trade memory. -/
structure TradingHistory where
  start : Books
  trades : List DatedTrade
  replayed : ∃ snap, Replayed start snap
  trade : Along TradingRecords.step TradingRecords.Trades ⟨start, []⟩ trades

namespace TradingHistory

variable (H : TradingHistory)

/-- The `net_pnl` of a date, from the persisted trade memory. -/
def reviewed (date : ℕ) : ℚ :=
  (DailyReview.run ⟨(run TradingRecords.step ⟨H.start, []⟩ H.trades).memory.map (·.toTradeMemoryRecord), none⟩ date).netPnl

/-- The sum over the trades of a date. -/
def onDate (date : ℕ) (f : TradingRecords → DatedTrade → ℚ) : ℚ :=
  total TradingRecords.step (fun st l => if l.now.date = date then f st l else 0) ⟨H.start, []⟩ H.trades

/-- What the replays attribute to the trades of a date. -/
def attributed (date : ℕ) : ℚ :=
  H.onDate date (fun st l => ledgerPnl (st.step l).books.ledger - ledgerPnl st.books.ledger)

end TradingHistory

/-! ### What the memory lacks -/

/-- What a sale earns over its cost at the average entry price. -/
def saleProfit (orders : OrderStore) (fill : Fill) (books : Books) : ℚ :=
  if fill.isPerpetual then 0
  else
    match orders.get fill.orderId with
    | none => 0
    | some order =>
      match order.side with
      | .buy => 0
      | .sell => (fill.price - averageEntry (books.getPosition order.symbol)) * fill.quantity

/-- What a call of the paper engine earns, less the fee. -/
def PerpetualPaperEngine.earns (engine : PerpetualPaperEngine) (ledger : Ledger) : PerpetualCall → ℚ
  | .openPosition side quantity price _ _ symbol =>
    let contract := engine.contractOf symbol
    if side ≠ .flat ∧ contract.maxLeverage ≠ 0 ∧ contract.symbol ≠ "" then -contract.takerFee |quantity| price else 0
  | .closePosition side quantity exitPrice _ symbol =>
    let contract := engine.contractOf symbol
    match (rebuildFuturesProjection ledger).position contract.symbol with
    | none => 0
    | some pos =>
      let qty := min |quantity| |pos.quantity|
      if pos.side = side then closedPnl contract pos qty exitPrice - max (contract.takerFee qty exitPrice) 0 else 0
  | _ => 0

/-- The part of a trade's result that has no row of trade memory. -/
def unremembered (st : TradingRecords) (l : DatedTrade) : ℚ :=
  match l.event with
  | .settle call => saleProfit call.orders call.fill st.books
  | .perpetual p =>
    match p.setup.engine with
    | none => 0
    | some engine => if p.price ≤ 0 then 0 else engine.earns st.books.ledger p.call

/-! ### Fees of the spot replay -/

/-- What a posting adds to the fees of the spot replay. -/
def LedgerPosting.fee (p : LedgerPosting) : ℚ :=
  if p.account = .feeExpense ∧ p.direction = .debit then p.amount else 0

lemma totalFees_applyEntry (snap : ProjectionSnapshot) (p : LedgerPosting) :
    (applyEntry snap p).totalFees = snap.totalFees + p.fee := by
  unfold applyEntry LedgerPosting.fee ProjectionSnapshot.setBalance
  dsimp only
  by_cases hfee : p.account = .feeExpense ∧ p.direction = .debit
  · rw [if_pos hfee, if_pos hfee]
    split
    · cases p.direction <;> rfl
    · rfl
  · rw [if_neg hfee, if_neg hfee, add_zero]
    split
    · cases p.direction <;> rfl
    · rfl

lemma totalFees_foldl (entries : List LedgerPosting) (snap : ProjectionSnapshot) :
    (entries.foldl applyEntry snap).totalFees = snap.totalFees + (entries.map LedgerPosting.fee).sum := by
  induction entries generalizing snap with
  | nil => simp
  | cons p entries ih => rw [List.foldl_cons, ih, totalFees_applyEntry, List.map_cons, List.sum_cons, add_assoc]

lemma totalFees_transaction {snap snap' : ProjectionSnapshot} {t : LedgerTransaction}
    (h : applyTransaction snap t = .ok snap') :
    snap'.totalFees = snap.totalFees + (t.entries.map LedgerPosting.fee).sum := by
  rw [← totalFees_foldl]
  by_cases htrade : t.entryType = .trade
  · cases hmeta : t.metadata with
    | trade m =>
      rw [applyTransaction_trade htrade hmeta] at h
      obtain ⟨pos, rfl, -⟩ := applyTrade_ok h
      rfl
    | _ => simp [applyTransaction, htrade, hmeta] at h
  · obtain ⟨deposits, withdrawals, hother⟩ := applyTransaction_other htrade snap
    rw [hother] at h
    rw [← Except.ok.inj h]

lemma TradeOf.fees {order : Order} {fill : Fill} {cost : ℚ} {t : LedgerTransaction} {m : TradeMetadata}
    (h : TradeOf order fill cost t m) : (t.entries.map LedgerPosting.fee).sum = fill.fee := by
  rw [h.entries]
  cases order.side with
  | buy => simp [buyPostings, LedgerPosting.fee]
  | sell =>
    have hrealized (quoteCurrency : String) (realized : ℚ) :
        ((realizedPostings quoteCurrency realized).map LedgerPosting.fee).sum = 0 := by
      unfold realizedPostings
      split
      · simp [LedgerPosting.fee]
      · split <;> simp [LedgerPosting.fee]
    simp only [sellPostings, List.map_append, List.sum_append, hrealized]
    simp [LedgerPosting.fee]

lemma Recorded.no_trade {engine : PerpetualPaperEngine} {ledger : Ledger} {call : PerpetualCall} {t : LedgerTransaction}
    (h : Recorded engine ledger call t) : t.entryType ≠ .trade ∧ (t.entries.map LedgerPosting.fee).sum = 0 := by
  have hclose (contract : PerpetualContract) (quantity entryPrice realizedPnl fee marginRelease : ℚ) :
      ((closePostings contract quantity entryPrice realizedPnl fee marginRelease).map LedgerPosting.fee).sum = 0 := by
    have hpnl : ((pnlPostings contract realizedPnl).map LedgerPosting.fee).sum = 0 := by
      unfold pnlPostings
      split
      · simp [LedgerPosting.fee]
      · split <;> simp [LedgerPosting.fee]
    simp only [closePostings, List.map_append, List.sum_append, hpnl]
    split <;> split <;> simp [LedgerPosting.fee]
  refine ⟨h.onlyPosts.2.2, ?_⟩
  cases h with
  | opened => simp [openTransaction, openPostings, LedgerPosting.fee]
  | closed => exact hclose _ _ _ _ _ _
  | funded =>
    unfold fundingTransaction fundingPostings
    dsimp only
    split <;> simp [LedgerPosting.fee]
  | liquidated => exact hclose _ _ _ _ _ _

lemma spotReplay_of_ok {ledger : Ledger} {snap : ProjectionSnapshot} (h : replayProjections [] ledger = .ok snap) :
    spotReplay ledger = snap := by
  rw [spotReplay, h]
  rfl

lemma ledgerPnl_replayed {books : Books} {snap : ProjectionSnapshot} (h : Replayed books snap) :
    ledgerPnl books.ledger = snap.realizedPnl - snap.totalFees + (rebuildFuturesProjection books.ledger).netPnl := by
  rw [ledgerPnl, spotReplay_of_ok h.replay]

/-! ### Settled fills -/

section Settlements

variable {books books' : Books} {snap snap' : ProjectionSnapshot} {orders : OrderStore} {order : Order} {fill : Fill}
  {cost : ℚ} {t : LedgerTransaction} {m : TradeMetadata}

lemma TradeOf.futures (h : TradeOf order fill cost t m) (snap : FuturesSnapshot) :
    (snap.applyTxn t).realizedPnl = snap.realizedPnl ∧ (snap.applyTxn t).feesPaid = snap.feesPaid := by
  have hfees (snap : FuturesSnapshot) : t.entries.foldl FuturesSnapshot.applyFee snap = snap := by
    rw [h.entries]
    cases order.side with
    | buy => simp [buyPostings, FuturesSnapshot.applyFee]
    | sell =>
      have hrealized (quoteCurrency : String) (realized : ℚ) (snap : FuturesSnapshot) :
          (realizedPostings quoteCurrency realized).foldl FuturesSnapshot.applyFee snap = snap := by
        unfold realizedPostings
        split
        · simp [FuturesSnapshot.applyFee]
        · split <;> simp [FuturesSnapshot.applyFee]
      simp only [sellPostings, List.foldl_append, hrealized]
      simp [FuturesSnapshot.applyFee]
  unfold FuturesSnapshot.applyTxn
  rw [hfees, h.metadata, h.settled.1]
  split <;> simp

lemma saleProfit_of_settles (h : Settles [] orders fill order) (books : Books) :
    saleProfit orders fill books = match order.side with
      | .buy => 0
      | .sell => (fill.price - averageEntry (books.getPosition order.symbol)) * fill.quantity := by
  simp [saleProfit, h.spot, h.order]

/-- The replays book the profit of a sale and the fee of the fill. -/
lemma ledgerPnl_trade (h : Replayed books snap) (hsettles : Settles [] orders fill order) (ht : TradeOf order fill cost t m)
    (happly : applyTransaction snap t = .ok snap') (h' : Replayed books' snap') (hledger : books'.ledger = books.ledger ++ [t]) :
    ledgerPnl books'.ledger = ledgerPnl books.ledger + (saleProfit orders fill books - fill.fee) := by
  obtain ⟨hprofit, hfees⟩ := ht.futures (rebuildFuturesProjection books.ledger)
  have htotal : snap'.totalFees = snap.totalFees + fill.fee := by rw [totalFees_transaction happly, ht.fees]
  have hrealized : snap'.realizedPnl = snap.realizedPnl + saleProfit orders fill books := by
    obtain ⟨hpositions, hpnl⟩ := ProjectionSnapshot.foldl_applyEntry_keeps t.entries snap
    rw [applyTransaction_trade ht.settled.1 ht.metadata] at happly
    obtain ⟨pos, rfl, -⟩ := applyTrade_ok happly
    dsimp only
    rw [hpnl, openPosition_congr hpositions, ht.side, ht.quantity, ht.price, (openPosition_getPosition h.positions m).1,
      ht.symbol, saleProfit_of_settles hsettles]
    cases order.side with
    | buy => rfl
    | sell =>
      dsimp only
      rw [← sub_mul]
  rw [ledgerPnl_replayed h', ledgerPnl_replayed h, hledger, rebuildFuturesProjection_append, FuturesSnapshot.netPnl, hprofit,
    hfees, hrealized, htotal, FuturesSnapshot.netPnl]
  ring

lemma rememberedFill_of_settles (h : Settles [] orders fill order) (now : Instant) :
    rememberedFill [] orders fill now = [{
      decisionId := fill.fillId
      side := order.side.value
      fees := fill.fee
      realizedPnl := some 0
      ts := now
      storedAt := now }] := by
  simp [rememberedFill, h.spot, h.order]

/-- A fill that is passed over is not remembered, and earns nothing. -/
lemma remembered_of_unsettled (h : ∀ order, ¬ Settles [] orders fill order) (now : Instant) (books : Books) :
    rememberedFill [] orders fill now = [] ∧ saleProfit orders fill books = 0 := by
  unfold rememberedFill saleProfit
  by_cases hperp : fill.isPerpetual = true
  · rw [if_pos hperp, if_pos hperp]
    exact ⟨rfl, rfl⟩
  · rw [if_neg hperp, if_neg hperp]
    cases horder : orders.get fill.orderId with
    | none => exact ⟨rfl, rfl⟩
    | some order => exact absurd ⟨by simpa using hperp, horder, by simp⟩ (h order)

end Settlements

/-! ### Perpetual orders -/

section Calls

variable {engine : PerpetualPaperEngine} {ledger : Ledger} {minted : String}

lemma netPnl_open (hid : minted ∉ ledger.map LedgerTransaction.transactionId) (side : PositionSide)
    (quantity price leverage : ℚ) (orderId symbol : Option String) :
    let call := PerpetualCall.openPosition side quantity price leverage orderId symbol
    (rebuildFuturesProjection (engine.perform ledger (call, minted))).netPnl =
      (rebuildFuturesProjection ledger).netPnl + engine.earns ledger call := by
  intro call
  simp only [call, PerpetualPaperEngine.perform, engine.openPosition_ledger, PerpetualPaperEngine.earns]
  by_cases hrec : engine.OpenRecords ledger side symbol minted
  · rw [if_pos hrec, rebuildFuturesProjection_append]
    by_cases hs : (engine.contractOf symbol).symbol = ""
    · rw [if_neg (fun h => h.2.2 hs), add_zero, FuturesSnapshot.applyTxn_nameless]
      simp [openTransaction, LedgerMetadata.symbol, hs]
    · rw [if_pos ⟨hrec.1, hrec.2.1, hs⟩, FuturesSnapshot.applyTxn_open _ _ _ _ _ _ _ hs]
      simp only [FuturesSnapshot.netPnl, FuturesSnapshot.applyOpen]
      ring
  · rw [if_neg hrec, if_neg (fun h => hrec ⟨h.1, h.2.1, hid⟩), add_zero]

lemma netPnl_close (hid : minted ∉ ledger.map LedgerTransaction.transactionId) (side : PositionSide)
    (quantity exitPrice : ℚ) (orderId symbol : Option String) :
    let call := PerpetualCall.closePosition side quantity exitPrice orderId symbol
    (rebuildFuturesProjection (engine.perform ledger (call, minted))).netPnl =
      (rebuildFuturesProjection ledger).netPnl + engine.earns ledger call := by
  intro call
  simp only [call, PerpetualPaperEngine.perform, PerpetualPaperEngine.earns]
  by_cases hholds : HoldsSide engine side symbol ledger
  · obtain ⟨pos, hpos, rfl⟩ := hholds
    have hs : (engine.contractOf symbol).symbol ≠ "" := fun hempty => by
      simp [hempty, rebuildFuturesProjection_nameless] at hpos
    rw [engine.closePosition_of_holds ledger hpos, if_neg hid, hpos]
    dsimp only
    rw [rebuildFuturesProjection_append, FuturesSnapshot.applyTxn_close _ _ _ _ _ _ _ _ _ _ hs, if_pos rfl,
      FuturesSnapshot.applyClose_of_some hpos]
    simp only [FuturesSnapshot.netPnl]
    ring
  · rw [engine.closePosition_skips _ _ _ _ hholds]
    cases hpos : (rebuildFuturesProjection ledger).position (engine.contractOf symbol).symbol with
    | none => rw [add_zero]
    | some pos =>
      dsimp only
      rw [if_neg (fun hside => hholds ⟨pos, hpos, hside⟩), add_zero]

lemma netPnl_performed (hid : minted ∉ ledger.map LedgerTransaction.transactionId) (intent : OrderIntent)
    (side : PositionSide) (price leverage : ℚ) (orderId : String) :
    let call := positionCall intent side price leverage orderId
    (rebuildFuturesProjection (engine.perform ledger (call, minted))).netPnl =
      (rebuildFuturesProjection ledger).netPnl + engine.earns ledger call := by
  intro call
  simp only [call, positionCall]
  split
  · exact netPnl_close hid _ _ _ _ _
  · exact netPnl_open hid _ _ _ _ _ _

/-- The spot replay takes no position, no profit and no fee from a call of the paper engine. -/
lemma Replayed.called {books : Books} {snap : ProjectionSnapshot} (h : Replayed books snap) (engine : PerpetualPaperEngine)
    (call : PerpetualCall × String) :
    ∃ snap', Replayed (books.called engine call) snap' ∧ snap'.realizedPnl = snap.realizedPnl ∧
      snap'.totalFees = snap.totalFees := by
  unfold Books.called
  rcases engine.perform_cases books.ledger call with hsame | ⟨t, hrec, happend⟩
  · rw [hsame]
    exact ⟨snap, h, rfl, rfl⟩
  · rw [happend]
    obtain ⟨hother, hfees⟩ := hrec.no_trade
    obtain ⟨snap', happly, hpositions, hpnl⟩ : ∃ snap', applyTransaction snap t = .ok snap' ∧
        snap'.positions = snap.positions ∧ snap'.realizedPnl = snap.realizedPnl := by
      obtain ⟨deposits, withdrawals, happly⟩ := applyTransaction_other hother snap
      exact ⟨_, happly, ProjectionSnapshot.foldl_applyEntry_keeps t.entries snap⟩
    refine ⟨snap', ⟨?_, h.positions.trans hpositions.symm⟩, hpnl, ?_⟩
    · rw [replayProjections_append h.replay, applyTransactions_single, happly]
    · rw [totalFees_transaction happly, hfees, add_zero]

end Calls

section Execution

variable {p : PerpetualTrade} {books : Books} {snap : ProjectionSnapshot}

lemma execute_skips (h : ∀ engine, p.setup.engine = some engine → p.price ≤ 0) : (p.execute books).rest = books := by
  unfold PerpetualTrade.execute executePerpetualOrder
  cases hengine : p.setup.engine with
  | none => rfl
  | some engine =>
    dsimp only
    rw [if_pos (h engine hengine)]

/-- The order keeps the books replayed, and the replays book what the call earns. -/
lemma Replayed.execute (h : Replayed books snap) {engine : PerpetualPaperEngine} (hengine : p.setup.engine = some engine)
    (hprice : 0 < p.price) (hkeys : UniqueKeys p.orders) (hfresh : p.ids.Fresh ⟨p.orders, books⟩)
    (hclient : p.orders.getByClient p.intent.clientOrderId = none) :
    (∃ snap', Replayed (p.execute books).rest snap') ∧
      ledgerPnl (p.execute books).rest.ledger = ledgerPnl books.ledger + engine.earns books.ledger p.call := by
  have hid : p.ids.transactionId ∉ books.ledger.map LedgerTransaction.transactionId := hfresh.transaction
  have hledger : (p.execute books).rest.ledger = (books.called engine (p.call, p.ids.transactionId)).ledger :=
    (executePerpetualOrder_uncut p.intent hengine hprice p.positionSide hkeys hfresh hclient).1
  have hpositions : (p.execute books).rest.positions = books.positions := by
    rcases executePerpetualOrder_called p.setup p.intent p.price p.positionSide p.intent.clientOrderId hfresh.transaction with hsame | ⟨engine, orderId, -, hcalled⟩
    · exact congrArg Books.positions hsame
    · exact (congrArg Books.positions hcalled).trans rfl
  obtain ⟨snap', hcalled, hpnl, hfees⟩ := h.called engine (p.call, p.ids.transactionId)
  have hreplayed : Replayed (p.execute books).rest snap' :=
    ⟨by rw [hledger, hcalled.replay], by rw [hpositions, ← hcalled.positions, Books.called]⟩
  refine ⟨⟨snap', hreplayed⟩, ?_⟩
  have hearns : (rebuildFuturesProjection (books.called engine (p.call, p.ids.transactionId)).ledger).netPnl =
      (rebuildFuturesProjection books.ledger).netPnl + engine.earns books.ledger p.call := netPnl_performed hid _ _ _ _ _
  rw [ledgerPnl_replayed hreplayed, ledgerPnl_replayed h, hledger, hearns, hpnl, hfees, add_assoc]

end Execution

/-! ### One trade -/

section Steps

variable {st : TradingRecords} {l : DatedTrade}

/-- A trade keeps the books replayed. The replays book what the trade adds to the memory, and
what the memory lacks. -/
lemma step_books (h : ∃ snap, Replayed st.books snap) (hc : st.Trades l) :
    (∃ snap, Replayed (st.step l).books snap) ∧
      ∃ rows, (st.step l).memory = st.memory ++ rows ∧ (∀ r ∈ rows, r.ts = l.now) ∧
        ledgerPnl (st.step l).books.ledger - ledgerPnl st.books.ledger = unremembered st l + (rows.map (·.netPnl)).sum := by
  obtain ⟨snap, hreplayed⟩ := h
  unfold TradingRecords.Trades at hc
  unfold TradingRecords.step unremembered
  cases hevent : l.event with
  | settle call =>
    rw [hevent] at hc
    obtain ⟨hfresh, huncut, hroom⟩ := hc
    dsimp only
    rcases hreplayed.settle [] call.orders hfresh huncut with ⟨hsame, hnone⟩ | ⟨order, t, m, hsettles, ht, hreplays⟩
    · obtain ⟨hrows, hprofit⟩ := remembered_of_unsettled hnone l.now st.books
      rw [settleNext, hsame, hrows, hprofit]
      exact ⟨⟨snap, hreplayed⟩, [], rfl, by simp, by simp⟩
    · have hheld : st.books.held order.symbol = snap.held order.symbol := by
        rw [Books.held, ProjectionSnapshot.held, hreplayed.positions]
      obtain ⟨snap', -, happly, -⟩ := ht.replays (fun hsell => hheld ▸ hroom order hsettles hsell)
      obtain ⟨hreplayed', hledger⟩ := hreplays snap' happly
      refine ⟨⟨snap', hreplayed'⟩, _, rfl, ?_, ?_⟩
      · rw [rememberedFill_of_settles hsettles]
        simp
      · rw [rememberedFill_of_settles hsettles, settleNext, ledgerPnl_trade hreplayed hsettles ht happly hreplayed' hledger]
        simp [TradeMemoryRecord.netPnl, TradeMemoryRecord.pnl]
        ring
  | perpetual p =>
    rw [hevent] at hc
    obtain ⟨hkeys, hfresh, hclient⟩ := hc
    dsimp only
    have hrows : p.fills.flatMap (fun fill => rememberedFill [] (p.execute st.books).store fill l.now) = [] := by
      rw [List.flatMap_eq_nil_iff]
      intro fill hfill
      obtain ⟨engine, -, rfl⟩ := List.mem_map.mp hfill
      rfl
    rw [hrows]
    have hskip (h : ∀ engine, p.setup.engine = some engine → p.price ≤ 0) :
        (∃ snap, Replayed (p.execute st.books).rest snap) ∧ ledgerPnl (p.execute st.books).rest.ledger = ledgerPnl st.books.ledger := by
      rw [execute_skips h]
      exact ⟨⟨snap, hreplayed⟩, rfl⟩
    cases hengine : p.setup.engine with
    | none =>
      obtain ⟨hkept, hpnl⟩ := hskip (fun engine h => by simp [hengine] at h)
      exact ⟨hkept, [], rfl, by simp, by simp [hpnl]⟩
    | some engine =>
      dsimp only
      by_cases hprice : p.price ≤ 0
      · obtain ⟨hkept, hpnl⟩ := hskip (fun _ _ => hprice)
        rw [if_pos hprice]
        exact ⟨hkept, [], rfl, by simp, by simp [hpnl]⟩
      · obtain ⟨hkept, hpnl⟩ := hreplayed.execute hengine (not_le.mp hprice) hkeys hfresh hclient
        rw [if_neg hprice]
        exact ⟨hkept, [], rfl, by simp, by simp [hpnl]⟩

end Steps

/-! ### A history -/

/-- The net result of the rows of a date. -/
def dayPnl (date : ℕ) (memory : List StoredTrade) : ℚ :=
  ((DailyReview.rows date (memory.map (·.toTradeMemoryRecord))).map (·.netPnl)).sum

lemma dayPnl_append {date : ℕ} {now : Instant} {memory rows : List StoredTrade} (h : ∀ r ∈ rows, r.ts = now) :
    dayPnl date (memory ++ rows) = dayPnl date memory + if now.date = date then (rows.map (·.netPnl)).sum else 0 := by
  unfold dayPnl DailyReview.rows
  rw [List.map_append, List.filter_append, List.map_append, List.sum_append, add_right_inj]
  by_cases hdate : now.date = date
  · rw [if_pos hdate, List.filter_eq_self.mpr, List.map_map]
    · rfl
    · intro r hr
      obtain ⟨row, hrow, rfl⟩ := List.mem_map.mp hr
      simp [h row hrow, hdate]
  · rw [if_neg hdate, List.filter_eq_nil_iff.mpr]
    · rfl
    · intro r hr
      obtain ⟨row, hrow, rfl⟩ := List.mem_map.mp hr
      simp [h row hrow, hdate]

namespace TradingHistory

variable (H : TradingHistory) (date : ℕ)

lemma onDate_sub (f g : TradingRecords → DatedTrade → ℚ) :
    H.onDate date (fun st l => f st l - g st l) = H.onDate date f - H.onDate date g := by
  unfold onDate
  rw [← total_sub]
  congr 1
  funext st l
  split
  · rfl
  · rw [sub_zero]

/-- A review of a date has what the replays attribute to it, but for what the memory lacks. -/
lemma reviewed_eq : H.reviewed date = H.attributed date - H.onDate date unremembered := by
  have hrun : dayPnl date (run TradingRecords.step ⟨H.start, []⟩ H.trades).memory = dayPnl date [] +
      H.onDate date (fun st l => ledgerPnl (st.step l).books.ledger - ledgerPnl st.books.ledger - unremembered st l) := by
    apply run_total (I := fun st => ∃ snap, Replayed st.books snap) (C := TradingRecords.Trades)
      (fun st => dayPnl date st.memory) (fun st l h hc => (step_books h hc).1) _ H.replayed H.trade
    intro st l h hc
    obtain ⟨-, rows, hmemory, hts, hbooked⟩ := step_books h hc
    dsimp only
    rw [hmemory, dayPnl_append hts, hbooked, add_sub_cancel_left]
  rw [onDate_sub] at hrun
  exact (DailyReview.run_dailyPnl _ date).trans (hrun.trans (zero_add _))

end TradingHistory

/-- The review of a date reports the result of the replays exactly if what the memory lacks of
the trades of the date, the profits of the sales and the results of the perpetual orders, adds
up to nothing. -/
theorem reviewed_eq_ledger_iff (H : TradingHistory) (date : ℕ) :
    H.reviewed date = H.attributed date ↔ H.onDate date unremembered = 0 := by
  rw [H.reviewed_eq, sub_eq_self]

/-- A unit bought at 100 and sold at 110, on one day. -/
def boughtAndSold : TradingHistory where
  start := {}
  trades :=
    [⟨.settle (settlementOf .buy "f1" 1 100), ⟨400 * dayUs, by decide⟩⟩,
      ⟨.settle (settlementOf .sell "f2" 1 110), ⟨400 * dayUs + 1, by decide⟩⟩]
  replayed := ⟨{}, rfl, rfl⟩
  trade := by
    refine ⟨⟨cutContext_fresh _, rfl, ?_⟩, ⟨cutContext_fresh _, rfl, ?_⟩, trivial⟩
    · rintro order hsettles hsell
      obtain rfl := Option.some.inj hsettles.order
      simp at hsell
    · rintro order hsettles -
      obtain rfl := Option.some.inj hsettles.order
      decide +kernel

/-- The profit of the sale is in the ledger only. -/
theorem review_misses_profit :
    boughtAndSold.reviewed 400 = 0 ∧ boughtAndSold.attributed 400 = 10 ∧ boughtAndSold.reviewed 400 ≠ boughtAndSold.attributed 400 := by
  have hreviewed : boughtAndSold.reviewed 400 = 0 := by decide +kernel
  have hattributed : boughtAndSold.attributed 400 = 10 := by decide +kernel
  exact ⟨hreviewed, hattributed, by rw [hreviewed, hattributed]; decide⟩

end CryptoTrader
