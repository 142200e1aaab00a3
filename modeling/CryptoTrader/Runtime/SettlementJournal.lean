import CryptoTrader.Ledger.SpotAccounts
import CryptoTrader.Runtime.Settlement

/-!
# The settled journal and the projections

A settlement posts to POSITION_ASSET:symbol and REALIZED_PNL with the cost it releases at
the persisted average entry price; the replay releases at the average entry price it works
out from the metadata. The two agree as long as no sale falls back to the fill's price and
no clamp of the cost basis fires.
-/

namespace CryptoTrader

open KeyedTable Runs

def ProjectionSnapshot.costOf (snap : ProjectionSnapshot) (symbol : String) : ℚ :=
  rowWeight PositionView.symbol PositionView.costBasis symbol snap.positions

/-- The sub-ledgers of a journal are the cost bases and the profit of its replay. -/
structure SubLedgersAgree (ledger : Ledger) (snap : ProjectionSnapshot) : Prop where
  cost : ∀ symbol, accountDebit (.positionAsset symbol) ledger = snap.costOf symbol
  realizedPnl : -accountDebit .realizedPnl ledger = snap.realizedPnl

/-! ### The postings of a trade -/

lemma netDebit_realizedPostings (account : LedgerAccount) (quoteCurrency : String) (realized : ℚ) :
    netDebit (fun p => p.account = account) (realizedPostings quoteCurrency realized) =
      if account = .realizedPnl then -realized else 0 := by
  unfold realizedPostings
  by_cases hacc : account = .realizedPnl
  · rw [if_pos hacc, hacc]
    by_cases hpos : 0 < realized
    · rw [if_pos hpos]
      simp [LedgerPosting.signed]
    · rw [if_neg hpos]
      by_cases hneg : realized < 0
      · rw [if_pos hneg]
        simp [LedgerPosting.signed]
      · have hzero : realized = 0 := le_antisymm (not_lt.mp hpos) (not_lt.mp hneg)
        simp [hzero]
  · have hne : ¬ LedgerAccount.realizedPnl = account := fun h => hacc h.symm
    rw [if_neg hacc]
    split
    · simp [hne]
    · split
      · simp [hne]
      · rfl

section Trades

variable {order : Order} {fill : Fill} {cost : ℚ} {t : LedgerTransaction} {m : TradeMetadata}

lemma TradeOf.positionAsset (h : TradeOf order fill cost t m) (symbol : String) :
    netDebit (fun p => p.account = .positionAsset symbol) t.entries =
      if symbol = order.symbol then (match order.side with
        | .buy => fill.price * fill.quantity
        | .sell => -cost) else 0 := by
  rw [h.entries]
  by_cases hs : symbol = order.symbol
  · rw [if_pos hs, hs]
    cases order.side with
    | buy => simp [buyPostings, LedgerPosting.signed]
    | sell => simp [sellPostings, LedgerPosting.signed, netDebit_realizedPostings]
  · have hne : ¬ order.symbol = symbol := fun he => hs he.symm
    rw [if_neg hs]
    cases order.side with
    | buy => simp [buyPostings, hne]
    | sell => simp [sellPostings, hne, netDebit_realizedPostings]

lemma TradeOf.realized (h : TradeOf order fill cost t m) :
    netDebit (fun p => p.account = .realizedPnl) t.entries = match order.side with
      | .buy => 0
      | .sell => cost - fill.price * fill.quantity := by
  rw [h.entries]
  cases order.side with
  | buy => simp [buyPostings]
  | sell => simp [sellPostings, netDebit_realizedPostings]

/-- A sale that takes `release` off a cost basis leaves the rest of it exactly if the clamp
and the flat position leave nothing else. -/
lemma soldPosition_cost (pos : PositionView) (quantity gross : ℚ) :
    (soldPosition pos quantity gross).costBasis = pos.costBasis - pos.avgEntryPrice.getD 0 * quantity ↔
      if quantity = pos.quantity then pos.avgEntryPrice.getD 0 * quantity = pos.costBasis
      else pos.avgEntryPrice.getD 0 * quantity ≤ pos.costBasis := by
  unfold soldPosition
  dsimp only
  generalize pos.avgEntryPrice.getD 0 * quantity = release
  by_cases hflat : quantity = pos.quantity
  · have hleft : pos.quantity - quantity = 0 := by rw [hflat, sub_self]
    rw [if_pos hleft, if_pos hflat, eq_comm, sub_eq_zero, eq_comm]
  · have hleft : pos.quantity - quantity ≠ 0 := fun h => hflat (sub_eq_zero.mp h).symm
    rw [if_neg hleft, if_neg hflat, max_eq_left_iff, sub_nonneg]

/-- A settled trade keeps the sub-ledgers in agreement exactly if it is a buy, or it
releases the cost that the replay takes off the position. -/
lemma SubLedgersAgree.trade {ledger : Ledger} {snap snap' : ProjectionSnapshot} (h : SubLedgersAgree ledger snap)
    (ht : TradeOf order fill cost t m) (hok : applyTransaction snap t = .ok snap') :
    SubLedgersAgree (ledger ++ [t]) snap' ↔ (order.side = .sell →
      cost = (openPosition snap m).avgEntryPrice.getD 0 * fill.quantity ∧
      if fill.quantity = (openPosition snap m).quantity then
        (openPosition snap m).avgEntryPrice.getD 0 * fill.quantity = (openPosition snap m).costBasis
      else (openPosition snap m).avgEntryPrice.getD 0 * fill.quantity ≤ (openPosition snap m).costBasis) := by
  obtain ⟨hpositions, hpnl⟩ := ProjectionSnapshot.foldl_applyEntry_keeps t.entries snap
  rw [applyTransaction_trade ht.settled.1 ht.metadata] at hok
  obtain ⟨pos', rfl, hsym, hpos⟩ := applyTrade_ok hok
  rw [openPosition_congr hpositions] at hpos
  have hsymbol : pos'.symbol = order.symbol := hsym.trans ht.symbol
  have hbasis : snap.costOf order.symbol = (openPosition snap m).costBasis := by
    rw [← ht.symbol]
    exact rowWeight_openPosition snap m
  have hcost : (∀ symbol, accountDebit (.positionAsset symbol) (ledger ++ [t]) = rowWeight PositionView.symbol
      PositionView.costBasis symbol (upsert PositionView.symbol pos' (t.entries.foldl applyEntry snap).positions)) ↔
      pos'.costBasis = (openPosition snap m).costBasis + match order.side with
        | .buy => fill.price * fill.quantity
        | .sell => -cost := by
    rw [hpositions]
    constructor
    · intro hall
      have hown := hall order.symbol
      rw [accountDebit_append, accountDebit_single, ht.positionAsset, if_pos rfl, h.cost, hbasis,
        rowWeight_upsert, if_pos hsymbol.symm] at hown
      exact hown.symm
    · intro hown symbol
      rw [accountDebit_append, accountDebit_single, ht.positionAsset, h.cost, rowWeight_upsert, hsymbol]
      by_cases hs : symbol = order.symbol
      · rw [if_pos hs, if_pos hs, hs, hbasis, hown]
      · rw [if_neg hs, if_neg hs, add_zero]
        rfl
  have hrealized := h.realizedPnl
  have hposted : -accountDebit .realizedPnl (ledger ++ [t]) = snap.realizedPnl - match order.side with
      | .buy => 0
      | .sell => cost - fill.price * fill.quantity := by
    rw [accountDebit_append, accountDebit_single, ht.realized]
    linarith
  rw [ht.side, ht.quantity, ht.price] at hpos
  cases hside : order.side with
  | buy =>
    simp only [hside] at hcost hposted hpos
    refine iff_of_true ⟨hcost.mpr (by rw [hpos]; rfl), ?_⟩ (by simp)
    rw [hposted, ht.side, hside]
    simp [hpnl]
  | sell =>
    simp only [hside] at hcost hposted hpos
    rw [← soldPosition_cost _ _ (fill.price * fill.quantity)]
    constructor
    · intro hagree _
      have hpnl' := hagree.realizedPnl
      rw [hposted, ht.side, hside] at hpnl'
      simp only [hpnl, openPosition_congr hpositions, ht.quantity, ht.price] at hpnl'
      have hrelease : cost = (openPosition snap m).avgEntryPrice.getD 0 * fill.quantity := by linarith
      refine ⟨hrelease, ?_⟩
      rw [← hpos.1, hcost.mp hagree.cost, hrelease, sub_eq_add_neg]
    · intro hif
      obtain ⟨hrelease, hleft⟩ := hif rfl
      refine ⟨hcost.mpr ?_, ?_⟩
      · rw [hpos.1, hleft, hrelease, sub_eq_add_neg]
      · rw [hposted, ht.side, hside, hrelease]
        simp only [hpnl, openPosition_congr hpositions, ht.quantity, ht.price]
        ring

end Trades

/-! ### Runs of settlements -/

/-- One call of `_settle_fill`, with the orders it looks into. -/
structure Settlement where
  ctx : SettleContext
  orders : OrderStore
  fill : Fill

def settleNext (quarantined : List String) (books : Books) (call : Settlement) : Books :=
  (settleFill quarantined call.ctx call.orders call.fill books).2

/-- The settlement runs to completion, and its ids are new. -/
def Completes (quarantined : List String) (books : Books) (call : Settlement) : Prop :=
  call.ctx.Fresh ∧ (settleFill quarantined call.ctx call.orders call.fill books).1 = .ok ()

/-- The price at which a settlement releases cost. -/
def releasePrice (fill : Fill) (position : Option PositionView) : ℚ :=
  match position with
  | some p => orDecimal p.avgEntryPrice fill.price
  | none => fill.price

/-- The average entry price of a position, zero where there is none. -/
def averageEntry (position : Option PositionView) : ℚ :=
  (position.bind PositionView.avgEntryPrice).getD 0

/-- If the call settles a sale, it releases at the average entry price of the position, and
not more cost than there is; all of it, if it sells the position out. -/
def ReleasesCost (quarantined : List String) (books : Books) (call : Settlement) : Prop :=
  ∀ order, Settles quarantined call.orders call.fill order → order.side = .sell →
    let held := books.getPosition order.symbol
    let quantity := call.fill.quantity
    (quantity = 0 ∨ releasePrice call.fill (books.getPosition call.fill.symbol) = averageEntry held) ∧
      if quantity = held.elim 0 PositionView.quantity then averageEntry held * quantity = held.elim 0 PositionView.costBasis
      else averageEntry held * quantity ≤ held.elim 0 PositionView.costBasis

/-- No trade is in the ledger, and nothing is posted to the accounts of positions and profit. -/
structure Untraded (books : Books) : Prop where
  trades : ∀ t ∈ books.ledger, t.entryType ≠ .trade
  postings : ∀ t ∈ books.ledger, ∀ p ∈ t.entries, p.account ≠ .realizedPnl ∧ ∀ symbol, p.account ≠ .positionAsset symbol
  positions : books.positions = []

/-- The sub-ledgers agree with the replay of the ledger. -/
def JournalAgrees (books : Books) : Prop :=
  ∃ snap, replayProjections [] books.ledger = .ok snap ∧ SubLedgersAgree books.ledger snap

/-- They do, and the persisted positions are those of the replay. -/
def JournalPersisted (books : Books) : Prop :=
  ∃ snap, replayProjections [] books.ledger = .ok snap ∧ SubLedgersAgree books.ledger snap ∧
    books.positions = snap.positions

lemma releasedCost_sell {order : Order} (h : order.side = .sell) (fill : Fill) (books : Books) :
    releasedCost order fill books = releasePrice fill (books.getPosition fill.symbol) * fill.quantity := by
  unfold releasedCost costReleased releasePrice
  rw [h]
  cases books.getPosition fill.symbol <;> rfl

lemma openPosition_getPosition {books : Books} {snap : ProjectionSnapshot} (h : books.positions = snap.positions)
    (m : TradeMetadata) :
    (openPosition snap m).avgEntryPrice.getD 0 = averageEntry (books.getPosition m.symbol) ∧
      (openPosition snap m).quantity = (books.getPosition m.symbol).elim 0 PositionView.quantity ∧
      (openPosition snap m).costBasis = (books.getPosition m.symbol).elim 0 PositionView.costBasis := by
  have hrow : snap.position m.symbol = books.getPosition m.symbol := by
    unfold ProjectionSnapshot.position Books.getPosition
    rw [h]
  unfold openPosition averageEntry
  rw [hrow]
  cases books.getPosition m.symbol <;> exact ⟨rfl, rfl, rfl⟩

lemma refresh_ok {initialBalances : Balances} {books : Books} (h : (books.refresh initialBalances).1 = .ok ()) :
    ∃ snap, replayProjections initialBalances books.ledger = .ok snap ∧ (books.refresh initialBalances).2 =
      { books with
        accounts := snap.balances.map (fun b => ⟨b.1, b.2, snap.equity⟩)
        positions := snap.positions } := by
  unfold Books.refresh at h ⊢
  cases hr : replayProjections initialBalances books.ledger with
  | error e => simp [hr] at h
  | ok snap => exact ⟨snap, rfl, rfl⟩

section Steps

variable {quarantined : List String} {books : Books} {call : Settlement}

/-- A settlement that completes persists the positions of the replay; the sub-ledgers stay
in agreement exactly if it releases the cost. -/
lemma JournalPersisted.settle (h : JournalPersisted books) (hw : Completes quarantined books call) :
    ∃ snap, replayProjections [] (settleNext quarantined books call).ledger = .ok snap ∧
      (settleNext quarantined books call).positions = snap.positions ∧
      (SubLedgersAgree (settleNext quarantined books call).ledger snap ↔ ReleasesCost quarantined books call) := by
  obtain ⟨snap, hreplay, hagree, hpositions⟩ := h
  unfold settleNext
  rcases settleFill_ok hw.1 hw.2 with ⟨hsame, hnone⟩ | ⟨order, t, m, hsettles, ht, hrun⟩
  · rw [hsame]
    exact ⟨snap, hreplay, hpositions, iff_of_true hagree (fun order hs => absurd hs (hnone order))⟩
  · have hok := hw.2
    rw [hrun] at hok ⊢
    obtain ⟨snap', hreplay', hbooks⟩ := refresh_ok hok
    rw [hbooks]
    rcases replayProjections_shifted call.ctx.initialBalances (books.ledger ++ [t]) with
      ⟨e, -, he⟩ | ⟨alone, from', halone, hfrom, hshift⟩
    · rw [he] at hreplay'
      exact absurd hreplay' (by simp)
    · have hsame : from' = snap' := Except.ok.inj (hfrom.symm.trans hreplay')
      refine ⟨alone, halone, by rw [← hsame, hshift.positions], ?_⟩
      have happly : applyTransaction snap t = .ok alone := by
        rwa [replayProjections_append hreplay, applyTransactions_single] at halone
      obtain ⟨havg, hquantity, hbasis⟩ := openPosition_getPosition hpositions m
      rw [hagree.trade ht happly, havg, hquantity, hbasis, ht.symbol]
      constructor
      · intro hif order' hs hsell
        obtain rfl : order' = order := Option.some.inj (hs.order.symm.trans hsettles.order)
        obtain ⟨hcost, hleft⟩ := hif hsell
        rw [releasedCost_sell hsell] at hcost
        refine ⟨?_, hleft⟩
        rcases mul_eq_mul_right_iff.mp hcost with hprice | hzero
        · exact .inr hprice
        · exact .inl hzero
      · intro hrel hsell
        obtain ⟨hprice, hleft⟩ := hrel order hsettles hsell
        refine ⟨?_, hleft⟩
        rw [releasedCost_sell hsell]
        rcases hprice with hzero | hprice
        · rw [hzero, mul_zero, mul_zero]
        · rw [hprice]

end Steps

lemma Untraded.persisted {books : Books} (h : Untraded books) : JournalPersisted books := by
  have hstart : replayProjections [] books.ledger = applyTransactions {} books.ledger := by
    simp [replayProjections]
  obtain ⟨snap, hsnap, hpos, hpnl⟩ := applyTransactions_untraded h.trades {}
  refine ⟨snap, hstart.trans hsnap, ⟨fun symbol => ?_, ?_⟩, by rw [h.positions, hpos]⟩
  · rw [accountDebit_of_unposted (fun t ht p hp => (h.postings t ht p hp).2 symbol), ProjectionSnapshot.costOf, hpos]
    rfl
  · rw [accountDebit_of_unposted (fun t ht p hp => (h.postings t ht p hp).1), hpnl, neg_zero]

/-- From a ledger without trades, after every settlement of a sequence of completed
settlements the sub-ledgers of the journal agree with the replay exactly if every sale
releases at the average entry price, and no clamp of the cost basis fires. -/
theorem subledgers_agree_iff (quarantined : List String) {books : Books} (h : Untraded books)
    {calls : List Settlement} (hw : Along (settleNext quarantined) (Completes quarantined) books calls) :
    Visits (settleNext quarantined) JournalAgrees books calls ↔
      Along (settleNext quarantined) (ReleasesCost quarantined) books calls := by
  apply visits_iff_along (I := JournalPersisted) _ _ _ h.persisted hw
  · rintro books ⟨snap, hreplay, hagree, -⟩
    exact ⟨snap, hreplay, hagree⟩
  · intro books call hp hc hrel
    obtain ⟨snap, hreplay, hpositions, hiff⟩ := hp.settle hc
    exact ⟨snap, hreplay, hiff.mpr hrel, hpositions⟩
  · rintro books call hp hc ⟨snap', hreplay', hagree⟩
    obtain ⟨snap, hreplay, -, hiff⟩ := hp.settle hc
    obtain rfl : snap = snap' := Except.ok.inj (hreplay.symm.trans hreplay')
    exact hiff.mp hagree

/-- The settlement of a sale or a buy of one symbol, with nothing to cut it short. -/
def settlementOf (side : OrderSide) (fillId : String) (quantity price : ℚ) : Settlement where
  ctx := cutContext none
  orders := { orders := [
    { internalOrderId := "o1", clientOrderId := "c1", symbol := "BTCUSDT", side, quantity }] }
  fill := { fillId, orderId := "o1", symbol := "BTCUSDT", side, price, quantity }

/-- Two units bought at 100, one sold at 110. -/
theorem subledgers_agree_sold :
    Visits (settleNext []) JournalAgrees {} [settlementOf .buy "f1" 2 100, settlementOf .sell "f2" 1 110] := by
  have hcompletes : Along (settleNext []) (Completes []) {} [settlementOf .buy "f1" 2 100, settlementOf .sell "f2" 1 110] :=
    ⟨⟨cutContext_fresh _, by decide +kernel⟩, ⟨cutContext_fresh _, by decide +kernel⟩, trivial⟩
  refine (subledgers_agree_iff [] ⟨by simp, by simp, rfl⟩ hcompletes).mpr ⟨?_, ?_, trivial⟩
  · intro order hs hsell
    obtain rfl := Option.some.inj hs.order
    cases hsell
  · intro order hs _
    obtain rfl := Option.some.inj hs.order
    decide +kernel

/-- A unit bought at 0 and sold at 10: the average entry price 0 is falsy, so the sale
releases a cost of 10 from a position that cost nothing. -/
theorem subledgers_bought_at_zero :
    let calls := [settlementOf .buy "f1" 1 0, settlementOf .sell "f2" 1 10]
    Along (settleNext []) (Completes []) {} calls ∧ ¬ Visits (settleNext []) JournalAgrees {} calls := by
  refine ⟨⟨⟨cutContext_fresh _, by decide +kernel⟩, ⟨cutContext_fresh _, by decide +kernel⟩, trivial⟩, fun h => ?_⟩
  obtain ⟨snap, hsnap, hagree⟩ := h.last
  generalize hrun : run (settleNext []) {} _ = books at hsnap hagree
  have hdebit : accountDebit (.positionAsset "BTCUSDT") books.ledger = -10 := by
    rw [← hrun]
    decide +kernel
  have hcost : (replayProjections [] books.ledger).map (fun s => s.costOf "BTCUSDT") = .ok 0 := by
    rw [← hrun]
    decide +kernel
  rw [hsnap, Except.map, Except.ok.injEq] at hcost
  have hown := hagree.cost "BTCUSDT"
  rw [hdebit, hcost] at hown
  norm_num at hown

end CryptoTrader
