import CryptoTrader.Ledger.Accounts
import CryptoTrader.Lib.Runs
import Mathlib.Tactic.FieldSimp

/-!
# The accounting identity of the spot replay

Positions carry their quantity at average cost, and equity is the initial balances plus
the net flow of all transactions that are not trades, plus realized profit, less the fees of
the trades. A sale keeps the identity unless the clamp of the cost basis fires, which is so
for the sale of a part of a position whose average entry price is negative.
-/

namespace CryptoTrader

open KeyedTable Weights Runs

/-- The quantity is not negative and the cost is the quantity at the average entry price. -/
structure PositionView.Sound (pos : PositionView) : Prop where
  nonneg : 0 ≤ pos.quantity
  cost : pos.costBasis = pos.avgEntryPrice.getD 0 * pos.quantity

/-- Postings and metadata of a trade journal with a quantity that is not negative. -/
def TradeJournal (t : LedgerTransaction) : Prop :=
  ∃ side symbol quoteCurrency price quantity fee costReleased postings metadata baseAsset, 0 ≤ quantity ∧
    buildTradeEntries side symbol quoteCurrency price quantity fee costReleased = .ok (postings, metadata) ∧
    t.entries = postings ∧ t.metadata = .trade { metadata with baseAsset }

/-- A trade is a generated trade journal, any other transaction a balanced journal. -/
def Journaled (t : LedgerTransaction) : Prop :=
  if t.entryType = .trade then TradeJournal t else JournalBalanced t.entries

/-- The fee of a trade. -/
def LedgerTransaction.tradeFee (t : LedgerTransaction) : ℚ :=
  match t.entryType, t.metadata with
  | .trade, .trade m => m.fee
  | _, _ => 0

/-- The net flow into the balances of a transaction that is not a trade. -/
def LedgerTransaction.otherFlow (t : LedgerTransaction) : ℚ :=
  if t.entryType = .trade then 0 else balanceFlow t.entries

/-- The identity, for the snapshot a ledger replays to. -/
structure SpotAccounts (initialBalances : Balances) (ledger : Ledger) (snap : ProjectionSnapshot) : Prop where
  positions : ∀ pos ∈ snap.positions, pos.Sound
  equity : snap.equity = weight Prod.snd initialBalances + weight LedgerTransaction.otherFlow ledger + snap.realizedPnl -
    weight LedgerTransaction.tradeFee ledger

/-- The trade sells a part of a position whose average entry price is negative. -/
def SellsBelowZero (snap : ProjectionSnapshot) (t : LedgerTransaction) : Prop :=
  ∃ m, t.entryType = .trade ∧ t.metadata = .trade m ∧ m.side = .sell ∧
    (openPosition snap m).avgEntryPrice.getD 0 < 0 ∧ m.quantity < (openPosition snap m).quantity

/-! ### Positions -/

section Positions

variable {pos : PositionView} {quantity : ℚ}

lemma boughtPosition_sound (h : pos.Sound) (hq : 0 ≤ quantity) (price : ℚ) :
    (boughtPosition pos quantity (price * quantity)).Sound := by
  have hnonneg : 0 ≤ pos.quantity + quantity := add_nonneg h.nonneg hq
  refine ⟨hnonneg, ?_⟩
  unfold boughtPosition
  dsimp only
  by_cases hpos : 0 < pos.quantity + quantity
  · rw [if_pos hpos, Option.getD_some, div_mul_cancel₀ _ hpos.ne']
  · have hzero : pos.quantity + quantity = 0 := le_antisymm (not_lt.mp hpos) hnonneg
    have hold : pos.quantity = 0 := le_antisymm (by linarith [h.nonneg]) h.nonneg
    have hnew : quantity = 0 := by linarith
    rw [h.cost, hold, hnew]
    simp

lemma soldPosition_sound (hle : quantity ≤ pos.quantity) (gross : ℚ) : (soldPosition pos quantity gross).Sound := by
  refine ⟨sub_nonneg.mpr hle, ?_⟩
  unfold soldPosition
  dsimp only
  by_cases hzero : pos.quantity - quantity = 0
  · rw [if_pos hzero, if_pos hzero, hzero, mul_zero]
  · have hpos : 0 < pos.quantity - quantity := lt_of_le_of_ne (sub_nonneg.mpr hle) (Ne.symm hzero)
    rw [if_neg hzero, if_neg hzero, if_pos hpos, Option.getD_some, div_mul_cancel₀ _ hpos.ne']

/-- A sale takes the released cost off the cost basis exactly if it does not sell a part of
a position below zero. -/
lemma soldPosition_cost_iff (h : pos.Sound) (hle : quantity ≤ pos.quantity) (gross : ℚ) :
    (soldPosition pos quantity gross).costBasis = pos.costBasis - pos.avgEntryPrice.getD 0 * quantity ↔
      ¬ (pos.avgEntryPrice.getD 0 < 0 ∧ quantity < pos.quantity) := by
  unfold soldPosition
  dsimp only
  rw [h.cost]
  generalize pos.avgEntryPrice.getD 0 = avg
  have hleft : avg * pos.quantity - avg * quantity = avg * (pos.quantity - quantity) := by ring
  rw [hleft]
  by_cases hzero : pos.quantity - quantity = 0
  · rw [if_pos hzero, hzero, mul_zero]
    exact iff_of_true rfl (fun hc => hc.2.ne (sub_eq_zero.mp hzero).symm)
  · have hpos : 0 < pos.quantity - quantity := lt_of_le_of_ne (sub_nonneg.mpr hle) (Ne.symm hzero)
    rw [if_neg hzero]
    constructor
    · intro hmax hc
      exact absurd (max_eq_left_iff.mp hmax) (not_le.mpr (mul_neg_of_neg_of_pos hc.1 hpos))
    · intro hnot
      have havg : 0 ≤ avg := by
        by_contra hneg
        exact hnot ⟨not_le.mp hneg, sub_pos.mp hpos⟩
      exact max_eq_left (mul_nonneg havg hpos.le)

end Positions

/-! ### Trades -/

lemma balanceFlow_buy (symbol quoteCurrency : String) (gross fee : ℚ) :
    balanceFlow (buyPostings symbol quoteCurrency gross fee) = -(gross + fee) := by
  simp only [balanceFlow, buyPostings, netDebit_cons, netDebit_nil]
  simp [LedgerAccount.movesBalance, LedgerPosting.signed]

lemma balanceFlow_sell (symbol quoteCurrency : String) (gross fee costReleased : ℚ) :
    balanceFlow (sellPostings symbol quoteCurrency gross fee costReleased) = gross - fee := by
  have hrealized : balanceFlow (realizedPostings quoteCurrency (gross - costReleased)) = 0 := by
    unfold realizedPostings balanceFlow
    split
    · simp only [netDebit_cons, netDebit_nil]
      simp [LedgerAccount.movesBalance]
    · split
      · simp only [netDebit_cons, netDebit_nil]
        simp [LedgerAccount.movesBalance]
      · rfl
  unfold balanceFlow at *
  rw [sellPostings, netDebit_append, netDebit_append, hrealized]
  simp only [netDebit_cons, netDebit_nil]
  simp [LedgerAccount.movesBalance, LedgerPosting.signed]
  ring

lemma TradeJournal.metadata {t : LedgerTransaction} (h : TradeJournal t) :
    ∃ m, t.metadata = .trade m ∧ 0 ≤ m.quantity ∧ balanceFlow t.entries =
      (match m.side with
        | .buy => -(m.price * m.quantity)
        | .sell => m.price * m.quantity) - m.fee := by
  obtain ⟨side, symbol, quoteCurrency, price, quantity, fee, costReleased, postings, metadata, baseAsset, hq, hbuild,
    hentries, hmeta⟩ := h
  refine ⟨_, hmeta, ?_⟩
  rw [hentries]
  cases side with
  | buy =>
    rw [buildTradeEntries_buy, Except.ok.injEq, Prod.mk.injEq] at hbuild
    obtain ⟨rfl, rfl⟩ := hbuild
    refine ⟨hq, ?_⟩
    rw [balanceFlow_buy]
    ring
  | sell =>
    rw [buildTradeEntries_sell, Except.ok.injEq, Prod.mk.injEq] at hbuild
    obtain ⟨rfl, rfl⟩ := hbuild
    exact ⟨hq, balanceFlow_sell _ _ _ _ _⟩

section Snapshots

variable {snap snap' : ProjectionSnapshot} {m : TradeMetadata}

lemma openPosition_symbol (snap : ProjectionSnapshot) (m : TradeMetadata) : (openPosition snap m).symbol = m.symbol := by
  unfold openPosition
  cases hp : snap.position m.symbol with
  | none => rfl
  | some pos => exact (row_some hp).2

lemma openPosition_sound (h : ∀ pos ∈ snap.positions, pos.Sound) (m : TradeMetadata) : (openPosition snap m).Sound := by
  unfold openPosition
  cases hp : snap.position m.symbol with
  | none => exact ⟨le_rfl, by simp⟩
  | some pos => exact h pos (row_some hp).1

lemma rowWeight_openPosition (snap : ProjectionSnapshot) (m : TradeMetadata) :
    rowWeight PositionView.symbol PositionView.costBasis m.symbol snap.positions = (openPosition snap m).costBasis := by
  unfold rowWeight openPosition ProjectionSnapshot.position
  cases row PositionView.symbol m.symbol snap.positions <;> rfl

lemma applyTrade_ok (h : applyTrade snap m = .ok snap') :
    ∃ pos', snap' = { snap with
        positions := upsert PositionView.symbol pos' snap.positions
        realizedPnl := snap.realizedPnl + match m.side with
          | .buy => 0
          | .sell => m.price * m.quantity - (openPosition snap m).avgEntryPrice.getD 0 * m.quantity } ∧
      pos'.symbol = m.symbol ∧
      match m.side with
      | .buy => pos' = boughtPosition (openPosition snap m) m.quantity (m.price * m.quantity)
      | .sell => pos' = soldPosition (openPosition snap m) m.quantity (m.price * m.quantity) ∧
          m.quantity ≤ (openPosition snap m).quantity := by
  have hsym := openPosition_symbol snap m
  unfold applyTrade at h
  cases hside : m.side with
  | buy =>
    rw [hside] at h
    simp only [Except.ok.injEq] at h
    exact ⟨boughtPosition (openPosition snap m) m.quantity (m.price * m.quantity), by rw [← h, add_zero], hsym, rfl⟩
  | sell =>
    rw [hside] at h
    dsimp only at h
    by_cases hover : (openPosition snap m).quantity < m.quantity
    · simp [hover] at h
    · rw [if_neg hover, Except.ok.injEq] at h
      exact ⟨soldPosition (openPosition snap m) m.quantity (m.price * m.quantity), h.symm, hsym, rfl, not_lt.mp hover⟩

lemma replay_unique {initialBalances : Balances} {ledger : Ledger} {types : List LedgerEntryType}
    (h : replayProjections initialBalances ledger types = .ok snap) : (snap.positions.map PositionView.symbol).Nodup := by
  have hstep : ∀ snap (t : LedgerTransaction) snap', (snap.positions.map PositionView.symbol).Nodup → True →
      applyTransaction snap t = .ok snap' → (snap'.positions.map PositionView.symbol).Nodup := by
    intro snap t snap' hn _ hok
    have hkept := (ProjectionSnapshot.foldl_applyEntry_keeps t.entries snap).1
    by_cases htrade : t.entryType = .trade
    · cases hm : t.metadata with
      | trade m =>
        rw [applyTransaction_trade htrade hm] at hok
        obtain ⟨pos, rfl, -⟩ := applyTrade_ok hok
        dsimp only
        rw [hkept]
        exact nodup_upsert hn pos
      | _ => simp [applyTransaction, htrade, hm] at hok
    · obtain ⟨deposits, withdrawals, hother⟩ := applyTransaction_other htrade snap
      rw [hother, Except.ok.injEq] at hok
      rw [← hok]
      dsimp only
      rwa [hkept]
  exact applyTransactions_invariant hstep (fun _ _ => trivial) (by simp) h

/-- A snapshot with unique keys whose positions are sound. -/
def SoundSnapshot (snap : ProjectionSnapshot) : Prop :=
  snap.Keyed ∧ ∀ pos ∈ snap.positions, pos.Sound

lemma SoundSnapshot.trade (h : SoundSnapshot snap) (hq : 0 ≤ m.quantity) (hok : applyTrade snap m = .ok snap') :
    SoundSnapshot snap' := by
  obtain ⟨pos', rfl, hsym, hpos⟩ := applyTrade_ok hok
  have hold := openPosition_sound h.2 m
  have hnew : pos'.Sound := by
    cases hside : m.side with
    | buy =>
      rw [hside] at hpos
      rw [hpos]
      exact boughtPosition_sound hold hq m.price
    | sell =>
      rw [hside] at hpos
      rw [hpos.1]
      exact soldPosition_sound hpos.2 _
  refine ⟨⟨h.1.balances, nodup_upsert h.1.positions pos'⟩, fun pos hm => ?_⟩
  rcases mem_upsert hm with rfl | hm
  · exact hnew
  · exact h.2 pos hm

/-- The equity after a trade: the cost basis moves instead of the balances. -/
lemma equity_trade (h : SoundSnapshot snap) (hok : applyTrade snap m = .ok snap') :
    (snap'.equity = snap.equity + (snap'.realizedPnl - snap.realizedPnl) -
      (match m.side with
        | .buy => -(m.price * m.quantity)
        | .sell => m.price * m.quantity)) ↔
      ¬ (m.side = .sell ∧ (openPosition snap m).avgEntryPrice.getD 0 < 0 ∧ m.quantity < (openPosition snap m).quantity) := by
  obtain ⟨pos', rfl, hsym, hpos⟩ := applyTrade_ok hok
  have hold := openPosition_sound h.2 m
  have hweight := weight_upsert PositionView.costBasis h.1.positions pos'
  rw [hsym, rowWeight_openPosition] at hweight
  have hequity (positions : List PositionView) (pnl : ℚ) :
      ({ snap with positions := positions, realizedPnl := pnl } : ProjectionSnapshot).equity =
        weight Prod.snd snap.balances + weight PositionView.costBasis positions := rfl
  rw [hequity, hweight, show snap.equity = weight Prod.snd snap.balances + weight PositionView.costBasis snap.positions
    from rfl]
  cases hside : m.side with
  | buy =>
    rw [hside] at hpos
    rw [hpos]
    simp only [boughtPosition, reduceCtorEq, false_and, not_false_eq_true, iff_true]
    ring
  | sell =>
    rw [hside] at hpos
    have hiff := soldPosition_cost_iff hold hpos.2 (m.price * m.quantity)
    rw [hpos.1]
    simp only [true_and]
    rw [← hiff]
    constructor
    · intro he
      linarith
    · intro he
      rw [he]
      ring

/-! ### Transactions -/

lemma openPosition_congr (h : snap'.positions = snap.positions) (m : TradeMetadata) :
    openPosition snap' m = openPosition snap m := by
  unfold openPosition ProjectionSnapshot.position
  rw [h]

/-- The entries of a transaction move the equity by their flow and keep the positions. -/
lemma entries_step (h : SoundSnapshot snap) (entries : List LedgerPosting) :
    SoundSnapshot (entries.foldl applyEntry snap) ∧
      (entries.foldl applyEntry snap).equity = snap.equity + balanceFlow entries ∧
      (entries.foldl applyEntry snap).realizedPnl = snap.realizedPnl := by
  obtain ⟨hkeyed, hweight, hpos, hpnl⟩ := ProjectionSnapshot.foldl_applyEntry entries h.1
  refine ⟨⟨hkeyed, by rw [hpos]; exact h.2⟩, ?_, hpnl⟩
  have hequity (s : ProjectionSnapshot) :
      s.equity = weight Prod.snd s.balances + weight PositionView.costBasis s.positions := rfl
  rw [hequity, hequity, hweight, hpos]
  ring

/-- A transaction keeps a sound snapshot sound, and moves the equity by flow, profit and fee
exactly if it does not sell below zero. -/
lemma transaction_step {t : LedgerTransaction} (h : SoundSnapshot snap) (hj : Journaled t)
    (hok : applyTransaction snap t = .ok snap') :
    SoundSnapshot snap' ∧
      (snap'.equity = snap.equity + t.otherFlow + (snap'.realizedPnl - snap.realizedPnl) - t.tradeFee ↔
        ¬ SellsBelowZero snap t) := by
  obtain ⟨hsound, hequity, hpnl⟩ := entries_step h t.entries
  have hpositions := (ProjectionSnapshot.foldl_applyEntry t.entries h.1).2.2.1
  unfold Journaled at hj
  by_cases htrade : t.entryType = .trade
  · rw [if_pos htrade] at hj
    obtain ⟨m, hmeta, hq, hflow⟩ := hj.metadata
    rw [applyTransaction_trade htrade hmeta] at hok
    refine ⟨hsound.trade hq hok, ?_⟩
    have hiff := equity_trade hsound hok
    rw [openPosition_congr hpositions, hequity, hflow, hpnl] at hiff
    have hsells : SellsBelowZero snap t ↔ m.side = .sell ∧ (openPosition snap m).avgEntryPrice.getD 0 < 0 ∧
        m.quantity < (openPosition snap m).quantity := by
      constructor
      · rintro ⟨m', -, hm', hrest⟩
        rw [hmeta, LedgerMetadata.trade.injEq] at hm'
        rwa [hm']
      · intro hrest
        exact ⟨m, htrade, hmeta, hrest⟩
    rw [hsells, ← hiff]
    simp only [LedgerTransaction.otherFlow, LedgerTransaction.tradeFee, htrade, hmeta, if_true]
    constructor
    · intro he
      linarith
    · intro he
      linarith
  · obtain ⟨deposits, withdrawals, hother⟩ := applyTransaction_other htrade snap
    rw [hother, Except.ok.injEq] at hok
    subst hok
    refine ⟨⟨⟨hsound.1.balances, hsound.1.positions⟩, hsound.2⟩, iff_of_true ?_ (fun ⟨m, hm, _⟩ => htrade hm)⟩
    have hflow : t.otherFlow = balanceFlow t.entries := if_neg htrade
    have hfee : t.tradeFee = 0 := by simp [LedgerTransaction.tradeFee, htrade]
    rw [hflow, hfee, show ProjectionSnapshot.equity { t.entries.foldl applyEntry snap with
      totalDeposits := deposits, totalWithdrawals := withdrawals } = (t.entries.foldl applyEntry snap).equity from rfl,
      hequity, hpnl]
    ring

end Snapshots

/-! ### Prefixes -/

/-- A trade that buys does so at a price that is not negative. -/
def BuysAtPrice (t : LedgerTransaction) : Prop :=
  ∀ m, t.metadata = .trade m → m.side = .buy → 0 ≤ m.price

section Replays

variable {initialBalances : Balances}

lemma soundSnapshot_replay (hkeys : (initialBalances.map Prod.fst).Nodup) {ledger : Ledger} {snap : ProjectionSnapshot}
    (hj : ∀ t ∈ ledger, Journaled t) (h : replayProjections initialBalances ledger = .ok snap) : SoundSnapshot snap := by
  have hstart : SoundSnapshot { balances := initialBalances } := ⟨⟨hkeys, by simp⟩, by simp⟩
  have hreplay : applyTransactions { balances := initialBalances } ledger = .ok snap := by
    simpa [replayProjections] using h
  exact applyTransactions_invariant (fun s t s' hs ht hok => (transaction_step hs ht hok).1) hj hstart hreplay

lemma replay_prefix {ledger ledger' : Ledger} {snap : ProjectionSnapshot}
    (h : replayProjections initialBalances ledger = .ok snap) (hpre : ledger' <+: ledger) :
    ∃ snap', replayProjections initialBalances ledger' = .ok snap' := by
  obtain ⟨rest, rfl⟩ := hpre
  cases hr : replayProjections initialBalances ledger' with
  | ok snap' => exact ⟨snap', rfl⟩
  | error e =>
    have hall (l : Ledger) : replayProjections initialBalances l = applyTransactions { balances := initialBalances } l := by
      simp [replayProjections]
    rw [hall] at h hr
    rw [applyTransactions_append, hr] at h
    exact absurd h (by simp)

lemma spotAccounts_nil (initialBalances : Balances) :
    SpotAccounts initialBalances [] { balances := initialBalances } := by
  refine ⟨by simp, ?_⟩
  simp [ProjectionSnapshot.equity, weight]

/-- One more transaction keeps the identity exactly if it does not sell below zero. -/
lemma spotAccounts_snoc {ledger : Ledger} {t : LedgerTransaction} {snap snap' : ProjectionSnapshot}
    (hsound : SoundSnapshot snap) (hj : Journaled t) (hok : applyTransaction snap t = .ok snap')
    (h : SpotAccounts initialBalances ledger snap) :
    SpotAccounts initialBalances (ledger ++ [t]) snap' ↔ ¬ SellsBelowZero snap t := by
  obtain ⟨hsound', hiff⟩ := transaction_step hsound hj hok
  rw [← hiff]
  have hequity := h.equity
  constructor
  · intro h'
    have hequity' := h'.equity
    simp only [weight_append, weight_cons, weight_nil] at hequity'
    linarith
  · intro he
    refine ⟨hsound'.2, ?_⟩
    simp only [weight_append, weight_cons, weight_nil]
    linarith

/-- Average entry prices are not negative. -/
def PricedSnapshot (snap : ProjectionSnapshot) : Prop :=
  SoundSnapshot snap ∧ ∀ pos ∈ snap.positions, 0 ≤ pos.avgEntryPrice.getD 0

lemma PricedSnapshot.openPosition {snap : ProjectionSnapshot} (h : PricedSnapshot snap) (m : TradeMetadata) :
    0 ≤ (openPosition snap m).avgEntryPrice.getD 0 := by
  unfold CryptoTrader.openPosition
  cases hp : snap.position m.symbol with
  | none => exact le_rfl
  | some pos => exact h.2 pos (row_some hp).1

lemma boughtPosition_price {pos : PositionView} (h : pos.Sound) (havg : 0 ≤ pos.avgEntryPrice.getD 0) {quantity price : ℚ}
    (hq : 0 ≤ quantity) (hprice : 0 ≤ price) :
    0 ≤ (boughtPosition pos quantity (price * quantity)).avgEntryPrice.getD 0 := by
  unfold boughtPosition
  dsimp only
  split
  · have hcost : 0 ≤ pos.costBasis := by
      rw [h.cost]
      exact mul_nonneg havg h.nonneg
    exact div_nonneg (add_nonneg hcost (mul_nonneg hprice hq)) (add_nonneg h.nonneg hq)
  · exact le_rfl

lemma soldPosition_price {pos : PositionView} (quantity gross : ℚ) :
    0 ≤ (soldPosition pos quantity gross).avgEntryPrice.getD 0 := by
  unfold soldPosition
  dsimp only
  split
  · exact le_rfl
  · split
    · exact div_nonneg (le_max_right _ _) (le_of_lt ‹_›)
    · exact le_rfl

/-- Buying at prices that are not negative keeps average entry prices from being negative. -/
lemma PricedSnapshot.transaction {snap snap' : ProjectionSnapshot} {t : LedgerTransaction} (h : PricedSnapshot snap)
    (hj : Journaled t) (hbuys : BuysAtPrice t) (hok : applyTransaction snap t = .ok snap') : PricedSnapshot snap' := by
  refine ⟨(transaction_step h.1 hj hok).1, ?_⟩
  have hpositions := (ProjectionSnapshot.foldl_applyEntry t.entries h.1.1).2.2.1
  unfold Journaled at hj
  by_cases htrade : t.entryType = .trade
  · rw [if_pos htrade] at hj
    obtain ⟨m, hmeta, hq, -⟩ := hj.metadata
    rw [applyTransaction_trade htrade hmeta] at hok
    obtain ⟨pos', rfl, -, hpos⟩ := applyTrade_ok hok
    rw [openPosition_congr hpositions] at hpos
    have hnew : 0 ≤ pos'.avgEntryPrice.getD 0 := by
      cases hside : m.side with
      | buy =>
        rw [hside] at hpos
        rw [hpos]
        exact boughtPosition_price (openPosition_sound h.1.2 m) (h.openPosition m) hq (hbuys m hmeta hside)
      | sell =>
        rw [hside] at hpos
        rw [hpos.1]
        exact soldPosition_price _ _
    intro pos hm
    rcases mem_upsert hm with rfl | hm
    · exact hnew
    · exact h.2 pos (by rwa [hpositions] at hm)
  · obtain ⟨deposits, withdrawals, hother⟩ := applyTransaction_other htrade snap
    rw [hother, Except.ok.injEq] at hok
    subst hok
    intro pos hm
    exact h.2 pos (by rwa [hpositions] at hm)

lemma PricedSnapshot.sells {snap : ProjectionSnapshot} (h : PricedSnapshot snap) (t : LedgerTransaction) :
    ¬ SellsBelowZero snap t := by
  rintro ⟨m, -, -, -, hneg, -⟩
  exact absurd (h.openPosition m) (not_le.mpr hneg)

lemma pricedSnapshot_replay (hkeys : (initialBalances.map Prod.fst).Nodup) {ledger : Ledger} {snap : ProjectionSnapshot}
    (hj : ∀ t ∈ ledger, Journaled t) (hbuys : ∀ t ∈ ledger, BuysAtPrice t)
    (h : replayProjections initialBalances ledger = .ok snap) : PricedSnapshot snap := by
  have hstart : PricedSnapshot { balances := initialBalances } := ⟨⟨⟨hkeys, by simp⟩, by simp⟩, by simp⟩
  have hreplay : applyTransactions { balances := initialBalances } ledger = .ok snap := by
    simpa [replayProjections] using h
  exact applyTransactions_invariant (W := fun t => Journaled t ∧ BuysAtPrice t)
    (fun s t s' hs ht hok => hs.transaction ht.1 ht.2 hok) (fun t ht => ⟨hj t ht, hbuys t ht⟩) hstart hreplay

/-- The snapshot of a ledger satisfies the identity. -/
def Identity (initialBalances : Balances) (ledger : Ledger) : Prop :=
  ∃ snap, replayProjections initialBalances ledger = .ok snap ∧ SpotAccounts initialBalances ledger snap

/-- The transaction sells below zero after the ledger. -/
def SellsBelowZeroAfter (initialBalances : Balances) (ledger : Ledger) (t : LedgerTransaction) : Prop :=
  ∃ snap, replayProjections initialBalances ledger = .ok snap ∧ SellsBelowZero snap t

lemma identity_snoc (hkeys : (initialBalances.map Prod.fst).Nodup) {ledger : Ledger} {t : LedgerTransaction}
    (hj : ∀ t' ∈ ledger ++ [t], Journaled t') (hreplay : ∃ snap, replayProjections initialBalances (ledger ++ [t]) = .ok snap)
    (h : Identity initialBalances ledger) :
    Identity initialBalances (ledger ++ [t]) ↔ ¬ SellsBelowZeroAfter initialBalances ledger t := by
  obtain ⟨snap, hsnap, haccounts⟩ := h
  obtain ⟨snap', hsnap'⟩ := hreplay
  have hsound := soundSnapshot_replay hkeys (fun t' ht' => hj t' (by simp [ht'])) hsnap
  have hok : applyTransaction snap t = .ok snap' := by
    rwa [replayProjections_append hsnap, applyTransactions_single] at hsnap'
  have hsells : SellsBelowZeroAfter initialBalances ledger t ↔ SellsBelowZero snap t := by
    constructor
    · rintro ⟨s, hs, hc⟩
      rw [hsnap, Except.ok.injEq] at hs
      rwa [hs]
    · intro hc
      exact ⟨snap, hsnap, hc⟩
  rw [hsells, ← spotAccounts_snoc hsound (hj t (by simp)) hok haccounts]
  constructor
  · rintro ⟨s, hs, hacc⟩
    rw [hsnap', Except.ok.injEq] at hs
    rwa [hs]
  · intro hacc
    exact ⟨snap', hsnap', hacc⟩

/-- For a ledger of trade journals and balanced journals that replays, the accounting identity
holds after every prefix exactly if no trade sells a part of a position below zero; so it
does if no trade buys at a negative price. -/
theorem identity_iff (hkeys : (initialBalances.map Prod.fst).Nodup) {ledger : Ledger} (hj : ∀ t ∈ ledger, Journaled t)
    (hreplay : ∃ snap, replayProjections initialBalances ledger = .ok snap) :
    ((∀ ledger', ledger' <+: ledger → Identity initialBalances ledger') ↔
      ∀ ledger' t, ledger' ++ [t] <+: ledger → ¬ SellsBelowZeroAfter initialBalances ledger' t) ∧
    ((∀ t ∈ ledger, BuysAtPrice t) → ∀ ledger', ledger' <+: ledger → Identity initialBalances ledger') := by
  obtain ⟨last, hlast⟩ := hreplay
  have hprefix : ∀ l, l <+: ledger → (∀ t ∈ l, Journaled t) ∧ ∃ snap, replayProjections initialBalances l = .ok snap :=
    fun l hl => ⟨fun t ht => hj t (hl.subset ht), replay_prefix hlast hl⟩
  have hiff : (∀ ledger', ledger' <+: ledger → Identity initialBalances ledger') ↔
      ∀ ledger' t, ledger' ++ [t] <+: ledger → ¬ SellsBelowZeroAfter initialBalances ledger' t :=
    forall_prefix_iff ⟨_, rfl, spotAccounts_nil initialBalances⟩ (fun l t hw h => identity_snoc hkeys hw.1 hw.2 h) hprefix
  refine ⟨hiff, fun hbuys => hiff.mpr ?_⟩
  rintro l t hl ⟨snap, hsnap, hsells⟩
  have hsub : l ⊆ ledger := fun t' ht' => hl.subset (by simp [ht'])
  have hpriced := pricedSnapshot_replay hkeys (fun t' ht' => hj t' (hsub ht')) (fun t' ht' => hbuys t' (hsub ht')) hsnap
  exact hpriced.sells t hsells

end Replays

/-- A buy of 1 at 100. -/
theorem identity_bought :
    let trade : TradeMetadata := {
      symbol := "BTCUSDT", quoteCurrency := "USDT", side := .buy, quantity := 1, price := 100, fee := 1
      grossCost := some (100 * 1), baseAsset := some "BTC" }
    let ledger : Ledger := [
      { transactionId := "a", entryType := .trade, entries := buyPostings "BTCUSDT" "USDT" (100 * 1) 1
        metadata := .trade trade }]
    ∀ ledger', ledger' <+: ledger → Identity [("USDT", 1000)] ledger' := by
  intro trade ledger
  have hj : ∀ t ∈ ledger, Journaled t := by
    intro t ht
    obtain rfl := List.mem_singleton.mp ht
    exact ⟨.buy, "BTCUSDT", "USDT", 100, 1, 1, none, _, _, some "BTC", by norm_num, buildTradeEntries_buy _ _ _ _ _ _, rfl, rfl⟩
  have hreplay : ∃ snap, replayProjections [("USDT", 1000)] ledger = .ok snap := ⟨_, rfl⟩
  refine (identity_iff (by decide) hj hreplay).2 (fun t ht m hm _ => ?_)
  obtain rfl := List.mem_singleton.mp ht
  cases hm
  norm_num

/-- A buy of 2 at -1 and a sale of 1 at 5: the sale releases a cost of -1 from a cost basis
of -2, and the clamp leaves 0. -/
theorem identity_below_zero :
    let trade (side : OrderSide) (quantity price : ℚ) : TradeMetadata :=
      { symbol := "BTCUSDT", quoteCurrency := "USDT", side, quantity, price, fee := 0, baseAsset := some "BTC" }
    let ledger : Ledger := [
      { transactionId := "a", entryType := .trade, entries := buyPostings "BTCUSDT" "USDT" (-1 * 2) 0
        metadata := .trade { trade .buy 2 (-1) with grossCost := some (-1 * 2) } },
      { transactionId := "b", entryType := .trade, entries := sellPostings "BTCUSDT" "USDT" (5 * 1) 0 0
        metadata := .trade { trade .sell 1 5 with
          grossProceeds := some (5 * 1), costReleased := some 0, realizedPnl := some (5 * 1 - 0) } }]
    (∀ t ∈ ledger, Journaled t) ∧ (∃ snap, replayProjections [] ledger = .ok snap) ∧ ¬ Identity [] ledger := by
  intro trade ledger
  obtain ⟨snap, hsnap, hequity, hpnl⟩ : ∃ snap, replayProjections [] ledger = .ok snap ∧ snap.equity = 7 ∧
      snap.realizedPnl = 6 := by
    let pos : PositionView := {
      symbol := "BTCUSDT", baseAsset := "BTC", quoteAsset := "USDT", quantity := 1, avgEntryPrice := some 0
      costBasis := 0, realizedPnl := 6 }
    exact ⟨{ balances := [("USDT", 7)], positions := [pos], realizedPnl := 6 }, by decide +kernel, by decide +kernel, rfl⟩
  refine ⟨?_, ⟨snap, hsnap⟩, ?_⟩
  · intro t ht
    rcases List.mem_cons.mp ht with rfl | ht
    · exact ⟨.buy, "BTCUSDT", "USDT", -1, 2, 0, none, _, _, some "BTC", by norm_num, buildTradeEntries_buy _ _ _ _ _ _,
        rfl, rfl⟩
    · obtain rfl := List.mem_singleton.mp ht
      exact ⟨.sell, "BTCUSDT", "USDT", 5, 1, 0, some 0, _, _, some "BTC", by norm_num, buildTradeEntries_sell _ _ _ _ _ _,
        rfl, rfl⟩
  · rintro ⟨snap', hsnap', haccounts⟩
    rw [hsnap, Except.ok.injEq] at hsnap'
    have hequity' := haccounts.equity
    have hother : weight LedgerTransaction.otherFlow ledger = 0 := by decide +kernel
    have hfees : weight LedgerTransaction.tradeFee ledger = 0 := by decide +kernel
    rw [← hsnap', hequity, hpnl, hother, hfees, weight_nil] at hequity'
    norm_num at hequity'

end CryptoTrader
