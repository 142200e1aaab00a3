import CryptoTrader.Ledger.SpotAccounts
import CryptoTrader.Lib.Components

/-!
# Trades of several symbols

The replay of the ledger raises where a sale exceeds the position of its symbol, and moves the
balances of currencies that the symbols share. Transactions of different symbols may be recorded in any
order: the ledgers replay together, and to the same projections (`replay_interleaved`).
-/

namespace CryptoTrader

open KeyedTable Weights Components Excepts

/-- The symbol of a trade. -/
def LedgerTransaction.tradeSymbol (t : LedgerTransaction) : Option String :=
  match t.entryType, t.metadata with
  | .trade, .trade m => some m.symbol
  | _, _ => none

/-- The same transactions, and the trades of each symbol in the same order. -/
abbrev SameTrades (ledger ledger' : Ledger) : Prop :=
  Interleaved LedgerTransaction.tradeSymbol ledger ledger'

/-- The same projections, whatever the order of their rows. -/
structure SameProjections (snap snap' : ProjectionSnapshot) : Prop where
  balances : snap.balances.Perm snap'.balances
  positions : snap.positions.Perm snap'.positions
  realizedPnl : snap.realizedPnl = snap'.realizedPnl
  totalFees : snap.totalFees = snap'.totalFees
  totalDeposits : snap.totalDeposits = snap'.totalDeposits
  totalWithdrawals : snap.totalWithdrawals = snap'.totalWithdrawals
  equity : snap.equity = snap'.equity

section Positions

/-- The position that a trade finds. -/
def foundPosition (pos : Option PositionView) (m : TradeMetadata) : PositionView :=
  pos.getD { symbol := m.symbol, baseAsset := m.baseAsset.getD (m.symbol.replace "USDT" ""), quoteAsset := m.quoteCurrency }

/-- What a trade makes of the position of its symbol, if it is not an oversell. -/
def tradedPosition (pos : Option PositionView) (m : TradeMetadata) : Option PositionView :=
  match m.side with
  | .buy => some (boughtPosition (foundPosition pos m) m.quantity (m.price * m.quantity))
  | .sell =>
    if (foundPosition pos m).quantity < m.quantity then none
    else some (soldPosition (foundPosition pos m) m.quantity (m.price * m.quantity))

/-- What a transaction makes of the position of its symbol. -/
def movedPosition (pos : Option PositionView) (t : LedgerTransaction) : Option (Option PositionView) :=
  match t.metadata with
  | .trade m => (tradedPosition pos m).map some
  | _ => none

/-- A transaction of the type TRADE has the metadata of a trade. -/
def TradeRecorded (t : LedgerTransaction) : Prop :=
  t.entryType = .trade → t.tradeSymbol.isSome = true

variable {snap snap' : ProjectionSnapshot} {t : LedgerTransaction} {m : TradeMetadata} {symbol : String}

lemma openPosition_eq (snap : ProjectionSnapshot) (m : TradeMetadata) :
    openPosition snap m = foundPosition (snap.position m.symbol) m := by
  unfold openPosition foundPosition
  cases snap.position m.symbol <;> rfl

lemma tradeSymbol_some (h : t.tradeSymbol = some symbol) : t.entryType = .trade ∧ ∃ m, t.metadata = .trade m ∧ m.symbol = symbol := by
  unfold LedgerTransaction.tradeSymbol at h
  split at h
  · rename_i m ht hm
    exact ⟨ht, m, hm, Option.some.inj h⟩
  · cases h

lemma returns_applyTrade : Returns (applyTrade snap m) ↔ (tradedPosition (snap.position m.symbol) m).isSome = true := by
  unfold applyTrade tradedPosition
  rw [openPosition_eq]
  cases m.side with
  | buy => exact iff_of_true ⟨_, rfl⟩ rfl
  | sell =>
    dsimp only
    by_cases hover : (foundPosition (snap.position m.symbol) m).quantity < m.quantity
    · rw [if_pos hover, if_pos hover]
      exact iff_of_false (not_returns_error _) (by simp)
    · rw [if_neg hover, if_neg hover]
      exact iff_of_true ⟨_, rfl⟩ rfl

lemma tradedPosition_of_ok (h : applyTrade snap m = .ok snap') :
    ∃ pos, tradedPosition (snap.position m.symbol) m = some pos ∧ pos.symbol = m.symbol ∧
      snap'.positions = upsert PositionView.symbol pos snap.positions := by
  obtain ⟨pos, rfl, hsymbol, hpos⟩ := applyTrade_ok h
  refine ⟨pos, ?_, hsymbol, rfl⟩
  rw [openPosition_eq] at hpos
  unfold tradedPosition
  cases hside : m.side with
  | buy =>
    rw [hside] at hpos
    rw [hpos]
  | sell =>
    rw [hside] at hpos
    dsimp only
    rw [if_neg (not_lt.mpr hpos.2), hpos.1]

lemma position_entries (entries : List LedgerPosting) (snap : ProjectionSnapshot) (symbol : String) :
    (entries.foldl applyEntry snap).position symbol = snap.position symbol := by
  rw [ProjectionSnapshot.position, (ProjectionSnapshot.foldl_applyEntry_keeps entries snap).1]
  rfl

/-- A transaction acts on the position of its symbol alone. -/
lemma acts_position : Acts applyTransaction (fun symbol snap => snap.position symbol) LedgerTransaction.tradeSymbol
    movedPosition TradeRecorded where
  keyed := by
    intro snap t symbol hkey
    obtain ⟨htype, m, hm, rfl⟩ := tradeSymbol_some hkey
    rw [applyTransaction_trade htype hm, returns_applyTrade, position_entries, movedPosition, hm]
    dsimp only
    rw [Option.isSome_map]
  unkeyed := by
    intro snap t hkey
    by_cases htype : t.entryType = .trade
    · refine iff_of_false ?_ (fun h => absurd (h htype) (by simp [hkey]))
      rintro ⟨snap', h⟩
      cases hm : t.metadata with
      | trade m => simp [LedgerTransaction.tradeSymbol, htype, hm] at hkey
      | _ => simp [applyTransaction, htype, hm] at h
    · obtain ⟨deposits, withdrawals, hother⟩ := applyTransaction_other htype snap
      exact iff_of_true ⟨_, hother⟩ (fun h => absurd h htype)
  own := by
    intro snap snap' t symbol hok hkey
    obtain ⟨htype, m, hm, rfl⟩ := tradeSymbol_some hkey
    rw [applyTransaction_trade htype hm] at hok
    obtain ⟨pos, htraded, hsymbol, hpositions⟩ := tradedPosition_of_ok hok
    rw [position_entries] at htraded
    have hrow := row_upsert_self PositionView.symbol pos (t.entries.foldl applyEntry snap).positions
    rw [movedPosition, hm]
    dsimp only
    rw [htraded, Option.map_some, ProjectionSnapshot.position, hpositions, ← hsymbol, hrow]
  others := by
    intro snap snap' t symbol hok hkey
    by_cases htype : t.entryType = .trade
    · cases hm : t.metadata with
      | trade m =>
        rw [applyTransaction_trade htype hm] at hok
        obtain ⟨pos, -, hsymbol, hpositions⟩ := tradedPosition_of_ok hok
        have hne : symbol ≠ pos.symbol := by
          rw [hsymbol]
          rintro rfl
          exact hkey (by simp [LedgerTransaction.tradeSymbol, htype, hm])
        rw [ProjectionSnapshot.position, hpositions, row_upsert_of_ne _ hne]
        exact position_entries t.entries snap symbol
      | _ => simp [applyTransaction, htype, hm] at hok
    · obtain ⟨deposits, withdrawals, hother⟩ := applyTransaction_other htype snap
      obtain rfl := Except.ok.inj (hother.symm.trans hok)
      exact position_entries t.entries snap symbol

end Positions

/-! ### Balances and totals -/

section Totals

/-- The total of each currency, if it has a row. -/
def currencyTotals (snap : ProjectionSnapshot) (currency : String) : Option ℚ :=
  (row Prod.fst currency snap.balances).map Prod.snd

def moveTotal (v : String → Option ℚ) (entry : LedgerPosting) : String → Option ℚ :=
  if entry.account.movesBalance then Function.update v entry.currency (some ((v entry.currency).getD 0 + entry.signed))
  else v

def addFee (fees : ℚ) (entry : LedgerPosting) : ℚ :=
  fees + if entry.account = .feeExpense ∧ entry.direction = .debit then entry.amount else 0

instance : RightCommutative moveTotal where
  right_comm v e e' := by
    unfold moveTotal
    by_cases he : e.account.movesBalance
    · by_cases he' : e'.account.movesBalance
      · simp only [if_pos he, if_pos he']
        by_cases hc : e.currency = e'.currency
        · rw [hc, Function.update_self, Function.update_self, Function.update_idem, Function.update_idem]
          congr 2
          simp only [Option.getD_some]
          ring
        · rw [Function.update_of_ne (Ne.symm hc), Function.update_of_ne hc, Function.update_comm hc]
      · simp only [if_neg he']
    · simp only [if_neg he]

instance : RightCommutative addFee where
  right_comm fees e e' := by
    unfold addFee
    ring

variable {snap snap' : ProjectionSnapshot} {t : LedgerTransaction}

lemma currencyTotals_setBalance (snap : ProjectionSnapshot) (currency : String) (total : ℚ) :
    currencyTotals (snap.setBalance currency total) = Function.update (currencyTotals snap) currency (some total) := by
  funext c
  by_cases hc : c = currency
  · subst hc
    rw [Function.update_self, currencyTotals, ProjectionSnapshot.setBalance]
    dsimp only
    rw [row_upsert_self Prod.fst (c, total) snap.balances]
    rfl
  · rw [Function.update_of_ne hc, currencyTotals, ProjectionSnapshot.setBalance]
    dsimp only
    rw [row_upsert_of_ne snap.balances hc]
    rfl

lemma balance_eq (snap : ProjectionSnapshot) (currency : String) :
    snap.balance currency = (currencyTotals snap currency).getD 0 := by
  unfold ProjectionSnapshot.balance currencyTotals
  cases row Prod.fst currency snap.balances <;> rfl

/-- The balances after an entry, and what it adds to the fees. -/
lemma applyEntry_eq (snap : ProjectionSnapshot) (entry : LedgerPosting) : applyEntry snap entry =
    { if entry.account.movesBalance then snap.setBalance entry.currency (snap.balance entry.currency + entry.signed) else snap with
      totalFees := addFee snap.totalFees entry } := by
  unfold applyEntry addFee LedgerPosting.signed
  dsimp only
  by_cases hmoves : entry.account.movesBalance
  · have hfee : entry.account ≠ .feeExpense := by
      intro hfee
      rw [hfee] at hmoves
      cases hmoves
    simp only [if_pos hmoves, hfee, false_and, if_false, add_zero]
    cases entry.direction with
    | debit => rfl
    | credit =>
      rw [← sub_eq_add_neg]
      rfl
  · simp only [if_neg hmoves]
    split
    · rfl
    · rw [add_zero]

/-- What the entries of a transaction leave. -/
structure EntriesLeave (entries : List LedgerPosting) (snap snap' : ProjectionSnapshot) : Prop where
  totals : currencyTotals snap' = entries.foldl moveTotal (currencyTotals snap)
  totalFees : snap'.totalFees = entries.foldl addFee snap.totalFees
  totalDeposits : snap'.totalDeposits = snap.totalDeposits
  totalWithdrawals : snap'.totalWithdrawals = snap.totalWithdrawals

lemma entriesLeave_one (snap : ProjectionSnapshot) (entry : LedgerPosting) : EntriesLeave [entry] snap (applyEntry snap entry) := by
  rw [applyEntry_eq]
  by_cases hmoves : entry.account.movesBalance
  · simp only [if_pos hmoves]
    refine ⟨?_, rfl, rfl, rfl⟩
    rw [List.foldl_cons, List.foldl_nil, moveTotal, if_pos hmoves, ← balance_eq, ← currencyTotals_setBalance]
    rfl
  · simp only [if_neg hmoves]
    refine ⟨?_, rfl, rfl, rfl⟩
    rw [List.foldl_cons, List.foldl_nil, moveTotal, if_neg hmoves]
    rfl

lemma entriesLeave (entries : List LedgerPosting) (snap : ProjectionSnapshot) :
    EntriesLeave entries snap (entries.foldl applyEntry snap) := by
  induction entries generalizing snap with
  | nil => exact ⟨rfl, rfl, rfl, rfl⟩
  | cons entry entries ih =>
    have hone := entriesLeave_one snap entry
    have hrest := ih (applyEntry snap entry)
    refine ⟨?_, ?_, ?_, ?_⟩
    · rw [List.foldl_cons, hrest.totals, hone.totals]
      rfl
    · rw [List.foldl_cons, hrest.totalFees, hone.totalFees]
      rfl
    · rw [List.foldl_cons, hrest.totalDeposits, hone.totalDeposits]
    · rw [List.foldl_cons, hrest.totalWithdrawals, hone.totalWithdrawals]

def addDeposit (deposits : ℚ) (t : LedgerTransaction) : ℚ :=
  deposits + if t.entryType = .deposit then t.metadata.amountOrQuantity else 0

def addWithdrawal (withdrawals : ℚ) (t : LedgerTransaction) : ℚ :=
  withdrawals + if t.entryType = .withdrawal then t.metadata.amountOrQuantity else 0

instance : RightCommutative addDeposit where
  right_comm d t t' := by
    unfold addDeposit
    ring

instance : RightCommutative addWithdrawal where
  right_comm w t t' := by
    unfold addWithdrawal
    ring

/-- What a transaction that is applied leaves. -/
structure TransactionLeaves (t : LedgerTransaction) (snap snap' : ProjectionSnapshot) : Prop where
  totals : currencyTotals snap' = t.entries.foldl moveTotal (currencyTotals snap)
  totalFees : snap'.totalFees = t.entries.foldl addFee snap.totalFees
  totalDeposits : snap'.totalDeposits = addDeposit snap.totalDeposits t
  totalWithdrawals : snap'.totalWithdrawals = addWithdrawal snap.totalWithdrawals t

lemma transactionLeaves (hok : applyTransaction snap t = .ok snap') : TransactionLeaves t snap snap' := by
  obtain ⟨htotals, hfees, hdeposits, hwithdrawals⟩ := entriesLeave t.entries snap
  by_cases htype : t.entryType = .trade
  · cases hm : t.metadata with
    | trade m =>
      rw [applyTransaction_trade htype hm] at hok
      obtain ⟨pos, rfl, -⟩ := applyTrade_ok hok
      refine ⟨htotals, hfees, ?_, ?_⟩
      · simpa [addDeposit, htype] using hdeposits
      · simpa [addWithdrawal, htype] using hwithdrawals
    | _ => simp [applyTransaction, htype, hm] at hok
  · unfold applyTransaction at hok
    dsimp only at hok
    cases hentry : t.entryType with
    | trade => exact absurd hentry htype
    | deposit =>
      simp only [hentry, Except.ok.injEq] at hok
      subst hok
      exact ⟨htotals, hfees, by simp [addDeposit, hentry, hdeposits], by simp [addWithdrawal, hentry, hwithdrawals]⟩
    | withdrawal =>
      simp only [hentry, Except.ok.injEq] at hok
      subst hok
      exact ⟨htotals, hfees, by simp [addDeposit, hentry, hdeposits], by simp [addWithdrawal, hentry, hwithdrawals]⟩
    | _ =>
      simp only [hentry, Except.ok.injEq] at hok
      subst hok
      exact ⟨htotals, hfees, by simp [addDeposit, hentry, hdeposits], by simp [addWithdrawal, hentry, hwithdrawals]⟩

end Totals

/-! ### Two replays -/

section Replays

variable {initialBalances : Balances} {ledger ledger' : Ledger} {snap snap' : ProjectionSnapshot}

lemma applyTransactions_eq (ledger : Ledger) (snap : ProjectionSnapshot) :
    applyTransactions snap ledger = ledger.foldlM applyTransaction snap := by
  induction ledger generalizing snap with
  | nil => rfl
  | cons t ledger ih =>
    rw [applyTransactions, List.foldlM_cons]
    cases applyTransaction snap t with
    | error e => rfl
    | ok next => exact ih next

/-- The realized profit of the snapshot is that of its positions. -/
structure Consistent (snap : ProjectionSnapshot) : Prop where
  keyed : snap.Keyed
  realizedPnl : snap.realizedPnl = weight PositionView.realizedPnl snap.positions

lemma Consistent.trade {m : TradeMetadata} (h : Consistent snap) (hok : applyTrade snap m = .ok snap') : Consistent snap' := by
  obtain ⟨pos, rfl, hsymbol, hpos⟩ := applyTrade_ok hok
  have hrow : rowWeight PositionView.symbol PositionView.realizedPnl pos.symbol snap.positions =
      (openPosition snap m).realizedPnl := by
    rw [hsymbol]
    unfold rowWeight openPosition ProjectionSnapshot.position
    cases row PositionView.symbol m.symbol snap.positions <;> rfl
  refine ⟨⟨h.keyed.balances, nodup_upsert h.keyed.positions pos⟩, ?_⟩
  dsimp only
  rw [weight_upsert PositionView.realizedPnl h.keyed.positions, hrow, ← h.realizedPnl]
  cases hside : m.side with
  | buy =>
    rw [hside] at hpos
    rw [hpos, boughtPosition]
    ring
  | sell =>
    rw [hside] at hpos
    rw [hpos.1, soldPosition]
    ring

lemma Consistent.transaction {t : LedgerTransaction} (h : Consistent snap) (hok : applyTransaction snap t = .ok snap') :
    Consistent snap' := by
  obtain ⟨hkeyed, -, hpositions, hrealized⟩ := ProjectionSnapshot.foldl_applyEntry t.entries h.keyed
  have hentries : Consistent (t.entries.foldl applyEntry snap) := ⟨hkeyed, by rw [hrealized, hpositions, h.realizedPnl]⟩
  by_cases htype : t.entryType = .trade
  · cases hm : t.metadata with
    | trade m =>
      rw [applyTransaction_trade htype hm] at hok
      exact hentries.trade hok
    | _ => simp [applyTransaction, htype, hm] at hok
  · obtain ⟨deposits, withdrawals, hother⟩ := applyTransaction_other htype snap
    obtain rfl := Except.ok.inj (hother.symm.trans hok)
    exact ⟨⟨hentries.keyed.balances, hentries.keyed.positions⟩, hentries.realizedPnl⟩

lemma consistent_run (hs : Consistent snap) (hok : ledger.foldlM applyTransaction snap = .ok snap') : Consistent snap' := by
  rw [← applyTransactions_eq] at hok
  exact applyTransactions_invariant (fun _ _ _ h _ => h.transaction) (W := fun _ => True) (fun _ _ => trivial) hs hok

/-- Two snapshots with the same rows and totals are the same projections. -/
lemma sameProjections (h : Consistent snap) (h' : Consistent snap') (hpositions : ∀ symbol, snap.position symbol = snap'.position symbol)
    (htotals : currencyTotals snap = currencyTotals snap') (hfees : snap.totalFees = snap'.totalFees)
    (hdeposits : snap.totalDeposits = snap'.totalDeposits) (hwithdrawals : snap.totalWithdrawals = snap'.totalWithdrawals) :
    SameProjections snap snap' := by
  have hrows : snap.positions.Perm snap'.positions := perm_of_row h.keyed.positions h'.keyed.positions hpositions
  have hbalances : snap.balances.Perm snap'.balances := by
    refine perm_of_row h.keyed.balances h'.keyed.balances (fun currency => ?_)
    have hsame := congrFun htotals currency
    unfold currencyTotals at hsame
    cases hleft : row Prod.fst currency snap.balances with
    | none =>
      rw [hleft, Option.map_none] at hsame
      exact (Option.map_eq_none_iff.mp hsame.symm).symm
    | some r =>
      rw [hleft, Option.map_some] at hsame
      obtain ⟨r', hright, hr⟩ := Option.map_eq_some_iff.mp hsame.symm
      rw [hright]
      exact congrArg some (Prod.ext ((row_some hleft).2.trans (row_some hright).2.symm) hr.symm)
  refine ⟨hbalances, hrows, ?_, hfees, hdeposits, hwithdrawals, ?_⟩
  · rw [h.realizedPnl, h'.realizedPnl]
    exact (hrows.map _).sum_eq
  · unfold ProjectionSnapshot.equity
    rw [(hbalances.map Prod.snd).sum_eq, (hrows.map PositionView.costBasis).sum_eq]

lemma consistent_start (hkeys : (initialBalances.map Prod.fst).Nodup) : Consistent { balances := initialBalances } :=
  ⟨⟨hkeys, List.nodup_nil⟩, rfl⟩

def boughtOf (transactionId symbol : String) : LedgerTransaction where
  transactionId := transactionId
  entryType := .trade
  metadata := .trade { symbol, quoteCurrency := "USDT", side := .buy, quantity := 2, price := 50, fee := 1 }
  entries := buyPostings symbol "USDT" 100 1

lemma sameTrades_two : SameTrades [boughtOf "t1" "BTCUSDT", boughtOf "t2" "ETHUSDT"] [boughtOf "t2" "ETHUSDT", boughtOf "t1" "BTCUSDT"] where
  perm := List.Perm.swap _ _ _
  order := fun symbol => by
    have hbtc : (boughtOf "t1" "BTCUSDT").tradeSymbol = some "BTCUSDT" := rfl
    have heth : (boughtOf "t2" "ETHUSDT").tradeSymbol = some "ETHUSDT" := rfl
    by_cases hsymbol : symbol = "BTCUSDT"
    · simp [hbtc, heth, hsymbol]
    · simp [List.filter_cons, hbtc, Ne.symm hsymbol]

end Replays

end CryptoTrader
