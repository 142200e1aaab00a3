import CryptoTrader.Ledger.Projections
import CryptoTrader.Lib.Weights
import Mathlib.Tactic.Ring

/-!
# Net balances of ledger accounts

The net debit balance of the postings that count: a debit adds its amount, a credit takes
it off. The balances of a replay move by the net balance of the postings to CASH, MARGIN and
MARGIN:symbol in their currency.
-/

namespace CryptoTrader

open KeyedTable Weights

/-- The amount of a posting, counted positive for a debit. -/
def LedgerPosting.signed (p : LedgerPosting) : ℚ :=
  match p.direction with
  | .debit => p.amount
  | .credit => -p.amount

/-- The net debit balance over the postings that count. -/
def netDebit (counts : LedgerPosting → Prop) [DecidablePred counts] (postings : List LedgerPosting) : ℚ :=
  weight (fun p => if counts p then p.signed else 0) postings

/-- The net debit balance of an account in the ledger. -/
def accountDebit (account : LedgerAccount) (ledger : Ledger) : ℚ :=
  netDebit (fun p => p.account = account) (ledger.flatMap LedgerTransaction.entries)

/-- The postings that move the balance of a currency. -/
def MovesBalanceOf (currency : String) (p : LedgerPosting) : Prop :=
  p.account.movesBalance = true ∧ p.currency = currency

instance (currency : String) : DecidablePred (MovesBalanceOf currency) :=
  fun _ => inferInstanceAs (Decidable (_ ∧ _))

/-- The net flow of postings into the balance of a currency. -/
def cashFlow (currency : String) (postings : List LedgerPosting) : ℚ :=
  netDebit (MovesBalanceOf currency) postings

section Net

variable (counts : LedgerPosting → Prop) [DecidablePred counts]

@[simp] lemma netDebit_nil : netDebit counts [] = 0 := rfl

@[simp] lemma netDebit_cons (p : LedgerPosting) (ps : List LedgerPosting) :
    netDebit counts (p :: ps) = (if counts p then p.signed else 0) + netDebit counts ps := by
  unfold netDebit
  rw [weight_cons]

@[simp] lemma netDebit_append (ps qs : List LedgerPosting) :
    netDebit counts (ps ++ qs) = netDebit counts ps + netDebit counts qs := by
  unfold netDebit
  rw [weight_append]

end Net

lemma accountDebit_append (account : LedgerAccount) (ledger ledger' : Ledger) :
    accountDebit account (ledger ++ ledger') = accountDebit account ledger + accountDebit account ledger' := by
  unfold accountDebit
  rw [List.flatMap_append, netDebit_append]

@[simp] lemma accountDebit_single (account : LedgerAccount) (t : LedgerTransaction) :
    accountDebit account [t] = netDebit (fun p => p.account = account) t.entries := by
  simp [accountDebit]

lemma accountDebit_of_unposted {account : LedgerAccount} {ledger : Ledger}
    (h : ∀ t ∈ ledger, ∀ p ∈ t.entries, p.account ≠ account) : accountDebit account ledger = 0 := by
  unfold accountDebit netDebit weight
  apply List.sum_eq_zero
  intro x hx
  obtain ⟨p, hp, rfl⟩ := List.mem_map.mp hx
  obtain ⟨t, ht, hpt⟩ := List.mem_flatMap.mp hp
  exact if_neg (h t ht p hpt)

/-! ### The balances of a replay -/

namespace ProjectionSnapshot

@[simp] lemma balance_setBalance_self (snap : ProjectionSnapshot) (currency : String) (total : ℚ) :
    (snap.setBalance currency total).balance currency = total := by
  have hrow := row_upsert_self Prod.fst (currency, total) snap.balances
  simp only [setBalance, balance, hrow]

lemma balance_setBalance_of_ne (snap : ProjectionSnapshot) {currency other : String} (total : ℚ) (h : other ≠ currency) :
    (snap.setBalance currency total).balance other = snap.balance other := by
  have hrow : row Prod.fst other (upsert Prod.fst (currency, total) snap.balances) = row Prod.fst other snap.balances :=
    row_upsert_of_ne snap.balances h
  simp only [setBalance, balance, hrow]

lemma balance_applyEntry (snap : ProjectionSnapshot) (entry : LedgerPosting) (currency : String) :
    (applyEntry snap entry).balance currency =
      snap.balance currency + if MovesBalanceOf currency entry then entry.signed else 0 := by
  have hfees : (applyEntry snap entry).balance currency = (if entry.account.movesBalance then
      (match entry.direction with
        | .debit => snap.setBalance entry.currency (snap.balance entry.currency + entry.amount)
        | .credit => snap.setBalance entry.currency (snap.balance entry.currency - entry.amount))
      else snap).balance currency := by
    unfold applyEntry
    dsimp only
    split <;> rfl
  rw [hfees]
  by_cases hmoves : entry.account.movesBalance
  · rw [if_pos hmoves]
    by_cases hc : entry.currency = currency
    · rw [if_pos ⟨hmoves, hc⟩, LedgerPosting.signed, ← hc]
      cases entry.direction <;> simp [sub_eq_add_neg]
    · have hnot : ¬ MovesBalanceOf currency entry := fun h => hc h.2
      rw [if_neg hnot, add_zero]
      cases entry.direction
      · exact snap.balance_setBalance_of_ne _ (Ne.symm hc)
      · exact snap.balance_setBalance_of_ne _ (Ne.symm hc)
  · have hnot : ¬ MovesBalanceOf currency entry := fun h => hmoves h.1
    rw [if_neg hmoves, if_neg hnot, add_zero]

lemma balance_foldl_applyEntry (entries : List LedgerPosting) (snap : ProjectionSnapshot) (currency : String) :
    (entries.foldl applyEntry snap).balance currency = snap.balance currency + cashFlow currency entries := by
  induction entries generalizing snap with
  | nil => simp [cashFlow]
  | cons entry entries ih =>
    rw [List.foldl_cons, ih, balance_applyEntry, cashFlow, cashFlow, netDebit_cons, add_assoc]

end ProjectionSnapshot

/-! ### The equity of a replay -/

/-- The net flow of postings into the balances of all currencies. -/
def balanceFlow (postings : List LedgerPosting) : ℚ :=
  netDebit (fun p => p.account.movesBalance = true) postings

namespace ProjectionSnapshot

/-- One balance a currency and one position a symbol. -/
structure Keyed (snap : ProjectionSnapshot) : Prop where
  balances : (snap.balances.map Prod.fst).Nodup
  positions : (snap.positions.map PositionView.symbol).Nodup

lemma weight_setBalance {snap : ProjectionSnapshot} (h : snap.Keyed) (currency : String) (total : ℚ) :
    weight Prod.snd (snap.setBalance currency total).balances =
      weight Prod.snd snap.balances + total - snap.balance currency := by
  have hrow : rowWeight Prod.fst Prod.snd currency snap.balances = snap.balance currency := by
    unfold rowWeight balance
    cases row Prod.fst currency snap.balances <;> rfl
  have hweight := weight_upsert Prod.snd h.balances (currency, total)
  rwa [hrow] at hweight

lemma applyEntry_keeps (snap : ProjectionSnapshot) (entry : LedgerPosting) :
    (applyEntry snap entry).positions = snap.positions ∧ (applyEntry snap entry).realizedPnl = snap.realizedPnl := by
  unfold applyEntry
  dsimp only
  split <;> split <;> (try split) <;> exact ⟨rfl, rfl⟩

lemma foldl_applyEntry_keeps (entries : List LedgerPosting) (snap : ProjectionSnapshot) :
    (entries.foldl applyEntry snap).positions = snap.positions ∧
      (entries.foldl applyEntry snap).realizedPnl = snap.realizedPnl := by
  induction entries generalizing snap with
  | nil => exact ⟨rfl, rfl⟩
  | cons entry entries ih =>
    obtain ⟨hpos, hpnl⟩ := applyEntry_keeps snap entry
    obtain ⟨ihpos, ihpnl⟩ := ih (applyEntry snap entry)
    rw [List.foldl_cons]
    exact ⟨ihpos.trans hpos, ihpnl.trans hpnl⟩

lemma applyEntry_balances {snap : ProjectionSnapshot} (h : snap.Keyed) (entry : LedgerPosting) :
    (applyEntry snap entry).Keyed ∧ weight Prod.snd (applyEntry snap entry).balances =
      weight Prod.snd snap.balances + if entry.account.movesBalance then entry.signed else 0 := by
  have hpositions : ((applyEntry snap entry).positions.map PositionView.symbol).Nodup := by
    rw [(applyEntry_keeps snap entry).1]
    exact h.positions
  have hfees : (applyEntry snap entry).balances = (if entry.account.movesBalance then
      (match entry.direction with
        | .debit => snap.setBalance entry.currency (snap.balance entry.currency + entry.amount)
        | .credit => snap.setBalance entry.currency (snap.balance entry.currency - entry.amount))
      else snap).balances := by
    unfold applyEntry
    dsimp only
    split <;> rfl
  by_cases hmoves : entry.account.movesBalance
  · rw [if_pos hmoves] at hfees ⊢
    cases hd : entry.direction with
    | debit =>
      rw [hd] at hfees
      refine ⟨⟨by rw [hfees]; exact nodup_upsert h.balances _, hpositions⟩, ?_⟩
      rw [hfees, weight_setBalance h, LedgerPosting.signed, hd]
      ring
    | credit =>
      rw [hd] at hfees
      refine ⟨⟨by rw [hfees]; exact nodup_upsert h.balances _, hpositions⟩, ?_⟩
      rw [hfees, weight_setBalance h, LedgerPosting.signed, hd]
      ring
  · rw [if_neg hmoves] at hfees ⊢
    exact ⟨⟨by rw [hfees]; exact h.balances, hpositions⟩, by rw [hfees, add_zero]⟩

lemma foldl_applyEntry (entries : List LedgerPosting) {snap : ProjectionSnapshot} (h : snap.Keyed) :
    (entries.foldl applyEntry snap).Keyed ∧
      weight Prod.snd (entries.foldl applyEntry snap).balances = weight Prod.snd snap.balances + balanceFlow entries ∧
      (entries.foldl applyEntry snap).positions = snap.positions ∧
      (entries.foldl applyEntry snap).realizedPnl = snap.realizedPnl := by
  induction entries generalizing snap with
  | nil => simp [h, balanceFlow]
  | cons entry entries ih =>
    obtain ⟨hkeyed, hweight⟩ := applyEntry_balances h entry
    obtain ⟨ihkeyed, ihweight, -⟩ := ih hkeyed
    refine ⟨ihkeyed, ?_, foldl_applyEntry_keeps (entry :: entries) snap⟩
    rw [List.foldl_cons, ihweight, hweight, balanceFlow, balanceFlow, netDebit_cons, add_assoc]

end ProjectionSnapshot

/-! ### One transaction -/

lemma applyTransaction_trade {t : LedgerTransaction} {m : TradeMetadata} (ht : t.entryType = .trade)
    (hm : t.metadata = .trade m) (snap : ProjectionSnapshot) :
    applyTransaction snap t = applyTrade (t.entries.foldl applyEntry snap) m := by
  unfold applyTransaction
  rw [ht, hm]

lemma applyTransaction_other {t : LedgerTransaction} (ht : t.entryType ≠ .trade) (snap : ProjectionSnapshot) :
    ∃ deposits withdrawals, applyTransaction snap t = .ok { t.entries.foldl applyEntry snap with
      totalDeposits := deposits, totalWithdrawals := withdrawals } := by
  unfold applyTransaction
  cases h : t.entryType with
  | trade => exact absurd h ht
  | _ => exact ⟨_, _, rfl⟩

lemma applyTransactions_untraded {ledger : Ledger} (h : ∀ t ∈ ledger, t.entryType ≠ .trade) (snap : ProjectionSnapshot) :
    ∃ snap', applyTransactions snap ledger = .ok snap' ∧ snap'.positions = snap.positions ∧
      snap'.realizedPnl = snap.realizedPnl := by
  induction ledger generalizing snap with
  | nil => exact ⟨snap, rfl, rfl, rfl⟩
  | cons t ledger ih =>
    obtain ⟨deposits, withdrawals, hother⟩ := applyTransaction_other (h t (by simp)) snap
    obtain ⟨hpos, hpnl⟩ := ProjectionSnapshot.foldl_applyEntry_keeps t.entries snap
    obtain ⟨snap', hrest, hpos', hpnl'⟩ := ih (fun t' ht' => h t' (List.mem_cons_of_mem _ ht'))
      { t.entries.foldl applyEntry snap with totalDeposits := deposits, totalWithdrawals := withdrawals }
    rw [applyTransactions, hother]
    exact ⟨snap', hrest, hpos'.trans hpos, hpnl'.trans hpnl⟩

/-! ### Replays of a longer ledger -/

lemma applyTransactions_append (snap : ProjectionSnapshot) (ledger ledger' : Ledger) :
    applyTransactions snap (ledger ++ ledger') =
      match applyTransactions snap ledger with
      | .ok snap' => applyTransactions snap' ledger'
      | .error e => .error e := by
  induction ledger generalizing snap with
  | nil => rfl
  | cons t ledger ih =>
    rw [List.cons_append, applyTransactions, applyTransactions]
    cases applyTransaction snap t with
    | error e => rfl
    | ok snap' => exact ih snap'

lemma applyTransactions_single (snap : ProjectionSnapshot) (t : LedgerTransaction) :
    applyTransactions snap [t] = applyTransaction snap t := by
  unfold applyTransactions
  cases applyTransaction snap t <;> rfl

lemma applyTransactions_invariant {I : ProjectionSnapshot → Prop} {W : LedgerTransaction → Prop}
    (hstep : ∀ snap t snap', I snap → W t → applyTransaction snap t = .ok snap' → I snap') {ledger : Ledger}
    (hw : ∀ t ∈ ledger, W t) {snap snap' : ProjectionSnapshot} (hs : I snap)
    (h : applyTransactions snap ledger = .ok snap') : I snap' := by
  induction ledger generalizing snap with
  | nil =>
    rw [applyTransactions, Except.ok.injEq] at h
    rwa [← h]
  | cons t ledger ih =>
    rw [applyTransactions] at h
    cases ht : applyTransaction snap t with
    | error e => simp [ht] at h
    | ok next =>
      rw [ht] at h
      exact ih (fun t' ht' => hw t' (List.mem_cons_of_mem _ ht')) (hstep snap t next hs (hw t (by simp)) ht) h

/-- A ledger that replays goes on replaying with the transactions in scope that follow. -/
lemma replayProjections_scoped {initialBalances : Balances} {ledger : Ledger} {types : List LedgerEntryType}
    {snap : ProjectionSnapshot} (h : replayProjections initialBalances ledger types = .ok snap) (ledger' : Ledger) :
    replayProjections initialBalances (ledger ++ ledger') types =
      applyTransactions snap (ledger'.filter (fun t => t.entryType ∉ types)) := by
  unfold replayProjections at h ⊢
  rw [List.filter_append, applyTransactions_append, h]

lemma replayProjections_append {initialBalances : Balances} {ledger : Ledger} {snap : ProjectionSnapshot}
    (h : replayProjections initialBalances ledger = .ok snap) (ledger' : Ledger) :
    replayProjections initialBalances (ledger ++ ledger') = applyTransactions snap ledger' := by
  rw [replayProjections_scoped h]
  simp

/-! ### Replays from other balances -/

/-- The snapshots differ in their balances only, and there by `shift`. -/
structure ProjectionSnapshot.ShiftedTo (shift : String → ℚ) (snap snap' : ProjectionSnapshot) : Prop where
  positions : snap'.positions = snap.positions
  realizedPnl : snap'.realizedPnl = snap.realizedPnl
  balance : ∀ currency, snap'.balance currency = snap.balance currency + shift currency

section Shifted

variable {shift : String → ℚ} {snap snap' : ProjectionSnapshot}

lemma ProjectionSnapshot.ShiftedTo.entries (h : snap.ShiftedTo shift snap') (entries : List LedgerPosting) :
    (entries.foldl applyEntry snap).ShiftedTo shift (entries.foldl applyEntry snap') := by
  induction entries generalizing snap snap' with
  | nil => exact h
  | cons entry entries ih =>
    apply ih
    obtain ⟨hpos, hpnl⟩ := ProjectionSnapshot.applyEntry_keeps snap entry
    obtain ⟨hpos', hpnl'⟩ := ProjectionSnapshot.applyEntry_keeps snap' entry
    refine ⟨by rw [hpos, hpos', h.positions], by rw [hpnl, hpnl', h.realizedPnl], fun currency => ?_⟩
    rw [ProjectionSnapshot.balance_applyEntry, ProjectionSnapshot.balance_applyEntry, h.balance]
    ring

lemma ProjectionSnapshot.ShiftedTo.trade (h : snap.ShiftedTo shift snap') (m : TradeMetadata) :
    (∃ e, applyTrade snap m = .error e ∧ applyTrade snap' m = .error e) ∨
      ∃ next next', applyTrade snap m = .ok next ∧ applyTrade snap' m = .ok next' ∧ next.ShiftedTo shift next' := by
  have hopen : openPosition snap' m = openPosition snap m := by
    unfold openPosition ProjectionSnapshot.position
    rw [h.positions]
  unfold applyTrade
  rw [hopen]
  cases m.side with
  | buy => exact .inr ⟨_, _, rfl, rfl, by rw [h.positions], h.realizedPnl, h.balance⟩
  | sell =>
    dsimp only
    by_cases hover : (openPosition snap m).quantity < m.quantity
    · rw [if_pos hover, if_pos hover]
      exact .inl ⟨_, rfl, rfl⟩
    · rw [if_neg hover, if_neg hover]
      exact .inr ⟨_, _, rfl, rfl, by rw [h.positions], by rw [h.realizedPnl], h.balance⟩

lemma ProjectionSnapshot.ShiftedTo.transaction (h : snap.ShiftedTo shift snap') (t : LedgerTransaction) :
    (∃ e, applyTransaction snap t = .error e ∧ applyTransaction snap' t = .error e) ∨
      ∃ next next', applyTransaction snap t = .ok next ∧ applyTransaction snap' t = .ok next' ∧
        next.ShiftedTo shift next' := by
  have hentries := h.entries t.entries
  unfold applyTransaction
  cases t.entryType with
  | trade =>
    cases t.metadata with
    | trade m => exact hentries.trade m
    | _ => exact .inl ⟨_, rfl, rfl⟩
  | _ => exact .inr ⟨_, _, rfl, rfl, hentries.positions, hentries.realizedPnl, hentries.balance⟩

/-- Two replays that start from other balances raise alike, or end a shift apart. -/
lemma ProjectionSnapshot.ShiftedTo.transactions (h : snap.ShiftedTo shift snap') (ledger : Ledger) :
    (∃ e, applyTransactions snap ledger = .error e ∧ applyTransactions snap' ledger = .error e) ∨
      ∃ next next', applyTransactions snap ledger = .ok next ∧ applyTransactions snap' ledger = .ok next' ∧
        next.ShiftedTo shift next' := by
  induction ledger generalizing snap snap' with
  | nil => exact .inr ⟨snap, snap', rfl, rfl, h⟩
  | cons t ledger ih =>
    rw [applyTransactions, applyTransactions]
    rcases h.transaction t with ⟨e, he, he'⟩ | ⟨next, next', hn, hn', hshift⟩
    · rw [he, he']
      exact .inl ⟨e, rfl, rfl⟩
    · rw [hn, hn']
      exact ih hshift

end Shifted

/-- The total of a currency in the balances a replay starts from. -/
def Balances.total (balances : Balances) (currency : String) : ℚ :=
  ProjectionSnapshot.balance { balances } currency

/-- A replay from other balances differs from the replay of the ledger alone by these. -/
lemma replayProjections_shifted (initialBalances : Balances) (ledger : Ledger) :
    (∃ e, replayProjections [] ledger = .error e ∧ replayProjections initialBalances ledger = .error e) ∨
      ∃ snap snap', replayProjections [] ledger = .ok snap ∧ replayProjections initialBalances ledger = .ok snap' ∧
        snap.ShiftedTo initialBalances.total snap' := by
  have hstart : ProjectionSnapshot.ShiftedTo initialBalances.total {} { balances := initialBalances } := by
    refine ⟨rfl, rfl, fun currency => ?_⟩
    have hnone : ProjectionSnapshot.balance {} currency = 0 := rfl
    rw [hnone, zero_add, Balances.total]
  exact hstart.transactions _

end CryptoTrader
