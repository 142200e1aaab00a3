import CryptoTrader.Lib.AverageCost
import CryptoTrader.Runtime.SpotPositions

/-!
# The spot account

What fills do to an account with balances and holdings at average cost, whoever keeps it. A
settlement in the ledger does this to the account that the replay shows.
-/

namespace CryptoTrader

open KeyedTable AverageCost

/-- The currency a fill is paid in. -/
def Fill.quote (fill : Fill) : String :=
  orElseNew fill.feeCurrency "USDT"

/-- What a fill brings in that currency. -/
def Fill.cash (fill : Fill) : ℚ :=
  match fill.side with
  | .buy => -(fill.price * fill.quantity + fill.fee)
  | .sell => fill.price * fill.quantity - fill.fee

def Fill.trade (fill : Fill) (h : AverageCost.Holding ℚ) : AverageCost.Holding ℚ :=
  match fill.side with
  | .buy => h.buy fill.quantity fill.price
  | .sell => h.sell fill.quantity

/-- Balances by currency, and the holdings of the symbols there was a trade in. -/
structure SpotView where
  balance : String → ℚ
  holding : String → Option (AverageCost.Holding ℚ)

namespace SpotView

variable (view : SpotView)

def held (symbol : String) : AverageCost.Holding ℚ :=
  (view.holding symbol).getD .empty

def settle (fill : Fill) : SpotView where
  balance currency := view.balance currency + if currency = fill.quote then fill.cash else 0
  holding symbol := if symbol = fill.symbol then some (fill.trade (view.held symbol)) else view.holding symbol

/-- A fill at a price that is not negative, of no more than is held. -/
structure Settleable (fill : Fill) : Prop where
  price : 0 ≤ fill.price
  quantity : 0 ≤ fill.quantity
  held : fill.side = .sell → fill.quantity ≤ (view.held fill.symbol).quantity

/-- No holding is short. -/
def Long : Prop :=
  ∀ symbol, (view.held symbol).Long

variable {view} {fill : Fill}

lemma held_settle (symbol : String) :
    (view.settle fill).held symbol = if symbol = fill.symbol then fill.trade (view.held symbol) else view.held symbol := by
  unfold held settle
  dsimp only
  by_cases h : symbol = fill.symbol
  · rw [if_pos h, if_pos h]
    rfl
  · rw [if_neg h, if_neg h]

lemma Long.trade (h : view.Long) (hf : view.Settleable fill) : (fill.trade (view.held fill.symbol)).Long := by
  unfold Fill.trade
  cases hside : fill.side with
  | buy => exact (h fill.symbol).buy hf.quantity hf.price
  | sell => exact (h fill.symbol).sell (hf.held hside)

lemma Long.settle (h : view.Long) (hf : view.Settleable fill) : (view.settle fill).Long := by
  intro symbol
  rw [held_settle]
  by_cases hs : symbol = fill.symbol
  · rw [if_pos hs, hs]
    exact h.trade hf
  · rw [if_neg hs]
    exact h symbol

end SpotView

/-! ### Positions -/

/-- The position is the holding, at its average entry price. -/
structure PositionView.Carries (pos : PositionView) (h : AverageCost.Holding ℚ) : Prop where
  quantity : pos.quantity = h.quantity
  cost : pos.costBasis = h.cost
  average : pos.avgEntryPrice.getD 0 = h.average

section Positions

variable {pos : PositionView} {h : AverageCost.Holding ℚ} {quantity price : ℚ}

lemma PositionView.Carries.bought (hc : pos.Carries h) (hl : h.Long) (hquantity : 0 ≤ quantity) :
    (boughtPosition pos quantity (price * quantity)).Carries (h.buy quantity price) := by
  unfold boughtPosition
  dsimp only
  rw [hc.quantity, hc.cost]
  refine ⟨rfl, rfl, ?_⟩
  unfold AverageCost.Holding.average AverageCost.Holding.buy
  dsimp only
  by_cases hpos : 0 < h.quantity + quantity
  · rw [if_pos hpos, Option.getD_some]
  · have hzero : h.quantity + quantity = 0 := le_antisymm (not_lt.mp hpos) (add_nonneg hl.quantity hquantity)
    rw [if_neg hpos, hzero, div_zero, Option.getD_none]

/-- The cost that a sale leaves, clamped at zero, and zero of a closed position. -/
lemma clampedCost_eq (hl : h.Long) (hle : quantity ≤ h.quantity) :
    (if h.quantity - quantity = 0 then 0 else max (h.cost - h.average * quantity) 0) = (h.sell quantity).cost := by
  by_cases hzero : h.quantity - quantity = 0
  · rw [if_pos hzero, (hl.sell hle).flat hzero]
  · rw [if_neg hzero]
    exact max_eq_left (hl.sell hle).cost

lemma PositionView.Carries.sold (hc : pos.Carries h) (hl : h.Long) (hle : quantity ≤ h.quantity) (gross : ℚ) :
    (soldPosition pos quantity gross).Carries (h.sell quantity) := by
  have hcost := clampedCost_eq hl hle
  have hleft : 0 ≤ h.quantity - quantity := sub_nonneg.mpr hle
  unfold soldPosition
  dsimp only
  rw [hc.quantity, hc.cost, hc.average]
  refine ⟨rfl, hcost, ?_⟩
  have haverage : (h.sell quantity).average = (h.sell quantity).cost / (h.quantity - quantity) := rfl
  rw [haverage]
  by_cases hzero : h.quantity - quantity = 0
  · rw [if_pos hzero, hzero, div_zero, Option.getD_none]
  · rw [if_neg hzero] at hcost
    rw [if_neg hzero, if_pos (lt_of_le_of_ne hleft (Ne.symm hzero)), Option.getD_some, hcost]

lemma carries_empty (symbol base quote : String) :
    PositionView.Carries { symbol := symbol, baseAsset := base, quoteAsset := quote } .empty :=
  ⟨rfl, rfl, by simp [AverageCost.Holding.average, AverageCost.Holding.empty]⟩

end Positions

/-! ### The replay of the ledger -/

/-- The replay has these balances and holdings, and names base assets by their symbols. -/
structure Shows (snap : ProjectionSnapshot) (view : SpotView) : Prop where
  balance : ∀ currency, snap.balance currency = view.balance currency
  untraded : ∀ symbol, snap.position symbol = none → view.holding symbol = none
  carries : ∀ symbol pos, snap.position symbol = some pos → ∃ h, view.holding symbol = some h ∧ pos.Carries h
  base : ∀ symbol pos, snap.position symbol = some pos → pos.baseAsset = symbol.replace "USDT" ""

lemma cashFlow_buy (symbol quote : String) (gross fee : ℚ) (currency : String) :
    cashFlow currency (buyPostings symbol quote gross fee) = if currency = quote then -(gross + fee) else 0 := by
  simp only [cashFlow, buyPostings, netDebit_cons, netDebit_nil]
  simp [MovesBalanceOf, LedgerAccount.movesBalance, LedgerPosting.signed, eq_comm]

lemma cashFlow_sell (symbol quote : String) (gross fee cost : ℚ) (currency : String) :
    cashFlow currency (sellPostings symbol quote gross fee cost) = if currency = quote then gross - fee else 0 := by
  have hrealized : cashFlow currency (realizedPostings quote (gross - cost)) = 0 := by
    unfold realizedPostings cashFlow
    split
    · simp [MovesBalanceOf, LedgerAccount.movesBalance]
    · split
      · simp [MovesBalanceOf, LedgerAccount.movesBalance]
      · rfl
  unfold cashFlow at *
  rw [sellPostings, netDebit_append, netDebit_append, hrealized]
  by_cases hc : currency = quote
  · simp only [netDebit_cons, netDebit_nil]
    simp [MovesBalanceOf, LedgerAccount.movesBalance, LedgerPosting.signed, hc, sub_eq_add_neg]
  · simp only [netDebit_cons, netDebit_nil]
    simp [MovesBalanceOf, LedgerAccount.movesBalance, hc, Ne.symm hc]

section Settlements

variable {order : Order} {fill : Fill} {cost : ℚ} {t : LedgerTransaction} {m : TradeMetadata} {snap : ProjectionSnapshot}
  {view : SpotView}

lemma TradeOf.cashFlow (h : TradeOf order fill cost t m) (hside : order.side = fill.side) (currency : String) :
    cashFlow currency t.entries = if currency = fill.quote then fill.cash else 0 := by
  rw [h.entries, hside]
  unfold Fill.cash
  cases fill.side with
  | buy => exact cashFlow_buy _ _ _ _ _
  | sell => exact cashFlow_sell _ _ _ _ _ _

lemma TradeOf.balances_ne_nil (h : TradeOf order fill cost t m) (snap : ProjectionSnapshot) :
    (t.entries.foldl applyEntry snap).balances ≠ [] := by
  have hcash (s : ProjectionSnapshot) (p : LedgerPosting) (hp : p.account = .cash) (hd : p.direction = .credit) :
      (applyEntry s p).balances ≠ [] := by
    intro hempty
    have hrow := row_upsert_self Prod.fst (p.currency, s.balance p.currency - p.amount) s.balances
    rw [show upsert Prod.fst (p.currency, s.balance p.currency - p.amount) s.balances = (applyEntry s p).balances by
      simp [applyEntry, hp, hd, LedgerAccount.movesBalance, ProjectionSnapshot.setBalance], hempty] at hrow
    simp [row] at hrow
  rw [h.entries]
  cases order.side with
  | buy => exact hcash _ ⟨.cash, .credit, _, _⟩ rfl rfl
  | sell =>
    dsimp only
    rw [sellPostings, List.foldl_append]
    exact hcash _ ⟨.cash, .credit, _, _⟩ rfl rfl

lemma Shows.openPosition (h : Shows snap view) (ht : TradeOf order fill cost t m) (hsymbol : order.symbol = fill.symbol) :
    (CryptoTrader.openPosition snap m).Carries (view.held fill.symbol) ∧
      (CryptoTrader.openPosition snap m).baseAsset = fill.symbol.replace "USDT" "" := by
  have hm : m.symbol = fill.symbol := ht.symbol.trans hsymbol
  unfold CryptoTrader.openPosition SpotView.held
  rw [hm]
  cases hpos : snap.position fill.symbol with
  | none =>
    rw [h.untraded fill.symbol hpos]
    refine ⟨carries_empty _ _ _, ?_⟩
    dsimp only
    rw [ht.baseAsset, hsymbol]
    rfl
  | some pos =>
    obtain ⟨holding, hholding, hcarries⟩ := h.carries fill.symbol pos hpos
    rw [hholding]
    exact ⟨hcarries, h.base fill.symbol pos hpos⟩

lemma Shows.trade (h : Shows snap view) (hl : view.Long) (hf : view.Settleable fill) (ht : TradeOf order fill cost t m)
    (hsymbol : order.symbol = fill.symbol) (hside : order.side = fill.side) :
    ∃ snap', applyTransaction snap t = .ok snap' ∧ Shows snap' (view.settle fill) ∧ snap'.balances ≠ [] := by
  obtain ⟨hopen, hbase⟩ := h.openPosition ht hsymbol
  have hheld : snap.held order.symbol = (view.held fill.symbol).quantity := by
    rw [← ht.symbol, held_openPosition, hopen.quantity]
  obtain ⟨snap', pos, happly, hbalances, hpositions, hpos, hnew⟩ := ht.replays
    (fun hsell => (hf.held (hside ▸ hsell)).trans_eq hheld.symm)
  have hpossymbol : pos.symbol = fill.symbol := hpos.trans hsymbol
  have hcarries : pos.Carries (fill.trade (view.held fill.symbol)) ∧ pos.baseAsset = fill.symbol.replace "USDT" "" := by
    rw [hnew, hside]
    unfold Fill.trade
    cases hs : fill.side with
    | buy => exact ⟨hopen.bought (hl fill.symbol) hf.quantity, hbase⟩
    | sell => exact ⟨hopen.sold (hl fill.symbol) (hf.held hs) _, hbase⟩
  have hrow (symbol : String) : snap'.position symbol = if symbol = fill.symbol then some pos else snap.position symbol := by
    unfold ProjectionSnapshot.position
    rw [hpositions]
    by_cases hs : symbol = fill.symbol
    · rw [if_pos hs, hs, ← hpossymbol, row_upsert_self]
    · rw [if_neg hs, row_upsert_of_ne _ (by rwa [hpossymbol])]
  refine ⟨snap', happly, ⟨fun currency => ?_, fun symbol hnone => ?_, fun symbol p hp => ?_, fun symbol p hp => ?_⟩, ?_⟩
  · have hfold := ProjectionSnapshot.balance_foldl_applyEntry t.entries snap currency
    rw [ht.cashFlow hside, h.balance] at hfold
    rw [← show (t.entries.foldl applyEntry snap).balance currency = snap'.balance currency by
      unfold ProjectionSnapshot.balance; rw [hbalances]]
    exact hfold
  · rw [hrow] at hnone
    unfold SpotView.settle
    dsimp only
    by_cases hs : symbol = fill.symbol
    · simp [hs] at hnone
    · rw [if_neg hs] at hnone ⊢
      exact h.untraded symbol hnone
  · rw [hrow] at hp
    unfold SpotView.settle
    dsimp only
    by_cases hs : symbol = fill.symbol
    · rw [if_pos hs, Option.some.injEq] at hp
      rw [if_pos hs, hs, ← hp]
      exact ⟨_, rfl, hcarries.1⟩
    · rw [if_neg hs] at hp ⊢
      exact h.carries symbol p hp
  · rw [hrow] at hp
    by_cases hs : symbol = fill.symbol
    · rw [if_pos hs, Option.some.injEq] at hp
      rw [hs, ← hp]
      exact hcarries.2
    · rw [if_neg hs] at hp
      exact h.base symbol p hp
  · rw [hbalances]
    exact ht.balances_ne_nil snap

end Settlements

end CryptoTrader
