import CryptoTrader.Ledger.SpotAccounts
import CryptoTrader.Runtime.Settlement

/-!
# Persisted positions

A settlement that is not cut short persists the positions of the replay, and moves those of
its order's symbol by the quantity and the cost of the fill, unless the replay raises.
-/

namespace CryptoTrader

open KeyedTable Weights

/-- The ledger replays to this snapshot, and its positions are the persisted ones. -/
structure Replayed (books : Books) (snap : ProjectionSnapshot) : Prop where
  replay : replayProjections [] books.ledger = .ok snap
  positions : books.positions = snap.positions

lemma Replayed.unique {books : Books} {snap : ProjectionSnapshot} (h : Replayed books snap) :
    (books.positions.map PositionView.symbol).Nodup := by
  rw [h.positions]
  exact replay_unique h.replay

namespace Books

/-- The quantity of the persisted position of a symbol. -/
def held (books : Books) (symbol : String) : ℚ :=
  rowWeight PositionView.symbol PositionView.quantity symbol books.positions

/-- The cost basis of the persisted position of a symbol. -/
def costOf (books : Books) (symbol : String) : ℚ :=
  rowWeight PositionView.symbol PositionView.costBasis symbol books.positions

end Books

section Settlements

variable {ctx : SettleContext} {fill : Fill} {books : Books}
  {snap snap' : ProjectionSnapshot}

lemma Replayed.refresh (h : Replayed books snap) {t : LedgerTransaction} (happly : applyTransaction snap t = .ok snap')
    (initialBalances : Balances) :
    Replayed ({ books with ledger := books.ledger ++ [t] }.refresh initialBalances).2 snap' := by
  have halone : replayProjections [] (books.ledger ++ [t]) = .ok snap' := by
    rw [replayProjections_append h.replay, applyTransactions_single, happly]
  rcases replayProjections_shifted initialBalances (books.ledger ++ [t]) with ⟨e, he, -⟩ | ⟨alone, shifted, hal, hsh, hshift⟩
  · rw [halone] at he
    exact absurd he (by simp)
  · obtain rfl : snap' = alone := Except.ok.inj (halone.symm.trans hal)
    unfold Books.refresh
    simp only [hsh]
    exact ⟨halone, hshift.positions⟩

/-- A settlement that is not cut short passes the fill over, or settles it with a trade. If
the trade replays, its positions are persisted. -/
lemma Replayed.settle (h : Replayed books snap) (quarantined : List String) (s : OrderStore) (hfresh : ctx.Fresh) (huncut : ctx.interruption fill = none) :
    ((settleFill quarantined ctx s fill books).2 = books ∧ ∀ order, ¬ Settles quarantined s fill order) ∨
      ∃ order t m, Settles quarantined s fill order ∧ TradeOf order fill (releasedCost order fill books) t m ∧
        ∀ snap', applyTransaction snap t = .ok snap' →
          Replayed (settleFill quarantined ctx s fill books).2 snap' ∧
            (settleFill quarantined ctx s fill books).2.ledger = books.ledger ++ [t] := by
  rcases settleFill_cases quarantined hfresh s fill books with ⟨hskip, hnone⟩ | ⟨order, t, m, hsettles, ht, hrun⟩
  · exact .inl ⟨by rw [hskip], hnone⟩
  · rw [huncut] at hrun
    refine .inr ⟨order, t, m, hsettles, ht, fun snap' happly => ?_⟩
    rw [hrun]
    exact ⟨h.refresh happly ctx.initialBalances, Books.refresh_ledger _ _⟩

end Settlements

/-! ### One trade -/

section Trades

variable {order : Order} {fill : Fill} {cost : ℚ} {t : LedgerTransaction} {m : TradeMetadata} {snap : ProjectionSnapshot}

/-- The quantity that a snapshot holds of a symbol. -/
def ProjectionSnapshot.held (snap : ProjectionSnapshot) (symbol : String) : ℚ :=
  rowWeight PositionView.symbol PositionView.quantity symbol snap.positions

lemma held_openPosition (snap : ProjectionSnapshot) (m : TradeMetadata) :
    snap.held m.symbol = (openPosition snap m).quantity := by
  unfold ProjectionSnapshot.held rowWeight openPosition ProjectionSnapshot.position
  cases row PositionView.symbol m.symbol snap.positions <;> rfl

/-- A trade that does not sell more than is held replays: its entries move the balances, and
its position is rewritten. -/
lemma TradeOf.replays (h : TradeOf order fill cost t m) (hroom : order.side = .sell → fill.quantity ≤ snap.held order.symbol) :
    ∃ snap' pos, applyTransaction snap t = .ok snap' ∧ snap'.balances = (t.entries.foldl applyEntry snap).balances ∧
      snap'.positions = upsert PositionView.symbol pos snap.positions ∧ pos.symbol = order.symbol ∧ pos = match order.side with
        | .buy => boughtPosition (openPosition snap m) fill.quantity (fill.price * fill.quantity)
        | .sell => soldPosition (openPosition snap m) fill.quantity (fill.price * fill.quantity) := by
  have hpositions := (ProjectionSnapshot.foldl_applyEntry_keeps t.entries snap).1
  have hopen := openPosition_congr hpositions m
  have hsymbol : (openPosition snap m).symbol = order.symbol := (openPosition_symbol snap m).trans h.symbol
  rw [applyTransaction_trade h.settled.1 h.metadata]
  unfold applyTrade
  rw [hopen, h.side, h.quantity, h.price, hpositions]
  cases hside : order.side with
  | buy => exact ⟨_, _, rfl, rfl, rfl, hsymbol, rfl⟩
  | sell =>
    have hle := hroom hside
    rw [← h.symbol, held_openPosition] at hle
    dsimp only
    rw [if_neg (not_lt.mpr hle)]
    exact ⟨_, _, rfl, rfl, rfl, hsymbol, rfl⟩

end Trades

/-- A settlement that is not cut short passes the fill over, or writes the position of its
symbol. -/
lemma Replayed.settle_writes {ctx : SettleContext} {s : OrderStore} {fill : Fill} {books : Books}
    {snap : ProjectionSnapshot} (h : Replayed books snap) (quarantined : List String) (hfresh : ctx.Fresh)
    (huncut : ctx.interruption fill = none)
    (horder : ∀ order, s.get fill.orderId = some order → order.symbol = fill.symbol ∧ order.side = fill.side)
    (hroom : fill.side = .sell → fill.quantity ≤ books.held fill.symbol) :
    let books' := (settleFill quarantined ctx s fill books).2
    ∃ snap', Replayed books' snap' ∧ (books' = books ∨ ∃ t m pos, books'.ledger = books.ledger ++ [t] ∧
      t.metadata = .trade m ∧ books'.positions = upsert PositionView.symbol pos books.positions ∧
      pos.symbol = fill.symbol ∧ pos.quantity = books.held fill.symbol + fill.signed ∧
      (fill.side = .buy → pos.costBasis = books.costOf fill.symbol + fill.price * fill.quantity)) := by
  intro books'
  rcases h.settle quarantined s hfresh huncut with
    ⟨hsame, -⟩ | ⟨order, t, m, hsettles, ht, hreplays⟩
  · exact ⟨snap, by rwa [show books' = books from hsame], .inl hsame⟩
  · obtain ⟨hsymbol, hside⟩ := horder order hsettles.order
    have hheld : books.held fill.symbol = snap.held order.symbol := by
      rw [Books.held, ProjectionSnapshot.held, h.positions, hsymbol]
    have hroom' : order.side = .sell → fill.quantity ≤ snap.held order.symbol := by
      rw [hside, ← hheld]
      exact hroom
    obtain ⟨snap', pos, happly, -, hpositions, hpos, hnew⟩ := ht.replays hroom'
    obtain ⟨hreplayed, hledger⟩ := hreplays snap' happly
    have hopen : (openPosition snap m).quantity = books.held fill.symbol := by
      rw [hheld, ← held_openPosition, ht.symbol]
    have hbasis : (openPosition snap m).costBasis = books.costOf fill.symbol := by
      rw [Books.costOf, h.positions, ← hsymbol, ← ht.symbol]
      exact (rowWeight_openPosition snap m).symm
    refine ⟨snap', hreplayed, .inr ⟨t, m, pos, hledger, ht.metadata, ?_, hpos.trans hsymbol, ?_, fun hbuy => ?_⟩⟩
    · rw [hreplayed.positions, hpositions, h.positions]
    · rw [hnew, Fill.signed, ← hside, ← hopen]
      cases order.side with
      | buy => rfl
      | sell => exact sub_eq_add_neg _ _
    · rw [hnew, hside, hbuy, ← hbasis]
      rfl

end CryptoTrader
