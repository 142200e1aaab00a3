import CryptoTrader.Perpetual.Pnl

/-!
# Signed quantities

What the calls of the paper engine do to the signed quantities of the replay, and the
futures ledgers that calls of any engines and other writes of the ledger service reach:
there every position has the sign of its side.
-/

namespace CryptoTrader

open KeyedTable Runs FuturesSnapshot

section Positions

variable {contract : PerpetualContract} {ledger : Ledger} (orderId : Option String) (id : String)

lemma position_opened (hs : contract.symbol ≠ "") (side : PositionSide) (qty price leverage : ℚ) (symbol : String) :
    (rebuildFuturesProjection (ledger ++ [openTransaction contract side qty price leverage orderId id])).position symbol =
      if symbol = contract.symbol then
        some (openedPosition ((rebuildFuturesProjection ledger).position contract.symbol) contract.symbol side qty price
          (effectiveLeverage leverage contract.maxLeverage) (postedMargin contract qty price leverage))
      else (rebuildFuturesProjection ledger).position symbol := by
  rw [rebuildFuturesProjection_append, applyTxn_open _ _ _ _ _ _ _ hs]
  by_cases h : symbol = contract.symbol
  · rw [if_pos h, h]
    exact position_applyOpen _ _ _ _ _ _ _
  · rw [if_neg h]
    exact position_applyOpen_of_ne _ _ _ _ _ _ h

lemma position_closed {pos : MarginPosition} (hpos : (rebuildFuturesProjection ledger).position contract.symbol = some pos)
    (side : PositionSide) (qty entryPrice exitPrice realizedPnl fee marginRelease : ℚ) (symbol : String) :
    (rebuildFuturesProjection (ledger ++ [closeTransaction contract side qty entryPrice exitPrice realizedPnl fee
        marginRelease orderId id])).position symbol =
      if symbol = contract.symbol then
        if |pos.quantity| - qty ≤ 0 then none else some (reducedPosition pos qty marginRelease)
      else (rebuildFuturesProjection ledger).position symbol := by
  have hs : contract.symbol ≠ "" := fun hempty => by simp [hempty, rebuildFuturesProjection_nameless] at hpos
  rw [rebuildFuturesProjection_append, applyTxn_close _ _ _ _ _ _ _ _ _ _ hs]
  by_cases h : symbol = contract.symbol
  · rw [if_pos h, h]
    exact position_applyClose hpos _ _ _
  · rw [if_neg h]
    exact position_applyClose_of_ne _ _ _ _ h

/-- An open moves the quantity by what it opens, whatever it adds to or nets. -/
lemma openedPosition_quantity {old : Option MarginPosition} (hsigned : ∀ pos, old = some pos → pos.Signed)
    (symbol : String) {side : PositionSide} (hside : side ≠ .flat) (qty entry lev margin : ℚ) :
    (openedPosition old symbol side qty entry lev margin).quantity =
      old.elim 0 MarginPosition.quantity + signedQty side qty := by
  cases old with
  | none => simp [openedPosition]
  | some pos =>
    have hpos := hsigned pos rfl
    rw [Option.elim_some]
    by_cases hflat : pos.isFlat
    · simp only [openedPosition, hflat, if_true]
      rw [hpos.flat_quantity hflat, zero_add]
    · have hq : pos.quantity = signedQty pos.side |pos.quantity| := hpos.quantity_eq
      by_cases hsame : pos.side = side
      · simp only [openedPosition, hflat, hsame, if_true, addToPosition, Bool.false_eq_true, if_false]
        rw [signedQty_add, ← hsame, ← hq]
      · have hflip (x : ℚ) : signedQty side x = -signedQty pos.side x :=
          signedQty_neg_of_ne hside (MarginPosition.side_ne_flat hflat).1 hsame x
        simp only [openedPosition, hflat, hsame, if_false, Bool.false_eq_true, netPosition]
        by_cases hle : |pos.quantity| ≤ qty
        · rw [if_pos hle]
          by_cases hzero : qty - |pos.quantity| = 0
          · have heq : qty = |pos.quantity| := sub_eq_zero.mp hzero
            rw [if_pos hzero, hflip, heq, ← hq]
            ring
          · rw [if_neg hzero]
            dsimp only
            rw [hflip, hflip, signedQty_sub, ← hq]
            ring
        · rw [if_neg hle]
          dsimp only
          rw [hflip, signedQty_sub, ← hq]
          ring

lemma quantity_opened (hs : contract.symbol ≠ "") (hsigned : SignedAt contract.symbol ledger) {side : PositionSide}
    (hside : side ≠ .flat) (qty price leverage : ℚ) (symbol : String) :
    (rebuildFuturesProjection (ledger ++ [openTransaction contract side qty price leverage orderId id])).quantity symbol =
      (rebuildFuturesProjection ledger).quantity symbol + if symbol = contract.symbol then signedQty side qty else 0 := by
  unfold FuturesSnapshot.quantity
  rw [position_opened orderId id hs]
  by_cases h : symbol = contract.symbol
  · rw [if_pos h, if_pos h, h]
    exact openedPosition_quantity hsigned contract.symbol hside _ _ _ _
  · rw [if_neg h, if_neg h, add_zero]

lemma quantity_closed {pos : MarginPosition} (hpos : (rebuildFuturesProjection ledger).position contract.symbol = some pos)
    (hsigned : pos.Signed) {qty : ℚ} (hle : qty ≤ |pos.quantity|) (entryPrice exitPrice realizedPnl fee marginRelease : ℚ)
    (symbol : String) :
    (rebuildFuturesProjection (ledger ++ [closeTransaction contract pos.side qty entryPrice exitPrice realizedPnl fee
        marginRelease orderId id])).quantity symbol =
      (rebuildFuturesProjection ledger).quantity symbol - if symbol = contract.symbol then signedQty pos.side qty else 0 := by
  unfold FuturesSnapshot.quantity
  rw [position_closed orderId id hpos]
  by_cases h : symbol = contract.symbol
  · rw [if_pos h, if_pos h, h, hpos, Option.elim_some]
    have hq : pos.quantity = signedQty pos.side |pos.quantity| := hsigned.quantity_eq
    by_cases hfull : |pos.quantity| - qty ≤ 0
    · have heq : qty = |pos.quantity| := le_antisymm hle (sub_nonpos.mp hfull)
      rw [if_pos hfull, heq, ← hq, sub_self]
      rfl
    · rw [if_neg hfull, Option.elim_some]
      unfold reducedPosition
      dsimp only
      rw [signedQty_sub, ← hq]
  · rw [if_neg h, if_neg h, sub_zero]

end Positions

lemma rebuildFuturesProjection_unique (ledger : Ledger) :
    ((rebuildFuturesProjection ledger).positions.map MarginPosition.symbol).Nodup := by
  have hfold : ∀ snap : FuturesSnapshot, (snap.positions.map MarginPosition.symbol).Nodup →
      ((ledger.foldl applyTxn snap).positions.map MarginPosition.symbol).Nodup := by
    induction ledger with
    | nil => exact fun _ h => h
    | cons t ledger ih =>
      intro snap h
      apply ih
      have hfees : ((t.entries.foldl applyFee snap).positions.map MarginPosition.symbol).Nodup := by
        rwa [positions_fees]
      unfold applyTxn
      split
      · cases hm : t.metadata with
        | futuresOpen => exact nodup_upsert hfees _
        | futuresClose symbol side qty entry exit realizedPnl fee marginRelease =>
          dsimp only
          unfold applyClose
          cases (t.entries.foldl applyFee snap).position symbol with
          | none => exact hfees
          | some pos =>
            dsimp only
            split
            · exact nodup_filter hfees _
            · rwa [map_key_put]
        | _ =>
          dsimp only
          split
          · rwa [positions_funding]
          · exact hfees
      · exact h
  exact hfold {} (by simp)

/-! ### Reachable futures ledgers -/

/-- A write to the ledger: a call of a paper engine, or a transaction of another origin. -/
inductive FuturesWrite where
  | call (engine : PerpetualPaperEngine) (call : PerpetualCall) (minted : String)
  | other (t : LedgerTransaction)
  deriving DecidableEq, Repr

def futuresStep (ledger : Ledger) : FuturesWrite → Ledger
  | .call engine call minted => engine.perform ledger (call, minted)
  | .other t => ledger ++ [t]

/-- Only the engines open and close positions. -/
def ProperWrite (_ : Ledger) : FuturesWrite → Prop
  | .call _ _ _ => True
  | .other t => ¬ t.MovesPosition

/-- The ledger comes about by calls of the engines and other writes. -/
def ReachableFutures (ledger : Ledger) : Prop :=
  ∃ writes, Along futuresStep ProperWrite [] writes ∧ run futuresStep [] writes = ledger

/-- Positions are moved by opens and closes only. -/
lemma positions_unmoved {t : LedgerTransaction} (h : ¬ t.MovesPosition) (snap : FuturesSnapshot) :
    (snap.applyTxn t).positions = snap.positions := by
  have haction : t.metadata.action = none := not_not.mp h
  unfold FuturesSnapshot.applyTxn
  split
  · cases hm : t.metadata with
    | futuresOpen => simp [hm, LedgerMetadata.action] at haction
    | futuresClose => simp [hm, LedgerMetadata.action] at haction
    | _ =>
      dsimp only
      split <;> simp
  · rfl

/-- Every position has the sign of its side. -/
def AllSigned (ledger : Ledger) : Prop :=
  ∀ symbol, SignedAt symbol ledger

lemma AllSigned.unmoved {ledger : Ledger} (h : AllSigned ledger) {t : LedgerTransaction} (ht : ¬ t.MovesPosition) :
    AllSigned (ledger ++ [t]) := by
  intro symbol pos hpos
  rw [rebuildFuturesProjection_append, FuturesSnapshot.position, positions_unmoved ht] at hpos
  exact h symbol pos hpos

lemma AllSigned.opened {ledger : Ledger} (h : AllSigned ledger) (contract : PerpetualContract) {side : PositionSide}
    (hside : side ≠ .flat) {qty : ℚ} (hqty : 0 ≤ qty) (price leverage : ℚ) (orderId : Option String) (id : String) :
    AllSigned (ledger ++ [openTransaction contract side qty price leverage orderId id]) := by
  intro symbol pos hpos
  by_cases hs : contract.symbol = ""
  · rw [rebuildFuturesProjection_append, applyTxn_nameless _ (by simp [openTransaction, LedgerMetadata.symbol, hs])] at hpos
    exact h symbol pos hpos
  · rw [position_opened orderId id hs] at hpos
    by_cases heq : symbol = contract.symbol
    · rw [if_pos heq, Option.some.injEq] at hpos
      rw [← hpos]
      exact openedPosition_signed _ _ _ _ hside hqty
    · rw [if_neg heq] at hpos
      exact h symbol pos hpos

lemma AllSigned.closed {ledger : Ledger} (h : AllSigned ledger) {contract : PerpetualContract} {pos : MarginPosition}
    (hpos : (rebuildFuturesProjection ledger).position contract.symbol = some pos) {qty : ℚ} (hqty : 0 ≤ qty)
    (entryPrice exitPrice realizedPnl fee marginRelease : ℚ) (orderId : Option String) (id : String) :
    AllSigned (ledger ++ [closeTransaction contract pos.side qty entryPrice exitPrice realizedPnl fee marginRelease
      orderId id]) := by
  intro symbol p hp
  rw [position_closed orderId id hpos] at hp
  by_cases heq : symbol = contract.symbol
  · rw [if_pos heq] at hp
    by_cases hfull : |pos.quantity| - qty ≤ 0
    · simp [hfull] at hp
    · rw [if_neg hfull, Option.some.injEq] at hp
      rw [← hp]
      exact FuturesSnapshot.reducedPosition_signed (h contract.symbol pos hpos) hqty hfull _
  · rw [if_neg heq] at hp
    exact h symbol p hp

lemma AllSigned.perform {ledger : Ledger} (h : AllSigned ledger) (engine : PerpetualPaperEngine)
    (call : PerpetualCall × String) : AllSigned (engine.perform ledger call) := by
  rcases engine.perform_cases ledger call with hsame | ⟨t, ht, happend⟩
  · rwa [hsame]
  · rw [happend]
    generalize call.1 = c at ht
    cases ht with
    | opened quantity price leverage orderId id hside hlev => exact h.opened _ hside (abs_nonneg quantity) _ _ _ _
    | closed quantity exitPrice orderId id hpos =>
      exact h.closed hpos (le_min (abs_nonneg quantity) (abs_nonneg _)) _ _ _ _ _ _ _
    | funded rate markPrice id hpos hpay hne =>
      refine h.unmoved ?_
      simp [LedgerTransaction.MovesPosition, fundingTransaction, LedgerMetadata.action]
    | liquidated markPrice id hpos hresult hliq => exact h.closed hpos (abs_nonneg _) _ _ _ _ _ _ _

lemma ReachableFutures.allSigned {ledger : Ledger} (h : ReachableFutures ledger) : AllSigned ledger := by
  obtain ⟨writes, hproper, rfl⟩ := h
  refine run_invariant (fun ledger write hsigned hp => ?_) ?_ hproper
  · cases write with
    | call engine call minted => exact hsigned.perform engine _
    | other t => exact hsigned.unmoved hp
  · intro symbol pos hpos
    exact absurd hpos (by simp [rebuildFuturesProjection, FuturesSnapshot.position, row])

end CryptoTrader
