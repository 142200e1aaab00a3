import CryptoTrader.Perpetual.Operations
import Mathlib.Tactic.FieldSimp
import Mathlib.Tactic.Ring

/-!
# Realized profit and net cash

The profit a replay realizes against the cash value of the trades. A position carries its
cost, quantity times average entry price, and every call moves profit less carried cost by
the cash value of its trade, less the profit of what an opposite-side open nets. The
replay realizes nothing for the netted quantity.
-/

namespace CryptoTrader

open KeyedTable Runs FuturesSnapshot

namespace PerpetualPaperEngine

variable (engine : PerpetualPaperEngine)

/-- The cash value of the trade a call makes: an open that returns, a close that is executed. -/
def tradeValue (ledger : Ledger) (call : PerpetualCall × String) : ℚ :=
  match call.1 with
  | .openPosition side quantity price leverage orderId symbol =>
    if (engine.openPosition side quantity price leverage orderId symbol call.2 ledger).1.isOk then
      -(signedQty side |quantity| * price * (engine.contractOf symbol).contractSize)
    else 0
  | .closePosition side quantity exitPrice orderId symbol =>
    match (rebuildFuturesProjection ledger).position (engine.contractOf symbol).symbol with
    | none => 0
    | some pos =>
      if pos.side = side ∧ (engine.closePosition side quantity exitPrice orderId symbol call.2 ledger).1.isOk then
        signedQty side (min |quantity| |pos.quantity|) * exitPrice * (engine.contractOf symbol).contractSize
      else 0
  | _ => 0

/-- The profit that closing at the price of an open would realize on the quantity the open nets. -/
def nettedPnl (ledger : Ledger) (call : PerpetualCall × String) : ℚ :=
  match call.1 with
  | .openPosition side quantity price _ _ symbol =>
    match (rebuildFuturesProjection ledger).position (engine.contractOf symbol).symbol with
    | none => 0
    | some pos =>
      if engine.OpenRecords ledger side symbol call.2 ∧ ¬ pos.isFlat ∧ pos.side ≠ side then
        closedPnl (engine.contractOf symbol) pos (min |quantity| |pos.quantity|) price
      else 0
  | _ => 0

/-- The call opens or closes a position of the contract. -/
def TradesOn (contract : PerpetualContract) : PerpetualCall → Prop
  | .openPosition _ _ _ _ _ symbol => engine.contractOf symbol = contract
  | .closePosition _ _ _ _ symbol => engine.contractOf symbol = contract
  | _ => False

instance (contract : PerpetualContract) : DecidablePred (engine.TradesOn contract)
  | .openPosition _ _ _ _ _ symbol => inferInstanceAs (Decidable (engine.contractOf symbol = contract))
  | .closePosition _ _ _ _ symbol => inferInstanceAs (Decidable (engine.contractOf symbol = contract))
  | .applyFunding .. => .isFalse id
  | .liquidate .. => .isFalse id

end PerpetualPaperEngine

/-- The signed quantity of a symbol's position. -/
def FuturesSnapshot.quantity (snap : FuturesSnapshot) (symbol : String) : ℚ :=
  (snap.position symbol).elim 0 MarginPosition.quantity

/-- Quantity times average entry price. -/
def MarginPosition.carriedCost (pos : MarginPosition) : ℚ :=
  pos.quantity * pos.avgEntryPrice

def FuturesSnapshot.carriedCost (snap : FuturesSnapshot) (symbol : String) : ℚ :=
  (snap.position symbol).elim 0 MarginPosition.carriedCost

/-- Every position of the symbol has the sign of its side. -/
def SignedAt (symbol : String) (ledger : Ledger) : Prop :=
  ∀ pos, (rebuildFuturesProjection ledger).position symbol = some pos → pos.Signed

/-! ### The cost an open or a close leaves -/

/-- The profit of the netted part of an open, in a contract of size 1. -/
def nettedProfit (pos : MarginPosition) (qty price : ℚ) : ℚ :=
  signedQty pos.side (min qty |pos.quantity|) * (price - pos.avgEntryPrice)

lemma signedQty_neg_of_ne {side side' : PositionSide} (h : side ≠ .flat) (h' : side' ≠ .flat) (hne : side' ≠ side) (x : ℚ) :
    signedQty side x = -signedQty side' x := by
  cases side <;> cases side' <;> simp_all [signedQty]

lemma signedQty_sub (side : PositionSide) (x y : ℚ) : signedQty side (x - y) = signedQty side x - signedQty side y := by
  unfold signedQty
  split <;> ring

lemma signedQty_add (side : PositionSide) (x y : ℚ) : signedQty side (x + y) = signedQty side x + signedQty side y := by
  unfold signedQty
  split <;> ring

lemma carriedCost_add {pos : MarginPosition} (hsigned : pos.Signed) (hq : pos.quantity ≠ 0) {qty : ℚ} (hqty : 0 ≤ qty)
    (entry margin : ℚ) :
    (addToPosition pos pos.side qty entry margin).carriedCost =
      pos.carriedCost + signedQty pos.side qty * entry := by
  have hne : |pos.quantity| + qty ≠ 0 := by
    have := abs_pos.mpr hq
    positivity
  have hcost : pos.carriedCost = signedQty pos.side |pos.quantity| * pos.avgEntryPrice := by
    rw [MarginPosition.carriedCost, ← hsigned.quantity_eq]
  rw [hcost]
  unfold MarginPosition.carriedCost addToPosition
  dsimp only
  unfold signedQty
  split
  · field_simp
  · field_simp
    ring

/-- Netting a position leaves the cost of the open and drops the profit of the netted part. -/
lemma carriedCost_net {pos : MarginPosition} (hsigned : pos.Signed) (hflat : ¬ pos.isFlat) {side : PositionSide}
    (hside : side ≠ .flat) (hne : pos.side ≠ side) (qty entry margin : ℚ) :
    (netPosition pos side qty entry margin).carriedCost =
      pos.carriedCost + signedQty side qty * entry + nettedProfit pos qty entry := by
  have hposside := (MarginPosition.side_ne_flat hflat).1
  have hcost : pos.carriedCost = signedQty pos.side |pos.quantity| * pos.avgEntryPrice := by
    rw [MarginPosition.carriedCost, ← hsigned.quantity_eq]
  have hflip (x : ℚ) : signedQty side x = -signedQty pos.side x := signedQty_neg_of_ne hside hposside hne x
  rw [hcost, nettedProfit, hflip qty]
  unfold netPosition MarginPosition.carriedCost
  by_cases hle : |pos.quantity| ≤ qty
  · rw [min_eq_right hle]
    by_cases h0 : qty - |pos.quantity| = 0
    · simp only [if_pos hle, if_pos h0]
      rw [sub_eq_zero.mp h0]
      ring
    · simp only [if_pos hle, if_neg h0]
      rw [hflip, signedQty_sub]
      ring
  · rw [min_eq_left (not_le.mp hle).le]
    simp only [if_neg hle]
    rw [signedQty_sub]
    ring

/-- What an open nets, as the replay finds the position. -/
def nettedAt (old : Option MarginPosition) (side : PositionSide) (qty price : ℚ) : ℚ :=
  old.elim 0 (fun pos => if ¬ pos.isFlat ∧ pos.side ≠ side then nettedProfit pos qty price else 0)

lemma MarginPosition.Signed.flat_quantity {pos : MarginPosition} (h : pos.Signed) (hflat : pos.isFlat) :
    pos.quantity = 0 := by
  simp only [MarginPosition.isFlat, Bool.or_eq_true, decide_eq_true_eq] at hflat
  rcases hflat with hside | hq
  · simpa [MarginPosition.Signed, hside] using h
  · exact hq

/-- What is left of a position keeps its side. -/
lemma FuturesSnapshot.reducedPosition_signed {pos : MarginPosition} (hsigned : pos.Signed) {qty : ℚ} (hqty : 0 ≤ qty)
    (hleft : ¬ |pos.quantity| - qty ≤ 0) (marginRelease : ℚ) : (reducedPosition pos qty marginRelease).Signed := by
  have hgt : qty < |pos.quantity| := sub_pos.mp (not_le.mp hleft)
  have hside : pos.side ≠ .flat := by
    intro hflat
    have hq := hsigned.flat_quantity (by simp [MarginPosition.isFlat, hflat])
    rw [hq, abs_zero] at hgt
    exact absurd hqty (not_le.mpr hgt)
  exact MarginPosition.signed_of_signedQty hside rfl rfl (sub_nonneg.mpr hgt.le)

lemma carriedCost_openedPosition {old : Option MarginPosition} (hsigned : ∀ pos, old = some pos → pos.Signed)
    (symbol : String) {side : PositionSide} (hside : side ≠ .flat) {qty : ℚ} (hqty : 0 ≤ qty) (entry lev margin : ℚ) :
    (openedPosition old symbol side qty entry lev margin).carriedCost =
      old.elim 0 MarginPosition.carriedCost + signedQty side qty * entry + nettedAt old side qty entry := by
  cases old with
  | none => simp [openedPosition, MarginPosition.carriedCost, nettedAt]
  | some pos =>
    have hs := hsigned pos rfl
    by_cases hflat : pos.isFlat
    · have hcost : pos.carriedCost = 0 := by rw [MarginPosition.carriedCost, hs.flat_quantity hflat, zero_mul]
      rw [Option.elim_some, hcost]
      simp [openedPosition, hflat, nettedAt, MarginPosition.carriedCost]
    · by_cases hsame : pos.side = side
      · subst hsame
        have hadd := carriedCost_add hs (MarginPosition.side_ne_flat hflat).2 hqty entry margin
        simp [openedPosition, hflat, nettedAt, hadd]
      · have hnet := carriedCost_net hs hflat hside hsame qty entry margin
        simp [openedPosition, hflat, hsame, nettedAt, hnet]

lemma closedPnl_eq (contract : PerpetualContract) (pos : MarginPosition) (qty price : ℚ) :
    closedPnl contract pos qty price =
      signedQty pos.side qty * (price - pos.avgEntryPrice) * contract.contractSize := by
  unfold closedPnl signedQty
  split
  · ring
  · ring

lemma carriedCost_applyClose {snap : FuturesSnapshot} {symbol : String} {pos : MarginPosition}
    (hp : snap.position symbol = some pos) (hsigned : pos.Signed) {qty : ℚ} (hle : qty ≤ |pos.quantity|)
    (realizedPnl marginRelease : ℚ) :
    (snap.applyClose symbol qty realizedPnl marginRelease).carriedCost symbol =
      snap.carriedCost symbol - signedQty pos.side qty * pos.avgEntryPrice := by
  have hcost : snap.carriedCost symbol = signedQty pos.side |pos.quantity| * pos.avgEntryPrice := by
    rw [FuturesSnapshot.carriedCost, hp, ← hsigned.quantity_eq]
    rfl
  rw [hcost, FuturesSnapshot.carriedCost, position_applyClose hp]
  by_cases hfull : |pos.quantity| - qty ≤ 0
  · rw [if_pos hfull, le_antisymm hle (sub_nonpos.mp hfull)]
    simp
  · rw [if_neg hfull]
    simp only [Option.elim_some, MarginPosition.carriedCost, reducedPosition, signedQty_sub]
    ring

/-! ### Steps -/

/-- The realized profit less the cost the position carries. -/
def profitLessCost (contract : PerpetualContract) (ledger : Ledger) : ℚ :=
  (rebuildFuturesProjection ledger).realizedPnl -
    (rebuildFuturesProjection ledger).carriedCost contract.symbol * contract.contractSize

lemma signedAt_nameless (ledger : Ledger) : SignedAt "" ledger := by
  intro pos hpos
  rw [rebuildFuturesProjection_nameless] at hpos
  exact absurd hpos (by simp)

section Snapshots

variable {contract : PerpetualContract} {ledger : Ledger} (orderId : Option String) (id : String)

/-- An open keeps profit less cost but for the cash it is worth and the profit of what it nets. -/
lemma profitLessCost_open (hs : contract.symbol ≠ "") (hsigned : SignedAt contract.symbol ledger) {side : PositionSide}
    (hside : side ≠ .flat) {qty : ℚ} (hqty : 0 ≤ qty) (price leverage : ℚ) :
    let ledger' := ledger ++ [openTransaction contract side qty price leverage orderId id]
    SignedAt contract.symbol ledger' ∧
      profitLessCost contract ledger' = profitLessCost contract ledger +
        (-(signedQty side qty * price * contract.contractSize) -
          nettedAt ((rebuildFuturesProjection ledger).position contract.symbol) side qty price * contract.contractSize) := by
  intro ledger'
  generalize hsnap : rebuildFuturesProjection ledger = snap
  have hold : ∀ pos, snap.position contract.symbol = some pos → pos.Signed := by
    rw [← hsnap]
    exact hsigned
  have hafter : rebuildFuturesProjection ledger' =
      { snap.applyOpen contract.symbol side qty price (effectiveLeverage leverage contract.maxLeverage)
          (postedMargin contract qty price leverage) with
        feesPaid := snap.feesPaid + contract.takerFee qty price } := by
    rw [rebuildFuturesProjection_append, hsnap, applyTxn_open _ _ _ _ _ _ _ hs]
  have hpos : (rebuildFuturesProjection ledger').position contract.symbol =
      some (openedPosition (snap.position contract.symbol) contract.symbol side qty price
        (effectiveLeverage leverage contract.maxLeverage) (postedMargin contract qty price leverage)) := by
    rw [hafter]
    exact snap.position_applyOpen contract.symbol side qty price _ _
  have hpnl : (rebuildFuturesProjection ledger').realizedPnl = snap.realizedPnl := by
    rw [hafter]
    rfl
  refine ⟨fun pos hp => ?_, ?_⟩
  · rw [hpos, Option.some.injEq] at hp
    rw [← hp]
    exact openedPosition_signed _ _ _ _ hside hqty
  · have hcost := carriedCost_openedPosition hold contract.symbol hside hqty price
      (effectiveLeverage leverage contract.maxLeverage) (postedMargin contract qty price leverage)
    rw [profitLessCost, profitLessCost, hpnl, hsnap, FuturesSnapshot.carriedCost, FuturesSnapshot.carriedCost, hpos,
      Option.elim_some, hcost]
    ring

/-- A close turns the cost of what it closes into its cash value and a realized profit. -/
lemma profitLessCost_close {pos : MarginPosition}
    (hpos : (rebuildFuturesProjection ledger).position contract.symbol = some pos)
    (hsigned : SignedAt contract.symbol ledger) {qty : ℚ} (hqty : 0 ≤ qty) (hle : qty ≤ |pos.quantity|)
    (exitPrice fee marginRelease : ℚ) :
    let ledger' := ledger ++ [closeTransaction contract pos.side qty pos.avgEntryPrice exitPrice
      (closedPnl contract pos qty exitPrice) fee marginRelease orderId id]
    SignedAt contract.symbol ledger' ∧
      profitLessCost contract ledger' =
        profitLessCost contract ledger + signedQty pos.side qty * exitPrice * contract.contractSize := by
  intro ledger'
  have hs : contract.symbol ≠ "" := fun hempty => by simp [hempty, rebuildFuturesProjection_nameless] at hpos
  have hafter : rebuildFuturesProjection ledger' =
      { (rebuildFuturesProjection ledger).applyClose contract.symbol qty (closedPnl contract pos qty exitPrice)
          marginRelease with
        feesPaid := (rebuildFuturesProjection ledger).feesPaid + max fee 0 } := by
    rw [rebuildFuturesProjection_append, applyTxn_close _ _ _ _ _ _ _ _ _ _ hs]
  have hleft : (rebuildFuturesProjection ledger').position contract.symbol =
      if |pos.quantity| - qty ≤ 0 then none else some (reducedPosition pos qty marginRelease) := by
    rw [hafter]
    exact position_applyClose hpos qty _ marginRelease
  have hcost : (rebuildFuturesProjection ledger').carriedCost contract.symbol =
      (rebuildFuturesProjection ledger).carriedCost contract.symbol - signedQty pos.side qty * pos.avgEntryPrice := by
    rw [hafter]
    exact carriedCost_applyClose hpos (hsigned pos hpos) hle _ marginRelease
  have hpnl : (rebuildFuturesProjection ledger').realizedPnl =
      (rebuildFuturesProjection ledger).realizedPnl + closedPnl contract pos qty exitPrice := by
    rw [hafter, applyClose_of_some hpos]
  refine ⟨fun p hp => ?_, ?_⟩
  · rw [hleft] at hp
    by_cases hfull : |pos.quantity| - qty ≤ 0
    · simp [hfull] at hp
    · rw [if_neg hfull, Option.some.injEq] at hp
      rw [← hp]
      exact FuturesSnapshot.reducedPosition_signed (hsigned pos hpos) hqty hfull _
  · rw [profitLessCost, profitLessCost, hpnl, hcost, closedPnl_eq]
    ring

end Snapshots

namespace PerpetualPaperEngine

variable (engine : PerpetualPaperEngine) (ledger : Ledger) {symbol : Option String} (minted : String)

lemma tradeValue_open (side : PositionSide) (quantity price leverage : ℚ) (orderId : Option String) :
    engine.tradeValue ledger (.openPosition side quantity price leverage orderId symbol, minted) =
      if engine.OpenRecords ledger side symbol minted ∧ (engine.contractOf symbol).symbol ≠ "" then
        -(signedQty side |quantity| * price * (engine.contractOf symbol).contractSize)
      else 0 := by
  simp only [tradeValue, engine.openPosition_isOk]

lemma nettedPnl_open (side : PositionSide) (quantity price leverage : ℚ) (orderId : Option String) :
    engine.nettedPnl ledger (.openPosition side quantity price leverage orderId symbol, minted) =
      if engine.OpenRecords ledger side symbol minted then
        nettedAt ((rebuildFuturesProjection ledger).position (engine.contractOf symbol).symbol) side |quantity| price *
          (engine.contractOf symbol).contractSize
      else 0 := by
  simp only [nettedPnl, nettedAt]
  cases (rebuildFuturesProjection ledger).position (engine.contractOf symbol).symbol with
  | none => simp
  | some pos =>
    dsimp only [Option.elim_some]
    by_cases hrec : engine.OpenRecords ledger side symbol minted
    · by_cases hnets : ¬ pos.isFlat ∧ pos.side ≠ side
      · rw [if_pos hrec, if_pos ⟨hrec, hnets⟩, if_pos hnets, closedPnl_eq, nettedProfit]
      · rw [if_pos hrec, if_neg (fun h => hnets h.2), if_neg hnets, zero_mul]
    · rw [if_neg hrec, if_neg (fun h => hrec h.1)]

lemma tradeValue_close {pos : MarginPosition}
    (hpos : (rebuildFuturesProjection ledger).position (engine.contractOf symbol).symbol = some pos)
    (quantity exitPrice : ℚ) (orderId : Option String) :
    engine.tradeValue ledger (.closePosition pos.side quantity exitPrice orderId symbol, minted) =
      if minted ∈ ledger.map LedgerTransaction.transactionId then 0
      else signedQty pos.side (min |quantity| |pos.quantity|) * exitPrice * (engine.contractOf symbol).contractSize := by
  simp only [tradeValue, hpos, true_and, engine.closePosition_of_holds ledger hpos]
  by_cases hid : minted ∈ ledger.map LedgerTransaction.transactionId
  · rw [if_pos hid, if_pos hid]
    rfl
  · rw [if_neg hid, if_neg hid]
    rfl

lemma tradeValue_skips {side : PositionSide} (hholds : ¬ HoldsSide engine side symbol ledger) (quantity exitPrice : ℚ)
    (orderId : Option String) :
    engine.tradeValue ledger (.closePosition side quantity exitPrice orderId symbol, minted) = 0 := by
  simp only [tradeValue]
  cases hp : (rebuildFuturesProjection ledger).position (engine.contractOf symbol).symbol with
  | none => rfl
  | some pos => exact if_neg (fun h => hholds ⟨pos, hp, h.1⟩)

variable {ledger minted}

/-- A call on the contract moves profit less cost by its cash value, less the profit of
what it nets. -/
theorem profitLessCost_perform {contract : PerpetualContract} {call : PerpetualCall × String}
    (hsigned : SignedAt contract.symbol ledger) (hcall : engine.TradesOn contract call.1) :
    SignedAt contract.symbol (engine.perform ledger call) ∧
      profitLessCost contract (engine.perform ledger call) =
        profitLessCost contract ledger + (engine.tradeValue ledger call - engine.nettedPnl ledger call) := by
  obtain ⟨call, minted⟩ := call
  cases call with
  | openPosition side quantity price leverage orderId symbol =>
    obtain rfl : engine.contractOf symbol = contract := hcall
    rw [tradeValue_open, nettedPnl_open]
    simp only [perform, openPosition_ledger]
    by_cases hrec : engine.OpenRecords ledger side symbol minted
    · simp only [hrec, if_true, true_and]
      by_cases hs : (engine.contractOf symbol).symbol = ""
      · have hreplay : rebuildFuturesProjection (ledger ++ [openTransaction (engine.contractOf symbol) side |quantity| price
            leverage orderId minted]) = rebuildFuturesProjection ledger := by
          rw [rebuildFuturesProjection_append, applyTxn_nameless]
          simp [openTransaction, LedgerMetadata.symbol, hs]
        rw [profitLessCost, profitLessCost, hreplay, hs, rebuildFuturesProjection_nameless]
        exact ⟨signedAt_nameless _, by simp [nettedAt]⟩
      · rw [if_pos hs]
        exact profitLessCost_open orderId minted hs hsigned hrec.1 (abs_nonneg quantity) price leverage
    · simp only [hrec, false_and, if_false, sub_zero, add_zero]
      exact ⟨hsigned, trivial⟩
  | closePosition side quantity exitPrice orderId symbol =>
    obtain rfl : engine.contractOf symbol = contract := hcall
    have hnets : engine.nettedPnl ledger (.closePosition side quantity exitPrice orderId symbol, minted) = 0 := rfl
    rw [hnets, sub_zero]
    by_cases hholds : HoldsSide engine side symbol ledger
    · obtain ⟨pos, hpos, rfl⟩ := hholds
      rw [tradeValue_close engine ledger minted hpos]
      simp only [perform, closePosition_of_holds engine ledger hpos]
      by_cases hid : minted ∈ ledger.map LedgerTransaction.transactionId
      · rw [if_pos hid, if_pos hid, add_zero]
        exact ⟨hsigned, rfl⟩
      · rw [if_neg hid, if_neg hid]
        exact profitLessCost_close orderId minted hpos hsigned (le_min (abs_nonneg _) (abs_nonneg _)) (min_le_right _ _)
          exitPrice _ _
    · rw [tradeValue_skips engine ledger minted hholds, add_zero]
      simp only [perform, closePosition_skips engine orderId symbol quantity exitPrice hholds]
      exact ⟨hsigned, trivial⟩
  | applyFunding rate markPrice symbol => exact hcall.elim
  | liquidate markPrice symbol => exact hcall.elim

/-- An open realizes nothing, whatever it nets. -/
lemma realizedPnl_open (ledger : Ledger) (side : PositionSide) (quantity price leverage : ℚ) (orderId symbol : Option String)
    (minted : String) :
    (rebuildFuturesProjection (engine.perform ledger
      (.openPosition side quantity price leverage orderId symbol, minted))).realizedPnl =
        (rebuildFuturesProjection ledger).realizedPnl := by
  simp only [perform, openPosition_ledger]
  by_cases hrec : engine.OpenRecords ledger side symbol minted
  · rw [if_pos hrec, rebuildFuturesProjection_append]
    by_cases hs : (engine.contractOf symbol).symbol = ""
    · rw [applyTxn_nameless]
      simp [openTransaction, LedgerMetadata.symbol, hs]
    · rw [applyTxn_open _ _ _ _ _ _ _ hs]
      rfl
  · rw [if_neg hrec]

/-! ### Runs -/

lemma signedAt_of_flat {symbol : String} {ledger : Ledger}
    (hflat : (rebuildFuturesProjection ledger).quantity symbol = 0) : SignedAt symbol ledger := by
  intro pos hpos
  have hq : pos.quantity = 0 := by simpa [FuturesSnapshot.quantity, hpos] using hflat
  unfold MarginPosition.Signed
  split
  · exact hq.ge
  · exact hq.le
  · exact hq

lemma carriedCost_of_flat {snap : FuturesSnapshot} {symbol : String} (hflat : snap.quantity symbol = 0) :
    snap.carriedCost symbol = 0 := by
  unfold FuturesSnapshot.quantity at hflat
  unfold FuturesSnapshot.carriedCost
  cases hpos : snap.position symbol with
  | none => rfl
  | some pos =>
    have hq : pos.quantity = 0 := by simpa [hpos] using hflat
    simp [MarginPosition.carriedCost, hq]

/-- From a flat position to a flat position, the profit the replay realizes is the net cash
value of the trades exactly when the profits of the netted quantities add up to nothing; an
open realizes the profit of what it nets exactly when there is none. -/
theorem realizedPnl_eq_cash_iff (ledger : Ledger) {contract : PerpetualContract} {calls : List (PerpetualCall × String)}
    (hcalls : ∀ call ∈ calls, engine.TradesOn contract call.1)
    (hstart : (rebuildFuturesProjection ledger).quantity contract.symbol = 0)
    (hend : (rebuildFuturesProjection (run engine.perform ledger calls)).quantity contract.symbol = 0) :
    ((rebuildFuturesProjection (run engine.perform ledger calls)).realizedPnl -
        (rebuildFuturesProjection ledger).realizedPnl = total engine.perform engine.tradeValue ledger calls ↔
      total engine.perform engine.nettedPnl ledger calls = 0) ∧
    ∀ (ledger : Ledger) (side : PositionSide) (quantity price leverage : ℚ) (orderId symbol : Option String)
      (minted : String), let call := (PerpetualCall.openPosition side quantity price leverage orderId symbol, minted)
      (rebuildFuturesProjection (engine.perform ledger call)).realizedPnl - (rebuildFuturesProjection ledger).realizedPnl =
        engine.nettedPnl ledger call ↔ engine.nettedPnl ledger call = 0 := by
  constructor
  · have halong : Along engine.perform (fun _ call => engine.TradesOn contract call.1) ledger calls :=
      along_of_forall hcalls
    have htotal := run_total (profitLessCost contract)
      (fun l c hsigned hcall => (engine.profitLessCost_perform hsigned hcall).1)
      (fun l c hsigned hcall => (engine.profitLessCost_perform hsigned hcall).2)
      (signedAt_of_flat hstart) halong
    rw [profitLessCost, profitLessCost, carriedCost_of_flat hend, carriedCost_of_flat hstart, total_sub] at htotal
    constructor
    · intro h
      linarith
    · intro h
      linarith
  · intro ledger side quantity price leverage orderId symbol minted call
    rw [realizedPnl_open, sub_self]
    exact eq_comm

/-- A long of 1 bought at 100 and closed at 110 realizes its cash value. -/
theorem realizedPnl_long_closed :
    let engine : PerpetualPaperEngine := { contract := { symbol := "BTCUSDT" } }
    let calls := [(PerpetualCall.openPosition .long 1 100 1 none none, "a"), (.closePosition .long 1 110 none none, "b")]
    (rebuildFuturesProjection (run engine.perform [] calls)).realizedPnl - (rebuildFuturesProjection []).realizedPnl =
      total engine.perform engine.tradeValue [] calls := by
  intro engine calls
  have hcalls : ∀ call ∈ calls, engine.TradesOn engine.contract call.1 := by decide +kernel
  exact (engine.realizedPnl_eq_cash_iff [] hcalls (by decide +kernel) (by decide +kernel)).1.mpr (by decide +kernel)

/-- A long of 1 bought at 100 and netted by a short of 1 at 110 leaves a flat position, no
realized profit, and 10 in cash. -/
theorem realizedPnl_long_netted :
    let engine : PerpetualPaperEngine := { contract := { symbol := "BTCUSDT" } }
    let calls := [(PerpetualCall.openPosition .long 1 100 1 none none, "a"), (.openPosition .short 1 110 1 none none, "b")]
    (rebuildFuturesProjection []).quantity "BTCUSDT" = 0 ∧
      (rebuildFuturesProjection (run engine.perform [] calls)).quantity "BTCUSDT" = 0 ∧
      (rebuildFuturesProjection (run engine.perform [] calls)).realizedPnl - (rebuildFuturesProjection []).realizedPnl = 0 ∧
      total engine.perform engine.tradeValue [] calls = 10 := by
  decide +kernel

end PerpetualPaperEngine

end CryptoTrader
