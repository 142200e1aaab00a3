import CryptoTrader.Perpetual.Cash
import CryptoTrader.Perpetual.Quantities
import Mathlib.Algebra.Order.BigOperators.Group.List
import Mathlib.Data.Fintype.EquivFin
import Mathlib.Tactic.LinearCombination

/-!
# Liquidation

The replay leaves a position without unrealized profit and without maintenance margin, and
`liquidate` works on a position of the replay. So it books no loss
(`liquidation_books_loss_iff`), and it fires where the margin is used up and not at the price
that `open_position` returned (`liquidation_price_enforced_iff`).
-/

namespace CryptoTrader

open KeyedTable Runs FuturesSnapshot

/-! ### Positions of the replay -/

/-- Neither marked nor margined for maintenance. -/
def MarginPosition.Unmarked (pos : MarginPosition) : Prop :=
  pos.unrealizedPnl = 0 ∧ pos.maintenanceMargin = 0

lemma openedPosition_unmarked {old : Option MarginPosition} (hold : ∀ pos, old = some pos → pos.Unmarked)
    (symbol : String) (side : PositionSide) (qty entry lev margin : ℚ) :
    (openedPosition old symbol side qty entry lev margin).Unmarked := by
  cases old with
  | none => exact ⟨rfl, rfl⟩
  | some pos =>
    have hpos := hold pos rfl
    unfold openedPosition
    dsimp only
    split
    · exact ⟨rfl, rfl⟩
    · split
      · exact hpos
      · unfold netPosition
        dsimp only
        split
        · split
          · exact hpos
          · exact hpos
        · exact hpos

/-- All positions of a snapshot are unmarked. -/
def FuturesSnapshot.Unmarked (snap : FuturesSnapshot) : Prop :=
  ∀ pos ∈ snap.positions, pos.Unmarked

lemma FuturesSnapshot.Unmarked.applyTxn {snap : FuturesSnapshot} (h : snap.Unmarked) (t : LedgerTransaction) :
    (snap.applyTxn t).Unmarked := by
  have hfees : (t.entries.foldl applyFee snap).Unmarked := by
    unfold FuturesSnapshot.Unmarked
    rwa [positions_fees]
  unfold FuturesSnapshot.applyTxn
  split
  · cases hm : t.metadata with
    | futuresOpen symbol side qty entry lev margin fee =>
      intro pos hpos
      rcases mem_upsert hpos with rfl | hpos
      · exact openedPosition_unmarked (fun old hold => hfees old (row_some hold).1) _ _ _ _ _ _
      · exact hfees pos hpos
    | futuresClose symbol side qty entry exit realizedPnl fee marginRelease =>
      dsimp only
      cases hp : (t.entries.foldl applyFee snap).position symbol with
      | none =>
        unfold applyClose
        rwa [hp]
      | some old =>
        have hold := hfees old (row_some hp).1
        rw [applyClose_of_some hp]
        intro pos hpos
        dsimp only at hpos
        split at hpos
        · exact hfees pos (List.mem_filter.mp hpos).1
        · rcases mem_put.mp hpos with ⟨rfl, -⟩ | ⟨hpos, -⟩
          · exact hold
          · exact hfees pos hpos
    | _ =>
      dsimp only
      split
      · unfold FuturesSnapshot.Unmarked
        rwa [positions_funding]
      · exact hfees
  · exact h

lemma rebuildFuturesProjection_unmarked (ledger : Ledger) : (rebuildFuturesProjection ledger).Unmarked := by
  induction ledger using List.reverseRecOn with
  | nil => exact fun _ hpos => absurd hpos List.not_mem_nil
  | append_singleton ledger t ih =>
    rw [rebuildFuturesProjection_append]
    exact ih.applyTxn t

/-! ### What a liquidation writes -/

section Liquidate

variable (engine : PerpetualPaperEngine) {symbol : Option String} {minted : String} {ledger : Ledger}
  {pos : MarginPosition} {markPrice : ℚ}

lemma evaluateLiquidation_ok {contract : PerpetualContract} {result : LiquidationResult}
    (h : evaluateLiquidation pos contract markPrice = .ok result) (hliq : result.liquidated) :
    ¬pos.isFlat ∧ |pos.quantity| * contract.contractSize ≠ 0 ∧
      result.fee = contract.notional pos.quantity markPrice * liquidationFeeRate := by
  unfold evaluateLiquidation at h
  split at h
  · obtain rfl := Except.ok.inj h
    cases hliq
  · rename_i hflat
    dsimp only at h
    split at h
    · cases h
    · rename_i hsize
      obtain rfl := Except.ok.inj h
      exact ⟨hflat, hsize, rfl⟩

/-- A liquidation that returns True closes the position of the replay, without a result. -/
lemma PerpetualPaperEngine.liquidate_true
    (hpos : (rebuildFuturesProjection ledger).position (engine.contractOf symbol).symbol = some pos)
    (hliq : (engine.liquidate markPrice symbol minted ledger).1 = .ok true) :
    ¬pos.isFlat ∧ |pos.quantity| * (engine.contractOf symbol).contractSize ≠ 0 ∧
      (engine.liquidate markPrice symbol minted ledger).2 = ledger ++ [closeTransaction (engine.contractOf symbol) pos.side
        |pos.quantity| pos.avgEntryPrice markPrice 0
        ((engine.contractOf symbol).notional pos.quantity markPrice * liquidationFeeRate) pos.initialMargin none minted] := by
  have hunmarked : pos.unrealizedPnl = 0 := (rebuildFuturesProjection_unmarked ledger pos (row_some hpos).1).1
  simp only [PerpetualPaperEngine.liquidate, hpos, hunmarked] at hliq ⊢
  cases hresult : evaluateLiquidation pos (engine.contractOf symbol) markPrice with
  | error e =>
    rw [hresult] at hliq
    cases hliq
  | ok result =>
    simp only [hresult, recordClose_minted] at hliq ⊢
    cases hfires : result.liquidated with
    | false =>
      rw [hfires] at hliq
      cases hliq
    | true =>
      obtain ⟨hflat, hsize, hfee⟩ := evaluateLiquidation_ok hresult hfires
      refine ⟨hflat, hsize, ?_⟩
      rw [hfires] at hliq
      by_cases hid : minted ∈ ledger.map LedgerTransaction.transactionId
      · rw [if_pos hid] at hliq
        cases hliq
      · rw [if_neg hid, hfee]
        rfl

/-- It returns True where the mark has reached the price that the replay's position has. -/
lemma PerpetualPaperEngine.liquidate_fires_iff
    (hpos : (rebuildFuturesProjection ledger).position (engine.contractOf symbol).symbol = some pos)
    (hid : minted ∉ ledger.map LedgerTransaction.transactionId) :
    (engine.liquidate markPrice symbol minted ledger).1 = .ok true ↔
      ¬pos.isFlat ∧ |pos.quantity| * (engine.contractOf symbol).contractSize ≠ 0 ∧
        (pos.side = .long ∧ markPrice ≤ liquidationPrice pos (engine.contractOf symbol) ∨
          pos.side = .short ∧ liquidationPrice pos (engine.contractOf symbol) ≤ markPrice) := by
  simp only [PerpetualPaperEngine.liquidate, hpos, recordClose_minted, hid, if_false, evaluateLiquidation]
  by_cases hflat : pos.isFlat
  · simp [hflat]
  · by_cases hsize : |pos.quantity| * (engine.contractOf symbol).contractSize = 0
    · simp [hflat, hsize]
    · simp only [hflat, hsize, if_false, Bool.false_eq_true, not_false_eq_true, true_and, ne_eq]
      by_cases hreached : pos.side = .long ∧ markPrice ≤ liquidationPrice pos (engine.contractOf symbol) ∨
          pos.side = .short ∧ liquidationPrice pos (engine.contractOf symbol) ≤ markPrice
      · simp [hreached]
      · simp [hreached]

end Liquidate

lemma maintenanceMargin_eq_zero_iff (contract : PerpetualContract) (quantity price : ℚ) :
    maintenanceMargin contract quantity price = 0 ↔ contract.notional quantity price = 0 := by
  have hrate (notional : ℚ) : defaultMaintenanceRate notional ≠ 0 := by
    unfold defaultMaintenanceRate
    split
    · norm_num
    · split <;> norm_num
  unfold maintenanceMargin
  rw [mul_eq_zero, or_iff_left (hrate _)]

lemma cash_closeTransaction (contract : PerpetualContract) (side : PositionSide)
    (quantity entryPrice exitPrice realizedPnl fee marginRelease : ℚ) (orderId : Option String) (id : String) :
    accountDebit .cash
        [closeTransaction contract side quantity entryPrice exitPrice realizedPnl fee marginRelease orderId id] =
      realizedPnl - max fee 0 + max marginRelease 0 := by
  rw [accountDebit_single, closeTransaction,
    netDebit_closePostings _ (fun a => if a = .cash then 1 else 0) contract (fun p _ => by simp)]
  simp
  ring

/-- A liquidation at `markPrice` closes the position at the profit or loss it has there: the
cash moves by it, less the fee, with the margin released. -/
structure BooksMarkedLoss (engine : PerpetualPaperEngine) (symbol : Option String) (minted : String) (ledger : Ledger)
    (pos : MarginPosition) (markPrice : ℚ) : Prop where
  recorded : ∃ t fee release, (engine.liquidate markPrice symbol minted ledger).2 = ledger ++ [t] ∧
    t.metadata = .futuresClose (engine.contractOf symbol).symbol pos.side |pos.quantity| pos.avgEntryPrice markPrice
      (markedPnl (engine.contractOf symbol) pos markPrice) fee release
  cash : accountDebit .cash (engine.liquidate markPrice symbol minted ledger).2 = accountDebit .cash ledger +
    (markedPnl (engine.contractOf symbol) pos markPrice -
      max ((engine.contractOf symbol).notional pos.quantity markPrice * liquidationFeeRate) 0 + max pos.initialMargin 0)
  closed : (rebuildFuturesProjection (engine.liquidate markPrice symbol minted ledger).2).position
    (engine.contractOf symbol).symbol = none

lemma markedPnl_eq_zero_iff {contract : PerpetualContract} {pos : MarginPosition} (hflat : ¬pos.isFlat)
    (hsize : |pos.quantity| * contract.contractSize ≠ 0) (markPrice : ℚ) :
    markedPnl contract pos markPrice = 0 ↔ markPrice = pos.avgEntryPrice := by
  have hside := (MarginPosition.side_ne_flat hflat).1
  unfold markedPnl
  cases hs : pos.side with
  | flat => exact absurd hs hside
  | long =>
    dsimp only
    rw [mul_assoc, mul_eq_zero, or_iff_left hsize, sub_eq_zero]
  | short =>
    dsimp only
    rw [mul_assoc, mul_eq_zero, or_iff_left hsize, sub_eq_zero, eq_comm]

/-- The loss of a liquidation is booked only where there is none. -/
theorem liquidation_books_loss_iff (engine : PerpetualPaperEngine) {symbol : Option String} {minted : String}
    {ledger : Ledger} {pos : MarginPosition} {markPrice : ℚ}
    (hpos : (rebuildFuturesProjection ledger).position (engine.contractOf symbol).symbol = some pos)
    (hliq : (engine.liquidate markPrice symbol minted ledger).1 = .ok true) :
    BooksMarkedLoss engine symbol minted ledger pos markPrice ↔ markPrice = pos.avgEntryPrice := by
  obtain ⟨hflat, hsize, hledger⟩ := engine.liquidate_true hpos hliq
  rw [← markedPnl_eq_zero_iff hflat hsize]
  constructor
  · intro h
    obtain ⟨t, fee, release, ht, hmeta⟩ := h.recorded
    rw [hledger, List.append_cancel_left_eq, List.singleton_inj] at ht
    rw [← ht, closeTransaction, LedgerMetadata.futuresClose.injEq] at hmeta
    exact hmeta.2.2.2.2.2.1.symm
  · intro hzero
    refine ⟨⟨_, _, _, hledger, by rw [hzero]; rfl⟩, ?_, ?_⟩
    · rw [hledger, accountDebit_append, cash_closeTransaction, hzero]
    · rw [hledger, position_closed none minted hpos, if_pos rfl, if_pos (by rw [sub_self])]

/-- The paper engine of the tests. -/
def paperEngine : PerpetualPaperEngine := { contract := { symbol := "BTCUSDT_PERP", base := "BTC", quote := "USDT" } }

/-- One contract long at 100, with leverage 5. -/
def longLedger : Ledger := paperEngine.perform [] (.openPosition .long 1 100 5 none none, "t1")

def longPosition : MarginPosition where
  symbol := "BTCUSDT_PERP"
  side := .long
  quantity := 1
  avgEntryPrice := 100
  leverage := 5
  initialMargin := 20

lemma longLedger_position :
    (rebuildFuturesProjection longLedger).position (paperEngine.contractOf none).symbol = some longPosition := by
  decide +kernel

lemma longLedger_liquidated : (paperEngine.liquidate 80 none "t2" longLedger).1 = .ok true := by
  decide +kernel

/-- The theorem's hypotheses hold of the tests' liquidation. -/
theorem liquidation_books_loss_long : BooksMarkedLoss paperEngine none "t2" longLedger longPosition 80 ↔ (80 : ℚ) = 100 :=
  liquidation_books_loss_iff paperEngine longLedger_position longLedger_liquidated

/-- A loss of 20 is booked as 0. -/
theorem liquidation_loss_unbooked :
    ¬∀ engine symbol minted ledger pos markPrice, ReachableFutures ledger →
      (rebuildFuturesProjection ledger).position (PerpetualPaperEngine.contractOf engine symbol).symbol = some pos →
      (engine.liquidate markPrice symbol minted ledger).1 = .ok true →
        BooksMarkedLoss engine symbol minted ledger pos markPrice := by
  intro h
  have hreach : ReachableFutures longLedger :=
    ⟨[.call paperEngine (.openPosition .long 1 100 5 none none) "t1"], ⟨trivial, trivial⟩, rfl⟩
  have hcash := (h paperEngine none "t2" longLedger longPosition 80 hreach longLedger_position longLedger_liquidated).cash
  revert hcash
  decide +kernel

/-! ### Opens on one side -/

/-- The arguments of an open, with the transaction id it mints. -/
structure OpenArgs where
  quantity : ℚ
  price : ℚ
  leverage : ℚ
  orderId : Option String := none
  id : String
  deriving DecidableEq, Repr

/-- Opens on one side of a contract, on an empty ledger. -/
structure OneSidedOpens where
  engine : PerpetualPaperEngine
  side : PositionSide
  symbol : Option String
  opens : List OpenArgs
  last : OpenArgs
  side_ne : side ≠ .flat
  leveraged : (engine.contractOf symbol).maxLeverage ≠ 0
  sized : 0 < (engine.contractOf symbol).contractSize
  named : (engine.contractOf symbol).symbol ≠ ""
  fresh : ((opens ++ [last]).map OpenArgs.id).Nodup

namespace OneSidedOpens

variable (R : OneSidedOpens)

def contract : PerpetualContract := R.engine.contractOf R.symbol

def ledgerOf (opens : List OpenArgs) : Ledger :=
  opens.foldl (fun ledger o =>
    R.engine.perform ledger (.openPosition R.side o.quantity o.price o.leverage o.orderId R.symbol, o.id)) []

/-- The last open. -/
def result : Except TradingError MarginPosition × Ledger :=
  R.engine.openPosition R.side R.last.quantity R.last.price R.last.leverage R.last.orderId R.symbol R.last.id
    (R.ledgerOf R.opens)

/-- The mark has reached a price that is below a long and above a short. -/
def Reached (markPrice price : ℚ) : Prop :=
  R.side = .long ∧ markPrice ≤ price ∨ R.side = .short ∧ price ≤ markPrice

/-- The returned price is where the position is liquidated, and where its margin and
unrealized profit are the maintenance margin of the whole position. -/
def AsAdvertised : Prop :=
  ∃ pos price, R.result.1 = .ok pos ∧ pos.liquidationPrice = some price ∧
    (∀ markPrice minted, minted ∉ R.result.2.map LedgerTransaction.transactionId →
      ((R.engine.liquidate markPrice R.symbol minted R.result.2).1 = .ok true ↔ R.Reached markPrice price)) ∧
    pos.initialMargin + markedPnl R.contract pos price = maintenanceMargin R.contract pos.quantity pos.avgEntryPrice

def totalQuantity (opens : List OpenArgs) : ℚ := (opens.map (fun o => |o.quantity|)).sum

def totalValue (opens : List OpenArgs) : ℚ := (opens.map (fun o => |o.quantity| * o.price)).sum

/-- A position whose last slice and whose whole are worth nothing. -/
def Worthless : Prop :=
  totalQuantity (R.opens ++ [R.last]) ≠ 0 ∧ R.last.quantity * R.last.price = 0 ∧ totalValue (R.opens ++ [R.last]) = 0

/-- The position of some opens. -/
structure PositionOf (opens : List OpenArgs) (pos : MarginPosition) : Prop where
  side : pos.side = R.side
  quantity : pos.quantity = signedQty R.side (totalQuantity opens)
  value : pos.avgEntryPrice * totalQuantity opens = totalValue opens

lemma totalQuantity_nonneg (opens : List OpenArgs) : 0 ≤ totalQuantity opens := by
  apply List.sum_nonneg
  intro q hq
  obtain ⟨o, -, rfl⟩ := List.mem_map.mp hq
  exact abs_nonneg _

lemma totalQuantity_concat (opens : List OpenArgs) (o : OpenArgs) :
    totalQuantity (opens ++ [o]) = totalQuantity opens + |o.quantity| := by
  simp [totalQuantity]

lemma totalValue_concat (opens : List OpenArgs) (o : OpenArgs) :
    totalValue (opens ++ [o]) = totalValue opens + |o.quantity| * o.price := by
  simp [totalValue]

lemma abs_signedQty (side : PositionSide) (x : ℚ) : |signedQty side x| = |x| := by
  unfold signedQty
  split
  · rfl
  · exact abs_neg x

variable {R} in
/-- An open adds its quantity at its price. -/
lemma PositionOf.opened {opens : List OpenArgs} {old : Option MarginPosition}
    (hnone : old = none → opens = []) (hsome : ∀ pos, old = some pos → R.PositionOf opens pos) (o : OpenArgs)
    (symbol : String) (lev margin : ℚ) :
    R.PositionOf (opens ++ [o]) (openedPosition old symbol R.side |o.quantity| o.price lev margin) := by
  have hq : 0 ≤ |o.quantity| := abs_nonneg _
  cases hold : old with
  | none =>
    obtain rfl := hnone hold
    refine ⟨rfl, ?_, ?_⟩
    · simp [openedPosition, totalQuantity]
    · simp [openedPosition, totalQuantity, totalValue, mul_comm]
  | some pos =>
    have hpos := hsome pos hold
    have hnonneg := totalQuantity_nonneg opens
    have habs : |pos.quantity| = totalQuantity opens := by
      rw [hpos.quantity, abs_signedQty, abs_of_nonneg hnonneg]
    by_cases hflat : pos.isFlat
    · have hzero : totalQuantity opens = 0 := by
        rcases MarginPosition.isFlat_iff.mp hflat with h | h
        · exact absurd (hpos.side.symm.trans h) R.side_ne
        · rw [← habs, h, abs_zero]
      have hvalue : totalValue opens = 0 := by rw [← hpos.value, hzero, mul_zero]
      simp only [openedPosition, hflat, if_true]
      refine ⟨rfl, ?_, ?_⟩
      · rw [totalQuantity_concat, hzero, zero_add]
      · rw [totalQuantity_concat, totalValue_concat, hzero, hvalue, zero_add, zero_add, mul_comm]
    · have hne : totalQuantity opens ≠ 0 := by
        rw [← habs]
        exact abs_ne_zero.mpr (MarginPosition.side_ne_flat hflat).2
      have hlt : 0 < totalQuantity opens + |o.quantity| :=
        add_pos_of_pos_of_nonneg (lt_of_le_of_ne hnonneg hne.symm) hq
      simp only [openedPosition, hflat, hpos.side, if_true, Bool.false_eq_true, if_false, addToPosition, habs]
      refine ⟨rfl, by rw [totalQuantity_concat], ?_⟩
      rw [totalQuantity_concat, totalValue_concat, hpos.value, div_mul_cancel₀ _ hlt.ne', mul_comm o.price]

lemma ledgerOf_concat (opens : List OpenArgs) (o : OpenArgs) :
    R.ledgerOf (opens ++ [o]) =
      (R.engine.openPosition R.side o.quantity o.price o.leverage o.orderId R.symbol o.id (R.ledgerOf opens)).2 := by
  rw [ledgerOf, List.foldl_append]
  rfl

lemma ledgerOf_fresh {opens : List OpenArgs} {o : OpenArgs} (hfresh : ((opens ++ [o]).map OpenArgs.id).Nodup)
    (hids : (R.ledgerOf opens).map LedgerTransaction.transactionId = opens.map OpenArgs.id) :
    o.id ∉ (R.ledgerOf opens).map LedgerTransaction.transactionId ∧
      R.ledgerOf (opens ++ [o]) =
        R.ledgerOf opens ++ [openTransaction R.contract R.side |o.quantity| o.price o.leverage o.orderId o.id] := by
  have hid : o.id ∉ (R.ledgerOf opens).map LedgerTransaction.transactionId := by
    rw [hids]
    intro hmem
    rw [List.map_append, List.nodup_append] at hfresh
    exact hfresh.2.2 o.id hmem o.id (by simp) rfl
  refine ⟨hid, ?_⟩
  rw [ledgerOf_concat, PerpetualPaperEngine.openPosition_ledger, if_pos ⟨R.side_ne, R.leveraged, hid⟩]
  rfl

/-- Every open is recorded, and together they make the position. -/
lemma ledgerOf_spec {opens : List OpenArgs} (hfresh : (opens.map OpenArgs.id).Nodup) :
    (R.ledgerOf opens).map LedgerTransaction.transactionId = opens.map OpenArgs.id ∧
      ((rebuildFuturesProjection (R.ledgerOf opens)).position R.contract.symbol = none → opens = []) ∧
      ∀ pos, (rebuildFuturesProjection (R.ledgerOf opens)).position R.contract.symbol = some pos → R.PositionOf opens pos := by
  induction opens using List.reverseRecOn with
  | nil => exact ⟨rfl, fun _ => rfl, fun pos hpos => by cases hpos⟩
  | append_singleton opens o ih =>
    obtain ⟨hids, hnone, hsome⟩ := ih (by
      rw [List.map_append] at hfresh
      exact (List.nodup_append.mp hfresh).1)
    obtain ⟨hid, hledger⟩ := R.ledgerOf_fresh hfresh hids
    have hnamed : R.contract.symbol ≠ "" := R.named
    rw [hledger]
    refine ⟨by simp [hids, openTransaction], fun h => ?_, fun pos hpos => ?_⟩
    · rw [position_opened o.orderId o.id hnamed, if_pos rfl] at h
      cases h
    · rw [position_opened o.orderId o.id hnamed, if_pos rfl] at hpos
      obtain rfl := Option.some.inj hpos
      exact PositionOf.opened hnone hsome o _ _ _

/-- The last open returns the position of all opens, with the maintenance margin of its own
slice. -/
lemma result_eq :
    ∃ pos, R.result = (.ok (advertised R.contract (maintenanceMargin R.contract R.last.quantity R.last.price) pos),
        R.ledgerOf (R.opens ++ [R.last])) ∧
      (rebuildFuturesProjection (R.ledgerOf (R.opens ++ [R.last]))).position R.contract.symbol = some pos ∧
      R.PositionOf (R.opens ++ [R.last]) pos := by
  obtain ⟨-, hnone, hsome⟩ := R.ledgerOf_spec R.fresh
  have hearlier : (R.opens.map OpenArgs.id).Nodup := by
    have hfresh := R.fresh
    rw [List.map_append] at hfresh
    exact (List.nodup_append.mp hfresh).1
  obtain ⟨hids, -, -⟩ := R.ledgerOf_spec hearlier
  obtain ⟨hid, hledger⟩ := R.ledgerOf_fresh R.fresh hids
  cases hpos : (rebuildFuturesProjection (R.ledgerOf (R.opens ++ [R.last]))).position R.contract.symbol with
  | none => exact absurd (hnone hpos) (by simp)
  | some pos =>
    refine ⟨pos, ?_, rfl, hsome pos hpos⟩
    rw [hledger] at hpos ⊢
    have hlev : R.contract.maxLeverage ≠ 0 := R.leveraged
    unfold contract at hpos hlev ⊢
    simp only [result, PerpetualPaperEngine.openPosition, R.side_ne, if_false, initialMargin_eq, hlev, recordOpen_minted,
      hid, hpos, maintenanceMargin, PerpetualContract.notional, abs_abs]

end OneSidedOpens

section Prices

variable {contract : PerpetualContract} {pos : MarginPosition} (hsized : 0 < contract.contractSize) (hflat : ¬pos.isFlat)
include hsized hflat

lemma size_pos : 0 < |pos.quantity| * contract.contractSize :=
  mul_pos (abs_pos.mpr (MarginPosition.side_ne_flat hflat).2) hsized

lemma liquidationPrice_eq (maintenance : ℚ) :
    liquidationPrice { pos with maintenanceMargin := maintenance } contract =
      pos.avgEntryPrice - signedQty pos.side ((pos.initialMargin - maintenance) / (|pos.quantity| * contract.contractSize)) := by
  have hsize := not_le.mpr (size_pos hsized hflat)
  have hflat' : ¬({ pos with maintenanceMargin := maintenance } : MarginPosition).isFlat := hflat
  unfold liquidationPrice signedQty
  dsimp only
  rw [if_neg hflat', if_neg hsize]
  split
  · rfl
  · rw [sub_neg_eq_add]

/-- At the liquidation price, margin and unrealized profit are the maintenance margin that
the price was computed with. -/
lemma equity_liquidationPrice (maintenance : ℚ) :
    pos.initialMargin + markedPnl contract pos (liquidationPrice { pos with maintenanceMargin := maintenance } contract) =
      maintenance := by
  have hsize := (size_pos hsized hflat).ne'
  have hcancel := div_mul_cancel₀ (pos.initialMargin - maintenance) hsize
  rw [liquidationPrice_eq hsized hflat]
  generalize (pos.initialMargin - maintenance) / (|pos.quantity| * contract.contractSize) = distance at hcancel
  unfold markedPnl
  cases hside : pos.side with
  | flat => exact absurd hside (MarginPosition.side_ne_flat hflat).1
  | long =>
    simp only [signedQty, if_true]
    linear_combination -hcancel
  | short =>
    simp only [signedQty, reduceCtorEq, if_false]
    linear_combination -hcancel

lemma liquidationPrice_inj {maintenance maintenance' : ℚ} :
    liquidationPrice { pos with maintenanceMargin := maintenance } contract =
      liquidationPrice { pos with maintenanceMargin := maintenance' } contract ↔ maintenance = maintenance' := by
  constructor
  · intro h
    rw [← equity_liquidationPrice hsized hflat maintenance, h, equity_liquidationPrice hsized hflat]
  · rintro rfl
    rfl

end Prices

namespace OneSidedOpens

variable (R : OneSidedOpens)

lemma PositionOf.isFlat_iff {R : OneSidedOpens} {opens : List OpenArgs} {pos : MarginPosition} (hpos : R.PositionOf opens pos) :
    pos.isFlat ↔ totalQuantity opens = 0 := by
  have hside : pos.side ≠ .flat := fun h => R.side_ne (hpos.side.symm.trans h)
  rw [MarginPosition.isFlat_iff, or_iff_right hside, ← abs_eq_zero, hpos.quantity, abs_signedQty, abs_eq_zero]

lemma PositionOf.notional {R : OneSidedOpens} {opens : List OpenArgs} {pos : MarginPosition} (hpos : R.PositionOf opens pos) :
    R.contract.notional pos.quantity pos.avgEntryPrice = totalValue opens * R.contract.contractSize := by
  rw [PerpetualContract.notional, hpos.quantity, abs_signedQty, abs_of_nonneg (totalQuantity_nonneg opens), ← hpos.value,
    mul_comm (totalQuantity opens)]

/-- All marks agree on two prices only if the prices are equal. -/
lemma reached_iff (price price' : ℚ) :
    (∀ markPrice, R.Reached markPrice price ↔ R.Reached markPrice price') ↔ price = price' := by
  constructor
  · intro h
    have h1 := h price
    have h2 := h price'
    unfold Reached at h1 h2
    cases hside : R.side with
    | flat => exact absurd hside R.side_ne
    | long =>
      simp only [hside, true_and, reduceCtorEq, false_and, or_false, le_refl, true_iff, iff_true] at h1 h2
      exact le_antisymm h1 h2
    | short =>
      simp only [hside, true_and, reduceCtorEq, false_and, false_or, le_refl, true_iff, iff_true] at h1 h2
      exact le_antisymm h2 h1
  · rintro rfl
    exact fun _ => Iff.rfl

lemma exists_fresh (ledger : Ledger) : ∃ minted, minted ∉ ledger.map LedgerTransaction.transactionId := by
  obtain ⟨minted, hminted⟩ := Infinite.exists_notMem_finset (ledger.map LedgerTransaction.transactionId).toFinset
  exact ⟨minted, fun hmem => hminted (List.mem_toFinset.mpr hmem)⟩

lemma fires_iff {ledger : Ledger} {pos : MarginPosition}
    (hledger : (rebuildFuturesProjection ledger).position R.contract.symbol = some pos) (hside : pos.side = R.side)
    (markPrice : ℚ) {minted : String} (hid : minted ∉ ledger.map LedgerTransaction.transactionId) :
    (R.engine.liquidate markPrice R.symbol minted ledger).1 = .ok true ↔
      ¬pos.isFlat ∧ R.Reached markPrice (liquidationPrice { pos with maintenanceMargin := 0 } R.contract) := by
  have hsized : 0 < (R.engine.contractOf R.symbol).contractSize := R.sized
  have hunmarked : { pos with maintenanceMargin := 0 } = pos := by
    rw [← (rebuildFuturesProjection_unmarked ledger pos (row_some hledger).1).2]
  rw [R.engine.liquidate_fires_iff hledger hid, hunmarked]
  refine and_congr_right fun hflat => ?_
  rw [and_iff_right (size_pos hsized hflat).ne', hside]
  rfl

lemma reached_self (price : ℚ) : R.Reached price price := by
  unfold Reached
  cases hside : R.side with
  | flat => exact absurd hside R.side_ne
  | long => exact .inl ⟨rfl, le_rfl⟩
  | short => exact .inr ⟨rfl, le_rfl⟩

/-- The returned price and the enforced one, as prices of one position. -/
lemma asAdvertised_iff {maintenance : ℚ} {pos : MarginPosition} {ledger : Ledger}
    (hresult : R.result = (.ok (advertised R.contract maintenance pos), ledger))
    (hledger : (rebuildFuturesProjection ledger).position R.contract.symbol = some pos) (hside : pos.side = R.side) :
    R.AsAdvertised ↔
      (∀ markPrice, (¬pos.isFlat ∧ R.Reached markPrice (liquidationPrice { pos with maintenanceMargin := 0 } R.contract)) ↔
        R.Reached markPrice (liquidationPrice { pos with maintenanceMargin := maintenance } R.contract)) ∧
      pos.initialMargin + markedPnl R.contract pos (liquidationPrice { pos with maintenanceMargin := maintenance } R.contract) =
        maintenanceMargin R.contract pos.quantity pos.avgEntryPrice := by
  unfold AsAdvertised
  rw [hresult]
  constructor
  · rintro ⟨_, _, hok, hprice, hfires, hequity⟩
    obtain rfl := Except.ok.inj hok
    obtain rfl := Option.some.inj hprice
    refine ⟨fun markPrice => ?_, hequity⟩
    obtain ⟨minted, hid⟩ := exists_fresh ledger
    rw [← R.fires_iff hledger hside markPrice hid]
    exact hfires markPrice minted hid
  · rintro ⟨hfires, hequity⟩
    refine ⟨_, _, rfl, rfl, fun markPrice minted hid => ?_, hequity⟩
    rw [R.fires_iff hledger hside markPrice hid]
    exact hfires markPrice

/-- The returned price is enforced where the maintenance margin is zero, and nowhere else. -/
theorem liquidation_price_enforced_iff (R : OneSidedOpens) : R.AsAdvertised ↔ R.Worthless := by
  obtain ⟨pos, hresult, hledger, hpos⟩ := R.result_eq
  have hsized : 0 < R.contract.contractSize := R.sized
  rw [R.asAdvertised_iff hresult hledger hpos.side]
  unfold Worthless
  by_cases hflat : pos.isFlat
  · have hzero := hpos.isFlat_iff.mp hflat
    constructor
    · rintro ⟨hfires, -⟩
      exact absurd hflat ((hfires _).mpr (R.reached_self _)).1
    · exact fun h => absurd hzero h.1
  · have hne := fun hzero => hflat (hpos.isFlat_iff.mpr hzero)
    simp only [hflat, not_false_eq_true, true_and, Bool.false_eq_true]
    rw [reached_iff, liquidationPrice_inj hsized hflat, equity_liquidationPrice hsized hflat, and_iff_right hne]
    have hslice : 0 = maintenanceMargin R.contract R.last.quantity R.last.price ↔ R.last.quantity * R.last.price = 0 := by
      rw [eq_comm, maintenanceMargin_eq_zero_iff, PerpetualContract.notional, mul_eq_zero, or_iff_left hsized.ne', mul_eq_zero,
        mul_eq_zero, abs_eq_zero]
    have hwhole : maintenanceMargin R.contract pos.quantity pos.avgEntryPrice = 0 ↔ totalValue (R.opens ++ [R.last]) = 0 := by
      rw [maintenanceMargin_eq_zero_iff, hpos.notional, mul_eq_zero, or_iff_left hsized.ne']
    rw [← hslice, ← hwhole]
    refine and_congr_right fun h => ?_
    rw [← h, eq_comm]

end OneSidedOpens

/-- One contract long at 100 is returned with 80.1, and liquidated at 80. -/
def openedLong : OneSidedOpens where
  engine := paperEngine
  side := .long
  symbol := none
  opens := []
  last := { quantity := 1, price := 100, leverage := 5, id := "t1" }
  side_ne := by decide
  leveraged := by decide +kernel
  sized := by decide +kernel
  named := by decide
  fresh := by decide

theorem liquidation_price_unenforced : ¬∀ R : OneSidedOpens, R.AsAdvertised := by
  intro h
  obtain ⟨pos, price, hok, hprice, hfires, -⟩ := h openedLong
  have hadvertised : openedLong.result.1.toOption.bind MarginPosition.liquidationPrice = some (801 / 10) := by
    decide +kernel
  have hid : "t2" ∉ openedLong.result.2.map LedgerTransaction.transactionId := by
    decide +kernel
  have hkept : (openedLong.engine.liquidate (801 / 10) openedLong.symbol "t2" openedLong.result.2).1 ≠ .ok true := by
    decide +kernel
  rw [hok] at hadvertised
  obtain rfl := Option.some.inj (hprice.symm.trans hadvertised)
  exact hkept ((hfires (801 / 10) "t2" hid).mpr (openedLong.reached_self _))

end CryptoTrader
