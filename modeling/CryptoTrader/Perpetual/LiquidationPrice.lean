import CryptoTrader.Perpetual.Liquidation

/-!
# The liquidation price and the equity of a position

`LiquidationCalculator.evaluate` compares the mark with a price; `MarginCalculator.position_equity`
tells what the margin of the position is worth. The price is the one at which the equity comes down
to the maintenance margin.
-/

namespace CryptoTrader

def positionEquity (pos : MarginPosition) : ℚ :=
  pos.initialMargin + pos.unrealizedPnl

/-- `liquidation_distance`. Both sides divide by the size. -/
def liquidationDistance (pos : MarginPosition) (contract : PerpetualContract) : ℚ :=
  let perQty := |pos.quantity| * contract.contractSize
  if pos.isFlat then 0
  else if perQty ≤ 0 then 0
  else (pos.initialMargin - pos.maintenanceMargin) / perQty

/-- The position as `mark_to_market` leaves it. -/
def MarginPosition.marked (pos : MarginPosition) (contract : PerpetualContract) (price : ℚ) : MarginPosition :=
  { pos with unrealizedPnl := markedPnl contract pos price, markPrice := price }

section Equity

variable {contract : PerpetualContract} {pos : MarginPosition}

/-- The quantity of a position is signed, and so is its profit. -/
lemma markedPnl_of_signed (hsigned : pos.Signed) (price : ℚ) :
    markedPnl contract pos price = pos.quantity * (price - pos.avgEntryPrice) * contract.contractSize := by
  unfold markedPnl
  unfold MarginPosition.Signed at hsigned
  cases hside : pos.side with
  | flat =>
    rw [hside] at hsigned
    simp [show pos.quantity = 0 from hsigned]
  | long =>
    rw [hside] at hsigned
    rw [abs_of_nonneg (show 0 ≤ pos.quantity from hsigned)]
    ring
  | short =>
    rw [hside] at hsigned
    rw [abs_of_nonpos (show pos.quantity ≤ 0 from hsigned)]
    ring

variable (hsized : 0 < contract.contractSize) (hflat : ¬pos.isFlat)
include hsized hflat

lemma liquidationPrice_eq_distance :
    liquidationPrice pos contract = pos.avgEntryPrice - signedQty pos.side (liquidationDistance pos contract) := by
  have hsize := not_le.mpr (size_pos hsized hflat)
  have h := liquidationPrice_eq hsized hflat pos.maintenanceMargin
  rw [liquidationDistance, if_neg hflat, if_neg hsize]
  exact h

/-- The equity at a mark, from the distance of the mark to the liquidation price. -/
lemma equity_marked (markPrice : ℚ) :
    positionEquity (pos.marked contract markPrice) = pos.maintenanceMargin +
      signedQty pos.side (markPrice - liquidationPrice pos contract) * (|pos.quantity| * contract.contractSize) := by
  have h := equity_liquidationPrice hsized hflat pos.maintenanceMargin
  have hsame : liquidationPrice { pos with maintenanceMargin := pos.maintenanceMargin } contract =
      liquidationPrice pos contract := rfl
  rw [hsame] at h
  unfold positionEquity MarginPosition.marked
  dsimp only
  rw [← h]
  unfold markedPnl signedQty
  cases hside : pos.side with
  | flat => exact absurd hside (MarginPosition.side_ne_flat hflat).1
  | long =>
    simp only [if_true]
    ring
  | short =>
    simp only [reduceCtorEq, if_false]
    ring

/-- The liquidation price is reached exactly when the equity is no more than the maintenance margin. -/
lemma reached_iff_equity (markPrice : ℚ) :
    (pos.side = .long ∧ markPrice ≤ liquidationPrice pos contract ∨
        pos.side = .short ∧ liquidationPrice pos contract ≤ markPrice) ↔
      positionEquity (pos.marked contract markPrice) ≤ pos.maintenanceMargin := by
  have hsize := size_pos hsized hflat
  have hscale : ∀ x : ℚ, x * (|pos.quantity| * contract.contractSize) ≤ 0 ↔ x ≤ 0 := fun x => by
    simpa using mul_le_mul_iff_of_pos_right (b := x) (c := 0) hsize
  rw [equity_marked hsized hflat, add_le_iff_nonpos_right, hscale]
  cases hside : pos.side with
  | flat => exact absurd hside (MarginPosition.side_ne_flat hflat).1
  | long => simp [signedQty]
  | short => simp [signedQty]

/-- The bankruptcy price, where margin and unrealized profit are gone. -/
def bankruptcyPrice (contract : PerpetualContract) (pos : MarginPosition) : ℚ :=
  liquidationPrice { pos with maintenanceMargin := 0 } contract

lemma evaluateLiquidation_eq (markPrice : ℚ) :
    ∃ result, evaluateLiquidation pos contract markPrice = .ok result ∧
      (result.liquidated = true ↔ positionEquity (pos.marked contract markPrice) ≤ pos.maintenanceMargin) ∧
      result.liquidationPrice = liquidationPrice pos contract ∧
      result.bankruptcyPrice = bankruptcyPrice contract pos := by
  have hsize := size_pos hsized hflat
  unfold evaluateLiquidation
  rw [if_neg hflat]
  dsimp only
  rw [if_neg hsize.ne']
  refine ⟨_, rfl, ?_, rfl, ?_⟩
  · rw [decide_eq_true_iff, reached_iff_equity hsized hflat]
  · have h := liquidationPrice_eq hsized hflat 0
    rw [bankruptcyPrice, h, sub_zero]
    unfold signedQty
    split
    · rfl
    · rw [sub_neg_eq_add]

/-- The price lies from the bankruptcy price to the entry price, on the side where the position loses. -/
def BetweenBankruptcyAndEntry (pos : MarginPosition) (price bankruptcy : ℚ) : Prop :=
  match pos.side with
  | .long => bankruptcy ≤ price ∧ price ≤ pos.avgEntryPrice
  | _ => pos.avgEntryPrice ≤ price ∧ price ≤ bankruptcy

lemma between_liquidationPrice (hmaintenance : 0 ≤ pos.maintenanceMargin)
    (hinitial : pos.maintenanceMargin ≤ pos.initialMargin) :
    BetweenBankruptcyAndEntry pos (liquidationPrice pos contract) (bankruptcyPrice contract pos) := by
  have hsize := size_pos hsized hflat
  have hliq := liquidationPrice_eq hsized hflat pos.maintenanceMargin
  have hsame : liquidationPrice { pos with maintenanceMargin := pos.maintenanceMargin } contract =
      liquidationPrice pos contract := rfl
  have hdistance : 0 ≤ (pos.initialMargin - pos.maintenanceMargin) / (|pos.quantity| * contract.contractSize) :=
    div_nonneg (sub_nonneg.mpr hinitial) hsize.le
  have hfarther : (pos.initialMargin - pos.maintenanceMargin) / (|pos.quantity| * contract.contractSize) ≤
      (pos.initialMargin - 0) / (|pos.quantity| * contract.contractSize) := by
    gcongr
  rw [← hsame, hliq, bankruptcyPrice, liquidationPrice_eq hsized hflat 0, BetweenBankruptcyAndEntry]
  cases hside : pos.side with
  | flat => exact absurd hside (MarginPosition.side_ne_flat hflat).1
  | long =>
    simp only [signedQty, if_true]
    constructor <;> linarith
  | short =>
    simp only [signedQty, reduceCtorEq, if_false]
    constructor <;> linarith

end Equity

/-- A position is liquidated exactly when its margin and its unrealized profit at the mark are no more
than the maintenance margin, and its liquidation price lies between bankruptcy and entry. -/
theorem liquidation_matches_equity (pos : MarginPosition) (contract : PerpetualContract) (markPrice : ℚ)
    (hsized : 0 < contract.contractSize) (hflat : ¬pos.isFlat) :
    ∃ result, evaluateLiquidation pos contract markPrice = .ok result ∧
      (result.liquidated = true ↔ positionEquity (pos.marked contract markPrice) ≤ pos.maintenanceMargin) ∧
      (0 ≤ pos.maintenanceMargin → pos.maintenanceMargin ≤ pos.initialMargin →
        BetweenBankruptcyAndEntry pos result.liquidationPrice result.bankruptcyPrice) ∧
      (pos.Signed → (pos.marked contract markPrice).unrealizedPnl =
        pos.quantity * (markPrice - pos.avgEntryPrice) * contract.contractSize) := by
  obtain ⟨result, hresult, hliquidated, hliq, hbankruptcy⟩ := evaluateLiquidation_eq hsized hflat markPrice
  refine ⟨result, hresult, hliquidated, fun hmaintenance hinitial => ?_, fun hsigned => markedPnl_of_signed hsigned markPrice⟩
  rw [hliq, hbankruptcy]
  exact between_liquidationPrice hsized hflat hmaintenance hinitial

/-- A short of 2 contracts of 1/10 at 100, with the margins 4 and 1, at its liquidation price. -/
theorem short_liquidated_at_boundary :
    let pos : MarginPosition := { symbol := "BTCUSDT_PERP", side := .short, quantity := -2, avgEntryPrice := 100
                                  initialMargin := 4, maintenanceMargin := 1 }
    ∃ result, evaluateLiquidation pos { symbol := "BTCUSDT_PERP", contractSize := 1 / 10 } 115 = .ok result ∧
      result.liquidated = true := by
  intro pos
  obtain ⟨result, hresult, hliquidated, -⟩ :=
    liquidation_matches_equity pos { symbol := "BTCUSDT_PERP", contractSize := 1 / 10 } 115 (by decide +kernel) (by decide +kernel)
  exact ⟨result, hresult, hliquidated.mpr (by decide +kernel)⟩

end CryptoTrader
