import Mathlib.Algebra.Order.Field.Basic
import Mathlib.Tactic.Ring

/-!
# Holdings at average cost

A holding is a quantity and what it cost. A sale takes its quantity at the average off the
cost, so it leaves the average as it is.
-/

namespace AverageCost

structure Holding (K : Type) where
  quantity : K
  cost : K
  deriving DecidableEq, Repr

namespace Holding

variable {K : Type} [Field K]

def empty : Holding K :=
  ⟨0, 0⟩

/-- What a unit cost. -/
def average (h : Holding K) : K :=
  h.cost / h.quantity

def buy (h : Holding K) (quantity price : K) : Holding K :=
  ⟨h.quantity + quantity, h.cost + price * quantity⟩

def sell (h : Holding K) (quantity : K) : Holding K :=
  ⟨h.quantity - quantity, h.cost - h.average * quantity⟩

variable [LinearOrder K]

/-- Neither quantity nor cost is negative, and nothing costs nothing. -/
structure Long (h : Holding K) : Prop where
  quantity : 0 ≤ h.quantity
  cost : 0 ≤ h.cost
  flat : h.quantity = 0 → h.cost = 0

lemma long_empty : Long (empty : Holding K) :=
  ⟨le_rfl, le_rfl, fun _ => rfl⟩

variable {h : Holding K} {quantity price : K}

lemma Long.average_mul (hl : h.Long) : h.average * h.quantity = h.cost := by
  unfold average
  by_cases hq : h.quantity = 0
  · rw [hq, mul_zero, hl.flat hq]
  · exact div_mul_cancel₀ _ hq

/-- What a sale leaves of the cost is what it leaves of the quantity, at the average. -/
lemma Long.sell_cost (hl : h.Long) (quantity : K) : (h.sell quantity).cost = h.average * (h.sell quantity).quantity := by
  unfold sell
  dsimp only
  rw [mul_sub, hl.average_mul]

/-- A sale that leaves something leaves the average. -/
lemma Long.average_sell (hl : h.Long) (hleft : (h.sell quantity).quantity ≠ 0) : (h.sell quantity).average = h.average := by
  rw [average, hl.sell_cost]
  exact mul_div_cancel_right₀ _ hleft

variable [IsStrictOrderedRing K]

lemma Long.average_nonneg (hl : h.Long) : 0 ≤ h.average :=
  div_nonneg hl.cost hl.quantity

lemma Long.buy (hl : h.Long) (hquantity : 0 ≤ quantity) (hprice : 0 ≤ price) : (h.buy quantity price).Long := by
  refine ⟨add_nonneg hl.quantity hquantity, add_nonneg hl.cost (mul_nonneg hprice hquantity), fun hzero => ?_⟩
  obtain ⟨hold, hnew⟩ := (add_eq_zero_iff_of_nonneg hl.quantity hquantity).mp hzero
  unfold Holding.buy
  dsimp only
  rw [hl.flat hold, hnew, mul_zero, add_zero]

lemma Long.sell (hl : h.Long) (hle : quantity ≤ h.quantity) : (h.sell quantity).Long := by
  have hleft : 0 ≤ (h.sell quantity).quantity := sub_nonneg.mpr hle
  refine ⟨hleft, ?_, fun hzero => ?_⟩
  · rw [hl.sell_cost]
    exact mul_nonneg hl.average_nonneg hleft
  · rw [hl.sell_cost, hzero, mul_zero]

end Holding

end AverageCost
