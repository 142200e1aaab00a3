import Mathlib.Algebra.Order.Floor.Ring
import Mathlib.Tactic.Common

/-!
# Cutting an amount into slices

How many equal slices keep to a limit: at least the quotient of the amount and the limit, rounded up.
A count that is rounded down keeps to it only if there is nothing to round.
-/

namespace Slices

variable {K : Type} [Field K] [LinearOrder K] [IsStrictOrderedRing K] [FloorRing K] {amount limit : K}

/-- So many slices keep to the limit if there are enough of them. -/
lemma slice_le_iff {n : ℤ} (hn : 0 < n) (hlimit : 0 < limit) : amount / n ≤ limit ↔ ⌈amount / limit⌉ ≤ n := by
  have hpos : (0 : K) < n := Int.cast_pos.mpr hn
  rw [Int.ceil_le, div_le_iff₀ hpos, div_le_iff₀ hlimit, mul_comm]

/-- A number that is rounded down reaches a larger one rounded up only if the two are the same whole number. -/
lemma ceil_le_floor_iff {r q : K} (h : r ≤ q) : ⌈q⌉ ≤ ⌊r⌋ ↔ r = q ∧ ∃ n : ℤ, q = n := by
  constructor
  · intro hle
    have hqr : q ≤ r :=
      calc q ≤ ⌈q⌉ := Int.le_ceil q
        _ ≤ ⌊r⌋ := Int.cast_le.mpr hle
        _ ≤ r := Int.floor_le r
    have heq : r = q := le_antisymm h hqr
    refine ⟨heq, ⌈q⌉, le_antisymm (Int.le_ceil q) ?_⟩
    calc (⌈q⌉ : K) ≤ ⌊r⌋ := Int.cast_le.mpr hle
      _ ≤ r := Int.floor_le r
      _ = q := heq
  · rintro ⟨rfl, n, hn⟩
    rw [hn, Int.ceil_intCast, Int.floor_intCast]

/-- The number of slices of at most the limit and the unit, rounded down, but at least `least`. -/
def truncated (least : ℤ) (unit amount limit : K) : ℤ :=
  max least ⌊amount / max limit unit⌋

/-- Rounded down, the slices keep to the limit if the least number of them does, or if the limit is not below the
unit and goes into the amount. -/
theorem truncated_slice_le_iff {least : ℤ} {unit : K} (hleast : 0 < least) (hlimit : 0 < limit) (hamount : 0 < amount) :
    amount / truncated least unit amount limit ≤ limit ↔
      amount ≤ least * limit ∨ unit ≤ limit ∧ ∃ n : ℤ, amount = n * limit := by
  have hcount : 0 < truncated least unit amount limit := lt_max_of_lt_left hleast
  have hquotient : amount / max limit unit ≤ amount / limit :=
    div_le_div_of_nonneg_left hamount.le hlimit (le_max_left limit unit)
  rw [slice_le_iff hcount hlimit, truncated, le_max_iff, ceil_le_floor_iff hquotient]
  apply or_congr
  · rw [Int.ceil_le, div_le_iff₀ hlimit]
  · apply and_congr
    · rw [div_eq_mul_inv, div_eq_mul_inv, mul_right_inj' hamount.ne', inv_inj, max_eq_left_iff]
    · apply exists_congr
      intro n
      rw [div_eq_iff hlimit.ne']

end Slices
