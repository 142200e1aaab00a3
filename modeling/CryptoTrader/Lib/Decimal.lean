import Mathlib.Algebra.Order.Field.Power
import Mathlib.Data.Int.Log
import Mathlib.Data.Rat.Floor
import Mathlib.Tactic.FieldSimp
import Mathlib.Tactic.Linarith
import Mathlib.Tactic.Positivity
import Mathlib.Tactic.Ring

/-!
# Decimal arithmetic

The finite decimals of Python's `decimal` module: a sign, a coefficient and an exponent, and the
number they stand for. Operations that round keep a given number of digits, and quantizing fails
where more would be needed. The limits of the exponent are left out.
-/

structure Decimal where
  negative : Bool := false
  coefficient : ℕ
  exponent : ℤ := 0
  deriving DecidableEq, Repr

namespace Decimal

def magnitude (d : Decimal) : ℚ :=
  d.coefficient * 10 ^ d.exponent

def value (d : Decimal) : ℚ :=
  if d.negative then -d.magnitude else d.magnitude

/-! ### Rounding -/

inductive Rounding where
  | halfEven
  | halfUp
  | down
  deriving DecidableEq, Repr

/-- A magnitude rounded to a whole number. -/
def Rounding.whole (r : Rounding) (x : ℚ) : ℕ :=
  match r with
  | .halfEven => if x - ⌊x⌋₊ < 1 / 2 ∨ x - ⌊x⌋₊ = 1 / 2 ∧ ⌊x⌋₊ % 2 = 0 then ⌊x⌋₊ else ⌊x⌋₊ + 1
  | .halfUp => ⌊x + 1 / 2⌋₊
  | .down => ⌊x⌋₊

/-- The decimal with the given exponent, none if its coefficient has more than `prec` digits. -/
def quantize (prec : ℕ) (r : Rounding) (exponent : ℤ) (d : Decimal) : Option Decimal :=
  let coefficient := r.whole (d.magnitude / 10 ^ exponent)
  if coefficient < 10 ^ prec then some ⟨d.negative, coefficient, exponent⟩ else none

/-- The decimal rounded to `prec` digits. -/
def fix (prec : ℕ) (d : Decimal) : Decimal :=
  if d.coefficient < 10 ^ prec then d
  else
    let excess := Nat.log 10 d.coefficient + 1 - prec
    let coefficient := Rounding.whole .halfEven (d.coefficient / 10 ^ excess)
    -- all nines round up to one digit more
    if coefficient = 10 ^ prec then ⟨d.negative, 10 ^ (prec - 1), d.exponent + excess + 1⟩
    else ⟨d.negative, coefficient, d.exponent + excess⟩

/-- The zeros at the end of a coefficient go into the exponent. -/
def stripZeros : ℕ → ℕ → ℤ → ℕ × ℤ
  | 0, c, e => (c, e)
  | fuel + 1, c, e => if c % 10 = 0 then stripZeros fuel (c / 10) (e + 1) else (c, e)

def normalize (prec : ℕ) (d : Decimal) : Decimal :=
  let fixed := d.fix prec
  if fixed.coefficient = 0 then ⟨d.negative, 0, 0⟩
  else
    let stripped := stripZeros (Nat.log2 fixed.coefficient + 1) fixed.coefficient fixed.exponent
    ⟨d.negative, stripped.1, stripped.2⟩

/-- The unit of the last of `prec` digits. -/
def lastUnit (prec : ℕ) (x : ℚ) : ℚ :=
  10 ^ (Int.log 10 |x| + 1 - prec)

/-- A number rounded to `prec` digits, half to even. -/
def roundDigits (prec : ℕ) (x : ℚ) : ℚ :=
  let magnitude := Rounding.whole .halfEven (|x| / lastUnit prec x) * lastUnit prec x
  if x < 0 then -magnitude else magnitude

/-- The number has at most `prec` significant digits. -/
def HasDigits (prec : ℕ) (x : ℚ) : Prop :=
  ∃ (coefficient : ℕ) (exponent : ℤ), coefficient < 10 ^ prec ∧ |x| = coefficient * 10 ^ exponent

/-! ### The value -/

section Value

variable (d : Decimal)

lemma magnitude_nonneg : 0 ≤ d.magnitude := by
  unfold magnitude
  positivity

lemma abs_value : |d.value| = d.magnitude := by
  unfold value
  split
  · rw [abs_neg, abs_of_nonneg d.magnitude_nonneg]
  · exact abs_of_nonneg d.magnitude_nonneg

lemma magnitude_eq_zero : d.magnitude = 0 ↔ d.coefficient = 0 := by
  unfold magnitude
  have hten : (10 : ℚ) ^ d.exponent ≠ 0 := by positivity
  rw [mul_eq_zero, or_iff_left hten, Nat.cast_eq_zero]

lemma magnitude_div (exponent : ℤ) : d.magnitude / 10 ^ exponent = d.coefficient * 10 ^ (d.exponent - exponent) := by
  unfold magnitude
  rw [zpow_sub₀ (by norm_num), mul_div_assoc]

variable {d}

/-- Decimals of one value that is not zero have one sign. -/
lemma negative_eq_of_value_eq {d' : Decimal} (hne : d.value ≠ 0) (h : d.value = d'.value) :
    d.negative = d'.negative := by
  have hm : 0 < d.magnitude := by
    rw [← abs_value]
    exact abs_pos.mpr hne
  have hm' : 0 < d'.magnitude := by
    rw [← abs_value, ← h]
    exact abs_pos.mpr hne
  unfold value at h
  cases hd : d.negative <;> cases hd' : d'.negative <;> simp only [hd, hd', if_true, if_false, Bool.false_eq_true] at h
  · rfl
  · linarith
  · linarith
  · rfl

/-- Of two decimals of one magnitude the one with the smaller exponent has more zeros. -/
lemma exists_zeros_of_magnitude_eq {d' : Decimal} (h : d.magnitude = d'.magnitude) (hexp : d'.exponent ≤ d.exponent) :
    ∃ j : ℕ, d'.coefficient = d.coefficient * 10 ^ j ∧ d'.exponent = d.exponent - j := by
  obtain ⟨j, hj⟩ := Int.eq_ofNat_of_zero_le (sub_nonneg.mpr hexp)
  refine ⟨j, ?_, by omega⟩
  have hten : (10 : ℚ) ^ d'.exponent ≠ 0 := by positivity
  have hsplit : d.exponent = d'.exponent + (j : ℤ) := by omega
  unfold magnitude at h
  rw [hsplit, zpow_add₀ (by norm_num), zpow_natCast, mul_left_comm, mul_comm _ ((10 : ℚ) ^ d'.exponent)] at h
  have hcast := mul_left_cancel₀ hten h
  exact_mod_cast hcast.symm

lemma value_eq_of_magnitude {d d' : Decimal} (hneg : d'.negative = d.negative) (h : d'.magnitude = d.magnitude) :
    d'.value = d.value := by
  rw [value, value, hneg, h]

end Value

/-! ### Rounding a magnitude -/

section Whole

variable {x : ℚ}

lemma whole_natCast (r : Rounding) (n : ℕ) : r.whole (n : ℚ) = n := by
  cases r with
  | halfEven => simp [Rounding.whole]
  | halfUp =>
    simp only [Rounding.whole]
    rw [Nat.floor_eq_iff (by positivity)]
    constructor <;> linarith
  | down => simp [Rounding.whole]

lemma whole_halfUp_eq_iff (hx : 0 ≤ x) (n : ℕ) :
    Rounding.whole .halfUp x = n ↔ (n : ℚ) ≤ x + 1 / 2 ∧ x + 1 / 2 < n + 1 :=
  Nat.floor_eq_iff (by linarith)

lemma whole_halfUp_lt_iff (hx : 0 ≤ x) (n : ℕ) : Rounding.whole .halfUp x < n ↔ x + 1 / 2 < n :=
  Nat.floor_lt (by linarith)

lemma whole_halfEven_error (hx : 0 ≤ x) : |(Rounding.whole .halfEven x : ℚ) - x| ≤ 1 / 2 := by
  have hfloor := Nat.floor_le hx
  have hceil := Nat.lt_floor_add_one x
  simp only [Rounding.whole]
  split
  · rename_i hdown
    rw [abs_le]
    rcases hdown with h | ⟨h, -⟩ <;> constructor <;> linarith
  · rename_i hup
    have hle : (⌊x⌋₊ : ℚ) + 1 / 2 ≤ x := by
      by_contra hlt
      exact hup (.inl (by linarith))
    rw [abs_le]
    push_cast
    constructor <;> linarith

/-- Of two whole numbers at one distance it is the even one. -/
lemma whole_halfEven_tie (hx : 0 ≤ x) (h : |(Rounding.whole .halfEven x : ℚ) - x| = 1 / 2) :
    Rounding.whole .halfEven x % 2 = 0 := by
  have hfloor := Nat.floor_le hx
  have hceil := Nat.lt_floor_add_one x
  simp only [Rounding.whole] at h ⊢
  split at h
  · rename_i hdown
    rw [if_pos hdown]
    rw [abs_sub_comm, abs_of_nonneg (sub_nonneg.mpr hfloor)] at h
    rcases hdown with hlt | ⟨-, heven⟩
    · exact absurd h hlt.ne
    · exact heven
  · rename_i hup
    rw [if_neg hup]
    push_cast at h
    rw [abs_of_pos (by linarith)] at h
    have hodd : ¬⌊x⌋₊ % 2 = 0 := fun heven => hup (.inr ⟨by linarith, heven⟩)
    omega

/-- Below an even number round the numbers that are less by more than a half. -/
lemma whole_halfEven_lt_iff (hx : 0 ≤ x) {n : ℕ} (heven : n % 2 = 0) :
    Rounding.whole .halfEven x < n ↔ x < n - 1 / 2 := by
  obtain ⟨hbelow, habove⟩ := abs_le.mp (whole_halfEven_error hx)
  constructor
  · intro h
    have hsucc : (Rounding.whole .halfEven x : ℚ) + 1 ≤ n := by exact_mod_cast h
    by_contra hge
    -- At the half itself the even number is not below.
    have htie := whole_halfEven_tie hx (by rw [abs_of_nonpos (by linarith)]; linarith)
    have hnext : (Rounding.whole .halfEven x : ℚ) + 1 = n := by linarith
    have hnext : Rounding.whole .halfEven x + 1 = n := by exact_mod_cast hnext
    omega
  · intro h
    have hlt : (Rounding.whole .halfEven x : ℚ) < n := by linarith
    exact_mod_cast hlt

/-- Above an even number round the numbers that are greater by more than a half. -/
lemma lt_whole_halfEven_iff (hx : 0 ≤ x) {n : ℕ} (heven : n % 2 = 0) :
    n < Rounding.whole .halfEven x ↔ n + 1 / 2 < x := by
  obtain ⟨hbelow, habove⟩ := abs_le.mp (whole_halfEven_error hx)
  constructor
  · intro h
    have hsucc : (n : ℚ) + 1 ≤ Rounding.whole .halfEven x := by exact_mod_cast h
    by_contra hge
    have htie := whole_halfEven_tie hx (by rw [abs_of_nonneg (by linarith)]; linarith)
    have hnext : (n : ℚ) + 1 = Rounding.whole .halfEven x := by linarith
    have hnext : n + 1 = Rounding.whole .halfEven x := by exact_mod_cast hnext
    omega
  · intro h
    have hlt : (n : ℚ) < Rounding.whole .halfEven x := by linarith
    exact_mod_cast hlt

end Whole

/-! ### Rounding to a number of digits -/

section Digits

variable {prec : ℕ} {x : ℚ}

lemma lastUnit_pos (prec : ℕ) (x : ℚ) : 0 < lastUnit prec x := by
  unfold lastUnit
  positivity

lemma lastUnit_le (prec : ℕ) {x : ℚ} (hx : x ≠ 0) : lastUnit prec x ≤ |x| * 10 ^ (1 - prec : ℤ) := by
  have hlog : ((10 : ℕ) : ℚ) ^ Int.log 10 |x| ≤ |x| := Int.zpow_log_le_self (by norm_num) (abs_pos.mpr hx)
  have hsplit : lastUnit prec x = 10 ^ Int.log 10 |x| * 10 ^ (1 - prec : ℤ) := by
    rw [lastUnit, ← zpow_add₀ (by norm_num)]
    ring_nf
  push_cast at hlog
  rw [hsplit]
  gcongr

lemma abs_roundDigits_sub (prec : ℕ) (x : ℚ) :
    |roundDigits prec x - x| =
      |(Rounding.whole .halfEven (|x| / lastUnit prec x) : ℚ) - |x| / lastUnit prec x| * lastUnit prec x := by
  have hunit := lastUnit_pos prec x
  have hscale : |x| = |x| / lastUnit prec x * lastUnit prec x := (div_mul_cancel₀ _ hunit.ne').symm
  nth_rewrite 3 [← abs_of_pos hunit]
  rw [← abs_mul, sub_mul, ← hscale]
  unfold roundDigits
  dsimp only
  split
  · rename_i hneg
    rw [abs_of_neg hneg, ← abs_neg]
    congr 1
    ring
  · rename_i hpos
    rw [abs_of_nonneg (not_lt.mp hpos)]

/-- The error is at most half a unit of the last digit. -/
lemma roundDigits_error (prec : ℕ) (x : ℚ) : |roundDigits prec x - x| ≤ |x| * 10 ^ (1 - prec : ℤ) / 2 := by
  rcases eq_or_ne x 0 with rfl | hx
  · simp [roundDigits, Rounding.whole]
  have hunit := lastUnit_pos prec x
  have herror := whole_halfEven_error (div_nonneg (abs_nonneg x) hunit.le)
  have hle := lastUnit_le prec hx
  rw [abs_roundDigits_sub]
  calc _ ≤ 1 / 2 * lastUnit prec x := mul_le_mul_of_nonneg_right herror hunit.le
    _ ≤ |x| * 10 ^ (1 - prec : ℤ) / 2 := by linarith

/-- A number of so many digits is not changed. -/
lemma roundDigits_of_hasDigits (h : HasDigits prec x) : roundDigits prec x = x := by
  obtain ⟨c, e, hc, hx⟩ := h
  rcases Nat.eq_zero_or_pos c with rfl | hcpos
  · have hzero : x = 0 := by simpa using hx
    subst hzero
    simp [roundDigits, Rounding.whole]
  have hpos : 0 < |x| := by
    rw [hx]
    positivity
  have hlt : |x| < ((10 : ℕ) : ℚ) ^ (prec + e : ℤ) := by
    rw [hx, zpow_add₀ (by norm_num)]
    push_cast
    rw [zpow_natCast]
    exact mul_lt_mul_of_pos_right (by exact_mod_cast hc) (by positivity)
  have hlog : Int.log 10 |x| < prec + e := (Int.lt_zpow_iff_log_lt (by norm_num) hpos).mp hlt
  obtain ⟨k, hk⟩ : ∃ k : ℕ, e - (Int.log 10 |x| + 1 - prec) = k := Int.eq_ofNat_of_zero_le (by omega)
  have hwhole : |x| / lastUnit prec x = ((c * 10 ^ k : ℕ) : ℚ) := by
    have hsub : (10 : ℚ) ^ e / lastUnit prec x = 10 ^ k := by
      rw [lastUnit, ← zpow_sub₀ (by norm_num), hk, zpow_natCast]
    rw [hx, mul_div_assoc, hsub]
    push_cast
    rfl
  have hzero : |roundDigits prec x - x| = 0 := by
    rw [abs_roundDigits_sub, hwhole, whole_natCast, sub_self, abs_zero, zero_mul]
  exact sub_eq_zero.mp (abs_eq_zero.mp hzero)

lemma hasDigits_iff : HasDigits prec x ↔ roundDigits prec x = x := by
  refine ⟨roundDigits_of_hasDigits, fun h => ?_⟩
  have hunit := lastUnit_pos prec x
  have hscale : |x| = |x| / lastUnit prec x * lastUnit prec x := (div_mul_cancel₀ _ hunit.ne').symm
  have hzero : |roundDigits prec x - x| = 0 := by rw [h, sub_self, abs_zero]
  rw [abs_roundDigits_sub, mul_eq_zero, or_iff_left hunit.ne', abs_eq_zero, sub_eq_zero] at hzero
  refine ⟨Rounding.whole .halfEven (|x| / lastUnit prec x), Int.log 10 |x| + 1 - prec, ?_, ?_⟩
  · have hlt : |x| < ((10 : ℕ) : ℚ) ^ (Int.log 10 |x| + 1) := Int.lt_zpow_succ_log_self (by norm_num) _
    have hsplit : ((10 : ℕ) : ℚ) ^ (Int.log 10 |x| + 1) = ((10 ^ prec : ℕ) : ℚ) * lastUnit prec x := by
      push_cast
      rw [lastUnit, ← zpow_natCast, ← zpow_add₀ (by norm_num)]
      ring_nf
    rw [hsplit, ← div_lt_iff₀ hunit, ← hzero] at hlt
    exact_mod_cast hlt
  · rw [hzero]
    exact hscale

end Digits

end Decimal
