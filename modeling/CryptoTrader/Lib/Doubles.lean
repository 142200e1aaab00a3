import CryptoTrader.Lib.Decimal

/-!
# Floating point numbers

A rational number rounded to the 53 binary digits of a `float`, half to even; the limits of the
exponent are left out. A bound between a half and one is reached by the rounded number exactly from
half a unit below the least such number on.
-/

namespace Doubles

open Decimal

/-- The unit of the last of 53 binary digits. -/
def unit (x : ℚ) : ℚ :=
  2 ^ (Int.log 2 |x| - 52)

def round (x : ℚ) : ℚ :=
  let magnitude := Rounding.whole .halfEven (|x| / unit x) * unit x
  if x < 0 then -magnitude else magnitude

lemma unit_pos (x : ℚ) : 0 < unit x := by
  unfold unit
  positivity

section Positive

variable {x : ℚ} (hpos : 0 < x)
include hpos

lemma round_of_pos : round x = Rounding.whole .halfEven (x / unit x) * unit x := by
  rw [round, abs_of_pos hpos]
  exact if_neg hpos.le.not_gt

lemma round_of_log {k : ℤ} (hlow : 2 ^ k ≤ x) (hhigh : x < 2 ^ (k + 1)) :
    round x = Rounding.whole .halfEven (x / 2 ^ (k - 52)) * 2 ^ (k - 52) := by
  have hle : k ≤ Int.log 2 x := (Int.zpow_le_iff_le_log (by norm_num) hpos).mp (by exact_mod_cast hlow)
  have hlt : Int.log 2 x < k + 1 := (Int.lt_zpow_iff_log_lt (by norm_num) hpos).mp (by exact_mod_cast hhigh)
  have hlog : Int.log 2 x = k := by omega
  rw [round_of_pos hpos, unit, abs_of_pos hpos, hlog]

/-- Rounding does not pass a power of two. -/
lemma round_le_half (h : x < 1 / 2) : round x ≤ 1 / 2 := by
  have hunit := unit_pos x
  have hself : x < ((2 : ℕ) : ℚ) ^ (Int.log 2 x + 1) := Int.lt_zpow_succ_log_self (by norm_num) x
  have hlog : Int.log 2 x < -1 := by
    apply (Int.lt_zpow_iff_log_lt (by norm_num) hpos).mp
    norm_num
    linarith
  have hscale : ((2 : ℕ) : ℚ) ^ (Int.log 2 x + 1) = (2 ^ 53 : ℕ) * unit x := by
    have hpow : ((2 ^ 53 : ℕ) : ℚ) = 2 ^ (53 : ℤ) := by norm_num
    rw [hpow, unit, abs_of_pos hpos, ← zpow_add₀ (by norm_num)]
    push_cast
    congr 1
    ring
  have hwhole : Rounding.whole .halfEven (x / unit x) ≤ 2 ^ 53 := by
    by_contra hlt
    have hover := (lt_whole_halfEven_iff (div_nonneg hpos.le hunit.le) (by norm_num)).mp (not_le.mp hlt)
    rw [hscale, ← div_lt_iff₀ hunit] at hself
    linarith
  rw [round_of_pos hpos]
  calc (Rounding.whole .halfEven (x / unit x) : ℚ) * unit x ≤ (2 ^ 53 : ℕ) * unit x := by
        gcongr
    _ = 2 ^ (Int.log 2 x + 1) := by rw [← hscale]; norm_num
    _ ≤ 2 ^ (-1 : ℤ) := zpow_le_zpow_right₀ (by norm_num) (by omega)
    _ = 1 / 2 := by norm_num

lemma round_of_half_le (hlow : 1 / 2 ≤ x) (hhigh : x < 1) :
    round x = Rounding.whole .halfEven (x * 2 ^ 53) / 2 ^ 53 := by
  have h := round_of_log hpos (k := -1) (by norm_num; linarith) (by norm_num; linarith)
  rw [h]
  norm_num [zpow_neg, div_eq_mul_inv]

/-- Where the rounded number reaches a bound, of which `n` is the least multiple of the unit. -/
lemma le_round_iff {t : ℚ} (ht : 1 / 2 < t) (ht' : t ≤ 1) (hx : x ≤ 1) {n : ℕ} (hn : ∀ m : ℕ, t * 2 ^ 53 ≤ m ↔ n ≤ m) :
    t ≤ round x ↔ x = 1 ∨ 1 / 2 ≤ x ∧ x < 1 ∧ n ≤ Rounding.whole .halfEven (x * 2 ^ 53) := by
  rcases lt_or_ge x (1 / 2) with hlow | hlow
  · have hle := round_le_half hpos hlow
    constructor
    · intro h
      linarith
    · rintro (rfl | h)
      · linarith
      · exact absurd hlow h.1.not_gt
  · rcases hx.lt_or_eq with hhigh | rfl
    · rw [round_of_half_le hpos hlow hhigh, le_div_iff₀ (by positivity), hn]
      constructor
      · exact fun h => .inr ⟨hlow, hhigh, h⟩
      · rintro (h | h)
        · exact absurd h hhigh.ne
        · exact h.2.2
    · have hone : round 1 = 1 := by
        rw [round_of_log one_pos (k := 0) (by norm_num) (by norm_num)]
        have hwhole := whole_natCast .halfEven (2 ^ 52)
        norm_num at hwhole ⊢
        rw [hwhole]
        norm_num
      rw [hone]
      exact iff_of_true ht' (.inl rfl)

/-- A bound whose least multiple is even is reached from half a unit below it on. -/
lemma le_round_iff_of_even {t : ℚ} (ht : 1 / 2 < t) (ht' : t ≤ 1) (hx : x ≤ 1) {n : ℕ}
    (hn : ∀ m : ℕ, t * 2 ^ 53 ≤ m ↔ n ≤ m) (heven : n % 2 = 0) : t ≤ round x ↔ (n - 1 / 2) / 2 ^ 53 ≤ x := by
  have hle : n ≤ 2 ^ 53 := (hn _).mp (by push_cast; linarith)
  have hgt : 2 ^ 52 < n := by
    by_contra hge
    have := (hn (2 ^ 52)).mpr (not_lt.mp hge)
    push_cast at this
    linarith
  have hle' : (n : ℚ) ≤ 2 ^ 53 := by exact_mod_cast hle
  have hgt' : (2 ^ 52 : ℚ) + 1 ≤ n := by exact_mod_cast hgt
  rw [le_round_iff hpos ht ht' hx hn, div_le_iff₀ (by positivity : (0 : ℚ) < 2 ^ 53)]
  constructor
  · rintro (rfl | ⟨-, -, h⟩)
    · linarith
    · have hlt := mt (whole_halfEven_lt_iff (by positivity : 0 ≤ x * 2 ^ 53) heven).mpr (not_lt.mpr h)
      exact not_lt.mp hlt
  · intro h
    rcases hx.lt_or_eq with hlt | heq
    · refine .inr ⟨by linarith, hlt, ?_⟩
      by_contra hwhole
      have := (whole_halfEven_lt_iff (by positivity : 0 ≤ x * 2 ^ 53) heven).mp (not_le.mp hwhole)
      linarith
    · exact .inl heq

/-- A bound whose least multiple is odd is reached above half a unit below it. -/
lemma le_round_iff_of_odd {t : ℚ} (ht : 1 / 2 < t) (ht' : t ≤ 1) (hx : x ≤ 1) {n : ℕ}
    (hn : ∀ m : ℕ, t * 2 ^ 53 ≤ m ↔ n + 1 ≤ m) (heven : n % 2 = 0) : t ≤ round x ↔ (n + 1 / 2) / 2 ^ 53 < x := by
  have hle : n + 1 ≤ 2 ^ 53 := (hn _).mp (by push_cast; linarith)
  have hgt : 2 ^ 52 < n + 1 := by
    by_contra hge
    have := (hn (2 ^ 52)).mpr (not_lt.mp hge)
    push_cast at this
    linarith
  have hle' : (n : ℚ) + 1 ≤ 2 ^ 53 := by exact_mod_cast hle
  have hgt' : (2 ^ 52 : ℚ) + 1 ≤ n + 1 := by exact_mod_cast hgt
  rw [le_round_iff hpos ht ht' hx hn, div_lt_iff₀ (by positivity : (0 : ℚ) < 2 ^ 53)]
  constructor
  · rintro (rfl | ⟨-, -, h⟩)
    · linarith
    · exact (lt_whole_halfEven_iff (by positivity) heven).mp h
  · intro h
    rcases hx.lt_or_eq with hlt | heq
    · exact .inr ⟨by linarith, hlt, (lt_whole_halfEven_iff (by positivity) heven).mpr h⟩
    · exact .inl heq

end Positive

end Doubles
