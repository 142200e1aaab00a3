import Mathlib.Algebra.BigOperators.Group.List.Basic
import Mathlib.Algebra.Order.BigOperators.Group.List
import Mathlib.Algebra.Order.Field.Basic
import Mathlib.Data.List.DropRight
import Mathlib.Tactic.Linarith
import Mathlib.Tactic.Positivity

/-!
# Samples

Windows at the end of a series, the changes from one value to the next, and the mean and the two
variances of a sample. The squared deviations are zero exactly if all values are equal.
-/

namespace Samples

/-! ### Windows -/

section Windows

variable {α β : Type} (l : List α)

lemma rtake_of_length_le {n : ℕ} (h : l.length ≤ n) : l.rtake n = l := by
  rw [List.rtake, Nat.sub_eq_zero_of_le h, List.drop_zero]

lemma length_rtake (n : ℕ) : (l.rtake n).length = min n l.length := by
  rw [List.rtake, List.length_drop]
  omega

lemma map_rtake (f : α → β) (n : ℕ) : (l.rtake n).map f = (l.map f).rtake n := by
  rw [List.rtake, List.rtake, List.map_drop, List.length_map]

/-- A window of a wider window. -/
lemma rtake_rtake {m n : ℕ} (h : n ≤ m) : (l.rtake m).rtake n = l.rtake n := by
  simp only [List.rtake_eq_reverse_take_reverse, List.reverse_reverse, List.take_take, min_eq_left h]

lemma rtake_append_rtake (ys : List α) (n : ℕ) : (l.rtake n ++ ys).rtake n = (l ++ ys).rtake n := by
  simp only [List.rtake_eq_reverse_take_reverse, List.reverse_append, List.reverse_reverse, List.take_append,
    List.take_take, Nat.min_eq_left (Nat.sub_le _ _)]

/-- The last values before the last one. -/
lemma dropLast_rtake (n : ℕ) : (l.rtake (n + 1)).dropLast = l.dropLast.rtake n := by
  rcases l.eq_nil_or_concat with rfl | ⟨xs, x, rfl⟩
  · simp
  · rw [List.concat_eq_append, List.rtake_concat_succ, List.dropLast_concat, List.dropLast_concat]

end Windows

/-! ### Mean and variance -/

section Variance

variable {K : Type} [Field K]

def mean (xs : List K) : K := xs.sum / xs.length

def squaredDeviations (xs : List K) : K := (xs.map (fun x => (x - mean xs) ^ 2)).sum

def populationVariance (xs : List K) : K := squaredDeviations xs / xs.length

def sampleVariance (xs : List K) : K := squaredDeviations xs / (xs.length - 1)

/-- The relative changes of a series. -/
def changes : List K → List K
  | x :: y :: xs => (y - x) / x :: changes (y :: xs)
  | _ => []

lemma length_changes (xs : List K) : (changes xs).length = xs.length - 1 := by
  fun_induction changes xs with
  | case1 x y xs ih => simp only [List.length_cons, ih]; omega
  | case2 xs h =>
    match xs, h with
    | [], _ => rfl
    | [x], _ => rfl
    | x :: y :: xs, h => exact absurd rfl (h x y xs)

variable [LinearOrder K] [IsStrictOrderedRing K]

lemma squaredDeviations_nonneg (xs : List K) : 0 ≤ squaredDeviations xs := by
  apply List.sum_nonneg
  intro y hy
  obtain ⟨x, -, rfl⟩ := List.mem_map.mp hy
  positivity

lemma mean_of_const {xs : List K} (hne : xs ≠ []) {c : K} (h : ∀ x ∈ xs, x = c) : mean xs = c := by
  have hconst : xs = List.replicate xs.length c := List.eq_replicate_iff.mpr ⟨rfl, h⟩
  have hlength : (xs.length : K) ≠ 0 := Nat.cast_ne_zero.mpr (mt List.length_eq_zero_iff.mp hne)
  rw [mean, hconst, List.sum_replicate, nsmul_eq_mul, List.length_replicate, mul_div_cancel_left₀ _ hlength]

lemma squaredDeviations_eq_zero_iff (xs : List K) :
    squaredDeviations xs = 0 ↔ ∀ x ∈ xs, ∀ y ∈ xs, x = y := by
  constructor
  · intro h
    have hmean : ∀ x ∈ xs, x = mean xs := by
      intro x hx
      have hnonneg : ∀ y ∈ xs.map (fun x => (x - mean xs) ^ 2), 0 ≤ y := by
        intro y hy
        obtain ⟨z, -, rfl⟩ := List.mem_map.mp hy
        positivity
      have hle := List.single_le_sum hnonneg _ (List.mem_map_of_mem hx)
      have hzero : (x - mean xs) ^ 2 = 0 := le_antisymm (hle.trans h.le) (by positivity)
      exact sub_eq_zero.mp (pow_eq_zero_iff (two_ne_zero)|>.mp hzero)
    intro x hx y hy
    rw [hmean x hx, hmean y hy]
  · intro h
    apply List.sum_eq_zero
    intro y hy
    obtain ⟨x, hx, rfl⟩ := List.mem_map.mp hy
    rw [mean_of_const (List.ne_nil_of_mem hx) (fun z hz => h z hz x hx), sub_self, zero_pow two_ne_zero]

lemma populationVariance_nonneg (xs : List K) : 0 ≤ populationVariance xs :=
  div_nonneg (squaredDeviations_nonneg xs) (Nat.cast_nonneg _)

end Variance

end Samples
