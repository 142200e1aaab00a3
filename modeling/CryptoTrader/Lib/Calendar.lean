import Mathlib.Data.Finset.Basic
import Mathlib.Data.Nat.Find
import Mathlib.Order.Interval.Finset.Nat
import Mathlib.Order.Monotone.Basic
import Mathlib.Tactic.IntervalCases

/-!
# The proleptic Gregorian calendar

Days are numbered from 0, the first of January of year 1, a Monday. A `Division` cuts the
days into consecutive periods; days, ISO weeks, months and years are four of them. Years
and months are numbered from 0 too, so that year 1 is the year of index 0.
-/

namespace Calendar

/-- Consecutive periods of days: where each starts, and in which one a day is. -/
structure Division where
  start : ℕ → ℕ
  index : ℕ → ℕ
  start_lt : ∀ k, start k < start (k + 1)
  start_index_le : ∀ n, start (index n) ≤ n
  lt_start_index : ∀ n, n < start (index n + 1)

namespace Division

variable (D : Division)

lemma strictMono : StrictMono D.start :=
  strictMono_nat_of_lt_succ D.start_lt

lemma start_le_iff {k n : ℕ} : D.start k ≤ n ↔ k ≤ D.index n := by
  constructor
  · intro h
    by_contra hlt
    have hk : D.start (D.index n + 1) ≤ D.start k := D.strictMono.monotone (by omega)
    have hn := D.lt_start_index n
    omega
  · intro h
    exact (D.strictMono.monotone h).trans (D.start_index_le n)

lemma index_eq_iff {k n : ℕ} : D.index n = k ↔ D.start k ≤ n ∧ n < D.start (k + 1) := by
  rw [← not_le, D.start_le_iff, D.start_le_iff]
  omega

@[simp] lemma index_start (k : ℕ) : D.index (D.start k) = k :=
  D.index_eq_iff.mpr ⟨le_refl _, D.start_lt k⟩

/-- The days of a period. -/
def days (k : ℕ) : Finset ℕ :=
  Finset.Ico (D.start k) (D.start (k + 1))

lemma mem_days {k n : ℕ} : n ∈ D.days k ↔ D.index n = k := by
  rw [days, Finset.mem_Ico, D.index_eq_iff]

end Division

/-! ### Days and weeks -/

def dayDivision : Division where
  start := id
  index := id
  start_lt := fun k => Nat.lt_succ_self k
  start_index_le := fun n => le_refl n
  lt_start_index := fun n => Nat.lt_succ_self n

def weekDivision : Division where
  start := fun w => 7 * w
  index := fun n => n / 7
  start_lt := fun w => by omega
  start_index_le := fun n => by omega
  lt_start_index := fun n => by omega

/-- Monday is 0. -/
def weekday (n : ℕ) : ℕ := n % 7

/-! ### Years -/

/-- The days before the year of index `z`. -/
def yearStart (z : ℕ) : ℕ :=
  365 * z + z / 4 - z / 100 + z / 400

/-- The year of index `z` is a leap year. -/
def isLeap (z : ℕ) : Bool :=
  (z + 1) % 4 = 0 ∧ ((z + 1) % 100 ≠ 0 ∨ (z + 1) % 400 = 0)

lemma yearStart_succ (z : ℕ) : yearStart (z + 1) = yearStart z + if isLeap z then 366 else 365 := by
  have h4 := Nat.succ_div (a := z) (b := 4)
  have h100 := Nat.succ_div (a := z) (b := 100)
  have h400 := Nat.succ_div (a := z) (b := 400)
  have hle : z / 100 ≤ z / 4 := by omega
  simp only [Nat.dvd_iff_mod_eq_zero] at h4 h100 h400
  unfold yearStart isLeap
  rw [h4, h100, h400]
  -- 400 divides only what 100 divides, and 100 only what 4 divides
  by_cases hm4 : (z + 1) % 4 = 0
  · by_cases hm100 : (z + 1) % 100 = 0
    · by_cases hm400 : (z + 1) % 400 = 0
      · simp only [hm4, hm100, hm400, if_true, or_true, and_self, decide_true]
        omega
      · simp only [hm4, hm100, hm400, if_true, if_false, ne_eq, not_true_eq_false, or_self, and_false, decide_false,
          Bool.false_eq_true]
        omega
    · have hm400 : ¬(z + 1) % 400 = 0 := by omega
      simp only [hm4, hm100, hm400, if_true, if_false, ne_eq, not_false_eq_true, or_false, and_self, decide_true]
      omega
  · have hm100 : ¬(z + 1) % 100 = 0 := by omega
    have hm400 : ¬(z + 1) % 400 = 0 := by omega
    simp only [hm4, hm100, hm400, if_false, false_and, decide_false, Bool.false_eq_true]
    omega

lemma yearStart_lt (z : ℕ) : yearStart z < yearStart (z + 1) := by
  rw [yearStart_succ]
  split <;> omega

lemma le_yearStart (z : ℕ) : 365 * z ≤ yearStart z := by
  unfold yearStart
  omega

def yearIndex (n : ℕ) : ℕ :=
  Nat.findGreatest (fun z => yearStart z ≤ n) (n / 365)

def yearDivision : Division where
  start := yearStart
  index := yearIndex
  start_lt := yearStart_lt
  start_index_le := fun n => Nat.findGreatest_spec (P := fun z => yearStart z ≤ n) (Nat.zero_le _) (Nat.zero_le n)
  lt_start_index := by
    intro n
    by_contra hle
    have hbound : yearIndex n + 1 ≤ n / 365 := by
      have h := le_yearStart (yearIndex n + 1)
      omega
    have h : yearIndex n + 1 ≤ yearIndex n :=
      Nat.le_findGreatest (P := fun z => yearStart z ≤ n) hbound (not_lt.mp hle)
    omega

/-! ### Months -/

/-- The days of a year before its month of index `m`, of twelve. -/
def daysBefore (leap : Bool) (m : ℕ) : ℕ :=
  [0, 31, 59, 90, 120, 151, 181, 212, 243, 273, 304, 334].getD m 365 + if leap ∧ 2 ≤ m then 1 else 0

lemma daysBefore_lt (leap : Bool) {m : ℕ} (hm : m < 12) : daysBefore leap m < daysBefore leap (m + 1) := by
  interval_cases m <;> cases leap <;> decide

lemma daysBefore_twelve (leap : Bool) : daysBefore leap 12 = if leap then 366 else 365 := by
  cases leap <;> rfl

/-- The days before the month of index `k`. -/
def monthStart (k : ℕ) : ℕ :=
  yearStart (k / 12) + daysBefore (isLeap (k / 12)) (k % 12)

lemma monthStart_add (z : ℕ) {m : ℕ} (hm : m ≤ 12) :
    monthStart (12 * z + m) = yearStart z + daysBefore (isLeap z) m := by
  rcases hm.lt_or_eq with hm | rfl
  · have hdiv : (12 * z + m) / 12 = z := by omega
    have hmod : (12 * z + m) % 12 = m := by omega
    rw [monthStart, hdiv, hmod]
  · have hdiv : (12 * z + 12) / 12 = z + 1 := by omega
    have hmod : (12 * z + 12) % 12 = 0 := by omega
    rw [monthStart, hdiv, hmod, yearStart_succ, daysBefore_twelve]
    simp [daysBefore]

lemma monthStart_mul (z : ℕ) : monthStart (12 * z) = yearStart z := by
  rw [← Nat.add_zero (12 * z), monthStart_add z (Nat.zero_le 12)]
  simp [daysBefore]

def monthIndex (n : ℕ) : ℕ :=
  12 * yearIndex n +
    Nat.findGreatest (fun m => yearStart (yearIndex n) + daysBefore (isLeap (yearIndex n)) m ≤ n) 11

def monthDivision : Division where
  start := monthStart
  index := monthIndex
  start_lt := by
    intro k
    have h := daysBefore_lt (isLeap (k / 12)) (Nat.mod_lt k (by omega))
    have hk : k = 12 * (k / 12) + k % 12 := by omega
    rw [hk, add_assoc, monthStart_add _ (by omega), monthStart_add _ (by omega)]
    omega
  start_index_le := by
    intro n
    rw [monthIndex, monthStart_add _ ((Nat.findGreatest_le 11).trans (by omega))]
    refine Nat.findGreatest_spec (P := fun m => yearStart (yearIndex n) + daysBefore (isLeap (yearIndex n)) m ≤ n)
      (Nat.zero_le 11) ?_
    have hyear : yearStart (yearIndex n) ≤ n := yearDivision.start_index_le n
    simpa [daysBefore] using hyear
  lt_start_index := by
    intro n
    have hle : ∀ m ≤ 11, yearStart (yearIndex n) + daysBefore (isLeap (yearIndex n)) m ≤ n →
        m ≤ monthIndex n - 12 * yearIndex n := by
      intro m hm h
      rw [monthIndex, Nat.add_sub_cancel_left]
      exact Nat.le_findGreatest hm h
    have hfound : monthIndex n - 12 * yearIndex n ≤ 11 := by
      rw [monthIndex, Nat.add_sub_cancel_left]
      exact Nat.findGreatest_le 11
    have hge : 12 * yearIndex n ≤ monthIndex n := Nat.le_add_right _ _
    generalize hm : monthIndex n - 12 * yearIndex n = m at hle hfound
    have hk : monthIndex n + 1 = 12 * yearIndex n + (m + 1) := by omega
    rw [hk]
    by_cases hlast : m = 11
    · rw [hlast, monthStart_add _ (by omega), daysBefore_twelve, ← yearStart_succ]
      exact yearDivision.lt_start_index n
    · rw [monthStart_add _ (by omega)]
      by_contra hlt
      have h := hle (m + 1) (by omega) (not_lt.mp hlt)
      omega

/-- The months of a year are the days of the year. -/
lemma monthIndex_div (n : ℕ) : monthIndex n / 12 = yearIndex n := by
  have h : Nat.findGreatest (fun m => yearStart (yearIndex n) + daysBefore (isLeap (yearIndex n)) m ≤ n) 11 ≤ 11 :=
    Nat.findGreatest_le 11
  unfold monthIndex
  omega

/-! ### Dates -/

def year (n : ℕ) : ℕ := yearIndex n + 1

def month (n : ℕ) : ℕ := monthIndex n % 12 + 1

def dayOfMonth (n : ℕ) : ℕ := n - monthStart (monthIndex n) + 1

/-- The first day of a month of a year. -/
def firstOfMonth (year month : ℕ) : ℕ := monthStart (12 * (year - 1) + (month - 1))

lemma dayOfMonth_eq_one_iff (n : ℕ) : dayOfMonth n = 1 ↔ n = monthStart (monthIndex n) := by
  have h := monthDivision.start_index_le n
  change monthStart (monthIndex n) ≤ n at h
  unfold dayOfMonth
  omega

lemma newYear_iff (n : ℕ) : month n = 1 ∧ dayOfMonth n = 1 ↔ n = yearStart (yearIndex n) := by
  have hdiv := monthIndex_div n
  rw [dayOfMonth_eq_one_iff]
  unfold month
  constructor
  · rintro ⟨hm, hn⟩
    have hk : monthIndex n = 12 * yearIndex n := by omega
    rw [← monthStart_mul, ← hk]
    exact hn
  · intro hn
    have hk : monthIndex n = 12 * yearIndex n := by
      rw [hn, ← monthStart_mul]
      exact (monthDivision.index_start _).trans (congrArg _ (by rw [monthStart_mul]; exact (yearDivision.index_start _).symm))
    exact ⟨by omega, by rw [hk, monthStart_mul]; exact hn⟩

/-! ### ISO weeks -/

/-- The year an ISO week belongs to is that of its Thursday. -/
def isoYear (w : ℕ) : ℕ := year (7 * w + 3)

def isoWeek (w : ℕ) : ℕ := (7 * w + 3 - yearStart (yearIndex (7 * w + 3))) / 7 + 1

/-- Year and number identify an ISO week. -/
theorem isoWeek_injective {w w' : ℕ} (hy : isoYear w = isoYear w') (hw : isoWeek w = isoWeek w') : w = w' := by
  have hz : yearIndex (7 * w + 3) = yearIndex (7 * w' + 3) := Nat.succ.inj hy
  have h : yearStart (yearIndex (7 * w + 3)) ≤ 7 * w + 3 := yearDivision.start_index_le _
  have h' : yearStart (yearIndex (7 * w' + 3)) ≤ 7 * w' + 3 := yearDivision.start_index_le _
  unfold isoWeek at hw
  rw [hz] at hw h
  omega

/-- 2026-08-31 is the Monday of the ISO week 2026-W36. -/
example : (year 739858, month 739858, dayOfMonth 739858, weekday 739858, isoYear (739858 / 7), isoWeek (739858 / 7)) =
    (2026, 8, 31, 0, 2026, 36) := by decide

end Calendar
