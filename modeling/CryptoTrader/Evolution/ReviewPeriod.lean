import CryptoTrader.Lib.Calendar

/-!
# Review periods and their trigger

`evolution/time`: which period a review at an instant is about, and at which instants a
review of each kind triggers. An instant counts the microseconds from the start of year 1;
the first year is left out, since no year comes before it.
-/

namespace CryptoTrader

open Calendar

inductive PeriodType where
  | daily | weekly | monthly | yearly
  deriving DecidableEq, Repr

def PeriodType.order : List PeriodType := [.daily, .weekly, .monthly, .yearly]

lemma PeriodType.mem_order (t : PeriodType) : t ∈ PeriodType.order := by
  cases t <;> decide

/-- The labels `2026-08-31`, `2026-W36`, `2026-08` and `2026`. -/
inductive PeriodId where
  | day (date : ℕ)
  | week (isoYear isoWeek : ℕ)
  | month (year month : ℕ)
  | year (year : ℕ)
  deriving DecidableEq, Repr

/-- The microseconds of a day. -/
def dayUs : ℕ := 86400000000

structure Instant where
  us : ℕ
  year_one_over : 365 * dayUs ≤ us
  deriving DecidableEq, Repr

namespace Instant

def date (now : Instant) : ℕ := now.us / dayUs

def timeOfDay (now : Instant) : ℕ := now.us % dayUs

lemma le_date (now : Instant) : 365 ≤ now.date :=
  (Nat.le_div_iff_mul_le (by decide)).mpr now.year_one_over

end Instant

structure CalendarPeriod where
  periodType : PeriodType
  periodId : PeriodId
  startsAt : ℕ
  endsAt : ℕ
  deriving DecidableEq, Repr

structure ReviewPeriod extends CalendarPeriod where
  triggeredAt : Instant
  deriving DecidableEq, Repr

/-- `datetime.combine(date, time.min)`. -/
def dayMin (date : ℕ) : ℕ := date * dayUs

/-- `datetime.combine(date, time.max)`. -/
def dayMax (date : ℕ) : ℕ := date * dayUs + (dayUs - 1)

def previousDaily (now : Instant) : ReviewPeriod :=
  let today := now.date
  ⟨⟨.daily, .day (today - 1), dayMin (today - 1), dayMax (today - 1)⟩, now⟩

def previousWeekly (now : Instant) : ReviewPeriod :=
  let today := now.date
  let monday := today - weekday today
  let prevMonday := monday - 7
  ⟨⟨.weekly, .week (isoYear (prevMonday / 7)) (isoWeek (prevMonday / 7)), dayMin prevMonday,
    dayMax (prevMonday + 6)⟩, now⟩

def previousMonthly (now : Instant) : ReviewPeriod :=
  let today := now.date
  let (y, m) := if month today = 1 then (year today - 1, 12) else (year today, month today - 1)
  let endMonth := if m = 12 then firstOfMonth (y + 1) 1 else firstOfMonth y (m + 1)
  ⟨⟨.monthly, .month y m, dayMin (firstOfMonth y m), dayMin endMonth - 1⟩, now⟩

def previousYearly (now : Instant) : ReviewPeriod :=
  let y := year now.date - 1
  ⟨⟨.yearly, .year y, dayMin (firstOfMonth y 1), dayMax (firstOfMonth y 12 + 30)⟩, now⟩

def periodFor : PeriodType → Instant → ReviewPeriod
  | .daily => previousDaily
  | .weekly => previousWeekly
  | .monthly => previousMonthly
  | .yearly => previousYearly

/-- `time(0, 5)`. -/
def reviewTime : ℕ := 5 * 60 * 1000000

def shouldTrigger (periodType : PeriodType) (now : Instant) : Bool :=
  let utc := now.date
  let t := now.timeOfDay
  match periodType with
  | .daily => t = reviewTime
  | .weekly => weekday utc = 0 && t = reviewTime
  | .monthly => dayOfMonth utc = 1 && t = reviewTime
  | .yearly => month utc = 1 && dayOfMonth utc = 1 && t = reviewTime

/-! ### The periods of the calendar -/

namespace PeriodType

def division : PeriodType → Division
  | daily => dayDivision
  | weekly => weekDivision
  | monthly => monthDivision
  | yearly => yearDivision

/-- The label of the period of index `k`. -/
def label : PeriodType → ℕ → PeriodId
  | daily, k => .day k
  | weekly, k => .week (isoYear k) (isoWeek k)
  | monthly, k => .month (k / 12 + 1) (k % 12 + 1)
  | yearly, k => .year (k + 1)

/-- The period of index `k`, from the first instant of its first day to the last of its last. -/
def period (t : PeriodType) (k : ℕ) : CalendarPeriod where
  periodType := t
  periodId := t.label k
  startsAt := dayMin (t.division.start k)
  endsAt := dayMin (t.division.start (k + 1)) - 1

lemma label_injective (t : PeriodType) : Function.Injective t.label := by
  intro k k' h
  cases t with
  | daily => simpa [label] using h
  | weekly =>
    simp only [label, PeriodId.week.injEq] at h
    exact isoWeek_injective h.1 h.2
  | monthly =>
    simp only [label, PeriodId.month.injEq] at h
    omega
  | yearly => simpa [label] using h

lemma period_injective {t t' : PeriodType} {k k' : ℕ} (h : t.period k = t'.period k') : t = t' ∧ k = k' := by
  have ht : t = t' := congrArg CalendarPeriod.periodType h
  subst ht
  exact ⟨rfl, t.label_injective (congrArg CalendarPeriod.periodId h)⟩

/-- From year 2 on, every period has one before it. -/
lemma one_le_index (t : PeriodType) {date : ℕ} (h : 365 ≤ date) : 1 ≤ t.division.index date := by
  rw [← t.division.start_le_iff]
  refine le_trans ?_ h
  cases t <;> decide

end PeriodType

lemma dayMax_eq (date : ℕ) : dayMax date = dayMin (date + 1) - 1 := by
  unfold dayMax dayMin dayUs
  omega

lemma period_monthly (z m : ℕ) (hm : m < 12) :
    PeriodType.monthly.period (12 * z + m) = ⟨.monthly, .month (z + 1) (m + 1), dayMin (monthStart (12 * z + m)),
      dayMin (monthStart (12 * z + m + 1)) - 1⟩ := by
  have hdiv : (12 * z + m) / 12 = z := by omega
  have hmod : (12 * z + m) % 12 = m := by omega
  simp only [PeriodType.period, PeriodType.label, PeriodType.division, monthDivision, hdiv, hmod]

lemma previousMonthly_eq (now : Instant) :
    (previousMonthly now).toCalendarPeriod = PeriodType.monthly.period (monthIndex now.date - 1) := by
  have hdiv := monthIndex_div now.date
  have hone : 1 ≤ monthIndex now.date := PeriodType.one_le_index .monthly now.le_date
  have hyear : 1 ≤ yearIndex now.date := PeriodType.one_le_index .yearly now.le_date
  unfold previousMonthly
  by_cases hm : month now.date = 1
  · obtain ⟨z, hz⟩ : ∃ z, yearIndex now.date = z + 1 := ⟨yearIndex now.date - 1, by omega⟩
    have hk : monthIndex now.date - 1 = 12 * z + 11 := by
      unfold month at hm
      omega
    rw [hk, period_monthly z 11 (by omega)]
    simp only [hm, year, hz, firstOfMonth, if_true]
    rfl
  · have hk : monthIndex now.date - 1 = 12 * yearIndex now.date + (month now.date - 2) := by
      unfold month at hm ⊢
      omega
    have hlt : month now.date - 2 < 12 := by
      unfold month
      omega
    have hge : 2 ≤ month now.date := by
      unfold month at hm ⊢
      omega
    have hne : ¬month now.date - 1 = 12 := by
      unfold month
      omega
    rw [hk, period_monthly _ _ hlt]
    simp only [hm, if_false, year, firstOfMonth, if_neg hne, Nat.add_sub_cancel]
    congr 4 <;> omega

lemma previousYearly_eq (now : Instant) :
    (previousYearly now).toCalendarPeriod = PeriodType.yearly.period (yearIndex now.date - 1) := by
  obtain ⟨z, hz⟩ : ∃ z, yearIndex now.date = z + 1 :=
    ⟨yearIndex now.date - 1, by have h := PeriodType.one_le_index .yearly now.le_date; change 1 ≤ yearIndex _ at h; omega⟩
  have hend : monthStart (12 * z + 11) + 30 + 1 = yearStart (z + 1) := by
    rw [monthStart_add z (by omega), yearStart_succ]
    cases isLeap z <;> simp [daysBefore]
  have hstart : monthStart (12 * z + 0) = yearStart z := monthStart_mul z
  simp only [previousYearly, PeriodType.period, PeriodType.label, PeriodType.division, yearDivision, year, hz,
    firstOfMonth, Nat.add_sub_cancel, dayMax_eq, Nat.sub_self, hstart, ← hend]

/-- The review at an instant is about the period before the one the instant is in. -/
theorem periodFor_eq (t : PeriodType) (now : Instant) :
    (periodFor t now).toCalendarPeriod = t.period (t.division.index now.date - 1) := by
  have hdate := now.le_date
  cases t with
  | daily =>
    have h : now.date - 1 + 1 = now.date := by omega
    simp only [periodFor, previousDaily, PeriodType.period, PeriodType.label, PeriodType.division, dayDivision, id,
      dayMax_eq, h]
  | weekly =>
    have hmonday : now.date - weekday now.date - 7 = 7 * (now.date / 7 - 1) := by
      unfold weekday
      omega
    have hdiv : 7 * (now.date / 7 - 1) / 7 = now.date / 7 - 1 := by omega
    simp only [periodFor, previousWeekly, PeriodType.period, PeriodType.label, PeriodType.division, weekDivision,
      hmonday, hdiv, dayMax_eq]
    rfl
  | monthly => exact previousMonthly_eq now
  | yearly => exact previousYearly_eq now

/-- A review triggers five minutes after a period of its kind has begun, to the microsecond. -/
theorem shouldTrigger_iff (t : PeriodType) (now : Instant) :
    shouldTrigger t now = true ↔
      now.date = t.division.start (t.division.index now.date) ∧ now.timeOfDay = reviewTime := by
  cases t with
  | daily => simp [shouldTrigger, PeriodType.division, dayDivision]
  | weekly =>
    have h : weekday now.date = 0 ↔ now.date = 7 * (now.date / 7) := by
      unfold weekday
      omega
    simp [shouldTrigger, PeriodType.division, weekDivision, ← h]
  | monthly => simp [shouldTrigger, PeriodType.division, monthDivision, dayOfMonth_eq_one_iff]
  | yearly => simp [shouldTrigger, PeriodType.division, yearDivision, ← newYear_iff]

end CryptoTrader
