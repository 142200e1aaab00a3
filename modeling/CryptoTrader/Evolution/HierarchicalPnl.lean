import CryptoTrader.Evolution.HierarchicalRuns
import CryptoTrader.Evolution.ReviewPolls
import Mathlib.Algebra.BigOperators.Group.Finset.Piecewise

/-!
# The results of the months and the years

A month's report aggregates the weekly reports of every ISO week that touches the month,
and a week's report counts all of its days. So a month counts each week that touches it and
is reviewed before it, whole or not at all, and a year counts its months the same way
(`hierarchical_pnl`).
-/

namespace CryptoTrader

open Calendar

/-! ### What the periods count -/

def weeksTouching (m : ℕ) : Finset ℕ := Finset.Icc (monthStart m / 7) ((monthStart (m + 1) - 1) / 7)

def monthsOf (y : ℕ) : Finset ℕ := Finset.Ico (12 * y) (12 * (y + 1))

namespace DailyHistory

variable (H : DailyHistory)

def weekPnl (w : ℕ) : ℚ := ∑ day ∈ weekDivision.days w, H.pnl day

/-- A month counts the weeks reviewed before it. -/
def monthPnl (calls : List ReviewCall) (m : ℕ) : Option ℚ :=
  (beforeFirst calls .monthly m).map (fun earlier =>
    ∑ w ∈ (weeksTouching m).filter (fun w => periodReviewed earlier .weekly w), H.weekPnl w)

/-- A year counts the months reviewed before it. -/
def yearPnl (calls : List ReviewCall) (y : ℕ) : Option ℚ :=
  (beforeFirst calls .yearly y).map (fun earlier => ∑ m ∈ monthsOf y, (H.monthPnl earlier m).getD 0)

end DailyHistory

lemma touching_daily (t : PeriodType) (k : ℕ) : PeriodType.touching .daily t k = t.division.days k :=
  Finset.image_id

lemma touching_weekly (m : ℕ) : PeriodType.touching .weekly .monthly m = weeksTouching m := by
  have hlt : monthStart m < monthStart (m + 1) := monthDivision.start_lt m
  ext w
  rw [PeriodType.touching, weeksTouching, Finset.mem_image, Finset.mem_Icc]
  constructor
  · rintro ⟨day, hday, rfl⟩
    obtain ⟨hlow, hhigh⟩ := Finset.mem_Ico.mp hday
    change monthStart m ≤ day at hlow
    change day < monthStart (m + 1) at hhigh
    change monthStart m / 7 ≤ day / 7 ∧ day / 7 ≤ _
    omega
  · rintro ⟨hlow, hhigh⟩
    -- the first day of the month in that week
    refine ⟨max (monthStart m) (7 * w), Finset.mem_Ico.mpr ⟨le_max_left _ _, ?_⟩, ?_⟩
    · change max (monthStart m) (7 * w) < monthStart (m + 1)
      omega
    · change max (monthStart m) (7 * w) / 7 = w
      omega

lemma touching_monthly (y : ℕ) : PeriodType.touching .monthly .yearly y = monthsOf y := by
  ext m
  rw [PeriodType.touching, monthsOf, Finset.mem_image, Finset.mem_Ico]
  constructor
  · rintro ⟨day, hday, rfl⟩
    have hyear : monthIndex day / 12 = y := (monthIndex_div day).trans ((yearDivision.mem_days).mp hday)
    change 12 * y ≤ monthIndex day ∧ monthIndex day < _
    omega
  · rintro ⟨hlow, hhigh⟩
    have hm : monthIndex (monthStart m) = m :=
      monthDivision.index_eq_iff.mpr ⟨le_rfl, monthDivision.start_lt m⟩
    refine ⟨monthStart m, yearDivision.mem_days.mpr ?_, hm⟩
    change yearIndex (monthStart m) = y
    rw [← monthIndex_div, hm]
    omega

section Runs

open HierarchicalReviewService

variable (sqrt : ℚ → ℚ) (H : DailyHistory) (calls : List ReviewCall)

lemma recorded_weekly (w : ℕ) :
    (after sqrt H.evidence calls).recorded .weekly w = (beforeFirst calls .weekly w).map (fun _ => H.weekPnl w) := by
  rw [recorded_after sqrt H calls (by decide), PeriodType.child, touching_daily]
  rfl

lemma recorded_monthly (m : ℕ) : (after sqrt H.evidence calls).recorded .monthly m = H.monthPnl calls m := by
  rw [recorded_after sqrt H calls (by decide), PeriodType.child, touching_weekly, DailyHistory.monthPnl]
  congr 1
  funext earlier
  rw [Finset.sum_filter]
  apply Finset.sum_congr rfl
  intro w _
  change ((after sqrt H.evidence earlier).recorded .weekly w).getD 0 = _
  rw [recorded_weekly, ← isSome_beforeFirst]
  cases beforeFirst earlier .weekly w <;> rfl

lemma recorded_yearly (y : ℕ) : (after sqrt H.evidence calls).recorded .yearly y = H.yearPnl calls y := by
  rw [recorded_after sqrt H calls (by decide), PeriodType.child, touching_monthly, DailyHistory.yearPnl]
  congr 1
  funext earlier
  apply Finset.sum_congr rfl
  intro m _
  change ((after sqrt H.evidence earlier).recorded .monthly m).getD 0 = _
  rw [recorded_monthly]

lemma reviewed_stored {t : PeriodType} (ht : t ≠ .daily) {k : ℕ} (h : periodReviewed calls t k) :
    ∃ report, (after sqrt H.evidence calls).stored t (t.label k) = some report := by
  have hrec := recorded_after sqrt H calls ht k
  have hsome := isSome_beforeFirst calls t k
  rw [h] at hsome
  obtain ⟨earlier, hearlier⟩ := Option.isSome_iff_exists.mp hsome
  rw [hearlier, Option.map_some] at hrec
  obtain ⟨report, hreport, -⟩ := Option.map_eq_some_iff.mp hrec
  exact ⟨report, hreport⟩

/-- A week counts each of its days once, a month the weeks that touch it and were reviewed
before it, and a year the months that were reviewed before it; a rerun changes nothing. -/
theorem hierarchical_pnl :
    (∀ w, (after sqrt H.evidence calls).recorded .weekly w = (beforeFirst calls .weekly w).map (fun _ => H.weekPnl w)) ∧
    (∀ m, (after sqrt H.evidence calls).recorded .monthly m = H.monthPnl calls m) ∧
    (∀ y, (after sqrt H.evidence calls).recorded .yearly y = H.yearPnl calls y) ∧
    ∀ c : ReviewCall, c.periodType ≠ .daily → periodReviewed calls c.periodType c.index →
      ∃ report, (after sqrt H.evidence calls).stored c.periodType (c.periodType.label c.index) = some report ∧
        run sqrt H.evidence c (after sqrt H.evidence calls) = (.ok report, after sqrt H.evidence calls) := by
  refine ⟨recorded_weekly sqrt H calls, recorded_monthly sqrt H calls, recorded_yearly sqrt H calls, ?_⟩
  intro c hc h
  obtain ⟨report, hreport⟩ := reviewed_stored sqrt H calls hc h
  exact ⟨report, hreport, run_again sqrt H (kept_after sqrt H calls) hc hreport⟩

end Runs

/-! ### The days of the calendar -/

/-- A history of some years, every period of which is reviewed. -/
structure ReviewedHistory (H : DailyHistory) (first last : ℕ) (calls : List ReviewCall) : Prop where
  years : first + 3 * 365 ≤ last
  reports : ∀ day, (H.report day).isSome ↔ first ≤ day ∧ day < last
  chronological : calls.Pairwise (fun c c' => c.now.us ≤ c'.now.us)
  complete : ∀ t ≠ .daily, ∀ k, (∃ day ∈ t.division.days k, first ≤ day ∧ day < last) → periodReviewed calls t k

/-- The result of each month and year is that of its days. -/
def CalendarSums (sqrt : ℚ → ℚ) (H : DailyHistory) (first last : ℕ) (calls : List ReviewCall) : Prop :=
  ∀ t, t = .monthly ∨ t = .yearly → ∀ k, (∃ day ∈ t.division.days k, first ≤ day ∧ day < last) →
    (HierarchicalReviewService.after sqrt H.evidence calls).recorded t k = some (∑ day ∈ t.division.days k, H.pnl day)

section Polls

/-- Five minutes into a day. -/
def pollInstant (date : ℕ) (h : 365 ≤ date) : Instant where
  us := reviewInstant date
  year_one_over := by
    unfold reviewInstant dayUs
    omega

lemma date_pollInstant {date : ℕ} (h : 365 ≤ date) : (pollInstant date h).date = date := by
  change (date * dayUs + reviewTime) / dayUs = date
  rw [Nat.mul_comm, Nat.mul_add_div (by decide), Nat.div_eq_of_lt (by decide), Nat.add_zero]

/-- All reviews five minutes into each of some days. -/
def dailyPolls (first n : ℕ) (h : 365 ≤ first) : List ReviewCall :=
  (List.range n).flatMap (fun i => [PeriodType.weekly, .monthly, .yearly].map (fun t =>
    ⟨t, pollInstant (first + i) (h.trans (Nat.le_add_right first i))⟩))

variable {first n : ℕ} {h : 365 ≤ first}

lemma dailyPolls_chronological : (dailyPolls first n h).Pairwise (fun c c' => c.now.us ≤ c'.now.us) := by
  rw [dailyPolls, List.pairwise_flatMap]
  constructor
  · intro i _
    simp [List.pairwise_cons]
  · apply List.Pairwise.imp _ List.pairwise_lt_range
    intro i j hij c hc c' hc'
    obtain ⟨t, -, rfl⟩ := List.mem_map.mp hc
    obtain ⟨t', -, rfl⟩ := List.mem_map.mp hc'
    change reviewInstant (first + i) ≤ reviewInstant (first + j)
    unfold reviewInstant dayUs
    omega

/-- A period is reviewed on the first polled day after it. -/
lemma reviewed_dailyPolls {t : PeriodType} (ht : t ≠ .daily) {k i : ℕ} (hi : i < n)
    (hk : first + i = t.division.start (k + 1)) :
    ∃ c ∈ dailyPolls first n h, c.reviews t k ∧ c.now.us = reviewInstant (t.division.start (k + 1)) := by
  have htype : t ∈ [PeriodType.weekly, .monthly, .yearly] := by
    cases t with
    | daily => exact absurd rfl ht
    | weekly | monthly | yearly => decide
  have hindex : t.division.index (first + i) = k + 1 := by
    rw [hk]
    exact t.division.index_eq_iff.mpr ⟨le_rfl, t.division.start_lt (k + 1)⟩
  refine ⟨_, List.mem_flatMap.mpr ⟨i, List.mem_range.mpr hi, List.mem_map_of_mem htype⟩, ?_, ?_⟩
  · rw [ReviewCall.reviews, decide_eq_true_iff, ReviewCall.index, date_pollInstant, hindex]
    exact ⟨rfl, rfl⟩
  · rw [← hk]
    rfl

end Polls

/-- Only the last day of 2024 has a result. -/
def straddlingHistory : DailyHistory where
  report day := if 738885 ≤ day ∧ day < 739981 then
      some { reviewId := .daily "daily", periodId := .day day, netPnl := .int (if day = 739250 then 1 else 0) }
    else none
  periodId_report := by
    intro day r h
    split at h
    · cases h
      rfl
    · cases h

lemma straddling_pnl (day : ℕ) : straddlingHistory.pnl day = if day = 739250 then 1 else 0 := by
  rw [DailyHistory.pnl, straddlingHistory]
  by_cases hday : day = 739250
  · subst hday
    rfl
  · simp only [if_neg hday]
    split <;> rfl

def straddlingCalls : List ReviewCall := dailyPolls 738885 1463 (by decide)

lemma straddling_reviewed : ReviewedHistory straddlingHistory 738885 739981 straddlingCalls where
  years := by decide
  reports := by
    intro day
    by_cases hday : 738885 ≤ day ∧ day < 739981
    · simp [straddlingHistory, hday]
    · simp [straddlingHistory, hday]
  chronological := dailyPolls_chronological
  complete := by
    rintro t ht k ⟨day, hday, hlow, hhigh⟩
    obtain ⟨hstart, hend⟩ := Finset.mem_Ico.mp hday
    have hle := t.start_succ_le k
    obtain ⟨i, hi⟩ : ∃ i, 738885 + i = t.division.start (k + 1) := ⟨t.division.start (k + 1) - 738885, by omega⟩
    obtain ⟨c, hc, hrev, -⟩ := reviewed_dailyPolls (n := 1463) (h := by decide) ht (by omega) hi
    exact List.any_eq_true.mpr ⟨c, hc, hrev⟩

/-- Calls before the first review of a period are not later than any review of it. -/
lemma le_of_beforeFirst {calls earlier : List ReviewCall} (hc : calls.Pairwise (fun c c' => c.now.us ≤ c'.now.us))
    {t : PeriodType} {k : ℕ} (h : beforeFirst calls t k = some earlier) {c c' : ReviewCall} (hearlier : c ∈ earlier)
    (hmem : c' ∈ calls) (hrev : c'.reviews t k) : c.now.us ≤ c'.now.us := by
  rw [beforeFirst, Option.ite_none_right_eq_some, Option.some.injEq] at h
  obtain ⟨-, rfl⟩ := h
  have hsplit := List.takeWhile_append_dropWhile (p := fun c => !ReviewCall.reviews t k c) (l := calls)
  rw [← hsplit, List.pairwise_append] at hc
  rw [← hsplit, List.mem_append] at hmem
  rcases hmem with hmem | hmem
  · have hnot := List.mem_takeWhile_imp hmem
    rw [hrev] at hnot
    cases hnot
  · exact hc.2.2 c hearlier c' hmem

/-- The week of the last day of 2024 is reviewed after December is. -/
lemma straddling_december {earlier : List ReviewCall} (h : beforeFirst straddlingCalls .monthly 24287 = some earlier) :
    periodReviewed earlier .weekly 105607 = false := by
  obtain ⟨c', hc', hrev', hus'⟩ : ∃ c ∈ straddlingCalls, c.reviews .monthly 24287 ∧
      c.now.us = reviewInstant (monthStart 24288) :=
    reviewed_dailyPolls (by decide) (i := 366) (by decide) (by decide)
  rw [periodReviewed, List.any_eq_false]
  intro c hc hrev
  have hle := le_of_beforeFirst dailyPolls_chronological h hc hc' hrev'
  rw [ReviewCall.reviews, decide_eq_true_iff, ReviewCall.index] at hrev
  obtain ⟨ht, hindex⟩ := hrev
  rw [ht] at hindex
  change c.now.us / dayUs / 7 - 1 = 105607 at hindex
  have hmonth : monthStart 24288 = 739251 := by decide
  rw [hus', hmonth] at hle
  have hdate := Nat.div_le_div_right (c := dayUs) hle
  have hday : reviewInstant 739251 / dayUs = 739251 := by decide
  omega

/-- December 2024 has a result, and its report says 0. -/
theorem calendar_sums_fail :
    ¬∃ sqrt, ∀ H first last calls, ReviewedHistory H first last calls → CalendarSums sqrt H first last calls := by
  rintro ⟨sqrt, h⟩
  have hday : 739250 ∈ monthDivision.days 24287 := by decide
  have hsum : ∑ day ∈ monthDivision.days 24287, straddlingHistory.pnl day = 1 := by
    simp only [straddling_pnl]
    exact Finset.sum_ite_eq_of_mem' _ _ _ hday
  have hmonth := h _ _ _ _ straddling_reviewed .monthly (.inl rfl) 24287 ⟨739250, hday, by decide, by decide⟩
  change _ = some (∑ day ∈ monthDivision.days 24287, straddlingHistory.pnl day) at hmonth
  rw [recorded_monthly, DailyHistory.monthPnl, hsum] at hmonth
  obtain ⟨earlier, hearlier, hvalue⟩ := Option.map_eq_some_iff.mp hmonth
  have hzero : ∑ w ∈ (weeksTouching 24287).filter (fun w => periodReviewed earlier .weekly w),
      straddlingHistory.weekPnl w = 0 := by
    apply Finset.sum_eq_zero
    intro w hw
    obtain ⟨-, hrev⟩ := Finset.mem_filter.mp hw
    apply Finset.sum_eq_zero
    intro day hday
    rw [straddling_pnl, if_neg]
    rintro rfl
    have hweek : w = 105607 := (weekDivision.mem_days.mp hday).symm
    rw [hweek, straddling_december hearlier] at hrev
    cases hrev
  rw [hzero] at hvalue
  exact zero_ne_one hvalue

end CryptoTrader
