import CryptoTrader.Evolution.HierarchicalService
import Mathlib.Algebra.BigOperators.Group.Finset.Basic
import Mathlib.Data.List.TakeWhile

/-!
# Runs of the hierarchical review service

The store keeps one report for each period, made from the reports of its sub-periods that
were there when the period was first reviewed. So what a run of calls stores for a period is
told by the calls before the first that reviews it (`recorded_after`).
-/

namespace CryptoTrader

open KeyedTable Calendar

/-! ### Children -/

section Children

variable {α : Type} {key : α → PeriodId × ReviewId} {l : List α}

lemma collapse_perm (h : (l.map (fun r => (key r).1)).Nodup) : (collapsePerPeriod key l).Perm l := by
  have hsort : (l.insertionSort (fun a b => childNotAfter (key a) (key b))).Perm l := List.perm_insertionSort _ l
  rw [collapsePerPeriod, firsts_of_nodup ((hsort.map _).nodup_iff.mpr h)]
  exact hsort

lemma dedupe_perm (h : (l.map (fun r => (key r).1)).Nodup) : (dedupeChildReviews key l).Perm l := by
  have hkeys : (l.map key).Nodup := by
    apply List.Nodup.of_map Prod.fst
    rw [List.map_map]
    exact h
  rw [dedupeChildReviews, firsts_of_nodup hkeys]
  exact List.perm_insertionSort _ l

/-- With one report for each sub-period nothing is dropped. -/
lemma sum_children (h : (l.map (fun r => (key r).1)).Nodup) (f : α → ℚ) :
    ((dedupeChildReviews key (collapsePerPeriod key l)).map f).sum = (l.map f).sum := by
  have hcollapse := collapse_perm h
  have hdedupe : (dedupeChildReviews key (collapsePerPeriod key l)).Perm (collapsePerPeriod key l) :=
    dedupe_perm ((hcollapse.map _).nodup_iff.mpr h)
  exact ((hdedupe.trans hcollapse).map f).sum_eq

/-- The children of some periods, at most one each, collected and summed. -/
lemma sum_collected {find : PeriodId → Option α} (hfind : ∀ p r, find p = some r → (key r).1 = p) {ids : List PeriodId}
    (hids : ids.Nodup) (f : α → ℚ) :
    ((dedupeChildReviews key (collapsePerPeriod key (ids.flatMap (fun p => (find p).toList)))).map f).sum =
      (ids.map (fun p => (find p).elim 0 f)).sum := by
  have hsub : ((ids.flatMap (fun p => (find p).toList)).map (fun r => (key r).1)).Sublist ids := by
    clear hids
    induction ids with
    | nil => exact List.Sublist.refl _
    | cons p ids ih =>
      rw [List.flatMap_cons, List.map_append]
      cases hp : find p with
      | none => exact ih.cons p
      | some r =>
        rw [Option.toList_some, List.map_singleton, hfind p r hp]
        exact ih.cons_cons p
  rw [sum_children (hids.sublist hsub)]
  clear hids hsub
  induction ids with
  | nil => rfl
  | cons p ids ih =>
    rw [List.flatMap_cons, List.map_append, List.sum_append, ih, List.map_cons, List.sum_cons]
    cases find p with
    | none => rfl
    | some r => simp

end Children

/-! ### The sub-periods of a period -/

namespace PeriodType

lemma start_succ_le (t : PeriodType) (k : ℕ) : t.division.start (k + 1) ≤ t.division.start k + 366 := by
  cases t with
  | daily =>
    change k + 1 ≤ k + 366
    omega
  | weekly =>
    change 7 * (k + 1) ≤ 7 * k + 366
    omega
  | monthly =>
    change monthStart (k + 1) ≤ monthStart k + 366
    have hmono := monthDivision.strictMono.monotone
    have hlow : monthStart (12 * (k / 12)) ≤ monthStart k := hmono (by omega)
    have hhigh : monthStart (k + 1) ≤ monthStart (12 * (k / 12 + 1)) := hmono (by omega)
    rw [monthStart_mul] at hlow hhigh
    rw [yearStart_succ] at hhigh
    split at hhigh <;> omega
  | yearly =>
    change yearStart (k + 1) ≤ yearStart k + 366
    rw [yearStart_succ]
    split <;> omega

/-- The days of a period, in order. -/
def dayList (t : PeriodType) (k : ℕ) : List ℕ :=
  (List.range (t.division.start (k + 1) - t.division.start k)).map (t.division.start k + ·)

lemma isoDates_period (t : PeriodType) (k : ℕ) : isoDates (t.period k).startsAt (t.period k).endsAt = t.dayList k := by
  have hlt := t.division.start_lt k
  have hle := t.start_succ_le k
  have hstart : dayMin (t.division.start k) / dayUs = t.division.start k :=
    Nat.mul_div_cancel _ (by decide)
  have hend : (dayMin (t.division.start (k + 1)) - 1) / dayUs + 1 = t.division.start (k + 1) := by
    unfold dayMin dayUs
    omega
  simp only [isoDates, period, hstart, hend]
  apply List.take_of_length_le
  rw [List.length_map, List.length_range]
  omega

lemma mem_dayList {t : PeriodType} {k n : ℕ} : n ∈ t.dayList k ↔ n ∈ t.division.days k := by
  rw [dayList, Division.days, Finset.mem_Ico, List.mem_map]
  constructor
  · rintro ⟨i, hi, rfl⟩
    rw [List.mem_range] at hi
    omega
  · rintro ⟨hlow, hhigh⟩
    refine ⟨n - t.division.start k, List.mem_range.mpr (by omega), by omega⟩

/-- The label of the period of a day. -/
def labelOf (t : PeriodType) (day : ℕ) : PeriodId := t.label (t.division.index day)

lemma labelOf_monthly (day : ℕ) : monthly.labelOf day = .month (year day) (month day) := by
  change PeriodId.month (monthIndex day / 12 + 1) (monthIndex day % 12 + 1) = _
  rw [monthIndex_div]
  rfl

/-- The periods of a kind that share a day with a period. -/
def touching (child t : PeriodType) (k : ℕ) : Finset ℕ :=
  (t.division.days k).image child.division.index

lemma expected_eq (child t : PeriodType) (k : ℕ) :
    expectedPeriodIds (t.period k).startsAt (t.period k).endsAt child = firsts id ((t.dayList k).map child.labelOf) := by
  unfold expectedPeriodIds
  rw [isoDates_period]
  cases child with
  | daily =>
    symm
    apply firsts_of_nodup
    rw [List.map_id]
    apply List.Nodup.map PeriodType.daily.label_injective
    exact List.Nodup.map (fun a b h => Nat.add_left_cancel h) List.nodup_range
  | weekly => rfl
  | monthly =>
    apply congrArg (firsts id)
    exact List.map_congr_left (fun day _ => (labelOf_monthly day).symm)
  | yearly => rfl

lemma nodup_expected (child t : PeriodType) (k : ℕ) :
    (expectedPeriodIds (t.period k).startsAt (t.period k).endsAt child).Nodup := by
  rw [expected_eq]
  have hnodup : ((firsts id ((t.dayList k).map child.labelOf)).map id).Nodup := nodup_map_firsts _
  rwa [List.map_id] at hnodup

lemma toFinset_expected (child t : PeriodType) (k : ℕ) :
    (expectedPeriodIds (t.period k).startsAt (t.period k).endsAt child).toFinset =
      (touching child t k).image child.label := by
  ext pid
  have hmem : pid ∈ (firsts id ((t.dayList k).map child.labelOf)).map id ↔ pid ∈ ((t.dayList k).map child.labelOf).map id :=
    mem_map_firsts
  rw [List.map_id, List.map_id] at hmem
  rw [List.mem_toFinset, expected_eq, hmem, touching, Finset.image_image]
  simp only [List.mem_map, Finset.mem_image, mem_dayList]
  rfl

lemma sum_expected (child t : PeriodType) (k : ℕ) (f : PeriodId → ℚ) :
    ((expectedPeriodIds (t.period k).startsAt (t.period k).endsAt child).map f).sum =
      ∑ j ∈ touching child t k, f (child.label j) := by
  rw [← List.sum_toFinset f (nodup_expected child t k), toFinset_expected,
    Finset.sum_image (fun _ _ _ _ h => child.label_injective h)]

end PeriodType

/-! ### The store -/

namespace HierarchicalStore

/-- The stored report of a period. -/
def stored (s : HierarchicalStore) (t : PeriodType) (periodId : PeriodId) : Option StoredReport :=
  s.getReview t (.period t periodId)

/-- Each period has one report, and a completed job with it. -/
structure Kept (s : HierarchicalStore) : Prop where
  keys : (s.reviews.map ReviewRow.key).Nodup
  ids : ∀ r ∈ s.reviews, r.report.reviewId = .period r.reviewType r.report.periodId
  jobs : ∀ t periodId, row HierarchicalReviewJob.key (t, periodId) s.jobs =
    (s.stored t periodId).map (fun _ => ⟨t, periodId, .period t periodId, .completed, 0, ""⟩)

lemma kept_empty : Kept {} where
  keys := List.nodup_nil
  ids := fun _ hr => absurd hr List.not_mem_nil
  jobs := fun _ _ => rfl

variable {s : HierarchicalStore}

lemma completed_eq (hs : s.Kept) (t : PeriodType) (periodId : PeriodId) :
    HierarchicalReviewService.completed s (t, periodId) = s.stored t periodId := by
  rw [HierarchicalReviewService.completed, hs.jobs t periodId]
  cases h : s.stored t periodId with
  | none => rfl
  | some report => exact h

lemma listPeriod_eq (hs : s.Kept) (t : PeriodType) (periodId : PeriodId) :
    s.listPeriod t periodId = (s.stored t periodId).toList := by
  have hkey : ∀ r ∈ s.reviews, (r.reviewType = t ∧ r.report.periodId = periodId) ↔
      r.key = (t, .period t periodId) := by
    intro r hr
    rw [ReviewRow.key, hs.ids r hr, Prod.mk.injEq, ReviewId.period.injEq]
    constructor
    · rintro ⟨rfl, rfl⟩
      exact ⟨rfl, rfl, rfl⟩
    · rintro ⟨rfl, -, rfl⟩
      exact ⟨rfl, rfl⟩
  rw [listPeriod, stored, getReview]
  cases hrow : row ReviewRow.key (t, .period t periodId) s.reviews with
  | none =>
    have hnone : s.reviews.filter (fun r => r.reviewType = t ∧ r.report.periodId = periodId) = [] := by
      rw [List.filter_eq_nil_iff]
      intro r hr hmatch
      exact row_eq_none_iff.mp hrow ((hkey r hr).mp (of_decide_eq_true hmatch) ▸ List.mem_map_of_mem hr)
    rw [hnone]
    rfl
  | some r =>
    obtain ⟨hr, hrkey⟩ := row_some hrow
    have hfilter : s.reviews.filter (fun r => r.reviewType = t ∧ r.report.periodId = periodId) =
        s.reviews.filter (fun r => r.key = (t, .period t periodId)) := by
      apply List.filter_congr
      intro r' hr'
      rw [decide_eq_decide]
      exact hkey r' hr'
    rw [hfilter, filter_eq_singleton hs.keys hr (decide_eq_true hrkey)]
    · rfl
    · intro r' hr'
      rw [of_decide_eq_true hr', hrkey]

/-- The store after the first report of a period. -/
def withReport (s : HierarchicalStore) (t : PeriodType) (report : StoredReport) : HierarchicalStore :=
  (s.storeReview t report).putJob (t, report.periodId) report.reviewId .completed ""

lemma withReport_eq (hs : s.Kept) {t : PeriodType} {report : StoredReport}
    (hid : report.reviewId = .period t report.periodId) (hnone : s.stored t report.periodId = none) :
    s.withReport t report =
      { reviews := s.reviews ++ [⟨t, report⟩]
        jobs := s.jobs ++ [⟨t, report.periodId, report.reviewId, .completed, 0, ""⟩] } := by
  have hget : s.getReview t report.reviewId = none := by
    rw [hid]
    exact hnone
  have hstore : s.storeReview t report = { s with reviews := s.reviews ++ [⟨t, report⟩] } := by
    rw [storeReview, hget, if_neg (by simp)]
  rw [withReport, hstore, putJob, hs.jobs t report.periodId, hnone]
  rfl

lemma stored_withReport (hs : s.Kept) {t : PeriodType} {report : StoredReport}
    (hid : report.reviewId = .period t report.periodId) (hnone : s.stored t report.periodId = none)
    (t' : PeriodType) (periodId' : PeriodId) :
    (s.withReport t report).stored t' periodId' =
      if t' = t ∧ periodId' = report.periodId then some report else s.stored t' periodId' := by
  have hrows : row ReviewRow.key (t', .period t' periodId') (s.withReport t report).reviews =
      if t' = t ∧ periodId' = report.periodId then some ⟨t, report⟩
      else row ReviewRow.key (t', .period t' periodId') s.reviews := by
    rw [withReport_eq hs hid hnone]
    split
    · rename_i h
      obtain ⟨rfl, rfl⟩ := h
      have hrow : row ReviewRow.key (t', .period t' report.periodId) s.reviews = none := Option.map_eq_none_iff.mp hnone
      rw [row_append_of_none hrow]
      simp [row, ReviewRow.key, hid]
    · rename_i h
      cases hrow : row ReviewRow.key (t', .period t' periodId') s.reviews with
      | some r => exact row_append_of_some hrow
      | none =>
        rw [row_append_of_none hrow, row_eq_none_iff, List.map_singleton, List.mem_singleton, ReviewRow.key, hid,
          Prod.mk.injEq, ReviewId.period.injEq]
        rintro ⟨ht, -, hp⟩
        exact h ⟨ht, hp⟩
  rw [stored, getReview, hrows]
  split <;> rfl

lemma kept_withReport (hs : s.Kept) {t : PeriodType} {report : StoredReport}
    (hid : report.reviewId = .period t report.periodId) (hnone : s.stored t report.periodId = none) :
    (s.withReport t report).Kept where
  keys := by
    rw [withReport_eq hs hid hnone]
    apply nodup_append_of_fresh hs.keys
    rw [ReviewRow.key, hid, ← row_eq_none_iff]
    exact Option.map_eq_none_iff.mp hnone
  ids := by
    rw [withReport_eq hs hid hnone]
    intro r hr
    rcases List.mem_append.mp hr with hr | hr
    · exact hs.ids r hr
    · rw [List.mem_singleton] at hr
      subst hr
      exact hid
  jobs := by
    intro t' periodId'
    rw [stored_withReport hs hid hnone, withReport_eq hs hid hnone]
    have hjobs := hs.jobs t' periodId'
    by_cases h : t' = t ∧ periodId' = report.periodId
    · obtain ⟨rfl, rfl⟩ := h
      rw [hnone] at hjobs
      rw [if_pos ⟨rfl, rfl⟩, row_append_of_none hjobs]
      simp [row, HierarchicalReviewJob.key, hid]
    · rw [if_neg h, ← hjobs]
      cases hrow : row HierarchicalReviewJob.key (t', periodId') s.jobs with
      | some j => exact row_append_of_some hrow
      | none =>
        rw [row_append_of_none hrow, row_eq_none_iff, List.map_singleton, List.mem_singleton, HierarchicalReviewJob.key,
          Prod.mk.injEq]
        exact h

end HierarchicalStore

/-! ### A history of daily reports -/

/-- At most one daily report for each day. -/
structure DailyHistory where
  report : ℕ → Option DailyReport
  periodId_report : ∀ day r, report day = some r → r.periodId = .day day

namespace DailyHistory

variable (H : DailyHistory)

/-- The report of a period, if it is a day that has one. -/
def find : PeriodId → Option DailyReport
  | .day day => H.report day
  | _ => none

def evidence (periodId : PeriodId) : List DailyReport := (H.find periodId).toList

/-- The `net_pnl` of a day, 0 without a report. -/
def pnl (day : ℕ) : ℚ := (H.report day).elim 0 (fun r => r.netPnl.dec)

lemma periodId_find {p : PeriodId} {r : DailyReport} (h : H.find p = some r) : r.periodId = p := by
  cases p with
  | day day => exact H.periodId_report day r h
  | week _ _ => cases h
  | month _ _ => cases h
  | year _ => cases h

end DailyHistory

namespace PeriodType

def child : PeriodType → PeriodType
  | daily => daily
  | weekly => daily
  | monthly => weekly
  | yearly => monthly

/-- The key of the result of a report. -/
def pnlField : PeriodType → String
  | daily => "net_pnl"
  | weekly => "weekly_pnl"
  | monthly => "monthly_pnl"
  | yearly => "annual_return"

end PeriodType

namespace HierarchicalStore

/-- The stored result of a period. -/
def recorded (s : HierarchicalStore) (t : PeriodType) (k : ℕ) : Option ℚ :=
  (s.stored t (t.label k)).map (fun r => (r.get t.pnlField).dec)

/-- What a sub-period counts in a report that is made now. -/
def counted (s : HierarchicalStore) (H : DailyHistory) : PeriodType → ℕ → ℚ
  | .daily, day => H.pnl day
  | t, k => (s.recorded t k).getD 0

variable {s : HierarchicalStore}

lemma periodId_of_stored (hs : s.Kept) {t : PeriodType} {p : PeriodId} {r : StoredReport} (h : s.stored t p = some r) :
    r.periodId = p := by
  obtain ⟨row, hrow, rfl⟩ := Option.map_eq_some_iff.mp h
  obtain ⟨hmem, hkey⟩ := row_some hrow
  rw [ReviewRow.key, hs.ids row hmem, Prod.mk.injEq, ReviewId.period.injEq] at hkey
  exact hkey.2.2

lemma sum_stored (hs : s.Kept) (child t : PeriodType) (k : ℕ) :
    ((dedupeChildReviews StoredReport.key (collapsePerPeriod StoredReport.key
      ((expectedPeriodIds (t.period k).startsAt (t.period k).endsAt child).flatMap (s.listPeriod child)))).map
        (fun r => (r.get child.pnlField).dec)).sum = ∑ j ∈ PeriodType.touching child t k, (s.recorded child j).getD 0 := by
  have hlist : s.listPeriod child = fun p => (s.stored child p).toList := by
    ext1 p
    exact listPeriod_eq hs child p
  rw [hlist, sum_collected (fun p r h => periodId_of_stored hs h) (PeriodType.nodup_expected child t k),
    PeriodType.sum_expected]
  apply Finset.sum_congr rfl
  intro j _
  rw [recorded]
  cases s.stored child (child.label j) <;> rfl

end HierarchicalStore

/-- The daily reports of a week, collected and summed. -/
lemma DailyHistory.sum_evidence (H : DailyHistory) (t : PeriodType) (k : ℕ) :
    ((dedupeChildReviews DailyReport.key (collapsePerPeriod DailyReport.key
      ((expectedPeriodIds (t.period k).startsAt (t.period k).endsAt .daily).flatMap H.evidence))).map
        (·.netPnl.dec)).sum = ∑ day ∈ PeriodType.touching .daily t k, H.pnl day := by
  have hevidence : H.evidence = fun p => (H.find p).toList := rfl
  rw [hevidence, sum_collected (fun p r h => H.periodId_find h) (PeriodType.nodup_expected .daily t k),
    PeriodType.sum_expected]
  rfl

namespace HierarchicalReviewService

variable (sqrt : ℚ → ℚ) (H : DailyHistory) {s : HierarchicalStore}

/-- A new report counts each sub-period once. -/
lemma aggregate_eq (hs : s.Kept) {t : PeriodType} (ht : t ≠ .daily) (k : ℕ) :
    ∃ report, aggregate sqrt H.evidence s t (t.period k) = some report ∧
      report.reviewId = .period t report.periodId ∧ report.periodId = t.label k ∧
      (report.get t.pnlField).dec = ∑ j ∈ PeriodType.touching t.child t k, s.counted H t.child j := by
  cases t with
  | daily => exact absurd rfl ht
  | weekly => exact ⟨_, rfl, rfl, rfl, H.sum_evidence .weekly k⟩
  | monthly => exact ⟨_, rfl, rfl, rfl, HierarchicalStore.sum_stored hs .weekly .monthly k⟩
  | yearly => exact ⟨_, rfl, rfl, rfl, HierarchicalStore.sum_stored hs .monthly .yearly k⟩

end HierarchicalReviewService

/-! ### Runs -/

namespace ReviewCall

/-- The index of the period a call reviews. -/
def index (c : ReviewCall) : ℕ := c.periodType.division.index c.now.date - 1

def reviews (t : PeriodType) (k : ℕ) (c : ReviewCall) : Bool := c.periodType = t ∧ c.index = k

end ReviewCall

/-- A period is reviewed by one of the calls. -/
def periodReviewed (calls : List ReviewCall) (t : PeriodType) (k : ℕ) : Bool := calls.any (ReviewCall.reviews t k)

/-- The calls before the first that reviews a period. -/
def beforeFirst (calls : List ReviewCall) (t : PeriodType) (k : ℕ) : Option (List ReviewCall) :=
  if periodReviewed calls t k then some (calls.takeWhile (fun c => !c.reviews t k)) else none

lemma isSome_beforeFirst (calls : List ReviewCall) (t : PeriodType) (k : ℕ) :
    (beforeFirst calls t k).isSome = periodReviewed calls t k := by
  rw [beforeFirst]
  cases periodReviewed calls t k <;> rfl

lemma reviewed_concat (calls : List ReviewCall) (c : ReviewCall) (t : PeriodType) (k : ℕ) :
    periodReviewed (calls ++ [c]) t k = (periodReviewed calls t k || c.reviews t k) := by
  simp [periodReviewed]

lemma beforeFirst_concat (calls : List ReviewCall) (c : ReviewCall) (t : PeriodType) (k : ℕ) :
    beforeFirst (calls ++ [c]) t k =
      (beforeFirst calls t k).or (if c.reviews t k then some calls else none) := by
  rw [beforeFirst, beforeFirst, reviewed_concat]
  cases hcalls : periodReviewed calls t k with
  | true =>
    obtain ⟨a, ha, hrev⟩ := List.any_eq_true.mp hcalls
    have hlen : (calls.takeWhile (fun c => !c.reviews t k)).length ≠ calls.length := by
      intro hlen
      have hall := List.takeWhile_eq_self_iff.mp ((List.takeWhile_prefix _).eq_of_length hlen) a ha
      rw [hrev] at hall
      cases hall
    rw [List.takeWhile_append, if_neg hlen]
    rfl
  | false =>
    have hnone : ∀ a ∈ calls, (!a.reviews t k) = true := by
      intro a ha
      have h := List.any_eq_false.mp hcalls a ha
      rwa [Bool.not_eq_true, ← Bool.not_eq_true'] at h
    rw [List.takeWhile_append_of_pos hnone]
    cases hc : c.reviews t k <;> simp [hc]

namespace HierarchicalReviewService

variable (sqrt : ℚ → ℚ) (H : DailyHistory) {s : HierarchicalStore}

lemma periodFor_index (c : ReviewCall) : (periodFor c.periodType c.now).toCalendarPeriod = c.periodType.period c.index :=
  periodFor_eq c.periodType c.now

lemma run_daily {c : ReviewCall} (hc : c.periodType = .daily) : (run sqrt H.evidence c s).2 = s := by
  rw [run, if_pos hc]

lemma run_again (hs : s.Kept) {c : ReviewCall} (hc : c.periodType ≠ .daily) {report : StoredReport}
    (h : s.stored c.periodType (c.periodType.label c.index) = some report) :
    run sqrt H.evidence c s = (.ok report, s) := by
  have hcompleted : completed s (c.periodType, (c.periodType.period c.index).periodId) = some report := by
    rw [HierarchicalStore.completed_eq hs]
    exact h
  rw [run, if_neg hc]
  simp only [periodFor_index, hcompleted]

/-- The first run of a period stores a report that counts its sub-periods. -/
lemma run_first (hs : s.Kept) {c : ReviewCall} (hc : c.periodType ≠ .daily)
    (h : s.stored c.periodType (c.periodType.label c.index) = none) :
    ∃ report, run sqrt H.evidence c s = (.ok report, s.withReport c.periodType report) ∧
      report.reviewId = .period c.periodType report.periodId ∧ report.periodId = c.periodType.label c.index ∧
      (report.get c.periodType.pnlField).dec =
        ∑ j ∈ PeriodType.touching c.periodType.child c.periodType c.index, s.counted H c.periodType.child j := by
  obtain ⟨report, hreport, hid, hperiod, hpnl⟩ := aggregate_eq sqrt H hs hc c.index
  refine ⟨report, ?_, hid, hperiod, hpnl⟩
  have hcompleted : completed s (c.periodType, (c.periodType.period c.index).periodId) = none := by
    rw [HierarchicalStore.completed_eq hs]
    exact h
  rw [run, if_neg hc]
  simp only [periodFor_index, hcompleted, hreport]
  rw [HierarchicalStore.withReport, hid, hperiod]
  rfl

lemma kept_run (hs : s.Kept) (c : ReviewCall) : (run sqrt H.evidence c s).2.Kept := by
  by_cases hc : c.periodType = .daily
  · rwa [run_daily sqrt H hc]
  · cases h : s.stored c.periodType (c.periodType.label c.index) with
    | some report => rwa [run_again sqrt H hs hc h]
    | none =>
      obtain ⟨report, hrun, hid, hperiod, -⟩ := run_first sqrt H hs hc h
      rw [hrun]
      exact HierarchicalStore.kept_withReport hs hid (hperiod ▸ h)

lemma recorded_run (hs : s.Kept) (c : ReviewCall) {t : PeriodType} (ht : t ≠ .daily) (k : ℕ) :
    (run sqrt H.evidence c s).2.recorded t k = (s.recorded t k).or
      (if c.reviews t k then some (∑ j ∈ PeriodType.touching t.child t k, s.counted H t.child j) else none) := by
  by_cases hc : c.periodType = .daily
  · have hrev : c.reviews t k = false := by
      rw [ReviewCall.reviews, hc, decide_eq_false_iff_not]
      exact fun h => ht h.1.symm
    rw [run_daily sqrt H hc, hrev, if_neg Bool.false_ne_true, Option.or_none]
  cases h : s.stored c.periodType (c.periodType.label c.index) with
  | some report =>
    rw [run_again sqrt H hs hc h]
    by_cases hrev : c.periodType = t ∧ c.index = k
    · obtain ⟨rfl, rfl⟩ := hrev
      rw [HierarchicalStore.recorded, h]
      rfl
    · rw [ReviewCall.reviews, decide_eq_false hrev, if_neg Bool.false_ne_true, Option.or_none]
  | none =>
    obtain ⟨report, hrun, hid, hperiod, hpnl⟩ := run_first sqrt H hs hc h
    rw [hrun, HierarchicalStore.recorded, HierarchicalStore.stored_withReport hs hid (hperiod ▸ h), hperiod,
      HierarchicalStore.recorded, ReviewCall.reviews]
    by_cases hrev : c.periodType = t ∧ c.index = k
    · obtain ⟨rfl, rfl⟩ := hrev
      rw [if_pos ⟨rfl, rfl⟩, h, decide_eq_true ⟨rfl, rfl⟩, if_pos rfl, Option.map_some, hpnl]
      rfl
    · have hne : ¬(t = c.periodType ∧ t.label k = c.periodType.label c.index) := by
        rintro ⟨rfl, hlabel⟩
        exact hrev ⟨rfl, (c.periodType.label_injective hlabel).symm⟩
      rw [if_neg hne, decide_eq_false hrev, if_neg Bool.false_ne_true, Option.or_none]

lemma after_concat (evidence : PeriodId → List DailyReport) (calls : List ReviewCall) (c : ReviewCall) :
    after sqrt evidence (calls ++ [c]) = (run sqrt evidence c (after sqrt evidence calls)).2 := by
  rw [after, List.foldl_append]
  rfl

lemma kept_after (calls : List ReviewCall) : (after sqrt H.evidence calls).Kept := by
  induction calls using List.reverseRecOn with
  | nil => exact HierarchicalStore.kept_empty
  | append_singleton calls c ih =>
    rw [after_concat]
    exact kept_run sqrt H ih c

/-- A stored result counts the sub-periods as they were before the first review of its period. -/
theorem recorded_after (calls : List ReviewCall) {t : PeriodType} (ht : t ≠ .daily) (k : ℕ) :
    (after sqrt H.evidence calls).recorded t k = (beforeFirst calls t k).map (fun earlier =>
      ∑ j ∈ PeriodType.touching t.child t k, (after sqrt H.evidence earlier).counted H t.child j) := by
  induction calls using List.reverseRecOn with
  | nil => rfl
  | append_singleton calls c ih =>
    rw [after_concat, recorded_run sqrt H (kept_after sqrt H calls) c ht k, ih, beforeFirst_concat]
    cases beforeFirst calls t k with
    | some earlier => rfl
    | none =>
      rw [Option.map_none, Option.none_or, Option.none_or]
      split <;> rfl

end HierarchicalReviewService

end CryptoTrader
