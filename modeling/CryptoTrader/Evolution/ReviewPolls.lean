import CryptoTrader.Evolution.ReviewRuns
import Mathlib.Data.List.Perm.Basic

/-!
# Polling the review schedulers

Polls at increasing instants, at least one in the minute of 00:05 of every day, should
review every period completed in the span once. The trigger compares the time of day with
00:05 to the microsecond, so a day is reviewed when one of its polls is at that very
instant (`reviews_exactly_once`).
-/

namespace CryptoTrader

/-- The microsecond at which the reviews of a day trigger. -/
def reviewInstant (date : ℕ) : ℕ := date * dayUs + reviewTime

/-- Polls over the days from `first` to `last`, with callbacks that succeed. -/
structure PollSchedule where
  first : ℕ
  last : ℕ
  polls : List Instant
  increasing : polls.Pairwise (fun p q => p.us < q.us)
  within : ∀ p ∈ polls, first ≤ p.date ∧ p.date ≤ last
  polled : ∀ date, first ≤ date → date ≤ last →
    ∃ p ∈ polls, reviewInstant date ≤ p.us ∧ p.us < reviewInstant date + 60 * 1000000

/-- The reviews the scheduler runs over a list of polls. -/
def schedulerLog : List Instant → EvolutionReviewScheduler → List ReviewPeriod
  | [], _ => []
  | now :: polls, s =>
    let o := s.runSerially now (fun _ => .succeeds)
    o.ran ++ schedulerLog polls o.state

def coordinatorLog : List Instant → RuntimeReviewCoordinator → List ReviewPeriod
  | [], _ => []
  | now :: polls, c =>
    let o := c.runDue now (fun _ => .succeeds)
    o.ran ++ coordinatorLog polls o.state

namespace PollSchedule

/-- The period ends, and so is complete, at the beginning of a day of the span. -/
def Completed (S : PollSchedule) (t : PeriodType) (k : ℕ) : Prop :=
  S.first ≤ t.division.start (k + 1) ∧ t.division.start (k + 1) ≤ S.last

/-- The reviews are those of the completed periods, each once. -/
def ExactlyOnce (S : PollSchedule) (log : List ReviewPeriod) : Prop :=
  (log.map (·.toCalendarPeriod)).Nodup ∧
    ∀ p, p ∈ log.map (·.toCalendarPeriod) ↔ ∃ t k, S.Completed t k ∧ p = t.period k

end PollSchedule

/-! ### The trigger -/

lemma Instant.us_eq (now : Instant) : now.us = now.date * dayUs + now.timeOfDay :=
  (Nat.div_add_mod' now.us dayUs).symm

/-- A trigger is at the review instant of the day after a period of its kind. -/
lemma trigger_period {t : PeriodType} {now : Instant} (h : shouldTrigger t now = true) :
    ∃ k, now.us = reviewInstant (t.division.start (k + 1)) ∧ (periodFor t now).toCalendarPeriod = t.period k := by
  obtain ⟨hdate, htime⟩ := (shouldTrigger_iff t now).mp h
  have hone := t.one_le_index now.le_date
  refine ⟨t.division.index now.date - 1, ?_, periodFor_eq t now⟩
  rw [Nat.sub_add_cancel hone, ← hdate, now.us_eq, htime]
  rfl

lemma trigger_of_us {t : PeriodType} {k : ℕ} {now : Instant}
    (h : now.us = reviewInstant (t.division.start (k + 1))) :
    shouldTrigger t now = true ∧ (periodFor t now).toCalendarPeriod = t.period k := by
  have hlt : reviewTime < dayUs := by decide
  have hdate : now.date = t.division.start (k + 1) := by
    rw [Instant.date, h, reviewInstant, mul_comm, Nat.mul_add_div (by decide), Nat.div_eq_of_lt hlt, add_zero]
  have htime : now.timeOfDay = reviewTime := by
    rw [Instant.timeOfDay, h, reviewInstant, mul_comm, Nat.mul_add_mod, Nat.mod_eq_of_lt hlt]
  have hindex : t.division.index now.date = k + 1 := by rw [hdate, t.division.index_start]
  refine ⟨(shouldTrigger_iff t now).mpr ⟨by rw [hindex, hdate], htime⟩, ?_⟩
  rw [periodFor_eq, hindex, Nat.add_sub_cancel]

lemma reviewKey_eq (t : PeriodType) (now : Instant) :
    reviewKey t now = ((periodFor t now).periodType, (periodFor t now).periodId) := by
  rw [reviewKey, periodFor_periodType]

/-- Triggers at different instants are about different periods. -/
lemma trigger_us_eq {t t' : PeriodType} {now now' : Instant} (h : shouldTrigger t now = true)
    (h' : shouldTrigger t' now' = true) (hk : reviewKey t now = reviewKey t' now') : t = t' ∧ now.us = now'.us := by
  obtain ⟨k, hus, hp⟩ := trigger_period h
  obtain ⟨k', hus', hp'⟩ := trigger_period h'
  have ht : t = t' := congrArg Prod.fst hk
  subst ht
  have hid : t.label k = t.label k' := by
    have h1 := congrArg CalendarPeriod.periodId hp
    have h2 := congrArg CalendarPeriod.periodId hp'
    exact h1.symm.trans ((congrArg Prod.snd hk).trans h2)
  rw [hus, hus', t.label_injective hid]
  exact ⟨rfl, rfl⟩

/-- The reviews that trigger at an instant. -/
def triggered (now : Instant) : List ReviewPeriod :=
  (PeriodType.order.filter (shouldTrigger · now)).map (periodFor · now)

/-! ### Both schedulers run what triggers -/

open EvolutionReviewScheduler in
lemma schedulerLog_eq {polls : List Instant} (hinc : polls.Pairwise (fun p q => p.us < q.us))
    (s : EvolutionReviewScheduler)
    (hfresh : ∀ now ∈ polls, ∀ t, shouldTrigger t now = true → s.status (reviewKey t now) = none) :
    schedulerLog polls s = polls.flatMap triggered := by
  induction polls generalizing s with
  | nil => rfl
  | cons now polls ih =>
    rw [List.pairwise_cons] at hinc
    have hdue : ∀ t ∈ PeriodType.order, s.shouldRun t now = shouldTrigger t now := by
      intro t _
      cases htr : shouldTrigger t now with
      | false => simp [shouldRun, htr]
      | true => simp [shouldRun, htr, hfresh now List.mem_cons_self t htr]
    obtain ⟨hran, hstatus⟩ := runTypes_succeeds now (fun _ => .succeeds) (by decide : PeriodType.order.Nodup) s
      (fun t _ _ => by rintro ⟨message, h⟩; cases h)
    rw [List.filter_congr hdue] at hran
    have hrest : schedulerLog polls (s.runSerially now (fun _ => .succeeds)).state = polls.flatMap triggered := by
      refine ih hinc.2 _ (fun later hl t ht => ?_)
      have hkey : ¬∃ t' ∈ PeriodType.order, s.shouldRun t' now = true ∧ reviewKey t' now = reviewKey t later := by
        rintro ⟨t', -, hrun, hk⟩
        have hus := (trigger_us_eq ((shouldRun_iff _ _ _).mp hrun).1 ht hk).2
        have hlt := hinc.1 later hl
        omega
      exact (hstatus _).trans ((if_neg hkey).trans (hfresh later (List.mem_cons_of_mem _ hl) t ht))
    simp only [schedulerLog, hrest, List.flatMap_cons]
    congr 1

namespace RuntimeReviewCoordinator

/-- Where nothing that triggers is completed, all of it runs. -/
lemma runTypes_runs (now : Instant) {ts : List PeriodType} (hn : ts.Nodup) (c : RuntimeReviewCoordinator)
    (hfresh : ∀ t ∈ ts, shouldTrigger t now = true → c.isCompleted (reviewKey t now) = false) :
    (runTypes now (fun _ => .succeeds) ts c).ran = (ts.filter (shouldTrigger · now)).map (periodFor · now) ∧
    ∀ k, (runTypes now (fun _ => .succeeds) ts c).state.isCompleted k = true →
      c.isCompleted k = true ∨ ∃ t ∈ ts, shouldTrigger t now = true ∧ k = reviewKey t now := by
  induction ts generalizing c with
  | nil => exact ⟨rfl, fun k hk => .inl hk⟩
  | cons t ts ih =>
    obtain ⟨hnew, hn⟩ := List.nodup_cons.mp hn
    by_cases htr : shouldTrigger t now = true
    · have hc := hfresh t List.mem_cons_self htr
      have hstep : runTypes now (fun _ => .succeeds) (t :: ts) c =
          .after (periodFor t now) (t, .completed) (runTypes now (fun _ => .succeeds) ts (c.putCompleted t now)) := by
        rw [runTypes, if_pos htr, if_neg (by simp [hc])]
      obtain ⟨hran, hdone⟩ := ih hn (c.putCompleted t now) (by
        intro t' ht' htr'
        by_contra hcompleted
        rcases isCompleted_putCompleted c t now _ (Bool.eq_true_of_not_eq_false hcompleted) with hk | hk
        · have htt : t' = t := congrArg Prod.fst hk
          exact hnew (htt ▸ ht')
        · simp [hfresh t' (List.mem_cons_of_mem _ ht') htr'] at hk)
      have hfilter : (t :: ts).filter (shouldTrigger · now) = t :: ts.filter (shouldTrigger · now) :=
        List.filter_cons_of_pos htr
      rw [hstep, hfilter, List.map_cons, ← hran]
      refine ⟨rfl, fun k hk => ?_⟩
      rcases hdone k hk with hput | ⟨t', ht', htr', hk'⟩
      · rcases isCompleted_putCompleted c t now k hput with hk' | hk'
        · exact .inr ⟨t, List.mem_cons_self, htr, hk'⟩
        · exact .inl hk'
      · exact .inr ⟨t', List.mem_cons_of_mem _ ht', htr', hk'⟩
    · have hfilter : (t :: ts).filter (shouldTrigger · now) = ts.filter (shouldTrigger · now) :=
        List.filter_cons_of_neg htr
      have hstep : runTypes now (fun _ => .succeeds) (t :: ts) c = runTypes now (fun _ => .succeeds) ts c := by
        rw [runTypes, if_neg htr]
      obtain ⟨hran, hdone⟩ := ih hn c (fun t' ht' => hfresh t' (List.mem_cons_of_mem _ ht'))
      rw [hstep, hfilter]
      refine ⟨hran, fun k hk => ?_⟩
      rcases hdone k hk with hk | ⟨t', ht', h⟩
      · exact .inl hk
      · exact .inr ⟨t', List.mem_cons_of_mem _ ht', h⟩

end RuntimeReviewCoordinator

open RuntimeReviewCoordinator in
lemma coordinatorLog_eq {polls : List Instant} (hinc : polls.Pairwise (fun p q => p.us < q.us))
    (c : RuntimeReviewCoordinator)
    (hfresh : ∀ now ∈ polls, ∀ t, shouldTrigger t now = true → c.isCompleted (reviewKey t now) = false) :
    coordinatorLog polls c = polls.flatMap triggered := by
  induction polls generalizing c with
  | nil => rfl
  | cons now polls ih =>
    rw [List.pairwise_cons] at hinc
    obtain ⟨hran, hdone⟩ := runTypes_runs now (by decide : PeriodType.order.Nodup) c
      (fun t _ ht => hfresh now List.mem_cons_self t ht)
    have hrest : coordinatorLog polls (c.runDue now (fun _ => .succeeds)).state = polls.flatMap triggered := by
      refine ih hinc.2 _ (fun later hl t ht => ?_)
      by_contra hcompleted
      rcases hdone _ (Bool.eq_true_of_not_eq_false hcompleted) with hk | ⟨t', -, ht', hk⟩
      · simp [hfresh later (List.mem_cons_of_mem _ hl) t ht] at hk
      · have hus := (trigger_us_eq ht ht' hk).2
        have hlt := hinc.1 later hl
        omega
    simp only [coordinatorLog, hrest, List.flatMap_cons]
    congr 1

/-! ### The periods that are reviewed -/

lemma mem_triggered {polls : List Instant} {p : CalendarPeriod} :
    p ∈ (polls.flatMap triggered).map (·.toCalendarPeriod) ↔
      ∃ now ∈ polls, ∃ t, shouldTrigger t now = true ∧ (periodFor t now).toCalendarPeriod = p := by
  simp only [triggered, List.mem_map, List.mem_flatMap, List.mem_filter, PeriodType.mem_order, true_and]
  constructor
  · rintro ⟨q, ⟨now, hnow, t, ht, rfl⟩, rfl⟩
    exact ⟨now, hnow, t, ht, rfl⟩
  · rintro ⟨now, hnow, t, ht, rfl⟩
    exact ⟨_, ⟨now, hnow, t, ht, rfl⟩, rfl⟩

lemma nodup_triggered {polls : List Instant} (hinc : polls.Pairwise (fun p q => p.us < q.us)) :
    ((polls.flatMap triggered).map (·.toCalendarPeriod)).Nodup := by
  rw [List.map_flatMap, List.nodup_flatMap]
  constructor
  · intro now _
    rw [triggered, List.map_map]
    refine ((by decide : PeriodType.order.Nodup).filter _).map (fun t t' h => ?_)
    have ht := congrArg CalendarPeriod.periodType h
    rwa [Function.comp_apply, Function.comp_apply, periodFor_periodType, periodFor_periodType] at ht
  · refine hinc.imp (fun {now later} hlt p hp hp' => ?_)
    simp only [triggered, List.map_map, List.mem_map, List.mem_filter, Function.comp_apply] at hp hp'
    obtain ⟨t, ⟨-, ht⟩, rfl⟩ := hp
    obtain ⟨t', ⟨-, ht'⟩, hsame⟩ := hp'
    have hk : reviewKey t now = reviewKey t' later := by rw [reviewKey_eq, reviewKey_eq, hsame]
    have hus := (trigger_us_eq ht ht' hk).2
    omega

lemma PollSchedule.exactlyOnce_iff (S : PollSchedule) :
    S.ExactlyOnce (S.polls.flatMap triggered) ↔
      ∀ date, S.first ≤ date → date ≤ S.last → ∃ p ∈ S.polls, p.us = reviewInstant date := by
  constructor
  · rintro ⟨-, hmem⟩ date hfirst hlast
    -- the day has a poll, so it is not the first of the calendar and a day ends before it
    obtain ⟨p, -, -, hp⟩ := S.polled date hfirst hlast
    have hdate : 1 ≤ date := by
      by_contra hzero
      have hus := p.year_one_over
      have h0 : date = 0 := by omega
      simp only [h0, reviewInstant, reviewTime, dayUs] at hp hus
      omega
    have hcompleted : S.Completed .daily (date - 1) := by
      change S.first ≤ date - 1 + 1 ∧ date - 1 + 1 ≤ S.last
      omega
    obtain ⟨now, hnow, t, ht, hperiod⟩ := mem_triggered.mp ((hmem _).mpr ⟨.daily, date - 1, hcompleted, rfl⟩)
    obtain ⟨k, hus, hk⟩ := trigger_period ht
    obtain ⟨rfl, rfl⟩ := PeriodType.period_injective (hk.symm.trans hperiod)
    refine ⟨now, hnow, hus.trans ?_⟩
    change reviewInstant (date - 1 + 1) = reviewInstant date
    rw [Nat.sub_add_cancel hdate]
  · intro hexact
    refine ⟨nodup_triggered S.increasing, fun p => ⟨fun hp => ?_, ?_⟩⟩
    · obtain ⟨now, hnow, t, ht, rfl⟩ := mem_triggered.mp hp
      obtain ⟨hdate, -⟩ := (shouldTrigger_iff t now).mp ht
      have hone := t.one_le_index now.le_date
      have hstart : t.division.start (t.division.index now.date - 1 + 1) = now.date := by
        rw [Nat.sub_add_cancel hone, ← hdate]
      refine ⟨t, t.division.index now.date - 1, ?_, periodFor_eq t now⟩
      rw [PollSchedule.Completed, hstart]
      exact S.within now hnow
    · rintro ⟨t, k, hk, rfl⟩
      obtain ⟨now, hnow, hus⟩ := hexact _ hk.1 hk.2
      obtain ⟨ht, hperiod⟩ := trigger_of_us hus
      exact mem_triggered.mpr ⟨now, hnow, t, ht, hperiod⟩

/-- Either scheduler reviews each completed period exactly once when every day of the span
has a poll at 00:05:00.000000 UTC, and in no other case. -/
theorem reviews_exactly_once (S : PollSchedule) :
    (S.ExactlyOnce (schedulerLog S.polls {}) ↔
      ∀ date, S.first ≤ date → date ≤ S.last → ∃ p ∈ S.polls, p.us = reviewInstant date) ∧
    ∀ jobStore ∈ [none, some []], (S.ExactlyOnce (coordinatorLog S.polls ⟨jobStore⟩) ↔
      ∀ date, S.first ≤ date → date ≤ S.last → ∃ p ∈ S.polls, p.us = reviewInstant date) := by
  constructor
  · rw [schedulerLog_eq S.increasing {} (fun _ _ _ _ => rfl)]
    exact S.exactlyOnce_iff
  · intro jobStore hstore
    rw [coordinatorLog_eq S.increasing ⟨jobStore⟩ (fun now _ t _ => ?_)]
    · exact S.exactlyOnce_iff
    · rcases List.mem_pair.mp hstore with rfl | rfl <;> rfl

/-! ### Half a minute late -/

/-- One poll, at 2026-09-01T00:05:30Z. -/
def latePoll : PollSchedule where
  first := 739859
  last := 739859
  polls := [⟨reviewInstant 739859 + 30000000, by decide⟩]
  increasing := List.pairwise_singleton _ _
  within := by decide
  polled := by
    intro date h h'
    obtain rfl : date = 739859 := by omega
    exact ⟨_, List.mem_singleton_self _, by decide⟩

/-- The poll reviews nothing, neither the 31st of August nor the month. -/
theorem late_poll_reviews_nothing : ¬∀ S : PollSchedule, S.ExactlyOnce (schedulerLog S.polls {}) := by
  intro h
  have hdaily := ((h latePoll).2 (PeriodType.daily.period 739858)).mpr
    ⟨.daily, 739858, by unfold PollSchedule.Completed; decide, rfl⟩
  revert hdaily
  decide

end CryptoTrader
