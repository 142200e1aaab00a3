import CryptoTrader.Evolution.ReviewScheduler
import CryptoTrader.Lib.Runs

/-!
# Failed reviews

A review whose callback raised should be due again until it succeeds, one that succeeded
should not run again, and a failure should not keep the other due reviews of the same call
from running. The exception leaves `run_serially` with the record `RUNNING`, which is never
due, and with the rest of the loop undone; so that holds of the runs in which no due review
raises, and of no others (`failed_reviews`).
-/

namespace CryptoTrader

open EvolutionReviewScheduler

structure SerialCall where
  now : Instant
  callbacks : PeriodType → Callback

def ReviewPeriod.key (p : ReviewPeriod) : ReviewKey := (p.periodType, p.periodId)

lemma periodFor_periodType (t : PeriodType) (now : Instant) : (periodFor t now).periodType = t := by
  cases t <;> rfl

lemma periodFor_key (t : PeriodType) (now : Instant) : (periodFor t now).key = reviewKey t now := by
  rw [ReviewPeriod.key, reviewKey, periodFor_periodType]

/-- A scheduler with the reviews that have succeeded and those whose last callback raised. -/
structure WatchedScheduler where
  scheduler : EvolutionReviewScheduler := {}
  succeeded : List ReviewKey := []
  failed : List ReviewKey := []

namespace WatchedScheduler

def outcome (w : WatchedScheduler) (call : SerialCall) : ReviewOutcome EvolutionReviewScheduler ReviewKey :=
  w.scheduler.runSerially call.now call.callbacks

/-- The keys of the reviews the call ran without an exception. -/
def newlySucceeded (w : WatchedScheduler) (call : SerialCall) : List ReviewKey :=
  ((w.outcome call).ran.filter (fun p => ¬(call.callbacks p.periodType).Raises)).map (·.key)

def newlyFailed (w : WatchedScheduler) (call : SerialCall) : List ReviewKey :=
  ((w.outcome call).ran.filter (fun p => (call.callbacks p.periodType).Raises)).map (·.key)

def step (w : WatchedScheduler) (call : SerialCall) : WatchedScheduler where
  scheduler := (w.outcome call).state
  succeeded := w.succeeded ++ w.newlySucceeded call
  failed := w.failed.filter (· ∉ w.newlySucceeded call) ++ w.newlyFailed call

/-- Every due review runs, none that has succeeded does, and what has failed stays due. -/
def Sound (w : WatchedScheduler) (call : SerialCall) : Prop :=
  (∀ t ∈ w.scheduler.due call.now, periodFor t call.now ∈ (w.outcome call).ran) ∧
  (∀ p ∈ (w.outcome call).ran, p.key ∉ w.succeeded) ∧
  ∀ t now, shouldTrigger t now = true → reviewKey t now ∈ (w.step call).failed →
    (w.step call).scheduler.shouldRun t now = true

/-- No due review raises. -/
def Meets (w : WatchedScheduler) (call : SerialCall) : Prop :=
  ∀ t ∈ w.scheduler.due call.now, ¬(call.callbacks t).Raises

/-- Nothing has failed, and what has succeeded is recorded as completed. -/
structure Inv (w : WatchedScheduler) : Prop where
  failed : w.failed = []
  succeeded : ∀ k ∈ w.succeeded, w.scheduler.status k = some .completed

end WatchedScheduler

lemma reviewKey_ne {t t' : PeriodType} (h : t ≠ t') (now now' : Instant) : reviewKey t now ≠ reviewKey t' now' :=
  fun he => h (congrArg Prod.fst he)

namespace EvolutionReviewScheduler

lemma mem_due {s : EvolutionReviewScheduler} {t : PeriodType} {now : Instant} :
    t ∈ s.due now ↔ s.shouldRun t now = true := by
  simp [due, PeriodType.mem_order]

/-- A review that is run and raises is left `RUNNING`. -/
lemma runTypes_raises (now : Instant) (callbacks : PeriodType → Callback) (ts : List PeriodType)
    (s : EvolutionReviewScheduler) {t : PeriodType} (ht : (callbacks t).Raises)
    (hr : periodFor t now ∈ (runTypes now callbacks ts s).ran) :
    (runTypes now callbacks ts s).state.status (reviewKey t now) = some .running := by
  induction ts generalizing s with
  | nil => simp [runTypes] at hr
  | cons t' ts ih =>
    by_cases hrun : s.shouldRun t' now = true
    · by_cases hc : (callbacks t').Raises
      · obtain ⟨message, hm⟩ := hc
        rw [runTypes_of_raises hrun hm] at hr ⊢
        have he : periodFor t now = periodFor t' now := List.mem_singleton.mp hr
        obtain rfl : t = t' := by rw [← periodFor_periodType t now, he, periodFor_periodType]
        rw [status_begin, if_pos rfl]
      · rw [runTypes_of_due hrun hc] at hr ⊢
        rcases List.mem_cons.mp hr with he | hr
        · have htt : t = t' := by rw [← periodFor_periodType t now, he, periodFor_periodType]
          exact absurd (htt ▸ ht) hc
        · exact ih _ hr
    · rw [runTypes_of_not_due hrun] at hr ⊢
      exact ih _ hr

/-- Where nothing that should run raises, all of it runs and ends `COMPLETED`. -/
lemma runTypes_succeeds (now : Instant) (callbacks : PeriodType → Callback) {ts : List PeriodType} (hn : ts.Nodup)
    (s : EvolutionReviewScheduler) (h : ∀ t ∈ ts, s.shouldRun t now = true → ¬(callbacks t).Raises) :
    (runTypes now callbacks ts s).ran = (ts.filter (s.shouldRun · now)).map (periodFor · now) ∧
    ∀ k, (runTypes now callbacks ts s).state.status k =
      if ∃ t ∈ ts, s.shouldRun t now = true ∧ reviewKey t now = k then some .completed else s.status k := by
  induction ts generalizing s with
  | nil => simp [runTypes]
  | cons t ts ih =>
    obtain ⟨hfresh, hn⟩ := List.nodup_cons.mp hn
    by_cases hrun : s.shouldRun t now = true
    · have hc : ¬(callbacks t).Raises := h t List.mem_cons_self hrun
      set s' := (s.begin t now).markCompleted (reviewKey t now) now with hs'
      have hstep : runTypes now callbacks (t :: ts) s =
          .after (periodFor t now) (reviewKey t now) (runTypes now callbacks ts s') := runTypes_of_due hrun hc
      -- finishing one review changes nothing for the other types
      have hsame : ∀ t' ∈ ts, s'.shouldRun t' now = s.shouldRun t' now := by
        intro t' ht'
        have hne : t' ≠ t := fun he => hfresh (he ▸ ht')
        exact shouldRun_congr (by rw [hs', status_complete, if_neg (reviewKey_ne hne now now)])
      obtain ⟨hran, hstatus⟩ := ih hn s' (fun t' ht' hr =>
        h t' (List.mem_cons_of_mem _ ht') (hsame t' ht' ▸ hr))
      rw [hstep]
      constructor
      · have hfilter : (t :: ts).filter (s.shouldRun · now) = t :: ts.filter (s.shouldRun · now) :=
          List.filter_cons_of_pos hrun
        rw [hfilter, List.map_cons, ← List.filter_congr hsame, ← hran]
        rfl
      · intro k
        change (runTypes now callbacks ts s').state.status k = _
        have hrest : (∃ t' ∈ ts, s'.shouldRun t' now = true ∧ reviewKey t' now = k) ↔
            ∃ t' ∈ ts, s.shouldRun t' now = true ∧ reviewKey t' now = k :=
          exists_congr (fun t' => and_congr_right (fun ht' => by rw [hsame t' ht']))
        rw [hstatus k, if_congr hrest rfl rfl, hs', status_complete]
        simp only [List.exists_mem_cons_iff, hrun, true_and]
        by_cases hk : reviewKey t now = k
        · simp [hk]
        · simp [hk, Ne.symm hk]
    · obtain ⟨hran, hstatus⟩ := ih hn s (fun t' ht' => h t' (List.mem_cons_of_mem _ ht'))
      have hfilter : (t :: ts).filter (s.shouldRun · now) = ts.filter (s.shouldRun · now) :=
        List.filter_cons_of_neg hrun
      rw [runTypes_of_not_due hrun]
      refine ⟨by rw [hran, hfilter], fun k => ?_⟩
      rw [hstatus k]
      simp only [List.exists_mem_cons_iff, hrun, Bool.false_eq_true, false_and, false_or]

end EvolutionReviewScheduler

namespace WatchedScheduler

/-- What a call without an exception does: the due reviews run, and are completed. -/
lemma outcome_of_meets {w : WatchedScheduler} {call : SerialCall} (h : w.Meets call) :
    (w.outcome call).ran = (w.scheduler.due call.now).map (periodFor · call.now) ∧
    ∀ k, (w.outcome call).state.status k =
      if ∃ t ∈ w.scheduler.due call.now, reviewKey t call.now = k then some .completed
      else w.scheduler.status k := by
  obtain ⟨hran, hstatus⟩ := runTypes_succeeds call.now call.callbacks (by decide : PeriodType.order.Nodup)
    w.scheduler (fun t _ hr => h t (mem_due.mpr hr))
  refine ⟨hran, fun k => (hstatus k).trans ?_⟩
  simp only [due, List.mem_filter, and_assoc]

lemma newlyFailed_of_meets {w : WatchedScheduler} {call : SerialCall} (h : w.Meets call) :
    w.newlyFailed call = [] := by
  unfold newlyFailed
  rw [List.map_eq_nil_iff, List.filter_eq_nil_iff]
  intro p hp
  rw [(outcome_of_meets h).1] at hp
  obtain ⟨t, ht, rfl⟩ := List.mem_map.mp hp
  simpa [periodFor_periodType] using h t ht

lemma sound_iff {w : WatchedScheduler} (hw : Inv w) (call : SerialCall) : w.Sound call ↔ w.Meets call := by
  constructor
  · rintro ⟨hdue, -, hfailed⟩ t ht hraises
    have hran := hdue t ht
    have hstatus := runTypes_raises call.now call.callbacks PeriodType.order w.scheduler hraises hran
    have hmem : reviewKey t call.now ∈ (w.step call).failed := by
      refine List.mem_append_right _ (List.mem_map.mpr ⟨periodFor t call.now, ?_, periodFor_key t call.now⟩)
      simp [hran, periodFor_periodType, hraises]
    have hagain := hfailed t call.now ((shouldRun_iff _ _ _).mp (mem_due.mp ht)).1 hmem
    -- the record is still RUNNING
    exact ((shouldRun_iff _ _ _).mp hagain).2 (by simp only [step, outcome, runSerially, hstatus]; decide)
  · intro h
    obtain ⟨hran, -⟩ := outcome_of_meets h
    refine ⟨fun t ht => ?_, fun p hp hs => ?_, fun t now _ hk => ?_⟩
    · rw [hran]
      exact List.mem_map_of_mem ht
    · rw [hran] at hp
      obtain ⟨t, ht, rfl⟩ := List.mem_map.mp hp
      rw [periodFor_key] at hs
      have hdone := hw.succeeded _ hs
      exact ((shouldRun_iff _ _ _).mp (mem_due.mp ht)).2 (by rw [hdone]; decide)
    · simp [step, hw.failed, newlyFailed_of_meets h] at hk

lemma Inv.step {w : WatchedScheduler} (hw : Inv w) {call : SerialCall} (h : w.Meets call) : Inv (w.step call) := by
  obtain ⟨hran, hstatus⟩ := outcome_of_meets h
  refine ⟨by simp [WatchedScheduler.step, hw.failed, newlyFailed_of_meets h], fun k hk => ?_⟩
  change (w.outcome call).state.status k = some .completed
  rw [hstatus k]
  split
  · rfl
  · rename_i hnot
    rcases List.mem_append.mp hk with hk | hk
    · exact hw.succeeded k hk
    · obtain ⟨p, hp, rfl⟩ := List.mem_map.mp hk
      have hmem := (List.mem_filter.mp hp).1
      rw [hran] at hmem
      obtain ⟨t, ht, rfl⟩ := List.mem_map.mp hmem
      exact absurd ⟨t, ht, (periodFor_key t call.now).symm⟩ hnot

end WatchedScheduler

open WatchedScheduler

/-- From a new scheduler, a run of calls retries what failed, runs nothing again that has
succeeded and runs all that is due, exactly when no review raises that is due. -/
theorem failed_reviews (calls : List SerialCall) :
    Runs.Along step Sound {} calls ↔ Runs.Along step Meets {} calls :=
  Runs.along_iff_along (fun _ call h => sound_iff h call) (fun _ call h hs => h.step ((sound_iff h call).mp hs))
    ⟨rfl, by simp⟩

/-! ### A daily review that raises -/

/-- 2026-01-01T00:05:00Z. -/
def newYear2026 : Instant :=
  ⟨739616 * dayUs + reviewTime, by decide⟩

def dailyRaises : PeriodType → Callback
  | .daily => .raises "boom"
  | _ => .succeeds

/-- The daily review of New Year's Eve raises: the monthly and the yearly one do not run. -/
theorem daily_failure_blocks : ¬∀ calls, Runs.Along step Sound {} calls := by
  intro h
  have hdue := (h [⟨newYear2026, dailyRaises⟩]).1.1 .monthly (by decide)
  revert hdue
  decide

end CryptoTrader
