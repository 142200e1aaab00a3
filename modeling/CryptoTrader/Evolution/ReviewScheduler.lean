import CryptoTrader.Evolution.ReviewPeriod
import CryptoTrader.Lib.KeyedTable

/-!
# The two review schedulers

`EvolutionReviewScheduler` keeps a record of every run and runs the due reviews of an
instant one after the other; `RuntimeReviewCoordinator` does the same over a job store. In
both an exception of a callback leaves the loop.
-/

namespace CryptoTrader

open KeyedTable

/-- What the callback of a review does in one call. -/
inductive Callback where
  | absent
  | succeeds
  | raises (message : String)
  deriving DecidableEq, Repr

def Callback.Raises (c : Callback) : Prop := ∃ message, c = .raises message

instance decidableRaises : ∀ c : Callback, Decidable c.Raises
  | .absent => .isFalse (by rintro ⟨message, h⟩; cases h)
  | .succeeds => .isFalse (by rintro ⟨message, h⟩; cases h)
  | .raises message => .isTrue ⟨message, rfl⟩

/-- `review:{period_type}:{period_id}`. -/
abbrev ReviewKey := PeriodType × PeriodId

def reviewKey (t : PeriodType) (now : Instant) : ReviewKey :=
  (t, (periodFor t now).periodId)

/-- What a call ran, and what it returned or raised. -/
structure ReviewOutcome (σ ρ : Type) where
  state : σ
  ran : List ReviewPeriod
  result : Except String (List ρ)

/-- Let the rest of a loop run after this review. -/
def ReviewOutcome.after {σ ρ : Type} (period : ReviewPeriod) (entry : ρ) (o : ReviewOutcome σ ρ) :
    ReviewOutcome σ ρ :=
  { o with ran := period :: o.ran, result := o.result.map (entry :: ·) }

/-! ### The scheduler -/

inductive RunStatus where
  | pending | running | completed | failed
  deriving DecidableEq, Repr

structure ReviewRunRecord where
  periodType : PeriodType
  periodId : PeriodId
  scheduledAt : Instant
  startedAt : Option Instant := none
  completedAt : Option Instant := none
  status : RunStatus := .pending
  attempt : ℕ := 0
  error : String := ""
  reportId : Option ReviewKey := none
  deriving DecidableEq, Repr

def ReviewRunRecord.key (r : ReviewRunRecord) : ReviewKey := (r.periodType, r.periodId)

structure EvolutionReviewScheduler where
  runs : List ReviewRunRecord := []
  deriving DecidableEq, Repr

namespace EvolutionReviewScheduler

def status (s : EvolutionReviewScheduler) (k : ReviewKey) : Option RunStatus :=
  (row ReviewRunRecord.key k s.runs).map (·.status)

def shouldRun (s : EvolutionReviewScheduler) (t : PeriodType) (now : Instant) : Bool :=
  shouldTrigger t now &&
    match s.status (reviewKey t now) with
    | none => true
    | some status => status = .failed || status = .pending

def due (s : EvolutionReviewScheduler) (now : Instant) : List PeriodType :=
  PeriodType.order.filter (s.shouldRun · now)

/-- Rewrite the record of a key. -/
def modify (s : EvolutionReviewScheduler) (k : ReviewKey) (f : ReviewRunRecord → ReviewRunRecord) :
    EvolutionReviewScheduler :=
  { runs := s.runs.map (fun r => if r.key = k then f r else r) }

def schedule (s : EvolutionReviewScheduler) (t : PeriodType) (now : Instant) : EvolutionReviewScheduler :=
  let period := periodFor t now
  match row ReviewRunRecord.key (reviewKey t now) s.runs with
  | none => { runs := s.runs ++ [{ periodType := t, periodId := period.periodId, scheduledAt := now }] }
  | some _ => s.modify (reviewKey t now) (fun r => { r with attempt := r.attempt + 1, status := .pending })

def markStarted (s : EvolutionReviewScheduler) (k : ReviewKey) (now : Instant) : EvolutionReviewScheduler :=
  s.modify k (fun r => { r with startedAt := some now, status := .running })

def markCompleted (s : EvolutionReviewScheduler) (k : ReviewKey) (now : Instant) : EvolutionReviewScheduler :=
  s.modify k (fun r => { r with completedAt := some now, status := .completed, reportId := some k })

/-- The record while the callback of a due review runs. -/
def begin (s : EvolutionReviewScheduler) (t : PeriodType) (now : Instant) : EvolutionReviewScheduler :=
  (s.schedule t now).markStarted (reviewKey t now) now

/-- The loop of `run_serially` over the period types that are left. -/
def runTypes (now : Instant) (callbacks : PeriodType → Callback) :
    List PeriodType → EvolutionReviewScheduler → ReviewOutcome EvolutionReviewScheduler ReviewKey
  | [], s => ⟨s, [], .ok []⟩
  | t :: ts, s =>
    if s.shouldRun t now then
      match callbacks t with
      -- the exception leaves the loop before `mark_completed`
      | .raises message => ⟨s.begin t now, [periodFor t now], .error message⟩
      | _ => .after (periodFor t now) (reviewKey t now)
          (runTypes now callbacks ts ((s.begin t now).markCompleted (reviewKey t now) now))
    else runTypes now callbacks ts s

def runSerially (s : EvolutionReviewScheduler) (now : Instant) (callbacks : PeriodType → Callback) :
    ReviewOutcome EvolutionReviewScheduler ReviewKey :=
  runTypes now callbacks PeriodType.order s

section Loop

variable {now : Instant} {callbacks : PeriodType → Callback} {t : PeriodType} {ts : List PeriodType}
  {s : EvolutionReviewScheduler}

lemma runTypes_of_not_due (h : ¬s.shouldRun t now = true) :
    runTypes now callbacks (t :: ts) s = runTypes now callbacks ts s := by
  rw [runTypes, if_neg h]

lemma runTypes_of_raises (h : s.shouldRun t now = true) {message : String} (hc : callbacks t = .raises message) :
    runTypes now callbacks (t :: ts) s = ⟨s.begin t now, [periodFor t now], .error message⟩ := by
  rw [runTypes, if_pos h, hc]

lemma runTypes_of_due (h : s.shouldRun t now = true) (hc : ¬(callbacks t).Raises) :
    runTypes now callbacks (t :: ts) s = .after (periodFor t now) (reviewKey t now)
      (runTypes now callbacks ts ((s.begin t now).markCompleted (reviewKey t now) now)) := by
  rw [runTypes, if_pos h]
  cases hcb : callbacks t with
  | raises message => exact absurd ⟨message, hcb⟩ hc
  | absent | succeeds => rfl

end Loop

/-! ### The status of a key -/

lemma status_modify (s : EvolutionReviewScheduler) {k : ReviewKey} {f : ReviewRunRecord → ReviewRunRecord}
    (hf : ∀ r, (f r).key = r.key) (k' : ReviewKey) :
    (s.modify k f).status k' =
      if k' = k then (row ReviewRunRecord.key k s.runs).map (fun r => (f r).status) else s.status k' := by
  have hrow : row ReviewRunRecord.key k' (s.runs.map (fun r => if r.key = k then f r else r)) =
      (row ReviewRunRecord.key k' s.runs).map (fun r => if r.key = k then f r else r) :=
    row_map (fun r => by by_cases h : r.key = k <;> simp [h, hf]) k' s.runs
  unfold status modify
  rw [hrow]
  by_cases h : k' = k
  · subst h
    rw [if_pos rfl, Option.map_map]
    cases hr : row ReviewRunRecord.key k' s.runs with
    | none => rfl
    | some r => simp [(row_some hr).2]
  · rw [if_neg h, Option.map_map]
    cases hr : row ReviewRunRecord.key k' s.runs with
    | none => rfl
    | some r => simp [(row_some hr).2, h]

lemma status_schedule (s : EvolutionReviewScheduler) (t : PeriodType) (now : Instant) (k : ReviewKey) :
    (s.schedule t now).status k = if k = reviewKey t now then some .pending else s.status k := by
  unfold schedule
  cases hr : row ReviewRunRecord.key (reviewKey t now) s.runs with
  | none =>
    by_cases hk : k = reviewKey t now
    · subst hk
      rw [if_pos rfl, status, row_append_of_none hr]
      simp [row, ReviewRunRecord.key, reviewKey]
    · rw [if_neg hk]
      unfold status
      cases hrk : row ReviewRunRecord.key k s.runs with
      | none =>
        have hne : ¬(t, (periodFor t now).periodId) = k := fun h => hk h.symm
        rw [row_append_of_none hrk]
        simp [row, ReviewRunRecord.key, hne]
      | some r => rw [row_append_of_some hrk]
  | some r =>
    have h := status_modify s (k := reviewKey t now)
      (f := fun r => { r with attempt := r.attempt + 1, status := .pending }) (fun _ => rfl) k
    simp only [h, hr]
    rfl

lemma status_begin (s : EvolutionReviewScheduler) (t : PeriodType) (now : Instant) (k : ReviewKey) :
    (s.begin t now).status k = if k = reviewKey t now then some .running else s.status k := by
  unfold begin markStarted
  have hself := status_schedule s t now (reviewKey t now)
  rw [if_pos rfl, status, Option.map_eq_some_iff] at hself
  obtain ⟨r, hr, -⟩ := hself
  rw [status_modify, status_schedule]
  · by_cases hk : k = reviewKey t now <;> simp [hk, hr]
  · exact fun _ => rfl

lemma status_complete (s : EvolutionReviewScheduler) (t : PeriodType) (now : Instant) (k : ReviewKey) :
    ((s.begin t now).markCompleted (reviewKey t now) now).status k =
      if k = reviewKey t now then some .completed else s.status k := by
  unfold markCompleted
  have hself := status_begin s t now (reviewKey t now)
  rw [if_pos rfl, status, Option.map_eq_some_iff] at hself
  obtain ⟨r, hr, -⟩ := hself
  rw [status_modify, status_begin]
  · by_cases hk : k = reviewKey t now <;> simp [hk, hr]
  · exact fun _ => rfl

lemma shouldRun_iff (s : EvolutionReviewScheduler) (t : PeriodType) (now : Instant) :
    s.shouldRun t now = true ↔ shouldTrigger t now = true ∧
      s.status (reviewKey t now) ∉ [some RunStatus.running, some .completed] := by
  unfold shouldRun
  rcases hs : s.status (reviewKey t now) with _ | st
  · simp
  · cases st <;> simp

/-- Whether a review should run depends on the status of its own key alone. -/
lemma shouldRun_congr {s s' : EvolutionReviewScheduler} {t : PeriodType} {now : Instant}
    (h : s.status (reviewKey t now) = s'.status (reviewKey t now)) : s.shouldRun t now = s'.shouldRun t now := by
  unfold shouldRun
  rw [h]

end EvolutionReviewScheduler

/-! ### The coordinator -/

/-- A row of the job store; the coordinator only ever writes `COMPLETED`. -/
structure ReviewJob where
  periodType : PeriodType
  periodId : PeriodId
  status : RunStatus
  attempt : ℕ := 0
  deriving DecidableEq, Repr

def ReviewJob.key (job : ReviewJob) : ReviewKey := (job.periodType, job.periodId)

inductive CoordinatorStatus where
  | skippedCompleted | completed
  deriving DecidableEq, Repr

/-- A coordinator with its job store, if it has one. -/
structure RuntimeReviewCoordinator where
  jobStore : Option (List ReviewJob) := none
  deriving DecidableEq, Repr

namespace RuntimeReviewCoordinator

/-- The job store says that the review is completed. -/
def isCompleted (c : RuntimeReviewCoordinator) (k : ReviewKey) : Bool :=
  match c.jobStore with
  | none => false
  | some jobs =>
    match row ReviewJob.key k jobs with
    | none => false
    | some job => job.status = .completed

def putCompleted (c : RuntimeReviewCoordinator) (t : PeriodType) (now : Instant) : RuntimeReviewCoordinator :=
  { jobStore := c.jobStore.map (fun jobs =>
      let attempt := ((row ReviewJob.key (reviewKey t now) jobs).map (·.attempt + 1)).getD 0
      upsert ReviewJob.key ⟨t, (periodFor t now).periodId, .completed, attempt⟩ jobs) }

/-- The loop of `run_due` over the period types that are left. -/
def runTypes (now : Instant) (callbacks : PeriodType → Callback) :
    List PeriodType → RuntimeReviewCoordinator →
      ReviewOutcome RuntimeReviewCoordinator (PeriodType × CoordinatorStatus)
  | [], c => ⟨c, [], .ok []⟩
  | t :: ts, c =>
    if shouldTrigger t now then
      if c.isCompleted (reviewKey t now) then
        let o := runTypes now callbacks ts c
        { o with result := o.result.map ((t, .skippedCompleted) :: ·) }
      else
        match callbacks t with
        | .raises message => ⟨c, [periodFor t now], .error message⟩
        | _ => .after (periodFor t now) (t, .completed) (runTypes now callbacks ts (c.putCompleted t now))
    else runTypes now callbacks ts c

def runDue (c : RuntimeReviewCoordinator) (now : Instant) (callbacks : PeriodType → Callback) :
    ReviewOutcome RuntimeReviewCoordinator (PeriodType × CoordinatorStatus) :=
  runTypes now callbacks PeriodType.order c

lemma isCompleted_putCompleted (c : RuntimeReviewCoordinator) (t : PeriodType) (now : Instant) (k : ReviewKey)
    (hk : (c.putCompleted t now).isCompleted k = true) : k = reviewKey t now ∨ c.isCompleted k = true := by
  by_cases h : k = reviewKey t now
  · exact .inl h
  · refine .inr ?_
    unfold isCompleted putCompleted at hk
    unfold isCompleted
    cases hj : c.jobStore with
    | none => simp [hj] at hk
    | some jobs =>
      simp only [hj, Option.map_some] at hk
      rwa [row_upsert_of_ne jobs h] at hk

end RuntimeReviewCoordinator

end CryptoTrader
