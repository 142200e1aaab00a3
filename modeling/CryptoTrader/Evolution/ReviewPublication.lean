import CryptoTrader.Evolution.HierarchicalRuns
import CryptoTrader.Lib.Runs

/-!
# Published reports

`HierarchicalReviewService.run` for one period, on a database that may fail under it. The
report is committed before its job. So a call can find the report without a completed job;
it then makes a report of its own, returns it, and leaves the stored one as it is
(`published_iff`).
-/

namespace CryptoTrader

open KeyedTable Runs

/-- How an access to the database ends. A write that fails may have been committed. -/
inductive DbOutcome where
  | done
  | raises (error : String) (committed : Bool)
  | dies (committed : Bool)
  deriving DecidableEq, Repr

namespace DbOutcome

def commits : DbOutcome → Bool
  | done => true
  | raises _ committed => committed
  | dies committed => committed

/-- A write that ends so. -/
def write {σ : Type} (o : DbOutcome) (f : σ → σ) (s : σ) : σ := if o.commits then f s else s

end DbOutcome

/-- The daily reports and the tables of the service. -/
structure ReviewDatabase where
  store : HierarchicalStore := {}
  dailies : List DailyReport := []

namespace ReviewDatabase

/-- `list_reviews_by_period` of the evidence backend. -/
def listReviewsByPeriod (db : ReviewDatabase) (periodId : PeriodId) : List DailyReport :=
  db.dailies.filter (fun r => r.periodId = periodId)

/-- `store_review` of the evidence backend. -/
def storeDaily (db : ReviewDatabase) (report : DailyReport) : ReviewDatabase :=
  if report.reviewId ∈ db.dailies.map DailyReport.reviewId then db else { db with dailies := db.dailies ++ [report] }

/-- A report of a sub-period is stored; there is no table of days. -/
def storeChild (db : ReviewDatabase) (t : PeriodType) (report : StoredReport) : ReviewDatabase :=
  if t = .daily then db else { db with store := db.store.storeReview t report }

end ReviewDatabase

/-- The report with the time it was made. -/
def StoredReport.stamped (r : StoredReport) (createdAtUtc : String) : StoredReport :=
  { r with entries := r.entries ++ [("created_at_utc", .text createdAtUtc)] }

/-- A call of `run` for one period. -/
structure PeriodCall (t : PeriodType) (k : ℕ) where
  now : Instant
  createdAtUtc : String
  /-- The reads of the job and of its report. -/
  gate : DbOutcome := .done
  /-- The reads of the children, and the aggregation. -/
  collect : DbOutcome := .done
  review : DbOutcome := .done
  job : DbOutcome := .done
  reviews : t.division.index now.date - 1 = k

namespace PeriodCall

open HierarchicalReviewService

variable (sqrt : ℚ → ℚ) {t : PeriodType} {k : ℕ} (c : PeriodCall t k) (db : ReviewDatabase)

/-- What the call returns, if it does, and what it leaves. -/
def run : Option StoredReport × ReviewDatabase :=
  if t = .daily then (none, db)
  else
    let period := (periodFor t c.now).toCalendarPeriod
    let key : ReviewKey := (t, period.periodId)
    let reviewId := ReviewId.period t period.periodId
    let fail (error : String) (s : HierarchicalStore) : Option StoredReport × ReviewDatabase :=
      (none, { db with store := c.job.write (·.putJob key reviewId .failed error) s })
    if c.gate ≠ .done then (none, db)
    else
      match completed db.store key with
      | some existing => (some existing, db)
      | none =>
        match c.collect with
        | .dies _ => (none, db)
        | .raises error _ => fail error db.store
        | .done =>
          match aggregate sqrt db.listReviewsByPeriod db.store t period with
          | none => fail "'DAILY'" db.store
          | some report =>
            let payload := report.stamped c.createdAtUtc
            let s := c.review.write (·.storeReview t payload) db.store
            match c.review with
            | .dies _ => (none, { db with store := s })
            | .raises error _ => fail error s
            | .done =>
              let s := c.job.write (·.putJob key reviewId .completed "") s
              (if c.job = .done then some payload else none, { db with store := s })

/-- Nothing fails under the call. -/
def Uninterrupted : Prop :=
  c.gate = .done ∧ c.collect = .done ∧ c.review = .done ∧ c.job = .done

end PeriodCall

/-- What happens to the database while one period is reviewed. -/
inductive PeriodEvent (t : PeriodType) (k : ℕ) where
  | storeDaily (report : DailyReport)
  | storeChild (report : StoredReport)
  | call (c : PeriodCall t k)

namespace HierarchicalStore

variable (s : HierarchicalStore) (t : PeriodType) (periodId : PeriodId)

def jobStatus : Option RunStatus := (row HierarchicalReviewJob.key (t, periodId) s.jobs).map (·.status)

end HierarchicalStore

namespace PeriodEvent

variable (sqrt : ℚ → ℚ) {t : PeriodType} {k : ℕ}

def step (db : ReviewDatabase) : PeriodEvent t k → ReviewDatabase
  | storeDaily report => db.storeDaily report
  | storeChild report => db.storeChild t.child report
  | call c => (c.run sqrt db).2

/-- The payload that a call returns. -/
def returned (db : ReviewDatabase) : PeriodEvent t k → Option StoredReport
  | call c => (c.run sqrt db).1
  | _ => none

/-- An uninterrupted call that finds the report, and no completed job. -/
def Resumes (db : ReviewDatabase) : PeriodEvent t k → Prop
  | call c => c.Uninterrupted ∧ (db.store.stored t (t.label k)).isSome ∧ db.store.jobStatus t (t.label k) ≠ some .completed
  | _ => False

/-- The payloads that the calls of a run return. -/
def payloads (db : ReviewDatabase) : List (PeriodEvent t k) → List StoredReport
  | [] => []
  | e :: events => (e.returned sqrt db).toList ++ payloads (e.step sqrt db) events

/-- The clock readings of the calls. -/
def clocks (events : List (PeriodEvent t k)) : List String :=
  events.filterMap (fun
    | call c => some c.createdAtUtc
    | _ => none)

end PeriodEvent

open PeriodEvent in
/-- What a run on an empty database publishes for the period: each call that returns returns
the stored report, which stays, and the job is completed only with it. -/
structure PublishedOnce (sqrt : ℚ → ℚ) (t : PeriodType) (k : ℕ) (events : List (PeriodEvent t k)) : Prop where
  returned : Along (step sqrt) (fun db e => ∀ payload, e.returned sqrt db = some payload →
    (e.step sqrt db).store.stored t (t.label k) = some payload) {} events
  kept : ∀ payload ∈ payloads sqrt {} events, (Runs.run (step sqrt) {} events).store.stored t (t.label k) = some payload
  equal : ∀ payload ∈ payloads sqrt {} events, ∀ payload' ∈ payloads sqrt {} events, payload = payload'
  completed : Visits (step sqrt) (fun db => db.store.jobStatus t (t.label k) = some .completed →
    (db.store.stored t (t.label k)).isSome) {} events

/-! ### The tables -/

namespace HierarchicalStore

variable {s : HierarchicalStore} {t : PeriodType} {periodId : PeriodId}

/-- Only the first report with the period's id is stored for it. -/
lemma stored_storeReview (t' : PeriodType) (report : StoredReport) :
    (s.storeReview t' report).stored t periodId =
      if t' = t ∧ report.reviewId = .period t periodId then (s.stored t periodId).or (some report) else s.stored t periodId := by
  by_cases hhas : (s.getReview t' report.reviewId).isSome
  · rw [storeReview, if_pos hhas]
    split
    · rename_i h
      obtain ⟨existing, hexisting⟩ := Option.isSome_iff_exists.mp hhas
      rw [h.1, h.2] at hexisting
      rw [stored, hexisting]
      rfl
    · rfl
  · rw [storeReview, if_neg hhas]
    simp only [stored, getReview]
    cases hrow : row ReviewRow.key (t, .period t periodId) s.reviews with
    | some r =>
      rw [row_append_of_some hrow]
      split <;> rfl
    | none =>
      rw [row_append_of_none hrow]
      by_cases h : t' = t ∧ report.reviewId = .period t periodId
      · simp [row, ReviewRow.key, h]
      · simp [row, ReviewRow.key, h]

lemma stored_putJob (key : ReviewKey) (reviewId : ReviewId) (status : RunStatus) (error : String) :
    (s.putJob key reviewId status error).stored t periodId = s.stored t periodId := by
  unfold putJob
  split <;> rfl

variable (s t periodId) in
lemma row_putJob (reviewId : ReviewId) (status : RunStatus) (error : String) :
    ∃ attempt, row HierarchicalReviewJob.key (t, periodId) (s.putJob (t, periodId) reviewId status error).jobs =
      some ⟨t, periodId, ((row HierarchicalReviewJob.key (t, periodId) s.jobs).map (·.reviewId)).getD reviewId, status,
        attempt, error⟩ := by
  unfold putJob
  cases hrow : row HierarchicalReviewJob.key (t, periodId) s.jobs with
  | none =>
    refine ⟨0, ?_⟩
    dsimp only
    rw [row_append_of_none hrow]
    simp [row, HierarchicalReviewJob.key]
  | some job =>
    obtain ⟨hmem, hkey⟩ := row_some hrow
    obtain ⟨rfl, rfl⟩ := Prod.mk.inj hkey
    let put : HierarchicalReviewJob := { job with status := status, error := error, attempt := job.attempt + 1 }
    have hput : put.key ∈ s.jobs.map HierarchicalReviewJob.key := List.mem_map.mpr ⟨job, hmem, rfl⟩
    exact ⟨job.attempt + 1, row_put_self hput⟩

/-- The job is about the period's report, and completed only with it. -/
structure Sound (s : HierarchicalStore) (t : PeriodType) (periodId : PeriodId) : Prop where
  reviewId : ∀ job, row HierarchicalReviewJob.key (t, periodId) s.jobs = some job → job.reviewId = .period t periodId
  completed : s.jobStatus t periodId = some .completed → (s.stored t periodId).isSome

lemma Sound.completed_eq (hs : s.Sound t periodId) :
    HierarchicalReviewService.completed s (t, periodId) =
      if s.jobStatus t periodId = some .completed then s.stored t periodId else none := by
  unfold HierarchicalReviewService.completed jobStatus
  cases hrow : row HierarchicalReviewJob.key (t, periodId) s.jobs with
  | none => rfl
  | some job =>
    simp only [Option.map_some, Option.some.injEq, hs.reviewId job hrow]
    rfl

lemma Sound.completed_eq_none_iff (hs : s.Sound t periodId) :
    HierarchicalReviewService.completed s (t, periodId) = none ↔ s.jobStatus t periodId ≠ some .completed := by
  rw [hs.completed_eq]
  split
  · rename_i h
    rw [← Option.not_isSome_iff_eq_none]
    exact iff_of_false (fun hn => hn (hs.completed h)) (fun hn => hn h)
  · rename_i h
    exact iff_of_true rfl h

lemma Sound.putJob (hs : s.Sound t periodId) {status : RunStatus}
    (hstatus : status = .completed → (s.stored t periodId).isSome) (error : String) :
    (s.putJob (t, periodId) (.period t periodId) status error).Sound t periodId := by
  obtain ⟨attempt, hrow⟩ := s.row_putJob t periodId (.period t periodId) status error
  have hid : ((row HierarchicalReviewJob.key (t, periodId) s.jobs).map (·.reviewId)).getD (.period t periodId) =
      .period t periodId := by
    cases hold : row HierarchicalReviewJob.key (t, periodId) s.jobs with
    | none => rfl
    | some job => exact hs.reviewId job hold
  rw [hid] at hrow
  constructor
  · intro job hjob
    rw [hrow] at hjob
    rw [← Option.some.inj hjob]
  · intro hcompleted
    rw [jobStatus, hrow] at hcompleted
    rw [stored_putJob]
    exact hstatus (Option.some.inj hcompleted)

lemma Sound.storeReview (hs : s.Sound t periodId) (t' : PeriodType) (report : StoredReport) :
    (s.storeReview t' report).Sound t periodId := by
  have hjobs : (s.storeReview t' report).jobs = s.jobs := by
    unfold HierarchicalStore.storeReview
    split <;> rfl
  constructor
  · rw [hjobs]
    exact hs.reviewId
  · intro hcompleted
    rw [jobStatus, hjobs] at hcompleted
    rw [stored_storeReview]
    have hstored := hs.completed hcompleted
    split
    · rw [Option.isSome_or, hstored]
      rfl
    · exact hstored

end HierarchicalStore

/-! ### What a call does -/

namespace PeriodCall

open HierarchicalReviewService HierarchicalStore

variable (sqrt : ℚ → ℚ) {t : PeriodType} {k : ℕ}

/-- The ends of a call, by what it returns and what it leaves in the tables. -/
inductive Ends (c : PeriodCall t k) (s : HierarchicalStore) : Option StoredReport → HierarchicalStore → Prop
  | untouched : Ends c s none s
  | existing {report : StoredReport} (h : completed s (t, t.label k) = some report) : Ends c s (some report) s
  | failed (h : completed s (t, t.label k) = none) (error : String) :
      Ends c s none (s.putJob (t, t.label k) (.period t (t.label k)) .failed error)
  | stored (h : completed s (t, t.label k) = none) {report : StoredReport}
      (hid : report.reviewId = .period t (t.label k)) : Ends c s none (s.storeReview t (report.stamped c.createdAtUtc))
  | storedFailed (h : completed s (t, t.label k) = none) {report : StoredReport}
      (hid : report.reviewId = .period t (t.label k)) (error : String) :
      Ends c s none ((s.storeReview t (report.stamped c.createdAtUtc)).putJob (t, t.label k) (.period t (t.label k))
        .failed error)
  | storedCompleted (h : completed s (t, t.label k) = none) {report : StoredReport}
      (hid : report.reviewId = .period t (t.label k)) :
      Ends c s none ((s.storeReview t (report.stamped c.createdAtUtc)).putJob (t, t.label k) (.period t (t.label k))
        .completed "")
  | returned (h : completed s (t, t.label k) = none) {report : StoredReport}
      (hid : report.reviewId = .period t (t.label k)) (hdone : c.Uninterrupted) :
      Ends c s (some (report.stamped c.createdAtUtc)) ((s.storeReview t (report.stamped c.createdAtUtc)).putJob
        (t, t.label k) (.period t (t.label k)) .completed "")

lemma aggregate_reviewId {evidence : PeriodId → List DailyReport} {s : HierarchicalStore} {p : CalendarPeriod}
    {report : StoredReport} (h : aggregate sqrt evidence s t p = some report) : report.reviewId = .period t p.periodId := by
  cases t with
  | daily => cases h
  | weekly => rw [← Option.some.inj h]; rfl
  | monthly => rw [← Option.some.inj h]; rfl
  | yearly => rw [← Option.some.inj h]; rfl

lemma run_ends (c : PeriodCall t k) (db : ReviewDatabase) : c.Ends db.store (c.run sqrt db).1 (c.run sqrt db).2.store := by
  unfold run
  by_cases ht : t = .daily
  · rw [if_pos ht]
    exact .untouched
  rw [if_neg ht]
  dsimp only
  have hperiod : (periodFor t c.now).toCalendarPeriod = t.period k := by rw [periodFor_eq, c.reviews]
  have hlabel : (t.period k).periodId = t.label k := rfl
  rw [hperiod, hlabel]
  by_cases hgate : c.gate = .done
  swap
  · rw [if_pos hgate]
    exact .untouched
  rw [if_neg (not_not_intro hgate)]
  cases hcompleted : completed db.store (t, t.label k) with
  | some existing => exact .existing hcompleted
  | none =>
    have hfail {s : HierarchicalStore} (error : String) (hkept : c.Ends db.store none s)
        (hput : c.Ends db.store none (s.putJob (t, t.label k) (.period t (t.label k)) .failed error)) :
        c.Ends db.store none (c.job.write (·.putJob (t, t.label k) (.period t (t.label k)) .failed error) s) := by
      unfold DbOutcome.write
      split
      · exact hput
      · exact hkept
    cases hcollect : c.collect with
    | dies => exact .untouched
    | raises error => exact hfail _ .untouched (.failed hcompleted error)
    | done =>
      cases hreport : aggregate sqrt db.listReviewsByPeriod db.store t (t.period k) with
      | none => exact hfail _ .untouched (.failed hcompleted _)
      | some report =>
        have hid := aggregate_reviewId sqrt hreport
        dsimp only
        cases hreview : c.review with
        | dies committed =>
          cases committed with
          | false => exact .untouched
          | true => exact .stored hcompleted hid
        | raises error committed =>
          cases committed with
          | false => exact hfail _ .untouched (.failed hcompleted error)
          | true => exact hfail _ (.stored hcompleted hid) (.storedFailed hcompleted hid error)
        | done =>
          cases hjob : c.job with
          | done => exact .returned hcompleted hid ⟨hgate, hcollect, hreview, hjob⟩
          | raises error committed =>
            cases committed with
            | false => exact .stored hcompleted hid
            | true => exact .storedCompleted hcompleted hid
          | dies committed =>
            cases committed with
            | false => exact .stored hcompleted hid
            | true => exact .storedCompleted hcompleted hid

lemma Ends.sound {c : PeriodCall t k} {s s' : HierarchicalStore} {r : Option StoredReport} (h : c.Ends s r s')
    (hs : s.Sound t (t.label k)) : s'.Sound t (t.label k) := by
  have hpublished {report : StoredReport} (hid : report.reviewId = .period t (t.label k)) :
      ((s.storeReview t (report.stamped c.createdAtUtc)).stored t (t.label k)).isSome := by
    rw [stored_storeReview, if_pos ⟨rfl, hid⟩, Option.isSome_or]
    exact Bool.or_true _
  cases h with
  | untouched => exact hs
  | existing => exact hs
  | failed _ error => exact hs.putJob (fun h => absurd h (by decide)) error
  | stored => exact hs.storeReview _ _
  | storedFailed _ _ error => exact (hs.storeReview _ _).putJob (fun h => absurd h (by decide)) error
  | storedCompleted _ hid => exact (hs.storeReview _ _).putJob (fun _ => hpublished hid) _
  | returned _ hid => exact (hs.storeReview _ _).putJob (fun _ => hpublished hid) _

lemma Ends.kept {c : PeriodCall t k} {s s' : HierarchicalStore} {r : Option StoredReport} (h : c.Ends s r s')
    {report : StoredReport} (hreport : s.stored t (t.label k) = some report) : s'.stored t (t.label k) = some report := by
  cases h with
  | untouched => exact hreport
  | existing => exact hreport
  | failed => rw [stored_putJob, hreport]
  | stored _ hid => rw [stored_storeReview, if_pos ⟨rfl, hid⟩, hreport, Option.some_or]
  | storedFailed _ hid => rw [stored_putJob, stored_storeReview, if_pos ⟨rfl, hid⟩, hreport, Option.some_or]
  | storedCompleted _ hid => rw [stored_putJob, stored_storeReview, if_pos ⟨rfl, hid⟩, hreport, Option.some_or]
  | returned _ hid => rw [stored_putJob, stored_storeReview, if_pos ⟨rfl, hid⟩, hreport, Option.some_or]

/-- A report is made by the call that stores it. -/
lemma Ends.first {c : PeriodCall t k} {s s' : HierarchicalStore} {r : Option StoredReport} (h : c.Ends s r s')
    (hnone : s.stored t (t.label k) = none) {report : StoredReport} (hreport : s'.stored t (t.label k) = some report) :
    ∃ made : StoredReport, report = made.stamped c.createdAtUtc := by
  have hmade {made : StoredReport} (hid : made.reviewId = .period t (t.label k)) :
      (s.storeReview t (made.stamped c.createdAtUtc)).stored t (t.label k) = some (made.stamped c.createdAtUtc) := by
    rw [stored_storeReview, if_pos ⟨rfl, hid⟩, hnone, Option.none_or]
  cases h with
  | untouched => rw [hnone] at hreport; cases hreport
  | existing => rw [hnone] at hreport; cases hreport
  | failed => rw [stored_putJob, hnone] at hreport; cases hreport
  | stored _ hid =>
    rw [hmade hid] at hreport
    exact ⟨_, (Option.some.inj hreport).symm⟩
  | storedFailed _ hid =>
    rw [stored_putJob, hmade hid] at hreport
    exact ⟨_, (Option.some.inj hreport).symm⟩
  | storedCompleted _ hid =>
    rw [stored_putJob, hmade hid] at hreport
    exact ⟨_, (Option.some.inj hreport).symm⟩
  | returned _ hid =>
    rw [stored_putJob, hmade hid] at hreport
    exact ⟨_, (Option.some.inj hreport).symm⟩

/-- A call without a completed job that nothing interrupts returns a report of its own. -/
lemma run_uninterrupted (ht : t ≠ .daily) {c : PeriodCall t k} {db : ReviewDatabase} (hc : c.Uninterrupted)
    (hnone : completed db.store (t, t.label k) = none) :
    ∃ report : StoredReport, (c.run sqrt db).1 = some (report.stamped c.createdAtUtc) := by
  obtain ⟨hgate, hcollect, hreview, hjob⟩ := hc
  obtain ⟨report, hreport⟩ : ∃ report, aggregate sqrt db.listReviewsByPeriod db.store t (t.period k) = some report := by
    cases t with
    | daily => exact absurd rfl ht
    | weekly => exact ⟨_, rfl⟩
    | monthly => exact ⟨_, rfl⟩
    | yearly => exact ⟨_, rfl⟩
  have hperiod : (periodFor t c.now).toCalendarPeriod = t.period k := by rw [periodFor_eq, c.reviews]
  have hlabel : (t.period k).periodId = t.label k := rfl
  refine ⟨report, ?_⟩
  unfold run
  simp only [ht, if_false, hperiod, hlabel, hgate, ne_eq, not_true_eq_false, hnone, hcollect, hreport, hreview, hjob, if_true]

end PeriodCall

lemma StoredReport.stamped_inj {r r' : StoredReport} {createdAtUtc createdAtUtc' : String}
    (h : r.stamped createdAtUtc = r'.stamped createdAtUtc') : createdAtUtc = createdAtUtc' := by
  have hlast := congrArg (fun r => r.entries.getLast?) h
  simpa [StoredReport.stamped] using hlast

/-! ### Runs -/

namespace PeriodEvent

open HierarchicalStore HierarchicalReviewService

variable (sqrt : ℚ → ℚ) {t : PeriodType} {k : ℕ} {db : ReviewDatabase}

variable (t db) in
/-- Daily reports and reports of sub-periods are in other tables. -/
lemma child_cases (report : StoredReport) :
    (db.storeChild t.child report).store = db.store ∨
      t.child ≠ t ∧ (db.storeChild t.child report).store = db.store.storeReview t.child report := by
  unfold ReviewDatabase.storeChild
  by_cases h : t.child = .daily
  · rw [if_pos h]
    exact .inl rfl
  · rw [if_neg h]
    refine .inr ⟨?_, rfl⟩
    cases t <;> simp_all [PeriodType.child]

lemma stored_child (report : StoredReport) :
    (db.storeChild t.child report).store.stored t (t.label k) = db.store.stored t (t.label k) := by
  obtain h | ⟨hne, h⟩ := child_cases t db report
  · rw [h]
  · rw [h, stored_storeReview, if_neg (fun heq => hne heq.1)]

lemma sound_step (e : PeriodEvent t k) (hs : db.store.Sound t (t.label k)) :
    (e.step sqrt db).store.Sound t (t.label k) := by
  cases e with
  | storeDaily report =>
    unfold step ReviewDatabase.storeDaily
    dsimp only
    split <;> exact hs
  | storeChild report =>
    unfold step
    obtain h | ⟨-, h⟩ := child_cases t db report
    · rwa [h]
    · rw [h]
      exact hs.storeReview _ _
  | call c => exact (c.run_ends sqrt db).sound hs

lemma stored_storeDaily (report : DailyReport) :
    (db.storeDaily report).store.stored t (t.label k) = db.store.stored t (t.label k) := by
  unfold ReviewDatabase.storeDaily
  split <;> rfl

lemma kept_step (e : PeriodEvent t k) {report : StoredReport} (h : db.store.stored t (t.label k) = some report) :
    (e.step sqrt db).store.stored t (t.label k) = some report := by
  cases e with
  | storeDaily report => rwa [step, stored_storeDaily]
  | storeChild report => rwa [step, stored_child]
  | call c => exact (c.run_ends sqrt db).kept h

lemma stored_of_returned (hs : db.store.Sound t (t.label k)) {e : PeriodEvent t k} (he : ¬e.Resumes db)
    {payload : StoredReport} (h : e.returned sqrt db = some payload) :
    (e.step sqrt db).store.stored t (t.label k) = some payload := by
  cases e with
  | storeDaily => cases h
  | storeChild => cases h
  | call c =>
    have hends := c.run_ends sqrt db
    unfold returned at h
    unfold step
    dsimp only at h ⊢
    rw [h] at hends
    generalize (c.run sqrt db).2.store = s at hends
    cases hends with
    | existing hcompleted =>
      rw [hs.completed_eq] at hcompleted
      split at hcompleted
      · exact hcompleted
      · cases hcompleted
    | returned hnone hid hdone =>
      have hstored : db.store.stored t (t.label k) = none := by
        by_contra hsome
        exact he ⟨hdone, Option.isSome_iff_ne_none.mpr hsome, hs.completed_eq_none_iff.mp hnone⟩
      rw [stored_putJob, stored_storeReview, if_pos ⟨rfl, hid⟩, hstored, Option.none_or]

lemma kept_run {report : StoredReport} (events : List (PeriodEvent t k)) (h : db.store.stored t (t.label k) = some report) :
    (Runs.run (step sqrt) db events).store.stored t (t.label k) = some report := by
  induction events generalizing db with
  | nil => exact h
  | cons e events ih => exact ih (kept_step sqrt e h)

lemma kept_payloads {events : List (PeriodEvent t k)}
    (h : Along (step sqrt) (fun db e => ∀ payload, e.returned sqrt db = some payload →
      (e.step sqrt db).store.stored t (t.label k) = some payload) db events) :
    ∀ payload ∈ payloads sqrt db events, (Runs.run (step sqrt) db events).store.stored t (t.label k) = some payload := by
  induction events generalizing db with
  | nil => exact fun _ hmem => absurd hmem List.not_mem_nil
  | cons e events ih =>
    intro payload hmem
    rw [payloads, List.mem_append] at hmem
    rcases hmem with hmem | hmem
    · exact kept_run sqrt events (h.1 payload (Option.mem_toList.mp hmem))
    · exact ih h.2 payload hmem

lemma sound_empty : HierarchicalStore.Sound {} t (t.label k) where
  reviewId := fun _ h => by cases h
  completed := fun h => by cases h

lemma publishedOnce_of_not_resumes {events : List (PeriodEvent t k)}
    (h : Along (step sqrt) (fun db e => ¬e.Resumes db) {} events) : PublishedOnce sqrt t k events := by
  have hreturned : Along (step sqrt) (fun db e => ∀ payload, e.returned sqrt db = some payload →
      (e.step sqrt db).store.stored t (t.label k) = some payload) {} events :=
    along_of_invariant (I := fun db => db.store.Sound t (t.label k)) (fun db e hs _ => sound_step sqrt e hs)
      (fun db e hs he payload => stored_of_returned sqrt hs he) sound_empty h
  have hkept := kept_payloads sqrt hreturned
  refine ⟨hreturned, hkept, fun payload hmem payload' hmem' => ?_, ?_⟩
  · exact Option.some.inj ((hkept payload hmem).symm.trans (hkept payload' hmem'))
  · have hsound := visits_of_along (I := fun db => db.store.Sound t (t.label k)) (fun db e hs _ => sound_step sqrt e hs)
      sound_empty h
    exact hsound.mono (fun db hs => hs.completed)

/-- The report was made by a call whose clock no later call reads. -/
def MadeBefore (db : ReviewDatabase) (events : List (PeriodEvent t k)) : Prop :=
  ∀ report, db.store.stored t (t.label k) = some report → t ≠ .daily ∧
    ∃ (made : StoredReport) (createdAtUtc : String), report = made.stamped createdAtUtc ∧ createdAtUtc ∉ clocks events

lemma madeBefore_step {e : PeriodEvent t k} {events : List (PeriodEvent t k)} (hmade : MadeBefore db (e :: events))
    (hclocks : (clocks (e :: events)).Nodup) : MadeBefore (e.step sqrt db) events := by
  intro report hreport
  cases hstored : db.store.stored t (t.label k) with
  | some report' =>
    rw [kept_step sqrt e hstored] at hreport
    obtain rfl := Option.some.inj hreport
    obtain ⟨ht, made, createdAtUtc, heq, hnot⟩ := hmade _ hstored
    refine ⟨ht, made, createdAtUtc, heq, fun hmem => hnot ?_⟩
    cases e with
    | call c => exact List.mem_cons_of_mem _ hmem
    | storeDaily => exact hmem
    | storeChild => exact hmem
  | none =>
    cases e with
    | storeDaily =>
      rw [step, stored_storeDaily, hstored] at hreport
      cases hreport
    | storeChild =>
      rw [step, stored_child, hstored] at hreport
      cases hreport
    | call c =>
      obtain ⟨made, heq⟩ := (c.run_ends sqrt db).first hstored hreport
      refine ⟨?_, made, c.createdAtUtc, heq, (List.nodup_cons.mp hclocks).1⟩
      rintro rfl
      have hrun : (c.run sqrt db).2 = db := by rw [PeriodCall.run, if_pos rfl]
      rw [step, hrun, hstored] at hreport
      cases hreport

lemma not_resumes_of_returned {events : List (PeriodEvent t k)} (hs : db.store.Sound t (t.label k))
    (hmade : MadeBefore db events) (hclocks : (clocks events).Nodup)
    (h : Along (step sqrt) (fun db e => ∀ payload, e.returned sqrt db = some payload →
      (e.step sqrt db).store.stored t (t.label k) = some payload) db events) :
    Along (step sqrt) (fun db e => ¬e.Resumes db) db events := by
  induction events generalizing db with
  | nil => trivial
  | cons e events ih =>
    have hrest : (clocks events).Nodup := by
      cases e with
      | call c => exact (List.nodup_cons.mp hclocks).2
      | storeDaily => exact hclocks
      | storeChild => exact hclocks
    refine ⟨fun hresumes => ?_, ih (sound_step sqrt e hs) (madeBefore_step sqrt hmade hclocks) hrest h.2⟩
    cases e with
    | storeDaily => exact hresumes
    | storeChild => exact hresumes
    | call c =>
      obtain ⟨hdone, hstored, hstatus⟩ := hresumes
      obtain ⟨report, hreport⟩ := Option.isSome_iff_exists.mp hstored
      obtain ⟨ht, made, createdAtUtc, heq, hnot⟩ := hmade report hreport
      obtain ⟨own, hown⟩ := c.run_uninterrupted sqrt ht hdone (hs.completed_eq_none_iff.mpr hstatus)
      have hsame := (kept_step sqrt (call c) hreport).symm.trans (h.1 _ hown)
      have hclock := StoredReport.stamped_inj (heq.symm.trans (Option.some.inj hsame))
      exact hnot (hclock ▸ List.mem_cons_self)

end PeriodEvent

open PeriodEvent in
/-- A period is published once if no call resumes. Where no two calls read the same clock,
it is not if one does. -/
theorem published_iff (sqrt : ℚ → ℚ) :
    (∀ t k events, Along (step sqrt) (fun db e => ¬Resumes db e) {} events → PublishedOnce sqrt t k events) ∧
    (∀ t k events, (clocks events).Nodup → PublishedOnce sqrt t k events →
      Along (step sqrt) (fun db e => ¬Resumes db e) {} events) :=
  ⟨fun _ _ _ h => publishedOnce_of_not_resumes sqrt h,
    fun _ _ _ hclocks h => not_resumes_of_returned sqrt sound_empty (fun _ hreport => by cases hreport) hclocks h.returned⟩

/-! ### A week that is published twice -/

/-- Monday, 2024-01-08, five minutes past midnight. -/
def weekInstant : Instant where
  us := 738892 * dayUs + 300000000
  year_one_over := by decide

/-- The week before. -/
def weekBefore : ℕ := PeriodType.weekly.division.index weekInstant.date - 1

/-- The report is stored and the process dies; a daily report comes late; the week is reviewed again. -/
def lateDaily : List (PeriodEvent .weekly weekBefore) :=
  [.call { now := weekInstant, createdAtUtc := "2024-01-08T00:05:00+00:00", job := .dies false, reviews := rfl },
    .storeDaily { reviewId := .daily "daily-2024-01-03", periodId := .day 738887, netPnl := .decimal 5 },
    .call { now := weekInstant, createdAtUtc := "2024-01-08T00:10:00+00:00", reviews := rfl }]

open PeriodEvent in
theorem published_twice : ¬∀ sqrt t k events, PublishedOnce sqrt t k events := by
  intro h
  have hclocks : (clocks lateDaily).Nodup := by decide
  have hcalls := not_resumes_of_returned id sound_empty (fun _ hreport => by cases hreport) hclocks
    (h id .weekly weekBefore lateDaily).returned
  refine hcalls.2.2.1 ⟨⟨rfl, rfl, rfl, rfl⟩, ?_, ?_⟩
  · decide +kernel
  · decide +kernel

end CryptoTrader
