import CryptoTrader.Evolution.HierarchicalEngine
import CryptoTrader.Evolution.ReviewScheduler

/-!
# The hierarchical review service

`HierarchicalReviewService.run` reviews the completed period before an instant: it returns
the stored report of a completed job, or aggregates the stored reports of the sub-periods
and stores the result. The three tables of reports are one, with the period type in the key.
-/

namespace CryptoTrader

open KeyedTable

/-- A row of the job store; its key is the type and the label of the period. -/
structure HierarchicalReviewJob where
  periodType : PeriodType
  periodId : PeriodId
  reviewId : ReviewId
  status : RunStatus
  attempt : ℕ := 0
  error : String := ""
  deriving DecidableEq, Repr

def HierarchicalReviewJob.key (j : HierarchicalReviewJob) : ReviewKey := (j.periodType, j.periodId)

/-- A stored report with its table. -/
structure ReviewRow where
  reviewType : PeriodType
  report : StoredReport

def ReviewRow.key (r : ReviewRow) : PeriodType × ReviewId := (r.reviewType, r.report.reviewId)

structure HierarchicalStore where
  reviews : List ReviewRow := []
  jobs : List HierarchicalReviewJob := []

namespace HierarchicalStore

def getReview (s : HierarchicalStore) (reviewType : PeriodType) (reviewId : ReviewId) : Option StoredReport :=
  (row ReviewRow.key (reviewType, reviewId) s.reviews).map (·.report)

def listPeriod (s : HierarchicalStore) (reviewType : PeriodType) (periodId : PeriodId) : List StoredReport :=
  (s.reviews.filter (fun r => r.reviewType = reviewType ∧ r.report.periodId = periodId)).map (·.report)

/-- The first report with its id stays. -/
def storeReview (s : HierarchicalStore) (reviewType : PeriodType) (report : StoredReport) : HierarchicalStore :=
  if (s.getReview reviewType report.reviewId).isSome then s
  else { s with reviews := s.reviews ++ [⟨reviewType, report⟩] }

def putJob (s : HierarchicalStore) (key : ReviewKey) (reviewId : ReviewId) (status : RunStatus) (error : String) :
    HierarchicalStore :=
  match row HierarchicalReviewJob.key key s.jobs with
  | none => { s with jobs := s.jobs ++ [⟨key.1, key.2, reviewId, status, 0, error⟩] }
  | some job =>
    { s with jobs := put HierarchicalReviewJob.key { job with status := status, error := error, attempt := job.attempt + 1 } s.jobs }

end HierarchicalStore

/-- One report per sub-period, the first by `(period_id, review_id)`. -/
def collapsePerPeriod {α : Type} (key : α → PeriodId × ReviewId) (children : List α) : List α :=
  firsts (fun r => (key r).1) (children.insertionSort (fun a b => childNotAfter (key a) (key b)))

/-- A call of `run`. -/
structure ReviewCall where
  periodType : PeriodType
  now : Instant
  deriving DecidableEq, Repr

namespace HierarchicalReviewService

variable (sqrt : ℚ → ℚ) (evidence : PeriodId → List DailyReport)

/-- The children of a period, collected and aggregated; a daily period has no configuration. -/
def aggregate (s : HierarchicalStore) (t : PeriodType) (p : CalendarPeriod) : Option StoredReport :=
  let reviewId := ReviewId.period t p.periodId
  let expected := expectedPeriodIds p.startsAt p.endsAt
  match t with
  | .daily => none
  | .weekly => some (weeklyReview reviewId p.periodId p.startsAt p.endsAt
      (collapsePerPeriod DailyReport.key ((expected .daily).flatMap evidence))).toDict
  | .monthly => some (monthlyReview sqrt reviewId p.periodId p.startsAt p.endsAt
      (collapsePerPeriod StoredReport.key ((expected .weekly).flatMap (s.listPeriod .weekly)))).toDict
  | .yearly => some (yearlyReview sqrt reviewId p.periodId p.startsAt p.endsAt
      (collapsePerPeriod StoredReport.key ((expected .monthly).flatMap (s.listPeriod .monthly)))).toDict

/-- The report of a completed job. -/
def completed (s : HierarchicalStore) (key : ReviewKey) : Option StoredReport :=
  match row HierarchicalReviewJob.key key s.jobs with
  | some job => if job.status = .completed then s.getReview key.1 job.reviewId else none
  | none => none

def run (c : ReviewCall) (s : HierarchicalStore) : Except String StoredReport × HierarchicalStore :=
  let t := c.periodType
  if t = .daily then (.error "unsupported review period_type: 'DAILY'", s)
  else
    let period := (periodFor t c.now).toCalendarPeriod
    let key : ReviewKey := (t, period.periodId)
    let reviewId := ReviewId.period t period.periodId
    match completed s key with
    | some existing => (.ok existing, s)
    | none =>
      match aggregate sqrt evidence s t period with
      | none => (.error "'DAILY'", s.putJob key reviewId .failed "'DAILY'")
      | some payload => (.ok payload, (s.storeReview t payload).putJob key reviewId .completed "")

/-- The store after a list of calls. -/
def after (calls : List ReviewCall) : HierarchicalStore :=
  calls.foldl (fun s c => (run sqrt evidence c s).2) {}

end HierarchicalReviewService

end CryptoTrader
