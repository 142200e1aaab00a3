import CryptoTrader.Evolution.ReviewPeriod
import CryptoTrader.Lib.Json
import Mathlib.Algebra.Order.Field.Rat

/-!
# The reports of the hierarchical reviews

`hierarchical/contracts.py` and what the engine reads of a daily report. A stored report is
a dictionary; its two ids and its window are typed, the rest is looked up by key.
-/

namespace CryptoTrader

/-- The id of a daily report, or `review-{period_type}-{period_id}`. -/
inductive ReviewId where
  | daily (text : String)
  | period (periodType : PeriodType) (periodId : PeriodId)
  deriving DecidableEq, Repr

/-! ### Daily reports -/

structure DailyLesson where
  canonicalStatement : String
  evidenceCount : ℤ := 0
  supportingDecisions : Json := .list []
  contradictions : Json := .list []
  status : String := "CANDIDATE"
  /-- The keys the engine carries along. -/
  others : Dict String Json := []

def DailyLesson.json (l : DailyLesson) : Json :=
  .dict ([("canonical_statement", .text l.canonicalStatement), ("evidence_count", .int l.evidenceCount),
    ("supporting_decisions", l.supportingDecisions), ("contradictions", l.contradictions),
    ("status", .text l.status)] ++ l.others)

structure DailyPattern where
  patternType : String
  evidenceCount : ℤ := 0
  avoidable : Bool := false
  others : Dict String Json := []

def DailyPattern.json (p : DailyPattern) : Json :=
  .dict ([("pattern_type", .text p.patternType), ("evidence_count", .int p.evidenceCount)] ++ p.others)

/-- A factor attribution. -/
structure DailyAttribution where
  outcomeQuality : String := ""
  confidence : Json := .null
  healthIssues : List String := []
  conflicts : List String := []

structure DailyReport where
  reviewId : ReviewId
  periodId : PeriodId
  netPnl : Json := .null
  tradeCount : ℤ := 0
  decisionCount : ℤ := 0
  candidateLessons : List DailyLesson := []
  patterns : List DailyPattern := []
  factorAttributions : List DailyAttribution := []
  /-- The categories of the error clusters. -/
  errorClusters : List String := []
  regimeSummary : Dict String String := []
  strategyQuality : Dict String Json := []
  factorQuality : Dict String Json := []

/-! ### Stored reports -/

/-- A stored report: what `to_dict` returns. -/
structure StoredReport where
  reviewId : ReviewId
  periodId : PeriodId
  startsAt : ℕ
  endsAt : ℕ
  entries : Dict String Json

/-- `review.get(key)`. -/
def StoredReport.get (r : StoredReport) (key : String) : Json := Json.look key r.entries

/-- A warning with its text's data. -/
inductive ReviewWarning where
  /-- `NO_DAILY_REPORTS` and its like. -/
  | none (children : PeriodType)
  /-- `MISSING_DAILY_REPORTS:` and the labels. -/
  | missing (children : PeriodType) (labels : List PeriodId)
  deriving DecidableEq, Repr

structure Recurrence where
  days : ℕ := 0
  total : ℤ := 0
  deriving DecidableEq, Repr

def Recurrence.json (r : Recurrence) : Json :=
  .dict [("days", .int r.days), ("total", .int r.total)]

structure Consistency where
  mean : ℚ
  spread : ℚ
  observations : ℕ
  deriving DecidableEq, Repr

def Consistency.json (c : Consistency) : Json :=
  .dict [("mean", .decimal c.mean), ("spread", .decimal c.spread), ("observations", .int c.observations)]

structure Calibration where
  count : ℕ
  averageConfidence : ℚ
  deriving DecidableEq, Repr

def Calibration.json (c : Calibration) : Json :=
  .dict [("count", .int c.count), ("average_confidence", .decimal c.averageConfidence)]

/-- A dictionary of typed values as a value. -/
def dictJson {α : Type} (f : α → Json) (d : Dict String α) : Json :=
  .dict (d.map (fun e => (e.1, f e.2)))

structure WeeklyReviewResult where
  reviewId : ReviewId
  periodId : PeriodId
  startsAt : ℕ
  endsAt : ℕ
  dailyReviewIds : List ReviewId
  tradeCount : ℤ := 0
  decisionCount : ℤ := 0
  weeklyPnl : ℚ := 0
  weeklyDrawdown : ℚ := 0
  decisionQualitySummary : Dict String Json := []
  errorClusterSummary : List Json := []
  factorQualitySummary : Dict String Json := []
  strategyQualitySummary : Dict String Json := []
  regimeSummary : Dict String Json := []
  confirmedLessons : List DailyLesson := []
  invalidatedLessons : List DailyLesson := []
  candidateLessons : List DailyLesson := []
  persistentPatterns : List DailyPattern := []
  newPatterns : List Json := []
  disappearingPatterns : List Json := []
  researchQuestions : List Json := []
  dataQuality : String := "OK"
  warnings : List ReviewWarning := []
  dailyReportCount : ℕ := 0
  lessonRecurrence : Dict String Recurrence := []
  failureClassRecurrence : Dict String Recurrence := []
  factorIssueRecurrence : Dict String Recurrence := []
  factorConflictRecurrence : Dict String Recurrence := []
  regimeWeakness : Dict String (List String) := []
  strategyConsistency : Dict String Consistency := []
  factorConsistency : Dict String Consistency := []
  confidenceCalibration : Dict String Calibration := []
  repeatProfitablePatterns : List DailyPattern := []
  repeatAvoidableErrorPatterns : List DailyPattern := []

namespace WeeklyReviewResult

/-- `to_dict`, without the ids of the children and the warnings, which nothing reads back. -/
def toDict (r : WeeklyReviewResult) : StoredReport where
  reviewId := r.reviewId
  periodId := r.periodId
  startsAt := r.startsAt
  endsAt := r.endsAt
  entries := [
    ("trade_count", .int r.tradeCount),
    ("decision_count", .int r.decisionCount),
    ("weekly_pnl", .decimal r.weeklyPnl),
    ("weekly_drawdown", .decimal r.weeklyDrawdown),
    ("decision_quality_summary", .dict r.decisionQualitySummary),
    ("error_cluster_summary", .list r.errorClusterSummary),
    ("factor_quality_summary", .dict r.factorQualitySummary),
    ("strategy_quality_summary", .dict r.strategyQualitySummary),
    ("regime_summary", .dict r.regimeSummary),
    ("confirmed_lessons", .list (r.confirmedLessons.map DailyLesson.json)),
    ("invalidated_lessons", .list (r.invalidatedLessons.map DailyLesson.json)),
    ("candidate_lessons", .list (r.candidateLessons.map DailyLesson.json)),
    ("persistent_patterns", .list (r.persistentPatterns.map DailyPattern.json)),
    ("new_patterns", .list r.newPatterns),
    ("disappearing_patterns", .list r.disappearingPatterns),
    ("research_questions", .list r.researchQuestions),
    ("data_quality", .text r.dataQuality),
    ("daily_report_count", .int r.dailyReportCount),
    ("lesson_recurrence", dictJson Recurrence.json r.lessonRecurrence),
    ("failure_class_recurrence", dictJson Recurrence.json r.failureClassRecurrence),
    ("factor_issue_recurrence", dictJson Recurrence.json r.factorIssueRecurrence),
    ("factor_conflict_recurrence", dictJson Recurrence.json r.factorConflictRecurrence),
    ("regime_weakness", dictJson (fun notes => .list (notes.map Json.text)) r.regimeWeakness),
    ("strategy_consistency", dictJson Consistency.json r.strategyConsistency),
    ("factor_consistency", dictJson Consistency.json r.factorConsistency),
    ("confidence_calibration", dictJson Calibration.json r.confidenceCalibration),
    ("repeat_profitable_patterns", .list (r.repeatProfitablePatterns.map DailyPattern.json)),
    ("repeat_avoidable_error_patterns", .list (r.repeatAvoidableErrorPatterns.map DailyPattern.json))]

end WeeklyReviewResult

inductive RecommendationAction where
  | keep | increaseWeightCandidate | decreaseWeightCandidate | freeze | research | challenge
  | retireCandidate | combineCandidate
  deriving DecidableEq, Repr

/-- A proposal about a factor, with its basis. -/
structure FactorProposal where
  factor : String
  recommendation : RecommendationAction
  usageWeeks : ℤ
  failures : ℤ
  conflicts : ℤ
  qualitySpread : ℚ
  deriving DecidableEq, Repr

structure StrategyProposal where
  strategy : String
  recommendation : RecommendationAction
  meanQuality : ℚ
  observations : ℕ
  deriving DecidableEq, Repr

/-- A sum that is labelled as not available when no child has the field. -/
structure OptionalSum where
  available : Bool
  value : ℚ
  deriving DecidableEq, Repr

def OptionalSum.json (s : OptionalSum) : Json :=
  .dict [("availability", .text (if s.available then "AVAILABLE" else "NOT_AVAILABLE")), ("value", .decimal s.value)]

structure MonthlyReviewResult where
  reviewId : ReviewId
  periodId : PeriodId
  startsAt : ℕ
  endsAt : ℕ
  weeklyReviewIds : List ReviewId
  strategyEvaluations : List Json := []
  factorEvaluations : List Json := []
  confirmedLessons : List Json := []
  invalidatedLessons : List Json := []
  strategyProposals : List StrategyProposal := []
  factorProposals : List FactorProposal := []
  monthlyPnl : ℚ := 0
  maxDrawdown : ℚ := 0
  factorUsage : Dict String ℤ := []
  factorFailureFrequency : Dict String ℤ := []
  factorConflictFrequency : Dict String ℤ := []
  strategyRegimeMatrix : Dict String (Dict String (List Json)) := []
  factorRegimeMatrix : Dict String (Dict String (List Json)) := []
  confidenceCalibration : Dict String Json := []
  sharpeWeekly : ℚ := 0
  calmar : ℚ := 0
  executionCosts : Dict String OptionalSum := []
  factorStability : Dict String ℚ := []
  redundancyIndicators : Dict String ℤ := []
  calculationLatency : OptionalSum := ⟨false, 0⟩
  warnings : List ReviewWarning := []

/-- `to_dict`, without the proposals, the matrices and the ratios, which nothing reads back. -/
def MonthlyReviewResult.toDict (r : MonthlyReviewResult) : StoredReport where
  reviewId := r.reviewId
  periodId := r.periodId
  startsAt := r.startsAt
  endsAt := r.endsAt
  entries := [
    ("strategy_evaluations", .list r.strategyEvaluations),
    ("factor_evaluations", .list r.factorEvaluations),
    ("confirmed_lessons", .list r.confirmedLessons),
    ("invalidated_lessons", .list r.invalidatedLessons),
    ("monthly_pnl", .decimal r.monthlyPnl),
    ("max_drawdown", .decimal r.maxDrawdown),
    ("factor_usage", dictJson Json.int r.factorUsage),
    ("factor_failure_frequency", dictJson Json.int r.factorFailureFrequency),
    ("factor_conflict_frequency", dictJson Json.int r.factorConflictFrequency),
    ("confidence_calibration", .dict r.confidenceCalibration),
    ("execution_costs", dictJson OptionalSum.json r.executionCosts),
    ("factor_stability", dictJson Json.decimal r.factorStability),
    ("redundancy_indicators", dictJson (fun n => .dict [("weeks_observed", .int n)]) r.redundancyIndicators),
    ("calculation_latency", r.calculationLatency.json)]

/-- The first and the last month of a strategy or factor, and how many. -/
structure Lifespan where
  firstMonth : PeriodId
  lastMonth : PeriodId
  months : ℕ
  deriving DecidableEq, Repr

inductive Availability where
  | available | notAvailable | insufficientEvidence
  deriving DecidableEq, Repr

/-- The metrics are `none` where they are not available or have too little evidence. -/
structure YearlyReviewResult where
  reviewId : ReviewId
  periodId : PeriodId
  startsAt : ℕ
  endsAt : ℕ
  monthlyReviewIds : List ReviewId
  annualReturn : ℚ := 0
  maxDrawdown : Option ℚ := none
  tailRisk : Option ℚ := none
  strategyLifespan : Dict String Lifespan := []
  factorLifespan : Dict String Lifespan := []
  complexityGrowth : List (PeriodId × ℕ × ℕ) := []
  lessonEffectiveness : List (PeriodId × ℕ × ℕ) := []
  sharpe : Option ℚ := none
  sortino : Option ℚ := none
  calmar : Option ℚ := none
  lessonConfirmationRate : Option ℚ := none
  lessonRejectionRate : Option ℚ := none
  versionLineage : List (PeriodId × List Json) := []
  factorReliabilityTrend : List (PeriodId × Json × Json) := []
  factorRedundancyTrend : List (PeriodId × Json) := []
  evolutionPipelineStats : Dict String (Option ℚ) := []
  metricAvailability : Dict String Availability := []
  warnings : List ReviewWarning := []

def YearlyReviewResult.toDict (r : YearlyReviewResult) : StoredReport where
  reviewId := r.reviewId
  periodId := r.periodId
  startsAt := r.startsAt
  endsAt := r.endsAt
  entries := [("annual_return", .decimal r.annualReturn)]

end CryptoTrader
