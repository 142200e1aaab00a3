import CryptoTrader.Evolution.HierarchicalReports
import Mathlib.Algebra.Order.Group.Unbundled.Abs
import Mathlib.Data.Rat.Floor

/-!
# The hierarchical learning engine

`hierarchical/engine.py`: the weekly review aggregates daily reports, the monthly review
stored weekly reports and the yearly review stored monthly ones. Square roots are a
parameter.
-/

namespace CryptoTrader

open Calendar

/-- `_q`: three places, a half going to the even neighbour. -/
def quantizeThousandth (value : ℚ) : ℚ :=
  let scaled := value * 1000
  let down : ℤ := ⌊scaled⌋
  let rest := scaled - down
  let nearest : ℤ := if rest < 1 / 2 then down else if 1 / 2 < rest then down + 1
    else if down % 2 = 0 then down else down + 1
  nearest / 1000

/-- `max(values) - min(values)`. -/
def spread : List ℚ → ℚ
  | [] => 0
  | v :: vs => vs.foldl max v - vs.foldl min v

/-- `min(values)`, if there are any. -/
def least : List ℚ → Option ℚ
  | [] => none
  | v :: vs => some (vs.foldl min v)

def meanOf (values : List ℚ) : ℚ := values.sum / values.length

def varianceOf (values : List ℚ) : ℚ :=
  (values.map (fun p => (p - meanOf values) ^ 2)).sum / values.length

/-! ### Children -/

/-- The order of the labels of one kind of period. -/
def PeriodId.rank : PeriodId → ℕ × ℕ
  | .day n => (n, 0)
  | .week y w => (y, w)
  | .month y m => (y, m)
  | .year y => (y, 0)

def PeriodId.before (p q : PeriodId) : Bool :=
  p.rank.1 < q.rank.1 || p.rank.1 = q.rank.1 && p.rank.2 < q.rank.2

def ReviewId.notAfter : ReviewId → ReviewId → Bool
  | .daily s, .daily t => s ≤ t
  | .period _ p, .period _ q => !q.before p
  | .daily _, .period _ _ => true
  | .period _ _, .daily _ => false

/-- The order of `(period_id, review_id)`. -/
def childNotAfter (a b : PeriodId × ReviewId) : Prop :=
  a.1.before b.1 = true ∨ a.1 = b.1 ∧ a.2.notAfter b.2 = true

instance decidableChildNotAfter : DecidableRel childNotAfter :=
  fun _ _ => inferInstanceAs (Decidable (_ ∨ _))

def dedupeChildReviews {α : Type} (key : α → PeriodId × ReviewId) (reviews : List α) : List α :=
  (firsts key reviews).insertionSort (fun a b => childNotAfter (key a) (key b))

/-- The days of a window, capped as in the source. -/
def isoDates (startsAt endsAt : ℕ) : List ℕ :=
  let first := startsAt / dayUs
  ((List.range (endsAt / dayUs + 1 - first)).map (first + ·)).take 401

def expectedPeriodIds (startsAt endsAt : ℕ) (granularity : PeriodType) : List PeriodId :=
  let days := isoDates startsAt endsAt
  match granularity with
  | .daily => days.map .day
  | .weekly => firsts id (days.map (fun day => .week (isoYear (day / 7)) (isoWeek (day / 7))))
  | .monthly => firsts id (days.map (fun day => .month (year day) (month day)))
  | .yearly => firsts id (days.map (fun day => .year (year day)))

/-- The warnings about children, sorted by their texts. -/
def childWarnings (startsAt endsAt : ℕ) (granularity : PeriodType) (present : List PeriodId) : List ReviewWarning :=
  let missing := (expectedPeriodIds startsAt endsAt granularity).filter (fun label => label ∉ present)
  (if missing = [] then [] else [.missing granularity missing]) ++ (if present = [] then [.none granularity] else [])

/-! ### Weekly -/

/-- Occurrences of labels by day: distinct days and total. -/
def recurrence (occurrences : List (PeriodId × String)) : Dict String Recurrence :=
  let perDay : Dict String (List PeriodId × ℤ) := occurrences.foldl (fun d o =>
    d.alter o.2 (fun entry =>
      let (days, total) := entry.getD ([], 0)
      (if o.1 ∈ days then days else days ++ [o.1], total + 1))) []
  perDay.map (fun e => (e.1, ⟨e.2.1.length, e.2.2⟩))

def recurrenceByDay (reviews : List DailyReport) : Dict String Recurrence :=
  recurrence (reviews.flatMap (fun r => (r.errorClusters.filter (fun label => label ≠ "")).map (r.periodId, ·)))

def attributionRecurrence (field : DailyAttribution → List String) (reviews : List DailyReport) :
    Dict String Recurrence :=
  recurrence (reviews.flatMap (fun r => (r.factorAttributions.flatMap field).map (r.periodId, ·)))

/-- What is collected about one statement. -/
structure LessonEntry where
  lesson : DailyLesson
  days : List PeriodId := []
  evidence : ℤ := 0
  contradictionDays : ℕ := 0

def LessonEntry.add (e : LessonEntry) (day : PeriodId) (lesson : DailyLesson) : LessonEntry :=
  { e with
    days := if day ∈ e.days then e.days else e.days ++ [day]
    evidence := e.evidence + lesson.evidenceCount
    contradictionDays :=
      if lesson.supportingDecisions.dec < lesson.contradictions.dec then e.contradictionDays + 1
      else e.contradictionDays }

def LessonEntry.status (e : LessonEntry) : String :=
  let supportDays := e.days.length
  if 2 ≤ supportDays ∧ supportDays < e.contradictionDays then "REJECTED"
  else if 2 ≤ supportDays then "CONFIRMED"
  else "CANDIDATE"

def lessonEntries (dailyReviews : List DailyReport) : Dict String LessonEntry :=
  (dailyReviews.flatMap (fun d => d.candidateLessons.map (d.periodId, ·))).foldl (fun entries l =>
    entries.alter l.2.canonicalStatement (fun e => (e.getD { lesson := l.2 }).add l.1 l.2)) []

/-- The lessons of a status. -/
def lessonsWith (status : String) (entries : Dict String LessonEntry) : List DailyLesson :=
  (entries.filter (fun e => e.2.status = status)).map (fun e => { e.2.lesson with status := status })

def confidenceCalibration (dailyReviews : List DailyReport) : Dict String Calibration :=
  let outcomes := (dailyReviews.flatMap (·.factorAttributions)).filterMap (fun a =>
    match a.confidence with
    | .null => none
    | .text "" => none
    | confidence => if a.outcomeQuality = "" then none else some (a.outcomeQuality, confidence.dec))
  let buckets : Dict String (List ℚ) := outcomes.foldl (fun d o => d.push o.1 o.2) []
  buckets.sorted.map (fun b => (b.1, ⟨b.2.length, quantizeThousandth (meanOf b.2)⟩))

/-- The drawdown of a series of results: `running`, `peak` and `drawdown` after it. -/
def drawdownFrom : ℚ × ℚ × ℚ → List ℚ → ℚ
  | (_, _, drawdown), [] => drawdown
  | (running, peak, drawdown), pnl :: pnls =>
    let running := running + pnl
    let peak := max peak running
    drawdownFrom (running, peak, min drawdown (running - peak)) pnls

def consistency (scores : Dict String (List ℚ)) : Dict String Consistency :=
  scores.sorted.map (fun e =>
    (e.1, ⟨quantizeThousandth (meanOf e.2), quantizeThousandth (spread e.2), e.2.length⟩))

/-- The scores of a field of the reports by name. -/
def scoresOf (scores : List (Dict String Json)) : Dict String (List ℚ) :=
  scores.flatten.foldl (fun d e => d.push e.1 e.2.dec) []

def isRepeatAvoidable (p : DailyPattern) : Bool :=
  p.avoidable || p.patternType.toUpper = "AVOIDABLE_ERROR"

def isRepeatProfitable (p : DailyPattern) : Bool :=
  ["PROFITABLE", "WINNING", "GOOD_DECISION_GOOD_OUTCOME"].contains p.patternType.toUpper

def DailyReport.key (d : DailyReport) : PeriodId × ReviewId := (d.periodId, d.reviewId)

def weeklyReview (reviewId : ReviewId) (periodId : PeriodId) (startsAt endsAt : ℕ)
    (dailyReviews : List DailyReport) : WeeklyReviewResult :=
  let dailyReviews := dedupeChildReviews DailyReport.key dailyReviews
  let lessons := lessonEntries dailyReviews
  let patterns := dailyReviews.flatMap (·.patterns)
  let dayPnls := dailyReviews.map (·.netPnl.dec)
  let notes : Dict String (List String) :=
    (dailyReviews.flatMap (·.regimeSummary)).foldl (fun d e => d.push e.1 e.2) []
  { reviewId := reviewId
    periodId := periodId
    startsAt := startsAt
    endsAt := endsAt
    dailyReviewIds := dailyReviews.map (·.reviewId)
    tradeCount := (dailyReviews.map (·.tradeCount)).sum
    decisionCount := (dailyReviews.map (·.decisionCount)).sum
    weeklyPnl := dayPnls.sum
    weeklyDrawdown := drawdownFrom (0, 0, 0) dayPnls
    confirmedLessons := lessonsWith "CONFIRMED" lessons
    candidateLessons := lessonsWith "CANDIDATE" lessons
    invalidatedLessons := lessonsWith "REJECTED" lessons
    persistentPatterns := patterns.filter (fun p => 2 ≤ p.evidenceCount)
    warnings := childWarnings startsAt endsAt .daily (dailyReviews.map (·.periodId))
    dailyReportCount := dailyReviews.length
    lessonRecurrence := lessons.map (fun e => (e.1, ⟨e.2.days.length, e.2.evidence⟩))
    failureClassRecurrence := recurrenceByDay dailyReviews
    factorIssueRecurrence := attributionRecurrence (·.healthIssues) dailyReviews
    factorConflictRecurrence := attributionRecurrence (·.conflicts) dailyReviews
    regimeWeakness := notes.sorted
    strategyConsistency := consistency (scoresOf (dailyReviews.map (·.strategyQuality)))
    factorConsistency := consistency (scoresOf (dailyReviews.map (·.factorQuality)))
    confidenceCalibration := confidenceCalibration dailyReviews
    repeatProfitablePatterns := patterns.filter isRepeatProfitable
    repeatAvoidableErrorPatterns := patterns.filter isRepeatAvoidable }

/-! ### Monthly -/

def StoredReport.key (r : StoredReport) : PeriodId × ReviewId := (r.periodId, r.reviewId)

/-- The total of a recurrence, by name, over the reports. -/
def totals (field : String) (reviews : List StoredReport) : Dict String ℤ :=
  (reviews.flatMap (fun r => (r.get field).entries)).foldl
    (fun d e => Dict.bump e.1 (Json.look "total" e.2.entries).toInt d) []

/-- In how many reports a name has a `factor_quality` entry. -/
def usageOf (reviews : List StoredReport) : Dict String ℤ :=
  (reviews.flatMap (fun r => (r.get "factor_quality").entries)).foldl (fun d e => Dict.bump e.1 1 d) []

/-- `str(w.get("dominant_regime") or w.get("market_regime") or "UNKNOWN")`. -/
def regimeOf (r : StoredReport) : String :=
  ((([r.get "dominant_regime", r.get "market_regime"]).filterMap Json.text?).find? (· ≠ "")).getD "UNKNOWN"

def regimeMatrix (field : String) (reviews : List StoredReport) : Dict String (Dict String (List Json)) :=
  (reviews.flatMap (fun r => (r.get field).entries.map (regimeOf r, ·))).foldl
    (fun d e => Dict.alter e.2.1 (fun notes => Dict.push e.1 e.2.2 (notes.getD [])) d) []

def sumOptional (field : String) (reviews : List StoredReport) : OptionalSum :=
  let values := (reviews.map (·.get field)).filter Json.isSome
  if values.isEmpty then ⟨false, 0⟩ else ⟨true, (values.map Json.dec).sum⟩

/-- The entries of a summary that are not empty. -/
def summaries (field : String) (reviews : List StoredReport) : List Json :=
  (reviews.map (·.get field)).filter Json.truthy

def factorAction (weekCount : ℕ) (usage failures conflicts : ℤ) (spread : ℚ) : RecommendationAction :=
  if usage = 0 ∧ (0 < failures ∨ 0 < conflicts) then .freeze
  else if max usage 1 ≤ failures then .retireCandidate
  else if max usage 1 ≤ conflicts then .challenge
  else if failures = 0 ∧ conflicts = 0 ∧ usage = weekCount ∧ spread = 0 then .increaseWeightCandidate
  else if failures = 0 ∧ conflicts = 0 ∧ 1 ≤ usage then .keep
  else if 1 < spread then .decreaseWeightCandidate
  else .research

def factorProposals (usage failures conflicts : Dict String ℤ) (stability : Dict String ℚ) (weekCount : ℕ) :
    List FactorProposal :=
  let names := firsts id ((usage ++ failures ++ conflicts).map Prod.fst)
  (names.insertionSort (· ≤ ·)).map (fun factor =>
    let used := (usage.get factor).getD 0
    let failed := (failures.get factor).getD 0
    let conflicting := (conflicts.get factor).getD 0
    let spread := (stability.get factor).getD 0
    { factor := factor
      recommendation := factorAction weekCount used failed conflicting spread
      usageWeeks := used
      failures := failed
      conflicts := conflicting
      qualitySpread := spread })

def strategyProposals (evaluations : List Json) : List StrategyProposal :=
  (scoresOf (evaluations.map Json.entries)).sorted.map (fun e =>
    let mean := meanOf e.2
    { strategy := e.1
      recommendation := if 0 < mean then .keep else if mean < 0 then .decreaseWeightCandidate else .research
      meanQuality := quantizeThousandth mean
      observations := e.2.length })

def factorStability (weeklyReviews : List StoredReport) : Dict String ℚ :=
  (scoresOf (weeklyReviews.map (fun w => (w.get "factor_quality").entries))).sorted.map
    (fun e => (e.1, quantizeThousandth (spread e.2)))

def monthlyReview (sqrt : ℚ → ℚ) (reviewId : ReviewId) (periodId : PeriodId) (startsAt endsAt : ℕ)
    (weeklyReviews : List StoredReport) : MonthlyReviewResult :=
  let weeklyReviews := dedupeChildReviews StoredReport.key weeklyReviews
  let weekCount := weeklyReviews.length
  let strategyEvaluations := summaries "strategy_quality_summary" weeklyReviews
  let usage := usageOf weeklyReviews
  let failures := totals "factor_issue_recurrence" weeklyReviews
  let conflicts := totals "factor_conflict_recurrence" weeklyReviews
  let stability := factorStability weeklyReviews
  let weeklyPnls := weeklyReviews.map (fun w => (w.get "weekly_pnl").dec)
  let total := weeklyPnls.sum
  let std := if 0 < varianceOf weeklyPnls then sqrt (varianceOf weeklyPnls) else 0
  let sharpe := if 2 ≤ weekCount ∧ 0 < std then meanOf weeklyPnls / std * sqrt weekCount else 0
  let maxDrawdown := (least (((weeklyReviews.map (·.get "weekly_drawdown")).filter Json.truthy).map Json.dec)).getD 0
  { reviewId := reviewId
    periodId := periodId
    startsAt := startsAt
    endsAt := endsAt
    weeklyReviewIds := weeklyReviews.map (·.reviewId)
    strategyEvaluations := strategyEvaluations
    factorEvaluations := summaries "factor_quality_summary" weeklyReviews
    confirmedLessons := weeklyReviews.flatMap (fun w => (w.get "confirmed_lessons").items)
    invalidatedLessons := weeklyReviews.flatMap (fun w => (w.get "invalidated_lessons").items)
    strategyProposals := strategyProposals strategyEvaluations
    factorProposals := factorProposals usage failures conflicts stability (max weekCount 1)
    monthlyPnl := total
    maxDrawdown := maxDrawdown
    factorUsage := usage
    factorFailureFrequency := failures
    factorConflictFrequency := conflicts
    strategyRegimeMatrix := regimeMatrix "strategy_quality_summary" weeklyReviews
    factorRegimeMatrix := regimeMatrix "factor_quality_summary" weeklyReviews
    confidenceCalibration := (weeklyReviews.flatMap (fun w => (w.get "confidence_calibration").entries)).foldl
      (fun d e => Dict.alter e.1 (fun _ => e.2) d) []
    sharpeWeekly := quantizeThousandth sharpe
    calmar := quantizeThousandth (if maxDrawdown < 0 then total / |maxDrawdown| else 0)
    executionCosts := ["fees", "funding", "slippage", "turnover", "capital_efficiency"].map
      (fun field => (field, sumOptional field weeklyReviews))
    factorStability := stability
    redundancyIndicators := usage.sorted.filter (fun e => e.2 = weekCount ∧ 2 ≤ e.2)
    calculationLatency := sumOptional "calculation_latency" weeklyReviews
    warnings := childWarnings startsAt endsAt .weekly (weeklyReviews.map (·.periodId)) }

/-! ### Yearly -/

/-- The months in which a name is among the evaluations. -/
def lifespans (field : String) (monthlyReviews : List StoredReport) : Dict String Lifespan :=
  let months : Dict String Lifespan := (monthlyReviews.flatMap (fun m =>
      ((m.get field).items.flatMap (fun evaluation => evaluation.entries.map Prod.fst)).map (m.periodId, ·))).foldl
    (fun d e => Dict.alter e.2 (fun span =>
      let span := span.getD ⟨e.1, e.1, 0⟩
      { span with lastMonth := e.1, months := span.months + 1 }) d) []
  months.sorted

/-- A count of the evolution pipeline over the months that carry it. -/
def pipelineStat (monthlyReviews : List StoredReport) (field : String) : Option ℚ :=
  let values := ((monthlyReviews.map (·.get field)).filter Json.isSome).map Json.dec
  if values = [] then none
  else if field = "research_success_rate" then some (quantizeThousandth (meanOf values))
  else some values.sum

def pipelineStats (monthlyReviews : List StoredReport) : Dict String (Option ℚ) :=
  ["candidate_count", "validation_count", "promotion_count", "rejection_count", "rollback_count",
    "research_success_rate"].map (fun field => (field, pipelineStat monthlyReviews field))

def versionLineage (monthlyReviews : List StoredReport) : List (PeriodId × List Json) :=
  (monthlyReviews.filter (fun m => (m.get "strategy_version").truthy || (m.get "factor_set_version").truthy)).map
    (fun m => (m.periodId, ["strategy_version", "factor_set_version", "model_version", "prompt_version"].map m.get))

/-- `AVAILABLE`, or the given label. -/
def availableIf (b : Bool) (otherwise : Availability) : Availability :=
  if b then .available else otherwise

def yearlyReview (sqrt : ℚ → ℚ) (reviewId : ReviewId) (periodId : PeriodId) (startsAt endsAt : ℕ)
    (monthlyReviews : List StoredReport) : YearlyReviewResult :=
  let monthlyReviews := dedupeChildReviews StoredReport.key monthlyReviews
  let monthlyPnls := monthlyReviews.map (fun m => (m.get "monthly_pnl").dec)
  let total := monthlyPnls.sum
  let enough : Bool := 2 ≤ monthlyPnls.length
  let mean := meanOf monthlyPnls
  let std := if 0 < varianceOf monthlyPnls then sqrt (varianceOf monthlyPnls) else 0
  let downside := monthlyPnls.filter (fun p => p < 0)
  let downsideStd := if downside = [] then 0
    else sqrt ((downside.map (fun p => p ^ 2)).sum / monthlyPnls.length)
  let worst := least (((monthlyReviews.map (·.get "max_drawdown")).filter Json.truthy).map Json.dec)
  let confirmed (m : StoredReport) : ℕ := (m.get "confirmed_lessons").items.length
  let invalidated (m : StoredReport) : ℕ := (m.get "invalidated_lessons").items.length
  let confirmedCount := (monthlyReviews.map confirmed).sum
  let rejectedCount := (monthlyReviews.map invalidated).sum
  let lessonTotal := confirmedCount + rejectedCount
  let sharpe := if enough ∧ 0 < std then some (quantizeThousandth (mean / std)) else none
  let sortino := if enough ∧ 0 < downsideStd then some (quantizeThousandth (mean / downsideStd)) else none
  let calmar := worst.bind (fun w => if w < 0 then some (quantizeThousandth (total / |w|)) else none)
  let lineage := versionLineage monthlyReviews
  let pipeline := pipelineStats monthlyReviews
  { reviewId := reviewId
    periodId := periodId
    startsAt := startsAt
    endsAt := endsAt
    monthlyReviewIds := monthlyReviews.map (·.reviewId)
    annualReturn := total
    maxDrawdown := worst
    tailRisk := (least monthlyPnls).map quantizeThousandth
    strategyLifespan := lifespans "strategy_evaluations" monthlyReviews
    factorLifespan := lifespans "factor_evaluations" monthlyReviews
    complexityGrowth := monthlyReviews.map (fun m =>
      (m.periodId, (m.get "strategy_evaluations").items.length, (m.get "factor_evaluations").items.length))
    lessonEffectiveness := monthlyReviews.map (fun m => (m.periodId, confirmed m, invalidated m))
    sharpe := sharpe
    sortino := sortino
    calmar := calmar
    lessonConfirmationRate :=
      if lessonTotal = 0 then none else some (quantizeThousandth (confirmedCount / lessonTotal))
    lessonRejectionRate :=
      if lessonTotal = 0 then none else some (quantizeThousandth (rejectedCount / lessonTotal))
    versionLineage := lineage
    factorReliabilityTrend := monthlyReviews.map (fun m =>
      (m.periodId, m.get "factor_failure_frequency", m.get "factor_conflict_frequency"))
    factorRedundancyTrend := monthlyReviews.map (fun m => (m.periodId, m.get "redundancy_indicators"))
    evolutionPipelineStats := pipeline
    metricAvailability := [
      ("annual_return", availableIf (!monthlyReviews.isEmpty) .notAvailable),
      ("sharpe", availableIf sharpe.isSome .insufficientEvidence),
      ("sortino", availableIf sortino.isSome .insufficientEvidence),
      ("calmar", availableIf calmar.isSome .insufficientEvidence),
      ("max_drawdown", availableIf worst.isSome .notAvailable),
      ("tail_risk", availableIf (!monthlyPnls.isEmpty) .notAvailable),
      ("lesson_confirmation_rate", availableIf (lessonTotal ≠ 0) .insufficientEvidence),
      ("version_lineage", availableIf (!lineage.isEmpty) .notAvailable),
      ("evolution_pipeline_stats", availableIf (pipeline.any (·.2.isSome)) .notAvailable)]
    warnings := childWarnings startsAt endsAt .monthly (monthlyReviews.map (·.periodId)) }

end CryptoTrader
