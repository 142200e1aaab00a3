import CryptoTrader.Evolution.HierarchicalEngine

/-!
# The daily pipeline

`daily/error_mining.py`, the attribution of `daily/models.py`, `daily/pattern.py`,
`daily/lesson.py` and `DailyReviewPipeline.run`. Floats are exact.
-/

namespace CryptoTrader

/-! ### Decisions -/

/-- An entry of `evidence["factors"]`. -/
structure FactorEntry where
  status : String := "UNKNOWN"
  directionSemantics : String := ""
  normalizedValue : ℚ := 0
  contribution : Json := .text "NOT_AVAILABLE"

structure FactorEvidence where
  decisionId : String := ""
  factorSnapshotId : String := ""
  factorSetVersion : String := ""
  /-- `evidence["decision"]["action"]`. -/
  action : String := "NO_TRADE"
  factors : Dict String FactorEntry := []

/-- A decision under review, with the defaults of its missing keys. -/
structure ReviewedDecision where
  decisionId : String := ""
  decisionQuality : String := "GOOD"
  outcomeQuality : String := "GOOD"
  ruleViolation : Bool := false
  factorConflict : Bool := false
  marketShock : Bool := false
  trade : Bool := false
  evidence : FactorEvidence := {}

/-! ### Errors -/

structure ErrorEvent where
  decisionId : String
  category : String
  avoidable : Bool
  evidence : List String := []
  deriving DecidableEq, Repr

def mineError (decisionQuality outcomeQuality : String) (ruleViolation factorConflict marketShock : Bool) :
    Option ErrorEvent :=
  if ruleViolation then some ⟨"", "RULE_VIOLATION", true, ["deterministic rule broken"]⟩
  else if decisionQuality = "BAD" ∧ outcomeQuality = "BAD" then
    if factorConflict then some ⟨"", "FACTOR_CONFLICT", true, ["conflicting factors"]⟩
    else some ⟨"", "SIGNAL_ERROR", true, ["bad decision realized"]⟩
  else if decisionQuality = "BAD" ∧ outcomeQuality = "GOOD" then
    some ⟨"", "BAD_DECISION_GOOD_OUTCOME", false, ["luck not a system error"]⟩
  else if decisionQuality = "GOOD" ∧ outcomeQuality = "BAD" then
    if marketShock then some ⟨"", "MARKET_SHOCK", false, ["unavoidable market shock"]⟩ else none
  else none

/-- The error of a decision, if there is one. -/
def ReviewedDecision.error (d : ReviewedDecision) : Option ErrorEvent :=
  (mineError d.decisionQuality d.outcomeQuality d.ruleViolation d.factorConflict d.marketShock).map
    (fun event => { event with decisionId := d.decisionId })

/-! ### Attribution -/

inductive FactorStance where
  | supporting
  | opposing
  | neutral
  deriving DecidableEq, Repr

/-- How a factor with direction semantics stands to a decision. -/
def factorStance (decisionDirection semantics : String) (value : ℚ) : FactorStance :=
  let bullishPositive : Bool := semantics = "BULLISH_POSITIVE" ∨ semantics = "SIGNED_DIRECTIONAL"
  if decisionDirection = "LONG" ∨ decisionDirection = "OPEN_LONG" then
    if bullishPositive ∧ 0 < value then .supporting
    else if ¬ bullishPositive ∧ value < 0 then .supporting
    else if value ≠ 0 then .opposing
    else .neutral
  else if decisionDirection = "SHORT" ∨ decisionDirection = "OPEN_SHORT" then
    if bullishPositive ∧ value < 0 then .supporting
    else if ¬ bullishPositive ∧ 0 < value then .supporting
    else if value ≠ 0 then .opposing
    else .neutral
  else .neutral

namespace FactorEntry

def Usable (e : FactorEntry) : Prop := e.status = "OK" ∨ e.status = "VALID_ZERO"

instance (e : FactorEntry) : Decidable e.Usable := inferInstanceAs (Decidable (_ ∨ _))

/-- The stance of an entry; without direction semantics it has none. -/
def stance (decisionDirection : String) (e : FactorEntry) : FactorStance :=
  if e.directionSemantics = "" ∨ e.directionSemantics ∈ ["NON_DIRECTIONAL", "REGIME", "RISK_ONLY"] then .neutral
  else factorStance decisionDirection e.directionSemantics e.normalizedValue

end FactorEntry

/-- The variables of the loop over the factors. -/
structure AttributionLoop where
  supporting : List String := []
  opposing : List String := []
  healthIssues : List String := []
  contributions : Dict String Json := []
  dominant : List String := []
  dominantMagnitude : Option ℚ := none
  semanticKnown : ℕ := 0
  usableRequired : ℕ := 0

namespace AttributionLoop

def contribute (st : AttributionLoop) (name : String) (contribution : Json) : AttributionLoop :=
  match contribution with
  | .text "NOT_AVAILABLE" => st
  | _ =>
    match contribution.float? with
    | none => { st with contributions := st.contributions.alter name (fun _ => .text "INVALID_CONTRIBUTION") }
    | some value =>
      let st := { st with contributions := st.contributions.alter name (fun _ => contribution) }
      let magnitude := |value|
      if magnitude ≠ 0 ∧ st.dominantMagnitude.all (fun m => m < magnitude) then
        { st with dominant := [name], dominantMagnitude := some magnitude }
      else st

/-- A usable factor with direction semantics. -/
def place (st : AttributionLoop) (name : String) : FactorStance → AttributionLoop
  | .supporting => { st with supporting := st.supporting ++ [name] }
  | .opposing => { st with opposing := st.opposing ++ [name] }
  | .neutral => st

/-- One turn of the loop. -/
def turn (decisionDirection : String) (st : AttributionLoop) (factor : String × FactorEntry) : AttributionLoop :=
  let (name, entry) := factor
  if ¬ entry.Usable then { st with healthIssues := st.healthIssues ++ [name ++ ":" ++ entry.status] }
  else
    let st := ({ st with usableRequired := st.usableRequired + 1 }).contribute name entry.contribution
    let st := if entry.directionSemantics = "" then st else { st with semanticKnown := st.semanticKnown + 1 }
    st.place name (entry.stance decisionDirection)

def conflicts (st : AttributionLoop) : List String :=
  if st.supporting ≠ [] ∧ st.opposing ≠ [] then ["DIRECTION_CONFLICT"] else []

/-- The confidence before it is capped and rounded. -/
def raw (st : AttributionLoop) (totalRequired : ℕ) : ℚ :=
  1 / 2 * (st.usableRequired / totalRequired) + 1 / 4 * (st.semanticKnown / totalRequired) +
    1 / 4 * (st.contributions.length / totalRequired) - 1 / 5 * st.conflicts.length

def confidence (st : AttributionLoop) (totalRequired : ℕ) : Json :=
  if totalRequired = 0 ∨ st.raw totalRequired < 3 / 10 then .text "INSUFFICIENT_EVIDENCE"
  else .decimal (quantizeThousandth (min (9 / 10) (max (1 / 20) (st.raw totalRequired))))

end AttributionLoop

structure FactorAttributionResult where
  attributionId : String
  reviewId : ReviewId
  decisionId : String
  factorSnapshotId : String
  factorSetVersion : String
  supportingFactors : List String
  opposingFactors : List String
  dominantFactors : List String
  conflicts : List String
  healthIssues : List String
  factorContributions : Dict String Json
  decisionQuality : String
  outcomeQuality : String
  failureCandidates : List String
  evidenceRefs : List String
  confidence : Json
  candidateLessons : List String

def attributionLoop (evidence : FactorEvidence) : AttributionLoop :=
  evidence.factors.foldl (AttributionLoop.turn evidence.action) {}

def buildAttributionEvidenceBased (attributionId : String) (reviewId : ReviewId) (evidence : FactorEvidence)
    (decisionQuality outcomeQuality : String) : FactorAttributionResult :=
  let st := attributionLoop evidence
  let totalRequired := evidence.factors.length
  { attributionId := attributionId
    reviewId := reviewId
    decisionId := evidence.decisionId
    factorSnapshotId := evidence.factorSnapshotId
    factorSetVersion := evidence.factorSetVersion
    supportingFactors := firsts id st.supporting
    opposingFactors := firsts id st.opposing
    dominantFactors := firsts id st.dominant
    conflicts := st.conflicts
    healthIssues := st.healthIssues
    factorContributions := st.contributions
    decisionQuality := decisionQuality
    outcomeQuality := outcomeQuality
    failureCandidates := if totalRequired = 0 then ["INSUFFICIENT_SEMANTIC_EVIDENCE"] else st.healthIssues
    evidenceRefs := [evidence.factorSnapshotId]
    confidence := st.confidence totalRequired
    candidateLessons := [] }

/-! ### Patterns and lessons -/

structure PatternCandidate where
  patternId : String
  scope : String
  patternType : String
  conditions : List String
  evidenceCount : ℕ
  decisionIds : List String
  confidence : ℚ
  status : String := "CANDIDATE"

/-- `to_dict`, which has no entry `avoidable`. -/
def PatternCandidate.toDict (p : PatternCandidate) : DailyPattern where
  patternType := p.patternType
  evidenceCount := p.evidenceCount
  others := [("pattern_id", .text p.patternId), ("scope", .text p.scope), ("conditions", .list (p.conditions.map .text)),
    ("decision_ids", .list (p.decisionIds.map .text)), ("confidence", .decimal p.confidence), ("status", .text p.status)]

/-- The decisions of each category, in the order of the first one. -/
def categoryDecisions (errorEvents : List ErrorEvent) : Dict String (List String) :=
  errorEvents.foldl (fun counts event => counts.push event.category event.decisionId) []

/-- The pattern of a category. -/
def categoryPattern (category : String) (decisionIds : List String) : PatternCandidate where
  patternId := "pat_" ++ category.toLower
  scope := "GLOBAL"
  patternType := category
  conditions := [category]
  evidenceCount := decisionIds.length
  decisionIds := decisionIds
  confidence := min (9 / 10) (1 / 2 + decisionIds.length * (1 / 10))

def extractPatterns (errorEvents : List ErrorEvent) : List PatternCandidate :=
  (categoryDecisions errorEvents).filterMap (fun (category, decisionIds) =>
    if 2 ≤ decisionIds.length then some (categoryPattern category decisionIds) else none)

structure Lesson where
  lessonId : String
  scope : String
  type : String
  canonicalStatement : String
  evidenceCount : ℕ
  supportingDecisions : List String
  contradictions : List String
  confidence : ℚ
  status : String := "CANDIDATE"

def Lesson.toDict (l : Lesson) : DailyLesson where
  canonicalStatement := l.canonicalStatement
  evidenceCount := l.evidenceCount
  supportingDecisions := .list (l.supportingDecisions.map .text)
  contradictions := .list (l.contradictions.map .text)
  status := l.status
  others := [("lesson_id", .text l.lessonId), ("scope", .text l.scope), ("type", .text l.type),
    ("confidence", .decimal l.confidence)]

/-- The statement of the lesson of a category. -/
def statementOf (category : String) : String := category ++ " repeated in similar conditions"

def deriveFromPattern (pattern : PatternCandidate) : Lesson where
  lessonId := "lesson_" ++ pattern.patternId
  scope := pattern.scope
  type := pattern.patternType
  canonicalStatement := statementOf pattern.patternType
  evidenceCount := pattern.evidenceCount
  supportingDecisions := pattern.decisionIds
  contradictions := []
  confidence := pattern.confidence

/-- A lesson of a memory gateway. -/
structure KnownLesson where
  canonicalStatement : String
  contradictions : List String
  evidenceCount : ℕ

/-- What a known lesson takes from a new one. -/
def KnownLesson.extend (known : KnownLesson) (lesson : Lesson) : KnownLesson :=
  { known with
    contradictions := known.contradictions ++ lesson.contradictions
    evidenceCount := known.evidenceCount + lesson.evidenceCount }

/-- `LessonEngine()` has no memory gateway. -/
structure LessonEngine where
  memoryGateway : Option (List KnownLesson) := none

def LessonEngine.deduplicate (engine : LessonEngine) (lesson : Lesson) : Option Lesson × LessonEngine :=
  match engine.memoryGateway with
  | none => (some lesson, engine)
  | some lessons =>
    if lesson.canonicalStatement ∈ lessons.map KnownLesson.canonicalStatement then
      (none, ⟨some (lessons.replaceF (fun existing =>
        if existing.canonicalStatement = lesson.canonicalStatement then some (existing.extend lesson) else none))⟩)
    else (some lesson, engine)

/-- The loop over the patterns. -/
def LessonEngine.lessons (engine : LessonEngine) (patterns : List PatternCandidate) : List DailyLesson × LessonEngine :=
  patterns.foldl (fun (lessons, engine) pattern =>
    match engine.deduplicate (deriveFromPattern pattern) with
    | (some lesson, engine) => (lessons ++ [lesson.toDict], engine)
    | (none, engine) => (lessons, engine)) ([], engine)

/-! ### The pipeline -/

/-- `hasattr(attribution, "to_dict")`: the class has no such method. -/
def FactorAttributionResult.toDict? (_ : FactorAttributionResult) : Option DailyAttribution := none

/-- An element of `factor_attributions`. -/
inductive AttributionItem where
  | dict (attribution : DailyAttribution)
  | object (attribution : FactorAttributionResult)

/-- `attribution.to_dict() if hasattr(attribution, "to_dict") else attribution`. -/
def AttributionItem.ofResult (attribution : FactorAttributionResult) : AttributionItem :=
  match attribution.toDict? with
  | some entries => .dict entries
  | none => .object attribution

structure DailyReviewResult where
  reviewId : ReviewId
  periodId : PeriodId
  startsAt : ℕ := 0
  endsAt : ℕ := 0
  decisionCount : ℕ := 0
  tradeCount : ℕ := 0
  netPnl : Json := .decimal 0
  reviewedDecisions : List ReviewedDecision := []
  factorAttributions : List AttributionItem := []
  errorClusters : List ErrorEvent := []
  patterns : List DailyPattern := []
  candidateLessons : List DailyLesson := []
  status : String := "COMPLETED"

/-- What the weekly review reads of `to_dict()`: an attribution that is no dictionary is
passed over. -/
def DailyReviewResult.toReport (r : DailyReviewResult) : DailyReport where
  reviewId := r.reviewId
  periodId := r.periodId
  netPnl := r.netPnl
  tradeCount := r.tradeCount
  decisionCount := r.decisionCount
  candidateLessons := r.candidateLessons
  patterns := r.patterns
  factorAttributions := r.factorAttributions.filterMap (fun item =>
    match item with
    | .dict attribution => some attribution
    | .object _ => none)
  errorClusters := r.errorClusters.map (·.category)

structure DailyReviewPipeline where
  lessonEngine : LessonEngine := {}
  /-- The periods of the completed keys. -/
  completedKeys : List PeriodId := []

/-- The attribution of a decision. -/
def ReviewedDecision.attribution (reviewId : ReviewId) (d : ReviewedDecision) : FactorAttributionResult :=
  buildAttributionEvidenceBased ("attr_" ++ d.decisionId) reviewId d.evidence d.decisionQuality d.outcomeQuality

def DailyReviewPipeline.run (p : DailyReviewPipeline) (reviewId : ReviewId) (periodId : PeriodId) (startsAt endsAt : ℕ)
    (decisions : List ReviewedDecision) : DailyReviewResult × DailyReviewPipeline :=
  if periodId ∈ p.completedKeys then ({ reviewId, periodId, status := "ALREADY_COMPLETED" }, p)
  else
    let errors := decisions.filterMap ReviewedDecision.error
    let patterns := extractPatterns errors
    let (lessons, lessonEngine) := p.lessonEngine.lessons patterns
    ({ reviewId := reviewId
       periodId := periodId
       startsAt := startsAt
       endsAt := endsAt
       decisionCount := decisions.length
       tradeCount := decisions.countP ReviewedDecision.trade
       reviewedDecisions := decisions
       factorAttributions := decisions.map (fun d => .ofResult (d.attribution reviewId))
       errorClusters := errors
       patterns := patterns.map PatternCandidate.toDict
       candidateLessons := lessons },
     { lessonEngine := lessonEngine, completedKeys := p.completedKeys ++ [periodId] })

end CryptoTrader
