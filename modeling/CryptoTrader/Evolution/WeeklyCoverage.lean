import CryptoTrader.Evolution.DailyPipeline
import CryptoTrader.Evolution.LessonLifecycle

/-!
# The weekly review of the daily pipeline

The pipeline hands its attributions to the weekly review as objects, and its patterns without
an entry `avoidable`; the review passes over the former and takes the latter for unavoidable.
So it sees what the pipeline found exactly if there is nothing of the kind to see
(`weekly_sees_iff`). Lessons are confirmed as they should be.
-/

namespace CryptoTrader

open KeyedTable Dict

/-! ### A week of runs -/

/-- A day of the week, and the arguments of its run. -/
structure PipelineDay where
  day : ℕ
  reviewId : ReviewId
  startsAt : ℕ := 0
  endsAt : ℕ := 0
  decisions : List ReviewedDecision

/-- One run for each day, one after the other. -/
def DailyReviewPipeline.runDays (p : DailyReviewPipeline) : List PipelineDay → List DailyReviewResult
  | [] => []
  | d :: days =>
    let (result, p) := p.run d.reviewId (.day d.day) d.startsAt d.endsAt d.decisions
    result :: p.runDays days

structure PipelineWeek where
  reviewId : ReviewId
  periodId : PeriodId
  startsAt : ℕ
  endsAt : ℕ
  days : List PipelineDay
  distinct : (days.map PipelineDay.day).Nodup

/-- The weekly review of what a new pipeline made of the days. -/
def PipelineWeek.review (W : PipelineWeek) : WeeklyReviewResult :=
  weeklyReview W.reviewId W.periodId W.startsAt W.endsAt
    ((DailyReviewPipeline.runDays {} W.days).map DailyReviewResult.toReport)

namespace PipelineDay

variable (d : PipelineDay)

def attributions : List FactorAttributionResult :=
  d.decisions.map (ReviewedDecision.attribution d.reviewId)

def errors : List ErrorEvent := d.decisions.filterMap ReviewedDecision.error

/-- How often a category is mined. -/
def mined (category : String) : ℕ := d.errors.countP (fun e => e.category = category)

/-- How often a category is mined as avoidable. -/
def avoidable (category : String) : ℕ := d.errors.countP (fun e => e.category = category ∧ e.avoidable)

end PipelineDay

/-- A recurrence has the distinct days and the total of every label of the days. -/
def CountsAll (labels : PipelineDay → List String) (days : List PipelineDay) (recurrence : Dict String Recurrence) : Prop :=
  ∀ label,
    let total := (days.map (fun d => (labels d).count label)).sum
    recurrence.get label = if total = 0 then none else some ⟨days.countP (fun d => label ∈ labels d), total⟩

/-- The weekly review sees what the daily pipeline produced. -/
structure WeeklySees (W : PipelineWeek) : Prop where
  issues : CountsAll (fun d => d.attributions.flatMap (·.healthIssues)) W.days W.review.factorIssueRecurrence
  conflicts : CountsAll (fun d => d.attributions.flatMap (·.conflicts)) W.days W.review.factorConflictRecurrence
  calibration : ∀ outcome, outcome ≠ "" → (W.review.confidenceCalibration.get outcome).elim 0 Calibration.count =
    (W.days.map (fun d => d.attributions.countP (fun a => a.outcomeQuality = outcome ∧ a.confidence.float?.isSome))).sum
  avoidable : ∀ d ∈ W.days, ∀ category, 2 ≤ d.avoidable category →
    ∃ p ∈ W.review.repeatAvoidableErrorPatterns, p.patternType = category
  confirmed : ∀ d₁ ∈ W.days, ∀ d₂ ∈ W.days, d₁.day ≠ d₂.day → ∀ category, 2 ≤ d₁.mined category → 2 ≤ d₂.mined category →
    ∃ l ∈ W.review.confirmedLessons, l.canonicalStatement = statementOf category

/-- The decision has no factors, or no outcome quality and only usable factors that do not
contradict each other. -/
def ReviewedDecision.Plain (d : ReviewedDecision) : Prop :=
  d.evidence.factors = [] ∨ (d.outcomeQuality = "" ∧ (∀ f ∈ d.evidence.factors, f.2.Usable) ∧
    ¬ ((∃ f ∈ d.evidence.factors, f.2.stance d.evidence.action = .supporting) ∧
      ∃ f ∈ d.evidence.factors, f.2.stance d.evidence.action = .opposing))

/-- All decisions are plain, and no avoidable error is made twice. -/
def PipelineDay.Plain (d : PipelineDay) : Prop :=
  (∀ x ∈ d.decisions, x.Plain) ∧ ∀ category, d.avoidable category < 2

/-! ### The loop over the factors -/

namespace AttributionLoop

variable (st : AttributionLoop)

lemma contribute_keeps (name : String) (contribution : Json) :
    (st.contribute name contribution).supporting = st.supporting ∧ (st.contribute name contribution).opposing = st.opposing ∧
      (st.contribute name contribution).healthIssues = st.healthIssues ∧
      (st.contribute name contribution).usableRequired = st.usableRequired := by
  unfold contribute
  split
  · exact ⟨rfl, rfl, rfl, rfl⟩
  · split
    · exact ⟨rfl, rfl, rfl, rfl⟩
    · dsimp only
      split <;> exact ⟨rfl, rfl, rfl, rfl⟩

lemma place_spec (name : String) (stance : FactorStance) :
    (st.place name stance).healthIssues = st.healthIssues ∧ (st.place name stance).usableRequired = st.usableRequired ∧
      (st.place name stance).supporting = st.supporting ++ (if stance = .supporting then [name] else []) ∧
      (st.place name stance).opposing = st.opposing ++ (if stance = .opposing then [name] else []) := by
  cases stance <;> simp [place]

lemma turn_unusable {direction name : String} {entry : FactorEntry} (h : ¬ entry.Usable) :
    st.turn direction (name, entry) = { st with healthIssues := st.healthIssues ++ [name ++ ":" ++ entry.status] } :=
  if_pos h

lemma turn_usable (direction name : String) {entry : FactorEntry} (h : entry.Usable) :
    let st' := st.turn direction (name, entry)
    st'.healthIssues = st.healthIssues ∧ st'.usableRequired = st.usableRequired + 1 ∧
      st'.supporting = st.supporting ++ (if entry.stance direction = .supporting then [name] else []) ∧
      st'.opposing = st.opposing ++ (if entry.stance direction = .opposing then [name] else []) := by
  intro st'
  obtain ⟨hsupporting, hopposing, hissues, husable⟩ :=
    ({ st with usableRequired := st.usableRequired + 1 } : AttributionLoop).contribute_keeps name entry.contribution
  simp only [st', turn, not_not.mpr h, if_false]
  generalize ({ st with usableRequired := st.usableRequired + 1 } : AttributionLoop).contribute name entry.contribution = st₁
    at hsupporting hopposing hissues husable
  dsimp only at hsupporting hopposing hissues husable
  rw [← hsupporting, ← hopposing, ← hissues, ← husable]
  by_cases hsemantics : entry.directionSemantics = ""
  · rw [if_pos hsemantics]
    exact st₁.place_spec name _
  · rw [if_neg hsemantics]
    exact place_spec _ name _

lemma healthIssues_foldl (direction : String) (factors : List (String × FactorEntry)) :
    (factors.foldl (turn direction) st).healthIssues = st.healthIssues ++
      (factors.filter (fun f => ¬ f.2.Usable)).map (fun f => f.1 ++ ":" ++ f.2.status) := by
  induction factors generalizing st with
  | nil => simp
  | cons f factors ih =>
    rw [List.foldl_cons, ih]
    by_cases husable : f.2.Usable
    · rw [(st.turn_usable direction f.1 husable).1, List.filter_cons_of_neg (by simpa using husable)]
    · rw [st.turn_unusable husable, List.filter_cons_of_pos (by simpa using husable), List.map_cons, List.append_assoc]
      rfl

lemma sides_foldl (direction : String) {factors : List (String × FactorEntry)} (h : ∀ f ∈ factors, f.2.Usable) :
    let st' := factors.foldl (turn direction) st
    st'.usableRequired = st.usableRequired + factors.length ∧
      (st'.supporting ≠ [] ↔ st.supporting ≠ [] ∨ ∃ f ∈ factors, f.2.stance direction = .supporting) ∧
      (st'.opposing ≠ [] ↔ st.opposing ≠ [] ∨ ∃ f ∈ factors, f.2.stance direction = .opposing) := by
  induction factors generalizing st with
  | nil => simp
  | cons f factors ih =>
    obtain ⟨-, hcount, hsupporting, hopposing⟩ := st.turn_usable direction f.1 (h f (by simp))
    obtain ⟨ihcount, ihsupporting, ihopposing⟩ := ih (st.turn direction f) (fun g hg => h g (List.mem_cons_of_mem _ hg))
    refine ⟨?_, ?_, ?_⟩
    · rw [List.foldl_cons, ihcount, hcount, List.length_cons]
      omega
    · rw [List.foldl_cons, ihsupporting, hsupporting]
      by_cases hs : f.2.stance direction = .supporting <;> simp [hs]
    · rw [List.foldl_cons, ihopposing, hopposing]
      by_cases hs : f.2.stance direction = .opposing <;> simp [hs]

end AttributionLoop

/-! ### One attribution -/

namespace ReviewedDecision

variable (reviewId : ReviewId) (d : ReviewedDecision)

lemma healthIssues_eq_nil_iff : (d.attribution reviewId).healthIssues = [] ↔ ∀ f ∈ d.evidence.factors, f.2.Usable := by
  have hissues : (d.attribution reviewId).healthIssues = (attributionLoop d.evidence).healthIssues := rfl
  rw [hissues, attributionLoop, AttributionLoop.healthIssues_foldl]
  simp

lemma conflicts_eq_nil_iff (h : ∀ f ∈ d.evidence.factors, f.2.Usable) : (d.attribution reviewId).conflicts = [] ↔
    ¬ ((∃ f ∈ d.evidence.factors, f.2.stance d.evidence.action = .supporting) ∧
      ∃ f ∈ d.evidence.factors, f.2.stance d.evidence.action = .opposing) := by
  obtain ⟨-, hsupporting, hopposing⟩ := AttributionLoop.sides_foldl {} d.evidence.action h
  have hconflicts : (d.attribution reviewId).conflicts = (attributionLoop d.evidence).conflicts := rfl
  rw [hconflicts, AttributionLoop.conflicts, attributionLoop]
  simp only [hsupporting, hopposing]
  simp

/-- Without factors there is no confidence; with usable ones that do not contradict each other
there is. -/
lemma confidence_isSome_iff (h : ∀ f ∈ d.evidence.factors, f.2.Usable) (hconflicts : (d.attribution reviewId).conflicts = []) :
    (d.attribution reviewId).confidence.float?.isSome ↔ d.evidence.factors ≠ [] := by
  have hconfidence : (d.attribution reviewId).confidence =
      (attributionLoop d.evidence).confidence d.evidence.factors.length := rfl
  have hnone : (attributionLoop d.evidence).conflicts = [] := hconflicts
  have hcount : (attributionLoop d.evidence).usableRequired = d.evidence.factors.length := by
    have hfold := (AttributionLoop.sides_foldl {} d.evidence.action h).1
    rwa [zero_add] at hfold
  rw [hconfidence, AttributionLoop.confidence, AttributionLoop.raw, hnone, hcount]
  by_cases hfactors : d.evidence.factors = []
  · simp [hfactors, Json.float?]
  · have hpos : (0 : ℚ) < d.evidence.factors.length := by
      rw [Nat.cast_pos]
      exact List.length_pos_of_ne_nil hfactors
    have hsemantic : (0 : ℚ) ≤ (attributionLoop d.evidence).semanticKnown / d.evidence.factors.length := by positivity
    have hcontributed : (0 : ℚ) ≤ (attributionLoop d.evidence).contributions.length / d.evidence.factors.length := by
      positivity
    rw [div_self hpos.ne', if_neg]
    · simp [Json.float?, hfactors]
    · rw [not_or, not_lt, List.length_nil, Nat.cast_zero, List.length_eq_zero_iff]
      exact ⟨hfactors, by linarith⟩

/-- What the weekly review cannot see of a decision is nothing exactly if the decision is
plain. -/
lemma plain_iff : d.Plain ↔ (d.attribution reviewId).healthIssues = [] ∧ (d.attribution reviewId).conflicts = [] ∧
    ¬ (d.outcomeQuality ≠ "" ∧ (d.attribution reviewId).confidence.float?.isSome) := by
  rw [healthIssues_eq_nil_iff]
  unfold Plain
  constructor
  · rintro (hfactors | ⟨houtcome, husable, hsides⟩)
    · have husable : ∀ f ∈ d.evidence.factors, f.2.Usable := by simp [hfactors]
      have hconflicts : (d.attribution reviewId).conflicts = [] := by
        rw [conflicts_eq_nil_iff reviewId d husable]
        simp [hfactors]
      refine ⟨husable, hconflicts, fun h => ?_⟩
      exact (confidence_isSome_iff reviewId d husable hconflicts).mp h.2 hfactors
    · exact ⟨husable, (conflicts_eq_nil_iff reviewId d husable).mpr hsides, fun h => h.1 houtcome⟩
  · rintro ⟨husable, hconflicts, hcalibrated⟩
    by_cases hfactors : d.evidence.factors = []
    · exact .inl hfactors
    · have hconfidence := (confidence_isSome_iff reviewId d husable hconflicts).mpr hfactors
      have houtcome : d.outcomeQuality = "" := not_not.mp (fun h => hcalibrated ⟨h, hconfidence⟩)
      exact .inr ⟨houtcome, husable, (conflicts_eq_nil_iff reviewId d husable).mp hconflicts⟩

end ReviewedDecision

/-! ### Patterns and lessons of a day -/

lemma get_categoryDecisions (errors : List ErrorEvent) (category : String) :
    ((categoryDecisions errors).get category).getD [] =
      (errors.filter (fun e => e.category = category)).map ErrorEvent.decisionId :=
  get_foldl_push ErrorEvent.category ErrorEvent.decisionId errors category []

lemma mem_extractPatterns {errors : List ErrorEvent} {category : String}
    (h : 2 ≤ errors.countP (fun e => e.category = category)) :
    ∃ p ∈ extractPatterns errors, p.patternType = category := by
  have hids := congrArg List.length (get_categoryDecisions errors category)
  rw [List.length_map, ← List.countP_eq_length_filter] at hids
  cases hget : (categoryDecisions errors).get category with
  | none =>
    rw [hget] at hids
    simp at hids
    omega
  | some ids =>
    rw [hget, Option.getD_some] at hids
    refine ⟨categoryPattern category ids, List.mem_filterMap.mpr ⟨(category, ids), mem_of_get hget, ?_⟩, rfl⟩
    exact if_pos (by omega)

lemma patternType_mem {errors : List ErrorEvent} {p : PatternCandidate} (h : p ∈ extractPatterns errors) :
    p.patternType ∈ errors.map ErrorEvent.category := by
  obtain ⟨e, he, hp⟩ := List.mem_filterMap.mp h
  dsimp only at hp
  split at hp
  · obtain rfl := Option.some.inj hp
    exact (mem_foldl_alter ErrorEvent.category _ he).resolve_right (by simp)
  · simp at hp

/-- Without a memory gateway every pattern has a lesson. -/
lemma lessons_eq (patterns : List PatternCandidate) :
    LessonEngine.lessons {} patterns = (patterns.map (fun p => (deriveFromPattern p).toDict), {}) := by
  unfold LessonEngine.lessons LessonEngine.deduplicate
  induction patterns using List.reverseRecOn with
  | nil => rfl
  | append_singleton patterns p ih => rw [List.foldl_append, ih, List.map_append]; rfl

/-- What a new pipeline makes of a day. -/
def PipelineDay.result (d : PipelineDay) : DailyReviewResult :=
  (DailyReviewPipeline.run {} d.reviewId (.day d.day) d.startsAt d.endsAt d.decisions).1

/-- The runs of the days do not depend on each other. -/
lemma runDays_eq {keys : List PeriodId} {days : List PipelineDay} (hdays : (days.map PipelineDay.day).Nodup)
    (hkeys : ∀ d ∈ days, PeriodId.day d.day ∉ keys) :
    DailyReviewPipeline.runDays { completedKeys := keys } days = days.map PipelineDay.result := by
  induction days generalizing keys with
  | nil => rfl
  | cons d days ih =>
    obtain ⟨hfirst, hrest⟩ := List.nodup_cons.mp hdays
    have hrun : DailyReviewPipeline.run { completedKeys := keys } d.reviewId (.day d.day) d.startsAt d.endsAt d.decisions =
        (d.result, { completedKeys := keys ++ [.day d.day] }) := by
      unfold PipelineDay.result DailyReviewPipeline.run
      simp [hkeys d (by simp), lessons_eq]
    have hnew : ∀ d' ∈ days, PeriodId.day d'.day ∉ keys ++ [.day d.day] := by
      intro d' hd' hmem
      rcases List.mem_append.mp hmem with hmem | hmem
      · exact hkeys d' (List.mem_cons_of_mem _ hd') hmem
      · have hday : d'.day = d.day := by simpa using hmem
        exact hfirst (hday ▸ List.mem_map_of_mem hd')
    rw [DailyReviewPipeline.runDays, hrun, List.map_cons]
    dsimp only
    rw [ih hrest hnew]

/-! ### What reaches the weekly review -/

lemma report_attributions (d : PipelineDay) : d.result.toReport.factorAttributions = [] := by
  have hitems : d.result.factorAttributions = d.attributions.map AttributionItem.object := by
    rw [PipelineDay.attributions, List.map_map]
    rfl
  rw [DailyReviewResult.toReport, hitems]
  simp

lemma report_patterns (d : PipelineDay) : d.result.toReport.patterns = (extractPatterns d.errors).map PatternCandidate.toDict :=
  rfl

lemma report_lessons (d : PipelineDay) :
    d.result.toReport.candidateLessons = (extractPatterns d.errors).map (fun p => (deriveFromPattern p).toDict) :=
  congrArg Prod.fst (lessons_eq (extractPatterns d.errors))

lemma report_periodId (d : PipelineDay) : d.result.toReport.periodId = .day d.day :=
  rfl

lemma category_toUpper {d : ReviewedDecision} {e : ErrorEvent} (h : d.error = some e) :
    e.category.toUpper ≠ "AVOIDABLE_ERROR" := by
  have hcategory : e.category ∈
      ["RULE_VIOLATION", "FACTOR_CONFLICT", "SIGNAL_ERROR", "BAD_DECISION_GOOD_OUTCOME", "MARKET_SHOCK"] := by
    obtain ⟨mined, hmined, rfl⟩ := Option.map_eq_some_iff.mp h
    unfold mineError at hmined
    split_ifs at hmined <;> obtain rfl := Option.some.inj hmined <;> simp
  revert hcategory
  generalize e.category = category
  revert category
  decide +kernel

namespace PipelineWeek

variable (W : PipelineWeek)

/-- The reports that the weekly review goes through. -/
def reports : List DailyReport :=
  dedupeChildReviews DailyReport.key (W.days.map (fun d => d.result.toReport))

lemma mem_reports {r : DailyReport} : r ∈ W.reports ↔ ∃ d ∈ W.days, d.result.toReport = r := by
  have hdistinct : ((W.days.map (fun d => d.result.toReport)).map (fun r => (DailyReport.key r).1)).Nodup := by
    rw [List.map_map]
    have hlabels : W.days.map ((fun r => (DailyReport.key r).1) ∘ fun d => d.result.toReport) =
        (W.days.map PipelineDay.day).map PeriodId.day := by
      rw [List.map_map]
      apply List.map_congr_left
      intro d _
      exact report_periodId d
    rw [hlabels]
    exact W.distinct.map (fun _ _ h => PeriodId.day.inj h)
  rw [reports, (dedupe_perm hdistinct).mem_iff, List.mem_map]

lemma review_eq : W.review = weeklyReview W.reviewId W.periodId W.startsAt W.endsAt (W.days.map (fun d => d.result.toReport)) := by
  rw [review, runDays_eq W.distinct (by simp), List.map_map]
  rfl

lemma review_attributions (field : DailyAttribution → List String) :
    attributionRecurrence field W.reports = [] ∧ confidenceCalibration W.reports = [] := by
  have hnone : ∀ r ∈ W.reports, r.factorAttributions = [] := by
    intro r hr
    obtain ⟨d, -, rfl⟩ := (W.mem_reports).mp hr
    exact report_attributions d
  have hall : W.reports.flatMap (·.factorAttributions) = [] := List.flatMap_eq_nil_iff.mpr hnone
  have hlabels : W.reports.flatMap (fun r => (r.factorAttributions.flatMap field).map (r.periodId, ·)) = [] := by
    rw [List.flatMap_eq_nil_iff]
    intro r hr
    rw [hnone r hr]
    rfl
  rw [attributionRecurrence, hlabels, confidenceCalibration, hall]
  exact ⟨rfl, rfl⟩

lemma review_avoidable : W.review.repeatAvoidableErrorPatterns = [] := by
  have hpatterns : W.review.repeatAvoidableErrorPatterns = (W.reports.flatMap (·.patterns)).filter isRepeatAvoidable := by
    rw [review_eq]
    rfl
  rw [hpatterns, List.filter_eq_nil_iff]
  intro pattern hpattern
  obtain ⟨r, hr, hmem⟩ := List.mem_flatMap.mp hpattern
  obtain ⟨d, -, rfl⟩ := (W.mem_reports).mp hr
  rw [report_patterns] at hmem
  obtain ⟨p, hp, rfl⟩ := List.mem_map.mp hmem
  obtain ⟨e, he, hcategory⟩ := List.mem_map.mp (patternType_mem hp)
  obtain ⟨x, -, hx⟩ := List.mem_filterMap.mp he
  have hupper : p.patternType.toUpper ≠ "AVOIDABLE_ERROR" := hcategory ▸ category_toUpper hx
  simp [isRepeatAvoidable, PatternCandidate.toDict, hupper]

end PipelineWeek

/-! ### Lessons of two days -/

/-- What is collected of lessons of one statement that nothing contradicts. -/
structure Collected (statement : String) (lessons : List (PeriodId × DailyLesson)) (e : LessonEntry) : Prop where
  lesson : e.lesson.canonicalStatement = statement
  days : ∀ l ∈ lessons, l.1 ∈ e.days
  uncontradicted : e.contradictionDays = 0

lemma collected (statement : String) {lessons : List (PeriodId × DailyLesson)} (hne : lessons ≠ [])
    (h : ∀ l ∈ lessons, l.2.canonicalStatement = statement ∧ l.2.contradictions.dec = 0 ∧ l.2.supportingDecisions.dec = 0) :
    ∃ e, lessons.foldl (fun e l => some (takeLesson l e)) none = some e ∧ Collected statement lessons e := by
  obtain ⟨e, he, htally⟩ := exists_tally hne
  refine ⟨e, he, ?_, ?_, ?_⟩
  · obtain ⟨l, hl, heq⟩ := List.mem_map.mp htally.lesson
    rw [← heq]
    exact (h l hl).1
  · intro l hl
    rw [← List.mem_toFinset, htally.days, daysOf, List.mem_toFinset]
    exact List.mem_map_of_mem hl
  · rw [htally.contradictionDays, List.countP_eq_zero]
    intro l hl hcontradicted
    have hlt : l.2.supportingDecisions.dec < l.2.contradictions.dec := of_decide_eq_true hcontradicted
    rw [(h l hl).2.1, (h l hl).2.2] at hlt
    exact lt_irrefl 0 hlt

lemma Collected.confirmed {statement : String} {lessons : List (PeriodId × DailyLesson)} {e : LessonEntry}
    (h : Collected statement lessons e) {l₁ l₂ : PeriodId × DailyLesson} (h₁ : l₁ ∈ lessons) (h₂ : l₂ ∈ lessons)
    (hne : l₁.1 ≠ l₂.1) : e.status = "CONFIRMED" := by
  have hlength : 2 ≤ e.days.length := by
    have hday₁ := h.days l₁ h₁
    have hday₂ := h.days l₂ h₂
    cases hdays : e.days with
    | nil => simp [hdays] at hday₁
    | cons day days =>
      cases days with
      | nil =>
        rw [hdays, List.mem_singleton] at hday₁ hday₂
        exact absurd (hday₁.trans hday₂.symm) hne
      | cons => simp
  unfold LessonEntry.status
  rw [h.uncontradicted, if_neg (by omega), if_pos hlength]

namespace PipelineWeek

variable (W : PipelineWeek)

/-- A category mined twice on each of two days ends as a confirmed lesson. -/
lemma review_confirmed {d₁ d₂ : PipelineDay} (h₁ : d₁ ∈ W.days) (h₂ : d₂ ∈ W.days) (hne : d₁.day ≠ d₂.day)
    {category : String} (hmined₁ : 2 ≤ d₁.mined category) (hmined₂ : 2 ≤ d₂.mined category) :
    ∃ l ∈ W.review.confirmedLessons, l.canonicalStatement = statementOf category := by
  generalize hall : W.reports.flatMap (fun r => r.candidateLessons.map (r.periodId, ·)) = lessons
  have hentries : W.review.confirmedLessons = lessonsWith "CONFIRMED" (lessons.foldl (fun entries l =>
      entries.alter l.2.canonicalStatement (takeLesson l)) []) := by
    rw [review_eq, ← hall]
    rfl
  have hmem {l : PeriodId × DailyLesson} : l ∈ lessons ↔
      ∃ d ∈ W.days, ∃ p ∈ extractPatterns d.errors, (.day d.day, (deriveFromPattern p).toDict) = l := by
    rw [← hall, List.mem_flatMap]
    constructor
    · rintro ⟨r, hr, hl⟩
      obtain ⟨d, hd, rfl⟩ := (W.mem_reports).mp hr
      rw [report_lessons, List.map_map] at hl
      obtain ⟨p, hp, rfl⟩ := List.mem_map.mp hl
      exact ⟨d, hd, p, hp, rfl⟩
    · rintro ⟨d, hd, p, hp, rfl⟩
      refine ⟨d.result.toReport, (W.mem_reports).mpr ⟨d, hd, rfl⟩, ?_⟩
      rw [report_lessons, List.map_map]
      exact List.mem_map_of_mem hp
  -- what the entry of the statement is made of
  generalize hsame : lessons.filter (fun l => l.2.canonicalStatement = statementOf category) = same
  have hfound {d : PipelineDay} (hd : d ∈ W.days) (hmined : 2 ≤ d.mined category) : ∃ l ∈ same, l.1 = .day d.day := by
    obtain ⟨p, hp, rfl⟩ := mem_extractPatterns hmined
    refine ⟨(.day d.day, (deriveFromPattern p).toDict), ?_, rfl⟩
    rw [← hsame, List.mem_filter]
    exact ⟨hmem.mpr ⟨d, hd, p, hp, rfl⟩, decide_eq_true rfl⟩
  obtain ⟨l₁, hl₁, hday₁⟩ := hfound h₁ hmined₁
  obtain ⟨l₂, hl₂, hday₂⟩ := hfound h₂ hmined₂
  obtain ⟨e, he, hcollected⟩ := collected (statementOf category) (List.ne_nil_of_mem hl₁) (by
    intro l hl
    rw [← hsame, List.mem_filter] at hl
    obtain ⟨d, -, p, -, rfl⟩ := hmem.mp hl.1
    exact ⟨of_decide_eq_true hl.2, rfl, rfl⟩)
  have hget := get_foldl_alter (fun l : PeriodId × DailyLesson => l.2.canonicalStatement) takeLesson lessons
    (statementOf category) []
  rw [hsame, Dict.get_nil, he] at hget
  have hstatus : e.status = "CONFIRMED" := by
    apply hcollected.confirmed hl₁ hl₂
    rw [hday₁, hday₂]
    exact fun h => hne (PeriodId.day.inj h)
  refine ⟨{ e.lesson with status := "CONFIRMED" }, ?_, hcollected.lesson⟩
  rw [hentries, lessonsWith]
  exact List.mem_map.mpr ⟨(statementOf category, e), List.mem_filter.mpr ⟨mem_of_get hget, decide_eq_true hstatus⟩, rfl⟩

end PipelineWeek

/-! ### The review of a week -/

lemma countsAll_nil_iff {labels : PipelineDay → List String} {days : List PipelineDay} :
    CountsAll labels days [] ↔ ∀ d ∈ days, labels d = [] := by
  unfold CountsAll
  simp only [Dict.get_nil]
  constructor
  · intro h d hd
    rw [List.eq_nil_iff_forall_not_mem]
    intro label hlabel
    have htotal : (days.map (fun d => (labels d).count label)).sum = 0 := by
      by_contra hne
      simpa [hne] using h label
    rw [List.sum_eq_zero_iff_forall_eq_nat] at htotal
    exact List.count_eq_zero.mp (htotal _ (List.mem_map_of_mem hd)) hlabel
  · intro h label
    rw [if_pos]
    rw [List.sum_eq_zero_iff_forall_eq_nat]
    intro n hn
    obtain ⟨d, hd, rfl⟩ := List.mem_map.mp hn
    rw [h d hd, List.count_nil]

namespace PipelineWeek

variable (W : PipelineWeek)

lemma counts_iff (field : FactorAttributionResult → List String) :
    CountsAll (fun d => d.attributions.flatMap field) W.days [] ↔
      ∀ d ∈ W.days, ∀ x ∈ d.decisions, field (x.attribution d.reviewId) = [] := by
  rw [countsAll_nil_iff]
  simp only [List.flatMap_eq_nil_iff, PipelineDay.attributions, List.forall_mem_map]

lemma calibrates_iff : (∀ outcome, outcome ≠ "" → 0 = (W.days.map (fun d => d.attributions.countP
      (fun a => a.outcomeQuality = outcome ∧ a.confidence.float?.isSome))).sum) ↔
    ∀ d ∈ W.days, ∀ x ∈ d.decisions, ¬ (x.outcomeQuality ≠ "" ∧ (x.attribution d.reviewId).confidence.float?.isSome) := by
  constructor
  · rintro h d hd x hx ⟨houtcome, hconfidence⟩
    have htotal := (h x.outcomeQuality houtcome).symm
    rw [List.sum_eq_zero_iff_forall_eq_nat] at htotal
    have hcount := htotal _ (List.mem_map_of_mem hd)
    rw [List.countP_eq_zero] at hcount
    exact hcount (x.attribution d.reviewId) (List.mem_map_of_mem hx) (decide_eq_true ⟨rfl, hconfidence⟩)
  · intro h outcome houtcome
    symm
    rw [List.sum_eq_zero_iff_forall_eq_nat]
    intro n hn
    obtain ⟨d, hd, rfl⟩ := List.mem_map.mp hn
    rw [List.countP_eq_zero]
    intro a ha hcounted
    obtain ⟨x, hx, rfl⟩ := List.mem_map.mp ha
    obtain ⟨hquality, hconfidence⟩ := of_decide_eq_true hcounted
    have hsame : x.outcomeQuality = outcome := hquality
    exact h d hd x hx ⟨hsame ▸ houtcome, hconfidence⟩

end PipelineWeek

/-- The weekly review sees what the daily pipeline produced exactly if every decision is plain,
and no avoidable error is made twice on one day. -/
theorem weekly_sees_iff (W : PipelineWeek) : WeeklySees W ↔ ∀ d ∈ W.days, d.Plain := by
  have hissues : W.review.factorIssueRecurrence = [] := by
    rw [W.review_eq]
    exact (W.review_attributions _).1
  have hconflicts : W.review.factorConflictRecurrence = [] := by
    rw [W.review_eq]
    exact (W.review_attributions _).1
  have hcalibration : W.review.confidenceCalibration = [] := by
    rw [W.review_eq]
    exact (W.review_attributions (·.conflicts)).2
  constructor
  · rintro ⟨issues, conflicts, calibration, avoidable, -⟩ d hd
    rw [hissues, W.counts_iff] at issues
    rw [hconflicts, W.counts_iff] at conflicts
    rw [hcalibration] at calibration
    have hcalibrated := W.calibrates_iff.mp calibration
    refine ⟨fun x hx => (x.plain_iff d.reviewId).mpr ⟨issues d hd x hx, conflicts d hd x hx, hcalibrated d hd x hx⟩, ?_⟩
    intro category
    by_contra hle
    obtain ⟨p, hp, -⟩ := avoidable d hd category (not_lt.mp hle)
    rw [W.review_avoidable] at hp
    exact List.not_mem_nil hp
  · intro h
    have hplain {d : PipelineDay} (hd : d ∈ W.days) {x : ReviewedDecision} (hx : x ∈ d.decisions) :=
      (x.plain_iff d.reviewId).mp ((h d hd).1 x hx)
    constructor
    · rw [hissues, W.counts_iff]
      exact fun d hd x hx => (hplain hd hx).1
    · rw [hconflicts, W.counts_iff]
      exact fun d hd x hx => (hplain hd hx).2.1
    · rw [hcalibration]
      exact W.calibrates_iff.mpr (fun d hd x hx => (hplain hd hx).2.2)
    · intro d hd category hmined
      exact absurd ((h d hd).2 category) (not_lt.mpr hmined)
    · exact fun d₁ h₁ d₂ h₂ hne category hm₁ hm₂ => W.review_confirmed h₁ h₂ hne hm₁ hm₂

/-- A decision on a stale factor, the only one of the week. -/
def staleWeek : PipelineWeek where
  reviewId := .period .weekly (.week 2026 35)
  periodId := .week 2026 35
  startsAt := 0
  endsAt := 0
  days := [{
    day := 739852
    reviewId := .daily "r1"
    decisions := [{ decisionId := "d1", evidence := { factors := [("rsi", { status := "STALE" })] } }] }]
  distinct := by simp

/-- The weekly review does not see the issue. -/
theorem stale_factor_unseen : ¬ WeeklySees staleWeek := by
  intro h
  have hseen := h.issues "rsi:STALE"
  revert hseen
  decide +kernel

end CryptoTrader
