import CryptoTrader.Evolution.HierarchicalEngine

/-!
# From the weekly to the monthly review

The monthly review looks in the stored weekly reports for `factor_quality` and for the two
quality summaries. The weekly review stores what it found as `factor_consistency` and
`strategy_consistency`, and leaves the summaries empty. So the monthly review uses no
quality entry of any daily report (`monthly_uses_weekly`), and every factor it hears
of looks unused.
-/

namespace CryptoTrader

/-- A week with its daily reports. -/
structure ReviewedWeek where
  reviewId : ReviewId
  periodId : PeriodId
  startsAt : ℕ
  endsAt : ℕ
  dailyReviews : List DailyReport

/-- A month with its weeks. -/
structure ReviewedMonth where
  reviewId : ReviewId
  periodId : PeriodId
  startsAt : ℕ
  endsAt : ℕ
  weeks : List ReviewedWeek

namespace ReviewedWeek

def weekly (w : ReviewedWeek) : WeeklyReviewResult :=
  weeklyReview w.reviewId w.periodId w.startsAt w.endsAt w.dailyReviews

/-- Some daily report of the week has a quality entry for the factor. -/
def uses (factor : String) (w : ReviewedWeek) : Bool :=
  w.dailyReviews.any (fun d => factor ∈ d.factorQuality.map Prod.fst)

/-- How often a field of the attributions names the factor. -/
def mentions (field : DailyAttribution → List String) (factor : String) (w : ReviewedWeek) : ℕ :=
  ((w.dailyReviews.flatMap (·.factorAttributions)).flatMap field).count factor

end ReviewedWeek

namespace ReviewedMonth

variable (sqrt : ℚ → ℚ) (M : ReviewedMonth)

/-- The monthly review of the stored weekly reports. -/
def monthly : MonthlyReviewResult :=
  monthlyReview sqrt M.reviewId M.periodId M.startsAt M.endsAt (M.weeks.map (fun w => w.weekly.toDict))

def usage (factor : String) : ℕ := M.weeks.countP (ReviewedWeek.uses factor)

def failures (factor : String) : ℕ := (M.weeks.map (ReviewedWeek.mentions (·.healthIssues) factor)).sum

def conflicts (factor : String) : ℕ := (M.weeks.map (ReviewedWeek.mentions (·.conflicts) factor)).sum

/-- The weekly scores of a factor, as the weekly reviews report them. -/
def scores (factor : String) : List ℚ :=
  M.weeks.filterMap (fun w => (w.weekly.factorConsistency.get factor).map (·.mean))

/-- The monthly review uses what the weekly reviews report. -/
structure HandsOver : Prop where
  usage : ∀ factor, ((M.monthly sqrt).factorUsage.get factor).getD 0 = M.usage factor
  stability : ∀ factor, (M.monthly sqrt).factorStability.get factor =
    if M.scores factor = [] then none else some (quantizeThousandth (spread (M.scores factor)))
  strategies : ∀ w ∈ M.weeks, ∀ d ∈ w.dailyReviews, ∀ strategy ∈ d.strategyQuality.map Prod.fst,
    ∃ e ∈ (M.monthly sqrt).strategyEvaluations, strategy ∈ e.entries.map Prod.fst
  kept : ∀ p ∈ (M.monthly sqrt).factorProposals, 0 < M.usage p.factor → M.usage p.factor = M.weeks.length →
    M.failures p.factor = 0 → M.conflicts p.factor = 0 → p.recommendation ≠ .freeze
  notRetired : ∀ p ∈ (M.monthly sqrt).factorProposals, M.failures p.factor < M.usage p.factor →
    p.recommendation ≠ .retireCandidate

/-- No daily report says anything about the quality of a factor or a strategy. -/
def Silent : Prop :=
  ∀ w ∈ M.weeks, ∀ d ∈ w.dailyReviews, d.factorQuality = [] ∧ d.strategyQuality = []

end ReviewedMonth

/-! ### What a stored weekly report lacks -/

lemma mem_dedupe {α : Type} {key : α → PeriodId × ReviewId} {l : List α} {a : α}
    (h : a ∈ dedupeChildReviews key l) : a ∈ l :=
  mem_firsts ((List.mem_insertionSort _).mp h)

lemma toDict_factor_quality (r : WeeklyReviewResult) : r.toDict.get "factor_quality" = .null := by
  rfl

lemma toDict_strategy_summary (r : WeeklyReviewResult) :
    r.toDict.get "strategy_quality_summary" = .dict r.strategyQualitySummary := by
  rfl

namespace ReviewedMonth

variable {sqrt : ℚ → ℚ} {M : ReviewedMonth}

/-- The reports the monthly review aggregates. -/
def children (M : ReviewedMonth) : List StoredReport :=
  dedupeChildReviews StoredReport.key (M.weeks.map (fun w => w.weekly.toDict))

lemma mem_children {r : StoredReport} (h : r ∈ M.children) : ∃ w ∈ M.weeks, w.weekly.toDict = r :=
  List.mem_map.mp (mem_dedupe h)

lemma quality_entries : M.children.flatMap (fun r => (r.get "factor_quality").entries) = [] := by
  rw [List.flatMap_eq_nil_iff]
  intro r hr
  obtain ⟨w, _, rfl⟩ := mem_children hr
  rw [toDict_factor_quality]
  rfl

lemma monthly_usage : (M.monthly sqrt).factorUsage = [] := by
  have h : (M.monthly sqrt).factorUsage = usageOf M.children := rfl
  rw [h, usageOf, quality_entries, List.foldl_nil]

lemma monthly_stability : (M.monthly sqrt).factorStability = [] := by
  have h : (M.monthly sqrt).factorStability = factorStability M.children := rfl
  have hflat : (M.children.map (fun w => (w.get "factor_quality").entries)).flatten = [] := by
    rw [← List.flatMap_def, quality_entries]
  rw [h, factorStability, scoresOf, hflat]
  rfl

lemma monthly_strategies : (M.monthly sqrt).strategyEvaluations = [] := by
  have h : (M.monthly sqrt).strategyEvaluations = summaries "strategy_quality_summary" M.children := rfl
  rw [h, summaries, List.filter_eq_nil_iff]
  intro e he
  obtain ⟨r, hr, rfl⟩ := List.mem_map.mp he
  obtain ⟨w, _, rfl⟩ := mem_children hr
  rw [toDict_strategy_summary]
  exact Bool.false_ne_true

/-- Every factor with an issue or a conflict is proposed to be frozen, however much it is used. -/
lemma monthly_proposals {p : FactorProposal} (hp : p ∈ (M.monthly sqrt).factorProposals) :
    p.usageWeeks = 0 ∧ (0 < p.failures ∨ 0 < p.conflicts → p.recommendation = .freeze) := by
  have h : (M.monthly sqrt).factorProposals =
      factorProposals (M.monthly sqrt).factorUsage (M.monthly sqrt).factorFailureFrequency
        (M.monthly sqrt).factorConflictFrequency (M.monthly sqrt).factorStability (max M.children.length 1) := rfl
  rw [h, monthly_usage, monthly_stability] at hp
  obtain ⟨factor, _, rfl⟩ := List.mem_map.mp hp
  refine ⟨rfl, ?_⟩
  intro hbad
  exact if_pos ⟨rfl, hbad⟩

lemma scores_of_silent (h : M.Silent) (factor : String) : M.scores factor = [] := by
  rw [scores, List.filterMap_eq_nil_iff]
  intro w hw
  have hflat : ((dedupeChildReviews DailyReport.key w.dailyReviews).map (·.factorQuality)).flatten = [] := by
    rw [List.flatten_eq_nil_iff]
    intro l hl
    obtain ⟨d, hd, rfl⟩ := List.mem_map.mp hl
    exact (h w hw d (mem_dedupe hd)).1
  have hcons : w.weekly.factorConsistency =
      consistency (scoresOf ((dedupeChildReviews DailyReport.key w.dailyReviews).map (·.factorQuality))) := rfl
  rw [hcons, scoresOf, hflat]
  rfl

lemma usage_of_silent (h : M.Silent) (factor : String) : M.usage factor = 0 := by
  rw [usage, List.countP_eq_zero]
  intro w hw huses
  obtain ⟨d, hd, hmem⟩ := List.any_eq_true.mp huses
  rw [(h w hw d hd).1] at hmem
  exact absurd (of_decide_eq_true hmem) List.not_mem_nil

end ReviewedMonth

/-- The monthly review uses the weekly reports as it should exactly if there is nothing to use. -/
theorem monthly_uses_weekly (sqrt : ℚ → ℚ) (M : ReviewedMonth) : M.HandsOver sqrt ↔ M.Silent := by
  constructor
  · intro h w hw d hd
    refine ⟨List.eq_nil_iff_forall_not_mem.mpr ?_, List.eq_nil_iff_forall_not_mem.mpr ?_⟩
    · intro e he
      have husage := h.usage e.1
      rw [ReviewedMonth.monthly_usage, Dict.get_nil, Option.getD_none] at husage
      have hpos : 0 < M.usage e.1 := by
        rw [ReviewedMonth.usage, List.countP_pos_iff]
        exact ⟨w, hw, List.any_eq_true.mpr ⟨d, hd, decide_eq_true (List.mem_map_of_mem he)⟩⟩
      omega
    · intro e he
      obtain ⟨_, hmem, -⟩ := h.strategies w hw d hd e.1 (List.mem_map_of_mem he)
      rw [ReviewedMonth.monthly_strategies] at hmem
      exact absurd hmem List.not_mem_nil
  · intro h
    refine ⟨?_, ?_, ?_, ?_, ?_⟩
    · intro factor
      rw [ReviewedMonth.monthly_usage, ReviewedMonth.usage_of_silent h]
      rfl
    · intro factor
      rw [ReviewedMonth.monthly_stability, ReviewedMonth.scores_of_silent h, if_pos rfl, Dict.get_nil]
    · intro w hw d hd strategy hs
      rw [(h w hw d hd).2] at hs
      exact absurd hs List.not_mem_nil
    · intro p _ hpos
      exact absurd (ReviewedMonth.usage_of_silent h p.factor) hpos.ne'
    · intro p _ hlt
      rw [ReviewedMonth.usage_of_silent h] at hlt
      exact absurd hlt (Nat.not_lt_zero _)

/-- The last week of July 2026, with one report about one factor. -/
def rsiWeek : ReviewedWeek where
  reviewId := .period .weekly (.week 2026 31)
  periodId := .week 2026 31
  startsAt := dayMin 739823
  endsAt := dayMax 739829
  dailyReviews := [{
    reviewId := .daily "d1"
    periodId := .day 739823
    factorAttributions := [{ healthIssues := ["rsi"] }]
    factorQuality := [("rsi", .decimal (4 / 5))] }]

def rsiMonth : ReviewedMonth where
  reviewId := .period .monthly (.month 2026 7)
  periodId := .month 2026 7
  startsAt := dayMin 739797
  endsAt := dayMax 739827
  weeks := [rsiWeek]

/-- The factor was used in one week and its usage is 0. -/
theorem used_factor_unused : ¬∀ sqrt (M : ReviewedMonth), M.HandsOver sqrt := by
  intro h
  have husage := (h id rsiMonth).usage "rsi"
  revert husage
  decide +kernel

end CryptoTrader
