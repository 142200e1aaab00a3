import CryptoTrader.Lib.Slices
import Mathlib.Algebra.Order.Floor.Semiring
import Mathlib.Data.Rat.Floor
import Mathlib.Tactic.Linarith

/-!
# Liquidity and execution plans

`execution_intelligence/liquidity.py`: the assessor says how much of an order a book can take, and the
planner cuts the order into slices. The planner waits for a stale book but not for one without depth,
and rounds the number of slices down, so that they are too large unless there is nothing to round.
When a plan covers the order safely: `plan_covers_iff`.
-/

namespace CryptoTrader

open Slices

inductive ExecutionDifficulty where
  | easy
  | moderate
  | hard
  /-- `UNSAFE`. -/
  | notSafe
  deriving DecidableEq, Repr

inductive BookQuality where
  | fresh
  | stale
  | noDepth
  deriving DecidableEq, Repr

structure LiquidityAssessment where
  symbol : String
  liquidityScore : ℚ
  maxRecommendedNotional : ℚ
  estimatedSlippageBps : ℚ
  estimatedImpactBps : ℚ
  executionDifficulty : ExecutionDifficulty
  dataQuality : BookQuality
  reasonCodes : List String
  deriving DecidableEq, Repr

inductive PlanStyle where
  | wait
  | cancelReassess
  | market
  | twap
  | passiveLimit
  | limit
  deriving DecidableEq, Repr

inductive PlanUrgency where
  | low
  | high
  deriving DecidableEq, Repr

structure ExecutionPlan where
  style : PlanStyle
  sliceCount : ℤ
  sliceSize : ℚ
  timeHorizon : String
  priceTolerance : ℚ
  urgency : PlanUrgency
  cancelConditions : List String := []
  reassessmentConditions : List String := []
  reasonCodes : List String := []
  deriving DecidableEq, Repr

namespace LiquidityAssessor

def unusable (symbol : String) (quality : BookQuality) (reasons : List String) : LiquidityAssessment where
  symbol := symbol
  liquidityScore := 0
  maxRecommendedNotional := 0
  estimatedSlippageBps := 999
  estimatedImpactBps := 999
  executionDifficulty := .notSafe
  dataQuality := quality
  reasonCodes := reasons

def difficulty (score : ℚ) : ExecutionDifficulty :=
  if 70 ≤ score then .easy else if 40 ≤ score then .moderate else .hard

def assess (symbol : String) (spreadBps depth size freshnessSeconds : ℚ) : LiquidityAssessment :=
  if 5 < freshnessSeconds then unusable symbol .stale ["STALE_BOOK"]
  else if depth ≤ 0 then unusable symbol .noDepth []
  else
    let sizeDepth := size / depth
    let score := max 0 (min 100 (100 - spreadBps * 2 - sizeDepth * 50))
    { symbol
      liquidityScore := score
      maxRecommendedNotional := depth * (5 / 100)
      estimatedSlippageBps := spreadBps / 2 + sizeDepth * 5
      estimatedImpactBps := sizeDepth * 8
      executionDifficulty := difficulty score
      dataQuality := .fresh
      reasonCodes := if score < 50 then ["LOW_LIQUIDITY"] else [] }

end LiquidityAssessor

namespace ExecutionPlanner

/-- `int(x)`. -/
def toInt (x : ℚ) : ℤ :=
  if 0 ≤ x then ⌊x⌋ else ⌈x⌉

/-- The number of slices of an order that is larger than recommended. -/
def slices (orderSize maxNotional : ℚ) : ℤ :=
  max 2 (toInt (orderSize / max maxNotional 1))

def plan (a : LiquidityAssessment) (orderSize spreadBps : ℚ) (urgent thesisInvalidated : Bool) : ExecutionPlan :=
  if a.dataQuality = .stale then
    { style := .wait
      sliceCount := 0
      sliceSize := 0
      timeHorizon := "0"
      priceTolerance := 0
      urgency := .low
      cancelConditions := ["STALE_BOOK"]
      reassessmentConditions := ["REFRESH_BOOK"]
      reasonCodes := ["STALE_DATA"] }
  else if thesisInvalidated then
    { style := .cancelReassess
      sliceCount := 0
      sliceSize := 0
      timeHorizon := "0"
      priceTolerance := 0
      urgency := .high
      cancelConditions := ["THESIS_INVALID"]
      reassessmentConditions := ["REASSESS_THESIS"]
      reasonCodes := ["INVALIDATION"] }
  else if urgent then
    { style := .market
      sliceCount := 1
      sliceSize := orderSize
      timeHorizon := "IMMEDIATE"
      priceTolerance := spreadBps
      urgency := .high
      cancelConditions := ["SLIPPAGE_CAP"]
      reasonCodes := ["URGENT"] }
  else if a.maxRecommendedNotional < orderSize then
    { style := .twap
      sliceCount := slices orderSize a.maxRecommendedNotional
      sliceSize := orderSize / slices orderSize a.maxRecommendedNotional
      timeHorizon := "1h"
      priceTolerance := spreadBps
      urgency := .low
      cancelConditions := ["SLIPPAGE_CAP"]
      reassessmentConditions := ["RESLICE_ON_BOOK_CHANGE"]
      reasonCodes := ["LARGE_SIZE"] }
  else if 5 < spreadBps then
    { style := .passiveLimit
      sliceCount := 1
      sliceSize := orderSize
      timeHorizon := "30m"
      priceTolerance := spreadBps / 2
      urgency := .low
      cancelConditions := ["WIDE_SPREAD"]
      reasonCodes := ["WIDE_SPREAD"] }
  else
    { style := .limit
      sliceCount := 1
      sliceSize := orderSize
      timeHorizon := "15m"
      priceTolerance := spreadBps / 2
      urgency := .low
      reasonCodes := ["NORMAL"] }

end ExecutionPlanner

/-- An order, the book it meets and the flags of the planner. -/
structure PlannedOrder where
  symbol : String
  spreadBps : ℚ
  depth : ℚ
  size : ℚ
  freshnessSeconds : ℚ
  urgent : Bool
  thesisInvalidated : Bool
  spread_nonneg : 0 ≤ spreadBps
  size_pos : 0 < size

namespace PlannedOrder

variable (o : PlannedOrder)

def assessment : LiquidityAssessment :=
  LiquidityAssessor.assess o.symbol o.spreadBps o.depth o.size o.freshnessSeconds

def plan : ExecutionPlan :=
  ExecutionPlanner.plan o.assessment o.size o.spreadBps o.urgent o.thesisInvalidated

/-- No slices into an unsafe book, else slices that make up the order, and without urgency none above the limit. -/
structure CoversSafely : Prop where
  barred : o.assessment.executionDifficulty = .notSafe → o.plan.sliceCount = 0
  covered : o.assessment.executionDifficulty ≠ .notSafe → o.thesisInvalidated = false →
    1 ≤ o.plan.sliceCount ∧ o.plan.sliceCount * o.plan.sliceSize = o.size
  bounded : o.urgent = false → 0 < o.plan.sliceCount → o.plan.sliceSize ≤ o.assessment.maxRecommendedNotional

/-- The book is stale or the thesis invalid; or there is depth, and the order is urgent, or at most a tenth of the
depth, or a multiple of a twentieth of it that is one at least. -/
def Sliceable : Prop :=
  5 < o.freshnessSeconds ∨ o.thesisInvalidated = true ∨ 0 < o.depth ∧
    (o.urgent = true ∨ o.size ≤ o.depth / 10 ∨ 20 ≤ o.depth ∧ ∃ n : ℤ, o.size = n * (o.depth / 20))

/-! ### The cases of a plan -/

lemma barred_iff : o.assessment.executionDifficulty = .notSafe ↔ 5 < o.freshnessSeconds ∨ o.depth ≤ 0 := by
  unfold assessment LiquidityAssessor.assess LiquidityAssessor.difficulty
  by_cases hstale : 5 < o.freshnessSeconds
  · simp [hstale, LiquidityAssessor.unusable]
  · by_cases hdepth : o.depth ≤ 0
    · simp [hstale, hdepth, LiquidityAssessor.unusable]
    · simp only [hstale, hdepth, if_false, or_self, iff_false]
      split_ifs <;> simp

lemma maxRecommendedNotional_eq (hfresh : ¬ 5 < o.freshnessSeconds) (hdepth : 0 < o.depth) :
    o.assessment.maxRecommendedNotional = o.depth / 20 := by
  rw [assessment, LiquidityAssessor.assess, if_neg hfresh, if_neg hdepth.not_ge]
  ring

/-- A plan of no slices waits for the book or for a thesis. -/
lemma unsliced (h : 5 < o.freshnessSeconds ∨ o.thesisInvalidated = true) : o.plan.sliceCount = 0 := by
  by_cases hstale : o.assessment.dataQuality = .stale
  · rw [plan, ExecutionPlanner.plan, if_pos hstale]
  · have hthesis : o.thesisInvalidated = true := by
      refine h.resolve_left (fun hfresh => hstale ?_)
      rw [assessment, LiquidityAssessor.assess, if_pos hfresh]
      rfl
    rw [plan, ExecutionPlanner.plan, if_neg hstale, if_pos hthesis]

lemma covers_of_waits (h : 5 < o.freshnessSeconds ∨ o.thesisInvalidated = true) : o.CoversSafely where
  barred _ := o.unsliced h
  covered hsafe hthesis := by
    have hstale := h.resolve_right (by simp [hthesis])
    exact absurd (o.barred_iff.mpr (.inl hstale)) hsafe
  bounded _ hpos := by
    have hcount := o.unsliced h
    omega

lemma quality_ne_stale (hfresh : ¬ 5 < o.freshnessSeconds) : o.assessment.dataQuality ≠ .stale := by
  rw [assessment, LiquidityAssessor.assess, if_neg hfresh]
  split
  · exact BookQuality.noConfusion
  · exact BookQuality.noConfusion

section Sliced

variable {o} (hfresh : ¬ 5 < o.freshnessSeconds) (hthesis : o.thesisInvalidated = false)
include hfresh hthesis

/-- An urgent order, or one that the book can take, is one slice. -/
lemma plan_single (h : o.urgent = true ∨ o.size ≤ o.assessment.maxRecommendedNotional) :
    o.plan.sliceCount = 1 ∧ o.plan.sliceSize = o.size := by
  rw [plan, ExecutionPlanner.plan, if_neg (o.quality_ne_stale hfresh), hthesis, if_neg Bool.false_ne_true]
  by_cases hurgent : o.urgent = true
  · rw [if_pos hurgent]
    exact ⟨rfl, rfl⟩
  · rw [if_neg hurgent, if_neg (h.resolve_left hurgent).not_gt]
    split
    · exact ⟨rfl, rfl⟩
    · exact ⟨rfl, rfl⟩

lemma plan_twap (hurgent : o.urgent = false) (hlarge : o.assessment.maxRecommendedNotional < o.size) :
    o.plan.sliceCount = truncated 2 1 o.size o.assessment.maxRecommendedNotional ∧
      o.plan.sliceSize = o.size / truncated 2 1 o.size o.assessment.maxRecommendedNotional := by
  have hslices : ExecutionPlanner.slices o.size o.assessment.maxRecommendedNotional =
      truncated 2 1 o.size o.assessment.maxRecommendedNotional := by
    have hquotient : 0 ≤ o.size / max o.assessment.maxRecommendedNotional 1 :=
      div_nonneg o.size_pos.le (zero_le_one.trans (le_max_right _ _))
    rw [ExecutionPlanner.slices, ExecutionPlanner.toInt, if_pos hquotient]
    rfl
  rw [plan, ExecutionPlanner.plan, if_neg (o.quality_ne_stale hfresh), hthesis, if_neg Bool.false_ne_true, hurgent,
    if_neg Bool.false_ne_true, if_pos hlarge, ← hslices]
  exact ⟨rfl, rfl⟩

lemma plan_covered : 1 ≤ o.plan.sliceCount ∧ o.plan.sliceCount * o.plan.sliceSize = o.size := by
  by_cases hsingle : o.urgent = true ∨ o.size ≤ o.assessment.maxRecommendedNotional
  · obtain ⟨hcount, hsize⟩ := plan_single hfresh hthesis hsingle
    rw [hcount, hsize, Int.cast_one, one_mul]
    exact ⟨le_rfl, rfl⟩
  · rw [not_or, Bool.not_eq_true, not_le] at hsingle
    obtain ⟨hcount, hsize⟩ := plan_twap hfresh hthesis hsingle.1 hsingle.2
    have htwo : 2 ≤ o.plan.sliceCount := hcount ▸ le_max_left _ _
    have hne : (o.plan.sliceCount : ℚ) ≠ 0 := Int.cast_ne_zero.mpr (by omega)
    rw [hsize, ← hcount]
    exact ⟨by omega, mul_div_cancel₀ o.size hne⟩

/-- Without urgency the slices keep to the limit if the order is small or a multiple of it. -/
lemma bounded_iff (hdepth : 0 < o.depth) (hurgent : o.urgent = false) :
    o.plan.sliceSize ≤ o.assessment.maxRecommendedNotional ↔
      o.size ≤ o.depth / 10 ∨ 20 ≤ o.depth ∧ ∃ n : ℤ, o.size = n * (o.depth / 20) := by
  have hmax := o.maxRecommendedNotional_eq hfresh hdepth
  by_cases hlarge : o.assessment.maxRecommendedNotional < o.size
  · rw [(plan_twap hfresh hthesis hurgent hlarge).2, hmax,
      truncated_slice_le_iff two_pos (div_pos hdepth (by norm_num)) o.size_pos]
    apply or_congr
    · rw [show ((2 : ℤ) : ℚ) * (o.depth / 20) = o.depth / 10 by push_cast; ring]
    · rw [one_le_div (by norm_num : (0 : ℚ) < 20)]
  · have hsmall := not_lt.mp hlarge
    rw [(plan_single hfresh hthesis (.inr hsmall)).2]
    refine iff_of_true hsmall (.inl ?_)
    rw [hmax] at hsmall
    linarith

end Sliced

/-- A plan covers its order safely if and only if it waits, is urgent into a book with depth, or has nothing to round. -/
theorem plan_covers_iff : o.CoversSafely ↔ o.Sliceable := by
  by_cases hwaits : 5 < o.freshnessSeconds ∨ o.thesisInvalidated = true
  · refine iff_of_true (o.covers_of_waits hwaits) ?_
    rcases hwaits with hstale | hthesis
    · exact .inl hstale
    · exact .inr (.inl hthesis)
  · rw [not_or, Bool.not_eq_true] at hwaits
    obtain ⟨hfresh, hthesis⟩ := hwaits
    have hcovered := plan_covered hfresh hthesis
    have hsliceable : o.Sliceable ↔ 0 < o.depth ∧
        (o.urgent = true ∨ o.size ≤ o.depth / 10 ∨ 20 ≤ o.depth ∧ ∃ n : ℤ, o.size = n * (o.depth / 20)) := by
      rw [Sliceable, or_iff_right hfresh, hthesis, or_iff_right Bool.false_ne_true]
    rw [hsliceable]
    by_cases hdepth : 0 < o.depth
    · have hsafe : o.assessment.executionDifficulty ≠ .notSafe := by
        rw [ne_eq, barred_iff, not_or, not_le]
        exact ⟨hfresh, hdepth⟩
      rw [and_iff_right hdepth]
      cases hurgent : o.urgent with
      | true =>
        refine iff_of_true ⟨fun h => absurd h hsafe, fun _ _ => hcovered, fun h => ?_⟩ (.inl rfl)
        rw [hurgent] at h
        cases h
      | false =>
        rw [← bounded_iff hfresh hthesis hdepth hurgent, or_iff_right Bool.false_ne_true]
        constructor
        · intro h
          exact h.bounded hurgent (by omega)
        · intro h
          exact ⟨fun hbarred => absurd hbarred hsafe, fun _ _ => hcovered, fun _ _ => h⟩
    · refine iff_of_false (fun h => ?_) (fun h => hdepth h.1)
      have hcount := h.barred (o.barred_iff.mpr (.inr (not_lt.mp hdepth)))
      omega

/-- Two and a bit times the recommended notional. -/
def oversized : PlannedOrder where
  symbol := "BTCUSDT"
  spreadBps := 2
  depth := 100000
  size := 12000
  freshnessSeconds := 1 / 2
  urgent := false
  thesisInvalidated := false
  spread_nonneg := by decide
  size_pos := by decide

def bottomless : PlannedOrder :=
  { oversized with depth := 0, urgent := true }

/-- The first is cut into two slices that are both too large, the second is sent to the market at once. -/
theorem slices_too_large :
    (oversized.plan.sliceCount = 2 ∧ oversized.plan.sliceSize = 6000 ∧
        oversized.assessment.maxRecommendedNotional = 5000 ∧ ¬ oversized.CoversSafely) ∧
      bottomless.assessment.executionDifficulty = .notSafe ∧ bottomless.plan.sliceCount = 1 ∧ ¬ bottomless.CoversSafely := by
  have hsize : oversized.plan.sliceSize = 6000 := by decide +kernel
  have hlimit : oversized.assessment.maxRecommendedNotional = 5000 := by decide +kernel
  have hcount : oversized.plan.sliceCount = 2 := by decide +kernel
  have hbarred : bottomless.assessment.executionDifficulty = .notSafe := by decide +kernel
  have hone : bottomless.plan.sliceCount = 1 := by decide +kernel
  refine ⟨⟨hcount, hsize, hlimit, fun h => ?_⟩, hbarred, hone, fun h => ?_⟩
  · have hbounded := h.bounded rfl (by omega)
    rw [hsize, hlimit] at hbounded
    exact absurd hbounded (by decide)
  · have hzero := h.barred hbarred
    omega

end PlannedOrder

end CryptoTrader
