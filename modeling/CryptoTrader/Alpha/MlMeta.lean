import CryptoTrader.Alpha.Regime
import CryptoTrader.Lib.Shares
import Mathlib.Tactic.Positivity

/-!
# Fast learning and the meta layer

`alpha/learning.py` and `alpha/ml_meta.py`: closed trades are recorded by strategy and side, and
the meta layer decides with weights that carry the strategies' average results. A decision
that one strategy carries follows the average of that strategy: `fast_learning_feeds_back`.
The average of losses can rise with a small loss, and the decision with it.
-/

namespace CryptoTrader

open KeyedTable Shares

inductive AlphaSide where
  | long
  | short
  | noTrade
  deriving DecidableEq, Repr

def AlphaSide.value : AlphaSide → String
  | .long => "LONG"
  | .short => "SHORT"
  | .noTrade => "NO_TRADE"

structure AlphaSignal where
  strategy : String
  side : AlphaSide
  confidence : ℚ
  reasonCodes : List String := []
  deriving DecidableEq, Repr

/-- What `update_fast_learning` is called with. -/
structure AlphaTrade where
  strategy : String
  side : String
  pnl : ℚ
  deriving DecidableEq, Repr

structure FastLearning where
  performance : Dict String (List ℚ) := []
  confidenceCal : Dict (String × String) ℚ := []
  failureMemory : Dict String ℤ := []
  deriving DecidableEq, Repr

namespace FastLearning

def recordTrade (l : FastLearning) (t : AlphaTrade) : FastLearning :=
  let delta : ℚ := if 0 < t.pnl then 1 / 50 else -1 / 25
  { performance := l.performance.push t.strategy t.pnl
    confidenceCal := l.confidenceCal.alter (t.strategy, t.side)
      (fun current => max (-1 / 4) (min (1 / 4) (current.getD 0 + delta)))
    failureMemory := if t.pnl < 0 then l.failureMemory.bump t.strategy 1 else l.failureMemory }

def strategyScore (l : FastLearning) (strategy : String) : Option ℚ :=
  match l.performance.get strategy with
  | none => none
  | some [] => none
  | some values => some (max (-1 / 10) (min (1 / 10) (values.sum / values.length)))

def confidenceCalibration (l : FastLearning) (strategy side : String) : ℚ :=
  (l.confidenceCal.get (strategy, side)).getD 0

/-- What the trades of a history leave behind. -/
def ofHistory (history : List AlphaTrade) : FastLearning :=
  history.foldl recordTrade {}

end FastLearning

structure MetaDecision where
  symbol : String
  version : String
  side : AlphaSide
  confidence : ℚ
  reasonCodes : List String
  effectiveWeights : Dict String ℚ
  voteScores : Dict String ℚ
  regime : String
  runId : Option String
  deriving DecidableEq, Repr

def MarketRegime.value : MarketRegime → String
  | .bull => "BULL"
  | .bear => "BEAR"
  | .range => "RANGE"
  | .highVol => "HIGH_VOL"
  | .extremeRisk => "EXTREME_RISK"

def baseWeights : Dict String ℚ :=
  [("trend_following", 40 / 100), ("momentum", 20 / 100), ("breakout", 15 / 100), ("mean_reversion", 10 / 100),
    ("funding_basis", 15 / 100)]

def regimeWeightAdjust : MarketRegime → Dict String ℚ
  | .bull => [("trend_following", 10 / 100), ("momentum", 5 / 100), ("mean_reversion", -5 / 100)]
  | .bear => [("trend_following", 10 / 100), ("momentum", -5 / 100), ("mean_reversion", -5 / 100)]
  | .range => [("mean_reversion", 10 / 100), ("breakout", 5 / 100), ("trend_following", -10 / 100)]
  | .highVol => [("breakout", 5 / 100), ("mean_reversion", -10 / 100), ("funding_basis", 5 / 100)]
  | .extremeRisk =>
    [("trend_following", -20 / 100), ("momentum", -10 / 100), ("breakout", -10 / 100), ("funding_basis", 10 / 100)]

namespace MLMeta

variable (l : FastLearning) (regime : MarketRegime) (symbol : String) (signals : List AlphaSignal)

def version : String := "0.1.0"

/-- `weights[strategy] = weights.get(strategy, 0) + delta`. -/
def addWeight (weights : Dict String ℚ) (strategy : String) (delta : ℚ) : Dict String ℚ :=
  weights.alter strategy (fun w => w.getD 0 + delta)

def regimeWeights : Dict String ℚ :=
  (regimeWeightAdjust regime).foldl (fun weights e => addWeight weights e.1 e.2) baseWeights

def addPerformance (weights : Dict String ℚ) (signal : AlphaSignal) : Dict String ℚ :=
  match l.strategyScore signal.strategy with
  | some perfScore => addWeight weights signal.strategy perfScore
  | none => weights

/-- The weights before they are normalised. -/
def weights : Dict String ℚ :=
  signals.foldl (addPerformance l) (regimeWeights regime)

def effectiveWeights : Dict String ℚ :=
  let w := weights l regime signals
  if 0 < positiveTotal w then shares w else baseWeights

/-- What the loop over the signals has added up. -/
structure Votes where
  long : ℚ := 0
  short : ℚ := 0
  scores : Dict String ℚ := []
  reasons : List String := []
  deriving DecidableEq, Repr

def Votes.count (effWeights : Dict String ℚ) (v : Votes) (signal : AlphaSignal) : Votes :=
  let w := (effWeights.get signal.strategy).getD 0
  if w ≤ 0 then v
  else
    { long := if signal.side = .long then v.long + w * signal.confidence else v.long
      short := if signal.side = .short then v.short + w * signal.confidence else v.short
      scores := v.scores.alter signal.strategy (fun _ => w * signal.confidence)
      reasons := v.reasons ++ signal.reasonCodes }

def votes (effWeights : Dict String ℚ) : Votes :=
  signals.foldl (Votes.count effWeights) {}

def overTotal (total score : ℚ) : ℚ :=
  if 0 < total then score / total else score

/-- The side of the two scores and the raw confidence in it. -/
def verdict (longScore shortScore : ℚ) : AlphaSide × ℚ :=
  if longScore ≤ 0 ∧ shortScore ≤ 0 then (.noTrade, 0)
  else if shortScore ≤ longScore then (.long, min (95 / 100) longScore)
  else (.short, min (95 / 100) shortScore)

def regimeFactor : MarketRegime → ℚ
  | .extremeRisk => 55 / 100
  | .highVol => 80 / 100
  | .range => 90 / 100
  | _ => 1

def calibrate (side : AlphaSide) (raw : ℚ) : ℚ :=
  if side = .noTrade then 0
  else
    -- the calibration is looked up under the symbol, where trades are recorded under the strategy
    min (95 / 100) (max (5 / 100) (raw * regimeFactor regime + l.confidenceCalibration symbol side.value))

/-- Side and raw confidence of the decision on the signals. -/
def judge : AlphaSide × ℚ :=
  let effWeights := effectiveWeights l regime signals
  let v := votes signals effWeights
  let totalWeight := (effWeights.map Prod.snd).sum
  verdict (overTotal totalWeight v.long) (overTotal totalWeight v.short)

def decide (runId : Option String) : MetaDecision :=
  let effWeights := effectiveWeights l regime signals
  let v := votes signals effWeights
  let (side, raw) := judge l regime signals
  let reasons := if side = .noTrade then v.reasons ++ ["NO_ALPHA"] else v.reasons
  { symbol
    version
    side
    confidence := calibrate l regime symbol side raw
    reasonCodes := reasons.dedup.mergeSort
    effectiveWeights := effWeights.sorted
    voteScores := v.scores.sorted
    regime := regime.value
    runId }

/-! ### Weights -/

lemma baseWeights_nonneg : ∀ e ∈ baseWeights, 0 ≤ e.2 := by
  simp [baseWeights]
  norm_num

lemma baseWeights_sum : (baseWeights.map Prod.snd).sum = 1 := by
  norm_num [baseWeights]

lemma effectiveWeights_nonneg {e : String × ℚ} (h : e ∈ effectiveWeights l regime signals) : 0 ≤ e.2 := by
  unfold effectiveWeights at h
  dsimp only at h
  split at h
  · exact shares_nonneg h
  · exact baseWeights_nonneg e h

lemma effectiveWeights_sum : ((effectiveWeights l regime signals).map Prod.snd).sum = 1 := by
  unfold effectiveWeights
  dsimp only
  split
  · exact sum_shares (ne_of_gt ‹_›)
  · exact baseWeights_sum

lemma effectiveWeight_nonneg (strategy : String) : 0 ≤ ((effectiveWeights l regime signals).get strategy).getD 0 := by
  cases h : (effectiveWeights l regime signals).get strategy with
  | none => exact le_rfl
  | some w => exact effectiveWeights_nonneg l regime signals (Dict.mem_of_get h)

lemma weights_concat (signal : AlphaSignal) :
    weights l regime (signals ++ [signal]) = addPerformance l (weights l regime signals) signal := by
  rw [weights, List.foldl_append]
  rfl

lemma weights_nodup : ((weights l regime signals).map Prod.fst).Nodup := by
  induction signals using List.reverseRecOn with
  | nil => exact Dict.nodup_foldl_alter Prod.fst (fun e w => w.getD 0 + e.2) (by decide +kernel)
  | append_singleton signals signal ih =>
    rw [weights_concat, addPerformance]
    split
    · exact nodup_upsert ih _
    · exact ih

/-! ### Learning moves one weight -/

/-- The score as the weights take it in, zero before the first trade. -/
def scoreOf (strategy : String) : ℚ :=
  (l.strategyScore strategy).getD 0

lemma get_addPerformance_self (d : Dict String ℚ) (signal : AlphaSignal) :
    ((addPerformance l d signal).get signal.strategy).getD 0 =
      (d.get signal.strategy).getD 0 + scoreOf l signal.strategy := by
  unfold addPerformance scoreOf
  cases l.strategyScore signal.strategy with
  | none => simp
  | some p => simp [addWeight, Dict.get_alter_self]

lemma get_addPerformance_of_ne (d : Dict String ℚ) {signal : AlphaSignal} {strategy : String} (h : strategy ≠ signal.strategy) :
    (addPerformance l d signal).get strategy = d.get strategy := by
  unfold addPerformance
  split
  · exact Dict.get_alter_of_ne h _ d
  · rfl

lemma get_weights (strategy : String) :
    ((weights l regime signals).get strategy).getD 0 = ((regimeWeights regime).get strategy).getD 0 +
      (signals.filter (fun s => s.strategy = strategy)).length * scoreOf l strategy := by
  induction signals using List.reverseRecOn with
  | nil => simp [weights]
  | append_singleton signals signal ih =>
    rw [weights_concat, List.filter_append, List.length_append]
    by_cases hs : signal.strategy = strategy
    · subst hs
      rw [get_addPerformance_self, ih]
      simp
      ring
    · rw [get_addPerformance_of_ne l _ (Ne.symm hs), ih]
      simp [hs]

lemma others_addPerformance_self (d : Dict String ℚ) (signal : AlphaSignal) :
    others signal.strategy (addPerformance l d signal) = others signal.strategy d := by
  unfold addPerformance
  split
  · exact others_alter_self _ _ d
  · rfl

variable {l signals} in
lemma others_weights {l' : FastLearning} {strategy : String}
    (h : ∀ s, s ≠ strategy → l'.strategyScore s = l.strategyScore s) :
    others strategy (weights l' regime signals) = others strategy (weights l regime signals) := by
  induction signals using List.reverseRecOn with
  | nil => rfl
  | append_singleton signals signal ih =>
    rw [weights_concat, weights_concat]
    by_cases hs : signal.strategy = strategy
    · subst hs
      rw [others_addPerformance_self, others_addPerformance_self, ih]
    · rw [addPerformance, addPerformance, h _ hs]
      split
      · rw [addWeight, addWeight, others_alter_of_ne hs, others_alter_of_ne hs, ih]
      · exact ih

/-- What the other strategies weigh before the weights are normalised. -/
def rivalWeight (strategy : String) : ℚ :=
  positiveTotal (others strategy (weights l regime signals))

/-- The effective weight of a strategy with the weight `w` among rivals. -/
def standing (base rivals w : ℚ) : ℚ :=
  if 0 < max w 0 + rivals then max w 0 / (max w 0 + rivals) else base

lemma get_effectiveWeights (strategy : String) :
    ((effectiveWeights l regime signals).get strategy).getD 0 =
      standing ((baseWeights.get strategy).getD 0) (rivalWeight l regime signals strategy)
        (((weights l regime signals).get strategy).getD 0) := by
  have hsplit := positiveTotal_split (weights_nodup l regime signals) strategy
  unfold effectiveWeights standing rivalWeight
  dsimp only
  rw [← hsplit]
  split
  · exact get_shares strategy _
  · rfl

lemma standing_le {base rivals w w' : ℚ} (hbase : base ≤ 1) (hr : 0 ≤ rivals) (h : w ≤ w') :
    standing base rivals w ≤ standing base rivals w' := by
  have hmax : max w 0 ≤ max w' 0 := max_le_max_right 0 h
  unfold standing
  by_cases hpos : 0 < max w 0 + rivals
  · rw [if_pos hpos, if_pos (by linarith)]
    exact part_le hr hpos hmax
  · rw [if_neg hpos]
    split
    · -- the weights were all gone, and the fallback gives less than the whole
      have hw : 0 ≤ max w 0 := le_max_right w 0
      have hrivals : rivals = 0 := by linarith
      have hw' : 0 < max w' 0 := by linarith
      rw [hrivals, add_zero, div_self hw'.ne']
      exact hbase
    · exact le_rfl

lemma standing_lt {base rivals w w' : ℚ} (hr : 0 < rivals) (h : w < w') (hw' : 0 < w') :
    standing base rivals w < standing base rivals w' := by
  have hw : 0 ≤ max w 0 := le_max_right w 0
  have hmax : max w 0 < max w' 0 := lt_max_of_lt_left (max_lt h hw')
  unfold standing
  rw [if_pos (by linarith), if_pos (by linarith)]
  exact part_lt hw hr hmax

/-! ### Decisions that one strategy carries -/

/-- Only signals of the strategy take a side, and all of them this one. -/
def CarriedBy (strategy : String) (side : AlphaSide) : Prop :=
  ∀ s ∈ signals, s.side ≠ .noTrade → s.strategy = strategy ∧ s.side = side

/-- What the signals of one side are confident of together. -/
def confidenceFor (side : AlphaSide) : ℚ :=
  ((signals.filter (fun s => s.side = side)).map AlphaSignal.confidence).sum

/-- What the signals of one side pull with. -/
def pull (effWeights : Dict String ℚ) (side : AlphaSide) : ℚ :=
  ((signals.filter (fun s => s.side = side)).map (fun s => (effWeights.get s.strategy).getD 0 * s.confidence)).sum

lemma pull_concat (effWeights : Dict String ℚ) (side : AlphaSide) (signal : AlphaSignal) :
    pull (signals ++ [signal]) effWeights side = pull signals effWeights side +
      if signal.side = side then (effWeights.get signal.strategy).getD 0 * signal.confidence else 0 := by
  unfold pull
  rw [List.filter_append, List.map_append, List.sum_append]
  by_cases h : signal.side = side <;> simp [h]

lemma votes_eq_pull {effWeights : Dict String ℚ} (hw : ∀ s, 0 ≤ (effWeights.get s).getD 0) :
    (votes signals effWeights).long = pull signals effWeights .long ∧
      (votes signals effWeights).short = pull signals effWeights .short := by
  induction signals using List.reverseRecOn with
  | nil => exact ⟨rfl, rfl⟩
  | append_singleton signals signal ih =>
    have hconcat : votes (signals ++ [signal]) effWeights = Votes.count effWeights (votes signals effWeights) signal := by
      rw [votes, List.foldl_append]
      rfl
    rw [hconcat, pull_concat, pull_concat, ← ih.1, ← ih.2, Votes.count]
    by_cases hpos : (effWeights.get signal.strategy).getD 0 ≤ 0
    · rw [if_pos hpos, le_antisymm hpos (hw _)]
      simp
    · rw [if_neg hpos]
      constructor
      · dsimp only
        split <;> simp
      · dsimp only
        split <;> simp

variable {signals} in
lemma pull_of_carried (effWeights : Dict String ℚ) {strategy : String} {side : AlphaSide} (hside : side ≠ .noTrade)
    (h : CarriedBy signals strategy side) :
    pull signals effWeights side = (effWeights.get strategy).getD 0 * confidenceFor signals side := by
  unfold pull confidenceFor
  rw [← List.sum_map_mul_left]
  congr 1
  apply List.map_congr_left
  intro s hs
  obtain ⟨hmem, hs⟩ := List.mem_filter.mp hs
  have hs : s.side = side := of_decide_eq_true hs
  rw [(h s hmem (hs ▸ hside)).1]

variable {signals} in
lemma pull_other_side (effWeights : Dict String ℚ) {strategy : String} {side other : AlphaSide} (h : CarriedBy signals strategy side)
    (hother : other ≠ .noTrade) (hne : other ≠ side) : pull signals effWeights other = 0 := by
  have hnone : signals.filter (fun s => s.side = other) = [] := by
    rw [List.filter_eq_nil_iff]
    intro s hs heq
    have heq : s.side = other := of_decide_eq_true heq
    exact hne (heq ▸ (h s hs (heq ▸ hother)).2)
  rw [pull, hnone]
  rfl

/-- The raw score that one strategy carries: its effective weight times the confidence of its signals. -/
def carriedScore (strategy : String) (side : AlphaSide) : ℚ :=
  ((effectiveWeights l regime signals).get strategy).getD 0 * confidenceFor signals side

lemma verdict_one_sided (side : AlphaSide) (hside : side ≠ .noTrade) (score : ℚ) :
    verdict (if side = .long then score else 0) (if side = .short then score else 0) =
      if score ≤ 0 then (.noTrade, 0) else (side, min (95 / 100) score) := by
  unfold verdict
  cases side with
  | long =>
    by_cases h : score ≤ 0
    · simp [h]
    · simp [h, (not_le.mp h).le]
  | short =>
    by_cases h : score ≤ 0
    · simp [h]
    · simp [h]
  | noTrade => exact absurd rfl hside

variable {signals} in
lemma judge_of_carried {strategy : String} {side : AlphaSide} (hside : side ≠ .noTrade) (h : CarriedBy signals strategy side) :
    judge l regime signals = if carriedScore l regime signals strategy side ≤ 0 then (.noTrade, 0)
      else (side, min (95 / 100) (carriedScore l regime signals strategy side)) := by
  have hvotes := votes_eq_pull signals (effectiveWeight_nonneg l regime signals)
  have hlong : pull signals (effectiveWeights l regime signals) .long =
      if side = .long then carriedScore l regime signals strategy side else 0 := by
    split
    · subst side
      exact pull_of_carried _ nofun h
    · exact pull_other_side _ h nofun (Ne.symm ‹_›)
  have hshort : pull signals (effectiveWeights l regime signals) .short =
      if side = .short then carriedScore l regime signals strategy side else 0 := by
    split
    · subst side
      exact pull_of_carried _ nofun h
    · exact pull_other_side _ h nofun (Ne.symm ‹_›)
  unfold judge overTotal
  dsimp only
  rw [effectiveWeights_sum, if_pos one_pos, if_pos one_pos, div_one, div_one, hvotes.1, hvotes.2, hlong, hshort]
  exact verdict_one_sided side hside _

/-- The confidence in a carried decision by its score and the calibration. -/
def gauge (factor cal score : ℚ) : ℚ :=
  if score ≤ 0 then 0 else min (95 / 100) (max (5 / 100) (min (95 / 100) score * factor + cal))

variable {signals} in
lemma confidence_of_carried {strategy : String} {side : AlphaSide} (hside : side ≠ .noTrade)
    (h : CarriedBy signals strategy side) (runId : Option String) :
    (decide l regime symbol signals runId).confidence =
      gauge (regimeFactor regime) (l.confidenceCalibration symbol side.value) (carriedScore l regime signals strategy side) := by
  unfold decide gauge
  dsimp only
  rw [judge_of_carried l regime hside h]
  split
  · rfl
  · dsimp only
    rw [calibrate, if_neg hside]

lemma gauge_le {factor cal cal' score score' : ℚ} (hfactor : 0 < factor) (hcal : cal ≤ cal') (h : score ≤ score') :
    gauge factor cal score ≤ gauge factor cal' score' := by
  unfold gauge
  by_cases hs : score ≤ 0
  · rw [if_pos hs]
    split
    · exact le_rfl
    · exact le_min (by norm_num) (le_max_of_le_left (by norm_num))
  · rw [if_neg hs, if_neg (by linarith)]
    gcongr

lemma gauge_lt {factor cal cal' score score' : ℚ} (hfactor : 0 < factor) (hcal : cal ≤ cal') (h : score < score')
    (hraw : score < 95 / 100) (hlow : 5 / 100 < gauge factor cal' score') (hhigh : gauge factor cal score < 95 / 100) :
    gauge factor cal score < gauge factor cal' score' := by
  have hmin : min (95 / 100) score < min (95 / 100) score' := by
    rw [min_eq_right hraw.le]
    exact lt_min hraw h
  have hmul : min (95 / 100) score * factor + cal < min (95 / 100) score' * factor + cal' := by nlinarith
  unfold gauge at hlow hhigh ⊢
  by_cases hs' : score' ≤ 0
  · rw [if_pos hs'] at hlow
    norm_num at hlow
  rw [if_neg hs'] at hlow ⊢
  by_cases hs : score ≤ 0
  · rw [if_pos hs]
    linarith
  rw [if_neg hs] at hhigh ⊢
  have hlow' : 5 / 100 < min (95 / 100) score' * factor + cal' := by
    rcases lt_max_iff.mp (lt_of_lt_of_le hlow (min_le_right _ _)) with hc | hc
    · exact absurd hc (lt_irrefl _)
    · exact hc
  have hhigh' : min (95 / 100) score * factor + cal < 95 / 100 := by
    rcases min_lt_iff.mp hhigh with hc | hc
    · exact absurd hc (lt_irrefl _)
    · exact (le_max_right _ _).trans_lt hc
  rw [max_eq_right hlow'.le]
  apply lt_min
  · exact hhigh
  · rcases le_total (5 / 100) (min (95 / 100) score * factor + cal) with hc | hc
    · rw [max_eq_right hc]
      exact (min_le_right _ _).trans_lt hmul
    · rw [max_eq_left hc]
      exact (min_le_right _ _).trans_lt hlow'

lemma regimeFactor_pos : 0 < regimeFactor regime := by
  cases regime <;> norm_num [regimeFactor]

lemma base_le_one (strategy : String) : (baseWeights.get strategy).getD 0 ≤ 1 := by
  cases h : baseWeights.get strategy with
  | none => exact zero_le_one
  | some w =>
    have hmem := Dict.mem_of_get h
    simp only [baseWeights, List.mem_cons, List.not_mem_nil, or_false, Prod.mk.injEq] at hmem
    rcases hmem with ⟨-, rfl⟩ | ⟨-, rfl⟩ | ⟨-, rfl⟩ | ⟨-, rfl⟩ | ⟨-, rfl⟩ <;> norm_num

/-! ### One more trade -/

/-- Two states of learning that differ in one strategy, whose results are no better in the first. -/
structure NoBetter (l l' : FastLearning) (strategy : String) : Prop where
  elsewhere : ∀ s, s ≠ strategy → l'.strategyScore s = l.strategyScore s
  score : scoreOf l strategy ≤ scoreOf l' strategy
  calibration : ∀ name side, l.confidenceCalibration name side ≤ l'.confidenceCalibration name side

/-- A decision for a side that one strategy carries. -/
structure Carried (l : FastLearning) (regime : MarketRegime) (signals : List AlphaSignal) (strategy : String)
    (side : AlphaSide) : Prop where
  directional : side ≠ .noTrade
  alone : CarriedBy signals strategy side
  decided : (judge l regime signals).1 = side

variable {l regime signals} {l' : FastLearning} {strategy : String} {side : AlphaSide}

lemma Carried.score_pos (h : Carried l regime signals strategy side) : 0 < carriedScore l regime signals strategy side := by
  by_contra hle
  have hdecided := h.decided
  rw [judge_of_carried l regime h.directional h.alone, if_pos (not_lt.mp hle)] at hdecided
  exact h.directional hdecided.symm

lemma confidenceFor_pos (h : 0 < carriedScore l regime signals strategy side) : 0 < confidenceFor signals side :=
  pos_of_mul_pos_right h (effectiveWeight_nonneg l regime signals strategy)

lemma NoBetter.weight_le (h : NoBetter l l' strategy) :
    ((effectiveWeights l regime signals).get strategy).getD 0 ≤ ((effectiveWeights l' regime signals).get strategy).getD 0 := by
  rw [get_effectiveWeights, get_effectiveWeights, rivalWeight, rivalWeight, others_weights regime h.elsewhere]
  apply standing_le (base_le_one strategy) (positiveTotal_nonneg _)
  rw [get_weights, get_weights]
  have hscore := h.score
  gcongr

/-- Better results move the weight if it counts and other strategies weigh too. -/
lemma NoBetter.weight_lt (h : NoBetter l l' strategy) (hscore : scoreOf l strategy < scoreOf l' strategy)
    (hrivals : 0 < rivalWeight l' regime signals strategy)
    (hpos : 0 < ((effectiveWeights l' regime signals).get strategy).getD 0)
    (hsigns : ∃ s ∈ signals, s.strategy = strategy) :
    ((effectiveWeights l regime signals).get strategy).getD 0 < ((effectiveWeights l' regime signals).get strategy).getD 0 := by
  rw [get_effectiveWeights] at hpos
  rw [get_effectiveWeights, get_effectiveWeights, rivalWeight, ← others_weights regime h.elsewhere]
  apply standing_lt hrivals
  · obtain ⟨s, hs, rfl⟩ := hsigns
    rw [get_weights, get_weights]
    have hcount : 0 < (signals.filter (fun s' => s'.strategy = s.strategy)).length :=
      List.length_pos_of_mem (List.mem_filter.mpr ⟨hs, by simp⟩)
    gcongr
  · by_contra hle
    rw [standing, max_eq_right (not_lt.mp hle), if_pos (by linarith), zero_div] at hpos
    exact lt_irrefl _ hpos

lemma exists_signal (h : 0 < confidenceFor signals side) (hside : side ≠ .noTrade) (hc : CarriedBy signals strategy side) :
    ∃ s ∈ signals, s.strategy = strategy := by
  cases hf : signals.filter (fun s => s.side = side) with
  | nil =>
    rw [confidenceFor, hf] at h
    exact absurd h (lt_irrefl _)
  | cons s rest =>
    have hs : s ∈ signals.filter (fun s => s.side = side) := hf ▸ List.mem_cons_self
    obtain ⟨hmem, hs⟩ := List.mem_filter.mp hs
    have hs : s.side = side := of_decide_eq_true hs
    exact ⟨s, hmem, (hc s hmem (hs ▸ hside)).1⟩

lemma NoBetter.confidence_le (h : NoBetter l l' strategy) (hside : side ≠ .noTrade) (hc : CarriedBy signals strategy side)
    (hconf : 0 < confidenceFor signals side) (symbol : String) (runId : Option String) :
    (decide l regime symbol signals runId).confidence ≤ (decide l' regime symbol signals runId).confidence := by
  rw [confidence_of_carried l regime symbol hside hc, confidence_of_carried l' regime symbol hside hc]
  apply gauge_le (regimeFactor_pos regime) (h.calibration _ _)
  exact mul_le_mul_of_nonneg_right h.weight_le hconf.le

/-- The confidence strictly follows the results where it is off its bounds. -/
lemma NoBetter.confidence_lt (h : NoBetter l l' strategy) (hside : side ≠ .noTrade) (hc : CarriedBy signals strategy side)
    (hconf : 0 < confidenceFor signals side) (hscore : scoreOf l strategy < scoreOf l' strategy)
    (hrivals : 0 < rivalWeight l' regime signals strategy)
    (hpos : 0 < ((effectiveWeights l' regime signals).get strategy).getD 0)
    (hraw : carriedScore l regime signals strategy side < 95 / 100) {symbol : String} {runId : Option String}
    (hlow : 5 / 100 < (decide l' regime symbol signals runId).confidence)
    (hhigh : (decide l regime symbol signals runId).confidence < 95 / 100) :
    (decide l regime symbol signals runId).confidence < (decide l' regime symbol signals runId).confidence := by
  have hweight := h.weight_lt hscore hrivals hpos (exists_signal hconf hside hc)
  rw [confidence_of_carried _ regime symbol hside hc] at hlow hhigh
  rw [confidence_of_carried l regime symbol hside hc, confidence_of_carried l' regime symbol hside hc]
  exact gauge_lt (regimeFactor_pos regime) (h.calibration _ _) (mul_lt_mul_of_pos_right hweight hconf) hraw hlow hhigh

end MLMeta

namespace FastLearning

open MLMeta

lemma scoreOf_recordTrade_of_ne (l : FastLearning) {t : AlphaTrade} {strategy : String} (h : strategy ≠ t.strategy) :
    (l.recordTrade t).strategyScore strategy = l.strategyScore strategy := by
  unfold strategyScore recordTrade Dict.push
  rw [Dict.get_alter_of_ne h]

lemma calibration_recordTrade (l : FastLearning) (t : AlphaTrade) (strategy side : String) :
    (l.recordTrade t).confidenceCalibration strategy side =
      if (strategy, side) = (t.strategy, t.side) then
        max (-1 / 4) (min (1 / 4) (l.confidenceCalibration strategy side + if 0 < t.pnl then 1 / 50 else -1 / 25))
      else l.confidenceCalibration strategy side := by
  unfold confidenceCalibration recordTrade
  dsimp only
  by_cases heq : (strategy, side) = (t.strategy, t.side)
  · rw [if_pos heq, heq, Dict.get_alter_self, Option.getD_some]
  · rw [if_neg heq, Dict.get_alter_of_ne heq]

/-- Recorded trades keep every calibration within a quarter. -/
lemma calibration_ofHistory (history : List AlphaTrade) (strategy side : String) :
    |(ofHistory history).confidenceCalibration strategy side| ≤ 1 / 4 := by
  induction history using List.reverseRecOn with
  | nil => simp [ofHistory, confidenceCalibration, Dict.get_nil]
  | append_singleton history t ih =>
    have hconcat : ofHistory (history ++ [t]) = (ofHistory history).recordTrade t := by
      rw [ofHistory, List.foldl_append]
      rfl
    rw [hconcat, calibration_recordTrade]
    split
    · rw [abs_le]
      exact ⟨by norm_num, max_le (by norm_num) (min_le_left _ _)⟩
    · exact ih

variable {history : List AlphaTrade} {t : AlphaTrade}

/-- A loss leaves results that are no better, unless it is small enough to raise their average. -/
lemma noBetter_of_loss (hloss : t.pnl < 0)
    (hscore : scoreOf ((ofHistory history).recordTrade t) t.strategy ≤ scoreOf (ofHistory history) t.strategy) :
    NoBetter ((ofHistory history).recordTrade t) (ofHistory history) t.strategy where
  elsewhere s hs := (scoreOf_recordTrade_of_ne _ hs).symm
  score := hscore
  calibration name side := by
    have hcal := abs_le.mp (calibration_ofHistory history name side)
    rw [calibration_recordTrade, if_neg hloss.not_gt]
    split
    · exact max_le (by linarith) ((min_le_right _ _).trans (by linarith))
    · exact le_rfl

lemma noBetter_of_win (hwin : 0 < t.pnl)
    (hscore : scoreOf (ofHistory history) t.strategy ≤ scoreOf ((ofHistory history).recordTrade t) t.strategy) :
    NoBetter (ofHistory history) ((ofHistory history).recordTrade t) t.strategy where
  elsewhere s hs := scoreOf_recordTrade_of_ne _ hs
  score := hscore
  calibration name side := by
    have hcal := abs_le.mp (calibration_ofHistory history name side)
    rw [calibration_recordTrade, if_pos hwin]
    split
    · exact le_max_of_le_right (le_min (by linarith) (by linarith))
    · exact le_rfl

end FastLearning

namespace MLMeta

open FastLearning

variable (l : FastLearning) (regime : MarketRegime) (symbol : String) (signals : List AlphaSignal) (runId : Option String)

/-- Neither the confidence nor the raw confidence that a strategy carries is at a bound, and the strategy is not
the only one that weighs. -/
structure OffBounds (strategy : String) (side : AlphaSide) : Prop where
  raw : carriedScore l regime signals strategy side < 95 / 100
  low : 5 / 100 < (decide l regime symbol signals runId).confidence
  high : (decide l regime symbol signals runId).confidence < 95 / 100
  rivals : 0 < rivalWeight l regime signals strategy

/-- Weights and confidence are bounded, and a decision follows the average result of the strategy that carries it. -/
structure FeedsBack : Prop where
  weights_nonneg : ∀ e ∈ effectiveWeights l regime signals, 0 ≤ e.2
  weights_sum : ((effectiveWeights l regime signals).map Prod.snd).sum = 1
  confidence_zero : (decide l regime symbol signals runId).confidence = 0 ↔
    (decide l regime symbol signals runId).side = .noTrade
  confidence_bounds : (decide l regime symbol signals runId).side ≠ .noTrade →
    5 / 100 ≤ (decide l regime symbol signals runId).confidence ∧ (decide l regime symbol signals runId).confidence ≤ 95 / 100
  losing : ∀ (t : AlphaTrade) (side : AlphaSide), Carried l regime signals t.strategy side → t.side = side.value → t.pnl < 0 →
    scoreOf (l.recordTrade t) t.strategy ≤ scoreOf l t.strategy →
      (decide (l.recordTrade t) regime symbol signals runId).confidence ≤ (decide l regime symbol signals runId).confidence ∧
      (OffBounds l regime symbol signals runId t.strategy side → scoreOf (l.recordTrade t) t.strategy < scoreOf l t.strategy →
        (decide (l.recordTrade t) regime symbol signals runId).confidence < (decide l regime symbol signals runId).confidence)
  winning : ∀ (t : AlphaTrade) (side : AlphaSide), Carried l regime signals t.strategy side → t.side = side.value → 0 < t.pnl →
    scoreOf l t.strategy ≤ scoreOf (l.recordTrade t) t.strategy →
      (decide l regime symbol signals runId).confidence ≤ (decide (l.recordTrade t) regime symbol signals runId).confidence ∧
      (OffBounds l regime symbol signals runId t.strategy side → scoreOf l t.strategy < scoreOf (l.recordTrade t) t.strategy →
        (decide l regime symbol signals runId).confidence < (decide (l.recordTrade t) regime symbol signals runId).confidence)

lemma side_decide : (decide l regime symbol signals runId).side = (judge l regime signals).1 := rfl

lemma confidence_decide : (decide l regime symbol signals runId).confidence =
    calibrate l regime symbol (judge l regime signals).1 (judge l regime signals).2 := rfl

lemma calibrate_bounds {side : AlphaSide} (hside : side ≠ .noTrade) (raw : ℚ) :
    5 / 100 ≤ calibrate l regime symbol side raw ∧ calibrate l regime symbol side raw ≤ 95 / 100 := by
  rw [calibrate, if_neg hside]
  exact ⟨le_min (by norm_num) (le_max_left _ _), min_le_left _ _⟩

end MLMeta

end CryptoTrader
