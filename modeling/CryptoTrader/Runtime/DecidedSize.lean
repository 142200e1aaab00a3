import CryptoTrader.Lib.Json
import CryptoTrader.Runtime.PositionDecisions

/-!
# The size that the position manager decides

`PositionManager.decide` says by how much a position should change, and the brain passes its
decision on to the bridge without that number. The bridge takes the size from its own map of
overrides instead, where there is none unless someone has set one, so that a reduction and an
addition come out empty. When the size reaches the evaluation: `decided_size_iff`.
-/

namespace CryptoTrader

namespace Decisions

structure PositionContext where
  symbol : String
  positionQuantity : ℚ := 0
  unrealizedPnl : ℚ := 0
  timeInPositionSeconds : ℚ := 0
  supportingEvidence : List String := []
  contradictingEvidence : List String := []
  thesisStatus : String := "THESIS_INTACT"
  hardRiskExit : Bool := false
  deriving DecidableEq, Repr

structure PositionDecision where
  symbol : String
  action : String
  confidence : ℚ
  reason : String
  supportingEvidence : List String := []
  contradictingEvidence : List String := []
  thesisStatus : String := "THESIS_INTACT"
  exitReason : String := ""
  riskNotes : List String := []
  positionBefore : ℚ := 0
  requestedChange : ℚ := 0
  reductionFraction : ℚ := 0
  deriving DecidableEq, Repr

/-- `PositionManager.decide`, without the rounding of the sizes to eight digits. -/
def PositionContext.decide (ctx : PositionContext) : PositionDecision :=
  if ctx.positionQuantity ≤ 0 then
    { symbol := ctx.symbol, action := "NO_ACTION", confidence := 1, reason := "no active position" }
  else if ctx.hardRiskExit then
    { symbol := ctx.symbol
      action := "EXIT"
      confidence := 1
      reason := "hard risk exit"
      exitReason := "EMERGENCY_RISK_EXIT"
      thesisStatus := ctx.thesisStatus
      positionBefore := ctx.positionQuantity
      requestedChange := ctx.positionQuantity
      riskNotes := ["hard risk exit"] }
  else if ctx.thesisStatus = "THESIS_INVALIDATED" then
    { symbol := ctx.symbol
      action := "EXIT"
      confidence := 9 / 10
      reason := "thesis invalidated"
      exitReason := "THESIS_INVALIDATED"
      thesisStatus := ctx.thesisStatus
      positionBefore := ctx.positionQuantity
      requestedChange := ctx.positionQuantity }
  else if ctx.thesisStatus = "THESIS_WEAKENING" then
    let fraction : ℚ := if 0 < ctx.unrealizedPnl then 3 / 10 else 1 / 2
    { symbol := ctx.symbol
      action := "REDUCE"
      confidence := 7 / 10
      reason := "thesis weakening"
      exitReason := "THESIS_WEAKENING"
      thesisStatus := ctx.thesisStatus
      positionBefore := ctx.positionQuantity
      requestedChange := ctx.positionQuantity * fraction
      reductionFraction := fraction
      contradictingEvidence := ctx.contradictingEvidence }
  else if ctx.thesisStatus = "THESIS_STRENGTHENING" ∧ 0 < ctx.positionQuantity then
    { symbol := ctx.symbol
      action := "ADD"
      confidence := 6 / 10
      reason := "thesis strengthening"
      thesisStatus := ctx.thesisStatus
      positionBefore := ctx.positionQuantity
      requestedChange := ctx.positionQuantity * (1 / 4) }
  else if 0 < ctx.unrealizedPnl ∧ 3600 < ctx.timeInPositionSeconds then
    { symbol := ctx.symbol
      action := "HOLD"
      confidence := 65 / 100
      reason := "profit running; thesis intact"
      supportingEvidence := ctx.supportingEvidence
      contradictingEvidence := ctx.contradictingEvidence
      thesisStatus := ctx.thesisStatus
      positionBefore := ctx.positionQuantity }
  else
    { symbol := ctx.symbol
      action := "HOLD"
      confidence := 6 / 10
      reason := "thesis intact"
      supportingEvidence := ctx.supportingEvidence
      contradictingEvidence := ctx.contradictingEvidence
      thesisStatus := ctx.thesisStatus
      positionBefore := ctx.positionQuantity }

/-- An active position, as `evaluate` is given it. -/
structure ActivePosition where
  quantity : ℚ
  side : PositionSide
  unrealizedPnl : ℚ := 0
  ageSeconds : ℚ := 0
  thesis : String := "position management"
  thesisStatus : String := "THESIS_INTACT"
  hardRiskExit : Bool := false
  requestedChange : ℚ := 0
  supporting : List String := []
  contradicting : List String := []
  deriving DecidableEq, Repr

def ActivePosition.context (p : ActivePosition) (symbol : String) : PositionContext where
  symbol := symbol
  positionQuantity := p.quantity
  unrealizedPnl := p.unrealizedPnl
  timeInPositionSeconds := p.ageSeconds
  supportingEvidence := p.supporting
  contradictingEvidence := p.contradicting
  thesisStatus := p.thesisStatus
  hardRiskExit := p.hardRiskExit

/-- `_position_analysis`: the intent has no field for the size. -/
def ActivePosition.analysis (p : ActivePosition) (symbol : String) : TradingIntent :=
  let decision := (p.context symbol).decide
  { action := if decision.action ≠ "NO_ACTION" then decision.action else "NO_TRADE"
    confidence := decision.confidence
    thesis := p.thesis }

/-- The maps that the bridge is told to use. -/
structure Overrides where
  thesis : Dict String String := []
  requestedChange : Dict String ℚ := []
  hardRisk : Dict String Bool := []
  deriving DecidableEq, Repr

/-- `active_position` of `_evaluate_one`. -/
def Overrides.activePosition (o : Overrides) (c : Candidate) (unrealizedPnl : ℚ) : ActivePosition where
  quantity := c.quantity
  side := c.side
  unrealizedPnl := unrealizedPnl
  thesisStatus := (o.thesis.get c.symbol).getD "THESIS_INTACT"
  hardRiskExit := (o.hardRisk.get c.symbol).getD false
  requestedChange := (o.requestedChange.get c.symbol).getD 0

/-- What the brain answers on an active position. -/
def ActivePosition.answers (p : ActivePosition) (symbol : String) (clock : ℤ) : Answers where
  clock := clock
  intent := p.analysis symbol
  thesisStatus := p.thesisStatus
  requestedChange := p.requestedChange

/-- A position that is open, without an override of its size. -/
structure Managed where
  candidate : Candidate
  unrealizedPnl : ℚ
  overrides : Overrides
  config : BridgeConfig
  memory : Memory
  clock : ℤ
  opened : 0 < candidate.quantity
  noSize : overrides.requestedChange.get candidate.symbol = none

namespace Managed

variable (m : Managed)

def position : ActivePosition :=
  m.overrides.activePosition m.candidate m.unrealizedPnl

def decision : PositionDecision :=
  (m.position.context m.candidate.symbol).decide

def answers : Answers :=
  m.position.answers m.candidate.symbol m.clock

def evaluation : AIPositionEvaluation :=
  (evaluate m.config m.answers m.candidate m.memory).1

def cooling : Bool :=
  onCooldown m.config m.answers m.candidate m.memory

/-- The decided size is in the evaluation: part of the position for a reduction, on its closing side, and something
for an addition, on its own. -/
structure SizeReaches : Prop where
  size : m.evaluation.action ∈ ["REDUCE", "ADD", "EXIT"] → m.evaluation.quantity = m.decision.requestedChange
  reduction : m.evaluation.executable = true → m.evaluation.action = "REDUCE" →
    (0 < m.evaluation.quantity ∧ m.evaluation.quantity ≤ m.candidate.quantity) ∧ m.evaluation.reduceOnly = true ∧
      m.evaluation.side = some (closeSide m.candidate.side)
  addition : m.evaluation.executable = true → m.evaluation.action = "ADD" →
    0 < m.evaluation.quantity ∧ m.evaluation.side = some (openSide m.candidate.side)

/-- The brain decides on neither a reduction nor an addition. -/
def KeepsSize : Prop :=
  m.cooling = true ∨ m.position.hardRiskExit = true ∨
    m.position.thesisStatus ≠ "THESIS_WEAKENING" ∧ m.position.thesisStatus ≠ "THESIS_STRENGTHENING"

/-- What is decided on an open position. -/
theorem decided_cases (ctx : PositionContext) (hq : 0 < ctx.positionQuantity) :
    (ctx.decide.action = "EXIT" ∧ ctx.decide.requestedChange = ctx.positionQuantity ∧
        (ctx.hardRiskExit = true ∨ ctx.thesisStatus = "THESIS_INVALIDATED")) ∨
      (ctx.decide.action = "REDUCE" ∧ 0 < ctx.decide.requestedChange ∧ ctx.hardRiskExit = false ∧
        ctx.thesisStatus = "THESIS_WEAKENING") ∨
      (ctx.decide.action = "ADD" ∧ 0 < ctx.decide.requestedChange ∧ ctx.hardRiskExit = false ∧
        ctx.thesisStatus = "THESIS_STRENGTHENING") ∨
      (ctx.decide.action = "HOLD" ∧
        ctx.thesisStatus ≠ "THESIS_WEAKENING" ∧ ctx.thesisStatus ≠ "THESIS_STRENGTHENING") := by
  unfold PositionContext.decide
  rw [if_neg hq.not_ge]
  split_ifs with hr hi hw hgain hs
  · exact .inl ⟨rfl, rfl, .inl hr⟩
  · exact .inl ⟨rfl, rfl, .inr hi⟩
  · exact .inr (.inl ⟨rfl, mul_pos hq (by norm_num), by simpa using hr, hw⟩)
  · exact .inr (.inl ⟨rfl, mul_pos hq (by norm_num), by simpa using hr, hw⟩)
  · exact .inr (.inr (.inl ⟨rfl, mul_pos hq (by norm_num), by simpa using hr, hs.1⟩))
  · exact .inr (.inr (.inr ⟨rfl, hw, fun h => hs ⟨h, hq⟩⟩))
  · exact .inr (.inr (.inr ⟨rfl, hw, fun h => hs ⟨h, hq⟩⟩))

theorem no_override : m.answers.requestedChange = 0 := by
  simp [answers, ActivePosition.answers, position, Overrides.activePosition, m.noSize]

theorem cooling_evaluation (h : m.cooling = true) :
    m.evaluation.action = "COOLDOWN" ∧ m.evaluation.executable = false := by
  have hc : onCooldown m.config m.answers m.candidate m.memory = true := h
  simp [evaluation, evaluate, hc]

/-- The bridge asks for an order without a size. -/
theorem evaluation_of_action (h : m.cooling = false) (action : String)
    (ha : m.decision.action = action) (hn : action ≠ "NO_ACTION") :
    m.evaluation.action = action ∧
      m.evaluation.quantity = (mapTradingIntent action m.candidate.side m.candidate.quantity 0).quantity := by
  have hc : onCooldown m.config m.answers m.candidate m.memory = false := h
  have hi : m.answers.intent.action = action := by
    change (if m.decision.action ≠ "NO_ACTION" then m.decision.action else "NO_TRADE") = action
    rw [ha, if_pos hn]
  have hz : m.answers.requestedChange = 0 := m.no_override
  simp [evaluation, evaluate, hc, hi, hz]

/-- An exit closes the position, whatever size is asked for. -/
lemma exit_reaches (h : m.cooling = false) (ha : m.decision.action = "EXIT")
    (hs : m.decision.requestedChange = m.candidate.quantity) : m.SizeReaches := by
  obtain ⟨hact, hsize⟩ := m.evaluation_of_action h "EXIT" ha (by decide)
  have hclose : (mapTradingIntent "EXIT" m.candidate.side m.candidate.quantity 0).quantity = m.candidate.quantity := by
    simp [mapTradingIntent, m.opened.not_ge]
  refine ⟨fun _ => ?_, ?_, ?_⟩
  · rw [hsize, hclose, hs]
  · simp [hact]
  · simp [hact]

/-- The size of a change does not arrive. -/
lemma change_lost (h : m.cooling = false) {action : String} (ha : m.decision.action = action)
    (hchange : action ∈ ["REDUCE", "ADD"]) (hs : 0 < m.decision.requestedChange) : ¬ m.SizeReaches := by
  intro hreach
  have hzero : (mapTradingIntent action m.candidate.side m.candidate.quantity 0).quantity = 0 := by
    rcases List.mem_pair.mp hchange with rfl | rfl
    · simp [mapTradingIntent, m.opened.not_ge, min_eq_left m.opened.le]
    · simp [mapTradingIntent, m.opened.not_ge, min_eq_left m.opened.le]
  have hne : action ≠ "NO_ACTION" := by
    rintro rfl
    exact absurd hchange (by decide)
  obtain ⟨hact, hsize⟩ := m.evaluation_of_action h action ha hne
  have hmem : m.evaluation.action ∈ ["REDUCE", "ADD", "EXIT"] := by
    rw [hact]
    exact List.mem_append_left ["EXIT"] hchange
  have heq := hreach.size hmem
  rw [hsize, hzero] at heq
  exact absurd heq hs.ne

/-- The brain's size is in the evaluation if and only if it decides on neither a reduction nor an addition. -/
theorem decided_size_iff : m.SizeReaches ↔ m.KeepsSize := by
  have hq : 0 < (m.position.context m.candidate.symbol).positionQuantity := m.opened
  cases hcool : m.cooling with
  | true =>
    obtain ⟨ha, he⟩ := m.cooling_evaluation hcool
    refine ⟨fun _ => .inl hcool, fun _ => ⟨?_, ?_, ?_⟩⟩
    · simp [ha]
    · simp [he]
    · simp [he]
  | false =>
    have hkeeps : m.KeepsSize ↔ m.position.hardRiskExit = true ∨
        m.position.thesisStatus ≠ "THESIS_WEAKENING" ∧ m.position.thesisStatus ≠ "THESIS_STRENGTHENING" := by
      simp [KeepsSize, hcool]
    rw [hkeeps]
    rcases decided_cases _ hq with ⟨ha, hs, hw⟩ | ⟨ha, hs, hr, hw⟩ | ⟨ha, hs, hr, hw⟩ | ⟨ha, hw⟩
    · refine ⟨fun _ => ?_, fun _ => m.exit_reaches hcool ha hs⟩
      rcases hw with hw | hw
      · exact .inl hw
      · have hi : m.position.thesisStatus = "THESIS_INVALIDATED" := hw
        simp [hi]
    · have hweak : m.position.thesisStatus = "THESIS_WEAKENING" := hw
      have hrisk : m.position.hardRiskExit = false := hr
      refine ⟨fun h => (m.change_lost hcool ha (by decide) hs h).elim, fun h => ?_⟩
      simp [hweak, hrisk] at h
    · have hstrong : m.position.thesisStatus = "THESIS_STRENGTHENING" := hw
      have hrisk : m.position.hardRiskExit = false := hr
      refine ⟨fun h => (m.change_lost hcool ha (by decide) hs h).elim, fun h => ?_⟩
      simp [hstrong, hrisk] at h
    · obtain ⟨hact, -⟩ := m.evaluation_of_action hcool "HOLD" ha (by decide)
      exact ⟨fun _ => .inr hw, fun _ => ⟨by simp [hact], by simp [hact], by simp [hact]⟩⟩

/-- A long of two at a loss, whose thesis weakens. -/
def weakening : Managed where
  candidate := { symbol := "BTC-USDT", marketType := .perpetual, side := .long, quantity := 2 }
  unrealizedPnl := -1
  overrides := { thesis := [("BTC-USDT", "THESIS_WEAKENING")] }
  config := {}
  memory := {}
  clock := 0
  opened := by decide
  noSize := rfl

/-- The brain asks for a reduction by one, and the bridge answers with an order of nothing. -/
theorem reduction_loses_size :
    weakening.decision.action = "REDUCE" ∧ weakening.decision.requestedChange = 1 ∧
      weakening.evaluation.action = "REDUCE" ∧ weakening.evaluation.executable = true ∧
      weakening.evaluation.quantity = 0 ∧ ¬ weakening.SizeReaches := by
  have hsize : weakening.decision.requestedChange = 1 := by decide +kernel
  have hzero : weakening.evaluation.quantity = 0 := by decide +kernel
  have hact : weakening.evaluation.action = "REDUCE" := by decide +kernel
  refine ⟨by decide +kernel, hsize, hact, by decide +kernel, hzero, fun h => ?_⟩
  have heq := h.size (by simp [hact])
  rw [hzero, hsize] at heq
  exact absurd heq (by decide)

end Managed

end Decisions

end CryptoTrader
