import CryptoTrader.Lib.Json
import CryptoTrader.Lib.Runs
import Mathlib.Algebra.Order.BigOperators.Group.List
import Mathlib.Algebra.Order.Field.Rat
import Mathlib.Tactic.Linarith

/-!
# The review of a trade

`governance/risk_levels.py`, `governance/reviewers.py` and `governance/trade_review.py`: the
level of a proposed trade, the two reviewers, the gate of human approvals and the service
that puts them together. The gate is the only state, so a run of reviews is a run of the
gate: an L4 trade passes exactly on an approval that answers an open request in time, and
each request is answered once (`l4_pass_iff`).
-/

namespace CryptoTrader.TradeReview

open KeyedTable Runs

inductive RiskLevel where
  | l1
  | l2
  | l3
  | l4
  deriving DecidableEq, Repr

structure RiskLevelInput where
  leverage : ℚ
  positionNotional : ℚ
  nav : ℚ
  tradeRiskEquityPct : ℚ
  portfolioGrossExposurePct : ℚ
  extremeMarket : Bool := false
  drawdownStress : Bool := false
  exchangeAbnormal : Bool := false
  liquidityAbnormal : Bool := false
  manualPolicyTrigger : Bool := false
  deriving DecidableEq, Repr

/-- `TradeRiskClassifier.classify`. -/
def classify (inp : RiskLevelInput) : RiskLevel :=
  let posPct := if 0 < inp.nav then inp.positionNotional / inp.nav * 100 else 999
  if inp.extremeMarket ∨ inp.drawdownStress ∨ inp.exchangeAbnormal ∨ inp.liquidityAbnormal ∨ inp.manualPolicyTrigger ∨
      6 ≤ inp.leverage ∨ 25 ≤ posPct ∨ 3 ≤ inp.tradeRiskEquityPct ∨ 200 ≤ inp.portfolioGrossExposurePct then .l4
  else if 4 ≤ inp.leverage ∨ 15 ≤ posPct ∨ 2 ≤ inp.tradeRiskEquityPct ∨ 100 ≤ inp.portfolioGrossExposurePct then .l3
  else if 2 ≤ inp.leverage ∨ 5 ≤ posPct then .l2
  else .l1

/-! ### The reviewers -/

inductive ReviewDecision where
  | pass
  | reduce
  | reject
  | escalate
  | waitingApproval
  deriving DecidableEq, Repr

structure StructuredReview where
  decision : ReviewDecision
  riskScore : ℚ
  flags : List String := []
  recommendedPosition : ℚ := 0
  recommendedLeverage : ℚ := 0
  requiredActions : List String := []
  reasonCodes : List String := []
  reviewVersion : String := "v1"
  reviewer : String := ""
  deriving DecidableEq, Repr

/-- A condition that a reviewer flags, and what it adds to the score. -/
structure Flag where
  raised : Bool
  name : String
  weight : ℚ
  deriving DecidableEq, Repr

def flagScore (flags : List Flag) : ℚ :=
  ((flags.filter Flag.raised).map Flag.weight).sum

/-- The review that the flags make up. -/
def structuredReview (reviewer : String) (decide : ℚ → ReviewDecision) (flags : List Flag) : StructuredReview :=
  let names := (flags.filter Flag.raised).map Flag.name
  { decision := decide (flagScore flags), riskScore := flagScore flags, flags := names, reasonCodes := names, reviewer }

/-- The keyword arguments of `RiskReviewer.review`. -/
structure RiskFacts where
  leverage : ℚ
  positionNotional : ℚ
  nav : ℚ
  maintenanceMargin : ℚ
  liquidationDistancePct : ℚ
  grossExposurePct : ℚ
  drawdownPct : ℚ
  marketVolatility : ℚ
  liquidityScore : ℚ
  fundingRate : ℚ
  marketDataHealthy : Bool
  deriving DecidableEq, Repr

def RiskFacts.flags (facts : RiskFacts) : List Flag :=
  [⟨!facts.marketDataHealthy, "MARKET_DATA_STALE", 20⟩,
    ⟨6 < facts.leverage, "LEVERAGE_ABOVE_HARD_MAX", 40⟩,
    ⟨facts.liquidationDistancePct < 2 / 100, "LIQUIDATION_TOO_CLOSE", 30⟩,
    ⟨150 < facts.grossExposurePct, "GROSS_EXPOSURE_HIGH", 20⟩,
    ⟨30 < facts.drawdownPct, "DRAWDOWN_STRESS", 30⟩,
    ⟨facts.liquidityScore < 4 / 10, "LIQUIDITY_DETERIORATED", 15⟩,
    ⟨1 / 1000 < facts.fundingRate, "FUNDING_CROWDED", 10⟩]

/-- The decision of the risk reviewer: a score of 60 is escalated, one from 40 rejected. -/
def riskDecision (score : ℚ) : ReviewDecision :=
  if score = 0 then .pass else if 60 ≤ score then .escalate else if 40 ≤ score then .reject else .reduce

/-- `RiskReviewer.review`. -/
def riskReview (facts : RiskFacts) : StructuredReview :=
  structuredReview "risk_reviewer" riskDecision facts.flags

/-- The keyword arguments of `AdversarialReviewer.review`. -/
structure AdversarialFacts where
  fundingRate : ℚ
  oiSpike : ℚ
  basis : ℚ
  momentumDivergence : ℚ
  regimeConflict : Bool
  liquidationCluster : Bool
  volatilitySpike : ℚ
  liquidityDeterioration : Bool
  spreadWidening : Bool
  historicalFailurePattern : Bool
  correlationConcentration : Bool
  staleData : Bool
  executionUncertainty : Bool
  deriving DecidableEq, Repr

def AdversarialFacts.flags (facts : AdversarialFacts) : List Flag :=
  [⟨facts.staleData, "STALE_DATA", 30⟩,
    ⟨facts.executionUncertainty, "EXECUTION_UNCERTAINTY", 20⟩,
    ⟨1 / 1000 < facts.fundingRate, "FUNDING_CROWDED", 15⟩,
    ⟨15 / 100 < facts.oiSpike, "OI_SPIKE", 15⟩,
    ⟨5 / 1000 < |facts.basis|, "BASIS_DISLOCATION", 15⟩,
    ⟨1 / 10 < facts.momentumDivergence, "MOMENTUM_DIVERGENCE", 15⟩,
    ⟨facts.regimeConflict, "REGIME_CONFLICT", 20⟩,
    ⟨facts.liquidationCluster, "LIQUIDATION_CLUSTER", 25⟩,
    ⟨1 / 2 < facts.volatilitySpike, "VOLATILITY_SPIKE", 20⟩,
    ⟨facts.liquidityDeterioration, "LIQUIDITY_DETERIORATION", 15⟩,
    ⟨facts.spreadWidening, "SPREAD_WIDENING", 10⟩,
    ⟨facts.historicalFailurePattern, "HISTORICAL_FAILURE_PATTERN", 30⟩,
    ⟨facts.correlationConcentration, "CORRELATION_CONCENTRATION", 15⟩]

def adversarialDecision (score : ℚ) : ReviewDecision :=
  if score = 0 then .pass else if 50 ≤ score then .reject else if 30 ≤ score then .escalate else .reduce

/-- `AdversarialReviewer.review`. -/
def adversarialReview (facts : AdversarialFacts) : StructuredReview :=
  structuredReview "adversarial_reviewer" adversarialDecision facts.flags

/-! ### The gate of human approvals -/

/-- `HumanApprovalGate`. Times are in seconds. -/
structure HumanApprovalGate where
  timeoutSeconds : ℚ := 300
  pending : Dict String ℚ := []
  deriving DecidableEq, Repr

namespace HumanApprovalGate

def request (gate : HumanApprovalGate) (decisionId : String) (now : ℚ) : ReviewDecision × HumanApprovalGate :=
  (.waitingApproval, { gate with pending := gate.pending.alter decisionId (fun _ => now) })

/-- `del self.pending[decision_id]`. -/
def drop (gate : HumanApprovalGate) (decisionId : String) : HumanApprovalGate :=
  { gate with pending := gate.pending.filter (fun e => e.1 ≠ decisionId) }

def resolve (gate : HumanApprovalGate) (decisionId : String) (approved : Bool) (now : ℚ) :
    ReviewDecision × HumanApprovalGate :=
  match gate.pending.get decisionId with
  | none => (.reject, gate)
  | some requested =>
    if gate.timeoutSeconds < now - requested then (.reject, gate.drop decisionId)
    else (if approved then .pass else .reject, gate.drop decisionId)

end HumanApprovalGate

/-! ### The service -/

structure TradeReviewResult where
  level : RiskLevel
  decision : ReviewDecision
  reviews : List StructuredReview := []
  approvedPosition : ℚ := 0
  approvedLeverage : ℚ := 0
  requiredActions : List String := []
  reasonCodes : List String := []
  humanApprovalId : Option String := none
  deriving DecidableEq, Repr

/-- The arguments of `TradeReviewService.review`. -/
structure ReviewCall where
  decisionId : String
  riskInput : RiskLevelInput
  riskFacts : RiskFacts
  adversarialFacts : AdversarialFacts
  proposedPosition : ℚ
  proposedLeverage : ℚ
  humanApproved : Option Bool := none
  now : ℚ
  deriving DecidableEq, Repr

/-- The review of a level that the service passes by itself. -/
def automaticReview : StructuredReview where
  decision := .pass
  riskScore := 0
  reviewer := "automatic"
  reasonCodes := ["L1_AUTOMATIC"]

/-- The position and leverage of a decision that two reviewers, or a person, have made. -/
def approvedAmounts (call : ReviewCall) (positionShare leverageCap : ℚ) : ReviewDecision → ℚ × ℚ
  | .pass => (call.proposedPosition, call.proposedLeverage)
  | .reduce => (call.proposedPosition * positionShare, min call.proposedLeverage leverageCap)
  | _ => (0, 0)

/-- The result for the levels that both reviewers see, once the decision is made. -/
def reviewedResult (call : ReviewCall) (level : RiskLevel) (reviews : List StructuredReview) (final : ReviewDecision) :
    TradeReviewResult :=
  let amounts := approvedAmounts call (6 / 10) 2 final
  { level, decision := final, reviews, approvedPosition := amounts.1, approvedLeverage := amounts.2,
    requiredActions := reviews.flatMap StructuredReview.requiredActions,
    reasonCodes := reviews.flatMap StructuredReview.reasonCodes }

/-- `TradeReviewService.review`, at the time `call.now`. -/
def review (gate : HumanApprovalGate) (call : ReviewCall) : TradeReviewResult × HumanApprovalGate :=
  let level := classify call.riskInput
  if level = .l1 then
    ({ level, decision := .pass, reviews := [automaticReview], approvedPosition := call.proposedPosition,
       approvedLeverage := call.proposedLeverage, reasonCodes := ["L1_AUTOMATIC"] }, gate)
  else
    let risk := riskReview call.riskFacts
    if level = .l2 then
      if risk.decision = .pass ∨ risk.decision = .reduce then
        let amounts := approvedAmounts call (8 / 10) 3 risk.decision
        ({ level, decision := risk.decision, reviews := [risk], approvedPosition := amounts.1,
           approvedLeverage := amounts.2, requiredActions := risk.requiredActions,
           reasonCodes := risk.reasonCodes }, gate)
      else ({ level, decision := risk.decision, reviews := [risk], reasonCodes := risk.reasonCodes }, gate)
    else
      let adversarial := adversarialReview call.adversarialFacts
      let reviews := [risk, adversarial]
      let decisions := reviews.map StructuredReview.decision
      if .reject ∈ decisions then (reviewedResult call level reviews .reject, gate)
      else if level = .l4 then
        match call.humanApproved with
        | none =>
          let (_, gate) := gate.request call.decisionId call.now
          ({ level, decision := .waitingApproval, reviews, humanApprovalId := some call.decisionId,
             reasonCodes := ["L4_HUMAN_APPROVAL_REQUIRED"] }, gate)
        | some approved =>
          let (final, gate) := gate.resolve call.decisionId approved call.now
          (reviewedResult call level reviews final, gate)
      else if .escalate ∈ decisions then (reviewedResult call level reviews .escalate, gate)
      else if .reduce ∈ decisions then (reviewedResult call level reviews .reduce, gate)
      else (reviewedResult call level reviews .pass, gate)

/-! ### One review -/

namespace ReviewCall

variable (call : ReviewCall)

def level : RiskLevel := classify call.riskInput

/-- A reviewer rejects. -/
def Rejected : Prop :=
  (riskReview call.riskFacts).decision = .reject ∨ (adversarialReview call.adversarialFacts).decision = .reject

instance : Decidable call.Rejected := inferInstanceAs (Decidable (_ ∨ _))

/-- The review is about the decision and comes to the gate. -/
def AsksGate (decisionId : String) : Prop :=
  call.level = .l4 ∧ ¬ call.Rejected ∧ call.decisionId = decisionId

instance (decisionId : String) : Decidable (call.AsksGate decisionId) := inferInstanceAs (Decidable (_ ∧ _ ∧ _))

end ReviewCall

variable {gate : HumanApprovalGate} {call : ReviewCall}

lemma mem_decisions : ReviewDecision.reject ∈ ([riskReview call.riskFacts, adversarialReview call.adversarialFacts].map
    StructuredReview.decision) ↔ call.Rejected := by
  simp [ReviewCall.Rejected, eq_comm]

/-- A review that does not come to the gate leaves it alone. -/
lemma review_apart (h : ¬ (call.level = .l4 ∧ ¬ call.Rejected)) : (review gate call).2 = gate := by
  unfold review
  dsimp only
  split
  · rfl
  · split
    · split <;> rfl
    · split
      · rfl
      · rename_i hreject
        rw [mem_decisions] at hreject
        have h4 : ¬ classify call.riskInput = .l4 := fun h4 => h ⟨h4, hreject⟩
        rw [if_neg h4]
        split
        · rfl
        · split <;> rfl

/-- A review that comes to the gate. -/
lemma review_gate (h4 : call.level = .l4) (hreject : ¬ call.Rejected) :
    review gate call =
      match call.humanApproved with
      | none =>
        ({ level := .l4, decision := .waitingApproval,
           reviews := [riskReview call.riskFacts, adversarialReview call.adversarialFacts],
           humanApprovalId := some call.decisionId, reasonCodes := ["L4_HUMAN_APPROVAL_REQUIRED"] },
          (gate.request call.decisionId call.now).2)
      | some approved =>
        (reviewedResult call .l4 [riskReview call.riskFacts, adversarialReview call.adversarialFacts]
          (gate.resolve call.decisionId approved call.now).1, (gate.resolve call.decisionId approved call.now).2) := by
  have hclassify : classify call.riskInput = .l4 := h4
  rw [← mem_decisions] at hreject
  unfold review
  simp only [hclassify, if_neg hreject]
  rfl

/-- A review that a reviewer rejects. -/
lemma review_rejected (h4 : call.level = .l4) (hreject : call.Rejected) : (review gate call).1.decision = .reject := by
  have hclassify : classify call.riskInput = .l4 := h4
  rw [← mem_decisions] at hreject
  unfold review
  simp only [hclassify, if_pos hreject]
  rfl

lemma get_drop_self (decisionId : String) : (gate.drop decisionId).pending.get decisionId = none := by
  unfold HumanApprovalGate.drop Dict.get
  rw [row_filter_self]
  rfl

lemma get_drop_of_ne {decisionId other : String} (h : other ≠ decisionId) :
    (gate.drop decisionId).pending.get other = gate.pending.get other := by
  unfold HumanApprovalGate.drop Dict.get
  rw [row_filter_of_ne _ h]

/-- What a review makes of the open request of a decision. -/
lemma pending_review (decisionId : String) :
    (review gate call).2.pending.get decisionId =
      if call.AsksGate decisionId then (if call.humanApproved = none then some call.now else none)
      else gate.pending.get decisionId := by
  by_cases hgate : call.level = .l4 ∧ ¬ call.Rejected
  · obtain ⟨h4, hreject⟩ := hgate
    rw [review_gate h4 hreject]
    by_cases hid : call.decisionId = decisionId
    · subst hid
      rw [if_pos ⟨h4, hreject, rfl⟩]
      cases call.humanApproved with
      | none => exact Dict.get_alter_self call.decisionId (fun _ => call.now) gate.pending
      | some approved =>
        rw [if_neg (by simp)]
        dsimp only
        unfold HumanApprovalGate.resolve
        cases hpending : gate.pending.get call.decisionId with
        | none => exact hpending
        | some requested =>
          dsimp only
          split
          · exact get_drop_self _
          · exact get_drop_self _
    · rw [if_neg (fun h => hid h.2.2)]
      cases call.humanApproved with
      | none => exact Dict.get_alter_of_ne (Ne.symm hid) (fun _ => call.now) gate.pending
      | some approved =>
        dsimp only
        unfold HumanApprovalGate.resolve
        cases gate.pending.get call.decisionId with
        | none => rfl
        | some requested =>
          dsimp only
          split
          · exact get_drop_of_ne (Ne.symm hid)
          · exact get_drop_of_ne (Ne.symm hid)
  · rw [review_apart hgate, if_neg (fun h => hgate ⟨h.1, h.2.1⟩)]

lemma timeout_review : (review gate call).2.timeoutSeconds = gate.timeoutSeconds := by
  by_cases hgate : call.level = .l4 ∧ ¬ call.Rejected
  · rw [review_gate hgate.1 hgate.2]
    cases call.humanApproved with
    | none => rfl
    | some approved =>
      dsimp only
      unfold HumanApprovalGate.resolve
      cases gate.pending.get call.decisionId with
      | none => rfl
      | some requested =>
        dsimp only
        split
        · rfl
        · rfl
  · rw [review_apart hgate]

/-- An L4 trade passes on an approval that answers an open request in time. -/
lemma l4_pass_review : call.level = .l4 ∧ (review gate call).1.decision = .pass ↔
    call.AsksGate call.decisionId ∧ call.humanApproved = some true ∧
      ∃ t, gate.pending.get call.decisionId = some t ∧ call.now - t ≤ gate.timeoutSeconds := by
  by_cases hgate : call.level = .l4 ∧ ¬ call.Rejected
  · obtain ⟨h4, hreject⟩ := hgate
    have hasks : call.AsksGate call.decisionId := ⟨h4, hreject, rfl⟩
    rw [review_gate h4 hreject, and_iff_right h4, and_iff_right hasks]
    cases call.humanApproved with
    | none => simp
    | some approved =>
      simp only [reviewedResult, HumanApprovalGate.resolve]
      cases gate.pending.get call.decisionId with
      | none => simp
      | some requested =>
        dsimp only
        by_cases hlate : gate.timeoutSeconds < call.now - requested
        · rw [if_pos hlate]
          refine iff_of_false (by simp) ?_
          rintro ⟨-, t, ht, hle⟩
          rw [Option.some.injEq] at ht
          exact absurd (ht ▸ hle) (not_le.mpr hlate)
        · rw [if_neg hlate]
          have hintime : ∃ t, some requested = some t ∧ call.now - t ≤ gate.timeoutSeconds := ⟨requested, rfl, not_lt.mp hlate⟩
          cases approved with
          | true => exact iff_of_true rfl ⟨rfl, hintime⟩
          | false => exact iff_of_false (by simp) (fun h => by simpa using h.1)
  · refine iff_of_false ?_ (fun h => hgate ⟨h.1.1, h.1.2.1⟩)
    rintro ⟨h4, hpass⟩
    have hreject : call.Rejected := by
      by_contra hnot
      exact hgate ⟨h4, hnot⟩
    rw [review_rejected h4 hreject] at hpass
    exact absurd hpass (by decide)

/-! ### Runs -/

/-- The gate after a review. -/
def step (gate : HumanApprovalGate) (call : ReviewCall) : HumanApprovalGate :=
  (review gate call).2

/-- The request of a decision that is open after the reviews: the last review of the decision that came to the gate
asked for an approval. -/
def openRequest (decisionId : String) (calls : List ReviewCall) : Option ℚ :=
  (calls.filter (fun call => call.AsksGate decisionId)).getLast?.bind
    (fun call => if call.humanApproved = none then some call.now else none)

/-- The L4 reviews of the decision that pass. -/
def passes (decisionId : String) (gate : HumanApprovalGate) (calls : List ReviewCall) : ℕ :=
  total step (fun gate call =>
    if call.level = .l4 ∧ (review gate call).1.decision = .pass ∧ call.decisionId = decisionId then 1 else 0) gate calls

/-- The reviews of the decision that ask a person. -/
def requests (decisionId : String) (calls : List ReviewCall) : ℕ :=
  calls.countP (fun call => call.AsksGate decisionId ∧ call.humanApproved = none)

lemma timeout_run (gate : HumanApprovalGate) (calls : List ReviewCall) :
    (run step gate calls).timeoutSeconds = gate.timeoutSeconds := by
  induction calls generalizing gate with
  | nil => rfl
  | cons call calls ih => rw [run_cons, ih, step, timeout_review]

lemma pending_run (timeout : ℚ) (decisionId : String) (calls : List ReviewCall) :
    (run step { timeoutSeconds := timeout } calls).pending.get decisionId = openRequest decisionId calls := by
  induction calls using List.reverseRecOn with
  | nil => rfl
  | append_singleton calls call ih =>
    rw [run_append, run_cons, run_nil, step, pending_review, ih, openRequest, openRequest, List.filter_append]
    by_cases hasks : call.AsksGate decisionId
    · rw [if_pos hasks, List.filter_cons_of_pos (by simpa using hasks), List.filter_nil, List.getLast?_concat]
      rfl
    · rw [if_neg hasks, List.filter_cons_of_neg (by simpa using hasks), List.filter_nil, List.append_nil]

/-- A review that passes an L4 trade closes the request it answers. -/
lemma passes_step (decisionId : String) (gate : HumanApprovalGate) (call : ReviewCall) :
    (if call.level = .l4 ∧ (review gate call).1.decision = .pass ∧ call.decisionId = decisionId then 1 else 0) +
        (if ((step gate call).pending.get decisionId).isSome then 1 else 0) ≤
      (if call.AsksGate decisionId ∧ call.humanApproved = none then 1 else 0) +
        (if (gate.pending.get decisionId).isSome then 1 else 0) := by
  have hpass : call.level = .l4 ∧ (review gate call).1.decision = .pass ↔ _ := l4_pass_review
  rw [step, pending_review]
  by_cases hasks : call.AsksGate decisionId
  · obtain ⟨h4, hreject, rfl⟩ := hasks
    have hasks : call.AsksGate call.decisionId := ⟨h4, hreject, rfl⟩
    cases happroved : call.humanApproved with
    | none =>
      have hwaits : ¬ (review gate call).1.decision = .pass := fun h => by simpa [happroved] using (hpass.mp ⟨h4, h⟩).2.1
      simp [hasks, hwaits]
    | some approved =>
      by_cases hp : (review gate call).1.decision = .pass
      · obtain ⟨-, -, t, ht, -⟩ := hpass.mp ⟨h4, hp⟩
        simp [hasks, hp, ht, h4]
      · simp [hasks, hp]
  · have hno : ¬ (call.level = .l4 ∧ (review gate call).1.decision = .pass ∧ call.decisionId = decisionId) := by
      rintro ⟨h4, hp, rfl⟩
      exact hasks (hpass.mp ⟨h4, hp⟩).1
    simp [hasks, hno]

/-- The L4 trades of a decision that pass, and the request that is still open, are no more than the requests. -/
lemma passes_le (decisionId : String) (gate : HumanApprovalGate) (calls : List ReviewCall) :
    passes decisionId gate calls + (if ((run step gate calls).pending.get decisionId).isSome then 1 else 0) ≤
      requests decisionId calls + (if (gate.pending.get decisionId).isSome then 1 else 0) := by
  induction calls generalizing gate with
  | nil => exact le_rfl
  | cons call calls ih =>
    have hrest := ih (step gate call)
    have hstep := passes_step decisionId gate call
    unfold passes requests at hrest ⊢
    rw [total, run_cons, List.countP_cons]
    simp only [decide_eq_true_eq]
    omega

/-- After any reviews, an L4 trade passes if and only if no reviewer rejects it and a person approves it, as the
answer to a request that is open and not older than the timeout; and no decision passes more
often than a person was asked about it. -/
theorem l4_pass_iff (timeout : ℚ) (calls : List ReviewCall) (call : ReviewCall) :
    let gate := run step { timeoutSeconds := timeout } calls
    (call.level = .l4 ∧ (review gate call).1.decision = .pass ↔
      call.level = .l4 ∧ ¬ call.Rejected ∧ call.humanApproved = some true ∧
        ∃ t, openRequest call.decisionId calls = some t ∧ call.now - t ≤ timeout) ∧
      ∀ decisionId, passes decisionId { timeoutSeconds := timeout } calls ≤ requests decisionId calls := by
  intro gate
  constructor
  · have hpass : call.level = .l4 ∧ (review gate call).1.decision = .pass ↔ _ := l4_pass_review
    have htimeout : gate.timeoutSeconds = timeout := timeout_run _ calls
    rw [hpass, pending_run, htimeout]
    simp only [ReviewCall.AsksGate, and_true, and_assoc]
  · intro decisionId
    exact le_of_add_le_left (passes_le decisionId { timeoutSeconds := timeout } calls)

/-! ### More flags -/

/-- How strict a decision of a reviewer is. -/
def severity : ReviewDecision → ℕ
  | .pass => 0
  | .reduce => 1
  | _ => 2

/-- A score of 0 passes, one below a bound reduces, and any other stops the trade. -/
lemma severity_mono {d : ℚ → ReviewDecision} {bound : ℚ}
    (hd : ∀ s, severity (d s) = if s = 0 then 0 else if bound ≤ s then 2 else 1) {s t : ℚ} (hs : 0 ≤ s) (h : s ≤ t) :
    severity (d s) ≤ severity (d t) := by
  rw [hd, hd]
  by_cases hs0 : s = 0
  · simp [hs0]
  · have ht0 : t ≠ 0 := ((lt_of_le_of_ne hs (Ne.symm hs0)).trans_le h).ne'
    rw [if_neg hs0, if_neg ht0]
    by_cases hb : bound ≤ s
    · rw [if_pos hb, if_pos (hb.trans h)]
    · rw [if_neg hb]
      split <;> decide

lemma severity_risk (s : ℚ) : severity (riskDecision s) = if s = 0 then 0 else if 40 ≤ s then 2 else 1 := by
  unfold riskDecision
  by_cases h0 : s = 0
  · simp [h0, severity]
  · by_cases h60 : 60 ≤ s
    · have h40 : (40 : ℚ) ≤ s := by linarith
      simp [h0, h60, h40, severity]
    · by_cases h40 : 40 ≤ s <;> simp [h0, h60, h40, severity]

lemma severity_adversarial (s : ℚ) :
    severity (adversarialDecision s) = if s = 0 then 0 else if 30 ≤ s then 2 else 1 := by
  unfold adversarialDecision
  by_cases h0 : s = 0
  · simp [h0, severity]
  · by_cases h50 : 50 ≤ s
    · have h30 : (30 : ℚ) ≤ s := by linarith
      simp [h0, h50, h30, severity]
    · by_cases h30 : 30 ≤ s <;> simp [h0, h50, h30, severity]

lemma flagScore_nonneg {flags : List Flag} (h : ∀ f ∈ flags, 0 ≤ f.weight) : 0 ≤ flagScore flags := by
  apply List.sum_nonneg
  intro x hx
  obtain ⟨f, hf, rfl⟩ := List.mem_map.mp hx
  exact h f (List.mem_of_mem_filter hf)

lemma riskScore_nonneg (facts : RiskFacts) : 0 ≤ (riskReview facts).riskScore :=
  flagScore_nonneg (by simp [RiskFacts.flags])

lemma adversarialScore_nonneg (facts : AdversarialFacts) : 0 ≤ (adversarialReview facts).riskScore :=
  flagScore_nonneg (by simp [AdversarialFacts.flags])

/-- What is approved of a trade, by how strict the strictest reviewer is. -/
def approvedAt (position leverage share cap : ℚ) (strictness : ℕ) : ℚ × ℚ :=
  if strictness = 0 then (position, leverage)
  else if strictness = 1 then (position * share, min leverage cap)
  else (0, 0)

lemma approvedAt_mono {position leverage share cap : ℚ} (hposition : 0 ≤ position) (hleverage : 0 ≤ leverage)
    (hshare : 0 ≤ share ∧ share ≤ 1) (hcap : 0 ≤ cap) {m n : ℕ} (h : m ≤ n) :
    approvedAt position leverage share cap n ≤ approvedAt position leverage share cap m := by
  have hreduced : position * share ≤ position := mul_le_of_le_one_right hposition hshare.2
  have hpart : 0 ≤ position * share := mul_nonneg hposition hshare.1
  unfold approvedAt
  obtain rfl | rfl | hm : m = 0 ∨ m = 1 ∨ 2 ≤ m := by omega
  · obtain rfl | rfl | hn : n = 0 ∨ n = 1 ∨ 2 ≤ n := by omega
    · exact le_rfl
    · exact ⟨hreduced, min_le_left _ _⟩
    · rw [if_neg (by omega), if_neg (by omega)]
      exact ⟨hposition, hleverage⟩
  · obtain rfl | hn : n = 1 ∨ 2 ≤ n := by omega
    · exact le_rfl
    · rw [if_neg (by omega), if_neg (by omega)]
      exact ⟨hpart, le_min hleverage hcap⟩
  · rw [if_neg (by omega), if_neg (by omega), if_neg (by omega), if_neg (by omega)]

lemma riskDecision_ne_waiting (score : ℚ) : riskDecision score ≠ .waitingApproval := by
  unfold riskDecision
  split_ifs <;> simp

lemma adversarialDecision_ne_waiting (score : ℚ) : adversarialDecision score ≠ .waitingApproval := by
  unfold adversarialDecision
  split_ifs <;> simp

/-- What is approved below L4. -/
lemma approved_eq (gate : HumanApprovalGate) (call : ReviewCall) (h4 : call.level ≠ .l4) :
    ((review gate call).1.approvedPosition, (review gate call).1.approvedLeverage) =
      match call.level with
      | .l1 => (call.proposedPosition, call.proposedLeverage)
      | .l2 => approvedAt call.proposedPosition call.proposedLeverage (8 / 10) 3
        (severity (riskReview call.riskFacts).decision)
      | _ => approvedAt call.proposedPosition call.proposedLeverage (6 / 10) 2
        (max (severity (riskReview call.riskFacts).decision) (severity (adversarialReview call.adversarialFacts).decision)) := by
  unfold review
  unfold ReviewCall.level at h4 ⊢
  cases hlevel : classify call.riskInput with
  | l1 => rfl
  | l2 =>
    simp only [reduceCtorEq, if_false, if_true]
    cases (riskReview call.riskFacts).decision <;> rfl
  | l3 =>
    simp only [reduceCtorEq, if_false, List.map_cons, List.map_nil]
    have hrisk : (riskReview call.riskFacts).decision ≠ .waitingApproval := riskDecision_ne_waiting _
    have hadversarial : (adversarialReview call.adversarialFacts).decision ≠ .waitingApproval :=
      adversarialDecision_ne_waiting _
    generalize (riskReview call.riskFacts).decision = r at *
    generalize (adversarialReview call.adversarialFacts).decision = a at *
    cases r <;> cases a <;> first | rfl | exact absurd rfl hrisk | exact absurd rfl hadversarial
  | l4 => exact absurd hlevel h4

/-- Below L4 worse scores never get more approved, whatever the trade is and whoever has asked. -/
theorem worse_approves_less (gate : HumanApprovalGate) (call : ReviewCall) (h4 : call.level ≠ .l4)
    (hposition : 0 ≤ call.proposedPosition) (hleverage : 0 ≤ call.proposedLeverage) {worseRisk : RiskFacts}
    {worseAdversarial : AdversarialFacts} (hrisk : (riskReview call.riskFacts).riskScore ≤ (riskReview worseRisk).riskScore)
    (hadversarial : (adversarialReview call.adversarialFacts).riskScore ≤ (adversarialReview worseAdversarial).riskScore) :
    let worse : ReviewCall := { call with riskFacts := worseRisk, adversarialFacts := worseAdversarial }
    (review gate worse).1.approvedPosition ≤ (review gate call).1.approvedPosition ∧
      (review gate worse).1.approvedLeverage ≤ (review gate call).1.approvedLeverage := by
  intro worse
  have hworse := approved_eq gate worse h4
  have hcall := approved_eq gate call h4
  have hr : severity (riskReview call.riskFacts).decision ≤ severity (riskReview worseRisk).decision :=
    severity_mono severity_risk (riskScore_nonneg _) hrisk
  have ha : severity (adversarialReview call.adversarialFacts).decision ≤
      severity (adversarialReview worseAdversarial).decision :=
    severity_mono severity_adversarial (adversarialScore_nonneg _) hadversarial
  have hle : ((review gate worse).1.approvedPosition, (review gate worse).1.approvedLeverage) ≤
      ((review gate call).1.approvedPosition, (review gate call).1.approvedLeverage) := by
    rw [hworse, hcall]
    change (match call.level with | .l1 => _ | .l2 => _ | _ => _) ≤ _
    cases hlevel : call.level with
    | l1 => exact le_rfl
    | l2 => exact approvedAt_mono hposition hleverage (by norm_num) (by norm_num) hr
    | l3 => exact approvedAt_mono hposition hleverage (by norm_num) (by norm_num) (max_le_max hr ha)
    | l4 => exact absurd hlevel h4
  exact hle

section Samples

/-- A trade without a flag. -/
def sampleRisk : RiskFacts := ⟨2, 1000, 10000, 10, 1 / 10, 20, 1, 1, 1, 0, true⟩

def sampleAdversarial : AdversarialFacts := ⟨0, 0, 0, 0, false, false, 0, false, false, false, false, false, false⟩

/-- A trade of level L3. -/
def sampleCall : ReviewCall where
  decisionId := "d1"
  riskInput := { leverage := 4, positionNotional := 1000, nav := 10000, tradeRiskEquityPct := 1, portfolioGrossExposurePct := 20 }
  riskFacts := sampleRisk
  adversarialFacts := sampleAdversarial
  proposedPosition := 1000
  proposedLeverage := 4
  now := 0

/-- With stale data the position is cut to 600 and the leverage to 2. -/
theorem worse_approves_less_stale :
    let worse : ReviewCall := { sampleCall with riskFacts := { sampleRisk with marketDataHealthy := false } }
    (review {} worse).1.approvedPosition ≤ (review {} sampleCall).1.approvedPosition ∧
      (review {} worse).1.approvedLeverage ≤ (review {} sampleCall).1.approvedLeverage :=
  worse_approves_less {} sampleCall (by decide +kernel) (by decide +kernel) (by decide +kernel) (by decide +kernel)
    (by decide +kernel)

/-- At L4 more flags can get more approved: a risk score of 50 is rejected, one of 60 is only escalated,
and then a person may approve the whole trade. -/
example :
    let call : ReviewCall := { sampleCall with riskInput.extremeMarket := true, humanApproved := some true, now := 10 }
    let gate : HumanApprovalGate := { pending := [("d1", 0)] }
    (review gate { call with
        riskFacts := { sampleRisk with marketDataHealthy := false, liquidationDistancePct := 0 } }).1.approvedPosition = 0 ∧
      (review gate { call with
        riskFacts := { sampleRisk with marketDataHealthy := false, leverage := 7 } }).1.approvedPosition = 1000 := by
  decide +kernel

end Samples

end CryptoTrader.TradeReview
