import CryptoTrader.Lib.Json
import CryptoTrader.Lib.Runs
import Mathlib.Algebra.Order.Ring.Rat
import Mathlib.Tactic.Ring

/-!
# The portfolio's risk budget

`portfolio_risk/budget_engine.py`: a request for new risk is approved, reduced or rejected. A request
that the remaining budget cannot bear is rejected; one that is too much for its cluster is reduced, but
what a reduced request is given is all that it has asked for. When the limits bound what is given over
a run of requests: `budget_bounds_iff`.
-/

namespace CryptoTrader

open Runs

structure PortfolioRiskState where
  accountEquity : ℚ
  grossExposure : ℚ
  shortExposure : ℚ
  behaviorClusterExposure : Dict String ℚ
  correlationConcentration : ℚ
  liquidityConcentration : ℚ
  volatilityConcentration : ℚ
  drawdownBudgetUsed : ℚ
  openRisk : ℚ
  pendingOrderRisk : ℚ
  version : ℤ := 1
  deriving DecidableEq, Repr

structure PortfolioRiskBudget where
  totalBudgetPct : ℚ := 5 / 100
  maxClusterBudgetPct : ℚ := 2 / 100
  deriving DecidableEq, Repr

inductive RiskOutcome where
  | approve
  | reduce
  | reject
  deriving DecidableEq, Repr

structure PortfolioRiskDecision where
  decision : RiskOutcome
  approvedRiskBudget : ℚ
  approvedExposureDelta : ℚ
  reasonCodes : List String
  riskStateVersion : ℤ
  deriving DecidableEq, Repr

namespace PortfolioRiskState

variable (state : PortfolioRiskState)

def equity : ℚ :=
  if 0 < state.accountEquity then state.accountEquity else 1

def clusterExisting (cluster : String) : ℚ :=
  (state.behaviorClusterExposure.get cluster).getD 0

/-- What the total budget is compared with. -/
def riskUsed : ℚ :=
  state.drawdownBudgetUsed + state.openRisk + state.pendingOrderRisk

/-- What is given is added to the exposure of the cluster and to the open risk. -/
def grant (cluster : String) (delta : ℚ) : PortfolioRiskState :=
  { state with
    behaviorClusterExposure := state.behaviorClusterExposure.alter cluster (fun existing => existing.getD 0 + delta)
    openRisk := state.openRisk + delta }

lemma riskUsed_grant (cluster : String) (delta : ℚ) : (state.grant cluster delta).riskUsed = state.riskUsed + delta := by
  simp only [riskUsed, grant]
  ring

lemma get_grant_self (cluster : String) (delta : ℚ) :
    (state.grant cluster delta).behaviorClusterExposure.get cluster = some (state.clusterExisting cluster + delta) := by
  unfold grant clusterExisting
  exact Dict.get_alter_self cluster (fun existing => existing.getD 0 + delta) state.behaviorClusterExposure

lemma get_grant_of_ne {cluster other : String} (h : other ≠ cluster) (delta : ℚ) :
    (state.grant cluster delta).behaviorClusterExposure.get other = state.behaviorClusterExposure.get other := by
  unfold grant
  exact Dict.get_alter_of_ne h (fun existing => existing.getD 0 + delta) state.behaviorClusterExposure

end PortfolioRiskState

namespace PortfolioRiskBudget

variable (budget : PortfolioRiskBudget) (state : PortfolioRiskState) (cluster : String) (delta : ℚ) (direction : String)

def remainingBudget : ℚ :=
  max 0 (budget.totalBudgetPct * state.equity - state.riskUsed)

def reasons : List String :=
  (if budget.maxClusterBudgetPct * state.equity < state.clusterExisting cluster + |delta| then
    ["CLUSTER_CONCENTRATION"] else []) ++
  (if 8 / 10 < state.correlationConcentration then ["CORRELATION_CONCENTRATION"] else []) ++
  (if 10 < state.volatilityConcentration then ["VOLATILITY_CONCENTRATION"] else []) ++
  (if state.liquidityConcentration < 40 then ["LIQUIDITY_CONCENTRATION"] else []) ++
  (if 0 < delta ∧ budget.remainingBudget state < |delta| then ["RISK_BUDGET_EXHAUSTED"] else []) ++
  (if direction = "SHORT" ∧ state.grossExposure * (6 / 10) + |delta| < state.shortExposure + |delta| then
    ["SHORT_CONCENTRATION"] else []) ++
  (if 0 < delta ∧ 15 / 100 < state.drawdownBudgetUsed / state.equity then ["DRAWDOWN_STATE"] else []) ++
  (if direction ∉ ["LONG", "SHORT", "EXIT", "REDUCE"] then ["INVALID_DIRECTION"] else [])

/-- `evaluate_new_risk` of the engine with this budget. -/
def evaluateNewRisk : PortfolioRiskDecision :=
  let reasons := budget.reasons state cluster delta direction
  let remaining := budget.remainingBudget state
  if reasons = [] then ⟨.approve, min delta remaining, delta, [], state.version⟩
  else if "RISK_BUDGET_EXHAUSTED" ∈ reasons then ⟨.reject, 0, 0, reasons, state.version⟩
  else ⟨.reduce, if 0 < delta then min delta remaining else delta, delta, reasons, state.version⟩

end PortfolioRiskBudget

/-- A request to go long or short. -/
structure RiskRequest where
  cluster : String
  delta : ℚ
  direction : String
  positive : 0 < delta
  directed : direction = "LONG" ∨ direction = "SHORT"

namespace PortfolioRiskBudget

variable (budget : PortfolioRiskBudget)

def decide (state : PortfolioRiskState) (request : RiskRequest) : PortfolioRiskDecision :=
  budget.evaluateNewRisk state request.cluster request.delta request.direction

/-- The state after a request, with what has been given for it. -/
def settle (state : PortfolioRiskState) (request : RiskRequest) : PortfolioRiskState :=
  let decision := budget.decide state request
  if decision.decision = .reject then state else state.grant request.cluster decision.approvedExposureDelta

structure WithinLimits (state : PortfolioRiskState) : Prop where
  clusters : ∀ cluster exposure, state.behaviorClusterExposure.get cluster = some exposure →
    exposure ≤ budget.maxClusterBudgetPct * state.accountEquity
  total : state.riskUsed ≤ budget.totalBudgetPct * state.accountEquity

/-- A request that the total budget can bear fits into its cluster. -/
def FitsCluster (state : PortfolioRiskState) (request : RiskRequest) : Prop :=
  state.riskUsed + request.delta ≤ budget.totalBudgetPct * state.accountEquity →
    state.clusterExisting request.cluster + request.delta ≤ budget.maxClusterBudgetPct * state.accountEquity

end PortfolioRiskBudget

/-- Requests from a state with equity and within the limits. -/
structure RiskRun where
  budget : PortfolioRiskBudget
  start : PortfolioRiskState
  requests : List RiskRequest
  solvent : 0 < start.accountEquity
  within : budget.WithinLimits start

/-- The limits are kept, and nothing is given beyond a request. -/
def RiskRun.Bounded (run : RiskRun) : Prop :=
  Visits run.budget.settle run.budget.WithinLimits run.start run.requests ∧
    Along run.budget.settle (fun state request =>
      (run.budget.decide state request).approvedExposureDelta ≤ request.delta ∧
        (run.budget.decide state request).approvedRiskBudget ≤ request.delta) run.start run.requests

/-! ### One request -/

namespace PortfolioRiskBudget

variable (budget : PortfolioRiskBudget) (state : PortfolioRiskState) (request : RiskRequest)

lemma exhausted_iff : "RISK_BUDGET_EXHAUSTED" ∈ budget.reasons state request.cluster request.delta request.direction ↔
    budget.remainingBudget state < request.delta := by
  simp only [reasons, List.mem_append, List.mem_ite_nil_right, List.mem_singleton, abs_of_pos request.positive]
  simp [request.positive]

/-- A request that is rejected is given nothing, any other one all that it asks for. -/
lemma decide_cases : (budget.remainingBudget state < request.delta ∧ (budget.decide state request).decision = .reject ∧
      (budget.decide state request).approvedExposureDelta = 0 ∧ (budget.decide state request).approvedRiskBudget = 0) ∨
    (request.delta ≤ budget.remainingBudget state ∧ (budget.decide state request).decision ≠ .reject ∧
      (budget.decide state request).approvedExposureDelta = request.delta ∧
      (budget.decide state request).approvedRiskBudget = min request.delta (budget.remainingBudget state)) := by
  have hexhausted := budget.exhausted_iff state request
  unfold decide evaluateNewRisk
  dsimp only
  by_cases hnone : budget.reasons state request.cluster request.delta request.direction = []
  · rw [hnone] at hexhausted
    rw [if_pos hnone]
    have hfits : request.delta ≤ budget.remainingBudget state := by simpa using hexhausted
    exact .inr ⟨hfits, RiskOutcome.noConfusion, rfl, rfl⟩
  · rw [if_neg hnone]
    by_cases hlt : budget.remainingBudget state < request.delta
    · rw [if_pos (hexhausted.mpr hlt)]
      exact .inl ⟨hlt, rfl, rfl, rfl⟩
    · rw [if_neg (mt hexhausted.mp hlt)]
      exact .inr ⟨not_lt.mp hlt, RiskOutcome.noConfusion, rfl, if_pos request.positive⟩

lemma decide_le : (budget.decide state request).approvedExposureDelta ≤ request.delta ∧
    (budget.decide state request).approvedRiskBudget ≤ request.delta := by
  obtain ⟨-, -, hdelta, hrisk⟩ | ⟨-, -, hdelta, hrisk⟩ := budget.decide_cases state request
  · rw [hdelta, hrisk]
    exact ⟨request.positive.le, request.positive.le⟩
  · rw [hdelta, hrisk]
    exact ⟨le_rfl, min_le_left _ _⟩

variable {budget state} (hsolvent : 0 < state.accountEquity)
include hsolvent

lemma le_remaining_iff : request.delta ≤ budget.remainingBudget state ↔
    state.riskUsed + request.delta ≤ budget.totalBudgetPct * state.accountEquity := by
  rw [remainingBudget, PortfolioRiskState.equity, if_pos hsolvent, le_max_iff, or_iff_right request.positive.not_ge,
    le_sub_iff_add_le, add_comm]

/-- A request is granted if the total budget can bear it. -/
lemma settle_eq : budget.settle state request =
    if state.riskUsed + request.delta ≤ budget.totalBudgetPct * state.accountEquity then
      state.grant request.cluster request.delta
    else state := by
  unfold settle
  dsimp only
  obtain ⟨hlt, hreject, -⟩ | ⟨hle, hgiven, hdelta, -⟩ := budget.decide_cases state request
  · rw [if_pos hreject, if_neg (mt (le_remaining_iff request hsolvent).mpr hlt.not_ge)]
  · rw [if_neg hgiven, hdelta, if_pos ((le_remaining_iff request hsolvent).mp hle)]

lemma accountEquity_settle : (budget.settle state request).accountEquity = state.accountEquity := by
  rw [settle_eq request hsolvent]
  split
  · rfl
  · rfl

lemma within_settle (hwithin : budget.WithinLimits state) (hfits : budget.FitsCluster state request) :
    budget.WithinLimits (budget.settle state request) := by
  rw [settle_eq request hsolvent]
  split_ifs with hbudget
  · constructor
    · intro cluster exposure hget
      by_cases hcluster : cluster = request.cluster
      · rw [hcluster, state.get_grant_self] at hget
        obtain rfl := Option.some.inj hget
        exact hfits hbudget
      · rw [state.get_grant_of_ne hcluster] at hget
        exact hwithin.clusters cluster exposure hget
    · rw [PortfolioRiskState.riskUsed_grant]
      exact hbudget
  · exact hwithin

/-- Within the limits after a request, the request has fitted into its cluster. -/
lemma fits_of_within (hwithin : budget.WithinLimits (budget.settle state request)) : budget.FitsCluster state request := by
  intro hbudget
  rw [settle_eq request hsolvent, if_pos hbudget] at hwithin
  exact hwithin.clusters request.cluster _ (state.get_grant_self request.cluster request.delta)

end PortfolioRiskBudget

open PortfolioRiskBudget in
/-- The limits bound what is given if and only if every request that the total budget can bear fits into its cluster. -/
theorem budget_bounds_iff (run : RiskRun) :
    run.Bounded ↔ Along run.budget.settle run.budget.FitsCluster run.start run.requests := by
  have hasked : Along run.budget.settle (fun state request =>
      (run.budget.decide state request).approvedExposureDelta ≤ request.delta ∧
        (run.budget.decide state request).approvedRiskBudget ≤ request.delta) run.start run.requests := by
    have halways : Along run.budget.settle (fun _ _ => True) run.start run.requests :=
      along_of_forall (fun _ _ => trivial)
    exact halways.mono (fun state request _ => run.budget.decide_le state request)
  rw [RiskRun.Bounded, and_iff_left hasked]
  apply visits_iff_along (I := fun state => 0 < state.accountEquity ∧ run.budget.WithinLimits state)
    (W := fun _ _ => True)
  · intro state h
    exact h.2
  · rintro state request ⟨hsolvent, hwithin⟩ - hfits
    refine ⟨?_, within_settle request hsolvent hwithin hfits⟩
    rwa [accountEquity_settle request hsolvent]
  · rintro state request ⟨hsolvent, -⟩ - hwithin
    exact fits_of_within request hsolvent hwithin
  · exact ⟨run.solvent, run.within⟩
  · exact along_of_forall (fun _ _ => trivial)

/-- A state with most of a cluster's limit taken. -/
def nearlyFull : PortfolioRiskState where
  accountEquity := 100000
  grossExposure := 10000
  shortExposure := 0
  behaviorClusterExposure := [("HIGH_BETA_ALT", 1800)]
  correlationConcentration := 3 / 10
  liquidityConcentration := 70
  volatilityConcentration := 5
  drawdownBudgetUsed := 1000
  openRisk := 500
  pendingOrderRisk := 0

def tooMuch : RiskRequest where
  cluster := "HIGH_BETA_ALT"
  delta := 500
  direction := "LONG"
  positive := by decide
  directed := .inl rfl

def reducedRun : RiskRun where
  budget := {}
  start := nearlyFull
  requests := [tooMuch]
  solvent := by decide
  within := by
    refine ⟨fun cluster exposure h => ?_, by decide +kernel⟩
    have hmem : (cluster, exposure) ∈ [("HIGH_BETA_ALT", (1800 : ℚ))] := Dict.mem_of_get h
    obtain ⟨-, rfl⟩ := Prod.mk.inj (List.mem_singleton.mp hmem)
    decide +kernel

/-- A reduced request is given all that it has asked for, and the cluster is above its limit of 2000. -/
theorem reduction_gives_all :
    (reducedRun.budget.decide nearlyFull tooMuch).decision = .reduce ∧
      (reducedRun.budget.decide nearlyFull tooMuch).approvedExposureDelta = 500 ∧
      (reducedRun.budget.settle nearlyFull tooMuch).clusterExisting "HIGH_BETA_ALT" = 2300 ∧ ¬ reducedRun.Bounded := by
  have hexposure : (reducedRun.budget.settle nearlyFull tooMuch).behaviorClusterExposure.get "HIGH_BETA_ALT" = some 2300 := by
    decide +kernel
  refine ⟨by decide +kernel, by decide +kernel, by decide +kernel, fun h => ?_⟩
  have hbound := h.1.last.clusters "HIGH_BETA_ALT" 2300 hexposure
  exact absurd hbound (by decide +kernel)

end CryptoTrader
