import CryptoTrader.Lib.CircuitBreaker
import CryptoTrader.Lib.Json
import CryptoTrader.Lib.Runs
import Mathlib.Algebra.Order.Ring.Rat
import Mathlib.Data.Rat.Defs

/-!
# The gateway to the language models

`llm_runtime/gateway.py`: an invocation resolves its route to a provider, asks the circuit of
that provider, calls the transport with retries, validates the answer and records one row of
usage. When the transport is called: `invoke_calls_iff`. A circuit that has been open for the
reset time is replaced by a new one, so that a failure after it counts as the first again.
-/

namespace CryptoTrader

open CircuitBreaker Runs

inductive LLMErrorCode where
  | notConfigured
  | unknownRoute
  | disabledProvider
  | authenticationFailed
  | rateLimited
  | timeout
  | providerUnavailable
  | invalidModel
  | invalidResponse
  | networkError
  | circuitOpen
  deriving DecidableEq, Repr

structure ProviderConfig where
  providerId : String
  apiKeySecretRef : String
  enabled : Bool := true
  /-- Not negative: the model of the configuration has `ge=0`. -/
  maxRetries : ℕ := 2
  deriving DecidableEq, Repr

structure ModelRoute where
  routeName : String
  providerId : String
  modelName : String
  enabled : Bool := true
  deriving DecidableEq, Repr

structure LLMRequest where
  route : String
  brain : String
  correlationId : Option String := none
  deriving DecidableEq, Repr

structure ProviderResult where
  ok : Bool
  content : Option (Dict String Json) := none
  inputTokens : ℤ := 0
  outputTokens : ℤ := 0
  totalTokens : ℤ := 0
  errorCode : Option LLMErrorCode := none
  retryable : Bool := false

structure LLMResponse where
  invocationId : String
  ok : Bool
  route : String
  provider : String := ""
  model : String := ""
  content : Option (Dict String Json) := none
  latencyMs : ℚ := 0
  inputTokens : ℤ := 0
  outputTokens : ℤ := 0
  totalTokens : ℤ := 0
  errorCode : Option LLMErrorCode := none

/-- A row of `record_usage`. -/
structure UsageRow where
  invocationId : String
  brain : String
  route : String
  provider : String
  model : String
  latencyMs : ℚ
  inputTokens : ℤ
  outputTokens : ℤ
  totalTokens : ℤ
  success : Bool
  errorClassification : Option LLMErrorCode
  correlationId : Option String
  deriving DecidableEq, Repr

/-- A call of `invoke` and what it meets: the answers of the transport by attempt, the schema of the answer, and
the clock where it is read. -/
structure Invocation where
  invocationId : String
  request : LLMRequest
  transport : ℕ → ProviderResult
  /-- `response_model`: what it dumps of a content that it validates. -/
  responseModel : Option (Dict String Json → Option (Dict String Json)) := none
  checkedAt : ℚ
  startedAt : ℚ
  answeredAt : ℚ
  failedAt : ℚ

structure LLMGateway where
  providers : Dict String ProviderConfig := []
  routes : Dict String ModelRoute := []
  secrets : Dict String String := []
  limits : Limits ℚ := { threshold := 3, reset := 60 }
  circuits : Dict String (Breaker ℚ) := []
  usage : List UsageRow := []

namespace LLMGateway

def usageRow (request : LLMRequest) (response : LLMResponse) : UsageRow where
  invocationId := response.invocationId
  brain := request.brain
  route := request.route
  provider := response.provider
  model := response.model
  latencyMs := response.latencyMs
  inputTokens := response.inputTokens
  outputTokens := response.outputTokens
  totalTokens := response.totalTokens
  success := response.ok
  errorClassification := response.errorCode
  correlationId := request.correlationId

def recordUsage (g : LLMGateway) (request : LLMRequest) (response : LLMResponse) : LLMGateway :=
  { g with usage := g.usage ++ [usageRow request response] }

/-- `_failure`, after so many calls of the transport. -/
def failure (g : LLMGateway) (i : Invocation) (code : LLMErrorCode) (route : Option ModelRoute)
    (provider : Option ProviderConfig) (latencyMs : ℚ) (calls : ℕ) : LLMGateway × LLMResponse × ℕ :=
  let response : LLMResponse :=
    { invocationId := i.invocationId
      ok := false
      route := i.request.route
      provider := match provider, route with
        | some p, _ => p.providerId
        | none, some r => r.providerId
        | none, none => ""
      model := (route.map ModelRoute.modelName).getD ""
      latencyMs
      errorCode := some code }
  (g.recordUsage i.request response, response, calls)

/-- `self.circuits.setdefault(provider_id, CircuitState())`. -/
def circuit (g : LLMGateway) (providerId : String) : Breaker ℚ :=
  (g.circuits.get providerId).getD {}

def setCircuit (g : LLMGateway) (providerId : String) (state : Breaker ℚ) : LLMGateway :=
  { g with circuits := g.circuits.alter providerId (fun _ => state) }

def circuitOpen (g : LLMGateway) (providerId : String) (now : ℚ) : Bool × LLMGateway :=
  let state := g.circuit providerId
  match state.openedAt with
  | none => (false, g.setCircuit providerId state)
  | some openedAt =>
    if g.limits.reset ≤ now - openedAt then (false, g.setCircuit providerId {})
    else (true, g.setCircuit providerId state)

def recordFailure (g : LLMGateway) (providerId : String) (now : ℚ) : LLMGateway :=
  let state := g.circuit providerId
  let failures := state.failures + 1
  g.setCircuit providerId
    { failures, openedAt := if g.limits.threshold ≤ failures then some now else state.openedAt }

/-- The attempts from `attempt` on with so many retries left: the result, and the calls made. -/
def attempts (transport : ℕ → ProviderResult) : ℕ → ℕ → ProviderResult × ℕ
  | 0, attempt => (transport attempt, attempt + 1)
  | retries + 1, attempt =>
    let result := transport attempt
    if result.ok || !result.retryable then (result, attempt + 1) else attempts transport retries (attempt + 1)

def validated (i : Invocation) (result : ProviderResult) : Option (Dict String Json) :=
  let content := result.content.getD []
  match i.responseModel with
  | none => some content
  | some model => model content

/-- The first part of `invoke`: route and provider, or the error with what has been found. -/
def resolve (g : LLMGateway) (request : LLMRequest) :
    Except (LLMErrorCode × Option ModelRoute × Option ProviderConfig) (ModelRoute × ProviderConfig) :=
  match g.routes.get request.route with
  | none => .error (.unknownRoute, none, none)
  | some route =>
    if !route.enabled then .error (.unknownRoute, some route, none)
    else
      match g.providers.get route.providerId with
      | none => .error (.notConfigured, some route, none)
      | some provider =>
        if !provider.enabled then .error (.disabledProvider, some route, some provider)
        else if (g.secrets.get provider.apiKeySecretRef).getD "" = "" then
          .error (.notConfigured, some route, some provider)
        else .ok (route, provider)

/-- The part of `invoke` that the circuit lets through. -/
def complete (g : LLMGateway) (i : Invocation) (route : ModelRoute) (provider : ProviderConfig) :
    LLMGateway × LLMResponse × ℕ :=
  let (result, calls) := attempts i.transport provider.maxRetries 0
  let latencyMs := (i.answeredAt - i.startedAt) * 1000
  if !result.ok then
    (g.recordFailure provider.providerId i.failedAt).failure i (result.errorCode.getD .providerUnavailable) (some route)
      (some provider) latencyMs calls
  else
    match validated i result with
    | none =>
      (g.recordFailure provider.providerId i.failedAt).failure i .invalidResponse (some route) (some provider) latencyMs calls
    | some content =>
      let response : LLMResponse :=
        { invocationId := i.invocationId
          ok := true
          route := i.request.route
          provider := provider.providerId
          model := route.modelName
          content := some content
          latencyMs
          inputTokens := result.inputTokens
          outputTokens := result.outputTokens
          totalTokens := result.totalTokens }
      ((g.setCircuit provider.providerId {}).recordUsage i.request response, response, calls)

/-- `invoke`, and how often the transport is called. -/
def invoke (g : LLMGateway) (i : Invocation) : LLMGateway × LLMResponse × ℕ :=
  match g.resolve i.request with
  | .error (code, route, provider) => g.failure i code route provider 0 0
  | .ok (route, provider) =>
    let (isOpen, g) := g.circuitOpen provider.providerId i.checkedAt
    if isOpen then g.failure i .circuitOpen (some route) (some provider) 0 0
    else g.complete i route provider

/-! ### One invocation -/

lemma circuit_setCircuit (g : LLMGateway) (providerId : String) (state : Breaker ℚ) :
    (g.setCircuit providerId state).circuit providerId = state := by
  rw [circuit, setCircuit, Dict.get_alter_self]
  rfl

lemma circuitOpen_eq (g : LLMGateway) (providerId : String) (now : ℚ) :
    g.circuitOpen providerId now =
      (!g.limits.admits (g.circuit providerId) now, g.setCircuit providerId (g.limits.check (g.circuit providerId) now)) := by
  unfold circuitOpen Limits.admits Limits.check
  dsimp only
  cases (g.circuit providerId).openedAt with
  | none => rfl
  | some openedAt =>
    by_cases h : g.limits.reset ≤ now - openedAt
    · simp [h]
    · simp [h]

structure SameSetup (g g' : LLMGateway) : Prop where
  providers : g'.providers = g.providers
  routes : g'.routes = g.routes
  secrets : g'.secrets = g.secrets
  limits : g'.limits = g.limits

lemma resolve_of_same {g g' : LLMGateway} (h : SameSetup g g') (request : LLMRequest) :
    g'.resolve request = g.resolve request := by
  unfold resolve
  rw [h.providers, h.routes, h.secrets]

lemma attempts_calls (transport : ℕ → ProviderResult) (retries attempt : ℕ) :
    attempt < (attempts transport retries attempt).2 ∧ (attempts transport retries attempt).2 ≤ attempt + retries + 1 := by
  induction retries generalizing attempt with
  | zero => exact ⟨Nat.lt_succ_self attempt, le_rfl⟩
  | succ retries ih =>
    rw [attempts]
    split
    · omega
    · have hnext := ih (attempt + 1)
      omega

/-- The setup stays and one row is added for the response. -/
structure Recorded (g : LLMGateway) (request : LLMRequest) (outcome : LLMGateway × LLMResponse × ℕ) : Prop where
  setup : SameSetup g outcome.1
  row : outcome.1.usage = g.usage ++ [usageRow request outcome.2.1]

lemma complete_recorded (g : LLMGateway) (i : Invocation) (route : ModelRoute) (provider : ProviderConfig) :
    Recorded g i.request (g.complete i route provider) := by
  unfold complete
  dsimp only
  split
  · exact ⟨⟨rfl, rfl, rfl, rfl⟩, rfl⟩
  · split
    · exact ⟨⟨rfl, rfl, rfl, rfl⟩, rfl⟩
    · exact ⟨⟨rfl, rfl, rfl, rfl⟩, rfl⟩

lemma invoke_recorded (g : LLMGateway) (i : Invocation) : Recorded g i.request (g.invoke i) := by
  unfold invoke
  split
  · exact ⟨⟨rfl, rfl, rfl, rfl⟩, rfl⟩
  · rename_i route provider _
    rw [circuitOpen_eq]
    dsimp only
    split
    · exact ⟨⟨rfl, rfl, rfl, rfl⟩, rfl⟩
    · have hrec := complete_recorded (g.setCircuit provider.providerId
        (g.limits.check (g.circuit provider.providerId) i.checkedAt)) i route provider
      exact ⟨⟨hrec.setup.providers, hrec.setup.routes, hrec.setup.secrets, hrec.setup.limits⟩, hrec.row⟩

lemma complete_calls (g : LLMGateway) (i : Invocation) (route : ModelRoute) (provider : ProviderConfig) :
    0 < (g.complete i route provider).2.2 ∧ (g.complete i route provider).2.2 ≤ provider.maxRetries + 1 := by
  have hcalls := attempts_calls i.transport provider.maxRetries 0
  rw [Nat.zero_add] at hcalls
  unfold complete
  dsimp only
  split
  · exact hcalls
  · split
    · exact hcalls
    · exact hcalls

/-- A completed invocation does to the circuit what the breaker does on its outcome. -/
lemma circuit_complete (g : LLMGateway) (i : Invocation) (route : ModelRoute) (provider : ProviderConfig) :
    (g.complete i route provider).1.circuit provider.providerId =
      if (g.complete i route provider).2.1.ok then {} else g.limits.fail (g.circuit provider.providerId) i.failedAt := by
  unfold complete
  dsimp only
  split
  · exact circuit_setCircuit g _ _
  · split
    · exact circuit_setCircuit g _ _
    · exact circuit_setCircuit g _ _

def Serves (g : LLMGateway) (provider : ProviderConfig) (i : Invocation) : Prop :=
  ∃ route, g.resolve i.request = .ok (route, provider)

variable {g : LLMGateway} {provider : ProviderConfig} {i : Invocation}

/-- An invocation of a provider is a call of its breaker. -/
lemma invoke_of_serves (h : g.Serves provider i) :
    if g.limits.admits (g.circuit provider.providerId) i.checkedAt then
      0 < (g.invoke i).2.2 ∧ (g.invoke i).2.2 ≤ provider.maxRetries + 1 ∧
        (g.invoke i).1.circuit provider.providerId =
          g.limits.after (g.circuit provider.providerId) ⟨i.checkedAt, i.failedAt, (g.invoke i).2.1.ok⟩
    else (g.invoke i).2.2 = 0 ∧ (g.invoke i).1.circuit provider.providerId = g.circuit provider.providerId := by
  obtain ⟨route, hroute⟩ := h
  unfold invoke
  rw [hroute]
  dsimp only
  rw [circuitOpen_eq]
  dsimp only
  cases hadmits : g.limits.admits (g.circuit provider.providerId) i.checkedAt with
  | true =>
    simp only [if_true, Bool.not_true, Bool.false_eq_true, if_false]
    obtain ⟨hpos, hle⟩ := complete_calls (g.setCircuit provider.providerId
      (g.limits.check (g.circuit provider.providerId) i.checkedAt)) i route provider
    refine ⟨hpos, hle, ?_⟩
    rw [circuit_complete, circuit_setCircuit]
    rfl
  | false =>
    refine ⟨rfl, ?_⟩
    rw [Limits.check_of_not_admits _ hadmits]
    exact circuit_setCircuit g _ _

/-! ### Histories of one provider -/

/-- A gateway and the invocations it has let through to the transport, the latest first. -/
structure Session where
  gateway : LLMGateway
  log : List (Call ℚ) := []

def Session.step (s : Session) (i : Invocation) : Session :=
  let (g, response, calls) := s.gateway.invoke i
  { gateway := g
    log := if 0 < calls then ⟨i.checkedAt, i.failedAt, response.ok⟩ :: s.log else s.log }

/-- What an invocation of the provider does in a session: the transport is called unless the log has tripped the
circuit, no more often than the retries allow, and one row is recorded. -/
structure InvokedRight (provider : ProviderConfig) (s : Session) (i : Invocation) : Prop where
  calls_iff : 0 < (s.gateway.invoke i).2.2 ↔ ¬s.gateway.limits.Tripped s.log i.checkedAt
  calls_le : (s.gateway.invoke i).2.2 ≤ provider.maxRetries + 1
  one_row : (s.gateway.invoke i).1.usage = s.gateway.usage ++ [usageRow i.request (s.gateway.invoke i).2.1]

/-- Invocations of one provider, at a gateway that has not been used for it. -/
structure ProviderHistory where
  gateway : LLMGateway
  provider : ProviderConfig
  invocations : List Invocation
  unused : gateway.circuit provider.providerId = {}
  serves : ∀ i ∈ invocations, gateway.Serves provider i

/-- The circuit of the provider belongs to the log, and the setup is that of the start. -/
structure SessionInv (start : LLMGateway) (provider : ProviderConfig) (s : Session) : Prop where
  setup : SameSetup start s.gateway
  circuit : s.gateway.limits.Matches (s.gateway.circuit provider.providerId) s.log

lemma Serves.of_same {g' : LLMGateway} (h : g.Serves provider i) (hsame : SameSetup g g') : g'.Serves provider i := by
  obtain ⟨route, hroute⟩ := h
  exact ⟨route, (resolve_of_same hsame i.request).trans hroute⟩

variable {start : LLMGateway} {s : Session}

lemma SessionInv.step (h : SessionInv start provider s) (hi : start.Serves provider i) :
    SessionInv start provider (s.step i) := by
  have hsame := (invoke_recorded s.gateway i).setup
  have hcall := invoke_of_serves (hi.of_same h.setup)
  have hlimits : (s.step i).gateway.limits = s.gateway.limits := hsame.limits
  constructor
  · exact ⟨hsame.providers.trans h.setup.providers, hsame.routes.trans h.setup.routes,
      hsame.secrets.trans h.setup.secrets, hsame.limits.trans h.setup.limits⟩
  · rw [hlimits]
    unfold Session.step
    dsimp only
    split at hcall
    · rename_i hadmits
      rw [if_pos hcall.1, hcall.2.2]
      exact Limits.matches_after _ h.circuit hadmits
    · rw [hcall.1, if_neg (lt_irrefl 0), hcall.2]
      exact h.circuit

lemma SessionInv.invokedRight (h : SessionInv start provider s) (hi : start.Serves provider i) :
    InvokedRight provider s i := by
  have hcall := invoke_of_serves (hi.of_same h.setup)
  have hadmits := s.gateway.limits.admits_iff h.circuit i.checkedAt
  have hrow := (invoke_recorded s.gateway i).row
  split at hcall
  · exact ⟨iff_of_true hcall.1 (hadmits.mp ‹_›), hcall.2.1, hrow⟩
  · refine ⟨iff_of_false (by rw [hcall.1]; exact lt_irrefl 0) (fun hn => ‹¬_› (hadmits.mpr hn)), ?_, hrow⟩
    rw [hcall.1]
    exact Nat.zero_le _

/-- In every history of a provider every invocation calls the transport exactly if the completed invocations before it
do not end in a positive multiple of the threshold of failures, the last of them within the reset time. -/
theorem invoke_calls_iff (h : ProviderHistory) :
    Along Session.step (InvokedRight h.provider) { gateway := h.gateway } h.invocations := by
  have hstart : SessionInv h.gateway h.provider { gateway := h.gateway } := by
    refine ⟨⟨rfl, rfl, rfl, rfl⟩, ?_⟩
    dsimp only
    rw [h.unused]
    exact Limits.matches_empty _
  exact along_of_invariant (fun s i hs hi => hs.step hi) (fun s i hs hi => hs.invokedRight hi) hstart
    (along_of_forall h.serves)

/-- After three failures and, past the reset time, a fourth, the transport is called a second later. -/
theorem failed_probe_leaves_circuit_closed :
    let provider : ProviderConfig := { providerId := "deepseek", apiKeySecretRef := "llm:deepseek:api-key" }
    let gateway : LLMGateway :=
      { providers := [("deepseek", provider)]
        routes := [("live_analysis", { routeName := "live_analysis", providerId := "deepseek", modelName := "deepseek-chat" })]
        secrets := [("llm:deepseek:api-key", "key")] }
    let failing := fun t : ℚ => Invocation.mk "llm" ⟨"live_analysis", "LIVE", none⟩
      (fun _ => { ok := false, errorCode := some .authenticationFailed }) none t t t t
    let s := run Session.step { gateway } ([0, 1, 2, 70].map failing)
    (s.log.map Call.ok = [false, false, false, false]) ∧ s.log.head?.map Call.endedAt = some 70 ∧
      s.gateway.limits.threshold = 3 ∧ s.gateway.limits.reset = 60 ∧ (s.gateway.invoke (failing 71)).2.2 = 1 := by
  decide +kernel

end LLMGateway

end CryptoTrader
