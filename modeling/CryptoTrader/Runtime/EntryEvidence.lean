import CryptoTrader.Runtime.ChiefTrader

/-!
# The evidence of an entry

`_decide` of the two entry adapters: a closed gate and a decision of the engine are both persisted as
`DecisionEvidence`, and an entry emits a signal before. The signal and the evidence take the lineage
of the execution from the decision in two places, which do not agree on every contract and every
action (`recorded_lineage_iff`).
-/

namespace CryptoTrader

namespace EntryEvidence

/-- A decision of the engine, with what is recorded of it. -/
structure EngineDecision extends ChiefTraderDecision where
  decisionId : String
  reasonCodes : List String := []
  selectedStrategy : String := ""
  marketRegime : String := ""
  factorSnapshotId : String := ""
  factorSetVersion : String := ""
  deriving DecidableEq, Repr

inductive EntryAdapter where
  /-- `ChiefTraderStrategyAdapter`. -/
  | quantGated
  /-- `AIFirstChiefTraderStrategyAdapter`. -/
  | aiFirst
  deriving DecidableEq, Repr

/-- The answer of `perpetual_position_provider`. -/
inductive PerpetualHolding where
  | flat
  | held
  | unavailable
  deriving DecidableEq, Repr

/-- What a decision is made on, as far as it decides about a gate or is recorded. -/
structure EntryContext where
  symbol : String
  /-- The id of the factor snapshot, empty if there is none. -/
  snapshotId : String
  factorSetVersion : String := ""
  regime : String := "UNKNOWN"
  candidates : Bool := true
  /-- A spot position is open, as the adapter tests it. -/
  positionOpen : Bool := false
  perpetual : PerpetualHolding := .flat
  coolingDown : Bool := false
  /-- The best candidate is a borderline one that is not sampled. -/
  skipped : Bool := false
  /-- The time of a gate decision, in seconds. -/
  timestamp : String := ""
  now : String
  deriving DecidableEq, Repr

/-- The reason code of the gate that is closed. -/
def closedGate (adapter : EntryAdapter) (ctx : EntryContext) : Option String :=
  if ctx.snapshotId = "" then some "FACTOR_CONTEXT_UNAVAILABLE"
  else if ctx.candidates = false then some "STRATEGY_EVIDENCE_UNAVAILABLE"
  else if ctx.positionOpen = true then some "POSITION_ALREADY_OPEN"
  else if ctx.perpetual = .held then some "POSITION_ALREADY_OPEN"
  else if adapter = .aiFirst ∧ ctx.perpetual = .unavailable then some "PERPETUAL_STATE_UNAVAILABLE"
  else if ctx.coolingDown = true then some "ENTRY_COOLDOWN_ACTIVE"
  else if adapter = .quantGated ∧ ctx.skipped = true then some "EXPLORATION_SKIPPED"
  else none

def gateDecision (ctx : EntryContext) (reasonCode : String) : EngineDecision where
  action := "NO_TRADE"
  decisionClass := "NO_TRADE"
  decisionId := "gate_" ++ ctx.timestamp
  reasonCodes := [reasonCode]
  marketRegime := ctx.regime

/-- `_enrich_from_evidence`. -/
def enrich (ctx : EntryContext) (d : EngineDecision) : EngineDecision :=
  { d with
    factorSnapshotId := if d.factorSnapshotId = "" then ctx.snapshotId else d.factorSnapshotId
    factorSetVersion := if d.factorSetVersion = "" then ctx.factorSetVersion else d.factorSetVersion
    marketRegime := if d.marketRegime ∈ ["", "UNKNOWN"] then ctx.regime else d.marketRegime }

/-- `_classify_and_gate`, and that it is called for two of the actions. -/
def classify (config : ChiefTraderConfig) (d : ChiefTraderDecision) : ChiefTraderDecision :=
  if d.action = "LONG" ∨ d.action = "SHORT" then
    let fit := ChiefTraderDecision.orScore d.strategyFitScore d.selectedCandidateFit
    let confidence := ChiefTraderDecision.orScore d.evidenceAdjustedConfidence d.rawLlmConfidence
    { d with
      evidenceAdjustedConfidence := confidence
      decisionClass :=
        if config.explorationMode = true ∧ ¬ (config.normalFitThreshold ≤ fit ∧
            config.normalConfidenceThreshold ≤ (if confidence ≤ 0 then d.rawLlmConfidence else confidence)) then
          "EXPLORATION_ENTRY"
        else "NORMAL_ENTRY" }
  else d

def EntryAdapter.annotate (adapter : EntryAdapter) (config : ChiefTraderConfig) (d : EngineDecision) : EngineDecision :=
  { d with
    toChiefTraderDecision :=
      if adapter = .aiFirst then d.toChiefTraderDecision.annotate config else classify config d.toChiefTraderDecision }

structure EntrySignal extends SignalIntent where
  referenceMarketSymbol : String
  deriving DecidableEq, Repr

structure DecisionEvidence where
  decisionId : String
  symbol : String
  strategyId : String := chiefTraderName
  factorSnapshotId : String
  factorSetVersion : String
  marketType : String
  executionSymbol : String
  referenceMarketSymbol : String
  positionSide : String
  requestedQuantity : Option ℚ
  positionSize : ℚ
  decisionClass : String
  decision : EngineDecision
  executionIntentReference : String := ""
  createdAtUtc : String
  deriving DecidableEq, Repr

section Decide

variable (config : ChiefTraderConfig)

/-- `_map_to_signals`. -/
def entrySignals (ctx : EntryContext) (signalId : String) (d : EngineDecision) : List EntrySignal :=
  ((mapToSignals config ctx.symbol signalId d.toChiefTraderDecision).map fun signal =>
    { signal with referenceMarketSymbol := ctx.symbol }).toList

/-- What `_persist_evidence` stores. -/
def persistEvidence (ctx : EntryContext) (d : EngineDecision) (executionReference : String := "") : DecisionEvidence :=
  let isPerpetual := isPaperPerpetualSymbol (executionSymbolFor ctx.symbol)
  let action := d.action.toUpper
  { decisionId := d.decisionId
    symbol := ctx.symbol
    factorSnapshotId := if d.factorSnapshotId = "" then ctx.snapshotId else d.factorSnapshotId
    factorSetVersion := if d.factorSetVersion = "" then ctx.factorSetVersion else d.factorSetVersion
    -- two literals next to each other are one text
    marketType := if isPerpetual then "PERPETUAL" ++ "PERPETUAL" else "SPOT"
    executionSymbol := executionSymbolFor ctx.symbol
    referenceMarketSymbol := ctx.symbol
    positionSide :=
      if action ∈ ["LONG", "SHORT"] ∧ isPerpetual = true then if action = "LONG" then "LONG" else "SHORT" else "FLAT"
    requestedQuantity := if action ∈ ["LONG", "SHORT"] then some (config.entryQuantity d.toChiefTraderDecision) else none
    positionSize := config.entryQuantity d.toChiefTraderDecision
    decisionClass :=
      if d.decisionClass = "" then if d.action = "NO_TRADE" then "NO_TRADE" else "" else d.decisionClass
    decision := d
    executionIntentReference := executionReference
    createdAtUtc := ctx.now }

/-- `_decide`, with the answer of the engine unless it raises: the signals, and the evidence that is persisted. -/
def decide (adapter : EntryAdapter) (ctx : EntryContext) (answer : Option EngineDecision) (signalId : String) :
    List EntrySignal × Option DecisionEvidence :=
  match closedGate adapter ctx with
  | some reasonCode => ([], some (persistEvidence config ctx (gateDecision ctx reasonCode)))
  | none =>
    match answer with
    | none => ([], none)
    | some d =>
      let d := adapter.annotate config (enrich ctx d)
      let signals := entrySignals config ctx signalId d
      (signals, some (persistEvidence config ctx d ((signals.head?.map (·.signalId)).getD "")))

end Decide

/-- The evidence is that of the signal, and refers to none if there is none. -/
structure LineageExact (out : List EntrySignal × Option DecisionEvidence) : Prop where
  persisted : out.1 ≠ [] → out.2 ≠ none
  exact : ∀ e, out.2 = some e → ∀ s ∈ out.1,
    e.marketType = s.marketType.value ∧ e.executionSymbol = s.symbol ∧
      e.referenceMarketSymbol = s.referenceMarketSymbol ∧ e.positionSide = s.positionSide.value ∧
      e.requestedQuantity = some s.quantity ∧ e.executionIntentReference = s.signalId
  absent : ∀ e, out.2 = some e → out.1 = [] → e.executionIntentReference = ""

/-- An entry that the engine decides on behind open gates is LONG or SHORT, on a contract that is no paper perpetual. -/
def Recordable (adapter : EntryAdapter) (ctx : EntryContext) (answer : Option EngineDecision) : Prop :=
  closedGate adapter ctx = none → ∀ d, answer = some d → d.entrySide.isSome = true →
    isPaperPerpetualSymbol (executionSymbolFor ctx.symbol) = false ∧ d.action.toUpper ∈ ["LONG", "SHORT"]

/-! ### One decision -/

section Decision

variable (config : ChiefTraderConfig) (ctx : EntryContext) (signalId : String)

lemma action_annotate (d : ChiefTraderDecision) : (d.annotate config).action = d.action := by
  unfold ChiefTraderDecision.annotate
  split <;> rfl

lemma action_classify (d : ChiefTraderDecision) : (classify config d).action = d.action := by
  unfold classify
  split <;> rfl

lemma action_recorded (adapter : EntryAdapter) (d : EngineDecision) :
    (adapter.annotate config (enrich ctx d)).action = d.action := by
  unfold EntryAdapter.annotate
  dsimp only
  split
  · exact action_annotate config _
  · exact action_classify config _

lemma entrySide_congr {d d' : ChiefTraderDecision} (h : d.action = d'.action) : d.entrySide = d'.entrySide := by
  unfold ChiefTraderDecision.entrySide
  rw [h]

def signalOf (d : EngineDecision) (side : OrderSide) (direction : PositionSide) : EntrySignal where
  signalId := signalId
  strategyId := chiefTraderName
  symbol := executionSymbolFor ctx.symbol
  side := side
  quantity := config.entryQuantity d.toChiefTraderDecision
  orderType := .market
  marketType := if isPaperPerpetualSymbol (executionSymbolFor ctx.symbol) then .perpetual else .spot
  positionSide := if isPaperPerpetualSymbol (executionSymbolFor ctx.symbol) then direction else .flat
  referenceMarketSymbol := ctx.symbol

lemma entrySignals_of_entry {d : EngineDecision} {side : OrderSide} {direction : PositionSide}
    (h : d.entrySide = some (side, direction)) :
    entrySignals config ctx signalId d = [signalOf config ctx signalId d side direction] := by
  rw [entrySignals, mapToSignals, h]
  rfl

lemma entrySignals_of_none {d : EngineDecision} (h : d.entrySide = none) : entrySignals config ctx signalId d = [] := by
  rw [entrySignals, mapToSignals, h]
  rfl

/-- The two accounts of an entry agree on spot contracts, for the two plain actions. -/
lemma lineage_of_entry {d : EngineDecision} {side : OrderSide} {direction : PositionSide}
    (h : d.entrySide = some (side, direction)) :
    LineageExact (entrySignals config ctx signalId d,
        some (persistEvidence config ctx d (((entrySignals config ctx signalId d).head?.map (·.signalId)).getD ""))) ↔
      isPaperPerpetualSymbol (executionSymbolFor ctx.symbol) = false ∧ d.action.toUpper ∈ ["LONG", "SHORT"] := by
  rw [entrySignals_of_entry config ctx signalId h]
  constructor
  · intro hexact
    obtain ⟨hmarket, -, -, -, hquantity, -⟩ := hexact.exact _ rfl _ List.mem_cons_self
    constructor
    · by_contra hperp
      rw [Bool.not_eq_false] at hperp
      simp only [persistEvidence, signalOf, hperp, if_true] at hmarket
      exact absurd hmarket (by decide)
    · by_contra haction
      simp only [persistEvidence, if_neg haction] at hquantity
      cases hquantity
  · rintro ⟨hspot, haction⟩
    refine ⟨fun _ hnone => (Option.some_ne_none _) hnone, ?_, fun e _ hnil => (List.cons_ne_nil _ _ hnil).elim⟩
    intro e he s hs
    obtain rfl := Option.some.inj he
    obtain rfl := List.mem_singleton.mp hs
    refine ⟨?_, rfl, rfl, ?_, ?_, rfl⟩
    · simp [persistEvidence, signalOf, hspot, MarketType.value]
    · simp [persistEvidence, signalOf, hspot, PositionSide.value]
    · simp only [persistEvidence, if_pos haction, signalOf]

lemma lineage_of_no_entry {d : EngineDecision} (h : d.entrySide = none) :
    LineageExact (entrySignals config ctx signalId d,
      some (persistEvidence config ctx d (((entrySignals config ctx signalId d).head?.map (·.signalId)).getD ""))) := by
  rw [entrySignals_of_none config ctx signalId h]
  refine ⟨fun hne => (hne rfl).elim, fun e _ s hs => ?_, fun e he _ => ?_⟩
  · cases hs
  · obtain rfl := Option.some.inj he
    rfl

end Decision

/-- The evidence carries the lineage of the signal if and only if an entry is LONG or SHORT on a spot contract. -/
theorem recorded_lineage_iff (config : ChiefTraderConfig) (adapter : EntryAdapter) (ctx : EntryContext)
    (answer : Option EngineDecision) (signalId : String) :
    LineageExact (decide config adapter ctx answer signalId) ↔ Recordable adapter ctx answer := by
  unfold decide Recordable
  cases hgate : closedGate adapter ctx with
  | some reasonCode =>
    refine ⟨fun _ hopen => ?_, fun _ => ⟨fun hne => (hne rfl).elim, fun e _ s hs => ?_, fun e he _ => ?_⟩⟩
    · cases hopen
    · cases hs
    · obtain rfl := Option.some.inj he
      rfl
  | none =>
    cases answer with
    | none =>
      refine ⟨fun _ _ d hd => ?_, fun _ => ⟨fun hne => (hne rfl).elim, fun e he => ?_, fun e he => ?_⟩⟩
      · cases hd
      · cases he
      · cases he
    | some d =>
      have haction := action_recorded config ctx adapter d
      have hside := entrySide_congr haction
      simp only [forall_const, Option.some.injEq, forall_eq']
      cases hentry : d.entrySide with
      | none =>
        rw [hentry] at hside
        refine ⟨fun _ h => ?_, fun _ => lineage_of_no_entry config ctx signalId hside⟩
        cases h
      | some entry =>
        rw [hentry] at hside
        rw [lineage_of_entry config ctx signalId hside, haction]
        simp

def bitcoinConfig : ChiefTraderConfig where
  symbols := ["BTCUSDT"]
  nonempty := by decide
  unique := by decide

/-- The engine decides to go long in bitcoin, behind open gates. -/
def bitcoinLong : List EntrySignal × Option DecisionEvidence :=
  decide bitcoinConfig .aiFirst { symbol := "BTCUSDT", snapshotId := "fsnap_1", now := "now" }
    (some { action := "LONG", decisionId := "d1" }) "llm_1"

/-- A perpetual is recorded with a market type that there is not. -/
theorem market_type_doubled :
    bitcoinLong.1.map (fun s => s.marketType) = [.perpetual] ∧
      bitcoinLong.2.map (fun e => e.marketType) = some "PERPETUALPERPETUAL" ∧ ¬ LineageExact bitcoinLong := by
  have hsignals : bitcoinLong.1.map (fun s => s.marketType) = [.perpetual] := by decide +kernel
  have hevidence : bitcoinLong.2.map (fun e => e.marketType) = some "PERPETUALPERPETUAL" := by decide +kernel
  refine ⟨hsignals, hevidence, fun h => ?_⟩
  obtain ⟨e, he, htype⟩ := Option.map_eq_some_iff.mp hevidence
  obtain ⟨s, hs, hperp⟩ := List.mem_map.mp (hsignals ▸ List.mem_singleton_self MarketType.perpetual)
  have hsame := (h.exact e he s hs).1
  rw [htype, hperp] at hsame
  exact absurd hsame (by decide)

end EntryEvidence

end CryptoTrader
