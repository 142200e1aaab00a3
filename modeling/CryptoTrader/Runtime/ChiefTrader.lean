import CryptoTrader.Runtime.OrderFlow
import CryptoTrader.Runtime.SpotPositions

/-!
# The entries of the Chief Trader

A tick of the engine reads the positions, asks the strategy for its next symbol, reads the positions
again for the context of the decision, and passes the signal of the decision on to `process_signal`.
`MultiSymbolChiefTraderStrategyAdapter` takes its symbols in turn, and looks at its clocks and at the
positions before it asks the LLM. Orders, fills and settlements take their turns between any two of
these steps.
-/

namespace CryptoTrader

open KeyedTable OrderStore

def executionSymbolFor (reference : String) : String :=
  if reference ∈ paperPerpetualReferenceSymbols then s!"{reference}_PERP" else reference

def isPaperPerpetualSymbol (symbol : String) : Bool :=
  paperPerpetualReferenceSymbols.any (fun reference => s!"{reference}_PERP" = symbol)

/-- `name` of the strategy, the `strategy_id` of its signals. -/
def chiefTraderName : String := "llm_chief_trader"

structure ChiefTraderConfig where
  symbols : List String
  nonempty : symbols ≠ []
  unique : symbols.Nodup
  minDecisionIntervalSeconds : ℚ := 60
  entryCooldownSeconds : ℚ := 240
  normalQuantity : ℚ := 1 / 1000
  explorationMode : Bool := false
  explorationSizeFraction : ℚ := 1 / 2
  normalFitThreshold : ℚ := 11 / 20
  normalConfidenceThreshold : ℚ := 11 / 20

structure ChiefTraderDecision where
  action : String
  decisionClass : String := ""
  strategyFitScore : ℚ := 0
  rawLlmConfidence : ℚ := 0
  evidenceAdjustedConfidence : ℚ := 0
  /-- The fit score in the evidence of the candidate that the decision selects, or 0. -/
  selectedCandidateFit : ℚ := 0
  deriving DecidableEq, Repr

namespace ChiefTraderDecision

/-- The first of two scores, or the second where the first is 0. -/
def orScore (score fallback : ℚ) : ℚ :=
  if score = 0 then fallback else score

/-- `_annotate_evidence_strength`, and that it is called for two of the actions. -/
def annotate (config : ChiefTraderConfig) (d : ChiefTraderDecision) : ChiefTraderDecision :=
  if d.action = "LONG" ∨ d.action = "SHORT" then
    let fit := orScore d.strategyFitScore d.selectedCandidateFit
    let confidence := orScore d.evidenceAdjustedConfidence d.rawLlmConfidence
    { d with
      strategyFitScore := fit
      evidenceAdjustedConfidence := confidence
      decisionClass :=
        if config.explorationMode ∧ (fit < config.normalFitThreshold ∨ confidence < config.normalConfidenceThreshold) then
          "EXPLORATION_ENTRY"
        else "NORMAL_ENTRY" }
  else d

/-- Side and direction of an entry, for the actions that are entries. -/
def entrySide (d : ChiefTraderDecision) : Option (OrderSide × PositionSide) :=
  -- the answers of the LLM are one of LONG, SHORT, NO_TRADE and WAIT here
  let action := d.action.toUpper
  if action = "LONG" ∨ action = "OPEN_LONG" then some (.buy, .long)
  else if action = "SHORT" ∨ action = "OPEN_SHORT" then some (.sell, .short)
  else none

end ChiefTraderDecision

/-- The size of an exploration. -/
def ChiefTraderConfig.explorationQuantity (config : ChiefTraderConfig) : ℚ :=
  config.normalQuantity * config.explorationSizeFraction

def ChiefTraderConfig.entryQuantity (config : ChiefTraderConfig) (d : ChiefTraderDecision) : ℚ :=
  if "EXPLORATION".toList.isPrefixOf d.decisionClass.toList then config.explorationQuantity else config.normalQuantity

/-- `_map_to_signals`: at most one signal. -/
def mapToSignals (config : ChiefTraderConfig) (symbol signalId : String) (d : ChiefTraderDecision) :
    Option SignalIntent :=
  d.entrySide.map fun (side, direction) =>
    let executionSymbol := executionSymbolFor symbol
    let isPerpetual := isPaperPerpetualSymbol executionSymbol
    { signalId
      strategyId := chiefTraderName
      symbol := executionSymbol
      side
      quantity := config.entryQuantity d
      orderType := .market
      marketType := if isPerpetual then .perpetual else .spot
      positionSide := if isPerpetual then direction else .flat }

/-- What the adapter keeps in memory: the cursor over its symbols, and for each symbol when the last
decision was completed and when the last entry was initiated. -/
structure ChiefTrader where
  symbolCursor : Nat := 0
  lastDecisionCompleted : List (String × ℚ) := []
  lastEntryInitiated : List (String × ℚ) := []
  deriving DecidableEq, Repr

namespace ChiefTrader

/-- The property `symbol`, which moves the cursor on. -/
def nextSymbol (config : ChiefTraderConfig) (a : ChiefTrader) : Option String × ChiefTrader :=
  (config.symbols[a.symbolCursor]?, { a with symbolCursor := (a.symbolCursor + 1) % config.symbols.length })

/-- The time that is kept for the symbol is less than the limit ago. -/
def within (times : List (String × ℚ)) (symbol : String) (now limit : ℚ) : Bool :=
  (row Prod.fst symbol times).any (fun last => now - last.2 < limit)

def completed (a : ChiefTrader) (symbol : String) (time : ℚ) : ChiefTrader :=
  { a with lastDecisionCompleted := upsert Prod.fst (symbol, time) a.lastDecisionCompleted }

def initiated (a : ChiefTrader) (symbol : String) (time : ℚ) : ChiefTrader :=
  { a with lastEntryInitiated := upsert Prod.fst (symbol, time) a.lastEntryInitiated }

end ChiefTrader

/-! ### Ticks -/

/-- Where a tick stands, and what it has read. -/
inductive TickPhase
  | idle
  | started (activeSymbols : List String)
  | inContext (activeSymbols : List String) (symbol : String) (held : ℚ)
  | deciding (activeSymbols : List String) (symbol : String) (now : ℚ)
  deriving DecidableEq, Repr

/-- The engine with the Chief Trader as its only strategy. -/
structure ChiefTraderRun where
  flow : OrderFlow
  adapter : ChiefTrader := {}
  phase : TickPhase := .idle

/-- What the gates before the LLM are told beside the positions. -/
structure GateReadings where
  /-- The provider is healthy, and its route is ready. -/
  routeReady : Bool := true
  now : ℚ
  /-- There is a factor snapshot, and there are strategy candidates. -/
  evidence : Bool := true
  /-- The state of the perpetual positions can be read. -/
  perpetualReadable : Bool := true
  nowMonotonic : ℚ
  completedAt : ℚ

inductive TickEvent
  /-- `tick` reads the positions. -/
  | start (readable : Bool)
  /-- `_strategy_context`, with an order book and positions that can be read or not. -/
  | context (readable : Bool)
  /-- `on_market_data` up to the call of the LLM. -/
  | gates (readings : GateReadings)
  /-- The answer of the LLM, or that it raises, and `process_signal` for its signal. -/
  | decided (answer : Option ChiefTraderDecision) (signalId : String) (env : SignalEnv) (completedAt : ℚ)
  /-- Everything else that happens to signals, orders and fills. -/
  | flow (turn : FlowTurn)
  /-- A new process on the same database. What the exchange has executed is still under way. -/
  | restart

/-- `active_symbols` of a tick. -/
def activeSymbols (books : Books) : List String :=
  (books.positions.filter (fun pos => pos.quantity ≠ 0)).map PositionView.symbol

def hasOpenPerpetualPosition (books : Books) (symbol : String) : Bool :=
  ((rebuildFuturesProjection books.ledger).position (executionSymbolFor symbol)).any (fun pos => !pos.isFlat)

/-- No gate between the context and the LLM is closed. -/
def MayAsk (config : ChiefTraderConfig) (a : ChiefTrader) (books : Books) (symbol : String) (held : ℚ) (r : GateReadings) :
    Prop :=
  r.evidence = true ∧ held = 0 ∧ r.perpetualReadable = true ∧ hasOpenPerpetualPosition books symbol = false ∧
    ChiefTrader.within a.lastEntryInitiated symbol r.nowMonotonic config.entryCooldownSeconds = false

instance (config : ChiefTraderConfig) (a : ChiefTrader) (books : Books) (symbol : String) (held : ℚ) (r : GateReadings) :
    Decidable (MayAsk config a books symbol held r) :=
  inferInstanceAs (Decidable (_ ∧ _))

/-- A signal of the Chief Trader is approved and not submitted yet. -/
def OrderFlow.Entering (st : OrderFlow) : Prop :=
  ∃ a ∈ st.approved, a.signal.strategyId = chiefTraderName

instance (st : OrderFlow) : Decidable st.Entering :=
  inferInstanceAs (Decidable (∃ a ∈ st.approved, _))

def tickStep (config : ChiefTraderConfig) (setup : PerpetualSetup) (st : ChiefTraderRun) : TickEvent → ChiefTraderRun
  | .start readable =>
    match st.phase with
    | .idle =>
      -- the tick before is over when its signal is submitted
      if readable = true ∧ ¬ st.flow.Entering then { st with phase := .started (activeSymbols st.flow.db.rest) } else st
    | _ => st
  | .context readable =>
    match st.phase with
    | .started active =>
      match st.adapter.nextSymbol config with
      | (none, adapter) => { st with adapter, phase := .idle }
      | (some symbol, adapter) =>
        { st with
          adapter
          phase := if readable then .inContext active symbol (st.flow.db.rest.held symbol) else .idle }
    | _ => st
  | .gates r =>
    match st.phase with
    | .inContext active symbol held =>
      if r.routeReady = false ∨ ChiefTrader.within st.adapter.lastDecisionCompleted symbol r.now
          (max config.minDecisionIntervalSeconds 0) = true then
        { st with phase := .idle }
      else if MayAsk config st.adapter st.flow.db.rest symbol held r then
        { st with phase := .deciding active symbol r.nowMonotonic }
      else { st with adapter := st.adapter.completed symbol r.completedAt, phase := .idle }
    | _ => st
  | .decided answer signalId env completedAt =>
    match st.phase with
    | .deciding active symbol now =>
      match answer.bind (fun d => mapToSignals config symbol signalId (d.annotate config)) with
      | none => { st with adapter := st.adapter.completed symbol completedAt, phase := .idle }
      | some signal =>
        { flow := if signal.symbol ∈ active then st.flow else flowStep setup st.flow (.decide signal env)
          adapter := (st.adapter.initiated symbol now).completed symbol completedAt
          phase := .idle }
    | _ => st
  | .flow turn => { st with flow := flowStep setup st.flow turn }
  | .restart => { flow := { st.flow with approved := [] } }

end CryptoTrader
