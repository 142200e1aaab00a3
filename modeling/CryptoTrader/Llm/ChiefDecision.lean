import CryptoTrader.Lib.Excepts
import CryptoTrader.Lib.PyValue

/-!
# The decision of the Chief Trader

`ChiefTraderEngine.decide` of `llm_chief/engine.py`: the answer of the provider is completed with
defaults, its action is mapped to one of four, and what is left has to pass the schema of
`ChiefTraderDecision`. A provider that raises and an answer that does not fit are not caught, so that
the engine fails safe only for some (`SafeInput`).
-/

namespace CryptoTrader

open Excepts

namespace LLMChief

abbrev Fields := Dict String PyValue

/-- The functions on texts that are used: `str.upper`, `float` and the one by which a number of the
schema is read. -/
structure TextFunctions where
  upper : String → String
  numeral : String → Option PyFloat
  schemaNumeral : String → Option PyFloat
  upper_noTrade : upper "NO_TRADE" = "NO_TRADE"

/-! ### The schema -/

inductive FieldType where
  | text
  | texts
  | number
  | optionalNumber
  | flag
  deriving DecidableEq, Repr

section Schema

variable (T : TextFunctions)

/-- The value of a number, where a number is asked for. -/
def schemaFloat : PyValue → Option PyFloat
  | .bool b => some (.finite (if b then 1 else 0))
  | .int n => PyValue.floatOfInt n
  | .float x => some x
  | .str s => T.schemaNumeral s
  | _ => none

def schemaBool : PyValue → Option Bool
  | .bool b => some b
  | .int n => if n = 0 then some false else if n = 1 then some true else none
  | .float x => if x = .finite 0 then some false else if x = .finite 1 then some true else none
  | .str s =>
    if s.toLower ∈ ["0", "off", "f", "false", "n", "no"] then some false
    else if s.toLower ∈ ["1", "on", "t", "true", "y", "yes"] then some true
    else none
  | _ => none

/-- The value that the schema makes of a value, if it accepts it. -/
def FieldType.coerce : FieldType → PyValue → Option PyValue
  | .text, .str s => some (.str s)
  | .texts, .list l => if l.all PyValue.isStr then some (.list l) else none
  | .number, v => (schemaFloat T v).map .float
  | .optionalNumber, .none => some .none
  | .optionalNumber, v => (schemaFloat T v).map .float
  | .flag, v => (schemaBool v).map .bool
  | _, _ => none

structure Field where
  name : String
  type : FieldType
  default : Option PyValue

def required (name : String) : Field := ⟨name, .text, none⟩

def text (name : String) (default : String := "") : Field := ⟨name, .text, some (.str default)⟩

def texts (name : String) : Field := ⟨name, .texts, some (.list [])⟩

def number (name : String) : Field := ⟨name, .number, some (.float (.finite 0))⟩

def optionalNumber (name : String) : Field := ⟨name, .optionalNumber, some .none⟩

def flag (name : String) : Field := ⟨name, .flag, some (.bool false)⟩

def modelFields : List Field :=
  [required "decision_id", required "symbol", required "action", required "market_regime", texts "strategy_selected",
    text "thesis", texts "supporting_evidence", texts "contradicting_evidence", texts "knowledge_refs", texts "memory_refs",
    texts "coin_profile_refs", texts "pattern_refs", texts "compressed_lessons", text "expected_holding_period",
    text "entry_plan", number "position_size_request", number "leverage_request", optionalNumber "stop_loss",
    optionalNumber "take_profit", texts "add_conditions", texts "reduce_conditions", texts "exit_conditions",
    texts "invalidation_conditions", number "raw_llm_confidence", number "expected_return", number "expected_risk",
    texts "reason_codes", text "llm_invocation_id", text "selected_strategy", text "strategy_version",
    number "strategy_fit_score", texts "secondary_strategies", texts "supporting_factors", texts "contradicting_factors",
    text "dominant_factor", number "evidence_adjusted_confidence", text "decision_class", flag "exploration_mode",
    text "factor_snapshot_id", text "factor_set_version", text "model_version" "0", text "knowledge_version" "0",
    text "memory_version" "0", text "created_at"]

/-- The value of a field: what is given, as far as the schema accepts it, or the default. -/
def Field.value (f : Field) (given : Fields) : Except PyError PyValue :=
  match Dict.get f.name given with
  | some v => (f.type.coerce T v).elim (.error .validationError) .ok
  | none => f.default.elim (.error .validationError) .ok

/-- `ChiefTraderDecision(**filtered)`, by its fields. -/
def construct (given : Fields) : Except PyError Fields :=
  modelFields.mapM (fun f => do
    let v ← f.value T given
    pure (f.name, v))

end Schema

/-! ### `ChiefTraderEngine` -/

structure ChiefTraderContext where
  symbol : String
  regime : String
  strategyEvidence : Fields := []

structure LLMResponse where
  ok : Bool := true
  parsedJson : Option Fields
  invocationId : String := ""

/-- What becomes of the call to the provider. -/
inductive ProviderBehaviour where
  /-- There is no provider, or no response. -/
  | absent
  | responds (response : LLMResponse)
  | raises

/-- The clock, as it is written into ids and into `created_at`. -/
structure Moment where
  timestamp : String
  isoformat : String

def actionAliases : Dict String String :=
  [("LONG", "LONG"), ("OPEN_LONG", "LONG"), ("BUY", "LONG"), ("SHORT", "SHORT"), ("OPEN_SHORT", "SHORT"),
    ("SELL", "SHORT"), ("NO_TRADE", "NO_TRADE"), ("WAIT", "WAIT")]

def failClosedMarker : String := "ACTION_UNRECOGNIZED_FAIL_CLOSED"

section Engine

variable (T : TextFunctions) (now : Moment)

/-- `_ACTION_ALIASES.get(str(action).upper(), "WAIT")`. -/
def entryAction : PyValue → String
  | .str s => (Dict.get (T.upper s) actionAliases).getD "WAIT"
  -- no number, list, dictionary or constant is written like an alias
  | _ => "WAIT"

def markedCodes (codes : PyValue) : Except PyError PyValue := do
  if ← codes.contains failClosedMarker then pure codes
  else pure (.list ((← codes.items) ++ [.str failClosedMarker]))

/-- An action that waits gets its marker among the reason codes. -/
def markWait (raw : Fields) : Except PyError Fields := do
  let raw := Dict.setDefault "reason_codes" (.list []) raw
  let codes ← markedCodes ((Dict.get "reason_codes" raw).getD .none)
  pure (Dict.alter "reason_codes" (fun _ => codes) raw)

/-- `c.get("direction") in ("LONG", "SHORT")`. -/
def isDirectional (c : Fields) : Bool :=
  (Dict.get "direction" c).any (fun d => d.isText "LONG" || d.isText "SHORT")

def directionalCandidates (ctx : ChiefTraderContext) : Except PyError (List Fields) :=
  let dominant := (Dict.get "strategy_candidates" ctx.strategyEvidence).getD .none
  if dominant.truthy then do
    let items ← dominant.items
    let candidates ← items.mapM PyValue.fields
    pure (candidates.filter isDirectional)
  else pure []

def scored (c : Fields) : Except PyError (PyFloat × Fields) := do
  let score ← ((Dict.get "fit_score" c).getD (.int 0)).toFloat T.numeral
  pure (score, c)

/-- `decision.model_copy(update=…)` with the best candidate, if there is one. -/
def selectBest (decision : Fields) : Option (PyFloat × Fields) → Except PyError Fields
  | none => .ok decision
  | some (score, best) =>
    match Dict.get "strategy_id" best with
    | none => .error .keyError
    | some strategyId =>
      .ok (Dict.alter "strategy_fit_score" (fun _ => .float score)
        (Dict.alter "strategy_version" (fun _ => (Dict.get "strategy_version" best).getD (.str ""))
          (Dict.alter "selected_strategy" (fun _ => strategyId) decision)))

/-- The best candidate takes the place of a strategy that is not selected. -/
def selectStrategy (ctx : ChiefTraderContext) (decision : Fields) : Except PyError Fields :=
  if (Dict.get "selected_strategy" decision).any PyValue.truthy then pure decision
  else do
    let directional ← directionalCandidates ctx
    let ranked ← directional.mapM (scored T)
    selectBest decision (firstMax ranked)

/-- The answer with its defaults, its action and its marker. -/
def prepare (raw : Fields) (ctx : ChiefTraderContext) : Except PyError Fields := do
  let raw := Dict.setDefault "decision_id" (.str ("llm_" ++ now.timestamp)) raw
  let raw := Dict.setDefault "symbol" (.str ctx.symbol) raw
  let raw := Dict.setDefault "market_regime" (.str ctx.regime) raw
  let action := entryAction T ((Dict.get "action" raw).getD (.str "NO_TRADE"))
  let raw := Dict.alter "action" (fun _ => .str action) raw
  let raw ← if action = "WAIT" then markWait raw else pure raw
  pure (Dict.setDefault "created_at" (.str now.isoformat) raw)

def parseDecision (raw : Fields) (ctx : ChiefTraderContext) : Except PyError Fields := do
  -- what is not in the schema is filtered out
  let decision ← construct T (← prepare T now raw ctx)
  selectStrategy T ctx decision

def failDecision (ctx : ChiefTraderContext) (invocationId : String) : Except PyError Fields :=
  construct T
    [("decision_id", .str ("fail_" ++ now.timestamp)), ("symbol", .str ctx.symbol), ("action", .str "NO_TRADE"),
      ("market_regime", .str ctx.regime), ("llm_invocation_id", .str invocationId), ("thesis", .str "LLM_UNAVAILABLE"),
      ("reason_codes", .list [.str "LLM_UNAVAILABLE"]), ("model_version", .str "0.1.0"),
      ("created_at", .str now.isoformat)]

/-- Why `decide` raises. -/
inductive DecideError where
  /-- The exception of the provider. -/
  | provider
  | python (e : PyError)
  deriving DecidableEq, Repr

def decide (ctx : ChiefTraderContext) : ProviderBehaviour → Except DecideError Fields
  | .absent => (failDecision T now ctx "").mapError .python
  | .responds response =>
    match response.ok, response.parsedJson with
    | true, some (entry :: raw) => do
      let decision ← (parseDecision T now (entry :: raw) ctx).mapError .python
      pure (Dict.alter "llm_invocation_id" (fun _ => .str response.invocationId) decision)
    | _, _ => (failDecision T now ctx response.invocationId).mapError .python
  | .raises => .error .provider

end Engine

/-! ### Failing safe -/

section FailSafe

variable (T : TextFunctions) (now : Moment) (ctx : ChiefTraderContext)

def entryAliases : List String := ["LONG", "OPEN_LONG", "BUY", "SHORT", "OPEN_SHORT", "SELL"]

/-- There is a decision, for one of the four actions, and an entry is one that the answer asks for. -/
def FailsSafe (b : ProviderBehaviour) : Prop :=
  ∃ decision action, decide T now ctx b = .ok decision ∧ Dict.get "action" decision = some (.str action) ∧
    action ∈ ["LONG", "SHORT", "NO_TRADE", "WAIT"] ∧
    (action ∈ ["LONG", "SHORT"] → ∃ response raw s, b = .responds response ∧ response.ok = true ∧
      response.parsedJson = some raw ∧ Dict.get "action" raw = some (.str s) ∧ T.upper s ∈ entryAliases)

/-- Reason codes that can be listed with the marker. -/
def ReasonsListable : PyValue → Prop
  | .list l => l.all PyValue.isStr = true
  | .dict d => failClosedMarker ∉ d.map Prod.fst
  | .str s => ¬ failClosedMarker.toList <:+: s.toList
  | _ => False

def fitScore (c : Fields) : PyFloat :=
  valueD (((Dict.get "fit_score" c).getD (.int 0)).toFloat T.numeral) .nan

/-- The candidates of the evidence are missing, or objects: those for a direction have a number as their score, if
any, and the best of them has an id. -/
def CandidatesRanked : Prop :=
  ∀ dominant, Dict.get "strategy_candidates" ctx.strategyEvidence = some dominant → dominant.truthy = true →
    ∃ cs : List Fields, dominant = .list (cs.map .dict) ∧
      (∀ c ∈ cs.filter isDirectional, Returns (((Dict.get "fit_score" c).getD (.int 0)).toFloat T.numeral)) ∧
      ∀ best, firstMax ((cs.filter isDirectional).map (fun c => (fitScore T c, c))) = some best →
        Dict.get "strategy_id" best.2 ≠ none

/-- An answer that `parse_decision` can take: what it gives for a field fits the schema, its reason codes can be
listed, and it selects a strategy unless the candidates are in order. -/
structure Conforms (raw : Fields) : Prop where
  fields : ∀ f ∈ modelFields, f.name ∉ ["action", "reason_codes"] → ∀ v, Dict.get f.name raw = some v →
    (f.type.coerce T v).isSome = true
  reasons : ∀ v, Dict.get "reason_codes" raw = some v →
    if entryAction T ((Dict.get "action" raw).getD (.str "NO_TRADE")) = "WAIT" then ReasonsListable v
    else (FieldType.texts.coerce T v).isSome = true
  strategy : (Dict.get "selected_strategy" raw).any PyValue.truthy = true ∨ CandidatesRanked T ctx

/-- The provider returns, and an answer that is in order conforms. -/
def SafeInput : ProviderBehaviour → Prop
  | .absent => True
  | .responds response => response.ok = true → ∀ raw, response.parsedJson = some raw → raw ≠ [] → Conforms T ctx raw
  | .raises => False

end FailSafe

end LLMChief

end CryptoTrader
