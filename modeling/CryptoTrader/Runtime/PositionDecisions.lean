import CryptoTrader.Lib.Decimal
import CryptoTrader.Runtime.PositionBridge

/-!
# Decisions of the position bridge

One call of `evaluate_active_positions`, without other calls in between: the positions one after the
other, the decision of the brain or of the time stop for each, and what is passed to the engine. A
decision of the brain to act reads a field that an evaluation does not have, and an exception of the
engine is raised again; both end the call before the positions that are left.
-/

namespace CryptoTrader

open KeyedTable

namespace Decisions

/-! ### `map_trading_intent` -/

structure TradingIntent where
  action : String
  confidence : ℚ := 0
  thesis : String := ""
  deriving DecidableEq, Repr

/-- `intent.thesis or "position analysis"`. -/
def TradingIntent.reason (intent : TradingIntent) : String :=
  if intent.thesis = "" then "position analysis" else intent.thesis

structure IntentMapping where
  action : String
  side : Option OrderSide
  quantity : ℚ
  reason : String
  executable : Bool
  reduceOnly : Bool := false
  deriving DecidableEq, Repr

def noOrder (action reason : String) : IntentMapping :=
  ⟨action, none, 0, reason, false, false⟩

def openSide (side : PositionSide) : OrderSide :=
  if side = .long then .buy else .sell

def mapTradingIntent (action : String) (side : PositionSide) (quantity requestedChange : ℚ) : IntentMapping :=
  if action ∈ ["HOLD", "NO_TRADE", "NO_ACTION"] then noOrder action "no order"
  else if action ∈ ["OPEN_LONG", "OPEN_SHORT"] then
    if 0 < quantity then noOrder "NO_TRADE" "position exists"
    else ⟨action, some (if action = "OPEN_LONG" then .buy else .sell), requestedChange, "entry", true, false⟩
  else if action = "ADD" then
    if quantity ≤ 0 then noOrder "NO_TRADE" "no position to add"
    else ⟨"ADD", some (openSide side), min requestedChange quantity, "add exposure", true, false⟩
  else if action = "REDUCE" then
    if quantity ≤ 0 then noOrder "NO_TRADE" "no position to reduce"
    else ⟨"REDUCE", some (closeSide side), min requestedChange quantity, "reduce exposure", true, true⟩
  else if action = "EXIT" then
    if quantity ≤ 0 then noOrder "NO_ACTION" "already closed"
    else ⟨"EXIT", some (closeSide side), quantity, "close position", true, true⟩
  else noOrder "NO_TRADE" "unknown action"

/-! ### The evaluation of a position -/

structure AIPositionEvaluation where
  symbol : String
  action : String
  confidence : ℚ
  reason : String
  thesisStatus : String
  executable : Bool
  side : Option OrderSide
  quantity : ℚ
  reduceOnly : Bool
  marketType : MarketType := .spot
  positionSide : Option PositionSide := none
  deriving DecidableEq, Repr

/-- What `process_signal` does with a signal. -/
inductive EngineAnswer where
  | decided (decision : ExecutionDecision)
  | raises
  deriving DecidableEq, Repr

/-- What is answered while a position has its turn: the clock in milliseconds, the provider of
opening times, the brain, and the engine. -/
structure Answers where
  clock : ℤ
  openedAt : Option ℤ := none
  intent : TradingIntent := ⟨"HOLD", 0, ""⟩
  thesisStatus : String := "THESIS_INTACT"
  requestedChange : ℚ := 0
  engine : EngineAnswer := .decided .approve
  deriving DecidableEq, Repr

/-- What the bridge remembers from call to call. -/
structure Memory where
  inFlight : List String := []
  firstSeen : List (String × ℤ) := []
  missingSince : List (String × ℤ) := []
  lastEvaluation : List (String × ℤ) := []
  deriving DecidableEq, Repr

structure BridgeConfig where
  timeStop : Option ℤ := none
  cooldown : ℤ := 5000
  /-- There is a `position_opened_at_provider`. -/
  opensKnown : Bool := true
  deriving DecidableEq, Repr

def timeStopPrefix : String := "EXPLORATION_TIME_STOP"

/-- Milliseconds in whole seconds. -/
def wholeSeconds (ms : ℤ) : ℤ :=
  if 0 ≤ ms then Decimal.Rounding.whole .halfEven (ms / 1000) else -Decimal.Rounding.whole .halfEven (-ms / 1000)

def timeStopReason (age stop : ℤ) : String :=
  timeStopPrefix ++ s!" held {wholeSeconds age}s >= {wholeSeconds stop}s"

/-- `reason.startswith("EXPLORATION_TIME_STOP")`. -/
def FromTimeStop (reason : String) : Prop :=
  timeStopPrefix.toList <+: reason.toList

instance (reason : String) : Decidable (FromTimeStop reason) :=
  inferInstanceAs (Decidable (_ <+: _))

section Evaluate

variable (config : BridgeConfig) (a : Answers) (c : Candidate) (m : Memory)

/-- The time the position has been seen open since. -/
def openSince : ℤ :=
  match row Prod.fst c.symbol m.firstSeen with
  | some first => first.2
  | none => if config.opensKnown then a.openedAt.getD a.clock else a.clock

def onCooldown : Bool :=
  (row Prod.fst c.symbol m.lastEvaluation).any (fun last => a.clock - last.2 < config.cooldown)

/-- The position is held past the time stop. -/
def held : Bool :=
  config.timeStop.any (fun stop => stop ≤ a.clock - openSince config a c m)

def evaluate : AIPositionEvaluation × Memory :=
  if onCooldown config a c m then
    (⟨c.symbol, "COOLDOWN", 0, "cooldown", "", false, none, 0, false, .spot, none⟩, m)
  else
    let mapping := mapTradingIntent a.intent.action c.side c.quantity a.requestedChange
    ({ symbol := c.symbol
       action := a.intent.action
       confidence := a.intent.confidence
       reason := a.intent.reason
       thesisStatus := a.thesisStatus
       executable := mapping.executable
       side := mapping.side
       quantity := mapping.quantity
       reduceOnly := mapping.reduceOnly
       marketType := c.marketType
       positionSide := some c.side },
      { m with lastEvaluation := upsert Prod.fst (c.symbol, a.clock) m.lastEvaluation })

def timeStopEvaluation (age stop : ℤ) : AIPositionEvaluation where
  symbol := c.symbol
  action := "EXIT"
  confidence := 1
  reason := timeStopReason age stop
  thesisStatus := "THESIS_EXPIRED"
  executable := true
  side := some (closeSide c.side)
  quantity := c.quantity
  reduceOnly := true
  marketType := c.marketType
  positionSide := some c.side

/-- `_evaluate_one` up to the engine. -/
def evaluateOne : AIPositionEvaluation × Memory :=
  match config.timeStop with
  | none => evaluate config a c m
  | some stop =>
    let since := openSince config a c m
    let m := { m with firstSeen := upsert Prod.fst (c.symbol, since) m.firstSeen }
    if stop ≤ a.clock - since then
      (timeStopEvaluation c (a.clock - since) stop,
        { m with
          lastEvaluation := upsert Prod.fst (c.symbol, a.clock) m.lastEvaluation
          inFlight := if c.symbol ∈ m.inFlight then m.inFlight else m.inFlight ++ [c.symbol] })
    else evaluate config a c m

end Evaluate

/-- The evaluation is one to act on. -/
def AIPositionEvaluation.acts (e : AIPositionEvaluation) : Bool :=
  e.executable && e.action ∈ ["ADD", "REDUCE", "EXIT"]

/-- The signal of an evaluation. -/
def AIPositionEvaluation.signal (e : AIPositionEvaluation) (clock : ℤ) (exitReason : String) : SignalIntent where
  signalId := s!"ai_{e.symbol}_{clock}"
  strategyId := "ai_brain"
  symbol := e.symbol
  side := e.side.getD .sell
  quantity := e.quantity
  orderType := .market
  marketType := e.marketType
  positionSide := e.positionSide.getD .flat
  reduceOnly := e.reduceOnly
  metadata := [("exit_reason", exitReason), ("signal_id", s!"ai_{e.symbol}_{clock}")]

/-! ### The call -/

inductive CallError where
  /-- An evaluation has no attribute `hard_risk_exit`. -/
  | attributeError
  /-- The exception of `process_signal`. -/
  | engine
  deriving DecidableEq, Repr

/-- A call of `evaluate_active_positions`: the positions that had their turn, with the evaluation
unless an exit was in flight, the signals passed to the engine, and the positions left by an
exception. -/
structure Call where
  memory : Memory
  visited : List (Candidate × Option AIPositionEvaluation) := []
  passed : List SignalIntent := []
  left : List Candidate := []
  raised : Option CallError := none
  deriving DecidableEq, Repr

def Memory.discard (m : Memory) (symbol : String) : Memory :=
  { m with inFlight := m.inFlight.filter (· ≠ symbol) }

/-- `_apply_to_engine`. -/
def passToEngine (a : Answers) (e : AIPositionEvaluation) (call : Call) : Call :=
  if FromTimeStop e.reason then
    let call := { call with passed := call.passed ++ [e.signal a.clock "TIME_STOP"] }
    match a.engine with
    | .raises => { call with memory := call.memory.discard e.symbol, raised := some .engine }
    | .decided .approve => call
    | .decided _ => { call with memory := call.memory.discard e.symbol }
  else { call with raised := some .attributeError }

section Calls

variable (config : BridgeConfig) (answers : Candidate → Answers)

/-- The turn of a position. -/
def visit (call : Call) (c : Candidate) : Call :=
  if c.symbol ∈ call.memory.inFlight then { call with visited := call.visited ++ [(c, none)] }
  else
    let (e, m) := evaluateOne config (answers c) c call.memory
    let call := { call with memory := m, visited := call.visited ++ [(c, some e)] }
    if e.acts then passToEngine (answers c) e call else call

/-- `max(60.0, cooldown_seconds)`. -/
def BridgeConfig.grace (config : BridgeConfig) : ℤ :=
  max 60000 config.cooldown

/-- After the last position: absent symbols lose their age once they are absent for the grace, and
their mark at once. -/
def Memory.settle (clock : ℤ) (seen : List String) (m : Memory) : Memory :=
  let absent := m.firstSeen.filter (fun p => p.1 ∉ seen)
  let fresh := absent.filter (fun p => row Prod.fst p.1 m.missingSince = none)
  let missing := m.missingSince ++ fresh.map (fun p => (p.1, clock))
  let forgotten := missing.filter (fun p => p.1 ∈ absent.map Prod.fst ∧ config.grace ≤ clock - p.2)
  { m with
    inFlight := m.inFlight.filter (· ∈ seen)
    firstSeen := m.firstSeen.filter (fun p => p.1 ∉ forgotten.map Prod.fst)
    missingSince := missing.filter (fun p => p.1 ∉ forgotten.map Prod.fst ∧ p.1 ∉ seen) }

/-- The loop over the candidates, up to the first exception. -/
def visits : List Candidate → Call → Call
  | [], call => call
  | c :: rest, call =>
    let call := visit config answers call c
    if call.raised.isSome then { call with left := rest } else visits rest call

/-- The candidates: the spot positions, then those of the perpetual engine if it answers. -/
def candidatesOf (spot : List PositionView) (perpetual : Option (List MarginPosition)) : List Candidate :=
  spot.filterMap spotCandidate ++ (perpetual.getD []).filterMap perpetualCandidate

/-- With marks and candidates, the marks without an open reduce-only order are taken away. -/
def Memory.rearm (openExits : List String) (cs : List Candidate) (m : Memory) : Memory :=
  if m.inFlight ≠ [] ∧ cs ≠ [] then { m with inFlight := m.inFlight.filter (· ∈ openExits) } else m

def evaluateActivePositions (spot : List PositionView) (perpetual : Option (List MarginPosition))
    (openExits : List String) (clock : ℤ) (m : Memory) : Call :=
  let cs := candidatesOf spot perpetual
  let call := visits config answers cs { memory := m.rearm openExits cs }
  if call.raised.isSome then call
  else { call with memory := call.memory.settle config clock (cs.map Candidate.symbol) }

end Calls

/-! ### What an evaluation acts on -/

section Acts

variable (config : BridgeConfig) (a : Answers) (c : Candidate) (m : Memory)

/-- The brain wants an order for the position. -/
def wants : Bool :=
  (mapTradingIntent a.intent.action c.side c.quantity a.requestedChange).executable &&
    a.intent.action ∈ ["ADD", "REDUCE", "EXIT"]

/-- The brain has the position's turn, and wants an order under a reason of its own. -/
def BrainActs : Prop :=
  held config a c m = false ∧ onCooldown config a c m = false ∧ wants a c = true ∧ ¬FromTimeStop a.intent.reason

/-- The time stop has passed, or the brain acts under its name, and the engine raises. -/
def EngineRaises : Prop :=
  (held config a c m = true ∨
    onCooldown config a c m = false ∧ wants a c = true ∧ FromTimeStop a.intent.reason) ∧ a.engine = .raises

instance : Decidable (BrainActs config a c m) :=
  inferInstanceAs (Decidable (_ ∧ _))

instance : Decidable (EngineRaises config a c m) :=
  inferInstanceAs (Decidable (_ ∧ _))

lemma fromTimeStop_timeStopReason (age stop : ℤ) : FromTimeStop (timeStopReason age stop) := by
  unfold FromTimeStop timeStopReason
  rw [String.toList_append]
  exact List.prefix_append _ _

lemma evaluateOne_of_held (h : held config a c m = true) :
    ∃ age stop, (evaluateOne config a c m).1 = timeStopEvaluation c age stop := by
  unfold held at h
  unfold evaluateOne
  cases hstop : config.timeStop with
  | none => simp [hstop] at h
  | some stop =>
    have hle : stop ≤ a.clock - openSince config a c m := by simpa [hstop] using h
    dsimp only
    rw [if_pos hle]
    exact ⟨_, stop, rfl⟩

lemma evaluateOne_of_not_held (h : held config a c m = false) :
    ∃ m', m'.lastEvaluation = m.lastEvaluation ∧ evaluateOne config a c m = evaluate config a c m' := by
  unfold held at h
  unfold evaluateOne
  cases hstop : config.timeStop with
  | none => exact ⟨m, rfl, rfl⟩
  | some stop =>
    have hlt : ¬stop ≤ a.clock - openSince config a c m := by simpa [hstop] using h
    dsimp only
    rw [if_neg hlt]
    refine ⟨_, ?_, rfl⟩
    rfl

/-- An evaluation comes from the time stop, from a cooldown, or from the brain. -/
lemma evaluateOne_cases :
    let e := (evaluateOne config a c m).1
    held config a c m = true ∧ e.acts = true ∧ FromTimeStop e.reason ∨
      held config a c m = false ∧ onCooldown config a c m = true ∧ e.acts = false ∨
      held config a c m = false ∧ onCooldown config a c m = false ∧ e.acts = wants a c ∧ e.reason = a.intent.reason := by
  intro e
  cases hheld : held config a c m with
  | true =>
    obtain ⟨age, stop, he⟩ := evaluateOne_of_held config a c m hheld
    left
    simp only [e, he]
    exact ⟨trivial, rfl, fromTimeStop_timeStopReason age stop⟩
  | false =>
    obtain ⟨m', hlast, he⟩ := evaluateOne_of_not_held config a c m hheld
    have hsame : onCooldown config a c m' = onCooldown config a c m := by rw [onCooldown, onCooldown, hlast]
    right
    simp only [e, he, evaluate, hsame]
    cases onCooldown config a c m with
    | true => exact .inl ⟨trivial, rfl, rfl⟩
    | false => exact .inr ⟨trivial, rfl, rfl, rfl⟩

lemma brainActs_iff :
    BrainActs config a c m ↔ (evaluateOne config a c m).1.acts = true ∧ ¬FromTimeStop (evaluateOne config a c m).1.reason := by
  unfold BrainActs
  rcases evaluateOne_cases config a c m with ⟨hheld, hacts, hreason⟩ | ⟨hheld, hcool, hacts⟩ | ⟨hheld, hcool, hacts, hreason⟩
  · simp [hheld, hreason]
  · simp [hcool, hacts]
  · simp [hheld, hcool, hacts, hreason]

lemma engineRaises_iff :
    EngineRaises config a c m ↔ (evaluateOne config a c m).1.acts = true ∧
      FromTimeStop (evaluateOne config a c m).1.reason ∧ a.engine = .raises := by
  unfold EngineRaises
  rcases evaluateOne_cases config a c m with ⟨hheld, hacts, hreason⟩ | ⟨hheld, hcool, hacts⟩ | ⟨hheld, hcool, hacts, hreason⟩
  · simp [hheld, hacts, hreason]
  · simp [hheld, hcool, hacts]
  · simp [hheld, hcool, hacts, hreason, and_assoc]

omit config a c m in
lemma side_of_executable {action : String} {side : PositionSide} {quantity requestedChange : ℚ}
    (h : (mapTradingIntent action side quantity requestedChange).executable = true) :
    (mapTradingIntent action side quantity requestedChange).side ≠ none := by
  unfold mapTradingIntent at h ⊢
  split_ifs at h ⊢ <;> first | contradiction | exact Option.some_ne_none _

/-- What is acted on has a side, and the side of its position. -/
lemma sides_of_acts (h : (evaluateOne config a c m).1.acts = true) :
    (∃ side, (evaluateOne config a c m).1.side = some side) ∧
      ∃ side, (evaluateOne config a c m).1.positionSide = some side := by
  cases hheld : held config a c m with
  | true =>
    obtain ⟨age, stop, he⟩ := evaluateOne_of_held config a c m hheld
    rw [he]
    exact ⟨⟨_, rfl⟩, _, rfl⟩
  | false =>
    obtain ⟨m', -, he⟩ := evaluateOne_of_not_held config a c m hheld
    rw [he] at h ⊢
    unfold evaluate at h ⊢
    split at h
    · contradiction
    · rename_i hcool
      rw [if_neg hcool]
      simp only [AIPositionEvaluation.acts, Bool.and_eq_true] at h
      exact ⟨Option.ne_none_iff_exists'.mp (side_of_executable h.1), _, rfl⟩

end Acts

/-! ### What reaches the engine -/

/-- The content of a signal: symbol, side, quantity, the flag `reduce_only`, and the side of the
position. -/
structure Content where
  symbol : String
  marketType : MarketType
  side : Option OrderSide
  quantity : ℚ
  reduceOnly : Bool
  positionSide : Option PositionSide
  deriving DecidableEq, Repr

def contentOfSignal (s : SignalIntent) : Content :=
  ⟨s.symbol, s.marketType, some s.side, s.quantity, s.reduceOnly, some s.positionSide⟩

/-- What an evaluation should bring to the engine. -/
def contentOfVisit (v : Candidate × Option AIPositionEvaluation) : Option Content :=
  match v.2 with
  | some e => if e.acts then some ⟨e.symbol, e.marketType, e.side, e.quantity, e.reduceOnly, e.positionSide⟩ else none
  | none => none

/-- The call does not raise on its own account, has left no position but such whose exit is in flight,
and has passed one signal for each evaluation to act on. -/
structure ReachesEngine (call : Call) : Prop where
  own : call.raised ≠ some .attributeError
  left : ∀ c ∈ call.left, c.symbol ∈ call.memory.inFlight
  passed : call.passed.map contentOfSignal = call.visited.filterMap contentOfVisit

section Reaches

variable (config : BridgeConfig) (answers : Candidate → Answers)

/-- At no position the brain acts, and the engine raises at none that others still follow. -/
def Undisturbed : List Candidate → Memory → Prop
  | [], _ => True
  | c :: rest, m =>
    let next := (visit config answers { memory := m } c).memory
    if c.symbol ∈ m.inFlight then Undisturbed rest m
    else ¬BrainActs config (answers c) c m ∧
      if EngineRaises config (answers c) c m then ∀ c' ∈ rest, c'.symbol ∈ next.inFlight else Undisturbed rest next

variable {config answers}

/-- The memory after a turn does not depend on what was passed before. -/
lemma visit_memory (call : Call) (c : Candidate) :
    (visit config answers call c).memory = (visit config answers { memory := call.memory } c).memory := by
  unfold visit
  dsimp only
  split
  · rfl
  · split
    · unfold passToEngine
      split
      · dsimp only
        cases (answers c).engine with
        | raises => rfl
        | decided decision => cases decision <;> rfl
      · rfl
    · rfl

lemma contentOfSignal_signal {m : Memory} {a : Answers} {c : Candidate} (h : (evaluateOne config a c m).1.acts = true)
    (clock : ℤ) (exitReason : String) :
    some (contentOfSignal ((evaluateOne config a c m).1.signal clock exitReason)) =
      contentOfVisit (c, some (evaluateOne config a c m).1) := by
  obtain ⟨⟨side, hside⟩, positionSide, hposition⟩ := sides_of_acts config a c m h
  simp [contentOfSignal, AIPositionEvaluation.signal, contentOfVisit, h, hside, hposition]

/-- Nothing has been raised yet, and one signal passed for each evaluation to act on. -/
structure UnderWay (call : Call) : Prop where
  raised : call.raised = none
  left : call.left = []
  passed : call.passed.map contentOfSignal = call.visited.filterMap contentOfVisit

lemma UnderWay.reaches {call : Call} (h : UnderWay call) : ReachesEngine call :=
  ⟨by simp [h.raised], by simp [h.left], h.passed⟩

/-- A turn in which nothing is raised. -/
lemma UnderWay.visit_quiet {call : Call} (h : UnderWay call) {c : Candidate}
    (hquiet : c.symbol ∈ call.memory.inFlight ∨ ¬BrainActs config (answers c) c call.memory ∧
      ¬EngineRaises config (answers c) c call.memory) : UnderWay (visit config answers call c) := by
  unfold visit
  split
  · exact ⟨h.raised, h.left, by simp [h.passed, contentOfVisit]⟩
  · rename_i hmark
    obtain ⟨hbrain, hengine⟩ := hquiet.resolve_left hmark
    rw [brainActs_iff] at hbrain
    rw [engineRaises_iff] at hengine
    dsimp only
    split
    · rename_i hacts
      have hreason : FromTimeStop (evaluateOne config (answers c) c call.memory).1.reason :=
        not_not.mp (fun hreason => hbrain ⟨hacts, hreason⟩)
      have hanswer : (answers c).engine ≠ .raises := fun hanswer => hengine ⟨hacts, hreason, hanswer⟩
      have hpassed : (call.passed ++ [(evaluateOne config (answers c) c call.memory).1.signal (answers c).clock
          "TIME_STOP"]).map contentOfSignal =
          (call.visited ++ [(c, some (evaluateOne config (answers c) c call.memory).1)]).filterMap contentOfVisit := by
        rw [List.map_append, List.filterMap_append, h.passed, List.map_singleton, List.filterMap_cons,
          ← contentOfSignal_signal hacts]
        rfl
      rw [passToEngine, if_pos hreason]
      cases hdecided : (answers c).engine with
      | raises => exact absurd hdecided hanswer
      | decided decision => cases decision <;> exact ⟨h.raised, h.left, hpassed⟩
    · rename_i hacts
      refine ⟨h.raised, h.left, ?_⟩
      rw [List.filterMap_append, ← h.passed]
      simp [contentOfVisit, hacts]

/-- A turn in which the brain acts raises an error of the bridge. -/
lemma visit_brainActs {call : Call} {c : Candidate} (hmark : c.symbol ∉ call.memory.inFlight)
    (hacts : BrainActs config (answers c) c call.memory) :
    (visit config answers call c).raised = some .attributeError := by
  obtain ⟨hacts, hreason⟩ := (brainActs_iff _ _ _ _).mp hacts
  unfold visit
  dsimp only
  rw [if_neg hmark, if_pos hacts, passToEngine, if_neg hreason]

lemma visit_engineRaises {call : Call} (h : UnderWay call) {c : Candidate} (hmark : c.symbol ∉ call.memory.inFlight)
    (hraises : EngineRaises config (answers c) c call.memory) :
    (visit config answers call c).raised = some .engine ∧
      (visit config answers call c).passed.map contentOfSignal =
        (visit config answers call c).visited.filterMap contentOfVisit := by
  obtain ⟨hacts, hreason, hengine⟩ := (engineRaises_iff _ _ _ _).mp hraises
  unfold visit
  dsimp only
  rw [if_neg hmark, if_pos hacts, passToEngine, if_pos hreason]
  simp only [hengine]
  refine ⟨trivial, ?_⟩
  rw [List.map_append, List.filterMap_append, h.passed, List.map_singleton, List.filterMap_cons,
    ← contentOfSignal_signal hacts]
  rfl

/-- Of the loop from a call under way. -/
lemma visits_reaches_iff {cs : List Candidate} {call : Call} (h : UnderWay call) :
    ReachesEngine (visits config answers cs call) ↔ Undisturbed config answers cs call.memory := by
  induction cs generalizing call with
  | nil => exact iff_of_true h.reaches trivial
  | cons c rest ih =>
    unfold visits Undisturbed
    dsimp only
    by_cases hmark : c.symbol ∈ call.memory.inFlight
    · have hnext : UnderWay (visit config answers call c) := h.visit_quiet (.inl hmark)
      have hmemory : (visit config answers call c).memory = call.memory := by
        unfold visit
        rw [if_pos hmark]
      rw [if_pos hmark, hnext.raised, if_neg (by simp), ih hnext, hmemory]
    · rw [if_neg hmark]
      by_cases hacts : BrainActs config (answers c) c call.memory
      · rw [visit_brainActs hmark hacts]
        exact iff_of_false (fun hreach => hreach.own rfl) (fun hclear => hclear.1 hacts)
      · rw [and_iff_right hacts]
        by_cases hraises : EngineRaises config (answers c) c call.memory
        · obtain ⟨hraised, hpassed⟩ := visit_engineRaises h hmark hraises
          rw [if_pos hraises, hraised, if_pos (by simp), ← visit_memory]
          constructor
          · intro hreach
            exact hreach.left
          · intro hrest
            exact ⟨by simp, hrest, hpassed⟩
        · have hnext : UnderWay (visit config answers call c) := h.visit_quiet (.inr ⟨hacts, hraises⟩)
          rw [if_neg hraises, hnext.raised, if_neg (by simp), ih hnext, ← visit_memory]

lemma visit_left (call : Call) (c : Candidate) : (visit config answers call c).left = call.left := by
  unfold visit passToEngine
  dsimp only
  split
  · rfl
  · split
    · split
      · cases (answers c).engine with
        | raises => rfl
        | decided decision => cases decision <;> rfl
      · rfl
    · rfl

/-- A loop that raises nothing leaves no position. -/
lemma visits_left {cs : List Candidate} {call : Call} (hleft : call.left = [])
    (h : ¬(visits config answers cs call).raised.isSome = true) : (visits config answers cs call).left = [] := by
  induction cs generalizing call with
  | nil => exact hleft
  | cons c rest ih =>
    unfold visits at h ⊢
    dsimp only at h ⊢
    split at h
    · contradiction
    · rename_i hquiet
      rw [if_neg hquiet]
      exact ih ((visit_left call c).trans hleft) h

end Reaches

/-- Every decision to act reaches the engine exactly when the brain acts at no position, and the engine
raises at none that others still follow. -/
theorem decisions_reach_engine_iff (config : BridgeConfig) (answers : Candidate → Answers) (spot : List PositionView)
    (perpetual : Option (List MarginPosition)) (openExits : List String) (clock : ℤ) (m : Memory) :
    ReachesEngine (evaluateActivePositions config answers spot perpetual openExits clock m) ↔
      Undisturbed config answers (candidatesOf spot perpetual) (m.rearm openExits (candidatesOf spot perpetual)) := by
  have hstart : UnderWay { memory := m.rearm openExits (candidatesOf spot perpetual) } := ⟨rfl, rfl, rfl⟩
  rw [← visits_reaches_iff hstart]
  unfold evaluateActivePositions
  dsimp only
  split
  · rfl
  · rename_i hquiet
    have hleft := visits_left rfl hquiet
    exact ⟨fun h => ⟨h.own, by simp [hleft], h.passed⟩, fun h => ⟨h.own, by simp [hleft], h.passed⟩⟩

def exitAnswers (a : Answers) (_ : Candidate) : Answers :=
  a

/-- The brain wants to leave one of two positions: nothing reaches the engine, and the other position
is not looked at. -/
theorem brain_exit_raises :
    let spot : List PositionView := [⟨"BTCUSDT", "BTC", "USDT", 2, some 100, 200, 0⟩, ⟨"ETHUSDT", "ETH", "USDT", 1, some 10, 10, 0⟩]
    let call := evaluateActivePositions {} (exitAnswers { clock := 0, intent := ⟨"EXIT", 1, "momentum lost"⟩ }) spot none [] 0 {}
    call.raised = some .attributeError ∧ call.passed = [] ∧ call.left.map Candidate.symbol = ["ETHUSDT"] ∧
      call.visited.map contentOfVisit = [some ⟨"BTCUSDT", .spot, some .sell, 2, true, some .long⟩] := by
  decide +kernel

-- The engine raises at the first of two exits of the time stop, and the second is not sent.
example :
    let spot : List PositionView := [⟨"BTCUSDT", "BTC", "USDT", 2, some 100, 200, 0⟩, ⟨"ETHUSDT", "ETH", "USDT", 1, some 10, 10, 0⟩]
    let call := evaluateActivePositions { timeStop := some 1000 }
      (exitAnswers { clock := 2000, openedAt := some 0, engine := .raises }) spot none [] 2000 {}
    call.raised = some .engine ∧ call.passed.map SignalIntent.symbol = ["BTCUSDT"] ∧
      call.left.map Candidate.symbol = ["ETHUSDT"] := by
  decide +kernel

end Decisions

end CryptoTrader
