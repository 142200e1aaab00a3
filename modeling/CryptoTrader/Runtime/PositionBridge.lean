import CryptoTrader.Runtime.OrderFlow

/-!
# Runs of the position bridge

`evaluate_active_positions` of `runtime/ai_position_bridge.py`. The engine tick and the callback of
the supervisor both start runs of it, and the runs take turns with each other and with everything
else that writes to the database. A run collects the open positions, takes the marks of
`_exit_in_flight` away that have no open order, and sends a reduce-only market order through
`process_signal` for every position without a mark that is held past the time stop.
-/

namespace CryptoTrader

open KeyedTable OrderStore

/-- A position: a symbol of one of the two markets. -/
structure PositionKey where
  marketType : MarketType
  symbol : String
  deriving DecidableEq, Repr

/-- An entry of `candidates`. -/
structure Candidate where
  symbol : String
  marketType : MarketType
  side : PositionSide
  quantity : ℚ
  deriving DecidableEq, Repr

def Candidate.key (c : Candidate) : PositionKey :=
  ⟨c.marketType, c.symbol⟩

def spotCandidate (pos : PositionView) : Option Candidate :=
  if pos.quantity = 0 then none
  else some ⟨pos.symbol, .spot, if 0 < pos.quantity then .long else .short, |pos.quantity|⟩

def perpetualCandidate (pos : MarginPosition) : Option Candidate :=
  if pos.isFlat then none
  else some ⟨pos.symbol, .perpetual, pos.side, |pos.quantity|⟩

def spotCandidates (books : Books) : List Candidate :=
  books.positions.filterMap spotCandidate

def perpetualCandidates (engine : Option PerpetualPaperEngine) (books : Books) : List Candidate :=
  match engine with
  | none => []
  | some _ => (rebuildFuturesProjection books.ledger).positions.filterMap perpetualCandidate

/-- The positions that are not flat. -/
def openPositions (engine : Option PerpetualPaperEngine) (books : Books) : List PositionKey :=
  (spotCandidates books ++ perpetualCandidates engine books).map Candidate.key

def closeSide (side : PositionSide) : OrderSide :=
  if side = .long then .sell else .buy

/-- The signal of a time stop, at a clock in milliseconds. -/
def timeStopSignal (c : Candidate) (clock : ℤ) : SignalIntent where
  signalId := s!"ai_{c.symbol}_{clock}"
  strategyId := "ai_brain"
  symbol := c.symbol
  side := closeSide c.side
  quantity := c.quantity
  orderType := .market
  marketType := c.marketType
  positionSide := c.side
  reduceOnly := true
  metadata := [("exit_reason", "TIME_STOP"), ("signal_id", s!"ai_{c.symbol}_{clock}")]

/-- What the bridge and the engine behind it are given; times are in milliseconds. -/
structure BridgeSetup extends PerpetualSetup where
  timeStop : Option ℤ
  /-- There is a `position_opened_at_provider`. -/
  opensKnown : Bool := true
  /-- `max(60.0, cooldown_seconds)`. -/
  grace : ℤ := 60000

/-- Where `process_signal` is with an exit. -/
inductive ExitPc where
  /-- With the signal of a time stop at the given clock. -/
  | deciding (clock : ℤ)
  /-- Approved in the given episode of the position, for which it had the given quantity. -/
  | creating (a : ApprovedSignal) (episode : ℕ) (before : ℚ)
  /-- The order is recorded as the `n`-th exit. -/
  | placing (a : ApprovedSignal) (order : Order) (n : ℕ) (left : List Lifecycle)
  /-- The futures ledger is written. -/
  | filling (a : ApprovedSignal) (order : Order)
  /-- The order is with the adapter. -/
  | sent (order : Order)
  | answered (orderId : String) (left : List Lifecycle)
  deriving DecidableEq, Repr

/-- Where a run is. -/
inductive BridgeRun where
  | started
  | spotRead (cs : List Candidate)
  | listing (cs : List Candidate)
  | visiting (all rest : List Candidate)
  | opening (c : Candidate) (all rest : List Candidate)
  | exiting (c : Candidate) (all rest : List Candidate) (pc : ExitPc)
  | ended
  deriving DecidableEq, Repr

/-- A reduce-only order that a run has recorded: the episode and the quantity of the position
when it was approved, whether it went out to the exchange, and what is executed of it. -/
structure Exit where
  position : PositionKey
  episode : ℕ
  orderId : String
  side : OrderSide
  before : ℚ
  quantity : ℚ
  sent : Bool := false
  executed : ℚ := 0
  deriving DecidableEq, Repr

/-- The bridge, its runs, and the orders they have recorded. `openings` has a position once for
each time it came to be open. -/
structure Bridge where
  flow : OrderFlow
  inFlight : List String := []
  firstSeen : List (String × ℤ) := []
  missingSince : List (String × ℤ) := []
  runs : List BridgeRun := []
  exits : List Exit := []
  openings : List PositionKey := []

/-- What the next step of `process_signal` takes from outside. -/
inductive SignalCall where
  | decide (env : SignalEnv)
  | commit (ids : PerpetualIds)
  | transition (minted : String)
  | submit
  /-- The answer of `submit_order`. -/
  | answer (answer : Except TradingError Order) (ackId nextId : String)
  /-- What is awaited raises. -/
  | raise

inductive BridgeTurn where
  | start
  | read (r : ℕ) (raises : Bool)
  /-- The next candidate; off the time stop, `acts` tells whether the brain wants an action. -/
  | visit (r : ℕ) (clock : ℤ) (acts : Bool)
  /-- `position_opened_at_provider` has answered. -/
  | opened (r : ℕ) (openedAt : Option ℤ) (clock : ℤ) (acts : Bool)
  | signal (r : ℕ) (call : SignalCall)
  /-- The task of the run is cancelled. -/
  | cancel (r : ℕ)
  /-- The exchange executes the `n`-th exit. -/
  | execute (n : ℕ) (fill : Fill)
  /-- Other signals, fills and settlements take their turn. -/
  | flow (turn : FlowTurn)
  /-- Any other task writes to the database. -/
  | others (db : Db Books)

namespace Bridge

variable (st : Bridge)

def withDb (db : Db Books) : Bridge :=
  { st with flow := { st.flow with db } }

def goto (r : ℕ) (run : BridgeRun) : Bridge :=
  { st with runs := st.runs.set r run }

/-- `_exit_in_flight.add`. -/
def mark (symbol : String) : Bridge :=
  { st with inFlight := if symbol ∈ st.inFlight then st.inFlight else st.inFlight ++ [symbol] }

def discard (symbol : String) : Bridge :=
  { st with inFlight := st.inFlight.filter (· ≠ symbol) }

def keepMarks (kept : List String) : Bridge :=
  { st with inFlight := st.inFlight.filter (· ∈ kept) }

/-- How often the position has come to be open. -/
def episode (position : PositionKey) : ℕ :=
  st.openings.count position

/-- The `n`-th exit is executed in the given quantity. -/
def executed (n : ℕ) (quantity : ℚ) : Bridge :=
  { st with exits := st.exits.modify n (fun x => { x with executed := x.executed + quantity }) }

def handOver (n : ℕ) : Bridge :=
  { st with exits := st.exits.modify n (fun x => { x with sent := true }) }

end Bridge

/-! ### `process_signal` on an exit -/

/-- `str(exc)` of an `ExchangeError`. -/
def exchangeErrorText : TradingError → Option String
  | .orderNotFound m | .exchangeUnavailable m | .okxDiagnostic _ m _ | .rateLimited m | .authenticationError m
  | .invalidOrder m | .insufficientBalance m | .orderRejected m | .temporaryNetworkError m
  | .unknownExecutionState m | .sequenceGap m => some m
  | _ => none

/-- What follows the acknowledgement. -/
def statusCalls (answer : Order) (nextId : String) : List Lifecycle :=
  match answer.status with
  | .opened => [.opened (some nextId)]
  | .cancelled => [.cancelConfirm (some nextId)]
  | .rejected => [.reject (orElseNew answer.rejectionReason "rejected on exchange") (some nextId)]
  | _ => []

/-- The calls of the order manager after `submit_order`, unless its exception is passed on. An
`OrderRejected` is an `ExchangeError`, and caught as such. -/
def answerCalls (answer : Except TradingError Order) (ackId nextId : String) : Option (List Lifecycle) :=
  match answer with
  | .ok x => some (.ack (x.exchangeOrderId.getD "") (some ackId) :: statusCalls x nextId)
  | .error e => (exchangeErrorText e).map (fun text => [.markUnknown text])

inductive SignalOutcome where
  | awaiting (pc : ExitPc)
  | approved
  | refused
  | raised
  deriving DecidableEq, Repr

/-- A transition, with what comes after it. -/
def transitionStep (st : Bridge) (orderId : String) (l : Lifecycle) (minted : String) (next : ExitPc) :
    SignalOutcome × Bridge :=
  match callLifecycle orderId l minted st.flow.db with
  | (.ok _, db) => (.awaiting next, st.withDb db)
  | (.error _, db) => (.raised, st.withDb db)

/-- A new exit, in the given episode of the candidate's position. -/
def newExit (c : Candidate) (a : ApprovedSignal) (order : Order) (episode : ℕ) (before : ℚ) : Exit where
  position := c.key
  episode := episode
  orderId := order.internalOrderId
  side := a.signal.side
  before := before
  quantity := a.signal.quantity

/-- `create_from_intent`; the order is recorded as an exit of the candidate's position. -/
def createExit (setup : BridgeSetup) (c : Candidate) (st : Bridge) (a : ApprovedSignal) (episode : ℕ) (before : ℚ)
    (ids : PerpetualIds) : SignalOutcome × Bridge :=
  match callCreate a.intent setup.mode ids.orderId ids.created st.flow.db with
  | (.error _, db) => (.raised, st.withDb db)
  | (.ok order, db) =>
    (.awaiting (.placing a order st.exits.length [.validate, .submitting, .submitted]),
      { st.withDb db with exits := st.exits ++ [newExit c a order episode before] })

/-- The step of `process_signal` that comes next. -/
def processStep (setup : BridgeSetup) (c : Candidate) (st : Bridge) (pc : ExitPc) (call : SignalCall) :
    SignalOutcome × Bridge :=
  match pc, call with
  | _, .raise => (.raised, st)
  | .deciding clock, .decide env =>
    let signal := timeStopSignal c clock
    match st.flow.db.store.getByClient (clientOrderId signal) with
    | some _ => (.refused, st)
    | none =>
      match decideSignal setup.engine env signal st.flow.db with
      | .error _ => (.raised, st)
      | .ok decision =>
        if decision.decision = .approve then
          (.awaiting (.creating ⟨signal, env.marketPrice, env.runId⟩ (st.episode c.key)
            |currentSignedQuantity setup.engine c.marketType c.symbol st.flow.db.rest|), st)
        else (.refused, st)
  | .creating a episode before, .commit ids =>
    if a.signal.marketType = .perpetual ∧ (setup.engine.isNone ∨ a.marketPrice ≤ 0) then (.approved, st)
    else createExit setup c st a episode before ids
  | .placing a order n (l :: left), .transition minted =>
    transitionStep st order.internalOrderId l minted (.placing a order n left)
  | .placing a order n [], .commit ids =>
    match setup.engine, a.signal.marketType with
    | some engine, .perpetual =>
      let (result, db) := movePosition engine a.intent (perpetualSide a.signal.positionSide a.intent.side)
        a.marketPrice setup.leverage order.internalOrderId ids.transactionId st.flow.db
      (if result.isOk then .awaiting (.filling a order) else .raised, (st.withDb db).executed n a.signal.quantity)
    | _, _ => (.awaiting pc, st)
  | .placing a order n [], .submit =>
    match a.signal.marketType with
    | .perpetual => (.awaiting pc, st)
    | .spot => (.awaiting (.sent order), st.handOver n)
  | .sent order, .answer answer ackId nextId =>
    match answerCalls answer ackId nextId with
    | some calls => (.awaiting (.answered order.internalOrderId calls), st)
    | none => (.raised, st)
  | .filling a order, .commit ids =>
    match setup.engine with
    | none => (.awaiting pc, st)
    | some engine =>
      match applyFill (settleFill setup.quarantined setup.settlement) (perpetualFill engine a.intent
          (perpetualSide a.signal.positionSide a.intent.side) a.marketPrice order.internalOrderId
          (clientOrderId a.signal) ids.fillId ids.tradeId) ids.fill st.flow.db with
      | (.ok _, db) => (.approved, st.withDb db)
      | (.error _, db) => (.raised, st.withDb db)
  | .answered orderId (l :: left), .transition minted => transitionStep st orderId l minted (.answered orderId left)
  -- after an UnknownExecutionState the recovery comes first, whose writes are those of other tasks
  | .answered _ [], .commit _ => (.approved, st)
  | _, _ => (.awaiting pc, st)

/-! ### The runs -/

/-- `_apply_to_engine`: what becomes of the mark, and of the run. -/
def applyToEngine (r : ℕ) (c : Candidate) (all rest : List Candidate) : SignalOutcome × Bridge → Bridge
  | (.awaiting pc, st) => st.goto r (.exiting c all rest pc)
  | (.approved, st) => st.goto r (.visiting all rest)
  | (.refused, st) => (st.discard c.symbol).goto r (.visiting all rest)
  | (.raised, st) => (st.discard c.symbol).goto r .ended

/-- A position seen at `first` is held past the time stop. -/
def BridgeSetup.expired (setup : BridgeSetup) (clock first : ℤ) : Bool :=
  setup.timeStop.any (fun stop => stop ≤ clock - first)

/-- The rest of `_evaluate_one` once the age of the position is known. An action of the brain ends
the run: its evaluation has no field `hard_risk_exit`. -/
def judge (setup : BridgeSetup) (r : ℕ) (c : Candidate) (all rest : List Candidate) (first clock : ℤ) (acts : Bool)
    (st : Bridge) : Bridge :=
  if setup.expired clock first then
    (st.mark c.symbol).goto r (.exiting c all rest (.deciding clock))
  else st.goto r (if acts then .ended else .visiting all rest)

/-- The symbols of the open reduce-only orders, none if `list_open` raises. -/
def Bridge.openExits (st : Bridge) (raises : Bool) : List String :=
  if raises then [] else (st.flow.db.store.listOpen.filter Order.reduceOnly).map Order.symbol

/-- Once the candidates are collected: with marks and candidates the open orders are listed. -/
def Bridge.collected (st : Bridge) (cs : List Candidate) : BridgeRun :=
  if st.inFlight ≠ [] ∧ cs ≠ [] then .listing cs else .visiting cs cs

/-- The end of a run: symbols that are absent for longer than the grace lose their age, and absent
symbols their mark. -/
def Bridge.finish (setup : BridgeSetup) (clock : ℤ) (seen : List String) (st : Bridge) : Bridge :=
  let absent := st.firstSeen.filter (fun p => p.1 ∉ seen)
  let fresh := absent.filter (fun p => row Prod.fst p.1 st.missingSince = none)
  let missing := st.missingSince ++ fresh.map (fun p => (p.1, clock))
  let forgotten := missing.filter (fun p => p.1 ∈ absent.map Prod.fst ∧ setup.grace ≤ clock - p.2)
  { st.keepMarks seen with
    firstSeen := st.firstSeen.filter (fun p => p.1 ∉ forgotten.map Prod.fst)
    missingSince := missing.filter (fun p => p.1 ∉ forgotten.map Prod.fst ∧ p.1 ∉ seen) }

/-- The fill that reports an execution of an exit. -/
def Exit.report (x : Exit) (fill : Fill) : Fill :=
  { fill with orderId := x.orderId, symbol := x.position.symbol, side := x.side }

def taskStep (setup : BridgeSetup) (st : Bridge) : BridgeTurn → Bridge
  | .start => { st with runs := st.runs ++ [.started] }
  | .read r raises =>
    match st.runs[r]? with
    | some .started => st.goto r (if raises then .ended else .spotRead (spotCandidates st.flow.db.rest))
    | some (.spotRead cs) =>
      st.goto r (st.collected (if raises then cs else cs ++ perpetualCandidates setup.engine st.flow.db.rest))
    | some (.listing cs) => (st.keepMarks (st.openExits raises)).goto r (.visiting cs cs)
    | _ => st
  | .visit r clock acts =>
    match st.runs[r]? with
    | some (.visiting all []) => (st.finish setup clock (all.map Candidate.symbol)).goto r .ended
    | some (.visiting all (c :: rest)) =>
      if c.symbol ∈ st.inFlight then st.goto r (.visiting all rest)
      else
        match setup.timeStop, row Prod.fst c.symbol st.firstSeen with
        | none, _ => judge setup r c all rest clock clock acts st
        | some _, some first => judge setup r c all rest first.2 clock acts st
        | some _, none =>
          if setup.opensKnown then st.goto r (.opening c all rest)
          else judge setup r c all rest clock clock acts
            { st with firstSeen := upsert Prod.fst (c.symbol, clock) st.firstSeen }
    | _ => st
  | .opened r openedAt clock acts =>
    match st.runs[r]? with
    | some (.opening c all rest) =>
      judge setup r c all rest (openedAt.getD clock) clock acts
        { st with firstSeen := upsert Prod.fst (c.symbol, openedAt.getD clock) st.firstSeen }
    | _ => st
  | .signal r call =>
    match st.runs[r]? with
    | some (.exiting c all rest pc) => applyToEngine r c all rest (processStep setup c st pc call)
    | _ => st
  | .cancel r => st.goto r .ended
  | .execute n fill =>
    match st.exits[n]? with
    | none => st
    | some x =>
      if x.sent ∧ 0 < fill.quantity ∧ fill.quantity ≤ x.quantity - x.executed then
        { st.executed n fill.quantity with flow := { st.flow with queued := st.flow.queued ++ [x.report fill] } }
      else st
  | .flow turn => { st with flow := flowStep setup.toPerpetualSetup st.flow turn }
  | .others db => st.withDb db

/-- The positions that are open now and were flat before. -/
def newlyOpen (engine : Option PerpetualPaperEngine) (before now : Books) : List PositionKey :=
  (openPositions engine now).filter (· ∉ openPositions engine before)

def bridgeStep (setup : BridgeSetup) (st : Bridge) (turn : BridgeTurn) : Bridge :=
  let st' := taskStep setup st turn
  { st' with openings := st.openings ++ newlyOpen setup.engine st.flow.db.rest st'.flow.db.rest }

/-! ### The gate of an exit -/

lemma mem_openPositions {engine : Option PerpetualPaperEngine} {marketType : MarketType} {symbol : String} {books : Books}
    (h : currentSignedQuantity engine marketType symbol books ≠ 0) : ⟨marketType, symbol⟩ ∈ openPositions engine books := by
  unfold currentSignedQuantity at h
  rw [openPositions, List.map_append, List.mem_append, List.mem_map, List.mem_map]
  cases marketType with
  | spot =>
    left
    dsimp only at h
    cases hpos : books.getPosition symbol with
    | none => simp [hpos] at h
    | some pos =>
      rw [hpos, Option.elim_some] at h
      obtain ⟨hmem, rfl⟩ := row_some hpos
      have hc : spotCandidate pos = some ⟨pos.symbol, .spot, if 0 < pos.quantity then .long else .short, |pos.quantity|⟩ :=
        if_neg h
      exact ⟨_, List.mem_filterMap.mpr ⟨pos, hmem, hc⟩, rfl⟩
  | perpetual =>
    right
    cases engine with
    | none => simp at h
    | some engine =>
      dsimp only at h
      cases hpos : (rebuildFuturesProjection books.ledger).position symbol with
      | none => simp [hpos] at h
      | some pos =>
        rw [hpos] at h
        dsimp only at h
        by_cases hflat : pos.isFlat = true
        · simp [hflat] at h
        · obtain ⟨hmem, rfl⟩ := row_some hpos
          have hc : perpetualCandidate pos = some ⟨pos.symbol, .perpetual, pos.side, |pos.quantity|⟩ := if_neg hflat
          exact ⟨_, List.mem_filterMap.mpr ⟨pos, hmem, hc⟩, rfl⟩

lemma approved_exit {engine : Option PerpetualPaperEngine} {env : SignalEnv} {c : Candidate} {clock : ℤ} {db : Db Books}
    (h : Approves engine env (timeStopSignal c clock) db) :
    c.key ∈ openPositions engine db.rest ∧ 0 < c.quantity ∧
      c.quantity ≤ |currentSignedQuantity engine c.marketType c.symbol db.rest| := by
  have hgate := (checkNoReversal_iff _ _ _ _ _).mp h.approval.gate.2
  have hpos : 0 < c.quantity := hgate.1
  have hreduce : (timeStopSignal c clock).isReduceOnly = true := rfl
  have hle : c.quantity ≤ |currentSignedQuantity engine c.marketType c.symbol db.rest| := by
    have hroom := hgate.2
    rw [if_pos hreduce] at hroom
    cases hside : (timeStopSignal c clock).side with
    | sell =>
      rw [hside] at hroom
      exact hroom.trans (le_abs_self _)
    | buy =>
      rw [hside] at hroom
      exact hroom.trans (neg_le_abs _)
  exact ⟨mem_openPositions (abs_pos.mp (hpos.trans_le hle)), hpos, hle⟩

/-! ### What a step of `process_signal` can do -/

inductive SignalEffect (setup : BridgeSetup) (c : Candidate) (st : Bridge) : ExitPc → SignalOutcome → Bridge → Prop
  | waits (pc : ExitPc) : SignalEffect setup c st pc (.awaiting pc) st
  | raised (pc : ExitPc) (db : Db Books) : SignalEffect setup c st pc .raised (st.withDb db)
  | refused (clock : ℤ) : SignalEffect setup c st (.deciding clock) .refused st
  | decided (clock : ℤ) (env : SignalEnv) (happrove : Approves setup.engine env (timeStopSignal c clock) st.flow.db) :
      SignalEffect setup c st (.deciding clock) (.awaiting (.creating ⟨timeStopSignal c clock, env.marketPrice, env.runId⟩
        (st.episode c.key) |currentSignedQuantity setup.engine c.marketType c.symbol st.flow.db.rest|)) st
  | skipped (a : ApprovedSignal) (episode : ℕ) (before : ℚ) :
      SignalEffect setup c st (.creating a episode before) .approved st
  | created (a : ApprovedSignal) (episode : ℕ) (before : ℚ) (order : Order) (db : Db Books) :
      SignalEffect setup c st (.creating a episode before)
        (.awaiting (.placing a order st.exits.length [.validate, .submitting, .submitted]))
        { st.withDb db with exits := st.exits ++ [newExit c a order episode before] }
  | placed (a : ApprovedSignal) (order : Order) (n : ℕ) (l : Lifecycle) (left : List Lifecycle) (db : Db Books) :
      SignalEffect setup c st (.placing a order n (l :: left)) (.awaiting (.placing a order n left)) (st.withDb db)
  | moved (a : ApprovedSignal) (order : Order) (n : ℕ) (db : Db Books) (outcome : SignalOutcome)
      (hperp : a.signal.marketType = .perpetual) (ho : outcome = .awaiting (.filling a order) ∨ outcome = .raised) :
      SignalEffect setup c st (.placing a order n []) outcome ((st.withDb db).executed n a.signal.quantity)
  | submitted (a : ApprovedSignal) (order : Order) (n : ℕ) (hspot : a.signal.marketType = .spot) :
      SignalEffect setup c st (.placing a order n []) (.awaiting (.sent order)) (st.handOver n)
  | heard (order : Order) (calls : List Lifecycle) :
      SignalEffect setup c st (.sent order) (.awaiting (.answered order.internalOrderId calls)) st
  | filled (a : ApprovedSignal) (order : Order) (db : Db Books) :
      SignalEffect setup c st (.filling a order) .approved (st.withDb db)
  | told (orderId : String) (l : Lifecycle) (left : List Lifecycle) (db : Db Books) :
      SignalEffect setup c st (.answered orderId (l :: left)) (.awaiting (.answered orderId left)) (st.withDb db)
  | returned (orderId : String) : SignalEffect setup c st (.answered orderId []) .approved st

section Effects

variable (setup : BridgeSetup) (c : Candidate) (st : Bridge)

lemma transitionStep_cases (orderId : String) (l : Lifecycle) (minted : String) (next : ExitPc) :
    ∃ db, transitionStep st orderId l minted next = (.awaiting next, st.withDb db) ∨
      transitionStep st orderId l minted next = (.raised, st.withDb db) := by
  unfold transitionStep
  rcases callLifecycle orderId l minted st.flow.db with ⟨_ | _, db⟩
  · exact ⟨db, .inr rfl⟩
  · exact ⟨db, .inl rfl⟩

lemma processStep_raise (pc : ExitPc) : processStep setup c st pc .raise = (.raised, st) := by
  cases pc <;> rfl

lemma processStep_effect (pc : ExitPc) (call : SignalCall) :
    SignalEffect setup c st pc (processStep setup c st pc call).1 (processStep setup c st pc call).2 := by
  cases call with
  | raise =>
    rw [processStep_raise]
    exact .raised pc st.flow.db
  | decide env =>
    cases pc with
    | deciding clock =>
      simp only [processStep]
      cases hclient : st.flow.db.store.getByClient (clientOrderId (timeStopSignal c clock)) with
      | some r => exact .refused clock
      | none =>
        dsimp only
        cases hdecide : decideSignal setup.engine env (timeStopSignal c clock) st.flow.db with
        | error e => exact .raised _ st.flow.db
        | ok decision =>
          dsimp only
          by_cases happrove : decision.decision = .approve
          · rw [if_pos happrove]
            exact .decided clock env (by rw [Approves, hdecide, Except.map, happrove])
          · rw [if_neg happrove]
            exact .refused clock
    | _ => exact .waits _
  | commit ids =>
    cases pc with
    | deciding clock => exact .waits _
    | creating a episode before =>
      simp only [processStep]
      split
      · exact .skipped a episode before
      · unfold createExit
        rcases callCreate a.intent setup.mode ids.orderId ids.created st.flow.db with ⟨_ | order, db⟩
        · exact .raised _ db
        · exact .created a episode before order db
    | placing a order n left =>
      cases left with
      | cons l left => exact .waits _
      | nil =>
        simp only [processStep]
        cases hengine : setup.engine with
        | none => exact .waits _
        | some engine =>
          cases hmarket : a.signal.marketType with
          | spot => exact .waits _
          | perpetual =>
            dsimp only
            rcases movePosition engine a.intent (perpetualSide a.signal.positionSide a.intent.side) a.marketPrice
              setup.leverage order.internalOrderId ids.transactionId st.flow.db with ⟨_ | _, db⟩
            · exact .moved a order n db _ hmarket (.inr rfl)
            · exact .moved a order n db _ hmarket (.inl rfl)
    | filling a order =>
      simp only [processStep]
      cases hengine : setup.engine with
      | none => exact .waits _
      | some engine =>
        dsimp only
        rcases applyFill (settleFill setup.quarantined setup.settlement) (perpetualFill engine a.intent
          (perpetualSide a.signal.positionSide a.intent.side) a.marketPrice order.internalOrderId
          (clientOrderId a.signal) ids.fillId ids.tradeId) ids.fill st.flow.db with ⟨_ | _, db⟩
        · exact .raised _ db
        · exact .filled a order db
    | sent order => exact .waits _
    | answered orderId left =>
      cases left with
      | cons l left => exact .waits _
      | nil => exact .returned orderId
  | transition minted =>
    cases pc with
    | placing a order n left =>
      cases left with
      | nil => exact .waits _
      | cons l left =>
        obtain ⟨db, h | h⟩ := transitionStep_cases st order.internalOrderId l minted (.placing a order n left)
        · simp only [processStep, h]
          exact .placed a order n l left db
        · simp only [processStep, h]
          exact .raised _ db
    | answered orderId left =>
      cases left with
      | nil => exact .waits _
      | cons l left =>
        obtain ⟨db, h | h⟩ := transitionStep_cases st orderId l minted (.answered orderId left)
        · simp only [processStep, h]
          exact .told orderId l left db
        · simp only [processStep, h]
          exact .raised _ db
    | _ => exact .waits _
  | submit =>
    cases pc with
    | placing a order n left =>
      cases left with
      | cons l left => exact .waits _
      | nil =>
        simp only [processStep]
        cases hmarket : a.signal.marketType with
        | perpetual => exact .waits _
        | spot => exact .submitted a order n hmarket
    | _ => exact .waits _
  | answer answer ackId nextId =>
    cases pc with
    | sent order =>
      simp only [processStep]
      cases answerCalls answer ackId nextId with
      | none => exact .raised _ st.flow.db
      | some calls => exact .heard order calls
    | _ => exact .waits _

end Effects

end CryptoTrader
