import CryptoTrader.Execution.Authority
import CryptoTrader.Perpetual.Engine
import CryptoTrader.Runtime.Signal

/-!
# The approval of a signal

What `process_signal` of `runtime/engine.py` reads, and what it decides, before it makes an
order of a signal: the hard gate on the reference price, the risk engine, and the execution
authority.
-/

namespace CryptoTrader

open KeyedTable OrderStore

/-- What comes from outside the tables: the mid price of the reference book, the
configuration, and what the authority is told of clock, lease, feed and exchange. -/
structure SignalEnv where
  config : RiskConfig := {}
  killSwitch : Bool := false
  marketPrice : ℚ
  consecutiveFailures : ℤ := 0
  instruments : List Instrument := []
  expiresAt : Option ℤ := none
  runId : Option String := none
  standing : AuthorizationContext := {}
  deriving DecidableEq, Repr

def currentSignedQuantity (engine : Option PerpetualPaperEngine) (marketType : MarketType) (symbol : String)
    (books : Books) : ℚ :=
  match marketType with
  | .perpetual =>
    match engine with
    | none => 0
    | some _ =>
      match (rebuildFuturesProjection books.ledger).position symbol with
      | none => 0
      | some pos => if pos.isFlat then 0 else pos.quantity
  | .spot => (books.getPosition symbol).elim 0 PositionView.quantity

def riskInput (engine : Option PerpetualPaperEngine) (env : SignalEnv) (signal : SignalIntent) (equity : ℚ)
    (db : Db Books) : RiskInput where
  equity := equity
  positions := db.rest.positions
  marketPrice := env.marketPrice
  openOrderCount := db.store.countOpen
  consecutiveFailures := env.consecutiveFailures
  currentSignedQty := some (currentSignedQuantity engine signal.marketType signal.symbol db.rest)

/-- The instrument of a registered paper perpetual. -/
def perpetualInstrument (symbol : String) (contract : PerpetualContract) : Instrument where
  symbol := symbol
  baseAsset := contract.base
  quoteAsset := contract.quote
  status := "TRADING"
  tickSize := contract.tickSize
  stepSize := contract.quantityStep
  exchange := "PAPER_PERPETUAL"

/-- The instrument of a signal's symbol: the exchange's, or that of a registered perpetual. -/
def signalInstrument (engine : Option PerpetualPaperEngine) (env : SignalEnv) (signal : SignalIntent) :
    Option Instrument :=
  match row Instrument.symbol signal.symbol env.instruments with
  | some instrument => some instrument
  | none =>
    if signal.marketType = .perpetual then
      (engine.bind (fun e => e.contractFor signal.symbol)).map (perpetualInstrument signal.symbol)
    else none

def authorizationContext (engine : Option PerpetualPaperEngine) (env : SignalEnv) (signal : SignalIntent)
    (risk : RiskDecision) (books : Books) : AuthorizationContext :=
  let instrument := signalInstrument engine env signal
  { env.standing with
    killSwitch := env.killSwitch
    orderStatus := .created
    symbolTradeable := instrument.any (fun i => i.status = "TRADING")
    balanceFresh := true
    riskDecision := some risk
    instrument := instrument
    duplicateClientOrder := false
    rateLimiter := none
    minNotionalOk := true
    currentSignedQty := currentSignedQuantity engine signal.marketType signal.symbol books }

/-- The text of a Python list of strings. -/
def listText (items : List String) : String :=
  "[" ++ String.intercalate ", " (items.map (fun s => "\x27" ++ s ++ "\x27")) ++ "]"

/-- The decision that `process_signal` returns for a signal whose client order id is new. -/
def decideSignal (engine : Option PerpetualPaperEngine) (env : SignalEnv) (signal : SignalIntent) (db : Db Books) :
    Except TradingError RiskDecision :=
  match replayProjections [] db.rest.ledger with
  | .error e => .error e
  | .ok account =>
    if signal.marketType = .perpetual ∧ env.marketPrice ≤ 0 then
      .ok { clientOrderId := clientOrderId signal
            symbol := signal.symbol
            side := signal.side
            decision := .reject
            reason := "PERPETUAL_REFERENCE_PRICE_UNAVAILABLE"
            checks := [("reference_market_symbol", .text (referenceSymbolFor signal.symbol))] }
    else
      let risk := check env.config env.killSwitch signal (riskInput engine env signal account.equity db)
      if risk.decision ≠ .approve then .ok risk
      else
        match authorize (intentOfSignal signal env.runId) env.expiresAt
            (authorizationContext engine env signal risk db.rest) with
        | .error e => .error e
        | .ok (decision, notes) =>
          if decision = .approve then .ok risk
          else
            .ok { risk with
                  decision
                  reason := "AUTHORITY_" ++ decision.value ++ ": " ++ listText notes
                  checks := risk.checks ++ [("authority_notes", .notes notes)] }

/-- Risk engine and authority approve the signal. -/
def Approves (engine : Option PerpetualPaperEngine) (env : SignalEnv) (signal : SignalIntent) (db : Db Books) : Prop :=
  (decideSignal engine env signal db).map RiskDecision.decision = .ok .approve

instance (engine : Option PerpetualPaperEngine) (env : SignalEnv) (signal : SignalIntent) (db : Db Books) :
    Decidable (Approves engine env signal db) :=
  inferInstanceAs (Decidable (_ = _))

/-- What an approval has made sure of. -/
structure Approval (engine : Option PerpetualPaperEngine) (env : SignalEnv) (signal : SignalIntent) (db : Db Books) :
    Prop where
  replays : ∃ account, replayProjections [] db.rest.ledger = .ok account ∧
    Approved env.config signal (riskInput engine env signal account.equity db)
  price : signal.marketType = .perpetual → 0 < env.marketPrice
  instrument : signalInstrument engine env signal ≠ none

lemma Approves.approval {engine : Option PerpetualPaperEngine} {env : SignalEnv} {signal : SignalIntent} {db : Db Books}
    (h : Approves engine env signal db) : Approval engine env signal db := by
  unfold Approves decideSignal at h
  cases hreplay : replayProjections [] db.rest.ledger with
  | error e => simp [hreplay, Except.map] at h
  | ok account =>
    rw [hreplay] at h
    dsimp only at h
    by_cases hprice : signal.marketType = .perpetual ∧ env.marketPrice ≤ 0
    · simp [hprice, Except.map] at h
    · rw [if_neg hprice] at h
      by_cases hrisk : (check env.config env.killSwitch signal
          (riskInput engine env signal account.equity db)).decision = .approve
      · rw [if_neg (not_not.mpr hrisk)] at h
        cases hauth : authorize (intentOfSignal signal env.runId) env.expiresAt (authorizationContext engine env signal
            (check env.config env.killSwitch signal (riskInput engine env signal account.equity db)) db.rest) with
        | error e => simp [hauth, Except.map] at h
        | ok answer =>
          obtain ⟨decision, notes⟩ := answer
          rw [hauth] at h
          dsimp only at h
          by_cases happrove : decision = .approve
          · rw [happrove] at hauth
            refine ⟨⟨account, hreplay, approved_of_check hrisk⟩, fun hperp => ?_, (authorized_of_authorize hauth).instrument⟩
            exact not_le.mp (fun hle => hprice ⟨hperp, hle⟩)
          · rw [if_neg happrove] at h
            exact absurd (Except.ok.inj h) happrove
      · rw [if_pos hrisk] at h
        exact absurd (Except.ok.inj h) hrisk

/-- Once a signal is approved it is for a positive quantity, and passes the no-reversal gate. -/
lemma Approval.gate {engine : Option PerpetualPaperEngine} {env : SignalEnv} {signal : SignalIntent} {db : Db Books}
    (h : Approval engine env signal db) : 0 < signal.quantity ∧
      (checkNoReversal signal.marketType signal.side signal.quantity signal.isReduceOnly
        (currentSignedQuantity engine signal.marketType signal.symbol db.rest)).1 = true := by
  obtain ⟨account, -, happroved⟩ := h.replays
  exact ⟨happroved.quantity, happroved.noReversal⟩

/-- Every standing condition holds, and the reference book's mid price is 100. -/
def runningEnv : SignalEnv where
  marketPrice := 100
  standing := { leaseHeld := true, marketDataFresh := true, orderbookFresh := true, orderbookHealthy := true
                exchangeConnected := true }

end CryptoTrader
