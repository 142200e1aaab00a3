import CryptoTrader.Perpetual.Ledger

/-!
# The paper engine for perpetuals

The operations of `perpetual/engine.py`. Each reads the positions from the ledger, makes at
most one write, and reads them again.
-/

namespace CryptoTrader

open KeyedTable

/-- The primary contract and the registry, which has the primary contract first. -/
structure PerpetualPaperEngine where
  contract : PerpetualContract
  extras : List PerpetualContract := []
  deriving DecidableEq, Repr

namespace PerpetualPaperEngine

/-- `contracts`: a later contract of a symbol replaces an earlier one. -/
def contracts (engine : PerpetualPaperEngine) : List PerpetualContract :=
  engine.extras.foldl (fun registry c => upsert PerpetualContract.symbol c registry) [engine.contract]

def contractFor (engine : PerpetualPaperEngine) (symbol : String) : Option PerpetualContract :=
  row PerpetualContract.symbol symbol engine.contracts

/-- The contract of an order: the symbol's, or the primary one. -/
def contractOf (engine : PerpetualPaperEngine) (symbol : Option String) : PerpetualContract :=
  match if truthy symbol then engine.contractFor (symbol.getD "") else none with
  | some contract => contract
  | none => engine.contract

end PerpetualPaperEngine

/-- The position as `open_position` returns it. -/
def advertised (contract : PerpetualContract) (maintenance : ℚ) (pos : MarginPosition) : MarginPosition :=
  let pos := { pos with maintenanceMargin := maintenance }
  { pos with liquidationPrice := some (liquidationPrice pos contract) }

def PerpetualPaperEngine.openPosition (engine : PerpetualPaperEngine) (side : PositionSide) (quantity price leverage : ℚ)
    (orderId symbol : Option String) (minted : String) (ledger : Ledger) :
    Except TradingError MarginPosition × Ledger :=
  if side = .flat then (.error (.valueError "cannot open FLAT position"), ledger)
  else
    let contract := engine.contractOf symbol
    let qty := |quantity|
    let lev := effectiveLeverage leverage contract.maxLeverage
    match initialMargin contract qty price lev with
    | .error e => (.error e, ledger)
    | .ok margin =>
      match recordOpen contract side qty price lev margin (contract.takerFee qty price) orderId minted ledger with
      | .error e => (.error e, ledger)
      | .ok (_, ledger') =>
        match (rebuildFuturesProjection ledger').position contract.symbol with
        | none => (.error (.keyError contract.symbol), ledger')
        | some pos => (.ok (advertised contract (maintenanceMargin contract qty price) pos), ledger')

/-- The profit or loss of closing `qty` of the position at `exitPrice`. -/
def closedPnl (contract : PerpetualContract) (pos : MarginPosition) (qty exitPrice : ℚ) : ℚ :=
  if pos.side = .long then (exitPrice - pos.avgEntryPrice) * qty * contract.contractSize
  else (pos.avgEntryPrice - exitPrice) * qty * contract.contractSize

/-- The margin that closing `qty` of the position releases. -/
def releasedMargin (pos : MarginPosition) (qty : ℚ) : ℚ :=
  if pos.quantity = 0 then 0 else pos.initialMargin * qty / |pos.quantity|

def PerpetualPaperEngine.closePosition (engine : PerpetualPaperEngine) (side : PositionSide) (quantity exitPrice : ℚ)
    (orderId symbol : Option String) (minted : String) (ledger : Ledger) :
    Except TradingError (Option MarginPosition) × Ledger :=
  let contract := engine.contractOf symbol
  match (rebuildFuturesProjection ledger).position contract.symbol with
  | none => (.ok none, ledger)
  | some pos =>
    if pos.side ≠ side then (.ok none, ledger)
    else
      let qty := min |quantity| |pos.quantity|
      match recordClose contract side qty pos.avgEntryPrice exitPrice (closedPnl contract pos qty exitPrice)
          (contract.takerFee qty exitPrice) (releasedMargin pos qty) orderId minted ledger with
      | .error e => (.error e, ledger)
      | .ok (_, ledger') => (.ok ((rebuildFuturesProjection ledger').position contract.symbol), ledger')

/-- The profit or loss of the whole position at `price`. -/
def markedPnl (contract : PerpetualContract) (pos : MarginPosition) (price : ℚ) : ℚ :=
  match pos.side with
  | .long => (price - pos.avgEntryPrice) * |pos.quantity| * contract.contractSize
  | .short => (pos.avgEntryPrice - price) * |pos.quantity| * contract.contractSize
  | .flat => 0

/-- `mark_to_market`. The position that is marked is the operation's own reading. -/
def PerpetualPaperEngine.markToMarket (engine : PerpetualPaperEngine) (price : ℚ) (symbol : Option String)
    (ledger : Ledger) : Option MarginPosition :=
  let contract := engine.contractOf symbol
  match (rebuildFuturesProjection ledger).position contract.symbol with
  | none => none
  | some pos => some { pos with unrealizedPnl := markedPnl contract pos price, markPrice := price }

def PerpetualPaperEngine.applyFunding (engine : PerpetualPaperEngine) (rate markPrice : ℚ) (symbol : Option String)
    (minted : String) (ledger : Ledger) : Except TradingError ℚ × Ledger :=
  let contract := engine.contractOf symbol
  match (rebuildFuturesProjection ledger).position contract.symbol with
  | none => (.ok 0, ledger)
  | some pos =>
    if pos.isFlat then (.ok 0, ledger)
    else
      let payment := fundingPayment pos rate markPrice contract.contractSize
      if payment.amount = 0 then (.ok 0, ledger)
      else
        match recordFunding contract pos.side payment.amount payment.rate payment.notional minted ledger with
        | .error e => (.error e, ledger)
        | .ok ledger' => (.ok payment.amount, ledger')

/-- `liquidate`. `mark_to_market` reads the ledger again and marks that reading, so the
position that is closed here has the unrealized profit the replay left it with. -/
def PerpetualPaperEngine.liquidate (engine : PerpetualPaperEngine) (markPrice : ℚ) (symbol : Option String)
    (minted : String) (ledger : Ledger) : Except TradingError Bool × Ledger :=
  let contract := engine.contractOf symbol
  match (rebuildFuturesProjection ledger).position contract.symbol with
  | none => (.ok false, ledger)
  | some pos =>
    let _marked := engine.markToMarket markPrice (some contract.symbol) ledger
    match evaluateLiquidation pos contract markPrice with
    | .error e => (.error e, ledger)
    | .ok result =>
      if !result.liquidated then (.ok false, ledger)
      else
        match recordClose contract pos.side |pos.quantity| pos.avgEntryPrice markPrice pos.unrealizedPnl
            result.fee pos.initialMargin none minted ledger with
        | .error e => (.error e, ledger)
        | .ok (_, ledger') => (.ok true, ledger')

/-! ### What opening and closing write -/

/-- The transaction that moves a position for the order. -/
def MovesFor (orderId : Option String) (t : LedgerTransaction) : Prop :=
  t.orderId = orderId ∧ t.MovesPosition

instance (orderId : Option String) (t : LedgerTransaction) : Decidable (MovesFor orderId t) :=
  inferInstanceAs (Decidable (_ ∧ _))

section Writes

variable (engine : PerpetualPaperEngine) {side : PositionSide} (orderId symbol : Option String)
  {minted : String} {ledger : Ledger}

/-- An open writes one transaction if its contract has leverage, and then returns if the
contract's symbol is one the replay does not pass over. -/
lemma PerpetualPaperEngine.openPosition_writes (hside : side ≠ .flat) (quantity price leverage : ℚ)
    (hid : minted ∉ ledger.map LedgerTransaction.transactionId) (hlev : (engine.contractOf symbol).maxLeverage ≠ 0) :
    ∃ t, (engine.openPosition side quantity price leverage orderId symbol minted ledger).2 = ledger ++ [t] ∧
      MovesFor orderId t ∧
      ((∃ pos, (engine.openPosition side quantity price leverage orderId symbol minted ledger).1 = .ok pos) ↔
        (engine.contractOf symbol).symbol ≠ "") := by
  generalize hc : engine.contractOf symbol = contract at hlev
  have hne : effectiveLeverage (effectiveLeverage leverage contract.maxLeverage) contract.maxLeverage ≠ 0 := by
    rwa [ne_eq, effectiveLeverage_eq_zero_iff]
  obtain ⟨t, ht, horder, hmeta⟩ := recordOpen_of_fresh contract side |quantity| price
    (effectiveLeverage leverage contract.maxLeverage)
    (contract.notional |quantity| price /
      effectiveLeverage (effectiveLeverage leverage contract.maxLeverage) contract.maxLeverage)
    (contract.takerFee |quantity| price) orderId hid
  have hmoves : MovesFor orderId t := ⟨horder, by simp [LedgerTransaction.MovesPosition, hmeta, LedgerMetadata.action]⟩
  have hpos : (rebuildFuturesProjection (ledger ++ [t])).position contract.symbol ≠ none ↔ contract.symbol ≠ "" := by
    refine not_congr ⟨fun hnone => ?_, fun hempty => ?_⟩
    · by_contra hs
      rw [rebuildFuturesProjection_append] at hnone
      exact FuturesSnapshot.position_of_open hmeta hs hnone
    · rw [hempty, rebuildFuturesProjection_nameless]
  have hopen : engine.openPosition side quantity price leverage orderId symbol minted ledger =
      match (rebuildFuturesProjection (ledger ++ [t])).position contract.symbol with
      | none => (.error (.keyError contract.symbol), ledger ++ [t])
      | some pos => (.ok (advertised contract (maintenanceMargin contract |quantity| price) pos), ledger ++ [t]) := by
    simp only [PerpetualPaperEngine.openPosition, hside, if_false, hc, initialMargin, hne, ht]
  refine ⟨t, ?_, hmoves, ?_⟩
  · rw [hopen]
    cases (rebuildFuturesProjection (ledger ++ [t])).position contract.symbol <;> rfl
  · rw [← hpos, hopen]
    cases (rebuildFuturesProjection (ledger ++ [t])).position contract.symbol <;> simp

/-- An open without leverage writes nothing. -/
lemma PerpetualPaperEngine.openPosition_unleveraged (hside : side ≠ .flat) (quantity price leverage : ℚ)
    (hlev : (engine.contractOf symbol).maxLeverage = 0) :
    engine.openPosition side quantity price leverage orderId symbol minted ledger = (.error .divisionByZero, ledger) := by
  simp only [PerpetualPaperEngine.openPosition, hside, if_false, initialMargin, effectiveLeverage_eq_zero_iff, hlev, if_true]

/-- There is a position on the side. -/
def HoldsSide (engine : PerpetualPaperEngine) (side : PositionSide) (symbol : Option String) (ledger : Ledger) : Prop :=
  ∃ pos, (rebuildFuturesProjection ledger).position (engine.contractOf symbol).symbol = some pos ∧ pos.side = side

lemma PerpetualPaperEngine.closePosition_writes (quantity exitPrice : ℚ) (hid : minted ∉ ledger.map LedgerTransaction.transactionId)
    (hholds : HoldsSide engine side symbol ledger) :
    ∃ t pos, engine.closePosition side quantity exitPrice orderId symbol minted ledger = (.ok pos, ledger ++ [t]) ∧
      MovesFor orderId t := by
  obtain ⟨pos, hpos, rfl⟩ := hholds
  generalize hc : engine.contractOf symbol = contract at hpos
  obtain ⟨t, ht, horder, hmeta⟩ := recordClose_of_fresh contract pos.side (min |quantity| |pos.quantity|)
    pos.avgEntryPrice exitPrice (closedPnl contract pos (min |quantity| |pos.quantity|) exitPrice)
    (contract.takerFee (min |quantity| |pos.quantity|) exitPrice)
    (releasedMargin pos (min |quantity| |pos.quantity|)) orderId hid
  refine ⟨t, (rebuildFuturesProjection (ledger ++ [t])).position contract.symbol, ?_, horder, ?_⟩
  · simp only [PerpetualPaperEngine.closePosition, hc, hpos, ne_eq, not_true_eq_false, if_false, ht]
  · simp [LedgerTransaction.MovesPosition, hmeta, LedgerMetadata.action]

/-- A close of a position that is not held returns without a write. -/
lemma PerpetualPaperEngine.closePosition_skips (quantity exitPrice : ℚ) (hholds : ¬ HoldsSide engine side symbol ledger) :
    engine.closePosition side quantity exitPrice orderId symbol minted ledger = (.ok none, ledger) := by
  simp only [PerpetualPaperEngine.closePosition]
  cases hp : (rebuildFuturesProjection ledger).position (engine.contractOf symbol).symbol with
  | none => rfl
  | some pos =>
    have hne : pos.side ≠ side := fun hs => hholds ⟨pos, hp, hs⟩
    simp only [ne_eq, hne, not_false_eq_true, if_true]

end Writes

end CryptoTrader
