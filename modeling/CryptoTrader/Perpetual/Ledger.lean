import CryptoTrader.Ledger.Service
import CryptoTrader.Perpetual.Domain

/-!
# The futures ledger

`perpetual/ledger.py`: the transactions that open and close a position, and the replay
that rebuilds the positions from the ledger.
-/

namespace CryptoTrader

open KeyedTable

/-- The entry `action` of a transaction's metadata. -/
inductive PositionAction where
  | opened
  | closed
  deriving DecidableEq, Repr

def LedgerMetadata.action : LedgerMetadata → Option PositionAction
  | .futuresOpen .. => some .opened
  | .futuresClose .. => some .closed
  | _ => none

/-- The entry `symbol` of a transaction's metadata. -/
def LedgerMetadata.symbol : LedgerMetadata → Option String
  | .empty | .amount _ _ => none
  | .trade m => some m.symbol
  | .marginChange symbol _ => some symbol
  | .futuresOpen symbol .. => some symbol
  | .futuresClose symbol .. => some symbol
  | .funding symbol .. => some symbol

/-- The transaction opened or closed a position. -/
def LedgerTransaction.MovesPosition (t : LedgerTransaction) : Prop :=
  t.metadata.action ≠ none

instance (t : LedgerTransaction) : Decidable t.MovesPosition :=
  inferInstanceAs (Decidable (_ ≠ _))

/-! ### Opening and closing -/

def openPostings (contract : PerpetualContract) (quantity entryPrice initialMargin fee : ℚ) : List LedgerPosting :=
  let notional := contract.notional quantity entryPrice
  [⟨.futuresPositionAsset contract.symbol, .debit, notional, contract.marginAsset⟩,
    ⟨.futuresPositionLiability contract.symbol, .credit, notional, contract.marginAsset⟩,
    ⟨.futuresTradingFee, .debit, fee, contract.marginAsset⟩,
    ⟨.cash, .credit, fee, contract.marginAsset⟩,
    ⟨.marginOf contract.symbol, .debit, initialMargin, contract.marginAsset⟩,
    ⟨.cash, .credit, initialMargin, contract.marginAsset⟩]

def recordOpen (contract : PerpetualContract) (side : PositionSide)
    (quantity entryPrice leverage initialMargin fee : ℚ) (orderId : Option String) (minted : String)
    (ledger : Ledger) : Except TradingError (LedgerTransaction × Ledger) :=
  record (if 0 < fee then .futuresTradingFee else .futuresMarginPost)
    (openPostings contract quantity entryPrice initialMargin fee)
    { orderId
      metadata := .futuresOpen contract.symbol side quantity entryPrice leverage initialMargin fee }
    minted ledger

/-- The postings of a profit or a loss. -/
def pnlPostings (contract : PerpetualContract) (pnl : ℚ) : List LedgerPosting :=
  if 0 < pnl then
    [⟨.cash, .debit, pnl, contract.marginAsset⟩, ⟨.futuresRealizedPnl, .credit, pnl, contract.marginAsset⟩]
  else if pnl < 0 then
    [⟨.futuresRealizedPnl, .debit, -pnl, contract.marginAsset⟩, ⟨.cash, .credit, -pnl, contract.marginAsset⟩]
  else []

def closePostings (contract : PerpetualContract) (quantity entryPrice realizedPnl fee marginRelease : ℚ) :
    List LedgerPosting :=
  let entryNotional := contract.notional quantity entryPrice
  [⟨.futuresPositionLiability contract.symbol, .debit, entryNotional, contract.marginAsset⟩,
    ⟨.futuresPositionAsset contract.symbol, .credit, entryNotional, contract.marginAsset⟩] ++
  pnlPostings contract realizedPnl ++
  (if 0 < fee then
    [⟨.futuresTradingFee, .debit, fee, contract.marginAsset⟩, ⟨.cash, .credit, fee, contract.marginAsset⟩]
  else []) ++
  (if 0 < marginRelease then
    [⟨.cash, .debit, marginRelease, contract.marginAsset⟩,
      ⟨.marginOf contract.symbol, .credit, marginRelease, contract.marginAsset⟩]
  else [])

def recordClose (contract : PerpetualContract) (side : PositionSide)
    (quantity entryPrice exitPrice realizedPnl fee marginRelease : ℚ) (orderId : Option String) (minted : String)
    (ledger : Ledger) : Except TradingError (LedgerTransaction × Ledger) :=
  record .futuresRealizedPnl (closePostings contract quantity entryPrice realizedPnl fee marginRelease)
    { orderId
      metadata := .futuresClose contract.symbol side quantity entryPrice exitPrice realizedPnl fee marginRelease }
    minted ledger

/-- The postings of a funding payment, received or paid. -/
def fundingPostings (contract : PerpetualContract) (amount : ℚ) : List LedgerPosting :=
  if 0 < amount then
    [⟨.cash, .debit, amount, contract.marginAsset⟩, ⟨.fundingReceipt, .credit, amount, contract.marginAsset⟩]
  else
    [⟨.fundingPayment, .debit, -amount, contract.marginAsset⟩, ⟨.cash, .credit, -amount, contract.marginAsset⟩]

/-- `record_funding`: nothing is recorded for the amount 0. -/
def recordFunding (contract : PerpetualContract) (side : PositionSide) (amount rate notional : ℚ) (minted : String)
    (ledger : Ledger) : Except TradingError Ledger :=
  if amount = 0 then .ok ledger
  else
    match record (if 0 < amount then .fundingReceipt else .fundingPayment) (fundingPostings contract amount)
        { metadata := .funding contract.symbol side rate notional } minted ledger with
    | .ok (_, ledger') => .ok ledger'
    | .error e => .error e

/-! ### The replay -/

structure FuturesSnapshot where
  positions : List MarginPosition := []
  marginBalance : ℚ := 0
  realizedPnl : ℚ := 0
  fundingPaid : ℚ := 0
  fundingReceived : ℚ := 0
  feesPaid : ℚ := 0
  deriving DecidableEq, Repr

namespace FuturesSnapshot

def position (snap : FuturesSnapshot) (symbol : String) : Option MarginPosition :=
  row MarginPosition.symbol symbol snap.positions

/-- A position of the same side grows, at the average entry price. -/
def addToPosition (pos : MarginPosition) (side : PositionSide) (qty entry margin : ℚ) : MarginPosition :=
  let oldAbs := |pos.quantity|
  { pos with
    avgEntryPrice := (pos.avgEntryPrice * oldAbs + entry * qty) / (oldAbs + qty)
    quantity := signedQty side (oldAbs + qty)
    initialMargin := pos.initialMargin + margin }

/-- A position of the other side is netted, closed or flipped. -/
def netPosition (pos : MarginPosition) (side : PositionSide) (qty entry margin : ℚ) : MarginPosition :=
  let oldAbs := |pos.quantity|
  if oldAbs ≤ qty then
    if qty - oldAbs = 0 then
      { pos with side := .flat, quantity := 0, avgEntryPrice := 0, initialMargin := 0 }
    else
      { pos with side, quantity := signedQty side (qty - oldAbs), avgEntryPrice := entry, initialMargin := margin }
  else
    { pos with
      quantity := signedQty pos.side (oldAbs - qty)
      initialMargin := max (pos.initialMargin * (oldAbs - qty) / oldAbs) 0 }

/-- The position after an open. -/
def openedPosition (pos : Option MarginPosition) (symbol : String) (side : PositionSide)
    (qty entry lev margin : ℚ) : MarginPosition :=
  let fresh : MarginPosition :=
    { symbol, side, quantity := signedQty side qty, avgEntryPrice := entry, leverage := lev, initialMargin := margin }
  match pos with
  | none => fresh
  | some pos =>
    if pos.isFlat then fresh
    else if pos.side = side then addToPosition pos side qty entry margin
    else netPosition pos side qty entry margin

lemma netPosition_symbol (pos : MarginPosition) (side : PositionSide) (qty entry margin : ℚ) :
    (netPosition pos side qty entry margin).symbol = pos.symbol := by
  unfold netPosition
  dsimp only
  split
  · split <;> rfl
  · rfl

lemma openedPosition_symbol (snap : FuturesSnapshot) (symbol : String) (side : PositionSide)
    (qty entry lev margin : ℚ) :
    (openedPosition (snap.position symbol) symbol side qty entry lev margin).symbol = symbol := by
  cases h : snap.position symbol with
  | none => rfl
  | some pos =>
    have hsym : pos.symbol = symbol := (row_some h).2
    by_cases hflat : pos.isFlat
    · simp [openedPosition, hflat]
    · by_cases hside : pos.side = side
      · simp [openedPosition, hflat, hside, addToPosition, hsym]
      · simp [openedPosition, hflat, hside, netPosition_symbol, hsym]

def applyOpen (snap : FuturesSnapshot) (symbol : String) (side : PositionSide) (qty entry lev margin : ℚ) :
    FuturesSnapshot :=
  { snap with
    positions := upsert MarginPosition.symbol
      (openedPosition (snap.position symbol) symbol side qty entry lev margin) snap.positions
    marginBalance := snap.marginBalance + margin }

lemma position_applyOpen (snap : FuturesSnapshot) (symbol : String) (side : PositionSide)
    (qty entry lev margin : ℚ) :
    (snap.applyOpen symbol side qty entry lev margin).position symbol =
      some (openedPosition (snap.position symbol) symbol side qty entry lev margin) := by
  have hsym := snap.openedPosition_symbol symbol side qty entry lev margin
  have hrow := row_upsert_self MarginPosition.symbol
    (openedPosition (snap.position symbol) symbol side qty entry lev margin) snap.positions
  rwa [hsym] at hrow

def applyClose (snap : FuturesSnapshot) (symbol : String) (qty realizedPnl marginRelease : ℚ) : FuturesSnapshot :=
  match snap.position symbol with
  | none => snap
  | some pos =>
    let remaining := |pos.quantity| - qty
    { snap with
      realizedPnl := snap.realizedPnl + realizedPnl
      marginBalance := max (snap.marginBalance - marginRelease) 0
      positions :=
        if remaining ≤ 0 then snap.positions.filter (fun p => p.symbol ≠ symbol)
        else put MarginPosition.symbol
          { pos with
            quantity := signedQty pos.side remaining
            initialMargin := max (pos.initialMargin - marginRelease) 0 } snap.positions }

/-- The fee entries of a transaction. -/
def applyFee (snap : FuturesSnapshot) (entry : LedgerPosting) : FuturesSnapshot :=
  if (entry.account = .futuresTradingFee ∨ entry.account = .liquidationFee) ∧ entry.direction = .debit then
    { snap with feesPaid := snap.feesPaid + entry.amount }
  else snap

/-- The entries of a funding transaction. -/
def applyFundingEntry (snap : FuturesSnapshot) (entry : LedgerPosting) : FuturesSnapshot :=
  if entry.account = .fundingPayment ∧ entry.direction = .debit then
    { snap with fundingPaid := snap.fundingPaid + entry.amount }
  else if entry.account = .fundingReceipt ∧ entry.direction = .credit then
    { snap with fundingReceived := snap.fundingReceived + entry.amount }
  else snap

def applyTxn (snap : FuturesSnapshot) (t : LedgerTransaction) : FuturesSnapshot :=
  if truthy t.metadata.symbol then
    let snap := t.entries.foldl applyFee snap
    match t.metadata with
    | .futuresOpen symbol side qty entry lev margin _ => snap.applyOpen symbol side qty entry lev margin
    | .futuresClose symbol _ qty _ _ realizedPnl _ marginRelease => snap.applyClose symbol qty realizedPnl marginRelease
    | _ =>
      if t.entryType = .fundingPayment ∨ t.entryType = .fundingReceipt then t.entries.foldl applyFundingEntry snap
      else snap
  else snap

end FuturesSnapshot

def rebuildFuturesProjection (ledger : Ledger) : FuturesSnapshot :=
  ledger.foldl FuturesSnapshot.applyTxn {}

/-! ### Journals and positions -/

lemma openPostings_balanced (contract : PerpetualContract) (quantity entryPrice initialMargin fee : ℚ) :
    JournalBalanced (openPostings contract quantity entryPrice initialMargin fee) := by
  simp [JournalBalanced, openPostings]

lemma pnlPostings_balanced (contract : PerpetualContract) (pnl : ℚ) :
    JournalBalanced (pnlPostings contract pnl) := by
  unfold pnlPostings
  split
  · simp [JournalBalanced]
  · split <;> simp [JournalBalanced]

lemma closePostings_balanced (contract : PerpetualContract)
    (quantity entryPrice realizedPnl fee marginRelease : ℚ) :
    JournalBalanced (closePostings contract quantity entryPrice realizedPnl fee marginRelease) := by
  have hpnl := pnlPostings_balanced contract realizedPnl
  simp only [JournalBalanced] at hpnl
  simp only [JournalBalanced, closePostings, sideTotal_append, hpnl]
  split <;> split <;> simp

lemma recordOpen_of_fresh (contract : PerpetualContract) (side : PositionSide)
    (quantity entryPrice leverage initialMargin fee : ℚ) (orderId : Option String) {minted : String}
    {ledger : Ledger} (hid : minted ∉ ledger.map LedgerTransaction.transactionId) :
    ∃ t, recordOpen contract side quantity entryPrice leverage initialMargin fee orderId minted ledger =
        .ok (t, ledger ++ [t]) ∧ t.orderId = orderId ∧
      t.metadata = .futuresOpen contract.symbol side quantity entryPrice leverage initialMargin fee := by
  obtain ⟨t, ht, rfl⟩ := record_of_fresh
    (if 0 < fee then .futuresTradingFee else .futuresMarginPost)
    { orderId, metadata := .futuresOpen contract.symbol side quantity entryPrice leverage initialMargin fee }
    (openPostings_balanced contract quantity entryPrice initialMargin fee) (by simp [openPostings])
    (show findTransaction none none ledger = none from rfl) hid
  exact ⟨_, ht, rfl, rfl⟩

lemma recordClose_of_fresh (contract : PerpetualContract) (side : PositionSide)
    (quantity entryPrice exitPrice realizedPnl fee marginRelease : ℚ) (orderId : Option String) {minted : String}
    {ledger : Ledger} (hid : minted ∉ ledger.map LedgerTransaction.transactionId) :
    ∃ t, recordClose contract side quantity entryPrice exitPrice realizedPnl fee marginRelease orderId minted ledger =
        .ok (t, ledger ++ [t]) ∧ t.orderId = orderId ∧ t.metadata =
          .futuresClose contract.symbol side quantity entryPrice exitPrice realizedPnl fee marginRelease := by
  obtain ⟨t, ht, rfl⟩ := record_of_fresh .futuresRealizedPnl
    { orderId, metadata :=
      .futuresClose contract.symbol side quantity entryPrice exitPrice realizedPnl fee marginRelease }
    (closePostings_balanced contract quantity entryPrice realizedPnl fee marginRelease) (by simp [closePostings])
    (show findTransaction none none ledger = none from rfl) hid
  exact ⟨_, ht, rfl, rfl⟩

lemma rebuildFuturesProjection_append (ledger : Ledger) (t : LedgerTransaction) :
    rebuildFuturesProjection (ledger ++ [t]) = (rebuildFuturesProjection ledger).applyTxn t := by
  simp [rebuildFuturesProjection]

namespace FuturesSnapshot

/-- No position has the empty symbol. -/
def Named (snap : FuturesSnapshot) : Prop :=
  ∀ pos ∈ snap.positions, pos.symbol ≠ ""

@[simp] lemma positions_fees (entries : List LedgerPosting) (snap : FuturesSnapshot) :
    (entries.foldl applyFee snap).positions = snap.positions := by
  induction entries generalizing snap with
  | nil => rfl
  | cons entry entries ih =>
    rw [List.foldl_cons, ih, applyFee]
    split <;> rfl

@[simp] lemma positions_funding (entries : List LedgerPosting) (snap : FuturesSnapshot) :
    (entries.foldl applyFundingEntry snap).positions = snap.positions := by
  induction entries generalizing snap with
  | nil => rfl
  | cons entry entries ih =>
    rw [List.foldl_cons, ih, applyFundingEntry]
    split
    · rfl
    · split <;> rfl

lemma Named.applyOpen {snap : FuturesSnapshot} (h : snap.Named) {symbol : String} (hs : symbol ≠ "")
    (side : PositionSide) (qty entry lev margin : ℚ) :
    (snap.applyOpen symbol side qty entry lev margin).Named := by
  intro pos hpos
  rcases mem_upsert hpos with rfl | hm
  · rwa [openedPosition_symbol]
  · exact h pos hm

lemma Named.applyClose {snap : FuturesSnapshot} (h : snap.Named) (symbol : String)
    (qty realizedPnl marginRelease : ℚ) : (snap.applyClose symbol qty realizedPnl marginRelease).Named := by
  unfold FuturesSnapshot.applyClose
  cases hp : snap.position symbol with
  | none => exact h
  | some pos =>
    dsimp only
    intro p hm
    split at hm
    · exact h p (List.mem_filter.mp hm).1
    · rcases mem_put.mp hm with ⟨rfl, -⟩ | ⟨hm, -⟩
      · exact h pos (row_some hp).1
      · exact h p hm

lemma Named.applyTxn {snap : FuturesSnapshot} (h : snap.Named) (t : LedgerTransaction) : (snap.applyTxn t).Named := by
  unfold FuturesSnapshot.applyTxn
  split
  · rename_i hsym
    have hfees : (t.entries.foldl applyFee snap).Named := fun pos hpos => h pos (by simpa using hpos)
    cases hm : t.metadata with
    | futuresOpen symbol side qty entry lev margin fee =>
      exact hfees.applyOpen (by simpa [hm, LedgerMetadata.symbol, truthy] using hsym) side qty entry lev margin
    | futuresClose symbol side qty entry exit realizedPnl fee marginRelease => exact hfees.applyClose _ _ _ _
    | _ =>
      dsimp only
      split
      · exact fun pos hpos => hfees pos (by simpa using hpos)
      · exact hfees
  · exact h

lemma position_of_open {snap : FuturesSnapshot} {t : LedgerTransaction} {symbol : String} {side : PositionSide}
    {qty entry lev margin fee : ℚ} (hm : t.metadata = .futuresOpen symbol side qty entry lev margin fee)
    (hs : symbol ≠ "") : (snap.applyTxn t).position symbol ≠ none := by
  have hsym : truthy t.metadata.symbol = true := by simp [hm, LedgerMetadata.symbol, truthy, hs]
  rw [FuturesSnapshot.applyTxn, if_pos hsym, hm]
  simp [position_applyOpen]

end FuturesSnapshot

lemma rebuildFuturesProjection_named (ledger : Ledger) : (rebuildFuturesProjection ledger).Named := by
  have hfold : ∀ snap : FuturesSnapshot, snap.Named → (ledger.foldl FuturesSnapshot.applyTxn snap).Named := by
    induction ledger with
    | nil => exact fun _ h => h
    | cons t ledger ih => exact fun snap h => ih _ (h.applyTxn t)
  exact hfold {} (fun pos hpos => absurd hpos (by simp))

lemma rebuildFuturesProjection_nameless (ledger : Ledger) : (rebuildFuturesProjection ledger).position "" = none := by
  cases h : (rebuildFuturesProjection ledger).position "" with
  | none => rfl
  | some pos => exact absurd (row_some h).2 (rebuildFuturesProjection_named ledger pos (row_some h).1)

end CryptoTrader
