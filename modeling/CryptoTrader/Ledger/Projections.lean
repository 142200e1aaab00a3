import CryptoTrader.Ledger.Service

/-!
# Projections replayed from the ledger

`ledger/projections.py` and the parts of `portfolio/service.py` that write and read the
persisted projections. A balance row's total is all available and none of it frozen, so it
is kept as one number; `equity` is what `_refresh_equity` leaves after every transaction.
-/

namespace CryptoTrader

open KeyedTable

structure PositionView where
  symbol : String
  baseAsset : String
  quoteAsset : String
  quantity : ℚ := 0
  avgEntryPrice : Option ℚ := none
  costBasis : ℚ := 0
  realizedPnl : ℚ := 0
  deriving DecidableEq, Repr

/-- A currency and its total. -/
abbrev Balances := List (String × ℚ)

structure ProjectionSnapshot where
  balances : Balances := []
  positions : List PositionView := []
  realizedPnl : ℚ := 0
  totalFees : ℚ := 0
  totalDeposits : ℚ := 0
  totalWithdrawals : ℚ := 0
  deriving DecidableEq, Repr

namespace ProjectionSnapshot

def balance (snap : ProjectionSnapshot) (currency : String) : ℚ :=
  match row Prod.fst currency snap.balances with
  | some r => r.2
  | none => 0

def position (snap : ProjectionSnapshot) (symbol : String) : Option PositionView :=
  row PositionView.symbol symbol snap.positions

def setBalance (snap : ProjectionSnapshot) (currency : String) (total : ℚ) : ProjectionSnapshot :=
  { snap with balances := upsert Prod.fst (currency, total) snap.balances }

def equity (snap : ProjectionSnapshot) : ℚ :=
  (snap.balances.map Prod.snd).sum + (snap.positions.map PositionView.costBasis).sum

end ProjectionSnapshot

/-- The accounts whose entries move a balance: CASH, MARGIN and MARGIN:symbol. -/
def LedgerAccount.movesBalance : LedgerAccount → Bool
  | .cash | .margin | .marginOf _ => true
  | _ => false

/-- What one entry of a transaction does to the balances and the fee total. -/
def applyEntry (snap : ProjectionSnapshot) (entry : LedgerPosting) : ProjectionSnapshot :=
  let snap :=
    if entry.account.movesBalance then
      let current := snap.balance entry.currency
      match entry.direction with
      | .debit => snap.setBalance entry.currency (current + entry.amount)
      | .credit => snap.setBalance entry.currency (current - entry.amount)
    else snap
  if entry.account = .feeExpense ∧ entry.direction = .debit then
    { snap with totalFees := snap.totalFees + entry.amount }
  else snap

/-- `D(metadata.get("amount", metadata.get("quantity", "0")))`. -/
def LedgerMetadata.amountOrQuantity : LedgerMetadata → ℚ
  | .amount a _ => a
  | .marginChange _ a => a
  | .trade m => m.quantity
  | .futuresOpen _ _ quantity _ _ _ _ => quantity
  | .futuresClose _ _ quantity _ _ _ _ _ => quantity
  | .empty | .funding _ _ _ _ => 0

/-- The position a trade starts from: the one there is, or a new one. -/
def openPosition (snap : ProjectionSnapshot) (m : TradeMetadata) : PositionView :=
  match snap.position m.symbol with
  | some pos => pos
  | none =>
    { symbol := m.symbol
      baseAsset := m.baseAsset.getD (m.symbol.replace "USDT" "")
      quoteAsset := m.quoteCurrency }

/-- A position after a buy. -/
def boughtPosition (pos : PositionView) (quantity gross : ℚ) : PositionView :=
  let newQuantity := pos.quantity + quantity
  let newCost := pos.costBasis + gross
  { pos with
    quantity := newQuantity
    costBasis := newCost
    avgEntryPrice := if 0 < newQuantity then some (newCost / newQuantity) else none }

/-- A position after a sale. -/
def soldPosition (pos : PositionView) (quantity gross : ℚ) : PositionView :=
  let release := pos.avgEntryPrice.getD 0 * quantity
  let left := pos.quantity - quantity
  let cost := max (pos.costBasis - release) 0
  { pos with
    quantity := left
    realizedPnl := pos.realizedPnl + (gross - release)
    costBasis := if left = 0 then 0 else cost
    avgEntryPrice := if left = 0 then none else if 0 < left then some (cost / left) else none }

def applyTrade (snap : ProjectionSnapshot) (m : TradeMetadata) : Except TradingError ProjectionSnapshot :=
  let pos := openPosition snap m
  let gross := m.price * m.quantity
  match m.side with
  | .buy => .ok { snap with
      positions := upsert PositionView.symbol (boughtPosition pos m.quantity gross) snap.positions }
  | .sell =>
    if pos.quantity < m.quantity then .error (.oversell m.symbol pos.quantity m.quantity)
    else .ok { snap with
      positions := upsert PositionView.symbol (soldPosition pos m.quantity gross) snap.positions
      realizedPnl := snap.realizedPnl + (gross - pos.avgEntryPrice.getD 0 * m.quantity) }

def applyTransaction (snap : ProjectionSnapshot) (t : LedgerTransaction) :
    Except TradingError ProjectionSnapshot :=
  let snap := t.entries.foldl applyEntry snap
  match t.entryType with
  | .deposit => .ok { snap with totalDeposits := snap.totalDeposits + t.metadata.amountOrQuantity }
  | .withdrawal => .ok { snap with totalWithdrawals := snap.totalWithdrawals + t.metadata.amountOrQuantity }
  | .trade =>
    match t.metadata with
    | .trade m => applyTrade snap m
    | _ => .error (.keyError "symbol")
  | _ => .ok snap

/-- The transactions one after the other, up to the first that raises. -/
def applyTransactions (snap : ProjectionSnapshot) : Ledger → Except TradingError ProjectionSnapshot
  | [] => .ok snap
  | t :: ledger =>
    match applyTransaction snap t with
    | .ok snap' => applyTransactions snap' ledger
    | .error e => .error e

def replayProjections (initialBalances : Balances) (ledger : Ledger) (excludeEntryTypes : List LedgerEntryType := []) :
    Except TradingError ProjectionSnapshot :=
  applyTransactions { balances := initialBalances } (ledger.filter (fun t => t.entryType ∉ excludeEntryTypes))

/-- A row of the persisted account projection. -/
structure AccountRow where
  currency : String
  total : ℚ
  equity : ℚ
  deriving DecidableEq, Repr

/-- The ledger and the persisted projections. -/
structure Books where
  ledger : Ledger := []
  accounts : List AccountRow := []
  positions : List PositionView := []
  deriving DecidableEq, Repr

namespace Books

/-- `rebuild_projections`: the tables are replaced in one commit, after the replay. -/
def refresh (initialBalances : Balances) (books : Books) : Except TradingError Unit × Books :=
  match replayProjections initialBalances books.ledger with
  | .error e => (.error e, books)
  | .ok snap => (.ok (), { books with
      accounts := snap.balances.map (fun b => ⟨b.1, b.2, snap.equity⟩)
      positions := snap.positions })

def getPosition (symbol : String) (books : Books) : Option PositionView :=
  row PositionView.symbol symbol books.positions

def getBalance (currency : String) (books : Books) : ℚ :=
  match row AccountRow.currency currency books.accounts with
  | some r => r.total
  | none => 0

@[simp] lemma refresh_ledger (initialBalances : Balances) (books : Books) :
    (books.refresh initialBalances).2.ledger = books.ledger := by
  unfold refresh
  cases replayProjections initialBalances books.ledger <;> rfl

end Books

end CryptoTrader
