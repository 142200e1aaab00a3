import CryptoTrader.Domain.Models
import CryptoTrader.Lib.KeyedTable
import Mathlib.Tactic.Linarith

/-!
# The ledger service

`ledger/service.py`: balanced postings, the journal of a spot trade, and the idempotent
write `record`. The ledger is the list of its transactions, in the order of their
creation; the entries of a transaction are its postings, in the order of their `seq`.
-/

namespace CryptoTrader

/-- The names of the accounts the program posts to. -/
inductive LedgerAccount where
  | cash
  | margin
  | marginOf (symbol : String)
  | positionAsset (symbol : String)
  | feeExpense
  | realizedPnl
  | equity
  | futuresPositionAsset (symbol : String)
  | futuresPositionLiability (symbol : String)
  | futuresTradingFee
  | futuresRealizedPnl
  | fundingReceipt
  | fundingPayment
  | liquidationFee
  | other (name : String)
  deriving DecidableEq, Repr

structure LedgerPosting where
  account : LedgerAccount
  direction : LedgerDirection
  amount : ℚ
  currency : String := "USDT"
  deriving DecidableEq, Repr

/-- The sum of the amounts posted in one direction. -/
def sideTotal (direction : LedgerDirection) (postings : List LedgerPosting) : ℚ :=
  ((postings.filter (fun p => p.direction = direction)).map LedgerPosting.amount).sum

def JournalBalanced (postings : List LedgerPosting) : Prop :=
  sideTotal .debit postings = sideTotal .credit postings

instance (postings : List LedgerPosting) : Decidable (JournalBalanced postings) :=
  inferInstanceAs (Decidable (_ = _))

/-- The metadata of a spot trade. -/
structure TradeMetadata where
  symbol : String
  quoteCurrency : String
  side : OrderSide
  quantity : ℚ
  price : ℚ
  fee : ℚ
  grossCost : Option ℚ := none
  grossProceeds : Option ℚ := none
  costReleased : Option ℚ := none
  realizedPnl : Option ℚ := none
  baseAsset : Option String := none
  deriving DecidableEq, Repr

/-- `metadata_json` of a transaction, one constructor for each caller of `record`. -/
inductive LedgerMetadata where
  | empty
  | amount (amount : ℚ) (currency : String)
  | trade (m : TradeMetadata)
  | marginChange (symbol : String) (amount : ℚ)
  | futuresOpen (symbol : String) (side : PositionSide) (quantity entryPrice leverage initialMargin fee : ℚ)
  | futuresClose (symbol : String) (side : PositionSide)
      (quantity entryPrice exitPrice realizedPnl fee marginRelease : ℚ)
  | funding (symbol : String) (side : PositionSide) (rate notional : ℚ)
  deriving DecidableEq, Repr

structure LedgerTransaction where
  transactionId : String
  entryType : LedgerEntryType
  orderId : Option String := none
  fillId : Option String := none
  eventId : Option String := none
  metadata : LedgerMetadata := .empty
  entries : List LedgerPosting
  deriving DecidableEq, Repr

abbrev Ledger := List LedgerTransaction

/-- The postings of a buy. -/
def buyPostings (symbol quoteCurrency : String) (gross fee : ℚ) : List LedgerPosting :=
  [⟨.positionAsset symbol, .debit, gross, quoteCurrency⟩, ⟨.feeExpense, .debit, fee, quoteCurrency⟩,
    ⟨.cash, .credit, gross + fee, quoteCurrency⟩]

/-- The posting of a sale's realized profit or loss. -/
def realizedPostings (quoteCurrency : String) (realized : ℚ) : List LedgerPosting :=
  if 0 < realized then [⟨.realizedPnl, .credit, realized, quoteCurrency⟩]
  else if realized < 0 then [⟨.realizedPnl, .debit, -realized, quoteCurrency⟩]
  else []

def sellPostings (symbol quoteCurrency : String) (gross fee costReleased : ℚ) : List LedgerPosting :=
  [⟨.cash, .debit, gross, quoteCurrency⟩, ⟨.positionAsset symbol, .credit, costReleased, quoteCurrency⟩] ++
    realizedPostings quoteCurrency (gross - costReleased) ++
    [⟨.feeExpense, .debit, fee, quoteCurrency⟩, ⟨.cash, .credit, fee, quoteCurrency⟩]

def buildTradeEntries (side : OrderSide) (symbol quoteCurrency : String) (price quantity fee : ℚ)
    (costReleased : Option ℚ) : Except TradingError (List LedgerPosting × TradeMetadata) :=
  let gross := price * quantity
  let metadata : TradeMetadata := { symbol, quoteCurrency, side, quantity, price, fee }
  let (postings, metadata) := match side with
    | .buy => (buyPostings symbol quoteCurrency gross fee, { metadata with grossCost := some gross })
    | .sell =>
      let costReleased := costReleased.getD 0
      (sellPostings symbol quoteCurrency gross fee costReleased,
        { metadata with
          grossProceeds := some gross
          costReleased := some costReleased
          realizedPnl := some (gross - costReleased) })
  if JournalBalanced postings then .ok (postings, metadata)
  else .error (.journalUnbalanced "generated trade journal is not balanced")

/-- The keyword arguments of `record`. -/
structure RecordArgs where
  transactionId : Option String := none
  orderId : Option String := none
  fillId : Option String := none
  eventId : Option String := none
  metadata : LedgerMetadata := .empty
  deriving DecidableEq, Repr

/-- `_find_transaction`: the first transaction that has both ids, an id that is not given
being left out of the query. -/
def findTransaction (fillId eventId : Option String) (ledger : Ledger) : Option LedgerTransaction :=
  if truthy fillId || truthy eventId then
    ledger.find? (fun t => (!truthy fillId || t.fillId = fillId) && (!truthy eventId || t.eventId = eventId))
  else none

/-- `LedgerService.record`: an existing transaction is handed back, a journal without
postings or with unequal sides is refused, a taken transaction id violates its constraint. -/
def record (entryType : LedgerEntryType) (postings : List LedgerPosting) (args : RecordArgs) (minted : String)
    (ledger : Ledger) : Except TradingError (LedgerTransaction × Ledger) :=
  match findTransaction args.fillId args.eventId ledger with
  | some existing => .ok (existing, ledger)
  | none =>
    if postings = [] then .error (.journalUnbalanced "ledger transaction requires at least one posting")
    else if ¬ JournalBalanced postings then
      .error (.journalSides (sideTotal .debit postings) (sideTotal .credit postings))
    else
      let txn : LedgerTransaction := {
        transactionId := orElseNew args.transactionId minted
        entryType := entryType
        orderId := args.orderId
        fillId := args.fillId
        eventId := args.eventId
        metadata := args.metadata
        entries := postings }
      if txn.transactionId ∈ ledger.map LedgerTransaction.transactionId then
        .error (.integrityError "ledger_transactions.transaction_id")
      else .ok (txn, ledger ++ [txn])

/-! ### Sides of a journal -/

@[simp] lemma sideTotal_nil (d : LedgerDirection) : sideTotal d [] = 0 := rfl

@[simp] lemma sideTotal_cons (d : LedgerDirection) (p : LedgerPosting) (ps : List LedgerPosting) :
    sideTotal d (p :: ps) = (if p.direction = d then p.amount else 0) + sideTotal d ps := by
  by_cases h : p.direction = d <;> simp [sideTotal, h]

@[simp] lemma sideTotal_append (d : LedgerDirection) (ps qs : List LedgerPosting) :
    sideTotal d (ps ++ qs) = sideTotal d ps + sideTotal d qs := by
  simp [sideTotal]

lemma buyPostings_balanced (symbol quoteCurrency : String) (gross fee : ℚ) :
    JournalBalanced (buyPostings symbol quoteCurrency gross fee) := by
  simp [JournalBalanced, buyPostings]

/-- The profit or loss posting closes the gap between proceeds and released cost. -/
lemma realizedPostings_sides (quoteCurrency : String) (realized : ℚ) :
    sideTotal .credit (realizedPostings quoteCurrency realized) -
      sideTotal .debit (realizedPostings quoteCurrency realized) = realized := by
  unfold realizedPostings
  by_cases hpos : 0 < realized
  · simp [hpos]
  · by_cases hneg : realized < 0
    · simp [hpos, hneg]
    · have h0 : realized = 0 := le_antisymm (not_lt.mp hpos) (not_lt.mp hneg)
      simp [h0]

lemma sellPostings_balanced (symbol quoteCurrency : String) (gross fee costReleased : ℚ) :
    JournalBalanced (sellPostings symbol quoteCurrency gross fee costReleased) := by
  have h := realizedPostings_sides quoteCurrency (gross - costReleased)
  simp only [JournalBalanced, sellPostings, sideTotal_append, sideTotal_cons, sideTotal_nil, reduceCtorEq,
    if_true, if_false]
  linarith

lemma buildTradeEntries_buy (symbol quoteCurrency : String) (price quantity fee : ℚ) (costReleased : Option ℚ) :
    buildTradeEntries .buy symbol quoteCurrency price quantity fee costReleased =
      .ok (buyPostings symbol quoteCurrency (price * quantity) fee,
        { symbol, quoteCurrency, side := .buy, quantity, price, fee, grossCost := some (price * quantity) }) :=
  if_pos (buyPostings_balanced symbol quoteCurrency (price * quantity) fee)

lemma buildTradeEntries_sell (symbol quoteCurrency : String) (price quantity fee : ℚ) (costReleased : Option ℚ) :
    buildTradeEntries .sell symbol quoteCurrency price quantity fee costReleased =
      .ok (sellPostings symbol quoteCurrency (price * quantity) fee (costReleased.getD 0),
        { symbol, quoteCurrency, side := .sell, quantity, price, fee, grossProceeds := some (price * quantity),
          costReleased := some (costReleased.getD 0),
          realizedPnl := some (price * quantity - costReleased.getD 0) }) :=
  if_pos (sellPostings_balanced symbol quoteCurrency (price * quantity) fee (costReleased.getD 0))

/-- A trade journal is generated from its arguments, balanced and with postings. -/
lemma buildTradeEntries_spec (side : OrderSide) (symbol quoteCurrency : String) (price quantity fee : ℚ)
    (costReleased : Option ℚ) : ∃ postings metadata,
      buildTradeEntries side symbol quoteCurrency price quantity fee costReleased = .ok (postings, metadata) ∧
        JournalBalanced postings ∧ postings ≠ [] ∧
        (metadata.symbol = symbol ∧ metadata.side = side ∧ metadata.quantity = quantity ∧ metadata.price = price) ∧
        postings = match side with
          | .buy => buyPostings symbol quoteCurrency (price * quantity) fee
          | .sell => sellPostings symbol quoteCurrency (price * quantity) fee (costReleased.getD 0) := by
  cases side with
  | buy =>
    exact ⟨_, _, buildTradeEntries_buy _ _ _ _ _ _, buyPostings_balanced _ _ _ _, by simp [buyPostings],
      ⟨rfl, rfl, rfl, rfl⟩, rfl⟩
  | sell =>
    exact ⟨_, _, buildTradeEntries_sell _ _ _ _ _ _, sellPostings_balanced _ _ _ _ _, by simp [sellPostings],
      ⟨rfl, rfl, rfl, rfl⟩, rfl⟩

/-! ### What `record` can do -/

lemma findTransaction_some {fillId eventId : Option String} {ledger : Ledger} {t : LedgerTransaction}
    (h : findTransaction fillId eventId ledger = some t) :
    t ∈ ledger ∧ (truthy fillId → t.fillId = fillId) ∧ (truthy eventId → t.eventId = eventId) := by
  unfold findTransaction at h
  split at h
  · have hp := List.find?_some h
    simp only [Bool.and_eq_true, Bool.or_eq_true, Bool.not_eq_true', decide_eq_true_eq] at hp
    refine ⟨List.mem_of_find?_eq_some h, fun hf => ?_, fun he => ?_⟩
    · exact hp.1.resolve_left (by simp [hf])
    · exact hp.2.resolve_left (by simp [he])
  · simp at h

lemma findTransaction_of_fresh_event (fillId : Option String) {eventId : Option String} {ledger : Ledger}
    (ht : truthy eventId) (h : ∀ t ∈ ledger, t.eventId ≠ eventId) :
    findTransaction fillId eventId ledger = none := by
  cases hf : findTransaction fillId eventId ledger with
  | none => rfl
  | some t =>
    obtain ⟨hm, -, he⟩ := findTransaction_some hf
    exact absurd (he ht) (h t hm)

/-- A call of `record` hands back a transaction or appends one with its arguments. -/
lemma record_cases {entryType : LedgerEntryType} {postings : List LedgerPosting} {args : RecordArgs}
    {minted : String} {ledger ledger' : Ledger} {t : LedgerTransaction}
    (h : record entryType postings args minted ledger = .ok (t, ledger')) :
    (ledger' = ledger ∧ findTransaction args.fillId args.eventId ledger = some t) ∨
      (ledger' = ledger ++ [t] ∧ findTransaction args.fillId args.eventId ledger = none ∧
        JournalBalanced postings ∧ t = {
          transactionId := orElseNew args.transactionId minted
          entryType := entryType
          orderId := args.orderId
          fillId := args.fillId
          eventId := args.eventId
          metadata := args.metadata
          entries := postings }) := by
  unfold record at h
  cases hf : findTransaction args.fillId args.eventId ledger with
  | some existing =>
    simp only [hf, Except.ok.injEq, Prod.mk.injEq] at h
    exact .inl ⟨h.2.symm, by rw [h.1]⟩
  | none =>
    simp only [hf] at h
    by_cases hnil : postings = []
    · simp [hnil] at h
    · by_cases hbal : JournalBalanced postings
      · simp only [hnil, hbal, not_true, if_false] at h
        split at h
        · simp at h
        · simp only [Except.ok.injEq, Prod.mk.injEq] at h
          obtain ⟨rfl, rfl⟩ := h
          exact .inr ⟨rfl, rfl, hbal, rfl⟩
      · simp [hnil, hbal] at h

lemma record_of_fresh (entryType : LedgerEntryType) (args : RecordArgs) {postings : List LedgerPosting}
    {minted : String} {ledger : Ledger} (hbal : JournalBalanced postings) (hne : postings ≠ [])
    (hfind : findTransaction args.fillId args.eventId ledger = none)
    (hid : orElseNew args.transactionId minted ∉ ledger.map LedgerTransaction.transactionId) :
    ∃ t, record entryType postings args minted ledger = .ok (t, ledger ++ [t]) ∧ t = {
      transactionId := orElseNew args.transactionId minted
      entryType := entryType
      orderId := args.orderId
      fillId := args.fillId
      eventId := args.eventId
      metadata := args.metadata
      entries := postings } := by
  refine ⟨_, ?_, rfl⟩
  simp only [record, hfind, hne, hbal, not_true, if_false, hid]

end CryptoTrader
