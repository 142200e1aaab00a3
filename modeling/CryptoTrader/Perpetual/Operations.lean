import CryptoTrader.Perpetual.Engine
import CryptoTrader.Ledger.Accounts
import CryptoTrader.Lib.Runs

/-!
# Sequences of perpetual operations

The calls of the paper engine as the steps of a system whose state is the ledger, the
transaction each call appends, and what the replay makes of it. A call that raises keeps
what it committed before.
-/

namespace CryptoTrader

open KeyedTable

inductive PerpetualCall where
  | openPosition (side : PositionSide) (quantity price leverage : ℚ) (orderId symbol : Option String)
  | closePosition (side : PositionSide) (quantity exitPrice : ℚ) (orderId symbol : Option String)
  | applyFunding (rate markPrice : ℚ) (symbol : Option String)
  | liquidate (markPrice : ℚ) (symbol : Option String)
  deriving DecidableEq, Repr

def PerpetualCall.symbol : PerpetualCall → Option String
  | .openPosition _ _ _ _ _ symbol => symbol
  | .closePosition _ _ _ _ symbol => symbol
  | .applyFunding _ _ symbol => symbol
  | .liquidate _ symbol => symbol

/-- The ledger after a call that mints the given transaction id. -/
def PerpetualPaperEngine.perform (engine : PerpetualPaperEngine) (ledger : Ledger) (call : PerpetualCall × String) :
    Ledger :=
  match call.1 with
  | .openPosition side quantity price leverage orderId symbol =>
    (engine.openPosition side quantity price leverage orderId symbol call.2 ledger).2
  | .closePosition side quantity exitPrice orderId symbol =>
    (engine.closePosition side quantity exitPrice orderId symbol call.2 ledger).2
  | .applyFunding rate markPrice symbol => (engine.applyFunding rate markPrice symbol call.2 ledger).2
  | .liquidate markPrice symbol => (engine.liquidate markPrice symbol call.2 ledger).2

/-! ### The transactions -/

/-- The margin an open posts. -/
def postedMargin (contract : PerpetualContract) (quantity price leverage : ℚ) : ℚ :=
  contract.notional quantity price / effectiveLeverage leverage contract.maxLeverage

def openTransaction (contract : PerpetualContract) (side : PositionSide) (quantity price leverage : ℚ)
    (orderId : Option String) (id : String) : LedgerTransaction where
  transactionId := id
  entryType := if 0 < contract.takerFee quantity price then .futuresTradingFee else .futuresMarginPost
  orderId := orderId
  metadata := .futuresOpen contract.symbol side quantity price (effectiveLeverage leverage contract.maxLeverage)
    (postedMargin contract quantity price leverage) (contract.takerFee quantity price)
  entries := openPostings contract quantity price (postedMargin contract quantity price leverage)
    (contract.takerFee quantity price)

def closeTransaction (contract : PerpetualContract) (side : PositionSide)
    (quantity entryPrice exitPrice realizedPnl fee marginRelease : ℚ) (orderId : Option String) (id : String) :
    LedgerTransaction where
  transactionId := id
  entryType := .futuresRealizedPnl
  orderId := orderId
  metadata := .futuresClose contract.symbol side quantity entryPrice exitPrice realizedPnl fee marginRelease
  entries := closePostings contract quantity entryPrice realizedPnl fee marginRelease

def fundingTransaction (contract : PerpetualContract) (side : PositionSide) (amount rate notional : ℚ) (id : String) :
    LedgerTransaction where
  transactionId := id
  entryType := if 0 < amount then .fundingReceipt else .fundingPayment
  metadata := .funding contract.symbol side rate notional
  entries := fundingPostings contract amount

lemma fundingPostings_balanced (contract : PerpetualContract) (amount : ℚ) :
    JournalBalanced (fundingPostings contract amount) := by
  unfold fundingPostings
  split <;> simp [JournalBalanced]

lemma effectiveLeverage_idem (leverage maxLeverage : ℚ) :
    effectiveLeverage (effectiveLeverage leverage maxLeverage) maxLeverage = effectiveLeverage leverage maxLeverage := by
  unfold effectiveLeverage
  have hpos := leverageOrOne_pos leverage
  generalize (if leverage ≤ 0 then 1 else leverage) = lev at hpos
  by_cases hmax : 0 < maxLeverage
  · rw [if_neg (not_le.mpr (lt_min hpos hmax)), min_eq_left (min_le_right _ _)]
  · have hle : maxLeverage ≤ 0 := not_lt.mp hmax
    rw [min_eq_right (hle.trans hpos.le), if_pos hle, min_eq_right (hle.trans zero_le_one)]

lemma initialMargin_eq (contract : PerpetualContract) (quantity price leverage : ℚ) :
    initialMargin contract quantity price (effectiveLeverage leverage contract.maxLeverage) =
      if contract.maxLeverage = 0 then .error .divisionByZero else .ok (postedMargin contract quantity price leverage) := by
  simp only [initialMargin, effectiveLeverage_idem, effectiveLeverage_eq_zero_iff, postedMargin]

section Records

variable {minted : String} {ledger : Ledger}

lemma record_minted (entryType : LedgerEntryType) {postings : List LedgerPosting} (orderId : Option String)
    (metadata : LedgerMetadata) (hbal : JournalBalanced postings) (hne : postings ≠ []) :
    record entryType postings { orderId, metadata } minted ledger =
      if minted ∈ ledger.map LedgerTransaction.transactionId then
        .error (.integrityError "ledger_transactions.transaction_id")
      else
        let t : LedgerTransaction :=
          { transactionId := minted, entryType, orderId, metadata, entries := postings }
        .ok (t, ledger ++ [t]) := by
  have hfind : findTransaction none none ledger = none := rfl
  have hid : orElseNew none minted = minted := rfl
  simp only [record, hfind, hne, hbal, not_true, if_false, hid]

lemma recordOpen_minted (contract : PerpetualContract) (side : PositionSide) (quantity price leverage : ℚ)
    (orderId : Option String) :
    recordOpen contract side quantity price (effectiveLeverage leverage contract.maxLeverage)
        (postedMargin contract quantity price leverage) (contract.takerFee quantity price) orderId minted ledger =
      if minted ∈ ledger.map LedgerTransaction.transactionId then
        .error (.integrityError "ledger_transactions.transaction_id")
      else
        let t := openTransaction contract side quantity price leverage orderId minted
        .ok (t, ledger ++ [t]) :=
  record_minted _ _ _ (openPostings_balanced _ _ _ _ _) (by simp [openPostings])

lemma recordClose_minted (contract : PerpetualContract) (side : PositionSide)
    (quantity entryPrice exitPrice realizedPnl fee marginRelease : ℚ) (orderId : Option String) :
    recordClose contract side quantity entryPrice exitPrice realizedPnl fee marginRelease orderId minted ledger =
      if minted ∈ ledger.map LedgerTransaction.transactionId then
        .error (.integrityError "ledger_transactions.transaction_id")
      else
        let t := closeTransaction contract side quantity entryPrice exitPrice realizedPnl fee marginRelease orderId minted
        .ok (t, ledger ++ [t]) :=
  record_minted _ _ _ (closePostings_balanced _ _ _ _ _ _) (by simp [closePostings])

lemma recordFunding_minted (contract : PerpetualContract) (side : PositionSide) {amount : ℚ} (rate notional : ℚ)
    (h : amount ≠ 0) :
    recordFunding contract side amount rate notional minted ledger =
      if minted ∈ ledger.map LedgerTransaction.transactionId then
        .error (.integrityError "ledger_transactions.transaction_id")
      else .ok (ledger ++ [fundingTransaction contract side amount rate notional minted]) := by
  have hne : fundingPostings contract amount ≠ [] := by
    unfold fundingPostings
    split <;> simp
  have hrec := @record_minted minted ledger
    (if 0 < amount then .fundingReceipt else .fundingPayment) _ none (.funding contract.symbol side rate notional)
    (fundingPostings_balanced contract amount) hne
  unfold recordFunding
  rw [if_neg h, hrec]
  by_cases hid : minted ∈ ledger.map LedgerTransaction.transactionId
  · rw [if_pos hid, if_pos hid]
  · rw [if_neg hid, if_neg hid]
    rfl

end Records

/-! ### What a call appends -/

/-- The transactions a call appends to the ledger it starts from. -/
inductive Recorded (engine : PerpetualPaperEngine) (ledger : Ledger) : PerpetualCall → LedgerTransaction → Prop
  | opened {side : PositionSide} (quantity price leverage : ℚ) (orderId : Option String) {symbol : Option String}
      (id : String) (hside : side ≠ .flat) (hlev : (engine.contractOf symbol).maxLeverage ≠ 0) :
      Recorded engine ledger (.openPosition side quantity price leverage orderId symbol)
        (openTransaction (engine.contractOf symbol) side |quantity| price leverage orderId id)
  | closed (quantity exitPrice : ℚ) (orderId : Option String) {symbol : Option String} {pos : MarginPosition}
      (id : String) (hpos : (rebuildFuturesProjection ledger).position (engine.contractOf symbol).symbol = some pos) :
      Recorded engine ledger (.closePosition pos.side quantity exitPrice orderId symbol)
        (closeTransaction (engine.contractOf symbol) pos.side (min |quantity| |pos.quantity|) pos.avgEntryPrice exitPrice
          (closedPnl (engine.contractOf symbol) pos (min |quantity| |pos.quantity|) exitPrice)
          ((engine.contractOf symbol).takerFee (min |quantity| |pos.quantity|) exitPrice)
          (releasedMargin pos (min |quantity| |pos.quantity|)) orderId id)
  | funded (rate markPrice : ℚ) {symbol : Option String} {pos : MarginPosition} {payment : FundingPayment} (id : String)
      (hpos : (rebuildFuturesProjection ledger).position (engine.contractOf symbol).symbol = some pos)
      (hpay : payment = fundingPayment pos rate markPrice (engine.contractOf symbol).contractSize)
      (hne : payment.amount ≠ 0) :
      Recorded engine ledger (.applyFunding rate markPrice symbol)
        (fundingTransaction (engine.contractOf symbol) pos.side payment.amount payment.rate payment.notional id)
  | liquidated (markPrice : ℚ) {symbol : Option String} {pos : MarginPosition} {result : LiquidationResult} (id : String)
      (hpos : (rebuildFuturesProjection ledger).position (engine.contractOf symbol).symbol = some pos)
      (hresult : evaluateLiquidation pos (engine.contractOf symbol) markPrice = .ok result) (hliq : result.liquidated) :
      Recorded engine ledger (.liquidate markPrice symbol)
        (closeTransaction (engine.contractOf symbol) pos.side |pos.quantity| pos.avgEntryPrice markPrice pos.unrealizedPnl
          result.fee pos.initialMargin none id)

/-- What a close posts to the accounts that count, each with its share. -/
lemma netDebit_closePostings (counts : LedgerPosting → Prop) [DecidablePred counts] (share : LedgerAccount → ℚ)
    (contract : PerpetualContract)
    (hshare : ∀ p : LedgerPosting, p.currency = contract.marginAsset →
      (if counts p then p.signed else 0) = share p.account * p.signed)
    (quantity entryPrice realizedPnl fee marginRelease : ℚ) :
    netDebit counts (closePostings contract quantity entryPrice realizedPnl fee marginRelease) =
      (share (.futuresPositionLiability contract.symbol) - share (.futuresPositionAsset contract.symbol)) *
          contract.notional quantity entryPrice +
        (share .cash - share .futuresRealizedPnl) * realizedPnl + (share .futuresTradingFee - share .cash) * max fee 0 +
        (share .cash - share (.marginOf contract.symbol)) * max marginRelease 0 := by
  have hpair (a b : LedgerAccount) (x : ℚ) : netDebit counts [⟨a, .debit, x, contract.marginAsset⟩,
      ⟨b, .credit, x, contract.marginAsset⟩] = (share a - share b) * x := by
    rw [netDebit_cons, netDebit_cons, netDebit_nil, hshare _ rfl, hshare _ rfl]
    simp only [LedgerPosting.signed]
    ring
  have hpositive (a b : LedgerAccount) (x : ℚ) : netDebit counts (if 0 < x then
      [⟨a, .debit, x, contract.marginAsset⟩, ⟨b, .credit, x, contract.marginAsset⟩] else []) =
        (share a - share b) * max x 0 := by
    by_cases hpos : 0 < x
    · rw [if_pos hpos, hpair, max_eq_left hpos.le]
    · rw [if_neg hpos, netDebit_nil, max_eq_right (not_lt.mp hpos), mul_zero]
  have hpnl : netDebit counts (pnlPostings contract realizedPnl) =
      (share .cash - share .futuresRealizedPnl) * realizedPnl := by
    unfold pnlPostings
    by_cases hpos : 0 < realizedPnl
    · rw [if_pos hpos, hpair]
    · rw [if_neg hpos]
      by_cases hneg : realizedPnl < 0
      · rw [if_pos hneg, hpair]
        ring
      · have hzero : realizedPnl = 0 := le_antisymm (not_lt.mp hpos) (not_lt.mp hneg)
        rw [if_neg hneg, netDebit_nil, hzero, mul_zero]
  rw [closePostings, netDebit_append, netDebit_append, netDebit_append, hpair, hpnl, hpositive, hpositive]

section Perform

variable (engine : PerpetualPaperEngine) (ledger : Ledger)

/-- An open reaches the ledger. -/
def PerpetualPaperEngine.OpenRecords (side : PositionSide) (symbol : Option String) (minted : String) : Prop :=
  side ≠ .flat ∧ (engine.contractOf symbol).maxLeverage ≠ 0 ∧ minted ∉ ledger.map LedgerTransaction.transactionId

instance (side : PositionSide) (symbol : Option String) (minted : String) :
    Decidable (engine.OpenRecords ledger side symbol minted) :=
  inferInstanceAs (Decidable (_ ∧ _ ∧ _))

lemma PerpetualPaperEngine.openPosition_ledger (side : PositionSide) (quantity price leverage : ℚ)
    (orderId symbol : Option String) (minted : String) :
    (engine.openPosition side quantity price leverage orderId symbol minted ledger).2 =
      if engine.OpenRecords ledger side symbol minted then
        ledger ++ [openTransaction (engine.contractOf symbol) side |quantity| price leverage orderId minted]
      else ledger := by
  unfold PerpetualPaperEngine.openPosition PerpetualPaperEngine.OpenRecords
  by_cases hside : side = .flat
  · simp [hside]
  · simp only [hside, if_false, initialMargin_eq, ne_eq, not_false_eq_true, true_and]
    by_cases hlev : (engine.contractOf symbol).maxLeverage = 0
    · simp [hlev]
    · simp only [hlev, if_false, not_false_eq_true, true_and, recordOpen_minted]
      by_cases hid : minted ∈ ledger.map LedgerTransaction.transactionId
      · simp only [hid, if_true, not_true_eq_false, if_false]
      · simp only [hid, if_false, not_false_eq_true, if_true]
        cases (rebuildFuturesProjection (ledger ++ [openTransaction (engine.contractOf symbol) side |quantity| price
          leverage orderId minted])).position (engine.contractOf symbol).symbol <;> rfl

/-- An open returns a position if it reaches the ledger and the replay sees it there. -/
lemma PerpetualPaperEngine.openPosition_isOk (side : PositionSide) (quantity price leverage : ℚ)
    (orderId symbol : Option String) (minted : String) :
    (engine.openPosition side quantity price leverage orderId symbol minted ledger).1.isOk ↔
      engine.OpenRecords ledger side symbol minted ∧ (engine.contractOf symbol).symbol ≠ "" := by
  have hok (x : Except TradingError MarginPosition) : x.isOk ↔ ∃ pos, x = .ok pos := by
    cases x <;> simp [Except.isOk, Except.toBool]
  by_cases h : engine.OpenRecords ledger side symbol minted
  · obtain ⟨-, -, -, hiff⟩ := engine.openPosition_writes orderId symbol h.1 quantity price leverage h.2.2 h.2.1
    rw [hok, hiff]
    exact (and_iff_right h).symm
  · refine iff_of_false ?_ (fun hc => h hc.1)
    unfold PerpetualPaperEngine.OpenRecords at h
    by_cases hside : side = .flat
    · simp [PerpetualPaperEngine.openPosition, hside, Except.isOk, Except.toBool]
    · by_cases hlev : (engine.contractOf symbol).maxLeverage = 0
      · rw [engine.openPosition_unleveraged orderId symbol hside quantity price leverage hlev]
        exact Bool.false_ne_true
      · have hid : minted ∈ ledger.map LedgerTransaction.transactionId := by
          by_contra hid
          exact h ⟨hside, hlev, hid⟩
        unfold PerpetualPaperEngine.openPosition
        simp only [hside, if_false, initialMargin_eq, hlev, recordOpen_minted, hid, if_true, Except.isOk, Except.toBool,
          Bool.false_eq_true, not_false_eq_true]

lemma PerpetualPaperEngine.closePosition_of_holds {symbol : Option String} {pos : MarginPosition}
    (hpos : (rebuildFuturesProjection ledger).position (engine.contractOf symbol).symbol = some pos)
    (quantity exitPrice : ℚ) (orderId : Option String) (minted : String) :
    engine.closePosition pos.side quantity exitPrice orderId symbol minted ledger =
      if minted ∈ ledger.map LedgerTransaction.transactionId then
        (.error (.integrityError "ledger_transactions.transaction_id"), ledger)
      else
        let contract := engine.contractOf symbol
        let qty := min |quantity| |pos.quantity|
        let ledger' := ledger ++ [closeTransaction contract pos.side qty pos.avgEntryPrice exitPrice
          (closedPnl contract pos qty exitPrice) (contract.takerFee qty exitPrice) (releasedMargin pos qty) orderId minted]
        (.ok ((rebuildFuturesProjection ledger').position contract.symbol), ledger') := by
  simp only [PerpetualPaperEngine.closePosition, hpos, ne_eq, not_true_eq_false, if_false, recordClose_minted]
  by_cases hid : minted ∈ ledger.map LedgerTransaction.transactionId
  · rw [if_pos hid, if_pos hid]
  · rw [if_neg hid, if_neg hid]

lemma PerpetualPaperEngine.closePosition_cases (side : PositionSide) (quantity exitPrice : ℚ)
    (orderId symbol : Option String) (minted : String) :
    (engine.closePosition side quantity exitPrice orderId symbol minted ledger).2 = ledger ∨
      ∃ t, Recorded engine ledger (.closePosition side quantity exitPrice orderId symbol) t ∧
        (engine.closePosition side quantity exitPrice orderId symbol minted ledger).2 = ledger ++ [t] := by
  by_cases hholds : HoldsSide engine side symbol ledger
  · obtain ⟨pos, hpos, rfl⟩ := hholds
    rw [engine.closePosition_of_holds ledger hpos]
    by_cases hid : minted ∈ ledger.map LedgerTransaction.transactionId
    · exact .inl (by rw [if_pos hid])
    · rw [if_neg hid]
      exact .inr ⟨_, .closed quantity exitPrice orderId minted hpos, rfl⟩
  · rw [engine.closePosition_skips orderId symbol quantity exitPrice hholds]
    exact .inl rfl

lemma PerpetualPaperEngine.applyFunding_cases (rate markPrice : ℚ) (symbol : Option String) (minted : String) :
    (engine.applyFunding rate markPrice symbol minted ledger).2 = ledger ∨
      ∃ t, Recorded engine ledger (.applyFunding rate markPrice symbol) t ∧
        (engine.applyFunding rate markPrice symbol minted ledger).2 = ledger ++ [t] := by
  simp only [PerpetualPaperEngine.applyFunding]
  cases hpos : (rebuildFuturesProjection ledger).position (engine.contractOf symbol).symbol with
  | none => exact .inl rfl
  | some pos =>
    dsimp only
    by_cases hflat : pos.isFlat
    · exact .inl (by rw [if_pos hflat])
    · rw [if_neg hflat]
      by_cases hne : (fundingPayment pos rate markPrice (engine.contractOf symbol).contractSize).amount = 0
      · exact .inl (by rw [if_pos hne])
      · rw [if_neg hne, recordFunding_minted _ _ _ _ hne]
        by_cases hid : minted ∈ ledger.map LedgerTransaction.transactionId
        · exact .inl (by rw [if_pos hid])
        · rw [if_neg hid]
          exact .inr ⟨_, .funded rate markPrice minted hpos rfl hne, rfl⟩

lemma PerpetualPaperEngine.liquidate_cases (markPrice : ℚ) (symbol : Option String) (minted : String) :
    (engine.liquidate markPrice symbol minted ledger).2 = ledger ∨
      ∃ t, Recorded engine ledger (.liquidate markPrice symbol) t ∧
        (engine.liquidate markPrice symbol minted ledger).2 = ledger ++ [t] := by
  simp only [PerpetualPaperEngine.liquidate]
  cases hpos : (rebuildFuturesProjection ledger).position (engine.contractOf symbol).symbol with
  | none => exact .inl rfl
  | some pos =>
    dsimp only
    cases hresult : evaluateLiquidation pos (engine.contractOf symbol) markPrice with
    | error e => exact .inl rfl
    | ok result =>
      dsimp only
      cases hliq : result.liquidated with
      | false => exact .inl rfl
      | true =>
        rw [recordClose_minted]
        by_cases hid : minted ∈ ledger.map LedgerTransaction.transactionId
        · exact .inl (by rw [if_pos hid]; rfl)
        · rw [if_neg hid]
          exact .inr ⟨_, .liquidated markPrice minted hpos hresult hliq, rfl⟩

/-- A call leaves the ledger as it is or appends one of its transactions. -/
theorem PerpetualPaperEngine.perform_cases (call : PerpetualCall × String) :
    engine.perform ledger call = ledger ∨
      ∃ t, Recorded engine ledger call.1 t ∧ engine.perform ledger call = ledger ++ [t] := by
  obtain ⟨call, minted⟩ := call
  cases call with
  | openPosition side quantity price leverage orderId symbol =>
    simp only [PerpetualPaperEngine.perform, openPosition_ledger]
    by_cases h : engine.OpenRecords ledger side symbol minted
    · rw [if_pos h]
      exact .inr ⟨_, .opened quantity price leverage orderId minted h.1 h.2.1, rfl⟩
    · exact .inl (by rw [if_neg h])
  | closePosition side quantity exitPrice orderId symbol => exact engine.closePosition_cases ledger _ _ _ _ _ _
  | applyFunding rate markPrice symbol => exact engine.applyFunding_cases ledger _ _ _ _
  | liquidate markPrice symbol => exact engine.liquidate_cases ledger _ _ _

end Perform

/-! ### What the replay makes of a transaction -/

namespace FuturesSnapshot

variable (snap : FuturesSnapshot)

lemma applyTxn_nameless {t : LedgerTransaction} (h : t.metadata.symbol = some "") : snap.applyTxn t = snap := by
  unfold FuturesSnapshot.applyTxn
  rw [h]
  rfl

lemma applyTxn_open {contract : PerpetualContract} (side : PositionSide) (quantity price leverage : ℚ)
    (orderId : Option String) (id : String) (hs : contract.symbol ≠ "") :
    snap.applyTxn (openTransaction contract side quantity price leverage orderId id) =
      { snap.applyOpen contract.symbol side quantity price (effectiveLeverage leverage contract.maxLeverage)
          (postedMargin contract quantity price leverage) with
        feesPaid := snap.feesPaid + contract.takerFee quantity price } := by
  have htruthy : truthy (openTransaction contract side quantity price leverage orderId id).metadata.symbol = true := by
    simp [openTransaction, LedgerMetadata.symbol, truthy, hs]
  have hfees : (openTransaction contract side quantity price leverage orderId id).entries.foldl applyFee snap =
      { snap with feesPaid := snap.feesPaid + contract.takerFee quantity price } := by
    simp [openTransaction, openPostings, applyFee]
  unfold FuturesSnapshot.applyTxn
  rw [if_pos htruthy, hfees]
  rfl

lemma fees_close (contract : PerpetualContract) (quantity entryPrice realizedPnl fee marginRelease : ℚ) :
    (closePostings contract quantity entryPrice realizedPnl fee marginRelease).foldl applyFee snap =
      { snap with feesPaid := snap.feesPaid + max fee 0 } := by
  have hpnl : (pnlPostings contract realizedPnl).foldl applyFee snap = snap := by
    unfold pnlPostings
    split
    · simp [applyFee]
    · split <;> simp [applyFee]
  have hrelease (s : FuturesSnapshot) : (if 0 < marginRelease then
      [⟨.cash, .debit, marginRelease, contract.marginAsset⟩,
        ⟨.marginOf contract.symbol, .credit, marginRelease, contract.marginAsset⟩]
      else []).foldl applyFee s = s := by
    split <;> simp [applyFee]
  have hnotional : [(⟨.futuresPositionLiability contract.symbol, .debit, contract.notional quantity entryPrice,
        contract.marginAsset⟩ : LedgerPosting),
      ⟨.futuresPositionAsset contract.symbol, .credit, contract.notional quantity entryPrice,
        contract.marginAsset⟩].foldl applyFee snap = snap := by
    simp [applyFee]
  simp only [closePostings, List.foldl_append, hnotional, hpnl, hrelease]
  by_cases hfee : 0 < fee
  · simp [hfee, hfee.le, applyFee]
  · simp [hfee, max_eq_right (not_lt.mp hfee)]

lemma applyTxn_close {contract : PerpetualContract} (side : PositionSide)
    (quantity entryPrice exitPrice realizedPnl fee marginRelease : ℚ) (orderId : Option String) (id : String)
    (hs : contract.symbol ≠ "") :
    snap.applyTxn (closeTransaction contract side quantity entryPrice exitPrice realizedPnl fee marginRelease orderId id) =
      { snap.applyClose contract.symbol quantity realizedPnl marginRelease with
        feesPaid := snap.feesPaid + max fee 0 } := by
  have htruthy : truthy (closeTransaction contract side quantity entryPrice exitPrice realizedPnl fee marginRelease
      orderId id).metadata.symbol = true := by
    simp [closeTransaction, LedgerMetadata.symbol, truthy, hs]
  unfold FuturesSnapshot.applyTxn
  rw [if_pos htruthy]
  simp only [closeTransaction, fees_close]
  unfold FuturesSnapshot.applyClose FuturesSnapshot.position
  cases row MarginPosition.symbol contract.symbol snap.positions <;> rfl

lemma applyTxn_funding {contract : PerpetualContract} (side : PositionSide) (amount rate notional : ℚ) (id : String)
    (hs : contract.symbol ≠ "") :
    snap.applyTxn (fundingTransaction contract side amount rate notional id) =
      { snap with
        fundingPaid := snap.fundingPaid + max (-amount) 0
        fundingReceived := snap.fundingReceived + max amount 0 } := by
  have htruthy : truthy (fundingTransaction contract side amount rate notional id).metadata.symbol = true := by
    simp [fundingTransaction, LedgerMetadata.symbol, truthy, hs]
  unfold FuturesSnapshot.applyTxn
  rw [if_pos htruthy]
  by_cases hpos : 0 < amount
  · simp [fundingTransaction, fundingPostings, hpos, hpos.le, applyFee, applyFundingEntry]
  · have hle : amount ≤ 0 := not_lt.mp hpos
    simp [fundingTransaction, fundingPostings, hpos, hle, applyFee, applyFundingEntry]

lemma position_applyOpen_of_ne {symbol other : String} (side : PositionSide) (qty entry lev margin : ℚ)
    (h : other ≠ symbol) : (snap.applyOpen symbol side qty entry lev margin).position other = snap.position other := by
  have hsym := snap.openedPosition_symbol symbol side qty entry lev margin
  exact row_upsert_of_ne _ (by rwa [hsym])

/-- The position that a close leaves, if it leaves one. -/
def reducedPosition (pos : MarginPosition) (qty marginRelease : ℚ) : MarginPosition :=
  { pos with
    quantity := signedQty pos.side (|pos.quantity| - qty)
    initialMargin := max (pos.initialMargin - marginRelease) 0 }

variable {snap} in
lemma applyClose_of_some {symbol : String} {pos : MarginPosition} (hp : snap.position symbol = some pos)
    (qty realizedPnl marginRelease : ℚ) :
    snap.applyClose symbol qty realizedPnl marginRelease =
      { snap with
        realizedPnl := snap.realizedPnl + realizedPnl
        marginBalance := max (snap.marginBalance - marginRelease) 0
        positions :=
          if |pos.quantity| - qty ≤ 0 then snap.positions.filter (fun p => p.symbol ≠ symbol)
          else put MarginPosition.symbol (reducedPosition pos qty marginRelease) snap.positions } := by
  unfold FuturesSnapshot.applyClose
  rw [hp]
  rfl

variable {snap} in
lemma position_applyClose {symbol : String} {pos : MarginPosition} (hp : snap.position symbol = some pos)
    (qty realizedPnl marginRelease : ℚ) :
    (snap.applyClose symbol qty realizedPnl marginRelease).position symbol =
      if |pos.quantity| - qty ≤ 0 then none else some (reducedPosition pos qty marginRelease) := by
  obtain ⟨hmem, hsym⟩ := row_some hp
  rw [applyClose_of_some hp]
  unfold FuturesSnapshot.position
  dsimp only
  split
  · exact row_filter_self symbol _
  · have hkey : (reducedPosition pos qty marginRelease).symbol = symbol := hsym
    rw [← hkey]
    exact row_put_self (by rw [hkey, ← hsym]; exact List.mem_map_of_mem hmem)

lemma position_applyClose_of_ne {symbol other : String} (qty realizedPnl marginRelease : ℚ) (h : other ≠ symbol) :
    (snap.applyClose symbol qty realizedPnl marginRelease).position other = snap.position other := by
  cases hp : snap.position symbol with
  | none =>
    unfold FuturesSnapshot.applyClose
    rw [hp]
  | some pos =>
    have hsym : (reducedPosition pos qty marginRelease).symbol = symbol := (row_some hp).2
    rw [applyClose_of_some hp]
    unfold FuturesSnapshot.position
    dsimp only
    split
    · exact row_filter_of_ne _ h
    · exact row_put_of_ne _ (by rwa [hsym])

end FuturesSnapshot

/-! ### Signs of positions -/

/-- The quantity has the sign of the side. -/
def MarginPosition.Signed (pos : MarginPosition) : Prop :=
  match pos.side with
  | .long => 0 ≤ pos.quantity
  | .short => pos.quantity ≤ 0
  | .flat => pos.quantity = 0

namespace MarginPosition

lemma Signed.quantity_eq {pos : MarginPosition} (h : pos.Signed) : pos.quantity = signedQty pos.side |pos.quantity| := by
  unfold Signed at h
  unfold signedQty
  cases hs : pos.side with
  | long =>
    rw [hs] at h
    rw [if_pos rfl, abs_of_nonneg h]
  | short =>
    rw [hs] at h
    rw [if_neg (by decide), abs_of_nonpos h, neg_neg]
  | flat =>
    rw [hs] at h
    rw [h, abs_zero, neg_zero, if_neg (by decide)]

lemma signed_of_signedQty {pos : MarginPosition} {side : PositionSide} {x : ℚ} (hside : side ≠ .flat)
    (hs : pos.side = side) (hq : pos.quantity = signedQty side x) (hx : 0 ≤ x) : pos.Signed := by
  unfold Signed
  rw [hs, hq]
  cases side with
  | long => exact hx
  | short => exact neg_nonpos.mpr hx
  | flat => exact absurd rfl hside

lemma isFlat_iff {pos : MarginPosition} : pos.isFlat ↔ pos.side = .flat ∨ pos.quantity = 0 := by
  simp [isFlat]

lemma side_ne_flat {pos : MarginPosition} (h : ¬ pos.isFlat) : pos.side ≠ .flat ∧ pos.quantity ≠ 0 := by
  simpa [isFlat] using h

end MarginPosition

namespace FuturesSnapshot

lemma openedPosition_signed {old : Option MarginPosition} (symbol : String) {side : PositionSide} {qty : ℚ}
    (entry lev margin : ℚ) (hside : side ≠ .flat) (hqty : 0 ≤ qty) :
    (openedPosition old symbol side qty entry lev margin).Signed := by
  cases old with
  | none => exact MarginPosition.signed_of_signedQty hside rfl rfl hqty
  | some pos =>
    by_cases hflat : pos.isFlat
    · simp only [openedPosition, hflat, if_true]
      exact MarginPosition.signed_of_signedQty hside rfl rfl hqty
    · by_cases hsame : pos.side = side
      · simp only [openedPosition, hflat, hsame, if_true]
        exact MarginPosition.signed_of_signedQty hside hsame rfl (by positivity)
      · simp only [openedPosition, hflat, hsame, if_false, netPosition]
        by_cases hle : |pos.quantity| ≤ qty
        · rw [if_pos hle]
          by_cases h0 : qty - |pos.quantity| = 0
          · rw [if_pos h0]
            rfl
          · rw [if_neg h0]
            exact MarginPosition.signed_of_signedQty hside rfl rfl (sub_nonneg.mpr hle)
        · rw [if_neg hle]
          exact MarginPosition.signed_of_signedQty (MarginPosition.side_ne_flat hflat).1 rfl rfl
            (sub_nonneg.mpr (not_le.mp hle).le)

end FuturesSnapshot

end CryptoTrader
