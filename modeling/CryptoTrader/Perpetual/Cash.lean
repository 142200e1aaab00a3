import CryptoTrader.Perpetual.Operations
import Mathlib.Tactic.Ring

/-!
# Cash of the two replays

The account replay reads the postings of a perpetual transaction, the futures replay its
metadata and fee entries. Each transaction of the paper engine moves the balance of the
margin asset by what it adds to profit less fees plus funding.
-/

namespace CryptoTrader

open KeyedTable Runs FuturesSnapshot

/-- Realized profit less fees, plus funding received less funding paid. -/
def FuturesSnapshot.netResult (snap : FuturesSnapshot) : ℚ :=
  snap.realizedPnl - snap.feesPaid + snap.fundingReceived - snap.fundingPaid

/-! ### The cash of each transaction -/

lemma cashFlow_openTransaction (contract : PerpetualContract) (side : PositionSide) (quantity price leverage : ℚ)
    (orderId : Option String) (id : String) :
    cashFlow contract.marginAsset (openTransaction contract side quantity price leverage orderId id).entries =
      -contract.takerFee quantity price := by
  simp [openTransaction, openPostings, cashFlow, MovesBalanceOf, LedgerAccount.movesBalance, LedgerPosting.signed]

lemma cashFlow_closePostings (contract : PerpetualContract) (quantity entryPrice realizedPnl fee marginRelease : ℚ) :
    cashFlow contract.marginAsset (closePostings contract quantity entryPrice realizedPnl fee marginRelease) =
      realizedPnl - max fee 0 := by
  have hshare (p : LedgerPosting) (hp : p.currency = contract.marginAsset) :
      (if MovesBalanceOf contract.marginAsset p then p.signed else 0) =
        (if p.account.movesBalance then 1 else 0) * p.signed := by
    simp [MovesBalanceOf, hp]
  rw [cashFlow, netDebit_closePostings _ (fun account => if account.movesBalance then 1 else 0) contract hshare]
  simp [LedgerAccount.movesBalance]
  ring

lemma cashFlow_fundingTransaction (contract : PerpetualContract) (side : PositionSide) (amount rate notional : ℚ)
    (id : String) :
    cashFlow contract.marginAsset (fundingTransaction contract side amount rate notional id).entries = amount := by
  unfold fundingTransaction fundingPostings
  dsimp only
  split
  · simp [cashFlow, MovesBalanceOf, LedgerAccount.movesBalance, LedgerPosting.signed]
  · simp [cashFlow, MovesBalanceOf, LedgerAccount.movesBalance, LedgerPosting.signed]

/-! ### The two replays of one transaction -/

/-- A transaction that the account replay only takes the postings of. -/
def LedgerTransaction.OnlyPosts (t : LedgerTransaction) : Prop :=
  t.entryType ≠ .deposit ∧ t.entryType ≠ .withdrawal ∧ t.entryType ≠ .trade

lemma applyTransaction_onlyPosts {t : LedgerTransaction} (h : t.OnlyPosts) (snap : ProjectionSnapshot) :
    applyTransaction snap t = .ok (t.entries.foldl applyEntry snap) := by
  obtain ⟨hdeposit, hwithdrawal, htrade⟩ := h
  unfold applyTransaction
  cases ht : t.entryType <;> simp_all

section Recorded

variable {engine : PerpetualPaperEngine} {ledger : Ledger} {call : PerpetualCall} {t : LedgerTransaction}

/-- The types of the transactions that the paper engine writes. -/
lemma Recorded.entryType (hrec : Recorded engine ledger call t) : t.entryType ∈ ([.futuresMarginPost, .futuresTradingFee,
    .futuresRealizedPnl, .fundingReceipt, .fundingPayment] : List LedgerEntryType) := by
  cases hrec with
  | opened => simp only [openTransaction]; split <;> decide
  | closed => simp only [closeTransaction]; decide
  | funded => simp only [fundingTransaction]; split <;> decide
  | liquidated => simp only [closeTransaction]; decide

lemma Recorded.onlyPosts (hrec : Recorded engine ledger call t) : t.OnlyPosts := by
  have hnone : ∀ e ∈ ([.futuresMarginPost, .futuresTradingFee, .futuresRealizedPnl, .fundingReceipt, .fundingPayment] :
      List LedgerEntryType), e ≠ .deposit ∧ e ≠ .withdrawal ∧ e ≠ .trade := by decide
  exact hnone _ hrec.entryType

lemma Recorded.balanced (hrec : Recorded engine ledger call t) : JournalBalanced t.entries := by
  cases hrec with
  | opened => exact openPostings_balanced _ _ _ _ _
  | closed => exact closePostings_balanced _ _ _ _ _ _
  | funded => exact fundingPostings_balanced _ _
  | liquidated => exact closePostings_balanced _ _ _ _ _ _

lemma netResult_close {contract : PerpetualContract} {pos : MarginPosition}
    (hpos : (rebuildFuturesProjection ledger).position contract.symbol = some pos)
    (qty exitPrice realizedPnl fee marginRelease : ℚ) (orderId : Option String) (id : String) :
    let t := closeTransaction contract pos.side qty pos.avgEntryPrice exitPrice realizedPnl fee marginRelease orderId id
    cashFlow contract.marginAsset t.entries =
      (rebuildFuturesProjection (ledger ++ [t])).netResult - (rebuildFuturesProjection ledger).netResult := by
  intro t
  have hs : contract.symbol ≠ "" := fun hempty => by simp [hempty, rebuildFuturesProjection_nameless] at hpos
  have hcash : cashFlow contract.marginAsset t.entries = realizedPnl - max fee 0 := cashFlow_closePostings _ _ _ _ _ _
  rw [hcash, rebuildFuturesProjection_append, applyTxn_close _ _ _ _ _ _ _ _ _ _ hs, applyClose_of_some hpos]
  unfold FuturesSnapshot.netResult
  ring

/-- A transaction of the paper engine moves the cash of its contract's margin asset by what
it adds to the net result. -/
theorem Recorded.cashFlow_eq (hrec : Recorded engine ledger call t) (hs : (engine.contractOf call.symbol).symbol ≠ "") :
    cashFlow (engine.contractOf call.symbol).marginAsset t.entries =
      (rebuildFuturesProjection (ledger ++ [t])).netResult - (rebuildFuturesProjection ledger).netResult := by
  cases hrec with
  | @opened side quantity price leverage orderId symbol id hside hlev =>
    have hcash := cashFlow_openTransaction (engine.contractOf symbol) side |quantity| price leverage orderId id
    simp only [PerpetualCall.symbol] at hs ⊢
    rw [hcash, rebuildFuturesProjection_append, applyTxn_open _ _ _ _ _ _ _ hs]
    simp only [FuturesSnapshot.netResult, FuturesSnapshot.applyOpen]
    ring
  | @closed quantity exitPrice orderId symbol pos id hpos => exact netResult_close hpos _ _ _ _ _ _ _
  | @funded rate markPrice symbol pos payment id hpos hpay hne =>
    have hcash := cashFlow_fundingTransaction (engine.contractOf symbol) pos.side payment.amount payment.rate
      payment.notional id
    simp only [PerpetualCall.symbol] at hs ⊢
    rw [hcash, rebuildFuturesProjection_append, applyTxn_funding _ _ _ _ _ _ hs]
    simp only [FuturesSnapshot.netResult]
    rcases le_total payment.amount 0 with h | h
    · rw [max_eq_left (neg_nonneg.mpr h), max_eq_right h]
      ring
    · rw [max_eq_right (neg_nonpos.mpr h), max_eq_left h]
      ring
  | @liquidated markPrice symbol pos result id hpos hresult hliq => exact netResult_close hpos _ _ _ _ _ _ _

end Recorded

/-! ### Runs -/

/-- A ledger extended by balanced transactions that move the balance of the asset by what
they add to the net result. -/
structure CashExtends (initialBalances : Balances) (asset : String) (ledger ledger' : Ledger) : Prop where
  balanced : ∃ recorded, ledger' = ledger ++ recorded ∧ ∀ t ∈ recorded, JournalBalanced t.entries
  cash : ∀ snap, replayProjections initialBalances ledger = .ok snap → ∃ snap',
    replayProjections initialBalances ledger' = .ok snap' ∧ snap'.balance asset - snap.balance asset =
      (rebuildFuturesProjection ledger').netResult - (rebuildFuturesProjection ledger).netResult

lemma CashExtends.refl (initialBalances : Balances) (asset : String) (ledger : Ledger) :
    CashExtends initialBalances asset ledger ledger := by
  refine ⟨⟨[], by simp, by simp⟩, fun snap hsnap => ⟨snap, hsnap, ?_⟩⟩
  rw [sub_self, sub_self]

lemma CashExtends.recorded {initialBalances : Balances} {asset : String} {ledger ledger' : Ledger}
    (h : CashExtends initialBalances asset ledger ledger') {engine : PerpetualPaperEngine} {call : PerpetualCall}
    {t : LedgerTransaction} (hrec : Recorded engine ledger' call t) (hs : (engine.contractOf call.symbol).symbol ≠ "")
    (hasset : (engine.contractOf call.symbol).marginAsset = asset) :
    CashExtends initialBalances asset ledger (ledger' ++ [t]) := by
  obtain ⟨⟨recorded, rfl, hbal⟩, hcash⟩ := h
  refine ⟨⟨recorded ++ [t], by rw [List.append_assoc], fun t' ht' => ?_⟩, fun snap hsnap => ?_⟩
  · rcases List.mem_append.mp ht' with hm | hm
    · exact hbal t' hm
    · rw [List.mem_singleton.mp hm]
      exact hrec.balanced
  · obtain ⟨snap', hsnap', hdelta⟩ := hcash snap hsnap
    refine ⟨t.entries.foldl applyEntry snap', ?_, ?_⟩
    · rw [replayProjections_append hsnap', applyTransactions, applyTransaction_onlyPosts hrec.onlyPosts]
      rfl
    · have hflow := hrec.cashFlow_eq hs
      rw [hasset] at hflow
      rw [ProjectionSnapshot.balance_foldl_applyEntry, hflow]
      linarith

end CryptoTrader
