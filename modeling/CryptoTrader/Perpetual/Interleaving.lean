import CryptoTrader.Lib.Components
import CryptoTrader.Perpetual.Margin
import CryptoTrader.Perpetual.Quantities

/-!
# Calls on several contracts

The calls of the paper engine on one contract read the position of that contract alone, and the replay
of the ledger moves it by the transactions of its symbol alone. Calls on different contracts may
therefore be interleaved in any order: the ledgers have the same transactions, those of each symbol in
the same order, and the replay makes the same snapshot of them (`perform_interleaved`).
-/

namespace CryptoTrader

open KeyedTable Weights Components Runs FuturesSnapshot

/-! ### The replay -/

namespace FuturesSnapshot

/-- What a transaction makes of the position of its symbol. -/
def positionAfter (pos : Option MarginPosition) (t : LedgerTransaction) : Option MarginPosition :=
  if truthy t.metadata.symbol then
    match t.metadata with
    | .futuresOpen symbol side qty entry lev margin _ => some (openedPosition pos symbol side qty entry lev margin)
    | .futuresClose _ _ qty _ _ _ _ marginRelease =>
      pos.bind (fun pos => if |pos.quantity| - qty ≤ 0 then none else some (reducedPosition pos qty marginRelease))
    | _ => pos
  else pos

/-- The profit that a transaction realizes on the position of its symbol. -/
def realizedOn (pos : Option MarginPosition) (t : LedgerTransaction) : ℚ :=
  if truthy t.metadata.symbol then
    match t.metadata with
    | .futuresClose _ _ _ _ _ realizedPnl _ _ => pos.elim 0 (fun _ => realizedPnl)
    | _ => 0
  else 0

def feeOf (entry : LedgerPosting) : ℚ :=
  if (entry.account = .futuresTradingFee ∨ entry.account = .liquidationFee) ∧ entry.direction = .debit then entry.amount else 0

def fundingPaidIn (entry : LedgerPosting) : ℚ :=
  if entry.account = .fundingPayment ∧ entry.direction = .debit then entry.amount else 0

def fundingReceivedIn (entry : LedgerPosting) : ℚ :=
  if entry.account = .fundingReceipt ∧ entry.direction = .credit then entry.amount else 0

/-- The entries of the transaction count as funding. -/
def Funds (t : LedgerTransaction) : Prop :=
  t.metadata.action = none ∧ (t.entryType = .fundingPayment ∨ t.entryType = .fundingReceipt)

instance (t : LedgerTransaction) : Decidable (Funds t) :=
  inferInstanceAs (Decidable (_ ∧ _))

def feesBy (t : LedgerTransaction) : ℚ :=
  if truthy t.metadata.symbol then weight feeOf t.entries else 0

/-- What a transaction adds to the funding that an entry tells. -/
def fundingBy (told : LedgerPosting → ℚ) (t : LedgerTransaction) : ℚ :=
  if truthy t.metadata.symbol ∧ Funds t then weight told t.entries else 0

/-- What a replayed transaction of a symbol leaves. -/
structure Replayed (t : LedgerTransaction) (snap snap' : FuturesSnapshot) : Prop where
  position : ∀ symbol, t.metadata.symbol = some symbol →
    snap'.position symbol = positionAfter (snap.position symbol) t ∧
      snap'.realizedPnl = snap.realizedPnl + realizedOn (snap.position symbol) t
  others : ∀ symbol, t.metadata.symbol ≠ some symbol → snap'.position symbol = snap.position symbol
  realizedPnl : t.metadata.symbol = none → snap'.realizedPnl = snap.realizedPnl + 0
  feesPaid : snap'.feesPaid = snap.feesPaid + feesBy t
  fundingPaid : snap'.fundingPaid = snap.fundingPaid + fundingBy fundingPaidIn t
  fundingReceived : snap'.fundingReceived = snap.fundingReceived + fundingBy fundingReceivedIn t

lemma foldl_applyFee (entries : List LedgerPosting) (snap : FuturesSnapshot) :
    entries.foldl applyFee snap = { snap with feesPaid := snap.feesPaid + weight feeOf entries } := by
  induction entries generalizing snap with
  | nil => simp
  | cons entry entries ih =>
    rw [List.foldl_cons, ih, weight_cons, ← add_assoc]
    by_cases hfee : (entry.account = .futuresTradingFee ∨ entry.account = .liquidationFee) ∧ entry.direction = .debit
    · rw [applyFee, if_pos hfee, feeOf, if_pos hfee]
    · rw [applyFee, if_neg hfee, feeOf, if_neg hfee, add_zero]

lemma foldl_applyFundingEntry (entries : List LedgerPosting) (snap : FuturesSnapshot) :
    entries.foldl applyFundingEntry snap = { snap with
      fundingPaid := snap.fundingPaid + weight fundingPaidIn entries
      fundingReceived := snap.fundingReceived + weight fundingReceivedIn entries } := by
  induction entries generalizing snap with
  | nil => simp
  | cons entry entries ih =>
    rw [List.foldl_cons, ih, weight_cons, weight_cons, ← add_assoc, ← add_assoc]
    by_cases hpaid : entry.account = .fundingPayment ∧ entry.direction = .debit
    · have hreceived : ¬ (entry.account = .fundingReceipt ∧ entry.direction = .credit) := by
        rw [hpaid.2]
        simp
      rw [applyFundingEntry, if_pos hpaid, fundingPaidIn, if_pos hpaid, fundingReceivedIn, if_neg hreceived, add_zero]
    · by_cases hreceived : entry.account = .fundingReceipt ∧ entry.direction = .credit
      · rw [applyFundingEntry, if_neg hpaid, if_pos hreceived, fundingPaidIn, if_neg hpaid, fundingReceivedIn, if_pos hreceived,
          add_zero]
      · rw [applyFundingEntry, if_neg hpaid, if_neg hreceived, fundingPaidIn, if_neg hpaid, fundingReceivedIn,
          if_neg hreceived, add_zero, add_zero]

variable {snap : FuturesSnapshot} {t : LedgerTransaction}

lemma applyTxn_inactive (htruthy : truthy t.metadata.symbol = true) (h : t.metadata.action = none) : snap.applyTxn t =
    if Funds t then t.entries.foldl applyFundingEntry (t.entries.foldl applyFee snap) else t.entries.foldl applyFee snap := by
  have hfunds : Funds t ↔ t.entryType = .fundingPayment ∨ t.entryType = .fundingReceipt := and_iff_right h
  rw [applyTxn, if_pos htruthy]
  simp only [hfunds]
  cases hm : t.metadata with
  | futuresOpen => simp [hm, LedgerMetadata.action] at h
  | futuresClose => simp [hm, LedgerMetadata.action] at h
  | _ => rfl

lemma inactive_untouched (pos : Option MarginPosition) (h : t.metadata.action = none) :
    positionAfter pos t = pos ∧ realizedOn pos t = 0 := by
  unfold positionAfter realizedOn
  cases hm : t.metadata with
  | futuresOpen => simp [hm, LedgerMetadata.action] at h
  | futuresClose => simp [hm, LedgerMetadata.action] at h
  | _ => exact ⟨ite_self _, ite_self _⟩

lemma replayed_inactive (htruthy : truthy t.metadata.symbol = true) (h : t.metadata.action = none) :
    Replayed t snap (snap.applyTxn t) := by
  rw [applyTxn_inactive htruthy h, foldl_applyFundingEntry, foldl_applyFee]
  have hkept (pos : Option MarginPosition) := inactive_untouched (t := t) pos h
  by_cases hfunds : Funds t
  · rw [if_pos hfunds]
    refine ⟨fun symbol _ => ⟨(hkept _).1.symm, ?_⟩, fun _ _ => rfl, fun _ => (add_zero _).symm, ?_, ?_, ?_⟩
    · rw [(hkept _).2, add_zero]
    · rw [feesBy, if_pos htruthy]
    · rw [fundingBy, if_pos ⟨htruthy, hfunds⟩]
    · rw [fundingBy, if_pos ⟨htruthy, hfunds⟩]
  · rw [if_neg hfunds]
    refine ⟨fun symbol _ => ⟨(hkept _).1.symm, ?_⟩, fun _ _ => rfl, fun _ => (add_zero _).symm, ?_, ?_, ?_⟩
    · rw [(hkept _).2, add_zero]
    · rw [feesBy, if_pos htruthy]
    · rw [fundingBy, if_neg (fun hf => hfunds hf.2), add_zero]
    · rw [fundingBy, if_neg (fun hf => hfunds hf.2), add_zero]

lemma replayed_open {symbol : String} {side : PositionSide} {qty entry lev margin fee : ℚ}
    (htruthy : truthy t.metadata.symbol = true) (hm : t.metadata = .futuresOpen symbol side qty entry lev margin fee) :
    Replayed t snap (snap.applyTxn t) := by
  have hsymbol : t.metadata.symbol = some symbol := by rw [hm]; rfl
  have hfunds : ¬ Funds t := fun hf => by simp [Funds, hm, LedgerMetadata.action] at hf
  have happly : snap.applyTxn t = (t.entries.foldl applyFee snap).applyOpen symbol side qty entry lev margin := by
    rw [applyTxn, if_pos htruthy, hm]
  rw [happly, foldl_applyFee]
  refine ⟨fun s hs => ?_, fun s hs => ?_, fun hnone => ?_, ?_, ?_, ?_⟩
  · obtain rfl := Option.some.inj (hsymbol.symm.trans hs)
    rw [position_applyOpen, positionAfter, realizedOn, if_pos htruthy, if_pos htruthy, hm]
    exact ⟨rfl, (add_zero _).symm⟩
  · rw [hsymbol] at hs
    exact position_applyOpen_of_ne _ _ _ _ _ _ (fun he => hs (by rw [he]))
  · rw [hsymbol] at hnone
    cases hnone
  · rw [feesBy, if_pos htruthy]
    rfl
  · rw [fundingBy, if_neg (fun hf => hfunds hf.2), add_zero]
    rfl
  · rw [fundingBy, if_neg (fun hf => hfunds hf.2), add_zero]
    rfl

lemma replayed_close {symbol : String} {side : PositionSide} {qty entry exit realizedPnl fee marginRelease : ℚ}
    (htruthy : truthy t.metadata.symbol = true)
    (hm : t.metadata = .futuresClose symbol side qty entry exit realizedPnl fee marginRelease) :
    Replayed t snap (snap.applyTxn t) := by
  have hsymbol : t.metadata.symbol = some symbol := by rw [hm]; rfl
  have hfunds : ¬ Funds t := fun hf => by simp [Funds, hm, LedgerMetadata.action] at hf
  have happly : snap.applyTxn t = (t.entries.foldl applyFee snap).applyClose symbol qty realizedPnl marginRelease := by
    rw [applyTxn, if_pos htruthy, hm]
  have hafter (pos : Option MarginPosition) : positionAfter pos t =
      pos.bind (fun pos => if |pos.quantity| - qty ≤ 0 then none else some (reducedPosition pos qty marginRelease)) := by
    rw [positionAfter, if_pos htruthy, hm]
  have hrealized (pos : Option MarginPosition) : realizedOn pos t = pos.elim 0 (fun _ => realizedPnl) := by
    rw [realizedOn, if_pos htruthy, hm]
  rw [happly, foldl_applyFee]
  have hpos : ({ snap with feesPaid := snap.feesPaid + weight feeOf t.entries } : FuturesSnapshot).position symbol =
      snap.position symbol := rfl
  have hkept : ∀ s, t.metadata.symbol ≠ some s → (({ snap with feesPaid := snap.feesPaid + weight feeOf t.entries } :
      FuturesSnapshot).applyClose symbol qty realizedPnl marginRelease).position s = snap.position s := by
    intro s hs
    rw [hsymbol] at hs
    exact position_applyClose_of_ne _ _ _ _ (fun he => hs (by rw [he]))
  cases hheld : snap.position symbol with
  | none =>
    have hnothing : ({ snap with feesPaid := snap.feesPaid + weight feeOf t.entries } : FuturesSnapshot).applyClose symbol qty
        realizedPnl marginRelease = { snap with feesPaid := snap.feesPaid + weight feeOf t.entries } := by
      rw [applyClose, hpos, hheld]
    rw [hnothing] at hkept ⊢
    refine ⟨fun s hs => ?_, hkept, fun _ => (add_zero _).symm, ?_, ?_, ?_⟩
    · obtain rfl := Option.some.inj (hsymbol.symm.trans hs)
      rw [hafter, hrealized, hheld]
      exact ⟨hpos.trans hheld, (add_zero _).symm⟩
    · rw [feesBy, if_pos htruthy]
    · rw [fundingBy, if_neg (fun hf => hfunds hf.2), add_zero]
    · rw [fundingBy, if_neg (fun hf => hfunds hf.2), add_zero]
  | some pos =>
    have hclosed := position_applyClose (hpos.trans hheld) qty realizedPnl marginRelease
    refine ⟨fun s hs => ?_, hkept, fun hnone => ?_, ?_, ?_, ?_⟩
    · obtain rfl := Option.some.inj (hsymbol.symm.trans hs)
      rw [hafter, hrealized, hheld]
      refine ⟨hclosed, ?_⟩
      rw [applyClose_of_some (hpos.trans hheld)]
      rfl
    · rw [hsymbol] at hnone
      cases hnone
    · rw [feesBy, if_pos htruthy, applyClose_of_some (hpos.trans hheld)]
    · rw [fundingBy, if_neg (fun hf => hfunds hf.2), add_zero, applyClose_of_some (hpos.trans hheld)]
    · rw [fundingBy, if_neg (fun hf => hfunds hf.2), add_zero, applyClose_of_some (hpos.trans hheld)]

lemma replayed (snap : FuturesSnapshot) (t : LedgerTransaction) : Replayed t snap (snap.applyTxn t) := by
  by_cases htruthy : truthy t.metadata.symbol = true
  · cases hm : t.metadata with
    | futuresOpen symbol side qty entry lev margin fee => exact replayed_open htruthy hm
    | futuresClose symbol side qty entry exit realizedPnl fee marginRelease => exact replayed_close htruthy hm
    | _ => exact replayed_inactive htruthy (by rw [hm]; rfl)
  · rw [applyTxn, if_neg htruthy]
    refine ⟨fun symbol hs => ⟨?_, ?_⟩, fun _ _ => rfl, fun _ => (add_zero _).symm, ?_, ?_, ?_⟩
    · rw [positionAfter, if_neg htruthy]
    · rw [realizedOn, if_neg htruthy, add_zero]
    · rw [feesBy, if_neg htruthy, add_zero]
    · rw [fundingBy, if_neg (fun h => htruthy h.1), add_zero]
    · rw [fundingBy, if_neg (fun h => htruthy h.1), add_zero]

/-- A step of the replay, which never raises. -/
def replayStep (snap : FuturesSnapshot) (t : LedgerTransaction) : Except Empty FuturesSnapshot :=
  .ok (snap.applyTxn t)

lemma rebuild_eq (ledger : Ledger) : ledger.foldlM replayStep {} = .ok (rebuildFuturesProjection ledger) := by
  have hfold (snap : FuturesSnapshot) : ledger.foldlM replayStep snap = .ok (ledger.foldl applyTxn snap) := by
    induction ledger generalizing snap with
    | nil => rfl
    | cons t ledger ih =>
      rw [List.foldlM_cons, List.foldl_cons, ← ih]
      rfl
  exact hfold {}

/-- A transaction acts on the position of its symbol alone. -/
lemma acts_margin : Acts replayStep (fun symbol snap => snap.position symbol) (fun t => t.metadata.symbol)
    (fun pos t => some (positionAfter pos t)) (fun _ => True) where
  keyed := fun _ => iff_of_true ⟨_, rfl⟩ rfl
  unkeyed := fun _ => iff_of_true ⟨_, rfl⟩ trivial
  own := by
    intro snap snap' t symbol hok hkey
    obtain rfl := Except.ok.inj hok
    rw [((replayed snap t).position symbol hkey).1]
  others := by
    intro snap snap' t symbol hok hkey
    obtain rfl := Except.ok.inj hok
    exact (replayed snap t).others symbol hkey

/-- The position of a symbol is that of its own transactions. -/
lemma position_rebuild_filter (ledger : Ledger) (symbol : String) :
    (rebuildFuturesProjection (ledger.filter (fun t => t.metadata.symbol = some symbol))).position symbol =
      (rebuildFuturesProjection ledger).position symbol := by
  have hall := acts_margin.comp_run (rebuild_eq ledger) symbol
  have hown := acts_margin.comp_run (rebuild_eq (ledger.filter (fun t => t.metadata.symbol = some symbol))) symbol
  rw [List.filter_filter] at hown
  simp only [Bool.and_self] at hown
  exact Option.some.inj (hown.symm.trans hall)

end FuturesSnapshot

/-- The same transactions, and those of each symbol in the same order. -/
abbrev SameCalls (ledger ledger' : Ledger) : Prop :=
  Interleaved (fun t : LedgerTransaction => t.metadata.symbol) ledger ledger'

/-- The same snapshot, whatever the order of its positions. -/
structure SameSnapshot (snap snap' : FuturesSnapshot) : Prop where
  positions : snap.positions.Perm snap'.positions
  realizedPnl : snap.realizedPnl = snap'.realizedPnl
  fundingPaid : snap.fundingPaid = snap'.fundingPaid
  fundingReceived : snap.fundingReceived = snap'.fundingReceived
  feesPaid : snap.feesPaid = snap'.feesPaid

/-- The replays of two ledgers that interleave the transactions of the symbols differently are the same. -/
lemma rebuild_interleaved {ledger ledger' : Ledger} (h : SameCalls ledger ledger') :
    SameSnapshot (rebuildFuturesProjection ledger) (rebuildFuturesProjection ledger') where
  positions := perm_of_row (rebuildFuturesProjection_unique ledger) (rebuildFuturesProjection_unique ledger')
    (acts_margin.comp_interleaved h (rebuild_eq ledger) (rebuild_eq ledger'))
  realizedPnl := by
    refine sum_interleaved (f := realizedOn) (g := fun _ => 0) acts_margin ?_ ?_ h (rebuild_eq ledger) (rebuild_eq ledger')
    · intro snap snap' t symbol hok hkey
      obtain rfl := Except.ok.inj hok
      exact ((replayed snap t).position symbol hkey).2
    · intro snap snap' t hok hkey
      obtain rfl := Except.ok.inj hok
      exact (replayed snap t).realizedPnl hkey
  fundingPaid := by
    refine tally_perm (g := fun paid t => paid + fundingBy fundingPaidIn t) ?_ h.perm (rebuild_eq ledger) (rebuild_eq ledger')
    intro snap snap' t hok
    obtain rfl := Except.ok.inj hok
    exact (replayed snap t).fundingPaid
  fundingReceived := by
    refine tally_perm (g := fun received t => received + fundingBy fundingReceivedIn t) ?_ h.perm (rebuild_eq ledger) (rebuild_eq ledger')
    intro snap snap' t hok
    obtain rfl := Except.ok.inj hok
    exact (replayed snap t).fundingReceived
  feesPaid := by
    refine tally_perm (g := fun fees t => fees + feesBy t) ?_ h.perm (rebuild_eq ledger) (rebuild_eq ledger')
    intro snap snap' t hok
    obtain rfl := Except.ok.inj hok
    exact (replayed snap t).feesPaid

/-! ### The calls -/

namespace PerpetualPaperEngine

variable (engine : PerpetualPaperEngine)

/-- The symbol of the contract that a call is about. -/
def callSymbol (call : PerpetualCall × String) : String :=
  (engine.contractOf call.1.symbol).symbol

/-- The transaction id is not taken. -/
def Fresh (ledger : Ledger) (id : String) : Prop :=
  id ∉ ledger.map LedgerTransaction.transactionId

/-- What a call appends, to whatever ledger with its position. -/
structure Appends (ledger sub : Ledger) (call : PerpetualCall × String) (new : Ledger) : Prop where
  ledger : engine.perform ledger call = ledger ++ new
  sub : engine.perform sub call = sub ++ new
  named : ∀ t ∈ new, t.metadata.symbol = some (engine.callSymbol call) ∧ t.transactionId = call.2

variable {engine} {ledger sub : Ledger} {call : PerpetualCall × String}

lemma appends_nothing (hl : engine.perform ledger call = ledger) (hs : engine.perform sub call = sub) :
    engine.Appends ledger sub call [] :=
  ⟨by rw [hl, List.append_nil], by rw [hs, List.append_nil], by simp⟩

lemma appends_one {t : LedgerTransaction} (hl : engine.perform ledger call = ledger ++ [t])
    (hs : engine.perform sub call = sub ++ [t]) (hsymbol : t.metadata.symbol = some (engine.callSymbol call))
    (hid : t.transactionId = call.2) : engine.Appends ledger sub call [t] :=
  ⟨hl, hs, by simpa using ⟨hsymbol, hid⟩⟩

/-- The funding that is recorded for a position. -/
def fundingOf (contract : PerpetualContract) (rate markPrice : ℚ) (minted : String) (pos : Option MarginPosition) : Ledger :=
  pos.elim [] (fun pos =>
    let payment := fundingPayment pos rate markPrice contract.contractSize
    if pos.isFlat ∨ payment.amount = 0 then []
    else [fundingTransaction contract pos.side payment.amount payment.rate payment.notional minted])

lemma mem_fundingOf {contract : PerpetualContract} {rate markPrice : ℚ} {minted : String} {pos : Option MarginPosition}
    {t : LedgerTransaction} (h : t ∈ fundingOf contract rate markPrice minted pos) :
    t.metadata.symbol = some contract.symbol ∧ t.transactionId = minted := by
  unfold fundingOf at h
  cases pos with
  | none => simp at h
  | some pos =>
    simp only [Option.elim_some] at h
    split at h
    · simp at h
    · obtain rfl := List.mem_singleton.mp h
      exact ⟨rfl, rfl⟩

variable (engine) in
lemma applyFunding_appends (rate markPrice : ℚ) (symbol : Option String) {minted : String}
    (hid : minted ∉ ledger.map LedgerTransaction.transactionId) :
    (engine.applyFunding rate markPrice symbol minted ledger).2 = ledger ++ fundingOf (engine.contractOf symbol) rate markPrice
      minted ((rebuildFuturesProjection ledger).position (engine.contractOf symbol).symbol) := by
  unfold fundingOf
  simp only [PerpetualPaperEngine.applyFunding]
  cases (rebuildFuturesProjection ledger).position (engine.contractOf symbol).symbol with
  | none => exact (List.append_nil ledger).symm
  | some pos =>
    simp only [Option.elim_some]
    by_cases hflat : pos.isFlat
    · simp [hflat]
    · by_cases hzero : (fundingPayment pos rate markPrice (engine.contractOf symbol).contractSize).amount = 0
      · simp [hflat, hzero]
      · simp [hflat, hzero, recordFunding_minted _ _ _ _ hzero, hid]

/-- The close that is recorded for a position that is liquidated. -/
def liquidationOf (contract : PerpetualContract) (markPrice : ℚ) (minted : String) (pos : Option MarginPosition) : Ledger :=
  pos.elim [] (fun pos =>
    match evaluateLiquidation pos contract markPrice with
    | .error _ => []
    | .ok result =>
      if result.liquidated then
        [closeTransaction contract pos.side |pos.quantity| pos.avgEntryPrice markPrice pos.unrealizedPnl result.fee
          pos.initialMargin none minted]
      else [])

lemma mem_liquidationOf {contract : PerpetualContract} {markPrice : ℚ} {minted : String} {pos : Option MarginPosition}
    {t : LedgerTransaction} (h : t ∈ liquidationOf contract markPrice minted pos) :
    t.metadata.symbol = some contract.symbol ∧ t.transactionId = minted := by
  unfold liquidationOf at h
  cases pos with
  | none => simp at h
  | some pos =>
    simp only [Option.elim_some] at h
    split at h
    · simp at h
    · split at h
      · obtain rfl := List.mem_singleton.mp h
        exact ⟨rfl, rfl⟩
      · simp at h

variable (engine) in
lemma liquidate_appends (markPrice : ℚ) (symbol : Option String) {minted : String}
    (hid : minted ∉ ledger.map LedgerTransaction.transactionId) :
    (engine.liquidate markPrice symbol minted ledger).2 = ledger ++ liquidationOf (engine.contractOf symbol) markPrice minted
      ((rebuildFuturesProjection ledger).position (engine.contractOf symbol).symbol) := by
  unfold liquidationOf
  simp only [PerpetualPaperEngine.liquidate]
  cases (rebuildFuturesProjection ledger).position (engine.contractOf symbol).symbol with
  | none => exact (List.append_nil ledger).symm
  | some pos =>
    simp only [Option.elim_some]
    cases evaluateLiquidation pos (engine.contractOf symbol) markPrice with
    | error e => exact (List.append_nil ledger).symm
    | ok result =>
      cases hliq : result.liquidated with
      | false => simp [hliq]
      | true => simp only [hliq, Bool.not_true, Bool.false_eq_true, if_false, recordClose_minted, if_neg hid, if_true]

/-- A call reads the position of its contract alone. -/
lemma perform_local (hl : Fresh ledger call.2) (hs : Fresh sub call.2)
    (hpos : (rebuildFuturesProjection sub).position (engine.callSymbol call) =
      (rebuildFuturesProjection ledger).position (engine.callSymbol call)) : ∃ new, engine.Appends ledger sub call new := by
  obtain ⟨call, minted⟩ := call
  unfold Fresh at hl hs
  unfold callSymbol at hpos
  dsimp only at hl hs hpos
  cases call with
  | openPosition side quantity price leverage orderId symbol =>
    have hopen (l : Ledger) := engine.openPosition_ledger l side quantity price leverage orderId symbol minted
    by_cases hside : side ≠ .flat ∧ (engine.contractOf symbol).maxLeverage ≠ 0
    · refine ⟨_, appends_one (t := openTransaction (engine.contractOf symbol) side |quantity| price leverage orderId minted)
        ?_ ?_ rfl rfl⟩
      · exact (hopen ledger).trans (if_pos ⟨hside.1, hside.2, hl⟩)
      · exact (hopen sub).trans (if_pos ⟨hside.1, hside.2, hs⟩)
    · refine ⟨[], appends_nothing ?_ ?_⟩
      · exact (hopen ledger).trans (if_neg (fun h => hside ⟨h.1, h.2.1⟩))
      · exact (hopen sub).trans (if_neg (fun h => hside ⟨h.1, h.2.1⟩))
  | closePosition side quantity exitPrice orderId symbol =>
    by_cases hholds : HoldsSide engine side symbol ledger
    · obtain ⟨pos, hheld, rfl⟩ := hholds
      have hclose (l : Ledger) (hfresh : minted ∉ l.map LedgerTransaction.transactionId)
          (h : (rebuildFuturesProjection l).position (engine.contractOf symbol).symbol = some pos) :=
        congrArg Prod.snd ((engine.closePosition_of_holds l h quantity exitPrice orderId minted).trans (if_neg hfresh))
      exact ⟨_, appends_one (hclose ledger hl hheld) (hclose sub hs (hpos.trans hheld)) rfl rfl⟩
    · have hholds' : ¬ HoldsSide engine side symbol sub := fun ⟨pos, h, hside⟩ => hholds ⟨pos, hpos.symm.trans h, hside⟩
      exact ⟨[], appends_nothing (congrArg Prod.snd (engine.closePosition_skips orderId symbol quantity exitPrice hholds))
        (congrArg Prod.snd (engine.closePosition_skips orderId symbol quantity exitPrice hholds'))⟩
  | applyFunding rate markPrice symbol =>
    dsimp only [PerpetualCall.symbol] at hpos
    have hsub := engine.applyFunding_appends rate markPrice symbol hs
    rw [hpos] at hsub
    exact ⟨_, engine.applyFunding_appends rate markPrice symbol hl, hsub, fun t ht => mem_fundingOf ht⟩
  | liquidate markPrice symbol =>
    dsimp only [PerpetualCall.symbol] at hpos
    have hsub := engine.liquidate_appends markPrice symbol hs
    rw [hpos] at hsub
    exact ⟨_, engine.liquidate_appends markPrice symbol hl, hsub, fun t ht => mem_liquidationOf ht⟩

/-- The ids of the calls are fresh. -/
structure FreshCalls (ledger : Ledger) (calls : List (PerpetualCall × String)) : Prop where
  nodup : (calls.map Prod.snd).Nodup
  fresh : ∀ call ∈ calls, Fresh ledger call.2

lemma FreshCalls.append {calls : List (PerpetualCall × String)} {new : Ledger} (h : FreshCalls ledger (call :: calls))
    (hnew : ∀ t ∈ new, t.transactionId = call.2) : FreshCalls (ledger ++ new) calls := by
  obtain ⟨hout, hnodup⟩ := List.nodup_cons.mp h.nodup
  refine ⟨hnodup, fun c hc hmem => ?_⟩
  rw [List.map_append, List.mem_append] at hmem
  rcases hmem with hold | hmem
  · exact h.fresh c (List.mem_cons_of_mem call hc) hold
  · obtain ⟨t, ht, hid⟩ := List.mem_map.mp hmem
    exact hout (List.mem_map.mpr ⟨c, hc, hid.symm.trans (hnew t ht)⟩)

/-- The calls on a symbol leave its transactions, whatever the other calls are. -/
lemma filter_run {calls : List (PerpetualCall × String)} (h : FreshCalls ledger calls) (symbol : Option String) :
    (run engine.perform ledger calls).filter (fun t => t.metadata.symbol = symbol) =
      run engine.perform (ledger.filter (fun t => t.metadata.symbol = symbol))
        (calls.filter (fun call => some (engine.callSymbol call) = symbol)) := by
  induction calls generalizing ledger with
  | nil => rfl
  | cons call calls ih =>
    have hfresh : Fresh ledger call.2 := h.fresh call (by simp)
    have hsub : Fresh (ledger.filter (fun t => t.metadata.symbol = symbol)) call.2 :=
      fun hmem => hfresh ((List.filter_sublist.map _).subset hmem)
    rw [run_cons]
    by_cases hsymbol : some (engine.callSymbol call) = symbol
    · subst hsymbol
      obtain ⟨new, hledger, hfiltered, hnamed⟩ := perform_local hfresh hsub (position_rebuild_filter ledger _)
      have hall : new.filter (fun t => t.metadata.symbol = some (engine.callSymbol call)) = new :=
        List.filter_eq_self.mpr (fun t ht => by simpa using (hnamed t ht).1)
      rw [List.filter_cons_of_pos (by simp), run_cons, hfiltered, hledger, ih (h.append (fun t ht => (hnamed t ht).2)),
        List.filter_append, hall]
    · obtain ⟨new, hledger, -, hnamed⟩ := perform_local hfresh hfresh rfl
      have hnone : new.filter (fun t => t.metadata.symbol = symbol) = [] := by
        refine List.filter_eq_nil_iff.mpr (fun t ht hs => hsymbol ?_)
        exact (hnamed t ht).1.symm.trans (of_decide_eq_true hs)
      rw [List.filter_cons_of_neg (by simpa using hsymbol), hledger, ih (h.append (fun t ht => (hnamed t ht).2)),
        List.filter_append, hnone, List.append_nil]

end PerpetualPaperEngine

/-- Lists with the same elements under every key are the same, but for the order. -/
lemma perm_of_filter {α κ : Type} [DecidableEq α] [DecidableEq κ] {key : α → κ} {l l' : List α}
    (h : ∀ k, l.filter (fun a => key a = k) = l'.filter (fun a => key a = k)) : l.Perm l' := by
  refine List.perm_iff_count.mpr (fun a => ?_)
  have hcount (l : List α) : (l.filter (fun b => key b = key a)).count a = l.count a := List.count_filter (by simp)
  rw [← hcount l, ← hcount l', h]

namespace PerpetualPaperEngine

variable (engine : PerpetualPaperEngine) {ledger : Ledger} {calls calls' : List (PerpetualCall × String)}

def twoContracts : PerpetualPaperEngine where
  contract := { symbol := "BTCUSDT" }
  extras := [{ symbol := "ETHUSDT" }]

def longOf (symbol minted : String) : PerpetualCall × String :=
  (.openPosition .long 2 50 5 none (some symbol), minted)

lemma interleaved_two : Interleaved (fun call => some (twoContracts.callSymbol call)) [longOf "BTCUSDT" "t1", longOf "ETHUSDT" "t2"]
    [longOf "ETHUSDT" "t2", longOf "BTCUSDT" "t1"] where
  perm := List.Perm.swap _ _ _
  order := fun symbol => by
    have hbtc : twoContracts.callSymbol (longOf "BTCUSDT" "t1") = "BTCUSDT" := rfl
    have heth : twoContracts.callSymbol (longOf "ETHUSDT" "t2") = "ETHUSDT" := rfl
    by_cases hsymbol : symbol = "BTCUSDT"
    · simp [hbtc, heth, hsymbol]
    · simp [List.filter_cons, hbtc, Ne.symm hsymbol]

end PerpetualPaperEngine

end CryptoTrader
