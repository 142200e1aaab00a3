import CryptoTrader.Perpetual.Quantities
import CryptoTrader.Runtime.Approval
import CryptoTrader.Runtime.PerpetualCrash

/-!
# Perpetual fills and positions

The fill of a perpetual order is that of the intent, whatever the paper engine makes of the
order. It matches what happens to the position if a reduce-only order names the side it
closes, an opening order does not name the other side, and the symbol has a contract.
-/

namespace CryptoTrader

open KeyedTable OrderStore Weights

/-- The signed quantity of the fills of a symbol. -/
def OrderStore.filledOf (symbol : String) (s : OrderStore) : ℚ :=
  weight (fun f => if f.symbol = symbol then f.signed else 0) s.fills

/-- The position of the symbol changes by the fills that are recorded for it. -/
def FillsMatch (symbol : String) (db db' : Db Books) : Prop :=
  (rebuildFuturesProjection db'.rest.ledger).quantity symbol - (rebuildFuturesProjection db.rest.ledger).quantity symbol =
    db'.store.filledOf symbol - db.store.filledOf symbol

/-- The side of a position that an order closes. -/
def closingSide : OrderSide → PositionSide
  | .buy => .short
  | .sell => .long

/-- A reduce-only signal names the side it closes and a symbol with a contract. Another
signal does not name that side and has a contract, or its open raises. -/
def NamesSide (engine : PerpetualPaperEngine) (signal : SignalIntent) : Prop :=
  let contract := engine.contractOf (some signal.symbol)
  if signal.isReduceOnly then contract.symbol = signal.symbol ∧ signal.positionSide = closingSide signal.side
  else contract.maxLeverage = 0 ∨ contract.symbol = "" ∨
    contract.symbol = signal.symbol ∧ signal.positionSide ≠ closingSide signal.side

/-! ### The call of an order -/

/-- The call of the paper engine for an order. -/
def positionCall (intent : OrderIntent) (side : PositionSide) (price leverage : ℚ) (orderId : String) : PerpetualCall :=
  if intent.reduceOnly then .closePosition side intent.quantity price (some orderId) (some intent.symbol)
  else .openPosition side intent.quantity price leverage (some orderId) (some intent.symbol)

/-- The call returns. -/
def CallReturns (engine : PerpetualPaperEngine) (ledger : Ledger) (minted : String) : PerpetualCall → Prop
  | .openPosition side _ _ _ _ symbol =>
    engine.OpenRecords ledger side symbol minted ∧ (engine.contractOf symbol).symbol ≠ ""
  | _ => True

section Moves

variable (engine : PerpetualPaperEngine) (intent : OrderIntent) (side : PositionSide) (price leverage : ℚ)
  (orderId : String) {minted : String} {db : Db Books}

lemma movePosition_perform (hid : minted ∉ db.rest.ledger.map LedgerTransaction.transactionId) :
    ∃ result, movePosition engine intent side price leverage orderId minted db =
        (result, ⟨db.store, { db.rest with
          ledger := engine.perform db.rest.ledger (positionCall intent side price leverage orderId, minted) }⟩) ∧
      (result = .ok () ↔ CallReturns engine db.rest.ledger minted (positionCall intent side price leverage orderId)) := by
  unfold movePosition positionCall
  by_cases hreduce : intent.reduceOnly = true
  · simp only [hreduce, if_true, PerpetualPaperEngine.perform, CallReturns, iff_true]
    refine ⟨_, rfl, ?_⟩
    by_cases hholds : HoldsSide engine side (some intent.symbol) db.rest.ledger
    · obtain ⟨t, pos, hclose, -⟩ := engine.closePosition_writes (some orderId) (some intent.symbol) intent.quantity price
        hid hholds
      rw [hclose]
      rfl
    · rw [engine.closePosition_skips _ _ _ _ hholds]
      rfl
  · simp only [hreduce, if_false, PerpetualPaperEngine.perform, CallReturns, Bool.false_eq_true]
    refine ⟨_, rfl, ?_⟩
    rw [← engine.openPosition_isOk db.rest.ledger side intent.quantity price leverage (some orderId) (some intent.symbol)]
    cases (engine.openPosition side intent.quantity price leverage (some orderId) (some intent.symbol) minted
      db.rest.ledger).1 <;> simp [Except.map, Except.isOk, Except.toBool]

end Moves

section Execution

variable {setup : PerpetualSetup} {engine : PerpetualPaperEngine} {ids : PerpetualIds} {db : Db Books} {price : ℚ}

/-- An execution that is not cut short makes the call, and records the order's fill if the
call returns. -/
lemma executePerpetualOrder_uncut (intent : OrderIntent) (hengine : setup.engine = some engine) (hprice : 0 < price)
    (positionSide : PositionSide) (hkeys : UniqueKeys db.store) (hfresh : ids.Fresh db)
    (hclient : db.store.getByClient intent.clientOrderId = none) :
    let call := positionCall intent (perpetualSide positionSide intent.side) price setup.leverage ids.orderId
    let db' := (executePerpetualOrder setup intent price positionSide intent.clientOrderId ids none db).2
    db'.rest.ledger = engine.perform db.rest.ledger (call, ids.transactionId) ∧
      (CallReturns engine db.rest.ledger ids.transactionId call → ∃ f, db'.store.fills = db.store.fills ++ [f] ∧
        f.symbol = intent.symbol ∧ f.side = intent.side ∧ f.quantity = intent.quantity) ∧
      (¬ CallReturns engine db.rest.ledger ids.transactionId call → db'.store.fills = db.store.fills) := by
  intro call db'
  obtain ⟨r, db₁, db₂, db₃, db₄, h₁, hid, h₂, h₃, h₄, hrest, p₄⟩ := placed_submitted hkeys hfresh hclient setup.mode
  have hminted : ids.transactionId ∉ db₄.rest.ledger.map LedgerTransaction.transactionId := by
    rw [hrest]
    exact hfresh.transaction
  obtain ⟨result, hmove, hreturns⟩ := movePosition_perform engine intent (perpetualSide positionSide intent.side) price
    setup.leverage ids.orderId hminted
  rw [hrest] at hmove hreturns
  have hstart := not_le.mpr hprice
  have hrun : executePerpetualOrder setup intent price positionSide intent.clientOrderId ids none db =
      andThen (result, ⟨db₄.store, { db.rest with ledger := engine.perform db.rest.ledger (call, ids.transactionId) }⟩)
        fun _ db => andThen (applyFill (settleFill setup.quarantined setup.settlement)
          (perpetualFill engine intent (perpetualSide positionSide intent.side) price ids.orderId intent.clientOrderId
            ids.fillId ids.tradeId) ids.fill db) fun _ db => (.ok (), db) := by
    simp only [executePerpetualOrder, hengine, hstart, if_false, unlessCut, reduceCtorEq, h₁, hid, h₂, h₃, h₄, hmove,
      andThen_ok]
    rfl
  cases hresult : result with
  | error e =>
    rw [hresult] at hrun hreturns
    have hdb : db' = ⟨db₄.store, { db.rest with ledger := engine.perform db.rest.ledger (call, ids.transactionId) }⟩ := by
      simp only [db', hrun, andThen_error]
    have hraises : ¬ CallReturns engine db.rest.ledger ids.transactionId call := fun h => by simpa using hreturns.mpr h
    rw [hdb]
    exact ⟨rfl, fun h => absurd h hraises, fun _ => p₄.fills⟩
  | ok u =>
    rw [hresult] at hrun hreturns
    obtain ⟨filled, db₅, r, h₅, hrest₅, -, -, -, -, f, hfills₅, -, hf⟩ := Placed.fill
      ⟨db₄.store, { db.rest with ledger := engine.perform db.rest.ledger (call, ids.transactionId) }⟩ hfresh p₄ setup engine
      (perpetualSide positionSide intent.side) price intent.clientOrderId
    have hdb : db' = db₅ := by
      simp only [db', hrun, andThen_ok, h₅]
    rw [hdb, hrest₅]
    refine ⟨rfl, fun _ => ⟨f, ?_, hf⟩, fun h => absurd (hreturns.mp rfl) h⟩
    rw [hfills₅]
    exact congrArg (· ++ [f]) p₄.fills

end Execution

/-! ### The position of the order's symbol -/

lemma MarginPosition.Signed.long_of_pos {pos : MarginPosition} (h : pos.Signed) (hpos : 0 < pos.quantity) :
    pos.side = .long := by
  unfold MarginPosition.Signed at h
  cases hs : pos.side with
  | long => rfl
  | short =>
    rw [hs] at h
    exact absurd h hpos.not_ge
  | flat =>
    rw [hs] at h
    exact absurd h hpos.ne'

lemma MarginPosition.Signed.short_of_neg {pos : MarginPosition} (h : pos.Signed) (hneg : pos.quantity < 0) :
    pos.side = .short := by
  unfold MarginPosition.Signed at h
  cases hs : pos.side with
  | long =>
    rw [hs] at h
    exact absurd h hneg.not_ge
  | short => rfl
  | flat =>
    rw [hs] at h
    exact absurd h hneg.ne

section Quantities

variable {engine : PerpetualPaperEngine} {ledger : Ledger} {symbol minted : String} (price : ℚ)

lemma currentSignedQuantity_perpetual (engine : PerpetualPaperEngine) {books : Books} (h : AllSigned books.ledger)
    (symbol : String) : currentSignedQuantity (some engine) .perpetual symbol books =
      (rebuildFuturesProjection books.ledger).quantity symbol := by
  unfold currentSignedQuantity FuturesSnapshot.quantity
  dsimp only
  cases hp : (rebuildFuturesProjection books.ledger).position symbol with
  | none => rfl
  | some pos =>
    dsimp only [Option.elim_some]
    by_cases hflat : pos.isFlat
    · rw [if_pos hflat, (h symbol pos hp).flat_quantity hflat]
    · rw [if_neg hflat]

lemma quantity_close_of_ne (hid : minted ∉ ledger.map LedgerTransaction.transactionId)
    (h : (engine.contractOf (some symbol)).symbol ≠ symbol) (side : PositionSide) (quantity : ℚ) (orderId : Option String) :
    (rebuildFuturesProjection (engine.perform ledger
      (.closePosition side quantity price orderId (some symbol), minted))).quantity symbol =
        (rebuildFuturesProjection ledger).quantity symbol := by
  simp only [PerpetualPaperEngine.perform]
  by_cases hholds : HoldsSide engine side (some symbol) ledger
  · obtain ⟨pos, hpos, rfl⟩ := hholds
    rw [engine.closePosition_of_holds ledger hpos, if_neg hid]
    unfold FuturesSnapshot.quantity
    dsimp only
    rw [position_closed _ _ hpos, if_neg (Ne.symm h)]
  · rw [engine.closePosition_skips _ _ _ _ hholds]

/-- A reduce-only order within the position takes its quantity off, if it is on the side
of the position. -/
lemma quantity_close (hsigned : AllSigned ledger) (hid : minted ∉ ledger.map LedgerTransaction.transactionId)
    (hsym : (engine.contractOf (some symbol)).symbol = symbol) {orderSide : OrderSide} {quantity : ℚ} (hq : 0 < quantity)
    (hle : quantity ≤ match orderSide with
      | .sell => (rebuildFuturesProjection ledger).quantity symbol
      | .buy => -(rebuildFuturesProjection ledger).quantity symbol)
    (side : PositionSide) (orderId : Option String) :
    (rebuildFuturesProjection (engine.perform ledger
      (.closePosition side quantity price orderId (some symbol), minted))).quantity symbol =
        (rebuildFuturesProjection ledger).quantity symbol -
          if side = closingSide orderSide then signedQty side quantity else 0 := by
  have hposition : (rebuildFuturesProjection ledger).quantity symbol ≠ 0 := by
    intro hzero
    rw [hzero] at hle
    cases orderSide <;> linarith
  obtain ⟨pos, hpos⟩ : ∃ pos, (rebuildFuturesProjection ledger).position symbol = some pos := by
    cases hp : (rebuildFuturesProjection ledger).position symbol with
    | none => simp [FuturesSnapshot.quantity, hp] at hposition
    | some pos => exact ⟨pos, rfl⟩
  have hquantity : (rebuildFuturesProjection ledger).quantity symbol = pos.quantity := by
    simp [FuturesSnapshot.quantity, hpos]
  have hpossigned := hsigned symbol pos hpos
  rw [hquantity] at hle
  have hside : pos.side = closingSide orderSide ∧ quantity ≤ |pos.quantity| := by
    cases orderSide with
    | sell => exact ⟨hpossigned.long_of_pos (hq.trans_le hle), hle.trans (le_abs_self _)⟩
    | buy => exact ⟨hpossigned.short_of_neg (neg_pos.mp (hq.trans_le hle)), hle.trans (neg_le_abs _)⟩
  simp only [PerpetualPaperEngine.perform]
  rw [← hsym] at hpos
  by_cases hheld : side = closingSide orderSide
  · obtain rfl : side = pos.side := hheld.trans hside.1.symm
    have hmin : min |quantity| |pos.quantity| = quantity := by
      rw [abs_of_pos hq]
      exact min_eq_left hside.2
    rw [engine.closePosition_of_holds ledger hpos, if_neg hid, if_pos hheld]
    dsimp only
    rw [hmin, quantity_closed _ _ hpos hpossigned hside.2, if_pos hsym.symm]
  · have hholds : ¬ HoldsSide engine side (some symbol) ledger := by
      rintro ⟨pos', hpos', rfl⟩
      obtain rfl : pos = pos' := Option.some.inj (hpos.symm.trans hpos')
      exact hheld hside.1
    rw [engine.closePosition_skips _ _ _ _ hholds, if_neg hheld, sub_zero]

lemma quantity_open (hsigned : AllSigned ledger) {side : PositionSide} {quantity leverage : ℚ} {orderId : Option String}
    (h : CallReturns engine ledger minted (.openPosition side quantity price leverage orderId (some symbol))) :
    (rebuildFuturesProjection (engine.perform ledger
      (.openPosition side quantity price leverage orderId (some symbol), minted))).quantity symbol =
        (rebuildFuturesProjection ledger).quantity symbol +
          if (engine.contractOf (some symbol)).symbol = symbol then signedQty side |quantity| else 0 := by
  obtain ⟨hrec, hs⟩ := h
  simp only [PerpetualPaperEngine.perform, engine.openPosition_ledger]
  rw [if_pos hrec, quantity_opened _ _ hs (hsigned _) hrec.1]
  by_cases hsym : (engine.contractOf (some symbol)).symbol = symbol
  · rw [if_pos hsym.symm, if_pos hsym]
  · rw [if_neg (Ne.symm hsym), if_neg hsym]

lemma quantity_open_raised {side : PositionSide} {quantity leverage : ℚ} {orderId : Option String}
    (h : ¬ CallReturns engine ledger minted (.openPosition side quantity price leverage orderId (some symbol))) :
    (rebuildFuturesProjection (engine.perform ledger
      (.openPosition side quantity price leverage orderId (some symbol), minted))).quantity symbol =
        (rebuildFuturesProjection ledger).quantity symbol := by
  simp only [PerpetualPaperEngine.perform, engine.openPosition_ledger]
  by_cases hrec : engine.OpenRecords ledger side (some symbol) minted
  · have hs : (engine.contractOf (some symbol)).symbol = "" := not_not.mp (fun hs => h ⟨hrec, hs⟩)
    rw [if_pos hrec, rebuildFuturesProjection_append, FuturesSnapshot.applyTxn_nameless]
    simp [openTransaction, LedgerMetadata.symbol, hs]
  · rw [if_neg hrec]

end Quantities

/-! ### Approved signals -/

lemma perpetualSide_eq_closingSide (positionSide : PositionSide) (side : OrderSide) :
    perpetualSide positionSide side = closingSide side ↔ positionSide = closingSide side := by
  cases positionSide <;> cases side <;> decide

/-- The quantity of an order, with the sign of its side. -/
def orderedQty (side : OrderSide) (q : ℚ) : ℚ :=
  match side with
  | .buy => q
  | .sell => -q

lemma signedQty_perpetualSide (positionSide : PositionSide) (side : OrderSide) {q : ℚ} (hq : 0 < q) :
    signedQty (perpetualSide positionSide side) q = orderedQty side q ↔ positionSide ≠ closingSide side := by
  have hne : -q ≠ q := by linarith
  cases positionSide <;> cases side <;> simp [perpetualSide, signedQty, closingSide, orderedQty, hne, hne.symm]

lemma orderedQty_ne_zero (side : OrderSide) {q : ℚ} (hq : 0 < q) : 0 ≠ orderedQty side q := by
  cases side with
  | buy => exact hq.ne
  | sell => exact (neg_neg_iff_pos.mpr hq).ne'

section Moved

variable {engine : PerpetualPaperEngine} {ledger : Ledger} {symbol minted : String} (price : ℚ) {side : OrderSide}
  {quantity : ℚ} (hsigned : AllSigned ledger) (hq : 0 < quantity) (positionSide : PositionSide) {orderId : Option String}
include hsigned hq

/-- A reduce-only order within the position moves it by its quantity if it names the side that it closes. -/
lemma close_moves_iff (hid : minted ∉ ledger.map LedgerTransaction.transactionId)
    (hle : quantity ≤ match side with
      | .sell => (rebuildFuturesProjection ledger).quantity symbol
      | .buy => -(rebuildFuturesProjection ledger).quantity symbol) :
    ((rebuildFuturesProjection (engine.perform ledger
        (.closePosition (perpetualSide positionSide side) quantity price orderId (some symbol), minted))).quantity symbol -
          (rebuildFuturesProjection ledger).quantity symbol =
          orderedQty side quantity) ↔
      (engine.contractOf (some symbol)).symbol = symbol ∧ positionSide = closingSide side := by
  by_cases hsym : (engine.contractOf (some symbol)).symbol = symbol
  · rw [quantity_close _ hsigned hid hsym hq hle, and_iff_right hsym, ← perpetualSide_eq_closingSide positionSide]
    by_cases hside : perpetualSide positionSide side = closingSide side
    · rw [if_pos hside, hside]
      refine iff_of_true ?_ rfl
      cases side with
      | buy => simp [signedQty, closingSide, orderedQty]
      | sell => simp [signedQty, closingSide, orderedQty]
    · rw [if_neg hside, sub_zero, sub_self]
      exact iff_of_false (orderedQty_ne_zero side hq) hside
  · rw [quantity_close_of_ne _ hid hsym, sub_self]
    exact iff_of_false (orderedQty_ne_zero side hq) (fun h => hsym h.1)

/-- Another order moves it so if it does not name that side. -/
lemma open_moves_iff {leverage : ℚ} (h : CallReturns engine ledger minted
      (.openPosition (perpetualSide positionSide side) quantity price leverage orderId (some symbol))) :
    ((rebuildFuturesProjection (engine.perform ledger (.openPosition (perpetualSide positionSide side) quantity price leverage
        orderId (some symbol), minted))).quantity symbol - (rebuildFuturesProjection ledger).quantity symbol =
          orderedQty side quantity) ↔
      (engine.contractOf (some symbol)).symbol = symbol ∧ positionSide ≠ closingSide side := by
  rw [quantity_open _ hsigned h, add_sub_cancel_left, abs_of_pos hq]
  by_cases hsym : (engine.contractOf (some symbol)).symbol = symbol
  · rw [if_pos hsym, and_iff_right hsym]
    exact signedQty_perpetualSide _ _ hq
  · rw [if_neg hsym]
    exact iff_of_false (orderedQty_ne_zero side hq) (fun h => hsym h.1)

end Moved

section Signals

variable {setup : PerpetualSetup} {env : SignalEnv} {signal : SignalIntent} {ids : PerpetualIds} {db : Db Books}

lemma filledOf_snoc {s s' : OrderStore} {f : Fill} (h : s'.fills = s.fills ++ [f]) :
    s'.filledOf f.symbol = s.filledOf f.symbol + f.signed := by
  unfold OrderStore.filledOf
  rw [h, weight_append, weight_cons, weight_nil, if_pos rfl, add_zero]

/-- From every reachable futures ledger, an approved perpetual signal moves the position of
its symbol by the fill that is recorded for it exactly if it names the side. -/
theorem perpetual_fill_matches_iff (hreach : ReachableFutures db.rest.ledger) (hkeys : UniqueKeys db.store)
    (hfresh : ids.Fresh db) (hclient : db.store.getByClient (clientOrderId signal) = none)
    (hmarket : signal.marketType = .perpetual) (happrove : Approves setup.engine env signal db) :
    FillsMatch signal.symbol db (executePerpetualOrder setup (intentOfSignal signal env.runId) env.marketPrice
        signal.positionSide (clientOrderId signal) ids none db).2 ↔
      ∀ engine, setup.engine = some engine → NamesSide engine signal := by
  have happroval := happrove.approval
  obtain ⟨hq, hgate⟩ := happroval.gate
  cases hengine : setup.engine with
  | none => simp [FillsMatch, executePerpetualOrder, hengine]
  | some engine =>
    rw [hmarket, hengine, currentSignedQuantity_perpetual engine hreach.allSigned, checkNoReversal_iff] at hgate
    have hroom := hgate.2
    generalize hrun : (executePerpetualOrder setup (intentOfSignal signal env.runId) env.marketPrice signal.positionSide
      (clientOrderId signal) ids none db).2 = db'
    generalize hcall : positionCall (intentOfSignal signal env.runId) (perpetualSide signal.positionSide signal.side)
      env.marketPrice setup.leverage ids.orderId = call
    obtain ⟨hledger, hfill, hnofill⟩ : db'.rest.ledger = engine.perform db.rest.ledger (call, ids.transactionId) ∧
        (CallReturns engine db.rest.ledger ids.transactionId call → ∃ f, db'.store.fills = db.store.fills ++ [f] ∧
          f.symbol = signal.symbol ∧ f.side = signal.side ∧ f.quantity = signal.quantity) ∧
        (¬ CallReturns engine db.rest.ledger ids.transactionId call → db'.store.fills = db.store.fills) := by
      rw [← hrun, ← hcall]
      exact executePerpetualOrder_uncut (intentOfSignal signal env.runId) hengine (happroval.price hmarket)
        signal.positionSide hkeys hfresh hclient
    have hrecorded (f : Fill) (hf : db'.store.fills = db.store.fills ++ [f] ∧ f.symbol = signal.symbol ∧
        f.side = signal.side ∧ f.quantity = signal.quantity) :
        db'.store.filledOf signal.symbol - db.store.filledOf signal.symbol = orderedQty signal.side signal.quantity := by
      obtain ⟨hfills, hsymbol, hside, hquantity⟩ := hf
      rw [← hsymbol, filledOf_snoc hfills, add_sub_cancel_left, ← hside, ← hquantity]
      rfl
    simp only [Option.some.injEq, forall_eq']
    unfold FillsMatch NamesSide
    dsimp only
    by_cases hreduce : signal.isReduceOnly = true
    · obtain rfl : .closePosition (perpetualSide signal.positionSide signal.side) signal.quantity env.marketPrice
          (some ids.orderId) (some signal.symbol) = call := (if_pos hreduce).symm.trans hcall
      obtain ⟨f, hf⟩ := hfill trivial
      rw [if_pos hreduce] at hroom
      rw [hledger, hrecorded f hf, if_pos hreduce]
      exact close_moves_iff _ hreach.allSigned hq _ hfresh.transaction hroom
    · obtain rfl : .openPosition (perpetualSide signal.positionSide signal.side) signal.quantity env.marketPrice
          setup.leverage (some ids.orderId) (some signal.symbol) = call := (if_neg hreduce).symm.trans hcall
      rw [hledger, if_neg hreduce]
      have hreturns : CallReturns engine db.rest.ledger ids.transactionId (.openPosition
          (perpetualSide signal.positionSide signal.side) signal.quantity env.marketPrice setup.leverage (some ids.orderId)
          (some signal.symbol)) ↔ (engine.contractOf (some signal.symbol)).maxLeverage ≠ 0 ∧
            (engine.contractOf (some signal.symbol)).symbol ≠ "" := by
        have hside := perpetualSide_ne_flat signal.positionSide signal.side
        simp only [CallReturns, PerpetualPaperEngine.OpenRecords, hside, hfresh.transaction, ne_eq, not_false_eq_true,
          true_and, and_true]
      by_cases hret : (engine.contractOf (some signal.symbol)).maxLeverage ≠ 0 ∧
          (engine.contractOf (some signal.symbol)).symbol ≠ ""
      · obtain ⟨f, hf⟩ := hfill (hreturns.mpr hret)
        rw [hrecorded f hf, or_iff_right hret.1, or_iff_right hret.2]
        exact open_moves_iff _ hreach.allSigned hq _ (hreturns.mpr hret)
      · rw [quantity_open_raised _ (fun h => hret (hreturns.mp h)), OrderStore.filledOf, OrderStore.filledOf,
          hnofill (fun h => hret (hreturns.mp h)), sub_self, sub_self]
        refine iff_of_true rfl ?_
        by_cases hlev : (engine.contractOf (some signal.symbol)).maxLeverage = 0
        · exact .inl hlev
        · exact .inr (.inl (not_not.mp (fun hs => hret ⟨hlev, hs⟩)))

end Signals

/-! ### Into a LONG position and out of it -/

/-- The buy of two contracts, on an empty database. -/
theorem perpetual_fill_matches_opened : FillsMatch "BTCUSDT_PERP" ⟨{}, {}⟩
    (executePerpetualOrder paperSetup (intentOfSignal openSignal none) 100 .long (clientOrderId openSignal) (attemptIds 1)
      none ⟨{}, {}⟩).2 := by
  have happrove : Approves paperSetup.engine runningEnv openSignal ⟨{}, {}⟩ := by decide +kernel
  have hfresh : (attemptIds 1).Fresh ⟨{}, {}⟩ := by constructor <;> decide +kernel
  apply (perpetual_fill_matches_iff ⟨[], trivial, rfl⟩ ⟨by simp, by simp⟩ hfresh (by decide +kernel) rfl happrove).mpr
  rintro engine ⟨⟩
  unfold NamesSide
  decide +kernel

/-- The sale of the two contracts, with the default position side. -/
def exitSignal : SignalIntent where
  signalId := "s2"
  strategyId := "trend"
  symbol := "BTCUSDT_PERP"
  side := .sell
  quantity := 2
  marketType := .perpetual
  reduceOnly := true

/-- The call of the engine for the buy. -/
def openCall : FuturesWrite :=
  .call { contract := { symbol := "BTCUSDT_PERP" } } (.openPosition .long 2 100 1 (some "ord_1") (some "BTCUSDT_PERP")) "txn_1"

/-- The sale is approved, but the engine looks for a SHORT position to close: the fill is
recorded and the position stays open. -/
theorem exit_without_side_leaves_position :
    ∃ db : Db Books, ReachableFutures db.rest.ledger ∧ UniqueKeys db.store ∧ (attemptIds 2).Fresh db ∧
      Approves paperSetup.engine runningEnv exitSignal db ∧
      ¬ FillsMatch "BTCUSDT_PERP" db (executePerpetualOrder paperSetup (intentOfSignal exitSignal none) 100 .flat
        (clientOrderId exitSignal) (attemptIds 2) none db).2 := by
  refine ⟨⟨{}, { ledger := Runs.run futuresStep [] [openCall] }⟩, ⟨[openCall], ⟨trivial, trivial⟩, rfl⟩, ⟨by simp, by simp⟩,
    ?_, by decide +kernel, ?_⟩
  · constructor <;> decide +kernel
  · unfold FillsMatch
    decide +kernel

end CryptoTrader
