import CryptoTrader.Perpetual.Cash
import CryptoTrader.Runtime.OrderFlow
import CryptoTrader.Runtime.PerpetualFill
import CryptoTrader.Runtime.SpotPositions

/-!
# Exposure

The limits on exposure are checked against the cost of the settled spot positions. They bound
the exposure that runs build up as long as this is all there is when a signal is approved: no
perpetual position is open, and no approved order is under way.
-/

namespace CryptoTrader

open KeyedTable OrderStore Weights Runs FuturesSnapshot

/-- The notional of a position at its entry price, by the contract of its symbol. -/
def PerpetualPaperEngine.notionalOf (engine : PerpetualPaperEngine) (pos : MarginPosition) : ℚ :=
  (engine.contractOf (some pos.symbol)).notional pos.quantity pos.avgEntryPrice

/-- The cost of the spot positions in the symbols of `S`. -/
def spotExposure (S : String → Bool) (books : Books) : ℚ :=
  weight (fun pos => if S pos.symbol then pos.costBasis else 0) books.positions

/-- The notional of the perpetual positions in the symbols of `S`. -/
def perpetualExposure (engine : Option PerpetualPaperEngine) (S : String → Bool) (ledger : Ledger) : ℚ :=
  match engine with
  | none => 0
  | some engine => weight (fun pos => if S pos.symbol then engine.notionalOf pos else 0) (rebuildFuturesProjection ledger).positions

/-- The open exposure in the symbols of `S`. -/
def openExposure (engine : Option PerpetualPaperEngine) (S : String → Bool) (books : Books) : ℚ :=
  spotExposure S books + perpetualExposure engine S books.ledger

/-- The exposure of all symbols. -/
def accountExposure (engine : Option PerpetualPaperEngine) (books : Books) : ℚ :=
  openExposure engine (fun _ => true) books

def symbolExposure (engine : Option PerpetualPaperEngine) (symbol : String) (books : Books) : ℚ :=
  openExposure engine (fun s => s = symbol) books

/-! ### Perpetual notional -/

lemma abs_signedQty (side : PositionSide) {qty : ℚ} (h : 0 ≤ qty) : |signedQty side qty| = qty := by
  unfold signedQty
  split
  · exact abs_of_nonneg h
  · rw [abs_neg, abs_of_nonneg h]

lemma notional_openedPosition (contract : PerpetualContract) {old : Option MarginPosition} (symbol : String)
    {side : PositionSide} {qty : ℚ} (hqty : 0 < qty) (entry lev margin : ℚ)
    (hsigned : ∀ pos, old = some pos → pos.Signed) (hadds : ∀ pos, old = some pos → pos.isFlat ∨ pos.side = side) :
    let pos := openedPosition old symbol side qty entry lev margin
    contract.notional pos.quantity pos.avgEntryPrice =
      old.elim 0 (fun p => contract.notional p.quantity p.avgEntryPrice) + contract.notional qty entry := by
  unfold PerpetualContract.notional
  rw [abs_of_pos hqty]
  cases old with
  | none => simp [openedPosition, abs_signedQty side hqty.le]
  | some pos =>
    by_cases hflat : pos.isFlat
    · have hzero := (hsigned pos rfl).flat_quantity hflat
      simp [openedPosition, hflat, abs_signedQty side hqty.le, hzero]
    · have hside : pos.side = side := (hadds pos rfl).resolve_left hflat
      have hsum : 0 < |pos.quantity| + qty := add_pos_of_nonneg_of_pos (abs_nonneg _) hqty
      simp only [openedPosition, hflat, hside, if_true, Bool.false_eq_true, if_false, addToPosition, Option.elim_some,
        abs_signedQty side hsum.le]
      rw [mul_div_cancel₀ _ hsum.ne']
      ring

section Opens

variable {engine : PerpetualPaperEngine} {ledger : Ledger}

lemma perpetualExposure_opened (S : String → Bool) {contract : PerpetualContract} (hs : contract.symbol ≠ "")
    (hcontract : engine.contractOf (some contract.symbol) = contract) (hsigned : SignedAt contract.symbol ledger)
    {side : PositionSide} {qty : ℚ} (hqty : 0 < qty)
    (hadds : ∀ pos, (rebuildFuturesProjection ledger).position contract.symbol = some pos → pos.isFlat ∨ pos.side = side)
    (price leverage : ℚ) (orderId : Option String) (id : String) :
    perpetualExposure (some engine) S (ledger ++ [openTransaction contract side qty price leverage orderId id]) =
      perpetualExposure (some engine) S ledger + if S contract.symbol then contract.notional qty price else 0 := by
  have hunique := rebuildFuturesProjection_unique ledger
  have hsymbol := openedPosition_symbol (rebuildFuturesProjection ledger) contract.symbol side qty price
    (effectiveLeverage leverage contract.maxLeverage) (postedMargin contract qty price leverage)
  have hnotional := notional_openedPosition contract contract.symbol hqty price
    (effectiveLeverage leverage contract.maxLeverage) (postedMargin contract qty price leverage) hsigned hadds
  have hold : rowWeight MarginPosition.symbol (fun pos => if S pos.symbol then engine.notionalOf pos else 0)
      contract.symbol (rebuildFuturesProjection ledger).positions = if S contract.symbol then
        ((rebuildFuturesProjection ledger).position contract.symbol).elim 0
          (fun p => contract.notional p.quantity p.avgEntryPrice) else 0 := by
    unfold rowWeight FuturesSnapshot.position
    cases hp : row MarginPosition.symbol contract.symbol (rebuildFuturesProjection ledger).positions with
    | none => simp
    | some pos => simp [PerpetualPaperEngine.notionalOf, (row_some hp).2, hcontract]
  unfold perpetualExposure
  dsimp only
  rw [rebuildFuturesProjection_append, applyTxn_open _ _ _ _ _ _ _ hs]
  unfold applyOpen
  dsimp only at hnotional ⊢
  generalize openedPosition ((rebuildFuturesProjection ledger).position contract.symbol) contract.symbol side qty price
    (effectiveLeverage leverage contract.maxLeverage) (postedMargin contract qty price leverage) = pos at hsymbol hnotional ⊢
  rw [weight_upsert _ hunique, hsymbol, hold, PerpetualPaperEngine.notionalOf, hsymbol, hcontract, hnotional]
  by_cases hS : S contract.symbol
  · simp only [hS, if_true]
    ring
  · simp only [hS, if_false, Bool.false_eq_true]
    ring

end Opens

/-! ### The ledger of a perpetual order -/

section Execution

variable {db : Db Books}

lemma callCreate_rest (intent : OrderIntent) (mode : TradingMode) (orderId eventId : String) (db : Db Books) :
    (callCreate intent mode orderId eventId db).2.rest = db.rest := by
  unfold callCreate
  cases createFromIntent intent mode orderId eventId db.store <;> rfl

lemma applyFill_rest (quarantined : List String) (ctx : SettleContext) {fill : Fill} (h : fill.isPerpetual = true)
    (ids : FillIds) (db : Db Books) : (applyFill (settleFill quarantined ctx) fill ids db).2.rest = db.rest := by
  unfold applyFill
  cases applyFillTxn fill ids db.store with
  | error e => rfl
  | ok w =>
    obtain ⟨result, s⟩ := w
    dsimp only
    by_cases hnew : result.newlyApplied = true
    · rw [if_pos hnew, settleFill_perpetual _ _ _ h]
    · rw [if_neg hnew]

/-- The books after a call of the paper engine. -/
def Books.called (engine : PerpetualPaperEngine) (call : PerpetualCall × String) (books : Books) : Books :=
  { books with ledger := engine.perform books.ledger call }

/-- The order makes the call of the paper engine, or none, and writes nothing else beside the
order tables. -/
lemma executePerpetualOrder_called (setup : PerpetualSetup) (intent : OrderIntent) (price : ℚ) (positionSide : PositionSide)
    (clientOrderId : String) {ids : PerpetualIds} (hid : ids.transactionId ∉ db.rest.ledger.map LedgerTransaction.transactionId) :
    let db' := (executePerpetualOrder setup intent price positionSide clientOrderId ids none db).2
    db'.rest = db.rest ∨ ∃ engine orderId, setup.engine = some engine ∧ db'.rest = db.rest.called engine
      (positionCall intent (perpetualSide positionSide intent.side) price setup.leverage orderId, ids.transactionId) := by
  intro db'
  generalize hends : (fun db' : Db Books => db'.rest = db.rest ∨ ∃ engine orderId, setup.engine = some engine ∧
    db'.rest = db.rest.called engine
      (positionCall intent (perpetualSide positionSide intent.side) price setup.leverage orderId, ids.transactionId)) = Ends
  suffices hall : Ends db' by
    rw [← hends] at hall
    exact hall
  have hstop : ∀ db', db'.rest = db.rest → Ends db' := by
    rw [← hends]
    exact fun db' h => .inl h
  simp only [db', executePerpetualOrder]
  cases hengine : setup.engine with
  | none => exact hstop db rfl
  | some engine =>
    dsimp only
    by_cases hprice : price ≤ 0
    · rw [if_pos hprice]
      exact hstop db rfl
    rw [if_neg hprice]
    simp only [unlessCut, reduceCtorEq, if_false]
    apply andThen_leads (callCreate_rest intent setup.mode _ _ db) hstop
    intro order db₁ h₁
    apply andThen_leads ((callLifecycle_rest _ _ _ db₁).trans h₁) hstop
    intro _ db₂ h₂
    apply andThen_leads ((callLifecycle_rest _ _ _ db₂).trans h₂) hstop
    intro _ db₃ h₃
    apply andThen_leads ((callLifecycle_rest _ _ _ db₃).trans h₃) hstop
    intro _ db₄ h₄
    have hminted : ids.transactionId ∉ db₄.rest.ledger.map LedgerTransaction.transactionId := by rwa [h₄]
    obtain ⟨result, hmove, -⟩ := movePosition_perform engine intent (perpetualSide positionSide intent.side) price
      setup.leverage order.internalOrderId hminted
    have hmoved : Ends (movePosition engine intent (perpetualSide positionSide intent.side) price setup.leverage
        order.internalOrderId ids.transactionId db₄).2 := by
      rw [← hends, hmove, h₄]
      exact .inr ⟨engine, order.internalOrderId, hengine, rfl⟩
    apply andThen_keeps hmoved
    intro _ db₅ h₅
    generalize hfill : perpetualFill engine intent (perpetualSide positionSide intent.side) price order.internalOrderId
      clientOrderId ids.fillId ids.tradeId = fill
    have hperp : fill.isPerpetual = true := by
      rw [← hfill]
      rfl
    have hfilled : Ends (applyFill (settleFill setup.quarantined setup.settlement) fill ids.fill db₅).2 := by
      rw [← hends] at h₅ ⊢
      dsimp only
      rw [applyFill_rest setup.quarantined setup.settlement hperp]
      exact h₅
    apply andThen_keeps hfilled
    exact fun _ _ h => h

end Execution

/-! ### Books -/

/-- Books that replay to their positions, with no spot position short and every perpetual
position of the sign of its side. -/
structure LongBooks (books : Books) : Prop where
  replayed : ∃ snap, Replayed books snap
  long : ∀ symbol, 0 ≤ books.held symbol
  signed : AllSigned books.ledger

section Writes

variable {books : Books} (h : LongBooks books)
include h

lemma LongBooks.settle (engine : Option PerpetualPaperEngine) (S : String → Bool) (quarantined : List String)
    {ctx : SettleContext} (hfresh : ctx.Fresh) {s : OrderStore} {fill : Fill} (huncut : ctx.interruption fill = none)
    (hnames : Names s fill.orderId fill.symbol fill.side) (hbuy : fill.side = .buy) (hquantity : 0 ≤ fill.quantity)
    (hprice : 0 ≤ fill.price) :
    LongBooks (settleFill quarantined ctx s fill books).2 ∧
      openExposure engine S (settleFill quarantined ctx s fill books).2 ≤
        openExposure engine S books + if S fill.symbol then fill.price * fill.quantity else 0 := by
  obtain ⟨snap, hreplayed⟩ := h.replayed
  have hsell : fill.side = .sell → fill.quantity ≤ books.held fill.symbol := fun hsell => by simp [hbuy] at hsell
  obtain ⟨snap', hreplayed', hwrites⟩ := hreplayed.settle_writes quarantined hfresh huncut
    (fun _ hget => hnames.of_get hget) hsell
  rcases hwrites with hsame | ⟨t, m, pos, hledger, hmeta, hpositions, hsymbol, hheld, hcost⟩
  · rw [hsame]
    refine ⟨h, le_add_of_nonneg_right ?_⟩
    split
    · exact mul_nonneg hprice hquantity
    · exact le_rfl
  · generalize (settleFill quarantined ctx s fill books).2 = books' at hreplayed' hledger hpositions
    have hunmoved : ¬ t.MovesPosition := by simp [LedgerTransaction.MovesPosition, hmeta, LedgerMetadata.action]
    refine ⟨⟨⟨snap', hreplayed'⟩, fun symbol => ?_, ?_⟩, ?_⟩
    · rw [Books.held, hpositions, rowWeight_upsert]
      split
      · rw [hheld, Fill.signed, hbuy]
        exact add_nonneg (h.long fill.symbol) hquantity
      · exact h.long symbol
    · rw [hledger]
      exact h.signed.unmoved hunmoved
    · have hperp : perpetualExposure engine S books'.ledger = perpetualExposure engine S books.ledger := by
        unfold perpetualExposure
        cases engine with
        | none => rfl
        | some engine =>
          dsimp only
          rw [hledger, rebuildFuturesProjection_append, positions_unmoved hunmoved]
      have hold : rowWeight PositionView.symbol (fun pos => if S pos.symbol then pos.costBasis else 0) fill.symbol
          books.positions = if S fill.symbol then books.costOf fill.symbol else 0 := by
        unfold rowWeight Books.costOf rowWeight
        cases hrow : row PositionView.symbol fill.symbol books.positions with
        | none => simp
        | some pos => simp [(row_some hrow).2]
      have hspot : spotExposure S books' = spotExposure S books +
          if S fill.symbol then fill.price * fill.quantity else 0 := by
        unfold spotExposure
        rw [hpositions, weight_upsert _ hreplayed.unique, hsymbol, hold, hcost hbuy]
        split
        · ring
        · ring
      unfold openExposure
      rw [hperp, hspot]
      apply le_of_eq
      ring

lemma LongBooks.called (engine : PerpetualPaperEngine) (call : PerpetualCall × String) :
    LongBooks (books.called engine call) := by
  obtain ⟨snap, hreplayed⟩ := h.replayed
  refine ⟨?_, h.long, h.signed.perform engine call⟩
  unfold Books.called
  rcases engine.perform_cases books.ledger call with hsame | ⟨t, hrec, happend⟩
  · rw [hsame]
    exact ⟨snap, hreplayed⟩
  · rw [happend]
    refine ⟨t.entries.foldl applyEntry snap, ?_, ?_⟩
    · dsimp only
      rw [replayProjections_append hreplayed.replay, applyTransactions_single, applyTransaction_onlyPosts hrec.onlyPosts]
    · exact hreplayed.positions.trans (ProjectionSnapshot.foldl_applyEntry_keeps t.entries snap).1.symm

end Writes

/-- The contract of a symbol is of that symbol, and a unit of it is at most one. -/
def OwnContract (engine : PerpetualPaperEngine) (symbol : String) : Prop :=
  (engine.contractOf (some symbol)).symbol = symbol ∧ (engine.contractOf (some symbol)).contractSize ≤ 1

/-- An order of the symbol opens its position or adds to it. -/
def OpensOrAdds (ledger : Ledger) (symbol : String) (side : PositionSide) : Prop :=
  ∀ pos ∈ (rebuildFuturesProjection ledger).position symbol, pos.isFlat ∨ pos.side = side

lemma LongBooks.opened {books : Books} (h : LongBooks books) (S : String → Bool) {engine : PerpetualPaperEngine}
    {intent : OrderIntent} (hopen : intent.reduceOnly = false) (hquantity : 0 < intent.quantity)
    (hown : OwnContract engine intent.symbol) {side : PositionSide}
    (hadds : OpensOrAdds books.ledger intent.symbol side) {price : ℚ} (hprice : 0 < price) (leverage : ℚ)
    (orderId minted : String) :
    openExposure (some engine) S (books.called engine (positionCall intent side price leverage orderId, minted)) ≤
      openExposure (some engine) S books + if S intent.symbol then price * intent.quantity else 0 := by
  have hnonneg : 0 ≤ if S intent.symbol then price * intent.quantity else 0 := by
    split
    · exact (mul_pos hprice hquantity).le
    · exact le_rfl
  have hledger : (books.called engine (positionCall intent side price leverage orderId, minted)).ledger =
      if engine.OpenRecords books.ledger side (some intent.symbol) minted then
        books.ledger ++ [openTransaction (engine.contractOf (some intent.symbol)) side |intent.quantity| price leverage
          (some orderId) minted]
      else books.ledger := by
    simp only [Books.called, positionCall, hopen, Bool.false_eq_true, if_false, PerpetualPaperEngine.perform,
      engine.openPosition_ledger]
  have hspot : spotExposure S (books.called engine (positionCall intent side price leverage orderId, minted)) =
    spotExposure S books := rfl
  unfold openExposure
  rw [hspot, hledger, add_assoc]
  apply add_le_add_right
  by_cases hrecords : engine.OpenRecords books.ledger side (some intent.symbol) minted
  · rw [if_pos hrecords]
    obtain ⟨hsymbol, hsize⟩ := hown
    generalize hcontract : engine.contractOf (some intent.symbol) = contract at hsymbol hsize
    by_cases hs : contract.symbol = ""
    · unfold perpetualExposure
      dsimp only
      rw [rebuildFuturesProjection_append, applyTxn_nameless _ (by simp [openTransaction, LedgerMetadata.symbol, hs])]
      exact le_add_of_nonneg_right hnonneg
    · rw [abs_of_pos hquantity, perpetualExposure_opened S hs (by rw [hsymbol, hcontract]) (h.signed contract.symbol)
        hquantity (by rw [hsymbol]; exact hadds), hsymbol]
      apply add_le_add_right
      by_cases hS : S intent.symbol
      · rw [if_pos hS, if_pos hS, PerpetualContract.notional, abs_of_pos hquantity]
        have hvalue : 0 ≤ price * intent.quantity := (mul_pos hprice hquantity).le
        calc intent.quantity * price * contract.contractSize = price * intent.quantity * contract.contractSize := by ring
          _ ≤ price * intent.quantity * 1 := mul_le_mul_of_nonneg_left hsize hvalue
          _ = price * intent.quantity := mul_one _
      · rw [if_neg hS, if_neg hS]
  · rw [if_neg hrecords]
    exact le_add_of_nonneg_right hnonneg

/-! ### The check -/

/-- An order that widens the exposure is approved only if its notional and the cost of the
positions in the symbols of `S` stay within the limit. -/
def ChecksLimit (config : RiskConfig) (S : String → Bool) (limit : ℚ) : Prop :=
  ∀ signal input, S signal.symbol → (input.positions.map PositionView.symbol).Nodup → Approved config signal input →
    |input.signedQty signal.symbol| < |input.projectedQty signal| →
      weight (fun pos => if S pos.symbol then pos.costBasis else 0) input.positions +
        checkPrice signal input.marketPrice * signal.quantity ≤ limit

lemma checksLimit_account (config : RiskConfig) : ChecksLimit config (fun _ => true) config.maxAccountExposure := by
  intro signal input _ _ happroved hwider
  simp only [if_true]
  exact (happroved.exposure hwider).2

lemma checksLimit_symbol (config : RiskConfig) (symbol : String) :
    ChecksLimit config (fun s => s = symbol) config.maxSymbolExposure := by
  intro signal input hs hunique happroved hwider
  have hsymbol : signal.symbol = symbol := of_decide_eq_true hs
  have hweight := weight_of_key PositionView.costBasis hunique symbol
  have hcheck := (happroved.exposure hwider).1
  simp only [decide_eq_true_eq]
  rw [hweight, ← hsymbol]
  unfold rowWeight
  exact (add_le_add_left (le_abs_self _) _).trans hcheck

/-- The notionals of the orders in the symbols of `S`, at the price of the check. -/
def exposureOf (prices : String → ℚ) (S : String → Bool) : Valuation where
  approved a := if S a.signal.symbol then checkPrice a.signal (prices a.signal.symbol) * a.signal.quantity else 0
  working w := if S w.symbol then orDecimal w.price (prices w.symbol) * w.remaining else 0
  fill f := if S f.symbol then f.price * f.quantity else 0

/-- Prices are constant, and signals buy spot, or open perpetual positions and add to them. A
settlement runs through. -/
def WideningTurn (config : RiskConfig) (prices : String → ℚ) : FlowTurn → Prop
  | .decide signal env => env.config = config ∧ env.marketPrice = prices signal.symbol ∧ match signal.marketType with
    | .spot => signal.side = .buy
    | .perpetual => signal.isReduceOnly = false ∧ checkPrice signal env.marketPrice = env.marketPrice
  | .settle _ ctx => ctx.Fresh ∧ ∀ f, ctx.interruption f = none
  | _ => True

/-- Orders are executed at the price of the check, and perpetual ones do not net. -/
def ExecutesChecked (prices : String → ℚ) (st : OrderFlow) : FlowTurn → Prop
  | .submit n ids => ids.transactionId ∉ st.db.rest.ledger.map LedgerTransaction.transactionId ∧
    ∀ a ∈ st.approved[n]?, a.signal.marketType = .perpetual →
      OpensOrAdds st.db.rest.ledger a.signal.symbol (perpetualSide a.signal.positionSide a.signal.side)
  | .execute n fill => 0 ≤ fill.quantity ∧ ∀ w ∈ st.working[n]?, fill.price = orDecimal w.price (prices w.symbol)
  | _ => True

structure ExposureTurn (config : RiskConfig) (prices : String → ℚ) (st : OrderFlow) (turn : FlowTurn) : Prop where
  reports : ReportsOrder st turn
  widens : WideningTurn config prices turn
  executes : ExecutesChecked prices st turn

/-- No perpetual position is open in the symbols of `S`, and no order is under way. -/
structure NothingUnseen (prices : String → ℚ) (S : String → Bool) (st : OrderFlow) : Prop where
  flat : ∀ pos ∈ (rebuildFuturesProjection st.db.rest.ledger).positions, S pos.symbol → pos.quantity = 0
  settled : st.outstanding (exposureOf prices S) = 0

/-- A signal is approved in a contract of its own, and its symbol is in `S` only if the check
sees the exposure in `S`. -/
def Seen (prices : String → ℚ) (S : String → Bool) (setup : PerpetualSetup) (st : OrderFlow) : FlowTurn → Prop
  | .decide signal env => st.db.store.getByClient (clientOrderId signal) = none → Approves setup.engine env signal st.db →
      (signal.marketType = .perpetual → ∀ engine ∈ setup.engine, OwnContract engine signal.symbol) ∧
        (S signal.symbol → NothingUnseen prices S st)
  | _ => True

/-! ### What is under way -/

/-- An approved signal that buys, or opens a perpetual position. -/
structure ApprovedSignal.Widens (prices : String → ℚ) (setup : PerpetualSetup) (a : ApprovedSignal) : Prop where
  quantity : 0 < a.signal.quantity
  price : 0 < checkPrice a.signal (prices a.signal.symbol)
  spot : a.signal.marketType = .spot → a.signal.side = .buy
  perpetual : a.signal.marketType = .perpetual → a.signal.isReduceOnly = false ∧
    a.marketPrice = checkPrice a.signal (prices a.signal.symbol) ∧ ∀ engine ∈ setup.engine, OwnContract engine a.signal.symbol

structure WorkingOrder.Buys (prices : String → ℚ) (w : WorkingOrder) : Prop where
  side : w.side = .buy
  price : 0 < orDecimal w.price (prices w.symbol)
  remaining : 0 ≤ w.remaining

structure Fill.Buys (f : Fill) : Prop where
  side : f.side = .buy
  price : 0 ≤ f.price
  quantity : 0 ≤ f.quantity

lemma orDecimal_congr {p q : Option ℚ} (h : p.getD 0 = q.getD 0) (default : ℚ) : orDecimal p default = orDecimal q default := by
  have hget (p : Option ℚ) : orDecimal p default = if p.getD 0 = 0 then default else p.getD 0 := by
    cases p with
    | none => simp [orDecimal]
    | some q => rfl
  rw [hget, hget, h]

section Steps

variable {config : RiskConfig} {prices : String → ℚ} {S : String → Bool} {setup : PerpetualSetup} {st st' : OrderFlow}
  {turn : FlowTurn}

lemma exposureOf_submits : (exposureOf prices S).Submits := by
  intro a s order _ horder
  have hsymbol : order.symbol = a.signal.symbol := horder.symbol
  have hquantity : order.quantity = a.signal.quantity := horder.quantity
  have hprice : orDecimal order.price (prices a.signal.symbol) = checkPrice a.signal (prices a.signal.symbol) :=
    orDecimal_congr horder.price _
  simp only [exposureOf, WorkingOrder.ofOrder, hsymbol, hquantity, hprice]

lemma handsOn_exposure (hturn : ExposureTurn config prices st turn) (hseen : Seen prices S setup st turn) :
    HandsOn (ApprovedSignal.Widens prices setup) (WorkingOrder.Buys prices) Fill.Buys setup st turn := by
  constructor
  · rintro signal env rfl hnew happrove
    obtain ⟨-, hprice, hmarket⟩ := hturn.widens
    have happroval := happrove.approval
    obtain ⟨account, -, happroved⟩ := happroval.replays
    have hpositive : 0 < checkPrice signal (prices signal.symbol) := by
      rw [← hprice]
      exact happroved.price
    refine ⟨happroved.quantity, hpositive, fun hspot => ?_, fun hperp => ?_⟩
    · dsimp only at hspot
      rwa [hspot] at hmarket
    · dsimp only at hperp
      rw [hperp] at hmarket
      refine ⟨hmarket.1, ?_, (hseen hnew happrove).1 hperp⟩
      dsimp only
      rw [← hprice, hmarket.2]
  · intro a s order hspot horder ha
    have hsymbol : order.symbol = a.signal.symbol := horder.symbol
    refine ⟨horder.side.trans (ha.spot hspot), ?_, ?_⟩
    · have hprice : orDecimal order.price (prices a.signal.symbol) = checkPrice a.signal (prices a.signal.symbol) :=
        orDecimal_congr horder.price _
      simp only [WorkingOrder.ofOrder, hsymbol, hprice]
      exact ha.price
    · exact (horder.quantity.trans_ge ha.quantity.le)
  · rintro n fill w rfl hw hle hbuys
    obtain ⟨hquantity, hprice⟩ := hturn.executes
    obtain ⟨-, hsymbol, hside⟩ := hturn.reports w hw
    refine ⟨⟨hbuys.side, hbuys.price, sub_nonneg.mpr hle⟩, hside.trans hbuys.side, ?_, hquantity⟩
    rw [hprice w hw]
    exact hbuys.price.le

lemma UnderWay.exposure
    (h : UnderWay (ApprovedSignal.Widens prices setup) (WorkingOrder.Buys prices) Fill.Buys st) :
    (exposureOf prices S).Nonneg st := by
  have hfill (f : Fill) (hf : f.Buys) : 0 ≤ (exposureOf prices S).fill f :=
    ite_nonneg (mul_nonneg hf.price hf.quantity) le_rfl
  constructor
  · intro a ha
    have hwidens := h.approved a ha
    exact ite_nonneg (mul_pos hwidens.price hwidens.quantity).le le_rfl
  · intro w hw
    have hbuys := h.working w hw
    exact ite_nonneg (mul_nonneg hbuys.price.le hbuys.remaining) le_rfl
  · exact fun f hf => hfill f (h.queued f hf)
  · exact fun f hf => hfill f (h.unsettled f hf)

lemma exposureOf_splits (h : UnderWay (ApprovedSignal.Widens prices setup) (WorkingOrder.Buys prices) Fill.Buys st)
    (hturn : ExposureTurn config prices st turn) : (exposureOf prices S).Splits setup st turn := by
  cases turn with
  | decide signal env =>
    intro happrove
    obtain ⟨account, -, happroved⟩ := happrove.approval.replays
    have hprice : 0 < checkPrice signal (prices signal.symbol) := hturn.widens.2.1 ▸ happroved.price
    exact ite_nonneg (mul_pos hprice happroved.quantity).le le_rfl
  | execute n fill =>
    intro w hw hle
    obtain ⟨hquantity, hprice⟩ := hturn.executes
    obtain ⟨-, hsymbol, -⟩ := hturn.reports w hw
    have hbuys := h.working w (List.mem_of_getElem? hw)
    simp only [exposureOf, WorkingOrder.after, hsymbol, hprice w hw]
    split
    · refine ⟨mul_nonneg hbuys.price.le hquantity, mul_nonneg hbuys.price.le (sub_nonneg.mpr hle), ?_⟩
      ring
    · exact ⟨le_rfl, le_rfl, add_zero 0⟩
  | _ => trivial

/-! ### One turn -/

/-- The exposure in the symbols of `S` and what is under way of it are within the limit. -/
structure WithinLimit (prices : String → ℚ) (S : String → Bool) (limit : ℚ) (setup : PerpetualSetup) (st : OrderFlow) :
    Prop where
  tracked : OrdersKnown st
  books : LongBooks st.db.rest
  underWay : UnderWay (ApprovedSignal.Widens prices setup) (WorkingOrder.Buys prices) Fill.Buys st
  within : openExposure setup.engine S st.db.rest + st.outstanding (exposureOf prices S) ≤ limit

lemma perpetualExposure_flat (engine : Option PerpetualPaperEngine) {ledger : Ledger}
    (hflat : ∀ pos ∈ (rebuildFuturesProjection ledger).positions, S pos.symbol → pos.quantity = 0) :
    perpetualExposure engine S ledger = 0 := by
  unfold perpetualExposure
  cases engine with
  | none => rfl
  | some engine =>
    apply List.sum_eq_zero
    intro x hx
    obtain ⟨pos, hpos, rfl⟩ := List.mem_map.mp hx
    split
    · rename_i hS
      rw [PerpetualPaperEngine.notionalOf, PerpetualContract.notional, hflat pos hpos hS, abs_zero, zero_mul, zero_mul]
    · rfl

/-- The check takes a buy, and an order in a symbol without a perpetual position, for one
that widens the exposure. -/
lemma LongBooks.widens {db : Db Books} (h : LongBooks db.rest) (engine : Option PerpetualPaperEngine) (env : SignalEnv)
    {signal : SignalIntent} (hquantity : 0 < signal.quantity) (hspot : signal.marketType = .spot → signal.side = .buy)
    (hflat : ∀ pos ∈ (rebuildFuturesProjection db.rest.ledger).positions, pos.symbol = signal.symbol → pos.quantity = 0)
    (equity : ℚ) :
    |(riskInput engine env signal equity db).signedQty signal.symbol| <
      |(riskInput engine env signal equity db).projectedQty signal| := by
  have hcurrent : (riskInput engine env signal equity db).signedQty signal.symbol =
    currentSignedQuantity engine signal.marketType signal.symbol db.rest := rfl
  unfold RiskInput.projectedQty
  rw [hcurrent]
  cases hmarket : signal.marketType with
  | spot =>
    have hheld : 0 ≤ currentSignedQuantity engine .spot signal.symbol db.rest := h.long signal.symbol
    rw [hspot hmarket, abs_of_nonneg hheld]
    exact (lt_add_of_pos_right _ hquantity).trans_le (le_abs_self _)
  | perpetual =>
    have hzero : currentSignedQuantity engine .perpetual signal.symbol db.rest = 0 := by
      unfold currentSignedQuantity
      cases engine with
      | none => rfl
      | some engine =>
        dsimp only
        cases hpos : (rebuildFuturesProjection db.rest.ledger).position signal.symbol with
        | none => rfl
        | some pos =>
          dsimp only
          rw [hflat pos (row_some hpos).1 (row_some hpos).2, ite_self]
    rw [hzero, abs_zero, zero_add, abs_pos]
    cases signal.side with
    | buy => exact hquantity.ne'
    | sell => exact neg_ne_zero.mpr hquantity.ne'

lemma WithinLimit.added {limit : ℚ} (h : WithinLimit prices S limit setup st) (hlimit : ChecksLimit config S limit)
    (hturn : ExposureTurn config prices st turn) (hseen : Seen prices S setup st turn) :
    openExposure setup.engine S st.db.rest + (st.outstanding (exposureOf prices S) + added (exposureOf prices S) setup st turn) ≤
      limit := by
  have hwithin := h.within
  obtain hnone | ⟨signal, env, rfl, hclient, happrove, hadded⟩ := added_cases (exposureOf prices S) setup st turn
  · rwa [hnone, add_zero]
  · rw [hadded]
    by_cases hS : S signal.symbol = true
    · obtain ⟨hflat, hsettled⟩ := (hseen hclient happrove).2 hS
      obtain ⟨hconfig, hprice, hmarket⟩ := hturn.widens
      obtain ⟨account, -, happroved⟩ := happrove.approval.replays
      obtain ⟨snap, hreplayed⟩ := h.books.replayed
      have hbuys : signal.marketType = .spot → signal.side = .buy := by
        intro hspot
        rwa [hspot] at hmarket
      have hwider := h.books.widens setup.engine env happroved.quantity hbuys
        (fun pos hpos hs => hflat pos hpos (hs ▸ hS)) account.equity
      rw [hconfig] at happroved
      have hchecked := hlimit signal _ hS hreplayed.unique happroved hwider
      have hvalue : (exposureOf prices S).approved ⟨signal, env.marketPrice, env.runId⟩ =
        checkPrice signal (prices signal.symbol) * signal.quantity := if_pos hS
      rw [hsettled, zero_add, hvalue, openExposure, perpetualExposure_flat setup.engine hflat, add_zero, ← hprice]
      exact hchecked
    · have hvalue : (exposureOf prices S).approved ⟨signal, env.marketPrice, env.runId⟩ = 0 := if_neg hS
      rwa [hvalue, add_zero]

lemma FlowEffect.books (h : FlowEffect setup st turn st') (ht : OrdersKnown st) (hbooks : LongBooks st.db.rest)
    (hunder : UnderWay (ApprovedSignal.Widens prices setup) (WorkingOrder.Buys prices) Fill.Buys st)
    (hturn : ExposureTurn config prices st turn) :
    LongBooks st'.db.rest ∧ openExposure setup.engine S st'.db.rest ≤
      openExposure setup.engine S st.db.rest + released (exposureOf prices S) st turn := by
  have hreleased := (hunder.exposure (S := S)).released turn
  have hsame : st'.db.rest = st.db.rest → LongBooks st'.db.rest ∧ openExposure setup.engine S st'.db.rest ≤
      openExposure setup.engine S st.db.rest + released (exposureOf prices S) st turn := by
    intro hrest
    rw [hrest]
    exact ⟨hbooks, le_add_of_nonneg_right hreleased⟩
  have heff := h
  cases h with
  | perpetual n ids a ha hperp =>
    obtain ⟨hminted, hadds⟩ := hturn.executes
    have hwidens := hunder.approved a (List.mem_of_getElem? ha)
    obtain ⟨hopen, hprice, hown⟩ := hwidens.perpetual hperp
    rcases executePerpetualOrder_called setup a.intent a.marketPrice a.signal.positionSide (clientOrderId a.signal) hminted
      with hrest | ⟨engine, orderId, hengine, hrest⟩
    · exact hsame hrest
    · have hvalue : released (exposureOf prices S) st (.submit n ids) =
          if S a.signal.symbol then a.marketPrice * a.signal.quantity else 0 := by
        simp only [released, ha, hperp, if_true, exposureOf, hprice]
      rw [hvalue]
      dsimp only
      rw [hrest, hengine]
      refine ⟨hbooks.called engine _, ?_⟩
      have hpositive : 0 < a.marketPrice := by
        rw [hprice]
        exact hwidens.price
      exact hbooks.opened S (show a.intent.reduceOnly = false from hopen) hwidens.quantity (hown engine hengine) (hadds a ha hperp) hpositive
        setup.leverage orderId ids.transactionId
  | settled n ctx fill hf =>
    obtain ⟨hfresh, huncut⟩ := hturn.widens
    have hmem := List.mem_of_getElem? hf
    have hbuys := hunder.unsettled fill hmem
    have hvalue : released (exposureOf prices S) st (.settle n ctx) = if S fill.symbol then fill.price * fill.quantity else 0 := by
      simp only [released, hf, Option.elim_some, exposureOf]
    rw [hvalue]
    exact hbooks.settle setup.engine S setup.quarantined hfresh (huncut fill) (ht.unsettled fill hmem) hbuys.side
      hbuys.quantity hbuys.price
  | submitted n ids a order db ha hspot honly horder =>
    apply hsame (heff.rest (by simp) _)
    rintro b n' ids' hb ⟨rfl, rfl⟩
    obtain rfl : a = b := Option.some.inj (ha.symm.trans hb)
    exact hspot
  | failed n ids a db ha hspot honly =>
    apply hsame (heff.rest (by simp) _)
    rintro b n' ids' hb ⟨rfl, rfl⟩
    obtain rfl : a = b := Option.some.inj (ha.symm.trans hb)
    exact hspot
  | recorded orderId l minted db honly => exact hsame honly.2
  | _ => exact hsame rfl

lemma WithinLimit.step {limit : ℚ} (h : WithinLimit prices S limit setup st) (hlimit : ChecksLimit config S limit)
    (hturn : ExposureTurn config prices st turn) (hseen : Seen prices S setup st turn) :
    WithinLimit prices S limit setup (flowStep setup st turn) := by
  have heff := flow_effect setup h.tracked.keys turn
  obtain ⟨hbooks, hopen⟩ := heff.books (S := S) h.tracked h.books h.underWay hturn
  have hunder := heff.outstanding_le (v := exposureOf prices S) h.underWay.exposure (fun _ _ _ => exposureOf_submits)
    (exposureOf_splits h.underWay hturn)
  have hadded := h.added hlimit hturn hseen
  refine ⟨heff.tracked h.tracked hturn.reports, hbooks, heff.underWay h.underWay (handsOn_exposure hturn hseen), ?_⟩
  linarith

end Steps

/-- Within `S` the exposure stays within a limit that the check enforces, if the check sees
the exposure whenever it approves. -/
lemma exposure_within {config : RiskConfig} {prices : String → ℚ} {S : String → Bool} {limit : ℚ}
    {setup : PerpetualSetup} {db : Db Books} (hkeys : UniqueKeys db.store) (hbooks : LongBooks db.rest)
    (hlimit : ChecksLimit config S limit) (hstart : openExposure setup.engine S db.rest ≤ limit) {turns : List FlowTurn}
    (hturns : Along (flowStep setup) (ExposureTurn config prices) { db } turns)
    (hseen : Along (flowStep setup) (Seen prices S setup) { db } turns) :
    Visits (flowStep setup) (fun st => openExposure setup.engine S st.db.rest ≤ limit) { db } turns := by
  have hinitial : WithinLimit prices S limit setup { db } := by
    refine ⟨⟨hkeys, by simp, by simp, by simp⟩, hbooks, ⟨by simp, by simp, by simp, by simp⟩, ?_⟩
    simpa [OrderFlow.outstanding] using hstart
  have hwithin := visits_of_along (fun st turn h hc => WithinLimit.step h hlimit hc.1 hc.2) hinitial
    (along_and.mpr ⟨hturns, hseen⟩)
  refine hwithin.mono (fun st h => ?_)
  exact (le_add_of_nonneg_right h.underWay.exposure.outstanding).trans h.within

/-- Over every run of buys, opens and adds that are executed at the prices they are checked
at, the exposure of the account stays within its limit if the check sees all exposure
whenever it approves, and that of a symbol if the check sees the symbol's. -/
theorem exposure_within_along {config : RiskConfig} {prices : String → ℚ} {setup : PerpetualSetup} {db : Db Books}
    {snap : ProjectionSnapshot} (hkeys : UniqueKeys db.store) (hreplayed : Replayed db.rest snap)
    (hlong : ∀ symbol, 0 ≤ db.rest.held symbol) (hfutures : ReachableFutures db.rest.ledger) {turns : List FlowTurn}
    (hturns : Along (flowStep setup) (ExposureTurn config prices) { db } turns) :
    (accountExposure setup.engine db.rest ≤ config.maxAccountExposure →
      Along (flowStep setup) (Seen prices (fun _ => true) setup) { db } turns →
        Visits (flowStep setup) (fun st => accountExposure setup.engine st.db.rest ≤ config.maxAccountExposure) { db }
          turns) ∧
    ∀ symbol, symbolExposure setup.engine symbol db.rest ≤ config.maxSymbolExposure →
      Along (flowStep setup) (Seen prices (fun s => s = symbol) setup) { db } turns →
        Visits (flowStep setup) (fun st => symbolExposure setup.engine symbol st.db.rest ≤ config.maxSymbolExposure) { db }
          turns := by
  have hbooks : LongBooks db.rest := ⟨⟨snap, hreplayed⟩, hlong, hfutures.allSigned⟩
  constructor
  · exact fun hstart hseen => exposure_within hkeys hbooks (checksLimit_account config) hstart hturns hseen
  · exact fun symbol hstart hseen => exposure_within hkeys hbooks (checksLimit_symbol config symbol) hstart hturns hseen

/-! ### Opens of one symbol -/

instance (prices : String → ℚ) (S : String → Bool) (st : OrderFlow) : Decidable (NothingUnseen prices S st) :=
  decidable_of_iff ((∀ pos ∈ (rebuildFuturesProjection st.db.rest.ledger).positions, S pos.symbol → pos.quantity = 0) ∧
    st.outstanding (exposureOf prices S) = 0) ⟨fun h => ⟨h.1, h.2⟩, fun h => ⟨h.flat, h.settled⟩⟩

instance (engine : PerpetualPaperEngine) (symbol : String) : Decidable (OwnContract engine symbol) :=
  inferInstanceAs (Decidable (_ ∧ _))

instance (ledger : Ledger) (symbol : String) (side : PositionSide) : Decidable (OpensOrAdds ledger symbol side) :=
  inferInstanceAs (Decidable (∀ pos ∈ (rebuildFuturesProjection ledger).position symbol, _))

instance (prices : String → ℚ) (S : String → Bool) (setup : PerpetualSetup) (st : OrderFlow) :
    ∀ turn, Decidable (Seen prices S setup st turn)
  | .decide _ _ => inferInstanceAs (Decidable (_ → _ → _))
  | .submit _ _ | .transition _ _ _ | .execute _ _ | .withdraw _ | .apply _ _ | .settle _ _ => .isTrue trivial

instance (prices : String → ℚ) (st : OrderFlow) : ∀ turn, Decidable (ExecutesChecked prices st turn)
  | .submit _ _ => inferInstanceAs (Decidable (_ ∧ _))
  | .execute _ _ => inferInstanceAs (Decidable (_ ∧ _))
  | .decide _ _ | .transition _ _ _ | .withdraw _ | .apply _ _ | .settle _ _ => .isTrue trivial

/-- An open of a long of 6000 contracts. -/
def largeOpen (signalId : String) : SignalIntent where
  signalId := signalId
  strategyId := "trend"
  symbol := "BTCUSDT_PERP"
  side := .buy
  quantity := 6000
  marketType := .perpetual

/-- A unit of spot is bought and settled, and a long is opened. -/
def boughtAndOpened : List FlowTurn :=
  [.decide (unitSignal "s1" .buy) unitEnv, .submit 0 (attemptIds 1)] ++ unitSettled 1 0 .buy ++
    [.decide (largeOpen "s2") unitEnv, .submit 0 (attemptIds 2)]

/-- The account may have no more exposure than a symbol. -/
def tightEnv : SignalEnv :=
  { unitEnv with config := { maxAccountExposure := 1000000 } }

/-- A long is opened, and as much is added to it. -/
def openedTwice : List FlowTurn :=
  [.decide (largeOpen "s1") tightEnv, .submit 0 (attemptIds 1), .decide (largeOpen "s2") tightEnv, .submit 0 (attemptIds 2)]

lemma exposureTurns {config : RiskConfig} {prices : String → ℚ} {setup : PerpetualSetup} {st : OrderFlow}
    {turns : List FlowTurn} (hreports : Along (flowStep setup) ReportsOrder st turns)
    (hexecutes : Along (flowStep setup) (ExecutesChecked prices) st turns)
    (hwidens : ∀ turn ∈ turns, WideningTurn config prices turn) :
    Along (flowStep setup) (ExposureTurn config prices) st turns := by
  have hall := along_and.mpr ⟨hreports, along_and.mpr ⟨along_of_forall hwidens, hexecutes⟩⟩
  exact hall.mono (fun st turn h => ⟨h.1, h.2.1, h.2.2⟩)

theorem exposure_within_opened :
    Visits (flowStep paperSetup) (fun st => accountExposure paperSetup.engine st.db.rest ≤ 5000000) { db := ⟨{}, {}⟩ }
      boughtAndOpened ∧
    Visits (flowStep paperSetup) (fun st => symbolExposure paperSetup.engine "BTCUSDT_PERP" st.db.rest ≤ 1000000)
      { db := ⟨{}, {}⟩ } boughtAndOpened := by
  have hreplayed : Replayed {} {} := ⟨rfl, rfl⟩
  have hturns : Along (flowStep paperSetup) (ExposureTurn {} (fun _ => 100)) { db := ⟨{}, {}⟩ } boughtAndOpened := by
    apply exposureTurns (by decide +kernel) (by decide +kernel)
    simp [boughtAndOpened, unitSettled, unitSignal, largeOpen, WideningTurn, unitEnv, runningEnv, checkPrice, orDecimal,
      SignalIntent.isReduceOnly, cutContext_fresh, uncutContext]
  have hwithin := exposure_within_along ⟨by simp, by simp⟩ hreplayed (fun _ => le_rfl) ⟨[], trivial, rfl⟩ hturns
  exact ⟨hwithin.1 (by decide +kernel) (by decide +kernel), hwithin.2 "BTCUSDT_PERP" (by decide +kernel) (by decide +kernel)⟩

/-- Each open is within the limits and the spot positions have no cost, so both are
approved. -/
theorem second_open_exceeds_limits :
    Along (flowStep paperSetup) (ExposureTurn tightEnv.config (fun _ => 100)) { db := ⟨{}, {}⟩ } openedTwice ∧
      ¬ Visits (flowStep paperSetup) (fun st => accountExposure paperSetup.engine st.db.rest ≤
        tightEnv.config.maxAccountExposure) { db := ⟨{}, {}⟩ } openedTwice ∧
      ¬ Visits (flowStep paperSetup) (fun st => symbolExposure paperSetup.engine "BTCUSDT_PERP" st.db.rest ≤
        tightEnv.config.maxSymbolExposure) { db := ⟨{}, {}⟩ } openedTwice := by
  refine ⟨?_, fun h => absurd h.last (by decide +kernel), fun h => absurd h.last (by decide +kernel)⟩
  apply exposureTurns (by decide +kernel) (by decide +kernel)
  simp [openedTwice, largeOpen, WideningTurn, tightEnv, unitEnv, runningEnv, checkPrice, orDecimal,
    SignalIntent.isReduceOnly]

end CryptoTrader
