import CryptoTrader.Ledger.Projections
import CryptoTrader.Runtime.RecoveryTurn

/-!
# Settling fills in the ledger

`_settle_fill`, the settlement callback the engine gives its order manager, with the
points where a crash or an exception can cut it short.
-/

namespace CryptoTrader

open KeyedTable OrderStore

/-- The ids minted in a settlement. -/
structure LedgerIds where
  eventId : String
  transactionId : String
  deriving DecidableEq, Repr

/-- A settlement is cut short before the commit of its transaction, or after it. -/
inductive Interruption where
  | beforeCommit (e : TradingError)
  | afterCommit (e : TradingError)
  deriving DecidableEq, Repr

/-- What a run of the engine brings to its settlements: the balances it replays from, the
ids `new_id` returns, and where each fill's settlement is cut short. -/
structure SettleContext where
  initialBalances : Balances
  newIds : Ledger → LedgerIds
  interruption : Fill → Option Interruption

/-- `new_id` never returns an id that is in the ledger. -/
def SettleContext.Fresh (ctx : SettleContext) : Prop :=
  ∀ ledger : Ledger, (ctx.newIds ledger).eventId ≠ "" ∧
    (∀ t ∈ ledger, t.eventId ≠ some (ctx.newIds ledger).eventId) ∧
    (ctx.newIds ledger).transactionId ∉ ledger.map LedgerTransaction.transactionId

/-- `str(payload.get("market_type")) == "PERPETUAL"`. -/
def Fill.isPerpetual (fill : Fill) : Bool :=
  fill.payload.lookup "market_type" == some MarketType.perpetual.value

/-- `cost_released`: a sale releases its quantity at the average entry price, or at the
fill's price where there is none. -/
def costReleased (order : Order) (fill : Fill) (position : Option PositionView) : Option ℚ :=
  match order.side with
  | .buy => none
  | .sell =>
    let avgEntry := match position with
      | some p => orDecimal p.avgEntryPrice fill.price
      | none => fill.price
    some (avgEntry * fill.quantity)

/-- The arguments of the settlement's `record`. -/
def settleArgs (order : Order) (fill : Fill) (metadata : TradeMetadata) (ids : LedgerIds) : RecordArgs where
  orderId := some order.internalOrderId
  fillId := some fill.fillId
  eventId := some ids.eventId
  metadata := .trade { metadata with baseAsset := some (order.symbol.replace "USDT" "") }

/-- From the position read to the refresh of the projections. -/
def postTrade (ctx : SettleContext) (order : Order) (fill : Fill) (books : Books) :
    Except TradingError Unit × Books :=
  match buildTradeEntries order.side order.symbol (orElseNew fill.feeCurrency "USDT") fill.price fill.quantity
      fill.fee (costReleased order fill (books.getPosition fill.symbol)) with
  | .error e => (.error e, books)
  | .ok (postings, metadata) =>
    let ids := ctx.newIds books.ledger
    match record .trade postings (settleArgs order fill metadata ids) ids.transactionId books.ledger with
    | .error e => (.error e, books)
    | .ok (_, ledger) =>
      match ctx.interruption fill with
      | some (.afterCommit e) => (.error e, { books with ledger })
      | _ => { books with ledger }.refresh ctx.initialBalances

def settleFill (quarantined : List String) (ctx : SettleContext) : SettlementCallback Books :=
  fun s fill books =>
    -- a perpetual fill is settled by the futures ledger
    if fill.isPerpetual then (.ok (), books)
    else
      match s.get fill.orderId with
      | none => (.ok (), books)
      | some order =>
        if fill.fillId ∈ quarantined then (.ok (), books)
        else
          match ctx.interruption fill with
          | some (.beforeCommit e) => (.error e, books)
          | _ => postTrade ctx order fill books

/-- A recovery whose fills the engine settles. -/
def settlingEnv (quarantined : List String) (ctx : SettleContext) (env : RecoveryEnv Books) : RecoveryEnv Books :=
  { env with settle := settleFill quarantined ctx }

section

variable {quarantined : List String} {ctx : SettleContext} {env : RecoveryEnv Books}

@[simp] lemma settlingEnv_settle : (settlingEnv quarantined ctx env).settle = settleFill quarantined ctx := rfl

@[simp] lemma settlingEnv_newIds : (settlingEnv quarantined ctx env).newIds = env.newIds := rfl

@[simp] lemma settlingEnv_answer (o : Order) : (settlingEnv quarantined ctx env).answer o = env.answer o := rfl

end

/-- The settlement of the fill gets as far as the commit of its transaction. -/
structure ReachesLedger (ctx : SettleContext) (s : OrderStore) (fill : Fill) : Prop where
  order : s.get fill.orderId ≠ none
  uncut : ∀ e, ctx.interruption fill ≠ some (.beforeCommit e)

/-- The fill is a spot fill of the order, and is not quarantined. -/
structure Settles (quarantined : List String) (s : OrderStore) (fill : Fill) (order : Order) : Prop where
  spot : fill.isPerpetual = false
  order : s.get fill.orderId = some order
  admitted : fill.fillId ∉ quarantined

/-- The transaction that settles the fill `f`. -/
def SettledBy (f : Fill) (t : LedgerTransaction) : Prop :=
  t.entryType = .trade ∧ t.fillId = some f.fillId

/-- The transaction that a settlement of the order's fill appends, with the cost it releases. -/
structure TradeOf (order : Order) (fill : Fill) (cost : ℚ) (t : LedgerTransaction) (m : TradeMetadata) : Prop where
  settled : SettledBy fill t
  metadata : t.metadata = .trade m
  symbol : m.symbol = order.symbol
  side : m.side = order.side
  quantity : m.quantity = fill.quantity
  price : m.price = fill.price
  baseAsset : m.baseAsset = some (order.symbol.replace "USDT" "")
  entries : t.entries = match order.side with
    | .buy => buyPostings order.symbol (orElseNew fill.feeCurrency "USDT") (fill.price * fill.quantity) fill.fee
    | .sell => sellPostings order.symbol (orElseNew fill.feeCurrency "USDT") (fill.price * fill.quantity) fill.fee cost

/-- The cost a settlement releases. -/
def releasedCost (order : Order) (fill : Fill) (books : Books) : ℚ :=
  (costReleased order fill (books.getPosition fill.symbol)).getD 0

lemma postTrade_appends {ctx : SettleContext} (hfresh : ctx.Fresh) (order : Order) (fill : Fill) (books : Books) :
    ∃ t m, TradeOf order fill (releasedCost order fill books) t m ∧
      postTrade ctx order fill books = match ctx.interruption fill with
        | some (.afterCommit e) => (.error e, { books with ledger := books.ledger ++ [t] })
        | _ => { books with ledger := books.ledger ++ [t] }.refresh ctx.initialBalances := by
  obtain ⟨postings, metadata, hbuild, hbal, hne, hmeta, hpostings⟩ := buildTradeEntries_spec order.side order.symbol
    (orElseNew fill.feeCurrency "USDT") fill.price fill.quantity fill.fee
    (costReleased order fill (books.getPosition fill.symbol))
  obtain ⟨hid, hevent, htxn⟩ := hfresh books.ledger
  have hfind := findTransaction_of_fresh_event (some fill.fillId)
    (by simpa [truthy] using hid : truthy (some (ctx.newIds books.ledger).eventId)) hevent
  obtain ⟨t, hrec, ht⟩ := record_of_fresh .trade
    (settleArgs order fill metadata (ctx.newIds books.ledger)) hbal hne hfind htxn
  have htrade : TradeOf order fill (releasedCost order fill books) t
      { metadata with baseAsset := some (order.symbol.replace "USDT" "") } := by
    constructor
    · rw [ht]
      exact ⟨rfl, rfl⟩
    · rw [ht]
      rfl
    · exact hmeta.1
    · exact hmeta.2.1
    · exact hmeta.2.2.1
    · exact hmeta.2.2.2
    · rfl
    · rw [ht]
      exact hpostings
  refine ⟨t, _, htrade, ?_⟩
  simp only [postTrade, hbuild, hrec]

/-- A settlement passes the fill over, or it is cut short, or it appends the fill's trade and
refreshes the projections. -/
lemma settleFill_cases (quarantined : List String) {ctx : SettleContext} (hfresh : ctx.Fresh) (s : OrderStore) (fill : Fill)
    (books : Books) :
    (settleFill quarantined ctx s fill books = (.ok (), books) ∧ ∀ order, ¬ Settles quarantined s fill order) ∨
      ∃ order t m, Settles quarantined s fill order ∧ TradeOf order fill (releasedCost order fill books) t m ∧
        settleFill quarantined ctx s fill books = match ctx.interruption fill with
          | some (.beforeCommit e) => (.error e, books)
          | some (.afterCommit e) => (.error e, { books with ledger := books.ledger ++ [t] })
          | none => { books with ledger := books.ledger ++ [t] }.refresh ctx.initialBalances := by
  unfold settleFill
  by_cases hperp : fill.isPerpetual = true
  · rw [if_pos hperp]
    exact .inl ⟨rfl, fun order h => by simp [h.spot] at hperp⟩
  rw [if_neg hperp]
  cases horder : s.get fill.orderId with
  | none => exact .inl ⟨rfl, fun order h => by simp [h.order] at horder⟩
  | some order =>
    dsimp only
    by_cases hq : fill.fillId ∈ quarantined
    · rw [if_pos hq]
      exact .inl ⟨rfl, fun order h => h.admitted hq⟩
    · rw [if_neg hq]
      obtain ⟨t, m, ht, hpost⟩ := postTrade_appends hfresh order fill books
      refine .inr ⟨order, t, m, ⟨by simpa using hperp, horder, hq⟩, ht, ?_⟩
      cases hcut : ctx.interruption fill with
      | none => simpa only [hcut] using hpost
      | some cut =>
        rw [hcut] at hpost
        cases cut with
        | beforeCommit e => rfl
        | afterCommit e => exact hpost

/-- A settlement that runs to completion passes the fill over, or appends its trade and
refreshes the projections. -/
lemma settleFill_ok {quarantined : List String} {ctx : SettleContext} (hfresh : ctx.Fresh) {s : OrderStore}
    {fill : Fill} {books : Books} (hok : (settleFill quarantined ctx s fill books).1 = .ok ()) :
    ((settleFill quarantined ctx s fill books).2 = books ∧ ∀ order, ¬ Settles quarantined s fill order) ∨
      ∃ order t m, Settles quarantined s fill order ∧ TradeOf order fill (releasedCost order fill books) t m ∧
        settleFill quarantined ctx s fill books =
          { books with ledger := books.ledger ++ [t] }.refresh ctx.initialBalances := by
  rcases settleFill_cases quarantined hfresh s fill books with ⟨hskip, hnone⟩ | ⟨order, t, m, hsettles, ht, hrun⟩
  · exact .inl ⟨by rw [hskip], hnone⟩
  · cases hcut : ctx.interruption fill with
    | none =>
      rw [hcut] at hrun
      exact .inr ⟨order, t, m, hsettles, ht, hrun⟩
    | some cut =>
      rw [hcut] at hrun
      rw [hrun] at hok
      cases cut <;> simp at hok

lemma settleFill_ledger (quarantined : List String) (ctx : SettleContext) (s : OrderStore) (fill : Fill)
    (books : Books) : (settleFill quarantined ctx s fill books).2.ledger = books.ledger ∨
      ∃ t m, (settleFill quarantined ctx s fill books).2.ledger = books.ledger ++ [t] ∧ t.metadata = .trade m := by
  have hpost : ∀ order, (postTrade ctx order fill books).2.ledger = books.ledger ∨
      ∃ t m, (postTrade ctx order fill books).2.ledger = books.ledger ++ [t] ∧ t.metadata = .trade m := by
    intro order
    obtain ⟨postings, metadata, hbuild, -⟩ := buildTradeEntries_spec order.side order.symbol
      (orElseNew fill.feeCurrency "USDT") fill.price fill.quantity fill.fee
      (costReleased order fill (books.getPosition fill.symbol))
    simp only [postTrade, hbuild]
    cases hrec : record .trade postings (settleArgs order fill metadata (ctx.newIds books.ledger))
        (ctx.newIds books.ledger).transactionId books.ledger with
    | error e => exact .inl rfl
    | ok w =>
      obtain ⟨t, ledger⟩ := w
      have hledger : (match ctx.interruption fill with
          | some (.afterCommit e) => (.error e, { books with ledger })
          | _ => { books with ledger }.refresh ctx.initialBalances :
            Except TradingError Unit × Books).2.ledger = ledger := by
        rcases ctx.interruption fill with _ | (e | e) <;> simp
      rcases record_cases hrec with ⟨hsame, -⟩ | ⟨happ, -, -, ht⟩
      · exact .inl (hledger.trans hsame)
      · exact .inr ⟨t, _, hledger.trans happ, by rw [ht]; rfl⟩
  unfold settleFill
  split
  · exact .inl rfl
  · split
    · exact .inl rfl
    · split
      · exact .inl rfl
      · split
        · exact .inl rfl
        · exact hpost _

lemma settleFill_reaches {quarantined : List String} {ctx : SettleContext} (hfresh : ctx.Fresh)
    {s : OrderStore} {fill : Fill} (books : Books) (hperp : fill.isPerpetual = false)
    (hq : fill.fillId ∉ quarantined) (h : ReachesLedger ctx s fill) :
    ∃ t, (settleFill quarantined ctx s fill books).2.ledger = books.ledger ++ [t] ∧ SettledBy fill t := by
  obtain ⟨order, horder⟩ := Option.ne_none_iff_exists'.mp h.order
  rcases settleFill_cases quarantined hfresh s fill books with ⟨-, hnone⟩ | ⟨order', t, m, -, ht, hrun⟩
  · exact absurd ⟨hperp, horder, hq⟩ (hnone order)
  · refine ⟨t, ?_, ht.settled⟩
    rw [hrun]
    cases hcut : ctx.interruption fill with
    | none => exact Books.refresh_ledger _ _
    | some cut =>
      cases cut with
      | beforeCommit e => exact absurd hcut (h.uncut e)
      | afterCommit e => rfl

lemma settleFill_skips {quarantined : List String} {ctx : SettleContext} {s : OrderStore} {fill : Fill}
    (books : Books) (h : ¬ (fill.isPerpetual = false ∧ fill.fillId ∉ quarantined ∧ ReachesLedger ctx s fill)) :
    (settleFill quarantined ctx s fill books).2.ledger = books.ledger := by
  unfold settleFill
  by_cases hperp : fill.isPerpetual = true
  · simp [hperp]
  · simp only [hperp, Bool.false_eq_true, if_false]
    cases horder : s.get fill.orderId with
    | none => rfl
    | some order =>
      by_cases hq : fill.fillId ∈ quarantined
      · simp [hq]
      · simp only [hq, if_false]
        rcases hi : ctx.interruption fill with _ | (e | e)
        · exact absurd ⟨by simpa using hperp, hq, by simp [horder], by simp [hi]⟩ h
        · rfl
        · exact absurd ⟨by simpa using hperp, hq, by simp [horder], by simp [hi]⟩ h

/-- Ids that no transaction has, and one point where every settlement is cut short. -/
def cutContext (interruption : Option Interruption) : SettleContext where
  initialBalances := [("USDT", 10000)]
  newIds := fun ledger => ⟨freshName (ledger.map (fun t => t.eventId.getD "")),
    freshName (ledger.map LedgerTransaction.transactionId)⟩
  interruption := fun _ => interruption

lemma cutContext_fresh (interruption : Option Interruption) : (cutContext interruption).Fresh := by
  intro ledger
  refine ⟨freshName_ne_empty _, fun t ht heq => ?_, freshName_not_mem _⟩
  exact freshName_not_mem (ledger.map fun t => t.eventId.getD "") (List.mem_map.mpr ⟨t, ht, by rw [heq]; rfl⟩)

end CryptoTrader
