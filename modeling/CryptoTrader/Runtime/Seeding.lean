import CryptoTrader.Ledger.Accounts
import CryptoTrader.Lib.Runs
import CryptoTrader.Runtime.Settlement

/-!
# Seeding the balances, and the persisted projections

`_seed_initial_balances` keeps the balances that the ledger replays to, or deposits those of
the exchange; the refreshes of a run start their replay from the balances so kept, and
replay the deposits on top of them.
-/

namespace CryptoTrader

open KeyedTable Runs

/-- The tables of the books, and `_initial_balances` of the running engine. -/
structure EngineBooks where
  books : Books := {}
  initialBalances : Balances := []

/-- The dict over the currencies of the balances an exchange reports. -/
def balanceDict (balances : Balances) : Balances :=
  balances.foldl (fun dict b => upsert Prod.fst b dict) []

def depositPostings (currency : String) (total : ℚ) : List LedgerPosting :=
  [⟨.cash, .debit, total, currency⟩, ⟨.equity, .credit, total, currency⟩]

/-- The deposits of the balances, one commit each, up to the first that raises. -/
def recordDeposits (mint : Ledger → String) : Balances → Ledger → Except TradingError Unit × Ledger
  | [], ledger => (.ok (), ledger)
  | b :: balances, ledger =>
    match record .deposit (depositPostings b.1 b.2) { metadata := .amount b.2 b.1 } (mint ledger) ledger with
    | .error e => (.error e, ledger)
    | .ok (_, ledger) => recordDeposits mint balances ledger

/-- `_seed_initial_balances`, on what the adapter's `get_balances` returns. -/
def seedInitialBalances (mode : TradingMode) (reported : Except TradingError Balances) (mint : Ledger → String)
    (s : EngineBooks) : Except TradingError Unit × EngineBooks :=
  match replayProjections [] s.books.ledger with
  | .error e => (.error e, s)
  | .ok snap =>
    if snap.balances ≠ [] then (.ok (), { s with initialBalances := snap.balances })
    else if mode = .paper then
      match reported with
      | .error e => (.error e, { s with initialBalances := [] })
      | .ok balances =>
        match recordDeposits mint balances s.books.ledger with
        | (.error e, ledger) => (.error e, ⟨{ s.books with ledger }, balanceDict balances⟩)
        | (.ok (), ledger) =>
          let (result, books) := { s.books with ledger }.refresh (balanceDict balances)
          (result, ⟨books, balanceDict balances⟩)
    else (.ok (), { s with initialBalances := [] })

/-- What writes to the books in a run: a start of the engine, the settlement of a fill, the
refresh of a balance update, or another call of the ledger service. -/
inductive EngineCall where
  | start (mode : TradingMode) (reported : Except TradingError Balances) (mint : Ledger → String)
  | settle (quarantined : List String) (ctx : SettleContext) (orders : OrderStore) (fill : Fill)
  | balanceUpdate
  | record (entryType : LedgerEntryType) (postings : List LedgerPosting) (args : RecordArgs) (minted : String)

namespace EngineBooks

/-- A settlement replays from the balances of the engine. -/
def settleContext (s : EngineBooks) (ctx : SettleContext) : SettleContext :=
  { ctx with initialBalances := s.initialBalances }

def perform (s : EngineBooks) : EngineCall → Except TradingError Unit × EngineBooks
  | .start mode reported mint => seedInitialBalances mode reported mint s
  | .settle quarantined ctx orders fill =>
    let (result, books) := settleFill quarantined (s.settleContext ctx) orders fill s.books
    (result, { s with books })
  | .balanceUpdate =>
    let (result, books) := s.books.refresh s.initialBalances
    (result, { s with books })
  | .record entryType postings args minted =>
    match CryptoTrader.record entryType postings args minted s.books.ledger with
    | .error e => (.error e, s)
    | .ok (_, ledger) => (.ok (), { s with books := { s.books with ledger } })

def step (s : EngineBooks) (call : EngineCall) : EngineBooks :=
  (s.perform call).2

/-- The call gets to a refresh of the projections. -/
def CallsRefresh (s : EngineBooks) : EngineCall → Prop
  | .start mode _ _ => mode = .paper ∧ ∃ snap, replayProjections [] s.books.ledger = .ok snap ∧ snap.balances = []
  | .settle quarantined _ orders fill => ∃ order, Settles quarantined orders fill order
  | .balanceUpdate => True
  | .record _ _ _ _ => False

/-- The call refreshes the projections and returns. -/
def Refreshed (s : EngineBooks) (call : EngineCall) : Prop :=
  s.CallsRefresh call ∧ (s.perform call).1 = .ok ()

/-- The balances from which the refresh of a call replays. -/
def replayedFrom (s : EngineBooks) : EngineCall → Balances
  | .start _ (.ok balances) _ => balanceDict balances
  | _ => s.initialBalances

end EngineBooks

/-- The persisted positions are those of the replay of the ledger. -/
def PositionsPersisted (books : Books) : Prop :=
  ∃ snap, replayProjections [] books.ledger = .ok snap ∧ books.positions = snap.positions

/-- So are the positions and the balances. -/
def ProjectionsPersisted (books : Books) : Prop :=
  ∃ snap, replayProjections [] books.ledger = .ok snap ∧ books.positions = snap.positions ∧
    ∀ currency, books.getBalance currency = snap.balance currency

/-! ### A refresh -/

lemma getBalance_rows (snap : ProjectionSnapshot) (ledger : Ledger) (currency : String) :
    Books.getBalance currency ⟨ledger, snap.balances.map (fun b => ⟨b.1, b.2, snap.equity⟩), snap.positions⟩ =
      snap.balance currency := by
  unfold Books.getBalance ProjectionSnapshot.balance row
  dsimp only
  rw [List.find?_map]
  have hkey : (fun r : AccountRow => decide (r.currency = currency)) ∘ (fun b : String × ℚ => ⟨b.1, b.2, snap.equity⟩) =
      fun b => decide (b.1 = currency) := by
    funext b
    rfl
  rw [hkey]
  cases snap.balances.find? (fun b => decide (b.1 = currency)) <;> rfl

/-- A refresh that returns persists the positions of the ledger, and its balances with
those the replay started from on top. -/
lemma refresh_persists {initialBalances : Balances} {books : Books}
    (hok : (books.refresh initialBalances).1 = .ok ()) :
    ∃ snap, replayProjections [] (books.refresh initialBalances).2.ledger = .ok snap ∧
      (books.refresh initialBalances).2.positions = snap.positions ∧
      ∀ currency, (books.refresh initialBalances).2.getBalance currency =
        snap.balance currency + initialBalances.total currency := by
  rw [Books.refresh_ledger]
  rcases replayProjections_shifted initialBalances books.ledger with ⟨e, -, he⟩ | ⟨snap, snap', hsnap, hsnap', hshift⟩
  · simp [Books.refresh, he] at hok
  · refine ⟨snap, hsnap, ?_⟩
    unfold Books.refresh
    rw [hsnap']
    exact ⟨hshift.positions, fun currency => (getBalance_rows snap' _ currency).trans (hshift.balance currency)⟩

/-! ### The refreshes of a run -/

lemma settleFill_refreshes {quarantined : List String} {ctx : SettleContext} {orders : OrderStore} {fill : Fill}
    {order : Order} {books : Books} (h : Settles quarantined orders fill order)
    (hok : (settleFill quarantined ctx orders fill books).1 = .ok ()) :
    ∃ ledger, settleFill quarantined ctx orders fill books = { books with ledger }.refresh ctx.initialBalances := by
  obtain ⟨postings, metadata, hbuild, -⟩ := buildTradeEntries_spec order.side order.symbol
    (orElseNew fill.feeCurrency "USDT") fill.price fill.quantity fill.fee
    (costReleased order fill (books.getPosition fill.symbol))
  have hspot : ¬ fill.isPerpetual = true := by simp [h.spot]
  unfold settleFill at hok ⊢
  rw [if_neg hspot, h.order] at hok ⊢
  dsimp only at hok ⊢
  rw [if_neg h.admitted] at hok ⊢
  unfold postTrade at hok ⊢
  rw [hbuild] at hok ⊢
  dsimp only at hok ⊢
  cases hrec : record .trade postings (settleArgs order fill metadata (ctx.newIds books.ledger))
      (ctx.newIds books.ledger).transactionId books.ledger with
  | error e =>
    rw [hrec] at hok
    cases hcut : ctx.interruption fill with
    | none => simp [hcut] at hok
    | some cut => cases cut <;> simp [hcut] at hok
  | ok w =>
    rw [hrec] at hok
    refine ⟨w.2, ?_⟩
    cases hcut : ctx.interruption fill with
    | none => rfl
    | some cut => cases cut <;> simp [hcut] at hok

namespace EngineBooks

lemma Refreshed.refresh {s : EngineBooks} {call : EngineCall} (h : s.Refreshed call) :
    ∃ books : Books, s.perform call = ((books.refresh (s.replayedFrom call)).1,
      { s.step call with books := (books.refresh (s.replayedFrom call)).2 }) := by
  obtain ⟨hcalls, hok⟩ := h
  cases call with
  | start mode reported mint =>
    obtain ⟨rfl, snap, hreplay, hempty⟩ := hcalls
    simp only [step, perform, seedInitialBalances, hreplay, hempty, ne_eq, not_true_eq_false, if_false, if_true] at hok ⊢
    cases reported with
    | error e => simp at hok
    | ok balances =>
      dsimp only at hok ⊢
      cases hdeposits : recordDeposits mint balances s.books.ledger with
      | mk result ledger =>
        rw [hdeposits] at hok
        cases result with
        | error e => simp at hok
        | ok _ => exact ⟨{ s.books with ledger }, rfl⟩
  | settle quarantined ctx orders fill =>
    obtain ⟨order, horder⟩ := hcalls
    have hsettled : (settleFill quarantined (s.settleContext ctx) orders fill s.books).1 = .ok () := hok
    obtain ⟨ledger, hsettle⟩ := settleFill_refreshes horder hsettled
    refine ⟨{ s.books with ledger }, ?_⟩
    simp only [step, perform, hsettle]
    rfl
  | balanceUpdate => exact ⟨s.books, rfl⟩
  | record entryType postings args minted => exact hcalls.elim

/-- After a refresh the persisted positions are those of the ledger alone, and the balances
exceed those of the ledger alone by what the engine replayed from. -/
lemma Refreshed.persists {s : EngineBooks} {call : EngineCall} (h : s.Refreshed call) :
    ∃ snap, replayProjections [] (s.step call).books.ledger = .ok snap ∧ (s.step call).books.positions = snap.positions ∧
      ∀ currency, (s.step call).books.getBalance currency =
        snap.balance currency + (s.replayedFrom call).total currency := by
  obtain ⟨books, hperform⟩ := h.refresh
  have hok := h.2
  rw [hperform] at hok
  have hbooks : (s.step call).books = (books.refresh (s.replayedFrom call)).2 := by
    rw [step, hperform]
  rw [hbooks]
  exact refresh_persists hok

lemma Refreshed.persisted_iff {s : EngineBooks} {call : EngineCall} (h : s.Refreshed call) :
    ProjectionsPersisted (s.step call).books ↔ ∀ currency, (s.replayedFrom call).total currency = 0 := by
  obtain ⟨snap, hsnap, hpositions, hbalance⟩ := h.persists
  constructor
  · rintro ⟨snap', hsnap', -, hsame⟩ currency
    obtain rfl : snap = snap' := Except.ok.inj (hsnap.symm.trans hsnap')
    have hexcess := hbalance currency
    rw [hsame currency] at hexcess
    linarith
  · intro hzero
    refine ⟨snap, hsnap, hpositions, fun currency => ?_⟩
    rw [hbalance, hzero, add_zero]

end EngineBooks

/-- In every run of the engine each refresh persists the positions of the ledger's replay;
it persists the balances of the ledger's replay exactly if all the balances that the engine
replays from are zero. -/
theorem projections_persisted_iff (s : EngineBooks) (calls : List EngineCall) :
    Along EngineBooks.step (fun s call => s.Refreshed call → PositionsPersisted (s.step call).books) s calls ∧
      (Along EngineBooks.step (fun s call => s.Refreshed call → ProjectionsPersisted (s.step call).books) s calls ↔
        Along EngineBooks.step (fun s call => s.Refreshed call → ∀ currency, (s.replayedFrom call).total currency = 0)
          s calls) := by
  have htrue : Along EngineBooks.step (fun _ _ => True) s calls :=
    along_of_forall (A := fun _ => True) (fun _ _ => trivial)
  constructor
  · refine htrue.mono (fun s call _ hrefreshed => ?_)
    obtain ⟨snap, hsnap, hpositions, -⟩ := hrefreshed.persists
    exact ⟨snap, hsnap, hpositions⟩
  · exact along_congr (I := fun _ => True) (fun _ _ _ _ => trivial)
      (fun s call _ _ => forall_congr' fun hrefreshed => hrefreshed.persisted_iff) trivial htrue

/-- The first start of a paper engine on an empty database, with 10000 at the exchange:
`get_balance` answers 20000, the replay of the ledger 10000. -/
theorem projections_seeded_twice :
    let start : EngineCall := .start .paper (.ok [("USDT", 10000)]) (fun _ => "t1")
    EngineBooks.Refreshed {} start ∧ ¬ ProjectionsPersisted (EngineBooks.step {} start).books := by
  intro start
  refine ⟨⟨⟨rfl, _, rfl, rfl⟩, by decide +kernel⟩, ?_⟩
  rintro ⟨snap, hsnap, -, hbalance⟩
  have hledger : (replayProjections [] (EngineBooks.step {} start).books.ledger).map
      (fun s => s.balance "USDT") = .ok 10000 := by
    decide +kernel
  have hstored : (EngineBooks.step {} start).books.getBalance "USDT" = 20000 := by
    decide +kernel
  rw [hsnap, Except.map, Except.ok.injEq] at hledger
  have hown := hbalance "USDT"
  rw [hstored, hledger] at hown
  norm_num at hown

end CryptoTrader
