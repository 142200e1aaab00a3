import CryptoTrader.Governance.TradeEpisodes
import CryptoTrader.Perpetual.Ledger
import Mathlib.Algebra.BigOperators.Group.List.Basic
import Mathlib.Data.List.Sort

/-!
# Episodes and the futures ledger

What `governance/trade_episodes.py` reads from the ledger: the profit an order realized, which
becomes the profit of an episode, and the leverage a symbol was opened with, which becomes the
leverage of every episode of the symbol.
-/

namespace CryptoTrader

open KeyedTable Runs

/-- The order and the entry `realized_pnl` of a row that `record_close` has written. -/
def LedgerTransaction.realized (t : LedgerTransaction) : Option (String × ℚ) :=
  match t.entryType, t.orderId, t.metadata with
  | .futuresRealizedPnl, some orderId, .futuresClose _ _ _ _ _ realizedPnl _ _ => some (orderId, realizedPnl)
  | _, _, _ => none

def ledgerRealizedByOrder (ledger : Ledger) : List (String × ℚ) :=
  tableOf Prod.fst (ledger.filterMap LedgerTransaction.realized)

/-- The symbol and the positive leverage of a row with the action `OPEN`. -/
def LedgerTransaction.openedWith (t : LedgerTransaction) : Option (String × ℚ) :=
  match t.metadata with
  | .futuresOpen symbol _ _ _ leverage _ _ => if symbol ≠ "" ∧ 0 < leverage then some (symbol, leverage) else none
  | _ => none

/-- The rows in the order of their keys. -/
def byTransactionId (ledger : Ledger) : Ledger :=
  ledger.insertionSort (fun t t' => t.transactionId ≤ t'.transactionId)

/-- `_perp_leverage_by_symbol_sync`. -/
def perpLeverageBySymbol (ledger : Ledger) : List (String × ℚ) :=
  tableOf Prod.fst ((byTransactionId ledger).filterMap LedgerTransaction.openedWith)

/-! ### The profit of an episode -/

section Profit

def pnlResult (net : ℚ) : EpisodeResult :=
  if 0 < net then .win else if net < 0 then .loss else .breakeven

variable (ledger : Ledger) (c : Cycle)

def Cycle.exitOrders : List String :=
  c.exitFills.map CycleFill.orderId

/-- What the ledger has realized over all exit orders of the cycle. -/
def Cycle.ledgerPnl : ℚ :=
  (((ledger.filterMap LedgerTransaction.realized).filter (fun r => r.1 ∈ c.exitOrders)).map Prod.snd).sum

/-- What it has realized over the exit orders other than that of the first exit fill. -/
def Cycle.laterPnl : ℚ :=
  (((ledger.filterMap LedgerTransaction.realized).filter
    (fun r => r.1 ∈ c.exitOrders ∧ some r.1 ≠ c.exitOrders.head?)).map Prod.snd).sum

def Cycle.fees : ℚ :=
  ((c.entryFills ++ c.exitFills).map CycleFill.fee).sum

/-- Every exit order has a row of its own. -/
def Cycle.Settled : Prop :=
  ∀ orderId ∈ c.exitOrders, ((ledger.filterMap LedgerTransaction.realized).map Prod.fst).count orderId = 1

instance : Decidable (c.Settled ledger) :=
  inferInstanceAs (Decidable (∀ _ ∈ _, _))

/-- The profit of an episode is that of the ledger. -/
structure LedgerProfit (episode : Episode) : Prop where
  gross : episode.grossPnl = c.ledgerPnl ledger
  net : episode.netPnl = c.ledgerPnl ledger - c.fees
  result : episode.result = pnlResult (c.ledgerPnl ledger - c.fees)

variable {ledger c}

/-- The exit order of the first exit fill has one row, and its profit is that of the episode. -/
lemma ledgerGross_of_settled {orderId : String} (hsettled : c.Settled ledger)
    (hfirst : c.exitOrders.head? = some orderId) :
    ∃ pnl, (ledger.filterMap LedgerTransaction.realized).filter (fun r => r.1 = orderId) = [(orderId, pnl)] ∧
      c.ledgerGross (ledgerRealizedByOrder ledger) = some pnl := by
  have hcount := hsettled orderId (List.mem_of_mem_head? hfirst)
  rw [List.count_eq_countP, List.countP_map, List.countP_eq_length_filter] at hcount
  obtain ⟨⟨key, pnl⟩, hone⟩ := List.length_eq_one_iff.mp hcount
  have hrows : (ledger.filterMap LedgerTransaction.realized).filter (fun r => r.1 = orderId) = [(key, pnl)] := by
    rw [← hone]
    rfl
  have hkey : key = orderId := by
    have hmem : (key, pnl) ∈ (ledger.filterMap LedgerTransaction.realized).filter (fun r => r.1 = orderId) := by
      rw [hrows]
      exact List.mem_singleton_self _
    simpa using List.of_mem_filter hmem
  subst hkey
  refine ⟨pnl, hrows, ?_⟩
  have hrow : row Prod.fst key (ledgerRealizedByOrder ledger) = some (key, pnl) := by
    rw [ledgerRealizedByOrder, row_tableOf, hrows]
    rfl
  unfold Cycle.exitOrders at hfirst
  rw [List.head?_map, Option.map_eq_some_iff] at hfirst
  obtain ⟨f, hf, rfl⟩ := hfirst
  obtain ⟨fs, hfs⟩ := List.head?_eq_some_iff.mp hf
  rw [Cycle.ledgerGross, hfs, List.findSome?_cons, hrow]
  rfl

lemma ledgerPnl_eq_first_add {orderId : String} {pnl : ℚ} (hfirst : c.exitOrders.head? = some orderId)
    (hrows : (ledger.filterMap LedgerTransaction.realized).filter (fun r => r.1 = orderId) = [(orderId, pnl)]) :
    c.ledgerPnl ledger = pnl + c.laterPnl ledger := by
  have hmem : orderId ∈ c.exitOrders := List.mem_of_mem_head? hfirst
  unfold Cycle.ledgerPnl
  rw [← List.sum_map_filter_add_sum_map_filter_not (fun r => r.1 = orderId), List.filter_filter, List.filter_filter]
  congr 1
  · have hfilter : (ledger.filterMap LedgerTransaction.realized).filter
        (fun r => decide (r.1 = orderId) && decide (r.1 ∈ c.exitOrders)) = [(orderId, pnl)] := by
      rw [← hrows]
      apply List.filter_congr
      intro r _
      by_cases hr : r.1 = orderId <;> simp [hr, hmem]
    rw [hfilter]
    simp
  · unfold Cycle.laterPnl
    congr 2
    apply List.filter_congr
    intro r _
    simp [hfirst, and_comm]

end Profit

/-- The profit, the net profit and the result of an episode are those of the ledger exactly when the
exit orders after the first realized nothing together. -/
theorem episode_pnl_iff (sha : String → String) (ledger : Ledger) (c : Cycle) (hcomplete : c.complete = true)
    (hsettled : c.Settled ledger) :
    LedgerProfit ledger c (cycleEpisode sha (ledgerRealizedByOrder ledger) c) ↔ c.laterPnl ledger = 0 := by
  have hexits : c.exitFills ≠ [] := by
    have h := of_decide_eq_true hcomplete
    exact h.2.1
  obtain ⟨orderId, hfirst⟩ : ∃ orderId, c.exitOrders.head? = some orderId := by
    cases hfills : c.exitFills with
    | nil => exact absurd hfills hexits
    | cons f fs => exact ⟨f.orderId, by simp [Cycle.exitOrders, hfills]⟩
  obtain ⟨pnl, hrows, hgross⟩ := ledgerGross_of_settled hsettled hfirst
  have hgross : (cycleEpisode sha (ledgerRealizedByOrder ledger) c).grossPnl = pnl := by
    simp [cycleEpisode, hgross]
  have hsum := ledgerPnl_eq_first_add hfirst hrows
  constructor
  · intro h
    have heq := h.gross
    rw [hgross, hsum] at heq
    exact left_eq_add.mp heq
  · intro hlater
    have heq : (cycleEpisode sha (ledgerRealizedByOrder ledger) c).grossPnl = c.ledgerPnl ledger := by
      rw [hgross, hsum, hlater, add_zero]
    refine ⟨heq, ?_, ?_⟩
    · rw [← heq]
      rfl
    · rw [← heq]
      rfl

/-! ### The leverage of an episode -/

/-- A call of `record_all_cycles_sync`, with the tables it reads. -/
structure BackfillRun where
  ledger : Ledger
  fills : List CycleFill
  evidence : EpisodeEvidence := {}
  symbols : Option (List String) := none

namespace BackfillRun

variable (b : BackfillRun)

def reads : EpisodeEvidence :=
  { b.evidence with
    ledgerRealized := ledgerRealizedByOrder b.ledger
    perpLeverage := perpLeverageBySymbol b.ledger }

def cycles : List Cycle :=
  (backfillSymbols b.fills b.symbols).flatMap (cyclesOf b.reads b.fills)

/-- It writes the episode of the cycle, and no later cycle under the same key. -/
def Records (sha : String → String) (c : Cycle) : Prop :=
  ∃ before after, b.cycles = before ++ c :: after ∧ c.excluded sha b.reads = false ∧
    ∀ c' ∈ after, c'.excluded sha b.reads = false → c'.episodeKey sha ≠ c.episodeKey sha

end BackfillRun

def backfillStep (sha : String → String) (table : List AITradeEpisode) (b : BackfillRun) : List AITradeEpisode :=
  (recordAllCycles sha b.reads b.fills b.symbols table).table

def storedLeverage (table : List AITradeEpisode) (episodeId : String) : Option ℚ :=
  (row AITradeEpisode.episodeId episodeId table).map AITradeEpisode.leverage

def LedgerMetadata.openLeverage (symbol : String) : LedgerMetadata → Option ℚ
  | .futuresOpen symbol' _ _ _ leverage _ _ => if symbol' = symbol then some leverage else none
  | _ => none

/-- The leverage is that of an `OPEN` row of one of the cycle's entry orders. -/
def Cycle.OwnLeverage (ledger : Ledger) (c : Cycle) (leverage : ℚ) : Prop :=
  ∃ t ∈ ledger, (∃ f ∈ c.entryFills, t.orderId = some f.orderId) ∧ t.metadata.openLeverage c.symbol = some leverage

instance (ledger : Ledger) (c : Cycle) (leverage : ℚ) : Decidable (c.OwnLeverage ledger leverage) :=
  inferInstanceAs (Decidable (∃ t ∈ ledger, _ ∧ _))

/-- The leverage of the symbol's `OPEN` row with the greatest key, 1 if there is none. -/
def lastLeverage (ledger : Ledger) (symbol : String) : ℚ :=
  (((byTransactionId ledger).filterMap LedgerTransaction.openedWith).filter (fun r => r.1 = symbol)).getLast?.elim 1 Prod.snd

section Leverage

lemma openedWith_pos {t : LedgerTransaction} {r : String × ℚ} (h : t.openedWith = some r) : 0 < r.2 := by
  unfold LedgerTransaction.openedWith at h
  split at h
  · split at h
    · rename_i hopen
      obtain rfl := Option.some.inj h
      exact hopen.2
    · contradiction
  · contradiction

/-- What a perpetual cycle is recorded with. -/
lemma leverage_row (sha : String → String) (b : BackfillRun) {c : Cycle} (hperp : c.marketType = "PERPETUAL") :
    (c.row sha b.reads).leverage = lastLeverage b.ledger c.symbol := by
  have hmarket : (cycleEpisode sha b.reads.ledgerRealized c).marketType = "PERPETUAL" := hperp
  have hfound : row Prod.fst c.symbol b.reads.perpLeverage = (((byTransactionId b.ledger).filterMap
      LedgerTransaction.openedWith).filter (fun r => r.1 = c.symbol)).getLast? := row_tableOf _ _
  simp only [Cycle.row, episodeRow, if_pos hmarket, hfound, lastLeverage]
  cases hlast : (((byTransactionId b.ledger).filterMap LedgerTransaction.openedWith).filter
    (fun r => r.1 = c.symbol)).getLast? with
  | none => rfl
  | some r =>
    have hmem := List.mem_of_mem_filter (List.mem_of_getLast? hlast)
    obtain ⟨t, -, ht⟩ := List.mem_filterMap.mp hmem
    simp [Option.filter, openedWith_pos ht]

/-- The row of a known key, as it is written again. -/
lemma episodeId_rewritten (r old : AITradeEpisode) :
    (if old.episodeId = r.episodeId then { r with symbol := old.symbol, strategySelected := old.strategySelected }
      else old).episodeId = old.episodeId := by
  by_cases h : old.episodeId = r.episodeId <;> simp [h]

lemma storedLeverage_persistEpisode (r : AITradeEpisode) (st : Backfill) :
    storedLeverage (persistEpisode r st).table r.episodeId = some r.leverage := by
  unfold persistEpisode storedLeverage
  split
  · rename_i hknown
    obtain ⟨old, hold⟩ := row_isSome_iff.mpr hknown
    dsimp only
    rw [row_map (episodeId_rewritten r), hold, Option.map_some, Option.map_some, if_pos (row_some hold).2]
  · rename_i hfresh
    rw [row_append_of_none (row_eq_none_iff.mpr hfresh)]
    simp [row]

lemma storedLeverage_persistEpisode_of_ne {r : AITradeEpisode} {id : String} (hne : r.episodeId ≠ id) (st : Backfill) :
    storedLeverage (persistEpisode r st).table id = storedLeverage st.table id := by
  unfold persistEpisode storedLeverage
  split
  · dsimp only
    rw [row_map (episodeId_rewritten r)]
    cases hrow : row AITradeEpisode.episodeId id st.table with
    | none => rfl
    | some old =>
      have hold : old.episodeId ≠ r.episodeId := by
        rw [(row_some hrow).2]
        exact hne.symm
      rw [Option.map_some, if_neg hold]
  · cases hrow : row AITradeEpisode.episodeId id st.table with
    | none =>
      rw [row_append_of_none hrow]
      simp [row, hne]
    | some old => rw [row_append_of_some hrow]

/-- Later cycles with other keys leave what is stored under a key. -/
lemma storedLeverage_run (sha : String → String) (evidence : EpisodeEvidence) {id : String} {cycles : List Cycle}
    (hother : ∀ c ∈ cycles, c.excluded sha evidence = false → c.episodeKey sha ≠ id) (st : Backfill) :
    storedLeverage (run (recordCycle sha evidence) st cycles).table id = storedLeverage st.table id := by
  induction cycles generalizing st with
  | nil => rfl
  | cons c cycles ih =>
    rw [run_cons, ih (fun c' hc' => hother c' (List.mem_cons_of_mem c hc'))]
    unfold recordCycle
    split
    · rfl
    · rename_i hincluded
      have hkey := hother c List.mem_cons_self (by simpa using hincluded)
      exact storedLeverage_persistEpisode_of_ne (r := c.row sha evidence) hkey st

/-- After a backfill that writes the episode of a perpetual cycle. -/
lemma storedLeverage_backfillStep {sha : String → String} {b : BackfillRun} {c : Cycle} (hperp : c.marketType = "PERPETUAL")
    (hrecords : b.Records sha c) (table : List AITradeEpisode) :
    storedLeverage (backfillStep sha table b) (c.episodeKey sha) = some (lastLeverage b.ledger c.symbol) := by
  obtain ⟨before, after, hcycles, hincluded, hother⟩ := hrecords
  have htable : backfillStep sha table b = (run (recordCycle sha b.reads) { table } b.cycles).table := rfl
  rw [htable, hcycles, run_append, run_cons, storedLeverage_run sha b.reads hother, recordCycle,
    if_neg (by simp [hincluded]), ← leverage_row sha b hperp]
  exact storedLeverage_persistEpisode _ _

end Leverage

/-- Every backfill that writes the episode of a perpetual cycle stores one leverage, that of an entry
of the cycle, exactly when at each of them the last opening of the symbol has that leverage. -/
theorem episode_leverage_iff (sha : String → String) (table : List AITradeEpisode) (runs : List BackfillRun) (c : Cycle)
    (hperp : c.marketType = "PERPETUAL") :
    (∃ leverage, ∀ before b, before ++ [b] <+: runs → b.Records sha c →
        storedLeverage (run (backfillStep sha) table (before ++ [b])) (c.episodeKey sha) = some leverage ∧
          c.OwnLeverage b.ledger leverage) ↔
      ∃ leverage, ∀ b ∈ runs, b.Records sha c →
        lastLeverage b.ledger c.symbol = leverage ∧ c.OwnLeverage b.ledger leverage := by
  have hstored : ∀ before b, b.Records sha c →
      storedLeverage (run (backfillStep sha) table (before ++ [b])) (c.episodeKey sha) =
        some (lastLeverage b.ledger c.symbol) := by
    intro before b hrecords
    rw [run_append]
    exact storedLeverage_backfillStep hperp hrecords _
  constructor
  · rintro ⟨leverage, h⟩
    refine ⟨leverage, fun b hb hrecords => ?_⟩
    obtain ⟨before, after, rfl⟩ := List.append_of_mem hb
    obtain ⟨hleverage, hown⟩ := h before b ⟨after, by simp⟩ hrecords
    rw [hstored before b hrecords] at hleverage
    exact ⟨Option.some.inj hleverage, hown⟩
  · rintro ⟨leverage, h⟩
    refine ⟨leverage, fun before b hinitial hrecords => ?_⟩
    obtain ⟨hleverage, hown⟩ := h b (hinitial.subset (by simp)) hrecords
    exact ⟨by rw [hstored before b hrecords, hleverage], hown⟩

def perpetualCycleFill (orderId : String) (side : OrderSide) (price quantity : ℚ) : CycleFill where
  fillId := "fill_" ++ orderId
  orderId := orderId
  symbol := "BTCUSDT_PERP"
  side := side
  price := price
  quantity := quantity
  timestamp := 0
  marketType := "PERPETUAL"
  reduceOnly := side = .sell

def btcPerpetual : PerpetualContract := { symbol := "BTCUSDT_PERP" }

def openingRow (transactionId orderId : String) (quantity price leverage : ℚ) : LedgerTransaction where
  transactionId := transactionId
  entryType := .futuresMarginPost
  orderId := some orderId
  metadata := .futuresOpen "BTCUSDT_PERP" .long quantity price leverage (quantity * price / leverage) 0
  entries := openPostings btcPerpetual quantity price (quantity * price / leverage) 0

def closeRow (transactionId orderId : String) (quantity entryPrice exitPrice : ℚ) : LedgerTransaction where
  transactionId := transactionId
  entryType := .futuresRealizedPnl
  orderId := some orderId
  metadata := .futuresClose "BTCUSDT_PERP" .long quantity entryPrice exitPrice ((exitPrice - entryPrice) * quantity) 0 0
  entries := closePostings btcPerpetual quantity entryPrice ((exitPrice - entryPrice) * quantity) 0 0

theorem single_exit_pnl :
    let c : Cycle := {
      symbol := "BTCUSDT_PERP", marketType := "PERPETUAL"
      entryFills := [perpetualCycleFill "o1" .buy 100 2], exitFills := [perpetualCycleFill "o2" .sell 110 2] }
    let ledger := [openingRow "t1" "o1" 2 100 5, closeRow "t2" "o2" 2 100 110]
    LedgerProfit ledger c (cycleEpisode id (ledgerRealizedByOrder ledger) c) :=
  (episode_pnl_iff id _ _ (by decide +kernel) (by decide +kernel)).mpr (by decide +kernel)

/-- A profit of 10 is taken, then a loss of 30: the episode is a win. -/
theorem second_exit_ignored :
    let fills := [perpetualCycleFill "o1" .buy 100 2, perpetualCycleFill "o2" .sell 110 1,
      perpetualCycleFill "o3" .sell 70 1]
    let ledger := [openingRow "t1" "o1" 2 100 5, closeRow "t2" "o2" 1 100 110, closeRow "t3" "o3" 1 100 70]
    ∃ c, buildCycles "BTCUSDT_PERP" fills = [c] ∧ c.complete = true ∧ c.marketType = "PERPETUAL" ∧ c.Settled ledger ∧
      c.ledgerPnl ledger - c.fees = -20 ∧ pnlResult (c.ledgerPnl ledger - c.fees) = .loss ∧
      (cycleEpisode id (ledgerRealizedByOrder ledger) c).grossPnl = 10 ∧
      (cycleEpisode id (ledgerRealizedByOrder ledger) c).result = .win := by
  intro fills ledger
  refine ⟨{ symbol := "BTCUSDT_PERP", marketType := "PERPETUAL", entryFills := [fills.get 0]
            exitFills := [fills.get 1, fills.get 2] }, ?_⟩
  decide +kernel

def roundTrip (entry exit : String) : Cycle where
  symbol := "BTCUSDT_PERP"
  marketType := "PERPETUAL"
  entryFills := [perpetualCycleFill entry .buy 100 1]
  exitFills := [perpetualCycleFill exit .sell 110 1]

/-- A backfill after one cycle with leverage 5. -/
def firstBackfill : BackfillRun where
  ledger := [openingRow "t1" "o1" 1 100 5, closeRow "t2" "o2" 1 100 110]
  fills := [perpetualCycleFill "o1" .buy 100 1, perpetualCycleFill "o2" .sell 110 1]

/-- A backfill after a second cycle, with leverage 10. -/
def secondBackfill : BackfillRun where
  ledger := firstBackfill.ledger ++ [openingRow "t3" "o3" 1 100 10, closeRow "t4" "o4" 1 100 110]
  fills := firstBackfill.fills ++ [perpetualCycleFill "o3" .buy 100 1, perpetualCycleFill "o4" .sell 110 1]

theorem one_cycle_leverage :
    ∃ leverage, ∀ before b, before ++ [b] <+: [firstBackfill] → b.Records id (roundTrip "o1" "o2") →
      storedLeverage (run (backfillStep id) [] (before ++ [b])) ((roundTrip "o1" "o2").episodeKey id) = some leverage ∧
        (roundTrip "o1" "o2").OwnLeverage b.ledger leverage := by
  refine (episode_leverage_iff id [] [firstBackfill] (roundTrip "o1" "o2") rfl).mpr ⟨5, fun b hb _ => ?_⟩
  obtain rfl := List.mem_singleton.mp hb
  decide +kernel

/-- The second backfill rewrites the leverage of the first episode. -/
theorem leverage_rewritten :
    let c := roundTrip "o1" "o2"
    firstBackfill.Records id c ∧ secondBackfill.Records id c ∧
      storedLeverage (run (backfillStep id) [] [firstBackfill]) (c.episodeKey id) = some 5 ∧
      c.OwnLeverage secondBackfill.ledger 5 ∧
      storedLeverage (run (backfillStep id) [] [firstBackfill, secondBackfill]) (c.episodeKey id) = some 10 ∧
      ¬c.OwnLeverage secondBackfill.ledger 10 := by
  intro c
  refine ⟨⟨[], [], by decide +kernel⟩, ⟨[], [roundTrip "o3" "o4"], by decide +kernel⟩, ?_⟩
  decide +kernel

end CryptoTrader
