import CryptoTrader.Domain.Models
import CryptoTrader.Lib.KeyedTable
import CryptoTrader.Lib.Runs
import Mathlib.Algebra.Order.Ring.Rat
import Mathlib.Data.List.Dedup

/-!
# Trade episodes

`governance/trade_episodes.py`: the fills of a symbol replayed into flat-to-flat cycles, the
learning episode of a completed cycle, and the backfill that records the episodes.
-/

namespace CryptoTrader

open KeyedTable Runs

/-- A fill joined with its order, as the backfill reads it. -/
structure CycleFill where
  fillId : String
  orderId : String
  symbol : String
  side : OrderSide
  price : ℚ
  quantity : ℚ
  /-- In seconds. -/
  timestamp : ℚ
  fee : ℚ := 0
  feeCurrency : String := "USDT"
  marketType : String := "SPOT"
  reduceOnly : Bool := false
  strategyId : String := "unknown"
  decisionId : Option String := none
  signalId : Option String := none
  exitReason : String := ""
  deriving DecidableEq, Repr

structure Cycle where
  symbol : String
  marketType : String
  entryFills : List CycleFill := []
  exitFills : List CycleFill := []
  openQty : ℚ := 0
  direction : PositionSide := .long
  deriving DecidableEq, Repr

def Cycle.complete (c : Cycle) : Bool :=
  c.entryFills ≠ [] ∧ c.exitFills ≠ [] ∧ c.openQty = 0

def CycleFill.signed (f : CycleFill) : ℚ :=
  match f.side with
  | .buy => f.quantity
  | .sell => -f.quantity

def CycleFill.isReduce (f : CycleFill) (openQty : ℚ) : Bool :=
  openQty ≠ 0 ∧ (0 < openQty ∧ f.side = .sell ∨ openQty < 0 ∧ f.side = .buy)

/-! ### Cycles -/

/-- The cycle a fill opens. -/
def Cycle.opened (symbol : String) (f : CycleFill) : Cycle where
  symbol := symbol
  marketType := f.marketType
  entryFills := [f]
  openQty := f.signed
  direction := if f.side = .buy then .long else .short

/-- A fill of a cycle under way. -/
def Cycle.add (c : Cycle) (f : CycleFill) : Cycle :=
  if f.isReduce c.openQty || f.reduceOnly then
    { c with exitFills := c.exitFills ++ [f], openQty := c.openQty + f.signed }
  else { c with entryFills := c.entryFills ++ [f], openQty := c.openQty + f.signed }

/-- The cycles completed, with the current one once it is complete. -/
def closeOut (st : List Cycle × Option Cycle) : List Cycle :=
  st.1 ++ (st.2.filter Cycle.complete).toList

/-- One turn of the loop of `build_cycles`. -/
def cycleStep (symbol : String) (st : List Cycle × Option Cycle) (f : CycleFill) : List Cycle × Option Cycle :=
  match st.2.filter (fun c => c.openQty ≠ 0) with
  | some c => (st.1, some (c.add f))
  | none => (closeOut st, if f.isReduce 0 || f.reduceOnly then none else some (Cycle.opened symbol f))

def buildCycles (symbol : String) (fills : List CycleFill) : List Cycle :=
  closeOut (run (cycleStep symbol) ([], none) fills)

/-! ### Episodes -/

def totalQuantity (fills : List CycleFill) : ℚ :=
  (fills.map CycleFill.quantity).sum

def weightedAvg (fills : List CycleFill) : ℚ :=
  if totalQuantity fills = 0 then 0
  else (fills.map (fun f => f.price * f.quantity)).sum / totalQuantity fills

inductive EpisodeResult where
  | win
  | loss
  | breakeven
  deriving DecidableEq, Repr

structure Episode where
  episodeId : String
  symbol : String
  marketType : String
  direction : PositionSide
  entryPrice : ℚ
  exitPrice : ℚ
  positionSize : ℚ
  entryQty : ℚ
  exitQty : ℚ
  holdingTimeSeconds : ℚ
  grossPnl : ℚ
  fees : ℚ
  feeCurrency : String
  netPnl : ℚ
  result : EpisodeResult
  entryTimestamp : ℚ
  exitTimestamp : ℚ
  entryFillIds : List String
  exitFillIds : List String
  entryDecisionId : Option String
  entrySignalId : Option String
  strategyId : String
  deriving DecidableEq, Repr

/-- The text whose digest is the key of an episode. -/
def Cycle.keyText (c : Cycle) : String :=
  let entryIds := String.intercalate "," (c.entryFills.map CycleFill.fillId)
  let exitIds := String.intercalate "," (c.exitFills.map CycleFill.fillId)
  s!"{c.symbol}|{c.marketType}|{entryIds}|{exitIds}"

/-- The key of the episode of a cycle, its digest being `sha`. -/
def Cycle.episodeKey (sha : String → String) (c : Cycle) : String :=
  "eps-" ++ sha c.keyText

/-- The gross profit from the weighted averages. -/
def Cycle.averageGross (c : Cycle) : ℚ :=
  let closedQty := min (totalQuantity c.entryFills) (totalQuantity c.exitFills)
  match c.direction with
  | .long => (weightedAvg c.exitFills - weightedAvg c.entryFills) * closedQty
  | _ => (weightedAvg c.entryFills - weightedAvg c.exitFills) * closedQty

/-- The realized profit the futures ledger has for the first exit order it knows. -/
def Cycle.ledgerGross (c : Cycle) (ledgerRealized : List (String × ℚ)) : Option ℚ :=
  c.exitFills.findSome? (fun f => (row Prod.fst f.orderId ledgerRealized).map Prod.snd)

section Episodes

variable (sha : String → String)

/-- `cycle_episode`, of a cycle with entries and exits. -/
def cycleEpisode (ledgerRealized : List (String × ℚ)) (c : Cycle) : Episode :=
  let entryQty := totalQuantity c.entryFills
  let exitQty := totalQuantity c.exitFills
  let fees := ((c.entryFills ++ c.exitFills).map CycleFill.fee).sum
  let gross := (c.ledgerGross ledgerRealized).getD c.averageGross
  let net := gross - fees
  let entryTimestamp := c.entryFills.head?.elim 0 CycleFill.timestamp
  let exitTimestamp := c.exitFills.getLast?.elim 0 CycleFill.timestamp
  { episodeId := c.episodeKey sha
    symbol := c.symbol
    marketType := c.marketType
    direction := c.direction
    entryPrice := weightedAvg c.entryFills
    exitPrice := weightedAvg c.exitFills
    positionSize := min entryQty exitQty
    entryQty, exitQty
    holdingTimeSeconds := max 0 (exitTimestamp - entryTimestamp)
    grossPnl := gross
    fees
    feeCurrency := (c.exitFills ++ c.entryFills).head?.elim "USDT" CycleFill.feeCurrency
    netPnl := net
    result := if 0 < net then .win else if net < 0 then .loss else .breakeven
    entryTimestamp, exitTimestamp
    entryFillIds := c.entryFills.map CycleFill.fillId
    exitFillIds := c.exitFills.map CycleFill.fillId
    entryDecisionId := c.entryFills.head?.bind CycleFill.decisionId
    entrySignalId := c.entryFills.head?.bind CycleFill.signalId
    strategyId := c.entryFills.head?.elim "unknown" CycleFill.strategyId }

def exitReasonFor (exitFills : List CycleFill) (exitIntents : List (String × String)) (entryTimestamp : ℚ)
    (timeStopSeconds : ℚ) : String :=
  match exitFills.find? (fun f => f.exitReason ≠ "") with
  | some f => f.exitReason
  | none =>
    match exitFills.findSome? (fun f => (row Prod.fst f.orderId exitIntents).map Prod.snd) with
    | some reason => reason
    | none =>
      let held := exitFills.getLast?.elim 0 CycleFill.timestamp - entryTimestamp
      if exitFills ≠ [] ∧ exitFills.all (fun f => f.strategyId = "ai_brain") ∧ timeStopSeconds * (95 / 100) ≤ held then
        "TIME_STOP"
      else "UNKNOWN"

/-! ### The backfill -/

/-- The row of an episode. -/
structure AITradeEpisode where
  episodeId : String
  symbol : String
  strategySelected : String
  marketType : String
  direction : PositionSide
  entryPrice : ℚ
  exitPrice : ℚ
  positionSize : ℚ
  leverage : ℚ
  holdingTimeSeconds : ℚ
  grossPnl : ℚ
  fees : ℚ
  netPnl : ℚ
  result : EpisodeResult
  exitReason : String
  deriving DecidableEq, Repr

/-- What the backfill reads beside the fills: quarantined fills, the times of quarantines of a
symbol, realized profits and exit reasons by order, and leverages by symbol. -/
structure EpisodeEvidence where
  quarantined : List String := []
  windows : List (String × ℚ) := []
  ledgerRealized : List (String × ℚ) := []
  exitIntents : List (String × String) := []
  perpLeverage : List (String × ℚ) := []

/-- The table, what was inserted, and how often an episode was there already. -/
structure Backfill where
  table : List AITradeEpisode
  inserted : List AITradeEpisode := []
  existed : Nat := 0

def episodeRow (episode : Episode) (exitReason : String) (leverage : Option ℚ) : AITradeEpisode where
  episodeId := episode.episodeId
  symbol := episode.symbol
  strategySelected := episode.strategyId
  marketType := episode.marketType
  direction := episode.direction
  entryPrice := episode.entryPrice
  exitPrice := episode.exitPrice
  positionSize := episode.positionSize
  leverage := (leverage.filter (fun l => 0 < l)).getD 1
  holdingTimeSeconds := episode.holdingTimeSeconds
  grossPnl := episode.grossPnl
  fees := episode.fees
  netPnl := episode.netPnl
  result := episode.result
  exitReason := exitReason

/-- `persist_episode_sync`: the row of a known key has its derived fields written again. -/
def persistEpisode (r : AITradeEpisode) (st : Backfill) : Backfill :=
  if r.episodeId ∈ st.table.map AITradeEpisode.episodeId then
    { st with
      table := st.table.map (fun old => if old.episodeId = r.episodeId then
        { r with symbol := old.symbol, strategySelected := old.strategySelected } else old)
      existed := st.existed + 1 }
  else { st with table := st.table ++ [r], inserted := st.inserted ++ [r] }

variable (evidence : EpisodeEvidence)

/-- A quarantined fill is in the episode, or a quarantine of its symbol falls into its span. -/
def Cycle.excluded (c : Cycle) : Bool :=
  let episode := cycleEpisode sha evidence.ledgerRealized c
  (episode.entryFillIds ++ episode.exitFillIds).any (· ∈ evidence.quarantined) ||
    evidence.windows.any (fun w => w.1 = c.symbol ∧ episode.entryTimestamp ≤ w.2 ∧ w.2 ≤ episode.exitTimestamp)

/-- The row a completed cycle is recorded as. -/
def Cycle.row (c : Cycle) : AITradeEpisode :=
  let episode := cycleEpisode sha evidence.ledgerRealized c
  let leverage :=
    if episode.marketType = "PERPETUAL" then (KeyedTable.row Prod.fst c.symbol evidence.perpLeverage).map Prod.snd
    else some 1
  let exitReason := exitReasonFor c.exitFills evidence.exitIntents episode.entryTimestamp 14400
  episodeRow episode exitReason leverage

def recordCycle (st : Backfill) (c : Cycle) : Backfill :=
  if c.excluded sha evidence then st else persistEpisode (c.row sha evidence) st

/-- The cycles of a symbol, from the fills that are not quarantined. -/
def cyclesOf (fills : List CycleFill) (symbol : String) : List Cycle :=
  buildCycles symbol (fills.filter (fun f => f.symbol = symbol ∧ f.fillId ∉ evidence.quarantined))

/-- The symbols asked for, or those of the fills. -/
def backfillSymbols (fills : List CycleFill) (symbols : Option (List String)) : List String :=
  symbols.getD (fills.map CycleFill.symbol).dedup

/-- `record_all_cycles_sync`: symbol by symbol, cycle by cycle. -/
def recordAllCycles (fills : List CycleFill) (symbols : Option (List String)) (table : List AITradeEpisode) : Backfill :=
  run (recordCycle sha evidence) { table } ((backfillSymbols fills symbols).flatMap (cyclesOf evidence fills))

/-! ### Completed cycles stay -/

lemma closeOut_of_open {st : List Cycle × Option Cycle} {c : Cycle} (h : st.2 = some c) (hopen : c.openQty ≠ 0) :
    closeOut st = st.1 := by
  simp [closeOut, h, Cycle.complete, hopen]

/-- A fill leaves the completed cycles, with the current one if it is complete. -/
lemma closeOut_cycleStep (symbol : String) (st : List Cycle × Option Cycle) (f : CycleFill) :
    closeOut st <+: closeOut (cycleStep symbol st f) := by
  unfold cycleStep
  split
  · rename_i c hc
    obtain ⟨hcurrent, hopen⟩ := Option.filter_eq_some_iff.mp hc
    rw [closeOut_of_open hcurrent (of_decide_eq_true hopen)]
    exact List.prefix_append _ _
  · exact List.prefix_append _ _

lemma closeOut_run (symbol : String) (st : List Cycle × Option Cycle) (fills : List CycleFill) :
    closeOut st <+: closeOut (run (cycleStep symbol) st fills) := by
  induction fills generalizing st with
  | nil => exact List.prefix_refl _
  | cons f fills ih => exact (closeOut_cycleStep symbol st f).trans (ih _)

lemma buildCycles_append (symbol : String) (fills later : List CycleFill) :
    buildCycles symbol fills <+: buildCycles symbol (fills ++ later) := by
  unfold buildCycles
  rw [run_append]
  exact closeOut_run symbol _ later

lemma cyclesOf_append (fills later : List CycleFill) (symbol : String) :
    cyclesOf evidence fills symbol <+: cyclesOf evidence (fills ++ later) symbol := by
  unfold cyclesOf
  rw [List.filter_append]
  exact buildCycles_append symbol _ _

lemma mem_symbols_of_mem_cyclesOf {evidence : EpisodeEvidence} {fills : List CycleFill} {symbol : String} {c : Cycle}
    (h : c ∈ cyclesOf evidence fills symbol) : symbol ∈ fills.map CycleFill.symbol := by
  by_contra hnone
  have hempty : fills.filter (fun f => f.symbol = symbol ∧ f.fillId ∉ evidence.quarantined) = [] := by
    refine List.filter_eq_nil_iff.mpr (fun f hf hsymbol => hnone ?_)
    exact List.mem_map.mpr ⟨f, hf, (of_decide_eq_true hsymbol).1⟩
  rw [cyclesOf, hempty] at h
  simp [buildCycles, closeOut] at h

/-! ### What the backfill records -/

section Records

variable {sha evidence}

lemma ids_persistEpisode {r : AITradeEpisode} {st : Backfill} {id : String}
    (h : id ∈ st.table.map AITradeEpisode.episodeId ∨ id = r.episodeId) :
    id ∈ (persistEpisode r st).table.map AITradeEpisode.episodeId := by
  unfold persistEpisode
  split
  · rename_i hknown
    have hids : (st.table.map (fun old => if old.episodeId = r.episodeId then
        { r with symbol := old.symbol, strategySelected := old.strategySelected } else old)).map
          AITradeEpisode.episodeId = st.table.map AITradeEpisode.episodeId := by
      rw [List.map_map]
      apply List.map_congr_left
      intro old _
      by_cases hold : old.episodeId = r.episodeId <;> simp [hold]
    dsimp only
    rw [hids]
    rcases h with h | rfl
    · exact h
    · exact hknown
  · simpa using h

lemma ids_recordCycle {st : Backfill} {c : Cycle} {id : String} (h : id ∈ st.table.map AITradeEpisode.episodeId) :
    id ∈ (recordCycle sha evidence st c).table.map AITradeEpisode.episodeId := by
  unfold recordCycle
  split
  · exact h
  · exact ids_persistEpisode (.inl h)

/-- A cycle that is not excluded has its key in the table from then on. -/
lemma key_run {st : Backfill} {cycles : List Cycle} {c : Cycle} (hc : c ∈ cycles)
    (hincluded : c.excluded sha evidence = false) :
    c.episodeKey sha ∈ (run (recordCycle sha evidence) st cycles).table.map AITradeEpisode.episodeId := by
  induction cycles generalizing st with
  | nil => contradiction
  | cons x cycles ih =>
    rcases List.mem_cons.mp hc with rfl | hc
    · have hkey : c.episodeKey sha ∈ (recordCycle sha evidence st c).table.map AITradeEpisode.episodeId := by
        rw [recordCycle, if_neg (by simp [hincluded])]
        exact ids_persistEpisode (.inr rfl)
      have hstep : ∀ (st : Backfill) (x : Cycle), c.episodeKey sha ∈ st.table.map AITradeEpisode.episodeId → True →
          c.episodeKey sha ∈ (recordCycle sha evidence st x).table.map AITradeEpisode.episodeId :=
        fun _ _ h _ => ids_recordCycle h
      rw [run_cons]
      exact run_invariant hstep hkey (along_of_forall (fun _ _ => trivial))
    · exact ih hc

lemma inserted_persistEpisode {r r' : AITradeEpisode} {st : Backfill} (h : r' ∈ (persistEpisode r st).inserted) :
    r' ∈ st.inserted ∨ r' = r ∧ r.episodeId ∉ st.table.map AITradeEpisode.episodeId := by
  unfold persistEpisode at h
  split at h
  · exact .inl h
  · rename_i hfresh
    exact (List.mem_append.mp h).imp id (fun h => ⟨List.mem_singleton.mp h, hfresh⟩)

lemma inserted_recordCycle {st : Backfill} {c : Cycle} {r : AITradeEpisode}
    (h : r ∈ (recordCycle sha evidence st c).inserted) :
    r ∈ st.inserted ∨ c.excluded sha evidence = false ∧ r.episodeId = c.episodeKey sha ∧
      r.episodeId ∉ st.table.map AITradeEpisode.episodeId := by
  unfold recordCycle at h
  split at h
  · exact .inl h
  · rename_i hincluded
    rcases inserted_persistEpisode h with h | ⟨rfl, hfresh⟩
    · exact .inl h
    · exact .inr ⟨by simpa using hincluded, rfl, hfresh⟩

/-- What a backfill inserts are cycles it was given, and none whose key the table had. -/
lemma inserted_run {st : Backfill} {cycles : List Cycle} {r : AITradeEpisode}
    (h : r ∈ (run (recordCycle sha evidence) st cycles).inserted) :
    r ∈ st.inserted ∨ ∃ c ∈ cycles, c.excluded sha evidence = false ∧ r.episodeId = c.episodeKey sha ∧
      r.episodeId ∉ st.table.map AITradeEpisode.episodeId := by
  induction cycles generalizing st with
  | nil => exact .inl h
  | cons x cycles ih =>
    rcases ih h with h | ⟨c, hc, hincluded, hkey, hfresh⟩
    · exact (inserted_recordCycle h).imp id (fun hx => ⟨x, List.mem_cons_self, hx⟩)
    · exact .inr ⟨c, List.mem_cons_of_mem x hc, hincluded, hkey, fun hold => hfresh (ids_recordCycle hold)⟩

end Records

/-- More fills leave the completed cycles and the keys of their episodes, and a backfill that
runs again inserts episodes of later cycles only. -/
theorem completed_cycles_stay (ledgerRealized : List (String × ℚ)) (exitIntents : List (String × String))
    (perpLeverage : List (String × ℚ)) (fills later : List CycleFill) (symbols : Option (List String))
    (table : List AITradeEpisode) :
    let grown : EpisodeEvidence := { evidence with ledgerRealized, exitIntents, perpLeverage }
    let first := recordAllCycles sha evidence fills symbols table
    let second := recordAllCycles sha grown (fills ++ later) symbols first.table
    (∀ symbol xs ys, buildCycles symbol xs <+: buildCycles symbol (xs ++ ys)) ∧
    (∀ symbol xs ys,
      (buildCycles symbol xs).map (fun c => (cycleEpisode sha evidence.ledgerRealized c).episodeId) <+:
        (buildCycles symbol (xs ++ ys)).map (fun c => (cycleEpisode sha ledgerRealized c).episodeId)) ∧
    ∀ r ∈ second.inserted, r.episodeId ∉ first.table.map AITradeEpisode.episodeId ∧
      ∃ symbol ∈ backfillSymbols (fills ++ later) symbols,
        ∃ c ∈ (cyclesOf evidence (fills ++ later) symbol).drop (cyclesOf evidence fills symbol).length,
          r.episodeId = c.episodeKey sha := by
  intro grown first second
  refine ⟨buildCycles_append, fun symbol xs ys => (buildCycles_append symbol xs ys).map _, ?_⟩
  intro r hr
  rcases inserted_run hr with h | ⟨c, hc, hincluded, hkey, hfresh⟩
  · contradiction
  refine ⟨hfresh, ?_⟩
  obtain ⟨symbol, hsymbol, hc⟩ := List.mem_flatMap.mp hc
  have hc : c ∈ cyclesOf evidence (fills ++ later) symbol := hc
  obtain ⟨tail, htail⟩ := cyclesOf_append evidence fills later symbol
  rw [← htail] at hc
  rcases List.mem_append.mp hc with hold | hnew
  · -- The first run had the cycle, and recorded it.
    have hasked : symbol ∈ backfillSymbols fills symbols := by
      cases symbols with
      | none => exact List.mem_dedup.mpr (mem_symbols_of_mem_cyclesOf hold)
      | some asked => exact hsymbol
    have hrecorded : c.episodeKey sha ∈ first.table.map AITradeEpisode.episodeId :=
      key_run (List.mem_flatMap.mpr ⟨symbol, hasked, hold⟩) hincluded
    exact absurd (hkey ▸ hrecorded) hfresh
  · refine ⟨symbol, hsymbol, c, ?_, hkey⟩
    rw [← htail, List.drop_left]
    exact hnew

end Episodes

end CryptoTrader
