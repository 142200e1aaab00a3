import CryptoTrader.Governance.TradeEpisodes
import CryptoTrader.Lib.Json
import CryptoTrader.Runtime.SignalIds
import Mathlib.Data.Sign.Basic
import Mathlib.Logic.Function.Basic
import Mathlib.Tactic.FieldSimp
import Mathlib.Tactic.Linarith
import Mathlib.Tactic.Positivity

/-!
# The trades of the exploration analytics

`exploration_status` of `runtime/exploration_analytics.py` replays the fills with one open lot
for each symbol, which the last entry fill replaces and the first closing fill takes.
`build_cycles` replays them from flat to flat.
-/

namespace CryptoTrader

open KeyedTable Runs

/-- What is kept of a decision of the chief trader. -/
structure EntryDecision where
  signalId : String := ""
  decisionId : String := ""
  decisionClass : String := ""
  selectedStrategy : String := ""
  strategyFitScore : Option ℚ := none
  marketRegime : String := ""
  rawConfidence : Option ℚ := none
  evidenceAdjustedConfidence : Option ℚ := none
  factorSnapshotId : String := ""
  factorSetVersion : String := ""
  deriving DecidableEq, Repr

def isValidLearningSample : Option EntryDecision → Bool
  | none => false
  | some d => d.factorSnapshotId ≠ "" && d.factorSetVersion ≠ "" && !(["", "UNKNOWN"].contains d.marketRegime.toUpper) &&
    d.selectedStrategy ≠ "" && d.strategyFitScore.isSome && d.decisionClass ≠ ""

/-- Of the decisions with one signal id the last. -/
def signalToDecision (decisions : List EntryDecision) : Dict String EntryDecision :=
  (decisions.filter (fun d => d.signalId ≠ "")).foldl (fun byId d => byId.alter d.signalId (fun _ => d)) []

/-- A fill joined with its order. -/
structure ExplorationFill extends CycleFill where
  clientOrderId : String := ""
  deriving DecidableEq, Repr

/-- An entry of `open_lot`. -/
structure OpenLot where
  price : ℚ
  qty : ℚ
  ts : ℚ
  side : OrderSide
  direction : PositionSide
  fit : Option ℚ := none
  confidence : Option ℚ := none
  strategy : Option String := none
  regime : Option String := none
  decisionClass : Option String := none
  decisionId : Option String := none
  validSample : Bool := false
  deriving DecidableEq, Repr

/-- A completed trade. Of the two times the source keeps the difference. -/
structure ExplorationTrade where
  symbol : String
  returnRate : ℚ
  entryTs : ℚ
  exitTs : ℚ
  strategyFitScore : Option ℚ := none
  evidenceAdjustedConfidence : Option ℚ := none
  selectedStrategy : Option String := none
  marketRegime : Option String := none
  decisionClass : Option String := none
  decisionId : Option String := none
  direction : PositionSide
  validSample : Bool := false
  deriving DecidableEq, Repr

def ExplorationTrade.holdingSeconds (t : ExplorationTrade) : ℚ := t.exitTs - t.entryTs

def OpenLot.opened (decision : Option EntryDecision) (f : ExplorationFill) : OpenLot where
  price := f.price
  qty := |f.signed|
  ts := f.timestamp
  side := f.side
  direction := if f.side = .buy then .long else .short
  fit := decision.bind (·.strategyFitScore)
  confidence := decision.bind (fun d => (d.evidenceAdjustedConfidence.filter (· ≠ 0)).or d.rawConfidence)
  strategy := decision.map (·.selectedStrategy)
  regime := decision.map (·.marketRegime)
  decisionClass := decision.map (·.decisionClass)
  decisionId := decision.map (·.decisionId)
  validSample := isValidLearningSample decision

def OpenLot.closed (lot : OpenLot) (f : ExplorationFill) : ExplorationTrade where
  symbol := f.symbol
  returnRate := (if lot.side = .buy then 1 else -1) * (f.price - lot.price) / lot.price
  entryTs := lot.ts
  exitTs := f.timestamp
  strategyFitScore := lot.fit
  evidenceAdjustedConfidence := lot.confidence
  selectedStrategy := lot.strategy
  marketRegime := lot.regime
  decisionClass := lot.decisionClass
  decisionId := lot.decisionId
  direction := lot.direction
  validSample := lot.validSample

structure ExplorationState where
  net : String → ℚ := fun _ => 0
  openLot : String → Option OpenLot := fun _ => none
  trades : List ExplorationTrade := []
  executedEntries : ℕ := 0
  executedStrategyCounts : Dict String ℤ := []
  executedRegimeCounts : Dict String ℤ := []
  executedStrategyRegime : Dict String (Dict String ℤ) := []

def ExplorationState.countEntry (st : ExplorationState) (decision : Option EntryDecision) : ExplorationState :=
  let strategy := (decision.map (·.selectedStrategy)).getD ""
  let regime := (decision.map (·.marketRegime)).getD ""
  { st with
    executedEntries := st.executedEntries + 1
    executedStrategyCounts :=
      if strategy = "" then st.executedStrategyCounts else Dict.bump strategy 1 st.executedStrategyCounts
    executedRegimeCounts :=
      if regime = "" then st.executedRegimeCounts else Dict.bump regime 1 st.executedRegimeCounts
    executedStrategyRegime :=
      if strategy = "" then st.executedStrategyRegime
      else Dict.alter strategy (fun counts => Dict.bump (if regime = "" then "UNKNOWN" else regime) 1 (counts.getD []))
        st.executedStrategyRegime }

def opensEntry (previous signed : ℚ) : Bool :=
  previous = 0 || 0 < previous && 0 < signed || previous < 0 && signed < 0

section Replay

variable (decisions : List EntryDecision)

def decisionOf (f : ExplorationFill) : Option EntryDecision :=
  (signalToDecision decisions).get (signalFromClient f.clientOrderId)

def ExplorationState.take (st : ExplorationState) (f : ExplorationFill) : ExplorationState :=
  if f.quantity ≤ 0 ∨ f.price ≤ 0 then st
  else
    let previous := st.net f.symbol
    let st := { st with net := Function.update st.net f.symbol (previous + f.signed) }
    if opensEntry previous f.signed then
      let decision := decisionOf decisions f
      { st.countEntry decision with openLot := Function.update st.openLot f.symbol (some (.opened decision f)) }
    else
      match st.openLot f.symbol with
      | none => st
      | some lot =>
        { st with
          openLot := Function.update st.openLot f.symbol none
          trades := st.trades ++ [lot.closed f] }

/-- The trades that `exploration_status` reports. -/
def explorationTrades (fills : List ExplorationFill) : List ExplorationTrade :=
  (run (ExplorationState.take decisions) {} fills).trades

end Replay

/-! ### One symbol -/

/-- What the replay keeps of one symbol. -/
structure LotState where
  net : ℚ := 0
  lot : Option OpenLot := none
  trades : List ExplorationTrade := []

def ExplorationState.ofSymbol (symbol : String) (st : ExplorationState) : LotState where
  net := st.net symbol
  lot := st.openLot symbol
  trades := st.trades.filter (fun t => t.symbol = symbol)

section Symbol

variable (decisions : List EntryDecision)

def LotState.take (st : LotState) (f : ExplorationFill) : LotState :=
  if f.quantity ≤ 0 ∨ f.price ≤ 0 then st
  else if opensEntry st.net f.signed then
    { st with net := st.net + f.signed, lot := some (.opened (decisionOf decisions f) f) }
  else
    match st.lot with
    | none => { st with net := st.net + f.signed }
    | some lot => { net := st.net + f.signed, lot := none, trades := st.trades ++ [lot.closed f] }

lemma ofSymbol_take_self (st : ExplorationState) (f : ExplorationFill) :
    (st.take decisions f).ofSymbol f.symbol = (st.ofSymbol f.symbol).take decisions f := by
  unfold ExplorationState.take LotState.take
  by_cases hskip : f.quantity ≤ 0 ∨ f.price ≤ 0
  · rw [if_pos hskip, if_pos hskip]
  rw [if_neg hskip, if_neg hskip]
  dsimp only
  by_cases hopens : opensEntry (st.net f.symbol) f.signed = true
  · have hopens' : opensEntry (st.ofSymbol f.symbol).net f.signed = true := hopens
    rw [if_pos hopens, if_pos hopens']
    simp [ExplorationState.ofSymbol, ExplorationState.countEntry]
  · have hopens' : ¬ opensEntry (st.ofSymbol f.symbol).net f.signed = true := hopens
    rw [if_neg hopens, if_neg hopens']
    cases hlot : st.openLot f.symbol with
    | none => simp [ExplorationState.ofSymbol, hlot]
    | some lot => simp [ExplorationState.ofSymbol, hlot, OpenLot.closed]

lemma ofSymbol_take_of_ne {symbol : String} (st : ExplorationState) {f : ExplorationFill} (h : f.symbol ≠ symbol) :
    (st.take decisions f).ofSymbol symbol = st.ofSymbol symbol := by
  unfold ExplorationState.take
  split
  · rfl
  dsimp only
  split
  · simp [ExplorationState.ofSymbol, ExplorationState.countEntry, Function.update_of_ne h.symm]
  · cases st.openLot f.symbol with
    | none => simp [ExplorationState.ofSymbol, Function.update_of_ne h.symm]
    | some lot => simp [ExplorationState.ofSymbol, Function.update_of_ne h.symm, OpenLot.closed, h]

/-- The trades of a symbol are made of its fills. -/
lemma trades_ofSymbol (fills : List ExplorationFill) (symbol : String) :
    (explorationTrades decisions fills).filter (fun t => t.symbol = symbol) =
      (run (LotState.take decisions) {} (fills.filter (fun f => f.symbol = symbol))).trades := by
  have hrun : (run (ExplorationState.take decisions) {} fills).ofSymbol symbol =
      run (LotState.take decisions) {} (fills.filter (fun f => f.symbol = symbol)) := by
    apply run_filter (φ := ExplorationState.ofSymbol symbol)
    · intro st f hf
      obtain rfl : f.symbol = symbol := of_decide_eq_true hf
      exact ofSymbol_take_self decisions st f
    · intro st f hf
      exact ofSymbol_take_of_ne decisions st (of_decide_eq_false hf)
  exact congrArg LotState.trades hrun

end Symbol

/-! ### Positions -/

/-- 1 of a buy, -1 of a sale. -/
def sideSign : OrderSide → ℚ
  | .buy => 1
  | .sell => -1

lemma signed_eq (f : CycleFill) : f.signed = sideSign f.side * f.quantity := by
  unfold CycleFill.signed sideSign
  cases f.side with
  | buy => exact (one_mul _).symm
  | sell => exact (neg_one_mul _).symm

/-- The fills of a position in one direction that increase it. -/
def BuildsUp (side : OrderSide) (fills : List ExplorationFill) : Prop :=
  ∀ f ∈ fills, f.side = side ∧ f.reduceOnly = false ∧ 0 < f.quantity ∧ 0 < f.price

/-- The fills of a position in one direction that reduce it. -/
def Reducing (side : OrderSide) (fills : List ExplorationFill) : Prop :=
  ∀ f ∈ fills, f.side ≠ side ∧ 0 < f.quantity ∧ 0 < f.price

def quantityOf (fills : List ExplorationFill) : ℚ := (fills.map (·.quantity)).sum

/-- A position that is built up, and then closed down to nothing. -/
structure ReplayedPosition where
  side : OrderSide
  first : ExplorationFill
  adds : List ExplorationFill := []
  exit : ExplorationFill
  exits : List ExplorationFill := []
  increasing : BuildsUp side (first :: adds)
  reducing : Reducing side (exit :: exits)
  closed : quantityOf (exit :: exits) = quantityOf (first :: adds)

namespace ReplayedPosition

def entryFills (pos : ReplayedPosition) : List ExplorationFill := pos.first :: pos.adds

def exitFills (pos : ReplayedPosition) : List ExplorationFill := pos.exit :: pos.exits

def fills (pos : ReplayedPosition) : List ExplorationFill := pos.entryFills ++ pos.exitFills

def lastEntry (pos : ReplayedPosition) : ExplorationFill := pos.entryFills.getLast (List.cons_ne_nil _ _)

def trade (decisions : List EntryDecision) (pos : ReplayedPosition) : ExplorationTrade :=
  (OpenLot.opened (decisionOf decisions pos.lastEntry) pos.lastEntry).closed pos.exit

def cycle (symbol : String) (pos : ReplayedPosition) : Cycle where
  symbol := symbol
  marketType := pos.first.marketType
  entryFills := pos.entryFills.map (·.toCycleFill)
  exitFills := pos.exitFills.map (·.toCycleFill)
  openQty := 0
  direction := if pos.side = .buy then .long else .short

end ReplayedPosition

lemma quantityOf_cons (f : ExplorationFill) (fills : List ExplorationFill) :
    quantityOf (f :: fills) = f.quantity + quantityOf fills := List.sum_cons

lemma Reducing.nonneg {side : OrderSide} {fills : List ExplorationFill} (h : Reducing side fills) :
    0 ≤ quantityOf fills := by
  apply List.sum_nonneg
  intro q hq
  obtain ⟨f, hf, rfl⟩ := List.mem_map.mp hq
  exact (h f hf).2.1.le

lemma opensEntry_increase {side : OrderSide} {p q : ℚ} (hp : 0 ≤ p) (hq : 0 < q) :
    opensEntry (sideSign side * p) (sideSign side * q) = true := by
  rcases hp.eq_or_lt with rfl | hp
  · simp [opensEntry]
  · cases side with
    | buy => simp [opensEntry, sideSign, hp, hq]
    | sell => simp [opensEntry, sideSign, hp, hq]

lemma sideSign_of_ne {side side' : OrderSide} (h : side' ≠ side) : sideSign side' = -sideSign side := by
  cases side with
  | buy =>
    cases side' with
    | buy => exact absurd rfl h
    | sell => rfl
  | sell =>
    cases side' with
    | buy => exact (neg_neg 1).symm
    | sell => exact absurd rfl h

lemma opensEntry_reduce {side : OrderSide} {p q : ℚ} (hp : 0 < p) (hq : 0 < q) :
    opensEntry (sideSign side * p) (-sideSign side * q) = false := by
  cases side with
  | buy => simp [opensEntry, sideSign, hp.ne', hp.le, hq.le, hp]
  | sell => simp [opensEntry, sideSign, hp.ne', hp.le, hq.le, hp]

/-! ### The replay of a position -/

section Lots

variable (decisions : List EntryDecision) {side : OrderSide}

lemma take_increase {p : ℚ} (hp : 0 ≤ p) (lot : Option OpenLot) (trades : List ExplorationTrade) {f : ExplorationFill}
    (hf : f.side = side ∧ f.reduceOnly = false ∧ 0 < f.quantity ∧ 0 < f.price) :
    LotState.take decisions ⟨sideSign side * p, lot, trades⟩ f =
      ⟨sideSign side * (p + f.quantity), some (.opened (decisionOf decisions f) f), trades⟩ := by
  obtain ⟨rfl, -, hquantity, hprice⟩ := hf
  have hskip : ¬ (f.quantity ≤ 0 ∨ f.price ≤ 0) := not_or.mpr ⟨not_le.mpr hquantity, not_le.mpr hprice⟩
  rw [LotState.take, if_neg hskip, signed_eq, if_pos (opensEntry_increase hp hquantity), mul_add]

lemma take_reduce {p : ℚ} (hp : 0 < p) (lot : Option OpenLot) (trades : List ExplorationTrade) {f : ExplorationFill}
    (hf : f.side ≠ side ∧ 0 < f.quantity ∧ 0 < f.price) :
    LotState.take decisions ⟨sideSign side * p, lot, trades⟩ f =
      ⟨sideSign side * (p - f.quantity), none, trades ++ (lot.map (fun lot => lot.closed f)).toList⟩ := by
  obtain ⟨hside, hquantity, hprice⟩ := hf
  have hskip : ¬ (f.quantity ≤ 0 ∨ f.price ≤ 0) := not_or.mpr ⟨not_le.mpr hquantity, not_le.mpr hprice⟩
  have hsign : sideSign side * p + -sideSign side * f.quantity = sideSign side * (p - f.quantity) := by ring
  rw [LotState.take, if_neg hskip, signed_eq, sideSign_of_ne hside, opensEntry_reduce hp hquantity, hsign]
  cases lot with
  | none => simp
  | some lot => simp

/-- The last of the entry fills leaves its lot. -/
lemma run_increase {p : ℚ} (hp : 0 ≤ p) (lot : Option OpenLot) (trades : List ExplorationTrade) {f : ExplorationFill}
    {fills : List ExplorationFill} (hf : BuildsUp side (f :: fills)) :
    run (LotState.take decisions) ⟨sideSign side * p, lot, trades⟩ (f :: fills) =
      ⟨sideSign side * (p + quantityOf (f :: fills)),
        some (.opened (decisionOf decisions ((f :: fills).getLast (List.cons_ne_nil _ _)))
          ((f :: fills).getLast (List.cons_ne_nil _ _))), trades⟩ := by
  induction fills generalizing p lot f with
  | nil =>
    rw [run_cons, take_increase decisions hp lot trades (hf f (by simp)), quantityOf_cons]
    simp [quantityOf]
  | cons f' fills ih =>
    have hquantity : 0 < f.quantity := (hf f (by simp)).2.2.1
    rw [run_cons, take_increase decisions hp lot trades (hf f (by simp)),
      ih (by positivity) _ (fun g hg => hf g (List.mem_cons_of_mem _ hg)), quantityOf_cons f, add_assoc]
    simp only [List.getLast_cons_cons]

/-- Once the lot is closed, nothing comes of the fills that reduce the position further. -/
lemma run_reduce {p : ℚ} (trades : List ExplorationTrade) {fills : List ExplorationFill} (hfills : Reducing side fills)
    (hp : quantityOf fills ≤ p) :
    run (LotState.take decisions) ⟨sideSign side * p, none, trades⟩ fills =
      ⟨sideSign side * (p - quantityOf fills), none, trades⟩ := by
  induction fills generalizing p with
  | nil => simp [quantityOf]
  | cons f fills ih =>
    have hrest : Reducing side fills := fun g hg => hfills g (List.mem_cons_of_mem _ hg)
    have hf := hfills f (by simp)
    rw [quantityOf_cons] at hp
    have hpos : 0 < p := by linarith [hf.2.1, hrest.nonneg]
    rw [run_cons, take_reduce decisions hpos none trades hf, Option.map_none, Option.toList_none, List.append_nil,
      ih hrest (by linarith), quantityOf_cons, sub_sub]

/-- A position makes one trade, of its last entry and its first exit. -/
lemma run_position (pos : ReplayedPosition) (lot : Option OpenLot) (trades : List ExplorationTrade) :
    run (LotState.take decisions) ⟨0, lot, trades⟩ pos.fills = ⟨0, none, trades ++ [pos.trade decisions]⟩ := by
  have hentries := run_increase decisions le_rfl lot trades pos.increasing
  rw [mul_zero, zero_add] at hentries
  have hexits : Reducing pos.side pos.exits := fun g hg => pos.reducing g (List.mem_cons_of_mem _ hg)
  have hexit := pos.reducing pos.exit (by simp)
  have hclosed := pos.closed
  rw [quantityOf_cons] at hclosed
  have hpos : 0 < quantityOf (pos.first :: pos.adds) := by linarith [hexit.2.1, hexits.nonneg]
  rw [ReplayedPosition.fills, run_append, ReplayedPosition.entryFills, hentries, ReplayedPosition.exitFills, run_cons,
    take_reduce decisions hpos _ trades hexit, Option.map_some, Option.toList_some,
    run_reduce decisions _ hexits (by linarith), sub_sub, hclosed, sub_self, mul_zero]
  rfl

lemma run_positions (positions : List ReplayedPosition) {opening : List ExplorationFill} (hopening : BuildsUp side opening)
    (lot : Option OpenLot) (trades : List ExplorationTrade) :
    (run (LotState.take decisions) ⟨0, lot, trades⟩ (positions.flatMap (·.fills) ++ opening)).trades =
      trades ++ positions.map (·.trade decisions) := by
  induction positions generalizing lot trades with
  | nil =>
    cases opening with
    | nil => simp
    | cons f fills =>
      have hrun := run_increase decisions le_rfl lot trades hopening
      rw [mul_zero] at hrun
      rw [List.flatMap_nil, List.nil_append, hrun, List.map_nil, List.append_nil]
  | cons pos positions ih =>
    rw [List.flatMap_cons, List.append_assoc, run_append, run_position, ih, List.map_cons, List.append_assoc]
    rfl

end Lots

/-! ### The cycle of a position -/

section Cycles

variable (symbol : String) {side : OrderSide} (completed : List Cycle)

lemma isReduce_zero (f : CycleFill) : f.isReduce 0 = false := by simp [CycleFill.isReduce]

lemma isReduce_increase {p : ℚ} (hp : 0 < p) {f : CycleFill} (hside : f.side = side) :
    f.isReduce (sideSign side * p) = false := by
  subst hside
  cases hs : f.side with
  | buy => simp [CycleFill.isReduce, sideSign, hs, hp.le]
  | sell => simp [CycleFill.isReduce, sideSign, hs, hp.le]

lemma isReduce_reduce {p : ℚ} (hp : 0 < p) {f : CycleFill} (hside : f.side ≠ side) :
    f.isReduce (sideSign side * p) = true := by
  cases hs : f.side with
  | buy =>
    cases side with
    | buy => exact absurd hs hside
    | sell => simp [CycleFill.isReduce, sideSign, hs, hp, hp.ne']
  | sell =>
    cases side with
    | buy => simp [CycleFill.isReduce, sideSign, hs, hp, hp.ne']
    | sell => exact absurd hs hside

lemma sideSign_mul_ne {p : ℚ} (hp : 0 < p) : sideSign side * p ≠ 0 := by
  cases side with
  | buy => simp [sideSign, hp.ne']
  | sell => simp [sideSign, hp.ne']

lemma cycleStep_of_open {c : Cycle} (h : c.openQty ≠ 0) (f : CycleFill) :
    cycleStep symbol (completed, some c) f = (completed, some (c.add f)) := by
  simp [cycleStep, Option.filter_some, h]

lemma run_cycle_increase {p : ℚ} (hp : 0 < p) {c : Cycle} (hc : c.openQty = sideSign side * p)
    {fills : List ExplorationFill} (hfills : BuildsUp side fills) :
    run (cycleStep symbol) (completed, some c) (fills.map (·.toCycleFill)) = (completed, some { c with
      entryFills := c.entryFills ++ fills.map (·.toCycleFill)
      openQty := sideSign side * (p + quantityOf fills) }) := by
  induction fills generalizing p c with
  | nil => simp [quantityOf, ← hc]
  | cons f fills ih =>
    obtain ⟨hside, hreduceOnly, hquantity, -⟩ := hfills f (by simp)
    have hadd : c.add f.toCycleFill = { c with
        entryFills := c.entryFills ++ [f.toCycleFill]
        openQty := sideSign side * (p + f.quantity) } := by
      rw [Cycle.add, hc, isReduce_increase hp hside, hreduceOnly, signed_eq, hside, mul_add]
      rfl
    rw [List.map_cons, run_cons, cycleStep_of_open symbol completed (hc ▸ sideSign_mul_ne hp), hadd,
      ih (by positivity) rfl (fun g hg => hfills g (List.mem_cons_of_mem _ hg)), quantityOf_cons, add_assoc]
    simp

lemma run_cycle_reduce {p : ℚ} {c : Cycle} (hc : c.openQty = sideSign side * p) {fills : List ExplorationFill}
    (hfills : Reducing side fills) (hp : quantityOf fills ≤ p) :
    run (cycleStep symbol) (completed, some c) (fills.map (·.toCycleFill)) = (completed, some { c with
      exitFills := c.exitFills ++ fills.map (·.toCycleFill)
      openQty := sideSign side * (p - quantityOf fills) }) := by
  induction fills generalizing p c with
  | nil => simp [quantityOf, ← hc]
  | cons f fills ih =>
    have hrest : Reducing side fills := fun g hg => hfills g (List.mem_cons_of_mem _ hg)
    obtain ⟨hside, hquantity, -⟩ := hfills f (by simp)
    rw [quantityOf_cons] at hp
    have hpos : 0 < p := by linarith [hrest.nonneg]
    have hadd : c.add f.toCycleFill = { c with
        exitFills := c.exitFills ++ [f.toCycleFill]
        openQty := sideSign side * (p - f.quantity) } := by
      have hsign : sideSign side * p + -sideSign side * f.quantity = sideSign side * (p - f.quantity) := by ring
      rw [Cycle.add, hc, isReduce_reduce hpos hside, signed_eq, sideSign_of_ne hside, hsign]
      rfl
    rw [List.map_cons, run_cons, cycleStep_of_open symbol completed (hc ▸ sideSign_mul_ne hpos), hadd,
      ih rfl hrest (by linarith), quantityOf_cons, sub_sub]
    simp

/-- When no cycle is under way, an entry fill opens one. -/
lemma cycleStep_opens {current : Option Cycle} (hflat : current.filter (fun c => c.openQty ≠ 0) = none) {f : CycleFill}
    (hf : f.reduceOnly = false) :
    cycleStep symbol (completed, current) f = (closeOut (completed, current), some (Cycle.opened symbol f)) := by
  unfold cycleStep
  dsimp only
  rw [hflat, isReduce_zero, hf]
  rfl

lemma opened_openQty (f : CycleFill) : (Cycle.opened symbol f).openQty = sideSign f.side * f.quantity := signed_eq f

lemma run_cycle_entries {current : Option Cycle} (hflat : current.filter (fun c => c.openQty ≠ 0) = none)
    {f : ExplorationFill} {fills : List ExplorationFill} (hfills : BuildsUp side (f :: fills)) :
    run (cycleStep symbol) (completed, current) ((f :: fills).map (·.toCycleFill)) =
      (closeOut (completed, current), some { Cycle.opened symbol f.toCycleFill with
        entryFills := (f :: fills).map (·.toCycleFill)
        openQty := sideSign side * quantityOf (f :: fills) }) := by
  obtain ⟨hside, hreduceOnly, hquantity, -⟩ := hfills f (by simp)
  have hopened := opened_openQty symbol f.toCycleFill
  rw [hside] at hopened
  rw [List.map_cons, run_cons, cycleStep_opens symbol completed hflat hreduceOnly,
    run_cycle_increase symbol _ hquantity hopened (fun g hg => hfills g (List.mem_cons_of_mem _ hg)), quantityOf_cons]
  rfl

lemma run_cycle_position {current : Option Cycle} (hflat : current.filter (fun c => c.openQty ≠ 0) = none)
    (pos : ReplayedPosition) : run (cycleStep symbol) (completed, current) (pos.fills.map (·.toCycleFill)) =
      (closeOut (completed, current), some (pos.cycle symbol)) := by
  have hfirst := (pos.increasing pos.first (by simp)).1
  rw [ReplayedPosition.fills, List.map_append, run_append, ReplayedPosition.entryFills,
    run_cycle_entries symbol completed hflat pos.increasing, ReplayedPosition.exitFills,
    run_cycle_reduce symbol _ rfl pos.reducing pos.closed.le, pos.closed, sub_self, mul_zero]
  simp [ReplayedPosition.cycle, Cycle.opened, ReplayedPosition.entryFills, ReplayedPosition.exitFills, hfirst]

/-- The completed cycles are those of the positions. -/
lemma buildCycles_positions (positions : List ReplayedPosition) {opening : List ExplorationFill}
    (hopening : BuildsUp side opening) : buildCycles symbol ((positions.flatMap (·.fills) ++ opening).map (·.toCycleFill)) =
      positions.map (·.cycle symbol) := by
  have hrun (completed : List Cycle) (current : Option Cycle)
      (hflat : current.filter (fun c => c.openQty ≠ 0) = none) :
      closeOut (run (cycleStep symbol) (completed, current) ((positions.flatMap (·.fills) ++ opening).map (·.toCycleFill))) =
        closeOut (completed, current) ++ positions.map (·.cycle symbol) := by
    induction positions generalizing completed current with
    | nil =>
      rw [List.flatMap_nil, List.nil_append, List.map_nil, List.append_nil]
      cases opening with
      | nil => rfl
      | cons f fills =>
        have hpos : 0 < quantityOf (f :: fills) := by
          apply List.sum_pos
          · intro q hq
            obtain ⟨g, hg, rfl⟩ := List.mem_map.mp hq
            exact (hopening g hg).2.2.1
          · exact List.cons_ne_nil _ _
        rw [run_cycle_entries symbol completed hflat hopening]
        exact closeOut_of_open rfl (sideSign_mul_ne hpos)
    | cons pos positions ih =>
      have hcomplete : (pos.cycle symbol).complete = true := by
        simp [Cycle.complete, ReplayedPosition.cycle, ReplayedPosition.entryFills, ReplayedPosition.exitFills]
      have hclose : closeOut (closeOut (completed, current), some (pos.cycle symbol)) =
          closeOut (completed, current) ++ [pos.cycle symbol] := by
        rw [closeOut, Option.filter_some, if_pos hcomplete]
        rfl
      rw [List.flatMap_cons, List.append_assoc, List.map_append, run_append,
        run_cycle_position symbol completed hflat, ih _ _ (by simp [Option.filter_some, ReplayedPosition.cycle]), hclose,
        List.map_cons, List.append_assoc]
      rfl
  exact hrun [] none rfl

end Cycles

/-! ### Trades and cycles -/

/-- A trade that is its cycle's: its direction, its first entry, its last exit, and the sign of its
gross profit, where the ledger has no other. -/
structure SameTrade (t : ExplorationTrade) (c : Cycle) : Prop where
  direction : t.direction = c.direction
  entry : c.entryFills.head?.map (·.timestamp) = some t.entryTs
  exit : c.exitFills.getLast?.map (·.timestamp) = some t.exitTs
  result : ∀ sha ledgerRealized, (∀ gross, c.ledgerGross ledgerRealized = some gross → gross = c.averageGross) →
    SignType.sign t.returnRate = SignType.sign (cycleEpisode sha ledgerRealized c).grossPnl

/-- The trade of a cycle: it opens with the last entry and ends with the first exit. -/
structure TradeOfCycle (t : ExplorationTrade) (c : Cycle) : Prop where
  direction : t.direction = c.direction
  entry : c.entryFills.getLast?.map (·.timestamp) = some t.entryTs
  exit : c.exitFills.head?.map (·.timestamp) = some t.exitTs
  single : c.entryFills.length = 1 → c.exitFills.length = 1 → SameTrade t c

lemma weightedAvg_singleton {f : CycleFill} (h : 0 < f.quantity) : weightedAvg [f] = f.price := by
  simp [weightedAvg, totalQuantity, h.ne']

/-- Of a position of two fills, the return has the sign of the gross profit. -/
lemma sign_trade (decisions : List EntryDecision) (symbol : String) {pos : ReplayedPosition} (hadds : pos.adds = [])
    (hexits : pos.exits = []) :
    SignType.sign (pos.trade decisions).returnRate = SignType.sign (pos.cycle symbol).averageGross := by
  obtain ⟨hside, -, hquantity, hprice⟩ := pos.increasing pos.first (by simp)
  obtain ⟨-, hexitQuantity, -⟩ := pos.reducing pos.exit (by simp)
  have hclosed := pos.closed
  rw [hadds, hexits, quantityOf, quantityOf, List.map_singleton, List.map_singleton, List.sum_singleton,
    List.sum_singleton] at hclosed
  have hlast : pos.lastEntry = pos.first := by simp [ReplayedPosition.lastEntry, ReplayedPosition.entryFills, hadds]
  have hreturn : (pos.trade decisions).returnRate =
      (if pos.side = .buy then 1 else -1) * (pos.exit.price - pos.first.price) / pos.first.price := by
    rw [ReplayedPosition.trade, hlast, ← hside]
    rfl
  have hentryAvg : weightedAvg (pos.cycle symbol).entryFills = pos.first.price := by
    rw [ReplayedPosition.cycle, ReplayedPosition.entryFills, hadds]
    exact weightedAvg_singleton hquantity
  have hexitAvg : weightedAvg (pos.cycle symbol).exitFills = pos.exit.price := by
    rw [ReplayedPosition.cycle, ReplayedPosition.exitFills, hexits]
    exact weightedAvg_singleton hexitQuantity
  have htotals : min (totalQuantity (pos.cycle symbol).entryFills) (totalQuantity (pos.cycle symbol).exitFills) =
      pos.first.quantity := by
    simp [ReplayedPosition.cycle, ReplayedPosition.entryFills, ReplayedPosition.exitFills, totalQuantity, hadds, hexits,
      hclosed]
  have hgross : (pos.cycle symbol).averageGross =
      (if pos.side = .buy then 1 else -1) * (pos.exit.price - pos.first.price) * pos.first.quantity := by
    unfold Cycle.averageGross
    rw [hentryAvg, hexitAvg, htotals, ReplayedPosition.cycle]
    cases pos.side with
    | buy => simp
    | sell => simp
  rw [hreturn, hgross, div_eq_mul_inv, sign_mul, sign_mul _ pos.first.quantity, sign_pos (inv_pos.mpr hprice),
    sign_pos hquantity]

lemma tradeOf_position (decisions : List EntryDecision) (symbol : String) (pos : ReplayedPosition) :
    TradeOfCycle (pos.trade decisions) (pos.cycle symbol) := by
  obtain ⟨hside, -⟩ := pos.increasing pos.lastEntry (List.getLast_mem _)
  have hdirection : (pos.trade decisions).direction = (pos.cycle symbol).direction := by
    rw [ReplayedPosition.trade, ReplayedPosition.cycle, ← hside]
    rfl
  have hentry : (pos.cycle symbol).entryFills.getLast?.map (·.timestamp) = some (pos.trade decisions).entryTs := by
    rw [ReplayedPosition.cycle, List.getLast?_map, ReplayedPosition.entryFills, List.getLast?_eq_some_getLast (List.cons_ne_nil _ _)]
    rfl
  refine ⟨hdirection, hentry, rfl, ?_⟩
  intro hentries hexits
  have hadds : pos.adds = [] := by
    simpa [ReplayedPosition.cycle, ReplayedPosition.entryFills] using hentries
  have hrest : pos.exits = [] := by
    simpa [ReplayedPosition.cycle, ReplayedPosition.exitFills] using hexits
  have hlast : pos.lastEntry = pos.first := by simp [ReplayedPosition.lastEntry, ReplayedPosition.entryFills, hadds]
  refine ⟨hdirection, ?_, ?_, ?_⟩
  · rw [ReplayedPosition.trade, hlast]
    rfl
  · rw [ReplayedPosition.cycle, ReplayedPosition.exitFills, hrest]
    rfl
  · intro sha ledgerRealized hledger
    rw [sign_trade decisions symbol hadds hrest]
    have hgross : (cycleEpisode sha ledgerRealized (pos.cycle symbol)).grossPnl =
        ((pos.cycle symbol).ledgerGross ledgerRealized).getD (pos.cycle symbol).averageGross := rfl
    rw [hgross]
    cases hfound : (pos.cycle symbol).ledgerGross ledgerRealized with
    | none => rfl
    | some gross => rw [Option.getD_some, hledger gross hfound]

/-- Fills whose positions are built up and then closed, one after the other in each symbol; the
last one may be open. -/
structure FillHistory where
  fills : List ExplorationFill
  positions : String → List ReplayedPosition
  side : String → OrderSide
  opening : String → List ExplorationFill
  increasing : ∀ symbol, BuildsUp (side symbol) (opening symbol)
  split : ∀ symbol, fills.filter (fun f => f.symbol = symbol) =
    (positions symbol).flatMap (·.fills) ++ opening symbol

/-- A purchase of two that is sold in halves. -/
def halvedPosition : List ExplorationFill :=
  [{ fillId := "f1", orderId := "o1", symbol := "BTCUSDT", side := .buy, price := 100, quantity := 2, timestamp := 0 },
    { fillId := "f2", orderId := "o2", symbol := "BTCUSDT", side := .sell, price := 110, quantity := 1, timestamp := 60 },
    { fillId := "f3", orderId := "o3", symbol := "BTCUSDT", side := .sell, price := 80, quantity := 1, timestamp := 120 }]

end CryptoTrader
