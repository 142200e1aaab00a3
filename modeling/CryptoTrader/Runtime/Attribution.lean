import CryptoTrader.Lib.OrderedRows
import CryptoTrader.Runtime.EntryEvidence
import CryptoTrader.Runtime.ExplorationTrades
import Mathlib.Data.String.Basic

/-!
# The attribution of entries

Every decision of a run is stored under the id that the model has chosen, unless a row has it already,
and `exploration_status` reads the first 5000 rows to find the decision of an entry fill. Each entry
finds its own decision exactly if its id is new and its row among the first (`attributed_iff`).
-/

namespace CryptoTrader

open OrderedRows Runs

namespace EntryEvidence

def storeDecision (table : List DecisionEvidence) (evidence : DecisionEvidence) : List DecisionEvidence :=
  keepFirst DecisionEvidence.decisionId table evidence

/-- A decision of the run, with the id that its signal gets, if any. -/
structure DecisionStep where
  ctx : EntryContext
  answer : Option EngineDecision
  signalId : String
  deriving DecidableEq, Repr

section Steps

variable (config : ChiefTraderConfig) (adapter : EntryAdapter)

def DecisionStep.out (s : DecisionStep) : List EntrySignal × Option DecisionEvidence :=
  decide config adapter s.ctx s.answer s.signalId

def record (table : List DecisionEvidence) (s : DecisionStep) : List DecisionEvidence :=
  match (s.out config adapter).2 with
  | none => table
  | some evidence => storeDecision table evidence

/-- The decision of the engine for an entry, behind open gates. -/
def DecisionStep.entry (s : DecisionStep) : Option EngineDecision :=
  if closedGate adapter s.ctx = none then s.answer.filter (fun d => d.entrySide.isSome) else none

end Steps

/-- Decisions whose signals have ids of `new_id`. -/
structure DecisionRun where
  config : ChiefTraderConfig
  adapter : EntryAdapter
  steps : List DecisionStep
  form : ∀ s ∈ steps, ∃ hex : String, s.signalId = "llm_" ++ hex ∧ hex.length = 32
  fresh : (steps.map DecisionStep.signalId).Nodup

def DecisionEvidence.read (row : DecisionEvidence) : EntryDecision where
  signalId := row.executionIntentReference
  decisionId := row.decision.decisionId
  decisionClass := row.decisionClass
  selectedStrategy := row.decision.selectedStrategy
  strategyFitScore := some row.decision.strategyFitScore
  marketRegime := row.decision.marketRegime
  rawConfidence := some row.decision.rawLlmConfidence
  evidenceAdjustedConfidence := some row.decision.evidenceAdjustedConfidence
  factorSnapshotId := row.factorSnapshotId
  factorSetVersion := row.factorSetVersion

def rowLimit : ℕ := 5000

/-- The rows of the Chief Trader, `ORDER BY created_at_utc ASC LIMIT 5000`. -/
def readRows (table : List DecisionEvidence) : List DecisionEvidence :=
  (orderBy DecisionEvidence.createdAtUtc (table.filter (fun row => row.strategyId = chiefStrategy))).take rowLimit

namespace DecisionRun

variable (r : DecisionRun)

def table : List DecisionEvidence :=
  run (record r.config r.adapter) [] r.steps

/-- The signal is the reference of a row with the action of its decision, and a fill of it leads the analytics there. -/
def Finds (s : DecisionStep) (signal : EntrySignal) : Prop :=
  ∃ row ∈ r.table, row.executionIntentReference = signal.signalId ∧
    (∃ d, s.answer = some d ∧ row.decision.action = d.action) ∧
    ∀ fill : ExplorationFill, fill.clientOrderId = clientOrderId signal.toSignalIntent →
      decisionOf ((readRows r.table).map DecisionEvidence.read) fill = some row.read

def Attributed : Prop :=
  ∀ s ∈ r.steps, ∀ signal ∈ (s.out r.config r.adapter).1, r.Finds s signal

/-- The id of an entry is new, and fewer rows than are read are older than its row or as old and stored before. -/
def Admitted : Prop :=
  ∀ before s after, r.steps = before ++ s :: after → ∀ d, s.entry r.adapter = some d →
    let stored := run (record r.config r.adapter) [] before
    d.decisionId ∉ stored.map DecisionEvidence.decisionId ∧
      stored.countP (fun row => row.createdAtUtc = s.ctx.now) +
        r.table.countP (fun row => row.createdAtUtc < s.ctx.now) < rowLimit

end DecisionRun

section Rows

variable (config : ChiefTraderConfig) (adapter : EntryAdapter)

lemma out_of_entry {s : DecisionStep} {d : EngineDecision} (h : s.entry adapter = some d) :
    ∃ recorded : EngineDecision, ∃ signal : EntrySignal, s.answer = some d ∧ recorded.action = d.action ∧
      recorded.decisionId = d.decisionId ∧ signal.signalId = s.signalId ∧ signal.strategyId = chiefTraderName ∧
      s.out config adapter = ([signal], some (persistEvidence config s.ctx recorded s.signalId)) := by
  unfold DecisionStep.entry at h
  split_ifs at h with hgate
  obtain ⟨hanswer, hentry⟩ := Option.filter_eq_some_iff.mp h
  obtain ⟨⟨side, direction⟩, hside⟩ := Option.isSome_iff_exists.mp hentry
  have haction := action_recorded config s.ctx adapter d
  have hrecorded := (entrySide_congr haction).trans hside
  refine ⟨adapter.annotate config (enrich s.ctx d),
    signalOf config s.ctx s.signalId (adapter.annotate config (enrich s.ctx d)) side direction, hanswer, haction, rfl, rfl,
    rfl, ?_⟩
  unfold DecisionStep.out decide
  rw [hgate, hanswer]
  dsimp only
  rw [entrySignals_of_entry config s.ctx s.signalId hrecorded]
  rfl

/-- Without an entry there is no signal, and no reference to one. -/
lemma out_of_no_entry {s : DecisionStep} (h : s.entry adapter = none) :
    (s.out config adapter).1 = [] ∧ ∀ e, (s.out config adapter).2 = some e → e.executionIntentReference = "" := by
  unfold DecisionStep.out decide
  cases hgate : closedGate adapter s.ctx with
  | some reasonCode =>
    refine ⟨rfl, fun e he => ?_⟩
    obtain rfl := Option.some.inj he
    rfl
  | none =>
    cases hanswer : s.answer with
    | none =>
      refine ⟨rfl, fun e he => ?_⟩
      cases he
    | some d =>
      have hside : d.entrySide = none := by
        rw [DecisionStep.entry, if_pos hgate, hanswer] at h
        simpa using h
      have hrecorded := (entrySide_congr (action_recorded config s.ctx adapter d)).trans hside
      dsimp only
      rw [entrySignals_of_none config s.ctx s.signalId hrecorded]
      refine ⟨rfl, fun e he => ?_⟩
      obtain rfl := Option.some.inj he
      rfl

lemma evidence_of_out {s : DecisionStep} {e : DecisionEvidence} (h : (s.out config adapter).2 = some e) :
    e.createdAtUtc = s.ctx.now ∧ e.strategyId = chiefStrategy ∧
      (e.executionIntentReference = "" ∨ e.executionIntentReference = s.signalId) := by
  have hpersisted : ∃ d reference, e = persistEvidence config s.ctx d reference := by
    unfold DecisionStep.out decide at h
    split at h
    · exact ⟨_, _, (Option.some.inj h).symm⟩
    · split at h
      · cases h
      · exact ⟨_, _, (Option.some.inj h).symm⟩
  have hreference : e.executionIntentReference = "" ∨ e.executionIntentReference = s.signalId := by
    cases hentry : s.entry adapter with
    | none => exact .inl ((out_of_no_entry config adapter hentry).2 e h)
    | some d =>
      obtain ⟨recorded, signal, -, -, -, -, -, hout⟩ := out_of_entry config adapter hentry
      rw [hout] at h
      obtain rfl := Option.some.inj h
      exact .inr rfl
  obtain ⟨d, reference, rfl⟩ := hpersisted
  exact ⟨rfl, rfl, hreference⟩

/-- A step adds its evidence behind the rows, or nothing. -/
lemma record_cases (table : List DecisionEvidence) (s : DecisionStep) :
    record config adapter table s = table ∨
      ∃ e, (s.out config adapter).2 = some e ∧ e.decisionId ∉ table.map DecisionEvidence.decisionId ∧
        record config adapter table s = table ++ [e] := by
  unfold record
  cases (s.out config adapter).2 with
  | none => exact .inl rfl
  | some e =>
    by_cases hmem : e.decisionId ∈ table.map DecisionEvidence.decisionId
    · exact .inl (if_pos hmem)
    · exact .inr ⟨e, rfl, hmem, if_neg hmem⟩

/-- The rows stay as they are, and each one behind them is the evidence of a step. -/
lemma rows_append (table : List DecisionEvidence) (steps : List DecisionStep) :
    ∃ rows, run (record config adapter) table steps = table ++ rows ∧
      ∀ row ∈ rows, ∃ s ∈ steps, (s.out config adapter).2 = some row := by
  induction steps generalizing table with
  | nil => exact ⟨[], (List.append_nil table).symm, fun row hrow => absurd hrow List.not_mem_nil⟩
  | cons s steps ih =>
    obtain ⟨rows, hrun, hrows⟩ := ih (record config adapter table s)
    have hlater : ∀ row ∈ rows, ∃ t ∈ s :: steps, (t.out config adapter).2 = some row := by
      intro row hrow
      obtain ⟨t, ht, hout⟩ := hrows row hrow
      exact ⟨t, List.mem_cons_of_mem s ht, hout⟩
    rw [run_cons, hrun]
    rcases record_cases config adapter table s with h | ⟨e, he, -, h⟩
    · exact ⟨rows, by rw [h], hlater⟩
    · refine ⟨e :: rows, by rw [h, List.append_assoc]; rfl, ?_⟩
      intro row hrow
      rcases List.mem_cons.mp hrow with rfl | hrow
      · exact ⟨s, List.mem_cons_self, he⟩
      · exact hlater row hrow

/-- The rows of other steps do not refer to a signal. -/
lemma reference_ne {steps : List DecisionStep} {id : String} (hid : id ≠ "") (hfresh : id ∉ steps.map DecisionStep.signalId)
    {row : DecisionEvidence} (h : ∃ s ∈ steps, (s.out config adapter).2 = some row) : row.executionIntentReference ≠ id := by
  obtain ⟨s, hs, hout⟩ := h
  intro heq
  rcases (evidence_of_out config adapter hout).2.2 with h | h
  · exact hid (heq.symm.trans h)
  · exact hfresh (List.mem_map.mpr ⟨s, hs, h.symm.trans heq⟩)

end Rows

/-! ### Reading the rows -/

lemma get_signalToDecision (rows : List DecisionEvidence) {id : String} (hid : id ≠ "") :
    (signalToDecision (rows.map DecisionEvidence.read)).get id =
      ((rows.filter (fun row => row.executionIntentReference = id)).getLast?).map DecisionEvidence.read := by
  have hlast (l : List EntryDecision) (o : Option EntryDecision) :
      l.foldl (fun _ d => some d) o = l.getLast?.or o := by
    induction l generalizing o with
    | nil => rfl
    | cons d l ih => rw [List.foldl_cons, ih, List.getLast?_cons]; cases l.getLast? <;> rfl
  rw [signalToDecision, Dict.get_foldl_alter, hlast, Dict.get_nil, Option.or_none, List.filter_filter, List.filter_map,
    List.getLast?_map]
  congr 2
  apply List.filter_congr
  intro row _
  by_cases h : row.executionIntentReference = id
  · simp [DecisionEvidence.read, h, hid]
  · simp [DecisionEvidence.read, h]

def EntrySignal.fill (signal : EntrySignal) : ExplorationFill where
  fillId := "fill"
  orderId := "order"
  symbol := signal.symbol
  side := signal.side
  price := 1
  quantity := signal.quantity
  timestamp := 0
  clientOrderId := clientOrderId signal.toSignalIntent

section Run

variable (r : DecisionRun)

lemma readRows_table : readRows r.table = (orderBy DecisionEvidence.createdAtUtc r.table).take rowLimit := by
  have hchief : ∀ row ∈ r.table, row.strategyId = chiefStrategy := by
    intro row hrow
    obtain ⟨rows, htable, hrows⟩ := rows_append r.config r.adapter [] r.steps
    rw [DecisionRun.table, htable, List.nil_append] at hrow
    obtain ⟨s, -, hout⟩ := hrows row hrow
    exact (evidence_of_out r.config r.adapter hout).2.1
  rw [readRows, List.filter_eq_self.mpr (by simpa using hchief)]

/-- Of the rows that are read, one refers to a signal that only one row refers to, or none. -/
lemma filter_readRows {stored later : List DecisionEvidence} {e : DecisionEvidence} (htable : r.table = stored ++ e :: later)
    (hbefore : ∀ row ∈ stored, row.executionIntentReference ≠ e.executionIntentReference)
    (hlater : ∀ row ∈ later, row.executionIntentReference ≠ e.executionIntentReference) :
    (readRows r.table).filter (fun row => row.executionIntentReference = e.executionIntentReference) =
      if stored.countP (fun row => row.createdAtUtc = e.createdAtUtc) +
          r.table.countP (fun row => row.createdAtUtc < e.createdAtUtc) < rowLimit then [e] else [] := by
  rw [readRows_table, htable]
  apply filter_take_orderBy rowLimit
  · simp
  · simpa using hbefore
  · simpa using hlater

lemma signalId_ne {s : DecisionStep} (hs : s ∈ r.steps) : s.signalId ≠ "" := by
  obtain ⟨hex, hid, -⟩ := r.form s hs
  intro hempty
  have hlength := congrArg String.length (hid.symm.trans hempty)
  rw [String.length_append] at hlength
  exact absurd hlength (by simp)

/-- The id of a signal is found again in that of its order. -/
lemma signalFromClient_entry {s : DecisionStep} (hs : s ∈ r.steps) {signal : EntrySignal}
    (hid : signal.signalId = s.signalId) (hstrategy : signal.strategyId = chiefTraderName) :
    signalFromClient (clientOrderId signal.toSignalIntent) = s.signalId := by
  obtain ⟨hex, hform, hlength⟩ := r.form s hs
  have hchief : signal.toSignalIntent = { signal.toSignalIntent with strategyId := chiefStrategy } := by
    rw [show chiefStrategy = signal.strategyId from hstrategy.symm]
  have hshort : signal.signalId.length ≤ 43 := by
    rw [hid, hform, String.length_append, hlength]
    decide
  rw [hchief, (signalFromClient_iff signal.toSignalIntent).mpr hshort, hid]

/-- The rows around the one of an entry do not refer to its signal. -/
lemma table_of_split {before after : List DecisionStep} {s : DecisionStep} (hsteps : r.steps = before ++ s :: after) :
    ∃ later, r.table = record r.config r.adapter (run (record r.config r.adapter) [] before) s ++ later ∧
      (∀ row ∈ run (record r.config r.adapter) [] before, row.executionIntentReference ≠ s.signalId) ∧
      ∀ row ∈ later, row.executionIntentReference ≠ s.signalId := by
  have hid : s.signalId ≠ "" := signalId_ne r (by rw [hsteps]; simp)
  have hfresh := r.fresh
  rw [hsteps, List.map_append, List.map_cons, List.nodup_middle, List.nodup_cons, List.mem_append, not_or] at hfresh
  obtain ⟨stored, hstored, hfirst⟩ := rows_append r.config r.adapter [] before
  obtain ⟨later, hlater, hlast⟩ :=
    rows_append r.config r.adapter (record r.config r.adapter (run (record r.config r.adapter) [] before) s) after
  refine ⟨later, ?_, fun row hrow => ?_, fun row hrow => ?_⟩
  · rw [← hlater, DecisionRun.table, hsteps, run_append, run_cons]
  · rw [hstored, List.nil_append] at hrow
    exact reference_ne r.config r.adapter hid hfresh.1.1 (hfirst row hrow)
  · exact reference_ne r.config r.adapter hid hfresh.1.2 (hlast row hrow)

/-- A fill leads to the only row that refers to its signal, if that row is read. -/
lemma decisionOf_fill {stored later : List DecisionEvidence} {e : DecisionEvidence} (htable : r.table = stored ++ e :: later)
    (hne : e.executionIntentReference ≠ "")
    (hbefore : ∀ row ∈ stored, row.executionIntentReference ≠ e.executionIntentReference)
    (hlater : ∀ row ∈ later, row.executionIntentReference ≠ e.executionIntentReference) {fill : ExplorationFill}
    (hfill : signalFromClient fill.clientOrderId = e.executionIntentReference) :
    decisionOf ((readRows r.table).map DecisionEvidence.read) fill =
      if stored.countP (fun row => row.createdAtUtc = e.createdAtUtc) +
          r.table.countP (fun row => row.createdAtUtc < e.createdAtUtc) < rowLimit then some e.read else none := by
  rw [decisionOf, hfill, get_signalToDecision _ hne, filter_readRows r htable hbefore hlater]
  split
  · rfl
  · rfl

/-- An entry finds its decision if its row is stored and read. -/
lemma finds_iff {before after : List DecisionStep} {s : DecisionStep} (hsteps : r.steps = before ++ s :: after)
    {d : EngineDecision} (hentry : s.entry r.adapter = some d) :
    (∀ signal ∈ (s.out r.config r.adapter).1, r.Finds s signal) ↔
      d.decisionId ∉ (run (record r.config r.adapter) [] before).map DecisionEvidence.decisionId ∧
        (run (record r.config r.adapter) [] before).countP (fun row => row.createdAtUtc = s.ctx.now) +
          r.table.countP (fun row => row.createdAtUtc < s.ctx.now) < rowLimit := by
  have hs : s ∈ r.steps := by rw [hsteps]; simp
  have hne := signalId_ne r hs
  obtain ⟨later, htable, hbefore, hlater⟩ := table_of_split r hsteps
  obtain ⟨recorded, signal, hanswer, haction, hid, hsignal, hstrategy, hout⟩ := out_of_entry r.config r.adapter hentry
  have hclient := signalFromClient_entry r hs hsignal hstrategy
  generalize run (record r.config r.adapter) [] before = stored at htable hbefore ⊢
  rw [hout]
  simp only [List.mem_singleton, forall_eq]
  by_cases hmem : d.decisionId ∈ stored.map DecisionEvidence.decisionId
  · -- the row is that of an earlier decision
    have hrecord : record r.config r.adapter stored s = stored := by
      rw [record, hout]
      exact if_pos (by rwa [← hid] at hmem)
    refine ⟨?_, fun hadmitted => absurd hmem hadmitted.1⟩
    rintro ⟨row, hrow, hreference, -⟩
    rw [htable, hrecord] at hrow
    rw [hsignal] at hreference
    rcases List.mem_append.mp hrow with hrow | hrow
    · exact (hbefore row hrow hreference).elim
    · exact (hlater row hrow hreference).elim
  · have hrecord : record r.config r.adapter stored s =
        stored ++ [persistEvidence r.config s.ctx recorded s.signalId] := by
      rw [record, hout]
      exact if_neg (by rwa [← hid] at hmem)
    rw [hrecord, ← List.append_cons] at htable
    have hdecision (fill : ExplorationFill) (hfill : fill.clientOrderId = clientOrderId signal.toSignalIntent) :=
      decisionOf_fill r htable hne hbefore hlater (hfill ▸ hclient)
    constructor
    · rintro ⟨row, -, -, -, hfound⟩
      refine ⟨hmem, ?_⟩
      by_contra hlimit
      have hnone := (hdecision signal.fill rfl).trans (if_neg hlimit)
      rw [hfound signal.fill rfl] at hnone
      cases hnone
    · rintro ⟨-, hlimit⟩
      refine ⟨persistEvidence r.config s.ctx recorded s.signalId, ?_, hsignal.symm, ⟨d, hanswer, haction⟩, ?_⟩
      · rw [htable]
        simp
      · intro fill hfill
        exact (hdecision fill hfill).trans (if_pos hlimit)

end Run

/-- Every entry finds its decision if and only if the id of each is new and its row among the first 5000. -/
theorem attributed_iff (r : DecisionRun) : r.Attributed ↔ r.Admitted := by
  constructor
  · intro h before s after hsteps d hentry
    exact (finds_iff r hsteps hentry).mp (h s (by rw [hsteps]; simp))
  · intro h s hs
    obtain ⟨before, after, hsteps⟩ := List.append_of_mem hs
    cases hentry : s.entry r.adapter with
    | none =>
      rw [(out_of_no_entry r.config r.adapter hentry).1]
      intro signal hsignal
      cases hsignal
    | some d => exact (finds_iff r hsteps hentry).mpr (h before s after hsteps d hentry)

def firstEntry : DecisionStep where
  ctx := { symbol := "BTCUSDT", snapshotId := "fsnap_1", now := "2026-07-01T00:00:00+00:00" }
  answer := some { action := "LONG", decisionId := "d1" }
  signalId := "llm_00000000000000000000000000000001"

/-- A day later the model gives its decision the same id. -/
def secondEntry : DecisionStep :=
  { firstEntry with
    ctx := { firstEntry.ctx with snapshotId := "fsnap_2", now := "2026-07-02T00:00:00+00:00" }
    signalId := "llm_00000000000000000000000000000002" }

def repeatedDecision : DecisionRun where
  config := bitcoinConfig
  adapter := .aiFirst
  steps := [firstEntry, secondEntry]
  form := by
    intro s hs
    rcases List.mem_pair.mp hs with rfl | rfl
    · exact ⟨"00000000000000000000000000000001", by decide +kernel, by decide +kernel⟩
    · exact ⟨"00000000000000000000000000000002", by decide +kernel, by decide +kernel⟩
  fresh := by decide

/-- The second entry is emitted, and the row of the first is the only one. -/
theorem repeated_id_loses_entry :
    (secondEntry.out bitcoinConfig .aiFirst).1.map (fun signal => signal.signalId) = [secondEntry.signalId] ∧
      repeatedDecision.table.map DecisionEvidence.executionIntentReference = [firstEntry.signalId] ∧
      ¬ repeatedDecision.Attributed := by
  have hsignals :
      (secondEntry.out bitcoinConfig .aiFirst).1.map (fun signal => signal.signalId) = [secondEntry.signalId] := by
    decide +kernel
  have hrows : repeatedDecision.table.map DecisionEvidence.executionIntentReference = [firstEntry.signalId] := by
    decide +kernel
  refine ⟨hsignals, hrows, fun h => ?_⟩
  obtain ⟨signal, hsignal, hid⟩ := List.mem_map.mp (hsignals ▸ List.mem_singleton_self secondEntry.signalId)
  obtain ⟨row, hrow, hreference, -⟩ := h secondEntry (by simp [repeatedDecision]) signal hsignal
  have hmem : secondEntry.signalId ∈ repeatedDecision.table.map DecisionEvidence.executionIntentReference :=
    List.mem_map.mpr ⟨row, hrow, hreference.trans hid⟩
  rw [hrows] at hmem
  exact absurd hmem (by decide)

end EntryEvidence

end CryptoTrader
