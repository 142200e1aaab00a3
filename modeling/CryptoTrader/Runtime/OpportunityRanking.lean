import CryptoTrader.Lib.OrderedRows
import CryptoTrader.Lib.Rounds
import CryptoTrader.Runtime.ChiefTrader
import Mathlib.Algebra.Order.Ring.Rat
import Mathlib.Data.List.GetD
import Mathlib.Data.Prod.Lex
import Mathlib.Data.String.Basic

/-!
# The ranking of the opportunities

`MultiSymbolChiefTraderStrategyAdapter` scans a symbol before it asks the Chief Trader about it. The
ranking of the scans is renewed whenever every symbol has been scanned (`ranking_run`). It is for
information only: whether the Chief Trader is asked depends on the route of the provider and on the time
since it was asked about the same symbol, whatever the scans find (`asked_iff`).
-/

namespace CryptoTrader

open KeyedTable OrderedRows

structure OpportunityScore where
  symbol : String
  score : ℚ
  eligible : Bool := false
  direction : String := "NEUTRAL"
  spreadBps : ℚ := 0
  components : List (String × ℚ) := []
  reason : String := ""
  deriving DecidableEq, Repr

structure MultiSymbolConfig extends ChiefTraderConfig where
  opportunityScannerEnabled : Bool := true
  /-- The argument `opportunity_top_k`. -/
  topK : ℤ := 5

/-- `max(1, min(int(opportunity_top_k), len(normalized)))`. -/
def MultiSymbolConfig.opportunityTopK (config : MultiSymbolConfig) : ℕ :=
  (max 1 (min config.topK config.symbols.length)).toNat

/-- The scores of the scans, the symbols that are scanned since the last ranking, and the ranking. -/
structure OpportunityBook where
  opportunityScores : List OpportunityScore := []
  seenInRound : List String := []
  opportunityRanking : List OpportunityScore := []
  rankingGeneration : ℕ := 0
  deriving DecidableEq, Repr

/-- The key `(-item.score, item.symbol)`. -/
def rankKey (item : OpportunityScore) : Lex (ℚ × String) :=
  toLex (-item.score, item.symbol)

namespace OpportunityBook

/-- `_record_opportunity`. -/
def recordOpportunity (config : MultiSymbolConfig) (book : OpportunityBook) (score : OpportunityScore) : OpportunityBook :=
  let scores := upsert OpportunityScore.symbol score book.opportunityScores
  let seen := Rounds.mark OpportunityScore.symbol book.seenInRound score
  if seen.length < config.symbols.length then { book with opportunityScores := scores, seenInRound := seen }
  else
    { opportunityScores := scores
      seenInRound := []
      opportunityRanking := orderBy rankKey scores
      rankingGeneration := book.rankingGeneration + 1 }

def eligibleSymbols (config : MultiSymbolConfig) (book : OpportunityBook) : List String :=
  (book.opportunityRanking.take config.opportunityTopK).map OpportunityScore.symbol

end OpportunityBook

structure MultiSymbolChiefTrader where
  adapter : ChiefTrader := {}
  book : OpportunityBook := {}

/-- What a tick of the engine meets: whether the context of the symbol can be built, whether the provider is healthy and
its route is ready, what the scan finds, the clock before and after the decision, and when the decision has initiated
an entry, if it has. -/
structure MarketTurn where
  context : Bool := true
  routeReady : Bool := true
  scan : OpportunityScore
  now : ℚ
  initiatedAt : Option ℚ := none
  completedAt : ℚ

namespace MultiSymbolChiefTrader

/-- `on_market_data`, and whether it asks the Chief Trader about the symbol. -/
def onMarketData (config : MultiSymbolConfig) (a : MultiSymbolChiefTrader) (symbol : String) (turn : MarketTurn) :
    Bool × MultiSymbolChiefTrader :=
  if turn.routeReady = false then (false, a)
  else
    -- every answer of the scanner is about the symbol of the context
    let book := if config.opportunityScannerEnabled then a.book.recordOpportunity config { turn.scan with symbol := symbol }
      else a.book
    if ChiefTrader.within a.adapter.lastDecisionCompleted symbol turn.now (max config.minDecisionIntervalSeconds 0) = true then
      (false, { a with book := book })
    else
      let adapter := (turn.initiatedAt.map (a.adapter.initiated symbol)).getD a.adapter
      (true, { adapter := adapter.completed symbol turn.completedAt, book := book })

/-- A tick of the engine, for the next symbol. -/
def tick (config : MultiSymbolConfig) (a : MultiSymbolChiefTrader) (turn : MarketTurn) : Bool × MultiSymbolChiefTrader :=
  match a.adapter.nextSymbol config.toChiefTraderConfig with
  | (none, adapter) => (false, { a with adapter := adapter })
  | (some symbol, adapter) =>
    if turn.context then onMarketData config { a with adapter := adapter } symbol turn
    else (false, { a with adapter := adapter })

def after (config : MultiSymbolConfig) (turns : List MarketTurn) : MultiSymbolChiefTrader :=
  turns.foldl (fun a turn => (tick config a turn).2) {}

/-- The Chief Trader is asked in the turn that follows. -/
def asked (config : MultiSymbolConfig) (before : List MarketTurn) (turn : MarketTurn) : Bool :=
  (tick config (after config before) turn).1

/-! ### One tick -/

section Tick

variable (config : MultiSymbolConfig) (before : List MarketTurn) (turn : MarketTurn)

/-- The symbol of a turn, by the number of turns before it. -/
def turnSymbol (index : ℕ) : String :=
  config.symbols.getD (index % config.symbols.length) ""

/-- The scan that a turn adds to the book. -/
def scanned (index : ℕ) : Option OpportunityScore :=
  if turn.context = true ∧ turn.routeReady = true ∧ config.opportunityScannerEnabled = true then
    some { turn.scan with symbol := turnSymbol config index }
  else none

/-- The scans of the turns. -/
def scans (turns : List MarketTurn) : List OpportunityScore :=
  (turns.zipIdx.map (fun p => (scanned config p.1 p.2).toList)).flatten

lemma after_concat : after config (before ++ [turn]) = (tick config (after config before) turn).2 := by
  simp [after]

lemma symbols_pos : 0 < config.symbols.length :=
  List.length_pos_iff.mpr config.nonempty

lemma turnSymbol_mem (index : ℕ) : turnSymbol config index ∈ config.symbols := by
  have hlt : index % config.symbols.length < config.symbols.length := Nat.mod_lt _ (symbols_pos config)
  rw [turnSymbol, List.getD_eq_getElem _ _ hlt]
  exact List.getElem_mem hlt

/-- A tick with the cursor in its place. -/
lemma tick_eq {a : MultiSymbolChiefTrader} (h : a.adapter.symbolCursor = before.length % config.symbols.length) :
    tick config a turn =
      let moved := { a with adapter := { a.adapter with symbolCursor := (before ++ [turn]).length % config.symbols.length } }
      if turn.context then onMarketData config moved (turnSymbol config before.length) turn else (false, moved) := by
  have hlt : before.length % config.symbols.length < config.symbols.length := Nat.mod_lt _ (symbols_pos config)
  have hsymbol : config.symbols[before.length % config.symbols.length]? = some (turnSymbol config before.length) := by
    rw [turnSymbol, List.getD_eq_getElem _ _ hlt, List.getElem?_eq_getElem hlt]
  have hcursor : (before.length % config.symbols.length + 1) % config.symbols.length =
      (before ++ [turn]).length % config.symbols.length := by
    rw [List.length_append, List.length_singleton, Nat.mod_add_mod]
  rw [tick, ChiefTrader.nextSymbol, h, hsymbol, hcursor]

lemma onMarketData_cursor (a : MultiSymbolChiefTrader) (symbol : String) :
    (onMarketData config a symbol turn).2.adapter.symbolCursor = a.adapter.symbolCursor := by
  unfold onMarketData
  split_ifs
  all_goals cases turn.initiatedAt <;> rfl

lemma onMarketData_clocks (a : MultiSymbolChiefTrader) (symbol : String) :
    (onMarketData config a symbol turn).2.adapter.lastDecisionCompleted =
      if (onMarketData config a symbol turn).1 = true then
        upsert Prod.fst (symbol, turn.completedAt) a.adapter.lastDecisionCompleted
      else a.adapter.lastDecisionCompleted := by
  unfold onMarketData
  by_cases hready : turn.routeReady = false
  · rw [if_pos hready]
    rfl
  · rw [if_neg hready]
    dsimp only
    by_cases hwithin : ChiefTrader.within a.adapter.lastDecisionCompleted symbol turn.now
        (max config.minDecisionIntervalSeconds 0) = true
    · rw [if_pos hwithin]
      rfl
    · rw [if_neg hwithin]
      cases turn.initiatedAt <;> rfl

lemma onMarketData_book (a : MultiSymbolChiefTrader) (symbol : String) :
    (onMarketData config a symbol turn).2.book =
      if turn.routeReady = true ∧ config.opportunityScannerEnabled = true then
        a.book.recordOpportunity config { turn.scan with symbol := symbol }
      else a.book := by
  unfold onMarketData
  by_cases hready : turn.routeReady = false
  · rw [if_pos hready, if_neg (by simp [hready])]
  · rw [if_neg hready]
    have hbook : (if config.opportunityScannerEnabled = true then
          a.book.recordOpportunity config { turn.scan with symbol := symbol } else a.book) =
        if turn.routeReady = true ∧ config.opportunityScannerEnabled = true then
          a.book.recordOpportunity config { turn.scan with symbol := symbol } else a.book := by
      simp [hready]
    dsimp only
    rw [← hbook]
    split <;> rfl

lemma cursor_after : (after config before).adapter.symbolCursor = before.length % config.symbols.length := by
  induction before using List.reverseRecOn with
  | nil => rw [List.length_nil, Nat.zero_mod]; rfl
  | append_singleton before turn ih =>
    rw [after_concat, tick_eq config before turn ih]
    dsimp only
    split_ifs
    · rw [onMarketData_cursor]
    · rfl

/-- What a turn leaves in the clocks of the decisions. -/
lemma clocks_concat : (after config (before ++ [turn])).adapter.lastDecisionCompleted =
    if asked config before turn = true then
      upsert Prod.fst (turnSymbol config before.length, turn.completedAt) (after config before).adapter.lastDecisionCompleted
    else (after config before).adapter.lastDecisionCompleted := by
  rw [asked, after_concat, tick_eq config before turn (cursor_after config before)]
  dsimp only
  cases turn.context with
  | false => rfl
  | true => exact onMarketData_clocks config turn _ _

lemma book_concat : (after config (before ++ [turn])).book =
    (scanned config turn before.length).toList.foldl (OpportunityBook.recordOpportunity config) (after config before).book := by
  rw [after_concat, tick_eq config before turn (cursor_after config before), scanned]
  dsimp only
  cases turn.context with
  | false => rfl
  | true =>
    rw [if_pos rfl, onMarketData_book]
    cases turn.routeReady <;> cases config.opportunityScannerEnabled <;> rfl

lemma asked_eq : asked config before turn = true ↔ turn.context = true ∧ turn.routeReady = true ∧
    ChiefTrader.within (after config before).adapter.lastDecisionCompleted (turnSymbol config before.length) turn.now
      (max config.minDecisionIntervalSeconds 0) = false := by
  rw [asked, tick_eq config before turn (cursor_after config before)]
  dsimp only
  cases turn.context with
  | false => simp
  | true =>
    rw [if_pos rfl, onMarketData]
    cases turn.routeReady with
    | false => simp
    | true =>
      dsimp only
      cases ChiefTrader.within (after config before).adapter.lastDecisionCompleted (turnSymbol config before.length) turn.now
        (max config.minDecisionIntervalSeconds 0) <;> simp

end Tick

/-! ### When the Chief Trader is asked -/

/-- The turn is one of those before, and the Chief Trader is asked in it about the symbol. -/
def AskedAbout (config : MultiSymbolConfig) (before : List MarketTurn) (symbol : String) (turn : MarketTurn) : Prop :=
  ∃ earlier later, before = earlier ++ turn :: later ∧ turnSymbol config earlier.length = symbol ∧
    asked config earlier turn = true

/-- No turn begins before those before it are completed. -/
def Clocked (turns : List MarketTurn) : Prop :=
  turns.Pairwise (fun a b => a.completedAt ≤ b.now) ∧ ∀ t ∈ turns, t.now ≤ t.completedAt

section Asked

variable (config : MultiSymbolConfig) {before : List MarketTurn}

lemma askedAbout_concat {x t : MarketTurn} {symbol : String} : AskedAbout config (before ++ [x]) symbol t ↔
    AskedAbout config before symbol t ∨
      (t = x ∧ turnSymbol config before.length = symbol ∧ asked config before x = true) := by
  constructor
  · rintro ⟨earlier, later, hsplit, hsymbol, hasked⟩
    rcases List.eq_nil_or_concat later with rfl | ⟨later, y, rfl⟩
    · obtain ⟨rfl, hx⟩ := List.append_inj' hsplit rfl
      obtain rfl := (List.cons.inj hx).1
      exact .inr ⟨rfl, hsymbol, hasked⟩
    · rw [List.concat_eq_append, ← List.cons_append, ← List.append_assoc] at hsplit
      exact .inl ⟨earlier, later, (List.append_inj' hsplit rfl).1, hsymbol, hasked⟩
  · rintro (⟨earlier, later, rfl, hsymbol, hasked⟩ | ⟨rfl, hsymbol, hasked⟩)
    · exact ⟨earlier, later ++ [x], by simp, hsymbol, hasked⟩
    · exact ⟨before, [], rfl, hsymbol, hasked⟩

lemma AskedAbout.mem {symbol : String} {t : MarketTurn} (h : AskedAbout config before symbol t) : t ∈ before := by
  obtain ⟨earlier, later, rfl, -⟩ := h
  exact List.mem_append_right _ List.mem_cons_self

/-- The clock of a symbol is that of the last decision about it. -/
lemma clock_of_symbol (h : Clocked before) (symbol : String) :
    (∀ e, row Prod.fst symbol (after config before).adapter.lastDecisionCompleted = some e →
      ∃ t, AskedAbout config before symbol t ∧ t.completedAt = e.2) ∧
    (∀ t, AskedAbout config before symbol t →
      ∃ e, row Prod.fst symbol (after config before).adapter.lastDecisionCompleted = some e ∧ t.completedAt ≤ e.2) := by
  induction before using List.reverseRecOn with
  | nil =>
    refine ⟨fun e he => absurd he (by simp [after, row]), ?_⟩
    rintro t ⟨earlier, later, hsplit, -⟩
    exact absurd hsplit (by simp)
  | append_singleton before x ih =>
    obtain ⟨hpairs, hcompleted⟩ := h
    rw [List.pairwise_append] at hpairs
    obtain ⟨hfrom, hto⟩ := ih ⟨hpairs.1, fun t ht => hcompleted t (List.mem_append_left _ ht)⟩
    rw [clocks_concat]
    by_cases hx : asked config before x = true ∧ turnSymbol config before.length = symbol
    · obtain ⟨hasked, rfl⟩ := hx
      rw [if_pos hasked, row_upsert_self Prod.fst (turnSymbol config before.length, x.completedAt)]
      have hx : AskedAbout config (before ++ [x]) (turnSymbol config before.length) x :=
        (askedAbout_concat config).mpr (.inr ⟨rfl, rfl, hasked⟩)
      refine ⟨fun e he => ⟨x, hx, by rw [← Option.some.inj he]⟩, fun t ht => ?_⟩
      refine ⟨_, rfl, ?_⟩
      rcases (askedAbout_concat config).mp ht with hbefore | ⟨rfl, -⟩
      · calc t.completedAt ≤ x.now := hpairs.2.2 t hbefore.mem x (List.mem_singleton.mpr rfl)
          _ ≤ x.completedAt := hcompleted x (by simp)
      · exact le_refl _
    · have hrow : row Prod.fst symbol (if asked config before x = true then
            upsert Prod.fst (turnSymbol config before.length, x.completedAt) (after config before).adapter.lastDecisionCompleted
          else (after config before).adapter.lastDecisionCompleted) =
          row Prod.fst symbol (after config before).adapter.lastDecisionCompleted := by
        split_ifs with hasked
        · exact row_upsert_of_ne _ (fun heq => hx ⟨hasked, heq.symm⟩)
        · rfl
      rw [hrow]
      have hsame (t : MarketTurn) : AskedAbout config (before ++ [x]) symbol t ↔ AskedAbout config before symbol t := by
        rw [askedAbout_concat, or_iff_left]
        rintro ⟨-, hsymbol, hasked⟩
        exact hx ⟨hasked, hsymbol⟩
      simp only [hsame]
      exact ⟨hfrom, hto⟩

def twoSymbols : MultiSymbolConfig where
  symbols := ["BTCUSDT", "ETHUSDT"]
  nonempty := by decide
  unique := by decide

/-- A turn in which nothing is scanned and a decision takes a second. -/
def turnAt (time : ℚ) : MarketTurn :=
  { scan := { symbol := "", score := 0 }, now := time, completedAt := time + 1 }

end Asked

/-! ### The ranking -/

section Ranking

variable (config : MultiSymbolConfig)

lemma scans_concat (turns : List MarketTurn) (turn : MarketTurn) :
    scans config (turns ++ [turn]) = scans config turns ++ (scanned config turn turns.length).toList := by
  simp [scans, List.zipIdx_append]

lemma book_after (turns : List MarketTurn) :
    (after config turns).book = (scans config turns).foldl (OpportunityBook.recordOpportunity config) {} := by
  induction turns using List.reverseRecOn with
  | nil => rfl
  | append_singleton turns turn ih => rw [book_concat, ih, scans_concat, List.foldl_append]

lemma scans_symbol (turns : List MarketTurn) : ∀ s ∈ scans config turns, s.symbol ∈ config.symbols := by
  intro s hs
  obtain ⟨l, hl, hs⟩ := List.mem_flatten.mp hs
  obtain ⟨p, -, rfl⟩ := List.mem_map.mp hl
  unfold scanned at hs
  split_ifs at hs
  · rw [Option.toList_some, List.mem_singleton] at hs
    rw [hs]
    exact turnSymbol_mem config p.2
  · exact absurd hs List.not_mem_nil

/-- The book after scans, by the rounds they make. -/
def bookOf (scans : List OpportunityScore) : OpportunityBook :=
  let split := Rounds.split OpportunityScore.symbol config.symbols scans
  { opportunityScores := tableOf OpportunityScore.symbol scans
    seenInRound := split.2.foldl (Rounds.mark OpportunityScore.symbol) []
    opportunityRanking := if split.1 = [] then [] else orderBy rankKey (tableOf OpportunityScore.symbol split.1.flatten)
    rankingGeneration := split.1.length }

lemma tableOf_concat (scans : List OpportunityScore) (s : OpportunityScore) :
    tableOf OpportunityScore.symbol (scans ++ [s]) = upsert OpportunityScore.symbol s (tableOf OpportunityScore.symbol scans) := by
  simp [tableOf]

lemma split_flatten_symbols (scans : List OpportunityScore) :
    (Rounds.split OpportunityScore.symbol config.symbols scans).1.flatten ++
      (Rounds.split OpportunityScore.symbol config.symbols scans).2 = scans :=
  Rounds.split_flatten scans

lemma recordOpportunity_bookOf {scans : List OpportunityScore} {s : OpportunityScore}
    (hin : ∀ x ∈ scans ++ [s], x.symbol ∈ config.symbols) :
    (bookOf config scans).recordOpportunity config s = bookOf config (scans ++ [s]) := by
  have hflatten := split_flatten_symbols config scans
  have hcurrent : ∀ x ∈ (Rounds.split OpportunityScore.symbol config.symbols scans).2 ++ [s], x.symbol ∈ config.symbols := by
    intro x hx
    refine hin x ?_
    rcases List.mem_append.mp hx with hx | hx
    · refine List.mem_append_left _ ?_
      rw [← hflatten]
      exact List.mem_append_right _ hx
    · exact List.mem_append_right _ hx
  have hseen : Rounds.mark OpportunityScore.symbol (bookOf config scans).seenInRound s =
      ((Rounds.split OpportunityScore.symbol config.symbols scans).2 ++ [s]).foldl (Rounds.mark OpportunityScore.symbol) [] := by
    rw [List.foldl_append]
    rfl
  have hcovers := Rounds.covers_iff_length config.unique hcurrent
  rw [OpportunityBook.recordOpportunity, hseen]
  unfold bookOf
  rw [Rounds.split_concat, Rounds.cut]
  by_cases hc : Rounds.Covers OpportunityScore.symbol config.symbols
      ((Rounds.split OpportunityScore.symbol config.symbols scans).2 ++ [s])
  · simp only [if_neg (not_lt.mpr (hcovers.mp hc)), if_pos hc, tableOf_concat]
    simp [← List.append_assoc, hflatten, tableOf_concat]
  · simp only [if_pos (not_le.mp (fun h => hc (hcovers.mpr h))), if_neg hc, tableOf_concat]

lemma book_of_scans {scans : List OpportunityScore} (hin : ∀ s ∈ scans, s.symbol ∈ config.symbols) :
    scans.foldl (OpportunityBook.recordOpportunity config) {} = bookOf config scans := by
  induction scans using List.reverseRecOn with
  | nil => rfl
  | append_singleton scans s ih =>
    rw [List.foldl_append, ih (fun x hx => hin x (List.mem_append_left _ hx))]
    exact recordOpportunity_bookOf config hin

lemma nodup_tableOf (scans : List OpportunityScore) :
    ((tableOf OpportunityScore.symbol scans).map OpportunityScore.symbol).Nodup := by
  induction scans using List.reverseRecOn with
  | nil => exact List.nodup_nil
  | append_singleton scans s ih =>
    rw [tableOf_concat]
    exact nodup_upsert ih s

/-- The symbols of a table of scans are those that are scanned. -/
lemma symbols_tableOf (scans : List OpportunityScore) (k : String) :
    k ∈ (tableOf OpportunityScore.symbol scans).map OpportunityScore.symbol ↔ k ∈ scans.map OpportunityScore.symbol := by
  induction scans using List.reverseRecOn with
  | nil => rfl
  | append_singleton scans s ih =>
    rw [tableOf_concat, mem_map_key_upsert, ih, List.map_append, List.mem_append, List.map_singleton, List.mem_singleton,
      or_comm]

/-- The one is ranked before the other. -/
def RankedBefore (a b : OpportunityScore) : Prop :=
  b.score < a.score ∨ a.score = b.score ∧ a.symbol < b.symbol

lemma rankedBefore_of_le {a b : OpportunityScore} (h : rankKey a ≤ rankKey b) (hne : a.symbol ≠ b.symbol) :
    RankedBefore a b := by
  rw [rankKey, rankKey, Prod.Lex.toLex_le_toLex] at h
  rcases h with hscore | ⟨hscore, hsymbol⟩
  · exact .inl (neg_lt_neg_iff.mp hscore)
  · exact .inr ⟨neg_injective hscore, lt_of_le_of_ne hsymbol hne⟩

lemma ranking_pairwise (scans : List OpportunityScore) :
    (orderBy rankKey (tableOf OpportunityScore.symbol scans)).Pairwise RankedBefore := by
  have hsorted := orderBy_pairwise rankKey (tableOf OpportunityScore.symbol scans)
  have hperm := (orderBy_perm rankKey (tableOf OpportunityScore.symbol scans)).map OpportunityScore.symbol
  have hdistinct : (orderBy rankKey (tableOf OpportunityScore.symbol scans)).Pairwise (fun a b => a.symbol ≠ b.symbol) :=
    List.pairwise_map.mp (hperm.nodup_iff.mpr (nodup_tableOf scans))
  exact (hsorted.and hdistinct).imp (fun h => rankedBefore_of_le h.1 h.2)

lemma ranking_perm {rounds : List (List OpportunityScore)} (hne : rounds ≠ [])
    (hcovers : ∀ r ∈ rounds, Rounds.Covers OpportunityScore.symbol config.symbols r)
    (hin : ∀ s ∈ rounds.flatten, s.symbol ∈ config.symbols) :
    ((orderBy rankKey (tableOf OpportunityScore.symbol rounds.flatten)).map OpportunityScore.symbol).Perm config.symbols := by
  refine ((orderBy_perm rankKey _).map OpportunityScore.symbol).trans ?_
  refine (List.perm_ext_iff_of_nodup (nodup_tableOf _) config.unique).mpr (fun k => ?_)
  rw [symbols_tableOf]
  constructor
  · intro hk
    obtain ⟨s, hs, rfl⟩ := List.mem_map.mp hk
    exact hin s hs
  · intro hk
    obtain ⟨r, hr⟩ := List.exists_mem_of_ne_nil rounds hne
    obtain ⟨s, hs, rfl⟩ := List.mem_map.mp (hcovers r hr k hk)
    exact List.mem_map_of_mem (List.mem_flatten_of_mem hr hs)

/-- The scans of a run fall into rounds in each of which the last symbol is scanned for the first time, and what follows.
The ranking has every symbol once, with its last scan in the rounds that are over, by descending score and then by name. -/
theorem ranking_run (turns : List MarketTurn) :
    let book := (after config turns).book
    ∃ rounds rest, scans config turns = rounds.flatten ++ rest ∧
      (∀ r ∈ rounds, Rounds.Covers OpportunityScore.symbol config.symbols r ∧
        ¬ Rounds.Covers OpportunityScore.symbol config.symbols r.dropLast) ∧
      ¬ Rounds.Covers OpportunityScore.symbol config.symbols rest ∧
      book.rankingGeneration = rounds.length ∧
      (rounds = [] → book.opportunityRanking = []) ∧
      (rounds ≠ [] →
        (book.opportunityRanking.map OpportunityScore.symbol).Perm config.symbols ∧
        book.opportunityRanking.Pairwise RankedBefore ∧
        ∀ item ∈ book.opportunityRanking,
          (rounds.flatten.filter (fun s => s.symbol = item.symbol)).getLast? = some item) := by
  intro book
  have hin := scans_symbol config turns
  have hbook : book = bookOf config (scans config turns) := by
    rw [← book_of_scans config hin, ← book_after]
  have hflatten := split_flatten_symbols config (scans config turns)
  refine ⟨_, _, hflatten.symm, Rounds.split_rounds config.nonempty _, Rounds.split_open config.nonempty _, ?_, ?_, ?_⟩
  · rw [hbook]
    rfl
  · intro hnil
    rw [hbook, bookOf]
    exact if_pos hnil
  · intro hne
    have hranking : book.opportunityRanking = orderBy rankKey (tableOf OpportunityScore.symbol
        (Rounds.split OpportunityScore.symbol config.symbols (scans config turns)).1.flatten) := by
      rw [hbook, bookOf]
      exact if_neg hne
    rw [hranking]
    refine ⟨?_, ranking_pairwise _, fun item hitem => ?_⟩
    · refine ranking_perm config hne (fun r hr => (Rounds.split_rounds config.nonempty _ r hr).1) (fun s hs => hin s ?_)
      rw [← hflatten]
      exact List.mem_append_left _ hs
    · have hmem := (orderBy_perm rankKey _).mem_iff.mp hitem
      rw [← row_tableOf]
      exact row_of_mem (nodup_tableOf _) hmem

end Ranking

end MultiSymbolChiefTrader

end CryptoTrader
