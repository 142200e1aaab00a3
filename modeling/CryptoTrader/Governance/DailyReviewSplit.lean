import CryptoTrader.Governance.DailyReview
import Mathlib.Tactic.Linarith
import Mathlib.Tactic.Ring

/-!
# The daily review by direction

A record of trade memory has the side of an order where `_settle_fill` wrote it, and of a position
otherwise; `DailyReview.run` splits by the side of a position. It selects the records of one date,
but not the failures. When the split and the failures are right: `daily_review_splits_iff`.
-/

namespace CryptoTrader

open KeyedTable

/-- The sides the program writes: of an order, and of a position. -/
def orderSides : List String := ["BUY", "SELL"]

def positionSides : List String := ["LONG", "SHORT"]

structure ProgramRecords where
  records : List TradeMemoryRecord
  sides : ∀ r ∈ records, r.side ∈ orderSides ++ positionSides

/-- The failures `run_once` collects from the records. -/
def failureMemoryOf (records : List TradeMemoryRecord) : FailureMemory :=
  records.foldl (fun (m : FailureMemory) r =>
    match r.failureClass with
    | some failureClass => m.record r.decisionId failureClass
    | none => m) {}

/-- How often a class is in a distribution. -/
def failureCount (distribution : List (FailureClass × ℕ)) (failureClass : FailureClass) : ℕ :=
  ((row Prod.fst failureClass distribution).map Prod.snd).getD 0

namespace ProgramRecords

variable (R : ProgramRecords) (date : ℕ)

def review : DailyReviewStats :=
  DailyReview.run ⟨R.records, some (failureMemoryOf R.records)⟩ date

/-- The results add up by direction and to the net result, and the failures are those of the date. -/
structure Splits : Prop where
  direction : (R.review date).longPnl + (R.review date).shortPnl = (R.review date).grossPnl
  net : (R.review date).netPnl = (R.review date).grossPnl - (R.review date).fees + (R.review date).fundingPnl
  failures : ∀ c, failureCount (R.review date).failureDistribution c =
    (DailyReview.rows date R.records).countP (fun r => r.failureClass = some c)

/-- The result of the date's records that have the side of an order. -/
def orderSidePnl : ℚ :=
  (((DailyReview.rows date R.records).filter (fun r => r.side ∈ orderSides)).map TradeMemoryRecord.pnl).sum

end ProgramRecords

/-- The scheduler reviews what it has loaded. -/
lemma stats_eq_run (db : List StoredTrade) (t : Turn) :
    let records := loadTradeMemory 1000 t.loadedAt db
    DailyReviewScheduler.stats db t = DailyReview.run ⟨records, some (failureMemoryOf records)⟩ t.date := rfl

/-! ### The loop over the rows -/

def sidePnl (side : String) (records : List TradeMemoryRecord) : ℚ :=
  ((records.filter (fun r => r.side = side)).map TradeMemoryRecord.pnl).sum

lemma sidePnl_cons (side : String) (r : TradeMemoryRecord) (records : List TradeMemoryRecord) :
    sidePnl side (r :: records) = (if r.side = side then r.pnl else 0) + sidePnl side records := by
  by_cases h : r.side = side
  · simp [sidePnl, h]
  · simp [sidePnl, h]

lemma foldl_add (stats : DailyReviewStats) (records : List TradeMemoryRecord) :
    let st := records.foldl DailyReviewStats.add stats
    st.grossPnl = stats.grossPnl + (records.map TradeMemoryRecord.pnl).sum ∧
      st.longPnl = stats.longPnl + sidePnl "LONG" records ∧ st.shortPnl = stats.shortPnl + sidePnl "SHORT" records := by
  induction records generalizing stats with
  | nil => simp [sidePnl]
  | cons r records ih =>
    obtain ⟨hgross, hlong, hshort⟩ := ih (stats.add r)
    dsimp only
    rw [List.foldl_cons, hgross, hlong, hshort, List.map_cons, List.sum_cons, sidePnl_cons, sidePnl_cons,
      DailyReviewStats.add]
    refine ⟨by ring, ?_, ?_⟩
    · by_cases h : r.side = "LONG"
      · simp only [h, if_true]
        ring
      · simp only [h, if_false]
        ring
    · by_cases h : r.side = "SHORT"
      · simp only [h, if_true]
        ring
      · simp only [h, if_false]
        ring

/-- What is not long or short has the side of an order. -/
lemma sum_pnl_eq {records : List TradeMemoryRecord} (h : ∀ r ∈ records, r.side ∈ orderSides ++ positionSides) :
    (records.map TradeMemoryRecord.pnl).sum = sidePnl "LONG" records + sidePnl "SHORT" records +
      ((records.filter (fun r => r.side ∈ orderSides)).map TradeMemoryRecord.pnl).sum := by
  induction records with
  | nil => simp [sidePnl]
  | cons r records ih =>
    have hside : r.side = "BUY" ∨ r.side = "SELL" ∨ r.side = "LONG" ∨ r.side = "SHORT" := by
      simpa [orderSides, positionSides] using h r (by simp)
    rw [List.map_cons, List.sum_cons, ih (fun r' hr' => h r' (List.mem_cons_of_mem r hr')), sidePnl_cons, sidePnl_cons]
    rcases hside with hr | hr | hr | hr <;> simp [hr, orderSides] <;> ring

/-! ### The failures -/

lemma failures_of (records : List TradeMemoryRecord) : (failureMemoryOf records).failures =
    records.filterMap (fun r => r.failureClass.map (fun c => (r.decisionId, c))) := by
  induction records using List.reverseRecOn with
  | nil => rfl
  | append_singleton records r ih =>
    rw [failureMemoryOf, List.foldl_append, List.filterMap_append, ← ih]
    cases hclass : r.failureClass with
    | none => simp [hclass, failureMemoryOf]
    | some c => simp [hclass, failureMemoryOf, FailureMemory.record]

lemma failureCount_upsert (d : List (FailureClass × ℕ)) (c c' : FailureClass) (n : ℕ) :
    failureCount (upsert Prod.fst (c', n) d) c = if c = c' then n else failureCount d c := by
  unfold failureCount
  by_cases h : c = c'
  · subst h
    have hrow : row Prod.fst c (upsert Prod.fst (c, n) d) = some (c, n) := row_upsert_self Prod.fst (c, n) d
    rw [if_pos rfl, hrow]
    rfl
  · have hrow : row Prod.fst c (upsert Prod.fst (c', n) d) = row Prod.fst c d := row_upsert_of_ne d h
    rw [if_neg h, hrow]

lemma failureCount_distribution (m : FailureMemory) (c : FailureClass) :
    failureCount m.distribution c = m.failures.countP (fun f => f.2 = c) := by
  obtain ⟨failures⟩ := m
  induction failures using List.reverseRecOn with
  | nil => rfl
  | append_singleton failures f ih =>
    have hstep : (FailureMemory.mk (failures ++ [f])).distribution = upsert Prod.fst
        (f.2, failureCount (FailureMemory.mk failures).distribution f.2 + 1) (FailureMemory.mk failures).distribution := by
      rw [FailureMemory.distribution, List.foldl_append]
      rfl
    rw [hstep, failureCount_upsert, List.countP_append]
    by_cases h : c = f.2
    · subst h
      rw [if_pos rfl]
      simp only at ih
      rw [ih]
      simp
    · simp only at ih
      rw [if_neg h, ih]
      simp [Ne.symm h]

lemma failureCount_failureMemoryOf (records : List TradeMemoryRecord) (c : FailureClass) :
    failureCount (failureMemoryOf records).distribution c = records.countP (fun r => r.failureClass = some c) := by
  rw [failureCount_distribution, failures_of]
  induction records with
  | nil => rfl
  | cons r records ih =>
    cases hclass : r.failureClass with
    | none => simp [hclass, ih]
    | some c' => simp [hclass, List.countP_cons, ih]

/-- No failure of another date is counted exactly if there is none. -/
lemma countP_rows_iff (records : List TradeMemoryRecord) (date : ℕ) :
    (∀ c, records.countP (fun r => r.failureClass = some c) =
        (DailyReview.rows date records).countP (fun r => r.failureClass = some c)) ↔
      ∀ r ∈ records, r.failureClass.isSome → r.ts.date = date := by
  unfold DailyReview.rows
  constructor
  · intro h r hr hfails
    obtain ⟨c, hc⟩ := Option.isSome_iff_exists.mp hfails
    by_contra hother
    have hcount := h c
    rw [List.countP_eq_countP_filter_add _ _ (fun r => decide (r.ts.date = date)), Nat.add_eq_left, List.countP_eq_zero] at hcount
    exact hcount r (List.mem_filter.mpr ⟨hr, by simp [hother]⟩) (decide_eq_true hc)
  · intro h c
    rw [List.countP_filter]
    apply List.countP_congr
    intro r hr
    simp only [Bool.and_eq_true, decide_eq_true_eq]
    constructor
    · intro hc
      exact ⟨hc, h r hr (by simp [hc])⟩
    · exact And.left

/-- The results split by direction and the failures are those of the date exactly if the date's
records with the side of an order have no result in sum, and no record of another date failed. -/
theorem daily_review_splits_iff (R : ProgramRecords) (date : ℕ) :
    R.Splits date ↔ R.orderSidePnl date = 0 ∧ ∀ r ∈ R.records, r.failureClass.isSome → r.ts.date = date := by
  have hsides : ∀ r ∈ DailyReview.rows date R.records, r.side ∈ orderSides ++ positionSides :=
    fun r hr => R.sides r (List.mem_of_mem_filter hr)
  have htotal := sum_pnl_eq hsides
  obtain ⟨hgross, hlong, hshort⟩ := foldl_add { date := date, tradeCount := (DailyReview.rows date R.records).length }
    (DailyReview.rows date R.records)
  have hdirection : (R.review date).longPnl + (R.review date).shortPnl = (R.review date).grossPnl ↔
      R.orderSidePnl date = 0 := by
    have hreview : (R.review date).longPnl + (R.review date).shortPnl = (R.review date).grossPnl ↔
        sidePnl "LONG" (DailyReview.rows date R.records) + sidePnl "SHORT" (DailyReview.rows date R.records) =
          ((DailyReview.rows date R.records).map TradeMemoryRecord.pnl).sum := by
      rw [zero_add] at hgross hlong hshort
      rw [← hgross, ← hlong, ← hshort]
      rfl
    rw [hreview, htotal]
    constructor
    · intro h
      unfold ProgramRecords.orderSidePnl
      linarith
    · intro h
      unfold ProgramRecords.orderSidePnl at h
      rw [h, add_zero]
  have hfailures : (∀ c, failureCount (R.review date).failureDistribution c =
        (DailyReview.rows date R.records).countP (fun r => r.failureClass = some c)) ↔
      ∀ r ∈ R.records, r.failureClass.isSome → r.ts.date = date := by
    rw [← countP_rows_iff]
    refine forall_congr' fun c => ?_
    rw [← failureCount_failureMemoryOf R.records c]
    rfl
  constructor
  · intro h
    exact ⟨hdirection.mp h.direction, hfailures.mp h.failures⟩
  · rintro ⟨hpnl, hdates⟩
    exact ⟨hdirection.mpr hpnl, rfl, hfailures.mpr hdates⟩

def noon (date : ℕ) (h : 365 ≤ date) : Instant where
  us := dayUs * date + dayUs / 2
  year_one_over := by
    have hdays := Nat.mul_le_mul_left dayUs h
    rw [Nat.mul_comm] at hdays
    omega

/-- A sale that realizes 5 on one day, and a signal error on the next. -/
def soldAndFailed : ProgramRecords where
  records := [
    { decisionId := "fill_1", side := "SELL", realizedPnl := some 5, ts := noon 739852 (by decide) },
    { decisionId := "d_2", side := "LONG", failureClass := some .signalError,
      ts := noon 739853 (by decide) }]
  sides := by decide

/-- The review of the first day gives the result to neither direction, and counts the failure. -/
theorem sale_in_no_direction : ¬ soldAndFailed.Splits 739852 ∧
    (soldAndFailed.review 739852).grossPnl = 5 ∧ (soldAndFailed.review 739852).longPnl = 0 ∧
      (soldAndFailed.review 739852).shortPnl = 0 ∧
      (soldAndFailed.review 739852).failureDistribution = [(.signalError, 1)] := by
  have hreview : (soldAndFailed.review 739852).grossPnl = 5 ∧ (soldAndFailed.review 739852).longPnl = 0 ∧
      (soldAndFailed.review 739852).shortPnl = 0 ∧
      (soldAndFailed.review 739852).failureDistribution = [(.signalError, 1)] := by decide +kernel
  refine ⟨fun h => ?_, hreview⟩
  have hdirection := h.direction
  rw [hreview.1, hreview.2.1, hreview.2.2.1] at hdirection
  norm_num at hdirection

end CryptoTrader
