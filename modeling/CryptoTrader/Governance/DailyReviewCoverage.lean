import CryptoTrader.Governance.DailyReview
import Mathlib.Algebra.BigOperators.Group.List.Basic
import Mathlib.Algebra.Group.Action.Defs
import Mathlib.Tactic.Ring

/-!
# What the daily reviews cover

The review of a date is replaced whenever the date is reviewed again, so what counts is the
last one, and that one sees the records stored by then. A record is covered exactly if the
last review of its own date finds it (`daily_reviews`); a loop that reviews the day that has
just begun leaves out whatever is traded later that day.
-/

namespace CryptoTrader

open KeyedTable

/-- Summed over the saved dates, the reviews count every record once. -/
def CoversOnce (db : List StoredTrade) (saved : List DailyReviewRun) : Prop :=
  (saved.map (·.tradeCount)).sum = db.length ∧ (saved.map (·.dailyPnl)).sum = (db.map (·.netPnl)).sum

instance decidableCoversOnce (db : List StoredTrade) (saved : List DailyReviewRun) :
    Decidable (CoversOnce db saved) :=
  inferInstanceAs (Decidable (_ ∧ _))

/-- The turn that saved a date last. -/
def lastReview (turns : List Turn) (date : ℕ) : Option Turn :=
  (turns.filter (fun t => t.date = date ∧ t.semantic.error = none)).getLast?

/-- The record is among the thousand newest that the turn loads; `later` are the rows after it. -/
def Turn.Finds (t : Turn) (r : StoredTrade) (later : List StoredTrade) : Prop :=
  r.storedAt.us ≤ t.loadedAt.us ∧ later.countP (fun r' => r'.storedAt.us ≤ t.loadedAt.us) < 1000

instance decidableFinds (t : Turn) (r : StoredTrade) (later : List StoredTrade) : Decidable (t.Finds r later) :=
  inferInstanceAs (Decidable (_ ∧ _))

/-- The last review of every record's own date finds the record. -/
def Reviewed (turns : List Turn) (db : List StoredTrade) : Prop :=
  ∀ earlier r later, db = earlier ++ r :: later → ∃ t, lastReview turns r.ts.date = some t ∧ t.Finds r later

/-- The loop starts before the days of the records and goes on into the days after them. -/
def DailyLoop.Spans (L : DailyLoop) (db : List StoredTrade) : Prop :=
  ∀ r ∈ db, L.start.us ≤ dayMin r.ts.date ∧ ∃ t ∈ L.turns, r.ts.date < t.date

instance decidableSpans (L : DailyLoop) (db : List StoredTrade) : Decidable (L.Spans db) :=
  inferInstanceAs (Decidable (∀ r ∈ db, _ ∧ ∃ t ∈ L.turns, _))

/-! ### One review -/

namespace DailyReview

lemma foldl_add (rs : List TradeMemoryRecord) (stats : DailyReviewStats) :
    let s := rs.foldl DailyReviewStats.add stats
    s.tradeCount = stats.tradeCount ∧
      s.grossPnl - s.fees + s.fundingPnl =
        stats.grossPnl - stats.fees + stats.fundingPnl + (rs.map (·.netPnl)).sum := by
  dsimp only
  induction rs generalizing stats with
  | nil => simp
  | cons r rs ih =>
    obtain ⟨hcount, hnet⟩ := ih (stats.add r)
    rw [List.foldl_cons, hcount, hnet, List.map_cons, List.sum_cons]
    refine ⟨rfl, ?_⟩
    simp only [DailyReviewStats.add, TradeMemoryRecord.netPnl]
    ring

lemma run_tradeCount (d : DailyReview) (date : ℕ) : (d.run date).tradeCount = (rows date d.memory).length :=
  (foldl_add (rows date d.memory) _).1

lemma run_dailyPnl (d : DailyReview) (date : ℕ) :
    (d.run date).dailyPnl = ((rows date d.memory).map (·.netPnl)).sum := by
  have h := (foldl_add (rows date d.memory) { date := date, tradeCount := (rows date d.memory).length }).2
  simp only [sub_zero, add_zero, zero_add] at h
  exact h

end DailyReview

/-! ### The saved reviews -/

/-- The turns whose reviews are saved at the end, one for each reviewed date. -/
def reviewTurns (turns : List Turn) : List Turn :=
  turns.foldl (fun kept t => if t.semantic.error = none then upsert Turn.date t kept else kept) []

lemma reviewTurns_append (turns : List Turn) (t : Turn) :
    reviewTurns (turns ++ [t]) =
      if t.semantic.error = none then upsert Turn.date t (reviewTurns turns) else reviewTurns turns := by
  rw [reviewTurns, List.foldl_append]
  rfl

lemma nodup_reviewTurns (turns : List Turn) : ((reviewTurns turns).map Turn.date).Nodup := by
  induction turns using List.reverseRecOn with
  | nil => exact List.nodup_nil
  | append_singleton turns t ih =>
    rw [reviewTurns_append]
    split
    · exact nodup_upsert ih t
    · exact ih

lemma row_reviewTurns (turns : List Turn) (date : ℕ) :
    row Turn.date date (reviewTurns turns) = lastReview turns date := by
  induction turns using List.reverseRecOn with
  | nil => rfl
  | append_singleton turns t ih =>
    rw [reviewTurns_append, lastReview, List.filter_append]
    by_cases herr : t.semantic.error = none
    · rw [if_pos herr]
      by_cases hdate : t.date = date
      · subst hdate
        rw [row_upsert_self, List.filter_singleton]
        simp [herr]
      · rw [row_upsert_of_ne _ (Ne.symm hdate), ih, List.filter_singleton]
        simp [hdate, lastReview]
    · rw [if_neg herr, ih, List.filter_singleton]
      simp [herr, lastReview]

lemma mem_reviewTurns {turns : List Turn} {t : Turn} : t ∈ reviewTurns turns ↔ lastReview turns t.date = some t := by
  rw [← row_reviewTurns, row_iff_mem (nodup_reviewTurns turns)]
  exact (and_iff_left rfl).symm

namespace DailyReviewScheduler

/-- What a turn saves. -/
def review (db : List StoredTrade) (t : Turn) : DailyReviewRun :=
  (stats db t).toRun t.date

lemma loop_eq (db : List StoredTrade) (turns : List Turn) : loop db turns = (reviewTurns turns).map (review db) := by
  induction turns using List.reverseRecOn with
  | nil => rfl
  | append_singleton turns t ih =>
    have hloop : loop db (turns ++ [t]) = (runOnce db t (loop db turns)).1 := by
      rw [loop, List.foldl_append]
      rfl
    rw [hloop, ih, reviewTurns_append, runOnce]
    cases herr : t.semantic.error with
    | some message => rw [if_neg (by simp)]
    | none =>
      rw [if_pos rfl]
      exact (map_upsert (fun _ => rfl) t (reviewTurns turns)).symm

end DailyReviewScheduler

/-! ### The records of a review -/

/-- The records that a turn loads and counts. -/
def Turn.found (t : Turn) (db : List StoredTrade) : List TradeMemoryRecord :=
  DailyReview.rows t.date (loadTradeMemory 1000 t.loadedAt db)

lemma load_cons (limit : ℕ) (now : Instant) (r : StoredTrade) (later : List StoredTrade) :
    loadTradeMemory limit now (r :: later) = loadTradeMemory limit now later ++
      if r.storedAt.us ≤ now.us ∧ later.countP (fun r' => r'.storedAt.us ≤ now.us) < limit
      then [r.toTradeMemoryRecord] else [] := by
  by_cases hr : r.storedAt.us ≤ now.us
  · simp only [loadTradeMemory, hr, decide_true, List.filter_cons_of_pos, List.reverse_cons, true_and,
      List.countP_eq_length_filter]
    rw [List.take_append, List.map_append, List.length_reverse]
    congr 1
    split
    · rename_i hlt
      obtain ⟨n, hn⟩ : ∃ n, limit - (later.filter (fun r' => r'.storedAt.us ≤ now.us)).length = n + 1 :=
        Nat.exists_eq_succ_of_ne_zero (by omega)
      rw [hn, List.take_succ_cons, List.take_nil]
      rfl
    · rename_i hge
      rw [Nat.sub_eq_zero_of_le (not_lt.mp hge)]
      rfl
  · simp [loadTradeMemory, hr]

lemma found_cons (t : Turn) (r : StoredTrade) (later : List StoredTrade) :
    t.found (r :: later) = t.found later ++
      if t.date = r.ts.date ∧ t.Finds r later then [r.toTradeMemoryRecord] else [] := by
  rw [Turn.found, load_cons, DailyReview.rows, List.filter_append]
  congr 1
  by_cases hfinds : t.Finds r later
  · rw [if_pos ⟨hfinds.1, hfinds.2⟩, List.filter_singleton]
    by_cases hdate : t.date = r.ts.date
    · simp [hdate, hfinds]
    · simp [hdate, Ne.symm hdate]
  · rw [if_neg (fun h => hfinds ⟨h.1, h.2⟩), if_neg (fun h => hfinds h.2)]
    rfl

/-! ### The sums -/

section Sums

variable {M : Type} [AddCommMonoid M] (f : TradeMemoryRecord → M)

/-- A weight of the records, summed over the reviews of some turns. -/
def reviewed (kept : List Turn) (db : List StoredTrade) : M :=
  (kept.map (fun t => ((t.found db).map f).sum)).sum

/-- How many of the turns count a record. -/
def reviewCount (kept : List Turn) (r : StoredTrade) (later : List StoredTrade) : ℕ :=
  kept.countP (fun t => t.date = r.ts.date ∧ t.Finds r later)

lemma reviewed_nil (kept : List Turn) : reviewed f kept [] = 0 := by
  induction kept with
  | nil => rfl
  | cons t kept ih =>
    rw [reviewed, List.map_cons, List.sum_cons]
    exact (congrArg _ ih).trans (add_zero _)

lemma reviewed_cons (kept : List Turn) (r : StoredTrade) (later : List StoredTrade) :
    reviewed f kept (r :: later) = reviewed f kept later + reviewCount kept r later • f r.toTradeMemoryRecord := by
  induction kept with
  | nil => simp [reviewed, reviewCount]
  | cons t kept ih =>
    have hturn : reviewed f (t :: kept) (r :: later) =
        ((t.found (r :: later)).map f).sum + reviewed f kept (r :: later) := by
      rw [reviewed, List.map_cons, List.sum_cons]
      rfl
    have hlater : reviewed f (t :: kept) later = ((t.found later).map f).sum + reviewed f kept later := by
      rw [reviewed, List.map_cons, List.sum_cons]
      rfl
    rw [hturn, hlater, ih, found_cons, List.map_append, List.sum_append, reviewCount, reviewCount, List.countP_cons]
    by_cases h : t.date = r.ts.date ∧ t.Finds r later
    · simp only [h, and_self, if_true, decide_true, List.map_singleton, List.sum_singleton, succ_nsmul]
      abel
    · simp only [h, if_false, decide_false, List.map_nil, List.sum_nil, add_zero]
      abel

/-- A review counts a record of its date that it finds, and only the last review of the date is kept. -/
lemma reviewCount_eq_one_iff (turns : List Turn) (r : StoredTrade) (later : List StoredTrade) :
    reviewCount (reviewTurns turns) r later = 1 ↔
      ∃ t, lastReview turns r.ts.date = some t ∧ t.Finds r later := by
  constructor
  · intro h
    obtain ⟨t, ht, hcounts⟩ := List.one_le_countP_iff.mp h.ge
    obtain ⟨hdate, hfinds⟩ := of_decide_eq_true hcounts
    exact ⟨t, hdate ▸ mem_reviewTurns.mp ht, hfinds⟩
  · rintro ⟨t, ht, hfinds⟩
    rw [← row_reviewTurns] at ht
    obtain ⟨hmem, hdate⟩ := row_some ht
    rw [reviewCount, List.countP_eq_length_filter, filter_eq_singleton (nodup_reviewTurns turns) hmem]
    · rfl
    · exact decide_eq_true ⟨hdate, hfinds⟩
    · intro t' ht'
      rw [(of_decide_eq_true ht').1, hdate]

lemma reviewCount_le_one (turns : List Turn) (r : StoredTrade) (later : List StoredTrade) :
    reviewCount (reviewTurns turns) r later ≤ 1 := by
  by_contra h
  have hpos : 0 < (reviewTurns turns).countP (fun t => t.date = r.ts.date ∧ t.Finds r later) :=
    Nat.lt_trans Nat.one_pos (not_le.mp h)
  obtain ⟨t, ht, hcounts⟩ := List.countP_pos_iff.mp hpos
  obtain ⟨hdate, hfinds⟩ := of_decide_eq_true hcounts
  exact h ((reviewCount_eq_one_iff turns r later).mpr ⟨t, hdate ▸ mem_reviewTurns.mp ht, hfinds⟩).le

lemma reviewed_cons_iff {turns : List Turn} {r : StoredTrade} {later : List StoredTrade} :
    Reviewed turns (r :: later) ↔
      (∃ t, lastReview turns r.ts.date = some t ∧ t.Finds r later) ∧ Reviewed turns later := by
  constructor
  · intro h
    refine ⟨h [] r later rfl, ?_⟩
    intro earlier r' later' hsplit
    exact h (r :: earlier) r' later' (by rw [hsplit, List.cons_append])
  · rintro ⟨hhead, htail⟩ earlier r' later' hsplit
    cases earlier with
    | nil =>
      obtain ⟨rfl, rfl⟩ := List.cons.inj hsplit
      exact hhead
    | cons r'' earlier =>
      obtain ⟨rfl, hlater⟩ := List.cons.inj hsplit
      exact htail earlier r' later' hlater

lemma reviewed_of_all {turns : List Turn} {db : List StoredTrade} (h : Reviewed turns db) :
    reviewed f (reviewTurns turns) db = (db.map (fun r => f r.toTradeMemoryRecord)).sum := by
  induction db with
  | nil => exact reviewed_nil f _
  | cons r later ih =>
    obtain ⟨hhead, htail⟩ := reviewed_cons_iff.mp h
    rw [reviewed_cons, (reviewCount_eq_one_iff turns r later).mpr hhead, one_nsmul, ih htail, List.map_cons,
      List.sum_cons, add_comm]

lemma reviewed_count_le (turns : List Turn) (db : List StoredTrade) :
    reviewed (fun _ => 1) (reviewTurns turns) db ≤ db.length := by
  induction db with
  | nil => rw [reviewed_nil, List.length_nil]
  | cons r later ih =>
    have hone := reviewCount_le_one turns r later
    rw [reviewed_cons, smul_eq_mul, mul_one, List.length_cons]
    omega

/-- As many counted as there are is every one counted. -/
lemma all_of_reviewed_count {turns : List Turn} {db : List StoredTrade}
    (h : reviewed (fun _ => 1) (reviewTurns turns) db = db.length) : Reviewed turns db := by
  induction db with
  | nil =>
    intro earlier r later hsplit
    simp at hsplit
  | cons r later ih =>
    have hone := reviewCount_le_one turns r later
    have hle := reviewed_count_le turns later
    rw [reviewed_cons, smul_eq_mul, mul_one, List.length_cons] at h
    exact reviewed_cons_iff.mpr ⟨(reviewCount_eq_one_iff turns r later).mp (by omega), ih (by omega)⟩

end Sums

/-! ### The loop -/

namespace DailyReviewScheduler

lemma loop_tradeCount (db : List StoredTrade) (turns : List Turn) :
    ((loop db turns).map (·.tradeCount)).sum = reviewed (fun _ => 1) (reviewTurns turns) db := by
  rw [loop_eq, List.map_map, reviewed]
  congr 1
  apply List.map_congr_left
  intro t _
  have hcount : (review db t).tradeCount = (t.found db).length := DailyReview.run_tradeCount _ _
  rw [Function.comp_apply, hcount, List.map_const', List.sum_replicate, smul_eq_mul, mul_one]

lemma loop_dailyPnl (db : List StoredTrade) (turns : List Turn) :
    ((loop db turns).map (·.dailyPnl)).sum = reviewed (·.netPnl) (reviewTurns turns) db := by
  rw [loop_eq, List.map_map, reviewed]
  congr 1
  apply List.map_congr_left
  intro t _
  exact DailyReview.run_dailyPnl _ _

end DailyReviewScheduler

/-- The saved reviews count every record once if and only if the last review of each record's
own date runs after the record is stored and before a thousand newer ones are. -/
theorem daily_reviews (L : DailyLoop) (db : List StoredTrade) :
    CoversOnce db (DailyReviewScheduler.loop db L.turns) ↔ Reviewed L.turns db := by
  rw [CoversOnce, DailyReviewScheduler.loop_tradeCount, DailyReviewScheduler.loop_dailyPnl]
  constructor
  · rintro ⟨hcount, -⟩
    exact all_of_reviewed_count hcount
  · intro h
    refine ⟨?_, reviewed_of_all _ h⟩
    rw [reviewed_of_all _ h, List.map_const', List.sum_replicate, smul_eq_mul, mul_one]

/-- A turn that is over at once, the given time after the midnight of a day. -/
def promptTurn (date us : ℕ) (h : 365 * dayUs ≤ dayMin date + us := by decide) : Turn where
  wokeAt := ⟨dayMin date + us, h⟩
  loadedAt := ⟨dayMin date + us, h⟩
  finishedAt := ⟨dayMin date + us, h⟩
  woke_le_loaded := le_refl _
  loaded_le_finished := le_refl _

/-- Reviews at 00:05 of the 24th and the 25th of August 2026, from the noon before. -/
def augustLoop : DailyLoop where
  start := ⟨dayMin 739850 + 43200000000, by decide⟩
  turns := [promptTurn 739851 reviewTime, promptTurn 739852 reviewTime]
  follows := ⟨by decide, by decide, trivial⟩

/-- A trade at noon of the 24th. -/
def noonTrade : StoredTrade where
  decisionId := "d1"
  side := "LONG"
  realizedPnl := some 10
  ts := ⟨dayMin 739851 + 43200000000, by decide⟩
  storedAt := ⟨dayMin 739851 + 43200000000, by decide⟩

/-- The trade is in no review. -/
theorem noon_trade_unreviewed :
    ¬∀ (L : DailyLoop) (db : List StoredTrade), L.Spans db → CoversOnce db (DailyReviewScheduler.loop db L.turns) := by
  intro h
  have hcovers := h augustLoop [noonTrade] (by decide)
  revert hcovers
  decide +kernel

end CryptoTrader
