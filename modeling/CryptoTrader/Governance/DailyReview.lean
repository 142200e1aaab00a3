import CryptoTrader.Evolution.ReviewPeriod
import CryptoTrader.Lib.KeyedTable

/-!
# The daily review of trade memory

`DailyReview.run` aggregates the records of one UTC date. `DailyReviewScheduler.run_once`
loads the newest thousand records, reviews the date of the moment it runs and saves the
result under that date; `loop` calls it once a day at the review time.
-/

namespace CryptoTrader

open KeyedTable

/-! ### Memories -/

inductive FailureClass where
  | regimeError | signalError | confidenceError | timingError | positionSizeError | leverageError
  | liquidityError | executionError | fundingError | correlationError | dataError | exchangeError
  | systemError | marketShock
  deriving DecidableEq, Repr

structure TradeMemoryRecord where
  decisionId : String
  side : String
  fees : ℚ := 0
  fundingPnl : ℚ := 0
  realizedPnl : Option ℚ := none
  rMultiple : ℚ := 0
  failureClass : Option FailureClass := none
  ts : Instant
  deriving DecidableEq, Repr

namespace TradeMemoryRecord

/-- `r.realized_pnl or Decimal("0")`. -/
def pnl (r : TradeMemoryRecord) : ℚ := r.realizedPnl.getD 0

def netPnl (r : TradeMemoryRecord) : ℚ := r.pnl - r.fees + r.fundingPnl

end TradeMemoryRecord

structure FailureMemory where
  failures : List (String × FailureClass) := []
  deriving DecidableEq, Repr

namespace FailureMemory

def record (m : FailureMemory) (decisionId : String) (failureClass : FailureClass) : FailureMemory :=
  { failures := m.failures ++ [(decisionId, failureClass)] }

def distribution (m : FailureMemory) : List (FailureClass × ℕ) :=
  m.failures.foldl (fun dist f =>
    upsert Prod.fst (f.2, ((row Prod.fst f.2 dist).map Prod.snd).getD 0 + 1) dist) []

end FailureMemory

/-! ### One review -/

structure DailyReviewStats where
  date : ℕ
  dailyPnl : ℚ := 0
  longPnl : ℚ := 0
  shortPnl : ℚ := 0
  grossPnl : ℚ := 0
  netPnl : ℚ := 0
  fees : ℚ := 0
  fundingPnl : ℚ := 0
  tradeCount : ℕ := 0
  winRate : ℚ := 0
  profitFactor : ℚ := 0
  expectancy : ℚ := 0
  avgR : ℚ := 0
  failureDistribution : List (FailureClass × ℕ) := []
  deriving DecidableEq, Repr

/-- One turn of the loop over the rows. -/
def DailyReviewStats.add (stats : DailyReviewStats) (r : TradeMemoryRecord) : DailyReviewStats :=
  { stats with
    grossPnl := stats.grossPnl + r.pnl
    fees := stats.fees + r.fees
    fundingPnl := stats.fundingPnl + r.fundingPnl
    longPnl := if r.side = "LONG" then stats.longPnl + r.pnl else stats.longPnl
    shortPnl := if r.side = "SHORT" then stats.shortPnl + r.pnl else stats.shortPnl }

structure DailyReview where
  memory : List TradeMemoryRecord
  failureMemory : Option FailureMemory := none
  deriving DecidableEq, Repr

namespace DailyReview

/-- The records of a date. -/
def rows (date : ℕ) (memory : List TradeMemoryRecord) : List TradeMemoryRecord :=
  memory.filter (fun r => r.ts.date = date)

def run (d : DailyReview) (date : ℕ) : DailyReviewStats :=
  let rows := rows date d.memory
  let stats := rows.foldl DailyReviewStats.add { date := date, tradeCount := rows.length }
  let netPnl := stats.grossPnl - stats.fees + stats.fundingPnl
  let pnls := rows.map (·.pnl)
  let wins := pnls.filter (fun p => 0 < p)
  let losses := (pnls.filter (fun p => p < 0)).map (fun p => -p)
  { stats with
    netPnl := netPnl
    dailyPnl := netPnl
    winRate := if pnls = [] then 0 else wins.length / pnls.length
    profitFactor := if 0 < losses.sum then wins.sum / losses.sum else 999
    expectancy := if pnls = [] then 0 else pnls.sum / pnls.length
    avgR := if rows = [] then 0 else (rows.map (·.rMultiple)).sum / rows.length
    failureDistribution :=
      match d.failureMemory with
      | some m => m.distribution
      | none => stats.failureDistribution }

end DailyReview

/-! ### Persistence -/

/-- A row of trade memory, in the database from `storedAt` on. Rows are listed by id. -/
structure StoredTrade extends TradeMemoryRecord where
  storedAt : Instant
  deriving DecidableEq, Repr

structure DailyReviewRun where
  reviewDate : ℕ
  dailyPnl : ℚ
  longPnl : ℚ
  shortPnl : ℚ
  tradeCount : ℕ
  winRate : ℚ
  profitFactor : ℚ
  expectancy : ℚ
  deriving DecidableEq, Repr

/-- The newest rows first, as the database holds them at an instant. -/
def loadTradeMemory (limit : ℕ) (now : Instant) (db : List StoredTrade) : List TradeMemoryRecord :=
  ((db.filter (fun r => r.storedAt.us ≤ now.us)).reverse.take limit).map (·.toTradeMemoryRecord)

def DailyReviewStats.toRun (stats : DailyReviewStats) (date : ℕ) : DailyReviewRun where
  reviewDate := date
  dailyPnl := stats.dailyPnl
  longPnl := stats.longPnl
  shortPnl := stats.shortPnl
  tradeCount := stats.tradeCount
  winRate := stats.winRate
  profitFactor := stats.profitFactor
  expectancy := stats.expectancy

def saveDailyReview (date : ℕ) (stats : DailyReviewStats) (saved : List DailyReviewRun) : List DailyReviewRun :=
  upsert DailyReviewRun.reviewDate (stats.toRun date) saved

/-! ### The scheduler -/

/-- What the language models do in a run; `absent` without a gateway. -/
inductive SemanticWork where
  | absent
  | done
  | reviewFails (reason : String)
  | lessonsFail (reason : String)
  deriving DecidableEq, Repr

/-- The text of `DailyLLMRetryableError`. -/
def SemanticWork.error : SemanticWork → Option String
  | absent => none
  | done => none
  | reviewFails reason => some ("daily_review:" ++ reason)
  | lessonsFail reason => some ("daily_lesson_extraction:" ++ reason)

/-- A turn of the loop: the end of its sleep, the load of the records, its end. -/
structure Turn where
  wokeAt : Instant
  loadedAt : Instant
  finishedAt : Instant
  semantic : SemanticWork := .absent
  woke_le_loaded : wokeAt.us ≤ loadedAt.us
  loaded_le_finished : loadedAt.us ≤ finishedAt.us
  deriving DecidableEq, Repr

def Turn.date (t : Turn) : ℕ := t.wokeAt.date

namespace DailyReviewScheduler

/-- The statistics a turn computes before any language model is asked. -/
def stats (db : List StoredTrade) (t : Turn) : DailyReviewStats :=
  let records := loadTradeMemory 1000 t.loadedAt db
  let failureMemory := records.foldl (fun (m : FailureMemory) r =>
    match r.failureClass with
    | some failureClass => m.record r.decisionId failureClass
    | none => m) {}
  DailyReview.run ⟨records, some failureMemory⟩ t.date

def runOnce (db : List StoredTrade) (t : Turn) (saved : List DailyReviewRun) :
    List DailyReviewRun × Except String DailyReviewStats :=
  match t.semantic.error with
  | some message => (saved, .error message)
  | none => (saveDailyReview t.date (stats db t) saved, .ok (stats db t))

/-- `review_time_utc`, `00:05` unless configured. -/
structure ReviewTime where
  hour : ℕ := 0
  minute : ℕ := 5
  hour_lt : hour < 24 := by decide
  minute_lt : minute < 60 := by decide
  deriving DecidableEq, Repr

/-- The microsecond of the next review, never now. -/
def nextRun (time : ReviewTime) (now : Instant) : ℕ :=
  let next := dayMin now.date + (time.hour * 60 + time.minute) * 60000000
  if next ≤ now.us then next + dayUs else next

/-- Each turn begins when its sleep is over, at the earliest at its review time. -/
def Follows (time : ReviewTime) : Instant → List Turn → Prop
  | _, [] => True
  | now, t :: turns => nextRun time now ≤ t.wokeAt.us ∧ Follows time t.finishedAt turns

/-- The reviews saved by the turns of the loop; an exception ends its turn only. -/
def loop (db : List StoredTrade) (turns : List Turn) : List DailyReviewRun :=
  turns.foldl (fun saved t => (runOnce db t saved).1) []

end DailyReviewScheduler

/-- An uninterrupted run of the loop. -/
structure DailyLoop where
  time : DailyReviewScheduler.ReviewTime := {}
  start : Instant
  turns : List Turn
  follows : DailyReviewScheduler.Follows time start turns

end CryptoTrader
