import CryptoTrader.Lib.Samples
import Mathlib.Data.List.MinMax

/-!
# The market data of the alpha engine

`alpha/market_data_engine.py`: the bars of a symbol, at most `max_bars` of them, and what is
computed from the last ones. Prices are elements of an ordered field, square roots a parameter.
-/

namespace CryptoTrader

open Samples

structure AlphaBar (K : Type) where
  /-- In microseconds. -/
  ts : ℤ
  price : K
  volume : K
  oi : Option K := none
  funding : Option K := none
  basis : Option K := none

structure MarketDataEngine (K : Type) where
  symbol : String
  maxBars : ℕ := 500
  bars : List (AlphaBar K) := []
  version : ℕ := 0

namespace MarketDataEngine

variable {K : Type}

def ingest (m : MarketDataEngine K) (bar : AlphaBar K) : Except String (MarketDataEngine K) :=
  if m.bars.getLast?.any (fun b => bar.ts ≤ b.ts) then
    .error "market data must be monotonic (no future/duplicate bars)"
  else .ok { m with bars := (m.bars ++ [bar]).rtake m.maxBars, version := m.version + 1 }

/-- The bars one after the other, up to the first that is refused. -/
def ingestAll : MarketDataEngine K → List (AlphaBar K) → Except String (MarketDataEngine K)
  | m, [] => .ok m
  | m, bar :: bars =>
    match m.ingest bar with
    | .error e => .error e
    | .ok m => ingestAll m bars

def window (m : MarketDataEngine K) (n : ℕ) : List (AlphaBar K) :=
  if 0 < n then m.bars.rtake n else m.bars

def closes (m : MarketDataEngine K) (n : ℕ) : List K :=
  (m.window n).map AlphaBar.price

def latest (m : MarketDataEngine K) : Option (AlphaBar K) := m.bars.getLast?

section Field

variable [Field K] [LinearOrder K] (sqrt : K → K) (m : MarketDataEngine K)

def returns (n : ℕ) : List K := changes (m.closes (n + 1))

def ema (n : ℕ) : Option K :=
  let closes := m.closes 0
  if closes.length < n then none
  else
    let alpha : K := 2 / (n + 1)
    some ((closes.drop n).foldl (fun ema price => price * alpha + ema * (1 - alpha)) ((closes.take n).sum / n))

def realizedVol (n : ℕ) : Option K :=
  let rets := (m.returns 1).rtake n
  if rets.length < 2 then none else some (sqrt (sampleVariance rets))

def averageVolume (n : ℕ) : Option K :=
  let vols := (m.window n).map AlphaBar.volume
  if vols = [] then none else some (mean vols)

def donchian (n offset : ℕ) : Option K × Option K :=
  let bars := m.window (n + offset)
  let bars := if 0 < offset then (if offset < bars.length then bars.rdrop offset else []) else bars
  ((bars.map AlphaBar.price).min?, (bars.map AlphaBar.price).max?)

def zscore (n : ℕ) : Option K :=
  let closes := m.closes n
  if closes.length < n then none
  else if populationVariance closes = 0 then some 0
  else closes.getLast?.map (fun last => (last - mean closes) / sqrt (populationVariance closes))

end Field

/-! ### The bars that are kept -/

lemma ingest_of_lt {m : MarketDataEngine K} {bar : AlphaBar K} (h : ∀ b ∈ m.bars, b.ts < bar.ts) :
    m.ingest bar = .ok { m with bars := (m.bars ++ [bar]).rtake m.maxBars, version := m.version + 1 } := by
  apply if_neg
  rw [Bool.not_eq_true, Option.any_eq_false]
  intro b hb
  have hlt := h b (List.mem_of_getLast? hb)
  exact decide_eq_false (not_le.mpr hlt)

/-- Bars with increasing times are all taken, and the last ones kept. -/
lemma ingestAll_of_increasing {m : MarketDataEngine K} {bars : List (AlphaBar K)} (hkept : m.bars.length ≤ m.maxBars)
    (h : ((m.bars ++ bars).map AlphaBar.ts).Pairwise (· < ·)) :
    m.ingestAll bars = .ok { m with
      bars := (m.bars ++ bars).rtake m.maxBars, version := m.version + bars.length } := by
  induction bars generalizing m with
  | nil =>
    rw [List.append_nil, rtake_of_length_le _ hkept]
    rfl
  | cons bar bars ih =>
    rw [List.map_append, List.map_cons, List.pairwise_append, List.pairwise_cons] at h
    obtain ⟨hold, ⟨hbar, hrest⟩, hcross⟩ := h
    have hlt : ∀ b ∈ m.bars, b.ts < bar.ts :=
      fun b hb => hcross b.ts (List.mem_map_of_mem hb) bar.ts (by simp)
    rw [ingestAll, ingest_of_lt hlt]
    dsimp only
    rw [ih]
    · dsimp only
      rw [rtake_append_rtake, List.append_assoc, List.length_cons, Nat.add_assoc, Nat.add_comm 1]
      rfl
    · dsimp only
      rw [length_rtake]
      exact min_le_left _ _
    · have hall : ((m.bars ++ [bar] ++ bars).map AlphaBar.ts).Pairwise (· < ·) := by
        simp only [List.append_assoc, List.singleton_append, List.map_append, List.map_cons]
        exact List.pairwise_append.mpr ⟨hold, List.pairwise_cons.mpr ⟨hbar, hrest⟩, hcross⟩
      refine hall.sublist (List.Sublist.map _ ?_)
      exact (List.drop_sublist _ _).append_right bars

end MarketDataEngine

end CryptoTrader
