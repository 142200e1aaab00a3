import CryptoTrader.Alpha.MarketDataEngine
import Mathlib.Analysis.Real.Sqrt
import Mathlib.Tactic.NormNum

/-!
# The features of a symbol

`compute_features` of `alpha/features.py` over the bars ingested so far. Every feature is what its
name says but the volatility, which is computed from one return and stays zero
(`features_mean_iff`).
-/

namespace CryptoTrader

open Samples

structure FeatureSnapshot (K : Type) where
  symbol : String
  ts : ℤ
  version : ℕ
  reasonCodes : List String
  price : K
  return1 : K
  return5 : K
  return20 : K
  realizedVol20 : K
  volumeRatio20 : K
  ema20 : K
  ema50 : K
  zscore20 : K
  donchianLow50 : K
  donchianHigh50 : K
  oi : K
  funding : K
  basis : K
  fundingAvailable : Bool
  basisAvailable : Bool
  oiAvailable : Bool

variable {K : Type} [Field K] [LinearOrder K]

/-- `value or default`. -/
def orElseValue (value : Option K) (default : K) : K :=
  (value.filter (fun v => v ≠ 0)).getD default

@[simp] lemma orElseValue_none (default : K) : orElseValue none default = default := rfl

lemma orElseValue_of_ne {value : K} (h : value ≠ 0) (default : K) : orElseValue (some value) default = value := by
  rw [orElseValue, Option.filter_some_pos (by simpa using h), Option.getD_some]

@[simp] lemma orElseValue_zero (value : K) : orElseValue (some value) 0 = value := by
  by_cases h : value = 0
  · rw [h, orElseValue, Option.filter_some_neg (by simp), Option.getD_none]
  · exact orElseValue_of_ne h 0

/-- `ret`: the return since `n` bars ago, zero before there are so many. -/
def returnOver (mde : MarketDataEngine K) (n : ℕ) : K :=
  let closes := mde.closes (n + 1)
  if closes.length < n + 1 then 0
  else
    match closes.reverse[0]?, closes.reverse[n]? with
    | some last, some before => (last - before) / before
    | _, _ => 0

def computeFeatures (sqrt : K → K) (mde : MarketDataEngine K) (symbol : String) (ts : ℤ) :
    Except String (FeatureSnapshot K) :=
  match mde.latest with
  | none => .error "no market data"
  | some latest =>
    let price := latest.price
    let avgVol := orElseValue (mde.averageVolume 20) 1
    let bounds := mde.donchian 50 1
    .ok { symbol, ts, price
          version := mde.version
          reasonCodes := ["closed_bars_only"]
          return1 := returnOver mde 1
          return5 := returnOver mde 5
          return20 := returnOver mde 20
          realizedVol20 := orElseValue (mde.realizedVol sqrt 20) 0
          volumeRatio20 := if 0 < avgVol then latest.volume / avgVol else 1
          ema20 := orElseValue (mde.ema 20) price
          ema50 := orElseValue (mde.ema 50) price
          zscore20 := orElseValue (mde.zscore sqrt 20) 0
          donchianLow50 := orElseValue bounds.1 price
          donchianHigh50 := orElseValue bounds.2 price
          oi := orElseValue latest.oi 0
          funding := orElseValue latest.funding 0
          basis := orElseValue latest.basis 0
          fundingAvailable := latest.funding.isSome
          basisAvailable := latest.basis.isSome
          oiAvailable := latest.oi.isSome }

/-! ### What the features should be -/

/-- Bars with increasing times and positive prices, and an engine that keeps enough of them. -/
structure BarHistory (K : Type) [Field K] [LinearOrder K] where
  symbol : String
  maxBars : ℕ := 500
  bars : List (AlphaBar K)
  nonempty : bars ≠ []
  increasing : (bars.map AlphaBar.ts).Pairwise (· < ·)
  positive : ∀ b ∈ bars, 0 < b.price
  window_le : 51 ≤ maxBars

namespace BarHistory

variable (H : BarHistory K)

def prices : List K := H.bars.map AlphaBar.price

def priceAgo (n : ℕ) : Option K := H.prices.reverse[n]?

/-- The last one-bar returns, twenty at most. -/
def lastReturns : List K := (changes H.prices).rtake 20

/-- The prices of the bars before the current one, fifty at most. -/
def pricesBefore : List K := H.prices.dropLast.rtake 50

/-- The return since `n` bars ago; where there is no such bar, zero. -/
def IsReturn (n : ℕ) (r : K) : Prop :=
  ∀ last ∈ H.priceAgo 0, r = match H.priceAgo n with
    | some before => (last - before) / before
    | none => 0

/-- The square is the sample variance of the last returns, and only returns that are equal, or
fewer than two, give zero. -/
def IsVolatility (vol : K) : Prop :=
  0 ≤ vol ∧ vol ^ 2 = sampleVariance H.lastReturns ∧
    (vol = 0 → H.lastReturns.length < 2 ∨ ∀ r ∈ H.lastReturns, ∀ r' ∈ H.lastReturns, r = r')

/-- The distance of the last price from the mean of twenty, in population deviations; zero without
a deviation or twenty prices. -/
def IsZscore (z : K) : Prop :=
  ∀ last ∈ H.priceAgo 0, ∃ deviation, 0 ≤ deviation ∧ deviation ^ 2 = populationVariance (H.prices.rtake 20) ∧
    z = if H.prices.length < 20 ∨ deviation = 0 then 0 else (last - mean (H.prices.rtake 20)) / deviation

/-- The bounds are the least and the greatest price before the current bar; without a bar before,
both are the current price. -/
def AreBounds (low high : K) : Prop :=
  if H.pricesBefore = [] then H.priceAgo 0 = some low ∧ H.priceAgo 0 = some high
  else low ∈ H.pricesBefore ∧ high ∈ H.pricesBefore ∧ ∀ p ∈ H.pricesBefore, low ≤ p ∧ p ≤ high

structure Meaning (f : FeatureSnapshot K) : Prop where
  return1 : H.IsReturn 1 f.return1
  return5 : H.IsReturn 5 f.return5
  return20 : H.IsReturn 20 f.return20
  volatility : H.IsVolatility f.realizedVol20
  zscore : H.IsZscore f.zscore20
  donchian : H.AreBounds f.donchianLow50 f.donchianHigh50

def features (sqrt : K → K) (ts : ℤ) : Except String (FeatureSnapshot K) := do
  let mde ← MarketDataEngine.ingestAll { symbol := H.symbol, maxBars := H.maxBars } H.bars
  computeFeatures sqrt mde H.symbol ts

/-! ### The engine with the bars -/

def engine : MarketDataEngine K where
  symbol := H.symbol
  maxBars := H.maxBars
  bars := H.bars.rtake H.maxBars
  version := H.bars.length

lemma ingestAll_bars :
    MarketDataEngine.ingestAll { symbol := H.symbol, maxBars := H.maxBars } H.bars = .ok H.engine := by
  rw [MarketDataEngine.ingestAll_of_increasing]
  · simp [engine]
  · exact Nat.zero_le _
  · exact H.increasing

lemma window_engine {n : ℕ} (hpos : 0 < n) (hle : n ≤ 51) : H.engine.window n = H.bars.rtake n := by
  rw [MarketDataEngine.window, if_pos hpos, engine]
  exact rtake_rtake H.bars (hle.trans H.window_le)

lemma closes_engine {n : ℕ} (hpos : 0 < n) (hle : n ≤ 51) : H.engine.closes n = H.prices.rtake n := by
  rw [MarketDataEngine.closes, H.window_engine hpos hle, map_rtake]
  rfl

lemma exists_latest : ∃ latest, H.engine.latest = some latest ∧ H.priceAgo 0 = some latest.price := by
  obtain ⟨bars, latest, hbars⟩ := (List.eq_nil_or_concat H.bars).resolve_left H.nonempty
  obtain ⟨k, hk⟩ := Nat.exists_eq_succ_of_ne_zero (by have := H.window_le; omega : H.maxBars ≠ 0)
  refine ⟨latest, ?_, ?_⟩
  · simp [MarketDataEngine.latest, engine, hbars, hk]
  · simp [priceAgo, prices, hbars]

lemma returnOver_engine {n : ℕ} (hle : n ≤ 50) : H.IsReturn n (returnOver H.engine n) := by
  intro last hlast
  have hlast : H.priceAgo 0 = some last := hlast
  have htake : (H.prices.rtake (n + 1)).reverse = H.prices.reverse.take (n + 1) := by
    rw [List.rtake_eq_reverse_take_reverse, List.reverse_reverse]
  rw [returnOver, H.closes_engine (Nat.succ_pos n) (by omega), length_rtake, htake,
    List.getElem?_take_of_lt (Nat.succ_pos n), List.getElem?_take_of_lt (Nat.lt_succ_self n)]
  change (if _ then _ else match H.priceAgo 0, H.priceAgo n with
    | some last, some before => (last - before) / before
    | _, _ => 0) = _
  rw [hlast]
  by_cases hshort : H.prices.length ≤ n
  · have hnone : H.priceAgo n = none := by
      rw [priceAgo, List.getElem?_eq_none_iff, List.length_reverse]
      exact hshort
    rw [if_pos (by omega), hnone]
  · rw [if_neg (by omega)]
    cases H.priceAgo n <;> rfl

/-- One return has no variance. -/
lemma realizedVol_engine (sqrt : K → K) : H.engine.realizedVol sqrt 20 = none := by
  apply if_pos
  rw [length_rtake, MarketDataEngine.returns, H.closes_engine (by omega) (by omega), length_changes, length_rtake]
  omega

lemma donchian_engine : H.engine.donchian 50 1 = (H.pricesBefore.min?, H.pricesBefore.max?) := by
  have hbars : (if 1 < (H.bars.rtake 51).length then (H.bars.rtake 51).rdrop 1 else []) = H.bars.dropLast.rtake 50 := by
    rw [← dropLast_rtake, List.dropLast_eq_take, List.rdrop]
    split
    · rfl
    · rename_i hshort
      rw [List.take_eq_nil_iff.mpr (.inl (Nat.sub_eq_zero_of_le (not_lt.mp hshort)))]
  rw [MarketDataEngine.donchian, H.window_engine (by omega) (by omega), if_pos one_pos, hbars, map_rtake, List.map_dropLast]
  rfl

lemma bounds_engine {price : K} (hprice : H.priceAgo 0 = some price) :
    H.AreBounds (orElseValue H.pricesBefore.min? price) (orElseValue H.pricesBefore.max? price) := by
  unfold AreBounds
  split
  · rename_i hnone
    rw [hnone]
    exact ⟨hprice, hprice⟩
  · rename_i hsome
    obtain ⟨low, hlow⟩ := Option.isSome_iff_exists.mp (List.isSome_min?_iff.mpr hsome)
    obtain ⟨high, hhigh⟩ := Option.isSome_iff_exists.mp (List.isSome_max?_iff.mpr hsome)
    obtain ⟨hlowmem, hlowle⟩ := List.min?_eq_some_iff.mp hlow
    obtain ⟨hhighmem, hhighle⟩ := List.max?_eq_some_iff.mp hhigh
    have hpositive : ∀ p ∈ H.pricesBefore, p ≠ 0 := by
      intro p hp
      obtain ⟨b, hb, rfl⟩ := List.mem_map.mp (List.mem_of_mem_dropLast (List.mem_of_mem_drop hp))
      exact (H.positive b hb).ne'
    rw [hlow, hhigh, orElseValue_of_ne (hpositive low hlowmem), orElseValue_of_ne (hpositive high hhighmem)]
    exact ⟨hlowmem, hhighmem, fun p hp => ⟨hlowle p hp, hhighle p hp⟩⟩

section Ordered

variable [IsStrictOrderedRing K]

lemma zscore_engine {sqrt : K → K} (hsqrt : ∀ x, 0 ≤ x → 0 ≤ sqrt x ∧ sqrt x ^ 2 = x) :
    H.IsZscore (orElseValue (H.engine.zscore sqrt 20) 0) := by
  intro last hlast
  obtain ⟨hnonneg, hsquare⟩ := hsqrt _ (populationVariance_nonneg (H.prices.rtake 20))
  refine ⟨sqrt (populationVariance (H.prices.rtake 20)), hnonneg, hsquare, ?_⟩
  have hvariance : populationVariance (H.prices.rtake 20) = 0 ↔ sqrt (populationVariance (H.prices.rtake 20)) = 0 := by
    rw [← pow_eq_zero_iff (a := sqrt _) two_ne_zero, hsquare]
  rw [MarketDataEngine.zscore, H.closes_engine (by omega) (by omega), length_rtake]
  by_cases hshort : H.prices.length < 20
  · rw [if_pos (by omega), if_pos (.inl hshort)]
    rfl
  · rw [if_neg (by omega)]
    by_cases hzero : populationVariance (H.prices.rtake 20) = 0
    · rw [if_pos hzero, if_pos (.inr (hvariance.mp hzero)), orElseValue_zero]
    · have hdeviation := mt hvariance.mpr hzero
      have hend : (H.prices.rtake 20).getLast? = some last := by
        have hlast : H.prices.reverse[0]? = some last := hlast
        rw [← hlast, List.rtake_eq_reverse_take_reverse, List.getLast?_reverse, List.head?_take, if_neg (by omega),
          List.head?_eq_getElem?]
      rw [if_neg hzero, if_neg (not_or.mpr ⟨hshort, hdeviation⟩), hend, Option.map_some,
        orElseValue_zero]

/-- The volatility that is reported is zero. -/
lemma meaning_iff {sqrt : K → K} (hsqrt : ∀ x, 0 ≤ x → 0 ≤ sqrt x ∧ sqrt x ^ 2 = x) (ts : ℤ) :
    (∃ f, H.features sqrt ts = .ok f ∧ H.Meaning f) ↔ H.IsVolatility 0 := by
  obtain ⟨latest, hlatest, hprice⟩ := H.exists_latest
  have hfeatures : H.features sqrt ts = computeFeatures sqrt H.engine H.symbol ts := by
    rw [features, ingestAll_bars]
    rfl
  rw [hfeatures, computeFeatures, hlatest]
  dsimp only
  rw [H.realizedVol_engine, H.donchian_engine]
  constructor
  · rintro ⟨f, hf, hmeaning⟩
    obtain rfl := Except.ok.inj hf
    exact hmeaning.volatility
  · intro hvolatility
    refine ⟨_, rfl, ?_, ?_, ?_, hvolatility, H.zscore_engine hsqrt, H.bounds_engine hprice⟩
    · exact H.returnOver_engine (by omega)
    · exact H.returnOver_engine (by omega)
    · exact H.returnOver_engine (by omega)

lemma isVolatility_zero_iff :
    H.IsVolatility 0 ↔ H.lastReturns.length < 2 ∨ ∀ r ∈ H.lastReturns, ∀ r' ∈ H.lastReturns, r = r' := by
  constructor
  · intro h
    exact h.2.2 rfl
  · intro h
    refine ⟨le_rfl, ?_, fun _ => h⟩
    have hzero : squaredDeviations H.lastReturns = 0 := by
      rw [squaredDeviations_eq_zero_iff]
      rcases h with hshort | hequal
      · match hreturns : H.lastReturns with
        | [] => simp
        | [r] => simp
        | r :: r' :: rest => simp [hreturns] at hshort
      · exact hequal
    rw [sampleVariance, hzero, zero_div, zero_pow two_ne_zero]

end Ordered

end BarHistory

/-- The features mean what they are called exactly if there are fewer than two returns or the last
ones, twenty at most, are all equal. -/
theorem features_mean_iff (H : BarHistory ℝ) (ts : ℤ) :
    (∃ f, H.features Real.sqrt ts = .ok f ∧ H.Meaning f) ↔
      H.lastReturns.length < 2 ∨ ∀ r ∈ H.lastReturns, ∀ r' ∈ H.lastReturns, r = r' := by
  rw [H.meaning_iff (fun x hx => ⟨Real.sqrt_nonneg x, Real.sq_sqrt hx⟩) ts, H.isVolatility_zero_iff]

/-- The price rises by a tenth and falls by a tenth. -/
def risesAndFalls (K : Type) [Field K] [LinearOrder K] [IsStrictOrderedRing K] : BarHistory K where
  symbol := "BTCUSDT"
  bars := [{ ts := 0, price := 100, volume := 1 }, { ts := 1, price := 110, volume := 1 }, { ts := 2, price := 99, volume := 1 }]
  nonempty := by simp
  increasing := by simp
  positive := by simp
  window_le := by decide

/-- The volatility is said to be zero where the returns differ. -/
theorem volatility_stays_zero : ¬ ∃ f, (risesAndFalls ℝ).features Real.sqrt 2 = .ok f ∧ (risesAndFalls ℝ).Meaning f := by
  rw [BarHistory.meaning_iff _ (fun x hx => ⟨Real.sqrt_nonneg x, Real.sq_sqrt hx⟩) 2, BarHistory.isVolatility_zero_iff]
  have hreturns : (risesAndFalls ℝ).lastReturns = [1 / 10, -1 / 10] := by
    simp only [BarHistory.lastReturns, BarHistory.prices, risesAndFalls, List.map_cons, List.map_nil, changes]
    norm_num [List.rtake]
  rw [hreturns]
  norm_num

end CryptoTrader
