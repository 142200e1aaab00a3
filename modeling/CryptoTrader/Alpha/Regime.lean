import CryptoTrader.Alpha.Features
import CryptoTrader.Domain.Money
import CryptoTrader.Lib.Doubles
import CryptoTrader.Lib.Runs

/-!
# Market regimes

`alpha/regime.py`: the volatility of a symbol is recorded and compared with all that have been
recorded for it, itself included; the share of those that are not above it decides on the regime.
Equal volatilities count, so that one that never changes is extreme. When they do no harm:
`regimes_unusual_iff`.
-/

namespace CryptoTrader

open Runs

inductive MarketRegime where
  | bull
  | bear
  | range
  | highVol
  | extremeRisk
  deriving DecidableEq, Repr

structure RegimeOutput where
  symbol : String
  ts : ℤ
  version : ℕ
  regime : MarketRegime
  reasonCodes : List String
  trendScore : ℚ
  volScore : ℚ
  deriving DecidableEq, Repr

structure RegimeEngine where
  highVolPercentile : ℚ := 4 / 5
  extremeVolPercentile : ℚ := 19 / 20
  /-- `_vol_hist`: symbols and volatilities. -/
  volHist : List (String × ℚ) := []
  version : ℕ := 0
  deriving DecidableEq, Repr

/-- The difference of the averages in units of the slow one. -/
def trendScore (feature : FeatureSnapshot ℚ) : ℚ :=
  if 0 < feature.ema50 then
    Doubles.round (divide (Decimal.roundDigits contextDigits (feature.ema20 - feature.ema50)) feature.ema50)
  else 0

/-- The regime and its reason where the volatility is not high. -/
def trendRegime (score : ℚ) : MarketRegime × String :=
  if Doubles.round (1 / 100) < score then (.bull, "TREND_UP")
  else if score < -Doubles.round (1 / 100) then (.bear, "TREND_DOWN")
  else (.range, "RANGE_BOUND")

namespace RegimeEngine

def recorded (e : RegimeEngine) (symbol : String) : List ℚ :=
  (e.volHist.filter (fun entry => entry.1 = symbol)).map Prod.snd

def recordVol (e : RegimeEngine) (symbol : String) (vol : ℚ) : RegimeEngine :=
  { e with volHist := e.volHist ++ [(symbol, vol)] }

def percentileFor (e : RegimeEngine) (symbol : String) (vol : ℚ) : ℚ :=
  let values := e.recorded symbol
  if values = [] then 1 / 2 else Doubles.round (values.countP (fun v => v ≤ vol) / values.length)

def percentile (e : RegimeEngine) (feature : FeatureSnapshot ℚ) (volPercentile : Option ℚ) : ℚ :=
  match volPercentile with
  | some given => given
  | none =>
    if (e.recorded feature.symbol).length < 10 then 1 / 2 else e.percentileFor feature.symbol feature.realizedVol20

def classify (e : RegimeEngine) (feature : FeatureSnapshot ℚ) (volPercentile : Option ℚ) :
    RegimeOutput × RegimeEngine :=
  let score := trendScore feature
  let e : RegimeEngine := { e.recordVol feature.symbol feature.realizedVol20 with version := e.version + 1 }
  let pct := e.percentile feature volPercentile
  let result : MarketRegime × String := if e.extremeVolPercentile ≤ pct then (.extremeRisk, "EXTREME_VOL")
    else if e.highVolPercentile ≤ pct then (.highVol, "HIGH_VOL")
    else trendRegime score
  ({ symbol := feature.symbol
     ts := feature.ts
     version := e.version
     regime := result.1
     reasonCodes := [result.2]
     trendScore := score
     volScore := Doubles.round feature.realizedVol20 }, e)

/-- The regime of a feature without a given percentile. -/
def regime (e : RegimeEngine) (feature : FeatureSnapshot ℚ) : MarketRegime :=
  (e.classify feature none).1.regime

end RegimeEngine

inductive RegimeCall where
  | classify (feature : FeatureSnapshot ℚ) (volPercentile : Option ℚ)
  | recordVol (symbol : String) (vol : ℚ)

def regimeStep (e : RegimeEngine) : RegimeCall → RegimeEngine
  | .classify feature volPercentile => (e.classify feature volPercentile).2
  | .recordVol symbol vol => e.recordVol symbol vol

def RegimeCall.recorded (symbol : String) : RegimeCall → List ℚ
  | .classify feature _ => if feature.symbol = symbol then [feature.realizedVol20] else []
  | .recordVol s vol => if s = symbol then [vol] else []

def regimeEngine (calls : List RegimeCall) : RegimeEngine := run regimeStep {} calls

/-- The volatilities a history records for a symbol. -/
def earlierVols (calls : List RegimeCall) (symbol : String) : List ℚ :=
  calls.flatMap (RegimeCall.recorded symbol)

/-! ### Unusual volatilities -/

/-- The volatility is above a share of the earlier ones. -/
def AboveShare (share : ℚ) (earlier : List ℚ) (vol : ℚ) : Prop :=
  share * earlier.length ≤ earlier.countP (fun v => v < vol)

/-- How far a regime is from calm. -/
def MarketRegime.alarm : MarketRegime → ℕ
  | highVol => 1
  | extremeRisk => 2
  | _ => 0

structure RegimeSound (calls : List RegimeCall) (feature : FeatureSnapshot ℚ) : Prop where
  extreme : (regimeEngine calls).regime feature = .extremeRisk →
    AboveShare (19 / 20) (earlierVols calls feature.symbol) feature.realizedVol20
  high : (regimeEngine calls).regime feature = .highVol →
    AboveShare (4 / 5) (earlierVols calls feature.symbol) feature.realizedVol20
  calm : ((regimeEngine calls).regime feature).alarm = 0 →
    (regimeEngine calls).regime feature = (trendRegime (trendScore feature)).1
  constant : (∀ v ∈ earlierVols calls feature.symbol, v = feature.realizedVol20) →
    (regimeEngine calls).regime feature ≠ .extremeRisk
  monotone : ∀ vol, feature.realizedVol20 ≤ vol → ((regimeEngine calls).regime feature).alarm ≤
    ((regimeEngine calls).regime { feature with realizedVol20 := vol }).alarm

/-- The share of the volatilities that are not above the current one, which is counted in. -/
def shareAtMost (earlier : List ℚ) (vol : ℚ) : ℚ :=
  (earlier.countP (fun v => v ≤ vol) + 1) / (earlier.length + 1)

/-- The least number that is rounded to 80% or more. -/
def highBound : ℚ := 14411518807585587 / 2 ^ 54

/-- The greatest number that is rounded to less than 95%. -/
def extremeBound : ℚ := 17113678584007885 / 2 ^ 54

/-- The history is short, or the volatilities that equal the current one, and the current one
itself, lift its share over no bound that it would miss without them. -/
def Unlifted (earlier : List ℚ) (vol : ℚ) : Prop :=
  earlier.length < 9 ∨
    (shareAtMost earlier vol ≤ extremeBound ∨ AboveShare (19 / 20) earlier vol) ∧
      (shareAtMost earlier vol < highBound ∨ AboveShare (4 / 5) earlier vol)

/-! ### The history -/

lemma recorded_recordVol (e : RegimeEngine) (s symbol : String) (vol : ℚ) :
    (e.recordVol s vol).recorded symbol = e.recorded symbol ++ if s = symbol then [vol] else [] := by
  rw [RegimeEngine.recorded, RegimeEngine.recordVol, List.filter_append, List.map_append]
  by_cases h : s = symbol <;> simp [RegimeEngine.recorded, h]

lemma recorded_regimeStep (e : RegimeEngine) (call : RegimeCall) (symbol : String) :
    (regimeStep e call).recorded symbol = e.recorded symbol ++ call.recorded symbol := by
  cases call with
  | classify feature volPercentile =>
    exact recorded_recordVol e feature.symbol symbol feature.realizedVol20
  | recordVol s vol => exact recorded_recordVol e s symbol vol

lemma recorded_run (e : RegimeEngine) (calls : List RegimeCall) (symbol : String) :
    (run regimeStep e calls).recorded symbol = e.recorded symbol ++ earlierVols calls symbol := by
  induction calls generalizing e with
  | nil => simp [earlierVols]
  | cons call calls ih =>
    rw [run_cons, ih, recorded_regimeStep, List.append_assoc]
    rfl

lemma percentiles_run (e : RegimeEngine) (calls : List RegimeCall) :
    (run regimeStep e calls).highVolPercentile = e.highVolPercentile ∧
      (run regimeStep e calls).extremeVolPercentile = e.extremeVolPercentile := by
  induction calls generalizing e with
  | nil => exact ⟨rfl, rfl⟩
  | cons call calls ih =>
    obtain ⟨hhigh, hextreme⟩ := ih (regimeStep e call)
    rw [run_cons, hhigh, hextreme]
    cases call <;> exact ⟨rfl, rfl⟩

/-! ### The bounds -/

lemma shareAtMost_pos (earlier : List ℚ) (vol : ℚ) : 0 < shareAtMost earlier vol := by
  unfold shareAtMost
  positivity

lemma shareAtMost_le_one (earlier : List ℚ) (vol : ℚ) : shareAtMost earlier vol ≤ 1 := by
  have hle : (earlier.countP (fun v => v ≤ vol) : ℚ) ≤ earlier.length := by exact_mod_cast List.countP_le_length
  rw [shareAtMost, div_le_one (by positivity)]
  linarith

lemma shareAtMost_mono (earlier : List ℚ) {vol vol' : ℚ} (h : vol ≤ vol') :
    shareAtMost earlier vol ≤ shareAtMost earlier vol' := by
  have hle : earlier.countP (fun v => v ≤ vol) ≤ earlier.countP (fun v => v ≤ vol') := by
    apply List.countP_mono_left
    intro v _ hv
    exact decide_eq_true ((of_decide_eq_true hv).trans h)
  unfold shareAtMost
  gcongr

lemma high_iff {share : ℚ} (hpos : 0 < share) (hle : share ≤ 1) : 4 / 5 ≤ Doubles.round share ↔ highBound ≤ share := by
  rw [Doubles.le_round_iff_of_even hpos (by norm_num) (by norm_num) hle (n := 7205759403792794) _ (by norm_num), highBound]
  · norm_num
  · intro m
    constructor
    · intro h
      by_contra hlt
      have hm : (m : ℚ) ≤ 7205759403792793 := by exact_mod_cast Nat.le_of_lt_succ (not_le.mp hlt)
      norm_num at h
      linarith
    · intro h
      have hm : (7205759403792794 : ℚ) ≤ m := by exact_mod_cast h
      norm_num
      linarith

lemma extreme_iff {share : ℚ} (hpos : 0 < share) (hle : share ≤ 1) :
    19 / 20 ≤ Doubles.round share ↔ extremeBound < share := by
  rw [Doubles.le_round_iff_of_odd hpos (by norm_num) (by norm_num) hle (n := 8556839292003942) _ (by norm_num), extremeBound]
  · norm_num
  · intro m
    constructor
    · intro h
      by_contra hlt
      have hm : (m : ℚ) ≤ 8556839292003942 := by exact_mod_cast Nat.le_of_lt_succ (not_le.mp hlt)
      norm_num at h
      linarith
    · intro h
      have hm : (8556839292003943 : ℚ) ≤ m := by exact_mod_cast h
      norm_num
      linarith

/-! ### One classification -/

section Classify

variable (calls : List RegimeCall) (feature : FeatureSnapshot ℚ)

/-- The percentile of a feature after a history. -/
lemma percentile_eq : let e := { (regimeEngine calls).recordVol feature.symbol feature.realizedVol20 with version := 0 }
    e.percentile feature none =
      if (earlierVols calls feature.symbol).length < 9 then 1 / 2
      else Doubles.round (shareAtMost (earlierVols calls feature.symbol) feature.realizedVol20) := by
  intro e
  have hrecorded : e.recorded feature.symbol = earlierVols calls feature.symbol ++ [feature.realizedVol20] := by
    have h := recorded_recordVol (regimeEngine calls) feature.symbol feature.symbol feature.realizedVol20
    rw [if_pos rfl, regimeEngine, recorded_run] at h
    exact h
  simp only [RegimeEngine.percentile, RegimeEngine.percentileFor, hrecorded]
  rw [List.length_append, List.length_singleton, if_neg (by simp : ¬ _ ++ [feature.realizedVol20] = []), List.countP_append]
  by_cases hshort : (earlierVols calls feature.symbol).length < 9
  · rw [if_pos hshort, if_pos (by omega)]
  · rw [if_neg hshort, if_neg (by omega), shareAtMost]
    simp

lemma regime_eq : (regimeEngine calls).regime feature =
    if (earlierVols calls feature.symbol).length < 9 then (trendRegime (trendScore feature)).1
    else if extremeBound < shareAtMost (earlierVols calls feature.symbol) feature.realizedVol20 then .extremeRisk
    else if highBound ≤ shareAtMost (earlierVols calls feature.symbol) feature.realizedVol20 then .highVol
    else (trendRegime (trendScore feature)).1 := by
  obtain ⟨hhigh, hextreme⟩ := percentiles_run {} calls
  have hpercentile := percentile_eq calls feature
  have hpos := shareAtMost_pos (earlierVols calls feature.symbol) feature.realizedVol20
  have hle := shareAtMost_le_one (earlierVols calls feature.symbol) feature.realizedVol20
  have hregime : (regimeEngine calls).regime feature =
      (if 19 / 20 ≤ (if (earlierVols calls feature.symbol).length < 9 then 1 / 2
          else Doubles.round (shareAtMost (earlierVols calls feature.symbol) feature.realizedVol20))
        then (.extremeRisk, "EXTREME_VOL")
        else if 4 / 5 ≤ (if (earlierVols calls feature.symbol).length < 9 then 1 / 2
          else Doubles.round (shareAtMost (earlierVols calls feature.symbol) feature.realizedVol20))
        then (.highVol, "HIGH_VOL") else trendRegime (trendScore feature)).1 := by
    rw [← hpercentile]
    have h₁ : (regimeEngine calls).extremeVolPercentile = 19 / 20 := hextreme
    have h₂ : (regimeEngine calls).highVolPercentile = 4 / 5 := hhigh
    simp only [RegimeEngine.regime, RegimeEngine.classify, RegimeEngine.recordVol, h₁, h₂]
    rfl
  rw [hregime]
  by_cases hshort : (earlierVols calls feature.symbol).length < 9
  · rw [if_pos hshort, if_pos hshort, if_neg (by norm_num), if_neg (by norm_num)]
  · rw [if_neg hshort, if_neg hshort]
    simp only [extreme_iff hpos hle, high_iff hpos hle]
    split_ifs <;> rfl

end Classify

lemma alarm_trendRegime (score : ℚ) : (trendRegime score).1.alarm = 0 := by
  unfold trendRegime
  split_ifs <;> rfl

lemma highBound_lt_extremeBound : highBound < extremeBound := by
  norm_num [highBound, extremeBound]

/-- The regime is above a bound, high, or calm. -/
lemma regime_cases (calls : List RegimeCall) (feature : FeatureSnapshot ℚ) :
    let earlier := earlierVols calls feature.symbol
    let share := shareAtMost earlier feature.realizedVol20
    (9 ≤ earlier.length ∧ extremeBound < share ∧ (regimeEngine calls).regime feature = .extremeRisk) ∨
      (9 ≤ earlier.length ∧ share ≤ extremeBound ∧ highBound ≤ share ∧ (regimeEngine calls).regime feature = .highVol) ∨
      (earlier.length < 9 ∨ share < highBound) ∧
        (regimeEngine calls).regime feature = (trendRegime (trendScore feature)).1 := by
  intro earlier share
  rw [regime_eq]
  by_cases hshort : earlier.length < 9
  · exact .inr (.inr ⟨.inl hshort, if_pos hshort⟩)
  · rw [if_neg hshort]
    by_cases hextreme : extremeBound < share
    · exact .inl ⟨not_lt.mp hshort, hextreme, if_pos hextreme⟩
    · rw [if_neg hextreme]
      by_cases hhigh : highBound ≤ share
      · exact .inr (.inl ⟨not_lt.mp hshort, not_lt.mp hextreme, hhigh, if_pos hhigh⟩)
      · exact .inr (.inr ⟨.inr (not_le.mp hhigh), if_neg hhigh⟩)

lemma AboveShare.mono {a b : ℚ} (hab : a ≤ b) {earlier : List ℚ} {vol : ℚ} (h : AboveShare b earlier vol) :
    AboveShare a earlier vol :=
  (mul_le_mul_of_nonneg_right hab (Nat.cast_nonneg _)).trans h

lemma not_aboveShare_of_eq {share : ℚ} (hshare : 0 < share) {earlier : List ℚ} {vol : ℚ} (hne : 0 < earlier.length)
    (h : ∀ v ∈ earlier, v = vol) : ¬ AboveShare share earlier vol := by
  have hzero : earlier.countP (fun v => v < vol) = 0 := by
    rw [List.countP_eq_zero]
    intro v hv
    simp [h v hv]
  rw [AboveShare, hzero, Nat.cast_zero, not_le]
  have hpos : (0 : ℚ) < earlier.length := by exact_mod_cast hne
  positivity

lemma alarm_mono (calls : List RegimeCall) (feature : FeatureSnapshot ℚ) {vol : ℚ} (h : feature.realizedVol20 ≤ vol) :
    ((regimeEngine calls).regime feature).alarm ≤
      ((regimeEngine calls).regime { feature with realizedVol20 := vol }).alarm := by
  have hshare := shareAtMost_mono (earlierVols calls feature.symbol) h
  have hbounds := highBound_lt_extremeBound
  have hhigher := regime_cases calls { feature with realizedVol20 := vol }
  dsimp only at hhigher
  rcases regime_cases calls feature with ⟨hlong, hextreme, heq⟩ | ⟨hlong, -, hhigh, heq⟩ | ⟨-, heq⟩
  · rcases hhigher with ⟨-, -, heq'⟩ | ⟨-, hle, -⟩ | ⟨hshort | hlt, -⟩
    · rw [heq, heq']
    · exact absurd (hextreme.trans_le hshare) hle.not_gt
    · omega
    · linarith
  · rcases hhigher with ⟨-, -, heq'⟩ | ⟨-, -, -, heq'⟩ | ⟨hshort | hlt, -⟩
    · rw [heq, heq']
      decide
    · rw [heq, heq']
    · omega
    · linarith
  · rw [heq, alarm_trendRegime]
    exact Nat.zero_le _

/-- After every history a regime is unusual only for unusual volatilities, and sound in the other
respects, exactly if no volatilities that equal the current one lift its share over a bound. -/
theorem regimes_unusual_iff (calls : List RegimeCall) (feature : FeatureSnapshot ℚ) :
    RegimeSound calls feature ↔ Unlifted (earlierVols calls feature.symbol) feature.realizedVol20 := by
  constructor
  · intro h
    rcases regime_cases calls feature with ⟨-, -, heq⟩ | ⟨-, hle, -, heq⟩ | ⟨hshort | hlt, -⟩
    · have habove := h.extreme heq
      exact .inr ⟨.inr habove, .inr (habove.mono (by norm_num))⟩
    · exact .inr ⟨.inl hle, .inr (h.high heq)⟩
    · exact .inl hshort
    · exact .inr ⟨.inl (hlt.trans highBound_lt_extremeBound).le, .inl hlt⟩
  · intro h
    have hextreme : (regimeEngine calls).regime feature = .extremeRisk →
        9 ≤ (earlierVols calls feature.symbol).length ∧
          AboveShare (19 / 20) (earlierVols calls feature.symbol) feature.realizedVol20 := by
      intro hregime
      rcases regime_cases calls feature with ⟨hlong, hshare, -⟩ | ⟨-, -, -, heq⟩ | ⟨-, heq⟩
      · rcases h with hshort | ⟨hle | habove, -⟩
        · omega
        · exact absurd hshare hle.not_gt
        · exact ⟨hlong, habove⟩
      · simp [heq] at hregime
      · have halarm := alarm_trendRegime (trendScore feature)
        rw [← heq, hregime] at halarm
        cases halarm
    constructor
    · exact fun hregime => (hextreme hregime).2
    · intro hregime
      rcases regime_cases calls feature with ⟨-, -, heq⟩ | ⟨hlong, -, hshare, -⟩ | ⟨-, heq⟩
      · simp [heq] at hregime
      · rcases h with hshort | ⟨-, hlt | habove⟩
        · omega
        · exact absurd hshare hlt.not_ge
        · exact habove
      · have halarm := alarm_trendRegime (trendScore feature)
        rw [← heq, hregime] at halarm
        cases halarm
    · intro hcalm
      rcases regime_cases calls feature with ⟨-, -, heq⟩ | ⟨-, -, -, heq⟩ | ⟨-, heq⟩
      · rw [heq] at hcalm
        cases hcalm
      · rw [heq] at hcalm
        cases hcalm
      · exact heq
    · intro hconstant hregime
      obtain ⟨hlong, habove⟩ := hextreme hregime
      exact not_aboveShare_of_eq (by norm_num) (by omega) hconstant habove
    · exact fun vol hvol => alarm_mono calls feature hvol

/-- A feature of which only the volatility is not zero. -/
def volFeature (symbol : String) (vol : ℚ) : FeatureSnapshot ℚ where
  symbol := symbol
  ts := 0
  version := 1
  reasonCodes := ["closed_bars_only"]
  price := 100
  return1 := 0
  return5 := 0
  return20 := 0
  realizedVol20 := vol
  volumeRatio20 := 1
  ema20 := 100
  ema50 := 100
  zscore20 := 0
  donchianLow50 := 100
  donchianHigh50 := 100
  oi := 0
  funding := 0
  basis := 0
  fundingAvailable := false
  basisAvailable := false
  oiAvailable := false

/-- With the tenth equal volatility in a row the regime is extreme. -/
theorem constant_volatility_extreme :
    let calls := List.replicate 9 (.classify (volFeature "BTCUSDT" (1 / 100)) none)
    (regimeEngine calls).regime (volFeature "BTCUSDT" (1 / 100)) = .extremeRisk ∧
      ¬ RegimeSound calls (volFeature "BTCUSDT" (1 / 100)) := by
  intro calls
  have hregime : (regimeEngine calls).regime (volFeature "BTCUSDT" (1 / 100)) = .extremeRisk := by decide +kernel
  refine ⟨hregime, fun h => h.constant ?_ hregime⟩
  decide +kernel

end CryptoTrader
