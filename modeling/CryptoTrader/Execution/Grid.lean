import CryptoTrader.Domain.Money
import CryptoTrader.Execution.Authority

/-!
# Orders on the grid of an instrument

`round_tick` and `floor_to_step` of `domain/money.py` on decimals, and the gate of
`execution/authority.py` with them. `round_tick` rounds to the last decimal place of the tick, not
to a multiple of it, so a price passes the gate off the grid of a tick like 0.25.
-/

namespace CryptoTrader

open Decimal

namespace Grid

def roundTick (value tick : Decimal) (rounding : Rounding := .halfUp) : Except MoneyError Decimal :=
  if tick.value ≤ 0 then .error (.decimalError "tick size must be positive")
  else
    match value.quantize contextDigits rounding (tick.normalize contextDigits).exponent with
    | none => .error .invalidOperation
    | some rounded => .ok rounded

/-- The digits of the context that `floor_to_step` opens. -/
def stepDigits : ℕ := 60

/-- `floor_to_step`, as a number. -/
def floorToStep (value step : Decimal) : Except MoneyError ℚ :=
  if step.value ≤ 0 then .error (.decimalError "step size must be positive")
  else
    let steps : ℚ := roundDown (roundDigits stepDigits (value.value / step.value))
    .ok (roundDigits stepDigits (steps * step.value))

end Grid

/-! ### The gate -/

/-- An instrument with its decimals. -/
structure DecimalInstrument where
  instrument : Instrument
  tickSize : Decimal
  stepSize : Decimal
  minQty : Decimal
  minNotional : Decimal
  tickSize_eq : instrument.tickSize = tickSize.value
  stepSize_eq : instrument.stepSize = stepSize.value
  minQty_eq : instrument.minQty = minQty.value
  minNotional_eq : instrument.minNotional = minNotional.value

/-- An intent with its decimals. -/
structure DecimalIntent where
  intent : OrderIntent
  price : Option Decimal
  quantity : Decimal
  price_eq : intent.price = price.map value
  quantity_eq : intent.quantity = quantity.value

/-- `intent.price or D("0")`. -/
def DecimalIntent.priceOrZero (x : DecimalIntent) : Decimal :=
  match x.price with
  | some p => if p.value = 0 then ⟨false, 0, 0⟩ else p
  | none => ⟨false, 0, 0⟩

/-- The conditions 12 and 13 after the one on the price. -/
def gridChecks (x : DecimalIntent) (ctx : AuthorizationContext) (instrument : DecimalInstrument) (stepQty : ℚ) :
    List GateCheck :=
  let price := x.priceOrZero.value
  let notional := if 0 < price then roundDigits contextDigits (price * x.quantity.value) else 0
  [⟨stepQty ≠ x.quantity.value, .reject, "QUANTITY_PRECISION_INVALID"⟩,
    ⟨x.quantity.value < instrument.minQty.value, .reject, "MIN_QUANTITY_NOT_MET"⟩,
    ⟨0 < notional ∧ notional < instrument.minNotional.value, .reject, "MIN_NOTIONAL_NOT_MET"⟩,
    ⟨!ctx.minNotionalOk, .reject, "MIN_NOTIONAL_NOT_MET"⟩,
    ⟨ctx.rateLimiter = some false, .hold, "RATE_LIMIT_BUDGET_EXHAUSTED"⟩]

/-- `ExecutionAuthority.authorize` on decimals. -/
def authorizeDecimal (x : DecimalIntent) (instrument : Option DecimalInstrument) (expiresAt : Option ℤ)
    (ctx : AuthorizationContext) : Except MoneyError (ExecutionDecision × List String) :=
  match firstFailure (standingChecks x.intent expiresAt ctx) with
  | some refusal => .ok refusal
  | none =>
    match instrument with
    | none => .ok (.reject, ["INSTRUMENT_MISSING"])
    | some instrument => do
      let price := x.priceOrZero
      let tickPrice ← if 0 < price.value then Grid.roundTick price instrument.tickSize else pure price
      if 0 < price.value ∧ tickPrice.value ≠ price.value then
        return (.reject, ["PRICE_PRECISION_INVALID"])
      let stepQty ← Grid.floorToStep x.quantity instrument.stepSize
      match firstFailure (gridChecks x ctx instrument stepQty) with
      | some refusal => return refusal
      | none => return (.approve, ["AUTHORITY_PASS"])

/-! ### Multiples -/

/-- A multiple of the unit nearest to the number. -/
def IsNearest (unit x r : ℚ) : Prop :=
  (∃ n : ℤ, r = n * unit) ∧ ∀ n : ℤ, |x - r| ≤ |x - n * unit|

/-- The largest multiple of the unit not above the number. -/
def IsFloor (unit x r : ℚ) : Prop :=
  (∃ n : ℤ, r = n * unit) ∧ r ≤ x ∧ ∀ n : ℤ, n * unit ≤ x → n * unit ≤ r

lemma isNearest_iff {unit x r : ℚ} (hunit : 0 < unit) :
    IsNearest unit x r ↔ (∃ n : ℤ, r = n * unit) ∧ |x - r| ≤ unit / 2 := by
  unfold IsNearest
  refine and_congr_right ?_
  rintro ⟨m, rfl⟩
  constructor
  · intro h
    have hup := h (m + 1)
    have hdown := h (m - 1)
    push_cast at hup hdown
    rw [abs_le]
    constructor
    · rcases abs_cases (x - m * unit) with ⟨h1, _⟩ | ⟨h1, _⟩ <;>
        rcases abs_cases (x - (m - 1) * unit) with ⟨h2, _⟩ | ⟨h2, _⟩ <;> nlinarith
    · rcases abs_cases (x - m * unit) with ⟨h1, _⟩ | ⟨h1, _⟩ <;>
        rcases abs_cases (x - (m + 1) * unit) with ⟨h2, _⟩ | ⟨h2, _⟩ <;> nlinarith
  · intro h n
    rcases eq_or_ne n m with rfl | hne
    · exact le_rfl
    · -- another multiple is at least a unit away
      have hgap : unit ≤ |(m : ℚ) * unit - n * unit| := by
        rw [← sub_mul, abs_mul, abs_of_pos hunit]
        have hone : (1 : ℚ) ≤ |(m : ℚ) - n| := by
          exact_mod_cast Int.one_le_abs (sub_ne_zero.mpr hne.symm)
        nlinarith
      have htriangle : |(m : ℚ) * unit - n * unit| ≤ |x - m * unit| + |x - n * unit| := by
        have hsub : (m : ℚ) * unit - n * unit = (x - n * unit) - (x - m * unit) := by ring
        rw [hsub, add_comm]
        exact abs_sub _ _
      linarith

lemma isFloor_iff {unit x r : ℚ} (hunit : 0 < unit) : IsFloor unit x r ↔ r = ⌊x / unit⌋ * unit := by
  have hfloor : (⌊x / unit⌋ : ℚ) * unit ≤ x := (le_div_iff₀ hunit).mp (Int.floor_le _)
  have hlargest : ∀ n : ℤ, n * unit ≤ x → (n : ℚ) * unit ≤ ⌊x / unit⌋ * unit := by
    intro n hn
    have hle : n ≤ ⌊x / unit⌋ := Int.le_floor.mpr ((le_div_iff₀ hunit).mpr hn)
    exact mul_le_mul_of_nonneg_right (by exact_mod_cast hle) hunit.le
  constructor
  · rintro ⟨⟨n, rfl⟩, hle, hmax⟩
    exact le_antisymm (hlargest n hle) (hmax _ hfloor)
  · rintro rfl
    exact ⟨⟨_, rfl⟩, hfloor, hlargest⟩

/-! ### `round_tick` -/

/-- The last decimal place of the tick. -/
def tickUnit (tick : Decimal) : ℚ :=
  10 ^ (tick.normalize contextDigits).exponent

/-- The number has at most 28 digits once it is rounded to the last decimal place of the tick. -/
def FitsTick (value tick : Decimal) : Prop :=
  |value.value| + tickUnit tick / 2 < 10 ^ contextDigits * tickUnit tick

/-- Within half of the tick's last decimal place of the number, on these places, there is a multiple
of the tick, at most half a tick away. -/
def OnTick (value tick : Decimal) : Prop :=
  ∃ n k : ℕ, (n : ℚ) * tick.value = k * tickUnit tick ∧ |value.value| - tickUnit tick / 2 < k * tickUnit tick ∧
    k * tickUnit tick ≤ |value.value| + tickUnit tick / 2 ∧ |(|value.value|) - k * tickUnit tick| ≤ tick.value / 2

/-- `round_tick` returns the nearest multiple of the tick. -/
def RoundsToTick (value tick : Decimal) : Prop :=
  ∃ r, Grid.roundTick value tick = .ok r ∧ IsNearest tick.value value.value r.value

section RoundTick

variable (value tick : Decimal)

lemma tickUnit_pos : 0 < tickUnit tick := by
  unfold tickUnit
  positivity

/-- The number in units of the tick's last decimal place, rounded. -/
def tickPlaces : ℕ :=
  Rounding.whole .halfUp (value.magnitude / tickUnit tick)

lemma tickPlaces_eq_iff (k : ℕ) : tickPlaces value tick = k ↔
    |value.value| - tickUnit tick / 2 < k * tickUnit tick ∧ k * tickUnit tick ≤ |value.value| + tickUnit tick / 2 := by
  have hunit := tickUnit_pos tick
  have hnonneg : 0 ≤ value.magnitude / tickUnit tick := div_nonneg value.magnitude_nonneg hunit.le
  have hscale : value.magnitude = value.magnitude / tickUnit tick * tickUnit tick := (div_mul_cancel₀ _ hunit.ne').symm
  rw [tickPlaces, whole_halfUp_eq_iff hnonneg, abs_value]
  constructor
  · rintro ⟨hle, hlt⟩
    constructor <;> nlinarith
  · rintro ⟨hlt, hle⟩
    constructor
    · by_contra h
      nlinarith
    · by_contra h
      nlinarith

lemma tickPlaces_lt_iff : tickPlaces value tick < 10 ^ contextDigits ↔ FitsTick value tick := by
  have hunit := tickUnit_pos tick
  have hnonneg : 0 ≤ value.magnitude / tickUnit tick := div_nonneg value.magnitude_nonneg hunit.le
  rw [tickPlaces, whole_halfUp_lt_iff hnonneg, FitsTick, abs_value, ← div_lt_iff₀ hunit, add_div,
    div_div_cancel_left' hunit.ne']
  push_cast
  norm_num

variable {value tick}

lemma roundTick_of_fits (htick : 0 < tick.value) (hfits : FitsTick value tick) :
    Grid.roundTick value tick = .ok ⟨value.negative, tickPlaces value tick, (tick.normalize contextDigits).exponent⟩ := by
  have hlt := (tickPlaces_lt_iff value tick).mpr hfits
  have hquantize : value.quantize contextDigits .halfUp (tick.normalize contextDigits).exponent =
      some ⟨value.negative, tickPlaces value tick, (tick.normalize contextDigits).exponent⟩ := if_pos hlt
  rw [Grid.roundTick, if_neg (not_le.mpr htick), hquantize]

lemma roundTick_of_not_fits (htick : 0 < tick.value) (hfits : ¬FitsTick value tick) :
    Grid.roundTick value tick = .error .invalidOperation := by
  have hlt : ¬tickPlaces value tick < 10 ^ contextDigits := fun h => hfits ((tickPlaces_lt_iff value tick).mp h)
  have hquantize : value.quantize contextDigits .halfUp (tick.normalize contextDigits).exponent = none := if_neg hlt
  rw [Grid.roundTick, if_neg (not_le.mpr htick), hquantize]

/-- The rounded number is a nearest multiple of the tick if its magnitude is one of the magnitude. -/
lemma isNearest_rounded_iff (htick : 0 < tick.value) :
    IsNearest tick.value value.value
        (⟨value.negative, tickPlaces value tick, (tick.normalize contextDigits).exponent⟩ : Decimal).value ↔
      (∃ n : ℕ, (n : ℚ) * tick.value = tickPlaces value tick * tickUnit tick) ∧
        |(|value.value|) - tickPlaces value tick * tickUnit tick| ≤ tick.value / 2 := by
  have hunit := tickUnit_pos tick
  have hvalue : value.value = if value.negative then -value.magnitude else value.magnitude := rfl
  have hrounded : (⟨value.negative, tickPlaces value tick, (tick.normalize contextDigits).exponent⟩ : Decimal).value =
      if value.negative then -(tickPlaces value tick * tickUnit tick) else tickPlaces value tick * tickUnit tick := rfl
  rw [isNearest_iff htick, abs_value, hrounded, hvalue]
  have hmultiple : (∃ n : ℤ, (tickPlaces value tick : ℚ) * tickUnit tick = n * tick.value) ↔
      ∃ n : ℕ, (n : ℚ) * tick.value = tickPlaces value tick * tickUnit tick := by
    constructor
    · rintro ⟨n, hn⟩
      have hn0 : (0 : ℚ) ≤ n := by
        by_contra hneg
        have hpos : (0 : ℚ) ≤ tickPlaces value tick * tickUnit tick := by positivity
        nlinarith
      obtain ⟨m, rfl⟩ := Int.eq_ofNat_of_zero_le (by exact_mod_cast hn0 : (0 : ℤ) ≤ n)
      exact ⟨m, by rw [hn]; push_cast; rfl⟩
    · rintro ⟨n, hn⟩
      exact ⟨n, by rw [← hn]; push_cast; rfl⟩
  cases value.negative with
  | false => exact and_congr_left' hmultiple
  | true =>
    have hneg : (∃ n : ℤ, -((tickPlaces value tick : ℚ) * tickUnit tick) = n * tick.value) ↔
        ∃ n : ℤ, (tickPlaces value tick : ℚ) * tickUnit tick = n * tick.value := by
      constructor <;> rintro ⟨n, hn⟩ <;> refine ⟨-n, ?_⟩ <;> push_cast <;> linarith
    simp only [if_true]
    rw [hneg, hmultiple, neg_sub_neg, abs_sub_comm]

/-- `round_tick` rounds to the tick exactly when the number fits and its rounding is on the tick. -/
lemma roundsToTick_iff (htick : 0 < tick.value) : RoundsToTick value tick ↔ FitsTick value tick ∧ OnTick value tick := by
  by_cases hfits : FitsTick value tick
  · rw [and_iff_right hfits]
    have hnearest : RoundsToTick value tick ↔ IsNearest tick.value value.value
        (⟨value.negative, tickPlaces value tick, (tick.normalize contextDigits).exponent⟩ : Decimal).value := by
      unfold RoundsToTick
      rw [roundTick_of_fits htick hfits]
      simp
    rw [hnearest, isNearest_rounded_iff htick]
    constructor
    · rintro ⟨⟨n, hn⟩, hclose⟩
      obtain ⟨hbelow, habove⟩ := (tickPlaces_eq_iff value tick _).mp rfl
      exact ⟨n, tickPlaces value tick, hn, hbelow, habove, hclose⟩
    · rintro ⟨n, k, hn, hbelow, habove, hclose⟩
      obtain rfl := (tickPlaces_eq_iff value tick k).mpr ⟨hbelow, habove⟩
      exact ⟨⟨n, hn⟩, hclose⟩
  · simp [RoundsToTick, roundTick_of_not_fits htick hfits, hfits]

/-- A tick that is a power of ten has every number near a multiple. -/
lemma onTick_of_unit (h : tick.value = tickUnit tick) : OnTick value tick := by
  obtain ⟨hbelow, habove⟩ := (tickPlaces_eq_iff value tick _).mp rfl
  refine ⟨tickPlaces value tick, tickPlaces value tick, by rw [h], hbelow, habove, ?_⟩
  rw [h, abs_le]
  constructor <;> linarith

end RoundTick

/-! ### `floor_to_step` -/

/-- Neither the quotient nor the multiple is changed by rounding to 60 digits: the quotient keeps its
whole part, and the multiple has so many digits. -/
def StepExact (value step : Decimal) : Prop :=
  ⌊roundDigits Grid.stepDigits (value.value / step.value)⌋ = ⌊value.value / step.value⌋ ∧
    HasDigits Grid.stepDigits (⌊value.value / step.value⌋ * step.value)

/-- `floor_to_step` returns the largest multiple of the step that is not above. -/
def FloorsToStep (value step : Decimal) : Prop :=
  ∃ r, Grid.floorToStep value step = .ok r ∧ IsFloor step.value value.value r

section FloorToStep

variable {value step : Decimal}

lemma roundDigits_nonneg (prec : ℕ) {x : ℚ} (hx : 0 ≤ x) : 0 ≤ roundDigits prec x := by
  have hunit := lastUnit_pos prec x
  unfold roundDigits
  rw [if_neg (not_lt.mpr hx)]
  positivity

lemma floorToStep_of_nonneg (hstep : 0 < step.value) (hvalue : 0 ≤ value.value) :
    Grid.floorToStep value step =
      .ok (roundDigits Grid.stepDigits (⌊roundDigits Grid.stepDigits (value.value / step.value)⌋ * step.value)) := by
  have hquotient := roundDigits_nonneg Grid.stepDigits (div_nonneg hvalue hstep.le)
  rw [Grid.floorToStep, if_neg (not_le.mpr hstep), roundDown, if_pos hquotient]

lemma floorsToStep_iff (hstep : 0 < step.value) (hvalue : 0 ≤ value.value) :
    FloorsToStep value step ↔
      roundDigits Grid.stepDigits (⌊roundDigits Grid.stepDigits (value.value / step.value)⌋ * step.value) =
        ⌊value.value / step.value⌋ * step.value := by
  unfold FloorsToStep
  rw [floorToStep_of_nonneg hstep hvalue]
  simp only [isFloor_iff hstep, Except.ok.injEq, exists_eq_left']

lemma floorsToStep_of_stepExact (hstep : 0 < step.value) (hvalue : 0 ≤ value.value) (h : StepExact value step) :
    FloorsToStep value step := by
  rw [floorsToStep_iff hstep hvalue, h.1]
  exact roundDigits_of_hasDigits h.2

/-- Below 10^59 steps nothing else makes `floor_to_step` right. -/
lemma stepExact_of_floorsToStep (hstep : 0 < step.value) (hvalue : 0 ≤ value.value)
    (hfew : value.value < 10 ^ 59 * step.value) (h : FloorsToStep value step) : StepExact value step := by
  rw [floorsToStep_iff hstep hvalue] at h
  set x := value.value / step.value with hx
  set n := ⌊roundDigits Grid.stepDigits x⌋ with hn
  have hx0 : 0 ≤ x := div_nonneg hvalue hstep.le
  have hxlt : x < 10 ^ 59 := (div_lt_iff₀ hstep).mpr hfew
  have hdigits : (10 : ℚ) ^ (1 - Grid.stepDigits : ℤ) = 1 / 10 ^ 59 := by norm_num [Grid.stepDigits]
  have hn0 : (0 : ℚ) ≤ n := by
    exact_mod_cast Int.floor_nonneg.mpr (roundDigits_nonneg Grid.stepDigits hx0)
  have hnlt : (n : ℚ) < 10 ^ 59 + 1 := by
    have herror := (abs_le.mp (roundDigits_error Grid.stepDigits x)).2
    have hle : (n : ℚ) ≤ roundDigits Grid.stepDigits x := Int.floor_le _
    rw [hdigits, abs_of_nonneg hx0] at herror
    linarith
  -- the multiples are less than a step apart
  have hsame : n = ⌊x⌋ := by
    have herror := roundDigits_error Grid.stepDigits (n * step.value)
    rw [h, hdigits, abs_of_nonneg (mul_nonneg hn0 hstep.le), ← sub_mul, abs_mul, abs_of_pos hstep] at herror
    have hlt : |(⌊x⌋ : ℚ) - n| < 1 := by
      have hbound : |(⌊x⌋ : ℚ) - n| * step.value ≤ n * (1 / 10 ^ 59) / 2 * step.value := by linarith
      have hle := le_of_mul_le_mul_right hbound hstep
      linarith
    have hint : |⌊x⌋ - n| < 1 := by exact_mod_cast hlt
    have hzero := Int.abs_lt_one_iff.mp hint
    omega
  rw [hsame] at h
  exact ⟨hsame, hasDigits_iff.mpr h⟩

end FloorToStep

/-! ### Approved orders -/

section Approved

/-- The price is a multiple of the tick, the quantity one of the step, and neither minimum is missed. -/
structure OnGrid (instrument : DecimalInstrument) (price quantity : ℚ) : Prop where
  onTick : ∃ n : ℤ, price = n * instrument.tickSize.value
  onStep : ∃ n : ℤ, quantity = n * instrument.stepSize.value
  minQty : instrument.minQty.value ≤ quantity
  minNotional : instrument.minNotional.value ≤ price * quantity

/-- What the gate has seen of an order with a price that it approves. -/
structure GridApproved (x : DecimalIntent) (instrument : DecimalInstrument) : Prop where
  positive : 0 < x.quantity.value
  price : ∃ r, Grid.roundTick x.priceOrZero instrument.tickSize = .ok r ∧ r.value = x.priceOrZero.value
  quantity : Grid.floorToStep x.quantity instrument.stepSize = .ok x.quantity.value
  minQty : instrument.minQty.value ≤ x.quantity.value
  minNotional : 0 < roundDigits contextDigits (x.priceOrZero.value * x.quantity.value) →
    instrument.minNotional.value ≤ roundDigits contextDigits (x.priceOrZero.value * x.quantity.value)

variable {x : DecimalIntent} {instrument : DecimalInstrument} {expiresAt : Option ℤ} {ctx : AuthorizationContext}
  {notes : List String}

lemma not_approve_of_firstFailure {checks : List GateCheck} (hrefuses : ∀ c ∈ checks, c.decision ≠ .approve)
    {refusal : ExecutionDecision × List String} (h : firstFailure checks = some refusal) : refusal.1 ≠ .approve := by
  obtain ⟨c, hc, hdecision⟩ := firstFailure_some h
  rw [hdecision]
  exact hrefuses c hc

lemma gridApproved_of_checks (hprice : 0 < x.priceOrZero.value)
    (hstanding : firstFailure (standingChecks x.intent expiresAt ctx) = none) {r : Decimal}
    (hround : Grid.roundTick x.priceOrZero instrument.tickSize = .ok r) (hsame : r.value = x.priceOrZero.value)
    {stepQty : ℚ} (hfloor : Grid.floorToStep x.quantity instrument.stepSize = .ok stepQty)
    (hgrid : firstFailure (gridChecks x ctx instrument stepQty) = none) : GridApproved x instrument := by
  have hall := firstFailure_none hstanding
  simp only [standingChecks, List.forall_mem_cons] at hall
  obtain ⟨-, -, -, -, -, -, -, -, -, -, -, -, -, -, hverdict, -⟩ := hall
  have hreversal := (checkNoReversal_iff _ _ _ _ _).mp (by simpa using hverdict)
  have hchecks := firstFailure_none hgrid
  simp only [gridChecks, List.forall_mem_cons, if_pos hprice] at hchecks
  obtain ⟨hqty, hmin, hnotional, -⟩ := hchecks
  have hqty : stepQty = x.quantity.value := by simpa using hqty
  refine ⟨?_, ⟨r, hround, hsame⟩, hqty ▸ hfloor, by simpa using hmin, ?_⟩
  · rw [← x.quantity_eq]
    exact hreversal.1
  · intro hpos
    simpa [hpos] using hnotional

lemma gridApproved_of_authorize (hprice : 0 < x.priceOrZero.value)
    (h : authorizeDecimal x (some instrument) expiresAt ctx = .ok (.approve, notes)) : GridApproved x instrument := by
  unfold authorizeDecimal at h
  cases hstanding : firstFailure (standingChecks x.intent expiresAt ctx) with
  | some refusal =>
    rw [hstanding, Except.ok.injEq] at h
    exact absurd (by rw [h]) (not_approve_of_firstFailure (by simp [standingChecks]) hstanding)
  | none =>
    simp only [hstanding, hprice, true_and] at h
    cases hround : Grid.roundTick x.priceOrZero instrument.tickSize with
    | error e =>
      rw [hround] at h
      contradiction
    | ok r =>
      rw [hround] at h
      by_cases hsame : r.value = x.priceOrZero.value
      · cases hfloor : Grid.floorToStep x.quantity instrument.stepSize with
        | error e => simp [hsame, hfloor, bind, Except.bind] at h
        | ok stepQty =>
          cases hgrid : firstFailure (gridChecks x ctx instrument stepQty) with
          | none => exact gridApproved_of_checks hprice hstanding hround hsame hfloor hgrid
          | some refusal =>
            have hrefused : refusal = (.approve, notes) := by
              simpa [hsame, hfloor, hgrid, bind, Except.bind, pure, Except.pure] using h
            exact absurd (by rw [hrefused]) (not_approve_of_firstFailure (by simp [gridChecks]) hgrid)
      · simp [hsame, bind, Except.bind, pure, Except.pure] at h

/-- An approved price is its own rounding. -/
lemma GridApproved.price_eq (h : GridApproved x instrument) (hprice : 0 < x.priceOrZero.value)
    (htick : 0 < instrument.tickSize.value) :
    tickPlaces x.priceOrZero instrument.tickSize * tickUnit instrument.tickSize = x.priceOrZero.value := by
  obtain ⟨r, hround, hsame⟩ := h.price
  have hfits : FitsTick x.priceOrZero instrument.tickSize := by
    by_contra hfits
    rw [roundTick_of_not_fits htick hfits] at hround
    contradiction
  rw [roundTick_of_fits htick hfits, Except.ok.injEq] at hround
  rw [← abs_of_pos hprice, ← hsame, ← hround, abs_value]
  rfl

lemma GridApproved.onTick_iff (h : GridApproved x instrument) (hprice : 0 < x.priceOrZero.value)
    (htick : 0 < instrument.tickSize.value) :
    OnTick x.priceOrZero instrument.tickSize ↔ ∃ n : ℤ, x.priceOrZero.value = n * instrument.tickSize.value := by
  have hsame := h.price_eq hprice htick
  constructor
  · rintro ⟨n, k, hn, hbelow, habove, -⟩
    obtain rfl := (tickPlaces_eq_iff _ _ k).mpr ⟨hbelow, habove⟩
    refine ⟨n, ?_⟩
    rw [← hsame, ← hn]
    push_cast
    rfl
  · rintro ⟨n, hn⟩
    have hn0 : (0 : ℚ) ≤ n := by
      by_contra hneg
      nlinarith
    obtain ⟨m, rfl⟩ := Int.eq_ofNat_of_zero_le (by exact_mod_cast hn0 : (0 : ℤ) ≤ n)
    obtain ⟨hbelow, habove⟩ := (tickPlaces_eq_iff x.priceOrZero instrument.tickSize _).mp rfl
    refine ⟨m, _, ?_, hbelow, habove, ?_⟩
    · rw [hsame, hn]
      push_cast
      rfl
    · rw [hsame, abs_of_pos hprice, sub_self, abs_zero]
      exact (half_pos htick).le

lemma GridApproved.onGrid (h : GridApproved x instrument) (hprice : 0 < x.priceOrZero.value)
    (htick : 0 < instrument.tickSize.value) (hstep : 0 < instrument.stepSize.value)
    (hexact : StepExact x.quantity instrument.stepSize)
    (hdigits : HasDigits contextDigits (x.priceOrZero.value * x.quantity.value))
    (honTick : OnTick x.priceOrZero instrument.tickSize) : OnGrid instrument x.priceOrZero.value x.quantity.value := by
  refine ⟨(h.onTick_iff hprice htick).mp honTick, ?_, h.minQty, ?_⟩
  · obtain ⟨r, hfloor, hmultiple, -⟩ := floorsToStep_of_stepExact hstep h.positive.le hexact
    rw [h.quantity, Except.ok.injEq] at hfloor
    exact hfloor ▸ hmultiple
  · have hnotional := h.minNotional
    rw [roundDigits_of_hasDigits hdigits] at hnotional
    exact hnotional (mul_pos hprice h.positive)

end Approved

/-- An approved order with a price is on the grid only if its price is near a multiple of the tick, on
the tick's decimal places, and then it is unless the decimal context rounds its quantity or its notional.
`round_tick` gives the nearest multiple exactly for such numbers, if they fit the context. -/
theorem grid_laws_iff (instrument : DecimalInstrument) (htick : 0 < instrument.tickSize.value)
    (hstep : 0 < instrument.stepSize.value) :
    (∀ x expiresAt ctx notes, 0 < x.priceOrZero.value →
      authorizeDecimal x (some instrument) expiresAt ctx = .ok (.approve, notes) →
      (OnGrid instrument x.priceOrZero.value x.quantity.value → OnTick x.priceOrZero instrument.tickSize) ∧
      (StepExact x.quantity instrument.stepSize → HasDigits contextDigits (x.priceOrZero.value * x.quantity.value) →
        OnTick x.priceOrZero instrument.tickSize → OnGrid instrument x.priceOrZero.value x.quantity.value)) ∧
    (∀ value, RoundsToTick value instrument.tickSize ↔
      FitsTick value instrument.tickSize ∧ OnTick value instrument.tickSize) ∧
    ∀ value : Decimal, 0 ≤ value.value →
      (StepExact value instrument.stepSize → FloorsToStep value instrument.stepSize) ∧
      (value.value < 10 ^ 59 * instrument.stepSize.value → FloorsToStep value instrument.stepSize →
        StepExact value instrument.stepSize) := by
  refine ⟨fun x expiresAt ctx notes hprice happroved => ?_, fun value => roundsToTick_iff htick, fun value hvalue => ?_⟩
  · have h := gridApproved_of_authorize hprice happroved
    exact ⟨fun hgrid => (h.onTick_iff hprice htick).mpr hgrid.onTick, h.onGrid hprice htick hstep⟩
  · exact ⟨floorsToStep_of_stepExact hstep hvalue, stepExact_of_floorsToStep hstep hvalue⟩

def quarterTick : DecimalInstrument where
  instrument := { symbol := "ES", baseAsset := "ES", quoteAsset := "USDT", tickSize := 1 / 4, stepSize := 1 / 100
                  minQty := 1 / 100, minNotional := 1 }
  tickSize := ⟨false, 25, -2⟩
  stepSize := ⟨false, 1, -2⟩
  minQty := ⟨false, 1, -2⟩
  minNotional := ⟨false, 1, 0⟩
  tickSize_eq := by decide +kernel
  stepSize_eq := by decide +kernel
  minQty_eq := by decide +kernel
  minNotional_eq := by decide +kernel

/-- A buy of 2 at 100.01. -/
def offTickIntent : DecimalIntent where
  intent := { clientOrderId := "c1", symbol := "ES", side := .buy, price := some (10001 / 100), quantity := 2 }
  price := some ⟨false, 10001, -2⟩
  quantity := ⟨false, 2, 0⟩
  price_eq := by decide +kernel
  quantity_eq := by decide +kernel

def readyContext : AuthorizationContext where
  leaseHeld := true
  marketDataFresh := true
  orderbookFresh := true
  orderbookHealthy := true
  symbolTradeable := true
  exchangeConnected := true
  balanceFresh := true
  riskDecision := some { clientOrderId := "c1", symbol := "ES", side := .buy, decision := .approve, reason := "ok" }

theorem quarter_tick_step : FloorsToStep ⟨false, 237, -2⟩ quarterTick.stepSize :=
  ((grid_laws_iff quarterTick (by decide +kernel) (by decide +kernel)).2.2 ⟨false, 237, -2⟩ (by decide +kernel)).1
    ⟨by decide +kernel, 237, -2, by norm_num [Grid.stepDigits], by decide +kernel⟩

/-- With the tick 0.25 a price of 100.01 is approved, and 100.13 is its own rounding. -/
theorem quarter_tick_ignored :
    (∃ notes, authorizeDecimal offTickIntent (some quarterTick) none readyContext = .ok (.approve, notes)) ∧
      ¬OnGrid quarterTick offTickIntent.priceOrZero.value offTickIntent.quantity.value ∧
      Grid.roundTick ⟨false, 10013, -2⟩ quarterTick.tickSize = .ok ⟨false, 10013, -2⟩ := by
  refine ⟨⟨["AUTHORITY_PASS"], by decide +kernel⟩, ?_, by decide +kernel⟩
  rintro ⟨⟨n, hn⟩, -⟩
  have hprice : offTickIntent.priceOrZero.value = 10001 / 100 := by decide +kernel
  have htick : quarterTick.tickSize.value = 1 / 4 := by decide +kernel
  rw [hprice, htick] at hn
  have hint : (10001 : ℚ) = 25 * n := by linarith
  have hint : (10001 : ℤ) = 25 * n := by exact_mod_cast hint
  omega

end CryptoTrader
