import CryptoTrader.Lib.DecimalText

/-!
# Money

`domain/money.py` on Python's decimals, and the column type `ExactDecimal` of
`persistence/models.py`: decimals stored as text and read back.
-/

namespace CryptoTrader

open Decimal

/-- What `domain/money.py` raises. -/
inductive MoneyError where
  | decimalError (message : String)
  /-- `decimal.InvalidOperation`. -/
  | invalidOperation
  deriving DecidableEq, Repr

/-- The digits of the default context. -/
def contextDigits : ℕ := 28

/-- The quotient of two decimals in the default context. -/
def divide (x y : ℚ) : ℚ :=
  roundDigits contextDigits (x / y)

/-- The text of an infinity or of a NaN. -/
def isSpecial (text : List Char) : Bool :=
  let body := (splitSign text).2.map Char.toLower
  body = "inf".toList || body = "infinity".toList || (body.dropWhile (· = 's')).take 3 = "nan".toList

def stripSpace (text : List Char) : List Char :=
  (text.dropWhile Char.isWhitespace).rdropWhile Char.isWhitespace

/-- `D` of a string. -/
def parseD (value : String) : Except MoneyError Decimal :=
  let text := stripSpace value.toList
  if text = [] then .error (.decimalError "empty decimal string")
  else
    match Decimal.parse text with
    | some d => .ok d
    | none =>
      if isSpecial text then .error (.decimalError "decimal must be finite")
      else .error (.decimalError s!"invalid decimal string: '{value}'")

/-- The exponent of `DEFAULT_QUANTUM`. -/
def defaultQuantum : ℤ := -8

def formatDecimal (d : Decimal) : Except MoneyError String :=
  if d.value = 0 then .ok "0"
  else
    match d.quantize contextDigits .halfEven defaultQuantum with
    | none => .error .invalidOperation
    | some q => .ok (String.ofList (stripText (if q.value = d.value then q.fixedText else d.fixedText)))

namespace ExactDecimal

/-- `process_bind_param`. -/
def bindParam : Option Decimal → Except MoneyError (Option String)
  | none => .ok none
  | some d => (formatDecimal d).map some

/-- `process_result_value`. -/
def resultValue : Option String → Except MoneyError (Option Decimal)
  | none => .ok none
  | some text => (parseD text).map some

end ExactDecimal

/-! ### Reading back -/

lemma mem_fixedText {d : Decimal} {c : Char} (h : c ∈ d.fixedText) : c.isDigit = true ∨ c = '-' ∨ c = '.' := by
  unfold fixedText at h
  rcases List.mem_append.mp h with hsign | hbody
  · cases hneg : d.negative <;> simp [signText, hneg] at hsign
    exact .inr (.inl hsign)
  · split at hbody
    · exact .inl (allDigits_toDigits _ c hbody)
    · rcases List.mem_append.mp hbody with hwhole | hrest
      · exact .inl (allDigits_wholeDigits _ _ c hwhole)
      · rcases List.mem_cons.mp hrest with rfl | hplace
        · exact .inr (.inr rfl)
        · exact .inl (allDigits_placeDigits _ _ c hplace)

lemma stripText_subset (text : List Char) : stripText text ⊆ text := by
  unfold stripText
  split
  · exact ((List.rdropWhile_prefix _ _).trans (List.rdropWhile_prefix _ _)).subset
  · exact List.Subset.refl _

lemma stripSpace_of_none {text : List Char} (h : ∀ c ∈ text, c.isWhitespace = false) : stripSpace text = text := by
  have hdrop : text.dropWhile Char.isWhitespace = text := by
    cases text with
    | nil => rfl
    | cons c text => simp [h c List.mem_cons_self]
  rw [stripSpace, hdrop, List.rdropWhile_eq_self_iff]
  intro hne hlast
  rw [h _ (List.getLast_mem hne)] at hlast
  contradiction

lemma isWhitespace_of_printed {c : Char} (h : c.isDigit = true ∨ c = '-' ∨ c = '.') : c.isWhitespace = false := by
  rcases h with h | rfl | rfl
  · by_contra hspace
    simp only [Char.isWhitespace, Bool.not_eq_false, Bool.or_eq_true, decide_eq_true_eq] at hspace
    rcases hspace with ((rfl | rfl) | rfl) | rfl <;> contradiction
  · rfl
  · rfl

/-- A decimal that is printed and stripped is read back with its value. -/
lemma parseD_stripText (d : Decimal) :
    ∃ d', parseD (String.ofList (stripText d.fixedText)) = .ok d' ∧ d'.value = d.value := by
  obtain ⟨d', hparse, hvalue⟩ := parse_stripText_fixedText d
  have hspace : stripSpace (stripText d.fixedText) = stripText d.fixedText :=
    stripSpace_of_none (fun c hc => isWhitespace_of_printed (mem_fixedText (stripText_subset _ hc)))
  have hne : stripText d.fixedText ≠ [] := by
    intro hnil
    rw [hnil] at hparse
    contradiction
  refine ⟨d', ?_, hvalue⟩
  simp [parseD, hspace, hne, hparse]

/-! ### What can be stored -/

/-- The decimal has at most 28 digits once it is rounded to 8 places. -/
def Storable (d : Decimal) : Prop :=
  |d.value| < 10 ^ 20 - 5 / 10 ^ 9

instance (d : Decimal) : Decidable (Storable d) :=
  inferInstanceAs (Decidable (_ < _))

/-- The decimal comes back from its column with its value. -/
def RoundTrips (d : Decimal) : Prop :=
  ∃ text d', ExactDecimal.bindParam (some d) = .ok (some text) ∧
    ExactDecimal.resultValue (some text) = .ok (some d') ∧ d'.value = d.value

/-- The coefficient of a decimal at 8 places. -/
def atQuantum (d : Decimal) : ℕ :=
  Rounding.whole .halfEven (d.magnitude / 10 ^ defaultQuantum)

lemma magnitude_div_quantum (d : Decimal) : d.magnitude / 10 ^ defaultQuantum = d.magnitude * 10 ^ 8 := by
  rw [defaultQuantum, zpow_neg, div_inv_eq_mul]
  rfl

lemma atQuantum_lt_iff (d : Decimal) : atQuantum d < 10 ^ contextDigits ↔ Storable d := by
  have hnonneg : 0 ≤ d.magnitude / 10 ^ defaultQuantum := div_nonneg d.magnitude_nonneg (by positivity)
  unfold atQuantum
  rw [whole_halfEven_lt_iff hnonneg (by norm_num [contextDigits]), magnitude_div_quantum, Storable, abs_value]
  norm_num [contextDigits]
  constructor <;> intro h <;> linarith

lemma formatDecimal_of_zero {d : Decimal} (h : d.value = 0) : formatDecimal d = .ok "0" :=
  if_pos h

lemma formatDecimal_of_not_storable {d : Decimal} (h : ¬Storable d) : formatDecimal d = .error .invalidOperation := by
  have hne : d.value ≠ 0 := by
    intro hzero
    apply h
    rw [Storable, hzero]
    norm_num
  have hquantize : d.quantize contextDigits .halfEven defaultQuantum = none :=
    if_neg (fun hlt => h ((atQuantum_lt_iff d).mp hlt))
  rw [formatDecimal, if_neg hne, hquantize]

/-- The decimal that is printed: at 8 places if it has no more, else as it is. -/
def printed (d : Decimal) : Decimal :=
  let q : Decimal := ⟨d.negative, atQuantum d, defaultQuantum⟩
  if q.value = d.value then q else d

lemma value_printed (d : Decimal) : (printed d).value = d.value := by
  unfold printed
  dsimp only
  split
  · assumption
  · rfl

lemma formatDecimal_of_storable {d : Decimal} (hne : d.value ≠ 0) (h : Storable d) :
    formatDecimal d = .ok (String.ofList (stripText (printed d).fixedText)) := by
  have hquantize : d.quantize contextDigits .halfEven defaultQuantum = some ⟨d.negative, atQuantum d, defaultQuantum⟩ :=
    if_pos ((atQuantum_lt_iff d).mpr h)
  rw [formatDecimal, if_neg hne, hquantize]
  unfold printed
  dsimp only
  split <;> rfl

lemma roundTrips_iff (d : Decimal) : RoundTrips d ↔ Storable d := by
  constructor
  · rintro ⟨text, d', hbind, -⟩
    by_contra h
    rw [ExactDecimal.bindParam, formatDecimal_of_not_storable h] at hbind
    contradiction
  · intro h
    by_cases hzero : d.value = 0
    · refine ⟨"0", ⟨false, 0, 0⟩, ?_, ?_, ?_⟩
      · rw [ExactDecimal.bindParam, formatDecimal_of_zero hzero]
        rfl
      · decide
      · rw [hzero]
        simp [value, magnitude]
    · obtain ⟨d', hparse, hvalue⟩ := parseD_stripText (printed d)
      refine ⟨String.ofList (stripText (printed d).fixedText), d', ?_, ?_, hvalue.trans (value_printed d)⟩
      · rw [ExactDecimal.bindParam, formatDecimal_of_storable hzero h]
        rfl
      · rw [ExactDecimal.resultValue, hparse]
        rfl

/-! ### Equal prices, equal texts -/

/-- A decimal that is more than its rounding to 8 places has digits after these. -/
lemma exponent_lt_of_more {d : Decimal} (h : (⟨d.negative, atQuantum d, defaultQuantum⟩ : Decimal).value ≠ d.value) :
    d.exponent < defaultQuantum := by
  by_contra hexp
  obtain ⟨k, hk⟩ := Int.eq_ofNat_of_zero_le (sub_nonneg.mpr (not_lt.mp hexp))
  have hwhole : d.magnitude / 10 ^ defaultQuantum = ((d.coefficient * 10 ^ k : ℕ) : ℚ) := by
    rw [magnitude_div, hk]
    push_cast
    rw [zpow_natCast]
  refine h (value_eq_of_magnitude rfl ?_)
  have hcoefficient : (atQuantum d : ℚ) = d.magnitude / 10 ^ defaultQuantum := by
    rw [atQuantum, hwhole, whole_natCast]
  have hten : (10 : ℚ) ^ defaultQuantum ≠ 0 := by positivity
  calc (atQuantum d : ℚ) * 10 ^ defaultQuantum = d.magnitude := by rw [hcoefficient, div_mul_cancel₀ _ hten]

lemma stripText_fixedText_of_magnitude {a b : Decimal} (hpos : a.magnitude ≠ 0) (hneg : a.negative = b.negative)
    (h : a.magnitude = b.magnitude) (ha : a.exponent < 0) (hb : b.exponent < 0) :
    stripText a.fixedText = stripText b.fixedText := by
  rcases le_total b.exponent a.exponent with hexp | hexp
  · obtain ⟨j, hc, he⟩ := exists_zeros_of_magnitude_eq h hexp
    have hcoefficient : a.coefficient ≠ 0 := fun hzero => hpos (a.magnitude_eq_zero.mpr hzero)
    exact (stripText_fixedText_eq ha hneg (Nat.pos_of_ne_zero hcoefficient) hc he).symm
  · obtain ⟨j, hc, he⟩ := exists_zeros_of_magnitude_eq h.symm hexp
    have hcoefficient : b.coefficient ≠ 0 := fun hzero => hpos (h.trans (b.magnitude_eq_zero.mpr hzero))
    exact stripText_fixedText_eq hb hneg.symm (Nat.pos_of_ne_zero hcoefficient) hc he

lemma stripText_printed_eq {a b : Decimal} (hne : a.value ≠ 0) (h : a.value = b.value) :
    stripText (printed a).fixedText = stripText (printed b).fixedText := by
  have hneg := negative_eq_of_value_eq hne h
  have hmagnitude : a.magnitude = b.magnitude := by rw [← abs_value, ← abs_value, h]
  have hq : (⟨a.negative, atQuantum a, defaultQuantum⟩ : Decimal) = ⟨b.negative, atQuantum b, defaultQuantum⟩ := by
    rw [hneg, atQuantum, atQuantum, hmagnitude]
  have hpos : a.magnitude ≠ 0 := by
    rw [← abs_value]
    exact abs_ne_zero.mpr hne
  unfold printed
  dsimp only
  rw [hq, h]
  split
  · rfl
  · rename_i hmore
    have hb := exponent_lt_of_more hmore
    have ha := exponent_lt_of_more (d := a) (by rwa [hq, h])
    exact stripText_fixedText_of_magnitude hpos hneg hmagnitude (ha.trans (by decide)) (hb.trans (by decide))

lemma formatDecimal_congr {a b : Decimal} (h : a.value = b.value) : formatDecimal a = formatDecimal b := by
  by_cases hzero : a.value = 0
  · rw [formatDecimal_of_zero hzero, formatDecimal_of_zero (h ▸ hzero)]
  by_cases hstorable : Storable a
  · have hb : Storable b := by rwa [Storable, ← h]
    rw [formatDecimal_of_storable hzero hstorable, formatDecimal_of_storable (h ▸ hzero) hb,
      stripText_printed_eq hzero h]
  · have hb : ¬Storable b := by rwa [Storable, ← h]
    rw [formatDecimal_of_not_storable hstorable, formatDecimal_of_not_storable hb]

/-- Two decimals both come back with their values, with one text exactly for one value, when and
only when they have at most 28 digits at 8 places. -/
theorem decimal_storage_iff (a b : Decimal) :
    (RoundTrips a ∧ RoundTrips b ∧ (formatDecimal a = formatDecimal b ↔ a.value = b.value)) ↔
      Storable a ∧ Storable b := by
  rw [roundTrips_iff, roundTrips_iff]
  refine ⟨fun h => ⟨h.1, h.2.1⟩, fun ⟨ha, hb⟩ => ⟨ha, hb, ?_, formatDecimal_congr⟩⟩
  intro htext
  obtain ⟨text, a', hbind, hresult, hvalue⟩ := (roundTrips_iff a).mpr ha
  obtain ⟨text', b', hbind', hresult', hvalue'⟩ := (roundTrips_iff b).mpr hb
  rw [ExactDecimal.bindParam, htext] at hbind
  rw [ExactDecimal.bindParam, hbind] at hbind'
  obtain rfl : text = text' := by simpa using hbind'
  rw [hresult] at hresult'
  obtain rfl : a' = b' := by simpa using hresult'
  rw [← hvalue, hvalue']

/-- A hundred quintillions need a digit more. -/
theorem large_amount_not_stored :
    formatDecimal ⟨false, 1, 20⟩ = .error .invalidOperation ∧ ¬RoundTrips ⟨false, 1, 20⟩ := by
  have h : ¬Storable ⟨false, 1, 20⟩ := by decide +kernel
  exact ⟨formatDecimal_of_not_storable h, fun hrt => h ((roundTrips_iff _).mp hrt)⟩

end CryptoTrader
