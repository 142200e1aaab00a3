import CryptoTrader.Lib.Decimal
import Mathlib.Data.List.DropRight

/-!
# Decimals as text

`format(d, "f")` of a decimal, the parser of `Decimal(text)`, and zeros stripped off the end of a
text. The parser reads digits of ASCII without underscores.
-/

namespace Decimal

/-- The digits of a coefficient, with zeros in front so that one stands before `places` others. -/
def paddedDigits (places coefficient : ℕ) : List Char :=
  let digits := Nat.toDigits 10 coefficient
  List.replicate (places + 1 - digits.length) '0' ++ digits

/-- The digits before the point. -/
def wholeDigits (places coefficient : ℕ) : List Char :=
  (paddedDigits places coefficient).take ((paddedDigits places coefficient).length - places)

/-- The digits after the point. -/
def placeDigits (places coefficient : ℕ) : List Char :=
  (paddedDigits places coefficient).drop ((paddedDigits places coefficient).length - places)

def signText (negative : Bool) : List Char :=
  if negative then ['-'] else []

/-- `format(d, "f")`. -/
def fixedText (d : Decimal) : List Char :=
  signText d.negative ++
    if 0 ≤ d.exponent then Nat.toDigits 10 (d.coefficient * 10 ^ d.exponent.toNat)
    else wholeDigits d.exponent.natAbs d.coefficient ++ '.' :: placeDigits d.exponent.natAbs d.coefficient

/-- `text.rstrip("0").rstrip(".")` of a text with a point. -/
def stripText (text : List Char) : List Char :=
  if '.' ∈ text then (text.rdropWhile (· = '0')).rdropWhile (· = '.') else text

/-! ### The parser -/

/-- The sign of a text, and the rest. -/
def splitSign : List Char → Bool × List Char
  | '-' :: rest => (true, rest)
  | '+' :: rest => (false, rest)
  | text => (false, text)

def parseExponent (text : List Char) : Option ℤ :=
  let (negative, digits) := splitSign text
  if digits ≠ [] ∧ digits.all Char.isDigit then
    some (if negative then -(Nat.ofDigitChars 10 digits 0 : ℤ) else Nat.ofDigitChars 10 digits 0)
  else none

/-- What follows the digits: nothing, or an exponent. -/
def parseTail (negative : Bool) (digits : List Char) (places : ℕ) (rest : List Char) : Option Decimal :=
  if digits = [] then none
  else
    match rest with
    | [] => some ⟨negative, Nat.ofDigitChars 10 digits 0, -places⟩
    | c :: rest =>
      if c = 'e' ∨ c = 'E' then
        (parseExponent rest).map (fun e => ⟨negative, Nat.ofDigitChars 10 digits 0, e - places⟩)
      else none

/-- `Decimal(text)` of a finite decimal. -/
def parse (text : List Char) : Option Decimal :=
  let (negative, body) := splitSign text
  let whole := body.takeWhile Char.isDigit
  match body.dropWhile Char.isDigit with
  | '.' :: rest =>
    let fraction := rest.takeWhile Char.isDigit
    parseTail negative (whole ++ fraction) fraction.length (rest.dropWhile Char.isDigit)
  | rest => parseTail negative whole 0 rest

/-! ### Digits -/

/-- All characters are digits. -/
def AllDigits (text : List Char) : Prop :=
  ∀ c ∈ text, c.isDigit = true

lemma allDigits_toDigits (n : ℕ) : AllDigits (Nat.toDigits 10 n) :=
  fun _ hc => Nat.isDigit_of_mem_toDigits (by norm_num) (by norm_num) hc

lemma allDigits_paddedDigits (places coefficient : ℕ) : AllDigits (paddedDigits places coefficient) := by
  intro c hc
  rcases List.mem_append.mp hc with hzero | hdigit
  · rw [List.eq_of_mem_replicate hzero]
    rfl
  · exact allDigits_toDigits coefficient c hdigit

lemma allDigits_wholeDigits (places coefficient : ℕ) : AllDigits (wholeDigits places coefficient) :=
  fun c hc => allDigits_paddedDigits places coefficient c (List.mem_of_mem_take hc)

lemma allDigits_placeDigits (places coefficient : ℕ) : AllDigits (placeDigits places coefficient) :=
  fun c hc => allDigits_paddedDigits places coefficient c (List.mem_of_mem_drop hc)

lemma toDigits_mul_pow {c : ℕ} (hc : 0 < c) (j : ℕ) :
    Nat.toDigits 10 (c * 10 ^ j) = Nat.toDigits 10 c ++ List.replicate j '0' := by
  induction j with
  | zero => simp
  | succ j ih =>
    have happend := Nat.toDigits_append_toDigits (b := 10) (n := c * 10 ^ j) (d := 0) (by norm_num) (by positivity) (by norm_num)
    rw [Nat.toDigits_zero] at happend
    have hpow : c * 10 ^ (j + 1) = 10 * (c * 10 ^ j) + 0 := by ring
    rw [hpow, ← happend, ih, List.append_assoc, List.replicate_succ']

section Places

variable (places coefficient : ℕ)

lemma wholeDigits_append_placeDigits :
    wholeDigits places coefficient ++ placeDigits places coefficient = paddedDigits places coefficient :=
  List.take_append_drop _ _

lemma places_lt_length : places < (paddedDigits places coefficient).length := by
  have hdigits : 0 < (Nat.toDigits 10 coefficient).length := Nat.length_toDigits_pos
  unfold paddedDigits
  rw [List.length_append, List.length_replicate]
  omega

lemma length_placeDigits : (placeDigits places coefficient).length = places := by
  have hlt := places_lt_length places coefficient
  unfold placeDigits
  rw [List.length_drop]
  omega

lemma wholeDigits_ne_nil : wholeDigits places coefficient ≠ [] := by
  have hlt := places_lt_length places coefficient
  unfold wholeDigits
  rw [← List.length_pos_iff, List.length_take]
  omega

lemma ofDigitChars_paddedDigits : Nat.ofDigitChars 10 (paddedDigits places coefficient) 0 = coefficient := by
  unfold paddedDigits
  rw [Nat.ofDigitChars_append, Nat.ofDigitChars_replicate_zero, Nat.mul_zero,
    Nat.ofDigitChars_toDigits (by norm_num) (by norm_num)]

variable {coefficient}

/-- More zeros in the coefficient are more zeros at the end of the places. -/
lemma paddedDigits_mul_pow (hc : 0 < coefficient) (j : ℕ) :
    paddedDigits (places + j) (coefficient * 10 ^ j) = paddedDigits places coefficient ++ List.replicate j '0' := by
  have hcount : places + j + 1 - ((Nat.toDigits 10 coefficient).length + j) =
      places + 1 - (Nat.toDigits 10 coefficient).length := by omega
  unfold paddedDigits
  dsimp only
  rw [toDigits_mul_pow hc, List.length_append, List.length_replicate, hcount, List.append_assoc]

lemma wholeDigits_mul_pow (hc : 0 < coefficient) (j : ℕ) :
    wholeDigits (places + j) (coefficient * 10 ^ j) = wholeDigits places coefficient := by
  unfold wholeDigits
  rw [paddedDigits_mul_pow places hc, List.length_append, List.length_replicate, Nat.add_sub_add_right]
  exact List.take_append_of_le_length (Nat.sub_le _ _)

lemma placeDigits_mul_pow (hc : 0 < coefficient) (j : ℕ) :
    placeDigits (places + j) (coefficient * 10 ^ j) = placeDigits places coefficient ++ List.replicate j '0' := by
  unfold placeDigits
  rw [paddedDigits_mul_pow places hc, List.length_append, List.length_replicate, Nat.add_sub_add_right]
  exact List.drop_append_of_le_length (Nat.sub_le _ _)

end Places

/-! ### Stripping -/

lemma rdropWhile_append_cons {p : Char → Bool} {c : Char} (hc : ¬p c) (before after : List Char) :
    (before ++ c :: after).rdropWhile p = before ++ c :: after.rdropWhile p := by
  induction after using List.reverseRecOn with
  | nil => exact List.rdropWhile_concat_neg p _ c hc
  | append_singleton after x ih =>
    have hassoc : before ++ c :: (after ++ [x]) = (before ++ c :: after) ++ [x] := by simp
    rw [hassoc]
    by_cases hx : p x
    · rw [List.rdropWhile_concat_pos p _ x hx, List.rdropWhile_concat_pos p _ x hx, ih]
    · rw [List.rdropWhile_concat_neg p _ x hx, List.rdropWhile_concat_neg p _ x hx, ← hassoc]

lemma rdropWhile_append_replicate (text : List Char) (j : ℕ) :
    (text ++ List.replicate j '0').rdropWhile (· = '0') = text.rdropWhile (· = '0') := by
  induction j with
  | zero => simp
  | succ j ih =>
    rw [List.replicate_succ', ← List.append_assoc, List.rdropWhile_concat_pos _ _ _ (by simp), ih]

/-- A text with the zeros back that were taken off its end. -/
lemma exists_zeros (text : List Char) : ∃ m, text.rdropWhile (· = '0') ++ List.replicate m '0' = text := by
  refine ⟨(text.rtakeWhile (· = '0')).length, ?_⟩
  have hzeros : text.rtakeWhile (· = '0') = List.replicate (text.rtakeWhile (· = '0')).length '0' :=
    List.eq_replicate_iff.mpr ⟨rfl, fun c hc => by simpa using List.mem_rtakeWhile_imp hc⟩
  rw [← hzeros]
  exact List.rdropWhile_append_rtakeWhile

/-- The digits after the point, and the point only if there are any. -/
def pointText (digits : List Char) : List Char :=
  if digits = [] then [] else '.' :: digits

lemma stripText_point {before after : List Char} (hbefore : '.' ∉ before) (hafter : AllDigits after) :
    stripText (before ++ '.' :: after) = before ++ pointText (after.rdropWhile (· = '0')) := by
  have hmem : '.' ∈ before ++ '.' :: after := by simp
  have hrest : AllDigits (after.rdropWhile (· = '0')) := fun c hc => hafter c ((List.rdropWhile_prefix _ _).subset hc)
  rw [stripText, if_pos hmem, rdropWhile_append_cons (by simp)]
  unfold pointText
  split
  · rename_i hnil
    rw [hnil, List.rdropWhile_concat_pos _ _ _ (by simp), List.append_nil]
    -- no point is left before the point
    refine List.rdropWhile_eq_self_iff.mpr (fun hne hlast => hbefore ?_)
    have hlast : before.getLast hne = '.' := by simpa using hlast
    rw [← hlast]
    exact List.getLast_mem hne
  · rename_i hne
    refine List.rdropWhile_eq_self_iff.mpr (fun hne' hlast => ?_)
    have hdot : ('.' :: after.rdropWhile (· = '0')).getLast (by simp) = '.' := by
      rw [List.getLast_append_of_ne_nil _ (by simp)] at hlast
      simpa using hlast
    rw [List.getLast_cons hne] at hdot
    have hdigit := hrest _ (List.getLast_mem hne)
    rw [hdot] at hdigit
    contradiction

lemma stripText_of_not_mem {text : List Char} (h : '.' ∉ text) : stripText text = text :=
  if_neg h

/-! ### Parsing what is printed -/

lemma ne_sign_of_isDigit {c : Char} (h : c.isDigit = true) : c ≠ '-' ∧ c ≠ '+' ∧ c ≠ '.' := by
  refine ⟨?_, ?_, ?_⟩ <;> rintro rfl <;> contradiction

lemma splitSign_signText (negative : Bool) {text : List Char} (hdigits : ∃ c rest, text = c :: rest ∧ c.isDigit = true) :
    splitSign (signText negative ++ text) = (negative, text) := by
  obtain ⟨c, rest, rfl, hc⟩ := hdigits
  obtain ⟨hminus, hplus, -⟩ := ne_sign_of_isDigit hc
  cases negative with
  | true => rfl
  | false =>
    simp only [signText, Bool.false_eq_true, if_false, List.nil_append]
    unfold splitSign
    split
    · rename_i heq
      exact absurd (List.cons.inj heq).1 hminus
    · rename_i heq
      exact absurd (List.cons.inj heq).1 hplus
    · rfl

lemma AllDigits.takeWhile {text : List Char} (h : AllDigits text) : text.takeWhile Char.isDigit = text :=
  List.takeWhile_eq_self_iff.mpr h

lemma AllDigits.dropWhile {text : List Char} (h : AllDigits text) : text.dropWhile Char.isDigit = [] :=
  List.dropWhile_eq_nil_iff.mpr h

lemma parse_pointText (negative : Bool) {whole fraction : List Char} (hne : whole ≠ []) (hwhole : AllDigits whole)
    (hfraction : AllDigits fraction) :
    parse (signText negative ++ (whole ++ pointText fraction)) =
      some ⟨negative, Nat.ofDigitChars 10 (whole ++ fraction) 0, -fraction.length⟩ := by
  obtain ⟨c, rest, hcons⟩ := List.exists_cons_of_ne_nil hne
  have hsign : splitSign (signText negative ++ (whole ++ pointText fraction)) = (negative, whole ++ pointText fraction) :=
    splitSign_signText negative ⟨c, rest ++ pointText fraction, by simp [hcons], hwhole c (by simp [hcons])⟩
  have htake : (whole ++ pointText fraction).takeWhile Char.isDigit = whole := by
    rw [List.takeWhile_append_of_pos hwhole]
    unfold pointText
    split
    · simp
    · simp
  have hdrop : (whole ++ pointText fraction).dropWhile Char.isDigit = pointText fraction := by
    rw [List.dropWhile_append_of_pos hwhole]
    unfold pointText
    split
    · rfl
    · simp
  simp only [parse, hsign, htake, hdrop]
  by_cases hnil : fraction = []
  · subst hnil
    simp [pointText, parseTail, hne]
  · simp only [pointText, if_neg hnil, hfraction.takeWhile, hfraction.dropWhile]
    simp [parseTail, hne]

/-! ### The text of a decimal -/

/-- A decimal without its trailing zeros, as a text. -/
lemma stripText_fixedText_of_neg {d : Decimal} (h : d.exponent < 0) :
    stripText d.fixedText = signText d.negative ++ (wholeDigits d.exponent.natAbs d.coefficient ++
      pointText ((placeDigits d.exponent.natAbs d.coefficient).rdropWhile (· = '0'))) := by
  have hbefore : '.' ∉ signText d.negative ++ wholeDigits d.exponent.natAbs d.coefficient := by
    intro hmem
    rcases List.mem_append.mp hmem with hsign | hwhole
    · cases hneg : d.negative <;> simp [signText, hneg] at hsign
    · exact absurd rfl (ne_sign_of_isDigit (allDigits_wholeDigits _ _ _ hwhole)).2.2
  rw [fixedText, if_neg (not_le.mpr h), ← List.append_assoc, stripText_point hbefore (allDigits_placeDigits _ _),
    List.append_assoc]

lemma stripText_fixedText_of_nonneg {d : Decimal} (h : 0 ≤ d.exponent) :
    stripText d.fixedText = signText d.negative ++
      (Nat.toDigits 10 (d.coefficient * 10 ^ d.exponent.toNat) ++ pointText []) := by
  rw [fixedText, if_pos h, pointText, if_pos rfl, List.append_nil]
  apply stripText_of_not_mem
  intro hmem
  rcases List.mem_append.mp hmem with hsign | hdigit
  · cases hneg : d.negative <;> simp [signText, hneg] at hsign
  · exact absurd rfl (ne_sign_of_isDigit (allDigits_toDigits _ _ hdigit)).2.2

/-- What was printed and stripped parses to a decimal of the same value. -/
lemma parse_stripText_fixedText (d : Decimal) :
    ∃ d', parse (stripText d.fixedText) = some d' ∧ d'.value = d.value := by
  rcases le_or_gt 0 d.exponent with hexp | hexp
  · obtain ⟨k, hk⟩ := Int.eq_ofNat_of_zero_le hexp
    have hnone : AllDigits [] := by simp [AllDigits]
    have hparse := parse_pointText d.negative Nat.toDigits_ne_nil
      (allDigits_toDigits (d.coefficient * 10 ^ d.exponent.toNat)) hnone
    rw [List.append_nil, Nat.ofDigitChars_toDigits (by norm_num) (by norm_num)] at hparse
    rw [stripText_fixedText_of_nonneg hexp, hparse]
    refine ⟨_, rfl, value_eq_of_magnitude rfl ?_⟩
    simp [magnitude, hk]
  · obtain ⟨m, hzeros⟩ := exists_zeros (placeDigits d.exponent.natAbs d.coefficient)
    set kept := (placeDigits d.exponent.natAbs d.coefficient).rdropWhile (· = '0')
    have hdigits : AllDigits kept :=
      fun c hc => allDigits_placeDigits _ _ c ((List.rdropWhile_prefix _ _).subset hc)
    have hparse := parse_pointText d.negative (wholeDigits_ne_nil d.exponent.natAbs d.coefficient)
      (allDigits_wholeDigits _ _) hdigits
    have hcoefficient : d.coefficient =
        10 ^ m * Nat.ofDigitChars 10 (wholeDigits d.exponent.natAbs d.coefficient ++ kept) 0 := by
      rw [← Nat.ofDigitChars_replicate_zero, ← Nat.ofDigitChars_append, List.append_assoc, hzeros,
        wholeDigits_append_placeDigits, ofDigitChars_paddedDigits]
    have hlength : kept.length + m = d.exponent.natAbs := by
      have h := congrArg List.length hzeros
      rwa [List.length_append, List.length_replicate, length_placeDigits] at h
    rw [stripText_fixedText_of_neg hexp, hparse]
    refine ⟨_, rfl, value_eq_of_magnitude rfl ?_⟩
    generalize Nat.ofDigitChars 10 (wholeDigits d.exponent.natAbs d.coefficient ++ kept) 0 = n at hcoefficient
    have hexponent : d.exponent = -kept.length - m := by omega
    unfold magnitude
    rw [hcoefficient, hexponent, zpow_sub₀ (by norm_num), zpow_natCast]
    push_cast
    field_simp

/-- Decimals of one value print the same, once their zeros are stripped. -/
lemma stripText_fixedText_eq {a b : Decimal} (hexp : a.exponent < 0) (hneg : a.negative = b.negative)
    (hpos : 0 < a.coefficient) {j : ℕ} (hc : b.coefficient = a.coefficient * 10 ^ j) (he : b.exponent = a.exponent - j) :
    stripText b.fixedText = stripText a.fixedText := by
  have hplaces : b.exponent.natAbs = a.exponent.natAbs + j := by omega
  rw [stripText_fixedText_of_neg hexp, stripText_fixedText_of_neg (by omega), hplaces, hc, hneg,
    wholeDigits_mul_pow _ hpos, placeDigits_mul_pow _ hpos, rdropWhile_append_replicate]

end Decimal
