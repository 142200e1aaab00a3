import Mathlib.Algebra.GroupWithZero.Nat
import Mathlib.Algebra.Order.BigOperators.Group.List
import Mathlib.Data.List.Basic
import Mathlib.Data.String.Basic

/-!
# Query strings

Parameters as a query string, as they are (`render`) and form-url-encoded (`urlencode`). The
rendering of the parameters in the order of their keys is the encoding of the parameters in
their own order exactly if they are in the order of their keys and no text needs an escape
(`render_sortByKey_eq_urlencode_iff`).
-/

namespace QueryString

def field (p : String × String) : String :=
  p.1 ++ "=" ++ p.2

def render (params : List (String × String)) : String :=
  "&".intercalate (params.map field)

def sortByKey (params : List (String × String)) : List (String × String) :=
  params.mergeSort (fun p q => p.1 ≤ q.1)

/-- The characters that are sent as they are. -/
def isUnreserved (c : Char) : Bool :=
  c.isAlphanum || c = '_' || c = '.' || c = '-' || c = '~'

def hexDigit (n : ℕ) : Char :=
  Char.ofNat (if n < 10 then 48 + n else 55 + n)

def percent (b : UInt8) : List Char :=
  ['%', hexDigit (b.toNat / 16), hexDigit (b.toNat % 16)]

def quoteChar (c : Char) : List Char :=
  if isUnreserved c then [c] else if c = ' ' then ['+'] else (String.utf8EncodeChar c).flatMap percent

def quotePlus (s : String) : String :=
  String.ofList (s.toList.flatMap quoteChar)

def urlencode (params : List (String × String)) : String :=
  render (params.map fun p => (quotePlus p.1, quotePlus p.2))

/-- No character of the text needs an escape. -/
def Unescaped (s : String) : Prop :=
  ∀ c ∈ s.toList, isUnreserved c = true

instance decidableUnescaped (s : String) : Decidable (Unescaped s) :=
  List.decidableBAll (fun c => isUnreserved c = true) s.toList

/-! ### One character -/

lemma isUnreserved_hexDigit : ∀ n < 16, isUnreserved (hexDigit n) = true := by
  decide

lemma mem_quoteChar {c d : Char} (h : c ∈ quoteChar d) : isUnreserved c = true ∨ c = '+' ∨ c = '%' := by
  unfold quoteChar at h
  split at h
  · rename_i hd
    rw [List.mem_singleton.mp h]
    exact .inl hd
  · split at h
    · exact .inr (.inl (List.mem_singleton.mp h))
    · obtain ⟨b, -, hb⟩ := List.mem_flatMap.mp h
      have hlt := b.toNat_lt
      simp only [percent, List.mem_cons, List.not_mem_nil, or_false] at hb
      rcases hb with rfl | rfl | rfl
      · exact .inr (.inr rfl)
      · exact .inl (isUnreserved_hexDigit _ (by omega))
      · exact .inl (isUnreserved_hexDigit _ (by omega))

/-- Only a space has an escape of its own length. -/
lemma one_lt_length_quoteChar {c : Char} (hc : ¬ isUnreserved c = true) (hspace : c ≠ ' ') :
    1 < (quoteChar c).length := by
  rw [quoteChar, if_neg hc, if_neg hspace]
  have hpos : 0 < (String.utf8EncodeChar c).length := by
    rw [String.length_utf8EncodeChar]
    exact c.utf8Size_pos
  cases hbytes : String.utf8EncodeChar c with
  | nil => simp [hbytes] at hpos
  | cons b bytes => simp [percent]

lemma length_quoteChar_pos (c : Char) : 0 < (quoteChar c).length := by
  by_cases hc : isUnreserved c = true
  · simp [quoteChar, hc]
  · by_cases hspace : c = ' '
    · subst hspace
      decide
    · exact (one_lt_length_quoteChar hc hspace).le

/-! ### One text -/

section Text

variable {s : String}

@[simp] lemma toList_quotePlus (s : String) : (quotePlus s).toList = s.toList.flatMap quoteChar := by
  rw [quotePlus, String.toList_ofList]

lemma quotePlus_of_unescaped (h : Unescaped s) : quotePlus s = s := by
  have hchars : s.toList.flatMap quoteChar = s.toList := by
    rw [List.flatMap_congr (g := fun c => [c]) (fun c hc => by simp [quoteChar, h c hc])]
    simp
  rw [quotePlus, hchars, String.ofList_toList]

lemma mem_quotePlus {c : Char} (h : c ∈ (quotePlus s).toList) : isUnreserved c = true ∨ c = '+' ∨ c = '%' := by
  rw [toList_quotePlus] at h
  obtain ⟨d, -, hd⟩ := List.mem_flatMap.mp h
  exact mem_quoteChar hd

lemma length_le_flatMap_quoteChar (l : List Char) : l.length ≤ (l.flatMap quoteChar).length := by
  induction l with
  | nil => exact Nat.le_refl 0
  | cons c l ih =>
    have hc := length_quoteChar_pos c
    rw [List.flatMap_cons, List.length_append, List.length_cons]
    omega

lemma length_le_quotePlus (s : String) : s.toList.length ≤ (quotePlus s).toList.length := by
  rw [toList_quotePlus]
  exact length_le_flatMap_quoteChar s.toList

lemma isUnreserved_of_length_eq {l : List Char} (hlen : l.length = (l.flatMap quoteChar).length) (hspace : ' ' ∉ l) :
    ∀ c ∈ l, isUnreserved c = true := by
  induction l with
  | nil => simp
  | cons c l ih =>
    have hc := length_quoteChar_pos c
    have hl := length_le_flatMap_quoteChar l
    rw [List.flatMap_cons, List.length_append, List.length_cons] at hlen
    rw [List.mem_cons, not_or] at hspace
    intro d hd
    rcases List.mem_cons.mp hd with rfl | hd
    · by_contra hreserved
      have hlong := one_lt_length_quoteChar hreserved (Ne.symm hspace.1)
      omega
    · exact ih (by omega) hspace.2 d hd

/-- An encoding of the text's own length has no escape, unless the text has a space. -/
lemma unescaped_of_length_eq (hlen : s.toList.length = (quotePlus s).toList.length) (hspace : ' ' ∉ s.toList) :
    Unescaped s := by
  rw [toList_quotePlus] at hlen
  exact isUnreserved_of_length_eq hlen hspace

end Text

/-! ### Several parameters -/

section Params

variable {params params' : List (String × String)}

lemma toList_field (p : String × String) : (field p).toList = p.1.toList ++ '=' :: p.2.toList := by
  simp [field]

/-- The rendering with a separator before every field. -/
lemma cons_toList_render (h : params ≠ []) :
    '&' :: (render params).toList = params.flatMap (fun p => '&' :: (field p).toList) := by
  simp only [render, String.toList_intercalate, List.map_map]
  induction params with
  | nil => exact absurd rfl h
  | cons p params ih =>
    cases params with
    | nil => simp [List.intercalate_singleton]
    | cons q params =>
      have htail := ih (by simp)
      simp only [List.map_cons, List.flatMap_cons] at htail ⊢
      rw [List.intercalate_cons_cons, ← htail]
      simp

lemma render_append_singleton (h : params ≠ []) (p : String × String) :
    render (params ++ [p]) = render params ++ "&" ++ field p := by
  rw [render, render, List.map_append, List.map_singleton,
    String.intercalate_append_of_ne_nil (by simpa using h) (by simp), String.intercalate_singleton]

lemma takeWhile_key {p : String × String} (hp : '=' ∉ p.1.toList) :
    (field p).toList.takeWhile (· ≠ '=') = p.1.toList := by
  have hkey : ∀ c ∈ p.1.toList, decide (c ≠ '=') = true := by
    intro c hc
    exact decide_eq_true fun heq => hp (heq ▸ hc)
  rw [toList_field, List.takeWhile_append_of_pos hkey, List.takeWhile_cons_of_neg (by simp), List.append_nil]

lemma field_injective {p q : String × String} (hp : '=' ∉ p.1.toList) (hq : '=' ∉ q.1.toList)
    (h : (field p).toList = (field q).toList) : p = q := by
  have hkey : p.1.toList = q.1.toList := by rw [← takeWhile_key hp, ← takeWhile_key hq, h]
  rw [toList_field, toList_field, hkey] at h
  have hvalue := (List.cons.inj (List.append_cancel_left h)).2
  exact Prod.ext (String.toList_inj.mp hkey) (String.toList_inj.mp hvalue)

/-- The text of the parameters can be split again. -/
structure Separable (params : List (String × String)) : Prop where
  fields : ∀ p ∈ params, '&' ∉ (field p).toList
  keys : ∀ p ∈ params, '=' ∉ p.1.toList

lemma eq_of_map_field (h : Separable params) (h' : Separable params')
    (heq : params.map (fun p => (field p).toList) = params'.map (fun p => (field p).toList)) : params = params' := by
  induction params generalizing params' with
  | nil =>
    cases params' with
    | nil => rfl
    | cons q params' => simp at heq
  | cons p params ih =>
    cases params' with
    | nil => simp at heq
    | cons q params' =>
      simp only [List.map_cons, List.cons.injEq] at heq
      have hhead := field_injective (h.keys p (by simp)) (h'.keys q (by simp)) heq.1
      have htail := ih ⟨fun r hr => h.fields r (by simp [hr]), fun r hr => h.keys r (by simp [hr])⟩
        ⟨fun r hr => h'.fields r (by simp [hr]), fun r hr => h'.keys r (by simp [hr])⟩ heq.2
      rw [hhead, htail]

lemma splitOn_render (h : Separable params) (hne : params ≠ []) :
    (render params).toList.splitOn '&' = params.map (fun p => (field p).toList) := by
  rw [render, String.toList_intercalate, List.map_map]
  apply List.splitOn_intercalate
  · intro l hl
    obtain ⟨p, hp, rfl⟩ := List.mem_map.mp hl
    exact h.fields p hp
  · simpa using hne

lemma render_injective (h : Separable params) (h' : Separable params') (hne : params ≠ []) (hne' : params' ≠ [])
    (heq : render params = render params') : params = params' := by
  apply eq_of_map_field h h'
  rw [← splitOn_render h hne, ← splitOn_render h' hne', heq]

lemma ne_separator {c : Char} (h : isUnreserved c = true ∨ c = '+' ∨ c = '%') : c ≠ '&' ∧ c ≠ '=' ∧ c ≠ ' ' := by
  refine ⟨?_, ?_, ?_⟩ <;> rintro rfl <;> revert h <;> decide

/-- Encoded parameters have their separators only. -/
lemma separable_quoted (params : List (String × String)) :
    Separable (params.map fun p => (quotePlus p.1, quotePlus p.2)) where
  fields := by
    intro p hp
    obtain ⟨q, -, rfl⟩ := List.mem_map.mp hp
    rw [toList_field, List.mem_append, List.mem_cons]
    rintro (h | h | h)
    · exact (ne_separator (mem_quotePlus h)).1 rfl
    · exact absurd h (by decide)
    · exact (ne_separator (mem_quotePlus h)).1 rfl
  keys := by
    intro p hp h
    obtain ⟨q, -, rfl⟩ := List.mem_map.mp hp
    exact (ne_separator (mem_quotePlus h)).2.1 rfl

lemma quoted_of_unescaped (h : ∀ p ∈ params, Unescaped p.1 ∧ Unescaped p.2) :
    params.map (fun p => (quotePlus p.1, quotePlus p.2)) = params := by
  conv_rhs => rw [← List.map_id params]
  apply List.map_congr_left
  intro p hp
  simp [quotePlus_of_unescaped (h p hp).1, quotePlus_of_unescaped (h p hp).2]

lemma separable_of_unescaped (h : ∀ p ∈ params, Unescaped p.1 ∧ Unescaped p.2) : Separable params := by
  rw [← quoted_of_unescaped h]
  exact separable_quoted params

lemma urlencode_of_unescaped (h : ∀ p ∈ params, Unescaped p.1 ∧ Unescaped p.2) : urlencode params = render params := by
  rw [urlencode, quoted_of_unescaped h]

lemma sortByKey_perm (params : List (String × String)) : (sortByKey params).Perm params :=
  List.mergeSort_perm params _

lemma sortByKey_ne_nil (h : params ≠ []) : sortByKey params ≠ [] :=
  fun hnil => h (List.nil_perm.mp (hnil ▸ sortByKey_perm params))

lemma sortByKey_eq_self_iff : sortByKey params = params ↔ (params.map Prod.fst).Pairwise (· ≤ ·) := by
  rw [List.pairwise_map]
  constructor
  · intro h
    rw [← h]
    have hsorted := @List.pairwise_mergeSort _ (fun p q : String × String => decide (p.1 ≤ q.1))
      (by
        intro a b c hab hbc
        exact decide_eq_true ((of_decide_eq_true hab).trans (of_decide_eq_true hbc)))
      (by
        intro a b
        simpa using le_total a.1 b.1) params
    exact hsorted.imp of_decide_eq_true
  · intro h
    exact List.mergeSort_of_pairwise (h.imp decide_eq_true)

/-- Equal sums of terms that are at most the other's have equal terms. -/
lemma eq_of_sum_eq {ι : Type} {l : List ι} {f g : ι → ℕ} (hle : ∀ a ∈ l, f a ≤ g a)
    (hsum : (l.map f).sum = (l.map g).sum) : ∀ a ∈ l, f a = g a := by
  induction l with
  | nil => simp
  | cons a l ih =>
    have htail : (l.map f).sum ≤ (l.map g).sum := List.sum_le_sum fun b hb => hle b (by simp [hb])
    have hhead := hle a (by simp)
    simp only [List.map_cons, List.sum_cons] at hsum
    intro b hb
    rcases List.mem_cons.mp hb with rfl | hb
    · omega
    · exact ih (fun c hc => hle c (by simp [hc])) (by omega) b hb

section Equal

variable (heq : render (sortByKey params) = urlencode params)
include heq

lemma flatMap_of_render_eq (hne : params ≠ []) :
    (sortByKey params).flatMap (fun p => '&' :: (field p).toList) =
      params.flatMap (fun p => '&' :: (field (quotePlus p.1, quotePlus p.2)).toList) := by
  rw [← cons_toList_render (sortByKey_ne_nil hne), heq, urlencode, cons_toList_render (by simpa using hne), List.flatMap_map]

lemma space_notMem_of_render_eq {p : String × String} (hp : p ∈ params) : ' ' ∉ (field p).toList := by
  intro hspace
  have hmem : ' ' ∈ (sortByKey params).flatMap (fun p => '&' :: (field p).toList) :=
    List.mem_flatMap.mpr ⟨p, (sortByKey_perm params).mem_iff.mpr hp, List.mem_cons_of_mem _ hspace⟩
  rw [flatMap_of_render_eq heq (List.ne_nil_of_mem hp)] at hmem
  obtain ⟨q, -, hq⟩ := List.mem_flatMap.mp hmem
  rw [toList_field, List.mem_cons, List.mem_append, List.mem_cons] at hq
  rcases hq with h | h | h | h
  · exact absurd h (by decide)
  · exact (ne_separator (mem_quotePlus h)).2.2 rfl
  · exact absurd h (by decide)
  · exact (ne_separator (mem_quotePlus h)).2.2 rfl

lemma unescaped_of_render_eq {p : String × String} (hp : p ∈ params) : Unescaped p.1 ∧ Unescaped p.2 := by
  have hlengths := congrArg List.length (flatMap_of_render_eq heq (List.ne_nil_of_mem hp))
  rw [((sortByKey_perm params).flatMap_right _).length_eq, List.length_flatMap, List.length_flatMap] at hlengths
  have hle : ∀ q ∈ params, ('&' :: (field q).toList).length ≤
      ('&' :: (field (quotePlus q.1, quotePlus q.2)).toList).length := by
    intro q _
    have hkey := length_le_quotePlus q.1
    have hvalue := length_le_quotePlus q.2
    simp only [toList_field, List.length_cons, List.length_append]
    omega
  have hlen := eq_of_sum_eq hle hlengths p hp
  have hspace := space_notMem_of_render_eq heq hp
  have hkey := length_le_quotePlus p.1
  have hvalue := length_le_quotePlus p.2
  rw [toList_field, List.mem_append, List.mem_cons, not_or, not_or] at hspace
  simp only [toList_field, List.length_cons, List.length_append] at hlen
  exact ⟨unescaped_of_length_eq (by omega) hspace.1, unescaped_of_length_eq (by omega) hspace.2.2⟩

end Equal

lemma render_sortByKey_eq_urlencode_iff : render (sortByKey params) = urlencode params ↔
    (params.map Prod.fst).Pairwise (· ≤ ·) ∧ ∀ p ∈ params, Unescaped p.1 ∧ Unescaped p.2 := by
  constructor
  · intro heq
    rcases eq_or_ne params [] with rfl | hne
    · simp
    have hplain : ∀ p ∈ params, Unescaped p.1 ∧ Unescaped p.2 := fun p hp => unescaped_of_render_eq heq hp
    rw [urlencode_of_unescaped hplain] at heq
    have hsorted : Separable (sortByKey params) :=
      separable_of_unescaped fun p hp => hplain p ((sortByKey_perm params).mem_iff.mp hp)
    have hself := render_injective hsorted (separable_of_unescaped hplain) (sortByKey_ne_nil hne) hne heq
    exact ⟨sortByKey_eq_self_iff.mp hself, hplain⟩
  · rintro ⟨hkeys, hplain⟩
    rw [sortByKey_eq_self_iff.mpr hkeys, urlencode_of_unescaped hplain]

lemma render_ne_empty (hne : params ≠ []) : render params ≠ "" := by
  intro h
  have hchars := cons_toList_render hne
  rw [h] at hchars
  cases params with
  | nil => exact hne rfl
  | cons p params => simp [toList_field] at hchars

/-- Every field has a separator before it. -/
lemma length_le_count (hne : params ≠ []) : params.length ≤ ('&' :: (render params).toList).count '&' := by
  rw [cons_toList_render hne, List.count_flatMap]
  calc params.length = (params.map fun _ => 1).sum := by simp
    _ ≤ _ := List.sum_le_sum fun p _ => by simp

lemma count_of_separable (h : Separable params) (hne : params ≠ []) :
    ('&' :: (render params).toList).count '&' = params.length := by
  rw [cons_toList_render hne, List.count_flatMap]
  have hone : params.map (List.count '&' ∘ fun p => '&' :: (field p).toList) = params.map fun _ => 1 := by
    apply List.map_congr_left
    intro p hp
    simp [List.count_eq_zero_of_not_mem (h.fields p hp)]
  rw [hone]
  simp

end Params

end QueryString
