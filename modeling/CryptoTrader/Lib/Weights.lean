import Mathlib.Algebra.BigOperators.Group.List.Basic
import Mathlib.Algebra.Order.Group.Defs
import Mathlib.Data.List.Perm.Subperm

/-!
# Weights of sublists

The weight of a list is the sum of its members' weights. With positive weights a filtered
list weighs as much as the list only if nothing was filtered out.
-/

namespace Weights

variable {α M : Type} [AddCommGroup M] (w : α → M)

/-- The weight of a list. -/
def weight (l : List α) : M :=
  (l.map w).sum

@[simp] lemma weight_nil : weight w [] = 0 := rfl

@[simp] lemma weight_cons (a : α) (l : List α) : weight w (a :: l) = w a + weight w l := by
  simp [weight]

@[simp] lemma weight_append (l l' : List α) : weight w (l ++ l') = weight w l + weight w l' := by
  simp [weight]

variable {w}

/-- Taking a member out takes its weight out. -/
lemma weight_eraseIdx {l : List α} {n : Nat} {a : α} (h : l[n]? = some a) :
    weight w (l.eraseIdx n) + w a = weight w l := by
  induction l generalizing n with
  | nil => simp at h
  | cons b l ih =>
    cases n with
    | zero =>
      obtain rfl : b = a := by simpa using h
      rw [List.eraseIdx_cons_zero, weight_cons, add_comm]
    | succ n =>
      have hn : l[n]? = some a := by simpa using h
      rw [List.eraseIdx_cons_succ, weight_cons, weight_cons, add_assoc, ih hn]

lemma weight_set {l : List α} {n : Nat} {a : α} (h : l[n]? = some a) (b : α) :
    weight w (l.set n b) + w a = weight w l + w b := by
  induction l generalizing n with
  | nil => simp at h
  | cons c l ih =>
    cases n with
    | zero =>
      obtain rfl : c = a := by simpa using h
      rw [List.set_cons_zero, weight_cons, weight_cons, add_comm, add_comm (w b), ← add_assoc]
    | succ n =>
      have hn : l[n]? = some a := by simpa using h
      rw [List.set_cons_succ, weight_cons, weight_cons, add_assoc, ih hn, add_assoc]

/-- Letting one more member through a filter adds its weight. -/
lemma weight_filter_insert [DecidableEq α] {l : List α} (hn : l.Nodup) {g : α} (hg : g ∈ l) {p : α → Bool}
    (hp : p g = false) : weight w (l.filter (fun a => p a || a = g)) = weight w (l.filter p) + w g := by
  induction l with
  | nil => simp at hg
  | cons a l ih =>
    rw [List.nodup_cons] at hn
    rcases List.mem_cons.mp hg with rfl | hgl
    · have hsame : l.filter (fun a => p a || a = g) = l.filter p := by
        refine List.filter_congr (fun b hb => ?_)
        have hbg : b ≠ g := fun h => hn.1 (h ▸ hb)
        simp [hbg]
      simp [hp, hsame, add_comm]
    · have hag : a ≠ g := fun h => hn.1 (h ▸ hgl)
      by_cases hpa : p a
      · simp [hpa, ih hn.2 hgl, add_assoc]
      · simp [hpa, hag, ih hn.2 hgl]

/-- A list without repetitions outweighs what it contains by what it contains beside it. -/
lemma weight_filter_not_mem [DecidableEq α] {l s : List α} (hl : l.Nodup) (hs : s.Nodup) (hsub : s ⊆ l) :
    weight w (l.filter (fun a => a ∉ s)) = weight w l - weight w s := by
  have hin : (l.filter (fun a => a ∈ s)).Perm s := by
    refine (List.perm_ext_iff_of_nodup (hl.filter _) hs).mpr (fun a => ?_)
    simpa using fun ha => hsub ha
  have hsplit : weight w (l.filter (fun a => a ∈ s)) + weight w (l.filter (fun a => a ∉ s)) = weight w l := by
    rw [← weight_append]
    have hperm := ((List.filter_append_perm (fun a => decide (a ∈ s)) l).map w).sum_eq
    simpa [weight, decide_not] using hperm
  rw [← hsplit, show weight w (l.filter (fun a => a ∈ s)) = weight w s from (hin.map w).sum_eq]
  exact (add_sub_cancel_left _ _).symm

variable [LinearOrder M] [IsOrderedAddMonoid M]

lemma weight_nonneg {l : List α} (h : ∀ a ∈ l, 0 ≤ w a) : 0 ≤ weight w l := by
  induction l with
  | nil => simp
  | cons a l ih =>
    rw [weight_cons]
    exact add_nonneg (h a (by simp)) (ih (fun b hb => h b (List.mem_cons_of_mem _ hb)))

/-- A member weighs no more than the list. -/
lemma le_weight_of_mem {l : List α} (h : ∀ a ∈ l, 0 ≤ w a) {a : α} (ha : a ∈ l) : w a ≤ weight w l := by
  induction l with
  | nil => simp at ha
  | cons b l ih =>
    have hl : ∀ c ∈ l, 0 ≤ w c := fun c hc => h c (List.mem_cons_of_mem _ hc)
    rw [weight_cons]
    rcases List.mem_cons.mp ha with rfl | ha
    · exact le_add_of_nonneg_right (weight_nonneg hl)
    · exact (ih hl ha).trans (le_add_of_nonneg_left (h b (by simp)))

lemma weight_filter_le {l : List α} (h : ∀ a ∈ l, 0 ≤ w a) (p : α → Bool) :
    weight w (l.filter p) ≤ weight w l := by
  induction l with
  | nil => simp
  | cons a l ih =>
    have ih' := ih (fun b hb => h b (List.mem_cons_of_mem _ hb))
    by_cases hp : p a
    · simpa [List.filter_cons, hp] using ih'
    · simp only [List.filter_cons, hp, Bool.false_eq_true, if_false, weight_cons]
      exact ih'.trans (le_add_of_nonneg_left (h a (by simp)))

lemma weight_eraseIdx_le {l : List α} (h : ∀ a ∈ l, 0 ≤ w a) (n : Nat) : weight w (l.eraseIdx n) ≤ weight w l := by
  cases hn : l[n]? with
  | none => rw [List.eraseIdx_of_length_le (List.getElem?_eq_none_iff.mp hn)]
  | some a =>
    rw [← weight_eraseIdx hn]
    exact le_add_of_nonneg_right (h a (List.mem_of_getElem? hn))

/-- What a list without repetitions contains weighs no more than the list. -/
lemma weight_le_of_subset [DecidableEq α] {l s : List α} (hl : l.Nodup) (hs : s.Nodup) (hsub : s ⊆ l)
    (h : ∀ a ∈ l, 0 ≤ w a) : weight w s ≤ weight w l := by
  have hrest : 0 ≤ weight w (l.filter (fun a => a ∉ s)) :=
    weight_nonneg (fun a ha => h a (List.mem_of_mem_filter ha))
  rw [weight_filter_not_mem hl hs hsub] at hrest
  exact sub_nonneg.mp hrest

/-- A filtered list of positive weights weighs as much as the list exactly when the
filter keeps every member. -/
lemma weight_filter_eq_iff {l : List α} (h : ∀ a ∈ l, 0 < w a) (p : α → Bool) :
    weight w (l.filter p) = weight w l ↔ ∀ a ∈ l, p a = true := by
  induction l with
  | nil => simp
  | cons a l ih =>
    have hl : ∀ b ∈ l, 0 < w b := fun b hb => h b (List.mem_cons_of_mem _ hb)
    by_cases hp : p a
    · simpa [List.filter_cons, hp] using ih hl
    · have hlt : weight w (l.filter p) < w a + weight w l :=
        (weight_filter_le (fun b hb => (hl b hb).le) p).trans_lt (lt_add_of_pos_left _ (h a (by simp)))
      simp [hp, hlt.ne]

end Weights
