import CryptoTrader.Lib.Json
import Mathlib.Algebra.Order.BigOperators.Group.List
import Mathlib.Algebra.Order.Field.Basic
import Mathlib.Tactic.Linarith

/-!
# Shares of a total

A table of weights is normalised over its positive ones: a positive weight has its share of
their sum, any other has none. The share of one key grows with its weight while the others
stay.
-/

open KeyedTable

namespace Shares

section Others

variable {κ α : Type} [DecidableEq κ]

/-- The entries of the other keys. -/
def others (k : κ) (d : Dict κ α) : Dict κ α :=
  d.filter (fun e => e.1 ≠ k)

lemma others_alter_self (k : κ) (f : Option α → α) (d : Dict κ α) : others k (d.alter k f) = others k d := by
  unfold others Dict.alter upsert
  split
  · rw [put, List.filter_map]
    have hkeys : ∀ e : κ × α, ((fun e : κ × α => decide (e.1 ≠ k)) ∘ fun e => if e.1 = k then (k, f (d.get k)) else e) e =
        decide (e.1 ≠ k) := by
      intro e
      by_cases he : e.1 = k <;> simp [he]
    rw [List.filter_congr (fun e _ => hkeys e)]
    apply (List.map_congr_left ?_).trans (List.map_id _)
    intro e he
    rw [if_neg (of_decide_eq_true (List.mem_filter.mp he).2)]
    rfl
  · rw [List.filter_append]
    simp

lemma get_others {k k' : κ} (h : k' ≠ k) (d : Dict κ α) : (others k d).get k' = d.get k' := by
  unfold others Dict.get row
  rw [List.find?_filter]
  congr 2
  funext e
  by_cases he : e.1 = k'
  · simp [he, h]
  · simp [he]

lemma others_alter_of_ne {k k' : κ} (h : k' ≠ k) (f : Option α → α) (d : Dict κ α) :
    others k (d.alter k' f) = (others k d).alter k' f := by
  have hkey : k' ∈ (others k d).map Prod.fst ↔ k' ∈ d.map Prod.fst := by
    simp only [others, List.mem_map, List.mem_filter, decide_eq_true_eq]
    constructor
    · rintro ⟨e, ⟨he, -⟩, rfl⟩
      exact ⟨e, he, rfl⟩
    · rintro ⟨e, he, rfl⟩
      exact ⟨e, ⟨he, h⟩, rfl⟩
  unfold Dict.alter upsert
  rw [get_others h]
  by_cases hd : k' ∈ d.map Prod.fst
  · rw [if_pos hd, if_pos (hkey.mpr hd), others, others, put, put, List.filter_map]
    congr 2
    funext e
    by_cases he : e.1 = k' <;> simp [he, h]
  · rw [if_neg hd, if_neg (mt hkey.mp hd), others, List.filter_append]
    simp [others, h]

end Others

variable {κ K : Type} [Field K] [LinearOrder K]

/-- The sum of the positive weights. -/
def positiveTotal (d : Dict κ K) : K :=
  ((d.map Prod.snd).filter (fun w => 0 < w)).sum

def shares (d : Dict κ K) : Dict κ K :=
  d.map (fun e => (e.1, if 0 < e.2 then e.2 / positiveTotal d else 0))

@[simp] lemma positiveTotal_nil : positiveTotal ([] : Dict κ K) = 0 := rfl

@[simp] lemma positiveTotal_cons (e : κ × K) (d : Dict κ K) :
    positiveTotal (e :: d) = max e.2 0 + positiveTotal d := by
  unfold positiveTotal
  rw [List.map_cons]
  by_cases h : 0 < e.2
  · rw [List.filter_cons_of_pos (by simpa using h), List.sum_cons, max_eq_left h.le]
  · rw [List.filter_cons_of_neg (by simpa using h), max_eq_right (not_lt.mp h), zero_add]

lemma part_eq_max (w t : K) : (if 0 < w then w / t else 0) = max w 0 / t := by
  split
  · rw [max_eq_left (le_of_lt ‹_›)]
  · rw [max_eq_right (not_lt.mp ‹_›), zero_div]

lemma sum_parts (d : Dict κ K) (t : K) : (d.map (fun e => if 0 < e.2 then e.2 / t else 0)).sum = positiveTotal d / t := by
  induction d with
  | nil => simp
  | cons e d ih => rw [List.map_cons, List.sum_cons, ih, positiveTotal_cons, add_div, part_eq_max]

lemma sum_shares {d : Dict κ K} (h : positiveTotal d ≠ 0) : ((shares d).map Prod.snd).sum = 1 := by
  rw [shares, List.map_map]
  exact (sum_parts d (positiveTotal d)).trans (div_self h)

lemma get_shares [DecidableEq κ] (k : κ) (d : Dict κ K) :
    ((shares d).get k).getD 0 = max ((d.get k).getD 0) 0 / positiveTotal d := by
  have hrow : row Prod.fst k (shares d) =
      (row Prod.fst k d).map (fun e => (e.1, if 0 < e.2 then e.2 / positiveTotal d else 0)) := by
    unfold row shares
    rw [List.find?_map]
    rfl
  unfold Dict.get
  rw [hrow]
  cases row Prod.fst k d with
  | none => simp
  | some e => exact part_eq_max e.2 _

/-- The total is a key's own part and that of the others. -/
lemma positiveTotal_split [DecidableEq κ] {d : Dict κ K} (hd : (d.map Prod.fst).Nodup) (k : κ) :
    positiveTotal d = max ((d.get k).getD 0) 0 + positiveTotal (others k d) := by
  induction d with
  | nil => simp [others, Dict.get_nil]
  | cons e d ih =>
    rw [List.map_cons, List.nodup_cons] at hd
    unfold others
    by_cases he : e.1 = k
    · have hget : Dict.get k (e :: d) = some e.2 := by simp [Dict.get, row, he]
      have hrest : d.filter (fun e => e.1 ≠ k) = d := by
        rw [List.filter_eq_self]
        intro e' he'
        apply decide_eq_true
        rintro rfl
        exact hd.1 (he ▸ List.mem_map_of_mem he')
      rw [List.filter_cons_of_neg (by simpa using he), hrest, hget, positiveTotal_cons, Option.getD_some]
    · have hget : Dict.get k (e :: d) = Dict.get k d := by simp [Dict.get, row, he]
      rw [List.filter_cons_of_pos (by simpa using he), positiveTotal_cons, positiveTotal_cons, hget, ih hd.2, others]
      exact add_left_comm _ _ _

variable [IsStrictOrderedRing K]

lemma positiveTotal_nonneg (d : Dict κ K) : 0 ≤ positiveTotal d := by
  apply List.sum_nonneg
  intro w hw
  exact (of_decide_eq_true (List.mem_filter.mp hw).2).le

lemma shares_nonneg {d : Dict κ K} {e : κ × K} (h : e ∈ shares d) : 0 ≤ e.2 := by
  obtain ⟨e', -, rfl⟩ := List.mem_map.mp h
  dsimp only
  rw [part_eq_max]
  exact div_nonneg (le_max_right _ _) (positiveTotal_nonneg d)

/-- With more of its own a part of the whole is larger. -/
lemma part_le {a b r : K} (hr : 0 ≤ r) (hpos : 0 < a + r) (h : a ≤ b) : a / (a + r) ≤ b / (b + r) := by
  rw [div_le_div_iff₀ hpos (by linarith)]
  nlinarith

lemma part_lt {a b r : K} (ha : 0 ≤ a) (hr : 0 < r) (h : a < b) : a / (a + r) < b / (b + r) := by
  rw [div_lt_div_iff₀ (by linarith) (by linarith)]
  nlinarith

end Shares
