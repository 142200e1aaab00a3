import Mathlib.Data.List.Sort
import Mathlib.Tactic.Common

/-!
# Rows in the order of a column

`orderBy key` orders rows by a column and leaves rows that agree in it in the order they were stored
in. The place of a row in the answer is the number of the rows that are below it, wherever they are
stored, and of those that agree with it and are stored before it (`orderBy_split`).
-/

namespace OrderedRows

variable {α κ : Type} [LinearOrder κ] (key : α → κ)

def orderBy (rows : List α) : List α :=
  rows.insertionSort (fun a b => key a ≤ key b)

lemma orderBy_perm (rows : List α) : (orderBy key rows).Perm rows :=
  List.perm_insertionSort _ rows

lemma orderBy_pairwise (rows : List α) : (orderBy key rows).Pairwise (fun a b => key a ≤ key b) := by
  have : Std.Total (fun a b => key a ≤ key b) := ⟨fun a b => le_total (key a) (key b)⟩
  have : IsTrans α (fun a b => key a ≤ key b) := ⟨fun _ _ _ => le_trans⟩
  exact List.pairwise_insertionSort _ rows

/-- How many rows of the answer come before a row that is stored between `before` and `after`. -/
def rank (before : List α) (row : α) (after : List α) : ℕ :=
  before.countP (fun a => key a = key row) + (before ++ row :: after).countP (fun a => key a < key row)

lemma rank_cons (a : α) (before : List α) (row : α) (after : List α) :
    rank key (a :: before) row after = rank key before row after + if key a ≤ key row then 1 else 0 := by
  rw [rank, rank, List.cons_append, List.countP_cons, List.countP_cons]
  rcases lt_trichotomy (key a) (key row) with h | h | h
  · simp only [h, h.ne, h.le, decide_true, decide_false, if_true, Bool.false_eq_true, if_false]
    omega
  · simp only [h, lt_irrefl, le_refl, decide_true, decide_false, if_true, Bool.false_eq_true, if_false]
    omega
  · simp only [h.ne', h.le.not_gt, h.not_ge, decide_false, Bool.false_eq_true, if_false]
    omega

variable {key}

/-- A row is inserted behind all the smaller ones. -/
lemma orderedInsert_split (row : α) {rows : List α} (h : rows.Pairwise (fun a b => key a ≤ key b)) :
    ∃ front back, rows.orderedInsert (fun a b => key a ≤ key b) row = front ++ row :: back ∧
      front.length = rows.countP (fun a => key a < key row) := by
  induction rows with
  | nil => exact ⟨[], [], rfl, rfl⟩
  | cons a rows ih =>
    obtain ⟨hhead, htail⟩ := List.pairwise_cons.mp h
    by_cases ha : key row ≤ key a
    · refine ⟨[], a :: rows, List.orderedInsert_cons_of_le _ rows ha, ?_⟩
      symm
      apply List.countP_eq_zero.mpr
      intro b hb
      simp only [decide_eq_true_eq, not_lt]
      rcases List.mem_cons.mp hb with rfl | hb
      · exact ha
      · exact ha.trans (hhead b hb)
    · obtain ⟨front, back, hinsert, hlength⟩ := ih htail
      refine ⟨a :: front, back, ?_, ?_⟩
      · rw [List.orderedInsert_of_not_le _ rows ha, hinsert]
        rfl
      · rw [List.length_cons, hlength, List.countP_cons_of_pos (by simpa using ha)]

/-- A row that is not above another one is inserted before it. -/
lemma orderedInsert_append_of_le {a row : α} (front back : List α) (h : key a ≤ key row) :
    (front ++ row :: back).orderedInsert (fun a b => key a ≤ key b) a =
      front.orderedInsert (fun a b => key a ≤ key b) a ++ row :: back := by
  induction front with
  | nil => exact List.orderedInsert_cons_of_le _ back h
  | cons b front ih =>
    rw [List.cons_append, List.orderedInsert_cons, List.orderedInsert_cons, ih]
    split <;> rfl

/-- A row that is above the first ones is inserted behind them. -/
lemma orderedInsert_append_of_lt {a : α} {front : List α} (back : List α) (h : ∀ b ∈ front, key b < key a) :
    (front ++ back).orderedInsert (fun a b => key a ≤ key b) a =
      front ++ back.orderedInsert (fun a b => key a ≤ key b) a := by
  induction front with
  | nil => rfl
  | cons b front ih =>
    have hb : ¬ key a ≤ key b := not_le.mpr (h b List.mem_cons_self)
    rw [List.cons_append, List.orderedInsert_cons, if_neg hb, ih (fun c hc => h c (List.mem_cons_of_mem b hc))]
    rfl

/-- Where a row stands in the answer. -/
theorem orderBy_split (key : α → κ) (before : List α) (row : α) (after : List α) :
    ∃ front back, orderBy key (before ++ row :: after) = front ++ row :: back ∧
      front.length = rank key before row after ∧ (front ++ back).Perm (before ++ after) := by
  have hplace : ∃ front back, orderBy key (before ++ row :: after) = front ++ row :: back ∧
      front.length = rank key before row after := by
    induction before with
    | nil =>
      obtain ⟨front, back, hinsert, hlength⟩ := orderedInsert_split row (orderBy_pairwise key after)
      refine ⟨front, back, hinsert, ?_⟩
      rw [hlength, (orderBy_perm key after).countP_eq]
      simp [rank]
    | cons a before ih =>
      obtain ⟨front, back, heq, hlength⟩ := ih
      have hcons : orderBy key (a :: before ++ row :: after) =
          (front ++ row :: back).orderedInsert (fun a b => key a ≤ key b) a := by
        rw [← heq]
        rfl
      by_cases ha : key a ≤ key row
      · refine ⟨front.orderedInsert (fun a b => key a ≤ key b) a, back, ?_, ?_⟩
        · rw [hcons, orderedInsert_append_of_le front back ha]
        · rw [List.orderedInsert_length, hlength, rank_cons, if_pos ha]
      · have hsorted : (front ++ row :: back).Pairwise (fun a b => key a ≤ key b) := heq ▸ orderBy_pairwise key _
        have hfront : ∀ b ∈ front ++ [row], key b < key a := by
          intro b hb
          rcases List.mem_append.mp hb with hb | hb
          · exact lt_of_le_of_lt ((List.pairwise_append.mp hsorted).2.2 b hb row List.mem_cons_self) (not_le.mp ha)
          · rw [List.mem_singleton.mp hb]
            exact not_le.mp ha
        refine ⟨front, back.orderedInsert (fun a b => key a ≤ key b) a, ?_, ?_⟩
        · rw [hcons, List.append_cons, orderedInsert_append_of_lt back hfront, ← List.append_cons]
        · rw [hlength, rank_cons, if_neg ha, Nat.add_zero]
  obtain ⟨front, back, heq, hlength⟩ := hplace
  refine ⟨front, back, heq, hlength, ?_⟩
  have hperm : (row :: (front ++ back)).Perm (row :: (before ++ after)) :=
    List.perm_middle.symm.trans ((heq ▸ orderBy_perm key _).trans List.perm_middle)
  exact hperm.cons_inv

/-- Of the first rows of the answer, those that only one row can be are that row, if it is among them. -/
theorem filter_take_orderBy {p : α → Bool} {before after : List α} {row : α} (limit : ℕ) (hrow : p row = true)
    (hbefore : ∀ a ∈ before, p a = false) (hafter : ∀ a ∈ after, p a = false) :
    ((orderBy key (before ++ row :: after)).take limit).filter p =
      if rank key before row after < limit then [row] else [] := by
  obtain ⟨front, back, heq, hlength, hperm⟩ := orderBy_split key before row after
  have hothers : ∀ a ∈ front ++ back, p a = false := by
    intro a ha
    rcases List.mem_append.mp (hperm.mem_iff.mp ha) with ha | ha
    · exact hbefore a ha
    · exact hafter a ha
  have hnone {l : List α} (hl : l ⊆ front ++ back) : l.filter p = [] :=
    List.filter_eq_nil_iff.mpr (fun a ha => by rw [hothers a (hl ha)]; exact Bool.false_ne_true)
  rw [heq, ← hlength]
  split_ifs with h
  · obtain ⟨n, rfl⟩ := Nat.exists_eq_add_of_lt h
    have htake : (front ++ row :: back).take (front.length + n + 1) = front ++ row :: back.take n := by
      rw [Nat.add_assoc, List.take_length_add_append, List.take_succ_cons]
    rw [htake, List.filter_append, List.filter_cons_of_pos hrow, hnone (List.subset_append_left front back),
      hnone (List.Subset.trans (List.take_subset n back) (List.subset_append_right front back))]
    rfl
  · rw [List.take_append_of_le_length (not_lt.mp h)]
    exact hnone (List.Subset.trans (List.take_subset limit front) (List.subset_append_left front back))

/-! ### The first rows of an order -/

variable (key) in
/-- `order_by(key).limit(limit)`. -/
def firstRows (limit : ℕ) (rows : List α) : List α :=
  (orderBy key rows).take limit

lemma mem_of_mem_firstRows {limit : ℕ} {rows : List α} {a : α} (h : a ∈ firstRows key limit rows) : a ∈ rows :=
  (orderBy_perm key rows).mem_iff.mp (List.mem_of_mem_take h)

lemma length_firstRows (limit : ℕ) (rows : List α) : (firstRows key limit rows).length ≤ limit :=
  List.length_take_le limit _

lemma firstRows_pairwise (limit : ℕ) (rows : List α) :
    (firstRows key limit rows).Pairwise (fun a b => key a ≤ key b) :=
  (orderBy_pairwise key rows).sublist (List.take_sublist limit _)

/-- A row is left out only for as many rows that are not behind it. -/
lemma left_out {limit : ℕ} {rows : List α} {a : α} (ha : a ∈ rows) (hout : a ∉ firstRows key limit rows) :
    (firstRows key limit rows).length = limit ∧ ∀ b ∈ firstRows key limit rows, key b ≤ key a := by
  have hsplit := List.take_append_drop limit (orderBy key rows)
  have hdrop : a ∈ (orderBy key rows).drop limit := by
    have hmem := (orderBy_perm key rows).mem_iff.mpr ha
    rw [← hsplit] at hmem
    exact (List.mem_append.mp hmem).resolve_left hout
  have hsorted := orderBy_pairwise key rows
  rw [← hsplit, List.pairwise_append] at hsorted
  refine ⟨?_, fun b hb => hsorted.2.2 b hb a hdrop⟩
  rw [firstRows, List.length_take, min_eq_left]
  by_contra hlt
  rw [List.drop_eq_nil_of_le (by omega)] at hdrop
  exact List.not_mem_nil hdrop

/-- Of two rows the one that is stored first is not left out for the other, unless it is behind it. -/
lemma firstRows_of_earlier {limit : ℕ} {rows : List α} {a b : α} (hn : rows.Nodup) (h : [a, b].Sublist rows)
    (hle : key a ≤ key b) (hb : b ∈ firstRows key limit rows) : a ∈ firstRows key limit rows := by
  have : Std.Total (fun a b => key a ≤ key b) := ⟨fun a b => le_total (key a) (key b)⟩
  have : IsTrans α (fun a b => key a ≤ key b) := ⟨fun _ _ _ => le_trans⟩
  have hpair : [a, b].Sublist (orderBy key rows) := List.pair_sublist_insertionSort hle h
  have hnodup : (orderBy key rows).Nodup := (orderBy_perm key rows).nodup_iff.mpr hn
  rw [← List.take_append_drop limit (orderBy key rows)] at hpair hnodup
  obtain ⟨front, back, hsplit, hfront, hback⟩ := List.sublist_append_iff.mp hpair
  cases front with
  | nil =>
    rw [List.nil_append] at hsplit
    subst hsplit
    exact absurd rfl ((List.nodup_append.mp hnodup).2.2 b hb b (hback.subset (by simp)))
  | cons c front =>
    rw [List.cons_append, List.cons.injEq] at hsplit
    rw [hsplit.1]
    exact hfront.subset List.mem_cons_self

end OrderedRows
