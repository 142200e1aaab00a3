import CryptoTrader.Lib.Weights
import Mathlib.Data.List.Nodup
import Mathlib.Data.List.Basic
import Mathlib.Data.List.Induction
import Mathlib.Tactic.Abel

/-!
# Tables of rows with a unique key

A table is the list of its rows in insertion order. `row` is a select by key, `put`
rewrites the row that has the given row's key. Uniqueness of the key is the hypothesis
`(rows.map key).Nodup`, which `put` keeps and `append` keeps for a fresh key. With unique
keys a write changes the weight of a table by what it does to one row.
-/

namespace KeyedTable

variable {α κ : Type} [DecidableEq κ] (key : α → κ)

/-- The row with key `k`. -/
def row (k : κ) (rows : List α) : Option α :=
  rows.find? (fun r => key r = k)

/-- Rewrite the row that has `r`'s key. -/
def put (r : α) (rows : List α) : List α :=
  rows.map (fun r' => if key r' = key r then r else r')

/-- Rewrite the row that has `r`'s key, or append `r`. -/
def upsert (r : α) (rows : List α) : List α :=
  if key r ∈ rows.map key then put key r rows else rows ++ [r]

variable {key}

lemma row_some {k : κ} {rows : List α} {r : α} (h : row key k rows = some r) :
    r ∈ rows ∧ key r = k := by
  refine ⟨List.mem_of_find?_eq_some h, ?_⟩
  simpa using List.find?_some h

lemma row_eq_none_iff {k : κ} {rows : List α} : row key k rows = none ↔ k ∉ rows.map key := by
  simp [row, List.find?_eq_none]

lemma row_isSome_iff {k : κ} {rows : List α} : (∃ r, row key k rows = some r) ↔ k ∈ rows.map key := by
  rw [← not_iff_not, ← row_eq_none_iff]
  cases row key k rows <;> simp

omit [DecidableEq κ] in
lemma eq_of_key_eq {rows : List α} (hn : (rows.map key).Nodup) {r r' : α}
    (hr : r ∈ rows) (hr' : r' ∈ rows) (hk : key r = key r') : r = r' :=
  List.inj_on_of_nodup_map hn hr hr' hk

/-- With unique keys a row is the answer to the query for its key. -/
lemma row_of_mem {rows : List α} (hn : (rows.map key).Nodup) {r : α} (hr : r ∈ rows) :
    row key (key r) rows = some r := by
  obtain ⟨r', hr'⟩ : ∃ r', row key (key r) rows = some r' := row_isSome_iff.mpr (List.mem_map_of_mem hr)
  obtain ⟨hm, hk⟩ := row_some hr'
  rw [hr', eq_of_key_eq hn hm hr hk]

lemma row_iff_mem {rows : List α} (hn : (rows.map key).Nodup) {k : κ} {r : α} :
    row key k rows = some r ↔ r ∈ rows ∧ key r = k := by
  refine ⟨row_some, ?_⟩
  rintro ⟨hr, rfl⟩
  exact row_of_mem hn hr

/-- Tables with the same rows under every key are the same, but for the order. -/
lemma perm_of_row {rows rows' : List α} (hn : (rows.map key).Nodup) (hn' : (rows'.map key).Nodup)
    (h : ∀ k, row key k rows = row key k rows') : rows.Perm rows' := by
  refine (List.perm_ext_iff_of_nodup (List.Nodup.of_map _ hn) (List.Nodup.of_map _ hn')).mpr (fun r => ?_)
  constructor
  · intro hr
    exact (row_some ((h (key r)).symm.trans (row_of_mem hn hr))).1
  · intro hr
    exact (row_some ((h (key r)).trans (row_of_mem hn' hr))).1

/-- With unique keys a row is the only one with its key. -/
lemma filter_key_of_mem {rows : List α} (hn : (rows.map key).Nodup) {r : α} (hr : r ∈ rows) :
    rows.filter (fun x => key x = key r) = [r] := by
  induction rows with
  | nil => cases hr
  | cons x rows ih =>
    rw [List.map_cons, List.nodup_cons] at hn
    rcases List.mem_cons.mp hr with rfl | hr
    · have hrest : rows.filter (fun x => key x = key r) = [] := by
        rw [List.filter_eq_nil_iff]
        intro y hy heq
        have heq : key y = key r := of_decide_eq_true heq
        exact hn.1 (heq ▸ List.mem_map_of_mem hy)
      rw [List.filter_cons_of_pos (by simp), hrest]
    · have hne : key x ≠ key r := fun heq => hn.1 (heq ▸ List.mem_map_of_mem hr)
      rw [List.filter_cons_of_neg (by simpa using hne), ih hn.2 hr]

@[simp] lemma map_key_put (r : α) (rows : List α) : (put key r rows).map key = rows.map key := by
  unfold put
  rw [List.map_map]
  apply List.map_congr_left
  intro r' _
  by_cases h : key r' = key r <;> simp [h]

/-- A column that the new row shares with the row it replaces does not change. -/
lemma map_put_of_agrees {β : Type} {f : α → β} {r : α} {rows : List α}
    (h : ∀ x ∈ rows, key x = key r → f x = f r) : (put key r rows).map f = rows.map f := by
  unfold put
  rw [List.map_map]
  apply List.map_congr_left
  intro x hx
  by_cases hk : key x = key r
  · simp [hk, h x hx hk]
  · simp [hk]

lemma mem_put {r r' : α} {rows : List α} :
    r' ∈ put key r rows ↔ (r' = r ∧ key r ∈ rows.map key) ∨ (r' ∈ rows ∧ key r' ≠ key r) := by
  simp only [put, List.mem_map]
  constructor
  · rintro ⟨x, hx, rfl⟩
    by_cases h : key x = key r
    · exact .inl ⟨by simp [h], x, hx, h⟩
    · exact .inr (by simpa [h] using hx)
  · rintro (⟨rfl, x, hx, hk⟩ | ⟨hm, hk⟩)
    · exact ⟨x, hx, by simp [hk]⟩
    · exact ⟨r', hm, by simp [hk]⟩

lemma row_put_self {r : α} {rows : List α} (h : key r ∈ rows.map key) :
    row key (key r) (put key r rows) = some r := by
  obtain ⟨r', hr'⟩ : ∃ r', row key (key r) (put key r rows) = some r' := row_isSome_iff.mpr (by simpa using h)
  obtain ⟨hm, hk⟩ := row_some hr'
  rcases mem_put.mp hm with ⟨rfl, _⟩ | ⟨_, hne⟩
  · exact hr'
  · exact absurd hk hne

lemma row_put_of_ne {k : κ} {r : α} (rows : List α) (h : k ≠ key r) :
    row key k (put key r rows) = row key k rows := by
  induction rows with
  | nil => rfl
  | cons x rows ih =>
    simp only [row, put, List.map_cons, List.find?_cons] at ih ⊢
    by_cases hx : key x = key r
    · have hxk : key x ≠ k := fun he => h (he ▸ hx)
      simp only [hx, if_true, h.symm, decide_false, ih]
    · simp only [hx, if_false, ih]

lemma row_append_of_some {k : κ} {rows extra : List α} {r : α} (h : row key k rows = some r) :
    row key k (rows ++ extra) = some r := by
  simp only [row] at h ⊢
  simp [List.find?_append, h]

lemma row_append_of_none {k : κ} {rows extra : List α} (h : row key k rows = none) :
    row key k (rows ++ extra) = row key k extra := by
  simp only [row] at h ⊢
  simp [List.find?_append, h]

variable (key) in
lemma row_upsert_self (r : α) (rows : List α) : row key (key r) (upsert key r rows) = some r := by
  unfold upsert
  split
  · exact row_put_self ‹_›
  · rw [row_append_of_none (row_eq_none_iff.mpr ‹_›)]
    simp [row]

lemma row_upsert_of_ne {k : κ} {r : α} (rows : List α) (h : k ≠ key r) :
    row key k (upsert key r rows) = row key k rows := by
  unfold upsert
  split
  · exact row_put_of_ne rows h
  · cases hk : row key k rows with
    | none =>
      rw [row_append_of_none hk]
      simp [row, h.symm]
    | some r' => exact row_append_of_some hk

variable (key) in
/-- The table that the given rows make, written one after the other. -/
def tableOf (entries : List α) : List α :=
  entries.foldl (fun rows r => upsert key r rows) []

/-- Of the rows written under one key the last stays. -/
lemma row_tableOf (k : κ) (entries : List α) :
    row key k (tableOf key entries) = (entries.filter (fun r => key r = k)).getLast? := by
  induction entries using List.reverseRecOn with
  | nil => rfl
  | append_singleton entries r ih =>
    have hstep : tableOf key (entries ++ [r]) = upsert key r (tableOf key entries) := by simp [tableOf]
    rw [hstep]
    by_cases hk : key r = k
    · subst hk
      simp [row_upsert_self]
    · rw [row_upsert_of_ne _ (Ne.symm hk), ih]
      simp [hk]

lemma row_filter_self (k : κ) (rows : List α) : row key k (rows.filter (fun r => key r ≠ k)) = none := by
  rw [row_eq_none_iff]
  simp

lemma row_filter_of_ne {k k' : κ} (rows : List α) (h : k' ≠ k) :
    row key k' (rows.filter (fun r => key r ≠ k)) = row key k' rows := by
  unfold row
  rw [List.find?_filter]
  congr 1
  ext r
  by_cases hr : key r = k' <;> simp [hr, h]

lemma mem_map_key_upsert {k : κ} {r : α} {rows : List α} :
    k ∈ (upsert key r rows).map key ↔ k = key r ∨ k ∈ rows.map key := by
  unfold upsert
  split
  · rw [map_key_put]
    exact ⟨.inr, fun h => h.elim (fun hk => hk ▸ ‹_›) id⟩
  · rw [List.map_append, List.mem_append, List.map_singleton, List.mem_singleton, or_comm]

lemma mem_upsert_iff {r r' : α} {rows : List α} :
    r' ∈ upsert key r rows ↔ r' = r ∨ r' ∈ rows ∧ key r' ≠ key r := by
  unfold upsert
  split
  · rename_i h
    rw [mem_put, and_iff_left h]
  · rename_i h
    rw [List.mem_append, List.mem_singleton, or_comm]
    have hkey : r' ∈ rows → key r' ≠ key r := fun hr heq => h (heq ▸ List.mem_map_of_mem hr)
    exact or_congr_right ⟨fun hr => ⟨hr, hkey hr⟩, And.left⟩

lemma mem_upsert {r r' : α} {rows : List α} (h : r' ∈ upsert key r rows) : r' = r ∨ r' ∈ rows :=
  (mem_upsert_iff.mp h).imp_right And.left

variable (key) in
lemma map_key_upsert (r : α) (rows : List α) : (upsert key r rows).map key =
    if key r ∈ rows.map key then rows.map key else rows.map key ++ [key r] := by
  unfold upsert
  split
  · exact map_key_put r rows
  · rw [List.map_append, List.map_singleton]

omit [DecidableEq κ] in
lemma nodup_append_of_fresh {rows : List α} {r : α} (hn : (rows.map key).Nodup)
    (hr : key r ∉ rows.map key) : ((rows ++ [r]).map key).Nodup := by
  rw [List.map_append, List.nodup_append]
  refine ⟨hn, by simp, ?_⟩
  intro a ha b hb
  simp only [List.map_cons, List.map_nil, List.mem_singleton] at hb
  rintro rfl
  exact hr (hb ▸ ha)

/-- The second of two writes of one key is the one that counts. -/
lemma put_put {r r' : α} (h : key r' = key r) (rows : List α) : put key r' (put key r rows) = put key r' rows := by
  unfold put
  rw [List.map_map]
  refine List.map_congr_left (fun x _ => ?_)
  by_cases hx : key x = key r
  · simp [hx, h]
  · simp [hx, h]

lemma filter_put (r : α) (rows : List α) :
    (put key r rows).filter (fun x => key x ≠ key r) = rows.filter (fun x => key x ≠ key r) := by
  unfold put
  induction rows with
  | nil => rfl
  | cons x rows ih =>
    rw [List.map_cons]
    by_cases hx : key x = key r
    · rw [if_pos hx, List.filter_cons_of_neg (by simp), List.filter_cons_of_neg (by simp [hx]), ih]
    · rw [if_neg hx, List.filter_cons_of_pos (by simp [hx]), List.filter_cons_of_pos (by simp [hx]), ih]

lemma upsert_upsert {r r' : α} (h : key r' = key r) (rows : List α) :
    upsert key r' (upsert key r rows) = upsert key r' rows := by
  have hmem : key r' ∈ (upsert key r rows).map key := by
    rw [h]
    exact mem_map_key_upsert.mpr (.inl rfl)
  rw [upsert, if_pos hmem]
  unfold upsert
  by_cases hr : key r ∈ rows.map key
  · rw [if_pos hr, if_pos (by rwa [h]), put_put h]
  · rw [if_neg hr, if_neg (by rwa [h])]
    have hrows : put key r' rows = rows := by
      unfold put
      conv_rhs => rw [← List.map_id rows]
      refine List.map_congr_left (fun x hx => ?_)
      have hne : key x ≠ key r' := fun he => hr (by rw [← h, ← he]; exact List.mem_map_of_mem hx)
      rw [if_neg hne]
      rfl
    rw [put, List.map_append, ← put, hrows]
    simp [h]

lemma nodup_upsert {rows : List α} (hn : (rows.map key).Nodup) (r : α) : ((upsert key r rows).map key).Nodup := by
  unfold upsert
  split
  · rwa [map_key_put]
  · exact nodup_append_of_fresh hn ‹_›

/-- Writing a row and then mapping the table is mapping it and then writing the mapped row. -/
lemma map_upsert {β : Type} {key' : β → κ} {f : α → β} (hf : ∀ r, key' (f r) = key r) (r : α) (rows : List α) :
    (upsert key r rows).map f = upsert key' (f r) (rows.map f) := by
  have hkeys : (rows.map f).map key' = rows.map key := by
    rw [List.map_map]
    exact List.map_congr_left (fun r _ => hf r)
  unfold upsert
  rw [hkeys, hf]
  by_cases h : key r ∈ rows.map key
  · rw [if_pos h, if_pos h, put, put, List.map_map, List.map_map]
    apply List.map_congr_left
    intro r' _
    simp only [Function.comp_apply, hf]
    split <;> rfl
  · rw [if_neg h, if_neg h, List.map_append, List.map_singleton]

omit [DecidableEq κ] in
lemma nodup_filter {rows : List α} (hn : (rows.map key).Nodup) (p : α → Bool) : ((rows.filter p).map key).Nodup :=
  hn.sublist (List.filter_sublist.map key)

/-- With unique keys a filter keeps or drops the row of a key. -/
lemma row_filter {rows : List α} (hn : (rows.map key).Nodup) (p : α → Bool) (k : κ) :
    row key k (rows.filter p) = (row key k rows).filter p := by
  apply Option.ext
  intro r
  rw [row_iff_mem (nodup_filter hn p), List.mem_filter, Option.filter_eq_some_iff, row_iff_mem hn]
  tauto

/-- Rewriting rows under their keys rewrites the row of a key. -/
lemma row_map {f : α → α} (hf : ∀ r, key (f r) = key r) (k : κ) (rows : List α) :
    row key k (rows.map f) = (row key k rows).map f := by
  unfold row
  rw [List.find?_map]
  congr 2
  funext r
  simp [hf r]

omit [DecidableEq κ] in
/-- With unique keys a filter on one key finds one row at most. -/
lemma filter_eq_singleton {rows : List α} (hn : (rows.map key).Nodup) {p : α → Bool} {r : α} (hr : r ∈ rows)
    (hp : p r) (hkey : ∀ r', p r' → key r' = key r) : rows.filter p = [r] := by
  induction rows with
  | nil => simp at hr
  | cons x rows ih =>
    obtain ⟨hx, hrows⟩ := List.nodup_cons.mp hn
    by_cases hpx : p x
    · have hxr : x = r := eq_of_key_eq hn List.mem_cons_self hr (hkey x hpx)
      have hrest : rows.filter p = [] := List.filter_eq_nil_iff.mpr (fun y hy hpy =>
        hx (by rw [hxr, ← hkey y hpy]; exact List.mem_map_of_mem hy))
      rw [List.filter_cons_of_pos hpx, hrest, hxr]
    · rw [List.filter_cons_of_neg hpx]
      rcases List.mem_cons.mp hr with rfl | hr
      · exact absurd hp hpx
      · exact ih hrows hr

/-! ### The weight of a table -/

section Weight

open Weights

variable {M : Type} [AddCommGroup M] (w : α → M)

variable (key) in
/-- The weight of the row with key `k`, if there is one. -/
def rowWeight (k : κ) (rows : List α) : M :=
  (row key k rows).elim 0 w

lemma weight_put {rows : List α} (hn : (rows.map key).Nodup) {r : α} (h : key r ∈ rows.map key) :
    weight w (put key r rows) = weight w rows + w r - rowWeight key w (key r) rows := by
  induction rows with
  | nil => simp at h
  | cons x rows ih =>
    rw [List.map_cons, List.nodup_cons] at hn
    by_cases hx : key x = key r
    · have hrest : put key r rows = rows := by
        unfold put
        refine (List.map_congr_left (fun y hy => ?_)).trans (List.map_id rows)
        have hy : key y ≠ key r := fun he => hn.1 (by rw [hx, ← he]; exact List.mem_map_of_mem hy)
        simp [hy]
      have hcons : put key r (x :: rows) = r :: put key r rows := by simp [put, hx]
      have hrow : rowWeight key w (key r) (x :: rows) = w x := by simp [rowWeight, row, hx]
      rw [hcons, hrest, hrow, weight_cons, weight_cons]
      abel
    · have hmem : key r ∈ rows.map key := by
        rcases List.mem_cons.mp h with he | hm
        · exact absurd he.symm hx
        · exact hm
      have hcons : put key r (x :: rows) = x :: put key r rows := by simp [put, hx]
      have hrow : rowWeight key w (key r) (x :: rows) = rowWeight key w (key r) rows := by
        simp [rowWeight, row, hx]
      rw [hcons, hrow, weight_cons, weight_cons, ih hn.2 hmem]
      abel

/-- A write changes the weight of the table by what it changes in the row. -/
lemma weight_upsert {rows : List α} (hn : (rows.map key).Nodup) (r : α) :
    weight w (upsert key r rows) = weight w rows + w r - rowWeight key w (key r) rows := by
  unfold upsert
  by_cases h : key r ∈ rows.map key
  · rw [if_pos h, weight_put w hn h]
  · have hrow : rowWeight key w (key r) rows = 0 := by simp [rowWeight, row_eq_none_iff.mpr h]
    rw [if_neg h, hrow, weight_append, weight_cons, weight_nil, add_zero, sub_zero]

/-- The rows of one key weigh what the row of that key does. -/
lemma weight_of_key {rows : List α} (hn : (rows.map key).Nodup) (k : κ) :
    weight (fun r => if key r = k then w r else 0) rows = rowWeight key w k rows := by
  induction rows with
  | nil => rfl
  | cons x rows ih =>
    rw [List.map_cons, List.nodup_cons] at hn
    rw [weight_cons, ih hn.2]
    by_cases hx : key x = k
    · have hrest : rowWeight key w k rows = 0 := by simp [rowWeight, row_eq_none_iff.mpr (hx ▸ hn.1)]
      rw [if_pos hx, hrest, add_zero]
      simp [rowWeight, row, hx]
    · rw [if_neg hx, zero_add]
      simp [rowWeight, row, hx]

lemma rowWeight_upsert (k : κ) (r : α) (rows : List α) :
    rowWeight key w k (upsert key r rows) = if k = key r then w r else rowWeight key w k rows := by
  unfold rowWeight
  by_cases h : k = key r
  · rw [if_pos h, h, row_upsert_self]
    rfl
  · rw [if_neg h, row_upsert_of_ne rows h]

/-- Taking a row out takes its weight out. -/
lemma weight_filter_key {rows : List α} (hn : (rows.map key).Nodup) (k : κ) :
    weight w (rows.filter (fun r => key r ≠ k)) = weight w rows - rowWeight key w k rows := by
  induction rows with
  | nil => simp [rowWeight, row]
  | cons x rows ih =>
    rw [List.map_cons, List.nodup_cons] at hn
    by_cases hx : key x = k
    · have hrest : rows.filter (fun r => key r ≠ k) = rows := by
        refine List.filter_eq_self.mpr (fun y hy => ?_)
        have hy : key y ≠ k := fun he => hn.1 (by rw [hx, ← he]; exact List.mem_map_of_mem hy)
        simp [hy]
      have hrow : rowWeight key w k (x :: rows) = w x := by simp [rowWeight, row, hx]
      rw [List.filter_cons_of_neg (by simp [hx]), hrest, hrow, weight_cons]
      abel
    · have hrow : rowWeight key w k (x :: rows) = rowWeight key w k rows := by
        simp [rowWeight, row, hx]
      rw [List.filter_cons_of_pos (by simp [hx]), hrow, weight_cons, weight_cons, ih hn.2]
      abel

end Weight

end KeyedTable
