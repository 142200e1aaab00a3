import CryptoTrader.Lib.KeyedTable

/-!
# Tables in which the first row of a key stays

A row is stored unless there is one with its key, and a column of a stored row is rewritten
later. What such a table has under a key is the first row that was stored under it, with the
updates of the key that followed (`row_writes_iff`); updates before it are lost.
-/

namespace FirstWrite

open KeyedTable

/-- A write to a table of rows `α` with keys `κ`, in which a column of type `σ` is updated. -/
inductive Write (α κ σ : Type)
  | store (r : α)
  | update (k : κ) (value : σ)
  deriving DecidableEq, Repr

variable {α κ σ : Type} [DecidableEq κ] (key : α → κ) (set : σ → α → α)

def write (rows : List α) : Write α κ σ → List α
  | .store r => if key r ∈ rows.map key then rows else rows ++ [r]
  | .update k value => rows.map (fun r => if key r = k then set value r else r)

def table (writes : List (Write α κ σ)) : List α :=
  writes.foldl (write key set) []

/-- The updates of a key, in order. -/
def updatesOf (k : κ) (writes : List (Write α κ σ)) : List σ :=
  writes.filterMap fun
    | .store _ => none
    | .update k' value => if k' = k then some value else none

/-- A row under the key is among the writes. -/
def Stores (k : κ) (writes : List (Write α κ σ)) : Prop :=
  ∃ r, .store r ∈ writes ∧ key r = k

/-- The row is the first that is stored under its key, with the updates that follow. -/
def FirstStored (writes : List (Write α κ σ)) (r : α) : Prop :=
  ∃ before first after, writes = before ++ .store first :: after ∧ ¬ Stores key (key first) before ∧
    r = (updatesOf (key first) after).foldl (fun r value => set value r) first

variable {key set}

lemma table_concat (writes : List (Write α κ σ)) (w : Write α κ σ) :
    table key set (writes ++ [w]) = write key set (table key set writes) w := by
  simp [table]

lemma updatesOf_concat (k : κ) (writes : List (Write α κ σ)) (w : Write α κ σ) :
    updatesOf k (writes ++ [w]) = updatesOf k writes ++ updatesOf k [w] :=
  List.filterMap_append

omit [DecidableEq κ] in
lemma stores_concat {k : κ} {writes : List (Write α κ σ)} {w : Write α κ σ} :
    Stores key k (writes ++ [w]) ↔ Stores key k writes ∨ ∃ r, w = .store r ∧ key r = k := by
  unfold Stores
  constructor
  · rintro ⟨r, hr, hk⟩
    rcases List.mem_append.mp hr with hr | hr
    · exact .inl ⟨r, hr, hk⟩
    · exact .inr ⟨r, (List.mem_singleton.mp hr).symm, hk⟩
  · rintro (⟨r, hr, hk⟩ | ⟨r, rfl, hk⟩)
    · exact ⟨r, List.mem_append_left _ hr, hk⟩
    · exact ⟨r, List.mem_append_right _ (List.mem_singleton.mpr rfl), hk⟩

variable (hset : ∀ value r, key (set value r) = key r)
include hset

omit [DecidableEq κ] in
lemma key_updates (values : List σ) (r : α) : key (values.foldl (fun r value => set value r) r) = key r := by
  induction values generalizing r with
  | nil => rfl
  | cons value values ih => rw [List.foldl_cons, ih, hset]

lemma map_key_write (rows : List α) (w : Write α κ σ) : (write key set rows w).map key =
    match w with
    | .store r => if key r ∈ rows.map key then rows.map key else rows.map key ++ [key r]
    | .update _ _ => rows.map key := by
  cases w with
  | store r =>
    simp only [write]
    split_ifs <;> simp
  | update k value =>
    simp only [write, List.map_map]
    refine List.map_congr_left (fun r _ => ?_)
    simp only [Function.comp_apply]
    split_ifs
    · exact hset value r
    · rfl

lemma nodup_table (writes : List (Write α κ σ)) : ((table key set writes).map key).Nodup := by
  induction writes using List.reverseRecOn with
  | nil => exact List.nodup_nil
  | append_singleton writes w ih =>
    rw [table_concat, map_key_write hset]
    cases w with
    | store r =>
      dsimp only
      split_ifs with hmem
      · exact ih
      · exact List.nodup_append.mpr ⟨ih, List.pairwise_singleton _ _, fun a ha b hb => by
          rw [List.mem_singleton.mp hb]
          rintro rfl
          exact hmem ha⟩
    | update k value => exact ih

/-- A key is in the table if and only if a row has been stored under it. -/
lemma mem_keys_iff (k : κ) (writes : List (Write α κ σ)) : k ∈ (table key set writes).map key ↔ Stores key k writes := by
  induction writes using List.reverseRecOn with
  | nil => simp [table, Stores]
  | append_singleton writes w ih =>
    rw [table_concat, map_key_write hset, stores_concat, ← ih]
    cases w with
    | store r =>
      dsimp only
      split_ifs with hmem
      · refine ⟨Or.inl, ?_⟩
        rintro (h | ⟨r', heq, rfl⟩)
        · exact h
        · cases heq
          exact hmem
      · rw [List.mem_append, List.mem_singleton]
        refine or_congr_right ⟨fun h => ⟨r, rfl, h.symm⟩, ?_⟩
        rintro ⟨r', heq, rfl⟩
        cases heq
        rfl
    | update k' value => simp

omit hset in
lemma firstStored_store {writes : List (Write α κ σ)} {x r : α} : FirstStored key set (writes ++ [.store x]) r ↔
    FirstStored key set writes r ∨ (¬ Stores key (key x) writes ∧ r = x) := by
  constructor
  · rintro ⟨before, first, after, hsplit, hfresh, rfl⟩
    rcases List.eq_nil_or_concat after with rfl | ⟨after, w, rfl⟩
    · obtain ⟨rfl, hw⟩ := List.append_inj' hsplit rfl
      cases hw
      exact .inr ⟨hfresh, rfl⟩
    · rw [List.concat_eq_append, ← List.cons_append, ← List.append_assoc] at hsplit
      obtain ⟨hwrites, hw⟩ := List.append_inj' hsplit rfl
      cases hw
      refine .inl ⟨before, first, after, hwrites, hfresh, ?_⟩
      rw [List.concat_eq_append, updatesOf_concat]
      simp [updatesOf]
  · rintro (⟨before, first, after, rfl, hfresh, rfl⟩ | ⟨hfresh, rfl⟩)
    · refine ⟨before, first, after ++ [.store x], by simp, hfresh, ?_⟩
      rw [updatesOf_concat]
      simp [updatesOf]
    · exact ⟨writes, r, [], rfl, hfresh, rfl⟩

lemma firstStored_update {writes : List (Write α κ σ)} {k : κ} {value : σ} {r : α} :
    FirstStored key set (writes ++ [.update k value]) r ↔
      ∃ r', FirstStored key set writes r' ∧ (if key r' = k then set value r' else r') = r := by
  have hupdates (first : α) (after : List (Write α κ σ)) :
      (updatesOf (key first) (after ++ [.update k value])).foldl (fun r value => set value r) first =
        if key ((updatesOf (key first) after).foldl (fun r value => set value r) first) = k then
          set value ((updatesOf (key first) after).foldl (fun r value => set value r) first)
        else (updatesOf (key first) after).foldl (fun r value => set value r) first := by
    rw [updatesOf_concat, List.foldl_append, key_updates hset]
    by_cases hk : key first = k
    · simp [updatesOf, hk]
    · simp [updatesOf, hk, Ne.symm hk]
  constructor
  · rintro ⟨before, first, after, hsplit, hfresh, rfl⟩
    rcases List.eq_nil_or_concat after with rfl | ⟨after, w, rfl⟩
    · obtain ⟨-, hw⟩ := List.append_inj' hsplit rfl
      cases hw
    · rw [List.concat_eq_append, ← List.cons_append, ← List.append_assoc] at hsplit
      obtain ⟨hwrites, hw⟩ := List.append_inj' hsplit rfl
      cases hw
      exact ⟨_, ⟨before, first, after, hwrites, hfresh, rfl⟩, by rw [List.concat_eq_append, hupdates]⟩
  · rintro ⟨r', ⟨before, first, after, rfl, hfresh, rfl⟩, rfl⟩
    exact ⟨before, first, after ++ [.update k value], by simp, hfresh, (hupdates first after).symm⟩

/-- The rows of the table are the first ones of their keys, with the updates that followed. -/
theorem mem_table_iff (writes : List (Write α κ σ)) (r : α) :
    r ∈ table key set writes ↔ FirstStored key set writes r := by
  induction writes using List.reverseRecOn generalizing r with
  | nil => simp [table, FirstStored]
  | append_singleton writes w ih =>
    rw [table_concat]
    cases w with
    | store x =>
      rw [firstStored_store, ← ih, ← mem_keys_iff hset, write]
      split_ifs with hmem
      · exact ⟨Or.inl, fun h => h.elim id (fun h => absurd hmem h.1)⟩
      · rw [List.mem_append, List.mem_singleton]
        exact or_congr_right ⟨fun h => ⟨hmem, h⟩, And.right⟩
    | update k value =>
      rw [firstStored_update hset, write, List.mem_map]
      simp only [ih]

end FirstWrite
