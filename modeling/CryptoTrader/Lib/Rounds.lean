import Mathlib.Data.List.Induction
import Mathlib.Data.List.Perm.Subperm
import Mathlib.Tactic.Common

/-!
# Rounds

A round of a list of observations is over when every name has been observed. `split` cuts a list
into the rounds that are over and the observations since. A set of the names that are observed
tells when a round is over (`covers_iff_length`).
-/

namespace Rounds

variable {α κ : Type} [DecidableEq κ] (name : α → κ) (all : List κ)

/-- Every name is observed. -/
def Covers (l : List α) : Prop :=
  ∀ k ∈ all, k ∈ l.map name

instance (l : List α) : Decidable (Covers name all l) :=
  inferInstanceAs (Decidable (∀ k ∈ all, k ∈ l.map name))

/-- `seen.add(name)`. -/
def mark (seen : List κ) (a : α) : List κ :=
  if name a ∈ seen then seen else seen ++ [name a]

def cut (rounds : List (List α) × List α) (a : α) : List (List α) × List α :=
  if Covers name all (rounds.2 ++ [a]) then (rounds.1 ++ [rounds.2 ++ [a]], [])
  else (rounds.1, rounds.2 ++ [a])

/-- The rounds that are over, and what is observed since. -/
def split (l : List α) : List (List α) × List α :=
  l.foldl (cut name all) ([], [])

variable {name all}

lemma split_concat (l : List α) (a : α) : split name all (l ++ [a]) = cut name all (split name all l) a := by
  simp [split]

lemma split_flatten (l : List α) : (split name all l).1.flatten ++ (split name all l).2 = l := by
  induction l using List.reverseRecOn with
  | nil => rfl
  | append_singleton l a ih =>
    rw [split_concat, cut]
    split_ifs
    · rw [List.flatten_append, List.flatten_singleton, List.append_nil, ← List.append_assoc, ih]
    · rw [← List.append_assoc, ih]

/-- What is observed since does not make a round. -/
lemma split_open (hall : all ≠ []) (l : List α) : ¬ Covers name all (split name all l).2 := by
  have hnil : ¬ Covers name all [] := by
    obtain ⟨k, hk⟩ := List.exists_mem_of_ne_nil all hall
    intro h
    exact absurd (h k hk) List.not_mem_nil
  induction l using List.reverseRecOn with
  | nil => exact hnil
  | append_singleton l a ih =>
    rw [split_concat, cut]
    split_ifs with hc
    · exact hnil
    · exact hc

/-- A round is over with the observation of its last name, and not before. -/
lemma split_rounds (hall : all ≠ []) (l : List α) :
    ∀ r ∈ (split name all l).1, Covers name all r ∧ ¬ Covers name all r.dropLast := by
  induction l using List.reverseRecOn with
  | nil => exact fun r hr => absurd hr List.not_mem_nil
  | append_singleton l a ih =>
    rw [split_concat, cut]
    split_ifs with hc
    · intro r hr
      rcases List.mem_append.mp hr with hr | hr
      · exact ih r hr
      · rw [List.mem_singleton.mp hr, List.dropLast_concat]
        exact ⟨hc, split_open hall l⟩
    · exact ih

/-! ### The names that are seen -/

lemma mem_marks {l : List α} {k : κ} : k ∈ l.foldl (mark name) [] ↔ k ∈ l.map name := by
  induction l using List.reverseRecOn with
  | nil => rfl
  | append_singleton l a ih =>
    rw [List.foldl_append, List.map_append, List.mem_append, ← ih, List.foldl_cons, List.foldl_nil, mark]
    split_ifs with hmem
    · refine ⟨Or.inl, ?_⟩
      rintro (h | h)
      · exact h
      · rw [List.mem_singleton.mp h]
        exact hmem
    · exact List.mem_append

lemma nodup_marks (l : List α) : (l.foldl (mark name) []).Nodup := by
  induction l using List.reverseRecOn with
  | nil => exact List.nodup_nil
  | append_singleton l a ih =>
    rw [List.foldl_append, List.foldl_cons, List.foldl_nil, mark]
    split_ifs with hmem
    · exact ih
    · exact List.nodup_append.mpr ⟨ih, List.pairwise_singleton _ _, fun x hx y hy => by
        rw [List.mem_singleton.mp hy]
        rintro rfl
        exact hmem hx⟩

/-- A round is over when as many names are seen as there are. -/
lemma covers_iff_length {l : List α} (hall : all.Nodup) (hin : ∀ a ∈ l, name a ∈ all) :
    Covers name all l ↔ all.length ≤ (l.foldl (mark name) []).length := by
  have hsubset : l.foldl (mark name) [] ⊆ all := by
    intro k hk
    obtain ⟨a, ha, rfl⟩ := List.mem_map.mp (mem_marks.mp hk)
    exact hin a ha
  constructor
  · intro h
    have hcover : all ⊆ l.foldl (mark name) [] := fun k hk => mem_marks.mpr (h k hk)
    exact (List.subperm_of_subset hall hcover).length_le
  · intro hlength k hk
    have hperm := (List.subperm_of_subset (nodup_marks l) hsubset).perm_of_length_le hlength
    exact mem_marks.mp (hperm.mem_iff.mpr hk)

end Rounds
