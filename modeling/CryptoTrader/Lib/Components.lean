import CryptoTrader.Lib.Excepts
import Mathlib.Algebra.BigOperators.Group.Finset.Basic
import Mathlib.Data.List.Perm.Basic

/-!
# Runs that act on components

Each step of a run acts on the component of the state that its key names, or on none, and may raise.
Such a run returns if and only if the steps of each key go through on their component, so two
interleavings of the same steps return together and leave the same components. What the steps add up
to is the same too, where they add in commuting ways, or add what depends on their component.
-/

namespace Components

open Excepts

variable {σ ι κ S ε M : Type} [DecidableEq κ]

/-- A step acts on the component of its key alone, and returns exactly if it can act; a step without a key if it is fine. -/
structure Acts (step : σ → ι → Except ε σ) (comp : κ → σ → S) (key : ι → Option κ) (act : S → ι → Option S)
    (fine : ι → Prop) : Prop where
  keyed : ∀ {s i k}, key i = some k → (Returns (step s i) ↔ (act (comp k s) i).isSome = true)
  unkeyed : ∀ {s i}, key i = none → (Returns (step s i) ↔ fine i)
  own : ∀ {s s' i k}, step s i = .ok s' → key i = some k → act (comp k s) i = some (comp k s')
  others : ∀ {s s' i k}, step s i = .ok s' → key i ≠ some k → comp k s' = comp k s

/-- The same steps, and those of each key in the same order. -/
structure Interleaved (key : ι → Option κ) (l l' : List ι) : Prop where
  perm : l.Perm l'
  order : ∀ k, l.filter (fun i => key i = some k) = l'.filter (fun i => key i = some k)

lemma Interleaved.filter {key : ι → Option κ} {l l' : List ι} (h : Interleaved key l l') (p : ι → Bool) :
    Interleaved key (l.filter p) (l'.filter p) where
  perm := h.perm.filter p
  order := fun k => by rw [List.filter_comm, h.order k, List.filter_comm]

section Runs

variable {step : σ → ι → Except ε σ} {comp : κ → σ → S} {key : ι → Option κ} {act : S → ι → Option S} {fine : ι → Prop}
  {s s' s₁ s₂ : σ} {i : ι} {l l' : List ι}

lemma foldlM_cons_ok_iff : (i :: l).foldlM step s = .ok s' ↔ ∃ next, step s i = .ok next ∧ l.foldlM step next = .ok s' := by
  rw [List.foldlM_cons]
  exact bind_ok_iff

lemma returns_cons : Returns ((i :: l).foldlM step s) ↔ ∃ next, step s i = .ok next ∧ Returns (l.foldlM step next) := by
  rw [List.foldlM_cons]
  exact returns_bind

variable (h : Acts step comp key act fine)
include h

/-- A component is left as its own steps leave it. -/
lemma Acts.comp_run (hok : l.foldlM step s = .ok s') (k : κ) :
    (l.filter (fun i => key i = some k)).foldlM act (comp k s) = some (comp k s') := by
  induction l generalizing s with
  | nil =>
    obtain rfl := Except.ok.inj hok
    rfl
  | cons i l ih =>
    obtain ⟨next, hstep, hrest⟩ := foldlM_cons_ok_iff.mp hok
    by_cases hk : key i = some k
    · rw [List.filter_cons_of_pos (by simpa using hk), List.foldlM_cons, h.own hstep hk]
      exact ih hrest
    · rw [List.filter_cons_of_neg (by simpa using hk), ← h.others hstep hk]
      exact ih hrest

/-- A run returns if and only if the steps of each key go through, and those without a key are fine. -/
lemma Acts.returns_iff : Returns (l.foldlM step s) ↔ (∀ i ∈ l, key i = none → fine i) ∧
    ∀ k, ((l.filter (fun i => key i = some k)).foldlM act (comp k s)).isSome = true := by
  induction l generalizing s with
  | nil => exact iff_of_true (returns_ok s) ⟨by simp, fun k => rfl⟩
  | cons i l ih =>
    rw [returns_cons]
    constructor
    · rintro ⟨next, hstep, hrest⟩
      obtain ⟨hfine, hall⟩ := ih.mp hrest
      refine ⟨fun j hj hkey => ?_, fun k => ?_⟩
      · rcases List.mem_cons.mp hj with rfl | hj
        · exact (h.unkeyed hkey).mp ⟨next, hstep⟩
        · exact hfine j hj hkey
      · by_cases hk : key i = some k
        · rw [List.filter_cons_of_pos (by simpa using hk), List.foldlM_cons, h.own hstep hk]
          exact hall k
        · rw [List.filter_cons_of_neg (by simpa using hk), ← h.others hstep hk]
          exact hall k
    · rintro ⟨hfine, hall⟩
      obtain ⟨next, hstep⟩ : Returns (step s i) := by
        cases hkey : key i with
        | none => exact (h.unkeyed hkey).mpr (hfine i (by simp) hkey)
        | some k =>
          have hk := hall k
          rw [List.filter_cons_of_pos (by simpa using hkey), List.foldlM_cons] at hk
          refine (h.keyed hkey).mpr ?_
          cases hact : act (comp k s) i with
          | none => simp [hact] at hk
          | some c => rfl
      refine ⟨next, hstep, ih.mpr ⟨fun j hj => hfine j (List.mem_cons_of_mem i hj), fun k => ?_⟩⟩
      have hk := hall k
      by_cases hkey : key i = some k
      · rw [List.filter_cons_of_pos (by simpa using hkey), List.foldlM_cons, h.own hstep hkey] at hk
        exact hk
      · rw [List.filter_cons_of_neg (by simpa using hkey), ← h.others hstep hkey] at hk
        exact hk

lemma Acts.returns_interleaved (hl : Interleaved key l l') : Returns (l.foldlM step s) ↔ Returns (l'.foldlM step s) := by
  rw [h.returns_iff, h.returns_iff]
  refine and_congr ?_ (forall_congr' (fun k => by rw [hl.order k]))
  exact ⟨fun hf i hi => hf i (hl.perm.mem_iff.mpr hi), fun hf i hi => hf i (hl.perm.mem_iff.mp hi)⟩

lemma Acts.comp_interleaved (hl : Interleaved key l l') (h₁ : l.foldlM step s = .ok s₁) (h₂ : l'.foldlM step s = .ok s₂)
    (k : κ) : comp k s₁ = comp k s₂ := by
  have hleft := h.comp_run h₁ k
  rw [hl.order k, h.comp_run h₂ k] at hleft
  exact (Option.some.inj hleft).symm

end Runs

/-! ### Tallies -/

section Tallies

variable {step : σ → ι → Except ε σ} {Φ : σ → M} {g : M → ι → M} (hΦ : ∀ {s s' i}, step s i = .ok s' → Φ s' = g (Φ s) i)
include hΦ

lemma tally_run {s s' : σ} {l : List ι} (hok : l.foldlM step s = .ok s') : Φ s' = l.foldl g (Φ s) := by
  induction l generalizing s with
  | nil =>
    obtain rfl := Except.ok.inj hok
    rfl
  | cons i l ih =>
    obtain ⟨next, hstep, hrest⟩ := foldlM_cons_ok_iff.mp hok
    rw [ih hrest, hΦ hstep, List.foldl_cons]

/-- What the steps do to a part in ways that commute does not depend on their order. -/
lemma tally_perm [RightCommutative g] {s s₁ s₂ : σ} {l l' : List ι} (hl : l.Perm l') (h₁ : l.foldlM step s = .ok s₁)
    (h₂ : l'.foldlM step s = .ok s₂) : Φ s₁ = Φ s₂ := by
  rw [tally_run hΦ h₁, tally_run hΦ h₂, hl.foldl_eq]

end Tallies

/-! ### Sums over the components -/

section Sums

variable [AddCommMonoid M]

/-- What the steps on one component give, one after the other. -/
def given (act : S → ι → Option S) (f : S → ι → M) : S → List ι → M
  | _, [] => 0
  | c, i :: l => f c i + (act c i).elim 0 (fun c' => given act f c' l)

variable {step : σ → ι → Except ε σ} {comp : κ → σ → S} {key : ι → Option κ} {act : S → ι → Option S} {fine : ι → Prop}
  {Φ : σ → M} {f : S → ι → M} {g : ι → M} (h : Acts step comp key act fine)
  (hkeyed : ∀ {s s' i k}, step s i = .ok s' → key i = some k → Φ s' = Φ s + f (comp k s) i)
  (hunkeyed : ∀ {s s' i}, step s i = .ok s' → key i = none → Φ s' = Φ s + g i)
include h hkeyed hunkeyed

/-- What a step adds may depend on its component: the sum is that of the components. -/
lemma sum_run {s s' : σ} {l : List ι} {keys : Finset κ} (hkeys : ∀ i ∈ l, ∀ k, key i = some k → k ∈ keys)
    (hok : l.foldlM step s = .ok s') :
    Φ s' = Φ s + (∑ k ∈ keys, given act f (comp k s) (l.filter (fun i => key i = some k))) +
      ((l.filter (fun i => key i = none)).map g).sum := by
  induction l generalizing s with
  | nil =>
    obtain rfl := Except.ok.inj hok
    simp [given]
  | cons i l ih =>
    obtain ⟨next, hstep, hrest⟩ := foldlM_cons_ok_iff.mp hok
    rw [ih (fun j hj => hkeys j (List.mem_cons_of_mem i hj)) hrest]
    cases hkey : key i with
    | none =>
      have hsame (k : κ) : given act f (comp k next) (l.filter (fun i => key i = some k)) =
          given act f (comp k s) ((i :: l).filter (fun i => key i = some k)) := by
        rw [List.filter_cons_of_neg (by simp [hkey]), h.others hstep (by simp [hkey])]
      rw [List.filter_cons_of_pos (by simpa using hkey), List.map_cons, List.sum_cons, hunkeyed hstep hkey]
      simp only [hsame]
      rw [add_assoc, add_assoc, add_assoc]
      congr 1
      rw [← add_assoc, ← add_assoc, add_comm (g i)]
    | some k₀ =>
      have hmem : k₀ ∈ keys := hkeys i (by simp) k₀ hkey
      have hother : ∀ k ∈ keys.erase k₀, given act f (comp k next) (l.filter (fun i => key i = some k)) =
          given act f (comp k s) ((i :: l).filter (fun i => key i = some k)) := by
        intro k hk
        have hne : key i ≠ some k := by
          rw [hkey]
          exact fun he => (Finset.ne_of_mem_erase hk) (Option.some.inj he).symm
        rw [List.filter_cons_of_neg (by simpa using hne), h.others hstep hne]
      have hown : given act f (comp k₀ s) ((i :: l).filter (fun i => key i = some k₀)) =
          f (comp k₀ s) i + given act f (comp k₀ next) (l.filter (fun i => key i = some k₀)) := by
        rw [List.filter_cons_of_pos (by simpa using hkey), given, h.own hstep hkey]
        rfl
      rw [List.filter_cons_of_neg (by simp [hkey]), hkeyed hstep hkey, ← Finset.add_sum_erase keys _ hmem,
        ← Finset.add_sum_erase keys _ hmem, Finset.sum_congr rfl hother, hown]
      simp only [add_assoc]

/-- Two interleavings add up to the same. -/
lemma sum_interleaved {s s₁ s₂ : σ} {l l' : List ι} (hl : Interleaved key l l') (h₁ : l.foldlM step s = .ok s₁)
    (h₂ : l'.foldlM step s = .ok s₂) : Φ s₁ = Φ s₂ := by
  have hkeys : ∀ i ∈ l, ∀ k, key i = some k → k ∈ (l.filterMap key).toFinset := by
    intro i hi k hk
    exact List.mem_toFinset.mpr (List.mem_filterMap.mpr ⟨i, hi, hk⟩)
  rw [sum_run h hkeyed hunkeyed hkeys h₁, sum_run h hkeyed hunkeyed (fun i hi => hkeys i (hl.perm.mem_iff.mpr hi)) h₂,
    ((hl.perm.filter _).map g).sum_eq]
  simp only [hl.order]

end Sums

instance rightCommutative_add [AddCommMonoid M] (a : ι → M) : RightCommutative (fun m i => m + a i) where
  right_comm m i j := add_right_comm m (a i) (a j)

/-- Folds of what commutes commute. -/
instance rightCommutative_foldl {β : Type} (f : M → β → M) [RightCommutative f] (parts : ι → List β) :
    RightCommutative (fun m i => (parts i).foldl f m) where
  right_comm m i j := by
    rw [← List.foldl_append, ← List.foldl_append]
    exact List.perm_append_comm.foldl_eq m

end Components
