import Mathlib.Algebra.Group.Basic
import Mathlib.Data.List.Basic
import Mathlib.Data.List.Induction
import Mathlib.Tactic.Common

/-!
# Runs of a labelled transition system

A system is a total step function; a run is the fold of the step function over the list
of labels, in order. `Along C` says that `C` holds of every step a run takes, `Visits P`
that `P` holds of every state it visits, the first and the last included. A property
whose failure a single step decides holds along a run exactly when every step of the run
meets its guard (`visits_iff_along`). `total f` adds up what `f` gives for each step.
-/

namespace Runs

variable {σ ι : Type} (step : σ → ι → σ)

/-- The state a run ends in. -/
def run (s : σ) (labels : List ι) : σ :=
  labels.foldl step s

/-- `C` holds of every step of the run. -/
def Along (C : σ → ι → Prop) : σ → List ι → Prop
  | _, [] => True
  | s, i :: labels => C s i ∧ Along C (step s i) labels

/-- `P` holds of every state the run visits. -/
def Visits (P : σ → Prop) : σ → List ι → Prop
  | s, [] => P s
  | s, i :: labels => P s ∧ Visits P (step s i) labels

instance decidableAlong (C : σ → ι → Prop) [∀ s i, Decidable (C s i)] :
    ∀ (s : σ) (labels : List ι), Decidable (Along step C s labels)
  | _, [] => .isTrue trivial
  | s, i :: labels =>
    have : Decidable (Along step C (step s i) labels) := decidableAlong C (step s i) labels
    inferInstanceAs (Decidable (C s i ∧ Along step C (step s i) labels))

variable {step}

@[simp] lemma run_nil (s : σ) : run step s [] = s := rfl

@[simp] lemma run_cons (s : σ) (i : ι) (labels : List ι) :
    run step s (i :: labels) = run step (step s i) labels := rfl

lemma run_append (s : σ) (xs ys : List ι) :
    run step s (xs ++ ys) = run step (run step s xs) ys := by
  simp [run]

lemma along_append {C : σ → ι → Prop} (s : σ) (xs ys : List ι) :
    Along step C s (xs ++ ys) ↔ Along step C s xs ∧ Along step C (run step s xs) ys := by
  induction xs generalizing s with
  | nil => simp [Along]
  | cons x xs ih => simp [Along, ih, and_assoc]

lemma along_and {C D : σ → ι → Prop} {s : σ} {labels : List ι} :
    Along step (fun s i => C s i ∧ D s i) s labels ↔ Along step C s labels ∧ Along step D s labels := by
  induction labels generalizing s with
  | nil => simp [Along]
  | cons i labels ih => simp only [Along, ih, and_assoc, and_left_comm]

lemma Along.mono {C C' : σ → ι → Prop} (h : ∀ s i, C s i → C' s i) {s : σ} {labels : List ι}
    (hc : Along step C s labels) : Along step C' s labels := by
  induction labels generalizing s with
  | nil => trivial
  | cons i labels ih => exact ⟨h s i hc.1, ih hc.2⟩

/-- A guard on the labels alone holds along every run over these labels. -/
lemma along_of_forall {A : ι → Prop} {s : σ} {labels : List ι} (h : ∀ i ∈ labels, A i) :
    Along step (fun _ i => A i) s labels := by
  induction labels generalizing s with
  | nil => trivial
  | cons i labels ih =>
    exact ⟨h i (by simp), ih (fun j hj => h j (List.mem_cons_of_mem _ hj))⟩

section Map

variable {τ : Type} {step' : τ → ι → τ} {φ : σ → τ}

/-- A projection that commutes with the steps commutes with the runs. -/
lemma run_map (hφ : ∀ s i, φ (step s i) = step' (φ s) i) (s : σ) (labels : List ι) :
    φ (run step s labels) = run step' (φ s) labels := by
  induction labels generalizing s with
  | nil => rfl
  | cons i labels ih => rw [run_cons, ih, hφ, run_cons]

lemma along_map (hφ : ∀ s i, φ (step s i) = step' (φ s) i) {C : τ → ι → Prop} (s : σ) (labels : List ι) :
    Along step (fun s i => C (φ s) i) s labels ↔ Along step' C (φ s) labels := by
  induction labels generalizing s with
  | nil => exact Iff.rfl
  | cons i labels ih =>
    rw [Along, Along, ih, hφ]

/-- A projection that some labels act on, and the others leave alone, sees the run of the former. -/
lemma run_filter {p : ι → Bool} (hin : ∀ s i, p i = true → φ (step s i) = step' (φ s) i)
    (hout : ∀ s i, p i = false → φ (step s i) = φ s) (s : σ) (labels : List ι) :
    φ (run step s labels) = run step' (φ s) (labels.filter p) := by
  induction labels generalizing s with
  | nil => rfl
  | cons i labels ih =>
    rw [run_cons, ih]
    cases hp : p i with
    | true => rw [hin s i hp, List.filter_cons_of_pos hp, run_cons]
    | false => rw [hout s i hp, List.filter_cons_of_neg (by simp [hp])]

end Map

/-- What every guarded step preserves holds at the end of a guarded run. -/
theorem run_invariant {I : σ → Prop} {C : σ → ι → Prop}
    (hstep : ∀ s i, I s → C s i → I (step s i)) {s : σ} {labels : List ι}
    (hs : I s) (hc : Along step C s labels) : I (run step s labels) := by
  induction labels generalizing s with
  | nil => exact hs
  | cons i labels ih => exact ih (hstep s i hs hc.1) hc.2

/-- Along a guarded run, a guard and another that agree where the invariant holds hold of
the same steps. -/
theorem along_congr {I : σ → Prop} {C D E : σ → ι → Prop} (hstep : ∀ s i, I s → C s i → I (step s i))
    (hiff : ∀ s i, I s → C s i → (D s i ↔ E s i)) {s : σ} {labels : List ι} (hs : I s)
    (hc : Along step C s labels) : Along step D s labels ↔ Along step E s labels := by
  induction labels generalizing s with
  | nil => rfl
  | cons i labels ih => exact and_congr (hiff s i hs hc.1) (ih (hstep s i hs hc.1) hc.2)

/-- Two guards that agree where the invariant holds are kept by the same runs, if a step that
meets the first one keeps the invariant. -/
theorem along_iff_along {I : σ → Prop} {D E : σ → ι → Prop} (hiff : ∀ s i, I s → (D s i ↔ E s i))
    (hstep : ∀ s i, I s → D s i → I (step s i)) {s : σ} {labels : List ι} (hs : I s) :
    Along step D s labels ↔ Along step E s labels := by
  induction labels generalizing s with
  | nil => rfl
  | cons i labels ih =>
    rw [Along, Along, ← hiff s i hs]
    exact and_congr_right (fun hd => ih (hstep s i hs hd))

/-- Along a guarded run, what the invariant gives of a guarded step holds of every step. -/
theorem along_of_invariant {I : σ → Prop} {C D : σ → ι → Prop} (hstep : ∀ s i, I s → C s i → I (step s i))
    (hD : ∀ s i, I s → C s i → D s i) {s : σ} {labels : List ι} (hs : I s) (hc : Along step C s labels) :
    Along step D s labels := by
  induction labels generalizing s with
  | nil => trivial
  | cons i labels ih => exact ⟨hD s i hs hc.1, ih (hstep s i hs hc.1) hc.2⟩

theorem visits_of_along {I : σ → Prop} {C : σ → ι → Prop}
    (hstep : ∀ s i, I s → C s i → I (step s i)) {s : σ} {labels : List ι}
    (hs : I s) (hc : Along step C s labels) : Visits step I s labels := by
  induction labels generalizing s with
  | nil => exact hs
  | cons i labels ih => exact ⟨hs, ih (hstep s i hs hc.1) hc.2⟩

lemma Visits.mono {P Q : σ → Prop} (h : ∀ s, P s → Q s) {s : σ} {labels : List ι}
    (hv : Visits step P s labels) : Visits step Q s labels := by
  induction labels generalizing s with
  | nil => exact h s hv
  | cons i labels ih => exact ⟨h s hv.1, ih hv.2⟩

lemma Visits.start {P : σ → Prop} {s : σ} {labels : List ι} (hv : Visits step P s labels) : P s := by
  cases labels with
  | nil => exact hv
  | cons i labels => exact hv.1

lemma Visits.last {P : σ → Prop} {s : σ} {labels : List ι} (hv : Visits step P s labels) :
    P (run step s labels) := by
  induction labels generalizing s with
  | nil => exact hv
  | cons i labels ih => exact ih hv.2

/-- A run that keeps `P` takes only steps to states with `P`. -/
lemma Visits.along {P : σ → Prop} {s : σ} {labels : List ι} (hv : Visits step P s labels) :
    Along step (fun s i => P (step s i)) s labels := by
  induction labels generalizing s with
  | nil => trivial
  | cons i labels ih => exact ⟨hv.2.start, ih hv.2⟩

/-- Let the steps of a run be well-formed. If from a state of the invariant such a step
meets its guard exactly when it leads to a state with `P`, and then the invariant is kept,
the run keeps `P` exactly when all its steps meet the guard. -/
theorem visits_iff_along {I P : σ → Prop} {W C : σ → ι → Prop} (hP : ∀ s, I s → P s)
    (hstep : ∀ s i, I s → W s i → C s i → I (step s i))
    (hback : ∀ s i, I s → W s i → P (step s i) → C s i)
    {s : σ} {labels : List ι} (hs : I s) (hw : Along step W s labels) :
    Visits step P s labels ↔ Along step C s labels := by
  induction labels generalizing s with
  | nil => exact iff_of_true (hP s hs) trivial
  | cons i labels ih =>
    constructor
    · intro hv
      have hc : C s i := hback s i hs hw.1 hv.2.start
      exact ⟨hc, (ih (hstep s i hs hw.1 hc) hw.2).mp hv.2⟩
    · intro hc
      exact ⟨hP s hs, (ih (hstep s i hs hw.1 hc.1) hw.2).mpr hc.2⟩

/-- If a step leads to `P` exactly when `P` held before and the step meets its guard, a run
ends in `P` exactly when it starts in `P` and all its steps meet the guard. -/
theorem last_iff_along {J P : σ → Prop} {W C : σ → ι → Prop} (hJ : ∀ s i, J s → W s i → J (step s i))
    (hP : ∀ s i, J s → W s i → (P (step s i) ↔ P s ∧ C s i)) {s : σ} {labels : List ι} (hs : J s)
    (hw : Along step W s labels) : P (run step s labels) ↔ P s ∧ Along step C s labels := by
  induction labels generalizing s with
  | nil => simp [Along]
  | cons i labels ih =>
    rw [run_cons, ih (hJ s i hs hw.1) hw.2, hP s i hs hw.1, Along, and_assoc]

/-! ### Prefixes -/

/-- `P` holds of every prefix of a list exactly when `C` holds of every element with the
prefix before it, if that is so for one element more. -/
theorem forall_prefix_iff {P W : List ι → Prop} {C : List ι → ι → Prop} (hnil : P [])
    (hstep : ∀ l i, W (l ++ [i]) → P l → (P (l ++ [i]) ↔ C l i)) {labels : List ι} (hw : ∀ l, l <+: labels → W l) :
    (∀ l, l <+: labels → P l) ↔ ∀ l i, l ++ [i] <+: labels → C l i := by
  induction labels using List.reverseRecOn with
  | nil =>
    refine iff_of_true (fun l hl => ?_) (fun l i hl => ?_)
    · rw [List.prefix_nil.mp hl]
      exact hnil
    · simp at hl
  | append_singleton labels i ih =>
    have hbefore := ih (fun l hl => hw l (hl.trans (List.prefix_append _ _)))
    constructor
    · intro h l j hl
      exact (hstep l j (hw _ hl) (h l ((List.prefix_append _ _).trans hl))).mp (h _ hl)
    · intro h l hl
      have hprefixes := hbefore.mpr (fun l j hj => h l j (hj.trans (List.prefix_append _ _)))
      rcases List.prefix_concat_iff.mp hl with rfl | hl
      · have hlast : P labels := hprefixes labels (List.prefix_refl _)
        exact (hstep labels i (hw _ (List.prefix_refl _)) hlast).mpr (h labels i (List.prefix_refl _))
      · exact hprefixes l hl

/-! ### Totals -/

section Totals

variable {M : Type} [AddCommMonoid M]

variable (step) in
/-- The sum of what `f` gives for each step of the run. -/
def total (f : σ → ι → M) : σ → List ι → M
  | _, [] => 0
  | s, i :: labels => f s i + total f (step s i) labels

/-- What every guarded step changes by `f`, a guarded run changes by the total of `f`. -/
theorem run_total {I : σ → Prop} {C : σ → ι → Prop} {f : σ → ι → M} (Φ : σ → M)
    (hI : ∀ s i, I s → C s i → I (step s i)) (hΦ : ∀ s i, I s → C s i → Φ (step s i) = Φ s + f s i)
    {s : σ} {labels : List ι} (hs : I s) (hc : Along step C s labels) :
    Φ (run step s labels) = Φ s + total step f s labels := by
  induction labels generalizing s with
  | nil => simp [total]
  | cons i labels ih =>
    rw [run_cons, ih (hI s i hs hc.1) hc.2, hΦ s i hs hc.1, total, add_assoc]

lemma total_sub {G : Type} [AddCommGroup G] (f g : σ → ι → G) (s : σ) (labels : List ι) :
    total step (fun s i => f s i - g s i) s labels = total step f s labels - total step g s labels := by
  induction labels generalizing s with
  | nil => simp [total]
  | cons i labels ih => rw [total, total, total, ih, add_sub_add_comm]

end Totals

end Runs
