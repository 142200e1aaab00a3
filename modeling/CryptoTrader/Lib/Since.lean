import CryptoTrader.Lib.Runs

/-!
# What has been stored since

A run changes what is stored. `Since` collects what has been stored at the moments of a run, its start
and its end among them. What is copied from the store during the run is one of these, and a copy that
is made after a moment is at least as new as what was stored then.
-/

namespace Runs

variable {σ ι S : Type} (step : σ → ι → σ) (stored : σ → S)

/-- At some moment of the run `x` was stored. -/
def Since (s : σ) (labels : List ι) (x : S) : Prop :=
  ∃ l, l <+: labels ∧ stored (run step s l) = x

variable {step stored} {s : σ} {labels : List ι} {x : S}

lemma since_last (s : σ) (labels : List ι) : Since step stored s labels (stored (run step s labels)) :=
  ⟨labels, List.prefix_refl labels, rfl⟩

lemma Since.concat (h : Since step stored s labels x) (i : ι) : Since step stored s (labels ++ [i]) x := by
  obtain ⟨l, hl, hx⟩ := h
  exact ⟨l, hl.trans (List.prefix_append labels [i]), hx⟩

/-- An invariant that speaks of what has been stored since the start. -/
theorem since_run {J : (S → Prop) → σ → Prop} (hstart : J (Since step stored s []) s)
    (hstep : ∀ (F F' : S → Prop) (s' : σ) (i : ι), (∀ x, F x → F' x) → F (stored s') → J F s' → J F' (step s' i))
    (labels : List ι) : J (Since step stored s labels) (run step s labels) := by
  induction labels using List.reverseRecOn with
  | nil => exact hstart
  | append_singleton labels i ih =>
    rw [run_append, run_cons, run_nil]
    exact hstep _ _ _ i (fun x hx => hx.concat i) (since_last s labels) ih

end Runs
