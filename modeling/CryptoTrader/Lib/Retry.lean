import Mathlib.Tactic.Common

/-!
# Retried requests

A client sends a request until it is answered. Each attempt of `attempts` either fails,
and the next one is made, or is answered, and the answer is handled; the last failure
makes the client give up. What an attempt does to the world does not depend on whether
its answer arrives, so the state after a failed attempt is the one it leaves behind.
-/

namespace Retries

variable {ι σ φ ρ ε α : Type}

/-- What the client sees of one attempt. -/
inductive Attempt (φ ρ : Type) where
  | failed (failure : φ)
  | answered (answer : ρ)
  deriving DecidableEq, Repr

section Loop

variable (client : σ → ι → Attempt φ ρ × σ) (giveUp : φ → ε) (exhausted : ε) (handle : ρ → Except ε α)

/-- The loop: a failure is retried unless no attempt is left. -/
def retried : List ι → σ → Except ε α × σ
  | [], s => (.error exhausted, s)
  | i :: rest, s =>
    match client s i with
    | (.answered r, s') => (handle r, s')
    | (.failed f, s') => if rest = [] then (.error (giveUp f), s') else retried rest s'

variable {client giveUp exhausted handle}

lemma retried_answered {s s' : σ} {i : ι} {r : ρ} (h : client s i = (.answered r, s')) (rest : List ι) :
    retried client giveUp exhausted handle (i :: rest) s = (handle r, s') := by
  rw [retried, h]

lemma retried_failed {s s' : σ} {i : ι} {f : φ} (h : client s i = (.failed f, s')) {rest : List ι}
    (hr : rest ≠ []) :
    retried client giveUp exhausted handle (i :: rest) s = retried client giveUp exhausted handle rest s' := by
  rw [retried, h]
  exact if_neg hr

lemma retried_last {s s' : σ} {i : ι} {f : φ} (h : client s i = (.failed f, s')) :
    retried client giveUp exhausted handle [i] s = (.error (giveUp f), s') := by
  rw [retried, h]
  exact if_pos rfl

/-- What every attempt keeps of the world, the loop keeps. -/
lemma retried_keeps {Q : σ → Prop} (h : ∀ s i, Q s → Q (client s i).2) (attempts : List ι) {s : σ} (hs : Q s) :
    Q (retried client giveUp exhausted handle attempts s).2 := by
  induction attempts generalizing s with
  | nil => exact hs
  | cons i rest ih =>
    have hi : Q (client s i).2 := h s i hs
    rcases hc : client s i with ⟨f | r, s'⟩
    · rw [hc] at hi
      by_cases hr : rest = []
      · subst hr
        rw [retried_last hc]
        exact hi
      · rw [retried_failed hc hr]
        exact ih hi
    · rw [hc] at hi
      rw [retried_answered hc]
      exact hi

end Loop

end Retries
