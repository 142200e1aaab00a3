import Mathlib.Data.Int.Notation
import Mathlib.Data.List.Basic
import Mathlib.Data.Nat.Notation
import Mathlib.Order.Lattice
import Mathlib.Tactic.Common

/-!
# Circuit breakers

A breaker counts failures and opens at a threshold. It turns calls away until it has been open
for the reset time; the first call after that is let through and starts the count anew. What a
breaker does is a function of the calls that it let through: it turns a call away exactly if
they end in a positive multiple of the threshold of failures, the last of them within the
reset time (`admits_iff`).
-/

namespace CircuitBreaker

variable {τ : Type}

structure Breaker (τ : Type) where
  failures : ℕ := 0
  openedAt : Option τ := none
  deriving DecidableEq, Repr

structure Limits (τ : Type) where
  threshold : ℤ
  reset : τ

/-- A call that was let through: when it was checked, when it ended, and how. -/
structure Call (τ : Type) where
  checkedAt : τ
  endedAt : τ
  ok : Bool
  deriving DecidableEq, Repr

/-- The failures that a log, the latest call first, begins with. -/
def streak (log : List (Call τ)) : ℕ :=
  (log.takeWhile (fun c => !c.ok)).length

@[simp] lemma streak_nil : streak ([] : List (Call τ)) = 0 := rfl

@[simp] lemma streak_cons (c : Call τ) (log : List (Call τ)) :
    streak (c :: log) = if c.ok then 0 else streak log + 1 := by
  cases h : c.ok <;> simp [streak, h]

namespace Limits

variable (lim : Limits τ)

/-- The failures it takes, one at least. -/
def enough : ℕ :=
  (max 1 lim.threshold).toNat

/-- The breaker that belongs to a log. -/
structure Matches (b : Breaker τ) (log : List (Call τ)) : Prop where
  closed : b.openedAt = none → b.failures = streak log % lim.enough ∧ (lim.enough ∣ streak log → streak log = 0)
  opened : ∀ t, b.openedAt = some t → 0 < streak log ∧ lim.enough ∣ streak log ∧ ∃ c ∈ log.head?, c.endedAt = t

lemma enough_pos : 0 < lim.enough := by
  unfold enough
  omega

lemma threshold_le_iff (n : ℕ) : lim.threshold ≤ (n + 1 : ℕ) ↔ lim.enough ≤ n + 1 := by
  unfold enough
  omega

lemma matches_empty : lim.Matches {} [] where
  closed _ := by simp
  opened _ h := by cases h

/-- The count modulo the threshold, one failure later. -/
lemma streak_succ_mod (n : ℕ) :
    if lim.enough ≤ n % lim.enough + 1 then lim.enough ∣ n + 1 else (n + 1) % lim.enough = n % lim.enough + 1 := by
  have hlt : n % lim.enough < lim.enough := Nat.mod_lt n lim.enough_pos
  have hmod : (n % lim.enough + 1) % lim.enough = (n + 1) % lim.enough := Nat.mod_add_mod n lim.enough 1
  split
  · have hfull : n % lim.enough + 1 = lim.enough := by omega
    rw [hfull, Nat.mod_self] at hmod
    exact Nat.dvd_of_mod_eq_zero hmod.symm
  · rw [← hmod]
    apply Nat.mod_eq_of_lt
    omega

def fail (b : Breaker τ) (now : τ) : Breaker τ :=
  let failures := b.failures + 1
  { failures, openedAt := if lim.threshold ≤ failures then some now else b.openedAt }

variable [Sub τ] [LinearOrder τ]

def admits (b : Breaker τ) (now : τ) : Bool :=
  match b.openedAt with
  | none => true
  | some openedAt => decide (lim.reset ≤ now - openedAt)

/-- What a check leaves: a breaker that has been open for the reset time is closed. -/
def check (b : Breaker τ) (now : τ) : Breaker τ :=
  match b.openedAt with
  | none => b
  | some openedAt => if lim.reset ≤ now - openedAt then {} else b

/-- What a call that is let through leaves. -/
def after (b : Breaker τ) (c : Call τ) : Breaker τ :=
  if c.ok then {} else lim.fail (lim.check b c.checkedAt) c.endedAt

/-- The log ends in a positive multiple of the threshold of failures, the last within the reset time. -/
def Tripped (log : List (Call τ)) (now : τ) : Prop :=
  0 < streak log ∧ lim.enough ∣ streak log ∧ ∃ c ∈ log.head?, now - c.endedAt < lim.reset

/-- A breaker lets a call through exactly if its log has not tripped it. -/
theorem admits_iff {b : Breaker τ} {log : List (Call τ)} (h : lim.Matches b log) (now : τ) :
    lim.admits b now = true ↔ ¬lim.Tripped log now := by
  unfold admits Tripped
  cases hb : b.openedAt with
  | none =>
    have hnever := (h.closed hb).2
    simp only [true_iff, not_and]
    intro hpos hdvd
    omega
  | some openedAt =>
    obtain ⟨hpos, hdvd, c, hc, rfl⟩ := h.opened openedAt hb
    have hhead : log.head? = some c := hc
    simp [hpos, hdvd, hhead]

lemma check_of_not_admits {b : Breaker τ} {now : τ} (h : lim.admits b now = false) : lim.check b now = b := by
  unfold admits at h
  unfold check
  split at h
  · rfl
  · exact if_neg (of_decide_eq_false h)

lemma check_of_admits {b : Breaker τ} {log : List (Call τ)} (h : lim.Matches b log) {now : τ} (ha : lim.admits b now = true) :
    lim.check b now = { failures := streak log % lim.enough, openedAt := none } := by
  unfold admits at ha
  unfold check
  split at ha
  · rename_i hb
    rw [← (h.closed hb).1, ← hb]
  · rename_i openedAt hb
    rw [if_pos (of_decide_eq_true ha), Nat.mod_eq_zero_of_dvd (h.opened openedAt hb).2.1]

/-- One more call that is let through keeps breaker and log together. -/
theorem matches_after {b : Breaker τ} {log : List (Call τ)} (h : lim.Matches b log) {c : Call τ}
    (ha : lim.admits b c.checkedAt = true) : lim.Matches (lim.after b c) (c :: log) := by
  unfold after
  cases hok : c.ok with
  | true => exact ⟨fun _ => by simp [hok], fun t ht => by cases ht⟩
  | false =>
    have hstep := lim.streak_succ_mod (streak log)
    rw [lim.check_of_admits h ha]
    simp only [Bool.false_eq_true, if_false, fail, threshold_le_iff]
    by_cases hfull : lim.enough ≤ streak log % lim.enough + 1
    · -- this failure opens the breaker
      rw [if_pos hfull] at hstep ⊢
      refine ⟨nofun, fun t ht => ?_⟩
      obtain rfl : c.endedAt = t := by simpa using ht
      simp [hok, hstep]
    · rw [if_neg hfull] at hstep ⊢
      refine ⟨fun _ => ?_, nofun⟩
      simp only [streak_cons, hok, Bool.false_eq_true, if_false]
      refine ⟨hstep.symm, fun hdvd => ?_⟩
      rw [Nat.mod_eq_zero_of_dvd hdvd] at hstep
      omega

end Limits

end CircuitBreaker
