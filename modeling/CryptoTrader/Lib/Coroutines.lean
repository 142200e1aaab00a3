import CryptoTrader.Lib.Triples
import Mathlib.Data.Nat.Find
import Mathlib.Logic.Function.Iterate

/-!
# Coroutines that tick

A coroutine sleeps and then runs its body, again and again, in a task that awaits it. If the body
raises, the coroutine is finished, and `crash` says what becomes of the task. Awaiting a finished
coroutine raises at once. As long as `crash` leaves the coroutine as it is, a loop runs again
after every exception exactly if there is none (`runs_again_iff`).
-/

namespace Coroutines

open Triples

inductive Coroutine where
  | created
  | sleeping
  | finished
  deriving DecidableEq, Repr

/-- The task that awaits the coroutine. -/
inductive Task where
  | ready
  | waiting
  | ended
  deriving DecidableEq, Repr

structure LoopState (σ : Type) where
  coroutine : Coroutine := .created
  task : Task := .ready
  /-- The tasks created after a crash. -/
  restarts : ℕ := 0
  stopping : Bool := false
  shared : σ

section Steps

variable {σ ι ε : Type} (crash : LoopState σ → LoopState σ) (body : ι → Program ε σ Unit)

/-- The event loop runs a task that is ready. -/
def pass (s : LoopState σ) : LoopState σ :=
  match s.task, s.coroutine with
  | .ready, .created =>
    if s.stopping then { s with coroutine := .finished, task := .ended }
    else { s with coroutine := .sleeping, task := .waiting }
  | .ready, .finished => crash s
  | _, _ => s

/-- The sleep is over, and the body runs. -/
def tick (input : ι) (s : LoopState σ) : LoopState σ :=
  match s.task, s.coroutine with
  | .waiting, .sleeping =>
    match outcome (body input) s.shared with
    | (.ok _, shared) =>
      if s.stopping then { s with coroutine := .finished, task := .ended, shared := shared }
      else { s with shared := shared }
    | (.error _, shared) => crash { s with coroutine := .finished, shared := shared }
  | _, _ => s

/-- The state in which the `n`-th sleep ends, with `passes k` passes of the event loop before the
end of the `k`-th. -/
def before (shared : σ) (passes : ℕ → ℕ) (inputs : ℕ → ι) : ℕ → LoopState σ
  | 0 => (pass crash)^[passes 0] { shared := shared }
  | n + 1 => (pass crash)^[passes (n + 1)] (tick crash body (inputs n) (before shared passes inputs n))

/-- The body runs when the sleep is over. -/
def Alive (s : LoopState σ) : Prop :=
  s.task = .waiting ∧ s.coroutine = .sleeping

def Raises (input : ι) (shared : σ) : Prop :=
  ∃ e shared', outcome (body input) shared = (.error e, shared')

/-- The body runs at the end of the `n`-th sleep and raises. -/
def RaisedAt (shared : σ) (passes : ℕ → ℕ) (inputs : ℕ → ι) (n : ℕ) : Prop :=
  Alive (before crash body shared passes inputs n) ∧
    Raises body (inputs n) (before crash body shared passes inputs n).shared

/-- After every exception the body runs at the end of every later sleep. -/
def RunsAgain (shared : σ) (inputs : ℕ → ι) : Prop :=
  ∀ passes : ℕ → ℕ, (∀ n, 0 < passes n) → ∀ m n, m < n → RaisedAt crash body shared passes inputs m →
    Alive (before crash body shared passes inputs n)

/-- Between the ends of two sleeps the task is created again a bounded number of times. -/
def BoundedRestarts (shared : σ) (inputs : ℕ → ι) : Prop :=
  ∃ bound, ∀ (passes : ℕ → ℕ) (n : ℕ), (before crash body shared passes inputs (n + 1)).restarts ≤
    (tick crash body (inputs n) (before crash body shared passes inputs n)).restarts + bound

end Steps

section Runs

variable {σ ι ε : Type} {crash : LoopState σ → LoopState σ} {body : ι → Program ε σ Unit} {s : LoopState σ}

lemma shared_tick {input : ι} {a : Unit} {shared : σ} (h : Alive s)
    (hreturns : outcome (body input) s.shared = (.ok a, shared)) : (tick crash body input s).shared = shared := by
  unfold tick
  rw [h.1, h.2, hreturns]
  dsimp only
  split <;> rfl

/-! ### A finished coroutine -/

section Finished

variable (hcrash : ∀ s, (crash s).coroutine = s.coroutine)
include hcrash

lemma pass_finished (h : s.coroutine = .finished) : (pass crash s).coroutine = .finished := by
  unfold pass
  split
  · rename_i hcreated
    rw [h] at hcreated
    cases hcreated
  · rw [hcrash, h]
  · exact h

lemma iterate_pass_finished (k : ℕ) (h : s.coroutine = .finished) : ((pass crash)^[k] s).coroutine = .finished := by
  induction k with
  | zero => exact h
  | succ k ih =>
    rw [Function.iterate_succ_apply']
    exact pass_finished hcrash ih

omit hcrash in
lemma tick_finished (input : ι) (h : s.coroutine = .finished) : tick crash body input s = s := by
  unfold tick
  rw [h]
  cases s.task <;> rfl

/-- Once finished, always finished. -/
lemma before_finished {shared : σ} {passes : ℕ → ℕ} {inputs : ℕ → ι} {m n : ℕ} (hmn : m ≤ n)
    (h : (before crash body shared passes inputs m).coroutine = .finished) :
    (before crash body shared passes inputs n).coroutine = .finished := by
  induction n, hmn using Nat.le_induction with
  | base => exact h
  | succ n _ ih =>
    rw [before, tick_finished _ ih]
    exact iterate_pass_finished hcrash _ ih

/-- A body that raises finishes the coroutine. -/
lemma before_succ_finished {shared : σ} {passes : ℕ → ℕ} {inputs : ℕ → ι} {m : ℕ}
    (h : RaisedAt crash body shared passes inputs m) :
    (before crash body shared passes inputs (m + 1)).coroutine = .finished := by
  obtain ⟨⟨htask, hcoroutine⟩, e, shared', hraises⟩ := h
  apply iterate_pass_finished hcrash
  unfold tick
  rw [htask, hcoroutine, hraises]
  exact hcrash _

end Finished

/-! ### A loop without exceptions -/

/-- The loop has not crashed. -/
structure Healthy (s : LoopState σ) : Prop where
  state : s.task = .ready ∧ s.coroutine = .created ∨ Alive s
  restarts : s.restarts = 0
  stopping : s.stopping = false

lemma healthy_pass (h : Healthy s) : Healthy (pass crash s) := by
  rcases h.state with ⟨htask, hcoroutine⟩ | ⟨htask, hcoroutine⟩
  · simp only [pass, htask, hcoroutine]
    rw [if_neg (by simp [h.stopping])]
    exact ⟨.inr ⟨rfl, rfl⟩, h.restarts, h.stopping⟩
  · simp only [pass, htask]
    exact h

lemma alive_pass (h : Healthy s) : Alive (pass crash s) := by
  rcases h.state with ⟨htask, hcoroutine⟩ | ⟨htask, hcoroutine⟩
  · simp only [pass, htask, hcoroutine]
    rw [if_neg (by simp [h.stopping])]
    exact ⟨rfl, rfl⟩
  · simp only [pass, htask]
    exact ⟨htask, hcoroutine⟩

lemma healthy_iterate_pass (k : ℕ) (h : Healthy s) : Healthy ((pass crash)^[k] s) := by
  induction k with
  | zero => exact h
  | succ k ih =>
    rw [Function.iterate_succ_apply']
    exact healthy_pass ih

lemma alive_iterate_pass {k : ℕ} (hk : 0 < k) (h : Healthy s) : Alive ((pass crash)^[k] s) := by
  obtain ⟨k, rfl⟩ := Nat.exists_eq_succ_of_ne_zero (Nat.pos_iff_ne_zero.mp hk)
  rw [Function.iterate_succ_apply']
  exact alive_pass (healthy_iterate_pass k h)

lemma healthy_tick {input : ι} (hraises : ¬ Raises body input s.shared) (h : Healthy s) :
    Healthy (tick crash body input s) := by
  unfold tick
  split
  · cases hresult : outcome (body input) s.shared with
    | mk result shared =>
      cases result with
      | ok a =>
        simp only
        rw [if_neg (by simp [h.stopping])]
        exact ⟨h.state, h.restarts, h.stopping⟩
      | error e => exact absurd ⟨e, shared, hresult⟩ hraises
  · exact h

lemma healthy_before {shared : σ} {inputs : ℕ → ι} (passes : ℕ → ℕ) {n : ℕ}
    (h : ∀ m, m < n → ∀ shared, ¬ Raises body (inputs m) shared) :
    Healthy (before crash body shared passes inputs n) := by
  induction n with
  | zero => exact healthy_iterate_pass _ ⟨.inl ⟨rfl, rfl⟩, rfl, rfl⟩
  | succ n ih =>
    have hn := ih fun m hm => h m (Nat.lt_succ_of_lt hm)
    exact healthy_iterate_pass _ (healthy_tick (h n (Nat.lt_succ_self n) _) hn)

lemma alive_before {shared : σ} {inputs : ℕ → ι} {passes : ℕ → ℕ} (hpasses : ∀ n, 0 < passes n) {n : ℕ}
    (h : ∀ m, m < n → ∀ shared, ¬ Raises body (inputs m) shared) :
    Alive (before crash body shared passes inputs n) := by
  cases n with
  | zero => exact alive_iterate_pass (hpasses 0) ⟨.inl ⟨rfl, rfl⟩, rfl, rfl⟩
  | succ n =>
    have hn : Healthy (before crash body shared passes inputs n) :=
      healthy_before passes fun m hm => h m (Nat.lt_succ_of_lt hm)
    exact alive_iterate_pass (hpasses _) (healthy_tick (h n (Nat.lt_succ_self n) _) hn)

lemma bounded_restarts {shared : σ} {inputs : ℕ → ι} (h : ∀ n shared, ¬ Raises body (inputs n) shared) :
    BoundedRestarts crash body shared inputs := by
  use 0
  intro passes n
  rw [(healthy_before passes fun m _ => h m).restarts]
  exact Nat.zero_le _

/-- The exceptions are the inputs', whatever the state. -/
lemma runs_again_iff (hcrash : ∀ s, (crash s).coroutine = s.coroutine) {raises : ι → Prop}
    (hraises : ∀ input shared, Raises body input shared ↔ raises input) (shared : σ) (inputs : ℕ → ι) :
    RunsAgain crash body shared inputs ↔ ∀ n, ¬ raises (inputs n) := by
  classical
  constructor
  · intro h n hn
    have hex : ∃ n, raises (inputs n) := ⟨n, hn⟩
    have hfirst : ∀ k, k < Nat.find hex → ∀ shared, ¬ Raises body (inputs k) shared := by
      intro k hk shared hk'
      exact Nat.find_min hex hk ((hraises _ _).mp hk')
    have hraised : RaisedAt crash body shared (fun _ => 1) inputs (Nat.find hex) :=
      ⟨alive_before (fun _ => Nat.one_pos) hfirst, (hraises _ _).mpr (Nat.find_spec hex)⟩
    have halive := h (fun _ => 1) (fun _ => Nat.one_pos) _ _ (Nat.lt_succ_self _) hraised
    have hfinished := before_succ_finished hcrash hraised
    rw [halive.2] at hfinished
    cases hfinished
  · intro h passes _ m n _ hraised
    exact absurd ((hraises _ _).mp hraised.2) (h m)

end Runs

end Coroutines
