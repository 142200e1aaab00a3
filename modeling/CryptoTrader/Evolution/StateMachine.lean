import CryptoTrader.Domain.Models
import CryptoTrader.Lib.Runs

/-!
# The state machine of an evolution cycle

`evolution/state_machine.py`: `transition` refuses a name outside `VALID_STATES` and, in a
terminal state, everything but `IDLE`; it asks nothing else. The states a machine has
passed since it last left `IDLE` are therefore any list that avoids `IDLE` and ends at its
first terminal state, and these lists only (`evolution_cycles`).
-/

namespace CryptoTrader

inductive EvolutionState where
  | idle | reviewReady | observe | diagnose | lesson | hypothesize | propose | materialize
  | staticValidate | backtest | oos | walkForward | stress | shadow | certify
  | readyForUpgrade | waitSafeWindow | activate | verify | active
  | rejected | quarantined | rollback
  deriving DecidableEq, Repr

namespace EvolutionState

def name : EvolutionState → String
  | idle => "IDLE"
  | reviewReady => "REVIEW_READY"
  | observe => "OBSERVE"
  | diagnose => "DIAGNOSE"
  | lesson => "LESSON"
  | hypothesize => "HYPOTHESIZE"
  | propose => "PROPOSE"
  | materialize => "MATERIALIZE"
  | staticValidate => "STATIC_VALIDATE"
  | backtest => "BACKTEST"
  | oos => "OOS"
  | walkForward => "WALK_FORWARD"
  | stress => "STRESS"
  | shadow => "SHADOW"
  | certify => "CERTIFY"
  | readyForUpgrade => "READY_FOR_UPGRADE"
  | waitSafeWindow => "WAIT_SAFE_WINDOW"
  | activate => "ACTIVATE"
  | verify => "VERIFY"
  | active => "ACTIVE"
  | rejected => "REJECTED"
  | quarantined => "QUARANTINED"
  | rollback => "ROLLBACK"

def validStates : List EvolutionState :=
  [idle, reviewReady, observe, diagnose, lesson, hypothesize, propose, materialize,
   staticValidate, backtest, oos, walkForward, stress, shadow, certify,
   readyForUpgrade, waitSafeWindow, activate, verify, active, rejected, quarantined, rollback]

def terminalStates : List EvolutionState :=
  [active, rejected, quarantined, rollback]

/-- The member of `VALID_STATES` with this name. -/
def ofName (s : String) : Option EvolutionState :=
  validStates.find? (fun state => state.name = s)

lemma ofName_name (s : EvolutionState) : ofName s.name = some s := by
  cases s <;> decide

end EvolutionState

structure TransitionRecord where
  fromState : EvolutionState
  toState : EvolutionState
  reason : String
  deriving DecidableEq, Repr

structure EvolutionStateMachine where
  state : EvolutionState := .idle
  history : List TransitionRecord := []
  deriving DecidableEq, Repr

structure TransitionCall where
  newState : String
  reason : String := ""
  deriving DecidableEq, Repr

namespace EvolutionStateMachine

open EvolutionState

def transition (m : EvolutionStateMachine) (c : TransitionCall) :
    Except TradingError (TransitionRecord × EvolutionStateMachine) :=
  match ofName c.newState with
  | none => .error (.valueError s!"invalid evolution state {c.newState}")
  | some newState =>
    if m.state ∈ terminalStates ∧ newState ≠ .idle then
      .error (.valueError s!"terminal state {m.state.name} cannot transition")
    else
      let record : TransitionRecord := ⟨m.state, newState, c.reason⟩
      .ok (record, { state := newState, history := m.history ++ [record] })

/-- The machine after a call; a call that raises leaves it as it is. -/
def call (m : EvolutionStateMachine) (c : TransitionCall) : EvolutionStateMachine :=
  match m.transition c with
  | .ok (_, m') => m'
  | .error _ => m

/-- The machine after the calls, from a new machine. -/
def after (calls : List TransitionCall) : EvolutionStateMachine :=
  Runs.run call {} calls

/-- The states entered since the machine last left `IDLE`. -/
def cycle (m : EvolutionStateMachine) : List EvolutionState :=
  m.history.foldl (fun passed r => if r.toState = .idle then [] else passed ++ [r.toState]) []

/-- The call is accepted: it names a state, and a terminal state is left for `IDLE` only. -/
def Accepts (m : EvolutionStateMachine) (c : TransitionCall) : Prop :=
  ∃ s, ofName c.newState = some s ∧ (m.state ∈ terminalStates → s = .idle)

/-- Every call is refused, or enters the state it names and records it. -/
lemma call_cases (m : EvolutionStateMachine) (c : TransitionCall) :
    (¬m.Accepts c ∧ m.call c = m) ∨
      ∃ s, ofName c.newState = some s ∧ (m.state ∈ terminalStates → s = .idle) ∧
        m.call c = { state := s, history := m.history ++ [⟨m.state, s, c.reason⟩] } := by
  cases hs : ofName c.newState with
  | none =>
    refine .inl ⟨?_, by simp [call, transition, hs]⟩
    rintro ⟨s, hs', -⟩
    simp [hs] at hs'
  | some s =>
    by_cases h : m.state ∈ terminalStates ∧ s ≠ .idle
    · refine .inl ⟨?_, by simp [call, transition, hs, h]⟩
      rintro ⟨s', hs', hi⟩
      have hss : s = s' := by simpa [hs] using hs'
      exact h.2 (hss ▸ hi h.1)
    · refine .inr ⟨s, rfl, ?_, by simp only [call, transition, hs, if_neg h]⟩
      intro ht
      by_contra hne
      exact h ⟨ht, hne⟩

lemma accepts_iff (m : EvolutionStateMachine) (c : TransitionCall) :
    m.Accepts c ↔ ∃ r, m.transition c = .ok r := by
  unfold Accepts transition
  cases hs : ofName c.newState with
  | none => simp
  | some s =>
    by_cases ht : m.state ∈ terminalStates <;> by_cases hi : s = .idle <;> simp [ht, hi]

lemma cycle_append (m : EvolutionStateMachine) (s : EvolutionState) (r : TransitionRecord) :
    cycle { state := s, history := m.history ++ [r] } =
      if r.toState = .idle then [] else m.cycle ++ [r.toState] := by
  simp [cycle]

/-- The cycle ends in the machine's state, avoids `IDLE`, and is over at a terminal state. -/
structure CycleInv (m : EvolutionStateMachine) : Prop where
  last : m.state = m.cycle.getLastD .idle
  active : EvolutionState.idle ∉ m.cycle
  terminal : ∀ s ∈ m.cycle.dropLast, s ∉ terminalStates

lemma CycleInv.all {m : EvolutionStateMachine} (h : CycleInv m) (hm : m.state ∉ terminalStates) :
    ∀ s ∈ m.cycle, s ∉ terminalStates := by
  intro s hs
  by_cases hne : m.cycle = []
  · simp [hne] at hs
  · rw [← List.dropLast_append_getLast hne, List.mem_append, List.mem_singleton] at hs
    have hl := h.last
    rw [List.getLastD_eq_getLast?, List.getLast?_eq_some_getLast hne, Option.getD_some] at hl
    rcases hs with hs | rfl
    · exact h.terminal s hs
    · exact hl ▸ hm

lemma CycleInv.step {m : EvolutionStateMachine} (h : CycleInv m) (c : TransitionCall) :
    CycleInv (m.call c) := by
  obtain ⟨-, hm⟩ | ⟨s, -, hs, hm⟩ := call_cases m c
  · rwa [hm]
  · rw [hm]
    by_cases hi : s = .idle
    · have hc : cycle { state := s, history := m.history ++ [⟨m.state, s, c.reason⟩] } = [] := by
        rw [cycle_append, if_pos hi]
      exact ⟨by rw [hc]; exact hi, by simp [hc], by simp [hc]⟩
    · have hc : cycle { state := s, history := m.history ++ [⟨m.state, s, c.reason⟩] } = m.cycle ++ [s] := by
        rw [cycle_append, if_neg hi]
      have hm' : m.state ∉ terminalStates := fun ht => hi (hs ht)
      refine ⟨by simp [hc], ?_, ?_⟩
      · rw [hc, List.mem_append, List.mem_singleton]
        rintro (hmem | rfl)
        · exact h.active hmem
        · exact hi rfl
      · rw [hc, List.dropLast_concat]
        exact h.all hm'

lemma cycleInv_after (calls : List TransitionCall) : CycleInv (after calls) :=
  Runs.run_invariant (fun _ c h _ => h.step c) ⟨rfl, by simp [cycle], by simp [cycle]⟩
    (Runs.along_of_forall (fun _ _ => trivial))

lemma after_append (calls : List TransitionCall) (c : TransitionCall) :
    after (calls ++ [c]) = (after calls).call c :=
  Runs.run_append ..

/-- Asking for the states of a list one by one makes the list the machine's cycle. -/
lemma cycle_after_names {path : List EvolutionState} (hi : EvolutionState.idle ∉ path)
    (ht : ∀ s ∈ path.dropLast, s ∉ terminalStates) :
    (after (path.map (fun s => ⟨s.name, ""⟩))).cycle = path := by
  induction path using List.reverseRecOn with
  | nil => rfl
  | append_singleton path s ih =>
    rw [List.dropLast_concat] at ht
    rw [List.mem_append, not_or, List.mem_singleton] at hi
    have hpath := ih hi.1 (fun s hs => ht s (List.dropLast_subset _ hs))
    rw [List.map_append, List.map_singleton, after_append]
    set m := after (path.map (fun s => (⟨s.name, ""⟩ : TransitionCall)))
    have hstate : m.state ∉ terminalStates := by
      rw [(cycleInv_after _).last, hpath]
      rcases List.eq_nil_or_concat path with rfl | ⟨path, x, rfl⟩
      · decide
      · simpa using ht x (by simp)
    obtain ⟨hna, -⟩ | ⟨s', hs', -, hm⟩ := call_cases m ⟨s.name, ""⟩
    · exact absurd ⟨s, ofName_name s, fun h => absurd h hstate⟩ hna
    · have hss : s = s' := by simpa [ofName_name] using hs'
      rw [hm, ← hss, cycle_append, hpath, if_neg (fun h => hi.2 h.symm)]

end EvolutionStateMachine

open EvolutionStateMachine EvolutionState

/-- The stages between the proposal of a candidate and its activation. -/
def validationStages : List EvolutionState :=
  [staticValidate, .backtest, oos, walkForward, stress, shadow, certify, activate]

/-- The states a machine can have passed since it last left `IDLE` are the lists without
`IDLE` in which a terminal state can only be the last; the machine is then in the last of
them. It asks for no validation stage, but a cycle that was rejected, quarantined or rolled
back is not continued. -/
theorem evolution_cycles :
    (∀ path, (∃ calls, (after calls).cycle = path) ↔
      EvolutionState.idle ∉ path ∧ ∀ s ∈ path.dropLast, s ∉ terminalStates) ∧
    (∀ calls, (after calls).state = (after calls).cycle.getLastD .idle) ∧
    (∀ calls c, (∃ r, (after calls).transition c = .ok r) ↔
      ∃ s, ofName c.newState = some s ∧ ((after calls).state ∈ terminalStates → s = .idle)) ∧
    ∀ calls, (∃ s ∈ (after calls).cycle, s ∈ [rejected, quarantined, rollback]) →
      (after calls).state ≠ .active := by
  refine ⟨fun path => ⟨?_, fun h => ⟨_, cycle_after_names h.1 h.2⟩⟩, fun calls => (cycleInv_after calls).last,
    fun calls c => (accepts_iff _ c).symm, ?_⟩
  · rintro ⟨calls, rfl⟩
    exact ⟨(cycleInv_after calls).active, (cycleInv_after calls).terminal⟩
  · rintro calls ⟨s, hs, hmem⟩ hactive
    have hinv := cycleInv_after calls
    have hne : (after calls).cycle ≠ [] := List.ne_nil_of_mem hs
    have hlast : (after calls).cycle.getLast hne = .active := by
      rw [← hactive, hinv.last, List.getLastD_eq_getLast?, List.getLast?_eq_some_getLast hne, Option.getD_some]
    rw [← List.dropLast_append_getLast hne, List.mem_append, List.mem_singleton, hlast] at hs
    rcases hs with hs | rfl
    · have hterm : ∀ s ∈ [rejected, quarantined, rollback], s ∈ terminalStates := by decide
      exact hinv.terminal s hs (hterm s hmem)
    · revert hmem
      decide

/-- One call takes a new machine to `ACTIVE` without any validation stage. -/
theorem active_without_validation :
    ¬∀ calls, (after calls).state = .active → validationStages.Sublist (after calls).cycle := by
  intro h
  have hactive := h [⟨"ACTIVE", ""⟩] (by decide)
  revert hactive
  decide

end CryptoTrader
