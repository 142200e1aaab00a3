import Mathlib.Tactic.Common

/-!
# Programs that may raise

A program runs on a state, and returns a value or raises an error; the state it has reached stays
either way. A triple says where a program from a state of `P` ends: in `Q` if it returns, in `E`
if it raises. The rules follow the program from its first step on, `triple_bind` through any step
and `triple_attempt` through one that raises what it is given.
-/

namespace Triples

abbrev Program (ε σ α : Type) := ExceptT ε (StateM σ) α

variable {ε σ α β : Type}

/-- What a program makes of a state. -/
def outcome (m : Program ε σ α) (s : σ) : Except ε α × σ :=
  m.run.run s

def Triple (P : σ → Prop) (m : Program ε σ α) (Q : α → σ → Prop) (E : ε → σ → Prop) : Prop :=
  ∀ s, P s → match outcome m s with
    | (.ok a, s') => Q a s'
    | (.error e, s') => E e s'

/-- A step that raises the error it is given, if any. -/
def attempt (failure : Option ε) : Program ε σ Unit :=
  match failure with
  | some e => throw e
  | none => pure ()

section Outcome

@[simp] lemma outcome_pure (a : α) (s : σ) : outcome (pure a : Program ε σ α) s = (.ok a, s) := rfl

@[simp] lemma outcome_throw (e : ε) (s : σ) : outcome (throw e : Program ε σ α) s = (.error e, s) := rfl

@[simp] lemma outcome_get (s : σ) : outcome (get : Program ε σ σ) s = (.ok s, s) := rfl

@[simp] lemma outcome_modify (f : σ → σ) (s : σ) : outcome (modify f : Program ε σ PUnit) s = (.ok ⟨⟩, f s) := rfl

lemma outcome_bind (m : Program ε σ α) (f : α → Program ε σ β) (s : σ) :
    outcome (m >>= f) s = match outcome m s with
      | (.ok a, s') => outcome (f a) s'
      | (.error e, s') => (.error e, s') := by
  have hrun : outcome (m >>= f) s = StateT.run (ExceptT.bindCont f (outcome m s).1) (outcome m s).2 := rfl
  rw [hrun]
  rcases outcome m s with ⟨_ | _, s'⟩ <;> rfl

end Outcome

/-! ### The rules -/

section Rules

variable {P P' : σ → Prop} {m : Program ε σ α} {f : α → Program ε σ β} {Q : α → σ → Prop} {R : β → σ → Prop}
  {E : ε → σ → Prop}

lemma triple_pure {a : α} (h : ∀ s, P s → Q a s) : Triple P (pure a) Q E :=
  fun s hs => h s hs

lemma triple_throw {e : ε} (h : ∀ s, P s → E e s) : Triple P (throw e) Q E :=
  fun s hs => h s hs

lemma triple_post {Q' : α → σ → Prop} {E' : ε → σ → Prop} (h : Triple P m Q E) (hq : ∀ a s, Q a s → Q' a s)
    (he : ∀ e s, E e s → E' e s) : Triple P m Q' E' := by
  intro s hs
  have hm := h s hs
  generalize outcome m s = result at hm ⊢
  obtain ⟨e | a, s'⟩ := result
  · exact he e s' hm
  · exact hq a s' hm

/-- A fact of the precondition that is not about the state. -/
lemma triple_assume {p : Prop} (h : p → Triple P m Q E) : Triple (fun s => P s ∧ p) m Q E :=
  fun s hs => h hs.2 s hs.1

lemma triple_bind (hm : Triple P m Q E) (hf : ∀ a, Triple (Q a) (f a) R E) : Triple P (m >>= f) R E := by
  intro s hs
  have hstep := hm s hs
  rw [outcome_bind]
  generalize outcome m s = result at hstep ⊢
  obtain ⟨e | a, s'⟩ := result
  · exact hstep
  · exact hf a s' hstep

/-- A write of the state. -/
lemma triple_modify (P' : σ → Prop) {g : σ → σ} {k : PUnit → Program ε σ β} (hwrite : ∀ s, P s → P' (g s)) (hk : Triple P' (k ⟨⟩) R E) :
    Triple P (modify g >>= k) R E := by
  intro s hs
  rw [outcome_bind, outcome_modify]
  exact hk (g s) (hwrite s hs)

/-- A read of the state. -/
lemma triple_get {k : σ → Program ε σ β} (h : ∀ s, P s → Triple (fun s' => s' = s) (k s) R E) :
    Triple P (get >>= k) R E := by
  intro s hs
  rw [outcome_bind, outcome_get]
  exact h s hs s rfl

/-- A step that may raise: it raises in `E`, or the program goes on. -/
lemma triple_attempt {failure : Option ε} {k : Unit → Program ε σ β}
    (hraise : ∀ e, failure = some e → ∀ s, P s → E e s) (hgo : failure = none → Triple P (k ()) R E) :
    Triple P (attempt failure >>= k) R E := by
  intro s hs
  rw [outcome_bind]
  cases failure with
  | some e => exact hraise e rfl s hs
  | none => exact hgo rfl s hs

end Rules

end Triples
