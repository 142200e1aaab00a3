import Mathlib.Data.List.Basic

/-!
# Results of several computations

When a computation that may raise returns, over the steps that it is made of.
-/

namespace Excepts

variable {ε α β : Type}

/-- The computation returns. -/
def Returns (r : Except ε α) : Prop :=
  ∃ a, r = .ok a

@[simp] lemma returns_ok (a : α) : Returns (.ok a : Except ε α) := ⟨a, rfl⟩

@[simp] lemma not_returns_error (e : ε) : ¬ Returns (.error e : Except ε α) := by
  rintro ⟨a, ha⟩
  contradiction

lemma returns_bind {r : Except ε α} {f : α → Except ε β} : Returns (r >>= f) ↔ ∃ a, r = .ok a ∧ Returns (f a) := by
  cases r with
  | ok a => simp [bind, Except.bind]
  | error e => simp [bind, Except.bind]

lemma bind_ok_iff {r : Except ε α} {f : α → Except ε β} {b : β} : r >>= f = .ok b ↔ ∃ a, r = .ok a ∧ f a = .ok b := by
  cases r with
  | ok a => simp [bind, Except.bind]
  | error e => simp [bind, Except.bind]

/-- What a computation returns, or a default. -/
def valueD (r : Except ε α) (default : α) : α :=
  r.toOption.getD default

@[simp] lemma valueD_ok (a default : α) : valueD (.ok a : Except ε α) default = a := rfl

lemma exists_ok (r : Except ε α) (default : α) (P : α → Prop) :
    (∃ a, r = .ok a ∧ P a) ↔ Returns r ∧ P (valueD r default) := by
  cases r with
  | ok a => simp
  | error e => simp

lemma exists_mapM_cons (f : α → Except ε β) (a : α) (l : List α) (P : List β → Prop) :
    (∃ bs, (a :: l).mapM f = .ok bs ∧ P bs) ↔
      ∃ b, f a = .ok b ∧ ∃ bs, l.mapM f = .ok bs ∧ P (b :: bs) := by
  rw [List.mapM_cons]
  cases f a with
  | ok b =>
    cases l.mapM f with
    | ok bs => simp [bind, Except.bind, pure, Except.pure]
    | error e => simp [bind, Except.bind]
  | error e => simp [bind, Except.bind]

/-- One computation after the other, for the elements of a list. -/
lemma exists_mapM (f : α → Except ε β) (default : β) (l : List α) (P : List β → Prop) :
    (∃ bs, l.mapM f = .ok bs ∧ P bs) ↔
      (∀ a ∈ l, Returns (f a)) ∧ P (l.map (fun a => valueD (f a) default)) := by
  induction l generalizing P with
  | nil => simp [pure, Except.pure]
  | cons a l ih =>
    rw [exists_mapM_cons]
    simp only [ih]
    rw [exists_ok _ default]
    simp [and_assoc]

end Excepts
