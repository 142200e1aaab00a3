import Mathlib.Control.Basic
import Mathlib.Data.List.Basic

/-!
# Journals

Computations that write entries and may raise. What is written before an exception stays written,
so that the entries are always the first ones of those that a computation without exceptions writes.
-/

/-- What is written, and the value or the exception. -/
structure Journal (ε ω α : Type) where
  written : List ω
  outcome : Except ε α
  deriving DecidableEq, Repr

namespace Journal

variable {ε ω κ α β : Type}

def write (w : ω) : Journal ε ω Unit := ⟨[w], .ok ()⟩

def writeAll (ws : List ω) : Journal ε ω Unit := ⟨ws, .ok ()⟩

/-- A computation that writes nothing. -/
def attempt (r : Except ε α) : Journal ε ω α := ⟨[], r⟩

instance : Monad (Journal ε ω) where
  pure a := ⟨[], .ok a⟩
  bind x f :=
    match x.outcome with
    | .ok a => ⟨x.written ++ (f a).written, (f a).outcome⟩
    | .error e => ⟨x.written, .error e⟩

@[simp] lemma written_pure (a : α) : (pure a : Journal ε ω α).written = [] := rfl

@[simp] lemma write_bind (w : ω) (f : Unit → Journal ε ω β) :
    write w >>= f = ⟨w :: (f ()).written, (f ()).outcome⟩ := rfl

@[simp] lemma writeAll_bind (ws : List ω) (f : Unit → Journal ε ω β) :
    writeAll ws >>= f = ⟨ws ++ (f ()).written, (f ()).outcome⟩ := rfl

@[simp] lemma attempt_ok_bind (a : α) (f : α → Journal ε ω β) : attempt (.ok a) >>= f = f a := rfl

@[simp] lemma attempt_error_bind (e : ε) (f : α → Journal ε ω β) : attempt (.error e) >>= f = ⟨[], .error e⟩ := rfl

/-! ### What is written at least -/

/-- There is an entry of this kind. -/
def Emits (P : ω → Prop) (x : Journal ε ω α) : Prop :=
  ∃ w ∈ x.written, P w

section Emits

variable {P : ω → Prop} {x y : Journal ε ω α} {f : α → Journal ε ω β} {g : Unit → Journal ε ω β}

lemma emits_pure {a : α} : Emits P (pure a : Journal ε ω α) ↔ False := by
  simp [Emits]

lemma emits_write {w : ω} : Emits P (write w : Journal ε ω Unit) ↔ P w := by
  simp [Emits, write]

lemma emits_write_bind {w : ω} : Emits P (write w >>= g) ↔ P w ∨ Emits P (g ()) := by
  simp [Emits]

lemma emits_writeAll_bind {ws : List ω} : Emits P (writeAll ws >>= g) ↔ (∃ w ∈ ws, P w) ∨ Emits P (g ()) := by
  simp only [Emits, writeAll_bind, List.mem_append, or_and_right, exists_or]

lemma emits_attempt_bind {r : Except ε α} : Emits P (attempt r >>= f) ↔ ∃ a, r = .ok a ∧ Emits P (f a) := by
  cases r with
  | ok a => simp
  | error e => simp [Emits]

lemma emits_ite {c : Prop} [Decidable c] : Emits P (if c then x else y) ↔ (c ∧ Emits P x) ∨ (¬c ∧ Emits P y) := by
  split <;> simp_all

end Emits

/-! ### What is written at most -/

variable (key : ω → κ)

/-- The keys of the entries are among these, in this order. -/
def Within (names : List κ) (x : Journal ε ω α) : Prop :=
  (x.written.map key).Sublist names

variable {key} {names : List κ}

lemma within_pure (a : α) : Within key names (pure a : Journal ε ω α) :=
  List.nil_sublist names

lemma within_write {w : ω} : Within key [key w] (write w : Journal ε ω Unit) :=
  List.Sublist.refl [key w]

lemma within_write_bind {w : ω} {f : Unit → Journal ε ω β} (h : Within key names (f ())) :
    Within key (key w :: names) (write w >>= f) :=
  List.Sublist.cons_cons (key w) h

lemma within_writeAll_bind {ws : List ω} {first : List κ} {f : Unit → Journal ε ω β} (hw : ws.map key = first)
    (h : Within key names (f ())) : Within key (first ++ names) (writeAll ws >>= f) := by
  change ((ws ++ (f ()).written).map key).Sublist _
  rw [List.map_append, hw]
  exact List.Sublist.append (List.Sublist.refl first) h

lemma within_attempt_bind {r : Except ε α} {f : α → Journal ε ω β} (h : ∀ a, Within key names (f a)) :
    Within key names (attempt r >>= f) := by
  cases r with
  | ok a => exact h a
  | error e => exact List.nil_sublist names

lemma within_ite {c : Prop} [Decidable c] {x y : Journal ε ω α} (hx : Within key names x) (hy : Within key names y) :
    Within key names (if c then x else y) := by
  split
  · exact hx
  · exact hy

end Journal
