import Mathlib.Data.List.Basic
import Mathlib.Logic.Function.Basic
import Mathlib.Order.Nat
import Mathlib.Tactic.Common

/-!
# A registry of tasks

A program creates tasks under names, and keeps the last one of each name. A task that is replaced
while it is alive is lost. If a task is only created under a name without a live task, every live
task is the one of its name (`Tracked`), and no name has two.
-/

namespace TaskRegistry

structure Task (N C : Type) where
  name : N
  coroutine : C
  /-- The next turn of the task throws the cancellation into its coroutine. -/
  cancelling : Bool := false
  done : Bool := false
  deriving DecidableEq, Repr

/-- The tasks in the order of their creation, and the place of the one that a name is kept for. -/
structure Registry (N C : Type) where
  tasks : List (Task N C) := []
  current : N → Option ℕ := fun _ => none

namespace Registry

variable {N C : Type} (r : Registry N C)

/-! ### Operations -/

def alter (k : ℕ) (f : Task N C → Task N C) : Registry N C :=
  { r with tasks := r.tasks.modify k f }

def finish (k : ℕ) : Registry N C :=
  r.alter k fun task => { task with done := true }

def cancel (k : ℕ) : Registry N C :=
  r.alter k fun task => { task with cancelling := true }

/-- The task's coroutine awaits, with no cancellation left to throw. -/
def suspend (k : ℕ) (coroutine : C) : Registry N C :=
  r.alter k fun task => { task with coroutine := coroutine, cancelling := false }

/-- The tasks that the names are kept for. -/
def values (names : List N) : List ℕ :=
  names.filterMap r.current

section Create

variable [DecidableEq N]

def create (name : N) (coroutine : C) : Registry N C where
  tasks := r.tasks ++ [{ name, coroutine }]
  current := Function.update r.current name (some r.tasks.length)

def createAll (names : List N) (coroutine : C) : Registry N C :=
  names.foldl (fun r name => r.create name coroutine) r

end Create

/-! ### Live tasks -/

def Live (k : ℕ) (name : N) : Prop :=
  ∃ task, r.tasks[k]? = some task ∧ task.name = name ∧ task.done = false

def Idle : Prop :=
  ∀ task ∈ r.tasks, task.done = true

def OneEach : Prop :=
  ∀ j k name, r.Live j name → r.Live k name → j = k

/-- Every live task is the one its name is kept for. -/
def Tracked : Prop :=
  ∀ k name, r.Live k name → r.current name = some k

def Named (names : List N) : Prop :=
  ∀ task ∈ r.tasks, task.name ∈ names

instance decidableIdle : Decidable r.Idle :=
  List.decidableBAll _ r.tasks

instance decidableLive [DecidableEq N] (k : ℕ) (name : N) : Decidable (r.Live k name) :=
  match htask : r.tasks[k]? with
  | none => .isFalse (by simp [Live, htask])
  | some task => decidable_of_iff (task.name = name ∧ task.done = false) (by simp [Live, htask])

variable {r}

lemma Tracked.oneEach (h : r.Tracked) : r.OneEach := by
  intro j k name hj hk
  have hsame : some j = some k := (h j name hj).symm.trans (h k name hk)
  exact Option.some.inj hsame

lemma idle_iff : r.Idle ↔ ∀ k name, ¬r.Live k name := by
  constructor
  · rintro h k name ⟨task, htask, -, hdone⟩
    rw [h task (List.mem_of_getElem? htask)] at hdone
    contradiction
  · intro h task htask
    obtain ⟨k, hk⟩ := List.getElem?_of_mem htask
    by_contra hdone
    exact h k task.name ⟨task, hk, rfl, by simpa using hdone⟩

lemma Live.lt {k : ℕ} {name : N} (h : r.Live k name) : k < r.tasks.length := by
  obtain ⟨task, htask, -⟩ := h
  exact (List.getElem?_eq_some_iff.mp htask).1

lemma Live.named {names : List N} {k : ℕ} {name : N} (h : r.Live k name) (hnames : r.Named names) : name ∈ names := by
  obtain ⟨task, htask, rfl, -⟩ := h
  exact hnames task (List.mem_of_getElem? htask)

lemma Live.mem_values {names : List N} {k : ℕ} {name : N} (h : r.Live k name) (hr : r.Tracked)
    (hnames : r.Named names) : k ∈ r.values names :=
  List.mem_filterMap.mpr ⟨name, h.named hnames, hr k name h⟩

/-! ### What the operations do to live tasks -/

lemma live_alter {f : Task N C → Task N C} (hname : ∀ task, (f task).name = task.name)
    (hdone : ∀ task, (f task).done = task.done) {j k : ℕ} {name : N} :
    (r.alter j f).Live k name ↔ r.Live k name := by
  unfold Live alter
  simp only [List.getElem?_modify]
  cases htask : r.tasks[k]? with
  | none => simp
  | some task =>
    by_cases hjk : j = k
    · simp [hjk, hname, hdone]
    · simp [hjk]

lemma live_finish {j k : ℕ} {name : N} : (r.finish j).Live k name ↔ r.Live k name ∧ k ≠ j := by
  unfold Live finish alter
  simp only [List.getElem?_modify]
  cases htask : r.tasks[k]? with
  | none => simp
  | some task =>
    by_cases hjk : j = k
    · simp [hjk]
    · simp [hjk, Ne.symm hjk]

lemma live_cancel {j k : ℕ} {name : N} : (r.cancel j).Live k name ↔ r.Live k name :=
  live_alter (f := fun task => { task with cancelling := true }) (fun _ => rfl) (fun _ => rfl)

lemma live_suspend {j k : ℕ} {coroutine : C} {name : N} : (r.suspend j coroutine).Live k name ↔ r.Live k name :=
  live_alter (f := fun task => { task with coroutine := coroutine, cancelling := false }) (fun _ => rfl) (fun _ => rfl)

lemma current_foldl_cancel (ks : List ℕ) : (ks.foldl cancel r).current = r.current := by
  induction ks generalizing r with
  | nil => rfl
  | cons k ks ih => exact ih

lemma live_foldl_cancel {ks : List ℕ} {k : ℕ} {name : N} : (ks.foldl cancel r).Live k name ↔ r.Live k name := by
  induction ks generalizing r with
  | nil => exact Iff.rfl
  | cons j ks ih => exact ih.trans live_cancel

lemma Tracked.congr {r' : Registry N C} (h : r.Tracked) (hcurrent : r'.current = r.current)
    (hlive : ∀ k name, r'.Live k name → r.Live k name) : r'.Tracked := by
  intro k name hk
  rw [hcurrent]
  exact h k name (hlive k name hk)

lemma Tracked.finish (h : r.Tracked) (j : ℕ) : (r.finish j).Tracked :=
  h.congr rfl fun _ _ hk => (live_finish.mp hk).1

lemma Tracked.suspend (h : r.Tracked) (j : ℕ) (coroutine : C) : (r.suspend j coroutine).Tracked :=
  h.congr rfl fun _ _ hk => live_suspend.mp hk

lemma Tracked.foldl_cancel (h : r.Tracked) (ks : List ℕ) : (ks.foldl cancel r).Tracked :=
  h.congr (current_foldl_cancel ks) fun _ _ hk => live_foldl_cancel.mp hk

lemma named_alter {names : List N} (h : r.Named names) (k : ℕ) {f : Task N C → Task N C}
    (hname : ∀ task, (f task).name = task.name) : (r.alter k f).Named names := by
  intro task htask
  obtain ⟨j, hj⟩ := List.getElem?_of_mem htask
  simp only [alter, List.getElem?_modify] at hj
  cases hold : r.tasks[j]? with
  | none => simp [hold] at hj
  | some old =>
    have hmem : old.name ∈ names := h old (List.mem_of_getElem? hold)
    simp only [hold, Option.map_eq_map, Option.map_some, Option.some.injEq] at hj
    split at hj
    · rw [← hj, hname]
      exact hmem
    · rw [← hj]
      exact hmem

lemma Named.finish {names : List N} (h : r.Named names) (k : ℕ) : (r.finish k).Named names :=
  named_alter h k fun _ => rfl

lemma Named.suspend {names : List N} (h : r.Named names) (k : ℕ) (coroutine : C) : (r.suspend k coroutine).Named names :=
  named_alter h k fun _ => rfl

lemma Named.foldl_cancel {names : List N} (h : r.Named names) (ks : List ℕ) : (ks.foldl cancel r).Named names := by
  induction ks generalizing r with
  | nil => exact h
  | cons k ks ih => exact ih (named_alter h k fun _ => rfl)

section Create

variable [DecidableEq N]

lemma live_create {name m : N} {coroutine : C} {k : ℕ} :
    (r.create name coroutine).Live k m ↔ r.Live k m ∨ k = r.tasks.length ∧ m = name := by
  unfold Live create
  by_cases hlt : k < r.tasks.length
  · simp [List.getElem?_append_left hlt, hlt.ne]
  · have hold : r.tasks[k]? = none := List.getElem?_eq_none (not_lt.mp hlt)
    by_cases heq : k = r.tasks.length
    · subst heq
      rw [List.getElem?_concat_length, hold]
      constructor
      · rintro ⟨task, htask, rfl, -⟩
        rw [← Option.some.inj htask]
        exact .inr ⟨rfl, rfl⟩
      · rintro (⟨task, htask, -⟩ | ⟨-, rfl⟩)
        · contradiction
        · exact ⟨_, rfl, rfl, rfl⟩
    · have hnew : (r.tasks ++ [({ name, coroutine } : Task N C)])[k]? = none := by
        apply List.getElem?_eq_none
        rw [List.length_append, List.length_singleton]
        omega
      simp [hold, hnew, heq]

/-- A task is created under a name that has no live one. -/
lemma Tracked.create (h : r.Tracked) {name : N} (hname : ∀ k, ¬r.Live k name) (coroutine : C) :
    (r.create name coroutine).Tracked := by
  intro k m hk
  rcases live_create.mp hk with hold | ⟨rfl, rfl⟩
  · have hne : m ≠ name := fun heq => hname k (heq ▸ hold)
    change Function.update r.current name _ m = some k
    rw [Function.update_of_ne hne]
    exact h k m hold
  · exact Function.update_self _ _ _

lemma Named.create {names : List N} (h : r.Named names) {name : N} (hname : name ∈ names) (coroutine : C) :
    (r.create name coroutine).Named names := by
  intro task htask
  rcases List.mem_append.mp htask with hold | hnew
  · exact h task hold
  · rw [List.mem_singleton.mp hnew]
    exact hname

lemma Named.createAll {all names : List N} (h : r.Named all) (hnames : ∀ name ∈ names, name ∈ all) (coroutine : C) :
    (r.createAll names coroutine).Named all := by
  induction names generalizing r with
  | nil => exact h
  | cons name names ih =>
    exact ih (h.create (hnames name (by simp)) coroutine) fun m hm => hnames m (List.mem_cons_of_mem _ hm)

lemma Tracked.createAll (h : r.Tracked) {names : List N} (hnodup : names.Nodup)
    (hnames : ∀ name ∈ names, ∀ k, ¬r.Live k name) (coroutine : C) : (r.createAll names coroutine).Tracked := by
  induction names generalizing r with
  | nil => exact h
  | cons name names ih =>
    obtain ⟨hfresh, hnodup⟩ := List.nodup_cons.mp hnodup
    apply ih (h.create (hnames name (by simp)) coroutine) hnodup
    intro m hm k hk
    rcases live_create.mp hk with hold | ⟨-, rfl⟩
    · exact hnames m (List.mem_cons_of_mem _ hm) k hold
    · exact hfresh hm

lemma live_createAll_of_live {names : List N} {coroutine : C} {k : ℕ} {name : N} (h : r.Live k name) :
    (r.createAll names coroutine).Live k name := by
  induction names generalizing r with
  | nil => exact h
  | cons m names ih => exact ih (live_create.mpr (.inl h))

/-- Every name gets a task that was not there before. -/
lemma live_createAll {names : List N} {name : N} (h : name ∈ names) (coroutine : C) :
    ∃ k, r.tasks.length ≤ k ∧ (r.createAll names coroutine).Live k name := by
  induction names generalizing r with
  | nil => cases h
  | cons m names ih =>
    rcases List.mem_cons.mp h with rfl | hmem
    · have hnew : (r.create name coroutine).Live r.tasks.length name := live_create.mpr (.inr ⟨rfl, rfl⟩)
      exact ⟨r.tasks.length, le_rfl, live_createAll_of_live (r := r.create name coroutine) hnew⟩
    · obtain ⟨k, hle, hk⟩ := ih (r := r.create m coroutine) hmem
      have hlength : r.tasks.length ≤ (r.create m coroutine).tasks.length := by simp [Registry.create]
      exact ⟨k, hlength.trans hle, hk⟩

/-- Creating a task under every name loses each live one. -/
lemma idle_of_oneEach_createAll {names : List N} {coroutine : C} (hnames : r.Named names)
    (h : (r.createAll names coroutine).OneEach) : r.Idle := by
  rw [idle_iff]
  intro k name hk
  obtain ⟨j, hle, hj⟩ := live_createAll (r := r) (hk.named hnames) coroutine
  have hjk : j = k := h j k name hj (live_createAll_of_live hk)
  exact absurd hk.lt (not_lt.mpr (hjk ▸ hle))

end Create

end Registry

end TaskRegistry
