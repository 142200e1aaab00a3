import Mathlib.Data.List.Nodup
import Mathlib.Data.Set.Insert
import Mathlib.Logic.Function.Basic
import Mathlib.Logic.Relation
import Mathlib.Tactic.Common

/-!
# Marks that keep work from being done twice

Targets open and close, one episode after another. A task that works on a target marks the
target's name, notes the episode, and leaves a record of both; a marked name is left alone by the
others. If no mark is taken away from a name that is still worked on, or that has a record of an
episode which is not over, no two records agree in target and episode.
-/

namespace Suppression

variable {τ ν κ : Type}

/-- How far a task is with its target. -/
inductive Stage where
  | claimed
  | tagged (episode : ℕ)
  | recorded
  deriving DecidableEq, Repr

structure Job (κ : Type) where
  target : κ
  stage : Stage

/-- The marked names, what the tasks work on, the records, how often a target has opened, and
the open targets. -/
structure Marks (τ ν κ : Type) where
  marked : Set ν
  job : τ → Option (Job κ)
  records : List (κ × ℕ)
  episode : κ → ℕ
  isOpen : Set κ

section Marks

variable [DecidableEq τ] (name : κ → ν) (m : Marks τ ν κ)

/-- The recorded episode has ended. -/
def Marks.Over (x : κ × ℕ) : Prop :=
  x.2 < m.episode x.1 ∨ x.1 ∉ m.isOpen

def Marks.AllOver (s : ν) : Prop :=
  ∀ x ∈ m.records, name x.1 = s → m.Over x

/-- No task works on the name, and every episode recorded for it has ended. -/
structure Marks.Quiet (s : ν) : Prop where
  idle : ∀ t j, m.job t = some j → name j.target ≠ s
  ended : m.AllOver name s

inductive Step : Marks τ ν κ → Prop
  | claim (t : τ) (k : κ) (hfree : m.job t = none) (hunmarked : name k ∉ m.marked) :
      Step { m with marked := insert (name k) m.marked, job := Function.update m.job t (some ⟨k, .claimed⟩) }
  | tag (t : τ) (k : κ) (hjob : m.job t = some ⟨k, .claimed⟩) (hopen : k ∈ m.isOpen) :
      Step { m with job := Function.update m.job t (some ⟨k, .tagged (m.episode k)⟩) }
  | record (t : τ) (k : κ) (e : ℕ) (hjob : m.job t = some ⟨k, .tagged e⟩) :
      Step { m with records := m.records ++ [(k, e)], job := Function.update m.job t (some ⟨k, .recorded⟩) }
  /-- The task leaves its mark behind. -/
  | finish (t : τ) : Step { m with job := Function.update m.job t none }
  /-- The task takes its mark away. -/
  | drop (t : τ) (j : Job κ) (hjob : m.job t = some j) (hover : j.stage = .recorded → m.AllOver name (name j.target)) :
      Step { m with marked := m.marked \ {name j.target}, job := Function.update m.job t none }
  | unmark (s : Set ν) (hquiet : ∀ n ∈ s, m.Quiet name n) : Step { m with marked := m.marked \ s }
  | advance (episode : κ → ℕ) (isOpen : Set κ) (hle : ∀ k, m.episode k ≤ episode k)
      (hopen : ∀ k ∈ isOpen, k ∈ m.isOpen ∨ m.episode k < episode k) : Step { m with episode, isOpen }

/-- Whoever works on a name holds its mark, alone, and an episode that is recorded and not over
has its name marked. -/
structure Inv : Prop where
  held : ∀ t j, m.job t = some j → name j.target ∈ m.marked
  alone : ∀ t t' j j', m.job t = some j → m.job t' = some j' → name j.target = name j'.target → t = t'
  live : ∀ x ∈ m.records, ¬m.Over x → name x.1 ∈ m.marked
  clear : ∀ t j, m.job t = some j → j.stage ≠ .recorded → m.AllOver name (name j.target)
  tagged : ∀ t k e, m.job t = some ⟨k, .tagged e⟩ → e ≤ m.episode k ∧ ∀ x ∈ m.records, x.1 = k → x.2 < e
  past : ∀ x ∈ m.records, x.2 ≤ m.episode x.1
  once : m.records.Nodup

end Marks

/-! ### Every step keeps the invariant -/

section Steps

variable [DecidableEq τ] {name : κ → ν} {m m' : Marks τ ν κ}

lemma update_eq_some {job : τ → Option (Job κ)} {t t' : τ} {o : Option (Job κ)} {j : Job κ}
    (h : Function.update job t o t' = some j) : (t' = t ∧ o = some j) ∨ (t' ≠ t ∧ job t' = some j) := by
  by_cases ht : t' = t
  · subst ht
    rw [Function.update_self] at h
    exact .inl ⟨rfl, h⟩
  · rw [Function.update_of_ne ht] at h
    exact .inr ⟨ht, h⟩

lemma Inv.claim (h : Inv name m) (t : τ) {k : κ} (hunmarked : name k ∉ m.marked) :
    Inv name { m with marked := insert (name k) m.marked, job := Function.update m.job t (some ⟨k, .claimed⟩) } := by
  have hother : ∀ t' j, m.job t' = some j → name k ≠ name j.target :=
    fun t' j hj heq => hunmarked (heq ▸ h.held t' j hj)
  have hover : m.AllOver name (name k) := by
    intro x hx heq
    by_contra hlive
    exact hunmarked (heq ▸ h.live x hx hlive)
  constructor
  case past => exact h.past
  case once => exact h.once
  case held =>
    intro t' j hj
    obtain ⟨-, ho⟩ | ⟨-, hj⟩ := update_eq_some hj
    · rw [← Option.some.inj ho]
      exact Set.mem_insert _ _
    · exact Set.mem_insert_of_mem _ (h.held t' j hj)
  case alone =>
    intro t₁ t₂ j₁ j₂ h₁ h₂ heq
    obtain ⟨ht₁, ho₁⟩ | ⟨-, hj₁⟩ := update_eq_some h₁ <;> obtain ⟨ht₂, ho₂⟩ | ⟨-, hj₂⟩ := update_eq_some h₂
    · exact ht₁.trans ht₂.symm
    · rw [← Option.some.inj ho₁] at heq
      exact absurd heq (hother t₂ j₂ hj₂)
    · rw [← Option.some.inj ho₂] at heq
      exact absurd heq.symm (hother t₁ j₁ hj₁)
    · exact h.alone t₁ t₂ j₁ j₂ hj₁ hj₂ heq
  case live => exact fun x hx hlive => Set.mem_insert_of_mem _ (h.live x hx hlive)
  case clear =>
    intro t' j hj hstage
    obtain ⟨-, ho⟩ | ⟨-, hj⟩ := update_eq_some hj
    · rw [← Option.some.inj ho]
      exact hover
    · exact h.clear t' j hj hstage
  case tagged =>
    intro t' k' e hj
    obtain ⟨-, ho⟩ | ⟨-, hj⟩ := update_eq_some hj
    · cases ho
    · exact h.tagged t' k' e hj

/-- A task goes on to the next stage of its job. -/
lemma Inv.stage (h : Inv name m) {t : τ} {k : κ} {s s' : Stage} (hjob : m.job t = some ⟨k, s⟩)
    (hclear : s' ≠ .recorded → m.AllOver name (name k))
    (htagged : ∀ e, s' = .tagged e → e ≤ m.episode k ∧ ∀ x ∈ m.records, x.1 = k → x.2 < e) :
    Inv name { m with job := Function.update m.job t (some ⟨k, s'⟩) } := by
  have hbefore : ∀ t' j, Function.update m.job t (some ⟨k, s'⟩) t' = some j →
      ∃ j', m.job t' = some j' ∧ j'.target = j.target := by
    intro t' j hj
    obtain ⟨rfl, ho⟩ | ⟨-, hj⟩ := update_eq_some hj
    · exact ⟨_, hjob, by rw [← Option.some.inj ho]⟩
    · exact ⟨j, hj, rfl⟩
  constructor
  case past => exact h.past
  case once => exact h.once
  case live => exact h.live
  case held =>
    intro t' j hj
    obtain ⟨j', hj', heq⟩ := hbefore t' j hj
    exact heq ▸ h.held t' j' hj'
  case alone =>
    intro t₁ t₂ j₁ j₂ h₁ h₂ heq
    obtain ⟨j₁', hj₁, heq₁⟩ := hbefore t₁ j₁ h₁
    obtain ⟨j₂', hj₂, heq₂⟩ := hbefore t₂ j₂ h₂
    exact h.alone t₁ t₂ j₁' j₂' hj₁ hj₂ (by rw [heq₁, heq₂, heq])
  case clear =>
    intro t' j hj hstage
    obtain ⟨-, ho⟩ | ⟨-, hj⟩ := update_eq_some hj
    · obtain rfl := Option.some.inj ho
      exact hclear hstage
    · exact h.clear t' j hj hstage
  case tagged =>
    intro t' k' e hj
    obtain ⟨-, ho⟩ | ⟨-, hj⟩ := update_eq_some hj
    · obtain ⟨rfl, rfl⟩ := Job.mk.inj (Option.some.inj ho)
      exact htagged e rfl
    · exact h.tagged t' k' e hj

lemma Inv.tag (h : Inv name m) {t : τ} {k : κ} (hjob : m.job t = some ⟨k, .claimed⟩) (hopen : k ∈ m.isOpen) :
    Inv name { m with job := Function.update m.job t (some ⟨k, .tagged (m.episode k)⟩) } := by
  have hclear : m.AllOver name (name k) := h.clear t _ hjob (by simp)
  apply h.stage hjob (fun _ => hclear)
  intro e he
  obtain rfl := Stage.tagged.inj he
  refine ⟨le_rfl, fun x hx hk => ?_⟩
  subst hk
  exact (hclear x hx rfl).resolve_right (not_not.mpr hopen)

/-- A record of the episode that a task has noted is a new one. -/
lemma Inv.record (h : Inv name m) {t : τ} {k : κ} {e : ℕ} (hjob : m.job t = some ⟨k, .tagged e⟩) :
    Inv name { m with
      records := m.records ++ [(k, e)], job := Function.update m.job t (some ⟨k, .recorded⟩) } := by
  obtain ⟨he, hearlier⟩ := h.tagged t k e hjob
  have hi : Inv name { m with job := Function.update m.job t (some ⟨k, .recorded⟩) } :=
    h.stage hjob (fun hne => absurd rfl hne) (by simp)
  have hother : ∀ t' j, t' ≠ t → m.job t' = some j → name k ≠ name j.target :=
    fun t' j hne hj heq => hne (h.alone t t' _ j hjob hj heq).symm
  constructor
  case held => exact hi.held
  case alone => exact hi.alone
  case past =>
    intro x hx
    rcases List.mem_append.mp hx with hx | hx
    · exact h.past x hx
    · rw [List.mem_singleton.mp hx]
      exact he
  case once =>
    apply List.Nodup.append h.once (List.nodup_singleton _)
    rw [List.disjoint_singleton]
    exact fun hmem => lt_irrefl e (hearlier _ hmem rfl)
  case live =>
    intro x hx hlive
    rcases List.mem_append.mp hx with hx | hx
    · exact h.live x hx hlive
    · rw [List.mem_singleton.mp hx]
      exact h.held t _ hjob
  case clear =>
    intro t' j hj hstage x hx heq
    obtain ⟨-, ho⟩ | ⟨hne, hj⟩ := update_eq_some hj
    · rw [← Option.some.inj ho] at hstage
      exact absurd rfl hstage
    · rcases List.mem_append.mp hx with hx | hx
      · exact h.clear t' j hj hstage x hx heq
      · rw [List.mem_singleton.mp hx] at heq
        exact absurd heq (hother t' j hne hj)
  case tagged =>
    intro t' k' e' hj
    obtain ⟨-, ho⟩ | ⟨hne, hj⟩ := update_eq_some hj
    · cases ho
    · refine ⟨(h.tagged t' k' e' hj).1, fun x hx hk => ?_⟩
      rcases List.mem_append.mp hx with hx | hx
      · exact (h.tagged t' k' e' hj).2 x hx hk
      · rw [List.mem_singleton.mp hx] at hk
        exact absurd (congrArg name hk) (hother t' _ hne hj)

/-- A task gives its job up, and whatever marks go are of names that are quiet without it. -/
lemma Inv.leave (h : Inv name m) (t : τ) {marked : Set ν}
    (hheld : ∀ t' j, t' ≠ t → m.job t' = some j → name j.target ∈ marked)
    (hlive : ∀ x ∈ m.records, ¬m.Over x → name x.1 ∈ marked) :
    Inv name { m with marked, job := Function.update m.job t none } := by
  have hbefore : ∀ t' j, Function.update m.job t none t' = some j → t' ≠ t ∧ m.job t' = some j := by
    intro t' j hj
    obtain ⟨-, ho⟩ | hj := update_eq_some hj
    · cases ho
    · exact hj
  constructor
  case past => exact h.past
  case once => exact h.once
  case live => exact hlive
  case held => exact fun t' j hj => hheld t' j (hbefore t' j hj).1 (hbefore t' j hj).2
  case alone => exact fun t₁ t₂ j₁ j₂ h₁ h₂ => h.alone t₁ t₂ j₁ j₂ (hbefore t₁ j₁ h₁).2 (hbefore t₂ j₂ h₂).2
  case clear => exact fun t' j hj => h.clear t' j (hbefore t' j hj).2
  case tagged => exact fun t' k e hj => h.tagged t' k e (hbefore t' _ hj).2

lemma Inv.drop (h : Inv name m) {t : τ} {j : Job κ} (hjob : m.job t = some j)
    (hover : j.stage = .recorded → m.AllOver name (name j.target)) :
    Inv name { m with marked := m.marked \ {name j.target}, job := Function.update m.job t none } := by
  have hall : m.AllOver name (name j.target) := by
    by_cases hstage : j.stage = .recorded
    · exact hover hstage
    · exact h.clear t j hjob hstage
  apply h.leave t
  · intro t' j' hne hj'
    exact ⟨h.held t' j' hj', fun heq => hne (h.alone t' t j' j hj' hjob heq)⟩
  · exact fun x hx hlive => ⟨h.live x hx hlive, fun heq => hlive (hall x hx heq)⟩

omit [DecidableEq τ] in
lemma Inv.unmark (h : Inv name m) {s : Set ν} (hquiet : ∀ n ∈ s, m.Quiet name n) :
    Inv name { m with marked := m.marked \ s } :=
  { h with
    held := fun t j hj => ⟨h.held t j hj, fun hs => (hquiet _ hs).idle t j hj rfl⟩
    live := fun x hx hlive => ⟨h.live x hx hlive, fun hs => hlive ((hquiet _ hs).ended x hx rfl)⟩ }

omit [DecidableEq τ] in
/-- An episode that is over stays so. -/
lemma Inv.advance (h : Inv name m) {episode : κ → ℕ} {isOpen : Set κ} (hle : ∀ k, m.episode k ≤ episode k)
    (hopen : ∀ k ∈ isOpen, k ∈ m.isOpen ∨ m.episode k < episode k) : Inv name { m with episode, isOpen } := by
  have hover : ∀ x ∈ m.records, m.Over x → Marks.Over { m with episode, isOpen } x := by
    intro x hx ho
    rcases ho with hlt | hclosed
    · exact .inl (hlt.trans_le (hle x.1))
    · by_cases hmem : x.1 ∈ isOpen
      · have hlt : m.episode x.1 < episode x.1 := (hopen x.1 hmem).resolve_left hclosed
        exact .inl ((h.past x hx).trans_lt hlt)
      · exact .inr hmem
  exact {
    held := h.held
    alone := h.alone
    once := h.once
    live := fun x hx hlive => h.live x hx (fun ho => hlive (hover x hx ho))
    clear := fun t j hj hstage x hx heq => hover x hx (h.clear t j hj hstage x hx heq)
    tagged := fun t k e hj => ⟨(h.tagged t k e hj).1.trans (hle k), (h.tagged t k e hj).2⟩
    past := fun x hx => (h.past x hx).trans (hle x.1) }

theorem Inv.step (h : Inv name m) (hstep : Step name m m') : Inv name m' := by
  cases hstep with
  | claim t k hfree hunmarked => exact h.claim t hunmarked
  | tag t k hjob hopen => exact h.tag hjob hopen
  | record t k e hjob => exact h.record hjob
  | finish t => exact h.leave t (fun t' j _ hj => h.held t' j hj) h.live
  | drop t j hjob hover => exact h.drop hjob hover
  | unmark s hquiet => exact h.unmark hquiet
  | advance episode isOpen hle hopen => exact h.advance hle hopen

theorem Inv.steps (h : Inv name m) (hsteps : Relation.ReflTransGen (Step name) m m') : Inv name m' := by
  induction hsteps with
  | refl => exact h
  | tail _ hstep ih => exact ih.step hstep

end Steps

end Suppression
