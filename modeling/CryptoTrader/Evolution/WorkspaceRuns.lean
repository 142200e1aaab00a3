import CryptoTrader.Evolution.Containment
import CryptoTrader.Lib.Json
import CryptoTrader.Lib.Runs

/-!
# Runs over candidate workspaces

`record_write` and `finalize` do not look at the status of the workspace. Workspaces are kept
by reference: a caller may hold one that was destroyed, or replaced under its id.
-/

namespace CryptoTrader

open KeyedTable Runs

namespace CandidateWorkspace

/-- Each count has a limit and does not exceed it. -/
def WithinBudget (w : CandidateWorkspace) : Prop :=
  ∀ check ∈ w.budgetChecks, ∃ bound, w.limit check.2.1 = .ok bound ∧ check.1 ≤ bound

def HasLimits (w : CandidateWorkspace) : Prop :=
  ∀ check ∈ w.budgetChecks, ∃ bound, w.limit check.2.1 = .ok bound

def LimitsNonneg (w : CandidateWorkspace) : Prop :=
  ∀ check ∈ w.budgetChecks, ∀ bound, w.limit check.2.1 = .ok bound → 0 ≤ bound

/-- The path is accepted, and the counts with the write are within the budget. -/
def Admits (cwd : WorkingDirectory) (w : CandidateWorkspace) (edit : Edit) : Prop :=
  (∃ target, w.resolvePath cwd edit.path = .ok (.accepted target)) ∧
    (w.withWrite edit.path edit.locAdded edit.locRemoved).WithinBudget

variable {w : CandidateWorkspace}

lemma WithinBudget.hasLimits (h : w.WithinBudget) : w.HasLimits := by
  intro check hcheck
  obtain ⟨bound, hbound, -⟩ := h check hcheck
  exact ⟨bound, hbound⟩

lemma hasLimits_withWrite (path : FilePath) (locAdded locRemoved : ℤ) :
    (w.withWrite path locAdded locRemoved).HasLimits ↔ w.HasLimits := by
  simp only [HasLimits, budgetChecks, List.forall_mem_cons]
  rfl

/-- What the checks of the counts say. -/
lemma checkBudget_cases (w : CandidateWorkspace) (checks : List (ℤ × String × String)) :
    (∃ e, w.checkBudget checks = .error e ∧ ∃ check ∈ checks, ∀ bound, w.limit check.2.1 ≠ .ok bound) ∨
      (∃ reason, w.checkBudget checks = .ok (some reason) ∧
        ∃ check ∈ checks, ∃ bound, w.limit check.2.1 = .ok bound ∧ bound < check.1) ∨
      (w.checkBudget checks = .ok none ∧ ∀ check ∈ checks, ∃ bound, w.limit check.2.1 = .ok bound ∧ check.1 ≤ bound) := by
  induction checks with
  | nil => exact .inr (.inr ⟨rfl, fun _ h => absurd h List.not_mem_nil⟩)
  | cons check checks ih =>
    obtain ⟨count, key, reason⟩ := check
    rw [checkBudget]
    cases hlimit : w.limit key with
    | error e =>
      refine .inl ⟨e, rfl, _, List.mem_cons_self, fun bound h => ?_⟩
      rw [hlimit] at h
      cases h
    | ok bound =>
      dsimp only
      by_cases hover : bound < count
      · rw [if_pos hover]
        exact .inr (.inl ⟨reason, rfl, _, List.mem_cons_self, bound, hlimit, hover⟩)
      · rw [if_neg hover]
        rcases ih with ⟨e, he, c, hc, hmissing⟩ | ⟨why, hwhy, c, hc, b, hb, hlt⟩ | ⟨hnone, hall⟩
        · exact .inl ⟨e, he, c, List.mem_cons_of_mem _ hc, hmissing⟩
        · exact .inr (.inl ⟨why, hwhy, c, List.mem_cons_of_mem _ hc, b, hb, hlt⟩)
        · refine .inr (.inr ⟨hnone, fun c hc => ?_⟩)
          rcases List.mem_cons.mp hc with rfl | hc
          · exact ⟨bound, hlimit, not_lt.mp hover⟩
          · exact hall c hc

/-- What a write does: it raises and changes nothing, or counts what has no limit; it is refused,
and the workspace quarantined; or it is admitted. -/
lemma recordWrite_cases (cwd : WorkingDirectory) (w : CandidateWorkspace) (edit : Edit) :
    let written := w.withWrite edit.path edit.locAdded edit.locRemoved
    (∃ e w', w.recordWrite cwd edit.path edit.locAdded edit.locRemoved = (.error e, w') ∧ ¬ w.Admits cwd edit ∧
        (w' = w ∨ w' = written ∧ ¬ w.HasLimits)) ∨
      (∃ reason w', w.recordWrite cwd edit.path edit.locAdded edit.locRemoved = (.ok (false, reason), w') ∧
        ¬ w.Admits cwd edit ∧ (w' = w.quarantine ∨ w' = written.quarantine)) ∨
      (w.recordWrite cwd edit.path edit.locAdded edit.locRemoved = (.ok (true, "OK"), written) ∧ w.Admits cwd edit) := by
  intro written
  unfold recordWrite
  cases hresolve : w.resolvePath cwd edit.path with
  | error e =>
    refine .inl ⟨e, w, rfl, ?_, .inl rfl⟩
    rintro ⟨⟨target, htarget⟩, -⟩
    rw [hresolve] at htarget
    cases htarget
  | ok resolution =>
    cases resolution with
    | refused reason =>
      refine .inr (.inl ⟨reason, w.quarantine, rfl, ?_, .inl rfl⟩)
      rintro ⟨⟨target, htarget⟩, -⟩
      rw [hresolve] at htarget
      cases htarget
    | accepted target =>
      dsimp only
      rcases checkBudget_cases written written.budgetChecks with
        ⟨e, he, check, hcheck, hmissing⟩ | ⟨reason, hreason, check, hcheck, bound, hbound, hlt⟩ | ⟨hnone, hall⟩
      · rw [he]
        refine .inl ⟨e, written, rfl, ?_, .inr ⟨rfl, ?_⟩⟩
        · rintro ⟨-, hwithin⟩
          obtain ⟨bound, hbound, -⟩ := hwithin check hcheck
          exact hmissing bound hbound
        · intro hlimits
          obtain ⟨bound, hbound⟩ := (hasLimits_withWrite _ _ _).mpr hlimits check hcheck
          exact hmissing bound hbound
      · rw [hreason]
        refine .inr (.inl ⟨reason, written.quarantine, rfl, ?_, .inr rfl⟩)
        rintro ⟨-, hwithin⟩
        obtain ⟨bound', hbound', hle⟩ := hwithin check hcheck
        have heq : bound' = bound := Except.ok.inj (hbound'.symm.trans hbound)
        exact absurd hlt (not_lt.mpr (heq ▸ hle))
      · rw [hnone]
        exact .inr (.inr ⟨rfl, ⟨target, hresolve⟩, hall⟩)

end CandidateWorkspace

/-! ### One workspace -/

/-- A workspace and what has happened to it: whether it has been quarantined, whether a write was
accepted after that, and the paths of the edits that were refused. -/
structure TrackedWorkspace where
  workspace : CandidateWorkspace
  quarantinedOnce : Bool := false
  acceptedLate : Bool := false
  rejected : List FilePath := []

namespace TrackedWorkspace

variable (cwd : WorkingDirectory) (candidateCommit diffHash : String)

/-- The workspace after a write, or another change. -/
def moved (t : TrackedWorkspace) (w : CandidateWorkspace) : TrackedWorkspace :=
  { t with workspace := w, quarantinedOnce := t.quarantinedOnce || w.workspaceStatus = .quarantined }

def recordWrite (t : TrackedWorkspace) (edit : Edit) : Except String (Bool × String) × TrackedWorkspace :=
  let (answer, w) := t.workspace.recordWrite cwd edit.path edit.locAdded edit.locRemoved
  match answer with
  | .error e => (.error e, t.moved w)
  | .ok (false, reason) => (.ok (false, reason), { t.moved w with rejected := t.rejected ++ [edit.path] })
  | .ok (true, reason) => (.ok (true, reason), { t.moved w with acceptedLate := t.acceptedLate || t.quarantinedOnce })

def finalize (t : TrackedWorkspace) : TrackedWorkspace := t.moved (t.workspace.finalize candidateCommit diffHash)

/-- The loop of `apply`. -/
def applyEdits : List Edit → TrackedWorkspace → TrackedWorkspace
  | [], t => t.finalize candidateCommit diffHash
  | edit :: edits, t =>
    match t.recordWrite cwd edit with
    | (.error _, t) => t
    | (.ok (false, _), t) => t.moved t.workspace.quarantine
    | (.ok (true, _), t) => applyEdits edits t

/-- It is the loop of the materializer. -/
lemma workspace_applyEdits (edits : List Edit) (t : TrackedWorkspace) :
    (applyEdits cwd candidateCommit diffHash edits t).workspace =
      (CandidateMaterializer.applyEdits cwd candidateCommit diffHash edits t.workspace).2 := by
  induction edits generalizing t with
  | nil => rfl
  | cons edit edits ih =>
    unfold applyEdits CandidateMaterializer.applyEdits recordWrite
    rcases t.workspace.recordWrite cwd edit.path edit.locAdded edit.locRemoved with ⟨answer, w⟩
    cases answer with
    | error e => rfl
    | ok answer =>
      obtain ⟨accepted, reason⟩ := answer
      cases accepted with
      | false => rfl
      | true => exact ih _

/-- What holds of a workspace: quarantine is final, and a materialized one is within its budget
and has no refused edit. -/
structure Sound (t : TrackedWorkspace) : Prop where
  refuses : t.acceptedLate = false
  final : t.quarantinedOnce = true → t.workspace.workspaceStatus ≠ .materialized
  budget : t.workspace.workspaceStatus = .materialized → t.workspace.WithinBudget
  unrejected : t.workspace.workspaceStatus = .materialized → ∀ path ∈ t.rejected, path ∉ t.workspace.changedFiles

structure Kept (t : TrackedWorkspace) : Prop where
  refuses : t.acceptedLate = false
  marked : t.workspace.workspaceStatus = .quarantined → t.quarantinedOnce = true
  rejected : t.quarantinedOnce = false → t.rejected = []
  untouched : t.workspace.changedFiles = [] → t.workspace.locAdded = 0 ∧ t.workspace.locRemoved = 0
  written : t.quarantinedOnce = false → t.workspace.HasLimits → t.workspace.changedFiles ≠ [] → t.workspace.WithinBudget
  materialized : t.workspace.workspaceStatus = .materialized → t.quarantinedOnce = false ∧ t.workspace.WithinBudget

lemma Kept.sound {t : TrackedWorkspace} (h : t.Kept) : t.Sound where
  refuses := h.refuses
  final := by
    intro hq hm
    rw [(h.materialized hm).1] at hq
    cases hq
  budget := fun hm => (h.materialized hm).2
  unrejected := by
    intro hm path hpath
    rw [h.rejected (h.materialized hm).1] at hpath
    exact absurd hpath List.not_mem_nil

/-- The workspace may be finalized: it was never quarantined, and its budget names the limits, of
which none is negative where nothing has been written. -/
def MayFinalize (t : TrackedWorkspace) : Prop :=
  t.quarantinedOnce = false ∧ t.workspace.HasLimits ∧ (t.workspace.changedFiles = [] → t.workspace.LimitsNonneg)

/-- A write is not admitted to a workspace that was quarantined. -/
def MayWrite (t : TrackedWorkspace) (edit : Edit) : Prop :=
  t.quarantinedOnce = true → ¬ t.workspace.Admits cwd edit

def MayApply (t : TrackedWorkspace) : List Edit → Prop
  | [] => t.MayFinalize
  | edit :: _ => t.MayWrite cwd edit

variable {cwd candidateCommit diffHash} {t : TrackedWorkspace}

lemma withWrite_ne_nil (w : CandidateWorkspace) (path : FilePath) (locAdded locRemoved : ℤ) :
    (w.withWrite path locAdded locRemoved).changedFiles ≠ [] := by
  unfold CandidateWorkspace.withWrite
  dsimp only
  split
  · rename_i h
    exact List.ne_nil_of_mem h
  · simp

/-- A workspace that is quarantined, whatever was counted. -/
lemma Kept.quarantined (h : t.Kept) {w : CandidateWorkspace} (rejected : List FilePath)
    (huntouched : w.changedFiles = [] → w.locAdded = 0 ∧ w.locRemoved = 0) :
    Kept { t.moved w.quarantine with rejected := rejected } where
  refuses := h.refuses
  marked := fun _ => by simp [moved, CandidateWorkspace.quarantine]
  rejected := fun hq => by simp [moved, CandidateWorkspace.quarantine] at hq
  untouched := huntouched
  written := fun hq => by simp [moved, CandidateWorkspace.quarantine] at hq
  materialized := fun hm => by cases hm

lemma Kept.untouched_counts (h : t.Kept) (hfiles : t.workspace.changedFiles = []) :
    ∀ check ∈ t.workspace.budgetChecks, check.1 = 0 := by
  obtain ⟨hadded, hremoved⟩ := h.untouched hfiles
  simp [CandidateWorkspace.budgetChecks, hfiles, hadded, hremoved]

lemma MayFinalize.withinBudget (h : t.Kept) (hmay : t.MayFinalize) : t.workspace.WithinBudget := by
  obtain ⟨hquarantined, hlimits, hnonneg⟩ := hmay
  by_cases hfiles : t.workspace.changedFiles = []
  · intro check hcheck
    obtain ⟨bound, hbound⟩ := hlimits check hcheck
    exact ⟨bound, hbound, h.untouched_counts hfiles check hcheck ▸ hnonneg hfiles check hcheck bound hbound⟩
  · exact h.written hquarantined hlimits hfiles

lemma Kept.finalize (h : t.Kept) (hmay : t.MayFinalize) : (t.finalize candidateCommit diffHash).Kept := by
  have hwithin : t.workspace.WithinBudget := hmay.withinBudget h
  refine ⟨h.refuses, ?_, fun _ => h.rejected hmay.1, h.untouched, fun _ _ _ => hwithin, fun _ => ⟨?_, hwithin⟩⟩
  · intro hm
    cases hm
  · simp [TrackedWorkspace.finalize, moved, hmay.1, CandidateWorkspace.finalize]

lemma mayFinalize_of_sound (h : t.Kept) (hsound : (t.finalize candidateCommit diffHash).Sound) : t.MayFinalize := by
  have hwithin : t.workspace.WithinBudget := hsound.budget rfl
  refine ⟨?_, hwithin.hasLimits, ?_⟩
  · apply Bool.eq_false_iff.mpr
    intro hquarantined
    have honce : (t.finalize candidateCommit diffHash).quarantinedOnce = true := by
      simp [TrackedWorkspace.finalize, moved, hquarantined]
    exact hsound.final honce rfl
  · intro hfiles check hcheck bound hbound
    obtain ⟨bound', hbound', hle⟩ := hwithin check hcheck
    obtain rfl : bound' = bound := Except.ok.inj (hbound'.symm.trans hbound)
    exact h.untouched_counts hfiles check hcheck ▸ hle

/-! ### A write -/

lemma recordWrite_spec (cwd : WorkingDirectory) (t : TrackedWorkspace) (edit : Edit) :
    let written := t.workspace.withWrite edit.path edit.locAdded edit.locRemoved
    (∃ e w, t.recordWrite cwd edit = (.error e, t.moved w) ∧ ¬ t.workspace.Admits cwd edit ∧
        (w = t.workspace ∨ w = written ∧ ¬ t.workspace.HasLimits)) ∨
      (∃ reason w, t.recordWrite cwd edit =
          (.ok (false, reason), { t.moved w.quarantine with rejected := t.rejected ++ [edit.path] }) ∧
        ¬ t.workspace.Admits cwd edit ∧ (w = t.workspace ∨ w = written)) ∨
      (t.recordWrite cwd edit =
          (.ok (true, "OK"), { t.moved written with acceptedLate := t.acceptedLate || t.quarantinedOnce }) ∧
        t.workspace.Admits cwd edit) := by
  intro written
  unfold recordWrite
  rcases CandidateWorkspace.recordWrite_cases cwd t.workspace edit with
    ⟨e, w, hw, hno, hcases⟩ | ⟨reason, w, hw, hno, hcases⟩ | ⟨hw, hadmits⟩
  · rw [hw]
    exact .inl ⟨e, w, rfl, hno, hcases⟩
  · rw [hw]
    rcases hcases with rfl | rfl
    · exact .inr (.inl ⟨reason, _, rfl, hno, .inl rfl⟩)
    · exact .inr (.inl ⟨reason, _, rfl, hno, .inr rfl⟩)
  · rw [hw]
    exact .inr (.inr ⟨rfl, hadmits⟩)

/-- A workspace to which an admitted write was made, and which had not been quarantined. -/
lemma Kept.admitted (h : t.Kept) {edit : Edit} (hmay : t.MayWrite cwd edit) (hadmits : t.workspace.Admits cwd edit) :
    t.quarantinedOnce = false ∧
      Kept { t.moved (t.workspace.withWrite edit.path edit.locAdded edit.locRemoved) with
        acceptedLate := t.acceptedLate || t.quarantinedOnce } := by
  have hquarantined : t.quarantinedOnce = false := Bool.eq_false_iff.mpr fun hq => hmay hq hadmits
  have hstatus : t.workspace.workspaceStatus ≠ .quarantined := by
    intro hs
    rw [h.marked hs] at hquarantined
    cases hquarantined
  have hmoved : (t.moved (t.workspace.withWrite edit.path edit.locAdded edit.locRemoved)).quarantinedOnce = false := by
    simp [moved, hquarantined, CandidateWorkspace.withWrite, hstatus]
  refine ⟨hquarantined, ?_, ?_, ?_, ?_, ?_, ?_⟩
  · simp [h.refuses, hquarantined]
  · exact fun hs => absurd hs hstatus
  · exact fun _ => h.rejected hquarantined
  · exact fun hfiles => absurd hfiles (withWrite_ne_nil _ _ _ _)
  · exact fun _ _ _ => hadmits.2
  · exact fun _ => ⟨hmoved, hadmits.2⟩

lemma Kept.recordWrite (h : t.Kept) {edit : Edit} (hmay : t.MayWrite cwd edit) : (t.recordWrite cwd edit).2.Kept := by
  have huntouched {w : CandidateWorkspace} (hw : w = t.workspace ∨
      w = t.workspace.withWrite edit.path edit.locAdded edit.locRemoved) :
      w.changedFiles = [] → w.locAdded = 0 ∧ w.locRemoved = 0 := by
    rcases hw with rfl | rfl
    · exact h.untouched
    · exact fun hfiles => absurd hfiles (withWrite_ne_nil _ _ _ _)
  rcases recordWrite_spec cwd t edit with ⟨e, w, hw, -, hcases⟩ | ⟨reason, w, hw, -, hcases⟩ | ⟨hw, hadmits⟩
  · rw [hw]
    rcases hcases with rfl | ⟨rfl, hlimits⟩
    · have hsame : t.moved t.workspace = t := by
        have honce : (t.quarantinedOnce || decide (t.workspace.workspaceStatus = .quarantined)) = t.quarantinedOnce := by
          cases hq : t.quarantinedOnce with
          | true => rfl
          | false =>
            rw [Bool.false_or, decide_eq_false_iff_not]
            intro hs
            rw [h.marked hs] at hq
            cases hq
        rw [moved, honce]
      rw [hsame]
      exact h
    · refine ⟨h.refuses, ?_, ?_, huntouched (.inr rfl), ?_, ?_⟩
      · exact fun hs => Bool.or_eq_true_iff.mpr (.inr (decide_eq_true hs))
      · exact fun hq => h.rejected (Bool.or_eq_false_iff.mp hq).1
      · exact fun _ hlimits' => absurd ((CandidateWorkspace.hasLimits_withWrite _ _ _).mp hlimits') hlimits
      · exact fun hm => absurd (h.materialized hm).2.hasLimits hlimits
  · rw [hw]
    exact h.quarantined _ (huntouched hcases)
  · rw [hw]
    exact (h.admitted hmay hadmits).2

lemma mayWrite_of_sound {edit : Edit} (hsound : (t.recordWrite cwd edit).2.acceptedLate = false) : t.MayWrite cwd edit := by
  intro hquarantined hadmits
  rcases recordWrite_spec cwd t edit with ⟨e, w, -, hno, -⟩ | ⟨reason, w, -, hno, -⟩ | ⟨hw, -⟩
  · exact hno hadmits
  · exact hno hadmits
  · rw [hw] at hsound
    simp [hquarantined] at hsound

/-! ### A list of edits -/

lemma Kept.applyEdits {edits : List Edit} (h : t.Kept) (hmay : t.MayApply cwd edits) :
    (TrackedWorkspace.applyEdits cwd candidateCommit diffHash edits t).Kept := by
  induction edits generalizing t with
  | nil => exact h.finalize hmay
  | cons edit edits ih =>
    have hwrite := h.recordWrite hmay
    unfold TrackedWorkspace.applyEdits
    rcases recordWrite_spec cwd t edit with ⟨e, w, hw, -⟩ | ⟨reason, w, hw, -⟩ | ⟨hw, hadmits⟩
    · rw [hw] at hwrite ⊢
      exact hwrite
    · rw [hw] at hwrite ⊢
      exact hwrite.quarantined _ hwrite.untouched
    · rw [hw] at hwrite ⊢
      apply ih hwrite
      obtain ⟨hquarantined, hkept⟩ := h.admitted hmay hadmits
      have hstill : (t.moved (t.workspace.withWrite edit.path edit.locAdded edit.locRemoved)).quarantinedOnce = false := by
        by_contra hq
        have hstatus : t.workspace.workspaceStatus = .quarantined := by
          rw [moved, Bool.not_eq_false, hquarantined, Bool.false_or] at hq
          exact of_decide_eq_true hq
        rw [h.marked hstatus] at hquarantined
        cases hquarantined
      cases edits with
      | nil => exact ⟨hstill, hadmits.2.hasLimits, fun hfiles => absurd hfiles (withWrite_ne_nil _ _ _ _)⟩
      | cons edit' edits => exact fun hq => absurd (hstill.symm.trans hq) Bool.false_ne_true

lemma acceptedLate_applyEdits {edits : List Edit} (h : t.acceptedLate = true) :
    (TrackedWorkspace.applyEdits cwd candidateCommit diffHash edits t).acceptedLate = true := by
  induction edits generalizing t with
  | nil => exact h
  | cons edit edits ih =>
    unfold TrackedWorkspace.applyEdits
    rcases recordWrite_spec cwd t edit with ⟨e, w, hw, -⟩ | ⟨reason, w, hw, -⟩ | ⟨hw, -⟩
    · rw [hw]
      exact h
    · rw [hw]
      exact h
    · rw [hw]
      apply ih
      simp [h]

lemma mayApply_of_sound {edits : List Edit} (h : t.Kept)
    (hsound : (TrackedWorkspace.applyEdits cwd candidateCommit diffHash edits t).Sound) : t.MayApply cwd edits := by
  cases edits with
  | nil => exact mayFinalize_of_sound h hsound
  | cons edit edits =>
    intro hquarantined hadmits
    have hlate := hsound.refuses
    unfold TrackedWorkspace.applyEdits at hlate
    rcases recordWrite_spec cwd t edit with ⟨e, w, -, hno, -⟩ | ⟨reason, w, -, hno, -⟩ | ⟨hw, -⟩
    · exact hno hadmits
    · exact hno hadmits
    · rw [hw] at hlate
      have hlater : (t.acceptedLate || t.quarantinedOnce) = true := by simp [hquarantined]
      exact absurd (hlate.symm.trans (acceptedLate_applyEdits hlater)) Bool.false_ne_true

end TrackedWorkspace

/-! ### Runs -/

/-- The workspaces there have been, and of each id the one that the manager has. -/
structure WorkspaceHeap where
  baseDir : FilePath := "/tmp/evolution_candidates".toList
  policy : EvolutionMutationPolicy := {}
  objects : List TrackedWorkspace := []
  index : Dict String ℕ := []

inductive WorkspaceCall where
  | create (candidateId parentCommit parentVersion : String) (allowedPaths : List FilePath) (budget : List (String × ℤ))
  | recordWrite (ref : ℕ) (edit : Edit)
  | finalize (ref : ℕ) (candidateCommit diffHash : String)
  | apply (candidateId : String) (edits : List Edit) (candidateCommit diffHash : String)
  | destroy (candidateId : String)

namespace WorkspaceHeap

/-- The manager with the workspaces of the index. -/
def manager (h : WorkspaceHeap) : CandidateWorkspaceManager where
  baseDir := h.baseDir
  policy := h.policy
  workspaces := h.index.filterMap (fun e => (h.objects[e.2]?).map TrackedWorkspace.workspace)

def refOf (h : WorkspaceHeap) (candidateId : String) : Option ℕ := Dict.get candidateId h.index

def change (h : WorkspaceHeap) (ref : ℕ) (f : TrackedWorkspace → TrackedWorkspace) : WorkspaceHeap :=
  { h with objects := h.objects.modify ref f }

variable (cwd : WorkingDirectory)

def step (h : WorkspaceHeap) : WorkspaceCall → WorkspaceHeap
  | .create candidateId parentCommit parentVersion allowedPaths budget =>
    let (workspace, _) := h.manager.create candidateId parentCommit parentVersion allowedPaths budget
    { h with
      objects := h.objects ++ [{ workspace }]
      index := Dict.alter candidateId (fun _ => h.objects.length) h.index }
  | .recordWrite ref edit => h.change ref (fun t => (t.recordWrite cwd edit).2)
  | .finalize ref candidateCommit diffHash => h.change ref (TrackedWorkspace.finalize candidateCommit diffHash)
  | .apply candidateId edits candidateCommit diffHash =>
    match h.refOf candidateId with
    | none => h
    | some ref => h.change ref (TrackedWorkspace.applyEdits cwd candidateCommit diffHash edits)
  | .destroy candidateId =>
    match h.refOf candidateId with
    | none => h
    | some ref =>
      { h.change ref (fun t => t.moved { t.workspace with workspaceStatus := .destroyed }) with
        index := h.index.filter (fun e => e.1 ≠ candidateId) }

/-- What the call requires of the workspace that it acts on. -/
def Meets (h : WorkspaceHeap) : WorkspaceCall → Prop
  | .recordWrite ref edit => ∀ t, h.objects[ref]? = some t → t.MayWrite cwd edit
  | .finalize ref _ _ => ∀ t, h.objects[ref]? = some t → t.MayFinalize
  | .apply candidateId edits _ _ =>
    ∀ ref, h.refOf candidateId = some ref → ∀ t, h.objects[ref]? = some t → t.MayApply cwd edits
  | .create .. => True
  | .destroy _ => True

def AllSound (h : WorkspaceHeap) : Prop := ∀ t ∈ h.objects, t.Sound

def AllKept (h : WorkspaceHeap) : Prop := ∀ t ∈ h.objects, t.Kept

variable {h : WorkspaceHeap} {ref : ℕ} {f : TrackedWorkspace → TrackedWorkspace} {P : TrackedWorkspace → Prop}

/-- A change of one workspace keeps what holds of all, if it keeps it there. -/
lemma forall_change (hall : ∀ t ∈ h.objects, P t) (hf : ∀ t, h.objects[ref]? = some t → P (f t)) :
    ∀ t ∈ (h.change ref f).objects, P t := by
  intro t ht
  obtain ⟨i, hi⟩ := List.mem_iff_getElem?.mp ht
  rw [change, List.getElem?_modify] at hi
  obtain ⟨t₀, ht₀, heq⟩ := Option.map_eq_some_iff.mp hi
  by_cases hri : ref = i
  · subst hri
    rw [if_pos rfl] at heq
    exact heq ▸ hf t₀ ht₀
  · rw [if_neg hri] at heq
    exact heq ▸ hall t₀ (List.mem_of_getElem? ht₀)

lemma of_forall_change (hall : ∀ t ∈ (h.change ref f).objects, P t) {t : TrackedWorkspace} (ht : h.objects[ref]? = some t) :
    P (f t) := by
  apply hall
  apply List.mem_of_getElem? (i := ref)
  rw [change, List.getElem?_modify, ht]
  simp

lemma kept_created (candidateId parentCommit parentVersion : String) (allowedPaths : List FilePath)
    (budget : List (String × ℤ)) :
    TrackedWorkspace.Kept ⟨(h.manager.create candidateId parentCommit parentVersion allowedPaths budget).1, false, false, []⟩ where
  refuses := rfl
  marked := fun hs => by cases hs
  rejected := fun _ => rfl
  untouched := fun _ => ⟨rfl, rfl⟩
  written := fun _ _ hfiles => absurd rfl hfiles
  materialized := fun hm => by cases hm

lemma kept_destroyed {t : TrackedWorkspace} (ht : t.Kept) :
    (t.moved { t.workspace with workspaceStatus := .destroyed }).Kept where
  refuses := ht.refuses
  marked := fun hs => by cases hs
  rejected := fun hq => ht.rejected (Bool.or_eq_false_iff.mp hq).1
  untouched := ht.untouched
  written := fun hq => ht.written (Bool.or_eq_false_iff.mp hq).1
  materialized := fun hm => by cases hm

lemma kept_step {call : WorkspaceCall} (hkept : h.AllKept) (hmeets : h.Meets cwd call) : (h.step cwd call).AllKept := by
  have hat {ref : ℕ} {t : TrackedWorkspace} (ht : h.objects[ref]? = some t) : t.Kept := hkept t (List.mem_of_getElem? ht)
  cases call with
  | create candidateId parentCommit parentVersion allowedPaths budget =>
    intro t ht
    rcases List.mem_append.mp ht with ht | ht
    · exact hkept t ht
    · rw [List.mem_singleton.mp ht]
      exact kept_created candidateId parentCommit parentVersion allowedPaths budget
  | recordWrite ref edit => exact forall_change hkept (fun t ht => (hat ht).recordWrite (hmeets t ht))
  | finalize ref candidateCommit diffHash => exact forall_change hkept (fun t ht => (hat ht).finalize (hmeets t ht))
  | apply candidateId edits candidateCommit diffHash =>
    rw [step]
    cases href : h.refOf candidateId with
    | none => exact hkept
    | some ref => exact forall_change hkept (fun t ht => (hat ht).applyEdits (hmeets ref href t ht))
  | destroy candidateId =>
    rw [step]
    cases href : h.refOf candidateId with
    | none => exact hkept
    | some ref => exact forall_change (h := h) hkept (fun t ht => kept_destroyed (hat ht))

lemma meets_of_sound {call : WorkspaceCall} (hkept : h.AllKept) (hsound : (h.step cwd call).AllSound) :
    h.Meets cwd call := by
  have hat {ref : ℕ} {t : TrackedWorkspace} (ht : h.objects[ref]? = some t) : t.Kept := hkept t (List.mem_of_getElem? ht)
  cases call with
  | create candidateId parentCommit parentVersion allowedPaths budget => trivial
  | recordWrite ref edit =>
    intro t ht
    exact TrackedWorkspace.mayWrite_of_sound (of_forall_change hsound ht).refuses
  | finalize ref candidateCommit diffHash =>
    intro t ht
    exact TrackedWorkspace.mayFinalize_of_sound (hat ht) (of_forall_change hsound ht)
  | apply candidateId edits candidateCommit diffHash =>
    intro ref href t ht
    rw [step, href] at hsound
    exact TrackedWorkspace.mayApply_of_sound (hat ht) (of_forall_change hsound ht)
  | destroy candidateId => trivial

end WorkspaceHeap

/-- In every state of a run quarantine is final and budgets hold, exactly if nothing is admitted to
a workspace that was quarantined, and what is finalized has its limits and was not quarantined. -/
theorem workspace_runs_iff (cwd : WorkingDirectory) (baseDir : FilePath) (policy : EvolutionMutationPolicy)
    (calls : List WorkspaceCall) :
    Visits (WorkspaceHeap.step cwd) WorkspaceHeap.AllSound { baseDir, policy } calls ↔
      Along (WorkspaceHeap.step cwd) (fun h call => h.Meets cwd call) { baseDir, policy } calls := by
  apply visits_iff_along (I := WorkspaceHeap.AllKept) (W := fun _ _ => True)
  · exact fun h hkept t ht => (hkept t ht).sound
  · exact fun h call hkept _ hmeets => WorkspaceHeap.kept_step cwd hkept hmeets
  · exact fun h call hkept _ hsound => WorkspaceHeap.meets_of_sound cwd hkept hsound
  · exact fun t ht => absurd ht List.not_mem_nil
  · exact along_of_forall (fun _ _ => trivial)

/-- An edit of a protected path, and then one of a path that is allowed. -/
def secondAttempt : List WorkspaceCall :=
  [.create "c1" "abc" "v1" ["src/crypto_trader/factors/".toList] [],
    .apply "c1" [{ path := "src/crypto_trader/risk/engine.py".toList }] "def" "h1",
    .apply "c1" [{ path := "src/crypto_trader/factors/momentum.py".toList }] "def" "h2"]

/-- The second one materializes the workspace. -/
theorem quarantined_workspace_materialized :
    ¬ Visits (WorkspaceHeap.step rootDirectory) WorkspaceHeap.AllSound {} secondAttempt := by
  intro h
  have hstate : (run (WorkspaceHeap.step rootDirectory) {} secondAttempt).objects.map
      (fun t => (t.quarantinedOnce, t.workspace.workspaceStatus)) = [(true, .materialized)] := by decide +kernel
  obtain ⟨t, ht, heq⟩ := List.mem_map.mp (hstate ▸ List.mem_singleton_self _)
  obtain ⟨hquarantined, hstatus⟩ := Prod.mk.inj heq
  exact (h.last t ht).final hquarantined hstatus

end CryptoTrader
