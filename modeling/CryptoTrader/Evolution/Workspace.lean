import CryptoTrader.Lib.KeyedTable
import CryptoTrader.Lib.Paths

/-!
# Candidate workspaces and the mutation policy

`CandidateWorkspaceManager.resolve_path` resolves a path against the workspace and compares
the string with the protected and the allowed prefixes; `record_write` counts the writes
against the budget, `CandidateMaterializer.apply` makes a list of them.
`EvolutionMutationPolicy.validate` compares the changed files of a candidate with the
protected prefixes. Paths are lists of characters; there are no symbolic links.
-/

namespace CryptoTrader

open KeyedTable

/-- The path of a file, as a string. -/
abbrev FilePath := List Char

/-- `path == p or path.startswith(p)`. -/
def spelledUnder (path prefixed : FilePath) : Bool :=
  path = prefixed || prefixed.isPrefixOf path

lemma spelledUnder_iff {path prefixed : FilePath} : spelledUnder path prefixed = true ↔ prefixed <+: path := by
  rw [spelledUnder, Bool.or_eq_true, decide_eq_true_eq, List.isPrefixOf_iff_prefix]
  constructor
  · rintro (rfl | h)
    · exact List.prefix_refl _
    · exact h
  · exact Or.inr

/-! ### The policy -/

/-- What the policy reads of a candidate; of `config_diff` the keys. -/
structure EvolutionCandidate where
  candidateType : String
  changedFiles : List FilePath := []
  configDiff : List String := []
  deriving DecidableEq, Repr

structure EvolutionMutationPolicy where
  allowedCandidateTypes : List String :=
    ["FACTOR", "FACTOR_WEIGHT", "FACTOR_COMBINATION", "FACTOR_PARAMETER", "STRATEGY_PARAMETER",
      "STRATEGY_ROUTING", "PROMPT", "MODEL_ROUTING", "KNOWLEDGE", "RESEARCH_PROCESS"]
  protectedPathPrefixes : List FilePath :=
    ["src/crypto_trader/runtime/engine.py".toList, "src/crypto_trader/risk/".toList,
      "src/crypto_trader/execution/".toList, "src/crypto_trader/ledger/".toList,
      "src/crypto_trader/order/".toList, "src/crypto_trader/exchange/".toList,
      "src/crypto_trader/credentials".toList, "src/crypto_trader/reconciliation/".toList]
  protectedConfigKeys : List String :=
    ["live_trading_enabled", "kill_switch", "max_leverage", "max_drawdown", "validation_gate", "promotion_policy"]
  deriving DecidableEq, Repr

namespace EvolutionMutationPolicy

def isCandidateTypeAllowed (p : EvolutionMutationPolicy) (candidateType : String) : Bool :=
  p.allowedCandidateTypes.contains candidateType

def isPathProtected (p : EvolutionMutationPolicy) (path : FilePath) : Bool :=
  p.protectedPathPrefixes.any (spelledUnder path)

def validate (p : EvolutionMutationPolicy) (candidate : EvolutionCandidate) : Bool × String :=
  if ¬p.isCandidateTypeAllowed candidate.candidateType then (false, "CANDIDATE_TYPE_FORBIDDEN")
  else if candidate.changedFiles.any p.isPathProtected then (false, "PROTECTED_PATH_VIOLATION")
  else if candidate.configDiff.any p.protectedConfigKeys.contains then (false, "PROTECTED_CONFIG_KEY")
  else (true, "OK")

end EvolutionMutationPolicy

/-! ### Workspaces -/

inductive WorkspaceStatus where
  | created | quarantined | materialized | destroyed
  deriving DecidableEq, Repr

structure CandidateWorkspace where
  candidateId : String
  parentCommit : String
  parentVersion : String
  workspacePath : FilePath
  allowedPaths : List FilePath
  protectedPaths : List FilePath
  workspaceStatus : WorkspaceStatus := .created
  candidateCommit : String := ""
  diffHash : String := ""
  changedFiles : List FilePath := []
  locAdded : ℤ := 0
  locRemoved : ℤ := 0
  budget : List (String × ℤ) := []
  deriving DecidableEq, Repr

/-- What `resolve_path` returns: the reason of a refusal or the target. -/
inductive Resolution where
  | refused (reason : String)
  | accepted (target : FilePath)
  deriving DecidableEq, Repr

/-- The working directory of the process. -/
structure WorkingDirectory where
  parts : List Paths.Component
  names : ∀ c ∈ parts, Paths.Name c
  no_null : ∀ c ∈ parts, '\x00' ∉ c

/-- `os.path.realpath` without symbolic links; the file system calls refuse a null byte. -/
def realpath (cwd : WorkingDirectory) (path : FilePath) : Except String (List Paths.Component) :=
  if '\x00' ∈ path then .error "lstat: embedded null character in path"
  else .ok (Paths.resolve cwd.parts path)

namespace CandidateWorkspace

/-- The checks of `resolve_path` once the root and the target are resolved. -/
def checkPath (workspace : CandidateWorkspace) (path : FilePath) (candidateRoot target : List Paths.Component) :
    Resolution :=
  if ¬(Paths.render candidateRoot ++ [Paths.sep]).isPrefixOf (Paths.render target) then .refused "PATH_ESCAPE"
  else if workspace.protectedPaths.any (spelledUnder path) then .refused "PROTECTED_PATH"
  else if ¬workspace.allowedPaths.any (spelledUnder path) then .refused "PATH_NOT_ALLOWED"
  else .accepted (Paths.render target)

def resolvePath (cwd : WorkingDirectory) (workspace : CandidateWorkspace) (path : FilePath) :
    Except String Resolution :=
  if Paths.isAbs path then .ok (.refused "ABSOLUTE_PATH_ESCAPE")
  else do
    let candidateRoot ← realpath cwd workspace.workspacePath
    let target ← realpath cwd (Paths.join (Paths.render candidateRoot) path)
    return workspace.checkPath path candidateRoot target

/-- `workspace.budget[key]`. -/
def limit (workspace : CandidateWorkspace) (key : String) : Except String ℤ :=
  match row Prod.fst key workspace.budget with
  | some entry => .ok entry.2
  | none => .error s!"KeyError: {key}"

def quarantine (workspace : CandidateWorkspace) : CandidateWorkspace :=
  { workspace with workspaceStatus := .quarantined }

/-- The workspace with a write counted. -/
def withWrite (workspace : CandidateWorkspace) (path : FilePath) (locAdded locRemoved : ℤ) : CandidateWorkspace :=
  { workspace with
    changedFiles := if path ∈ workspace.changedFiles then workspace.changedFiles else workspace.changedFiles ++ [path]
    locAdded := workspace.locAdded + locAdded
    locRemoved := workspace.locRemoved + locRemoved }

/-- The budget checks of `record_write`, in their order: what is counted, its key and the reason. -/
def checkBudget (workspace : CandidateWorkspace) : List (ℤ × String × String) → Except String (Option String)
  | [] => .ok none
  | (count, key, reason) :: checks =>
    match workspace.limit key with
    | .error e => .error e
    | .ok bound => if bound < count then .ok (some reason) else workspace.checkBudget checks

def budgetChecks (workspace : CandidateWorkspace) : List (ℤ × String × String) :=
  [(workspace.changedFiles.length, "max_files_changed", "CHANGE_BUDGET_EXCEEDED_FILES"),
    (workspace.locAdded, "max_loc_added", "CHANGE_BUDGET_EXCEEDED_LOC_ADDED"),
    (workspace.locRemoved, "max_loc_removed", "CHANGE_BUDGET_EXCEEDED_LOC_REMOVED")]

/-- `record_write`: the answer, or what it raises, and the workspace after it. -/
def recordWrite (cwd : WorkingDirectory) (workspace : CandidateWorkspace) (path : FilePath)
    (locAdded locRemoved : ℤ) : Except String (Bool × String) × CandidateWorkspace :=
  match workspace.resolvePath cwd path with
  | .error e => (.error e, workspace)
  | .ok (.refused reason) => (.ok (false, reason), workspace.quarantine)
  | .ok (.accepted _) =>
    let written := workspace.withWrite path locAdded locRemoved
    match written.checkBudget written.budgetChecks with
    | .error e => (.error e, written)
    | .ok (some reason) => (.ok (false, reason), written.quarantine)
    | .ok none => (.ok (true, "OK"), written)

def finalize (workspace : CandidateWorkspace) (candidateCommit diffHash : String) : CandidateWorkspace :=
  { workspace with candidateCommit := candidateCommit, diffHash := diffHash, workspaceStatus := .materialized }

end CandidateWorkspace

structure CandidateWorkspaceManager where
  baseDir : FilePath := "/tmp/evolution_candidates".toList
  policy : EvolutionMutationPolicy := {}
  workspaces : List CandidateWorkspace := []
  deriving DecidableEq, Repr

namespace CandidateWorkspaceManager

def defaultBudget : List (String × ℤ) :=
  [("max_files_changed", 5), ("max_loc_added", 200), ("max_loc_removed", 100), ("max_new_parameters", 10),
    ("max_new_factors", 3)]

def create (m : CandidateWorkspaceManager) (candidateId parentCommit parentVersion : String)
    (allowedPaths : List FilePath) (budget : List (String × ℤ)) : CandidateWorkspace × CandidateWorkspaceManager :=
  let workspace : CandidateWorkspace := {
    candidateId := candidateId
    parentCommit := parentCommit
    parentVersion := parentVersion
    workspacePath := Paths.join m.baseDir ("candidate-".toList ++ candidateId.toList)
    allowedPaths := allowedPaths
    protectedPaths := m.policy.protectedPathPrefixes
    budget := if budget = [] then defaultBudget else budget }
  (workspace, { m with workspaces := upsert CandidateWorkspace.candidateId workspace m.workspaces })

def destroy (m : CandidateWorkspaceManager) (candidateId : String) : CandidateWorkspaceManager :=
  { m with workspaces := m.workspaces.filter (fun w => w.candidateId ≠ candidateId) }

end CandidateWorkspaceManager

/-! ### The materializer -/

/-- An edit, with the defaults of the keys it lacks. -/
structure Edit where
  path : FilePath := []
  locAdded : ℤ := 1
  locRemoved : ℤ := 0
  deriving DecidableEq, Repr

structure MaterializationResult where
  candidateId : String
  status : String
  reason : String
  changedFiles : List FilePath := []
  locAdded : ℤ := 0
  locRemoved : ℤ := 0
  diffHash : String := ""
  deriving DecidableEq, Repr

namespace CandidateMaterializer

/-- The loop of `apply` over the edits. -/
def applyEdits (cwd : WorkingDirectory) (candidateCommit diffHash : String) :
    List Edit → CandidateWorkspace → Except String MaterializationResult × CandidateWorkspace
  | [], w =>
    let w := w.finalize candidateCommit diffHash
    (.ok ⟨w.candidateId, "MATERIALIZED", "OK", w.changedFiles, w.locAdded, w.locRemoved, diffHash⟩, w)
  | edit :: edits, w =>
    match w.recordWrite cwd edit.path edit.locAdded edit.locRemoved with
    | (.error e, w) => (.error e, w)
    | (.ok (false, reason), w) =>
      (.ok ⟨w.candidateId, "QUARANTINED", reason, w.changedFiles, w.locAdded, w.locRemoved, ""⟩, w.quarantine)
    | (.ok (true, _), w) => applyEdits cwd candidateCommit diffHash edits w

def apply (cwd : WorkingDirectory) (m : CandidateWorkspaceManager) (candidateId : String) (edits : List Edit)
    (candidateCommit diffHash : String) : Except String MaterializationResult × CandidateWorkspaceManager :=
  match row CandidateWorkspace.candidateId candidateId m.workspaces with
  | none => (.ok ⟨candidateId, "REJECTED", "WORKSPACE_NOT_FOUND", [], 0, 0, ""⟩, m)
  | some workspace =>
    let (result, workspace) := applyEdits cwd candidateCommit diffHash edits workspace
    (result, { m with workspaces := put CandidateWorkspace.candidateId workspace m.workspaces })

end CandidateMaterializer

end CryptoTrader
