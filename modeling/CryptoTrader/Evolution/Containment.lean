import CryptoTrader.Evolution.Workspace

/-!
# What a candidate can touch

`resolve_path` checks the spelling of a path and where it leads, but not that what it leads
to is allowed. A path that begins with an allowed prefix can leave it by `..` and come back
anywhere in the workspace, so a workspace that accepts any path at all accepts a path to
every place below its root (`accepted_everywhere`). Likewise the mutation policy sees only
spellings.
-/

namespace CryptoTrader

open Paths

/-! ### The claim about workspaces -/

namespace CandidateWorkspace

variable (cwd : WorkingDirectory) (w : CandidateWorkspace)

/-- The workspace directory. -/
def root : List Component := resolve cwd.parts w.workspacePath

/-- What a path denotes in the workspace. -/
def denotes (path : FilePath) : List Component := resolve (w.root cwd) path

/-- An accepted target is under an allowed path and under no protected one. -/
def Contained (path : FilePath) : Prop :=
  ∀ target, w.resolvePath cwd path = .ok (.accepted target) →
    (∃ a ∈ w.allowedPaths, w.denotes cwd a <+: walk [] target) ∧
      ∀ p ∈ w.protectedPaths, ¬w.denotes cwd p <+: walk [] target

/-- The string passes the checks of `resolve_path` on the string. -/
structure Spelled (path : FilePath) : Prop where
  relative : isAbs path = false
  no_null : '\x00' ∉ path
  allowed : ∃ a ∈ w.allowedPaths, a <+: path
  unprotected : ∀ p ∈ w.protectedPaths, ¬p <+: path

/-- Strictly inside a directory other than `/`. -/
def Below (dir target : List Component) : Prop :=
  dir ≠ [] ∧ ∃ rest, rest ≠ [] ∧ target = dir ++ rest

/-- No string that passes leads below the root. -/
def Idle : Prop :=
  '\x00' ∈ w.workspacePath ∨ ∀ path, w.Spelled path → ¬Below (w.root cwd) (walk (w.root cwd) path)

/-- An allowed path is the root or a directory above it, and no protected path is one, or
(unless its name holds a null byte) is anything in the workspace. -/
def Unconfined : Prop :=
  (∃ a ∈ w.allowedPaths, w.denotes cwd a <+: w.root cwd) ∧
    ∀ p ∈ w.protectedPaths, ¬w.denotes cwd p <+: w.root cwd ∧
      ∀ rest, w.denotes cwd p = w.root cwd ++ rest → ∃ c ∈ rest, '\x00' ∈ c

variable {cwd w}

lemma root_names : ∀ c ∈ w.root cwd, Name c :=
  resolve_names cwd.names w.workspacePath

lemma root_no_null (hw : '\x00' ∉ w.workspacePath) : ∀ c ∈ w.root cwd, '\x00' ∉ c :=
  resolve_induction cwd.no_null (fun _ _ hsub hnull => hw (hsub hnull))

lemma walk_root_names (path : FilePath) : ∀ c ∈ walk (w.root cwd) path, Name c :=
  walk_induction root_names (fun _ hc _ => hc)

lemma any_spelledUnder {prefixes : List FilePath} {path : FilePath} :
    prefixes.any (spelledUnder path) = true ↔ ∃ p ∈ prefixes, p <+: path := by
  simp only [List.any_eq_true, spelledUnder_iff]

lemma checkPath_accepted_iff {path target : FilePath} {dir dir' : List Component} :
    w.checkPath path dir dir' = .accepted target ↔
      render dir ++ [sep] <+: render dir' ∧ (∀ p ∈ w.protectedPaths, ¬p <+: path) ∧
        (∃ a ∈ w.allowedPaths, a <+: path) ∧ target = render dir' := by
  have hprot : (∀ p ∈ w.protectedPaths, ¬p <+: path) ↔ w.protectedPaths.any (spelledUnder path) = false := by
    rw [← Bool.not_eq_true, any_spelledUnder]
    simp only [not_exists, not_and]
  rw [hprot, ← any_spelledUnder, ← List.isPrefixOf_iff_prefix, checkPath]
  generalize (render dir ++ [sep]).isPrefixOf (render dir') = inside
  generalize w.protectedPaths.any (spelledUnder path) = prot
  generalize w.allowedPaths.any (spelledUnder path) = allowed
  cases inside <;> cases prot <;> cases allowed <;> simp [eq_comm]

lemma realpath_join {path : FilePath} (hw : '\x00' ∉ w.workspacePath) (habs : isAbs path = false) :
    realpath cwd (join (render (w.root cwd)) path) =
      if '\x00' ∈ path then .error "lstat: embedded null character in path" else .ok (walk (w.root cwd) path) := by
  have hnull : '\x00' ∈ join (render (w.root cwd)) path ↔ '\x00' ∈ path :=
    mem_join_render (by decide) (root_no_null hw)
  rw [realpath, resolve_join cwd.parts root_names habs]
  simp only [hnull]

/-- What `resolve_path` accepts, and the target it returns. -/
lemma resolvePath_accepted_iff {path target : FilePath} :
    w.resolvePath cwd path = .ok (.accepted target) ↔
      '\x00' ∉ w.workspacePath ∧ w.Spelled path ∧ Below (w.root cwd) (walk (w.root cwd) path) ∧
        target = render (walk (w.root cwd) path) := by
  have hbelow : render (w.root cwd) ++ [sep] <+: render (walk (w.root cwd) path) ↔
      Below (w.root cwd) (walk (w.root cwd) path) :=
    render_sep_prefix root_names (walk_root_names path)
  have hresolve : isAbs path = false → '\x00' ∉ w.workspacePath → '\x00' ∉ path →
      w.resolvePath cwd path = .ok (w.checkPath path (w.root cwd) (walk (w.root cwd) path)) := by
    intro habs hw hp
    have hroot : realpath cwd w.workspacePath = .ok (w.root cwd) := if_neg hw
    have htarget : realpath cwd (join (render (w.root cwd)) path) = _ := realpath_join hw habs
    rw [if_neg hp] at htarget
    simp [resolvePath, habs, hroot, htarget, bind, Except.bind, pure, Except.pure]
  constructor
  · intro h
    have habs : isAbs path = false := by
      by_contra habs
      rw [resolvePath, if_pos (Bool.of_not_eq_false habs)] at h
      cases h
    have hw : '\x00' ∉ w.workspacePath := by
      intro hw
      simp [resolvePath, habs, realpath, hw, bind, Except.bind] at h
    have hp : '\x00' ∉ path := by
      intro hp
      have hroot : realpath cwd w.workspacePath = .ok (w.root cwd) := if_neg hw
      have htarget : realpath cwd (join (render (w.root cwd)) path) = _ := realpath_join hw habs
      rw [if_pos hp] at htarget
      simp [resolvePath, habs, hroot, htarget, bind, Except.bind] at h
    rw [hresolve habs hw hp, Except.ok.injEq, checkPath_accepted_iff, hbelow] at h
    exact ⟨hw, ⟨habs, hp, h.2.2.1, h.2.1⟩, h.1, h.2.2.2⟩
  · rintro ⟨hw, hs, hin, rfl⟩
    rw [hresolve hs.relative hw hs.no_null, Except.ok.injEq, checkPath_accepted_iff, hbelow]
    exact ⟨hin, hs.unprotected, hs.allowed, rfl⟩

/-- An accepted path can be continued so that it leads anywhere below the root. -/
theorem accepted_everywhere (hc : ∀ path, w.Contained cwd path) {path : FilePath} (hw : '\x00' ∉ w.workspacePath)
    (hs : w.Spelled path) (hin : Below (w.root cwd) (walk (w.root cwd) path)) {rest : List Component}
    (hne : rest ≠ []) (hnames : ∀ c ∈ rest, Name c) (hnull : ∀ c ∈ rest, '\x00' ∉ c) :
    ∃ path', w.resolvePath cwd path' = .ok (.accepted (render (w.root cwd ++ rest))) := by
  have hpath : path ≠ [] := by
    rintro rfl
    obtain ⟨-, rest', hrest', heq⟩ := hin
    exact hrest' (List.self_eq_append_right.mp heq)
  have habs : ∀ t, isAbs (path ++ t) = false := by
    obtain ⟨a, path', rfl⟩ := List.exists_cons_of_ne_nil hpath
    exact fun t => hs.relative
  -- a protected path that fits with more separators denotes what the accepted path does
  have hseps : ∀ k, path ++ List.replicate k sep ∉ w.protectedPaths := by
    intro k hk
    have haccepted := resolvePath_accepted_iff.mpr ⟨hw, hs, hin, rfl⟩
    apply (hc path _ haccepted).2 _ hk
    refine ⟨[], ?_⟩
    rw [List.append_nil, walk_render (walk_root_names path), denotes, resolve, if_neg (by simp [habs]), walk_seps]
  have htarget : ∀ c ∈ w.root cwd ++ rest, Name c := by
    intro c hc'
    rcases List.mem_append.mp hc' with hc' | hc'
    · exact root_names c hc'
    · exact hnames c hc'
  obtain ⟨t, hfree, hwalk, hchars⟩ := exists_detour hs.unprotected hseps (w.root cwd) htarget
  refine ⟨path ++ t, resolvePath_accepted_iff.mpr ⟨hw, ⟨habs t, ?_, ?_, hfree⟩, ?_, ?_⟩⟩
  · intro ha
    rcases List.mem_append.mp ha with ha | ha
    · exact hs.no_null ha
    · rcases hchars _ ha with h | h | ⟨c, hc', hac⟩
      · revert h
        decide
      · revert h
        decide
      · rcases List.mem_append.mp hc' with hc' | hc'
        · exact root_no_null hw c hc' hac
        · exact hnull c hc' hac
  · obtain ⟨a, ha, hpre⟩ := hs.allowed
    exact ⟨a, ha, hpre.trans (List.prefix_append path t)⟩
  · rw [hwalk]
    exact ⟨hin.1, rest, hne, rfl⟩
  · rw [hwalk]

/-- All accepted targets are where they should be exactly if there are none, or if they may
be anywhere in the workspace. -/
lemma contained_iff : (∀ path, w.Contained cwd path) ↔ w.Idle cwd ∨ w.Unconfined cwd := by
  constructor
  · intro hc
    by_cases hidle : w.Idle cwd
    · exact Or.inl hidle
    · right
      obtain ⟨hw, hpaths⟩ := not_or.mp hidle
      push Not at hpaths
      obtain ⟨path, hs, hin⟩ := hpaths
      have hall : ∀ rest, rest ≠ [] → (∀ c ∈ rest, Name c) → (∀ c ∈ rest, '\x00' ∉ c) →
          (∃ a ∈ w.allowedPaths, w.denotes cwd a <+: w.root cwd ++ rest) ∧
            ∀ p ∈ w.protectedPaths, ¬w.denotes cwd p <+: w.root cwd ++ rest := by
        intro rest hne hnames hnull
        obtain ⟨path', hpath'⟩ := accepted_everywhere hc hw hs hin hne hnames hnull
        have hcontained := hc path' _ hpath'
        rwa [walk_render] at hcontained
        intro c hc'
        rcases List.mem_append.mp hc' with hc' | hc'
        · exact root_names c hc'
        · exact hnames c hc'
      -- a place whose name no allowed path uses
      obtain ⟨n, hname, hfresh⟩ := exists_fresh_name (w.allowedPaths.flatMap (w.denotes cwd))
      have hqnull : '\x00' ∉ List.replicate (n + 1) 'q' := by
        rw [List.mem_replicate, not_and]
        intro _
        decide
      obtain ⟨⟨a, ha, hpre⟩, hprot⟩ := hall [List.replicate (n + 1) 'q'] (List.cons_ne_nil _ _)
        (by simpa using hname) (by simp)
      refine ⟨⟨a, ha, ?_⟩, ?_⟩
      · rcases List.prefix_concat_iff.mp hpre with heq | hpre
        · exact absurd (List.mem_flatMap.mpr ⟨a, ha, heq ▸ by simp⟩) hfresh
        · exact hpre
      · intro p hp
        have hroot : ¬w.denotes cwd p <+: w.root cwd := fun h => hprot p hp (h.trans (List.prefix_append _ _))
        refine ⟨hroot, ?_⟩
        intro rest hrest
        by_contra hnull
        push Not at hnull
        have hne : rest ≠ [] := by
          rintro rfl
          rw [List.append_nil] at hrest
          exact hroot (hrest ▸ List.prefix_refl _)
        have hnames : ∀ c ∈ rest, Name c := fun c hc' =>
          resolve_names root_names p c (hrest ▸ List.mem_append_right _ hc')
        exact (hall rest hne hnames hnull).2 p hp (hrest ▸ List.prefix_refl _)
  · rintro (hidle | ⟨⟨a, ha, hroot⟩, hprot⟩) path target haccepted
    · obtain ⟨hw, hs, hin, -⟩ := resolvePath_accepted_iff.mp haccepted
      exact absurd hin ((hidle.resolve_left hw) path hs)
    · obtain ⟨hw, hs, ⟨-, rest, -, heq⟩, rfl⟩ := resolvePath_accepted_iff.mp haccepted
      rw [walk_render (walk_root_names path), heq]
      refine ⟨⟨a, ha, hroot.trans (List.prefix_append _ _)⟩, ?_⟩
      intro p hp hpre
      obtain ⟨habove, hinside⟩ := hprot p hp
      obtain ⟨rest', hrest'⟩ := (List.prefix_or_prefix_of_prefix hpre (List.prefix_append _ rest)).resolve_left habove
      obtain ⟨c, hc', hnull⟩ := hinside rest' hrest'.symm
      rw [← hrest', List.prefix_append_right_inj] at hpre
      have hmem : c ∈ walk (w.root cwd) path := by
        rw [heq]
        exact List.mem_append_right _ (hpre.subset hc')
      exact walk_induction (root_no_null hw) (fun _ _ hsub h => hs.no_null (hsub h)) c hmem hnull

end CandidateWorkspace

/-! ### The claim about the policy -/

namespace EvolutionMutationPolicy

variable (repo : WorkingDirectory) (policy : EvolutionMutationPolicy)

/-- A candidate with a changed file in a protected place of the repository is rejected. -/
def Guards (candidate : EvolutionCandidate) : Prop :=
  (∃ f ∈ candidate.changedFiles, ∃ p ∈ policy.protectedPathPrefixes,
    resolve repo.parts p <+: resolve repo.parts f) → (policy.validate candidate).1 = false

variable {repo policy}

lemma isPathProtected_iff {path : FilePath} :
    policy.isPathProtected path = true ↔ ∃ p ∈ policy.protectedPathPrefixes, p <+: path := by
  simp only [isPathProtected, List.any_eq_true, spelledUnder_iff]

lemma validate_file {candidateType : String} {f : FilePath} :
    (policy.validate { candidateType := candidateType, changedFiles := [f] }).1 = true ↔
      candidateType ∈ policy.allowedCandidateTypes ∧ ∀ p ∈ policy.protectedPathPrefixes, ¬p <+: f := by
  have hf : policy.isPathProtected f = false ↔ ∀ p ∈ policy.protectedPathPrefixes, ¬p <+: f := by
    rw [← Bool.not_eq_true, isPathProtected_iff]
    simp only [not_exists, not_and]
  by_cases ht : candidateType ∈ policy.allowedCandidateTypes
  · rw [← hf]
    cases hp : policy.isPathProtected f <;> simp [validate, isCandidateTypeAllowed, ht, hp]
  · simp [validate, isCandidateTypeAllowed, ht]

/-- The policy guards its paths exactly if it allows no candidate, protects nothing, or
protects every string. -/
lemma guards_iff : (∀ candidate, policy.Guards repo candidate) ↔
    policy.allowedCandidateTypes = [] ∨ policy.protectedPathPrefixes = [] ∨ [] ∈ policy.protectedPathPrefixes := by
  constructor
  · intro hg
    by_contra hcond
    obtain ⟨htypes, hrest⟩ := not_or.mp hcond
    obtain ⟨hprefixes, hempty⟩ := not_or.mp hrest
    obtain ⟨candidateType, types, htypes'⟩ := List.exists_cons_of_ne_nil htypes
    obtain ⟨p₀, ps, hps⟩ := List.exists_cons_of_ne_nil hprefixes
    have htype : candidateType ∈ policy.allowedCandidateTypes := htypes' ▸ List.mem_cons_self
    have hp₀ : p₀ ∈ policy.protectedPathPrefixes := hps ▸ List.mem_cons_self
    have hbreach : ∀ f, (∀ p ∈ policy.protectedPathPrefixes, ¬p <+: f) → ∀ p ∈ policy.protectedPathPrefixes,
        ¬resolve repo.parts p <+: resolve repo.parts f := by
      intro f hf p hp hpre
      have hvalid := validate_file.mpr ⟨htype, hf⟩
      rw [hg { candidateType := candidateType, changedFiles := [f] } ⟨f, List.mem_singleton_self f, p, hp, hpre⟩]
        at hvalid
      exact absurd hvalid Bool.false_ne_true
    -- the empty string and `.` denote the repository itself
    have hnil : ∀ p ∈ policy.protectedPathPrefixes, ¬p <+: [] := by
      intro p hp hpre
      exact hempty (List.prefix_nil.mp hpre ▸ hp)
    have hseps : ∀ k, ['.'] ++ List.replicate k sep ∉ policy.protectedPathPrefixes := by
      intro k hk
      apply hbreach [] hnil _ hk
      have hdot : isAbs (['.'] ++ List.replicate k sep) = false := rfl
      rw [resolve, hdot, if_neg Bool.false_ne_true, walk_seps]
      exact List.prefix_refl _
    have hdot : ∀ p ∈ policy.protectedPathPrefixes, ¬p <+: ['.'] := by
      intro p hp hpre
      rw [← List.nil_append ['.'], List.prefix_concat_iff] at hpre
      rcases hpre with rfl | hpre
      · exact hseps 0 hp
      · exact hnil p hp hpre
    obtain ⟨t, hfree, hwalk, -⟩ :=
      exists_detour hdot hseps repo.parts (resolve_names repo.names p₀)
    apply hbreach _ hfree p₀ hp₀
    have habs : isAbs (['.'] ++ t) = false := rfl
    have hresolve : resolve repo.parts (['.'] ++ t) = resolve repo.parts p₀ := by
      rw [resolve, habs, if_neg Bool.false_ne_true, hwalk]
    exact hresolve ▸ List.prefix_refl _
  · rintro (htypes | hprefixes | hempty) candidate ⟨f, hf, p, hp, -⟩
    · simp [validate, isCandidateTypeAllowed, htypes]
    · rw [hprefixes] at hp
      exact absurd hp List.not_mem_nil
    · have hprotected : candidate.changedFiles.any policy.isPathProtected = true :=
        List.any_eq_true.mpr ⟨f, hf, isPathProtected_iff.mpr ⟨[], hempty, List.nil_prefix⟩⟩
      rw [validate, if_pos hprotected]
      split <;> rfl

end EvolutionMutationPolicy

/-- What workspaces and policies keep apart. -/
theorem candidate_containment (cwd repo : WorkingDirectory) (w : CandidateWorkspace) (policy : EvolutionMutationPolicy) :
    ((∀ path, w.Contained cwd path) ↔ w.Idle cwd ∨ w.Unconfined cwd) ∧
      ((∀ candidate, policy.Guards repo candidate) ↔
        policy.allowedCandidateTypes = [] ∨ policy.protectedPathPrefixes = [] ∨ [] ∈ policy.protectedPathPrefixes) :=
  ⟨CandidateWorkspace.contained_iff, EvolutionMutationPolicy.guards_iff⟩

/-- A process in the root directory. -/
def rootDirectory : WorkingDirectory := ⟨[], by simp, by simp⟩

def factorWorkspace : CandidateWorkspace :=
  (({} : CandidateWorkspaceManager).create "c1" "abc" "v1" ["src/crypto_trader/factors/".toList] []).1

/-- A candidate for the factors may write into the risk engine, and a candidate that says
so with a leading `./` is valid. -/
theorem risk_engine_writable :
    (¬∀ cwd (w : CandidateWorkspace) path, w.Contained cwd path) ∧
      ¬∀ repo (policy : EvolutionMutationPolicy) candidate, policy.Guards repo candidate := by
  constructor
  · intro h
    have hcontained := h rootDirectory factorWorkspace "src/crypto_trader/factors/../risk/engine.py".toList
      "/tmp/evolution_candidates/candidate-c1/src/crypto_trader/risk/engine.py".toList (by decide +kernel)
    exact hcontained.2 "src/crypto_trader/risk/".toList (by decide) (by decide +kernel)
  · intro h
    have hguards := h rootDirectory {} ⟨"FACTOR", ["./src/crypto_trader/risk/engine.py".toList], []⟩
      ⟨_, List.mem_singleton_self _, "src/crypto_trader/risk/".toList, by decide, by decide +kernel⟩
    revert hguards
    decide +kernel

end CryptoTrader
