import Mathlib.Data.List.Basic
import Mathlib.Data.List.Induction
import Mathlib.Order.Basic

/-!
# POSIX paths without symbolic links

A directory is the list of its components from the root, a path is a list of characters.
`walk` follows a path from a directory: empty components and `.` stay, `..` goes up, and
stays at the root. Any directory can be reached from any other by enough `..` and its own
components (`walk_detour`).
-/

namespace Paths

abbrev Component := List Char

def sep : Char := '/'

/-- A name of a directory entry. -/
structure Name (c : Component) : Prop where
  ne_nil : c ≠ []
  ne_dot : c ≠ ['.']
  ne_dots : c ≠ ['.', '.']
  no_sep : sep ∉ c

/-- Follow one component. -/
def push (dir : List Component) (c : Component) : List Component :=
  if c = [] ∨ c = ['.'] then dir
  else if c = ['.', '.'] then dir.dropLast
  else dir ++ [c]

def walk (dir : List Component) (path : List Char) : List Component :=
  (path.splitOn sep).foldl push dir

def isAbs (path : List Char) : Bool := path.head? = some sep

/-- The directory or file a path denotes for a process in `dir`. -/
def resolve (dir : List Component) (path : List Char) : List Component :=
  walk (if isAbs path then [] else dir) path

/-- `os.path.join`. -/
def join (base path : List Char) : List Char :=
  if isAbs path then path
  else if base = [] ∨ base.getLast? = some sep then base ++ path
  else base ++ sep :: path

/-- `/a/b`, without a last separator. -/
def spell (dir : List Component) : List Char :=
  dir.flatMap (fun c => sep :: c)

/-- The absolute path of a directory. -/
def render (dir : List Component) : List Char :=
  if dir = [] then [sep] else spell dir

lemma push_of_name {c : Component} (hc : Name c) (dir : List Component) : push dir c = dir ++ [c] := by
  rw [push, if_neg (not_or.mpr ⟨hc.ne_nil, hc.ne_dot⟩), if_neg hc.ne_dots]

/-! ### Following a path -/

@[simp] lemma walk_nil (dir : List Component) : walk dir [] = dir := rfl

lemma walk_append_sep (dir : List Component) (s t : List Char) :
    walk dir (s ++ sep :: t) = walk (walk dir s) t := by
  rw [walk, List.splitOn_append_cons_self, List.foldl_append]
  rfl

/-- One more component. -/
lemma walk_component (dir : List Component) (s : List Char) {c : Component} (hc : sep ∉ c) :
    walk dir (s ++ sep :: c) = push (walk dir s) c := by
  rw [walk_append_sep, walk, List.splitOn_eq_singleton hc]
  rfl

/-- Separators at the end change nothing. -/
lemma walk_seps (dir : List Component) (s : List Char) (n : ℕ) :
    walk dir (s ++ List.replicate n sep) = walk dir s := by
  induction n with
  | zero => rw [List.replicate_zero, List.append_nil]
  | succ n ih =>
    rw [List.replicate_succ', ← List.append_assoc, walk_component dir _ List.not_mem_nil, ih]
    rfl

/-- `/../..` -/
def ups (n : ℕ) : List Char :=
  (List.replicate n [sep, '.', '.']).flatten

lemma walk_ups (dir : List Component) (s : List Char) {n : ℕ} (hn : (walk dir s).length ≤ n) :
    walk dir (s ++ ups n) = [] := by
  suffices h : ∀ k, walk dir (s ++ ups k) = (walk dir s).take ((walk dir s).length - k) by
    rw [h, Nat.sub_eq_zero_of_le hn, List.take_zero]
  intro k
  induction k with
  | zero => simp [ups]
  | succ k ih =>
    have hups : ups (k + 1) = ups k ++ [sep, '.', '.'] := by
      simp [ups, List.replicate_succ']
    have hdots : sep ∉ ['.', '.'] := by decide
    rw [hups, ← List.append_assoc, walk_component dir _ hdots, ih]
    have hpush : ∀ dir, push dir ['.', '.'] = dir.dropLast := fun dir => rfl
    rw [hpush, List.dropLast_eq_take, List.take_take, List.length_take]
    congr 1
    omega

lemma spell_concat (dir : List Component) (c : Component) : spell (dir ++ [c]) = spell dir ++ sep :: c := by
  simp [spell]

lemma walk_spell (dir : List Component) (s : List Char) {dir' : List Component} (hnames : ∀ c ∈ dir', Name c) :
    walk dir (s ++ spell dir') = walk dir s ++ dir' := by
  induction dir' using List.reverseRecOn with
  | nil => simp [spell]
  | append_singleton dir' c ih =>
    have hc : Name c := hnames c (by simp)
    have hrest : ∀ c ∈ dir', Name c := fun c' h' => hnames c' (List.mem_append_left _ h')
    rw [spell_concat, ← List.append_assoc, walk_component dir _ hc.no_sep, ih hrest, push_of_name hc, List.append_assoc]

/-- Up to the root and down again. -/
theorem walk_detour (dir : List Component) (s : List Char) {dir' : List Component} (hnames : ∀ c ∈ dir', Name c) :
    walk dir (s ++ ups (walk dir s).length ++ spell dir') = dir' := by
  rw [walk_spell dir _ hnames, walk_ups dir s (Nat.le_refl _), List.nil_append]

/-! ### The components of a walk -/

lemma mem_splitOn {path : List Char} {c : Component} (h : c ∈ path.splitOn sep) : sep ∉ c ∧ c ⊆ path := by
  induction path generalizing c with
  | nil =>
    obtain rfl : c = [] := by simpa using h
    exact ⟨List.not_mem_nil, List.Subset.refl _⟩
  | cons a path ih =>
    rw [List.splitOn_cons_eq_if_modifyHead] at h
    split at h
    · rcases List.mem_cons.mp h with rfl | h
      · exact ⟨List.not_mem_nil, List.nil_subset _⟩
      · exact ⟨(ih h).1, List.subset_cons_of_subset a (ih h).2⟩
    · rename_i ha
      obtain ⟨d, ds, hds⟩ := List.exists_cons_of_ne_nil (List.splitOn_ne_nil sep path)
      rw [hds, List.modifyHead_cons] at h
      rw [hds] at ih
      rcases List.mem_cons.mp h with rfl | h
      · obtain ⟨hsep, hsub⟩ := ih List.mem_cons_self
        refine ⟨?_, List.cons_subset_cons a hsub⟩
        rw [List.mem_cons, not_or]
        exact ⟨fun he => ha (beq_iff_eq.mpr he.symm), hsep⟩
      · obtain ⟨hsep, hsub⟩ := ih (List.mem_cons_of_mem d h)
        exact ⟨hsep, List.subset_cons_of_subset a hsub⟩

/-- A walk adds names of the path only. -/
lemma walk_induction {P : Component → Prop} {dir : List Component} {path : List Char} (hdir : ∀ c ∈ dir, P c)
    (hpath : ∀ c, Name c → c ⊆ path → P c) : ∀ c ∈ walk dir path, P c := by
  have hstep : ∀ (cs : List Component) (dir : List Component), (∀ c ∈ cs, sep ∉ c ∧ c ⊆ path) →
      (∀ c ∈ dir, P c) → ∀ c ∈ cs.foldl push dir, P c := by
    intro cs
    induction cs with
    | nil => exact fun dir _ hdir => hdir
    | cons c cs ih =>
      intro dir hcs hdir
      apply ih _ (fun c' h' => hcs c' (List.mem_cons_of_mem _ h'))
      obtain ⟨hsep, hsub⟩ := hcs c List.mem_cons_self
      intro c' hc'
      unfold push at hc'
      split at hc'
      · exact hdir c' hc'
      · rename_i hne
        obtain ⟨hne_nil, hne_dot⟩ := not_or.mp hne
        split at hc'
        · exact hdir c' (List.dropLast_subset dir hc')
        · rename_i hne_dots
          rcases List.mem_append.mp hc' with hc' | hc'
          · exact hdir c' hc'
          · rw [List.mem_singleton.mp hc']
            exact hpath c ⟨hne_nil, hne_dot, hne_dots, hsep⟩ hsub
  exact hstep _ dir (fun c hc => mem_splitOn hc) hdir

lemma resolve_induction {P : Component → Prop} {dir : List Component} {path : List Char} (hdir : ∀ c ∈ dir, P c)
    (hpath : ∀ c, Name c → c ⊆ path → P c) : ∀ c ∈ resolve dir path, P c := by
  unfold resolve
  split
  · exact walk_induction (fun c hc => absurd hc List.not_mem_nil) hpath
  · exact walk_induction hdir hpath

lemma resolve_names {dir : List Component} (hdir : ∀ c ∈ dir, Name c) (path : List Char) :
    ∀ c ∈ resolve dir path, Name c :=
  resolve_induction hdir (fun _ hc _ => hc)

/-! ### Absolute paths as strings -/

/-- An absolute path names its directory. -/
lemma walk_render {dir : List Component} (hdir : ∀ c ∈ dir, Name c) : walk [] (render dir) = dir := by
  by_cases hne : dir = []
  · subst hne
    rfl
  · rw [render, if_neg hne]
    exact walk_spell [] [] hdir

lemma getLast?_spell {dir : List Component} (hdir : ∀ c ∈ dir, Name c) : (spell dir).getLast? ≠ some sep := by
  induction dir using List.reverseRecOn with
  | nil => simp [spell]
  | append_singleton dir c _ =>
    have hc : Name c := hdir c (by simp)
    intro hlast
    rw [spell_concat, List.getLast?_append_of_ne_nil _ (List.cons_ne_nil sep c), List.getLast?_cons,
      List.getLast?_eq_some_getLast hc.ne_nil, Option.getD_some, Option.some.injEq] at hlast
    exact hc.no_sep (hlast ▸ List.getLast_mem hc.ne_nil)

/-- Joined to a directory's absolute path, a relative path is followed from the directory. -/
lemma resolve_join (cwd : List Component) {dir : List Component} (hdir : ∀ c ∈ dir, Name c) {path : List Char}
    (hpath : isAbs path = false) : resolve cwd (join (render dir) path) = walk dir path := by
  by_cases hne : dir = []
  · subst hne
    have hjoin : join (render []) path = [] ++ sep :: path := by
      have hlast : (render []).getLast? = some sep := rfl
      rw [join, if_neg (by simp [hpath]), if_pos (Or.inr hlast)]
      rfl
    have habs : isAbs ([] ++ sep :: path) = true := rfl
    rw [hjoin, resolve, if_pos habs, walk_append_sep]
    rfl
  · obtain ⟨c, dir', hdir'⟩ := List.exists_cons_of_ne_nil hne
    have hspell : spell dir ≠ [] := by
      rw [hdir']
      exact List.cons_ne_nil _ _
    have hjoin : join (render dir) path = spell dir ++ sep :: path := by
      rw [join, if_neg (by simp [hpath]), render, if_neg hne, if_neg (not_or.mpr ⟨hspell, getLast?_spell hdir⟩)]
    have habs : isAbs (spell dir ++ sep :: path) = true := by
      rw [hdir']
      rfl
    have hwalk : walk [] (spell dir) = dir := walk_spell [] [] hdir
    rw [hjoin, resolve, if_pos habs, walk_append_sep, hwalk]

/-- The characters of a joined path. -/
lemma mem_join_render {a : Char} (ha : a ≠ sep) {dir : List Component} (hdir : ∀ c ∈ dir, a ∉ c)
    {path : List Char} : a ∈ join (render dir) path ↔ a ∈ path := by
  have hrender : a ∉ render dir := by
    rw [render]
    split
    · rw [List.mem_singleton]
      exact ha
    · simp only [spell, List.mem_flatMap, List.mem_cons, not_exists, not_and, not_or]
      exact fun c hc => ⟨ha, hdir c hc⟩
  unfold join
  split
  · rfl
  · split
    · rw [List.mem_append, or_iff_right hrender]
    · rw [List.mem_append, or_iff_right hrender, List.mem_cons, or_iff_right ha]

lemma splitOn_spell {dir : List Component} (hdir : ∀ c ∈ dir, sep ∉ c) : (spell dir).splitOn sep = [] :: dir := by
  induction dir using List.reverseRecOn with
  | nil => rfl
  | append_singleton dir c ih =>
    have hc : sep ∉ c := hdir c (by simp)
    rw [spell_concat, List.splitOn_append_cons_self, ih (fun c' h' => hdir c' (List.mem_append_left _ h')),
      List.splitOn_eq_singleton hc, List.cons_append]

/-- `target.startswith(root + os.sep)` says that the target is below the root, unless the
root is `/` itself. -/
theorem render_sep_prefix {root target : List Component} (hroot : ∀ c ∈ root, Name c)
    (htarget : ∀ c ∈ target, Name c) :
    render root ++ [sep] <+: render target ↔ root ≠ [] ∧ ∃ rest, rest ≠ [] ∧ target = root ++ rest := by
  have hsplit : ∀ {dir : List Component}, (∀ c ∈ dir, Name c) → (spell dir).splitOn sep = [] :: dir :=
    fun hdir => splitOn_spell (fun c hc => (hdir c hc).no_sep)
  constructor
  · rintro ⟨w, hw⟩
    have hne : root ≠ [] := by
      rintro rfl
      cases target with
      | nil => simp [render] at hw
      | cons c target =>
        have hc := htarget c List.mem_cons_self
        obtain ⟨a, c', rfl⟩ := List.exists_cons_of_ne_nil hc.ne_nil
        have ha : sep = a := by
          simp only [render, if_true, reduceCtorEq, if_false, spell, List.flatMap_cons, List.cons_append,
            List.nil_append, List.cons.injEq] at hw
          exact hw.2.1
        exact hc.no_sep (ha ▸ List.mem_cons_self)
    refine ⟨hne, w.splitOn sep, List.splitOn_ne_nil sep w, ?_⟩
    have htne : target ≠ [] := by
      rintro rfl
      obtain ⟨c, root', rfl⟩ := List.exists_cons_of_ne_nil hne
      simp [render, spell] at hw
    rw [render, if_neg hne, render, if_neg htne, List.append_assoc, List.singleton_append] at hw
    have h := congrArg (List.splitOn sep) hw
    rw [List.splitOn_append_cons_self, hsplit hroot, hsplit htarget, List.cons_append] at h
    exact (List.cons.inj h).2.symm
  · rintro ⟨hne, rest, hrest, rfl⟩
    obtain ⟨c, rest, rfl⟩ := List.exists_cons_of_ne_nil hrest
    rw [render, if_neg hne, render, if_neg (by simp)]
    exact ⟨c ++ spell rest, by simp [spell]⟩

/-! ### Strings that begin with none of some prefixes -/

/-- Separators after a string that begins with none of the prefixes: one of them now fits
only if it is the string with some of the separators. -/
lemma no_prefix_seps {prefixes : List (List Char)} {s : List Char} (hs : ∀ p ∈ prefixes, ¬p <+: s)
    (hseps : ∀ k, s ++ List.replicate k sep ∉ prefixes) (n : ℕ) :
    ∀ p ∈ prefixes, ¬p <+: s ++ List.replicate n sep := by
  induction n with
  | zero =>
    rw [List.replicate_zero, List.append_nil]
    exact hs
  | succ n ih =>
    intro p hp hpre
    rw [List.replicate_succ', ← List.append_assoc, List.prefix_concat_iff] at hpre
    rcases hpre with rfl | hpre
    · apply hseps (n + 1)
      rw [List.replicate_succ', ← List.append_assoc]
      exact hp
    · exact ih p hp hpre

/-- Once a string is as long as every prefix, it can go on in any way. -/
lemma no_prefix_append {prefixes : List (List Char)} {s : List Char} (hs : ∀ p ∈ prefixes, ¬p <+: s)
    (hlong : ∀ p ∈ prefixes, p.length ≤ s.length) (t : List Char) : ∀ p ∈ prefixes, ¬p <+: s ++ t :=
  fun p hp hpre => hs p hp (List.prefix_of_prefix_length_le hpre (List.prefix_append s t) (hlong p hp))

lemma exists_length_bound (ls : List (List Char)) : ∃ n, ∀ l ∈ ls, l.length ≤ n := by
  induction ls with
  | nil => exact ⟨0, fun l hl => absurd hl List.not_mem_nil⟩
  | cons l ls ih =>
    obtain ⟨n, hn⟩ := ih
    refine ⟨l.length + n, ?_⟩
    intro l' hl'
    rcases List.mem_cons.mp hl' with rfl | hl'
    · exact Nat.le_add_right _ _
    · exact Nat.le_trans (hn l' hl') (Nat.le_add_left _ _)

/-- A string that begins with none of the prefixes goes on to any directory, if none of
them is the string with separators after it. -/
theorem exists_detour {prefixes : List (List Char)} {s : List Char} (hs : ∀ p ∈ prefixes, ¬p <+: s)
    (hseps : ∀ k, s ++ List.replicate k sep ∉ prefixes) (dir : List Component) {dir' : List Component}
    (hnames : ∀ c ∈ dir', Name c) :
    ∃ t, (∀ p ∈ prefixes, ¬p <+: s ++ t) ∧ walk dir (s ++ t) = dir' ∧
      ∀ a ∈ t, a = sep ∨ a = '.' ∨ ∃ c ∈ dir', a ∈ c := by
  obtain ⟨n, hn⟩ := exists_length_bound prefixes
  have hlong : ∀ p ∈ prefixes, p.length ≤ (s ++ List.replicate n sep).length := by
    intro p hp
    rw [List.length_append, List.length_replicate]
    exact Nat.le_trans (hn p hp) (Nat.le_add_left _ _)
  let up := ups (walk dir (s ++ List.replicate n sep)).length
  refine ⟨List.replicate n sep ++ (up ++ spell dir'), ?_, ?_, ?_⟩
  · rw [← List.append_assoc]
    exact no_prefix_append (no_prefix_seps hs hseps n) hlong _
  · rw [← List.append_assoc, ← List.append_assoc]
    exact walk_detour dir _ hnames
  · intro a ha
    rcases List.mem_append.mp ha with ha | ha
    · exact Or.inl (List.eq_of_mem_replicate ha)
    · rcases List.mem_append.mp ha with ha | ha
      · obtain ⟨l, hl, hal⟩ := List.mem_flatten.mp ha
        rw [List.eq_of_mem_replicate hl] at hal
        simp only [List.mem_cons, List.not_mem_nil, or_false, or_self] at hal
        exact hal.imp_right Or.inl
      · obtain ⟨c, hc, hac⟩ := List.mem_flatMap.mp ha
        rcases List.mem_cons.mp hac with rfl | hac
        · exact Or.inl rfl
        · exact Or.inr (Or.inr ⟨c, hc, hac⟩)

/-- A name that a list of components lacks, made of one letter. -/
lemma exists_fresh_name (cs : List Component) : ∃ n, Name (List.replicate (n + 1) 'q') ∧ List.replicate (n + 1) 'q' ∉ cs := by
  obtain ⟨n, hn⟩ := exists_length_bound cs
  refine ⟨n, ⟨?_, ?_, ?_, ?_⟩, ?_⟩
  · exact List.cons_ne_nil _ _
  · simp [List.replicate_succ]
  · simp [List.replicate_succ]
  · rw [List.mem_replicate, not_and]
    intro _
    decide
  · intro hmem
    have hlen := hn _ hmem
    rw [List.length_replicate] at hlen
    omega

end Paths
