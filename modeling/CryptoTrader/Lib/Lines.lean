import Mathlib.Algebra.BigOperators.Group.List.Basic
import Mathlib.Algebra.GroupWithZero.Nat
import Mathlib.Data.List.DropRight
import Mathlib.Tactic.Common

/-!
# Lines of a text

`str.splitlines` and `str.strip` on texts as lists of characters. A text that ends in a newline
splits into the lines of its parts (`splitLines_append`). How many characters of a text are
solid, that is no white space, shows how much of it its lines hold.
-/

namespace Lines

/-- The characters that `str.splitlines` breaks at. -/
def isLineBreak (c : Char) : Bool :=
  c ∈ ['\n', '\r', '\x0b', '\x0c', '\x1c', '\x1d', '\x1e', '\u0085', '\u2028', '\u2029']

/-- `str.isspace` of a character. -/
def isSpace (c : Char) : Bool :=
  isLineBreak c || c ∈ ['\t', ' ', '\x1f', '\u00a0', '\u1680', '\u202f', '\u205f', '\u3000'] ||
    ('\u2000' ≤ c && c ≤ '\u200a')

/-- Universal newlines: `\r\n` and `\r` become `\n`. -/
def newlines : List Char → List Char
  | [] => []
  | c :: cs =>
    if c = '\r' then if cs.head? = some '\n' then newlines cs else '\n' :: newlines cs
    else c :: newlines cs

/-- The lines of a text whose line breaks are single characters. -/
def linesOf : List Char → List (List Char)
  | [] => []
  | c :: cs =>
    if isLineBreak c then [] :: linesOf cs
    else
      match linesOf cs with
      | [] => [[c]]
      | line :: lines => (c :: line) :: lines

/-- `str.splitlines`: a `\r\n` is one break. -/
def splitLines (text : List Char) : List (List Char) :=
  linesOf (newlines text)

/-- `str.strip`. -/
def strip (text : List Char) : List Char :=
  (text.dropWhile isSpace).rdropWhile isSpace

/-- How many characters are no white space. -/
def solid (text : List Char) : ℕ :=
  text.countP (fun c => !isSpace c)

lemma isSpace_of_isLineBreak {c : Char} (h : isLineBreak c = true) : isSpace c = true := by
  simp [isSpace, h]

@[simp] lemma solid_nil : solid [] = 0 := rfl

lemma solid_cons (c : Char) (cs : List Char) : solid (c :: cs) = solid cs + if isSpace c then 0 else 1 := by
  cases h : isSpace c <;> simp [solid, h]

lemma solid_append (a b : List Char) : solid (a ++ b) = solid a + solid b :=
  List.countP_append

lemma solid_eq_zero_iff {text : List Char} : solid text = 0 ↔ ∀ c ∈ text, isSpace c = true := by
  simp [solid, List.countP_eq_zero]

/-! ### Newlines -/

lemma newlines_of_no_return {text : List Char} (h : '\r' ∉ text) : newlines text = text := by
  induction text with
  | nil => rfl
  | cons c cs ih =>
    rw [List.mem_cons, not_or] at h
    rw [newlines, if_neg (Ne.symm h.1), ih h.2]

lemma no_return_newlines (text : List Char) : '\r' ∉ newlines text := by
  induction text with
  | nil => simp [newlines]
  | cons c cs ih =>
    unfold newlines
    split
    · split
      · exact ih
      · simpa using ih
    · rename_i hc
      simpa [Ne.symm hc] using ih

lemma splitLines_newlines (text : List Char) : splitLines (newlines text) = splitLines text := by
  rw [splitLines, newlines_of_no_return (no_return_newlines text)]
  rfl

/-- A newline ends what is before it. -/
lemma newlines_append (a b : List Char) : newlines (a ++ '\n' :: b) = newlines (a ++ ['\n']) ++ newlines b := by
  induction a with
  | nil => simp [newlines]
  | cons c cs ih =>
    have hhead : (cs ++ '\n' :: b).head? = (cs ++ ['\n']).head? := by cases cs <;> rfl
    rw [List.cons_append, List.cons_append, newlines, newlines, hhead, ih]
    split
    · split <;> rfl
    · rfl

lemma newlines_ends (a : List Char) : ∃ b, newlines (a ++ ['\n']) = b ++ ['\n'] := by
  induction a with
  | nil => exact ⟨[], rfl⟩
  | cons c cs ih =>
    obtain ⟨b, hb⟩ := ih
    rw [List.cons_append, newlines, hb]
    split
    · split
      · exact ⟨b, rfl⟩
      · exact ⟨'\n' :: b, rfl⟩
    · exact ⟨c :: b, rfl⟩

lemma solid_newlines (text : List Char) : solid (newlines text) = solid text := by
  have hreturn : isSpace '\r' = true := by decide
  have hnewline : isSpace '\n' = true := by decide
  induction text with
  | nil => rfl
  | cons c cs ih =>
    unfold newlines
    split
    · subst c
      rw [solid_cons, hreturn]
      split
      · simpa using ih
      · rw [solid_cons, hnewline, ih]
    · rw [solid_cons, solid_cons, ih]

/-! ### Lines -/

lemma linesOf_append (a b : List Char) : linesOf (a ++ '\n' :: b) = linesOf (a ++ ['\n']) ++ linesOf b := by
  induction a with
  | nil => simp [linesOf, isLineBreak]
  | cons c cs ih =>
    rw [List.cons_append, List.cons_append, linesOf, linesOf, ih]
    split
    · rfl
    · cases hl : linesOf (cs ++ ['\n']) with
      | nil =>
        exfalso
        cases cs with
        | nil => simp [linesOf, isLineBreak] at hl
        | cons d ds =>
          rw [List.cons_append, linesOf] at hl
          split at hl
          · cases hl
          · split at hl <;> cases hl
      | cons line lines => rfl

/-- Lines are split off at a newline. -/
theorem splitLines_append (a b : List Char) : splitLines (a ++ '\n' :: b) = splitLines (a ++ ['\n']) ++ splitLines b := by
  obtain ⟨x, hx⟩ := newlines_ends a
  unfold splitLines
  rw [newlines_append, hx, List.append_assoc]
  exact linesOf_append x (newlines b)

lemma no_break_of_mem_linesOf {text line : List Char} (h : line ∈ linesOf text) : ∀ c ∈ line, isLineBreak c = false := by
  induction text generalizing line with
  | nil => cases h
  | cons c cs ih =>
    rw [linesOf] at h
    split at h
    · rcases List.mem_cons.mp h with rfl | h
      · simp
      · exact ih h
    · rename_i hc
      have hc : isLineBreak c = false := by simpa using hc
      split at h
      · obtain rfl := List.mem_singleton.mp h
        simpa using hc
      · rename_i line' lines heq
        rcases List.mem_cons.mp h with rfl | h
        · simpa [hc] using ih (heq ▸ List.mem_cons_self)
        · exact ih (heq ▸ List.mem_cons_of_mem _ h)

lemma solid_linesOf (text : List Char) : ((linesOf text).map solid).sum = solid text := by
  induction text with
  | nil => rfl
  | cons c cs ih =>
    rw [linesOf, solid_cons, ← ih]
    split
    · rw [isSpace_of_isLineBreak ‹_›]
      simp
    · split
      · simp [solid_cons, *]
      · simp only [*, List.map_cons, List.sum_cons, solid_cons]
        omega

lemma solid_splitLines (text : List Char) : ((splitLines text).map solid).sum = solid text :=
  (solid_linesOf _).trans (solid_newlines text)

/-- The first line goes up to the first break. -/
lemma splitLines_first (a : List Char) :
    ∃ rest, splitLines (a ++ ['\n']) = a.takeWhile (fun c => !isLineBreak c) :: rest := by
  unfold splitLines
  induction a with
  | nil => exact ⟨[], by simp [newlines, linesOf, isLineBreak]⟩
  | cons c cs ih =>
    obtain ⟨rest, hrest⟩ := ih
    rw [List.cons_append, newlines]
    split
    · subst c
      split
      · rename_i hhead
        rw [hrest]
        cases cs with
        | nil => exact ⟨rest, rfl⟩
        | cons d ds =>
          obtain rfl : d = '\n' := by simpa using hhead
          exact ⟨rest, by simp [isLineBreak]⟩
      · exact ⟨_, by simp [linesOf, isLineBreak]; rfl⟩
    · rw [linesOf]
      split
      · exact ⟨_, by simp [*]; rfl⟩
      · rw [hrest]
        exact ⟨rest, by simp [*]⟩

lemma linesOf_of_no_break {a : List Char} (h : ∀ c ∈ a, isLineBreak c = false) : linesOf (a ++ ['\n']) = [a] := by
  induction a with
  | nil => rfl
  | cons c cs ih =>
    rw [List.cons_append, linesOf, h c (by simp), ih (fun d hd => h d (List.mem_cons_of_mem _ hd))]
    rfl

lemma splitLines_of_no_break {a : List Char} (h : ∀ c ∈ a, isLineBreak c = false) : splitLines (a ++ ['\n']) = [a] := by
  have hreturn : '\r' ∉ a ++ ['\n'] := by
    intro hmem
    rcases List.mem_append.mp hmem with hmem | hmem
    · exact absurd (h _ hmem) (by decide)
    · exact absurd hmem (by decide)
  rw [splitLines, newlines_of_no_return hreturn, linesOf_of_no_break h]

lemma no_break_of_mem_splitLines {text line : List Char} (h : line ∈ splitLines text) : ∀ c ∈ line, isLineBreak c = false :=
  no_break_of_mem_linesOf h

/-- The lines of texts that are written one below the other. -/
theorem splitLines_flatten (parts : List (List Char)) :
    splitLines ((parts.map (· ++ ['\n'])).flatten) = (parts.map (fun a => splitLines (a ++ ['\n']))).flatten := by
  induction parts with
  | nil => rfl
  | cons a parts ih =>
    rw [List.map_cons, List.flatten_cons, List.append_assoc, List.singleton_append, splitLines_append, ih]
    rfl

/-- Below each other, texts are ended by newlines; of no text one newline is left. -/
lemma intercalate_newline (parts : List (List Char)) :
    List.intercalate ['\n'] parts ++ ['\n'] = if parts = [] then ['\n'] else (parts.map (· ++ ['\n'])).flatten := by
  induction parts with
  | nil => rfl
  | cons a parts ih =>
    rw [if_neg (List.cons_ne_nil a parts)]
    cases parts with
    | nil => simp
    | cons b parts =>
      rw [if_neg (List.cons_ne_nil b parts)] at ih
      rw [List.map_cons, List.flatten_cons, ← ih]
      simp [List.intercalate]

/-! ### Stripping -/

lemma rdropWhile_append_of_all {p : Char → Bool} (a : List Char) {b : List Char} (h : ∀ c ∈ b, p c = true) :
    (a ++ b).rdropWhile p = a.rdropWhile p := by
  induction b using List.reverseRecOn with
  | nil => rw [List.append_nil]
  | append_singleton b c ih =>
    rw [← List.append_assoc, List.rdropWhile_concat_pos _ _ _ (h c (by simp)), ih (fun d hd => h d (by simp [hd]))]

lemma rdropWhile_append_cons {p : Char → Bool} (a b : List Char) {x : Char} (hx : p x = false) :
    (a ++ x :: b).rdropWhile p = a ++ x :: b.rdropWhile p := by
  induction b using List.reverseRecOn with
  | nil => exact List.rdropWhile_concat_neg p a x (by simp [hx])
  | append_singleton b c ih =>
    rw [← List.cons_append, ← List.append_assoc]
    by_cases hc : p c = true
    · rw [List.rdropWhile_concat_pos _ _ _ hc, List.rdropWhile_concat_pos _ _ _ hc, ih]
    · rw [List.rdropWhile_concat_neg _ _ _ hc, List.rdropWhile_concat_neg _ _ _ hc, List.append_assoc]
      rfl

/-- White space behind a text is stripped. -/
lemma strip_append_space (a : List Char) {b : List Char} (h : ∀ c ∈ b, isSpace c = true) : strip (a ++ b) = strip a := by
  unfold strip
  by_cases ha : ∀ c ∈ a, isSpace c = true
  · have hab : (a ++ b).dropWhile isSpace = [] := by
      rw [List.dropWhile_eq_nil_iff]
      intro c hc
      exact (List.mem_append.mp hc).elim (ha c) (h c)
    rw [hab, List.dropWhile_eq_nil_iff.mpr ha]
  · have hdrop : (a ++ b).dropWhile isSpace = a.dropWhile isSpace ++ b := by
      rw [List.dropWhile_append, if_neg]
      rw [List.isEmpty_iff, List.dropWhile_eq_nil_iff]
      exact ha
    rw [hdrop, rdropWhile_append_of_all _ h]

lemma strip_rdropWhile (a : List Char) : strip (a.rdropWhile isSpace) = strip a := by
  conv_rhs => rw [← List.rdropWhile_append_rtakeWhile (p := isSpace) (l := a)]
  exact (strip_append_space _ (fun c hc => List.mem_rtakeWhile_imp hc)).symm

lemma strip_of_space {a : List Char} (h : ∀ c ∈ a, isSpace c = true) : strip a = [] := by
  rw [strip, List.dropWhile_eq_nil_iff.mpr h]
  rfl

lemma solid_strip (text : List Char) : solid (strip text) = solid text := by
  have hleft : solid (text.dropWhile isSpace) = solid text := by
    induction text with
    | nil => rfl
    | cons c cs ih =>
      rw [List.dropWhile_cons, solid_cons]
      split
      · simpa using ih
      · rw [solid_cons, if_neg ‹_›]
  rw [← hleft, strip]
  generalize text.dropWhile isSpace = a
  have hright := solid_append (a.rdropWhile isSpace) (a.rtakeWhile isSpace)
  rw [List.rdropWhile_append_rtakeWhile] at hright
  have hspace : solid (a.rtakeWhile isSpace) = 0 := solid_eq_zero_iff.mpr (fun c hc => List.mem_rtakeWhile_imp hc)
  omega

/-! ### Tags -/

/-- A text that begins with a tag and a separator begins with that tag alone. -/
lemma tag_prefix_iff {sep : Char} {a b rest : List Char} (ha : sep ∉ a) (hb : sep ∉ b) :
    a ++ [sep] <+: b ++ sep :: rest ↔ a = b := by
  constructor
  · induction a generalizing b with
    | nil =>
      cases b with
      | nil => intro _; rfl
      | cons c b =>
        intro h
        obtain ⟨t, ht⟩ := h
        rw [List.nil_append, List.cons_append, List.cons_append, List.cons.injEq] at ht
        exact absurd (List.mem_cons.mpr (.inl ht.1)) hb
    | cons c a ih =>
      rw [List.mem_cons, not_or] at ha
      cases b with
      | nil =>
        intro h
        obtain ⟨t, ht⟩ := h
        rw [List.nil_append, List.cons_append, List.cons_append, List.cons.injEq] at ht
        exact absurd ht.1.symm ha.1
      | cons d b =>
        intro h
        rw [List.mem_cons, not_or] at hb
        rw [List.cons_append, List.cons_append, List.cons_prefix_cons] at h
        rw [h.1, ih ha.2 hb.2 h.2]
  · rintro rfl
    exact ⟨rest, by simp⟩

end Lines
