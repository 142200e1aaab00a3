import CryptoTrader.Lib.Json
import CryptoTrader.Lib.Lines
import Mathlib.Algebra.Order.BigOperators.Group.List
import Mathlib.Data.List.Nodup

/-!
# The credential file

`EnvCredentialStore` of `credentials.py` and the endpoint that writes it. A write keeps the lines
of the other settings and puts one line below them for each value, as it is: a value with a
line break goes on in the next line, and what it says there is read as a setting. When a write
is read back and leaves the other settings alone: `write_faithful_iff`.
-/

namespace CryptoTrader

open Lines KeyedTable

def okxEnvKeys : List String :=
  ["OKX_API_KEY", "OKX_API_SECRET", "OKX_API_PASSPHRASE", "OKX_BASE_URL", "OKX_DEMO"]

namespace EnvCredentialStore

/-- What stands before the first `=` of a line. -/
def lineKey (line : List Char) : String :=
  String.ofList ((strip line).takeWhile (· ≠ '='))

def lineValue (line : List Char) : String :=
  String.ofList (strip ((strip line).dropWhile (· ≠ '=')).tail)

/-- The line defines a setting: it is no comment and has an `=`. -/
def defines (line : List Char) : Bool :=
  (strip line).head? ≠ some '#' && '=' ∈ strip line

/-- `Path.read_text` and `splitlines`, of a file that may be missing. -/
def fileLines (file : Option String) : List (List Char) :=
  match file with
  | none => []
  | some text => splitLines (newlines text.toList)

def readLine (values : Dict String String) (line : List Char) : Dict String String :=
  if defines line && lineKey line ∈ okxEnvKeys then values.alter (lineKey line) (fun _ => lineValue line) else values

def read (file : Option String) : Dict String String :=
  (fileLines file).foldl readLine []

/-- The lines of the file that a write keeps. -/
def kept (file : Option String) : List (List Char) :=
  (fileLines file).filter (fun line => lineKey line ∉ okxEnvKeys)

def valueLine (entry : String × String) : List Char :=
  entry.1.toList ++ '=' :: entry.2.toList

/-- The text that a write leaves in the file. -/
def write (file : Option String) (values : Dict String String) : String :=
  let lines := kept file ++ values.sorted.map valueLine
  String.ofList (List.intercalate ['\n'] lines ++ ['\n'])

def clear (file : Option String) : String :=
  write file []

def keySuffix (apiKey : Option String) : Option String :=
  match apiKey with
  | none => none
  | some key =>
    if key = "" then none
    else if 4 ≤ key.length then some (String.ofList (key.toList.drop (key.length - 4)))
    else some "****"

end EnvCredentialStore

structure OKXCredentialRequest where
  apiKey : String
  apiSecret : String
  apiPassphrase : String
  baseUrl : String := "https://openapi.okx.com"
  demo : Bool := true
  deriving DecidableEq, Repr

structure HTTPException where
  statusCode : ℕ
  detail : String
  deriving DecidableEq, Repr

structure CredentialResponse where
  saved : Bool
  demo : Bool
  keySuffix : Option String
  deriving DecidableEq, Repr

/-- The endpoint: the file after it, what the connection is configured with, and the response. -/
def saveOkxCredentials (file : Option String) (body : OKXCredentialRequest) :
    Except HTTPException (String × Dict String String × CredentialResponse) :=
  if !body.demo then .error ⟨403, "LIVE is forbidden"⟩
  else
    let written := EnvCredentialStore.write file
      [("OKX_API_KEY", body.apiKey), ("OKX_API_SECRET", body.apiSecret), ("OKX_API_PASSPHRASE", body.apiPassphrase),
        ("OKX_BASE_URL", body.baseUrl), ("OKX_DEMO", "true")]
    .ok (written, EnvCredentialStore.read (some written),
      { saved := true, demo := true, keySuffix := EnvCredentialStore.keySuffix (some body.apiKey) })

/-! ### What a write leaves -/

namespace EnvCredentialStore

/-- Values under keys of the file, each once. -/
structure CredentialValues where
  entries : Dict String String
  known : ∀ e ∈ entries, e.1 ∈ okxEnvKeys
  distinct : (entries.map Prod.fst).Nodup

def trimmed (value : String) : String :=
  String.ofList (strip value.toList)

/-- What is up to the first line break of a value, and what is from there on. -/
def firstPart (value : String) : List Char :=
  value.toList.takeWhile (fun c => !isLineBreak c)

def laterPart (value : String) : List Char :=
  value.toList.dropWhile (fun c => !isLineBreak c)

/-- After its first line break the value has white space only. -/
def OneLine (value : String) : Prop :=
  ∀ c ∈ laterPart value, isSpace c = true

/-- The settings that lines define beside the credentials. -/
def otherSettings (lines : List (List Char)) : List String :=
  ((lines.filter defines).map lineKey).filter (fun key => key ∉ okxEnvKeys)

/-- What is asked of a write: it is read back, the other lines stay in order, and so do the other settings. -/
structure Faithful (file : Option String) (values : CredentialValues) : Prop where
  readsBack : ∀ key, (read (some (write file values.entries))).get key = (values.entries.get key).map trimmed
  keepsLines : (kept file).Sublist (fileLines (some (write file values.entries)))
  sameSettings : ∀ key, key ∈ otherSettings (fileLines (some (write file values.entries))) ↔
    key ∈ otherSettings (fileLines file)

lemma solid_value (value : String) : solid value.toList = solid (firstPart value) + solid (laterPart value) := by
  rw [← solid_append, firstPart, laterPart, List.takeWhile_append_dropWhile]

lemma oneLine_iff (value : String) : OneLine value ↔ solid (laterPart value) = 0 :=
  solid_eq_zero_iff.symm

lemma mem_sorted {values : Dict String String} {e : String × String} : e ∈ values.sorted ↔ e ∈ values :=
  (List.perm_insertionSort _ values).mem_iff

/-- The lines that the values make. -/
def valueLines (values : Dict String String) : List (List Char) :=
  (values.sorted.map (fun e => splitLines (valueLine e ++ ['\n']))).flatten

lemma fileLines_write (file : Option String) (values : Dict String String) :
    ∃ blank, (∀ line ∈ blank, line = []) ∧ fileLines (some (write file values)) = kept file ++ valueLines values ++ blank := by
  have hkept : (kept file).map (fun line => splitLines (line ++ ['\n'])) = (kept file).map (fun line => [line]) := by
    apply List.map_congr_left
    intro line hline
    apply splitLines_of_no_break
    have hmem := (List.mem_filter.mp hline).1
    unfold fileLines at hmem
    split at hmem
    · cases hmem
    · exact no_break_of_mem_splitLines hmem
  have hflat : ((kept file).map (fun line => [line])).flatten = kept file := by
    rw [← List.flatMap_def, List.flatMap_singleton']
  unfold fileLines write valueLines
  dsimp only
  rw [String.toList_ofList, splitLines_newlines, intercalate_newline]
  split
  · rename_i hnone
    obtain ⟨hkeptNil, hvalues⟩ := List.append_eq_nil_iff.mp hnone
    rw [hkeptNil, List.map_eq_nil_iff.mp hvalues]
    exact ⟨[[]], by simp, rfl⟩
  · refine ⟨[], by simp, ?_⟩
    rw [splitLines_flatten, List.map_append, List.flatten_append, hkept, hflat, List.map_map, List.append_nil]
    rfl

/-! ### The lines of one value -/

lemma key_facts {key : String} (h : key ∈ okxEnvKeys) :
    (∀ c ∈ key.toList, isLineBreak c = false) ∧ '=' ∉ key.toList ∧
      key.toList.dropWhile isSpace = key.toList ∧ key.toList.head? = some 'O' := by
  have hbreaks : okxEnvKeys.all (fun key => !key.toList.any isLineBreak) = true := by decide +kernel
  have hrest : ∀ key ∈ okxEnvKeys, '=' ∉ key.toList ∧ key.toList.dropWhile isSpace = key.toList ∧
      key.toList.head? = some 'O' := by
    decide +kernel
  exact ⟨by simpa using List.all_eq_true.mp hbreaks key h, hrest key h⟩

/-- The first line of a value has its key, and the value up to the first line break. -/
def firstLine (e : String × String) : List Char :=
  e.1.toList ++ '=' :: firstPart e.2

variable {e : String × String}

lemma splitLines_value (h : e.1 ∈ okxEnvKeys) : ∃ later, splitLines (valueLine e ++ ['\n']) = firstLine e :: later ∧
    (later.map solid).sum = solid (laterPart e.2) := by
  obtain ⟨hbreak, -, -, -⟩ := key_facts h
  obtain ⟨later, hlater⟩ := splitLines_first (valueLine e)
  have hfirst : (valueLine e).takeWhile (fun c => !isLineBreak c) = firstLine e := by
    unfold valueLine firstLine
    rw [List.takeWhile_append_of_pos (by simpa using hbreak)]
    rfl
  rw [hfirst] at hlater
  refine ⟨later, hlater, ?_⟩
  have hsolid := solid_splitLines (valueLine e ++ ['\n'])
  have hnewline : solid ['\n'] = 0 := by decide
  rw [hlater, List.map_cons, List.sum_cons, solid_append, hnewline, valueLine, firstLine, solid_append, solid_append,
    solid_cons, solid_cons, solid_value e.2] at hsolid
  omega

lemma strip_firstLine (h : e.1 ∈ okxEnvKeys) :
    strip (firstLine e) = e.1.toList ++ '=' :: (firstPart e.2).rdropWhile isSpace := by
  obtain ⟨-, -, hdrop, hhead⟩ := key_facts h
  unfold strip firstLine
  have hleft : (e.1.toList ++ '=' :: firstPart e.2).dropWhile isSpace = e.1.toList ++ '=' :: firstPart e.2 := by
    cases hk : e.1.toList with
    | nil => simp [hk] at hhead
    | cons c cs =>
      rw [hk, List.dropWhile_cons] at hdrop
      rw [List.cons_append, List.dropWhile_cons]
      split
      · rename_i hc
        rw [if_pos hc] at hdrop
        have hlen := congrArg List.length hdrop
        have hle : (cs.dropWhile isSpace).length ≤ cs.length := List.length_dropWhile_le _ _
        simp at hlen
        omega
      · rfl
  rw [hleft, rdropWhile_append_cons _ _ (by decide)]

lemma firstLine_reads (h : e.1 ∈ okxEnvKeys) :
    defines (firstLine e) = true ∧ lineKey (firstLine e) = e.1 ∧ lineValue (firstLine e) = String.ofList (strip (firstPart e.2)) := by
  obtain ⟨-, heq, -, hhead⟩ := key_facts h
  have hpos : ∀ c ∈ e.1.toList, decide (c ≠ '=') = true := by
    intro c hc
    apply decide_eq_true
    rintro rfl
    exact heq hc
  have hne : e.1.toList ≠ [] := by
    intro hnil
    rw [hnil] at hhead
    cases hhead
  unfold defines lineKey lineValue
  rw [strip_firstLine h]
  refine ⟨?_, ?_, ?_⟩
  · rw [List.head?_append_of_ne_nil _ hne, hhead]
    simp
  · rw [List.takeWhile_append_of_pos hpos]
    simp
  · rw [List.dropWhile_append_of_pos hpos]
    simp [strip_rdropWhile]

lemma blank_reads {line : List Char} (h : solid line = 0) : defines line = false := by
  rw [defines, strip_of_space (solid_eq_zero_iff.mp h)]
  rfl

/-! ### Reading back -/

/-- Lines that are no credentials are read over. -/
lemma foldl_readLine_of_silent {lines : List (List Char)} (h : ∀ line ∈ lines, (defines line && lineKey line ∈ okxEnvKeys) = false)
    (d : Dict String String) : lines.foldl readLine d = d := by
  induction lines with
  | nil => rfl
  | cons line lines ih =>
    have hline := h line (by simp)
    rw [List.foldl_cons, readLine, hline]
    exact ih (fun l hl => h l (List.mem_cons_of_mem _ hl))

lemma silent_of_kept {file : Option String} {line : List Char} (h : line ∈ kept file) :
    (defines line && lineKey line ∈ okxEnvKeys) = false := by
  have hkey : lineKey line ∉ okxEnvKeys := of_decide_eq_true (List.mem_filter.mp h).2
  simp [hkey]

/-- What is read stands in a line. -/
lemma exists_line_of_get {lines : List (List Char)} {key value : String} {d : Dict String String}
    (h : (lines.foldl readLine d).get key = some value) :
    (∃ line ∈ lines, defines line = true ∧ lineKey line = key ∧ lineValue line = value) ∨ d.get key = some value := by
  induction lines generalizing d with
  | nil => exact .inr h
  | cons line lines ih =>
    rcases ih h with ⟨l, hl, hread⟩ | hd
    · exact .inl ⟨l, List.mem_cons_of_mem _ hl, hread⟩
    · unfold readLine at hd
      split at hd
      · rename_i hdefines
        by_cases hkey : lineKey line = key
        · rw [← hkey, Dict.get_alter_self] at hd
          exact .inl ⟨line, by simp, (Bool.and_eq_true_iff.mp hdefines).1, hkey, Option.some.inj hd⟩
        · rw [Dict.get_alter_of_ne (Ne.symm hkey)] at hd
          exact .inr hd
      · exact .inr hd

lemma trimmed_eq_of_oneLine {value : String} (h : OneLine value) : String.ofList (strip (firstPart value)) = trimmed value := by
  rw [trimmed, ← strip_append_space (firstPart value) h, firstPart, laterPart, List.takeWhile_append_dropWhile]

lemma solid_eq_zero_of_mem {lines : List (List Char)} (h : (lines.map solid).sum = 0) {line : List Char} (hline : line ∈ lines) :
    solid line = 0 :=
  List.sum_eq_zero_iff_forall_eq_nat.mp h _ (List.mem_map_of_mem hline)

lemma foldl_value (hkey : e.1 ∈ okxEnvKeys) (hone : OneLine e.2) (d : Dict String String) :
    (splitLines (valueLine e ++ ['\n'])).foldl readLine d = d.alter e.1 (fun _ => trimmed e.2) := by
  obtain ⟨later, hlines, hsolid⟩ := splitLines_value hkey
  obtain ⟨hdefines, hk, hv⟩ := firstLine_reads hkey
  have hlater : ∀ line ∈ later, (defines line && lineKey line ∈ okxEnvKeys) = false := by
    intro line hline
    rw [blank_reads (solid_eq_zero_of_mem (hsolid.trans ((oneLine_iff _).mp hone)) hline)]
    rfl
  rw [hlines, List.foldl_cons, foldl_readLine_of_silent hlater, readLine, hdefines, hk, hv, trimmed_eq_of_oneLine hone]
  simp [hkey]

lemma read_write (file : Option String) (values : Dict String String) :
    read (some (write file values)) = (valueLines values).foldl readLine [] := by
  obtain ⟨blank, hblank, hlines⟩ := fileLines_write file values
  have hsilent : ∀ line ∈ blank, (defines line && lineKey line ∈ okxEnvKeys) = false := by
    intro line hline
    rw [hblank line hline]
    rfl
  rw [read, hlines, List.foldl_append, List.foldl_append, foldl_readLine_of_silent (fun _ h => silent_of_kept h),
    foldl_readLine_of_silent hsilent]

/-- With one line for each value what is written is read. -/
lemma readsBack_of_oneLine (file : Option String) (values : CredentialValues) (h : ∀ e ∈ values.entries, OneLine e.2) (key : String) :
    (read (some (write file values.entries))).get key = (values.entries.get key).map trimmed := by
  have hperm := List.perm_insertionSort (fun a b : String × String => a.1 ≤ b.1) values.entries
  have hfold : (valueLines values.entries).foldl readLine [] =
      values.entries.sorted.foldl (fun d e => Dict.alter e.1 (fun _ => trimmed e.2) d) [] := by
    rw [valueLines, List.foldl_flatten, List.foldl_map]
    apply List.foldl_ext
    intro d e he
    have hmem := mem_sorted.mp he
    exact foldl_value (values.known e hmem) (h e hmem) d
  rw [read_write, hfold, Dict.get_foldl_alter Prod.fst (fun e _ => trimmed e.2), Dict.get_nil]
  cases hget : values.entries.get key with
  | none =>
    have hnone : values.entries.sorted.filter (fun b => b.1 = key) = [] := by
      rw [List.filter_eq_nil_iff]
      intro e he heq
      have hsome := (Dict.mem_iff_get values.distinct).mp (mem_sorted.mp he)
      rw [of_decide_eq_true heq, hget] at hsome
      cases hsome
    rw [hnone]
    rfl
  | some value =>
    have hone : values.entries.sorted.filter (fun b => b.1 = key) = [(key, value)] :=
      filter_key_of_mem ((hperm.map Prod.fst).nodup_iff.mpr values.distinct) (mem_sorted.mpr (Dict.mem_of_get hget))
    rw [hone]
    rfl

/-! ### When a write is faithful -/

/-- A line that is read as a value says more than the value. -/
lemma solid_line_of_reads {line : List Char} {value : String} (hdefines : defines line = true)
    (hvalue : lineValue line = trimmed value) : solid value.toList < solid line := by
  have hmem : '=' ∈ strip line := of_decide_eq_true (Bool.and_eq_true_iff.mp hdefines).2
  have hsplit := List.takeWhile_append_dropWhile (p := fun c => decide (c ≠ '=')) (l := strip line)
  have heq : solid (strip ((strip line).dropWhile (· ≠ '=')).tail) = solid (strip value.toList) := by
    have htext := congrArg String.toList hvalue
    rw [lineValue, trimmed, String.toList_ofList, String.toList_ofList] at htext
    rw [htext]
  rw [solid_strip, solid_strip] at heq
  have hline := congrArg solid hsplit
  rw [solid_append, solid_strip] at hline
  cases hdrop : (strip line).dropWhile (fun c => decide (c ≠ '=')) with
  | nil =>
    rw [List.dropWhile_eq_nil_iff] at hdrop
    exact absurd (hdrop '=' hmem) (by simp)
  | cons c rest =>
    have hc : c = '=' := by
      have hhead := List.head?_dropWhile_not (fun c => decide (c ≠ '=')) (strip line)
      rw [hdrop] at hhead
      simpa using hhead
    have hspace : isSpace '=' = false := by decide
    rw [hdrop, List.tail_cons] at heq
    rw [hdrop, hc, solid_cons, hspace] at hline
    simp only [Bool.false_eq_true, if_false] at hline
    omega

/-- If what is written is read, a value that goes on after a line break was read from a longer one. -/
lemma exists_longer {file : Option String} {values : CredentialValues}
    (h : ∀ key, (read (some (write file values.entries))).get key = (values.entries.get key).map trimmed)
    {e : String × String} (he : e ∈ values.entries) (hbad : ¬OneLine e.2) :
    ∃ e' ∈ values.entries, ¬OneLine e'.2 ∧ solid e.2.toList < solid e'.2.toList := by
  have hget : (read (some (write file values.entries))).get e.1 = some (trimmed e.2) := by
    rw [h, (Dict.mem_iff_get values.distinct).mp he]
    rfl
  rw [read_write] at hget
  obtain ⟨line, hline, hdefines, hkey, hvalue⟩ := (exists_line_of_get hget).resolve_right nofun
  obtain ⟨lines, hlines, hmem⟩ := List.mem_flatten.mp hline
  obtain ⟨e', he', rfl⟩ := List.mem_map.mp hlines
  have he' : e' ∈ values.entries := mem_sorted.mp he'
  obtain ⟨later, hsplit, hsolid⟩ := splitLines_value (values.known e' he')
  rw [hsplit] at hmem
  rcases List.mem_cons.mp hmem with rfl | hlater
  · -- its own first line: the value would end there
    obtain ⟨-, hk, hv⟩ := firstLine_reads (values.known e' he')
    obtain rfl : e' = e := eq_of_key_eq values.distinct he' he (hk.symm.trans hkey)
    have hcount := congrArg (fun s : String => solid s.toList) (hv.symm.trans hvalue)
    simp only [trimmed, String.toList_ofList, solid_strip] at hcount
    rw [solid_value] at hcount
    exact absurd ((oneLine_iff _).mpr (by omega)) hbad
  · have hlong := solid_line_of_reads hdefines hvalue
    have hle : solid line ≤ (later.map solid).sum := List.le_sum_of_mem (List.mem_map_of_mem hlater)
    rw [hsolid] at hle
    have hwhole := solid_value e'.2
    refine ⟨e', he', fun hone => ?_, by omega⟩
    have hnone := (oneLine_iff _).mp hone
    omega

/-- If what is written is read, every value is one line. -/
lemma oneLine_of_readsBack {file : Option String} {values : CredentialValues}
    (h : ∀ key, (read (some (write file values.entries))).get key = (values.entries.get key).map trimmed) :
    ∀ e ∈ values.entries, OneLine e.2 := by
  intro e₀ he₀
  by_contra hbad₀
  have hunbounded : ∀ n, ∃ e ∈ values.entries, ¬OneLine e.2 ∧ n ≤ solid e.2.toList := by
    intro n
    induction n with
    | zero => exact ⟨e₀, he₀, hbad₀, Nat.zero_le _⟩
    | succ n ih =>
      obtain ⟨e, he, hbad, hn⟩ := ih
      obtain ⟨e', he', hbad', hlt⟩ := exists_longer h he hbad
      exact ⟨e', he', hbad', by omega⟩
  obtain ⟨e, he, -, hlarge⟩ := hunbounded ((values.entries.map (fun e => solid e.2.toList)).sum + 1)
  have hle : solid e.2.toList ≤ (values.entries.map (fun e => solid e.2.toList)).sum :=
    List.le_sum_of_mem (List.mem_map.mpr ⟨e, he, rfl⟩)
  omega

lemma mem_otherSettings {lines : List (List Char)} {key : String} :
    key ∈ otherSettings lines ↔ ∃ line ∈ lines, defines line = true ∧ lineKey line = key ∧ key ∉ okxEnvKeys := by
  simp only [otherSettings, List.mem_filter, List.mem_map, decide_eq_true_eq]
  constructor
  · rintro ⟨⟨line, ⟨hline, hdefines⟩, hkey⟩, hother⟩
    exact ⟨line, hline, hdefines, hkey, hother⟩
  · rintro ⟨line, hline, hdefines, hkey, hother⟩
    exact ⟨⟨line, ⟨hline, hdefines⟩, hkey⟩, hother⟩

lemma sameSettings_of_oneLine (file : Option String) (values : CredentialValues) (h : ∀ e ∈ values.entries, OneLine e.2)
    (key : String) : key ∈ otherSettings (fileLines (some (write file values.entries))) ↔ key ∈ otherSettings (fileLines file) := by
  obtain ⟨blank, hblank, hlines⟩ := fileLines_write file values.entries
  rw [hlines, mem_otherSettings, mem_otherSettings]
  constructor
  · rintro ⟨line, hline, hdefines, hkey, hother⟩
    rcases List.mem_append.mp hline with hline | hline
    · rcases List.mem_append.mp hline with hline | hline
      · exact ⟨line, (List.mem_filter.mp hline).1, hdefines, hkey, hother⟩
      · obtain ⟨lines, hsplit, hmem⟩ := List.mem_flatten.mp hline
        obtain ⟨e, he, rfl⟩ := List.mem_map.mp hsplit
        have he : e ∈ values.entries := mem_sorted.mp he
        obtain ⟨later, hlater, hsolid⟩ := splitLines_value (values.known e he)
        rw [hlater] at hmem
        rcases List.mem_cons.mp hmem with rfl | hmem
        · rw [(firstLine_reads (values.known e he)).2.1] at hkey
          exact absurd (hkey ▸ values.known e he) hother
        · rw [blank_reads (solid_eq_zero_of_mem (hsolid.trans ((oneLine_iff _).mp (h e he))) hmem)] at hdefines
          cases hdefines
    · rw [hblank line hline] at hdefines
      cases hdefines
  · rintro ⟨line, hline, hdefines, hkey, hother⟩
    have hkept : line ∈ kept file := List.mem_filter.mpr ⟨hline, by simpa [hkey] using hother⟩
    exact ⟨line, by simp [hkept], hdefines, hkey, hother⟩

/-- A write is faithful exactly if every value has only white space after its first line break. -/
theorem write_faithful_iff (file : Option String) (values : CredentialValues) :
    Faithful file values ↔ ∀ e ∈ values.entries, OneLine e.2 := by
  constructor
  · intro h
    exact oneLine_of_readsBack h.readsBack
  · intro h
    refine ⟨readsBack_of_oneLine file values h, ?_, sameSettings_of_oneLine file values h⟩
    obtain ⟨blank, -, hlines⟩ := fileLines_write file values.entries
    rw [hlines, List.append_assoc]
    exact List.sublist_append_left _ _

end EnvCredentialStore

/-- A passphrase with a line break switches live trading on, and is read back without what follows the break. -/
theorem passphrase_writes_setting :
    saveOkxCredentials (some "TRADING_MODE=PAPER\n")
        { apiKey := "key1", apiSecret := "secret", apiPassphrase := "phrase\nLIVE_TRADING_ENABLED=true" } =
      .ok ("TRADING_MODE=PAPER\nOKX_API_KEY=key1\nOKX_API_PASSPHRASE=phrase\nLIVE_TRADING_ENABLED=true\nOKX_API_SECRET=secret\n" ++
          "OKX_BASE_URL=https://openapi.okx.com\nOKX_DEMO=true\n",
        [("OKX_API_KEY", "key1"), ("OKX_API_PASSPHRASE", "phrase"), ("OKX_API_SECRET", "secret"),
          ("OKX_BASE_URL", "https://openapi.okx.com"), ("OKX_DEMO", "true")],
        { saved := true, demo := true, keySuffix := some "key1" }) ∧
      EnvCredentialStore.otherSettings (EnvCredentialStore.fileLines (some "TRADING_MODE=PAPER\n")) = ["TRADING_MODE"] := by
  decide +kernel

end CryptoTrader
