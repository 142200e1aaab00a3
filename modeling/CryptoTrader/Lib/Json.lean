import CryptoTrader.Lib.KeyedTable
import Mathlib.Data.List.Induction
import Mathlib.Data.List.Sort
import Mathlib.Data.Rat.Init
import Mathlib.Data.String.Basic

/-!
# Dictionaries and JSON values

A dictionary is the list of its entries in insertion order. A numeral written in a string
is a value of its own, apart from other texts.
-/

open KeyedTable

/-- A dictionary in insertion order. -/
abbrev Dict (κ α : Type) := List (κ × α)

namespace Dict

variable {κ α : Type} [DecidableEq κ]

/-- `d.get(k)`. -/
def get (k : κ) (d : Dict κ α) : Option α :=
  (row Prod.fst k d).map Prod.snd

/-- `d[k] = f(d.get(k))`. -/
def alter (k : κ) (f : Option α → α) (d : Dict κ α) : Dict κ α :=
  upsert Prod.fst (k, f (get k d)) d

/-- `d[k] += n` of a `defaultdict(int)`. -/
def bump (k : κ) (n : ℤ) (d : Dict κ ℤ) : Dict κ ℤ :=
  alter k (fun o => o.getD 0 + n) d

/-- `d[k].append(v)` of a `defaultdict(list)`. -/
def push (k : κ) (v : α) (d : Dict κ (List α)) : Dict κ (List α) :=
  alter k (fun o => o.getD [] ++ [v]) d

/-- `sorted(d.items())` by key. -/
def sorted (d : Dict String α) : Dict String α :=
  d.insertionSort (fun a b => a.1 ≤ b.1)

lemma get_nil (k : κ) : get k ([] : Dict κ α) = none := rfl

lemma get_alter_self (k : κ) (f : Option α → α) (d : Dict κ α) : get k (alter k f d) = some (f (get k d)) := by
  have hrow : row Prod.fst k (alter k f d) = some (k, f (get k d)) := row_upsert_self Prod.fst (k, f (get k d)) d
  rw [get, hrow]
  rfl

lemma get_alter_of_ne {k k' : κ} (h : k' ≠ k) (f : Option α → α) (d : Dict κ α) : get k' (alter k f d) = get k' d := by
  unfold get alter
  rw [row_upsert_of_ne d h]

lemma mem_of_get {k : κ} {v : α} {d : Dict κ α} (h : get k d = some v) : (k, v) ∈ d := by
  obtain ⟨e, he, rfl⟩ := Option.map_eq_some_iff.mp h
  obtain ⟨hmem, rfl⟩ := row_some he
  exact hmem

/-- After a fold of `alter`, a key has what the elements of that key made of its value. -/
lemma get_foldl_alter {β : Type} (key : β → κ) (f : β → Option α → α) (l : List β) (k : κ) (d : Dict κ α) :
    get k (l.foldl (fun d b => alter (key b) (f b) d) d) =
      (l.filter (fun b => key b = k)).foldl (fun o b => some (f b o)) (get k d) := by
  induction l generalizing d with
  | nil => rfl
  | cons b l ih =>
    rw [List.foldl_cons, ih]
    by_cases hb : key b = k
    · rw [List.filter_cons_of_pos (by simpa using hb), List.foldl_cons, ← hb, get_alter_self]
    · rw [List.filter_cons_of_neg (by simpa using hb), get_alter_of_ne (Ne.symm hb)]

/-- After a fold of `push`, a key has what the elements of that key appended. -/
lemma get_foldl_push {β : Type} (key : β → κ) (f : β → α) (l : List β) (k : κ) (d : Dict κ (List α)) :
    (get k (l.foldl (fun d b => push (key b) (f b) d) d)).getD [] =
      (get k d).getD [] ++ (l.filter (fun b => key b = k)).map f := by
  induction l generalizing d with
  | nil => simp
  | cons b l ih =>
    rw [List.foldl_cons, ih, push]
    by_cases hb : key b = k
    · rw [List.filter_cons_of_pos (by simpa using hb), List.map_cons, ← hb, get_alter_self, Option.getD_some, List.append_assoc]
      rfl
    · rw [List.filter_cons_of_neg (by simpa using hb), get_alter_of_ne (Ne.symm hb)]

lemma mem_foldl_alter {β : Type} (key : β → κ) (f : β → Option α → α) {l : List β} {d : Dict κ α} {e : κ × α}
    (h : e ∈ l.foldl (fun d b => alter (key b) (f b) d) d) : e.1 ∈ l.map key ∨ e ∈ d := by
  induction l generalizing d with
  | nil => exact .inr h
  | cons b l ih =>
    rcases ih h with hl | hd
    · exact .inl (List.mem_cons_of_mem _ hl)
    · rcases mem_upsert hd with rfl | hd
      · exact .inl (by simp)
      · exact .inr hd

lemma mem_iff_get {k : κ} {v : α} {d : Dict κ α} (hd : (d.map Prod.fst).Nodup) : (k, v) ∈ d ↔ get k d = some v :=
  ⟨fun h => congrArg (Option.map Prod.snd) (row_of_mem hd h), mem_of_get⟩

lemma nodup_foldl_alter {β : Type} (key : β → κ) (f : β → Option α → α) {l : List β} {d : Dict κ α}
    (hd : (d.map Prod.fst).Nodup) : ((l.foldl (fun d b => alter (key b) (f b) d) d).map Prod.fst).Nodup := by
  induction l generalizing d with
  | nil => exact hd
  | cons b l ih => exact ih (nodup_upsert hd _)

end Dict

section Firsts

variable {α κ : Type} [DecidableEq κ] (key : α → κ)

/-- Keep an element unless its key is there. -/
def keepFirst (kept : List α) (a : α) : List α :=
  if key a ∈ kept.map key then kept else kept ++ [a]

/-- The elements of a list whose key no earlier element has. -/
def firsts (l : List α) : List α :=
  l.foldl (keepFirst key) []

variable {key}

lemma firsts_concat (l : List α) (a : α) : firsts key (l ++ [a]) = keepFirst key (firsts key l) a := by
  rw [firsts, List.foldl_append]
  rfl

lemma mem_keepFirst {kept : List α} {a b : α} (h : b ∈ keepFirst key kept a) : b ∈ kept ∨ b = a := by
  unfold keepFirst at h
  split at h
  · exact Or.inl h
  · exact (List.mem_append.mp h).imp_right List.mem_singleton.mp

lemma mem_firsts {l : List α} {a : α} (h : a ∈ firsts key l) : a ∈ l := by
  induction l using List.reverseRecOn with
  | nil => exact h
  | append_singleton l b ih =>
    rw [firsts_concat] at h
    rcases mem_keepFirst h with h | rfl
    · exact List.mem_append_left _ (ih h)
    · simp

/-- No key is lost. -/
lemma mem_map_firsts {l : List α} {k : κ} : k ∈ (firsts key l).map key ↔ k ∈ l.map key := by
  induction l using List.reverseRecOn with
  | nil => rfl
  | append_singleton l a ih =>
    rw [firsts_concat, List.map_append, List.mem_append, ← ih, keepFirst]
    split
    · rename_i ha
      refine ⟨Or.inl, ?_⟩
      rintro (h | h)
      · exact h
      · rw [List.map_singleton, List.mem_singleton] at h
        exact h ▸ ha
    · rw [List.map_append, List.mem_append]

/-- What a key's first element is, `row` answers. -/
lemma mem_firsts_iff {l : List α} {a : α} : a ∈ firsts key l ↔ row key (key a) l = some a := by
  induction l using List.reverseRecOn with
  | nil => exact ⟨fun h => absurd h List.not_mem_nil, nofun⟩
  | append_singleton l b ih =>
    rw [firsts_concat, keepFirst]
    cases hrow : row key (key a) l with
    | some a' =>
      rw [row_append_of_some hrow, ← hrow, ← ih]
      split
      · rfl
      · rename_i hb
        rw [List.mem_append, List.mem_singleton, or_iff_left]
        rintro rfl
        exact hb (mem_map_firsts.mpr (row_isSome_iff.mp ⟨a', hrow⟩))
    | none =>
      have ha : a ∉ firsts key l := by
        rw [ih, hrow]
        nofun
      have hkey : key a ∉ (firsts key l).map key := by
        rw [mem_map_firsts]
        exact row_eq_none_iff.mp hrow
      rw [row_append_of_none hrow]
      constructor
      · intro hmem
        split at hmem
        · exact absurd hmem ha
        · rcases List.mem_append.mp hmem with hmem | hmem
          · exact absurd hmem ha
          · obtain rfl := List.mem_singleton.mp hmem
            simp [row]
      · intro hb
        obtain ⟨hmem, -⟩ := row_some hb
        obtain rfl := List.mem_singleton.mp hmem
        rw [if_neg hkey]
        simp

lemma nodup_map_firsts (l : List α) : ((firsts key l).map key).Nodup := by
  induction l using List.reverseRecOn with
  | nil => exact List.nodup_nil
  | append_singleton l a ih =>
    rw [firsts_concat, keepFirst]
    split
    · exact ih
    · rename_i ha
      exact nodup_append_of_fresh ih ha

lemma firsts_of_nodup {l : List α} (h : (l.map key).Nodup) : firsts key l = l := by
  induction l using List.reverseRecOn with
  | nil => rfl
  | append_singleton l a ih =>
    rw [List.map_append] at h
    have hl := (List.nodup_append.mp h).1
    have ha : key a ∉ l.map key := by
      intro hmem
      exact (List.nodup_append.mp h).2.2 _ hmem (key a) (by simp) rfl
    rw [firsts_concat, ih hl, keepFirst, if_neg ha]

lemma firsts_map {β : Type} (key : β → κ) (f : α → β) (l : List α) :
    firsts key (l.map f) = (firsts (fun a => key (f a)) l).map f := by
  induction l using List.reverseRecOn with
  | nil => rfl
  | append_singleton l a ih =>
    rw [List.map_append, List.map_singleton, firsts_concat, firsts_concat, ih, keepFirst, keepFirst, List.map_map]
    change (if key (f a) ∈ (firsts (fun a => key (f a)) l).map (fun a => key (f a)) then _ else _) = _
    split
    · rfl
    · rw [List.map_append, List.map_singleton]

end Firsts

inductive Json where
  | null
  | bool (b : Bool)
  | int (n : ℤ)
  /-- A decimal number, or its numeral in a string. -/
  | decimal (q : ℚ)
  | text (s : String)
  | list (items : List Json)
  | dict (entries : List (String × Json))

namespace Json

def truthy : Json → Bool
  | null => false
  | bool b => b
  | int n => n ≠ 0
  | decimal _ => true
  | text s => s ≠ ""
  | list items => !items.isEmpty
  | dict entries => !entries.isEmpty

/-- The items of a dictionary, none of another value. -/
def entries : Json → Dict String Json
  | dict entries => entries
  | _ => []

def items : Json → List Json
  | list items => items
  | _ => []

/-- `int(value or 0)`. -/
def toInt : Json → ℤ
  | int n => n
  | bool b => if b then 1 else 0
  | _ => 0

/-- `_dec(value)`: the number a value spells, else 0. -/
def dec : Json → ℚ
  | int n => n
  | decimal q => q
  | _ => 0

/-- `float(value)`, where it does not raise. -/
def float? : Json → Option ℚ
  | int n => some n
  | decimal q => some q
  | bool b => some (if b then 1 else 0)
  | _ => none

def text? : Json → Option String
  | text s => some s
  | _ => none

/-- `value is not None`. -/
def isSome : Json → Bool
  | null => false
  | _ => true

/-- `d.get(k)` of a dictionary of values, with `None` for a missing key. -/
def look (k : String) (d : Dict String Json) : Json :=
  (Dict.get k d).getD null

end Json
