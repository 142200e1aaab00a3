import Mathlib.Logic.Function.Basic
import Mathlib.Tactic.Common
import Mathlib.Tactic.IntervalCases

/-!
# Replacing a file in one step

A file is replaced by writing a temporary file next to it and renaming that. The process can die after
any of the system calls, and in the middle of the write. Then the file holds what it held before or the
new content, whole, and the other files are as they were (`files_interrupt`); a temporary file may
stay behind, which nobody but the owner can read (`strays_interrupt`).
-/

namespace AtomicFile

variable {Path Bytes : Type} [DecidableEq Path]

structure File (Bytes : Type) where
  mode : ℕ
  content : Bytes
  deriving DecidableEq, Repr

/-- The mode of a file that only its owner reads and writes. -/
def ownerOnly : ℕ := 0o600

/-- `mode & 0o077` is 0. -/
def File.Private (f : File Bytes) : Prop :=
  f.mode &&& 0o077 = 0

instance (f : File Bytes) : Decidable f.Private :=
  inferInstanceAs (Decidable (_ = _))

/-- The files, and the temporary ones, the newest first. -/
structure Disk (Path Bytes : Type) where
  files : Path → Option (File Bytes)
  strays : List (File Bytes) := []

/-- A system call of a write. -/
inductive Syscall (Bytes : Type) where
  | create (empty : Bytes)
  | write (content : Bytes)
  | chmodTemporary
  | rename
  | chmodTarget

namespace Disk

/-- Change the temporary file of this write. -/
def onTemporary (f : File Bytes → File Bytes) (d : Disk Path Bytes) : Disk Path Bytes :=
  match d.strays with
  | [] => d
  | t :: rest => { d with strays := f t :: rest }

def chmod (path : Path) (mode : ℕ) (d : Disk Path Bytes) : Disk Path Bytes :=
  { d with files := Function.update d.files path ((d.files path).map (fun f => { f with mode := mode })) }

def call (target : Path) (d : Disk Path Bytes) : Syscall Bytes → Disk Path Bytes
  | .create empty => { d with strays := ⟨ownerOnly, empty⟩ :: d.strays }
  | .write content => d.onTemporary (fun t => { t with content := content })
  | .chmodTemporary => d.onTemporary (fun t => { t with mode := ownerOnly })
  | .rename =>
    match d.strays with
    | [] => d
    | t :: rest => ⟨Function.update d.files target (some t), rest⟩
  | .chmodTarget => d.chmod target ownerOnly

end Disk

/-- The calls of a write, of which the one that writes has written `part` when the first half is done. -/
def calls (empty part content : Bytes) : List (Syscall Bytes) :=
  [.create empty, .write part, .write content, .chmodTemporary, .rename, .chmodTarget]

/-- How many calls it takes until the file is replaced. -/
def renamed : ℕ := 5

/-- The process stops after the first `n` calls. -/
def interrupt (target : Path) (empty part content : Bytes) (n : ℕ) (d : Disk Path Bytes) : Disk Path Bytes :=
  ((calls empty part content).take n).foldl (Disk.call target) d

/-- `finally`: the temporary file is removed, if the write has got so far and it is still there. -/
def cleanUp (n : ℕ) (d : Disk Path Bytes) : Disk Path Bytes :=
  if 0 < n ∧ n < renamed then { d with strays := d.strays.tail } else d

variable {target : Path} {empty part content : Bytes} {n : ℕ} {d : Disk Path Bytes}

lemma interrupt_of_le (h : 6 ≤ n) :
    interrupt target empty part content n d = interrupt target empty part content 6 d := by
  rw [interrupt, List.take_of_length_le h]
  rfl

/-- The file has the new content if the rename was made, and all files are as they were otherwise. -/
lemma files_interrupt (target : Path) (empty part content : Bytes) (n : ℕ) (d : Disk Path Bytes) :
    (interrupt target empty part content n d).files =
      if renamed ≤ n then Function.update d.files target (some ⟨ownerOnly, content⟩) else d.files := by
  rcases Nat.lt_or_ge n 6 with h | h
  · interval_cases n <;> rfl
  · have hn : renamed ≤ n := Nat.le_of_succ_le h
    rw [interrupt_of_le h, if_pos hn]
    simp [interrupt, calls, Disk.call, Disk.onTemporary, Disk.chmod]

/-- What stays behind has what the temporary file has with any content, if what was there before has. -/
lemma strays_interrupt {P : File Bytes → Prop} (hnew : ∀ b, P ⟨ownerOnly, b⟩) (hd : ∀ f ∈ d.strays, P f) (n : ℕ) :
    ∀ f ∈ (interrupt target empty part content n d).strays, P f := by
  have hhead : ∀ b, ∀ f ∈ (⟨ownerOnly, b⟩ : File Bytes) :: d.strays, P f := by
    intro b f hf
    rcases List.mem_cons.mp hf with rfl | hf
    · exact hnew b
    · exact hd f hf
  rcases Nat.lt_or_ge n 6 with h | h
  · interval_cases n
    · exact hd
    · exact hhead empty
    · exact hhead part
    · exact hhead content
    · exact hhead content
    · exact hd
  · rw [interrupt_of_le h]
    exact hd

/-- With its `finally` done a write leaves no temporary file. -/
lemma strays_cleanUp_interrupt (target : Path) (empty part content : Bytes) (n : ℕ) (d : Disk Path Bytes) :
    (cleanUp n (interrupt target empty part content n d)).strays = d.strays := by
  rcases Nat.lt_or_ge n 6 with h | h
  · interval_cases n <;> rfl
  · rw [interrupt_of_le h, cleanUp, if_neg (fun hn => absurd hn.2 (Nat.not_lt.mpr (Nat.le_of_succ_le h)))]
    rfl

omit [DecidableEq Path] in
@[simp] lemma files_cleanUp : (cleanUp n d).files = d.files := by
  unfold cleanUp
  split <;> rfl

end AtomicFile
