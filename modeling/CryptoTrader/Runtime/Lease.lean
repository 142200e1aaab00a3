import CryptoTrader.Lib.KeyedTable
import CryptoTrader.Lib.Runs
import Mathlib.Algebra.Order.Ring.Rat
import Mathlib.Logic.Function.Basic

/-!
# The run lease

`runtime/lease.py`: the rows of `runtime_leases`, and the calls of the lease manager as the
database statements they consist of. An acquire selects and then writes; the other calls are
one statement. Every call uses the time it read when it started.
-/

namespace CryptoTrader

open KeyedTable Runs

structure RuntimeLease where
  id : Nat
  leaseKey : String
  ownerId : String
  token : String
  expiresAt : ℚ
  acquiredAt : ℚ
  renewedAt : Option ℚ := none
  version : Nat := 1
  fenceGeneration : Nat := 1
  deriving DecidableEq, Repr

structure Lease where
  leaseKey : String
  ownerId : String
  token : String
  expiresAt : ℚ
  fenceGeneration : Nat := 1
  deriving DecidableEq, Repr

abbrev LeaseTable := List RuntimeLease

namespace LeaseManager

variable (leaseKey token : String) (ttlSeconds now : ℚ) (table : LeaseTable)

/-- `UPDATE`: the rows after it, and whether one row was updated. -/
def updateOne (hits : RuntimeLease → Bool) (f : RuntimeLease → RuntimeLease) : Bool × LeaseTable :=
  ((table.filter hits).length = 1, table.map (fun r => if hits r then f r else r))

def renew : Bool × LeaseTable :=
  updateOne table (fun r => r.leaseKey = leaseKey ∧ r.token = token ∧ now < r.expiresAt)
    (fun r => { r with expiresAt := now + ttlSeconds, renewedAt := some now, version := r.version + 1 })

def release : Bool × LeaseTable :=
  ((table.filter (fun r => r.leaseKey = leaseKey ∧ r.token = token)).length = 1,
    table.filter (fun r => ¬(r.leaseKey = leaseKey ∧ r.token = token)))

/-- The row of a key with a token. -/
def rowOf : Option RuntimeLease :=
  table.find? (fun r => r.leaseKey = leaseKey ∧ r.token = token)

def isHeld (token : Option String) : Bool :=
  match token with
  | none => false
  | some token =>
    match rowOf leaseKey token table with
    | none => false
    | some r => now < r.expiresAt

def isCurrent (fenceGeneration : Nat) : Bool :=
  match rowOf leaseKey token table with
  | none => false
  | some r => now < r.expiresAt ∧ r.fenceGeneration = fenceGeneration

end LeaseManager

/-! ### Acquiring -/

/-- An `acquire` after its select: what it was called with, the time it read and the token it
made when it started, and the row it saw. -/
structure AcquireCall where
  leaseKey : String
  ownerId : String
  ttlSeconds : ℚ
  now : ℚ
  token : String
  seen : Option RuntimeLease
  deriving DecidableEq, Repr

inductive AcquireResult where
  | granted (lease : Lease)
  | refused
  /-- `IntegrityError`: the call starts again. -/
  | conflict
  /-- The row of an update by primary key is gone, and the session raises. -/
  | stale
  deriving DecidableEq, Repr

namespace AcquireCall

variable (call : AcquireCall) (rowId : Nat) (table : LeaseTable)

def expiresAt : ℚ :=
  call.now + call.ttlSeconds

/-- The lease of a fresh row or of one that was taken over. -/
def lease (fenceGeneration : Nat) : Lease where
  leaseKey := call.leaseKey
  ownerId := call.ownerId
  token := call.token
  expiresAt := call.expiresAt
  fenceGeneration := fenceGeneration

def freshRow : RuntimeLease where
  id := rowId
  leaseKey := call.leaseKey
  ownerId := call.ownerId
  token := call.token
  expiresAt := call.expiresAt
  acquiredAt := call.now

/-- The owner of an active row extends it. The session writes the row by its primary key. -/
def extend (row : RuntimeLease) : AcquireResult × LeaseTable :=
  if row.id ∈ table.map RuntimeLease.id then
    (.granted { call.lease 1 with token := row.token }, table.map (fun r => if r.id = row.id then
      { r with expiresAt := call.expiresAt, renewedAt := some call.now, version := row.version + 1 } else r))
  else (.stale, table)

def insert : AcquireResult × LeaseTable :=
  if call.leaseKey ∈ table.map RuntimeLease.leaseKey ∨ call.token ∈ table.map RuntimeLease.token then (.conflict, table)
  else (.granted (call.lease 1), table ++ [call.freshRow rowId])

def expired (r : RuntimeLease) : Bool :=
  r.leaseKey = call.leaseKey ∧ r.expiresAt ≤ call.now

def taken (r : RuntimeLease) : RuntimeLease :=
  { r with
    ownerId := call.ownerId, token := call.token, expiresAt := call.expiresAt, acquiredAt := call.now,
    renewedAt := none, version := r.version + 1, fenceGeneration := r.fenceGeneration + 1 }

/-- The compare-and-swap on an expired row. The row in the session follows the update, from
what the select read. -/
def takeOver (row : RuntimeLease) : AcquireResult × LeaseTable :=
  let (one, table) := LeaseManager.updateOne table call.expired call.taken
  (if one then .granted (call.lease (row.fenceGeneration + 1)) else .refused, table)

/-- What `acquire` does after the select. -/
def write : AcquireResult × LeaseTable :=
  match call.seen with
  | none => call.insert rowId table
  | some row =>
    if call.now < row.expiresAt then
      if row.ownerId = call.ownerId ∧ row.token ≠ "" then call.extend table row else (.refused, table)
    else call.takeOver table row

/-- The active row of its own that an acquire goes on to extend. -/
def extended : Option RuntimeLease :=
  match call.seen with
  | none => none
  | some row =>
    if call.now < row.expiresAt ∧ row.ownerId = call.ownerId ∧ row.token ≠ "" then some row else none

variable {call table} {row : RuntimeLease}

lemma write_of_none (h : call.seen = none) : call.write rowId table = call.insert rowId table := by
  rw [write, h]

lemma write_of_own (h : call.seen = some row) (hactive : call.now < row.expiresAt)
    (hown : row.ownerId = call.ownerId ∧ row.token ≠ "") : call.write rowId table = call.extend table row := by
  simp only [write, h, if_pos hactive, if_pos hown]

lemma write_of_other (h : call.seen = some row) (hactive : call.now < row.expiresAt)
    (hown : ¬(row.ownerId = call.ownerId ∧ row.token ≠ "")) : call.write rowId table = (.refused, table) := by
  simp only [write, h, if_pos hactive, if_neg hown]

lemma write_of_expired (h : call.seen = some row) (hactive : ¬call.now < row.expiresAt) :
    call.write rowId table = call.takeOver table row := by
  simp only [write, h, if_neg hactive]

lemma takeOver_of_row (hkeys : (table.map RuntimeLease.leaseKey).Nodup) (hrow : row ∈ table)
    (hexpired : call.expired row) :
    call.takeOver table row = (.granted (call.lease (row.fenceGeneration + 1)),
      table.map (fun r => if call.expired r then call.taken r else r)) := by
  have hkey : ∀ r, call.expired r → r.leaseKey = row.leaseKey := fun r hr =>
    (of_decide_eq_true hr).1.trans (of_decide_eq_true hexpired).1.symm
  simp [takeOver, LeaseManager.updateOne, filter_eq_singleton hkeys hrow hexpired hkey]

lemma seen_of_extended (h : call.extended = some row) : call.seen = some row := by
  unfold extended at h
  split at h
  · contradiction
  · split at h
    · rw [← h]
      assumption
    · contradiction

/-- A granted lease has the token of the call, or that of the active row it extended. -/
lemma granted_token {lease : Lease} (h : (call.write rowId table).1 = .granted lease) :
    lease.token = call.token ∨ ∃ row, call.extended = some row ∧ lease.token = row.token := by
  unfold write at h
  split at h
  · unfold insert at h
    split at h
    · contradiction
    · injection h with h
      exact .inl (h ▸ rfl)
  · rename_i row hseen
    split at h
    · split at h
      · rename_i hactive hown
        unfold extend at h
        split at h
        · injection h with h
          exact .inr ⟨row, by simp only [AcquireCall.extended, hseen, if_pos (And.intro hactive hown)], h ▸ rfl⟩
        · contradiction
      · contradiction
    · simp only [takeOver] at h
      split at h
      · injection h with h
        exact .inl (h ▸ rfl)
      · contradiction

end AcquireCall

/-! ### Interleavings -/

/-- The table, the clock the processes share, the acquires under way, and the tokens made so
far. -/
structure LeaseState (ι : Type) where
  table : LeaseTable
  clock : ℚ
  calls : ι → Option AcquireCall
  minted : List String

inductive LeaseTurn (ι : Type) where
  | tick (elapsed : ℚ)
  /-- The select of an acquire. -/
  | select (i : ι) (leaseKey ownerId : String) (ttlSeconds now : ℚ) (token : String)
  /-- The write of an acquire, or its return. -/
  | write (i : ι) (rowId : Nat)
  | renew (leaseKey token : String) (ttlSeconds now : ℚ)
  | release (leaseKey token : String)
  /-- The process of an acquire dies in it. -/
  | crash (i : ι)

section Steps

variable {ι : Type} [DecidableEq ι]

def leaseStep (st : LeaseState ι) : LeaseTurn ι → LeaseState ι
  | .tick elapsed => { st with clock := st.clock + elapsed }
  | .select i leaseKey ownerId ttlSeconds now token =>
    let seen := row RuntimeLease.leaseKey leaseKey st.table
    { st with
      calls := Function.update st.calls i (some { leaseKey, ownerId, ttlSeconds, now, token, seen })
      minted := token :: st.minted }
  | .write i rowId =>
    match st.calls i with
    | none => st
    | some call => { st with table := (call.write rowId st.table).2, calls := Function.update st.calls i none }
  | .renew leaseKey token ttlSeconds now => { st with table := (LeaseManager.renew leaseKey token ttlSeconds now st.table).2 }
  | .release leaseKey token => { st with table := (LeaseManager.release leaseKey token st.table).2 }
  | .crash i => { st with calls := Function.update st.calls i none }

/-- Time does not run back, a call uses a time that has been, and `new_id` makes new tokens. -/
def LeaseTurn.Proper (st : LeaseState ι) : LeaseTurn ι → Prop
  | .tick elapsed => 0 ≤ elapsed
  | .select _ _ _ _ now token => now ≤ st.clock ∧ token ∉ st.minted
  | .write _ rowId => rowId ∉ st.table.map RuntimeLease.id
  | .renew _ _ _ now => now ≤ st.clock
  | .release _ _ => True
  | .crash _ => True

instance decidableLeaseProper (st : LeaseState ι) : ∀ turn : LeaseTurn ι, Decidable (turn.Proper st)
  | .tick elapsed => inferInstanceAs (Decidable (0 ≤ elapsed))
  | .select _ _ _ _ now token => inferInstanceAs (Decidable (now ≤ st.clock ∧ token ∉ st.minted))
  | .write _ rowId => inferInstanceAs (Decidable (rowId ∉ st.table.map RuntimeLease.id))
  | .renew _ _ _ now => inferInstanceAs (Decidable (now ≤ st.clock))
  | .release _ _ => inferInstanceAs (Decidable True)
  | .crash _ => inferInstanceAs (Decidable True)

/-- The state after a statement, if there is one. -/
def leaseStep? (st : LeaseState ι) (turn : Option (LeaseTurn ι)) : LeaseState ι :=
  turn.elim st (leaseStep st)

lemma leaseStep?_keeps {P : LeaseState ι → Prop} {st : LeaseState ι} (h : P st)
    (hstep : ∀ turn : LeaseTurn ι, turn.Proper st → P (leaseStep st turn)) {turn : Option (LeaseTurn ι)}
    (hp : ∀ t ∈ turn, t.Proper st) : P (leaseStep? st turn) := by
  cases turn with
  | none => exact h
  | some t => exact hstep t (hp t rfl)

/-! ### What a step can do -/

lemma AcquireCall.mem_write {call : AcquireCall} {rowId : Nat} {table : LeaseTable} {r : RuntimeLease}
    (h : r ∈ (call.write rowId table).2) :
    (∃ r' ∈ table, r'.leaseKey = r.leaseKey ∧ r'.token = r.token) ∨
      r.leaseKey = call.leaseKey ∧ r.token = call.token := by
  unfold write at h
  split at h
  · unfold insert at h
    split at h
    · exact .inl ⟨r, h, rfl, rfl⟩
    · rcases List.mem_append.mp h with h | h
      · exact .inl ⟨r, h, rfl, rfl⟩
      · obtain rfl := List.mem_singleton.mp h
        exact .inr ⟨rfl, rfl⟩
  · rename_i row _
    split at h
    · split at h
      · unfold extend at h
        split at h
        · obtain ⟨r', hr', rfl⟩ := List.mem_map.mp h
          refine .inl ⟨r', hr', ?_⟩
          split <;> exact ⟨rfl, rfl⟩
        · exact .inl ⟨r, h, rfl, rfl⟩
      · exact .inl ⟨r, h, rfl, rfl⟩
    · obtain ⟨r', hr', rfl⟩ := List.mem_map.mp h
      split
      · have hexpired : r'.leaseKey = call.leaseKey ∧ r'.expiresAt ≤ call.now := of_decide_eq_true ‹_›
        exact .inr ⟨hexpired.1, rfl⟩
      · exact .inl ⟨r', hr', rfl, rfl⟩

lemma nodup_updateOne {table : LeaseTable} (h : (table.map RuntimeLease.leaseKey).Nodup)
    (hits : RuntimeLease → Bool) (f : RuntimeLease → RuntimeLease) (hf : ∀ r, (f r).leaseKey = r.leaseKey) :
    ((LeaseManager.updateOne table hits f).2.map RuntimeLease.leaseKey).Nodup := by
  change ((table.map _).map _).Nodup
  rw [List.map_map]
  convert h using 1
  apply List.map_congr_left
  intro r _
  dsimp only [Function.comp_apply]
  split
  · exact hf r
  · rfl

lemma AcquireCall.nodup_write {table : LeaseTable} (call : AcquireCall) (rowId : Nat)
    (h : (table.map RuntimeLease.leaseKey).Nodup) :
    ((call.write rowId table).2.map RuntimeLease.leaseKey).Nodup := by
  unfold write
  split
  · unfold insert
    split
    · exact h
    · rename_i hfresh
      rw [not_or] at hfresh
      exact nodup_append_of_fresh h hfresh.1
  · split
    · split
      · unfold extend
        split
        · dsimp only
          rw [List.map_map]
          convert h using 1
          apply List.map_congr_left
          intro r _
          dsimp only [Function.comp_apply]
          split <;> rfl
        · exact h
      · exact h
    · exact nodup_updateOne h _ _ (fun _ => rfl)

/-- A row of the table after a step was there before with its key and token, or is the row
of an acquire that wrote. -/
lemma mem_leaseStep {st : LeaseState ι} {turn : LeaseTurn ι} {r : RuntimeLease}
    (h : r ∈ (leaseStep st turn).table) :
    (∃ r' ∈ st.table, r'.leaseKey = r.leaseKey ∧ r'.token = r.token) ∨
      ∃ i rowId call, turn = .write i rowId ∧ st.calls i = some call ∧
        r.leaseKey = call.leaseKey ∧ r.token = call.token := by
  cases turn with
  | tick elapsed => exact .inl ⟨r, h, rfl, rfl⟩
  | select i leaseKey ownerId ttlSeconds now token => exact .inl ⟨r, h, rfl, rfl⟩
  | write i rowId =>
    simp only [leaseStep] at h
    split at h
    · exact .inl ⟨r, h, rfl, rfl⟩
    · rename_i call hcall
      rcases AcquireCall.mem_write h with hold | hnew
      · exact .inl hold
      · exact .inr ⟨i, rowId, call, rfl, hcall, hnew⟩
  | renew leaseKey token ttlSeconds now =>
    obtain ⟨r', hr', rfl⟩ := List.mem_map.mp h
    refine .inl ⟨r', hr', ?_⟩
    split <;> exact ⟨rfl, rfl⟩
  | release leaseKey token => exact .inl ⟨r, (List.mem_filter.mp h).1, rfl, rfl⟩
  | crash i => exact .inl ⟨r, h, rfl, rfl⟩

lemma nodup_leaseStep {st : LeaseState ι} (turn : LeaseTurn ι)
    (h : (st.table.map RuntimeLease.leaseKey).Nodup) :
    ((leaseStep st turn).table.map RuntimeLease.leaseKey).Nodup := by
  cases turn with
  | tick elapsed => exact h
  | select i leaseKey ownerId ttlSeconds now token => exact h
  | write i rowId =>
    simp only [leaseStep]
    split
    · exact h
    · exact AcquireCall.nodup_write _ rowId h
  | renew leaseKey token ttlSeconds now => exact nodup_updateOne h _ _ (fun _ => rfl)
  | release leaseKey token => exact nodup_filter h _
  | crash i => exact h

/-- An acquire under way after a step was under way before and has not written, or has just
selected. -/
lemma calls_leaseStep {st : LeaseState ι} {turn : LeaseTurn ι} {i : ι} {call : AcquireCall}
    (h : (leaseStep st turn).calls i = some call) :
    (st.calls i = some call ∧ ∀ rowId, turn ≠ .write i rowId) ∨
      ∃ leaseKey ownerId ttlSeconds now, turn = .select i leaseKey ownerId ttlSeconds now call.token ∧
        call.seen = row RuntimeLease.leaseKey leaseKey st.table := by
  cases turn with
  | tick elapsed => exact .inl ⟨h, by simp⟩
  | select j leaseKey ownerId ttlSeconds now token =>
    by_cases hij : i = j
    · subst hij
      simp only [leaseStep, Function.update_self, Option.some.injEq] at h
      subst h
      exact .inr ⟨leaseKey, ownerId, ttlSeconds, now, rfl, rfl⟩
    · simp only [leaseStep, Function.update_of_ne hij] at h
      exact .inl ⟨h, by simp⟩
  | write j rowId =>
    simp only [leaseStep] at h
    split at h
    · rename_i hnone
      refine .inl ⟨h, ?_⟩
      rintro _ ⟨rfl, -⟩
      rw [hnone] at h
      contradiction
    · by_cases hij : i = j
      · rw [hij] at h
        simp at h
      · dsimp only at h
        rw [Function.update_of_ne hij] at h
        exact .inl ⟨h, by simp [Ne.symm hij]⟩
  | renew leaseKey token ttlSeconds now => exact .inl ⟨h, by simp⟩
  | release leaseKey token => exact .inl ⟨h, by simp⟩
  | crash j =>
    by_cases hij : i = j
    · rw [hij] at h
      simp [leaseStep] at h
    · simp only [leaseStep, Function.update_of_ne hij] at h
      exact .inl ⟨h, by simp⟩

lemma minted_leaseStep {st : LeaseState ι} (turn : LeaseTurn ι) {token : String} (h : token ∈ st.minted) :
    token ∈ (leaseStep st turn).minted := by
  cases turn with
  | select i leaseKey ownerId ttlSeconds now token' => exact List.mem_cons_of_mem _ h
  | write i rowId =>
    simp only [leaseStep]
    split <;> exact h
  | tick elapsed => exact h
  | renew leaseKey token ttlSeconds now => exact h
  | release leaseKey token => exact h
  | crash i => exact h

/-! ### Tokens -/

/-- A token that was made and that no acquire under way can still write. -/
structure Spent (st : LeaseState ι) (token : String) : Prop where
  minted : token ∈ st.minted
  idle : ∀ i call, st.calls i = some call → call.token ≠ token

lemma Spent.step {st : LeaseState ι} {token : String} (h : Spent st token) {turn : LeaseTurn ι}
    (hp : turn.Proper st) : Spent (leaseStep st turn) token := by
  refine ⟨minted_leaseStep turn h.minted, ?_⟩
  intro i call hcall heq
  rcases calls_leaseStep hcall with ⟨hold, -⟩ | ⟨leaseKey, ownerId, ttlSeconds, now, rfl, -⟩
  · exact h.idle i call hold heq
  · exact hp.2 (heq ▸ h.minted)

structure LeaseInv (st : LeaseState ι) : Prop where
  keys : (st.table.map RuntimeLease.leaseKey).Nodup
  spent : ∀ r ∈ st.table, Spent st r.token
  minted : ∀ i call, st.calls i = some call → call.token ∈ st.minted
  distinct : ∀ i j ci cj, st.calls i = some ci → st.calls j = some cj → ci.token = cj.token → i = j
  seen : ∀ i call r, st.calls i = some call → call.seen = some r → Spent st r.token

lemma LeaseInv.minted_step {st : LeaseState ι} (inv : LeaseInv st) (turn : LeaseTurn ι) {i : ι} {call : AcquireCall}
    (h : (leaseStep st turn).calls i = some call) : call.token ∈ (leaseStep st turn).minted := by
  rcases calls_leaseStep h with ⟨hold, -⟩ | ⟨leaseKey, ownerId, ttlSeconds, now, rfl, -⟩
  · exact minted_leaseStep turn (inv.minted i call hold)
  · exact List.mem_cons_self

lemma LeaseInv.distinct_step {st : LeaseState ι} (inv : LeaseInv st) {turn : LeaseTurn ι} (hp : turn.Proper st)
    {i j : ι} {ci cj : AcquireCall} (hi : (leaseStep st turn).calls i = some ci)
    (hj : (leaseStep st turn).calls j = some cj) (heq : ci.token = cj.token) : i = j := by
  rcases calls_leaseStep hi with ⟨hiold, -⟩ | ⟨leaseKey, ownerId, ttlSeconds, now, rfl, -⟩ <;>
    rcases calls_leaseStep hj with ⟨hjold, -⟩ | ⟨leaseKey', ownerId', ttlSeconds', now', hturn, -⟩
  · exact inv.distinct i j ci cj hiold hjold heq
  · subst hturn
    exact absurd (heq ▸ inv.minted i ci hiold) hp.2
  · exact absurd (heq ▸ inv.minted j cj hjold) hp.2
  · injection hturn

lemma LeaseInv.spent_write {st : LeaseState ι} (inv : LeaseInv st) {i : ι} {call : AcquireCall}
    (hcall : st.calls i = some call) (rowId : Nat) : Spent (leaseStep st (.write i rowId)) call.token := by
  refine ⟨minted_leaseStep _ (inv.minted i call hcall), ?_⟩
  intro j cj hj heq
  rcases calls_leaseStep hj with ⟨hjold, hne⟩ | ⟨leaseKey, ownerId, ttlSeconds, now, hturn, -⟩
  · have hij : j = i := inv.distinct j i cj call hjold hcall heq
    exact hne rowId (by rw [hij])
  · contradiction

lemma LeaseInv.granted_spent {st : LeaseState ι} (inv : LeaseInv st) {i : ι} {call : AcquireCall}
    (hcall : st.calls i = some call) {rowId : Nat} {lease : Lease}
    (hp : (LeaseTurn.write i rowId).Proper st) (h : (call.write rowId st.table).1 = .granted lease) :
    Spent (leaseStep st (.write i rowId)) lease.token := by
  rcases AcquireCall.granted_token rowId h with hnew | ⟨row, hrow, hold⟩
  · rw [hnew]
    exact inv.spent_write hcall rowId
  · rw [hold]
    exact (inv.seen i call row hcall (AcquireCall.seen_of_extended hrow)).step hp

theorem LeaseInv.step {st : LeaseState ι} (inv : LeaseInv st) {turn : LeaseTurn ι} (hp : turn.Proper st) :
    LeaseInv (leaseStep st turn) where
  keys := nodup_leaseStep turn inv.keys
  minted := fun _ _ h => inv.minted_step turn h
  distinct := fun _ _ _ _ hi hj heq => inv.distinct_step hp hi hj heq
  spent := by
    intro r hr
    rcases mem_leaseStep hr with ⟨r', hr', -, htoken⟩ | ⟨i, rowId, call, rfl, hcall, -, htoken⟩
    · rw [← htoken]
      exact (inv.spent r' hr').step hp
    · rw [htoken]
      exact inv.spent_write hcall rowId
  seen := by
    intro i call r hcall hseen
    rcases calls_leaseStep hcall with ⟨hold, -⟩ | ⟨leaseKey, ownerId, ttlSeconds, now, rfl, hrow⟩
    · exact (inv.seen i call r hold hseen).step hp
    · rw [hrow] at hseen
      exact (inv.spent r (row_some hseen).1).step hp

/-- A spent token without a row of the key. -/
def Gone (leaseKey token : String) (st : LeaseState ι) : Prop :=
  Spent st token ∧ LeaseManager.rowOf leaseKey token st.table = none

lemma rowOf_eq_none_iff {leaseKey token : String} {table : LeaseTable} :
    LeaseManager.rowOf leaseKey token table = none ↔ ∀ r ∈ table, ¬(r.leaseKey = leaseKey ∧ r.token = token) := by
  simp [LeaseManager.rowOf, List.find?_eq_none]

lemma rowOf_some {leaseKey token : String} {table : LeaseTable} {r : RuntimeLease}
    (h : LeaseManager.rowOf leaseKey token table = some r) : r ∈ table ∧ r.leaseKey = leaseKey ∧ r.token = token := by
  refine ⟨List.mem_of_find?_eq_some h, ?_⟩
  simpa using List.find?_some h

lemma rowOf_release_self (leaseKey token : String) (table : LeaseTable) :
    LeaseManager.rowOf leaseKey token (LeaseManager.release leaseKey token table).2 = none :=
  rowOf_eq_none_iff.mpr (fun _ hr => of_decide_eq_true (List.mem_filter.mp hr).2)

lemma rowOf_release_of_ne {leaseKey token token' : String} (h : token' ≠ token) (table : LeaseTable) :
    LeaseManager.rowOf leaseKey token' (LeaseManager.release leaseKey token table).2 =
      LeaseManager.rowOf leaseKey token' table := by
  unfold LeaseManager.rowOf LeaseManager.release
  rw [List.find?_filter]
  congr 1
  funext r
  by_cases hr : r.token = token' <;> simp [hr, h]

lemma Gone.step {leaseKey token : String} {st : LeaseState ι} (h : Gone leaseKey token st) {turn : LeaseTurn ι}
    (hp : turn.Proper st) : Gone leaseKey token (leaseStep st turn) := by
  refine ⟨h.1.step hp, rowOf_eq_none_iff.mpr ?_⟩
  rintro r hr ⟨hkey, htoken⟩
  rcases mem_leaseStep hr with ⟨r', hr', hkey', htoken'⟩ | ⟨i, rowId, call, rfl, hcall, -, hcalltoken⟩
  · exact rowOf_eq_none_iff.mp h.2 r' hr' ⟨hkey'.trans hkey, htoken'.trans htoken⟩
  · exact h.1.idle i call hcall (hcalltoken.symm.trans htoken)

/-! ### Exclusion -/

/-- All that pass `is_held`, at whatever time they read, have one token. -/
def OneHolder (st : LeaseState ι) : Prop :=
  ∀ leaseKey token token' now now', LeaseManager.isHeld leaseKey now st.table (some token) →
    LeaseManager.isHeld leaseKey now' st.table (some token') → token = token'

/-- Every call with the token fails, and none changes a row. -/
def ShutOut (leaseKey token : String) (st : LeaseState ι) : Prop :=
  ∀ ttlSeconds now fenceGeneration,
    LeaseManager.isHeld leaseKey now st.table (some token) = false ∧
    LeaseManager.isCurrent leaseKey token now st.table fenceGeneration = false ∧
    LeaseManager.renew leaseKey token ttlSeconds now st.table = (false, st.table) ∧
    LeaseManager.release leaseKey token st.table = (false, st.table)

lemma row_of_isHeld {leaseKey token : String} {now : ℚ} {table : LeaseTable}
    (h : LeaseManager.isHeld leaseKey now table (some token)) :
    ∃ r ∈ table, r.leaseKey = leaseKey ∧ r.token = token ∧ now < r.expiresAt := by
  simp only [LeaseManager.isHeld] at h
  split at h
  · contradiction
  · rename_i r hr
    obtain ⟨hm, hkey, htoken⟩ := rowOf_some hr
    exact ⟨r, hm, hkey, htoken, of_decide_eq_true h⟩

lemma row_of_isCurrent {leaseKey token : String} {now : ℚ} {table : LeaseTable} {fenceGeneration : Nat}
    (h : LeaseManager.isCurrent leaseKey token now table fenceGeneration) :
    ∃ r ∈ table, r.leaseKey = leaseKey ∧ r.token = token ∧ now < r.expiresAt := by
  simp only [LeaseManager.isCurrent] at h
  split at h
  · contradiction
  · rename_i r hr
    obtain ⟨hm, hkey, htoken⟩ := rowOf_some hr
    exact ⟨r, hm, hkey, htoken, (of_decide_eq_true h).1⟩

omit [DecidableEq ι] in
lemma LeaseInv.oneHolder {st : LeaseState ι} (inv : LeaseInv st) : OneHolder st := by
  intro leaseKey token token' now now' h h'
  obtain ⟨r, hr, hkey, rfl, -⟩ := row_of_isHeld h
  obtain ⟨r', hr', hkey', rfl, -⟩ := row_of_isHeld h'
  rw [eq_of_key_eq inv.keys hr hr' (hkey.trans hkey'.symm)]

omit [DecidableEq ι] in
lemma Gone.shutOut {leaseKey token : String} {st : LeaseState ι} (h : Gone leaseKey token st) :
    ShutOut leaseKey token st := by
  intro ttlSeconds now fenceGeneration
  have hnone : ∀ r ∈ st.table, ¬(r.leaseKey = leaseKey ∧ r.token = token) := rowOf_eq_none_iff.mp h.2
  refine ⟨by simp [LeaseManager.isHeld, h.2], by simp [LeaseManager.isCurrent, h.2], ?_, ?_⟩
  · have hmiss : ∀ r ∈ st.table, ¬(r.leaseKey = leaseKey ∧ r.token = token ∧ now < r.expiresAt) :=
      fun r hr hrow => hnone r hr ⟨hrow.1, hrow.2.1⟩
    unfold LeaseManager.renew LeaseManager.updateOne
    rw [List.filter_eq_nil_iff.mpr (fun r hr => by simpa using hmiss r hr)]
    refine Prod.ext rfl ((List.map_congr_left (fun r hr => ?_)).trans (List.map_id _))
    rw [if_neg (by simpa using hmiss r hr)]
    rfl
  · unfold LeaseManager.release
    rw [List.filter_eq_nil_iff.mpr (fun r hr => by simpa using hnone r hr),
      List.filter_eq_self.mpr (fun r hr => decide_eq_true (hnone r hr))]
    rfl

/-- A table with unique keys whose tokens were all made before, and no acquire under way. -/
structure LeaseState.Started (st : LeaseState ι) : Prop where
  keys : (st.table.map RuntimeLease.leaseKey).Nodup
  minted : ∀ r ∈ st.table, r.token ∈ st.minted
  idle : ∀ i, st.calls i = none

omit [DecidableEq ι] in
lemma LeaseState.Started.inv {st : LeaseState ι} (h : st.Started) : LeaseInv st where
  keys := h.keys
  spent := fun r hr => ⟨h.minted r hr, by simp [h.idle]⟩
  minted := by simp [h.idle]
  distinct := by simp [h.idle]
  seen := by simp [h.idle]

/-- Whatever the interleaving, one token at most is held, and a token that had the row of a
key and lost it is shut out from then on. -/
theorem lease_exclusive {st : LeaseState ι} (hs : st.Started) {turns : List (LeaseTurn ι)}
    (hp : Along leaseStep (fun st turn => turn.Proper st) st turns) :
    Visits leaseStep OneHolder st turns ∧
    ∀ past between future, turns = past ++ between ++ future → ∀ leaseKey token,
      LeaseManager.rowOf leaseKey token (run leaseStep st past).table ≠ none →
      LeaseManager.rowOf leaseKey token (run leaseStep st (past ++ between)).table = none →
      Visits leaseStep (ShutOut leaseKey token) (run leaseStep st (past ++ between)) future := by
  have hinv : ∀ (st : LeaseState ι) (turn : LeaseTurn ι), LeaseInv st → turn.Proper st → LeaseInv (leaseStep st turn) :=
    fun _ _ inv hturn => inv.step hturn
  refine ⟨(visits_of_along hinv hs.inv hp).mono (fun _ inv => inv.oneHolder), ?_⟩
  rintro past between future rfl leaseKey token hhad hlost
  obtain ⟨hpast, hfuture⟩ := (along_append st (past ++ between) future).mp hp
  obtain ⟨hpast, hbetween⟩ := (along_append st past between).mp hpast
  -- The row had the token, so no acquire under way can write it.
  obtain ⟨r, hr⟩ := Option.ne_none_iff_exists'.mp hhad
  obtain ⟨hmem, -, rfl⟩ := rowOf_some hr
  have hspent : Spent (run leaseStep st past) r.token := (run_invariant hinv hs.inv hpast).spent r hmem
  have hspent : Spent (run leaseStep st (past ++ between)) r.token := by
    rw [run_append]
    exact run_invariant (I := fun st => Spent st r.token) (fun _ _ h hturn => h.step hturn) hspent hbetween
  have hgone : Gone leaseKey r.token (run leaseStep st (past ++ between)) := ⟨hspent, hlost⟩
  have hstep : ∀ (st : LeaseState ι) (turn : LeaseTurn ι), Gone leaseKey r.token st → turn.Proper st →
      Gone leaseKey r.token (leaseStep st turn) := fun _ _ h hturn => h.step hturn
  exact (visits_of_along hstep hgone hfuture).mono (fun _ h => h.shutOut)

def LeaseState.empty (ι : Type) : LeaseState ι where
  table := []
  clock := 0
  calls := fun _ => none
  minted := []

lemma LeaseState.empty_started (ι : Type) : (LeaseState.empty ι).Started := by
  constructor <;> simp [empty]

/-- The lease runs out, another process takes it over, and the first renews and releases. -/
theorem lease_taken_over :
    let past : List (LeaseTurn Bool) := [.select false "run" "a" 30 0 "t1", .write false 1, .tick 31]
    let between : List (LeaseTurn Bool) := [.select true "run" "b" 30 31 "t2", .write true 2]
    let future : List (LeaseTurn Bool) := [.renew "run" "t1" 30 31, .release "run" "t1"]
    Visits leaseStep (ShutOut "run" "t1") (run leaseStep (LeaseState.empty Bool) (past ++ between)) future := by
  intro past between future
  exact (lease_exclusive (LeaseState.empty_started Bool) (by decide +kernel)).2
    past between future rfl "run" "t1" (by decide +kernel) (by decide +kernel)

end Steps

end CryptoTrader
