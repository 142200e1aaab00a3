import CryptoTrader.Runtime.Fencing

/-!
# Granted leases

A lease is granted on three paths, and what became of it is asked for by its token and generation. Between
the grant and the end of the lease the row of the key keeps both (`holder_leaseStep`), so the lease is current
for as long as it is held, if the acquire has answered with the generation of the row.
-/

namespace CryptoTrader

open KeyedTable Runs

section Grant

variable {ι : Type} [DecidableEq ι] {leaseKey token : String}

/-- What ends a lease before it expires: its release, and a takeover. -/
def LeaseTurn.ends (leaseKey token : String) (st : LeaseState ι) : LeaseTurn ι → Bool
  | .release key token' => key = leaseKey ∧ token' = token
  | .write i _ =>
    match st.calls i with
    | none => false
    | some call =>
      call.seen.any (fun r => r.expiresAt ≤ call.now) && (row RuntimeLease.leaseKey leaseKey st.table).any call.expired
  | _ => false

/-- The row of the lease is there, and until it expires `is_current` is true of the lease. -/
def CurrentWhileHeld (leaseKey : String) (lease : Lease) (st : LeaseState ι) : Prop :=
  ∃ r, LeaseManager.rowOf leaseKey lease.token st.table = some r ∧ ∀ now, now < r.expiresAt →
    LeaseManager.isCurrent leaseKey lease.token now st.table lease.fenceGeneration = true

/-! ### The row of the key -/

lemma rowOf_of_row {table : LeaseTable} (hkeys : (table.map RuntimeLease.leaseKey).Nodup) {r : RuntimeLease}
    (h : row RuntimeLease.leaseKey leaseKey table = some r) (htoken : r.token = token) :
    LeaseManager.rowOf leaseKey token table = some r := by
  obtain ⟨hmem, hkey⟩ := row_some h
  cases hof : LeaseManager.rowOf leaseKey token table with
  | none => exact absurd ⟨hkey, htoken⟩ (rowOf_eq_none_iff.mp hof r hmem)
  | some r' =>
    obtain ⟨hmem', hkey', -⟩ := rowOf_some hof
    rw [eq_of_key_eq hkeys hmem hmem' (hkey.trans hkey'.symm)]

lemma isCurrent_of_row {table : LeaseTable} (hkeys : (table.map RuntimeLease.leaseKey).Nodup) {r : RuntimeLease}
    (h : row RuntimeLease.leaseKey leaseKey table = some r) (htoken : r.token = token) {now : ℚ}
    (hnow : now < r.expiresAt) (generation : Nat) :
    LeaseManager.isCurrent leaseKey token now table generation = true ↔ r.fenceGeneration = generation := by
  simp only [LeaseManager.isCurrent, rowOf_of_row hkeys h htoken, decide_eq_true_eq, and_iff_right hnow]

lemma exists_holder {table : LeaseTable} {generation : Nat} (h : holder leaseKey table = some (token, generation)) :
    ∃ r, row RuntimeLease.leaseKey leaseKey table = some r ∧ r.token = token ∧ r.fenceGeneration = generation := by
  obtain ⟨r, hrow, heq⟩ := Option.map_eq_some_iff.mp h
  obtain ⟨htoken, hgeneration⟩ := Prod.mk.inj heq
  exact ⟨r, hrow, htoken, hgeneration⟩

omit [DecidableEq ι] in
lemma currentWhileHeld_of_holder {st : LeaseState ι} (inv : LeaseInv st) {lease : Lease}
    (h : holder leaseKey st.table = some (lease.token, lease.fenceGeneration)) : CurrentWhileHeld leaseKey lease st := by
  obtain ⟨r, hrow, htoken, hgeneration⟩ := exists_holder h
  exact ⟨r, rowOf_of_row inv.keys hrow htoken, fun now hnow => (isCurrent_of_row inv.keys hrow htoken hnow _).mpr hgeneration⟩

/-- The token and the generation of a key move only in a release and in a takeover. -/
lemma holder_write {call : AcquireCall} {rowId : Nat} {table : LeaseTable} {r : RuntimeLease}
    (hrow : row RuntimeLease.leaseKey leaseKey table = some r)
    (hkept : call.seen.any (fun r => r.expiresAt ≤ call.now) = true → call.expired r = false) :
    holder leaseKey (call.write rowId table).2 = holder leaseKey table := by
  cases hseen : call.seen with
  | none =>
    rw [AcquireCall.write_of_none rowId hseen]
    unfold AcquireCall.insert
    split
    · rfl
    · unfold holder
      rw [row_append_of_some hrow, hrow]
  | some seen =>
    by_cases hactive : call.now < seen.expiresAt
    · by_cases hown : seen.ownerId = call.ownerId ∧ seen.token ≠ ""
      · rw [AcquireCall.write_of_own rowId hseen hactive hown]
        unfold AcquireCall.extend
        split
        · exact holder_map (fun r' => by split <;> rfl) (fun r' => by split <;> rfl) table
        · rfl
      · rw [AcquireCall.write_of_other rowId hseen hactive hown]
    · rw [AcquireCall.write_of_expired rowId hseen hactive]
      have hr : call.expired r = false := hkept (by simp [hseen, not_lt.mp hactive])
      unfold AcquireCall.takeOver LeaseManager.updateOne holder
      dsimp only
      rw [row_map (fun r' => by split <;> rfl), hrow]
      simp [hr]

lemma holder_leaseStep {st : LeaseState ι} (inv : LeaseInv st) {turn : LeaseTurn ι} {generation : Nat}
    (h : holder leaseKey st.table = some (token, generation)) (hends : turn.ends leaseKey token st = false) :
    holder leaseKey (leaseStep st turn).table = some (token, generation) := by
  obtain ⟨r, hrow, htoken, hgeneration⟩ := exists_holder h
  cases turn with
  | tick elapsed => exact h
  | select i leaseKey' ownerId ttlSeconds now token' => exact h
  | crash i => exact h
  | renew leaseKey' token' ttlSeconds now => exact (holder_renew leaseKey' token' ttlSeconds now st.table).trans h
  | release leaseKey' token' =>
    have hother : ¬(leaseKey' = leaseKey ∧ token' = token) := by simpa [LeaseTurn.ends] using hends
    have hkey : r.leaseKey = leaseKey := (row_some hrow).2
    change holder leaseKey (st.table.filter _) = _
    unfold holder
    rw [row_filter inv.keys, hrow, Option.filter_some, if_pos, Option.map_some, htoken, hgeneration]
    refine decide_eq_true (fun hhit => hother ⟨?_, ?_⟩)
    · exact hhit.1.symm.trans hkey
    · exact hhit.2.symm.trans htoken
  | write i rowId =>
    simp only [leaseStep]
    cases hcall : st.calls i with
    | none => exact h
    | some call =>
      refine (holder_write hrow ?_).trans h
      simpa [LeaseTurn.ends, hcall, hrow] using hends

/-! ### The grant -/

/-- What a grant leaves in the row of the key, and what it answers: the generation of the row, but for
an extension, which answers 1. -/
lemma AcquireCall.granted_row {call : AcquireCall} {table table' : LeaseTable} {rowId : Nat} {lease : Lease}
    (hkeys : (table.map RuntimeLease.leaseKey).Nodup) (hfresh : call.token ∉ table.map RuntimeLease.token)
    (hseen : call.seen = row RuntimeLease.leaseKey call.leaseKey table)
    (h : call.write rowId table = (.granted lease, table')) :
    ∃ r, row RuntimeLease.leaseKey call.leaseKey table' = some r ∧ r.token = lease.token ∧ r.expiresAt = lease.expiresAt ∧
      (r.fenceGeneration = lease.fenceGeneration ↔ ∀ held, call.seen = some held → call.now < held.expiresAt →
        held.fenceGeneration = 1) := by
  cases hrow : row RuntimeLease.leaseKey call.leaseKey table with
  | none =>
    rw [hrow] at hseen
    have hkey : call.leaseKey ∉ table.map RuntimeLease.leaseKey := row_eq_none_iff.mp hrow
    rw [write_of_none _ hseen, insert, if_neg (not_or.mpr ⟨hkey, hfresh⟩)] at h
    obtain ⟨hlease, rfl⟩ := Prod.mk.inj h
    injection hlease with hlease
    subst hlease
    refine ⟨call.freshRow rowId, ?_, rfl, rfl, iff_of_true rfl (by simp [hseen])⟩
    rw [row_append_of_none hrow]
    simp [row, freshRow]
  | some r =>
    rw [hrow] at hseen
    obtain ⟨hmem, hkey⟩ := row_some hrow
    by_cases hactive : call.now < r.expiresAt
    · by_cases hown : r.ownerId = call.ownerId ∧ r.token ≠ ""
      · have hid : r.id ∈ table.map RuntimeLease.id := List.mem_map_of_mem hmem
        rw [write_of_own _ hseen hactive hown, extend, if_pos hid] at h
        obtain ⟨hlease, rfl⟩ := Prod.mk.inj h
        injection hlease with hlease
        subst hlease
        rw [row_map (fun r' => by split <;> rfl), hrow, Option.map_some, if_pos rfl]
        exact ⟨_, rfl, rfl, rfl, by simp [AcquireCall.lease, hseen, hactive]⟩
      · rw [write_of_other _ hseen hactive hown] at h
        simp at h
    · have hexpired : call.expired r = true := decide_eq_true ⟨hkey, not_lt.mp hactive⟩
      rw [write_of_expired _ hseen hactive, takeOver_of_row hkeys hmem hexpired] at h
      obtain ⟨hlease, rfl⟩ := Prod.mk.inj h
      injection hlease with hlease
      subst hlease
      rw [row_map (fun r' => by split <;> rfl), hrow, Option.map_some, if_pos hexpired]
      exact ⟨_, rfl, rfl, rfl, by simp [AcquireCall.lease, taken, hseen, hactive]⟩

/-- A granted lease is current for as long as it is held, whatever comes in between, exactly when the
acquire has not extended a row that was taken over before. -/
theorem granted_current_iff {st : LeaseState ι} (hs : st.Started) {past : List (LeaseTurn ι)} {i : ι} {ownerId : String}
    {ttlSeconds now : ℚ} {rowId : Nat} {lease : Lease}
    (hp : Along leaseStep (fun st turn => turn.Proper st) st
      (past ++ [.select i leaseKey ownerId ttlSeconds now token, .write i rowId]))
    (hgranted : (LeaseManager.acquire leaseKey ownerId ttlSeconds now token rowId (run leaseStep st past).table).1 =
      .granted lease) :
    let granted := run leaseStep st (past ++ [.select i leaseKey ownerId ttlSeconds now token, .write i rowId])
    ((∀ now', now' < lease.expiresAt →
        LeaseManager.isCurrent leaseKey lease.token now' granted.table lease.fenceGeneration = true) ∧
      ∀ future, Along leaseStep (fun st turn => turn.Proper st ∧ turn.ends leaseKey lease.token st = false) granted future →
        Visits leaseStep (CurrentWhileHeld leaseKey lease) granted future) ↔
      ∀ held, row RuntimeLease.leaseKey leaseKey (run leaseStep st past).table = some held → now < held.expiresAt →
        held.fenceGeneration = 1 := by
  intro granted
  have hinv : ∀ (st : LeaseState ι) (turn : LeaseTurn ι), LeaseInv st → turn.Proper st → LeaseInv (leaseStep st turn) :=
    fun _ _ inv hturn => inv.step hturn
  have inv : LeaseInv granted := run_invariant hinv hs.inv hp
  obtain ⟨hpast, hselect, -⟩ := (along_append st past _).mp hp
  have before : LeaseInv (run leaseStep st past) := run_invariant hinv hs.inv hpast
  have htable : (LeaseManager.acquire leaseKey ownerId ttlSeconds now token rowId (run leaseStep st past).table).2 =
      granted.table := by
    simp [granted, run_append, leaseStep, LeaseManager.acquire]
  have hfresh : token ∉ (run leaseStep st past).table.map RuntimeLease.token := by
    intro hmem
    obtain ⟨r, hr, rfl⟩ := List.mem_map.mp hmem
    exact hselect.2 (before.spent r hr).minted
  obtain ⟨r, hrow, htoken, hexpires, hiff⟩ := AcquireCall.granted_row before.keys hfresh rfl
    (Prod.ext hgranted htable)
  rw [← hiff]
  constructor
  · rintro ⟨hmoment, -⟩
    have hnow : r.expiresAt - 1 < r.expiresAt := sub_one_lt r.expiresAt
    exact (isCurrent_of_row inv.keys hrow htoken hnow _).mp (hmoment _ (hexpires ▸ hnow))
  · intro hgeneration
    refine ⟨fun now' hnow' => (isCurrent_of_row inv.keys hrow htoken (hexpires ▸ hnow') _).mpr hgeneration, ?_⟩
    intro future hfuture
    have hholder : holder leaseKey granted.table = some (lease.token, lease.fenceGeneration) := by
      rw [holder, hrow, Option.map_some, htoken, hgeneration]
    have hstep : ∀ (st : LeaseState ι) (turn : LeaseTurn ι),
        (LeaseInv st ∧ holder leaseKey st.table = some (lease.token, lease.fenceGeneration)) →
        (turn.Proper st ∧ turn.ends leaseKey lease.token st = false) →
        LeaseInv (leaseStep st turn) ∧
          holder leaseKey (leaseStep st turn).table = some (lease.token, lease.fenceGeneration) :=
      fun _ _ h hturn => ⟨h.1.step hturn.1, holder_leaseStep h.1 h.2 hturn.2⟩
    exact (visits_of_along hstep ⟨inv, hholder⟩ hfuture).mono (fun _ h => currentWhileHeld_of_holder h.1 h.2)

/-- A takeover, and the renewals and another acquire that come after it. -/
theorem granted_current_takeover :
    let past : List (LeaseTurn Bool) := [.select false "run" "a" 30 0 "t1", .write false 1, .tick 31]
    let granted := run leaseStep (LeaseState.empty Bool) (past ++ [.select true "run" "b" 30 31 "t2", .write true 2])
    (∀ now, now < 61 → LeaseManager.isCurrent "run" "t2" now granted.table 2 = true) ∧
      ∀ future, Along leaseStep (fun st turn => turn.Proper st ∧ turn.ends "run" "t2" st = false) granted future →
        Visits leaseStep (CurrentWhileHeld "run" ⟨"run", "b", "t2", 61, 2⟩) granted future := by
  intro past granted
  have hproper : Along leaseStep (fun st turn => turn.Proper st) (LeaseState.empty Bool)
      (past ++ [.select true "run" "b" 30 31 "t2", .write true 2]) := by decide +kernel
  have hgranted : (LeaseManager.acquire "run" "b" 30 31 "t2" 2 (run leaseStep (LeaseState.empty Bool) past).table).1 =
      .granted ⟨"run", "b", "t2", 61, 2⟩ := by decide +kernel
  exact (granted_current_iff (LeaseState.empty_started Bool) hproper hgranted).mpr (by decide +kernel)

/-- The process that took the lease over acquires it again: it is granted generation 1 of a row that is at
2, and the lease is not current. -/
theorem extended_not_current :
    let past : List (LeaseTurn Bool) := [.select false "run" "a" 30 0 "t1", .write false 1, .tick 31,
      .select true "run" "b" 30 31 "t2", .write true 2]
    let st := run leaseStep (LeaseState.empty Bool) past
    let lease : Lease := ⟨"run", "b", "t2", 61, 1⟩
    Along leaseStep (fun st turn => turn.Proper st) (LeaseState.empty Bool) past ∧
      (LeaseManager.acquire "run" "b" 30 31 "t3" 3 st.table).1 = .granted lease ∧
      LeaseManager.isHeld "run" 31 (LeaseManager.acquire "run" "b" 30 31 "t3" 3 st.table).2 (some lease.token) = true ∧
      LeaseManager.isCurrent "run" lease.token 31 (LeaseManager.acquire "run" "b" 30 31 "t3" 3 st.table).2
        lease.fenceGeneration = false := by
  decide +kernel

end Grant

end CryptoTrader
