import CryptoTrader.Runtime.Lease

/-!
# Fencing generations

The calls of the lease manager on one key, one after the other, with the history of the
leases that were granted. The generation lives in the row: a takeover counts it up, a release
deletes it.
-/

namespace CryptoTrader

open KeyedTable Runs

/-- `acquire` with nothing between the select and the write. -/
def LeaseManager.acquire (leaseKey ownerId : String) (ttlSeconds now : ℚ) (token : String) (rowId : Nat)
    (table : LeaseTable) : AcquireResult × LeaseTable :=
  let seen := row RuntimeLease.leaseKey leaseKey table
  AcquireCall.write { leaseKey, ownerId, ttlSeconds, now, token, seen } rowId table

def AcquireResult.lease? : AcquireResult → Option Lease
  | granted lease => some lease
  | _ => none

/-- `granted` has the newest lease first. -/
structure FenceState where
  table : LeaseTable
  clock : ℚ
  minted : List String
  granted : List Lease

inductive LeaseCall where
  | tick (elapsed : ℚ)
  | acquire (ownerId : String) (ttlSeconds : ℚ) (token : String) (rowId : Nat)
  | renew (token : String) (ttlSeconds : ℚ)
  | release (token : String)

section Calls

variable (leaseKey : String)

def fenceStep (st : FenceState) : LeaseCall → FenceState
  | .tick elapsed => { st with clock := st.clock + elapsed }
  | .acquire ownerId ttlSeconds token rowId =>
    let (result, table) := LeaseManager.acquire leaseKey ownerId ttlSeconds st.clock token rowId st.table
    { st with table, minted := token :: st.minted, granted := result.lease?.toList ++ st.granted }
  | .renew token ttlSeconds =>
    { st with table := (LeaseManager.renew leaseKey token ttlSeconds st.clock st.table).2 }
  | .release token => { st with table := (LeaseManager.release leaseKey token st.table).2 }

def LeaseCall.Proper (st : FenceState) : LeaseCall → Prop
  | .tick elapsed => 0 ≤ elapsed
  | .acquire _ _ token rowId => token ∉ st.minted ∧ rowId ∉ st.table.map RuntimeLease.id
  | _ => True

/-- A lease with a new token has a greater generation than every lease before it. -/
def Increasing : List Lease → Prop
  | [] => True
  | lease :: earlier =>
    (lease.token ∉ earlier.map Lease.token → ∀ e ∈ earlier, e.fenceGeneration < lease.fenceGeneration) ∧
      Increasing earlier

instance decidableIncreasing : DecidablePred Increasing
  | [] => inferInstanceAs (Decidable True)
  | lease :: earlier =>
    have : Decidable (Increasing earlier) := decidableIncreasing earlier
    inferInstanceAs (Decidable ((lease.token ∉ earlier.map Lease.token →
      ∀ e ∈ earlier, e.fenceGeneration < lease.fenceGeneration) ∧ Increasing earlier))

/-- An acquire that finds no row of the key is the first that is granted. -/
def LeaseCall.FirstRow (st : FenceState) : LeaseCall → Prop
  | .acquire .. => row RuntimeLease.leaseKey leaseKey st.table = none → st.granted = []
  | _ => True

/-- The token and the generation in the row of the key. -/
def holder (table : LeaseTable) : Option (String × Nat) :=
  (row RuntimeLease.leaseKey leaseKey table).map (fun r => (r.token, r.fenceGeneration))

variable {leaseKey}

lemma holder_map {f : RuntimeLease → RuntimeLease} (hkey : ∀ r, (f r).leaseKey = r.leaseKey)
    (hf : ∀ r, ((f r).token, (f r).fenceGeneration) = (r.token, r.fenceGeneration)) (table : LeaseTable) :
    holder leaseKey (table.map f) = holder leaseKey table := by
  unfold holder
  rw [row_map hkey, Option.map_map]
  congr 1
  funext r
  exact hf r

/-- An acquire is refused, or grants: a first row with generation 1, the row's own token, or
a takeover with the generation after the row's. -/
lemma acquire_cases {table table' : LeaseTable} {token ownerId : String} {ttlSeconds now : ℚ} {rowId : Nat}
    {result : AcquireResult} (hkeys : (table.map RuntimeLease.leaseKey).Nodup)
    (hfresh : token ∉ table.map RuntimeLease.token)
    (h : LeaseManager.acquire leaseKey ownerId ttlSeconds now token rowId table = (result, table')) :
    (row RuntimeLease.leaseKey leaseKey table = none ∧ holder leaseKey table' = some (token, 1) ∧
      ∃ lease, result.lease? = some lease ∧ lease.token = token ∧ lease.fenceGeneration = 1) ∨
    ∃ held generation, holder leaseKey table = some (held, generation) ∧
      ((result.lease? = none ∧ holder leaseKey table' = some (held, generation)) ∨
      (holder leaseKey table' = some (held, generation) ∧
        ∃ lease, result.lease? = some lease ∧ lease.token = held ∧ lease.fenceGeneration = 1) ∨
      (holder leaseKey table' = some (token, generation + 1) ∧
        ∃ lease, result.lease? = some lease ∧ lease.token = token ∧ lease.fenceGeneration = generation + 1)) := by
  unfold LeaseManager.acquire at h
  cases hrow : row RuntimeLease.leaseKey leaseKey table with
  | none =>
    have hkey : leaseKey ∉ table.map RuntimeLease.leaseKey := row_eq_none_iff.mp hrow
    rw [AcquireCall.write_of_none _ hrow, AcquireCall.insert, if_neg (not_or.mpr ⟨hkey, hfresh⟩)] at h
    obtain ⟨rfl, rfl⟩ := Prod.mk.inj h
    refine .inl ⟨rfl, ?_, _, rfl, rfl, rfl⟩
    unfold holder
    rw [row_append_of_none hrow]
    simp [row, AcquireCall.freshRow]
  | some r =>
    obtain ⟨hmem, hkey⟩ := row_some hrow
    have hholder : holder leaseKey table = some (r.token, r.fenceGeneration) := by simp [holder, hrow]
    refine .inr ⟨r.token, r.fenceGeneration, hholder, ?_⟩
    by_cases hactive : now < r.expiresAt
    · by_cases hown : r.ownerId = ownerId ∧ r.token ≠ ""
      · have hid : r.id ∈ table.map RuntimeLease.id := List.mem_map_of_mem hmem
        rw [AcquireCall.write_of_own _ hrow hactive hown, AcquireCall.extend, if_pos hid] at h
        obtain ⟨rfl, rfl⟩ := Prod.mk.inj h
        refine .inr (.inl ⟨?_, _, rfl, rfl, rfl⟩)
        rw [holder_map (fun r' => by split <;> rfl) (fun r' => by split <;> rfl), hholder]
      · rw [AcquireCall.write_of_other _ hrow hactive hown] at h
        obtain ⟨rfl, rfl⟩ := Prod.mk.inj h
        exact .inl ⟨rfl, hholder⟩
    · have hexpired : r.leaseKey = leaseKey ∧ r.expiresAt ≤ now := ⟨hkey, not_lt.mp hactive⟩
      rw [AcquireCall.write_of_expired _ hrow hactive,
        AcquireCall.takeOver_of_row hkeys hmem (decide_eq_true hexpired)] at h
      obtain ⟨rfl, rfl⟩ := Prod.mk.inj h
      refine .inr (.inr ⟨?_, _, rfl, rfl, rfl⟩)
      unfold holder
      rw [row_map (fun r' => by split <;> rfl), hrow]
      simp [AcquireCall.expired, AcquireCall.taken, hexpired]

lemma holder_renew (key token : String) (ttlSeconds now : ℚ) (table : LeaseTable) :
    holder leaseKey (LeaseManager.renew key token ttlSeconds now table).2 = holder leaseKey table :=
  holder_map (fun r => by split <;> rfl) (fun r => by split <;> rfl) table

lemma holder_release {table : LeaseTable} (hkeys : (table.map RuntimeLease.leaseKey).Nodup) {token : String}
    {holding : String × Nat} (h : holder leaseKey (LeaseManager.release leaseKey token table).2 = some holding) :
    holder leaseKey table = some holding := by
  unfold holder LeaseManager.release at h
  rw [row_filter hkeys] at h
  unfold holder
  obtain ⟨r, hr, rfl⟩ := Option.map_eq_some_iff.mp h
  rw [(Option.filter_eq_some_iff.mp hr).1]
  rfl

/-! ### The invariant -/

variable (leaseKey) in
/-- The row of the key has the generation of the last lease with a new token. -/
structure FenceInv (st : FenceState) : Prop where
  keys : (st.table.map RuntimeLease.leaseKey).Nodup
  rows : ∀ r ∈ st.table, r.token ∈ st.minted
  granted : ∀ l ∈ st.granted, l.token ∈ st.minted ∧ 1 ≤ l.fenceGeneration
  holder : ∀ token generation, holder leaseKey st.table = some (token, generation) →
    1 ≤ generation ∧ token ∈ st.granted.map Lease.token ∧ ∀ l ∈ st.granted, l.fenceGeneration ≤ generation
  increasing : Increasing st.granted

lemma FenceInv.fresh {st : FenceState} (inv : FenceInv leaseKey st) {token : String} (h : token ∉ st.minted) :
    token ∉ st.table.map RuntimeLease.token := by
  intro hmem
  obtain ⟨r, hr, rfl⟩ := List.mem_map.mp hmem
  exact h (inv.rows r hr)

lemma FenceInv.unseen {st : FenceState} (inv : FenceInv leaseKey st) {token : String} (h : token ∉ st.minted) :
    token ∉ st.granted.map Lease.token := by
  intro hmem
  obtain ⟨l, hl, rfl⟩ := List.mem_map.mp hmem
  exact h (inv.granted l hl).1

lemma FenceInv.grant {st : FenceState} (inv : FenceInv leaseKey st) {table : LeaseTable} {token : String} {lease : Lease}
    (hkeys : (table.map RuntimeLease.leaseKey).Nodup) (hrows : ∀ r ∈ table, r.token ∈ token :: st.minted)
    (hlease : lease.token ∈ token :: st.minted ∧ 1 ≤ lease.fenceGeneration) {held : String} {generation : Nat}
    (hholder : CryptoTrader.holder leaseKey table = some (held, generation))
    (hheld : held ∈ (lease :: st.granted).map Lease.token)
    (hle : ∀ l ∈ lease :: st.granted, l.fenceGeneration ≤ generation)
    (hnew : lease.token ∉ st.granted.map Lease.token → ∀ l ∈ st.granted, l.fenceGeneration < lease.fenceGeneration) :
    FenceInv leaseKey { st with table, minted := token :: st.minted, granted := lease :: st.granted } where
  keys := hkeys
  rows := hrows
  granted := by
    intro l hl
    rcases List.mem_cons.mp hl with rfl | hl
    · exact hlease
    · exact ⟨List.mem_cons_of_mem _ (inv.granted l hl).1, (inv.granted l hl).2⟩
  holder := by
    intro token' generation' h
    rw [hholder] at h
    injection h with h
    obtain ⟨rfl, rfl⟩ := Prod.mk.inj h
    exact ⟨hlease.2.trans (hle lease List.mem_cons_self), hheld, hle⟩
  increasing := ⟨hnew, inv.increasing⟩

lemma FenceInv.acquire_table {st : FenceState} (inv : FenceInv leaseKey st) {ownerId token : String}
    {ttlSeconds : ℚ} {rowId : Nat} {result : AcquireResult} {table : LeaseTable}
    (h : LeaseManager.acquire leaseKey ownerId ttlSeconds st.clock token rowId st.table = (result, table)) :
    (table.map RuntimeLease.leaseKey).Nodup ∧ ∀ r ∈ table, r.token ∈ token :: st.minted := by
  have htable : table = (LeaseManager.acquire leaseKey ownerId ttlSeconds st.clock token rowId st.table).2 := by rw [h]
  subst htable
  refine ⟨AcquireCall.nodup_write _ rowId inv.keys, fun r hr => ?_⟩
  rcases AcquireCall.mem_write hr with ⟨r', hr', -, htoken⟩ | ⟨-, htoken⟩
  · exact List.mem_cons_of_mem _ (htoken ▸ inv.rows r' hr')
  · exact htoken ▸ List.mem_cons_self

lemma FenceInv.step_acquire {st : FenceState} (inv : FenceInv leaseKey st) {ownerId token : String} {ttlSeconds : ℚ}
    {rowId : Nat} (hp : LeaseCall.Proper st (.acquire ownerId ttlSeconds token rowId))
    (hc : LeaseCall.FirstRow leaseKey st (.acquire ownerId ttlSeconds token rowId)) :
    FenceInv leaseKey (fenceStep leaseKey st (.acquire ownerId ttlSeconds token rowId)) := by
  cases hacquire : LeaseManager.acquire leaseKey ownerId ttlSeconds st.clock token rowId st.table with
  | mk result table =>
  obtain ⟨hkeys, hrows⟩ := inv.acquire_table hacquire
  simp only [fenceStep, hacquire]
  rcases acquire_cases inv.keys (inv.fresh hp.1) hacquire with
    ⟨hrow, hholder, lease, hlease, rfl, hone⟩ | ⟨held, generation, hbefore, hcases⟩
  · have hnone : st.granted = [] := hc hrow
    rw [hlease]
    refine inv.grant hkeys hrows ⟨List.mem_cons_self, hone.ge⟩ hholder (by simp) ?_ ?_
    · simp [hnone, hone]
    · simp [hnone]
  · obtain ⟨hpos, hheld, hle⟩ := inv.holder held generation hbefore
    rcases hcases with ⟨hlease, hholder⟩ | ⟨hholder, lease, hlease, rfl, hone⟩ | ⟨hholder, lease, hlease, rfl, hnext⟩
    · rw [hlease]
      exact {
        keys := hkeys
        rows := hrows
        granted := fun l hl => ⟨List.mem_cons_of_mem _ (inv.granted l hl).1, (inv.granted l hl).2⟩
        holder := fun token generation h => inv.holder token generation (by rw [hbefore, ← hholder, h])
        increasing := inv.increasing }
    · rw [hlease]
      obtain ⟨l, hl, htoken⟩ := List.mem_map.mp hheld
      refine inv.grant hkeys hrows ⟨?_, hone.ge⟩ hholder (by simp) ?_ (fun h => absurd hheld h)
      · exact List.mem_cons_of_mem _ (htoken ▸ (inv.granted l hl).1)
      · simpa [hone] using ⟨hpos, hle⟩
    · rw [hlease]
      refine inv.grant hkeys hrows ⟨List.mem_cons_self, by omega⟩ hholder (by simp) ?_ ?_
      · intro l hl
        rcases List.mem_cons.mp hl with rfl | hl
        · exact hnext.le
        · exact (hle l hl).trans (Nat.le_succ _)
      · intro _ l hl
        have hbefore : l.fenceGeneration ≤ generation := hle l hl
        omega

theorem FenceInv.step {st : FenceState} (inv : FenceInv leaseKey st) {call : LeaseCall} (hp : call.Proper st)
    (hc : call.FirstRow leaseKey st) : FenceInv leaseKey (fenceStep leaseKey st call) := by
  cases call with
  | tick elapsed => exact ⟨inv.keys, inv.rows, inv.granted, inv.holder, inv.increasing⟩
  | acquire ownerId ttlSeconds token rowId => exact inv.step_acquire hp hc
  | renew token ttlSeconds =>
    refine ⟨nodup_updateOne inv.keys _ _ (fun _ => rfl), ?_, inv.granted, ?_, inv.increasing⟩
    · intro r hr
      obtain ⟨r', hr', rfl⟩ := List.mem_map.mp hr
      have htoken : r'.token ∈ st.minted := inv.rows r' hr'
      split <;> exact htoken
    · intro token' generation h
      exact inv.holder token' generation ((holder_renew leaseKey token ttlSeconds st.clock st.table).symm.trans h)
  | release token =>
    exact ⟨nodup_filter inv.keys _, fun r hr => inv.rows r (List.mem_filter.mp hr).1, inv.granted,
      fun token' generation h => inv.holder token' generation (holder_release inv.keys h), inv.increasing⟩

/-- A first row has generation 1, so nothing may have been granted before it. -/
lemma FenceInv.firstRow {st : FenceState} (inv : FenceInv leaseKey st) {call : LeaseCall} (hp : call.Proper st)
    (h : Increasing (fenceStep leaseKey st call).granted) : call.FirstRow leaseKey st := by
  cases call with
  | tick elapsed => trivial
  | renew token ttlSeconds => trivial
  | release token => trivial
  | acquire ownerId ttlSeconds token rowId =>
    intro hrow
    cases hacquire : LeaseManager.acquire leaseKey ownerId ttlSeconds st.clock token rowId st.table with
    | mk result table =>
    simp only [fenceStep, hacquire] at h
    rcases acquire_cases inv.keys (inv.fresh hp.1) hacquire with
      ⟨-, -, lease, hlease, rfl, hone⟩ | ⟨held, generation, hbefore, -⟩
    · rw [hlease] at h
      refine List.eq_nil_iff_forall_not_mem.mpr (fun l hl => ?_)
      have hless : l.fenceGeneration < lease.fenceGeneration := h.1 (inv.unseen hp.1) l hl
      have hpos : 1 ≤ l.fenceGeneration := (inv.granted l hl).2
      omega
    · simp [CryptoTrader.holder, hrow] at hbefore

variable (leaseKey) in
/-- A table with unique keys and no row of the key, before the first grant. -/
structure FenceState.Started (st : FenceState) : Prop where
  keys : (st.table.map RuntimeLease.leaseKey).Nodup
  rows : ∀ r ∈ st.table, r.token ∈ st.minted
  absent : row RuntimeLease.leaseKey leaseKey st.table = none
  granted : st.granted = []

lemma FenceState.Started.inv {st : FenceState} (h : st.Started leaseKey) : FenceInv leaseKey st where
  keys := h.keys
  rows := h.rows
  granted := by simp [h.granted]
  holder := by simp [CryptoTrader.holder, h.absent]
  increasing := by
    rw [h.granted]
    trivial

/-- The generations of new holders increase exactly as long as no acquire comes upon a
released row. -/
theorem generations_increase_iff {st : FenceState} (hs : st.Started leaseKey) {calls : List LeaseCall}
    (hp : Along (fenceStep leaseKey) (fun st call => call.Proper st) st calls) :
    Visits (fenceStep leaseKey) (fun st => Increasing st.granted) st calls ↔
      Along (fenceStep leaseKey) (fun st call => call.FirstRow leaseKey st) st calls :=
  visits_iff_along (fun _ inv => inv.increasing) (fun _ _ inv hturn hc => inv.step hturn hc)
    (fun _ _ inv hturn h => inv.firstRow hturn h) hs.inv hp

instance decidableCallProper (st : FenceState) : ∀ call : LeaseCall, Decidable (call.Proper st)
  | .tick elapsed => inferInstanceAs (Decidable (0 ≤ elapsed))
  | .acquire _ _ token rowId => inferInstanceAs (Decidable (token ∉ st.minted ∧ rowId ∉ st.table.map RuntimeLease.id))
  | .renew _ _ => inferInstanceAs (Decidable True)
  | .release _ => inferInstanceAs (Decidable True)

instance decidableFirstRow (st : FenceState) : ∀ call : LeaseCall, Decidable (call.FirstRow leaseKey st)
  | .acquire .. => inferInstanceAs (Decidable (row RuntimeLease.leaseKey leaseKey st.table = none → st.granted = []))
  | .tick _ => inferInstanceAs (Decidable True)
  | .renew _ _ => inferInstanceAs (Decidable True)
  | .release _ => inferInstanceAs (Decidable True)

end Calls

def FenceState.empty : FenceState where
  table := []
  clock := 0
  minted := []
  granted := []

lemma FenceState.empty_started (leaseKey : String) : FenceState.empty.Started leaseKey := by
  constructor <;> simp [empty, row]

theorem generations_increase_takeover :
    Visits (fenceStep "run") (fun st => Increasing st.granted) .empty
      [.acquire "a" 30 "t1" 1, .tick 31, .acquire "b" 30 "t2" 2] :=
  (generations_increase_iff (FenceState.empty_started "run") (by decide +kernel)).mpr (by decide +kernel)

/-- After a release the next holder has the generation of the first. -/
theorem generation_restarts :
    ¬Visits (fenceStep "run") (fun st => Increasing st.granted) .empty
      [.acquire "a" 30 "t1" 1, .release "t1", .acquire "b" 30 "t2" 2] :=
  fun h => absurd h.last (by decide +kernel)

end CryptoTrader
