import CryptoTrader.Domain.Enums
import CryptoTrader.Runtime.Lease
import Mathlib.Data.Fintype.Basic

/-!
# Supervisors on one database

`runtime/supervisor.py`: any number of processes, each with a `TradingRuntimeSupervisor` as
`build_system` makes it. They share the owner and the key of the execution lease.
-/

namespace CryptoTrader

open KeyedTable Runs

structure TradingRuntimeSupervisor where
  runtimeState : RuntimeState := .stopped
  lease : Option Lease := none
  leaseValid : Bool := false
  /-- The loops run. -/
  looping : Bool := false
  /-- `stop` has cancelled the loops and comes to the release. -/
  releasing : Bool := false
  deriving DecidableEq, Repr

namespace TradingRuntimeSupervisor

def leaseKey : String := "crypto_engine_execution"
def ownerId : String := "crypto-trading-primary"
def ttlSeconds : ℚ := 30

variable (self : TradingRuntimeSupervisor)

/-- `start` after the acquire. A conflict calls `acquire` again, a stale row raises. -/
def started : AcquireResult → TradingRuntimeSupervisor
  | .granted lease => { self with lease := some lease, runtimeState := .running, looping := true }
  | .refused => { self with lease := none, runtimeState := .halted }
  | .conflict => self
  | .stale => self

/-- What the execution loop asks before its callback. -/
def isCurrent (now : ℚ) (table : LeaseTable) : Bool :=
  match self.lease with
  | none => false
  | some lease => LeaseManager.isCurrent leaseKey lease.token now table lease.fenceGeneration

def engaged : Bool :=
  self.looping || self.releasing

end TradingRuntimeSupervisor

structure SupervisorState (ι : Type) where
  leases : LeaseState ι
  procs : ι → TradingRuntimeSupervisor

inductive SupervisorTurn (ι : Type) where
  | tick (elapsed : ℚ)
  | startSelect (p : ι) (now : ℚ) (token : String)
  | startWrite (p : ι) (rowId : Nat)
  | leaseRenew (p : ι) (now : ℚ)
  | execution (p : ι) (now : ℚ)
  | stopCancel (p : ι)
  | stopRelease (p : ι)
  | crash (p : ι)

section Steps

open TradingRuntimeSupervisor (leaseKey ownerId ttlSeconds)

variable {ι : Type} [DecidableEq ι]

/-- What a step does in the database. -/
def SupervisorTurn.statement (st : SupervisorState ι) : SupervisorTurn ι → Option (LeaseTurn ι)
  | tick elapsed => some (.tick elapsed)
  | startSelect p now token =>
    if (st.procs p).runtimeState = .running then none else some (.select p leaseKey ownerId ttlSeconds now token)
  | startWrite p rowId => some (.write p rowId)
  | leaseRenew p now =>
    if (st.procs p).looping then (st.procs p).lease.map (fun l => .renew leaseKey l.token ttlSeconds now) else none
  | execution _ _ => none
  | stopCancel _ => none
  | stopRelease p =>
    if (st.procs p).releasing then (st.procs p).lease.map (fun l => .release leaseKey l.token) else none
  | crash p => some (.crash p)

/-- The process a step belongs to. -/
def SupervisorTurn.process : SupervisorTurn ι → Option ι
  | tick _ => none
  | startSelect p _ _ => some p
  | startWrite p _ => some p
  | leaseRenew p _ => some p
  | execution p _ => some p
  | stopCancel p => some p
  | stopRelease p => some p
  | crash p => some p

/-- What a step does in its process. -/
def SupervisorTurn.local (leases : LeaseState ι) (self : TradingRuntimeSupervisor) :
    SupervisorTurn ι → TradingRuntimeSupervisor
  | tick _ => self
  | startSelect _ _ _ => self
  | startWrite p rowId =>
    match leases.calls p with
    | none => self
    | some call => self.started (call.write rowId leases.table).1
  | leaseRenew _ now =>
    match self.lease with
    | none => self
    | some l =>
      if self.looping ∧ ¬(LeaseManager.renew leaseKey l.token ttlSeconds now leases.table).1 then
        { self with runtimeState := .halted }
      else self
  | execution _ now => if self.looping then { self with leaseValid := self.isCurrent now leases.table } else self
  | stopCancel _ => { self with looping := false, releasing := true }
  | stopRelease _ => if self.releasing then { self with releasing := false, runtimeState := .stopped } else self
  | crash _ => {}

def supervisorStep (st : SupervisorState ι) (turn : SupervisorTurn ι) : SupervisorState ι where
  leases := leaseStep? st.leases (turn.statement st)
  procs :=
    match turn.process with
    | none => st.procs
    | some p => Function.update st.procs p (turn.local st.leases (st.procs p))

def SupervisorTurn.Proper (st : SupervisorState ι) (turn : SupervisorTurn ι) : Prop :=
  ∀ t ∈ turn.statement st, t.Proper st.leases

/-- An acquire that extends a row is the only one with the token of the row, except for
processes that have stopped. -/
def SupervisorTurn.SoleExtension (st : SupervisorState ι) : SupervisorTurn ι → Prop
  | startWrite p _ => ∀ call ∈ st.leases.calls p, ∀ row ∈ call.extended, ∀ q, q ≠ p → (st.procs q).engaged →
      ∀ l ∈ (st.procs q).lease, l.token ≠ row.token
  | _ => True

/-- At most one process runs whose execution loop finds its lease current, at whatever time it
reads. -/
def OneWriter (st : SupervisorState ι) : Prop :=
  ∀ p q now now', (st.procs p).looping → (st.procs p).isCurrent now st.leases.table →
    (st.procs q).looping → (st.procs q).isCurrent now' st.leases.table → p = q

/-- The release of a stop leaves the lease row of every other running process. -/
def SupervisorTurn.Spares (st : SupervisorState ι) (turn : SupervisorTurn ι) : Prop :=
  ∀ p, turn = .stopRelease p → ∀ q, q ≠ p → (st.procs q).looping → ∀ l ∈ (st.procs q).lease,
    LeaseManager.rowOf leaseKey l.token (supervisorStep st turn).leases.table =
      LeaseManager.rowOf leaseKey l.token st.leases.table

/-! ### The invariant -/

/-- Two processes have one token only once its row is gone, and a process that has ended has
no row. -/
structure SupervisorInv (st : SupervisorState ι) : Prop where
  leases : LeaseInv st.leases
  spent : ∀ p l, (st.procs p).lease = some l → Spent st.leases l.token
  apart : ∀ p q l l', (st.procs p).lease = some l → (st.procs q).lease = some l' → l.token = l'.token →
    p = q ∨ Gone leaseKey l.token st.leases
  ended : ∀ p l, (st.procs p).lease = some l → (st.procs p).engaged = false → Gone leaseKey l.token st.leases

lemma keeps_supervisorStep {P : LeaseState ι → Prop} {st : SupervisorState ι} {turn : SupervisorTurn ι}
    (hp : turn.Proper st) (h : P st.leases)
    (hstep : ∀ t : LeaseTurn ι, t.Proper st.leases → P (leaseStep st.leases t)) :
    P (supervisorStep st turn).leases :=
  leaseStep?_keeps h hstep hp

omit [DecidableEq ι] in
/-- A lease in a process after its step was there before, or an acquire was granted it. -/
lemma lease_local {leases : LeaseState ι} {self : TradingRuntimeSupervisor} {turn : SupervisorTurn ι} {p : ι}
    {l : Lease} (hturn : turn.process = some p) (h : (turn.local leases self).lease = some l) :
    (self.lease = some l ∧ ((turn.local leases self).engaged = false →
        self.engaged = false ∨ turn = .stopRelease p ∧ self.releasing)) ∨
      ∃ rowId call, turn = .startWrite p rowId ∧ leases.calls p = some call ∧
        (call.write rowId leases.table).1 = .granted l ∧ (turn.local leases self).engaged := by
  cases turn with
  | tick elapsed => contradiction
  | startSelect q now token => exact .inl ⟨h, .inl⟩
  | startWrite q rowId =>
    obtain rfl : q = p := Option.some.inj hturn
    simp only [SupervisorTurn.local] at h ⊢
    cases hcall : leases.calls q with
    | none =>
      simp only [hcall] at h
      exact .inl ⟨h, .inl⟩
    | some call =>
      simp only [hcall] at h ⊢
      cases hresult : (call.write rowId leases.table).1 with
      | granted lease =>
        rw [hresult] at h
        obtain rfl : lease = l := Option.some.inj h
        exact .inr ⟨rowId, call, rfl, rfl, hresult, rfl⟩
      | refused =>
        rw [hresult] at h
        contradiction
      | conflict =>
        rw [hresult] at h
        exact .inl ⟨h, .inl⟩
      | stale =>
        rw [hresult] at h
        exact .inl ⟨h, .inl⟩
  | leaseRenew q now =>
    simp only [SupervisorTurn.local] at h ⊢
    split at h
    · exact .inl ⟨h, .inl⟩
    · split at h
      · rw [if_pos ‹_›]
        exact .inl ⟨h, .inl⟩
      · rw [if_neg ‹_›]
        exact .inl ⟨h, .inl⟩
  | execution q now =>
    simp only [SupervisorTurn.local] at h ⊢
    split at h
    · rw [if_pos ‹_›]
      exact .inl ⟨h, .inl⟩
    · rw [if_neg ‹_›]
      exact .inl ⟨h, .inl⟩
  | stopCancel q => exact .inl ⟨h, fun hengaged => by simp [SupervisorTurn.local, TradingRuntimeSupervisor.engaged] at hengaged⟩
  | stopRelease q =>
    obtain rfl : q = p := Option.some.inj hturn
    simp only [SupervisorTurn.local] at h ⊢
    split at h
    · exact .inl ⟨h, fun _ => .inr ⟨trivial, ‹_›⟩⟩
    · rw [if_neg ‹_›]
      exact .inl ⟨h, .inl⟩
  | crash q => contradiction

lemma lease_supervisorStep {st : SupervisorState ι} {turn : SupervisorTurn ι} {p : ι} {l : Lease}
    (h : ((supervisorStep st turn).procs p).lease = some l) :
    ((st.procs p).lease = some l ∧ (((supervisorStep st turn).procs p).engaged = false →
        (st.procs p).engaged = false ∨ turn = .stopRelease p ∧ (st.procs p).releasing)) ∨
      ∃ rowId call, turn = .startWrite p rowId ∧ st.leases.calls p = some call ∧
        (call.write rowId st.leases.table).1 = .granted l ∧ ((supervisorStep st turn).procs p).engaged := by
  simp only [supervisorStep] at h ⊢
  cases hturn : turn.process with
  | none =>
    rw [hturn] at h
    exact .inl ⟨h, .inl⟩
  | some q =>
    simp only [hturn] at h ⊢
    by_cases hpq : p = q
    · subst hpq
      rw [Function.update_self] at h ⊢
      exact lease_local hturn h
    · rw [Function.update_of_ne hpq] at h ⊢
      exact .inl ⟨h, .inl⟩

omit [DecidableEq ι] in
/-- Under the condition a lease that is granted has its token from no other process whose row
is there. -/
lemma SupervisorInv.granted_apart {st : SupervisorState ι} (inv : SupervisorInv st) {p : ι} {rowId : Nat}
    {call : AcquireCall} {l : Lease} (hc : SupervisorTurn.SoleExtension st (.startWrite p rowId))
    (hcall : st.leases.calls p = some call) (hgranted : (call.write rowId st.leases.table).1 = .granted l)
    {q : ι} (hne : q ≠ p) {l' : Lease} (hl' : (st.procs q).lease = some l') (htoken : l'.token = l.token) :
    Gone leaseKey l'.token st.leases := by
  rcases AcquireCall.granted_token rowId hgranted with hnew | ⟨row, hrow, hold⟩
  · exact absurd (hnew.symm.trans htoken.symm) ((inv.spent q l' hl').idle p call hcall)
  · by_cases hengaged : (st.procs q).engaged
    · exact absurd (htoken.trans hold) (hc call hcall row hrow q hne hengaged l' hl')
    · exact inv.ended q l' hl' (by simpa using hengaged)

theorem SupervisorInv.step {st : SupervisorState ι} (inv : SupervisorInv st) {turn : SupervisorTurn ι}
    (hp : turn.Proper st) (hc : turn.SoleExtension st) : SupervisorInv (supervisorStep st turn) where
  leases := keeps_supervisorStep hp inv.leases (fun _ ht => inv.leases.step ht)
  spent := by
    intro p l hl
    rcases lease_supervisorStep hl with ⟨hold, -⟩ | ⟨rowId, call, rfl, hcall, hgranted, -⟩
    · exact keeps_supervisorStep (P := fun st => Spent st l.token) hp (inv.spent p l hold)
        (fun _ ht => (inv.spent p l hold).step ht)
    · exact inv.leases.granted_spent hcall (hp _ rfl) hgranted
  apart := by
    have hgone : ∀ token, Gone leaseKey token st.leases → Gone leaseKey token (supervisorStep st turn).leases :=
      fun token h => keeps_supervisorStep hp h (fun _ ht => h.step ht)
    intro p q l l' hl hl' htoken
    by_cases hpq : p = q
    · exact .inl hpq
    refine .inr (hgone _ ?_)
    rcases lease_supervisorStep hl with ⟨hold, -⟩ | ⟨rowId, call, rfl, hcall, hgranted, -⟩ <;>
      rcases lease_supervisorStep hl' with ⟨hold', -⟩ | ⟨rowId', call', hturn, hcall', hgranted', -⟩
    · exact (inv.apart p q l l' hold hold' htoken).resolve_left hpq
    · subst hturn
      exact inv.granted_apart hc hcall' hgranted' hpq hold htoken
    · exact htoken ▸ inv.granted_apart hc hcall hgranted (Ne.symm hpq) hold' htoken.symm
    · injection hturn with hqp
      exact absurd hqp hpq
  ended := by
    intro p l hl hengaged
    rcases lease_supervisorStep hl with ⟨hold, hbefore⟩ | ⟨rowId, call, -, -, -, hnow⟩
    · rcases hbefore hengaged with hended | ⟨rfl, hreleasing⟩
      · have h := inv.ended p l hold hended
        exact keeps_supervisorStep hp h (fun _ ht => h.step ht)
      · refine ⟨?_, ?_⟩
        · exact keeps_supervisorStep (P := fun st => Spent st l.token) hp (inv.spent p l hold)
            (fun _ ht => (inv.spent p l hold).step ht)
        · simp only [supervisorStep, SupervisorTurn.statement, if_pos hreleasing, hold]
          exact rowOf_release_self leaseKey l.token st.leases.table
    · rw [hnow] at hengaged
      contradiction

lemma TradingRuntimeSupervisor.row_of_isCurrent {self : TradingRuntimeSupervisor} {now : ℚ} {table : LeaseTable}
    (h : self.isCurrent now table) :
    ∃ l, self.lease = some l ∧ ∃ r ∈ table, r.leaseKey = leaseKey ∧ r.token = l.token := by
  unfold isCurrent at h
  split at h
  · contradiction
  · rename_i l hl
    obtain ⟨r, hr, hkey, htoken, -⟩ := CryptoTrader.row_of_isCurrent h
    exact ⟨l, hl, r, hr, hkey, htoken⟩

omit [DecidableEq ι] in
lemma SupervisorInv.oneWriter {st : SupervisorState ι} (inv : SupervisorInv st) : OneWriter st := by
  intro p q now now' _ hp _ hq
  obtain ⟨l, hl, r, hr, hkey, htoken⟩ := TradingRuntimeSupervisor.row_of_isCurrent hp
  obtain ⟨l', hl', r', hr', hkey', htoken'⟩ := TradingRuntimeSupervisor.row_of_isCurrent hq
  have hrow : r = r' := eq_of_key_eq inv.leases.keys hr hr' (hkey.trans hkey'.symm)
  rcases inv.apart p q l l' hl hl' (by rw [← htoken, hrow, htoken']) with hpq | hgone
  · exact hpq
  · exact absurd ⟨hkey, htoken⟩ (rowOf_eq_none_iff.mp hgone.2 r hr)

lemma SupervisorInv.spares {st : SupervisorState ι} (inv : SupervisorInv st) (turn : SupervisorTurn ι) :
    turn.Spares st := by
  rintro p rfl q hqp - l hl
  simp only [supervisorStep, SupervisorTurn.statement]
  split
  · cases hlp : (st.procs p).lease with
    | none => rfl
    | some lp =>
      change LeaseManager.rowOf _ _ (LeaseManager.release leaseKey lp.token st.leases.table).2 = _
      by_cases htoken : l.token = lp.token
      · rcases inv.apart q p l lp hl hlp htoken with hqp' | hgone
        · exact absurd hqp' hqp
        · rw [hgone.2, htoken]
          exact rowOf_release_self leaseKey lp.token st.leases.table
      · exact rowOf_release_of_ne htoken st.leases.table
  · rfl

/-- Any lease history, and no process started. -/
structure SupervisorState.Started (st : SupervisorState ι) : Prop where
  leases : st.leases.Started
  procs : ∀ p, st.procs p = {}

omit [DecidableEq ι] in
lemma SupervisorState.Started.inv {st : SupervisorState ι} (h : st.Started) : SupervisorInv st where
  leases := h.leases.inv
  spent := by simp [h.procs]
  apart := by simp [h.procs]
  ended := by simp [h.procs]

/-- If no start extends the lease of another process, one process at most writes, and no stop
takes another process's lease. -/
theorem single_writer {st : SupervisorState ι} (hs : st.Started) {turns : List (SupervisorTurn ι)}
    (hp : Along supervisorStep (fun st turn => turn.Proper st) st turns)
    (hc : Along supervisorStep (fun st turn => turn.SoleExtension st) st turns) :
    Visits supervisorStep OneWriter st turns ∧ Along supervisorStep (fun st turn => turn.Spares st) st turns := by
  have hboth := along_and.mpr ⟨hp, hc⟩
  have hstep : ∀ (st : SupervisorState ι) (turn : SupervisorTurn ι), SupervisorInv st →
      turn.Proper st ∧ turn.SoleExtension st → SupervisorInv (supervisorStep st turn) :=
    fun _ _ inv h => inv.step h.1 h.2
  exact ⟨(visits_of_along hstep hs.inv hboth).mono (fun _ inv => inv.oneWriter),
    along_of_invariant hstep (fun _ turn inv _ => inv.spares turn) hs.inv hboth⟩

instance decidableSupervisorProper (st : SupervisorState ι) (turn : SupervisorTurn ι) : Decidable (turn.Proper st) :=
  inferInstanceAs (Decidable (∀ t ∈ turn.statement st, t.Proper st.leases))

instance decidableSoleExtension [Fintype ι] (st : SupervisorState ι) : ∀ turn : SupervisorTurn ι, Decidable (turn.SoleExtension st)
  | .startWrite p _ => inferInstanceAs (Decidable (∀ call ∈ st.leases.calls p, ∀ row ∈ call.extended, ∀ q, q ≠ p →
      (st.procs q).engaged → ∀ l ∈ (st.procs q).lease, l.token ≠ row.token))
  | .tick _ => inferInstanceAs (Decidable True)
  | .startSelect _ _ _ => inferInstanceAs (Decidable True)
  | .leaseRenew _ _ => inferInstanceAs (Decidable True)
  | .execution _ _ => inferInstanceAs (Decidable True)
  | .stopCancel _ => inferInstanceAs (Decidable True)
  | .stopRelease _ => inferInstanceAs (Decidable True)
  | .crash _ => inferInstanceAs (Decidable True)

end Steps

def SupervisorState.empty (ι : Type) : SupervisorState ι where
  leases := .empty ι
  procs := fun _ => {}

lemma SupervisorState.empty_started (ι : Type) : (SupervisorState.empty ι).Started :=
  ⟨LeaseState.empty_started ι, fun _ => rfl⟩

/-- One container stops and the next starts. -/
theorem single_writer_restart :
    Visits supervisorStep OneWriter (.empty Bool) [.startSelect false 0 "t1", .startWrite false 1, .leaseRenew false 0,
      .stopCancel false, .stopRelease false, .startSelect true 0 "t2", .startWrite true 1] :=
  (single_writer (SupervisorState.empty_started Bool) (by decide +kernel) (by decide +kernel)).1

/-- Two containers start, and one stops. -/
theorem duplicate_containers :
    let turns : List (SupervisorTurn Bool) := [.startSelect false 0 "t1", .startWrite false 1, .startSelect true 0 "t2",
      .startWrite true 2, .stopCancel true, .stopRelease true]
    ¬Visits supervisorStep OneWriter (.empty Bool) turns ∧
      ¬Along supervisorStep (fun st turn => turn.Spares st) (.empty Bool) turns := by
  intro turns
  constructor
  · intro h
    have hboth : false = true := h.2.2.2.2.start false true 0 0 (by decide +kernel) (by decide +kernel)
      (by decide +kernel) (by decide +kernel)
    contradiction
  · intro h
    have hspares := h.2.2.2.2.2.1 true rfl false (by decide) (by decide +kernel)
      { leaseKey := "crypto_engine_execution", ownerId := "crypto-trading-primary", token := "t1", expiresAt := 30 }
      (by decide +kernel)
    revert hspares
    decide +kernel

end CryptoTrader
