import CryptoTrader.Execution.Authority
import CryptoTrader.Runtime.Lease
import CryptoTrader.Runtime.SignalRace
import Mathlib.Data.Fintype.Basic

/-!
# Engines and their lease

Engines on one database, each with the lease it took in `start`, and the `process_signal`
calls that run in them. A call asks `is_held` once, then the authority decides, then the order
rows are committed, and last comes `adapter.submit_order` or the write of the futures ledger.
-/

namespace CryptoTrader

open KeyedTable Runs OrderStore

structure EngineLease where
  lease : Option Lease := none
  /-- The kill switch of the engine's risk engine. -/
  killSwitch : Bool := false
  deriving DecidableEq, Repr

/-- How far a call has come with lease and authority. -/
inductive LeaseGate where
  | unchecked
  | checked (held : Bool)
  | authorized
  deriving DecidableEq, Repr

/-- The calls of all engines are numbered. -/
structure EngineSetup (ι : Type) where
  engine : Nat → ι
  signals : Nat → SignalIntent
  runId : Nat → Option String
  mode : TradingMode := .paper
  requireLease : ι → Bool := fun _ => true
  /-- `run_lease_ttl_seconds`. -/
  ttlSeconds : ℚ := 30

structure EngineState (ι : Type) where
  leases : LeaseState ι
  engines : ι → EngineLease
  race : SignalRace
  gate : Nat → LeaseGate

inductive EngineTurn (ι : Type) where
  | tick (elapsed : ℚ)
  | startSelect (i : ι) (runId : String) (now : ℚ) (token : String)
  | startWrite (i : ι) (rowId : Nat)
  | leaseRenew (i : ι) (now : ℚ)
  | stop (i : ι)
  | crash (i : ι)
  /-- The call asks `is_held`, with the time it reads. -/
  | leaseCheck (k : Nat) (now : ℚ)
  | authority (k : Nat) (expiresAt : Option ℤ) (ctx : AuthorizationContext)
  /-- Any other step of a call, the last of which is its effect. -/
  | call (k : Nat) (input : StepInput)
  /-- The call is cancelled, or raises. -/
  | cancel (k : Nat)
  /-- A call of the order manager by another task. -/
  | order (c : OrderCall)

namespace EngineLease

def leaseKey : String := "crypto_engine_execution"

variable (self : EngineLease)

/-- `start` after the acquire. -/
def started : AcquireResult → EngineLease
  | .granted lease => { self with lease := some lease }
  | .refused => { self with lease := none }
  | .conflict => self
  | .stale => self

def isHeld (now : ℚ) (table : LeaseTable) : Bool :=
  LeaseManager.isHeld leaseKey now table (self.lease.map Lease.token)

end EngineLease

section Steps

open EngineLease (leaseKey)

variable {ι : Type} [DecidableEq ι] (setup : EngineSetup ι)

/-- What a step does to the lease row. -/
def EngineTurn.statement (st : EngineState ι) : EngineTurn ι → Option (LeaseTurn ι)
  | tick elapsed => some (.tick elapsed)
  | startSelect i runId now token =>
    if setup.requireLease i then some (.select i leaseKey s!"engine_{runId}" setup.ttlSeconds now token) else none
  | startWrite i rowId => some (.write i rowId)
  | leaseRenew i now => (st.engines i).lease.map (fun l => .renew leaseKey l.token setup.ttlSeconds now)
  | stop i => (st.engines i).lease.map (fun l => .release leaseKey l.token)
  | crash i => some (.crash i)
  | _ => none

/-- What a step does to the lease an engine has. -/
def EngineTurn.local (st : EngineState ι) : EngineTurn ι → Option (ι × EngineLease)
  | startWrite i rowId =>
    (st.leases.calls i).map (fun call => (i, (st.engines i).started (call.write rowId st.leases.table).1))
  | leaseRenew i now =>
    match (st.engines i).lease with
    | none => none
    | some l =>
      if (LeaseManager.renew leaseKey l.token setup.ttlSeconds now st.leases.table).1 then none
      else some (i, { st.engines i with killSwitch := true })
  | stop i => some (i, { st.engines i with lease := none })
  | crash i => some (i, {})
  | _ => none

/-- The answer of the authority, for the lease as the call has found it. -/
def authorizes (st : EngineState ι) (k : Nat) (held : Bool) (expiresAt : Option ℤ) (ctx : AuthorizationContext) : Bool :=
  match authorize (intentOfSignal (setup.signals k) (setup.runId k)) expiresAt
      { ctx with
        leaseHeld := held || !setup.requireLease (setup.engine k)
        killSwitch := (st.engines (setup.engine k)).killSwitch || ctx.killSwitch } with
  | .ok (.approve, _) => true
  | _ => false

/-- Past the duplicate check a call comes to the lease check, the authority, and only then to
the order row. -/
def gateStep (st : EngineState ι) : EngineTurn ι → SignalRace × (Nat → LeaseGate)
  | .leaseCheck k now =>
    if st.race.pc k = .creating ∧ st.gate k = .unchecked then
      (st.race, Function.update st.gate k (.checked (setup.requireLease (setup.engine k) &&
        (st.engines (setup.engine k)).isHeld now st.leases.table)))
    else (st.race, st.gate)
  | .authority k expiresAt ctx =>
    match st.gate k with
    | .checked held =>
      if authorizes setup st k held expiresAt ctx then (st.race, Function.update st.gate k .authorized)
      else (st.race.goto k .finished, st.gate)
    | _ => (st.race, st.gate)
  | .call k input =>
    if st.race.pc k = .creating ∧ st.gate k ≠ .authorized then (st.race, st.gate)
    else (callStep setup.signals (setup.runId k) setup.mode k { input with approved := true } st.race, st.gate)
  | .cancel k => (st.race.goto k .finished, st.gate)
  | .crash i => ({ st.race with pc := fun k => if setup.engine k = i then .finished else st.race.pc k }, st.gate)
  | .order c => ({ st.race with store := exec st.race.store c }, st.gate)
  | _ => (st.race, st.gate)

def engineStep (st : EngineState ι) (turn : EngineTurn ι) : EngineState ι where
  leases := leaseStep? st.leases (turn.statement setup st)
  engines := (turn.local setup st).elim st.engines (fun e => Function.update st.engines e.1 e.2)
  race := (gateStep setup st turn).1
  gate := (gateStep setup st turn).2

def EngineTurn.Proper (st : EngineState ι) (turn : EngineTurn ι) : Prop :=
  ∀ t ∈ turn.statement setup st, t.Proper st.leases

/-- The call has found the lease held, and may still have its effect. -/
def EngineState.Committed (st : EngineState ι) (k : Nat) : Prop :=
  (st.gate k = .checked true ∨ st.gate k = .authorized) ∧ st.race.pc k ≠ .finished

/-- No acquire is granted while a call of another engine is between its lease check and its
effect, and none extends the row another engine has; the engines that submit require the
lease. -/
def EngineTurn.Undisturbed (st : EngineState ι) : EngineTurn ι → Prop
  | startWrite j rowId => ∀ call ∈ st.leases.calls j, ∀ lease, (call.write rowId st.leases.table).1 = .granted lease →
      (∀ k, setup.engine k ≠ j → ¬st.Committed k) ∧
      ∀ row ∈ call.extended, ∀ i, i ≠ j → ∀ l ∈ (st.engines i).lease, l.token ≠ row.token
  | authority k _ _ => setup.requireLease (setup.engine k)
  | _ => True

/-- The next step of the call is `submit_order` or the write of the futures ledger. -/
def CallPc.effect : CallPc → Bool
  | .submitting _ => true
  | _ => false

/-- At the effect of a call no other engine's token is the one that is held. -/
def EngineTurn.Fenced (st : EngineState ι) : EngineTurn ι → Prop
  | call k _ => (st.race.pc k).effect →
      ∀ j, j ≠ setup.engine k → (st.engines j).isHeld st.leases.clock st.leases.table = false
  | _ => True

/-! ### What a step can do -/

variable {setup}

lemma keeps_engineStep {P : LeaseState ι → Prop} {st : EngineState ι} {turn : EngineTurn ι}
    (hp : turn.Proper setup st) (h : P st.leases)
    (hstep : ∀ t : LeaseTurn ι, t.Proper st.leases → P (leaseStep st.leases t)) :
    P (engineStep setup st turn).leases :=
  leaseStep?_keeps h hstep hp

lemma EngineLease.lease_started {self : EngineLease} {result : AcquireResult} {l : Lease}
    (h : (self.started result).lease = some l) : self.lease = some l ∨ result = .granted l := by
  cases result with
  | granted lease =>
    obtain rfl : lease = l := Option.some.inj h
    exact .inr rfl
  | refused => contradiction
  | conflict => exact .inl h
  | stale => exact .inl h

lemma lease_engineStep {st : EngineState ι} {turn : EngineTurn ι} {i : ι} {l : Lease}
    (h : ((engineStep setup st turn).engines i).lease = some l) :
    (st.engines i).lease = some l ∨ ∃ rowId call, turn = .startWrite i rowId ∧ st.leases.calls i = some call ∧
      (call.write rowId st.leases.table).1 = .granted l := by
  simp only [engineStep] at h
  cases hlocal : turn.local setup st with
  | none =>
    rw [hlocal] at h
    exact .inl h
  | some e =>
    obtain ⟨j, self⟩ := e
    simp only [hlocal, Option.elim_some] at h
    by_cases hij : i = j
    · subst hij
      rw [Function.update_self] at h
      cases turn with
      | startWrite q rowId =>
        obtain ⟨call, hcall, he⟩ := Option.map_eq_some_iff.mp hlocal
        obtain ⟨rfl, rfl⟩ := Prod.mk.inj he
        exact (EngineLease.lease_started h).imp id (fun hgranted => ⟨rowId, call, rfl, hcall, hgranted⟩)
      | leaseRenew q now =>
        simp only [EngineTurn.local] at hlocal
        split at hlocal
        · contradiction
        · split at hlocal
          · contradiction
          · obtain ⟨rfl, rfl⟩ := Prod.mk.inj (Option.some.inj hlocal)
            exact .inl h
      | stop q =>
        obtain ⟨rfl, rfl⟩ := Prod.mk.inj (Option.some.inj hlocal)
        contradiction
      | crash q =>
        obtain ⟨rfl, rfl⟩ := Prod.mk.inj (Option.some.inj hlocal)
        contradiction
      | tick _ => contradiction
      | startSelect _ _ _ _ => contradiction
      | leaseCheck _ _ => contradiction
      | authority _ _ _ => contradiction
      | call _ _ => contradiction
      | cancel _ => contradiction
      | order _ => contradiction
    · rw [Function.update_of_ne hij] at h
      exact .inl h

/-- A step of a call moves that call only. -/
lemma callStep_pc_of_ne {signals : Nat → SignalIntent} {runId : Option String} {mode : TradingMode} {j k : Nat}
    (h : j ≠ k) (input : StepInput) (race : SignalRace) :
    (callStep signals runId mode k input race).pc j = race.pc j := by
  have hgoto : ∀ (race : SignalRace) (pc : CallPc), (race.goto k pc).pc j = race.pc j :=
    fun race pc => by simp [SignalRace.goto, Function.update_of_ne h]
  unfold callStep
  dsimp only
  split
  · split <;> exact hgoto _ _
  · split
    · split <;> exact hgoto _ _
    · exact hgoto _ _
  · split <;> exact hgoto _ _
  · split <;> exact hgoto _ _
  · split <;> exact hgoto _ _
  · split <;> exact hgoto _ _
  · rfl

/-- Past the gate of lease and authority. -/
def CallPc.gated : CallPc → Bool
  | .start => false
  | .creating => false
  | .finished => false
  | _ => true

lemma callStep_start {signals : Nat → SignalIntent} {runId : Option String} {mode : TradingMode} {k : Nat}
    {input : StepInput} {race : SignalRace} (h : race.pc k = .start) :
    ((callStep signals runId mode k input race).pc k).gated = false := by
  unfold callStep
  simp only [h]
  split
  · simp [SignalRace.goto, CallPc.gated]
  · cases input.approved <;> simp [SignalRace.goto, CallPc.gated]

lemma callStep_finished {signals : Nat → SignalIntent} {runId : Option String} {mode : TradingMode} {k : Nat}
    {input : StepInput} {race : SignalRace} (h : race.pc k = .finished) :
    callStep signals runId mode k input race = race := by
  simp only [callStep, h]

lemma finished_engineStep {st : EngineState ι} {k : Nat} (turn : EngineTurn ι) (h : st.race.pc k = .finished) :
    (engineStep setup st turn).race.pc k = .finished := by
  have hgoto : ∀ j, (st.race.goto j .finished).pc k = .finished := by
    intro j
    by_cases hkj : k = j
    · simp [SignalRace.goto, hkj]
    · simp [SignalRace.goto, Function.update_of_ne hkj, h]
  simp only [engineStep]
  cases turn with
  | leaseCheck j now =>
    simp only [gateStep]
    split <;> exact h
  | authority j expiresAt ctx =>
    simp only [gateStep]
    split
    · split
      · exact h
      · exact hgoto j
    · exact h
  | call j input =>
    simp only [gateStep]
    split
    · exact h
    · by_cases hkj : k = j
      · subst hkj
        dsimp only
        rw [callStep_finished h, h]
      · exact (callStep_pc_of_ne hkj _ _).trans h
  | cancel j => exact hgoto j
  | crash i =>
    simp only [gateStep]
    split
    · rfl
    · exact h
  | tick _ => exact h
  | startSelect _ _ _ _ => exact h
  | startWrite _ _ => exact h
  | leaseRenew _ _ => exact h
  | stop _ => exact h
  | order _ => exact h

omit [DecidableEq ι] in
lemma authorizes_held {st : EngineState ι} {k : Nat} {held : Bool} {expiresAt : Option ℤ} {ctx : AuthorizationContext}
    (hrequire : setup.requireLease (setup.engine k)) (h : authorizes setup st k held expiresAt ctx) : held = true := by
  unfold authorizes at h
  split at h
  · have hheld := leaseHeld_of_authorize ‹_›
    simpa [hrequire] using hheld
  · contradiction

/-- A call that is committed after a step was so before, or has just found the lease held. -/
lemma committed_engineStep {st : EngineState ι} {turn : EngineTurn ι} {k : Nat} (hc : turn.Undisturbed setup st)
    (h : (engineStep setup st turn).Committed k) :
    st.Committed k ∨ ∃ now, turn = .leaseCheck k now ∧
      (st.engines (setup.engine k)).isHeld now st.leases.table = true := by
  have hpc : st.race.pc k ≠ .finished := fun hfinished => h.2 (finished_engineStep turn hfinished)
  have hsame : (engineStep setup st turn).gate k = st.gate k → st.Committed k := fun heq => ⟨heq ▸ h.1, hpc⟩
  cases turn with
  | leaseCheck j now =>
    simp only [engineStep, gateStep] at h hsame
    split at h
    · by_cases hkj : k = j
      · subst hkj
        have hheld := h.1
        simp only [Function.update_self, LeaseGate.checked.injEq, reduceCtorEq, or_false, Bool.and_eq_true] at hheld
        exact .inr ⟨now, rfl, hheld.2⟩
      · exact .inl (hsame (by rw [if_pos ‹_›]; exact Function.update_of_ne hkj _ _))
    · exact .inl (hsame (by rw [if_neg ‹_›]))
  | authority j expiresAt ctx =>
    refine .inl ?_
    cases hgate : st.gate j with
    | checked held =>
      by_cases happrove : authorizes setup st j held expiresAt ctx
      · by_cases hkj : k = j
        · subst hkj
          exact ⟨.inl (by rw [hgate, authorizes_held hc happrove]), hpc⟩
        · exact hsame (by simp [engineStep, gateStep, hgate, happrove, Function.update_of_ne hkj])
      · exact hsame (by simp [engineStep, gateStep, hgate, happrove])
    | unchecked => exact hsame (by simp [engineStep, gateStep, hgate])
    | authorized => exact hsame (by simp [engineStep, gateStep, hgate])
  | call j input =>
    refine .inl (hsame ?_)
    simp only [engineStep, gateStep]
    split <;> rfl
  | cancel j => exact .inl (hsame rfl)
  | crash i => exact .inl (hsame rfl)
  | tick _ => exact .inl (hsame rfl)
  | startSelect _ _ _ _ => exact .inl (hsame rfl)
  | startWrite _ _ => exact .inl (hsame rfl)
  | leaseRenew _ _ => exact .inl (hsame rfl)
  | stop _ => exact .inl (hsame rfl)
  | order _ => exact .inl (hsame rfl)

lemma gated_of_finished {race : SignalRace} {j k : Nat} (h : ((race.goto j .finished).pc k).gated) : (race.pc k).gated := by
  by_cases hkj : k = j
  · simp [SignalRace.goto, hkj, CallPc.gated] at h
  · simpa only [SignalRace.goto, Function.update_of_ne hkj] using h

/-- A call past the gate has been authorized. -/
lemma gated_engineStep {st : EngineState ι} {turn : EngineTurn ι} {k : Nat}
    (hgated : (st.race.pc k).gated → st.gate k = .authorized)
    (h : ((engineStep setup st turn).race.pc k).gated) : (engineStep setup st turn).gate k = .authorized := by
  cases turn with
  | leaseCheck j now =>
    simp only [engineStep, gateStep] at h ⊢
    split at h
    · rename_i hready
      by_cases hkj : k = j
      · rw [hkj, hready.1] at h
        contradiction
      · rw [if_pos hready]
        exact (Function.update_of_ne hkj _ _).trans (hgated h)
    · rw [if_neg ‹_›]
      exact hgated h
  | authority j expiresAt ctx =>
    simp only [engineStep, gateStep] at h ⊢
    split at h
    · split at h
      · rw [if_pos ‹_›]
        by_cases hkj : k = j
        · rw [hkj]
          exact Function.update_self _ _ _
        · exact (Function.update_of_ne hkj _ _).trans (hgated h)
      · rw [if_neg ‹_›]
        exact hgated (gated_of_finished h)
    · exact hgated h
  | call j input =>
    simp only [engineStep, gateStep] at h ⊢
    split at h
    · rw [if_pos ‹_›]
      exact hgated h
    · rename_i hopen
      rw [if_neg hopen]
      by_cases hkj : k = j
      · subst hkj
        cases hpc : st.race.pc k with
        | start =>
          rw [callStep_start hpc] at h
          contradiction
        | creating => exact not_not.mp (fun hgate => hopen ⟨hpc, hgate⟩)
        | finished =>
          rw [callStep_finished hpc, hpc] at h
          contradiction
        | inserting => exact hgated (by rw [hpc]; rfl)
        | reading g order => exact hgated (by rw [hpc]; rfl)
        | writing g order p => exact hgated (by rw [hpc]; rfl)
        | submitting order => exact hgated (by rw [hpc]; rfl)
      · rw [callStep_pc_of_ne hkj] at h
        exact hgated h
  | cancel j => exact hgated (gated_of_finished h)
  | crash i =>
    simp only [engineStep, gateStep] at h ⊢
    split at h
    · contradiction
    · exact hgated h
  | tick _ => exact hgated h
  | startSelect _ _ _ _ => exact hgated h
  | startWrite _ _ => exact hgated h
  | leaseRenew _ _ => exact hgated h
  | stop _ => exact hgated h
  | order _ => exact hgated h

/-! ### The invariant -/

variable (setup) in
/-- While a call is committed, no other engine has the lease row. -/
structure EngineInv (st : EngineState ι) : Prop where
  leases : LeaseInv st.leases
  spent : ∀ i l, (st.engines i).lease = some l → Spent st.leases l.token
  apart : ∀ i j l l', (st.engines i).lease = some l → (st.engines j).lease = some l' → l.token = l'.token → i = j
  gated : ∀ k, (st.race.pc k).gated → st.gate k = .authorized
  exclusive : ∀ k, st.Committed k → ∀ j, j ≠ setup.engine k → ∀ l, (st.engines j).lease = some l →
    Gone leaseKey l.token st.leases

omit [DecidableEq ι] in
lemma EngineInv.granted_apart {st : EngineState ι} (inv : EngineInv setup st) {j : ι} {rowId : Nat}
    {call : AcquireCall} {l : Lease} (hc : EngineTurn.Undisturbed setup st (.startWrite j rowId))
    (hcall : st.leases.calls j = some call) (hgranted : (call.write rowId st.leases.table).1 = .granted l)
    {i : ι} (hne : i ≠ j) {l' : Lease} (hl' : (st.engines i).lease = some l') : l'.token ≠ l.token := by
  rcases AcquireCall.granted_token rowId hgranted with hnew | ⟨row, hrow, hold⟩
  · rw [hnew]
    exact ((inv.spent i l' hl').idle j call hcall).symm
  · rw [hold]
    exact (hc call hcall l hgranted).2 row hrow i hne l' hl'

omit [DecidableEq ι] in
lemma EngineInv.gone_of_held {st : EngineState ι} (inv : EngineInv setup st) {i j : ι} {now : ℚ}
    (hheld : (st.engines i).isHeld now st.leases.table = true) (hne : j ≠ i) {l : Lease}
    (hl : (st.engines j).lease = some l) : Gone leaseKey l.token st.leases := by
  refine ⟨inv.spent j l hl, rowOf_eq_none_iff.mpr ?_⟩
  rintro r hr ⟨hkey, htoken⟩
  cases hli : (st.engines i).lease with
  | none => simp [EngineLease.isHeld, hli, LeaseManager.isHeld] at hheld
  | some li =>
    rw [EngineLease.isHeld, hli] at hheld
    obtain ⟨r', hr', hkey', htoken', -⟩ := row_of_isHeld hheld
    have hrow : r = r' := eq_of_key_eq inv.leases.keys hr hr' (hkey.trans hkey'.symm)
    exact hne (inv.apart j i l li hl hli (by rw [← htoken, hrow, htoken']))

theorem EngineInv.step {st : EngineState ι} (inv : EngineInv setup st) {turn : EngineTurn ι}
    (hp : turn.Proper setup st) (hc : turn.Undisturbed setup st) : EngineInv setup (engineStep setup st turn) where
  leases := keeps_engineStep hp inv.leases (fun _ ht => inv.leases.step ht)
  spent := by
    intro i l hl
    rcases lease_engineStep hl with hold | ⟨rowId, call, rfl, hcall, hgranted⟩
    · exact keeps_engineStep (P := fun st => Spent st l.token) hp (inv.spent i l hold)
        (fun _ ht => (inv.spent i l hold).step ht)
    · exact inv.leases.granted_spent hcall (hp _ rfl) hgranted
  apart := by
    intro i j l l' hl hl' htoken
    by_contra hij
    rcases lease_engineStep hl with hold | ⟨rowId, call, rfl, hcall, hgranted⟩ <;>
      rcases lease_engineStep hl' with hold' | ⟨rowId', call', hturn, hcall', hgranted'⟩
    · exact hij (inv.apart i j l l' hold hold' htoken)
    · subst hturn
      exact inv.granted_apart hc hcall' hgranted' hij hold htoken
    · exact inv.granted_apart hc hcall hgranted (Ne.symm hij) hold' htoken.symm
    · injection hturn with hji
      exact hij hji
  gated := fun k hk => gated_engineStep (inv.gated k) hk
  exclusive := by
    intro k hk j hj l hl
    rcases committed_engineStep hc hk with hbefore | ⟨now, rfl, hheld⟩
    · rcases lease_engineStep hl with hold | ⟨rowId, call, rfl, hcall, hgranted⟩
      · have hgone := inv.exclusive k hbefore j hj l hold
        exact keeps_engineStep hp hgone (fun _ ht => hgone.step ht)
      · exact absurd hbefore ((hc call hcall l hgranted).1 k (Ne.symm hj))
    · rcases lease_engineStep hl with hold | ⟨rowId, call, hturn, -, -⟩
      · exact inv.gone_of_held hheld hj hold
      · contradiction

omit [DecidableEq ι] in
lemma EngineInv.fenced {st : EngineState ι} (inv : EngineInv setup st) (turn : EngineTurn ι) :
    turn.Fenced setup st := by
  cases turn with
  | call k input =>
    intro heffect j hj
    have hcommitted : st.Committed k := by
      cases hpc : st.race.pc k <;> simp only [hpc, CallPc.effect, reduceCtorEq] at heffect
      exact ⟨.inr (inv.gated k (by rw [hpc]; rfl)), by simp [hpc]⟩
    cases hl : (st.engines j).lease with
    | none => simp [EngineLease.isHeld, hl, LeaseManager.isHeld]
    | some l =>
      have hgone := inv.exclusive k hcommitted j hj l hl
      simp [EngineLease.isHeld, hl, LeaseManager.isHeld, hgone.2]
  | tick _ => trivial
  | startSelect _ _ _ _ => trivial
  | startWrite _ _ => trivial
  | leaseRenew _ _ => trivial
  | stop _ => trivial
  | crash _ => trivial
  | leaseCheck _ _ => trivial
  | authority _ _ _ => trivial
  | cancel _ => trivial
  | order _ => trivial

/-- Any lease history, no engine started, and no call begun. -/
structure EngineState.Started (st : EngineState ι) : Prop where
  leases : st.leases.Started
  engines : ∀ i, (st.engines i).lease = none
  calls : ∀ k, st.race.pc k = .start ∧ st.gate k = .unchecked

omit [DecidableEq ι] in
lemma EngineState.Started.inv {st : EngineState ι} (h : st.Started) : EngineInv setup st where
  leases := h.leases.inv
  spent := by simp [h.engines]
  apart := by simp [h.engines]
  gated := by simp [h.calls, CallPc.gated]
  exclusive := by simp [h.engines]

/-- If no lease is granted between another engine's lease check and effect, no effect meets
another engine's held lease. -/
theorem submission_fenced {st : EngineState ι} (hs : st.Started) {turns : List (EngineTurn ι)}
    (hp : Along (engineStep setup) (fun st turn => turn.Proper setup st) st turns)
    (hc : Along (engineStep setup) (fun st turn => turn.Undisturbed setup st) st turns) :
    Along (engineStep setup) (fun st turn => turn.Fenced setup st) st turns :=
  along_of_invariant (fun _ _ inv h => EngineInv.step inv h.1 h.2) (fun _ turn inv _ => inv.fenced turn) hs.inv
    (along_and.mpr ⟨hp, hc⟩)

instance decidableEngineProper (st : EngineState ι) (turn : EngineTurn ι) : Decidable (turn.Proper setup st) :=
  inferInstanceAs (Decidable (∀ t ∈ turn.statement setup st, t.Proper st.leases))

instance decidableFenced [Fintype ι] (st : EngineState ι) : ∀ turn : EngineTurn ι, Decidable (turn.Fenced setup st)
  | .call k _ => inferInstanceAs (Decidable ((st.race.pc k).effect →
      ∀ j, j ≠ setup.engine k → (st.engines j).isHeld st.leases.clock st.leases.table = false))
  | .tick _ => inferInstanceAs (Decidable True)
  | .startSelect _ _ _ _ => inferInstanceAs (Decidable True)
  | .startWrite _ _ => inferInstanceAs (Decidable True)
  | .leaseRenew _ _ => inferInstanceAs (Decidable True)
  | .stop _ => inferInstanceAs (Decidable True)
  | .crash _ => inferInstanceAs (Decidable True)
  | .leaseCheck _ _ => inferInstanceAs (Decidable True)
  | .authority _ _ _ => inferInstanceAs (Decidable True)
  | .cancel _ => inferInstanceAs (Decidable True)
  | .order _ => inferInstanceAs (Decidable True)

end Steps

def EngineState.empty (ι : Type) : EngineState ι where
  leases := .empty ι
  engines := fun _ => {}
  race := { store := {} }
  gate := fun _ => .unchecked

lemma EngineState.empty_started (ι : Type) : (EngineState.empty ι).Started :=
  ⟨LeaseState.empty_started ι, fun _ => rfl, fun _ => ⟨rfl, rfl⟩⟩

/-- One signal, of the first engine. -/
def oneSignal : EngineSetup Bool where
  engine := fun _ => false
  signals := fun _ => sampleSignal .spot
  runId := fun _ => some "a"

/-- A context in which the authority approves once the lease is held. -/
def approvingContext : AuthorizationContext where
  marketDataFresh := true
  orderbookFresh := true
  orderbookHealthy := true
  symbolTradeable := true
  exchangeConnected := true
  balanceFresh := true
  riskDecision := some { clientOrderId := "trend_s1", symbol := "BTCUSDT", side := .buy, decision := .approve, reason := "RISK_PASS" }
  instrument := some { symbol := "BTCUSDT", baseAsset := "BTC", quoteAsset := "USDT", tickSize := 1, stepSize := 1 }

/-- The signal up to the approval of the authority, and from there to its effect. -/
def approval : List (EngineTurn Bool) :=
  [.startSelect false "a" 0 "t1", .startWrite false 1, .call 0 { eventId := "" }, .leaseCheck 0 0,
    .authority 0 none approvingContext]

def submission : List (EngineTurn Bool) :=
  [.call 0 { eventId := "" }, .call 0 { orderId := "ord", eventId := "e1" }, .call 0 { eventId := "" },
    .call 0 { eventId := "e2" }, .call 0 { eventId := "" }, .call 0 { eventId := "e3" }, .call 0 { eventId := "" },
    .call 0 { eventId := "e4" }, .call 0 { eventId := "" }]

/-- No other engine starts in between. -/
theorem undisturbed_submission :
    Along (engineStep oneSignal) (fun st turn => turn.Fenced oneSignal st) (.empty Bool) (approval ++ submission) := by
  refine submission_fenced (EngineState.empty_started Bool) (by decide +kernel) ?_
  have hstart : EngineTurn.Undisturbed oneSignal (engineStep oneSignal (.empty Bool) (.startSelect false "a" 0 "t1"))
      (.startWrite false 1) := by
    intro call hcall lease _
    obtain rfl := Option.some.inj hcall
    exact ⟨fun k hk => absurd rfl hk, fun row hrow => by contradiction⟩
  exact ⟨trivial, hstart, trivial, trivial, rfl, trivial, trivial, trivial, trivial, trivial, trivial, trivial, trivial,
    trivial, trivial⟩

/-- Between the two the lease runs out, and another engine takes it over. -/
theorem stale_submission :
    ¬Along (engineStep oneSignal) (fun st turn => turn.Fenced oneSignal st) (.empty Bool)
      (approval ++ [.tick 31, .startSelect true "b" 31 "t2", .startWrite true 2] ++ submission) := by
  decide +kernel

end CryptoTrader
