import CryptoTrader.Domain.Enums
import CryptoTrader.Lib.Runs
import CryptoTrader.Lib.Triples
import CryptoTrader.Runtime.Lease

/-!
# Starting and stopping the engine

`TradingEngine.start` and `stop` of `runtime/engine.py` with the `RuntimeStateMachine` and the
execution lease. Every call of a dependency may raise. Between the calls a background task may
end with an exception and other processes write the lease table. Only a refused lease is
cleaned up after (`orderly_iff`).
-/

namespace CryptoTrader

def RuntimeState.transitions : RuntimeState → List RuntimeState
  | stopped => [starting, recovering]
  | starting => [running, recovering, stopped]
  | recovering => [running, stopped]
  | running => [halted, stopping]
  | halted => [running, stopping]
  | stopping => [stopped]

namespace Startup

open Runs Triples

inductive Failure where
  | invalidStateTransition (message : String)
  | leaseNotHeld (message : String)
  /-- The row an acquire goes on to extend is gone. -/
  | staleData
  /-- `acquire` has called itself too often. -/
  | recursion
  /-- What a call of a dependency raises. -/
  | raised (error : String)
  deriving DecidableEq, Repr

structure Setup where
  requireLease : Bool := true
  leaseKey : String := "crypto_engine_execution"
  /-- `run_lease_ttl_seconds`. -/
  ttlSeconds : ℚ := 30
  mode : TradingMode := .paper
  strategies : List String := []

inductive TaskName where
  | events
  | ticks
  | lease
  | reconciliation
  deriving DecidableEq, Repr

/-- A background task, with the exception it has ended with, if any. -/
structure EngineTask where
  name : TaskName
  failure : Option String := none
  deriving DecidableEq, Repr

/-- A row of `engine_runs`. -/
structure EngineRun where
  runId : String
  state : RuntimeState
  mode : TradingMode
  strategyId : String
  startedAt : ℚ
  endedAt : Option ℚ := none
  leaseKey : String
  deriving DecidableEq, Repr

/-- What `start` and `stop` read and write of the engine, and the two tables. -/
structure Engine where
  machine : RuntimeState := .stopped
  running : Bool := false
  runId : Option String := none
  lease : Option Lease := none
  connected : Bool := false
  tasks : List EngineTask := []
  leases : LeaseTable := []
  runs : List EngineRun := []
  deriving DecidableEq, Repr

/-- The calls of `start` that may raise, in their order. -/
inductive StartPoint where
  | persistStarting
  | connect
  | acquire
  | persistStopped
  | persistRecovering
  | seed
  | hydrate
  | recover
  | persistRunning
  | subscribeOrders
  | subscribeMarketData
  | subscribeAccount
  | log
  deriving DecidableEq, Repr

/-- One pass of `acquire`: the time it reads, its token, the row it sees and the id of a row it
inserts. -/
structure Attempt where
  now : ℚ
  token : String
  seen : Option RuntimeLease
  rowId : ℕ
  deriving DecidableEq, Repr

/-- What one `start` meets. -/
structure StartCalls where
  runId : String
  fails : StartPoint → Option String
  attempts : List Attempt
  clock : StartPoint → ℚ

inductive StopPoint where
  | release
  | disconnect
  | persist
  | log
  deriving DecidableEq, Repr

structure StopCalls where
  fails : StopPoint → Option String
  clock : StopPoint → ℚ

/-! ### The calls -/

def transition (newState : RuntimeState) : Program Failure Engine Unit := do
  let engine ← get
  if newState ∈ engine.machine.transitions then
    modify fun engine => { engine with machine := newState }
  else throw (.invalidStateTransition s!"{engine.machine.value} -> {newState.value} invalid")

/-- A call of a dependency. -/
def await (failure : Option String) : Program Failure Engine Unit :=
  attempt (failure.map .raised)

def persistedRuns (setup : Setup) (runId : String) (state : RuntimeState) (now : ℚ) (runs : List EngineRun) :
    List EngineRun :=
  if runId ∈ runs.map EngineRun.runId then
    runs.map fun row =>
      if row.runId = runId then
        { row with state := state, endedAt := if state = .stopped then some now else row.endedAt }
      else row
  else
    runs ++ [{ runId := runId
               state := state
               mode := setup.mode
               strategyId := if setup.strategies = [] then "none" else ",".intercalate setup.strategies
               startedAt := now
               leaseKey := setup.leaseKey }]

def persistRun (setup : Setup) (state : RuntimeState) (now : ℚ) (failure : Option String) :
    Program Failure Engine Unit := do
  await failure
  modify fun engine =>
    { engine with runs := persistedRuns setup (engine.runId.getD "") state now engine.runs }

/-- `acquire`, which calls itself after a conflict. -/
def acquireLease (setup : Setup) (runId : String) : List Attempt → LeaseTable → AcquireResult × LeaseTable
  | [], table => (.conflict, table)
  | a :: rest, table =>
    let call : AcquireCall :=
      { leaseKey := setup.leaseKey
        ownerId := s!"engine_{runId}"
        ttlSeconds := setup.ttlSeconds
        now := a.now
        token := a.token
        seen := a.seen }
    match call.write a.rowId table with
    | (.conflict, table') => acquireLease setup runId rest table'
    | result => result

/-- The lease, where it is required. -/
def takeLease (setup : Setup) (calls : StartCalls) : Program Failure Engine Unit :=
  if setup.requireLease then do
    await (calls.fails .acquire)
    let engine ← get
    let result := acquireLease setup calls.runId calls.attempts engine.leases
    modify fun engine => { engine with leases := result.2 }
    match result.1 with
    | .granted lease => modify fun engine => { engine with lease := some lease }
    | .refused =>
      modify fun engine => { engine with lease := none }
      persistRun setup .stopped (calls.clock .persistStopped) (calls.fails .persistStopped)
      transition .stopped
      throw (.leaseNotHeld "another engine instance holds the execution lease")
    | .conflict => throw .recursion
    | .stale => throw .staleData
  else pure ()

def newTasks (setup : Setup) : List EngineTask :=
  [⟨.events, none⟩, ⟨.ticks, none⟩] ++ (if setup.requireLease then [⟨.lease, none⟩] else []) ++ [⟨.reconciliation, none⟩]

/-- `start` once it has the lease. -/
def activate (setup : Setup) (calls : StartCalls) : Program Failure Engine (Option String) := do
  transition .recovering
  persistRun setup .recovering (calls.clock .persistRecovering) (calls.fails .persistRecovering)
  await (calls.fails .seed)
  await (calls.fails .hydrate)
  await (calls.fails .recover)
  transition .running
  persistRun setup .running (calls.clock .persistRunning) (calls.fails .persistRunning)
  await (calls.fails .subscribeOrders)
  await (calls.fails .subscribeMarketData)
  await (calls.fails .subscribeAccount)
  modify fun engine => { engine with running := true, tasks := newTasks setup }
  await (calls.fails .log)
  return (← get).runId

def start (setup : Setup) (calls : StartCalls) : Program Failure Engine (Option String) := do
  let engine ← get
  if engine.running then return engine.runId
  else
    modify fun engine => { engine with runId := some calls.runId }
    transition .starting
    persistRun setup .starting (calls.clock .persistStarting) (calls.fails .persistStarting)
    await (calls.fails .connect)
    modify fun engine => { engine with connected := true }
    takeLease setup calls
    activate setup calls

/-- The cancelled tasks are awaited; one that has ended with an exception raises it. -/
def awaitTasks : List EngineTask → Program Failure Engine Unit
  | [] => pure ()
  | task :: tasks => do
    await task.failure
    awaitTasks tasks

def releaseLease (setup : Setup) (calls : StopCalls) : Program Failure Engine Unit := do
  match (← get).lease with
  | some lease =>
    await (calls.fails .release)
    modify fun engine =>
      { engine with leases := (LeaseManager.release setup.leaseKey lease.token engine.leases).2, lease := none }
  | none => pure ()

def stop (setup : Setup) (calls : StopCalls) : Program Failure Engine Unit := do
  let engine ← get
  if engine.running then
    modify fun engine => { engine with running := false }
    awaitTasks engine.tasks
    releaseLease setup calls
    await (calls.fails .disconnect)
    modify fun engine => { engine with connected := false }
    transition .stopping
    transition .stopped
    persistRun setup .stopped (calls.clock .persist) (calls.fails .persist)
    await (calls.fails .log)
  else pure ()

/-! ### One call -/

section Rules

variable {P : Engine → Prop} {α : Type} {Q : α → Engine → Prop} {E : Failure → Engine → Prop}
  {k : Unit → Program Failure Engine α}

lemma triple_transition (P' : Engine → Prop) {newState : RuntimeState}
    (hnext : ∀ s, P s → newState ∈ s.machine.transitions ∧ P' { s with machine := newState })
    (hk : Triple P' (k ()) Q E) : Triple P (transition newState >>= k) Q E := by
  have htransition : Triple P (transition newState) (fun _ => P') E := by
    apply triple_get
    intro s hs
    rw [if_pos (hnext s hs).1]
    intro s' hs'
    rw [hs', outcome_modify]
    exact (hnext s hs).2
  exact triple_bind htransition fun _ => hk

lemma triple_await {failure : Option String} (hraise : ∀ e, failure = some e → ∀ s, P s → E (.raised e) s)
    (hgo : failure = none → Triple P (k ()) Q E) : Triple P (await failure >>= k) Q E := by
  apply triple_attempt
  · intro e he
    obtain ⟨text, htext, rfl⟩ := Option.map_eq_some_iff.mp he
    exact hraise text htext
  · intro hnone
    exact hgo (Option.map_eq_none_iff.mp hnone)

lemma triple_persistRun {setup : Setup} {state : RuntimeState} {now : ℚ} {failure : Option String}
    (hruns : ∀ s runs, P s → P { s with runs := runs })
    (hraise : ∀ e, failure = some e → ∀ s, P s → E (.raised e) s) (hgo : failure = none → Triple P (k ()) Q E) :
    Triple P (persistRun setup state now failure >>= k) Q E := by
  have hpersist : Triple P (persistRun setup state now failure) (fun _ s => P s ∧ failure = none) E := by
    apply triple_await hraise
    intro hnone s hs
    rw [outcome_modify]
    exact ⟨hruns s _ hs, hnone⟩
  apply triple_bind hpersist
  intro _ s hs
  exact hgo hs.2 s hs.1

end Rules

/-! ### Starting -/

section Start

variable (setup : Setup) (calls : StartCalls)

/-- None of the calls raises. -/
def StartCalls.Clear (points : List StartPoint) : Prop :=
  ∀ p ∈ points, calls.fails p = none

instance decidableClear (points : List StartPoint) : Decidable (calls.Clear points) :=
  inferInstanceAs (Decidable (∀ p ∈ points, _))

def firstPoints : List StartPoint :=
  [.persistStarting, .connect]

def activatePoints : List StartPoint :=
  [.persistRecovering, .seed, .hydrate, .recover, .persistRunning, .subscribeOrders, .subscribeMarketData,
    .subscribeAccount, .log]

variable {calls} in
lemma StartCalls.not_clear {points : List StartPoint} {p : StartPoint} {e : String} (h : calls.fails p = some e)
    (hp : p ∈ points) : ¬ calls.Clear points := by
  intro hclear
  rw [hclear p hp] at h
  cases h

/-- The machine is in the state, and `start` has not come to its end. -/
structure During (state : RuntimeState) (engine : Engine) : Prop where
  machine : engine.machine = state
  stopped : engine.running = false

variable {calls} in
lemma activate_raises {state : RuntimeState} (hstate : state ≠ .stopped) {p : StartPoint} (hp : p ∈ activatePoints)
    (e : String) (he : calls.fails p = some e) (engine : Engine) (h : During state engine) :
    ¬ calls.Clear activatePoints ∧ engine.machine ≠ .stopped :=
  ⟨StartCalls.not_clear he hp, h.machine ▸ hstate⟩

lemma activate_triple : Triple (During .starting) (activate setup calls)
    (fun _ engine => calls.Clear activatePoints ∧ engine.machine = .running ∧ engine.running = true)
    (fun _ engine => ¬ calls.Clear activatePoints ∧ engine.machine ≠ .stopped) := by
  apply triple_transition (During .recovering)
  · intro s hs
    exact ⟨by simp [hs.machine, RuntimeState.transitions], rfl, hs.stopped⟩
  apply triple_persistRun
  · exact fun s runs hs => ⟨hs.machine, hs.stopped⟩
  · exact activate_raises (by decide) (by decide)
  intro hpersistRecovering
  apply triple_await
  · exact activate_raises (by decide) (by decide)
  intro hseed
  apply triple_await
  · exact activate_raises (by decide) (by decide)
  intro hhydrate
  apply triple_await
  · exact activate_raises (by decide) (by decide)
  intro hrecover
  apply triple_transition (During .running)
  · intro s hs
    exact ⟨by simp [hs.machine, RuntimeState.transitions], rfl, hs.stopped⟩
  apply triple_persistRun
  · exact fun s runs hs => ⟨hs.machine, hs.stopped⟩
  · exact activate_raises (by decide) (by decide)
  intro hpersistRunning
  apply triple_await
  · exact activate_raises (by decide) (by decide)
  intro hsubscribeOrders
  apply triple_await
  · exact activate_raises (by decide) (by decide)
  intro hsubscribeMarketData
  apply triple_await
  · exact activate_raises (by decide) (by decide)
  intro hsubscribeAccount
  apply triple_modify (fun s => s.machine = .running ∧ s.running = true)
  · intro s hs
    exact ⟨hs.machine, rfl⟩
  apply triple_await
  · intro e he s hs
    exact ⟨StartCalls.not_clear he (by simp [activatePoints]), by simp [hs.1]⟩
  intro hlog
  have hclear : calls.Clear activatePoints := by
    simp [StartCalls.Clear, activatePoints, *]
  apply triple_get
  intro s hs
  apply triple_pure
  rintro s' rfl
  exact ⟨hclear, hs⟩

/-- What the acquire of this start answers. -/
def StartCalls.answer (table : LeaseTable) : AcquireResult :=
  (acquireLease setup calls.runId calls.attempts table).1

/-- The lease is granted, where it is required. -/
def StartCalls.Granted (table : LeaseTable) : Prop :=
  setup.requireLease = true → calls.fails .acquire = none ∧ ∃ lease, calls.answer setup table = .granted lease

/-- The lease is refused, and the end of the run is written. -/
def StartCalls.LeaseRefused (table : LeaseTable) : Prop :=
  setup.requireLease = true ∧ calls.fails .acquire = none ∧ calls.answer setup table = .refused ∧
    calls.fails .persistStopped = none

/-- The engine has stopped, without a lease. -/
structure Settled (engine : Engine) : Prop where
  machine : engine.machine = .stopped
  stopped : engine.running = false
  lease : engine.lease = none

section Answers

variable {setup calls} {table : LeaseTable}

lemma StartCalls.not_granted (hrequire : setup.requireLease = true)
    (h : ∀ lease, calls.answer setup table ≠ .granted lease) : ¬ calls.Granted setup table := by
  intro hgranted
  obtain ⟨-, lease, hlease⟩ := hgranted hrequire
  exact h lease hlease

lemma StartCalls.not_leaseRefused (h : calls.answer setup table ≠ .refused) : ¬ calls.LeaseRefused setup table :=
  fun hrefused => h hrefused.2.2.1

lemma StartCalls.LeaseRefused.not_granted (h : calls.LeaseRefused setup table) : ¬ calls.Granted setup table :=
  StartCalls.not_granted h.1 (by simp [h.2.2.1])

end Answers

lemma takeLease_triple (table : LeaseTable) :
    Triple (fun s => During .starting s ∧ s.leases = table) (takeLease setup calls)
      (fun _ s => During .starting s ∧ calls.Granted setup table)
      (fun _ s => calls.LeaseRefused setup table ∧ Settled s ∨
        ¬ calls.Granted setup table ∧ ¬ calls.LeaseRefused setup table ∧ s.machine ≠ .stopped) := by
  rw [takeLease]
  split
  · rename_i hrequire
    have hstarting : ∀ s, During .starting s → s.machine ≠ .stopped := by
      intro s hs
      simp [hs.machine]
    apply triple_await
    · intro e he s hs
      refine .inr ⟨fun h => ?_, fun h => ?_, hstarting s hs.1⟩
      · rw [(h hrequire).1] at he
        cases he
      · rw [h.2.1] at he
        cases he
    intro hacquire
    apply triple_get
    rintro engine ⟨hengine, rfl⟩
    apply triple_modify (During .starting)
    · rintro s rfl
      exact ⟨hengine.machine, hengine.stopped⟩
    have hanswer : (acquireLease setup calls.runId calls.attempts engine.leases).1 = calls.answer setup engine.leases := rfl
    rw [hanswer]
    cases hresult : calls.answer setup engine.leases with
    | granted lease =>
      intro s hs
      rw [outcome_modify]
      exact ⟨⟨hs.machine, hs.stopped⟩, fun _ => ⟨hacquire, lease, hresult⟩⟩
    | refused =>
      apply triple_modify (fun s => During .starting s ∧ s.lease = none)
      · exact fun s hs => ⟨⟨hs.machine, hs.stopped⟩, rfl⟩
      apply triple_persistRun
      · exact fun s runs hs => ⟨⟨hs.1.machine, hs.1.stopped⟩, hs.2⟩
      · intro e he s hs
        refine .inr ⟨StartCalls.not_granted hrequire (by simp [hresult]), fun h => ?_, hstarting s hs.1⟩
        rw [h.2.2.2] at he
        cases he
      intro hpersist
      apply triple_transition Settled
      · exact fun s hs => ⟨by simp [hs.1.machine, RuntimeState.transitions], rfl, hs.1.stopped, hs.2⟩
      apply triple_throw
      exact fun s hs => .inl ⟨⟨hrequire, hacquire, hresult, hpersist⟩, hs⟩
    | conflict =>
      apply triple_throw
      exact fun s hs => .inr ⟨StartCalls.not_granted hrequire (by simp [hresult]),
        StartCalls.not_leaseRefused (by simp [hresult]), hstarting s hs⟩
    | stale =>
      apply triple_throw
      exact fun s hs => .inr ⟨StartCalls.not_granted hrequire (by simp [hresult]),
        StartCalls.not_leaseRefused (by simp [hresult]), hstarting s hs⟩
  · rename_i hrequire
    apply triple_pure
    exact fun s hs => ⟨hs.1, fun h => absurd h hrequire⟩

/-- Every call of the start returns, and the lease is granted where it is required. -/
def StartCalls.Succeeds (table : LeaseTable) : Prop :=
  calls.Clear firstPoints ∧ calls.Granted setup table ∧ calls.Clear activatePoints

/-- The start comes to the acquire, is refused, and writes the end of the run. -/
def StartCalls.Refused (table : LeaseTable) : Prop :=
  calls.Clear firstPoints ∧ calls.LeaseRefused setup table

variable {calls} in
lemma first_raises {table : LeaseTable} {p : StartPoint} (hp : p ∈ firstPoints) (e : String)
    (he : calls.fails p = some e) :
    ¬ calls.Succeeds setup table ∧ ¬ calls.Refused setup table :=
  ⟨fun h => StartCalls.not_clear he hp h.1, fun h => StartCalls.not_clear he hp h.1⟩

lemma start_triple (table : LeaseTable) :
    Triple (fun s => Settled s ∧ s.leases = table) (start setup calls)
      (fun _ s => calls.Succeeds setup table ∧ s.machine = .running ∧ s.running = true)
      (fun _ s => calls.Refused setup table ∧ Settled s ∨
        (¬ calls.Succeeds setup table ∧ ¬ calls.Refused setup table) ∧ s.machine ≠ .stopped) := by
  apply triple_get
  rintro engine ⟨hsettled, rfl⟩
  rw [if_neg (by simp [hsettled.stopped])]
  apply triple_modify (fun s => s.machine = .stopped ∧ s.running = false ∧ s.leases = engine.leases)
  · rintro s rfl
    exact ⟨hsettled.machine, hsettled.stopped, rfl⟩
  apply triple_transition (fun s => During .starting s ∧ s.leases = engine.leases)
  · exact fun s hs => ⟨by simp [hs.1, RuntimeState.transitions], ⟨rfl, hs.2.1⟩, hs.2.2⟩
  apply triple_persistRun
  · exact fun s runs hs => ⟨⟨hs.1.machine, hs.1.stopped⟩, hs.2⟩
  · exact fun e he s hs => .inr ⟨first_raises setup (by decide) e he, by simp [hs.1.machine]⟩
  intro hpersist
  apply triple_await
  · exact fun e he s hs => .inr ⟨first_raises setup (by decide) e he, by simp [hs.1.machine]⟩
  intro hconnect
  have hfirst : calls.Clear firstPoints := by
    simp [StartCalls.Clear, firstPoints, *]
  apply triple_modify (fun s => During .starting s ∧ s.leases = engine.leases)
  · exact fun s hs => ⟨⟨hs.1.machine, hs.1.stopped⟩, hs.2⟩
  apply triple_bind (Q := fun _ s => During .starting s ∧ calls.Granted setup engine.leases)
  · apply triple_post (takeLease_triple setup calls engine.leases)
    · exact fun _ s hs => hs
    · rintro _ s (⟨hrefused, hs⟩ | ⟨hgranted, hrefused, hs⟩)
      · exact .inl ⟨⟨hfirst, hrefused⟩, hs⟩
      · exact .inr ⟨⟨fun h => hgranted h.2.1, fun h => hrefused h.2⟩, hs⟩
  rintro ⟨⟩
  apply triple_assume
  intro hgranted
  apply triple_post (activate_triple setup calls)
  · exact fun _ s hs => ⟨⟨hfirst, hgranted, hs.1⟩, hs.2⟩
  · exact fun _ s hs => .inr ⟨⟨fun h => hs.1 h.2.2, fun h => h.2.not_granted hgranted⟩, hs.2⟩

end Start

/-! ### Stopping -/

section Stop

variable (setup : Setup) (calls : StopCalls) (engine : Engine)

def TasksAlive (tasks : List EngineTask) : Prop :=
  ∀ t ∈ tasks, t.failure = none

/-- No task has ended with an exception, and the release and the disconnect return. -/
structure StopCalls.Succeeds : Prop where
  tasks : TasksAlive engine.tasks
  release : ∀ lease ∈ engine.lease, calls.fails .release = none
  disconnect : calls.fails .disconnect = none

/-- The engine has stopped, and the row of its lease is gone. -/
structure Released (engine' : Engine) : Prop where
  settled : Settled engine'
  row : ∀ lease ∈ engine.lease, LeaseManager.rowOf setup.leaseKey lease.token engine'.leases = none

lemma awaitTasks_triple (P : Engine → Prop) (tasks : List EngineTask) : Triple P (awaitTasks tasks)
    (fun _ s => P s ∧ TasksAlive tasks) (fun _ s => P s ∧ ¬ TasksAlive tasks) := by
  induction tasks with
  | nil =>
    apply triple_pure
    exact fun s hs => ⟨hs, by simp [TasksAlive]⟩
  | cons task tasks ih =>
    apply triple_await
    · intro e he s hs
      refine ⟨hs, fun h => ?_⟩
      rw [h task (by simp)] at he
      cases he
    intro htask
    apply triple_post ih
    · rintro _ s ⟨hs, htasks⟩
      exact ⟨hs, by simpa [TasksAlive, htask] using htasks⟩
    · rintro _ s ⟨hs, htasks⟩
      exact ⟨hs, by simpa [TasksAlive, htask] using htasks⟩

/-- Between the cancellation of the tasks and the disconnect. -/
structure Stopping (lease : Option Lease) (s : Engine) : Prop where
  machine : s.machine = .running
  stopped : s.running = false
  lease : s.lease = lease

lemma rowOf_release (leaseKey token : String) (table : LeaseTable) :
    LeaseManager.rowOf leaseKey token (LeaseManager.release leaseKey token table).2 = none := by
  simp only [LeaseManager.rowOf, LeaseManager.release, List.find?_eq_none]
  intro row hrow hfound
  have hkept := List.of_mem_filter hrow
  grind

lemma releaseLease_triple : Triple (Stopping engine.lease) (releaseLease setup calls)
    (fun _ s => (Stopping none s ∧ ∀ lease ∈ engine.lease, LeaseManager.rowOf setup.leaseKey lease.token s.leases = none) ∧
      ∀ lease ∈ engine.lease, calls.fails .release = none)
    (fun _ s => s.machine = .running ∧ ¬ ∀ lease ∈ engine.lease, calls.fails .release = none) := by
  apply triple_get
  intro s hs
  cases hlease : s.lease with
  | none =>
    apply triple_pure
    rintro s' rfl
    rw [← hs.lease, hlease]
    exact ⟨⟨⟨hs.machine, hs.stopped, hlease⟩, by simp⟩, by simp⟩
  | some lease =>
    rw [← hs.lease, hlease]
    apply triple_await
    · rintro e he s' rfl
      refine ⟨hs.machine, fun h => ?_⟩
      rw [h lease rfl] at he
      cases he
    intro hrelease
    rintro s' rfl
    rw [outcome_modify]
    refine ⟨⟨⟨hs.machine, hs.stopped, rfl⟩, ?_⟩, fun _ _ => hrelease⟩
    rintro l ⟨⟩
    exact rowOf_release _ _ _

lemma stop_triple (hmachine : engine.machine = .running) (hrunning : engine.running = true) :
    Triple (fun s => s = engine) (stop setup calls) (fun _ s => calls.Succeeds engine ∧ Released setup engine s)
      (fun _ s => calls.Succeeds engine ∧ Released setup engine s ∨ ¬ calls.Succeeds engine ∧ s.machine ≠ .stopped) := by
  apply triple_get
  rintro s rfl
  rw [if_pos hrunning]
  apply triple_modify (Stopping s.lease)
  · rintro s' rfl
    exact ⟨hmachine, rfl, rfl⟩
  apply triple_bind (Q := fun _ s' => Stopping s.lease s' ∧ TasksAlive s.tasks)
  · apply triple_post (awaitTasks_triple (Stopping s.lease) s.tasks)
    · exact fun _ _ hs => hs
    · rintro _ s' ⟨hs, htasks⟩
      exact .inr ⟨fun h => htasks h.tasks, by simp [hs.machine]⟩
  rintro ⟨⟩
  apply triple_assume
  intro htasks
  apply triple_bind (Q := fun _ s' => (Stopping none s' ∧
    ∀ lease ∈ s.lease, LeaseManager.rowOf setup.leaseKey lease.token s'.leases = none) ∧
      ∀ lease ∈ s.lease, calls.fails .release = none)
  · apply triple_post (releaseLease_triple setup calls s)
    · exact fun _ _ hs => hs
    · rintro _ s' ⟨hs, hrelease⟩
      exact .inr ⟨fun h => hrelease h.release, by simp [hs]⟩
  rintro ⟨⟩
  apply triple_assume
  intro hrelease
  apply triple_await
  · intro e he s' hs
    refine .inr ⟨fun h => ?_, by simp [hs.1.machine]⟩
    rw [h.disconnect] at he
    cases he
  intro hdisconnect
  have hsucceeds : calls.Succeeds s := ⟨htasks, hrelease, hdisconnect⟩
  apply triple_modify (fun s' => Stopping none s' ∧
    ∀ lease ∈ s.lease, LeaseManager.rowOf setup.leaseKey lease.token s'.leases = none)
  · exact fun s' hs => ⟨⟨hs.1.machine, hs.1.stopped, hs.1.lease⟩, hs.2⟩
  apply triple_transition (fun s' => (s'.machine = .stopping ∧ s'.running = false ∧ s'.lease = none) ∧
    ∀ lease ∈ s.lease, LeaseManager.rowOf setup.leaseKey lease.token s'.leases = none)
  · exact fun s' hs => ⟨by simp [hs.1.machine, RuntimeState.transitions], ⟨rfl, hs.1.stopped, hs.1.lease⟩, hs.2⟩
  apply triple_transition (Released setup s)
  · exact fun s' hs => ⟨by simp [hs.1.1, RuntimeState.transitions], ⟨rfl, hs.1.2.1, hs.1.2.2⟩, hs.2⟩
  apply triple_persistRun
  · exact fun s' runs hs => ⟨⟨hs.settled.machine, hs.settled.stopped, hs.settled.lease⟩, hs.row⟩
  · exact fun _ _ s' hs => .inl ⟨hsucceeds, hs⟩
  intro _ s' hs
  cases calls.fails .log with
  | none => exact ⟨hsucceeds, hs⟩
  | some e => exact .inl ⟨hsucceeds, hs⟩

end Stop

/-! ### Histories -/

inductive Event where
  | start (calls : StartCalls)
  | stop (calls : StopCalls)
  /-- A background task ends with an exception. -/
  | taskEnds (name : TaskName) (error : String)
  /-- The lease loop, or another process, has written the lease table. -/
  | leases (table : LeaseTable)

section Histories

variable (setup : Setup)

def step (engine : Engine) : Event → Engine
  | .start calls => (outcome (start setup calls) engine).2
  | .stop calls => (outcome (stop setup calls) engine).2
  | .taskEnds name error =>
    { engine with
      tasks := engine.tasks.map fun t => if t.name = name then { t with failure := t.failure.or (some error) } else t }
  | .leases table => { engine with leases := table }

/-- The lease a start acquires, if it comes to the acquire. -/
def StartCalls.acquired (calls : StartCalls) (table : LeaseTable) : Option Lease :=
  if calls.Clear firstPoints ∧ setup.requireLease = true ∧ calls.fails .acquire = none then
    match calls.answer setup table with
    | .granted lease => some lease
    | _ => none
  else none

/-- Every start with healthy dependencies succeeds, whatever the lease table is by then. -/
def Restartable (engine : Engine) : Prop :=
  ∀ (calls : StartCalls) (table : LeaseTable), calls.Succeeds setup table → ∃ runId engine',
    outcome (start setup calls) { engine with leases := table } = (.ok runId, engine') ∧ engine'.machine = .running

/-- After an exception the engine has stopped, holds no lease of this start, and can be started
again. -/
def LeavesRestartable (engine : Engine) (calls : StartCalls) : Prop :=
  ∀ e engine', outcome (start setup calls) engine = (.error e, engine') →
    engine'.machine = .stopped ∧ engine'.lease = none ∧
      (∀ lease ∈ calls.acquired setup engine.leases,
        LeaseManager.rowOf setup.leaseKey lease.token engine'.leases = none) ∧
      Restartable setup engine'

def Orderly (engine : Engine) : Event → Prop
  | .start calls => LeavesRestartable setup engine calls
  | .stop calls => engine.running = true → Released setup engine (outcome (stop setup calls) engine).2
  | _ => True

/-- The start succeeds or is refused the lease, and the stop of an engine that runs succeeds. -/
def Met (engine : Engine) : Event → Prop
  | .start calls => engine.running = true ∨ calls.Succeeds setup engine.leases ∨ calls.Refused setup engine.leases
  | .stop calls => engine.running = true → calls.Succeeds engine
  | _ => True

/-- The engine runs, or has stopped without a lease. -/
def Idle (engine : Engine) : Prop :=
  engine.machine = .running ∧ engine.running = true ∨ Settled engine

variable {setup} {engine : Engine}

lemma start_of_running (calls : StartCalls) (h : engine.running = true) :
    outcome (start setup calls) engine = (.ok engine.runId, engine) := by
  rw [start, outcome_bind, outcome_get]
  simp only [h, if_true]
  rfl

lemma stop_of_stopped (calls : StopCalls) (h : engine.running = false) :
    outcome (stop setup calls) engine = (.ok (), engine) := by
  rw [stop, outcome_bind, outcome_get]
  simp only [h, Bool.false_eq_true, if_false]
  rfl

lemma Settled.restartable (h : Settled engine) : Restartable setup engine := by
  intro calls table hsucceeds
  have htriple := start_triple setup calls table { engine with leases := table } ⟨⟨h.machine, h.stopped, h.lease⟩, rfl⟩
  generalize outcome (start setup calls) { engine with leases := table } = result at htriple ⊢
  obtain ⟨e | runId, engine'⟩ := result
  · rcases htriple with ⟨hrefused, -⟩ | ⟨⟨hnot, -⟩, -⟩
    · exact absurd hsucceeds.2.1 hrefused.2.not_granted
    · exact absurd hsucceeds hnot
  · exact ⟨runId, engine', rfl, htriple.2.1⟩

lemma acquired_of_refused {calls : StartCalls} {table : LeaseTable} (h : calls.Refused setup table) :
    calls.acquired setup table = none := by
  rw [StartCalls.acquired, h.2.2.2.1]
  exact ite_self none

/-- From a settled engine the start is orderly exactly if it succeeds or is refused. -/
lemma leavesRestartable_iff (calls : StartCalls) (h : Settled engine) :
    LeavesRestartable setup engine calls ↔ calls.Succeeds setup engine.leases ∨ calls.Refused setup engine.leases := by
  have htriple := start_triple setup calls engine.leases engine ⟨h, rfl⟩
  unfold LeavesRestartable
  generalize outcome (start setup calls) engine = result at htriple ⊢
  obtain ⟨e | runId, engine'⟩ := result
  · rcases htriple with ⟨hrefused, hsettled⟩ | ⟨⟨hsucceeds, hrefused⟩, hmachine⟩
    · refine ⟨fun _ => .inr hrefused, fun _ => ?_⟩
      rintro _ _ ⟨⟩
      refine ⟨hsettled.machine, hsettled.lease, ?_, hsettled.restartable⟩
      rw [acquired_of_refused hrefused]
      exact fun lease hlease => nomatch hlease
    · constructor
      · intro horderly
        exact absurd (horderly e engine' rfl).1 hmachine
      · rintro (h | h)
        · exact absurd h hsucceeds
        · exact absurd h hrefused
  · constructor
    · exact fun _ => .inl htriple.1
    · intro _ e other heq
      cases heq

lemma idle_start {calls : StartCalls} (h : Settled engine)
    (hmet : calls.Succeeds setup engine.leases ∨ calls.Refused setup engine.leases) :
    Idle (outcome (start setup calls) engine).2 := by
  have htriple := start_triple setup calls engine.leases engine ⟨h, rfl⟩
  generalize outcome (start setup calls) engine = result at htriple ⊢
  obtain ⟨e | runId, engine'⟩ := result
  · rcases htriple with ⟨-, hsettled⟩ | ⟨⟨hsucceeds, hrefused⟩, -⟩
    · exact .inr hsettled
    · exact absurd hmet (not_or.mpr ⟨hsucceeds, hrefused⟩)
  · exact .inl htriple.2

variable (setup) in
lemma stop_ends (calls : StopCalls) (hmachine : engine.machine = .running) (hrunning : engine.running = true) :
    calls.Succeeds engine ∧ Released setup engine (outcome (stop setup calls) engine).2 ∨
      ¬ calls.Succeeds engine ∧ (outcome (stop setup calls) engine).2.machine ≠ .stopped := by
  have htriple := stop_triple setup calls engine hmachine hrunning engine rfl
  generalize outcome (stop setup calls) engine = result at htriple ⊢
  obtain ⟨e | a, engine'⟩ := result
  · exact htriple
  · exact .inl htriple

lemma orderly_step_iff (event : Event) (h : Idle engine) : Orderly setup engine event ↔ Met setup engine event := by
  cases event with
  | start calls =>
    rcases h with ⟨-, hrunning⟩ | hsettled
    · refine ⟨fun _ => .inl hrunning, fun _ => ?_⟩
      intro e engine' heq
      rw [start_of_running calls hrunning] at heq
      cases heq
    · have hstopped : ¬ engine.running = true := by simp [hsettled.stopped]
      exact (leavesRestartable_iff calls hsettled).trans (or_iff_right hstopped).symm
  | stop calls =>
    rcases h with ⟨hmachine, hrunning⟩ | hsettled
    · simp only [Orderly, Met, hrunning, true_imp_iff]
      rcases stop_ends setup calls hmachine hrunning with ⟨hsucceeds, hreleased⟩ | ⟨hnot, hstate⟩
      · exact iff_of_true hreleased hsucceeds
      · exact iff_of_false (fun hreleased => hstate hreleased.settled.machine) hnot
    · simp [Orderly, Met, hsettled.stopped]
  | taskEnds name error => exact Iff.rfl
  | leases table => exact Iff.rfl

lemma idle_step (event : Event) (h : Idle engine) (hmet : Met setup engine event) : Idle (step setup engine event) := by
  cases event with
  | start calls =>
    rcases h with hidle | hsettled
    · rw [step, start_of_running calls hidle.2]
      exact .inl hidle
    · have hstopped : ¬ engine.running = true := by simp [hsettled.stopped]
      exact idle_start hsettled (hmet.resolve_left hstopped)
  | stop calls =>
    rcases h with ⟨hmachine, hrunning⟩ | hsettled
    · rcases stop_ends setup calls hmachine hrunning with ⟨-, hreleased⟩ | ⟨hnot, -⟩
      · exact .inr hreleased.settled
      · exact absurd (hmet hrunning) hnot
    · rw [step, stop_of_stopped calls hsettled.stopped]
      exact .inr hsettled
  | taskEnds name error =>
    rcases h with hidle | hsettled
    · exact .inl hidle
    · exact .inr ⟨hsettled.machine, hsettled.stopped, hsettled.lease⟩
  | leases table =>
    rcases h with hidle | hsettled
    · exact .inl hidle
    · exact .inr ⟨hsettled.machine, hsettled.stopped, hsettled.lease⟩

end Histories

/-- In a history of a new engine every failed start leaves it restartable and every stop releases
it exactly if every start succeeds or is refused the lease, and every stop of the running engine
finds its tasks alive and is not failed by the release or the disconnect. -/
theorem orderly_iff (setup : Setup) (leases : LeaseTable) (runs : List EngineRun) (events : List Event) :
    Along (step setup) (Orderly setup) { leases := leases, runs := runs } events ↔
      Along (step setup) (Met setup) { leases := leases, runs := runs } events :=
  along_iff_along (I := Idle) (fun _ event h => orderly_step_iff event h)
    (fun _ event h horderly => idle_step event h ((orderly_step_iff event h).mp horderly))
    (.inr ⟨rfl, rfl, rfl⟩)

/-- The calls of a start whose lease row is new. -/
def firstStart (fails : StartPoint → Option String) : StartCalls where
  runId := "run_1"
  fails := fails
  attempts := [{ now := 0, token := "lease_1", seen := none, rowId := 1 }]
  clock := fun _ => 0

def unreachableExchange (p : StartPoint) : Option String :=
  if p = .recover then some "Unable to connect to OKX" else none

def stuck : Engine :=
  step {} {} (.start (firstStart unreachableExchange))

/-- Recovery raises: the engine stays in `RECOVERING` with its lease, no stop ends it, and the
next start raises. -/
theorem failed_recovery_blocks_start :
    ¬ Along (step {}) (Orderly {}) {} [.start (firstStart unreachableExchange)] ∧
      stuck.machine = .recovering ∧ stuck.lease.map Lease.token = some "lease_1" ∧
      stuck.leases.map RuntimeLease.token = ["lease_1"] ∧
      (∀ calls, step {} stuck (.stop calls) = stuck) ∧
      (outcome (start {} (firstStart fun _ => none)) stuck).1 =
        .error (.invalidStateTransition "RECOVERING -> STARTING invalid") := by
  refine ⟨?_, by decide +kernel, by decide +kernel, by decide +kernel, ?_, by decide +kernel⟩
  · rintro ⟨horderly, -⟩
    rcases (orderly_step_iff _ (.inr ⟨rfl, rfl, rfl⟩)).mp horderly with h | h | h
    · exact absurd h (by decide)
    · exact absurd (h.2.2 .recover (by decide)) (by decide)
    · exact absurd h.2.2.2.1 (by decide +kernel)
  · intro calls
    rw [step, stop_of_stopped calls (by decide +kernel)]

end Startup

end CryptoTrader
