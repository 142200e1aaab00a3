import CryptoTrader.Lib.TaskRegistry
import CryptoTrader.Runtime.BackgroundLoops

/-!
# The tasks of a supervisor

`TradingRuntimeSupervisor` with its tasks: the calls of `start` and `stop`, each at its own
awaits, the turns of every task that was created, and what other processes do to the lease. A
start after a lost renewal finds the loops alive, and creates each of them once more
(`loops_run_once`).
-/

namespace CryptoTrader

namespace SupervisorTasks

open TaskRegistry TaskRegistry.Registry BackgroundLoops Runs

/-- What `__init__` is given. -/
structure Options where
  leaseKey : String := "crypto_engine_execution"
  ownerId : String := "crypto-trading-primary"
  /-- The callbacks that are not `None`. -/
  callback : LoopName → Bool := fun _ => false

def ttlSeconds : ℚ := 30

/-- What the coroutine of a loop awaits. -/
inductive Await where
  | sleep
  | isCurrent (lease : Lease)
  | renew (lease : Lease)
  | callback
  deriving DecidableEq, Repr

inductive LoopCoroutine where
  | created
  | awaiting (what : Await)
  | finished
  deriving DecidableEq, Repr

/-- What the await gives. A call of the lease manager reads the time `now`; a callback may also
swallow the cancellation. -/
inductive Answer where
  | returned (now : ℚ)
  | raised
  | cancelled
  deriving DecidableEq, Repr

inductive Resumed where
  | awaits (what : Await)
  | returns
  | raises
  | cancelled
  deriving DecidableEq, Repr

/-- A call of `stop` at one of its awaits. -/
inductive StopCall where
  | awaiting (tasks : List ℕ)
  | releasing (lease : Lease)
  deriving DecidableEq, Repr

/-- The supervisor, with the calls under way: `ι` are the callers of `start` and `stop`, `κ` the
other processes. -/
structure Supervisor (ι κ : Type) where
  status : RuntimeStatus := { runtimeState := .stopped }
  lease : Option Lease := none
  stopping : Bool := false
  registry : Registry LoopName LoopCoroutine := {}
  starting : ι → Bool := fun _ => false
  stops : ι → Option StopCall := fun _ => none
  leases : LeaseState (ι ⊕ κ)

inductive Turn (ι κ : Type) where
  | start (i : ι)
  /-- The acquire of a start selects, also once more after a conflict. -/
  | acquireSelect (i : ι) (now : ℚ) (token : String)
  | acquireWrite (i : ι) (rowId : ℕ)
  | startRaises (i : ι)
  | task (k : ℕ) (answer : Answer)
  | stop (i : ι)
  | stopAwaited (i : ι)
  | stopRelease (i : ι)
  | stopRaises (i : ι)
  | other (turn : LeaseTurn κ)

/-! ### The loops -/

variable {ι κ : Type} (options : Options)

/-- The loops that `start` creates. -/
def loops : List LoopName :=
  [.marketData, .scanner, .strategy, .execution, .orderEvent, .userDataStream, .reconciliation, .leaseRenew, .heartbeat] ++
    if options.callback .aiPosition then [.aiPosition] else []

def mark (status : RuntimeStatus) : LoopName → RuntimeStatus
  | .marketData => { status with marketWs := true, marketHeartbeat := status.marketHeartbeat + 1 }
  | .scanner => { status with scannerHeartbeat := status.scannerHeartbeat + 1 }
  | .userDataStream => { status with userWs := true }
  | .reconciliation => { status with reconciliationHeartbeat := status.reconciliationHeartbeat + 1 }
  | .heartbeat => { status with database := true }
  | _ => status

namespace Supervisor

variable (self : Supervisor ι κ)

/-- `while not self._stopping`. -/
def again : Resumed :=
  if self.stopping then .returns else .awaits .sleep

def callback (name : LoopName) : Resumed :=
  if options.callback name then .awaits .callback else self.again

/-- The sleep is over. -/
def wake : LoopName → Resumed × RuntimeStatus
  | .strategy => (self.again, self.status)
  | .heartbeat => (self.again, mark self.status .heartbeat)
  | .execution =>
    match self.lease with
    | some lease => (.awaits (.isCurrent lease), self.status)
    | none => (self.again, { self.status with leaseValid := false })
  | .leaseRenew =>
    match self.lease with
    | some lease => (.awaits (.renew lease), self.status)
    | none => (self.again, self.status)
  | name => (self.callback options name, mark self.status name)

/-- The lease manager has answered the execution loop. -/
def asked (current : Bool) : Resumed × RuntimeStatus :=
  if current then (self.callback options .execution, { self.status with leaseValid := true })
  else (self.again, { self.status with leaseValid := false })

def renewed (ok : Bool) : Resumed × RuntimeStatus :=
  if ok then (self.again, { self.status with leaseRenewCount := self.status.leaseRenewCount + 1 })
  else (self.again, { self.status with runtimeState := .halted })

def resume (task : Task LoopName LoopCoroutine) (answer : Answer) : Resumed × RuntimeStatus :=
  match task.coroutine, answer with
  | .created, _ => (if task.cancelling then .cancelled else self.again, self.status)
  | .finished, _ => (if task.cancelling then .cancelled else .raises, self.status)
  | .awaiting .sleep, _ => if task.cancelling then (.cancelled, self.status) else self.wake options task.name
  | .awaiting _, .raised => (.raises, self.status)
  | .awaiting _, .cancelled => (.cancelled, self.status)
  | .awaiting .callback, .returned _ => (self.again, self.status)
  | .awaiting (.isCurrent lease), .returned now =>
    if task.cancelling then (.cancelled, self.status)
    else self.asked options
      (LeaseManager.isCurrent options.leaseKey lease.token now self.leases.table lease.fenceGeneration)
  | .awaiting (.renew lease), .returned now =>
    if task.cancelling then (.cancelled, self.status)
    else self.renewed (LeaseManager.renew options.leaseKey lease.token ttlSeconds now self.leases.table).1

/-- `_supervised` awaits the coroutine: after an exception a new task awaits it. -/
def supervised (k : ℕ) (name : LoopName) : Resumed → Registry LoopName LoopCoroutine
  | .awaits what => self.registry.suspend k (.awaiting what)
  | .returns => self.registry.finish k
  | .cancelled => self.registry.finish k
  | .raises =>
    if self.stopping then self.registry.finish k else (self.registry.finish k).create name .finished

def runTask (k : ℕ) (answer : Answer) : Supervisor ι κ :=
  match self.registry.tasks[k]? with
  | none => self
  | some task =>
    if task.done then self
    else
      let (resumed, status) := self.resume options task answer
      { self with status := status, registry := self.supervised k task.name resumed }

/-- What a task's turn does in the database. -/
def renewal (k : ℕ) : Answer → Option (LeaseTurn (ι ⊕ κ))
  | .returned now =>
    match self.registry.tasks[k]? with
    | some { coroutine := .awaiting (.renew lease), cancelling := false, done := false, .. } =>
      some (.renew options.leaseKey lease.token ttlSeconds now)
    | _ => none
  | _ => none

end Supervisor

/-! ### One tick -/

namespace Supervisor

variable (self : Supervisor ι κ) (input : TickInput)

/-- The callback runs without another turn before its end. -/
def calledBack (after : Resumed × RuntimeStatus) : Resumed × RuntimeStatus :=
  match after.1, input.callback with
  | .awaits .callback, none => (self.again, after.2)
  | .awaits .callback, some _ => (.raises, after.2)
  | _, _ => after

/-- From the end of a sleep to the next one, without another turn in between. -/
def tick (name : LoopName) : Resumed × RuntimeStatus :=
  match (self.wake options name).1 with
  | .awaits (.isCurrent _) =>
    match input.isCurrent with
    | .ok current => self.calledBack input (self.asked options current)
    | .error _ => (.raises, self.status)
  | .awaits (.renew _) =>
    match input.renew with
    | .ok ok => self.renewed ok
    | .error _ => (.raises, self.status)
  | _ => self.calledBack input (self.wake options name)

/-- What a loop's body does to its coroutine. -/
def ofOutcome : Except String Unit × Shared → Resumed × RuntimeStatus
  | (.ok _, shared) => (self.again, shared.status)
  | (.error _, shared) => (.raises, shared.status)

variable {options self input} {name : LoopName} {status : RuntimeStatus}

lemma calledBack_again : self.calledBack input (self.again, status) = (self.again, status) := by
  unfold calledBack again
  cases self.stopping <;> rfl

lemma calledBack_callback (calls : ℕ) :
    self.calledBack input (self.callback options name, status) = self.ofOutcome
      (Triples.outcome (if options.callback name then call input.callback else pure ()) { status, calls }) := by
  unfold callback
  cases options.callback name with
  | false => exact calledBack_again
  | true => cases hcallback : input.callback <;> simp only [calledBack, hcallback] <;> rfl

lemma tick_of_again (h : self.wake options name = (self.again, status)) :
    self.tick options input name = (self.again, status) := by
  have hback : self.calledBack input (self.again, status) = (self.again, status) := calledBack_again
  rw [← hback]
  unfold tick
  rw [h]
  unfold again
  cases self.stopping <;> rfl

lemma tick_of_callback (h : self.wake options name = (self.callback options name, status)) :
    self.tick options input name = self.calledBack input (self.callback options name, status) := by
  unfold tick
  rw [h]
  unfold callback again
  cases options.callback name <;> cases self.stopping <;> rfl

lemma outcome_markedLoop (mark : RuntimeStatus → RuntimeStatus) (callback : Bool) (shared : Shared) :
    Triples.outcome (markedLoop mark callback input) shared =
      Triples.outcome (if callback then call input.callback else pure ()) { shared with status := mark shared.status } := by
  unfold markedLoop
  rw [Triples.outcome_bind, outcome_write]

lemma tick_marked {f : RuntimeStatus → RuntimeStatus} (calls : ℕ)
    (h : self.wake options name = (self.callback options name, f self.status)) :
    self.tick options input name = self.ofOutcome
      (Triples.outcome (markedLoop f (options.callback name) input) { status := self.status, calls }) := by
  rw [tick_of_callback h, outcome_markedLoop]
  exact calledBack_callback calls

variable (self input name) in
/-- Without another turn in between, the coroutine of a loop does what the loop's body does. -/
theorem tick_eq_body (calls : ℕ) :
    self.tick options input name = self.ofOutcome (Triples.outcome
      (body { callback := options.callback, lease := self.lease } name input) { status := self.status, calls }) := by
  cases name with
  | execution =>
    cases hlease : self.lease with
    | none =>
      have hwake : self.wake options .execution = (self.again, { self.status with leaseValid := false }) := by
        simp only [wake, hlease]
      rw [tick_of_again hwake]
      rfl
    | some lease =>
      simp only [tick, wake, hlease, body, executionLoop]
      cases hcurrent : input.isCurrent with
      | error e => rfl
      | ok current =>
        cases current with
        | true => exact calledBack_callback calls
        | false => exact calledBack_again
  | leaseRenew =>
    cases hlease : self.lease with
    | none =>
      have hwake : self.wake options .leaseRenew = (self.again, self.status) := by simp only [wake, hlease]
      rw [tick_of_again hwake]
      rfl
    | some lease =>
      simp only [tick, wake, hlease, body, leaseRenewLoop]
      cases hrenew : input.renew with
      | error e => rfl
      | ok ok => cases ok <;> rfl
  | strategy => exact tick_of_again rfl
  | heartbeat => exact tick_of_again rfl
  | marketData => exact tick_marked calls rfl
  | scanner => exact tick_marked calls rfl
  | orderEvent => exact tick_marked (f := id) calls rfl
  | userDataStream => exact tick_marked calls rfl
  | reconciliation => exact tick_marked calls rfl
  | aiPosition => exact tick_marked (f := id) calls rfl

end Supervisor

/-! ### The calls -/

def ofOther : LeaseTurn κ → LeaseTurn (ι ⊕ κ)
  | .tick elapsed => .tick elapsed
  | .select i leaseKey ownerId ttlSeconds now token => .select (.inr i) leaseKey ownerId ttlSeconds now token
  | .write i rowId => .write (.inr i) rowId
  | .renew leaseKey token ttlSeconds now => .renew leaseKey token ttlSeconds now
  | .release leaseKey token => .release leaseKey token
  | .crash i => .crash (.inr i)

section Steps

variable [DecidableEq ι] [DecidableEq κ] (self : Supervisor ι κ)

/-- `start` after the acquire. -/
def Supervisor.started (i : ι) : AcquireResult → Supervisor ι κ
  | .granted lease =>
    { self with
      lease := some lease
      status := { self.status with runtimeState := .running }
      stopping := false
      registry := self.registry.createAll (loops options) .created
      starting := Function.update self.starting i false }
  | .refused =>
    { self with
      lease := none
      status := { self.status with runtimeState := .halted }
      starting := Function.update self.starting i false }
  | .conflict => self
  | .stale => { self with starting := Function.update self.starting i false }

/-- What a turn does in the database. -/
def Turn.statement : Turn ι κ → Option (LeaseTurn (ι ⊕ κ))
  | .acquireSelect i now token =>
    if self.starting i = true ∧ self.leases.calls (.inl i) = none then
      some (.select (.inl i) options.leaseKey options.ownerId ttlSeconds now token)
    else none
  | .acquireWrite i rowId => some (.write (.inl i) rowId)
  | .startRaises i => some (.crash (.inl i))
  | .task k answer => self.renewal options k answer
  | .stopRelease i =>
    match self.stops i with
    | some (.releasing lease) => some (.release options.leaseKey lease.token)
    | _ => none
  | .other turn => some (ofOther turn)
  | _ => none

def Turn.local : Turn ι κ → Supervisor ι κ
  | .start i =>
    if self.status.runtimeState = .running then self
    else { self with starting := Function.update self.starting i true }
  | .acquireSelect _ _ _ => self
  | .acquireWrite i rowId =>
    match self.leases.calls (.inl i) with
    | none => self
    | some call => self.started options i (call.write rowId self.leases.table).1
  | .startRaises i => { self with starting := Function.update self.starting i false }
  | .task k answer => self.runTask options k answer
  | .stop i =>
    { self with
      stopping := true
      registry := (self.registry.values (loops options)).foldl Registry.cancel self.registry
      stops := Function.update self.stops i (some (.awaiting (self.registry.values (loops options)))) }
  | .stopAwaited i =>
    match self.stops i with
    | some (.awaiting tasks) =>
      if ∀ k ∈ tasks, ∀ task ∈ self.registry.tasks[k]?, task.done = true then
        match self.lease with
        | some lease => { self with stops := Function.update self.stops i (some (.releasing lease)) }
        | none =>
          { self with
            status := { self.status with runtimeState := .stopped }
            stops := Function.update self.stops i none }
      else self
    | _ => self
  | .stopRelease i =>
    match self.stops i with
    | some (.releasing _) =>
      { self with
        status := { self.status with runtimeState := .stopped }
        stops := Function.update self.stops i none }
    | _ => self
  | .stopRaises i =>
    match self.stops i with
    | some (.releasing _) => { self with stops := Function.update self.stops i none }
    | _ => self
  | .other _ => self

def step (turn : Turn ι κ) : Supervisor ι κ :=
  { turn.local options self with leases := leaseStep? self.leases (turn.statement options self) }

def Turn.Proper (turn : Turn ι κ) : Prop :=
  ∀ t ∈ turn.statement options self, t.Proper self.leases

/-- No loop has two live tasks; where `stop` has returned and no start has acquired since, no task
is alive, and the lease is released. -/
structure LoopsOnce (st : Supervisor ι κ) : Prop where
  oneEach : st.registry.OneEach
  stopped : st.status.runtimeState = .stopped → st.registry.Idle ∧
    ∀ lease ∈ st.lease, LeaseManager.rowOf options.leaseKey lease.token st.leases.table = none

/-- The turn is the return of a start that has acquired the lease. -/
def Turn.Acquires (turn : Turn ι κ) : Prop :=
  ∃ i rowId call lease, turn = .acquireWrite i rowId ∧ self.leases.calls (.inl i) = some call ∧
    (call.write rowId self.leases.table).1 = .granted lease

/-- A start that acquires the lease finds no task alive. -/
def Turn.FindsIdle (turn : Turn ι κ) : Prop :=
  turn.Acquires self → self.registry.Idle

/-- A start that acquires the lease finds no stop under way. -/
def Turn.FindsNoStop (turn : Turn ι κ) : Prop :=
  turn.Acquires self → ∀ i, self.stops i = none

/-! ### What a turn does -/

variable {options self}

variable (options) in
/-- A turn in which no start acquires the lease: no task becomes alive while the supervisor is
stopping or no task is alive. -/
structure Quiet (st next : Supervisor ι κ) : Prop where
  lease : ∀ lease ∈ next.lease, lease ∈ st.lease
  stopping : st.stopping = true → next.stopping = true
  tracked : st.registry.Tracked → next.registry.Tracked
  named : st.registry.Named (loops options) → next.registry.Named (loops options)
  live : st.stopping = true ∨ st.registry.Idle → ∀ k name, next.registry.Live k name → st.registry.Live k name

omit [DecidableEq ι] [DecidableEq κ] in
lemma Quiet.of_same {next : Supervisor ι κ} (hlease : ∀ lease ∈ next.lease, lease ∈ self.lease)
    (hstopping : next.stopping = self.stopping) (hregistry : next.registry = self.registry) :
    Quiet options self next where
  lease := hlease
  stopping := fun h => hstopping.trans h
  tracked := fun h => hregistry ▸ h
  named := fun h => hregistry ▸ h
  live := fun _ _ _ h => hregistry ▸ h

omit [DecidableEq ι] [DecidableEq κ] in
/-- The task of a turn goes on, or is over, and then leaves at most one new task under its own name. -/
lemma supervised_cases (k : ℕ) (name : LoopName) (resumed : Resumed) :
    (∃ coroutine, self.supervised k name resumed = self.registry.suspend k coroutine) ∨
      self.supervised k name resumed = self.registry.finish k ∨
      self.stopping = false ∧ self.supervised k name resumed = (self.registry.finish k).create name .finished := by
  cases resumed with
  | awaits what => exact .inl ⟨_, rfl⟩
  | returns => exact .inr (.inl rfl)
  | cancelled => exact .inr (.inl rfl)
  | raises =>
    cases hstopping : self.stopping with
    | true => exact .inr (.inl (if_pos hstopping))
    | false => exact .inr (.inr ⟨rfl, if_neg (by simp [hstopping])⟩)

omit [DecidableEq ι] [DecidableEq κ] in
lemma tracked_supervised (h : self.registry.Tracked) {k : ℕ} {task : Task LoopName LoopCoroutine}
    (htask : self.registry.tasks[k]? = some task) (hdone : task.done = false) (resumed : Resumed) :
    (self.supervised k task.name resumed).Tracked := by
  rcases supervised_cases k task.name resumed with ⟨coroutine, heq⟩ | heq | ⟨-, heq⟩ <;> rw [heq]
  · exact h.suspend k coroutine
  · exact h.finish k
  · apply (h.finish k).create
    intro j hj
    obtain ⟨hlive, hne⟩ := live_finish.mp hj
    exact hne (h.oneEach j k task.name hlive ⟨task, htask, rfl, hdone⟩)

omit [DecidableEq ι] [DecidableEq κ] in
lemma named_supervised (h : self.registry.Named (loops options)) {k : ℕ} {task : Task LoopName LoopCoroutine}
    (htask : self.registry.tasks[k]? = some task) (resumed : Resumed) :
    (self.supervised k task.name resumed).Named (loops options) := by
  rcases supervised_cases k task.name resumed with ⟨coroutine, heq⟩ | heq | ⟨-, heq⟩ <;> rw [heq]
  · exact h.suspend k coroutine
  · exact h.finish k
  · exact (h.finish k).create (h task (List.mem_of_getElem? htask)) _

omit [DecidableEq ι] [DecidableEq κ] in
lemma live_supervised (hstopping : self.stopping = true) {k j : ℕ} {name m : LoopName} {resumed : Resumed}
    (h : (self.supervised k name resumed).Live j m) : self.registry.Live j m := by
  rcases supervised_cases k name resumed with ⟨coroutine, heq⟩ | heq | ⟨hnot, -⟩
  · rw [heq] at h
    exact live_suspend.mp h
  · rw [heq] at h
    exact (live_finish.mp h).1
  · rw [hstopping] at hnot
    contradiction

omit [DecidableEq ι] [DecidableEq κ] in
lemma quiet_runTask (k : ℕ) (answer : Answer) : Quiet options self (self.runTask options k answer) := by
  unfold Supervisor.runTask
  cases htask : self.registry.tasks[k]? with
  | none => exact .of_same (fun _ h => h) rfl rfl
  | some task =>
    dsimp only
    cases hdone : task.done with
    | true => exact .of_same (fun _ h => h) rfl rfl
    | false =>
      refine ⟨fun _ h => h, id, fun h => ?_, fun h => ?_, fun h j name hlive => ?_⟩
      · exact tracked_supervised h htask hdone _
      · exact named_supervised h htask _
      · rcases h with hstopping | hidle
        · exact live_supervised hstopping hlive
        · -- No task is alive, and so none runs.
          exact absurd ⟨task, htask, rfl, hdone⟩ (idle_iff.mp hidle k task.name)

omit [DecidableEq κ] in
lemma quiet_started {i : ι} {result : AcquireResult} (h : ∀ lease, result ≠ .granted lease) :
    Quiet options self (self.started options i result) := by
  cases result with
  | granted lease => exact absurd rfl (h lease)
  | refused => exact .of_same (fun _ hlease => nomatch hlease) rfl rfl
  | conflict => exact .of_same (fun _ hlease => hlease) rfl rfl
  | stale => exact .of_same (fun _ hlease => hlease) rfl rfl

lemma quiet_step {turn : Turn ι κ} (h : ¬turn.Acquires self) : Quiet options self (step options self turn) := by
  have hlocal : Quiet options self (turn.local options self) := by
    cases turn with
    | start i =>
      simp only [Turn.local]
      split <;> exact .of_same (fun _ hlease => hlease) rfl rfl
    | acquireSelect i now token => exact .of_same (fun _ hlease => hlease) rfl rfl
    | acquireWrite i rowId =>
      simp only [Turn.local]
      cases hcall : self.leases.calls (.inl i) with
      | none => exact .of_same (fun _ hlease => hlease) rfl rfl
      | some call => exact quiet_started fun lease hgranted => h ⟨i, rowId, call, lease, rfl, hcall, hgranted⟩
    | startRaises i => exact .of_same (fun _ hlease => hlease) rfl rfl
    | task k answer => exact quiet_runTask k answer
    | stop i =>
      exact ⟨fun _ hlease => hlease, fun _ => rfl, fun htracked => htracked.foldl_cancel _, fun hnamed => hnamed.foldl_cancel _,
        fun _ _ _ hlive => live_foldl_cancel.mp hlive⟩
    | stopAwaited i =>
      simp only [Turn.local]
      split
      · split
        · split <;> exact .of_same (fun _ hlease => hlease) rfl rfl
        · exact .of_same (fun _ hlease => hlease) rfl rfl
      · exact .of_same (fun _ hlease => hlease) rfl rfl
    | stopRelease i =>
      simp only [Turn.local]
      split <;> exact .of_same (fun _ hlease => hlease) rfl rfl
    | stopRaises i =>
      simp only [Turn.local]
      split <;> exact .of_same (fun _ hlease => hlease) rfl rfl
    | other turn => exact .of_same (fun _ hlease => hlease) rfl rfl
  exact ⟨hlocal.lease, hlocal.stopping, hlocal.tracked, hlocal.named, hlocal.live⟩

/-- All the tasks that a stop awaits are done. -/
def Supervisor.Awaited (self : Supervisor ι κ) (i : ι) : Prop :=
  ∃ tasks, self.stops i = some (.awaiting tasks) ∧ ∀ k ∈ tasks, ∀ task ∈ self.registry.tasks[k]?, task.done = true

/-- A stop under way after a turn was at the same await before, or was called, or has awaited the
tasks. -/
lemma stops_step {turn : Turn ι κ} {i : ι} {call : StopCall} (h : (step options self turn).stops i = some call) :
    self.stops i = some call ∨
      turn = .stop i ∧ call = .awaiting (self.registry.values (loops options)) ∨
      ∃ lease, turn = .stopAwaited i ∧ self.Awaited i ∧ self.lease = some lease ∧ call = .releasing lease := by
  change (turn.local options self).stops i = some call at h
  cases turn with
  | start j =>
    simp only [Turn.local] at h
    split at h <;> exact .inl h
  | acquireSelect j now token => exact .inl h
  | acquireWrite j rowId =>
    simp only [Turn.local] at h
    cases hcall : self.leases.calls (.inl j) with
    | none =>
      rw [hcall] at h
      exact .inl h
    | some acquire =>
      simp only [hcall] at h
      cases hresult : (acquire.write rowId self.leases.table).1 <;> rw [hresult] at h <;> exact .inl h
  | startRaises j => exact .inl h
  | task k answer =>
    simp only [Turn.local, Supervisor.runTask] at h
    split at h
    · exact .inl h
    · split at h <;> exact .inl h
  | stop j =>
    by_cases hij : i = j
    · subst hij
      simp only [Turn.local, Function.update_self, Option.some.injEq] at h
      exact .inr (.inl ⟨rfl, h.symm⟩)
    · simp only [Turn.local, Function.update_of_ne hij] at h
      exact .inl h
  | stopAwaited j =>
    simp only [Turn.local] at h
    split at h
    · rename_i tasks htasks
      split at h
      · rename_i hdone
        by_cases hij : i = j
        · subst hij
          split at h
          · rename_i lease hlease
            simp only [Function.update_self, Option.some.injEq] at h
            exact .inr (.inr ⟨lease, rfl, ⟨tasks, htasks, hdone⟩, hlease, h.symm⟩)
          · simp at h
        · split at h <;> simp only [Function.update_of_ne hij] at h <;> exact .inl h
      · exact .inl h
    · exact .inl h
  | stopRelease j =>
    simp only [Turn.local] at h
    split at h
    · by_cases hij : i = j
      · simp [hij] at h
      · simp only [Function.update_of_ne hij] at h
        exact .inl h
    · exact .inl h
  | stopRaises j =>
    simp only [Turn.local] at h
    split at h
    · by_cases hij : i = j
      · simp [hij] at h
      · simp only [Function.update_of_ne hij] at h
        exact .inl h
    · exact .inl h
  | other turn => exact .inl h

variable (options self) in
omit [DecidableEq ι] [DecidableEq κ] in
/-- A turn of a task leaves the runtime state, or halts. -/
lemma runtimeState_resume (task : Task LoopName LoopCoroutine) (answer : Answer) :
    (self.resume options task answer).2.runtimeState = self.status.runtimeState ∨
      (self.resume options task answer).2.runtimeState = .halted := by
  have hwake : ∀ name, (self.wake options name).2.runtimeState = self.status.runtimeState := by
    intro name
    cases name with
    | execution => cases hlease : self.lease <;> simp [Supervisor.wake, hlease]
    | leaseRenew => cases hlease : self.lease <;> simp [Supervisor.wake, hlease]
    | _ => rfl
  unfold Supervisor.resume
  split
  · exact .inl rfl
  · exact .inl rfl
  · split
    · exact .inl rfl
    · exact .inl (hwake task.name)
  · exact .inl rfl
  · exact .inl rfl
  · exact .inl rfl
  · split
    · exact .inl rfl
    · unfold Supervisor.asked
      split <;> exact .inl rfl
  · split
    · exact .inl rfl
    · unfold Supervisor.renewed
      split
      · exact .inl rfl
      · exact .inr rfl

/-- The runtime is stopped after a turn if it was before, or if a stop has just returned. -/
lemma stopped_step {turn : Turn ι κ} (h : (step options self turn).status.runtimeState = .stopped) :
    self.status.runtimeState = .stopped ∨
      (∃ i, turn = .stopAwaited i ∧ self.Awaited i ∧ self.lease = none) ∨
      ∃ i lease, turn = .stopRelease i ∧ self.stops i = some (.releasing lease) := by
  change (turn.local options self).status.runtimeState = .stopped at h
  cases turn with
  | start i =>
    simp only [Turn.local] at h
    split at h <;> exact .inl h
  | acquireSelect i now token => exact .inl h
  | acquireWrite i rowId =>
    simp only [Turn.local] at h
    cases hcall : self.leases.calls (.inl i) with
    | none =>
      rw [hcall] at h
      exact .inl h
    | some call =>
      simp only [hcall] at h
      cases hresult : (call.write rowId self.leases.table).1 <;> rw [hresult] at h
      case granted => contradiction
      case refused => contradiction
      case conflict => exact .inl h
      case stale => exact .inl h
  | startRaises i => exact .inl h
  | task k answer =>
    simp only [Turn.local, Supervisor.runTask] at h
    split at h
    · exact .inl h
    · rename_i task _
      split at h
      · exact .inl h
      · rcases runtimeState_resume options self task answer with hsame | hhalted
        · exact .inl (hsame.symm.trans h)
        · rw [hhalted] at h
          contradiction
  | stop i => exact .inl h
  | stopAwaited i =>
    simp only [Turn.local] at h
    split at h
    · rename_i tasks htasks
      split at h
      · rename_i hdone
        split at h
        · exact .inl h
        · exact .inr (.inl ⟨i, rfl, ⟨tasks, htasks, hdone⟩, ‹_›⟩)
      · exact .inl h
    · exact .inl h
  | stopRelease i =>
    simp only [Turn.local] at h
    split at h
    · exact .inr (.inr ⟨i, _, rfl, ‹_›⟩)
    · exact .inl h
  | stopRaises i =>
    simp only [Turn.local] at h
    split at h <;> exact .inl h
  | other turn => exact .inl h

/-! ### The invariant -/

variable (options) in
/-- A stop under way knows every live task, and a stop that has awaited them knows the lease. -/
structure TasksInv (st : Supervisor ι κ) : Prop where
  leases : LeaseInv st.leases
  spent : ∀ lease ∈ st.lease, Spent st.leases lease.token
  tracked : st.registry.Tracked
  named : st.registry.Named (loops options)
  awaiting : ∀ i tasks, st.stops i = some (.awaiting tasks) →
    st.stopping = true ∧ ∀ k name, st.registry.Live k name → k ∈ tasks
  releasing : ∀ i lease, st.stops i = some (.releasing lease) →
    st.stopping = true ∧ st.registry.Idle ∧ ∀ l ∈ st.lease, l = lease
  stopped : st.status.runtimeState = .stopped → st.registry.Idle ∧
    ∀ lease ∈ st.lease, Gone options.leaseKey lease.token st.leases

omit [DecidableEq ι] [DecidableEq κ] in
lemma TasksInv.loopsOnce {st : Supervisor ι κ} (inv : TasksInv options st) : LoopsOnce options st where
  oneEach := inv.tracked.oneEach
  stopped := fun h => ⟨(inv.stopped h).1, fun lease hlease => ((inv.stopped h).2 lease hlease).2⟩

omit [DecidableEq ι] [DecidableEq κ] in
lemma TasksInv.idle_of_awaited (inv : TasksInv options self) {i : ι} (h : self.Awaited i) :
    self.stopping = true ∧ self.registry.Idle := by
  obtain ⟨tasks, htasks, hdone⟩ := h
  obtain ⟨hstopping, hknown⟩ := inv.awaiting i tasks htasks
  refine ⟨hstopping, idle_iff.mpr ?_⟩
  intro k name hlive
  have hmem : k ∈ tasks := hknown k name hlive
  obtain ⟨task, htask, -, hnot⟩ := hlive
  rw [hdone k hmem task htask] at hnot
  contradiction

lemma keeps_step {P : LeaseState (ι ⊕ κ) → Prop} {turn : Turn ι κ} (hp : turn.Proper options self) (h : P self.leases)
    (hstep : ∀ t : LeaseTurn (ι ⊕ κ), t.Proper self.leases → P (leaseStep self.leases t)) :
    P (step options self turn).leases :=
  leaseStep?_keeps h hstep hp

omit [DecidableEq ι] [DecidableEq κ] in
lemma Quiet.idle {next : Supervisor ι κ} (h : Quiet options self next) (hidle : self.registry.Idle) :
    next.registry.Idle :=
  idle_iff.mpr fun k name hlive => idle_iff.mp hidle k name (h.live (.inr hidle) k name hlive)

lemma TasksInv.step_quiet (inv : TasksInv options self) {turn : Turn ι κ} (hp : turn.Proper options self)
    (h : ¬turn.Acquires self) : TasksInv options (step options self turn) where
  leases := keeps_step hp inv.leases fun _ ht => inv.leases.step ht
  spent := by
    intro lease hlease
    have hspent := inv.spent lease ((quiet_step h).lease lease hlease)
    exact keeps_step (P := fun leases => Spent leases lease.token) hp hspent fun _ ht => hspent.step ht
  tracked := (quiet_step h).tracked inv.tracked
  named := (quiet_step h).named inv.named
  awaiting := by
    intro i tasks hstop
    rcases stops_step hstop with hbefore | ⟨rfl, hcall⟩ | ⟨_, _, _, _, hcall⟩
    · obtain ⟨hstopping, hknown⟩ := inv.awaiting i tasks hbefore
      refine ⟨(quiet_step h).stopping hstopping, fun k name hlive => ?_⟩
      exact hknown k name ((quiet_step h).live (.inl hstopping) k name hlive)
    · injection hcall with htasks
      refine ⟨rfl, fun k name hlive => ?_⟩
      rw [htasks]
      exact (live_foldl_cancel.mp hlive).mem_values inv.tracked inv.named
    · contradiction
  releasing := by
    intro i lease hstop
    rcases stops_step hstop with hbefore | ⟨_, hcall⟩ | ⟨held, _, hawaited, hheld, hcall⟩
    · obtain ⟨hstopping, hidle, hlease⟩ := inv.releasing i lease hbefore
      exact ⟨(quiet_step h).stopping hstopping, (quiet_step h).idle hidle,
        fun l hl => hlease l ((quiet_step h).lease l hl)⟩
    · contradiction
    · injection hcall with hcall
      obtain ⟨hstopping, hidle⟩ := inv.idle_of_awaited hawaited
      refine ⟨(quiet_step h).stopping hstopping, (quiet_step h).idle hidle, fun l hl => ?_⟩
      have hl : self.lease = some l := (quiet_step h).lease l hl
      rw [hheld] at hl
      exact (Option.some.inj hl).symm.trans hcall.symm
  stopped := by
    intro hstate
    rcases stopped_step hstate with hbefore | ⟨i, rfl, hawaited, hnone⟩ | ⟨i, lease, rfl, hstop⟩
    · obtain ⟨hidle, hgone⟩ := inv.stopped hbefore
      refine ⟨(quiet_step h).idle hidle, fun l hl => ?_⟩
      have hl := hgone l ((quiet_step h).lease l hl)
      exact keeps_step hp hl fun _ ht => hl.step ht
    · refine ⟨(quiet_step h).idle (inv.idle_of_awaited hawaited).2, fun l hl => ?_⟩
      have hl : self.lease = some l := (quiet_step h).lease l hl
      rw [hnone] at hl
      contradiction
    · obtain ⟨-, hidle, hlease⟩ := inv.releasing i lease hstop
      refine ⟨(quiet_step h).idle hidle, fun l hl => ?_⟩
      have hl := (quiet_step h).lease l hl
      have hspent := inv.spent l hl
      refine ⟨keeps_step (P := fun leases => Spent leases l.token) hp hspent fun _ ht => hspent.step ht, ?_⟩
      simp only [step, Turn.statement, hstop, hlease l hl]
      exact rowOf_release_self options.leaseKey lease.token self.leases.table

omit [DecidableEq ι] [DecidableEq κ] in
lemma nodup_loops (options : Options) : (loops options).Nodup := by
  unfold loops
  split <;> decide

lemma acquired_step {i : ι} {rowId : ℕ} {call : AcquireCall} {lease : Lease} (hcall : self.leases.calls (.inl i) = some call)
    (hgranted : (call.write rowId self.leases.table).1 = .granted lease) :
    step options self (.acquireWrite i rowId) = { self.started options i (.granted lease) with
      leases := leaseStep self.leases (.write (.inl i) rowId) } := by
  unfold step Turn.local
  simp only [hcall, hgranted]
  rfl

lemma TasksInv.step_acquires (inv : TasksInv options self) {turn : Turn ι κ} (hp : turn.Proper options self)
    (h : turn.Acquires self) (hidle : turn.FindsIdle self) (hstops : turn.FindsNoStop self) :
    TasksInv options (step options self turn) := by
  have hnone := hstops h
  have hfree := idle_iff.mp (hidle h)
  obtain ⟨i, rowId, call, lease, rfl, hcall, hgranted⟩ := h
  have hproper : (LeaseTurn.write (.inl i) rowId : LeaseTurn (ι ⊕ κ)).Proper self.leases := hp _ rfl
  rw [acquired_step hcall hgranted]
  constructor
  case leases => exact inv.leases.step hproper
  case spent =>
    intro l hl
    obtain rfl : lease = l := Option.some.inj hl
    exact inv.leases.granted_spent hcall hproper hgranted
  case tracked => exact inv.tracked.createAll (nodup_loops options) (fun name _ k => hfree k name) _
  case named => exact inv.named.createAll (fun _ hname => hname) _
  case awaiting =>
    intro j tasks hstop
    exact nomatch (hnone j).symm.trans hstop
  case releasing =>
    intro j held hstop
    exact nomatch (hnone j).symm.trans hstop
  case stopped => exact fun hstate => nomatch hstate

theorem TasksInv.step (inv : TasksInv options self) {turn : Turn ι κ} (hp : turn.Proper options self)
    (hidle : turn.FindsIdle self) (hstops : turn.FindsNoStop self) : TasksInv options (step options self turn) := by
  by_cases h : turn.Acquires self
  · exact inv.step_acquires hp h hidle hstops
  · exact inv.step_quiet hp h

/-- The names are those of the loops, whatever the turns are. -/
lemma named_step (h : self.registry.Named (loops options)) (turn : Turn ι κ) :
    (step options self turn).registry.Named (loops options) := by
  by_cases hacquires : turn.Acquires self
  · obtain ⟨i, rowId, call, lease, rfl, hcall, hgranted⟩ := hacquires
    rw [acquired_step hcall hgranted]
    exact h.createAll (fun _ hname => hname) _
  · exact (quiet_step hacquires).named h

/-- A start that acquires the lease creates every loop, and loses a task that is alive. -/
lemma findsIdle_of_loopsOnce (hnamed : self.registry.Named (loops options)) {turn : Turn ι κ}
    (h : LoopsOnce options (step options self turn)) : turn.FindsIdle self := by
  rintro ⟨i, rowId, call, lease, rfl, hcall, hgranted⟩
  have honce := h.oneEach
  rw [acquired_step hcall hgranted] at honce
  exact idle_of_oneEach_createAll hnamed honce

/-- A supervisor that has been constructed, over any lease history. -/
structure Supervisor.Constructed (st : Supervisor ι κ) : Prop where
  fresh : st = { leases := st.leases }
  leases : st.leases.Started

omit [DecidableEq ι] [DecidableEq κ] in
lemma Supervisor.Constructed.inv {st : Supervisor ι κ} (h : st.Constructed) : TasksInv options st := by
  rw [h.fresh]
  constructor
  case leases => exact h.leases.inv
  case stopped => exact fun _ => ⟨by simp [Registry.Idle], by simp⟩
  case tracked =>
    rintro k name ⟨task, htask, -⟩
    simp at htask
  all_goals simp [Registry.Named]

variable (ι κ) in
structure TaskHistory where
  options : Options
  start : Supervisor ι κ
  turns : List (Turn ι κ)
  constructed : start.Constructed
  proper : Along (step options) (fun st turn => turn.Proper options st) start turns

/-- If every start that acquires the lease finds no task alive and no stop under way, the loops
run once and a stop ends them all; and they do only if every such start finds no task alive. -/
theorem loops_run_once (H : TaskHistory ι κ) :
    (Along (step H.options) (fun st turn => turn.FindsIdle st ∧ turn.FindsNoStop st) H.start H.turns →
      Visits (step H.options) (LoopsOnce H.options) H.start H.turns) ∧
    (Visits (step H.options) (LoopsOnce H.options) H.start H.turns →
      Along (step H.options) (fun st turn => turn.FindsIdle st) H.start H.turns) := by
  constructor
  · intro h
    have hboth := along_and.mpr ⟨H.proper, h⟩
    have hvisits := visits_of_along (I := TasksInv H.options)
      (fun _ _ inv hturn => inv.step hturn.1 hturn.2.1 hturn.2.2) H.constructed.inv hboth
    exact hvisits.mono fun _ inv => inv.loopsOnce
  · intro h
    have hnamed : H.start.registry.Named (loops H.options) := TasksInv.named H.constructed.inv
    exact along_of_invariant (I := fun st => st.registry.Named (loops H.options))
      (fun _ turn hst _ => named_step hst turn) (fun _ _ hst honce => findsIdle_of_loopsOnce hst honce) hnamed h.along

end Steps

/-! ### A lost lease -/

/-- The lease runs out, and its renewal halts the runtime. -/
def lostRenewal : List (Turn Unit Empty) :=
  [.start (), .acquireSelect () 0 "t1", .acquireWrite () 1, .task 7 (.returned 0), .task 3 (.returned 0),
    .other (.tick 31), .task 7 (.returned 31), .task 7 (.returned 31)]

def startedAgain : List (Turn Unit Empty) :=
  [.start (), .acquireSelect () 31 "t2", .acquireWrite () 2]

/-- The turns of the `n` tasks from the `first` on, cancelled. -/
def cancelledTurns (first n : ℕ) : List (Turn Unit Empty) :=
  (List.range' first n).map fun k => .task k .cancelled

def constructed : Supervisor Unit Empty where
  leases := .empty _

lemma constructed_constructed : constructed.Constructed :=
  ⟨rfl, LeaseState.empty_started _⟩

instance decidableTurnProper {ι κ : Type} [DecidableEq ι] [DecidableEq κ] (options : Options) (st : Supervisor ι κ)
    (turn : Turn ι κ) : Decidable (turn.Proper options st) :=
  inferInstanceAs (Decidable (∀ t ∈ turn.statement options st, t.Proper st.leases))

def lostLease : TaskHistory Unit Empty where
  options := {}
  start := constructed
  turns := lostRenewal ++ startedAgain ++ [.stop ()] ++ cancelledTurns 9 9 ++ [.stopAwaited (), .stopRelease ()]
  constructed := constructed_constructed
  proper := by decide +kernel

/-- After the second start two execution loops are alive, and the stop cancels one of them. Where
the second start acquires while the stop is under way, the stop leaves every new loop alive. -/
theorem lost_lease_doubles_loops :
    ¬Visits (step lostLease.options) (LoopsOnce lostLease.options) lostLease.start lostLease.turns ∧
      (let st := run (step lostLease.options) lostLease.start (lostRenewal ++ startedAgain);
        st.registry.Live 3 .execution ∧ st.registry.Live 12 .execution) ∧
      (let st := run (step lostLease.options) lostLease.start lostLease.turns;
        st.status.runtimeState = .stopped ∧ st.registry.Live 3 .execution) ∧
      (let st := run (step {}) constructed (lostRenewal ++ [.stop ()] ++ cancelledTurns 0 9 ++ startedAgain ++
          [.stopAwaited (), .stopRelease ()]);
        st.status.runtimeState = .stopped ∧ st.registry.Live 12 .execution) := by
  refine ⟨?_, ?_, ?_, ?_⟩
  · intro h
    have hidle := (h.last.stopped (by decide +kernel)).1
    revert hidle
    decide +kernel
  · decide +kernel
  · decide +kernel
  · decide +kernel

end SupervisorTasks

end CryptoTrader
