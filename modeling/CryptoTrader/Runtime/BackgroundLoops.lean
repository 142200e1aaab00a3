import CryptoTrader.Domain.Enums
import CryptoTrader.Lib.Coroutines
import CryptoTrader.Runtime.Lease

/-!
# The background loops

The loops of `TradingRuntimeSupervisor`, restarted by `_supervised`, and those of
`TradingEngine`, which nothing restarts. A restart awaits the coroutine that has raised, so no
loop runs again after an exception (`loops_run_again_iff`).
-/

namespace CryptoTrader

namespace BackgroundLoops

open Triples Coroutines

/-- `RuntimeStatus`, as far as the loops write it. -/
structure RuntimeStatus where
  runtimeState : RuntimeState := .running
  leaseValid : Bool := false
  database : Bool := false
  marketWs : Bool := false
  userWs : Bool := false
  scannerHeartbeat : ℕ := 0
  marketHeartbeat : ℕ := 0
  reconciliationHeartbeat : ℕ := 0
  leaseRenewCount : ℕ := 0
  deriving DecidableEq, Repr

inductive LoopName where
  | marketData
  | scanner
  | strategy
  | execution
  | orderEvent
  | userDataStream
  | reconciliation
  | leaseRenew
  | heartbeat
  | aiPosition
  deriving DecidableEq, Repr

/-- The callbacks that are not `None`, and the lease of the supervisor. -/
structure Setup where
  callback : LoopName → Bool
  lease : Option Lease

/-- What the body of a loop meets: the exception of its callback, if it raises, and the answers of
the lease manager. -/
structure TickInput where
  callback : Option String := none
  isCurrent : Except String Bool := .ok true
  renew : Except String Bool := .ok true
  deriving DecidableEq, Repr

/-- The status and the number of calls of the loop's callback. -/
structure Shared where
  status : RuntimeStatus := {}
  calls : ℕ := 0
  deriving DecidableEq, Repr

/-! ### The supervisor's loops -/

def write (f : RuntimeStatus → RuntimeStatus) : Program String Shared Unit :=
  modify fun shared => { shared with status := f shared.status }

def call (failure : Option String) : Program String Shared Unit := do
  modify fun shared => { shared with calls := shared.calls + 1 }
  attempt failure

def answer {σ α : Type} : Except String α → Program String σ α
  | .ok a => pure a
  | .error e => throw e

/-- The body of a loop that writes the status and calls its callback, if it has one. -/
def markedLoop (mark : RuntimeStatus → RuntimeStatus) (callback : Bool) (input : TickInput) :
    Program String Shared Unit := do
  write mark
  if callback then call input.callback else pure ()

def aiPositionLoop (callback : Bool) : TickInput → Program String Shared Unit :=
  markedLoop id callback

def marketDataLoop (callback : Bool) : TickInput → Program String Shared Unit :=
  markedLoop (fun status => { status with marketWs := true, marketHeartbeat := status.marketHeartbeat + 1 }) callback

def scannerLoop (callback : Bool) : TickInput → Program String Shared Unit :=
  markedLoop (fun status => { status with scannerHeartbeat := status.scannerHeartbeat + 1 }) callback

def strategyLoop : TickInput → Program String Shared Unit :=
  markedLoop id false

def orderEventLoop (callback : Bool) : TickInput → Program String Shared Unit :=
  markedLoop id callback

def userDataStreamLoop (callback : Bool) : TickInput → Program String Shared Unit :=
  markedLoop (fun status => { status with userWs := true }) callback

def reconciliationLoop (callback : Bool) : TickInput → Program String Shared Unit :=
  markedLoop (fun status => { status with reconciliationHeartbeat := status.reconciliationHeartbeat + 1 }) callback

def heartbeatLoop : TickInput → Program String Shared Unit :=
  markedLoop (fun status => { status with database := true }) false

def executionLoop (lease : Option Lease) (callback : Bool) (input : TickInput) : Program String Shared Unit := do
  let current ←
    match lease with
    | some _ => answer input.isCurrent
    | none => pure false
  if current then do
    write fun status => { status with leaseValid := true }
    if callback then call input.callback else pure ()
  else write fun status => { status with leaseValid := false }

def leaseRenewLoop (lease : Option Lease) (input : TickInput) : Program String Shared Unit :=
  match lease with
  | some _ => do
    let renewed ← answer input.renew
    if renewed then write fun status => { status with leaseRenewCount := status.leaseRenewCount + 1 }
    else write fun status => { status with runtimeState := .halted }
  | none => pure ()

/-- The bodies of the loops that `start` creates. -/
def body (setup : Setup) : LoopName → TickInput → Program String Shared Unit
  | .marketData => marketDataLoop (setup.callback .marketData)
  | .scanner => scannerLoop (setup.callback .scanner)
  | .strategy => strategyLoop
  | .execution => executionLoop setup.lease (setup.callback .execution)
  | .orderEvent => orderEventLoop (setup.callback .orderEvent)
  | .userDataStream => userDataStreamLoop (setup.callback .userDataStream)
  | .reconciliation => reconciliationLoop (setup.callback .reconciliation)
  | .leaseRenew => leaseRenewLoop setup.lease
  | .heartbeat => heartbeatLoop
  | .aiPosition => aiPositionLoop (setup.callback .aiPosition)

/-- The handler of `_supervised`: a new task awaits the same coroutine. -/
def supervised (s : LoopState Shared) : LoopState Shared :=
  if s.stopping then { s with task := .ended } else { s with task := .ready, restarts := s.restarts + 1 }

/-- The loop meets an exception: the callback is called and raises, or the lease manager raises. -/
def TickInput.raises (setup : Setup) (input : TickInput) : LoopName → Prop
  | .strategy => False
  | .heartbeat => False
  | .execution => setup.lease.isSome = true ∧ ((∃ e, input.isCurrent = .error e) ∨
      input.isCurrent = .ok true ∧ setup.callback .execution = true ∧ input.callback.isSome = true)
  | .leaseRenew => setup.lease.isSome = true ∧ ∃ e, input.renew = .error e
  | name => setup.callback name = true ∧ input.callback.isSome = true

/-- After every exception the loop runs again at every later tick, and it is not restarted
without bound between two ticks. -/
structure Restarted (setup : Setup) (name : LoopName) (shared : Shared) (inputs : ℕ → TickInput) : Prop where
  again : RunsAgain supervised (body setup name) shared inputs
  bounded : BoundedRestarts supervised (body setup name) shared inputs

/-! ### The engine's loops -/

inductive EngineLoop where
  | ticks
  | lease
  | reconciliation
  deriving DecidableEq, Repr

structure ReconciliationAnswer where
  halt : Bool := false
  alerts : List String := []
  deriving DecidableEq, Repr

structure EngineTickInput where
  /-- The exception of `tick`, if it raises. -/
  tick : Option String := none
  renew : Except String Bool := .ok true
  reconcile : Except String ReconciliationAnswer := .ok {}
  deriving DecidableEq, Repr

/-- What the loops write of the engine, with the number of ticks. -/
structure EngineShared where
  ticks : ℕ := 0
  /-- `health["execution_lease"]`. -/
  executionLease : Bool := true
  /-- The reason the kill switch is engaged for. -/
  killSwitch : Option String := none
  reconciliationHalted : Bool := false
  /-- `health["reconciliation"]`. -/
  reconciliation : Bool × String := (true, "")
  deriving DecidableEq, Repr

def tickLoop (input : EngineTickInput) : Program String EngineShared Unit := do
  modify fun engine => { engine with ticks := engine.ticks + 1 }
  attempt input.tick

def leaseLoop (lease : Option Lease) (input : EngineTickInput) : Program String EngineShared Unit :=
  match lease with
  | some _ => do
    let ok ← answer input.renew
    modify fun engine => { engine with executionLease := ok }
    if ok then pure () else modify fun engine => { engine with killSwitch := some "execution lease lost" }
  | none => pure ()

def engineReconciliationLoop (input : EngineTickInput) : Program String EngineShared Unit := do
  let report ← answer input.reconcile
  modify fun engine =>
    { engine with
      reconciliationHalted := report.halt
      reconciliation := (!report.halt, "; ".intercalate (report.alerts.take 3)) }

def engineBody (lease : Option Lease) : EngineLoop → EngineTickInput → Program String EngineShared Unit
  | .ticks => tickLoop
  | .lease => leaseLoop lease
  | .reconciliation => engineReconciliationLoop

/-- Nothing awaits a loop of the engine before `stop`. -/
def unsupervised (s : LoopState EngineShared) : LoopState EngineShared :=
  { s with task := .ended }

def EngineTickInput.raises (lease : Option Lease) (input : EngineTickInput) : EngineLoop → Prop
  | .ticks => input.tick.isSome = true
  | .lease => lease.isSome = true ∧ ∃ e, input.renew = .error e
  | .reconciliation => ∃ e, input.reconcile = .error e

/-- After every exception the loop runs again at every later tick; a lost lease engages the kill
switch, and a drift that halts is noticed. -/
structure KeepsInvoking (lease : Option Lease) (loop : EngineLoop) (engine : EngineShared)
    (inputs : ℕ → EngineTickInput) : Prop where
  again : RunsAgain unsupervised (engineBody lease loop) engine inputs
  leaseLoss : loop = .lease → lease.isSome = true → ∀ passes : ℕ → ℕ, (∀ n, 0 < passes n) → ∀ n,
    (inputs n).renew = .ok false → (tick unsupervised (engineBody lease loop) (inputs n)
      (before unsupervised (engineBody lease loop) engine passes inputs n)).shared.killSwitch.isSome = true
  drift : loop = .reconciliation → ∀ passes : ℕ → ℕ, (∀ n, 0 < passes n) → ∀ n report,
    (inputs n).reconcile = .ok report → (tick unsupervised (engineBody lease loop) (inputs n)
      (before unsupervised (engineBody lease loop) engine passes inputs n)).shared.reconciliationHalted = report.halt

/-! ### What a body raises -/

lemma outcome_write (f : RuntimeStatus → RuntimeStatus) (shared : Shared) :
    outcome (write f) shared = (.ok ⟨⟩, { shared with status := f shared.status }) := rfl

lemma raises_call (failure : Option String) (shared : Shared) :
    Raises (fun _ : Unit => call failure) () shared ↔ failure.isSome = true := by
  cases failure with
  | some e => exact iff_of_true ⟨e, _, rfl⟩ rfl
  | none => exact iff_of_false (fun ⟨_, _, h⟩ => nomatch h) nofun

lemma raises_marked (mark : RuntimeStatus → RuntimeStatus) (callback : Bool) (input : TickInput) (shared : Shared) :
    Raises (markedLoop mark callback) input shared ↔ callback = true ∧ input.callback.isSome = true := by
  unfold Raises markedLoop
  simp only [outcome_bind, outcome_write]
  cases callback with
  | false => simp
  | true =>
    rw [and_iff_right rfl]
    exact raises_call input.callback _

lemma raises_execution (lease : Option Lease) (callback : Bool) (input : TickInput) (shared : Shared) :
    Raises (executionLoop lease callback) input shared ↔ lease.isSome = true ∧ ((∃ e, input.isCurrent = .error e) ∨
      input.isCurrent = .ok true ∧ callback = true ∧ input.callback.isSome = true) := by
  unfold Raises executionLoop
  cases lease with
  | none => simp [outcome_write]
  | some lease =>
    cases hcurrent : input.isCurrent with
    | error e => simp [answer]
    | ok current =>
      cases current with
      | false => simp [outcome_write, answer]
      | true =>
        cases callback with
        | false => simp [outcome_write, answer]
        | true =>
          simp only [outcome_bind, answer, outcome_pure, outcome_write, if_true]
          have hcall := raises_call input.callback { shared with status := { shared.status with leaseValid := true } }
          simpa [Raises] using hcall

lemma raises_leaseRenew (lease : Option Lease) (input : TickInput) (shared : Shared) :
    Raises (leaseRenewLoop lease) input shared ↔ lease.isSome = true ∧ ∃ e, input.renew = .error e := by
  unfold Raises leaseRenewLoop
  cases lease with
  | none => simp
  | some lease =>
    cases hrenew : input.renew with
    | error e => simp [answer]
    | ok renewed => cases renewed <;> simp [outcome_write, answer]

lemma raises_iff (setup : Setup) (name : LoopName) (input : TickInput) (shared : Shared) :
    Raises (body setup name) input shared ↔ input.raises setup name := by
  cases name with
  | strategy => exact (raises_marked _ _ _ _).trans (by simp [TickInput.raises])
  | heartbeat => exact (raises_marked _ _ _ _).trans (by simp [TickInput.raises])
  | execution => exact raises_execution _ _ _ _
  | leaseRenew => exact raises_leaseRenew _ _ _
  | marketData => exact raises_marked _ _ _ _
  | scanner => exact raises_marked _ _ _ _
  | orderEvent => exact raises_marked _ _ _ _
  | userDataStream => exact raises_marked _ _ _ _
  | reconciliation => exact raises_marked _ _ _ _
  | aiPosition => exact raises_marked _ _ _ _

lemma engine_raises_iff (lease : Option Lease) (loop : EngineLoop) (input : EngineTickInput) (engine : EngineShared) :
    Raises (engineBody lease loop) input engine ↔ input.raises lease loop := by
  unfold Raises
  cases loop with
  | ticks => cases htick : input.tick <;> simp [engineBody, tickLoop, outcome_bind, attempt, EngineTickInput.raises, htick]
  | lease =>
    cases lease with
    | none => simp [engineBody, leaseLoop, EngineTickInput.raises]
    | some lease =>
      cases hrenew : input.renew with
      | error e => simp [engineBody, leaseLoop, answer, EngineTickInput.raises, hrenew]
      | ok ok => cases ok <;> simp [engineBody, leaseLoop, outcome_bind, answer, EngineTickInput.raises, hrenew]
  | reconciliation =>
    cases hreport : input.reconcile with
    | error e => simp [engineBody, engineReconciliationLoop, answer, EngineTickInput.raises, hreport]
    | ok report => simp [engineBody, engineReconciliationLoop, answer, EngineTickInput.raises, hreport]

/-! ### Restarts -/

lemma coroutine_supervised (s : LoopState Shared) : (supervised s).coroutine = s.coroutine := by
  unfold supervised
  split <;> rfl

lemma coroutine_unsupervised (s : LoopState EngineShared) : (unsupervised s).coroutine = s.coroutine := rfl

/-- Every pass of the event loop restarts the finished coroutine once more. -/
lemma restarts_iterate_pass {s : LoopState Shared} (htask : s.task = .ready) (hcoroutine : s.coroutine = .finished)
    (hstopping : s.stopping = false) (k : ℕ) :
    (Coroutines.pass supervised)^[k] s = { s with restarts := s.restarts + k } := by
  induction k with
  | zero => rfl
  | succ k ih =>
    rw [Function.iterate_succ_apply', ih]
    simp only [Coroutines.pass, htask, hcoroutine, supervised]
    rw [if_neg (by simp [hstopping])]
    rfl

lemma restarted_iff (setup : Setup) (name : LoopName) (shared : Shared) (inputs : ℕ → TickInput) :
    Restarted setup name shared inputs ↔ ∀ n, ¬ (inputs n).raises setup name := by
  have hruns := runs_again_iff coroutine_supervised (raises_iff setup name) shared inputs
  constructor
  · exact fun h => hruns.mp h.again
  · exact fun h => ⟨hruns.mpr h, bounded_restarts fun n shared hn => h n ((raises_iff setup name _ _).mp hn)⟩

lemma lease_loop_detects {lease : Lease} {input : EngineTickInput} {s : LoopState EngineShared} (h : Alive s)
    (hlost : input.renew = .ok false) :
    (tick unsupervised (engineBody (some lease) .lease) input s).shared.killSwitch.isSome = true := by
  have hreturns : outcome (engineBody (some lease) .lease input) s.shared =
      (.ok (), { s.shared with executionLease := false, killSwitch := some "execution lease lost" }) := by
    simp only [engineBody, leaseLoop, hlost]
    rfl
  rw [shared_tick h hreturns]
  rfl

lemma reconciliation_loop_detects {lease : Option Lease} {input : EngineTickInput} {report : ReconciliationAnswer}
    {s : LoopState EngineShared} (h : Alive s) (hreport : input.reconcile = .ok report) :
    (tick unsupervised (engineBody lease .reconciliation) input s).shared.reconciliationHalted = report.halt := by
  have hreturns : outcome (engineBody lease .reconciliation input) s.shared =
      (.ok (), { s.shared with
        reconciliationHalted := report.halt
        reconciliation := (!report.halt, "; ".intercalate (report.alerts.take 3)) }) := by
    simp only [engineBody, engineReconciliationLoop, hreport]
    rfl
  rw [shared_tick h hreturns]

lemma keepsInvoking_iff (lease : Option Lease) (loop : EngineLoop) (engine : EngineShared)
    (inputs : ℕ → EngineTickInput) :
    KeepsInvoking lease loop engine inputs ↔ ∀ n, ¬ (inputs n).raises lease loop := by
  have hruns : RunsAgain unsupervised (engineBody lease loop) engine inputs ↔ ∀ n, ¬ (inputs n).raises lease loop :=
    runs_again_iff coroutine_unsupervised (engine_raises_iff lease loop) engine inputs
  constructor
  · exact fun h => hruns.mp h.again
  · intro h
    have halive : ∀ passes : ℕ → ℕ, (∀ n, 0 < passes n) → ∀ n,
        Alive (before unsupervised (engineBody lease loop) engine passes inputs n) := by
      intro passes hpasses n
      exact alive_before hpasses fun m _ shared hm => h m ((engine_raises_iff _ _ _ _).mp hm)
    refine ⟨hruns.mpr h, ?_, ?_⟩
    · rintro rfl hlease passes hpasses n hlost
      obtain ⟨lease, rfl⟩ := Option.isSome_iff_exists.mp hlease
      exact lease_loop_detects (halive passes hpasses n) hlost
    · rintro rfl passes hpasses n report hreport
      exact reconciliation_loop_detects (halive passes hpasses n) hreport

/-- A loop of the supervisor is restarted, and a loop of the engine keeps its operation going,
exactly if the loop meets no exception at all. -/
theorem loops_run_again_iff (setup : Setup) (shared : Shared) (engine : EngineShared) :
    (∀ name inputs, Restarted setup name shared inputs ↔ ∀ n, ¬ TickInput.raises setup (inputs n) name) ∧
      ∀ loop inputs, KeepsInvoking setup.lease loop engine inputs ↔
        ∀ n, ¬ EngineTickInput.raises setup.lease (inputs n) loop :=
  ⟨fun name inputs => restarted_iff setup name shared inputs,
    fun loop inputs => keepsInvoking_iff setup.lease loop engine inputs⟩

/-- The market data callback raises once. -/
def oneCrash (n : ℕ) : TickInput :=
  if n = 0 then { callback := some "stream closed" } else {}

def watching : Setup where
  callback := fun name => name = .marketData
  lease := none

/-- The loop never runs again, and in `k` passes of the event loop it is restarted `k` times; one
exception of the reconciliation ends that loop as well. -/
theorem crashed_loop_not_restarted :
    ¬ Restarted watching .marketData {} oneCrash ∧
      (∀ passes : ℕ → ℕ, (∀ n, 0 < passes n) → ∀ n, 0 < n →
        ¬ Alive (before supervised (body watching .marketData) {} passes oneCrash n)) ∧
      (∀ k, (before supervised (body watching .marketData) {} (fun n => if n = 0 then 1 else k) oneCrash 1).restarts =
        k + 1) ∧
      ¬ KeepsInvoking none .reconciliation {} fun n => { reconcile := if n = 0 then .error "timeout" else .ok {} } := by
  refine ⟨?_, ?_, ?_, ?_⟩
  · rw [restarted_iff]
    exact fun h => h 0 ⟨rfl, rfl⟩
  · intro passes hpasses n hn halive
    have hraised : RaisedAt supervised (body watching .marketData) {} passes oneCrash 0 :=
      ⟨alive_before hpasses fun m hm => absurd hm (Nat.not_lt_zero m), (raises_iff _ _ _ _).mpr ⟨rfl, rfl⟩⟩
    have hfinished := before_finished coroutine_supervised hn (before_succ_finished coroutine_supervised hraised)
    rw [halive.2] at hfinished
    cases hfinished
  · intro k
    rw [before]
    simp only [Nat.zero_add, one_ne_zero, if_false]
    rw [restarts_iterate_pass rfl rfl rfl]
    exact Nat.add_comm 1 k
  · rw [keepsInvoking_iff]
    exact fun h => h 0 ⟨"timeout", rfl⟩

end BackgroundLoops

end CryptoTrader
