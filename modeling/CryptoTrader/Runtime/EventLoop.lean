import CryptoTrader.Runtime.Events

/-!
# The event loop

`_event_loop` takes an event off the queue, processes it, and on an exception reports the
failure before it takes the next. The report reads `.name` of the event type's class.
-/

namespace CryptoTrader

/-- What `type(...)` and `.name` are applied to: a member of the `Enum` class
`ExchangeEventType`, or the class. -/
inductive EnumObject where
  | member (t : ExchangeEventType)
  | enumClass
  deriving DecidableEq, Repr

/-- `type(x)`. -/
def EnumObject.typeOf (_ : EnumObject) : EnumObject := .enumClass

/-- `x.name`: members have a name, the class raises. -/
def EnumObject.name : EnumObject → Except TradingError String
  | .member t => .ok t.name
  | .enumClass => .error (.attributeError "type object 'ExchangeEventType' has no attribute 'name'")

/-- The `except` branch of the loop. Logging itself does not raise. -/
def reportFailure (event : ExchangeEvent) : Except TradingError Unit :=
  match (EnumObject.member event.eventType).typeOf.name with
  | .ok _ => .ok ()
  | .error e => .error e

/-- The queue with its count of unfinished tasks, the loop's task, the events it has
taken, and everything `process_exchange_event` reads and writes. -/
structure EventLoop (ω : Type) where
  running : Bool := true
  queue : List ExchangeEvent := []
  unfinished : Nat := 0
  taken : List ExchangeEvent := []
  healthy : Bool := true
  world : ω

/-- A task scheduled on the asyncio loop: a subscriber enqueues an event, or the event
loop goes round once. -/
inductive LoopTurn where
  | put (event : ExchangeEvent)
  | iterate
  deriving DecidableEq, Repr

variable {ω : Type} (process : ω → ExchangeEvent → Except TradingError Unit × ω)

/-- One round of `_event_loop`. `task_done` is in the `finally` branch, so it runs also
when the report raises and the exception ends the task. -/
def iterate (st : EventLoop ω) : EventLoop ω :=
  match st.running, st.queue with
  | true, event :: queue =>
    let (outcome, world) := process st.world event
    let st' : EventLoop ω := { st with
      queue := queue
      unfinished := st.unfinished - 1
      taken := st.taken ++ [event]
      world := world }
    match outcome with
    | .ok _ => st'
    | .error _ =>
      match reportFailure event with
      | .ok _ => { st' with healthy := false }
      | .error _ => { st' with healthy := false, running := false }
  | _, _ => st

def loopStep (st : EventLoop ω) : LoopTurn → EventLoop ω
  | .put event => { st with queue := st.queue ++ [event], unfinished := st.unfinished + 1 }
  | .iterate => iterate process st

/-- The events a schedule enqueues, in order. -/
def putsOf : List LoopTurn → List ExchangeEvent
  | [] => []
  | .put event :: turns => event :: putsOf turns
  | .iterate :: turns => putsOf turns

/-- Every event was taken once, in order, and processed; `wait_for_event_queue` returns. -/
def Served (world : ω) (events : List ExchangeEvent) (st : EventLoop ω) : Prop :=
  st.taken = events ∧ st.unfinished = 0 ∧
    st.world = events.foldl (fun w e => (process w e).2) world

/-- Every event is processed without an exception, each in the world the earlier leave. -/
def Quiet : ω → List ExchangeEvent → Prop
  | _, [] => True
  | w, e :: events => (process w e).1 = .ok () ∧ Quiet (process w e).2 events

/-- No event but the last raises. -/
def QuietBeforeLast : ω → List ExchangeEvent → Prop
  | _, [] => True
  | _, [_] => True
  | w, e :: e' :: events => (process w e).1 = .ok () ∧ QuietBeforeLast (process w e).2 (e' :: events)

lemma reportFailure_raises (event : ExchangeEvent) : ∃ e, reportFailure event = .error e :=
  ⟨_, rfl⟩

/-- One round: the head event is taken and processed, and the loop stays alive exactly
if that raised nothing. -/
lemma iterate_cons {st : EventLoop ω} {event : ExchangeEvent} {queue : List ExchangeEvent}
    (hr : st.running = true) (hq : st.queue = event :: queue) :
    (iterate process st).queue = queue ∧ (iterate process st).taken = st.taken ++ [event] ∧
      (iterate process st).unfinished = st.unfinished - 1 ∧
      (iterate process st).world = (process st.world event).2 ∧
      ((iterate process st).running = true ↔ (process st.world event).1 = .ok ()) := by
  obtain ⟨e, he⟩ := reportFailure_raises event
  cases hp : (process st.world event).1 with
  | ok u => simp [iterate, hr, hq, hp]
  | error _ => simp [iterate, hr, hq, hp, he]

lemma iterate_of_idle {st : EventLoop ω} (h : st.running = false ∨ st.queue = []) :
    iterate process st = st := by
  rcases h with h | h
  · simp [iterate, h]
  · cases hr : st.running <;> simp [iterate, h, hr]

section QuietLemmas

variable {process}

lemma quiet_append (w : ω) (xs : List ExchangeEvent) (e : ExchangeEvent) :
    Quiet process w (xs ++ [e]) ↔ Quiet process w xs ∧
      (process (xs.foldl (fun w e => (process w e).2) w) e).1 = .ok () := by
  induction xs generalizing w with
  | nil => simp [Quiet]
  | cons x xs ih => simp [Quiet, ih, and_assoc]

lemma quietBeforeLast_append (w : ω) (xs : List ExchangeEvent) (e : ExchangeEvent) :
    QuietBeforeLast process w (xs ++ [e]) ↔ Quiet process w xs := by
  induction xs generalizing w with
  | nil => simp [QuietBeforeLast, Quiet]
  | cons x xs ih =>
    cases xs with
    | nil => simp [QuietBeforeLast, Quiet]
    | cons y ys => simpa [QuietBeforeLast, Quiet] using fun _ => ih _

lemma QuietBeforeLast.quiet_of_cons {w : ω} {xs ys : List ExchangeEvent} {y : ExchangeEvent}
    (h : QuietBeforeLast process w (xs ++ y :: ys)) : Quiet process w xs := by
  induction xs generalizing w with
  | nil => trivial
  | cons x xs ih =>
    cases xs with
    | nil => exact ⟨h.1, trivial⟩
    | cons x' xs => exact ⟨h.1, ih h.2⟩

end QuietLemmas

/-- What a run that started in `world` with an empty queue keeps: nothing is lost or taken
twice, the world is what the taken events made of it, and the loop runs exactly as long as
nothing it took has raised. -/
structure LoopInv (world : ω) (events : List ExchangeEvent) (st : EventLoop ω) : Prop where
  order : st.taken ++ st.queue = events
  count : st.unfinished = st.queue.length
  world_eq : st.world = st.taken.foldl (fun w e => (process w e).2) world
  alive : st.running = true ↔ Quiet process world st.taken
  quietBeforeLast : QuietBeforeLast process world st.taken

variable {process}

lemma LoopInv.iterate {world : ω} {events : List ExchangeEvent} {st : EventLoop ω}
    (h : LoopInv process world events st) : LoopInv process world events (iterate process st) := by
  cases hr : st.running with
  | false => rwa [iterate_of_idle process (.inl hr)]
  | true =>
    cases hq : st.queue with
    | nil => rwa [iterate_of_idle process (.inr hq)]
    | cons event queue =>
      obtain ⟨hqueue, htaken, hcount, hworld, halive⟩ := iterate_cons process hr hq
      constructor
      · rw [hqueue, htaken, List.append_assoc, ← h.order, hq]
        rfl
      · rw [hcount, hqueue, h.count, hq]
        rfl
      · rw [hworld, htaken, List.foldl_append, h.world_eq]
        rfl
      · rw [halive, htaken, quiet_append, ← h.world_eq]
        exact ⟨fun hp => ⟨h.alive.mp hr, hp⟩, fun hp => hp.2⟩
      · rw [htaken, quietBeforeLast_append]
        exact h.alive.mp hr

lemma LoopInv.put {world : ω} {events : List ExchangeEvent} {st : EventLoop ω}
    (h : LoopInv process world events st) (event : ExchangeEvent) :
    LoopInv process world (events ++ [event]) (loopStep process st (.put event)) where
  order := by simp [loopStep, ← h.order]
  count := by simp [loopStep, h.count]
  world_eq := h.world_eq
  alive := h.alive
  quietBeforeLast := h.quietBeforeLast

lemma LoopInv.run {world : ω} {events : List ExchangeEvent} {st : EventLoop ω}
    (h : LoopInv process world events st) (turns : List LoopTurn) :
    LoopInv process world (events ++ putsOf turns) (Runs.run (loopStep process) st turns) := by
  induction turns generalizing st events with
  | nil => simpa [putsOf] using h
  | cons turn turns ih =>
    cases turn with
    | put event => simpa [putsOf] using ih (h.put event)
    | iterate => exact ih h.iterate

lemma putsOf_append (xs ys : List LoopTurn) : putsOf (xs ++ ys) = putsOf xs ++ putsOf ys := by
  induction xs with
  | nil => rfl
  | cons x xs ih => cases x <;> simp [putsOf, ih]

@[simp] lemma putsOf_replicate (n : Nat) : putsOf (List.replicate n .iterate) = [] := by
  induction n with
  | zero => rfl
  | succ n ih => simpa [List.replicate_succ, putsOf] using ih

/-- While nothing but the last queued event raises, the loop drains the queue. -/
lemma LoopInv.drain {world : ω} {events : List ExchangeEvent} {st : EventLoop ω}
    (h : LoopInv process world events st) (hquiet : QuietBeforeLast process world events) :
    ∃ n, (Runs.run (loopStep process) st (List.replicate n .iterate)).queue = [] := by
  generalize hl : st.queue.length = l
  induction l generalizing st with
  | zero => exact ⟨0, List.length_eq_zero_iff.mp hl⟩
  | succ l ih =>
    obtain ⟨event, queue, hq⟩ := List.exists_cons_of_length_eq_add_one hl
    have hr : st.running = true := by
      rw [h.alive]
      rw [← h.order, hq] at hquiet
      exact hquiet.quiet_of_cons
    have hqueue := (iterate_cons process hr hq).1
    obtain ⟨n, hn⟩ := ih h.iterate (by rw [hqueue]; simpa [hq] using hl)
    exact ⟨n + 1, hn⟩

/-- However puts and rounds of the loop interleave, the loop comes to serve every queued
event in order exactly when no event but the last raises. -/
theorem event_loop_serves_iff (turns : List LoopTurn) (world : ω) :
    (∃ n, Served process world (putsOf turns)
      (Runs.run (loopStep process) { world } (turns ++ List.replicate n .iterate))) ↔
    QuietBeforeLast process world (putsOf turns) := by
  have hinit : LoopInv process world [] { world } := ⟨rfl, rfl, rfl, by simp [Quiet], trivial⟩
  have hrun : ∀ n, LoopInv process world (putsOf turns)
      (Runs.run (loopStep process) { world } (turns ++ List.replicate n .iterate)) := by
    intro n
    have h := hinit.run (turns ++ List.replicate n .iterate)
    rwa [putsOf_append, putsOf_replicate, List.append_nil, List.nil_append] at h
  constructor
  · rintro ⟨n, htaken, -, -⟩
    exact htaken ▸ (hrun n).quietBeforeLast
  · intro hquiet
    have h0 : LoopInv process world (putsOf turns) (Runs.run (loopStep process) { world } turns) := by
      simpa using hrun 0
    obtain ⟨n, hn⟩ := h0.drain hquiet
    rw [← Runs.run_append] at hn
    have hfin := hrun n
    have htaken : _ = putsOf turns := hfin.order
    rw [hn, List.append_nil] at htaken
    exact ⟨n, htaken, by rw [hfin.count, hn]; rfl, by rw [hfin.world_eq, htaken]⟩

/-- The engine's processing, on the tables and the number of events processed so far. -/
def engineProcess {σ : Type} (h : EventHandlers σ) (ids : Nat → EventIds) (w : Db σ × Nat)
    (event : ExchangeEvent) : Except TradingError Unit × Db σ × Nat :=
  match processExchangeEvent h (ids w.2) event w.1 with
  | (outcome, db) => (outcome, db, w.2 + 1)

def cancelEvent : ExchangeEvent where
  eventId := "exevt_1"
  eventType := .orderCancelled
  payload := { exchangeOrderId := some "x1" }

lemma run_of_dead {st : EventLoop ω} (h : st.running = false) (n : Nat) :
    Runs.run (loopStep process) st (List.replicate n .iterate) = st := by
  induction n with
  | zero => rfl
  | succ n ih =>
    rw [List.replicate_succ, Runs.run_cons, loopStep, iterate_of_idle process (.inl h)]
    exact ih

/-- A cancellation the state machine refuses ends the loop, and the fill queued behind it
is never taken. -/
theorem cancel_ends_event_loop :
    ¬ ∃ n, Served (engineProcess quietHandlers countedIds) (acknowledgedDb, 0) [cancelEvent, fullFillEvent]
      (Runs.run (loopStep (engineProcess quietHandlers countedIds)) { world := (acknowledgedDb, 0) }
        ([.put cancelEvent, .put fullFillEvent] ++ List.replicate n .iterate)) := by
  rintro ⟨n, htaken, -, -⟩
  cases n with
  | zero => exact absurd htaken (by decide +kernel)
  | succ n =>
    have hdead : (Runs.run (loopStep (engineProcess quietHandlers countedIds)) { world := (acknowledgedDb, 0) }
        [.put cancelEvent, .put fullFillEvent, .iterate]).running = false := by decide +kernel
    have hrun : [.put cancelEvent, .put fullFillEvent] ++ List.replicate (n + 1) LoopTurn.iterate =
        [.put cancelEvent, .put fullFillEvent, .iterate] ++ List.replicate n .iterate := by
      simp [List.replicate_succ]
    rw [hrun, Runs.run_append, run_of_dead hdead] at htaken
    exact absurd htaken (by decide +kernel)

end CryptoTrader
