import CryptoTrader.Runtime.Signal
import Mathlib.Logic.Function.Basic

/-!
# Concurrent deliveries of one signal

Any number of `process_signal` calls carry the same strategy and signal id, hence the
same client order id. Each is cut at its database sessions and its call of the adapter or
the perpetual engine, and interleaves with the others and with the rest of the engine.
-/

namespace CryptoTrader

open OrderStore KeyedTable

/-- The three transitions between `create_from_intent` and the submission. -/
inductive Gate where
  | validate
  | submitting
  | submitted
  deriving DecidableEq, Repr

def Gate.lifecycle : Gate → Lifecycle
  | validate => .validate
  | submitting => .submitting
  | submitted => .submitted

/-- Where a call of `process_signal` is. -/
inductive CallPc where
  /-- Before the duplicate check. -/
  | start
  /-- Past risk and authority, about to look the client id up in `create_from_intent`. -/
  | creating
  | inserting
  | reading (g : Gate) (order : Order)
  | writing (g : Gate) (order : Order) (p : PendingTransition)
  | submitting (order : Order)
  /-- Returned, raised, or past the submission. -/
  | finished
  deriving DecidableEq, Repr

/-- The order tables, the calls, and the orders handed to `adapter.submit_order` and to
the perpetual engine's `open_position` or `close_position`. -/
structure SignalRace where
  store : OrderStore
  pc : Nat → CallPc := fun _ => .start
  submissions : List Order := []
  perpetual : List Order := []

/-- What one step of a call takes from outside: the verdict of risk and authority, and
the ids it mints. -/
structure StepInput where
  approved : Bool := true
  orderId : String := ""
  eventId : String
  deriving DecidableEq, Repr

/-- A step of call `i`; a call of the order manager by another task; or the second session
of a transition another task has begun. -/
inductive SignalTurn where
  | call (i : Nat) (input : StepInput)
  | other (c : OrderCall)
  | otherWrite (p : PendingTransition) (l : Lifecycle) (minted : String)
  deriving DecidableEq, Repr

def SignalRace.goto (st : SignalRace) (i : Nat) (pc : CallPc) : SignalRace :=
  { st with pc := Function.update st.pc i pc }

def Gate.after (g : Gate) (order : Order) : CallPc :=
  match g with
  | validate => .reading .submitting order
  | submitting => .reading .submitted order
  | submitted => .submitting order

/-- One step of `process_signal`, up to and including the submission. What a call does
afterwards are calls of the order manager, which the turns of other tasks stand for. -/
def callStep (signals : Nat → SignalIntent) (runId : Option String) (mode : TradingMode) (i : Nat)
    (input : StepInput) (st : SignalRace) : SignalRace :=
  let intent := intentOfSignal (signals i) runId
  match st.pc i with
  | .start =>
    match st.store.getByClient intent.clientOrderId with
    | some _ => st.goto i .finished
    | none => st.goto i (if input.approved then .creating else .finished)
  | .creating =>
    match st.store.getByClient intent.clientOrderId with
    | some existing =>
      match reuseOrConflict existing intent with
      | .ok order => st.goto i (.reading .validate order)
      | .error _ => st.goto i .finished
    | none => st.goto i .inserting
  | .inserting =>
    match createInsert intent mode input.orderId input.eventId st.store with
    | .ok (order, s) => { st with store := s }.goto i (.reading .validate order)
    | .error _ => st.goto i .finished
  | .reading g order =>
    match transitionRead order.internalOrderId g.lifecycle.eventType st.store with
    | .ok p => st.goto i (.writing g order p)
    | .error _ => st.goto i .finished
  | .writing g order p =>
    match transitionWrite p g.lifecycle.eventType g.lifecycle.args input.eventId st.store with
    | .ok (_, s) => { st with store := s }.goto i (g.after order)
    | .error _ => st.goto i .finished
  | .submitting order =>
    match intent.marketType with
    | .spot => { st with submissions := st.submissions ++ [order] }.goto i .finished
    | .perpetual => { st with perpetual := st.perpetual ++ [order] }.goto i .finished
  | .finished => st

def signalStep (signals : Nat → SignalIntent) (runId : Option String) (mode : TradingMode)
    (st : SignalRace) : SignalTurn → SignalRace
  | .call i input => callStep signals runId mode i input st
  | .other c => { st with store := exec st.store c }
  | .otherWrite p l minted =>
    match transitionWrite p l.eventType l.args minted st.store with
    | .ok (_, s) => { st with store := s }
    | .error _ => st

/-- If the next step is the write of `validate`, it finds the order still CREATED and its
event id fresh. -/
def WritesCreated (s : OrderStore) (eventId : String) : CallPc → Prop
  | .writing .validate _ p => s.getEvent eventId = none ∧
      ∃ r ∈ s.orders, r.internalOrderId = p.order.internalOrderId ∧ r.status = .created
  | _ => True

/-- The write of `validate` finds the order still CREATED. A transition another task has
begun writes a status the table has. -/
def ValidatesCreated (st : SignalRace) : SignalTurn → Prop
  | .call i input => WritesCreated st.store input.eventId (st.pc i)
  | .other _ => True
  | .otherWrite p l _ => nextStatus p.order.status l.eventType = some p.statusAfter

instance (s : OrderStore) (eventId : String) : ∀ pc, Decidable (WritesCreated s eventId pc)
  | .writing .validate _ _ => inferInstanceAs (Decidable (_ ∧ _))
  | .writing .submitting _ _ | .writing .submitted _ _ => .isTrue trivial
  | .start | .creating | .inserting | .reading _ _ | .submitting _ | .finished => .isTrue trivial

instance (st : SignalRace) : ∀ turn, Decidable (ValidatesCreated st turn)
  | .call i input => inferInstanceAs (Decidable (WritesCreated st.store input.eventId (st.pc i)))
  | .other _ => .isTrue trivial
  | .otherWrite _ _ _ => inferInstanceAs (Decidable (_ = _))

/-! ### What the store keeps -/

lemma nextStatus_ne_created {current n : OrderStatus} {t : OrderEventType}
    (h : nextStatus current t = some n) : n ≠ .created := by
  cases current <;> cases t <;> simp_all [nextStatus, transitions, noopEvents] <;> subst h <;> simp

/-- The order with client id `c` stays, under its order id, and never becomes CREATED. -/
def KeepsClient (c : String) (s s' : OrderStore) : Prop :=
  ∀ q, s.getByClient c = some q → ∃ q', s'.getByClient c = some q' ∧
    q'.internalOrderId = q.internalOrderId ∧ (q.status ≠ .created → q'.status ≠ .created)

lemma KeepsClient.refl (c : String) (s : OrderStore) : KeepsClient c s s :=
  fun q hq => ⟨q, hq, rfl, id⟩

lemma keepsClient_commit {s : OrderStore} (hk : UniqueKeys s) {r w : Order} (hr : r ∈ s.orders)
    (hid : w.internalOrderId = r.internalOrderId) (hclient : w.clientOrderId = r.clientOrderId)
    (hstatus : w.status ≠ .created) (e : OrderEvent) (fs : List Fill) (c : String) :
    KeepsClient c s (s.commit w e fs) := by
  intro q hq
  obtain ⟨hm, hc⟩ := row_some hq
  by_cases hqr : q.internalOrderId = r.internalOrderId
  · obtain rfl : q = r := eq_of_key_eq hk.orderIds hm hr hqr
    exact ⟨w, getByClient_commit_self hk hid hclient e fs hq, hid, fun _ => hstatus⟩
  · exact ⟨q, getByClient_commit_of_ne (hk.commit hr hid hclient e fs) hq (hid ▸ hqr), rfl, id⟩

lemma keepsClient_created {s : OrderStore} {intent : OrderIntent} {mode : TradingMode}
    {orderId eventId : String} (c : String) :
    KeepsClient c s ⟨s.orders ++ [intentRow intent mode orderId],
      s.events ++ [createdEvent intent mode orderId eventId], s.fills⟩ :=
  fun q hq => ⟨q, row_append_of_some hq, rfl, id⟩

/-- Every call of the order manager keeps the keys and the order with client id `c`. -/
lemma exec_keepsClient {s : OrderStore} (hk : UniqueKeys s) (call : OrderCall) (c : String) :
    UniqueKeys (exec s call) ∧ KeepsClient c s (exec s call) := by
  have heff := exec_effect s call
  generalize exec s call = s' at heff
  cases heff with
  | unchanged => exact ⟨hk, KeepsClient.refl c s⟩
  | created intent mode orderId eventId hid hclient hevent =>
    exact ⟨hk.created mode eventId hid hclient, keepsClient_created c⟩
  | recorded orderId l minted r n hn hacc =>
    have hr := (get_mem hacc.row).1
    exact ⟨hk.commit (w := recordedRow r n l.args minted) hr rfl rfl _ _,
      keepsClient_commit (w := recordedRow r n l.args minted) hk hr rfl rfl (nextStatus_ne_created hn) _ _ c⟩
  | filled fill ids r n hacc =>
    have hr := fillOrder_mem hacc.row
    exact ⟨hk.commit (w := filledRow r fill n ids) hr rfl rfl _ _,
      keepsClient_commit (w := filledRow r fill n ids) hk hr rfl rfl (nextStatus_ne_created hacc.next) _ _ c⟩

lemma transitionWrite_keepsClient {s s' : OrderStore} (hk : UniqueKeys s) {p : PendingTransition}
    (hp : p.statusAfter ≠ .created) {t : OrderEventType} {args : EventArgs} {minted : String}
    {a : Option Order} (h : transitionWrite p t args minted s = .ok (a, s')) (c : String) :
    UniqueKeys s' ∧ KeepsClient c s s' := by
  unfold transitionWrite at h
  cases hw : recordEvent p.order t p.statusAfter args minted s with
  | error e => simp [hw] at h
  | ok w =>
    obtain ⟨e, s₁⟩ := w
    simp only [hw, Except.ok.injEq, Prod.mk.injEq] at h
    obtain ⟨-, rfl⟩ := h
    rcases recordEvent_cases hw with ⟨rfl, -⟩ | ⟨r, hacc, rfl⟩
    · exact ⟨hk, KeepsClient.refl c _⟩
    · have hr := (get_mem hacc.row).1
      exact ⟨hk.commit (w := recordedRow r p.statusAfter args minted) hr rfl rfl _ _,
        keepsClient_commit (w := recordedRow r p.statusAfter args minted) hk hr rfl rfl hp _ _ c⟩

/-! ### The invariant -/

/-- The call has written `validate` and has not submitted yet. -/
def CallPc.validated : CallPc → Bool
  | .reading .submitting _ | .reading .submitted _ => true
  | .writing .submitting _ _ | .writing .submitted _ _ => true
  | .submitting _ => true
  | _ => false

/-- The order a call works on. -/
def CallPc.order : CallPc → Option Order
  | .reading _ order | .writing _ order _ | .submitting order => some order
  | _ => none

/-- A pending transition of a call is one of its order, to a status of the table. -/
def CallPc.Sound : CallPc → Prop
  | .writing _ order p => p.order.internalOrderId = order.internalOrderId ∧ p.statusAfter ≠ .created
  | _ => True

/-- Calls with client id `c`: they share one order, at most one of them has validated it,
and once that one has submitted, none has. -/
structure RaceInv (c : String) (st : SignalRace) : Prop where
  keys : UniqueKeys st.store
  sound : ∀ i, (st.pc i).Sound
  linked : ∀ i o, (st.pc i).order = some o →
    ∃ q, st.store.getByClient c = some q ∧ q.internalOrderId = o.internalOrderId
  single : ∀ i j, (st.pc i).validated → (st.pc j).validated → i = j
  once : st.submissions.length + st.perpetual.length = 0 ∨
    (st.submissions.length + st.perpetual.length = 1 ∧ ∀ i, (st.pc i).validated = false)
  moved : (∃ i, (st.pc i).validated) ∨ st.submissions.length + st.perpetual.length ≠ 0 →
    ∃ q, st.store.getByClient c = some q ∧ q.status ≠ .created

lemma RaceInv.store {c : String} {st : SignalRace} (h : RaceInv c st) {s : OrderStore}
    (hs : UniqueKeys s ∧ KeepsClient c st.store s) : RaceInv c { st with store := s } where
  keys := hs.1
  sound := h.sound
  linked := by
    intro i o ho
    obtain ⟨q, hq, hqo⟩ := h.linked i o ho
    obtain ⟨q', hq', hid, -⟩ := hs.2 q hq
    exact ⟨q', hq', hid.trans hqo⟩
  single := h.single
  once := h.once
  moved := by
    intro hm
    obtain ⟨q, hq, hne⟩ := h.moved hm
    obtain ⟨q', hq', -, hk⟩ := hs.2 q hq
    exact ⟨q', hq', hk hne⟩

lemma RaceInv.goto {c : String} {st : SignalRace} (h : RaceInv c st) (i : Nat) (pc : CallPc)
    (hsound : pc.Sound) (horder : ∀ o, pc.order = some o →
      ∃ q, st.store.getByClient c = some q ∧ q.internalOrderId = o.internalOrderId)
    (hval : pc.validated = true → (st.pc i).validated = true) : RaceInv c (st.goto i pc) := by
  have hold : ∀ j, ((st.goto i pc).pc j).validated = true → (st.pc j).validated = true := by
    intro j hj
    by_cases hji : j = i
    · subst hji
      exact hval (by simpa [SignalRace.goto] using hj)
    · simpa [SignalRace.goto, Function.update_of_ne hji] using hj
  constructor
  · exact h.keys
  · intro j
    by_cases hji : j = i
    · subst hji; simpa [SignalRace.goto] using hsound
    · simpa [SignalRace.goto, Function.update_of_ne hji] using h.sound j
  · intro j o ho
    by_cases hji : j = i
    · subst hji; exact horder o (by simpa [SignalRace.goto] using ho)
    · exact h.linked j o (by simpa [SignalRace.goto, Function.update_of_ne hji] using ho)
  · intro j k hj hk
    exact h.single j k (hold j hj) (hold k hk)
  · rcases h.once with h0 | ⟨h1, hnone⟩
    · exact .inl h0
    · refine .inr ⟨h1, fun j => ?_⟩
      have := hold j
      simpa [hnone j] using this
  · intro hm
    refine h.moved (hm.imp ?_ id)
    rintro ⟨j, hj⟩
    exact ⟨j, hold j hj⟩

/-- The write of `validate` on a CREATED order makes its call the only validated one. -/
lemma RaceInv.validate {c : String} {st : SignalRace} (h : RaceInv c st) {i : Nat} {order : Order}
    {p : PendingTransition} {eventId : String} {a : Option Order} {s : OrderStore}
    (hpc : st.pc i = .writing .validate order p) (hguard : WritesCreated st.store eventId (st.pc i))
    (hw : transitionWrite p .orderValidated {} eventId st.store = .ok (a, s)) :
    RaceInv c ({ st with store := s }.goto i (.reading .submitting order)) := by
  rw [hpc] at hguard
  obtain ⟨hfresh, r, hr, hrid, hcreated⟩ := hguard
  have hsound := h.sound i
  rw [hpc] at hsound
  obtain ⟨hpid, hpne⟩ := hsound
  obtain ⟨q, hq, hqo⟩ := h.linked i order (by rw [hpc]; rfl)
  have hqr : q = r := eq_of_key_eq h.keys.orderIds (row_some hq).1 hr (by rw [hqo, hrid, hpid])
  have hidle : ¬ ((∃ j, (st.pc j).validated) ∨ st.submissions.length + st.perpetual.length ≠ 0) := by
    intro hm
    obtain ⟨q', hq', hne⟩ := h.moved hm
    obtain rfl : q = q' := Option.some.inj (hq.symm.trans hq')
    exact hne (hqr ▸ hcreated)
  have hs := h.store (transitionWrite_keepsClient h.keys hpne hw c)
  obtain ⟨q', hq', hid', hne'⟩ : ∃ q', s.getByClient c = some q' ∧
      q'.internalOrderId = order.internalOrderId ∧ q'.status ≠ .created := by
    unfold transitionWrite at hw
    cases hrec : recordEvent p.order .orderValidated p.statusAfter {} eventId st.store with
    | error e => simp [hrec] at hw
    | ok w =>
      obtain ⟨e, s₁⟩ := w
      simp only [hrec, Except.ok.injEq, Prod.mk.injEq] at hw
      obtain ⟨-, rfl⟩ := hw
      rcases recordEvent_cases hrec with ⟨-, hdup⟩ | ⟨r', hacc, rfl⟩
      · have hnew : orElseNew none eventId = eventId := rfl
        simp [hnew, hfresh] at hdup
      · obtain ⟨hr', hid'⟩ := get_mem hacc.row
        obtain rfl : q = r' := by
          rw [hqr]
          exact eq_of_key_eq h.keys.orderIds hr hr' (hrid.trans hid'.symm)
        exact ⟨recordedRow q p.statusAfter {} eventId,
          getByClient_commit_self (r := q) (w := recordedRow q p.statusAfter {} eventId) h.keys rfl rfl _ _ hq,
          hqo, hpne⟩
  have hnone : ∀ j, (st.pc j).validated = false := by
    intro j
    by_contra hj
    exact hidle (.inl ⟨j, by simpa using hj⟩)
  have hzero : st.submissions.length + st.perpetual.length = 0 := by
    by_contra hz
    exact hidle (.inr hz)
  have hself : ∀ j, ((({ st with store := s } : SignalRace).goto i (.reading .submitting order)).pc j).validated →
      j = i := by
    intro j hj
    by_contra hji
    simp [SignalRace.goto, Function.update_of_ne hji, hnone j] at hj
  constructor
  · exact hs.keys
  · intro j
    by_cases hji : j = i
    · subst hji; simp [SignalRace.goto, CallPc.Sound]
    · simpa [SignalRace.goto, Function.update_of_ne hji] using h.sound j
  · intro j o ho
    by_cases hji : j = i
    · subst hji
      obtain rfl : order = o := by simpa [SignalRace.goto, CallPc.order] using ho
      exact ⟨q', hq', hid'⟩
    · exact hs.linked j o (by simpa [SignalRace.goto, Function.update_of_ne hji] using ho)
  · intro j k hj hk
    rw [hself j hj, hself k hk]
  · exact .inl hzero
  · exact fun _ => ⟨q', hq', hne'⟩

lemma RaceInv.submit {c : String} {st : SignalRace} (h : RaceInv c st) {i : Nat} {order : Order}
    (hpc : st.pc i = .submitting order) (subs perps : List Order)
    (hlen : subs.length + perps.length = st.submissions.length + st.perpetual.length + 1) :
    RaceInv c ({ st with submissions := subs, perpetual := perps }.goto i .finished) := by
  have hval : (st.pc i).validated = true := by rw [hpc]; rfl
  have hzero : st.submissions.length + st.perpetual.length = 0 := by
    rcases h.once with h0 | ⟨-, hnone⟩
    · exact h0
    · simp [hnone i] at hval
  have hfin := h.goto i .finished trivial (fun o ho => nomatch ho) (fun hf => nomatch hf)
  constructor
  · exact h.keys
  · exact hfin.sound
  · exact hfin.linked
  · exact hfin.single
  · refine .inr ⟨by simp only [SignalRace.goto]; omega, fun j => ?_⟩
    by_cases hji : j = i
    · subst hji; simp [SignalRace.goto, CallPc.validated]
    · have hj : (st.pc j).validated = false := by
        by_contra hj
        exact hji (h.single j i (by simpa using hj) hval)
      simpa [SignalRace.goto, Function.update_of_ne hji] using hj
  · exact fun _ => h.moved (.inl ⟨i, hval⟩)

lemma reuseOrConflict_ok {existing order : Order} {intent : OrderIntent}
    (h : reuseOrConflict existing intent = .ok order) : order = existing := by
  unfold reuseOrConflict at h
  split at h
  · exact (Except.ok.inj h).symm
  · simp at h

lemma RaceInv.call {c : String} {st : SignalRace} (h : RaceInv c st) {signals : Nat → SignalIntent}
    (hc : ∀ i, clientOrderId (signals i) = c) (runId : Option String) (mode : TradingMode) {i : Nat}
    {input : StepInput} (hguard : WritesCreated st.store input.eventId (st.pc i)) :
    RaceInv c (callStep signals runId mode i input st) := by
  have hclient : (intentOfSignal (signals i) runId).clientOrderId = c := hc i
  have hfinish : RaceInv c (st.goto i .finished) :=
    h.goto _ _ trivial (fun o ho => nomatch ho) (fun hf => nomatch hf)
  unfold callStep
  simp only [hclient]
  cases hpc : st.pc i with
  | start =>
    cases st.store.getByClient c with
    | some o => exact hfinish
    | none =>
      cases input.approved
      · exact hfinish
      · exact h.goto _ _ trivial (fun o ho => nomatch ho) (fun hf => nomatch hf)
  | creating =>
    cases hq : st.store.getByClient c with
    | some existing =>
      cases hu : reuseOrConflict existing (intentOfSignal (signals i) runId) with
      | error e => simpa only [hu] using hfinish
      | ok order =>
        simp only [hu]
        obtain rfl := reuseOrConflict_ok hu
        refine h.goto _ _ trivial (fun o ho => ?_) (fun hf => nomatch hf)
        obtain rfl : order = o := by simpa [CallPc.order] using ho
        exact ⟨order, hq, rfl⟩
    | none => exact h.goto _ _ trivial (fun o ho => nomatch ho) (fun hf => nomatch hf)
  | inserting =>
    unfold createInsert
    by_cases hins : st.store.get input.orderId = none ∧
        st.store.getByClient (intentOfSignal (signals i) runId).clientOrderId = none ∧
        st.store.getEvent input.eventId = none
    · simp only [hins, and_self, if_true]
      have hs := h.store ⟨h.keys.created mode input.eventId hins.1 hins.2.1,
        keepsClient_created c⟩
      refine hs.goto _ _ trivial (fun o ho => ?_) (fun hf => nomatch hf)
      obtain rfl : intentRow (intentOfSignal (signals i) runId) mode input.orderId = o := by
        simpa [CallPc.order] using ho
      refine ⟨intentRow (intentOfSignal (signals i) runId) mode input.orderId, ?_, rfl⟩
      have hnone : st.store.getByClient c = none := hclient ▸ hins.2.1
      simp only [getByClient] at hnone ⊢
      rw [row_append_of_none hnone]
      simp [row, intentRow, hclient]
    · simpa only [hins, if_false] using hfinish
  | reading g order =>
    obtain ⟨q, hq, hqo⟩ := h.linked i order (by rw [hpc]; rfl)
    cases hread : transitionRead order.internalOrderId g.lifecycle.eventType st.store with
    | error e => simpa only [hread] using hfinish
    | ok p =>
      simp only [hread]
      obtain ⟨r, n, hr, hn, rfl⟩ := transitionRead_ok_iff.mp hread
      have hsound : (CallPc.writing g order ⟨r, n, (transitions r.status g.lifecycle.eventType).isNone⟩).Sound :=
        ⟨(get_mem hr).2, nextStatus_ne_created hn⟩
      refine h.goto _ _ hsound (fun o ho => ?_) (fun hv => ?_)
      · obtain rfl : order = o := by simpa [CallPc.order] using ho
        exact ⟨q, hq, hqo⟩
      · rw [hpc]
        cases g <;> simp_all [CallPc.validated]
  | writing g order p =>
    cases hw : transitionWrite p g.lifecycle.eventType g.lifecycle.args input.eventId st.store with
    | error e => simpa only [hw] using hfinish
    | ok w =>
      obtain ⟨a, s⟩ := w
      simp only [hw]
      cases g with
      | validate => exact h.validate hpc hguard hw
      | submitting | submitted =>
        have hsound := h.sound i
        rw [hpc] at hsound
        have hs := h.store (transitionWrite_keepsClient h.keys hsound.2 hw c)
        refine hs.goto _ _ trivial (fun o ho => ?_) (fun _ => by simp [hpc, CallPc.validated])
        obtain rfl : order = o := by simpa [CallPc.order, Gate.after] using ho
        exact hs.linked i order (by simp [hpc, CallPc.order])
  | submitting order =>
    cases (intentOfSignal (signals i) runId).marketType with
    | spot => exact h.submit hpc _ _ (by simp; omega)
    | perpetual => exact h.submit hpc _ _ (by simp; omega)
  | finished => exact h

/-- While every write of `validate` finds the order CREATED, concurrent deliveries of one
signal submit its order at most once, to the adapter or to the perpetual engine. -/
theorem signal_submitted_at_most_once (signals : Nat → SignalIntent) (c : String)
    (hc : ∀ i, clientOrderId (signals i) = c) (runId : Option String) (mode : TradingMode)
    {s : OrderStore} (hs : UniqueKeys s) (turns : List SignalTurn)
    (hguard : Runs.Along (signalStep signals runId mode) ValidatesCreated { store := s } turns) :
    Runs.Visits (signalStep signals runId mode)
      (fun st => st.submissions.length ≤ 1 ∧ st.perpetual.length ≤ 1) { store := s } turns := by
  have hinit : RaceInv c { store := s } := by
    constructor
    · exact hs
    · exact fun _ => trivial
    · exact fun _ _ ho => nomatch ho
    · exact fun _ _ hi => nomatch hi
    · exact .inl rfl
    · rintro (⟨i, hi⟩ | hz)
      · exact nomatch hi
      · exact absurd rfl hz
  refine (Runs.visits_of_along ?_ hinit hguard).mono (fun st h => ?_)
  · intro st turn h hg
    cases turn with
    | call i input => exact h.call hc runId mode hg
    | other call => exact h.store (exec_keepsClient h.keys call c)
    | otherWrite p l minted =>
      simp only [signalStep]
      cases hw : transitionWrite p l.eventType l.args minted st.store with
      | error e => exact h
      | ok w =>
        obtain ⟨a, s⟩ := w
        exact h.store (transitionWrite_keepsClient h.keys (nextStatus_ne_created hg) hw c)
  · rcases h.once with h0 | ⟨h1, -⟩ <;> omega

def sampleSignal (marketType : MarketType) : SignalIntent where
  signalId := "s1"
  strategyId := "trend"
  symbol := "BTCUSDT"
  side := .buy
  quantity := 2
  limitPrice := some 100
  marketType := marketType

/-- A turn of call `i` that mints ids named after `n`. -/
def turnOf (i n : Nat) : SignalTurn :=
  .call i { orderId := s!"ord_{n}", eventId := s!"evt_{n}" }

/-- The second call starts after the first has created the order, and is told so. -/
theorem signal_submitted_once_in_turn :
    Runs.Visits (signalStep (fun _ => sampleSignal .spot) none .paper)
      (fun st => st.submissions.length ≤ 1 ∧ st.perpetual.length ≤ 1) { store := {} }
      [turnOf 0 1, turnOf 0 2, turnOf 0 3, turnOf 1 4, turnOf 0 5, turnOf 0 6, turnOf 0 7, turnOf 0 8,
        turnOf 0 9, turnOf 0 10, turnOf 0 11] :=
  signal_submitted_at_most_once (fun _ => sampleSignal .spot) (clientOrderId (sampleSignal .spot))
    (fun _ => rfl) none .paper ⟨by decide, by decide⟩ _ (by decide +kernel)

/-- Two calls in lock step: the second looks the client id up once the first has inserted
the order, and from there every read finds what the other call read. -/
def lockStep : List SignalTurn :=
  [turnOf 0 1, turnOf 1 2, turnOf 0 3, turnOf 0 4, turnOf 1 5, turnOf 0 6, turnOf 1 7, turnOf 0 8, turnOf 1 9,
    turnOf 0 10, turnOf 1 11, turnOf 0 12, turnOf 1 13, turnOf 0 14, turnOf 1 15, turnOf 0 16, turnOf 1 17,
    turnOf 0 18, turnOf 1 19]

/-- In lock step both calls submit the order to the adapter, and a perpetual order to the
perpetual engine. -/
theorem lock_step_submits_twice :
    (Runs.run (signalStep (fun _ => sampleSignal .spot) none .paper) { store := {} }
      lockStep).submissions.map Order.clientOrderId = ["trend_s1", "trend_s1"] ∧
    (Runs.run (signalStep (fun _ => sampleSignal .perpetual) none .paper) { store := {} }
      lockStep).perpetual.map Order.clientOrderId = ["trend_s1", "trend_s1"] := by
  constructor <;> decide +kernel

end CryptoTrader
