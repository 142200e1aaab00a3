import CryptoTrader.Runtime.OrderFlow

/-!
# What `submit_order` answers

The exceptions of `domain/errors.py`, the `except` clauses around `submit_order` in
`process_signal`, and the status the order is left in. The clauses are tried in their order,
so the one for `ExchangeError` takes every exception derived from it, the refusals among them.
While the answer is awaited the other tasks of the engine go on calling the order manager.
-/

namespace CryptoTrader

open KeyedTable OrderStore

/-- The exceptions of `domain/errors.py`. -/
inductive ErrorClass where
  | cryptoTraderError
  | exchangeError
  | exchangeUnavailable
  | rateLimited
  | authenticationError
  | invalidOrder
  | insufficientBalance
  | orderNotFound
  | orderRejected
  | staleMarketData
  | sequenceGap
  | temporaryNetworkError
  | unknownExecutionState
  | idempotencyConflict
  | invalidStateTransition
  | journalUnbalanced
  | leaseNotHeld
  | killSwitchEngaged
  | marketDataUnhealthy
  deriving DecidableEq, Repr

namespace ErrorClass

/-- The class a class is derived from. -/
def base : ErrorClass → Option ErrorClass
  | cryptoTraderError => none
  | exchangeError | idempotencyConflict | invalidStateTransition | journalUnbalanced | leaseNotHeld
  | killSwitchEngaged | marketDataUnhealthy => some cryptoTraderError
  | _ => some exchangeError

/-- `issubclass`, in a hierarchy that is two levels deep. -/
def isA (c d : ErrorClass) : Bool :=
  c = d || c.base = some d || c.base.bind base = some d

/-- The answers by which the exchange definitely refuses an order. -/
def refusals : List ErrorClass :=
  [orderRejected, invalidOrder, insufficientBalance]

end ErrorClass

/-- The `except` clauses around `submit_order`. -/
inductive SubmitHandler where
  | timeout
  | transient
  | rejected
  deriving DecidableEq, Repr

/-- The clauses in their order, each with the classes it names. -/
def submitHandlers : List (List ErrorClass × SubmitHandler) :=
  [([.unknownExecutionState], .timeout), ([.temporaryNetworkError, .rateLimited, .exchangeError], .transient),
    ([.orderRejected], .rejected)]

def handlerOf (c : ErrorClass) : Option SubmitHandler :=
  (submitHandlers.find? (fun clause => clause.1.any c.isA)).map Prod.snd

/-- What `adapter.submit_order` does: it returns the order of the exchange, or raises. -/
inductive SubmitAnswer where
  | returned (x : Order)
  | raised (c : ErrorClass) (message : String)
  deriving DecidableEq, Repr

/-- The exceptions `process_signal` lets through: one of the adapter, or one of its own calls. -/
inductive SubmitError where
  | adapter (c : ErrorClass) (message : String)
  | call (e : TradingError)
  deriving DecidableEq, Repr

/-- The ids minted after the answer: of the acknowledgement, of the event that follows it, and
of an event whose caller gives none. -/
structure AnswerIds where
  eventId : String
  followingId : String
  minted : String
  deriving DecidableEq, Repr

def ofCalls {α : Type} (p : Except TradingError α × Db Books) : Except SubmitError Unit × Db Books :=
  match p with
  | (.ok _, db) => (.ok (), db)
  | (.error e, db) => (.error (.call e), db)

/-- The call after the acknowledgement, for the statuses that have one. FILLED and
PARTIALLY_FILLED are left to the event stream. -/
def followUp (x : Order) (eventId : String) : Option Lifecycle :=
  match x.status with
  | .opened => some (.opened (some eventId))
  | .cancelled => some (.cancelConfirm (some eventId))
  | .rejected => some (.reject (orElseNew x.rejectionReason "rejected on exchange") (some eventId))
  | _ => none

/-- What `process_signal` does with the answer for the order it has submitted. -/
def handleAnswer (env : RecoveryEnv Books) (orderId : String) (ids : AnswerIds) (answer : SubmitAnswer)
    (db : Db Books) : Except SubmitError Unit × Db Books :=
  match answer with
  | .raised c message =>
    match handlerOf c with
    | some .timeout =>
      ofCalls (andThen (callLifecycle orderId (.markUnknown message) ids.minted db) fun _ db => recover env db)
    | some .transient => ofCalls (callLifecycle orderId (.markUnknown message) ids.minted db)
    | some .rejected => ofCalls (callLifecycle orderId (.reject message (some ids.eventId)) ids.minted db)
    | none => (.error (.adapter c message), db)
  | .returned x =>
    ofCalls (andThen (callLifecycle orderId (.ack (x.exchangeOrderId.getD "") (some ids.eventId)) ids.minted db)
      fun _ db =>
        match followUp x ids.followingId with
        | some l => callLifecycle orderId l ids.minted db
        | none => (.ok (), db))

/-- The database, the orders whose answer is awaited, and those the exchange has refused. -/
structure Submissions where
  db : Db Books
  awaiting : List String := []
  refused : List String := []

inductive SubmitTurn where
  /-- `process_signal` on an approved signal, up to its call of `submit_order`. -/
  | place (intent : OrderIntent) (ids : PerpetualIds)
  /-- `submit_order` answers for the `n`-th of the awaiting orders. -/
  | answer (n : Nat) (answer : SubmitAnswer) (ids : AnswerIds)
  /-- Another task calls the order manager. -/
  | other (c : OrderCall)
  deriving DecidableEq, Repr

/-- The exchange definitely refuses the order. -/
def SubmitAnswer.Refused : SubmitAnswer → Prop
  | returned x => x.status = .rejected
  | raised c _ => c ∈ ErrorClass.refusals

instance : ∀ answer : SubmitAnswer, Decidable answer.Refused
  | .returned x => inferInstanceAs (Decidable (x.status = .rejected))
  | .raised c _ => inferInstanceAs (Decidable (c ∈ ErrorClass.refusals))

def submissionStep (env : RecoveryEnv Books) (mode : TradingMode) (st : Submissions) : SubmitTurn → Submissions
  | .place intent ids =>
    match submitOrder mode intent ids st.db with
    | (.ok order, db) => { st with db, awaiting := st.awaiting ++ [order.internalOrderId] }
    | (.error _, db) => { st with db }
  | .answer n answer ids =>
    match st.awaiting[n]? with
    | none => st
    | some orderId =>
      { db := (handleAnswer env orderId ids answer st.db).2
        awaiting := st.awaiting.eraseIdx n
        refused := if answer.Refused then orderId :: st.refused else st.refused }
  | .other c => { st with db := ⟨exec st.db.store c, st.db.rest⟩ }

/-! ### What the answer asks for -/

/-- The exchange may or may not have the order: `submit_order` raised, and not a refusal. -/
def SubmitAnswer.LeavesUnknown : SubmitAnswer → Prop
  | returned _ => False
  | raised c _ => c ∉ ErrorClass.refusals

/-- The status of an order just acknowledged that the exchange shows with this status. -/
def shownStatus : OrderStatus → OrderStatus
  | .opened => .opened
  | .cancelled => .cancelled
  | .rejected => .rejected
  | .expired => .expired
  | _ => .acknowledged

/-- The status after the answer reflects it: a refused order is REJECTED, and an order that was
still SUBMITTED is in the status the exchange shows, and UNKNOWN or SUBMITTED only as it must be. -/
structure Reflects (answer : SubmitAnswer) (before after : OrderStatus) : Prop where
  refused : answer.Refused → after = .rejected
  unknown : before = .submitted → after = .unknown → answer.LeavesUnknown
  answered : before = .submitted → after ≠ .submitted
  shown : before = .submitted → ∀ x, answer = .returned x → after = shownStatus x.status

/-- No other order has the exchange id of the returned order. -/
def ReturnedIdFree (s : OrderStore) (orderId : String) (x : Order) : Prop :=
  ∀ y, x.exchangeOrderId = some y → y ≠ "" →
    ∀ r ∈ s.orders, r.internalOrderId ≠ orderId → r.exchangeOrderId ≠ some y

instance (s : OrderStore) (orderId : String) (x : Order) : Decidable (ReturnedIdFree s orderId x) :=
  match h : x.exchangeOrderId with
  | none => .isTrue (by simp [ReturnedIdFree, h])
  | some y => decidable_of_iff
      (y ≠ "" → ∀ r ∈ s.orders, r.internalOrderId ≠ orderId → r.exchangeOrderId ≠ some y)
      (by simp [ReturnedIdFree, h])

/-- The statuses from which an acknowledgement and a rejection lead to REJECTED. -/
def rejectableStatuses : List OrderStatus :=
  [.submitting, .submitted, .acknowledged, .opened, .partiallyFilled, .unknown]

/-- The answers that `process_signal` gets right, for an order in the status `before`. -/
def Answerable (s : OrderStore) (orderId : String) (before : OrderStatus) : SubmitAnswer → Prop
  | .raised c _ =>
    (c ∈ ErrorClass.refusals → before = .rejected) ∧ (before = .submitted → c.isA .exchangeError)
  | .returned x =>
    (x.status = .rejected → before = .rejected ∨ (before ∈ rejectableStatuses ∧ ReturnedIdFree s orderId x)) ∧
      (before = .submitted → ReturnedIdFree s orderId x ∧ x.status ≠ .cancelled ∧ x.status ≠ .expired)

/-- `new_id` never returns an id that is in the tables, nor one twice. -/
structure AnswerIds.Fresh (s : OrderStore) (ids : AnswerIds) : Prop where
  named : ids.eventId ≠ "" ∧ ids.followingId ≠ ""
  distinct : ids.eventId ≠ ids.followingId
  eventId : s.getEvent ids.eventId = none
  followingId : s.getEvent ids.followingId = none
  minted : s.getEvent ids.minted = none

/-! ### The clauses -/

lemma handlerOf_eq_none_iff (c : ErrorClass) : handlerOf c = none ↔ c.isA .exchangeError = false := by
  cases c <;> decide

/-- The last clause is never reached: `OrderRejected` is an `ExchangeError`. -/
lemma handlerOf_ne_rejected (c : ErrorClass) : handlerOf c ≠ some .rejected := by
  cases c <;> decide

lemma handlerOf_timeout {c : ErrorClass} (h : handlerOf c = some .timeout) : c ∉ ErrorClass.refusals := by
  cases c <;> revert h <;> decide

/-! ### One call on the order's row -/

/-- The row of the order is in the status `n`. -/
structure HasStatus (s : OrderStore) (orderId : String) (n : OrderStatus) : Prop where
  keys : TableKeys s
  row : ∃ r, s.get orderId = some r ∧ r.status = n

section Calls

variable {db : Db Books} {orderId : String} {l : Lifecycle} {n n' : OrderStatus}

lemma HasStatus.refused (h : HasStatus db.store orderId n) (minted : String) (hn : nextStatus n l.eventType = none) :
    ∃ e, callLifecycle orderId l minted db = (.error e, db) := by
  obtain ⟨r, hr, rfl⟩ := h.row
  exact callLifecycle_illegal minted hr hn

lemma HasStatus.moves (h : HasStatus db.store orderId n) {minted : String} (hn : nextStatus n l.eventType = some n')
    (hevent : db.store.getEvent (orElseNew l.args.eventId minted) = none)
    (hfree : ∀ y, l.args.exchangeOrderId = some y → y ≠ "" →
      ∀ r ∈ db.store.orders, r.internalOrderId ≠ orderId → r.exchangeOrderId ≠ some y) :
    ∃ db', callLifecycle orderId l minted db = (.ok (), db') ∧ HasStatus db'.store orderId n' ∧
      ∀ e, db.store.getEvent e = none → e ≠ orElseNew l.args.eventId minted → db'.store.getEvent e = none := by
  obtain ⟨r, hr, rfl⟩ := h.row
  obtain ⟨hmem, hid⟩ := get_mem hr
  have hown : db.store.exchangeIdFree r := h.keys.exchangeIdFree_self hmem rfl rfl
  have hacc : RecordAccepted db.store orderId n' l.args minted r := {
    row := hr
    eventId := hevent
    exchangeId := by
      refine (exchangeIdFree_recordedRow hown).mpr (fun ht y hy q hq hne => ?_)
      obtain ⟨z, hz, hzne⟩ := (truthy_iff _).mp ht
      obtain rfl : z = y := Option.some.inj (hz.symm.trans hy)
      exact hfree z hz hzne q hq (hid ▸ hne) }
  refine ⟨_, callLifecycle_of_accepted hn hacc, ⟨?_, recordedRow r n' l.args minted, ?_, rfl⟩, ?_⟩
  · exact h.keys.commit (w := recordedRow r n' l.args minted) hmem rfl rfl hacc.exchangeId _ _
  · rw [← hid] at hr ⊢
    exact get_commit_row _ _ hr rfl
  · intro e he hne
    exact getEvent_commit_eq_none_iff.mpr ⟨he, hne⟩

end Calls

/-! ### The status after the answer -/

lemma ofCalls_db {α : Type} (p : Except TradingError α × Db Books) : (ofCalls p).2 = p.2 := by
  rcases p with ⟨_ | _, db⟩ <;> rfl

lemma reflects_raised_iff {c : ErrorClass} {message : String} {before after : OrderStatus} :
    Reflects (.raised c message) before after ↔
      (c ∈ ErrorClass.refusals → after = .rejected) ∧ (before = .submitted → after ≠ .submitted) := by
  constructor
  · intro h
    exact ⟨h.refused, h.answered⟩
  · rintro ⟨hrefused, hanswered⟩
    refine ⟨hrefused, fun _ hunknown hc => ?_, hanswered, fun _ x hx => nomatch hx⟩
    have hrejected : after = .rejected := hrefused hc
    simp [hunknown] at hrejected

lemma shownStatus_cases (n : OrderStatus) : shownStatus n ≠ .submitted ∧ shownStatus n ≠ .unknown := by
  cases n <;> decide

lemma reflects_returned_iff {x : Order} {before after : OrderStatus} :
    Reflects (.returned x) before after ↔
      (x.status = .rejected → after = .rejected) ∧ (before = .submitted → after = shownStatus x.status) := by
  constructor
  · intro h
    exact ⟨h.refused, fun hb => h.shown hb x rfl⟩
  · rintro ⟨hrefused, hshown⟩
    obtain ⟨hsubmitted, hunknown⟩ := shownStatus_cases x.status
    refine ⟨hrefused, fun hb ha => absurd (hshown hb ▸ ha) hunknown, fun hb => hshown hb ▸ hsubmitted, ?_⟩
    intro hb y hy
    obtain rfl : x = y := SubmitAnswer.returned.inj hy
    exact hshown hb

lemma markUnknown_cases (n : OrderStatus) : (nextStatus n .orderUnknown = some .unknown ∧ n ≠ .rejected) ∨
    (nextStatus n .orderUnknown = none ∧ n ≠ .submitted) := by
  cases n <;> decide

/-- An order that has been submitted never goes back. -/
def Submitted (n : OrderStatus) : Prop :=
  n ≠ .created ∧ n ≠ .validated ∧ n ≠ .submitting ∧ n ≠ .submitted

lemma submitted_closed : ClosedStatuses Submitted := by
  intro n t n' hn hnext
  cases n <;> cases t <;> simp_all [Submitted, nextStatus, transitions, noopEvents] <;> subst hnext <;> simp

lemma rejected_closed : ClosedStatuses (fun n => n = .rejected) := by
  rintro n t n' rfl hnext
  cases t <;> simp_all [nextStatus, transitions, noopEvents]

section Answer

variable {db : Db Books} {orderId : String} {ids : AnswerIds} {before : OrderStatus}

lemma raised_unhandled (env : RecoveryEnv Books) {c : ErrorClass} (message : String) (hc : handlerOf c = none)
    (h : HasStatus db.store orderId before) :
    HasStatus (handleAnswer env orderId ids (.raised c message) db).2.store orderId before := by
  simpa only [handleAnswer, hc] using h

/-- A handled exception ends in UNKNOWN or beyond it, and leaves a REJECTED order as it was. -/
lemma raised_handled (env : RecoveryEnv Books) {c : ErrorClass} (message : String) (hc : handlerOf c ≠ none)
    (h : HasStatus db.store orderId before) (hfresh : ids.Fresh db.store) :
    ∃ after, HasStatus (handleAnswer env orderId ids (.raised c message) db).2.store orderId after ∧
      after ≠ .submitted ∧ (c ∈ ErrorClass.refusals → (after = .rejected ↔ before = .rejected)) := by
  obtain ⟨hn, hne⟩ | ⟨hn, hne⟩ := markUnknown_cases before
  · obtain ⟨db₁, hcall, h₁, -⟩ := h.moves (l := .markUnknown message) hn hfresh.minted (fun _ hy => nomatch hy)
    cases hh : handlerOf c with
    | none => exact absurd hh hc
    | some handler =>
      cases handler with
      | rejected => exact absurd hh (handlerOf_ne_rejected c)
      | transient =>
        refine ⟨.unknown, ?_, by decide, fun _ => iff_of_false (by decide) hne⟩
        simpa only [handleAnswer, hh, ofCalls_db, hcall] using h₁
      | timeout =>
        obtain ⟨r, hr, hunknown⟩ := h₁.row
        obtain ⟨calls, -, hcalls⟩ := recoverAll_exec env db₁.store.listOpen db₁
        have hstays := run_staysIn submitted_closed h₁.keys calls
        obtain ⟨r', hr', hs⟩ := hstays.stays hr (by rw [hunknown]; simp [Submitted])
        refine ⟨r'.status, ?_, hs.2.2.2, fun hc => absurd hc (handlerOf_timeout hh)⟩
        simp only [handleAnswer, hh, ofCalls_db, hcall, andThen_ok, recover, hcalls]
        exact ⟨hstays.keys, r', hr', rfl⟩
  · obtain ⟨e, hcall⟩ := h.refused (l := .markUnknown message) ids.minted hn
    refine ⟨before, ?_, hne, fun _ => Iff.rfl⟩
    cases hh : handlerOf c with
    | none => exact absurd hh hc
    | some handler =>
      cases handler with
      | rejected => exact absurd hh (handlerOf_ne_rejected c)
      | transient => simpa only [handleAnswer, hh, ofCalls_db, hcall] using h
      | timeout => simpa only [handleAnswer, hh, ofCalls_db, hcall, andThen_error] using h

lemma raised_reflects_iff (env : RecoveryEnv Books) (c : ErrorClass) (message : String) (h : HasStatus db.store orderId before)
    (hfresh : ids.Fresh db.store) :
    ∃ after, HasStatus (handleAnswer env orderId ids (.raised c message) db).2.store orderId after ∧
      (Reflects (.raised c message) before after ↔
        Answerable db.store orderId before (.raised c message)) := by
  simp only [reflects_raised_iff, Answerable]
  by_cases hc : handlerOf c = none
  · have hisA := (handlerOf_eq_none_iff c).mp hc
    refine ⟨before, raised_unhandled env message hc h, and_congr_right (fun _ => ?_)⟩
    rw [hisA]
    constructor
    · intro hne hb
      exact absurd hb (hne hb)
    · intro hfalse hb
      exact absurd (hfalse hb) (by decide)
  · obtain ⟨after, hafter, hne, hrejected⟩ := raised_handled env message hc h hfresh
    have hisA : c.isA .exchangeError = true := by
      rw [handlerOf_eq_none_iff] at hc
      simpa using hc
    refine ⟨after, hafter, ?_⟩
    constructor
    · rintro ⟨hrefused, -⟩
      exact ⟨fun hc => (hrejected hc).mp (hrefused hc), fun _ => hisA⟩
    · rintro ⟨hrefused, -⟩
      exact ⟨fun hc => (hrejected hc).mpr (hrefused hc), fun _ => hne⟩

/-- The status after a returned order: the acknowledgement, and the call that follows it. -/
def afterReturned (before : OrderStatus) (free : Bool) (shown : OrderStatus) : OrderStatus :=
  match (if free then nextStatus before .orderAcknowledged else none) with
  | none => before
  | some n =>
    match shown with
    | .opened => (nextStatus n .orderOpened).getD n
    | .cancelled => (nextStatus n .orderCancelled).getD n
    | .rejected => (nextStatus n .orderRejected).getD n
    | _ => n

lemma afterReturned_reflects_iff (before : OrderStatus) (free : Bool) (shown : OrderStatus) :
    ((shown = .rejected → afterReturned before free shown = .rejected) ∧
        (before = .submitted → afterReturned before free shown = shownStatus shown)) ↔
      (shown = .rejected → before = .rejected ∨ (before ∈ rejectableStatuses ∧ free)) ∧
        (before = .submitted → free ∧ shown ≠ .cancelled ∧ shown ≠ .expired) := by
  cases free <;> cases before <;> cases shown <;> decide

/-- The call that follows the acknowledgement is accepted, or raises and changes nothing. -/
lemma followUp_status {x : Order} {n : OrderStatus} (h : HasStatus db.store orderId n)
    (hnamed : ids.followingId ≠ "") (hevent : db.store.getEvent ids.followingId = none) {l : Lifecycle}
    (hl : followUp x ids.followingId = some l) :
    HasStatus (callLifecycle orderId l ids.minted db).2.store orderId ((nextStatus n l.eventType).getD n) := by
  have hargs : l.args.eventId = some ids.followingId ∧ l.args.exchangeOrderId = none := by
    cases hx : x.status <;> simp only [followUp, hx, Option.some.injEq, reduceCtorEq] at hl <;> subst hl <;>
      exact ⟨rfl, rfl⟩
  cases hn : nextStatus n l.eventType with
  | none =>
    obtain ⟨e, hcall⟩ := h.refused ids.minted hn
    simpa only [hcall, Option.getD_none] using h
  | some n' =>
    have hid : orElseNew l.args.eventId ids.minted = ids.followingId := by
      simp [hargs.1, orElseNew, truthy, hnamed]
    obtain ⟨db', hcall, h', -⟩ := h.moves hn (hid ▸ hevent) (fun y hy => by simp [hargs.2] at hy)
    simpa only [hcall, Option.getD_some] using h'

lemma ack_taken {x : Order} (h : HasStatus db.store orderId before) (hfresh : ids.Fresh db.store)
    (htaken : ¬ ReturnedIdFree db.store orderId x) :
    ∃ e, callLifecycle orderId (.ack (x.exchangeOrderId.getD "") (some ids.eventId)) ids.minted db = (.error e, db) := by
  obtain ⟨r, hr, rfl⟩ := h.row
  obtain ⟨hmem, hid⟩ := get_mem hr
  cases hn : nextStatus r.status .orderAcknowledged with
  | none => exact callLifecycle_illegal ids.minted hr hn
  | some n =>
    have hevent : db.store.getEvent (orElseNew (some ids.eventId) ids.minted) = none := by
      simpa [orElseNew, truthy, hfresh.named.1] using hfresh.eventId
    have hx : ¬ db.store.exchangeIdFree
        (recordedRow r n (Lifecycle.ack (x.exchangeOrderId.getD "") (some ids.eventId)).args ids.minted) := by
      intro hfree
      apply htaken
      intro y hy hne q hq hqid
      refine hfree y ?_ q hq (hid.symm ▸ hqid)
      simp [recordedRow, Lifecycle.args, hy, truthy, hne]
    obtain ⟨e, he⟩ := transition_taken hr hn hevent hx
    exact ⟨e, by simp only [callLifecycle, Lifecycle.run_eq, Lifecycle.eventType, he]⟩

lemma returned_status (env : RecoveryEnv Books) (x : Order) (h : HasStatus db.store orderId before)
    (hfresh : ids.Fresh db.store) :
    HasStatus (handleAnswer env orderId ids (.returned x) db).2.store orderId
      (afterReturned before (decide (ReturnedIdFree db.store orderId x)) x.status) := by
  by_cases hfree : ReturnedIdFree db.store orderId x
  · simp only [hfree, decide_true, afterReturned, if_true]
    cases hn : nextStatus before .orderAcknowledged with
    | none =>
      obtain ⟨e, hcall⟩ := h.refused (l := .ack (x.exchangeOrderId.getD "") (some ids.eventId)) ids.minted hn
      simpa only [handleAnswer, ofCalls_db, hcall, andThen_error] using h
    | some n =>
      have hid : orElseNew (some ids.eventId) ids.minted = ids.eventId := by
        simp [orElseNew, truthy, hfresh.named.1]
      have hunused : ∀ y, (Lifecycle.ack (x.exchangeOrderId.getD "") (some ids.eventId)).args.exchangeOrderId = some y →
          y ≠ "" → ∀ r ∈ db.store.orders, r.internalOrderId ≠ orderId → r.exchangeOrderId ≠ some y := by
        intro y hy hne
        obtain rfl : x.exchangeOrderId.getD "" = y := Option.some.inj hy
        cases hx : x.exchangeOrderId with
        | none => simp [hx] at hne
        | some z => exact hfree z hx (by simpa [hx] using hne)
      obtain ⟨db₁, hcall, h₁, hkept⟩ := h.moves (l := .ack (x.exchangeOrderId.getD "") (some ids.eventId)) hn
        (hid.symm ▸ hfresh.eventId) hunused
      have hevent : db₁.store.getEvent ids.followingId = none := by
        apply hkept _ hfresh.followingId
        exact hid.symm ▸ hfresh.distinct.symm
      have hfollow : ∀ l, followUp x ids.followingId = some l →
          HasStatus (callLifecycle orderId l ids.minted db₁).2.store orderId ((nextStatus n l.eventType).getD n) :=
        fun l hl => followUp_status h₁ hfresh.named.2 hevent hl
      simp only [handleAnswer, ofCalls_db, hcall, andThen_ok]
      cases hx : x.status with
      | opened => simpa only [followUp, hx, Lifecycle.eventType] using hfollow _ (by simp only [followUp, hx])
      | cancelled => simpa only [followUp, hx, Lifecycle.eventType] using hfollow _ (by simp only [followUp, hx])
      | rejected => simpa only [followUp, hx, Lifecycle.eventType] using hfollow _ (by simp only [followUp, hx])
      | _ => simpa only [followUp, hx] using h₁
  · obtain ⟨e, hcall⟩ := ack_taken h hfresh hfree
    simp only [hfree, decide_false, afterReturned, Bool.false_eq_true, if_false]
    simpa only [handleAnswer, ofCalls_db, hcall, andThen_error] using h

/-- The order's row after the answer reflects it exactly when the answer is one that
`process_signal` gets right. -/
lemma handleAnswer_reflects_iff (env : RecoveryEnv Books) (answer : SubmitAnswer)
    (h : HasStatus db.store orderId before) (hfresh : ids.Fresh db.store) :
    ∃ after, HasStatus (handleAnswer env orderId ids answer db).2.store orderId after ∧
      (Reflects answer before after ↔ Answerable db.store orderId before answer) := by
  cases answer with
  | raised c message => exact raised_reflects_iff env c message h hfresh
  | returned x =>
    refine ⟨_, returned_status env x h hfresh, ?_⟩
    rw [reflects_returned_iff, afterReturned_reflects_iff]
    simp only [Answerable, decide_eq_true_eq]

end Answer

/-- Up to the answer the order of an approved signal is SUBMITTED. -/
theorem submitOrder_submitted {db : Db Books} {intent : OrderIntent} {ids : PerpetualIds} (hkeys : UniqueKeys db.store)
    (hfresh : ids.Fresh db) (hclient : db.store.getByClient intent.clientOrderId = none) (mode : TradingMode) :
    ∃ order db', submitOrder mode intent ids db = (.ok order, db') ∧
      ∃ r, db'.store.get order.internalOrderId = some r ∧ r.status = .submitted := by
  obtain ⟨order, db₁, db₂, db₃, db₄, h₁, hid, h₂, h₃, h₄, -, p₄⟩ := placed_submitted hkeys hfresh hclient mode
  obtain ⟨r, hr, hrid, hstatus, -⟩ := p₄.row
  refine ⟨order, db₄, ?_, r, ?_, hstatus⟩
  · simp only [submitOrder, h₁, andThen_ok, hid, h₂, h₃, h₄]
  · rw [hid, ← hrid]
    exact p₄.keys.get (row_some hr).1

/-! ### What a turn keeps -/

section Turns

variable {S : OrderStatus → Prop} {db db' : Db Books}

/-- No order of the database leaves `S`. -/
def KeepsIn (S : OrderStatus → Prop) (db db' : Db Books) : Prop :=
  StaysIn S db.store db'.store

lemma KeepsIn.calls (hS : ClosedStatuses S) (h : KeepsIn S db db') {db'' : Db Books} (calls : List OrderCall)
    (hcalls : db''.store = Runs.run exec db'.store calls) : KeepsIn S db db'' := by
  rw [KeepsIn, hcalls]
  exact h.trans (run_staysIn hS h.keys calls)

lemma KeepsIn.lifecycle (hS : ClosedStatuses S) (h : KeepsIn S db db') (orderId : String) (l : Lifecycle)
    (minted : String) : KeepsIn S db (callLifecycle orderId l minted db').2 :=
  h.calls hS [.lifecycle orderId l minted] (callLifecycle_exec orderId l minted db')

lemma KeepsIn.create (hS : ClosedStatuses S) (h : KeepsIn S db db') (intent : OrderIntent) (mode : TradingMode)
    (orderId eventId : String) : KeepsIn S db (callCreate intent mode orderId eventId db').2 := by
  apply h.calls hS [.createFromIntent intent mode orderId eventId]
  simp only [callCreate, Runs.run_cons, Runs.run_nil, exec]
  cases createFromIntent intent mode orderId eventId db'.store <;> rfl

lemma KeepsIn.recover (hS : ClosedStatuses S) (h : KeepsIn S db db') (env : RecoveryEnv Books) :
    KeepsIn S db (recover env db').2 := by
  obtain ⟨calls, -, hcalls⟩ := recoverAll_exec env db'.store.listOpen db'
  exact h.calls hS calls hcalls

lemma submitOrder_keepsIn (hS : ClosedStatuses S) (hk : TableKeys db.store) (mode : TradingMode) (intent : OrderIntent)
    (ids : PerpetualIds) : KeepsIn S db (submitOrder mode intent ids db).2 := by
  unfold submitOrder
  apply andThen_keeps (KeepsIn.create hS (.refl hk) intent mode _ _)
  intro order db₁ h₁
  apply andThen_keeps (h₁.lifecycle hS _ .validate _)
  intro _ db₂ h₂
  apply andThen_keeps (h₂.lifecycle hS _ .submitting _)
  intro _ db₃ h₃
  apply andThen_keeps (h₃.lifecycle hS _ .submitted _)
  intro _ db₄ h₄
  exact h₄

lemma handleAnswer_keepsIn (hS : ClosedStatuses S) (hk : TableKeys db.store) (env : RecoveryEnv Books)
    (orderId : String) (ids : AnswerIds) (answer : SubmitAnswer) :
    KeepsIn S db (handleAnswer env orderId ids answer db).2 := by
  have hstart : KeepsIn S db db := .refl hk
  cases answer with
  | raised c message =>
    simp only [handleAnswer]
    cases handlerOf c with
    | none => exact hstart
    | some handler =>
      cases handler with
      | timeout =>
        rw [ofCalls_db]
        apply andThen_keeps (hstart.lifecycle hS _ (.markUnknown message) _)
        intro _ db₁ h₁
        exact h₁.recover hS env
      | transient =>
        rw [ofCalls_db]
        exact hstart.lifecycle hS _ _ _
      | rejected =>
        rw [ofCalls_db]
        exact hstart.lifecycle hS _ _ _
  | returned x =>
    simp only [handleAnswer]
    rw [ofCalls_db]
    apply andThen_keeps (hstart.lifecycle hS _ _ _)
    intro _ db₁ h₁
    cases followUp x ids.followingId with
    | none => exact h₁
    | some l => exact h₁.lifecycle hS _ l _

lemma submissionStep_keepsIn (hS : ClosedStatuses S) (env : RecoveryEnv Books) (mode : TradingMode) {st : Submissions}
    (hk : TableKeys st.db.store) (turn : SubmitTurn) : KeepsIn S st.db (submissionStep env mode st turn).db := by
  cases turn with
  | place intent ids =>
    have hplaced := submitOrder_keepsIn hS hk mode intent ids
    cases hplace : submitOrder mode intent ids st.db with
    | mk result db =>
      rw [hplace] at hplaced
      simp only [submissionStep, hplace]
      cases result <;> exact hplaced
  | answer n answer ids =>
    simp only [submissionStep]
    cases st.awaiting[n]? with
    | none => exact .refl hk
    | some orderId => exact handleAnswer_keepsIn hS hk env orderId ids answer
  | other c => exact exec_staysIn hS hk c

end Turns

/-! ### Runs -/

/-- The answer of the turn leaves its order in a status that reflects it. -/
def TurnReflects (env : RecoveryEnv Books) (mode : TradingMode) (st : Submissions) : SubmitTurn → Prop
  | .answer n answer ids => ∀ orderId, st.awaiting[n]? = some orderId → ∀ r r',
      st.db.store.get orderId = some r →
      (submissionStep env mode st (.answer n answer ids)).db.store.get orderId = some r' →
      Reflects answer r.status r'.status
  | _ => True

/-- The answer of the turn is one that `process_signal` gets right. -/
def TurnAnswerable (st : Submissions) : SubmitTurn → Prop
  | .answer n answer _ => ∀ orderId, st.awaiting[n]? = some orderId → ∀ r,
      st.db.store.get orderId = some r → Answerable st.db.store orderId r.status answer
  | _ => True

def TurnFresh (st : Submissions) : SubmitTurn → Prop
  | .answer _ _ ids => ids.Fresh st.db.store
  | _ => True

/-- `count_open` counts no order that the exchange has refused. -/
def NoRefusedOpen (st : Submissions) : Prop :=
  ∀ r ∈ st.db.store.listOpen, r.internalOrderId ∉ st.refused

/-- Awaiting orders are in the table, and refused ones are in it as REJECTED. -/
structure Accounted (st : Submissions) : Prop where
  keys : TableKeys st.db.store
  awaiting : ∀ orderId ∈ st.awaiting, ∃ r, st.db.store.get orderId = some r
  refused : ∀ orderId ∈ st.refused, ∃ r, st.db.store.get orderId = some r ∧ r.status = .rejected

lemma Accounted.noRefusedOpen {st : Submissions} (h : Accounted st) : NoRefusedOpen st := by
  intro r hr hrefused
  obtain ⟨hm, hopen⟩ := List.mem_filter.mp hr
  obtain ⟨r', hr', hstatus⟩ := h.refused _ hrefused
  obtain rfl : r = r' := Option.some.inj ((h.keys.toUniqueKeys.get hm).symm.trans hr')
  simp [hstatus, openStatuses] at hopen

section Runs

variable {env : RecoveryEnv Books} {mode : TradingMode} {st : Submissions}

lemma Accounted.step_rows (h : Accounted st) (env : RecoveryEnv Books) (mode : TradingMode) (turn : SubmitTurn) :
    TableKeys (submissionStep env mode st turn).db.store ∧
      (∀ orderId ∈ st.awaiting, ∃ r, (submissionStep env mode st turn).db.store.get orderId = some r) ∧
      ∀ orderId ∈ st.refused, ∃ r, (submissionStep env mode st turn).db.store.get orderId = some r ∧
        r.status = .rejected := by
  have hrows : KeepsIn (fun _ => True) st.db (submissionStep env mode st turn).db :=
    submissionStep_keepsIn (fun _ _ _ _ _ => trivial) env mode h.keys turn
  have hrejected := submissionStep_keepsIn rejected_closed env mode h.keys turn
  refine ⟨hrows.keys, fun orderId hm => ?_, fun orderId hm => ?_⟩
  · obtain ⟨r, hr⟩ := h.awaiting orderId hm
    obtain ⟨r', hr', -⟩ := hrows.stays hr trivial
    exact ⟨r', hr'⟩
  · obtain ⟨r, hr, hstatus⟩ := h.refused orderId hm
    exact hrejected.stays hr hstatus

lemma turnReflects_iff (env : RecoveryEnv Books) (mode : TradingMode) (hk : TableKeys st.db.store) {turn : SubmitTurn}
    (hfresh : TurnFresh st turn) : TurnReflects env mode st turn ↔ TurnAnswerable st turn := by
  cases turn with
  | place intent ids => exact Iff.rfl
  | other c => exact Iff.rfl
  | answer n answer ids =>
    refine forall_congr' (fun orderId => forall_congr' (fun hn => ?_))
    have hstep : (submissionStep env mode st (.answer n answer ids)).db = (handleAnswer env orderId ids answer st.db).2 := by
      simp only [submissionStep, hn]
    rw [hstep]
    refine forall_congr' (fun r => ?_)
    constructor
    · intro hreflects hr
      obtain ⟨after, ⟨-, r', hr', rfl⟩, hiff⟩ := handleAnswer_reflects_iff env answer ⟨hk, r, hr, rfl⟩ hfresh
      exact hiff.mp (hreflects r' hr hr')
    · intro hanswerable r' hr hr'
      obtain ⟨after, ⟨-, r'', hr'', rfl⟩, hiff⟩ := handleAnswer_reflects_iff env answer ⟨hk, r, hr, rfl⟩ hfresh
      obtain rfl : r'' = r' := Option.some.inj (hr''.symm.trans hr')
      exact hiff.mpr (hanswerable hr)

lemma Accounted.step (h : Accounted st) {turn : SubmitTurn} (hreflects : TurnReflects env mode st turn) :
    Accounted (submissionStep env mode st turn) := by
  obtain ⟨hkeys, hawaiting, hrefused⟩ := h.step_rows env mode turn
  cases turn with
  | place intent ids =>
    cases hplace : submitOrder mode intent ids st.db with
    | mk result db =>
      simp only [submissionStep, hplace] at hkeys hawaiting hrefused ⊢
      cases result with
      | error e => exact ⟨hkeys, hawaiting, hrefused⟩
      | ok order =>
        obtain ⟨r, hr, -⟩ := (submitOrder_ok h.keys.toUniqueKeys hplace).names
        refine ⟨hkeys, fun orderId hm => ?_, hrefused⟩
        rcases List.mem_append.mp hm with hm | hm
        · exact hawaiting orderId hm
        · exact ⟨r, List.mem_singleton.mp hm ▸ hr⟩
  | answer n answer ids =>
    cases hn : st.awaiting[n]? with
    | none =>
      have hstep : submissionStep env mode st (.answer n answer ids) = st := by simp only [submissionStep, hn]
      rw [hstep]
      exact h
    | some orderId =>
      have hm : orderId ∈ st.awaiting := List.mem_of_getElem? hn
      obtain ⟨r, hr⟩ := h.awaiting orderId hm
      obtain ⟨r', hr'⟩ := hawaiting orderId hm
      have hstatus := hreflects orderId hn r r' hr hr'
      refine ⟨hkeys, fun id hid => ?_, fun id hid => ?_⟩
      · simp only [submissionStep, hn] at hid
        exact hawaiting id (List.mem_of_mem_eraseIdx hid)
      · simp only [submissionStep, hn] at hid
        by_cases href : answer.Refused
        · rw [if_pos href] at hid
          rcases List.mem_cons.mp hid with rfl | hid
          · exact ⟨r', hr', hstatus.refused href⟩
          · exact hrefused id hid
        · rw [if_neg href] at hid
          exact hrefused id hid
  | other c => exact ⟨hkeys, hawaiting, hrefused⟩

/-- In every run, whatever the other tasks call in between, all answers are reflected exactly when
all are answers that `process_signal` gets right; then no refused order is ever counted as open. -/
theorem submit_answers_reflected_iff (env : RecoveryEnv Books) (mode : TradingMode) (books : Books) (turns : List SubmitTurn)
    (hfresh : Runs.Along (submissionStep env mode) TurnFresh { db := ⟨{}, books⟩ } turns) :
    (Runs.Along (submissionStep env mode) (TurnReflects env mode) { db := ⟨{}, books⟩ } turns ↔
        Runs.Along (submissionStep env mode) TurnAnswerable { db := ⟨{}, books⟩ } turns) ∧
      (Runs.Along (submissionStep env mode) TurnAnswerable { db := ⟨{}, books⟩ } turns →
        Runs.Visits (submissionStep env mode) NoRefusedOpen { db := ⟨{}, books⟩ } turns) := by
  have hstart : Accounted { db := ⟨{}, books⟩ } :=
    ⟨storeConsistent_empty.toTableKeys, fun _ hm => absurd hm List.not_mem_nil, fun _ hm => absurd hm List.not_mem_nil⟩
  have hkeys : ∀ st turn, TableKeys st.db.store → TurnFresh st turn →
      TableKeys (submissionStep env mode st turn).db.store :=
    fun st turn hk _ => (submissionStep_keepsIn rejected_closed env mode hk turn).keys
  have hiff := Runs.along_congr (I := fun st : Submissions => TableKeys st.db.store) hkeys
    (fun st turn hk hf => turnReflects_iff env mode hk hf) hstart.keys hfresh
  refine ⟨hiff, fun hanswerable => ?_⟩
  exact (Runs.visits_of_along (fun st turn h hreflects => h.step hreflects) hstart (hiff.mpr hanswerable)).mono
    (fun st h => h.noRefusedOpen)

end Runs

/-! ### A refused order -/

def silentExchange : RecoveryEnv Books where
  settle := fun _ _ books => (.ok (), books)
  getOrder := fun _ _ => .error (.temporaryNetworkError "timed out")
  newIds := fun _ => ⟨"evt_8", "evt_9", "trade_8", ⟨"trd_8", "last_8", "fevt_8"⟩⟩
  filledText := fun _ => ""

def answerIds : AnswerIds := ⟨"evt_5", "evt_6", "evt_7"⟩

/-- One order is submitted, and `submit_order` answers. -/
def answeredBy (answer : SubmitAnswer) : List SubmitTurn :=
  [.place sampleIntent (attemptIds 1), .answer 0 answer answerIds]

def submissionsOf (turns : List SubmitTurn) : Submissions :=
  Runs.run (submissionStep silentExchange .paper) { db := ⟨{}, {}⟩ } turns

/-- A returned order that is REJECTED is not counted. -/
theorem rejected_answer_not_open :
    Runs.Visits (submissionStep silentExchange .paper) NoRefusedOpen { db := ⟨{}, {}⟩ }
      (answeredBy (.returned { submittedOrder with status := .rejected, exchangeOrderId := some "x1" })) := by
  have hplaced : ∀ o ∈ (submissionsOf [.place sampleIntent (attemptIds 1)]).db.store.orders,
      o.status = .submitted ∧ o.exchangeOrderId = none := by decide +kernel
  refine (submit_answers_reflected_iff silentExchange .paper {} _ ?_).2 ?_
  · exact ⟨trivial, ⟨by decide, by decide, by decide +kernel, by decide +kernel, by decide +kernel⟩, trivial⟩
  · refine ⟨trivial, fun orderId _ r hr => ?_, trivial⟩
    have hfree : ReturnedIdFree (submissionsOf [.place sampleIntent (attemptIds 1)]).db.store orderId
        { submittedOrder with status := .rejected, exchangeOrderId := some "x1" } := by
      intro y _ _ o ho _
      simp [(hplaced o ho).2]
    have hstatus : r.status = .submitted := (hplaced r (get_mem hr).1).1
    exact ⟨fun _ => .inr ⟨by rw [hstatus]; decide, hfree⟩, fun _ => ⟨hfree, by decide, by decide⟩⟩

/-- Refused for its balance, it is left UNKNOWN and counted as open; an exception that is no
`ExchangeError` leaves it SUBMITTED, and an order returned as CANCELLED is left ACKNOWLEDGED. -/
theorem refused_order_counted :
    (submissionsOf (answeredBy (.raised .insufficientBalance "insufficient balance"))).refused = [(attemptIds 1).orderId] ∧
      (submissionsOf (answeredBy (.raised .insufficientBalance "insufficient balance"))).db.store.listOpen.map
          (fun o => (o.internalOrderId, o.status)) = [((attemptIds 1).orderId, .unknown)] ∧
      (submissionsOf (answeredBy (.raised .killSwitchEngaged "kill switch"))).db.store.orders.map Order.status = [.submitted] ∧
      (submissionsOf (answeredBy (.returned { submittedOrder with
        status := .cancelled, exchangeOrderId := some "x1" }))).db.store.orders.map Order.status = [.acknowledged] := by
  decide +kernel

end CryptoTrader
