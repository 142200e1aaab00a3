import CryptoTrader.Runtime.Events

/-!
# Events delivered again

`ack`, `opened`, `cancel_confirm`, `reject` and `process_exchange_event` with an event that is
already recorded. The transition table judges the event against the order's present status
first, and the UNIQUE constraint on the event id is met only by an event that passes. A fill is
recognised by its fill id before anything else is looked at, so a fill that carries one is a
no-op in every status.
-/

namespace CryptoTrader

open OrderStore

/-- One delivery of an order event: a named call of the manager, or an event of the exchange. -/
inductive Delivery where
  | manager (orderId : String) (l : Lifecycle)
  | exchange (event : ExchangeEvent)
  deriving DecidableEq, Repr

/-- The order event an event of the exchange is recorded as. A fill is recorded under an id
minted for it. -/
def recordedType : ExchangeEventType → Option OrderEventType
  | .orderAck => some .orderAcknowledged
  | .orderOpened => some .orderOpened
  | .orderCancelled => some .orderCancelled
  | .orderRejected => some .orderRejected
  | _ => none

def ExchangeEvent.isFill (event : ExchangeEvent) : Bool :=
  event.eventType = .orderPartiallyFilled || event.eventType = .orderFilled

structure EventRecorded (s : OrderStore) (t : OrderEventType) (eventId : String) : Prop where
  named : eventId ≠ ""
  stored : ∃ e ∈ s.events, e.eventId = eventId ∧ e.eventType = t

/-- The fill an earlier delivery read from the payload is stored. -/
def FillRecorded (s : OrderStore) (payload : EventPayload) : Prop :=
  ∃ order minted fill, fillFromPayload order payload minted = .ok fill ∧
    fill.fillId ∈ s.fills.map Fill.fillId

namespace Delivery

def run {σ : Type} (h : EventHandlers σ) (ids : EventIds) : Delivery → Db σ →
    Except TradingError Unit × Db σ
  | manager orderId l, db => runAction h ids orderId (.lifecycle l) db
  | exchange event, db => processExchangeEvent h ids event db

/-- The event of the delivery is recorded. -/
def Recorded (s : OrderStore) : Delivery → Prop
  | manager _ l => ∃ eventId, l.args.eventId = some eventId ∧ EventRecorded s l.eventType eventId
  | exchange event =>
    match recordedType event.eventType with
    | some t => EventRecorded s t event.eventId
    | none => event.isFill ∧ FillRecorded s event.payload

/-- The transition table has an entry for the order's present status and the event; a fill
carries its id. -/
def Accepted (s : OrderStore) : Delivery → Prop
  | manager orderId l => ∃ r, s.get orderId = some r ∧ nextStatus r.status l.eventType ≠ none
  | exchange event => ∀ r x, eventOrder event s = some (r, x) →
    match recordedType event.eventType with
    | some t => nextStatus r.status t ≠ none
    | none => truthy event.payload.fillId

end Delivery

/-! ### What is recorded stays recorded -/

lemma CallEffect.events_grow {s s' : OrderStore} {c : OrderCall} (h : CallEffect s c s') :
    s.events <+: s'.events := by
  cases h with
  | unchanged => exact List.prefix_refl _
  | created intent mode orderId eventId => exact List.prefix_append _ _
  | recorded orderId l minted r n => exact List.prefix_append _ _
  | filled fill ids r n => exact List.prefix_append _ _

lemma CallEffect.fills_grow {s s' : OrderStore} {c : OrderCall} (h : CallEffect s c s') :
    s.fills <+: s'.fills := by
  cases h with
  | unchanged => exact List.prefix_refl _
  | created intent mode orderId eventId => exact List.prefix_refl _
  | recorded orderId l minted r n => exact List.prefix_append _ _
  | filled fill ids r n => exact List.prefix_append _ _

lemma Delivery.Recorded.mono {s s' : OrderStore} {d : Delivery} (he : s.events <+: s'.events)
    (hf : s.fills <+: s'.fills) (h : d.Recorded s) : d.Recorded s' := by
  have hevent : ∀ {t eventId}, EventRecorded s t eventId → EventRecorded s' t eventId := by
    rintro t eventId ⟨hid, e, hm, hrest⟩
    exact ⟨hid, e, he.subset hm, hrest⟩
  cases d with
  | manager orderId l =>
    obtain ⟨eventId, hid, hrec⟩ := h
    exact ⟨eventId, hid, hevent hrec⟩
  | exchange event =>
    simp only [Delivery.Recorded] at h ⊢
    cases ht : recordedType event.eventType with
    | some t =>
      rw [ht] at h
      exact hevent h
    | none =>
      rw [ht] at h
      obtain ⟨hfill, order, minted, fill, hread, hm⟩ := h
      exact ⟨hfill, order, minted, fill, hread, (hf.map Fill.fillId).subset hm⟩

lemma Delivery.Recorded.run {s : OrderStore} {d : Delivery} (h : d.Recorded s) (calls : List OrderCall) :
    d.Recorded (Runs.run exec s calls) :=
  Runs.run_invariant (I := fun s => d.Recorded s) (C := fun _ _ => True)
    (fun s c hs _ => hs.mono (exec_effect s c).events_grow (exec_effect s c).fills_grow) h
    (Runs.along_of_forall (fun _ _ => trivial))

/-! ### One delivery -/

lemma EventRecorded.getEvent {s : OrderStore} {t : OrderEventType} {eventId : String}
    (h : EventRecorded s t eventId) (minted : String) :
    ∃ e, s.getEvent (orElseNew (some eventId) minted) = some e := by
  have hid : orElseNew (some eventId) minted = eventId := by simp [orElseNew, truthy, h.named]
  rw [hid]
  obtain ⟨e, hm, rfl, -⟩ := h.stored
  apply Option.ne_none_iff_exists'.mp
  intro hnone
  exact getEvent_eq_none_iff.mp hnone (List.mem_map_of_mem hm)

lemma lifecycle_recorded_iff {s : OrderStore} {l : Lifecycle} {eventId : String}
    (hid : l.args.eventId = some eventId) (h : EventRecorded s l.eventType eventId)
    (orderId minted : String) : (∃ o, l.run orderId minted s = .ok (o, s)) ↔
      ∃ r, s.get orderId = some r ∧ nextStatus r.status l.eventType ≠ none := by
  rw [l.run_eq]
  constructor
  · rintro ⟨o, ho⟩
    obtain ⟨r, n, hr, hn, -⟩ := transition_cases ho
    exact ⟨r, hr, by simp [hn]⟩
  · rintro ⟨r, hr, hne⟩
    obtain ⟨n, hn⟩ := Option.ne_none_iff_exists'.mp hne
    obtain ⟨e, he⟩ := h.getEvent minted
    exact transition_recorded hr hn (hid ▸ he)

section Handlers

variable {σ : Type} {h : EventHandlers σ} {ids : EventIds} {db : Db σ}

lemma runAction_lifecycle_noop_iff (orderId : String) (l : Lifecycle) :
    runAction h ids orderId (.lifecycle l) db = (.ok (), db) ↔
      ∃ o, l.run orderId ids.eventId db.store = .ok (o, db.store) := by
  simp only [runAction]
  cases hl : l.run orderId ids.eventId db.store with
  | error e => simp
  | ok w =>
    obtain ⟨o, s⟩ := w
    constructor
    · intro heq
      have hs : s = db.store := congrArg (fun p => p.2.store) heq
      exact ⟨o, by rw [hs]⟩
    · rintro ⟨o', ho⟩
      simp only [Except.ok.injEq, Prod.mk.injEq] at ho
      have hs : s = db.store := ho.2
      rw [hs]

/-- A fill whose id is new is either stored or refused with an exception. -/
lemma runAction_fill_noop_iff (orderId : String) (fill : Fill) :
    runAction h ids orderId (.fill fill) db = (.ok (), db) ↔
      fill.fillId ∈ db.store.fills.map Fill.fillId := by
  constructor
  · intro heq
    by_contra hnew
    have hfresh : db.store.getFill fill.fillId = none := getFill_eq_none_iff.mpr hnew
    simp only [runAction] at heq
    cases ht : applyFillTxn fill ids.fill db.store with
    | error e => simp [applyFill, ht] at heq
    | ok w =>
      obtain ⟨result, s⟩ := w
      have hstore := applyFill_store h.settle ht
      obtain ⟨f, hf, -⟩ | ⟨r, n, -, -, rfl⟩ := applyFillTxn_cases ht
      · simp [hfresh] at hf
      · have hkept : (applyFill h.settle fill ids.fill db).2 = db := by
          rcases hres : applyFill h.settle fill ids.fill db with ⟨_ | _, db'⟩ <;> simp_all
        have hfills := congrArg OrderStore.fills (hstore.symm.trans (congrArg Db.store hkept))
        simp at hfills
  · intro hm
    obtain ⟨f, hf⟩ := Option.ne_none_iff_exists'.mp
      (fun hnone => getFill_eq_none_iff.mp hnone hm : db.store.getFill fill.fillId ≠ none)
    simp only [runAction, applyFill_duplicate h.settle fill hf]

end Handlers

/-! ### A delivery of the exchange -/

lemma not_isMarket_of_recordedType {event : ExchangeEvent} {t : OrderEventType}
    (ht : recordedType event.eventType = some t) : event.isMarket = false := by
  cases hty : event.eventType <;> simp_all [recordedType, ExchangeEvent.isMarket]

lemma not_isMarket_of_isFill {event : ExchangeEvent} (hf : event.isFill) : event.isMarket = false := by
  cases hty : event.eventType <;> simp_all [ExchangeEvent.isFill, ExchangeEvent.isMarket]

lemma eventAction_recordedType {event : ExchangeEvent} {t : OrderEventType}
    (ht : recordedType event.eventType = some t) (order : Order) (x minted : String) :
    ∃ l, eventAction order event x minted = .ok (.lifecycle l) ∧ l.eventType = t ∧
      l.args.eventId = some event.eventId := by
  cases hty : event.eventType <;> simp only [hty, recordedType, Option.some.injEq, reduceCtorEq] at ht <;>
    subst ht <;> simp only [eventAction, hty] <;> exact ⟨_, rfl, rfl, rfl⟩

lemma eventAction_isFill {event : ExchangeEvent} (hf : event.isFill) {order : Order} {minted : String}
    {fill : Fill} (hread : fillFromPayload order event.payload minted = .ok fill) (x : String) :
    eventAction order event x minted = .ok (.fill fill) := by
  cases hty : event.eventType <;> simp_all [ExchangeEvent.isFill, eventAction]

lemma eventOrder_mem {event : ExchangeEvent} {s : OrderStore} {r : Order} {x : String}
    (h : eventOrder event s = some (r, x)) : r ∈ s.orders := by
  unfold eventOrder at h
  cases hx : event.payload.exchangeOrderId with
  | none => simp [hx] at h
  | some y =>
    simp only [hx, Option.ite_none_left_eq_some, Option.map_eq_some_iff, Prod.mk.injEq] at h
    obtain ⟨-, order, ho, rfl, -⟩ := h
    exact (getByExchange_mem ho).1

lemma decimalOr_ok_iff (raw : Option RawDecimal) (default : ℚ) :
    (∃ q, decimalOr raw default = .ok q) ↔ raw ≠ some .malformed := by
  cases raw with
  | none => simp [decimalOr]
  | some r => cases r <;> simp [decimalOr, D]

lemma fillFromPayload_ok_iff (order : Order) (payload : EventPayload) (minted : String) :
    (∃ fill, fillFromPayload order payload minted = .ok fill) ↔ payload.fillPrice ≠ some .malformed ∧
      payload.fillQuantity ≠ some .malformed ∧ payload.fee ≠ some .malformed := by
  rw [← decimalOr_ok_iff _ (order.price.getD 0), ← decimalOr_ok_iff _ 0, ← decimalOr_ok_iff _ 0]
  simp only [fillFromPayload]
  cases decimalOr payload.fillPrice (order.price.getD 0) <;> cases decimalOr payload.fillQuantity 0 <;>
    cases decimalOr payload.fee 0 <;> simp [bind, Except.bind, pure, Except.pure]

lemma fillFromPayload_fillId {order : Order} {payload : EventPayload} {minted : String} {fill : Fill}
    (h : fillFromPayload order payload minted = .ok fill) :
    fill.fillId = orElseNew payload.fillId minted := by
  simp only [fillFromPayload] at h
  cases hp : decimalOr payload.fillPrice (order.price.getD 0) <;> cases hq : decimalOr payload.fillQuantity 0 <;>
    cases hf : decimalOr payload.fee 0 <;>
    simp only [hp, hq, hf, bind, Except.bind, pure, Except.pure, Except.ok.injEq, reduceCtorEq] at h
  rw [← h]

lemma FillRecorded.again {s : OrderStore} {payload : EventPayload} (h : FillRecorded s payload)
    (order : Order) (minted : String) :
    ∃ fill, fillFromPayload order payload minted = .ok fill ∧ fill.fillId = orElseNew payload.fillId minted := by
  obtain ⟨order₀, minted₀, fill₀, hread, -⟩ := h
  have hreadable := (fillFromPayload_ok_iff order₀ payload minted₀).mp ⟨fill₀, hread⟩
  obtain ⟨fill, hfill⟩ := (fillFromPayload_ok_iff order payload minted).mpr hreadable
  exact ⟨fill, hfill, fillFromPayload_fillId hfill⟩

/-- A fill read again is a stored one exactly when the payload carries its id. -/
lemma FillRecorded.stored_iff {s : OrderStore} {payload : EventPayload} (h : FillRecorded s payload)
    {minted : String} (hfresh : s.getFill minted = none) :
    orElseNew payload.fillId minted ∈ s.fills.map Fill.fillId ↔ truthy payload.fillId := by
  obtain ⟨order₀, minted₀, fill₀, hread, hm⟩ := h
  constructor
  · intro hstored
    by_contra hanon
    have hid : orElseNew payload.fillId minted = minted := by simp [orElseNew, hanon]
    exact getFill_eq_none_iff.mp hfresh (hid ▸ hstored)
  · intro ht
    have hid : orElseNew payload.fillId minted = orElseNew payload.fillId minted₀ :=
      Option.some.inj ((orElseNew_of_truthy ht minted).symm.trans (orElseNew_of_truthy ht minted₀))
    rw [hid, ← fillFromPayload_fillId hread]
    exact hm

section Handlers

variable {σ : Type} {h : EventHandlers σ} {ids : EventIds} {db : Db σ} {event : ExchangeEvent}

lemma processExchangeEvent_noop_iff (hk : UniqueKeys db.store) (hrec : (Delivery.exchange event).Recorded db.store)
    (hfresh : db.store.getFill ids.fillId = none) :
    processExchangeEvent h ids event db = (.ok (), db) ↔ (Delivery.exchange event).Accepted db.store := by
  simp only [Delivery.Recorded] at hrec
  simp only [Delivery.Accepted]
  cases ht : recordedType event.eventType with
  | some t =>
    rw [ht] at hrec
    simp only [processExchangeEvent, not_isMarket_of_recordedType ht, Bool.false_eq_true, if_false]
    cases ho : eventOrder event db.store with
    | none => simp
    | some found =>
      obtain ⟨r, x⟩ := found
      obtain ⟨l, hl, rfl, hid⟩ := eventAction_recordedType ht r x ids.fillId
      have hget : db.store.get r.internalOrderId = some r := hk.get (eventOrder_mem ho)
      simp only [hl, runAction_lifecycle_noop_iff, lifecycle_recorded_iff hid hrec, hget,
        Option.some.injEq, exists_eq_left', Prod.mk.injEq]
      constructor
      · rintro hnext r' x' ⟨rfl, -⟩
        exact hnext
      · intro haccepted
        exact haccepted r x ⟨rfl, rfl⟩
  | none =>
    rw [ht] at hrec
    obtain ⟨hfill, hrec⟩ := hrec
    simp only [processExchangeEvent, not_isMarket_of_isFill hfill, Bool.false_eq_true, if_false]
    cases ho : eventOrder event db.store with
    | none => simp
    | some found =>
      obtain ⟨r, x⟩ := found
      obtain ⟨fill, hread, hid⟩ := hrec.again r ids.fillId
      simp only [eventAction_isFill hfill hread, runAction_fill_noop_iff, hid, hrec.stored_iff hfresh]
      constructor
      · intro htruthy r' x' _
        exact htruthy
      · intro haccepted
        exact haccepted r x rfl

/-- An event recorded by then, delivered again at a later point of any run, raises nothing and
changes nothing exactly when the transition table has an entry for the order's status at that
point. -/
theorem redelivered_noop_iff {earlier : List OrderCall} {d : Delivery}
    (hrec : d.Recorded (Runs.run exec {} earlier)) (later : List OrderCall) (rest : σ)
    (hfresh : (Runs.run exec {} (earlier ++ later)).getFill ids.fillId = none) :
    d.run h ids ⟨Runs.run exec {} (earlier ++ later), rest⟩ =
        (.ok (), ⟨Runs.run exec {} (earlier ++ later), rest⟩) ↔
      d.Accepted (Runs.run exec {} (earlier ++ later)) := by
  have hkeys := (tableKeys_run storeConsistent_empty.toTableKeys (earlier ++ later)).toUniqueKeys
  have hnow : d.Recorded (Runs.run exec {} (earlier ++ later)) := by
    rw [Runs.run_append]
    exact hrec.run later
  cases d with
  | manager orderId l =>
    obtain ⟨eventId, hid, hevent⟩ := hnow
    simp only [Delivery.run, runAction_lifecycle_noop_iff, lifecycle_recorded_iff hid hevent, Delivery.Accepted]
  | exchange event => exact processExchangeEvent_noop_iff hkeys hnow hfresh

end Handlers

/-! ### An order that is opened, and then cancelled -/

def openedLife : List OrderCall :=
  submittedLife ++ [.lifecycle "o1" (.ack "x1" (some "exevt_1")) "e4",
    .lifecycle "o1" (.opened (some "exevt_2")) "e5"]

def cancelledAfter : List OrderCall :=
  [.lifecycle "o1" (.cancelPending "user request") "e6", .lifecycle "o1" (.cancelConfirm (some "exevt_3")) "e7"]

def openedEvent : ExchangeEvent where
  eventId := "exevt_2"
  eventType := .orderOpened
  payload := { exchangeOrderId := some "x1" }

lemma openedLife_recorded : EventRecorded (Runs.run exec {} openedLife) .orderOpened "exevt_2" :=
  ⟨by decide, by decide +kernel⟩

/-- While the order is open its opening is a no-op, from the stream and from the manager. -/
theorem redelivered_opening_noop : (Delivery.exchange openedEvent).run quietHandlers (countedIds 1)
    ⟨Runs.run exec {} (openedLife ++ [.applyFill (sampleFill "f1" 1) ⟨"t1", "e6", "e7"⟩]), ()⟩ =
      (.ok (), ⟨Runs.run exec {} (openedLife ++ [.applyFill (sampleFill "f1" 1) ⟨"t1", "e6", "e7"⟩]), ()⟩) := by
  refine (redelivered_noop_iff (d := .exchange openedEvent) openedLife_recorded _ () ?_).mpr ?_
  · decide +kernel
  · intro r x hfound
    have hopen : ((eventOrder openedEvent (Runs.run exec {} (openedLife ++
        [.applyFill (sampleFill "f1" 1) ⟨"t1", "e6", "e7"⟩]))).map (fun p => p.1.status)) =
          some .partiallyFilled := by decide +kernel
    rw [hfound] at hopen
    have hstatus : r.status = .partiallyFilled := by simpa using hopen
    change nextStatus r.status .orderOpened ≠ none
    rw [hstatus]
    decide

/-- Once it is cancelled, the same event raises, through either call. -/
theorem redelivered_opening_raises : EventRecorded (Runs.run exec {} openedLife) .orderOpened "exevt_2" ∧
    ((Delivery.exchange openedEvent).run quietHandlers (countedIds 1)
      ⟨Runs.run exec {} (openedLife ++ cancelledAfter), ()⟩).1 =
        .error (.invalidStateTransition "invalid order transition CANCELLED -> ORDER_OPENED") ∧
    ((Delivery.manager "o1" (.opened (some "exevt_2"))).run quietHandlers (countedIds 1)
      ⟨Runs.run exec {} (openedLife ++ cancelledAfter), ()⟩).1 =
        .error (.invalidStateTransition "invalid order transition CANCELLED -> ORDER_OPENED") :=
  ⟨openedLife_recorded, by decide +kernel, by decide +kernel⟩

end CryptoTrader
