import CryptoTrader.Runtime.Events
import CryptoTrader.Lib.Weights

/-!
# Fills that race the acknowledgement

After `submit_order` the exchange's events are queued under an exchange id that
`process_signal` has still to write on the order row, in two sessions, while the event
loop already runs. An event that is looked up before that write is dropped.
-/

namespace CryptoTrader

open OrderStore KeyedTable Weights

/-- Where `process_signal` is after `submit_order` has returned. -/
inductive SignalPc where
  | submitted
  | acking (p : PendingTransition)
  | returned
  | raised
  deriving DecidableEq, Repr

/-- Where the event loop is: waiting for an event, past the order lookup, or between the
two sessions of a transition. An exception ends it. -/
inductive LoopPc where
  | idle
  | found (event : ExchangeEvent) (order : Order) (exchangeOrderId : String)
  | writing (l : Lifecycle) (p : PendingTransition)
  | ended
  deriving DecidableEq, Repr

structure SubmitRace (σ : Type) where
  db : Db σ
  signal : SignalPc := .submitted
  queue : List ExchangeEvent
  loop : LoopPc := .idle

/-- One step of either task, with the ids minted in it. -/
inductive RaceTurn where
  | signal (minted : String)
  | loop (ids : EventIds)
  deriving DecidableEq, Repr

variable {σ : Type}

/-- `order_manager.ack(order, exchange_order_id, event_id=new_id("evt"))`, one session. -/
def signalTurn (orderId exchangeOrderId minted : String) (st : SubmitRace σ) : SubmitRace σ :=
  match st.signal with
  | .submitted =>
    match transitionRead orderId .orderAcknowledged st.db.store with
    | .ok p => { st with signal := .acking p }
    | .error _ => { st with signal := .raised }
  | .acking p =>
    match transitionWrite p .orderAcknowledged (Lifecycle.ack exchangeOrderId (some minted)).args minted
        st.db.store with
    | .ok (_, s) => { st with signal := .returned, db := ⟨s, st.db.rest⟩ }
    | .error _ => { st with signal := .raised }
  | _ => st

/-- One session of `process_exchange_event` in the event loop. -/
def loopTurn (h : EventHandlers σ) (ids : EventIds) (st : SubmitRace σ) : SubmitRace σ :=
  match st.loop, st.queue with
  | .idle, event :: queue =>
    match (if event.isMarket then none else eventOrder event st.db.store) with
    | some (order, x) => { st with queue := queue, loop := .found event order x }
    | none =>
      match processExchangeEvent h ids event st.db with
      | (.ok _, db) => { st with queue := queue, db := db }
      | (.error _, db) => { st with queue := queue, db := db, loop := .ended }
  | .found event order x, _ =>
    match eventAction order event x ids.fillId with
    | .error _ => { st with loop := .ended }
    | .ok (.lifecycle l) =>
      match transitionRead order.internalOrderId l.eventType st.db.store with
      | .ok p => { st with loop := .writing l p }
      | .error _ => { st with loop := .ended }
    | .ok action =>
      match runAction h ids order.internalOrderId action st.db with
      | (.ok _, db) => { st with db := db, loop := .idle }
      | (.error _, db) => { st with db := db, loop := .ended }
  | .writing l p, _ =>
    match transitionWrite p l.eventType l.args ids.eventId st.db.store with
    | .ok (_, s) => { st with db := ⟨s, st.db.rest⟩, loop := .idle }
    | .error _ => { st with loop := .ended }
  | _, _ => st

def submitStep (h : EventHandlers σ) (orderId exchangeOrderId : String) (st : SubmitRace σ) :
    RaceTurn → SubmitRace σ
  | .signal minted => signalTurn orderId exchangeOrderId minted st
  | .loop ids => loopTurn h ids st

/-- The events the loop takes before the second session of the acknowledgement, with `n`
sessions of it to go. -/
def takenBeforeAck : Nat → List RaceTurn → Nat
  | 0, _ => 0
  | _ + 1, [] => 0
  | n + 1, .signal _ :: turns => takenBeforeAck n turns
  | n + 1, .loop _ :: turns => takenBeforeAck (n + 1) turns + 1

/-! ### The setting -/

/-- The order as `process_signal` leaves it when it calls `submit_order`, and an exchange
id that no order has. -/
structure JustSubmitted (s : OrderStore) (o : Order) (x : String) : Prop where
  consistent : StoreConsistent s
  row : s.get o.internalOrderId = some o
  status : o.status = .submitted
  filled : o.filledQuantity = 0
  nonempty : x ≠ ""
  unused : s.getByExchange x = none

/-- Fills the exchange produces for an order: positive, no more than its quantity, under
ids of their own. -/
structure ExchangeFills (s : OrderStore) (o : Order) (fills : List Fill) : Prop where
  positive : ∀ f ∈ fills, 0 < f.quantity
  total : weight Fill.quantity fills ≤ o.quantity
  named : ∀ f ∈ fills, f.fillId ≠ ""
  distinct : (fills.map Fill.fillId).Nodup
  fresh : ∀ f ∈ fills, f.fillId ∉ s.fills.map Fill.fillId
  tradeIds : ∀ f ∈ fills, ∀ g ∈ fills, truthy f.tradeId → f.tradeId = g.tradeId → f = g
  tradeFree : ∀ f ∈ fills, ∀ t ≠ "", f.tradeId = some t → s.tradeIdFree t

/-- The events the exchange emits for its order `x` with these fills. -/
def EmittedEvent (x : String) (fills : List Fill) (event : ExchangeEvent) : Prop :=
  ((event.eventType = .orderAck ∨ event.eventType = .orderOpened) ∧
    event.payload.exchangeOrderId = some x) ∨ ∃ f ∈ fills, Carries x event f

instance (x : String) (fills : List Fill) (event : ExchangeEvent) : Decidable (EmittedEvent x fills event) :=
  inferInstanceAs (Decidable (_ ∨ _))

/-- `new_id` answers with ids that no table and no fill of the exchange has. -/
def FreshIds (fills : List Fill) (st : SubmitRace σ) : RaceTurn → Prop
  | .signal minted => minted ≠ "" ∧ st.db.store.getEvent minted = none
  | .loop ids => st.db.store.getEvent ids.fill.eventId = none ∧
      st.db.store.tradeIdFree ids.fill.tradeId ∧ ∀ f ∈ fills, f.tradeId ≠ some ids.fill.tradeId

instance (fills : List Fill) (st : SubmitRace σ) : ∀ turn, Decidable (FreshIds fills st turn)
  | .signal minted => inferInstanceAs (Decidable (minted ≠ "" ∧ st.db.store.getEvent minted = none))
  | .loop _ => inferInstanceAs (Decidable (_ ∧ _ ∧ _))

/-- An event among these reports the fill. -/
def delivered (x : String) (events : List ExchangeEvent) (f : Fill) : Bool :=
  decide (∃ e ∈ events, Carries x e f)

lemma delivered_append (x : String) (events : List ExchangeEvent) (e : ExchangeEvent) (f : Fill) :
    delivered x (events ++ [e]) f = (delivered x events f || decide (Carries x e f)) := by
  simp [delivered, or_and_right, exists_or]

/-! ### After the acknowledgement -/

/-- What the tables hold once the order has its exchange id and the events `done` have
been processed. -/
structure Tracked (o : Order) (x : String) (fills : List Fill) (done : List ExchangeEvent)
    (s : OrderStore) (r : Order) : Prop where
  consistent : StoreConsistent s
  row : s.get o.internalOrderId = some r
  exchangeId : r.exchangeOrderId = some x
  quantity : r.quantity = o.quantity
  live : r.status ∈ [.acknowledged, .opened, .partiallyFilled, OrderStatus.filled]
  filled : r.filledQuantity = weight Fill.quantity (fills.filter (delivered x done))
  fillIds : ∀ f ∈ fills, f.fillId ∈ s.fills.map Fill.fillId ↔ delivered x done f = true
  tradeFree : ∀ f ∈ fills, delivered x done f = false → ∀ t ≠ "", f.tradeId = some t → s.tradeIdFree t

/-- The lifecycle calls an acknowledgement or an opening event makes. -/
def IsConfirmation (x : String) (l : Lifecycle) : Prop :=
  (∃ e, l = .ack x (some e)) ∨ ∃ e, l = .opened (some e)

lemma IsConfirmation.next {x : String} {l : Lifecycle} (h : IsConfirmation x l) {current : OrderStatus}
    (hlive : current ∈ [.acknowledged, .opened, .partiallyFilled, OrderStatus.filled]) :
    ∃ n, nextStatus current l.eventType = some n ∧
      n ∈ [.acknowledged, .opened, .partiallyFilled, OrderStatus.filled] := by
  rcases h with ⟨e, rfl⟩ | ⟨e, rfl⟩ <;> simp only [List.mem_cons, List.not_mem_nil, or_false] at hlive <;>
    rcases hlive with rfl | rfl | rfl | rfl <;>
    simp [Lifecycle.eventType, nextStatus, transitions, noopEvents]

lemma IsConfirmation.exchangeId {x : String} {l : Lifecycle} (h : IsConfirmation x l) {r : Order}
    (hr : r.exchangeOrderId = some x) (n : OrderStatus) (minted : String) :
    (recordedRow r n l.args minted).exchangeOrderId = some x := by
  rcases h with ⟨e, rfl⟩ | ⟨e, rfl⟩
  · by_cases hx : truthy (some x) <;> simp [recordedRow, Lifecycle.args, hr]
  · simp [recordedRow, Lifecycle.args, truthy, hr]

/-- Processing an event that reports no new fill leaves everything but the row's status. -/
lemma Tracked.skip {o : Order} {x : String} {fills : List Fill} {done : List ExchangeEvent}
    {s : OrderStore} {r : Order} (h : Tracked o x fills done s r) {e : ExchangeEvent}
    (he : ∀ f ∈ fills, Carries x e f → delivered x done f = true) : Tracked o x fills (done ++ [e]) s r := by
  have hsame : ∀ f ∈ fills, delivered x (done ++ [e]) f = delivered x done f := by
    intro f hf
    rw [delivered_append]
    by_cases hc : Carries x e f
    · simp [he f hf hc]
    · simp [hc]
  exact { h with
    filled := by rw [h.filled, List.filter_congr hsame]
    fillIds := fun f hf => by rw [hsame f hf]; exact h.fillIds f hf
    tradeFree := fun f hf => by rw [hsame f hf]; exact h.tradeFree f hf }

lemma Tracked.confirm {o : Order} {x : String} {fills : List Fill} {done : List ExchangeEvent}
    {s : OrderStore} {r : Order} (h : Tracked o x fills done s r) {l : Lifecycle}
    (hl : IsConfirmation x l) {n : OrderStatus} {b : Bool} (hn : nextStatus r.status l.eventType = some n)
    (hlive : n ∈ [.acknowledged, .opened, .partiallyFilled, OrderStatus.filled]) (minted : String) :
    ∃ a s' r', transitionWrite ⟨r, n, b⟩ l.eventType l.args minted s = .ok (a, s') ∧
      Tracked o x fills done s' r' := by
  obtain ⟨hmem, hid⟩ := get_mem h.row
  have hget : s.get r.internalOrderId = some r := by rw [hid]; exact h.row
  cases he : s.getEvent (orElseNew l.args.eventId minted) with
  | some existing =>
    have hrec : recordEvent r l.eventType n l.args minted s = .ok (existing, s) := by
      have he' : s.getEvent (recordedEvent r l.eventType n l.args minted).eventId = some existing := he
      simp only [recordEvent, hget, he']
    exact ⟨_, s, r, by simp only [transitionWrite, hrec]; rfl, h⟩
  | none =>
    have hx := hl.exchangeId h.exchangeId n minted
    have hacc : RecordAccepted s r.internalOrderId n l.args minted r :=
      ⟨hget, he, h.consistent.exchangeIdFree_self hmem rfl (hx.trans h.exchangeId.symm)⟩
    refine ⟨_, _, recordedRow r n l.args minted, by
      simp only [transitionWrite, recordEvent_of_accepted hacc]; rfl, ?_⟩
    exact {
      consistent := h.consistent.recorded hn hacc
      row := by rw [← hid]; exact get_commit_self (r := recordedRow r n l.args minted) _ _ hget
      exchangeId := hx
      quantity := h.quantity
      live := hlive
      filled := h.filled
      fillIds := fun f hf => by simpa using h.fillIds f hf
      tradeFree := fun f hf hd t ht hft => by simpa [tradeIdFree] using h.tradeFree f hf hd t ht hft }

lemma Tracked.getByExchange {o : Order} {x : String} {fills : List Fill} {done : List ExchangeEvent}
    {s : OrderStore} {r : Order} (h : Tracked o x fills done s r) : s.getByExchange x = some r := by
  have hmem := (get_mem h.row).1
  obtain ⟨r', hr'⟩ : ∃ r', s.getByExchange x = some r' :=
    row_isSome_iff.mpr (h.exchangeId ▸ List.mem_map_of_mem hmem)
  obtain ⟨hm', hx'⟩ := getByExchange_mem hr'
  rw [hr', h.consistent.exchangeIds r' hm' r hmem x hx' h.exchangeId]

section Applied

variable {s₀ s : OrderStore} {o r : Order} {x : String} {fills : List Fill} {done : List ExchangeEvent} {e : ExchangeEvent}
  {f : Fill} {ids : FillIds}

lemma delivered_carried (hfills : ExchangeFills s₀ o fills) (hf : f ∈ fills) (hc : Carries x e f) {g : Fill} (hg : g ∈ fills) :
    delivered x (done ++ [e]) g = (delivered x done g || decide (g = f)) := by
  have hiff : Carries x e g ↔ g = f :=
    ⟨fun hcg => eq_of_key_eq hfills.distinct hg hf (hcg.unique hc), fun hgf => hgf ▸ hc⟩
  simp only [delivered_append, hiff]

/-- A fill that was not delivered yet adds its quantity to what is filled. -/
lemma Tracked.filled_snoc (h : Tracked o x fills done s r) (hfills : ExchangeFills s₀ o fills) (hf : f ∈ fills)
    (hc : Carries x e f) (hnew : delivered x done f = false) :
    r.filledQuantity + f.quantity = weight Fill.quantity (fills.filter (delivered x (done ++ [e]))) := by
  rw [h.filled, List.filter_congr (fun g hg => delivered_carried hfills hf hc hg)]
  exact (weight_filter_insert (List.Nodup.of_map _ hfills.distinct) hf hnew).symm

/-- There is room for it in the order. -/
lemma Tracked.room (h : Tracked o x fills done s r) (hfills : ExchangeFills s₀ o fills) (hf : f ∈ fills)
    (hc : Carries x e f) (hnew : delivered x done f = false) : r.filledQuantity + f.quantity ≤ r.quantity := by
  rw [h.filled_snoc hfills hf hc hnew, h.quantity]
  exact (weight_filter_le (fun g hg => (hfills.positive g hg).le) _).trans hfills.total

lemma Tracked.nextStatus_fill (h : Tracked o x fills done s r) (f' : Fill) (hunfilled : r.status ≠ .filled) :
    ∃ n, nextStatus r.status (fillEventType r f') = some n ∧
      n ∈ [.acknowledged, .opened, .partiallyFilled, OrderStatus.filled] := by
  have hlive : r.status = .acknowledged ∨ r.status = .opened ∨ r.status = .partiallyFilled := by
    have hlive := h.live
    simp only [List.mem_cons, List.not_mem_nil, or_false] at hlive
    tauto
  unfold fillEventType
  rcases hlive with hs | hs | hs <;> rw [hs] <;> split <;> simp [nextStatus, transitions]

lemma filledRow_exchangeOrderId (hx : x ≠ "") (n : OrderStatus) :
    (filledRow r (reportedFill r x f) n ids).exchangeOrderId = some x := by
  simp [filledRow, reportedFill, truthy, hx]

/-- The fill is accepted, and leaves the order in a live status. -/
lemma Tracked.accepts (h : Tracked o x fills done s r) (hfills : ExchangeFills s₀ o fills) (hx : x ≠ "") (hf : f ∈ fills)
    (hc : Carries x e f) (hnew : delivered x done f = false) (hevent : s.getEvent ids.eventId = none)
    (htrade : s.tradeIdFree ids.tradeId) :
    ∃ n, FillAccepted s (reportedFill r x f) ids r n ∧
      n ∈ [.acknowledged, .opened, .partiallyFilled, OrderStatus.filled] := by
  obtain ⟨hmem, hid⟩ := get_mem h.row
  have hroom := h.room hfills hf hc hnew
  have hunfilled : r.status ≠ .filled := by
    intro hs
    have := (h.consistent.consistent r hmem).filledStatus.mp hs
    linarith [hfills.positive f hf]
  obtain ⟨n, hn, hlive⟩ := h.nextStatus_fill (reportedFill r x f) hunfilled
  refine ⟨n, ?_, hlive⟩
  exact {
    fresh := getFill_eq_none_iff.mpr (fun hm => by simpa [hnew] using (h.fillIds f hf).mp hm)
    row := by
      have ht : truthy (reportedFill r x f).exchangeOrderId = true := by simp [reportedFill, truthy, hx]
      simp only [fillOrder, ht, if_true]
      simp only [reportedFill, Option.getD_some, h.getByExchange]
    room := hroom
    next := hn
    exchangeId := h.consistent.exchangeIdFree_self hmem rfl ((filledRow_exchangeOrderId hx n).trans h.exchangeId.symm)
    eventId := hevent
    tradeId := by
      by_cases ht : truthy f.tradeId
      · obtain ⟨t, hft, hne⟩ := (truthy_iff _).mp ht
        have hsome := orElseNew_of_truthy ht ids.tradeId
        exact Option.some.inj (hft.symm.trans hsome) ▸ h.tradeFree f hf hnew t hne hft
      · have hmint' : orElseNew (reportedFill r x f).tradeId ids.tradeId = ids.tradeId :=
          orElseNew_of_falsy ht ids.tradeId
        rw [hmint']
        exact htrade }

lemma Tracked.apply (h : Tracked o x fills done s r) (hfills : ExchangeFills s₀ o fills) (hx : x ≠ "") (hf : f ∈ fills)
    (hc : Carries x e f) (hnew : delivered x done f = false) (hevent : s.getEvent ids.eventId = none)
    (htrade : s.tradeIdFree ids.tradeId) (hmint : ∀ g ∈ fills, g.tradeId ≠ some ids.tradeId) :
    ∃ n, FillAccepted s (reportedFill r x f) ids r n ∧
      Tracked o x fills (done ++ [e]) (commitFill s (reportedFill r x f) ids r n)
        (filledRow r (reportedFill r x f) n ids) := by
  obtain ⟨n, hacc, hlive⟩ := h.accepts hfills hx hf hc hnew hevent htrade
  have hid := (get_mem h.row).2
  have hget : s.get r.internalOrderId = some r := by rw [hid]; exact h.row
  have hfilled := h.filled_snoc hfills hf hc hnew
  refine ⟨n, hacc, ?_⟩
  exact {
    consistent := h.consistent.filled (hfills.positive f hf) hacc
    row := by rw [← hid]; exact get_commit_self (r := filledRow r (reportedFill r x f) n ids) _ _ hget
    exchangeId := filledRow_exchangeOrderId hx n
    quantity := h.quantity
    live := hlive
    filled := hfilled
    fillIds := by
      intro g hg
      have hkey : g.fillId = f.fillId ↔ g = f := ⟨eq_of_key_eq hfills.distinct hg hf, fun hgf => hgf ▸ rfl⟩
      rw [commitFill_fills, List.map_append, List.mem_append, h.fillIds g hg, delivered_carried hfills hf hc hg]
      simp [fillRow, reportedFill, hkey]
    tradeFree := by
      intro g hg hng t hne hgt
      rw [delivered_carried hfills hf hc hg, Bool.or_eq_false_iff, decide_eq_false_iff_not] at hng
      intro row hrow
      rw [commitFill_fills] at hrow
      rcases List.mem_append.mp hrow with hm | hm
      · exact h.tradeFree g hg hng.1 t hne hgt row hm
      · rw [List.mem_singleton.mp hm]
        intro heq
        have hrowt : some (orElseNew f.tradeId ids.tradeId) = some t := heq
        by_cases ht : truthy f.tradeId
        · have hft : f.tradeId = some t := (orElseNew_of_truthy ht ids.tradeId).trans hrowt
          exact hng.2 (hfills.tradeIds f hf g hg ht (hft.trans hgt.symm)).symm
        · rw [orElseNew_of_falsy ht] at hrowt
          exact hmint g hg (hgt.trans hrowt.symm) }

end Applied

/-- The loop is between the events `done` and what is left of `events`, with the row `r`
in hand. -/
def LoopAt (x : String) (fills : List Fill) (events done queue : List ExchangeEvent) (r : Order) :
    LoopPc → Prop
  | .idle | .ended => done ++ queue = events
  | .found e order x' => done ++ e :: queue = events ∧ order = r ∧ x' = x
  | .writing l p => ∃ e n b, done ++ e :: queue = events ∧ p = ⟨r, n, b⟩ ∧ IsConfirmation x l ∧
      nextStatus r.status l.eventType = some n ∧
      n ∈ [.acknowledged, .opened, .partiallyFilled, OrderStatus.filled] ∧ ∀ f ∈ fills, ¬ Carries x e f

/-- The state of the race once the order has its exchange id: `events` are the events the
loop had not taken by then. -/
def AfterAck (o : Order) (x : String) (fills : List Fill) (events : List ExchangeEvent)
    (st : SubmitRace σ) : Prop :=
  st.signal = .returned ∧ ∃ done r, Tracked o x fills done st.db.store r ∧
    LoopAt x fills events done st.queue r st.loop

lemma EmittedEvent.not_market {x : String} {fills : List Fill} {e : ExchangeEvent}
    (h : EmittedEvent x fills e) : e.isMarket = false := by
  rcases h with ⟨ht | ht, -⟩ | ⟨f, -, ht | ht, -⟩ <;> simp [ExchangeEvent.isMarket, ht]

lemma EmittedEvent.exchangeId {x : String} {fills : List Fill} {e : ExchangeEvent}
    (h : EmittedEvent x fills e) : e.payload.exchangeOrderId = some x := by
  rcases h with ⟨-, hx⟩ | ⟨f, -, -, hp⟩
  · exact hx
  · rw [hp]
    rfl

/-- The loop applies a fill's report: the tables are those `apply_fill` leaves, and an
exception of the settlement ends the loop. -/
lemma runAction_fill_store (h : EventHandlers σ) (ids : EventIds) (orderId : String) {fill : Fill} {db : Db σ}
    {result : FillResult} {s : OrderStore} (ht : applyFillTxn fill ids.fill db.store = .ok (result, s)) :
    (runAction h ids orderId (.fill fill) db).2.store = s := by
  rw [← applyFill_store h.settle ht]
  simp only [runAction]
  rcases applyFill h.settle fill ids.fill db with ⟨_ | _, db'⟩ <;> rfl

lemma eventAction_confirmation {x : String} {e : ExchangeEvent}
    (ht : e.eventType = .orderAck ∨ e.eventType = .orderOpened) (r : Order) (minted : String) :
    ∃ l, eventAction r e x minted = .ok (.lifecycle l) ∧ IsConfirmation x l := by
  rcases ht with ht | ht
  · exact ⟨_, by simp only [eventAction, ht], .inl ⟨e.eventId, rfl⟩⟩
  · exact ⟨_, by simp only [eventAction, ht], .inr ⟨e.eventId, rfl⟩⟩

/-- Past the lookup: a confirming event is read, a fill's report is applied or found a
duplicate. -/
lemma loopTurn_found {s₀ : OrderStore} {o : Order} {x : String} {fills : List Fill}
    {events done : List ExchangeEvent} {st : SubmitRace σ} {r : Order} {e : ExchangeEvent}
    (hret : st.signal = .returned) (htr : Tracked o x fills done st.db.store r)
    (hl : st.loop = .found e r x) (hd : done ++ e :: st.queue = events)
    (hfills : ExchangeFills s₀ o fills) (hx : x ≠ "") (he : EmittedEvent x fills e)
    (handlers : EventHandlers σ) {ids : EventIds} (hids : FreshIds fills st (.loop ids)) :
    AfterAck o x fills events (loopTurn handlers ids st) := by
  have hd' : (done ++ [e]) ++ st.queue = events := by rw [List.append_assoc]; exact hd
  rcases he with ⟨ht, -⟩ | ⟨f, hf, hc⟩
  · obtain ⟨l, hact, hconf⟩ := eventAction_confirmation (x := x) ht r ids.fillId
    obtain ⟨n, hn, hlive⟩ := hconf.next htr.live
    have hid := (get_mem htr.row).2
    have hread : transitionRead r.internalOrderId l.eventType st.db.store =
        .ok ⟨r, n, (transitions r.status l.eventType).isNone⟩ :=
      transitionRead_ok_iff.mpr ⟨r, n, by rw [hid]; exact htr.row, hn, rfl⟩
    have hno : ∀ f ∈ fills, ¬ Carries x e f := by
      intro f _ hc
      rcases ht with ht | ht <;> simp [Carries, ht] at hc
    simp only [loopTurn, hl, hact, hread]
    exact ⟨hret, done, r, htr, e, n, _, hd, rfl, hconf, hn, hlive, hno⟩
  · have hact := hc.eventAction hx (hfills.named f hf) r x ids.fillId
    obtain ⟨result, s, r', hs, htr'⟩ : ∃ result s r',
        applyFillTxn (reportedFill r x f) ids.fill st.db.store = .ok (result, s) ∧
          Tracked o x fills (done ++ [e]) s r' := by
      cases hnew : delivered x done f with
      | false =>
        obtain ⟨n, hacc, htr'⟩ := htr.apply hfills hx hf hc hnew hids.1 hids.2.1 hids.2.2
        exact ⟨_, _, _, applyFillTxn_of_accepted hacc, htr'⟩
      | true =>
        obtain ⟨row, hrow⟩ : ∃ row, st.db.store.getFill (reportedFill r x f).fillId = some row :=
          row_isSome_iff.mpr ((htr.fillIds f hf).mpr hnew)
        refine ⟨_, _, r, applyFillTxn_duplicate hrow, htr.skip (fun g hg hcg => ?_)⟩
        rw [eq_of_key_eq hfills.distinct hg hf (hcg.unique hc)]
        exact hnew
    have hstore := runAction_fill_store handlers ids r.internalOrderId hs
    simp only [loopTurn, hl, hact]
    cases hrun : runAction handlers ids r.internalOrderId (.fill (reportedFill r x f)) st.db with
    | mk outcome db =>
      rw [hrun] at hstore
      subst hstore
      cases outcome <;> exact ⟨hret, done ++ [e], r', htr', hd'⟩

/-- A step of the loop keeps the order in step with the events it has processed. -/
lemma AfterAck.loopTurn {s₀ : OrderStore} {o : Order} {x : String} {fills : List Fill}
    {events : List ExchangeEvent} {st : SubmitRace σ} (h : AfterAck o x fills events st)
    (hfills : ExchangeFills s₀ o fills) (hx : x ≠ "") (hevents : ∀ e ∈ events, EmittedEvent x fills e)
    (handlers : EventHandlers σ) {ids : EventIds} (hids : FreshIds fills st (.loop ids)) :
    AfterAck o x fills events (loopTurn handlers ids st) := by
  obtain ⟨hret, done, r, htr, hloop⟩ := h
  cases hl : st.loop with
  | idle =>
    rw [hl] at hloop
    change done ++ st.queue = events at hloop
    cases hq : st.queue with
    | nil =>
      simp only [CryptoTrader.loopTurn, hl, hq]
      exact ⟨hret, done, r, htr, by rw [hl]; exact hloop⟩
    | cons e queue =>
      have he := hevents e (by rw [← hloop, hq]; simp)
      have hfound : eventOrder e st.db.store = some (r, x) := by
        rw [eventOrder_eq he.exchangeId hx, htr.getByExchange]
        rfl
      simp only [CryptoTrader.loopTurn, hl, hq, he.not_market, hfound, Bool.false_eq_true, if_false]
      exact ⟨hret, done, r, htr, by rw [← hloop, hq], rfl, rfl⟩
  | found e order x' =>
    rw [hl] at hloop
    obtain ⟨hd, rfl, rfl⟩ := hloop
    have he := hevents e (by rw [← hd]; simp)
    exact loopTurn_found hret htr hl hd hfills hx he handlers hids
  | writing l p =>
    rw [hl] at hloop
    obtain ⟨e, n, b, hd, rfl, hconf, hn, hlive, hno⟩ := hloop
    obtain ⟨a, s, r', hw, htr'⟩ := htr.confirm hconf (b := b) hn hlive ids.eventId
    simp only [CryptoTrader.loopTurn, hl, hw]
    refine ⟨hret, done ++ [e], r', htr'.skip (fun f hf hc => absurd hc (hno f hf)), ?_⟩
    change (done ++ [e]) ++ st.queue = events
    rw [List.append_assoc]
    exact hd
  | ended =>
    simp only [CryptoTrader.loopTurn, hl]
    exact ⟨hret, done, r, htr, by rw [hl] at hloop ⊢; exact hloop⟩

lemma AfterAck.run {s₀ : OrderStore} {o : Order} {x : String} {fills : List Fill}
    {events : List ExchangeEvent} {st : SubmitRace σ} (h : AfterAck o x fills events st)
    (hfills : ExchangeFills s₀ o fills) (hx : x ≠ "") (hevents : ∀ e ∈ events, EmittedEvent x fills e)
    (handlers : EventHandlers σ) (turns : List RaceTurn)
    (hfresh : Runs.Along (submitStep handlers o.internalOrderId x) (FreshIds fills) st turns) :
    AfterAck o x fills events (Runs.run (submitStep handlers o.internalOrderId x) st turns) := by
  refine Runs.run_invariant (I := AfterAck o x fills events) ?_ h hfresh
  intro st turn h hc
  cases turn with
  | signal minted =>
    have hsame : submitStep handlers o.internalOrderId x st (.signal minted) = st := by
      simp only [submitStep, signalTurn, h.1]
    rwa [hsame]
  | loop ids => exact h.loopTurn hfills hx hevents handlers hc

/-! ### Before the acknowledgement -/

lemma signalTurn_acking {s : OrderStore} {o : Order} {x : String} {fills : List Fill}
    (hsub : JustSubmitted s o x) (hfills : ExchangeFills s o fills) {st : SubmitRace σ} {minted : String}
    {b : Bool} (hs : st.db.store = s) (hl : st.loop = .idle) (hsig : st.signal = .acking ⟨o, .acknowledged, b⟩)
    (hids : FreshIds fills st (.signal minted)) :
    AfterAck o x fills st.queue (signalTurn o.internalOrderId x minted st) := by
  subst hs
  have hn : nextStatus o.status (Lifecycle.ack x (some minted)).eventType = some .acknowledged := by
    rw [hsub.status]
    rfl
  have hxrow : (recordedRow o .acknowledged (Lifecycle.ack x (some minted)).args minted).exchangeOrderId =
      some x := by
    simp [recordedRow, Lifecycle.args, truthy, hsub.nonempty]
  have hacc : RecordAccepted st.db.store o.internalOrderId .acknowledged
      (Lifecycle.ack x (some minted)).args minted o := {
    row := hsub.row
    eventId := by simpa [Lifecycle.args, orElseNew, truthy, hids.1] using hids.2
    exchangeId := by
      intro y hy r hr _ hry
      rw [hxrow] at hy
      obtain rfl : x = y := Option.some.inj hy
      exact row_eq_none_iff.mp hsub.unused (hry ▸ List.mem_map_of_mem hr) }
  have hw : ∃ a, transitionWrite ⟨o, .acknowledged, b⟩ .orderAcknowledged
      (Lifecycle.ack x (some minted)).args minted st.db.store = .ok (a, st.db.store.commit
        (recordedRow o .acknowledged (Lifecycle.ack x (some minted)).args minted)
        (recordedEvent o .orderAcknowledged .acknowledged (Lifecycle.ack x (some minted)).args minted) []) := by
    simp only [transitionWrite, recordEvent_of_accepted hacc]
    exact ⟨_, rfl⟩
  obtain ⟨a, hw⟩ := hw
  simp only [signalTurn, hsig, hw]
  refine ⟨rfl, [], recordedRow o .acknowledged (Lifecycle.ack x (some minted)).args minted, ?_, ?_⟩
  · exact {
      consistent := hsub.consistent.recorded hn hacc
      row := get_commit_self (r := recordedRow o .acknowledged (Lifecycle.ack x (some minted)).args minted)
        _ _ hsub.row
      exchangeId := hxrow
      quantity := rfl
      live := by simp
      filled := by
        have hnil : fills.filter (delivered x []) = [] := by simp [List.filter_eq_nil_iff, delivered]
        rw [hnil, weight_nil]
        exact hsub.filled
      fillIds := fun f hf => by simpa [delivered] using hfills.fresh f hf
      tradeFree := fun f hf _ t ht hft => by simpa [tradeIdFree] using hfills.tradeFree f hf t ht hft }
  · rw [hl]
    rfl

/-- Before the acknowledgement the loop drops what it takes. -/
lemma loopTurn_dropped {s : OrderStore} {o : Order} {x : String} {fills : List Fill}
    (hsub : JustSubmitted s o x) (handlers : EventHandlers σ) (ids : EventIds) {st : SubmitRace σ}
    {e : ExchangeEvent} {queue : List ExchangeEvent} (hs : st.db.store = s) (hl : st.loop = .idle)
    (hq : st.queue = e :: queue) (he : EmittedEvent x fills e) :
    loopTurn handlers ids st = { st with queue := queue } := by
  have hnone : eventOrder e st.db.store = none := by
    rw [eventOrder_eq he.exchangeId hsub.nonempty, hs, hsub.unused]
    rfl
  simp only [loopTurn, hl, hq, he.not_market, hnone, processExchangeEvent, Bool.false_eq_true, if_false]

/-- A run in which `process_signal` returns reaches the acknowledgement, with the events
taken before it dropped. -/
lemma run_reaches_ack {s : OrderStore} {o : Order} {x : String} {fills : List Fill}
    (hsub : JustSubmitted s o x) (hfills : ExchangeFills s o fills) (handlers : EventHandlers σ)
    (turns : List RaceTurn) {st : SubmitRace σ} {n : Nat} (hs : st.db.store = s) (hl : st.loop = .idle)
    (hsig : (st.signal = .submitted ∧ n = 2) ∨ ∃ b, st.signal = .acking ⟨o, .acknowledged, b⟩ ∧ n = 1)
    (hevents : ∀ e ∈ st.queue, EmittedEvent x fills e)
    (hfresh : Runs.Along (submitStep handlers o.internalOrderId x) (FreshIds fills) st turns)
    (hret : (Runs.run (submitStep handlers o.internalOrderId x) st turns).signal = .returned) :
    AfterAck o x fills (st.queue.drop (takenBeforeAck n turns))
      (Runs.run (submitStep handlers o.internalOrderId x) st turns) := by
  induction turns generalizing st n with
  | nil => rcases hsig with ⟨hsig, -⟩ | ⟨b, hsig, -⟩ <;> simp [hsig] at hret
  | cons turn turns ih =>
    obtain ⟨hids, hfresh'⟩ := hfresh
    cases turn with
    | signal minted =>
      rcases hsig with ⟨hsig, rfl⟩ | ⟨b, hsig, rfl⟩
      · have hread : transitionRead o.internalOrderId .orderAcknowledged st.db.store =
            .ok ⟨o, .acknowledged, (transitions o.status .orderAcknowledged).isNone⟩ := by
          rw [hs]
          exact transitionRead_ok_iff.mpr ⟨o, .acknowledged, hsub.row, by rw [hsub.status]; rfl, rfl⟩
        have hstep : submitStep handlers o.internalOrderId x st (.signal minted) =
            { st with signal := .acking ⟨o, .acknowledged, (transitions o.status .orderAcknowledged).isNone⟩ } := by
          simp only [submitStep, signalTurn, hsig, hread]
        rw [Runs.run_cons, hstep] at hret ⊢
        rw [hstep] at hfresh'
        exact ih hs hl (.inr ⟨_, rfl, rfl⟩) hevents hfresh' hret
      · have hack := signalTurn_acking hsub hfills hs hl hsig hids
        simp only [takenBeforeAck, List.drop_zero, Runs.run_cons]
        exact hack.run hfills hsub.nonempty hevents handlers turns hfresh'
    | loop ids =>
      have hn : takenBeforeAck n (.loop ids :: turns) = takenBeforeAck n turns + 1 := by
        rcases hsig with ⟨-, rfl⟩ | ⟨b, -, rfl⟩ <;> rfl
      cases hq : st.queue with
      | nil =>
        have hstep : submitStep handlers o.internalOrderId x st (.loop ids) = st := by
          simp only [submitStep, loopTurn, hl, hq]
        rw [Runs.run_cons, hstep] at hret ⊢
        rw [hstep] at hfresh'
        simpa [hq] using ih hs hl hsig hevents hfresh' hret
      | cons e queue =>
        rw [hq] at hevents
        have hstep : submitStep handlers o.internalOrderId x st (.loop ids) = { st with queue := queue } :=
          loopTurn_dropped hsub handlers ids hs hl hq (hevents e (by simp))
        rw [Runs.run_cons, hstep] at hret ⊢
        rw [hstep] at hfresh'
        rw [hn, List.drop_succ_cons]
        exact ih (show ({ st with queue := queue } : SubmitRace σ).db.store = s from hs) hl hsig
          (fun e' he' => hevents e' (List.mem_cons_of_mem _ he')) hfresh' hret

/-- Once `process_signal` has returned and the loop has nothing left to take, the order's
filled quantity is the sum of the exchange's fills exactly when every fill is reported by
an event that the loop had not taken before the acknowledgement was written. -/
theorem fills_reach_order_iff {s : OrderStore} {o : Order} {x : String} {fills : List Fill}
    (hsub : JustSubmitted s o x) (hfills : ExchangeFills s o fills) (events : List ExchangeEvent)
    (hevents : ∀ e ∈ events, EmittedEvent x fills e) (handlers : EventHandlers σ) (rest : σ)
    (turns : List RaceTurn)
    (hfresh : Runs.Along (submitStep handlers o.internalOrderId x) (FreshIds fills)
      { db := ⟨s, rest⟩, queue := events } turns)
    (hdone : (Runs.run (submitStep handlers o.internalOrderId x) { db := ⟨s, rest⟩, queue := events } turns).signal
      = .returned)
    (hqueue : (Runs.run (submitStep handlers o.internalOrderId x) { db := ⟨s, rest⟩, queue := events } turns).queue
      = [])
    (hidle : (Runs.run (submitStep handlers o.internalOrderId x) { db := ⟨s, rest⟩, queue := events } turns).loop
      ∈ [LoopPc.idle, .ended]) :
    (∃ r, (Runs.run (submitStep handlers o.internalOrderId x)
        { db := ⟨s, rest⟩, queue := events } turns).db.store.get o.internalOrderId = some r ∧
      r.filledQuantity = (fills.map Fill.quantity).sum) ↔
    ∀ f ∈ fills, ∃ e ∈ events.drop (takenBeforeAck 2 turns), Carries x e f := by
  obtain ⟨-, done, r, htr, hloop⟩ :=
    run_reaches_ack hsub hfills handlers turns rfl rfl (.inl ⟨rfl, rfl⟩) hevents hfresh hdone
  have hall : done = events.drop (takenBeforeAck 2 turns) := by
    rw [hqueue] at hloop
    simp only [List.mem_cons, List.not_mem_nil, or_false] at hidle
    rcases hidle with hl | hl <;> rw [hl] at hloop <;> simpa [LoopAt] using hloop
  have hfilled : (∃ r, (Runs.run (submitStep handlers o.internalOrderId x)
        { db := ⟨s, rest⟩, queue := events } turns).db.store.get o.internalOrderId = some r ∧
      r.filledQuantity = (fills.map Fill.quantity).sum) ↔
      weight Fill.quantity (fills.filter (delivered x done)) = weight Fill.quantity fills := by
    rw [htr.row]
    simp only [Option.some.injEq, exists_eq_left', htr.filled, weight]
  rw [hfilled, weight_filter_eq_iff hfills.positive, ← hall]
  simp only [delivered, decide_eq_true_eq]

lemma submittedLife_justSubmitted : JustSubmitted (Runs.run exec {} submittedLife) submittedOrder "x1" where
  consistent := submittedLife_reachable.storeConsistent
  row := by decide +kernel
  status := rfl
  filled := rfl
  nonempty := by decide
  unused := by decide +kernel

lemma exchangeFills_full :
    ExchangeFills (Runs.run exec {} submittedLife) submittedOrder [sampleFill "f1" 2] where
  positive := by decide +kernel
  total := by decide +kernel
  named := by decide +kernel
  distinct := by decide +kernel
  fresh := by decide +kernel
  tradeIds := by decide +kernel
  tradeFree := by
    intro f hf t _ hft
    rw [List.mem_singleton.mp hf] at hft
    exact nomatch hft

/-- The acknowledging event is dropped, the fill is taken after the write. -/
theorem fills_reach_order_late :
    ∃ r, (Runs.run (submitStep quietHandlers submittedOrder.internalOrderId "x1")
        { db := ⟨Runs.run exec {} submittedLife, ()⟩, queue := [ackEvent, fullFillEvent] }
        [.signal "s1", .loop (countedIds 1), .signal "s2", .loop (countedIds 2),
          .loop (countedIds 3)]).db.store.get submittedOrder.internalOrderId = some r ∧
      r.filledQuantity = ([sampleFill "f1" 2].map Fill.quantity).sum :=
  (fills_reach_order_iff submittedLife_justSubmitted exchangeFills_full [ackEvent, fullFillEvent]
    (by decide +kernel) quietHandlers ()
    [.signal "s1", .loop (countedIds 1), .signal "s2", .loop (countedIds 2), .loop (countedIds 3)]
    (by decide +kernel) (by decide +kernel) (by decide +kernel) (by decide +kernel)).mpr (by decide +kernel)

/-- Both events are taken between the two sessions of the acknowledgement, and the fill
is lost. -/
theorem fill_lost_before_ack :
    JustSubmitted (Runs.run exec {} submittedLife) submittedOrder "x1" ∧
    (∀ f ∈ [sampleFill "f1" 2], ∃ e ∈ [ackEvent, fullFillEvent], Carries "x1" e f) ∧
    let st := Runs.run (submitStep quietHandlers "o1" "x1")
      { db := ⟨Runs.run exec {} submittedLife, ()⟩, queue := [ackEvent, fullFillEvent] }
      [.signal "s1", .loop (countedIds 1), .loop (countedIds 2), .signal "s2"]
    st.signal = .returned ∧ st.queue = [] ∧ st.loop = .idle ∧
      ∃ r ∈ st.db.store.orders, r.internalOrderId = "o1" ∧ r.status = .acknowledged ∧ r.filledQuantity = 0 :=
  ⟨submittedLife_justSubmitted, by decide +kernel, by decide +kernel, by decide +kernel, by decide +kernel,
    by decide +kernel⟩

end CryptoTrader
