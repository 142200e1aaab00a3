import CryptoTrader.Order.Effects
import Mathlib.Tactic.Linarith
import Mathlib.Tactic.Ring

/-!
# The order store invariant

Quantities, average price, status, fills and event log of an order agree with each other
in every store that calls of the order manager reach.
-/

namespace CryptoTrader

open KeyedTable OrderStore

/-- The events lead the state machine from `current` to `final`, no-ops allowed. -/
def RunsTo : OrderStatus → List OrderEvent → OrderStatus → Prop
  | current, [], final => current = final
  | current, e :: es, final =>
    (∃ r, OrderStateMachine.transition current e.eventType = .ok r ∧ r.newStatus = e.statusAfter) ∧
      RunsTo e.statusAfter es final

/-- The events are a creation followed by a run of the state machine from CREATED. -/
def EventRun : List OrderEvent → OrderStatus → Prop
  | [], _ => False
  | e :: es, final => e.eventType = .orderCreated ∧ e.statusAfter = .created ∧ RunsTo .created es final

lemma RunsTo.append {current status : OrderStatus} {es : List OrderEvent} {e : OrderEvent}
    (h : RunsTo current es status) (hn : nextStatus status e.eventType = some e.statusAfter) :
    RunsTo current (es ++ [e]) e.statusAfter := by
  induction es generalizing current with
  | nil =>
    obtain rfl : current = status := h
    refine ⟨?_, rfl⟩
    rw [transition_eq, hn]
    exact ⟨_, rfl, rfl⟩
  | cons x xs ih => exact ⟨h.1, ih h.2⟩

lemma EventRun.append {status : OrderStatus} {es : List OrderEvent} {e : OrderEvent}
    (h : EventRun es status) (hn : nextStatus status e.eventType = some e.statusAfter) :
    EventRun (es ++ [e]) e.statusAfter := by
  cases es with
  | nil => exact h.elim
  | cons x xs => exact ⟨h.1, h.2.1, h.2.2.append hn⟩

/-- What the tables say about one order agrees. -/
structure OrderConsistent (s : OrderStore) (o : Order) : Prop where
  filledNonneg : 0 ≤ o.filledQuantity
  filledLe : o.filledQuantity ≤ o.quantity
  filledStatus : o.status = .filled ↔ o.filledQuantity = o.quantity
  fillSum : o.filledQuantity = ((s.fillsOf o.internalOrderId).map Fill.quantity).sum
  costSum : o.avgFillPrice.getD 0 * o.filledQuantity =
    ((s.fillsOf o.internalOrderId).map (fun f => f.price * f.quantity)).sum
  eventRun : EventRun (s.listEvents o.internalOrderId) o.status

/-- No two orders share an order id or a client id. -/
structure UniqueKeys (s : OrderStore) : Prop where
  orderIds : (s.orders.map Order.internalOrderId).Nodup
  clientIds : (s.orders.map Order.clientOrderId).Nodup

/-- The UNIQUE constraints of the orders table. -/
structure TableKeys (s : OrderStore) : Prop extends UniqueKeys s where
  exchangeIds : ∀ o ∈ s.orders, ∀ o' ∈ s.orders, ∀ x, o.exchangeOrderId = some x →
    o'.exchangeOrderId = some x → o = o'

/-- The keys of the tables are unique, events and fills belong to stored orders, and
every order is consistent. -/
structure StoreConsistent (s : OrderStore) : Prop extends TableKeys s where
  eventIds : (s.events.map OrderEvent.eventId).Nodup
  fillIds : (s.fills.map Fill.fillId).Nodup
  eventOrders : ∀ e ∈ s.events, e.orderId ∈ s.orders.map Order.internalOrderId
  fillOrders : ∀ f ∈ s.fills, f.orderId ∈ s.orders.map Order.internalOrderId
  consistent : ∀ o ∈ s.orders, OrderConsistent s o

lemma UniqueKeys.map_client_commit {s : OrderStore} {r w : Order} (h : UniqueKeys s) (hr : r ∈ s.orders)
    (hid : w.internalOrderId = r.internalOrderId) (hclient : w.clientOrderId = r.clientOrderId)
    (e : OrderEvent) (fs : List Fill) :
    (s.commit w e fs).orders.map Order.clientOrderId = s.orders.map Order.clientOrderId := by
  have hk : ∀ x ∈ s.orders, x.internalOrderId = w.internalOrderId → x.clientOrderId = w.clientOrderId := by
    intro x hx hk
    rw [eq_of_key_eq h.orderIds hx hr (hk.trans hid), hclient]
  exact map_put_of_agrees hk

lemma UniqueKeys.commit {s : OrderStore} {r w : Order} (h : UniqueKeys s) (hr : r ∈ s.orders)
    (hid : w.internalOrderId = r.internalOrderId) (hclient : w.clientOrderId = r.clientOrderId)
    (e : OrderEvent) (fs : List Fill) : UniqueKeys (s.commit w e fs) where
  orderIds := by
    rw [map_id_commit]
    exact h.orderIds
  clientIds := by
    rw [h.map_client_commit hr hid hclient]
    exact h.clientIds

lemma UniqueKeys.created {s : OrderStore} (h : UniqueKeys s) {intent : OrderIntent} (mode : TradingMode)
    {orderId : String} (eventId : String) (hid : s.get orderId = none)
    (hclient : s.getByClient intent.clientOrderId = none) :
    UniqueKeys ⟨s.orders ++ [intentRow intent mode orderId],
      s.events ++ [createdEvent intent mode orderId eventId], s.fills⟩ where
  orderIds := nodup_append_of_fresh h.orderIds (row_eq_none_iff.mp hid)
  clientIds := nodup_append_of_fresh h.clientIds (row_eq_none_iff.mp hclient)

lemma storeConsistent_empty : StoreConsistent {} := by
  refine ⟨⟨⟨?_, ?_⟩, ?_⟩, ?_, ?_, ?_, ?_, ?_⟩ <;> simp

lemma UniqueKeys.get {s : OrderStore} (h : UniqueKeys s) {o : Order} (ho : o ∈ s.orders) :
    s.get o.internalOrderId = some o :=
  row_of_mem h.orderIds ho

lemma getByClient_commit_self {s : OrderStore} (hk : UniqueKeys s) {r w : Order}
    (hid : w.internalOrderId = r.internalOrderId) (hclient : w.clientOrderId = r.clientOrderId)
    (e : OrderEvent) (fs : List Fill) {c : String} (hr : s.getByClient c = some r) :
    (s.commit w e fs).getByClient c = some w := by
  obtain ⟨hm, hc⟩ := row_some hr
  have hmem : w ∈ (s.commit w e fs).orders :=
    (mem_commit e fs).mpr (.inl ⟨rfl, hid ▸ List.mem_map_of_mem hm⟩)
  have hget := row_of_mem (hk.commit hm hid hclient e fs).clientIds hmem
  rwa [hclient, hc] at hget

lemma getByClient_commit_of_ne {s : OrderStore} {w : Order} {e : OrderEvent} {fs : List Fill}
    (hk : UniqueKeys (s.commit w e fs)) {c : String} {q : Order} (hq : s.getByClient c = some q)
    (hne : q.internalOrderId ≠ w.internalOrderId) : (s.commit w e fs).getByClient c = some q := by
  obtain ⟨hm, hc⟩ := row_some hq
  have hmem : q ∈ (s.commit w e fs).orders := (mem_commit e fs).mpr (.inr ⟨hm, hne⟩)
  have hget := row_of_mem hk.clientIds hmem
  rwa [hc] at hget

lemma TableKeys.exchangeIdFree_self {s : OrderStore} (h : TableKeys s) {o r : Order}
    (ho : o ∈ s.orders) (hid : r.internalOrderId = o.internalOrderId)
    (hx : r.exchangeOrderId = o.exchangeOrderId) : s.exchangeIdFree r := by
  intro x hrx o' ho' hne heq
  refine hne ?_
  rw [hid, h.exchangeIds o' ho' o ho x heq (hx ▸ hrx)]

lemma TableKeys.created {s : OrderStore} (h : TableKeys s) {intent : OrderIntent} {mode : TradingMode}
    {orderId eventId : String} (hid : s.get orderId = none)
    (hclient : s.getByClient intent.clientOrderId = none) :
    TableKeys ⟨s.orders ++ [intentRow intent mode orderId],
      s.events ++ [createdEvent intent mode orderId eventId], s.fills⟩ where
  toUniqueKeys := h.toUniqueKeys.created mode eventId hid hclient
  exchangeIds := by
    intro o ho o' ho' x hx hx'
    have hold : ∀ o ∈ s.orders ++ [intentRow intent mode orderId],
        o.exchangeOrderId = some x → o ∈ s.orders := by
      intro o ho hx
      rcases List.mem_append.mp ho with h | h
      · exact h
      · rw [List.mem_singleton.mp h] at hx
        simp [intentRow] at hx
    exact h.exchangeIds o (hold o ho hx) o' (hold o' ho' hx') x hx hx'

lemma TableKeys.commit {s : OrderStore} {r w : Order} (h : TableKeys s) (hr : r ∈ s.orders)
    (hid : w.internalOrderId = r.internalOrderId) (hclient : w.clientOrderId = r.clientOrderId)
    (hx : s.exchangeIdFree w) (e : OrderEvent) (fs : List Fill) : TableKeys (s.commit w e fs) where
  toUniqueKeys := h.toUniqueKeys.commit hr hid hclient e fs
  exchangeIds := by
    intro o ho o' ho' x hox hox'
    rcases (mem_commit e fs).mp ho with ⟨rfl, -⟩ | ⟨hm, hne⟩ <;>
      rcases (mem_commit e fs).mp ho' with ⟨rfl, -⟩ | ⟨hm', hne'⟩
    · rfl
    · exact absurd hox' (hx x hox o' hm' hne')
    · exact absurd hox (hx x hox' o hm hne)
    · exact h.exchangeIds o hm o' hm' x hox hox'

/-- The UNIQUE constraints survive every call, whatever it carries. -/
lemma CallEffect.tableKeys {s s' : OrderStore} {c : OrderCall} (heff : CallEffect s c s')
    (hk : TableKeys s) : TableKeys s' := by
  cases heff with
  | unchanged => exact hk
  | created intent mode orderId eventId hid hclient => exact hk.created hid hclient
  | recorded orderId l minted r n hn hacc =>
    exact hk.commit (w := recordedRow r n l.args minted) (get_mem hacc.row).1 rfl rfl hacc.exchangeId _ _
  | filled fill ids r n hacc =>
    exact hk.commit (w := filledRow r fill n ids) (fillOrder_mem hacc.row) rfl rfl hacc.exchangeId _ _

lemma tableKeys_run {s : OrderStore} (hk : TableKeys s) (calls : List OrderCall) :
    TableKeys (Runs.run exec s calls) :=
  Runs.run_invariant (C := fun _ _ => True) (fun s c hs _ => (exec_effect s c).tableKeys hs) hk
    (Runs.along_of_forall (fun _ _ => trivial))

/-! ### Statuses that are never left -/

/-- No entry of the transition table leads out of `S`. -/
def ClosedStatuses (S : OrderStatus → Prop) : Prop :=
  ∀ n t n', S n → nextStatus n t = some n' → S n'

/-- The tables still have unique keys, and every order that was in `S` is in `S`. -/
structure StaysIn (S : OrderStatus → Prop) (s s' : OrderStore) : Prop where
  keys : TableKeys s'
  stays : ∀ {orderId r}, s.get orderId = some r → S r.status → ∃ r', s'.get orderId = some r' ∧ S r'.status

lemma StaysIn.refl {S : OrderStatus → Prop} {s : OrderStore} (hk : TableKeys s) : StaysIn S s s :=
  ⟨hk, fun hr hs => ⟨_, hr, hs⟩⟩

lemma StaysIn.trans {S : OrderStatus → Prop} {s s' s'' : OrderStore} (h : StaysIn S s s')
    (h' : StaysIn S s' s'') : StaysIn S s s'' where
  keys := h'.keys
  stays hr hs := by
    obtain ⟨r', hr', hs'⟩ := h.stays hr hs
    exact h'.stays hr' hs'

/-- A write to the row of `q` keeps every other row, and the row of `q` if its new status is in `S`. -/
lemma get_commit_closed {S : OrderStatus → Prop} {s : OrderStore} {q w r : Order} {orderId : String} (hk : UniqueKeys s)
    (hq : q ∈ s.orders) (hid : w.internalOrderId = q.internalOrderId) (hw : S q.status → S w.status)
    (e : OrderEvent) (fs : List Fill) (hr : s.get orderId = some r) (hs : S r.status) :
    ∃ r', (s.commit w e fs).get orderId = some r' ∧ S r'.status := by
  by_cases heq : orderId = w.internalOrderId
  · have hget : s.get w.internalOrderId = some q := by
      rw [hid]
      exact hk.get hq
    rw [heq] at hr ⊢
    obtain rfl : q = r := Option.some.inj (hget.symm.trans hr)
    exact ⟨w, get_commit_self e fs hget, hw hs⟩
  · exact ⟨r, (get_commit_of_ne e fs heq).trans hr, hs⟩

lemma exec_staysIn {S : OrderStatus → Prop} (hS : ClosedStatuses S) {s : OrderStore} (hk : TableKeys s)
    (c : OrderCall) : StaysIn S s (exec s c) := by
  have heff := exec_effect s c
  refine ⟨heff.tableKeys hk, fun {orderId r} hr hs => ?_⟩
  generalize exec s c = s' at heff
  cases heff with
  | unchanged => exact ⟨r, hr, hs⟩
  | created intent mode id eventId hid hclient => exact ⟨r, row_append_of_some hr, hs⟩
  | recorded id l minted q n hn hacc =>
    exact get_commit_closed (w := recordedRow q n l.args minted) hk.toUniqueKeys (get_mem hacc.row).1 rfl
      (fun hq => hS _ _ _ hq hn) _ _ hr hs
  | filled fill ids q n hacc =>
    exact get_commit_closed (w := filledRow q fill n ids) hk.toUniqueKeys (fillOrder_mem hacc.row) rfl
      (fun hq => hS _ _ _ hq hacc.next) _ _ hr hs

lemma run_staysIn {S : OrderStatus → Prop} (hS : ClosedStatuses S) {s : OrderStore} (hk : TableKeys s)
    (calls : List OrderCall) : StaysIn S s (Runs.run exec s calls) :=
  Runs.run_invariant (I := fun s' => StaysIn S s s') (C := fun _ _ => True)
    (fun _ c hs _ => hs.trans (exec_staysIn hS hs.keys c)) (.refl hk) (Runs.along_of_forall (fun _ _ => trivial))

/-- An order is consistent in two stores with the same events and fills of it. -/
lemma OrderConsistent.frame {s s' : OrderStore} {o : Order} (h : OrderConsistent s o)
    (hf : s'.fillsOf o.internalOrderId = s.fillsOf o.internalOrderId)
    (he : s'.listEvents o.internalOrderId = s.listEvents o.internalOrderId) : OrderConsistent s' o where
  filledNonneg := h.filledNonneg
  filledLe := h.filledLe
  filledStatus := h.filledStatus
  fillSum := by rw [hf]; exact h.fillSum
  costSum := by rw [hf]; exact h.costSum
  eventRun := by rw [he]; exact h.eventRun

/-- A write to one order keeps the invariant if it leaves that order consistent. -/
lemma StoreConsistent.commit {s : OrderStore} {r w : Order} {e : OrderEvent} {fs : List Fill}
    (h : StoreConsistent s) (hr : r ∈ s.orders) (hid : w.internalOrderId = r.internalOrderId)
    (hclient : w.clientOrderId = r.clientOrderId) (hx : s.exchangeIdFree w)
    (he : e.orderId = r.internalOrderId) (heid : s.getEvent e.eventId = none)
    (hfs : ∀ f ∈ fs, f.orderId = r.internalOrderId) (hfid : ((s.fills ++ fs).map Fill.fillId).Nodup)
    (ho : OrderConsistent (s.commit w e fs) w) : StoreConsistent (s.commit w e fs) := by
  have hmem : r.internalOrderId ∈ s.orders.map Order.internalOrderId := List.mem_map_of_mem hr
  refine ⟨h.toTableKeys.commit hr hid hclient hx e fs, ?_, ?_, ?_, ?_, ?_⟩
  · exact nodup_append_of_fresh h.eventIds (getEvent_eq_none_iff.mp heid)
  · exact hfid
  · intro e' he'
    rw [map_id_commit]
    rcases List.mem_append.mp he' with h' | h'
    · exact h.eventOrders e' h'
    · rw [List.mem_singleton.mp h', he]
      exact hmem
  · intro f hf
    rw [map_id_commit]
    rcases List.mem_append.mp hf with h' | h'
    · exact h.fillOrders f h'
    · rw [hfs f h']
      exact hmem
  · intro o hmo
    rcases (mem_commit e fs).mp hmo with ⟨rfl, -⟩ | ⟨hm, hne⟩
    · exact ho
    · rw [hid] at hne
      refine (h.consistent o hm).frame ?_ ?_
      · rw [fillsOf_commit, List.filter_eq_nil_iff.mpr, List.append_nil]
        intro f hf
        rw [hfs f hf]
        simpa using hne.symm
      · rw [listEvents_commit, he, if_neg hne.symm, List.append_nil]

lemma OrderConsistent.recorded {s : OrderStore} {r : Order} (h : OrderConsistent s r) (l : Lifecycle)
    {n : OrderStatus} (hn : nextStatus r.status l.eventType = some n) (minted : String) :
    OrderConsistent (s.commit (recordedRow r n l.args minted)
      (recordedEvent r l.eventType n l.args minted) []) (recordedRow r n l.args minted) where
  filledNonneg := h.filledNonneg
  filledLe := h.filledLe
  filledStatus := (l.nextStatus_filled_iff hn).trans h.filledStatus
  fillSum := by simpa using h.fillSum
  costSum := by simpa using h.costSum
  eventRun := by
    rw [recordedRow_id, listEvents_commit, if_pos (show (recordedEvent r l.eventType n l.args minted).orderId =
      r.internalOrderId from rfl)]
    exact h.eventRun.append hn

lemma newAverage_mul (r : Order) (fill : Fill) (h : 0 < r.filledQuantity + fill.quantity) :
    newAverage r fill * (r.filledQuantity + fill.quantity) =
      r.avgFillPrice.getD 0 * r.filledQuantity + fill.price * fill.quantity := by
  rw [newAverage, if_pos h, div_mul_cancel₀ _ h.ne']
  ring

/-- A positive fill that fits moves the order to FILLED exactly when it completes it. -/
lemma fill_status {s : OrderStore} {r : Order} (h : OrderConsistent s r) {fill : Fill}
    (hpos : 0 < fill.quantity) (hroom : r.filledQuantity + fill.quantity ≤ r.quantity) {n : OrderStatus}
    (hn : nextStatus r.status (fillEventType r fill) = some n) :
    n = .filled ↔ r.filledQuantity + fill.quantity = r.quantity := by
  have hne : r.status ≠ .filled := by
    intro hf
    have := h.filledStatus.mp hf
    linarith
  obtain ⟨hfull, hpart⟩ := nextStatus_fill n hne
  by_cases hc : r.filledQuantity + fill.quantity = r.quantity
  · rw [fillEventType, if_pos hc] at hn
    simp [hfull hn, hc]
  · rw [fillEventType, if_neg hc] at hn
    simp [hpart hn, hc]

lemma OrderConsistent.filled {s : OrderStore} {r : Order} (h : OrderConsistent s r) {fill : Fill}
    (hpos : 0 < fill.quantity) {ids : FillIds} {n : OrderStatus} (hacc : FillAccepted s fill ids r n) :
    OrderConsistent (commitFill s fill ids r n) (filledRow r fill n ids) := by
  have hfilled : 0 < r.filledQuantity + fill.quantity := by linarith [h.filledNonneg]
  have hfills : (commitFill s fill ids r n).fillsOf r.internalOrderId =
      s.fillsOf r.internalOrderId ++ [fillRow (filledRow r fill n ids) fill ids] := by
    simp [commitFill, fillRow]
  constructor
  · exact hfilled.le
  · exact hacc.room
  · exact fill_status h hpos hacc.room hacc.next
  · rw [filledRow_id, hfills, List.map_append, List.sum_append, ← h.fillSum]
    simp [filledRow, fillRow]
  · rw [filledRow_id, hfills, List.map_append, List.sum_append, ← h.costSum]
    simpa [filledRow, fillRow] using newAverage_mul r fill hfilled
  · have hev : (commitFill s fill ids r n).listEvents r.internalOrderId = s.listEvents r.internalOrderId ++
        [filledEvent (filledRow r fill n ids) fill (fillEventType r fill) ids] := by
      simp [commitFill, filledEvent]
    rw [filledRow_id, hev]
    exact h.eventRun.append hacc.next

/-- A created order is consistent in a store that has no events and fills of it. -/
lemma created_consistent {s : OrderStore} (h : StoreConsistent s) {intent : OrderIntent}
    (hpos : 0 < intent.quantity) (mode : TradingMode) {orderId eventId : String}
    (hid : s.get orderId = none) :
    OrderConsistent ⟨s.orders ++ [intentRow intent mode orderId],
      s.events ++ [createdEvent intent mode orderId eventId], s.fills⟩ (intentRow intent mode orderId) := by
  have hnew : orderId ∉ s.orders.map Order.internalOrderId := row_eq_none_iff.mp hid
  have hfills : s.fillsOf orderId = [] := by
    refine List.filter_eq_nil_iff.mpr (fun f hf hk => hnew ?_)
    exact (of_decide_eq_true hk) ▸ h.fillOrders f hf
  have hevents : s.listEvents orderId = [] := by
    refine List.filter_eq_nil_iff.mpr (fun e he hk => hnew ?_)
    exact (of_decide_eq_true hk) ▸ h.eventOrders e he
  have hlast : (createdEvent intent mode orderId eventId).orderId = orderId := rfl
  constructor
  · simp [intentRow]
  · simpa [intentRow] using hpos.le
  · simp [intentRow, hpos.ne]
  · change (0 : ℚ) = ((s.fillsOf orderId).map Fill.quantity).sum
    simp [hfills]
  · change (0 : ℚ) * 0 = ((s.fillsOf orderId).map (fun f => f.price * f.quantity)).sum
    simp [hfills]
  · have hev : (s.events ++ [createdEvent intent mode orderId eventId]).filter
        (fun e => e.orderId = orderId) = [createdEvent intent mode orderId eventId] := by
      rw [List.filter_append, show s.events.filter (fun e => e.orderId = orderId) = [] from hevents]
      simp [hlast]
    change EventRun ((s.events ++ [createdEvent intent mode orderId eventId]).filter
      (fun e => e.orderId = orderId)) .created
    rw [hev]
    exact ⟨rfl, rfl, rfl⟩

lemma StoreConsistent.created {s : OrderStore} (h : StoreConsistent s) {intent : OrderIntent}
    (hpos : 0 < intent.quantity) {mode : TradingMode} {orderId eventId : String}
    (hid : s.get orderId = none) (hclient : s.getByClient intent.clientOrderId = none)
    (hevent : s.getEvent eventId = none) :
    StoreConsistent ⟨s.orders ++ [intentRow intent mode orderId],
      s.events ++ [createdEvent intent mode orderId eventId], s.fills⟩ := by
  have hnew : orderId ∉ s.orders.map Order.internalOrderId := row_eq_none_iff.mp hid
  refine ⟨h.toTableKeys.created hid hclient, ?_, ?_, ?_, ?_, ?_⟩
  · exact nodup_append_of_fresh h.eventIds (getEvent_eq_none_iff.mp hevent)
  · exact h.fillIds
  · intro e he
    rcases List.mem_append.mp he with h' | h'
    · exact List.map_append ▸ List.mem_append_left _ (h.eventOrders e h')
    · rw [List.mem_singleton.mp h']
      simp [createdEvent, intentRow]
  · intro f hf
    exact List.map_append ▸ List.mem_append_left _ (h.fillOrders f hf)
  · intro o ho
    rcases List.mem_append.mp ho with hm | hm
    · have hne : orderId ≠ o.internalOrderId := fun hk => hnew (hk ▸ List.mem_map_of_mem hm)
      refine (h.consistent o hm).frame rfl ?_
      simp [listEvents, createdEvent, hne]
    · rw [List.mem_singleton.mp hm]
      exact created_consistent h hpos mode hid

lemma StoreConsistent.recorded {s : OrderStore} (h : StoreConsistent s) {orderId : String} {l : Lifecycle}
    {minted : String} {r : Order} {n : OrderStatus} (hn : nextStatus r.status l.eventType = some n)
    (hacc : RecordAccepted s orderId n l.args minted r) :
    StoreConsistent (s.commit (recordedRow r n l.args minted)
      (recordedEvent r l.eventType n l.args minted) []) := by
  have hr := (get_mem hacc.row).1
  exact h.commit hr rfl rfl hacc.exchangeId rfl hacc.eventId (by simp) (by simpa using h.fillIds)
    ((h.consistent r hr).recorded l hn minted)

lemma StoreConsistent.filled {s : OrderStore} (h : StoreConsistent s) {fill : Fill} {ids : FillIds}
    {r : Order} {n : OrderStatus} (hpos : 0 < fill.quantity) (hacc : FillAccepted s fill ids r n) :
    StoreConsistent (commitFill s fill ids r n) := by
  have hr := fillOrder_mem hacc.row
  exact h.commit hr rfl rfl hacc.exchangeId rfl hacc.eventId (by simp [fillRow])
    (nodup_append_of_fresh h.fillIds (getFill_eq_none_iff.mp hacc.fresh))
    ((h.consistent r hr).filled hpos hacc)

/-- One call keeps the store consistent. -/
theorem exec_consistent {s : OrderStore} {c : OrderCall} (h : StoreConsistent s) (hc : c.Positive) :
    StoreConsistent (exec s c) := by
  have heff := exec_effect s c
  generalize exec s c = s' at heff
  cases heff with
  | unchanged => exact h
  | created intent mode orderId eventId hid hclient hevent => exact h.created hc hid hclient hevent
  | recorded orderId l minted r n hn hacc => exact h.recorded hn hacc
  | filled fill ids r n hacc => exact h.filled hc hacc

/-- The stores that calls of the order manager reach from the empty one. -/
def Reachable (s : OrderStore) : Prop :=
  ∃ calls : List OrderCall, (∀ c ∈ calls, c.Positive) ∧ Runs.run exec {} calls = s

theorem Reachable.storeConsistent {s : OrderStore} (h : Reachable s) : StoreConsistent s := by
  obtain ⟨calls, hpos, rfl⟩ := h
  exact Runs.run_invariant (C := fun _ c => c.Positive) (fun _ _ hs hc => exec_consistent hs hc)
    storeConsistent_empty (Runs.along_of_forall hpos)

/-- After any calls of the order manager, whatever ids they carry, every order's filled
quantity, average price, status, fills and events agree. -/
theorem order_store_consistent (calls : List OrderCall) (hpos : ∀ c ∈ calls, c.Positive) (o : Order)
    (ho : o ∈ (Runs.run exec {} calls).orders) : OrderConsistent (Runs.run exec {} calls) o :=
  Reachable.storeConsistent ⟨calls, hpos, rfl⟩ |>.consistent o ho

/-! ### One order, up to its submission and to its last fill -/

def sampleIntent : OrderIntent where
  clientOrderId := "c1"
  symbol := "BTCUSDT"
  side := .buy
  price := some 100
  quantity := 2

/-- A limit order for two units at 100, submitted. -/
def submittedLife : List OrderCall :=
  [.createFromIntent sampleIntent .paper "o1" "e0",
    .lifecycle "o1" .validate "e1", .lifecycle "o1" .submitting "e2", .lifecycle "o1" .submitted "e3"]

def sampleFill (fillId : String) (quantity : ℚ) : Fill where
  fillId := fillId
  orderId := "o1"
  exchangeOrderId := some "x1"
  symbol := "BTCUSDT"
  side := .buy
  price := 100
  quantity := quantity

/-- The order is acknowledged and filled in two halves, the first delivered twice. -/
def filledLife : List OrderCall :=
  submittedLife ++ [.lifecycle "o1" (.ack "x1" none) "e4", .applyFill (sampleFill "f1" 1) ⟨"t1", "e5", "e6"⟩,
    .applyFill (sampleFill "f1" 1) ⟨"t2", "e7", "e8"⟩, .applyFill (sampleFill "f2" 1) ⟨"t3", "e9", "e10"⟩]

theorem filledLife_consistent :
    ∃ o ∈ (Runs.run exec {} filledLife).orders, o.status = .filled ∧
      OrderConsistent (Runs.run exec {} filledLife) o := by
  obtain ⟨o, ho, hf⟩ : ∃ o ∈ (Runs.run exec {} filledLife).orders, o.status = .filled := by decide +kernel
  exact ⟨o, ho, hf, order_store_consistent filledLife (by decide +kernel) o ho⟩

/-- The row of that order once it is submitted. -/
def submittedOrder : Order :=
  recordedRow (recordedRow (recordedRow (intentRow sampleIntent .paper "o1") .validated {} "e1")
    .submitting {} "e2") .submitted {} "e3"

lemma submittedLife_reachable : Reachable (Runs.run exec {} submittedLife) :=
  ⟨submittedLife, by decide +kernel, rfl⟩

end CryptoTrader
