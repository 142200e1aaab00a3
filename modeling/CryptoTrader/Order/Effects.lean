import CryptoTrader.Order.Manager
import CryptoTrader.Lib.Runs

/-!
# What a call of the order manager can do

One inversion lemma for each transaction: a transaction that returns has either left the
tables alone or made one `commit`, and the conditions under which it commits are named
(`RecordAccepted`, `FillAccepted`). Later modules reason from these and never unfold the
transactions.
-/

namespace CryptoTrader

open KeyedTable OrderStore

namespace OrderStore

lemma get_mem {s : OrderStore} {orderId : String} {r : Order} (h : s.get orderId = some r) :
    r ∈ s.orders ∧ r.internalOrderId = orderId :=
  row_some h

lemma getByExchange_mem {s : OrderStore} {x : String} {r : Order} (h : s.getByExchange x = some r) :
    r ∈ s.orders ∧ r.exchangeOrderId = some x :=
  row_some h

lemma getFill_eq_none_iff {s : OrderStore} {fillId : String} :
    s.getFill fillId = none ↔ fillId ∉ s.fills.map Fill.fillId :=
  row_eq_none_iff

lemma getEvent_eq_none_iff {s : OrderStore} {eventId : String} :
    s.getEvent eventId = none ↔ eventId ∉ s.events.map OrderEvent.eventId :=
  row_eq_none_iff

variable (s : OrderStore) (r : Order) (e : OrderEvent) (fs : List Fill)

@[simp] lemma commit_events : (s.commit r e fs).events = s.events ++ [e] := rfl

@[simp] lemma commit_fills : (s.commit r e fs).fills = s.fills ++ fs := rfl

@[simp] lemma map_id_commit :
    (s.commit r e fs).orders.map Order.internalOrderId = s.orders.map Order.internalOrderId :=
  map_key_put r s.orders

@[simp] lemma listEvents_commit (orderId : String) :
    (s.commit r e fs).listEvents orderId =
      s.listEvents orderId ++ if e.orderId = orderId then [e] else [] := by
  by_cases h : e.orderId = orderId <;> simp [listEvents, h]

@[simp] lemma fillsOf_commit (orderId : String) :
    (s.commit r e fs).fillsOf orderId =
      s.fillsOf orderId ++ fs.filter (fun f => f.orderId = orderId) := by
  simp [fillsOf]

variable {s r}

lemma mem_commit {o : Order} : o ∈ (s.commit r e fs).orders ↔
    (o = r ∧ r.internalOrderId ∈ s.orders.map Order.internalOrderId) ∨
      (o ∈ s.orders ∧ o.internalOrderId ≠ r.internalOrderId) :=
  mem_put

lemma get_commit_self {r₀ : Order} (h : s.get r.internalOrderId = some r₀) :
    (s.commit r e fs).get r.internalOrderId = some r := by
  obtain ⟨hm, hk⟩ := get_mem h
  exact row_put_self (hk ▸ List.mem_map_of_mem hm)

lemma get_commit_row {r₀ : Order} (h : s.get r₀.internalOrderId = some r₀)
    (hid : r.internalOrderId = r₀.internalOrderId) : (s.commit r e fs).get r₀.internalOrderId = some r := by
  rw [← hid] at h ⊢
  exact get_commit_self e fs h

lemma get_commit_of_ne {orderId : String} (h : orderId ≠ r.internalOrderId) :
    (s.commit r e fs).get orderId = s.get orderId :=
  row_put_of_ne _ h

end OrderStore

section Rows

variable (r : Order) (fill : Fill) (n : OrderStatus) (args : EventArgs) (ids : FillIds) (minted : String)

@[simp] lemma recordedRow_id : (recordedRow r n args minted).internalOrderId = r.internalOrderId := rfl

@[simp] lemma recordedRow_status : (recordedRow r n args minted).status = n := rfl

@[simp] lemma recordedRow_quantity : (recordedRow r n args minted).quantity = r.quantity := rfl

@[simp] lemma recordedRow_filledQuantity :
    (recordedRow r n args minted).filledQuantity = r.filledQuantity := rfl

@[simp] lemma recordedRow_avgFillPrice :
    (recordedRow r n args minted).avgFillPrice = r.avgFillPrice := rfl

@[simp] lemma filledRow_id : (filledRow r fill n ids).internalOrderId = r.internalOrderId := rfl

@[simp] lemma filledRow_status : (filledRow r fill n ids).status = n := rfl

@[simp] lemma filledRow_quantity : (filledRow r fill n ids).quantity = r.quantity := rfl

@[simp] lemma filledRow_filledQuantity :
    (filledRow r fill n ids).filledQuantity = r.filledQuantity + fill.quantity := rfl

@[simp] lemma filledRow_avgFillPrice :
    (filledRow r fill n ids).avgFillPrice = some (newAverage r fill) := rfl

end Rows

/-! ### Constraints -/

/-- A write to row `r` does not change which exchange ids the other rows hold. -/
lemma exchangeIdFree_commit {s : OrderStore} {r x : Order} {e : OrderEvent} {fs : List Fill}
    (hid : x.internalOrderId = r.internalOrderId) :
    (s.commit r e fs).exchangeIdFree x ↔ s.exchangeIdFree x := by
  constructor
  · intro h y hy o ho hne
    exact h y hy o ((mem_commit e fs).mpr (.inr ⟨ho, hid ▸ hne⟩)) hne
  · intro h y hy o ho hne
    rcases (mem_commit e fs).mp ho with ⟨rfl, -⟩ | ⟨hm, -⟩
    · exact absurd hid.symm hne
    · exact h y hy o hm hne

lemma getEvent_commit_eq_none_iff {s : OrderStore} {r : Order} {e : OrderEvent} {fs : List Fill}
    {eventId : String} :
    (s.commit r e fs).getEvent eventId = none ↔ s.getEvent eventId = none ∧ eventId ≠ e.eventId := by
  rw [getEvent_eq_none_iff, getEvent_eq_none_iff, commit_events, List.map_append, List.mem_append]
  simp

/-- Whether a recorded row's exchange id is free is a question about the argument, once
the row's own id is free. -/
lemma exchangeIdFree_recordedRow {s : OrderStore} {r : Order} {n : OrderStatus} {args : EventArgs}
    {minted : String} (hown : s.exchangeIdFree r) :
    s.exchangeIdFree (recordedRow r n args minted) ↔ (truthy args.exchangeOrderId →
      s.exchangeIdFree { r with exchangeOrderId := args.exchangeOrderId }) := by
  by_cases ht : truthy args.exchangeOrderId
  · simp [exchangeIdFree, recordedRow, ht]
  · refine iff_of_true ?_ (fun h => absurd h ht)
    intro x hx
    exact hown x (by simpa [recordedRow, ht] using hx)

lemma exchangeIdFree_filledRow {s : OrderStore} {r : Order} {fill : Fill} {n : OrderStatus} {ids : FillIds}
    (hown : s.exchangeIdFree r) :
    s.exchangeIdFree (filledRow r fill n ids) ↔ (truthy fill.exchangeOrderId →
      s.exchangeIdFree { r with exchangeOrderId := fill.exchangeOrderId }) := by
  by_cases ht : truthy fill.exchangeOrderId
  · simp [exchangeIdFree, filledRow, ht]
  · refine iff_of_true ?_ (fun h => absurd h ht)
    intro x hx
    exact hown x (by simpa [filledRow, ht] using hx)

/-! ### Transitions -/

/-- The second session of a transition finds its row and no constraint in the way. -/
structure RecordAccepted (s : OrderStore) (orderId : String) (n : OrderStatus) (args : EventArgs)
    (minted : String) (r : Order) : Prop where
  row : s.get orderId = some r
  eventId : s.getEvent (orElseNew args.eventId minted) = none
  exchangeId : s.exchangeIdFree (recordedRow r n args minted)

lemma recordEvent_of_accepted {s : OrderStore} {order r : Order} {t : OrderEventType} {n : OrderStatus}
    {args : EventArgs} {minted : String} (h : RecordAccepted s order.internalOrderId n args minted r) :
    recordEvent order t n args minted s =
      .ok (recordedEvent order t n args minted,
        s.commit (recordedRow r n args minted) (recordedEvent order t n args minted) []) := by
  have he : s.getEvent (recordedEvent order t n args minted).eventId = none := h.eventId
  simp only [recordEvent, h.row, he, h.exchangeId, if_true]

lemma recordEvent_cases {s s' : OrderStore} {order : Order} {t : OrderEventType} {n : OrderStatus}
    {args : EventArgs} {minted : String} {e : OrderEvent}
    (h : recordEvent order t n args minted s = .ok (e, s')) :
    (s' = s ∧ s.getEvent (orElseNew args.eventId minted) = some e) ∨
      ∃ r, RecordAccepted s order.internalOrderId n args minted r ∧
        s' = s.commit (recordedRow r n args minted) (recordedEvent order t n args minted) [] := by
  unfold recordEvent at h
  cases hr : s.get order.internalOrderId with
  | none => simp [hr] at h
  | some r =>
    simp only [hr] at h
    cases he : s.getEvent (recordedEvent order t n args minted).eventId with
    | some existing =>
      simp only [he, Except.ok.injEq, Prod.mk.injEq] at h
      obtain ⟨rfl, rfl⟩ := h
      exact .inl ⟨rfl, he⟩
    | none =>
      simp only [he] at h
      by_cases hx : s.exchangeIdFree (recordedRow r n args minted)
      · simp only [hx, if_true, Except.ok.injEq, Prod.mk.injEq] at h
        exact .inr ⟨r, ⟨hr, he, hx⟩, h.2.symm⟩
      · simp [hx] at h

lemma transitionRead_ok_iff {s : OrderStore} {orderId : String} {t : OrderEventType}
    {p : PendingTransition} :
    transitionRead orderId t s = .ok p ↔ ∃ r n, s.get orderId = some r ∧
      nextStatus r.status t = some n ∧ p = ⟨r, n, (transitions r.status t).isNone⟩ := by
  unfold transitionRead
  cases hr : s.get orderId with
  | none => simp
  | some r =>
    have hn : nextStatus r.status t = none ∨ ∃ n, nextStatus r.status t = some n := by
      cases nextStatus r.status t <;> simp
    rcases hn with hn | ⟨n, hn⟩
    · simp [transition_eq, hn]
    · simp only [transition_eq, hn, Option.some.injEq, exists_eq_left', exists_and_left]
      cases ht : transitions r.status t with
      | some new => simp [eq_comm]
      | none =>
        have hns : n = r.status := by
          simp only [nextStatus, ht, ite_eq_iff, Option.some.injEq, reduceCtorEq, and_false,
            or_false] at hn
          exact hn.2.symm
        simp [hns, eq_comm]

lemma transition_cases {s s' : OrderStore} {orderId : String} {t : OrderEventType} {args : EventArgs}
    {minted : String} {o : Option Order} (h : transition orderId t args minted s = .ok (o, s')) :
    ∃ r n, s.get orderId = some r ∧ nextStatus r.status t = some n ∧
      (s' = s ∨ (RecordAccepted s orderId n args minted r ∧
        s' = s.commit (recordedRow r n args minted) (recordedEvent r t n args minted) [])) := by
  unfold transition at h
  cases hp : transitionRead orderId t s with
  | error e => simp [hp] at h
  | ok p =>
    obtain ⟨r, n, hr, hn, rfl⟩ := transitionRead_ok_iff.mp hp
    simp only [hp, transitionWrite] at h
    refine ⟨r, n, hr, hn, ?_⟩
    have hid := (get_mem hr).2
    cases hw : recordEvent r t n args minted s with
    | error e => simp [hw] at h
    | ok w =>
      obtain ⟨e, s₁⟩ := w
      simp only [hw, Except.ok.injEq, Prod.mk.injEq] at h
      obtain ⟨-, rfl⟩ := h
      rcases recordEvent_cases hw with ⟨rfl, -⟩ | ⟨r', hacc, rfl⟩
      · exact .inl rfl
      · rw [hid] at hacc
        obtain rfl : r = r' := Option.some.inj (hr.symm.trans hacc.row)
        exact .inr ⟨hacc, rfl⟩

lemma transition_of_accepted {s : OrderStore} {orderId : String} {t : OrderEventType} {args : EventArgs}
    {minted : String} {r : Order} {n : OrderStatus} (hn : nextStatus r.status t = some n)
    (h : RecordAccepted s orderId n args minted r) :
    ∃ o, transition orderId t args minted s =
      .ok (o, s.commit (recordedRow r n args minted) (recordedEvent r t n args minted) []) := by
  have hp := transitionRead_ok_iff.mpr ⟨r, n, h.row, hn, rfl⟩
  have hid := (get_mem h.row).2
  have hacc : RecordAccepted s r.internalOrderId n args minted r := hid ▸ h
  simp only [transition, hp, transitionWrite, recordEvent_of_accepted hacc]
  exact ⟨_, rfl⟩

lemma transition_illegal {s : OrderStore} {orderId : String} {t : OrderEventType} (args : EventArgs)
    (minted : String) {r : Order} (hr : s.get orderId = some r) (hn : nextStatus r.status t = none) :
    ∃ e, transition orderId t args minted s = .error e := by
  simp only [transition, transitionRead, hr, transition_eq, hn]
  exact ⟨_, rfl⟩

/-- An event id that is taken makes the transition a no-op once the table accepts it. -/
lemma transition_recorded {s : OrderStore} {orderId : String} {t : OrderEventType} {args : EventArgs}
    {minted : String} {r : Order} {n : OrderStatus} {e : OrderEvent} (hr : s.get orderId = some r)
    (hn : nextStatus r.status t = some n) (he : s.getEvent (orElseNew args.eventId minted) = some e) :
    ∃ o, transition orderId t args minted s = .ok (o, s) := by
  have hread := transitionRead_ok_iff.mpr ⟨r, n, hr, hn, rfl⟩
  have hid : s.get r.internalOrderId = some r := by rw [(get_mem hr).2, hr]
  have hrow : s.getEvent (recordedEvent r t n args minted).eventId = some e := he
  have hwrite : recordEvent r t n args minted s = .ok (e, s) := by
    simp only [recordEvent, hid, hrow]
  simp only [transition, hread, transitionWrite, hwrite]
  exact ⟨_, rfl⟩

/-- An exchange id that another order has makes the transition raise. -/
lemma transition_taken {s : OrderStore} {orderId : String} {t : OrderEventType} {args : EventArgs}
    {minted : String} {r : Order} {n : OrderStatus} (hr : s.get orderId = some r)
    (hn : nextStatus r.status t = some n) (he : s.getEvent (orElseNew args.eventId minted) = none)
    (hx : ¬ s.exchangeIdFree (recordedRow r n args minted)) :
    ∃ e, transition orderId t args minted s = .error e := by
  have hread := transitionRead_ok_iff.mpr ⟨r, n, hr, hn, rfl⟩
  have hid : s.get r.internalOrderId = some r := by rw [(get_mem hr).2, hr]
  have hrow : s.getEvent (recordedEvent r t n args minted).eventId = none := he
  simp only [transition, hread, transitionWrite, recordEvent, hid, hrow, hx, if_false]
  exact ⟨_, rfl⟩

/-! ### Fills -/

/-- `apply_fill` applies the fill to row `r` and moves it to status `n`. -/
structure FillAccepted (s : OrderStore) (fill : Fill) (ids : FillIds) (r : Order) (n : OrderStatus) :
    Prop where
  fresh : s.getFill fill.fillId = none
  row : fillOrder fill s = some r
  room : r.filledQuantity + fill.quantity ≤ r.quantity
  next : nextStatus r.status (fillEventType r fill) = some n
  exchangeId : s.exchangeIdFree (filledRow r fill n ids)
  eventId : s.getEvent ids.eventId = none
  tradeId : s.tradeIdFree (orElseNew fill.tradeId ids.tradeId)

/-- The tables after an accepted fill. -/
def commitFill (s : OrderStore) (fill : Fill) (ids : FillIds) (r : Order) (n : OrderStatus) :
    OrderStore :=
  s.commit (filledRow r fill n ids)
    (filledEvent (filledRow r fill n ids) fill (fillEventType r fill) ids)
    [fillRow (filledRow r fill n ids) fill ids]

lemma applyFillTxn_of_accepted {s : OrderStore} {fill : Fill} {ids : FillIds} {r : Order}
    {n : OrderStatus} (h : FillAccepted s fill ids r n) :
    applyFillTxn fill ids s =
      .ok (⟨some (filledRow r fill n ids), fill, true⟩, commitFill s fill ids r n) := by
  simp only [applyFillTxn, h.fresh, h.row, not_lt.mpr h.room, if_false, transition_eq, h.next,
    h.exchangeId, h.eventId, h.tradeId, and_self, if_true, commitFill]

lemma applyFillTxn_cases {s s' : OrderStore} {fill : Fill} {ids : FillIds} {result : FillResult}
    (h : applyFillTxn fill ids s = .ok (result, s')) :
    (∃ f, s.getFill fill.fillId = some f ∧ result = ⟨s.get f.orderId, f, false⟩ ∧ s' = s) ∨
      ∃ r n, FillAccepted s fill ids r n ∧
        result = ⟨some (filledRow r fill n ids), fill, true⟩ ∧ s' = commitFill s fill ids r n := by
  unfold applyFillTxn at h
  cases hf : s.getFill fill.fillId with
  | some f =>
    simp only [hf, Except.ok.injEq, Prod.mk.injEq] at h
    exact .inl ⟨f, rfl, h.1.symm, h.2.symm⟩
  | none =>
    simp only [hf] at h
    cases hr : fillOrder fill s with
    | none => simp [hr] at h
    | some r =>
      simp only [hr] at h
      by_cases hroom : r.quantity < r.filledQuantity + fill.quantity
      · simp [hroom] at h
      · simp only [hroom, if_false, transition_eq] at h
        cases hn : nextStatus r.status (fillEventType r fill) with
        | none => simp [hn] at h
        | some n =>
          simp only [hn] at h
          split at h
          · rename_i hc
            simp only [Except.ok.injEq, Prod.mk.injEq] at h
            exact .inr ⟨r, n, ⟨hf, hr, not_lt.mp hroom, hn, hc.1, hc.2.1, hc.2.2⟩,
              h.1.symm, h.2.symm⟩
          · simp at h

/-- `apply_fill` applies the fill. -/
def Accepts (s : OrderStore) (fill : Fill) (ids : FillIds) : Prop :=
  ∃ r n, FillAccepted s fill ids r n

def newlyApplied (outcome : Except TradingError (FillResult × OrderStore)) : Bool :=
  match outcome with
  | .ok (result, _) => result.newlyApplied
  | .error _ => false

lemma accepts_iff (s : OrderStore) (fill : Fill) (ids : FillIds) :
    Accepts s fill ids ↔ newlyApplied (applyFillTxn fill ids s) = true := by
  constructor
  · rintro ⟨r, n, hacc⟩
    rw [applyFillTxn_of_accepted hacc]
    rfl
  · intro h
    cases ht : applyFillTxn fill ids s with
    | error e => simp [ht, newlyApplied] at h
    | ok w =>
      rcases applyFillTxn_cases ht with ⟨f, -, hr, -⟩ | ⟨r, n, hacc, -⟩
      · simp [ht, newlyApplied, hr] at h
      · exact ⟨r, n, hacc⟩

instance (s : OrderStore) (fill : Fill) (ids : FillIds) : Decidable (Accepts s fill ids) :=
  decidable_of_iff _ (accepts_iff s fill ids).symm

lemma applyFillTxn_duplicate {s : OrderStore} {fill f : Fill} {ids : FillIds}
    (h : s.getFill fill.fillId = some f) :
    applyFillTxn fill ids s = .ok (⟨s.get f.orderId, f, false⟩, s) := by
  simp [applyFillTxn, h]

/-- The order of a fill is the one that has the fill's exchange order id, or the one it names. -/
lemma fillOrder_cases {s : OrderStore} {fill : Fill} {r : Order} (h : fillOrder fill s = some r) :
    (r ∈ s.orders ∧ truthy fill.exchangeOrderId ∧ r.exchangeOrderId = fill.exchangeOrderId) ∨
      s.get fill.orderId = some r := by
  unfold fillOrder at h
  split at h
  · rename_i r' hx
    obtain rfl : r' = r := Option.some.inj h
    by_cases ht : truthy fill.exchangeOrderId
    · simp only [ht, if_true] at hx
      obtain ⟨y, hy, -⟩ := (truthy_iff _).mp ht
      obtain ⟨hm, hr⟩ := getByExchange_mem hx
      exact .inl ⟨hm, ht, by rw [hr, hy, Option.getD_some]⟩
    · simp [ht] at hx
  · exact .inr h

lemma fillOrder_mem {s : OrderStore} {fill : Fill} {r : Order} (h : fillOrder fill s = some r) :
    r ∈ s.orders := by
  rcases fillOrder_cases h with ⟨hm, -⟩ | hget
  · exact hm
  · exact (get_mem hget).1

@[simp] lemma commitFill_fills (s : OrderStore) (fill : Fill) (ids : FillIds) (r : Order)
    (n : OrderStatus) :
    (commitFill s fill ids r n).fills = s.fills ++ [fillRow (filledRow r fill n ids) fill ids] := rfl

section Settlement

variable {σ : Type} (settle : SettlementCallback σ)

lemma applyFill_store {fill : Fill} {ids : FillIds} {db : Db σ} {result : FillResult} {s : OrderStore}
    (h : applyFillTxn fill ids db.store = .ok (result, s)) : (applyFill settle fill ids db).2.store = s := by
  simp only [applyFill, h]
  cases result.newlyApplied with
  | false => rfl
  | true =>
    rcases hs : settle s fill db.rest with ⟨_ | _, rest⟩ <;> simp

/-- A new fill is settled once, after its commit, and an exception of the settlement is
an exception of the call. -/
lemma applyFill_of_accepted {fill : Fill} {ids : FillIds} {db : Db σ} {r : Order} {n : OrderStatus}
    (h : FillAccepted db.store fill ids r n) :
    (applyFill settle fill ids db).2 =
        ⟨commitFill db.store fill ids r n, (settle (commitFill db.store fill ids r n) fill db.rest).2⟩ ∧
      ((∃ result, (applyFill settle fill ids db).1 = .ok result) ↔
        (settle (commitFill db.store fill ids r n) fill db.rest).1 = .ok ()) := by
  simp only [applyFill, applyFillTxn_of_accepted h, if_true]
  rcases settle (commitFill db.store fill ids r n) fill db.rest with ⟨_ | _, rest⟩ <;> simp

lemma applyFill_of_not_accepted {fill : Fill} {ids : FillIds} {db : Db σ} (h : ¬ Accepts db.store fill ids) :
    (applyFill settle fill ids db).2 = db := by
  simp only [applyFill]
  cases ht : applyFillTxn fill ids db.store with
  | error e => rfl
  | ok w =>
    obtain ⟨result, s⟩ := w
    rcases applyFillTxn_cases ht with ⟨f, -, rfl, rfl⟩ | ⟨r, n, hacc, -⟩
    · rfl
    · exact absurd ⟨r, n, hacc⟩ h

/-- A fill that is already recorded is not settled again. -/
lemma applyFill_duplicate (fill : Fill) {f : Fill} {ids : FillIds} {db : Db σ}
    (h : db.store.getFill fill.fillId = some f) :
    applyFill settle fill ids db = (.ok ⟨db.store.get f.orderId, f, false⟩, db) := by
  simp [applyFill, applyFillTxn_duplicate h]

end Settlement

/-! ### The calls -/

/-- The named lifecycle calls, and the transitions with an exchange id that recovery makes
directly. -/
inductive Lifecycle where
  | validate
  | submitting
  | submitted
  | ack (exchangeOrderId : String) (eventId : Option String)
  | reacknowledged (exchangeOrderId : Option String) (eventId : Option String)
  | opened (eventId : Option String)
  | reopened (exchangeOrderId : Option String) (eventId : Option String)
  | cancelPending (reason : String)
  | cancelConfirm (eventId : Option String)
  | reject (reason : String) (eventId : Option String)
  | expire
  | markUnknown (reason : String)
  deriving DecidableEq, Repr

namespace Lifecycle

def eventType : Lifecycle → OrderEventType
  | validate => .orderValidated
  | submitting => .orderSubmitting
  | submitted => .orderSubmitted
  | ack _ _ => .orderAcknowledged
  | reacknowledged _ _ => .orderAcknowledged
  | opened _ => .orderOpened
  | reopened _ _ => .orderOpened
  | cancelPending _ => .orderCancelPending
  | cancelConfirm _ => .orderCancelled
  | reject _ _ => .orderRejected
  | expire => .orderExpired
  | markUnknown _ => .orderUnknown

def args : Lifecycle → EventArgs
  | ack exchangeOrderId eventId => { eventId, exchangeOrderId := some exchangeOrderId }
  | reacknowledged exchangeOrderId eventId => { eventId, exchangeOrderId }
  | opened eventId => { eventId }
  | reopened exchangeOrderId eventId => { eventId, exchangeOrderId }
  | cancelConfirm eventId => { eventId }
  | reject reason eventId => { eventId, rejectionReason := some reason, payload := .reason reason }
  | cancelPending reason => { payload := .reason reason }
  | markUnknown reason => { payload := .reason reason }
  | _ => {}

def run (l : Lifecycle) (orderId minted : String) :
    OrderStore → Except TradingError (Option Order × OrderStore) :=
  match l with
  | validate => CryptoTrader.validate orderId minted
  | submitting => CryptoTrader.submitting orderId minted
  | submitted => CryptoTrader.submitted orderId minted
  | ack x eventId => CryptoTrader.ack orderId x eventId minted
  | reacknowledged x eventId => transition orderId .orderAcknowledged { eventId, exchangeOrderId := x } minted
  | opened eventId => CryptoTrader.opened orderId eventId minted
  | reopened x eventId => transition orderId .orderOpened { eventId, exchangeOrderId := x } minted
  | cancelPending reason => CryptoTrader.cancelPending orderId reason minted
  | cancelConfirm eventId => CryptoTrader.cancelConfirm orderId eventId minted
  | reject reason eventId => CryptoTrader.reject orderId reason eventId minted
  | expire => CryptoTrader.expire orderId minted
  | markUnknown reason => CryptoTrader.markUnknown orderId reason minted

lemma run_eq (l : Lifecycle) (orderId minted : String) :
    l.run orderId minted = transition orderId l.eventType l.args minted := by
  cases l <;> rfl

lemma nextStatus_filled_iff (l : Lifecycle) {current new : OrderStatus}
    (h : nextStatus current l.eventType = some new) : new = .filled ↔ current = .filled := by
  cases l <;> cases current <;> simp_all [eventType, nextStatus, transitions, noopEvents, eq_comm]

end Lifecycle

/-- A writing call of the order manager, with the ids `new_id` mints in it. -/
inductive OrderCall where
  | createFromIntent (intent : OrderIntent) (mode : TradingMode) (orderId eventId : String)
  | lifecycle (orderId : String) (l : Lifecycle) (minted : String)
  | applyFill (fill : Fill) (ids : FillIds)
  deriving DecidableEq, Repr

/-- The positivity the callers of the manager promise. -/
def OrderCall.Positive : OrderCall → Prop
  | createFromIntent intent _ _ _ => 0 < intent.quantity
  | lifecycle _ _ _ => True
  | applyFill fill _ => 0 < fill.quantity

instance : ∀ c : OrderCall, Decidable c.Positive
  | .createFromIntent intent _ _ _ => inferInstanceAs (Decidable (0 < intent.quantity))
  | .lifecycle _ _ _ => .isTrue trivial
  | .applyFill fill _ => inferInstanceAs (Decidable (0 < fill.quantity))

/-- The tables after a call that ran to completion. -/
def exec (s : OrderStore) : OrderCall → OrderStore
  | .createFromIntent intent mode orderId eventId =>
    match createFromIntent intent mode orderId eventId s with
    | .ok (_, s') => s'
    | .error _ => s
  | .lifecycle orderId l minted =>
    match l.run orderId minted s with
    | .ok (_, s') => s'
    | .error _ => s
  | .applyFill fill ids =>
    match applyFillTxn fill ids s with
    | .ok (_, s') => s'
    | .error _ => s

/-- What one call can do to the tables. -/
inductive CallEffect (s : OrderStore) : OrderCall → OrderStore → Prop
  | unchanged (c : OrderCall) : CallEffect s c s
  | created (intent : OrderIntent) (mode : TradingMode) (orderId eventId : String)
      (hid : s.get orderId = none) (hclient : s.getByClient intent.clientOrderId = none)
      (hevent : s.getEvent eventId = none) :
      CallEffect s (.createFromIntent intent mode orderId eventId)
        ⟨s.orders ++ [intentRow intent mode orderId],
          s.events ++ [createdEvent intent mode orderId eventId], s.fills⟩
  | recorded (orderId : String) (l : Lifecycle) (minted : String) (r : Order) (n : OrderStatus)
      (hn : nextStatus r.status l.eventType = some n)
      (h : RecordAccepted s orderId n l.args minted r) :
      CallEffect s (.lifecycle orderId l minted)
        (s.commit (recordedRow r n l.args minted) (recordedEvent r l.eventType n l.args minted) [])
  | filled (fill : Fill) (ids : FillIds) (r : Order) (n : OrderStatus)
      (h : FillAccepted s fill ids r n) :
      CallEffect s (.applyFill fill ids) (commitFill s fill ids r n)

lemma exec_effect (s : OrderStore) (c : OrderCall) : CallEffect s c (exec s c) := by
  cases c with
  | createFromIntent intent mode orderId eventId =>
    simp only [exec, createFromIntent]
    cases hc : s.getByClient intent.clientOrderId with
    | some existing =>
      cases hu : reuseOrConflict existing intent <;> simp only [hu] <;> exact .unchanged _
    | none =>
      simp only [createInsert]
      by_cases h : s.get orderId = none ∧ s.getByClient intent.clientOrderId = none ∧
          s.getEvent eventId = none
      · simp only [h, and_self, if_true]
        exact .created intent mode orderId eventId h.1 h.2.1 h.2.2
      · simp only [h, if_false]
        exact .unchanged _
  | lifecycle orderId l minted =>
    simp only [exec, l.run_eq]
    cases ht : transition orderId l.eventType l.args minted s with
    | error e => exact .unchanged _
    | ok w =>
      obtain ⟨r, n, hr, hn, hs | ⟨hacc, hs⟩⟩ := transition_cases ht
      · simp only [hs]
        exact .unchanged _
      · simp only [hs]
        exact .recorded orderId l minted r n hn hacc
  | applyFill fill ids =>
    simp only [exec]
    cases ht : applyFillTxn fill ids s with
    | error e => exact .unchanged _
    | ok w =>
      rcases applyFillTxn_cases ht with ⟨f, -, -, hs⟩ | ⟨r, n, hacc, -, hs⟩
      · simp only [hs]
        exact .unchanged _
      · simp only [hs]
        exact .filled fill ids r n hacc

lemma exec_create_fills (s : OrderStore) (intent : OrderIntent) (mode : TradingMode) (orderId eventId : String) :
    (exec s (.createFromIntent intent mode orderId eventId)).fills = s.fills := by
  have heff := exec_effect s (.createFromIntent intent mode orderId eventId)
  generalize exec s (.createFromIntent intent mode orderId eventId) = s' at heff
  cases heff <;> rfl

lemma exec_lifecycle_fills (s : OrderStore) (orderId : String) (l : Lifecycle) (minted : String) :
    (exec s (.lifecycle orderId l minted)).fills = s.fills := by
  have heff := exec_effect s (.lifecycle orderId l minted)
  generalize exec s (.lifecycle orderId l minted) = s' at heff
  cases heff with
  | unchanged => rfl
  | recorded _ _ _ r n hn hacc => simp

end CryptoTrader
