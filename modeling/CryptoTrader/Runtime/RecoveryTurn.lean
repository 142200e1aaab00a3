import CryptoTrader.Runtime.Recovery
import CryptoTrader.Lib.Runs

/-!
# The turns of recovery

The conditions under which the turn of a listed order returns are in `TurnReturns`; what
a turn that returns has done is in `TurnEffect`. A property of the rows that every turn
decides for its own order holds after `recover` exactly when every turn decides for it
(`recoverAll_iff`).
-/

namespace CryptoTrader

open KeyedTable OrderStore

variable {σ : Type}

/-- None of the ids is in the tables. -/
structure RecoveryIds.Fresh (s : OrderStore) (ids : RecoveryIds) : Prop where
  eventId : s.getEvent ids.eventId = none
  minted : s.getEvent ids.minted = none
  fillEventId : s.getEvent ids.fill.eventId = none
  tradeId : s.tradeIdFree ids.tradeId
  fillTradeId : s.tradeIdFree ids.fill.tradeId

/-- `new_id` never returns an id that is in the tables. -/
def MintsFresh (env : RecoveryEnv σ) : Prop :=
  ∀ s, (env.newIds s).Fresh s

/-- The statuses recovery takes over. -/
def adoptedStatuses : List OrderStatus :=
  [.opened, .acknowledged, .cancelled, .rejected, .expired]

/-- The recovery fill for `x` has been applied before, under the same id. -/
def Persisted (env : RecoveryEnv σ) (s : OrderStore) (x : Order) : Prop :=
  s.getFill (recoveryFillId env.filledText x) ≠ none

instance (env : RecoveryEnv σ) (s : OrderStore) (x : Order) : Decidable (Persisted env s x) :=
  inferInstanceAs (Decidable (_ ≠ _))

/-- The status an order that lags behind `x` is filled to. -/
def sliceStatus (o x : Order) : OrderStatus :=
  if x.filledQuantity = o.quantity then .filled else .partiallyFilled

/-- The recovery fill of a turn. -/
def slice (env : RecoveryEnv σ) (s : OrderStore) (o x : Order) : Fill :=
  recoveryFill env.filledText o x (env.newIds s).tradeId

/-- The tables once the recovery fill is committed. -/
def sliceStore (env : RecoveryEnv σ) (s : OrderStore) (o x : Order) : OrderStore :=
  commitFill s (slice env s o x) (env.newIds s).fill o (sliceStatus o x)

/-- The settlement of the recovery fill does not raise. -/
def SliceSettles (env : RecoveryEnv σ) (db : Db σ) (o x : Order) : Prop :=
  (env.settle (sliceStore env db.store o x) (slice env db.store o x) db.rest).1 = .ok ()

/-- The turn of a listed order does not raise. -/
def TurnReturns (env : RecoveryEnv σ) (db : Db σ) (o : Order) : Prop :=
  match env.answer o with
  | .error (.orderNotFound _) => o.status ≠ .cancelPending
  | .error _ => False
  | .ok x =>
    if Lags o x then
      Persisted env db.store x ∨ (x.filledQuantity ≤ o.quantity ∧ SliceSettles env db o x)
    else
      x.status = o.status ∨ x.status ∉ adoptedStatuses ∨
        nextStatus o.status (eventTypeForExchangeStatus x.status) ≠ none

/-- What the turn of a listed order has done, if it returns. -/
inductive TurnEffect (env : RecoveryEnv σ) (db : Db σ) (o : Order) : Except TradingError Unit × Db σ → Prop
  | raised (e : TradingError) (db' : Db σ) (h : ¬ TurnReturns env db o) : TurnEffect env db o (.error e, db')
  | kept (x : Order) (hx : env.answer o = .ok x)
      (h : Lags o x ∧ Persisted env db.store x ∨
        ¬ Lags o x ∧ (x.status = o.status ∨ x.status ∉ adoptedStatuses)) : TurnEffect env db o (.ok (), db)
  | rejected (m : String) (l : Lifecycle) (hx : env.answer o = .error (.orderNotFound m))
      (hc : o.status ≠ .cancelPending) (hid : l.args.exchangeOrderId = none)
      (hacc : RecordAccepted db.store o.internalOrderId .rejected l.args (env.newIds db.store).minted o) :
      TurnEffect env db o (.ok (),
        ⟨db.store.commit (recordedRow o .rejected l.args (env.newIds db.store).minted)
          (recordedEvent o l.eventType .rejected l.args (env.newIds db.store).minted) [], db.rest⟩)
  | adopted (x : Order) (l : Lifecycle) (n : OrderStatus) (hx : env.answer o = .ok x) (hl : ¬ Lags o x)
      (hs : x.status ≠ o.status) (ha : x.status ∈ adoptedStatuses)
      (hn : nextStatus o.status (eventTypeForExchangeStatus x.status) = some n)
      (hid : truthy l.args.exchangeOrderId → l.args.exchangeOrderId = x.exchangeOrderId)
      (hacc : RecordAccepted db.store o.internalOrderId n l.args (env.newIds db.store).minted o) :
      TurnEffect env db o (.ok (),
        ⟨db.store.commit (recordedRow o n l.args (env.newIds db.store).minted)
          (recordedEvent o l.eventType n l.args (env.newIds db.store).minted) [], db.rest⟩)
  | filled (x : Order) (hx : env.answer o = .ok x) (hl : Lags o x) (hp : ¬ Persisted env db.store x)
      (hq : x.filledQuantity ≤ o.quantity) (hset : SliceSettles env db o x)
      (hacc : FillAccepted db.store (slice env db.store o x) (env.newIds db.store).fill o (sliceStatus o x)) :
      TurnEffect env db o (.ok (),
        ⟨sliceStore env db.store o x,
          (env.settle (sliceStore env db.store o x) (slice env db.store o x) db.rest).2⟩)

/-- The orders whose turn is still to come: their rows are as they were listed, and no
other row has, and no other answer names, the exchange order id of an order's answer. -/
structure Awaiting (env : RecoveryEnv σ) (s : OrderStore) (os : List Order) : Prop where
  keys : TableKeys s
  rows : ∀ o ∈ os, s.get o.internalOrderId = some o
  ids : (os.map Order.internalOrderId).Nodup
  listed : ∀ o ∈ os, o.status ∈ openStatuses
  own : ∀ o ∈ os, ∀ x, env.answer o = .ok x → truthy x.exchangeOrderId →
    ∀ r ∈ s.orders, r.exchangeOrderId = x.exchangeOrderId → r.internalOrderId = o.internalOrderId
  distinct : ∀ o ∈ os, ∀ o' ∈ os, ∀ x x', env.answer o = .ok x → env.answer o' = .ok x' →
    truthy x.exchangeOrderId → x.exchangeOrderId = x'.exchangeOrderId → o.internalOrderId = o'.internalOrderId

/-- The exchange's answers are about the orders asked for: an exchange order id in an
answer is held by no other local order and is in no other order's answer. -/
structure Linked (env : RecoveryEnv σ) (s : OrderStore) : Prop where
  own : ∀ o ∈ s.listOpen, ∀ x, env.answer o = .ok x → truthy x.exchangeOrderId →
    ∀ r ∈ s.orders, r.exchangeOrderId = x.exchangeOrderId → r.internalOrderId = o.internalOrderId
  distinct : ∀ o ∈ s.listOpen, ∀ o' ∈ s.listOpen, ∀ x x', env.answer o = .ok x → env.answer o' = .ok x' →
    truthy x.exchangeOrderId → x.exchangeOrderId = x'.exchangeOrderId → o.internalOrderId = o'.internalOrderId

lemma mem_listOpen {s : OrderStore} {o : Order} :
    o ∈ s.listOpen ↔ o ∈ s.orders ∧ o.status ∈ openStatuses := by
  simp [listOpen]

lemma Linked.awaiting {env : RecoveryEnv σ} {s : OrderStore} (h : Linked env s) (hk : TableKeys s) :
    Awaiting env s s.listOpen where
  keys := hk
  rows := fun _ ho => hk.get (mem_listOpen.mp ho).1
  ids := (List.filter_sublist.map Order.internalOrderId).nodup hk.orderIds
  listed := fun _ ho => (mem_listOpen.mp ho).2
  own := h.own
  distinct := h.distinct

lemma adoptStatus_eq_none_iff (x : Order) (eventId : String) :
    adoptStatus x eventId = none ↔ x.status ∉ adoptedStatuses := by
  cases h : x.status <;> simp [adoptStatus, adoptedStatuses, h]

lemma adoptStatus_event {x : Order} {eventId : String} {l : Lifecycle} (h : adoptStatus x eventId = some l) :
    l.eventType = eventTypeForExchangeStatus x.status ∧
      (l.args.eventId = some eventId ∨ l.args.eventId = none) ∧
      (truthy l.args.exchangeOrderId → l.args.exchangeOrderId = x.exchangeOrderId) := by
  cases hs : x.status <;> simp only [adoptStatus, hs, Option.some.injEq, reduceCtorEq] at h <;>
    subst h <;> simp [Lifecycle.eventType, eventTypeForExchangeStatus, Lifecycle.args, truthy]

lemma RecoveryIds.Fresh.event {s : OrderStore} {ids : RecoveryIds} (h : ids.Fresh s) {given : Option String}
    (hg : given = some ids.eventId ∨ given = none) : s.getEvent (orElseNew given ids.minted) = none := by
  rcases hg with rfl | rfl
  · by_cases ht : truthy (some ids.eventId)
    · simpa [orElseNew, ht] using h.eventId
    · simpa [orElseNew, ht] using h.minted
  · exact h.minted

lemma nextStatus_listed {status : OrderStatus} (h : status ∈ openStatuses) :
    nextStatus status .orderFilled = some .filled ∧
      nextStatus status .orderPartiallyFilled = some .partiallyFilled := by
  simp only [openStatuses, List.mem_cons, List.not_mem_nil, or_false] at h
  rcases h with rfl | rfl | rfl | rfl | rfl | rfl <;> decide

lemma reject_listed {status : OrderStatus} (h : status ∈ openStatuses) :
    nextStatus status .orderRejected = if status = .cancelPending then none else some .rejected := by
  simp only [openStatuses, List.mem_cons, List.not_mem_nil, or_false] at h
  rcases h with rfl | rfl | rfl | rfl | rfl | rfl <;> decide

section Turns

variable {env : RecoveryEnv σ} {db : Db σ} {o : Order} {os : List Order}

lemma Awaiting.exchangeIdFree (h : Awaiting env db.store (o :: os)) {x r : Order} (hx : env.answer o = .ok x)
    (hid : r.internalOrderId = o.internalOrderId)
    (hr : truthy r.exchangeOrderId → r.exchangeOrderId = x.exchangeOrderId) (ht : truthy r.exchangeOrderId) :
    db.store.exchangeIdFree r := by
  intro y hy r' hr' hne heq
  have hxy : x.exchangeOrderId = some y := (hr ht).symm.trans hy
  exact hne ((h.own o (by simp) x hx (hr ht ▸ ht) r' hr' (heq.trans hxy.symm)).trans hid.symm)

lemma Awaiting.recordAccepted (h : Awaiting env db.store (o :: os)) (hfresh : MintsFresh env) {l : Lifecycle}
    (hid : l.args.eventId = some (env.newIds db.store).eventId ∨ l.args.eventId = none) (n : OrderStatus)
    (hx : truthy l.args.exchangeOrderId →
      ∃ x, env.answer o = .ok x ∧ l.args.exchangeOrderId = x.exchangeOrderId) :
    RecordAccepted db.store o.internalOrderId n l.args (env.newIds db.store).minted o where
  row := h.rows o (by simp)
  eventId := (hfresh db.store).event hid
  exchangeId := by
    have hrow := h.rows o (by simp)
    refine (exchangeIdFree_recordedRow (h.keys.exchangeIdFree_self (get_mem hrow).1 rfl rfl)).mpr ?_
    intro ht
    obtain ⟨x, hans, heq⟩ := hx ht
    exact h.exchangeIdFree (r := { o with exchangeOrderId := l.args.exchangeOrderId }) hans rfl (fun _ => heq) ht

lemma Awaiting.fillOrder_slice (h : Awaiting env db.store (o :: os)) {x : Order} (hx : env.answer o = .ok x) :
    fillOrder (slice env db.store o x) db.store = some o := by
  have hrow := h.rows o (by simp)
  have hid : (slice env db.store o x).orderId = o.internalOrderId := rfl
  by_cases ht : truthy x.exchangeOrderId
  · obtain ⟨y, hy, -⟩ := (truthy_iff _).mp ht
    have hy' : (slice env db.store o x).exchangeOrderId = some y := hy
    simp only [fillOrder, hy', ← hy, ht, if_true, hid]
    simp only [hy, Option.getD_some]
    cases hg : db.store.getByExchange y with
    | none => exact hrow
    | some r =>
      obtain ⟨hm, hry⟩ := getByExchange_mem hg
      have hk := h.own o (by simp) x hx ht r hm (hry.trans hy.symm)
      rw [eq_of_key_eq h.keys.orderIds hm (get_mem hrow).1 hk]
  · have ht' : ¬ truthy (slice env db.store o x).exchangeOrderId = true := ht
    simp only [fillOrder, ht', Bool.false_eq_true, if_false, hid, hrow]

lemma Awaiting.fillEventType_slice {x : Order} :
    fillEventType o (slice env db.store o x) =
      if x.filledQuantity = o.quantity then .orderFilled else .orderPartiallyFilled := by
  simp [fillEventType, slice, recoveryFill]

lemma Awaiting.fillAccepted (h : Awaiting env db.store (o :: os)) (hfresh : MintsFresh env) {x : Order}
    (hx : env.answer o = .ok x) (hp : ¬ Persisted env db.store x) (hq : x.filledQuantity ≤ o.quantity) :
    FillAccepted db.store (slice env db.store o x) (env.newIds db.store).fill o (sliceStatus o x) where
  fresh := not_not.mp hp
  row := h.fillOrder_slice hx
  room := by simpa [slice, recoveryFill] using hq
  next := by
    obtain ⟨hf, hpf⟩ := nextStatus_listed (h.listed o (by simp))
    rw [Awaiting.fillEventType_slice]
    by_cases hc : x.filledQuantity = o.quantity <;> simp [hc, sliceStatus, hf, hpf]
  exchangeId := by
    have hrow := h.rows o (by simp)
    refine (exchangeIdFree_filledRow (h.keys.exchangeIdFree_self (get_mem hrow).1 rfl rfl)).mpr ?_
    intro ht
    exact h.exchangeIdFree (r := { o with exchangeOrderId := x.exchangeOrderId }) hx rfl (fun _ => rfl) ht
  eventId := (hfresh db.store).fillEventId
  tradeId := by
    by_cases ht : truthy (some (env.newIds db.store).tradeId)
    · simpa [orElseNew, ht, slice, recoveryFill] using (hfresh db.store).tradeId
    · simpa [orElseNew, ht, slice, recoveryFill] using (hfresh db.store).fillTradeId

lemma Awaiting.fillTurn (h : Awaiting env db.store (o :: os)) (hfresh : MintsFresh env) {x : Order}
    (hx : env.answer o = .ok x) (hl : Lags o x) :
    TurnEffect env db o (runCall env.settle (env.newIds db.store) o.internalOrderId
      (.fill (slice env db.store o x)) db) := by
  simp only [runCall]
  by_cases hp : Persisted env db.store x
  · obtain ⟨f, hf⟩ := Option.ne_none_iff_exists'.mp hp
    rw [applyFill_duplicate env.settle (slice env db.store o x) hf]
    exact .kept x hx (.inl ⟨hl, hp⟩)
  · by_cases hq : x.filledQuantity ≤ o.quantity
    · have hacc := h.fillAccepted hfresh hx hp hq
      obtain ⟨hdb, hok⟩ := applyFill_of_accepted env.settle hacc
      rcases hr : applyFill env.settle (slice env db.store o x) (env.newIds db.store).fill db with ⟨_ | result, db'⟩
      · refine .raised _ _ ?_
        have hns : ¬ SliceSettles env db o x := by
          intro hs
          obtain ⟨result, hres⟩ := hok.mpr hs
          simp [hr] at hres
        simp [TurnReturns, hx, hl, hp, hns]
      · have hs : SliceSettles env db o x := hok.mp ⟨result, by rw [hr]⟩
        rw [hr] at hdb
        obtain rfl : db' = _ := hdb
        exact .filled x hx hl hp hq hs hacc
    · have hnr : ¬ TurnReturns env db o := by simp [TurnReturns, hx, hl, hp, hq]
      have hover : o.quantity < o.filledQuantity + (slice env db.store o x).quantity := by
        simpa [slice, recoveryFill] using hq
      have hfresh' : db.store.getFill (slice env db.store o x).fillId = none := not_not.mp hp
      simp only [applyFill, applyFillTxn, hfresh', h.fillOrder_slice hx, hover, if_true]
      exact .raised _ _ hnr

lemma Awaiting.turn (h : Awaiting env db.store (o :: os)) (hfresh : MintsFresh env) :
    TurnEffect env db o (recoveryTurn env o db) := by
  have hrow := h.rows o (by simp)
  have hlisted := h.listed o (by simp)
  unfold recoveryTurn
  cases hx : env.answer o with
  | error e =>
    cases e with
    | orderNotFound m =>
      simp only [recoveryCall, runCall]
      have hacc := h.recordAccepted hfresh
        (l := .reject (rejectReason o) (some (env.newIds db.store).eventId)) (.inl rfl) .rejected
        (by simp [Lifecycle.args, truthy])
      have hn := reject_listed hlisted
      by_cases hc : o.status = .cancelPending
      · obtain ⟨e, he⟩ := callLifecycle_illegal
          (l := .reject (rejectReason o) (some (env.newIds db.store).eventId))
          (env.newIds db.store).minted hrow (by simpa [Lifecycle.eventType, hc] using hn)
        rw [he]
        exact .raised _ _ (by simp [TurnReturns, hx, hc])
      · rw [callLifecycle_of_accepted (by simpa [Lifecycle.eventType, hc] using hn) hacc]
        exact .rejected m _ hx hc rfl hacc
    | _ => exact .raised _ _ (by simp [TurnReturns, hx])
  | ok x =>
    simp only [recoveryCall]
    by_cases hl : Lags o x
    · simp only [hl, if_true]
      exact h.fillTurn hfresh hx hl
    · by_cases hs : x.status = o.status
      · simp only [hl, if_false, hs, if_true, runCall]
        exact .kept x hx (.inr ⟨hl, .inl hs⟩)
      · simp only [hl, if_false, hs]
        cases ha : adoptStatus x (env.newIds db.store).eventId with
        | none => exact .kept x hx (.inr ⟨hl, .inr ((adoptStatus_eq_none_iff x _).mp ha)⟩)
        | some l =>
          obtain ⟨ht, hid, hxid⟩ := adoptStatus_event ha
          have hadopted : x.status ∈ adoptedStatuses := by
            by_contra hc
            simp [(adoptStatus_eq_none_iff x (env.newIds db.store).eventId).mpr hc] at ha
          simp only [runCall]
          cases hn : nextStatus o.status (eventTypeForExchangeStatus x.status) with
          | none =>
            obtain ⟨e, he⟩ := callLifecycle_illegal (env.newIds db.store).minted hrow
              (ht.symm ▸ hn : nextStatus o.status l.eventType = none)
            rw [he]
            exact .raised _ _ (by simp [TurnReturns, hx, hl, hs, hadopted, hn])
          | some n =>
            have hacc := h.recordAccepted hfresh hid n (fun htr => ⟨x, hx, hxid htr⟩)
            rw [callLifecycle_of_accepted (ht.symm ▸ hn) hacc]
            exact .adopted x l n hx hl hs hadopted hn hxid hacc

lemma TurnEffect.returns_iff {p : Except TradingError Unit × Db σ} (h : TurnEffect env db o p) :
    p.1 = .ok () ↔ TurnReturns env db o := by
  cases h with
  | raised e db' h => simp [h]
  | kept x hx h =>
    rcases h with ⟨hl, hp⟩ | ⟨hl, hs | hs⟩
    · simp [TurnReturns, hx, hl, hp]
    · simp [TurnReturns, hx, hl, hs]
    · simp [TurnReturns, hx, hl, hs]
  | rejected m l hx hc => simp [TurnReturns, hx, hc]
  | adopted x l n hx hl hs ha hn => simp [TurnReturns, hx, hl, hn]
  | filled x hx hl hp hq hset => simp [TurnReturns, hx, hl, hq, hset]

/-- A turn that returns has left the tables alone or written the order's row; the row's
exchange order id is the old one or the answer's. -/
lemma TurnEffect.write {db' : Db σ} (h : TurnEffect env db o (.ok (), db')) :
    db'.store = db.store ∨ ∃ r' e fs, db'.store = db.store.commit r' e fs ∧
      r'.internalOrderId = o.internalOrderId ∧ r'.clientOrderId = o.clientOrderId ∧
      db.store.exchangeIdFree r' ∧ (r'.exchangeOrderId = o.exchangeOrderId ∨
        ∃ x, env.answer o = .ok x ∧ r'.exchangeOrderId = x.exchangeOrderId) := by
  cases h with
  | kept => exact .inl rfl
  | rejected m l hx hc hid hacc =>
    exact .inr ⟨_, _, _, rfl, rfl, rfl, hacc.exchangeId, .inl (by simp [recordedRow, hid, truthy])⟩
  | adopted x l n hx hl hs ha hn hid hacc =>
    refine .inr ⟨_, _, _, rfl, rfl, rfl, hacc.exchangeId, ?_⟩
    by_cases ht : truthy l.args.exchangeOrderId
    · exact .inr ⟨x, hx, (if_pos ht).trans (hid ht)⟩
    · exact .inl (by simp [recordedRow, ht])
  | filled x hx hl hp hq hset hacc =>
    refine .inr ⟨_, _, _, rfl, rfl, rfl, hacc.exchangeId, ?_⟩
    by_cases ht : truthy x.exchangeOrderId
    · exact .inr ⟨x, hx, by simp [filledRow, slice, recoveryFill, ht]⟩
    · exact .inl (by simp [filledRow, slice, recoveryFill, ht])

lemma TurnEffect.get_of_ne {db' : Db σ} (h : TurnEffect env db o (.ok (), db')) {orderId : String}
    (hne : orderId ≠ o.internalOrderId) : db'.store.get orderId = db.store.get orderId := by
  rcases h.write with hs | ⟨r', e, fs, hs, hid, -⟩
  · rw [hs]
  · rw [hs, get_commit_of_ne]
    rwa [hid]

lemma Awaiting.next (h : Awaiting env db.store (o :: os)) {db' : Db σ}
    (ht : TurnEffect env db o (.ok (), db')) : Awaiting env db'.store os := by
  have hids := List.nodup_cons.mp h.ids
  have hne : ∀ o' ∈ os, o'.internalOrderId ≠ o.internalOrderId :=
    fun o' ho' heq => hids.1 (heq ▸ List.mem_map_of_mem ho')
  have hrow := h.rows o (by simp)
  constructor
  · rcases ht.write with hs | ⟨r', e, fs, hs, hid, hclient, hx, -⟩
    · rw [hs]
      exact h.keys
    · rw [hs]
      exact h.keys.commit (get_mem hrow).1 hid hclient hx e fs
  · intro o' ho'
    rw [ht.get_of_ne (hne o' ho')]
    exact h.rows o' (List.mem_cons_of_mem _ ho')
  · exact hids.2
  · exact fun o' ho' => h.listed o' (List.mem_cons_of_mem _ ho')
  · intro o' ho' x' hx' ht' r hr hrx
    have hown := h.own o' (List.mem_cons_of_mem _ ho') x' hx' ht'
    rcases ht.write with hs | ⟨r', e, fs, hs, hid, -, -, hsame | ⟨x, hx, hxr⟩⟩
    · exact hown r (hs ▸ hr) hrx
    · rcases (mem_commit e fs).mp (hs ▸ hr) with ⟨rfl, -⟩ | ⟨hm, -⟩
      · exact hid.trans (hown o (get_mem hrow).1 (hsame.symm.trans hrx))
      · exact hown r hm hrx
    · rcases (mem_commit e fs).mp (hs ▸ hr) with ⟨rfl, -⟩ | ⟨hm, -⟩
      · refine hid.trans (h.distinct o' (List.mem_cons_of_mem _ ho') o (by simp) x' x hx' hx ht' ?_).symm
        exact hrx.symm.trans hxr
      · exact hown r hm hrx
  · exact fun o' ho' o'' ho'' => h.distinct o' (List.mem_cons_of_mem _ ho') o'' (List.mem_cons_of_mem _ ho'')

end Turns

lemma get_recorded {s : OrderStore} (h : s.get o.internalOrderId = some o) (n : OrderStatus)
    (args : EventArgs) (minted : String) (event : OrderEvent) :
    (s.commit (recordedRow o n args minted) event []).get o.internalOrderId =
      some (recordedRow o n args minted) :=
  get_commit_row (r := recordedRow o n args minted) event [] h rfl

lemma get_sliced {s : OrderStore} (h : s.get o.internalOrderId = some o) (x : Order) :
    (sliceStore env s o x).get o.internalOrderId =
      some (filledRow o (slice env s o x) (sliceStatus o x) (env.newIds s).fill) :=
  get_commit_row (r := filledRow o (slice env s o x) (sliceStatus o x) (env.newIds s).fill) _ _ h rfl

/-- After a turn that has returned, a property of the order's row is one of that row. -/
lemma returned_iff {p : Except TradingError Unit × Db σ} {db₁ : Db σ} {orderId : String} {r : Order}
    {Q : Order → Prop} (hp : p = (.ok (), db₁)) (hr : db₁.store.get orderId = some r) :
    (∃ db', p = (.ok (), db') ∧ ∃ o', db'.store.get orderId = some o' ∧ Q o') ↔ Q r := by
  subst hp
  constructor
  · rintro ⟨db', hp, o', ho', hq⟩
    obtain rfl : db₁ = db' := (Prod.mk.inj hp).2
    obtain rfl : r = o' := Option.some.inj (hr.symm.trans ho')
    exact hq
  · exact fun hq => ⟨db₁, rfl, r, hr, hq⟩

lemma not_returned {e : TradingError} {db₁ : Db σ} {R : Db σ → Prop} :
    ¬ ∃ db', ((.error e, db₁) : Except TradingError Unit × Db σ) = (.ok (), db') ∧ R db' := by
  rintro ⟨db', hp, -⟩
  simp at hp

/-! ### The whole loop -/

lemma recoverAll_cons (env : RecoveryEnv σ) (o : Order) (os : List Order) (db db' : Db σ) :
    (∃ actions, recoverAll env (o :: os) db = (.ok actions, db')) ↔
      (recoveryTurn env o db).1 = .ok () ∧ ∃ actions, recoverAll env os (recoverStep env db o) = (.ok actions, db') := by
  obtain ⟨actions, ha⟩ := recoverOrder_eq env o db
  simp only [recoverAll, ha, recoverStep_eq]
  rcases recoveryTurn env o db with ⟨e | u, db₁⟩
  · simp [andThen]
  · simp only [andThen_ok, true_and]
    rcases recoverAll env os db₁ with ⟨e | more, db₂⟩ <;> simp [andThen]

section Loop

variable {env : RecoveryEnv σ}

lemma recoverAll_get_of_not_mem (hfresh : MintsFresh env) {os : List Order} {db db' : Db σ}
    (h : Awaiting env db.store os) {actions : List RecoveryAction}
    (hr : recoverAll env os db = (.ok actions, db')) {orderId : String}
    (hid : orderId ∉ os.map Order.internalOrderId) : db'.store.get orderId = db.store.get orderId := by
  induction os generalizing db actions with
  | nil => simp_all [recoverAll]
  | cons o os ih =>
    obtain ⟨hok, actions', hrest⟩ := (recoverAll_cons env o os db db').mp ⟨actions, hr⟩
    have hturn := h.turn hfresh
    rw [show recoveryTurn env o db = (.ok (), recoverStep env db o) from Prod.ext hok (recoverStep_eq env db o).symm] at hturn
    simp only [List.map_cons, List.mem_cons, not_or] at hid
    rw [ih (h.next hturn) hrest hid.2, hturn.get_of_ne hid.1]

/-- The loop returns exactly when every turn does. -/
lemma recover_returns_iff (hfresh : MintsFresh env) {os : List Order} {db : Db σ}
    (h : Awaiting env db.store os) :
    (∃ actions db', recoverAll env os db = (.ok actions, db')) ↔
      Runs.Along (recoverStep env) (TurnReturns env) db os := by
  induction os generalizing db with
  | nil => simp [recoverAll, Runs.Along]
  | cons o os ih =>
    have heff := h.turn hfresh
    have hiff := heff.returns_iff
    rw [exists_comm]
    simp only [recoverAll_cons, exists_and_left, Runs.Along, ← hiff]
    rw [exists_comm]
    refine and_congr_right (fun hok => ih (h.next ?_))
    rwa [show recoveryTurn env o db = (.ok (), recoverStep env db o) from
      Prod.ext hok (recoverStep_eq env db o).symm] at heff

/-- If a turn meets `P` exactly when it returns with a row that meets `Q`, the turns all
meet `P` exactly when the loop returns and every listed order's row meets `Q` then. -/
theorem recoverAll_iff (hfresh : MintsFresh env) {P : Db σ → Order → Prop} {Q : Order → Order → Prop}
    {os : List Order} {db : Db σ} (h : Awaiting env db.store os)
    (hturn : ∀ db o os', o ∈ os → Awaiting env db.store (o :: os') →
      (P db o ↔ ∃ db', recoveryTurn env o db = (.ok (), db') ∧
        ∃ o', db'.store.get o.internalOrderId = some o' ∧ Q o o')) :
    Runs.Along (recoverStep env) P db os ↔ ∃ actions db', recoverAll env os db = (.ok actions, db') ∧
      ∀ o ∈ os, ∃ o', db'.store.get o.internalOrderId = some o' ∧ Q o o' := by
  induction os generalizing db with
  | nil => simp [Runs.Along, recoverAll]
  | cons o os ih =>
    have hhead := hturn db o os (by simp) h
    have htail := fun (db : Db σ) o' os' ho' => hturn db o' os' (List.mem_cons_of_mem o ho')
    have hids := List.nodup_cons.mp h.ids
    constructor
    · rintro ⟨hp, hrest⟩
      obtain ⟨db₁, hr, o', ho', hq⟩ := hhead.mp hp
      have heff := h.turn hfresh
      rw [hr] at heff
      have hstep : recoverStep env db o = db₁ := by rw [recoverStep_eq, hr]
      rw [hstep] at hrest
      obtain ⟨actions, db', hall, hrows⟩ := (ih (h.next heff) htail).mp hrest
      obtain ⟨actions', hall'⟩ := (recoverAll_cons env o os db db').mpr
        ⟨by rw [hr], actions, by rw [hstep, hall]⟩
      refine ⟨actions', db', hall', ?_⟩
      intro o₁ ho₁
      rcases List.mem_cons.mp ho₁ with rfl | ho₁
      · exact ⟨o', by rw [recoverAll_get_of_not_mem hfresh (h.next heff) hall hids.1, ho'], hq⟩
      · exact hrows o₁ ho₁
    · rintro ⟨actions, db', hall, hrows⟩
      obtain ⟨hok, actions', hrest⟩ := (recoverAll_cons env o os db db').mp ⟨actions, hall⟩
      have hr : recoveryTurn env o db = (.ok (), recoverStep env db o) := Prod.ext hok (recoverStep_eq env db o).symm
      have heff := h.turn hfresh
      rw [hr] at heff
      obtain ⟨o', ho', hq⟩ := hrows o (by simp)
      rw [recoverAll_get_of_not_mem hfresh (h.next heff) hrest hids.1] at ho'
      refine ⟨hhead.mpr ⟨_, hr, o', ho', hq⟩, (ih (h.next heff) htail).mpr ⟨actions', db', hrest, ?_⟩⟩
      exact fun o₁ ho₁ => hrows o₁ (List.mem_cons_of_mem _ ho₁)

end Loop

/-! ### One order, and ids that are never taken -/

lemma linked_of_single {s : OrderStore} (orderId : String) (h : ∀ r ∈ s.orders, r.internalOrderId = orderId)
    (env : RecoveryEnv σ) : Linked env s where
  own := fun o ho _ _ _ r hr _ => (h r hr).trans (h o (mem_listOpen.mp ho).1).symm
  distinct := fun o ho o' ho' _ _ _ _ _ _ =>
    (h o (mem_listOpen.mp ho).1).trans (h o' (mem_listOpen.mp ho').1).symm

/-- A name longer than all of the list's together. -/
def freshName : List String → String
  | [] => "x"
  | name :: names => name ++ freshName names

lemma freshName_length_pos (names : List String) : 0 < (freshName names).length := by
  induction names with
  | nil => decide
  | cons name names ih =>
    simp only [freshName, String.length_append]
    omega

lemma freshName_ne_empty (names : List String) : freshName names ≠ "" := by
  intro h
  have hpos := freshName_length_pos names
  simp [h] at hpos

lemma length_lt_freshName {names : List String} {name : String} (h : name ∈ names) :
    name.length < (freshName names).length := by
  induction names with
  | nil => simp at h
  | cons n names ih =>
    have hpos := freshName_length_pos names
    simp only [freshName, String.length_append]
    rcases List.mem_cons.mp h with rfl | hn
    · omega
    · have hlt := ih hn
      omega

lemma freshName_not_mem (names : List String) : freshName names ∉ names :=
  fun h => (length_lt_freshName h).ne rfl

def namedIds (s : OrderStore) : RecoveryIds where
  eventId := freshName (s.events.map OrderEvent.eventId)
  minted := freshName (s.events.map OrderEvent.eventId)
  tradeId := freshName (s.fills.map (fun f => f.tradeId.getD ""))
  fill := ⟨freshName (s.fills.map (fun f => f.tradeId.getD "")), "", freshName (s.events.map OrderEvent.eventId)⟩

lemma namedIds_fresh (s : OrderStore) : (namedIds s).Fresh s := by
  have he : s.getEvent (freshName (s.events.map OrderEvent.eventId)) = none :=
    getEvent_eq_none_iff.mpr (freshName_not_mem _)
  have ht : s.tradeIdFree (freshName (s.fills.map (fun f => f.tradeId.getD ""))) := by
    intro f hf heq
    refine freshName_not_mem (s.fills.map (fun f => f.tradeId.getD "")) ?_
    exact List.mem_map.mpr ⟨f, hf, by rw [heq]; rfl⟩
  exact ⟨he, he, he, ht, ht⟩

/-- The exchange gives the same answer for every order. -/
def steadyExchange (settle : SettlementCallback σ) (answer : Except TradingError Order) : RecoveryEnv σ where
  settle := settle
  getOrder := fun _ _ => answer
  newIds := namedIds
  filledText := fun x => if x.filledQuantity = 2 then "2" else "1"

lemma steadyExchange_fresh (settle : SettlementCallback σ) (answer : Except TradingError Order) :
    MintsFresh (steadyExchange settle answer) :=
  namedIds_fresh

/-- The submitted order as the exchange reports it, with `filled` of its two units executed
at 100. -/
def exchangeOrder (status : OrderStatus) (filled : ℚ) : Order where
  internalOrderId := "x1"
  clientOrderId := "c1"
  exchangeOrderId := some "x1"
  symbol := "BTCUSDT"
  side := .buy
  price := some 100
  quantity := 2
  filledQuantity := filled
  avgFillPrice := some 100
  status := status

/-- The callback of a manager that settles nothing. -/
def settleNothing : SettlementCallback Unit :=
  fun _ _ _ => (.ok (), ())

lemma listOpen_submittedLife : (Runs.run exec {} submittedLife).listOpen = [submittedOrder] := by
  decide +kernel

lemma answer_submittedOrder (settle : SettlementCallback σ) (answer : Except TradingError Order) :
    (steadyExchange settle answer).answer submittedOrder = answer :=
  if_neg (by decide +kernel)

end CryptoTrader
