import CryptoTrader.Order.Consistency

/-!
# A transition racing a fill

`transition` reads the order in one session and writes the status it computed in another.
One fill of the same order is applied before, between or after the two sessions.
-/

namespace CryptoTrader

open KeyedTable OrderStore

/-- Where the fill is applied, relative to the two sessions of the transition. -/
inductive Placement where
  | before
  | between
  | after
  deriving DecidableEq, Repr

/-- The second session with what the first has in hand; an exception ends the call. -/
def writeBack (pending : Except TradingError PendingTransition) (l : Lifecycle) (minted : String)
    (s : OrderStore) : OrderStore :=
  match pending with
  | .error _ => s
  | .ok p =>
    match transitionWrite p l.eventType l.args minted s with
    | .ok (_, s') => s'
    | .error _ => s

/-- The tables after one transition call and one fill. -/
def race (s : OrderStore) (orderId : String) (l : Lifecycle) (minted : String) (fill : Fill)
    (ids : FillIds) : Placement → OrderStore
  | .before =>
    let s₁ := exec s (.applyFill fill ids)
    writeBack (transitionRead orderId l.eventType s₁) l minted s₁
  | .between =>
    let pending := transitionRead orderId l.eventType s
    writeBack pending l minted (exec s (.applyFill fill ids))
  | .after => exec (writeBack (transitionRead orderId l.eventType s) l minted s) (.applyFill fill ids)

def statusOf (s : OrderStore) (orderId : String) : Option OrderStatus :=
  (s.get orderId).map Order.status

/-- FILLED means filled in the final store, and the final status is that of one of the
two sequential orders. -/
def RaceSafe (s : OrderStore) (orderId : String) (l : Lifecycle) (minted : String) (fill : Fill)
    (ids : FillIds) (p : Placement) : Prop :=
  (∀ o, (race s orderId l minted fill ids p).get orderId = some o →
    (o.status = .filled ↔ o.filledQuantity = o.quantity)) ∧
  (statusOf (race s orderId l minted fill ids p) orderId =
      statusOf (race s orderId l minted fill ids .before) orderId ∨
    statusOf (race s orderId l minted fill ids p) orderId =
      statusOf (race s orderId l minted fill ids .after) orderId)

instance (s : OrderStore) (orderId : String) (l : Lifecycle) (minted : String) (fill : Fill) (ids : FillIds)
    (p : Placement) : Decidable (RaceSafe s orderId l minted fill ids p) :=
  inferInstanceAs (Decidable ((∀ o ∈ (race s orderId l minted fill ids p).get orderId,
    (o.status = .filled ↔ o.filledQuantity = o.quantity)) ∧ (_ = _ ∨ _ = _)))

/-- The fill names the order, and no other order has its exchange id. -/
def SameOrder (s : OrderStore) (fill : Fill) (orderId : String) : Prop :=
  fill.orderId = orderId ∧ ∀ r ∈ s.orders, truthy fill.exchangeOrderId →
    r.exchangeOrderId = fill.exchangeOrderId → r.internalOrderId = orderId

/-- The events whose status a partial fill would not have changed. -/
def keepsPartial : List OrderEventType :=
  [.orderCancelPending, .orderRejected, .orderExpired, .orderUnknown]

/-- The fill lands between the two sessions, both calls commit, and the write restores a
status the fill has moved on from. -/
def Overwrites (s : OrderStore) (o : Order) (l : Lifecycle) (minted : String) (fill : Fill)
    (ids : FillIds) (p : Placement) : Prop :=
  p = .between ∧ (∃ m, FillAccepted s fill ids o m) ∧
  (∃ n, nextStatus o.status l.eventType = some n ∧
    RecordAccepted s o.internalOrderId n l.args minted o) ∧
  orElseNew l.args.eventId minted ≠ ids.eventId ∧
  (o.filledQuantity + fill.quantity = o.quantity ∨
    (o.status ≠ .partiallyFilled ∧ l.eventType ∉ keepsPartial))

/-! ### The calls, one at a time -/

lemma exec_fill_of_accepted {s : OrderStore} {fill : Fill} {ids : FillIds} {r : Order} {n : OrderStatus}
    (h : FillAccepted s fill ids r n) : exec s (.applyFill fill ids) = commitFill s fill ids r n := by
  simp only [exec, applyFillTxn_of_accepted h]

lemma exec_fill_of_refused {s : OrderStore} {fill : Fill} {ids : FillIds}
    (h : ∀ r n, ¬ FillAccepted s fill ids r n) : exec s (.applyFill fill ids) = s := by
  have heff := exec_effect s (.applyFill fill ids)
  generalize exec s (.applyFill fill ids) = s' at heff
  cases heff with
  | unchanged => rfl
  | filled _ _ r n hacc => exact absurd hacc (h r n)

lemma writeBack_of_accepted {s : OrderStore} {o r : Order} {l : Lifecycle} {n : OrderStatus} {b : Bool}
    {minted : String} (h : RecordAccepted s o.internalOrderId n l.args minted r) :
    writeBack (.ok ⟨o, n, b⟩) l minted s =
      s.commit (recordedRow r n l.args minted) (recordedEvent o l.eventType n l.args minted) [] := by
  simp only [writeBack, transitionWrite, recordEvent_of_accepted h]

lemma writeBack_of_refused {s : OrderStore} {o : Order} {l : Lifecycle} {n : OrderStatus} {b : Bool}
    {minted : String} (h : ∀ r, ¬ RecordAccepted s o.internalOrderId n l.args minted r) :
    writeBack (.ok ⟨o, n, b⟩) l minted s = s := by
  simp only [writeBack, transitionWrite]
  cases hw : recordEvent o l.eventType n l.args minted s with
  | error e => rfl
  | ok w =>
    rcases recordEvent_cases hw with ⟨hs, -⟩ | ⟨r, hacc, -⟩
    · exact hs
    · exact absurd hacc (h r)

lemma race_before_of_refused {s : OrderStore} {orderId : String} {l : Lifecycle} {minted : String}
    {fill : Fill} {ids : FillIds} (h : ∀ r n, ¬ FillAccepted s fill ids r n) :
    race s orderId l minted fill ids .between = race s orderId l minted fill ids .before := by
  simp only [race, exec_fill_of_refused h]

lemma writeBack_eq_exec (s : OrderStore) (orderId : String) (l : Lifecycle) (minted : String) :
    writeBack (transitionRead orderId l.eventType s) l minted s = exec s (.lifecycle orderId l minted) := by
  simp only [writeBack, exec, l.run_eq, transition]
  cases transitionRead orderId l.eventType s <;> rfl

/-! ### The constraints after the other call -/

/-- After the fill has landed the transition's write is accepted exactly when it would
have been accepted before and its event id is not the fill's. -/
lemma recordAccepted_commitFill {s : OrderStore} {o : Order} {fill : Fill} {ids : FillIds} {m n k : OrderStatus}
    {args : EventArgs} {minted : String} (hown : s.exchangeIdFree o)
    (hget : s.get o.internalOrderId = some o) (hacc : FillAccepted s fill ids o m) :
    RecordAccepted (commitFill s fill ids o m) o.internalOrderId n args minted (filledRow o fill m ids) ↔
      RecordAccepted s o.internalOrderId k args minted o ∧ orElseNew args.eventId minted ≠ ids.eventId := by
  have hrow : (commitFill s fill ids o m).get o.internalOrderId = some (filledRow o fill m ids) :=
    get_commit_self (r := filledRow o fill m ids) _ _ hget
  have hx : (commitFill s fill ids o m).exchangeIdFree (recordedRow (filledRow o fill m ids) n args minted) ↔
      s.exchangeIdFree (recordedRow o k args minted) := by
    refine (exchangeIdFree_commit (r := filledRow o fill m ids)
      (x := recordedRow (filledRow o fill m ids) n args minted) rfl).trans ?_
    rw [exchangeIdFree_recordedRow hacc.exchangeId, exchangeIdFree_recordedRow hown]
    rfl
  constructor
  · intro h
    obtain ⟨he, hne⟩ := getEvent_commit_eq_none_iff.mp h.eventId
    exact ⟨⟨hget, he, hx.mp h.exchangeId⟩, hne⟩
  · rintro ⟨h, hne⟩
    exact ⟨hrow, getEvent_commit_eq_none_iff.mpr ⟨h.eventId, hne⟩, hx.mpr h.exchangeId⟩

lemma fillOrder_same {s : OrderStore} {fill : Fill} {o : Order} (hget : s.get o.internalOrderId = some o)
    (hs : StoreConsistent s) (h : SameOrder s fill o.internalOrderId) : fillOrder fill s = some o := by
  unfold fillOrder
  split
  · rename_i r hr
    by_cases ht : truthy fill.exchangeOrderId
    · obtain ⟨x, hx, -⟩ := (truthy_iff _).mp ht
      rw [if_pos ht, hx] at hr
      obtain ⟨hm, hrx⟩ := getByExchange_mem hr
      have hid : r.internalOrderId = o.internalOrderId := h.2 r hm ht (hrx.trans hx.symm)
      exact congrArg some (eq_of_key_eq hs.orderIds hm (get_mem hget).1 hid)
    · simp [ht] at hr
  · rw [h.1, hget]

lemma fillOrder_recorded {s : OrderStore} {o : Order} {fill : Fill} {n : OrderStatus} {l : Lifecycle}
    {minted : String} (hs : StoreConsistent s) (hsame : SameOrder s fill o.internalOrderId)
    (hn : nextStatus o.status l.eventType = some n)
    (hrec : RecordAccepted s o.internalOrderId n l.args minted o) :
    fillOrder fill (s.commit (recordedRow o n l.args minted)
      (recordedEvent o l.eventType n l.args minted) []) = some (recordedRow o n l.args minted) := by
  have hs' : StoreConsistent (exec s (.lifecycle o.internalOrderId l minted)) :=
    exec_consistent hs trivial
  obtain ⟨x, hx⟩ := transition_of_accepted hn hrec
  simp only [exec, l.run_eq, hx] at hs'
  refine fillOrder_same (o := recordedRow o n l.args minted) (get_commit_self _ _ hrec.row) hs' ⟨hsame.1, ?_⟩
  intro r hr ht hrx
  rcases (mem_commit _ _).mp hr with ⟨rfl, -⟩ | ⟨hm, -⟩
  · rfl
  · exact hsame.2 r hm ht hrx

/-- After the transition has committed the fill is accepted whenever the table allows it
from the new status. -/
lemma fillAccepted_recorded {s : OrderStore} {o : Order} {fill : Fill} {ids : FillIds} {m n k : OrderStatus}
    {l : Lifecycle} {minted : String} (hs : StoreConsistent s)
    (hsame : SameOrder s fill o.internalOrderId) (hn : nextStatus o.status l.eventType = some n)
    (hrec : RecordAccepted s o.internalOrderId n l.args minted o) (hacc : FillAccepted s fill ids o m)
    (hne : orElseNew l.args.eventId minted ≠ ids.eventId)
    (hk : nextStatus n (fillEventType o fill) = some k) :
    FillAccepted (s.commit (recordedRow o n l.args minted) (recordedEvent o l.eventType n l.args minted) [])
      fill ids (recordedRow o n l.args minted) k where
  fresh := by simpa [getFill] using hacc.fresh
  row := fillOrder_recorded hs hsame hn hrec
  room := hacc.room
  next := hk
  exchangeId := by
    have hown := hs.exchangeIdFree_self (get_mem hrec.row).1 rfl rfl
    refine (exchangeIdFree_commit (r := recordedRow o n l.args minted)
      (x := filledRow (recordedRow o n l.args minted) fill k ids) rfl).mpr ?_
    rw [exchangeIdFree_filledRow hrec.exchangeId]
    exact (exchangeIdFree_filledRow hown).mp hacc.exchangeId
  eventId := getEvent_commit_eq_none_iff.mpr ⟨hacc.eventId, hne.symm⟩
  tradeId := by simpa [tradeIdFree] using hacc.tradeId

/-! ### The final statuses -/

lemma statusOf_commit {s : OrderStore} {r r₀ : Order} {e : OrderEvent} {fs : List Fill}
    (hget : s.get r.internalOrderId = some r₀) :
    statusOf (s.commit r e fs) r.internalOrderId = some r.status := by
  rw [statusOf, get_commit_self e fs hget]
  rfl

lemma statusOf_lifecycle {s : OrderStore} {o : Order} {l : Lifecycle} {minted : String}
    (hget : s.get o.internalOrderId = some o)
    (h : ∀ n, nextStatus o.status l.eventType = some n →
      RecordAccepted s o.internalOrderId n l.args minted o) :
    statusOf (writeBack (transitionRead o.internalOrderId l.eventType s) l minted s) o.internalOrderId =
      some ((nextStatus o.status l.eventType).getD o.status) := by
  cases hn : nextStatus o.status l.eventType with
  | none =>
    simp only [transitionRead, hget, transition_eq, hn, writeBack, statusOf]
    rfl
  | some n =>
    rw [transitionRead_ok_iff.mpr ⟨o, n, hget, hn, rfl⟩, writeBack_of_accepted (h n hn)]
    exact statusOf_commit (r := recordedRow o n l.args minted) hget

lemma statusOf_fill {s : OrderStore} {o : Order} {fill : Fill} {ids : FillIds}
    (hget : s.get o.internalOrderId = some o) (hrow : fillOrder fill s = some o)
    (h : ∀ n, nextStatus o.status (fillEventType o fill) = some n → FillAccepted s fill ids o n) :
    statusOf (exec s (.applyFill fill ids)) o.internalOrderId =
      some ((nextStatus o.status (fillEventType o fill)).getD o.status) := by
  cases hn : nextStatus o.status (fillEventType o fill) with
  | none =>
    rw [exec_fill_of_refused, statusOf, hget]
    · rfl
    · intro r n hacc
      obtain rfl : o = r := Option.some.inj (hrow.symm.trans hacc.row)
      exact absurd (hn.symm.trans hacc.next) (by simp)
  | some n =>
    rw [exec_fill_of_accepted (h n hn)]
    exact statusOf_commit (r := filledRow o fill n ids) hget

/-- The stale write of `n` over a partial fill ends where a sequential order ends exactly
for the statuses a partial fill would not have changed. -/
lemma partial_race_status {t : OrderEventType} {current n m : OrderStatus} (hne : current ≠ .filled)
    (hpart : t ≠ .orderPartiallyFilled) (hfull : t ≠ .orderFilled)
    (hn : nextStatus current t = some n) (hm : nextStatus current .orderPartiallyFilled = some m) :
    (n = (nextStatus m t).getD m ∨ n = (nextStatus n .orderPartiallyFilled).getD n) ↔
      ¬ (current ≠ .partiallyFilled ∧ t ∉ keepsPartial) := by
  obtain rfl := (nextStatus_fill _ hne).2 hm
  cases t <;> cases current <;> simp [nextStatus, transitions, noopEvents] at hn hm hne hpart hfull <;>
    subst hn <;> simp [nextStatus, transitions, noopEvents, keepsPartial]

/-- When both calls commit and the fill lands between the two sessions, the final status
and the two sequential ones, in terms of the table. -/
lemma between_statuses {s : OrderStore} {o : Order} {l : Lifecycle} {minted : String} {fill : Fill}
    {ids : FillIds} {m n : OrderStatus} (hs : StoreConsistent s) (hget : s.get o.internalOrderId = some o)
    (hsame : SameOrder s fill o.internalOrderId) (hacc : FillAccepted s fill ids o m)
    (hn : nextStatus o.status l.eventType = some n)
    (hrec : RecordAccepted s o.internalOrderId n l.args minted o)
    (hne : orElseNew l.args.eventId minted ≠ ids.eventId) :
    (race s o.internalOrderId l minted fill ids .between).get o.internalOrderId =
        some (recordedRow (filledRow o fill m ids) n l.args minted) ∧
      statusOf (race s o.internalOrderId l minted fill ids .before) o.internalOrderId =
        some ((nextStatus m l.eventType).getD m) ∧
      statusOf (race s o.internalOrderId l minted fill ids .after) o.internalOrderId =
        some ((nextStatus n (fillEventType o fill)).getD n) := by
  have hown := hs.exchangeIdFree_self (get_mem hget).1 rfl rfl
  have hread := transitionRead_ok_iff.mpr ⟨o, n, hget, hn, rfl⟩
  have hafter : ∀ k, RecordAccepted (commitFill s fill ids o m) o.internalOrderId k l.args minted
      (filledRow o fill m ids) := fun k => (recordAccepted_commitFill hown hget hacc).mpr ⟨hrec, hne⟩
  refine ⟨?_, ?_, ?_⟩
  · simp only [race, exec_fill_of_accepted hacc, hread, writeBack_of_accepted (hafter n)]
    exact get_commit_self (r := recordedRow (filledRow o fill m ids) n l.args minted) _ _ (hafter n).row
  · simp only [race, exec_fill_of_accepted hacc]
    exact statusOf_lifecycle (o := filledRow o fill m ids) (hafter m).row (fun k _ => hafter k)
  · simp only [race, hread, writeBack_of_accepted hrec]
    have hget' := get_commit_self (r := recordedRow o n l.args minted)
      (recordedEvent o l.eventType n l.args minted) [] hget
    exact statusOf_fill (o := recordedRow o n l.args minted) hget' (fillOrder_recorded hs hsame hn hrec)
      (fun k hk => fillAccepted_recorded hs hsame hn hrec hacc hne hk)

/-- When the fill lands between and both calls commit, the race is safe exactly when the
fill is partial and the transition writes a status that keeps it. -/
lemma raceSafe_between_iff {s : OrderStore} {o : Order} {l : Lifecycle} {minted : String} {fill : Fill}
    {ids : FillIds} {m n : OrderStatus} (hs : StoreConsistent s) (hget : s.get o.internalOrderId = some o)
    (hpos : 0 < fill.quantity) (hsame : SameOrder s fill o.internalOrderId)
    (hacc : FillAccepted s fill ids o m) (hn : nextStatus o.status l.eventType = some n)
    (hrec : RecordAccepted s o.internalOrderId n l.args minted o)
    (hne : orElseNew l.args.eventId minted ≠ ids.eventId) :
    RaceSafe s o.internalOrderId l minted fill ids .between ↔
      ¬ (o.filledQuantity + fill.quantity = o.quantity ∨
        (o.status ≠ .partiallyFilled ∧ l.eventType ∉ keepsPartial)) := by
  obtain ⟨hget', hbefore, hafter⟩ := between_statuses hs hget hsame hacc hn hrec hne
  have hcons := hs.consistent o (get_mem hget).1
  have hlt : o.filledQuantity < o.quantity := by linarith [hacc.room]
  have hstatus : o.status ≠ .filled := fun h => hlt.ne (hcons.filledStatus.mp h)
  have hnf : n ≠ .filled := fun h => hstatus ((l.nextStatus_filled_iff hn).mp h)
  have hbetween : statusOf (race s o.internalOrderId l minted fill ids .between) o.internalOrderId = some n := by
    rw [statusOf, hget']
    rfl
  simp only [RaceSafe, hget', hbefore, hafter, hbetween, Option.some.injEq, forall_eq',
    recordedRow_status, recordedRow_quantity, recordedRow_filledQuantity, filledRow_quantity,
    filledRow_filledQuantity]
  by_cases hc : o.filledQuantity + fill.quantity = o.quantity
  · simp [hc, hnf]
  · have hm := hacc.next
    rw [fillEventType, if_neg hc] at hm ⊢
    have hl : l.eventType ≠ .orderPartiallyFilled ∧ l.eventType ≠ .orderFilled := by
      cases l <;> simp [Lifecycle.eventType]
    rw [partial_race_status hstatus hl.1 hl.2 hn hm]
    simp [hc, hnf]

/-- If the transition raises on its read, or its write is refused once the fill has
landed, the fill stands as if the transition had come second or not at all. -/
lemma raceSafe_of_refused {s : OrderStore} {o : Order} {l : Lifecycle} {minted : String} {fill : Fill}
    {ids : FillIds} {m : OrderStatus} (hs : StoreConsistent s) (hget : s.get o.internalOrderId = some o)
    (hpos : 0 < fill.quantity) (hacc : FillAccepted s fill ids o m)
    (h : ∀ n, nextStatus o.status l.eventType = some n → ¬ (RecordAccepted s o.internalOrderId n l.args minted o ∧
      orElseNew l.args.eventId minted ≠ ids.eventId)) :
    RaceSafe s o.internalOrderId l minted fill ids .between := by
  have hown := hs.exchangeIdFree_self (get_mem hget).1 rfl rfl
  have hget₁ : (commitFill s fill ids o m).get o.internalOrderId = some (filledRow o fill m ids) :=
    get_commit_self (r := filledRow o fill m ids) _ _ hget
  have hs₁ : StoreConsistent (commitFill s fill ids o m) := by
    rw [← exec_fill_of_accepted hacc]
    exact exec_consistent hs hpos
  cases hn : nextStatus o.status l.eventType with
  | none =>
    obtain ⟨e, he⟩ : ∃ e, transitionRead o.internalOrderId l.eventType s = .error e := by
      simp only [transitionRead, hget, transition_eq, hn]
      exact ⟨_, rfl⟩
    have hb : race s o.internalOrderId l minted fill ids .between = commitFill s fill ids o m := by
      simp only [race, he, writeBack, exec_fill_of_accepted hacc]
    have ha : race s o.internalOrderId l minted fill ids .after = commitFill s fill ids o m := by
      simp only [race, he, writeBack, exec_fill_of_accepted hacc]
    rw [RaceSafe, hb, ha]
    exact ⟨fun r hr => (hs₁.consistent r (get_mem hr).1).filledStatus, .inr rfl⟩
  | some n =>
    have hrefused : ∀ k r, ¬ RecordAccepted (commitFill s fill ids o m) o.internalOrderId k l.args minted r := by
      intro k r hr
      obtain rfl : filledRow o fill m ids = r := Option.some.inj (hget₁.symm.trans hr.row)
      exact h n hn ((recordAccepted_commitFill hown hget hacc).mp hr)
    have hb : race s o.internalOrderId l minted fill ids .between = commitFill s fill ids o m := by
      simp only [race, transitionRead_ok_iff.mpr ⟨o, n, hget, hn, rfl⟩, exec_fill_of_accepted hacc]
      exact writeBack_of_refused (hrefused n)
    have hbefore : race s o.internalOrderId l minted fill ids .before = commitFill s fill ids o m := by
      simp only [race, exec_fill_of_accepted hacc]
      cases hr : transitionRead o.internalOrderId l.eventType (commitFill s fill ids o m) with
      | error e => rfl
      | ok p =>
        obtain ⟨r, k, hrow, -, rfl⟩ := transitionRead_ok_iff.mp hr
        obtain rfl : filledRow o fill m ids = r := Option.some.inj (hget₁.symm.trans hrow)
        exact writeBack_of_refused (o := filledRow o fill m ids) (hrefused k)
    rw [RaceSafe, hb, hbefore]
    exact ⟨fun r hr => (hs₁.consistent r (get_mem hr).1).filledStatus, .inl rfl⟩

/-- One transition and one fill of the same order leave a state that a sequential order
leaves, with FILLED on filled orders only, exactly when the write does not restore a
status the fill has moved on from. -/
theorem transition_fill_race {s : OrderStore} (hs : StoreConsistent s) {o : Order}
    (hget : s.get o.internalOrderId = some o) (l : Lifecycle) (minted : String) {fill : Fill}
    (hpos : 0 < fill.quantity) (hsame : SameOrder s fill o.internalOrderId) (ids : FillIds) (p : Placement) :
    RaceSafe s o.internalOrderId l minted fill ids p ↔ ¬ Overwrites s o l minted fill ids p := by
  have hsequential : ∀ p, p ≠ .between → StoreConsistent (race s o.internalOrderId l minted fill ids p) := by
    intro p hp
    cases p with
    | before =>
      simp only [race, writeBack_eq_exec]
      exact exec_consistent (exec_consistent hs hpos) trivial
    | between => exact absurd rfl hp
    | after =>
      simp only [race, writeBack_eq_exec]
      exact exec_consistent (exec_consistent hs trivial) hpos
  have hfs : ∀ p, p ≠ .between → ∀ r, (race s o.internalOrderId l minted fill ids p).get o.internalOrderId =
      some r → (r.status = .filled ↔ r.filledQuantity = r.quantity) :=
    fun p hp r hr => ((hsequential p hp).consistent r (get_mem hr).1).filledStatus
  cases p with
  | before => exact iff_of_true ⟨hfs _ (by simp), .inl rfl⟩ (fun h => nomatch h.1)
  | after => exact iff_of_true ⟨hfs _ (by simp), .inr rfl⟩ (fun h => nomatch h.1)
  | between =>
    by_cases hfill : ∃ r m, FillAccepted s fill ids r m
    · obtain ⟨r, m, hacc⟩ := hfill
      obtain rfl : o = r := Option.some.inj ((fillOrder_same hget hs hsame).symm.trans hacc.row)
      by_cases hrec : ∃ n, nextStatus o.status l.eventType = some n ∧
          RecordAccepted s o.internalOrderId n l.args minted o ∧ orElseNew l.args.eventId minted ≠ ids.eventId
      · obtain ⟨n, hn, hrec, hne⟩ := hrec
        rw [raceSafe_between_iff hs hget hpos hsame hacc hn hrec hne]
        refine not_congr ⟨fun h => ⟨rfl, ⟨m, hacc⟩, ⟨n, hn, hrec⟩, hne, h⟩, fun h => h.2.2.2.2⟩
      · refine iff_of_true (raceSafe_of_refused hs hget hpos hacc ?_) ?_
        · rintro n hn ⟨h, hne⟩
          exact hrec ⟨n, hn, h, hne⟩
        · rintro ⟨-, -, ⟨n, hn, h⟩, hne, -⟩
          exact hrec ⟨n, hn, h, hne⟩
    · have hnone : ∀ r n, ¬ FillAccepted s fill ids r n := fun r n h => hfill ⟨r, n, h⟩
      refine iff_of_true ⟨?_, .inl ?_⟩ (fun h => h.2.1.elim (hnone o))
      · rw [race_before_of_refused hnone]
        exact hfs _ (by simp)
      · rw [race_before_of_refused hnone]

/-- A partial fill between the sessions of `mark_unknown` is harmless. -/
theorem transition_fill_race_unknown :
    RaceSafe (Runs.run exec {} submittedLife) "o1" (.markUnknown "timeout") "e4" (sampleFill "f1" 1)
      ⟨"t1", "e5", "e6"⟩ .between := by
  have hs := submittedLife_reachable.storeConsistent
  obtain ⟨o, hget, hid, hq⟩ : ∃ o, (Runs.run exec {} submittedLife).get "o1" = some o ∧
      o.internalOrderId = "o1" ∧ o.filledQuantity + (sampleFill "f1" 1).quantity ≠ o.quantity := by
    refine ⟨_, rfl, ?_⟩
    decide +kernel
  have hsame : SameOrder (Runs.run exec {} submittedLife) (sampleFill "f1" 1) "o1" :=
    ⟨rfl, by decide +kernel⟩
  rw [← hid] at hget hsame ⊢
  refine (transition_fill_race hs hget (.markUnknown "timeout") "e4" (by decide +kernel) hsame
    ⟨"t1", "e5", "e6"⟩ .between).mpr ?_
  rintro ⟨-, -, -, -, h | h⟩
  · exact hq h
  · exact h.2 (by decide)

/-- The acknowledgement read before a full fill and written after it leaves a filled order
ACKNOWLEDGED. -/
theorem ack_overwrites_filled :
    Reachable (Runs.run exec {} submittedLife) ∧
    SameOrder (Runs.run exec {} submittedLife) (sampleFill "f1" 2) "o1" ∧
    ¬ RaceSafe (Runs.run exec {} submittedLife) "o1" (.ack "x1" none) "e4" (sampleFill "f1" 2)
      ⟨"t1", "e5", "e6"⟩ .between :=
  ⟨submittedLife_reachable, ⟨rfl, by decide +kernel⟩, by decide +kernel⟩

end CryptoTrader
