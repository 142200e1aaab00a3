import CryptoTrader.Runtime.RecoveryTurn
import CryptoTrader.Runtime.Events
import CryptoTrader.Lib.Weights

/-!
# Recovery fills against fill events

One order of the exchange, the fills it executes on it, their events, which may arrive
late or twice, and any number of recoveries, each cut at its reads: the listing of the
local row, the exchange's answer, the write. A recovery fill stands for the fills the
exchange had executed by its answer beyond those settled by its listing.
-/

namespace CryptoTrader

open KeyedTable OrderStore Weights

variable {σ : Type}

/-- A recovery's turn for the order: the listed row with the fills settled by then, and
the exchange's answer with the fills executed by then. -/
inductive ReconcilePc where
  | idle
  | listed (o : Order) (settled : List Fill)
  | viewed (o x : Order) (settled executed : List Fill)
  deriving DecidableEq, Repr

structure FillRace (σ : Type) where
  db : Db σ
  executed : List Fill := []
  settled : List Fill := []
  recoveries : Nat → ReconcilePc := fun _ => .idle

/-- A step of the exchange, the event loop, a recovery, or another task that calls the
order manager, the write of a transition included that has read before. -/
inductive FillTurn where
  | execute (f : Fill)
  | deliver (f : Fill) (event : ExchangeEvent) (ids : EventIds)
  | list (i : Nat)
  | ask (i : Nat) (report : Order)
  | act (i : Nat) (ids : RecoveryIds)
  | call (c : OrderCall)
  | write (p : PendingTransition) (l : Lifecycle) (minted : String)
  deriving DecidableEq, Repr

def setRecovery (st : FillRace σ) (i : Nat) (pc : ReconcilePc) : FillRace σ :=
  { st with recoveries := fun j => if j = i then pc else st.recoveries j }

/-- The database moves on; if a fill row was added, the fills it stands for are settled. -/
def settling (st : FillRace σ) (db : Db σ) (covered : List Fill) : FillRace σ :=
  { st with
    db := db
    settled := if st.db.store.fills.length < db.store.fills.length then st.settled ++ covered
      else st.settled }

/-- The exchange's order `x` once it has executed the fills. -/
def exchangeAnswer (x : String) (report : Order) (executed : List Fill) : Order :=
  { report with exchangeOrderId := some x, filledQuantity := weight Fill.quantity executed }

def fillStep (env : RecoveryEnv σ) (h : EventHandlers σ) (orderId x : String) (st : FillRace σ) :
    FillTurn → FillRace σ
  | .execute f => { st with executed := st.executed ++ [f] }
  | .deliver f event ids => settling st (processExchangeEvent h ids event st.db).2 [f]
  | .list i =>
    match st.db.store.listOpen.find? (fun o => o.internalOrderId = orderId) with
    | some o => setRecovery st i (.listed o st.settled)
    | none => setRecovery st i .idle
  | .ask i report =>
    match st.recoveries i with
    | .listed o settled => setRecovery st i (.viewed o (exchangeAnswer x report st.executed) settled st.executed)
    | _ => st
  | .act i ids =>
    match st.recoveries i with
    | .viewed o v settled executed =>
      settling (setRecovery st i .idle) (reconcile env ids o v st.db).2
        (executed.filter (fun f => f ∉ settled))
    | _ => st
  | .call c => { st with db := ⟨exec st.db.store c, st.db.rest⟩ }
  | .write p l minted =>
    match transitionWrite p l.eventType l.args minted st.db.store with
    | .ok (_, s) => { st with db := ⟨s, st.db.rest⟩ }
    | .error _ => st

/-- No exchange fill is settled twice, and the order is not filled beyond the exchange's. -/
def CountedOnce (orderId : String) (st : FillRace σ) : Prop :=
  st.settled.Nodup ∧ ∀ r, st.db.store.get orderId = some r →
    r.filledQuantity ≤ weight Fill.quantity st.executed

/-- The exchange executes positive fills under ids of their own, events carry executed
fills, and other tasks apply fills to other orders only and give the order's exchange id
to no other order. -/
def ProperTurn (orderId x : String) (st : FillRace σ) : FillTurn → Prop
  | .execute f => 0 < f.quantity ∧ f.fillId ≠ "" ∧ f.fillId ∉ st.executed.map Fill.fillId
  | .deliver f event _ => f ∈ st.executed ∧ Carries x event f
  | .call (.applyFill fill _) => fill.exchangeOrderId ≠ some x ∧
      ∀ r, fillOrder fill st.db.store = some r → r.internalOrderId ≠ orderId
  | .call (.lifecycle id l _) => l.args.exchangeOrderId = some x → id = orderId
  | .call _ => True
  | .write p l _ => l.args.exchangeOrderId = some x → p.order.internalOrderId = orderId
  | _ => True

/-- The fill `f` of an event is applied to the row found for it only if it has not been
settled. -/
def EventCovers (st : FillRace σ) (x : String) (f : Fill) (ids : FillIds) : Option Order → Prop
  | some r => Accepts st.db.store (reportedFill r x f) ids → f ∉ st.settled
  | none => True

/-- A recovery fill is applied only if nothing it stands for has been settled since the
listing. -/
def SliceCovers (env : RecoveryEnv σ) (st : FillRace σ) (ids : RecoveryIds) : ReconcilePc → Prop
  | .viewed o v settled executed =>
    Lags o v → Accepts st.db.store (recoveryFill env.filledText o v ids.tradeId) ids.fill →
      ∀ f ∈ executed, f ∉ settled → f ∉ st.settled
  | _ => True

/-- A fill that is applied stands for exchange fills not settled before. -/
def CoversUnsettled (env : RecoveryEnv σ) (x : String) (st : FillRace σ) : FillTurn → Prop
  | .deliver f _ ids => EventCovers st x f ids.fill (st.db.store.getByExchange x)
  | .act i ids => SliceCovers env st ids (st.recoveries i)
  | _ => True

instance (st : FillRace σ) (x : String) (f : Fill) (ids : FillIds) : ∀ row, Decidable (EventCovers st x f ids row)
  | some r => inferInstanceAs (Decidable (Accepts st.db.store (reportedFill r x f) ids → f ∉ st.settled))
  | none => .isTrue trivial

instance (env : RecoveryEnv σ) (st : FillRace σ) (ids : RecoveryIds) : ∀ pc, Decidable (SliceCovers env st ids pc)
  | .viewed o v settled executed => inferInstanceAs (Decidable (Lags o v →
      Accepts st.db.store (recoveryFill env.filledText o v ids.tradeId) ids.fill →
        ∀ f ∈ executed, f ∉ settled → f ∉ st.settled))
  | .idle | .listed _ _ => .isTrue trivial

instance (env : RecoveryEnv σ) (x : String) (st : FillRace σ) : ∀ turn, Decidable (CoversUnsettled env x st turn)
  | .execute _ | .list _ | .ask _ _ | .call _ | .write _ _ _ => .isTrue trivial
  | .deliver f _ ids => inferInstanceAs (Decidable (EventCovers st x f ids.fill (st.db.store.getByExchange x)))
  | .act i ids => inferInstanceAs (Decidable (SliceCovers env st ids (st.recoveries i)))

/-! ### The invariant -/

/-- What a recovery's reads have recorded. -/
def ReconcilePc.Sound (orderId x : String) (settled executed : List Fill) : ReconcilePc → Prop
  | .idle => True
  | .listed o s => o.internalOrderId = orderId ∧ o.filledQuantity = weight Fill.quantity s ∧
      s.Nodup ∧ s ⊆ settled
  | .viewed o v s e => o.internalOrderId = orderId ∧ o.filledQuantity = weight Fill.quantity s ∧
      s.Nodup ∧ s ⊆ e ∧ v.exchangeOrderId = some x ∧ v.filledQuantity = weight Fill.quantity e ∧
      e.Nodup ∧ e ⊆ executed

/-- The order's row has what the settled fills add up to, and these are executed fills. -/
structure FillInv (orderId x : String) (st : FillRace σ) : Prop where
  keys : UniqueKeys st.db.store
  own : ∀ r ∈ st.db.store.orders, r.exchangeOrderId = some x → r.internalOrderId = orderId
  row : ∃ r, st.db.store.get orderId = some r ∧ r.filledQuantity = weight Fill.quantity st.settled
  settledNodup : st.settled.Nodup
  settledSub : st.settled ⊆ st.executed
  positive : ∀ f ∈ st.executed, 0 < f.quantity
  named : ∀ f ∈ st.executed, f.fillId ≠ ""
  distinct : (st.executed.map Fill.fillId).Nodup
  sound : ∀ i, (st.recoveries i).Sound orderId x st.settled st.executed

lemma FillInv.countedOnce {orderId x : String} {st : FillRace σ} (h : FillInv orderId x st) :
    CountedOnce orderId st := by
  refine ⟨h.settledNodup, fun r hr => ?_⟩
  obtain ⟨r', hr', hfilled⟩ := h.row
  obtain rfl : r' = r := Option.some.inj (hr'.symm.trans hr)
  rw [hfilled]
  exact weight_le_of_subset (List.Nodup.of_map _ h.distinct) h.settledNodup h.settledSub
    (fun f hf => (h.positive f hf).le)

lemma ReconcilePc.Sound.mono {orderId x : String} {settled settled' executed executed' : List Fill}
    {pc : ReconcilePc} (h : pc.Sound orderId x settled executed) (hs : settled ⊆ settled')
    (he : executed ⊆ executed') : pc.Sound orderId x settled' executed' := by
  cases pc with
  | idle => trivial
  | listed o s => exact ⟨h.1, h.2.1, h.2.2.1, List.Subset.trans h.2.2.2 hs⟩
  | viewed o v s e =>
    obtain ⟨hid, hfilled, hn, hse, hx, hv, hen, hee⟩ := h
    exact ⟨hid, hfilled, hn, hse, hx, hv, hen, List.Subset.trans hee he⟩

/-- A write that does not change what the order has filled. -/
structure KeepsFilled (orderId x : String) (s s' : OrderStore) : Prop where
  keys : UniqueKeys s'
  own : ∀ r ∈ s'.orders, r.exchangeOrderId = some x → r.internalOrderId = orderId
  row : ∀ r, s.get orderId = some r → ∃ r', s'.get orderId = some r' ∧ r'.filledQuantity = r.filledQuantity

lemma recorded_keepsFilled {orderId x : String} {s : OrderStore} (hk : UniqueKeys s)
    (hown : ∀ r ∈ s.orders, r.exchangeOrderId = some x → r.internalOrderId = orderId) {r : Order} {id : String}
    (hr : s.get id = some r) {args : EventArgs} (hid : args.exchangeOrderId = some x → id = orderId)
    (n : OrderStatus) (minted : String) (e : OrderEvent) :
    KeepsFilled orderId x s (s.commit (recordedRow r n args minted) e []) where
  keys := hk.commit (w := recordedRow r n args minted) (get_mem hr).1 rfl rfl e []
  own := by
    intro r' hr' hx
    rcases (mem_commit e []).mp hr' with ⟨rfl, -⟩ | ⟨hm, -⟩
    · rw [recordedRow_id, (get_mem hr).2]
      by_cases ht : truthy args.exchangeOrderId
      · exact hid ((if_pos ht).symm.trans hx)
      · exact (get_mem hr).2 ▸ hown r (get_mem hr).1 ((if_neg ht).symm.trans hx)
    · exact hown r' hm hx
  row := by
    intro r₀ hr₀
    have hrow : s.get r.internalOrderId = some r := (get_mem hr).2.symm ▸ hr
    by_cases hne : orderId = r.internalOrderId
    · subst hne
      obtain rfl : r = r₀ := Option.some.inj (hrow.symm.trans hr₀)
      exact ⟨_, get_commit_row (r := recordedRow r n args minted) e [] hrow rfl, rfl⟩
    · exact ⟨r₀, by rwa [get_commit_of_ne (r := recordedRow r n args minted) e [] hne], rfl⟩

lemma KeepsFilled.refl {orderId x : String} {s : OrderStore} (hk : UniqueKeys s)
    (hown : ∀ r ∈ s.orders, r.exchangeOrderId = some x → r.internalOrderId = orderId) :
    KeepsFilled orderId x s s :=
  ⟨hk, hown, fun r hr => ⟨r, hr, rfl⟩⟩

lemma exec_keepsFilled {orderId x : String} {st : FillRace σ} (h : FillInv orderId x st) {c : OrderCall}
    (hc : ProperTurn orderId x st (.call c)) : KeepsFilled orderId x st.db.store (exec st.db.store c) := by
  have heff := exec_effect st.db.store c
  generalize exec st.db.store c = s' at heff
  cases heff with
  | unchanged => exact .refl h.keys h.own
  | created intent mode id eventId hid hclient hevent =>
    refine ⟨h.keys.created _ _ hid hclient, ?_, fun r hr => ⟨r, row_append_of_some hr, rfl⟩⟩
    intro r hr hx
    rcases List.mem_append.mp hr with hm | hm
    · exact h.own r hm hx
    · rw [List.mem_singleton.mp hm] at hx
      simp [intentRow] at hx
  | recorded id l minted r n hn hacc => exact recorded_keepsFilled h.keys h.own hacc.row hc n minted _
  | filled fill ids r n hacc =>
    have hr := fillOrder_mem hacc.row
    have hother := hc.2 r hacc.row
    refine ⟨h.keys.commit (w := filledRow r fill n ids) hr rfl rfl _ _, ?_, ?_⟩
    · intro r' hr' hrx
      rcases (mem_commit _ _).mp hr' with ⟨rfl, -⟩ | ⟨hm, -⟩
      · by_cases ht : truthy fill.exchangeOrderId
        · exact absurd ((if_pos ht).symm.trans hrx) hc.1
        · exact h.own r hr ((if_neg ht).symm.trans hrx)
      · exact h.own r' hm hrx
    · intro r₀ hr₀
      refine ⟨r₀, ?_, rfl⟩
      rwa [commitFill, get_commit_of_ne (r := filledRow r fill n ids) _ _ hother.symm]

lemma FillInv.keeps {orderId x : String} {st : FillRace σ} (h : FillInv orderId x st) (db : Db σ)
    (hs : KeepsFilled orderId x st.db.store db.store) : FillInv orderId x { st with db := db } where
  keys := hs.keys
  own := hs.own
  row := by
    obtain ⟨r, hr, hfilled⟩ := h.row
    obtain ⟨r', hr', hsame⟩ := hs.row r hr
    exact ⟨r', hr', hsame.trans hfilled⟩
  settledNodup := h.settledNodup
  settledSub := h.settledSub
  positive := h.positive
  named := h.named
  distinct := h.distinct
  sound := h.sound

lemma settling_of_no_fill (st : FillRace σ) {db : Db σ} (hs : db.store.fills = st.db.store.fills)
    (covered : List Fill) : settling st db covered = { st with db := db } := by
  simp [settling, hs]

lemma settling_of_filled {st : FillRace σ} {db : Db σ} {fill : Fill} {ids : FillIds} {r : Order}
    {n : OrderStatus} (hs : db.store = commitFill st.db.store fill ids r n) (covered : List Fill) :
    settling st db covered = { st with db := db, settled := st.settled ++ covered } := by
  simp [settling, hs]

/-- An applied fill for fills that were executed and not yet settled keeps the invariant. -/
lemma FillInv.filled {orderId x : String} {st : FillRace σ} (h : FillInv orderId x st) {fill : Fill}
    {ids : FillIds} {r : Order} {n : OrderStatus} {db : Db σ} {covered : List Fill}
    (hacc : FillAccepted st.db.store fill ids r n) (hdb : db.store = commitFill st.db.store fill ids r n)
    (hid : r.internalOrderId = orderId) (hq : fill.quantity = weight Fill.quantity covered) (hn : covered.Nodup)
    (hsub : covered ⊆ st.executed) (hnew : ∀ f ∈ covered, f ∉ st.settled) :
    FillInv orderId x { st with db := db, settled := st.settled ++ covered } := by
  have hr := fillOrder_mem hacc.row
  have hrow : st.db.store.get r.internalOrderId = some r := h.keys.get hr
  have hstep : st.settled ⊆ st.settled ++ covered := List.subset_append_left _ _
  constructor
  · rw [hdb]
    exact h.keys.commit (w := filledRow r fill n ids) hr rfl rfl _ _
  · rw [hdb]
    intro r' hr' hrx
    rcases (mem_commit _ _).mp hr' with ⟨rfl, -⟩ | ⟨hm, -⟩
    · exact hid
    · exact h.own r' hm hrx
  · obtain ⟨r₀, hr₀, hfilled⟩ := h.row
    obtain rfl : r = r₀ := Option.some.inj (hrow.symm.trans (hid.symm ▸ hr₀))
    refine ⟨filledRow r fill n ids, ?_, ?_⟩
    · rw [hdb, ← hid]
      exact get_commit_row (r := filledRow r fill n ids) _ _ hrow rfl
    · rw [filledRow_filledQuantity, hfilled, hq, weight_append]
  · exact List.Nodup.append h.settledNodup hn (fun f hf hc => hnew f hc hf)
  · exact List.append_subset.mpr ⟨h.settledSub, hsub⟩
  · exact h.positive
  · exact h.named
  · exact h.distinct
  · exact fun i => (h.sound i).mono hstep (List.Subset.refl _)

lemma FillInv.fillOrder {orderId x : String} {st : FillRace σ} (h : FillInv orderId x st) (hx : x ≠ "")
    {fill : Fill} (hfx : fill.exchangeOrderId = some x) (hid : fill.orderId = orderId) {r : Order}
    (hr : fillOrder fill st.db.store = some r) : r.internalOrderId = orderId := by
  have ht : truthy fill.exchangeOrderId = true := by simp [hfx, truthy, hx]
  simp only [CryptoTrader.fillOrder, hfx, hid] at hr
  have ht' : truthy (some x) = true := hfx ▸ ht
  rw [if_pos ht', Option.getD_some] at hr
  cases hg : st.db.store.getByExchange x with
  | some r' =>
    rw [hg] at hr
    obtain rfl := Option.some.inj hr
    exact h.own _ (getByExchange_mem hg).1 (getByExchange_mem hg).2
  | none =>
    rw [hg] at hr
    exact (get_mem hr).2

/-- The step of a task that applies a fill standing for the fills `covered`: it is the
guard that decides whether the invariant is kept. -/
lemma FillInv.applied {orderId x : String} {st : FillRace σ} (h : FillInv orderId x st) (hx : x ≠ "")
    {fill : Fill} {ids : FillIds} {db : Db σ} (covered : List Fill)
    (hdb : db.store = exec st.db.store (.applyFill fill ids)) (hfx : fill.exchangeOrderId = some x)
    (hid : fill.orderId = orderId) (hq : fill.quantity = weight Fill.quantity covered)
    (hn : covered.Nodup) (hsub : covered ⊆ st.executed) :
    ((Accepts st.db.store fill ids → ∀ f ∈ covered, f ∉ st.settled) →
        FillInv orderId x (settling st db covered)) ∧
      (CountedOnce orderId (settling st db covered) →
        Accepts st.db.store fill ids → ∀ f ∈ covered, f ∉ st.settled) := by
  constructor
  · intro hguard
    have heff := exec_effect st.db.store (.applyFill fill ids)
    rw [← hdb] at heff
    generalize hs : db.store = s at heff
    cases heff with
    | unchanged =>
      rw [settling_of_no_fill _ (by rw [hs])]
      refine h.keeps _ ?_
      rw [hs]
      exact .refl h.keys h.own
    | filled _ _ r n hacc =>
      rw [settling_of_filled hs]
      exact h.filled hacc hs (h.fillOrder hx hfx hid hacc.row) hq hn hsub (hguard ⟨r, n, hacc⟩)
  · rintro hgood ⟨r, n, hacc⟩
    have hs : db.store = commitFill st.db.store fill ids r n := by
      rw [hdb]
      simp only [exec, applyFillTxn_of_accepted hacc]
    rw [settling_of_filled hs] at hgood
    exact fun f hf hmem => (List.nodup_append.mp hgood.1).2.2 f hmem f hf rfl

/-- A fill event of the order's exchange id applies the reported fill, or is dropped. -/
lemma processExchangeEvent_fill {x : String} (hx : x ≠ "") (h : EventHandlers σ) (ids : EventIds) {f : Fill}
    (hf : f.fillId ≠ "") {event : ExchangeEvent} (hc : Carries x event f) (db : Db σ) :
    (processExchangeEvent h ids event db).2.store =
      match db.store.getByExchange x with
      | some r => exec db.store (.applyFill (reportedFill r x f) ids.fill)
      | none => db.store := by
  have hmarket : event.isMarket = false := by
    rcases hc.1 with ht | ht <;> simp [ExchangeEvent.isMarket, ht]
  have hkey : event.payload.exchangeOrderId = some x := by
    rw [hc.2]
    rfl
  simp only [processExchangeEvent, hmarket, Bool.false_eq_true, if_false, eventOrder_eq hkey hx]
  cases hr : db.store.getByExchange x with
  | none => rfl
  | some r =>
    simp only [Option.map_some, hc.eventAction hx hf r x ids.fillId, runAction]
    rw [← applyFill_exec h.settle]
    rcases applyFill h.settle (reportedFill r x f) ids.fill db with ⟨_ | _, _⟩ <;> rfl

section Steps

variable {env : RecoveryEnv σ} {h : EventHandlers σ} {orderId x : String} {st : FillRace σ}

lemma FillInv.setRecovery (hi : FillInv orderId x st) {i : Nat} {pc : ReconcilePc}
    (hpc : pc.Sound orderId x st.settled st.executed) : FillInv orderId x (setRecovery st i pc) where
  keys := hi.keys
  own := hi.own
  row := hi.row
  settledNodup := hi.settledNodup
  settledSub := hi.settledSub
  positive := hi.positive
  named := hi.named
  distinct := hi.distinct
  sound := by
    intro j
    by_cases hj : j = i
    · simpa [CryptoTrader.setRecovery, hj] using hpc
    · simpa [CryptoTrader.setRecovery, hj] using hi.sound j

lemma FillInv.execute (hi : FillInv orderId x st) {f : Fill} (hf : ProperTurn orderId x st (.execute f)) :
    FillInv orderId x (fillStep env h orderId x st (.execute f)) where
  keys := hi.keys
  own := hi.own
  row := hi.row
  settledNodup := hi.settledNodup
  settledSub := List.Subset.trans hi.settledSub (List.subset_append_left _ _)
  positive := by
    intro g hg
    rcases List.mem_append.mp hg with hg | hg
    · exact hi.positive g hg
    · exact List.mem_singleton.mp hg ▸ hf.1
  named := by
    intro g hg
    rcases List.mem_append.mp hg with hg | hg
    · exact hi.named g hg
    · exact List.mem_singleton.mp hg ▸ hf.2.1
  distinct := nodup_append_of_fresh hi.distinct hf.2.2
  sound := fun i => (hi.sound i).mono (List.Subset.refl _) (List.subset_append_left _ _)

lemma FillInv.deliver (hi : FillInv orderId x st) (hx : x ≠ "") {f : Fill} {event : ExchangeEvent}
    {ids : EventIds} (hp : ProperTurn orderId x st (.deliver f event ids)) :
    (CoversUnsettled env x st (.deliver f event ids) →
        FillInv orderId x (fillStep env h orderId x st (.deliver f event ids))) ∧
      (CountedOnce orderId (fillStep env h orderId x st (.deliver f event ids)) →
        CoversUnsettled env x st (.deliver f event ids)) := by
  have hstore := processExchangeEvent_fill hx h ids (hi.named f hp.1) hp.2 st.db
  simp only [fillStep, CoversUnsettled]
  cases hr : st.db.store.getByExchange x with
  | none =>
    rw [hr] at hstore
    rw [settling_of_no_fill _ (by rw [hstore])]
    refine ⟨fun _ => hi.keeps _ ?_, fun _ => trivial⟩
    rw [hstore]
    exact .refl hi.keys hi.own
  | some r =>
    rw [hr] at hstore
    have hid : (reportedFill r x f).orderId = orderId := hi.own r (getByExchange_mem hr).1 (getByExchange_mem hr).2
    obtain ⟨hkeep, hback⟩ := hi.applied hx [f] hstore rfl hid (by simp [reportedFill])
      (List.nodup_singleton f) (by simpa using hp.1)
    refine ⟨fun hg => hkeep (fun ha g hgf => ?_), fun hgood ha => hback hgood ha f (by simp)⟩
    rw [List.mem_singleton.mp hgf]
    exact hg ha

lemma FillInv.act (hi : FillInv orderId x st) (hx : x ≠ "") (i : Nat) (ids : RecoveryIds) :
    (CoversUnsettled env x st (.act i ids) → FillInv orderId x (fillStep env h orderId x st (.act i ids))) ∧
      (CountedOnce orderId (fillStep env h orderId x st (.act i ids)) → CoversUnsettled env x st (.act i ids)) := by
  have hsound := hi.sound i
  simp only [fillStep, CoversUnsettled]
  cases hpc : st.recoveries i with
  | idle => exact ⟨fun _ => hi, fun _ => trivial⟩
  | listed o s => exact ⟨fun _ => hi, fun _ => trivial⟩
  | viewed o v s e =>
    rw [hpc] at hsound
    obtain ⟨hid, hfilled, hsn, hse, hvx, hvfilled, hen, hee⟩ := hsound
    have hi' : FillInv orderId x (CryptoTrader.setRecovery st i .idle) := hi.setRecovery trivial
    rcases reconcile_store env ids o v st.db with ⟨hl, hstore⟩ | ⟨hl, hstore⟩
    · obtain ⟨hkeep, hback⟩ := hi'.applied hx (e.filter (fun f => f ∉ s)) hstore hvx hid
        (by
          rw [weight_filter_not_mem hen hsn hse, ← hfilled, ← hvfilled]
          rfl)
        (hen.filter _) (fun f hf => hee (List.mem_of_mem_filter hf))
      refine ⟨fun hg => hkeep (fun ha f hf => ?_), fun hgood _ ha f hfe hfs => ?_⟩
      · obtain ⟨hfe, hfs⟩ := List.mem_filter.mp hf
        exact hg hl ha f hfe (by simpa using hfs)
      · exact hback hgood ha f (List.mem_filter.mpr ⟨hfe, by simpa using hfs⟩)
    · obtain ⟨hkeep, hfills⟩ : KeepsFilled orderId x st.db.store (reconcile env ids o v st.db).2.store ∧
          (reconcile env ids o v st.db).2.store.fills = st.db.store.fills := by
        rcases hstore with hs | ⟨l, ha, hs⟩
        · rw [hs]
          exact ⟨.refl hi.keys hi.own, rfl⟩
        · rw [hs]
          exact ⟨exec_keepsFilled hi (c := .lifecycle o.internalOrderId l ids.minted) (fun _ => hid),
            exec_lifecycle_fills _ _ _ _⟩
      refine ⟨fun _ => ?_, fun _ hl' => absurd hl' hl⟩
      change FillInv orderId x (settling _ _ _)
      rw [settling_of_no_fill (CryptoTrader.setRecovery st i .idle) hfills]
      exact hi'.keeps _ hkeep

lemma FillInv.list (hi : FillInv orderId x st) (i : Nat) :
    FillInv orderId x (fillStep env h orderId x st (.list i)) := by
  simp only [fillStep]
  cases hf : st.db.store.listOpen.find? (fun o => o.internalOrderId = orderId) with
  | none => exact hi.setRecovery trivial
  | some o =>
    have hid : o.internalOrderId = orderId := by simpa using List.find?_some hf
    obtain ⟨r, hr, hfilled⟩ := hi.row
    have hget := hi.keys.get (mem_listOpen.mp (List.mem_of_find?_eq_some hf)).1
    obtain rfl : o = r := Option.some.inj (hget.symm.trans (hid.symm ▸ hr))
    exact hi.setRecovery ⟨hid, hfilled, hi.settledNodup, List.Subset.refl _⟩

lemma FillInv.ask (hi : FillInv orderId x st) (i : Nat) (report : Order) :
    FillInv orderId x (fillStep env h orderId x st (.ask i report)) := by
  have hsound := hi.sound i
  simp only [fillStep]
  cases hpc : st.recoveries i with
  | idle => exact hi
  | viewed o v s e => exact hi
  | listed o s =>
    rw [hpc] at hsound
    obtain ⟨hid, hfilled, hn, hsub⟩ := hsound
    exact hi.setRecovery ⟨hid, hfilled, hn, List.Subset.trans hsub hi.settledSub, rfl, rfl,
      List.Nodup.of_map _ hi.distinct, List.Subset.refl _⟩

lemma FillInv.write (hi : FillInv orderId x st) {p : PendingTransition} {l : Lifecycle} {minted : String}
    (hp : ProperTurn orderId x st (.write p l minted)) :
    FillInv orderId x (fillStep env h orderId x st (.write p l minted)) := by
  simp only [fillStep, transitionWrite]
  cases hw : recordEvent p.order l.eventType p.statusAfter l.args minted st.db.store with
  | error e => exact hi
  | ok w =>
    obtain ⟨e, s⟩ := w
    refine hi.keeps ⟨s, st.db.rest⟩ ?_
    rcases recordEvent_cases hw with ⟨rfl, -⟩ | ⟨r, hacc, rfl⟩
    · exact .refl hi.keys hi.own
    · exact recorded_keepsFilled hi.keys hi.own hacc.row hp _ minted _

end Steps

/-- From an order with nothing filled, over any interleaving of the exchange's executions,
their events and recoveries, no exchange fill is settled twice and the order is not filled
beyond the exchange's exactly when every fill that is applied stands for exchange fills
not settled before. -/
theorem exchange_fills_counted_once_iff (env : RecoveryEnv σ) (h : EventHandlers σ) (orderId x : String)
    (hx : x ≠ "") (db : Db σ) (hkeys : UniqueKeys db.store)
    (hown : ∀ r ∈ db.store.orders, r.exchangeOrderId = some x → r.internalOrderId = orderId)
    (hrow : ∃ r, db.store.get orderId = some r ∧ r.filledQuantity = 0) (turns : List FillTurn)
    (hproper : Runs.Along (fillStep env h orderId x) (ProperTurn orderId x) { db := db } turns) :
    Runs.Visits (fillStep env h orderId x) (CountedOnce orderId) { db := db } turns ↔
      Runs.Along (fillStep env h orderId x) (CoversUnsettled env x) { db := db } turns := by
  have hinit : FillInv orderId x { db := db } := by
    obtain ⟨r, hr, h0⟩ := hrow
    exact ⟨hkeys, hown, ⟨r, hr, by simpa using h0⟩, List.nodup_nil, List.Subset.refl _, by simp, by simp,
      List.nodup_nil, fun _ => trivial⟩
  refine Runs.visits_iff_along (fun st hi => hi.countedOnce) ?_ ?_ hinit hproper
  · intro st turn hi hp hg
    cases turn with
    | execute f => exact hi.execute hp
    | deliver f event ids => exact (hi.deliver hx hp).1 hg
    | list i => exact hi.list i
    | ask i report => exact hi.ask i report
    | act i ids => exact (hi.act hx i ids).1 hg
    | call c => exact hi.keeps ⟨exec st.db.store c, st.db.rest⟩ (exec_keepsFilled hi hp)
    | write p l minted => exact hi.write hp
  · intro st turn hi hp hgood
    cases turn with
    | deliver f event ids => exact (hi.deliver hx hp).2 hgood
    | act i ids => exact (hi.act hx i ids).2 hgood
    | _ => trivial

/-! ### One fill, reported by its event and by a recovery -/

def halfFill : Fill := sampleFill "f1" 1

def halfFillEvent : ExchangeEvent where
  eventId := "exevt_2"
  eventType := .orderPartiallyFilled
  payload := fillPayload "x1" halfFill

def recoveryIds : RecoveryIds :=
  ⟨"evt_8", "evt_9", "trade_8", ⟨"trd_8", "last_8", "fevt_8"⟩⟩

def halfAnswered : RecoveryEnv Unit :=
  steadyExchange settleNothing (.ok (exchangeOrder .partiallyFilled 1))

/-- The event comes twice, and before the recovery lists the order. -/
theorem event_before_recovery_counted_once :
    Runs.Visits (fillStep halfAnswered quietHandlers "o1" "x1") (CountedOnce "o1") { db := acknowledgedDb }
      [.execute halfFill, .deliver halfFill halfFillEvent (countedIds 1), .list 0,
        .deliver halfFill halfFillEvent (countedIds 2), .ask 0 (exchangeOrder .partiallyFilled 1),
        .act 0 recoveryIds] := by
  refine (exchange_fills_counted_once_iff halfAnswered quietHandlers "o1" "x1" (by decide) acknowledgedDb
    ⟨by decide +kernel, by decide +kernel⟩ (by decide +kernel) ?_ _ ?_).mpr (by decide +kernel)
  · exact ⟨_, rfl, by decide +kernel⟩
  · exact ⟨⟨by decide +kernel, by decide, by decide⟩, ⟨by decide +kernel, by decide +kernel⟩, trivial,
      ⟨by decide +kernel, by decide +kernel⟩, trivial, trivial, trivial⟩

/-- The recovery lists the order before the event of its fill is processed. The slice it
makes up has an id of its own, so the event's fill is applied as well. -/
theorem fill_counted_twice :
    ¬ Runs.Visits (fillStep halfAnswered quietHandlers "o1" "x1") (CountedOnce "o1") { db := acknowledgedDb }
      [.execute halfFill, .list 0, .ask 0 (exchangeOrder .partiallyFilled 1), .act 0 recoveryIds,
        .deliver halfFill halfFillEvent (countedIds 1)] := by
  intro hv
  exact absurd hv.last.1 (by decide +kernel)

end CryptoTrader
