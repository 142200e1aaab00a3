import CryptoTrader.Runtime.PerpetualOrder
import CryptoTrader.Runtime.RecoveryTurn

/-!
# Crashes inside a perpetual order

Attempts to execute one perpetual signal, each cut before any of its commits or before
none, and recoveries, in any order. The exchange does not know the signal's order, and the
next attempt after its creation is dropped as a duplicate.
-/

namespace CryptoTrader

open KeyedTable OrderStore

/-- The order is FILLED and has a fill. -/
def Executed (s : OrderStore) (r : Order) : Prop :=
  r.status = .filled ∧ ∃ f ∈ s.fills, f.orderId = r.internalOrderId

/-- The order with client order id `c` is executed exactly when the ledger has its open or
close. -/
def Paired (c : String) (db : Db Books) : Prop :=
  ∀ r, db.store.getByClient c = some r → (Executed db.store r ↔ Positioned db.rest.ledger r.internalOrderId)

inductive PerpetualTurn where
  | attempt (a : PerpetualAttempt)
  | recover (ctx : SettleContext) (env : RecoveryEnv Books)

def perpetualStep (setup : PerpetualSetup) (signal : SignalIntent) (db : Db Books) : PerpetualTurn → Db Books
  | .attempt a => (processPerpetualSignal setup signal a db).2
  | .recover ctx env => (recover (settlingEnv setup.quarantined ctx env) db).2

/-- The exchange does not find the order with client order id `c`, and no answer about the
listed order `o` names that order's exchange order id. -/
def UnknownToExchange (env : RecoveryEnv Books) (c : String) (s : OrderStore) (o : Order) : Prop :=
  ∀ r, s.getByClient c = some r →
    (r.internalOrderId = o.internalOrderId → ∃ m, env.answer o = .error (.orderNotFound m)) ∧
    (∀ x, env.answer o = .ok x → truthy x.exchangeOrderId → r.exchangeOrderId ≠ x.exchangeOrderId)

/-- The ids of an attempt are new, and a recovery meets an exchange that does not know the
signal's order. -/
def ProperPerpetualTurn (signal : SignalIntent) (db : Db Books) : PerpetualTurn → Prop
  | .attempt a => a.ids.Fresh db
  | .recover _ env => ∀ o ∈ db.store.listOpen, UnknownToExchange env (clientOrderId signal) db.store o

/-- An attempt that gets to its order's creation is not cut between the ledger's write and
the fill. If it is not cut at all, a reduce-only order finds a position on its side, and an
open does not raise once it is written. -/
def UncutAttempt (setup : PerpetualSetup) (signal : SignalIntent) (ledger : Ledger) (a : PerpetualAttempt) : Prop :=
  ∀ engine, setup.engine = some engine → 0 < a.price → a.approved →
    let intent := intentOfSignal signal setup.runId
    let side := perpetualSide signal.positionSide signal.side
    match a.cut with
    | none =>
      if intent.reduceOnly then HoldsSide engine side (some intent.symbol) ledger
      else (engine.contractOf (some intent.symbol)).symbol ≠ "" ∨
        (engine.contractOf (some intent.symbol)).maxLeverage = 0
    | some .fill => ¬ MoveWrites engine intent side ledger
    | some _ => True

def PairedTurn (setup : PerpetualSetup) (signal : SignalIntent) (db : Db Books) : PerpetualTurn → Prop
  | .attempt a => db.store.getByClient (clientOrderId signal) = none → UncutAttempt setup signal db.rest.ledger a
  | .recover _ _ => True

/-! ### Attempts -/

lemma AttemptOutcome.paired_iff {db' : Db Books} {c orderId : String} {filled moved : Prop}
    (h : AttemptOutcome db' c orderId filled moved) : Paired c db' ↔ (filled ↔ moved) := by
  obtain ⟨r, hr, rfl, hstatus⟩ := h.row
  have hexec : Executed db'.store r ↔ filled :=
    ⟨fun hx => hstatus.mp hx.1, fun hf => ⟨hstatus.mpr hf, h.fill hf⟩⟩
  rw [← hexec, ← h.moved]
  constructor
  · exact fun hp => hp r hr
  · intro hp r' hr'
    obtain rfl : r = r' := Option.some.inj (hr.symm.trans hr')
    exact hp

section Attempts

variable {setup : PerpetualSetup} {signal : SignalIntent} {db : Db Books} {a : PerpetualAttempt}

/-- An attempt that gets to its order's creation is uncut exactly when it ends with both
the fill and the ledger's transaction, or with neither. -/
lemma uncutAttempt_iff {engine : PerpetualPaperEngine} {ledger : Ledger} (hengine : setup.engine = some engine)
    (hprice : 0 < a.price) (happroved : a.approved = true) :
    UncutAttempt setup signal ledger a ↔
      (a.cut = none ∧ MoveReturns engine (intentOfSignal signal setup.runId) ↔
        (a.cut = none ∨ a.cut = some .fill) ∧ MoveWrites engine (intentOfSignal signal setup.runId)
          (perpetualSide signal.positionSide signal.side) ledger) := by
  simp only [UncutAttempt, hengine, Option.some.injEq, forall_eq', hprice, happroved, forall_const]
  cases a.cut with
  | none =>
    simp only [true_and, true_or, MoveReturns, MoveWrites]
    by_cases hreduce : (intentOfSignal signal setup.runId).reduceOnly = true
    · simp [hreduce]
    · simp only [hreduce, Bool.false_eq_true, if_false, false_or]
      tauto
  | some c => cases c <;> simp

lemma attempt_dropped {r : Order} (h : db.store.getByClient (clientOrderId signal) = some r) :
    perpetualStep setup signal db (.attempt a) = db := by
  simp only [perpetualStep, processPerpetualSignal, h]

lemma attempt_cases (setup : PerpetualSetup) (a : PerpetualAttempt) (h : db.store.getByClient (clientOrderId signal) = none) :
    (∃ engine, setup.engine = some engine ∧ 0 < a.price ∧ a.approved = true ∧ a.cut ≠ some .order ∧
        perpetualStep setup signal db (.attempt a) = (executePerpetualOrder setup (intentOfSignal signal setup.runId)
          a.price signal.positionSide (clientOrderId signal) a.ids a.cut db).2) ∨
      (perpetualStep setup signal db (.attempt a) = db ∧ UncutAttempt setup signal db.rest.ledger a) := by
  simp only [perpetualStep, processPerpetualSignal, h]
  by_cases hprice : a.price ≤ 0
  · exact .inr ⟨by rw [if_pos hprice], fun _ _ hp => absurd hp (not_lt.mpr hprice)⟩
  · by_cases happroved : a.approved = true
    · cases hengine : setup.engine with
      | none => exact .inr ⟨by simp [hprice, happroved, executePerpetualOrder, hengine], fun _ he => by simp [hengine] at he⟩
      | some engine =>
        by_cases hcut : a.cut = some .order
        · refine .inr ⟨?_, ?_⟩
          · simp [hprice, happroved, executePerpetualOrder, hengine, hcut, unlessCut]
          · simp [UncutAttempt, hcut]
        · exact .inl ⟨engine, rfl, not_le.mp hprice, happroved, hcut, by rw [if_neg hprice, if_pos happroved]⟩
    · exact .inr ⟨by simp [hprice, happroved], fun _ _ _ ha => absurd ha happroved⟩

lemma paired_attempt (hkeys : UniqueKeys db.store) (hfresh : a.ids.Fresh db) :
    UniqueKeys (perpetualStep setup signal db (.attempt a)).store ∧
      (Paired (clientOrderId signal) (perpetualStep setup signal db (.attempt a)) ↔
        Paired (clientOrderId signal) db ∧ PairedTurn setup signal db (.attempt a)) := by
  cases hclient : db.store.getByClient (clientOrderId signal) with
  | some r =>
    rw [attempt_dropped hclient]
    exact ⟨hkeys, by simp [PairedTurn, hclient]⟩
  | none =>
    have hnone : Paired (clientOrderId signal) db := fun r hr => absurd (hclient.symm.trans hr) (by simp)
    simp only [PairedTurn, hclient, forall_const, and_iff_right hnone]
    rcases attempt_cases setup a hclient with ⟨engine, hengine, hprice, happroved, hcut, hstep⟩ | ⟨hstep, huncut⟩
    · have hout := executePerpetualOrder_outcome (intentOfSignal signal setup.runId) hengine hprice
        signal.positionSide hkeys hfresh hclient hcut
      rw [hstep, uncutAttempt_iff hengine hprice happroved]
      exact ⟨hout.keys, hout.paired_iff⟩
    · rw [hstep]
      exact ⟨hkeys, iff_of_true hnone huncut⟩

end Attempts

/-! ### Recoveries -/

/-- The order with client order id `c` stays as it is, but for a status that is not FILLED. -/
structure KeepsOutcome (c : String) (s s' : OrderStore) : Prop where
  keys : UniqueKeys s'
  none : s.getByClient c = none → s'.getByClient c = none
  row : ∀ r, s.getByClient c = some r → ∃ r', s'.getByClient c = some r' ∧
    r'.internalOrderId = r.internalOrderId ∧ r'.exchangeOrderId = r.exchangeOrderId ∧
    (Executed s' r' ↔ Executed s r)

section Recoveries

variable {c : String} {s s' s'' : OrderStore}

lemma KeepsOutcome.refl (h : UniqueKeys s) : KeepsOutcome c s s :=
  ⟨h, id, fun r hr => ⟨r, hr, rfl, rfl, .rfl⟩⟩

lemma KeepsOutcome.trans (h : KeepsOutcome c s s') (h' : KeepsOutcome c s' s'') : KeepsOutcome c s s'' where
  keys := h'.keys
  none := fun hn => h'.none (h.none hn)
  row := by
    intro r hr
    obtain ⟨r', hr', hid, hx, hexec⟩ := h.row r hr
    obtain ⟨r'', hr'', hid', hx', hexec'⟩ := h'.row r' hr'
    exact ⟨r'', hr'', hid'.trans hid, hx'.trans hx, hexec'.trans hexec⟩

/-- A write of another order, or one that neither fills the order nor moves it from or to
FILLED. -/
lemma keepsOutcome_commit (hk : UniqueKeys s) {q w : Order} (hq : q ∈ s.orders)
    (hid : w.internalOrderId = q.internalOrderId) (hclient : w.clientOrderId = q.clientOrderId)
    (e : OrderEvent) {fs : List Fill} (hfs : ∀ f ∈ fs, f.orderId = q.internalOrderId)
    (hown : q.clientOrderId = c →
      w.exchangeOrderId = q.exchangeOrderId ∧ (w.status = .filled ↔ q.status = .filled) ∧ fs = []) :
    KeepsOutcome c s (s.commit w e fs) := by
  have hk' : UniqueKeys (s.commit w e fs) := hk.commit hq hid hclient e fs
  refine ⟨hk', ?_, ?_⟩
  · intro hn
    rw [OrderStore.getByClient, row_eq_none_iff] at hn ⊢
    rwa [hk.map_client_commit hq hid hclient]
  · intro r hr
    obtain ⟨hm, hc⟩ := row_some hr
    by_cases hqr : q.clientOrderId = c
    · obtain rfl : q = r := eq_of_key_eq hk.clientIds hq hm (hqr.trans hc.symm)
      obtain ⟨hx, hstatus, rfl⟩ := hown hqr
      exact ⟨w, getByClient_commit_self hk hid hclient e [] hr, hid, hx, by simp [Executed, hstatus, hid]⟩
    · have hne : r.internalOrderId ≠ q.internalOrderId := by
        intro heq
        exact hqr (eq_of_key_eq hk.orderIds hm hq heq ▸ hc)
      refine ⟨r, getByClient_commit_of_ne hk' hr (hid ▸ hne), rfl, rfl, and_congr_right fun _ => ?_⟩
      simp only [commit_fills, List.mem_append, or_and_right, exists_or, or_iff_left_iff_imp]
      rintro ⟨f, hf, heq⟩
      exact absurd (heq.symm.trans (hfs f hf)) hne

variable {db : Db Books} {quarantined : List String} {ctx : SettleContext} {env : RecoveryEnv Books} {o : Order}

lemma UnknownToExchange.keeps (h : UnknownToExchange env c s o) (hk : KeepsOutcome c s s') :
    UnknownToExchange env c s' o := by
  intro r' hr'
  cases hr : s.getByClient c with
  | none => simp [hk.none hr] at hr'
  | some r =>
    obtain ⟨r'', hr'', hid, hx, -⟩ := hk.row r hr
    obtain rfl : r'' = r' := Option.some.inj (hr''.symm.trans hr')
    rw [hid, hx]
    exact h r hr

lemma recoverStep_keepsOutcome (quarantined : List String) (ctx : SettleContext) (hk : UniqueKeys db.store) (h : UnknownToExchange env c db.store o) :
    KeepsOutcome c db.store (recoverStep (settlingEnv quarantined ctx env) db o).store := by
  rw [recoverStep_eq, recoveryTurn, settlingEnv_newIds, settlingEnv_answer, settlingEnv_settle]
  cases hcall : recoveryCall (settlingEnv quarantined ctx env) (env.newIds db.store) o (env.answer o) with
  | error e => exact .refl hk
  | ok call =>
    cases call with
    | nothing => exact .refl hk
    | lifecycle l =>
      simp only [runCall]
      rw [callLifecycle_exec]
      have heff := exec_effect db.store (.lifecycle o.internalOrderId l (env.newIds db.store).minted)
      generalize exec db.store (.lifecycle o.internalOrderId l (env.newIds db.store).minted) = s' at heff
      cases heff with
      | unchanged => exact .refl hk
      | recorded _ _ _ q n hn hacc =>
        obtain ⟨hm, hqo⟩ := get_mem hacc.row
        refine keepsOutcome_commit (w := recordedRow q n l.args (env.newIds db.store).minted) hk hm rfl rfl _
          (by simp) (fun hqc => ⟨?_, l.nextStatus_filled_iff hn, rfl⟩)
        obtain ⟨m, hans⟩ := (h q (hqc ▸ row_of_mem hk.clientIds hm)).1 hqo
        simp only [hans, recoveryCall, Except.ok.injEq, RecoveryCall.lifecycle.injEq] at hcall
        simp [recordedRow, ← hcall, Lifecycle.args, truthy]
    | fill fill =>
      rw [runCall_fill, applyFill_exec]
      obtain ⟨x, hans, -, hfill⟩ := recoveryCall_eq_fill_iff.mp hcall
      have heff := exec_effect db.store (.applyFill fill (env.newIds db.store).fill)
      generalize exec db.store (.applyFill fill (env.newIds db.store).fill) = s' at heff
      cases heff with
      | unchanged => exact .refl hk
      | filled _ _ q n hacc =>
        have hm := fillOrder_mem hacc.row
        refine keepsOutcome_commit (w := filledRow q fill n (env.newIds db.store).fill) hk hm rfl rfl _
          (by simp [fillRow, filledRow]) (fun hqc => ?_)
        obtain ⟨hown, hnamed⟩ := h q (hqc ▸ row_of_mem hk.clientIds hm)
        rcases fillOrder_cases hacc.row with ⟨-, ht, hx⟩ | hget
        · rw [hfill] at ht hx
          exact absurd hx (hnamed x hans ht)
        · rw [hfill] at hget
          obtain ⟨e, he⟩ := hown (get_mem hget).2
          exact absurd (he.symm.trans hans) (by simp)

lemma positioned_recoverStep (orderId : String) :
    Positioned (recoverStep (settlingEnv quarantined ctx env) db o).rest.ledger orderId ↔
      Positioned db.rest.ledger orderId := by
  rw [recoverStep_eq, recoveryTurn, settlingEnv_newIds, settlingEnv_answer, settlingEnv_settle]
  cases recoveryCall (settlingEnv quarantined ctx env) (env.newIds db.store) o (env.answer o) with
  | error e => rfl
  | ok call =>
    cases call with
    | nothing => rfl
    | lifecycle l =>
      simp only [runCall]
      rw [callLifecycle_rest]
    | fill fill =>
      rw [runCall_fill]
      by_cases hacc : Accepts db.store fill (env.newIds db.store).fill
      · obtain ⟨r, n, hfa⟩ := hacc
        rw [(applyFill_of_accepted (settleFill quarantined ctx) hfa).1]
        rcases settleFill_ledger quarantined ctx (commitFill db.store fill (env.newIds db.store).fill r n) fill db.rest
          with hsame | ⟨t, m, happ, hm⟩
        · simp only [hsame]
        · simp [happ, Positioned, MovesFor, LedgerTransaction.MovesPosition, hm, LedgerMetadata.action,
            or_and_right, exists_or]
      · rw [applyFill_of_not_accepted (settleFill quarantined ctx) hacc]

lemma recover_keepsOutcome (quarantined : List String) (ctx : SettleContext) (hk : UniqueKeys db.store) (h : ∀ o ∈ db.store.listOpen, UnknownToExchange env c db.store o) :
    KeepsOutcome c db.store (recover (settlingEnv quarantined ctx env) db).2.store ∧
      ∀ orderId, Positioned (recover (settlingEnv quarantined ctx env) db).2.rest.ledger orderId ↔
        Positioned db.rest.ledger orderId := by
  have hturns : ∀ o ∈ turnsTaken (settlingEnv quarantined ctx env) db.store.listOpen db,
      UnknownToExchange env c db.store o := fun o ho => h o (turnsTaken_subset _ _ _ ho)
  simp only [CryptoTrader.recover, recoverAll_eq_run]
  generalize turnsTaken (settlingEnv quarantined ctx env) db.store.listOpen db = turns at hturns
  clear h
  induction turns generalizing db with
  | nil => exact ⟨.refl hk, fun _ => .rfl⟩
  | cons o turns ih =>
    have hstep := recoverStep_keepsOutcome quarantined ctx hk (hturns o (by simp))
    obtain ⟨hkeeps, hpos⟩ := ih hstep.keys
      (fun o' ho' => (hturns o' (List.mem_cons_of_mem _ ho')).keeps hstep)
    exact ⟨hstep.trans hkeeps, fun orderId => (hpos orderId).trans (positioned_recoverStep orderId)⟩

lemma KeepsOutcome.paired_iff {db' : Db Books} (h : KeepsOutcome c db.store db'.store)
    (hpos : ∀ orderId, Positioned db'.rest.ledger orderId ↔ Positioned db.rest.ledger orderId) :
    Paired c db' ↔ Paired c db := by
  cases hr : db.store.getByClient c with
  | none => simp [Paired, hr, h.none hr]
  | some r =>
    obtain ⟨r', hr', hid, -, hexec⟩ := h.row r hr
    simp only [Paired, hr, hr', Option.some.injEq, forall_eq', hexec, hid, hpos]

end Recoveries

lemma paired_step {setup : PerpetualSetup} {signal : SignalIntent} {db : Db Books} {turn : PerpetualTurn}
    (hkeys : UniqueKeys db.store) (hp : ProperPerpetualTurn signal db turn) :
    UniqueKeys (perpetualStep setup signal db turn).store ∧
      (Paired (clientOrderId signal) (perpetualStep setup signal db turn) ↔
        Paired (clientOrderId signal) db ∧ PairedTurn setup signal db turn) := by
  cases turn with
  | attempt a => exact paired_attempt hkeys hp
  | recover ctx env =>
    obtain ⟨hkeeps, hpos⟩ := recover_keepsOutcome setup.quarantined ctx hkeys hp
    exact ⟨hkeeps.keys, (hkeeps.paired_iff hpos).trans (and_iff_left trivial).symm⟩

/-- Over any attempts, cut anywhere, and any recoveries, the order of a perpetual signal is
FILLED with a fill exactly if the ledger has its open or close, if and only if no attempt
that creates the order comes apart between the ledger's write and the fill. -/
theorem perpetual_order_paired_iff (setup : PerpetualSetup) (signal : SignalIntent) (db : Db Books)
    (hkeys : UniqueKeys db.store) (hpaired : Paired (clientOrderId signal) db) (turns : List PerpetualTurn)
    (hproper : Runs.Along (perpetualStep setup signal) (ProperPerpetualTurn signal) db turns) :
    Paired (clientOrderId signal) (Runs.run (perpetualStep setup signal) db turns) ↔
      Runs.Along (perpetualStep setup signal) (PairedTurn setup signal) db turns := by
  rw [Runs.last_iff_along (J := fun db => UniqueKeys db.store) (fun db turn h hp => (paired_step h hp).1)
    (fun db turn h hp => (paired_step h hp).2) hkeys hproper]
  exact and_iff_right hpaired

/-! ### One signal to open a position -/

/-- A buy of two contracts, to open a LONG position. -/
def openSignal : SignalIntent where
  signalId := "s1"
  strategyId := "trend"
  symbol := "BTCUSDT_PERP"
  side := .buy
  quantity := 2
  marketType := .perpetual
  positionSide := .long

/-- An exchange that knows no order. -/
def emptyExchange : RecoveryEnv Books :=
  steadyExchange (fun _ _ books => (.ok (), books)) (.error (.orderNotFound "order not found"))

lemma emptyExchange_unknown (c : String) (s : OrderStore) (o : Order) : UnknownToExchange emptyExchange c s o := by
  have hans : ∃ m, emptyExchange.answer o = .error (.orderNotFound m) := by
    by_cases hk : lookupKey o = ""
    · exact ⟨_, if_pos hk⟩
    · exact ⟨_, if_neg hk⟩
  obtain ⟨m, hm⟩ := hans
  exact fun r _ => ⟨fun _ => ⟨m, hm⟩, fun x hx => by simp [hm] at hx⟩

/-- The attempt runs through, a recovery follows, and the signal is delivered again. -/
theorem whole_attempt_paired :
    Paired (clientOrderId openSignal) (Runs.run (perpetualStep paperSetup openSignal) ⟨{}, {}⟩
      [.attempt ⟨100, true, attemptIds 1, none⟩, .recover paperSetup.settlement emptyExchange,
        .attempt ⟨100, true, attemptIds 2, none⟩]) := by
  refine (perpetual_order_paired_iff paperSetup openSignal ⟨{}, {}⟩ ⟨by simp, by simp⟩ ?_ _ ?_).mpr ?_
  · intro r hr
    exact absurd hr (by simp [getByClient, row])
  · refine ⟨?_, fun o _ => emptyExchange_unknown _ _ o, ?_, trivial⟩
    · constructor <;> decide +kernel
    · constructor <;> decide +kernel
  · refine ⟨fun _ => ?_, trivial, fun h => absurd h (by decide +kernel), trivial⟩
    rintro engine ⟨⟩ - -
    exact .inl (by decide +kernel)

/-- The process stops after the ledger's write and before the fill. Recovery rejects the
order; its position stays open. -/
theorem crash_before_fill_leaves_position :
    ¬ Paired (clientOrderId openSignal) (Runs.run (perpetualStep paperSetup openSignal) ⟨{}, {}⟩
      [.attempt ⟨100, true, attemptIds 1, some .fill⟩, .recover paperSetup.settlement emptyExchange]) := by
  generalize hrun : Runs.run (perpetualStep paperSetup openSignal) ⟨{}, {}⟩ _ = db
  have hdb : ∃ r ∈ db.store.getByClient (clientOrderId openSignal), r.status = .rejected ∧
      Positioned db.rest.ledger r.internalOrderId := by
    rw [← hrun]
    decide +kernel
  obtain ⟨r, hr, hstatus, hpos⟩ := hdb
  intro h
  have hfilled := ((h r hr).mpr hpos).1
  simp [hstatus] at hfilled

end CryptoTrader
