import CryptoTrader.Runtime.Settlement
import CryptoTrader.Runtime.RecoveryTurn

/-!
# Crashes between a fill and its settlement

A fill and the transaction that settles it are two commits. Deliveries of fills and
recoveries come in any order, any settlement may be cut short, and a recovery stops at the
first exception.
-/

namespace CryptoTrader

open KeyedTable OrderStore

/-- What happens to the tables between two observations: a call of the manager that is no
fill, another write of the ledger service, a delivery of a fill, or a recovery. -/
inductive SettleTurn where
  | call (c : OrderCall)
  | post (entryType : LedgerEntryType) (postings : List LedgerPosting) (args : RecordArgs) (minted : String)
  | deliver (ctx : SettleContext) (fill : Fill) (ids : FillIds)
  | recover (ctx : SettleContext) (env : RecoveryEnv Books)

def settleStep (quarantined : List String) (db : Db Books) : SettleTurn → Db Books
  | .call c => ⟨exec db.store c, db.rest⟩
  | .post entryType postings args minted =>
    match record entryType postings args minted db.rest.ledger with
    | .ok (_, ledger) => ⟨db.store, { db.rest with ledger }⟩
    | .error _ => db
  | .deliver ctx fill ids => (applyFill (settleFill quarantined ctx) fill ids db).2
  | .recover ctx env => (recover (settlingEnv quarantined ctx env) db).2

/-- Fills are applied with the engine's callback, only settlements carry a fill id, and
the ids of a settlement are new. -/
def ProperSettleTurn (_ : Db Books) : SettleTurn → Prop
  | .call (.applyFill _ _) => False
  | .call _ => True
  | .post _ _ args _ => args.fillId = none
  | .deliver ctx _ _ => ctx.Fresh
  | .recover ctx _ => ctx.Fresh

/-- Every persisted fill that is neither perpetual nor quarantined has a transaction. -/
def FillsSettled (quarantined : List String) (db : Db Books) : Prop :=
  ∀ f ∈ db.store.fills, f.isPerpetual = false → f.fillId ∉ quarantined → ∃ t ∈ db.rest.ledger, SettledBy f t

/-- If the fill is applied and is to be settled, its settlement reaches the ledger. -/
def SettledIfApplied (quarantined : List String) (ctx : SettleContext) (fill : Fill) (ids : FillIds)
    (s : OrderStore) : Prop :=
  Accepts s fill ids → fill.isPerpetual = false → fill.fillId ∉ quarantined → ReachesLedger ctx s fill

/-- The recovery fill of an order's turn. -/
def TurnSettled (quarantined : List String) (ctx : SettleContext) (env : RecoveryEnv Books) (db : Db Books)
    (o : Order) : Prop :=
  ∀ x, env.answer o = .ok x → Lags o x →
    SettledIfApplied quarantined ctx (slice env db.store o x) (env.newIds db.store).fill db.store

/-- No settlement of the turn is cut short before its commit. -/
def UncutTurn (quarantined : List String) (db : Db Books) : SettleTurn → Prop
  | .deliver ctx fill ids => SettledIfApplied quarantined ctx fill ids db.store
  | .recover ctx env =>
    Runs.Along (recoverStep (settlingEnv quarantined ctx env)) (TurnSettled quarantined ctx env) db
      (turnsTaken (settlingEnv quarantined ctx env) db.store.listOpen db)
  | _ => True

/-- Transactions with a fill id are about persisted fills. -/
def LedgerOfFills (db : Db Books) : Prop :=
  ∀ t ∈ db.rest.ledger, ∀ fillId, t.fillId = some fillId → fillId ∈ db.store.fills.map Fill.fillId

lemma ReachesLedger.congr {ctx : SettleContext} {s : OrderStore} {fill : Fill} {r : Order} {e : OrderEvent}
    {fs : List Fill} : ReachesLedger ctx (s.commit r e fs) fill ↔ ReachesLedger ctx s fill := by
  have hrow : (s.commit r e fs).get fill.orderId ≠ none ↔ s.get fill.orderId ≠ none := by
    rw [OrderStore.get, OrderStore.get, ne_eq, ne_eq, row_eq_none_iff, row_eq_none_iff, map_id_commit]
  exact ⟨fun h => ⟨hrow.mp h.order, h.uncut⟩, fun h => ⟨hrow.mpr h.order, h.uncut⟩⟩

/-- Neither predicate looks beyond the fills and the ledger. -/
lemma FillsSettled.congr {quarantined : List String} {db db' : Db Books} (hf : db'.store.fills = db.store.fills)
    (hl : db'.rest.ledger = db.rest.ledger) : FillsSettled quarantined db' ↔ FillsSettled quarantined db := by
  simp only [FillsSettled, hf, hl]

lemma LedgerOfFills.congr {db db' : Db Books} (h : LedgerOfFills db)
    (hf : db'.store.fills = db.store.fills) (hl : db'.rest.ledger = db.rest.ledger) : LedgerOfFills db' := by
  simpa only [LedgerOfFills, hf, hl] using h

section Apply

variable {quarantined : List String} {ctx : SettleContext} {fill w : Fill} {ids : FillIds} {db db' : Db Books}

lemma fillsSettled_of_reached (hnew : fill.fillId ∉ db.store.fills.map Fill.fillId)
    (hrow : w.fillId = fill.fillId) (hfills : db'.store.fills = db.store.fills ++ [w]) {t : LedgerTransaction}
    (hledger : db'.rest.ledger = db.rest.ledger ++ [t]) (ht : SettledBy fill t) :
    FillsSettled quarantined db' ↔ FillsSettled quarantined db := by
  constructor
  · intro h f hf hp hq
    obtain ⟨t', ht', hs⟩ := h f (hfills ▸ List.mem_append_left _ hf) hp hq
    rw [hledger] at ht'
    rcases List.mem_append.mp ht' with hm | hm
    · exact ⟨t', hm, hs⟩
    · rw [List.mem_singleton.mp hm] at hs
      have hid : f.fillId = fill.fillId := Option.some.inj (hs.2.symm.trans ht.2)
      exact absurd (hid ▸ List.mem_map_of_mem hf) hnew
  · intro h f hf hp hq
    rw [hfills] at hf
    rw [hledger]
    rcases List.mem_append.mp hf with hm | hm
    · obtain ⟨t', ht', hs⟩ := h f hm hp hq
      exact ⟨t', List.mem_append_left _ ht', hs⟩
    · refine ⟨t, by simp, ht.1, ?_⟩
      rw [ht.2, List.mem_singleton.mp hm, hrow]

lemma fillsSettled_of_skipped (h : LedgerOfFills db) (hnew : fill.fillId ∉ db.store.fills.map Fill.fillId)
    (hrow : w.fillId = fill.fillId) (hperp : w.isPerpetual = fill.isPerpetual)
    (hfills : db'.store.fills = db.store.fills ++ [w]) (hledger : db'.rest.ledger = db.rest.ledger) :
    FillsSettled quarantined db' ↔
      FillsSettled quarantined db ∧ ¬ (fill.isPerpetual = false ∧ fill.fillId ∉ quarantined) := by
  constructor
  · intro hs
    refine ⟨fun f hf hp hq => ?_, ?_⟩
    · obtain ⟨t, ht, hst⟩ := hs f (hfills ▸ List.mem_append_left _ hf) hp hq
      exact ⟨t, hledger ▸ ht, hst⟩
    · rintro ⟨hp, hq⟩
      obtain ⟨t, ht, -, hid⟩ := hs w (by simp [hfills]) (hperp.trans hp) (hrow ▸ hq)
      exact hnew (h t (hledger ▸ ht) _ (hid.trans (congrArg some hrow)))
  · rintro ⟨hs, hnot⟩ f hf hp hq
    rw [hledger]
    rw [hfills] at hf
    rcases List.mem_append.mp hf with hm | hm
    · exact hs f hm hp hq
    · rw [List.mem_singleton.mp hm] at hp hq
      exact absurd ⟨hperp.symm.trans hp, hrow ▸ hq⟩ hnot

lemma LedgerOfFills.applied (h : LedgerOfFills db) (hfresh : ctx.Fresh) :
    LedgerOfFills (applyFill (settleFill quarantined ctx) fill ids db).2 ∧
      (FillsSettled quarantined (applyFill (settleFill quarantined ctx) fill ids db).2 ↔
        FillsSettled quarantined db ∧ SettledIfApplied quarantined ctx fill ids db.store) := by
  by_cases hacc : Accepts db.store fill ids
  · have hacc' := hacc
    obtain ⟨r, n, hfa⟩ := hacc'
    have hnew : fill.fillId ∉ db.store.fills.map Fill.fillId := getFill_eq_none_iff.mp hfa.fresh
    obtain ⟨hdb, -⟩ := applyFill_of_accepted (settleFill quarantined ctx) hfa
    have hreach : ReachesLedger ctx (commitFill db.store fill ids r n) fill ↔ ReachesLedger ctx db.store fill :=
      ReachesLedger.congr
    have hfills := commitFill_fills db.store fill ids r n
    rw [hdb]
    by_cases hs : fill.isPerpetual = false ∧ fill.fillId ∉ quarantined ∧ ReachesLedger ctx db.store fill
    · obtain ⟨hp, hq, hr⟩ := hs
      obtain ⟨t, ht, hsettled⟩ := settleFill_reaches hfresh db.rest hp hq (hreach.mpr hr)
      refine ⟨?_, ?_⟩
      · intro t' ht' fillId hid
        simp only [hfills, List.map_append, List.mem_append]
        rw [ht] at ht'
        rcases List.mem_append.mp ht' with hm | hm
        · exact .inl (h t' hm fillId hid)
        · rw [List.mem_singleton.mp hm, hsettled.2] at hid
          obtain rfl := Option.some.inj hid
          exact .inr (by simp [fillRow])
      · rw [fillsSettled_of_reached (w := fillRow (filledRow r fill n ids) fill ids) hnew rfl hfills ht hsettled]
        exact ⟨fun hs => ⟨hs, fun _ _ _ => hr⟩, fun hs => hs.1⟩
    · have hledger := settleFill_skips (s := commitFill db.store fill ids r n) db.rest (by rwa [hreach])
      refine ⟨?_, ?_⟩
      · intro t ht fillId hid
        simp only [hfills, List.map_append, List.mem_append]
        rw [hledger] at ht
        exact .inl (h t ht fillId hid)
      · rw [fillsSettled_of_skipped (w := fillRow (filledRow r fill n ids) fill ids) h hnew rfl rfl hfills hledger]
        refine and_congr_right (fun _ => ⟨fun hn _ hp hq => absurd ⟨hp, hq⟩ hn, ?_⟩)
        rintro hif ⟨hp, hq⟩
        exact hs ⟨hp, hq, hif hacc hp hq⟩
  · rw [applyFill_of_not_accepted (settleFill quarantined ctx) hacc]
    exact ⟨h, ⟨fun hs => ⟨hs, fun ha => absurd ha hacc⟩, fun hs => hs.1⟩⟩

end Apply

lemma LedgerOfFills.posted {quarantined : List String} {s : OrderStore} {books : Books} {t : LedgerTransaction}
    (h : LedgerOfFills ⟨s, books⟩) (ht : t.fillId = none) :
    LedgerOfFills ⟨s, { books with ledger := books.ledger ++ [t] }⟩ ∧
      (FillsSettled quarantined ⟨s, { books with ledger := books.ledger ++ [t] }⟩ ↔
        FillsSettled quarantined ⟨s, books⟩) := by
  have hnot : ∀ fillId, t.fillId ≠ some fillId := by simp [ht]
  constructor
  · intro t' ht' fillId hid
    rcases List.mem_append.mp ht' with hm | hm
    · exact h t' hm fillId hid
    · exact absurd (List.mem_singleton.mp hm ▸ hid) (hnot fillId)
  · refine forall₄_congr fun f _ _ _ => ⟨?_, ?_⟩
    · rintro ⟨t', ht', hs⟩
      rcases List.mem_append.mp ht' with hm | hm
      · exact ⟨t', hm, hs⟩
      · exact absurd (List.mem_singleton.mp hm ▸ hs.2) (hnot f.fillId)
    · rintro ⟨t', ht', hs⟩
      exact ⟨t', List.mem_append_left _ ht', hs⟩

section Steps

variable {quarantined : List String} {db : Db Books}

lemma LedgerOfFills.called {ctx : SettleContext} (h : LedgerOfFills db) (quarantined : List String) (hfresh : ctx.Fresh)
    (ids : RecoveryIds) (orderId : String) (call : RecoveryCall) :
    LedgerOfFills (runCall (settleFill quarantined ctx) ids orderId call db).2 ∧
      (FillsSettled quarantined (runCall (settleFill quarantined ctx) ids orderId call db).2 ↔
        FillsSettled quarantined db ∧
          ∀ fill, call = .fill fill → SettledIfApplied quarantined ctx fill ids.fill db.store) := by
  cases call with
  | lifecycle l =>
    have hf : (callLifecycle orderId l ids.minted db).2.store.fills = db.store.fills := by
      rw [callLifecycle_exec, exec_lifecycle_fills]
    have hl := congrArg Books.ledger (callLifecycle_rest orderId l ids.minted db)
    exact ⟨h.congr hf hl, (FillsSettled.congr hf hl).trans (by simp)⟩
  | nothing => exact ⟨h, by simp [runCall]⟩
  | fill fill =>
    rw [runCall_fill]
    refine ⟨(h.applied hfresh).1, (h.applied hfresh).2.trans (and_congr_right fun _ => ?_)⟩
    exact ⟨fun hs fill' heq => RecoveryCall.fill.inj heq ▸ hs, fun hs => hs fill rfl⟩

lemma LedgerOfFills.turn {ctx : SettleContext} (h : LedgerOfFills db) (hfresh : ctx.Fresh)
    (env : RecoveryEnv Books) (o : Order) :
    LedgerOfFills (recoverStep (settlingEnv quarantined ctx env) db o) ∧
      (FillsSettled quarantined (recoverStep (settlingEnv quarantined ctx env) db o) ↔
        FillsSettled quarantined db ∧ TurnSettled quarantined ctx env db o) := by
  have hfill : ∀ fill, recoveryCall (settlingEnv quarantined ctx env) (env.newIds db.store) o (env.answer o) =
      .ok (.fill fill) ↔ ∃ x, env.answer o = .ok x ∧ Lags o x ∧ fill = slice env db.store o x :=
    fun fill => recoveryCall_eq_fill_iff
  rw [recoverStep_eq, recoveryTurn, settlingEnv_newIds, settlingEnv_answer, settlingEnv_settle]
  cases hcall : recoveryCall (settlingEnv quarantined ctx env) (env.newIds db.store) o (env.answer o) with
  | error e =>
    refine ⟨h, (and_iff_left ?_).symm⟩
    intro x hx hl
    exact absurd (hcall.symm.trans ((hfill _).mpr ⟨x, hx, hl, rfl⟩)) (by simp)
  | ok call =>
    obtain ⟨hled, hiff⟩ := h.called quarantined hfresh (env.newIds db.store) o.internalOrderId call
    refine ⟨hled, hiff.trans (and_congr_right fun _ => ⟨fun hs x hx hl => ?_, fun hs fill heq => ?_⟩)⟩
    · exact hs _ (Except.ok.inj (hcall.symm.trans ((hfill _).mpr ⟨x, hx, hl, rfl⟩)))
    · obtain ⟨x, hx, hl, rfl⟩ := (hfill fill).mp (heq ▸ hcall)
      exact hs x hx hl

lemma LedgerOfFills.recover {ctx : SettleContext} (h : LedgerOfFills db) (hfresh : ctx.Fresh)
    (env : RecoveryEnv Books) :
    LedgerOfFills (settleStep quarantined db (.recover ctx env)) ∧
      (FillsSettled quarantined (settleStep quarantined db (.recover ctx env)) ↔
        FillsSettled quarantined db ∧ UncutTurn quarantined db (.recover ctx env)) := by
  simp only [settleStep, CryptoTrader.recover, recoverAll_eq_run, UncutTurn]
  generalize turnsTaken (settlingEnv quarantined ctx env) db.store.listOpen db = turns
  have htrue : Runs.Along (recoverStep (settlingEnv quarantined ctx env)) (fun _ _ => True) db turns :=
    Runs.along_of_forall (A := fun _ => True) (fun _ _ => trivial)
  exact ⟨Runs.run_invariant (fun db o hj _ => (hj.turn hfresh env o).1) h htrue,
    Runs.last_iff_along (W := fun _ _ => True) (fun db o hj _ => (hj.turn hfresh env o).1)
      (fun db o hj _ => (hj.turn hfresh env o).2) h htrue⟩

lemma LedgerOfFills.step (h : LedgerOfFills db) {turn : SettleTurn} (hp : ProperSettleTurn db turn) :
    LedgerOfFills (settleStep quarantined db turn) ∧
      (FillsSettled quarantined (settleStep quarantined db turn) ↔
        FillsSettled quarantined db ∧ UncutTurn quarantined db turn) := by
  cases turn with
  | call c =>
    have hf : (exec db.store c).fills = db.store.fills := by
      cases c with
      | createFromIntent intent mode orderId eventId => exact exec_create_fills _ _ _ _ _
      | lifecycle orderId l minted => exact exec_lifecycle_fills _ _ _ _
      | applyFill fill ids => exact hp.elim
    refine ⟨h.congr hf rfl, ?_⟩
    simp only [UncutTurn, and_true]
    exact FillsSettled.congr hf rfl
  | post entryType postings args minted =>
    simp only [settleStep, UncutTurn, and_true]
    cases hrec : record entryType postings args minted db.rest.ledger with
    | error e => exact ⟨h, .rfl⟩
    | ok w =>
      obtain ⟨t, ledger⟩ := w
      rcases record_cases hrec with ⟨rfl, -⟩ | ⟨rfl, -, -, ht⟩
      · exact ⟨h, .rfl⟩
      · exact h.posted (by rw [ht]; exact hp)
  | deliver ctx fill ids => exact h.applied hp
  | recover ctx env => exact h.recover hp env

end Steps

/-- Whatever is delivered and recovered, and however often, every persisted fill that is
neither perpetual nor quarantined ends up in the ledger exactly when no settlement was cut
short between the commit of its fill and its own: nothing makes up for one that was. -/
theorem fills_reach_ledger_iff (quarantined : List String) (db : Db Books) (hledger : LedgerOfFills db)
    (hsettled : FillsSettled quarantined db) (turns : List SettleTurn)
    (hproper : Runs.Along (settleStep quarantined) ProperSettleTurn db turns) :
    FillsSettled quarantined (Runs.run (settleStep quarantined) db turns) ↔
      Runs.Along (settleStep quarantined) (UncutTurn quarantined) db turns := by
  rw [Runs.last_iff_along (fun db turn h hp => (h.step hp).1) (fun db turn h hp => (h.step hp).2) hledger hproper]
  exact and_iff_right hsettled

/-! ### Recovery fills -/

/-- No call deletes an order. -/
lemma exec_get_ne_none {s : OrderStore} {orderId : String} (h : s.get orderId ≠ none) (c : OrderCall) :
    (exec s c).get orderId ≠ none := by
  rw [OrderStore.get, ne_eq, row_eq_none_iff, not_not] at h ⊢
  have heff := exec_effect s c
  generalize exec s c = s' at heff
  cases heff with
  | unchanged => exact h
  | created intent mode id eventId => simp only [List.map_append, List.mem_append, h, true_or]
  | recorded id l minted r n hn hacc => rwa [map_id_commit]
  | filled fill ids r n hacc => rwa [commitFill, map_id_commit]

/-- Recovery makes up fills for listed orders, so only an interruption cuts their
settlement short. -/
lemma uncutTurn_recover (quarantined : List String) {ctx : SettleContext}
    (huncut : ∀ f e, ctx.interruption f ≠ some (.beforeCommit e)) (env : RecoveryEnv Books) (db : Db Books)
    (hkeys : UniqueKeys db.store) : UncutTurn quarantined db (.recover ctx env) := by
  have hstored : ∀ o ∈ turnsTaken (settlingEnv quarantined ctx env) db.store.listOpen db,
      db.store.get o.internalOrderId ≠ none := by
    intro o ho
    simp [hkeys.get (mem_listOpen.mp (turnsTaken_subset _ _ _ ho)).1]
  simp only [UncutTurn]
  generalize turnsTaken (settlingEnv quarantined ctx env) db.store.listOpen db = turns at hstored
  clear hkeys
  induction turns generalizing db with
  | nil => trivial
  | cons o turns ih =>
    refine ⟨fun x _ _ _ _ _ => ⟨hstored o (by simp), huncut _⟩, ih _ fun o' ho' => ?_⟩
    have ho := hstored o' (List.mem_cons_of_mem _ ho')
    rcases recoverStep_exec (settlingEnv quarantined ctx env) o db with hs | ⟨c, -, hs⟩
    · rwa [hs]
    · rw [hs]
      exact exec_get_ne_none ho c

/-! ### A fill delivered before a recovery -/

def submittedDb : Db Books :=
  ⟨Runs.run exec {} submittedLife, {}⟩

/-- The exchange has executed both units, one of them after the fill that is delivered. -/
def filledExchange : RecoveryEnv Books :=
  steadyExchange (fun _ _ books => (.ok (), books)) (.ok (exchangeOrder .filled 2))

/-- The exchange has executed the delivered fill. -/
def halfExchange : RecoveryEnv Books :=
  steadyExchange (fun _ _ books => (.ok (), books)) (.ok (exchangeOrder .partiallyFilled 1))

/-- The projections of a delivered fill are not refreshed, and recovery makes up the rest. -/
theorem crash_after_commit_reaches_ledger :
    FillsSettled [] (Runs.run (settleStep []) submittedDb
      [.deliver (cutContext (some (.afterCommit .crashed))) (sampleFill "f1" 1) ⟨"t1", "l1", "e5"⟩,
        .recover (cutContext none) filledExchange]) := by
  refine (fills_reach_ledger_iff [] submittedDb (by simp [LedgerOfFills, submittedDb]) ?_ _ ?_).mpr ?_
  · simp [FillsSettled, show submittedDb.store.fills = [] by decide +kernel]
  · exact ⟨cutContext_fresh _, cutContext_fresh _, trivial⟩
  · refine ⟨fun _ _ _ => ⟨by decide +kernel, by simp [cutContext]⟩, uncutTurn_recover _ (by simp [cutContext]) _ _ ?_,
      trivial⟩
    simp only [settleStep, applyFill_exec]
    exact ⟨by decide +kernel, by decide +kernel⟩

/-- The crash comes between the two commits. Recovery finds nothing missing at the
exchange, and the redelivered fill is a duplicate. -/
theorem crash_before_commit_never_settled :
    ¬ FillsSettled [] (Runs.run (settleStep []) submittedDb
      [.deliver (cutContext (some (.beforeCommit .crashed))) (sampleFill "f1" 1) ⟨"t1", "l1", "e5"⟩,
        .recover (cutContext none) halfExchange,
        .deliver (cutContext none) (sampleFill "f1" 1) ⟨"t2", "l2", "e6"⟩]) := by
  intro h
  generalize hrun : Runs.run (settleStep []) submittedDb _ = db at h
  have hfill : ∃ f ∈ db.store.fills, f.isPerpetual = false := by
    rw [← hrun]
    decide +kernel
  have hledger : db.rest.ledger = [] := by
    rw [← hrun]
    decide +kernel
  obtain ⟨f, hf, hp⟩ := hfill
  obtain ⟨t, ht, -⟩ := h f hf hp (by simp)
  simp [hledger] at ht

end CryptoTrader
