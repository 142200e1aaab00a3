import CryptoTrader.Runtime.RecoveryTurn

/-!
# What recovery resolves

An order whose submission had begun is resolved when it is in the status the exchange
reports, or REJECTED when the exchange does not know it.
-/

namespace CryptoTrader

open KeyedTable OrderStore

variable {σ : Type}

/-- The statuses of an order whose submission has begun and is not over. -/
def inFlightStatuses : List OrderStatus :=
  .submitting :: openStatuses

/-- The status agrees with the exchange's answer. -/
def Resolved (answer : Except TradingError Order) (status : OrderStatus) : Prop :=
  match answer with
  | .ok x => status = x.status
  | .error (.orderNotFound _) => status = .rejected
  | .error _ => False

/-- `recover` returns, and every order that was in flight is resolved. -/
def Recovers (env : RecoveryEnv σ) (db : Db σ) : Prop :=
  ∃ actions db', recover env db = (.ok actions, db') ∧
    ∀ o ∈ db.store.orders, o.status ∈ inFlightStatuses →
      ∃ o', db'.store.get o.internalOrderId = some o' ∧ Resolved (env.answer o) o'.status

/-- The turn of a listed order does not raise and resolves the order. -/
def TurnResolves (env : RecoveryEnv σ) (db : Db σ) (o : Order) : Prop :=
  match env.answer o with
  | .error (.orderNotFound _) => o.status ≠ .cancelPending
  | .error _ => False
  | .ok x =>
    if Lags o x then
      (Persisted env db.store x ∧ o.status = x.status) ∨
        (¬ Persisted env db.store x ∧ x.filledQuantity ≤ o.quantity ∧ sliceStatus o x = x.status ∧
          SliceSettles env db o x)
    else
      o.status = x.status ∨ (x.status ∈ adoptedStatuses ∧
        nextStatus o.status (eventTypeForExchangeStatus x.status) = some x.status)

lemma TurnResolves.returns {env : RecoveryEnv σ} {db : Db σ} {o : Order} (h : TurnResolves env db o) :
    TurnReturns env db o := by
  unfold TurnResolves at h
  unfold TurnReturns
  cases hx : env.answer o with
  | error e =>
    rw [hx] at h
    cases e <;> exact h
  | ok x =>
    rw [hx] at h
    dsimp only at h ⊢
    by_cases hl : Lags o x
    · rw [if_pos hl] at h ⊢
      rcases h with ⟨hp, -⟩ | ⟨-, hq, -, hs⟩
      · exact .inl hp
      · exact .inr ⟨hq, hs⟩
    · rw [if_neg hl] at h ⊢
      rcases h with hs | ⟨-, hn⟩
      · exact .inl hs.symm
      · exact .inr (.inr (by rw [hn]; simp))

lemma Awaiting.turnResolves_iff {env : RecoveryEnv σ} {db : Db σ} {o : Order} {os : List Order}
    (h : Awaiting env db.store (o :: os)) (hfresh : MintsFresh env) :
    TurnResolves env db o ↔ ∃ db', recoveryTurn env o db = (.ok (), db') ∧
      ∃ o', db'.store.get o.internalOrderId = some o' ∧ Resolved (env.answer o) o'.status := by
  have hrow := h.rows o (by simp)
  have heff := h.turn hfresh
  generalize recoveryTurn env o db = p at heff
  cases heff with
  | raised e db' hr => exact iff_of_false (fun hres => hr hres.returns) not_returned
  | kept x hx hk =>
    rw [returned_iff rfl hrow]
    rcases hk with ⟨hl, hp⟩ | ⟨hl, hs | hs⟩
    · simp [TurnResolves, Resolved, hx, hl, hp]
    · simp [TurnResolves, Resolved, hx, hl, hs]
    · simp [TurnResolves, Resolved, hx, hl, hs]
  | rejected m l hx hc hid hacc =>
    rw [returned_iff rfl (get_recorded hrow _ _ _ _)]
    simp [TurnResolves, Resolved, hx, hc]
  | adopted x l n hx hl hs ha hn hid hacc =>
    rw [returned_iff rfl (get_recorded hrow _ _ _ _)]
    simp [TurnResolves, Resolved, hx, hl, Ne.symm hs, ha, hn]
  | filled x hx hl hp hq hset hacc =>
    rw [returned_iff rfl (get_sliced hrow x)]
    simp [TurnResolves, Resolved, hx, hl, hp, hq, hset]

/-- With answers about the orders asked for and fresh ids, recovery returns and resolves
every order that was in flight exactly when no order is left SUBMITTING that the exchange
reports otherwise, and every listed order's turn resolves it. -/
theorem recover_resolves_iff (env : RecoveryEnv σ) (db : Db σ) (hkeys : TableKeys db.store)
    (hlinked : Linked env db.store) (hfresh : MintsFresh env) :
    Recovers env db ↔
      (∀ o ∈ db.store.orders, o.status = .submitting → ∃ x, env.answer o = .ok x ∧ x.status = .submitting) ∧
        Runs.Along (recoverStep env) (TurnResolves env) db db.store.listOpen := by
  have hawait := hlinked.awaiting hkeys
  rw [recoverAll_iff hfresh hawait (fun db o os _ h => h.turnResolves_iff hfresh)]
  have hstays : ∀ {actions db'}, recover env db = (.ok actions, db') → ∀ o ∈ db.store.orders,
      o.status = .submitting → db'.store.get o.internalOrderId = some o := by
    intro actions db' hr o ho hs
    rw [recoverAll_get_of_not_mem hfresh hawait hr, hkeys.get ho]
    intro hmem
    obtain ⟨o', ho', hid⟩ := List.mem_map.mp hmem
    obtain ⟨hm, hopen⟩ := mem_listOpen.mp ho'
    obtain rfl := eq_of_key_eq hkeys.orderIds hm ho hid
    rw [hs] at hopen
    exact absurd hopen (by decide)
  constructor
  · rintro ⟨actions, db', hr, hres⟩
    refine ⟨?_, actions, db', hr, ?_⟩
    · intro o ho hs
      obtain ⟨o', ho', hst⟩ := hres o ho (by simp [inFlightStatuses, hs])
      rw [hstays hr o ho hs] at ho'
      obtain rfl := Option.some.inj ho'
      cases hx : env.answer o with
      | ok x => exact ⟨x, rfl, by simpa [Resolved, hx, hs, eq_comm] using hst⟩
      | error e => cases e <;> simp [Resolved, hx, hs] at hst
    · intro o ho
      obtain ⟨hm, hopen⟩ := mem_listOpen.mp ho
      exact hres o hm (List.mem_cons_of_mem _ hopen)
  · rintro ⟨hsub, actions, db', hr, hres⟩
    refine ⟨actions, db', hr, ?_⟩
    intro o ho hst
    rcases List.mem_cons.mp hst with hs | hopen
    · obtain ⟨x, hx, hxs⟩ := hsub o ho hs
      exact ⟨o, hstays hr o ho hs, by simp [Resolved, hx, hs, hxs]⟩
    · exact hres o (mem_listOpen.mpr ⟨ho, hopen⟩)

/-- A submitted order the exchange reports OPEN. -/
theorem submitted_order_resolved :
    Recovers (steadyExchange settleNothing (.ok (exchangeOrder .opened 0))) ⟨Runs.run exec {} submittedLife, ()⟩ := by
  refine (recover_resolves_iff _ ⟨Runs.run exec {} submittedLife, ()⟩
    submittedLife_reachable.storeConsistent.toTableKeys
    (linked_of_single "o1" (by decide +kernel) _) (steadyExchange_fresh _ _)).mpr ⟨?_, ?_⟩
  · have h : ∀ o ∈ (Runs.run exec {} submittedLife).orders, o.status ≠ .submitting := by decide +kernel
    exact fun o ho hs => absurd hs (h o ho)
  · rw [listOpen_submittedLife]
    refine ⟨?_, trivial⟩
    have hx := answer_submittedOrder settleNothing (.ok (exchangeOrder .opened 0))
    have hl : ¬ Lags submittedOrder (exchangeOrder .opened 0) := by decide +kernel
    simp only [TurnResolves, hx, hl, if_false]
    exact .inr ⟨by decide, by decide⟩

def submittingLife : List OrderCall :=
  [.createFromIntent sampleIntent .paper "o1" "e0", .lifecycle "o1" .validate "e1",
    .lifecycle "o1" .submitting "e2"]

/-- An order that a crash left SUBMITTING is not looked up: it stays SUBMITTING though the
exchange does not know it. -/
theorem submitting_order_left :
    ¬ Recovers (steadyExchange settleNothing (.error (.orderNotFound "c1"))) ⟨Runs.run exec {} submittingLife, ()⟩ := by
  rintro ⟨actions, db', hr, hres⟩
  have hlist : (Runs.run exec {} submittingLife).listOpen = [] := by decide +kernel
  simp only [recover, hlist, recoverAll, Prod.mk.injEq] at hr
  obtain ⟨o, ho, hs⟩ : ∃ o ∈ (Runs.run exec {} submittingLife).orders, o.status = .submitting := by
    decide +kernel
  obtain ⟨o', ho', hst⟩ := hres o ho (by simp [inFlightStatuses, hs])
  have hleft : ∀ o' ∈ (Runs.run exec {} submittingLife).orders, o'.status ≠ .rejected := by decide +kernel
  have hx : (steadyExchange settleNothing (.error (.orderNotFound "c1"))).answer o =
      .error (.orderNotFound "c1") ∨ (steadyExchange settleNothing (.error (.orderNotFound "c1"))).answer o =
      .error (.orderNotFound "") := by
    by_cases hk : lookupKey o = ""
    · exact .inr (if_pos hk)
    · exact .inl (if_neg hk)
  rw [← hr.2] at ho'
  refine hleft o' (get_mem ho').1 ?_
  rcases hx with hx | hx <;> simpa [Resolved, hx] using hst

end CryptoTrader
