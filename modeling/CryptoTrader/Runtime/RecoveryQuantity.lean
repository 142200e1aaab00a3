import CryptoTrader.Runtime.RecoveryTurn

/-!
# The quantities recovery restores

Whether the filled quantity and the cost of every listed order agree with the exchange
after a recovery that returns.
-/

namespace CryptoTrader

open KeyedTable OrderStore

variable {σ : Type}

/-- The row has the filled quantity of the exchange's order, at the same cost. -/
def Agrees (o x : Order) : Prop :=
  o.filledQuantity = x.filledQuantity ∧
    o.avgFillPrice.getD 0 * o.filledQuantity = x.avgFillPrice.getD 0 * x.filledQuantity

instance (o x : Order) : Decidable (Agrees o x) :=
  inferInstanceAs (Decidable (_ ∧ _))

/-- If `recover` returns, every listed order the exchange knows agrees with it. -/
def Converges (env : RecoveryEnv σ) (db : Db σ) : Prop :=
  ∀ actions db', recover env db = (.ok actions, db') → ∀ o ∈ db.store.listOpen,
    ∃ o', db'.store.get o.internalOrderId = some o' ∧ ∀ x, env.answer o = .ok x → Agrees o' x

/-- The listed order agrees with the exchange's answer, or it lags behind it, no recovery
fill has been applied under the id of this one, and the whole order's average price, taken
for the missing quantity, makes up the missing cost. -/
def TurnAgrees (env : RecoveryEnv σ) (db : Db σ) (o : Order) : Prop :=
  ∀ x, env.answer o = .ok x →
    if Lags o x then
      ¬ Persisted env db.store x ∧
        o.avgFillPrice.getD 0 * o.filledQuantity + recoveryPrice x * (x.filledQuantity - o.filledQuantity) =
          x.avgFillPrice.getD 0 * x.filledQuantity
    else Agrees o x

lemma agrees_filledRow {env : RecoveryEnv σ} {s : OrderStore} {o x : Order} {n : OrderStatus} {ids : FillIds}
    (h0 : 0 ≤ o.filledQuantity) (hl : Lags o x) :
    Agrees (filledRow o (slice env s o x) n ids) x ↔
      o.avgFillPrice.getD 0 * o.filledQuantity + recoveryPrice x * (x.filledQuantity - o.filledQuantity) =
        x.avgFillPrice.getD 0 * x.filledQuantity := by
  have hq : o.filledQuantity + (slice env s o x).quantity = x.filledQuantity := by
    simp [slice, recoveryFill]
  have hpos : 0 < o.filledQuantity + (slice env s o x).quantity := by
    rw [hq]
    exact h0.trans_lt hl.2
  have hcost := newAverage_mul o (slice env s o x) hpos
  rw [hq] at hcost
  simp only [Agrees, filledRow_filledQuantity, filledRow_avgFillPrice, Option.getD_some, hq, hcost, true_and]
  rfl

lemma Awaiting.turnAgrees_iff {env : RecoveryEnv σ} {db : Db σ} {o : Order} {os : List Order}
    (h : Awaiting env db.store (o :: os)) (hfresh : MintsFresh env) (h0 : 0 ≤ o.filledQuantity) :
    (TurnReturns env db o ∧ TurnAgrees env db o) ↔ ∃ db', recoveryTurn env o db = (.ok (), db') ∧
      ∃ o', db'.store.get o.internalOrderId = some o' ∧ ∀ x, env.answer o = .ok x → Agrees o' x := by
  have hrow := h.rows o (by simp)
  have heff := h.turn hfresh
  have hret := heff.returns_iff
  generalize recoveryTurn env o db = p at heff hret
  rw [← hret]
  cases heff with
  | raised e db' hr => exact iff_of_false (by simp) not_returned
  | kept x hx hk =>
    rw [returned_iff rfl hrow]
    rcases hk with ⟨hl, hp⟩ | ⟨hl, -⟩
    · have hne : ¬ Agrees o x := fun ha => hl.2.ne ha.1
      simp [TurnAgrees, hx, hl, hp, hne]
    · simp [TurnAgrees, hx, hl]
  | rejected m l hx hc hid hacc =>
    rw [returned_iff rfl (get_recorded hrow _ _ _ _)]
    simp [TurnAgrees, hx]
  | adopted x l n hx hl hs ha hn hid hacc =>
    rw [returned_iff rfl (get_recorded hrow _ _ _ _)]
    simp [TurnAgrees, hx, hl, Agrees]
  | filled x hx hl hp hq hset hacc =>
    rw [returned_iff rfl (get_sliced hrow x)]
    simp [TurnAgrees, hx, hl, hp, agrees_filledRow h0 hl]

/-- With answers about the orders asked for and fresh ids, a recovery that returns leaves
every listed order in agreement with the exchange exactly when, if no turn raises, every
listed order agrees or lags by a slice that makes up for the difference. -/
theorem converges_iff {env : RecoveryEnv σ} {db : Db σ} (hkeys : TableKeys db.store)
    (hfilled : ∀ o ∈ db.store.orders, 0 ≤ o.filledQuantity) (hlinked : Linked env db.store)
    (hfresh : MintsFresh env) :
    Converges env db ↔ (Runs.Along (recoverStep env) (TurnReturns env) db db.store.listOpen →
      Runs.Along (recoverStep env) (TurnAgrees env) db db.store.listOpen) := by
  have hawait := hlinked.awaiting hkeys
  have hret := recover_returns_iff hfresh hawait
  have hboth := recoverAll_iff hfresh hawait
    (P := fun db o => TurnReturns env db o ∧ TurnAgrees env db o)
    (Q := fun o o' => ∀ x, env.answer o = .ok x → Agrees o' x)
    (fun db o os ho h => h.turnAgrees_iff hfresh (hfilled o (mem_listOpen.mp ho).1))
  rw [Runs.along_and] at hboth
  constructor
  · intro hconv hreturns
    obtain ⟨actions, db', hr⟩ := hret.mpr hreturns
    exact (hboth.mpr ⟨actions, db', hr, hconv actions db' hr⟩).2
  · intro himp actions db' hr
    have hreturns := hret.mp ⟨actions, db', hr⟩
    obtain ⟨actions', db'', hr', hrows⟩ := hboth.mp ⟨hreturns, himp hreturns⟩
    obtain rfl : db' = db'' := (Prod.mk.inj (hr.symm.trans hr')).2
    exact hrows

/-! ### Alternating with the exchange's progress -/

/-- The constraints of the orders table, and no order with a negative filled quantity. -/
structure SoundRows (s : OrderStore) : Prop extends TableKeys s where
  filledNonneg : ∀ o ∈ s.orders, 0 ≤ o.filledQuantity

lemma SoundRows.commit {s : OrderStore} {r w : Order} (h : SoundRows s) (hr : r ∈ s.orders)
    (hid : w.internalOrderId = r.internalOrderId) (hclient : w.clientOrderId = r.clientOrderId)
    (hx : s.exchangeIdFree w) (h0 : 0 ≤ w.filledQuantity) (e : OrderEvent) (fs : List Fill) :
    SoundRows (s.commit w e fs) where
  toTableKeys := h.toTableKeys.commit hr hid hclient hx e fs
  filledNonneg := by
    intro o ho
    rcases (mem_commit e fs).mp ho with ⟨rfl, -⟩ | ⟨hm, -⟩
    · exact h0
    · exact h.filledNonneg o hm

lemma exec_sound {s : OrderStore} {c : OrderCall} (h : SoundRows s) (hc : c.Positive) : SoundRows (exec s c) := by
  have heff := exec_effect s c
  generalize exec s c = s' at heff
  cases heff with
  | unchanged => exact h
  | created intent mode orderId eventId hid hclient hevent =>
    refine ⟨h.toTableKeys.created hid hclient, ?_⟩
    intro o ho
    rcases List.mem_append.mp ho with hm | hm
    · exact h.filledNonneg o hm
    · rw [List.mem_singleton.mp hm]
      exact le_refl 0
  | recorded orderId l minted r n hn hacc =>
    have hr := (get_mem hacc.row).1
    exact h.commit (w := recordedRow r n l.args minted) hr rfl rfl hacc.exchangeId (h.filledNonneg r hr) _ _
  | filled fill ids r n hacc =>
    have hr := fillOrder_mem hacc.row
    have h0 : 0 ≤ r.filledQuantity + fill.quantity := add_nonneg (h.filledNonneg r hr) (le_of_lt hc)
    exact h.commit (w := filledRow r fill n ids) hr rfl rfl hacc.exchangeId h0 _ _

lemma recover_sound {db : Db σ} (h : SoundRows db.store) (env : RecoveryEnv σ) :
    SoundRows (recover env db).2.store := by
  obtain ⟨calls, hpos, hs⟩ := recoverAll_exec env db.store.listOpen db
  rw [recover, hs]
  exact Runs.run_invariant (C := fun _ c => c.Positive) (fun _ _ h hc => exec_sound h hc) h
    (Runs.along_of_forall hpos)

/-- One recovery; the exchange's answers may have changed since the last. -/
def recoveryRun (db : Db σ) (env : RecoveryEnv σ) : Db σ :=
  (recover env db).2

/-- The slices a recovery applies make up exactly for what the listed orders lack. -/
def SlicesExact (env : RecoveryEnv σ) (db : Db σ) : Prop :=
  Runs.Along (recoverStep env) (TurnReturns env) db db.store.listOpen →
    Runs.Along (recoverStep env) (TurnAgrees env) db db.store.listOpen

/-- Over any run of recoveries, with whatever progress of the exchange between them, each
that returns leaves the listed orders in agreement with the exchange exactly when the
slices of each are exact. -/
theorem recoveries_converge_iff (envs : List (RecoveryEnv σ)) (db : Db σ) (hs : SoundRows db.store)
    (henvs : Runs.Along recoveryRun (fun db env => Linked env db.store ∧ MintsFresh env) db envs) :
    Runs.Along recoveryRun (fun db env => Converges env db) db envs ↔
      Runs.Along recoveryRun (fun db env => SlicesExact env db) db envs :=
  Runs.along_congr (I := fun db => SoundRows db.store) (fun _ env h _ => recover_sound h env)
    (fun _ _ h hc => converges_iff h.toTableKeys h.filledNonneg hc.1 hc.2) hs henvs

/-! ### A submitted order -/

lemma submittedLife_sound : SoundRows (Runs.run exec {} submittedLife) where
  toTableKeys := submittedLife_reachable.storeConsistent.toTableKeys
  filledNonneg := fun o ho => (submittedLife_reachable.storeConsistent.consistent o ho).filledNonneg

/-- The exchange reports a submitted order filled at the price of its average. -/
theorem filled_order_converges :
    Runs.Along recoveryRun (fun db env => Converges env db) ⟨Runs.run exec {} submittedLife, ()⟩
      [steadyExchange settleNothing (.ok (exchangeOrder .filled 2))] := by
  refine (recoveries_converge_iff _ ⟨Runs.run exec {} submittedLife, ()⟩ submittedLife_sound ?_).mpr ?_
  · exact ⟨⟨linked_of_single "o1" (by decide +kernel) _, steadyExchange_fresh _ _⟩, trivial⟩
  · refine ⟨fun _ => ?_, trivial⟩
    rw [listOpen_submittedLife]
    refine ⟨?_, trivial⟩
    intro x hx
    rw [answer_submittedOrder] at hx
    obtain rfl := Except.ok.inj hx
    have hl : Lags submittedOrder (exchangeOrder .filled 2) := by decide +kernel
    rw [if_pos hl]
    exact ⟨by decide +kernel, by decide +kernel⟩

/-- The exchange reports one unit executed, then a half more. Both slices get one id, so
the second recovery returns and leaves the order behind. -/
theorem second_slice_dropped :
    ¬ Runs.Along recoveryRun (fun db env => Converges env db) ⟨Runs.run exec {} submittedLife, ()⟩
      [steadyExchange settleNothing (.ok (exchangeOrder .partiallyFilled 1)),
        steadyExchange settleNothing (.ok (exchangeOrder .partiallyFilled (3 / 2)))] := by
  rintro ⟨-, hconv, -⟩
  generalize hdb : recoveryRun ⟨Runs.run exec {} submittedLife, ()⟩
    (steadyExchange settleNothing (.ok (exchangeOrder .partiallyFilled 1))) = db at hconv
  have hok : (recover (steadyExchange settleNothing (.ok (exchangeOrder .partiallyFilled (3 / 2)))) db).1.isOk =
      true := by
    rw [← hdb]
    decide +kernel
  have hleft : ∀ o' ∈ (recover (steadyExchange settleNothing
      (.ok (exchangeOrder .partiallyFilled (3 / 2)))) db).2.store.orders, o'.filledQuantity ≠ 3 / 2 := by
    rw [← hdb]
    decide +kernel
  obtain ⟨o, ho, hk⟩ : ∃ o ∈ db.store.listOpen, lookupKey o ≠ "" := by
    rw [← hdb]
    decide +kernel
  rcases hr : recover (steadyExchange settleNothing (.ok (exchangeOrder .partiallyFilled (3 / 2)))) db with
    ⟨e | actions, db'⟩
  · simp [hr, Except.isOk, Except.toBool] at hok
  · obtain ⟨o', ho', hagree⟩ := hconv actions db' hr o ho
    rw [hr] at hleft
    exact hleft o' (get_mem ho').1 (hagree _ (if_neg hk)).1

end CryptoTrader
