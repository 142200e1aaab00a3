import CryptoTrader.Reconciliation.Service

/-!
# Drift between the books and the exchange

Where the two sides are apart, and what of it `reconcile` halts for: it looks at the balances of currencies that
no agreeing position covers, and at the positions that the books have.
-/

namespace CryptoTrader

open KeyedTable

variable (replayed : ProjectionSnapshot) (exchange : SimulatedExchange)

/-- The cash of a currency and the quantities of the positions whose base asset it is. -/
def localTotal (currency : String) : ℚ :=
  replayed.balance currency + ((replayed.positions.filter (fun view => view.baseAsset = currency)).map PositionView.quantity).sum

/-- A total, the quantity of a position, or that of one only the exchange has is another. -/
def Drifts : Prop :=
  (∃ currency, exchange.balance currency ≠ localTotal replayed currency) ∨
    (∃ view ∈ replayed.positions, exchange.held view.symbol ≠ view.quantity) ∨
    ∃ symbol, replayed.position symbol = none ∧ exchange.held symbol ≠ 0

/-- What `reconcile` compares is apart. -/
def VisibleDrift : Prop :=
  (∃ currency, ¬Covered replayed exchange currency ∧ exchange.balance currency ≠ replayed.balance currency) ∨
    ∃ view ∈ replayed.positions, exchange.held view.symbol ≠ view.quantity

/-- The total of a currency that no agreeing position covers, or the quantity of a position of the books, is
another. -/
def SeenDrift : Prop :=
  (∃ currency, ¬Covered replayed exchange currency ∧ exchange.balance currency ≠ localTotal replayed currency) ∨
    ∃ view ∈ replayed.positions, exchange.held view.symbol ≠ view.quantity

variable {replayed exchange}

lemma halt_iff_visible : (reportOf replayed exchange).halt = true ↔ VisibleDrift replayed exchange := by
  rw [← not_iff_not, Bool.not_eq_true, reportOf_halt]
  unfold VisibleDrift
  push Not
  constructor
  · rintro ⟨hbalances, hquantities⟩
    exact ⟨fun currency hcovered => (hbalances currency hcovered).symm, fun view hview => (hquantities view hview).symm⟩
  · rintro ⟨hbalances, hquantities⟩
    exact ⟨fun currency hcovered => (hbalances currency hcovered).symm, fun view hview => (hquantities view hview).symm⟩

/-- Where the quantities agree, a currency that no position covers is the base asset of none that has a
quantity. -/
lemma localTotal_of_uncovered (hquantities : ∀ view ∈ replayed.positions, exchange.held view.symbol = view.quantity)
    {currency : String} (hcovered : ¬Covered replayed exchange currency) :
    localTotal replayed currency = replayed.balance currency := by
  unfold localTotal
  have hnone : ((replayed.positions.filter (fun view => view.baseAsset = currency)).map PositionView.quantity).sum = 0 := by
    apply List.sum_eq_zero
    intro q hq
    obtain ⟨view, hview, rfl⟩ := List.mem_map.mp hq
    obtain ⟨hmem, hbase⟩ := List.mem_filter.mp hview
    have hsame : exchange.held view.symbol = view.quantity := hquantities view hmem
    unfold SimulatedExchange.held at hsame
    cases hpos : exchange.position view.symbol with
    | none =>
      rw [hpos] at hsame
      exact hsame.symm
    | some pos =>
      rw [hpos] at hsame
      exact absurd ⟨view, hmem, pos, hpos, hsame.symm, Or.inl (of_decide_eq_true hbase).symm⟩ hcovered
  rw [hnone, add_zero]

lemma seen_iff_visible : SeenDrift replayed exchange ↔ VisibleDrift replayed exchange := by
  by_cases hquantities : ∀ view ∈ replayed.positions, exchange.held view.symbol = view.quantity
  · have htotal : ∀ currency, (¬Covered replayed exchange currency ∧ exchange.balance currency ≠ localTotal replayed currency) ↔
        ¬Covered replayed exchange currency ∧ exchange.balance currency ≠ replayed.balance currency := by
      intro currency
      apply and_congr_right
      intro hcovered
      rw [localTotal_of_uncovered hquantities hcovered]
    unfold SeenDrift VisibleDrift
    rw [exists_congr htotal]
  · push Not at hquantities
    exact iff_of_true (Or.inr hquantities) (Or.inr hquantities)

lemma SeenDrift.drifts (h : SeenDrift replayed exchange) : Drifts replayed exchange := by
  obtain ⟨currency, -, hne⟩ | hquantity := h
  · exact Or.inl ⟨currency, hne⟩
  · exact Or.inr (Or.inl hquantity)

variable (replayed exchange)

/-- The report halts for the drift of a position of the books and of a total that no agreeing position covers,
and does not halt where the two sides agree. -/
theorem drift_detected :
    (SeenDrift replayed exchange → (reportOf replayed exchange).halt = true) ∧
      (¬Drifts replayed exchange → (reportOf replayed exchange).halt = false) := by
  have hhalt : (reportOf replayed exchange).halt = true ↔ SeenDrift replayed exchange :=
    halt_iff_visible.trans seen_iff_visible.symm
  constructor
  · exact hhalt.mpr
  · intro hagree
    rw [← Bool.not_eq_true, hhalt]
    intro hseen
    exact hagree hseen.drifts

lemma balance_of_balances {replayed : ProjectionSnapshot} {exchange : SimulatedExchange}
    (h : exchange.balances = replayed.balances) (currency : String) : replayed.balance currency = exchange.balance currency := by
  unfold ProjectionSnapshot.balance SimulatedExchange.balance
  rw [h]
  cases row Prod.fst currency replayed.balances with
  | none => rfl
  | some r => rfl

/-- The exchange has lost two bitcoin from its balances, and still has the position; and it has a position that
the books know nothing of. Neither halts. -/
theorem drift_hidden :
    let held : List PositionView := [⟨"BTCUSDT", "BTC", "USDT", 2, some 5, 10, 0⟩]
    let books : ProjectionSnapshot := { balances := [("USDT", 10)], positions := held }
    let empty : ProjectionSnapshot := { balances := [("USDT", 10)] }
    let exchange : SimulatedExchange := { balances := [("USDT", 10)], positions := held, instruments := [] }
    (Drifts books exchange ∧ (reportOf books exchange).halt = false) ∧
      Drifts empty exchange ∧ (reportOf empty exchange).halt = false := by
  intro held books empty exchange
  refine ⟨⟨Or.inl ⟨"BTC", ?_⟩, reportOf_halt.mpr ⟨fun currency _ => balance_of_balances rfl currency, ?_⟩⟩,
    Or.inr (Or.inr ⟨"BTCUSDT", ?_⟩), reportOf_halt.mpr ⟨fun currency _ => balance_of_balances rfl currency, ?_⟩⟩
  · decide +kernel
  · decide +kernel
  · decide +kernel
  · simp [empty]

end CryptoTrader
