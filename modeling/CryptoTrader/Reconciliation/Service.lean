import CryptoTrader.Simulator.Exchange
import Mathlib.Data.List.Dedup

/-!
# Reconciliation

`reconciliation/service.py`: the spot scope of the ledger is compared with the balances and
positions of the exchange.
-/

namespace CryptoTrader

open KeyedTable

def futuresEntryTypes : List LedgerEntryType :=
  [.futuresMarginPost, .futuresMarginRelease, .futuresRealizedPnl, .futuresTradingFee] ++ [.fundingPayment, .fundingReceipt]

/-- The alerts, with the data of their texts. -/
inductive Alert where
  | balanceMismatch (currency : String) (localTotal exchangeTotal : ℚ)
  | positionMismatch (symbol : String) (localQuantity exchangeQuantity : ℚ)
  | positionOnlyOnExchange (symbol : String) (exchangeQuantity : ℚ)
  deriving DecidableEq, Repr

/-- Whether an alert halts new orders. -/
def Alert.halts : Alert → Bool
  | .balanceMismatch _ _ _ | .positionMismatch _ _ _ => true
  | .positionOnlyOnExchange _ _ => false

/-- An entry of `positions_diff`. -/
structure PositionDiff where
  symbol : String
  localQuantity : ℚ
  exchangeQuantity : ℚ
  deriving DecidableEq, Repr

structure ReconciliationReport where
  ok : Bool
  halt : Bool
  alerts : List Alert
  localBalances : Balances
  exchangeBalances : Balances
  positionsDiff : List PositionDiff
  deriving DecidableEq, Repr

section Comparison

variable (replayed : ProjectionSnapshot) (exchange : SimulatedExchange)

/-- `position_covered_currencies`. -/
def coveredCurrencies : List String :=
  replayed.positions.flatMap fun view =>
    match exchange.position view.symbol with
    | some pos => if view.quantity = pos.quantity then [view.baseAsset, pos.baseAsset] else []
    | none => []

/-- The currencies of both sides, in their order. -/
def reconciledCurrencies : List String :=
  ((replayed.balances.map Prod.fst ++ exchange.balances.map Prod.fst).dedup).mergeSort

def balanceAlerts : List Alert :=
  (reconciledCurrencies replayed exchange).filterMap fun currency =>
    if currency ∈ coveredCurrencies replayed exchange then none
    else if replayed.balance currency = exchange.balance currency then none
    else some (.balanceMismatch currency (replayed.balance currency) (exchange.balance currency))

/-- The projected positions whose quantity at the exchange is another. -/
def quantityDiffs : List PositionDiff :=
  replayed.positions.filterMap fun view =>
    if view.quantity = exchange.held view.symbol then none
    else some ⟨view.symbol, view.quantity, exchange.held view.symbol⟩

/-- The positions that only the exchange has. -/
def exchangeOnlyDiffs : List PositionDiff :=
  (exchange.positions.filter (fun pos => replayed.position pos.symbol = none)).map
    (fun pos => ⟨pos.symbol, 0, pos.quantity⟩)

/-- The report on a replay. -/
def reportOf : ReconciliationReport :=
  let alerts := balanceAlerts replayed exchange ++
    (quantityDiffs replayed exchange).map (fun d => .positionMismatch d.symbol d.localQuantity d.exchangeQuantity) ++
    (exchangeOnlyDiffs replayed exchange).map (fun d => .positionOnlyOnExchange d.symbol d.exchangeQuantity)
  { ok := alerts.isEmpty
    halt := alerts.any Alert.halts
    alerts
    localBalances := replayed.balances
    exchangeBalances := exchange.balances
    positionsDiff := quantityDiffs replayed exchange ++ exchangeOnlyDiffs replayed exchange }

end Comparison

/-- `reconcile`: the two sides are compared on what the replay of the spot scope gives. -/
def ReconciliationService.reconcile (ledger : Ledger) (exchange : SimulatedExchange) : Except TradingError ReconciliationReport :=
  match replayProjections [] ledger futuresEntryTypes with
  | .error e => .error e
  | .ok replayed => .ok (reportOf replayed exchange)

/-! ### When nothing halts -/

section Halts

variable {replayed : ProjectionSnapshot} {exchange : SimulatedExchange}

/-- The currency is the base asset of a position that both sides have in the same quantity. -/
def Covered (replayed : ProjectionSnapshot) (exchange : SimulatedExchange) (currency : String) : Prop :=
  ∃ view ∈ replayed.positions, ∃ pos, exchange.position view.symbol = some pos ∧ view.quantity = pos.quantity ∧
    (currency = view.baseAsset ∨ currency = pos.baseAsset)

lemma mem_coveredCurrencies (currency : String) :
    currency ∈ coveredCurrencies replayed exchange ↔ Covered replayed exchange currency := by
  unfold coveredCurrencies Covered
  rw [List.mem_flatMap]
  refine exists_congr (fun view => and_congr_right (fun _ => ?_))
  cases exchange.position view.symbol with
  | none => simp
  | some pos =>
    dsimp only
    by_cases hq : view.quantity = pos.quantity
    · simp [hq]
    · simp [hq]

lemma mem_reconciledCurrencies (currency : String) : currency ∈ reconciledCurrencies replayed exchange ↔
    currency ∈ replayed.balances.map Prod.fst ∨ currency ∈ exchange.balances.map Prod.fst := by
  unfold reconciledCurrencies
  rw [List.mem_mergeSort, List.mem_dedup, List.mem_append]

/-- There is no balance alert exactly if the balances agree but for covered currencies. -/
lemma balanceAlerts_eq_nil : balanceAlerts replayed exchange = [] ↔
    ∀ currency, ¬ Covered replayed exchange currency → replayed.balance currency = exchange.balance currency := by
  unfold balanceAlerts
  rw [List.filterMap_eq_nil_iff]
  constructor
  · intro h currency hcovered
    by_cases hmem : currency ∈ reconciledCurrencies replayed exchange
    · have hnone := h currency hmem
      rw [if_neg (by rwa [mem_coveredCurrencies])] at hnone
      by_contra hne
      simp [hne] at hnone
    · rw [mem_reconciledCurrencies, not_or] at hmem
      unfold ProjectionSnapshot.balance SimulatedExchange.balance
      rw [row_eq_none_iff.mpr hmem.1, row_eq_none_iff.mpr hmem.2]
      rfl
  · intro h currency _
    by_cases hcovered : Covered replayed exchange currency
    · rw [if_pos (by rwa [mem_coveredCurrencies])]
    · rw [if_neg (by rwa [mem_coveredCurrencies]), if_pos (h currency hcovered)]

/-- No alert halts new orders exactly if the balances agree but for covered currencies, and
the quantities do. -/
lemma reportOf_halt : (reportOf replayed exchange).halt = false ↔
    (∀ currency, ¬ Covered replayed exchange currency → replayed.balance currency = exchange.balance currency) ∧
      ∀ view ∈ replayed.positions, view.quantity = exchange.held view.symbol := by
  have hbalance : (balanceAlerts replayed exchange).any Alert.halts = false ↔ balanceAlerts replayed exchange = [] := by
    rw [List.any_eq_false]
    constructor
    · intro h
      apply List.eq_nil_iff_forall_not_mem.mpr
      intro alert halert
      have hnot := h alert halert
      unfold balanceAlerts at halert
      obtain ⟨currency, -, hsome⟩ := List.mem_filterMap.mp halert
      split at hsome
      · simp at hsome
      · split at hsome
        · simp at hsome
        · rw [← Option.some.inj hsome] at hnot
          exact hnot rfl
    · intro h
      simp [h]
  have hquantity : ((quantityDiffs replayed exchange).map
      (fun d => Alert.positionMismatch d.symbol d.localQuantity d.exchangeQuantity)).any Alert.halts = false ↔
      ∀ view ∈ replayed.positions, view.quantity = exchange.held view.symbol := by
    rw [List.any_map, List.any_eq_false]
    unfold quantityDiffs
    constructor
    · intro h view hview
      by_contra hne
      exact h ⟨view.symbol, view.quantity, exchange.held view.symbol⟩
        (List.mem_filterMap.mpr ⟨view, hview, by simp [hne]⟩) rfl
    · intro h d hd
      obtain ⟨view, hview, hsome⟩ := List.mem_filterMap.mp hd
      simp [h view hview] at hsome
  have honly : ((exchangeOnlyDiffs replayed exchange).map
      (fun d => Alert.positionOnlyOnExchange d.symbol d.exchangeQuantity)).any Alert.halts = false := by
    rw [List.any_map, List.any_eq_false]
    exact fun d _ => Bool.false_ne_true
  unfold reportOf
  dsimp only
  rw [List.any_append, List.any_append, honly, Bool.or_false, Bool.or_eq_false_iff, hbalance, hquantity,
    balanceAlerts_eq_nil]

end Halts

end CryptoTrader
