import CryptoTrader.Lib.Runs
import CryptoTrader.Simulator.Exchange
import CryptoTrader.Simulator.SpotView

/-!
# The account of the exchange

The fills of an order settle in the account of the exchange as it matches them, apart from
the base assets that it also keeps as balances.
-/

namespace CryptoTrader

open KeyedTable AverageCost Runs

/-- The exchange has these holdings, and these balances but of base assets of its positions. -/
structure Mirrors (ex : SimulatedExchange) (view : SpotView) : Prop where
  balance : ∀ currency, ex.balance currency = view.balance currency ∨
    ∃ symbol pos, ex.position symbol = some pos ∧ (currency = pos.baseAsset ∨ currency = symbol.replace "USDT" "")
  untraded : ∀ symbol, ex.position symbol = none → view.held symbol = .empty
  carries : ∀ symbol pos, ex.position symbol = some pos → ∃ h, view.holding symbol = some h ∧ pos.Carries h

/-- A position in the symbol has the base asset of the instrument, or its symbol names it. -/
def BaseNamed (ex : SimulatedExchange) (instrument : Instrument) (symbol : String) : Prop :=
  ∀ pos ∈ ex.position symbol, pos.baseAsset = instrument.baseAsset ∨ symbol.replace "USDT" "" = instrument.baseAsset

/-- An order that finds a level is paid in a named asset, at prices that are not negative,
and a position in its symbol is named for its instrument. -/
def Order.Named (ex : SimulatedExchange) (order : Order) : Prop :=
  0 < order.quantity → (ex.bookOf order.symbol).marketable order.side order.limit ≠ none →
    (ex.instrumentOf order.symbol).quoteAsset ≠ "" ∧
      (∀ level ∈ ((ex.bookOf order.symbol).side order.side).levels, 0 ≤ level.price) ∧
      BaseNamed ex (ex.instrumentOf order.symbol) order.symbol

section Positions

variable {pos : PositionView} {h : AverageCost.Holding ℚ} {fill : Fill}

lemma PositionView.Carries.filled (hc : pos.Carries h) (hl : h.Long)
    (hle : fill.side = .sell → fill.quantity ≤ h.quantity) : (filledPosition pos fill).Carries (fill.trade h) := by
  unfold filledPosition Fill.trade
  cases hside : fill.side with
  | buy =>
    dsimp only
    rw [hc.quantity, hc.cost]
    refine ⟨rfl, rfl, ?_⟩
    have haverage : (h.buy fill.quantity fill.price).average =
      (h.cost + fill.price * fill.quantity) / (h.quantity + fill.quantity) := rfl
    rw [haverage]
    by_cases hzero : h.quantity + fill.quantity = 0
    · rw [if_pos hzero, hzero, div_zero, Option.getD_none]
    · rw [if_neg hzero, Option.getD_some]
  | sell =>
    dsimp only
    rw [hc.quantity, hc.cost]
    refine ⟨rfl, ?_, ?_⟩
    · dsimp only
      rw [hc.average]
      exact clampedCost_eq hl (hle hside)
    · dsimp only
      by_cases hzero : h.quantity - fill.quantity = 0
      · rw [if_pos hzero, Option.getD_none, AverageCost.Holding.average, show (h.sell fill.quantity).quantity = 0 from hzero, div_zero]
      · rw [if_neg hzero, hc.average]
        exact (hl.average_sell hzero).symm

end Positions

lemma filledPosition_names (pos : PositionView) (fill : Fill) :
    (filledPosition pos fill).symbol = pos.symbol ∧ (filledPosition pos fill).baseAsset = pos.baseAsset := by
  unfold filledPosition
  cases fill.side <;> exact ⟨rfl, rfl⟩

namespace SimulatedExchange

variable (ex : SimulatedExchange)

lemma balance_addBalance (currency : String) (amount : ℚ) (other : String) :
    (ex.addBalance currency amount).balance other = ex.balance other + if other = currency then amount else 0 := by
  unfold addBalance balance
  dsimp only
  by_cases h : other = currency
  · rw [if_pos h, h, show row Prod.fst currency (upsert Prod.fst (currency, _) ex.balances) = some (currency, _) from
      row_upsert_self Prod.fst (currency, _) ex.balances]
    rfl
  · rw [if_neg h, add_zero, row_upsert_of_ne ex.balances h]

/-- The balances after a fill: its cash in the quote asset, its quantity in the base asset. -/
lemma balance_applyFill (fill : Fill) (instrument : Instrument) (currency : String) :
    (ex.applyFillToBalances fill instrument).balance currency = ex.balance currency +
      (if currency = instrument.baseAsset then fill.signed else 0) + if currency = instrument.quoteAsset then fill.cash else 0 := by
  unfold applyFillToBalances Fill.signed Fill.cash
  cases fill.side with
  | buy =>
    dsimp only
    rw [← neg_add']
    exact (balance_addBalance _ _ _ _).trans (by rw [balance_addBalance])
  | sell =>
    dsimp only
    exact (balance_addBalance _ _ _ _).trans (by rw [balance_addBalance])

/-- The position an order of the instrument is filled in: the one there is, or a new one. -/
def fillPosition (symbol : String) (instrument : Instrument) : PositionView :=
  (ex.position symbol).getD { symbol, baseAsset := instrument.baseAsset, quoteAsset := instrument.quoteAsset }

lemma fillPosition_symbol (symbol : String) (instrument : Instrument) : (ex.fillPosition symbol instrument).symbol = symbol := by
  unfold fillPosition position
  cases hrow : row PositionView.symbol symbol ex.positions with
  | none => rfl
  | some pos => exact (row_some hrow).2

lemma position_applyFill (fill : Fill) (instrument : Instrument) (symbol : String) :
    (ex.applyFillToBalances fill instrument).position symbol = if symbol = fill.symbol then
      some (filledPosition (ex.fillPosition fill.symbol instrument) fill) else ex.position symbol := by
  have hsymbol : (filledPosition (ex.fillPosition fill.symbol instrument) fill).symbol = fill.symbol :=
    (filledPosition_names _ fill).1.trans (ex.fillPosition_symbol fill.symbol instrument)
  have hpositions : (ex.applyFillToBalances fill instrument).positions =
      upsert PositionView.symbol (filledPosition (ex.fillPosition fill.symbol instrument) fill) ex.positions := by
    unfold applyFillToBalances
    cases fill.side <;> rfl
  generalize filledPosition (ex.fillPosition fill.symbol instrument) fill = pos at hsymbol hpositions ⊢
  unfold position
  rw [hpositions]
  by_cases h : symbol = fill.symbol
  · rw [if_pos h, h, ← hsymbol, row_upsert_self]
  · rw [if_neg h, row_upsert_of_ne _ (by rwa [hsymbol])]

end SimulatedExchange

/-! ### One fill -/

section Fills

variable {ex : SimulatedExchange} {view : SpotView} {instrument : Instrument} {fill : Fill}

lemma Mirrors.held (h : Mirrors ex view) (symbol : String) :
    ex.held symbol = (view.held symbol).quantity ∧ ex.costOf symbol = (view.held symbol).cost := by
  unfold SimulatedExchange.held SimulatedExchange.costOf
  cases hpos : ex.position symbol with
  | none =>
    rw [h.untraded symbol hpos]
    exact ⟨rfl, rfl⟩
  | some pos =>
    obtain ⟨holding, hholding, hcarries⟩ := h.carries symbol pos hpos
    rw [SpotView.held, hholding]
    exact ⟨hcarries.quantity, hcarries.cost⟩

/-- Books, orders and ids of the exchange are no part of its account. -/
lemma Mirrors.congr {ex' : SimulatedExchange} (h : Mirrors ex view) (hbalances : ex'.balances = ex.balances)
    (hpositions : ex'.positions = ex.positions) : Mirrors ex' view := by
  have hbalance (currency : String) : ex'.balance currency = ex.balance currency := by
    unfold SimulatedExchange.balance
    rw [hbalances]
  have hposition (symbol : String) : ex'.position symbol = ex.position symbol := by
    unfold SimulatedExchange.position
    rw [hpositions]
  constructor
  · intro currency
    rw [hbalance]
    simp only [hposition]
    exact h.balance currency
  · intro symbol
    rw [hposition]
    exact h.untraded symbol
  · intro symbol pos
    rw [hposition]
    exact h.carries symbol pos

/-- An order of the instrument is filled in a position that has its base asset, or whose
symbol names it. -/
lemma BaseNamed.fillPosition (h : BaseNamed ex instrument fill.symbol) :
    (ex.fillPosition fill.symbol instrument).baseAsset = instrument.baseAsset ∨
      fill.symbol.replace "USDT" "" = instrument.baseAsset := by
  unfold SimulatedExchange.fillPosition
  cases hpos : ex.position fill.symbol with
  | none => exact .inl rfl
  | some pos => exact h pos hpos

lemma BaseNamed.applyFill (h : BaseNamed ex instrument fill.symbol) :
    BaseNamed (ex.applyFillToBalances fill instrument) instrument fill.symbol := by
  intro pos hpos
  rw [ex.position_applyFill, if_pos rfl, Option.mem_some_iff] at hpos
  rw [← hpos, (filledPosition_names _ fill).2]
  exact h.fillPosition

lemma Mirrors.applyFill (h : Mirrors ex view) (hl : view.Long) (hf : view.Settleable fill)
    (hquote : fill.quote = instrument.quoteAsset) (hbase : BaseNamed ex instrument fill.symbol) :
    Mirrors (ex.applyFillToBalances fill instrument) (view.settle fill) := by
  have hopen : (ex.fillPosition fill.symbol instrument).Carries (view.held fill.symbol) := by
    unfold SimulatedExchange.fillPosition
    cases hpos : ex.position fill.symbol with
    | none =>
      rw [h.untraded fill.symbol hpos]
      exact carries_empty _ _ _
    | some pos =>
      obtain ⟨holding, hholding, hcarries⟩ := h.carries fill.symbol pos hpos
      rw [SpotView.held, hholding]
      exact hcarries
  constructor
  · intro currency
    rw [ex.balance_applyFill, ← hquote]
    by_cases hb : currency = instrument.baseAsset
    · refine .inr ⟨fill.symbol, _, (ex.position_applyFill fill instrument fill.symbol).trans (if_pos rfl), ?_⟩
      rw [(filledPosition_names _ fill).2, hb]
      exact hbase.fillPosition.imp Eq.symm Eq.symm
    · rw [if_neg hb, add_zero]
      rcases h.balance currency with heq | ⟨symbol, pos, hpos, hcovers⟩
      · exact .inl (by rw [heq]; rfl)
      · refine .inr ?_
        by_cases hs : symbol = fill.symbol
        · refine ⟨fill.symbol, _, (ex.position_applyFill fill instrument fill.symbol).trans (if_pos rfl), ?_⟩
          rw [(filledPosition_names _ fill).2, ← hs, SimulatedExchange.fillPosition, hpos]
          exact hcovers
        · exact ⟨symbol, pos, by rw [ex.position_applyFill, if_neg hs, hpos], hcovers⟩
  · intro symbol hnone
    rw [ex.position_applyFill] at hnone
    by_cases hs : symbol = fill.symbol
    · simp [hs] at hnone
    · rw [if_neg hs] at hnone
      rw [SpotView.held_settle, if_neg hs]
      exact h.untraded symbol hnone
  · intro symbol pos hpos
    rw [ex.position_applyFill] at hpos
    unfold SpotView.settle
    dsimp only
    by_cases hs : symbol = fill.symbol
    · rw [if_pos hs, Option.some.injEq] at hpos
      rw [if_pos hs, hs, ← hpos]
      exact ⟨_, rfl, hopen.filled (hl fill.symbol) hf.held⟩
    · rw [if_neg hs] at hpos ⊢
      exact h.carries symbol pos hpos

end Fills

/-! ### The loop -/

namespace Matching

variable {instrument : Instrument} {newIds : Nat → String × String} {m m' : Matching}

/-- The levels the order can still take. -/
def levels (m : Matching) : List BookLevel :=
  (m.book.side m.order.side).levels

lemma step_some (h : m.step instrument newIds = some m') :
    ∃ level ids, 0 < m.remaining ∧ m.book.marketable m.order.side m.order.limit = some level ∧ m' =
      { exchange := m.exchange.applyFillToBalances (m.fillOf instrument ids level) instrument
        book := m.book.setSide ((m.book.side m.order.side).consume level (min m.remaining level.quantity)) m.order.side
        order := filledOrder m.order (m.fillOf instrument ids level)
        remaining := m.remaining - min m.remaining level.quantity
        fills := m.fills ++ [m.fillOf instrument ids level] } := by
  unfold step at h
  by_cases hdone : m.remaining ≤ 0
  · simp [hdone] at h
  · rw [if_neg hdone] at h
    cases hlevel : m.book.marketable m.order.side m.order.limit with
    | none => simp [hlevel] at h
    | some level =>
      rw [hlevel] at h
      exact ⟨level, newIds m.fills.length, not_le.mp hdone, rfl, (Option.some.inj h).symm⟩

lemma marketable_mem {level : BookLevel} (h : m.book.marketable m.order.side m.order.limit = some level) : level ∈ m.levels :=
  OrderBook.best_mem (OrderBook.marketable_best h)

lemma step_started (h : m.step instrument newIds = some m') :
    0 < m.remaining ∧ m.book.marketable m.order.side m.order.limit ≠ none := by
  unfold step at h
  by_cases hdone : m.remaining ≤ 0
  · simp [hdone] at h
  · refine ⟨not_le.mp hdone, fun hnone => ?_⟩
    simp [hdone, hnone] at h

lemma loop_of_ended (h : m.step instrument newIds = none) (n : Nat) : m.loop instrument newIds n = m := by
  cases n with
  | zero => rfl
  | succ n => simp only [loop, h]

/-- What every turn keeps, the loop keeps. -/
lemma loop_keeps {P : Matching → Prop} (hstep : ∀ m m', P m → Matching.step instrument newIds m = some m' → P m') (h : P m)
    (n : Nat) : P (m.loop instrument newIds n) := by
  induction n generalizing m with
  | zero => exact h
  | succ n ih =>
    cases hturn : m.step instrument newIds with
    | none => rwa [loop_of_ended hturn]
    | some m' =>
      simp only [loop, hturn]
      exact ih (hstep m m' h hturn)

lemma step_done (h : m.remaining ≤ 0) : m.step instrument newIds = none :=
  if_pos h

/-- A turn takes a level out of the book, or leaves nothing of the order. -/
lemma step_progress (h : m.step instrument newIds = some m') :
    m'.remaining ≤ 0 ∨ m'.levels.length < m.levels.length := by
  obtain ⟨level, ids, hremaining, hlevel, rfl⟩ := step_some h
  rcases le_or_gt m.remaining level.quantity with hle | hlt
  · refine .inl ?_
    dsimp only
    rw [min_eq_left hle, sub_self]
  · refine .inr ?_
    have hkeep : (filledOrder m.order (m.fillOf instrument ids level)).side = m.order.side := rfl
    unfold levels
    dsimp only
    rw [hkeep, OrderBook.side_setSide, min_eq_right hlt.le, BookSide.consume, dif_neg (lt_irrefl _)]
    exact BookSide.pop_length_lt _ (marketable_mem hlevel)

lemma loop_ends {n : Nat} (hn : m.levels.length ≤ n) : (m.loop instrument newIds n).step instrument newIds = none := by
  induction n generalizing m with
  | zero =>
    cases hstep : m.step instrument newIds with
    | none => exact hstep
    | some m' =>
      obtain ⟨level, ids, -, hlevel, -⟩ := step_some hstep
      have hmem : level ∈ m.levels := marketable_mem hlevel
      rw [List.eq_nil_of_length_eq_zero (Nat.le_zero.mp hn)] at hmem
      simp at hmem
  | succ n ih =>
    cases hstep : m.step instrument newIds with
    | none =>
      rw [loop_of_ended hstep]
      exact hstep
    | some m' =>
      simp only [loop, hstep]
      rcases step_progress hstep with hdone | hlt
      · rw [loop_of_ended (step_done hdone)]
        exact step_done hdone
      · exact ih (by omega)

end Matching

lemma SpotView.Long.run {view : SpotView} (h : view.Long) {fills : List Fill}
    (hfills : Along SpotView.settle SpotView.Settleable view fills) : (run SpotView.settle view fills).Long :=
  run_invariant (fun _ _ hl hf => hl.settle hf) h hfills

/-- The fills so far are settled in the account, there is room for what remains of a sale,
and no level has a negative price. -/
structure Mirroring (view : SpotView) (instrument : Instrument) (m : Matching) : Prop where
  mirrors : Mirrors m.exchange (run SpotView.settle view m.fills)
  settleable : Along SpotView.settle SpotView.Settleable view m.fills
  room : m.order.side = .sell → m.remaining ≤ ((run SpotView.settle view m.fills).held m.order.symbol).quantity
  prices : ∀ l ∈ m.levels, 0 ≤ l.price
  named : BaseNamed m.exchange instrument m.order.symbol

section Loop

variable {view : SpotView} {instrument : Instrument} {newIds : Nat → String × String} {m m' : Matching}

lemma Mirroring.step (h : Mirroring view instrument m) (hl : view.Long) (hquote : instrument.quoteAsset ≠ "")
    (hstep : m.step instrument newIds = some m') : Mirroring view instrument m' := by
  obtain ⟨level, ids, hremaining, hlevel, rfl⟩ := Matching.step_some hstep
  have hmem : level ∈ m.levels := Matching.marketable_mem hlevel
  have hquantity : 0 < min m.remaining level.quantity := lt_min hremaining ((m.book.side m.order.side).positive level hmem)
  have hsettleable : (run SpotView.settle view m.fills).Settleable (m.fillOf instrument ids level) :=
    ⟨h.prices level hmem, hquantity.le, fun hsell => (min_le_left _ _).trans (h.room hsell)⟩
  have hpaid : (m.fillOf instrument ids level).quote = instrument.quoteAsset := by
    simp [Fill.quote, Matching.fillOf, orElseNew, truthy, hquote]
  refine ⟨?_, ?_, fun hsell => ?_, fun l hl' => ?_, h.named.applyFill⟩
  · rw [run_append]
    exact h.mirrors.applyFill (hl.run h.settleable) hsettleable hpaid h.named
  · exact (along_append _ _ _).mpr ⟨h.settleable, hsettleable, trivial⟩
  · dsimp only at hsell ⊢
    have hroom := h.room hsell
    have hside : (m.fillOf instrument ids level).side = .sell := hsell
    rw [run_append, run_cons, run_nil, SpotView.held_settle]
    have hsymbol : (Matching.filledOrder m.order (m.fillOf instrument ids level)).symbol =
      (m.fillOf instrument ids level).symbol := rfl
    rw [if_pos hsymbol, Fill.trade, hside]
    exact sub_le_sub_right hroom _
  · unfold Matching.levels at hl'
    dsimp only at hl'
    rw [show (Matching.filledOrder m.order (m.fillOf instrument ids level)).side = m.order.side from rfl,
      OrderBook.side_setSide, BookSide.consume] at hl'
    split at hl'
    · rcases mem_upsert hl' with rfl | hl'
      · exact h.prices level hmem
      · exact h.prices l hl'
    · exact h.prices l (List.mem_of_mem_filter hl')

lemma Mirroring.loop (h : Mirroring view instrument m) (hl : view.Long) (hquote : instrument.quoteAsset ≠ "") (n : Nat) :
    Mirroring view instrument (m.loop instrument newIds n) :=
  Matching.loop_keeps (fun _ _ hm hturn => hm.step hl hquote hturn) h n

/-- An order of no more than is held is filled in the account of the exchange. -/
lemma Mirrors.matchOrder {ex : SimulatedExchange} (h : Mirrors ex view) (hl : view.Long) (order : Order)
    (hheld : order.side = .sell → order.quantity ≤ ex.held order.symbol) (hnamed : order.Named ex)
    (newIds : Nat → String × String) :
    Mirrors (ex.matchOrder order newIds).1 (run SpotView.settle view (ex.matchOrder order newIds).2.2) ∧
      Along SpotView.settle SpotView.Settleable view (ex.matchOrder order newIds).2.2 := by
  let start : Matching := { exchange := ex, book := ex.bookOf order.symbol, order, remaining := order.quantity }
  let last := start.loop (ex.instrumentOf order.symbol) newIds ((ex.bookOf order.symbol).side order.side).levels.length
  suffices hlast : Mirrors last.exchange (run SpotView.settle view last.fills) ∧
      Along SpotView.settle SpotView.Settleable view last.fills from ⟨hlast.1.congr rfl rfl, hlast.2⟩
  cases hstep : start.step (ex.instrumentOf order.symbol) newIds with
  | none =>
    have hsame : last = start := Matching.loop_of_ended hstep _
    rw [hsame]
    exact ⟨h, trivial⟩
  | some next =>
    obtain ⟨hquantity, hlevel⟩ := Matching.step_started hstep
    obtain ⟨hquote, hprices, hbase⟩ := hnamed hquantity hlevel
    have hstart : Mirroring view (ex.instrumentOf order.symbol) start :=
      ⟨h, trivial, fun hsell => (hheld hsell).trans_eq (h.held order.symbol).1, hprices, hbase⟩
    have hend : Mirroring view (ex.instrumentOf order.symbol) last := hstart.loop hl hquote _
    exact ⟨hend.mirrors, hend.settleable⟩

end Loop

end CryptoTrader
