import CryptoTrader.MarketData.Book
import CryptoTrader.Simulator.Matching

/-!
# Best levels first

What an order takes out of the book: the loop of `_match_order` goes through the levels from the best one on,
and ends when nothing of the order remains or no level is within its limit. `Filling` is what every turn keeps.
-/

namespace CryptoTrader

open KeyedTable Weights

/-- The first price is no worse for the order than the second. -/
def OrderSide.NoWorse : OrderSide → ℚ → ℚ → Prop
  | .buy, p, q => p ≤ q
  | .sell, p, q => q ≤ p

instance decidableNoWorse : ∀ (orderSide : OrderSide) (p q : ℚ), Decidable (orderSide.NoWorse p q)
  | .buy, p, q => inferInstanceAs (Decidable (p ≤ q))
  | .sell, p, q => inferInstanceAs (Decidable (q ≤ p))

def PriceWithin (orderSide : OrderSide) (limit : Option ℚ) (price : ℚ) : Prop :=
  ∀ bound ∈ limit, orderSide.NoWorse price bound

instance decidablePriceWithin (orderSide : OrderSide) (limit : Option ℚ) (price : ℚ) :
    Decidable (PriceWithin orderSide limit price) :=
  inferInstanceAs (Decidable (∀ bound ∈ limit, orderSide.NoWorse price bound))

/-- The depth of a side within the limit of an order. -/
def depthWithin (orderSide : OrderSide) (limit : Option ℚ) (side : BookSide) : ℚ :=
  weight (fun l => if PriceWithin orderSide limit l.price then l.quantity else 0) side.levels

lemma OrderSide.NoWorse.trans {orderSide : OrderSide} {p q r : ℚ} (h : orderSide.NoWorse p q) (h' : orderSide.NoWorse q r) :
    orderSide.NoWorse p r := by
  cases orderSide with
  | buy => exact le_trans (α := ℚ) h h'
  | sell => exact le_trans (α := ℚ) h' h

/-! ### The best level -/

namespace OrderBook

variable {book : OrderBook} {orderSide : OrderSide} {limit : Option ℚ} {level : BookLevel}

lemma best_noWorse (h : book.best orderSide = some level) {l : BookLevel} (hl : l ∈ (book.side orderSide).levels) :
    orderSide.NoWorse level.price l.price := by
  cases orderSide with
  | buy => exact List.le_of_mem_argmin hl h
  | sell => exact List.le_of_mem_argmax hl h

/-- The loop takes the best level if that is within the limit. -/
lemma marketable_eq (book : OrderBook) (orderSide : OrderSide) (limit : Option ℚ) :
    book.marketable orderSide limit = (book.best orderSide).filter (fun l => PriceWithin orderSide limit l.price) := by
  unfold marketable
  cases book.best orderSide with
  | none => rfl
  | some level =>
    cases limit with
    | none =>
      have hwithin : PriceWithin orderSide none level.price := fun bound hbound => nomatch hbound
      rw [Option.filter_some, if_pos (decide_eq_true hwithin)]
    | some price =>
      rw [Option.filter_some]
      cases orderSide with
      | buy =>
        dsimp only
        rw [← ite_not]
        simp [PriceWithin, OrderSide.NoWorse]
      | sell =>
        dsimp only
        rw [← ite_not]
        simp [PriceWithin, OrderSide.NoWorse]

/-- When the loop finds no level, none is within the limit. -/
lemma beyond_of_marketable (h : book.marketable orderSide limit = none) {l : BookLevel}
    (hl : l ∈ (book.side orderSide).levels) : ¬PriceWithin orderSide limit l.price := by
  intro hwithin
  rw [marketable_eq] at h
  cases hbest : book.best orderSide with
  | none =>
    have hnil : (book.side orderSide).levels = [] := by
      cases orderSide with
      | buy => exact List.argmin_eq_none.mp hbest
      | sell => exact List.argmax_eq_none.mp hbest
    rw [hnil] at hl
    simp at hl
  | some level =>
    rw [hbest, Option.filter_some] at h
    have hbeyond : ¬PriceWithin orderSide limit level.price := by simpa using h
    exact hbeyond (fun bound hbound => (best_noWorse hbest hl).trans (hwithin bound hbound))

end OrderBook

/-! ### One level -/

namespace BookSide

variable {side : BookSide} {level : BookLevel} {q : ℚ}

lemma depth_consume (hmem : level ∈ side.levels) (hq : q ≤ level.quantity) (price : ℚ) :
    (side.consume level q).depth price + (if level.price = price then q else 0) = side.depth price := by
  have hdepth : side.depth level.price = level.quantity := ((side.mem_levels_iff level).mp hmem).2
  unfold consume
  by_cases hlt : q < level.quantity
  · rw [dif_pos hlt, depth_put]
    by_cases hprice : level.price = price
    · rw [← hprice, Function.update_self, if_pos rfl, sub_add_cancel, hdepth]
    · rw [Function.update_of_ne (Ne.symm hprice), if_neg hprice, add_zero]
  · rw [dif_neg hlt, depth_pop]
    by_cases hprice : level.price = price
    · rw [← hprice, Function.update_self, if_pos rfl, zero_add, hdepth]
      exact le_antisymm hq (not_lt.mp hlt)
    · rw [Function.update_of_ne (Ne.symm hprice), if_neg hprice, add_zero]

lemma depthWithin_consume {orderSide : OrderSide} {limit : Option ℚ} (hmem : level ∈ side.levels)
    (hq : q ≤ level.quantity) (hwithin : PriceWithin orderSide limit level.price) :
    depthWithin orderSide limit (side.consume level q) + q = depthWithin orderSide limit side := by
  have hrow : row BookLevel.price level.price side.levels = some level := row_of_mem side.unique hmem
  unfold depthWithin consume
  by_cases hlt : q < level.quantity
  · rw [dif_pos hlt]
    unfold put
    rw [weight_upsert _ side.unique, rowWeight, hrow, Option.elim_some, if_pos hwithin, if_pos hwithin]
    dsimp only
    ring
  · have heq : q = level.quantity := le_antisymm hq (not_lt.mp hlt)
    rw [dif_neg hlt]
    unfold pop
    rw [weight_filter_key _ side.unique, rowWeight, hrow, Option.elim_some, if_pos hwithin, heq]
    ring

lemma mem_consume (hmem : level ∈ side.levels) {l : BookLevel} (hl : l ∈ (side.consume level q).levels) :
    ∃ l' ∈ side.levels, l'.price = l.price := by
  unfold consume at hl
  split at hl
  · rcases mem_upsert hl with rfl | hl
    · exact ⟨level, hmem, rfl⟩
    · exact ⟨l, hl, rfl⟩
  · exact ⟨l, List.mem_of_mem_filter hl, rfl⟩

end BookSide

/-! ### The loop -/

/-- What the fills of an order bring about between a book and an order that has no fills, and what they are
in the end. -/
structure FilledFrom (book : OrderBook) (order : Order) (fills : List Fill) (book' : OrderBook) (order' : Order) : Prop where
  bestFirst : fills.Pairwise (fun f g => order.side.NoWorse f.price g.price)
  withinLimit : ∀ f ∈ fills, PriceWithin order.side order.limit f.price
  positive : ∀ f ∈ fills, 0 < f.quantity
  /-- Each price has lost what was filled at it. -/
  taken : ∀ price, (book'.side order.side).depth price +
    weight (fun f => if f.price = price then f.quantity else 0) fills = (book.side order.side).depth price
  /-- No level that is left is better than one that was taken from. -/
  ahead : ∀ f ∈ fills, ∀ l ∈ (book'.side order.side).levels, order.side.NoWorse f.price l.price
  kept : ∀ l ∈ (book'.side order.side).levels, 0 < l.quantity
  rest : book' = book.setSide (book'.side order.side) order.side
  filled : order'.filledQuantity = weight Fill.quantity fills
  average : order'.avgFillPrice.getD 0 * order'.filledQuantity = weight (fun f => f.price * f.quantity) fills
  status : order'.status = .filled ↔ order'.filledQuantity = order.quantity

/-- What a turn of the loop keeps. -/
structure Filling (book : OrderBook) (order : Order) (m : Matching) : Prop extends
    FilledFrom book order m.fills m.book m.order where
  side : m.order.side = order.side
  limit : m.order.limit = order.limit
  quantity : m.order.quantity = order.quantity
  remaining : m.remaining + weight Fill.quantity m.fills = order.quantity
  nonneg : 0 ≤ m.remaining
  depth : depthWithin order.side order.limit (m.book.side order.side) + weight Fill.quantity m.fills =
    depthWithin order.side order.limit (book.side order.side)

lemma OrderBook.setSide_setSide (book : OrderBook) (first second : BookSide) (orderSide : OrderSide) :
    (book.setSide first orderSide).setSide second orderSide = book.setSide second orderSide := by
  cases orderSide <;> rfl

lemma OrderBook.setSide_side (book : OrderBook) (orderSide : OrderSide) : book.setSide (book.side orderSide) orderSide = book := by
  cases orderSide <;> rfl

section Loop

variable {book : OrderBook} {order : Order} {instrument : Instrument} {newIds : Nat → String × String} {m m' : Matching}

lemma Filling.step (h : Filling book order m) (hstep : m.step instrument newIds = some m') : Filling book order m' := by
  obtain ⟨level, ids, hremaining, hmarketable, rfl⟩ := Matching.step_some hstep
  have hlevel : level ∈ (m.book.side m.order.side).levels := Matching.marketable_mem hmarketable
  rw [OrderBook.marketable_eq, Option.filter_eq_some_iff, decide_eq_true_eq] at hmarketable
  obtain ⟨hbest, hwithin⟩ := hmarketable
  have hpos : 0 < min m.remaining level.quantity := lt_min hremaining ((m.book.side m.order.side).positive level hlevel)
  have hle : min m.remaining level.quantity ≤ level.quantity := min_le_right _ _
  have hbetter : ∀ l ∈ (m.book.side m.order.side).levels, m.order.side.NoWorse level.price l.price :=
    fun l hl => OrderBook.best_noWorse hbest hl
  rw [h.side] at hlevel hbetter
  rw [h.side, h.limit] at hwithin
  have hfill : (m.fillOf instrument ids level).quantity = min m.remaining level.quantity := rfl
  have hprice : (m.fillOf instrument ids level).price = level.price := rfl
  have hfilled : m.order.filledQuantity + (m.fillOf instrument ids level).quantity ≠ 0 := by
    rw [h.filled, hfill]
    have hbefore : 0 ≤ weight Fill.quantity m.fills := weight_nonneg (fun f hf => (h.positive f hf).le)
    linarith
  constructor
  · constructor
    · dsimp only
      refine List.pairwise_append.mpr ⟨h.bestFirst, List.pairwise_singleton _ _, ?_⟩
      intro f hf g hg
      obtain rfl := List.mem_singleton.mp hg
      exact h.ahead f hf level hlevel
    · intro f hf
      rcases List.mem_append.mp hf with hf | hf
      · exact h.withinLimit f hf
      · obtain rfl := List.mem_singleton.mp hf
        exact hwithin
    · intro f hf
      rcases List.mem_append.mp hf with hf | hf
      · exact h.positive f hf
      · obtain rfl := List.mem_singleton.mp hf
        exact hpos
    · intro price
      dsimp only
      rw [h.side, OrderBook.side_setSide, weight_append, weight_cons, weight_nil, add_zero, hprice, hfill, ← h.taken price,
        ← BookSide.depth_consume hlevel hle price]
      ring
    · intro f hf l hl
      dsimp only at hl
      rw [h.side, OrderBook.side_setSide] at hl
      obtain ⟨l', hl', hsame⟩ := BookSide.mem_consume hlevel hl
      rw [← hsame]
      rcases List.mem_append.mp hf with hf | hf
      · exact h.ahead f hf l' hl'
      · obtain rfl := List.mem_singleton.mp hf
        exact hbetter l' hl'
    · exact BookSide.positive _
    · dsimp only
      rw [h.side, OrderBook.side_setSide]
      conv_lhs => rw [h.rest]
      rw [OrderBook.setSide_setSide, OrderBook.side_setSide]
    · dsimp only [Matching.filledOrder]
      rw [weight_append, weight_cons, weight_nil, add_zero, h.filled]
    · dsimp only [Matching.filledOrder]
      rw [Option.getD_some, div_mul_cancel₀ _ hfilled, add_sub_cancel_right, h.average, weight_append, weight_cons,
        weight_nil, add_zero]
    · dsimp only [Matching.filledOrder]
      rw [h.quantity]
      split <;> simp_all
  · exact h.side
  · exact h.limit
  · exact h.quantity
  · dsimp only
    rw [weight_append, weight_cons, weight_nil, add_zero, hfill, ← h.remaining]
    ring
  · exact sub_nonneg.mpr (min_le_left _ _)
  · dsimp only
    rw [h.side, OrderBook.side_setSide, weight_append, weight_cons, weight_nil, add_zero, hfill, ← h.depth,
      ← BookSide.depthWithin_consume hlevel hle hwithin]
    ring

lemma Filling.loop (h : Filling book order m) (n : Nat) : Filling book order (m.loop instrument newIds n) :=
  Matching.loop_keeps (fun _ _ hm hturn => hm.step hturn) h n

end Loop

/-! ### The end of the loop -/

section Matched

variable (ex : SimulatedExchange) {order : Order}

def Matching.start (order : Order) : Matching where
  exchange := ex
  book := ex.bookOf order.symbol
  order := order
  remaining := order.quantity

/-- The last turn of the loop, which has at most as many as the side has levels. -/
def Matching.last (order : Order) (newIds : Nat → String × String) : Matching :=
  (Matching.start ex order).loop (ex.instrumentOf order.symbol) newIds ((ex.bookOf order.symbol).side order.side).levels.length

variable {ex}

lemma Filling.start (hquantity : 0 < order.quantity) (hnew : order.filledQuantity = 0) (hopen : order.status ≠ .filled) :
    Filling (ex.bookOf order.symbol) order (Matching.start ex order) where
  bestFirst := List.Pairwise.nil
  withinLimit := by simp [Matching.start]
  positive := by simp [Matching.start]
  taken := by simp [Matching.start]
  ahead := by simp [Matching.start]
  kept := BookSide.positive _
  rest := (OrderBook.setSide_side _ _).symm
  filled := hnew
  average := by simp [Matching.start, hnew]
  status := iff_of_false hopen (fun h => hquantity.ne (hnew.symm.trans h))
  side := rfl
  limit := rfl
  quantity := rfl
  remaining := by simp [Matching.start]
  nonneg := hquantity.le
  depth := by simp [Matching.start]

/-- When the loop has ended, the fills are all of the order or all that was within its limit. -/
lemma Filling.total {book : OrderBook} {instrument : Instrument} {newIds : Nat → String × String} {m : Matching}
    (h : Filling book order m) (hend : m.step instrument newIds = none) :
    weight Fill.quantity m.fills = min order.quantity (depthWithin order.side order.limit (book.side order.side)) := by
  have hleft : 0 ≤ depthWithin order.side order.limit (m.book.side order.side) := by
    apply weight_nonneg
    intro l hl
    split
    · exact (h.kept l hl).le
    · exact le_rfl
  by_cases hdone : m.remaining ≤ 0
  · have hzero : m.remaining = 0 := le_antisymm hdone h.nonneg
    have hall : weight Fill.quantity m.fills = order.quantity := by
      rw [← h.remaining, hzero, zero_add]
    rw [hall, min_eq_left]
    rw [← h.depth, hall]
    linarith
  · have hnone : m.book.marketable m.order.side m.order.limit = none := by
      unfold Matching.step at hend
      rw [if_neg hdone] at hend
      cases hlevel : m.book.marketable m.order.side m.order.limit with
      | none => rfl
      | some level => simp [hlevel] at hend
    have hempty : depthWithin order.side order.limit (m.book.side order.side) = 0 := by
      unfold depthWithin weight
      apply List.sum_eq_zero
      intro q hq
      obtain ⟨l, hl, rfl⟩ := List.mem_map.mp hq
      rw [h.side, h.limit] at hnone
      rw [if_neg (OrderBook.beyond_of_marketable hnone hl)]
    rw [← h.depth, hempty, zero_add, min_eq_right]
    rw [← h.remaining]
    linarith [h.nonneg]

lemma SimulatedExchange.bookOf_symbol (symbol : String) : (ex.bookOf symbol).symbol = symbol := by
  unfold SimulatedExchange.bookOf
  cases hrow : row OrderBook.symbol symbol ex.books with
  | none => rfl
  | some book => exact (row_some hrow).2

lemma OrderBook.setSide_symbol (book : OrderBook) (taken : BookSide) (orderSide : OrderSide) :
    (book.setSide taken orderSide).symbol = book.symbol := by
  cases orderSide <;> rfl

variable (ex)

lemma SimulatedExchange.matchOrder_last (order : Order) (newIds : Nat → String × String) :
    ex.matchOrder order newIds = ({ (Matching.last ex order newIds).exchange with
        books := upsert OrderBook.symbol (Matching.last ex order newIds).book (Matching.last ex order newIds).exchange.books },
      (Matching.last ex order newIds).order, (Matching.last ex order newIds).fills) := rfl

/-- The loop ends, the fills are taken from the best levels on, and they are all of the order or all that
the book has within its limit. -/
theorem match_order_correct (hquantity : 0 < order.quantity) (hnew : order.filledQuantity = 0) (hopen : order.status ≠ .filled)
    (newIds : Nat → String × String) :
    let book := ex.bookOf order.symbol
    let matched := ex.matchOrder order newIds
    (Matching.last ex order newIds).step (ex.instrumentOf order.symbol) newIds = none ∧
      FilledFrom book order matched.2.2 (matched.1.bookOf order.symbol) matched.2.1 ∧
      weight Fill.quantity matched.2.2 = min order.quantity (depthWithin order.side order.limit (book.side order.side)) := by
  intro book matched
  have hend : (Matching.last ex order newIds).step (ex.instrumentOf order.symbol) newIds = none :=
    Matching.loop_ends le_rfl
  have hlast : Filling book order (Matching.last ex order newIds) := (Filling.start hquantity hnew hopen).loop _
  have hmatched : matched = _ := ex.matchOrder_last order newIds
  generalize Matching.last ex order newIds = m at hend hlast hmatched ⊢
  have hsymbol : m.book.symbol = order.symbol := by
    rw [hlast.rest, OrderBook.setSide_symbol]
    exact SimulatedExchange.bookOf_symbol order.symbol
  have hbook : matched.1.bookOf order.symbol = m.book := by
    rw [hmatched, SimulatedExchange.bookOf, ← hsymbol, row_upsert_self]
    rfl
  rw [hbook, hmatched]
  exact ⟨hend, hlast.toFilledFrom, hlast.total hend⟩

/-- A limit order for 3 takes one level of the seeded book, and another in part. -/
theorem match_order_two_levels :
    let asks : BookSide := (({} : BookSide).put ⟨101, 2⟩ (by decide +kernel)).put ⟨100, 2⟩ (by decide +kernel)
    let ex : SimulatedExchange := { balances := [], instruments := [], books := [{ symbol := "BTCUSDT", asks := asks }] }
    let order : Order := { internalOrderId := "o1", clientOrderId := "c1", symbol := "BTCUSDT", side := .buy,
                           price := some 102, quantity := 3, status := .acknowledged }
    let matched := ex.matchOrder order (fun n => (s!"f{n}", s!"t{n}"))
    FilledFrom (ex.bookOf "BTCUSDT") order matched.2.2 (matched.1.bookOf "BTCUSDT") matched.2.1 := by
  intro asks ex order matched
  have hquantity : 0 < order.quantity := by decide +kernel
  have hopen : order.status ≠ .filled := by decide
  exact (match_order_correct ex hquantity rfl hopen (fun n => (s!"f{n}", s!"t{n}"))).2.1

end Matched

end CryptoTrader
