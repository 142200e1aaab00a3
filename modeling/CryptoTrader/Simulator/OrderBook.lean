import CryptoTrader.Domain.Models
import CryptoTrader.Lib.KeyedTable
import Mathlib.Algebra.Order.Ring.Rat
import Mathlib.Data.List.MinMax

/-!
# Order books

The levels of `market_data/orderbook.py`. `_upsert` keys the levels of a side by their price
and keeps none without quantity.
-/

namespace CryptoTrader

open KeyedTable

structure BookLevel where
  price : ℚ
  quantity : ℚ
  deriving DecidableEq, Repr

lemma positive_of_no_levels : ∀ l ∈ ([] : List BookLevel), 0 < l.quantity :=
  List.forall_mem_nil _

/-- The levels of one side. -/
structure BookSide where
  levels : List BookLevel := []
  unique : (levels.map BookLevel.price).Nodup := by exact List.nodup_nil
  positive : ∀ l ∈ levels, 0 < l.quantity := by exact positive_of_no_levels
  deriving DecidableEq

namespace BookSide

variable (side : BookSide)

/-- A level replaces the one of its price. -/
def put (l : BookLevel) (h : 0 < l.quantity) : BookSide where
  levels := upsert BookLevel.price l side.levels
  unique := nodup_upsert side.unique l
  positive := by
    intro l' hl'
    rcases mem_upsert hl' with rfl | hl'
    · exact h
    · exact side.positive l' hl'

/-- The level of a price is taken out. -/
def pop (price : ℚ) : BookSide where
  levels := side.levels.filter (fun l => l.price ≠ price)
  unique := nodup_filter side.unique _
  positive := fun l hl => side.positive l (List.mem_of_mem_filter hl)

/-- What is left of a level of which `quantity` is consumed. -/
def consume (l : BookLevel) (quantity : ℚ) : BookSide :=
  if h : quantity < l.quantity then
    side.put ⟨l.price, l.quantity - quantity⟩ (sub_pos.mpr h)
  else side.pop l.price

lemma pop_length_lt {l : BookLevel} (hl : l ∈ side.levels) : (side.pop l.price).levels.length < side.levels.length := by
  apply List.length_filter_lt_length_iff_exists.mpr
  exact ⟨l, hl, by simp⟩

end BookSide

structure OrderBook where
  symbol : String
  bids : BookSide := {}
  asks : BookSide := {}
  deriving DecidableEq

namespace OrderBook

variable (book : OrderBook)

/-- The side an order takes from. -/
def side : OrderSide → BookSide
  | .buy => book.asks
  | .sell => book.bids

def setSide (taken : BookSide) : OrderSide → OrderBook
  | .buy => { book with asks := taken }
  | .sell => { book with bids := taken }

/-- `best_ask` for a buy, `best_bid` for a sale. -/
def best : OrderSide → Option BookLevel
  | .buy => book.asks.levels.argmin BookLevel.price
  | .sell => book.bids.levels.argmax BookLevel.price

/-- The level that the loop of `_match_order` takes next: the best one, unless it is beyond
the limit. -/
def marketable (orderSide : OrderSide) (limit : Option ℚ) : Option BookLevel :=
  match book.best orderSide, limit with
  | none, _ => none
  | some level, none => some level
  | some level, some price =>
    match orderSide with
    | .buy => if price < level.price then none else some level
    | .sell => if level.price < price then none else some level

@[simp] lemma side_setSide (taken : BookSide) (orderSide : OrderSide) : (book.setSide taken orderSide).side orderSide = taken := by
  cases orderSide <;> rfl

variable {book} {orderSide : OrderSide} {level : BookLevel}

lemma best_mem (h : book.best orderSide = some level) : level ∈ (book.side orderSide).levels := by
  cases orderSide with
  | buy => exact List.argmin_mem h
  | sell => exact List.argmax_mem h

lemma marketable_best {limit : Option ℚ} (h : book.marketable orderSide limit = some level) :
    book.best orderSide = some level := by
  unfold marketable at h
  cases hbest : book.best orderSide with
  | none => simp [hbest] at h
  | some l =>
    rw [hbest] at h
    cases limit with
    | none => exact h
    | some price =>
      dsimp only at h
      cases orderSide with
      | buy =>
        dsimp only at h
        by_cases hbeyond : price < l.price
        · simp [hbeyond] at h
        · rwa [if_neg hbeyond] at h
      | sell =>
        dsimp only at h
        by_cases hbeyond : l.price < price
        · simp [hbeyond] at h
        · rwa [if_neg hbeyond] at h

end OrderBook

/-- `seed_book`, with its default mid price, spread and depth. -/
def seedBook (symbol : String) : OrderBook where
  symbol := symbol
  bids := (List.range 5).foldl (fun side i => side.put ⟨100 - 1 / 20 * (i + 1), 1⟩ one_pos) {}
  asks := (List.range 5).foldl (fun side i => side.put ⟨100 + 1 / 20 * (i + 1), 1⟩ one_pos) {}

end CryptoTrader
