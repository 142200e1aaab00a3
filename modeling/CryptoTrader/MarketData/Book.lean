import CryptoTrader.Simulator.OrderBook

/-!
# Sequenced order books

`market_data/orderbook.py` with its sequence number and status. A side is read as the
depth it shows: the quantity at each price, zero where it has no level. Every update sets
the depth at one price.
-/

namespace CryptoTrader

open KeyedTable

/-- Prices with their new quantities. -/
abbrev Updates := List (ℚ × ℚ)

/-- The depth after updates. -/
def setDepths (depth : ℚ → ℚ) (updates : Updates) : ℚ → ℚ :=
  updates.foldl (fun d u => Function.update d u.1 u.2) depth

/-- No quantity is negative. -/
def NonNegative (updates : Updates) : Prop :=
  ∀ u ∈ updates, 0 ≤ u.2

namespace BookSide

variable (side : BookSide)

/-- The quantity at a price. -/
def depth (price : ℚ) : ℚ :=
  ((row BookLevel.price price side.levels).map BookLevel.quantity).getD 0

lemma depth_empty : (({} : BookSide)).depth = fun _ => 0 := by
  funext price
  rfl

lemma depth_put (l : BookLevel) (h : 0 < l.quantity) :
    (side.put l h).depth = Function.update side.depth l.price l.quantity := by
  funext price
  by_cases hp : price = l.price
  · subst hp
    simp only [depth, put, row_upsert_self, Option.map_some, Option.getD_some, Function.update_self]
  · simp only [depth, put, row_upsert_of_ne side.levels hp, Function.update_of_ne hp]

lemma depth_pop (price : ℚ) : (side.pop price).depth = Function.update side.depth price 0 := by
  funext price'
  by_cases hp : price' = price
  · subst hp
    simp only [depth, pop, row_filter_self, Option.map_none, Option.getD_none, Function.update_self]
  · simp only [depth, pop, row_filter_of_ne side.levels hp, Function.update_of_ne hp]

lemma mem_levels_iff (l : BookLevel) : l ∈ side.levels ↔ 0 < l.quantity ∧ side.depth l.price = l.quantity := by
  constructor
  · intro hl
    refine ⟨side.positive l hl, ?_⟩
    rw [depth, row_of_mem side.unique hl]
    rfl
  · rintro ⟨hpos, hdepth⟩
    simp only [depth] at hdepth
    cases hr : row BookLevel.price l.price side.levels with
    | none =>
      rw [hr] at hdepth
      exact absurd hdepth hpos.ne
    | some l' =>
      rw [hr] at hdepth
      obtain ⟨hmem, hprice⟩ := row_some hr
      have heq : l' = l := by
        cases l'
        cases l
        simp_all
      rwa [← heq]

end BookSide

/-- `_upsert`: the updates before a negative quantity stay. -/
def upsertLevels : BookSide → Updates → Except TradingError Unit × BookSide
  | side, [] => (.ok (), side)
  | side, (price, quantity) :: updates =>
    if hneg : quantity < 0 then (.error (.valueError "orderbook quantity must be non-negative"), side)
    else if hzero : quantity = 0 then upsertLevels (side.pop price) updates
    else upsertLevels (side.put ⟨price, quantity⟩ (lt_of_le_of_ne (not_lt.mp hneg) (Ne.symm hzero))) updates

lemma upsertLevels_ok {updates : Updates} (h : NonNegative updates) (side : BookSide) :
    ∃ side', upsertLevels side updates = (.ok (), side') ∧ side'.depth = setDepths side.depth updates := by
  induction updates generalizing side with
  | nil => exact ⟨side, rfl, rfl⟩
  | cons u updates ih =>
    obtain ⟨price, quantity⟩ := u
    have hq : ¬ quantity < 0 := not_lt.mpr (h (price, quantity) (by simp))
    have hrest : NonNegative updates := fun u hu => h u (List.mem_cons_of_mem _ hu)
    rw [upsertLevels, dif_neg hq]
    by_cases hzero : quantity = 0
    · rw [dif_pos hzero]
      obtain ⟨side', hside, hdepth⟩ := ih hrest (side.pop price)
      refine ⟨side', hside, ?_⟩
      rw [hdepth, BookSide.depth_pop, hzero]
      rfl
    · rw [dif_neg hzero]
      obtain ⟨side', hside, hdepth⟩ := ih hrest _
      refine ⟨side', hside, ?_⟩
      rw [hdepth, BookSide.depth_put]
      rfl

/-- One numbered change of a book. -/
structure Delta where
  sequence : ℤ
  bids : Updates
  asks : Updates
  deriving DecidableEq, Repr

structure SequencedBook extends OrderBook where
  sequence : Option ℤ := none
  status : MarketDataStatus := .healthy
  deriving DecidableEq

namespace SequencedBook

variable (book : SequencedBook)

/-- Both sides are updated, the bids first. -/
def upsertSides (bids asks : Updates) : Except TradingError Unit × SequencedBook :=
  match upsertLevels book.bids bids with
  | (.error e, side) => (.error e, { book with bids := side })
  | (.ok (), side) =>
    let (result, side') := upsertLevels book.asks asks
    (result, { book with bids := side, asks := side' })

def applySnapshot (sequence : ℤ) (bids asks : Updates) : Except TradingError Unit × SequencedBook :=
  match ({ book with sequence := some sequence, bids := {}, asks := {} } : SequencedBook).upsertSides bids asks with
  | (.error e, book') => (.error e, book')
  | (.ok (), book') => (.ok (), { book' with status := .healthy })

def applyDelta (x : Delta) : Except TradingError Unit × SequencedBook :=
  match book.sequence with
  | some n =>
    if x.sequence ≠ n + 1 then
      (.error (.sequenceGap s!"{book.symbol} sequence gap: expected {n + 1}, got {x.sequence}"), book)
    else change
  | none => change
where
  change : Except TradingError Unit × SequencedBook :=
    match book.upsertSides x.bids x.asks with
    | (.error e, book') => (.error e, book')
    | (.ok (), book') => (.ok (), { book' with sequence := some x.sequence })

def invalidate : SequencedBook :=
  { book with status := .unhealthy, sequence := none, bids := {}, asks := {} }

end SequencedBook

end CryptoTrader
