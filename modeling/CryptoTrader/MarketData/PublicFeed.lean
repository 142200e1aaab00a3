import CryptoTrader.Domain.Money
import CryptoTrader.MarketData.Book
import CryptoTrader.MarketData.NewRiskGate

/-!
# The public feed of a symbol

`OKXPublicMarketFeed` of `market_data/public_feed.py` on the market state of `market_data/state.py`. A
refresh asks for the ticker and the order book, then for the mark price, the index, the funding and the
open interest, and writes the state in between; if anything raises it invalidates the state. Refreshes
of one feed interleave where they wait.
-/

namespace CryptoTrader

open Runs

/-- The market state with the fields that the gate does not read. -/
structure FeedState extends MarketState where
  price : ℚ := 0
  indexPrice : ℚ := 0
  spread : ℚ := 0
  depth : ℚ := 0
  imbalance : ℚ := 0
  volume : ℚ := 0
  bestBidSize : Option ℚ := none
  bestAskSize : Option ℚ := none
  lastSize : Option ℚ := none
  volume24h : Option ℚ := none
  volumeCcy24h : Option ℚ := none
  open24h : Option ℚ := none
  high24h : Option ℚ := none
  low24h : Option ℚ := none
  priceChange24h : Option ℚ := none
  priceChangePercent24h : Option ℚ := none
  openUtc0 : Option ℚ := none
  openUtc8 : Option ℚ := none
  fundingRate : Option ℚ := none
  nextFundingTime : Option ℚ := none
  openInterest : Option ℚ := none
  openInterestCcy : Option ℚ := none
  openInterestUsd : Option ℚ := none
  openInterestChange : Option ℚ := none
  basis : Option ℚ := none
  timestamp : Option ℚ := none
  exchangeTimestamp : Option ℚ := none
  receivedTimestamp : Option ℚ := none
  version : ℕ := 0

/-- `get_ticker`: the last price, or the exception that `D` raises for it, and what `_optional_decimal` makes of the rest. -/
structure Ticker where
  last : Except String ℚ
  open24h : Option ℚ := none
  high24h : Option ℚ := none
  low24h : Option ℚ := none
  volume24h : Option ℚ := none
  volumeCcy24h : Option ℚ := none
  lastSize : Option ℚ := none
  bidSize : Option ℚ := none
  askSize : Option ℚ := none
  openUtc0 : Option ℚ := none
  openUtc8 : Option ℚ := none

/-- The mark price, the index, the funding and the open interest, with the exceptions of the conversions that are not caught. -/
structure Derivatives where
  markPrice : Except String ℚ
  indexPrice : Except String ℚ
  fundingRate : Option ℚ := none
  fundingTime : Except String (Option ℚ) := .ok none
  openInterest : Option ℚ := none
  openInterestCcy : Option ℚ := none
  openInterestUsd : Option ℚ := none

namespace FeedState

variable (s : FeedState)

def compute24hChange : FeedState :=
  match s.open24h with
  | some opened =>
    if 0 < opened then
      { s with
        priceChange24h := some (s.price - opened)
        priceChangePercent24h := some (divide (s.price - opened) opened)
        version := s.version + 1 }
    else { s with priceChange24h := none, priceChangePercent24h := none, version := s.version + 1 }
  | none => { s with priceChange24h := none, priceChangePercent24h := none, version := s.version + 1 }

def computeBasis : FeedState :=
  { s with
    basis := if 0 < s.indexPrice then some (divide (s.markPrice - s.indexPrice) s.indexPrice) else none
    version := s.version + 1 }

/-- `_healthy`, of several sources. -/
def markHealthy (names : List String) (now : ℚ) : FeedState :=
  { s with
    sources := names.foldl
      (fun sources name => sources.alter name (fun _ => { status := .healthy, updatedAt := some (.aware now) })) s.sources }

/-- The best prices of the sides of a book, 0 for an empty side. -/
def setBest (bids asks : BookSide) : FeedState :=
  let book : OrderBook := { symbol := "", bids, asks }
  { s with
    bestBid := ((book.best .sell).map BookLevel.price).getD 0
    bestAsk := ((book.best .buy).map BookLevel.price).getD 0 }

/-- The assignments between the last price and the depth. -/
def setTicker (price : ℚ) (ticker : Ticker) : FeedState :=
  { s with
    price
    open24h := ticker.open24h
    high24h := ticker.high24h
    low24h := ticker.low24h
    volume24h := ticker.volume24h
    volumeCcy24h := ticker.volumeCcy24h
    volume := ticker.volume24h.getD 0
    lastSize := ticker.lastSize
    bestBidSize := ticker.bidSize
    bestAskSize := ticker.askSize
    openUtc0 := ticker.openUtc0
    openUtc8 := ticker.openUtc8 }

def setDepth (bids asks : BookSide) : FeedState :=
  let bidDepth := (bids.levels.map BookLevel.quantity).sum
  let askDepth := (asks.levels.map BookLevel.quantity).sum
  { s with
    spread := s.bestAsk - s.bestBid
    depth := bidDepth + askDepth
    imbalance := if 0 < bidDepth + askDepth then divide (bidDepth - askDepth) (bidDepth + askDepth) else s.imbalance }

end FeedState

structure OKXPublicMarketFeed where
  state : FeedState := {}
  oiPrev : Option ℚ := none

namespace OKXPublicMarketFeed

/-- `apply_snapshot` of the rows of an order book. -/
def sidesOf (rows : Except String (Updates × Updates)) : Except String (BookSide × BookSide) :=
  match rows with
  | .error name => .error name
  | .ok (bids, asks) =>
    match upsertLevels {} bids, upsertLevels {} asks with
    | (.ok _, bidSide), (.ok _, askSide) => .ok (bidSide, askSide)
    | _, _ => .error "ValueError"

/-- `refresh` from the answers for the ticker and the order book on, to where it waits again. -/
def readBook (now : ℚ) (ticker : Ticker) (rows : Except String (Updates × Updates)) (feed : OKXPublicMarketFeed) :
    Except String Unit × OKXPublicMarketFeed :=
  match sidesOf rows with
  | .error name => (.error name, feed)
  | .ok (bids, asks) =>
    let quoted := feed.state.setBest bids asks
    match ticker.last with
    | .error name => (.error name, { feed with state := quoted })
    | .ok price =>
      let state := ((quoted.setTicker price ticker).compute24hChange.setDepth bids asks).markHealthy ["ticker", "orderbook"] now
      (.ok (), { feed with state })

/-- What is left of a refresh when all answers are in. -/
def finish (now : ℚ) (s : FeedState) : FeedState :=
  let s := s.computeBasis
  let s := { s with timestamp := some now, exchangeTimestamp := some now, receivedTimestamp := some now }
  { s with toMarketState := s.toMarketState.markHealthyFromSources }

/-- `refresh` from the answer for the open interest on. -/
def readRest (now : ℚ) (d : Derivatives) (feed : OKXPublicMarketFeed) : Except String Unit × OKXPublicMarketFeed :=
  match d.markPrice with
  | .error name => (.error name, feed)
  | .ok markPrice =>
    let marked := { feed.state with markPrice }
    match d.indexPrice with
    | .error name => (.error name, { feed with state := marked })
    | .ok indexPrice =>
      let funded := { marked with indexPrice, fundingRate := d.fundingRate }
      match d.fundingTime with
      | .error name => (.error name, { feed with state := funded })
      | .ok fundingTime =>
        let change := match d.openInterest, feed.oiPrev with
          | some current, some previous => some (current - previous)
          | _, _ => funded.openInterestChange
        let s := { funded with
          nextFundingTime := fundingTime.or funded.nextFundingTime
          openInterestChange := change
          openInterest := d.openInterest
          openInterestCcy := d.openInterestCcy
          openInterestUsd := d.openInterestUsd }
        (.ok (), {
          state := finish now (s.markHealthy ["mark_price", "index_price", "funding", "open_interest"] now)
          oiPrev := d.openInterest })

def invalidate (name : String) (feed : OKXPublicMarketFeed) : OKXPublicMarketFeed :=
  { feed with state :=
    { feed.state with toMarketState := feed.state.toMarketState.invalidate ("OKX_PUBLIC_UNAVAILABLE: " ++ name) } }

end OKXPublicMarketFeed

/-! ### Refreshes that interleave -/

/-- Where a refresh waits, with the time at which it began. -/
inductive RefreshPhase where
  | idle
  | asking (now : ℚ)
  | reading (now : ℚ)
  deriving DecidableEq, Repr

structure FeedRun where
  feed : OKXPublicMarketFeed := {}
  phase : ℕ → RefreshPhase := fun _ => .idle

/-- A step of one of the refreshes. A refresh that is cancelled does not get to its `except`. -/
inductive FeedStep where
  | refresh (task : ℕ) (now : ℚ)
  | book (task : ℕ) (ticker : Ticker) (rows : Except String (Updates × Updates))
  | rest (task : ℕ) (derivatives : Derivatives)
  | raise (task : ℕ) (name : String)
  | cancel (task : ℕ)

/-- What a step has read, with the time at which its refresh began, or that the refresh has failed. -/
inductive Reading where
  | book (now : ℚ)
  | rest (now : ℚ) (openInterest : Option ℚ)
  | failed
  deriving DecidableEq, Repr

namespace FeedRun

open OKXPublicMarketFeed

variable (s : FeedRun)

def moveTo (task : ℕ) (phase : RefreshPhase) : FeedRun :=
  { s with phase := Function.update s.phase task phase }

/-- The `except` of a refresh. -/
def fail (task : ℕ) (name : String) (feed : OKXPublicMarketFeed) : FeedRun × Option Reading :=
  ({ s.moveTo task .idle with feed := feed.invalidate name }, some .failed)

/-- A step, with what it has read. A step that its refresh is not waiting for does nothing. -/
def exec : FeedStep → FeedRun × Option Reading
  | .refresh task now =>
    match s.phase task with
    | .idle => (s.moveTo task (.asking now), none)
    | _ => (s, none)
  | .book task ticker rows =>
    match s.phase task with
    | .asking now =>
      match readBook now ticker rows s.feed with
      | (.ok _, feed) => ({ s.moveTo task (.reading now) with feed }, some (.book now))
      | (.error name, feed) => s.fail task name feed
    | _ => (s, none)
  | .rest task derivatives =>
    match s.phase task with
    | .reading now =>
      match readRest now derivatives s.feed with
      | (.ok _, feed) => ({ s.moveTo task .idle with feed }, some (.rest now derivatives.openInterest))
      | (.error name, feed) => s.fail task name feed
    | _ => (s, none)
  | .raise task name => if s.phase task = .idle then (s, none) else s.fail task name s.feed
  | .cancel task => (s.moveTo task .idle, none)

def step (i : FeedStep) : FeedRun :=
  (s.exec i).1

/-- What the steps of a run have read, in order. -/
def readings : FeedRun → List FeedStep → List Reading
  | _, [] => []
  | s, i :: steps => (s.exec i).2.toList ++ readings (s.step i) steps

end FeedRun

end CryptoTrader
