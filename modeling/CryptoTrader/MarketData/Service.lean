import CryptoTrader.MarketData.Book
import CryptoTrader.Lib.Runs
import Mathlib.Data.Nat.Cast.Order.Ring

/-!
# Market data

`market_data/service.py`: a book is taken from snapshots and kept up by deltas. The one
place where a call waits is the snapshot provider's answer; other calls run meanwhile, and
what is left of the waiting call is its continuation. A snapshot is a value: an
`OrderBook` the provider hands over is not changed by the provider afterwards.

The exchange's book evolves by numbered deltas. Whatever the order of the calls, a healthy
book shows the exchange's book at its sequence number (`healthy_book_mirrors`).
-/

namespace CryptoTrader

/-- The book, the status and the buffer of a symbol. -/
structure SymbolFeed where
  book : SequencedBook
  status : MarketDataStatus
  buffer : List Delta
  deriving DecidableEq

/-- What the provider answers with: the dictionary form, or an `OrderBook`. -/
inductive Snapshot where
  | levels (sequence : ℤ) (bids asks : Updates)
  | orderBook (book : SequencedBook)
  deriving DecidableEq

/-- What is left of a call that waits for the provider. -/
inductive Continuation where
  | resync
  /-- `ingest_delta` of a book without a sequence. -/
  | firstDelta (x : Delta)
  /-- `_handle_gap` within `ingest_delta`. -/
  | gap
  deriving DecidableEq, Repr

/-- How far a call gets. -/
inductive Progress where
  | returned
  | raised (e : TradingError)
  | awaiting (k : Continuation)
  deriving DecidableEq, Repr

namespace SymbolFeed

variable (d : SymbolFeed)

def setStatus (status : MarketDataStatus) : SymbolFeed :=
  { d with status := status, book := { d.book with status := status } }

/-- The book is invalidated and the symbol unhealthy. -/
def invalidated : SymbolFeed :=
  ({ d with book := d.book.invalidate } : SymbolFeed).setStatus .unhealthy

/-- The loop over the buffer in `ingest_snapshot`. -/
def replay : List Delta → SymbolFeed → Except TradingError Unit × SymbolFeed
  | [], d => (.ok (), { d with buffer := [] })
  | x :: rest, d =>
    match d.book.applyDelta x with
    | (.ok (), book) => replay rest { d with book := book }
    | (.error (.sequenceGap message), book) =>
      (.error (.sequenceGap message), ({ d with book := book, buffer := rest } : SymbolFeed).invalidated)
    | (.error e, book) => (.error e, { d with book := book, buffer := rest })

def ingestSnapshot (sequence : ℤ) (bids asks : Updates) : Except TradingError Unit × SymbolFeed :=
  match d.book.applySnapshot sequence bids asks with
  | (.error e, book) => (.error e, { d with book := book })
  | (.ok (), book) =>
    let d' := ({ d with book := book } : SymbolFeed).setStatus .healthy
    replay d'.buffer d'

/-- `resync` up to the provider's answer. -/
def startResync (provider : Bool) (k : Continuation) : Progress × SymbolFeed :=
  let d' := d.setStatus .resyncing
  if provider then (.awaiting k, d')
  else (.raised (.marketDataUnhealthy s!"{d.book.symbol}: no snapshot provider configured"), d'.setStatus .unhealthy)

/-- `resync` from the provider's answer on; `none` is an exception. -/
def endResync : Option Snapshot → Except TradingError Unit × SymbolFeed
  | none => (.error (.marketDataUnhealthy s!"{d.book.symbol} resync failed"), d.setStatus .unhealthy)
  | some (.orderBook b) =>
    let book := { d.book with bids := b.bids, asks := b.asks, sequence := b.sequence }
    (.ok (), ({ d with book := book } : SymbolFeed).setStatus .healthy)
  | some (.levels sequence bids asks) =>
    match d.ingestSnapshot sequence bids asks with
    | (.error e, d') => (.error e, d')
    | (.ok (), d') => (.ok (), d'.setStatus .healthy)

/-- The end of `ingest_delta`: the delta is applied, or its gap handled. -/
def applyOrHandleGap (provider : Bool) (x : Delta) : Progress × SymbolFeed :=
  match d.book.applyDelta x with
  | (.ok (), book) => (.returned, ({ d with book := book } : SymbolFeed).setStatus book.status)
  | (.error (.sequenceGap _), book) =>
    (({ d with book := book.invalidate } : SymbolFeed).setStatus .resyncing).startResync provider .gap
  | (.error e, book) => (.raised e, { d with book := book })

/-- `ingest_delta`, up to the provider's answer where it asks for a snapshot. -/
def ingestDelta (provider : Bool) (x : Delta) : Progress × SymbolFeed :=
  if d.book.status = .resyncing then (.returned, { d with buffer := d.buffer ++ [x] })
  else if d.book.sequence = none then d.startResync provider (.firstDelta x)
  else d.applyOrHandleGap provider x

/-- A waiting call goes on with the provider's answer. -/
def resume (provider : Bool) (k : Continuation) (answer : Option Snapshot) : Progress × SymbolFeed :=
  match d.endResync answer with
  | (.error e, d') => (.raised e, d')
  | (.ok (), d') =>
    match k with
    | .resync => (.returned, d')
    | .firstDelta x =>
      if d'.book.sequence.map (· + 1) = some x.sequence then d'.applyOrHandleGap provider x
      else (.raised (.sequenceGap s!"{d.book.symbol} delta before valid snapshot or non-contiguous"), d'.invalidated)
    | .gap =>
      if d'.book.status ≠ .healthy then
        (.raised (.marketDataUnhealthy s!"{d.book.symbol} failed to resync after sequence gap"), d')
      else (.returned, d'.setStatus d'.book.status)

/-- The two statuses `is_healthy` reads. -/
def IsHealthy : Prop :=
  d.status = .healthy ∧ d.book.status = .healthy

instance decidableFeedHealthy : Decidable d.IsHealthy :=
  inferInstanceAs (Decidable (_ ∧ _))

end SymbolFeed

/-- The service and the calls that wait for the provider. -/
structure MarketDataService where
  feeds : String → Option SymbolFeed := fun _ => none
  pending : List (String × Continuation) := []

/-- A call, or the provider's answer to the waiting call at an index. -/
inductive FeedCall where
  | ingestSnapshot (symbol : String) (sequence : ℤ) (bids asks : Updates)
  | ingestDelta (symbol : String) (x : Delta)
  | resync (symbol : String)
  /-- `OrderBook.invalidate` of the symbol's book. -/
  | invalidate (symbol : String)
  | answered (index : Nat) (answer : Option Snapshot)
  deriving DecidableEq

namespace MarketDataService

variable (s : MarketDataService)

def ensureSymbol (symbol : String) : SymbolFeed :=
  (s.feeds symbol).getD { book := { symbol := symbol }, status := .unhealthy, buffer := [] }

/-- The symbol's record is written. -/
def write (symbol : String) (d : SymbolFeed) : MarketDataService :=
  { s with feeds := Function.update s.feeds symbol (some d) }

/-- A call has got as far as it gets: it may wait for the provider. -/
def proceed (symbol : String) : Progress × SymbolFeed → MarketDataService
  | (.awaiting k, d) => { s.write symbol d with pending := s.pending ++ [(symbol, k)] }
  | (_, d) => s.write symbol d

def step (provider : Bool) (s : MarketDataService) : FeedCall → MarketDataService
  | .ingestSnapshot symbol sequence bids asks =>
    s.write symbol ((s.ensureSymbol symbol).ingestSnapshot sequence bids asks).2
  | .ingestDelta symbol x => s.proceed symbol ((s.ensureSymbol symbol).ingestDelta provider x)
  | .resync symbol => s.proceed symbol ((s.ensureSymbol symbol).startResync provider .resync)
  | .invalidate symbol =>
    match s.feeds symbol with
    | none => s
    | some d => s.write symbol { d with book := d.book.invalidate }
  | .answered index answer =>
    match s.pending[index]? with
    | none => s
    | some (symbol, k) =>
      ({ s with pending := s.pending.eraseIdx index } : MarketDataService).proceed symbol
        ((s.ensureSymbol symbol).resume provider k answer)

end MarketDataService

/-! ### The exchange's book -/

/-- A book that evolves by numbered deltas. -/
structure ExchangeFeed where
  bids : ℤ → ℚ → ℚ
  asks : ℤ → ℚ → ℚ
  delta : ℤ → Delta
  numbered : ∀ n, (delta n).sequence = n
  nonNegative : ∀ n, NonNegative (delta n).bids ∧ NonNegative (delta n).asks
  evolves : ∀ n, bids (n + 1) = setDepths (bids n) (delta (n + 1)).bids ∧
    asks (n + 1) = setDepths (asks n) (delta (n + 1)).asks

namespace ExchangeFeed

variable (ex : ExchangeFeed)

/-- The book shows the exchange's book at `n`. -/
def Shows (book : OrderBook) (n : ℤ) : Prop :=
  book.bids.depth = ex.bids n ∧ book.asks.depth = ex.asks n

/-- The book shows the exchange's book at its sequence number, if it has one. -/
def Tracks (book : SequencedBook) : Prop :=
  ∀ n, book.sequence = some n → ex.Shows book.toOrderBook n

/-- The levels of a snapshot are the exchange's book at `n`. -/
def ShowsLevels (n : ℤ) (bids asks : Updates) : Prop :=
  (NonNegative bids ∧ NonNegative asks) ∧
    setDepths (fun _ => 0) bids = ex.bids n ∧ setDepths (fun _ => 0) asks = ex.asks n

def Exact : Snapshot → Prop
  | .levels n bids asks => ex.ShowsLevels n bids asks
  | .orderBook book => ex.Tracks book ∧ book.sequence ≠ none

/-- The delta is the exchange's delta of its number. -/
def Issued (x : Delta) : Prop :=
  ex.delta x.sequence = x

variable {ex}

lemma upsertSides_ok (book : SequencedBook) {bids asks : Updates} (hb : NonNegative bids) (ha : NonNegative asks) :
    ∃ bidSide askSide, book.upsertSides bids asks = (.ok (), { book with bids := bidSide, asks := askSide }) ∧
      bidSide.depth = setDepths book.bids.depth bids ∧ askSide.depth = setDepths book.asks.depth asks := by
  obtain ⟨bidSide, hbids, hbdepth⟩ := upsertLevels_ok hb book.bids
  obtain ⟨askSide, hasks, hadepth⟩ := upsertLevels_ok ha book.asks
  exact ⟨bidSide, askSide, by simp only [SequencedBook.upsertSides, hbids, hasks], hbdepth, hadepth⟩

lemma applySnapshot_tracks (book : SequencedBook) {n : ℤ} {bids asks : Updates} (h : ex.ShowsLevels n bids asks) :
    ∃ book', book.applySnapshot n bids asks = (.ok (), book') ∧ ex.Tracks book' ∧ book'.sequence = some n := by
  obtain ⟨⟨hb, ha⟩, hbids, hasks⟩ := h
  obtain ⟨bidSide, askSide, hup, hbdepth, hadepth⟩ :=
    upsertSides_ok { book with sequence := some n, bids := {}, asks := {} } hb ha
  refine ⟨{ book with sequence := some n, bids := bidSide, asks := askSide, status := .healthy },
    by simp only [SequencedBook.applySnapshot, hup], ?_, rfl⟩
  intro m hm
  cases hm
  rw [BookSide.depth_empty] at hbdepth hadepth
  exact ⟨hbdepth.trans hbids, hadepth.trans hasks⟩

lemma applyDelta_tracks {book : SequencedBook} (ht : ex.Tracks book) {m : ℤ} (hm : book.sequence = some m)
    {x : Delta} (hx : ex.Issued x) :
    (∃ book', book.applyDelta x = (.ok (), book') ∧ ex.Tracks book' ∧ book'.sequence = some x.sequence) ∨
      ∃ message, book.applyDelta x = (.error (.sequenceGap message), book) := by
  by_cases hgap : x.sequence = m + 1
  · left
    have hnonneg := ex.nonNegative x.sequence
    rw [hx] at hnonneg
    obtain ⟨bidSide, askSide, hup, hbdepth, hadepth⟩ := upsertSides_ok book hnonneg.1 hnonneg.2
    refine ⟨{ book with bids := bidSide, asks := askSide, sequence := some x.sequence }, ?_, ?_, rfl⟩
    · simp only [SequencedBook.applyDelta, hm, hgap, ne_eq, not_true_eq_false, if_false,
        SequencedBook.applyDelta.change, hup]
    · intro n hn
      obtain ⟨hbids, hasks⟩ := ht m hm
      have hxn : n = m + 1 := (Option.some.inj hn).symm.trans hgap
      obtain ⟨hbnext, hanext⟩ := ex.evolves m
      rw [← hgap, hx] at hbnext hanext
      rw [hxn, ← hgap]
      exact ⟨by rw [hbdepth, hbids, hbnext], by rw [hadepth, hasks, hanext]⟩
  · right
    simp only [SequencedBook.applyDelta, hm, ne_eq, hgap, not_false_eq_true, if_true]
    exact ⟨_, rfl⟩

lemma tracks_invalidate (book : SequencedBook) : ex.Tracks book.invalidate := by
  intro n hn
  cases hn

end ExchangeFeed

/-! ### The mirror -/

/-- What holds of a symbol between the calls. -/
structure FeedMirrors (ex : ExchangeFeed) (d : SymbolFeed) : Prop where
  tracks : ex.Tracks d.book
  sequenced : d.IsHealthy → d.book.sequence ≠ none
  issued : ∀ x ∈ d.buffer, ex.Issued x

/-- A waiting call carries a delta of the exchange, if any. -/
def CarriesIssued (ex : ExchangeFeed) : Continuation → Prop
  | .firstDelta x => ex.Issued x
  | .resync | .gap => True

/-- The call leaves a mirror, and what is left of it if it waits is sound. -/
def LeavesMirror (ex : ExchangeFeed) (p : Progress × SymbolFeed) : Prop :=
  FeedMirrors ex p.2 ∧ ∀ k, p.1 = .awaiting k → CarriesIssued ex k

namespace SymbolFeed

variable {ex : ExchangeFeed} {d : SymbolFeed}

lemma mirrors_setStatus (h : FeedMirrors ex d) {status : MarketDataStatus}
    (hs : status = .healthy → d.book.sequence ≠ none) : FeedMirrors ex (d.setStatus status) :=
  ⟨h.tracks, fun hd => hs hd.1, h.issued⟩

lemma mirrors_invalidated (h : ∀ x ∈ d.buffer, ex.Issued x) : FeedMirrors ex d.invalidated := by
  refine ⟨ExchangeFeed.tracks_invalidate d.book, fun hd => ?_, h⟩
  cases hd.1

/-- The book is replaced by one that shows the exchange's book at its number. -/
lemma mirrors_book (h : ∀ x ∈ d.buffer, ex.Issued x) {book : SequencedBook} (ht : ex.Tracks book)
    (hs : book.sequence ≠ none) : FeedMirrors ex { d with book := book } :=
  ⟨ht, fun _ => hs, h⟩

lemma mirrors_replay {buffer : List Delta} (hb : ∀ x ∈ buffer, ex.Issued x) (ht : ex.Tracks d.book)
    (hs : d.book.sequence ≠ none) :
    FeedMirrors ex (replay buffer d).2 ∧ ((replay buffer d).1 = .ok () → (replay buffer d).2.book.sequence ≠ none) := by
  induction buffer generalizing d with
  | nil => exact ⟨⟨ht, fun _ => hs, by simp [replay]⟩, fun _ => hs⟩
  | cons x rest ih =>
    have hrest : ∀ y ∈ rest, ex.Issued y := fun y hy => hb y (List.mem_cons_of_mem x hy)
    obtain ⟨m, hm⟩ := Option.ne_none_iff_exists'.mp hs
    rcases ExchangeFeed.applyDelta_tracks ht hm (hb x (by simp)) with ⟨book, ha, ht', hs'⟩ | ⟨message, ha⟩
    · rw [replay, ha]
      exact ih hrest ht' (by simp [hs'])
    · rw [replay, ha]
      refine ⟨mirrors_invalidated hrest, fun h => ?_⟩
      cases h

lemma mirrors_ingestSnapshot (h : FeedMirrors ex d) {n : ℤ} {bids asks : Updates} (hx : ex.ShowsLevels n bids asks) :
    FeedMirrors ex (d.ingestSnapshot n bids asks).2 ∧
      ((d.ingestSnapshot n bids asks).1 = .ok () → (d.ingestSnapshot n bids asks).2.book.sequence ≠ none) := by
  obtain ⟨book, ha, ht, hs⟩ := ExchangeFeed.applySnapshot_tracks d.book hx
  rw [ingestSnapshot, ha]
  exact mirrors_replay h.issued ht (by simp [setStatus, hs])

lemma mirrors_startResync (h : FeedMirrors ex d) (provider : Bool) {k : Continuation} (hk : CarriesIssued ex k) :
    LeavesMirror ex (d.startResync provider k) := by
  have hresyncing : FeedMirrors ex (d.setStatus .resyncing) := mirrors_setStatus h (by simp)
  cases provider with
  | true =>
    refine ⟨hresyncing, fun k' hk' => ?_⟩
    cases hk'
    exact hk
  | false => exact ⟨mirrors_setStatus hresyncing (by simp), fun k' hk' => by cases hk'⟩

lemma mirrors_endResync (h : FeedMirrors ex d) {answer : Option Snapshot} (hx : ∀ x, answer = some x → ex.Exact x) :
    FeedMirrors ex (d.endResync answer).2 ∧
      ((d.endResync answer).1 = .ok () → (d.endResync answer).2.book.sequence ≠ none) := by
  cases answer with
  | none =>
    refine ⟨mirrors_setStatus h (by simp), fun hok => ?_⟩
    cases hok
  | some x =>
    cases x with
    | orderBook b =>
      obtain ⟨ht, hs⟩ := hx _ rfl
      have htracks : ex.Tracks { d.book with bids := b.bids, asks := b.asks, sequence := b.sequence } := ht
      exact ⟨mirrors_setStatus (mirrors_book h.issued htracks hs) (fun _ => hs), fun _ => hs⟩
    | levels n bids asks =>
      obtain ⟨hm, hs⟩ := mirrors_ingestSnapshot h (hx _ rfl)
      simp only [endResync]
      rcases hi : d.ingestSnapshot n bids asks with ⟨e | u, d'⟩
      · rw [hi] at hm
        exact ⟨hm, fun hok => by cases hok⟩
      · rw [hi] at hm hs
        exact ⟨mirrors_setStatus hm (fun _ => hs rfl), fun _ => hs rfl⟩

lemma mirrors_applyOrHandleGap (h : FeedMirrors ex d) (hs : d.book.sequence ≠ none) (provider : Bool) {x : Delta}
    (hx : ex.Issued x) : LeavesMirror ex (d.applyOrHandleGap provider x) := by
  obtain ⟨m, hm⟩ := Option.ne_none_iff_exists'.mp hs
  rcases ExchangeFeed.applyDelta_tracks h.tracks hm hx with ⟨book, ha, ht, hs'⟩ | ⟨message, ha⟩
  · rw [applyOrHandleGap, ha]
    have hsome : book.sequence ≠ none := by simp [hs']
    exact ⟨mirrors_setStatus (mirrors_book h.issued ht hsome) (fun _ => hsome), fun k hk => by cases hk⟩
  · rw [applyOrHandleGap, ha]
    have hinvalid : FeedMirrors ex (({ d with book := d.book.invalidate } : SymbolFeed).setStatus .resyncing) := by
      refine ⟨ExchangeFeed.tracks_invalidate d.book, fun hd => ?_, h.issued⟩
      cases hd.1
    exact mirrors_startResync hinvalid provider trivial

lemma mirrors_ingestDelta (h : FeedMirrors ex d) (provider : Bool) {x : Delta} (hx : ex.Issued x) :
    LeavesMirror ex (d.ingestDelta provider x) := by
  rw [ingestDelta]
  by_cases hr : d.book.status = .resyncing
  · rw [if_pos hr]
    refine ⟨⟨h.tracks, h.sequenced, fun y hy => ?_⟩, fun k hk => by cases hk⟩
    rcases List.mem_append.mp hy with hy | hy
    · exact h.issued y hy
    · rwa [List.mem_singleton.mp hy]
  · rw [if_neg hr]
    by_cases hs : d.book.sequence = none
    · rw [if_pos hs]
      exact mirrors_startResync h provider hx
    · rw [if_neg hs]
      exact mirrors_applyOrHandleGap h hs provider hx

lemma mirrors_resume (h : FeedMirrors ex d) (provider : Bool) {k : Continuation} (hk : CarriesIssued ex k)
    {answer : Option Snapshot} (hx : ∀ x, answer = some x → ex.Exact x) :
    LeavesMirror ex (d.resume provider k answer) := by
  obtain ⟨hm, hs⟩ := mirrors_endResync h hx
  rw [resume]
  rcases he : d.endResync answer with ⟨e | u, d'⟩
  · rw [he] at hm
    exact ⟨hm, fun k' hk' => by cases hk'⟩
  · rw [he] at hm hs
    have hsome : d'.book.sequence ≠ none := hs rfl
    cases k with
    | resync => exact ⟨hm, fun k' hk' => by cases hk'⟩
    | firstDelta x =>
      dsimp only
      by_cases hnext : d'.book.sequence.map (· + 1) = some x.sequence
      · rw [if_pos hnext]
        exact mirrors_applyOrHandleGap hm hsome provider hk
      · rw [if_neg hnext]
        exact ⟨mirrors_invalidated hm.issued, fun k' hk' => by cases hk'⟩
    | gap =>
      dsimp only
      by_cases hstatus : d'.book.status ≠ .healthy
      · rw [if_pos hstatus]
        exact ⟨hm, fun k' hk' => by cases hk'⟩
      · rw [if_neg hstatus]
        exact ⟨mirrors_setStatus hm (fun _ => hsome), fun k' hk' => by cases hk'⟩

end SymbolFeed

namespace MarketDataService

variable {exchange : String → ExchangeFeed} {s : MarketDataService}

/-- Every symbol is a mirror, and what waits is sound. -/
structure Mirrored (exchange : String → ExchangeFeed) (s : MarketDataService) : Prop where
  feeds : ∀ symbol d, s.feeds symbol = some d → FeedMirrors (exchange symbol) d
  pending : ∀ p ∈ s.pending, CarriesIssued (exchange p.1) p.2

/-- The call or answer brings what the exchange has: its deltas, and snapshots that are its
book at their sequence number. -/
def Genuine (exchange : String → ExchangeFeed) (s : MarketDataService) : FeedCall → Prop
  | .ingestSnapshot symbol n bids asks => (exchange symbol).ShowsLevels n bids asks
  | .ingestDelta symbol x => (exchange symbol).Issued x
  | .answered index answer => ∀ symbol k, s.pending[index]? = some (symbol, k) →
      ∀ x, answer = some x → (exchange symbol).Exact x
  | .resync _ | .invalidate _ => True

lemma mirrors_ensureSymbol (h : Mirrored exchange s) (symbol : String) :
    FeedMirrors (exchange symbol) (s.ensureSymbol symbol) := by
  rw [ensureSymbol]
  cases hd : s.feeds symbol with
  | some d => exact h.feeds symbol d hd
  | none =>
    refine ⟨fun n hn => ?_, fun hd => ?_, fun x hx => ?_⟩
    · cases hn
    · cases hd.1
    · cases hx

lemma mirrored_write (h : Mirrored exchange s) {symbol : String} {d : SymbolFeed}
    (hd : FeedMirrors (exchange symbol) d) : Mirrored exchange (s.write symbol d) := by
  refine ⟨fun symbol' d' hd' => ?_, h.pending⟩
  by_cases hs : symbol' = symbol
  · subst hs
    simp only [write, Function.update_self, Option.some.injEq] at hd'
    rwa [← hd']
  · simp only [write, Function.update_of_ne hs] at hd'
    exact h.feeds symbol' d' hd'

lemma mirrored_proceed (h : Mirrored exchange s) {symbol : String} {p : Progress × SymbolFeed}
    (hp : LeavesMirror (exchange symbol) p) : Mirrored exchange (s.proceed symbol p) := by
  obtain ⟨progress, d⟩ := p
  have hw := mirrored_write h hp.1
  cases progress with
  | returned => exact hw
  | raised e => exact hw
  | awaiting k =>
    refine ⟨hw.feeds, fun q hq => ?_⟩
    rcases List.mem_append.mp hq with hq | hq
    · exact h.pending q hq
    · rw [List.mem_singleton.mp hq]
      exact hp.2 k rfl

lemma mirrored_step (provider : Bool) (s : MarketDataService) (c : FeedCall) (h : Mirrored exchange s)
    (hc : Genuine exchange s c) : Mirrored exchange (step provider s c) := by
  cases c with
  | ingestSnapshot symbol n bids asks =>
    exact mirrored_write h (SymbolFeed.mirrors_ingestSnapshot (mirrors_ensureSymbol h symbol) hc).1
  | ingestDelta symbol x =>
    exact mirrored_proceed h (SymbolFeed.mirrors_ingestDelta (mirrors_ensureSymbol h symbol) provider hc)
  | resync symbol =>
    exact mirrored_proceed h (SymbolFeed.mirrors_startResync (mirrors_ensureSymbol h symbol) provider trivial)
  | invalidate symbol =>
    simp only [step]
    cases hd : s.feeds symbol with
    | none => exact h
    | some d =>
      refine mirrored_write h ⟨ExchangeFeed.tracks_invalidate d.book, fun hh => ?_, (h.feeds symbol d hd).issued⟩
      cases hh.2
  | answered index answer =>
    simp only [step]
    cases hp : s.pending[index]? with
    | none => exact h
    | some p =>
      obtain ⟨symbol, k⟩ := p
      have hmem : (symbol, k) ∈ s.pending := List.mem_of_getElem? hp
      have herased : Mirrored exchange { s with pending := s.pending.eraseIdx index } :=
        ⟨h.feeds, fun q hq => h.pending q (List.mem_of_mem_eraseIdx hq)⟩
      exact mirrored_proceed herased
        (SymbolFeed.mirrors_resume (mirrors_ensureSymbol h symbol) provider (h.pending _ hmem) (hc symbol k hp))

def IsHealthy (s : MarketDataService) (symbol : String) : Prop :=
  ∃ d ∈ s.feeds symbol, d.IsHealthy

instance decidableServiceHealthy (s : MarketDataService) (symbol : String) : Decidable (s.IsHealthy symbol) :=
  inferInstanceAs (Decidable (∃ d ∈ s.feeds symbol, _))

/-- A healthy book shows the exchange's book at its sequence number, whatever the calls and
answers were and however they were interleaved. -/
theorem healthy_book_mirrors (provider : Bool) {calls : List FeedCall}
    (h : Runs.Along (step provider) (Genuine exchange) {} calls) (symbol : String)
    (hs : (Runs.run (step provider) {} calls).IsHealthy symbol) :
    ∃ d n, (Runs.run (step provider) {} calls).feeds symbol = some d ∧ d.book.sequence = some n ∧
      d.book.bids.depth = (exchange symbol).bids n ∧ d.book.asks.depth = (exchange symbol).asks n := by
  have hinit : Mirrored exchange {} := ⟨fun symbol d hd => (by cases hd), fun p hp => (by cases hp)⟩
  have hrun := Runs.run_invariant (mirrored_step provider) hinit h
  obtain ⟨d, hd, hhealthy⟩ := hs
  have hm := hrun.feeds symbol d hd
  obtain ⟨n, hn⟩ := Option.ne_none_iff_exists'.mp (hm.sequenced hhealthy)
  exact ⟨d, n, hd, hn, hm.tracks n hn⟩

end MarketDataService

/-- An exchange whose best bid changes its quantity with every delta. -/
def steppingExchange : ExchangeFeed where
  bids n := Function.update (fun _ => 0) 100 (n.natAbs + 1)
  asks _ := fun _ => 0
  delta n := ⟨n, [(100, n.natAbs + 1)], []⟩
  numbered _ := rfl
  nonNegative n := by
    refine ⟨fun u hu => ?_, fun u hu => by cases hu⟩
    rw [List.mem_singleton.mp hu]
    exact add_nonneg (Nat.cast_nonneg _) zero_le_one
  evolves n := ⟨by simp [setDepths], rfl⟩

/-- The exchange's book at 9. -/
def steppingBook : SequencedBook where
  symbol := "BTCUSDT"
  bids := ({} : BookSide).put ⟨100, 10⟩ (by decide +kernel)
  sequence := some 9

/-- A resync during which a delta is buffered, a delta, and a gap answered with a book. -/
def steppingCalls : List FeedCall :=
  [.resync "BTCUSDT", .ingestDelta "BTCUSDT" (steppingExchange.delta 6),
    .answered 0 (some (.levels 5 [(100, 6)] [])), .ingestDelta "BTCUSDT" (steppingExchange.delta 7),
    .ingestDelta "BTCUSDT" (steppingExchange.delta 9), .answered 0 (some (.orderBook steppingBook))]

lemma steppingCalls_genuine : Runs.Along (MarketDataService.step true)
    (MarketDataService.Genuine fun _ => steppingExchange) {} steppingCalls := by
  have hlevels : steppingExchange.ShowsLevels 5 [(100, 6)] [] := by
    refine ⟨⟨fun u hu => ?_, fun u hu => by cases hu⟩, ?_, rfl⟩
    · rw [List.mem_singleton.mp hu]
      decide +kernel
    · simp only [setDepths, List.foldl_cons, List.foldl_nil, steppingExchange]
      congr 1
      decide +kernel
  have hbook : steppingExchange.Exact (.orderBook steppingBook) := by
    refine ⟨fun n hn => ?_, by decide⟩
    obtain rfl : 9 = n := Option.some.inj hn
    refine ⟨?_, rfl⟩
    rw [steppingBook, BookSide.depth_put, BookSide.depth_empty]
    simp only [steppingExchange]
    congr 1
    decide +kernel
  refine ⟨trivial, rfl, fun symbol k _ x hx => ?_, rfl, rfl, fun symbol k _ x hx => ?_, trivial⟩
  · cases hx
    exact hlevels
  · cases hx
    exact hbook

theorem stepping_book_mirrors : ∃ d n,
    (Runs.run (MarketDataService.step true) {} steppingCalls).feeds "BTCUSDT" = some d ∧ d.book.sequence = some n ∧
      d.book.bids.depth = steppingExchange.bids n ∧ d.book.asks.depth = steppingExchange.asks n :=
  MarketDataService.healthy_book_mirrors true steppingCalls_genuine "BTCUSDT" (by decide +kernel)

end CryptoTrader
