import CryptoTrader.MarketData.Service

/-!
# Deltas that come during a resync

While the provider has not answered, deltas go into the buffer (`buffered_run`). The answer replays them on
the snapshot from the first one on, or leaves them where they are: the book catches up with the buffer exactly
when it starts right after a snapshot of levels, or is empty (`resync_completes_iff`).
-/

namespace CryptoTrader

open Runs

/-- The numbers of the deltas go on from `n` one by one. -/
def Follows : ℤ → List Delta → Prop
  | _, [] => True
  | n, x :: rest => x.sequence = n + 1 ∧ Follows x.sequence rest

instance decidableFollows : ∀ n buffer, Decidable (Follows n buffer)
  | _, [] => .isTrue trivial
  | n, x :: rest =>
    have : Decidable (Follows x.sequence rest) := decidableFollows x.sequence rest
    inferInstanceAs (Decidable (x.sequence = n + 1 ∧ Follows x.sequence rest))

def later (n : ℤ) (buffer : List Delta) : List Delta :=
  buffer.filter (fun x => n < x.sequence)

def Delta.Accepted (x : Delta) : Prop :=
  NonNegative x.bids ∧ NonNegative x.asks

namespace Snapshot

def sequence : Snapshot → Option ℤ
  | .levels n _ _ => some n
  | .orderBook b => b.sequence

def bidDepth : Snapshot → ℚ → ℚ
  | .levels _ bids _ => setDepths (fun _ => 0) bids
  | .orderBook b => b.bids.depth

def askDepth : Snapshot → ℚ → ℚ
  | .levels _ _ asks => setDepths (fun _ => 0) asks
  | .orderBook b => b.asks.depth

/-- No quantity is negative, and the buffer goes on from a snapshot of levels. That of an `OrderBook` is
not replayed at all. -/
def Meets (buffer : List Delta) : Snapshot → Prop
  | .levels n bids asks => Follows n buffer ∧ (NonNegative bids ∧ NonNegative asks) ∧ ∀ x ∈ buffer, x.Accepted
  | .orderBook _ => buffer = []

end Snapshot

/-- The book is healthy and shows the snapshot with the deltas after it, and none is left in the buffer. -/
structure CaughtUp (snapshot : Snapshot) (n : ℤ) (buffer : List Delta) (d : SymbolFeed) : Prop where
  healthy : d.IsHealthy
  sequence : d.book.sequence = some (((later n buffer).map Delta.sequence).getLast?.getD n)
  bids : d.book.bids.depth = setDepths snapshot.bidDepth ((later n buffer).flatMap Delta.bids)
  asks : d.book.asks.depth = setDepths snapshot.askDepth ((later n buffer).flatMap Delta.asks)
  drained : d.buffer = []

/-! ### Which updates are accepted -/

lemma setDepths_append (depth : ℚ → ℚ) (first second : Updates) :
    setDepths depth (first ++ second) = setDepths (setDepths depth first) second :=
  List.foldl_append

lemma nonNegative_of_upsertLevels {side : BookSide} {updates : Updates} (h : (upsertLevels side updates).1 = .ok ()) :
    NonNegative updates := by
  induction updates generalizing side with
  | nil => simp [NonNegative]
  | cons u updates ih =>
    obtain ⟨price, quantity⟩ := u
    rw [upsertLevels] at h
    by_cases hneg : quantity < 0
    · simp [hneg] at h
    · rw [dif_neg hneg] at h
      intro u hu
      rcases List.mem_cons.mp hu with rfl | hu
      · exact not_lt.mp hneg
      · by_cases hzero : quantity = 0
        · rw [dif_pos hzero] at h
          exact ih h u hu
        · rw [dif_neg hzero] at h
          exact ih h u hu

namespace SequencedBook

variable {book : SequencedBook}

lemma nonNegative_of_upsertSides (book : SequencedBook) {bids asks : Updates} (h : (book.upsertSides bids asks).1 = .ok ()) :
    NonNegative bids ∧ NonNegative asks := by
  unfold upsertSides at h
  cases hbids : upsertLevels book.bids bids with
  | mk result side =>
    rw [hbids] at h
    cases result with
    | error e => simp at h
    | ok u => exact ⟨nonNegative_of_upsertLevels (by rw [hbids]), nonNegative_of_upsertLevels h⟩

/-- A delta is applied exactly when it is the next one and no quantity is negative. -/
lemma applyDelta_isOk {n : ℤ} (hn : book.sequence = some n) (x : Delta) :
    (book.applyDelta x).1 = .ok () ↔ x.sequence = n + 1 ∧ x.Accepted := by
  unfold applyDelta
  rw [hn]
  dsimp only
  by_cases hnext : x.sequence = n + 1
  · rw [if_neg (not_not.mpr hnext), and_iff_right hnext, applyDelta.change]
    constructor
    · intro h
      apply nonNegative_of_upsertSides book
      cases hup : book.upsertSides x.bids x.asks with
      | mk result book' =>
        rw [hup] at h
        cases result with
        | error e => simp at h
        | ok u => rfl
    · intro h
      obtain ⟨bidSide, askSide, hup, -⟩ := ExchangeFeed.upsertSides_ok book h.1 h.2
      rw [hup]
  · rw [if_pos hnext]
    exact iff_of_false (by simp) (fun h => hnext h.1)

lemma applyDelta_next {n : ℤ} (hn : book.sequence = some n) {x : Delta} (hnext : x.sequence = n + 1) (hx : x.Accepted) :
    ∃ bidSide askSide, book.applyDelta x =
        (.ok (), { book with bids := bidSide, asks := askSide, sequence := some x.sequence }) ∧
      bidSide.depth = setDepths book.bids.depth x.bids ∧ askSide.depth = setDepths book.asks.depth x.asks := by
  obtain ⟨bidSide, askSide, hup, hbids, hasks⟩ := ExchangeFeed.upsertSides_ok book hx.1 hx.2
  refine ⟨bidSide, askSide, ?_, hbids, hasks⟩
  simp only [applyDelta, hn, ne_eq, hnext, not_true_eq_false, if_false, applyDelta.change, hup]

lemma applySnapshot_of_accepted (book : SequencedBook) (n : ℤ) {bids asks : Updates} (hb : NonNegative bids)
    (ha : NonNegative asks) :
    ∃ bidSide askSide, book.applySnapshot n bids asks =
        (.ok (), { book with sequence := some n, bids := bidSide, asks := askSide, status := .healthy }) ∧
      bidSide.depth = setDepths (fun _ => 0) bids ∧ askSide.depth = setDepths (fun _ => 0) asks := by
  obtain ⟨bidSide, askSide, hup, hbids, hasks⟩ :=
    ExchangeFeed.upsertSides_ok { book with sequence := some n, bids := {}, asks := {} } hb ha
  exact ⟨bidSide, askSide, by simp only [applySnapshot, hup], hbids, hasks⟩

lemma nonNegative_of_applySnapshot {n : ℤ} {bids asks : Updates} (h : (book.applySnapshot n bids asks).1 = .ok ()) :
    NonNegative bids ∧ NonNegative asks := by
  unfold applySnapshot at h
  apply nonNegative_of_upsertSides { book with sequence := some n, bids := {}, asks := {} }
  cases hup : ({ book with sequence := some n, bids := {}, asks := {} } : SequencedBook).upsertSides bids asks with
  | mk result book' =>
    rw [hup] at h
    cases result with
    | error e => simp at h
    | ok u => rfl

end SequencedBook

/-! ### The replay of the buffer -/

lemma Follows.later_eq {n m : ℤ} {buffer : List Delta} (h : Follows m buffer) (hnm : n ≤ m) : later n buffer = buffer := by
  induction buffer generalizing m with
  | nil => rfl
  | cons x rest ih =>
    have hx : n < x.sequence := by have := h.1; omega
    unfold later
    rw [List.filter_cons_of_pos (by simpa using hx)]
    congr 1
    exact ih h.2 hx.le

namespace SymbolFeed

variable {d : SymbolFeed}

lemma replay_of_follows {n : ℤ} (hn : d.book.sequence = some n) {buffer : List Delta} (hf : Follows n buffer)
    (hx : ∀ x ∈ buffer, x.Accepted) :
    (replay buffer d).1 = .ok () ∧ (replay buffer d).2.buffer = [] ∧ (replay buffer d).2.status = d.status ∧
      (replay buffer d).2.book.status = d.book.status ∧
      (replay buffer d).2.book.sequence = some ((buffer.map Delta.sequence).getLast?.getD n) ∧
      (replay buffer d).2.book.bids.depth = setDepths d.book.bids.depth (buffer.flatMap Delta.bids) ∧
      (replay buffer d).2.book.asks.depth = setDepths d.book.asks.depth (buffer.flatMap Delta.asks) := by
  induction buffer generalizing d n with
  | nil => exact ⟨rfl, rfl, rfl, rfl, hn, rfl, rfl⟩
  | cons x rest ih =>
    obtain ⟨bidSide, askSide, happly, hbids, hasks⟩ :=
      SequencedBook.applyDelta_next hn hf.1 (hx x List.mem_cons_self)
    have hrest := ih (d := { d with book := { d.book with bids := bidSide, asks := askSide, sequence := some x.sequence } })
      rfl hf.2 (fun y hy => hx y (List.mem_cons_of_mem x hy))
    rw [replay, happly]
    refine ⟨hrest.1, hrest.2.1, hrest.2.2.1, hrest.2.2.2.1, ?_, ?_, ?_⟩
    · refine hrest.2.2.2.2.1.trans ?_
      cases rest with
      | nil => rfl
      | cons y rest => simp [List.getLast?_cons]
    · refine hrest.2.2.2.2.2.1.trans ?_
      rw [List.flatMap_cons, setDepths_append, ← hbids]
    · refine hrest.2.2.2.2.2.2.trans ?_
      rw [List.flatMap_cons, setDepths_append, ← hasks]

lemma follows_of_replay {n : ℤ} (hn : d.book.sequence = some n) {buffer : List Delta}
    (h : (replay buffer d).1 = .ok ()) : Follows n buffer ∧ ∀ x ∈ buffer, x.Accepted := by
  induction buffer generalizing d n with
  | nil => exact ⟨trivial, by simp⟩
  | cons x rest ih =>
    rw [replay] at h
    cases happly : d.book.applyDelta x with
    | mk result book =>
      rw [happly] at h
      cases result with
      | error e => cases e <;> simp at h
      | ok u =>
        obtain ⟨hnext, haccepted⟩ := (SequencedBook.applyDelta_isOk hn x).mp (by rw [happly])
        obtain ⟨bidSide, askSide, happly', -⟩ := SequencedBook.applyDelta_next hn hnext haccepted
        have hseq : book.sequence = some x.sequence := by
          rw [happly] at happly'
          rw [(Prod.mk.inj happly').2]
        obtain ⟨hfollows, hall⟩ := ih (d := { d with book := book }) hseq h
        exact ⟨⟨hnext, hfollows⟩, List.forall_mem_cons.mpr ⟨haccepted, hall⟩⟩

lemma meets_of_ingestSnapshot {n : ℤ} {bids asks : Updates} (h : (d.ingestSnapshot n bids asks).1 = .ok ()) :
    (Snapshot.levels n bids asks).Meets d.buffer := by
  unfold ingestSnapshot at h
  cases happly : d.book.applySnapshot n bids asks with
  | mk result book =>
    rw [happly] at h
    cases result with
    | error e => simp at h
    | ok u =>
      obtain ⟨hbids, hasks⟩ := SequencedBook.nonNegative_of_applySnapshot (by rw [happly])
      obtain ⟨bidSide, askSide, happly', -⟩ := d.book.applySnapshot_of_accepted n hbids hasks
      have hseq : book.sequence = some n := by
        rw [happly] at happly'
        rw [(Prod.mk.inj happly').2]
      obtain ⟨hfollows, haccepted⟩ := follows_of_replay hseq h
      exact ⟨hfollows, ⟨hbids, hasks⟩, haccepted⟩

lemma ingestSnapshot_of_meets {n : ℤ} {bids asks : Updates} (h : (Snapshot.levels n bids asks).Meets d.buffer) :
    (d.ingestSnapshot n bids asks).1 = .ok () ∧
      CaughtUp (.levels n bids asks) n d.buffer (d.ingestSnapshot n bids asks).2 := by
  obtain ⟨hfollows, ⟨hbids, hasks⟩, haccepted⟩ := h
  obtain ⟨bidSide, askSide, happly, hbdepth, hadepth⟩ := d.book.applySnapshot_of_accepted n hbids hasks
  unfold ingestSnapshot
  rw [happly]
  obtain ⟨hok, hdrained, hstatus, hbook, hsequence, hb, ha⟩ := replay_of_follows (n := n)
    (d := ({ d with book := { d.book with sequence := some n, bids := bidSide, asks := askSide, status := .healthy } }
      : SymbolFeed).setStatus .healthy) rfl hfollows haccepted
  refine ⟨hok, ⟨hstatus, hbook⟩, ?_, ?_, ?_, hdrained⟩
  · rw [hfollows.later_eq le_rfl]
    exact hsequence
  · rw [hfollows.later_eq le_rfl]
    exact hb.trans (congrArg (setDepths · _) hbdepth)
  · rw [hfollows.later_eq le_rfl]
    exact ha.trans (congrArg (setDepths · _) hadepth)

/-- The answer of the provider completes the resync, and the book has caught up, exactly when the snapshot
meets the buffer. -/
lemma endResync_iff {snapshot : Snapshot} {n : ℤ} (hn : snapshot.sequence = some n) :
    ((d.endResync (some snapshot)).1 = .ok () ∧ CaughtUp snapshot n d.buffer (d.endResync (some snapshot)).2) ↔
      snapshot.Meets d.buffer := by
  cases snapshot with
  | orderBook b =>
    constructor
    · rintro ⟨-, hcaught⟩
      exact hcaught.drained
    · intro hempty
      have hnone : d.buffer = [] := hempty
      have hlater : later n d.buffer = [] := by rw [hnone]; rfl
      refine ⟨rfl, ⟨rfl, rfl⟩, ?_, ?_, ?_, hnone⟩
      · rw [hlater]
        exact hn
      · rw [hlater]
        rfl
      · rw [hlater]
        rfl
  | levels m bids asks =>
    obtain rfl : m = n := Option.some.inj hn
    simp only [endResync]
    constructor
    · rintro ⟨hok, -⟩
      cases hingest : d.ingestSnapshot m bids asks with
      | mk result d' =>
        rw [hingest] at hok
        cases result with
        | error e => simp at hok
        | ok u => exact meets_of_ingestSnapshot (by rw [hingest])
    · intro hmeets
      obtain ⟨hok, hcaught⟩ := ingestSnapshot_of_meets hmeets
      cases hingest : d.ingestSnapshot m bids asks with
      | mk result d' =>
        rw [hingest] at hok hcaught
        dsimp only at hok hcaught
        subst hok
        exact ⟨rfl, ⟨rfl, rfl⟩, hcaught.sequence, hcaught.bids, hcaught.asks, hcaught.drained⟩

end SymbolFeed

/-! ### The resync -/

namespace MarketDataService

variable (s : MarketDataService) (symbol : String)

@[simp] lemma ensureSymbol_write (d : SymbolFeed) : (s.write symbol d).ensureSymbol symbol = d := by
  simp [ensureSymbol, write]

/-- What comes while the provider has not answered goes into the buffer. -/
lemma buffered_run {s : MarketDataService} (hstatus : (s.ensureSymbol symbol).book.status = .resyncing)
    (deltas : List Delta) :
    (run (step true) s (deltas.map (.ingestDelta symbol))).pending = s.pending ∧
      (run (step true) s (deltas.map (.ingestDelta symbol))).ensureSymbol symbol =
        { s.ensureSymbol symbol with buffer := (s.ensureSymbol symbol).buffer ++ deltas } := by
  induction deltas generalizing s with
  | nil => exact ⟨rfl, by simp⟩
  | cons x rest ih =>
    have hstep : step true s (.ingestDelta symbol x) =
        s.write symbol { s.ensureSymbol symbol with buffer := (s.ensureSymbol symbol).buffer ++ [x] } := by
      simp only [step, SymbolFeed.ingestDelta, if_pos hstatus, proceed]
    rw [List.map_cons, run_cons, hstep]
    obtain ⟨hpending, hfeed⟩ := ih
      (s := s.write symbol { s.ensureSymbol symbol with buffer := (s.ensureSymbol symbol).buffer ++ [x] })
      (by rw [ensureSymbol_write]; exact hstatus)
    refine ⟨hpending, hfeed.trans ?_⟩
    simp

/-- The state in which a resync waits and the deltas have come. -/
def waiting (deltas : List Delta) : MarketDataService :=
  run (step true) s (.resync symbol :: deltas.map (.ingestDelta symbol))

lemma waiting_spec (deltas : List Delta) :
    (s.waiting symbol deltas).pending = s.pending ++ [(symbol, .resync)] ∧
      (s.waiting symbol deltas).ensureSymbol symbol =
        { (s.ensureSymbol symbol).setStatus .resyncing with buffer := (s.ensureSymbol symbol).buffer ++ deltas } := by
  have hstart : step true s (.resync symbol) = { s.write symbol ((s.ensureSymbol symbol).setStatus .resyncing) with
      pending := s.pending ++ [(symbol, .resync)] } := rfl
  have hfeed : (step true s (.resync symbol)).ensureSymbol symbol = (s.ensureSymbol symbol).setStatus .resyncing := by
    rw [hstart]
    exact s.ensureSymbol_write symbol _
  have hrun := buffered_run symbol (s := step true s (.resync symbol)) (by rw [hfeed]; rfl) deltas
  rw [hfeed] at hrun
  exact hrun

/-- However many deltas have come, the book catches up with the buffer when the provider answers exactly
when the snapshot meets the buffer. -/
theorem resync_completes_iff (deltas : List Delta) {snapshot : Snapshot} {n : ℤ} (hn : snapshot.sequence = some n) :
    (∃ d, ((s.waiting symbol deltas).ensureSymbol symbol).resume true .resync (some snapshot) = (.returned, d) ∧
        (step true (s.waiting symbol deltas) (.answered s.pending.length (some snapshot))).feeds symbol = some d ∧
        CaughtUp snapshot n ((s.ensureSymbol symbol).buffer ++ deltas) d) ↔
      snapshot.Meets ((s.ensureSymbol symbol).buffer ++ deltas) := by
  obtain ⟨hpending, hfeed⟩ := s.waiting_spec symbol deltas
  have hanswered : step true (s.waiting symbol deltas) (.answered s.pending.length (some snapshot)) =
      ({ s.waiting symbol deltas with pending := (s.waiting symbol deltas).pending.eraseIdx s.pending.length }
        : MarketDataService).proceed symbol
          (((s.waiting symbol deltas).ensureSymbol symbol).resume true .resync (some snapshot)) := by
    have hat : (s.waiting symbol deltas).pending[s.pending.length]? = some (symbol, .resync) := by simp [hpending]
    simp only [step, hat]
  rw [hanswered]
  generalize (s.waiting symbol deltas).ensureSymbol symbol = d at hfeed ⊢
  have hbuffer : d.buffer = (s.ensureSymbol symbol).buffer ++ deltas := by rw [hfeed]
  rw [← hbuffer, ← SymbolFeed.endResync_iff hn]
  unfold SymbolFeed.resume
  cases hend : d.endResync (some snapshot) with
  | mk result d' =>
    cases result with
    | error e => simp
    | ok u =>
      constructor
      · rintro ⟨d'', heq, -, hcaught⟩
        rw [(Prod.mk.inj heq).2]
        exact ⟨rfl, hcaught⟩
      · rintro ⟨-, hcaught⟩
        exact ⟨d', rfl, by simp [proceed, write], hcaught⟩

/-- A snapshot at 5, with the deltas 6 and 7 behind it. -/
theorem resync_completes_behind :
    let snapshot : Snapshot := .levels 5 [(100, 1)] []
    let deltas : List Delta := [⟨6, [(100, 2)], []⟩, ⟨7, [(99, 1)], []⟩]
    ∃ d, ((waiting {} "BTCUSDT" deltas).ensureSymbol "BTCUSDT").resume true .resync (some snapshot) = (.returned, d) ∧
      (step true (waiting {} "BTCUSDT" deltas) (.answered 0 (some snapshot))).feeds "BTCUSDT" = some d ∧
      CaughtUp snapshot 5 deltas d :=
  (resync_completes_iff {} "BTCUSDT" [⟨6, [(100, 2)], []⟩, ⟨7, [(99, 1)], []⟩]
      (n := 5) (rfl : (Snapshot.levels 5 [(100, 1)] []).sequence = some 5)).mpr
    (by simp [Snapshot.Meets, Follows, ensureSymbol, NonNegative, Delta.Accepted])

/-- The same deltas behind a snapshot at 6: that of levels is given up for the overlap, and an `OrderBook` leaves
the deltas in the buffer. -/
theorem overlap_held_against_book :
    let deltas : List Delta := [⟨6, [(100, 2)], []⟩, ⟨7, [(99, 1)], []⟩]
    let d := (waiting {} "BTCUSDT" deltas).ensureSymbol "BTCUSDT"
    let levels := d.resume true .resync (some (.levels 6 [(100, 2)] []))
    let book := d.resume true .resync (some (.orderBook { symbol := "BTCUSDT", sequence := some 6 }))
    levels.1 = .raised (.sequenceGap "BTCUSDT sequence gap: expected 7, got 6") ∧ ¬levels.2.IsHealthy ∧
      book.1 = .returned ∧ book.2.IsHealthy ∧ book.2.book.sequence = some 6 ∧ book.2.buffer = deltas := by
  decide +kernel

end MarketDataService

end CryptoTrader
