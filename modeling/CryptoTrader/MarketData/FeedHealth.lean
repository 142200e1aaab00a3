import CryptoTrader.MarketData.PublicFeed

/-!
# The health of a feed

However the refreshes of a feed interleave, its health is told from what has been read since the last
failure (`feed_health_run`), and so is what the gate for new risk sees of it (`feed_gate_run`).
-/

namespace CryptoTrader

open Runs

/-! ### What has been read -/

namespace Reading

/-- When the refresh began that read the order book. -/
def bookTime : Reading → Option ℚ
  | .book now => some now
  | _ => none

def restTime : Reading → Option ℚ
  | .rest now _ => some now
  | _ => none

/-- The open interest of a refresh that has read everything. -/
def interest : Reading → Option (Option ℚ)
  | .rest _ openInterest => some openInterest
  | _ => none

end Reading

/-- The readings since the last failure. -/
def sinceFailure (l : List Reading) : List Reading :=
  (l.reverse.takeWhile (fun r => r ≠ .failed)).reverse

/-- The open interests of the refreshes that have read everything. -/
def interests (l : List Reading) : List (Option ℚ) :=
  l.filterMap Reading.interest

/-- What the last reading gives that gives something. -/
def lastOf {α : Type} (f : Reading → Option α) (l : List Reading) : Option α :=
  (l.filterMap f).getLast?

def lastBook (l : List Reading) : Option ℚ :=
  lastOf Reading.bookTime l

def lastRest (l : List Reading) : Option ℚ :=
  lastOf Reading.restTime l

def interestChange (previous current : Option ℚ) : Option ℚ :=
  previous.bind (fun previous => current.map (fun current => current - previous))

/-- The differences of the open interests that follow each other. -/
def interestChanges : List (Option ℚ) → List ℚ
  | previous :: current :: interests => (interestChange previous current).toList ++ interestChanges (current :: interests)
  | _ => []

section Readings

variable {l : List Reading} {r : Reading}

@[simp] lemma sinceFailure_nil : sinceFailure [] = [] := rfl

@[simp] lemma sinceFailure_failed : sinceFailure (l ++ [.failed]) = [] := by
  simp [sinceFailure]

lemma sinceFailure_concat (h : r ≠ .failed) : sinceFailure (l ++ [r]) = sinceFailure l ++ [r] := by
  simp [sinceFailure, h]

lemma sinceFailure_suffix (l : List Reading) : sinceFailure l <:+ l := by
  rw [sinceFailure, ← List.reverse_prefix, List.reverse_reverse]
  exact List.takeWhile_prefix _

lemma lastOf_concat {α : Type} (f : Reading → Option α) : lastOf f (l ++ [r]) = (f r).or (lastOf f l) := by
  unfold lastOf
  rw [List.filterMap_append]
  cases hr : f r with
  | none => simp [hr]
  | some t => simp [hr]

lemma lastBook_concat : lastBook (l ++ [r]) = r.bookTime.or (lastBook l) :=
  lastOf_concat Reading.bookTime

lemma lastRest_concat : lastRest (l ++ [r]) = r.restTime.or (lastRest l) :=
  lastOf_concat Reading.restTime

lemma interests_concat : interests (l ++ [r]) = interests l ++ r.interest.toList := by
  unfold interests
  rw [List.filterMap_append]
  cases hr : r.interest with
  | none => simp [hr]
  | some oi => simp [hr]

lemma isSome_lastOf_iff {α : Type} (f : Reading → Option α) : (lastOf f l).isSome = true ↔ ∃ r ∈ l, (f r).isSome = true := by
  unfold lastOf
  rw [List.getLast?_isSome, ne_eq, List.filterMap_eq_nil_iff]
  push Not
  simp only [Option.isSome_iff_ne_none]

lemma lastBook_isSome_iff : (lastBook l).isSome = true ↔ ∃ t, Reading.book t ∈ l := by
  rw [lastBook, isSome_lastOf_iff]
  constructor
  · rintro ⟨r, hr, hbook⟩
    cases r with
    | book t => exact ⟨t, hr⟩
    | rest => exact absurd hbook (by simp [Reading.bookTime])
    | failed => exact absurd hbook (by simp [Reading.bookTime])
  · rintro ⟨t, ht⟩
    exact ⟨_, ht, rfl⟩

lemma lastRest_isSome_iff : (lastRest l).isSome = true ↔ ∃ t oi, Reading.rest t oi ∈ l := by
  rw [lastRest, isSome_lastOf_iff]
  constructor
  · rintro ⟨r, hr, hrest⟩
    cases r with
    | book => exact absurd hrest (by simp [Reading.restTime])
    | rest t oi => exact ⟨t, oi, hr⟩
    | failed => exact absurd hrest (by simp [Reading.restTime])
  · rintro ⟨t, oi, ht⟩
    exact ⟨_, ht, rfl⟩

/-- The book has been read, and after that the rest. -/
def Completed (l : List Reading) : Prop :=
  ∃ t u openInterest, [Reading.book t, .rest u openInterest].Sublist l

lemma not_completed_nil : ¬ Completed [] := by
  rintro ⟨t, u, oi, h⟩
  exact absurd (List.sublist_nil.mp h) (by simp)

lemma completed_concat : Completed (l ++ [r]) ↔ Completed l ∨ (r.restTime.isSome = true ∧ (lastBook l).isSome = true) := by
  have hsplit (t u : ℚ) (oi : Option ℚ) : [Reading.book t, .rest u oi].Sublist (l ++ [r]) ↔
      [Reading.book t, .rest u oi].Sublist l ∨ (r = .rest u oi ∧ Reading.book t ∈ l) := by
    rw [← List.reverse_sublist, List.reverse_append, List.reverse_singleton, List.singleton_append, List.sublist_cons_iff,
      List.reverse_sublist]
    simp [eq_comm]
  rw [lastBook_isSome_iff]
  constructor
  · rintro ⟨t, u, oi, h⟩
    rcases (hsplit t u oi).mp h with hl | ⟨rfl, ht⟩
    · exact .inl ⟨t, u, oi, hl⟩
    · exact .inr ⟨rfl, t, ht⟩
  · rintro (⟨t, u, oi, h⟩ | ⟨hr, t, ht⟩)
    · exact ⟨t, u, oi, (hsplit t u oi).mpr (.inl h)⟩
    · cases r with
      | rest u oi => exact ⟨t, u, oi, (hsplit t u oi).mpr (.inr ⟨rfl, ht⟩)⟩
      | book => exact absurd hr (by simp [Reading.restTime])
      | failed => exact absurd hr (by simp [Reading.restTime])

end Readings

/-! ### The state of a feed -/

/-- The status of a source that was last read then, or is invalidated. -/
def sourceAt : Option ℚ → SourceStatus
  | some t => { status := .healthy, updatedAt := some (.aware t) }
  | none => {}

def bookNames : List String :=
  ["ticker", "orderbook"]

def restNames : List String :=
  ["mark_price", "index_price", "funding", "open_interest"]

/-- The sources with these names after the readings, if they have ever been read. -/
def sourcesNamed (names : List String) (ever : Bool) (last : Option ℚ) : Dict String SourceStatus :=
  if ever then names.map (fun name => (name, sourceAt last)) else []

def sourcesAfter (l : List Reading) : Dict String SourceStatus :=
  sourcesNamed bookNames (lastBook l).isSome (lastBook (sinceFailure l)) ++
    sourcesNamed restNames (lastRest l).isSome (lastRest (sinceFailure l))

/-- What the readings say of the feed. -/
structure FeedRun.Tracks (l : List Reading) (s : FeedRun) : Prop where
  sources : s.feed.state.sources = sourcesAfter l
  healthy : s.feed.state.health = .healthy ↔ Completed (sinceFailure l)
  unavailable : s.feed.state.health = .unavailable ↔ lastRest (sinceFailure l) = none
  health : s.feed.state.health ∈ [DataHealth.healthy, .degraded, .unavailable]
  freshness : s.feed.state.freshness = s.feed.state.health
  allowed : s.feed.state.newRiskAllowed = true ↔ s.feed.state.health = .healthy
  generation : s.feed.state.generation = l.count .failed
  /-- A refresh that waits for the rest has read the book, and so has one that is over. -/
  reading : ∀ task now, s.phase task = .reading now → (lastBook l).isSome = true
  book : (lastRest l).isSome = true → (lastBook l).isSome = true
  openInterest : s.feed.state.openInterest = (interests l).getLast?.join
  oiPrev : s.feed.oiPrev = (interests l).getLast?.join
  change : s.feed.state.openInterestChange = (interestChanges (interests l)).getLast?


section Sources

variable {s : FeedState} {everBook everRest : Bool} {book rest : Option ℚ}

lemma markHealthy_book (now : ℚ) (hever : everRest = true → everBook = true)
    (h : s.sources = sourcesNamed bookNames everBook book ++ sourcesNamed restNames everRest rest) :
    (s.markHealthy bookNames now).sources = sourcesNamed bookNames true (some now) ++ sourcesNamed restNames everRest rest := by
  rw [FeedState.markHealthy]
  dsimp only
  rw [h]
  cases everBook with
  | true =>
    cases everRest with
    | true => simp [sourcesNamed, bookNames, restNames, sourceAt, Dict.alter, KeyedTable.upsert, KeyedTable.put]
    | false => simp [sourcesNamed, bookNames, sourceAt, Dict.alter, KeyedTable.upsert, KeyedTable.put]
  | false =>
    cases everRest with
    | true => exact absurd (hever rfl) (by simp)
    | false => simp [sourcesNamed, bookNames, sourceAt, Dict.alter, KeyedTable.upsert]

lemma markHealthy_rest (now : ℚ) (h : s.sources = sourcesNamed bookNames true book ++ sourcesNamed restNames everRest rest) :
    (s.markHealthy restNames now).sources = sourcesNamed bookNames true book ++ sourcesNamed restNames true (some now) := by
  rw [FeedState.markHealthy]
  dsimp only
  rw [h]
  cases everRest with
  | true => simp [sourcesNamed, bookNames, restNames, sourceAt, Dict.alter, KeyedTable.upsert, KeyedTable.put]
  | false => simp [sourcesNamed, bookNames, restNames, sourceAt, Dict.alter, KeyedTable.upsert, KeyedTable.put]

lemma invalidate_named (names : List String) (ever : Bool) (last : Option ℚ) :
    (sourcesNamed names ever last).map (fun e => (e.1, ({ status := .unavailable, updatedAt := none } : SourceStatus))) =
      sourcesNamed names ever none := by
  cases ever with
  | true => simp [sourcesNamed, sourceAt]
  | false => rfl

end Sources


/-! ### What a step does -/

namespace OKXPublicMarketFeed

/-- Nothing of the health or of the open interest is different. -/
structure SameHealth (f f' : OKXPublicMarketFeed) : Prop where
  health : f'.state.health = f.state.health
  freshness : f'.state.freshness = f.state.freshness
  allowed : f'.state.newRiskAllowed = f.state.newRiskAllowed
  generation : f'.state.generation = f.state.generation
  openInterest : f'.state.openInterest = f.state.openInterest
  change : f'.state.openInterestChange = f.state.openInterestChange
  oiPrev : f'.oiPrev = f.oiPrev

variable {feed feed' : OKXPublicMarketFeed} {now : ℚ}

lemma compute24hChange_same (s : FeedState) : s.compute24hChange.toMarketState = s.toMarketState ∧
    s.compute24hChange.openInterest = s.openInterest ∧ s.compute24hChange.openInterestChange = s.openInterestChange := by
  unfold FeedState.compute24hChange
  split
  · split <;> exact ⟨rfl, rfl, rfl⟩
  · exact ⟨rfl, rfl, rfl⟩

/-- Up to where it may raise, a refresh has not touched the sources. -/
lemma readBook_error {name : String} {ticker : Ticker} {rows : Except String (Updates × Updates)}
    (h : readBook now ticker rows feed = (.error name, feed')) : SameHealth feed feed' ∧ feed'.state.sources = feed.state.sources := by
  unfold readBook at h
  cases hsides : sidesOf rows with
  | error e =>
    simp only [hsides, Prod.mk.injEq] at h
    obtain ⟨-, rfl⟩ := h
    exact ⟨⟨rfl, rfl, rfl, rfl, rfl, rfl, rfl⟩, rfl⟩
  | ok sides =>
    simp only [hsides] at h
    cases hlast : ticker.last with
    | error e =>
      simp only [hlast, Prod.mk.injEq] at h
      obtain ⟨-, rfl⟩ := h
      exact ⟨⟨rfl, rfl, rfl, rfl, rfl, rfl, rfl⟩, rfl⟩
    | ok price =>
      simp only [hlast, Prod.mk.injEq] at h
      exact absurd h.1 (by simp)

lemma readBook_ok {ticker : Ticker} {rows : Except String (Updates × Updates)}
    (h : readBook now ticker rows feed = (.ok (), feed')) : SameHealth feed feed' ∧
      ∃ s : FeedState, s.sources = feed.state.sources ∧ feed'.state.sources = (s.markHealthy bookNames now).sources := by
  unfold readBook at h
  cases hsides : sidesOf rows with
  | error e =>
    simp only [hsides, Prod.mk.injEq] at h
    exact absurd h.1 (by simp)
  | ok sides =>
    simp only [hsides] at h
    cases hlast : ticker.last with
    | error e =>
      simp only [hlast, Prod.mk.injEq] at h
      exact absurd h.1 (by simp)
    | ok price =>
      simp only [hlast, Prod.mk.injEq] at h
      obtain ⟨-, rfl⟩ := h
      obtain ⟨hsame, hinterest, hchange⟩ :=
        compute24hChange_same ((feed.state.setBest sides.1 sides.2).setTicker price ticker)
      refine ⟨⟨?_, ?_, ?_, ?_, hinterest, hchange, rfl⟩, _, ?_, rfl⟩
      · exact (congrArg MarketState.health hsame :)
      · exact (congrArg MarketState.freshness hsame :)
      · exact (congrArg MarketState.newRiskAllowed hsame :)
      · exact (congrArg MarketState.generation hsame :)
      · exact (congrArg MarketState.sources hsame :)

lemma readRest_error {name : String} {d : Derivatives} (h : readRest now d feed = (.error name, feed')) :
    SameHealth feed feed' ∧ feed'.state.sources = feed.state.sources := by
  unfold readRest at h
  cases hmark : d.markPrice with
  | error e =>
    simp only [hmark, Prod.mk.injEq] at h
    obtain ⟨-, rfl⟩ := h
    exact ⟨⟨rfl, rfl, rfl, rfl, rfl, rfl, rfl⟩, rfl⟩
  | ok markPrice =>
    cases hindex : d.indexPrice with
    | error e =>
      simp only [hmark, hindex, Prod.mk.injEq] at h
      obtain ⟨-, rfl⟩ := h
      exact ⟨⟨rfl, rfl, rfl, rfl, rfl, rfl, rfl⟩, rfl⟩
    | ok indexPrice =>
      cases htime : d.fundingTime with
      | error e =>
        simp only [hmark, hindex, htime, Prod.mk.injEq] at h
        obtain ⟨-, rfl⟩ := h
        exact ⟨⟨rfl, rfl, rfl, rfl, rfl, rfl, rfl⟩, rfl⟩
      | ok fundingTime =>
        simp only [hmark, hindex, htime, Prod.mk.injEq] at h
        exact absurd h.1 (by simp)

/-- What a refresh leaves that has read everything. -/
structure Finished (now : ℚ) (read : Option ℚ) (feed feed' : OKXPublicMarketFeed) : Prop where
  state : ∃ s : FeedState, ∃ marked : MarketState, s.sources = feed.state.sources ∧
    marked.sources = (s.markHealthy restNames now).sources ∧ marked.generation = feed.state.generation ∧
    feed'.state.toMarketState = marked.markHealthyFromSources
  openInterest : feed'.state.openInterest = read
  oiPrev : feed'.oiPrev = read
  change : feed'.state.openInterestChange = (interestChange feed.oiPrev read).or feed.state.openInterestChange

lemma readRest_ok {d : Derivatives} (h : readRest now d feed = (.ok (), feed')) :
    Finished now d.openInterest feed feed' := by
  unfold readRest at h
  cases hmark : d.markPrice with
  | error e =>
    simp only [hmark, Prod.mk.injEq] at h
    exact absurd h.1 (by simp)
  | ok markPrice =>
    cases hindex : d.indexPrice with
    | error e =>
      simp only [hmark, hindex, Prod.mk.injEq] at h
      exact absurd h.1 (by simp)
    | ok indexPrice =>
      cases htime : d.fundingTime with
      | error e =>
        simp only [hmark, hindex, htime, Prod.mk.injEq] at h
        exact absurd h.1 (by simp)
      | ok fundingTime =>
        simp only [hmark, hindex, htime, Prod.mk.injEq] at h
        obtain ⟨-, rfl⟩ := h
        refine ⟨⟨{ feed.state with markPrice := markPrice }, _, rfl, ?_, ?_, rfl⟩, rfl, rfl, ?_⟩
        · rfl
        · rfl
        · dsimp only [finish, FeedState.computeBasis, FeedState.markHealthy, interestChange]
          cases hprev : feed.oiPrev with
          | none => cases d.openInterest <;> rfl
          | some previous => cases d.openInterest <;> rfl

end OKXPublicMarketFeed


namespace FeedRun

open OKXPublicMarketFeed

/-- No refresh waits for the rest that did not before. -/
def NoneReads (s s' : FeedRun) : Prop :=
  ∀ task now, s'.phase task = .reading now → s.phase task = .reading now

/-- What a step does, by what it has read. -/
inductive Does (s : FeedRun) : FeedRun × Option Reading → Prop
  | nothing {s' : FeedRun} : s'.feed = s.feed → NoneReads s s' → Does s (s', none)
  | failed {s' : FeedRun} (feed : OKXPublicMarketFeed) (name : String) : SameHealth s.feed feed →
      feed.state.sources = s.feed.state.sources → s'.feed = feed.invalidate name → NoneReads s s' → Does s (s', some .failed)
  | book {s' : FeedRun} (now : ℚ) (state : FeedState) : SameHealth s.feed s'.feed → state.sources = s.feed.state.sources →
      s'.feed.state.sources = (state.markHealthy bookNames now).sources → Does s (s', some (.book now))
  | rest {s' : FeedRun} (task : ℕ) (now : ℚ) (oi : Option ℚ) : s.phase task = .reading now → Finished now oi s.feed s'.feed →
      Does s (s', some (.rest now oi))

variable {s : FeedRun} {l : List Reading}

lemma noneReads_moveTo {task : ℕ} {phase : RefreshPhase} (h : ∀ now, phase ≠ .reading now) (feed : OKXPublicMarketFeed) :
    NoneReads s { s.moveTo task phase with feed } := by
  intro task' now hread
  by_cases htask : task' = task
  · subst htask
    rw [moveTo] at hread
    dsimp only at hread
    rw [Function.update_self] at hread
    exact absurd hread (h now)
  · rw [moveTo] at hread
    dsimp only at hread
    rwa [Function.update_of_ne htask] at hread

lemma does_fail (task : ℕ) (name : String) {feed : OKXPublicMarketFeed} (h : SameHealth s.feed feed)
    (hsources : feed.state.sources = s.feed.state.sources) : Does s (s.fail task name feed) :=
  .failed feed name h hsources rfl (noneReads_moveTo (by simp) _)

lemma does_exec (s : FeedRun) (i : FeedStep) : Does s (s.exec i) := by
  have hsame : SameHealth s.feed s.feed := ⟨rfl, rfl, rfl, rfl, rfl, rfl, rfl⟩
  have hnothing : Does s (s, none) := .nothing rfl (fun _ _ h => h)
  unfold exec
  cases i with
  | refresh task now =>
    cases hphase : s.phase task with
    | idle =>
      simp only [hphase]
      exact .nothing rfl (noneReads_moveTo (by simp) _)
    | asking => simpa only [hphase] using hnothing
    | reading => simpa only [hphase] using hnothing
  | book task ticker rows =>
    cases hphase : s.phase task with
    | idle => simpa only [hphase] using hnothing
    | reading => simpa only [hphase] using hnothing
    | asking now =>
      simp only [hphase]
      rcases hread : readBook now ticker rows s.feed with ⟨name | _, feed⟩
      · obtain ⟨hsame, hsources⟩ := readBook_error hread
        exact does_fail task name hsame hsources
      · obtain ⟨hsame, state, hstate, hsources⟩ := readBook_ok hread
        exact .book now state hsame hstate hsources
  | rest task derivatives =>
    cases hphase : s.phase task with
    | idle => simpa only [hphase] using hnothing
    | asking => simpa only [hphase] using hnothing
    | reading now =>
      simp only [hphase]
      rcases hread : readRest now derivatives s.feed with ⟨name | _, feed⟩
      · obtain ⟨hsame, hsources⟩ := readRest_error hread
        exact does_fail task name hsame hsources
      · exact .rest task now derivatives.openInterest hphase (readRest_ok hread)
  | raise task name =>
    by_cases hphase : s.phase task = .idle
    · simpa only [if_pos hphase] using hnothing
    · simpa only [if_neg hphase] using does_fail task name hsame rfl
  | cancel task => exact .nothing rfl (noneReads_moveTo (by simp) s.feed)

end FeedRun

/-! ### What the readings say -/

lemma interestChanges_concat (interests : List (Option ℚ)) (read : Option ℚ) :
    interestChanges (interests ++ [read]) =
      interestChanges interests ++ (interestChange interests.getLast?.join read).toList := by
  induction interests with
  | nil => rfl
  | cons previous interests ih =>
    cases interests with
    | nil => simp [interestChanges]
    | cons current interests =>
      rw [List.cons_append, List.cons_append, interestChanges, ← List.cons_append, ih, ← List.append_assoc,
        List.getLast?_cons_cons, interestChanges]

/-- The sources of a feed that has just finished a refresh, and the health they make. -/
lemma overallHealth_after {s : MarketState} {book : Option ℚ} {now : ℚ}
    (h : s.sources = sourcesNamed bookNames true book ++ sourcesNamed restNames true (some now)) :
    s.overallHealth = if book.isSome then .healthy else .degraded := by
  cases book with
  | none => simp [MarketState.overallHealth, h, sourcesNamed, bookNames, restNames, sourceAt]
  | some t => simp [MarketState.overallHealth, h, sourcesNamed, bookNames, restNames, sourceAt]

lemma FeedRun.tracks_start : Tracks [] {} where
  sources := rfl
  healthy := iff_of_false (by simp) not_completed_nil
  unavailable := iff_of_true rfl rfl
  health := by simp
  freshness := rfl
  allowed := by simp
  generation := rfl
  reading := by simp
  book := fun h => h
  openInterest := rfl
  oiPrev := rfl
  change := rfl

namespace FeedRun

open OKXPublicMarketFeed

variable {s : FeedRun} {l : List Reading}

lemma Tracks.nothing {s' : FeedRun} (h : Tracks l s) (hfeed : s'.feed = s.feed) (hreads : NoneReads s s') : Tracks l s' := by
  obtain ⟨hsources, hhealthy, hunavailable, hhealth, hfresh, hallowed, hgen, hreading, hbook, hoi, hprev, hchange⟩ := h
  rw [← hfeed] at hsources hhealthy hunavailable hhealth hfresh hallowed hgen hoi hprev hchange
  exact ⟨hsources, hhealthy, hunavailable, hhealth, hfresh, hallowed, hgen, fun task now hr => hreading task now (hreads task now hr),
    hbook, hoi, hprev, hchange⟩

lemma Tracks.failed {s' : FeedRun} (h : Tracks l s) {feed : OKXPublicMarketFeed} {name : String} (hsame : SameHealth s.feed feed)
    (hsources : feed.state.sources = s.feed.state.sources) (hfeed : s'.feed = feed.invalidate name) (hreads : NoneReads s s') :
    Tracks (l ++ [.failed]) s' where
  sources := by
    have hinvalid : s'.feed.state.sources = feed.state.sources.map
        (fun e => (e.1, ({ status := .unavailable, updatedAt := none } : SourceStatus))) := by rw [hfeed]; rfl
    rw [hinvalid, hsources, h.sources, sourcesAfter, List.map_append, invalidate_named, invalidate_named, sourcesAfter,
      sinceFailure_failed, lastBook_concat, lastRest_concat]
    rfl
  healthy := by
    rw [sinceFailure_failed, hfeed]
    exact iff_of_false (by simp [OKXPublicMarketFeed.invalidate, MarketState.invalidate]) not_completed_nil
  unavailable := by
    rw [sinceFailure_failed, hfeed]
    exact iff_of_true rfl rfl
  health := by
    rw [hfeed]
    simp [OKXPublicMarketFeed.invalidate, MarketState.invalidate]
  freshness := by
    rw [hfeed]
    rfl
  allowed := by
    rw [hfeed]
    simp [OKXPublicMarketFeed.invalidate, MarketState.invalidate]
  generation := by
    have hgen : s'.feed.state.generation = feed.state.generation + 1 := by rw [hfeed]; rfl
    rw [hgen, hsame.generation, h.generation, List.count_append]
    simp
  reading := by
    intro task now hr
    rw [lastBook_concat]
    exact h.reading task now (hreads task now hr)
  book := by
    rw [lastBook_concat, lastRest_concat]
    exact h.book
  openInterest := by
    have hoi : s'.feed.state.openInterest = feed.state.openInterest := by rw [hfeed]; rfl
    rw [hoi, hsame.openInterest, h.openInterest, interests_concat]
    simp [Reading.interest]
  oiPrev := by
    have hoi : s'.feed.oiPrev = feed.oiPrev := by rw [hfeed]; rfl
    rw [hoi, hsame.oiPrev, h.oiPrev, interests_concat]
    simp [Reading.interest]
  change := by
    have hoi : s'.feed.state.openInterestChange = feed.state.openInterestChange := by rw [hfeed]; rfl
    rw [hoi, hsame.change, h.change, interests_concat]
    simp [Reading.interest]

lemma Tracks.readBook {s' : FeedRun} {now : ℚ} (h : Tracks l s) {state : FeedState} (hsame : SameHealth s.feed s'.feed)
    (hstate : state.sources = s.feed.state.sources)
    (hsources : s'.feed.state.sources = (state.markHealthy bookNames now).sources) : Tracks (l ++ [.book now]) s' where
  sources := by
    rw [hsources, markHealthy_book now h.book (hstate.trans h.sources), sourcesAfter, sinceFailure_concat (by simp),
      lastBook_concat, lastRest_concat, lastBook_concat, lastRest_concat]
    rfl
  healthy := by
    rw [hsame.health, h.healthy, sinceFailure_concat (by simp), completed_concat]
    simp [Reading.restTime]
  unavailable := by
    rw [hsame.health, h.unavailable, sinceFailure_concat (by simp), lastRest_concat]
    rfl
  health := by
    rw [hsame.health]
    exact h.health
  freshness := by
    rw [hsame.freshness, hsame.health]
    exact h.freshness
  allowed := by
    rw [hsame.allowed, hsame.health]
    exact h.allowed
  generation := by
    rw [hsame.generation, h.generation, List.count_append]
    simp
  reading := fun _ _ _ => by
    rw [lastBook_concat]
    rfl
  book := fun _ => by
    rw [lastBook_concat]
    rfl
  openInterest := by
    rw [hsame.openInterest, h.openInterest, interests_concat]
    simp [Reading.interest]
  oiPrev := by
    rw [hsame.oiPrev, h.oiPrev, interests_concat]
    simp [Reading.interest]
  change := by
    rw [hsame.change, h.change, interests_concat]
    simp [Reading.interest]

/-- A refresh that has read everything finds the feed healthy if the book has been read since the last failure. -/
lemma Tracks.readRest {s' : FeedRun} {task : ℕ} {now : ℚ} {oi : Option ℚ} (h : Tracks l s)
    (hphase : s.phase task = .reading now) (hfinished : Finished now oi s.feed s'.feed) :
    Tracks (l ++ [.rest now oi]) s' := by
  obtain ⟨state, marked, hstate, hmarked, hgen, hfeed⟩ := hfinished.state
  have hbook : (lastBook l).isSome = true := h.reading task now hphase
  have hnamed : state.sources = sourcesNamed bookNames true (lastBook (sinceFailure l)) ++
      sourcesNamed restNames (lastRest l).isSome (lastRest (sinceFailure l)) := by
    rw [hstate, h.sources, sourcesAfter, hbook]
  have hsources : marked.sources =
      sourcesNamed bookNames true (lastBook (sinceFailure l)) ++ sourcesNamed restNames true (some now) := by
    rw [hmarked]
    exact markHealthy_rest now hnamed
  have hhealth : s'.feed.state.health = if (lastBook (sinceFailure l)).isSome then .healthy else .degraded := by
    rw [← overallHealth_after hsources]
    exact (congrArg MarketState.health hfeed :)
  refine ⟨?_, ?_, ?_, ?_, ?_, ?_, ?_, ?_, ?_, ?_, ?_, ?_⟩
  · have hleft : s'.feed.state.sources = marked.sources := (congrArg MarketState.sources hfeed :)
    rw [hleft, hsources, sourcesAfter, sinceFailure_concat (by simp), lastBook_concat, lastRest_concat, lastBook_concat,
      lastRest_concat]
    simp [Reading.bookTime, Reading.restTime, hbook]
  · rw [hhealth, sinceFailure_concat (by simp), completed_concat]
    constructor
    · intro hh
      refine .inr ⟨rfl, ?_⟩
      by_contra hnone
      rw [if_neg hnone] at hh
      exact absurd hh (by simp)
    · rintro (⟨t, u, oi', hl⟩ | ⟨-, hsome⟩)
      · rw [if_pos (lastBook_isSome_iff.mpr ⟨t, hl.subset (by simp)⟩)]
      · rw [if_pos hsome]
  · rw [hhealth, sinceFailure_concat (by simp), lastRest_concat]
    refine iff_of_false ?_ (by simp [Reading.restTime])
    split <;> simp
  · rw [hhealth]
    split <;> simp
  · have hfresh := congrArg MarketState.freshness hfeed
    have hh := congrArg MarketState.health hfeed
    exact hfresh.trans hh.symm
  · have hallowed := congrArg MarketState.newRiskAllowed hfeed
    have hh : s'.feed.state.health = marked.overallHealth := congrArg MarketState.health hfeed
    rw [hallowed, hh]
    simp [MarketState.markHealthyFromSources]
  · have hleft : s'.feed.state.generation = marked.generation := (congrArg MarketState.generation hfeed :)
    rw [hleft, hgen, h.generation, List.count_append]
    simp
  · intro task' now' _
    rw [lastBook_concat]
    exact hbook
  · intro _
    rw [lastBook_concat]
    exact hbook
  · rw [hfinished.openInterest, interests_concat]
    simp [Reading.interest]
  · rw [hfinished.oiPrev, interests_concat]
    simp [Reading.interest]
  · rw [hfinished.change, h.oiPrev, h.change, interests_concat]
    have hone : (Reading.rest now oi).interest.toList = [oi] := rfl
    rw [hone, interestChanges_concat]
    cases interestChange (interests l).getLast?.join oi with
    | none => simp
    | some change => simp

lemma Tracks.exec (h : Tracks l s) (i : FeedStep) : Tracks (l ++ (s.exec i).2.toList) (s.step i) := by
  have hdoes := does_exec s i
  unfold step
  generalize s.exec i = result at hdoes ⊢
  cases hdoes with
  | nothing hfeed hreads =>
    rw [Option.toList_none, List.append_nil]
    exact h.nothing hfeed hreads
  | failed feed name hsame hsources hfeed hreads => exact h.failed hsame hsources hfeed hreads
  | book now state hsame hstate hsources => exact h.readBook hsame hstate hsources
  | rest task now oi hphase hfinished => exact h.readRest hphase hfinished

lemma tracks_run (steps : List FeedStep) (h : Tracks l s) : Tracks (l ++ readings s steps) (run step s steps) := by
  induction steps generalizing l s with
  | nil => simpa [readings] using h
  | cons i steps ih =>
    rw [readings, ← List.append_assoc]
    exact ih (h.exec i)

lemma tracks_after (steps : List FeedStep) : Tracks (readings {} steps) (run step {} steps) :=
  tracks_run steps tracks_start

lemma Tracks.get_orderbook (h : Tracks l s) : s.feed.state.sources.get "orderbook" =
    if (lastBook l).isSome then some (sourceAt (lastBook (sinceFailure l))) else none := by
  rw [h.sources, sourcesAfter]
  cases hbook : (lastBook l).isSome with
  | true => simp [sourcesNamed, bookNames, Dict.get, KeyedTable.row]
  | false =>
    have hrest : (lastRest l).isSome = false := by
      refine Bool.eq_false_iff.mpr (fun hrest => ?_)
      rw [h.book hrest] at hbook
      cases hbook
    simp [sourcesNamed, hrest, Dict.get_nil]

lemma Tracks.get_markPrice (h : Tracks l s) : s.feed.state.sources.get "mark_price" =
    if (lastRest l).isSome then some (sourceAt (lastRest (sinceFailure l))) else none := by
  rw [h.sources, sourcesAfter]
  cases hrest : (lastRest l).isSome with
  | true =>
    cases hbook : (lastBook l).isSome with
    | true => simp [sourcesNamed, bookNames, restNames, Dict.get, KeyedTable.row]
    | false => simp [sourcesNamed, restNames, Dict.get, KeyedTable.row]
  | false =>
    cases hbook : (lastBook l).isSome with
    | true => simp [sourcesNamed, bookNames, Dict.get, KeyedTable.row]
    | false => rfl

lemma datable_sourceAt (last : Option ℚ) : Datable (sourceAt last) := by
  intro t
  cases last <;> simp [sourceAt]

lemma updatedAt_sourceAt {last : Option ℚ} {t : ℚ} : (sourceAt last).updatedAt = some (.aware t) ↔ last = some t := by
  cases last <;> simp [sourceAt]

/-- What is read since the last failure has been read. -/
lemma isSome_of_sinceFailure {last : ℚ} (h : lastRest (sinceFailure l) = some last) : (lastRest l).isSome = true := by
  obtain ⟨t, oi, ht⟩ := lastRest_isSome_iff.mp (by rw [h]; rfl : (lastRest (sinceFailure l)).isSome = true)
  exact lastRest_isSome_iff.mpr ⟨t, oi, (sinceFailure_suffix l).subset ht⟩

/-! ### The health of a feed -/

/-- However refreshes interleave, the feed is healthy if and only if since the last failure the order book has been read and
then the rest, by one refresh or by several; it is unavailable if and only if the rest has not been read since. It allows new
risk exactly if it is healthy, and its generation counts the failures. -/
theorem feed_health_run (steps : List FeedStep) :
    let l := readings {} steps
    let state := (run step {} steps).feed.state
    (state.health = .healthy ↔ ∃ t u oi, [Reading.book t, .rest u oi].Sublist (sinceFailure l)) ∧
    (state.health = .unavailable ↔ ∀ u oi, .rest u oi ∉ sinceFailure l) ∧
    (state.health = .healthy ∨ state.health = .degraded ∨ state.health = .unavailable) ∧
    state.freshness = state.health ∧
    (state.newRiskAllowed = true ↔ state.health = .healthy) ∧
    state.generation = l.count .failed := by
  intro l state
  have h := tracks_after steps
  refine ⟨h.healthy, ?_, by simpa using h.health, h.freshness, h.allowed, h.generation⟩
  rw [h.unavailable, ← Option.not_isSome_iff_eq_none, lastRest_isSome_iff]
  push Not
  rfl

/-- The open interest is that of the last refresh that has read everything, and its change is the last difference between two
such refreshes that follow each other, whatever fails between them. -/
theorem open_interest_run (steps : List FeedStep) :
    let read := interests (readings {} steps)
    let feed := (run step {} steps).feed
    feed.state.openInterest = read.getLast?.join ∧ feed.oiPrev = read.getLast?.join ∧
      feed.state.openInterestChange = (interestChanges read).getLast? := by
  intro read feed
  have h := tracks_after steps
  exact ⟨h.openInterest, h.oiPrev, h.change⟩

/-- The gate for new risk can always be asked about the feed, and it is open if and only if a refresh has failed before, since
the last failure the book was read by a refresh that began at most 5 seconds ago and the rest by one that began at most 10
seconds ago, and the prices are positive and not crossed. -/
theorem feed_gate_run (steps : List FeedStep) (now : ℚ) :
    let l := readings {} steps
    let state := (run step {} steps).feed.state.toMarketState
    (∃ answer, canAddRisk (some state) now = .ok answer) ∧
    ((∃ reason, canAddRisk (some state) now = .ok (true, reason)) ↔
      .failed ∈ l ∧ (∃ t, lastBook (sinceFailure l) = some t ∧ now - t ≤ 5) ∧
      (∃ u, lastRest (sinceFailure l) = some u ∧ now - u ≤ 10) ∧ state.Quoted ∧ 0 < state.markPrice) := by
  intro l state
  have h := tracks_after steps
  have hread (hpasses : Passes state) : ∃ u, lastRest (sinceFailure l) = some u := by
    rw [← Option.isSome_iff_exists, ← Option.ne_none_iff_isSome]
    exact fun hnone => hpasses.notUnavailable (h.unavailable.mpr hnone)
  have hsources {u : ℚ} (hu : lastRest (sinceFailure l) = some u) :
      state.sources.get "orderbook" = some (sourceAt (lastBook (sinceFailure l))) ∧
      state.sources.get "mark_price" = some (sourceAt (some u)) := by
    have hrest := isSome_of_sinceFailure hu
    exact ⟨by rw [h.get_orderbook, if_pos (h.book hrest)], by rw [h.get_markPrice, if_pos hrest, hu]⟩
  constructor
  · refine canAddRisk_ok_iff.mpr (fun hpasses => ?_)
    obtain ⟨u, hu⟩ := hread hpasses
    obtain ⟨hbook, hmark⟩ := hsources hu
    refine ⟨_, hbook, datable_sourceAt _, fun _ mark hm => ?_⟩
    rw [hmark, Option.mem_some_iff] at hm
    exact hm ▸ datable_sourceAt _
  · rw [canAddRisk_open_iff]
    constructor
    · rintro ⟨hpasses, hfresh, hmarked, hprice⟩
      obtain ⟨u, hu⟩ := hread hpasses
      obtain ⟨hbook, hmark⟩ := hsources hu
      obtain ⟨source, t, hsource, ht, hage⟩ := hfresh
      obtain rfl := Option.some.inj (hbook.symm.trans hsource)
      obtain ⟨u', hu', hage'⟩ := hmarked _ hmark
      have hfailed : 0 < l.count .failed := by
        have hgen := hpasses.generation
        rw [h.generation] at hgen
        exact_mod_cast hgen
      refine ⟨List.count_pos_iff.mp hfailed, ⟨t, updatedAt_sourceAt.mp ht, hage⟩, ⟨u', ?_, hage'⟩, hpasses.quoted, hprice⟩
      rw [hu]
      exact updatedAt_sourceAt.mp hu'
    · rintro ⟨hfailed, ⟨t, ht, hage⟩, ⟨u, hu, hage'⟩, hquoted, hprice⟩
      obtain ⟨hbook, hmark⟩ := hsources hu
      have hhealth : state.health = .healthy ∨ state.health = .degraded ∨ state.health = .unavailable := by
        simpa using h.health
      refine ⟨⟨?_, ?_, ?_, hquoted⟩, ⟨_, t, hbook, updatedAt_sourceAt.mpr ht, hage⟩, fun mark hm => ?_, hprice⟩
      · rw [h.generation]
        exact_mod_cast List.count_pos_iff.mpr hfailed
      · intro hunavailable
        rw [h.unavailable.mp hunavailable] at hu
        cases hu
      · rcases hhealth with hh | hh | hh <;> simp [hh]
      · rw [hmark, Option.mem_some_iff] at hm
        exact ⟨u, hm ▸ updatedAt_sourceAt.mpr rfl, hage'⟩

end FeedRun

end CryptoTrader
