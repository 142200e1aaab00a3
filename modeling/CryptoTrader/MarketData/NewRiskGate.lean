import CryptoTrader.Domain.Enums
import CryptoTrader.Lib.Json
import CryptoTrader.Lib.Runs
import Mathlib

/-!
# The gate for new risk

`market_data/new_risk_gate.py` on the market state of `market_data/state.py`: orders that add to
a position need healthy market data, orders against it do not. The gate does not see the size
of the order, reads a field that the state does not have where there is no source for the order
book, lets degraded data through, and waits for an invalidation before it opens. When none of
this shows: `new_risk_guarded_iff`.
-/

namespace CryptoTrader

open Runs

inductive DataHealth where
  | healthy
  | degraded
  | stale
  | unavailable
  | invalid
  deriving DecidableEq, Repr

def DataHealth.value : DataHealth → String
  | .healthy => "HEALTHY"
  | .degraded => "DEGRADED"
  | .stale => "STALE"
  | .unavailable => "UNAVAILABLE"
  | .invalid => "INVALID"

/-- A `datetime`, with or without a time zone. -/
inductive Timestamp where
  | aware (t : ℚ)
  | naive (t : ℚ)
  deriving DecidableEq, Repr

structure SourceStatus where
  status : DataHealth := .unavailable
  updatedAt : Option Timestamp := none
  deriving DecidableEq, Repr

structure MarketState where
  markPrice : ℚ := 0
  bestBid : ℚ := 0
  bestAsk : ℚ := 0
  freshness : DataHealth := .unavailable
  health : DataHealth := .unavailable
  sources : Dict String SourceStatus := []
  generation : ℤ := 0
  newRiskAllowed : Bool := false
  newRiskBlockReason : String := "MARKET_STATE_NO_GENERATION"
  deriving DecidableEq, Repr

namespace MarketState

def invalidate (s : MarketState) (reason : String) : MarketState :=
  { s with
    generation := s.generation + 1
    health := .unavailable
    freshness := .unavailable
    newRiskAllowed := false
    newRiskBlockReason := reason
    sources := s.sources.map (fun e => (e.1, { status := .unavailable, updatedAt := none })) }

def overallHealth (s : MarketState) : DataHealth :=
  let statuses := s.sources.map (fun e => e.2.status)
  if statuses = [] then .unavailable
  else if statuses.all (· = .healthy) then .healthy
  else if statuses.any (· = .stale) then .stale
  else .degraded

def markHealthyFromSources (s : MarketState) : MarketState :=
  let health := s.overallHealth
  { s with
    health
    freshness := health
    newRiskAllowed := health = .healthy
    newRiskBlockReason := if health = .healthy then s.newRiskBlockReason else health.value }

end MarketState

inductive GateError where
  | attributeError (message : String)
  | typeError (message : String)
  deriving DecidableEq, Repr

/-- `now - updated_at`, and 999 seconds where there is none. -/
def ageAt (now : ℚ) : Option Timestamp → Except GateError ℚ
  | none => .ok 999
  | some (.aware t) => .ok (now - t)
  | some (.naive _) => .error (.typeError "can't subtract offset-naive and offset-aware datetimes")

def orderbookMaxAge : ℚ := 5

def markMaxAge : ℚ := 10

def bookAge (s : MarketState) (now : ℚ) : Except GateError ℚ :=
  match s.sources.get "orderbook" with
  | some source => ageAt now source.updatedAt
  | none => .error (.attributeError "'MarketState' object has no attribute 'updated_at'")

def markChecked (s : MarketState) : Bool × String :=
  if s.markPrice ≤ 0 then (false, "MARK_PRICE_UNAVAILABLE") else (true, "MARKET_DATA_HEALTHY")

/-- The last checks of `can_add_risk`: the ages of the sources and the mark price. -/
def checkSources (s : MarketState) (now : ℚ) : Except GateError (Bool × String) := do
  let bookAge ← bookAge s now
  if orderbookMaxAge < bookAge then return (false, "ORDERBOOK_STALE")
  match s.sources.get "mark_price" with
  | none => return markChecked s
  | some source =>
    let markAge ← ageAt now source.updatedAt
    if markMaxAge < markAge then return (false, "MARK_PRICE_STALE")
    return markChecked s

def canAddRisk (state : Option MarketState) (now : ℚ) : Except GateError (Bool × String) :=
  match state with
  | none => .ok (false, "MARKET_STATE_MISSING")
  | some s =>
    if s.generation < 1 then .ok (false, "MARKET_STATE_NO_GENERATION")
    else if s.health = .unavailable ∨ s.health = .stale then .ok (false, "MARKET_DATA_UNAVAILABLE")
    else if s.bestBid ≤ 0 ∨ s.bestAsk ≤ 0 then .ok (false, "ORDERBOOK_UNAVAILABLE")
    else if s.bestAsk < s.bestBid then .ok (false, "ORDERBOOK_INVALID")
    else checkSources s now

inductive OrderAction where
  | increaseLong
  | reduceShort
  | increaseShort
  | reduceLong
  deriving DecidableEq, Repr

def classifyOrderAction (side : OrderSide) (existingPosition : ℚ) : OrderAction :=
  match side with
  | .buy => if 0 ≤ existingPosition then .increaseLong else .reduceShort
  | .sell => if existingPosition ≤ 0 then .increaseShort else .reduceLong

def newRiskBlockedForAction (state : Option MarketState) (side : OrderSide) (existingPosition now : ℚ) :
    Except GateError (Bool × String) :=
  let action := classifyOrderAction side existingPosition
  if action = .reduceLong ∨ action = .reduceShort then .ok (false, "RISK_REDUCING_ALLOWED")
  else do
    let (allowed, reason) ← canAddRisk state now
    return (!allowed, reason)

/-! ### Histories of a market state -/

/-- What is done to a market state. -/
inductive StateOp where
  | setSource (name : String) (status : SourceStatus)
  | setPrices (bestBid bestAsk markPrice : ℚ)
  | markHealthyFromSources
  | invalidate (reason : String)
  deriving DecidableEq, Repr

def MarketState.apply (s : MarketState) : StateOp → MarketState
  | .setSource name status => { s with sources := s.sources.alter name (fun _ => status) }
  | .setPrices bestBid bestAsk markPrice => { s with bestBid, bestAsk, markPrice }
  | .markHealthyFromSources => s.markHealthyFromSources
  | .invalidate reason => s.invalidate reason

def StateOp.isInvalidate : StateOp → Bool
  | .invalidate _ => true
  | _ => false

/-- The generation counts the invalidations. -/
lemma generation_run (start : MarketState) (ops : List StateOp) :
    (run MarketState.apply start ops).generation = start.generation + ops.countP StateOp.isInvalidate := by
  induction ops generalizing start with
  | nil => simp
  | cons op ops ih =>
    rw [run_cons, ih, List.countP_cons]
    cases op with
    | setSource => rfl
    | setPrices => rfl
    | markHealthyFromSources => rfl
    | invalidate =>
      simp only [MarketState.apply, MarketState.invalidate, StateOp.isInvalidate, if_true]
      omega

/-! ### What the gate guards -/

/-- An order with its size. -/
structure RiskOrder where
  side : OrderSide
  quantity : ℚ
  positive : 0 < quantity

namespace RiskOrder

def signed (o : RiskOrder) : ℚ :=
  match o.side with
  | .buy => o.quantity
  | .sell => -o.quantity

/-- The order leaves less of the position, on the same side. -/
def Shrinks (o : RiskOrder) (existing : ℚ) : Prop :=
  |existing + o.signed| < |existing| ∧ 0 ≤ existing * (existing + o.signed)

/-- The order is against the position. -/
def Against (o : RiskOrder) (existing : ℚ) : Prop :=
  existing * o.signed < 0

end RiskOrder

namespace MarketState

variable (s : MarketState) (now : ℚ)

/-- The book is there and not crossed. -/
def Quoted : Prop :=
  0 < s.bestBid ∧ 0 < s.bestAsk ∧ s.bestBid ≤ s.bestAsk

def BookFresh : Prop :=
  ∃ source t, s.sources.get "orderbook" = some source ∧ source.updatedAt = some (.aware t) ∧ now - t ≤ orderbookMaxAge

/-- A mark price that has a source is not old. -/
def MarkFresh : Prop :=
  ∀ source ∈ s.sources.get "mark_price", ∃ t, source.updatedAt = some (.aware t) ∧ now - t ≤ markMaxAge

/-- Healthy market data: fresh, positive and uncrossed. -/
structure Healthy : Prop where
  health : s.health = .healthy
  quoted : s.Quoted
  bookFresh : s.BookFresh now
  markFresh : s.MarkFresh now
  markPrice : 0 < s.markPrice

end MarketState

/-! ### The checks -/

/-- The checks before the sources are passed. -/
structure Passes (s : MarketState) : Prop where
  generation : 1 ≤ s.generation
  notUnavailable : s.health ≠ .unavailable
  notStale : s.health ≠ .stale
  quoted : s.Quoted

/-- The time of a source, if it has one, can be subtracted. -/
def Datable (source : SourceStatus) : Prop :=
  ∀ t, source.updatedAt ≠ some (.naive t)

/-- What the checks of the sources read is there: a source of the book, and times with a time zone. -/
def Readable (s : MarketState) (now : ℚ) : Prop :=
  ∃ book ∈ s.sources.get "orderbook", Datable book ∧
    (s.BookFresh now → ∀ mark ∈ s.sources.get "mark_price", Datable mark)

lemma ageAt_ok_iff (now : ℚ) (source : SourceStatus) : (∃ age, ageAt now source.updatedAt = .ok age) ↔ Datable source := by
  unfold ageAt Datable
  cases source.updatedAt with
  | none => simp
  | some t => cases t <;> simp

/-- An age is within a bound, which 999 is not. -/
lemma ageAt_le_iff (now : ℚ) {bound : ℚ} (hbound : bound < 999) (updatedAt : Option Timestamp) :
    (∃ age, ageAt now updatedAt = .ok age ∧ age ≤ bound) ↔ ∃ t, updatedAt = some (.aware t) ∧ now - t ≤ bound := by
  unfold ageAt
  cases updatedAt with
  | none => simpa using hbound
  | some t => cases t <;> simp

variable {s : MarketState} {now : ℚ}

/-- With a dated source the order book is fresh or stale. -/
lemma checkSources_eq {book : SourceStatus} {age : ℚ} (hbook : s.sources.get "orderbook" = some book)
    (hage : ageAt now book.updatedAt = .ok age) :
    checkSources s now =
      if orderbookMaxAge < age then .ok (false, "ORDERBOOK_STALE")
      else
        match s.sources.get "mark_price" with
        | none => .ok (markChecked s)
        | some source => (ageAt now source.updatedAt).bind fun markAge =>
            if markMaxAge < markAge then .ok (false, "MARK_PRICE_STALE") else .ok (markChecked s) := by
  unfold checkSources bookAge
  rw [hbook]
  dsimp only
  rw [hage]
  simp only [bind, Except.bind, pure, Except.pure]

lemma bookFresh_iff {book : SourceStatus} {age : ℚ} (hbook : s.sources.get "orderbook" = some book)
    (hage : ageAt now book.updatedAt = .ok age) : s.BookFresh now ↔ age ≤ orderbookMaxAge := by
  have hle := ageAt_le_iff now (show orderbookMaxAge < 999 by norm_num [orderbookMaxAge]) book.updatedAt
  rw [hage] at hle
  simp only [Except.ok.injEq, exists_eq_left'] at hle
  rw [hle]
  unfold MarketState.BookFresh
  simp [hbook]

/-- The sources are read without an error exactly if what is read is there. -/
lemma checkSources_ok_iff : (∃ r, checkSources s now = .ok r) ↔ Readable s now := by
  cases hbook : s.sources.get "orderbook" with
  | none => simp [checkSources, bookAge, Readable, hbook, bind, Except.bind]
  | some book =>
    by_cases hdatable : Datable book
    · obtain ⟨age, hage⟩ := (ageAt_ok_iff now book).mpr hdatable
      have hreadable : Readable s now ↔ (age ≤ orderbookMaxAge → ∀ mark ∈ s.sources.get "mark_price", Datable mark) := by
        unfold Readable
        simp [hbook, hdatable, bookFresh_iff hbook hage]
      rw [checkSources_eq hbook hage, hreadable]
      by_cases hstale : orderbookMaxAge < age
      · simp [hstale, not_le.mpr hstale]
      · rw [if_neg hstale]
        simp only [not_lt.mp hstale, true_imp_iff]
        cases hmark : s.sources.get "mark_price" with
        | none => simp
        | some mark =>
          simp only [Option.mem_some_iff, forall_eq', ← ageAt_ok_iff now]
          cases ageAt now mark.updatedAt with
          | error e => simp [Except.bind]
          | ok markAge =>
            simp only [Except.bind]
            split <;> simp
    · have herror : ¬∃ r, checkSources s now = .ok r := by
        rintro ⟨r, hr⟩
        apply hdatable
        rw [← ageAt_ok_iff now]
        unfold checkSources bookAge at hr
        rw [hbook] at hr
        cases hage : ageAt now book.updatedAt with
        | ok age => exact ⟨age, rfl⟩
        | error e => simp [hage, bind, Except.bind] at hr
      refine iff_of_false herror ?_
      rintro ⟨book', hbook', hd, -⟩
      rw [hbook] at hbook'
      exact hdatable (Option.some.inj hbook' ▸ hd)

lemma markChecked_ok_iff : (∃ reason, (Except.ok (markChecked s) : Except GateError (Bool × String)) = .ok (true, reason)) ↔
    0 < s.markPrice := by
  unfold markChecked
  by_cases h : s.markPrice ≤ 0
  · simp [h, not_lt.mpr h]
  · simp [h, not_le.mp h]

/-- The checks of the sources let new risk through exactly if book and mark price are fresh. -/
lemma checkSources_open_iff :
    (∃ reason, checkSources s now = .ok (true, reason)) ↔ s.BookFresh now ∧ s.MarkFresh now ∧ 0 < s.markPrice := by
  by_cases hfresh : s.BookFresh now
  · obtain ⟨book, t, hbook, hdated, hle⟩ := id hfresh
    have hage : ageAt now book.updatedAt = .ok (now - t) := by rw [hdated]; rfl
    rw [checkSources_eq hbook hage, if_neg (not_lt.mpr hle), iff_true_intro hfresh, true_and]
    unfold MarketState.MarkFresh
    cases hmark : s.sources.get "mark_price" with
    | none => simpa using markChecked_ok_iff
    | some mark =>
      have hle := ageAt_le_iff now (show markMaxAge < 999 by norm_num [markMaxAge]) mark.updatedAt
      simp only [Option.mem_some_iff, forall_eq', ← hle]
      cases ageAt now mark.updatedAt with
      | error e => simp [Except.bind]
      | ok markAge =>
        simp only [Except.bind, Except.ok.injEq, exists_eq_left']
        by_cases hold : markMaxAge < markAge
        · simp [hold, not_le.mpr hold]
        · rw [if_neg hold, markChecked_ok_iff]
          simp [not_lt.mp hold]
  · refine iff_of_false ?_ (fun h => hfresh h.1)
    rintro ⟨reason, hreason⟩
    obtain ⟨book, hbook, hdatable, -⟩ := checkSources_ok_iff.mp ⟨_, hreason⟩
    obtain ⟨age, hage⟩ := (ageAt_ok_iff now book).mpr hdatable
    rw [bookFresh_iff hbook hage, not_le] at hfresh
    rw [checkSources_eq hbook hage, if_pos hfresh] at hreason
    cases hreason

/-! ### The gate -/

lemma canAddRisk_of_passes (h : Passes s) : canAddRisk (some s) now = checkSources s now := by
  unfold canAddRisk
  obtain ⟨hbid, hask, hle⟩ := h.quoted
  have hgen := h.generation
  simp [h.notUnavailable, h.notStale, not_le.mpr hbid, not_le.mpr hask, not_lt.mpr hle, not_lt.mpr hgen]

lemma canAddRisk_of_not_passes (now : ℚ) (h : ¬Passes s) : ∃ reason, canAddRisk (some s) now = .ok (false, reason) := by
  unfold canAddRisk
  dsimp only
  split
  · exact ⟨_, rfl⟩
  split
  · exact ⟨_, rfl⟩
  split
  · exact ⟨_, rfl⟩
  split
  · exact ⟨_, rfl⟩
  rename_i hgen hhealth hbook hcross
  rw [not_or] at hhealth hbook
  exact absurd ⟨not_lt.mp hgen, hhealth.1, hhealth.2, not_le.mp hbook.1, not_le.mp hbook.2, not_lt.mp hcross⟩ h

lemma canAddRisk_ok_iff : (∃ r, canAddRisk (some s) now = .ok r) ↔ (Passes s → Readable s now) := by
  by_cases h : Passes s
  · rw [canAddRisk_of_passes h, checkSources_ok_iff]
    simp [h]
  · obtain ⟨reason, hreason⟩ := canAddRisk_of_not_passes now h
    simp [h, hreason]

lemma canAddRisk_open_iff : (∃ reason, canAddRisk (some s) now = .ok (true, reason)) ↔
    Passes s ∧ s.BookFresh now ∧ s.MarkFresh now ∧ 0 < s.markPrice := by
  by_cases h : Passes s
  · rw [canAddRisk_of_passes h, checkSources_open_iff]
    simp [h]
  · obtain ⟨reason, hreason⟩ := canAddRisk_of_not_passes now h
    simp [h, hreason]

variable {o : RiskOrder} {existing : ℚ}

/-- The gate lets the order through. -/
def LetsThrough (s : MarketState) (now : ℚ) (o : RiskOrder) (existing : ℚ) : Prop :=
  ∃ reason, newRiskBlockedForAction (some s) o.side existing now = .ok (false, reason)

lemma classify_against : (classifyOrderAction o.side existing = .reduceLong ∨ classifyOrderAction o.side existing = .reduceShort) ↔
    o.Against existing := by
  have hpos := o.positive
  unfold classifyOrderAction RiskOrder.Against RiskOrder.signed
  cases o.side with
  | buy =>
    by_cases h : 0 ≤ existing
    · have hle : 0 ≤ existing * o.quantity := mul_nonneg h hpos.le
      simp [h, hle]
    · simp [h, mul_neg_of_neg_of_pos (not_le.mp h) hpos]
  | sell =>
    by_cases h : existing ≤ 0
    · have hle : existing * o.quantity ≤ 0 := mul_nonpos_of_nonpos_of_nonneg h hpos.le
      simp [h, hle]
    · simp [h, mul_pos (not_le.mp h) hpos]

lemma letsThrough_of_against (h : o.Against existing) : LetsThrough s now o existing := by
  unfold LetsThrough newRiskBlockedForAction
  rw [if_pos (classify_against.mpr h)]
  exact ⟨_, rfl⟩

lemma letsThrough_iff (h : ¬o.Against existing) : LetsThrough s now o existing ↔
    Passes s ∧ s.BookFresh now ∧ s.MarkFresh now ∧ 0 < s.markPrice := by
  rw [← canAddRisk_open_iff]
  unfold LetsThrough newRiskBlockedForAction
  rw [if_neg (mt classify_against.mp h)]
  cases canAddRisk (some s) now with
  | error e => simp [bind, Except.bind]
  | ok r =>
    obtain ⟨allowed, reason⟩ := r
    cases allowed <;> simp [bind, Except.bind, pure, Except.pure]

/-- Taking `q` off a long position of size `p`. -/
lemma shrinks_long {p q : ℚ} (hp : 0 < p) (hq : 0 < q) : |p - q| < |p| ∧ 0 ≤ p * (p - q) ↔ q ≤ |p| := by
  rw [abs_of_pos hp]
  constructor
  · rintro ⟨-, hsame⟩
    have hleft : 0 ≤ p - q := nonneg_of_mul_nonneg_right hsame hp
    linarith
  · intro hle
    have hleft : 0 ≤ p - q := by linarith
    rw [abs_of_nonneg hleft]
    exact ⟨by linarith, mul_nonneg hp.le hleft⟩

/-- An order against the position shrinks it exactly if it is no larger. -/
lemma shrinks_iff (h : o.Against existing) : o.Shrinks existing ↔ o.quantity ≤ |existing| := by
  have hpos := o.positive
  unfold RiskOrder.Against RiskOrder.signed at h
  unfold RiskOrder.Shrinks RiskOrder.signed
  cases hside : o.side with
  | buy =>
    rw [hside] at h
    have hneg : 0 < -existing := neg_pos.mpr (neg_of_mul_neg_left h hpos.le)
    have hlong := shrinks_long hneg hpos
    rwa [← neg_add', abs_neg, abs_neg, neg_mul_neg] at hlong
  | sell =>
    rw [hside] at h
    have hexisting : 0 < existing := by
      by_contra hle
      dsimp only at h
      nlinarith
    simpa only [sub_eq_add_neg] using shrinks_long hexisting hpos

lemma not_shrinks (h : ¬o.Against existing) : ¬o.Shrinks existing := by
  rintro ⟨hlt, -⟩
  unfold RiskOrder.Against at h
  rw [← sq_lt_sq] at hlt
  nlinarith [sq_nonneg o.signed]

/-- What is asked of the gate: it answers, it lets an order through without healthy data only if that shrinks the
position, and with healthy data it lets every order through. -/
structure NewRiskGuarded (s : MarketState) (now : ℚ) (o : RiskOrder) (existing : ℚ) : Prop where
  answers : ∃ r, canAddRisk (some s) now = .ok r
  guarded : LetsThrough s now o existing → s.Healthy now ∨ o.Shrinks existing
  opened : s.Healthy now → LetsThrough s now o existing

/-- When the gate does so, with the generation that construction and invalidations make. -/
structure GateSound (start : MarketState) (ops : List StateOp) (s : MarketState) (now : ℚ) (o : RiskOrder) (existing : ℚ) :
    Prop where
  readable : Passes s → Readable s now
  sized : o.Against existing → o.quantity ≤ |existing| ∨ s.Healthy now
  graded : ¬o.Against existing → Passes s → s.BookFresh now → s.MarkFresh now → 0 < s.markPrice → s.health = .healthy
  counted : ¬o.Against existing → s.Healthy now → 1 ≤ start.generation + ops.countP StateOp.isInvalidate

lemma passes_of_healthy (h : s.Healthy now) (hgen : 1 ≤ s.generation) : Passes s where
  generation := hgen
  notUnavailable := by rw [h.health]; nofun
  notStale := by rw [h.health]; nofun
  quoted := h.quoted

/-- After every history the gate guards new risk exactly if what it reads is there, orders against a position are no
larger than it, degraded data do not come by, and the state was invalidated or constructed with a generation. -/
theorem new_risk_guarded_iff (start : MarketState) (ops : List StateOp) (now : ℚ) (o : RiskOrder) (existing : ℚ) :
    NewRiskGuarded (run MarketState.apply start ops) now o existing ↔
      GateSound start ops (run MarketState.apply start ops) now o existing := by
  have hgen := generation_run start ops
  generalize run MarketState.apply start ops = s at hgen ⊢
  by_cases hagainst : o.Against existing
  · have hlets : LetsThrough s now o existing := letsThrough_of_against hagainst
    constructor
    · intro h
      refine ⟨canAddRisk_ok_iff.mp h.answers, fun _ => ?_, fun hn => absurd hagainst hn, fun hn => absurd hagainst hn⟩
      exact (h.guarded hlets).symm.imp_left (shrinks_iff hagainst).mp
    · intro h
      refine ⟨canAddRisk_ok_iff.mpr h.readable, fun _ => ?_, fun _ => hlets⟩
      exact (h.sized hagainst).symm.imp_right (shrinks_iff hagainst).mpr
  · constructor
    · intro h
      refine ⟨canAddRisk_ok_iff.mp h.answers, fun ha => absurd ha hagainst, fun _ hp hb hm hpos => ?_, fun _ hhealthy => ?_⟩
      · rcases h.guarded ((letsThrough_iff hagainst).mpr ⟨hp, hb, hm, hpos⟩) with hhealthy | hshrinks
        · exact hhealthy.health
        · exact absurd hshrinks (not_shrinks hagainst)
      · have hpasses := ((letsThrough_iff hagainst).mp (h.opened hhealthy)).1
        exact hgen ▸ hpasses.generation
    · intro h
      refine ⟨canAddRisk_ok_iff.mpr h.readable, fun hlets => ?_, fun hhealthy => ?_⟩
      · obtain ⟨hp, hb, hm, hpos⟩ := (letsThrough_iff hagainst).mp hlets
        exact .inl ⟨h.graded hagainst hp hb hm hpos, hp.quoted, hb, hm, hpos⟩
      · have hp := passes_of_healthy hhealthy (hgen ▸ h.counted hagainst hhealthy)
        exact (letsThrough_iff hagainst).mpr ⟨hp, hhealthy.bookFresh, hhealthy.markFresh, hhealthy.markPrice⟩

/-- Fresh and healthy data of a state that was never invalidated do not let a purchase through. A sale of five from one
needs no data at all, though it opens four short. Without a source for the book the gate raises, and with an unavailable
source of the mark price beside a dated book it opens. -/
theorem gate_misses :
    let fresh : SourceStatus := { status := .healthy, updatedAt := some (.aware 100) }
    let refresh (names : List (String × SourceStatus)) : List StateOp :=
      names.map (fun e => .setSource e.1 e.2) ++ [.setPrices 99 101 100, .markHealthyFromSources]
    let healthy := run MarketState.apply {} (refresh [("orderbook", fresh), ("mark_price", fresh)])
    let noBook := run MarketState.apply {} (.invalidate "PROVIDER_FAILURE" :: refresh [("mark_price", fresh)])
    let degraded := run MarketState.apply {}
      (.invalidate "PROVIDER_FAILURE" :: refresh [("orderbook", fresh), ("mark_price", { fresh with status := .unavailable })])
    let sale : RiskOrder := ⟨.sell, 5, by norm_num⟩
    (healthy.health = .healthy ∧
        newRiskBlockedForAction (some healthy) .buy 0 100 = .ok (true, "MARKET_STATE_NO_GENERATION")) ∧
      (newRiskBlockedForAction (some {}) sale.side 1 100 = .ok (false, "RISK_REDUCING_ALLOWED") ∧ (1 : ℚ) + sale.signed = -4) ∧
      canAddRisk (some noBook) 100 = .error (.attributeError "'MarketState' object has no attribute 'updated_at'") ∧
      degraded.health = .degraded ∧ newRiskBlockedForAction (some degraded) .buy 0 100 = .ok (false, "MARKET_DATA_HEALTHY") := by
  decide +kernel

end CryptoTrader
