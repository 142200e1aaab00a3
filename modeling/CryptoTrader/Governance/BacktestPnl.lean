import CryptoTrader.Governance.Backtest
import Mathlib.Algebra.Order.BigOperators.Group.List
import Mathlib.Algebra.Order.Ring.Rat
import Mathlib.Data.List.GetD
import Mathlib.Tactic.Linarith
import Mathlib.Tactic.Ring

/-!
# What a backtest should book

A position's closing is owed the difference of its prices with slippage against the trader,
and the equity the PnL less the fees. The replay books a flip by the formula of the side it
enters, closes the last position without slippage, and charges no fee to the equity.
`backtest_pnl` says for which prices, signals and rates that makes no difference.
-/

namespace CryptoTrader

open BacktestEngine

/-- A change of position: what is closed, at which price, and what is opened. -/
structure Change where
  closed : Option Holding
  price : ℚ
  opened : Holding
  deriving DecidableEq, Repr

namespace BacktestEngine

/-- The changes of position the bars bring, from a position. -/
def changes (e : BacktestEngine) : Option Holding → List Bar → List Change
  | _, [] => []
  | position, bar :: bars =>
    match e.opens bar with
    | none => e.changes position bars
    | some new =>
      if position.map (·.side) = some new.side then e.changes position bars
      else ⟨position, bar.price, new⟩ :: e.changes (some new) bars

/-- The position after the changes. -/
def lastHolding (position : Option Holding) : List Change → Option Holding
  | [] => position
  | c :: cs => lastHolding (some c.opened) cs

lemma lastHolding_some (held : Holding) (cs : List Change) : ∃ held', lastHolding (some held) cs = some held' := by
  induction cs generalizing held with
  | nil => exact ⟨held, rfl⟩
  | cons c cs ih => exact ih c.opened

lemma lastHolding_none_iff (cs : List Change) : lastHolding none cs = none ↔ cs = [] := by
  cases cs with
  | nil => simp [lastHolding]
  | cons c cs =>
    obtain ⟨held, hl⟩ := lastHolding_some c.opened cs
    simp [lastHolding, hl]

/-- What closing a position at a price is owed. -/
def owed (e : BacktestEngine) (held : Holding) (price : ℚ) : ℚ :=
  match held.side with
  | .long => price * (1 - e.slippage) - held.entryPrice
  | .short => held.entryPrice - price * (1 + e.slippage)

/-- One PnL for each position the changes close. -/
def closings (pnl : Change → Holding → ℚ) (cs : List Change) : List ℚ :=
  cs.filterMap (fun c => c.closed.map (pnl c))

/-- What the closings of a replay are owed, the last one included. -/
def owedPnls (e : BacktestEngine) (prices : List ℚ) (signals : ℕ → SignalSide) : List ℚ :=
  let cs := e.changes none (bars prices signals)
  closings (fun c held => e.owed held c.price) cs ++
    ((lastHolding none cs).map (fun held => e.owed held (prices.getLastD 0))).toList

/-- The prices the changes trade at, added up. -/
def volume (cs : List Change) : ℚ :=
  (cs.map (fun c => (if c.closed.isSome then c.price else 0) + c.opened.entryPrice)).sum

/-- The replay books what its closings are owed, and its equity gains that less the fees. -/
def PnlRight (e : BacktestEngine) (prices : List ℚ) (signals : ℕ → SignalSide) (initialEquity : ℚ) : Prop :=
  ∃ st, e.simulate prices signals initialEquity = .ok st ∧ st.pnlList = e.owedPnls prices signals ∧
    st.equity - initialEquity = st.longPnl + st.shortPnl - st.fees

/-- In a strictly rising market every short that a flip closes loses. -/
def ShortsLose (e : BacktestEngine) (prices : List ℚ) (signals : ℕ → SignalSide) (initialEquity : ℚ) : Prop :=
  prices.Pairwise (· < ·) → ∀ st, e.simulate prices signals initialEquity = .ok st →
    ∀ p ∈ ((e.changes none (bars prices signals)).filterMap (·.closed)).zip st.pnlList,
      p.1.side = .short → p.2 < 0

/-- No position costs nothing, each flip happens at the price its position was entered at,
and, if there is a position, neither slippage nor fees come to anything. -/
def EvenTrades (e : BacktestEngine) (prices : List ℚ) (signals : ℕ → SignalSide) : Prop :=
  let cs := e.changes none (bars prices signals)
  (∀ c ∈ cs, c.opened.entryPrice ≠ 0 ∧ ∀ held, c.closed = some held → c.price = held.entryPrice) ∧
    (cs ≠ [] → prices.getLastD 0 * e.slippage = 0 ∧ e.feeRate * (volume cs + prices.getLastD 0) = 0)

lemma opens_side {e : BacktestEngine} {bar : Bar} {new : Holding} (h : e.opens bar = some new) :
    bar.signal = .long ∧ new = ⟨.long, bar.price * (1 + e.slippage)⟩ ∨
      bar.signal = .short ∧ new = ⟨.short, bar.price * (1 - e.slippage)⟩ := by
  unfold opens at h
  cases hs : bar.signal <;> simp_all

/-! ### One bar -/

/-- The state after a change: what the flip books, then the new position with its fee. -/
def applyChange (e : BacktestEngine) (st : BacktestState) (c : Change) : BacktestState :=
  (match c.closed with
    | none => st
    | some held => st.realise held (e.flipPnl c.opened.side held c.price) (c.price * e.feeRate)).enter
      c.opened (c.opened.entryPrice * e.feeRate)

/-- A signal leaves the position, or changes it. -/
lemma onSignal_cases (e : BacktestEngine) (st : BacktestState) (bar : Bar) (bars : List Bar) :
    (e.onSignal st bar = st ∧ e.changes st.position (bar :: bars) = e.changes st.position bars) ∨
    ∃ new, st.position.map (·.side) ≠ some new.side ∧ e.opens bar = some new ∧
      e.onSignal st bar = e.applyChange st ⟨st.position, bar.price, new⟩ ∧
      e.changes st.position (bar :: bars) = ⟨st.position, bar.price, new⟩ :: e.changes (some new) bars := by
  cases ho : e.opens bar with
  | none => exact .inl ⟨by simp only [onSignal, ho], by simp only [changes, ho]⟩
  | some new =>
    by_cases hs : st.position.map (·.side) = some new.side
    · exact .inl ⟨by simp only [onSignal, ho, if_pos hs], by simp only [changes, ho, if_pos hs]⟩
    · exact .inr ⟨new, hs, rfl, by simp only [onSignal, ho, if_neg hs]; rfl,
        by simp only [changes, ho, if_neg hs]⟩

/-- The books of a state: what marking and tracking leave alone. -/
def books (st : BacktestState) : ℚ × List ℚ × ℚ × ℚ × ℚ × Option Holding :=
  (st.equity, st.pnlList, st.longPnl, st.shortPnl, st.fees, st.position)

lemma mark_ok {st st' : BacktestState} {price : ℚ} (h : st.mark price = .ok st') : books st' = books st := by
  unfold BacktestState.mark at h
  cases hp : st.position with
  | none =>
    obtain rfl : st = st' := by simpa [hp] using h
    rfl
  | some held =>
    by_cases h0 : held.entryPrice = 0
    · simp [hp, h0] at h
    · simp only [hp, if_neg h0, Except.ok.injEq] at h
      simp [← h, books, hp]

lemma mark_ok_iff (st : BacktestState) (price : ℚ) :
    (∃ st', st.mark price = .ok st') ↔ ∀ held, st.position = some held → held.entryPrice ≠ 0 := by
  unfold BacktestState.mark
  cases st.position with
  | none => simp
  | some held => by_cases h : held.entryPrice = 0 <;> simp [h]

lemma bar_ok {e : BacktestEngine} {st st' : BacktestState} {b : Bar} (h : e.bar st b = .ok st') :
    books st' = books (e.onSignal st b) := by
  unfold bar at h
  cases hm : (e.onSignal st b).mark b.price with
  | error err => simp [hm, Bind.bind, Except.bind] at h
  | ok marked =>
    obtain rfl : marked.track = st' := by simpa [hm, Bind.bind, Except.bind, pure, Except.pure] using h
    exact (mark_ok hm : books marked = _)

lemma bar_ok_iff (e : BacktestEngine) (st : BacktestState) (b : Bar) :
    (∃ st', e.bar st b = .ok st') ↔ ∀ held, (e.onSignal st b).position = some held → held.entryPrice ≠ 0 := by
  rw [← mark_ok_iff _ b.price]
  unfold bar
  cases (e.onSignal st b).mark b.price <;> simp [Bind.bind, Except.bind, pure, Except.pure]

lemma applyChange_position (e : BacktestEngine) (st : BacktestState) (c : Change) :
    (e.applyChange st c).position = some c.opened := rfl

/-! ### A whole replay -/

/-- What the changes leave in the books. -/
structure Booked (e : BacktestEngine) (st : BacktestState) (cs : List Change) (st' : BacktestState) : Prop where
  position : st'.position = lastHolding st.position cs
  pnlList : st'.pnlList = st.pnlList ++ closings (fun c held => e.flipPnl c.opened.side held c.price) cs
  fees : st'.fees = st.fees + e.feeRate * volume cs
  equity : st'.equity - st'.longPnl - st'.shortPnl = st.equity - st.longPnl - st.shortPnl

lemma Booked.of_books {e : BacktestEngine} {st₁ st st' : BacktestState} {cs : List Change}
    (h : Booked e st₁ cs st') (hb : books st₁ = books st) : Booked e st cs st' := by
  simp only [books, Prod.mk.injEq] at hb
  obtain ⟨hequity, hpnl, hlong, hshort, hfees, hposition⟩ := hb
  exact ⟨hposition ▸ h.position, hpnl ▸ h.pnlList, hfees ▸ h.fees, hequity ▸ hlong ▸ hshort ▸ h.equity⟩

lemma Booked.change {e : BacktestEngine} {st st' : BacktestState} {c : Change} {cs : List Change}
    (h : Booked e (e.applyChange st c) cs st') : Booked e st (c :: cs) st' := by
  have hvolume : volume (c :: cs) = (if c.closed.isSome then c.price else 0) + c.opened.entryPrice + volume cs := rfl
  cases hp : c.closed with
  | none =>
    have hst : e.applyChange st c = st.enter c.opened (c.opened.entryPrice * e.feeRate) := by
      simp only [applyChange, hp]
    rw [hst] at h
    refine ⟨h.position, ?_, ?_, h.equity⟩
    · simpa [closings, hp, BacktestState.enter] using h.pnlList
    · rw [h.fees, hvolume, hp]
      simp only [BacktestState.enter, Option.isSome_none, Bool.false_eq_true, if_false]
      ring
  | some held =>
    have hst : e.applyChange st c = (st.realise held (e.flipPnl c.opened.side held c.price)
        (c.price * e.feeRate)).enter c.opened (c.opened.entryPrice * e.feeRate) := by
      simp only [applyChange, hp]
    rw [hst] at h
    refine ⟨h.position, ?_, ?_, ?_⟩
    · simpa [closings, hp, BacktestState.enter, BacktestState.realise] using h.pnlList
    · rw [h.fees, hvolume, hp]
      simp only [BacktestState.enter, BacktestState.realise, Option.isSome_some, if_true]
      ring
    · rw [h.equity]
      simp only [BacktestState.enter, BacktestState.realise]
      split <;> ring

lemma runBars_cons (e : BacktestEngine) (st : BacktestState) (b : Bar) (bs : List Bar) :
    e.runBars st (b :: bs) = e.bar st b >>= fun st => e.runBars st bs := rfl

/-- The books of a replay are those of its changes. -/
theorem runBars_booked {e : BacktestEngine} {st st' : BacktestState} {bs : List Bar}
    (h : e.runBars st bs = .ok st') : Booked e st (e.changes st.position bs) st' := by
  induction bs generalizing st with
  | nil =>
    obtain rfl : st = st' := by simpa [runBars, pure, Except.pure] using h
    exact ⟨rfl, by simp [closings, changes], by simp [volume, changes], rfl⟩
  | cons b bs ih =>
    rw [runBars_cons] at h
    cases hb : e.bar st b with
    | error err => simp [hb, Bind.bind, Except.bind] at h
    | ok st₁ =>
      rw [hb] at h
      have hrest := ih h
      have hbooks := bar_ok hb
      have hposition : st₁.position = (e.onSignal st b).position := congrArg (fun x => x.2.2.2.2.2) hbooks
      obtain ⟨hs, hcs⟩ | ⟨new, -, -, hs, hcs⟩ := onSignal_cases e st b bs
      · rw [hs] at hbooks hposition
        rw [hcs, ← hposition]
        exact hrest.of_books hbooks
      · rw [hs] at hbooks hposition
        rw [applyChange_position] at hposition
        rw [hcs]
        rw [hposition] at hrest
        exact (hrest.of_books hbooks).change

/-- A replay comes to an end exactly when no position it opens costs nothing. -/
theorem runBars_ok_iff (e : BacktestEngine) (st : BacktestState) (bs : List Bar)
    (hst : ∀ held, st.position = some held → held.entryPrice ≠ 0) :
    (∃ st', e.runBars st bs = .ok st') ↔ ∀ c ∈ e.changes st.position bs, c.opened.entryPrice ≠ 0 := by
  induction bs generalizing st with
  | nil => simp [runBars, changes, pure, Except.pure]
  | cons b bs ih =>
    rw [runBars_cons]
    have hok := bar_ok_iff e st b
    cases hb : e.bar st b with
    | error err =>
      rw [hb] at hok
      have hzero : ¬∀ held, (e.onSignal st b).position = some held → held.entryPrice ≠ 0 := by
        rw [← hok]
        simp
      obtain ⟨hs, -⟩ | ⟨new, -, -, hs, hcs⟩ := onSignal_cases e st b bs
      · rw [hs] at hzero
        exact absurd hst hzero
      · rw [hs, applyChange_position] at hzero
        refine iff_of_false (by simp [Bind.bind, Except.bind]) (fun h => hzero ?_)
        rintro held hheld
        have hnew : new = held := by simpa using hheld
        exact hnew ▸ h _ (hcs ▸ List.mem_cons_self)
    | ok st₁ =>
      have hposition : st₁.position = (e.onSignal st b).position :=
        congrArg (fun x => x.2.2.2.2.2) (bar_ok hb)
      have hst₁ : ∀ held, st₁.position = some held → held.entryPrice ≠ 0 := by
        rw [hposition]
        exact hok.mp ⟨st₁, hb⟩
      have hrest := ih st₁ hst₁
      obtain ⟨hs, hcs⟩ | ⟨new, -, -, hs, hcs⟩ := onSignal_cases e st b bs
      · rw [hs] at hposition
        rw [hcs, ← hposition]
        exact hrest
      · rw [hs, applyChange_position] at hposition
        have hnew : new.entryPrice ≠ 0 := hst₁ new hposition
        rw [hposition] at hrest
        rw [hcs, List.forall_mem_cons, and_iff_right hnew]
        exact hrest

/-- The end of a replay, from the changes of position its bars bring. -/
lemma simulate_booked {e : BacktestEngine} {prices : List ℚ} {signals : ℕ → SignalSide} {initialEquity : ℚ}
    {st : BacktestState} (h : e.simulate prices signals initialEquity = .ok st) :
    let cs := e.changes none (bars prices signals)
    let last := prices.getLastD 0
    st.pnlList = closings (fun c held => e.flipPnl c.opened.side held c.price) cs ++
      ((lastHolding none cs).map (fun held => finalPnl held last)).toList ∧
    st.fees = e.feeRate * (volume cs + if cs = [] then 0 else last) ∧
    st.equity - initialEquity = st.longPnl + st.shortPnl := by
  intro cs last
  unfold simulate at h
  cases hr : e.runBars { equity := initialEquity, peak := initialEquity } (bars prices signals) with
  | error err => simp [hr, Bind.bind, Except.bind] at h
  | ok st₀ =>
    obtain rfl : e.closeOut prices st₀ = st := by simpa [hr, Bind.bind, Except.bind, pure, Except.pure] using h
    obtain ⟨hposition, hpnl, hfees, hequity⟩ := runBars_booked hr
    change st₀.position = lastHolding none cs at hposition
    change st₀.pnlList = [] ++ closings _ cs at hpnl
    change st₀.fees = 0 + e.feeRate * volume cs at hfees
    change st₀.equity - st₀.longPnl - st₀.shortPnl = initialEquity - 0 - 0 at hequity
    cases hl : lastHolding none cs with
    | none =>
      rw [hl] at hposition
      have hout : e.closeOut prices st₀ = st₀ := by simp only [closeOut, hposition]
      rw [hout, hpnl, hfees, if_pos ((lastHolding_none_iff cs).mp hl)]
      refine ⟨by simp, by ring, by linarith⟩
    | some held =>
      rw [hl] at hposition
      have hout : e.closeOut prices st₀ = st₀.realise held (finalPnl held last) (last * e.feeRate) := by
        simp only [closeOut, hposition]; rfl
      have hne : cs ≠ [] := fun hnil => by simp [hnil, lastHolding] at hl
      rw [hout, if_neg hne]
      simp only [BacktestState.realise, hpnl, hfees]
      refine ⟨by simp, by ring, ?_⟩
      split <;> linarith

lemma simulate_ok_iff (e : BacktestEngine) (prices : List ℚ) (signals : ℕ → SignalSide) (initialEquity : ℚ) :
    (∃ st, e.simulate prices signals initialEquity = .ok st) ↔
      ∀ c ∈ e.changes none (bars prices signals), c.opened.entryPrice ≠ 0 := by
  rw [← runBars_ok_iff e { equity := initialEquity, peak := initialEquity } (bars prices signals) (by simp)]
  unfold simulate
  cases e.runBars { equity := initialEquity, peak := initialEquity } (bars prices signals) <;>
    simp [Bind.bind, Except.bind, pure, Except.pure]

/-! ### What is booked and what is owed -/

lemma flipPnl_eq_owed (e : BacktestEngine) {newSide : HeldSide} {held : Holding} (h : held.side ≠ newSide)
    (price : ℚ) : e.flipPnl newSide held price = e.owed held price ↔ price = held.entryPrice := by
  cases newSide <;> cases hs : held.side <;> simp only [hs, flipPnl, owed] at h ⊢
  · exact absurd rfl h
  · constructor <;> intro heq <;> linarith
  · constructor <;> intro heq <;> linarith
  · exact absurd rfl h

lemma finalPnl_eq_owed (e : BacktestEngine) (held : Holding) (price : ℚ) :
    finalPnl held price = e.owed held price ↔ price * e.slippage = 0 := by
  cases hs : held.side <;> simp only [hs, finalPnl, owed, reduceCtorEq, if_true, if_false] <;>
    constructor <;> intro heq <;> linarith

lemma changes_sides {e : BacktestEngine} {position : Option Holding} {bs : List Bar} {c : Change}
    (hc : c ∈ e.changes position bs) {held : Holding} (hh : c.closed = some held) : held.side ≠ c.opened.side := by
  induction bs generalizing position with
  | nil => simp [changes] at hc
  | cons b bs ih =>
    unfold changes at hc
    cases ho : e.opens b with
    | none =>
      simp only [ho] at hc
      exact ih hc
    | some new =>
      simp only [ho] at hc
      split at hc
      · exact ih hc
      · rcases List.mem_cons.mp hc with rfl | hc
        · rename_i hs
          simp only at hh
          simpa [hh] using hs
        · exact ih hc

lemma closings_length (f g : Change → Holding → ℚ) (cs : List Change) :
    (closings f cs).length = (closings g cs).length := by
  induction cs with
  | nil => rfl
  | cons c cs ih => cases hc : c.closed <;> simpa [closings, hc] using ih

lemma closings_congr {f g : Change → Holding → ℚ} {cs : List Change} :
    closings f cs = closings g cs ↔ ∀ c ∈ cs, ∀ held, c.closed = some held → f c held = g c held := by
  induction cs with
  | nil => simp [closings]
  | cons c cs ih =>
    rw [List.forall_mem_cons, ← ih]
    cases hc : c.closed <;> simp [closings, hc]

/-- The replay books what it owes exactly when its trades are even. -/
theorem pnlRight_iff (e : BacktestEngine) (prices : List ℚ) (signals : ℕ → SignalSide) (initialEquity : ℚ) :
    e.PnlRight prices signals initialEquity ↔ e.EvenTrades prices signals := by
  set cs := e.changes none (bars prices signals) with hcs
  set last := prices.getLastD 0 with hlast
  have hnonzero := simulate_ok_iff e prices signals initialEquity
  rw [← hcs] at hnonzero
  -- the flips, the last closing and the fees, each on its own
  have hflips : closings (fun c held => e.flipPnl c.opened.side held c.price) cs =
      closings (fun c held => e.owed held c.price) cs ↔
        ∀ c ∈ cs, ∀ held, c.closed = some held → c.price = held.entryPrice := by
    rw [closings_congr]
    refine forall₂_congr (fun c hc => forall₂_congr (fun held hh => ?_))
    exact flipPnl_eq_owed e (changes_sides hc hh) c.price
  have hfinal : ((lastHolding none cs).map (fun held => finalPnl held last)).toList =
      ((lastHolding none cs).map (fun held => e.owed held last)).toList ↔ (cs ≠ [] → last * e.slippage = 0) := by
    have hnone := lastHolding_none_iff cs
    cases hl : lastHolding none cs with
    | none => simp [hnone.mp hl]
    | some held =>
      have hne : cs ≠ [] := fun hnil => by simp [hnil, lastHolding] at hl
      simpa [hne] using finalPnl_eq_owed e held last
  have hfees : e.feeRate * (volume cs + if cs = [] then 0 else last) = 0 ↔
      (cs ≠ [] → e.feeRate * (volume cs + last) = 0) := by
    by_cases hnil : cs = []
    · simp [hnil, volume]
    · simp [hnil]
  have hright : ∀ st, e.simulate prices signals initialEquity = .ok st →
      (st.pnlList = e.owedPnls prices signals ∧ st.equity - initialEquity = st.longPnl + st.shortPnl - st.fees ↔
        (∀ c ∈ cs, ∀ held, c.closed = some held → c.price = held.entryPrice) ∧
        (cs ≠ [] → last * e.slippage = 0 ∧ e.feeRate * (volume cs + last) = 0)) := by
    intro st hst
    obtain ⟨hpnl, hpaid, hequity⟩ := simulate_booked hst
    rw [← hcs, ← hlast] at hpnl
    rw [← hcs, ← hlast] at hpaid
    have hlists : st.pnlList = e.owedPnls prices signals ↔
        closings (fun c held => e.flipPnl c.opened.side held c.price) cs =
          closings (fun c held => e.owed held c.price) cs ∧
        ((lastHolding none cs).map (fun held => finalPnl held last)).toList =
          ((lastHolding none cs).map (fun held => e.owed held last)).toList := by
      rw [hpnl]
      refine ⟨fun h => List.append_inj h (closings_length _ _ cs), fun h => ?_⟩
      rw [h.1, h.2]
      rfl
    have hfree : st.equity - initialEquity = st.longPnl + st.shortPnl - st.fees ↔ st.fees = 0 := by
      rw [hequity]
      constructor <;> intro heq <;> linarith
    rw [hlists, hflips, hfinal, hfree, hpaid, hfees, and_assoc, imp_and]
  constructor
  · rintro ⟨st, hst, hboth⟩
    obtain ⟨heven, hrates⟩ := (hright st hst).mp hboth
    exact ⟨fun c hc => ⟨hnonzero.mp ⟨st, hst⟩ c hc, heven c hc⟩, hrates⟩
  · rintro ⟨heven, hrates⟩
    obtain ⟨st, hst⟩ := hnonzero.mpr (fun c hc => (heven c hc).1)
    exact ⟨st, hst, (hright st hst).mpr ⟨fun c hc => (heven c hc).2, hrates⟩⟩

/-! ### Positive prices -/

lemma bars_prices (prices : List ℚ) (signals : ℕ → SignalSide) :
    (bars prices signals).map (·.price) = prices.drop 59 := by
  unfold bars
  rw [List.map_map, List.map_drop]
  congr 1
  exact List.zipIdx_map_fst 0 prices

lemma changes_price {e : BacktestEngine} {position : Option Holding} {bs : List Bar} {c : Change}
    (hc : c ∈ e.changes position bs) : ∃ b ∈ bs, c.price = b.price ∧ e.opens b = some c.opened := by
  induction bs generalizing position with
  | nil => simp [changes] at hc
  | cons b bs ih =>
    have hlater : ∀ position, c ∈ e.changes position bs →
        ∃ b' ∈ b :: bs, c.price = b'.price ∧ e.opens b' = some c.opened := by
      intro position hc
      obtain ⟨b', hb', h⟩ := ih hc
      exact ⟨b', List.mem_cons_of_mem _ hb', h⟩
    unfold changes at hc
    cases ho : e.opens b with
    | none =>
      simp only [ho] at hc
      exact hlater _ hc
    | some new =>
      simp only [ho] at hc
      split at hc
      · exact hlater _ hc
      · rcases List.mem_cons.mp hc with rfl | hc
        · exact ⟨b, List.mem_cons_self, rfl, ho⟩
        · exact hlater _ hc

lemma changes_none_eq_nil_iff (e : BacktestEngine) (bs : List Bar) :
    e.changes none bs = [] ↔ ∀ b ∈ bs, b.signal = .noTrade := by
  induction bs with
  | nil => simp [changes]
  | cons b bs ih =>
    rw [List.forall_mem_cons, ← ih]
    cases hs : b.signal <;> simp [changes, opens, hs]

/-- In a rising market without slippage a position is closed above its entry. -/
lemma closed_above {e : BacktestEngine} (hslip : e.slippage = 0) {position : Option Holding} {bs : List Bar}
    (hrise : bs.Pairwise (fun b b' => b.price < b'.price))
    (hentry : ∀ held, position = some held → ∀ b ∈ bs, held.entryPrice < b.price)
    {c : Change} (hc : c ∈ e.changes position bs) {held : Holding} (hh : c.closed = some held) :
    held.entryPrice < c.price := by
  induction bs generalizing position with
  | nil => simp [changes] at hc
  | cons b bs ih =>
    rw [List.pairwise_cons] at hrise
    have hkept : ∀ held, position = some held → ∀ b' ∈ bs, held.entryPrice < b'.price :=
      fun held' hp b' hb' => hentry held' hp b' (List.mem_cons_of_mem _ hb')
    unfold changes at hc
    cases ho : e.opens b with
    | none =>
      simp only [ho] at hc
      exact ih hrise.2 hkept hc
    | some new =>
      simp only [ho] at hc
      split at hc
      · exact ih hrise.2 hkept hc
      · rcases List.mem_cons.mp hc with rfl | hc
        · exact hentry held hh b List.mem_cons_self
        · refine ih hrise.2 ?_ hc
          rintro held' hnew b' hb'
          have hprice : held'.entryPrice = b.price := by
            obtain rfl : new = held' := by simpa using hnew
            rcases opens_side ho with ⟨-, rfl⟩ | ⟨-, rfl⟩ <;> simp [hslip]
          rw [hprice]
          exact hrise.1 b' hb'

/-- For positive prices the trades are even when there are none, or when neither slippage
nor fees are charged and each flip happens at the price its position was entered at. -/
lemma evenTrades_iff_of_pos (e : BacktestEngine) {prices : List ℚ} (signals : ℕ → SignalSide)
    (hpos : ∀ p ∈ prices, 0 < p) :
    e.EvenTrades prices signals ↔ (∀ b ∈ bars prices signals, b.signal = .noTrade) ∨
      e.slippage = 0 ∧ e.feeRate = 0 ∧
        ∀ c ∈ e.changes none (bars prices signals), ∀ held, c.closed = some held → c.price = held.entryPrice := by
  have hbar : ∀ b ∈ bars prices signals, 0 < b.price := by
    intro b hb
    have hmem : b.price ∈ prices.drop 59 := bars_prices prices signals ▸ List.mem_map_of_mem hb
    exact hpos _ (List.mem_of_mem_drop hmem)
  have hprice : ∀ c ∈ e.changes none (bars prices signals), 0 < c.price := by
    intro c hc
    obtain ⟨b, hb, hcb, -⟩ := changes_price hc
    exact hcb ▸ hbar b hb
  have hentry : e.slippage = 0 → ∀ c ∈ e.changes none (bars prices signals), c.opened.entryPrice = c.price := by
    intro hslip c hc
    obtain ⟨b, -, hcb, ho⟩ := changes_price hc
    rcases opens_side ho with ⟨-, h⟩ | ⟨-, h⟩ <;> simp [h, hslip, hcb]
  have hlast : e.changes none (bars prices signals) ≠ [] → 0 < prices.getLastD 0 := by
    intro hne
    obtain ⟨c, hc⟩ := List.exists_mem_of_ne_nil _ hne
    obtain ⟨b, hb, -⟩ := changes_price hc
    have hprices : prices ≠ [] := by
      rintro rfl
      simp [bars] at hb
    rw [List.getLastD_eq_getLast?, List.getLast?_eq_some_getLast hprices]
    exact hpos _ (List.getLast_mem hprices)
  rw [← changes_none_eq_nil_iff e]
  unfold EvenTrades
  simp only
  generalize e.changes none (bars prices signals) = cs at hprice hentry hlast ⊢
  by_cases hnil : cs = []
  · simp [hnil]
  have hvolume : e.slippage = 0 → 0 < volume cs + prices.getLastD 0 := by
    intro hslip
    refine add_pos_of_nonneg_of_pos (List.sum_nonneg ?_) (hlast hnil)
    simp only [List.forall_mem_map]
    intro c hc
    rw [hentry hslip c hc]
    split <;> linarith [hprice c hc]
  rw [or_iff_right hnil]
  constructor
  · rintro ⟨heven, hrates⟩
    obtain ⟨hs, hf⟩ := hrates hnil
    have hslip : e.slippage = 0 := (mul_eq_zero.mp hs).resolve_left (hlast hnil).ne'
    exact ⟨hslip, (mul_eq_zero.mp hf).resolve_right (hvolume hslip).ne', fun c hc => (heven c hc).2⟩
  · rintro ⟨hslip, hfee, heven⟩
    refine ⟨fun c hc => ⟨?_, heven c hc⟩, fun _ => by simp [hslip, hfee]⟩
    rw [hentry hslip c hc]
    exact (hprice c hc).ne'

/-- Where the trades are even no rising market lets a flip close a short. -/
lemma shortsLose_of_even {e : BacktestEngine} {prices : List ℚ} {signals : ℕ → SignalSide}
    (h : (∀ b ∈ bars prices signals, b.signal = .noTrade) ∨ e.slippage = 0 ∧ e.feeRate = 0 ∧
      ∀ c ∈ e.changes none (bars prices signals), ∀ held, c.closed = some held → c.price = held.entryPrice)
    (initialEquity : ℚ) : e.ShortsLose prices signals initialEquity := by
  intro hrise st _ p hp _
  have hmem := (List.of_mem_zip hp).1
  obtain ⟨c, hc, hh⟩ := List.mem_filterMap.mp hmem
  rcases h with hnone | ⟨hslip, -, heven⟩
  · simp [(changes_none_eq_nil_iff e _).mpr hnone] at hc
  · have hprices : ((bars prices signals).map (·.price)).Pairwise (· < ·) := by
      rw [bars_prices]
      exact hrise.drop
    have habove := closed_above hslip (List.pairwise_map.mp hprices) (by simp) hc hh
    exact absurd (heven c hc p.1 hh) habove.ne'

end BacktestEngine

/-- A replay books what its closings are owed, and the equity net of fees, exactly when its
trades are even. For positive prices, where a short lost to a rising market is owed too,
that is when nothing is traded, or when neither slippage nor fees are charged and every
flip happens at the price its position was entered at. -/
theorem backtest_pnl (e : BacktestEngine) (prices : List ℚ) (signals : ℕ → SignalSide) (initialEquity : ℚ) :
    (e.PnlRight prices signals initialEquity ↔ e.EvenTrades prices signals) ∧
    ((∀ p ∈ prices, 0 < p) →
      (e.PnlRight prices signals initialEquity ∧ e.ShortsLose prices signals initialEquity ↔
        (∀ b ∈ bars prices signals, b.signal = .noTrade) ∨ e.slippage = 0 ∧ e.feeRate = 0 ∧
          ∀ c ∈ e.changes none (bars prices signals), ∀ held, c.closed = some held →
            c.price = held.entryPrice)) := by
  refine ⟨pnlRight_iff e prices signals initialEquity, fun hpos => ?_⟩
  rw [pnlRight_iff, evenTrades_iff_of_pos e signals hpos]
  exact and_iff_left_of_imp (fun h => shortsLose_of_even h initialEquity)

/-! ### A short flipped in a rising market -/

/-- 101, 102, .., 161. -/
def risingPrices : List ℚ :=
  (List.range 61).map (fun n : ℕ => (101 + n : ℚ))

def shortThenLong (i : ℕ) : SignalSide :=
  if i = 59 then .short else .long

/-- The short entered at 160 and flipped at 161 is booked as a gain. -/
theorem flipped_short_gains :
    ¬∀ (e : BacktestEngine) (prices : List ℚ) (signals : ℕ → SignalSide) (initialEquity : ℚ),
      60 ≤ prices.length →
        e.PnlRight prices signals initialEquity ∧ e.ShortsLose prices signals initialEquity := by
  intro h
  have hright := (h ⟨0, 0⟩ risingPrices shortThenLong 10000 (by decide)).1
  rw [pnlRight_iff] at hright
  have heven := hright.1 ⟨some ⟨.short, 160⟩, 161, ⟨.long, 161⟩⟩ (by decide +kernel)
  have hprice := heven.2 ⟨.short, 160⟩ rfl
  norm_num at hprice

end CryptoTrader
