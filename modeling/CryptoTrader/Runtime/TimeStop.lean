import CryptoTrader.Lib.Runs
import CryptoTrader.Runtime.PositionExit

/-!
# The time stop and the age of a position

A bridge asks for the opening time of a position when it sees the symbol for the first time and
keeps the answer under the symbol. A run stops no position early unless a position is visited while
a time that the bridge keeps for an earlier one of the same symbol is past the time stop
(`time_stop_never_early_iff`).
-/

namespace CryptoTrader

open KeyedTable Runs

/-- The side on which a position is open. -/
def heldSide (engine : Option PerpetualPaperEngine) (books : Books) (k : PositionKey) : Option PositionSide :=
  (row Candidate.key k (spotCandidates books ++ perpetualCandidates engine books)).map Candidate.side

/-- A bridge, with the side of each open position and the time at which it was opened. -/
structure TimedBridge where
  bridge : Bridge
  since : PositionKey → Option (PositionSide × ℤ)

/-- The time at which the candidate's position was opened, if it is open. -/
def TimedBridge.openSince (st : TimedBridge) (c : Candidate) : Option ℤ :=
  (st.since c.key).bind (fun held => if held.1 = c.side then some held.2 else none)

/-- The clock that a turn reads. -/
def BridgeTurn.reads : BridgeTurn → Option ℤ
  | .visit _ clock _ => some clock
  | .opened _ _ clock _ => some clock
  | _ => none

/-- A turn at a time. -/
structure TimedTurn where
  turn : BridgeTurn
  clock : ℤ
  reads_clock : ∀ reading ∈ turn.reads, reading = clock

/-- A position that the turn opens, or opens on the other side, is open since the turn. -/
def timedStep (setup : BridgeSetup) (st : TimedBridge) (l : TimedTurn) : TimedBridge :=
  let bridge := bridgeStep setup st.bridge l.turn
  { bridge
    since := fun k => (heldSide setup.engine bridge.flow.db.rest k).map (fun side =>
      match st.since k with
      | some (held, opened) => if held = side then (held, opened) else (side, l.clock)
      | none => (side, l.clock)) }

namespace Bridge

variable (setup : BridgeSetup) (st : Bridge)

/-- The candidate for which the turn begins an exit. -/
def timeStopped (turn : BridgeTurn) : Option Candidate :=
  match turn with
  | .visit r _ _ =>
    match st.runs[r]?, (taskStep setup st turn).runs[r]? with
    | some (.visiting _ _), some (.exiting c _ _ _) => some c
    | _, _ => none
  | .opened r _ _ _ =>
    match st.runs[r]?, (taskStep setup st turn).runs[r]? with
    | some (.opening _ _ _), some (.exiting c _ _ _) => some c
    | _, _ => none
  | _ => none

/-- The candidate without a mark to which a visit comes. -/
def visited : BridgeTurn → Option Candidate
  | .visit r _ _ =>
    match st.runs[r]? with
    | some (.visiting _ (c :: _)) => if c.symbol ∈ st.inFlight then none else some c
    | _ => none
  | _ => none

/-- `_first_seen_open.get`. -/
def firstSeenOf (symbol : String) : Option ℤ :=
  (row Prod.fst symbol st.firstSeen).map Prod.snd

/-- The position for which an opening time is answered. -/
def asked : BridgeTurn → Option (Candidate × Option ℤ)
  | .opened r openedAt _ _ =>
    match st.runs[r]? with
    | some (.opening c _ _) => some (c, openedAt)
    | _ => none
  | _ => none

end Bridge

/-- The answer about a position that is open is the time it was opened. -/
def AnswersTrue (st : TimedBridge) (l : TimedTurn) : Prop :=
  ∀ answer ∈ st.bridge.asked l.turn, ∀ opened ∈ st.openSince answer.1, answer.2 = some opened

instance decidableAnswersTrue (st : TimedBridge) (l : TimedTurn) : Decidable (AnswersTrue st l) :=
  inferInstanceAs (Decidable (∀ answer ∈ st.bridge.asked l.turn, ∀ opened ∈ st.openSince answer.1, _ = _))

/-- Turns of a new bridge with a time stop, and with a provider of opening times that answers true. -/
structure TimeStopRun where
  setup : BridgeSetup
  stop : ℤ
  flow : OrderFlow
  since : PositionKey → Option (PositionSide × ℤ)
  turns : List TimedTurn
  timeStop_eq : setup.timeStop = some stop
  opensKnown : setup.opensKnown = true
  answers_true : Along (timedStep setup) AnswersTrue ⟨{ flow }, since⟩ turns

namespace TimeStopRun

variable (R : TimeStopRun)

def start : TimedBridge := ⟨{ flow := R.flow }, R.since⟩

/-- No exit is begun for a position that is open for less than the time stop. -/
def NeverEarly : Prop :=
  Along (timedStep R.setup) (fun st l => ∀ c ∈ st.bridge.timeStopped R.setup l.turn,
    ∀ opened ∈ st.openSince c, R.stop ≤ l.clock - opened) R.start R.turns

/-- No position that is open for less than the time stop is visited while the time kept for its
symbol is past it. -/
def KeepsNoOldTime : Prop :=
  Along (timedStep R.setup) (fun st l => ∀ c ∈ st.bridge.visited l.turn,
    ∀ opened ∈ st.openSince c, l.clock - opened < R.stop →
      ∀ first ∈ st.bridge.firstSeenOf c.symbol, l.clock - first < R.stop) R.start R.turns

end TimeStopRun

section Turns

variable {setup : BridgeSetup} {stop : ℤ} (hstop : setup.timeStop = some stop) {st : Bridge}
include hstop

lemma expired_iff (clock first : ℤ) : setup.expired clock first = true ↔ stop ≤ clock - first := by
  unfold BridgeSetup.expired
  rw [hstop, Option.any_some, decide_eq_true_iff]

end Turns

lemma goto_run {st : Bridge} {r : ℕ} {run : BridgeRun} (hr : st.runs[r]? = some run) (run' : BridgeRun) :
    (st.goto r run').runs[r]? = some run' := by
  have hlt : r < st.runs.length := (List.getElem?_eq_some_iff.mp hr).1
  simp [Bridge.goto, hlt]

section Stops

variable {setup : BridgeSetup} {stop : ℤ} (hstop : setup.timeStop = some stop) {st : Bridge} {r : ℕ} {clock : ℤ} {acts : Bool}
include hstop

/-- Where a candidate is judged, an exit begins if its age is past the time stop. -/
lemma judge_run {st' : Bridge} {run : BridgeRun} (hr : st'.runs[r]? = some run) (c : Candidate) (all rest : List Candidate)
    (first : ℤ) :
    (judge setup r c all rest first clock acts st').runs[r]? = some (
      if stop ≤ clock - first then .exiting c all rest (.deciding clock) else if acts then .ended else .visiting all rest) := by
  unfold judge
  by_cases hexpired : setup.expired clock first = true
  · rw [if_pos hexpired, if_pos ((expired_iff hstop clock first).mp hexpired)]
    have hmark : (st'.mark c.symbol).runs[r]? = some run := hr
    exact goto_run hmark _
  · rw [if_neg hexpired, if_neg (fun h => hexpired ((expired_iff hstop clock first).mpr h))]
    exact goto_run hr _

/-- A visit begins an exit where the time kept for the symbol is past the time stop. -/
lemma timeStopped_visit (hknown : setup.opensKnown = true) (c : Candidate) :
    st.timeStopped setup (.visit r clock acts) = some c ↔
      st.visited (.visit r clock acts) = some c ∧ ∃ first, st.firstSeenOf c.symbol = some first ∧ stop ≤ clock - first := by
  unfold Bridge.timeStopped Bridge.visited
  simp only [taskStep]
  cases hr : st.runs[r]? with
  | none => simp
  | some run =>
    cases run with
    | visiting all rest =>
      cases rest with
      | nil =>
        have hfinish : (st.finish setup clock (all.map Candidate.symbol)).runs[r]? = some (.visiting all []) := hr
        simp [goto_run hfinish]
      | cons d rest =>
        dsimp only
        by_cases hmarked : d.symbol ∈ st.inFlight
        · simp [hmarked, goto_run hr]
        · rw [if_neg hmarked, if_neg hmarked, hstop]
          cases hseen : row Prod.fst d.symbol st.firstSeen with
          | none =>
            rw [if_pos hknown, goto_run hr]
            refine iff_of_false (by simp) ?_
            rintro ⟨hd, first, hfirst, -⟩
            obtain rfl := Option.some.inj hd
            rw [Bridge.firstSeenOf, hseen] at hfirst
            cases hfirst
          | some seen =>
            dsimp only
            rw [judge_run hstop hr]
            by_cases hexpired : stop ≤ clock - seen.2
            · rw [if_pos hexpired]
              refine ⟨fun hc => ⟨hc, seen.2, ?_, hexpired⟩, fun h => h.1⟩
              rw [← Option.some.inj hc, Bridge.firstSeenOf, hseen, Option.map_some]
            · rw [if_neg hexpired]
              refine iff_of_false (by cases acts <;> simp) ?_
              rintro ⟨hd, first, hfirst, hle⟩
              obtain rfl := Option.some.inj hd
              rw [Bridge.firstSeenOf, hseen] at hfirst
              exact hexpired (Option.some.inj hfirst ▸ hle)
    | _ => simp

/-- An answer begins an exit where the time it gives is past the time stop. -/
lemma timeStopped_opened {openedAt : Option ℤ} {c : Candidate}
    (h : st.timeStopped setup (.opened r openedAt clock acts) = some c) :
    st.asked (.opened r openedAt clock acts) = some (c, openedAt) ∧ stop ≤ clock - openedAt.getD clock := by
  unfold Bridge.timeStopped at h
  unfold Bridge.asked
  simp only [taskStep] at h ⊢
  cases hr : st.runs[r]? with
  | none =>
    rw [hr] at h
    cases h
  | some run =>
    cases run with
    | opening d all rest =>
      let answered := { st with firstSeen := upsert Prod.fst (d.symbol, openedAt.getD clock) st.firstSeen }
      have hanswered : answered.runs[r]? = some (.opening d all rest) := hr
      simp only [hr] at h ⊢
      rw [judge_run hstop hanswered] at h
      by_cases hexpired : stop ≤ clock - openedAt.getD clock
      · rw [if_pos hexpired] at h
        obtain rfl := Option.some.inj h
        exact ⟨rfl, hexpired⟩
      · rw [if_neg hexpired] at h
        cases acts <;> cases h
    | _ =>
      simp only [hr] at h
      cases h

end Stops

/-- No position is stopped early exactly if the bridge keeps no old time for a young position. -/
theorem time_stop_never_early_iff (R : TimeStopRun) : R.NeverEarly ↔ R.KeepsNoOldTime := by
  unfold TimeStopRun.NeverEarly TimeStopRun.KeepsNoOldTime
  refine along_congr (I := fun _ => True) (C := AnswersTrue) (fun _ _ _ _ => trivial) (fun st l _ htrue => ?_) trivial
    R.answers_true
  obtain ⟨turn, time, hreads⟩ := l
  cases turn with
  | visit r clock acts =>
    obtain rfl : clock = time := hreads clock rfl
    constructor
    · intro h c hc opened hopened hyoung first hfirst
      by_contra hold
      have hstops := (timeStopped_visit R.timeStop_eq R.opensKnown c).mpr ⟨hc, first, hfirst, not_lt.mp hold⟩
      exact absurd (h c hstops opened hopened) (not_le.mpr hyoung)
    · intro h c hc opened hopened
      obtain ⟨hvisited, first, hfirst, hle⟩ := (timeStopped_visit R.timeStop_eq R.opensKnown c).mp hc
      by_contra hyoung
      exact absurd (h c hvisited opened hopened (not_le.mp hyoung) first hfirst) (not_lt.mpr hle)
  | opened r openedAt clock acts =>
    obtain rfl : clock = time := hreads clock rfl
    refine iff_of_true (fun c hc opened hopened => ?_) (fun c hc => by cases hc)
    obtain ⟨hasked, hle⟩ := timeStopped_opened R.timeStop_eq hc
    have htime : openedAt = some opened := htrue (c, openedAt) hasked opened hopened
    rw [htime] at hle
    exact hle
  | _ => exact iff_of_true (fun c hc => by cases hc) (fun c hc => by cases hc)

/-! ### A position that is closed and opened again -/

/-- A unit is bought or sold and settled; the order is the `n`-th, and at `k` on the exchange. -/
def tradedUnit (clock : ℤ) (n k : ℕ) (side : OrderSide) : List TimedTurn :=
  let turns : List FlowTurn := [.decide (unitSignal s!"s{n}" side) unitEnv, .submit 0 (attemptIds n)] ++ unitSettled n k side
  turns.map (fun turn => ⟨.flow turn, clock, fun _ h => by cases h⟩)

/-- The `r`-th run comes to its first candidate. -/
def firstVisit (r : ℕ) (clock : ℤ) : List TimedTurn :=
  [⟨.start, clock, fun _ h => by cases h⟩, ⟨.read r false, clock, fun _ h => by cases h⟩,
    ⟨.read r false, clock, fun _ h => by cases h⟩, ⟨.visit r clock false, clock, fun _ h => (Option.some.inj h).symm⟩]

/-- A unit is held from 0 to 900 and again from 950; the first one is seen at 10, the second at 1000. -/
def reopenedTurns : List TimedTurn :=
  tradedUnit 0 1 0 .buy ++ firstVisit 0 10 ++ [⟨.opened 0 (some 0) 10 false, 10, fun _ h => (Option.some.inj h).symm⟩,
    ⟨.visit 0 10 false, 10, fun _ h => (Option.some.inj h).symm⟩] ++ tradedUnit 900 2 1 .sell ++ tradedUnit 950 3 2 .buy ++
    firstVisit 1 1000

def reopenedUnit : TimeStopRun where
  setup := bridgeSetup
  stop := 1000
  flow := { db := ⟨{}, {}⟩ }
  since := fun _ => none
  turns := reopenedTurns
  timeStop_eq := rfl
  opensKnown := rfl
  answers_true := by decide +kernel

/-- The second unit is stopped after 50 milliseconds. -/
theorem reopened_stopped_early : ¬∀ R : TimeStopRun, R.NeverEarly := by
  intro h
  have hearly : ¬reopenedUnit.NeverEarly := by
    unfold TimeStopRun.NeverEarly
    decide +kernel
  exact hearly (h reopenedUnit)

end CryptoTrader
