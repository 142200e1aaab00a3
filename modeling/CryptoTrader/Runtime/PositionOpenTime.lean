import CryptoTrader.Governance.CycleAccounting
import CryptoTrader.Runtime.PositionDecisions

/-!
# When a position was opened

After a restart the bridge asks `_position_opened_at` of `runtime/bootstrap.py`, which answers
with the latest fill on the position's side. That is the fill which opened the position unless
another one added to it later.
-/

namespace CryptoTrader

open KeyedTable Runs

/-- The cycle that is under way after some fills. -/
def openCycle (symbol : String) (fills : List CycleFill) : Option Cycle :=
  (run (cycleStep symbol) ([], none) fills).2.filter (fun c => c.openQty ≠ 0)

def Cycle.positionSide (c : Cycle) : PositionSide := if 0 < c.openQty then .long else .short

def Cycle.entryTime (c : Cycle) : ℚ := c.entryFills.head?.elim 0 CycleFill.timestamp

/-- `"SELL" if side == "SHORT" else "BUY"`. -/
def PositionSide.entrySide : PositionSide → OrderSide
  | .short => .sell
  | _ => .buy

def positionOpenedAt (fills : List CycleFill) (symbol : String) (side : PositionSide) : Option ℚ :=
  ((fills.filter (fun f => f.symbol = symbol ∧ f.side = side.entrySide)).map CycleFill.timestamp).max?

/-! ### The time stop -/

/-- `first_seen`, from the time that is kept and the one that the provider answers. -/
def firstSeenOpen (kept opened : Option ℚ) (now : ℚ) : ℚ := (kept.or opened).getD now

/-- `age_seconds >= time_stop_seconds`. -/
def timeStopDue (stop : ℚ) (kept opened : Option ℚ) (now : ℚ) : Bool :=
  stop ≤ now - firstSeenOpen kept opened now

/-- The time kept for a symbol after evaluations at some times since the restart. -/
def keptAfter (opened : Option ℚ) (clocks : List ℚ) : Option ℚ :=
  run (fun kept now => some (firstSeenOpen kept opened now)) none clocks

/-- It is the test of the bridge, there in milliseconds. -/
lemma held_eq {config : Decisions.BridgeConfig} (hknown : config.opensKnown = true) {stop : ℤ} (hstop : config.timeStop = some stop)
    (a : Decisions.Answers) (c : Candidate) (m : Decisions.Memory) :
    Decisions.held config a c m = timeStopDue (stop / 1000) ((row Prod.fst c.symbol m.firstSeen).map (fun first => first.2 / 1000))
      (a.openedAt.map (· / 1000)) (a.clock / 1000) := by
  have hscale (first : ℤ) : stop ≤ a.clock - first ↔ (stop / 1000 : ℚ) ≤ a.clock / 1000 - first / 1000 := by
    rw [← sub_div, div_le_div_iff_of_pos_right (by norm_num)]
    exact_mod_cast Iff.rfl
  rw [Decisions.held, hstop, Option.any_some, timeStopDue, decide_eq_decide, hscale, Decisions.openSince, hknown, firstSeenOpen]
  cases row Prod.fst c.symbol m.firstSeen with
  | some first => rfl
  | none =>
    cases a.openedAt with
    | some opened => rfl
    | none => rfl

lemma keptAfter_some (opened : ℚ) (clocks : List ℚ) :
    keptAfter (some opened) clocks = none ∨ keptAfter (some opened) clocks = some opened := by
  induction clocks using List.reverseRecOn with
  | nil => exact .inl rfl
  | append_singleton clocks now ih =>
    right
    rw [keptAfter, run_append, run_cons, run_nil]
    change some (firstSeenOpen (keptAfter (some opened) clocks) (some opened) now) = some opened
    rcases ih with h | h
    · rw [h]
      rfl
    · rw [h]
      rfl

/-! ### The cycle under way -/

/-- The history up to the fill that opened the cycle, and the fills of the cycle. -/
def CycleUnderWay (fills : List CycleFill) (c : Cycle) : Prop :=
  ∃ earlier first later, fills = earlier ++ first :: later ∧ c.entryFills.head? = some first ∧
    c.fills.Perm (first :: later) ∧ c.openQty = (c.fills.map CycleFill.signed).sum

lemma cycleUnderWay_opened (symbol : String) (earlier : List CycleFill) (f : CycleFill) :
    CycleUnderWay (earlier ++ [f]) (Cycle.opened symbol f) := by
  have hfills : (Cycle.opened symbol f).fills = [f] := by simp [Cycle.fills, Cycle.opened]
  refine ⟨earlier, f, [], rfl, rfl, hfills ▸ List.Perm.refl _, ?_⟩
  rw [hfills, List.map_singleton, List.sum_singleton]
  rfl

lemma CycleUnderWay.add {fills : List CycleFill} {c : Cycle} (h : CycleUnderWay fills c) (f : CycleFill) :
    CycleUnderWay (fills ++ [f]) (c.add f) := by
  obtain ⟨earlier, first, later, rfl, hhead, hperm, hopen⟩ := h
  refine ⟨earlier, first, later ++ [f], by simp, ?_, ?_, ?_⟩
  · have hentries : c.entryFills <+: (c.add f).entryFills := by
      unfold Cycle.add
      split
      · exact List.prefix_refl _
      · exact List.prefix_append _ _
    obtain ⟨rest, hrest⟩ := hentries
    rw [← hrest, List.head?_append, hhead]
    rfl
  · exact (fills_add c f).trans (hperm.append_right [f])
  · rw [Cycle.openQty_add, ((fills_add c f).map CycleFill.signed).sum_eq, List.map_append, List.sum_append, ← hopen]
    simp

/-- The run of `build_cycles` keeps what is under way. -/
lemma cycleUnderWay_run (symbol : String) (fills : List CycleFill) {c : Cycle}
    (h : (run (cycleStep symbol) ([], none) fills).2 = some c) : CycleUnderWay fills c := by
  induction fills using List.reverseRecOn generalizing c with
  | nil => cases h
  | append_singleton fills f ih =>
    rw [run_append, run_cons, run_nil, cycleStep] at h
    split at h
    · rename_i d hd
      obtain ⟨hcurrent, -⟩ := Option.filter_eq_some_iff.mp hd
      obtain rfl := Option.some.inj h
      exact (ih hcurrent).add f
    · split at h
      · cases h
      · obtain rfl := Option.some.inj h
        exact cycleUnderWay_opened symbol fills f

/-! ### The opening time -/

/-- The fills of all symbols, those of one in the order of time, with an open position in it. -/
structure OpenHistory where
  fills : List CycleFill
  symbol : String
  cycle : Cycle
  chronological : (fills.filter (fun f => f.symbol = symbol)).Pairwise (fun f g => f.timestamp ≤ g.timestamp)
  positive : ∀ f ∈ fills, 0 < f.quantity
  isOpen : openCycle symbol (fills.filter (fun f => f.symbol = symbol)) = some cycle

namespace OpenHistory

variable (H : OpenHistory)

def openedAt : Option ℚ := positionOpenedAt H.fills H.symbol H.cycle.positionSide

/-- The clock of the time stop starts with the first entry fill, and from a restart on an
evaluation that finds the position as old as the time stop exits it. -/
structure ClockStartsAtEntry : Prop where
  opened : H.openedAt = some H.cycle.entryTime
  exits : ∀ stop clocks now, H.cycle.entryTime + stop ≤ now →
    timeStopDue stop (keptAfter H.openedAt clocks) H.openedAt now = true

/-- No fill of the open cycle on the side of the position is later than the first entry fill. -/
def AddsNothingLater : Prop :=
  ∀ f ∈ H.cycle.fills, f.side = H.cycle.positionSide.entrySide → f.timestamp ≤ H.cycle.entryTime

variable {H}

lemma mem_openedAt {t : ℚ} : t ∈ (H.fills.filter (fun f =>
      f.symbol = H.symbol ∧ f.side = H.cycle.positionSide.entrySide)).map CycleFill.timestamp ↔
    ∃ f ∈ H.fills.filter (fun f => f.symbol = H.symbol), f.side = H.cycle.positionSide.entrySide ∧ f.timestamp = t := by
  simp only [List.mem_map, List.mem_filter, decide_eq_true_eq]
  constructor
  · rintro ⟨f, ⟨hf, hsymbol, hside⟩, rfl⟩
    exact ⟨f, ⟨hf, hsymbol⟩, hside, rfl⟩
  · rintro ⟨f, ⟨hf, hsymbol⟩, hside, rfl⟩
    exact ⟨f, ⟨hf, hsymbol, hside⟩, rfl⟩

/-- The fills before the cycle are not later than its first entry, and its own not earlier. -/
lemma fills_around : (∀ f ∈ H.cycle.fills, f ∈ H.fills.filter (fun f => f.symbol = H.symbol) ∧
      H.cycle.entryTime ≤ f.timestamp) ∧
    ∀ f ∈ H.fills.filter (fun f => f.symbol = H.symbol), f ∈ H.cycle.fills ∨ f.timestamp ≤ H.cycle.entryTime := by
  obtain ⟨hcurrent, -⟩ := Option.filter_eq_some_iff.mp H.isOpen
  obtain ⟨earlier, first, later, hfills, hhead, hperm, -⟩ := cycleUnderWay_run H.symbol _ hcurrent
  have htime : H.cycle.entryTime = first.timestamp := by
    rw [Cycle.entryTime, hhead]
    rfl
  have hsorted := H.chronological
  rw [hfills] at hsorted ⊢
  obtain ⟨-, hcycle, hacross⟩ := List.pairwise_append.mp hsorted
  rw [htime]
  constructor
  · intro f hf
    have hmem := hperm.mem_iff.mp hf
    refine ⟨List.mem_append_right _ hmem, ?_⟩
    rcases List.mem_cons.mp hmem with rfl | hlater
    · exact le_rfl
    · exact List.rel_of_pairwise_cons hcycle hlater
  · intro f hf
    rcases List.mem_append.mp hf with hearlier | hmem
    · exact .inr (hacross f hearlier first List.mem_cons_self)
    · exact .inl (hperm.mem_iff.mpr hmem)

/-- The open quantity is due to a fill of the cycle on the side of the position. -/
lemma exists_own_side : ∃ f ∈ H.cycle.fills, f.side = H.cycle.positionSide.entrySide := by
  obtain ⟨hcurrent, hopen⟩ := Option.filter_eq_some_iff.mp H.isOpen
  obtain ⟨-, -, -, -, -, -, hsum⟩ := cycleUnderWay_run H.symbol _ hcurrent
  have hquantity : ∀ f ∈ H.cycle.fills, 0 < f.quantity := by
    intro f hf
    exact H.positive f (List.mem_of_mem_filter (fills_around.1 f hf).1)
  have hzero : (H.cycle.fills.map (fun _ => (0 : ℚ))).sum = 0 := by simp
  by_cases hlong : 0 < H.cycle.openQty
  · obtain ⟨f, hf, hpos⟩ := List.exists_lt_of_sum_lt (fun _ => 0) CycleFill.signed (hzero.trans_lt (hsum ▸ hlong))
    refine ⟨f, hf, ?_⟩
    rw [Cycle.positionSide, if_pos hlong]
    unfold CycleFill.signed at hpos
    cases hs : f.side with
    | buy => rfl
    | sell =>
      rw [hs] at hpos
      exact absurd (hquantity f hf) (not_lt.mpr (neg_pos.mp hpos).le)
  · have hneg : H.cycle.openQty < 0 := lt_of_le_of_ne (not_lt.mp hlong) (of_decide_eq_true hopen)
    obtain ⟨f, hf, hpos⟩ := List.exists_lt_of_sum_lt CycleFill.signed (fun _ => 0) (hsum ▸ hzero ▸ hneg)
    refine ⟨f, hf, ?_⟩
    rw [Cycle.positionSide, if_neg hlong]
    unfold CycleFill.signed at hpos
    cases hs : f.side with
    | buy =>
      rw [hs] at hpos
      exact absurd (hquantity f hf) (not_lt.mpr hpos.le)
    | sell => rfl

lemma openedAt_iff : H.openedAt = some H.cycle.entryTime ↔ H.AddsNothingLater := by
  rw [openedAt, positionOpenedAt, List.max?_eq_some_iff]
  constructor
  · rintro ⟨-, hmax⟩ f hf hside
    exact hmax _ (mem_openedAt.mpr ⟨f, (fills_around.1 f hf).1, hside, rfl⟩)
  · intro h
    constructor
    · obtain ⟨f, hf, hside⟩ := exists_own_side (H := H)
      obtain ⟨hmem, hle⟩ := fills_around.1 f hf
      exact mem_openedAt.mpr ⟨f, hmem, hside, le_antisymm (h f hf hside) hle⟩
    · intro t ht
      obtain ⟨f, hf, hside, rfl⟩ := mem_openedAt.mp ht
      rcases fills_around.2 f hf with hcycle | hle
      · exact h f hcycle hside
      · exact hle

end OpenHistory

/-- The clock of the time stop starts with the entry exactly if nothing is added to the position
later. -/
theorem clock_starts_at_entry_iff (H : OpenHistory) : H.ClockStartsAtEntry ↔ H.AddsNothingLater := by
  rw [← OpenHistory.openedAt_iff]
  constructor
  · exact fun h => h.opened
  · intro hopened
    refine ⟨hopened, ?_⟩
    intro stop clocks now hnow
    have hfirst : firstSeenOpen (keptAfter H.openedAt clocks) H.openedAt now = H.cycle.entryTime := by
      rw [hopened]
      rcases keptAfter_some H.cycle.entryTime clocks with h | h
      · rw [h]
        rfl
      · rw [h]
        rfl
    rw [timeStopDue, hfirst, decide_eq_true_iff]
    linarith

/-- A purchase, and another one half an hour later. -/
def addedFills : List CycleFill :=
  [{ fillId := "f1", orderId := "o1", symbol := "BTCUSDT_PERP", side := .buy, price := 100, quantity := 1, timestamp := 0 },
    { fillId := "f2", orderId := "o2", symbol := "BTCUSDT_PERP", side := .buy, price := 110, quantity := 1,
      timestamp := 1800 }]

def addedHistory : OpenHistory where
  fills := addedFills
  symbol := "BTCUSDT_PERP"
  cycle := (Cycle.opened "BTCUSDT_PERP" addedFills[0]).add addedFills[1]
  chronological := by decide +kernel
  positive := by decide +kernel
  isOpen := by decide +kernel

/-- The clock starts with the second one. -/
theorem added_position_younger : ¬ addedHistory.ClockStartsAtEntry := by
  intro h
  have hopened := h.opened
  revert hopened
  decide +kernel

end CryptoTrader
