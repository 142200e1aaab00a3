import CryptoTrader.Governance.TradeEpisodes
import Mathlib.Data.List.Perm.Subperm
import Mathlib.Tactic.Linarith
import Mathlib.Tactic.FieldSimp
import Mathlib.Tactic.Ring

/-!
# The books of a cycle

When a completed cycle goes from flat to flat: its entries on the opening side, its exits on
the other, both for one quantity, and the profit from the averages what its fills paid out.
-/

namespace CryptoTrader

open Runs

/-- What a fill pays out, before fees. -/
def CycleFill.cashFlow (f : CycleFill) : ℚ :=
  match f.side with
  | .buy => -(f.price * f.quantity)
  | .sell => f.price * f.quantity

namespace Cycle

variable (c : Cycle)

def fills : List CycleFill :=
  c.entryFills ++ c.exitFills

def opening : OrderSide :=
  if c.direction = .long then .buy else .sell

structure Balanced : Prop where
  quantities : totalQuantity c.entryFills = totalQuantity c.exitFills
  entries : ∀ f ∈ c.entryFills, f.side = c.opening
  exits : ∀ f ∈ c.exitFills, f.side ≠ c.opening
  gross : c.averageGross = (c.fills.map CycleFill.cashFlow).sum

instance decidableBalanced : Decidable c.Balanced :=
  decidable_of_iff (totalQuantity c.entryFills = totalQuantity c.exitFills ∧ (∀ f ∈ c.entryFills, f.side = c.opening) ∧
      (∀ f ∈ c.exitFills, f.side ≠ c.opening) ∧ c.averageGross = (c.fills.map CycleFill.cashFlow).sum)
    ⟨fun ⟨hq, he, hx, hg⟩ => ⟨hq, he, hx, hg⟩, fun h => ⟨h.quantities, h.entries, h.exits, h.gross⟩⟩

end Cycle

/-! ### The scan -/

/-- The fill is reduce-only on the side of the open quantity, or takes it across zero. -/
def CycleFill.stray (f : CycleFill) (openQty : ℚ) : Bool :=
  f.reduceOnly ∧ (0 < openQty ∧ f.side = .buy ∨ openQty < 0 ∧ f.side = .sell) ∨
    f.isReduce openQty ∧ |openQty| < f.quantity

/-- The open quantity, and whether a fill since it was last zero was stray. -/
def scanStep (s : ℚ × Bool) (f : CycleFill) : ℚ × Bool :=
  if s.1 = 0 then (if f.reduceOnly then 0 else f.signed, false)
  else (s.1 + f.signed, s.2 || f.stray s.1)

/-- A fill that brings the open quantity back to zero finds no stray fill before it. -/
def ClosesClean (s : ℚ × Bool) (f : CycleFill) : Prop :=
  s.1 ≠ 0 → s.1 + f.signed = 0 → s.2 = false

instance decidableClosesClean (s : ℚ × Bool) (f : CycleFill) : Decidable (ClosesClean s f) :=
  inferInstanceAs (Decidable (s.1 ≠ 0 → s.1 + f.signed = 0 → s.2 = false))

/-! ### A cycle under way -/

namespace Cycle

/-- The open quantity, counted in the direction of the cycle. -/
def towards (c : Cycle) : ℚ :=
  if c.direction = .long then c.openQty else -c.openQty

structure Clean (c : Cycle) : Prop where
  entered : 0 < totalQuantity c.entryFills
  entries : ∀ f ∈ c.entryFills, f.side = c.opening
  exits : ∀ f ∈ c.exitFills, f.side ≠ c.opening
  net : totalQuantity c.entryFills - totalQuantity c.exitFills = c.towards

/-- An exit is on the opening side, or the open quantity has crossed zero. -/
def Strayed (c : Cycle) : Prop :=
  (∃ f ∈ c.exitFills, f.side = c.opening) ∨ c.towards < 0

variable {c : Cycle} {f : CycleFill}

lemma towards_eq_zero_iff : c.towards = 0 ↔ c.openQty = 0 := by
  unfold towards
  split <;> simp

lemma isReduce_of_pos (h : 0 < c.towards) : f.isReduce c.openQty ↔ f.side ≠ c.opening := by
  unfold towards at h
  unfold opening CycleFill.isReduce
  split at h
  · have hneg : ¬c.openQty < 0 := by linarith
    cases hs : f.side <;> simp [*, h.ne']
  · have hneg : c.openQty < 0 := by linarith
    have hpos : ¬0 < c.openQty := by linarith
    cases hs : f.side <;> simp [*, hneg.ne]

lemma isReduce_of_neg (h : c.towards < 0) : f.isReduce c.openQty ↔ f.side = c.opening := by
  unfold towards at h
  unfold opening CycleFill.isReduce
  split at h
  · have hpos : ¬0 < c.openQty := by linarith
    cases hs : f.side <;> simp [*, h.ne]
  · have hpos : 0 < c.openQty := by linarith
    have hneg : ¬c.openQty < 0 := by linarith
    cases hs : f.side <;> simp [*, hpos.ne']

lemma isStray_of_pos (h : 0 < c.towards) :
    f.stray c.openQty ↔ f.reduceOnly ∧ f.side = c.opening ∨ f.side ≠ c.opening ∧ c.towards < f.quantity := by
  have hreduce : f.isReduce c.openQty ↔ f.side ≠ c.opening := isReduce_of_pos h
  have habs : |c.openQty| = c.towards := by
    unfold towards at h ⊢
    split at h
    · rw [if_pos ‹_›, abs_of_pos h]
    · rw [if_neg ‹_›, abs_of_neg (by linarith)]
  have hside : 0 < c.openQty ∧ f.side = .buy ∨ c.openQty < 0 ∧ f.side = .sell ↔ f.side = c.opening := by
    unfold towards at h
    unfold opening
    split at h
    · have hneg : ¬c.openQty < 0 := by linarith
      simp [*]
    · have hneg : c.openQty < 0 := by linarith
      have hpos : ¬0 < c.openQty := by linarith
      simp [*]
  unfold CycleFill.stray
  rw [decide_eq_true_iff, hreduce, habs, hside]

@[simp] lemma opening_add : (c.add f).opening = c.opening := by
  unfold add opening
  split <;> rfl

lemma openQty_add : (c.add f).openQty = c.openQty + f.signed := by
  unfold add
  split <;> rfl

lemma towards_add (c : Cycle) (f : CycleFill) :
    (c.add f).towards = c.towards + (if f.side = c.opening then f.quantity else -f.quantity) := by
  have hdirection : (c.add f).direction = c.direction := by
    unfold add
    split <;> rfl
  unfold towards opening
  rw [hdirection, openQty_add]
  by_cases hd : c.direction = .long <;> cases hs : f.side <;> simp [hd, hs, CycleFill.signed] <;> ring

lemma entryFills_add_exit (h : f.isReduce c.openQty ∨ f.reduceOnly) :
    (c.add f).entryFills = c.entryFills ∧ (c.add f).exitFills = c.exitFills ++ [f] := by
  rw [add, if_pos (by simpa using h)]
  exact ⟨rfl, rfl⟩

lemma entryFills_add_entry (h : ¬(f.isReduce c.openQty ∨ f.reduceOnly)) :
    (c.add f).entryFills = c.entryFills ++ [f] ∧ (c.add f).exitFills = c.exitFills := by
  rw [add, if_neg (by simpa using h)]
  exact ⟨rfl, rfl⟩

lemma totalQuantity_append (xs : List CycleFill) (f : CycleFill) :
    totalQuantity (xs ++ [f]) = totalQuantity xs + f.quantity := by
  simp [totalQuantity]

/-- A fill that is not stray keeps the cycle clean, and does not take it past zero. -/
lemma Clean.add (hc : c.Clean) (hpos : 0 < c.towards) (hq : 0 < f.quantity) (hstray : ¬f.stray c.openQty) :
    (c.add f).Clean ∧ 0 ≤ (c.add f).towards := by
  rw [isStray_of_pos hpos, not_or, not_and, not_and, not_lt] at hstray
  obtain ⟨hreduceOnly, hcross⟩ := hstray
  have htowards := towards_add c f
  by_cases hside : f.side = c.opening
  · have hentry : ¬(f.isReduce c.openQty ∨ f.reduceOnly) :=
      not_or.mpr ⟨fun h => (isReduce_of_pos hpos).mp h hside, fun h => hreduceOnly h hside⟩
    obtain ⟨hentries, hexits⟩ := entryFills_add_entry hentry
    rw [if_pos hside] at htowards
    refine ⟨⟨?_, ?_, ?_, ?_⟩, by linarith⟩
    · rw [hentries, totalQuantity_append]
      linarith [hc.entered]
    · intro g hg
      rw [hentries] at hg
      rw [opening_add]
      rcases List.mem_append.mp hg with hg | hg
      · exact hc.entries g hg
      · rwa [List.mem_singleton.mp hg]
    · rw [hexits, opening_add]
      exact hc.exits
    · rw [hentries, hexits, totalQuantity_append, htowards]
      linarith [hc.net]
  · obtain ⟨hentries, hexits⟩ := entryFills_add_exit (.inl ((isReduce_of_pos hpos).mpr hside))
    rw [if_neg hside] at htowards
    refine ⟨⟨?_, ?_, ?_, ?_⟩, by linarith [hcross hside]⟩
    · rw [hentries]
      exact hc.entered
    · rw [hentries, opening_add]
      exact hc.entries
    · intro g hg
      rw [hexits] at hg
      rw [opening_add]
      rcases List.mem_append.mp hg with hg | hg
      · exact hc.exits g hg
      · rwa [List.mem_singleton.mp hg]
    · rw [hentries, hexits, totalQuantity_append, htowards]
      linarith [hc.net]

lemma Clean.strays (hpos : 0 < c.towards) (hq : 0 < f.quantity) (hstray : f.stray c.openQty) :
    (c.add f).Strayed ∧ (c.add f).towards ≠ 0 := by
  have htowards := towards_add c f
  rcases (isStray_of_pos hpos).mp hstray with ⟨hreduceOnly, hside⟩ | ⟨hside, hcross⟩
  · obtain ⟨-, hexits⟩ := entryFills_add_exit (c := c) (.inr hreduceOnly)
    rw [if_pos hside] at htowards
    refine ⟨.inl ⟨f, by simp [hexits], by rwa [opening_add]⟩, ?_⟩
    exact (by linarith : (0 : ℚ) < (c.add f).towards).ne'
  · rw [if_neg hside] at htowards
    have hneg : (c.add f).towards < 0 := by linarith
    exact ⟨.inr hneg, hneg.ne⟩

/-- A spoiled cycle stays spoiled, and comes back to zero only by an exit on the opening side. -/
lemma Strayed.add (h : c.Strayed) (hq : 0 < f.quantity) :
    (c.add f).Strayed ∧ ((c.add f).towards = 0 → ∃ g ∈ (c.add f).exitFills, g.side = (c.add f).opening) := by
  have hsub : ∀ g ∈ c.exitFills, g ∈ (c.add f).exitFills := by
    intro g hg
    unfold Cycle.add
    split
    · exact List.mem_append_left _ hg
    · exact hg
  rcases h with ⟨g, hg, hside⟩ | hneg
  · have hexit : ∃ g ∈ (c.add f).exitFills, g.side = (c.add f).opening := ⟨g, hsub g hg, by rwa [opening_add]⟩
    exact ⟨.inl hexit, fun _ => hexit⟩
  · by_cases hside : f.side = c.opening
    · obtain ⟨-, hexits⟩ := entryFills_add_exit (.inl ((isReduce_of_neg hneg).mpr hside))
      have hexit : ∃ g ∈ (c.add f).exitFills, g.side = (c.add f).opening := ⟨f, by simp [hexits], by rwa [opening_add]⟩
      exact ⟨.inl hexit, fun _ => hexit⟩
    · have htowards := towards_add c f
      rw [if_neg hside] at htowards
      have hneg' : (c.add f).towards < 0 := by linarith
      exact ⟨.inr hneg', fun hzero => absurd hzero hneg'.ne⟩

/-! ### What a completed cycle is worth -/

lemma weightedAvg_mul {fills : List CycleFill} (h : totalQuantity fills ≠ 0) :
    weightedAvg fills * totalQuantity fills = (fills.map (fun f => f.price * f.quantity)).sum := by
  rw [weightedAvg, if_neg h, div_mul_cancel₀ _ h]

lemma cashFlow_of_buys {fills : List CycleFill} (h : ∀ f ∈ fills, f.side = .buy) :
    (fills.map CycleFill.cashFlow).sum = -(fills.map (fun f => f.price * f.quantity)).sum := by
  induction fills with
  | nil => simp
  | cons f fills ih =>
    obtain ⟨hf, hfills⟩ := List.forall_mem_cons.mp h
    simp only [List.map_cons, List.sum_cons, ih hfills, CycleFill.cashFlow, hf]
    ring

lemma cashFlow_of_sells {fills : List CycleFill} (h : ∀ f ∈ fills, f.side = .sell) :
    (fills.map CycleFill.cashFlow).sum = (fills.map (fun f => f.price * f.quantity)).sum := by
  congr 1
  exact List.map_congr_left (fun f hf => by simp [CycleFill.cashFlow, h f hf])

lemma Clean.balanced (hc : c.Clean) (hzero : c.towards = 0) : c.Balanced := by
  have hquantities : totalQuantity c.entryFills = totalQuantity c.exitFills := by linarith [hc.net]
  refine ⟨hquantities, hc.entries, hc.exits, ?_⟩
  have hentry := weightedAvg_mul hc.entered.ne'
  have hexited : totalQuantity c.exitFills ≠ 0 := hquantities ▸ hc.entered.ne'
  have hexit := weightedAvg_mul hexited
  have hentries := hc.entries
  have hexits := hc.exits
  unfold averageGross Cycle.fills
  rw [List.map_append, List.sum_append, ← hquantities, min_self]
  unfold opening at hentries hexits
  cases hd : c.direction with
  | long =>
    simp only [hd, if_true] at hentries hexits
    have hsells : ∀ f ∈ c.exitFills, f.side = .sell := by
      intro f hf
      cases hs : f.side with
      | buy => exact absurd hs (hexits f hf)
      | sell => rfl
    rw [cashFlow_of_buys hentries, cashFlow_of_sells hsells, ← hentry, ← hexit, ← hquantities]
    ring
  | short | flat =>
    simp only [hd, reduceCtorEq, if_false] at hentries hexits
    have hbuys : ∀ f ∈ c.exitFills, f.side = .buy := by
      intro f hf
      cases hs : f.side with
      | buy => rfl
      | sell => exact absurd hs (hexits f hf)
    rw [cashFlow_of_sells hentries, cashFlow_of_buys hbuys, ← hentry, ← hexit, ← hquantities]
    ring

/-- What the scan knows of a cycle: complete at zero, else clean or spoiled. -/
def Tracked (c : Cycle) (stray : Bool) : Prop :=
  c.entryFills ≠ [] ∧ if c.openQty = 0 then c.complete = true else if stray then c.Strayed else c.Clean ∧ 0 < c.towards

lemma entryFills_add_ne_nil (h : c.entryFills ≠ []) : (c.add f).entryFills ≠ [] := by
  unfold Cycle.add
  split
  · exact h
  · simp

/-- A fill of an open cycle keeps it tracked, and a fill that closes it leaves it balanced
exactly when no fill before was stray. -/
lemma Tracked.add {stray : Bool} (h : c.Tracked stray) (hopen : c.openQty ≠ 0) (hq : 0 < f.quantity) :
    (c.add f).Tracked (stray || f.stray c.openQty) ∧
      ((c.add f).openQty = 0 → ((c.add f).Balanced ↔ stray = false)) := by
  obtain ⟨hentry, hstate⟩ := h
  rw [if_neg hopen] at hstate
  have hentry' := entryFills_add_ne_nil (f := f) hentry
  cases stray with
  | false =>
    obtain ⟨hclean, hpos⟩ : c.Clean ∧ 0 < c.towards := hstate
    by_cases hstray : f.stray c.openQty
    · obtain ⟨hstrayed, hne⟩ := Clean.strays hpos hq hstray
      have hopen' : (c.add f).openQty ≠ 0 := fun h => hne (towards_eq_zero_iff.mpr h)
      refine ⟨⟨hentry', ?_⟩, fun h => absurd h hopen'⟩
      simpa [hopen', hstray] using hstrayed
    · obtain ⟨hclean', hnonneg⟩ := hclean.add hpos hq hstray
      refine ⟨⟨hentry', ?_⟩, fun h => iff_of_true (hclean'.balanced (towards_eq_zero_iff.mpr h)) rfl⟩
      by_cases hzero : (c.add f).openQty = 0
      · have hnet := hclean'.net
        rw [towards_eq_zero_iff.mpr hzero] at hnet
        have hexit : (c.add f).exitFills ≠ [] := by
          intro hnil
          have hentered := hclean'.entered
          rw [hnil] at hnet
          simp only [totalQuantity, List.map_nil, List.sum_nil, sub_zero] at hnet hentered
          exact hentered.ne' hnet
        rw [if_pos hzero]
        simp [complete, hentry', hexit, hzero]
      · have hpos' : 0 < (c.add f).towards := lt_of_le_of_ne hnonneg (fun h => hzero (towards_eq_zero_iff.mp h.symm))
        simpa [hzero, hstray] using And.intro hclean' hpos'
  | true =>
    obtain ⟨hstrayed, hexit⟩ := Strayed.add (c := c) (f := f) hstate hq
    refine ⟨⟨hentry', ?_⟩, fun h => iff_of_false (fun hbalanced => ?_) (by simp)⟩
    · by_cases hzero : (c.add f).openQty = 0
      · obtain ⟨g, hg, -⟩ := hexit (towards_eq_zero_iff.mpr hzero)
        rw [if_pos hzero]
        simp [complete, hentry', List.ne_nil_of_mem hg, hzero]
      · simpa [hzero] using hstrayed
    · obtain ⟨g, hg, hside⟩ := hexit (towards_eq_zero_iff.mpr h)
      exact hbalanced.exits g hg hside

lemma opened_tracked (symbol : String) (hq : 0 < f.quantity) : (Cycle.opened symbol f).Tracked false := by
  have htowards : (Cycle.opened symbol f).towards = f.quantity := by
    cases hs : f.side <;> simp [towards, Cycle.opened, CycleFill.signed, hs]
  have hopen : (Cycle.opened symbol f).openQty ≠ 0 :=
    fun h => (htowards ▸ hq).ne' (towards_eq_zero_iff.mpr h)
  refine ⟨by simp [Cycle.opened], ?_⟩
  rw [if_neg hopen]
  refine ⟨⟨?_, ?_, ?_, ?_⟩, by rw [htowards]; exact hq⟩
  · simpa [Cycle.opened, totalQuantity] using hq
  · cases hs : f.side <;> simp [Cycle.opened, opening, hs]
  · simp [Cycle.opened]
  · rw [htowards]
    simp [Cycle.opened, totalQuantity]

end Cycle

/-! ### All cycles -/

section Cycles

variable (symbol : String)

/-- The loop of `build_cycles` beside the scan. -/
def trackStep (st : (List Cycle × Option Cycle) × (ℚ × Bool)) (f : CycleFill) :
    (List Cycle × Option Cycle) × (ℚ × Bool) :=
  (cycleStep symbol st.1 f, scanStep st.2 f)

/-- The scan has the open quantity of the current cycle, and tracks it. -/
def Abreast (st : (List Cycle × Option Cycle) × (ℚ × Bool)) : Prop :=
  match st.1.2 with
  | none => st.2.1 = 0
  | some c => st.2.1 = c.openQty ∧ c.Tracked st.2.2

def AllBalanced (st : List Cycle × Option Cycle) : Prop :=
  ∀ c ∈ closeOut st, c.Balanced

variable {symbol}

lemma allBalanced_snoc {cycles : List Cycle} {c : Cycle} (h : c.complete) :
    AllBalanced (cycles, some c) ↔ (∀ x ∈ cycles, x.Balanced) ∧ c.Balanced := by
  simp [AllBalanced, closeOut, Option.filter, h, or_imp, forall_and]

lemma trackStep_open {cycles : List Cycle} {c : Cycle} {stray : Bool} {f : CycleFill} (hopen : c.openQty ≠ 0)
    (htracked : c.Tracked stray) (hq : 0 < f.quantity) :
    Abreast (trackStep symbol ((cycles, some c), (c.openQty, stray)) f) ∧
      (AllBalanced (cycleStep symbol (cycles, some c) f) ↔
        AllBalanced (cycles, some c) ∧ ClosesClean (c.openQty, stray) f) := by
  have hstep : cycleStep symbol (cycles, some c) f = (cycles, some (c.add f)) := by
    simp [cycleStep, Option.filter, hopen]
  obtain ⟨htracked', hbalanced⟩ := htracked.add hopen hq
  refine ⟨?_, ?_⟩
  · unfold trackStep scanStep
    rw [hstep, if_neg hopen]
    exact ⟨Cycle.openQty_add.symm, htracked'⟩
  · have hbefore : AllBalanced (cycles, some c) ↔ ∀ x ∈ cycles, x.Balanced := by
      rw [AllBalanced, closeOut_of_open rfl hopen]
    rw [hstep, hbefore]
    by_cases hzero : (c.add f).openQty = 0
    · have hcomplete : (c.add f).complete := by simpa [hzero] using htracked'.2
      rw [allBalanced_snoc hcomplete, hbalanced hzero]
      rw [Cycle.openQty_add] at hzero
      simp [ClosesClean, hopen, hzero]
    · rw [AllBalanced, closeOut_of_open rfl hzero]
      rw [Cycle.openQty_add] at hzero
      simp [ClosesClean, hzero]

lemma trackStep_flat {st : List Cycle × Option Cycle} {stray : Bool} {f : CycleFill}
    (hflat : st.2.filter (fun c => c.openQty ≠ 0) = none) (hq : 0 < f.quantity) :
    Abreast (trackStep symbol (st, (0, stray)) f) ∧
      (AllBalanced (cycleStep symbol st f) ↔ AllBalanced st ∧ ClosesClean (0, stray) f) := by
  have hnext : f.isReduce 0 = false := by simp [CycleFill.isReduce]
  have hclean : ClosesClean (0, stray) f := fun h => absurd rfl h
  have hopened := Cycle.opened_tracked symbol hq
  have hstep : cycleStep symbol st f = (closeOut st, if f.reduceOnly then none else some (Cycle.opened symbol f)) := by
    simp only [cycleStep, hflat, hnext, Bool.false_or]
  unfold trackStep scanStep
  rw [hstep, if_pos rfl]
  cases f.reduceOnly with
  | true => exact ⟨rfl, by simp [AllBalanced, closeOut, hclean]⟩
  | false =>
    have hincomplete : (Cycle.opened symbol f).complete = false := by simp [Cycle.complete, Cycle.opened]
    exact ⟨⟨rfl, hopened⟩, by simp [AllBalanced, closeOut, Option.filter, hincomplete, hclean]⟩

lemma trackStep_iff {st : (List Cycle × Option Cycle) × (ℚ × Bool)} (h : Abreast st) {f : CycleFill}
    (hq : 0 < f.quantity) : Abreast (trackStep symbol st f) ∧
      (AllBalanced (trackStep symbol st f).1 ↔ AllBalanced st.1 ∧ ClosesClean st.2 f) := by
  obtain ⟨⟨cycles, current⟩, openQty, stray⟩ := st
  cases current with
  | none =>
    obtain rfl : openQty = 0 := h
    exact trackStep_flat rfl hq
  | some c =>
    obtain ⟨rfl, htracked⟩ : openQty = c.openQty ∧ c.Tracked stray := h
    by_cases hopen : c.openQty = 0
    · rw [hopen]
      exact trackStep_flat (by simp [Option.filter, hopen]) hq
    · exact trackStep_open hopen htracked hq

/-! ### Every fill once -/

/-- The fills of the completed cycles and of the current one. -/
def placed (st : List Cycle × Option Cycle) : List CycleFill :=
  st.1.flatMap Cycle.fills ++ st.2.elim [] Cycle.fills

lemma fills_add (c : Cycle) (f : CycleFill) : (c.add f).fills.Perm (c.fills ++ [f]) := by
  unfold Cycle.add Cycle.fills
  split
  · rw [List.append_assoc]
  · dsimp only
    rw [List.append_assoc, List.append_assoc]
    exact List.Perm.append_left _ List.perm_append_comm

lemma placed_closeOut (st : List Cycle × Option Cycle) : ((closeOut st).flatMap Cycle.fills).Subperm (placed st) := by
  obtain ⟨cycles, current⟩ := st
  cases current with
  | none => simp [closeOut, placed, List.Subperm.refl]
  | some c =>
    cases h : c.complete with
    | false => simpa [closeOut, placed, Option.filter, h] using (List.sublist_append_left _ _).subperm
    | true => simp [closeOut, placed, Option.filter, h, List.Subperm.refl]

lemma placed_cycleStep (st : List Cycle × Option Cycle) (f : CycleFill) :
    (placed (cycleStep symbol st f)).Subperm (placed st ++ [f]) := by
  unfold cycleStep
  split
  · rename_i c hc
    have hcurrent : st.2 = some c := (Option.filter_eq_some_iff.mp hc).1
    simp only [placed, hcurrent, Option.elim_some]
    rw [List.append_assoc]
    exact ((fills_add c f).append_left _).subperm
  · have hclosed := placed_closeOut st
    split
    · simpa [placed] using hclosed.trans (List.sublist_append_left _ _).subperm
    · have hopened : (Cycle.opened symbol f).fills = [f] := by simp [Cycle.fills, Cycle.opened]
      simp only [placed, Option.elim_some, hopened]
      exact (List.subperm_append_right [f]).mpr hclosed

lemma placed_run (st : List Cycle × Option Cycle) (fills : List CycleFill) :
    (placed (run (cycleStep symbol) st fills)).Subperm (placed st ++ fills) := by
  induction fills generalizing st with
  | nil => simp [List.Subperm.refl]
  | cons f fills ih =>
    have hstep : (placed (cycleStep symbol st f) ++ fills).Subperm (placed st ++ [f] ++ fills) :=
      (List.subperm_append_right fills).mpr (placed_cycleStep st f)
    rw [List.append_assoc] at hstep
    exact (ih _).trans hstep

end Cycles

def tradedFill (fillId : String) (side : OrderSide) (price quantity : ℚ) : CycleFill where
  fillId := fillId
  orderId := "ord_" ++ fillId
  symbol := "BTCUSDT"
  side := side
  price := price
  quantity := quantity
  timestamp := 0

end CryptoTrader
