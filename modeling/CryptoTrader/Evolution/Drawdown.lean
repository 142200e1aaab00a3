import CryptoTrader.Evolution.HierarchicalEngine
import Mathlib.Order.Bounds.Basic
import Mathlib.Tactic.Linarith

/-!
# The drawdown of weeks, months and years

The drawdown of a series is the least sum of a stretch of it. The month takes the worst of
the weekly drawdowns and the year the worst of the monthly ones, so both are the least sum
of a stretch within one week.
-/

namespace CryptoTrader

/-! ### Stretches -/

/-- The sums of the stretches of a series. -/
def falls (pnls : List ℚ) : Set ℚ := {x | ∃ s, s <:+: pnls ∧ s.sum = x}

/-- The peak-to-trough drawdown of a series of results. -/
def drawdown (pnls : List ℚ) : ℚ := drawdownFrom (0, 0, 0) pnls

lemma zero_mem_falls (pnls : List ℚ) : 0 ∈ falls pnls := ⟨[], List.nil_infix, rfl⟩

/-- No stretch falls deeper, from any state that the replay can be in. -/
lemma drawdownFrom_le {running peak worst : ℚ} (hworst : worst ≤ running - peak) (hpeak : running ≤ peak) (pnls : List ℚ) :
    drawdownFrom (running, peak, worst) pnls ≤ worst ∧
      (∀ s, s <+: pnls → drawdownFrom (running, peak, worst) pnls ≤ running - peak + s.sum) ∧
      ∀ s, s <:+: pnls → drawdownFrom (running, peak, worst) pnls ≤ s.sum := by
  induction pnls generalizing running peak worst with
  | nil =>
    refine ⟨le_rfl, fun s hs => ?_, fun s hs => ?_⟩
    · rw [List.prefix_nil.mp hs, List.sum_nil, add_zero]
      exact hworst
    · rw [List.infix_nil.mp hs, List.sum_nil]
      exact hworst.trans (sub_nonpos.mpr hpeak)
  | cons pnl pnls ih =>
    obtain ⟨hworse, hfirst, hinfix⟩ := ih (min_le_right worst (running + pnl - max peak (running + pnl)))
      (le_max_right peak (running + pnl))
    have hdeeper : ∀ s, s <+: pnl :: pnls →
        drawdownFrom (running, peak, worst) (pnl :: pnls) ≤ running - peak + s.sum := by
      intro s hs
      rcases List.prefix_cons_iff.mp hs with rfl | ⟨t, rfl, ht⟩
      · rw [List.sum_nil, add_zero]
        exact (hworse.trans (min_le_left _ _)).trans hworst
      · have hpeaks := le_max_left peak (running + pnl)
        rw [List.sum_cons]
        exact (hfirst t ht).trans (by linarith)
    refine ⟨hworse.trans (min_le_left _ _), hdeeper, fun s hs => ?_⟩
    rcases List.infix_cons_iff.mp hs with hs | hs
    · exact (hdeeper s hs).trans (by linarith)
    · exact hinfix s hs

/-- The drawdown is reached by a stretch, or was there before. -/
lemma drawdownFrom_reached (running peak worst : ℚ) (pnls : List ℚ) :
    drawdownFrom (running, peak, worst) pnls = worst ∨
      (∃ s, s <+: pnls ∧ drawdownFrom (running, peak, worst) pnls = running - peak + s.sum) ∨
      drawdownFrom (running, peak, worst) pnls ∈ falls pnls := by
  induction pnls generalizing running peak worst with
  | nil => exact .inl rfl
  | cons pnl pnls ih =>
    have hnext : running + pnl - max peak (running + pnl) = running - peak + pnl ∨
        running + pnl - max peak (running + pnl) = 0 := by
      rcases max_choice peak (running + pnl) with h | h
      · exact .inl (by rw [h, sub_add_eq_add_sub])
      · exact .inr (by rw [h, sub_self])
    rw [drawdownFrom]
    rcases ih (running + pnl) (max peak (running + pnl)) (min worst (running + pnl - max peak (running + pnl))) with
      h | ⟨s, hs, h⟩ | ⟨s, hs, h⟩
    · rw [h]
      rcases min_choice worst (running + pnl - max peak (running + pnl)) with hm | hm
      · exact .inl hm
      · right
        rw [hm]
        rcases hnext with hn | hn
        · exact .inl ⟨[pnl], List.prefix_append [pnl] pnls, by rw [hn, List.sum_singleton]⟩
        · exact .inr (hn ▸ zero_mem_falls _)
    · right
      rw [h]
      rcases hnext with hn | hn
      · exact .inl ⟨pnl :: s, (List.prefix_cons_inj pnl).mpr hs, by rw [hn, List.sum_cons, add_assoc]⟩
      · exact .inr ⟨s, hs.isInfix.trans (List.suffix_cons pnl pnls).isInfix, by rw [hn, zero_add]⟩
    · exact .inr (.inr ⟨s, hs.trans (List.suffix_cons pnl pnls).isInfix, h⟩)

/-- The drawdown is the sum of the stretch that falls deepest. -/
lemma drawdown_isLeast (pnls : List ℚ) : IsLeast (falls pnls) (drawdown pnls) := by
  constructor
  · rcases drawdownFrom_reached 0 0 0 pnls with h | ⟨s, hs, h⟩ | h
    · rw [drawdown, h]
      exact zero_mem_falls pnls
    · exact ⟨s, hs.isInfix, by rw [drawdown, h, sub_self, zero_add]⟩
    · exact h
  · rintro x ⟨s, hs, rfl⟩
    exact (drawdownFrom_le (by simp) le_rfl pnls).2.2 s hs

/-- The sums of the stretches within one block. -/
def fallsWithin (blocks : List (List ℚ)) : Set ℚ := {x | x = 0 ∨ ∃ b ∈ blocks, x ∈ falls b}

lemma fallsWithin_subset (blocks : List (List ℚ)) : fallsWithin blocks ⊆ falls blocks.flatten := by
  rintro x (rfl | ⟨b, hb, s, hs, rfl⟩)
  · exact zero_mem_falls _
  · exact ⟨s, hs.trans (List.infix_of_mem_flatten hb), rfl⟩

/-- No stretch of the joined blocks falls deeper than each one within a block. -/
def FallsInBlock (blocks : List (List ℚ)) : Prop :=
  ∀ s, s <:+: blocks.flatten → s.sum < 0 → ∃ b ∈ blocks, ∃ s', s' <:+: b ∧ s'.sum ≤ s.sum

lemma drawdown_le_of_isLeast {blocks : List (List ℚ)} {d : ℚ} (hd : IsLeast (fallsWithin blocks) d) :
    drawdown blocks.flatten ≤ d :=
  (drawdown_isLeast _).2 (fallsWithin_subset blocks hd.1)

/-- The worst drawdown of the blocks is that of the joined series exactly if no fall needs two blocks. -/
lemma le_drawdown_iff {blocks : List (List ℚ)} {d : ℚ} (hd : IsLeast (fallsWithin blocks) d) :
    d ≤ drawdown blocks.flatten ↔ FallsInBlock blocks := by
  rw [le_isGLB_iff (drawdown_isLeast _).isGLB]
  constructor
  · intro h s hs hneg
    have hle : d ≤ s.sum := h ⟨s, hs, rfl⟩
    rcases hd.1 with rfl | ⟨b, hb, s', hs', hsum⟩
    · exact absurd hneg (not_lt.mpr hle)
    · exact ⟨b, hb, s', hs', hsum ▸ hle⟩
  · rintro h x ⟨s, hs, rfl⟩
    rcases lt_or_ge s.sum 0 with hneg | hpos
    · obtain ⟨b, hb, s', hs', hle⟩ := h s hs hneg
      exact (hd.2 (.inr ⟨b, hb, s', hs', rfl⟩)).trans hle
    · exact (hd.2 (.inl rfl)).trans hpos

/-- The least of some values, 0 without any, each the least of a set that contains 0. -/
lemma least_isLeast {ι : Type} (items : List ι) {value : ι → ℚ} {S : ι → Set ℚ}
    (hvalue : ∀ i ∈ items, IsLeast (S i) (value i)) (hzero : ∀ i ∈ items, 0 ∈ S i) :
    IsLeast {x | x = 0 ∨ ∃ i ∈ items, x ∈ S i} ((least (items.map value)).getD 0) := by
  have hmin : least (items.map value) = (items.map value).min? := by
    cases items <;> rfl
  cases h : (items.map value).min? with
  | none =>
    rw [hmin, h]
    obtain rfl : items = [] := List.map_eq_nil_iff.mp (List.min?_eq_none_iff.mp h)
    refine ⟨.inl rfl, ?_⟩
    rintro x (rfl | ⟨i, hi, -⟩)
    · exact le_rfl
    · exact absurd hi List.not_mem_nil
  | some d =>
    rw [hmin, h, Option.getD_some]
    obtain ⟨hmem, hle⟩ := List.min?_eq_some_iff.mp h
    obtain ⟨i, hi, rfl⟩ := List.mem_map.mp hmem
    refine ⟨.inr ⟨i, hi, (hvalue i hi).1⟩, ?_⟩
    rintro x (rfl | ⟨j, hj, hx⟩)
    · exact (hvalue i hi).2 (hzero i hi)
    · exact (hle _ (List.mem_map_of_mem hj)).trans ((hvalue j hj).2 hx)

/-! ### The children of a review -/

structure ReviewWindow (α : Type) where
  reviewId : ReviewId
  periodId : PeriodId
  startsAt : ℕ := 0
  endsAt : ℕ := 0
  children : List α

namespace ReviewWindow

variable {α : Type}

def key (w : ReviewWindow α) : PeriodId × ReviewId := (w.periodId, w.reviewId)

/-- The children that a review counts, in their order. -/
def counted (key : α → PeriodId × ReviewId) (w : ReviewWindow α) : List α := dedupeChildReviews key w.children

end ReviewWindow

/-- Children may be made into reports before or after duplicates are dropped. -/
lemma dedupe_map {α β : Type} (key : β → PeriodId × ReviewId) (f : α → β) (l : List α) :
    dedupeChildReviews key (l.map f) = (dedupeChildReviews (fun a => key (f a)) l).map f := by
  rw [dedupeChildReviews, dedupeChildReviews, firsts_map]
  symm
  apply List.map_insertionSort
  exact fun _ _ _ _ => Iff.rfl

abbrev WeekWindow := ReviewWindow DailyReport

namespace WeekWindow

def review (w : WeekWindow) : WeeklyReviewResult :=
  weeklyReview w.reviewId w.periodId w.startsAt w.endsAt w.children

def stored (w : WeekWindow) : StoredReport := w.review.toDict

def pnls (w : WeekWindow) : List ℚ := (w.counted DailyReport.key).map (·.netPnl.dec)

lemma drawdown_review (w : WeekWindow) : w.review.weeklyDrawdown = drawdown w.pnls := rfl

lemma pnl_review (w : WeekWindow) : w.review.weeklyPnl = w.pnls.sum := rfl

end WeekWindow

abbrev MonthWindow := ReviewWindow WeekWindow

namespace MonthWindow

variable (sqrt : ℚ → ℚ)

def review (m : MonthWindow) : MonthlyReviewResult :=
  monthlyReview sqrt m.reviewId m.periodId m.startsAt m.endsAt (m.children.map WeekWindow.stored)

def stored (m : MonthWindow) : StoredReport := (m.review sqrt).toDict

/-- The daily results that the month covers, week by week. -/
def blocks (m : MonthWindow) : List (List ℚ) := (m.counted ReviewWindow.key).map WeekWindow.pnls

end MonthWindow

abbrev YearWindow := ReviewWindow MonthWindow

namespace YearWindow

variable (sqrt : ℚ → ℚ)

def review (y : YearWindow) : YearlyReviewResult :=
  yearlyReview sqrt y.reviewId y.periodId y.startsAt y.endsAt (y.children.map (MonthWindow.stored sqrt))

def blocks (y : YearWindow) : List (List ℚ) := (y.counted ReviewWindow.key).flatMap MonthWindow.blocks

end YearWindow

/-- `total / abs(drawdown)` of a series that falls, 0 of another one. -/
def calmarOf (pnls : List ℚ) : ℚ :=
  quantizeThousandth (if drawdown pnls < 0 then pnls.sum / |drawdown pnls| else 0)

/-- What the drawdown of a review says of the weeks that it covers. -/
structure WorstOfWeeks (blocks : List (List ℚ)) (maxDrawdown calmar : ℚ) : Prop where
  /-- It is the deepest fall within one week. -/
  deepest : IsLeast (fallsWithin blocks) maxDrawdown
  understated : drawdown blocks.flatten ≤ maxDrawdown
  severe : maxDrawdown ≤ drawdown blocks.flatten ↔ FallsInBlock blocks
  calmar : FallsInBlock blocks → calmar = calmarOf blocks.flatten

lemma worstOfWeeks {blocks : List (List ℚ)} {maxDrawdown total : ℚ}
    (hleast : IsLeast (fallsWithin blocks) maxDrawdown) (htotal : total = blocks.flatten.sum) :
    WorstOfWeeks blocks maxDrawdown
      (quantizeThousandth (if maxDrawdown < 0 then total / |maxDrawdown| else 0)) where
  deepest := hleast
  understated := drawdown_le_of_isLeast hleast
  severe := le_drawdown_iff hleast
  calmar := by
    intro h
    have heq : maxDrawdown = drawdown blocks.flatten :=
      le_antisymm ((le_drawdown_iff hleast).mpr h) (drawdown_le_of_isLeast hleast)
    rw [heq, htotal, calmarOf]

lemma sum_flatten_map {ι : Type} (items : List ι) (f : ι → List ℚ) :
    (items.map (fun i => (f i).sum)).sum = (items.map f).flatten.sum := by
  rw [List.sum_flatten, List.map_map]
  rfl

/-- A field that is written as a decimal is read as one. -/
lemma filter_truthy_decimal {ι : Type} (items : List ι) (value : ι → ℚ) :
    ((items.map (fun i => Json.decimal (value i))).filter Json.truthy).map Json.dec = items.map value := by
  rw [List.filter_eq_self.mpr, List.map_map]
  · rfl
  · intro j hj
    obtain ⟨i, -, rfl⟩ := List.mem_map.mp hj
    rfl

namespace MonthWindow

variable (sqrt : ℚ → ℚ) (m : MonthWindow)

lemma children_review : dedupeChildReviews StoredReport.key (m.children.map WeekWindow.stored) =
    (m.counted ReviewWindow.key).map WeekWindow.stored :=
  dedupe_map StoredReport.key WeekWindow.stored m.children

lemma pnl_review : (m.review sqrt).monthlyPnl = m.blocks.flatten.sum := by
  unfold review monthlyReview
  dsimp only
  rw [children_review, List.map_map]
  exact sum_flatten_map _ WeekWindow.pnls

lemma drawdown_review : IsLeast (fallsWithin m.blocks) (m.review sqrt).maxDrawdown := by
  have hvalues : (m.review sqrt).maxDrawdown =
      (least ((m.counted ReviewWindow.key).map (fun w => drawdown (WeekWindow.pnls w)))).getD 0 := by
    unfold review monthlyReview
    dsimp only
    rw [children_review, List.map_map]
    exact congrArg (fun l => (least l).getD 0) (filter_truthy_decimal _ _)
  have hleast := least_isLeast (m.counted ReviewWindow.key) (fun w _ => drawdown_isLeast (WeekWindow.pnls w))
    (fun w _ => zero_mem_falls _)
  have hset : fallsWithin m.blocks =
      {x | x = 0 ∨ ∃ w ∈ m.counted ReviewWindow.key, x ∈ falls (WeekWindow.pnls w)} := by
    ext x
    simp only [fallsWithin, blocks, Set.mem_ofPred_eq, List.mem_map, exists_exists_and_eq_and]
  rw [hvalues, hset]
  exact hleast

lemma worst_review : WorstOfWeeks m.blocks (m.review sqrt).maxDrawdown (m.review sqrt).calmar :=
  worstOfWeeks (m.drawdown_review sqrt) (m.pnl_review sqrt)

end MonthWindow

namespace YearWindow

variable (sqrt : ℚ → ℚ) (y : YearWindow)

lemma children_review : dedupeChildReviews StoredReport.key (y.children.map (MonthWindow.stored sqrt)) =
    (y.counted ReviewWindow.key).map (MonthWindow.stored sqrt) :=
  dedupe_map StoredReport.key (MonthWindow.stored sqrt) y.children

lemma return_review : (y.review sqrt).annualReturn = y.blocks.flatten.sum := by
  have hmonths : y.blocks.flatten = ((y.counted ReviewWindow.key).map (fun m => (MonthWindow.blocks m).flatten)).flatten := by
    rw [blocks, List.flatMap_def, List.flatten_flatten, List.map_map]
    rfl
  unfold review yearlyReview
  dsimp only
  rw [children_review, List.map_map, hmonths, ← sum_flatten_map]
  congr 1
  exact List.map_congr_left (fun m _ => MonthWindow.pnl_review sqrt m)

lemma worst_months : (y.review sqrt).maxDrawdown =
    least ((y.counted ReviewWindow.key).map (fun m => (MonthWindow.review sqrt m).maxDrawdown)) := by
  unfold review yearlyReview
  dsimp only
  rw [children_review, List.map_map]
  exact congrArg least (filter_truthy_decimal _ _)

lemma drawdown_review : IsLeast (fallsWithin y.blocks) ((y.review sqrt).maxDrawdown.getD 0) := by
  have hleast := least_isLeast (y.counted ReviewWindow.key) (fun m _ => MonthWindow.drawdown_review sqrt m)
    (fun m _ => Or.inl rfl)
  have hset : fallsWithin y.blocks =
      {x | x = 0 ∨ ∃ m ∈ y.counted ReviewWindow.key, x ∈ fallsWithin (MonthWindow.blocks m)} := by
    ext x
    constructor
    · rintro (rfl | ⟨b, hb, hx⟩)
      · exact .inl rfl
      · obtain ⟨m, hm, hbm⟩ := List.mem_flatMap.mp hb
        exact .inr ⟨m, hm, .inr ⟨b, hbm, hx⟩⟩
    · rintro (rfl | ⟨m, hm, rfl | ⟨b, hb, hx⟩⟩)
      · exact .inl rfl
      · exact .inl rfl
      · exact .inr ⟨b, List.mem_flatMap.mpr ⟨m, hm, hb⟩, hx⟩
  rw [worst_months, hset]
  exact hleast

lemma calmar_review : (y.review sqrt).calmar.getD 0 =
    quantizeThousandth (if (y.review sqrt).maxDrawdown.getD 0 < 0
      then (y.review sqrt).annualReturn / |(y.review sqrt).maxDrawdown.getD 0| else 0) := by
  have hzero : quantizeThousandth 0 = 0 := by decide +kernel
  have hcalmar : (y.review sqrt).calmar = (y.review sqrt).maxDrawdown.bind (fun w =>
      if w < 0 then some (quantizeThousandth ((y.review sqrt).annualReturn / |w|)) else none) := rfl
  rw [hcalmar]
  cases (y.review sqrt).maxDrawdown with
  | none => exact hzero.symm
  | some w =>
    rw [Option.bind_some, Option.getD_some]
    split
    · rfl
    · exact hzero.symm

lemma worst_review : WorstOfWeeks y.blocks ((y.review sqrt).maxDrawdown.getD 0) ((y.review sqrt).calmar.getD 0) := by
  rw [calmar_review]
  exact worstOfWeeks (y.drawdown_review sqrt) (y.return_review sqrt)

end YearWindow

lemma drawdown_eq_none_iff (sqrt : ℚ → ℚ) (y : YearWindow) : (y.review sqrt).maxDrawdown = none ↔ y.children = [] := by
  rw [YearWindow.worst_months]
  have hnone (values : List ℚ) : least values = none ↔ values = [] := by
    cases values with
    | nil => exact ⟨fun _ => rfl, fun _ => rfl⟩
    | cons v vs => exact ⟨nofun, nofun⟩
  rw [hnone, List.map_eq_nil_iff, ReviewWindow.counted, dedupeChildReviews]
  constructor
  · intro h
    have hfirsts : firsts ReviewWindow.key y.children = [] :=
      List.nil_perm.mp (h ▸ List.perm_insertionSort _ (firsts ReviewWindow.key y.children))
    rw [List.eq_nil_iff_forall_not_mem]
    intro m hm
    have hmem : m.key ∈ (firsts ReviewWindow.key y.children).map ReviewWindow.key :=
      mem_map_firsts.mpr (List.mem_map_of_mem hm)
    rw [hfirsts] at hmem
    exact List.not_mem_nil hmem
  · intro h
    rw [h]
    rfl

/-- The drawdown of a month and of a year is the deepest fall within one week. It is that of the
days they cover, and so is the Calmar ratio, unless a fall across weeks is deeper. -/
theorem aggregated_drawdown (sqrt : ℚ → ℚ) :
    (∀ m : MonthWindow, WorstOfWeeks m.blocks (m.review sqrt).maxDrawdown (m.review sqrt).calmar) ∧
    ∀ y : YearWindow,
      WorstOfWeeks y.blocks ((y.review sqrt).maxDrawdown.getD 0) ((y.review sqrt).calmar.getD 0) ∧
      ((y.review sqrt).maxDrawdown = none ↔ y.children = []) := by
  exact ⟨MonthWindow.worst_review sqrt, fun y => ⟨y.worst_review sqrt, drawdown_eq_none_iff sqrt y⟩⟩

def weekOf (number : ℕ) (pnls : List ℚ) : WeekWindow where
  reviewId := .period .weekly (.week 2026 number)
  periodId := .week 2026 number
  children := pnls.zipIdx.map (fun (pnl, i) => {
    reviewId := .daily "review"
    periodId := .day (7 * number + i)
    netPnl := .decimal pnl })

/-- Two weeks that each end or begin with a loss of 5. -/
def losingMonth : MonthWindow where
  reviewId := .period .monthly (.month 2026 8)
  periodId := .month 2026 8
  children := [weekOf 34 [30, -5], weekOf 35 [-5]]

/-- The fall of 10 over both weeks is reported as one of 5, and the Calmar ratio as 4. -/
theorem losing_month_understated : ¬ ∀ (sqrt : ℚ → ℚ) (m : MonthWindow),
    (m.review sqrt).maxDrawdown ≤ drawdown m.blocks.flatten ∧
      (m.review sqrt).calmar ≤ calmarOf m.blocks.flatten := by
  intro h
  obtain ⟨hdrawdown, -⟩ := h id losingMonth
  revert hdrawdown
  decide +kernel

end CryptoTrader
