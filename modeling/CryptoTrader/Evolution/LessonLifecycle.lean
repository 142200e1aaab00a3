import CryptoTrader.Evolution.HierarchicalRuns
import Mathlib.Data.Finset.Card

/-!
# The lifecycle of a lesson

The weekly review rejects a lesson whose contradicted occurrences are more than the days it
occurred on. A lesson that every occurrence contradicts has as many as it has days when it
occurs once a day, and is confirmed.
-/

namespace CryptoTrader

open KeyedTable Dict

/-! ### What is collected about a statement -/

/-- `_dec(contradictions) > _dec(supporting_decisions)`. -/
def DailyLesson.contradicted (l : DailyLesson) : Prop :=
  l.supportingDecisions.dec < l.contradictions.dec

instance (l : DailyLesson) : Decidable l.contradicted :=
  inferInstanceAs (Decidable (_ < _))

/-- The lessons of the reports that make a statement, with the days of the reports. -/
def occurrences (statement : String) (reports : List DailyReport) : List (PeriodId × DailyLesson) :=
  (reports.flatMap (fun d => d.candidateLessons.map (d.periodId, ·))).filter
    (fun l => l.2.canonicalStatement = statement)

/-- The turn of `lessonEntries`. -/
def takeLesson (l : PeriodId × DailyLesson) (e : Option LessonEntry) : LessonEntry :=
  (e.getD { lesson := l.2 }).add l.1 l.2

def daysOf (lessons : List (PeriodId × DailyLesson)) : Finset PeriodId := (lessons.map Prod.fst).toFinset

/-- An entry that has been made of the lessons. -/
structure Tally (lessons : List (PeriodId × DailyLesson)) (e : LessonEntry) : Prop where
  lesson : e.lesson ∈ lessons.map Prod.snd
  nodup : e.days.Nodup
  days : e.days.toFinset = daysOf lessons
  contradictionDays : e.contradictionDays = lessons.countP (fun l => l.2.contradicted)

lemma Tally.length {lessons : List (PeriodId × DailyLesson)} {e : LessonEntry} (h : Tally lessons e) :
    e.days.length = (daysOf lessons).card := by
  rw [← h.days, List.toFinset_card_of_nodup h.nodup]

/-- One more lesson, into an entry that has the counts of the earlier ones. -/
lemma tally_add {lessons : List (PeriodId × DailyLesson)} {e : LessonEntry} (l : PeriodId × DailyLesson)
    (hlesson : e.lesson ∈ (lessons ++ [l]).map Prod.snd) (hnodup : e.days.Nodup)
    (hdays : e.days.toFinset = daysOf lessons)
    (hcount : e.contradictionDays = lessons.countP (fun l => l.2.contradicted)) :
    Tally (lessons ++ [l]) (e.add l.1 l.2) where
  lesson := hlesson
  nodup := by
    unfold LessonEntry.add
    dsimp only
    split
    · exact hnodup
    · rename_i hday
      exact List.nodup_append.mpr ⟨hnodup, List.nodup_singleton _,
        fun day hd day' hd' => ne_of_mem_of_not_mem hd (List.mem_singleton.mp hd' ▸ hday)⟩
  days := by
    have hmem (day : PeriodId) : day ∈ e.days ↔ day ∈ lessons.map Prod.fst := by
      rw [← List.mem_toFinset, hdays, daysOf, List.mem_toFinset]
    ext day
    unfold LessonEntry.add daysOf
    dsimp only
    rw [List.map_append, List.mem_toFinset, List.mem_toFinset, List.mem_append, ← hmem]
    split
    · rename_i hday
      constructor
      · exact Or.inl
      · rintro (h | h)
        · exact h
        · rwa [List.mem_singleton.mp h]
    · rw [List.mem_append]
      rfl
  contradictionDays := by
    unfold LessonEntry.add
    dsimp only
    rw [List.countP_append, List.countP_singleton, ← hcount]
    by_cases h : l.2.contradicted
    · rw [if_pos (decide_eq_true h)]
      exact if_pos h
    · rw [if_neg (mt of_decide_eq_true h)]
      exact if_neg h

lemma exists_tally {lessons : List (PeriodId × DailyLesson)} (hne : lessons ≠ []) :
    ∃ e, lessons.foldl (fun e l => some (takeLesson l e)) none = some e ∧ Tally lessons e := by
  induction lessons using List.reverseRecOn with
  | nil => exact absurd rfl hne
  | append_singleton lessons l ih =>
    rw [List.foldl_append, List.foldl_cons, List.foldl_nil]
    refine ⟨_, rfl, ?_⟩
    by_cases hfirst : lessons = []
    · subst hfirst
      exact tally_add l (by simp) List.nodup_nil rfl rfl
    · obtain ⟨e, he, htally⟩ := ih hfirst
      rw [he, takeLesson, Option.getD_some]
      apply tally_add l _ htally.nodup htally.days htally.contradictionDays
      rw [List.map_append]
      exact List.mem_append_left _ htally.lesson

/-- The status that the lessons of a statement get. -/
def lessonStatus (lessons : List (PeriodId × DailyLesson)) : String :=
  let supportDays := (daysOf lessons).card
  if 2 ≤ supportDays ∧ supportDays < lessons.countP (fun l => l.2.contradicted) then "REJECTED"
  else if 2 ≤ supportDays then "CONFIRMED"
  else "CANDIDATE"

lemma Tally.status {lessons : List (PeriodId × DailyLesson)} {e : LessonEntry} (h : Tally lessons e) :
    e.status = lessonStatus lessons := by
  unfold LessonEntry.status lessonStatus
  rw [h.length, h.contradictionDays]

lemma lessonStatus_perm {lessons lessons' : List (PeriodId × DailyLesson)} (h : lessons.Perm lessons') (status : String) :
    (lessons ≠ [] ∧ lessonStatus lessons = status) ↔ lessons' ≠ [] ∧ lessonStatus lessons' = status := by
  unfold lessonStatus daysOf
  rw [← List.length_pos_iff, ← List.length_pos_iff, h.length_eq, h.countP_eq, List.toFinset_eq_of_perm _ _ (h.map Prod.fst)]

lemma nodup_entries (reports : List DailyReport) : ((lessonEntries reports).map Prod.fst).Nodup :=
  nodup_foldl_alter _ takeLesson List.nodup_nil

lemma get_entries (statement : String) (reports : List DailyReport) :
    get statement (lessonEntries reports) =
      (occurrences statement reports).foldl (fun e l => some (takeLesson l e)) none :=
  get_foldl_alter (fun l : PeriodId × DailyLesson => l.2.canonicalStatement) takeLesson _ statement []

/-- Which statements have entries, and with which status. -/
lemma entry_iff (statement status : String) (reports : List DailyReport) :
    (∃ e, (statement, e) ∈ lessonEntries reports ∧ e.status = status) ↔
      occurrences statement reports ≠ [] ∧ lessonStatus (occurrences statement reports) = status := by
  have hmem (e : LessonEntry) : (statement, e) ∈ lessonEntries reports ↔ get statement (lessonEntries reports) = some e :=
    mem_iff_get (nodup_entries reports)
  simp only [hmem, get_entries]
  by_cases hne : occurrences statement reports = []
  · simp [hne]
  · obtain ⟨e, he, htally⟩ := exists_tally hne
    simp [he, hne, htally.status]

lemma canonicalStatement_entry {statement : String} {e : LessonEntry} {reports : List DailyReport}
    (h : (statement, e) ∈ lessonEntries reports) : e.lesson.canonicalStatement = statement := by
  rw [mem_iff_get (nodup_entries reports), get_entries] at h
  have hne : occurrences statement reports ≠ [] := by
    intro hnil
    rw [hnil] at h
    cases h
  obtain ⟨e', he', htally⟩ := exists_tally hne
  rw [he'] at h
  obtain rfl := Option.some.inj h
  obtain ⟨l, hl, heq⟩ := List.mem_map.mp htally.lesson
  rw [← heq]
  exact of_decide_eq_true (List.mem_filter.mp hl).2

/-! ### The classification -/

def statementsOf (lessons : List DailyLesson) : List String := lessons.map (·.canonicalStatement)

lemma statements_lessonsWith (status : String) (reports : List DailyReport) :
    statementsOf (lessonsWith status (lessonEntries reports)) =
      ((lessonEntries reports).filter (fun e => e.2.status = status)).map Prod.fst := by
  rw [statementsOf, lessonsWith, List.map_map]
  apply List.map_congr_left
  rintro ⟨statement, e⟩ he
  exact canonicalStatement_entry (List.mem_filter.mp he).1

lemma mem_lessonsWith {statement status : String} {reports : List DailyReport} :
    statement ∈ statementsOf (lessonsWith status (lessonEntries reports)) ↔
      occurrences statement reports ≠ [] ∧ lessonStatus (occurrences statement reports) = status := by
  rw [statements_lessonsWith, ← entry_iff, List.mem_map]
  constructor
  · rintro ⟨⟨_, e⟩, he, rfl⟩
    obtain ⟨hmem, hstatus⟩ := List.mem_filter.mp he
    exact ⟨e, hmem, of_decide_eq_true hstatus⟩
  · rintro ⟨e, hmem, hstatus⟩
    exact ⟨(statement, e), List.mem_filter.mpr ⟨hmem, decide_eq_true hstatus⟩, rfl⟩

lemma nodup_lessonsWith (status : String) (reports : List DailyReport) :
    (statementsOf (lessonsWith status (lessonEntries reports))).Nodup := by
  rw [statements_lessonsWith]
  exact nodup_filter (nodup_entries reports) _

lemma lessonStatus_cases (lessons : List (PeriodId × DailyLesson)) :
    lessonStatus lessons = "REJECTED" ∨ lessonStatus lessons = "CONFIRMED" ∨ lessonStatus lessons = "CANDIDATE" := by
  unfold lessonStatus
  dsimp only
  split
  · exact .inl rfl
  · split
    · exact .inr (.inl rfl)
    · exact .inr (.inr rfl)

lemma confirmed_iff {lessons : List (PeriodId × DailyLesson)} : lessonStatus lessons = "CONFIRMED" ↔
    2 ≤ (daysOf lessons).card ∧ lessons.countP (fun l => l.2.contradicted) ≤ (daysOf lessons).card := by
  unfold lessonStatus
  dsimp only
  split
  · rename_i h
    exact ⟨fun hs => absurd hs (by decide), fun hc => absurd h.2 (not_lt.mpr hc.2)⟩
  · rename_i h
    split
    · rename_i h₂
      exact ⟨fun _ => ⟨h₂, not_lt.mp fun hlt => h ⟨h₂, hlt⟩⟩, fun _ => rfl⟩
    · rename_i h₂
      exact ⟨fun hs => absurd hs (by decide), fun hc => absurd hc.1 h₂⟩

/-! ### Repeated and reordered reports -/

lemma occurrences_perm {reports reports' : List DailyReport} (h : reports.Perm reports') (statement : String) :
    (occurrences statement reports).Perm (occurrences statement reports') :=
  (h.flatMap_right _).filter _

lemma dedupe_perm_firsts {α : Type} (key : α → PeriodId × ReviewId) (l : List α) :
    (dedupeChildReviews key l).Perm (firsts key l) :=
  List.perm_insertionSort _ _

/-- What is kept of some reports is told by the first report of each key. -/
lemma firsts_perm {reports reports' : List DailyReport}
    (h : ∀ k, row DailyReport.key k reports' = row DailyReport.key k reports) :
    (firsts DailyReport.key reports').Perm (firsts DailyReport.key reports) := by
  have hnodup (l : List DailyReport) : (firsts DailyReport.key l).Nodup := List.Nodup.of_map _ (nodup_map_firsts l)
  apply (List.perm_ext_iff_of_nodup (hnodup _) (hnodup _)).mpr
  intro r
  rw [mem_firsts_iff, mem_firsts_iff, h]

/-- The three lists of a review, as statements. -/
structure SameClassification (r r' : WeeklyReviewResult) : Prop where
  confirmed : ∀ s, s ∈ statementsOf r'.confirmedLessons ↔ s ∈ statementsOf r.confirmedLessons
  candidate : ∀ s, s ∈ statementsOf r'.candidateLessons ↔ s ∈ statementsOf r.candidateLessons
  invalidated : ∀ s, s ∈ statementsOf r'.invalidatedLessons ↔ s ∈ statementsOf r.invalidatedLessons

section Review

variable (reviewId : ReviewId) (periodId : PeriodId) (startsAt endsAt : ℕ)

/-- Which statements the list of a status has. -/
lemma mem_classified {statement status : String} {reports : List DailyReport} :
    statement ∈ statementsOf (lessonsWith status (lessonEntries (dedupeChildReviews DailyReport.key reports))) ↔
      occurrences statement (firsts DailyReport.key reports) ≠ [] ∧
        lessonStatus (occurrences statement (firsts DailyReport.key reports)) = status := by
  rw [mem_lessonsWith]
  exact lessonStatus_perm (occurrences_perm (dedupe_perm_firsts DailyReport.key reports) statement) status

lemma sameClassification {reports reports' : List DailyReport}
    (h : ∀ k, row DailyReport.key k reports' = row DailyReport.key k reports) :
    SameClassification (weeklyReview reviewId periodId startsAt endsAt reports)
      (weeklyReview reviewId periodId startsAt endsAt reports') := by
  have hsame (status statement : String) :
      statement ∈ statementsOf (lessonsWith status (lessonEntries (dedupeChildReviews DailyReport.key reports'))) ↔
        statement ∈ statementsOf (lessonsWith status (lessonEntries (dedupeChildReviews DailyReport.key reports))) := by
    rw [mem_classified, mem_classified]
    exact lessonStatus_perm (occurrences_perm (firsts_perm h) statement) status
  exact ⟨hsame _, hsame _, hsame _⟩

/-- A statement is in one list, once, if it is in a report that counts. -/
lemma classified_once (reports : List DailyReport) :
    (statementsOf ((weeklyReview reviewId periodId startsAt endsAt reports).confirmedLessons ++
      (weeklyReview reviewId periodId startsAt endsAt reports).candidateLessons ++
      (weeklyReview reviewId periodId startsAt endsAt reports).invalidatedLessons)).Nodup := by
  have hdisjoint {status status' : String} (hne : status ≠ status') (kept : List DailyReport) :
      (statementsOf (lessonsWith status (lessonEntries kept))).Disjoint
        (statementsOf (lessonsWith status' (lessonEntries kept))) := by
    intro s hs hs'
    exact hne ((mem_lessonsWith.mp hs).2.symm.trans (mem_lessonsWith.mp hs').2)
  unfold statementsOf
  rw [List.map_append, List.map_append]
  apply List.Nodup.append
  · apply List.Nodup.append (nodup_lessonsWith _ _) (nodup_lessonsWith _ _)
    exact hdisjoint (by decide) _
  · exact nodup_lessonsWith _ _
  · apply List.disjoint_append_left.mpr
    exact ⟨hdisjoint (by decide) _, hdisjoint (by decide) _⟩

lemma mem_classified_iff (statement : String) (reports : List DailyReport) :
    statement ∈ statementsOf ((weeklyReview reviewId periodId startsAt endsAt reports).confirmedLessons ++
      (weeklyReview reviewId periodId startsAt endsAt reports).candidateLessons ++
      (weeklyReview reviewId periodId startsAt endsAt reports).invalidatedLessons) ↔
    occurrences statement (firsts DailyReport.key reports) ≠ [] := by
  have hsplit (a b c : List DailyLesson) : statement ∈ statementsOf (a ++ b ++ c) ↔
      statement ∈ statementsOf a ∨ statement ∈ statementsOf b ∨ statement ∈ statementsOf c := by
    simp only [statementsOf, List.map_append, List.mem_append, or_assoc]
  refine (hsplit _ _ _).trans ?_
  constructor
  · rintro (h | h | h)
    · exact (mem_classified.mp h).1
    · exact (mem_classified.mp h).1
    · exact (mem_classified.mp h).1
  · intro h
    rcases lessonStatus_cases (occurrences statement (firsts DailyReport.key reports)) with hs | hs | hs
    · exact .inr (.inr (mem_classified.mpr ⟨h, hs⟩))
    · exact .inl (mem_classified.mpr ⟨h, hs⟩)
    · exact .inr (.inl (mem_classified.mpr ⟨h, hs⟩))

/-- What the classification of a review of some reports should be. -/
structure ClassifiesLessons (review : List DailyReport → WeeklyReviewResult) (reports : List DailyReport) : Prop where
  contradicted : ∀ statement, 2 ≤ (daysOf (occurrences statement reports)).card →
    (∀ l ∈ occurrences statement reports, l.2.contradicted) →
    statement ∉ statementsOf (review reports).confirmedLessons
  once : (statementsOf ((review reports).confirmedLessons ++ (review reports).candidateLessons ++
    (review reports).invalidatedLessons)).Nodup
  every : ∀ statement, statement ∈ statementsOf ((review reports).confirmedLessons ++
    (review reports).candidateLessons ++ (review reports).invalidatedLessons) ↔
    occurrences statement (firsts DailyReport.key reports) ≠ []
  /-- Another order in which the first report of a key is still the first. -/
  reordered : ∀ reports', reports'.Perm reports →
    (∀ k, row DailyReport.key k reports' = row DailyReport.key k reports) →
    SameClassification (review reports) (review reports')
  /-- A report whose key is that of an earlier one. -/
  repeated : ∀ earlier later r, reports = earlier ++ later → r.key ∈ earlier.map DailyReport.key →
    SameClassification (review reports) (review (earlier ++ r :: later))

/-- A statement that is contradicted wherever it occurs, and occurs once on each of its days. -/
def ContradictedDaily (statement : String) (reports : List DailyReport) : Prop :=
  (∀ l ∈ occurrences statement reports, l.2.contradicted) ∧
    2 ≤ (daysOf (occurrences statement (firsts DailyReport.key reports))).card ∧
    ((occurrences statement (firsts DailyReport.key reports)).map Prod.fst).Nodup

lemma mem_occurrences_firsts {statement : String} {reports : List DailyReport} {l : PeriodId × DailyLesson}
    (h : l ∈ occurrences statement (firsts DailyReport.key reports)) : l ∈ occurrences statement reports := by
  obtain ⟨hl, hstatement⟩ := List.mem_filter.mp h
  obtain ⟨r, hr, hlr⟩ := List.mem_flatMap.mp hl
  exact List.mem_filter.mpr ⟨List.mem_flatMap.mpr ⟨r, mem_firsts hr, hlr⟩, hstatement⟩

/-- The review confirms a lesson that is contradicted throughout exactly if its days are all different. -/
lemma confirmed_of_contradicted {statement : String} {reports : List DailyReport}
    (h : ∀ l ∈ occurrences statement reports, l.2.contradicted) :
    statement ∈ statementsOf (weeklyReview reviewId periodId startsAt endsAt reports).confirmedLessons ↔
      ContradictedDaily statement reports := by
  generalize hkept : occurrences statement (firsts DailyReport.key reports) = kept
  have hcount : kept.countP (fun l => l.2.contradicted) = (kept.map Prod.fst).length := by
    rw [List.length_map, List.countP_eq_length]
    intro l hl
    exact decide_eq_true (h l (mem_occurrences_firsts (hkept ▸ hl)))
  have hnodup : (kept.map Prod.fst).length ≤ (daysOf kept).card ↔ (kept.map Prod.fst).Nodup := by
    rw [daysOf, List.card_toFinset]
    constructor
    · intro hle
      rw [← (List.dedup_sublist _).eq_of_length_le hle]
      exact List.nodup_dedup _
    · intro hn
      rw [hn.dedup]
  refine mem_classified.trans ?_
  rw [ContradictedDaily, hkept, confirmed_iff, hcount, hnodup]
  constructor
  · exact fun hc => ⟨h, hc.2⟩
  · rintro ⟨-, hdays, hn⟩
    refine ⟨?_, hdays, hn⟩
    rintro rfl
    exact absurd hdays (by decide)

end Review

/-- A lesson of two days that both contradict. -/
def contradictedReports : List DailyReport :=
  [739860, 739861].map (fun n => {
    reviewId := .daily "review"
    periodId := .day n
    candidateLessons := [
      { canonicalStatement := "short into funding print"
        evidenceCount := 1
        supportingDecisions := .int 0
        contradictions := .int 2 }] })

end CryptoTrader
