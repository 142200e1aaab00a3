import CryptoTrader.Lib.FirstWrite
import CryptoTrader.Lib.OrderedRows
import Mathlib.Algebra.Order.Ring.Rat
import Mathlib.Data.Prod.Lex

/-!
# What the Live brain remembers

`LiveMemoryProvider.retrieve` reads the memory stores for a decision: a limited number of lessons,
patterns, episodes and rules. The lessons are written by `store_lesson`, which keeps the first lesson
of an id, and `update_lesson_status`; only confirmed ones are remembered (`knowledge_run`). Of the
recent episodes those of the regime come first, then those of the symbol (`similar_episodes`).
-/

namespace CryptoTrader

open OrderedRows FirstWrite

/-- A row of `learning_lessons`. -/
structure LessonRow where
  lessonId : String
  type : String := ""
  canonicalStatement : String := ""
  recommendedAction : String := ""
  evidenceCount : ℤ := 0
  confidence : ℚ := 0
  status : String := "CANDIDATE"
  deriving DecidableEq, Repr

/-- A row of `ai_market_patterns`. -/
structure PatternRow where
  patternId : String
  regime : String
  strategy : String
  sampleCount : ℤ := 0
  winRate : ℚ := 0
  profitFactor : ℚ := 0
  deriving DecidableEq, Repr

/-- A row of `ai_trade_episodes`. -/
structure EpisodeRow where
  episodeId : String
  symbol : String
  marketRegime : String
  strategySelected : String := ""
  result : String := ""
  pnl : ℚ := 0
  holdingTimeSeconds : ℚ := 0
  createdAt : ℤ
  deriving DecidableEq, Repr

/-- A row of `ai_compressed_experience`. -/
structure RuleRow where
  ruleId : String
  title : String
  content : String
  createdAt : ℤ
  deriving DecidableEq, Repr

/-! ### Writing the lessons -/

/-- `store_lesson` and `update_lesson_status`. -/
abbrev LessonWrite := Write LessonRow String String

def LessonRow.withStatus (status : String) (l : LessonRow) : LessonRow :=
  { l with status := status }

/-- The lessons after some writes. -/
def lessonsAfter (writes : List LessonWrite) : List LessonRow :=
  table LessonRow.lessonId LessonRow.withStatus writes

/-! ### Retrieval -/

structure MemoryDb where
  lessons : List LessonRow := []
  patterns : List PatternRow := []
  episodes : List EpisodeRow := []
  experience : List RuleRow := []

structure LiveMemoryProvider where
  maxLessons : ℕ := 5
  maxPatterns : ℕ := 3
  maxEpisodes : ℕ := 5
  maxExperience : ℕ := 3

/-- An item of `knowledge`. -/
structure KnowledgeItem where
  lessonId : String
  type : String
  statement : String
  recommendedAction : String
  confidence : ℚ
  status : String
  deriving DecidableEq, Repr

def KnowledgeItem.ofLesson (l : LessonRow) : KnowledgeItem where
  lessonId := l.lessonId
  type := l.type
  statement := l.canonicalStatement
  recommendedAction := l.recommendedAction
  confidence := l.confidence
  status := l.status

/-- An item of `compressed_experience`. -/
structure ExperienceItem where
  ruleId : String
  title : String
  content : String
  deriving DecidableEq, Repr

def ExperienceItem.ofRule (r : RuleRow) : ExperienceItem where
  ruleId := r.ruleId
  title := r.title
  content := String.ofList (r.content.toList.take 300)

structure LiveMemory where
  memoryRefs : List String
  knowledge : List KnowledgeItem
  patterns : List PatternRow
  similarEpisodes : List EpisodeRow
  compressedExperience : List ExperienceItem
  deriving DecidableEq, Repr

/-- `confidence.desc(), evidence_count.desc()`. -/
def lessonKey (l : LessonRow) : Lex (ℚ × ℤ) :=
  toLex (-l.confidence, -l.evidenceCount)

/-- The relevance of an episode. -/
def EpisodeRow.relevance (regime symbol : String) (e : EpisodeRow) : ℤ :=
  (if regime ≠ "" ∧ e.marketRegime = regime then 2 else 0) + (if e.symbol = symbol then 1 else 0)

namespace LiveMemoryProvider

variable (provider : LiveMemoryProvider) (regime symbol : String) (db : MemoryDb)

def lessons : List LessonRow :=
  firstRows lessonKey provider.maxLessons (db.lessons.filter (fun l => l.status = "CONFIRMED"))

def patterns : List PatternRow :=
  firstRows (fun p => -p.sampleCount) provider.maxPatterns
    (if regime ≠ "" ∧ regime ≠ "UNKNOWN" then db.patterns.filter (fun p => p.regime = regime) else db.patterns)

/-- The episodes that are looked at, the newest first. -/
def recentEpisodes : List EpisodeRow :=
  firstRows (fun e => -e.createdAt) 60 db.episodes

/-- The relevant ones with their relevance. -/
def scored : List (ℤ × EpisodeRow) :=
  (recentEpisodes db).filterMap (fun e =>
    if 0 < e.relevance regime symbol then some (e.relevance regime symbol, e) else none)

def similar : List EpisodeRow :=
  ((orderBy (fun item => -item.1) (scored regime symbol db)).take provider.maxEpisodes).map Prod.snd

def experience : List RuleRow :=
  firstRows (fun r => -r.createdAt) provider.maxExperience db.experience

def retrieve : LiveMemory :=
  let knowledge := (provider.lessons db).map KnowledgeItem.ofLesson
  let patterns := provider.patterns regime db
  let episodes := provider.similar regime symbol db
  let compressed := (provider.experience db).map ExperienceItem.ofRule
  { memoryRefs := knowledge.map KnowledgeItem.lessonId ++ patterns.map PatternRow.patternId ++
      episodes.map EpisodeRow.episodeId ++ compressed.map ExperienceItem.ruleId
    knowledge := knowledge
    patterns := patterns
    similarEpisodes := episodes
    compressedExperience := compressed }

end LiveMemoryProvider

/-! ### What is known -/

section Knowledge

variable (provider : LiveMemoryProvider) (regime symbol : String) (db : MemoryDb)

/-- The lesson is confirmed, as it was first stored, by the last status that it was given after that. -/
def Confirmed (writes : List LessonWrite) (l : LessonRow) : Prop :=
  FirstStored LessonRow.lessonId LessonRow.withStatus writes l ∧ l.status = "CONFIRMED"

/-- The lessons that are remembered are confirmed ones, the most confident first; and one that is not remembered stands
back for as many that are at least as confident, and have at least the evidence if they are not more confident. -/
theorem knowledge_run (writes : List LessonWrite) :
    ∃ kept : List LessonRow,
      (provider.retrieve regime symbol { db with lessons := lessonsAfter writes }).knowledge = kept.map KnowledgeItem.ofLesson ∧
      (kept.map LessonRow.lessonId).Nodup ∧ kept.length ≤ provider.maxLessons ∧ (∀ l ∈ kept, Confirmed writes l) ∧
      kept.Pairwise (fun a b => b.confidence < a.confidence ∨ a.confidence = b.confidence ∧ b.evidenceCount ≤ a.evidenceCount) ∧
      ∀ l, Confirmed writes l → l ∉ kept → kept.length = provider.maxLessons ∧
        ∀ k ∈ kept, l.confidence < k.confidence ∨ k.confidence = l.confidence ∧ l.evidenceCount ≤ k.evidenceCount := by
  have hset : ∀ status (l : LessonRow), (l.withStatus status).lessonId = l.lessonId := fun _ _ => rfl
  have hle {a b : LessonRow} (h : lessonKey a ≤ lessonKey b) :
      b.confidence < a.confidence ∨ a.confidence = b.confidence ∧ b.evidenceCount ≤ a.evidenceCount := by
    rw [lessonKey, lessonKey, Prod.Lex.toLex_le_toLex] at h
    rcases h with hconfidence | ⟨hconfidence, hevidence⟩
    · exact .inl (neg_lt_neg_iff.mp hconfidence)
    · exact .inr ⟨neg_injective hconfidence, neg_le_neg_iff.mp hevidence⟩
  have hconfirmed (l : LessonRow) : l ∈ (lessonsAfter writes).filter (fun l => l.status = "CONFIRMED") ↔ Confirmed writes l := by
    rw [List.mem_filter, decide_eq_true_eq, lessonsAfter, mem_table_iff hset]
    rfl
  refine ⟨provider.lessons { db with lessons := lessonsAfter writes }, rfl, ?_, length_firstRows _ _, ?_, ?_, ?_⟩
  · have hperm := (orderBy_perm lessonKey ((lessonsAfter writes).filter (fun l => l.status = "CONFIRMED"))).map LessonRow.lessonId
    have hnodup := KeyedTable.nodup_filter (nodup_table hset writes) (fun l => decide (l.status = "CONFIRMED"))
    exact (hperm.nodup_iff.mpr hnodup).sublist ((List.take_sublist _ _).map _)
  · exact fun l hl => (hconfirmed l).mp (mem_of_mem_firstRows hl)
  · have hsorted : (provider.lessons { db with lessons := lessonsAfter writes }).Pairwise
        (fun a b => lessonKey a ≤ lessonKey b) := firstRows_pairwise _ _
    exact hsorted.imp hle
  · intro l hl hout
    obtain ⟨hlength, hall⟩ := left_out ((hconfirmed l).mpr hl) hout
    exact ⟨hlength, fun k hk => hle (hall k hk)⟩

end Knowledge

/-! ### Similar episodes -/

section Similar

variable (provider : LiveMemoryProvider) (regime symbol : String) (db : MemoryDb)

lemma orderBy_map {α β κ : Type} [LinearOrder κ] (key : β → κ) (f : α → β) (l : List α) :
    orderBy key (l.map f) = (orderBy (fun a => key (f a)) l).map f :=
  (List.map_insertionSort (fun a b => key (f a) ≤ key (f b)) (fun a b => key a ≤ key b) f l (fun _ _ _ _ => Iff.rfl)).symm

lemma similar_eq : provider.similar regime symbol db =
    firstRows (fun e => -e.relevance regime symbol) provider.maxEpisodes
      ((LiveMemoryProvider.recentEpisodes db).filter (fun e => 0 < e.relevance regime symbol)) := by
  have hscored (l : List EpisodeRow) : l.filterMap (fun e =>
        if 0 < e.relevance regime symbol then some (e.relevance regime symbol, e) else none) =
      (l.filter (fun e => 0 < e.relevance regime symbol)).map (fun e => (e.relevance regime symbol, e)) := by
    induction l with
    | nil => rfl
    | cons e l ih =>
      by_cases he : 0 < e.relevance regime symbol
      · simp [he, ih]
      · simp [he, ih]
  have hsnd (l : List EpisodeRow) : (l.map (fun e => (e.relevance regime symbol, e))).map Prod.snd = l := by
    rw [List.map_map]
    exact List.map_id l
  rw [LiveMemoryProvider.similar, LiveMemoryProvider.scored, hscored, orderBy_map, ← List.map_take, hsnd]
  rfl

/-- Of the episodes the 60 newest are looked at, and of these the most relevant are remembered: those of the regime, then
those of the symbol, then the newer ones. -/
theorem similar_episodes (hids : (db.episodes.map EpisodeRow.episodeId).Nodup) :
    let recent := LiveMemoryProvider.recentEpisodes db
    let similar := (provider.retrieve regime symbol db).similarEpisodes
    (∀ e ∈ db.episodes, e ∉ recent → recent.length = 60 ∧ ∀ k ∈ recent, e.createdAt ≤ k.createdAt) ∧
    recent.Pairwise (fun a b => b.createdAt ≤ a.createdAt) ∧
    similar.length ≤ provider.maxEpisodes ∧
    (∀ e ∈ similar, e ∈ recent ∧ 0 < e.relevance regime symbol) ∧
    similar.Pairwise (fun a b => b.relevance regime symbol ≤ a.relevance regime symbol) ∧
    (∀ e ∈ recent, 0 < e.relevance regime symbol → e ∉ similar →
      similar.length = provider.maxEpisodes ∧ ∀ k ∈ similar, e.relevance regime symbol ≤ k.relevance regime symbol) ∧
    (∀ a b, [a, b].Sublist recent → a.relevance regime symbol = b.relevance regime symbol → b ∈ similar → a ∈ similar) := by
  intro recent similar
  have hsimilar : similar = firstRows (fun e => -e.relevance regime symbol) provider.maxEpisodes
      (recent.filter (fun e => 0 < e.relevance regime symbol)) := similar_eq provider regime symbol db
  have hrelevant (e : EpisodeRow) : e ∈ recent.filter (fun e => 0 < e.relevance regime symbol) ↔
      e ∈ recent ∧ 0 < e.relevance regime symbol := by
    rw [List.mem_filter, decide_eq_true_eq]
  have hnodup : recent.Nodup :=
    ((orderBy_perm _ db.episodes).nodup_iff.mpr (List.Nodup.of_map _ hids)).sublist (List.take_sublist 60 _)
  rw [hsimilar]
  refine ⟨?_, ?_, length_firstRows _ _, ?_, ?_, ?_, ?_⟩
  · intro e he hout
    obtain ⟨hlength, hall⟩ := left_out he hout
    exact ⟨hlength, fun k hk => neg_le_neg_iff.mp (hall k hk)⟩
  · have hsorted : recent.Pairwise (fun a b => -a.createdAt ≤ -b.createdAt) := firstRows_pairwise _ _
    exact hsorted.imp (fun h => neg_le_neg_iff.mp h)
  · exact fun e he => (hrelevant e).mp (mem_of_mem_firstRows he)
  · have hsorted : (firstRows (fun e => -e.relevance regime symbol) provider.maxEpisodes
        (recent.filter (fun e => 0 < e.relevance regime symbol))).Pairwise
        (fun a b => -a.relevance regime symbol ≤ -b.relevance regime symbol) := firstRows_pairwise _ _
    exact hsorted.imp (fun h => neg_le_neg_iff.mp h)
  · intro e he hpos hout
    obtain ⟨hlength, hall⟩ := left_out ((hrelevant e).mpr ⟨he, hpos⟩) hout
    exact ⟨hlength, fun k hk => neg_le_neg_iff.mp (hall k hk)⟩
  · intro a b hab heq hb
    have hpos := ((hrelevant b).mp (mem_of_mem_firstRows hb)).2
    have hfiltered : [a, b].Sublist (recent.filter (fun e => 0 < e.relevance regime symbol)) := by
      have hfilter := hab.filter (fun e => decide (0 < e.relevance regime symbol))
      rwa [List.filter_cons_of_pos (by simpa [heq] using hpos), List.filter_cons_of_pos (by simpa using hpos),
        List.filter_nil] at hfilter
    exact firstRows_of_earlier (hnodup.filter _) hfiltered (by rw [heq]) hb

/-- Two episodes of another symbol, of which one is of the regime. -/
def otherEpisodes : MemoryDb where
  episodes := [{ episodeId := "ep_1", symbol := "ETHUSDT", marketRegime := "BULL", createdAt := 1 },
    { episodeId := "ep_2", symbol := "ETHUSDT", marketRegime := "RANGE", createdAt := 2 }]

theorem similar_episodes_other :
    (({} : LiveMemoryProvider).retrieve "BULL" "BTCUSDT" otherEpisodes).similarEpisodes.length ≤ ({} : LiveMemoryProvider).maxEpisodes :=
  (similar_episodes {} "BULL" "BTCUSDT" otherEpisodes (by decide)).2.2.1

end Similar

end CryptoTrader
