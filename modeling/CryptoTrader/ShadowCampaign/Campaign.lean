import Mathlib.Algebra.Order.Field.Rat
import Mathlib.Data.Finset.Card
import Mathlib.Data.Finset.Dedup
import Mathlib.Data.List.Induction
import Mathlib.Data.String.Basic

/-!
# The shadow campaign

`ShadowCampaignManager` keeps counters, which its dictionary holds, and the accepted
observations and the decision ids, which it does not. A restart forgets those, so that a day
is counted anew and a decision is new again (`campaign_survives_iff`). A time is a number of
seconds.
-/

namespace CryptoTrader

inductive CampaignStatus where
  | notStarted | running | paused | degraded | completed | invalidated
  deriving DecidableEq, Repr

/-- What `to_dict` holds. -/
structure CampaignRecord where
  campaignId : String := "campaign_v1"
  createdAt : String
  startTime : Option ℚ := none
  lastObservationTime : Option String := none
  elapsedRealCalendarDays : ℚ := 0
  validObservationDays : ℕ := 0
  decisionCount : ℕ := 0
  tradeCount : ℕ := 0
  noTradeCount : ℕ := 0
  symbolCoverage : List String := []
  regimeCoverage : List String := []
  downtimeHours : ℚ := 0
  providerFailures : ℕ := 0
  marketDataFailures : ℕ := 0
  criticalIncidents : ℕ := 0
  dataQualityScore : ℚ := 100
  campaignStatus : CampaignStatus := .notStarted
  deriving DecidableEq, Repr

structure CampaignObservation where
  timestamp : String
  symbol : String
  regime : String
  valid : Bool := true
  deriving DecidableEq, Repr

/-- `timestamp[:10]`. -/
def CampaignObservation.day (o : CampaignObservation) : List Char := o.timestamp.toList.take 10

structure ShadowCampaignManager extends CampaignRecord where
  observations : List CampaignObservation := []
  decisions : List String := []
  deriving DecidableEq, Repr

/-- An operation; those that read the clock have the time they read. -/
inductive CampaignCall where
  | start (now : ℚ)
  | pause
  | resume
  | recordObservation (o : CampaignObservation) (isDecision isTrade : Bool)
  | recordDecision (decisionId : String)
  | recordDowntime (hours : ℚ)
  | updateElapsedDays (now : ℚ)
  | maybeComplete (now minElapsedDays : ℚ) (minValidObservationDays : ℕ)
  deriving DecidableEq, Repr

inductive CampaignReturn where
  | none
  | accepted (b : Bool)
  | days (n : ℚ)
  | status (s : CampaignStatus)
  deriving DecidableEq, Repr

/-- Append a name that is not there. -/
def cover (name : String) (names : List String) : List String :=
  if name ∈ names then names else names ++ [name]

/-! ### The operations on the fields -/

namespace CampaignRecord

variable (r : CampaignRecord)

def start (now : ℚ) : CampaignRecord :=
  let r := if r.campaignStatus = .notStarted then { r with startTime := some now } else r
  { r with campaignStatus := .running }

def pause : CampaignRecord :=
  if r.campaignStatus = .running then { r with campaignStatus := .paused } else r

def resume : CampaignRecord :=
  if r.campaignStatus = .paused then { r with campaignStatus := .running } else r

def recordDowntime (hours : ℚ) : CampaignRecord :=
  let downtime := r.downtimeHours + hours
  { r with downtimeHours := downtime, dataQualityScore := max 0 (100 - downtime * 2) }

def updateElapsedDays (now : ℚ) : ℚ × CampaignRecord :=
  match r.startTime with
  | none => (0, r)
  | some start =>
    let elapsed := max 0 ((now - start) / 86400)
    (elapsed, { r with elapsedRealCalendarDays := elapsed })

def maybeComplete (now minElapsedDays : ℚ) (minValidObservationDays : ℕ) : CampaignStatus × CampaignRecord :=
  let r := (r.updateElapsedDays now).2
  if r.elapsedRealCalendarDays < minElapsedDays then (r.campaignStatus, r)
  else
    let status := if minValidObservationDays ≤ r.validObservationDays then .completed else .degraded
    (status, { r with campaignStatus := status })

/-- The fields after an accepted observation, with the number of the valid days. -/
def observe (o : CampaignObservation) (isDecision isTrade : Bool) (validDays : ℕ) : CampaignRecord :=
  { r with
    lastObservationTime := some o.timestamp
    validObservationDays := if o.valid then validDays else r.validObservationDays
    symbolCoverage := cover o.symbol r.symbolCoverage
    regimeCoverage := cover o.regime r.regimeCoverage
    decisionCount := if isDecision then r.decisionCount + 1 else r.decisionCount
    tradeCount := if isTrade then r.tradeCount + 1 else r.tradeCount
    noTradeCount := if !isTrade && isDecision then r.noTradeCount + 1 else r.noTradeCount }

end CampaignRecord

/-! ### The manager -/

namespace ShadowCampaignManager

variable (m : ShadowCampaignManager)

/-- An observation must be later than the one before. -/
def inOrder (last : Option String) (o : CampaignObservation) : Bool :=
  match last with
  | none => true
  | some last => last < o.timestamp

def validDays (observations : List CampaignObservation) : Finset (List Char) :=
  ((observations.filter (·.valid)).map (·.day)).toFinset

def recordObservation (o : CampaignObservation) (isDecision isTrade : Bool) : Bool × ShadowCampaignManager :=
  if !inOrder m.lastObservationTime o then (false, m)
  else
    let observations := m.observations ++ [o]
    (true, { m with
      toCampaignRecord := m.toCampaignRecord.observe o isDecision isTrade (validDays observations).card
      observations := observations })

def recordDecision (decisionId : String) : Bool × ShadowCampaignManager :=
  if decisionId ∈ m.decisions then (false, m) else (true, { m with decisions := m.decisions ++ [decisionId] })

def toDict : CampaignRecord := m.toCampaignRecord

/-- The observations and the decisions are not in the dictionary. -/
def fromDict (data : CampaignRecord) : ShadowCampaignManager := { toCampaignRecord := data }

def perform : CampaignCall → CampaignReturn × ShadowCampaignManager
  | .start now => (.none, { m with toCampaignRecord := m.toCampaignRecord.start now })
  | .pause => (.none, { m with toCampaignRecord := m.toCampaignRecord.pause })
  | .resume => (.none, { m with toCampaignRecord := m.toCampaignRecord.resume })
  | .recordObservation o isDecision isTrade =>
    let (b, m') := m.recordObservation o isDecision isTrade
    (.accepted b, m')
  | .recordDecision decisionId =>
    let (b, m') := m.recordDecision decisionId
    (.accepted b, m')
  | .recordDowntime hours => (.none, { m with toCampaignRecord := m.toCampaignRecord.recordDowntime hours })
  | .updateElapsedDays now =>
    let (n, r) := m.toCampaignRecord.updateElapsedDays now
    (.days n, { m with toCampaignRecord := r })
  | .maybeComplete now minElapsedDays minValidObservationDays =>
    let (s, r) := m.toCampaignRecord.maybeComplete now minElapsedDays minValidObservationDays
    (.status s, { m with toCampaignRecord := r })

end ShadowCampaignManager

/-! ### Restarts -/

inductive CampaignEvent where
  | call (c : CampaignCall)
  | restart
  deriving DecidableEq, Repr

def CampaignEvent.isCall : CampaignEvent → Bool
  | .call _ => true
  | .restart => false

/-- What a run returns and reports after each operation, and the manager at its end. -/
structure CampaignRun where
  manager : ShadowCampaignManager
  log : List (CampaignReturn × CampaignRecord) := []

def CampaignRun.step (run : CampaignRun) : CampaignEvent → CampaignRun
  | .restart => { run with manager := .fromDict run.manager.toDict }
  | .call c =>
    let (r, m) := run.manager.perform c
    ⟨m, run.log ++ [(r, m.toDict)]⟩

/-- The run of a new campaign. -/
def campaignRun (campaignId createdAt : String) (events : List CampaignEvent) : CampaignRun :=
  events.foldl CampaignRun.step ⟨{ campaignId, createdAt }, []⟩

/-- The claim about a run: its restarts cannot be seen. -/
def SurvivesRestarts (campaignId createdAt : String) (events : List CampaignEvent) : Prop :=
  (campaignRun campaignId createdAt events).log =
    (campaignRun campaignId createdAt (events.filter CampaignEvent.isCall)).log

/-- What was recorded, ever and since the last restart. -/
structure CampaignHistory where
  last : Option String := none
  days : List (List Char) := []
  recentDays : List (List Char) := []
  decisions : List String := []
  recentDecisions : List String := []
  deriving DecidableEq, Repr

namespace CampaignHistory

def step (h : CampaignHistory) : CampaignEvent → CampaignHistory
  | .restart => { h with recentDays := [], recentDecisions := [] }
  | .call (.recordObservation o _ _) =>
    if !ShadowCampaignManager.inOrder h.last o then h
    else if o.valid then
      { h with last := some o.timestamp, days := h.days ++ [o.day], recentDays := h.recentDays ++ [o.day] }
    else { h with last := some o.timestamp }
  | .call (.recordDecision id) =>
    { h with decisions := h.decisions ++ [id], recentDecisions := h.recentDecisions ++ [id] }
  | .call _ => h

/-- What an operation counts or looks up is all since the last restart. -/
def Remembers (h : CampaignHistory) : CampaignCall → Prop
  | .recordObservation o _ _ =>
    ShadowCampaignManager.inOrder h.last o → o.valid → ∀ day ∈ h.days, day = o.day ∨ day ∈ h.recentDays
  | .recordDecision id => id ∈ h.decisions → id ∈ h.recentDecisions
  | _ => True

end CampaignHistory

def campaignHistory (events : List CampaignEvent) : CampaignHistory := events.foldl CampaignHistory.step {}

/-- After a restart, no decision from before it is repeated unless it was recorded since, and
a valid observation is accepted only when every day counted before it has been seen since. -/
def NothingForgotten (events : List CampaignEvent) : Prop :=
  ∀ before c after, events = before ++ .call c :: after → (campaignHistory before).Remembers c

/-! ### The two runs side by side -/

/-- A manager `m` without and a manager `m'` with restarts after the same operations. -/
structure SideBySide (m m' : ShadowCampaignManager) (h : CampaignHistory) : Prop where
  same : m.toDict = m'.toDict
  last : m.lastObservationTime = h.last
  days : ShadowCampaignManager.validDays m.observations = h.days.toFinset
  recentDays : ShadowCampaignManager.validDays m'.observations = h.recentDays.toFinset
  decisions : ∀ id, id ∈ m.decisions ↔ id ∈ h.decisions
  recentDecisions : ∀ id, id ∈ m'.decisions ↔ id ∈ h.recentDecisions
  daysSubset : h.recentDays ⊆ h.days
  decisionsSubset : h.recentDecisions ⊆ h.decisions

section Steps

variable {m m' : ShadowCampaignManager} {h : CampaignHistory}

lemma validDays_concat (observations : List CampaignObservation) (o : CampaignObservation) :
    ShadowCampaignManager.validDays (observations ++ [o]) =
      ShadowCampaignManager.validDays observations ∪ if o.valid then {o.day} else ∅ := by
  unfold ShadowCampaignManager.validDays
  cases hv : o.valid <;> simp [hv]

lemma SideBySide.restart (hs : SideBySide m m' h) : SideBySide m (.fromDict m'.toDict) (h.step .restart) where
  same := hs.same
  last := hs.last
  days := hs.days
  recentDays := rfl
  decisions := hs.decisions
  recentDecisions := fun _ => Iff.rfl
  daysSubset := List.nil_subset _
  decisionsSubset := List.nil_subset _

lemma SideBySide.recordDecision (hs : SideBySide m m' h) (id : String) :
    ((m.recordDecision id).1 = (m'.recordDecision id).1 ↔ (id ∈ h.decisions → id ∈ h.recentDecisions)) ∧
      SideBySide (m.recordDecision id).2 (m'.recordDecision id).2 (h.step (.call (.recordDecision id))) := by
  have hfull (x : String) : x ∈ (m.recordDecision id).2.decisions ↔ x ∈ h.decisions ++ [id] := by
    rw [ShadowCampaignManager.recordDecision, List.mem_append, List.mem_singleton]
    split
    · rename_i hmem
      rw [hs.decisions, or_iff_left_of_imp]
      rintro rfl
      exact (hs.decisions x).mp hmem
    · rw [List.mem_append, hs.decisions, List.mem_singleton]
  have hrecent (x : String) : x ∈ (m'.recordDecision id).2.decisions ↔ x ∈ h.recentDecisions ++ [id] := by
    rw [ShadowCampaignManager.recordDecision, List.mem_append, List.mem_singleton]
    split
    · rename_i hmem
      rw [hs.recentDecisions, or_iff_left_of_imp]
      rintro rfl
      exact (hs.recentDecisions x).mp hmem
    · rw [List.mem_append, hs.recentDecisions, List.mem_singleton]
  have hrecord (n : ShadowCampaignManager) : (n.recordDecision id).2.toDict = n.toDict ∧
      (n.recordDecision id).2.observations = n.observations ∧ (n.recordDecision id).1 = decide (id ∉ n.decisions) := by
    rw [ShadowCampaignManager.recordDecision]
    split
    · exact ⟨rfl, rfl, by simpa⟩
    · exact ⟨rfl, rfl, by simpa⟩
  constructor
  · rw [(hrecord m).2.2, (hrecord m').2.2, decide_eq_decide, hs.decisions, hs.recentDecisions]
    have hsub := @hs.decisionsSubset id
    tauto
  · refine ⟨?_, ?_, ?_, ?_, hfull, hrecent, hs.daysSubset, ?_⟩
    · rw [(hrecord m).1, (hrecord m').1, hs.same]
    · exact (congrArg CampaignRecord.lastObservationTime (hrecord m).1).trans hs.last
    · rw [(hrecord m).2.1]
      exact hs.days
    · rw [(hrecord m').2.1]
      exact hs.recentDays
    · intro x hx
      rcases List.mem_append.mp hx with hx | hx
      · exact List.mem_append_left _ (hs.decisionsSubset hx)
      · exact List.mem_append_right _ hx

/-- The days since the restart are as many as all days only if they are all days. -/
lemma card_days_eq_iff {all recent : List (List Char)} (hsub : recent ⊆ all) (day : List Char) :
    (all.toFinset ∪ {day}).card = (recent.toFinset ∪ {day}).card ↔ ∀ d ∈ all, d = day ∨ d ∈ recent := by
  have hle : recent.toFinset ∪ {day} ⊆ all.toFinset ∪ {day} :=
    Finset.union_subset_union_left (fun d hd => List.mem_toFinset.mpr (hsub (List.mem_toFinset.mp hd)))
  constructor
  · intro hcard d hd
    have heq := Finset.eq_of_subset_of_card_le hle hcard.le
    have hmem : d ∈ recent.toFinset ∪ {day} := by
      rw [heq]
      exact Finset.mem_union_left _ (List.mem_toFinset.mpr hd)
    rw [Finset.mem_union, List.mem_toFinset, Finset.mem_singleton] at hmem
    exact hmem.symm
  · intro hall
    apply congrArg Finset.card
    apply Finset.Subset.antisymm _ hle
    intro d hd
    rw [Finset.mem_union, List.mem_toFinset, Finset.mem_singleton] at hd ⊢
    rcases hd with hd | hd
    · exact (hall d hd).symm
    · exact Or.inr hd

/-- A record has the number of valid days only from a valid observation. -/
lemma observe_eq_iff (r : CampaignRecord) (o : CampaignObservation) (isDecision isTrade : Bool) (n n' : ℕ) :
    r.observe o isDecision isTrade n = r.observe o isDecision isTrade n' ↔ (o.valid → n = n') := by
  cases hv : o.valid <;> simp [CampaignRecord.observe, hv]

lemma SideBySide.recordObservation (hs : SideBySide m m' h) (o : CampaignObservation) (isDecision isTrade : Bool) :
    let c := CampaignCall.recordObservation o isDecision isTrade
    (m.perform c).1 = (m'.perform c).1 ∧
      ((m.perform c).2.toDict = (m'.perform c).2.toDict ↔ h.Remembers c) ∧
      (h.Remembers c → SideBySide (m.perform c).2 (m'.perform c).2 (h.step (.call c))) := by
  obtain ⟨r, observations, decisions⟩ := m
  obtain ⟨r', observations', decisions'⟩ := m'
  obtain rfl : r = r' := hs.same
  have hlast : r.lastObservationTime = h.last := hs.last
  intro c
  cases ho : ShadowCampaignManager.inOrder r.lastObservationTime o with
  | false =>
    have hnot (n : ShadowCampaignManager) (hn : n.toCampaignRecord = r) : n.perform c = (.accepted false, n) := by
      simp [c, ShadowCampaignManager.perform, ShadowCampaignManager.recordObservation, hn, ho]
    have hstep : h.step (.call c) = h := by
      simp [c, CampaignHistory.step, ← hlast, ho]
    have hremembers : h.Remembers c := by
      intro hin
      rw [← hlast, ho] at hin
      cases hin
    rw [hnot _ rfl, hnot _ rfl, hstep]
    exact ⟨rfl, iff_of_true rfl hremembers, fun _ => hs⟩
  | true =>
    have hperform (obs : List CampaignObservation) (dec : List String) :
        ShadowCampaignManager.perform ⟨r, obs, dec⟩ c = (.accepted true,
          ⟨r.observe o isDecision isTrade (ShadowCampaignManager.validDays (obs ++ [o])).card, obs ++ [o], dec⟩) := by
      simp [c, ShadowCampaignManager.perform, ShadowCampaignManager.recordObservation, ho]
    have hcount : h.Remembers c ↔ (o.valid → (ShadowCampaignManager.validDays (observations ++ [o])).card =
        (ShadowCampaignManager.validDays (observations' ++ [o])).card) := by
      change (ShadowCampaignManager.inOrder h.last o → o.valid → _) ↔ _
      rw [← hlast, ho, forall_prop_of_true rfl]
      apply forall_congr'
      intro hv
      rw [validDays_concat, validDays_concat, if_pos hv, hs.days, hs.recentDays, card_days_eq_iff hs.daysSubset]
    have hstep : h.step (.call c) = { h with
        last := some o.timestamp
        days := h.days ++ if o.valid then [o.day] else []
        recentDays := h.recentDays ++ if o.valid then [o.day] else [] } := by
      cases hv : o.valid <;> simp [c, CampaignHistory.step, ← hlast, ho, hv]
    have hdays : ∀ days : List (List Char), (days ++ if o.valid then [o.day] else []).toFinset =
        days.toFinset ∪ if o.valid then {o.day} else ∅ := by
      intro days
      cases o.valid <;> simp
    rw [hperform, hperform, hstep]
    refine ⟨rfl, (observe_eq_iff r o isDecision isTrade _ _).trans hcount.symm, fun hremembers => ?_⟩
    refine ⟨(observe_eq_iff r o isDecision isTrade _ _).mpr (hcount.mp hremembers), rfl, ?_, ?_, hs.decisions,
      hs.recentDecisions, ?_, hs.decisionsSubset⟩
    · rw [validDays_concat, hdays, hs.days]
    · rw [validDays_concat, hdays, hs.recentDays]
    · exact List.append_subset.mpr ⟨fun d hd => List.mem_append_left _ (hs.daysSubset hd), fun d hd => List.mem_append_right _ hd⟩

/-- The operations that neither count days nor look up a decision. -/
def CampaignCall.OnFields : CampaignCall → Prop
  | .recordObservation _ _ _ => False
  | .recordDecision _ => False
  | _ => True

lemma lastObservationTime_updateElapsedDays (r : CampaignRecord) (now : ℚ) :
    (r.updateElapsedDays now).2.lastObservationTime = r.lastObservationTime := by
  rw [CampaignRecord.updateElapsedDays]
  cases r.startTime <;> rfl

/-- Those operations read and write only what the dictionary holds. -/
lemma perform_onFields {c : CampaignCall} (hc : c.OnFields) (r : CampaignRecord) :
    ∃ ret r', r'.lastObservationTime = r.lastObservationTime ∧ ∀ observations decisions,
      ShadowCampaignManager.perform ⟨r, observations, decisions⟩ c = (ret, ⟨r', observations, decisions⟩) := by
  cases c with
  | recordObservation => exact hc.elim
  | recordDecision => exact hc.elim
  | start now =>
    refine ⟨_, r.start now, ?_, fun _ _ => rfl⟩
    rw [CampaignRecord.start]
    split <;> rfl
  | pause =>
    refine ⟨_, r.pause, ?_, fun _ _ => rfl⟩
    rw [CampaignRecord.pause]
    split <;> rfl
  | resume =>
    refine ⟨_, r.resume, ?_, fun _ _ => rfl⟩
    rw [CampaignRecord.resume]
    split <;> rfl
  | recordDowntime hours => exact ⟨_, r.recordDowntime hours, rfl, fun _ _ => rfl⟩
  | updateElapsedDays now =>
    exact ⟨.days (r.updateElapsedDays now).1, (r.updateElapsedDays now).2, lastObservationTime_updateElapsedDays r now, fun _ _ => rfl⟩
  | maybeComplete now minElapsedDays minValidObservationDays =>
    refine ⟨.status (r.maybeComplete now minElapsedDays minValidObservationDays).1,
      (r.maybeComplete now minElapsedDays minValidObservationDays).2, ?_, fun _ _ => rfl⟩
    rw [CampaignRecord.maybeComplete, ← lastObservationTime_updateElapsedDays r now]
    split <;> rfl

/-- Both managers return and report the same exactly when nothing is asked that one forgot. -/
lemma SideBySide.call (hs : SideBySide m m' h) (c : CampaignCall) :
    (((m.perform c).1, (m.perform c).2.toDict) = ((m'.perform c).1, (m'.perform c).2.toDict) ↔ h.Remembers c) ∧
      (h.Remembers c → SideBySide (m.perform c).2 (m'.perform c).2 (h.step (.call c))) := by
  by_cases hc : c.OnFields
  · obtain ⟨r, observations, decisions⟩ := m
    obtain ⟨r', observations', decisions'⟩ := m'
    obtain rfl : r = r' := hs.same
    obtain ⟨ret, r', hlast, hperform⟩ := perform_onFields hc r
    have hremembers : h.Remembers c ∧ h.step (.call c) = h := by
      cases c with
      | recordObservation => exact hc.elim
      | recordDecision => exact hc.elim
      | _ => exact ⟨trivial, rfl⟩
    rw [hperform, hperform, hremembers.2]
    refine ⟨iff_of_true rfl hremembers.1, fun _ => { hs with same := rfl, last := hlast.trans hs.last }⟩
  · cases c with
    | recordObservation o isDecision isTrade =>
      obtain ⟨hret, hdict, hstep⟩ := hs.recordObservation o isDecision isTrade
      rw [Prod.mk.injEq, hdict]
      exact ⟨and_iff_right hret, hstep⟩
    | recordDecision id =>
      obtain ⟨hret, hstep⟩ := hs.recordDecision id
      refine ⟨?_, fun _ => hstep⟩
      rw [Prod.mk.injEq]
      change CampaignReturn.accepted (m.recordDecision id).1 = .accepted (m'.recordDecision id).1 ∧
        (m.recordDecision id).2.toDict = (m'.recordDecision id).2.toDict ↔ _
      rw [CampaignReturn.accepted.injEq, hret]
      exact and_iff_left hstep.same
    | _ => exact absurd trivial hc

end Steps

section Runs

variable (campaignId createdAt : String)

lemma campaignRun_concat (events : List CampaignEvent) (e : CampaignEvent) :
    campaignRun campaignId createdAt (events ++ [e]) = (campaignRun campaignId createdAt events).step e := by
  rw [campaignRun, List.foldl_append]
  rfl

lemma campaignHistory_concat (events : List CampaignEvent) (e : CampaignEvent) :
    campaignHistory (events ++ [e]) = (campaignHistory events).step e := by
  rw [campaignHistory, List.foldl_append]
  rfl

/-- A place in a longer list is a place in the list or its last. -/
lemma concat_eq_split {α : Type} {l before after : List α} {e x : α} :
    l ++ [e] = before ++ x :: after ↔
      (∃ after', after = after' ++ [e] ∧ l = before ++ x :: after') ∨ (after = [] ∧ before = l ∧ x = e) := by
  constructor
  · intro h
    rcases List.eq_nil_or_concat after with rfl | ⟨after', y, rfl⟩
    · obtain ⟨rfl, hx⟩ := List.append_inj' h rfl
      exact .inr ⟨rfl, rfl, (List.cons.inj hx).1.symm⟩
    · rw [List.concat_eq_append, ← List.cons_append, ← List.append_assoc] at h
      obtain ⟨hl, hy⟩ := List.append_inj' h rfl
      obtain rfl := (List.cons.inj hy).1
      exact .inl ⟨after', by rw [List.concat_eq_append], hl⟩
  · rintro (⟨after', rfl, rfl⟩ | ⟨rfl, rfl, rfl⟩)
    · simp
    · rfl

lemma nothingForgotten_concat (events : List CampaignEvent) (e : CampaignEvent) :
    NothingForgotten (events ++ [e]) ↔
      NothingForgotten events ∧ ∀ c, e = .call c → (campaignHistory events).Remembers c := by
  constructor
  · intro h
    refine ⟨fun before c after hsplit => h before c (after ++ [e]) ?_, fun c hc => h events c [] (by rw [hc])⟩
    rw [hsplit]
    simp
  · rintro ⟨h, he⟩ before c after hsplit
    rcases concat_eq_split.mp hsplit with ⟨after', -, hl⟩ | ⟨-, rfl, hc⟩
    · exact h before c after' hl
    · exact he c hc.symm

/-- The two runs agree as long as nothing is forgotten, and no longer. -/
lemma survives_and_sideBySide (events : List CampaignEvent) :
    (SurvivesRestarts campaignId createdAt events ↔ NothingForgotten events) ∧
      (NothingForgotten events →
        SideBySide (campaignRun campaignId createdAt (events.filter CampaignEvent.isCall)).manager
          (campaignRun campaignId createdAt events).manager (campaignHistory events)) := by
  induction events using List.reverseRecOn with
  | nil =>
    refine ⟨iff_of_true rfl ?_, fun _ => ?_⟩
    · intro before c after h
      simp at h
    · exact ⟨rfl, rfl, rfl, rfl, fun _ => Iff.rfl, fun _ => Iff.rfl, List.nil_subset _, List.nil_subset _⟩
  | append_singleton events e ih =>
    obtain ⟨hiff, hside⟩ := ih
    unfold SurvivesRestarts at hiff ⊢
    rw [nothingForgotten_concat, campaignHistory_concat, List.filter_append, campaignRun_concat]
    cases e with
    | restart =>
      rw [List.filter_cons_of_neg (by decide), List.filter_nil, List.append_nil]
      refine ⟨hiff.trans (and_iff_left fun c hc => by cases hc).symm, fun h => (hside h.1).restart⟩
    | call c =>
      rw [List.filter_cons_of_pos rfl, List.filter_nil, campaignRun_concat]
      have hremembers : (∀ c', CampaignEvent.call c = .call c' → (campaignHistory events).Remembers c') ↔
          (campaignHistory events).Remembers c :=
        ⟨fun h => h c rfl, fun h c' hc' => CampaignEvent.call.inj hc' ▸ h⟩
      rw [hremembers]
      refine ⟨?_, fun h => ((hside h.1).call c).2 h.2⟩
      constructor
      · intro h
        obtain ⟨hlog, hentry⟩ := List.append_inj' h rfl
        have hnothing := hiff.mp hlog
        exact ⟨hnothing, ((hside hnothing).call c).1.mp (List.cons.inj hentry).1.symm⟩
      · rintro ⟨hnothing, hc⟩
        have hentry := ((hside hnothing).call c).1.mpr hc
        exact (congrArg₂ (fun log entry => log ++ [entry]) (hiff.mpr hnothing) hentry.symm)

/-- The restarts of a campaign cannot be seen exactly when nothing is asked that they made it
forget. -/
theorem campaign_survives_iff (events : List CampaignEvent) :
    SurvivesRestarts campaignId createdAt events ↔ NothingForgotten events :=
  (survives_and_sideBySide campaignId createdAt events).1

end Runs

/-- A decision, a restart, and the same decision. -/
theorem decision_recorded_twice : ¬∀ campaignId createdAt events, SurvivesRestarts campaignId createdAt events := by
  intro h
  have hrun := h "campaign_v1" "2026-08-01T00:00:00+00:00"
    [.call (.recordDecision "d1"), .restart, .call (.recordDecision "d1")]
  revert hrun
  unfold SurvivesRestarts
  decide

end CryptoTrader
