import CryptoTrader.Factors.Snapshot
import CryptoTrader.Lib.Lines

/-!
# Factor profiles

`factors/profiles.py`: the readiness of a profile, read from a snapshot by the assessment and by the
gate for entries. The two agree on every snapshot (`gate_agrees`). For the snapshot of a capture the
verdict is told from the candles and the market data (`captured_readiness`), and the assessment reads
back from the warnings the state that each calculation had (`captured_status`).
-/

namespace CryptoTrader

open KeyedTable

namespace FactorCapture

def unusableStates : List String :=
  ["MISSING_DATA", "INSUFFICIENT_HISTORY", "STALE_INPUT", "CALCULATION_FAILED", "DISABLED"]

inductive Readiness
  | ready | degraded | blocked
  deriving DecidableEq, Repr

/-- What `__post_init__` of a profile checks. -/
def ProfileLists (required optional : List String) : Prop :=
  (∀ f ∈ required, f ∉ optional) ∧ required.Nodup ∧ optional.Nodup

instance (required optional : List String) : Decidable (ProfileLists required optional) :=
  inferInstanceAs (Decidable (_ ∧ _))

structure FactorProfile where
  name : String
  requiredFactors : List String
  optionalFactors : List String
  lists : ProfileLists requiredFactors optionalFactors

/-! ### The canonical profiles -/

def canonicalProfiles : List FactorProfile :=
  [⟨"TREND", ["trend", "momentum"], ["breakout", "mean_reversion"], by decide⟩,
    ⟨"MOMENTUM", ["return", "momentum"], ["volume_change", "volume_anomaly"], by decide⟩,
    ⟨"MEAN_REVERSION", ["mean_reversion"], ["realized_volatility", "volatility_regime"], by decide⟩,
    ⟨"DERIVATIVES", ["funding_rate", "open_interest"], ["funding_change", "oi_divergence", "liquidation_pressure"],
      by decide⟩,
    ⟨"MICROSTRUCTURE", ["orderbook_imbalance", "buy_sell_imbalance", "cvd", "aggressive_trading_ratio"],
      ["volume_divergence", "volume_anomaly"], by decide⟩]

def fullRequired : List String :=
  firsts id (canonicalProfiles.flatMap FactorProfile.requiredFactors)

def canonicalOptionalUnion : List String :=
  firsts id ((canonicalProfiles.flatMap FactorProfile.optionalFactors).filter (fun f => f ∉ fullRequired))

def fullOptional : List String :=
  canonicalOptionalUnion ++ expectedFactorIds.filter (fun f => f ∉ fullRequired ∧ f ∉ canonicalOptionalUnion)

lemma full_lists : ProfileLists fullRequired fullOptional := by
  decide +kernel

def fullProfile : FactorProfile :=
  ⟨"FULL", fullRequired, fullOptional, full_lists⟩

-- `upper` and `repr` are `str.upper` and the `repr` of a text
def resolveProfile (upper repr : String → String) (name : String) : Except String FactorProfile :=
  match (canonicalProfiles ++ [fullProfile]).find? (fun p => p.name = upper name) with
  | some profile => .ok profile
  | none => .error s!"unknown canonical factor profile: {repr name}"

/-! ### The assessment -/

structure FactorProfileAssessment where
  profileName : String
  readiness : Readiness
  blockedBy : List String
  degradedBy : List String
  missingStatuses : List String
  deriving DecidableEq, Repr

/-- `_state_of`: the status of a factor, if it is one of the states. -/
def stateOf (statuses : Dict String String) (f : String) : Option String :=
  (Dict.get f statuses).filter (fun state => isUsable state || state ∈ unusableStates)

/-- The factors of a loop of `assess_profile` that are not usable. -/
def unusableFactors (statuses : Dict String String) (factors : List String) : List String :=
  factors.filter (fun f => !(stateOf statuses f).any isUsable)

/-- The factors of a loop of `assess_profile` without a status. -/
def withoutStatus (statuses : Dict String String) (factors : List String) : List String :=
  factors.filter (fun f => (stateOf statuses f).isNone && (Dict.get f statuses).isNone)

def assessProfile (profile : FactorProfile) (statuses : Dict String String) : FactorProfileAssessment :=
  let blocked := unusableFactors statuses profile.requiredFactors
  let degraded := unusableFactors statuses profile.optionalFactors
  { profileName := profile.name
    readiness := if blocked ≠ [] then .blocked else if degraded ≠ [] then .degraded else .ready
    blockedBy := blocked
    degradedBy := degraded
    missingStatuses := withoutStatus statuses profile.requiredFactors ++ withoutStatus statuses profile.optionalFactors }

/-- What follows the factor in a warning about it, up to the next colon. -/
def warnedState (factorId record : String) : String :=
  String.ofList ((record.toList.drop (factorId ++ ":").toList.length).takeWhile (· ≠ ':'))

/-- `_state_from_warnings`. -/
def stateFromWarnings (factorId : String) : List String → String
  | [] => "INSUFFICIENT_HISTORY"
  | record :: warnings =>
    if (factorId ++ ":").toList.isPrefixOf record.toList then
      if warnedState factorId record ∈ unusableStates then warnedState factorId record else "CALCULATION_FAILED"
    else stateFromWarnings factorId warnings

/-- `{entry.factor_name: entry.status for entry in snapshot.factors}`. -/
def entryStatuses (entries : List FactorSnapshotEntry) : Dict String String :=
  entries.foldl (fun d e => Dict.alter e.factorName (fun _ => e.status) d) []

/-- The statuses of a snapshot, with those of its failed factors where there is none. -/
def snapshotStatuses (snapshot : FactorSnapshotContract) : Dict String String :=
  snapshot.failedFactors.foldl
    (fun d f => Dict.alter f (fun o => o.getD (stateFromWarnings f snapshot.calculationWarnings)) d)
    (entryStatuses snapshot.factors)

def assessProfileFromSnapshot (upper repr : String → String) (snapshot : FactorSnapshotContract) (profileName : String) :
    Except String FactorProfileAssessment :=
  (resolveProfile upper repr profileName).map (fun profile => assessProfile profile (snapshotStatuses snapshot))

/-! ### The gate -/

/-- The factor has a status in the snapshot that the gate takes. -/
def entryUsable (snapshot : FactorSnapshotContract) (f : String) : Bool :=
  isUsable ((Dict.get f (entryStatuses snapshot.factors)).getD "MISSING_DATA")

namespace FactorProfileGate

def evaluate (profile : FactorProfile) (snapshot : FactorSnapshotContract) : Readiness :=
  if profile.requiredFactors.any (fun f => !entryUsable snapshot f) then .blocked
  else if profile.optionalFactors.any (fun f => !entryUsable snapshot f) then .degraded
  else .ready

def allowsEntry (profile : FactorProfile) (snapshot : FactorSnapshotContract) : Bool :=
  evaluate profile snapshot ≠ .blocked

variable {profile : FactorProfile} {snapshot : FactorSnapshotContract}

lemma allowsEntry_iff : allowsEntry profile snapshot = true ↔
    ∀ f ∈ profile.requiredFactors, entryUsable snapshot f = true := by
  unfold allowsEntry evaluate
  split_ifs with hr ho
  · obtain ⟨f, hf, hu⟩ := List.any_eq_true.mp hr
    refine ⟨by simp, fun hall => ?_⟩
    simp [hall f hf] at hu
  · simpa using hr
  · simpa using hr

lemma ready_iff : evaluate profile snapshot = .ready ↔
    ∀ f ∈ profile.requiredFactors ++ profile.optionalFactors, entryUsable snapshot f = true := by
  rw [List.forall_mem_append, ← allowsEntry_iff, allowsEntry, evaluate]
  split_ifs with hr ho
  · simp
  · obtain ⟨f, hf, hu⟩ := List.any_eq_true.mp ho
    simp only [false_iff, not_and]
    intro _ hall
    simp [hall f hf] at hu
  · simpa using ho

end FactorProfileGate

/-! ### The assessment and the gate agree -/

section Agreement

variable (snapshot : FactorSnapshotContract)

lemma stateFromWarnings_unusable (f : String) (warnings : List String) : stateFromWarnings f warnings ∈ unusableStates := by
  induction warnings with
  | nil => exact List.mem_of_elem_eq_true rfl
  | cons record warnings ih =>
    unfold stateFromWarnings
    split_ifs with hp hs
    · exact hs
    · exact List.mem_of_elem_eq_true rfl
    · exact ih

lemma isUsable_of_unusable {state : String} (h : state ∈ unusableStates) : isUsable state = false := by
  simp only [unusableStates, List.mem_cons, List.not_mem_nil, or_false] at h
  rcases h with rfl | rfl | rfl | rfl | rfl <;> decide

/-- A status stays as it is, and a failed factor without one gets the state of its warning. -/
lemma get_snapshotStatuses (f : String) : Dict.get f (snapshotStatuses snapshot) =
    (Dict.get f (entryStatuses snapshot.factors)).or
      (if f ∈ snapshot.failedFactors then some (stateFromWarnings f snapshot.calculationWarnings) else none) := by
  have hkeep (l : List String) (hl : ∀ g ∈ l, g = f) (o : Option String) :
      l.foldl (fun o g => some (o.getD (stateFromWarnings g snapshot.calculationWarnings))) o =
        o.or (if l = [] then none else some (stateFromWarnings f snapshot.calculationWarnings)) := by
    induction l generalizing o with
    | nil => simp
    | cons g l ih =>
      rw [List.foldl_cons, ih (fun x hx => hl x (List.mem_cons_of_mem _ hx)), hl g List.mem_cons_self]
      cases o <;> simp
  refine (Dict.get_foldl_alter id _ snapshot.failedFactors f _).trans ?_
  rw [hkeep _ (fun g hg => by simpa using (List.mem_filter.mp hg).2)]
  congr 1
  by_cases hf : f ∈ snapshot.failedFactors
  · rw [if_neg (List.ne_nil_of_mem (List.mem_filter.mpr ⟨hf, by simp⟩)), if_pos hf]
  · rw [if_pos (List.filter_eq_nil_iff.mpr (fun g hg => by rintro hgf; exact hf (of_decide_eq_true hgf ▸ hg))), if_neg hf]

lemma usable_snapshotStatuses (f : String) :
    (stateOf (snapshotStatuses snapshot) f).any isUsable = entryUsable snapshot f := by
  rw [stateOf, get_snapshotStatuses, entryUsable]
  cases Dict.get f (entryStatuses snapshot.factors) with
  | some state =>
    by_cases hu : isUsable state = true
    · simp [hu]
    · by_cases hs : state ∈ unusableStates
      · simp [Option.filter, hu, hs]
      · simp [Option.filter, hu, hs]
  | none =>
    have hmissing : isUsable "MISSING_DATA" = false := by decide
    by_cases hf : f ∈ snapshot.failedFactors
    · have hstate := stateFromWarnings_unusable f snapshot.calculationWarnings
      simp [hf, hstate, isUsable_of_unusable hstate, hmissing]
    · simp [hf, hmissing]

/-- The assessment of a snapshot and the gate tell the same readiness. -/
lemma gate_agrees (profile : FactorProfile) :
    (assessProfile profile (snapshotStatuses snapshot)).readiness = FactorProfileGate.evaluate profile snapshot := by
  have hempty (factors : List String) : unusableFactors (snapshotStatuses snapshot) factors ≠ [] ↔
      factors.any (fun f => !entryUsable snapshot f) = true := by
    simp only [unusableFactors, usable_snapshotStatuses, ne_eq, List.filter_eq_nil_iff, List.any_eq_true]
    push Not
    rfl
  simp only [assessProfile, hempty, FactorProfileGate.evaluate]

end Agreement


/-! ### The full profile -/

section Full

lemma mem_fullRequired {f : String} : f ∈ fullRequired ↔ ∃ p ∈ canonicalProfiles, f ∈ p.requiredFactors := by
  rw [fullRequired, ← List.mem_flatMap]
  constructor
  · exact mem_firsts
  · intro hf
    have hmap : f ∈ fullRequired.map id := mem_map_firsts.mpr (by simpa using hf)
    rwa [List.map_id] at hmap

/-- The full profile has every expected factor, and no other. -/
lemma mem_full {f : String} : f ∈ fullRequired ++ fullOptional ↔ f ∈ expectedFactorIds := by
  have hexpected : ∀ f ∈ fullRequired ++ fullOptional, f ∈ expectedFactorIds := by
    decide +kernel
  refine ⟨hexpected f, fun hf => ?_⟩
  by_cases hr : f ∈ fullRequired
  · exact List.mem_append_left _ hr
  · refine List.mem_append_right _ ?_
    by_cases ho : f ∈ canonicalOptionalUnion
    · exact List.mem_append_left _ ho
    · exact List.mem_append_right _ (List.mem_filter.mpr ⟨hf, by simp [hr, ho]⟩)

/-- On every snapshot the assessment of a canonical profile and the gate agree; the full profile allows an entry if and
only if all canonical profiles do, and is ready if and only if every expected factor is usable. -/
theorem profile_verdicts (upper repr : String → String) (snapshot : FactorSnapshotContract) :
    (∀ name profile, resolveProfile upper repr name = .ok profile →
      ∃ a, assessProfileFromSnapshot upper repr snapshot name = .ok a ∧
        a.readiness = FactorProfileGate.evaluate profile snapshot) ∧
    (FactorProfileGate.allowsEntry fullProfile snapshot = true ↔
      ∀ p ∈ canonicalProfiles, FactorProfileGate.allowsEntry p snapshot = true) ∧
    (FactorProfileGate.evaluate fullProfile snapshot = .ready ↔
      ∀ f ∈ expectedFactorIds, entryUsable snapshot f = true) := by
  refine ⟨fun name profile hname => ?_, ?_, ?_⟩
  · exact ⟨_, by rw [assessProfileFromSnapshot, hname]; rfl, gate_agrees snapshot profile⟩
  · simp only [FactorProfileGate.allowsEntry_iff]
    constructor
    · intro h p hp f hf
      exact h f (mem_fullRequired.mpr ⟨p, hp, hf⟩)
    · intro h f hf
      obtain ⟨p, hp, hf⟩ := mem_fullRequired.mp hf
      exact h p hp f hf
  · rw [FactorProfileGate.ready_iff]
    exact forall_congr' (fun f => by rw [fullProfile, mem_full])

end Full

/-! ### The snapshot of a capture -/

section Captured

variable (sqrt : ℚ → ℚ) (set : FactorSetVersion) (newId now symbol timeframe : String)
  (candles : List Fields) (marketData : Option Fields)

/-- There are candles, and the calculation of the factor goes through. -/
def Computes (f : String) : Prop :=
  candles ≠ [] ∧ f ∈ expectedFactorIds ∧ GoesThrough candles (marketData.getD []) f

/-- The state of a factor after a capture: that of its result, or why it has none. -/
def capturedState (results : List FactorResult) (errors : Dict String String) (f : String) : String :=
  match row FactorResult.factorName f results with
  | some r => (reportFromLegacyResult r).state
  | none => if f ∈ errors.map Prod.fst then "CALCULATION_FAILED" else "INSUFFICIENT_HISTORY"

lemma entry_status {r : FactorResult} (h : r.usable = true) : (set.entry r).status = (reportFromLegacyResult r).state := by
  have hstate : (reportFromLegacyResult r).state ∈ ["OK", "VALID_ZERO"] := by
    simpa [FactorResult.usable, isUsable] using h
  simp only [List.mem_cons, List.not_mem_nil, or_false] at hstate
  rcases hstate with hok | hzero
  · simp [FactorSetVersion.entry, hok]
  · simp [FactorSetVersion.entry, hzero]

lemma nodup_results (md : Fields) : ((capture sqrt symbol timeframe candles md).1.map FactorResult.factorName).Nodup :=
  (names_sublist sqrt symbol timeframe candles md).nodup nodup_expected

/-- The statuses of the entries are the states of the usable results. -/
lemma get_entries {results : List FactorResult} (hn : (results.map FactorResult.factorName).Nodup) (f : String) :
    Dict.get f (entryStatuses ((results.filter FactorResult.usable).map set.entry)) =
      (row FactorResult.factorName f (results.filter FactorResult.usable)).map (fun r => (reportFromLegacyResult r).state) := by
  have hn := nodup_filter hn FactorResult.usable
  have hnames : (fun e => decide (FactorSnapshotEntry.factorName e = f)) ∘ set.entry =
      fun r => decide (FactorResult.factorName r = f) := rfl
  rw [entryStatuses, Dict.get_foldl_alter, List.filter_map, hnames, List.foldl_map]
  cases hrow : row FactorResult.factorName f (results.filter FactorResult.usable) with
  | none =>
    have hnone : (results.filter FactorResult.usable).filter (fun r => r.factorName = f) = [] := by
      rw [List.filter_eq_nil_iff]
      intro r hr hf
      exact row_eq_none_iff.mp hrow (List.mem_map.mpr ⟨r, hr, of_decide_eq_true hf⟩)
    rw [hnone]
    rfl
  | some r =>
    obtain ⟨hr, rfl⟩ := row_some hrow
    rw [filter_key_of_mem hn hr]
    simp [entry_status set (List.mem_filter.mp hr).2]

/-- A factor is usable in the snapshot of a capture if and only if its calculation goes through. -/
lemma captured_usable (f : String) :
    entryUsable (calculateSnapshot sqrt set newId now symbol timeframe candles marketData) f = true ↔
      Computes candles marketData f := by
  unfold Computes
  by_cases hc : candles = []
  · subst hc
    have hmissing : isUsable "MISSING_DATA" = false := by decide
    simp [entryUsable, calculateSnapshot, entryStatuses, Dict.get_nil, hmissing]
  · have hn := nodup_results sqrt symbol timeframe candles (marketData.getD [])
    rw [← publishes_iff sqrt symbol timeframe, entryUsable]
    simp only [calculateSnapshot, if_neg hc, get_entries set hn]
    cases hrow : row FactorResult.factorName f
        ((capture sqrt symbol timeframe candles (marketData.getD [])).1.filter FactorResult.usable) with
    | none =>
      have hmissing : isUsable "MISSING_DATA" = false := by decide
      refine iff_of_false (by simp [hmissing]) ?_
      rintro ⟨-, r, hr, hname, hu⟩
      exact row_eq_none_iff.mp hrow (List.mem_map.mpr ⟨r, List.mem_filter.mpr ⟨hr, hu⟩, hname⟩)
    | some r =>
      obtain ⟨hr, hname⟩ := row_some hrow
      obtain ⟨hr, hu⟩ := List.mem_filter.mp hr
      exact iff_of_true hu ⟨hc, r, hr, hname, hu⟩

/-- The text of a warning: the factor, its state, and what may follow. -/
def warningText (w : String × String × String) : String :=
  w.1 ++ ":" ++ w.2.1 ++ w.2.2

/-- A warning about an expected factor that is not usable, with nothing or a colon after the state. -/
structure Legible (w : String × String × String) : Prop where
  factor : w.1 ∈ expectedFactorIds
  state : w.2.1 ∈ unusableStates
  tail : w.2.2.toList.takeWhile (· ≠ ':') = []

lemma no_colon {f : String} (hf : f ∈ expectedFactorIds) : ':' ∉ f.toList := by
  revert f
  decide +kernel

lemma no_colon_state {state : String} (h : state ∈ unusableStates) : ':' ∉ state.toList := by
  revert state
  decide +kernel

lemma toList_warningText (w : String × String × String) :
    (warningText w).toList = w.1.toList ++ ':' :: (w.2.1.toList ++ w.2.2.toList) := by
  rw [warningText, String.toList_append, String.toList_append, String.toList_append]
  simp

lemma toList_tag (f : String) : (f ++ ":").toList = f.toList ++ [':'] := by
  rw [String.toList_append]
  rfl

lemma warnedState_text {w : String × String × String} (h : Legible w) : warnedState w.1 (warningText w) = w.2.1 := by
  have hdrop : (warningText w).toList.drop (w.1 ++ ":").toList.length = w.2.1.toList ++ w.2.2.toList := by
    have hsplit : w.1.toList ++ ':' :: (w.2.1.toList ++ w.2.2.toList) =
        (w.1.toList ++ [':']) ++ (w.2.1.toList ++ w.2.2.toList) := by simp
    rw [toList_tag, toList_warningText, hsplit, List.drop_left]
  have hall : ∀ c ∈ w.2.1.toList, decide (c ≠ ':') = true :=
    fun c hc => decide_eq_true (fun heq => no_colon_state h.state (heq ▸ hc))
  rw [warnedState, hdrop, List.takeWhile_append_of_pos hall, h.tail, List.append_nil, String.ofList_toList]

lemma isPrefixOf_text {f : String} (hf : ':' ∉ f.toList) {w : String × String × String} (h : Legible w) :
    (f ++ ":").toList.isPrefixOf (warningText w).toList = true ↔ w.1 = f := by
  rw [List.isPrefixOf_iff_prefix, toList_warningText, toList_tag, Lines.tag_prefix_iff hf (no_colon h.factor),
    String.toList_inj, eq_comm]

/-- What is read from legible warnings is the state of the first one about the factor. -/
lemma stateFromWarnings_texts {f : String} (hf : ':' ∉ f.toList) {ws : List (String × String × String)}
    (h : ∀ w ∈ ws, Legible w) : stateFromWarnings f (ws.map warningText) =
      ((row Prod.fst f ws).map (fun w => w.2.1)).getD "INSUFFICIENT_HISTORY" := by
  induction ws with
  | nil => rfl
  | cons w ws ih =>
    have hw := h w List.mem_cons_self
    rw [List.map_cons, stateFromWarnings]
    simp only [isPrefixOf_text hf hw]
    by_cases hname : w.1 = f
    · subst hname
      rw [if_pos rfl, warnedState_text hw, if_pos hw.state]
      simp [row]
    · rw [if_neg hname, ih (fun w hw => h w (List.mem_cons_of_mem _ hw))]
      simp [row, hname]

/-- A calculation that raises is recorded for expected factors only. -/
lemma errors_expected {md : Fields} {f : String} (hf : f ∈ (capture sqrt symbol timeframe candles md).2.map Prod.fst) :
    f ∈ expectedFactorIds := by
  have hstep (errors : Dict String String) (step : String × Capture Unit) (h : ∀ e ∈ errors, e.1 ∈ expectedFactorIds) :
      ∀ e ∈ recordError errors step, e.1 ∈ expectedFactorIds := by
    unfold recordError
    split
    · exact h
    · intro e he
      rcases Dict.mem_foldl_alter id _ he with hgroup | hbefore
      · rw [List.map_id] at hgroup
        cases hget : Dict.get step.1 factorGroups with
        | none => simp [hget] at hgroup
        | some factors =>
          rw [hget, Option.getD_some] at hgroup
          exact List.mem_flatMap.mpr ⟨_, Dict.mem_of_get hget, hgroup⟩
      · exact h e hbefore
  have hfold (l : List (String × Capture Unit)) (errors : Dict String String)
      (h : ∀ e ∈ errors, e.1 ∈ expectedFactorIds) : ∀ e ∈ l.foldl recordError errors, e.1 ∈ expectedFactorIds := by
    induction l generalizing errors with
    | nil => exact h
    | cons step l ih => exact ih _ (hstep errors step h)
  obtain ⟨e, he, rfl⟩ := List.mem_map.mp hf
  exact hfold _ [] (fun e he => absurd he List.not_mem_nil) e he

lemma unusable_state {r : FactorResult} (h : r.usable = false) : (reportFromLegacyResult r).state = "MISSING_DATA" := by
  have hok (detail : String) : isUsable (⟨r.factorName, "OK", detail⟩ : FactorHealthAssessment).state = true := rfl
  have hzero (detail : String) : isUsable (⟨r.factorName, "VALID_ZERO", detail⟩ : FactorHealthAssessment).state = true := rfl
  unfold FactorResult.usable at h
  unfold reportFromLegacyResult at h ⊢
  split_ifs at h ⊢
  · rfl
  · rfl
  · rfl
  · exact absurd h (by rw [hzero]; decide)
  · exact absurd h (by rw [hok]; decide)

/-- The warnings of a capture, by their parts. -/
def captureWarnings (results : List FactorResult) (errors : Dict String String) : List (String × String × String) :=
  (results.filter (fun r => !r.usable)).map (fun r =>
      (r.factorName, (reportFromLegacyResult r).state,
        if (reportFromLegacyResult r).detail = "" then "" else ":" ++ (reportFromLegacyResult r).detail)) ++
    ((unexplained (results.map FactorResult.factorName) errors).map (fun f => (f, "INSUFFICIENT_HISTORY", "")) ++
      (unproduced (results.map FactorResult.factorName) errors).map (fun e => (e.1, "CALCULATION_FAILED", ":" ++ e.2)))

lemma snapshot_warnings (hc : candles ≠ []) :
    let snapshot := calculateSnapshot sqrt set newId now symbol timeframe candles marketData
    let captured := capture sqrt symbol timeframe candles (marketData.getD [])
    snapshot.calculationWarnings = (captureWarnings captured.1 captured.2).map warningText ∧
      snapshot.failedFactors = (captureWarnings captured.1 captured.2).map Prod.fst := by
  have hfailed (f detail : String) : f ++ ":CALCULATION_FAILED:" ++ detail =
      f ++ ":" ++ "CALCULATION_FAILED" ++ (":" ++ detail) := by
    simp only [String.append_assoc]
    rfl
  have hshort (f : String) : f ++ ":INSUFFICIENT_HISTORY" = f ++ ":" ++ "INSUFFICIENT_HISTORY" ++ "" := by
    simp only [String.append_assoc]
    rfl
  simp only [calculateSnapshot, if_neg hc, captureWarnings, List.map_append, List.map_map, List.append_assoc]
  refine ⟨?_, ?_⟩
  · congr 1
    congr 1
    · exact List.map_congr_left (fun f _ => hshort f)
    · exact List.map_congr_left (fun e _ => hfailed e.1 e.2)
  · congr 1
    congr 1
    exact (List.map_id' _).symm

lemma captureWarnings_legible {md : Fields} {w : String × String × String}
    (hw : w ∈ captureWarnings (capture sqrt symbol timeframe candles md).1 (capture sqrt symbol timeframe candles md).2) :
    Legible w := by
  have htail (detail : String) : (":" ++ detail).toList.takeWhile (· ≠ ':') = [] := by
    rw [String.toList_append]
    rfl
  have hdetail (detail : String) : (if detail = "" then "" else ":" ++ detail).toList.takeWhile (· ≠ ':') = [] := by
    split_ifs
    · rfl
    · exact htail detail
  simp only [captureWarnings, List.mem_append, List.mem_map] at hw
  rcases hw with ⟨r, hr, rfl⟩ | ⟨f, hf, rfl⟩ | ⟨e, he, rfl⟩
  · obtain ⟨hr, hu⟩ := List.mem_filter.mp hr
    have hstate := unusable_state (by simpa using hu)
    refine ⟨(names_sublist sqrt symbol timeframe candles md).subset (List.mem_map_of_mem hr), ?_,
      hdetail (reportFromLegacyResult r).detail⟩
    change (reportFromLegacyResult r).state ∈ unusableStates
    rw [hstate]
    exact List.mem_of_elem_eq_true rfl
  · exact ⟨(List.mem_filter.mp hf).1, List.mem_of_elem_eq_true rfl, rfl⟩
  · have hname := errors_expected sqrt symbol timeframe candles (List.mem_map_of_mem (List.mem_filter.mp he).1)
    exact ⟨hname, List.mem_of_elem_eq_true rfl, htail e.2⟩

lemma row_of_map {α β : Type} (key : β → String) (g : α → β) (k : String) (l : List α) :
    row key k (l.map g) = (row (fun a => key (g a)) k l).map g := by
  rw [row, List.find?_map]
  rfl

/-- The warnings have the state of every expected factor that is not usable, and of no other. -/
lemma row_captureWarnings {results : List FactorResult} (errors : Dict String String)
    (hn : (results.map FactorResult.factorName).Nodup) {f : String} (hf : f ∈ expectedFactorIds)
    (hnone : row FactorResult.factorName f (results.filter FactorResult.usable) = none) :
    (row Prod.fst f (captureWarnings results errors)).map (fun w => w.2.1) = some (capturedState results errors f) := by
  rw [captureWarnings, capturedState]
  cases hrow : row FactorResult.factorName f results with
  | some r =>
    obtain ⟨hr, rfl⟩ := row_some hrow
    have hu : r.usable = false := by
      by_contra hu
      exact row_eq_none_iff.mp hnone (List.mem_map_of_mem (List.mem_filter.mpr ⟨hr, by simpa using hu⟩))
    have hfirst : row FactorResult.factorName r.factorName (results.filter (fun r => !r.usable)) = some r :=
      row_of_mem (nodup_filter hn _) (List.mem_filter.mpr ⟨hr, by simp [hu]⟩)
    rw [row_append_of_some (by rw [row_of_map, hfirst]; rfl)]
    rfl
  | none =>
    have hproduced : f ∉ results.map FactorResult.factorName := row_eq_none_iff.mp hrow
    have hfirst : row FactorResult.factorName f (results.filter (fun r => !r.usable)) = none := by
      rw [row_eq_none_iff]
      intro hmem
      obtain ⟨r, hr, hname⟩ := List.mem_map.mp hmem
      exact hproduced (List.mem_map.mpr ⟨r, (List.mem_filter.mp hr).1, hname⟩)
    rw [row_append_of_none (by rw [row_of_map, hfirst]; rfl)]
    by_cases herr : f ∈ errors.map Prod.fst
    · have hshort : row id f (unexplained (results.map FactorResult.factorName) errors) = none := by
        rw [row_eq_none_iff]
        simp [unexplained, herr]
      obtain ⟨e, he⟩ : ∃ e, row Prod.fst f (unproduced (results.map FactorResult.factorName) errors) = some e := by
        rw [row_isSome_iff]
        obtain ⟨e, he, rfl⟩ := List.mem_map.mp herr
        exact List.mem_map_of_mem (List.mem_filter.mpr ⟨he, by simpa using hproduced⟩)
      rw [row_append_of_none (by rw [row_of_map]; exact congrArg _ hshort), row_of_map, he]
      simp [herr]
    · obtain ⟨g, hg⟩ : ∃ g, row id f (unexplained (results.map FactorResult.factorName) errors) = some g := by
        rw [row_isSome_iff, List.map_id]
        exact List.mem_filter.mpr ⟨hf, by simp [hproduced, herr]⟩
      rw [row_append_of_some (by rw [row_of_map]; exact congrArg _ hg)]
      simp [herr]

/-- The assessment of the snapshot of a capture reads back, from the entries and from the texts of the warnings, the state
that the calculation of every expected factor had, and of no other factor. -/
theorem captured_status (f : String) :
    Dict.get f (snapshotStatuses (calculateSnapshot sqrt set newId now symbol timeframe candles marketData)) =
      let captured := capture sqrt symbol timeframe candles (marketData.getD [])
      if candles = [] then if f ∈ set.includedFactors then some "INSUFFICIENT_HISTORY" else none
      else if f ∈ expectedFactorIds then some (capturedState captured.1 captured.2 f)
      else none := by
  extract_lets captured
  rw [get_snapshotStatuses]
  by_cases hc : candles = []
  · have hnone : stateFromWarnings f ["INSUFFICIENT_HISTORY"] = "INSUFFICIENT_HISTORY" := by
      have hno : ¬ (f ++ ":").toList.isPrefixOf "INSUFFICIENT_HISTORY".toList = true := by
        rw [List.isPrefixOf_iff_prefix, toList_tag]
        intro hp
        exact absurd (hp.subset (by simp : ':' ∈ f.toList ++ [':'])) (by decide)
      rw [stateFromWarnings, if_neg hno]
      rfl
    subst hc
    simp [calculateSnapshot, entryStatuses, Dict.get_nil, hnone]
  · obtain ⟨hwarnings, hfailed⟩ := snapshot_warnings sqrt set newId now symbol timeframe candles marketData hc
    have hn := nodup_results sqrt symbol timeframe candles (marketData.getD [])
    have hlegible : ∀ w ∈ captureWarnings captured.1 captured.2, Legible w :=
      fun w hw => captureWarnings_legible sqrt symbol timeframe candles hw
    have hentries : Dict.get f (entryStatuses
        (calculateSnapshot sqrt set newId now symbol timeframe candles marketData).factors) =
          (row FactorResult.factorName f (captured.1.filter FactorResult.usable)).map
            (fun r => (reportFromLegacyResult r).state) := by
      simp only [calculateSnapshot, if_neg hc]
      exact get_entries set hn f
    rw [if_neg hc, hwarnings, hfailed, hentries]
    by_cases hf : f ∈ expectedFactorIds
    · rw [if_pos hf]
      cases hrow : row FactorResult.factorName f (captured.1.filter FactorResult.usable) with
      | some r =>
        obtain ⟨hr, rfl⟩ := row_some hrow
        rw [capturedState, row_of_mem hn (List.mem_filter.mp hr).1]
        rfl
      | none =>
        have hstate := row_captureWarnings captured.2 hn hf hrow
        have hmem : f ∈ (captureWarnings captured.1 captured.2).map Prod.fst := by
          obtain ⟨w, hw, -⟩ := Option.map_eq_some_iff.mp hstate
          exact row_isSome_iff.mp ⟨w, hw⟩
        rw [Option.map_none, Option.none_or, if_pos hmem, stateFromWarnings_texts (no_colon hf) hlegible, hstate]
        rfl
    · have hmem : f ∉ (captureWarnings captured.1 captured.2).map Prod.fst := by
        intro hmem
        obtain ⟨w, hw, rfl⟩ := List.mem_map.mp hmem
        exact hf (hlegible w hw).factor
      have hrow : row FactorResult.factorName f (captured.1.filter FactorResult.usable) = none := by
        rw [row_eq_none_iff]
        intro hmem
        obtain ⟨r, hr, rfl⟩ := List.mem_map.mp hmem
        exact hf ((names_sublist sqrt symbol timeframe candles (marketData.getD [])).subset
          (List.mem_map_of_mem (List.mem_filter.mp hr).1))
      rw [if_neg hf, if_neg hmem, hrow]
      rfl

end Captured

end FactorCapture

end CryptoTrader
