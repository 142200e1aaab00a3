import CryptoTrader.Lib.Json

/-!
# Slow learning

`SlowLearning` collects evidence for candidate parameters, stage by stage, and promotes a
candidate that has passed the last stage. The next stage it expects is found by counting the
evidence that is not a rejection. A repeated or failed validation is therefore forgotten:
the exact sequences that are judged right are in `slow_learning_in_order`.
-/

namespace CryptoTrader

open KeyedTable

inductive SlowStage where
  | backtest | outOfSample | walkForward | shadow | promotion | rejected
  deriving DecidableEq, Repr

def validPromotionOrder : List SlowStage := [.backtest, .outOfSample, .walkForward, .shadow, .promotion]

/-- An entry of the evidence: `stage.value`, or `INVALID_ORDER:` before it. -/
inductive SlowEvidence where
  | stage (stage : SlowStage)
  | invalidOrder (stage : SlowStage)
  deriving DecidableEq, Repr

inductive SlowStatus where
  | proposed | rejected | promoted
  deriving DecidableEq, Repr

structure SlowCandidate where
  id : String
  strategy : String
  parameterJson : Dict String Json
  evidence : List SlowEvidence := []
  status : SlowStatus := .proposed

structure PromotedParameters where
  strategy : String
  parameters : Dict String Json
  evidence : List SlowEvidence

inductive LearningError where
  | keyError (key : String)
  | indexError (message : String)
  | valueError (message : String)
  deriving DecidableEq, Repr

/-- A stage and the `result` that comes with it. -/
structure StageResult where
  stage : SlowStage
  result : Dict String Json

/-- `{**d, **e}`. -/
def mergeDict (d e : Dict String Json) : Dict String Json :=
  e.foldl (fun d p => Dict.alter p.1 (fun _ => p.2) d) d

namespace SlowCandidate

def expectedIndex (c : SlowCandidate) : ℕ :=
  (c.evidence.filter (fun e => e ≠ .stage .rejected)).length

def addEvidence (c : SlowCandidate) (r : StageResult) : Except LearningError SlowCandidate :=
  let stage := r.stage
  if stage = .rejected then .ok { c with status := .rejected, evidence := c.evidence ++ [.stage stage] }
  else if stage ∉ validPromotionOrder then
    .ok { c with status := .rejected, evidence := c.evidence ++ [.stage stage] }
  else
    match validPromotionOrder[c.expectedIndex]? with
    | none => .error (.indexError "list index out of range")
    | some expected =>
      if stage ≠ expected then
        .ok { c with status := .rejected, evidence := c.evidence ++ [.invalidOrder stage] }
      else
        .ok { c with
          evidence := c.evidence ++ [.stage stage]
          parameterJson := mergeDict c.parameterJson r.result
          -- the status of an earlier rejection is written over
          status := if stage = .promotion then .promoted else c.status }

end SlowCandidate

structure SlowLearning where
  candidates : Dict String SlowCandidate := []
  promoted : Dict String PromotedParameters := []

namespace SlowLearning

def propose (s : SlowLearning) (candidateId strategy : String) (parameterJson : Dict String Json) : SlowLearning :=
  { s with candidates := Dict.alter candidateId (fun _ => { id := candidateId, strategy, parameterJson }) s.candidates }

def addEvidence (s : SlowLearning) (candidateId : String) (r : StageResult) :
    Except LearningError (SlowCandidate × SlowLearning) :=
  match Dict.get candidateId s.candidates with
  | none => .error (.keyError candidateId)
  | some candidate =>
    match candidate.addEvidence r with
    | .error e => .error e
    | .ok c => .ok (c, { s with candidates := Dict.alter candidateId (fun _ => c) s.candidates })

def promote (s : SlowLearning) (candidateId strategy : String) :
    Except LearningError (PromotedParameters × SlowLearning) :=
  match Dict.get candidateId s.candidates with
  | none => .error (.keyError candidateId)
  | some candidate =>
    if candidate.status ≠ .promoted then
      .error (.valueError "slow learning candidate not validated for promotion")
    else
      let promoted := ⟨strategy, candidate.parameterJson, candidate.evidence⟩
      .ok (promoted, { s with promoted := Dict.alter candidateId (fun _ => promoted) s.promoted })

/-- The state after some calls of `add_evidence`; a call that raises leaves it. -/
def addAll (s : SlowLearning) (candidateId : String) (calls : List StageResult) : SlowLearning :=
  calls.foldl (fun s r => match s.addEvidence candidateId r with
    | .ok (_, s') => s'
    | .error _ => s) s

end SlowLearning

/-! ### The property -/

/-- Evidence of every stage, in order and with nothing else, is what promotes a candidate. -/
structure EveryStageInOrder (s : SlowLearning) (candidateId : String) (calls : List StageResult) : Prop where
  ordered : ∀ strategy promoted s', (s.addAll candidateId calls).promote candidateId strategy = .ok (promoted, s') →
    promoted.evidence = validPromotionOrder.map .stage
  rejectedStays : ∀ earlier later, calls = earlier ++ later →
    (∃ c, Dict.get candidateId (s.addAll candidateId earlier).candidates = some c ∧ c.status = .rejected) →
      ∀ strategy r, (s.addAll candidateId calls).promote candidateId strategy ≠ .ok r
  accepted : ∀ earlier r later, calls = earlier ++ r :: later →
    ∀ e, (s.addAll candidateId earlier).addEvidence candidateId r ≠ .error e

def workedStages (calls : List StageResult) : List SlowStage :=
  (calls.map StageResult.stage).filter (· ≠ .rejected)

/-- At most five stages that are not rejections, and if the fifth ends the calls as
PROMOTION, they are the five of the order. -/
def JudgedRight (calls : List StageResult) : Prop :=
  (workedStages calls).length ≤ 5 ∧
    ((workedStages calls).length = 5 → (calls.map StageResult.stage).getLast? = some .promotion →
      calls.map StageResult.stage = validPromotionOrder)

/-! ### One candidate -/

namespace SlowCandidate

/-- The candidate after some calls. -/
def addAll (c : SlowCandidate) (calls : List StageResult) : SlowCandidate :=
  calls.foldl (fun c r => match c.addEvidence r with
    | .ok c' => c'
    | .error _ => c) c

lemma mem_order {stage : SlowStage} (h : stage ≠ .rejected) : stage ∈ validPromotionOrder := by
  cases stage with
  | rejected => exact absurd rfl h
  | backtest | outOfSample | walkForward | shadow | promotion => decide

/-- What a call does, by its stage and the number of validation stages before it. -/
lemma addEvidence_cases (c : SlowCandidate) (r : StageResult) :
    (r.stage = .rejected ∧
      c.addEvidence r = .ok { c with status := .rejected, evidence := c.evidence ++ [.stage .rejected] }) ∨
    (r.stage ≠ .rejected ∧ 5 ≤ c.expectedIndex ∧ c.addEvidence r = .error (.indexError "list index out of range")) ∨
    (r.stage ≠ .rejected ∧ validPromotionOrder[c.expectedIndex]? = some r.stage ∧ c.addEvidence r = .ok { c with
      evidence := c.evidence ++ [.stage r.stage]
      parameterJson := mergeDict c.parameterJson r.result
      status := if r.stage = .promotion then .promoted else c.status }) ∨
    (r.stage ≠ .rejected ∧ c.expectedIndex < 5 ∧ validPromotionOrder[c.expectedIndex]? ≠ some r.stage ∧
      c.addEvidence r = .ok { c with status := .rejected, evidence := c.evidence ++ [.invalidOrder r.stage] }) := by
  by_cases hrej : r.stage = .rejected
  · exact .inl ⟨hrej, by rw [addEvidence, if_pos hrej, hrej]⟩
  · have hmem : ¬r.stage ∉ validPromotionOrder := not_not.mpr (mem_order hrej)
    rw [addEvidence, if_neg hrej, if_neg hmem]
    cases hexp : validPromotionOrder[c.expectedIndex]? with
    | none => exact .inr (.inl ⟨hrej, List.getElem?_eq_none_iff.mp hexp, rfl⟩)
    | some expected =>
      have hlt : c.expectedIndex < 5 := (List.getElem?_eq_some_iff.mp hexp).1
      by_cases hne : r.stage = expected
      · exact .inr (.inr (.inl ⟨hrej, by rw [hne], if_neg (not_not.mpr hne)⟩))
      · exact .inr (.inr (.inr ⟨hrej, hlt, fun h => hne (Option.some.inj h).symm, if_pos hne⟩))

lemma expectedIndex_append (c : SlowCandidate) (e : SlowEvidence) (status : SlowStatus) (params : Dict String Json) :
    expectedIndex { c with evidence := c.evidence ++ [e], status := status, parameterJson := params } =
      c.expectedIndex + if e = .stage .rejected then 0 else 1 := by
  unfold expectedIndex
  rw [List.filter_append, List.length_append]
  by_cases he : e = .stage .rejected <;> simp [he]

end SlowCandidate

lemma workedStages_concat (calls : List StageResult) (r : StageResult) :
    workedStages (calls ++ [r]) = workedStages calls ++ if r.stage = .rejected then [] else [r.stage] := by
  unfold workedStages
  by_cases h : r.stage = .rejected <;> simp [h]

section Runs

variable (id strategy : String) (parameterJson : Dict String Json)

/-- A proposed candidate after some calls. -/
def proposedAfter (calls : List StageResult) : SlowCandidate :=
  SlowCandidate.addAll { id, strategy, parameterJson } calls

lemma proposedAfter_concat (calls : List StageResult) (r : StageResult) :
    proposedAfter id strategy parameterJson (calls ++ [r]) =
      match (proposedAfter id strategy parameterJson calls).addEvidence r with
      | .ok c => c
      | .error _ => proposedAfter id strategy parameterJson calls := by
  rw [proposedAfter, SlowCandidate.addAll, List.foldl_append]
  rfl

/-- The expected index counts the validation stages, up to five. -/
lemma expectedIndex_after (calls : List StageResult) :
    (proposedAfter id strategy parameterJson calls).expectedIndex = min (workedStages calls).length 5 := by
  induction calls using List.reverseRecOn with
  | nil => rfl
  | append_singleton calls r ih =>
    rw [proposedAfter_concat, workedStages_concat]
    rcases SlowCandidate.addEvidence_cases (proposedAfter id strategy parameterJson calls) r with
      ⟨hrej, h⟩ | ⟨hrej, hfive, h⟩ | ⟨hrej, hget, h⟩ | ⟨hrej, hlt, -, h⟩
    · simp only [h, SlowCandidate.expectedIndex_append, ih, hrej, if_true, List.append_nil, Nat.add_zero]
    · simp only [h, hrej, if_false, List.length_append, List.length_singleton]
      omega
    · have hlt : (proposedAfter id strategy parameterJson calls).expectedIndex < 5 :=
        (List.getElem?_eq_some_iff.mp hget).1
      simp only [h, SlowCandidate.expectedIndex_append, hrej, if_false, List.length_append, List.length_singleton,
        SlowEvidence.stage.injEq]
      omega
    · simp only [h, SlowCandidate.expectedIndex_append, hrej, if_false, List.length_append, List.length_singleton,
        reduceCtorEq]
      omega

lemma order_getElem {i : ℕ} : validPromotionOrder[i]? = some .promotion ↔ i = 4 := by
  rcases i with _ | _ | _ | _ | _ | i <;> simp [validPromotionOrder]

/-- A candidate that never raised is promoted by a fifth validation stage that is PROMOTION. -/
lemma status_after {calls : List StageResult} (h : (workedStages calls).length ≤ 5) :
    (proposedAfter id strategy parameterJson calls).status = .promoted ↔
      (workedStages calls).length = 5 ∧ (calls.map StageResult.stage).getLast? = some .promotion := by
  induction calls using List.reverseRecOn with
  | nil => simp [proposedAfter, SlowCandidate.addAll]
  | append_singleton calls r ih =>
    have hindex := expectedIndex_after id strategy parameterJson calls
    rw [workedStages_concat, List.length_append] at h ⊢
    rw [proposedAfter_concat, List.map_append, List.map_singleton, List.getLast?_concat, Option.some.injEq]
    have hle := ih (by omega)
    rcases SlowCandidate.addEvidence_cases (proposedAfter id strategy parameterJson calls) r with
      ⟨hrej, hadd⟩ | ⟨hrej, hfive, hadd⟩ | ⟨hrej, hget, hadd⟩ | ⟨hrej, hlt, hget, hadd⟩
    · simp [hadd, hrej]
    · rw [if_neg hrej, List.length_singleton] at h
      omega
    · rw [if_neg hrej, List.length_singleton] at h ⊢
      by_cases hpromotion : r.stage = .promotion
      · rw [hpromotion, order_getElem] at hget
        simp only [hadd, hpromotion, if_true, true_iff, and_true]
        omega
      · have hnot : (proposedAfter id strategy parameterJson calls).status ≠ .promoted := by
          intro hstatus
          have hfive := (hle.mp hstatus).1
          omega
        simp [hadd, hpromotion, hnot]
    · rw [if_neg hrej, List.length_singleton] at h ⊢
      simp only [hadd, reduceCtorEq, false_iff]
      rintro ⟨hfive, hpromotion⟩
      rw [hpromotion] at hget
      exact hget (order_getElem.mpr (by omega))

def SlowEvidence.stageOf : SlowEvidence → SlowStage
  | .stage s => s
  | .invalidOrder s => s

/-- A candidate that never raised has evidence of every call. -/
lemma stages_of_evidence {calls : List StageResult} (h : (workedStages calls).length ≤ 5) :
    (proposedAfter id strategy parameterJson calls).evidence.map SlowEvidence.stageOf = calls.map StageResult.stage := by
  induction calls using List.reverseRecOn with
  | nil => rfl
  | append_singleton calls r ih =>
    have hindex := expectedIndex_after id strategy parameterJson calls
    rw [workedStages_concat, List.length_append] at h
    rw [proposedAfter_concat, List.map_append, List.map_singleton, ← ih (by omega)]
    rcases SlowCandidate.addEvidence_cases (proposedAfter id strategy parameterJson calls) r with
      ⟨hrej, hadd⟩ | ⟨hrej, hfive, hadd⟩ | ⟨hrej, hget, hadd⟩ | ⟨hrej, hlt, hget, hadd⟩
    · simp [hadd, hrej, SlowEvidence.stageOf]
    · rw [if_neg hrej, List.length_singleton] at h
      omega
    · simp [hadd, SlowEvidence.stageOf]
    · simp [hadd, SlowEvidence.stageOf]

/-- Calls in the order are all accepted, and none of them rejects. -/
lemma evidence_of_stages {calls : List StageResult} (h : calls.map StageResult.stage <+: validPromotionOrder) :
    (proposedAfter id strategy parameterJson calls).evidence = (calls.map StageResult.stage).map .stage ∧
      (proposedAfter id strategy parameterJson calls).status ≠ .rejected := by
  induction calls using List.reverseRecOn with
  | nil => exact ⟨rfl, fun h => SlowStatus.noConfusion h⟩
  | append_singleton calls r ih =>
    rw [List.map_append, List.map_singleton] at h ⊢
    have hpre := (List.prefix_append _ _).trans h
    have hmem : ∀ stage ∈ calls.map StageResult.stage ++ [r.stage], stage ≠ .rejected := by
      intro stage hstage
      have horder : stage ∈ validPromotionOrder := h.subset hstage
      rintro rfl
      revert horder
      decide
    have hwork : workedStages calls = calls.map StageResult.stage := by
      rw [workedStages, List.filter_eq_self]
      exact fun stage hstage => decide_eq_true (hmem stage (List.mem_append_left _ hstage))
    have hlen : calls.length + 1 ≤ 5 := by
      have hle := h.length_le
      rwa [List.length_append, List.length_map] at hle
    have hindex := expectedIndex_after id strategy parameterJson calls
    rw [hwork, List.length_map, Nat.min_eq_left (by omega)] at hindex
    have hnext : validPromotionOrder[calls.length]? = some r.stage := by
      obtain ⟨rest, hrest⟩ := h
      rw [← hrest, List.append_assoc, List.getElem?_append_right (by simp)]
      simp
    rw [proposedAfter_concat]
    rcases SlowCandidate.addEvidence_cases (proposedAfter id strategy parameterJson calls) r with
      ⟨hrej, hadd⟩ | ⟨hrej, hfive, hadd⟩ | ⟨hrej, hget, hadd⟩ | ⟨hrej, hlt, hget, hadd⟩
    · exact absurd hrej (hmem r.stage (by simp))
    · omega
    · rw [hadd]
      refine ⟨by simp [(ih hpre).1], ?_⟩
      by_cases hpromotion : r.stage = .promotion
      · simp [hpromotion]
      · simpa [hpromotion] using (ih hpre).2
    · rw [hindex] at hget
      exact absurd hnext hget

/-- The evidence is that of the order only after the stages of the order. -/
lemma evidence_after {calls : List StageResult} (h : (workedStages calls).length ≤ 5) :
    (proposedAfter id strategy parameterJson calls).evidence = validPromotionOrder.map .stage ↔
      calls.map StageResult.stage = validPromotionOrder := by
  constructor
  · intro hevidence
    rw [← stages_of_evidence id strategy parameterJson h, hevidence]
    rfl
  · intro hstages
    rw [(evidence_of_stages id strategy parameterJson (hstages ▸ List.prefix_rfl)).1, hstages]

namespace SlowLearning

variable (s : SlowLearning)

lemma addAll_concat (candidateId : String) (calls : List StageResult) (r : StageResult) :
    s.addAll candidateId (calls ++ [r]) =
      match (s.addAll candidateId calls).addEvidence candidateId r with
      | .ok (_, s') => s'
      | .error _ => s.addAll candidateId calls := by
  rw [addAll, List.foldl_append]
  rfl

lemma get_addAll (calls : List StageResult) :
    Dict.get id ((s.propose id strategy parameterJson).addAll id calls).candidates =
      some (proposedAfter id strategy parameterJson calls) := by
  induction calls using List.reverseRecOn with
  | nil =>
    change Dict.get id (Dict.alter id (fun _ => _) s.candidates) = _
    rw [Dict.get_alter_self]
    rfl
  | append_singleton calls r ih =>
    rw [addAll_concat, proposedAfter_concat, addEvidence, ih]
    cases hadd : (proposedAfter id strategy parameterJson calls).addEvidence r with
    | error e => simpa only [hadd] using ih
    | ok c => simp only [hadd, Dict.get_alter_self]

lemma promote_eq_ok {calls : List StageResult} {strategy' : String} {r : PromotedParameters × SlowLearning}
    (h : ((s.propose id strategy parameterJson).addAll id calls).promote id strategy' = .ok r) :
    (proposedAfter id strategy parameterJson calls).status = .promoted ∧
      r.1.evidence = (proposedAfter id strategy parameterJson calls).evidence := by
  rw [promote, get_addAll] at h
  split at h
  · rename_i hnone
    cases hnone
  · rename_i c hc
    obtain rfl := Option.some.inj hc
    split at h
    · cases h
    · rename_i hstatus
      obtain rfl := Except.ok.inj h
      exact ⟨not_not.mp hstatus, rfl⟩

lemma promote_of_promoted {calls : List StageResult} (strategy' : String)
    (h : (proposedAfter id strategy parameterJson calls).status = .promoted) :
    ∃ r, ((s.propose id strategy parameterJson).addAll id calls).promote id strategy' = .ok r := by
  rw [promote, get_addAll]
  simp only [h, ne_eq, not_true_eq_false, if_false]
  exact ⟨_, rfl⟩

lemma addEvidence_error_iff (calls : List StageResult) (r : StageResult) :
    (∃ e, ((s.propose id strategy parameterJson).addAll id calls).addEvidence id r = .error e) ↔
      r.stage ≠ .rejected ∧ 5 ≤ (workedStages calls).length := by
  have hindex := expectedIndex_after id strategy parameterJson calls
  rw [addEvidence, get_addAll]
  rcases SlowCandidate.addEvidence_cases (proposedAfter id strategy parameterJson calls) r with
    ⟨hrej, hadd⟩ | ⟨hrej, hfive, hadd⟩ | ⟨hrej, hget, hadd⟩ | ⟨hrej, hlt, hget, hadd⟩
  · simp [hadd, hrej]
  · simp only [hadd, Except.error.injEq, exists_eq', true_iff]
    exact ⟨hrej, by omega⟩
  · have hlt : (proposedAfter id strategy parameterJson calls).expectedIndex < 5 :=
      (List.getElem?_eq_some_iff.mp hget).1
    simp only [hadd, reduceCtorEq, exists_false, false_iff]
    omega
  · simp only [hadd, reduceCtorEq, exists_false, false_iff]
    omega

/-- A sixth stage that is not a rejection raises. -/
lemma accepted_iff (calls : List StageResult) :
    (∀ earlier r later, calls = earlier ++ r :: later →
      ∀ e, ((s.propose id strategy parameterJson).addAll id earlier).addEvidence id r ≠ .error e) ↔
        (workedStages calls).length ≤ 5 := by
  constructor
  · intro h
    induction calls using List.reverseRecOn with
    | nil => exact Nat.zero_le 5
    | append_singleton calls r ih =>
      have hle := ih (fun earlier r' later hsplit => h earlier r' (later ++ [r]) (by rw [hsplit]; simp))
      have hlast := (s.addEvidence_error_iff id strategy parameterJson calls r).not.mp
        (fun ⟨e, he⟩ => h calls r [] rfl e he)
      rw [workedStages_concat, List.length_append]
      split
      · exact hle
      · rename_i hrej
        rw [List.length_singleton]
        have hlt : ¬5 ≤ (workedStages calls).length := fun hfive => hlast ⟨hrej, hfive⟩
        omega
  · rintro h earlier r later rfl e he
    obtain ⟨hrej, hfive⟩ := (s.addEvidence_error_iff id strategy parameterJson earlier r).mp ⟨e, he⟩
    have hsplit : workedStages (earlier ++ r :: later) = workedStages earlier ++ r.stage :: workedStages later := by
      simp [workedStages, hrej]
    rw [hsplit, List.length_append, List.length_cons] at h
    omega

end SlowLearning

/-- The evidence of a candidate is judged as its stages require exactly for these calls. -/
theorem slow_learning_in_order (s : SlowLearning) (calls : List StageResult) :
    EveryStageInOrder (s.propose id strategy parameterJson) id calls ↔ JudgedRight calls := by
  constructor
  · intro h
    have hlen := (s.accepted_iff id strategy parameterJson calls).mp h.accepted
    refine ⟨hlen, fun hfive hlast => ?_⟩
    have hstatus := (status_after id strategy parameterJson hlen).mpr ⟨hfive, hlast⟩
    obtain ⟨⟨promoted, s'⟩, hok⟩ := s.promote_of_promoted id strategy parameterJson strategy hstatus
    have hevidence := h.ordered strategy promoted s' hok
    rw [(s.promote_eq_ok id strategy parameterJson hok).2] at hevidence
    exact (evidence_after id strategy parameterJson hlen).mp hevidence
  · rintro ⟨hlen, horder⟩
    have hstages : ∀ strategy' r, ((s.propose id strategy parameterJson).addAll id calls).promote id strategy' = .ok r →
        calls.map StageResult.stage = validPromotionOrder := by
      intro strategy' r hok
      have hstatus := (s.promote_eq_ok id strategy parameterJson hok).1
      obtain ⟨hfive, hlast⟩ := (status_after id strategy parameterJson hlen).mp hstatus
      exact horder hfive hlast
    refine ⟨?_, ?_, (s.accepted_iff id strategy parameterJson calls).mpr hlen⟩
    · intro strategy' promoted s' hok
      rw [(s.promote_eq_ok id strategy parameterJson hok).2]
      exact (evidence_after id strategy parameterJson hlen).mpr (hstages strategy' _ hok)
    · rintro earlier later rfl ⟨c, hc, hrejected⟩ strategy' r hok
      rw [s.get_addAll id strategy parameterJson] at hc
      obtain rfl := Option.some.inj hc
      have hprefix : earlier.map StageResult.stage <+: validPromotionOrder := by
        rw [← hstages strategy' r hok, List.map_append]
        exact List.prefix_append _ _
      exact (evidence_of_stages id strategy parameterJson hprefix).2 hrejected

end Runs

/-- Rejected first, then validated in full. -/
def rejectedFirst : List StageResult := (SlowStage.rejected :: validPromotionOrder).map (⟨·, []⟩)

/-- A rejected candidate is promoted. -/
theorem rejected_promoted :
    ¬∀ s id strategy parameterJson calls, EveryStageInOrder (SlowLearning.propose s id strategy parameterJson) id calls := by
  intro h
  obtain ⟨r, hr⟩ : ∃ r, ((SlowLearning.propose {} "c1" "trend" []).addAll "c1" rejectedFirst).promote "c1" "trend" = .ok r :=
    ⟨_, rfl⟩
  exact (h {} "c1" "trend" [] rejectedFirst).rejectedStays (rejectedFirst.take 1) (rejectedFirst.drop 1) rfl
    ⟨_, rfl, rfl⟩ "trend" r hr

end CryptoTrader
