import CryptoTrader.Lib.Suppression
import CryptoTrader.Runtime.PositionBridge

/-!
# One exit for each episode of a position

The marks of `_exit_in_flight` keep runs of the position bridge from sending a second exit, unless
a mark is taken away while its exit is under way. In every run of turns in which that does not
happen, at most one reduce-only order is recorded in each episode of a position, and no more is
executed than the position had.
-/

namespace CryptoTrader

open KeyedTable OrderStore Runs Suppression Weights

/-! ### Runs, marks and records -/

def ExitPc.stage : ExitPc → Stage
  | .deciding _ => .claimed
  | .creating _ episode _ => .tagged episode
  | .placing _ _ _ _ | .filling _ _ | .sent _ | .answered _ _ => .recorded

def BridgeRun.job : BridgeRun → Option (Job PositionKey)
  | .exiting c _ _ pc => some ⟨c.key, pc.stage⟩
  | _ => none

/-- The position and the episode of an exit. -/
def Exit.tag (x : Exit) : PositionKey × ℕ :=
  (x.position, x.episode)

/-- The marks, with what the runs work on and what they have recorded. -/
def Bridge.marks (setup : BridgeSetup) (st : Bridge) : Marks ℕ String PositionKey where
  marked := {s | s ∈ st.inFlight}
  job r := st.runs[r]?.bind BridgeRun.job
  records := st.exits.map Exit.tag
  episode := st.episode
  isOpen := {k | k ∈ openPositions setup.engine st.flow.db.rest}

/-- The exits recorded for the symbol are of episodes that have ended. -/
def Bridge.AllOver (setup : BridgeSetup) (st : Bridge) (symbol : String) : Prop :=
  ∀ x ∈ st.exits, x.position.symbol = symbol →
    x.episode < st.episode x.position ∨ x.position ∉ openPositions setup.engine st.flow.db.rest

/-- No run has an exit of the symbol under way, and those that are recorded are of episodes that
have ended. -/
def Bridge.Quiet (setup : BridgeSetup) (st : Bridge) (symbol : String) : Prop :=
  (∀ run ∈ st.runs, ∀ j ∈ run.job, j.target.symbol ≠ symbol) ∧ st.AllOver setup symbol

/-- The symbols whose marks the turn takes away because no open order has them, or because the
run that ends has not seen them. -/
def Bridge.disarmed (st : Bridge) : BridgeTurn → List String
  | .read r raises =>
    match st.runs[r]? with
    | some (.listing _) => st.inFlight.filter (· ∉ st.openExits raises)
    | _ => []
  | .visit r _ _ =>
    match st.runs[r]? with
    | some (.visiting all []) => st.inFlight.filter (· ∉ all.map Candidate.symbol)
    | _ => []
  | _ => []

/-- The symbol that a run marks after it has waited for the opening time. -/
def Bridge.awaited (setup : BridgeSetup) (st : Bridge) : BridgeTurn → Option String
  | .opened r openedAt clock _ =>
    match st.runs[r]? with
    | some (.opening c _ _) => if setup.expired clock (openedAt.getD clock) then some c.symbol else none
    | _ => none
  | _ => none

/-- The symbol whose mark goes because `process_signal` raises after it has recorded the order. -/
def Bridge.failed (setup : BridgeSetup) (st : Bridge) : BridgeTurn → Option String
  | .signal r call =>
    match st.runs[r]? with
    | some (.exiting c _ _ pc) =>
      if pc.stage = .recorded ∧ (processStep setup c st pc call).1 = .raised then some c.symbol else none
    | _ => none
  | _ => none

/-- Marks are taken away only from symbols that are quiet, and for an exception only once the
recorded exits are over; no symbol is marked that has been marked meanwhile. -/
def SuppressionHolds (setup : BridgeSetup) (st : Bridge) (turn : BridgeTurn) : Prop :=
  (∀ s ∈ st.disarmed turn, st.Quiet setup s) ∧ (∀ s ∈ st.awaited setup turn, s ∉ st.inFlight) ∧
    ∀ s ∈ st.failed setup turn, st.AllOver setup s

instance decidableAllOver (setup : BridgeSetup) (st : Bridge) (symbol : String) : Decidable (st.AllOver setup symbol) :=
  inferInstanceAs (Decidable (∀ x ∈ st.exits, _ → _ ∨ _))

instance decidableQuiet (setup : BridgeSetup) (st : Bridge) (symbol : String) : Decidable (st.Quiet setup symbol) :=
  inferInstanceAs (Decidable ((∀ run ∈ st.runs, ∀ j ∈ run.job, _ ≠ _) ∧ _))

instance decidableSuppressionHolds (setup : BridgeSetup) (st : Bridge) (turn : BridgeTurn) :
    Decidable (SuppressionHolds setup st turn) :=
  inferInstanceAs (Decidable (_ ∧ _ ∧ _))

lemma collected_job (st : Bridge) (cs : List Candidate) : (st.collected cs).job = none := by
  unfold Bridge.collected
  split <;> rfl

lemma allOver_marks {setup : BridgeSetup} {st : Bridge} {symbol : String} :
    (st.marks setup).AllOver PositionKey.symbol symbol ↔ st.AllOver setup symbol := by
  simp [Marks.AllOver, Marks.Over, Bridge.AllOver, Bridge.marks, Exit.tag]

lemma Bridge.Quiet.marks {setup : BridgeSetup} {st : Bridge} {symbol : String} (h : st.Quiet setup symbol) :
    (st.marks setup).Quiet PositionKey.symbol symbol := by
  refine ⟨fun r j hj => ?_, allOver_marks.mpr h.2⟩
  obtain ⟨run, hrun, hj⟩ := Option.bind_eq_some_iff.mp hj
  exact h.1 run (List.mem_of_getElem? hrun) j hj

/-! ### What a turn can do -/

/-- The runs, marks and records of `st'` are those of `st`. -/
structure Bridge.Same (st st' : Bridge) : Prop where
  runs : st'.runs = st.runs
  marks : st'.inFlight = st.inFlight
  exits : st'.exits = st.exits

inductive TaskEffect (setup : BridgeSetup) (st : Bridge) : BridgeTurn → Bridge → Prop
  | elsewhere (turn : BridgeTurn) (st' : Bridge) (hsame : st.Same st') : TaskEffect setup st turn st'
  | started : TaskEffect setup st .start { st with runs := st.runs ++ [.started] }
  /-- A run without a job goes on without one. -/
  | idle (turn : BridgeTurn) (r : ℕ) (run run' : BridgeRun) (hr : st.runs[r]? = some run) (hjob : run.job = none)
      (hjob' : run'.job = none) : TaskEffect setup st turn (st.goto r run')
  /-- A run without a job keeps the given marks only. -/
  | kept (turn : BridgeTurn) (r : ℕ) (run run' : BridgeRun) (kept : List String) (st' : Bridge)
      (hr : st.runs[r]? = some run) (hjob : run.job = none) (hjob' : run'.job = none) (hsame : (st.keepMarks kept).Same st')
      (hkept : st.disarmed turn = st.inFlight.filter (· ∉ kept)) : TaskEffect setup st turn (st'.goto r run')
  | judged (turn : BridgeTurn) (r : ℕ) (run : BridgeRun) (c : Candidate) (all rest : List Candidate) (first clock : ℤ)
      (acts : Bool) (st' : Bridge) (hr : st.runs[r]? = some run) (hjob : run.job = none) (hsame : st.Same st')
      (hfree : setup.expired clock first → c.symbol ∈ st.awaited setup turn ∨ c.symbol ∉ st.inFlight) :
      TaskEffect setup st turn (judge setup r c all rest first clock acts st')
  | signalled (r : ℕ) (call : SignalCall) (c : Candidate) (all rest : List Candidate) (pc : ExitPc)
      (hr : st.runs[r]? = some (.exiting c all rest pc)) :
      TaskEffect setup st (.signal r call) (applyToEngine r c all rest (processStep setup c st pc call))
  | cancelled (r : ℕ) (run : BridgeRun) (hr : st.runs[r]? = some run) : TaskEffect setup st (.cancel r) (st.goto r .ended)
  | executed (n : ℕ) (fill : Fill) (x : Exit) (st' : Bridge) (hx : st.exits[n]? = some x) (hsent : x.sent = true)
      (hroom : fill.quantity ≤ x.quantity - x.executed) (hsame : (st.executed n fill.quantity).Same st') :
      TaskEffect setup st (.execute n fill) st'

lemma Bridge.Same.refl (st : Bridge) : st.Same st :=
  ⟨rfl, rfl, rfl⟩

lemma taskStep_effect (setup : BridgeSetup) (st : Bridge) (turn : BridgeTurn) :
    TaskEffect setup st turn (taskStep setup st turn) := by
  have hstay : TaskEffect setup st turn st := .elsewhere turn st (.refl st)
  cases turn with
  | start => exact .started
  | read r raises =>
    simp only [taskStep]
    cases hr : st.runs[r]? with
    | none => exact hstay
    | some run =>
      cases run with
      | started => cases raises <;> exact .idle _ r _ _ hr rfl rfl
      | spotRead cs => exact .idle _ r _ _ hr rfl (collected_job st _)
      | listing cs => exact .kept _ r _ _ (st.openExits raises) _ hr rfl rfl (.refl _) (by simp only [Bridge.disarmed, hr])
      | _ => exact hstay
  | visit r clock acts =>
    simp only [taskStep]
    cases hr : st.runs[r]? with
    | none => exact hstay
    | some run =>
      cases run with
      | visiting all rest =>
        cases rest with
        | nil => exact .kept _ r _ _ (all.map Candidate.symbol) _ hr rfl rfl ⟨rfl, rfl, rfl⟩ (by simp only [Bridge.disarmed, hr])
        | cons c rest =>
          dsimp only
          by_cases hmarked : c.symbol ∈ st.inFlight
          · rw [if_pos hmarked]
            exact .idle _ r _ _ hr rfl rfl
          · rw [if_neg hmarked]
            split
            · exact .judged _ r _ c all rest _ clock acts _ hr rfl ⟨rfl, rfl, rfl⟩ (fun _ => .inr hmarked)
            · exact .judged _ r _ c all rest _ clock acts _ hr rfl ⟨rfl, rfl, rfl⟩ (fun _ => .inr hmarked)
            · split
              · exact .idle _ r _ _ hr rfl rfl
              · exact .judged _ r _ c all rest _ clock acts _ hr rfl ⟨rfl, rfl, rfl⟩ (fun _ => .inr hmarked)
      | _ => exact hstay
  | opened r openedAt clock acts =>
    simp only [taskStep]
    cases hr : st.runs[r]? with
    | none => exact hstay
    | some run =>
      cases run with
      | opening c all rest =>
        exact .judged _ r _ c all rest _ clock acts _ hr rfl ⟨rfl, rfl, rfl⟩
          (fun hexpired => .inl (by simp [Bridge.awaited, hr, hexpired]))
      | _ => exact hstay
  | signal r call =>
    simp only [taskStep]
    cases hr : st.runs[r]? with
    | none => exact hstay
    | some run =>
      cases run with
      | exiting c all rest pc => exact .signalled r call c all rest pc hr
      | _ => exact hstay
  | cancel r =>
    cases hr : st.runs[r]? with
    | none =>
      have hsame : st.runs.set r .ended = st.runs := List.set_eq_of_length_le (List.getElem?_eq_none_iff.mp hr)
      exact .elsewhere _ _ ⟨hsame, rfl, rfl⟩
    | some run => exact .cancelled r run hr
  | execute n fill =>
    simp only [taskStep]
    cases hx : st.exits[n]? with
    | none => exact hstay
    | some x =>
      dsimp only
      by_cases hexec : x.sent = true ∧ 0 < fill.quantity ∧ fill.quantity ≤ x.quantity - x.executed
      · rw [if_pos hexec]
        exact .executed n fill x _ hx hexec.1 hexec.2.2 ⟨rfl, rfl, rfl⟩
      · rw [if_neg hexec]
        exact hstay
  | flow turn => exact .elsewhere _ _ ⟨rfl, rfl, rfl⟩
  | others db => exact .elsewhere _ _ ⟨rfl, rfl, rfl⟩

/-! ### Every turn is a step of the marks -/

/-- The marks of `st'` while the positions are still those of `st`. -/
def Bridge.midway (setup : BridgeSetup) (st st' : Bridge) : Marks ℕ String PositionKey :=
  { st'.marks setup with episode := (st.marks setup).episode, isOpen := (st.marks setup).isOpen }

section Marks

variable {setup : BridgeSetup} {st st' : Bridge} {r : ℕ} {run run' : BridgeRun}

lemma midway_goto (st' : Bridge) (hruns : st'.runs = st.runs) (hr : st.runs[r]? = some run) :
    st.midway setup (st'.goto r run') =
      { st.midway setup st' with job := Function.update (st.marks setup).job r run'.job } := by
  have hlt : r < st.runs.length := (List.getElem?_eq_some_iff.mp hr).1
  have hjob : (fun i => ((st'.goto r run').runs[i]?).bind BridgeRun.job) =
      Function.update (st.marks setup).job r run'.job := by
    funext i
    by_cases hi : i = r
    · subst hi
      simp [Bridge.goto, hruns, hlt]
    · rw [Function.update_of_ne hi]
      simp [Bridge.goto, Bridge.marks, hruns, List.getElem?_set_ne (Ne.symm hi)]
  unfold Bridge.midway
  rw [← hjob]
  rfl

lemma midway_same (hruns : st'.runs = st.runs) (hr : st.runs[r]? = some run) (hjob : run'.job = run.job) :
    st.midway setup (st'.goto r run') = { st.midway setup st' with job := (st.marks setup).job } := by
  have hsame : Function.update (st.marks setup).job r run.job = (st.marks setup).job := by
    apply Function.update_eq_self_iff.mpr
    simp [Bridge.marks, hr]
  rw [midway_goto st' hruns hr, hjob, hsame]

lemma midway_unchanged (hruns : st'.runs = st.runs) (hmarks : st'.inFlight = st.inFlight)
    (hexits : st'.exits.map Exit.tag = st.exits.map Exit.tag) : st.midway setup st' = st.marks setup := by
  unfold Bridge.midway Bridge.marks
  rw [hruns, hmarks, hexits]

lemma marked_mark (st : Bridge) (symbol : String) : {s | s ∈ (st.mark symbol).inFlight} = insert symbol {s | s ∈ st.inFlight} := by
  ext s
  by_cases h : symbol ∈ st.inFlight
  · simp only [Bridge.mark, h, if_true, Set.mem_ofPred_eq, Set.mem_insert_iff]
    exact ⟨.inr, fun hs => hs.elim (fun heq => heq ▸ h) id⟩
  · simp [Bridge.mark, h, or_comm]

lemma marked_discard (st : Bridge) (symbol : String) : {s | s ∈ (st.discard symbol).inFlight} = {s | s ∈ st.inFlight} \ {symbol} := by
  ext s
  simp [Bridge.discard]

lemma marked_keepMarks (st : Bridge) (kept : List String) : {s | s ∈ (st.keepMarks kept).inFlight} =
    {s | s ∈ st.inFlight} \ {s | s ∈ st.inFlight ∧ s ∉ kept} := by
  ext s
  simp only [Bridge.keepMarks, List.mem_filter, decide_eq_true_eq, Set.mem_ofPred_eq, Set.mem_sdiff]
  tauto

/-- A step of the marks, or none. -/
abbrev MarkStep (setup : BridgeSetup) (st st' : Bridge) : Prop :=
  Relation.ReflTransGen (Step PositionKey.symbol) (st.marks setup) (st.midway setup st')

lemma markStep_same (hruns : st'.runs = st.runs) (hmarks : st'.inFlight = st.inFlight)
    (hexits : st'.exits.map Exit.tag = st.exits.map Exit.tag) (hr : st.runs[r]? = some run) (hjob : run'.job = run.job) :
    MarkStep setup st (st'.goto r run') := by
  rw [MarkStep, midway_same hruns hr hjob, midway_unchanged hruns hmarks hexits]

lemma markStep_keepMarks {kept : List String} (hruns : st'.runs = st.runs) (hmarks : st'.inFlight = (st.keepMarks kept).inFlight)
    (hexits : st'.exits = st.exits) (hr : st.runs[r]? = some run) (hjob : run'.job = run.job)
    (hquiet : ∀ s ∈ st.inFlight.filter (· ∉ kept), st.Quiet setup s) : MarkStep setup st (st'.goto r run') := by
  have hmarked := marked_keepMarks st kept
  rw [← hmarks] at hmarked
  have hstep : Step PositionKey.symbol (st.marks setup) { st.marks setup with
      marked := {s | s ∈ st.inFlight} \ {s | s ∈ st.inFlight ∧ s ∉ kept} } :=
    .unmark _ (fun s hs => (hquiet s (List.mem_filter.mpr ⟨hs.1, by simpa using hs.2⟩)).marks)
  rw [MarkStep, midway_same hruns hr hjob]
  convert Relation.ReflTransGen.single hstep using 1
  unfold Bridge.midway Bridge.marks
  rw [hmarked, hexits]

lemma judge_markStep {c : Candidate} {all rest : List Candidate} {first clock : ℤ} {acts : Bool}
    (hruns : st'.runs = st.runs) (hmarks : st'.inFlight = st.inFlight) (hexits : st'.exits = st.exits)
    (hr : st.runs[r]? = some run) (hjob : run.job = none)
    (hfree : setup.expired clock first → c.symbol ∉ st.inFlight) :
    MarkStep setup st (judge setup r c all rest first clock acts st') := by
  unfold judge
  by_cases hexpired : setup.expired clock first = true
  · rw [if_pos hexpired]
    have hmarked := marked_mark st' c.symbol
    have hidle : (st.marks setup).job r = none := by simp [Bridge.marks, hr, hjob]
    have hstep : Step PositionKey.symbol (st.marks setup) { st.marks setup with
        marked := insert c.symbol {s | s ∈ st.inFlight}
        job := Function.update (st.marks setup).job r (some ⟨c.key, .claimed⟩) } :=
      .claim r c.key hidle (hfree hexpired)
    rw [MarkStep, midway_goto (st'.mark c.symbol) hruns hr]
    convert Relation.ReflTransGen.single hstep using 1
    unfold Bridge.midway Bridge.marks
    rw [hmarked, hmarks]
    simp [Bridge.mark, hexits, BridgeRun.job, ExitPc.stage]
  · rw [if_neg hexpired]
    apply markStep_same hruns hmarks (by rw [hexits]) hr
    rw [hjob]
    cases acts <;> rfl

lemma markStep_finish (hruns : st'.runs = st.runs) (hmarks : st'.inFlight = st.inFlight)
    (hexits : st'.exits.map Exit.tag = st.exits.map Exit.tag) (hr : st.runs[r]? = some run) (hjob : run'.job = none) :
    MarkStep setup st (st'.goto r run') := by
  rw [MarkStep, midway_goto st' hruns hr, midway_unchanged hruns hmarks hexits, hjob]
  exact .single (.finish r)

lemma markStep_drop {c : Candidate} {all rest : List Candidate} {pc : ExitPc} (hruns : st'.runs = st.runs)
    (hmarks : st'.inFlight = st.inFlight) (hexits : st'.exits.map Exit.tag = st.exits.map Exit.tag)
    (hr : st.runs[r]? = some (.exiting c all rest pc)) (hjob : run'.job = none)
    (hover : pc.stage = .recorded → st.AllOver setup c.symbol) :
    MarkStep setup st ((st'.discard c.symbol).goto r run') := by
  have hmarked := marked_discard st' c.symbol
  have hmine : (st.marks setup).job r = some ⟨c.key, pc.stage⟩ := by simp [Bridge.marks, hr, BridgeRun.job]
  have hstep : Step PositionKey.symbol (st.marks setup) { st.marks setup with
      marked := {s | s ∈ st.inFlight} \ {c.symbol}, job := Function.update (st.marks setup).job r none } :=
    .drop r ⟨c.key, pc.stage⟩ hmine (fun hstage => allOver_marks.mpr (hover hstage))
  rw [MarkStep, midway_goto (st'.discard c.symbol) hruns hr, hjob]
  convert Relation.ReflTransGen.single hstep using 1
  unfold Bridge.midway Bridge.marks
  rw [hmarked, hmarks]
  simp [Bridge.discard, hexits]

/-- `process_signal` keeps the marks and the runs, and its records grow by a new order. -/
lemma SignalEffect.frame {c : Candidate} {pc : ExitPc} {outcome : SignalOutcome} (h : SignalEffect setup c st pc outcome st') :
    st'.runs = st.runs ∧ st'.inFlight = st.inFlight := by
  cases h <;> exact ⟨rfl, rfl⟩

lemma map_tag_modify (exits : List Exit) (n : ℕ) (f : Exit → Exit) (hf : ∀ x, (f x).tag = x.tag) :
    (exits.modify n f).map Exit.tag = exits.map Exit.tag := by
  apply List.ext_getElem?
  intro i
  simp only [List.getElem?_map, List.getElem?_modify]
  cases exits[i]? with
  | none => rfl
  | some x =>
    by_cases hi : n = i
    · simp [hi, hf]
    · simp [hi]

lemma signal_markStep {c : Candidate} {all rest : List Candidate} {pc : ExitPc} {outcome : SignalOutcome}
    (hr : st.runs[r]? = some (.exiting c all rest pc)) (heff : SignalEffect setup c st pc outcome st')
    (hover : pc.stage = .recorded → outcome = .raised → st.AllOver setup c.symbol) :
    MarkStep setup st (applyToEngine r c all rest (outcome, st')) := by
  have hmine : (st.marks setup).job r = some ⟨c.key, pc.stage⟩ := by simp [Bridge.marks, hr, BridgeRun.job]
  have hraised : ∀ st'' : Bridge, st''.runs = st.runs → st''.inFlight = st.inFlight →
      st''.exits.map Exit.tag = st.exits.map Exit.tag → outcome = .raised →
      MarkStep setup st (applyToEngine r c all rest (.raised, st'')) := by
    intro st'' hruns hmarks hexits ho
    exact markStep_drop hruns hmarks hexits hr rfl (fun hstage => hover hstage ho)
  cases heff with
  | waits pc => exact markStep_same rfl rfl rfl hr rfl
  | raised pc db => exact hraised _ rfl rfl rfl rfl
  | refused clock => exact markStep_drop rfl rfl rfl hr rfl (by simp [ExitPc.stage])
  | decided clock env happrove =>
    rw [applyToEngine, MarkStep, midway_goto st rfl hr, midway_unchanged rfl rfl rfl]
    exact .single (.tag r c.key hmine (approved_exit happrove).1)
  | skipped a episode before => exact markStep_finish rfl rfl rfl hr rfl
  | created a episode before order db =>
    have hstep : Step PositionKey.symbol (st.marks setup) { st.marks setup with
        records := st.exits.map Exit.tag ++ [(c.key, episode)]
        job := Function.update (st.marks setup).job r (some ⟨c.key, .recorded⟩) } :=
      .record r c.key episode hmine
    have hnew : ∀ st'' : Bridge, st''.runs = st.runs → st''.inFlight = st.inFlight →
        st''.exits = st.exits ++ [newExit c a order episode before] → ∀ n left,
        MarkStep setup st (st''.goto r (.exiting c all rest (.placing a order n left))) := by
      intro st'' hruns hmarks hexits n left
      rw [MarkStep, midway_goto st'' hruns hr]
      convert Relation.ReflTransGen.single hstep using 1
      unfold Bridge.midway Bridge.marks
      simp [hmarks, hexits, Exit.tag, newExit, BridgeRun.job, ExitPc.stage]
    exact hnew { st.withDb db with exits := st.exits ++ [newExit c a order episode before] } rfl rfl rfl _ _
  | placed a order n l left db => exact markStep_same rfl rfl rfl hr rfl
  | moved a order n db outcome hperp ho =>
    have hexits := map_tag_modify st.exits n (fun x => { x with executed := x.executed + a.signal.quantity })
      (fun _ => rfl)
    rcases ho with rfl | rfl
    · exact markStep_same rfl rfl hexits hr rfl
    · exact hraised _ rfl rfl hexits rfl
  | submitted a order n hspot =>
    have hexits := map_tag_modify st.exits n (fun x => { x with sent := true }) (fun _ => rfl)
    exact markStep_same rfl rfl hexits hr rfl
  | heard order calls => exact markStep_same rfl rfl rfl hr rfl
  | filled a order db => exact markStep_finish rfl rfl rfl hr rfl
  | told orderId l left db => exact markStep_same rfl rfl rfl hr rfl
  | returned orderId => exact markStep_finish rfl rfl rfl hr rfl

/-- A turn that holds on to the marks steps them, before the positions change. -/
lemma TaskEffect.markStep {turn : BridgeTurn} (h : TaskEffect setup st turn st') (hold : SuppressionHolds setup st turn) :
    MarkStep setup st st' := by
  obtain ⟨hquiet, hfree, hover⟩ := hold
  cases h with
  | elsewhere turn st' hsame => rw [MarkStep, midway_unchanged hsame.runs hsame.marks (by rw [hsame.exits])]
  | started =>
    have hjob : (fun i => (st.runs ++ [BridgeRun.started])[i]?.bind BridgeRun.job) = (st.marks setup).job := by
      funext i
      rw [List.getElem?_append]
      by_cases hi : i < st.runs.length
      · rw [if_pos hi]
        rfl
      · rw [if_neg hi]
        simp only [Bridge.marks, List.getElem?_eq_none (not_lt.mp hi), Option.bind_none]
        cases i - st.runs.length <;> rfl
    have hsame : st.midway setup { st with runs := st.runs ++ [.started] } = st.marks setup := by
      unfold Bridge.midway Bridge.marks
      dsimp only
      rw [hjob]
      rfl
    rw [MarkStep, hsame]
  | idle turn r run run' hr hjob hjob' => exact markStep_same rfl rfl rfl hr (hjob'.trans hjob.symm)
  | kept turn r run run' kept st' hr hjob hjob' hsame hkept =>
    rw [hkept] at hquiet
    exact markStep_keepMarks hsame.runs hsame.marks hsame.exits hr (hjob'.trans hjob.symm) hquiet
  | judged turn r run c all rest first clock acts st' hr hjob hsame hawaited =>
    apply judge_markStep hsame.runs hsame.marks hsame.exits hr hjob
    exact fun hexpired => (hawaited hexpired).elim (hfree c.symbol) id
  | signalled r call c all rest pc hr =>
    simp only [Bridge.failed, hr] at hover
    exact signal_markStep hr (processStep_effect setup c st pc call)
      (fun hstage hraised => hover c.symbol (if_pos ⟨hstage, hraised⟩))
  | cancelled r run hr => exact markStep_finish rfl rfl rfl hr rfl
  | executed n fill x st' hx hsent hroom hsame =>
    have hexits : st'.exits.map Exit.tag = st.exits.map Exit.tag := by
      rw [hsame.exits]
      exact map_tag_modify st.exits n _ (fun _ => rfl)
    have hunchanged : st.midway setup st' = st.marks setup := midway_unchanged hsame.runs hsame.marks hexits
    rw [MarkStep, hunchanged]

/-- The bridge simulates the marks: a position that comes to be open starts an episode. -/
theorem bridgeStep_simulates {turn : BridgeTurn} (hold : SuppressionHolds setup st turn) :
    Relation.ReflTransGen (Step PositionKey.symbol) (st.marks setup) ((bridgeStep setup st turn).marks setup) := by
  apply ((taskStep_effect setup st turn).markStep hold).tail
  apply Step.advance
  · intro k
    change st.openings.count k ≤ _
    simp [Bridge.episode, bridgeStep]
  · intro k hk
    by_cases hbefore : k ∈ openPositions setup.engine st.flow.db.rest
    · exact .inl hbefore
    · right
      change st.openings.count k < (st.openings ++ newlyOpen setup.engine st.flow.db.rest _).count k
      rw [List.count_append]
      apply Nat.lt_add_of_pos_right
      exact List.count_pos_iff.mpr (List.mem_filter.mpr ⟨hk, by simpa using hbefore⟩)

end Marks

/-! ### What is executed -/

/-- What is executed of the exits recorded in an episode of a position. -/
def Bridge.executedIn (st : Bridge) (tag : PositionKey × ℕ) : ℚ :=
  weight (fun x => if x.tag = tag then x.executed else 0) st.exits

/-- In each episode of a position at most one reduce-only order is recorded, and no more is
executed than the position had. -/
structure ExitedOnce (st : Bridge) : Prop where
  once : (st.exits.map Exit.tag).Nodup
  within : ∀ x ∈ st.exits, st.executedIn x.tag ≤ x.before

/-- The exit is of the approved quantity, and not yet executed. -/
structure Exit.Untouched (c : Candidate) (a : ApprovedSignal) (x : Exit) : Prop where
  position : x.position = c.key
  quantity : x.quantity = a.signal.quantity
  executed : x.executed = 0
  unsent : x.sent = false

/-- What `process_signal` has made sure of where it is. -/
def BridgeRun.Bounded (exits : List Exit) : BridgeRun → Prop
  | .exiting _ _ _ (.creating a _ before) => 0 < a.signal.quantity ∧ a.signal.quantity ≤ before
  | .exiting c _ _ (.placing a _ n _) => ∃ x, exits[n]? = some x ∧ x.Untouched c a
  | _ => True

/-- The exit that the run has recorded and not brought to the exchange or the ledger. -/
def BridgeRun.recorded : BridgeRun → Option ℕ
  | .exiting _ _ _ (.placing _ _ n _) => some n
  | _ => none

/-- No exit is executed beyond its quantity, nor of more than the position had. -/
structure ExitsBounded (st : Bridge) : Prop where
  exits : ∀ x ∈ st.exits, x.executed ≤ x.quantity ∧ x.quantity ≤ x.before
  runs : ∀ (r : ℕ) (run : BridgeRun), st.runs[r]? = some run → run.Bounded st.exits

section Bounds

variable {setup : BridgeSetup} {st st' : Bridge} {r n : ℕ} {run run' : BridgeRun} {exits : List Exit}

lemma BridgeRun.Bounded.of_job (h : run.job = none) : run.Bounded exits := by
  cases run with
  | exiting => cases h
  | _ => trivial

lemma BridgeRun.Bounded.keep {exits' : List Exit} (h : run.Bounded exits)
    (hkeep : ∀ n x, run.recorded = some n → exits[n]? = some x → exits'[n]? = some x) : run.Bounded exits' := by
  cases run with
  | exiting c all rest pc =>
    cases pc with
    | placing a order n left =>
      obtain ⟨x, hx, huntouched⟩ := h
      exact ⟨x, hkeep n x rfl hx, huntouched⟩
    | _ => exact h
  | _ => trivial

lemma BridgeRun.Bounded.modify (h : run.Bounded exits) (f : Exit → Exit) (hn : run.recorded ≠ some n) :
    run.Bounded (exits.modify n f) := by
  apply h.keep
  intro i x hi hx
  have hne : n ≠ i := fun heq => hn (heq ▸ hi)
  rw [List.getElem?_modify, hx]
  simp [hne]

lemma BridgeRun.Bounded.append (h : run.Bounded exits) (x : Exit) : run.Bounded (exits ++ [x]) := by
  apply h.keep
  intro i y _ hy
  rw [List.getElem?_append_left (List.getElem?_eq_some_iff.mp hy).1, hy]

lemma getElem?_set_cases {runs : List BridgeRun} {i : ℕ} (h : (runs.set r run')[i]? = some run) :
    (i = r ∧ run = run') ∨ (i ≠ r ∧ runs[i]? = some run) := by
  rw [List.getElem?_set] at h
  by_cases hri : r = i
  · rw [if_pos hri] at h
    split at h
    · exact .inl ⟨hri.symm, (Option.some.inj h).symm⟩
    · cases h
  · rw [if_neg hri] at h
    exact .inr ⟨Ne.symm hri, h⟩

lemma ExitsBounded.goto (h : ExitsBounded st) (hexits : st'.exits = st.exits) (hruns : st'.runs = st.runs)
    (hrun : run'.Bounded st.exits) : ExitsBounded (st'.goto r run') := by
  refine ⟨by simpa [Bridge.goto, hexits] using h.exits, fun i q hi => ?_⟩
  simp only [Bridge.goto, hexits, hruns] at hi ⊢
  obtain ⟨-, rfl⟩ | ⟨-, hi⟩ := getElem?_set_cases hi
  · exact hrun
  · exact h.runs i q hi

lemma ExitsBounded.write (h : ExitsBounded st) {f : Exit → Exit} (hexits : st'.exits = st.exits.modify n f)
    (hf : ∀ x, st.exits[n]? = some x → (f x).executed ≤ (f x).quantity ∧ (f x).quantity ≤ (f x).before)
    (hruns : ∀ (i : ℕ) (q : BridgeRun), st'.runs[i]? = some q → q.Bounded st.exits ∧ q.recorded ≠ some n) :
    ExitsBounded st' := by
  constructor
  · intro x hx
    rw [hexits] at hx
    obtain ⟨i, hi⟩ := List.mem_iff_getElem?.mp hx
    rw [List.getElem?_modify] at hi
    obtain ⟨y, hy, rfl⟩ := Option.map_eq_some_iff.mp hi
    by_cases hni : n = i
    · rw [if_pos hni]
      exact hf y (hni ▸ hy)
    · rw [if_neg hni]
      exact h.exits y (List.mem_of_getElem? hy)
  · intro i q hi
    rw [hexits]
    obtain ⟨hbounded, hne⟩ := hruns i q hi
    exact hbounded.modify f hne

/-- Two runs do not have the same exit. -/
lemma ExitsBounded.recorded_ne (h : ExitsBounded st) (hinv : Inv PositionKey.symbol (st.marks setup)) {c : Candidate}
    {all rest : List Candidate} {a : ApprovedSignal} {order : Order} {left : List Lifecycle}
    (hr : st.runs[r]? = some (.exiting c all rest (.placing a order n left))) {i : ℕ} {q : BridgeRun}
    (hi : st.runs[i]? = some q) (hne : i ≠ r) : q.recorded ≠ some n := by
  intro hrecorded
  obtain ⟨x, hx, huntouched⟩ := h.runs r _ hr
  cases q with
  | exiting c' all' rest' pc =>
    cases pc with
    | placing a' order' n' left' =>
      obtain rfl : n' = n := Option.some.inj hrecorded
      obtain ⟨y, hy, huntouched'⟩ := h.runs i _ hi
      obtain rfl : x = y := Option.some.inj (hx.symm.trans hy)
      have hkey : c'.key = c.key := huntouched'.position.symm.trans huntouched.position
      have hjob (k : ℕ) {c : Candidate} {all rest : List Candidate} {pc : ExitPc}
          (hk : st.runs[k]? = some (.exiting c all rest pc)) : (st.marks setup).job k = some ⟨c.key, pc.stage⟩ := by
        simp [Bridge.marks, hk, BridgeRun.job]
      exact hne (hinv.alone i r _ _ (hjob i hi) (hjob r hr) (congrArg PositionKey.symbol hkey))
    | _ => cases hrecorded
  | _ => cases hrecorded

lemma ExitsBounded.own (h : ExitsBounded st) (hinv : Inv PositionKey.symbol (st.marks setup)) {c : Candidate}
    {all rest : List Candidate} {a : ApprovedSignal} {order : Order} {left : List Lifecycle}
    (hr : st.runs[r]? = some (.exiting c all rest (.placing a order n left))) {f : Exit → Exit}
    (hexits : st'.exits = st.exits.modify n f) (hruns : st'.runs = st.runs)
    (hf : ∀ x : Exit, x.Untouched c a → x.executed ≤ x.quantity → x.quantity ≤ x.before →
      (f x).executed ≤ (f x).quantity ∧ (f x).quantity ≤ (f x).before)
    (hrun : run'.Bounded st.exits) (hdone : run'.recorded = none) : ExitsBounded (st'.goto r run') := by
  obtain ⟨x, hx, huntouched⟩ := h.runs r _ hr
  have hwritten : (st'.goto r run').exits = st.exits.modify n f := hexits
  apply h.write hwritten
  · intro y hy
    obtain rfl : x = y := Option.some.inj (hx.symm.trans hy)
    obtain ⟨hexecuted, hle⟩ := h.exits x (List.mem_of_getElem? hx)
    exact hf x huntouched hexecuted hle
  · intro i q hi
    simp only [Bridge.goto, hruns] at hi
    obtain ⟨-, rfl⟩ | ⟨hne, hi⟩ := getElem?_set_cases hi
    · exact ⟨hrun, by simp [hdone]⟩
    · exact ⟨h.runs i q hi, h.recorded_ne hinv hr hi hne⟩

lemma ExitsBounded.record (h : ExitsBounded st) {x : Exit} (hexits : st'.exits = st.exits ++ [x])
    (hruns : st'.runs = st.runs) (hx : x.executed ≤ x.quantity ∧ x.quantity ≤ x.before)
    (hrun : run'.Bounded (st.exits ++ [x])) : ExitsBounded (st'.goto r run') := by
  constructor
  · intro y hy
    simp only [Bridge.goto, hexits] at hy
    rcases List.mem_append.mp hy with hy | hy
    · exact h.exits y hy
    · rw [List.mem_singleton.mp hy]
      exact hx
  · intro i q hi
    simp only [Bridge.goto, hexits, hruns] at hi ⊢
    obtain ⟨-, rfl⟩ | ⟨-, hi⟩ := getElem?_set_cases hi
    · exact hrun
    · exact (h.runs i q hi).append x

lemma ExitsBounded.judge (h : ExitsBounded st) (c : Candidate) (all rest : List Candidate) (first clock : ℤ) (acts : Bool)
    (hexits : st'.exits = st.exits) (hruns : st'.runs = st.runs) :
    ExitsBounded (judge setup r c all rest first clock acts st') := by
  unfold CryptoTrader.judge
  split
  · exact h.goto hexits hruns trivial
  · apply h.goto hexits hruns
    cases acts <;> trivial

lemma ExitsBounded.signal (h : ExitsBounded st) (hinv : Inv PositionKey.symbol (st.marks setup)) {c : Candidate}
    {all rest : List Candidate} {pc : ExitPc} {outcome : SignalOutcome}
    (hr : st.runs[r]? = some (.exiting c all rest pc)) (heff : SignalEffect setup c st pc outcome st') :
    ExitsBounded (applyToEngine r c all rest (outcome, st')) := by
  have hrun := h.runs r _ hr
  cases heff with
  | waits pc => exact h.goto rfl rfl hrun
  | raised pc db => exact h.goto rfl rfl trivial
  | refused clock => exact h.goto rfl rfl trivial
  | decided clock env happrove => exact h.goto rfl rfl (approved_exit happrove).2
  | skipped a episode before => exact h.goto rfl rfl trivial
  | created a episode before order db =>
    obtain ⟨hpos, hle⟩ := hrun
    have hexits : ({ st.withDb db with exits := st.exits ++ [newExit c a order episode before] } : Bridge).exits =
      st.exits ++ [newExit c a order episode before] := rfl
    apply h.record hexits rfl
    · exact ⟨hpos.le, hle⟩
    · exact ⟨newExit c a order episode before, by simp, rfl, rfl, rfl, rfl⟩
  | placed a order n l left db => exact h.goto rfl rfl hrun
  | moved a order n db outcome hperp ho =>
    have hf : ∀ x : Exit, x.Untouched c a → x.executed ≤ x.quantity → x.quantity ≤ x.before →
        x.executed + a.signal.quantity ≤ x.quantity ∧ x.quantity ≤ x.before := by
      intro x hx _ hle
      rw [hx.executed, hx.quantity, zero_add]
      exact ⟨le_rfl, hx.quantity ▸ hle⟩
    rcases ho with rfl | rfl
    · exact h.own hinv hr rfl rfl hf trivial rfl
    · exact h.own hinv hr rfl rfl hf trivial rfl
  | submitted a order n hspot =>
    have hf : ∀ x : Exit, x.Untouched c a → x.executed ≤ x.quantity → x.quantity ≤ x.before →
        x.executed ≤ x.quantity ∧ x.quantity ≤ x.before := fun _ _ hexecuted hle => ⟨hexecuted, hle⟩
    exact h.own hinv hr rfl rfl hf trivial rfl
  | heard order calls => exact h.goto rfl rfl trivial
  | filled a order db => exact h.goto rfl rfl trivial
  | told orderId l left db => exact h.goto rfl rfl trivial
  | returned orderId => exact h.goto rfl rfl trivial

lemma ExitsBounded.task (h : ExitsBounded st) (hinv : Inv PositionKey.symbol (st.marks setup)) {turn : BridgeTurn}
    (heff : TaskEffect setup st turn st') : ExitsBounded st' := by
  cases heff with
  | elsewhere turn st' hsame =>
    constructor
    · rw [hsame.exits]
      exact h.exits
    · rw [hsame.exits, hsame.runs]
      exact h.runs
  | started =>
    refine ⟨h.exits, fun i q hi => ?_⟩
    simp only [List.getElem?_append] at hi
    split at hi
    · exact h.runs i q hi
    · rw [List.getElem?_singleton] at hi
      split at hi
      · exact Option.some.inj hi ▸ trivial
      · cases hi
  | idle turn r run run' hr hjob hjob' => exact h.goto rfl rfl (.of_job hjob')
  | kept turn r run run' kept st' hr hjob hjob' hsame hkept => exact h.goto hsame.exits hsame.runs (.of_job hjob')
  | judged turn r run c all rest first clock acts st' hr hjob hsame hfree =>
    exact h.judge c all rest first clock acts hsame.exits hsame.runs
  | signalled r call c all rest pc hr => exact h.signal hinv hr (processStep_effect setup c st pc call)
  | cancelled r run hr => exact h.goto rfl rfl trivial
  | executed n fill x st' hx hsent hroom hsame =>
    have hmem := h.exits x (List.mem_of_getElem? hx)
    apply h.write hsame.exits
    · intro y hy
      obtain rfl : x = y := Option.some.inj (hx.symm.trans hy)
      exact ⟨by linarith, hmem.2⟩
    · intro i q hi
      rw [hsame.runs] at hi
      refine ⟨h.runs i q hi, fun hrecorded => ?_⟩
      cases q with
      | exiting c all rest pc =>
        cases pc with
        | placing a order n' left =>
          obtain rfl : n' = n := Option.some.inj hrecorded
          obtain ⟨y, hy, huntouched⟩ := h.runs i _ hi
          obtain rfl : x = y := Option.some.inj (hx.symm.trans hy)
          simp [huntouched.unsent] at hsent
        | _ => cases hrecorded
      | _ => cases hrecorded

end Bounds

/-! ### Runs of turns -/

section Runs

variable {setup : BridgeSetup} {st : Bridge}

/-- What every turn that holds on to the marks keeps. -/
structure BridgeInv (setup : BridgeSetup) (st : Bridge) : Prop where
  marks : Inv PositionKey.symbol (st.marks setup)
  bounded : ExitsBounded st

lemma BridgeInv.step (h : BridgeInv setup st) {turn : BridgeTurn} (hold : SuppressionHolds setup st turn) :
    BridgeInv setup (bridgeStep setup st turn) := by
  have hbounded := h.bounded.task h.marks (taskStep_effect setup st turn)
  exact ⟨h.marks.steps (bridgeStep_simulates hold), hbounded.exits, hbounded.runs⟩

lemma bridgeInv_start (hruns : st.runs = []) (hexits : st.exits = []) : BridgeInv setup st := by
  constructor
  · constructor <;> simp [Bridge.marks, hruns, hexits]
  · constructor <;> simp [hruns, hexits]

lemma BridgeInv.exitedOnce (h : BridgeInv setup st) : ExitedOnce st := by
  have honce : (st.exits.map Exit.tag).Nodup := h.marks.once
  refine ⟨honce, fun x hx => ?_⟩
  have hmine : st.executedIn x.tag = x.executed := by
    rw [Bridge.executedIn, weight_of_key Exit.executed honce, rowWeight, row_of_mem honce hx]
    rfl
  rw [hmine]
  exact (h.bounded.exits x hx).1.trans (h.bounded.exits x hx).2

/-- From any database and any marks, in every run of turns that hold on to the marks, at most one
exit is recorded in each episode of a position, and no more is executed than the position had. -/
theorem positions_exited_once (hruns : st.runs = []) (hexits : st.exits = []) {turns : List BridgeTurn}
    (hold : Along (bridgeStep setup) (SuppressionHolds setup) st turns) :
    Visits (bridgeStep setup) ExitedOnce st turns := by
  have hvisits : Visits (bridgeStep setup) (BridgeInv setup) st turns :=
    visits_of_along (fun _ _ h hc => h.step hc) (bridgeInv_start hruns hexits) hold
  exact hvisits.mono (fun _ h => h.exitedOnce)

end Runs

/-! ### Two runs and one position -/

/-- A time stop of a second. -/
def bridgeSetup : BridgeSetup := { paperSetup with timeStop := some 1000 }

/-- A unit of BTCUSDT is held. -/
def unitHeld : Bridge where
  flow := run (flowStep paperSetup) { db := ⟨{}, {}⟩ }
    ([.decide (unitSignal "s1" .buy) unitEnv, .submit 0 (attemptIds 1)] ++ unitSettled 1 0 .buy)

/-- The `r`-th run collects the candidates. -/
def collecting (r : ℕ) : List BridgeTurn :=
  [.start, .read r false, .read r false]

/-- The first run marks the position, and the authority approves its exit. -/
def firstDecides : List BridgeTurn :=
  [.visit 0 5000 false, .opened 0 (some 0) 5000 false, .signal 0 (.decide unitEnv)]

/-- The order of the `r`-th run is recorded under the `n`-th ids. -/
def recording (r n : ℕ) : List BridgeTurn :=
  [.signal r (.commit (attemptIds n)), .signal r (.transition s!"validated_{n}"),
    .signal r (.transition s!"submitting_{n}"), .signal r (.transition s!"submitted_{n}")]

def unitAnswer (n : ℕ) : Order where
  internalOrderId := s!"ord_{n}"
  clientOrderId := s!"client_{n}"
  exchangeOrderId := some s!"x_{n}"
  symbol := "BTCUSDT"
  side := .sell
  quantity := 1
  status := .acknowledged

/-- The order goes to the exchange, which executes it as the `k`-th exit. -/
def executing (r n k : ℕ) : List BridgeTurn :=
  [.signal r .submit, .signal r (.answer (.ok (unitAnswer n)) s!"ack_{n}" s!"opened_{n}"),
    .signal r (.transition s!"ack_{n}"), .signal r (.commit (attemptIds n)),
    .execute k { fillId := s!"fill_{n}", orderId := "", symbol := "", side := .sell, price := 100, quantity := 1 }]

/-- The second run lists the open orders once the order of the first is submitted. -/
def listedLate : List BridgeTurn :=
  collecting 0 ++ firstDecides ++ collecting 1 ++ recording 0 2 ++ [.read 1 false, .visit 1 5001 false] ++ executing 0 2 0

/-- The second run lists the open orders before the order of the first is there. -/
def listedEarly : List BridgeTurn :=
  collecting 0 ++ firstDecides ++ collecting 1 ++
    [.read 1 false, .visit 1 5001 false, .signal 1 (.decide unitEnv)] ++ recording 0 2 ++ executing 0 2 0 ++
    recording 1 3 ++ executing 1 3 1

theorem unit_exited_once : Visits (bridgeStep bridgeSetup) ExitedOnce unitHeld listedLate :=
  positions_exited_once rfl rfl (by decide +kernel)

/-- The second run takes the mark of the first away, because its order is not recorded yet, and
sends a second exit: two units are sold of the one that was held. -/
theorem unit_exited_twice : ¬Visits (bridgeStep bridgeSetup) ExitedOnce unitHeld listedEarly ∧
    ((run (bridgeStep bridgeSetup) unitHeld listedEarly).flow.db.store.orders.filter Order.reduceOnly).length = 2 ∧
    weight Exit.executed (run (bridgeStep bridgeSetup) unitHeld listedEarly).exits = 2 ∧
    currentSignedQuantity bridgeSetup.engine .spot "BTCUSDT" unitHeld.flow.db.rest = 1 := by
  refine ⟨fun h => ?_, by decide +kernel, by decide +kernel, by decide +kernel⟩
  have htwice : ¬((run (bridgeStep bridgeSetup) unitHeld listedEarly).exits.map Exit.tag).Nodup := by decide +kernel
  exact htwice h.last.once

end CryptoTrader
