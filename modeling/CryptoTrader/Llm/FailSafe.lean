import CryptoTrader.Llm.ChiefDecision

/-!
# When the Chief Trader fails safe

The schema accepts an answer field by field, and what the engine puts in before (an id, the symbol,
the regime, the action, the marker and the time) is always accepted; so an answer becomes a decision
exactly if what it gives itself fits, and the candidates of the evidence are in order where one has to
be selected (`parse_returns`).
-/

namespace CryptoTrader

open Excepts

namespace LLMChief

section Parsing

variable {T : TextFunctions} {now : Moment} {ctx : ChiefTraderContext}

/-! ### The schema, field by field -/

lemma nodup_modelFields : (modelFields.map Field.name).Nodup := by
  decide +kernel

/-- What the schema makes of an answer, once it accepts every field. -/
def accepted (T : TextFunctions) (given : Fields) : Fields :=
  modelFields.map (fun f => (f.name, valueD (f.value T given) .none))

lemma construct_eq_ok {given d : Fields} :
    construct T given = .ok d ↔ (∀ f ∈ modelFields, Returns (f.value T given)) ∧ d = accepted T given := by
  have hreturns (f : Field) : Returns (do let v ← f.value T given; pure (f.name, v)) ↔ Returns (f.value T given) := by
    rw [returns_bind]
    exact ⟨fun ⟨v, hv, _⟩ => ⟨v, hv⟩, fun ⟨v, hv⟩ => ⟨v, hv, returns_ok _⟩⟩
  have hvalue (f : Field) (h : Returns (f.value T given)) :
      valueD (do let v ← f.value T given; pure (f.name, v)) ("", PyValue.none) = (f.name, valueD (f.value T given) .none) := by
    obtain ⟨v, hv⟩ := h
    rw [hv]
    rfl
  have hall := exists_mapM (fun f : Field => do let v ← f.value T given; pure (f.name, v)) ("", PyValue.none)
    modelFields (fun bs => bs = d)
  simp only [exists_eq_right, hreturns] at hall
  rw [construct, hall]
  refine and_congr_right (fun h => ?_)
  have hmap : modelFields.map (fun f => valueD (do let v ← f.value T given; pure (f.name, v)) ("", PyValue.none)) =
      accepted T given := List.map_congr_left (fun f hf => hvalue f (h f hf))
  rw [hmap, eq_comm]

lemma get_accepted (given : Fields) {f : Field} (hf : f ∈ modelFields) :
    Dict.get f.name (accepted T given) = some (valueD (f.value T given) .none) := by
  have hkeys : (accepted T given).map Prod.fst = modelFields.map Field.name := by
    rw [accepted, List.map_map]
    rfl
  rw [← Dict.mem_iff_get (hkeys ▸ nodup_modelFields)]
  exact List.mem_map_of_mem hf

/-- A field that is given has to be accepted, and one that is not has to have a default. -/
lemma value_returns (f : Field) (given : Fields) :
    Returns (f.value T given) ↔ (∀ v, Dict.get f.name given = some v → (f.type.coerce T v).isSome = true) ∧
      (Dict.get f.name given = none → f.default.isSome = true) := by
  unfold Field.value
  cases hget : Dict.get f.name given with
  | some v => cases hv : f.type.coerce T v <;> simp [hv]
  | none => cases f.default <;> simp

/-! ### The answer with its defaults -/

/-- The answer before it is marked. -/
def completed (T : TextFunctions) (now : Moment) (ctx : ChiefTraderContext) (raw : Fields) : Fields :=
  Dict.alter "action" (fun _ => .str (entryAction T ((Dict.get "action" raw).getD (.str "NO_TRADE"))))
    (Dict.setDefault "market_regime" (.str ctx.regime)
      (Dict.setDefault "symbol" (.str ctx.symbol)
        (Dict.setDefault "decision_id" (.str ("llm_" ++ now.timestamp)) raw)))

lemma prepare_eq (raw : Fields) :
    prepare T now raw ctx =
      (if entryAction T ((Dict.get "action" raw).getD (.str "NO_TRADE")) = "WAIT" then
        markWait (completed T now ctx raw) else .ok (completed T now ctx raw)) >>=
      fun given => .ok (Dict.setDefault "created_at" (.str now.isoformat) given) := by
  have haction : Dict.get "action" (Dict.setDefault "market_regime" (.str ctx.regime)
      (Dict.setDefault "symbol" (.str ctx.symbol)
        (Dict.setDefault "decision_id" (.str ("llm_" ++ now.timestamp)) raw))) = Dict.get "action" raw := by
    rw [Dict.get_setDefault_of_ne (by decide), Dict.get_setDefault_of_ne (by decide), Dict.get_setDefault_of_ne (by decide)]
  simp only [prepare, haction]
  split <;> rfl

lemma get_completed_reasons (T : TextFunctions) (now : Moment) (ctx : ChiefTraderContext) (raw : Fields) :
    Dict.get "reason_codes" (completed T now ctx raw) = Dict.get "reason_codes" raw := by
  rw [completed, Dict.get_alter_of_ne (by decide), Dict.get_setDefault_of_ne (by decide),
    Dict.get_setDefault_of_ne (by decide), Dict.get_setDefault_of_ne (by decide)]

lemma reasons_returns {given : Fields} {v : PyValue} (h : Dict.get "reason_codes" given = some v) :
    Returns ((texts "reason_codes").value T given) ↔ (FieldType.texts.coerce T v).isSome = true := by
  rw [value_returns]
  simp [texts, h]

lemma texts_accepted (l : List PyValue) : (FieldType.texts.coerce T (.list l)).isSome = true ↔ l.all PyValue.isStr = true := by
  cases h : l.all PyValue.isStr <;> simp [FieldType.coerce, h]

/-- Codes can be listed if and only if the schema accepts them with their marker. -/
lemma marked_accepted (v : PyValue) :
    (∃ codes, markedCodes v = .ok codes ∧ (FieldType.texts.coerce T codes).isSome = true) ↔ ReasonsListable v := by
  have happend (l : List PyValue) : (l ++ [PyValue.str failClosedMarker]).all PyValue.isStr = l.all PyValue.isStr := by
    simp [List.all_append, PyValue.isStr]
  cases v with
  | list l =>
    cases hm : l.any (PyValue.isText failClosedMarker) with
    | true => simp [markedCodes, PyValue.contains, hm, bind, Except.bind, pure, Except.pure, texts_accepted, ReasonsListable]
    | false =>
      simp only [markedCodes, PyValue.contains, PyValue.items, hm, bind, Except.bind, pure, Except.pure]
      simp [texts_accepted, happend, ReasonsListable]
  | dict d =>
    by_cases hm : failClosedMarker ∈ d.map Prod.fst
    · simp only [markedCodes, PyValue.contains, hm, bind, Except.bind, pure, Except.pure]
      simp [FieldType.coerce, ReasonsListable, hm]
    · simp only [markedCodes, PyValue.contains, PyValue.items, hm, bind, Except.bind, pure, Except.pure]
      simpa [texts_accepted, happend, ReasonsListable, PyValue.isStr] using hm
  | str s =>
    by_cases hm : failClosedMarker.toList <:+: s.toList
    · simp only [markedCodes, PyValue.contains, hm, bind, Except.bind, pure, Except.pure]
      simp [FieldType.coerce, ReasonsListable, hm]
    · simp only [markedCodes, PyValue.contains, PyValue.items, hm, bind, Except.bind, pure, Except.pure]
      simpa [texts_accepted, happend, ReasonsListable, PyValue.isStr] using hm
  | none => simp [markedCodes, PyValue.contains, ReasonsListable, bind, Except.bind]
  | bool b => simp [markedCodes, PyValue.contains, ReasonsListable, bind, Except.bind]
  | int n => simp [markedCodes, PyValue.contains, ReasonsListable, bind, Except.bind]
  | float x => simp [markedCodes, PyValue.contains, ReasonsListable, bind, Except.bind]

lemma markWait_eq_ok {raw given : Fields} :
    markWait raw = .ok given ↔ ∃ codes, markedCodes ((Dict.get "reason_codes" raw).getD (.list [])) = .ok codes ∧
      Dict.alter "reason_codes" (fun _ => codes) (Dict.setDefault "reason_codes" (.list []) raw) = given := by
  simp only [markWait, Dict.get_setDefault_self, Option.getD_some, bind_ok_iff, pure, Except.pure, Except.ok.injEq]

lemma markWait_get {raw given : Fields} (h : markWait raw = .ok given) {k : String} (hk : k ≠ "reason_codes") :
    Dict.get k given = Dict.get k raw := by
  obtain ⟨codes, -, rfl⟩ := markWait_eq_ok.mp h
  rw [Dict.get_alter_of_ne hk, Dict.get_setDefault_of_ne hk]

lemma markWait_accepted (raw : Fields) :
    (∃ given, markWait raw = .ok given ∧ Returns ((texts "reason_codes").value T given)) ↔
      ∀ v, Dict.get "reason_codes" raw = some v → ReasonsListable v := by
  have hcodes : (∃ given, markWait raw = .ok given ∧ Returns ((texts "reason_codes").value T given)) ↔
      ReasonsListable ((Dict.get "reason_codes" raw).getD (.list [])) := by
    rw [← marked_accepted (T := T)]
    constructor
    · rintro ⟨given, hmark, hreturns⟩
      obtain ⟨codes, hcodes, rfl⟩ := markWait_eq_ok.mp hmark
      exact ⟨codes, hcodes, (reasons_returns (Dict.get_alter_self _ _ _)).mp hreturns⟩
    · rintro ⟨codes, hcodes, haccepted⟩
      exact ⟨_, markWait_eq_ok.mpr ⟨codes, hcodes, rfl⟩, (reasons_returns (Dict.get_alter_self _ _ _)).mpr haccepted⟩
  rw [hcodes]
  cases Dict.get "reason_codes" raw with
  | none => simp [ReasonsListable]
  | some v => simp

lemma get_completed (T : TextFunctions) (now : Moment) (ctx : ChiefTraderContext) (raw : Fields) {k : String} (hk : k ≠ "action") :
    ∃ s, Dict.get k (completed T now ctx raw) =
      if k ∈ ["decision_id", "symbol", "market_regime"] then some ((Dict.get k raw).getD (.str s)) else Dict.get k raw := by
  rw [completed, Dict.get_alter_of_ne hk]
  by_cases hregime : k = "market_regime"
  · subst hregime
    refine ⟨ctx.regime, ?_⟩
    rw [Dict.get_setDefault_self, Dict.get_setDefault_of_ne (by decide), Dict.get_setDefault_of_ne (by decide)]
    rfl
  rw [Dict.get_setDefault_of_ne hregime]
  by_cases hsymbol : k = "symbol"
  · subst hsymbol
    refine ⟨ctx.symbol, ?_⟩
    rw [Dict.get_setDefault_self, Dict.get_setDefault_of_ne (by decide)]
    rfl
  rw [Dict.get_setDefault_of_ne hsymbol]
  by_cases hid : k = "decision_id"
  · subst hid
    exact ⟨"llm_" ++ now.timestamp, Dict.get_setDefault_self _ _ _⟩
  · rw [Dict.get_setDefault_of_ne hid]
    exact ⟨"", by simp [hregime, hsymbol, hid]⟩

/-- An answer is prepared from the completed one, which has been marked if its action waits. -/
lemma prepare_eq_ok {raw given : Fields} (h : prepare T now raw ctx = .ok given) :
    ∃ marked, given = Dict.setDefault "created_at" (.str now.isoformat) marked ∧
      ∀ k, k ≠ "reason_codes" → Dict.get k marked = Dict.get k (completed T now ctx raw) := by
  rw [prepare_eq, bind_ok_iff] at h
  obtain ⟨marked, hmark, hgiven⟩ := h
  refine ⟨marked, (Except.ok.inj hgiven).symm, fun k hk => ?_⟩
  split at hmark
  · exact markWait_get hmark hk
  · rw [Except.ok.inj hmark]

lemma get_prepared_action {raw given : Fields} (h : prepare T now raw ctx = .ok given) :
    Dict.get "action" given = some (.str (entryAction T ((Dict.get "action" raw).getD (.str "NO_TRADE")))) := by
  obtain ⟨marked, rfl, hget⟩ := prepare_eq_ok h
  rw [Dict.get_setDefault_of_ne (by decide), hget _ (by decide)]
  exact Dict.get_alter_self _ _ _

lemma get_prepared {raw given : Fields} (h : prepare T now raw ctx = .ok given) {k : String}
    (hk : k ∉ ["action", "reason_codes"]) :
    ∃ s, Dict.get k given = if k ∈ ["decision_id", "symbol", "market_regime", "created_at"] then
      some ((Dict.get k raw).getD (.str s)) else Dict.get k raw := by
  simp only [List.mem_cons, List.not_mem_nil, or_false, not_or] at hk
  obtain ⟨marked, rfl, hget⟩ := prepare_eq_ok h
  obtain ⟨s, hs⟩ := get_completed T now ctx raw hk.1
  by_cases hcreated : k = "created_at"
  · subst hcreated
    refine ⟨now.isoformat, ?_⟩
    rw [Dict.get_setDefault_self, hget _ hk.2, hs]
    rfl
  · refine ⟨s, ?_⟩
    rw [Dict.get_setDefault_of_ne hcreated, hget _ hk.2, hs]
    simp [hcreated]

lemma text_of_set : ∀ f ∈ modelFields, f.name ∈ ["decision_id", "symbol", "market_regime", "created_at"] →
    f.type = .text := by
  decide +kernel

lemma default_of_not_set : ∀ f ∈ modelFields,
    f.name ∉ ["action", "decision_id", "symbol", "market_regime", "created_at"] → f.default.isSome = true := by
  decide +kernel

lemma field_prepared {raw given : Fields} (h : prepare T now raw ctx = .ok given) {f : Field} (hf : f ∈ modelFields)
    (hn : f.name ∉ ["action", "reason_codes"]) :
    Returns (f.value T given) ↔ ∀ v, Dict.get f.name raw = some v → (f.type.coerce T v).isSome = true := by
  obtain ⟨s, hs⟩ := get_prepared h hn
  rw [value_returns, hs]
  split_ifs with hset
  · have htype := text_of_set f hf hset
    cases hget : Dict.get f.name raw with
    | none => simp [htype, FieldType.coerce]
    | some v => simp
  · have hdefault := default_of_not_set f hf (by simp only [List.mem_cons, not_or] at hn hset ⊢; tauto)
    simp [hdefault]

lemma value_congr {f : Field} {given given' : Fields} (h : Dict.get f.name given = Dict.get f.name given') :
    f.value T given = f.value T given' := by
  rw [Field.value, Field.value, h]

lemma reasons_prepared (T : TextFunctions) (now : Moment) (ctx : ChiefTraderContext) (raw : Fields) :
    (∃ given, prepare T now raw ctx = .ok given ∧ Returns ((texts "reason_codes").value T given)) ↔
      ∀ v, Dict.get "reason_codes" raw = some v →
        if entryAction T ((Dict.get "action" raw).getD (.str "NO_TRADE")) = "WAIT" then ReasonsListable v
        else (FieldType.texts.coerce T v).isSome = true := by
  have hcreated (d : Fields) : (texts "reason_codes").value T (Dict.setDefault "created_at" (.str now.isoformat) d) =
      (texts "reason_codes").value T d := value_congr (Dict.get_setDefault_of_ne (by decide) _ _)
  rw [prepare_eq]
  split_ifs with hwait
  · rw [← get_completed_reasons T now ctx, ← markWait_accepted (T := T)]
    simp only [bind_ok_iff]
    constructor
    · rintro ⟨given, ⟨marked, hmark, hgiven⟩, hreturns⟩
      obtain rfl := Except.ok.inj hgiven
      exact ⟨marked, hmark, hcreated marked ▸ hreturns⟩
    · rintro ⟨marked, hmark, hreturns⟩
      exact ⟨_, ⟨marked, hmark, rfl⟩, (hcreated marked).symm ▸ hreturns⟩
  · have hbind : (Except.ok (completed T now ctx raw) >>= fun given =>
        Except.ok (Dict.setDefault "created_at" (.str now.isoformat) given) : Except PyError Fields) =
          .ok (Dict.setDefault "created_at" (.str now.isoformat) (completed T now ctx raw)) := rfl
    simp only [hbind, Except.ok.injEq, exists_eq_left']
    rw [hcreated, value_returns]
    simp [texts, get_completed_reasons]

lemma type_of_reasons : ∀ f ∈ modelFields, f.name = "reason_codes" → f.type = .texts ∧ f.default.isSome = true := by
  decide +kernel

lemma type_of_action : ∀ f ∈ modelFields, f.name = "action" → f.type = .text := by
  decide +kernel

/-- The schema accepts an answer, once it is prepared, if and only if what it gives for each field fits. -/
lemma prepared_iff (T : TextFunctions) (now : Moment) (ctx : ChiefTraderContext) (raw : Fields) :
    (∃ given, prepare T now raw ctx = .ok given ∧ ∀ f ∈ modelFields, Returns (f.value T given)) ↔
      (∀ f ∈ modelFields, f.name ∉ ["action", "reason_codes"] → ∀ v, Dict.get f.name raw = some v →
        (f.type.coerce T v).isSome = true) ∧
      ∀ v, Dict.get "reason_codes" raw = some v →
        if entryAction T ((Dict.get "action" raw).getD (.str "NO_TRADE")) = "WAIT" then ReasonsListable v
        else (FieldType.texts.coerce T v).isSome = true := by
  rw [← reasons_prepared T now ctx]
  constructor
  · rintro ⟨given, hprepare, hall⟩
    exact ⟨fun f hf hn => (field_prepared hprepare hf hn).mp (hall f hf),
      given, hprepare, hall _ (by simp [modelFields])⟩
  · rintro ⟨hfields, given, hprepare, hreasons⟩
    refine ⟨given, hprepare, fun f hf => ?_⟩
    by_cases hn : f.name ∈ ["action", "reason_codes"]
    · rw [value_returns]
      simp only [List.mem_cons, List.not_mem_nil, or_false] at hn
      rcases hn with hn | hn
      · rw [hn, get_prepared_action hprepare, type_of_action f hf hn]
        simp [FieldType.coerce]
      · rw [value_returns] at hreasons
        obtain ⟨htype, hdefault⟩ := type_of_reasons f hf hn
        rw [hn, htype]
        exact ⟨hreasons.1, fun _ => hdefault⟩
    · exact (field_prepared hprepare hf hn).mpr (hfields f hf hn)

/-! ### The candidates -/

lemma mapM_fields_eq_ok {l : List PyValue} {cs : List Fields} : l.mapM PyValue.fields = .ok cs ↔ l = cs.map .dict := by
  have hcons (v : PyValue) (l : List PyValue) (cs : List Fields) : (v :: l).mapM PyValue.fields = .ok cs ↔
      ∃ c, v.fields = .ok c ∧ ∃ ds, l.mapM PyValue.fields = .ok ds ∧ c :: ds = cs := by
    have h := exists_mapM_cons PyValue.fields v l (fun ds => ds = cs)
    simpa only [exists_eq_right] using h
  induction l generalizing cs with
  | nil => simp [pure, Except.pure, eq_comm]
  | cons v l ih =>
    rw [hcons]
    constructor
    · rintro ⟨c, hc, ds, hds, rfl⟩
      cases v with
      | dict d =>
        obtain rfl := Except.ok.inj hc
        rw [ih.mp hds]
        rfl
      | _ => cases hc
    · intro h
      cases cs with
      | nil => cases h
      | cons c ds =>
        obtain ⟨rfl, rfl⟩ := List.cons.inj h
        exact ⟨c, rfl, ds, ih.mpr rfl, rfl⟩

/-- Only a list of objects is taken apart into candidates. -/
lemma items_fields_eq_ok {v : PyValue} (h : v.truthy = true) {cs : List Fields} :
    (∃ l, v.items = .ok l ∧ l.mapM PyValue.fields = .ok cs) ↔ v = .list (cs.map .dict) := by
  simp only [mapM_fields_eq_ok]
  cases v with
  | list l => simp [PyValue.items]
  | dict d =>
    cases d with
    | nil => cases h
    | cons e d => cases cs <;> simp [PyValue.items]
  | str s =>
    have hs : s.toList ≠ [] := by simpa [PyValue.truthy] using h
    cases hl : s.toList with
    | nil => exact absurd hl hs
    | cons c l => cases cs <;> simp [PyValue.items, hl]
  | none => simp [PyValue.items]
  | bool b => simp [PyValue.items]
  | int n => simp [PyValue.items]
  | float x => simp [PyValue.items]

lemma returns_scored (c : Fields) :
    Returns (scored T c) ↔ Returns (((Dict.get "fit_score" c).getD (.int 0)).toFloat T.numeral) := by
  rw [scored, returns_bind]
  exact ⟨fun ⟨x, hx, _⟩ => ⟨x, hx⟩, fun ⟨x, hx⟩ => ⟨x, hx, returns_ok _⟩⟩

lemma valueD_scored {c : Fields} (h : Returns (scored T c)) : valueD (scored T c) (.nan, []) = (fitScore T c, c) := by
  obtain ⟨x, hx⟩ := (returns_scored c).mp h
  rw [scored, fitScore, hx]
  rfl

/-- The best of the candidates can be selected. -/
lemma ranked_returns (cs : List Fields) (decision : Fields) :
    Returns (cs.mapM (scored T) >>= fun ranked => selectBest decision (firstMax ranked)) ↔
      (∀ c ∈ cs, Returns (((Dict.get "fit_score" c).getD (.int 0)).toFloat T.numeral)) ∧
        ∀ best, firstMax (cs.map (fun c => (fitScore T c, c))) = some best → Dict.get "strategy_id" best.2 ≠ none := by
  rw [returns_bind, exists_mapM (scored T) (.nan, []) cs]
  simp only [returns_scored]
  refine and_congr_right (fun h => ?_)
  have hmap : cs.map (fun c => valueD (scored T c) (.nan, [])) = cs.map (fun c => (fitScore T c, c)) :=
    List.map_congr_left (fun c hc => valueD_scored ((returns_scored c).mpr (h c hc)))
  rw [hmap]
  cases firstMax (cs.map (fun c => (fitScore T c, c))) with
  | none => simp [selectBest]
  | some best => cases hid : Dict.get "strategy_id" best.2 <;> simp [selectBest, hid]

lemma select_returns {decision : Fields} (h : (Dict.get "selected_strategy" decision).any PyValue.truthy = false) :
    Returns (selectStrategy T ctx decision) ↔ CandidatesRanked T ctx := by
  rw [selectStrategy, h, if_neg (by simp), returns_bind]
  simp only [ranked_returns]
  unfold directionalCandidates CandidatesRanked
  cases hget : Dict.get "strategy_candidates" ctx.strategyEvidence with
  | none => simp [PyValue.truthy, pure, Except.pure, firstMax]
  | some v =>
    cases ht : v.truthy with
    | false => simp [ht, pure, Except.pure, firstMax]
    | true =>
      simp only [Option.getD_some, ht, if_true, bind_ok_iff, Option.some.injEq, forall_eq', pure, Except.pure,
        Except.ok.injEq]
      simp only [← items_fields_eq_ok ht]
      constructor
      · rintro ⟨_, ⟨l, hl, cs, hcs, rfl⟩, hall⟩ -
        exact ⟨cs, ⟨l, hl, hcs⟩, hall⟩
      · intro hranked
        obtain ⟨cs, ⟨l, hl, hcs⟩, hall⟩ := hranked trivial
        exact ⟨_, ⟨l, hl, cs, hcs, rfl⟩, hall⟩

/-! ### The decision -/

lemma selected_accepted {raw given : Fields} (h : prepare T now raw ctx = .ok given)
    (hall : ∀ f ∈ modelFields, Returns (f.value T given)) :
    (Dict.get "selected_strategy" (accepted T given)).any PyValue.truthy =
      (Dict.get "selected_strategy" raw).any PyValue.truthy := by
  have hf : text "selected_strategy" ∈ modelFields := by simp [modelFields]
  obtain ⟨s, hs⟩ := get_prepared h (k := "selected_strategy") (by decide)
  rw [if_neg (by decide)] at hs
  obtain ⟨v, hv⟩ := hall _ hf
  have hget : Dict.get "selected_strategy" (accepted T given) = some v := by
    have hfield := get_accepted (T := T) given hf
    rwa [hv, valueD_ok] at hfield
  rw [hget]
  unfold Field.value at hv
  rw [show (text "selected_strategy").name = "selected_strategy" from rfl, hs] at hv
  cases hraw : Dict.get "selected_strategy" raw with
  | none =>
    rw [hraw] at hv
    obtain rfl := Except.ok.inj hv
    rfl
  | some w =>
    rw [hraw] at hv
    cases w with
    | str t =>
      obtain rfl := Except.ok.inj hv
      rfl
    | _ => cases hv

/-- An answer becomes a decision if and only if it conforms. -/
lemma parse_returns (T : TextFunctions) (now : Moment) (ctx : ChiefTraderContext) (raw : Fields) :
    Returns (parseDecision T now raw ctx) ↔ Conforms T ctx raw := by
  have hparse : parseDecision T now raw ctx = prepare T now raw ctx >>= fun given =>
      construct T given >>= selectStrategy T ctx := rfl
  have hselect {given : Fields} (h : prepare T now raw ctx = .ok given)
      (hall : ∀ f ∈ modelFields, Returns (f.value T given)) :
      Returns (selectStrategy T ctx (accepted T given)) ↔
        (Dict.get "selected_strategy" raw).any PyValue.truthy = true ∨ CandidatesRanked T ctx := by
    rw [← selected_accepted h hall]
    cases hsel : (Dict.get "selected_strategy" (accepted T given)).any PyValue.truthy with
    | true => simp [selectStrategy, hsel, pure, Except.pure]
    | false => simp [select_returns hsel]
  rw [hparse, returns_bind]
  simp only [returns_bind, construct_eq_ok]
  constructor
  · rintro ⟨given, hprepare, d, ⟨hall, rfl⟩, hreturns⟩
    obtain ⟨hfields, hreasons⟩ := (prepared_iff T now ctx raw).mp ⟨given, hprepare, hall⟩
    exact ⟨hfields, hreasons, (hselect hprepare hall).mp hreturns⟩
  · rintro ⟨hfields, hreasons, hstrategy⟩
    obtain ⟨given, hprepare, hall⟩ := (prepared_iff T now ctx raw).mpr ⟨hfields, hreasons⟩
    exact ⟨given, hprepare, _, ⟨hall, rfl⟩, (hselect hprepare hall).mpr hstrategy⟩

lemma selectBest_action {decision d : Fields} {best : Option (PyFloat × Fields)} (h : selectBest decision best = .ok d) :
    Dict.get "action" d = Dict.get "action" decision := by
  cases best with
  | none => rw [Except.ok.inj h]
  | some best =>
    rw [selectBest] at h
    split at h
    · cases h
    · rw [← Except.ok.inj h, Dict.get_alter_of_ne (by decide), Dict.get_alter_of_ne (by decide),
        Dict.get_alter_of_ne (by decide)]

lemma select_action {decision d : Fields} (h : selectStrategy T ctx decision = .ok d) :
    Dict.get "action" d = Dict.get "action" decision := by
  unfold selectStrategy at h
  split at h
  · rw [Except.ok.inj h]
  · obtain ⟨directional, -, h⟩ := bind_ok_iff.mp h
    obtain ⟨ranked, -, h⟩ := bind_ok_iff.mp h
    exact selectBest_action h

lemma accepted_action {given : Fields} {s : String} (h : Dict.get "action" given = some (.str s)) :
    Dict.get "action" (accepted T given) = some (.str s) := by
  have hf : required "action" ∈ modelFields := by simp [modelFields]
  have hvalue : (required "action").value T given = .ok (.str s) := by
    rw [Field.value, show (required "action").name = "action" from rfl, h]
    rfl
  have hget := get_accepted (T := T) given hf
  rwa [hvalue] at hget

lemma parse_action {raw d : Fields} (h : parseDecision T now raw ctx = .ok d) :
    Dict.get "action" d = some (.str (entryAction T ((Dict.get "action" raw).getD (.str "NO_TRADE")))) := by
  obtain ⟨given, hprepare, h⟩ := bind_ok_iff.mp h
  obtain ⟨decision, hconstruct, h⟩ := bind_ok_iff.mp h
  obtain ⟨-, rfl⟩ := construct_eq_ok.mp hconstruct
  rw [select_action h]
  exact accepted_action (get_prepared_action hprepare)

lemma entryAction_mem (v : PyValue) : entryAction T v ∈ ["LONG", "SHORT", "NO_TRADE", "WAIT"] := by
  cases v with
  | str s =>
    cases hget : Dict.get (T.upper s) actionAliases with
    | none => simp [entryAction, hget]
    | some action =>
      have hmem : ∀ e ∈ actionAliases, e.2 ∈ ["LONG", "SHORT", "NO_TRADE", "WAIT"] := by decide
      rw [entryAction, hget]
      exact hmem _ (Dict.mem_of_get hget)
  | _ => simp [entryAction]

/-- An entry is asked for by an alias of one. -/
lemma entryAction_entry {v : PyValue} (h : entryAction T v ∈ ["LONG", "SHORT"]) :
    ∃ s, v = .str s ∧ T.upper s ∈ entryAliases := by
  cases v with
  | str s =>
    refine ⟨s, rfl, ?_⟩
    cases hget : Dict.get (T.upper s) actionAliases with
    | none => simp [entryAction, hget] at h
    | some action =>
      have hmem : ∀ e ∈ actionAliases, e.2 ∈ ["LONG", "SHORT"] → e.1 ∈ entryAliases := by decide
      rw [entryAction, hget] at h
      exact hmem _ (Dict.mem_of_get hget) h
  | _ => simp [entryAction] at h

def failTexts : List String :=
  ["decision_id", "symbol", "action", "market_regime", "llm_invocation_id", "thesis", "model_version", "created_at"]

lemma type_of_failText : ∀ f ∈ modelFields, f.name ∈ failTexts → f.type = .text := by
  decide +kernel

/-- The decision without an answer is always made. -/
lemma fail_decision (T : TextFunctions) (now : Moment) (ctx : ChiefTraderContext) (id : String) :
    ∃ d, failDecision T now ctx id = .ok d ∧ Dict.get "action" d = some (.str "NO_TRADE") := by
  refine ⟨_, construct_eq_ok.mpr ⟨fun f hf => ?_, rfl⟩, accepted_action rfl⟩
  rw [value_returns]
  refine ⟨fun v hv => ?_, fun hnone => ?_⟩
  · have hmem := Dict.mem_of_get hv
    by_cases hcodes : f.name = "reason_codes"
    · rw [hcodes] at hmem
      have hlist : v = .list [.str "LLM_UNAVAILABLE"] := by simpa using hmem
      rw [(type_of_reasons f hf hcodes).1, hlist]
      rfl
    · have htext : f.name ∈ failTexts ∧ ∃ s, v = .str s := by
        simp only [List.mem_cons, Prod.mk.injEq, List.not_mem_nil, or_false] at hmem
        rcases hmem with h | h | h | h | h | h | h | h | h
        all_goals first
          | exact absurd h.1 hcodes
          | exact ⟨by rw [h.1]; decide, _, h.2⟩
      obtain ⟨hname, s, rfl⟩ := htext
      rw [type_of_failText f hf hname]
      rfl
  · refine default_of_not_set f hf (fun hset => ?_)
    simp only [List.mem_cons, List.not_mem_nil, or_false] at hset
    rcases hset with h | h | h | h | h
    all_goals
      rw [h] at hnone
      cases hnone

/-- An answer with content fails safe if and only if it conforms. -/
lemma failsSafe_answer (T : TextFunctions) (now : Moment) (ctx : ChiefTraderContext) {raw : Fields} (hraw : raw ≠ [])
    (id : String) : FailsSafe T now ctx (.responds ⟨true, some raw, id⟩) ↔ Conforms T ctx raw := by
  have hdecide : decide T now ctx (.responds ⟨true, some raw, id⟩) =
      (parseDecision T now raw ctx).mapError .python >>= fun decision =>
        .ok (Dict.alter "llm_invocation_id" (fun _ => .str id) decision) := by
    cases raw with
    | nil => exact absurd rfl hraw
    | cons entry raw => rfl
  rw [← parse_returns T now]
  unfold FailsSafe
  rw [hdecide]
  constructor
  · rintro ⟨d, action, h, -⟩
    cases hparse : parseDecision T now raw ctx with
    | ok decision => exact returns_ok decision
    | error e =>
      rw [hparse] at h
      cases h
  · rintro ⟨decision, hparse⟩
    refine ⟨_, entryAction T ((Dict.get "action" raw).getD (.str "NO_TRADE")), by rw [hparse]; rfl, ?_, entryAction_mem _, ?_⟩
    · rw [Dict.get_alter_of_ne (by decide)]
      exact parse_action hparse
    · intro hentry
      obtain ⟨s, hs, halias⟩ := entryAction_entry hentry
      refine ⟨_, _, s, rfl, rfl, rfl, ?_, halias⟩
      cases hget : Dict.get "action" raw with
      | none =>
        rw [hget] at hs
        obtain rfl : "NO_TRADE" = s := PyValue.str.inj hs
        rw [T.upper_noTrade] at halias
        exact absurd halias (by decide)
      | some v =>
        rw [hget] at hs
        rw [show v = .str s from hs]

/-- The engine fails safe if and only if the provider returns, and conforms where its answer is used. -/
theorem fails_safe_iff (T : TextFunctions) (now : Moment) (ctx : ChiefTraderContext) (b : ProviderBehaviour) :
    FailsSafe T now ctx b ↔ SafeInput T ctx b := by
  have hfail (id : String) (h : decide T now ctx b = (failDecision T now ctx id).mapError .python) :
      FailsSafe T now ctx b := by
    obtain ⟨d, hd, haction⟩ := fail_decision T now ctx id
    rw [hd] at h
    exact ⟨d, "NO_TRADE", h, haction, by decide, fun hentry => absurd hentry (by decide)⟩
  cases b with
  | absent => exact ⟨fun _ => trivial, fun _ => hfail "" rfl⟩
  | raises =>
    refine ⟨?_, fun h => h.elim⟩
    rintro ⟨d, action, h, -⟩
    cases h
  | responds response =>
    obtain ⟨ok, parsed, id⟩ := response
    cases ok with
    | false =>
      refine ⟨fun _ h => ?_, fun _ => hfail id rfl⟩
      cases h
    | true =>
      match parsed with
      | none =>
        refine ⟨fun _ _ raw h => ?_, fun _ => hfail id rfl⟩
        cases h
      | some [] =>
        refine ⟨fun _ _ raw h hne => ?_, fun _ => hfail id rfl⟩
        obtain rfl := Option.some.inj h
        exact absurd rfl hne
      | some (entry :: raw) =>
        have hsafe : SafeInput T ctx (.responds ⟨true, some (entry :: raw), id⟩) ↔ Conforms T ctx (entry :: raw) := by
          simp [SafeInput]
        rw [hsafe]
        exact failsSafe_answer T now ctx (List.cons_ne_nil entry raw) id

def plainContext : ChiefTraderContext := ⟨"BTC-USDT", "RANGE", []⟩

def plainTexts : TextFunctions := ⟨String.toUpper, fun _ => none, fun _ => none, by decide +kernel⟩

/-- `{"action": "WAIT", "reason_codes": null}`. -/
def nullCodes : Fields := [("action", .str "WAIT"), ("reason_codes", .none)]

/-- Where there are no reason codes, the marker cannot be looked for. -/
theorem null_codes_escape :
    decide plainTexts ⟨"0", "now"⟩ plainContext (.responds ⟨true, some nullCodes, ""⟩) = .error (.python .typeError) ∧
      ¬ FailsSafe plainTexts ⟨"0", "now"⟩ plainContext (.responds ⟨true, some nullCodes, ""⟩) := by
  have hwait : entryAction plainTexts ((Dict.get "action" nullCodes).getD (.str "NO_TRADE")) = "WAIT" := by
    decide +kernel
  have hprepare : prepare plainTexts ⟨"0", "now"⟩ nullCodes plainContext = .error .typeError := by
    rw [prepare_eq, if_pos hwait, markWait, Dict.get_setDefault_self, get_completed_reasons]
    rfl
  have hraises : decide plainTexts ⟨"0", "now"⟩ plainContext (.responds ⟨true, some nullCodes, ""⟩) =
      .error (.python .typeError) := by
    change ((prepare plainTexts ⟨"0", "now"⟩ nullCodes plainContext >>= _).mapError DecideError.python >>= _) = _
    rw [hprepare]
    rfl
  refine ⟨hraises, ?_⟩
  rintro ⟨d, action, h, -⟩
  rw [hraises] at h
  cases h

end Parsing

end LLMChief

end CryptoTrader
