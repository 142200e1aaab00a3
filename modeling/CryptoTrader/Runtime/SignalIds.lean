import CryptoTrader.Runtime.Signal

/-!
# Signals and their client order ids

`process_signal` joins the strategy's id and the signal's with an underscore and keeps sixty
characters; `_signal_from_client` of `runtime/exploration_analytics.py` takes the chief trader's
signal out again. Which signals share an id, and which are found again: `client_order_ids_iff`.
-/

namespace CryptoTrader

def chiefStrategy : String := "llm_chief_trader"

def signalFromClient (clientOrderId : String) : String :=
  let marker := chiefStrategy ++ "_"
  if marker.toList <+: clientOrderId.toList then String.ofList (clientOrderId.toList.drop marker.length) else ""

/-- The text of which a client order id is the beginning. -/
def fullOrderId (signal : SignalIntent) : String :=
  s!"{signal.strategyId}_{signal.signalId}"

/-- The strategy id of `b` is that of `a`, an underscore and a piece with which the signal id of
`a` begins, up to an underscore; the rest is the signal id of `b`. -/
def Shifted (a b : SignalIntent) : Prop :=
  ∃ piece, b.strategyId = a.strategyId ++ "_" ++ piece ∧ a.signalId = piece ++ "_" ++ b.signalId

/-- The texts differ, but not in their first sixty characters. -/
def CutAlike (a b : SignalIntent) : Prop :=
  ∃ common x y : String, common.length = 60 ∧ x ≠ y ∧ fullOrderId a = common ++ x ∧ fullOrderId b = common ++ y

/-! ### Joined texts -/

section Joined

variable {α : Type}

/-- Two joined texts are equal if the first parts are, or one of them goes on behind the separator. -/
lemma append_cons_eq_iff (sep : α) (s t x y : List α) : s ++ sep :: x = t ++ sep :: y ↔
    s = t ∧ x = y ∨ (∃ u, t = s ++ sep :: u ∧ x = u ++ sep :: y) ∨ ∃ u, s = t ++ sep :: u ∧ y = u ++ sep :: x := by
  constructor
  · intro h
    rcases List.append_eq_append_iff.mp h with ⟨u, ht, hx⟩ | ⟨u, hs, hy⟩
    · cases u with
      | nil =>
        rw [List.append_nil] at ht
        exact .inl ⟨ht.symm, (List.cons.inj hx).2⟩
      | cons c u =>
        obtain ⟨rfl, hrest⟩ := List.cons.inj hx
        exact .inr (.inl ⟨u, ht, hrest⟩)
    · cases u with
      | nil =>
        rw [List.append_nil] at hs
        exact .inl ⟨hs, ((List.cons.inj hy).2).symm⟩
      | cons c u =>
        obtain ⟨rfl, hrest⟩ := List.cons.inj hy
        exact .inr (.inr ⟨u, hs, hrest⟩)
  · rintro (⟨rfl, rfl⟩ | ⟨u, rfl, rfl⟩ | ⟨u, rfl, rfl⟩)
    · rfl
    · simp
    · simp

/-- Lists begin alike if they are equal or differ after that. -/
lemma take_eq_take_iff (n : ℕ) (xs ys : List α) : xs.take n = ys.take n ↔
    xs = ys ∨ ∃ common x y, common.length = n ∧ x ≠ y ∧ xs = common ++ x ∧ ys = common ++ y := by
  constructor
  · intro h
    by_cases heq : xs = ys
    · exact .inl heq
    · have hrest : xs.drop n ≠ ys.drop n := by
        intro hdrop
        apply heq
        rw [← List.take_append_drop n xs, ← List.take_append_drop n ys, h, hdrop]
      refine .inr ⟨xs.take n, xs.drop n, ys.drop n, ?_, hrest, (List.take_append_drop n xs).symm, ?_⟩
      · by_contra hshort
        rw [List.length_take] at hshort
        have hlength := congrArg List.length h
        rw [List.length_take, List.length_take] at hlength
        apply hrest
        rw [List.drop_eq_nil_of_le (by omega), List.drop_eq_nil_of_le (by omega)]
      · rw [h, List.take_append_drop]
  · rintro (rfl | ⟨common, x, y, rfl, -, rfl, rfl⟩)
    · rfl
    · rw [List.take_left, List.take_left]

end Joined

/-! ### Two signals -/

section Signals

variable (a b : SignalIntent)

lemma toList_fullOrderId : (fullOrderId a).toList = a.strategyId.toList ++ '_' :: a.signalId.toList := by
  simp [fullOrderId, toString]

lemma shifted_iff : Shifted a b ↔ ∃ u, b.strategyId.toList = a.strategyId.toList ++ '_' :: u ∧
    a.signalId.toList = u ++ '_' :: b.signalId.toList := by
  constructor
  · rintro ⟨piece, hstrategy, hsignal⟩
    refine ⟨piece.toList, ?_, ?_⟩
    · simp [hstrategy]
    · simp [hsignal]
  · rintro ⟨u, hstrategy, hsignal⟩
    refine ⟨String.ofList u, ?_, ?_⟩
    · apply String.toList_inj.mp
      simp [hstrategy]
    · apply String.toList_inj.mp
      simp [hsignal]

lemma fullOrderId_eq_iff : fullOrderId a = fullOrderId b ↔
    (a.strategyId = b.strategyId ∧ a.signalId = b.signalId) ∨ Shifted a b ∨ Shifted b a := by
  rw [← String.toList_inj, toList_fullOrderId, toList_fullOrderId, append_cons_eq_iff, shifted_iff, shifted_iff,
    String.toList_inj, String.toList_inj]

lemma cutAlike_iff : CutAlike a b ↔ ∃ common x y, common.length = 60 ∧ x ≠ y ∧
    (fullOrderId a).toList = common ++ x ∧ (fullOrderId b).toList = common ++ y := by
  constructor
  · rintro ⟨common, x, y, hlength, hne, ha, hb⟩
    refine ⟨common.toList, x.toList, y.toList, String.length_toList.trans hlength, mt String.toList_inj.mp hne, ?_, ?_⟩
    · rw [ha, String.toList_append]
    · rw [hb, String.toList_append]
  · rintro ⟨common, x, y, hlength, hne, ha, hb⟩
    refine ⟨String.ofList common, String.ofList x, String.ofList y, by simpa using hlength, ?_, ?_, ?_⟩
    · intro h
      exact hne (String.ofList_injective h)
    · apply String.toList_inj.mp
      simp [ha]
    · apply String.toList_inj.mp
      simp [hb]

lemma clientOrderId_eq_iff : clientOrderId a = clientOrderId b ↔ fullOrderId a = fullOrderId b ∨ CutAlike a b := by
  have hinjective : clientOrderId a = clientOrderId b ↔
      (fullOrderId a).toList.take 60 = (fullOrderId b).toList.take 60 :=
    String.ofList_inj
  rw [hinjective, take_eq_take_iff, cutAlike_iff, String.toList_inj]

variable {a b}

lemma Shifted.strategy_ne (h : Shifted a b) : a.strategyId ≠ b.strategyId := by
  obtain ⟨u, hstrategy, -⟩ := (shifted_iff a b).mp h
  intro heq
  rw [heq] at hstrategy
  have hlength := congrArg List.length hstrategy
  simp at hlength

lemma CutAlike.fullOrderId_ne (h : CutAlike a b) : fullOrderId a ≠ fullOrderId b := by
  obtain ⟨common, x, y, -, hne, ha, hb⟩ := h
  intro heq
  rw [ha, hb, String.append_right_inj] at heq
  exact hne heq

end Signals

/-- The chief trader's signal is found again if its id has at most 43 characters. -/
lemma signalFromClient_iff (signal : SignalIntent) :
    signalFromClient (clientOrderId { signal with strategyId := chiefStrategy }) = signal.signalId ↔
      signal.signalId.length ≤ 43 := by
  have hid : (clientOrderId { signal with strategyId := chiefStrategy }).toList =
      (chiefStrategy ++ "_").toList ++ signal.signalId.toList.take 43 := by
    simp only [clientOrderId, String.toList_ofList]
    have hfull : (s!"{chiefStrategy}_{signal.signalId}").toList = (chiefStrategy ++ "_").toList ++ signal.signalId.toList := by
      simp [toString]
    rw [hfull, List.take_append]
    rfl
  have hmarker : (chiefStrategy ++ "_").length = (chiefStrategy ++ "_").toList.length := rfl
  rw [signalFromClient, hid, if_pos (List.prefix_append _ _), hmarker, List.drop_left, ← String.toList_inj,
    String.toList_ofList, List.take_eq_self_iff, String.length_toList]

/-- Two signals have ids of their own exactly if the underscore does not move and sixty
characters tell them apart; the chief trader's signal is found again exactly up to 43 characters. -/
theorem client_order_ids_iff (a b signal : SignalIntent) :
    ((clientOrderId a = clientOrderId b → a.strategyId = b.strategyId ∧ a.signalId = b.signalId) ↔
      ¬ Shifted a b ∧ ¬ Shifted b a ∧ ¬ CutAlike a b) ∧
    (signalFromClient (clientOrderId { signal with strategyId := chiefStrategy }) = signal.signalId ↔
      signal.signalId.length ≤ 43) := by
  refine ⟨?_, signalFromClient_iff signal⟩
  rw [clientOrderId_eq_iff, fullOrderId_eq_iff]
  constructor
  · intro h
    refine ⟨fun hshifted => ?_, fun hshifted => ?_, fun hcut => ?_⟩
    · exact hshifted.strategy_ne (h (.inl (.inr (.inl hshifted)))).1
    · exact hshifted.strategy_ne (h (.inl (.inr (.inr hshifted)))).1.symm
    · have hsame := h (.inr hcut)
      exact hcut.fullOrderId_ne ((fullOrderId_eq_iff a b).mpr (.inl hsame))
  · rintro ⟨hab, hba, hcut⟩ ((hsame | h | h) | h)
    · exact hsame
    · exact absurd h hab
    · exact absurd h hba
    · exact absurd h hcut

def namedSignal (strategyId signalId : String) : SignalIntent where
  signalId := signalId
  strategyId := strategyId
  symbol := "BTCUSDT"
  side := .buy
  quantity := 1

/-- A signal `retest_1` of the strategy `breakout` has the id of a signal `1` of `breakout_retest`;
of a signal id with 44 characters the last one is lost. -/
theorem retest_signal_shares_id :
    clientOrderId (namedSignal "breakout" "retest_1") = clientOrderId (namedSignal "breakout_retest" "1") ∧
      (namedSignal "breakout" "retest_1").strategyId ≠ (namedSignal "breakout_retest" "1").strategyId ∧
      let long := namedSignal chiefStrategy "llm_0123456789012345678901234567890123456789"
      signalFromClient (clientOrderId long) = "llm_012345678901234567890123456789012345678" ∧
        signalFromClient (clientOrderId long) ≠ long.signalId := by
  decide +kernel

end CryptoTrader
