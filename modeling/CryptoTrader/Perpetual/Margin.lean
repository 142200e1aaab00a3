import CryptoTrader.Perpetual.Operations
import Mathlib.Tactic.FieldSimp
import Mathlib.Tactic.Ring

/-!
# Margin posted, held and released

The margin of the open positions in its three forms: the balance of the replay, the field
of each position, and the ledger account MARGIN:symbol. A close takes the same amount out
of all three. An open adds the posted margin to the balance and the account; it adds it to
the position unless it nets one of the other side.
-/

namespace CryptoTrader

open KeyedTable Weights Runs FuturesSnapshot

/-- The margin of a symbol's position, 0 without one. -/
def FuturesSnapshot.margin (snap : FuturesSnapshot) (symbol : String) : ℚ :=
  rowWeight MarginPosition.symbol MarginPosition.initialMargin symbol snap.positions

/-- The three forms of the margin agree. -/
structure MarginAgrees (ledger : Ledger) : Prop where
  balance : (rebuildFuturesProjection ledger).marginBalance =
    weight MarginPosition.initialMargin (rebuildFuturesProjection ledger).positions
  account : ∀ symbol, accountDebit (.marginOf symbol) ledger = (rebuildFuturesProjection ledger).margin symbol

/-- One position a symbol, no negative margin, and none on a flat position. -/
structure MarginSound (snap : FuturesSnapshot) : Prop where
  unique : (snap.positions.map MarginPosition.symbol).Nodup
  nonneg : ∀ pos ∈ snap.positions, 0 ≤ pos.initialMargin
  flat : ∀ pos ∈ snap.positions, pos.isFlat → pos.initialMargin = 0

/-! ### The MARGIN account of each transaction -/

lemma margin_openTransaction (contract : PerpetualContract) (side : PositionSide) (quantity price leverage : ℚ)
    (orderId : Option String) (id symbol : String) :
    accountDebit (.marginOf symbol) [openTransaction contract side quantity price leverage orderId id] =
      if symbol = contract.symbol then postedMargin contract quantity price leverage else 0 := by
  simp [openTransaction, openPostings, LedgerPosting.signed, eq_comm]

lemma margin_closeTransaction (contract : PerpetualContract) (side : PositionSide)
    (quantity entryPrice exitPrice realizedPnl fee marginRelease : ℚ) (orderId : Option String) (id symbol : String) :
    accountDebit (.marginOf symbol)
        [closeTransaction contract side quantity entryPrice exitPrice realizedPnl fee marginRelease orderId id] =
      if symbol = contract.symbol then -(max marginRelease 0) else 0 := by
  rw [accountDebit_single, closeTransaction,
    netDebit_closePostings _ (fun a => if a = .marginOf symbol then 1 else 0) contract (fun p _ => by simp)]
  by_cases hsymbol : symbol = contract.symbol
  · simp [hsymbol]
  · simp [hsymbol, Ne.symm hsymbol]

lemma margin_fundingTransaction (contract : PerpetualContract) (side : PositionSide) (amount rate notional : ℚ)
    (id symbol : String) :
    accountDebit (.marginOf symbol) [fundingTransaction contract side amount rate notional id] = 0 := by
  rw [accountDebit_single, fundingTransaction, fundingPostings]
  split <;> simp

/-! ### The margin an open leaves on the position -/

lemma signedQty_eq_zero {side : PositionSide} {x : ℚ} (h : signedQty side x = 0) : x = 0 := by
  unfold signedQty at h
  split at h
  · exact h
  · exact neg_eq_zero.mp h

section Open

variable (side : PositionSide) (qty entry lev margin : ℚ)

lemma netPosition_margin {pos : MarginPosition} (hmargin : 0 ≤ pos.initialMargin) :
    (netPosition pos side qty entry margin).initialMargin =
      if qty < |pos.quantity| then pos.initialMargin * (|pos.quantity| - qty) / |pos.quantity|
      else if qty = |pos.quantity| then 0 else margin := by
  unfold netPosition
  by_cases hlt : qty < |pos.quantity|
  · have hnonneg : 0 ≤ pos.initialMargin * (|pos.quantity| - qty) / |pos.quantity| :=
      div_nonneg (mul_nonneg hmargin (sub_nonneg.mpr hlt.le)) (abs_nonneg _)
    simp only [if_neg (not_le.mpr hlt), if_pos hlt, max_eq_left hnonneg]
  · simp only [if_pos (not_lt.mp hlt), if_neg hlt, sub_eq_zero]
    split <;> rfl

/-- With no negative margin, an open that nets leaves old and posted margin on the position
only if it nets no margin. -/
lemma netPosition_margin_iff {pos : MarginPosition} (hmargin : 0 ≤ pos.initialMargin) (hq : pos.quantity ≠ 0)
    (hqty : 0 ≤ qty) (hm : 0 ≤ margin) (h0 : qty = 0 → margin = 0) :
    (netPosition pos side qty entry margin).initialMargin = pos.initialMargin + margin ↔
      qty = 0 ∨ pos.initialMargin = 0 ∧ (margin = 0 ∨ |pos.quantity| < qty) := by
  have hpos : 0 < |pos.quantity| := abs_pos.mpr hq
  rw [netPosition_margin side qty entry margin hmargin]
  by_cases hlt : qty < |pos.quantity|
  · rw [if_pos hlt]
    have hsplit : pos.initialMargin * (|pos.quantity| - qty) / |pos.quantity| =
        pos.initialMargin - pos.initialMargin * qty / |pos.quantity| := by
      field_simp
    have hnetted : 0 ≤ pos.initialMargin * qty / |pos.quantity| :=
      div_nonneg (mul_nonneg hmargin hqty) hpos.le
    rw [hsplit]
    constructor
    · intro h
      have hzero : pos.initialMargin * qty / |pos.quantity| = 0 := by linarith
      have hmargin0 : margin = 0 := by linarith
      rcases mul_eq_zero.mp ((div_eq_zero_iff.mp hzero).resolve_right hpos.ne') with h | h
      · exact .inr ⟨h, .inl hmargin0⟩
      · exact .inl h
    · rintro (h | ⟨h, hm | hgt⟩)
      · rw [h0 h, h]
        simp
      · rw [h, hm]
        simp
      · exact absurd hgt hlt.asymm
  · rw [if_neg hlt]
    have hne : qty ≠ 0 := fun h => hlt (h ▸ hpos)
    by_cases heq : qty = |pos.quantity|
    · rw [if_pos heq]
      constructor
      · intro h
        exact .inr ⟨by linarith, .inl (by linarith)⟩
      · rintro (h | ⟨h, hm | hgt⟩)
        · exact absurd h hne
        · rw [h, hm, add_zero]
        · exact absurd heq hgt.ne'
    · rw [if_neg heq]
      have hgt : |pos.quantity| < qty := lt_of_le_of_ne (not_lt.mp hlt) (Ne.symm heq)
      constructor
      · intro h
        exact .inr ⟨by linarith, .inr hgt⟩
      · rintro (h | ⟨h, -⟩)
        · exact absurd h hne
        · rw [h, zero_add]

lemma netPosition_sound {pos : MarginPosition} (hflat : ¬ pos.isFlat) (hmargin : 0 ≤ pos.initialMargin)
    (hside : side ≠ .flat) (hm : 0 ≤ margin) :
    0 ≤ (netPosition pos side qty entry margin).initialMargin ∧
      ((netPosition pos side qty entry margin).isFlat → (netPosition pos side qty entry margin).initialMargin = 0) := by
  obtain ⟨hpside, hq⟩ := MarginPosition.side_ne_flat hflat
  have hpos : 0 < |pos.quantity| := abs_pos.mpr hq
  have hsigned (s : PositionSide) {x : ℚ} (hx : x ≠ 0) : signedQty s x ≠ 0 := fun h => hx (signedQty_eq_zero h)
  rw [netPosition_margin side qty entry margin hmargin]
  by_cases hlt : qty < |pos.quantity|
  · rw [if_pos hlt]
    refine ⟨div_nonneg (mul_nonneg hmargin (sub_nonneg.mpr hlt.le)) hpos.le, fun hf => ?_⟩
    have hnet : (netPosition pos side qty entry margin).isFlat = false := by
      simp [netPosition, not_le.mpr hlt, MarginPosition.isFlat, hpside, hsigned _ (sub_pos.mpr hlt).ne']
    rw [hnet] at hf
    exact absurd hf Bool.false_ne_true
  · rw [if_neg hlt]
    by_cases heq : qty = |pos.quantity|
    · rw [if_pos heq]
      exact ⟨le_rfl, fun _ => rfl⟩
    · rw [if_neg heq]
      refine ⟨hm, fun hf => ?_⟩
      have hnet : (netPosition pos side qty entry margin).isFlat = false := by
        simp [netPosition, not_lt.mp hlt, sub_eq_zero, heq, MarginPosition.isFlat, hside, hsigned _ (sub_ne_zero.mpr heq)]
      rw [hnet] at hf
      exact absurd hf Bool.false_ne_true

end Open

/-- The position of an open that finds none, or a flat one. -/
def newPosition (symbol : String) (side : PositionSide) (qty entry lev margin : ℚ) : MarginPosition where
  symbol := symbol
  side := side
  quantity := signedQty side qty
  avgEntryPrice := entry
  leverage := lev
  initialMargin := margin

section Snapshots

variable {snap : FuturesSnapshot} {symbol : String} {side : PositionSide} {qty margin : ℚ} (entry lev : ℚ)

/-- An open of this quantity and margin does not net a position that has margin, nor does
it post margin that it nets. -/
def NetsNoMargin (old : Option MarginPosition) (side : PositionSide) (qty margin : ℚ) : Prop :=
  ∀ pos, old = some pos → ¬ pos.isFlat → pos.side ≠ side →
    qty = 0 ∨ pos.initialMargin = 0 ∧ (margin = 0 ∨ |pos.quantity| < qty)

lemma openedPosition_margin (symbol : String) (hsound : MarginSound snap) (hside : side ≠ .flat) (hqty : 0 ≤ qty)
    (hm : 0 ≤ margin) (h0 : qty = 0 → margin = 0) :
    let pos := openedPosition (snap.position symbol) symbol side qty entry lev margin
    0 ≤ pos.initialMargin ∧ (pos.isFlat → pos.initialMargin = 0) ∧
      (pos.initialMargin = snap.margin symbol + margin ↔ NetsNoMargin (snap.position symbol) side qty margin) := by
  have hfresh : (newPosition symbol side qty entry lev margin).isFlat → margin = 0 := by
    intro hf
    exact h0 (signedQty_eq_zero ((MarginPosition.isFlat_iff.mp hf).resolve_left hside))
  intro pos
  cases hp : snap.position symbol with
  | none =>
    have hpos : pos = newPosition symbol side qty entry lev margin := by simp only [pos, hp, openedPosition, newPosition]
    have hold : snap.margin symbol = 0 := by
      unfold FuturesSnapshot.margin rowWeight
      rw [show row MarginPosition.symbol symbol snap.positions = none from hp]
      rfl
    rw [hpos, hold, zero_add]
    exact ⟨hm, hfresh, iff_of_true rfl (fun q hq => absurd hq (by simp))⟩
  | some old =>
    have hmem : old ∈ snap.positions := (row_some hp).1
    have hold : snap.margin symbol = old.initialMargin := by
      unfold FuturesSnapshot.margin rowWeight
      rw [show row MarginPosition.symbol symbol snap.positions = some old from hp]
      rfl
    rw [hold]
    by_cases hflat : old.isFlat
    · have hpos : pos = newPosition symbol side qty entry lev margin := by
        simp only [pos, hp, openedPosition, newPosition, hflat, if_true]
      rw [hpos, hsound.flat old hmem hflat, zero_add]
      refine ⟨hm, hfresh, iff_of_true rfl (fun q hq hnot => ?_)⟩
      exact absurd hflat (Option.some.inj hq ▸ hnot)
    · by_cases hsame : old.side = side
      · have hpos : pos = addToPosition old side qty entry margin := by
          simp only [pos, hp, openedPosition, hflat, hsame, if_true, Bool.false_eq_true, if_false]
        have hq : 0 < |old.quantity| + qty := by
          have := abs_pos.mpr (MarginPosition.side_ne_flat hflat).2
          positivity
        rw [hpos]
        refine ⟨add_nonneg (hsound.nonneg old hmem) hm, fun hf => ?_, iff_of_true rfl (fun q hq _ hne => ?_)⟩
        · have hzero : signedQty side (|old.quantity| + qty) = 0 :=
            (MarginPosition.isFlat_iff.mp hf).resolve_left (MarginPosition.side_ne_flat hflat).1
          exact absurd (signedQty_eq_zero hzero) hq.ne'
        · exact absurd hsame (Option.some.inj hq ▸ hne)
      · have hpos : pos = netPosition old side qty entry margin := by
          simp only [pos, hp, openedPosition, hflat, hsame, Bool.false_eq_true, if_false]
        have hnet := netPosition_sound side qty entry margin hflat (hsound.nonneg old hmem) hside hm
        rw [hpos, netPosition_margin_iff side qty entry margin (hsound.nonneg old hmem)
          (MarginPosition.side_ne_flat hflat).2 hqty hm h0]
        refine ⟨hnet.1, hnet.2, fun h q hq _ _ => Option.some.inj hq ▸ h, fun h => h old rfl hflat hsame⟩

lemma MarginSound.applyOpen (symbol : String) (hsound : MarginSound snap) (hside : side ≠ .flat) (hqty : 0 ≤ qty) (hm : 0 ≤ margin)
    (h0 : qty = 0 → margin = 0) : MarginSound (snap.applyOpen symbol side qty entry lev margin) := by
  obtain ⟨hnonneg, hflat, -⟩ := openedPosition_margin entry lev symbol hsound hside hqty hm h0
  refine ⟨nodup_upsert hsound.unique _, fun pos hpos => ?_, fun pos hpos => ?_⟩
  · rcases mem_upsert hpos with rfl | hmem
    · exact hnonneg
    · exact hsound.nonneg pos hmem
  · rcases mem_upsert hpos with rfl | hmem
    · exact hflat
    · exact hsound.flat pos hmem

lemma margin_applyOpen_self :
    (snap.applyOpen symbol side qty entry lev margin).margin symbol =
      (openedPosition (snap.position symbol) symbol side qty entry lev margin).initialMargin := by
  have hpos := snap.position_applyOpen symbol side qty entry lev margin
  unfold FuturesSnapshot.margin rowWeight
  rw [show row MarginPosition.symbol symbol (snap.applyOpen symbol side qty entry lev margin).positions =
    some (openedPosition (snap.position symbol) symbol side qty entry lev margin) from hpos]
  rfl

lemma margin_applyOpen_of_ne {other : String} (h : other ≠ symbol) :
    (snap.applyOpen symbol side qty entry lev margin).margin other = snap.margin other := by
  have hpos := snap.position_applyOpen_of_ne side qty entry lev margin h
  unfold FuturesSnapshot.margin rowWeight
  rw [show row MarginPosition.symbol other (snap.applyOpen symbol side qty entry lev margin).positions =
    row MarginPosition.symbol other snap.positions from hpos]

lemma weight_applyOpen (symbol : String) (hsound : MarginSound snap) :
    weight MarginPosition.initialMargin (snap.applyOpen symbol side qty entry lev margin).positions =
      weight MarginPosition.initialMargin snap.positions +
        (openedPosition (snap.position symbol) symbol side qty entry lev margin).initialMargin - snap.margin symbol := by
  have hsym := snap.openedPosition_symbol symbol side qty entry lev margin
  have hweight := weight_upsert MarginPosition.initialMargin hsound.unique
    (openedPosition (snap.position symbol) symbol side qty entry lev margin)
  rwa [hsym] at hweight

/-- A close of a position that releases no more than its margin, and all of it with the
last of the quantity. -/
structure Releases (pos : MarginPosition) (qty marginRelease : ℚ) : Prop where
  nonneg : 0 ≤ marginRelease
  le : marginRelease ≤ pos.initialMargin
  all : |pos.quantity| ≤ qty → marginRelease = pos.initialMargin

variable {pos : MarginPosition} {marginRelease : ℚ}

lemma reducedPosition_margin (hrel : Releases pos qty marginRelease) :
    (reducedPosition pos qty marginRelease).initialMargin = pos.initialMargin - marginRelease :=
  max_eq_left (sub_nonneg.mpr hrel.le)

lemma margin_of_position (hp : snap.position symbol = some pos) : snap.margin symbol = pos.initialMargin := by
  unfold FuturesSnapshot.margin rowWeight
  rw [show row MarginPosition.symbol symbol snap.positions = some pos from hp]
  rfl

lemma MarginSound.applyClose (hsound : MarginSound snap) (hp : snap.position symbol = some pos)
    (hrel : Releases pos qty marginRelease) (realizedPnl : ℚ) :
    MarginSound (snap.applyClose symbol qty realizedPnl marginRelease) := by
  obtain ⟨hmem, hsym⟩ := row_some hp
  rw [applyClose_of_some hp]
  by_cases hfull : |pos.quantity| - qty ≤ 0
  · simp only [if_pos hfull]
    exact ⟨nodup_filter hsound.unique _, fun p hp => hsound.nonneg p (List.mem_of_mem_filter hp),
      fun p hp => hsound.flat p (List.mem_of_mem_filter hp)⟩
  · simp only [if_neg hfull]
    have hmargin := reducedPosition_margin hrel
    have hflat : (reducedPosition pos qty marginRelease).isFlat →
        (reducedPosition pos qty marginRelease).initialMargin = 0 := by
      intro hf
      have hside : pos.side = .flat := by
        by_contra hside
        have hzero : signedQty pos.side (|pos.quantity| - qty) = 0 :=
          (MarginPosition.isFlat_iff.mp hf).resolve_left hside
        exact hfull (signedQty_eq_zero hzero).le
      have hold := hsound.flat pos hmem (by simp [MarginPosition.isFlat, hside])
      have hnone : marginRelease = 0 := le_antisymm (hold ▸ hrel.le) hrel.nonneg
      rw [hmargin, hold, hnone, sub_zero]
    refine ⟨by rw [map_key_put]; exact hsound.unique, fun p hp => ?_, fun p hp => ?_⟩
    · rcases mem_put.mp hp with ⟨rfl, -⟩ | ⟨hm, -⟩
      · rw [hmargin]
        exact sub_nonneg.mpr hrel.le
      · exact hsound.nonneg p hm
    · rcases mem_put.mp hp with ⟨rfl, -⟩ | ⟨hm, -⟩
      · exact hflat
      · exact hsound.flat p hm

lemma weight_applyClose (hsound : MarginSound snap) (hp : snap.position symbol = some pos)
    (hrel : Releases pos qty marginRelease) (realizedPnl : ℚ) :
    weight MarginPosition.initialMargin (snap.applyClose symbol qty realizedPnl marginRelease).positions =
      weight MarginPosition.initialMargin snap.positions - marginRelease := by
  obtain ⟨hmem, hsym⟩ := row_some hp
  have hold : rowWeight MarginPosition.symbol MarginPosition.initialMargin symbol snap.positions = pos.initialMargin :=
    margin_of_position hp
  rw [applyClose_of_some hp]
  by_cases hfull : |pos.quantity| - qty ≤ 0
  · simp only [if_pos hfull]
    rw [weight_filter_key MarginPosition.initialMargin hsound.unique symbol, hold, hrel.all (sub_nonpos.mp hfull)]
  · simp only [if_neg hfull]
    have hkey : (reducedPosition pos qty marginRelease).symbol = symbol := hsym
    have hin : (reducedPosition pos qty marginRelease).symbol ∈ snap.positions.map MarginPosition.symbol := by
      rw [hkey, ← hsym]
      exact List.mem_map_of_mem hmem
    rw [weight_put MarginPosition.initialMargin hsound.unique hin, hkey, hold, reducedPosition_margin hrel]
    ring

lemma margin_applyClose_self (hp : snap.position symbol = some pos) (hrel : Releases pos qty marginRelease)
    (realizedPnl : ℚ) :
    (snap.applyClose symbol qty realizedPnl marginRelease).margin symbol = pos.initialMargin - marginRelease := by
  have hleft := position_applyClose hp qty realizedPnl marginRelease
  by_cases hfull : |pos.quantity| - qty ≤ 0
  · rw [if_pos hfull] at hleft
    unfold FuturesSnapshot.margin rowWeight
    rw [show row MarginPosition.symbol symbol (snap.applyClose symbol qty realizedPnl marginRelease).positions = none
      from hleft, hrel.all (sub_nonpos.mp hfull), sub_self]
    rfl
  · rw [if_neg hfull] at hleft
    rw [margin_of_position hleft, reducedPosition_margin hrel]

lemma margin_applyClose_of_ne {other : String} (h : other ≠ symbol) (qty realizedPnl marginRelease : ℚ) :
    (snap.applyClose symbol qty realizedPnl marginRelease).margin other = snap.margin other := by
  have hpos := snap.position_applyClose_of_ne qty realizedPnl marginRelease h
  unfold FuturesSnapshot.margin rowWeight
  rw [show row MarginPosition.symbol other (snap.applyClose symbol qty realizedPnl marginRelease).positions =
    row MarginPosition.symbol other snap.positions from hpos]

end Snapshots

/-! ### Steps -/

/-- The margins agree, and the book is sound. -/
def MarginInv (ledger : Ledger) : Prop :=
  MarginAgrees ledger ∧ MarginSound (rebuildFuturesProjection ledger)

section Steps

variable {contract : PerpetualContract} {ledger : Ledger} (orderId : Option String) (id : String)

/-- An open leaves a sound book, and margins that agree if it nets no margin. -/
lemma marginAgrees_open (hs : contract.symbol ≠ "") (hinv : MarginInv ledger) {side : PositionSide} (hside : side ≠ .flat)
    {qty : ℚ} (hqty : 0 ≤ qty) (price leverage : ℚ) (hm : 0 ≤ postedMargin contract qty price leverage) :
    let ledger' := ledger ++ [openTransaction contract side qty price leverage orderId id]
    MarginSound (rebuildFuturesProjection ledger') ∧
      (MarginAgrees ledger' ↔ NetsNoMargin ((rebuildFuturesProjection ledger).position contract.symbol) side qty
        (postedMargin contract qty price leverage)) := by
  obtain ⟨hagrees, hsound⟩ := hinv
  intro ledger'
  have h0 : qty = 0 → postedMargin contract qty price leverage = 0 := by
    rintro rfl
    simp [postedMargin, PerpetualContract.notional]
  have hafter : rebuildFuturesProjection ledger' =
      { (rebuildFuturesProjection ledger).applyOpen contract.symbol side qty price
          (effectiveLeverage leverage contract.maxLeverage) (postedMargin contract qty price leverage) with
        feesPaid := (rebuildFuturesProjection ledger).feesPaid + contract.takerFee qty price } := by
    rw [rebuildFuturesProjection_append, applyTxn_open _ _ _ _ _ _ _ hs]
  have haccount (symbol : String) : accountDebit (.marginOf symbol) ledger' =
      (rebuildFuturesProjection ledger).margin symbol +
        if symbol = contract.symbol then postedMargin contract qty price leverage else 0 := by
    rw [accountDebit_append, hagrees.account, margin_openTransaction]
  have hopened := openedPosition_margin price (effectiveLeverage leverage contract.maxLeverage) contract.symbol hsound hside
    hqty hm h0
  have hheld := hagrees.balance
  generalize rebuildFuturesProjection ledger = snap at *
  have hopen := hsound.applyOpen price (effectiveLeverage leverage contract.maxLeverage) contract.symbol hside hqty hm h0
  refine ⟨by rw [hafter]; exact ⟨hopen.unique, hopen.nonneg, hopen.flat⟩, ?_⟩
  have hself : (rebuildFuturesProjection ledger').margin contract.symbol =
      (openedPosition (snap.position contract.symbol) contract.symbol side qty price
        (effectiveLeverage leverage contract.maxLeverage) (postedMargin contract qty price leverage)).initialMargin := by
    rw [hafter]
    exact margin_applyOpen_self _ _
  have hother (symbol : String) (hne : symbol ≠ contract.symbol) :
      (rebuildFuturesProjection ledger').margin symbol = snap.margin symbol := by
    rw [hafter]
    exact margin_applyOpen_of_ne _ _ hne
  have hweight : weight MarginPosition.initialMargin (snap.applyOpen contract.symbol side qty price
      (effectiveLeverage leverage contract.maxLeverage) (postedMargin contract qty price leverage)).positions = _ :=
    weight_applyOpen price (effectiveLeverage leverage contract.maxLeverage) contract.symbol hsound
  rw [← hopened.2.2]
  constructor
  · intro h
    rw [← hself, ← h.account contract.symbol, haccount, if_pos rfl]
  · intro h
    refine ⟨?_, fun symbol => ?_⟩
    · rw [h] at hweight
      have hbalance : (rebuildFuturesProjection ledger').marginBalance =
          snap.marginBalance + postedMargin contract qty price leverage := by rw [hafter]; rfl
      have hpositions : (rebuildFuturesProjection ledger').positions = (snap.applyOpen contract.symbol side qty price
          (effectiveLeverage leverage contract.maxLeverage) (postedMargin contract qty price leverage)).positions := by
        rw [hafter]
      rw [hpositions, hweight, hbalance, hheld]
      ring
    · rw [haccount]
      by_cases hsym : symbol = contract.symbol
      · rw [if_pos hsym, hsym, hself, h]
      · rw [if_neg hsym, hother symbol hsym, add_zero]

lemma marginInv_close (hinv : MarginInv ledger) {pos : MarginPosition}
    (hpos : (rebuildFuturesProjection ledger).position contract.symbol = some pos) {qty marginRelease : ℚ}
    (hrel : Releases pos qty marginRelease) (exitPrice realizedPnl fee : ℚ) :
    MarginInv (ledger ++ [closeTransaction contract pos.side qty pos.avgEntryPrice exitPrice realizedPnl fee marginRelease
      orderId id]) := by
  obtain ⟨hagrees, hsound⟩ := hinv
  generalize hledger : ledger ++ [closeTransaction contract pos.side qty pos.avgEntryPrice exitPrice realizedPnl fee
    marginRelease orderId id] = ledger'
  have hs : contract.symbol ≠ "" := fun hempty => by simp [hempty, rebuildFuturesProjection_nameless] at hpos
  have hafter : rebuildFuturesProjection ledger' =
      { (rebuildFuturesProjection ledger).applyClose contract.symbol qty realizedPnl marginRelease with
        feesPaid := (rebuildFuturesProjection ledger).feesPaid + max fee 0 } := by
    rw [← hledger, rebuildFuturesProjection_append, applyTxn_close _ _ _ _ _ _ _ _ _ _ hs]
  have haccount (symbol : String) : accountDebit (.marginOf symbol) ledger' =
      (rebuildFuturesProjection ledger).margin symbol + if symbol = contract.symbol then -marginRelease else 0 := by
    rw [← hledger, accountDebit_append, hagrees.account, margin_closeTransaction, max_eq_left hrel.nonneg]
  have hheld := hagrees.balance
  generalize rebuildFuturesProjection ledger = snap at *
  have hclose := hsound.applyClose hpos hrel realizedPnl
  refine ⟨⟨?_, fun symbol => ?_⟩, by rw [hafter]; exact ⟨hclose.unique, hclose.nonneg, hclose.flat⟩⟩
  · have hmem : pos ∈ snap.positions := (row_some hpos).1
    have hcovered : marginRelease ≤ snap.marginBalance := by
      rw [hheld]
      exact hrel.le.trans (le_weight_of_mem hsound.nonneg hmem)
    have hbalance : (rebuildFuturesProjection ledger').marginBalance = snap.marginBalance - marginRelease := by
      rw [hafter, applyClose_of_some hpos]
      exact max_eq_left (sub_nonneg.mpr hcovered)
    have hpositions : (rebuildFuturesProjection ledger').positions =
        (snap.applyClose contract.symbol qty realizedPnl marginRelease).positions := by rw [hafter]
    rw [hbalance, hpositions, weight_applyClose hsound hpos hrel, hheld]
  · rw [haccount]
    by_cases hsym : symbol = contract.symbol
    · have hself : (rebuildFuturesProjection ledger').margin contract.symbol = pos.initialMargin - marginRelease := by
        rw [hafter]
        exact margin_applyClose_self hpos hrel realizedPnl
      rw [if_pos hsym, hsym, hself, margin_of_position hpos, sub_eq_add_neg]
    · have hother : (rebuildFuturesProjection ledger').margin symbol = snap.margin symbol := by
        rw [hafter]
        exact margin_applyClose_of_ne hsym qty realizedPnl marginRelease
      rw [if_neg hsym, hother, add_zero]

lemma marginInv_funding (hs : contract.symbol ≠ "") (hinv : MarginInv ledger) (side : PositionSide)
    (amount rate notional : ℚ) : MarginInv (ledger ++ [fundingTransaction contract side amount rate notional id]) := by
  obtain ⟨hagrees, hsound⟩ := hinv
  generalize hledger : ledger ++ [fundingTransaction contract side amount rate notional id] = ledger'
  have hafter : rebuildFuturesProjection ledger' =
      { rebuildFuturesProjection ledger with
        fundingPaid := (rebuildFuturesProjection ledger).fundingPaid + max (-amount) 0
        fundingReceived := (rebuildFuturesProjection ledger).fundingReceived + max amount 0 } := by
    rw [← hledger, rebuildFuturesProjection_append, applyTxn_funding _ _ _ _ _ _ hs]
  have haccount (symbol : String) : accountDebit (.marginOf symbol) ledger' = accountDebit (.marginOf symbol) ledger := by
    rw [← hledger, accountDebit_append, margin_fundingTransaction, add_zero]
  refine ⟨⟨?_, fun symbol => ?_⟩, ?_⟩
  · rw [hafter]
    exact hagrees.balance
  · rw [haccount, hagrees.account, hafter]
    rfl
  · rw [hafter]
    exact ⟨hsound.unique, hsound.nonneg, hsound.flat⟩

end Steps

lemma releases_of_close {pos : MarginPosition} (hmargin : 0 ≤ pos.initialMargin) (hflat : pos.isFlat → pos.initialMargin = 0)
    (quantity : ℚ) :
    Releases pos (min |quantity| |pos.quantity|) (releasedMargin pos (min |quantity| |pos.quantity|)) := by
  generalize hqty : min |quantity| |pos.quantity| = qty
  have hle : qty ≤ |pos.quantity| := hqty ▸ min_le_right _ _
  have hnonneg : 0 ≤ qty := hqty ▸ le_min (abs_nonneg _) (abs_nonneg _)
  unfold releasedMargin
  by_cases hq : pos.quantity = 0
  · rw [if_pos hq]
    exact ⟨le_rfl, hmargin, fun _ => (hflat (MarginPosition.isFlat_iff.mpr (.inr hq))).symm⟩
  · rw [if_neg hq]
    have hpos : 0 < |pos.quantity| := abs_pos.mpr hq
    refine ⟨div_nonneg (mul_nonneg hmargin hnonneg) hpos.le, ?_, fun hge => ?_⟩
    · rw [div_le_iff₀ hpos]
      exact mul_le_mul_of_nonneg_left hle hmargin
    · rw [le_antisymm hle hge, mul_div_assoc, div_self hpos.ne', mul_one]

/-! ### The margin an open posts -/

lemma effectiveLeverage_sign (leverage : ℚ) {maxLeverage : ℚ} (h : maxLeverage ≠ 0) :
    0 < effectiveLeverage leverage maxLeverage * maxLeverage := by
  unfold effectiveLeverage
  have hpos := leverageOrOne_pos leverage
  generalize (if leverage ≤ 0 then 1 else leverage) = lev at hpos
  rcases lt_or_gt_of_ne h with hneg | hmax
  · rw [min_eq_right (hneg.trans hpos).le]
    exact mul_pos_of_neg_of_neg hneg hneg
  · exact mul_pos (lt_min hpos hmax) hmax

lemma postedMargin_nonneg {contract : PerpetualContract} {price : ℚ} (hlev : contract.maxLeverage ≠ 0)
    (h : 0 ≤ price * contract.contractSize * contract.maxLeverage) (quantity leverage : ℚ) :
    0 ≤ postedMargin contract quantity price leverage := by
  have hsign := effectiveLeverage_sign leverage hlev
  unfold postedMargin PerpetualContract.notional
  generalize effectiveLeverage leverage contract.maxLeverage = lev at hsign
  have hlev' : lev ≠ 0 := fun h0 => by simp [h0] at hsign
  have hsquare : 0 < lev * contract.maxLeverage := hsign
  have heq : |quantity| * price * contract.contractSize / lev =
      |quantity| * (price * contract.contractSize * contract.maxLeverage) / (lev * contract.maxLeverage) := by
    field_simp
  rw [heq]
  exact div_nonneg (mul_nonneg (abs_nonneg _) h) hsquare.le

lemma postedMargin_eq_zero_iff {contract : PerpetualContract} (hlev : contract.maxLeverage ≠ 0) (quantity price leverage : ℚ) :
    postedMargin contract quantity price leverage = 0 ↔ quantity = 0 ∨ price * contract.contractSize = 0 := by
  have hne : effectiveLeverage leverage contract.maxLeverage ≠ 0 := by rwa [ne_eq, effectiveLeverage_eq_zero_iff]
  unfold postedMargin PerpetualContract.notional
  rw [div_eq_zero_iff, or_iff_left hne, mul_assoc, mul_eq_zero, abs_eq_zero]

/-! ### Runs -/

/-- A ledger on which no margin is posted. -/
structure Unmargined (ledger : Ledger) : Prop where
  positions : (rebuildFuturesProjection ledger).positions = []
  balance : (rebuildFuturesProjection ledger).marginBalance = 0
  account : ∀ symbol, accountDebit (.marginOf symbol) ledger = 0

namespace PerpetualPaperEngine

variable (engine : PerpetualPaperEngine)

/-- An open is in a contract with a symbol and posts no negative margin. -/
def PostsMargin : PerpetualCall → Prop
  | .openPosition _ _ price _ _ symbol => (engine.contractOf symbol).symbol ≠ "" ∧
      0 ≤ price * (engine.contractOf symbol).contractSize * (engine.contractOf symbol).maxLeverage
  | _ => True

/-- An open that reaches the ledger does not net margin: its quantity is 0, or a position on
the other side has no margin, and the open is without margin too unless it flips the position. -/
def KeepsMargin (ledger : Ledger) (call : PerpetualCall × String) : Prop :=
  match call.1 with
  | .openPosition side quantity price _ _ symbol =>
    engine.OpenRecords ledger side symbol call.2 →
      ∀ pos, (rebuildFuturesProjection ledger).position (engine.contractOf symbol).symbol = some pos →
        ¬ pos.isFlat → pos.side ≠ side → quantity = 0 ∨ pos.initialMargin = 0 ∧
          (price * (engine.contractOf symbol).contractSize = 0 ∨ |pos.quantity| < |quantity|)
  | _ => True

variable {ledger : Ledger}

lemma netsNoMargin_iff {contract : PerpetualContract} (hlev : contract.maxLeverage ≠ 0) (old : Option MarginPosition)
    (side : PositionSide) (quantity price leverage : ℚ) :
    NetsNoMargin old side |quantity| (postedMargin contract |quantity| price leverage) ↔
      ∀ pos, old = some pos → ¬ pos.isFlat → pos.side ≠ side → quantity = 0 ∨ pos.initialMargin = 0 ∧
        (price * contract.contractSize = 0 ∨ |pos.quantity| < |quantity|) := by
  unfold NetsNoMargin
  rw [postedMargin_eq_zero_iff hlev, abs_eq_zero]
  refine forall_congr' (fun pos => imp_congr_right (fun _ => imp_congr_right (fun _ => imp_congr_right (fun _ => ?_))))
  by_cases h0 : quantity = 0
  · exact iff_of_true (.inl h0) (.inl h0)
  · simp only [h0, false_or]

/-- After an open that posts no negative margin the margins agree exactly if it kept them,
and then the book is sound. -/
lemma marginInv_openPosition (hinv : MarginInv ledger) {call : PerpetualCall × String} {side : PositionSide}
    {quantity price leverage : ℚ} {orderId symbol : Option String}
    (hcall : call.1 = .openPosition side quantity price leverage orderId symbol) (hposts : engine.PostsMargin call.1) :
    MarginSound (rebuildFuturesProjection (engine.perform ledger call)) ∧
      (MarginAgrees (engine.perform ledger call) ↔ engine.KeepsMargin ledger call) := by
  obtain ⟨call, minted⟩ := call
  obtain rfl : call = .openPosition side quantity price leverage orderId symbol := hcall
  simp only [perform, openPosition_ledger, KeepsMargin]
  by_cases hrec : engine.OpenRecords ledger side symbol minted
  · have hopen := marginAgrees_open orderId minted hposts.1 hinv hrec.1 (abs_nonneg quantity) price leverage
      (postedMargin_nonneg hrec.2.1 hposts.2 |quantity| leverage)
    simp only [hrec, if_true, forall_const]
    refine ⟨hopen.1, hopen.2.trans (netsNoMargin_iff hrec.2.1 _ side quantity price leverage)⟩
  · simp only [hrec, if_false, false_imp_iff, iff_true]
    exact ⟨hinv.2, hinv.1⟩

lemma marginInv_recorded (hinv : MarginInv ledger) {call : PerpetualCall} {t : LedgerTransaction}
    (hrec : Recorded engine ledger call t)
    (hopen : ∀ side quantity price leverage orderId symbol, call ≠ .openPosition side quantity price leverage orderId symbol) :
    MarginInv (ledger ++ [t]) := by
  cases hrec with
  | opened => exact absurd rfl (hopen _ _ _ _ _ _)
  | @closed quantity exitPrice orderId symbol pos id hpos =>
    have hmem := (row_some hpos).1
    exact marginInv_close orderId id hinv hpos
      (releases_of_close (hinv.2.nonneg pos hmem) (hinv.2.flat pos hmem) quantity) exitPrice _ _
  | @funded rate markPrice symbol pos payment id hpos hpay hne =>
    have hs : (engine.contractOf symbol).symbol ≠ "" :=
      fun hempty => by simp [hempty, rebuildFuturesProjection_nameless] at hpos
    exact marginInv_funding id hs hinv pos.side _ _ _
  | @liquidated markPrice symbol pos result id hpos hresult hliq =>
    have hmem := (row_some hpos).1
    exact marginInv_close none id hinv hpos ⟨hinv.2.nonneg pos hmem, le_rfl, fun _ => rfl⟩ markPrice _ _

/-- A call that posts no negative margin leads to margins that agree exactly if it nets
none, and then to a sound book. -/
theorem marginInv_perform (hinv : MarginInv ledger) {call : PerpetualCall × String} (hposts : engine.PostsMargin call.1) :
    MarginSound (rebuildFuturesProjection (engine.perform ledger call)) ∧
      (MarginAgrees (engine.perform ledger call) ↔ engine.KeepsMargin ledger call) := by
  have hother (hkeeps : engine.KeepsMargin ledger call) (hopen : ∀ side quantity price leverage orderId symbol,
      call.1 ≠ .openPosition side quantity price leverage orderId symbol) :
      MarginSound (rebuildFuturesProjection (engine.perform ledger call)) ∧
        (MarginAgrees (engine.perform ledger call) ↔ engine.KeepsMargin ledger call) := by
    have hnext : MarginInv (engine.perform ledger call) := by
      rcases engine.perform_cases ledger call with h | ⟨t, hrec, h⟩
      · rwa [h]
      · rw [h]
        exact engine.marginInv_recorded hinv hrec hopen
    exact ⟨hnext.2, iff_of_true hnext.1 hkeeps⟩
  cases hcall : call.1 with
  | openPosition side quantity price leverage orderId symbol => exact engine.marginInv_openPosition hinv hcall hposts
  | closePosition => exact hother (by simp [KeepsMargin, hcall]) (by simp [hcall])
  | applyFunding => exact hother (by simp [KeepsMargin, hcall]) (by simp [hcall])
  | liquidate => exact hother (by simp [KeepsMargin, hcall]) (by simp [hcall])

lemma marginInv_of_unmargined (h : Unmargined ledger) : MarginInv ledger := by
  refine ⟨⟨?_, fun symbol => ?_⟩, ⟨?_, ?_, ?_⟩⟩
  · rw [h.balance, h.positions, weight_nil]
  · rw [h.account, FuturesSnapshot.margin, h.positions]
    rfl
  all_goals simp [h.positions]

/-- From a ledger without margin, the three forms of the margin agree after every call of a
run whose opens post no negative margin and net none; of the runs whose opens post no
negative margin they agree in no other. -/
theorem marginAgrees_along (hstart : Unmargined ledger) (calls : List (PerpetualCall × String)) :
    (Along engine.perform (fun ledger call => engine.PostsMargin call.1 ∧ engine.KeepsMargin ledger call) ledger calls →
        Visits engine.perform MarginAgrees ledger calls) ∧
      ((∀ call ∈ calls, engine.PostsMargin call.1) → Visits engine.perform MarginAgrees ledger calls →
        Along engine.perform engine.KeepsMargin ledger calls) := by
  have hinv := marginInv_of_unmargined hstart
  constructor
  · intro halong
    refine (visits_of_along (I := MarginInv) (fun l c hl hc => ?_) hinv halong).mono (fun l hl => hl.1)
    have hstep := engine.marginInv_perform hl hc.1
    exact ⟨hstep.2.mpr hc.2, hstep.1⟩
  · intro hposts hvisits
    refine (visits_iff_along (I := MarginInv) (W := fun _ call => engine.PostsMargin call.1) (fun l hl => hl.1)
      (fun l c hl hp hk => ?_) (fun l c hl hp hagrees => ?_) hinv (along_of_forall hposts)).mp hvisits
    · exact ⟨(engine.marginInv_perform hl hp).2.mpr hk, (engine.marginInv_perform hl hp).1⟩
    · exact (engine.marginInv_perform hl hp).2.mp hagrees

/-- A long of 1 opened at 100 and closed. -/
theorem marginAgrees_long_closed :
    let engine : PerpetualPaperEngine := { contract := { symbol := "BTCUSDT" } }
    let calls := [(PerpetualCall.openPosition .long 1 100 1 none none, "a"), (.closePosition .long 1 110 none none, "b")]
    Visits engine.perform MarginAgrees [] calls := by
  intro engine calls
  have hnone : (rebuildFuturesProjection []).position (engine.contractOf none).symbol = none := by decide
  have hopen : engine.KeepsMargin [] (.openPosition .long 1 100 1 none none, "a") := by
    intro _ pos hpos
    rw [hnone] at hpos
    exact absurd hpos (by simp)
  refine (engine.marginAgrees_along ⟨rfl, rfl, fun _ => rfl⟩ calls).1 ⟨⟨⟨by decide, by decide +kernel⟩, hopen⟩, ?_⟩
  exact ⟨⟨trivial, trivial⟩, trivial⟩

/-- A short of 1 at 100 against a long of 1 at 100 leaves no position, 200 in the margin
balance and 200 in the account MARGIN:BTCUSDT. -/
theorem marginAgrees_long_netted :
    let engine : PerpetualPaperEngine := { contract := { symbol := "BTCUSDT" } }
    let calls := [(PerpetualCall.openPosition .long 1 100 1 none none, "a"), (.openPosition .short 1 100 1 none none, "b")]
    let ledger := run engine.perform [] calls
    (rebuildFuturesProjection ledger).margin "BTCUSDT" = 0 ∧ (rebuildFuturesProjection ledger).marginBalance = 200 ∧
      accountDebit (.marginOf "BTCUSDT") ledger = 200 ∧ ¬ Visits engine.perform MarginAgrees [] calls := by
  intro engine calls ledger
  have hmargin : (rebuildFuturesProjection ledger).margin "BTCUSDT" = 0 := by decide +kernel
  have haccount : accountDebit (.marginOf "BTCUSDT") ledger = 200 := by decide +kernel
  refine ⟨hmargin, by decide +kernel, haccount, fun hvisits => ?_⟩
  have hagree := hvisits.last.account "BTCUSDT"
  rw [haccount, hmargin] at hagree
  exact absurd hagree (by norm_num)

end PerpetualPaperEngine

end CryptoTrader
