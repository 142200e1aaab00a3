import CryptoTrader.Perpetual.Operations
import Mathlib.Algebra.Order.BigOperators.Group.List
import Mathlib.Tactic.FieldSimp
import Mathlib.Tactic.Ring

/-!
# Orders in parts

The paper engine on an order that is filled in several parts at one price. Closing a
position part by part, and opening one on its own side part by part, leaves the replay and
the balance of every account that one call for the whole quantity leaves.
-/

namespace CryptoTrader

open KeyedTable Runs FuturesSnapshot

/-- The replay of a ledger and the net debit of each account in each currency. -/
@[ext]
structure FuturesBooks where
  snapshot : FuturesSnapshot
  debit : LedgerAccount → String → ℚ

/-- The postings to an account in a currency. -/
def PostsTo (account : LedgerAccount) (currency : String) (p : LedgerPosting) : Prop :=
  p.account = account ∧ p.currency = currency

instance (account : LedgerAccount) (currency : String) : DecidablePred (PostsTo account currency) :=
  fun _ => inferInstanceAs (Decidable (_ ∧ _))

/-- The share of a contract's postings that an account has in a currency. -/
lemma postsTo_share (contract : PerpetualContract) (account : LedgerAccount) (currency : String) (p : LedgerPosting)
    (hp : p.currency = contract.marginAsset) :
    (if PostsTo account currency p then p.signed else 0) =
      (if p.account = account ∧ contract.marginAsset = currency then 1 else 0) * p.signed := by
  simp [PostsTo, hp]

def booksOf (ledger : Ledger) : FuturesBooks where
  snapshot := rebuildFuturesProjection ledger
  debit account currency := netDebit (PostsTo account currency) (ledger.flatMap LedgerTransaction.entries)

lemma booksOf_append (ledger : Ledger) (t : LedgerTransaction) :
    booksOf (ledger ++ [t]) =
      { snapshot := (booksOf ledger).snapshot.applyTxn t
        debit := fun account currency =>
          (booksOf ledger).debit account currency + netDebit (PostsTo account currency) t.entries } := by
  ext1
  · exact rebuildFuturesProjection_append ledger t
  · funext account currency
    simp [booksOf, List.flatMap_append]

/-! ### Parts and their sum -/

/-- Steps whose sizes add up, taken in parts. -/
lemma foldl_parts {S : Type} {f : ℚ → S → S} {s : S} (hadd : ∀ {a b}, 0 ≤ a → 0 ≤ b → f b (f a s) = f (a + b) s)
    {q : ℚ} (hq : 0 ≤ q) (qs : List ℚ) :
    qs.foldl (fun s q => f |q| s) (f q s) = f (q + (qs.map abs).sum) s := by
  induction qs generalizing q with
  | nil => simp
  | cons q' qs ih =>
    rw [List.foldl_cons, hadd hq (abs_nonneg q'), ih (add_nonneg hq (abs_nonneg q')), List.map_cons, List.sum_cons,
      add_assoc]

lemma max_sub_max {m r s : ℚ} (hs : 0 ≤ s) : max (max (m - r) 0 - s) 0 = max (m - (r + s)) 0 := by
  rcases le_total (m - r) 0 with h | h
  · rw [max_eq_right h, max_eq_right (by linarith), max_eq_right (by linarith)]
  · rw [max_eq_left h, sub_sub]

lemma notional_add (contract : PerpetualContract) {x y : ℚ} (hx : 0 ≤ x) (hy : 0 ≤ y) (price : ℚ) :
    contract.notional (x + y) price = contract.notional x price + contract.notional y price := by
  unfold PerpetualContract.notional
  rw [abs_of_nonneg hx, abs_of_nonneg hy, abs_of_nonneg (add_nonneg hx hy)]
  ring

/-! ### Closing -/

section Closing

variable (contract : PerpetualContract) (side : PositionSide) (exitPrice : ℚ)

/-- What a close makes of the books. -/
def closeIn (quantity : ℚ) (books : FuturesBooks) : FuturesBooks :=
  match books.snapshot.position contract.symbol with
  | none => books
  | some pos =>
    if pos.side ≠ side then books
    else
      let qty := min quantity |pos.quantity|
      { snapshot :=
          { books.snapshot.applyClose contract.symbol qty (closedPnl contract pos qty exitPrice) (releasedMargin pos qty) with
            feesPaid := books.snapshot.feesPaid + max (contract.takerFee qty exitPrice) 0 }
        debit := fun account currency => books.debit account currency + netDebit (PostsTo account currency)
          (closePostings contract qty pos.avgEntryPrice (closedPnl contract pos qty exitPrice)
            (contract.takerFee qty exitPrice) (releasedMargin pos qty)) }

/-- The symbol's position, if there is one, has no negative margin. -/
def MarginNonneg (symbol : String) (books : FuturesBooks) : Prop :=
  ∀ pos ∈ books.snapshot.position symbol, 0 ≤ pos.initialMargin

instance (symbol : String) (books : FuturesBooks) : Decidable (MarginNonneg symbol books) :=
  inferInstanceAs (Decidable (∀ pos ∈ books.snapshot.position symbol, 0 ≤ pos.initialMargin))

variable {contract side exitPrice}

lemma booksOf_close (engine : PerpetualPaperEngine) (ledger : Ledger) (quantity : ℚ) (orderId symbol : Option String)
    {minted : String} (hid : minted ∉ ledger.map LedgerTransaction.transactionId) :
    booksOf (engine.closePosition side quantity exitPrice orderId symbol minted ledger).2 =
      closeIn (engine.contractOf symbol) side exitPrice |quantity| (booksOf ledger) := by
  unfold closeIn
  cases hpos : (booksOf ledger).snapshot.position (engine.contractOf symbol).symbol with
  | none =>
    rw [engine.closePosition_skips orderId symbol quantity exitPrice]
    rintro ⟨pos, hp, -⟩
    exact absurd (hpos.symm.trans hp) (by simp)
  | some pos =>
    dsimp only
    by_cases hside : pos.side = side
    · subst hside
      have hs : (engine.contractOf symbol).symbol ≠ "" := by
        intro hempty
        have hnone := rebuildFuturesProjection_nameless ledger
        rw [← hempty] at hnone
        exact absurd (hnone.symm.trans hpos) (by simp)
      rw [engine.closePosition_of_holds ledger hpos, if_neg hid, if_neg (not_not.mpr rfl), booksOf_append,
        applyTxn_close _ _ _ _ _ _ _ _ _ _ hs]
      rfl
    · rw [if_pos hside, engine.closePosition_skips orderId symbol quantity exitPrice]
      rintro ⟨p, hp, hps⟩
      rw [Option.some.inj (hpos.symm.trans hp)] at hside
      exact hside hps

lemma closeIn_of_some {books : FuturesBooks} {pos : MarginPosition}
    (hpos : books.snapshot.position contract.symbol = some pos) (quantity : ℚ) :
    closeIn contract pos.side exitPrice quantity books =
      { snapshot :=
          { books.snapshot.applyClose contract.symbol (min quantity |pos.quantity|)
              (closedPnl contract pos (min quantity |pos.quantity|) exitPrice)
              (releasedMargin pos (min quantity |pos.quantity|)) with
            feesPaid := books.snapshot.feesPaid + max (contract.takerFee (min quantity |pos.quantity|) exitPrice) 0 }
        debit := fun account currency => books.debit account currency + netDebit (PostsTo account currency)
          (closePostings contract (min quantity |pos.quantity|) pos.avgEntryPrice
            (closedPnl contract pos (min quantity |pos.quantity|) exitPrice)
            (contract.takerFee (min quantity |pos.quantity|) exitPrice)
            (releasedMargin pos (min quantity |pos.quantity|))) } := by
  rw [closeIn, hpos]
  exact if_neg (not_not.mpr rfl)

lemma closeIn_of_not {books : FuturesBooks}
    (h : ∀ pos, books.snapshot.position contract.symbol = some pos → pos.side ≠ side) (quantity : ℚ) :
    closeIn contract side exitPrice quantity books = books := by
  rw [closeIn]
  cases hpos : books.snapshot.position contract.symbol with
  | none => rfl
  | some pos => exact if_pos (h pos hpos)

/-! #### The amounts of two closes -/

lemma closedPnl_add (pos : MarginPosition) (x y : ℚ) :
    closedPnl contract pos (x + y) exitPrice = closedPnl contract pos x exitPrice + closedPnl contract pos y exitPrice := by
  unfold closedPnl
  split
  · ring
  · ring

lemma closedPnl_reduced (pos : MarginPosition) (q release x : ℚ) :
    closedPnl contract (reducedPosition pos q release) x exitPrice = closedPnl contract pos x exitPrice := rfl

/-- The fee of a close is at least 0; parts pay what the whole pays. -/
lemma feePaid_add {x y : ℚ} (hx : 0 ≤ x) (hy : 0 ≤ y) :
    max (contract.takerFee (x + y) exitPrice) 0 =
      max (contract.takerFee x exitPrice) 0 + max (contract.takerFee y exitPrice) 0 := by
  have hfee (z : ℚ) (hz : 0 ≤ z) : max (contract.takerFee z exitPrice) 0 = z * max (contract.takerFee 1 exitPrice) 0 := by
    rw [mul_max_of_nonneg _ _ hz, mul_zero]
    unfold PerpetualContract.takerFee
    congr 1
    ring
  rw [hfee x hx, hfee y hy, hfee _ (add_nonneg hx hy), add_mul]

lemma releasedMargin_nonneg {pos : MarginPosition} (hm : 0 ≤ pos.initialMargin) {x : ℚ} (hx : 0 ≤ x) :
    0 ≤ releasedMargin pos x := by
  unfold releasedMargin
  split
  · exact le_rfl
  · exact div_nonneg (mul_nonneg hm hx) (abs_nonneg _)

lemma abs_signedQty_of_nonneg (s : PositionSide) {x : ℚ} (hx : 0 ≤ x) : |signedQty s x| = x := by
  unfold signedQty
  split
  · exact abs_of_nonneg hx
  · rw [abs_neg, abs_of_nonneg hx]

section Remaining

variable {pos : MarginPosition} {x y : ℚ}

lemma abs_reduced (hx : x < |pos.quantity|) (release : ℚ) :
    |(reducedPosition pos x release).quantity| = |pos.quantity| - x :=
  abs_signedQty_of_nonneg _ (sub_nonneg.mpr hx.le)

lemma releasedMargin_of_pos (h : 0 < |pos.quantity|) (z : ℚ) :
    releasedMargin pos z = pos.initialMargin * z / |pos.quantity| :=
  if_neg (abs_pos.mp h)

/-- What is left of the margin. -/
lemma reduced_margin (hm : 0 ≤ pos.initialMargin) (hx0 : 0 ≤ x) (hx : x < |pos.quantity|) :
    (reducedPosition pos x (releasedMargin pos x)).initialMargin =
      pos.initialMargin * (|pos.quantity| - x) / |pos.quantity| := by
  have hq : 0 < |pos.quantity| := hx0.trans_lt hx
  have hleft : pos.initialMargin - releasedMargin pos x = pos.initialMargin * (|pos.quantity| - x) / |pos.quantity| := by
    rw [releasedMargin_of_pos hq]
    field_simp
  rw [reducedPosition, hleft]
  exact max_eq_left (div_nonneg (mul_nonneg hm (sub_nonneg.mpr hx.le)) hq.le)

/-- The rest of the margin is released in the same proportion. -/
lemma releasedMargin_add (hm : 0 ≤ pos.initialMargin) (hx0 : 0 ≤ x) (hx : x < |pos.quantity|) :
    releasedMargin pos (x + y) =
      releasedMargin pos x + releasedMargin (reducedPosition pos x (releasedMargin pos x)) y := by
  have hq : 0 < |pos.quantity| := hx0.trans_lt hx
  have hleft : |pos.quantity| - x ≠ 0 := (sub_pos.mpr hx).ne'
  have hpos : 0 < |(reducedPosition pos x (releasedMargin pos x)).quantity| := by
    rw [abs_reduced hx]
    exact sub_pos.mpr hx
  rw [releasedMargin_of_pos hpos, abs_reduced hx, reduced_margin hm hx0 hx, releasedMargin_of_pos hq,
    releasedMargin_of_pos hq]
  field_simp

/-- Two reductions are one. -/
lemma reducedPosition_reduced (hx : x < |pos.quantity|) {r s : ℚ} (hs : 0 ≤ s) :
    reducedPosition (reducedPosition pos x r) y s = reducedPosition pos (x + y) (r + s) := by
  have hquantity : |(reducedPosition pos x r).quantity| - y = |pos.quantity| - (x + y) := by
    rw [abs_reduced hx]
    ring
  have hmargin : max ((reducedPosition pos x r).initialMargin - s) 0 = max (pos.initialMargin - (r + s)) 0 :=
    max_sub_max hs
  rw [reducedPosition, hquantity, hmargin]
  rfl

lemma applyClose_fees (snap : FuturesSnapshot) (symbol : String) (qty pnl release fees fees' : ℚ) :
    { ({ snap with feesPaid := fees } : FuturesSnapshot).applyClose symbol qty pnl release with feesPaid := fees' } =
      { snap.applyClose symbol qty pnl release with feesPaid := fees' } := by
  unfold FuturesSnapshot.applyClose FuturesSnapshot.position
  cases row MarginPosition.symbol symbol snap.positions <;> rfl

lemma applyClose_applyClose {snap : FuturesSnapshot} {symbol : String} (hpos : snap.position symbol = some pos)
    (hx : x < |pos.quantity|) (p₁ p₂ r : ℚ) {s : ℚ} (hs : 0 ≤ s) :
    (snap.applyClose symbol x p₁ r).applyClose symbol y p₂ s = snap.applyClose symbol (x + y) (p₁ + p₂) (r + s) := by
  have hleft : ¬ |pos.quantity| - x ≤ 0 := not_le.mpr (sub_pos.mpr hx)
  have hkey : (reducedPosition pos x r).symbol = symbol := (row_some hpos).2
  have hpos₁ : (snap.applyClose symbol x p₁ r).position symbol = some (reducedPosition pos x r) := by
    rw [position_applyClose hpos, if_neg hleft]
  rw [applyClose_of_some hpos₁, applyClose_of_some hpos, applyClose_of_some hpos, if_neg hleft]
  have hrest : |(reducedPosition pos x r).quantity| - y = |pos.quantity| - (x + y) := by
    rw [abs_reduced hx]
    ring
  have hfilter : (put MarginPosition.symbol (reducedPosition pos x r) snap.positions).filter (fun p => p.symbol ≠ symbol) =
      snap.positions.filter (fun p => p.symbol ≠ symbol) := by
    rw [← hkey]
    exact filter_put _ _
  have hput : put MarginPosition.symbol (reducedPosition pos (x + y) (r + s))
      (put MarginPosition.symbol (reducedPosition pos x r) snap.positions) =
        put MarginPosition.symbol (reducedPosition pos (x + y) (r + s)) snap.positions := by
    apply put_put
    rfl
  dsimp only
  rw [hrest, hfilter, reducedPosition_reduced hx hs, hput, add_assoc, max_sub_max hs]

end Remaining

/-- What two closes post is what one posts, to each account. -/
lemma netDebit_close_add (account : LedgerAccount) (currency : String) {x y : ℚ} (hx : 0 ≤ x) (hy : 0 ≤ y)
    (entry p₁ p₂ : ℚ) {r s : ℚ} (hr : 0 ≤ r) (hs : 0 ≤ s) :
    netDebit (PostsTo account currency)
        (closePostings contract (x + y) entry (p₁ + p₂) (contract.takerFee (x + y) exitPrice) (r + s)) =
      netDebit (PostsTo account currency) (closePostings contract x entry p₁ (contract.takerFee x exitPrice) r) +
        netDebit (PostsTo account currency) (closePostings contract y entry p₂ (contract.takerFee y exitPrice) s) := by
  have hnet := netDebit_closePostings (PostsTo account currency)
    (fun a => if a = account ∧ contract.marginAsset = currency then 1 else 0) contract
    (postsTo_share contract account currency)
  rw [hnet, hnet, hnet, feePaid_add hx hy, notional_add contract hx hy, max_eq_left hr, max_eq_left hs,
    max_eq_left (add_nonneg hr hs)]
  ring

lemma closeIn_closeIn {books : FuturesBooks} (hm : MarginNonneg contract.symbol books) {x y : ℚ} (hx : 0 ≤ x)
    (hy : 0 ≤ y) :
    closeIn contract side exitPrice y (closeIn contract side exitPrice x books) =
      closeIn contract side exitPrice (x + y) books := by
  by_cases hholds : ∃ pos, books.snapshot.position contract.symbol = some pos ∧ pos.side = side
  · obtain ⟨pos, hpos, rfl⟩ := hholds
    have hmargin := hm pos hpos
    generalize hbooks₁ : closeIn contract pos.side exitPrice x books = books₁
    rw [closeIn_of_some hpos] at hbooks₁
    rw [closeIn_of_some hpos]
    have hleft := position_applyClose hpos (min x |pos.quantity|) (closedPnl contract pos (min x |pos.quantity|) exitPrice)
      (releasedMargin pos (min x |pos.quantity|))
    by_cases hfull : |pos.quantity| ≤ x
    · -- nothing is left for the second part
      rw [min_eq_right hfull] at hbooks₁ hleft
      rw [min_eq_right (hfull.trans (le_add_of_nonneg_right hy)), hbooks₁]
      apply closeIn_of_not
      intro p hp
      rw [← hbooks₁] at hp
      rw [if_pos (sub_self _).le] at hleft
      exact absurd (hleft.symm.trans hp) (by simp)
    · have hlt : x < |pos.quantity| := not_le.mp hfull
      rw [min_eq_left hlt.le] at hbooks₁ hleft
      rw [if_neg (not_le.mpr (sub_pos.mpr hlt))] at hleft
      have hpos₁ : books₁.snapshot.position contract.symbol = some (reducedPosition pos x (releasedMargin pos x)) := by
        rw [← hbooks₁]
        exact hleft
      have hwhole : min (x + y) |pos.quantity| = x + min y (|pos.quantity| - x) := by
        rw [← min_add_add_left, add_sub_cancel]
      have hc : 0 ≤ min y (|pos.quantity| - x) := le_min hy (sub_nonneg.mpr hlt.le)
      have hsecond : closeIn contract (reducedPosition pos x (releasedMargin pos x)).side exitPrice y books₁ = _ :=
        closeIn_of_some hpos₁ y
      rw [abs_reduced hlt] at hsecond
      rw [hwhole]
      refine hsecond.trans ?_
      generalize min y (|pos.quantity| - x) = c at hc
      have hrelease : 0 ≤ releasedMargin (reducedPosition pos x (releasedMargin pos x)) c :=
        releasedMargin_nonneg (le_max_right _ _) hc
      rw [← hbooks₁]
      ext1
      · dsimp only
        rw [applyClose_fees, applyClose_applyClose hpos hlt _ _ _ hrelease, closedPnl_reduced, ← closedPnl_add,
          ← releasedMargin_add hmargin hx hlt, feePaid_add hx hc, add_assoc]
      · funext account currency
        dsimp only
        rw [closedPnl_add, releasedMargin_add hmargin hx hlt,
          netDebit_close_add account currency hx hc _ _ _ (releasedMargin_nonneg hmargin hx) hrelease, add_assoc]
        rfl
  · have hnot (pos : MarginPosition) (hp : books.snapshot.position contract.symbol = some pos) : pos.side ≠ side :=
      fun hs => hholds ⟨pos, hp, hs⟩
    rw [closeIn_of_not hnot, closeIn_of_not hnot, closeIn_of_not hnot]

end Closing

/-! ### Opening -/

section Opening

variable (contract : PerpetualContract) (side : PositionSide) (price leverage : ℚ)

/-- What an open makes of the books. The replay passes over a contract without a symbol. -/
def openIn (quantity : ℚ) (books : FuturesBooks) : FuturesBooks :=
  if side = .flat ∨ contract.maxLeverage = 0 then books
  else
    { snapshot :=
        if contract.symbol = "" then books.snapshot
        else
          { books.snapshot.applyOpen contract.symbol side quantity price (effectiveLeverage leverage contract.maxLeverage)
              (postedMargin contract quantity price leverage) with
            feesPaid := books.snapshot.feesPaid + contract.takerFee quantity price }
      debit := fun account currency => books.debit account currency + netDebit (PostsTo account currency)
        (openPostings contract quantity price (postedMargin contract quantity price leverage)
          (contract.takerFee quantity price)) }

/-- There is no position of the other side. -/
def OnSide (symbol : String) (side : PositionSide) (books : FuturesBooks) : Prop :=
  ∀ pos ∈ books.snapshot.position symbol, pos.isFlat ∨ pos.side = side

instance (symbol : String) (side : PositionSide) (books : FuturesBooks) : Decidable (OnSide symbol side books) :=
  inferInstanceAs (Decidable (∀ pos ∈ books.snapshot.position symbol, pos.isFlat ∨ pos.side = side))

variable {contract side price leverage}

lemma booksOf_open (engine : PerpetualPaperEngine) (ledger : Ledger) (quantity : ℚ) (orderId symbol : Option String)
    {minted : String} (hid : minted ∉ ledger.map LedgerTransaction.transactionId) :
    booksOf (engine.openPosition side quantity price leverage orderId symbol minted ledger).2 =
      openIn (engine.contractOf symbol) side price leverage |quantity| (booksOf ledger) := by
  rw [engine.openPosition_ledger ledger, openIn]
  by_cases hopens : side = .flat ∨ (engine.contractOf symbol).maxLeverage = 0
  · have hskip : ¬ engine.OpenRecords ledger side symbol minted := fun h => hopens.elim h.1 h.2.1
    rw [if_pos hopens, if_neg hskip]
  · obtain ⟨hside, hlev⟩ := not_or.mp hopens
    have hrec : engine.OpenRecords ledger side symbol minted := ⟨hside, hlev, hid⟩
    rw [if_neg hopens, if_pos hrec, booksOf_append]
    by_cases hs : (engine.contractOf symbol).symbol = ""
    · have hnameless : (openTransaction (engine.contractOf symbol) side |quantity| price leverage orderId
          minted).metadata.symbol = some "" := by
        rw [← hs]
        rfl
      rw [if_pos hs, applyTxn_nameless _ hnameless]
      rfl
    · rw [if_neg hs, applyTxn_open _ _ _ _ _ _ _ hs]
      rfl

lemma takerFee_add (x y : ℚ) :
    contract.takerFee (x + y) price = contract.takerFee x price + contract.takerFee y price := by
  unfold PerpetualContract.takerFee
  ring

lemma postedMargin_add {x y : ℚ} (hx : 0 ≤ x) (hy : 0 ≤ y) :
    postedMargin contract (x + y) price leverage =
      postedMargin contract x price leverage + postedMargin contract y price leverage := by
  unfold postedMargin
  rw [notional_add contract hx hy, add_div]

lemma addToPosition_add (pos : MarginPosition) {x y : ℚ} (hq : pos.quantity ≠ 0) (hx : 0 ≤ x) (hy : 0 ≤ y)
    (m₁ m₂ : ℚ) :
    addToPosition (addToPosition pos side x price m₁) side y price m₂ =
      addToPosition pos side (x + y) price (m₁ + m₂) := by
  have hpos : 0 < |pos.quantity| := abs_pos.mpr hq
  have hx' : |pos.quantity| + x ≠ 0 := by positivity
  have hxy : |pos.quantity| + x + y ≠ 0 := by positivity
  unfold addToPosition
  dsimp only
  rw [abs_signedQty_of_nonneg side (add_nonneg hpos.le hx), add_assoc pos.initialMargin, ← add_assoc |pos.quantity|]
  congr 1
  field_simp
  ring

/-- A position that is opened twice on its side, at one price. -/
lemma openedPosition_twice {old : Option MarginPosition} (hside : side ≠ .flat)
    (hold : ∀ pos ∈ old, pos.isFlat ∨ pos.side = side) (symbol : String) {x y : ℚ} (hx : 0 ≤ x) (hy : 0 ≤ y)
    (lev : ℚ) {m₁ : ℚ} (m₂ : ℚ) (hm : x = 0 → m₁ = 0) :
    openedPosition (some (openedPosition old symbol side x price lev m₁)) symbol side y price lev m₂ =
      openedPosition old symbol side (x + y) price lev (m₁ + m₂) := by
  have hfresh : openedPosition (some
      { symbol, side, quantity := signedQty side x, avgEntryPrice := price, leverage := lev, initialMargin := m₁ })
      symbol side y price lev m₂ =
        { symbol, side, quantity := signedQty side (x + y), avgEntryPrice := price, leverage := lev,
          initialMargin := m₁ + m₂ } := by
    by_cases hzero : x = 0
    · simp [openedPosition, MarginPosition.isFlat, hzero, hm hzero, signedQty]
    · have hq : signedQty side x ≠ 0 := by
        rw [← abs_pos, abs_signedQty_of_nonneg side hx]
        exact lt_of_le_of_ne hx (Ne.symm hzero)
      have hxy : x + y ≠ 0 := (add_pos_of_pos_of_nonneg (lt_of_le_of_ne hx (Ne.symm hzero)) hy).ne'
      simp only [openedPosition, MarginPosition.isFlat, hside, hq, decide_false, Bool.or_self, Bool.false_eq_true,
        if_false, if_true, addToPosition, abs_signedQty_of_nonneg side hx]
      congr 1
      field_simp
  cases old with
  | none => exact hfresh
  | some pos =>
    by_cases hflat : pos.isFlat
    · simp only [openedPosition, hflat, if_true] at hfresh ⊢
      exact hfresh
    · obtain rfl : pos.side = side := (hold pos rfl).resolve_left hflat
      have hq := (MarginPosition.side_ne_flat hflat).2
      have hgrown : ¬ (addToPosition pos pos.side x price m₁).isFlat := by
        have habs : |(addToPosition pos pos.side x price m₁).quantity| = |pos.quantity| + x :=
          abs_signedQty_of_nonneg _ (add_nonneg (abs_nonneg _) hx)
        rw [MarginPosition.isFlat_iff, not_or, ← ne_eq (addToPosition _ _ _ _ _).quantity, ← abs_pos, habs]
        exact ⟨hside, add_pos_of_pos_of_nonneg (abs_pos.mpr hq) hx⟩
      have hsame : (addToPosition pos pos.side x price m₁).side = pos.side := rfl
      simp only [openedPosition, hflat, Bool.false_eq_true, if_false, if_true]
      simp only [hgrown, hsame, Bool.false_eq_true, if_false, if_true, addToPosition_add pos hq hx hy]

lemma netDebit_openPostings (account : LedgerAccount) (currency : String) (quantity margin fee : ℚ) :
    let share (a : LedgerAccount) : ℚ := if a = account ∧ contract.marginAsset = currency then 1 else 0
    netDebit (PostsTo account currency) (openPostings contract quantity price margin fee) =
      (share (.futuresPositionAsset contract.symbol) - share (.futuresPositionLiability contract.symbol)) *
          contract.notional quantity price +
        (share .futuresTradingFee - share .cash) * fee + (share (.marginOf contract.symbol) - share .cash) * margin := by
  intro share
  have hshare := postsTo_share contract account currency
  simp only [openPostings, netDebit_cons, netDebit_nil, hshare]
  simp only [LedgerPosting.signed]
  ring

lemma applyOpen_fees (snap : FuturesSnapshot) (symbol : String) (qty lev margin fees fees' : ℚ) :
    { ({ snap with feesPaid := fees } : FuturesSnapshot).applyOpen symbol side qty price lev margin with feesPaid := fees' } =
      { snap.applyOpen symbol side qty price lev margin with feesPaid := fees' } := rfl

lemma applyOpen_applyOpen {snap : FuturesSnapshot} {symbol : String} (hside : side ≠ .flat)
    (hold : ∀ pos ∈ snap.position symbol, pos.isFlat ∨ pos.side = side) {x y : ℚ} (hx : 0 ≤ x) (hy : 0 ≤ y) (lev : ℚ)
    {m₁ : ℚ} (m₂ : ℚ) (hm : x = 0 → m₁ = 0) :
    (snap.applyOpen symbol side x price lev m₁).applyOpen symbol side y price lev m₂ =
      snap.applyOpen symbol side (x + y) price lev (m₁ + m₂) := by
  have htwice : openedPosition (some (openedPosition (snap.position symbol) symbol side x price lev m₁)) symbol side y price
      lev m₂ = openedPosition (snap.position symbol) symbol side (x + y) price lev (m₁ + m₂) :=
    openedPosition_twice hside hold symbol hx hy lev m₂ hm
  have hkeys : (openedPosition (snap.position symbol) symbol side (x + y) price lev (m₁ + m₂)).symbol =
      (openedPosition (snap.position symbol) symbol side x price lev m₁).symbol := by
    rw [openedPosition_symbol, openedPosition_symbol]
  have hpos₁ := snap.position_applyOpen symbol side x price lev m₁
  rw [FuturesSnapshot.applyOpen, hpos₁, htwice]
  unfold FuturesSnapshot.applyOpen
  dsimp only
  rw [upsert_upsert hkeys, add_assoc]

lemma openIn_openIn {books : FuturesBooks} (h : OnSide contract.symbol side books) {x y : ℚ} (hx : 0 ≤ x) (hy : 0 ≤ y) :
    openIn contract side price leverage y (openIn contract side price leverage x books) =
      openIn contract side price leverage (x + y) books := by
  by_cases hskip : side = .flat ∨ contract.maxLeverage = 0
  · simp only [openIn, if_pos hskip]
  · have hzero : x = 0 → postedMargin contract x price leverage = 0 := by
      rintro rfl
      simp [postedMargin, PerpetualContract.notional]
    unfold openIn
    rw [if_neg hskip, if_neg hskip, if_neg hskip]
    ext1
    · by_cases hs : contract.symbol = ""
      · simp only [if_pos hs]
      · simp only [if_neg hs]
        rw [applyOpen_fees, applyOpen_applyOpen (not_or.mp hskip).1 h hx hy _ _ hzero, ← postedMargin_add hx hy,
          takerFee_add, add_assoc]
    · funext account currency
      dsimp only
      rw [netDebit_openPostings, netDebit_openPostings, netDebit_openPostings, notional_add contract hx hy, takerFee_add,
        postedMargin_add hx hy]
      ring

end Opening

/-! ### Runs -/

/-- A part of an order: its quantity, the order it names and the id minted for it. -/
structure OrderPart where
  quantity : ℚ
  orderId : Option String := none
  transactionId : String

namespace OrderPart

def closeCall (side : PositionSide) (exitPrice : ℚ) (symbol : Option String) (part : OrderPart) : PerpetualCall × String :=
  (.closePosition side part.quantity exitPrice part.orderId symbol, part.transactionId)

def openCall (side : PositionSide) (price leverage : ℚ) (symbol : Option String) (part : OrderPart) :
    PerpetualCall × String :=
  (.openPosition side part.quantity price leverage part.orderId symbol, part.transactionId)

/-- The size of all parts. -/
def wholeQuantity (parts : List OrderPart) : ℚ :=
  (parts.map (fun part => |part.quantity|)).sum

end OrderPart

open OrderPart

/-- Each part has an id of its own, which the ledger does not have. -/
structure FreshParts (ledger : Ledger) (parts : List OrderPart) : Prop where
  fresh : ∀ part ∈ parts, part.transactionId ∉ ledger.map LedgerTransaction.transactionId
  distinct : (parts.map OrderPart.transactionId).Nodup

lemma FreshParts.tail {ledger ledger' : Ledger} {part : OrderPart} {parts : List OrderPart}
    (h : FreshParts ledger (part :: parts))
    (hids : ∀ id, id ∉ ledger.map LedgerTransaction.transactionId → id ≠ part.transactionId →
      id ∉ ledger'.map LedgerTransaction.transactionId) : FreshParts ledger' parts := by
  obtain ⟨hnot, hnodup⟩ := List.nodup_cons.mp h.distinct
  refine ⟨fun p hp => hids _ (h.fresh p (List.mem_cons_of_mem _ hp)) ?_, hnodup⟩
  exact fun he => hnot (he ▸ List.mem_map_of_mem hp)

lemma notMem_append_single {ledger : Ledger} {t : LedgerTransaction} {id : String}
    (hid : id ∉ ledger.map LedgerTransaction.transactionId) (ht : id ≠ t.transactionId) :
    id ∉ (ledger ++ [t]).map LedgerTransaction.transactionId := by
  rw [List.map_append, List.mem_append, List.map_singleton, List.mem_singleton]
  exact not_or.mpr ⟨hid, ht⟩

section Calls

variable {engine : PerpetualPaperEngine} {ledger : Ledger} {part : OrderPart} {id : String}
  (hid : id ∉ ledger.map LedgerTransaction.transactionId) (hne : id ≠ part.transactionId)
include hid hne

lemma fresh_close (side : PositionSide) (exitPrice : ℚ) (symbol : Option String) :
    id ∉ (engine.perform ledger (part.closeCall side exitPrice symbol)).map LedgerTransaction.transactionId := by
  change id ∉ (engine.closePosition side part.quantity exitPrice part.orderId symbol part.transactionId ledger).2.map _
  by_cases hholds : HoldsSide engine side symbol ledger
  · obtain ⟨pos, hpos, rfl⟩ := hholds
    rw [engine.closePosition_of_holds ledger hpos]
    by_cases hminted : part.transactionId ∈ ledger.map LedgerTransaction.transactionId
    · rwa [if_pos hminted]
    · rw [if_neg hminted]
      exact notMem_append_single hid hne
  · rwa [engine.closePosition_skips part.orderId symbol part.quantity exitPrice hholds]

lemma fresh_open (side : PositionSide) (price leverage : ℚ) (symbol : Option String) :
    id ∉ (engine.perform ledger (part.openCall side price leverage symbol)).map LedgerTransaction.transactionId := by
  change id ∉ (engine.openPosition side part.quantity price leverage part.orderId symbol part.transactionId ledger).2.map _
  rw [engine.openPosition_ledger ledger]
  split
  · exact notMem_append_single hid hne
  · exact hid

end Calls

/-- The books after a run of calls, each of which takes the books a step of its size. -/
lemma booksOf_run {engine : PerpetualPaperEngine} {call : OrderPart → PerpetualCall × String}
    {f : ℚ → FuturesBooks → FuturesBooks}
    (hbooks : ∀ {ledger : Ledger} {part : OrderPart}, part.transactionId ∉ ledger.map LedgerTransaction.transactionId →
      booksOf (engine.perform ledger (call part)) = f |part.quantity| (booksOf ledger))
    (hids : ∀ {ledger : Ledger} {part : OrderPart} {id : String}, id ∉ ledger.map LedgerTransaction.transactionId →
      id ≠ part.transactionId → id ∉ (engine.perform ledger (call part)).map LedgerTransaction.transactionId)
    {ledger : Ledger} {parts : List OrderPart} (h : FreshParts ledger parts) :
    booksOf (run engine.perform ledger (parts.map call)) =
      (parts.map OrderPart.quantity).foldl (fun books q => f |q| books) (booksOf ledger) := by
  induction parts generalizing ledger with
  | nil => rfl
  | cons part parts ih =>
    have hfirst := hbooks (h.fresh part List.mem_cons_self)
    rw [List.map_cons, run_cons, ih (h.tail (fun _ => hids)), hfirst]
    rfl

/-- Steps whose sizes add up leave after all parts what one step of the total leaves. -/
lemma booksOf_parts {engine : PerpetualPaperEngine} {call : OrderPart → PerpetualCall × String}
    {f : ℚ → FuturesBooks → FuturesBooks}
    (hbooks : ∀ {ledger : Ledger} {part : OrderPart}, part.transactionId ∉ ledger.map LedgerTransaction.transactionId →
      booksOf (engine.perform ledger (call part)) = f |part.quantity| (booksOf ledger))
    (hids : ∀ {ledger : Ledger} {part : OrderPart} {id : String}, id ∉ ledger.map LedgerTransaction.transactionId →
      id ≠ part.transactionId → id ∉ (engine.perform ledger (call part)).map LedgerTransaction.transactionId)
    {ledger : Ledger} (hadd : ∀ {x y}, 0 ≤ x → 0 ≤ y → f y (f x (booksOf ledger)) = f (x + y) (booksOf ledger))
    {parts : List OrderPart} (hne : parts ≠ []) (h : FreshParts ledger parts) :
    booksOf (run engine.perform ledger (parts.map call)) = f (wholeQuantity parts) (booksOf ledger) := by
  obtain ⟨part, parts, rfl⟩ := List.exists_cons_of_ne_nil hne
  have hsum : wholeQuantity (part :: parts) = |part.quantity| + ((parts.map OrderPart.quantity).map abs).sum := by
    rw [wholeQuantity, List.map_cons, List.sum_cons, List.map_map]
    rfl
  rw [booksOf_run hbooks hids h, List.map_cons, List.foldl_cons, foldl_parts hadd (abs_nonneg _), hsum]

lemma wholeQuantity_nonneg (parts : List OrderPart) : 0 ≤ wholeQuantity parts := by
  apply List.sum_nonneg
  intro x hx
  obtain ⟨part, -, rfl⟩ := List.mem_map.mp hx
  exact abs_nonneg _

section Samples

def partsEngine : PerpetualPaperEngine := { contract := { symbol := "BTCUSDT" } }

/-- A long of 2 at 100, at leverage 2. -/
def partsLedger : Ledger :=
  (partsEngine.openPosition .long 2 100 2 none none "open" []).2

def sampleParts : List OrderPart := [⟨1 / 2, none, "p1"⟩, ⟨3 / 4, some "o2", "p2"⟩, ⟨5, none, "p3"⟩]

lemma sampleParts_fresh : FreshParts partsLedger sampleParts := ⟨by decide +kernel, by decide +kernel⟩

end Samples

end CryptoTrader
