import CryptoTrader.MarketData.Service

/-!
# Updates that are rejected

Levels as they come in: a price or a quantity may be malformed. An update stops at the first level that is
rejected, and keeps what it has set before (`apply_spec`); neither the sides nor the status are put back.
-/

namespace CryptoTrader

/-- Prices with their new quantities, before `D` has read them. -/
abbrev RawUpdates := List (RawDecimal × RawDecimal)

/-- `_upsert` on levels as they come in. -/
def upsertRaw : BookSide → RawUpdates → Except TradingError Unit × BookSide
  | side, [] => (.ok (), side)
  | side, (rawPrice, rawQuantity) :: updates =>
    match D rawPrice, D rawQuantity with
    | .error e, _ => (.error e, side)
    | .ok _, .error e => (.error e, side)
    | .ok price, .ok quantity =>
      match upsertLevels side [(price, quantity)] with
      | (.error e, side) => (.error e, side)
      | (.ok (), side) => upsertRaw side updates

/-- The levels before the first that is rejected. -/
def accepted : RawUpdates → Updates
  | (.value price, .value quantity) :: updates => if quantity < 0 then [] else (price, quantity) :: accepted updates
  | _ => []

/-- Levels that `D` reads. -/
def rawOf (updates : Updates) : RawUpdates :=
  updates.map (fun u => (.value u.1, .value u.2))

def rejects (updates : RawUpdates) : Bool :=
  (accepted updates).length < updates.length

inductive BookUpdate where
  | snapshot (sequence : ℤ) (bids asks : RawUpdates)
  | delta (sequence : ℤ) (bids asks : RawUpdates)
  deriving DecidableEq, Repr

namespace SequencedBook

variable (book : SequencedBook)

/-- Both sides are updated, the bids first. -/
def upsertRawSides (bids asks : RawUpdates) : Except TradingError Unit × SequencedBook :=
  match upsertRaw book.bids bids with
  | (.error e, side) => (.error e, { book with bids := side })
  | (.ok (), side) =>
    let (result, side') := upsertRaw book.asks asks
    (result, { book with bids := side, asks := side' })

/-- `apply_snapshot` and `apply_delta`. -/
def apply : BookUpdate → Except TradingError Unit × SequencedBook
  | .snapshot sequence bids asks =>
    match ({ book with sequence := some sequence, bids := {}, asks := {} } : SequencedBook).upsertRawSides bids asks with
    | (.error e, book') => (.error e, book')
    | (.ok (), book') => (.ok (), { book' with status := .healthy })
  | .delta sequence bids asks =>
    if ∃ n ∈ book.sequence, sequence ≠ n + 1 then
      (.error (.sequenceGap s!"{book.symbol} sequence gap: expected {book.sequence.getD 0 + 1}, got {sequence}"), book)
    else
      match book.upsertRawSides bids asks with
      | (.error e, book') => (.error e, book')
      | (.ok (), book') => (.ok (), { book' with sequence := some sequence })

/-- The books have the same sequence and the same levels. -/
def Same (book' : SequencedBook) : Prop :=
  book'.sequence = book.sequence ∧ book'.bids.depth = book.bids.depth ∧ book'.asks.depth = book.asks.depth

end SequencedBook

/-- What is left of an update that raises is the book before it: a delta that is not the next one, or levels
before the first rejected one that change nothing. -/
def BookUpdate.LeavesSame (book : SequencedBook) : BookUpdate → Prop
  | .snapshot sequence bids asks =>
    book.sequence = some sequence ∧ setDepths (fun _ => 0) (accepted bids) = book.bids.depth ∧
      setDepths (fun _ => 0) (if rejects bids then [] else accepted asks) = book.asks.depth
  | .delta sequence bids asks => (∃ n ∈ book.sequence, sequence ≠ n + 1) ∨
      setDepths book.bids.depth (accepted bids) = book.bids.depth ∧
        setDepths book.asks.depth (if rejects bids then [] else accepted asks) = book.asks.depth

def BookUpdate.rejected : BookUpdate → Bool
  | .snapshot _ bids asks | .delta _ bids asks => rejects bids || rejects asks

/-! ### How far an update gets -/

lemma upsertRaw_spec (side : BookSide) (updates : RawUpdates) :
    ((upsertRaw side updates).1 = .ok () ↔ rejects updates = false) ∧
      (upsertRaw side updates).2.depth = setDepths side.depth (accepted updates) := by
  induction updates generalizing side with
  | nil => exact ⟨by simp [upsertRaw, rejects], rfl⟩
  | cons u updates ih =>
    obtain ⟨rawPrice, rawQuantity⟩ := u
    cases rawPrice with
    | malformed => exact ⟨by simp [upsertRaw, D, rejects, accepted], rfl⟩
    | value price =>
      cases rawQuantity with
      | malformed => exact ⟨by simp [upsertRaw, D, rejects, accepted], rfl⟩
      | value quantity =>
        by_cases hneg : quantity < 0
        · have herror : upsertLevels side [(price, quantity)] =
              (.error (.valueError "orderbook quantity must be non-negative"), side) := by rw [upsertLevels, dif_pos hneg]
          simp only [upsertRaw, D, herror, rejects, accepted, if_pos hneg]
          exact ⟨by simp, rfl⟩
        · have hnonneg : NonNegative [(price, quantity)] := by simpa [NonNegative] using not_lt.mp hneg
          obtain ⟨side', hset, hdepth⟩ := upsertLevels_ok hnonneg side
          obtain ⟨hok, hrest⟩ := ih side'
          simp only [upsertRaw, D, hset, rejects, accepted, if_neg hneg]
          refine ⟨hok.trans ?_, ?_⟩
          · simp [rejects]
          · rw [hrest, hdepth]
            rfl

lemma upsertRaw_rawOf (side : BookSide) (updates : Updates) : upsertRaw side (rawOf updates) = upsertLevels side updates := by
  induction updates generalizing side with
  | nil => rfl
  | cons u updates ih =>
    obtain ⟨price, quantity⟩ := u
    unfold rawOf at ih ⊢
    rw [List.map_cons, upsertRaw, upsertLevels]
    simp only [D]
    by_cases hneg : quantity < 0
    · simp [upsertLevels, hneg]
    · by_cases hzero : quantity = 0
      · simp [upsertLevels, hzero, ih]
      · simp [upsertLevels, hneg, hzero, ih]

namespace SequencedBook

variable (book : SequencedBook)

lemma upsertRawSides_spec (bids asks : RawUpdates) :
    ∃ bidSide askSide, (book.upsertRawSides bids asks).2 = { book with bids := bidSide, asks := askSide } ∧
      ((book.upsertRawSides bids asks).1 = .ok () ↔ (rejects bids || rejects asks) = false) ∧
      bidSide.depth = setDepths book.bids.depth (accepted bids) ∧
      askSide.depth = setDepths book.asks.depth (if rejects bids then [] else accepted asks) := by
  obtain ⟨hbok, hbdepth⟩ := upsertRaw_spec book.bids bids
  obtain ⟨haok, hadepth⟩ := upsertRaw_spec book.asks asks
  unfold upsertRawSides
  cases hb : upsertRaw book.bids bids with
  | mk result side =>
    rw [hb] at hbok hbdepth
    cases result with
    | error e =>
      have hrejects : rejects bids = true := by simpa using hbok
      refine ⟨side, book.asks, rfl, by simp [hrejects], hbdepth, ?_⟩
      rw [if_pos hrejects]
      rfl
    | ok u =>
      have hrejects : rejects bids = false := by simpa using hbok
      refine ⟨side, (upsertRaw book.asks asks).2, rfl, ?_, hbdepth, ?_⟩
      · rw [hrejects, Bool.false_or]
        exact haok
      · rw [if_neg (by simp [hrejects])]
        exact hadepth

lemma upsertRawSides_cases (bids asks : RawUpdates) :
    ∃ result bidSide askSide, book.upsertRawSides bids asks = (result, { book with bids := bidSide, asks := askSide }) ∧
      (result = .ok () ↔ (rejects bids || rejects asks) = false) ∧
      bidSide.depth = setDepths book.bids.depth (accepted bids) ∧
      askSide.depth = setDepths book.asks.depth (if rejects bids then [] else accepted asks) := by
  obtain ⟨bidSide, askSide, hbook, hok, hbdepth, hadepth⟩ := book.upsertRawSides_spec bids asks
  exact ⟨_, bidSide, askSide, Prod.ext rfl hbook, hok, hbdepth, hadepth⟩

lemma upsertRawSides_rawOf (bids asks : Updates) :
    book.upsertRawSides (rawOf bids) (rawOf asks) = book.upsertSides bids asks := by
  unfold upsertRawSides upsertSides
  rewrite [upsertRaw_rawOf, upsertRaw_rawOf]
  rfl

/-- On levels that `D` reads, these are the updates of the book's model. -/
lemma apply_rawOf : (∀ sequence bids asks, book.apply (.snapshot sequence (rawOf bids) (rawOf asks)) =
    book.applySnapshot sequence bids asks) ∧
      ∀ x : Delta, book.apply (.delta x.sequence (rawOf x.bids) (rawOf x.asks)) = book.applyDelta x := by
  constructor
  · intro sequence bids asks
    unfold apply
    dsimp only
    rewrite [upsertRawSides_rawOf]
    rfl
  · intro x
    simp only [apply, applyDelta, applyDelta.change, upsertRawSides_rawOf]
    cases book.sequence with
    | none =>
      rewrite [if_neg (by simp)]
      rfl
    | some n =>
      by_cases hnext : x.sequence = n + 1
      · dsimp only
        rewrite [if_neg (by simp [hnext]), if_neg (not_not.mpr hnext)]
        rfl
      · simp [hnext]

variable {book}

lemma apply_rejected {update : BookUpdate} (h : update.rejected = true) : (book.apply update).1 ≠ .ok () := by
  cases update with
  | snapshot sequence bids asks =>
    obtain ⟨result, bidSide, askSide, hup, hok, -⟩ :=
      ({ book with sequence := some sequence, bids := {}, asks := {} } : SequencedBook).upsertRawSides_cases bids asks
    simp only [apply]
    rw [hup]
    cases result with
    | error e => simp
    | ok u =>
      have hnone : BookUpdate.rejected (.snapshot sequence bids asks) = false := hok.mp rfl
      exact absurd (hnone.symm.trans h) Bool.false_ne_true
  | delta sequence bids asks =>
    obtain ⟨result, bidSide, askSide, hup, hok, -⟩ := book.upsertRawSides_cases bids asks
    simp only [apply]
    by_cases hgap : ∃ n ∈ book.sequence, sequence ≠ n + 1
    · rw [if_pos hgap]
      simp
    · rw [if_neg hgap, hup]
      cases result with
      | error e => simp
      | ok u =>
        have hnone : BookUpdate.rejected (.delta sequence bids asks) = false := hok.mp rfl
        exact absurd (hnone.symm.trans h) Bool.false_ne_true

/-- An update that raises leaves the status, and what it has set before the first rejected level. -/
lemma apply_spec {update : BookUpdate} (h : (book.apply update).1 ≠ .ok ()) :
    (book.apply update).2.status = book.status ∧ (book.Same (book.apply update).2 ↔ update.LeavesSame book) ∧
      (update.rejected = false → update.LeavesSame book) := by
  cases update with
  | snapshot sequence bids asks =>
    obtain ⟨result, bidSide, askSide, hup, hok, hbdepth, hadepth⟩ :=
      ({ book with sequence := some sequence, bids := {}, asks := {} } : SequencedBook).upsertRawSides_cases bids asks
    rw [BookSide.depth_empty] at hbdepth hadepth
    simp only [apply] at h ⊢
    rw [hup] at h ⊢
    cases result with
    | ok u => simp at h
    | error e =>
      refine ⟨rfl, ?_, fun hnone => ?_⟩
      · simp only [Same, BookUpdate.LeavesSame, hbdepth, hadepth, eq_comm]
      · exact absurd (hok.mpr hnone) (by simp)
  | delta sequence bids asks =>
    obtain ⟨result, bidSide, askSide, hup, hok, hbdepth, hadepth⟩ := book.upsertRawSides_cases bids asks
    simp only [apply] at h ⊢
    by_cases hgap : ∃ n ∈ book.sequence, sequence ≠ n + 1
    · rw [if_pos hgap]
      exact ⟨rfl, iff_of_true ⟨rfl, rfl, rfl⟩ (Or.inl hgap), fun _ => Or.inl hgap⟩
    · rw [if_neg hgap, hup] at h ⊢
      cases result with
      | ok u => simp at h
      | error e =>
        refine ⟨rfl, ?_, fun hnone => ?_⟩
        · simp only [Same, BookUpdate.LeavesSame, hbdepth, hadepth, true_and, or_iff_right hgap]
        · exact absurd (hok.mpr hnone) (by simp)

end SequencedBook

end CryptoTrader
