import CryptoTrader.Lib.Json
import CryptoTrader.Lib.Runs
import Mathlib.Algebra.Order.Ring.Rat
import Mathlib.Data.List.Perm.Subperm
import Mathlib.Data.Sign.Basic
import Mathlib.Tactic.FieldSimp
import Mathlib.Tactic.Positivity

/-!
# Virtual positions

`shadow/virtual_position.py`: a book of positions that are only marked, by symbol. A position that is
opened over another one replaces it, the return of a closed position does not ask for its direction, and
the total of the book adds up the worst marks instead of the last ones. When the book accounts for all
that was opened: `book_accounts_iff`.
-/

namespace CryptoTrader

open KeyedTable Runs Weights

structure VirtualPosition where
  symbol : String
  direction : String
  entryPrice : ℚ
  size : ℚ
  exitPrice : Option ℚ := none
  mae : ℚ := 0
  mfe : ℚ := 0
  pnl : ℚ := 0
  deriving DecidableEq, Repr

namespace VirtualPosition

variable (p : VirtualPosition) (price : ℚ)

/-- What `mark` answers. -/
def pnlAt : ℚ :=
  if p.direction = "LONG" then (price - p.entryPrice) * p.size else (p.entryPrice - price) * p.size

def mark : VirtualPosition :=
  { p with
    mfe := max p.mfe (p.pnlAt price)
    mae := min p.mae (p.pnlAt price) }

def close : VirtualPosition :=
  { p.mark price with
    exitPrice := some price
    pnl := p.pnlAt price }

def roi : ℚ :=
  match p.exitPrice with
  | none => 0
  | some exitPrice => if p.entryPrice = 0 then 0 else (exitPrice - p.entryPrice) / p.entryPrice * 100

end VirtualPosition

/-- A position with what the book does not keep of it: its number among the opened ones and its last mark. -/
structure ShadowTrade where
  position : VirtualPosition
  number : ℕ
  lastPrice : Option ℚ := none
  deriving DecidableEq, Repr

namespace ShadowTrade

variable (t : ShadowTrade)

def lastPnl : ℚ :=
  (t.lastPrice.map t.position.pnlAt).getD 0

def mark (price : ℚ) : ShadowTrade :=
  { t with
    position := t.position.mark price
    lastPrice := some price }

def close (price : ℚ) : ShadowTrade :=
  { t with position := t.position.close price }

end ShadowTrade

structure VirtualPositionBook where
  positions : Dict String ShadowTrade := []
  closed : List ShadowTrade := []
  opened : ℕ := 0
  deriving DecidableEq, Repr

/-- A call of `open` with a positive size and entry price. -/
structure Opening where
  symbol : String
  direction : String
  entryPrice : ℚ
  size : ℚ
  entry_pos : 0 < entryPrice
  size_pos : 0 < size

inductive BookCall where
  | opening (o : Opening)
  | marking (symbol : String) (price : ℚ)
  | closing (symbol : String) (price : ℚ)

namespace VirtualPositionBook

variable (b : VirtualPositionBook)

/-- The position of an `open`, with the next number. -/
def fresh (o : Opening) : ShadowTrade where
  position := { symbol := o.symbol, direction := o.direction.toUpper, entryPrice := o.entryPrice, size := o.size }
  number := b.opened

def call : BookCall → VirtualPositionBook
  | .opening o => { b with positions := b.positions.alter o.symbol (fun _ => b.fresh o), opened := b.opened + 1 }
  | .marking symbol price =>
    match b.positions.get symbol with
    | none => b
    | some t => { b with positions := b.positions.alter symbol (fun _ => t.mark price) }
  | .closing symbol price =>
    match b.positions.get symbol with
    | none => b
    | some t => { b with positions := b.positions.filter (fun e => e.1 ≠ symbol), closed := b.closed ++ [t.close price] }

def allPnl : ℚ :=
  (b.positions.map (fun e => e.2.position.mae)).sum

def numbers : List ℕ :=
  b.positions.map (fun e => e.2.number) ++ b.closed.map ShadowTrade.number

structure ClosedWell (p : VirtualPosition) : Prop where
  sign : SignType.sign p.roi = SignType.sign p.pnl
  mae_le : p.mae ≤ p.pnl
  le_mfe : p.pnl ≤ p.mfe

structure Accounts : Prop where
  once : ∀ n < b.opened, b.numbers.count n = 1
  closed : ∀ t ∈ b.closed, ClosedWell t.position
  total : b.allPnl = (b.positions.map (fun e => e.2.lastPnl)).sum

/-- A position is opened in a symbol without one, marked at a new low that is no gain, and closed long or at its
entry price. -/
def Accountable : BookCall → Prop
  | .opening o => o.symbol ∉ b.positions.map Prod.fst
  | .marking symbol price => ∀ t, b.positions.get symbol = some t → t.position.pnlAt price ≤ t.position.mae
  | .closing symbol price =>
    ∀ t, b.positions.get symbol = some t → t.position.direction = "LONG" ∨ price = t.position.entryPrice

end VirtualPositionBook

/-! ### One position -/

namespace VirtualPosition

variable (p : VirtualPosition) (price : ℚ)

@[simp] lemma pnlAt_mark (other : ℚ) : (p.mark other).pnlAt price = p.pnlAt price := rfl

lemma sign_mul_of_pos {x y : ℚ} (hy : 0 < y) : SignType.sign (x * y) = SignType.sign x := by
  rw [sign_mul, sign_pos hy, mul_one]

/-- The return has the sign of the PnL for a long position, and at the entry price. -/
lemma sign_roi_close (hentry : 0 < p.entryPrice) (hsize : 0 < p.size) :
    SignType.sign (p.close price).roi = SignType.sign (p.close price).pnl ↔
      p.direction = "LONG" ∨ price = p.entryPrice := by
  have hroi : (p.close price).roi = (price - p.entryPrice) * (100 / p.entryPrice) := by
    have hdefinition : (p.close price).roi =
        if p.entryPrice = 0 then 0 else (price - p.entryPrice) / p.entryPrice * 100 := rfl
    rw [hdefinition, if_neg hentry.ne']
    field_simp
  have hpnl : (p.close price).pnl = p.pnlAt price := rfl
  rw [hroi, sign_mul_of_pos (by positivity), hpnl, pnlAt]
  by_cases hlong : p.direction = "LONG"
  · rw [if_pos hlong, sign_mul_of_pos hsize]
    exact iff_of_true rfl (.inl hlong)
  · rw [if_neg hlong, sign_mul_of_pos hsize, ← neg_sub price, Left.sign_neg, SignType.self_eq_neg_iff, sign_eq_zero_iff,
      sub_eq_zero, or_iff_right hlong]

lemma closedWell_close_iff (hentry : 0 < p.entryPrice) (hsize : 0 < p.size) :
    VirtualPositionBook.ClosedWell (p.close price) ↔ p.direction = "LONG" ∨ price = p.entryPrice := by
  rw [← p.sign_roi_close price hentry hsize]
  constructor
  · intro h
    exact h.sign
  · intro h
    exact ⟨h, min_le_right _ _, le_max_right _ _⟩

end VirtualPosition

/-! ### The book -/

namespace VirtualPositionBook

/-- An open position, with its last mark as its worst. -/
structure OpenWell (t : ShadowTrade) : Prop where
  entry_pos : 0 < t.position.entryPrice
  size_pos : 0 < t.position.size
  worst : t.position.mae = t.lastPnl

/-- One position for each symbol, each number once, and every position in order. -/
structure BookInv (b : VirtualPositionBook) : Prop where
  keys : (b.positions.map Prod.fst).Nodup
  numbers : b.numbers.Perm (List.range b.opened)
  openWell : ∀ e ∈ b.positions, OpenWell e.2
  closedWell : ∀ t ∈ b.closed, ClosedWell t.position

variable {b : VirtualPositionBook}

lemma BookInv.accounts (h : b.BookInv) : b.Accounts where
  once n hn := by
    rw [h.numbers.count_eq]
    exact List.count_eq_one_of_mem List.nodup_range (List.mem_range.mpr hn)
  closed := h.closedWell
  total := congrArg List.sum (List.map_congr_left (fun e he => (h.openWell e he).worst))

lemma BookInv.openWell_of_get (h : b.BookInv) {symbol : String} {t : ShadowTrade} (ht : b.positions.get symbol = some t) :
    OpenWell t :=
  h.openWell (symbol, t) (Dict.mem_of_get ht)

section Opening

variable {o : Opening}

lemma openWell_fresh : OpenWell (b.fresh o) where
  entry_pos := o.entry_pos
  size_pos := o.size_pos
  worst := rfl

lemma BookInv.opening (h : b.BookInv) (hnew : o.symbol ∉ b.positions.map Prod.fst) : (b.call (.opening o)).BookInv := by
  have hpositions : (b.call (.opening o)).positions = b.positions ++ [(o.symbol, b.fresh o)] := if_neg hnew
  refine ⟨nodup_upsert h.keys _, ?_, ?_, h.closedWell⟩
  · have hnumbers : (b.call (.opening o)).numbers =
        b.positions.map (fun e => e.2.number) ++ b.opened :: b.closed.map ShadowTrade.number := by
      rw [VirtualPositionBook.numbers, hpositions, List.map_append, List.append_assoc]
      rfl
    have hrange : (b.opened :: List.range b.opened).Perm (List.range (b.opened + 1)) := by
      rw [List.range_succ]
      exact (List.perm_append_singleton b.opened (List.range b.opened)).symm
    rw [hnumbers]
    exact List.perm_middle.trans ((h.numbers.cons b.opened).trans hrange)
  · intro e he
    rw [hpositions] at he
    rcases List.mem_append.mp he with he | he
    · exact h.openWell e he
    · rw [List.mem_singleton.mp he]
      exact openWell_fresh

/-- A position that replaces another one leaves a number without its position. -/
lemma not_accounts_of_replaced (h : b.BookInv) (hold : o.symbol ∈ b.positions.map Prod.fst) :
    ¬ (b.call (.opening o)).Accounts := by
  intro haccounts
  have hpositions : (b.call (.opening o)).positions = put Prod.fst (o.symbol, b.fresh o) b.positions := if_pos hold
  have hlength : (b.call (.opening o)).numbers.length = b.opened := by
    have hbefore := h.numbers.length_eq
    simp only [numbers, List.length_append, List.length_map, List.length_range] at hbefore
    rw [numbers, hpositions, List.length_append, List.length_map, put, List.length_map, List.length_map]
    exact hbefore
  have hsubset : List.range (b.opened + 1) ⊆ (b.call (.opening o)).numbers := by
    intro n hn
    apply List.count_pos_iff.mp
    rw [haccounts.once n (List.mem_range.mp hn)]
    exact one_pos
  have hle := (List.nodup_range.subperm hsubset).length_le
  rw [List.length_range, hlength] at hle
  omega

end Opening

section Marking

variable {symbol : String} {price : ℚ} {t : ShadowTrade}

lemma call_marking (ht : b.positions.get symbol = some t) : b.call (.marking symbol price) =
    { b with positions := b.positions.alter symbol (fun _ => t.mark price) } := by
  simp only [call, ht]

/-- A mark is the worst one exactly if it is no better than the worst before. -/
lemma worst_mark_iff : (t.mark price).position.mae = (t.mark price).lastPnl ↔ t.position.pnlAt price ≤ t.position.mae :=
  min_eq_right_iff

lemma BookInv.marking (h : b.BookInv) (ht : b.positions.get symbol = some t)
    (hlow : t.position.pnlAt price ≤ t.position.mae) : (b.call (.marking symbol price)).BookInv := by
  rw [call_marking ht]
  have hwell := h.openWell_of_get ht
  have hmem : symbol ∈ b.positions.map Prod.fst := List.mem_map.mpr ⟨_, Dict.mem_of_get ht, rfl⟩
  have hsame : ((b.positions.alter symbol (fun _ => t.mark price)).map (fun e => e.2.number)) =
      b.positions.map (fun e => e.2.number) := by
    have hput : b.positions.alter symbol (fun _ => t.mark price) = put Prod.fst (symbol, t.mark price) b.positions :=
      if_pos hmem
    rw [hput]
    apply map_put_of_agrees
    intro e he hkey
    have heq : e = (symbol, t) := eq_of_key_eq h.keys he (Dict.mem_of_get ht) hkey
    rw [heq]
    rfl
  refine ⟨nodup_upsert h.keys _, ?_, ?_, h.closedWell⟩
  · rw [VirtualPositionBook.numbers, hsame]
    exact h.numbers
  · intro e he
    rcases mem_upsert he with rfl | he
    · exact ⟨hwell.entry_pos, hwell.size_pos, worst_mark_iff.mpr hlow⟩
    · exact h.openWell e he

/-- The total of the book is that of the last marks only if the mark is a new worst one. -/
lemma low_of_total (h : b.BookInv) (ht : b.positions.get symbol = some t)
    (haccounts : (b.call (.marking symbol price)).Accounts) : t.position.pnlAt price ≤ t.position.mae := by
  let excess : String × ShadowTrade → ℚ := fun e => e.2.position.mae - e.2.lastPnl
  have hexcess (l : Dict String ShadowTrade) : weight excess l =
      (l.map (fun e => e.2.position.mae)).sum - (l.map (fun e => e.2.lastPnl)).sum := by
    apply eq_sub_of_add_eq
    rw [weight, ← List.sum_map_add]
    exact congrArg List.sum (List.map_congr_left (fun e _ => sub_add_cancel _ _))
  have hbefore : weight excess b.positions = 0 := by
    rw [hexcess]
    exact sub_eq_zero.mpr h.accounts.total
  have hafter : weight excess (b.positions.alter symbol (fun _ => t.mark price)) = 0 := by
    have htotal := haccounts.total
    rw [call_marking ht] at htotal
    rw [hexcess]
    exact sub_eq_zero.mpr htotal
  have hrow : rowWeight Prod.fst excess symbol b.positions = 0 := by
    have hget : row Prod.fst symbol b.positions = some (symbol, t) :=
      (row_iff_mem h.keys).mpr ⟨Dict.mem_of_get ht, rfl⟩
    rw [rowWeight, hget]
    exact sub_eq_zero.mpr (h.openWell_of_get ht).worst
  have hmark : excess (symbol, t.mark price) = 0 := by
    rw [Dict.alter, weight_upsert excess h.keys, hbefore, hrow, zero_add, sub_zero] at hafter
    exact hafter
  exact worst_mark_iff.mp (sub_eq_zero.mp hmark)

end Marking

section Closing

variable {symbol : String} {price : ℚ} {t : ShadowTrade}

lemma call_closing (ht : b.positions.get symbol = some t) : b.call (.closing symbol price) =
    { b with positions := b.positions.filter (fun e => e.1 ≠ symbol), closed := b.closed ++ [t.close price] } := by
  simp only [call, ht]

/-- A position moves from the open ones to the closed ones. -/
lemma numbers_closing (h : b.BookInv) (ht : b.positions.get symbol = some t) :
    (b.call (.closing symbol price)).numbers.Perm b.numbers := by
  rw [call_closing ht]
  have hsplit : ((symbol, t) :: b.positions.filter (fun e => e.1 ≠ symbol)).Perm b.positions := by
    have hone : b.positions.filter (fun e => e.1 = symbol) = [(symbol, t)] :=
      filter_key_of_mem h.keys (Dict.mem_of_get ht)
    have hperm := List.filter_append_perm (fun e : String × ShadowTrade => decide (e.1 = symbol)) b.positions
    rw [hone] at hperm
    simpa using hperm
  have hopen := (hsplit.map (fun e => e.2.number)).append_right (b.closed.map ShadowTrade.number)
  simp only [numbers, List.map_append, List.map_singleton]
  rw [← List.append_assoc]
  exact (List.perm_append_singleton _ _).trans hopen

lemma BookInv.closing (h : b.BookInv) (ht : b.positions.get symbol = some t)
    (hside : t.position.direction = "LONG" ∨ price = t.position.entryPrice) : (b.call (.closing symbol price)).BookInv := by
  have hnumbers : (b.call (.closing symbol price)).numbers.Perm (List.range b.opened) :=
    (numbers_closing h ht).trans h.numbers
  have hwell := h.openWell_of_get ht
  rw [call_closing ht] at hnumbers ⊢
  refine ⟨nodup_filter h.keys _, hnumbers, ?_, ?_⟩
  · intro e he
    exact h.openWell e (List.mem_of_mem_filter he)
  · intro closed hclosed
    rcases List.mem_append.mp hclosed with hclosed | hclosed
    · exact h.closedWell closed hclosed
    · rw [List.mem_singleton.mp hclosed]
      exact (t.position.closedWell_close_iff price hwell.entry_pos hwell.size_pos).mpr hside

end Closing

/-- In every run of calls the book accounts for what was opened if and only if each call is one that it can account for. -/
theorem book_accounts_iff (calls : List BookCall) :
    Visits call Accounts {} calls ↔ Along call Accountable {} calls := by
  apply visits_iff_along (I := BookInv) (W := fun _ _ => True)
  · intro b h
    exact h.accounts
  · intro b c h _ hc
    cases c with
    | opening o => exact h.opening hc
    | marking symbol price =>
      cases ht : b.positions.get symbol with
      | none => simpa only [call, ht] using h
      | some t => exact h.marking ht (hc t ht)
    | closing symbol price =>
      cases ht : b.positions.get symbol with
      | none => simpa only [call, ht] using h
      | some t => exact h.closing ht (hc t ht)
  · intro b c h _ haccounts
    cases c with
    | opening o => exact fun hold => not_accounts_of_replaced h hold haccounts
    | marking symbol price => exact fun t ht => low_of_total h ht haccounts
    | closing symbol price =>
      intro t ht
      have hwell := h.openWell_of_get ht
      rw [call_closing ht] at haccounts
      have hclosed := haccounts.closed (t.close price) (List.mem_append_right _ (List.mem_singleton_self _))
      exact (t.position.closedWell_close_iff price hwell.entry_pos hwell.size_pos).mp hclosed
  · exact ⟨List.nodup_nil, List.Perm.refl _, fun _ he => absurd he List.not_mem_nil, fun _ ht => absurd ht List.not_mem_nil⟩
  · exact along_of_forall (fun _ _ => trivial)

def short : Opening where
  symbol := "BTC/USDT"
  direction := "short"
  entryPrice := 100
  size := 1
  entry_pos := by decide
  size_pos := by decide

/-- A position is opened twice, a short one is closed at a gain, and one is marked at a gain. -/
theorem book_loses_track :
    ¬ Visits call Accounts {} [.opening short, .opening short] ∧
      ¬ Visits call Accounts {} [.opening short, .closing "BTC/USDT" 90] ∧
      ¬ Visits call Accounts {} [.opening short, .marking "BTC/USDT" 90] := by
  refine ⟨?_, ?_, ?_⟩
  · intro h
    have hfirst := h.last.once 0 (by decide +kernel)
    revert hfirst
    decide +kernel
  · intro h
    have hsign := (h.last.closed _ (List.mem_singleton_self _)).sign
    revert hsign
    decide +kernel
  · intro h
    have htotal := h.last.total
    revert htotal
    decide +kernel

end VirtualPositionBook

end CryptoTrader
