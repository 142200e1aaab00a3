import CryptoTrader.Runtime.OrderFlow
import CryptoTrader.Runtime.SpotPositions

/-!
# Sales under way

The gates let a sale pass that fits into the settled position. The replay of the ledger never
raises if every approved sale fits in beside the sales that are approved before it and not
settled yet.
-/

namespace CryptoTrader

open KeyedTable OrderStore Weights Runs

/-- The quantities of the sales of a symbol. -/
def salesOf (symbol : String) : Valuation where
  approved a := if a.signal.symbol = symbol ∧ a.signal.side = .sell then a.signal.quantity else 0
  working w := if w.symbol = symbol ∧ w.side = .sell then w.remaining else 0
  fill f := if f.symbol = symbol ∧ f.side = .sell then f.quantity else 0

/-- All quantities. -/
def volume : Valuation where
  approved a := a.signal.quantity
  working w := w.remaining
  fill f := f.quantity

/-- The signals are for spot symbols, an execution is of no negative quantity, and a
settlement runs through. -/
def SpotTurn (st : OrderFlow) (turn : FlowTurn) : Prop :=
  ReportsOrder st turn ∧ match turn with
    | .decide signal _ => signal.marketType = .spot
    | .execute _ fill => 0 ≤ fill.quantity
    | .settle _ ctx => ctx.Fresh ∧ ∀ f, ctx.interruption f = none
    | _ => True

/-- A sale that is approved fits into the settled position beside the sales that are under
way. -/
def SaleFits (setup : PerpetualSetup) (st : OrderFlow) : FlowTurn → Prop
  | .decide signal env => st.db.store.getByClient (clientOrderId signal) = none → Approves setup.engine env signal st.db →
      signal.side = .sell → signal.quantity + st.outstanding (salesOf signal.symbol) ≤ st.db.rest.held signal.symbol
  | _ => True

def LedgerReplays (st : OrderFlow) : Prop :=
  ∀ initialBalances, ∃ snap, replayProjections initialBalances st.db.rest.ledger = .ok snap

/-- The sales under way fit into the persisted positions, and these are the replayed ones. -/
structure SalesCovered (st : OrderFlow) : Prop where
  tracked : OrdersKnown st
  replayed : ∃ snap, Replayed st.db.rest snap
  spot : ∀ a ∈ st.approved, a.signal.marketType = .spot
  volume : volume.Nonneg st
  covered : ∀ symbol, st.outstanding (salesOf symbol) ≤ st.db.rest.held symbol

lemma volume_submits : volume.Submits :=
  fun _ _ _ _ horder => horder.quantity

lemma salesOf_submits (symbol : String) : (salesOf symbol).Submits := by
  intro a s order _ horder
  have hsymbol : order.symbol = a.signal.symbol := horder.symbol
  have hside : order.side = a.signal.side := horder.side
  have hquantity : order.quantity = a.signal.quantity := horder.quantity
  simp only [salesOf, WorkingOrder.ofOrder, hsymbol, hside, hquantity]

lemma signed_add_sale {f : Fill} (h : 0 ≤ f.quantity) : 0 ≤ f.signed + (salesOf f.symbol).fill f := by
  unfold Fill.signed salesOf
  dsimp only
  cases f.side with
  | buy => simpa using h
  | sell => simp

section Steps

variable {setup : PerpetualSetup} {st st' : OrderFlow} {turn : FlowTurn}

lemma SpotTurn.executed (h : SpotTurn st turn) : ∀ n fill, turn = .execute n fill → 0 ≤ fill.quantity := by
  rintro n fill rfl
  exact h.2

lemma volume_splits (hexecuted : ∀ n fill, turn = .execute n fill → 0 ≤ fill.quantity) : volume.Splits setup st turn := by
  cases turn with
  | decide signal env => exact fun happrove => happrove.approval.gate.1.le
  | execute n fill =>
    intro w hw hle
    exact ⟨hexecuted n fill rfl, sub_nonneg.mpr hle, sub_add_cancel _ _⟩
  | _ => trivial

lemma salesOf_splits (symbol : String) (hspot : SpotTurn st turn) : (salesOf symbol).Splits setup st turn := by
  cases turn with
  | decide signal env => exact fun happrove => ite_nonneg happrove.approval.gate.1.le le_rfl
  | execute n fill =>
    intro w hw hle
    obtain ⟨-, hsymbol, hside⟩ := hspot.1 w hw
    simp only [salesOf, WorkingOrder.after, hsymbol, hside]
    split
    · exact ⟨hspot.2, sub_nonneg.mpr hle, sub_add_cancel _ _⟩
    · exact ⟨le_rfl, le_rfl, add_zero 0⟩
  | _ => trivial

lemma Valuation.Nonneg.salesOf (h : volume.Nonneg st) (symbol : String) : (salesOf symbol).Nonneg st :=
  ⟨fun a ha => ite_nonneg (h.approved a ha) le_rfl, fun w hw => ite_nonneg (h.working w hw) le_rfl,
    fun f hf => ite_nonneg (h.queued f hf) le_rfl, fun f hf => ite_nonneg (h.unsettled f hf) le_rfl⟩

lemma FlowEffect.approved_spot (h : FlowEffect setup st turn st') (hspot : ∀ a ∈ st.approved, a.signal.marketType = .spot)
    (hturn : SpotTurn st turn) : ∀ a ∈ st'.approved, a.signal.marketType = .spot := by
  have hu : UnderWay (fun a => a.signal.marketType = .spot) (fun _ => True) (fun _ => True) st := by
    exact ⟨hspot, by simp, by simp, by simp⟩
  apply (h.underWay hu ⟨?_, fun _ _ _ _ _ _ => trivial, fun _ _ _ _ _ _ _ => ⟨trivial, trivial⟩⟩).approved
  rintro signal env rfl - -
  exact hturn.2

lemma SalesCovered.settle (h : SalesCovered st) (setup : PerpetualSetup) {n : Nat} {ctx : SettleContext} (hturn : SpotTurn st (.settle n ctx)) :
    ∃ snap, Replayed (flowStep setup st (.settle n ctx)).db.rest snap ∧ ∀ symbol, st.db.rest.held symbol ≤
      (flowStep setup st (.settle n ctx)).db.rest.held symbol + released (salesOf symbol) st (.settle n ctx) := by
  obtain ⟨snap, hreplayed⟩ := h.replayed
  obtain ⟨-, hfresh, huncut⟩ := hturn
  simp only [flowStep, released]
  cases hf : st.unsettled[n]? with
  | none => exact ⟨snap, hreplayed, fun symbol => (add_zero _).ge⟩
  | some fill =>
    dsimp only [Option.elim_some]
    have hmem := List.mem_of_getElem? hf
    have hnonneg : 0 ≤ fill.quantity := h.volume.unsettled fill hmem
    have hroom : fill.side = .sell → fill.quantity ≤ st.db.rest.held fill.symbol := by
      intro hsell
      have hweight := le_weight_of_mem (h.volume.salesOf fill.symbol).unsettled hmem
      have hfill : (salesOf fill.symbol).fill fill = fill.quantity := if_pos ⟨rfl, hsell⟩
      have hunsettled : weight (salesOf fill.symbol).fill st.unsettled ≤ st.outstanding (salesOf fill.symbol) := by
        have happroved := weight_nonneg (h.volume.salesOf fill.symbol).approved
        have hworking := weight_nonneg (h.volume.salesOf fill.symbol).working
        have hqueued := weight_nonneg (h.volume.salesOf fill.symbol).queued
        unfold OrderFlow.outstanding
        linarith
      rw [← hfill]
      exact (hweight.trans hunsettled).trans (h.covered fill.symbol)
    obtain ⟨snap', hreplayed', hwrites⟩ := hreplayed.settle_writes setup.quarantined hfresh (huncut fill)
      (fun _ hget => (h.tracked.unsettled fill hmem).of_get hget) hroom
    refine ⟨snap', hreplayed', fun symbol => ?_⟩
    rcases hwrites with hsame | ⟨t, m, pos, -, -, hpositions, hsymbol, hquantity, -⟩
    · rw [hsame]
      exact le_add_of_nonneg_right ((h.volume.salesOf symbol).unsettled fill hmem)
    · rw [Books.held, Books.held, hpositions, rowWeight_upsert, hsymbol]
      by_cases hs : symbol = fill.symbol
      · rw [if_pos hs, hquantity, hs, add_assoc]
        exact le_add_of_nonneg_right (signed_add_sale hnonneg)
      · rw [if_neg hs]
        exact le_add_of_nonneg_right ((h.volume.salesOf symbol).unsettled fill hmem)

lemma SalesCovered.added (h : SalesCovered st) (hfits : SaleFits setup st turn) (symbol : String) :
    st.outstanding (salesOf symbol) + added (salesOf symbol) setup st turn ≤ st.db.rest.held symbol := by
  have hcovered := h.covered symbol
  obtain hnone | ⟨signal, env, rfl, hclient, happrove, hadded⟩ := added_cases (salesOf symbol) setup st turn
  · rwa [hnone, add_zero]
  · rw [hadded]
    by_cases hsale : signal.symbol = symbol ∧ signal.side = .sell
    · have hvalue : (salesOf symbol).approved ⟨signal, env.marketPrice, env.runId⟩ = signal.quantity := if_pos hsale
      have hroom := hfits hclient happrove hsale.2
      rw [hsale.1, add_comm] at hroom
      rwa [hvalue]
    · have hvalue : (salesOf symbol).approved ⟨signal, env.marketPrice, env.runId⟩ = 0 := if_neg hsale
      rwa [hvalue, add_zero]

lemma SalesCovered.step (h : SalesCovered st) (hturn : SpotTurn st turn) (hfits : SaleFits setup st turn) :
    SalesCovered (flowStep setup st turn) := by
  have heff := flow_effect setup h.tracked.keys turn
  have htracked := heff.tracked h.tracked hturn.1
  have hvolume := heff.nonneg h.volume volume_submits (volume_splits hturn.executed)
  have hspot := heff.approved_spot h.spot hturn
  have hunder (symbol : String) := heff.outstanding_le (h.volume.salesOf symbol) (fun _ _ _ => salesOf_submits symbol)
    (salesOf_splits symbol hturn)
  have hadded (symbol : String) := h.added hfits symbol
  by_cases hsettle : ∃ n ctx, turn = .settle n ctx
  · obtain ⟨n, ctx, rfl⟩ := hsettle
    obtain ⟨snap, hreplayed, hheld⟩ := h.settle setup hturn
    refine ⟨htracked, ⟨snap, hreplayed⟩, hspot, hvolume, fun symbol => ?_⟩
    linarith [hunder symbol, hadded symbol, hheld symbol]
  · have hrest := heff.rest (fun n ctx heq => hsettle ⟨n, ctx, heq⟩) (fun a _ _ ha _ => h.spot a (List.mem_of_getElem? ha))
    refine ⟨htracked, ?_, hspot, hvolume, fun symbol => ?_⟩
    · rw [hrest]
      exact h.replayed
    · rw [hrest]
      linarith [hunder symbol, hadded symbol, (h.volume.salesOf symbol).released turn]

end Steps

lemma Replayed.replays {books : Books} {snap : ProjectionSnapshot} (h : Replayed books snap) (initialBalances : Balances) :
    ∃ snap', replayProjections initialBalances books.ledger = .ok snap' := by
  rcases replayProjections_shifted initialBalances books.ledger with ⟨e, he, -⟩ | ⟨-, snap', -, hok, -⟩
  · rw [h.replay] at he
    exact absurd he (by simp)
  · exact ⟨snap', hok⟩

/-- From books that replay to their positions, none of them short, every run on spot symbols
in which each approved sale fits in beside those under way keeps the ledger replayable. -/
theorem ledger_replays_along {setup : PerpetualSetup} {db : Db Books} {snap : ProjectionSnapshot}
    (hkeys : UniqueKeys db.store) (hreplayed : Replayed db.rest snap) (hlong : ∀ symbol, 0 ≤ db.rest.held symbol)
    {turns : List FlowTurn} (hturns : Along (flowStep setup) SpotTurn { db } turns)
    (hfits : Along (flowStep setup) (SaleFits setup) { db } turns) :
    Visits (flowStep setup) LedgerReplays { db } turns := by
  have hstart : SalesCovered { db } := by
    refine ⟨⟨hkeys, by simp, by simp, by simp⟩, ⟨snap, hreplayed⟩, by simp, ⟨by simp, by simp, by simp, by simp⟩, ?_⟩
    intro symbol
    simpa [OrderFlow.outstanding] using hlong symbol
  have hcovered : Visits (flowStep setup) SalesCovered { db } turns :=
    visits_of_along (fun st turn h hc => h.step hc.1 hc.2) hstart (along_and.mpr ⟨hturns, hfits⟩)
  refine hcovered.mono (fun st h initialBalances => ?_)
  obtain ⟨snap', hreplayed'⟩ := h.replayed
  exact hreplayed'.replays initialBalances

/-! ### Sales of one symbol -/

instance (setup : PerpetualSetup) (st : OrderFlow) : ∀ turn, Decidable (SaleFits setup st turn)
  | .decide _ _ => inferInstanceAs (Decidable (_ → _ → _ → _))
  | .submit _ _ | .transition _ _ _ | .execute _ _ | .withdraw _ | .apply _ _ | .settle _ _ => .isTrue trivial

/-- A unit is bought, and one sale of it is approved and settled. -/
def soldOnce : List FlowTurn :=
  [.decide (unitSignal "s1" .buy) unitEnv, .submit 0 (attemptIds 1)] ++ unitSettled 1 0 .buy ++
    [.decide (unitSignal "s2" .sell) unitEnv, .submit 0 (attemptIds 2)] ++ unitSettled 2 1 .sell

/-- A unit is bought, and two sales of it are approved before the first is settled. -/
def soldTwice : List FlowTurn :=
  [.decide (unitSignal "s1" .buy) unitEnv, .submit 0 (attemptIds 1)] ++ unitSettled 1 0 .buy ++
    [.decide (unitSignal "s2" .sell) unitEnv, .submit 0 (attemptIds 2), .decide (unitSignal "s3" .sell) unitEnv,
      .submit 0 (attemptIds 3)] ++ unitSettled 2 1 .sell ++ unitSettled 3 2 .sell

/-- A list of turns on spot symbols makes a run if its executions are reported as they are. -/
lemma spotTurns {setup : PerpetualSetup} {st : OrderFlow} {turns : List FlowTurn}
    (hreports : Along (flowStep setup) ReportsOrder st turns)
    (hturns : ∀ turn ∈ turns, match turn with
      | .decide signal _ => signal.marketType = .spot
      | .execute _ fill => 0 ≤ fill.quantity
      | .settle _ ctx => ctx.Fresh ∧ ∀ f, ctx.interruption f = none
      | _ => True) : Along (flowStep setup) SpotTurn st turns :=
  along_and.mpr ⟨hreports, along_of_forall hturns⟩

theorem ledger_replays_sold : Visits (flowStep paperSetup) LedgerReplays { db := ⟨{}, {}⟩ } soldOnce := by
  have hreplayed : Replayed {} {} := ⟨rfl, rfl⟩
  have hturns : Along (flowStep paperSetup) SpotTurn { db := ⟨{}, {}⟩ } soldOnce := by
    apply spotTurns (by decide +kernel)
    simp [soldOnce, unitSettled, unitSignal, cutContext_fresh, uncutContext]
  exact ledger_replays_along ⟨by simp, by simp⟩ hreplayed (fun _ => le_rfl) hturns (by decide +kernel)

/-- Both sales fit into the settled position when they are approved. The second is settled
all the same, and from then on no replay of the ledger returns. -/
theorem second_sale_poisons_replay : Along (flowStep paperSetup) SpotTurn { db := ⟨{}, {}⟩ } soldTwice ∧
    ¬ Visits (flowStep paperSetup) LedgerReplays { db := ⟨{}, {}⟩ } soldTwice := by
  constructor
  · apply spotTurns (by decide +kernel)
    simp [soldTwice, unitSettled, unitSignal, cutContext_fresh, uncutContext]
  · intro h
    obtain ⟨snap, hsnap⟩ := h.last []
    have hraises : (replayProjections [] (run (flowStep paperSetup) { db := ⟨{}, {}⟩ } soldTwice).db.rest.ledger).isOk =
        false := by decide +kernel
    rw [hsnap] at hraises
    cases hraises

end CryptoTrader
