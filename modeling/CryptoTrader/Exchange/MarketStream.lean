import CryptoTrader.Lib.Json
import CryptoTrader.Lib.Runs

/-!
# The market stream of Binance

`BinanceMarketStream.run` of `exchange/binance.py` with the reconnect policy of
`market_data/websocket.py`: updates are numbered as they are handed over, and a connection that
ends with an exception sets the flag for a resync. The numbers go on over a reconnect, and a
connection that is closed normally sets nothing, so that updates lost after it do not show.
When they do: `updates_signalled_iff`.
-/

namespace CryptoTrader

open Runs

structure WebSocketReconnectPolicy where
  maxAttempts : ℤ := 5
  attempts : ℤ := 0
  resyncRequired : Bool := false
  deriving DecidableEq, Repr

namespace WebSocketReconnectPolicy

def onConnected (p : WebSocketReconnectPolicy) : WebSocketReconnectPolicy :=
  { p with attempts := 0 }

def onDisconnected (p : WebSocketReconnectPolicy) : WebSocketReconnectPolicy :=
  { p with attempts := p.attempts + 1, resyncRequired := true }

def shouldReconnect (p : WebSocketReconnectPolicy) : Bool :=
  p.attempts ≤ p.maxAttempts

end WebSocketReconnectPolicy

/-- An update as a connection delivers it, and whether its handler has resynchronised and taken the flag back. -/
structure StreamUpdate where
  s : Option String
  resyncs : Bool := false
  deriving DecidableEq, Repr

/-- `raw.get("s") or symbol`. -/
def StreamUpdate.symbolKey (u : StreamUpdate) (symbol : String) : String :=
  match u.s with
  | none => symbol
  | some s => if s = "" then symbol else s

/-- One round of the loop: no connection is made, or the server loses some updates, delivers the next ones and
closes, with an exception or without. -/
inductive StreamAttempt where
  | refused
  | connection (lost : ℕ) (updates : List StreamUpdate) (raises : Bool)
  deriving DecidableEq, Repr

def StreamAttempt.updates : StreamAttempt → List StreamUpdate
  | .refused => []
  | .connection _ updates _ => updates

/-- An update that was handed over: its place in the sequence of the server, its `_local_seq`, the flag at that time,
and whether it is the first one after a reconnect. -/
structure Handed where
  place : ℕ
  localSeq : ℤ
  resync : Bool
  reconnected : Bool
  deriving DecidableEq, Repr

structure BinanceMarketStream where
  policy : WebSocketReconnectPolicy
  sequence : Dict String ℤ := []
  /-- The server's next update. -/
  place : ℕ := 0
  /-- A round of the loop has been made. -/
  tried : Bool := false
  /-- The latest first. -/
  handed : List Handed := []
  deriving DecidableEq, Repr

namespace BinanceMarketStream

variable (symbol : String)

def hand (b : BinanceMarketStream) (reconnected : Bool) (u : StreamUpdate) : BinanceMarketStream :=
  let localSeq := (b.sequence.get (u.symbolKey symbol)).getD 0 + 1
  { b with
    sequence := b.sequence.alter (u.symbolKey symbol) (fun _ => localSeq)
    place := b.place + 1
    handed := { place := b.place, localSeq, resync := b.policy.resyncRequired, reconnected } :: b.handed
    policy := { b.policy with resyncRequired := b.policy.resyncRequired && !u.resyncs } }

def handAll (b : BinanceMarketStream) (reconnected : Bool) : List StreamUpdate → BinanceMarketStream
  | [] => b
  | u :: updates => handAll (b.hand symbol reconnected u) false updates

def disconnected (b : BinanceMarketStream) : BinanceMarketStream :=
  { b with policy := b.policy.onDisconnected }

def opened (b : BinanceMarketStream) (lost : ℕ) : BinanceMarketStream :=
  { b with policy := b.policy.onConnected, place := b.place + lost, tried := true }

/-- The body of the loop in `run`. -/
def round (b : BinanceMarketStream) (a : StreamAttempt) : BinanceMarketStream :=
  match a with
  | .refused => { b.disconnected with tried := true }
  | .connection lost updates raises =>
    let delivered := (b.opened lost).handAll symbol b.tried updates
    -- an iterator that ends silently goes on to the next round as it is
    if raises then delivered.disconnected else delivered

/-- `run`: rounds are made while the policy allows them. -/
def runRounds (b : BinanceMarketStream) : List StreamAttempt → BinanceMarketStream
  | [] => b
  | a :: rest => if b.policy.shouldReconnect then runRounds (b.round symbol a) rest else b

/-- The rounds are all made: the policy allows each. -/
def Made (b : BinanceMarketStream) : List StreamAttempt → Prop
  | [] => True
  | a :: rest => b.policy.shouldReconnect = true ∧ Made (b.round symbol a) rest

end BinanceMarketStream

/-! ### What is signalled -/

/-- The number before the next one. -/
def lastSeq (handed : List Handed) : ℤ :=
  (handed.head?.map Handed.localSeq).getD 0

/-- The first update after a reconnect comes with the flag or skips a number, and between two updates with
consecutive numbers and no flag none was lost. -/
def Signalled : List Handed → Prop
  | [] => True
  | h :: earlier =>
    ((h.reconnected = true → h.resync = true ∨ h.localSeq ≠ lastSeq earlier + 1) ∧
      ∀ h' ∈ earlier.head?, h.localSeq = h'.localSeq + 1 → h.resync = false → h.place = h'.place + 1) ∧ Signalled earlier

/-- Whether a flag is up after the attempt. -/
def StreamAttempt.leaves (flag : Bool) : StreamAttempt → Bool
  | .refused => true
  | .connection _ updates raises => raises || (flag && updates.all (fun u => !u.resyncs))

/-- Some attempt has failed or ended with an exception, and no handler has resynchronised since. -/
def raisedSince (flag : Bool) (attempts : List StreamAttempt) : Bool :=
  attempts.foldl StreamAttempt.leaves flag

/-- The rounds that a stream makes for one symbol. -/
structure StreamRun where
  policy : WebSocketReconnectPolicy
  symbol : String
  key : String
  attempts : List StreamAttempt
  oneKey : ∀ a ∈ attempts, ∀ u ∈ a.updates, u.symbolKey symbol = key
  made : BinanceMarketStream.Made symbol { policy } attempts

namespace BinanceMarketStream

variable {symbol key : String} {b : BinanceMarketStream}

/-- The numbers go on from the last one that was handed over. -/
def Numbered (key : String) (b : BinanceMarketStream) : Prop :=
  (b.sequence.get key).getD 0 = lastSeq b.handed

lemma hand_numbered (reconnected : Bool) {u : StreamUpdate} (hu : u.symbolKey symbol = key) :
    Numbered key (b.hand symbol reconnected u) := by
  unfold Numbered hand
  dsimp only
  rw [hu, Dict.get_alter_self]
  rfl

/-- One update more is signalled if it does not come first, or comes with the flag. -/
lemma signalled_hand (h : Numbered key b) {reconnected : Bool} {u : StreamUpdate} (hu : u.symbolKey symbol = key)
    (hplace : reconnected = false → ∀ h' ∈ b.handed.head?, b.place = h'.place + 1) :
    Signalled (b.hand symbol reconnected u).handed ↔
      (reconnected = true → b.policy.resyncRequired = true) ∧ Signalled b.handed := by
  have hseq : (b.sequence.get (u.symbolKey symbol)).getD 0 + 1 = lastSeq b.handed + 1 := by rw [hu, h]
  unfold hand
  dsimp only
  rw [Signalled]
  dsimp only
  rw [hseq]
  apply and_congr_left'
  cases reconnected with
  | false =>
    refine ⟨fun _ => nofun, fun _ => ⟨nofun, fun h' hh _ _ => hplace rfl h' hh⟩⟩
  | true =>
    simp only [ne_eq, not_true_eq_false, or_false, true_imp_iff, and_iff_left_iff_imp]
    intro hflag h' _ _ hno
    rw [hflag] at hno
    cases hno

lemma handAll_numbered (h : Numbered key b) (reconnected : Bool) {updates : List StreamUpdate}
    (hu : ∀ u ∈ updates, u.symbolKey symbol = key) : Numbered key (b.handAll symbol reconnected updates) := by
  induction updates generalizing b reconnected with
  | nil => exact h
  | cons u updates ih =>
    exact ih (hand_numbered reconnected (hu u (by simp))) false (fun v hv => hu v (List.mem_cons_of_mem _ hv))

/-- The updates of a connection are signalled if the first one is. -/
lemma signalled_handAll (h : Numbered key b) {reconnected : Bool} {updates : List StreamUpdate}
    (hu : ∀ u ∈ updates, u.symbolKey symbol = key)
    (hplace : reconnected = false → ∀ h' ∈ b.handed.head?, b.place = h'.place + 1) :
    Signalled (b.handAll symbol reconnected updates).handed ↔
      (updates ≠ [] → reconnected = true → b.policy.resyncRequired = true) ∧ Signalled b.handed := by
  induction updates generalizing b reconnected with
  | nil => simp [handAll]
  | cons u updates ih =>
    have hhead : u.symbolKey symbol = key := hu u (by simp)
    have hnext : ∀ h' ∈ (b.hand symbol reconnected u).handed.head?, (b.hand symbol reconnected u).place = h'.place + 1 := by
      intro h' hh
      obtain rfl := Option.some.inj hh
      rfl
    rw [handAll, ih (hand_numbered reconnected hhead) (fun v hv => hu v (List.mem_cons_of_mem _ hv)) (fun _ => hnext),
      signalled_hand h hhead hplace]
    simp

lemma resync_handAll (reconnected : Bool) (updates : List StreamUpdate) :
    (b.handAll symbol reconnected updates).policy.resyncRequired =
      (b.policy.resyncRequired && updates.all (fun u => !u.resyncs)) := by
  induction updates generalizing b reconnected with
  | nil => simp [handAll]
  | cons u updates ih =>
    rw [handAll, ih, List.all_cons, ← Bool.and_assoc]
    rfl

lemma tried_handAll (reconnected : Bool) (updates : List StreamUpdate) :
    (b.handAll symbol reconnected updates).tried = b.tried := by
  induction updates generalizing b reconnected with
  | nil => rfl
  | cons u updates ih => exact ih false

/-- Before the first round nothing has been handed over, and the flag is as the rounds left it. -/
structure RoundInv (key : String) (flag : Bool) (b : BinanceMarketStream) : Prop where
  numbered : Numbered key b
  untried : b.tried = false → b.handed = []
  resync : b.policy.resyncRequired = flag

lemma RoundInv.round {flag : Bool} (h : RoundInv key flag b) {a : StreamAttempt}
    (hu : ∀ u ∈ a.updates, u.symbolKey symbol = key) : RoundInv key (a.leaves flag) (b.round symbol a) := by
  cases a with
  | refused => exact ⟨h.numbered, nofun, rfl⟩
  | connection lost updates raises =>
    have hopened : Numbered key (b.opened lost) := h.numbered
    have hnumbered := handAll_numbered hopened b.tried hu
    have htried : ((b.opened lost).handAll symbol b.tried updates).tried = true := tried_handAll _ _
    have hresync : ((b.opened lost).handAll symbol b.tried updates).policy.resyncRequired =
        (flag && updates.all (fun u => !u.resyncs)) := by
      rw [resync_handAll, ← h.resync]
      rfl
    cases raises with
    | true => exact ⟨hnumbered, fun hno => absurd (htried.symm.trans hno) nofun, rfl⟩
    | false => exact ⟨hnumbered, fun hno => absurd (htried.symm.trans hno) nofun, hresync⟩

lemma tried_round (a : StreamAttempt) : (b.round symbol a).tried = true := by
  cases a with
  | refused => rfl
  | connection lost updates raises =>
    have htried : ((b.opened lost).handAll symbol b.tried updates).tried = true := tried_handAll _ _
    cases raises <;> exact htried

/-- A round signals its updates if it has none, is the first one, or finds the flag up. -/
lemma RoundInv.signalled {flag : Bool} (h : RoundInv key flag b) {a : StreamAttempt}
    (hu : ∀ u ∈ a.updates, u.symbolKey symbol = key) :
    Signalled (b.round symbol a).handed ↔ (a.updates ≠ [] → b.tried = true → flag = true) ∧ Signalled b.handed := by
  cases a with
  | refused =>
    have hnone : (StreamAttempt.refused).updates = [] := rfl
    simp only [hnone, ne_eq, not_true_eq_false, false_imp_iff, true_and]
    rfl
  | connection lost updates raises =>
    have hplace : b.tried = false → ∀ h' ∈ (b.opened lost).handed.head?, (b.opened lost).place = h'.place + 1 := by
      intro hno h' hh
      have hempty : (b.opened lost).handed = [] := h.untried hno
      rw [hempty] at hh
      cases hh
    have hall := signalled_handAll (b := b.opened lost) h.numbered hu hplace
    rw [← h.resync]
    cases raises <;> exact hall

lemma roundInv_foldl (r : StreamRun) {before : List StreamAttempt} (hb : before <+: r.attempts) :
    RoundInv r.key (raisedSince r.policy.resyncRequired before) (before.foldl (round r.symbol) { policy := r.policy }) ∧
      ((before.foldl (round r.symbol) { policy := r.policy }).tried = true ↔ before ≠ []) := by
  induction before using List.reverseRecOn with
  | nil => exact ⟨⟨rfl, fun _ => rfl, rfl⟩, by simp⟩
  | append_singleton before a ih =>
    obtain ⟨hinv, -⟩ := ih ((List.prefix_append _ _).trans hb)
    have hmem : a ∈ r.attempts := hb.subset (by simp)
    rw [raisedSince, List.foldl_append, List.foldl_append]
    exact ⟨hinv.round (r.oneKey a hmem), by simp [tried_round]⟩

lemma runRounds_of_made {attempts : List StreamAttempt} (h : Made symbol b attempts) :
    b.runRounds symbol attempts = attempts.foldl (round symbol) b := by
  induction attempts generalizing b with
  | nil => rfl
  | cons a rest ih => rw [runRounds, if_pos h.1, ih h.2, List.foldl_cons]

lemma made_prefix {before attempts : List StreamAttempt} (h : Made symbol b attempts) (hb : before <+: attempts) :
    Made symbol b before := by
  obtain ⟨after, rfl⟩ := hb
  induction before generalizing b with
  | nil => trivial
  | cons a before ih => exact ⟨h.1, ih h.2⟩

end BinanceMarketStream

/-- What has been handed over when the loop has made so many rounds. -/
def StreamRun.handed (r : StreamRun) (before : List StreamAttempt) : List Handed :=
  (BinanceMarketStream.runRounds r.symbol { policy := r.policy } before).handed

/-- At every time of a run lost updates are signalled exactly if each connection that hands over updates after an
attempt has one before it that failed or ended with an exception, with no resync since. -/
theorem updates_signalled_iff (r : StreamRun) :
    (∀ before, before <+: r.attempts → Signalled (r.handed before)) ↔
      ∀ before a, before ++ [a] <+: r.attempts → a.updates ≠ [] → before ≠ [] →
        raisedSince r.policy.resyncRequired before = true := by
  apply forall_prefix_iff (W := fun l => l <+: r.attempts) trivial ?_ (fun l hl => hl)
  intro before a hb hsignalled
  have hpre : before <+: r.attempts := (List.prefix_append _ _).trans hb
  obtain ⟨hinv, htried⟩ := BinanceMarketStream.roundInv_foldl r hpre
  unfold StreamRun.handed at hsignalled ⊢
  rw [BinanceMarketStream.runRounds_of_made (BinanceMarketStream.made_prefix r.made hpre)] at hsignalled
  rw [BinanceMarketStream.runRounds_of_made (BinanceMarketStream.made_prefix r.made hb), List.foldl_append, List.foldl_cons,
    List.foldl_nil, hinv.signalled (r.oneKey a (hb.subset (by simp))), htried, and_iff_left hsignalled]

/-- A normal close and three updates lost: the next update comes with the next number and no flag. -/
theorem normal_close_hides_loss :
    let update : StreamUpdate := { s := some "BTCUSDT" }
    let rounds : List StreamAttempt := [.connection 0 [update] false, .connection 3 [update] false]
    (BinanceMarketStream.runRounds "btcusdt" { policy := {} } rounds).handed =
      [⟨4, 2, false, true⟩, ⟨0, 1, false, false⟩] := by
  decide +kernel

end CryptoTrader
