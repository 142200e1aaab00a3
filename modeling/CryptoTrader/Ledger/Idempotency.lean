import CryptoTrader.Ledger.Service
import Mathlib.Data.List.Induction
import Mathlib.Data.List.Pairwise

/-!
# Idempotent writes

`record` looks up a transaction by all the keys that a call gives. A call with a known fill
and a new event is therefore written again, and it is the calls with two keys that decide
whether the ledger keeps one transaction for each (`idempotent_writes_iff`).
-/

namespace CryptoTrader

/-- A call of `record`, with the transaction id it would mint. -/
structure RecordCall where
  entryType : LedgerEntryType
  postings : List LedgerPosting
  args : RecordArgs
  minted : String
  deriving DecidableEq, Repr

def RecordCall.run (c : RecordCall) (ledger : Ledger) : Except TradingError (LedgerTransaction × Ledger) :=
  record c.entryType c.postings c.args c.minted ledger

/-- The ledger after a call; one that raises leaves it. -/
def recordStep (ledger : Ledger) (c : RecordCall) : Ledger :=
  match c.run ledger with
  | .ok (_, ledger') => ledger'
  | .error _ => ledger

def ledgerAfter (calls : List RecordCall) : Ledger := calls.foldl recordStep []

/-- The keys a transaction is settled by. -/
inductive BusinessKey where
  | fill (id : String)
  | event (id : String)
  deriving DecidableEq, Repr

namespace BusinessKey

def Nonempty : BusinessKey → Prop
  | fill id => id ≠ ""
  | event id => id ≠ ""

def InArgs (args : RecordArgs) : BusinessKey → Prop
  | fill id => args.fillId = some id
  | event id => args.eventId = some id

def InTransaction (t : LedgerTransaction) : BusinessKey → Prop
  | fill id => t.fillId = some id
  | event id => t.eventId = some id

end BusinessKey

/-- The claim about a run of calls, for the two kinds of keys. -/
structure IdempotentWrites (calls : List RecordCall) : Prop where
  atMostOne : ∀ key : BusinessKey, key.Nonempty →
    (ledgerAfter calls).Pairwise (fun t t' => ¬(key.InTransaction t ∧ key.InTransaction t'))
  sameReturn : ∀ key : BusinessKey, key.Nonempty → ∀ earlier c between c' later,
    calls = earlier ++ c :: between ++ c' :: later → key.InArgs c.args → key.InArgs c'.args →
      ∀ t ledger, c.run (ledgerAfter earlier) = .ok (t, ledger) →
        ∃ ledger', c'.run (ledgerAfter (earlier ++ c :: between)) = .ok (t, ledger')

/-- A call with two keys finds both in one transaction or neither in any. -/
def KeysTogether (ledger : Ledger) (args : RecordArgs) : Prop :=
  truthy args.fillId → truthy args.eventId →
    (∃ t ∈ ledger, t.fillId = args.fillId ∧ t.eventId = args.eventId) ∨
      ∀ t ∈ ledger, t.fillId ≠ args.fillId ∧ t.eventId ≠ args.eventId

/-! ### One call -/

section Calls

variable {c : RecordCall} {ledger ledger' : Ledger} {t t' : LedgerTransaction} {key : BusinessKey}

/-- No two transactions share a key. -/
def KeysUnique (ledger : Ledger) : Prop :=
  ∀ key : BusinessKey, key.Nonempty → ledger.Pairwise (fun t t' => ¬(key.InTransaction t ∧ key.InTransaction t'))

lemma KeysUnique.eq (hu : KeysUnique ledger) (hkey : key.Nonempty) (ht : t ∈ ledger) (ht' : t' ∈ ledger)
    (hin : key.InTransaction t) (hin' : key.InTransaction t') : t = t' := by
  by_contra hne
  have hsymm : Std.Symm (fun t t' => ¬(key.InTransaction t ∧ key.InTransaction t')) := ⟨fun _ _ h h' => h h'.symm⟩
  exact (hu key hkey).forall ht ht' hne ⟨hin, hin'⟩

lemma truthy_of_ne {id : String} (h : id ≠ "") : truthy (some id) = true :=
  (truthy_iff _).mpr ⟨id, rfl, h⟩

/-- A transaction that is handed back has the keys of the call. -/
lemma inTransaction_of_find (h : findTransaction c.args.fillId c.args.eventId ledger = some t) (hkey : key.Nonempty)
    (hin : key.InArgs c.args) : key.InTransaction t := by
  obtain ⟨-, hfill, hevent⟩ := findTransaction_some h
  cases key with
  | fill id =>
    have hargs : c.args.fillId = some id := hin
    exact (hfill (hargs ▸ truthy_of_ne hkey)).trans hargs
  | event id =>
    have hargs : c.args.eventId = some id := hin
    exact (hevent (hargs ▸ truthy_of_ne hkey)).trans hargs

/-- A call returns a transaction of the ledger after it, with the call's keys. -/
lemma RecordCall.run_ok (h : c.run ledger = .ok (t, ledger')) :
    recordStep ledger c = ledger' ∧ t ∈ ledger' ∧ ∀ key : BusinessKey, key.Nonempty → key.InArgs c.args → key.InTransaction t := by
  refine ⟨by rw [recordStep, h], ?_⟩
  rcases record_cases h with ⟨rfl, hfind⟩ | ⟨rfl, -, -, rfl⟩
  · exact ⟨(findTransaction_some hfind).1, fun key hkey hin => inTransaction_of_find hfind hkey hin⟩
  · refine ⟨by simp, fun key _ hin => ?_⟩
    cases key <;> exact hin

lemma recordStep_extends (ledger : Ledger) (c : RecordCall) : ledger <+: recordStep ledger c := by
  rw [recordStep]
  cases h : c.run ledger with
  | error e => exact List.prefix_rfl
  | ok r =>
    change ledger <+: r.2
    rcases record_cases h with ⟨heq, -⟩ | ⟨heq, -, -, -⟩
    · exact heq ▸ List.prefix_rfl
    · rw [heq]
      exact List.prefix_append _ _

/-- A key that is in the ledger and in a call whose keys are together is found. -/
lemma KeysTogether.find (htog : KeysTogether ledger c.args) (hkey : key.Nonempty) (hin : key.InArgs c.args)
    (ht : t ∈ ledger) (hkt : key.InTransaction t) :
    ∃ t', findTransaction c.args.fillId c.args.eventId ledger = some t' := by
  have hboth : ∃ t' ∈ ledger, (!truthy c.args.fillId || t'.fillId = c.args.fillId) &&
      (!truthy c.args.eventId || t'.eventId = c.args.eventId) := by
    by_cases hboth : truthy c.args.fillId ∧ truthy c.args.eventId
    · rcases htog hboth.1 hboth.2 with ⟨t', ht', hfill, hevent⟩ | hnone
      · exact ⟨t', ht', by simp [hfill, hevent]⟩
      · cases key with
        | fill id => exact absurd (hkt.trans hin.symm) (hnone t ht).1
        | event id => exact absurd (hkt.trans hin.symm) (hnone t ht).2
    · refine ⟨t, ht, ?_⟩
      cases key with
      | fill id =>
        have hfill : t.fillId = c.args.fillId := hkt.trans hin.symm
        have hargs : c.args.fillId = some id := hin
        have hevent : truthy c.args.eventId = false :=
          Bool.eq_false_iff.mpr (fun h => hboth ⟨hargs ▸ truthy_of_ne hkey, h⟩)
        simp [hfill, hevent]
      | event id =>
        have hevent : t.eventId = c.args.eventId := hkt.trans hin.symm
        have hargs : c.args.eventId = some id := hin
        have hfill : truthy c.args.fillId = false :=
          Bool.eq_false_iff.mpr (fun h => hboth ⟨h, hargs ▸ truthy_of_ne hkey⟩)
        simp [hfill, hevent]
  have htruthy : truthy c.args.fillId || truthy c.args.eventId := by
    cases key with
    | fill id =>
      have hargs : c.args.fillId = some id := hin
      rw [hargs, truthy_of_ne hkey, Bool.true_or]
    | event id =>
      have hargs : c.args.eventId = some id := hin
      rw [hargs, truthy_of_ne hkey, Bool.or_true]
  rw [findTransaction, if_pos htruthy]
  exact Option.isSome_iff_exists.mp (List.find?_isSome.mpr hboth)

lemma KeysUnique.step (hu : KeysUnique ledger) (htog : KeysTogether ledger c.args) : KeysUnique (recordStep ledger c) := by
  intro key hkey
  rw [recordStep]
  cases h : c.run ledger with
  | error e => exact hu key hkey
  | ok r =>
    change r.2.Pairwise _
    rcases record_cases h with ⟨heq, -⟩ | ⟨heq, hfind, -, hr⟩
    · rw [heq]
      exact hu key hkey
    · rw [heq, List.pairwise_append]
      refine ⟨hu key hkey, List.pairwise_singleton _ _, ?_⟩
      intro t ht t' ht' hboth
      rw [List.mem_singleton] at ht'
      subst ht'
      have hin : key.InArgs c.args := by
        rw [hr] at hboth
        cases key <;> exact hboth.2
      obtain ⟨found, hfound⟩ := htog.find hkey hin ht hboth.1
      rw [hfind] at hfound
      cases hfound

end Calls

/-! ### Runs of calls -/

lemma ledgerAfter_append (calls more : List RecordCall) : ledgerAfter (calls ++ more) = more.foldl recordStep (ledgerAfter calls) :=
  List.foldl_append

lemma ledgerAfter_concat (calls : List RecordCall) (c : RecordCall) :
    ledgerAfter (calls ++ [c]) = recordStep (ledgerAfter calls) c :=
  ledgerAfter_append calls [c]

lemma ledgerAfter_extends (calls more : List RecordCall) : ledgerAfter calls <+: ledgerAfter (calls ++ more) := by
  induction more using List.reverseRecOn with
  | nil =>
    refine ⟨[], ?_⟩
    rw [List.append_nil, List.append_nil]
  | append_singleton more c ih =>
    rw [← List.append_assoc, ledgerAfter_concat]
    exact ih.trans (recordStep_extends _ c)

/-- Every transaction was appended by a call with its keys, which returned it. -/
lemma origin {calls : List RecordCall} {t : LedgerTransaction} (h : t ∈ ledgerAfter calls) :
    ∃ earlier c later ledger, calls = earlier ++ c :: later ∧ c.run (ledgerAfter earlier) = .ok (t, ledger) ∧
      t.fillId = c.args.fillId ∧ t.eventId = c.args.eventId := by
  induction calls using List.reverseRecOn with
  | nil => cases h
  | append_singleton calls c ih =>
    rw [ledgerAfter_concat, recordStep] at h
    have hold (hmem : t ∈ ledgerAfter calls) : ∃ earlier c' later ledger, calls ++ [c] = earlier ++ c' :: later ∧
        c'.run (ledgerAfter earlier) = .ok (t, ledger) ∧ t.fillId = c'.args.fillId ∧ t.eventId = c'.args.eventId := by
      obtain ⟨earlier, c', later, ledger, rfl, hrun⟩ := ih hmem
      exact ⟨earlier, c', later ++ [c], ledger, by simp, hrun⟩
    cases hrun : c.run (ledgerAfter calls) with
    | error e =>
      rw [hrun] at h
      exact hold h
    | ok r =>
      rw [hrun] at h
      change t ∈ r.2 at h
      rcases record_cases hrun with ⟨heq, -⟩ | ⟨heq, -, -, hr⟩
      · exact hold (heq ▸ h)
      · rw [heq] at h
        rcases List.mem_append.mp h with h | h
        · exact hold h
        · obtain rfl := List.mem_singleton.mp h
          exact ⟨calls, c, [], r.2, rfl, hrun, by rw [hr], by rw [hr]⟩

lemma keysUnique_after {calls : List RecordCall}
    (h : ∀ earlier c later, calls = earlier ++ c :: later → KeysTogether (ledgerAfter earlier) c.args) :
    KeysUnique (ledgerAfter calls) := by
  induction calls using List.reverseRecOn with
  | nil => exact fun _ _ => List.Pairwise.nil
  | append_singleton calls c ih =>
    rw [ledgerAfter_concat]
    refine (ih fun earlier c' later hsplit => h earlier c' (later ++ [c]) ?_).step (h calls c [] rfl)
    rw [hsplit]
    simp

/-- Writes are idempotent for each key exactly when every call with two keys finds both in one
transaction or neither in any. -/
theorem idempotent_writes_iff (calls : List RecordCall) :
    IdempotentWrites calls ↔
      ∀ earlier c later, calls = earlier ++ c :: later → KeysTogether (ledgerAfter earlier) c.args := by
  constructor
  · rintro h earlier c later rfl hfill hevent
    by_contra hnot
    rw [not_or, not_forall] at hnot
    obtain ⟨hnone, t, ht⟩ := hnot
    rw [Classical.not_imp, not_and_or, not_not, not_not] at ht
    obtain ⟨hmem, hone⟩ := ht
    obtain ⟨key, hkey, hin, hkt⟩ : ∃ key : BusinessKey, key.Nonempty ∧ key.InArgs c.args ∧ key.InTransaction t := by
      rcases hone with hone | hone
      · obtain ⟨id, hid, hne⟩ := (truthy_iff _).mp hfill
        exact ⟨.fill id, hne, hid, hone.trans hid⟩
      · obtain ⟨id, hid, hne⟩ := (truthy_iff _).mp hevent
        exact ⟨.event id, hne, hid, hone.trans hid⟩
    obtain ⟨earlier', c', between, ledger, rfl, hrun, hfill', hevent'⟩ := origin hmem
    have hin' : key.InArgs c'.args := by
      cases key with
      | fill id => exact hfill'.symm.trans hkt
      | event id => exact hevent'.symm.trans hkt
    obtain ⟨ledger', hsame⟩ := h.sameReturn key hkey earlier' c' between c later rfl hin' hin t ledger hrun
    rcases record_cases hsame with ⟨-, hfind⟩ | ⟨heq, -⟩
    · obtain ⟨-, hf, he⟩ := findTransaction_some hfind
      exact hnone ⟨t, hmem, hf hfill, he hevent⟩
    · -- the transaction would be in the ledger twice
      have hprefix : ledgerAfter (earlier' ++ c' :: between) ++ [t] <+:
          ledgerAfter (earlier' ++ c' :: between ++ c :: later) := by
        have hstep : recordStep (ledgerAfter (earlier' ++ c' :: between)) c = ledgerAfter (earlier' ++ c' :: between) ++ [t] := by
          rw [(RecordCall.run_ok hsame).1, heq]
        rw [← hstep, ← ledgerAfter_concat]
        simpa using ledgerAfter_extends (earlier' ++ c' :: between ++ [c]) later
      have hpair := (h.atMostOne key hkey).sublist hprefix.sublist
      exact (List.pairwise_append.mp hpair).2.2 t hmem t (List.mem_singleton.mpr rfl) ⟨hkt, hkt⟩
  · intro h
    refine ⟨keysUnique_after h, ?_⟩
    rintro key hkey earlier c between c' later rfl hin hin' t ledger hrun
    obtain ⟨hstep, hmem, hkt⟩ := RecordCall.run_ok hrun
    have ht : t ∈ ledgerAfter (earlier ++ c :: between) := by
      rw [← hstep, ← ledgerAfter_concat] at hmem
      have hsub := (ledgerAfter_extends (earlier ++ [c]) between).subset hmem
      rwa [List.append_assoc] at hsub
    have htog : KeysTogether (ledgerAfter (earlier ++ c :: between)) c'.args := h _ c' later rfl
    obtain ⟨found, hfound⟩ := htog.find hkey hin' ht (hkt key hkey hin)
    have hunique : KeysUnique (ledgerAfter (earlier ++ c :: between)) := by
      apply keysUnique_after
      intro earlier' x later' hsplit
      exact h earlier' x (later' ++ c' :: later) (by rw [hsplit]; simp)
    obtain rfl : found = t := hunique.eq hkey (findTransaction_some hfound).1 ht
      (inTransaction_of_find hfound hkey hin') (hkt key hkey hin)
    exact ⟨_, by rw [RecordCall.run, record, hfound]⟩

/-- A settlement posting of 1, with the same fill and a new event each time. -/
def settleAgain (event : String) : RecordCall where
  entryType := .trade
  postings := [⟨.cash, .debit, 1, "USDT"⟩, ⟨.equity, .credit, 1, "USDT"⟩]
  args := { fillId := some "f1", eventId := some event }
  minted := event

/-- The engine's calls for one fill are both written. -/
theorem fill_settled_twice : ¬∀ calls, IdempotentWrites calls := by
  intro h
  have hpair := (h [settleAgain "e1", settleAgain "e2"]).atMostOne (.fill "f1") (by change "f1" ≠ ""; decide)
  have hledger : ledgerAfter [settleAgain "e1", settleAgain "e2"] = [
      { transactionId := "e1", entryType := .trade, fillId := some "f1", eventId := some "e1",
        entries := (settleAgain "e1").postings },
      { transactionId := "e2", entryType := .trade, fillId := some "f1", eventId := some "e2",
        entries := (settleAgain "e2").postings }] := by
    decide +kernel
  rw [hledger, List.pairwise_cons] at hpair
  exact hpair.1 _ (List.mem_singleton.mpr rfl) ⟨rfl, rfl⟩

end CryptoTrader
