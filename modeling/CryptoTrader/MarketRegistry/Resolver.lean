import CryptoTrader.MarketRegistry.Registry
import Mathlib.Data.List.DropRight

/-!
# Runs of the registry, and the resolver

Refreshes, reads and resolutions in any order. Who touches the database first decides which table it
has: with the resolver's no refresh can store an instrument any more, with the registry's the
rows are what the history of refreshes says. The tradeable universe and the instruments that the
resolver hands out are then those of the last listing that held an instrument.
-/

namespace CryptoTrader.MarketRegistry

open KeyedTable OrderedRows

/-! ### The resolver -/

def usdt : List Char := "USDT".toList

/-- `canonical.endswith("USDT")`. -/
def isUsdt (canonical : String) : Bool :=
  usdt <:+ canonical.toList

/-- `InstrumentResolver._base`. -/
def base (canonical : String) : List Char :=
  if isUsdt canonical then canonical.toList.rdrop 4 else canonical.toList.takeWhile (· ≠ '-')

/-- `InstrumentResolver._quote`. -/
def quote (canonical : String) : List Char :=
  if isUsdt canonical then canonical.toList.rtake 4 else usdt

/-- `InstrumentResolver._swapless_spot_id`. -/
def swaplessSpotId (canonical : String) : String :=
  String.ofList (base canonical ++ '-' :: quote canonical)

def swapId (canonical : String) : String :=
  String.ofList (base canonical ++ '-' :: (quote canonical ++ "-SWAP".toList))

/-- `InstrumentResolver.from_okx`; `reference_symbol` is the same. -/
def fromOkx (okxInstId : String) : String :=
  match okxInstId.toList.splitOn '-' with
  | base :: second :: _ => String.ofList (base ++ if second = [] then usdt else second)
  | parts => String.ofList (parts.headD [] ++ usdt)

/-- What `_live_ok` answers a resolver, which may have no database. -/
def checkLive (attached : Bool) (instId instType : String) (db : RegistryDb) : Bool × RegistryDb :=
  if attached then liveOk instId instType db else (true, db)

def toOkxSpot (attached : Bool) (canonical : String) (requireLive : Bool) (db : RegistryDb) :
    Except RegistryError String × RegistryDb :=
  if requireLive then
    match checkLive attached (swaplessSpotId canonical) "SPOT" db with
    | (true, db') => (.ok (swaplessSpotId canonical), db')
    | (false, db') => (.error (.keyError ("okx spot instrument not live: " ++ swaplessSpotId canonical)), db')
  else (.ok (swaplessSpotId canonical), db)

def toOkxSwap (attached : Bool) (canonical : String) (requireLive : Bool) (db : RegistryDb) :
    Except RegistryError String × RegistryDb :=
  if requireLive then
    match checkLive attached (swapId canonical) "SWAP" db with
    | (true, db') => (.ok (swapId canonical), db')
    | (false, db') => (.error (.keyError ("okx swap instrument not live: " ++ swapId canonical)), db')
  else (.ok (swapId canonical), db)

structure SymbolTriple where
  canonical : String
  okxSpot : String
  okxSwap : String
  deriving DecidableEq, Repr

/-- `InstrumentResolver.triple`, which asks for no live instrument. -/
def triple (canonical : String) : SymbolTriple where
  canonical := canonical
  okxSpot := swaplessSpotId canonical
  okxSwap := swapId canonical

/-! ### Runs -/

inductive RegistryCall where
  | refresh (client : OkxPublicClient) (fetchedAt now : String)
  | persist (records : List InstrumentRecord) (snapshot : Option RegistrySnapshot) (now : String)
  | stats
  | tradeable (instType quoteCcy : String) (limit : Option ℤ)
  | toSpot (attached : Bool) (canonical : String) (requireLive : Bool)
  | toSwap (attached : Bool) (canonical : String) (requireLive : Bool)

def exec (db : RegistryDb) : RegistryCall → RegistryDb
  | .refresh client fetchedAt now => (refreshSync client fetchedAt now db).2
  | .persist records snapshot now => (persistRegistrySync now records snapshot db).2
  | .stats => (registryStatsSync db).2
  | .tradeable instType quoteCcy limit => (tradeableUniverseSync instType quoteCcy limit db).2
  | .toSpot attached canonical requireLive => (toOkxSpot attached canonical requireLive db).2
  | .toSwap attached canonical requireLive => (toOkxSwap attached canonical requireLive db).2

namespace RegistryCall

/-- The listing that a call writes. -/
def listing : RegistryCall → Option Refresh
  | .refresh client fetchedAt now =>
    match fetchRegistrySnapshot client fetchedAt with
    | .error _ => none
    | .ok (records, _) => some ⟨now, records⟩
  | .persist records _ now => some ⟨now, records⟩
  | _ => none

/-- The table a call creates in a fresh database, if any. -/
def creates : RegistryCall → Option RegistryDb
  | .refresh client fetchedAt _ =>
    match fetchRegistrySnapshot client fetchedAt with
    | .error _ => none
    | .ok _ => some (.registryTable [])
  | .persist _ _ _ => some (.registryTable [])
  | .stats => some (.registryTable [])
  | .tradeable _ _ _ => some (.registryTable [])
  | .toSpot attached _ requireLive => if attached && requireLive then some .resolverTable else none
  | .toSwap attached _ requireLive => if attached && requireLive then some .resolverTable else none

end RegistryCall

/-- The refreshes of a run. -/
def history (calls : List RegistryCall) : List Refresh :=
  calls.filterMap RegistryCall.listing

/-- Nothing is ever stored in the resolver's table. -/
lemma persistRegistrySync_resolverTable (now : String) (records : List InstrumentRecord)
    (snapshot : Option RegistrySnapshot) :
    (persistRegistrySync now records snapshot .resolverTable).2 = .resolverTable := by
  simp only [persistRegistrySync, RegistryDb.create]
  split <;> rfl

lemma toOkxSpot_snd (attached : Bool) (canonical : String) (requireLive : Bool) (db : RegistryDb) :
    (toOkxSpot attached canonical requireLive db).2 =
      if attached && requireLive then db.createForResolver else db := by
  cases attached <;> cases requireLive <;> simp only [toOkxSpot, checkLive] <;> try rfl
  simp only [if_true, liveOk, Bool.and_self]
  split <;> simp_all

lemma toOkxSwap_snd (attached : Bool) (canonical : String) (requireLive : Bool) (db : RegistryDb) :
    (toOkxSwap attached canonical requireLive db).2 =
      if attached && requireLive then db.createForResolver else db := by
  cases attached <;> cases requireLive <;> simp only [toOkxSwap, checkLive] <;> try rfl
  simp only [if_true, liveOk, Bool.and_self]
  split <;> simp_all

lemma exec_resolverTable (c : RegistryCall) : exec .resolverTable c = .resolverTable := by
  cases c with
  | refresh client fetchedAt now =>
    simp only [exec, refreshSync]
    split
    · rfl
    · exact persistRegistrySync_resolverTable _ _ _
  | persist records snapshot now => exact persistRegistrySync_resolverTable _ _ _
  | stats => rfl
  | tradeable instType quoteCcy limit => rfl
  | toSpot attached canonical requireLive => exact (toOkxSpot_snd _ _ _ _).trans (ite_self _)
  | toSwap attached canonical requireLive => exact (toOkxSwap_snd _ _ _ _).trans (ite_self _)

lemma exec_absent (c : RegistryCall) :
    exec .absent c = match c.creates with
      | none => .absent
      | some table => exec table c := by
  cases c with
  | refresh client fetchedAt now =>
    simp only [exec, refreshSync, RegistryCall.creates]
    cases fetchRegistrySnapshot client fetchedAt <;> rfl
  | persist records snapshot now => rfl
  | stats => rfl
  | tradeable instType quoteCcy limit => rfl
  | toSpot attached canonical requireLive =>
    rw [exec, toOkxSpot_snd, RegistryCall.creates]
    cases h : attached && requireLive
    · rfl
    · exact (exec_resolverTable (.toSpot attached canonical requireLive)).symm
  | toSwap attached canonical requireLive =>
    rw [exec, toOkxSwap_snd, RegistryCall.creates]
    cases h : attached && requireLive
    · rfl
    · exact (exec_resolverTable (.toSwap attached canonical requireLive)).symm

/-- A call on the registry's table writes its listing, if it has one. -/
lemma exec_registryTable {rows : List InstrumentRow} (hn : (rows.map InstrumentRow.id).Nodup) (c : RegistryCall) :
    ∃ rows', exec (.registryTable rows) c = .registryTable rows' ∧ (rows'.map InstrumentRow.id).Nodup ∧
      ∀ i, row InstrumentRow.id i rows' = match c.listing with
        | none => row InstrumentRow.id i rows
        | some r => r.write i (row InstrumentRow.id i rows) := by
  have hpersist := fun now records snapshot =>
    (⟨(persistRows now records snapshot rows).2, rfl, nodup_persistRows hn now records snapshot,
      row_persistRows hn now records snapshot⟩ :
      ∃ rows', (persistRegistrySync now records snapshot (.registryTable rows)).2 = .registryTable rows' ∧
        (rows'.map InstrumentRow.id).Nodup ∧ ∀ i, row InstrumentRow.id i rows' =
          Refresh.write ⟨now, records⟩ i (row InstrumentRow.id i rows))
  have hkept : ∃ rows', RegistryDb.registryTable rows = .registryTable rows' ∧
      (rows'.map InstrumentRow.id).Nodup ∧ ∀ i, row InstrumentRow.id i rows' = row InstrumentRow.id i rows :=
    ⟨rows, rfl, hn, fun _ => rfl⟩
  cases c with
  | refresh client fetchedAt now =>
    simp only [exec, refreshSync, RegistryCall.listing]
    cases fetchRegistrySnapshot client fetchedAt with
    | error e => exact hkept
    | ok fetched => exact hpersist now fetched.1 (some fetched.2)
  | persist records snapshot now => exact hpersist now records snapshot
  | stats => exact hkept
  | tradeable instType quoteCcy limit => exact hkept
  | toSpot attached canonical requireLive =>
    rw [exec, toOkxSpot_snd]
    exact (ite_self (c := attached && requireLive) (RegistryDb.registryTable rows)).symm ▸ hkept
  | toSwap attached canonical requireLive =>
    rw [exec, toOkxSwap_snd]
    exact (ite_self (c := attached && requireLive) (RegistryDb.registryTable rows)).symm ▸ hkept

/-- The table that a run of calls creates in a fresh database. -/
def created (calls : List RegistryCall) : Option RegistryDb :=
  calls.findSome? RegistryCall.creates

lemma creates_cases (c : RegistryCall) : (c.creates = none ∧ c.listing = none) ∨
    (c.creates = some .resolverTable ∧ c.listing = none) ∨ c.creates = some (.registryTable []) := by
  cases c with
  | refresh client fetchedAt now =>
    simp only [RegistryCall.creates, RegistryCall.listing]
    cases fetchRegistrySnapshot client fetchedAt <;> simp
  | persist records snapshot now => exact .inr (.inr rfl)
  | stats => exact .inr (.inr rfl)
  | tradeable instType quoteCcy limit => exact .inr (.inr rfl)
  | toSpot attached canonical requireLive =>
    cases attached <;> cases requireLive <;> simp [RegistryCall.creates, RegistryCall.listing]
  | toSwap attached canonical requireLive =>
    cases attached <;> cases requireLive <;> simp [RegistryCall.creates, RegistryCall.listing]

/-- The database after a run, by the table that the run has created. -/
inductive Reaches (calls : List RegistryCall) (db : RegistryDb) : Prop where
  | untouched (hc : created calls = none) (hh : history calls = []) (hdb : db = .absent)
  | resolver (hc : created calls = some .resolverTable) (hdb : db = .resolverTable)
  | registry (hc : created calls = some (.registryTable [])) (rows : List InstrumentRow)
      (hdb : db = .registryTable rows) (hn : (rows.map InstrumentRow.id).Nodup)
      (hrow : ∀ i, row InstrumentRow.id i rows = expectedRow (history calls) i)

lemma created_concat (calls : List RegistryCall) (c : RegistryCall) :
    created (calls ++ [c]) = (created calls).or c.creates := by
  rw [created, List.findSome?_append, created]
  cases h : c.creates <;> simp [h]

lemma history_concat (calls : List RegistryCall) (c : RegistryCall) :
    history (calls ++ [c]) = history calls ++ c.listing.toList := by
  rw [history, List.filterMap_append, history]
  cases h : c.listing <;> simp [h]

/-- One more call on the registry's table. -/
lemma reaches_registry {calls : List RegistryCall} {c : RegistryCall} {rows : List InstrumentRow}
    (hc : created (calls ++ [c]) = some (.registryTable [])) (hn : (rows.map InstrumentRow.id).Nodup)
    (hrow : ∀ i, row InstrumentRow.id i rows = expectedRow (history calls) i) :
    Reaches (calls ++ [c]) (exec (.registryTable rows) c) := by
  obtain ⟨rows', hdb, hn', hrow'⟩ := exec_registryTable hn c
  refine .registry hc rows' hdb hn' (fun i => ?_)
  rw [hrow', history_concat]
  cases c.listing with
  | none => simpa using hrow i
  | some r => rw [Option.toList_some, expectedRow_concat, hrow]

lemma run_reaches (calls : List RegistryCall) : Reaches calls (Runs.run exec .absent calls) := by
  induction calls using List.reverseRecOn with
  | nil => exact .untouched rfl rfl rfl
  | append_singleton calls c ih =>
    rw [Runs.run_append, Runs.run_cons, Runs.run_nil]
    cases ih with
    | untouched hc hh hdb =>
      rw [hdb, exec_absent]
      rcases creates_cases c with ⟨hcreates, hlisting⟩ | ⟨hcreates, -⟩ | hcreates
      · rw [hcreates]
        exact .untouched (by simp [created_concat, hc, hcreates]) (by simp [history_concat, hh, hlisting]) rfl
      · rw [hcreates]
        exact .resolver (by simp [created_concat, hc, hcreates]) (exec_resolverTable c)
      · rw [hcreates]
        exact reaches_registry (by simp [created_concat, hc, hcreates]) List.nodup_nil (fun i => by simp [hh]; rfl)
    | resolver hc hdb =>
      rw [hdb, exec_resolverTable]
      exact .resolver (by simp [created_concat, hc]) rfl
    | registry hc rows hdb hn hrow =>
      rw [hdb]
      exact reaches_registry (by simp [created_concat, hc]) hn hrow

/-- After any run of refreshes, reads and resolutions on a fresh database: if the resolver created the
table, it is empty for good and a refresh that lists an instrument fails; if the registry did, the row of
every instrument is what the history of refreshes makes of it, and there is one row for each. -/
theorem registry_run (calls : List RegistryCall) :
    match created calls with
    | none => Runs.run exec .absent calls = .absent
    | some .resolverTable =>
      Runs.run exec .absent calls = .resolverTable ∧
        ∀ (now : String) (records : List InstrumentRecord) (snapshot : Option RegistrySnapshot),
          Refresh.effective ⟨now, records⟩ = true →
            persistRegistrySync now records snapshot (Runs.run exec .absent calls) =
              (.error (.operationalError "table okx_instruments has no column named uly"), .resolverTable)
    | some _ =>
      ∃ rows, Runs.run exec .absent calls = .registryTable rows ∧ (rows.map InstrumentRow.id).Nodup ∧
        ∀ i, row InstrumentRow.id i rows = expectedRow (history calls) i := by
  cases run_reaches calls with
  | untouched hc hh hdb =>
    rw [hc]
    exact hdb
  | resolver hc hdb =>
    rw [hc]
    refine ⟨hdb, fun now records snapshot heff => ?_⟩
    rw [hdb]
    simp only [Refresh.effective] at heff
    simp only [persistRegistrySync, RegistryDb.create, heff, if_true]
  | registry hc rows hdb hn hrow =>
    rw [hc]
    exact ⟨rows, hdb, hn, hrow⟩

/-! ### The instruments of the last listing -/

/-- The last refresh that listed an instrument. -/
def lastEffective (history : List Refresh) : Option Refresh :=
  history.reverse.find? Refresh.effective

lemma lastEffective_concat (history : List Refresh) (r : Refresh) :
    lastEffective (history ++ [r]) = if r.effective then some r else lastEffective history := by
  rw [lastEffective, List.reverse_append, List.reverse_singleton, List.singleton_append, List.find?_cons]
  cases r.effective <;> rfl

lemma Refresh.effective_of_listed {r : Refresh} {i : String} {record : InstrumentRecord}
    (h : r.listed i = some record) : r.effective = true := by
  have hid := listed_instId h
  unfold Refresh.listed at h
  split at h
  · cases h
  · rename_i h0
    refine List.any_eq_true.mpr ⟨record, (row_some h).1, ?_⟩
    simpa [hid] using h0

/-- What the last effective refresh lists is stored as it lists it. -/
lemma expectedRow_of_listed {history : List Refresh} {r : Refresh} {i : String} {record : InstrumentRecord}
    (hlast : lastEffective history = some r) (h : r.listed i = some record) :
    ∃ x, expectedRow history i = some x ∧ x.toInstrumentRecord = record := by
  induction history using List.reverseRecOn with
  | nil => cases hlast
  | append_singleton history r' ih =>
    rw [lastEffective_concat] at hlast
    rw [expectedRow_concat]
    split at hlast
    · obtain rfl := Option.some.inj hlast
      cases expectedRow history i <;> simp [Refresh.write, h, newRow, InstrumentRow.rewrite]
    · rename_i heff
      obtain ⟨x, hx, hrecord⟩ := ih hlast
      have hnone : r'.listed i = none := by
        by_contra hsome
        obtain ⟨record', h'⟩ := Option.ne_none_iff_exists'.mp hsome
        exact heff (Refresh.effective_of_listed h')
      exact ⟨x, by simp [hx, Refresh.write, hnone, heff], hrecord⟩

/-- A stored instrument that is not marked is as the last effective refresh lists it. -/
lemma listed_of_expectedRow {history : List Refresh} {i : String} {x : InstrumentRow}
    (hx : expectedRow history i = some x) (hstate : x.state ≠ "DELISTED") :
    ∃ r, lastEffective history = some r ∧ r.listed i = some x.toInstrumentRecord := by
  induction history using List.reverseRecOn generalizing x with
  | nil => cases hx
  | append_singleton history r ih =>
    rw [expectedRow_concat] at hx
    rw [lastEffective_concat]
    cases hl : r.listed i with
    | some record =>
      refine ⟨r, by rw [if_pos (Refresh.effective_of_listed hl)], ?_⟩
      rw [hl]
      cases ho : expectedRow history i with
      | none =>
        rw [ho, Refresh.write, hl] at hx
        obtain rfl := Option.some.inj hx
        rfl
      | some y =>
        simp only [ho, Refresh.write, hl, Option.some.injEq] at hx
        subst hx
        rfl
    | none =>
      cases ho : expectedRow history i with
      | none => simp [ho, Refresh.write, hl] at hx
      | some y =>
        simp only [ho, Refresh.write, hl, Option.some.injEq] at hx
        split at hx
        · exfalso
          apply hstate
          rw [← hx, InstrumentRow.delist]
          split
          · rfl
          · rename_i hd
            exact not_not.mp hd
        · rename_i heff
          subst hx
          simpa [heff, ← hl] using ih ho hstate

/-- The stored instruments that are not marked are those of the last effective refresh. -/
lemma expectedRow_state_iff {history : List Refresh} {i : String} {p : InstrumentRecord → Bool}
    (hp : ∀ record, p record = true → record.state ≠ "DELISTED") :
    (∃ x, expectedRow history i = some x ∧ p x.toInstrumentRecord = true) ↔
      ∃ r record, lastEffective history = some r ∧ r.listed i = some record ∧ p record = true := by
  constructor
  · rintro ⟨x, hx, hpx⟩
    obtain ⟨r, hlast, hl⟩ := listed_of_expectedRow hx (hp _ hpx)
    exact ⟨r, _, hlast, hl, hpx⟩
  · rintro ⟨r, record, hlast, hl, hpr⟩
    obtain ⟨x, hx, rfl⟩ := expectedRow_of_listed hlast hl
    exact ⟨x, hx, hpr⟩

/-- The tradeable instruments of a listing, in order. -/
def universeOf (r : Refresh) (instType quoteCcy : String) : List String :=
  orderBy id ((r.records.map InstrumentRecord.instId).dedup.filter
    (fun i => (r.listed i).any (·.isTradeable instType quoteCcy)))

lemma orderBy_congr {a b : List String} (ha : a.Nodup) (hb : b.Nodup) (h : ∀ i, i ∈ a ↔ i ∈ b) :
    orderBy id a = orderBy id b := by
  have hperm : (orderBy id a).Perm (orderBy id b) :=
    (orderBy_perm id a).trans (((List.perm_ext_iff_of_nodup ha hb).mpr h).trans (orderBy_perm id b).symm)
  exact hperm.eq_of_pairwise (fun x y _ _ hxy hyx => le_antisymm hxy hyx) (orderBy_pairwise id a)
    (orderBy_pairwise id b)

lemma isTradeable_state {instType quoteCcy : String} {record : InstrumentRecord}
    (h : record.isTradeable instType quoteCcy = true) : record.state ≠ "DELISTED" := by
  simp only [InstrumentRecord.isTradeable, decide_eq_true_eq] at h
  rw [h.2.1]
  decide

lemma mem_tradeable {calls : List RegistryCall} {rows : List InstrumentRow} (hn : (rows.map InstrumentRow.id).Nodup)
    (hrow : ∀ i, row InstrumentRow.id i rows = expectedRow (history calls) i) {p : InstrumentRecord → Bool}
    (hp : ∀ record, p record = true → record.state ≠ "DELISTED") (i : String) :
    (∃ x ∈ rows, p x.toInstrumentRecord = true ∧ x.id = i) ↔
      ∃ r record, lastEffective (history calls) = some r ∧ r.listed i = some record ∧ p record = true := by
  rw [← expectedRow_state_iff hp, ← hrow]
  constructor
  · rintro ⟨x, hx, hpx, rfl⟩
    exact ⟨x, row_of_mem hn hx, hpx⟩
  · rintro ⟨x, hx, hpx⟩
    exact ⟨x, (row_some hx).1, hpx, (row_some hx).2⟩

/-- The universe that is read after a run is the tradeable part of the last effective refresh, in order and
cut to the limit: an instrument which that refresh leaves out or lists in another state is not in it,
whatever the table keeps of it. -/
theorem tradeable_universe (calls : List RegistryCall) (instType quoteCcy : String) (limit : Option ℤ) :
    (tradeableUniverseSync instType quoteCcy limit (Runs.run exec .absent calls)).1 =
      if created calls = some .resolverTable then .error (.operationalError "no such column: quote_ccy")
      else .ok (limitRows limit
        (((lastEffective (history calls)).map (universeOf · instType quoteCcy)).getD [])) := by
  cases run_reaches calls with
  | untouched hc hh hdb =>
    rw [hdb, hc, if_neg (by simp), hh]
    rfl
  | resolver hc hdb => rw [hdb, hc, if_pos rfl]; rfl
  | registry hc rows hdb hn hrow =>
    rw [hdb, hc, if_neg (by simp)]
    simp only [tradeableUniverseSync, RegistryDb.create]
    congr 2
    have hmem := mem_tradeable hn hrow (p := (·.isTradeable instType quoteCcy)) (fun _ => isTradeable_state)
    have hleft : ∀ i, i ∈ (rows.filter (fun x => x.isTradeable instType quoteCcy)).map InstrumentRow.id ↔
        ∃ x ∈ rows, x.isTradeable instType quoteCcy = true ∧ x.id = i := by
      simp [and_assoc]
    cases hlast : lastEffective (history calls) with
    | none =>
      have hnil : (rows.filter (fun x => x.isTradeable instType quoteCcy)).map InstrumentRow.id = [] := by
        rw [List.eq_nil_iff_forall_not_mem]
        intro i hi
        obtain ⟨r, -, hr, -⟩ := (hmem i).mp ((hleft i).mp hi)
        rw [hlast] at hr
        cases hr
      rw [hnil]
      rfl
    | some r =>
      refine orderBy_congr (nodup_filter hn _) ((List.nodup_dedup _).filter _) (fun i => ?_)
      rw [hleft, hmem, List.mem_filter, List.mem_dedup, hlast]
      constructor
      · rintro ⟨r', record, hr, hl, hp⟩
        obtain rfl := Option.some.inj hr
        refine ⟨?_, by simp [hl, hp]⟩
        by_contra hout
        rw [Refresh.listed_eq_none_iff.mpr (fun h => hout h.2)] at hl
        cases hl
      · rintro ⟨-, hany⟩
        cases hl : r.listed i with
        | none => simp [hl] at hany
        | some record => exact ⟨r, record, rfl, hl, by simpa [hl] using hany⟩

/-! ### The instruments the resolver hands out -/

/-- Live in its product class. -/
def InstrumentRecord.isLive (x : InstrumentRecord) (instType : String) : Bool :=
  x.instType = instType ∧ x.state = "live"

/-- The last effective refresh lists the instrument as live, in a table of the registry's. -/
def Live (calls : List RegistryCall) (instType i : String) : Prop :=
  created calls ≠ some .resolverTable ∧
    ∃ r record, lastEffective (history calls) = some r ∧ r.listed i = some record ∧ record.isLive instType = true

lemma isLive_state {instType : String} {record : InstrumentRecord} (h : record.isLive instType = true) :
    record.state ≠ "DELISTED" := by
  simp only [InstrumentRecord.isLive, decide_eq_true_eq] at h
  rw [h.2]
  decide

/-- An instrument has one row, so the row that is found in its class is the one that counts. -/
lemma liveOk_iff {rows : List InstrumentRow} (hn : (rows.map InstrumentRow.id).Nodup) (i instType : String) :
    (liveOk i instType (.registryTable rows)).1 = true ↔
      ∃ x ∈ rows, x.toInstrumentRecord.isLive instType = true ∧ x.id = i := by
  simp only [liveOk, RegistryDb.createForResolver, RegistryDb.rows, InstrumentRecord.isLive, decide_eq_true_eq]
  cases hf : rows.find? (fun x => decide (x.id = i ∧ x.instType = instType)) with
  | none =>
    have hnone := List.find?_eq_none.mp hf
    simp only [decide_eq_true_eq, not_and] at hnone
    constructor
    · intro h
      cases h
    · rintro ⟨x, hx, ⟨htype, -⟩, hid⟩
      exact absurd htype (hnone x hx hid)
  | some y =>
    obtain ⟨hid, htype⟩ := of_decide_eq_true (p := y.id = i ∧ y.instType = instType) (by simpa using List.find?_some hf)
    have hy := List.mem_of_find?_eq_some hf
    simp only [Option.map_some, Option.any_some, decide_eq_true_eq]
    constructor
    · exact fun h => ⟨y, hy, ⟨htype, h⟩, hid⟩
    · rintro ⟨x, hx, ⟨-, hstate⟩, hxid⟩
      obtain rfl := eq_of_key_eq hn hx hy (hxid.trans hid.symm)
      exact hstate

lemma checkLive_run (calls : List RegistryCall) (i instType : String) :
    (checkLive true i instType (Runs.run exec .absent calls)).1 = true ↔ Live calls instType i := by
  rw [checkLive, if_pos rfl, Live]
  cases run_reaches calls with
  | untouched hc hh hdb =>
    rw [hdb, hc, hh]
    simp [liveOk, RegistryDb.createForResolver, RegistryDb.rows, lastEffective]
  | resolver hc hdb =>
    rw [hdb, hc]
    simp [liveOk, RegistryDb.createForResolver, RegistryDb.rows]
  | registry hc rows hdb hn hrow =>
    rw [hdb, hc, liveOk_iff hn, mem_tradeable hn hrow (p := (·.isLive instType)) (fun _ => isLive_state)]
    simp

lemma dash_notMem_usdt : '-' ∉ usdt := by decide

/-- The quote of an id whose second part is there. -/
lemma fromOkx_pair {a b : List Char} (ha : '-' ∉ a) (hb : '-' ∉ b) (hne : b ≠ []) :
    fromOkx (String.ofList (a ++ '-' :: b)) = String.ofList (a ++ b) := by
  rw [fromOkx, String.toList_ofList, List.splitOn_append_cons_self_of_not_mem ha, List.splitOn_eq_singleton hb]
  simp [hne]

lemma fromOkx_triple {a b c : List Char} (ha : '-' ∉ a) (hb : '-' ∉ b) (hne : b ≠ []) :
    fromOkx (String.ofList (a ++ '-' :: (b ++ '-' :: c))) = String.ofList (a ++ b) := by
  rw [fromOkx, String.toList_ofList, List.splitOn_append_cons_self_of_not_mem ha,
    List.splitOn_append_cons_self_of_not_mem hb]
  simp [hne]

lemma notMem_of_mem_splitOn {a : Char} {l part : List Char} (h : part ∈ l.splitOn a) : a ∉ part := by
  induction l generalizing part with
  | nil =>
    obtain rfl : part = [] := by simpa using h
    exact List.not_mem_nil
  | cons c l ih =>
    rw [List.splitOn_cons_eq_if_modifyHead] at h
    obtain ⟨d, ds, hds⟩ := List.exists_cons_of_ne_nil (List.splitOn_ne_nil a l)
    split at h
    · rcases List.mem_cons.mp h with rfl | h
      · exact List.not_mem_nil
      · exact ih h
    · rename_i hc
      rw [hds, List.modifyHead_cons] at h
      rw [hds] at ih
      rcases List.mem_cons.mp h with rfl | h
      · rw [List.mem_cons, not_or]
        exact ⟨fun he => hc (beq_iff_eq.mpr he.symm), ih List.mem_cons_self⟩
      · exact ih (List.mem_cons_of_mem d h)

/-- `from_okx` leaves no dash. -/
lemma dash_notMem_fromOkx (s : String) : '-' ∉ (fromOkx s).toList := by
  have hparts : ∀ part ∈ s.toList.splitOn '-', '-' ∉ part := fun part => notMem_of_mem_splitOn
  unfold fromOkx
  split
  · rename_i a b rest hsplit
    rw [hsplit] at hparts
    rw [String.toList_ofList, List.mem_append, not_or]
    refine ⟨hparts a (by simp), ?_⟩
    split
    · exact dash_notMem_usdt
    · exact hparts b (by simp)
  · rename_i hne
    obtain ⟨a, rest, hsplit⟩ := List.exists_cons_of_ne_nil (List.splitOn_ne_nil '-' s.toList)
    rw [hsplit] at hparts ⊢
    rw [String.toList_ofList, List.headD_cons, List.mem_append, not_or]
    exact ⟨hparts a (by simp), dash_notMem_usdt⟩

lemma isUsdt_fromOkx_of_not {canonical : String} (h : isUsdt canonical = false) :
    fromOkx (swaplessSpotId canonical) ≠ canonical ∧ fromOkx (swapId canonical) ≠ canonical := by
  have hbase : '-' ∉ base canonical := by
    rw [base, h, if_neg (by simp)]
    intro hmem
    simpa using List.mem_takeWhile_imp hmem
  have hquote : quote canonical = usdt := by rw [quote, h, if_neg (by simp)]
  have hne : ∀ s : String, s.toList = base canonical ++ usdt → s ≠ canonical := by
    rintro s hs rfl
    rw [isUsdt, decide_eq_false_iff_not, hs] at h
    exact h (List.suffix_append _ _)
  constructor
  · apply hne
    rw [swaplessSpotId, hquote, fromOkx_pair hbase dash_notMem_usdt (by decide), String.toList_ofList]
  · apply hne
    rw [swapId, hquote]
    change (fromOkx (String.ofList (base canonical ++ '-' :: (usdt ++ '-' :: "SWAP".toList)))).toList = _
    rw [fromOkx_triple hbase dash_notMem_usdt (by decide), String.toList_ofList]

lemma base_append_quote {canonical : String} (h : isUsdt canonical = true) :
    base canonical ++ quote canonical = canonical.toList ∧ quote canonical = usdt := by
  obtain ⟨b, hb⟩ := of_decide_eq_true h
  have hlen : usdt.length = 4 := by decide
  have hbase : base canonical = b := by
    rw [base, if_pos h, ← hb, List.rdrop, List.length_append, hlen]
    simp
  have hquote : quote canonical = usdt := by
    rw [quote, if_pos h, ← hb, List.rtake, List.length_append, hlen]
    simp
  exact ⟨by rw [hbase, hquote, hb], hquote⟩

/-- Which canonical symbols `from_okx` gives back. -/
lemma fromOkx_ids_iff (canonical : String) :
    (fromOkx (swaplessSpotId canonical) = canonical ↔ isUsdt canonical = true ∧ '-' ∉ canonical.toList) ∧
      (fromOkx (swapId canonical) = canonical ↔ isUsdt canonical = true ∧ '-' ∉ canonical.toList) := by
  cases h : isUsdt canonical with
  | false =>
    obtain ⟨hspot, hswap⟩ := isUsdt_fromOkx_of_not h
    simp [hspot, hswap]
  | true =>
    obtain ⟨happend, hquote⟩ := base_append_quote h
    have hback : ∀ s, fromOkx s = canonical → '-' ∉ canonical.toList := fun s hs => hs ▸ dash_notMem_fromOkx s
    have hbase : '-' ∉ canonical.toList → '-' ∉ base canonical := by
      intro hd hmem
      exact hd (happend ▸ List.mem_append_left _ hmem)
    have hwhole : String.ofList (base canonical ++ usdt) = canonical := by
      rw [← hquote, happend, String.ofList_toList]
    refine ⟨⟨fun hs => ⟨rfl, hback _ hs⟩, fun hd => ?_⟩, ⟨fun hs => ⟨rfl, hback _ hs⟩, fun hd => ?_⟩⟩
    · rw [swaplessSpotId, hquote, fromOkx_pair (hbase hd.2) dash_notMem_usdt (by decide), hwhole]
    · rw [swapId, hquote]
      change fromOkx (String.ofList (base canonical ++ '-' :: (usdt ++ '-' :: "SWAP".toList))) = _
      rw [fromOkx_triple (hbase hd.2) dash_notMem_usdt (by decide), hwhole]

lemma toOkxSpot_eq (canonical : String) (db : RegistryDb) :
    (toOkxSpot true canonical true db).1 = if (checkLive true (swaplessSpotId canonical) "SPOT" db).1
      then .ok (swaplessSpotId canonical)
      else .error (.keyError ("okx spot instrument not live: " ++ swaplessSpotId canonical)) := by
  rw [toOkxSpot, if_pos rfl]
  split <;> simp_all

lemma toOkxSwap_eq (canonical : String) (db : RegistryDb) :
    (toOkxSwap true canonical true db).1 = if (checkLive true (swapId canonical) "SWAP" db).1
      then .ok (swapId canonical)
      else .error (.keyError ("okx swap instrument not live: " ++ swapId canonical)) := by
  rw [toOkxSwap, if_pos rfl]
  split <;> simp_all

/-- After any run the resolver, asked for a live instrument, hands out an id exactly when the last effective
refresh lists it as live in its class, and then the id of the symbol. `from_okx` maps the ids of a symbol
back to it exactly when the symbol ends in `USDT` and has no dash. -/
theorem resolver_run (calls : List RegistryCall) (canonical : String) :
    (∀ i, (toOkxSpot true canonical true (Runs.run exec .absent calls)).1 = .ok i ↔
      i = swaplessSpotId canonical ∧ Live calls "SPOT" i) ∧
    (∀ i, (toOkxSwap true canonical true (Runs.run exec .absent calls)).1 = .ok i ↔
      i = swapId canonical ∧ Live calls "SWAP" i) ∧
    (fromOkx (swaplessSpotId canonical) = canonical ↔ isUsdt canonical = true ∧ '-' ∉ canonical.toList) ∧
    (fromOkx (swapId canonical) = canonical ↔ isUsdt canonical = true ∧ '-' ∉ canonical.toList) := by
  refine ⟨fun i => ?_, fun i => ?_, fromOkx_ids_iff canonical⟩
  · have hlive := checkLive_run calls (swaplessSpotId canonical) "SPOT"
    rw [toOkxSpot_eq]
    split
    · rename_i hcheck
      rw [Except.ok.injEq, eq_comm]
      exact ⟨fun h => ⟨h, h ▸ hlive.mp hcheck⟩, And.left⟩
    · rename_i hcheck
      simp only [reduceCtorEq, false_iff]
      rintro ⟨rfl, h⟩
      exact hcheck (hlive.mpr h)
  · have hlive := checkLive_run calls (swapId canonical) "SWAP"
    rw [toOkxSwap_eq]
    split
    · rename_i hcheck
      rw [Except.ok.injEq, eq_comm]
      exact ⟨fun h => ⟨h, h ▸ hlive.mp hcheck⟩, And.left⟩
    · rename_i hcheck
      simp only [reduceCtorEq, false_iff]
      rintro ⟨rfl, h⟩
      exact hcheck (hlive.mpr h)

example : fromOkx (swaplessSpotId "BTC-USDT") = "BTCUSDT" := by decide

end CryptoTrader.MarketRegistry
