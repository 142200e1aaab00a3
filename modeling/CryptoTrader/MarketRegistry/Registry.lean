import CryptoTrader.Lib.Json
import CryptoTrader.Lib.OrderedRows
import CryptoTrader.Lib.Runs
import Mathlib.Data.List.Dedup
import Mathlib.Data.Prod.Lex

/-!
# The instrument registry

`market_registry/registry.py` and `market_registry/resolver.py` over the table `okx_instruments`.
Each refresh lists the instruments of the exchange and is written over the table: a new
instrument is inserted, a known one is rewritten, one the listing leaves out is marked
`DELISTED`. Both modules create the table when it is missing, the resolver with three columns
only. `expectedRow` says what a history of refreshes makes of an instrument, and
`registry_run` that the table holds it.
-/

namespace CryptoTrader.MarketRegistry

open KeyedTable OrderedRows

structure InstrumentRecord where
  instId : String
  instType : String
  uly : Option String := none
  instFamily : Option String := none
  baseCcy : Option String := none
  quoteCcy : Option String := none
  settleCcy : Option String := none
  state : String := "unknown"
  tickSz : Option String := none
  lotSz : Option String := none
  minSz : Option String := none
  ctVal : Option String := none
  ctValCcy : Option String := none
  ctType : Option String := none
  lever : Option String := none
  expTime : Option String := none
  listTime : Option String := none
  deriving DecidableEq, Repr

/-- `raw.get(k) or None`, of an API row, whose fields are texts. -/
def textOf (raw : Dict String String) (k : String) : Option String :=
  (Dict.get k raw).filter (· ≠ "")

def InstrumentRecord.fromApi (raw : Dict String String) : InstrumentRecord where
  instId := (textOf raw "instId").getD ""
  instType := (textOf raw "instType").getD ""
  uly := textOf raw "uly"
  instFamily := textOf raw "instFamily"
  baseCcy := textOf raw "baseCcy"
  quoteCcy := textOf raw "quoteCcy"
  settleCcy := textOf raw "settleCcy"
  state := (textOf raw "state").getD "unknown"
  tickSz := textOf raw "tickSz"
  lotSz := textOf raw "lotSz"
  minSz := textOf raw "minSz"
  ctVal := textOf raw "ctVal"
  ctValCcy := textOf raw "ctValCcy"
  ctType := textOf raw "ctType"
  lever := textOf raw "lever"
  expTime := textOf raw "expTime"
  listTime := textOf raw "listTime"

structure RegistrySnapshot where
  refreshedAt : String
  counts : Dict String ℕ := []
  states : Dict String ℕ := []
  optionUnderlyings : ℕ := 0
  inserted : ℕ := 0
  updated : ℕ := 0
  delisted : ℕ := 0
  deriving DecidableEq, Repr

/-- A row of `okx_instruments`. -/
structure InstrumentRow extends InstrumentRecord where
  firstSeenAt : String
  lastSeenAt : String
  refreshedAt : String
  deriving DecidableEq, Repr

def InstrumentRow.id (x : InstrumentRow) : String := x.instId

inductive RegistryError where
  /-- `sqlite3.OperationalError`. -/
  | operationalError (message : String)
  | keyError (message : String)
  /-- What the exchange client raises. -/
  | fetchFailed (message : String)
  deriving DecidableEq, Repr

/-- The database file. The resolver's table has no columns to insert an instrument into, so it
stays empty. -/
inductive RegistryDb where
  | absent
  | resolverTable
  | registryTable (rows : List InstrumentRow)
  deriving DecidableEq, Repr

namespace RegistryDb

/-- `_CREATE_TABLE` of the registry. -/
def create : RegistryDb → RegistryDb
  | .absent => .registryTable []
  | db => db

/-- `_CREATE` of the resolver. -/
def createForResolver : RegistryDb → RegistryDb
  | .absent => .resolverTable
  | db => db

def rows : RegistryDb → List InstrumentRow
  | .registryTable rows => rows
  | _ => []

end RegistryDb

/-! ### Fetching -/

/-- The endpoints of `OkxPublicClient`. -/
structure OkxPublicClient where
  getInstruments : String → Except RegistryError (List (Dict String String))
  getOptionUnderlyings : String → Except RegistryError (List String)

def instrumentTypes : List String := ["SPOT", "SWAP", "FUTURES"]

/-- The loop of `fetch_registry_snapshot` over the product classes. -/
def fetchInstruments (client : OkxPublicClient) :
    List String → Except RegistryError (List InstrumentRecord × Dict String ℕ)
  | [] => .ok ([], [])
  | instType :: rest => do
    let rawRows ← client.getInstruments instType
    let (records, counts) ← fetchInstruments client rest
    .ok (rawRows.map InstrumentRecord.fromApi ++ records, (instType, rawRows.length) :: counts)

def fetchRegistrySnapshot (client : OkxPublicClient) (now : String) :
    Except RegistryError (List InstrumentRecord × RegistrySnapshot) := do
  let (records, counts) ← fetchInstruments client instrumentTypes
  let underlyings ← client.getOptionUnderlyings "OPTION"
  .ok (records, { refreshedAt := now, counts, optionUnderlyings := underlyings.length })

/-! ### Writing a listing over the table -/

/-- What the loop of `persist_registry_sync` carries. -/
structure PersistState where
  seen : List String := []
  rows : List InstrumentRow
  inserted : ℕ := 0
  updated : ℕ := 0
  deriving DecidableEq, Repr

/-- The `UPDATE` of a known instrument. -/
def InstrumentRow.rewrite (x : InstrumentRow) (record : InstrumentRecord) (now : String) : InstrumentRow :=
  { x with toInstrumentRecord := record, lastSeenAt := now, refreshedAt := now }

def newRow (record : InstrumentRecord) (now : String) : InstrumentRow :=
  ⟨record, now, now, now⟩

/-- One turn of the loop; `existing` is read before it starts. -/
def persistRecord (now : String) (existing : List String) (s : PersistState)
    (record : InstrumentRecord) : PersistState :=
  if record.instId = "" ∨ record.instId ∈ s.seen then s
  else if record.instId ∈ existing then
    { s with
      seen := record.instId :: s.seen
      rows := s.rows.map (fun x => if x.id = record.instId then x.rewrite record now else x)
      updated := s.updated + 1 }
  else
    { s with
      seen := record.instId :: s.seen
      rows := s.rows ++ [newRow record now]
      inserted := s.inserted + 1 }

/-- The `UPDATE` of an instrument that the listing leaves out. -/
def InstrumentRow.delist (x : InstrumentRow) (now : String) : InstrumentRow :=
  if x.state ≠ "DELISTED" then { x with state := "DELISTED", refreshedAt := now } else x

/-- The loop over `gone`. -/
def delistGone (now : String) (gone : List String) (rows : List InstrumentRow) : List InstrumentRow :=
  gone.foldl (fun rows i => rows.map (fun x => if x.id = i then x.delist now else x)) rows

/-- The counts of `GROUP BY inst_type, state`, which answers in the order of the groups. -/
def stateCounts (rows : List InstrumentRow) : Dict String ℕ :=
  let groups := orderBy toLex (rows.map (fun x => (x.instType, x.state))).dedup
  groups.foldl (fun d g => Dict.alter (g.1 ++ ":" ++ g.2)
    (fun _ => rows.countP (fun x => x.instType = g.1 ∧ x.state = g.2)) d) []

/-- The transaction of `persist_registry_sync` on the registry's own table. -/
def persistRows (now : String) (records : List InstrumentRecord) (snapshot : Option RegistrySnapshot)
    (rows : List InstrumentRow) : RegistrySnapshot × List InstrumentRow :=
  let existing := rows.map InstrumentRow.id
  let s := records.foldl (persistRecord now existing) { rows := rows }
  let gone := existing.filter (· ∉ s.seen)
  let written := if s.seen = [] then s.rows else delistGone now gone s.rows
  ({ snapshot.getD { refreshedAt := now } with
      inserted := s.inserted
      updated := s.updated
      delisted := if s.seen = [] then 0 else gone.length
      states := stateCounts written }, written)

def persistRegistrySync (now : String) (records : List InstrumentRecord) (snapshot : Option RegistrySnapshot)
    (db : RegistryDb) : Except RegistryError RegistrySnapshot × RegistryDb :=
  match db.create with
  | .registryTable rows =>
    let (result, written) := persistRows now records snapshot rows
    (.ok result, .registryTable written)
  | db' =>
    -- `existing` is empty, so the first instrument is inserted, into columns that are not there
    if records.any (·.instId ≠ "") then
      (.error (.operationalError "table okx_instruments has no column named uly"), db')
    else (.ok (persistRows now records snapshot []).1, db')

def refreshSync (client : OkxPublicClient) (fetchedAt now : String) (db : RegistryDb) :
    Except RegistryError RegistrySnapshot × RegistryDb :=
  match fetchRegistrySnapshot client fetchedAt with
  | .error e => (.error e, db)
  | .ok (records, snapshot) => persistRegistrySync now records (some snapshot) db

/-! ### Reading the table -/

structure TypeStats where
  live : ℕ
  total : ℕ
  deriving DecidableEq, Repr

structure RegistryStats where
  total : ℕ
  delisted : ℕ
  byType : Dict String TypeStats
  lastRefreshedAt : Option String
  deriving DecidableEq, Repr

def statsOf (rows : List InstrumentRow) : RegistryStats where
  total := rows.length
  delisted := rows.countP (·.state = "DELISTED")
  byType := instrumentTypes.map (fun t =>
    (t, ⟨rows.countP (fun x => x.instType = t ∧ x.state = "live"), rows.countP (·.instType = t)⟩))
  lastRefreshedAt := (rows.map InstrumentRow.refreshedAt).max?

def registryStatsSync (db : RegistryDb) : Except RegistryError RegistryStats × RegistryDb :=
  match db.create with
  | .registryTable rows => (.ok (statsOf rows), .registryTable rows)
  | db' => (.error (.operationalError "no such column: refreshed_at"), db')

/-- `LIMIT`: none without a limit or with 0, and a negative one does not limit. -/
def limitRows {α : Type} (limit : Option ℤ) (rows : List α) : List α :=
  match limit with
  | some n => if 0 < n then rows.take n.toNat else rows
  | none => rows

/-- The `WHERE` of `tradeable_universe_sync`. -/
def InstrumentRecord.isTradeable (x : InstrumentRecord) (instType quoteCcy : String) : Bool :=
  x.instType = instType ∧ x.state = "live" ∧ (x.quoteCcy = some quoteCcy ∨ x.quoteCcy = none)

def tradeableUniverseSync (instType quoteCcy : String) (limit : Option ℤ) (db : RegistryDb) :
    Except RegistryError (List String) × RegistryDb :=
  match db.create with
  | .registryTable rows =>
    (.ok (limitRows limit (orderBy id
      ((rows.filter (fun x => x.isTradeable instType quoteCcy)).map InstrumentRow.id))), .registryTable rows)
  | db' => (.error (.operationalError "no such column: quote_ccy"), db')

/-- `_live_ok` with a database path. -/
def liveOk (instId instType : String) (db : RegistryDb) : Bool × RegistryDb :=
  let found := db.createForResolver.rows.find? (fun x => x.id = instId ∧ x.instType = instType)
  ((found.map InstrumentRow.toInstrumentRecord).any (·.state = "live"), db.createForResolver)

/-! ### What one refresh does to an instrument -/

/-- The listing that a refresh writes, and when. -/
structure Refresh where
  now : String
  records : List InstrumentRecord
  deriving DecidableEq, Repr

namespace Refresh

/-- What the listing says of an instrument: its first record counts. -/
def listed (r : Refresh) (i : String) : Option InstrumentRecord :=
  if i = "" then none else row InstrumentRecord.instId i r.records

/-- The listing holds an instrument. -/
def effective (r : Refresh) : Bool :=
  r.records.any (·.instId ≠ "")

/-- The row of an instrument after a refresh. -/
def write (r : Refresh) (i : String) : Option InstrumentRow → Option InstrumentRow
  | none => (r.listed i).map (fun record => newRow record r.now)
  | some x =>
    match r.listed i with
    | some record => some (x.rewrite record r.now)
    | none => some (if r.effective then x.delist r.now else x)

end Refresh

@[simp] lemma id_newRow (record : InstrumentRecord) (now : String) : (newRow record now).id = record.instId := rfl

@[simp] lemma id_rewrite (x : InstrumentRow) (record : InstrumentRecord) (now : String) :
    (x.rewrite record now).id = record.instId := rfl

@[simp] lemma id_delist (x : InstrumentRow) (now : String) : (x.delist now).id = x.id := by
  unfold InstrumentRow.delist
  split <;> rfl

lemma delist_delist (x : InstrumentRow) (now : String) : (x.delist now).delist now = x.delist now := by
  by_cases h : x.state = "DELISTED" <;> simp [InstrumentRow.delist, h]

/-- An `UPDATE` of the row with one id. -/
lemma row_update {f : InstrumentRow → InstrumentRow} {j : String} (hf : ∀ x, x.id = j → (f x).id = j)
    (i : String) (rows : List InstrumentRow) :
    row InstrumentRow.id i (rows.map (fun x => if x.id = j then f x else x)) =
      if i = j then (row InstrumentRow.id i rows).map f else row InstrumentRow.id i rows := by
  rw [row_map (fun x => by split <;> simp_all)]
  cases hrow : row InstrumentRow.id i rows with
  | none => simp
  | some x =>
    obtain ⟨-, rfl⟩ := row_some hrow
    by_cases hx : x.id = j <;> simp [hx]

lemma map_id_update {f : InstrumentRow → InstrumentRow} {j : String} (hf : ∀ x, x.id = j → (f x).id = j)
    (rows : List InstrumentRow) :
    (rows.map (fun x => if x.id = j then f x else x)).map InstrumentRow.id = rows.map InstrumentRow.id := by
  rw [List.map_map]
  apply List.map_congr_left
  intro x _
  by_cases hx : x.id = j
  · simp [hx, hf x hx]
  · simp [hx]

namespace Refresh

lemma listed_eq_none_iff {now : String} {records : List InstrumentRecord} {i : String} :
    listed ⟨now, records⟩ i = none ↔ ¬ (i ≠ "" ∧ i ∈ records.map InstrumentRecord.instId) := by
  by_cases hi : i = ""
  · simp [listed, hi]
  · simp only [listed, hi, if_false, row_eq_none_iff, ne_eq, not_false_eq_true, true_and]

lemma listed_instId {r : Refresh} {i : String} {record : InstrumentRecord} (h : r.listed i = some record) :
    record.instId = i := by
  unfold listed at h
  split at h
  · cases h
  · exact (row_some h).2

/-- The first record of an instrument counts. -/
lemma listed_concat_of_some {now : String} {records : List InstrumentRecord} {record r : InstrumentRecord}
    {i : String} (h : listed ⟨now, records⟩ i = some r) : listed ⟨now, records ++ [record]⟩ i = some r := by
  unfold listed at h ⊢
  split at h
  · cases h
  · rename_i hi
    rw [if_neg hi]
    exact row_append_of_some h

lemma listed_concat_of_ne {now : String} {records : List InstrumentRecord} {record : InstrumentRecord}
    {i : String} (h : record.instId ≠ i) : listed ⟨now, records ++ [record]⟩ i = listed ⟨now, records⟩ i := by
  unfold listed
  split
  · rfl
  · change row InstrumentRecord.instId i (records ++ [record]) = row InstrumentRecord.instId i records
    cases hrow : row InstrumentRecord.instId i records with
    | some r => exact row_append_of_some hrow
    | none =>
      rw [row_append_of_none hrow]
      simp [row, h]

lemma listed_concat_self {now : String} {records : List InstrumentRecord} {record : InstrumentRecord}
    (h0 : record.instId ≠ "") (h : record.instId ∉ records.map InstrumentRecord.instId) :
    listed ⟨now, records ++ [record]⟩ record.instId = some record := by
  rw [listed, if_neg h0]
  change row InstrumentRecord.instId record.instId (records ++ [record]) = some record
  rw [row_append_of_none (row_eq_none_iff.mpr h)]
  simp [row]

end Refresh

/-- What the loop over the records has done after some of them. -/
structure Persisted (now : String) (records : List InstrumentRecord) (rows : List InstrumentRow)
    (s : PersistState) : Prop where
  seen : ∀ i, i ∈ s.seen ↔ i ≠ "" ∧ i ∈ records.map InstrumentRecord.instId
  keys : ∀ i, i ∈ s.rows.map InstrumentRow.id ↔ i ∈ rows.map InstrumentRow.id ∨ i ∈ s.seen
  nodup : (s.rows.map InstrumentRow.id).Nodup
  row : ∀ i, row InstrumentRow.id i s.rows =
    match Refresh.listed ⟨now, records⟩ i, row InstrumentRow.id i rows with
    | some record, some x => some (x.rewrite record now)
    | some record, none => some (newRow record now)
    | none, x => x
  count : s.inserted + rows.length = s.rows.length ∧ s.inserted + s.updated = s.seen.length

/-- A record that the loop passes over changes nothing. -/
lemma Persisted.skip {now : String} {records : List InstrumentRecord} {rows : List InstrumentRow}
    {s : PersistState} (h : Persisted now records rows s) {record : InstrumentRecord}
    (hskip : record.instId = "" ∨ record.instId ∈ s.seen) : Persisted now (records ++ [record]) rows s where
  seen i := by
    rw [h.seen, List.map_append, List.mem_append]
    rcases hskip with h0 | hseen
    · constructor
      · exact fun hi => ⟨hi.1, .inl hi.2⟩
      · rintro ⟨hi, hmem | hmem⟩
        · exact ⟨hi, hmem⟩
        · simp_all
    · constructor
      · exact fun hi => ⟨hi.1, .inl hi.2⟩
      · rintro ⟨hi, hmem | hmem⟩
        · exact ⟨hi, hmem⟩
        · obtain rfl : i = record.instId := by simpa using hmem
          exact (h.seen _).mp hseen
  keys := h.keys
  nodup := h.nodup
  row i := by
    rw [h.row]
    by_cases hi : record.instId = i
    · rcases hskip with h0 | hseen
      · have hnone : ∀ l, Refresh.listed ⟨now, l⟩ i = none := fun l => by simp [Refresh.listed, ← hi, h0]
        rw [hnone, hnone]
      · have hlisted : Refresh.listed ⟨now, records⟩ i ≠ none := by
          rw [ne_eq, Refresh.listed_eq_none_iff, not_not, ← hi]
          exact (h.seen _).mp hseen
        obtain ⟨r, hr⟩ := Option.ne_none_iff_exists'.mp hlisted
        rw [hr, Refresh.listed_concat_of_some hr]
    · rw [Refresh.listed_concat_of_ne hi]
  count := h.count

/-- The row of an instrument that the loop has not come to is as it was. -/
lemma Persisted.row_of_notMem {now : String} {records : List InstrumentRecord} {rows : List InstrumentRow}
    {s : PersistState} (h : Persisted now records rows s) {i : String} (h0 : i ≠ "") (hi : i ∉ s.seen) :
    Refresh.listed ⟨now, records⟩ i = none ∧ KeyedTable.row InstrumentRow.id i s.rows =
      KeyedTable.row InstrumentRow.id i rows ∧ i ∉ records.map InstrumentRecord.instId := by
  have hmem : i ∉ records.map InstrumentRecord.instId := fun hm => hi ((h.seen i).mpr ⟨h0, hm⟩)
  have hnone : Refresh.listed ⟨now, records⟩ i = none := Refresh.listed_eq_none_iff.mpr (fun hm => hmem hm.2)
  refine ⟨hnone, ?_, hmem⟩
  rw [h.row, hnone]

lemma persistRecord_persisted {now : String} {records : List InstrumentRecord} {rows : List InstrumentRow}
    {s : PersistState} (h : Persisted now records rows s) (record : InstrumentRecord) :
    Persisted now (records ++ [record]) rows (persistRecord now (rows.map InstrumentRow.id) s record) := by
  unfold persistRecord
  split
  · exact h.skip ‹_›
  · rename_i hnew
    obtain ⟨h0, hseen⟩ := not_or.mp hnew
    obtain ⟨hnone, hrow, hmem⟩ := h.row_of_notMem h0 hseen
    have hlisted : Refresh.listed ⟨now, records ++ [record]⟩ record.instId = some record :=
      Refresh.listed_concat_self h0 hmem
    have hseen' : ∀ i, i ∈ record.instId :: s.seen ↔
        i ≠ "" ∧ i ∈ (records ++ [record]).map InstrumentRecord.instId := by
      intro i
      rw [List.mem_cons, h.seen, List.map_append, List.mem_append, List.map_singleton, List.mem_singleton]
      constructor
      · rintro (rfl | hi)
        · exact ⟨h0, .inr rfl⟩
        · exact ⟨hi.1, .inl hi.2⟩
      · rintro ⟨hi, hm | hm⟩
        · exact .inr ⟨hi, hm⟩
        · exact .inl hm
    split
    · rename_i hold
      have hid : ∀ x : InstrumentRow, x.id = record.instId → (x.rewrite record now).id = record.instId :=
        fun x _ => rfl
      refine ⟨hseen', fun i => ?_, ?_, fun i => ?_, ?_⟩
      · rw [map_id_update hid, h.keys, List.mem_cons]
        constructor
        · exact Or.imp_right .inr
        · rintro (hi | rfl | hi)
          · exact .inl hi
          · exact .inl hold
          · exact .inr hi
      · rw [map_id_update hid]
        exact h.nodup
      · rw [row_update hid]
        split
        · rename_i hi
          subst hi
          obtain ⟨x, hx⟩ := row_isSome_iff.mpr hold
          rw [hrow, hx, hlisted]
          rfl
        · rename_i hi
          rw [Refresh.listed_concat_of_ne (Ne.symm hi), h.row]
      · simp only [List.length_map, List.length_cons]
        exact ⟨h.count.1, by have := h.count.2; omega⟩
    · rename_i hold
      refine ⟨hseen', fun i => ?_, ?_, fun i => ?_, ?_⟩
      · rw [List.map_append, List.mem_append, h.keys, List.mem_cons, List.map_singleton, List.mem_singleton,
          id_newRow]
        tauto
      · apply nodup_append_of_fresh h.nodup
        rw [id_newRow, h.keys]
        exact not_or.mpr ⟨hold, hseen⟩
      · by_cases hi : i = record.instId
        · subst hi
          have hfree : KeyedTable.row InstrumentRow.id record.instId rows = none := row_eq_none_iff.mpr hold
          rw [row_append_of_none (hrow.trans hfree), hlisted, hfree]
          simp [KeyedTable.row]
        · rw [Refresh.listed_concat_of_ne (Ne.symm hi), ← h.row]
          cases hr : KeyedTable.row InstrumentRow.id i s.rows with
          | some x => exact row_append_of_some hr
          | none =>
            rw [row_append_of_none hr]
            simp [KeyedTable.row, Ne.symm hi]
      · simp only [List.length_append, List.length_cons, List.length_nil]
        exact ⟨by have := h.count.1; omega, by have := h.count.2; omega⟩

lemma persisted (now : String) (records : List InstrumentRecord) {rows : List InstrumentRow}
    (hn : (rows.map InstrumentRow.id).Nodup) :
    Persisted now records rows (records.foldl (persistRecord now (rows.map InstrumentRow.id)) { rows := rows }) := by
  induction records using List.reverseRecOn with
  | nil =>
    refine ⟨by simp, by simp, hn, fun i => ?_, by simp⟩
    have hnone : Refresh.listed ⟨now, []⟩ i = none := by simp [Refresh.listed_eq_none_iff]
    rw [hnone, List.foldl_nil]
  | append_singleton records record ih =>
    rw [List.foldl_append, List.foldl_cons, List.foldl_nil]
    exact persistRecord_persisted ih record

lemma map_id_delistGone (now : String) (gone : List String) (rows : List InstrumentRow) :
    (delistGone now gone rows).map InstrumentRow.id = rows.map InstrumentRow.id := by
  induction gone generalizing rows with
  | nil => rfl
  | cons j gone ih =>
    rw [delistGone, List.foldl_cons]
    exact (ih _).trans (map_id_update (fun x hx => (id_delist x now).trans hx) rows)

lemma row_delistGone (now : String) (gone : List String) (i : String) (rows : List InstrumentRow) :
    row InstrumentRow.id i (delistGone now gone rows) =
      if i ∈ gone then (row InstrumentRow.id i rows).map (·.delist now) else row InstrumentRow.id i rows := by
  induction gone generalizing rows with
  | nil => simp [delistGone]
  | cons j gone ih =>
    have hupdate := row_update (f := fun x => x.delist now) (fun x (hx : x.id = j) => (id_delist x now).trans hx)
      i rows
    rw [delistGone, List.foldl_cons]
    refine (ih _).trans ?_
    rw [hupdate]
    by_cases hj : i = j
    · subst hj
      cases row InstrumentRow.id i rows <;> simp [delist_delist]
    · simp [hj]

lemma Persisted.seen_eq_nil_iff {now : String} {records : List InstrumentRecord} {rows : List InstrumentRow}
    {s : PersistState} (h : Persisted now records rows s) :
    s.seen = [] ↔ Refresh.effective ⟨now, records⟩ = false := by
  rw [List.eq_nil_iff_forall_not_mem, Refresh.effective, List.any_eq_false]
  simp only [h.seen, List.mem_map, not_and, not_exists, decide_eq_true_eq, not_not]
  constructor
  · intro hall record hmem
    by_contra h0
    exact hall record.instId h0 record hmem rfl
  · rintro hall i h0 record hmem rfl
    exact h0 (hall record hmem)

/-- What `persist_registry_sync` does to the row of an instrument. -/
lemma row_persistRows {rows : List InstrumentRow} (hn : (rows.map InstrumentRow.id).Nodup) (now : String)
    (records : List InstrumentRecord) (snapshot : Option RegistrySnapshot) (i : String) :
    row InstrumentRow.id i (persistRows now records snapshot rows).2 =
      Refresh.write ⟨now, records⟩ i (row InstrumentRow.id i rows) := by
  have hp := persisted now records hn
  simp only [persistRows]
  generalize records.foldl (persistRecord now (rows.map InstrumentRow.id)) { rows := rows } = s at hp ⊢
  have hrow := hp.row i
  split
  · rename_i hnil
    have heff := hp.seen_eq_nil_iff.mp hnil
    rw [hrow]
    cases hl : Refresh.listed ⟨now, records⟩ i <;> cases row InstrumentRow.id i rows <;>
      simp [Refresh.write, hl, heff]
  · rename_i hne
    have heff : Refresh.effective ⟨now, records⟩ = true := by
      simpa using mt hp.seen_eq_nil_iff.mpr hne
    have hgone : i ∈ (rows.map InstrumentRow.id).filter (· ∉ s.seen) ↔
        i ∈ rows.map InstrumentRow.id ∧ Refresh.listed ⟨now, records⟩ i = none := by
      simp only [List.mem_filter, decide_eq_true_eq, Refresh.listed_eq_none_iff, hp.seen]
    rw [row_delistGone, hrow]
    simp only [hgone]
    cases hl : Refresh.listed ⟨now, records⟩ i with
    | some record => cases row InstrumentRow.id i rows <;> simp [Refresh.write, hl]
    | none =>
      cases hr : row InstrumentRow.id i rows with
      | none => simp [Refresh.write, hl]
      | some x => simp [Refresh.write, hl, heff, row_isSome_iff.mp ⟨x, hr⟩]

lemma nodup_persistRows {rows : List InstrumentRow} (hn : (rows.map InstrumentRow.id).Nodup) (now : String)
    (records : List InstrumentRecord) (snapshot : Option RegistrySnapshot) :
    ((persistRows now records snapshot rows).2.map InstrumentRow.id).Nodup := by
  have hp := persisted now records hn
  simp only [persistRows]
  split
  · exact hp.nodup
  · rw [map_id_delistGone]
    exact hp.nodup

/-! ### What a history of refreshes makes of an instrument -/

/-- The last refresh that lists an instrument, what it says of it, and the refreshes after it. -/
def lastListing (i : String) : List Refresh → Option (Refresh × InstrumentRecord × List Refresh)
  | [] => none
  | r :: rest =>
    match lastListing i rest with
    | some found => some found
    | none => (r.listed i).map (fun record => (r, record, rest))

/-- The row of an instrument after a history of refreshes: it was first seen by the first refresh that
lists it and last seen by the last one, which also gives its fields; the first listing after that
which holds an instrument marks it. -/
def expectedRow (history : List Refresh) (i : String) : Option InstrumentRow :=
  match history.find? (fun r => (r.listed i).isSome), lastListing i history with
  | some first, some (last, record, later) =>
    match later.find? Refresh.effective with
    | none => some ⟨record, first.now, last.now, last.now⟩
    | some marking =>
      some ⟨{ record with state := "DELISTED" }, first.now, last.now,
        if record.state = "DELISTED" then last.now else marking.now⟩
  | _, _ => none

lemma lastListing_concat (i : String) (history : List Refresh) (r : Refresh) :
    lastListing i (history ++ [r]) =
      match r.listed i with
      | some record => some (r, record, [])
      | none => (lastListing i history).map (fun f => (f.1, f.2.1, f.2.2 ++ [r])) := by
  induction history with
  | nil => cases h : r.listed i <;> simp [lastListing, h]
  | cons r' history ih =>
    rw [List.cons_append, lastListing, ih]
    cases h : r.listed i with
    | some record => rfl
    | none =>
      cases hl : lastListing i history with
      | some f => simp [lastListing, hl]
      | none => cases h' : r'.listed i <;> simp [lastListing, hl, h']

lemma lastListing_isSome_iff {i : String} {history : List Refresh} :
    (lastListing i history).isSome ↔ (history.find? (fun r => (r.listed i).isSome)).isSome := by
  induction history using List.reverseRecOn with
  | nil => rfl
  | append_singleton history r ih =>
    rw [lastListing_concat, List.find?_append]
    cases h : r.listed i with
    | some record => cases history.find? (fun r => (r.listed i).isSome) <;> simp [h]
    | none => simpa [h] using ih

/-- One more refresh. -/
lemma expectedRow_concat (history : List Refresh) (r : Refresh) (i : String) :
    expectedRow (history ++ [r]) i = r.write i (expectedRow history i) := by
  have hsome : (lastListing i history).isSome ↔ (history.find? (fun r => (r.listed i).isSome)).isSome :=
    lastListing_isSome_iff
  rw [expectedRow, lastListing_concat, List.find?_append]
  cases hfirst : history.find? (fun r => (r.listed i).isSome) with
  | none =>
    have hlast : lastListing i history = none := by simpa [hfirst] using hsome
    have hold : expectedRow history i = none := by rw [expectedRow, hfirst]
    rw [hold]
    cases h : r.listed i <;> simp [hlast, h, Refresh.write, newRow]
  | some first =>
    obtain ⟨⟨last, record, later⟩, hlast⟩ : ∃ f, lastListing i history = some f := by
      simpa [hfirst, Option.isSome_iff_exists] using hsome
    have hold : expectedRow history i = match later.find? Refresh.effective with
        | none => some ⟨record, first.now, last.now, last.now⟩
        | some marking =>
          some ⟨{ record with state := "DELISTED" }, first.now, last.now,
            if record.state = "DELISTED" then last.now else marking.now⟩ := by
      rw [expectedRow, hfirst, hlast]
    rw [hold]
    cases h : r.listed i with
    | some record' => cases later.find? Refresh.effective <;> simp [h, Refresh.write, InstrumentRow.rewrite]
    | none =>
      cases hm : later.find? Refresh.effective with
      | some marking => cases he : r.effective <;>
          simp [hlast, h, hm, he, Refresh.write, InstrumentRow.delist]
      | none =>
        cases he : r.effective with
        | false => simp [hlast, h, hm, he, Refresh.write]
        | true =>
          by_cases hd : record.state = "DELISTED"
          · cases record
            simp_all [Refresh.write, InstrumentRow.delist]
          · simp [hlast, h, hm, he, hd, Refresh.write, InstrumentRow.delist]

end CryptoTrader.MarketRegistry
