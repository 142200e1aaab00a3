import CryptoTrader.Evolution.Promotion

/-!
# Promotions and rollbacks in sequence

What a coordinator owes its callers over any sequence of calls: a rollback puts the
champion back, the snapshot describes the champion, a failed promotion changes nothing, and
the gate is open when nothing is under way and no rollback has failed. The rollback clears
the active release, the snapshot describes the new release, and any other promotion opens
the gate a failed rollback has closed. `promotion_runs` says which runs never come to that.
-/

namespace CryptoTrader

open KeyedTable SafePromotionCoordinator

inductive PromotionCall where
  | promote (args : PromoteArgs)
  | rollback (promotionId : String) (healthPass : Bool)
  deriving DecidableEq, Repr

/-- A coordinator with its latest successful promotion and the release that was active before it. -/
structure WatchedCoordinator where
  coordinator : SafePromotionCoordinator
  latest : Option (String × Option TradingRelease) := none
  deriving DecidableEq, Repr

namespace WatchedCoordinator

def step (w : WatchedCoordinator) : PromotionCall → WatchedCoordinator
  | .promote args =>
    { coordinator := (w.coordinator.promote args).2
      latest := if (w.coordinator.promote args).1.status = .active then
          some (args.promotionId, w.coordinator.activeRelease) else w.latest }
  | .rollback promotionId healthPass =>
    { w with coordinator := (w.coordinator.rollback promotionId healthPass).2 }

/-- A new coordinator with the release that is active when it starts. -/
def start (release : Option TradingRelease) : WatchedCoordinator :=
  { coordinator := { activeRelease := release } }

end WatchedCoordinator

def TradingRelease.SameVersions (r r' : TradingRelease) : Prop :=
  r.strategyVersion = r'.strategyVersion ∧ r.factorSetVersion = r'.factorSetVersion ∧
    r.promptVersion = r'.promptVersion ∧ r.modelRoutingVersion = r'.modelRoutingVersion

/-- The snapshot has the versions of the release. -/
def ChampionSnapshot.Carries (s : ChampionSnapshot) (r : TradingRelease) : Prop :=
  s.strategyVersion = r.strategyVersion ∧ s.factorSetVersion = r.factorSetVersion ∧
    s.promptVersion = r.promptVersion ∧ s.modelRoutingVersion = r.modelRoutingVersion

namespace SafePromotionCoordinator

/-- The rollback of this promotion has failed. -/
def Degraded (c : SafePromotionCoordinator) (promotionId : String) : Prop :=
  ∃ record, row Prod.fst promotionId c.records = some (promotionId, record) ∧ record.status = .safeDegraded

/-- The gate is open exactly when no promotion is in progress and no rollback failed. -/
def GateRight (c : SafePromotionCoordinator) : Prop :=
  c.gate.state = .open ↔ c.lock = "" ∧ ∀ promotionId, ¬c.Degraded promotionId

/-- The promotion is carried out: certified and in a safe window. -/
def CarriesOut (args : PromoteArgs) : Prop :=
  args.certified = true ∧ (evaluateSafeWindow args.snapshot).1 = true

end SafePromotionCoordinator

namespace WatchedCoordinator

/-- What the coordinator owes at this call. -/
def Sound (w : WatchedCoordinator) (call : PromotionCall) : Prop :=
  (w.step call).coordinator.GateRight ∧
  match call with
  | .promote args =>
    ((w.coordinator.promote args).1.status ∈ [.active, .rolledBack] →
      ∀ release, w.coordinator.activeRelease = some release →
        ∃ snapshot, row Prod.fst args.promotionId (w.step call).coordinator.snapshots
          = some (args.promotionId, snapshot) ∧ snapshot.Carries release) ∧
    (args.healthPass = false ∨ args.smokePass = false →
      (w.step call).coordinator.activeRelease = w.coordinator.activeRelease)
  | .rollback promotionId healthPass => healthPass = true →
      ∀ release, w.latest = some (promotionId, release) → (w.step call).coordinator.activeRelease = release

/-- A promotion that is carried out brings the versions of the active release again; a
rollback is of a promotion made while no release was active; and both happen while no other
promotion's rollback stands failed. -/
def Meets (w : WatchedCoordinator) : PromotionCall → Prop
  | .promote args => CarriesOut args →
      (∀ release, w.coordinator.activeRelease = some release → args.targetRelease.SameVersions release) ∧
      ∀ promotionId, w.coordinator.Degraded promotionId → promotionId = args.promotionId
  | .rollback promotionId healthPass => healthPass = true →
      (∀ release, w.latest = some (promotionId, release) → release = none) ∧
      (promotionId ∈ w.coordinator.snapshots.map Prod.fst →
        ∀ other, w.coordinator.Degraded other → other = promotionId)

/-- What every call keeps: between calls the lock is free, and a promotion has a snapshot
exactly when it has a record. -/
structure Inv (w : WatchedCoordinator) : Prop where
  lock : w.coordinator.lock = ""
  keys : ∀ promotionId, promotionId ∈ w.coordinator.snapshots.map Prod.fst ↔
    promotionId ∈ w.coordinator.records.map Prod.fst
  latest : ∀ promotionId release, w.latest = some (promotionId, release) →
    promotionId ∈ w.coordinator.snapshots.map Prod.fst

end WatchedCoordinator

lemma championSnapshot_carries (args : PromoteArgs) (release : TradingRelease) :
    (championSnapshot args).Carries release ↔ args.targetRelease.SameVersions release := Iff.rfl

namespace SafePromotionCoordinator

/-- `promote`, with the lock free: it is refused, fails its checks, or succeeds. -/
lemma promote_cases {c : SafePromotionCoordinator} (hl : c.lock = "") (args : PromoteArgs) :
    (¬CarriesOut args ∧ (c.promote args).1.status ∉ [PromotionOutcome.active, .rolledBack] ∧
      (c.promote args).2 = c) ∨
    (CarriesOut args ∧ (args.healthPass = false ∨ args.smokePass = false) ∧
      (c.promote args).1.status = .rolledBack ∧
      ∃ record, record.status = .rollingBack ∧ (c.promote args).2 =
        { c with snapshots := upsert Prod.fst (args.promotionId, championSnapshot args) c.snapshots
                 records := upsert Prod.fst (args.promotionId, record) c.records
                 gate := ⟨.open⟩ }) ∨
    (CarriesOut args ∧ ¬(args.healthPass = false ∨ args.smokePass = false) ∧
      (c.promote args).1.status = .active ∧
      ∃ record, record.status = .active ∧ (c.promote args).2 =
        { c with snapshots := upsert Prod.fst (args.promotionId, championSnapshot args) c.snapshots
                 records := upsert Prod.fst (args.promotionId, record) c.records
                 activeRelease := some (activated args)
                 gate := ⟨.open⟩ }) := by
  have hl' : ¬c.lock ≠ "" := not_not.mpr hl
  unfold promote CarriesOut
  rw [if_neg hl']
  by_cases hc : args.certified = false
  · rw [if_pos hc]
    exact .inl ⟨by simp [hc], by simp, rfl⟩
  rw [if_neg hc]
  by_cases hs : (evaluateSafeWindow args.snapshot).1 = false
  · rw [if_pos hs]
    exact .inl ⟨by simp [hs], by simp, rfl⟩
  rw [if_neg hs]
  have hcarried : args.certified = true ∧ (evaluateSafeWindow args.snapshot).1 = true :=
    ⟨by simpa using hc, by simpa using hs⟩
  by_cases hh : args.healthPass = false ∨ args.smokePass = false
  · rw [if_pos hh]
    exact .inr (.inl ⟨hcarried, hh, rfl, _, rfl, by rw [← hl]; rfl⟩)
  · rw [if_neg hh]
    exact .inr (.inr ⟨hcarried, hh, rfl, _, rfl, by rw [← hl]; rfl⟩)

lemma setStatus_ok {c : SafePromotionCoordinator} {promotionId : String}
    (h : promotionId ∈ c.records.map Prod.fst) (status : PromotionStatus) :
    ∃ record, record.status = status ∧ c.setStatus promotionId status =
      .ok { c with records := upsert Prod.fst (promotionId, record) c.records } := by
  obtain ⟨⟨_, record⟩, hrow⟩ := row_isSome_iff.mpr h
  exact ⟨{ record with status := status }, rfl, by simp only [setStatus, hrow]⟩

/-- `rollback`, with the lock free and a record for each snapshot. -/
lemma rollback_cases {c : SafePromotionCoordinator} (hl : c.lock = "") {promotionId : String}
    (hk : promotionId ∈ c.snapshots.map Prod.fst → promotionId ∈ c.records.map Prod.fst) (healthPass : Bool) :
    (promotionId ∉ c.snapshots.map Prod.fst ∧ (c.rollback promotionId healthPass).2 = c) ∨
    (promotionId ∈ c.snapshots.map Prod.fst ∧ healthPass = false ∧
      ∃ record, record.status = .safeDegraded ∧ (c.rollback promotionId healthPass).2 =
        { c with records := upsert Prod.fst (promotionId, record) c.records, gate := ⟨.blockedForUpgrade⟩ }) ∨
    (promotionId ∈ c.snapshots.map Prod.fst ∧ healthPass = true ∧
      ∃ record, record.status = .rolledBack ∧ (c.rollback promotionId healthPass).2 =
        { c with records := upsert Prod.fst (promotionId, record) c.records, activeRelease := none
                 gate := ⟨.open⟩ }) := by
  have hl' : ¬(c.lock ≠ "" ∧ c.lock ≠ promotionId) := fun h => h.1 hl
  by_cases hs : promotionId ∈ c.snapshots.map Prod.fst
  · obtain ⟨s, hrow⟩ := row_isSome_iff.mpr hs
    cases healthPass with
    | false =>
      obtain ⟨record, hstatus, hset⟩ := setStatus_ok (c := { c with gate := c.gate.block }) (hk hs) .safeDegraded
      refine .inr (.inl ⟨hs, rfl, record, hstatus, ?_⟩)
      simp only [rollback, hrow, if_neg hl', hset]
      rfl
    | true =>
      obtain ⟨record, hstatus, hset⟩ :=
        setStatus_ok (c := { c with activeRelease := none, gate := c.gate.open }) (hk hs) .rolledBack
      refine .inr (.inr ⟨hs, rfl, record, hstatus, ?_⟩)
      simp only [rollback, hrow, if_neg hl', Bool.true_eq_false, if_false, hset]
      rw [← hl]
      rfl
  · refine .inl ⟨hs, ?_⟩
    simp only [rollback, row_eq_none_iff.mpr hs]

/-- Writing one record decides for its promotion and for no other whether it is degraded. -/
lemma degraded_upsert {c c' : SafePromotionCoordinator} {promotionId : String} {record : PromotionRecord}
    (h : c'.records = upsert Prod.fst (promotionId, record) c.records) (other : String) :
    c'.Degraded other ↔ if other = promotionId then record.status = .safeDegraded else c.Degraded other := by
  unfold Degraded
  rw [h]
  by_cases ho : other = promotionId
  · have hrow := row_upsert_self Prod.fst (promotionId, record) c.records
    simp only at hrow
    rw [if_pos ho, ho, hrow]
    simp
  · rw [if_neg ho, row_upsert_of_ne c.records ho]

/-- A call that opens the gate leaves it right exactly when no other rollback stands failed. -/
lemma gateRight_opened {c c' : SafePromotionCoordinator} {promotionId : String} {record : PromotionRecord}
    (h : c'.records = upsert Prod.fst (promotionId, record) c.records) (hr : record.status ≠ .safeDegraded)
    (hl : c'.lock = "") (hg : c'.gate.state = .open) :
    c'.GateRight ↔ ∀ other, c.Degraded other → other = promotionId := by
  unfold GateRight
  simp only [hl, hg, true_and, true_iff, degraded_upsert h]
  refine forall_congr' (fun other => ?_)
  by_cases ho : other = promotionId
  · simp [ho, hr]
  · simp [ho]

lemma gateRight_blocked {c c' : SafePromotionCoordinator} {promotionId : String} {record : PromotionRecord}
    (h : c'.records = upsert Prod.fst (promotionId, record) c.records) (hr : record.status = .safeDegraded)
    (hg : c'.gate.state = .blockedForUpgrade) : c'.GateRight := by
  refine iff_of_false (by simp [hg]) ?_
  rintro ⟨-, hd⟩
  exact hd promotionId ((degraded_upsert h promotionId).mpr (by rw [if_pos rfl]; exact hr))

end SafePromotionCoordinator

namespace WatchedCoordinator

lemma Inv.step {w : WatchedCoordinator} (h : Inv w) (call : PromotionCall) : Inv (w.step call) := by
  cases call with
  | promote args =>
    rcases promote_cases h.lock args with ⟨-, hs, hw⟩ | ⟨-, -, hs, record, -, hw⟩ | ⟨-, -, hs, record, -, hw⟩
    · have hna : (w.coordinator.promote args).1.status ≠ .active := fun ha => hs (by simp [ha])
      simp only [WatchedCoordinator.step, hw, if_neg hna]
      exact ⟨h.lock, h.keys, h.latest⟩
    · simp only [WatchedCoordinator.step, hw, hs, reduceCtorEq, if_false]
      refine ⟨h.lock, fun k => ?_, fun k release hk => ?_⟩
      · simp only [mem_map_key_upsert, h.keys k]
      · exact mem_map_key_upsert.mpr (.inr (h.latest k release hk))
    · simp only [WatchedCoordinator.step, hw, hs, if_true]
      refine ⟨h.lock, fun k => ?_, fun k release hk => ?_⟩
      · simp only [mem_map_key_upsert, h.keys k]
      · obtain ⟨rfl, -⟩ : args.promotionId = k ∧ w.coordinator.activeRelease = release := by simpa using hk
        exact mem_map_key_upsert.mpr (.inl rfl)
  | rollback promotionId healthPass =>
    rcases rollback_cases h.lock (h.keys promotionId).mp healthPass with
      ⟨-, hw⟩ | ⟨hk, -, record, -, hw⟩ | ⟨hk, -, record, -, hw⟩
    · simp only [WatchedCoordinator.step, hw]
      exact ⟨h.lock, h.keys, h.latest⟩
    all_goals
      simp only [WatchedCoordinator.step, hw]
      refine ⟨h.lock, fun k => ?_, h.latest⟩
      rw [mem_map_key_upsert, h.keys k]
      exact ⟨.inr, fun hk' => hk'.elim (fun he => he ▸ (h.keys promotionId).mp hk) id⟩

lemma sound_iff {w : WatchedCoordinator} (h : Inv w) (hg : w.coordinator.GateRight) (call : PromotionCall) :
    w.Sound call ↔ w.Meets call := by
  cases call with
  | promote args =>
    simp only [Sound, Meets, WatchedCoordinator.step]
    have hrow := row_upsert_self Prod.fst (args.promotionId, championSnapshot args) w.coordinator.snapshots
    rcases promote_cases h.lock args with ⟨hn, hs, hw⟩ | ⟨hc, hh, hs, record, hr, hw⟩ | ⟨hc, hh, hs, record, hr, hw⟩
    · simp [hn, hs, hw, hg]
    · rw [gateRight_opened (congrArg records hw) (by simp [hr]) (by rw [hw]; exact h.lock) (by rw [hw]), hw]
      simp only [hs, hrow, hc, hh, List.mem_cons, or_true, forall_const, and_true, reduceCtorEq, List.not_mem_nil,
        or_false, true_and, Option.some.injEq, Prod.mk.injEq, exists_eq_left', championSnapshot_carries]
      exact and_comm
    · rw [gateRight_opened (congrArg records hw) (by simp [hr]) (by rw [hw]; exact h.lock) (by rw [hw]), hw]
      simp only [hs, hrow, hc, hh, List.mem_cons, true_or, forall_const, and_true, false_implies,
        true_and, Option.some.injEq, Prod.mk.injEq, exists_eq_left', championSnapshot_carries]
      exact and_comm
  | rollback promotionId healthPass =>
    simp only [Sound, Meets, WatchedCoordinator.step]
    rcases rollback_cases h.lock (h.keys promotionId).mp healthPass with
      ⟨hk, hw⟩ | ⟨hk, rfl, record, hr, hw⟩ | ⟨hk, rfl, record, hr, hw⟩
    · have hlatest : ∀ release, w.latest ≠ some (promotionId, release) :=
        fun release he => hk (h.latest promotionId release he)
      simp [hw, hg, hlatest, hk]
    · have hgate := gateRight_blocked (congrArg records hw) hr (by rw [hw])
      simp [hgate]
    · rw [gateRight_opened (congrArg records hw) (by simp [hr]) (by rw [hw]; exact h.lock) (by rw [hw]), hw]
      simp only [forall_const, hk, eq_comm (a := none)]
      exact and_comm

lemma inv_start (release : Option TradingRelease) : Inv (start release) :=
  ⟨rfl, fun _ => Iff.rfl, fun _ _ h => by simp [start] at h⟩

lemma gateRight_start (release : Option TradingRelease) : (start release).coordinator.GateRight := by
  simp [GateRight, Degraded, start, row]

end WatchedCoordinator

open WatchedCoordinator

/-- A run keeps what the coordinator owes exactly when, at each of its calls, no release is
replaced by one of other versions, no promotion over an active release is rolled back, and
no promotion opens the gate that another one's failed rollback has closed. -/
theorem promotion_runs (release : Option TradingRelease) (calls : List PromotionCall) :
    Runs.Along step Sound (start release) calls ↔ Runs.Along step Meets (start release) calls :=
  Runs.along_iff_along (I := fun w => Inv w ∧ w.coordinator.GateRight)
    (fun _ call h => sound_iff h.1 h.2 call) (fun _ call h hs => ⟨h.1.step call, hs.1⟩)
    ⟨inv_start release, gateRight_start release⟩

/-! ### The second of two promotions, rolled back -/

def healthySnapshot (championVersion : String) : UpgradeReadinessSnapshot :=
  ⟨championVersion, 0, 0, 0, 0, "NORMAL", "NORMAL", "NORMAL", "HEALTHY", "HEALTHY", "HEALTHY", "HEALTHY",
    "HEALTHY", "HEALTHY", "OFF", "HEALTHY", 0⟩

def releaseNo (n : String) : TradingRelease :=
  ⟨"r" ++ n, "s" ++ n, "f" ++ n, "p" ++ n, "m" ++ n, "commit" ++ n, "cfg" ++ n, "", "c" ++ n, "promo" ++ n, "ACTIVE"⟩

def promoteNo (n champion : String) : PromotionCall :=
  .promote ⟨"promo" ++ n, "c" ++ n, true, healthySnapshot champion, releaseNo n, true, true⟩

/-- Rolling back the promotion of `r2` over `r1` leaves no active release at all. -/
theorem rollback_loses_champion :
    ¬∀ release calls, Runs.Along step Sound (start release) calls := by
  intro h
  have hrun := h none [promoteNo "1" "r0", promoteNo "2" "r1", .rollback "promo2" true]
  have hrolled := hrun.2.2.1.2 rfl (some { releaseNo "1" with parentReleaseId := "r0" }) (by decide)
  revert hrolled
  decide

end CryptoTrader
