import CryptoTrader.Domain.Models
import CryptoTrader.Lib.KeyedTable
import CryptoTrader.Lib.Runs

/-!
# Promoting a release and rolling it back

`evolution/promotion`: the contracts, the entry gate, and `SafePromotionCoordinator` with
its two calls. `promote` records a champion snapshot, activates the target release and
opens the gate; `rollback` takes the active release away.
-/

namespace CryptoTrader

structure UpgradeReadinessSnapshot where
  championVersion : String
  openPositions : ℤ
  openOrders : ℤ
  inFlightOrders : ℤ
  pendingExecution : ℤ
  marketVolatilityState : String
  spreadState : String
  liquidityState : String
  marketDataHealth : String
  exchangeHealth : String
  reconciliationHealth : String
  ledgerHealth : String
  portfolioHealth : String
  riskHealth : String
  killSwitchState : String
  runtimeLeaseHealth : String
  criticalIncidents : ℤ
  deriving DecidableEq, Repr

structure TradingRelease where
  releaseId : String
  strategyVersion : String
  factorSetVersion : String
  promptVersion : String
  modelRoutingVersion : String
  codeCommit : String
  configHash : String
  parentReleaseId : String
  candidateId : String
  promotionId : String
  status : String := "ACTIVE"
  deriving DecidableEq, Repr

structure ChampionSnapshot where
  snapshotId : String
  championVersion : String
  commitHash : String
  configHash : String
  factorSetVersion : String
  strategyVersion : String
  promptVersion : String
  modelRoutingVersion : String
  deriving DecidableEq, Repr

inductive PromotionStatus where
  | pending | activating | active | rollingBack | rolledBack | safeDegraded
  deriving DecidableEq, Repr

structure PromotionRecord where
  promotionId : String
  candidateId : String
  previousChampion : String
  targetReleaseId : String
  status : PromotionStatus := .pending
  failureReason : String := ""
  deriving DecidableEq, Repr

inductive GateState where
  | «open» | blockedForUpgrade
  deriving DecidableEq, Repr

structure NewEntryGate where
  state : GateState := .open
  deriving DecidableEq, Repr

namespace NewEntryGate

def block (_ : NewEntryGate) : NewEntryGate := ⟨.blockedForUpgrade⟩

def «open» (_ : NewEntryGate) : NewEntryGate := ⟨.open⟩

end NewEntryGate

inductive PromotionOutcome where
  | rejected | waitSafeWindow | rolledBack | active | safeDegraded
  deriving DecidableEq, Repr

structure PromotionResult where
  promotionId : String
  status : PromotionOutcome
  reason : String
  deriving DecidableEq, Repr

/-- `snapshots` and `records` are dictionaries keyed by the promotion's id. -/
structure SafePromotionCoordinator where
  gate : NewEntryGate := {}
  activeRelease : Option TradingRelease := none
  snapshots : List (String × ChampionSnapshot) := []
  records : List (String × PromotionRecord) := []
  lock : String := ""
  deriving DecidableEq, Repr

structure PromoteArgs where
  promotionId : String
  candidateId : String
  certified : Bool
  snapshot : UpgradeReadinessSnapshot
  targetRelease : TradingRelease
  healthPass : Bool
  smokePass : Bool
  deriving DecidableEq, Repr

namespace SafePromotionCoordinator

open KeyedTable

def unhealthyReasons (snapshot : UpgradeReadinessSnapshot) : List String :=
  [("MARKET_DATA", snapshot.marketDataHealth), ("EXCHANGE", snapshot.exchangeHealth),
   ("RECONCILIATION", snapshot.reconciliationHealth), ("LEDGER", snapshot.ledgerHealth),
   ("PORTFOLIO", snapshot.portfolioHealth), ("RISK", snapshot.riskHealth),
   ("LEASE", snapshot.runtimeLeaseHealth)].filterMap
    (fun (name, state) => if state ≠ "HEALTHY" then some (name ++ "_UNHEALTHY") else none)

def evaluateSafeWindow (snapshot : UpgradeReadinessSnapshot) : Bool × List String :=
  let reasons :=
    (if snapshot.openPositions ≠ 0 then ["OPEN_POSITIONS"] else []) ++
    (if snapshot.openOrders ≠ 0 then ["OPEN_ORDERS"] else []) ++
    (if snapshot.inFlightOrders ≠ 0 then ["IN_FLIGHT"] else []) ++
    (if snapshot.pendingExecution ≠ 0 then ["PENDING_EXECUTION"] else []) ++
    (if snapshot.marketVolatilityState = "EXTREME" then ["EXTREME_VOLATILITY"] else []) ++
    (if snapshot.spreadState = "ABNORMAL" then ["ABNORMAL_SPREAD"] else []) ++
    (if snapshot.liquidityState = "CRITICAL" then ["CRITICAL_LIQUIDITY"] else []) ++
    unhealthyReasons snapshot ++
    (if snapshot.killSwitchState ≠ "OFF" then ["KILL_SWITCH"] else []) ++
    (if snapshot.criticalIncidents ≠ 0 then ["CRITICAL_INCIDENTS"] else [])
  (reasons.isEmpty, reasons)

/-- The snapshot `promote` takes of the champion. -/
def championSnapshot (args : PromoteArgs) : ChampionSnapshot where
  snapshotId := "champ_" ++ args.promotionId
  championVersion := args.snapshot.championVersion
  -- all the other fields are read from the release that is about to replace the champion
  commitHash := args.targetRelease.parentReleaseId
  configHash := args.targetRelease.configHash
  factorSetVersion := args.targetRelease.factorSetVersion
  strategyVersion := args.targetRelease.strategyVersion
  promptVersion := args.targetRelease.promptVersion
  modelRoutingVersion := args.targetRelease.modelRoutingVersion

def promotionRecord (args : PromoteArgs) : PromotionRecord where
  promotionId := args.promotionId
  candidateId := args.candidateId
  previousChampion := args.snapshot.championVersion
  targetReleaseId := args.targetRelease.releaseId
  status := .activating

/-- The target release as `promote` leaves it when it makes it the active one. -/
def activated (args : PromoteArgs) : TradingRelease :=
  { args.targetRelease with status := "ACTIVE", parentReleaseId := args.snapshot.championVersion }

def promote (c : SafePromotionCoordinator) (args : PromoteArgs) : PromotionResult × SafePromotionCoordinator :=
  if c.lock ≠ "" then (⟨args.promotionId, .rejected, "PROMOTION_LOCK_HELD"⟩, c)
  else if args.certified = false then (⟨args.promotionId, .rejected, "NOT_CERTIFIED"⟩, c)
  else if (evaluateSafeWindow args.snapshot).1 = false then
    (⟨args.promotionId, .waitSafeWindow, String.intercalate "," (evaluateSafeWindow args.snapshot).2⟩, c)
  else
    -- the lock is held and the gate blocked from here to the return, with nothing awaited between
    let snapshots := upsert Prod.fst (args.promotionId, championSnapshot args) c.snapshots
    let record := promotionRecord args
    if args.healthPass = false ∨ args.smokePass = false then
      let record := { record with status := .rollingBack, failureReason := "HEALTH_SMOKE_FAIL" }
      (⟨args.promotionId, .rolledBack, "HEALTH_SMOKE_FAIL"⟩,
        { c with snapshots := snapshots, records := upsert Prod.fst (args.promotionId, record) c.records,
                 gate := c.gate.block.open, lock := "" })
    else
      let record := { record with status := .active }
      (⟨args.promotionId, .active, "OK"⟩,
        { c with snapshots := snapshots, records := upsert Prod.fst (args.promotionId, record) c.records,
                 activeRelease := some (activated args), gate := c.gate.block.open, lock := "" })

/-- `self.records[promotion_id].status = status`. -/
def setStatus (c : SafePromotionCoordinator) (promotionId : String) (status : PromotionStatus) :
    Except TradingError SafePromotionCoordinator :=
  match row Prod.fst promotionId c.records with
  | none => .error (.keyError promotionId)
  | some (_, record) =>
    .ok { c with records := upsert Prod.fst (promotionId, { record with status := status }) c.records }

def rollback (c : SafePromotionCoordinator) (promotionId : String) (healthPass : Bool) :
    Except TradingError PromotionResult × SafePromotionCoordinator :=
  match row Prod.fst promotionId c.snapshots with
  | none => (.ok ⟨promotionId, .rejected, "NO_SNAPSHOT"⟩, c)
  | some _ =>
    if c.lock ≠ "" ∧ c.lock ≠ promotionId then (.ok ⟨promotionId, .rejected, "PROMOTION_LOCK_HELD"⟩, c)
    else if healthPass = false then
      let c := { c with gate := c.gate.block }
      match c.setStatus promotionId .safeDegraded with
      | .error e => (.error e, c)
      | .ok c => (.ok ⟨promotionId, .safeDegraded, "ROLLBACK_HEALTH_FAIL"⟩, c)
    else
      let c := { c with activeRelease := none, gate := c.gate.open }
      match c.setStatus promotionId .rolledBack with
      | .error e => (.error e, c)
      | .ok c => (.ok ⟨promotionId, .rolledBack, "OK"⟩, { c with lock := "" })

end SafePromotionCoordinator

end CryptoTrader
