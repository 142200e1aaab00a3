import CryptoTrader.Lib.Since
import CryptoTrader.Llm.Gateway
import Mathlib.Logic.Function.Basic

/-!
# The configuration of the gateway

`LLMGateway` keeps the providers and the routes of the database in two dictionaries. A call that writes
them to the database (`save_provider`, `delete_provider`, `save_routes`) then reloads both, which takes a
lock, and waits for the database before each assignment. Calls interleave where they wait. Once a call
has returned, the dictionaries are for ever at least as new as what it has written (`configuration_fresh`),
and when no call is under way they are what is stored (`configuration_settled`).
-/

namespace CryptoTrader

open KeyedTable Runs

/-- `llm_providers` and `llm_routes`. -/
structure LLMTables where
  providers : List ProviderConfig := []
  routes : List ModelRoute := []
  deriving DecidableEq, Repr

/-- `{key(row): row for row in rows}`. -/
def dictBy {α : Type} (key : α → String) (rows : List α) : Dict String α :=
  rows.foldl (fun d r => d.alter (key r) (fun _ => r)) []

/-- `ProviderUpsert`, with the fields that the configuration of the model has. -/
structure ProviderUpsert where
  providerId : String
  apiKey : Option String := none
  enabled : Bool := true
  maxRetries : ℕ := 2
  deriving DecidableEq, Repr

/-- What a call writes in one transaction. -/
inductive ConfigWrite where
  | upsertProvider (config : ProviderConfig)
  | deleteProvider (providerId : String)
  | replaceRoutes (routes : List ModelRoute)
  deriving DecidableEq, Repr

namespace LLMTables

variable (db : LLMTables)

def getProvider (providerId : String) : Option ProviderConfig :=
  row ProviderConfig.providerId providerId db.providers

def upsertProvider (config : ProviderConfig) : LLMTables :=
  { db with providers := upsert ProviderConfig.providerId config db.providers }

/-- The routes of the provider go with it. -/
def deleteProvider (providerId : String) : LLMTables where
  providers := db.providers.filter (fun p => p.providerId ≠ providerId)
  routes := db.routes.filter (fun r => r.providerId ≠ providerId)

/-- Routes that are not named stay. -/
def replaceRoutes (routes : List ModelRoute) : LLMTables :=
  { db with routes := routes.foldl (fun rows r => upsert ModelRoute.routeName r rows) db.routes }

def write : ConfigWrite → LLMTables
  | .upsertProvider config => db.upsertProvider config
  | .deleteProvider providerId => db.deleteProvider providerId
  | .replaceRoutes routes => db.replaceRoutes routes

/-- What `reload` makes of the rows. -/
def providerDict : Dict String ProviderConfig :=
  dictBy ProviderConfig.providerId db.providers

def routeDict : Dict String ModelRoute :=
  dictBy ModelRoute.routeName db.routes

end LLMTables

inductive ConfigCall where
  | reload
  | saveProvider (payload : ProviderUpsert)
  | deleteProvider (providerId : String)
  | saveRoutes (routes : List ModelRoute)
  deriving DecidableEq, Repr

/-- Where a call waits. -/
inductive ConfigPhase where
  | idle
  /-- For the answer of `get_provider`. -/
  | asking (call : ConfigCall)
  | answered (call : ConfigCall) (existing : Option ProviderConfig)
  | writing (write : ConfigWrite)
  /-- For the lock of `reload`. -/
  | waiting
  | locked
  | providersRead (rows : List ProviderConfig)
  | providersSet
  | routesRead (rows : List ModelRoute)
  | returned
  /-- It has raised before its transaction was committed. -/
  | refused
  /-- It has raised in `reload`. -/
  | raised
  /-- `test_provider` waits for `invoke`. -/
  | probing (previous : Option ModelRoute)
  | probed
  deriving DecidableEq, Repr

structure ConfigRun where
  gateway : LLMGateway
  db : LLMTables
  lock : Option ℕ := none
  phase : ℕ → ConfigPhase := fun _ => .idle

/-- A step of one of the calls. `resume` goes on to the next point where the call waits. -/
inductive ConfigStep where
  | call (task : ℕ) (call : ConfigCall)
  | testProvider (task : ℕ) (providerId defaultModel : String)
  | resume (task : ℕ)
  | raise (task : ℕ)
  deriving DecidableEq, Repr

def ConfigStep.task : ConfigStep → ℕ
  | .call task _ | .testProvider task _ _ | .resume task | .raise task => task

namespace ConfigRun

variable (s : ConfigRun)

def goto (task : ℕ) (phase : ConfigPhase) : ConfigRun :=
  { s with phase := Function.update s.phase task phase }

def setSecrets (secrets : Dict String String) : ConfigRun :=
  { s with gateway := { s.gateway with secrets } }

def setProviders (providers : Dict String ProviderConfig) : ConfigRun :=
  { s with gateway := { s.gateway with providers } }

def setRoutes (routes : Dict String ModelRoute) : ConfigRun :=
  { s with gateway := { s.gateway with routes } }

/-- A call up to where it waits first. -/
def start (task : ℕ) (call : ConfigCall) : ConfigRun :=
  match call with
  | .reload => s.goto task .waiting
  | .saveRoutes routes =>
    if routes.all (fun r => (s.gateway.providers.get r.providerId).isSome) then
      s.goto task (.writing (.replaceRoutes routes))
    else s.goto task .refused
  | call => s.goto task (.asking call)

def secretRef (providerId : String) (existing : Option ProviderConfig) : String :=
  match existing with
  | some config => config.apiKeySecretRef
  | none => "llm:" ++ providerId ++ ":api-key"

/-- `save_provider` with the row that it has found. -/
def keepSecret (task : ℕ) (payload : ProviderUpsert) (existing : Option ProviderConfig) : ConfigRun :=
  let ref := secretRef payload.providerId existing
  let key := payload.apiKey.getD ""
  let config : ProviderConfig :=
    { providerId := payload.providerId
      apiKeySecretRef := ref
      enabled := payload.enabled
      maxRetries := payload.maxRetries }
  if key ≠ "" then (s.setSecrets (s.gateway.secrets.alter ref (fun _ => key))).goto task (.writing (.upsertProvider config))
  else if existing = none then s.goto task .refused
  else s.goto task (.writing (.upsertProvider config))

/-- `delete_provider` with the row that it has found. -/
def dropSecret (task : ℕ) (providerId : String) (existing : Option ProviderConfig) : ConfigRun :=
  match existing with
  | some config =>
    (s.setSecrets (s.gateway.secrets.filter (fun e => e.1 ≠ config.apiKeySecretRef))).goto task
      (.writing (.deleteProvider providerId))
  | none => s.goto task (.writing (.deleteProvider providerId))

/-- The name of the route that `test_provider` sets for the time of its invocation. -/
def testRoute : String := "provider_test"

def restoreRoute (task : ℕ) (previous : Option ModelRoute) : ConfigRun :=
  (match previous with
    | none => s.setRoutes (s.gateway.routes.filter (fun e => e.1 ≠ testRoute))
    | some route => s.setRoutes (s.gateway.routes.alter testRoute (fun _ => route))).goto task .probed

/-- `test_provider` up to its invocation. -/
def probe (task : ℕ) (providerId defaultModel : String) : ConfigRun :=
  if (s.gateway.providers.get providerId).isSome then
    (s.setRoutes (s.gateway.routes.alter testRoute
      (fun _ => { routeName := testRoute, providerId, modelName := defaultModel }))).goto task
      (.probing (s.gateway.routes.get testRoute))
  else s.goto task .probed

def resume (task : ℕ) : ConfigRun :=
  match s.phase task with
  | .asking (.saveProvider payload) =>
    s.goto task (.answered (.saveProvider payload) (s.db.getProvider payload.providerId))
  | .asking (.deleteProvider providerId) =>
    s.goto task (.answered (.deleteProvider providerId) (s.db.getProvider providerId))
  | .answered (.saveProvider payload) existing => s.keepSecret task payload existing
  | .answered (.deleteProvider providerId) existing => s.dropSecret task providerId existing
  | .writing w => { s.goto task .waiting with db := s.db.write w }
  | .waiting => if s.lock = none then { s.goto task .locked with lock := some task } else s
  | .locked => s.goto task (.providersRead s.db.providers)
  | .providersRead rows => (s.setProviders (dictBy ProviderConfig.providerId rows)).goto task .providersSet
  | .providersSet => s.goto task (.routesRead s.db.routes)
  | .routesRead rows =>
    { (s.setRoutes (dictBy ModelRoute.routeName rows)).goto task .returned with lock := none }
  | .probing previous => s.restoreRoute task previous
  | _ => s

/-- What the call waits for raises. -/
def raise (task : ℕ) : ConfigRun :=
  match s.phase task with
  | .asking _ | .answered _ _ | .writing _ => s.goto task .refused
  | .waiting => s.goto task .raised
  | .locked | .providersRead _ | .providersSet | .routesRead _ => { s.goto task .raised with lock := none }
  | .probing previous => s.restoreRoute task previous
  | _ => s

def step : ConfigStep → ConfigRun
  | .call task call => if s.phase task = .idle then s.start task call else s
  | .testProvider task providerId defaultModel =>
    if s.phase task = .idle then s.probe task providerId defaultModel else s
  | .resume task => s.resume task
  | .raise task => s.raise task

end ConfigRun

/-! ### What a step can do -/

namespace ConfigPhase

/-- The call has not committed anything and is not in `reload`. -/
def Outside : ConfigPhase → Prop
  | .waiting | .locked | .providersRead _ | .providersSet | .routesRead _ | .returned | .raised => False
  | _ => True

/-- The call has the lock. -/
def Locked : ConfigPhase → Prop
  | .locked | .providersRead _ | .providersSet | .routesRead _ => True
  | _ => False

/-- The call has set the providers. -/
def PastProviders : ConfigPhase → Prop
  | .providersSet | .routesRead _ | .returned => True
  | _ => False

end ConfigPhase

namespace ConfigRun

/-- What a step of a call does to the dictionaries, the tables and the lock. -/
inductive Moves (task : ℕ) (s : ConfigRun) : ConfigRun → Prop
  | skip : Moves task s s
  | outside (gateway : LLMGateway) (p : ConfigPhase) (hproviders : gateway.providers = s.gateway.providers)
      (hroutes : ∀ name, name ≠ testRoute → gateway.routes.get name = s.gateway.routes.get name)
      (hp : (s.phase task).Outside) (hp' : p.Outside) : Moves task s { s.goto task p with gateway }
  | enter (db : LLMTables) (hp : (s.phase task).Outside) : Moves task s { s.goto task .waiting with db }
  | acquire (hp : s.phase task = .waiting) (hlock : s.lock = none) :
      Moves task s { s.goto task .locked with lock := some task }
  | readProviders (hp : s.phase task = .locked) : Moves task s (s.goto task (.providersRead s.db.providers))
  | setProviders (rows : List ProviderConfig) (hp : s.phase task = .providersRead rows) :
      Moves task s ((s.setProviders (dictBy ProviderConfig.providerId rows)).goto task .providersSet)
  | readRoutes (hp : s.phase task = .providersSet) : Moves task s (s.goto task (.routesRead s.db.routes))
  | setRoutes (rows : List ModelRoute) (hp : s.phase task = .routesRead rows) :
      Moves task s { (s.setRoutes (dictBy ModelRoute.routeName rows)).goto task .returned with lock := none }
  | raise (hp : s.phase task = .waiting) : Moves task s (s.goto task .raised)
  | raiseLocked (hp : (s.phase task).Locked) : Moves task s { s.goto task .raised with lock := none }

variable {s s' : ConfigRun} {task : ℕ}

lemma moves_goto {p : ConfigPhase} (hp : (s.phase task).Outside) (hp' : p.Outside) : Moves task s (s.goto task p) :=
  .outside s.gateway p rfl (fun _ _ => rfl) hp hp'

lemma moves_restoreRoute {previous : Option ModelRoute} (hp : (s.phase task).Outside) :
    Moves task s (s.restoreRoute task previous) := by
  cases previous with
  | none =>
    refine .outside { s.gateway with routes := s.gateway.routes.filter (fun e => e.1 ≠ testRoute) } .probed rfl ?_ hp trivial
    intro name hname
    rw [Dict.get, row_filter_of_ne _ hname, Dict.get]
  | some route =>
    refine .outside { s.gateway with routes := s.gateway.routes.alter testRoute (fun _ => route) } .probed rfl ?_ hp trivial
    exact fun name hname => Dict.get_alter_of_ne hname (fun _ => route) s.gateway.routes

lemma moves_probe (hp : s.phase task = .idle) (providerId defaultModel : String) :
    Moves task s (s.probe task providerId defaultModel) := by
  have hout : (s.phase task).Outside := by rw [hp]; trivial
  unfold probe
  split
  · refine .outside { s.gateway with routes := _ } _ rfl (fun name hname => ?_) hout trivial
    exact Dict.get_alter_of_ne hname (fun _ => { routeName := testRoute, providerId, modelName := defaultModel }) s.gateway.routes
  · exact moves_goto hout trivial

lemma moves_start (hp : s.phase task = .idle) (call : ConfigCall) : Moves task s (s.start task call) := by
  have hout : (s.phase task).Outside := by rw [hp]; trivial
  cases call with
  | reload => exact .enter s.db hout
  | saveRoutes routes =>
    unfold start
    dsimp only
    split <;> exact moves_goto hout trivial
  | saveProvider payload => exact moves_goto hout trivial
  | deleteProvider providerId => exact moves_goto hout trivial

lemma moves_secrets {secrets : Dict String String} {p : ConfigPhase} (hp : (s.phase task).Outside) (hp' : p.Outside) :
    Moves task s ((s.setSecrets secrets).goto task p) :=
  .outside { s.gateway with secrets } p rfl (fun _ _ => rfl) hp hp'

lemma moves_resume (task : ℕ) (s : ConfigRun) : Moves task s (s.resume task) := by
  unfold resume
  split
  case h_1 hp => exact moves_goto (by rw [hp]; trivial) trivial
  case h_2 hp => exact moves_goto (by rw [hp]; trivial) trivial
  case h_3 hp =>
    have hout : (s.phase task).Outside := by rw [hp]; trivial
    unfold keepSecret
    dsimp only
    split
    · exact moves_secrets hout trivial
    · split <;> exact moves_goto hout trivial
  case h_4 existing hp =>
    have hout : (s.phase task).Outside := by rw [hp]; trivial
    cases existing with
    | none => exact moves_goto hout trivial
    | some config => exact moves_secrets hout trivial
  case h_5 w hp => exact .enter (s.db.write w) (by rw [hp]; trivial)
  case h_6 hp =>
    split
    · rename_i hlock
      exact .acquire hp hlock
    · exact .skip
  case h_7 hp => exact .readProviders hp
  case h_8 rows hp => exact .setProviders rows hp
  case h_9 hp => exact .readRoutes hp
  case h_10 rows hp => exact .setRoutes rows hp
  case h_11 hp => exact moves_restoreRoute (by rw [hp]; trivial)
  case h_12 => exact .skip

lemma moves_raise (task : ℕ) (s : ConfigRun) : Moves task s (s.raise task) := by
  unfold ConfigRun.raise
  split
  case h_1 hp => exact moves_goto (by rw [hp]; trivial) trivial
  case h_2 hp => exact moves_goto (by rw [hp]; trivial) trivial
  case h_3 hp => exact moves_goto (by rw [hp]; trivial) trivial
  case h_4 hp => exact .raise hp
  case h_5 hp => exact .raiseLocked (by rw [hp]; trivial)
  case h_6 hp => exact .raiseLocked (by rw [hp]; trivial)
  case h_7 hp => exact .raiseLocked (by rw [hp]; trivial)
  case h_8 hp => exact .raiseLocked (by rw [hp]; trivial)
  case h_9 hp => exact moves_restoreRoute (by rw [hp]; trivial)
  case h_10 => exact .skip

lemma moves_step (s : ConfigRun) (i : ConfigStep) : Moves i.task s (s.step i) := by
  cases i with
  | call task call =>
    unfold step
    dsimp only
    split
    · rename_i hp
      exact moves_start hp call
    · exact .skip
  | testProvider task providerId defaultModel =>
    unfold step
    dsimp only
    split
    · rename_i hp
      exact moves_probe hp providerId defaultModel
    · exact .skip
  | resume task => exact moves_resume task s
  | raise task => exact moves_raise task s

/-! ### Calls that hold the lock -/

/-- Only the call that has the lock is between its read and its assignment. -/
def Exclusive (s : ConfigRun) : Prop :=
  ∀ u, (s.phase u).Locked → s.lock = some u

lemma phase_goto_self (s : ConfigRun) (task : ℕ) (p : ConfigPhase) : (s.goto task p).phase task = p :=
  Function.update_self _ _ _

lemma phase_goto_of_ne {u : ℕ} (h : u ≠ task) (s : ConfigRun) (p : ConfigPhase) : (s.goto task p).phase u = s.phase u :=
  Function.update_of_ne h _ _

lemma not_locked_of_outside {p : ConfigPhase} (h : p.Outside) : ¬ p.Locked := by
  cases p <;> simp_all [ConfigPhase.Outside, ConfigPhase.Locked]

/-- A move changes the phase of its call alone. -/
lemma Moves.phase_of_ne (h : Moves task s s') {u : ℕ} (hu : u ≠ task) : s'.phase u = s.phase u := by
  cases h with
  | skip => rfl
  | _ => exact phase_goto_of_ne hu _ _

lemma Exclusive.moves (hs : Exclusive s) (h : Moves task s s') : Exclusive s' := by
  intro u hu
  by_cases hut : u = task
  · subst hut
    cases h with
    | skip => exact hs u hu
    | outside gateway p hproviders hroutes hp hp' =>
      exact absurd ((phase_goto_self s u p) ▸ hu) (not_locked_of_outside hp')
    | acquire hp hlock => rfl
    | readProviders hp => exact hs u (by rw [hp]; trivial)
    | setProviders rows hp => exact hs u (by rw [hp]; trivial)
    | readRoutes hp => exact hs u (by rw [hp]; trivial)
    | _ => simp [goto, ConfigPhase.Locked] at hu
  · have hold : s.lock = some u := hs u (by rwa [h.phase_of_ne hut] at hu)
    cases h with
    | acquire hp hlock =>
      rw [hlock] at hold
      cases hold
    | setRoutes rows hp =>
      have hown : s.lock = some task := hs task (by rw [hp]; trivial)
      exact absurd (Option.some.inj (hold.symm.trans hown)) hut
    | raiseLocked hp => exact absurd (Option.some.inj (hold.symm.trans (hs task hp))) hut
    | _ => exact hold

/-- What is read is what is stored. -/
lemma Moves.providersRead (h : Moves task s s') {u : ℕ} {rows : List ProviderConfig} (hu : s'.phase u = .providersRead rows) :
    s.phase u = .providersRead rows ∨ s.db.providers = rows := by
  by_cases hut : u = task
  · subst hut
    cases h with
    | skip => exact .inl hu
    | outside gateway p hproviders hroutes hp hp' =>
      obtain rfl : p = .providersRead rows := by simpa [goto] using hu
      exact hp'.elim
    | readProviders hp => exact .inr (by simpa [goto] using hu)
    | _ => simp [goto] at hu
  · exact .inl (by rwa [h.phase_of_ne hut] at hu)

lemma Moves.routesRead (h : Moves task s s') {u : ℕ} {rows : List ModelRoute} (hu : s'.phase u = .routesRead rows) :
    s.phase u = .routesRead rows ∨ s.db.routes = rows := by
  by_cases hut : u = task
  · subst hut
    cases h with
    | skip => exact .inl hu
    | outside gateway p hproviders hroutes hp hp' =>
      obtain rfl : p = .routesRead rows := by simpa [goto] using hu
      exact hp'.elim
    | readRoutes hp => exact .inr (by simpa [goto] using hu)
    | _ => simp [goto] at hu
  · exact .inl (by rwa [h.phase_of_ne hut] at hu)

/-- A call begins to reload when it has written, and only then does what is stored change. -/
lemma Moves.enters (h : Moves task s s') :
    s'.phase task = .waiting ∨ s'.db = s.db ∧ ∀ u, (s.phase u).Outside → (s'.phase u).Outside := by
  have hout (hkeeps : (s.phase task).Outside → (s'.phase task).Outside) (u : ℕ) (hu : (s.phase u).Outside) :
      (s'.phase u).Outside := by
    by_cases hut : u = task
    · exact hut ▸ hkeeps (hut ▸ hu)
    · rwa [h.phase_of_ne hut]
  have hin {p : ConfigPhase} (hp : s.phase task = p) (hpin : ¬ p.Outside) (u : ℕ) (hu : (s.phase u).Outside) :
      (s'.phase u).Outside := hout (fun hbefore => absurd (hp ▸ hbefore) hpin) u hu
  cases h with
  | skip => exact .inr ⟨rfl, fun u hu => hu⟩
  | outside gateway p hproviders hroutes hp hp' => exact .inr ⟨rfl, hout (fun _ => (phase_goto_self s task p).symm ▸ hp')⟩
  | enter db hp => exact .inl (phase_goto_self s task .waiting)
  | acquire hp hlock => exact .inr ⟨rfl, hin hp id⟩
  | readProviders hp => exact .inr ⟨rfl, hin hp id⟩
  | setProviders rows hp => exact .inr ⟨rfl, hin hp id⟩
  | readRoutes hp => exact .inr ⟨rfl, hin hp id⟩
  | setRoutes rows hp => exact .inr ⟨rfl, hin hp id⟩
  | raise hp => exact .inr ⟨rfl, hin hp id⟩
  | raiseLocked hp => exact .inr ⟨rfl, hout (fun h => absurd hp (not_locked_of_outside h))⟩

/-! ### Copies of what has been stored -/

section Copies

variable {F F' : LLMTables → Prop}

/-- The providers, and every copy of their rows, are of tables in `F`. -/
def ProvidersOf (F : LLMTables → Prop) (s : ConfigRun) : Prop :=
  (∃ db, F db ∧ s.gateway.providers = db.providerDict) ∧
    ∀ u rows, s.phase u = .providersRead rows → ∃ db, F db ∧ db.providers = rows

/-- So are the routes, but for the one that `test_provider` sets. -/
def RoutesOf (F : LLMTables → Prop) (s : ConfigRun) : Prop :=
  (∃ db, F db ∧ ∀ name, name ≠ testRoute → s.gateway.routes.get name = db.routeDict.get name) ∧
    ∀ u rows, s.phase u = .routesRead rows → ∃ db, F db ∧ db.routes = rows

/-- What a call has read is still of tables in `F`. -/
lemma Moves.providersRead_of (hF : ∀ db, F db → F' db) (hdb : F s.db) (h : Moves task s s') {u : ℕ}
    (hread : ∀ rows, s.phase u = .providersRead rows → ∃ db, F db ∧ db.providers = rows) (rows : List ProviderConfig)
    (hu : s'.phase u = .providersRead rows) : ∃ db, F' db ∧ db.providers = rows := by
  rcases h.providersRead hu with hold | rfl
  · obtain ⟨db, hof, hrows⟩ := hread rows hold
    exact ⟨db, hF db hof, hrows⟩
  · exact ⟨s.db, hF s.db hdb, rfl⟩

lemma Moves.routesRead_of (hF : ∀ db, F db → F' db) (hdb : F s.db) (h : Moves task s s') {u : ℕ}
    (hread : ∀ rows, s.phase u = .routesRead rows → ∃ db, F db ∧ db.routes = rows) (rows : List ModelRoute)
    (hu : s'.phase u = .routesRead rows) : ∃ db, F' db ∧ db.routes = rows := by
  rcases h.routesRead hu with hold | rfl
  · obtain ⟨db, hof, hrows⟩ := hread rows hold
    exact ⟨db, hF db hof, hrows⟩
  · exact ⟨s.db, hF s.db hdb, rfl⟩

lemma ProvidersOf.moves (hF : ∀ db, F db → F' db) (hdb : F s.db) (hs : ProvidersOf F s) (h : Moves task s s') :
    ProvidersOf F' s' := by
  obtain ⟨⟨db, hof, hproviders⟩, hread⟩ := hs
  refine ⟨?_, fun u => h.providersRead_of hF hdb (hread u)⟩
  cases h with
  | outside gateway p hsame hroutes hp hp' => exact ⟨db, hF db hof, hsame.trans hproviders⟩
  | setProviders rows hp =>
    obtain ⟨db', hof', rfl⟩ := hread task rows hp
    exact ⟨db', hF db' hof', rfl⟩
  | _ => exact ⟨db, hF db hof, hproviders⟩

lemma RoutesOf.moves (hF : ∀ db, F db → F' db) (hdb : F s.db) (hs : RoutesOf F s) (h : Moves task s s') : RoutesOf F' s' := by
  obtain ⟨⟨db, hof, hroutes⟩, hread⟩ := hs
  refine ⟨?_, fun u => h.routesRead_of hF hdb (hread u)⟩
  cases h with
  | outside gateway p hproviders hsame hp hp' =>
    exact ⟨db, hF db hof, fun name hname => (hsame name hname).trans (hroutes name hname)⟩
  | setRoutes rows hp =>
    obtain ⟨db', hof', rfl⟩ := hread task rows hp
    exact ⟨db', hF db' hof', fun name _ => rfl⟩
  | _ => exact ⟨db, hF db hof, hroutes⟩

/-- The call is in `reload` or past it, and what it has read or set is of tables in `F`. -/
structure Fresh (task : ℕ) (F : LLMTables → Prop) (s : ConfigRun) : Prop where
  exclusive : Exclusive s
  entered : ¬ (s.phase task).Outside
  providersRead : ∀ rows, s.phase task = .providersRead rows → ∃ db, F db ∧ db.providers = rows
  providers : (s.phase task).PastProviders → ProvidersOf F s
  routesRead : ∀ rows, s.phase task = .routesRead rows → ∃ db, F db ∧ db.routes = rows
  routes : s.phase task = .returned → RoutesOf F s

/-- When the call that has the lock goes on to `p`, no call is in another phase that has the lock. -/
lemma Exclusive.goto_ne (hs : Exclusive s) (h : (s.phase task).Locked) {p q : ConfigPhase} (hq : q.Locked) (hpq : p ≠ q) (u : ℕ) :
    (s.goto task p).phase u ≠ q := by
  intro hu
  by_cases hut : u = task
  · subst hut
    exact hpq ((phase_goto_self s u p).symm.trans hu)
  · rw [phase_goto_of_ne hut] at hu
    have hlock : s.lock = some u := hs u (hu ▸ hq)
    exact hut (Option.some.inj (hlock.symm.trans (hs task h)))

lemma Moves.entered {u : ℕ} (h : Moves u s s') (hin : ¬ (s.phase task).Outside) : ¬ (s'.phase task).Outside := by
  by_cases hut : task = u
  · subst hut
    cases h with
    | skip => exact hin
    | outside gateway p hproviders hroutes hp hp' => exact absurd hp hin
    | _ => simp [goto, ConfigPhase.Outside]
  · rwa [h.phase_of_ne hut]

/-- A call that sets the providers sets them from the rows that it has read. -/
lemma Fresh.pastProviders {u : ℕ} (hF : ∀ db, F db → F' db) (hdb : F s.db) (hs : Fresh task F s) (h : Moves u s s')
    (hpast : (s'.phase task).PastProviders) : ProvidersOf F' s' := by
  by_cases hbefore : (s.phase task).PastProviders
  · exact (hs.providers hbefore).moves hF hdb h
  · by_cases hut : task = u
    · subst hut
      cases h with
      | skip => exact absurd hpast hbefore
      | outside gateway p hproviders hroutes hp hp' => exact absurd hp hs.entered
      | setProviders rows hp =>
        obtain ⟨db, hof, rfl⟩ := hs.providersRead rows hp
        have hlocked : (s.phase task).Locked := by rw [hp]; trivial
        refine ⟨⟨db, hF db hof, rfl⟩, fun v rows hv => ?_⟩
        exact absurd hv (hs.exclusive.goto_ne (q := .providersRead rows) hlocked trivial (by simp) v)
      | readRoutes hp => exact absurd (by rw [hp]; trivial) hbefore
      | setRoutes rows hp => exact absurd (by rw [hp]; trivial) hbefore
      | _ => simp [goto, ConfigPhase.PastProviders] at hpast
    · rw [h.phase_of_ne hut] at hpast
      exact absurd hpast hbefore

lemma Fresh.returned {u : ℕ} (hF : ∀ db, F db → F' db) (hdb : F s.db) (hs : Fresh task F s) (h : Moves u s s')
    (hreturned : s'.phase task = .returned) : RoutesOf F' s' := by
  by_cases hbefore : s.phase task = .returned
  · exact (hs.routes hbefore).moves hF hdb h
  · by_cases hut : task = u
    · subst hut
      cases h with
      | skip => exact absurd hreturned hbefore
      | outside gateway p hproviders hroutes hp hp' => exact absurd hp hs.entered
      | setRoutes rows hp =>
        obtain ⟨db, hof, rfl⟩ := hs.routesRead rows hp
        have hlocked : (s.phase task).Locked := by rw [hp]; trivial
        refine ⟨⟨db, hF db hof, fun name _ => rfl⟩, fun v rows hv => ?_⟩
        exact absurd hv (hs.exclusive.goto_ne (q := .routesRead rows) hlocked trivial (by simp) v)
      | _ => simp [goto] at hreturned
    · rw [h.phase_of_ne hut] at hreturned
      exact absurd hreturned hbefore

/-- One step. -/
lemma Fresh.moves {u : ℕ} (hF : ∀ db, F db → F' db) (hdb : F s.db) (hs : Fresh task F s) (h : Moves u s s') :
    Fresh task F' s' where
  exclusive := hs.exclusive.moves h
  entered := h.entered hs.entered
  providersRead := h.providersRead_of hF hdb hs.providersRead
  providers := hs.pastProviders hF hdb h
  routesRead := h.routesRead_of hF hdb hs.routesRead
  routes := hs.returned hF hdb h

end Copies

/-! ### Runs -/

section Configured

/-- No call has begun. -/
def initial (gateway : LLMGateway) (db : LLMTables) : ConfigRun :=
  { gateway, db }

variable (gateway : LLMGateway) (db : LLMTables)

lemma exclusive_run (steps : List ConfigStep) : Exclusive (run step (initial gateway db) steps) := by
  induction steps using List.reverseRecOn with
  | nil => exact fun u hu => hu.elim
  | append_singleton steps i ih =>
    rw [run_append, run_cons, run_nil]
    exact ih.moves (moves_step _ i)

variable {gateway db} {task : ℕ} {before : List ConfigStep}

/-- From the moment at which a call has written. -/
lemma fresh_run (hcommitted : (run step (initial gateway db) before).phase task = .waiting) (after : List ConfigStep) :
    Fresh task (Since step ConfigRun.db (run step (initial gateway db) before) after)
      (run step (run step (initial gateway db) before) after) := by
  refine since_run (J := Fresh task) ?_ (fun F F' s i hF hdb hs => hs.moves hF hdb (moves_step s i)) after
  refine ⟨exclusive_run gateway db before, ?_, ?_, ?_, ?_, ?_⟩ <;>
    simp [hcommitted, ConfigPhase.Outside, ConfigPhase.PastProviders]

/-- A call that has returned takes no more steps. -/
lemma Moves.returned {u : ℕ} (h : Moves u s s') (hreturned : s.phase task = .returned) : s'.phase task = .returned := by
  by_cases hut : task = u
  · subst hut
    cases h with
    | skip => exact hreturned
    | outside gateway p hproviders hroutes hp hp' => exact absurd hp (by rw [hreturned]; exact id)
    | enter db hp => exact absurd hp (by rw [hreturned]; exact id)
    | raiseLocked hp => exact absurd hp (by rw [hreturned]; exact id)
    | _ => simp_all
  · rw [h.phase_of_ne hut, hreturned]

lemma returned_run {steps : List ConfigStep} (hreturned : (run step (initial gateway db) steps).phase task = .returned)
    (later : List ConfigStep) : (run step (initial gateway db) (steps ++ later)).phase task = .returned := by
  rw [run_append]
  induction later using List.reverseRecOn with
  | nil => exact hreturned
  | append_singleton later i ih =>
    rw [run_append, run_cons, run_nil]
    exact (moves_step _ i).returned ih

/-- What a call that has returned leaves. -/
lemma copies_of_returned {after : List ConfigStep} (hcommitted : (run step (initial gateway db) before).phase task = .waiting)
    (hreturned : (run step (initial gateway db) (before ++ after)).phase task = .returned) :
    (∃ l, l <+: after ∧ (run step (initial gateway db) (before ++ after)).gateway.providers =
      (run step (initial gateway db) (before ++ l)).db.providerDict) ∧
    ∃ l, l <+: after ∧ ∀ name, name ≠ testRoute →
      (run step (initial gateway db) (before ++ after)).gateway.routes.get name =
        (run step (initial gateway db) (before ++ l)).db.routeDict.get name := by
  have hfresh := fresh_run hcommitted after
  rw [← run_append] at hfresh
  obtain ⟨⟨-, ⟨l, hl, rfl⟩, hproviders⟩, -⟩ := hfresh.providers (by rw [hreturned]; trivial)
  obtain ⟨⟨-, ⟨l', hl', rfl⟩, hroutes⟩, -⟩ := hfresh.routes hreturned
  refine ⟨⟨l, hl, ?_⟩, l', hl', fun name hname => ?_⟩
  · rw [hproviders, run_append _ before l]
  · rw [hroutes name hname, run_append _ before l']

/-- However calls interleave and wherever they raise, once a call has returned the dictionaries are for ever those of tables
that have been stored since it wrote, but for the route under the name that `test_provider` uses. -/
theorem configuration_fresh (task : ℕ) {after later : List ConfigStep}
    (hcommitted : (run step (initial gateway db) before).phase task = .waiting)
    (hreturned : (run step (initial gateway db) (before ++ after)).phase task = .returned) :
    let s := run step (initial gateway db) (before ++ (after ++ later))
    (∃ l, l <+: after ++ later ∧ s.gateway.providers = (run step (initial gateway db) (before ++ l)).db.providerDict) ∧
    ∃ l, l <+: after ++ later ∧ ∀ name, name ≠ testRoute →
      s.gateway.routes.get name = (run step (initial gateway db) (before ++ l)).db.routeDict.get name := by
  intro s
  refine copies_of_returned hcommitted ?_
  rw [← List.append_assoc]
  exact returned_run hreturned later

def oneProvider : LLMTables where
  providers := [{ providerId := "deepseek", apiKeySecretRef := "llm:deepseek:api-key" }]

/-- The steps of a `reload` after the first. -/
def reloading (task : ℕ) : List ConfigStep :=
  List.replicate 5 (.resume task)

theorem configuration_fresh_reload :
    ∃ l, l <+: reloading 0 ++ [.call 1 (.deleteProvider "deepseek")] ∧
      (run step (initial {} oneProvider)
        ([.call 0 .reload] ++ (reloading 0 ++ [.call 1 (.deleteProvider "deepseek")]))).gateway.providers =
        (run step (initial {} oneProvider) ([.call 0 .reload] ++ l)).db.providerDict :=
  (configuration_fresh 0 rfl rfl).1

/-- The last call that has written, or entered `reload` without writing. -/
lemma last_entered {u : ℕ} (steps : List ConfigStep) (hu : ¬ ((run step (initial gateway db) steps).phase u).Outside) :
    ∃ before after task, steps = before ++ after ∧ (run step (initial gateway db) before).phase task = .waiting ∧
      ∀ l, l <+: after → (run step (initial gateway db) (before ++ l)).db = (run step (initial gateway db) before).db := by
  induction steps using List.reverseRecOn generalizing u with
  | nil => exact absurd trivial hu
  | append_singleton steps i ih =>
    have hmove := moves_step (run step (initial gateway db) steps) i
    have hrun : run step (initial gateway db) (steps ++ [i]) = (run step (initial gateway db) steps).step i := by
      rw [run_append, run_cons, run_nil]
    rw [hrun] at hu
    rcases hmove.enters with hwaiting | ⟨hdb, hout⟩
    · refine ⟨steps ++ [i], [], i.task, by simp, by rw [hrun, hwaiting], fun l hl => ?_⟩
      rw [List.prefix_nil.mp hl, List.append_nil]
    · obtain ⟨before, after, task, rfl, hcommitted, hsame⟩ := ih (fun h => hu (hout u h))
      refine ⟨before, after ++ [i], task, by simp, hcommitted, fun l hl => ?_⟩
      rcases List.prefix_concat_iff.mp hl with rfl | hl
      · rw [← List.append_assoc, hrun, hdb]
        exact hsame after (List.prefix_refl after)
      · exact hsame l hl

/-- Every call is over, and those that have written have returned. -/
def Settled (s : ConfigRun) : Prop :=
  ∀ u, s.phase u = .idle ∨ s.phase u = .returned ∨ s.phase u = .refused ∨ s.phase u = .probed

/-- When no call is under way and none has raised in `reload`, the dictionaries are what is stored. -/
theorem configuration_settled (steps : List ConfigStep) (hsettled : Settled (run step (initial gateway db) steps))
    (hloaded : ∃ u, (run step (initial gateway db) steps).phase u = .returned) :
    let s := run step (initial gateway db) steps
    s.gateway.providers = s.db.providerDict ∧
      ∀ name, name ≠ testRoute → s.gateway.routes.get name = s.db.routeDict.get name := by
  intro s
  obtain ⟨u, hu⟩ := hloaded
  obtain ⟨before, after, task, rfl, hcommitted, hsame⟩ := last_entered steps (by rw [hu]; exact id)
  have hin := (fresh_run hcommitted after).entered
  rw [← run_append] at hin
  have hreturned : s.phase task = .returned := by
    rcases hsettled task with h | h | h | h
    · exact absurd (by rw [h]; trivial) hin
    · exact h
    · exact absurd (by rw [h]; trivial) hin
    · exact absurd (by rw [h]; trivial) hin
  obtain ⟨⟨l, hl, hproviders⟩, l', hl', hroutes⟩ := copies_of_returned hcommitted hreturned
  have hend : s.db = (run step (initial gateway db) before).db := hsame after (List.prefix_refl after)
  refine ⟨?_, fun name hname => ?_⟩
  · rw [hend, ← hsame l hl]
    exact hproviders
  · rw [hend, ← hsame l' hl']
    exact hroutes name hname

theorem configuration_settled_reload :
    (run step (initial {} oneProvider) ([.call 0 .reload] ++ reloading 0)).gateway.providers = oneProvider.providerDict := by
  have hsettled : Settled (run step (initial {} oneProvider) ([.call 0 .reload] ++ reloading 0)) := by
    intro u
    cases u with
    | zero => exact .inr (.inl rfl)
    | succ u => exact .inl rfl
  exact (configuration_settled _ hsettled ⟨0, rfl⟩).1

end Configured

end ConfigRun

end CryptoTrader
