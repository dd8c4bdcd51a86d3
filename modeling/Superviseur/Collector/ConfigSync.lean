import Superviseur.Collector.Store
import Superviseur.Library.Generations
import Superviseur.Library.Trace

/-!
# The settings of a point, reloaded

An update of the deadband or of the intervals of a point commits, then asks the collector to reload
the point. The collector takes the requests one by one: it looks the point up in the registry, reads
its settings in the database, and puts them in the object it has looked up. Meanwhile a discovery
reads the settings of all the points, and later puts new objects in the registry.
-/

namespace Superviseur

/-- The part of `PointUpdate` that the collector is concerned with; a field may be absent. -/
structure PointUpdate where
  path : Option (Option String)
  deadband : Option PyFloat
  maxIntervalS : Option ℤ
  pollIntervalS : Option (Option ℤ)

/-- The bounds of the fields. -/
def PointUpdate.valid (u : PointUpdate) : Bool :=
  u.deadband.all (fun x ↦ (PyFloat.fin 0).le x) &&
    u.maxIntervalS.all (fun n ↦ decide (1 ≤ n ∧ n ≤ 86400)) &&
    u.pollIntervalS.all (fun n ↦ n.all fun n ↦ decide (1 ≤ n ∧ n ≤ 86400))

def PointUpdate.apply (u : PointUpdate) (s : PointSettings) : PointSettings where
  deadband := u.deadband.getD s.deadband
  maxIntervalS := u.maxIntervalS.getD s.maxIntervalS
  pollIntervalS := u.pollIntervalS.getD s.pollIntervalS
  path := u.path.getD s.path

/-- The settings that ask for a reload when they change. -/
def PointSettings.tuning (s : PointSettings) : PyFloat × ℤ × Option ℤ :=
  (s.deadband, s.maxIntervalS, s.pollIntervalS)

/-- `reload`, once the settings are read. -/
def PointState.applySettings (default : ℚ) (settings : PointSettings) (now : Instant)
    (point : PointState) : PointState :=
  let pollIntervalS := pollInterval settings.pollIntervalS default
  { point with
    deadband := settings.deadband
    maxIntervalS := settings.maxIntervalS
    pollIntervalS := pollIntervalS
    path := settings.path
    nextDue := if point.covActive then point.nextDue else min point.nextDue (now + pollIntervalS) }

/-- What `PointConfigSync` is doing. -/
inductive Reload where
  | idle
  /-- The point was found in the registry, and its settings are asked for. -/
  | asking (id : Uuid) (generation : ℕ)
  /-- The database has answered. -/
  | answered (id : Uuid) (generation : ℕ) (settings : Option PointSettings)
  deriving DecidableEq

/-- The point that is being reloaded. -/
def Reload.point : Reload → Option Uuid
  | idle => none
  | asking id _ | answered id _ _ => some id

structure ConfigSync where
  registry : Generations Registry
  tables : Tables
  /-- The reloads asked for by updates that are committed, and not begun. -/
  requests : List Uuid
  reload : Reload
  discovery : Discovering

namespace ConfigSync

inductive Event where
  /-- An update of a point commits. -/
  | patch (id : Uuid) (update : PointUpdate)
  /-- `reload` is called for a request. -/
  | begin (position : ℕ)
  /-- The database answers. -/
  | read
  /-- The rest of `reload`. -/
  | apply (now : Instant)
  | discover
  /-- `upsert_points`. -/
  | upsertPoints (deviceId : Uuid) (objects : List ObjectInfo) (covCapable : Bool)
    (pathPrefix : String) (newIds : List Uuid)
  /-- `load_devices` reads the tables. -/
  | load
  | replace

/-- One step, where it is possible. -/
def next (networkId : Uuid) (default : ℚ) (s : ConfigSync) : Event → Option ConfigSync
  | .patch id update => match s.tables.points.lookup id with
    | none => none
    | some row =>
      if update.valid then
        let settings := update.apply row.settings
        some { s with
          tables := s.tables.setPointSettings id settings
          requests := if settings.tuning = row.settings.tuning then s.requests
            else s.requests ++ [id] }
      else none
  | .begin i => match s.reload, s.requests[i]? with
    | .idle, some id => some { s with
        requests := s.requests.eraseIdx i
        reload := if (s.registry.get.point id).isSome then .asking id s.registry.current
          else .idle }
    | _, _ => none
  | .read => match s.reload with
    | .asking id g => some { s with reload := .answered id g (s.tables.getPointSettings id) }
    | _ => none
  | .apply now => match s.reload with
    | .answered _ _ none => some { s with reload := .idle }
    | .answered id g (some settings) => some { s with
        registry := s.registry.modify g fun r ↦
          r.modifyPoint id (PointState.applySettings default settings now)
        reload := .idle }
    | _ => none
  | .discover => match s.discovery with
    | .idle => some { s with discovery := .importing }
    | _ => none
  | .upsertPoints deviceId objects covCapable pathPrefix newIds => match s.discovery with
    | .importing =>
      if newIds.length = objects.length ∧ newIds.Nodup ∧ ∀ id ∈ newIds, id ∉ s.tables.points then
        some { s with
          tables := s.tables.upsertPoints deviceId objects covCapable pathPrefix newIds }
      else none
    | _ => none
  | .load => match s.discovery with
    | .importing => some { s with discovery := .loaded (s.tables.loadDevices networkId default) }
    | _ => none
  | .replace => match s.discovery with
    | .loaded devices => some { s with
        registry := s.registry.replace (s.registry.get.replace devices)
        discovery := .idle }
    | _ => none

/-- The collector at start-up: the registry is empty. -/
def start (tables : Tables) : ConfigSync where
  registry := .init ⟨[]⟩
  tables := tables
  requests := []
  reload := .idle
  discovery := .idle

/-- A run, its steps meeting `C`. -/
abbrev Run (networkId : Uuid) (default : ℚ) (C : ConfigSync → Event → Prop) :
    ConfigSync → List Event → ConfigSync → Prop :=
  Trace.Path (Trace.Stepping (next networkId default) C)

end ConfigSync

end Superviseur
