import Superviseur.Collector.Poller
import Superviseur.Collector.Store
import Superviseur.Library.Generations
import Superviseur.Library.Trace

/-!
# The status of a device

Whether a device is online is known in three places: the registry, the database, and what was
published on `device.status` (or, before anything was, the value with which the device was loaded).
A poll cycle writes all three when the status changes. A discovery writes the database alone, when
the device answers, and replaces the objects of the registry by new ones to which it copies the
status; a cycle that began before goes on with the object that was replaced.

The steps are the stretches between two waits. `load_devices` reads the two tables at once; a device
is never deleted.
-/

namespace Superviseur

structure Supervision where
  registry : Generations Registry
  tables : Tables
  /-- The last status published on `device.status`. -/
  announced : Uuid → Option Bool
  /-- The status with which a device came into the registry. -/
  loaded : Uuid → Option Bool
  cycles : Uuid → Cycle
  discovery : Discovering

/-- The settings the steps depend on. -/
structure SupervisionConfig where
  networkId : Uuid
  defaultIntervalS : ℚ
  offlineAfterCycles : ℕ

namespace Supervision

inductive Event where
  /-- A poll cycle of a device begins. -/
  | poll (device : Uuid) (now : Instant)
  /-- The device has answered. -/
  | succeed (device : Uuid) (now : Instant)
  /-- The device has not answered. -/
  | fail (device : Uuid) (now : Instant)
  /-- `set_device_status` is done. -/
  | write (device : Uuid) (now : Instant)
  /-- The status is published. -/
  | publish (device : Uuid)
  /-- The cycle ends. -/
  | finish (device : Uuid)
  /-- `run_discovery`: the devices have answered. -/
  | discover
  /-- `upsert_device`; `newId` is the identifier of a new row. -/
  | upsert (info : DeviceInfo) (now : Instant) (newId : Uuid)
  /-- `load_devices`. -/
  | load
  /-- `registry.replace`. -/
  | replace

/-- What the rest of the application believes of a device. -/
def heard (s : Supervision) (d : Uuid) : Option Bool := (s.announced d).or (s.loaded d)

/-- The outcome of a cycle, for the object it began with. -/
def conclude (s : Supervision) (d : Uuid) (outcome : DeviceState → DeviceState × Cycle) :
    Option Supervision :=
  match s.cycles d with
  | .polling g => match (s.registry.object g).device d with
    | some device => some { s with
        registry := s.registry.modify g fun r ↦ r.modifyDevice d fun device ↦ (outcome device).1
        cycles := Function.update s.cycles d (outcome device).2 }
    | none => none
  | _ => none

/-- The status with which each device came into the registry, once it is replaced. -/
def firstLoaded (s : Supervision) (registry : Registry) (d : Uuid) : Option Bool :=
  match s.registry.get.device d with
  | some _ => s.loaded d
  | none => (registry.device d).map DeviceState.online

/-- One step, where it is possible. -/
def next (cfg : SupervisionConfig) (s : Supervision) : Event → Option Supervision
  | .poll d now => match s.cycles d, s.registry.get.device d with
    | .idle, some _ => some { s with
        registry := s.registry.modify s.registry.current fun r ↦
          r.modifyDevice d fun device ↦ { device with lastAttempt := now }
        cycles := Function.update s.cycles d (.polling s.registry.current) }
    | _, _ => none
  | .succeed d now => s.conclude d fun device ↦ device.onSuccess now
  | .fail d now => s.conclude d fun device ↦ device.onFailure cfg.offlineAfterCycles now
  | .write d now => match s.cycles d with
    | .writing online announce => some { s with
        tables := s.tables.setDeviceStatus d online (if online then some now else none)
        cycles := Function.update s.cycles d (if announce then .publishing online else .ending) }
    | _ => none
  | .publish d => match s.cycles d with
    | .publishing online => some { s with
        announced := Function.update s.announced d (some online)
        cycles := Function.update s.cycles d .ending }
    | _ => none
  | .finish d => match s.cycles d with
    | .ending => some { s with cycles := Function.update s.cycles d .idle }
    | _ => none
  | .discover => match s.discovery with
    | .idle => some { s with discovery := .importing }
    | _ => none
  | .upsert info now newId => match s.discovery with
    | .importing =>
      if newId ∈ s.tables.devices then none
      else some { s with tables := (s.tables.upsertDevice cfg.networkId info now newId).1 }
    | _ => none
  | .load => match s.discovery with
    | .importing => some { s with
        discovery := .loaded (s.tables.loadDevices cfg.networkId cfg.defaultIntervalS) }
    | _ => none
  | .replace => match s.discovery with
    | .loaded devices =>
      let registry := s.registry.get.replace devices
      some { s with
        registry := s.registry.replace registry
        loaded := s.firstLoaded registry
        discovery := .idle }
    | _ => none

/-- The collector at start-up: the registry is empty. -/
def start (tables : Tables) : Supervision where
  registry := .init ⟨[]⟩
  tables := tables
  announced _ := none
  loaded _ := none
  cycles _ := .idle
  discovery := .idle

/-- A run, its steps meeting `C`. -/
abbrev Run (cfg : SupervisionConfig) (C : Supervision → Event → Prop) :
    Supervision → List Event → Supervision → Prop :=
  Trace.Path (Trace.Stepping (next cfg) C)

end Supervision

end Superviseur
