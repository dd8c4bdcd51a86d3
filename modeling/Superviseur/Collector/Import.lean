import Superviseur.Collector.Store
import Superviseur.Library.Trace

/-!
# The import of the devices

`run_discovery` imports the devices that have answered in concurrent tasks, a limited number at a
time, and waits for all of them; each describes its device, then writes its row and its points, in
two transactions. The first exception that a task lets through ends the call at once, the other
tasks going on by themselves; otherwise the registry is replaced by the devices of the database.

What the calls of each device give is a parameter: any of them may raise. A transaction that raises
has no effect.
-/

namespace Superviseur

/-- What `describe` gives. -/
inductive Description where
  | objects (objects : List ObjectInfo)
  /-- A `DriverError`. -/
  | driverError
  /-- Any other exception. -/
  | raised

/-- How the calls for a device end. -/
structure Answers where
  describe : Description
  /-- `upsert_device` raises. -/
  refusesDevice : Bool
  /-- `upsert_points` raises. -/
  refusesPoints : Bool

/-- A call for the device raises. -/
def Answers.fails (a : Answers) : Bool :=
  match a.describe with
  | .objects _ => a.refusesDevice || a.refusesPoints
  | .driverError | .raised => true

/-- What `import_device` is doing. -/
inductive ImportTask where
  | waiting
  | describing
  | upsertingDevice (objects : List ObjectInfo)
  | upsertingPoints (id : Uuid) (objects : List ObjectInfo)
  | done
  /-- The device could not be described. -/
  | skipped
  /-- An exception was let through. -/
  | failed
  deriving DecidableEq

/-- The task holds the semaphore. -/
def ImportTask.running : ImportTask → Bool
  | describing | upsertingDevice _ | upsertingPoints _ _ => true
  | waiting | done | skipped | failed => false

/-- The task has ended. -/
def ImportTask.ended : ImportTask → Bool
  | done | skipped | failed => true
  | waiting | describing | upsertingDevice _ | upsertingPoints _ _ => false

/-- What `run_discovery` itself is doing. -/
inductive ImportMain where
  | gathering
  | returned
  | raised
  deriving DecidableEq

structure ImportConfig where
  networkId : Uuid
  networkName : String
  ignoredPrefixes : List String
  parallelDevices : ℕ
  parallelDevices_pos : 0 < parallelDevices
  defaultIntervalS : ℚ

/-- The devices that have answered, one for each instance. -/
structure Discovered where
  devices : List (DeviceInfo × Answers)
  nodup : (devices.map fun d ↦ d.1.deviceInstance).Nodup

structure Import where
  tables : Tables
  registry : Registry
  /-- The task of each device, by position. -/
  tasks : List ImportTask
  inventory : List (ℤ × List ObjectInfo)
  main : ImportMain

namespace Import

inductive Event where
  /-- A task obtains the semaphore. -/
  | acquire (position : ℕ)
  /-- `describe` ends. -/
  | describe (position : ℕ)
  /-- `upsert_device` ends; `newId` is the identifier of a new row. -/
  | upsertDevice (position : ℕ) (now : Instant) (newId : Uuid)
  /-- `upsert_points` ends, with identifiers for the new rows. -/
  | upsertPoints (position : ℕ) (newIds : List Uuid)
  /-- All the tasks have ended well: the registry is replaced. -/
  | finish

/-- The objects that are imported. -/
def kept (cfg : ImportConfig) (objects : List ObjectInfo) : List ObjectInfo :=
  objects.filter fun o ↦ !o.ignored cfg.ignoredPrefixes

/-- The logical path of the points of a device. -/
def pathPrefix (cfg : ImportConfig) (info : DeviceInfo) : String :=
  s!"{cfg.networkName}/{textOr info.name (toString info.deviceInstance)}"

/-- A task goes on. -/
def setTask (s : Import) (i : ℕ) (task : ImportTask) : Import :=
  { s with tasks := s.tasks.set i task }

/-- A task lets an exception through: the call ends, if it was still waiting. -/
def fail (s : Import) (i : ℕ) : Import :=
  { s.setTask i .failed with main := if s.main = .gathering then .raised else s.main }

/-- One step, where it is possible. -/
def next (cfg : ImportConfig) (found : Discovered) (s : Import) : Event → Option Import
  | .acquire i => match s.tasks[i]? with
    | some .waiting =>
      if s.tasks.countP ImportTask.running < cfg.parallelDevices then some (s.setTask i .describing)
      else none
    | _ => none
  | .describe i => match s.tasks[i]?, found.devices[i]? with
    | some .describing, some (_, answers) => match answers.describe with
      | .objects objects => some (s.setTask i (.upsertingDevice (kept cfg objects)))
      | .driverError => some (s.setTask i .skipped)
      | .raised => some (s.fail i)
    | _, _ => none
  | .upsertDevice i now newId => match s.tasks[i]?, found.devices[i]? with
    | some (.upsertingDevice objects), some (info, answers) =>
      if newId ∈ s.tables.devices then none
      else if answers.refusesDevice then some (s.fail i)
      else
        let written := s.tables.upsertDevice cfg.networkId info now newId
        some { s.setTask i (.upsertingPoints written.2 objects) with tables := written.1 }
    | _, _ => none
  | .upsertPoints i newIds => match s.tasks[i]?, found.devices[i]? with
    | some (.upsertingPoints id objects), some (info, answers) =>
      if newIds.length = objects.length ∧ newIds.Nodup ∧ ∀ p ∈ newIds, p ∉ s.tables.points then
        if answers.refusesPoints then some (s.fail i)
        else some { s.setTask i .done with
          tables := s.tables.upsertPoints id objects info.supportsCov (pathPrefix cfg info) newIds
          inventory := s.inventory ++ [(info.deviceInstance, objects)] }
      else none
    | _, _ => none
  | .finish =>
    if s.main = .gathering ∧ s.tasks.all (fun task ↦ task = .done ∨ task = .skipped) then
      some { s with
        registry := s.registry.replace (s.tables.loadDevices cfg.networkId cfg.defaultIntervalS)
        main := .returned }
    else none

/-- The tasks are created. -/
def start (found : Discovered) (tables : Tables) (registry : Registry) : Import where
  tables := tables
  registry := registry
  tasks := found.devices.map fun _ ↦ .waiting
  inventory := []
  main := .gathering

/-- A run. -/
abbrev Run (cfg : ImportConfig) (found : Discovered) : Import → List Event → Import → Prop :=
  Trace.Path (Trace.Stepping (next cfg found) fun _ _ ↦ True)

end Import

end Superviseur
