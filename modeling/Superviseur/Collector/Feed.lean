import Superviseur.Collector.Discovery
import Superviseur.Library.Trace
import Mathlib.Logic.Function.Basic

/-!
# From the devices to the recorder

Three producers give readings to the recorder: the polls, and the readings that follow a write, read
a batch of points and date it when the last one has answered; a COV notification, and a point whose
device is lost, are dated at once; a discovery reads every object of every device while it draws up
its inventory, and dates all of them once the registry has been replaced. Each producer waits for
the recorder to be done with a reading before it gives the next one.

A value carries the instant at which the device gave it, which the code does not keep.
-/

namespace Superviseur

/-- The answer for a point of a batch: an absent value is a fault. -/
structure Taken where
  pointId : Uuid
  value : Option PyFloat
  status : PointStatus
  taken : Instant
  deriving DecidableEq

/-- A reading, with the instant at which the device gave its value. -/
structure Dated where
  reading : Reading
  taken : Instant
  deriving DecidableEq

/-- An object of the inventory, with the instant at which it was read. -/
structure Found where
  object : ObjectInfo
  taken : Instant

def Taken.date (now : Instant) (t : Taken) : Dated :=
  ⟨⟨t.pointId, now, t.value, t.status⟩, t.taken⟩

def Found.date (r : Registry) (deviceInstance : ℤ) (now : Instant) (f : Found) : Option Dated :=
  (f.object.reading r deviceInstance now).map fun reading ↦ ⟨reading, f.taken⟩

/-- What a producer is doing. -/
inductive Task where
  | idle
  /-- `driver.read`: the points that have not answered yet, and the answers. -/
  | reading (refs : List PointRef) (answers : List Taken)
  /-- Between two calls of `recorder.handle`: the readings still to give. -/
  | giving (readings : List Dated)
  /-- `recorder.handle`: the reading it is given, those that come after it, and whether the
  publication has ended. -/
  | handling (current : Dated) (rest : List Dated) (published : Bool)

/-- A discovery, while it imports the devices: those that are not done, with the objects read so
far, and the inventory of the others. -/
structure Inventory where
  left : List (ℤ × List Found)
  inventory : List (ℤ × List Found)

structure Feed where
  clock : Instant
  registry : Registry
  /-- The producers; `none` is the task of the discoveries. -/
  tasks : Option ℕ → Task
  discovery : Option Inventory
  /-- Every reading, in the order in which they were dated. -/
  dated : List Dated
  /-- The messages Redis has received, in order. -/
  published : List Dated
  /-- The readings the recorder has put in its buffers, in order. -/
  handled : List Dated

namespace Feed

inductive Event where
  | tick (now : Instant)
  /-- A poll, or a reading after a write, begins. -/
  | read (job : ℕ) (refs : List PointRef)
  /-- The next point of the batch answers. -/
  | answer (job : ℕ) (value : Option PyFloat) (status : PointStatus)
  /-- The batch is complete. -/
  | stamp (job : ℕ)
  /-- The device answers by an error. -/
  | refuse (job : ℕ)
  /-- The device does not answer. -/
  | drop (job : ℕ)
  /-- A COV notification, or a point whose device is lost. -/
  | notify (job : ℕ) (pointId : Uuid) (value : Option PyFloat) (status : PointStatus)
  /-- `handle` is called. -/
  | handle (job : Option ℕ)
  /-- Redis receives a reading, or fails. -/
  | publish (job : Option ℕ) (ok : Bool)
  /-- The rest of `handle`. -/
  | record (job : Option ℕ)
  /-- `discover`: the devices that answered. -/
  | discover (devices : List ℤ)
  /-- `describe` reads an object of a device. -/
  | describe (position : ℕ) (object : ObjectInfo)
  /-- The import of a device ends. -/
  | imported (position : ℕ)
  /-- The device could not be described. -/
  | skipped (position : ℕ)
  /-- An exception ends the discovery. -/
  | abort
  /-- `load_devices` returns; the registry is replaced and the inventory dated. -/
  | replace (devices : List DeviceState)

end Feed

namespace Task

/-- The reading the recorder is handling. -/
def current : Task → Option Dated
  | handling current _ _ => some current
  | _ => none

/-- The readings that are dated and not handled yet. -/
def queue : Task → List Dated
  | handling current rest _ => current :: rest
  | giving readings => readings
  | _ => []

/-- The answers of a batch. -/
def answers : Task → List Taken
  | reading _ answers => answers
  | _ => []

end Task

namespace Feed

/-- Readings are dated, and will be given to the recorder. -/
def give (s : Feed) (job : Option ℕ) (readings : List Dated) : Feed :=
  { s with
    tasks := Function.update s.tasks job (.giving readings)
    dated := s.dated ++ readings }

/-- The readings of a batch that has answered. -/
def batch (s : Feed) (job : Option ℕ) : List Dated :=
  (s.tasks job).answers.map (Taken.date s.clock)

/-- The readings of a batch the device has refused. -/
def faults (s : Feed) (refs : List PointRef) (answers : List Taken) : List Dated :=
  (answers.map Taken.pointId ++ refs.map PointRef.pointId).map fun p ↦
    ⟨⟨p, s.clock, none, .fault⟩, s.clock⟩

/-- The readings of the inventory, once the registry is replaced. -/
def firstReadings (s : Feed) (r : Registry) : List Dated :=
  match s.discovery with
  | none => []
  | some d => d.inventory.flatMap fun entry ↦ entry.2.filterMap fun f ↦ f.date r entry.1 s.clock

/-- One step, where it is possible. -/
def next (prefixes : List String) (s : Feed) : Event → Option Feed
  | .tick now => if s.clock ≤ now then some { s with clock := now } else none
  | .read job refs =>
    match s.tasks (some job) with
    | .idle => some { s with tasks := Function.update s.tasks (some job) (.reading refs []) }
    | _ => none
  | .answer job value status =>
    match s.tasks (some job) with
    | .reading (ref :: refs) answers => some { s with
        tasks := Function.update s.tasks (some job)
          (.reading refs (answers ++ [⟨ref.pointId, value, status, s.clock⟩])) }
    | _ => none
  | .stamp job =>
    match s.tasks (some job) with
    | .reading [] _ => some (s.give (some job) (s.batch (some job)))
    | _ => none
  | .refuse job =>
    match s.tasks (some job) with
    | .reading refs answers => some (s.give (some job) (s.faults refs answers))
    | _ => none
  | .drop job =>
    match s.tasks (some job) with
    | .reading _ _ => some { s with tasks := Function.update s.tasks (some job) .idle }
    | _ => none
  | .notify job p value status =>
    match s.tasks (some job) with
    | .idle => some (s.give (some job) [⟨⟨p, s.clock, value, status⟩, s.clock⟩])
    | _ => none
  | .handle job =>
    match s.tasks job with
    | .giving [] => some { s with tasks := Function.update s.tasks job .idle }
    | .giving (d :: rest) => match s.registry.point d.reading.pointId with
      | none => some { s with tasks := Function.update s.tasks job (.giving rest) }
      | some _ => some { s with tasks := Function.update s.tasks job (.handling d rest false) }
    | _ => none
  | .publish job ok =>
    match s.tasks job with
    | .handling current rest false => some { s with
        tasks := Function.update s.tasks job (.handling current rest true)
        published := if ok then s.published ++ [current] else s.published }
    | _ => none
  | .record job =>
    match s.tasks job with
    | .handling current rest true => some { s with
        tasks := Function.update s.tasks job (.giving rest)
        handled := s.handled ++ [current] }
    | _ => none
  | .discover devices =>
    match s.discovery, s.tasks none with
    | none, .idle => some { s with discovery := some ⟨devices.map fun d ↦ (d, []), []⟩ }
    | _, _ => none
  | .describe i object =>
    match s.discovery with
    | some d => some { s with discovery := some { d with
        left := d.left.modify i fun entry ↦ (entry.1, entry.2 ++ [⟨object, s.clock⟩]) } }
    | none => none
  | .imported i =>
    match s.discovery with
    | some d => match d.left[i]? with
      | some (device, objects) =>
        let kept := objects.filter fun f ↦ !f.object.ignored prefixes
        some { s with discovery := some ⟨d.left.eraseIdx i, d.inventory ++ [(device, kept)]⟩ }
      | none => none
    | none => none
  | .skipped i =>
    match s.discovery with
    | some d => some { s with discovery := some { d with left := d.left.eraseIdx i } }
    | none => none
  | .abort => some { s with discovery := none }
  | .replace devices =>
    match s.discovery with
    | some ⟨[], _⟩ =>
      let registry := s.registry.replace devices
      some ({ s with registry := registry, discovery := none }.give none (s.firstReadings registry))
    | _ => none

/-- A collector at start-up. -/
def start (registry : Registry) (clock : Instant) : Feed where
  clock := clock
  registry := registry
  tasks _ := .idle
  discovery := none
  dated := []
  published := []
  handled := []

/-- A run, its steps meeting `C`. -/
abbrev Run (prefixes : List String) (C : Feed → Event → Prop) : Feed → List Event → Feed → Prop :=
  Trace.Path (Trace.Stepping (next prefixes) C)

end Feed

end Superviseur
