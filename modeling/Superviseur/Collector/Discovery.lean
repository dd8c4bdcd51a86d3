import Superviseur.Collector.Registry

/-!
# The inventory

What a discovery learns of a device and of its objects, and the first reading of each point, which
the inventory gives once the registry has been replaced.
-/

namespace Superviseur

structure DeviceInfo where
  deviceInstance : ℤ
  address : String
  name : Option String
  vendor : Option String
  model : Option String
  supportsCov : Bool
  deriving DecidableEq

/-- An object found on a device. -/
structure ObjectInfo where
  objectType : String
  objectInstance : ℤ
  name : String
  description : Option String
  unit : Option String
  writable : Bool
  stateText : Option (List String)
  value : Option PyFloat
  status : PointStatus
  deriving DecidableEq

/-- `o.name.startswith(prefixes)`. -/
def ObjectInfo.ignored (prefixes : List String) (o : ObjectInfo) : Bool :=
  prefixes.any fun p ↦ p.toList.isPrefixOf o.name.toList

/-- What `index` finds under the address of an object: the last point of the registry that has
it. -/
def Registry.pointOf (r : Registry) (deviceInstance : ℤ) (o : ObjectInfo) : Option PointState :=
  (r.allPoints.filter fun point ↦ point.ref.deviceInstance = deviceInstance ∧
    point.ref.objectType = o.objectType ∧ point.ref.objectInstance = o.objectInstance).getLast?

/-- The first reading of an object, if it is a point of the registry and its value was read. -/
def ObjectInfo.reading (o : ObjectInfo) (r : Registry) (deviceInstance : ℤ) (now : Instant) :
    Option Reading :=
  match r.pointOf deviceInstance o, o.value with
  | some point, some value => some ⟨point.ref.pointId, now, some value, o.status⟩
  | _, _ => none

/-- What `run_discovery` is doing, where only its result matters. -/
inductive Discovering where
  | idle
  /-- The devices are imported. -/
  | importing
  /-- `load_devices` has returned. -/
  | loaded (devices : List DeviceState)
  deriving DecidableEq

/-- The devices that will be put in the registry. -/
def Discovering.devices : Discovering → List DeviceState
  | loaded devices => devices
  | _ => []

end Superviseur
