import Superviseur.Collector.BacnetDriver

/-!
# What the collector keeps in memory

A `PointState` carries the settings of a point and its follow-up: polling, COV subscription, and the
last value that was put in the history. A `DeviceState` does the same for a device. The registry
holds the current objects; a discovery puts new ones in their place, which take over the follow-up
of those they replace. The clock of the loop and the durations are exact, as everywhere here; the
values of the readings are floats.
-/

namespace Superviseur

/-- A normalized reading. -/
structure Reading where
  pointId : Uuid
  ts : Instant
  value : Option PyFloat
  status : PointStatus
  deriving DecidableEq

structure PointState where
  ref : PointRef
  path : Option String
  deadband : PyFloat
  maxIntervalS : ℤ
  pollIntervalS : ℚ
  covCapable : Bool
  /-- Next poll, on the clock of the loop; zero before the first one is planned. -/
  nextDue : Instant
  covActive : Bool
  covExpires : WithTop Instant
  covRetryAt : Instant
  stored : Bool
  storedValue : Option PyFloat
  storedStatus : Option PointStatus
  storedTs : Option Instant
  deriving DecidableEq

/-- A point as it is loaded: no follow-up yet. -/
def PointState.new (ref : PointRef) (path : Option String) (deadband : PyFloat) (maxIntervalS : ℤ)
    (pollIntervalS : ℚ) (covCapable : Bool) : PointState where
  ref := ref
  path := path
  deadband := deadband
  maxIntervalS := maxIntervalS
  pollIntervalS := pollIntervalS
  covCapable := covCapable
  nextDue := 0
  covActive := false
  covExpires := (0 : Instant)
  covRetryAt := 0
  stored := false
  storedValue := none
  storedStatus := none
  storedTs := none

structure DeviceState where
  deviceId : Uuid
  deviceInstance : ℤ
  address : String
  name : String
  supportsCov : Bool
  online : Bool
  /-- By identifier, which `ref` carries. -/
  points : List PointState
  failures : ℕ
  lastContact : Instant
  lastAttempt : Instant
  lastSeenWritten : Instant
  deriving DecidableEq

/-- A device as it is loaded: no follow-up yet. -/
def DeviceState.new (deviceId : Uuid) (deviceInstance : ℤ) (address name : String)
    (supportsCov : Bool) (online : Bool) (points : List PointState) : DeviceState where
  deviceId := deviceId
  deviceInstance := deviceInstance
  address := address
  name := name
  supportsCov := supportsCov
  online := online
  points := points
  failures := 0
  lastContact := 0
  lastAttempt := 0
  lastSeenWritten := 0

/-- The point takes over the follow-up of the object it replaces, if any. -/
def PointState.resume (point : PointState) : Option PointState → PointState
  | none => point
  | some old => { point with
      nextDue := old.nextDue
      covActive := old.covActive
      covExpires := old.covExpires
      covRetryAt := old.covRetryAt
      stored := old.stored
      storedValue := old.storedValue
      storedStatus := old.storedStatus
      storedTs := old.storedTs }

/-- The device takes over the follow-up of the object it replaces, if any. -/
def DeviceState.resume (device : DeviceState) : Option DeviceState → DeviceState
  | none => device
  | some previous => { device with
      failures := previous.failures
      lastContact := previous.lastContact
      lastAttempt := previous.lastAttempt
      lastSeenWritten := previous.lastSeenWritten
      online := previous.online }

/-- The devices of the registry, by identifier. -/
structure Registry where
  devices : List DeviceState
  deriving DecidableEq

namespace Registry

/-- `devices.get`. -/
def device (r : Registry) (id : Uuid) : Option DeviceState :=
  r.devices.find? fun device ↦ device.deviceId = id

def allPoints (r : Registry) : List PointState := r.devices.flatMap DeviceState.points

def point (r : Registry) (id : Uuid) : Option PointState :=
  r.allPoints.find? fun point ↦ point.ref.pointId = id

/-- The devices that were loaded become those of the registry. -/
def replace (r : Registry) (devices : List DeviceState) : Registry where
  devices := devices.map fun device ↦
    let resumed := device.resume (r.device device.deviceId)
    { resumed with
      points := resumed.points.map fun point ↦ point.resume (r.point point.ref.pointId) }

/-- The object of a device changes. -/
def modifyDevice (r : Registry) (id : Uuid) (f : DeviceState → DeviceState) : Registry where
  devices := r.devices.map fun device ↦ if device.deviceId = id then f device else device

/-- The object of a point changes. -/
def modifyPoint (r : Registry) (id : Uuid) (f : PointState → PointState) : Registry where
  devices := r.devices.map fun device ↦ { device with
    points := device.points.map fun point ↦ if point.ref.pointId = id then f point else point }

variable {r : Registry} {id : Uuid} {f : DeviceState → DeviceState} {devices : List DeviceState}

theorem deviceId_of_device {device : DeviceState} (h : r.device id = some device) :
    device.deviceId = id :=
  of_decide_eq_true
    (List.find?_some (p := fun device : DeviceState ↦ decide (device.deviceId = id)) h)

theorem device_map (hf : ∀ device, (f device).deviceId = device.deviceId) :
    (Registry.mk (devices.map f)).device id = ((Registry.mk devices).device id).map f := by
  rw [device, List.find?_map]
  simp only [Function.comp_def, hf]
  rfl

theorem device_modifyDevice_self (hf : ∀ device, (f device).deviceId = device.deviceId) :
    (r.modifyDevice id f).device id = (r.device id).map f := by
  rw [modifyDevice, device_map]
  · refine Option.map_congr fun device hdevice ↦ ?_
    rw [if_pos (deviceId_of_device hdevice)]
  · intro device
    split
    · exact hf device
    · rfl

theorem device_modifyDevice_of_ne {other : Uuid} (h : other ≠ id)
    (hf : ∀ device, (f device).deviceId = device.deviceId) :
    (r.modifyDevice id f).device other = r.device other := by
  rw [modifyDevice, device_map]
  · conv_rhs => rw [← Option.map_id' (x := r.device other)]
    refine Option.map_congr fun device hdevice ↦ ?_
    rw [if_neg (by rw [deviceId_of_device hdevice]; exact h)]
  · intro device
    split
    · exact hf device
    · rfl

/-- A device of the registry is the one that was loaded, with the follow-up of the one before. -/
theorem device_replace : (r.replace devices).device id = ((Registry.mk devices).device id).map
    fun device ↦ { device.resume (r.device id) with
      points := (device.resume (r.device id)).points.map fun point ↦
        point.resume (r.point point.ref.pointId) } := by
  rw [replace, device_map]
  · refine Option.map_congr fun device hdevice ↦ ?_
    rw [deviceId_of_device hdevice]
  · intro device
    rcases r.device device.deviceId <;> rfl

theorem pointId_of_point {point : PointState} (h : r.point id = some point) :
    point.ref.pointId = id :=
  of_decide_eq_true
    (List.find?_some (p := fun point : PointState ↦ decide (point.ref.pointId = id)) h)

theorem point_map {f : DeviceState → DeviceState} {g : PointState → PointState}
    (hf : ∀ device, (f device).points = device.points.map g)
    (hg : ∀ point, (g point).ref = point.ref) :
    (Registry.mk (devices.map f)).point id = ((Registry.mk devices).point id).map g := by
  have hall : (Registry.mk (devices.map f)).allPoints = (Registry.mk devices).allPoints.map g := by
    simp only [allPoints, List.flatMap_map, List.map_flatMap, hf]
  rw [point, hall, List.find?_map]
  simp only [Function.comp_def, hg]
  rfl

theorem point_modifyPoint_self {g : PointState → PointState}
    (hg : ∀ point, (g point).ref = point.ref) :
    (r.modifyPoint id g).point id = (r.point id).map g := by
  rw [modifyPoint, point_map fun _ ↦ rfl]
  · refine Option.map_congr fun point hpoint ↦ ?_
    rw [if_pos (pointId_of_point hpoint)]
  · intro point
    split
    · exact hg point
    · rfl

theorem point_modifyPoint_of_ne {g : PointState → PointState} {other : Uuid} (h : other ≠ id)
    (hg : ∀ point, (g point).ref = point.ref) :
    (r.modifyPoint id g).point other = r.point other := by
  rw [modifyPoint, point_map fun _ ↦ rfl]
  · conv_rhs => rw [← Option.map_id' (x := r.point other)]
    refine Option.map_congr fun point hpoint ↦ ?_
    rw [if_neg (by rw [pointId_of_point hpoint]; exact h)]
  · intro point
    split
    · exact hg point
    · rfl

/-- A point of the registry is the one that was loaded, with the follow-up of the one before. -/
theorem point_replace : (r.replace devices).point id =
    ((Registry.mk devices).point id).map fun point ↦ point.resume (r.point id) := by
  rw [replace, point_map (g := fun point ↦ point.resume (r.point point.ref.pointId))]
  · refine Option.map_congr fun point hpoint ↦ ?_
    rw [pointId_of_point hpoint]
  · intro device
    rcases r.device device.deviceId <;> rfl
  · intro point
    rcases r.point point.ref.pointId <;> rfl

end Registry

end Superviseur
