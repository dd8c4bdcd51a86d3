import Superviseur.Collector.Registry

/-!
# The outcome of a poll cycle

What a cycle does to the object of its device once the points have been read, or the device has not
answered. The device goes offline after a number of cycles in a row, and comes back with the first
one that succeeds; the status is then written to the database and published. A device that is and
stays online has its `last_seen` written once a minute at most.
-/

namespace Superviseur

/-- `LAST_SEEN_PERIOD_S`. -/
def lastSeenPeriodS : ℚ := 60

/-- What a poll cycle of a device is doing. -/
inductive Cycle where
  | idle
  /-- The points are read, for the object of this generation. -/
  | polling (generation : ℕ)
  /-- `set_device_status`; in `_publish_status`, the status will be announced. -/
  | writing (online : Bool) (announce : Bool)
  /-- The publication on `device.status`. -/
  | publishing (online : Bool)
  /-- The rest of the cycle, which deals with the points. -/
  | ending
  deriving DecidableEq

/-- The generation of the object a cycle reads the points of. -/
def Cycle.generation : Cycle → Option ℕ
  | polling g => some g
  | _ => none

namespace DeviceState

/-- `_on_success`, up to what it waits for. -/
def onSuccess (device : DeviceState) (now : Instant) : DeviceState × Cycle :=
  let device := { device with failures := 0, lastContact := now }
  if device.online then
    if lastSeenPeriodS ≤ now - device.lastSeenWritten then
      ({ device with lastSeenWritten := now }, .writing true false)
    else (device, .ending)
  else ({ device with online := true, lastSeenWritten := now }, .writing true true)

/-- `_on_failure`, up to what it waits for. -/
def onFailure (offlineAfterCycles : ℕ) (device : DeviceState) (now : Instant) :
    DeviceState × Cycle :=
  let device := { device with failures := device.failures + 1 }
  if device.online ∧ offlineAfterCycles ≤ device.failures then
    ({ device with online := false, lastSeenWritten := now }, .writing false true)
  else (device, .ending)

end DeviceState

end Superviseur
