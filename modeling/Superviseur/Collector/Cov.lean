import Mathlib.Algebra.Order.Ring.Rat
import Mathlib.Data.List.MinMax
import Superviseur.Collector.Poller
import Superviseur.Library.Trace

/-!
# COV subscriptions and polling

Two tasks follow the points of a device. `CovManager` passes over them at each tick, subscribes
those that are not subscribed, and renews the subscriptions that are about to expire; the poll task
reads the points that are due, rarely those under a subscription. Both change the same objects, and
the steps below are the stretches between two waits: the pass of `service` waits for the answer to
each request, a poll cycle for the readings of each batch, for the publication of the status, and
for the recording of the lost points.

Besides what the code keeps, the state has the instant until which the device holds the last
subscription of each point it has accepted, and the beginning of the last pass that reached all the
subscriptions to renew.
-/

namespace Superviseur

structure CovConfig where
  lifetimeS : ℤ
  renewBeforeS : ℤ
  safetyPollS : ℚ
  retryS : ℚ

structure PollingConfig where
  defaultIntervalS : ℚ
  batchSize : ℕ
  offlineAfterCycles : ℕ

/-- How `subscribe_cov` fails. -/
inductive DriverError where
  | deviceUnreachable
  | requestRejected (kind : String)
  | other
  deriving DecidableEq

/-- The end of a subscription that begins at `now`; a lifetime of zero is indefinite. -/
def CovConfig.expiry (cov : CovConfig) (now : Instant) : WithTop Instant :=
  if cov.lifetimeS = 0 then ⊤ else ((now + cov.lifetimeS : Instant) : WithTop Instant)

/-- `_interval`: a point under COV is polled for safety only. -/
def CovConfig.interval (cov : CovConfig) (point : PointState) : ℚ :=
  if point.covActive then cov.safetyPollS else point.pollIntervalS

namespace PointState

/-- The pass that began at `now` has nothing to ask for the point. -/
def settled (cov : CovConfig) (now : Instant) (point : PointState) : Bool :=
  if point.covActive then ((now + cov.renewBeforeS : Instant) : WithTop Instant) < point.covExpires
  else now < point.covRetryAt

/-- The subscription is accepted. -/
def subscribed (cov : CovConfig) (now : Instant) (point : PointState) : PointState :=
  { point with
    covActive := true
    covExpires := cov.expiry now
    nextDue := max point.nextDue (now + cov.safetyPollS) }

/-- The subscription is refused: the point falls back on polling. -/
def refused (cov : CovConfig) (now : Instant) (renewing : Bool) (point : PointState) : PointState :=
  { point with
    covActive := false
    covRetryAt := now + cov.retryS
    nextDue := if renewing then now else point.nextDue }

/-- The next poll comes after the interval of the point. -/
def postponed (cov : CovConfig) (now : Instant) (point : PointState) : PointState :=
  { point with nextDue := now + cov.interval point }

/-- The first poll of the point is at random within its interval. -/
def planned (cov : CovConfig) (now : Instant) (random : ℚ) (point : PointState) : PointState :=
  if point.nextDue = 0 then { point with nextDue := now + random * cov.interval point } else point

/-- The subscription is forgotten. -/
def dropped (point : PointState) : PointState := { point with covActive := false }

/-- The device is back: the point is read and subscribed again. -/
def resumed (now : Instant) (point : PointState) : PointState :=
  { point with nextDue := now, covActive := false, covRetryAt := 0 }

end PointState

namespace DeviceState

/-- `device.points[id]`. -/
def point (device : DeviceState) (id : Uuid) : Option PointState :=
  device.points.find? fun point ↦ point.ref.pointId = id

def pointIds (device : DeviceState) : List Uuid := device.points.map fun point ↦ point.ref.pointId

/-- The objects of all points change. -/
def mapPoints (device : DeviceState) (f : PointState → PointState) : DeviceState :=
  { device with points := device.points.map f }

/-- The object of a point changes. -/
def modifyPoint (device : DeviceState) (id : Uuid) (f : PointState → PointState) : DeviceState :=
  device.mapPoints fun point ↦ if point.ref.pointId = id then f point else point

/-- `_due_points`, once the first polls are planned. -/
def duePoints (polling : PollingConfig) (now : Instant) (device : DeviceState) : List PointState :=
  if device.online then
    let due := device.points.filter fun point ↦ point.nextDue ≤ now
    if due = [] ∧ polling.defaultIntervalS ≤ now - max device.lastContact device.lastAttempt then
      (device.points.argmin PointState.nextDue).toList
    else due
  else if polling.defaultIntervalS ≤ now - device.lastAttempt then device.points.take 1
  else []

end DeviceState

namespace PointState

variable (cov : CovConfig) (now : Instant) (point : PointState)

@[simp] theorem ref_subscribed : (point.subscribed cov now).ref = point.ref := rfl

@[simp] theorem ref_refused (renewing : Bool) : (point.refused cov now renewing).ref = point.ref :=
  rfl

@[simp] theorem ref_postponed : (point.postponed cov now).ref = point.ref := rfl

@[simp] theorem ref_dropped : point.dropped.ref = point.ref := rfl

@[simp] theorem ref_resumed : (point.resumed now).ref = point.ref := rfl

@[simp] theorem ref_planned (random : ℚ) : (point.planned cov now random).ref = point.ref := by
  rw [planned]
  split <;> rfl

end PointState

namespace DeviceState

variable {device : DeviceState} {id other : Uuid} {p : PointState} {f : PointState → PointState}

theorem mem_of_point (h : device.point id = some p) : p ∈ device.points :=
  List.mem_of_find?_eq_some h

theorem pointId_of_point (h : device.point id = some p) : p.ref.pointId = id := by
  simpa using List.find?_some h

theorem mem_pointIds (h : device.point id = some p) : id ∈ device.pointIds :=
  List.mem_map.mpr ⟨p, mem_of_point h, pointId_of_point h⟩

theorem point_mapPoints (hf : ∀ p, (f p).ref = p.ref) :
    (device.mapPoints f).point id = (device.point id).map f := by
  rw [point, mapPoints, List.find?_map]
  simp only [Function.comp_def, hf]
  rfl

theorem point_modifyPoint_self (hf : ∀ p, (f p).ref = p.ref) :
    (device.modifyPoint id f).point id = (device.point id).map f := by
  rw [modifyPoint, point_mapPoints]
  · refine Option.map_congr fun p hp ↦ ?_
    rw [if_pos (pointId_of_point hp)]
  · intro p
    split
    · exact hf p
    · rfl

theorem point_modifyPoint_of_ne (h : other ≠ id) (hf : ∀ p, (f p).ref = p.ref) :
    (device.modifyPoint id f).point other = device.point other := by
  rw [modifyPoint, point_mapPoints]
  · conv_rhs => rw [← Option.map_id' (x := device.point other)]
    refine Option.map_congr fun p hp ↦ ?_
    rw [if_neg (by rw [pointId_of_point hp]; exact h)]
  · intro p
    split
    · exact hf p
    · rfl

theorem of_point_modifyPoint (hf : ∀ p, (f p).ref = p.ref) {p : PointState}
    (hp : (device.modifyPoint id f).point other = some p) :
    (other = id ∧ ∃ old, device.point id = some old ∧ f old = p) ∨
      (other ≠ id ∧ device.point other = some p) := by
  by_cases hid : other = id
  · subst hid
    rw [point_modifyPoint_self hf] at hp
    exact .inl ⟨rfl, Option.map_eq_some_iff.mp hp⟩
  · rw [point_modifyPoint_of_ne hid hf] at hp
    exact .inr ⟨hid, hp⟩

end DeviceState

/-- `_chunks`; a size of zero is an error, before anything is read. -/
def chunks (size : ℕ) (items : List Uuid) : List (List Uuid) :=
  if size = 0 then [] else items.toChunks size

/-- What `CovManager` is doing with the device. -/
inductive Pass where
  | idle
  /-- The device is one of those `run` will serve. -/
  | selected
  /-- `service` began at `now`, and has these points before it. -/
  | serving (now : Instant) (left : List Uuid)
  /-- `subscribe_cov` was called at `sent` for the point. -/
  | asking (now : Instant) (id : Uuid) (renewing : Bool) (sent : Instant) (left : List Uuid)
  deriving DecidableEq

/-- When `service` has begun. -/
def Pass.now : Pass → Option Instant
  | idle | selected => none
  | serving now _ | asking now .. => some now

/-- The points that `service` is not through with. -/
def Pass.left : Pass → List Uuid
  | idle | selected => []
  | serving _ left => left
  | asking _ id _ _ left => id :: left

/-- What the poll task is doing. -/
inductive Polling where
  | idle
  /-- The first of these batches is read, in a cycle that began at `now`. -/
  | reading (now : Instant) (chunks : List (List Uuid))
  /-- `_publish_status`, in `_on_failure`. -/
  | goingOffline (now : Instant)
  /-- `_on_failure` has these points to record as lost. -/
  | losing (now : Instant) (lost : List Uuid)
  /-- `_publish_status`, in `_on_success`. -/
  | comingBack
  deriving DecidableEq

/-- When the cycle has begun, or failed. -/
def Polling.now : Polling → Option Instant
  | reading now _ | goingOffline now | losing now _ => some now
  | idle | comingBack => none

def Polling.isGoingOffline : Polling → Bool
  | goingOffline _ => true
  | idle | reading .. | losing .. | comingBack => false

/-- A device under the two tasks. -/
structure Coverage where
  clock : Instant
  device : DeviceState
  pass : Pass
  polling : Polling
  /-- The end of the last subscription the device has accepted, for each point. -/
  expiry : Uuid → WithTop Instant
  /-- The beginning of the last pass that left no subscription to renew, or began with none. -/
  attended : Instant

namespace Coverage

inductive Event where
  /-- Time goes on. -/
  | tick (t : Instant)
  /-- `CovManager.run` chooses the devices to serve. -/
  | select
  /-- `service` begins. -/
  | service
  /-- `service` goes on to the next point, or ends. -/
  | visit
  /-- `subscribe_cov` returns, the device having accepted the subscription at this instant. -/
  | accepted (instant : Instant)
  /-- `subscribe_cov` raises. -/
  | refused (error : DriverError)
  /-- The poll task looks for what is due; the first polls are drawn at random. -/
  | poll (random : Uuid → ℚ)
  /-- The batch is read, or its reading refused; its readings are recorded. -/
  | read
  /-- The device has not answered to the reading of the batch. -/
  | unreachable
  /-- `_publish_status` returns. -/
  | published
  /-- `_on_failure` has recorded a point as lost, or ends. -/
  | lose
  /-- A reading of the device is recorded. -/
  | contact

variable (cov : CovConfig) (polling : PollingConfig)

/-- No point has a subscription. -/
def Unsubscribed (s : Coverage) : Prop := ∀ point ∈ s.device.points, point.covActive = false

/-- None of these points has a subscription that the pass begun at `now` has to renew. -/
def NoneToRenew (s : Coverage) (now : Instant) (ids : List Uuid) : Prop :=
  ∀ id ∈ ids, ∀ point ∈ s.device.point id,
    point.covActive = true → point.settled cov now = true

instance (s : Coverage) : Decidable s.Unsubscribed :=
  inferInstanceAs (Decidable (∀ point ∈ s.device.points, _))

instance (s : Coverage) (now : Instant) (ids : List Uuid) : Decidable (s.NoneToRenew cov now ids) :=
  inferInstanceAs (Decidable (∀ id ∈ ids, ∀ point ∈ s.device.point id, _ → _))

/-- The pass that began at `now` ends, without having reached the points `left`. -/
def endPass (s : Coverage) (now : Instant) (left : List Uuid) : Coverage :=
  { s with
    pass := .idle
    attended := if s.NoneToRenew cov now left then now else s.attended }

/-- The pass goes on, the next point being `id`. -/
def visit (s : Coverage) (now : Instant) (id : Uuid) (left : List Uuid) : Coverage :=
  match s.device.point id with
  | none => { s with pass := .serving now left }
  | some point =>
    if ¬point.covCapable then { s with pass := .serving now left }
    else if point.settled cov now then { s with pass := .serving now left }
    else { s with pass := .asking now id point.covActive s.clock left }

/-- `subscribe_cov` has raised for the point `id`. -/
def refuse (s : Coverage) (error : DriverError) (now : Instant) (id : Uuid) (renewing : Bool)
    (left : List Uuid) : Coverage :=
  let device := s.device.modifyPoint id (PointState.refused cov now renewing)
  if error = .deviceUnreachable then s.endPass cov now (id :: left)
  else if error = .requestRejected "reject" then
    { s with device := { device with supportsCov := false } }.endPass cov now left
  else { s with pass := .serving now left, device := device }

/-- The end of a cycle whose last batch is read. -/
def succeed (s : Coverage) : Coverage :=
  let outcome := s.device.onSuccess s.clock
  { s with
    device := outcome.1
    polling := if outcome.2 = .writing true true then .comingBack else .idle }

/-- The end of a cycle in which the device did not answer; `lost` was not read. -/
def fail (s : Coverage) (lost : List Uuid) : Coverage :=
  let outcome := s.device.onFailure polling.offlineAfterCycles s.clock
  { s with
    device := outcome.1
    polling := if outcome.2 = .writing false true then .goingOffline s.clock
      else .losing s.clock lost }

/-- One step, where it is possible. -/
def next (s : Coverage) : Event → Option Coverage
  | .tick t => if s.clock ≤ t then some { s with clock := t } else none
  | .select => match s.pass with
    | .idle => if s.device.supportsCov ∧ s.device.online then some { s with pass := .selected }
      else none
    | _ => none
  | .service => match s.pass with
    | .selected => some { s with
        pass := .serving s.clock s.device.pointIds
        attended := if s.Unsubscribed then s.clock else s.attended }
    | _ => none
  | .visit => match s.pass with
    | .serving now (id :: left) => some (s.visit cov now id left)
    | .serving now [] => some (s.endPass cov now [])
    | _ => none
  | .accepted instant => match s.pass with
    | .asking now id _ sent left =>
      if sent ≤ instant ∧ instant ≤ s.clock then some { s with
        pass := .serving now left
        device := s.device.modifyPoint id (PointState.subscribed cov now)
        expiry := Function.update s.expiry id (cov.expiry instant) }
      else none
    | _ => none
  | .refused error => match s.pass with
    | .asking now id renewing _ left => some (s.refuse cov error now id renewing left)
    | _ => none
  | .poll random => match s.polling with
    | .idle =>
      if ∀ point ∈ s.device.points, 0 ≤ random point.ref.pointId ∧ random point.ref.pointId < 1 then
        let device := s.device.mapPoints fun point ↦
          point.planned cov s.clock (random point.ref.pointId)
        match device.duePoints polling s.clock with
        | [] => some { s with device := device }
        | due =>
          let batches := chunks polling.batchSize (due.map fun point ↦ point.ref.pointId)
          some { s with
            device := { device with lastAttempt := s.clock }
            polling := if batches = [] then .idle else .reading s.clock batches }
      else none
    | _ => none
  | .read => match s.polling with
    | .reading now (chunk :: rest) =>
      let s := { s with device := s.device.mapPoints fun point ↦
        if point.ref.pointId ∈ chunk then point.postponed cov now else point }
      some (if rest = [] then s.succeed else { s with polling := .reading now rest })
    | _ => none
  | .unreachable => match s.polling with
    | .reading _ rest => some (s.fail polling rest.flatten)
    | _ => none
  | .published => match s.polling with
    | .goingOffline now => some { s with
        device := s.device.mapPoints PointState.dropped
        polling := .losing now s.device.pointIds }
    | .comingBack => some { s with
        device := s.device.mapPoints (PointState.resumed s.clock)
        polling := .idle }
    | _ => none
  | .lose => match s.polling with
    | .losing now (id :: lost) => some { s with
        device := s.device.modifyPoint id (PointState.postponed cov now)
        polling := .losing now lost }
    | .losing _ [] => some { s with polling := .idle }
    | _ => none
  | .contact => some { s with device := { s.device with lastContact := s.clock } }

/-- The device as it is loaded: its points have no follow-up yet. -/
structure Loaded (s : Coverage) : Prop where
  clock : 0 ≤ s.clock
  attended : s.attended ≤ s.clock
  pass : s.pass = .idle
  polling : s.polling = .idle
  points : ∀ point ∈ s.device.points, point.covActive = false ∧ point.nextDue = 0

end Coverage

end Superviseur
