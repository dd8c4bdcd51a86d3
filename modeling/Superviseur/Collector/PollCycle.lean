import Superviseur.Collector.Cov
import Superviseur.Collector.Recorder

/-!
# A poll cycle from one end to the other

`_poll_cycle` reads the points that are due batch after batch, until one is left without an answer.
A batch the device refuses to read is an answer: its points are in fault. What is done next depends
on whether a batch was left without an answer, whatever the batches before it gave.

The cycle is taken here as one step, whose result depends on what the driver returns. The rest of
the collector works between two cycles.
-/

namespace Superviseur

/-- What `driver.read` returns, or raises. -/
inductive ReadOutcome where
  | readings (readings : List Reading)
  /-- `DriverError`: the device refuses the reading. -/
  | refused
  /-- `DeviceUnreachable`. -/
  | unreachable
  deriving DecidableEq

/-- The reading of a batch: what it gives, and when. -/
structure BatchRead where
  instant : Instant
  outcome : ReadOutcome

/-- What a cycle is given: the points to read, what the driver returns for each batch, and the
clock, which the end of the cycle takes as constant. -/
structure PollCycle where
  now : Instant
  points : List Uuid
  read : List Uuid → BatchRead
  ended : Instant

/-- A device, with the last reading of each of its points the recorder was given. -/
structure Polled where
  device : DeviceState
  latest : Uuid → Option Reading

/-- `comm_lost_reading`. -/
def commLostReading (now : Instant) (id : Uuid) : Reading := ⟨id, now, none, .commLost⟩

/-- The reading of a point the device refuses to read. -/
def faultReading (now : Instant) (id : Uuid) : Reading := ⟨id, now, none, .fault⟩

/-- The rules of the history, applied to a reading of the point. -/
def PointState.track (point : PointState) (reading : Reading) : PointState :=
  if shouldStore point reading then point.store reading else point

namespace Polled

variable (cov : CovConfig) (polling : PollingConfig)

/-- `recorder.handle`, for what it does to the device; a reading of a point of another device does
nothing to this one. -/
def handle (now : Instant) (s : Polled) (reading : Reading) : Polled :=
  if reading.pointId ∈ s.device.pointIds then
    let device := if reading.status ≠ .commLost then { s.device with lastContact := now }
      else s.device
    { device := device.modifyPoint reading.pointId fun point ↦ point.track reading
      latest := Function.update s.latest reading.pointId (some reading) }
  else s

/-- The points of a batch that was read wait for their interval. -/
def postpone (now : Instant) (ids : List Uuid) (s : Polled) : Polled :=
  { s with device := s.device.mapPoints fun point ↦
      if point.ref.pointId ∈ ids then point.postponed cov now else point }

/-- A batch has answered. -/
def answered (now instant : Instant) (batch : List Uuid) (readings : List Reading) (s : Polled) :
    Polled :=
  (readings.foldl (handle instant) s).postpone cov now batch

/-- The batches of a cycle that began at `now`, with the points left to read when one of them is
left without an answer. -/
def readBatches (now : Instant) (read : List Uuid → BatchRead) :
    Polled → List (List Uuid) → Polled × Option (List Uuid)
  | s, [] => (s, none)
  | s, batch :: batches =>
    match (read batch).outcome with
    | .unreachable => (s, some (batch :: batches).flatten)
    | .refused => readBatches now read (s.answered cov now (read batch).instant batch
        (batch.map (faultReading (read batch).instant))) batches
    | .readings readings => readBatches now read
        (s.answered cov now (read batch).instant batch readings) batches

/-- A point is recorded as lost. -/
def lose (now : Instant) (s : Polled) (id : Uuid) : Polled :=
  let s := s.handle now (commLostReading now id)
  { s with device := s.device.modifyPoint id (PointState.postponed cov now) }

/-- `_on_failure`; the points were not read. -/
def onFailure (now : Instant) (points : List Uuid) (s : Polled) : Polled :=
  let outcome := s.device.onFailure polling.offlineAfterCycles now
  if outcome.2 = .writing false true then
    let s := { s with device := outcome.1.mapPoints PointState.dropped }
    s.device.pointIds.foldl (lose cov now) s
  else points.foldl (lose cov now) { s with device := outcome.1 }

/-- `_on_success`. -/
def onSuccess (now : Instant) (s : Polled) : Polled :=
  let outcome := s.device.onSuccess now
  { s with
    device := if outcome.2 = .writing true true then outcome.1.mapPoints (PointState.resumed now)
      else outcome.1 }

/-- A cycle begins. -/
def attempt (now : Instant) (s : Polled) : Polled :=
  { s with device := { s.device with lastAttempt := now } }

/-- `_poll_cycle`. -/
def pollCycle (s : Polled) (c : PollCycle) : Polled :=
  let batches := chunks polling.batchSize c.points
  match readBatches cov c.now c.read (s.attempt c.now) batches with
  | (s, some lost) => s.onFailure cov polling c.ended lost
  | (s, none) => if batches = [] then s else s.onSuccess c.ended

end Polled

/-! ## What a cycle keeps -/

/-- The device is known by the same points, and no step was taken on whether it answers. -/
structure DeviceState.SameStatus (device device' : DeviceState) : Prop where
  failures : device'.failures = device.failures
  online : device'.online = device.online
  lastAttempt : device'.lastAttempt = device.lastAttempt
  pointIds : device'.pointIds = device.pointIds

namespace DeviceState

variable {device device' device'' : DeviceState} {f : PointState → PointState} {id : Uuid}

theorem SameStatus.refl (device : DeviceState) : device.SameStatus device := ⟨rfl, rfl, rfl, rfl⟩

theorem SameStatus.trans (h : device.SameStatus device') (h' : device'.SameStatus device'') :
    device.SameStatus device'' where
  failures := h'.failures.trans h.failures
  online := h'.online.trans h.online
  lastAttempt := h'.lastAttempt.trans h.lastAttempt
  pointIds := h'.pointIds.trans h.pointIds

theorem pointIds_mapPoints (hf : ∀ point, (f point).ref = point.ref) :
    (device.mapPoints f).pointIds = device.pointIds := by
  rw [pointIds, mapPoints, pointIds, List.map_map]
  refine List.map_congr_left fun point _ ↦ ?_
  rw [Function.comp_apply, hf]

theorem sameStatus_mapPoints (hf : ∀ point, (f point).ref = point.ref) :
    device.SameStatus (device.mapPoints f) :=
  ⟨rfl, rfl, rfl, pointIds_mapPoints hf⟩

theorem sameStatus_modifyPoint (hf : ∀ point, (f point).ref = point.ref) :
    device.SameStatus (device.modifyPoint id f) := by
  refine sameStatus_mapPoints fun point ↦ ?_
  split
  · exact hf point
  · rfl

end DeviceState

@[simp] theorem PointState.ref_track (point : PointState) (reading : Reading) :
    (point.track reading).ref = point.ref := by
  rw [track]
  split <;> rfl

@[simp] theorem PointState.covActive_track (point : PointState) (reading : Reading) :
    (point.track reading).covActive = point.covActive := by
  rw [track]
  split <;> rfl

namespace Polled

variable {cov : CovConfig} {polling : PollingConfig} {now : Instant} {s : Polled}

theorem sameStatus_handle (reading : Reading) :
    s.device.SameStatus (s.handle now reading).device := by
  rw [handle]
  split
  · refine DeviceState.SameStatus.trans ?_ (DeviceState.sameStatus_modifyPoint
      fun point ↦ point.ref_track reading)
    split
    · exact ⟨rfl, rfl, rfl, rfl⟩
    · exact .refl _
  · exact .refl _

theorem sameStatus_foldl {α : Type} {step : Polled → α → Polled}
    (hstep : ∀ (s : Polled) (a : α), s.device.SameStatus (step s a).device) (as : List α)
    (s : Polled) :
    s.device.SameStatus (as.foldl step s).device := by
  induction as generalizing s with
  | nil => exact .refl _
  | cons a as ih => exact (hstep s a).trans (ih (step s a))

theorem sameStatus_answered (instant : Instant) (batch : List Uuid) (readings : List Reading) :
    s.device.SameStatus (s.answered cov now instant batch readings).device := by
  have hreadings : s.device.SameStatus (readings.foldl (handle instant) s).device :=
    sameStatus_foldl (fun _ ↦ sameStatus_handle) readings s
  refine hreadings.trans ?_
  refine DeviceState.sameStatus_mapPoints fun point ↦ ?_
  split
  · exact point.ref_postponed cov now
  · rfl

theorem sameStatus_readBatches (cov : CovConfig) (now : Instant) (read : List Uuid → BatchRead)
    (batches : List (List Uuid)) (s : Polled) :
    s.device.SameStatus (readBatches cov now read s batches).1.device := by
  induction batches generalizing s with
  | nil => exact .refl _
  | cons batch batches ih =>
    rw [readBatches]
    split
    · exact .refl _
    · exact (sameStatus_answered _ _ _).trans (ih _)
    · exact (sameStatus_answered _ _ _).trans (ih _)

theorem sameStatus_lose (id : Uuid) : s.device.SameStatus (s.lose cov now id).device :=
  (sameStatus_handle _).trans
    (DeviceState.sameStatus_modifyPoint fun point ↦ point.ref_postponed cov now)

/-- A batch is left without an answer: the points from it on are left to read. -/
theorem readBatches_snd (cov : CovConfig) (now : Instant) (read : List Uuid → BatchRead)
    (batches : List (List Uuid)) (s : Polled) :
    (readBatches cov now read s batches).2 =
      if ∃ batch ∈ batches, (read batch).outcome = .unreachable then
        some (batches.dropWhile fun batch ↦ (read batch).outcome ≠ .unreachable).flatten
      else none := by
  induction batches generalizing s with
  | nil => simp [readBatches]
  | cons batch batches ih =>
    rw [readBatches]
    split <;> rename_i houtcome <;> simp [houtcome, ih]

/-! ## Points recorded as lost -/

/-- The point was recorded as lost, and is not under a subscription. -/
def Lost (s : Polled) (point : PointState) : Prop :=
  point.covActive = false ∧
    ∃ reading ∈ s.latest point.ref.pointId, reading.status = .commLost ∧ reading.value = none

theorem latest_handle (reading : Reading) (id : Uuid) : (s.handle now reading).latest id =
    if id = reading.pointId ∧ reading.pointId ∈ s.device.pointIds then some reading
    else s.latest id := by
  rw [handle]
  by_cases hreading : reading.pointId ∈ s.device.pointIds
  · rw [if_pos hreading]
    have hupdate := Function.update_apply s.latest reading.pointId (some reading) id
    exact hupdate.trans (if_congr (and_iff_left hreading).symm rfl rfl)
  · rw [if_neg hreading, if_neg fun h ↦ hreading h.2]

theorem latest_lose (id other : Uuid) : (s.lose cov now id).latest other =
    if other = id ∧ id ∈ s.device.pointIds then some (commLostReading now id)
    else s.latest other :=
  latest_handle (commLostReading now id) other

theorem latest_foldl_lose {id : Uuid} (ids : List Uuid) (s : Polled)
    (h : id ∈ s.device.pointIds)
    (hids : id ∈ ids ∨ s.latest id = some (commLostReading now id)) :
    (ids.foldl (lose cov now) s).latest id = some (commLostReading now id) := by
  induction ids generalizing s with
  | nil => exact hids.resolve_left List.not_mem_nil
  | cons other ids ih =>
    refine ih (s.lose cov now other) ?_ ?_
    · rw [(sameStatus_lose other).pointIds]
      exact h
    · rw [latest_lose]
      by_cases heq : id = other
      · rw [if_pos ⟨heq, heq ▸ h⟩, heq]
        exact Or.inr rfl
      · rw [if_neg fun hand ↦ heq hand.1]
        rw [List.mem_cons] at hids
        exact hids.imp_left fun hmem ↦ hmem.resolve_left heq

theorem covActive_lose (id : Uuid) (h : ∀ point ∈ s.device.points, point.covActive = false) :
    ∀ point ∈ (s.lose cov now id).device.points, point.covActive = false := by
  have hhandle : ∀ point ∈ (s.handle now (commLostReading now id)).device.points,
      point.covActive = false := by
    rw [handle]
    split
    · intro point hpoint
      obtain ⟨old, hold, rfl⟩ := List.mem_map.mp hpoint
      have hcov := h old hold
      split
      · rw [PointState.covActive_track]
        exact hcov
      · exact hcov
    · exact h
  intro point hpoint
  obtain ⟨old, hold, rfl⟩ := List.mem_map.mp hpoint
  have hcov := hhandle old hold
  split <;> exact hcov

theorem covActive_foldl_lose (ids : List Uuid) (s : Polled)
    (h : ∀ point ∈ s.device.points, point.covActive = false) :
    ∀ point ∈ (ids.foldl (lose cov now) s).device.points, point.covActive = false := by
  induction ids generalizing s with
  | nil => exact h
  | cons id ids ih => exact ih _ (covActive_lose id h)

end Polled

end Superviseur
