import Superviseur.Collector.Store
import Superviseur.Library.Objects
import Superviseur.Library.OrderedDict

/-!
# The objects of the registry

The registry refers to objects: a `DeviceState` has a dictionary of `PointState`s, each of which
refers back to it, and `replace` changes the objects that were loaded before it indexes them. Here
the objects are in a heap, and the loops of `replace` write them field by field. What the object of
a point takes over is read in the old index of the points, so that it does not matter under which
device it was listed.

`replaced_replace` says what the loops leave, for every heap and every registry: they write no
object but those that were loaded, each of them once. `registry_replace` connects the heap with the
registry of values that the rest of the collector is modelled on.
-/

namespace Superviseur

/-- Where an object is. -/
abbrev Addr := ℕ

/-- A `PointState`, with the members that refer to others. -/
structure PointObject extends PointState where
  name : String
  device : Option Addr

/-- A `DeviceState`. -/
structure DeviceObject where
  deviceId : Uuid
  deviceInstance : ℤ
  address : String
  name : String
  supportsCov : Bool
  online : Bool
  points : OrderedDict Uuid Addr
  failures : ℕ
  lastContact : Instant
  lastAttempt : Instant
  lastSeenWritten : Instant

structure Heap where
  device : Addr → DeviceObject
  point : Addr → PointObject

/-- The `Registry`: its two indexes. -/
structure Indexes where
  devices : OrderedDict Uuid Addr
  points : OrderedDict Uuid Addr

namespace Heap

def modifyDevice (h : Heap) (a : Addr) (f : DeviceObject → DeviceObject) : Heap :=
  { h with device := Function.update h.device a (f (h.device a)) }

def modifyPoint (h : Heap) (p : Addr) (f : PointObject → PointObject) : Heap :=
  { h with point := Function.update h.point p (f (h.point p)) }

end Heap

/-! ## Replacement -/

/-- The assignments for a device that was known. -/
def DeviceObject.resume (device : DeviceObject) : Option DeviceObject → DeviceObject
  | none => device
  | some previous => { device with
      failures := previous.failures
      lastContact := previous.lastContact
      lastAttempt := previous.lastAttempt
      lastSeenWritten := previous.lastSeenWritten
      online := previous.online }

/-- The assignments for a point that was known. -/
def PointObject.resume (point : PointObject) (old : Option PointObject) : PointObject :=
  { point with toPointState := point.toPointState.resume (old.map PointObject.toPointState) }

namespace Indexes

/-- `Registry()`. -/
def init : Indexes := ⟨.empty, .empty⟩

/-- `point`. -/
def point (r : Indexes) (id : Uuid) : Option Addr := r.points.get? id

/-- One turn of the inner loop, for a point of `device`. -/
def replacePoint (r : Indexes) (device : Addr) (h : Heap) (entry : Uuid × Addr) : Heap :=
  let h := h.modifyPoint entry.2 fun point ↦ { point with device := some device }
  let old := (r.points.get? entry.1).map h.point
  h.modifyPoint entry.2 fun point ↦ point.resume old

/-- One turn of the outer loop. -/
def replaceDevice (r : Indexes) (h : Heap) (device : Addr) : Heap :=
  let previous := (r.devices.get? (h.device device).deviceId).map h.device
  let h := h.modifyDevice device fun device ↦ device.resume previous
  (h.device device).points.entries.foldl (r.replacePoint device) h

/-- `replace`. -/
def replace (r : Indexes) (h : Heap) (devices : List Addr) : Indexes × Heap :=
  let h := devices.foldl r.replaceDevice h
  ({ devices := .ofList (devices.map fun device ↦ ((h.device device).deviceId, device))
     points := .ofList (devices.flatMap fun device ↦ (h.device device).points.entries) }, h)

end Indexes

/-! ## What is preserved -/

/-- The follow-up of a device. -/
structure DeviceTracking where
  failures : ℕ
  lastContact : Instant
  lastAttempt : Instant
  lastSeenWritten : Instant
  online : Bool

/-- What is configured for a device. -/
structure DeviceConfig where
  deviceId : Uuid
  deviceInstance : ℤ
  address : String
  name : String
  supportsCov : Bool
  points : OrderedDict Uuid Addr

/-- The follow-up of a point. -/
structure PointTracking where
  nextDue : Instant
  covActive : Bool
  covExpires : WithTop Instant
  covRetryAt : Instant
  stored : Bool
  storedValue : Option PyFloat
  storedStatus : Option PointStatus
  storedTs : Option Instant

/-- What is configured for a point. -/
structure PointConfig where
  ref : PointRef
  name : String
  path : Option String
  deadband : PyFloat
  maxIntervalS : ℤ
  pollIntervalS : ℚ
  covCapable : Bool

namespace DeviceObject

def tracking (d : DeviceObject) : DeviceTracking :=
  ⟨d.failures, d.lastContact, d.lastAttempt, d.lastSeenWritten, d.online⟩

def config (d : DeviceObject) : DeviceConfig :=
  ⟨d.deviceId, d.deviceInstance, d.address, d.name, d.supportsCov, d.points⟩

theorem config_resume (d : DeviceObject) (previous : Option DeviceObject) :
    (d.resume previous).config = d.config := by
  rcases previous with - | previous <;> rfl

end DeviceObject

namespace PointObject

def tracking (p : PointObject) : PointTracking :=
  ⟨p.nextDue, p.covActive, p.covExpires, p.covRetryAt, p.stored, p.storedValue, p.storedStatus,
    p.storedTs⟩

def config (p : PointObject) : PointConfig :=
  ⟨p.ref, p.name, p.path, p.deadband, p.maxIntervalS, p.pollIntervalS, p.covCapable⟩

theorem config_resume (p : PointObject) (old : Option PointObject) :
    (p.resume old).config = p.config := by
  rcases old with - | old <;> rfl

end PointObject

/-- The indexes agree: a device is under its identifier, its points are in the index of the points
and refer back to it, and the index has no other points. -/
structure Indexes.Consistent (h : Heap) (r : Indexes) : Prop where
  deviceId : ∀ {id a}, r.devices.get? id = some a → (h.device a).deviceId = id
  indexed : ∀ {id a pointId p}, r.devices.get? id = some a →
    (h.device a).points.get? pointId = some p → r.point pointId = some p
  back : ∀ {id a pointId p}, r.devices.get? id = some a →
    (h.device a).points.get? pointId = some p → (h.point p).device = some a
  listed : ∀ {pointId p}, r.point pointId = some p →
    ∃ id a, r.devices.get? id = some a ∧ (h.device a).points.get? pointId = some p

/-- The entries of the dictionaries of the devices, one after the other. -/
def Heap.pointEntries (h : Heap) (devices : List Addr) : List (Uuid × Addr) :=
  devices.flatMap fun a ↦ (h.device a).points.entries

/-- Devices that were just loaded: distinct identifiers, and objects of their own, none of which the
registry has. -/
structure Indexes.Loaded (h : Heap) (r : Indexes) (devices : List Addr) : Prop where
  ids : (devices.map fun a ↦ (h.device a).deviceId).Nodup
  pointIds : ((h.pointEntries devices).map Prod.fst).Nodup
  pointObjects : ((h.pointEntries devices).map Prod.snd).Nodup
  newDevices : ∀ {id a}, r.devices.get? id = some a → a ∉ devices
  newPoints : ∀ {id p}, r.points.get? id = some p → p ∉ (h.pointEntries devices).map Prod.snd

/-- What `replace` leaves: indexes `r'` and heap `h'`. -/
structure Indexes.Replaced (h : Heap) (r : Indexes) (devices : List Addr) (r' : Indexes)
    (h' : Heap) : Prop where
  /-- The indexes have what was loaded and nothing else. -/
  devices_eq : r'.devices.entries = devices.map fun a ↦ ((h.device a).deviceId, a)
  points_eq : r'.points.entries = h.pointEntries devices
  consistent : Consistent h' r'
  /-- The configuration is that of the new objects. -/
  deviceConfig : ∀ a ∈ devices, (h'.device a).config = (h.device a).config
  pointConfig : ∀ e ∈ h.pointEntries devices, (h'.point e.2).config = (h.point e.2).config
  /-- The follow-up is that of the old ones, where there are. -/
  deviceTracking : ∀ a ∈ devices, ∀ b, r.devices.get? (h.device a).deviceId = some b →
    (h'.device a).tracking = (h.device b).tracking
  pointTracking : ∀ e ∈ h.pointEntries devices, ∀ q, r.point e.1 = some q →
    (h'.point e.2).tracking = (h.point q).tracking
  deviceTracking_new : ∀ a ∈ devices, r.devices.get? (h.device a).deviceId = none →
    (h'.device a).tracking = (h.device a).tracking
  pointTracking_new : ∀ e ∈ h.pointEntries devices, r.point e.1 = none →
    (h'.point e.2).tracking = (h.point e.2).tracking
  /-- What is not listed any more is not found, and no old object is. -/
  device_unlisted : ∀ id, id ∉ devices.map (fun a ↦ (h.device a).deviceId) →
    r'.devices.get? id = none
  point_unlisted : ∀ id, id ∉ (h.pointEntries devices).map Prod.fst → r'.point id = none
  device_old : ∀ {id b}, r.devices.get? id = some b → ∀ id', r'.devices.get? id' ≠ some b
  point_old : ∀ {id q}, r.point id = some q → ∀ id', r'.point id' ≠ some q

/-! ## What a turn of a loop writes -/

namespace Indexes

section Loops

variable {r : Indexes} {h s : Heap} {a b p : Addr} {e : Uuid × Addr} {devices : List Addr}

/-- The object of a point, under device `a`, once it took over what `old` has. -/
def attached (a : Addr) (point : PointObject) (old : Option PointObject) : PointObject :=
  PointObject.resume { point with device := some a } old

theorem point_replacePoint_self (hnew : ∀ q, r.points.get? e.1 = some q → q ≠ e.2) :
    (r.replacePoint a h e).point e.2 =
      attached a (h.point e.2) ((r.points.get? e.1).map h.point) := by
  have hold : (r.points.get? e.1).map
      (h.modifyPoint e.2 fun point ↦ { point with device := some a }).point =
      (r.points.get? e.1).map h.point :=
    Option.map_congr fun q hq ↦ Function.update_of_ne (hnew q hq) ..
  rw [replacePoint, hold]
  simp only [Heap.modifyPoint, Function.update_self]
  rfl

theorem frame_replacePoint (r : Indexes) (a : Addr) : Objects.Frame (fun _ ↦ True) Heap.point
    (r.replacePoint a) fun e p ↦ p = e.2 where
  keeps _ _ _ := trivial
  unwritten s e p _ hne := by
    rw [replacePoint]
    simp only [Heap.modifyPoint, Function.update_of_ne hne]

theorem device_foldl_replacePoint (r : Indexes) (a : Addr) (es : List (Uuid × Addr)) (h : Heap) :
    (es.foldl (r.replacePoint a) h).device = h.device := by
  induction es generalizing h with
  | nil => rfl
  | cons e es ih => exact ih _

theorem device_replaceDevice (r : Indexes) (h : Heap) (a : Addr) :
    (r.replaceDevice h a).device = Function.update h.device a ((h.device a).resume
      ((r.devices.get? (h.device a).deviceId).map h.device)) := by
  rw [replaceDevice, device_foldl_replacePoint]
  rfl

theorem point_replaceDevice (r : Indexes) (h : Heap) (a : Addr) : (r.replaceDevice h a).point =
    ((h.device a).points.entries.foldl (r.replacePoint a) (h.modifyDevice a fun device ↦
      device.resume ((r.devices.get? (h.device a).deviceId).map h.device))).point := by
  have hpoints : ∀ previous, ((h.device a).resume previous).points = (h.device a).points := by
    rintro (- | previous) <;> rfl
  rw [replaceDevice]
  simp only [Heap.modifyDevice, Function.update_self, hpoints]

/-- The devices are configured as they were. -/
def SameConfig (h s : Heap) : Prop := ∀ a, (s.device a).config = (h.device a).config

theorem SameConfig.points (hs : SameConfig h s) (a : Addr) :
    (s.device a).points = (h.device a).points :=
  congrArg DeviceConfig.points (hs a)

theorem SameConfig.deviceId (hs : SameConfig h s) (a : Addr) :
    (s.device a).deviceId = (h.device a).deviceId :=
  congrArg DeviceConfig.deviceId (hs a)

theorem SameConfig.replaceDevice (hs : SameConfig h s) (r : Indexes) (a : Addr) :
    SameConfig h (r.replaceDevice s a) := by
  intro b
  rw [device_replaceDevice]
  by_cases hb : b = a
  · subst hb
    rw [Function.update_self, DeviceObject.config_resume, hs b]
  · rw [Function.update_of_ne hb, hs b]

theorem frame_device (h : Heap) (r : Indexes) : Objects.Frame (SameConfig h) Heap.device
    r.replaceDevice fun a b ↦ b = a where
  keeps _ a hs := hs.replaceDevice r a
  unwritten s a b _ hne := by rw [device_replaceDevice, Function.update_of_ne hne]

theorem frame_point (h : Heap) (r : Indexes) : Objects.Frame (SameConfig h) Heap.point
    r.replaceDevice fun a p ↦ p ∈ (h.device a).points.entries.map Prod.snd where
  keeps _ a hs := hs.replaceDevice r a
  unwritten s a p hs hp := by
    rw [point_replaceDevice, hs.points a, (frame_replacePoint r a).foldl_unwritten trivial]
    · rfl
    · rintro e he rfl
      exact hp (List.mem_map_of_mem he)

/-! ## What the loops leave -/

variable (hloaded : Loaded h r devices)
include hloaded

theorem device_replace (ha : a ∈ devices) : (r.replace h devices).2.device a =
    (h.device a).resume ((r.devices.get? (h.device a).deviceId).map h.device) := by
  have hnodup : devices.Nodup := List.Nodup.of_map _ hloaded.ids
  have hdisjoint : devices.Pairwise fun a b ↦ ∀ c, c = a → ¬ c = b :=
    hnodup.imp fun hne c hca hcb ↦ hne (hca.symm.trans hcb)
  obtain ⟨t, ht, hread, hwritten⟩ := (frame_device h r).foldl_written (s := h) (fun _ ↦ rfl)
    hdisjoint ha rfl
  have hself : t.device a = h.device a := hread a fun _ _ _ ↦ rfl
  -- the devices that were known are not among those that the loop writes
  have hold : (r.devices.get? (h.device a).deviceId).map t.device =
      (r.devices.get? (h.device a).deviceId).map h.device := by
    refine Option.map_congr fun b hb ↦ hread b fun c hc hbc ↦ ?_
    rw [hbc] at hb
    exact absurd hc (hloaded.newDevices hb)
  rw [replace, hwritten, device_replaceDevice, Function.update_self, hself, hold]

omit hloaded in
theorem mem_pointEntries : e ∈ h.pointEntries devices ↔
    ∃ a ∈ devices, e ∈ (h.device a).points.entries :=
  List.mem_flatMap

theorem pairwise_points : devices.Pairwise fun a b ↦
    ∀ p, p ∈ (h.device a).points.entries.map Prod.snd →
      ¬ p ∈ (h.device b).points.entries.map Prod.snd := by
  have hnodup := hloaded.pointObjects
  rw [Heap.pointEntries, List.map_flatMap, List.nodup_flatMap] at hnodup
  exact hnodup.2.imp fun hdisjoint p ha hb ↦ hdisjoint ha hb

theorem ne_of_known {id q : Uuid} (hq : r.points.get? id = some q)
    (he : e ∈ h.pointEntries devices) : q ≠ e.2 := by
  rintro rfl
  exact hloaded.newPoints hq (List.mem_map_of_mem he)

theorem point_replace (ha : a ∈ devices) (he : e ∈ (h.device a).points.entries) :
    (r.replace h devices).2.point e.2 =
      attached a (h.point e.2) ((r.points.get? e.1).map h.point) := by
  obtain ⟨t, ht, hread, hwritten⟩ := (frame_point h r).foldl_written (s := h) (fun _ ↦ rfl)
    (pairwise_points hloaded) ha (List.mem_map_of_mem he)
  have hentries : ∀ e ∈ (h.device a).points.entries, e ∈ h.pointEntries devices :=
    fun e he ↦ mem_pointEntries.mpr ⟨a, ha, he⟩
  -- the outer loop comes to the device
  have hself : t.point e.2 = h.point e.2 :=
    hread e.2 fun _ _ _ ↦ List.mem_map_of_mem he
  have hold : ∀ q, r.points.get? e.1 = some q → t.point q = h.point q := by
    intro q hq
    refine hread q fun b hb hmem ↦ ?_
    obtain ⟨e', he', rfl⟩ := List.mem_map.mp hmem
    exact absurd rfl (ne_of_known hloaded hq (mem_pointEntries.mpr ⟨b, hb, he'⟩))
  -- the inner loop comes to the point
  have hnodup : ((h.device a).points.entries.map Prod.snd).Nodup := by
    have hnodup := hloaded.pointObjects
    rw [Heap.pointEntries, List.map_flatMap, List.nodup_flatMap] at hnodup
    exact hnodup.1 a ha
  have hdisjoint : (h.device a).points.entries.Pairwise fun e e' ↦ ∀ p, p = e.2 → ¬ p = e'.2 :=
    (List.pairwise_map.mp hnodup).imp fun hne p hp hp' ↦ hne (hp.symm.trans hp')
  obtain ⟨u, -, hreadu, hwrittenu⟩ := (frame_replacePoint r a).foldl_written
    (s := t.modifyDevice a fun device ↦
      device.resume ((r.devices.get? (t.device a).deviceId).map t.device)) trivial hdisjoint he rfl
  have hselfu : u.point e.2 = t.point e.2 := hreadu e.2 fun _ _ _ ↦ rfl
  have holdu : ∀ q, r.points.get? e.1 = some q → u.point q = t.point q := by
    intro q hq
    refine hreadu q fun e' he' heq ↦ ?_
    exact absurd heq (ne_of_known hloaded hq (hentries e' he'))
  have hknown : (r.points.get? e.1).map u.point = (r.points.get? e.1).map h.point :=
    Option.map_congr fun q hq ↦ (holdu q hq).trans (hold q hq)
  rw [replace, hwritten, point_replaceDevice, ht.points a, hwrittenu,
    point_replacePoint_self fun q hq ↦ ne_of_known hloaded hq (hentries e he), hselfu, hself,
    hknown]

omit hloaded in
theorem sameConfig_replace (r : Indexes) (h : Heap) (devices : List Addr) :
    SameConfig h (r.replace h devices).2 :=
  (frame_device h r).keeps_foldl devices fun _ ↦ rfl

theorem devices_replace : (r.replace h devices).1.devices.entries =
    devices.map fun a ↦ ((h.device a).deviceId, a) := by
  have hids : ∀ a, ((r.replace h devices).2.device a).deviceId = (h.device a).deviceId :=
    (sameConfig_replace r h devices).deviceId
  have hentries : (devices.map fun a ↦ (((r.replace h devices).2.device a).deviceId, a)) =
      devices.map fun a ↦ ((h.device a).deviceId, a) := by
    simp only [hids]
  have hnodup : ((devices.map fun a ↦ ((h.device a).deviceId, a)).map Prod.fst).Nodup := by
    rw [List.map_map]
    exact hloaded.ids
  exact (congrArg (fun es ↦ (OrderedDict.ofList es).entries) hentries).trans
    (OrderedDict.entries_ofList hnodup)

theorem points_replace : (r.replace h devices).1.points.entries = h.pointEntries devices := by
  have hpoints : ∀ a, ((r.replace h devices).2.device a).points = (h.device a).points :=
    (sameConfig_replace r h devices).points
  have hentries : (devices.flatMap fun a ↦ ((r.replace h devices).2.device a).points.entries) =
      h.pointEntries devices := by
    simp only [hpoints, Heap.pointEntries]
  exact (congrArg (fun es ↦ (OrderedDict.ofList es).entries) hentries).trans
    (OrderedDict.entries_ofList hloaded.pointIds)

theorem get?_devices_replace {id : Uuid} : (r.replace h devices).1.devices.get? id = some a ↔
    a ∈ devices ∧ (h.device a).deviceId = id := by
  rw [← OrderedDict.mem_entries_iff, devices_replace hloaded, List.mem_map]
  simp only [Prod.mk.injEq]
  constructor
  · rintro ⟨b, hb, rfl, rfl⟩
    exact ⟨hb, rfl⟩
  · rintro ⟨ha, rfl⟩
    exact ⟨a, ha, rfl, rfl⟩

theorem point_replace_iff {id : Uuid} : (r.replace h devices).1.point id = some p ↔
    (id, p) ∈ h.pointEntries devices := by
  rw [point, ← OrderedDict.mem_entries_iff, points_replace hloaded]

theorem consistent_replace :
    Consistent (r.replace h devices).2 (r.replace h devices).1 where
  deviceId hid := by
    obtain ⟨-, rfl⟩ := (get?_devices_replace hloaded).mp hid
    exact (sameConfig_replace r h devices).deviceId _
  indexed {id a pointId p} hid hpoint := by
    obtain ⟨ha, -⟩ := (get?_devices_replace hloaded).mp hid
    rw [(sameConfig_replace r h devices).points a] at hpoint
    exact (point_replace_iff hloaded).mpr
      (mem_pointEntries.mpr ⟨a, ha, OrderedDict.mem_entries_iff.mpr hpoint⟩)
  back {id a pointId p} hid hpoint := by
    obtain ⟨ha, -⟩ := (get?_devices_replace hloaded).mp hid
    rw [(sameConfig_replace r h devices).points a] at hpoint
    have he : (pointId, p) ∈ (h.device a).points.entries := OrderedDict.mem_entries_iff.mpr hpoint
    rw [point_replace hloaded ha he]
    rfl
  listed {pointId p} hpoint := by
    obtain ⟨a, ha, he⟩ := mem_pointEntries.mp ((point_replace_iff hloaded).mp hpoint)
    refine ⟨_, a, (get?_devices_replace hloaded).mpr ⟨ha, rfl⟩, ?_⟩
    rw [(sameConfig_replace r h devices).points a]
    exact OrderedDict.mem_entries_iff.mp he

theorem exists_attached (he : e ∈ h.pointEntries devices) : ∃ a ∈ devices,
    (r.replace h devices).2.point e.2 =
      attached a (h.point e.2) ((r.points.get? e.1).map h.point) := by
  obtain ⟨a, ha, he⟩ := mem_pointEntries.mp he
  exact ⟨a, ha, point_replace hloaded ha he⟩

theorem config_point_replace (he : e ∈ h.pointEntries devices) :
    ((r.replace h devices).2.point e.2).config = (h.point e.2).config := by
  obtain ⟨a, -, heq⟩ := exists_attached hloaded he
  rw [heq, attached, PointObject.config_resume]
  rfl

end Loops

/-- **Replacement keeps the follow-up.** Whatever the registry had, after `replace` it has the
devices and the points that were loaded and no others, consistently indexed, with the follow-up of
those they replace and the configuration they were loaded with. -/
theorem replaced_replace {h : Heap} {r : Indexes} {devices : List Addr}
    (hloaded : Loaded h r devices) :
    Replaced h r devices (r.replace h devices).1 (r.replace h devices).2 where
  devices_eq := devices_replace hloaded
  points_eq := points_replace hloaded
  consistent := consistent_replace hloaded
  deviceConfig a _ := sameConfig_replace r h devices a
  pointConfig _ he := config_point_replace hloaded he
  deviceTracking a ha b hb := by
    rw [device_replace hloaded ha, hb]
    rfl
  pointTracking e he q hq := by
    obtain ⟨a, -, heq⟩ := exists_attached hloaded he
    rw [point] at hq
    rw [heq, hq]
    rfl
  deviceTracking_new a ha hnone := by
    rw [device_replace hloaded ha, hnone]
    rfl
  pointTracking_new e he hnone := by
    obtain ⟨a, -, heq⟩ := exists_attached hloaded he
    rw [point] at hnone
    rw [heq, hnone]
    rfl
  device_unlisted id hid := by
    refine Option.eq_none_iff_forall_ne_some.mpr fun a ha ↦ hid ?_
    obtain ⟨hmem, rfl⟩ := (get?_devices_replace hloaded).mp ha
    exact List.mem_map_of_mem hmem
  point_unlisted id hid := by
    refine Option.eq_none_iff_forall_ne_some.mpr fun p hp ↦ hid ?_
    exact List.mem_map_of_mem ((point_replace_iff hloaded).mp hp)
  device_old hb id' hb' := hloaded.newDevices hb ((get?_devices_replace hloaded).mp hb').1
  point_old hq id' hq' :=
    hloaded.newPoints hq (List.mem_map_of_mem ((point_replace_iff hloaded).mp hq'))

/-- Point 7 was under device 1, both at address 0. It was loaded under device 2, at address 11, and
its new object is at address 20. -/
def movedHeap : Heap where
  device a := {
    deviceId := if a = 11 then 2 else 1
    deviceInstance := a
    address := "10.0.0.1"
    name := "CTA"
    supportsCov := true
    online := decide (a ≠ 0)
    points :=
      if a = 0 then .ofList [(7, 0)] else if a = 11 then .ofList [(7, 20)] else .empty
    failures := if a = 0 then 3 else 0
    lastContact := 0
    lastAttempt := if a = 0 then 12 else 0
    lastSeenWritten := 0 }
  point p := {
    toPointState := { PointState.new ⟨7, p, "10.0.0.1", "analogInput", 1⟩ none (.fin 0) 900 60 true
      with nextDue := if p = 0 then 30 else 0 }
    name := "T_SOUFFL"
    device := if p = 0 then some 0 else none }

def movedIndexes : Indexes := ⟨.ofList [(1, 0)], .ofList [(7, 0)]⟩

theorem loaded_moved : Loaded movedHeap movedIndexes [10, 11] where
  ids := by decide
  pointIds := by decide
  pointObjects := by decide
  newDevices {id a} h := by
    have hmem : (id, a) ∈ movedIndexes.devices.entries := OrderedDict.mem_entries_iff.mpr h
    have ha : a = 0 := (Prod.mk.inj (List.mem_singleton.mp hmem)).2
    rw [ha]
    decide
  newPoints {id p} h := by
    have hmem : (id, p) ∈ movedIndexes.points.entries := OrderedDict.mem_entries_iff.mpr h
    have hp : p = 0 := (Prod.mk.inj (List.mem_singleton.mp hmem)).2
    rw [hp]
    decide

theorem replaced_replace_moved :
    Loaded movedHeap movedIndexes [10, 11] ∧ Replaced movedHeap movedIndexes [10, 11]
      (movedIndexes.replace movedHeap [10, 11]).1 (movedIndexes.replace movedHeap [10, 11]).2 :=
  ⟨loaded_moved, replaced_replace loaded_moved⟩

end Indexes

/-! ## The registry of values -/

/-- The device, with the objects of its points. -/
def Heap.deviceState (h : Heap) (a : Addr) : DeviceState where
  deviceId := (h.device a).deviceId
  deviceInstance := (h.device a).deviceInstance
  address := (h.device a).address
  name := (h.device a).name
  supportsCov := (h.device a).supportsCov
  online := (h.device a).online
  points := (h.device a).points.entries.map fun e ↦ (h.point e.2).toPointState
  failures := (h.device a).failures
  lastContact := (h.device a).lastContact
  lastAttempt := (h.device a).lastAttempt
  lastSeenWritten := (h.device a).lastSeenWritten

namespace Indexes

/-- What the indexes hold, without the objects. -/
def registry (r : Indexes) (h : Heap) : Registry where
  devices := r.devices.entries.map fun e ↦ h.deviceState e.2

/-- The points are under the identifiers of their addresses. -/
def Keyed (h : Heap) (r : Indexes) : Prop :=
  ∀ {id p}, r.point id = some p → (h.point p).ref.pointId = id

section Registry

variable {r : Indexes} {h : Heap} {devices : List Addr} (hr : Consistent h r)
include hr

theorem device_registry (id : Uuid) :
    (r.registry h).device id = (r.devices.get? id).map h.deviceState := by
  have hall : ∀ device ∈ (r.registry h).devices, ∃ a,
      r.devices.get? device.deviceId = some a ∧ h.deviceState a = device := by
    intro device hdevice
    obtain ⟨e, he, rfl⟩ := List.mem_map.mp hdevice
    have hget := OrderedDict.mem_entries_iff.mp he
    refine ⟨e.2, ?_, rfl⟩
    rw [Heap.deviceState, hr.deviceId hget, hget]
  cases hget : r.devices.get? id with
  | none =>
    refine List.find?_eq_none.mpr fun device hmem hid ↦ ?_
    obtain ⟨a, ha, -⟩ := hall device hmem
    rw [of_decide_eq_true hid, hget] at ha
    nomatch ha
  | some a =>
    refine find?_eq_some_of_unique (List.mem_map_of_mem (OrderedDict.mem_entries_iff.mpr hget))
      (decide_eq_true (hr.deviceId hget)) fun device hmem hid ↦ ?_
    obtain ⟨b, hb, rfl⟩ := hall device hmem
    rw [of_decide_eq_true hid, hget] at hb
    rw [Option.some.inj hb]

theorem point_registry (hkeyed : Keyed h r) (id : Uuid) :
    (r.registry h).point id = (r.point id).map fun p ↦ (h.point p).toPointState := by
  have hall : ∀ point ∈ (r.registry h).allPoints, ∃ p,
      r.point point.ref.pointId = some p ∧ (h.point p).toPointState = point := by
    intro point hpoint
    obtain ⟨device, hdevice, hmem⟩ := List.mem_flatMap.mp hpoint
    obtain ⟨e, he, rfl⟩ := List.mem_map.mp hdevice
    obtain ⟨e', he', rfl⟩ := List.mem_map.mp hmem
    have hindexed := hr.indexed (OrderedDict.mem_entries_iff.mp he)
      (OrderedDict.mem_entries_iff.mp he')
    refine ⟨e'.2, ?_, rfl⟩
    rw [hkeyed hindexed, hindexed]
  cases hpoint : r.point id with
  | none =>
    refine List.find?_eq_none.mpr fun point hmem hid ↦ ?_
    obtain ⟨p, hp, -⟩ := hall point hmem
    rw [of_decide_eq_true hid, hpoint] at hp
    nomatch hp
  | some p =>
    obtain ⟨id', a, ha, hp⟩ := hr.listed hpoint
    have hmem : (h.point p).toPointState ∈ (r.registry h).allPoints :=
      List.mem_flatMap.mpr ⟨h.deviceState a,
        List.mem_map_of_mem (OrderedDict.mem_entries_iff.mpr ha),
        List.mem_map_of_mem (OrderedDict.mem_entries_iff.mpr hp)⟩
    refine find?_eq_some_of_unique hmem (decide_eq_true (hkeyed hpoint)) fun point hmem hid ↦ ?_
    obtain ⟨q, hq, rfl⟩ := hall point hmem
    rw [of_decide_eq_true hid, hpoint] at hq
    rw [Option.some.inj hq]

omit hr in
theorem Consistent.congr {s : Heap} (hr : Consistent h r)
    (hdevice : ∀ {id a}, r.devices.get? id = some a → s.device a = h.device a)
    (hpoint : ∀ {id p}, r.point id = some p → s.point p = h.point p) : Consistent s r where
  deviceId hid := by
    rw [hdevice hid]
    exact hr.deviceId hid
  indexed hid hp := by
    rw [hdevice hid] at hp
    exact hr.indexed hid hp
  back hid hp := by
    rw [hdevice hid] at hp
    rw [hpoint (hr.indexed hid hp)]
    exact hr.back hid hp
  listed hp := by
    obtain ⟨id, a, hid, ha⟩ := hr.listed hp
    refine ⟨id, a, hid, ?_⟩
    rw [hdevice hid]
    exact ha

omit hr in
theorem Keyed.congr {s : Heap} (hkeyed : Keyed h r)
    (hpoint : ∀ {id p}, r.point id = some p → s.point p = h.point p) : Keyed s r := by
  intro id p hid
  rw [hpoint hid]
  exact hkeyed hid

theorem registry_congr {s : Heap}
    (hdevice : ∀ {id a}, r.devices.get? id = some a → s.device a = h.device a)
    (hpoint : ∀ {id p}, r.point id = some p → s.point p = h.point p) :
    r.registry s = r.registry h := by
  refine congrArg Registry.mk (List.map_congr_left fun e he ↦ ?_)
  have hid := OrderedDict.mem_entries_iff.mp he
  have hpoints : (h.device e.2).points.entries.map (fun e ↦ (s.point e.2).toPointState) =
      (h.device e.2).points.entries.map fun e ↦ (h.point e.2).toPointState := by
    refine List.map_congr_left fun e' he' ↦ ?_
    rw [hpoint (hr.indexed hid (OrderedDict.mem_entries_iff.mp he'))]
  rw [Heap.deviceState, hdevice hid, hpoints]
  rfl

/-- **`replace` on the objects is `replace` on the values.** -/
theorem registry_replace (hkeyed : Keyed h r) (hloaded : Loaded h r devices)
    (hkeys : ∀ e ∈ h.pointEntries devices, (h.point e.2).ref.pointId = e.1) :
    (r.replace h devices).1.registry (r.replace h devices).2 =
      (r.registry h).replace (devices.map h.deviceState) := by
  rw [registry, Registry.replace, devices_replace hloaded, List.map_map, List.map_map]
  refine congrArg Registry.mk (List.map_congr_left fun a ha ↦ ?_)
  have hpoints : ∀ e ∈ (h.device a).points.entries,
      ((r.replace h devices).2.point e.2).toPointState =
        (h.point e.2).toPointState.resume
          ((r.registry h).point (h.point e.2).toPointState.ref.pointId) := by
    intro e he
    rw [hkeys e (mem_pointEntries.mpr ⟨a, ha, he⟩), point_registry hr hkeyed,
      point_replace hloaded ha he, point]
    rcases r.points.get? e.1 with - | q <;> rfl
  have hlist : (h.device a).points.entries.map
      (fun e ↦ ((r.replace h devices).2.point e.2).toPointState) =
      ((h.device a).points.entries.map fun e ↦ (h.point e.2).toPointState).map fun point ↦
        point.resume ((r.registry h).point point.ref.pointId) := by
    rw [List.map_map]
    exact List.map_congr_left hpoints
  rw [Function.comp_apply, Function.comp_apply, Heap.deviceState, device_registry hr,
    (sameConfig_replace r h devices).points a, device_replace hloaded ha, hlist,
    Heap.deviceState]
  rcases r.devices.get? (h.device a).deviceId with - | b <;> rfl

end Registry

end Indexes

end Superviseur
