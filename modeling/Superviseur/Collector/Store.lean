import Superviseur.Collector.Discovery
import Superviseur.Library.Table
import Mathlib.Data.List.Sort

/-!
# The tables of the collector

The rows of the devices and of the points, by identifier, and the statements of the collector on
them: a discovery inserts or updates a device and its objects, a poll the status of a device, and
the registry is loaded from what they hold.
-/

namespace Superviseur

structure DeviceRow where
  networkId : Uuid
  deviceInstance : ℤ
  name : String
  address : String
  online : Bool
  lastSeen : Option Instant
  vendor : Option String
  model : Option String
  deriving DecidableEq

structure PointRow where
  deviceId : Uuid
  objectType : String
  objectInstance : ℤ
  name : String
  description : Option String
  unit : Option String
  writable : Bool
  covCapable : Bool
  pollIntervalS : Option ℤ
  path : Option String
  missing : Bool
  deadband : PyFloat
  maxIntervalS : ℤ
  stateText : Option (List String)
  deriving DecidableEq

structure Tables where
  devices : Table Uuid DeviceRow
  points : Table Uuid PointRow

/-- The settings of a point that the API can change. -/
structure PointSettings where
  deadband : PyFloat
  maxIntervalS : ℤ
  pollIntervalS : Option ℤ
  path : Option String
  deriving DecidableEq

def PointRow.settings (row : PointRow) : PointSettings :=
  ⟨row.deadband, row.maxIntervalS, row.pollIntervalS, row.path⟩

/-- The row is that of this object of the device. -/
def PointRow.isObject (deviceId : Uuid) (row : PointRow) (o : ObjectInfo) : Bool :=
  row.deviceId = deviceId ∧ row.objectType = o.objectType ∧ row.objectInstance = o.objectInstance

/-- `poll_interval_s or default_poll_interval_s`. -/
def pollInterval (stored : Option ℤ) (default : ℚ) : ℚ :=
  match stored with
  | none => default
  | some n => if n = 0 then default else n

namespace Tables

/-- `set_device_status`. -/
def setDeviceStatus (t : Tables) (id : Uuid) (online : Bool) (lastSeen : Option Instant) : Tables :=
  match t.devices.lookup id with
  | none => t
  | some row =>
    let row := { row with online := online, lastSeen := lastSeen.or row.lastSeen }
    { t with devices := t.devices.insert id row }

/-- The row a device that answers has in the network. -/
def deviceOf (t : Tables) (networkId : Uuid) (deviceInstance : ℤ) :
    Option (Σ _ : Uuid, DeviceRow) :=
  t.devices.find fun row ↦ row.networkId = networkId ∧ row.deviceInstance = deviceInstance

/-- The row of a device that has just answered. -/
def answered (networkId : Uuid) (info : DeviceInfo) (now : Instant) : DeviceRow where
  networkId := networkId
  deviceInstance := info.deviceInstance
  name := textOr info.name s!"device-{info.deviceInstance}"
  address := info.address
  online := true
  lastSeen := some now
  vendor := info.vendor
  model := info.model

/-- `upsert_device`: the identifier of the row, which is `newId` for a device that is new. -/
def upsertDevice (t : Tables) (networkId : Uuid) (info : DeviceInfo) (now : Instant)
    (newId : Uuid) : Tables × Uuid :=
  let id := ((t.deviceOf networkId info.deviceInstance).map Sigma.fst).getD newId
  ({ t with devices := t.devices.insert id (answered networkId info now) }, id)

/-- The row of an object in a device. -/
def pointOf (t : Tables) (deviceId : Uuid) (o : ObjectInfo) : Option (Σ _ : Uuid, PointRow) :=
  t.points.find fun row ↦ row.isObject deviceId o

/-- The row of an object that was found, with that it had before. The settings and the path are
never overwritten. -/
def objectRow (deviceId : Uuid) (covCapable : Bool) (pathPrefix : String) (o : ObjectInfo) :
    Option PointRow → PointRow
  | some row => { row with
      name := o.name
      description := o.description
      unit := o.unit
      writable := o.writable
      covCapable := covCapable
      stateText := o.stateText
      missing := false }
  | none => {
      deviceId := deviceId
      objectType := o.objectType
      objectInstance := o.objectInstance
      name := o.name
      description := o.description
      unit := o.unit
      writable := o.writable
      covCapable := covCapable
      pollIntervalS := none
      path := some s!"{pathPrefix}/{o.name}"
      missing := false
      deadband := .fin 0
      maxIntervalS := 900
      stateText := o.stateText }

/-- One row of `upsert_points`; `newId` is the identifier of the row of an object that is new. -/
def upsertPoint (t : Tables) (deviceId : Uuid) (covCapable : Bool) (pathPrefix : String)
    (o : ObjectInfo) (newId : Uuid) : Tables :=
  let old := t.pointOf deviceId o
  let id := (old.map Sigma.fst).getD newId
  let row := objectRow deviceId covCapable pathPrefix o (old.map Sigma.snd)
  { t with points := t.points.insert id row }

def upsertObjects (t : Tables) (deviceId : Uuid) (covCapable : Bool) (pathPrefix : String) :
    List (ObjectInfo × Uuid) → Tables
  | [] => t
  | (o, newId) :: rest =>
    (t.upsertPoint deviceId covCapable pathPrefix o newId).upsertObjects deviceId covCapable
      pathPrefix rest

/-- The row of a point of the device whose object was not found is marked `missing`. -/
def mark (deviceId : Uuid) (objects : List ObjectInfo) (row : PointRow) : PointRow :=
  if row.deviceId = deviceId ∧ objects.any (row.isObject deviceId) = false then
    { row with missing := true }
  else row

def markMissing (t : Tables) (deviceId : Uuid) (objects : List ObjectInfo) : Tables :=
  { t with points := t.points.mapRows (mark deviceId objects) }

/-- `upsert_points`, with identifiers for the new rows. -/
def upsertPoints (t : Tables) (deviceId : Uuid) (objects : List ObjectInfo) (covCapable : Bool)
    (pathPrefix : String) (newIds : List Uuid) : Tables :=
  (t.upsertObjects deviceId covCapable pathPrefix (objects.zip newIds)).markMissing deviceId objects

/-- The update of the settings of a point by the API. -/
def setPointSettings (t : Tables) (id : Uuid) (settings : PointSettings) : Tables :=
  match t.points.lookup id with
  | none => t
  | some row =>
    let row := { row with
      deadband := settings.deadband
      maxIntervalS := settings.maxIntervalS
      pollIntervalS := settings.pollIntervalS
      path := settings.path }
    { t with points := t.points.insert id row }

/-- `get_point_settings`. -/
def getPointSettings (t : Tables) (id : Uuid) : Option PointSettings :=
  (t.points.lookup id).map PointRow.settings

/-- A point as it is loaded. -/
def loadPoint (id : Uuid) (row : PointRow) (device : DeviceRow) (default : ℚ) : PointState :=
  .new ⟨id, device.deviceInstance, device.address, row.objectType, row.objectInstance⟩ row.path
    row.deadband row.maxIntervalS (pollInterval row.pollIntervalS default) row.covCapable

/-- A device as it is loaded, with its points that are not missing. -/
def loadDevice (t : Tables) (id : Uuid) (row : DeviceRow) (default : ℚ) : DeviceState :=
  let points := t.points.entries.filterMap fun e ↦
    if e.2.deviceId = id ∧ e.2.missing = false then some (loadPoint e.1 e.2 row default) else none
  .new id row.deviceInstance row.address row.name (points.any PointState.covCapable) row.online
    points

/-- `load_devices`. -/
def loadDevices (t : Tables) (networkId : Uuid) (default : ℚ) : List DeviceState :=
  let rows := t.devices.entries.filter fun e ↦ e.2.networkId = networkId
  (rows.map fun e ↦ t.loadDevice e.1 e.2 default).insertionSort fun a b ↦
    a.deviceInstance ≤ b.deviceInstance

end Tables

/-- Where all the elements that satisfy a condition are equal to one that does, it is the one
found. -/
theorem find?_eq_some_of_unique {α : Type*} {p : α → Bool} {xs : List α} {x : α} (hx : x ∈ xs)
    (hp : p x) (h : ∀ y ∈ xs, p y → y = x) : xs.find? p = some x := by
  obtain ⟨y, hy⟩ := Option.isSome_iff_exists.mp (List.find?_isSome.mpr ⟨x, hx, hp⟩)
  rw [hy, h y (List.mem_of_find?_eq_some hy) (List.find?_some hy)]

namespace Tables

variable {t : Tables} {networkId id : Uuid} {default : ℚ}

theorem mem_loadDevices {device : DeviceState} : device ∈ t.loadDevices networkId default ↔
    ∃ id row, t.devices.lookup id = some row ∧ row.networkId = networkId ∧
      t.loadDevice id row default = device := by
  rw [loadDevices, List.mem_insertionSort]
  simp only [List.mem_map, List.mem_filter, decide_eq_true_eq]
  constructor
  · rintro ⟨⟨id, row⟩, ⟨hmem, hnetwork⟩, hload⟩
    exact ⟨id, row, AList.mem_lookup_iff.mpr hmem, hnetwork, hload⟩
  · rintro ⟨id, row, hlookup, hnetwork, hload⟩
    exact ⟨⟨id, row⟩, ⟨AList.mem_lookup_iff.mp hlookup, hnetwork⟩, hload⟩

theorem device_loadDevices : (Registry.mk (t.loadDevices networkId default)).device id =
    (t.devices.lookup id).bind fun row ↦
      if row.networkId = networkId then some (t.loadDevice id row default) else none := by
  have hfrom : ∀ device ∈ t.loadDevices networkId default, device.deviceId = id →
      ∃ row, t.devices.lookup id = some row ∧ row.networkId = networkId ∧
        t.loadDevice id row default = device := by
    intro device hmem hid
    obtain ⟨id', row, hlookup, hnetwork, rfl⟩ := mem_loadDevices.mp hmem
    obtain rfl : id' = id := hid
    exact ⟨row, hlookup, hnetwork, rfl⟩
  rcases hlookup : t.devices.lookup id with - | row
  · refine List.find?_eq_none.mpr fun device hmem hid ↦ ?_
    obtain ⟨row, hrow, -⟩ := hfrom device hmem (of_decide_eq_true hid)
    rw [hlookup] at hrow
    nomatch hrow
  · rw [Option.bind_some]
    by_cases hnetwork : row.networkId = networkId
    · rw [if_pos hnetwork]
      refine find?_eq_some_of_unique (mem_loadDevices.mpr ⟨id, row, hlookup, hnetwork, rfl⟩)
        (decide_eq_true rfl) fun device hmem hid ↦ ?_
      obtain ⟨row', hrow, -, hload⟩ := hfrom device hmem (of_decide_eq_true hid)
      rw [hlookup] at hrow
      rw [← hload, Option.some.inj hrow]
    · rw [if_neg hnetwork]
      refine List.find?_eq_none.mpr fun device hmem hid ↦ ?_
      obtain ⟨row', hrow, hnetwork', -⟩ := hfrom device hmem (of_decide_eq_true hid)
      rw [hlookup] at hrow
      exact hnetwork (Option.some.inj hrow ▸ hnetwork')

/-- A point that is loaded comes from a row, and from that of its device. -/
theorem exists_of_mem_allPoints {point : PointState}
    (h : point ∈ (Registry.mk (t.loadDevices networkId default)).allPoints) :
    ∃ row device, t.points.lookup point.ref.pointId = some row ∧
      t.devices.lookup row.deviceId = some device ∧
      loadPoint point.ref.pointId row device default = point := by
  obtain ⟨device, hdevice, hpoint⟩ := List.mem_flatMap.mp h
  obtain ⟨id, deviceRow, hrow, -, rfl⟩ := mem_loadDevices.mp hdevice
  obtain ⟨⟨p, row⟩, hmem, hload⟩ := List.mem_filterMap.mp hpoint
  split at hload
  · rename_i hown
    obtain rfl := Option.some.inj hload
    refine ⟨row, deviceRow, AList.mem_lookup_iff.mpr hmem, ?_, rfl⟩
    rw [hown.1]
    exact hrow
  · simp at hload

theorem point_loadDevices {p : Uuid} {row : PointRow} {device : DeviceRow}
    (hrow : t.points.lookup p = some row) (hmissing : row.missing = false)
    (hdevice : t.devices.lookup row.deviceId = some device)
    (hnetwork : device.networkId = networkId) :
    (Registry.mk (t.loadDevices networkId default)).point p =
      some (loadPoint p row device default) := by
  refine find?_eq_some_of_unique (List.mem_flatMap.mpr ⟨t.loadDevice row.deviceId device default,
    mem_loadDevices.mpr ⟨row.deviceId, device, hdevice, hnetwork, rfl⟩, ?_⟩) (decide_eq_true rfl) ?_
  · refine List.mem_filterMap.mpr ⟨⟨p, row⟩, AList.mem_lookup_iff.mp hrow, ?_⟩
    rw [if_pos ⟨rfl, hmissing⟩]
  · intro point hmem hid
    obtain ⟨row', device', hrow', hdevice', hload⟩ := exists_of_mem_allPoints hmem
    have hpointId : point.ref.pointId = p := of_decide_eq_true hid
    rw [hpointId] at hrow' hload
    obtain rfl := Option.some.inj (hrow.symm.trans hrow')
    obtain rfl := Option.some.inj (hdevice.symm.trans hdevice')
    exact hload.symm

theorem lookup_setPointSettings_self {settings : PointSettings} :
    (t.setPointSettings id settings).points.lookup id = (t.points.lookup id).map fun row ↦
      { row with
        deadband := settings.deadband
        maxIntervalS := settings.maxIntervalS
        pollIntervalS := settings.pollIntervalS
        path := settings.path } := by
  rw [setPointSettings]
  rcases hlookup : t.points.lookup id with - | row
  · exact hlookup
  · exact AList.lookup_insert _

theorem lookup_setPointSettings_of_ne {other : Uuid} {settings : PointSettings} (h : other ≠ id) :
    (t.setPointSettings id settings).points.lookup other = t.points.lookup other := by
  rw [setPointSettings]
  rcases t.points.lookup id with - | row
  · rfl
  · exact AList.lookup_insert_ne h

theorem lookup_setDeviceStatus_self {online : Bool} {lastSeen : Option Instant} :
    (t.setDeviceStatus id online lastSeen).devices.lookup id = (t.devices.lookup id).map fun row ↦
      { row with online := online, lastSeen := lastSeen.or row.lastSeen } := by
  rw [setDeviceStatus]
  rcases hlookup : t.devices.lookup id with - | row
  · exact hlookup
  · exact AList.lookup_insert _

theorem lookup_setDeviceStatus_of_ne {other : Uuid} {online : Bool} {lastSeen : Option Instant}
    (h : other ≠ id) :
    (t.setDeviceStatus id online lastSeen).devices.lookup other = t.devices.lookup other := by
  rw [setDeviceStatus]
  rcases t.devices.lookup id with - | row
  · rfl
  · exact AList.lookup_insert_ne h

theorem of_deviceOf {deviceInstance : ℤ} {e : Σ _ : Uuid, DeviceRow}
    (h : t.deviceOf networkId deviceInstance = some e) :
    t.devices.lookup e.1 = some e.2 ∧ e.2.networkId = networkId ∧
      e.2.deviceInstance = deviceInstance :=
  ⟨Table.lookup_of_find h,
    of_decide_eq_true (p := e.2.networkId = networkId ∧ e.2.deviceInstance = deviceInstance)
      (Table.of_find h)⟩

section

variable {info : DeviceInfo} {now : Instant} {newId : Uuid}

theorem lookup_upsertDevice_self :
    (t.upsertDevice networkId info now newId).1.devices.lookup
      (t.upsertDevice networkId info now newId).2 = some (answered networkId info now) :=
  AList.lookup_insert _

theorem lookup_upsertDevice_of_ne (h : id ≠ (t.upsertDevice networkId info now newId).2) :
    (t.upsertDevice networkId info now newId).1.devices.lookup id = t.devices.lookup id :=
  AList.lookup_insert_ne h

theorem upsertDevice_id : (t.deviceOf networkId info.deviceInstance).map Sigma.fst =
      some (t.upsertDevice networkId info now newId).2 ∨
    (t.upsertDevice networkId info now newId).2 = newId := by
  rcases hrow : t.deviceOf networkId info.deviceInstance with - | row
  · right
    rw [upsertDevice, hrow]
    rfl
  · left
    rw [upsertDevice, hrow]
    rfl

end

end Tables

/-! ## What an import writes -/

/-- The row says what was found of the object. -/
def PointRow.Describes (row : PointRow) (covCapable : Bool) (o : ObjectInfo) : Prop :=
  row.name = o.name ∧ row.description = o.description ∧ row.unit = o.unit ∧
    row.writable = o.writable ∧ row.covCapable = covCapable ∧ row.stateText = o.stateText

/-- A row that an import leaves the identity and the settings of another. -/
structure PointRow.Keeps (old new : PointRow) : Prop where
  deviceId : new.deviceId = old.deviceId
  objectType : new.objectType = old.objectType
  objectInstance : new.objectInstance = old.objectInstance
  settings : new.settings = old.settings

theorem PointRow.Keeps.refl (row : PointRow) : row.Keeps row := ⟨rfl, rfl, rfl, rfl⟩

theorem PointRow.Keeps.trans {a b c : PointRow} (h : a.Keeps b) (h' : b.Keeps c) : a.Keeps c :=
  ⟨h'.deviceId.trans h.deviceId, h'.objectType.trans h.objectType,
    h'.objectInstance.trans h.objectInstance, h'.settings.trans h.settings⟩

theorem PointRow.isObject_iff {row : PointRow} {deviceId : Uuid} {o : ObjectInfo} :
    row.isObject deviceId o = true ↔ row.deviceId = deviceId ∧ row.objectType = o.objectType ∧
      row.objectInstance = o.objectInstance := decide_eq_true_iff

theorem PointRow.Keeps.isObject {old new : PointRow} (h : old.Keeps new) (deviceId : Uuid)
    (o : ObjectInfo) : new.isObject deviceId o = old.isObject deviceId o := by
  rw [PointRow.isObject, PointRow.isObject, h.deviceId, h.objectType, h.objectInstance]

namespace Tables

/-- Identifiers for new rows. -/
def Fresh (t : Tables) (ids : List Uuid) : Prop := ids.Nodup ∧ ∀ id ∈ ids, id ∉ t.points

variable {t : Tables} {deviceId newId p : Uuid} {covCapable : Bool} {pathPrefix : String}
  {o : ObjectInfo} {row : PointRow}

theorem keeps_objectRow : row.Keeps (objectRow deviceId covCapable pathPrefix o (some row)) :=
  ⟨rfl, rfl, rfl, rfl⟩

theorem lookup_upsertPoint (hnew : newId ∉ t.points) (h : t.points.lookup p = some row) :
    ∃ row', (t.upsertPoint deviceId covCapable pathPrefix o newId).points.lookup p = some row' ∧
      (row' = row ∨ row.isObject deviceId o = true ∧
        row' = objectRow deviceId covCapable pathPrefix o (some row)) := by
  rcases hold : t.pointOf deviceId o with - | ⟨id, old⟩
  · have hp : p ≠ newId := by
      rintro rfl
      exact hnew (Table.mem_of_lookup h)
    refine ⟨row, ?_, .inl rfl⟩
    rw [upsertPoint, hold]
    exact (AList.lookup_insert_ne hp).trans h
  · by_cases hp : p = id
    · subst hp
      obtain rfl := Option.some.inj (h.symm.trans (Table.lookup_of_find hold))
      refine ⟨_, ?_, .inr ⟨Table.of_find hold, rfl⟩⟩
      rw [upsertPoint, hold]
      exact AList.lookup_insert _
    · refine ⟨row, ?_, .inl rfl⟩
      rw [upsertPoint, hold]
      exact (AList.lookup_insert_ne hp).trans h

theorem exists_upsertPoint :
    ∃ p row, (t.upsertPoint deviceId covCapable pathPrefix o newId).points.lookup p = some row ∧
      row.isObject deviceId o = true ∧ row.missing = false ∧ row.Describes covCapable o := by
  rcases hold : t.pointOf deviceId o with - | ⟨id, old⟩
  · refine ⟨newId, objectRow deviceId covCapable pathPrefix o none, ?_,
      PointRow.isObject_iff.mpr ⟨rfl, rfl, rfl⟩, rfl, rfl, rfl, rfl, rfl, rfl, rfl⟩
    rw [upsertPoint, hold]
    exact AList.lookup_insert _
  · refine ⟨id, objectRow deviceId covCapable pathPrefix o (some old), ?_,
      (keeps_objectRow.isObject _ _).trans (Table.of_find hold), rfl, rfl, rfl, rfl, rfl, rfl, rfl⟩
    rw [upsertPoint, hold]
    exact AList.lookup_insert _

theorem of_lookup_upsertPoint
    (h : (t.upsertPoint deviceId covCapable pathPrefix o newId).points.lookup p = some row) :
    (∃ old, t.points.lookup p = some old ∧ old.Keeps row) ∨
      row = objectRow deviceId covCapable pathPrefix o none := by
  rcases hold : t.pointOf deviceId o with - | ⟨id, old⟩
  · rw [upsertPoint, hold] at h
    by_cases hp : p = newId
    · subst hp
      exact .inr (Option.some.inj (h.symm.trans (AList.lookup_insert _)))
    · exact .inl ⟨row, (AList.lookup_insert_ne hp).symm.trans h, .refl row⟩
  · rw [upsertPoint, hold] at h
    by_cases hp : p = id
    · subst hp
      obtain rfl := Option.some.inj ((AList.lookup_insert _).symm.trans h)
      exact .inl ⟨old, Table.lookup_of_find hold, keeps_objectRow⟩
    · exact .inl ⟨row, (AList.lookup_insert_ne hp).symm.trans h, .refl row⟩

theorem of_lookup_upsertObjects {pairs : List (ObjectInfo × Uuid)}
    (h : (t.upsertObjects deviceId covCapable pathPrefix pairs).points.lookup p = some row) :
    (∃ old, t.points.lookup p = some old ∧ old.Keeps row) ∨
      ∃ o, (objectRow deviceId covCapable pathPrefix o none).Keeps row := by
  induction pairs generalizing t with
  | nil => exact .inl ⟨row, h, .refl row⟩
  | cons pair pairs ih =>
    obtain ⟨o, newId⟩ := pair
    rcases ih h with ⟨old, hold, hkeeps⟩ | hnew
    · rcases of_lookup_upsertPoint hold with ⟨first, hfirst, hfirstKeeps⟩ | rfl
      · exact .inl ⟨first, hfirst, hfirstKeeps.trans hkeeps⟩
      · exact .inr ⟨o, hkeeps⟩
    · exact .inr hnew

theorem Fresh.upsertPoint {ids : List Uuid} (h : t.Fresh (newId :: ids)) :
    (t.upsertPoint deviceId covCapable pathPrefix o newId).Fresh ids := by
  obtain ⟨hnodup, hnew⟩ := h
  refine ⟨hnodup.of_cons, fun id hid hmem ↦ ?_⟩
  have hout : id ∉ t.points := hnew id (List.mem_cons_of_mem _ hid)
  rw [Tables.upsertPoint] at hmem
  rcases (AList.mem_insert _).mp hmem with heq | hmem
  · rcases hold : t.pointOf deviceId o with - | e
    · rw [hold] at heq
      obtain rfl : id = newId := heq
      exact (List.nodup_cons.mp hnodup).1 hid
    · rw [hold] at heq
      obtain rfl : id = e.1 := heq
      exact hout (Table.mem_of_lookup (Table.lookup_of_find hold))
  · exact hout hmem

/-- A row keeps its identity and its settings; that of another device stays as it is. -/
theorem lookup_upsertObjects {pairs : List (ObjectInfo × Uuid)}
    (hfresh : t.Fresh (pairs.map Prod.snd)) (h : t.points.lookup p = some row) :
    ∃ row', (t.upsertObjects deviceId covCapable pathPrefix pairs).points.lookup p = some row' ∧
      row.Keeps row' ∧ (row.deviceId ≠ deviceId → row' = row) := by
  induction pairs generalizing t row with
  | nil => exact ⟨row, h, .refl row, fun _ ↦ rfl⟩
  | cons pair pairs ih =>
    obtain ⟨o, newId⟩ := pair
    obtain ⟨row₁, h₁, hrow₁⟩ : ∃ row₁,
        (t.upsertPoint deviceId covCapable pathPrefix o newId).points.lookup p = some row₁ ∧
        (row₁ = row ∨ row.isObject deviceId o = true ∧
          row₁ = objectRow deviceId covCapable pathPrefix o (some row)) :=
      lookup_upsertPoint (hfresh.2 newId List.mem_cons_self) h
    obtain ⟨row₂, h₂, hkeeps, hother⟩ := ih hfresh.upsertPoint h₁
    rcases hrow₁ with rfl | ⟨hobject, rfl⟩
    · exact ⟨row₂, h₂, hkeeps, hother⟩
    · refine ⟨row₂, h₂, keeps_objectRow.trans hkeeps, fun hne ↦ ?_⟩
      exact absurd (PointRow.isObject_iff.mp hobject).1 hne

theorem devices_upsertObjects (pairs : List (ObjectInfo × Uuid)) :
    (t.upsertObjects deviceId covCapable pathPrefix pairs).devices = t.devices := by
  induction pairs generalizing t with
  | nil => rfl
  | cons pair pairs ih => exact ih

/-- One of the objects has the row of this one: the last that is listed under its address. -/
def Listed (t : Tables) (deviceId : Uuid) (covCapable : Bool) (objects : List ObjectInfo)
    (o : ObjectInfo) : Prop :=
  ∃ p row, t.points.lookup p = some row ∧ row.isObject deviceId o = true ∧ row.missing = false ∧
    ∃ o' ∈ objects, row.isObject deviceId o' = true ∧ row.Describes covCapable o'

theorem listed_upsertObjects {objects : List ObjectInfo} {pairs : List (ObjectInfo × Uuid)}
    (hsub : ∀ pair ∈ pairs, pair.1 ∈ objects) (hfresh : t.Fresh (pairs.map Prod.snd))
    (ho : t.Listed deviceId covCapable objects o ∨ o ∈ pairs.map Prod.fst) :
    (t.upsertObjects deviceId covCapable pathPrefix pairs).Listed deviceId covCapable objects
      o := by
  induction pairs generalizing t with
  | nil => exact ho.resolve_right List.not_mem_nil
  | cons pair pairs ih =>
    obtain ⟨o₁, newId⟩ := pair
    have hmem : o₁ ∈ objects := hsub _ List.mem_cons_self
    have hnew : newId ∉ t.points := hfresh.2 newId List.mem_cons_self
    refine ih (fun pair hpair ↦ hsub pair (List.mem_cons_of_mem _ hpair)) hfresh.upsertPoint ?_
    rcases ho with ⟨p, row, hlookup, hobject, hmissing, o', ho', hobject', hdescribes⟩ | ho
    · left
      obtain ⟨row₁, h₁, rfl | ⟨hfirst, rfl⟩⟩ : ∃ row₁,
          (t.upsertPoint deviceId covCapable pathPrefix o₁ newId).points.lookup p = some row₁ ∧
          (row₁ = row ∨ row.isObject deviceId o₁ = true ∧
            row₁ = objectRow deviceId covCapable pathPrefix o₁ (some row)) :=
        lookup_upsertPoint hnew hlookup
      · exact ⟨p, row₁, h₁, hobject, hmissing, o', ho', hobject', hdescribes⟩
      · exact ⟨p, _, h₁, (keeps_objectRow.isObject _ _).trans hobject, rfl, o₁, hmem,
          (keeps_objectRow.isObject _ _).trans hfirst, rfl, rfl, rfl, rfl, rfl, rfl⟩
    · rcases List.mem_cons.mp ho with rfl | ho
      · left
        obtain ⟨p, row, hlookup, hobject, hmissing, hdescribes⟩ := exists_upsertPoint
        exact ⟨p, row, hlookup, hobject, hmissing, o, hmem, hobject, hdescribes⟩
      · exact .inr ho

theorem keeps_mark (objects : List ObjectInfo) : row.Keeps (mark deviceId objects row) := by
  rw [mark]
  split
  · exact ⟨rfl, rfl, rfl, rfl⟩
  · exact .refl row

theorem mark_of_ne {objects : List ObjectInfo} (h : row.deviceId ≠ deviceId) :
    mark deviceId objects row = row := by
  rw [mark, if_neg fun hboth ↦ h hboth.1]

theorem mark_of_any {objects : List ObjectInfo} (h : objects.any (row.isObject deviceId) = true) :
    mark deviceId objects row = row := by
  rw [mark, if_neg fun hboth ↦ by rw [h] at hboth; nomatch hboth.2]

theorem lookup_markMissing (objects : List ObjectInfo) :
    (t.markMissing deviceId objects).points.lookup p =
      (t.points.lookup p).map (mark deviceId objects) := Table.lookup_mapRows _

section

variable {objects : List ObjectInfo} {newIds : List Uuid}

theorem devices_upsertPoints :
    (t.upsertPoints deviceId objects covCapable pathPrefix newIds).devices = t.devices :=
  devices_upsertObjects _

/-- `upsert_points` leaves every row its identity and its settings, and those of another device as
they are. -/
theorem lookup_upsertPoints (hfresh : t.Fresh newIds) (hlength : newIds.length = objects.length)
    (h : t.points.lookup p = some row) :
    ∃ row', (t.upsertPoints deviceId objects covCapable pathPrefix newIds).points.lookup p =
      some row' ∧ row.Keeps row' ∧ (row.deviceId ≠ deviceId → row' = row) := by
  rw [← List.map_snd_zip hlength.le] at hfresh
  obtain ⟨row₁, h₁, hkeeps, hother⟩ : ∃ row₁, (t.upsertObjects deviceId covCapable pathPrefix
      (objects.zip newIds)).points.lookup p = some row₁ ∧ row.Keeps row₁ ∧
      (row.deviceId ≠ deviceId → row₁ = row) := lookup_upsertObjects hfresh h
  rw [upsertPoints, lookup_markMissing, h₁]
  refine ⟨_, rfl, hkeeps.trans (keeps_mark objects), fun hne ↦ ?_⟩
  rw [hother hne, mark_of_ne hne]

/-- After `upsert_points` a row was there before, or is that of a new object. -/
theorem of_lookup_upsertPoints
    (h : (t.upsertPoints deviceId objects covCapable pathPrefix newIds).points.lookup p =
      some row) :
    (∃ old, t.points.lookup p = some old ∧ old.Keeps row) ∨
      ∃ o, (objectRow deviceId covCapable pathPrefix o none).Keeps row := by
  rw [upsertPoints, lookup_markMissing] at h
  obtain ⟨before, hbefore, rfl⟩ := Option.map_eq_some_iff.mp h
  rcases of_lookup_upsertObjects hbefore with ⟨old, hold, hkeeps⟩ | ⟨o, hkeeps⟩
  · exact .inl ⟨old, hold, hkeeps.trans (keeps_mark objects)⟩
  · exact .inr ⟨o, hkeeps.trans (keeps_mark objects)⟩

theorem listed_upsertPoints (hfresh : t.Fresh newIds) (hlength : newIds.length = objects.length)
    (ho : o ∈ objects) :
    (t.upsertPoints deviceId objects covCapable pathPrefix newIds).Listed deviceId covCapable
      objects o := by
  rw [← List.map_snd_zip hlength.le] at hfresh
  have hzip : o ∈ (objects.zip newIds).map Prod.fst := by rwa [List.map_fst_zip hlength.ge]
  obtain ⟨p, row, hlookup, hobject, hmissing, o', ho', hobject', hdescribes⟩ :
      (t.upsertObjects deviceId covCapable pathPrefix (objects.zip newIds)).Listed deviceId
        covCapable objects o :=
    listed_upsertObjects (fun pair hpair ↦ (List.of_mem_zip hpair).1) hfresh (.inr hzip)
  refine ⟨p, row, ?_, hobject, hmissing, o', ho', hobject', hdescribes⟩
  rw [upsertPoints, lookup_markMissing, hlookup, Option.map_some,
    mark_of_any (List.any_eq_true.mpr ⟨o, ho, hobject⟩)]

theorem missing_upsertPoints
    (h : (t.upsertPoints deviceId objects covCapable pathPrefix newIds).points.lookup p = some row)
    (hdevice : row.deviceId = deviceId) (hmissing : row.missing = false) :
    ∃ o ∈ objects, row.isObject deviceId o = true := by
  rw [upsertPoints, lookup_markMissing] at h
  obtain ⟨old, -, rfl⟩ := Option.map_eq_some_iff.mp h
  rcases hany : objects.any (old.isObject deviceId) with - | -
  · rw [mark, if_pos ⟨(keeps_mark objects).deviceId.symm.trans hdevice, hany⟩] at hmissing
    nomatch hmissing
  · rw [mark_of_any hany]
    exact List.any_eq_true.mp hany

end

end Tables

end Superviseur
