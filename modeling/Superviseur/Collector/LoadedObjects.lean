import Superviseur.Collector.ObjectGraph

/-!
# Loading the objects

`load_devices` makes an object for each device of the network and one for each of its points that is
not missing. Where the interpreter puts them is a parameter: an address for each row, that no object
of the registry has. What it loads then satisfies what `replace` asks of it, whatever the tables
hold (`loaded_loadObjects`), and has the values that the tables load without the objects
(`map_deviceState_loadObjects`). A discovery on the objects is one on the values: `discovered`.
-/

namespace Superviseur

/-- Where the interpreter puts the object of a row. -/
structure NewObjects where
  device : Uuid → Addr
  point : Uuid → Addr

/-- Objects have addresses of their own. -/
structure NewObjects.Fresh (new : NewObjects) (r : Indexes) : Prop where
  device_injective : Function.Injective new.device
  point_injective : Function.Injective new.point
  device_ne : ∀ {id a}, r.devices.get? id = some a → ∀ id', new.device id' ≠ a
  point_ne : ∀ {id p}, r.points.get? id = some p → ∀ id', new.point id' ≠ p

/-- The `DeviceState` made for a row. -/
def DeviceObject.new (id : Uuid) (row : DeviceRow) : DeviceObject where
  deviceId := id
  deviceInstance := row.deviceInstance
  address := row.address
  name := row.name
  supportsCov := false
  online := row.online
  points := .empty
  failures := 0
  lastContact := 0
  lastAttempt := 0
  lastSeenWritten := 0

/-- The device, with points more. -/
def DeviceObject.withPoints (device : DeviceObject) (covCapable : Bool)
    (entries : List (Uuid × Addr)) : DeviceObject :=
  { device with
    supportsCov := device.supportsCov || covCapable
    points := entries.foldl (fun d e ↦ d.insert e.1 e.2) device.points }

theorem DeviceObject.withPoints_nil (device : DeviceObject) :
    device.withPoints false [] = device := by
  rw [withPoints, Bool.or_false]
  rfl

theorem DeviceObject.withPoints_withPoints (device : DeviceObject) (c c' : Bool)
    (es es' : List (Uuid × Addr)) :
    (device.withPoints c es).withPoints c' es' = device.withPoints (c || c') (es ++ es') := by
  rw [withPoints, withPoints, withPoints, List.foldl_append, Bool.or_assoc]

/-- The `PointState` made for a row, with the address of its device. -/
def PointObject.new (id : Uuid) (row : PointRow) (device : DeviceObject) (default : ℚ) :
    PointObject where
  toPointState := .new ⟨id, device.deviceInstance, device.address, row.objectType,
    row.objectInstance⟩ row.path row.deadband row.maxIntervalS
    (pollInterval row.pollIntervalS default) row.covCapable
  name := row.name
  device := none

namespace Tables

variable (new : NewObjects) (default : ℚ)

/-- One entry of `states`. -/
def addDevice (h : Heap) (e : Σ _ : Uuid, DeviceRow) : Heap :=
  h.modifyDevice (new.device e.1) fun _ ↦ .new e.1 e.2

/-- One turn of the loop over the points. -/
def addPoint (h : Heap) (e : Σ _ : Uuid, PointRow) : Heap :=
  let a := new.device e.2.deviceId
  let h := h.modifyDevice a fun device ↦
    { device with supportsCov := device.supportsCov || e.2.covCapable }
  let h := h.modifyPoint (new.point e.1) fun _ ↦ .new e.1 e.2 (h.device a) default
  h.modifyDevice a fun device ↦
    { device with points := device.points.insert e.1 (new.point e.1) }

/-- The rows of the devices of the network. -/
def deviceRows (t : Tables) (networkId : Uuid) : List (Σ _ : Uuid, DeviceRow) :=
  t.devices.entries.filter fun e ↦ e.2.networkId = networkId

/-- The rows of their points that are not missing. -/
def pointRows (t : Tables) (networkId : Uuid) : List (Σ _ : Uuid, PointRow) :=
  t.points.entries.filter fun e ↦
    e.2.deviceId ∈ (t.deviceRows networkId).map Sigma.fst ∧ e.2.missing = false

/-- `load_devices`: the objects of the devices, and the heap they are in. -/
def loadObjects (t : Tables) (networkId : Uuid) (h : Heap) : List Addr × Heap :=
  let h := (t.deviceRows networkId).foldl (addDevice new) h
  let h := (t.pointRows networkId).foldl (addPoint new default) h
  (((t.deviceRows networkId).map fun e ↦ new.device e.1).insertionSort fun a b ↦
    (h.device a).deviceInstance ≤ (h.device b).deviceInstance, h)

/-! ## The loops -/

variable {new default} {t : Tables} {networkId : Uuid} {r : Indexes} {h : Heap}

/-- The entries that the loop over the points adds for a device. -/
def entriesOf (new : NewObjects) (id : Uuid) (rows : List (Σ _ : Uuid, PointRow)) :
    List (Uuid × Addr) :=
  (rows.filter fun e ↦ e.2.deviceId = id).map fun e ↦ (e.1, new.point e.1)

theorem device_addDevices (hnew : Function.Injective new.device)
    {rows : List (Σ _ : Uuid, DeviceRow)} (hrows : (rows.map Sigma.fst).Nodup)
    {e : Σ _ : Uuid, DeviceRow} (he : e ∈ rows) (h : Heap) :
    (rows.foldl (addDevice new) h).device (new.device e.1) = .new e.1 e.2 := by
  have hframe : Objects.Frame (fun _ ↦ True) Heap.device (addDevice new)
      fun e a ↦ a = new.device e.1 :=
    ⟨fun _ _ _ ↦ trivial, fun s e a _ hne ↦ Function.update_of_ne hne ..⟩
  have hdisjoint : rows.Pairwise fun e e' ↦ ∀ a, a = new.device e.1 → ¬ a = new.device e'.1 :=
    (List.pairwise_map.mp hrows).imp fun hne a ha ha' ↦ hne (hnew (ha.symm.trans ha'))
  obtain ⟨s, -, -, hwritten⟩ := hframe.foldl_written (s := h) trivial hdisjoint he rfl
  rw [hwritten]
  exact Function.update_self ..

theorem device_addPoint (hnew : Function.Injective new.device) (h : Heap)
    (e : Σ _ : Uuid, PointRow) (id : Uuid) :
    (addPoint new default h e).device (new.device id) =
      if e.2.deviceId = id then
        (h.device (new.device id)).withPoints e.2.covCapable [(e.1, new.point e.1)]
      else h.device (new.device id) := by
  rw [addPoint]
  simp only [Heap.modifyDevice, Heap.modifyPoint]
  by_cases hid : e.2.deviceId = id
  · subst hid
    rw [if_pos rfl, Function.update_self, Function.update_self]
    rfl
  · have hne : new.device id ≠ new.device e.2.deviceId := fun heq ↦ hid (hnew heq.symm)
    rw [if_neg hid, Function.update_of_ne hne, Function.update_of_ne hne]

theorem device_addPoints (hnew : Function.Injective new.device)
    (rows : List (Σ _ : Uuid, PointRow)) (h : Heap) (id : Uuid) :
    (rows.foldl (addPoint new default) h).device (new.device id) =
      (h.device (new.device id)).withPoints
        ((rows.filter fun e ↦ e.2.deviceId = id).any fun e ↦ e.2.covCapable)
        (entriesOf new id rows) := by
  induction rows generalizing h with
  | nil => exact (DeviceObject.withPoints_nil _).symm
  | cons e rows ih =>
    rw [List.foldl_cons, ih, device_addPoint hnew, entriesOf, entriesOf]
    by_cases hid : e.2.deviceId = id
    · rw [if_pos hid, List.filter_cons_of_pos (by simpa using hid), List.map_cons, List.any_cons,
        DeviceObject.withPoints_withPoints]
      rfl
    · rw [if_neg hid, List.filter_cons_of_neg (by simpa using hid)]

/-- The address of the devices does not change in the loop over the points. -/
def SameAddress (h s : Heap) : Prop := ∀ a,
  (s.device a).deviceInstance = (h.device a).deviceInstance ∧
    (s.device a).address = (h.device a).address

theorem SameAddress.addPoint {s : Heap} (hs : SameAddress h s) (e : Σ _ : Uuid, PointRow) :
    SameAddress h (addPoint new default s e) := by
  intro a
  rw [Tables.addPoint]
  simp only [Heap.modifyDevice, Heap.modifyPoint]
  by_cases ha : a = new.device e.2.deviceId
  · subst ha
    rw [Function.update_self, Function.update_self]
    exact hs _
  · rw [Function.update_of_ne ha, Function.update_of_ne ha]
    exact hs a

theorem point_addPoints (hnew : Function.Injective new.point)
    {rows : List (Σ _ : Uuid, PointRow)} (hrows : (rows.map Sigma.fst).Nodup)
    {e : Σ _ : Uuid, PointRow} (he : e ∈ rows) (h : Heap) :
    (rows.foldl (addPoint new default) h).point (new.point e.1) =
      .new e.1 e.2 (h.device (new.device e.2.deviceId)) default := by
  have hframe : Objects.Frame (SameAddress h) Heap.point (addPoint new default)
      fun e p ↦ p = new.point e.1 :=
    ⟨fun s e hs ↦ hs.addPoint e, fun s e p _ hne ↦ Function.update_of_ne hne ..⟩
  have hdisjoint : rows.Pairwise fun e e' ↦ ∀ p, p = new.point e.1 → ¬ p = new.point e'.1 :=
    (List.pairwise_map.mp hrows).imp fun hne p hp hp' ↦ hne (hnew (hp.symm.trans hp'))
  obtain ⟨s, hs, -, hwritten⟩ := hframe.foldl_written (s := h) (fun _ ↦ ⟨rfl, rfl⟩) hdisjoint he rfl
  rw [hwritten, addPoint]
  simp only [Heap.modifyDevice, Heap.modifyPoint, Function.update_self, PointObject.new,
    (hs _).1, (hs _).2]

/-! ## What is loaded -/

theorem nodup_deviceRows (t : Tables) (networkId : Uuid) :
    ((t.deviceRows networkId).map Sigma.fst).Nodup :=
  t.devices.nodupKeys.sublist List.filter_sublist

theorem nodup_pointRows (t : Tables) (networkId : Uuid) :
    ((t.pointRows networkId).map Sigma.fst).Nodup :=
  t.points.nodupKeys.sublist List.filter_sublist

theorem mem_loadObjects {a : Addr} : a ∈ (t.loadObjects new default networkId h).1 ↔
    ∃ e ∈ t.deviceRows networkId, new.device e.1 = a := by
  rw [loadObjects, List.mem_insertionSort, List.mem_map]

section Fresh

variable (hnew : new.Fresh r)
include hnew

theorem device_loadObjects {e : Σ _ : Uuid, DeviceRow} (he : e ∈ t.deviceRows networkId) :
    (t.loadObjects new default networkId h).2.device (new.device e.1) =
      (DeviceObject.new e.1 e.2).withPoints
        (((t.pointRows networkId).filter fun p ↦ p.2.deviceId = e.1).any fun p ↦ p.2.covCapable)
        (entriesOf new e.1 (t.pointRows networkId)) := by
  rw [loadObjects]
  dsimp only
  rw [device_addPoints hnew.device_injective, device_addDevices hnew.device_injective
    (nodup_deviceRows t networkId) he]

theorem entries_loadObjects {e : Σ _ : Uuid, DeviceRow} (he : e ∈ t.deviceRows networkId) :
    ((t.loadObjects new default networkId h).2.device (new.device e.1)).points.entries =
      entriesOf new e.1 (t.pointRows networkId) := by
  have hnodup : ((entriesOf new e.1 (t.pointRows networkId)).map Prod.fst).Nodup := by
    rw [entriesOf, List.map_map]
    exact (nodup_pointRows t networkId).sublist (List.filter_sublist.map _)
  rw [device_loadObjects hnew he]
  exact OrderedDict.entries_ofList hnodup

theorem point_loadObjects {e : Σ _ : Uuid, DeviceRow} (he : e ∈ t.deviceRows networkId)
    {p : Σ _ : Uuid, PointRow} (hp : p ∈ t.pointRows networkId) (hdevice : p.2.deviceId = e.1) :
    (t.loadObjects new default networkId h).2.point (new.point p.1) =
      .new p.1 p.2 (.new e.1 e.2) default := by
  rw [loadObjects]
  dsimp only
  rw [point_addPoints hnew.point_injective (nodup_pointRows t networkId) hp, hdevice,
    device_addDevices hnew.device_injective (nodup_deviceRows t networkId) he]

/-- The entries of the devices that are loaded are those of the rows of their points. -/
theorem mem_pointEntries_loadObjects {entry : Uuid × Addr} :
    entry ∈ (t.loadObjects new default networkId h).2.pointEntries
        (t.loadObjects new default networkId h).1 ↔
      ∃ e ∈ t.deviceRows networkId, ∃ p ∈ t.pointRows networkId, p.2.deviceId = e.1 ∧
        (p.1, new.point p.1) = entry := by
  rw [Indexes.mem_pointEntries]
  constructor
  · rintro ⟨a, ha, hentry⟩
    obtain ⟨e, he, rfl⟩ := mem_loadObjects.mp ha
    rw [entries_loadObjects hnew he] at hentry
    obtain ⟨p, hp, rfl⟩ := List.mem_map.mp hentry
    obtain ⟨hp, hdevice⟩ := List.mem_filter.mp hp
    exact ⟨e, he, p, hp, of_decide_eq_true hdevice, rfl⟩
  · rintro ⟨e, he, p, hp, hdevice, rfl⟩
    refine ⟨new.device e.1, mem_loadObjects.mpr ⟨e, he, rfl⟩, ?_⟩
    rw [entries_loadObjects hnew he]
    exact List.mem_map_of_mem (List.mem_filter.mpr ⟨hp, decide_eq_true hdevice⟩)

omit hnew in
theorem loadObjects_perm (t : Tables) (networkId : Uuid) (new : NewObjects) (default : ℚ)
    (h : Heap) : (t.loadObjects new default networkId h).1.Perm
      ((t.deviceRows networkId).map fun e ↦ new.device e.1) :=
  List.perm_insertionSort ..

theorem pointEntries_perm :
    ((t.loadObjects new default networkId h).2.pointEntries
      (t.loadObjects new default networkId h).1).Perm
      ((t.deviceRows networkId).flatMap fun e ↦ entriesOf new e.1 (t.pointRows networkId)) := by
  refine ((loadObjects_perm t networkId new default h).flatMap_right _).trans ?_
  rw [List.flatMap_map, List.flatMap_congr fun e he ↦ entries_loadObjects hnew he]

omit hnew in
theorem nodup_entriesOf (t : Tables) (networkId : Uuid) (new : NewObjects) :
    (((t.deviceRows networkId).flatMap fun e ↦
      entriesOf new e.1 (t.pointRows networkId)).map Prod.fst).Nodup := by
  rw [List.map_flatMap, List.nodup_flatMap]
  constructor
  · intro e _
    rw [entriesOf, List.map_map]
    exact (nodup_pointRows t networkId).sublist (List.filter_sublist.map _)
  · refine (List.pairwise_map.mp (nodup_deviceRows t networkId)).imp fun {e e'} hne ↦ ?_
    intro id hid hid'
    obtain ⟨x, hx, rfl⟩ := List.mem_map.mp hid
    obtain ⟨x', hx', heq⟩ := List.mem_map.mp hid'
    obtain ⟨p, hp, rfl⟩ := List.mem_map.mp hx
    obtain ⟨p', hp', rfl⟩ := List.mem_map.mp hx'
    obtain ⟨hp, hdevice⟩ := List.mem_filter.mp hp
    obtain ⟨hp', hdevice'⟩ := List.mem_filter.mp hp'
    -- one row has this identifier, and it has one device
    have hrow := List.inj_on_of_nodup_map (nodup_pointRows t networkId) hp' hp heq
    rw [hrow] at hdevice'
    exact hne ((of_decide_eq_true hdevice).symm.trans (of_decide_eq_true hdevice'))

/-- **What `load_devices` loads is fit for `replace`.** -/
theorem loaded_loadObjects (t : Tables) (networkId : Uuid) (default : ℚ) (h : Heap) :
    Indexes.Loaded (t.loadObjects new default networkId h).2 r
      (t.loadObjects new default networkId h).1 where
  ids := by
    have hids : ((t.deviceRows networkId).map fun e ↦ new.device e.1).map
        (fun a ↦ ((t.loadObjects new default networkId h).2.device a).deviceId) =
        (t.deviceRows networkId).map Sigma.fst := by
      rw [List.map_map]
      refine List.map_congr_left fun e he ↦ ?_
      rw [Function.comp_apply, device_loadObjects hnew he]
      rfl
    rw [((loadObjects_perm t networkId new default h).map _).nodup_iff, hids]
    exact nodup_deviceRows t networkId
  pointIds := by
    rw [((pointEntries_perm hnew).map Prod.fst).nodup_iff]
    exact nodup_entriesOf t networkId new
  pointObjects := by
    have hobjects : ((t.deviceRows networkId).flatMap fun e ↦
        entriesOf new e.1 (t.pointRows networkId)).map Prod.snd =
        (((t.deviceRows networkId).flatMap fun e ↦
          entriesOf new e.1 (t.pointRows networkId)).map Prod.fst).map new.point := by
      simp only [entriesOf, List.map_flatMap, List.map_map, Function.comp_def]
    rw [((pointEntries_perm hnew).map Prod.snd).nodup_iff, hobjects]
    exact (nodup_entriesOf t networkId new).map hnew.point_injective
  newDevices hid ha := by
    obtain ⟨e, -, rfl⟩ := mem_loadObjects.mp ha
    exact hnew.device_ne hid e.1 rfl
  newPoints hid hp := by
    obtain ⟨entry, hentry, rfl⟩ := List.mem_map.mp hp
    obtain ⟨e, -, p, -, -, rfl⟩ := (mem_pointEntries_loadObjects hnew).mp hentry
    exact hnew.point_ne hid p.1 rfl

/-! ## The values that are loaded -/

omit hnew in
theorem points_loadDevice {e : Σ _ : Uuid, DeviceRow} (he : e ∈ t.deviceRows networkId) :
    (t.points.entries.filterMap fun p ↦
      if p.2.deviceId = e.1 ∧ p.2.missing = false then some (loadPoint p.1 p.2 e.2 default)
      else none) =
      ((t.pointRows networkId).filter fun p ↦ p.2.deviceId = e.1).map fun p ↦
        loadPoint p.1 p.2 e.2 default := by
  have hlisted : e.1 ∈ (t.deviceRows networkId).map Sigma.fst := List.mem_map_of_mem he
  rw [pointRows, List.filter_filter]
  induction t.points.entries with
  | nil => rfl
  | cons p rows ih =>
    by_cases hp : p.2.deviceId = e.1 ∧ p.2.missing = false
    · rw [List.filterMap_cons, if_pos hp, ih, List.filter_cons_of_pos]
      · rfl
      · simp [hp.1, hp.2, hlisted]
    · rw [List.filterMap_cons, if_neg hp, ih, List.filter_cons_of_neg]
      rw [Bool.and_eq_true, decide_eq_true_iff, decide_eq_true_iff]
      exact fun h ↦ hp ⟨h.1, h.2.2⟩

theorem deviceState_loadObjects {e : Σ _ : Uuid, DeviceRow} (he : e ∈ t.deviceRows networkId) :
    (t.loadObjects new default networkId h).2.deviceState (new.device e.1) =
      t.loadDevice e.1 e.2 default := by
  have hpoints :
      ((t.loadObjects new default networkId h).2.device (new.device e.1)).points.entries.map
      (fun entry ↦ ((t.loadObjects new default networkId h).2.point entry.2).toPointState) =
      ((t.pointRows networkId).filter fun p ↦ p.2.deviceId = e.1).map fun p ↦
        loadPoint p.1 p.2 e.2 default := by
    rw [entries_loadObjects hnew he, entriesOf, List.map_map]
    refine List.map_congr_left fun p hp ↦ ?_
    obtain ⟨hp, hdevice⟩ := List.mem_filter.mp hp
    rw [Function.comp_apply, point_loadObjects hnew he hp (of_decide_eq_true hdevice)]
    rfl
  rw [Heap.deviceState, hpoints, device_loadObjects hnew he, loadDevice, points_loadDevice he,
    List.any_map]
  simp only [DeviceObject.withPoints, DeviceObject.new, DeviceState.new, Bool.false_or]
  rfl

/-- **The objects have the values that the tables load.** -/
theorem map_deviceState_loadObjects (t : Tables) (networkId : Uuid) (default : ℚ) (h : Heap) :
    (t.loadObjects new default networkId h).1.map
        (t.loadObjects new default networkId h).2.deviceState =
      t.loadDevices networkId default := by
  have hsort : (t.loadObjects new default networkId h).1.map
      (t.loadObjects new default networkId h).2.deviceState =
      (((t.deviceRows networkId).map fun e ↦ new.device e.1).map
        (t.loadObjects new default networkId h).2.deviceState).insertionSort
        fun a b ↦ a.deviceInstance ≤ b.deviceInstance :=
    List.map_insertionSort _ _ _ _ fun _ _ _ _ ↦ Iff.rfl
  have hrows : (t.deviceRows networkId).map
      ((t.loadObjects new default networkId h).2.deviceState ∘ fun e ↦ new.device e.1) =
      (t.deviceRows networkId).map fun e ↦ t.loadDevice e.1 e.2 default :=
    List.map_congr_left fun e he ↦ deviceState_loadObjects hnew he
  rw [hsort, List.map_map, hrows]
  rfl

/-! ## A discovery -/

omit hnew in
theorem device_loadObjects_of_ne {a : Addr} (ha : ∀ id, new.device id ≠ a) :
    (t.loadObjects new default networkId h).2.device a = h.device a := by
  have hdevices : Objects.Frame (fun _ ↦ True) Heap.device (addDevice new)
      fun e a ↦ a = new.device e.1 :=
    ⟨fun _ _ _ ↦ trivial, fun s e a _ hne ↦ Function.update_of_ne hne ..⟩
  have hpoints : Objects.Frame (fun _ ↦ True) Heap.device (addPoint new default)
      fun e a ↦ a = new.device e.2.deviceId := by
    refine ⟨fun _ _ _ ↦ trivial, fun s e a _ hne ↦ ?_⟩
    rw [addPoint]
    simp only [Heap.modifyDevice, Heap.modifyPoint, Function.update_of_ne hne]
  rw [loadObjects]
  exact (hpoints.foldl_unwritten trivial fun e _ heq ↦ ha _ heq.symm).trans
    (hdevices.foldl_unwritten trivial fun e _ heq ↦ ha _ heq.symm)

omit hnew in
theorem point_loadObjects_of_ne {p : Addr} (hp : ∀ id, new.point id ≠ p) :
    (t.loadObjects new default networkId h).2.point p = h.point p := by
  have hdevices : Objects.Frame (fun _ ↦ True) Heap.point (addDevice new) fun _ _ ↦ False :=
    ⟨fun _ _ _ ↦ trivial, fun _ _ _ _ _ ↦ rfl⟩
  have hpoints : Objects.Frame (fun _ ↦ True) Heap.point (addPoint new default)
      fun e p ↦ p = new.point e.1 :=
    ⟨fun _ _ _ ↦ trivial, fun s e p _ hne ↦ Function.update_of_ne hne ..⟩
  rw [loadObjects]
  exact (hpoints.foldl_unwritten trivial fun e _ heq ↦ hp _ heq.symm).trans
    (hdevices.foldl_unwritten trivial fun _ _ h ↦ h)

/-- **A discovery.** The indexes agree after it as they did before, and have the values that the
registry of values has after the same load. -/
theorem discovered (hr : Indexes.Consistent h r) (hkeyed : Indexes.Keyed h r) (t : Tables)
    (networkId : Uuid) (default : ℚ) :
    let loaded := t.loadObjects new default networkId h
    let after := r.replace loaded.2 loaded.1
    Indexes.Consistent after.2 after.1 ∧ Indexes.Keyed after.2 after.1 ∧
      after.1.registry after.2 = (r.registry h).replace (t.loadDevices networkId default) := by
  intro loaded after
  have hloaded : Indexes.Loaded loaded.2 r loaded.1 :=
    loaded_loadObjects hnew t networkId default h
  have hdevice : ∀ {id a}, r.devices.get? id = some a → loaded.2.device a = h.device a :=
    fun hid ↦ device_loadObjects_of_ne (hnew.device_ne hid)
  have hpoint : ∀ {id p}, r.point id = some p → loaded.2.point p = h.point p :=
    fun hid ↦ point_loadObjects_of_ne (hnew.point_ne hid)
  have hkeys : ∀ e ∈ loaded.2.pointEntries loaded.1, (loaded.2.point e.2).ref.pointId = e.1 := by
    intro entry hentry
    obtain ⟨e, he, p, hp, hown, rfl⟩ := (mem_pointEntries_loadObjects hnew).mp hentry
    rw [point_loadObjects hnew he hp hown]
    rfl
  refine ⟨Indexes.consistent_replace hloaded, ?_, ?_⟩
  · intro id p hid
    have hentry := (Indexes.point_replace_iff hloaded).mp hid
    have hconfig := Indexes.config_point_replace hloaded hentry
    exact (congrArg (fun c ↦ c.ref.pointId) hconfig).trans (hkeys _ hentry)
  · rw [← map_deviceState_loadObjects hnew t networkId default h,
      ← Indexes.registry_congr hr hdevice hpoint]
    exact Indexes.registry_replace (hr.congr hdevice hpoint) (hkeyed.congr hpoint) hloaded hkeys

end Fresh

end Tables

end Superviseur
