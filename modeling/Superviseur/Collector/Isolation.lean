import Superviseur.Collector.Import

/-!
# Isolation of the devices

A device that cannot be described is left out, and the others are imported. Any other failure ends
the discovery: `import_device` catches the errors of the driver around `describe`, and nothing else.
-/

namespace Superviseur

namespace Import

/-- The objects a device has, among those that are imported. -/
def Has (cfg : ImportConfig) (d : DeviceInfo × Answers) (objects : List ObjectInfo) : Prop :=
  ∃ described, d.2.describe = .objects described ∧ kept cfg described = objects

/-- The device has its row, its objects have theirs, and its other points are missing. -/
def Imported (cfg : ImportConfig) (t : Tables) (info : DeviceInfo) (objects : List ObjectInfo) :
    Prop :=
  ∃ id now, t.devices.lookup id = some (Tables.answered cfg.networkId info now) ∧
    (∀ o ∈ objects, t.Listed id info.supportsCov objects o) ∧
    ∀ p row, t.points.lookup p = some row → row.deviceId = id → row.missing = false →
      ∃ o ∈ objects, row.isObject id o = true

/-- The row is that of a device of the network, by its instance. -/
def IsDevice (cfg : ImportConfig) (info : DeviceInfo) (row : DeviceRow) : Prop :=
  row.networkId = cfg.networkId ∧ row.deviceInstance = info.deviceInstance

/-- The new object of a point has the follow-up of the old one. -/
def SameFollowUp (old new : PointState) : Prop := new = new.resume (some old)

/-- The call returns, with the registry of the database; the devices without a failure are imported,
the points of the others stay as they were, with their follow-up. -/
structure Isolated (cfg : ImportConfig) (found : Discovered) (tables : Tables) (registry : Registry)
    (s : Import) : Prop where
  returned : s.main = .returned
  replaced : s.registry =
    registry.replace (s.tables.loadDevices cfg.networkId cfg.defaultIntervalS)
  imported : ∀ d ∈ found.devices, d.2.fails = false →
    ∃ objects, Has cfg d objects ∧ Imported cfg s.tables d.1 objects
  rows : ∀ d ∈ found.devices, d.2.fails = true → ∀ p row device,
    tables.points.lookup p = some row → tables.devices.lookup row.deviceId = some device →
    IsDevice cfg d.1 device → s.tables.points.lookup p = some row
  followUp : ∀ d ∈ found.devices, d.2.fails = true → ∀ p row device,
    tables.points.lookup p = some row → row.missing = false →
    tables.devices.lookup row.deviceId = some device → IsDevice cfg d.1 device →
    ∀ old ∈ registry.point p, ∃ new ∈ s.registry.point p, SameFollowUp old new

/-- What a task has done for its device. -/
def TaskValid (cfg : ImportConfig) (s : Import) (d : DeviceInfo × Answers) : ImportTask → Prop
  | .waiting | .describing => True
  | .upsertingDevice objects => Has cfg d objects
  | .upsertingPoints id objects => Has cfg d objects ∧ d.2.refusesDevice = false ∧
      ∃ now, s.tables.devices.lookup id = some (Tables.answered cfg.networkId d.1 now)
  | .done => d.2.fails = false ∧ ∃ objects, Has cfg d objects ∧ Imported cfg s.tables d.1 objects
  | .skipped => d.2.describe = .driverError
  | .failed => d.2.fails = true ∧ d.2.describe ≠ .driverError ∧ s.main = .raised

/-- What every state satisfies. -/
structure Valid (cfg : ImportConfig) (found : Discovered) (tables : Tables) (registry : Registry)
    (s : Import) : Prop where
  length : s.tasks.length = found.devices.length
  task : ∀ (i : ℕ) d task, found.devices[i]? = some d → s.tasks[i]? = some task →
    TaskValid cfg s d task
  /-- A device keeps its identity. -/
  devices : ∀ id row, tables.devices.lookup id = some row →
    ∃ new, s.tables.devices.lookup id = some new ∧ new.networkId = row.networkId ∧
      new.deviceInstance = row.deviceInstance
  /-- A point keeps its row until its device is imported. -/
  points : ∀ p row device, tables.points.lookup p = some row →
    tables.devices.lookup row.deviceId = some device →
    ∃ new, s.tables.points.lookup p = some new ∧ row.Keeps new ∧
      (new = row ∨ ∃ (i : ℕ) (d : _), found.devices[i]? = some d ∧ s.tasks[i]? = some .done ∧
        IsDevice cfg d.1 device)
  raised : s.main = .raised → .failed ∈ s.tasks
  unchanged : s.main ≠ .returned → s.registry = registry
  returned : s.main = .returned → (∀ task ∈ s.tasks, task = .done ∨ task = .skipped) ∧
    s.registry = registry.replace (s.tables.loadDevices cfg.networkId cfg.defaultIntervalS)

/-- What writing a device leaves alone in the tables. -/
structure Aside (cfg : ImportConfig) (info : DeviceInfo) (t t' : Tables) : Prop where
  devices : ∀ id row, t.devices.lookup id = some row →
    ∃ new, t'.devices.lookup id = some new ∧ new.networkId = row.networkId ∧
      new.deviceInstance = row.deviceInstance ∧ (¬ IsDevice cfg info row → new = row)
  keeps : ∀ p row, t.points.lookup p = some row →
    ∃ new, t'.points.lookup p = some new ∧ row.Keeps new
  points : ∀ p row device, t.points.lookup p = some row →
    t.devices.lookup row.deviceId = some device → ¬ IsDevice cfg info device →
    t'.points.lookup p = some row
  new : ∀ p row, t'.points.lookup p = some row →
    (∃ old, t.points.lookup p = some old ∧ old.Keeps row) ∨
      ∃ device, t'.devices.lookup row.deviceId = some device ∧ IsDevice cfg info device

variable {cfg : ImportConfig} {found : Discovered} {tables : Tables} {registry : Registry}
  {s s' : Import} {e : Event} {info other : DeviceInfo} {t t' : Tables} {objects : List ObjectInfo}

/-! ## What a step does -/

/-- The steps of the call: a task goes on, or lets an exception through, or the call returns. -/
inductive Move (cfg : ImportConfig) (found : Discovered) (s : Import) : Import → Prop
  | acquired {i : ℕ} (hi : s.tasks[i]? = some .waiting) :
      Move cfg found s (s.setTask i .describing)
  | described {i : ℕ} {d : DeviceInfo × Answers} {objects : List ObjectInfo}
      (hi : s.tasks[i]? = some .describing) (hd : found.devices[i]? = some d)
      (hdescribe : d.2.describe = .objects objects) :
      Move cfg found s (s.setTask i (.upsertingDevice (kept cfg objects)))
  | skipped {i : ℕ} {d : DeviceInfo × Answers}
      (hi : s.tasks[i]? = some .describing) (hd : found.devices[i]? = some d)
      (hdescribe : d.2.describe = .driverError) : Move cfg found s (s.setTask i .skipped)
  | raised {i : ℕ} {d : DeviceInfo × Answers}
      (hi : s.tasks[i]? = some .describing) (hd : found.devices[i]? = some d)
      (hdescribe : d.2.describe = .raised) : Move cfg found s (s.fail i)
  | deviceRefused {i : ℕ} {d : DeviceInfo × Answers} {objects : List ObjectInfo}
      (hi : s.tasks[i]? = some (.upsertingDevice objects)) (hd : found.devices[i]? = some d)
      (hrefuses : d.2.refusesDevice = true) : Move cfg found s (s.fail i)
  | deviceWritten {i : ℕ} {d : DeviceInfo × Answers} {objects : List ObjectInfo}
      (hi : s.tasks[i]? = some (.upsertingDevice objects)) (hd : found.devices[i]? = some d)
      (hrefuses : d.2.refusesDevice = false) (now : Instant) {newId : Uuid}
      (hnew : newId ∉ s.tables.devices) :
      Move cfg found s { s.setTask i (.upsertingPoints
          (s.tables.upsertDevice cfg.networkId d.1 now newId).2 objects) with
        tables := (s.tables.upsertDevice cfg.networkId d.1 now newId).1 }
  | pointsRefused {i : ℕ} {d : DeviceInfo × Answers} {id : Uuid} {objects : List ObjectInfo}
      (hi : s.tasks[i]? = some (.upsertingPoints id objects)) (hd : found.devices[i]? = some d)
      (hrefuses : d.2.refusesPoints = true) : Move cfg found s (s.fail i)
  | pointsWritten {i : ℕ} {d : DeviceInfo × Answers} {id : Uuid} {objects : List ObjectInfo}
      (hi : s.tasks[i]? = some (.upsertingPoints id objects)) (hd : found.devices[i]? = some d)
      (hrefuses : d.2.refusesPoints = false) {newIds : List Uuid}
      (hlength : newIds.length = objects.length) (hfresh : s.tables.Fresh newIds) :
      Move cfg found s { s.setTask i .done with
        tables :=
          s.tables.upsertPoints id objects d.1.supportsCov (pathPrefix cfg d.1) newIds
        inventory := s.inventory ++ [(d.1.deviceInstance, objects)] }
  | finished (hmain : s.main = .gathering)
      (hwell : ∀ task ∈ s.tasks, task = .done ∨ task = .skipped) :
      Move cfg found s { s with
        registry := s.registry.replace (s.tables.loadDevices cfg.networkId cfg.defaultIntervalS)
        main := .returned }

theorem move_of_next (hnext : next cfg found s e = some s') : Move cfg found s s' := by
  cases e with
  | acquire i =>
    simp only [next] at hnext
    split at hnext
    · rename_i hi
      obtain ⟨-, heq⟩ := Option.ite_none_right_eq_some.mp hnext
      exact Option.some.inj heq ▸ .acquired hi
    · nomatch hnext
  | describe i =>
    simp only [next] at hnext
    split at hnext
    · rename_i info answers hi hd
      split at hnext
      · rename_i objects hdescribe
        exact Option.some.inj hnext ▸ .described hi hd hdescribe
      · rename_i hdescribe
        exact Option.some.inj hnext ▸ .skipped hi hd hdescribe
      · rename_i hdescribe
        exact Option.some.inj hnext ▸ .raised hi hd hdescribe
    · nomatch hnext
  | upsertDevice i now newId =>
    simp only [next] at hnext
    split at hnext
    · rename_i objects info answers hi hd
      obtain ⟨hnew, heq⟩ := Option.ite_none_left_eq_some.mp hnext
      split at heq
      · rename_i hrefuses
        exact Option.some.inj heq ▸ .deviceRefused hi hd hrefuses
      · rename_i hrefuses
        exact Option.some.inj heq ▸
          .deviceWritten hi hd (Bool.eq_false_iff.mpr hrefuses) now hnew
    · nomatch hnext
  | upsertPoints i newIds =>
    simp only [next] at hnext
    split at hnext
    · rename_i id objects info answers hi hd
      obtain ⟨⟨hlength, hfresh⟩, heq⟩ := Option.ite_none_right_eq_some.mp hnext
      split at heq
      · rename_i hrefuses
        exact Option.some.inj heq ▸ .pointsRefused hi hd hrefuses
      · rename_i hrefuses
        exact Option.some.inj heq ▸
          .pointsWritten hi hd (Bool.eq_false_iff.mpr hrefuses) hlength hfresh
    · nomatch hnext
  | finish =>
    obtain ⟨⟨hmain, hwell⟩, heq⟩ := Option.ite_none_right_eq_some.mp hnext
    exact Option.some.inj heq ▸ .finished hmain fun task htask ↦
      of_decide_eq_true (List.all_eq_true.mp hwell task htask)

/-! ## The tables -/

theorem aside_upsertDevice {now : Instant} {newId : Uuid} (hnew : newId ∉ t.devices) :
    Aside cfg info t (t.upsertDevice cfg.networkId info now newId).1 where
  devices id row hrow := by
    by_cases hid : id = (t.upsertDevice cfg.networkId info now newId).2
    · have hdevice : IsDevice cfg info row := by
        rcases Tables.upsertDevice_id with hold | hfresh
        · obtain ⟨e, he, hfst⟩ := Option.map_eq_some_iff.mp hold
          obtain ⟨hlookup, hdevice⟩ := Tables.of_deviceOf he
          rw [hfst, ← hid] at hlookup
          rwa [← Option.some.inj (hrow.symm.trans hlookup)] at hdevice
        · refine absurd (Table.mem_of_lookup hrow) ?_
          rwa [hid, hfresh]
      refine ⟨Tables.answered cfg.networkId info now, ?_, hdevice.1.symm, hdevice.2.symm,
        fun h ↦ absurd hdevice h⟩
      rw [hid]
      exact Tables.lookup_upsertDevice_self
    · refine ⟨row, ?_, rfl, rfl, fun _ ↦ rfl⟩
      rw [Tables.lookup_upsertDevice_of_ne hid]
      exact hrow
  keeps _ row hrow := ⟨row, hrow, .refl row⟩
  points _ _ _ hrow _ _ := hrow
  new _ row hrow := .inl ⟨row, hrow, .refl row⟩

theorem aside_upsertPoints {id : Uuid} {covCapable : Bool}
    {pathPrefix : String} {newIds : List Uuid} {now : Instant}
    (hid : t.devices.lookup id = some (Tables.answered cfg.networkId info now))
    (hfresh : t.Fresh newIds) (hlength : newIds.length = objects.length) :
    Aside cfg info t (t.upsertPoints id objects covCapable pathPrefix newIds) where
  devices id row hrow := by
    rw [Tables.devices_upsertPoints]
    exact ⟨row, hrow, rfl, rfl, fun _ ↦ rfl⟩
  keeps p row hrow := by
    obtain ⟨new, hnew, hkeeps, -⟩ := Tables.lookup_upsertPoints hfresh hlength hrow
    exact ⟨new, hnew, hkeeps⟩
  points p row device hrow hdevice hother := by
    obtain ⟨new, hnew, -, hsame⟩ : ∃ new,
        (t.upsertPoints id objects covCapable pathPrefix newIds).points.lookup p = some new ∧
        row.Keeps new ∧ (row.deviceId ≠ id → new = row) :=
      Tables.lookup_upsertPoints hfresh hlength hrow
    have hne : row.deviceId ≠ id := by
      intro heq
      rw [heq] at hdevice
      obtain rfl := Option.some.inj (hid.symm.trans hdevice)
      exact hother ⟨rfl, rfl⟩
    rwa [hsame hne] at hnew
  new p row hrow := by
    rcases Tables.of_lookup_upsertPoints hrow with hold | ⟨o, hkeeps⟩
    · exact .inl hold
    · refine .inr ⟨Tables.answered cfg.networkId info now, ?_, rfl, rfl⟩
      rwa [Tables.devices_upsertPoints, hkeeps.deviceId]

theorem Imported.aside (h : Imported cfg t other objects) (haside : Aside cfg info t t')
    (hne : other.deviceInstance ≠ info.deviceInstance) : Imported cfg t' other objects := by
  obtain ⟨id, now, hid, hlisted, hmissing⟩ := h
  have hother : ¬ IsDevice cfg info (Tables.answered cfg.networkId other now) := fun h ↦ hne h.2
  have hid' : t'.devices.lookup id = some (Tables.answered cfg.networkId other now) := by
    obtain ⟨new, hnew, -, -, hsame⟩ := haside.devices id _ hid
    rwa [hsame hother] at hnew
  refine ⟨id, now, hid', fun o ho ↦ ?_, fun p row hrow hdevice hpresent ↦ ?_⟩
  · obtain ⟨p, row, hrow, hobject, hrest⟩ := hlisted o ho
    have hdevice : row.deviceId = id := (PointRow.isObject_iff.mp hobject).1
    refine ⟨p, row, ?_, hobject, hrest⟩
    exact haside.points p row _ hrow (by rwa [hdevice]) hother
  · rcases haside.new p row hrow with ⟨old, hold, hkeeps⟩ | ⟨device, hnew, hnewDevice⟩
    · have holdDevice : old.deviceId = id := hkeeps.deviceId.symm.trans hdevice
      have hstays := haside.points p old _ hold (by rwa [holdDevice]) hother
      obtain rfl := Option.some.inj (hrow.symm.trans hstays)
      exact hmissing p row hold hdevice hpresent
    · rw [hdevice] at hnew
      obtain rfl := Option.some.inj (hid'.symm.trans hnew)
      exact absurd hnewDevice hother

theorem TaskValid.aside {d : DeviceInfo × Answers} {task : ImportTask} (h : TaskValid cfg s d task)
    (haside : Aside cfg info s.tables s'.tables) (hne : d.1.deviceInstance ≠ info.deviceInstance)
    (hraised : s.main = .raised → s'.main = .raised) : TaskValid cfg s' d task := by
  cases task with
  | waiting => trivial
  | describing => trivial
  | upsertingDevice objects => exact h
  | upsertingPoints id objects =>
    obtain ⟨hhas, hrefuses, now, hid⟩ := h
    obtain ⟨new, hnew, -, -, hsame⟩ := haside.devices id _ hid
    rw [hsame fun h ↦ hne h.2] at hnew
    exact ⟨hhas, hrefuses, now, hnew⟩
  | done =>
    obtain ⟨hfails, objects, hhas, himported⟩ := h
    exact ⟨hfails, objects, hhas, himported.aside haside hne⟩
  | skipped => exact h
  | failed => exact ⟨h.1, h.2.1, hraised h.2.2⟩

theorem instance_ne {i j : ℕ} {d d' : DeviceInfo × Answers} (hi : found.devices[i]? = some d)
    (hj : found.devices[j]? = some d') (hne : j ≠ i) :
    d'.1.deviceInstance ≠ d.1.deviceInstance := by
  intro heq
  have hmap : (found.devices.map fun d ↦ d.1.deviceInstance)[i]? =
      (found.devices.map fun d ↦ d.1.deviceInstance)[j]? := by
    rw [List.getElem?_map, List.getElem?_map, hi, hj, Option.map_some, Option.map_some, heq]
  have hlt : i < (found.devices.map fun d ↦ d.1.deviceInstance).length := by
    rw [List.length_map]
    exact (List.getElem?_eq_some_iff.mp hi).1
  exact hne ((List.getElem?_inj hlt found.nodup).mp hmap).symm

theorem Aside.refl (info : DeviceInfo) (t : Tables) : Aside cfg info t t where
  devices _ row hrow := ⟨row, hrow, rfl, rfl, fun _ ↦ rfl⟩
  keeps _ row hrow := ⟨row, hrow, .refl row⟩
  points _ _ _ hrow _ _ := hrow
  new _ row hrow := .inl ⟨row, hrow, .refl row⟩

/-- A task goes on: it writes the rows of its device, or lets an exception through. -/
theorem Valid.advance (h : Valid cfg found tables registry s) {i : ℕ} {d : DeviceInfo × Answers}
    {before task : ImportTask} (hd : found.devices[i]? = some d) (hi : s.tasks[i]? = some before)
    (hbefore : before.ended = false) (htasks : s'.tasks = s.tasks.set i task)
    (hregistry : s'.registry = s.registry) (haside : Aside cfg d.1 s.tables s'.tables)
    (htask : TaskValid cfg s' d task)
    (hmain : s'.main = s.main ∨ task = .failed ∧ s'.main = .raised)
    (hpoints : task = .done ∨ s'.tables.points = s.tables.points) :
    Valid cfg found tables registry s' := by
  have hmem : before ∈ s.tasks := List.mem_of_getElem? hi
  have hlt : i < s.tasks.length := (List.getElem?_eq_some_iff.mp hi).1
  -- the discovery cannot have returned while the task runs
  have hreturned : s.main ≠ .returned := by
    intro hreturned
    rcases (h.returned hreturned).1 before hmem with rfl | rfl <;> nomatch hbefore
  have hself : s'.tasks[i]? = some task := by
    rw [htasks, List.getElem?_set_self hlt]
  have hother : ∀ j, j ≠ i → s'.tasks[j]? = s.tasks[j]? := by
    intro j hj
    rw [htasks, List.getElem?_set_ne (Ne.symm hj)]
  have hraised : s.main = .raised → s'.main = .raised := by
    intro hraised
    rcases hmain with hsame | ⟨-, hraised'⟩
    · exact hsame.trans hraised
    · exact hraised'
  refine ⟨?_, fun j d' task' hj htask' ↦ ?_, fun id row hrow ↦ ?_,
    fun p row device hrow hdevice ↦ ?_,
    fun hraised' ↦ ?_, fun _ ↦ hregistry.trans (h.unchanged hreturned), fun hreturned' ↦ ?_⟩
  · rw [htasks, List.length_set]
    exact h.length
  · by_cases hji : j = i
    · subst hji
      obtain rfl := Option.some.inj (hd.symm.trans hj)
      obtain rfl := Option.some.inj (hself.symm.trans htask')
      exact htask
    · rw [hother j hji] at htask'
      exact (h.task j d' task' hj htask').aside haside (instance_ne hd hj hji) hraised
  · obtain ⟨mid, hmid, hnetwork, hinstance⟩ := h.devices id row hrow
    obtain ⟨new, hnew, hnetwork', hinstance', -⟩ := haside.devices id mid hmid
    exact ⟨new, hnew, hnetwork'.trans hnetwork, hinstance'.trans hinstance⟩
  · obtain ⟨mid, hmid, hkeeps, hmidDone⟩ := h.points p row device hrow hdevice
    have hdone : ∀ (j : ℕ), s.tasks[j]? = some .done → s'.tasks[j]? = some .done := by
      intro j hj
      rw [hother j]
      · exact hj
      · rintro rfl
        obtain rfl := Option.some.inj (hi.symm.trans hj)
        nomatch hbefore
    obtain ⟨new, hnew, hkeeps'⟩ := haside.keeps p mid hmid
    refine ⟨new, hnew, hkeeps.trans hkeeps', ?_⟩
    rcases hmidDone with rfl | ⟨j, d', hj, hjdone, hdevice'⟩
    · obtain ⟨device', hdevice', hnetwork, hinstance⟩ := h.devices _ device hdevice
      -- a point of another device is aside from what the task writes
      rcases hpoints with rfl | hpoints
      · by_cases hown : IsDevice cfg d.1 device
        · exact .inr ⟨i, d, hd, hself, hown⟩
        · have hstays : s'.tables.points.lookup p = some mid := by
            refine haside.points p mid device' hmid hdevice' fun hown' ↦ hown ?_
            exact ⟨hnetwork.symm.trans hown'.1, hinstance.symm.trans hown'.2⟩
          exact .inl (Option.some.inj (hnew.symm.trans hstays))
      · rw [hpoints] at hnew
        exact .inl (Option.some.inj (hnew.symm.trans hmid))
    · exact .inr ⟨j, d', hj, hdone j hjdone, hdevice'⟩
  · rcases hmain with hsame | ⟨rfl, -⟩
    · obtain ⟨j, hj⟩ := List.mem_iff_getElem?.mp (h.raised (hsame.symm.trans hraised'))
      have hji : j ≠ i := by
        rintro rfl
        obtain rfl := Option.some.inj (hi.symm.trans hj)
        nomatch hbefore
      rw [← hother j hji] at hj
      exact List.mem_of_getElem? hj
    · exact List.mem_of_getElem? hself
  · rcases hmain with hsame | ⟨-, hraised'⟩
    · exact absurd (hsame.symm.trans hreturned') hreturned
    · rw [hraised'] at hreturned'
      nomatch hreturned'

theorem valid_start (cfg : ImportConfig) (found : Discovered) (tables : Tables)
    (registry : Registry) : Valid cfg found tables registry (start found tables registry) where
  length := List.length_map _
  task i d task _ htask := by
    obtain ⟨-, -, rfl⟩ := Option.map_eq_some_iff.mp ((List.getElem?_map ..).symm.trans htask)
    trivial
  devices _ row hrow := ⟨row, hrow, rfl, rfl⟩
  points _ row _ hrow _ := ⟨row, hrow, .refl row, .inl rfl⟩
  raised hraised := nomatch hraised
  unchanged _ := rfl
  returned hreturned := nomatch hreturned

theorem Valid.fail (h : Valid cfg found tables registry s) {i : ℕ} {d : DeviceInfo × Answers}
    {before : ImportTask} (hd : found.devices[i]? = some d) (hi : s.tasks[i]? = some before)
    (hbefore : before.ended = false) (hfails : d.2.fails = true)
    (hother : d.2.describe ≠ .driverError) : Valid cfg found tables registry (s.fail i) := by
  have hraised : (s.fail i).main = .raised := by
    rcases hmain : s.main with - | - | -
    · rw [Import.fail, hmain]
      rfl
    · have hended := (h.returned hmain).1 before (List.mem_of_getElem? hi)
      rcases hended with rfl | rfl <;> nomatch hbefore
    · rw [Import.fail, hmain]
      rfl
  exact h.advance hd hi hbefore rfl rfl (.refl _ _) ⟨hfails, hother, hraised⟩ (.inr ⟨rfl, hraised⟩)
    (.inr rfl)

/-- **Step lemma.** -/
theorem Valid.step (h : Valid cfg found tables registry s)
    (hnext : next cfg found s e = some s') : Valid cfg found tables registry s' := by
  cases move_of_next hnext with
  | @acquired i hi =>
    have hlt : i < found.devices.length := by
      rw [← h.length]
      exact (List.getElem?_eq_some_iff.mp hi).1
    exact h.advance (List.getElem?_eq_getElem hlt) hi rfl rfl rfl (.refl _ _) trivial (.inl rfl)
      (.inr rfl)
  | described hi hd hdescribe =>
    exact h.advance hd hi rfl rfl rfl (.refl _ _) ⟨_, hdescribe, rfl⟩ (.inl rfl) (.inr rfl)
  | skipped hi hd hdescribe =>
    exact h.advance hd hi rfl rfl rfl (.refl _ _) hdescribe (.inl rfl) (.inr rfl)
  | raised hi hd hdescribe =>
    exact h.fail hd hi rfl (by simp [Answers.fails, hdescribe]) (by simp [hdescribe])
  | deviceRefused hi hd hrefuses =>
    obtain ⟨described, hdescribe, -⟩ : Has cfg _ _ := h.task _ _ _ hd hi
    exact h.fail hd hi rfl (by simp [Answers.fails, hdescribe, hrefuses]) (by simp [hdescribe])
  | deviceWritten hi hd hrefuses now hnew =>
    have hhas : Has cfg _ _ := h.task _ _ _ hd hi
    exact h.advance hd hi rfl rfl rfl (aside_upsertDevice hnew)
      ⟨hhas, hrefuses, now, Tables.lookup_upsertDevice_self⟩ (.inl rfl) (.inr rfl)
  | pointsRefused hi hd hrefuses =>
    obtain ⟨⟨described, hdescribe, -⟩, -⟩ := h.task _ _ _ hd hi
    exact h.fail hd hi rfl (by simp [Answers.fails, hdescribe, hrefuses]) (by simp [hdescribe])
  | @pointsWritten i d id objects hi hd hrefuses newIds hlength hfresh =>
    obtain ⟨⟨described, hdescribe, hkept⟩, hdevice, now, hid⟩ := h.task _ _ _ hd hi
    have himported : Imported cfg (s.tables.upsertPoints id objects d.1.supportsCov
        (pathPrefix cfg d.1) newIds) d.1 objects := by
      refine ⟨id, now, ?_, fun o ho ↦ Tables.listed_upsertPoints hfresh hlength ho,
        fun p row hrow ↦ Tables.missing_upsertPoints hrow⟩
      rwa [Tables.devices_upsertPoints]
    exact h.advance hd hi rfl rfl rfl (aside_upsertPoints hid hfresh hlength)
      ⟨by simp [Answers.fails, hdescribe, hdevice, hrefuses], objects,
        ⟨described, hdescribe, hkept⟩, himported⟩ (.inl rfl) (.inl rfl)
  | finished hmain hwell =>
    have hkept : s.registry = registry := h.unchanged (by rw [hmain]; nofun)
    refine ⟨h.length, fun i d task hd hi ↦ ?_, h.devices, h.points, nofun,
      fun hreturned ↦ absurd rfl hreturned, fun _ ↦ ⟨hwell, by rw [hkept]⟩⟩
    have htask := h.task i d task hd hi
    rcases hwell task (List.mem_of_getElem? hi) with rfl | rfl
    · exact htask
    · exact htask

/-! ## Every run ends -/

/-- The calls a task still has to make. -/
def remaining : ImportTask → ℕ
  | .waiting => 4
  | .describing => 3
  | .upsertingDevice _ => 2
  | .upsertingPoints _ _ => 1
  | .done | .skipped | .failed => 0

/-- The calls that are left. -/
def left (s : Import) : ℕ :=
  (s.tasks.map remaining).sum + if s.main = .gathering then 1 else 0

theorem sum_set_lt {tasks : List ImportTask} {i : ℕ} {before task : ImportTask}
    (hi : tasks[i]? = some before) (hlt : remaining task < remaining before) :
    ((tasks.set i task).map remaining).sum < (tasks.map remaining).sum := by
  induction tasks generalizing i with
  | nil => nomatch hi
  | cons first tasks ih =>
    cases i with
    | zero =>
      obtain rfl := Option.some.inj hi
      simp only [List.set_cons_zero, List.map_cons, List.sum_cons]
      omega
    | succ i =>
      have := ih hi
      simp only [List.set_cons_succ, List.map_cons, List.sum_cons]
      omega

theorem left_setTask_lt {i : ℕ} {before task : ImportTask} {main : ImportMain}
    (hi : s.tasks[i]? = some before) (hlt : remaining task < remaining before)
    (hmain : main = .gathering → s.main = .gathering) :
    ((s.tasks.set i task).map remaining).sum + (if main = .gathering then 1 else 0) < s.left := by
  have hsum := sum_set_lt hi hlt
  rw [left]
  split
  · rename_i hgathering
    rw [if_pos (hmain hgathering)]
    omega
  · omega

theorem left_fail_lt {i : ℕ} {before : ImportTask} (hi : s.tasks[i]? = some before)
    (hbefore : 0 < remaining before) : (s.fail i).left < s.left := by
  refine left_setTask_lt hi hbefore fun hmain ↦ ?_
  rw [Import.fail] at hmain
  dsimp only at hmain
  split at hmain
  · nomatch hmain
  · exact hmain

theorem left_lt (hnext : next cfg found s e = some s') : s'.left < s.left := by
  cases move_of_next hnext with
  | acquired hi => exact left_setTask_lt hi (by simp [remaining]) id
  | described hi => exact left_setTask_lt hi (by simp [remaining]) id
  | skipped hi => exact left_setTask_lt hi (by simp [remaining]) id
  | raised hi => exact left_fail_lt hi (by simp [remaining])
  | deviceRefused hi => exact left_fail_lt hi (by simp [remaining])
  | deviceWritten hi => exact left_setTask_lt hi (by simp [remaining]) id
  | pointsRefused hi => exact left_fail_lt hi (by simp [remaining])
  | pointsWritten hi => exact left_setTask_lt hi (by simp [remaining]) id
  | finished hmain => simp [left, hmain]

theorem length_le {es : List Event} (hrun : Run cfg found s es s') :
    es.length + s'.left ≤ s.left := by
  induction hrun with
  | nil s => simp
  | cons hstep _ ih =>
    have hlt := left_lt hstep.2
    rw [List.length_cons]
    omega

theorem left_start (found : Discovered) (tables : Tables) (registry : Registry) :
    (start found tables registry).left = 4 * found.devices.length + 1 := by
  have hsum : ((found.devices.map fun _ ↦ ImportTask.waiting).map remaining).sum =
      4 * found.devices.length := by
    induction found.devices with
    | nil => rfl
    | cons d devices ih =>
      rw [List.map_cons, List.map_cons, List.sum_cons, ih, List.length_cons, remaining]
      omega
  exact congrArg (· + 1) hsum

/-- Nothing is left to do: every task has ended, and so has the call. -/
theorem Valid.ended_of_stuck (h : Valid cfg found tables registry s)
    (hstuck : ∀ e, next cfg found s e = none) :
    (∀ task ∈ s.tasks, task.ended = true) ∧ s.main ≠ .gathering := by
  have hidle : ∀ task ∈ s.tasks, task.running = false := by
    intro task hmem
    obtain ⟨i, hi⟩ := List.mem_iff_getElem?.mp hmem
    have hlt : i < found.devices.length := by
      rw [← h.length]
      exact (List.getElem?_eq_some_iff.mp hi).1
    obtain ⟨⟨info, answers⟩, hd⟩ : ∃ d, found.devices[i]? = some d :=
      ⟨_, List.getElem?_eq_getElem hlt⟩
    cases task with
    | describing =>
      have hnone := hstuck (.describe i)
      simp only [next, hi, hd] at hnone
      split at hnone <;> nomatch hnone
    | upsertingDevice objects =>
      obtain ⟨ids, hlength, -, hnew⟩ := Table.exists_fresh s.tables.devices 1
      obtain ⟨id, rfl⟩ := List.length_eq_one_iff.mp hlength
      have hnone := hstuck (.upsertDevice i 0 id)
      simp only [next, hi, hd, if_neg (hnew id (List.mem_singleton_self _))] at hnone
      split at hnone <;> nomatch hnone
    | upsertingPoints id objects =>
      obtain ⟨ids, hids⟩ := Table.exists_fresh s.tables.points objects.length
      have hnone := hstuck (.upsertPoints i ids)
      simp only [next, hi, hd, if_pos hids] at hnone
      split at hnone <;> nomatch hnone
    | waiting => rfl
    | done => rfl
    | skipped => rfl
    | failed => rfl
  have hended : ∀ task ∈ s.tasks, task.ended = true := by
    intro task hmem
    cases task with
    | waiting =>
      -- no task holds the semaphore
      obtain ⟨i, hi⟩ := List.mem_iff_getElem?.mp hmem
      have hcount : s.tasks.countP ImportTask.running = 0 :=
        List.countP_eq_zero.mpr fun task hmem ↦ by rw [hidle task hmem]; nofun
      have hnone := hstuck (.acquire i)
      simp only [next, hi, hcount, if_pos cfg.parallelDevices_pos] at hnone
      nomatch hnone
    | describing => nomatch hidle _ hmem
    | upsertingDevice objects => nomatch hidle _ hmem
    | upsertingPoints id objects => nomatch hidle _ hmem
    | done => rfl
    | skipped => rfl
    | failed => rfl
  refine ⟨hended, fun hmain ↦ ?_⟩
  have hwell : (s.tasks.all fun task ↦ task = .done ∨ task = .skipped) = true := by
    refine List.all_eq_true.mpr fun task hmem ↦ decide_eq_true ?_
    obtain ⟨i, hi⟩ := List.mem_iff_getElem?.mp hmem
    have hlt : i < found.devices.length := by
      rw [← h.length]
      exact (List.getElem?_eq_some_iff.mp hi).1
    have htask := h.task i _ task (List.getElem?_eq_getElem hlt) hi
    cases task with
    | done => exact .inl rfl
    | skipped => exact .inr rfl
    | failed =>
      have hraised := htask.2.2
      rw [hmain] at hraised
      nomatch hraised
    | waiting => nomatch hended _ hmem
    | describing => nomatch hended _ hmem
    | upsertingDevice objects => nomatch hended _ hmem
    | upsertingPoints id objects => nomatch hended _ hmem
  have hnone := hstuck .finish
  simp only [next, if_pos (And.intro hmain hwell)] at hnone
  nomatch hnone

theorem stuck_of_ended (htasks : ∀ task ∈ s.tasks, task.ended = true) (hmain : s.main ≠ .gathering)
    (e : Event) : next cfg found s e = none := by
  have hout : ∀ {i : ℕ} {task : ImportTask}, s.tasks[i]? = some task → task.ended = true :=
    fun hi ↦ htasks _ (List.mem_of_getElem? hi)
  cases e with
  | acquire i =>
    simp only [next]
    split
    · rename_i hi
      nomatch hout hi
    · rfl
  | describe i =>
    simp only [next]
    split
    · rename_i hi _
      nomatch hout hi
    · rfl
  | upsertDevice i now newId =>
    simp only [next]
    split
    · rename_i hi _
      nomatch hout hi
    · rfl
  | upsertPoints i newIds =>
    simp only [next]
    split
    · rename_i hi _
      nomatch hout hi
    · rfl
  | finish => exact if_neg fun h ↦ hmain h.1

theorem Valid.exists_task (h : Valid cfg found tables registry s) {d : DeviceInfo × Answers}
    (hd : d ∈ found.devices) : ∃ task ∈ s.tasks, TaskValid cfg s d task := by
  obtain ⟨i, hi⟩ := List.mem_iff_getElem?.mp hd
  have hlt : i < s.tasks.length := by
    rw [h.length]
    exact (List.getElem?_eq_some_iff.mp hi).1
  exact ⟨s.tasks[i], List.getElem_mem hlt, h.task i d _ hi (List.getElem?_eq_getElem hlt)⟩

theorem Valid.isolated (h : Valid cfg found tables registry s) (hreturned : s.main = .returned) :
    Isolated cfg found tables registry s := by
  obtain ⟨hwell, hregistry⟩ := h.returned hreturned
  have hrows : ∀ d ∈ found.devices, d.2.fails = true → ∀ p row device,
      tables.points.lookup p = some row → tables.devices.lookup row.deviceId = some device →
      IsDevice cfg d.1 device → s.tables.points.lookup p = some row := by
    intro d hd hfails p row device hrow hdevice hown
    obtain ⟨new, hnew, -, rfl | ⟨i, d', hi, hdone, hown'⟩⟩ := h.points p row device hrow hdevice
    · exact hnew
    · have hsame : d' = d :=
        List.inj_on_of_nodup_map found.nodup (List.mem_of_getElem? hi) hd
          (hown'.2.symm.trans hown.2)
      have hwell := (h.task i d' _ hi hdone).1
      rw [hsame, hfails] at hwell
      nomatch hwell
  refine ⟨hreturned, hregistry, fun d hd hfails ↦ ?_, hrows,
    fun d hd hfails p row device hrow hmissing hdevice hown old hold ↦ ?_⟩
  · obtain ⟨task, hmem, htask⟩ := h.exists_task hd
    rcases hwell task hmem with rfl | rfl
    · exact htask.2
    · rw [Answers.fails, show d.2.describe = .driverError from htask] at hfails
      nomatch hfails
  · obtain ⟨new, hnew, hnetwork, -⟩ := h.devices _ device hdevice
    have hpoint : (Registry.mk (s.tables.loadDevices cfg.networkId cfg.defaultIntervalS)).point p =
        some (Tables.loadPoint p row new cfg.defaultIntervalS) :=
      Tables.point_loadDevices (hrows d hd hfails p row device hrow hdevice hown) hmissing hnew
        (hnetwork.trans hown.1)
    refine ⟨(Tables.loadPoint p row new cfg.defaultIntervalS).resume (some old), ?_, rfl⟩
    rw [hregistry, Registry.point_replace, hpoint, Option.mem_def.mp hold]
    rfl

/-- **Isolation.** Every run of a discovery ends; when it has ended, its devices were isolated from
one another if and only if the only failures are those of the driver that describes them. -/
theorem isolated_iff {es : List Event} (hrun : Run cfg found (start found tables registry) es s) :
    es.length ≤ 4 * found.devices.length + 1 ∧ ((∀ e, next cfg found s e = none) →
      (Isolated cfg found tables registry s ↔
        ∀ d ∈ found.devices, d.2.fails = true → d.2.describe = .driverError)) := by
  have hvalid : Valid cfg found tables registry s :=
    hrun.invariant (Valid cfg found tables registry) (fun h hstep ↦ h.step hstep.2)
      (valid_start cfg found tables registry)
  constructor
  · have hle := length_le hrun
    rw [left_start] at hle
    omega
  · intro hstuck
    constructor
    · intro hisolated d hd hfails
      obtain ⟨task, hmem, htask⟩ := hvalid.exists_task hd
      rcases (hvalid.returned hisolated.returned).1 task hmem with rfl | rfl
      · have hwell : d.2.fails = false := htask.1
        rw [hfails] at hwell
        nomatch hwell
      · exact htask
    · intro honly
      refine hvalid.isolated ?_
      rcases hmain : s.main with - | - | -
      · exact absurd hmain (hvalid.ended_of_stuck hstuck).2
      · rfl
      · -- a task has failed, for a reason that is not the driver's
        obtain ⟨i, hi⟩ := List.mem_iff_getElem?.mp (hvalid.raised hmain)
        have hlt : i < found.devices.length := by
          rw [← hvalid.length]
          exact (List.getElem?_eq_some_iff.mp hi).1
        obtain ⟨hfails, hother, -⟩ := hvalid.task i _ _ (List.getElem?_eq_getElem hlt) hi
        exact absurd (honly _ (List.getElem_mem hlt) hfails) hother

/-! ## Two devices, one of which fails -/

def importConfig : ImportConfig := ⟨1, "Site", [], 2, by decide, 30⟩

/-- A device with one object, and another one whose description gives this. -/
def twoDevices (description : Description) : Discovered where
  devices :=
    [(⟨10, "10.0.0.5", some "AHU-1", none, none, true⟩,
      ⟨.objects [⟨"analog-value", 1, "Temp", none, none, true, none, none, .ok⟩], false, false⟩),
     (⟨11, "10.0.0.6", some "AHU-2", none, none, true⟩, ⟨description, false, false⟩)]
  nodup := by
    change [(10 : ℤ), 11].Nodup
    decide

/-- The second device fails, then the first one is imported. -/
def firstImported : List Event :=
  [.acquire 0, .acquire 1, .describe 1, .describe 0, .upsertDevice 0 5 1, .upsertPoints 0 [1]]

def noTables : Tables := ⟨∅, ∅⟩

/-- The second device does not answer its description. -/
theorem isolated_driverError :
    ∃ s, Run importConfig (twoDevices .driverError) (start (twoDevices .driverError) noTables ⟨[]⟩)
      (firstImported ++ [.finish]) s ∧
      Isolated importConfig (twoDevices .driverError) noTables ⟨[]⟩ s := by
  have hend : (Trace.exec (next importConfig (twoDevices .driverError))
      (start (twoDevices .driverError) noTables ⟨[]⟩) (firstImported ++ [.finish])).map
        (fun s ↦ (s.tasks, s.main)) = some ([.done, .skipped], .returned) := by decide
  obtain ⟨s, hs, hend⟩ := Option.map_eq_some_iff.mp hend
  obtain ⟨htasks, hmain⟩ := Prod.mk.injEq .. ▸ hend
  have hrun : Run importConfig (twoDevices .driverError)
      (start (twoDevices .driverError) noTables ⟨[]⟩) (firstImported ++ [.finish]) s :=
    .of_exec (fun _ _ _ ↦ trivial) hs
  have hstuck : ∀ e, next importConfig (twoDevices .driverError) s e = none :=
    stuck_of_ended (by rw [htasks]; decide) (by rw [hmain]; decide)
  refine ⟨s, hrun, ((isolated_iff hrun).2 hstuck).mpr ?_⟩
  intro d hd hfails
  rcases List.mem_cons.mp hd with rfl | hd
  · nomatch hfails
  · rw [List.mem_singleton.mp hd]

/-- The description of the second device raises another exception: the call ends, although the first
device is imported. -/
theorem not_isolated :
    ¬ ∀ (cfg : ImportConfig) (found : Discovered) (tables : Tables) (registry : Registry)
      (es : List Event) (s : Import), Run cfg found (start found tables registry) es s →
        (∀ e, next cfg found s e = none) → Isolated cfg found tables registry s := by
  intro hallIsolated
  have hend : (Trace.exec (next importConfig (twoDevices .raised))
      (start (twoDevices .raised) noTables ⟨[]⟩) firstImported).map
        (fun s ↦ (s.tasks, s.main)) = some ([.done, .failed], .raised) := by decide
  obtain ⟨s, hs, hend⟩ := Option.map_eq_some_iff.mp hend
  obtain ⟨htasks, hmain⟩ := Prod.mk.injEq .. ▸ hend
  have hisolated := hallIsolated importConfig (twoDevices .raised) noTables ⟨[]⟩ firstImported s
    (.of_exec (fun _ _ _ ↦ trivial) hs)
    (stuck_of_ended (by rw [htasks]; decide) (by rw [hmain]; decide))
  have hreturned := hisolated.returned
  rw [hmain] at hreturned
  nomatch hreturned

end Import

end Superviseur
