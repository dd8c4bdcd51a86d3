import Superviseur.Collector.Status

/-!
# One status everywhere

The three copies of the status of a device agree whenever nothing is going on, in the runs where a
discovery writes the database only for a device that is online or unknown, and where no cycle
changes the status of an object that was replaced since the cycle began.
-/

namespace Superviseur

/-- The cycle that ends well brings the device back. -/
def DeviceState.comesBack (device : DeviceState) : Bool := !device.online

/-- The cycle that fails is the one that puts the device offline. -/
def DeviceState.goesOffline (offlineAfterCycles : ℕ) (device : DeviceState) : Bool :=
  device.online && decide (offlineAfterCycles ≤ device.failures + 1)

namespace Supervision

/-- The cycle of a device changes the status of an object only while the registry has it. -/
def OnCurrent (s : Supervision) (d : Uuid) (changes : DeviceState → Bool) : Prop :=
  ∀ g ∈ (s.cycles d).generation, g = s.registry.current ∨
    ∀ device ∈ (s.registry.object g).device d, changes device = false

instance (s : Supervision) (d : Uuid) (changes : DeviceState → Bool) :
    Decidable (s.OnCurrent d changes) :=
  inferInstanceAs (Decidable (∀ g ∈ (s.cycles d).generation, _))

/-- For a device: a discovery writes its row only if it is online, unknown to the registry, or going
offline with the database still to be told; and its cycles change the status of current objects. -/
def Coherent (cfg : SupervisionConfig) (d : Uuid) (s : Supervision) : Event → Prop
  | .upsert info _ _ =>
    (s.tables.deviceOf cfg.networkId info.deviceInstance).map Sigma.fst = some d →
      ∀ device ∈ s.registry.get.device d, device.online = true ∨ s.cycles d = .writing false true
  | .succeed d' _ => d' = d → s.OnCurrent d DeviceState.comesBack
  | .fail d' _ => d' = d → s.OnCurrent d (DeviceState.goesOffline cfg.offlineAfterCycles)
  | _ => True

instance (cfg : SupervisionConfig) (d : Uuid) (s : Supervision) :
    (e : Event) → Decidable (Coherent cfg d s e)
  | .upsert _ _ _ | .succeed _ _ | .fail _ _ => inferInstanceAs (Decidable (_ → _))
  | .poll _ _ | .write _ _ | .publish _ | .finish _ | .discover | .load | .replace =>
    .isTrue trivial

/-- When the device has no cycle and there is no discovery, the registry, the last status heard and
the database agree. -/
def Agrees (d : Uuid) (s : Supervision) : Prop :=
  s.cycles d = .idle → s.discovery = .idle → ∀ device ∈ s.registry.get.device d,
    s.heard d = some device.online ∧
      (s.tables.devices.lookup d).map DeviceRow.online = some device.online

/-- What is due between the status of the registry, the row and what was heard. -/
def Due (flag row : Bool) (heard : Option Bool) : Cycle → Prop
  | .writing online true => flag = online
  | .writing online false => online = flag ∧ row = flag ∧ heard = some flag
  | .publishing online => flag = online ∧ row = online
  | .idle | .polling _ | .ending => row = flag ∧ heard = some flag

/-- What every state satisfies, for a device. -/
structure Valid (cfg : SupervisionConfig) (d : Uuid) (s : Supervision) : Prop where
  known : ∀ device ∈ s.registry.get.device d, ∃ row ∈ s.tables.devices.lookup d,
    row.networkId = cfg.networkId ∧ Due device.online row.online (s.heard d) (s.cycles d)
  unknown : s.registry.get.device d = none →
    s.cycles d = .idle ∧ s.announced d = none ∧ s.loaded d = none
  /-- The object of a cycle has the status of the one that replaced it. -/
  polling : ∀ g, s.cycles d = .polling g → g ≤ s.registry.current ∧
    ∀ old ∈ (s.registry.object g).device d, ∀ device ∈ s.registry.get.device d,
      old.online = device.online
  /-- What was loaded has all the devices of the registry, and the status of a new one. -/
  loading : ∀ devices, s.discovery = .loaded devices →
    (s.registry.get.device d ≠ none → (Registry.mk devices).device d ≠ none) ∧
    (s.registry.get.device d = none → ∀ new ∈ (Registry.mk devices).device d,
      ∃ row ∈ s.tables.devices.lookup d, row.networkId = cfg.networkId ∧ row.online = new.online)

variable {cfg : SupervisionConfig} {d : Uuid} {s s' : Supervision} {e : Event}

theorem Valid.agrees (h : Valid cfg d s) : Agrees d s := by
  intro hcycle _ device hdevice
  obtain ⟨row, hrow, -, hdue⟩ := h.known device hdevice
  rw [hcycle] at hdue
  obtain ⟨hflag, hheard⟩ := hdue
  refine ⟨hheard, ?_⟩
  rw [Option.mem_def.mp hrow, Option.map_some, hflag]

theorem valid_start (cfg : SupervisionConfig) (d : Uuid) (tables : Tables) :
    Valid cfg d (start tables) where
  known _ hdevice := nomatch hdevice
  unknown _ := ⟨rfl, rfl, rfl⟩
  polling _ hg := nomatch hg
  loading _ hloaded := nomatch hloaded

theorem device_modify (registry : Generations Registry) (g g' : ℕ) (d other : Uuid)
    {f : DeviceState → DeviceState} (hf : ∀ device, (f device).deviceId = device.deviceId) :
    ((registry.modify g fun r ↦ r.modifyDevice other f).object g').device d =
      if g' = g ∧ d = other then ((registry.object g').device d).map f
      else (registry.object g').device d := by
  by_cases hg : g' = g
  · subst hg
    rw [Generations.object_modify_self]
    by_cases hd : d = other
    · subst hd
      rw [if_pos ⟨rfl, rfl⟩, Registry.device_modifyDevice_self hf]
    · rw [if_neg fun h ↦ hd h.2, Registry.device_modifyDevice_of_ne hd hf]
  · rw [if_neg fun h ↦ hg h.1, Generations.object_modify_of_ne _ _ _ hg]

theorem Valid.frame (h : Valid cfg d s) (hcurrent : s'.registry.current = s.registry.current)
    (hobject : ∀ g, (s'.registry.object g).device d = (s.registry.object g).device d)
    (hrow : s'.tables.devices.lookup d = s.tables.devices.lookup d)
    (hheard : s'.announced d = s.announced d ∧ s'.loaded d = s.loaded d)
    (hcycle : s'.cycles d = s.cycles d) (hdiscovery : s'.discovery = s.discovery) :
    Valid cfg d s' := by
  have hget : s'.registry.get.device d = s.registry.get.device d := by
    rw [Generations.get, hcurrent]
    exact hobject _
  have hheard' : s'.heard d = s.heard d := by rw [heard, heard, hheard.1, hheard.2]
  constructor
  · rw [hget, hrow, hheard', hcycle]
    exact h.known
  · rw [hget, hcycle, hheard.1, hheard.2]
    exact h.unknown
  · intro g hg
    rw [hcurrent, hobject g, hget]
    exact h.polling g (hcycle ▸ hg)
  · rw [hget, hrow, hdiscovery]
    exact h.loading

/-- The outcome of a cycle changes the status, to be announced, or leaves it as it is. -/
structure Concludes (changes : DeviceState → Bool) (outcome : DeviceState → DeviceState × Cycle) :
    Prop where
  deviceId : ∀ device, (outcome device).1.deviceId = device.deviceId
  changed : ∀ device, changes device = true →
    (outcome device).2 = .writing (outcome device).1.online true
  unchanged : ∀ device, changes device = false → (outcome device).1.online = device.online ∧
    ((outcome device).2 = .ending ∨ (outcome device).2 = .writing device.online false)

theorem concludes_onSuccess (now : Instant) :
    Concludes DeviceState.comesBack fun device ↦ device.onSuccess now where
  deviceId device := by
    simp only [DeviceState.onSuccess]
    split
    · split <;> rfl
    · rfl
  changed device hback := by
    have honline : device.online = false := by simpa [DeviceState.comesBack] using hback
    simp [DeviceState.onSuccess, honline]
  unchanged device hback := by
    have honline : device.online = true := by simpa [DeviceState.comesBack] using hback
    simp only [DeviceState.onSuccess, honline, if_true]
    split
    · exact ⟨rfl, .inr rfl⟩
    · exact ⟨rfl, .inl rfl⟩

theorem concludes_onFailure (offlineAfterCycles : ℕ) (now : Instant) :
    Concludes (DeviceState.goesOffline offlineAfterCycles)
      fun device ↦ device.onFailure offlineAfterCycles now where
  deviceId device := by
    simp only [DeviceState.onFailure]
    split <;> rfl
  changed device hgoes := by
    have hboth : device.online = true ∧ offlineAfterCycles ≤ device.failures + 1 := by
      simpa [DeviceState.goesOffline] using hgoes
    simp only [DeviceState.onFailure]
    rw [if_pos hboth]
  unchanged device hgoes := by
    have hboth : ¬ (device.online = true ∧ offlineAfterCycles ≤ device.failures + 1) := by
      simpa [DeviceState.goesOffline] using hgoes
    simp only [DeviceState.onFailure]
    rw [if_neg hboth]
    exact ⟨rfl, .inl rfl⟩

namespace Concludes

variable {changes : DeviceState → Bool} {outcome : DeviceState → DeviceState × Cycle}

theorem ne_polling (hout : Concludes changes outcome) (device : DeviceState) (g : ℕ) :
    (outcome device).2 ≠ .polling g := by
  intro heq
  rcases hchanges : changes device with - | -
  · obtain ⟨-, hcycle | hcycle⟩ := hout.unchanged device hchanges
    · rw [hcycle] at heq
      nomatch heq
    · rw [hcycle] at heq
      nomatch heq
  · rw [hout.changed device hchanges] at heq
    nomatch heq

/-- A status that does not change was known everywhere, and stays so. -/
theorem due_of_unchanged (hout : Concludes changes outcome) {device : DeviceState}
    (hchanges : changes device = false) :
    Due device.online device.online (some device.online) (outcome device).2 := by
  obtain ⟨-, hcycle | hcycle⟩ := hout.unchanged device hchanges
  · rw [hcycle]
    exact ⟨rfl, rfl⟩
  · rw [hcycle]
    exact ⟨rfl, rfl, rfl⟩

/-- The object that was concluded: what it says is to be announced, or known. -/
theorem due (hout : Concludes changes outcome) (device : DeviceState) {row : Bool}
    {heard : Option Bool} (hrow : row = device.online) (hheard : heard = some device.online) :
    Due (outcome device).1.online row heard (outcome device).2 := by
  subst hrow hheard
  rcases hchanges : changes device with - | -
  · rw [(hout.unchanged device hchanges).1]
    exact hout.due_of_unchanged hchanges
  · rw [hout.changed device hchanges]
    rfl

end Concludes

/-- What is due for the object of the registry, which is the one that was concluded, or another
with its status. -/
theorem Valid.due_conclude (h : Valid cfg d s) {changes : DeviceState → Bool}
    {outcome : DeviceState → DeviceState × Cycle} (hout : Concludes changes outcome) {g : ℕ}
    (hcycle : s.cycles d = .polling g) {old : DeviceState}
    (hold : (s.registry.object g).device d = some old)
    (hcurrent : g = s.registry.current ∨
      ∀ device ∈ (s.registry.object g).device d, changes device = false) :
    ∀ device ∈ ((s.registry.modify g fun r ↦ r.modifyDevice d fun device ↦
        (outcome device).1).get).device d,
      ∃ row ∈ s.tables.devices.lookup d, row.networkId = cfg.networkId ∧
        Due device.online row.online (s.heard d) (outcome old).2 := by
  intro device hdevice
  rw [Generations.get, Generations.current_modify, device_modify _ _ _ _ _ hout.deviceId]
    at hdevice
  by_cases hg : s.registry.current = g
  · subst hg
    rw [if_pos ⟨rfl, rfl⟩, hold] at hdevice
    obtain rfl := Option.some.inj hdevice
    obtain ⟨row, hrow, hnetwork, hdue⟩ := h.known old hold
    rw [hcycle] at hdue
    exact ⟨row, hrow, hnetwork, hout.due old hdue.1 hdue.2⟩
  · rw [if_neg fun h ↦ hg h.1] at hdevice
    have hchanges : changes old = false := hcurrent.resolve_left (fun h ↦ hg h.symm) old hold
    have honline : old.online = device.online := (h.polling g hcycle).2 old hold device hdevice
    obtain ⟨row, hrow, hnetwork, hdue⟩ := h.known device hdevice
    rw [hcycle] at hdue
    refine ⟨row, hrow, hnetwork, ?_⟩
    rw [hdue.1, hdue.2, ← honline]
    exact hout.due_of_unchanged hchanges

theorem Valid.conclude (h : Valid cfg d s) {d' : Uuid} {changes : DeviceState → Bool}
    {outcome : DeviceState → DeviceState × Cycle} (hout : Concludes changes outcome)
    (hcurrent : d' = d → s.OnCurrent d changes) (hstep : s.conclude d' outcome = some s') :
    Valid cfg d s' := by
  simp only [Supervision.conclude] at hstep
  split at hstep
  · rename_i g hcycle
    split at hstep
    · rename_i old hold
      obtain rfl := Option.some.inj hstep
      by_cases hd : d' = d
      · subst hd
        have hdue := h.due_conclude hout hcycle hold (hcurrent rfl g (by rw [hcycle]; rfl))
        have hget := device_modify s.registry g s.registry.current d' d' hout.deviceId
        have hnone : (((s.registry.modify g fun r ↦ r.modifyDevice d' fun device ↦
            (outcome device).1).get).device d' = none ↔ s.registry.get.device d' = none) := by
          rw [Generations.get, Generations.current_modify, hget]
          split
          · exact Option.map_eq_none_iff
          · rfl
        -- the cycle of the device goes to what the outcome says
        have hnext : Function.update s.cycles d' (outcome old).2 d' = (outcome old).2 :=
          Function.update_self ..
        constructor
        · intro device hdevice
          change ∃ row ∈ s.tables.devices.lookup d', row.networkId = cfg.networkId ∧
            Due device.online row.online (s.heard d') (Function.update s.cycles d' _ d')
          rw [hnext]
          exact hdue device hdevice
        · intro hunknown
          have hidle := (h.unknown (hnone.mp hunknown)).1
          rw [hcycle] at hidle
          nomatch hidle
        · intro g' hg'
          exact absurd (hnext.symm.trans hg') (hout.ne_polling old g')
        · intro devices hdevices
          obtain ⟨hthere, hnew⟩ := h.loading devices hdevices
          refine ⟨fun hknown ↦ hthere (mt hnone.mpr hknown), fun hunknown new hmem ↦ ?_⟩
          exact hnew (hnone.mp hunknown) new hmem
      · -- another device is concluded
        refine h.frame rfl (fun g' ↦ ?_) rfl ⟨rfl, rfl⟩ (Function.update_of_ne (Ne.symm hd) ..) rfl
        have hsame := device_modify s.registry g g' d d' hout.deviceId
        rwa [if_neg fun h ↦ hd h.2.symm] at hsame
    · simp at hstep
  · simp at hstep

theorem Valid.write (h : Valid cfg d s) {d' : Uuid} {online announce : Bool}
    (hcycle : s.cycles d' = .writing online announce) (lastSeen : Option Instant) :
    Valid cfg d { s with
      tables := s.tables.setDeviceStatus d' online lastSeen
      cycles :=
        Function.update s.cycles d' (if announce then .publishing online else .ending) } := by
  by_cases hd : d = d'
  · subst hd
    have hnext : Function.update s.cycles d (if announce then .publishing online else .ending) d =
        if announce then .publishing online else .ending := Function.update_self ..
    refine ⟨fun device hdevice ↦ ?_, fun hunknown ↦ ?_, fun g hg ↦ ?_, fun devices hdevices ↦ ?_⟩
    · obtain ⟨row, hrow, hnetwork, hdue⟩ := h.known device hdevice
      refine ⟨{ row with online := online, lastSeen := lastSeen.or row.lastSeen }, ?_, hnetwork, ?_⟩
      · change (s.tables.setDeviceStatus d online lastSeen).devices.lookup d = some _
        rw [Tables.lookup_setDeviceStatus_self, Option.mem_def.mp hrow, Option.map_some]
      · change Due device.online online (s.heard d) (Function.update s.cycles d _ d)
        rw [hnext]
        rw [hcycle] at hdue
        cases announce with
        | true => exact ⟨hdue, rfl⟩
        | false => exact ⟨hdue.1, hdue.2.2⟩
    · have hidle := (h.unknown hunknown).1
      rw [hcycle] at hidle
      nomatch hidle
    · have hpolling := hnext.symm.trans hg
      cases announce <;> nomatch hpolling
    · refine ⟨(h.loading devices hdevices).1, fun hunknown ↦ ?_⟩
      have hidle := (h.unknown hunknown).1
      rw [hcycle] at hidle
      nomatch hidle
  · exact h.frame rfl (fun _ ↦ rfl) (Tables.lookup_setDeviceStatus_of_ne hd) ⟨rfl, rfl⟩
      (Function.update_of_ne hd ..) rfl

theorem Valid.advance (h : Valid cfg d s) {d' : Uuid} {announced : Uuid → Option Bool}
    {cycle : Cycle} (hannounced : d ≠ d' → announced d = s.announced d)
    (hbusy : s.cycles d' ≠ .idle) (hpolling : ∀ g, cycle ≠ .polling g)
    (hdue : ∀ flag row, Due flag row (s.heard d') (s.cycles d') →
      Due flag row ((announced d').or (s.loaded d')) cycle) :
    Valid cfg d { s with
      announced := announced
      cycles := Function.update s.cycles d' cycle } := by
  by_cases hd : d = d'
  · subst hd
    have hnext : Function.update s.cycles d cycle d = cycle := Function.update_self ..
    refine ⟨fun device hdevice ↦ ?_, fun hunknown ↦ ?_, fun g hg ↦ ?_, fun devices hdevices ↦ ?_⟩
    · obtain ⟨row, hrow, hnetwork, hbefore⟩ := h.known device hdevice
      refine ⟨row, hrow, hnetwork, ?_⟩
      change Due device.online row.online ((announced d).or (s.loaded d))
        (Function.update s.cycles d cycle d)
      rw [hnext]
      exact hdue _ _ hbefore
    · exact absurd (h.unknown hunknown).1 hbusy
    · exact absurd (hnext.symm.trans hg) (hpolling g)
    · exact ⟨(h.loading devices hdevices).1,
        fun hunknown ↦ absurd (h.unknown hunknown).1 hbusy⟩
  · exact h.frame rfl (fun _ ↦ rfl) rfl ⟨hannounced hd, rfl⟩ (Function.update_of_ne hd ..) rfl

theorem Valid.upsert (h : Valid cfg d s) {info : DeviceInfo} {now : Instant} {newId : Uuid}
    (hnew : newId ∉ s.tables.devices) (himporting : s.discovery = .importing)
    (hcoherent : Coherent cfg d s (.upsert info now newId)) :
    Valid cfg d { s with tables := (s.tables.upsertDevice cfg.networkId info now newId).1 } := by
  by_cases hd : d = (s.tables.upsertDevice cfg.networkId info now newId).2
  · refine ⟨fun device hdevice ↦ ?_, h.unknown, h.polling, fun devices hdevices ↦ ?_⟩
    · obtain ⟨row, hrow, -, hdue⟩ := h.known device hdevice
      have hold : (s.tables.deviceOf cfg.networkId info.deviceInstance).map Sigma.fst = some d := by
        rcases Tables.upsertDevice_id with hid | hid
        · rw [hid, ← hd]
        · -- a new row is not that of a device the registry has
          refine absurd ?_ hnew
          rw [← hid, ← hd]
          exact Table.mem_of_lookup hrow
      refine ⟨Tables.answered cfg.networkId info now, ?_, rfl, ?_⟩
      · rw [hd]
        exact Tables.lookup_upsertDevice_self
      · change Due device.online true (s.heard d) (s.cycles d)
        rcases hcoherent hold device hdevice with honline | hcycle
        · rw [honline] at hdue ⊢
          rcases hcycle : s.cycles d with - | g | ⟨online, - | -⟩ | online | - <;>
            rw [hcycle] at hdue
          · exact ⟨rfl, hdue.2⟩
          · exact ⟨rfl, hdue.2⟩
          · exact ⟨hdue.1, rfl, hdue.2.2⟩
          · exact hdue
          · exact ⟨hdue.1, hdue.1⟩
          · exact ⟨rfl, hdue.2⟩
        · rw [hcycle] at hdue ⊢
          exact hdue
    · rw [himporting] at hdevices
      nomatch hdevices
  · exact h.frame rfl (fun _ ↦ rfl) (Tables.lookup_upsertDevice_of_ne hd) ⟨rfl, rfl⟩ rfl rfl

theorem Valid.load (h : Valid cfg d s) : Valid cfg d { s with
    discovery := .loaded (s.tables.loadDevices cfg.networkId cfg.defaultIntervalS) } := by
  refine ⟨h.known, h.unknown, h.polling, fun devices hdevices ↦ ?_⟩
  obtain rfl := Discovering.loaded.inj hdevices
  refine ⟨fun hknown ↦ ?_, fun _ new hnew ↦ ?_⟩
  · obtain ⟨device, hdevice⟩ := Option.ne_none_iff_exists'.mp hknown
    obtain ⟨row, hrow, hnetwork, -⟩ := h.known device hdevice
    rw [Tables.device_loadDevices, Option.mem_def.mp hrow, Option.bind_some, if_pos hnetwork]
    exact Option.some_ne_none _
  · rw [Tables.device_loadDevices] at hnew
    obtain ⟨row, hrow, hload⟩ := Option.bind_eq_some_iff.mp hnew
    split at hload
    · rename_i hnetwork
      refine ⟨row, hrow, hnetwork, ?_⟩
      rw [← Option.some.inj hload]
      rfl
    · simp at hload

/-- The registry is replaced: a device it had keeps its status, a new one comes with that of its
row. -/
theorem Valid.replace (h : Valid cfg d s) {devices : List DeviceState}
    (hdevices : s.discovery = .loaded devices) : Valid cfg d { s with
      registry := s.registry.replace (s.registry.get.replace devices)
      loaded := s.firstLoaded (s.registry.get.replace devices)
      discovery := .idle } := by
  obtain ⟨hthere, hnew⟩ := h.loading devices hdevices
  have hreplaced : (s.registry.replace (s.registry.get.replace devices)).get.device d =
      ((Registry.mk devices).device d).map fun device ↦
        { device.resume (s.registry.get.device d) with
          points := (device.resume (s.registry.get.device d)).points.map fun point ↦
            point.resume (s.registry.get.point point.ref.pointId) } := by
    rw [Generations.get_replace, Registry.device_replace]
  rcases hget : s.registry.get.device d with - | previous
  · -- the registry did not have the device: nothing was announced of it
    obtain ⟨hidle, hannounced, -⟩ := h.unknown hget
    rw [hget] at hreplaced
    have hloaded : s.firstLoaded (s.registry.get.replace devices) d =
        ((Registry.mk devices).device d).map DeviceState.online := by
      rw [Generations.get_replace] at hreplaced
      rw [firstLoaded, hget, hreplaced, Option.map_map]
      rfl
    refine ⟨fun device hdevice ↦ ?_, fun hunknown ↦ ?_, fun g hg ↦ ?_, fun _ hloaded ↦ ?_⟩
    · obtain ⟨new, hmem, rfl⟩ := Option.map_eq_some_iff.mp (hreplaced.symm.trans hdevice)
      obtain ⟨row, hrow, hnetwork, honline⟩ := hnew hget new hmem
      refine ⟨row, hrow, hnetwork, ?_⟩
      change Due new.online row.online
        ((s.announced d).or (s.firstLoaded (s.registry.get.replace devices) d)) (s.cycles d)
      rw [hidle, hannounced, hloaded, hmem]
      exact ⟨honline, rfl⟩
    · refine ⟨hidle, hannounced, hloaded.trans ?_⟩
      rw [Option.map_eq_none_iff.mp (hreplaced.symm.trans hunknown), Option.map_none]
    · have hpolling := hidle.symm.trans hg
      nomatch hpolling
    · nomatch hloaded
  · rw [hget] at hreplaced
    -- it had the device: the object that comes takes over its status
    have hloaded : s.firstLoaded (s.registry.get.replace devices) d = s.loaded d := by
      rw [firstLoaded, hget]
    refine ⟨fun device hdevice ↦ ?_, fun hunknown ↦ ?_, fun g hg ↦ ?_, fun _ hloaded ↦ ?_⟩
    · obtain ⟨new, hmem, rfl⟩ := Option.map_eq_some_iff.mp (hreplaced.symm.trans hdevice)
      obtain ⟨row, hrow, hnetwork, hdue⟩ := h.known previous hget
      refine ⟨row, hrow, hnetwork, ?_⟩
      change Due previous.online row.online
        ((s.announced d).or (s.firstLoaded (s.registry.get.replace devices) d)) (s.cycles d)
      rwa [hloaded]
    · have hknown := hthere (by rw [hget]; exact Option.some_ne_none _)
      exact absurd (Option.map_eq_none_iff.mp (hreplaced.symm.trans hunknown)) hknown
    · obtain ⟨hle, hsame⟩ := h.polling g hg
      refine ⟨hle.trans (Nat.le_succ _), fun old hold device hdevice ↦ ?_⟩
      obtain ⟨new, hmem, rfl⟩ := Option.map_eq_some_iff.mp (hreplaced.symm.trans hdevice)
      have hobject := s.registry.object_replace_of_le (s.registry.get.replace devices) hle
      exact hsame old (hobject ▸ hold) previous hget
    · nomatch hloaded

theorem Valid.poll (h : Valid cfg d s) {d' : Uuid} {now : Instant} (hidle : s.cycles d' = .idle)
    (hknown : s.registry.get.device d' ≠ none) : Valid cfg d { s with
      registry := s.registry.modify s.registry.current fun r ↦
        r.modifyDevice d' fun device ↦ { device with lastAttempt := now }
      cycles := Function.update s.cycles d' (.polling s.registry.current) } := by
  by_cases hd : d = d'
  · subst hd
    have hget : (s.registry.modify s.registry.current fun r ↦
        r.modifyDevice d fun device ↦ { device with lastAttempt := now }).get.device d =
        (s.registry.get.device d).map fun device ↦ { device with lastAttempt := now } := by
      rw [Generations.get_modify_current]
      exact Registry.device_modifyDevice_self fun _ ↦ rfl
    have hnext : Function.update s.cycles d (.polling s.registry.current) d =
        .polling s.registry.current := Function.update_self ..
    refine ⟨fun device hdevice ↦ ?_, fun hunknown ↦ ?_, fun g hg ↦ ?_, fun devices hdevices ↦ ?_⟩
    · obtain ⟨before, hbefore, rfl⟩ := Option.map_eq_some_iff.mp (hget.symm.trans hdevice)
      obtain ⟨row, hrow, hnetwork, hdue⟩ := h.known before hbefore
      refine ⟨row, hrow, hnetwork, ?_⟩
      change Due before.online row.online (s.heard d) (Function.update s.cycles d _ d)
      rw [hnext]
      rw [hidle] at hdue
      exact hdue
    · exact absurd (Option.map_eq_none_iff.mp (hget.symm.trans hunknown)) hknown
    · obtain rfl := Cycle.polling.inj (hnext.symm.trans hg)
      refine ⟨le_rfl, fun old hold device hdevice ↦ ?_⟩
      obtain rfl := Option.some.inj (hold.symm.trans hdevice)
      rfl
    · exact ⟨fun _ ↦ (h.loading devices hdevices).1 hknown,
        fun hunknown ↦ absurd (Option.map_eq_none_iff.mp (hget.symm.trans hunknown)) hknown⟩
  · refine h.frame rfl (fun g ↦ ?_) rfl ⟨rfl, rfl⟩ (Function.update_of_ne hd ..) rfl
    have hsame := device_modify s.registry s.registry.current g d d' (f := fun device ↦
      { device with lastAttempt := now }) fun _ ↦ rfl
    rwa [if_neg fun h ↦ hd h.2] at hsame

/-- **Step lemma.** -/
theorem Valid.step (h : Valid cfg d s) (hcoherent : Coherent cfg d s e)
    (hnext : next cfg s e = some s') : Valid cfg d s' := by
  cases e with
  | poll d' now =>
    simp only [next] at hnext
    split at hnext
    · rename_i hidle hdevice
      obtain rfl := Option.some.inj hnext
      exact h.poll hidle (by rw [hdevice]; exact Option.some_ne_none _)
    · simp at hnext
  | succeed d' now => exact h.conclude (concludes_onSuccess now) hcoherent hnext
  | fail d' now => exact h.conclude (concludes_onFailure _ now) hcoherent hnext
  | write d' now =>
    simp only [next] at hnext
    split at hnext
    · rename_i hcycle
      obtain rfl := Option.some.inj hnext
      exact h.write hcycle _
    · simp at hnext
  | publish d' =>
    simp only [next] at hnext
    split at hnext
    · rename_i online hcycle
      obtain rfl := Option.some.inj hnext
      refine h.advance (fun hd ↦ Function.update_of_ne hd ..) (by rw [hcycle]; nofun) (by nofun) ?_
      intro flag row hdue
      rw [hcycle] at hdue
      rw [Function.update_self]
      exact ⟨hdue.2.trans hdue.1.symm, congrArg some hdue.1.symm⟩
    · simp at hnext
  | finish d' =>
    simp only [next] at hnext
    split at hnext
    · rename_i hcycle
      obtain rfl := Option.some.inj hnext
      refine h.advance (fun _ ↦ rfl) (by rw [hcycle]; nofun) (by nofun) fun flag row hdue ↦ ?_
      rw [hcycle] at hdue
      exact hdue
    · simp at hnext
  | discover =>
    simp only [next] at hnext
    split at hnext
    · obtain rfl := Option.some.inj hnext
      exact ⟨h.known, h.unknown, h.polling, fun _ hloaded ↦ nomatch hloaded⟩
    · simp at hnext
  | upsert info now newId =>
    simp only [next] at hnext
    split at hnext
    · rename_i himporting
      split at hnext
      · simp at hnext
      · rename_i hnew
        obtain rfl := Option.some.inj hnext
        exact h.upsert hnew himporting hcoherent
    · simp at hnext
  | load =>
    simp only [next] at hnext
    split at hnext
    · obtain rfl := Option.some.inj hnext
      exact h.load
    · simp at hnext
  | replace =>
    simp only [next] at hnext
    split at hnext
    · rename_i hdevices
      obtain rfl := Option.some.inj hnext
      exact h.replace hdevices
    · simp at hnext

/-- **Agreement.** In a run where the discoveries and the cycles of a device are coherent, the three
copies of its status agree whenever nothing is going on. -/
theorem status_agrees {tables : Tables} {es : List Event}
    (hrun : Run cfg (Coherent cfg d) (start tables) es s) : Agrees d s :=
  (hrun.invariant (Valid cfg d) (fun h hstep ↦ h.step hstep.1 hstep.2)
    (valid_start cfg d tables)).agrees

/-! ## A device that comes back -/

def supervisionConfig : SupervisionConfig := ⟨1, 30, 3⟩

/-- A device that was offline when the collector stopped. -/
def offlineDevice : Tables where
  devices := (∅ : Table Uuid DeviceRow).insert 1
    ⟨1, 10, "AHU-1", "10.0.0.5", false, none, none, none⟩
  points := ∅

/-- The device as it answers a discovery. -/
def ahuInfo : DeviceInfo := ⟨10, "10.0.0.5", some "AHU-1", none, none, true⟩

/-- A discovery that the device does not answer. -/
def silentDiscovery : List Event := [.discover, .load, .replace]

/-- A discovery that the device answers. -/
def answeredDiscovery : List Event := [.discover, .upsert ahuInfo 7 2, .load, .replace]

/-- A poll cycle that brings the device back. -/
def comingBack : List Event := [.poll 1 5, .succeed 1 6, .write 1 6, .publish 1, .finish 1]

/-- What the three say of the device. -/
def statuses (s : Supervision) : Option Bool × Option Bool × Option Bool :=
  ((s.registry.get.device 1).map DeviceState.online, s.heard 1,
    (s.tables.devices.lookup 1).map DeviceRow.online)

/-- The discovery finds the device after the poll has brought it back. -/
theorem status_agrees_comingBack :
    ∃ s, Run supervisionConfig (Coherent supervisionConfig 1) (start offlineDevice)
      (silentDiscovery ++ comingBack ++ answeredDiscovery) s ∧
      statuses s = (some true, some true, some true) ∧ Agrees 1 s := by
  have hend : (Trace.exec
      (fun s e ↦ if Coherent supervisionConfig 1 s e then next supervisionConfig s e else none)
      (start offlineDevice) (silentDiscovery ++ comingBack ++ answeredDiscovery)).map statuses =
      some (some true, some true, some true) := by decide
  obtain ⟨s, hs, hend⟩ := Option.map_eq_some_iff.mp hend
  have hrun : Run supervisionConfig (Coherent supervisionConfig 1) (start offlineDevice)
      (silentDiscovery ++ comingBack ++ answeredDiscovery) s := .of_exec_checked hs
  exact ⟨s, hrun, hend, status_agrees hrun⟩

/-- The discovery finds the device while the registry has it offline: only the database hears of
it. -/
theorem status_disagrees :
    ¬ ∀ (cfg : SupervisionConfig) (tables : Tables) (es : List Event) (s : Supervision) (d : Uuid),
      Run cfg (fun _ _ ↦ True) (start tables) es s → Agrees d s := by
  intro hallAgree
  have hend : (Trace.exec (next supervisionConfig) (start offlineDevice)
      (silentDiscovery ++ answeredDiscovery)).map (fun s ↦
        (s.cycles 1, s.discovery, statuses s)) =
      some (.idle, .idle, some false, some false, some true) := by decide
  obtain ⟨s, hs, hend⟩ := Option.map_eq_some_iff.mp hend
  simp only [statuses, Prod.mk.injEq] at hend
  obtain ⟨hcycle, hdiscovery, hdevice, -, hrow⟩ := hend
  have hagrees := hallAgree _ _ _ s 1 (.of_exec (fun _ _ _ ↦ trivial) hs)
  obtain ⟨device, hdevice, honline⟩ := Option.map_eq_some_iff.mp hdevice
  obtain ⟨-, hsame⟩ := hagrees hcycle hdiscovery device hdevice
  rw [hrow, honline] at hsame
  exact absurd hsame (by decide)

end Supervision

end Superviseur
