import Superviseur.Collector.ConfigSync

/-!
# No update of the settings is lost

When every reload and every discovery is over, the points of the registry have the settings of the
database, in the runs where no discovery puts in the registry settings that have changed since it
read them, unless the reload that the change asks for has yet to begin.
-/

namespace Superviseur

/-- The point has these settings; without an interval of its own it has the default one. -/
def PointState.Follows (default : ℚ) (point : PointState) (s : PointSettings) : Prop :=
  point.deadband = s.deadband ∧ point.maxIntervalS = s.maxIntervalS ∧
    point.pollIntervalS = s.pollIntervalS.elim default fun n ↦ n

instance (default : ℚ) (point : PointState) (s : PointSettings) :
    Decidable (point.Follows default s) := inferInstanceAs (Decidable (_ ∧ _))

namespace ConfigSync

/-- What a discovery puts in the registry is what the database has, or will be reloaded. -/
def StillCurrent (default : ℚ) (s : ConfigSync) : Event → Prop
  | .replace => ∀ point ∈ (Registry.mk s.discovery.devices).allPoints,
      (∃ settings ∈ s.tables.getPointSettings point.ref.pointId, point.Follows default settings) ∨
        point.ref.pointId ∈ s.requests
  | _ => True

instance (default : ℚ) (s : ConfigSync) : (e : Event) → Decidable (StillCurrent default s e)
  | .replace =>
    inferInstanceAs (Decidable (∀ point ∈ (Registry.mk s.discovery.devices).allPoints, _))
  | .patch _ _ | .begin _ | .read | .apply _ | .discover | .upsertPoints _ _ _ _ _ | .load =>
    .isTrue trivial

/-- Every point of the registry has the settings of its row. -/
def UpToDate (default : ℚ) (s : ConfigSync) : Prop :=
  ∀ p, ∀ point ∈ s.registry.get.point p, ∃ settings ∈ s.tables.getPointSettings p,
    point.Follows default settings

/-- Every reload and every discovery has finished. -/
def Settled (s : ConfigSync) : Prop := s.requests = [] ∧ s.reload = .idle ∧ s.discovery = .idle

/-- No interval of the database is zero, as the bounds of an update see to it. -/
def Positive (tables : Tables) : Prop :=
  ∀ p, ∀ row ∈ tables.points.lookup p, row.pollIntervalS ≠ some 0

/-- What the collector still has to do for a point, whose settings are these. -/
def Due (default : ℚ) (s : ConfigSync) (p : Uuid) (point : PointState) (settings : PointSettings) :
    Prop :=
  point.Follows default settings ∨ p ∈ s.requests ∨ s.reload = .asking p s.registry.current ∨
    ∃ read, s.reload = .answered p s.registry.current (some read) ∧
      read.tuning = settings.tuning

/-- What every state satisfies. -/
structure Valid (default : ℚ) (s : ConfigSync) : Prop where
  positive : Positive s.tables
  /-- The points of the registry have a row, and its settings, or will have them. -/
  known : ∀ p, ∀ point ∈ s.registry.get.point p, ∃ settings ∈ s.tables.getPointSettings p,
    Due default s p point settings
  /-- The point that is being reloaded has a row. -/
  reloading : ∀ p ∈ s.reload.point, (s.tables.getPointSettings p).isSome
  /-- What a reload has read is what the database has, or another reload will follow. -/
  answered : ∀ p g read, s.reload = .answered p g read → ∀ settings ∈ s.tables.getPointSettings p,
    p ∈ s.requests ∨ ∃ r ∈ read, r.tuning = settings.tuning
  /-- The points that were loaded have a row. -/
  loaded : ∀ point ∈ (Registry.mk s.discovery.devices).allPoints,
    (s.tables.getPointSettings point.ref.pointId).isSome

variable {networkId : Uuid} {default : ℚ} {s s' : ConfigSync} {e : Event} {p : Uuid}
  {point : PointState}

theorem Valid.upToDate (h : Valid default s) (hs : Settled s) : UpToDate default s := by
  intro p point hpoint
  obtain ⟨settings, hsettings, hfollows | hrequest | hasking | ⟨read, hanswered, -⟩⟩ :=
    h.known p point hpoint
  · exact ⟨settings, hsettings, hfollows⟩
  · rw [hs.1] at hrequest
    nomatch hrequest
  · rw [hs.2.1] at hasking
    nomatch hasking
  · rw [hs.2.1] at hanswered
    nomatch hanswered

theorem valid_start {tables : Tables} (h : Positive tables) : Valid default (start tables) where
  positive := h
  known _ _ hpoint := nomatch hpoint
  reloading _ hp := nomatch hp
  answered _ _ _ hanswered := nomatch hanswered
  loaded _ hpoint := nomatch hpoint

theorem ref_applySettings (settings : PointSettings) (now : Instant) (point : PointState) :
    (PointState.applySettings default settings now point).ref = point.ref := rfl

theorem follows_applySettings {settings : PointSettings} {now : Instant}
    (h : settings.pollIntervalS ≠ some 0) :
    (PointState.applySettings default settings now point).Follows default settings := by
  refine ⟨rfl, rfl, ?_⟩
  rcases hpoll : settings.pollIntervalS with - | n
  · simp [PointState.applySettings, pollInterval, hpoll]
  · have hn : n ≠ 0 := fun hn ↦ h (by rw [hpoll, hn])
    simp [PointState.applySettings, pollInterval, hpoll, hn]

theorem follows_congr {a b : PointSettings} (h : a.tuning = b.tuning)
    (ha : point.Follows default a) : point.Follows default b := by
  obtain ⟨hdeadband, hmax, hpoll⟩ : a.deadband = b.deadband ∧ a.maxIntervalS = b.maxIntervalS ∧
      a.pollIntervalS = b.pollIntervalS := by
    simpa [PointSettings.tuning] using h
  rwa [PointState.Follows, hdeadband, hmax, hpoll] at ha

/-- The tables change, and where the settings of a point do a reload is asked for. -/
theorem Valid.setTables (h : Valid default s) {tables : Tables} {requests : List Uuid}
    (hpositive : Positive tables) (hrequests : ∀ p ∈ s.requests, p ∈ requests)
    (hkeeps : ∀ p, ∀ settings ∈ s.tables.getPointSettings p, ∃ new ∈ tables.getPointSettings p,
      p ∈ requests ∨ new.tuning = settings.tuning) :
    Valid default { s with tables := tables, requests := requests } where
  positive := hpositive
  known p point hpoint := by
    obtain ⟨settings, hsettings, hdue⟩ := h.known p point hpoint
    obtain ⟨new, hnew, hrequest | htuning⟩ := hkeeps p settings hsettings
    · exact ⟨new, hnew, .inr (.inl hrequest)⟩
    · refine ⟨new, hnew, ?_⟩
      rcases hdue with hfollows | hrequest | hasking | ⟨read, hanswered, hread⟩
      · exact .inl (follows_congr htuning.symm hfollows)
      · exact .inr (.inl (hrequests p hrequest))
      · exact .inr (.inr (.inl hasking))
      · exact .inr (.inr (.inr ⟨read, hanswered, hread.trans htuning.symm⟩))
  reloading p hp := by
    obtain ⟨settings, hsettings⟩ := Option.isSome_iff_exists.mp (h.reloading p hp)
    obtain ⟨new, hnew, -⟩ := hkeeps p settings hsettings
    exact Option.isSome_iff_exists.mpr ⟨new, hnew⟩
  answered p g read hanswered new hnew := by
    have hpoint : p ∈ s.reload.point := by
      change s.reload = _ at hanswered
      rw [hanswered]
      rfl
    obtain ⟨settings, hsettings⟩ := Option.isSome_iff_exists.mp (h.reloading p hpoint)
    obtain ⟨new', hnew', hdue⟩ := hkeeps p settings hsettings
    obtain rfl := Option.some.inj (hnew.symm.trans hnew')
    rcases hdue with hrequest | htuning
    · exact .inl hrequest
    · rcases h.answered p g read hanswered settings hsettings with hrequest | ⟨r, hr, hread⟩
      · exact .inl (hrequests p hrequest)
      · exact .inr ⟨r, hr, hread.trans htuning.symm⟩
  loaded point hpoint := by
    obtain ⟨settings, hsettings⟩ := Option.isSome_iff_exists.mp (h.loaded point hpoint)
    obtain ⟨new, hnew, -⟩ := hkeeps _ settings hsettings
    exact Option.isSome_iff_exists.mpr ⟨new, hnew⟩

theorem pollIntervalS_apply_ne_zero {update : PointUpdate} {settings : PointSettings}
    (hvalid : update.valid = true) (h : settings.pollIntervalS ≠ some 0) :
    (update.apply settings).pollIntervalS ≠ some 0 := by
  intro hzero
  rcases hpoll : update.pollIntervalS with - | interval
  · rw [PointUpdate.apply, hpoll] at hzero
    exact h hzero
  · rw [PointUpdate.apply, hpoll] at hzero
    obtain rfl : interval = some 0 := hzero
    rw [PointUpdate.valid, hpoll] at hvalid
    simp at hvalid

theorem Valid.patch (h : Valid default s) {update : PointUpdate} {row : PointRow}
    (hrow : s.tables.points.lookup p = some row) (hvalid : update.valid = true) :
    Valid default { s with
      tables := s.tables.setPointSettings p (update.apply row.settings)
      requests := if (update.apply row.settings).tuning = row.settings.tuning then s.requests
        else s.requests ++ [p] } := by
  refine h.setTables (fun q new hnew ↦ ?_) (fun q hq ↦ ?_) (fun q settings hsettings ↦ ?_)
  · by_cases hq : q = p
    · subst hq
      rw [Tables.lookup_setPointSettings_self, hrow] at hnew
      obtain rfl := Option.some.inj hnew
      exact pollIntervalS_apply_ne_zero hvalid (h.positive q row hrow)
    · rw [Tables.lookup_setPointSettings_of_ne hq] at hnew
      exact h.positive q new hnew
  · split
    · exact hq
    · exact List.mem_append_left _ hq
  · by_cases hq : q = p
    · subst hq
      obtain rfl : row.settings = settings := by
        rw [Tables.getPointSettings, hrow] at hsettings
        exact Option.some.inj hsettings
      refine ⟨update.apply row.settings, ?_, ?_⟩
      · rw [Tables.getPointSettings, Tables.lookup_setPointSettings_self, hrow]
        rfl
      · split
        · rename_i htuning
          exact .inr htuning
        · exact .inl (List.mem_append_right _ (List.mem_singleton_self _))
    · refine ⟨settings, ?_, .inr rfl⟩
      rw [Tables.getPointSettings, Tables.lookup_setPointSettings_of_ne hq]
      exact hsettings

theorem Valid.begin (h : Valid default s) {i : ℕ} (hidle : s.reload = .idle)
    (hp : s.requests[i]? = some p) :
    Valid default { s with
      requests := s.requests.eraseIdx i
      reload := if (s.registry.get.point p).isSome then .asking p s.registry.current
        else .idle } where
  positive := h.positive
  known q point hpoint := by
    obtain ⟨settings, hsettings, hdue⟩ := h.known q point hpoint
    refine ⟨settings, hsettings, ?_⟩
    rw [Due, hidle] at hdue
    rcases hdue with hfollows | hrequest | hasking | ⟨read, hanswered, -⟩
    · exact .inl hfollows
    · by_cases hq : q = p
      · -- the request is taken by this reload, which has found the point
        subst hq
        change s.registry.get.point q = some point at hpoint
        refine .inr (.inr (.inl ?_))
        change (if (s.registry.get.point q).isSome then _ else _) = _
        rw [hpoint]
        rfl
      · obtain ⟨j, hj⟩ := List.mem_iff_getElem?.mp hrequest
        have hne : j ≠ i := by
          rintro rfl
          exact hq (Option.some.inj (hj.symm.trans hp))
        exact .inr (.inl (List.mem_eraseIdx_iff_getElem?.mpr ⟨j, hne, hj⟩))
    · nomatch hasking
    · nomatch hanswered
  reloading q hq := by
    rcases hpoint : s.registry.get.point p with - | point
    · rw [hpoint] at hq
      nomatch hq
    · rw [hpoint] at hq
      obtain rfl : p = q := Option.some.inj hq
      obtain ⟨settings, hsettings, -⟩ := h.known p point hpoint
      exact Option.isSome_iff_exists.mpr ⟨settings, hsettings⟩
  answered q g read hanswered := by
    rcases hpoint : s.registry.get.point p with - | point <;> rw [hpoint] at hanswered <;>
      nomatch hanswered
  loaded := h.loaded

theorem Valid.read (h : Valid default s) {g : ℕ} (hasking : s.reload = .asking p g) :
    Valid default { s with reload := .answered p g (s.tables.getPointSettings p) } where
  positive := h.positive
  known q point hpoint := by
    obtain ⟨settings, hsettings, hdue⟩ := h.known q point hpoint
    refine ⟨settings, hsettings, ?_⟩
    rw [Due, hasking] at hdue
    rcases hdue with hfollows | hrequest | hsame | ⟨read, hanswered, -⟩
    · exact .inl hfollows
    · exact .inr (.inl hrequest)
    · obtain ⟨rfl, rfl⟩ := Reload.asking.inj hsame
      refine .inr (.inr (.inr ⟨settings, ?_, rfl⟩))
      rw [Option.mem_def.mp hsettings]
    · nomatch hanswered
  reloading q hq := h.reloading q (by rw [hasking]; exact hq)
  answered q g' read hanswered settings hsettings := by
    obtain ⟨rfl, -, rfl⟩ := Reload.answered.inj hanswered
    exact .inr ⟨settings, hsettings, rfl⟩
  loaded := h.loaded

theorem Valid.giveUp (h : Valid default s) {g : ℕ} (hanswered : s.reload = .answered p g none) :
    Valid default { s with reload := .idle } where
  positive := h.positive
  known q point hpoint := by
    obtain ⟨settings, hsettings, hdue⟩ := h.known q point hpoint
    refine ⟨settings, hsettings, ?_⟩
    rw [Due, hanswered] at hdue
    rcases hdue with hfollows | hrequest | hasking | ⟨read, hread, -⟩
    · exact .inl hfollows
    · exact .inr (.inl hrequest)
    · nomatch hasking
    · nomatch (Reload.answered.inj hread).2.2
  reloading _ hq := nomatch hq
  answered _ _ _ hread := nomatch hread
  loaded := h.loaded

/-- A reload ends: the object it had looked up has the settings it has read. -/
theorem Valid.apply (h : Valid default s) {g : ℕ} {read : PointSettings} {now : Instant}
    (hanswered : s.reload = .answered p g (some read)) :
    Valid default { s with
      registry := s.registry.modify g fun r ↦
        r.modifyPoint p (PointState.applySettings default read now)
      reload := .idle } where
  positive := h.positive
  known q point hpoint := by
    change (s.registry.modify g fun r ↦
      r.modifyPoint p (PointState.applySettings default read now)).get.point q =
        some point at hpoint
    -- the object that is written is that of the registry, or one it has given up
    by_cases hobject : g = s.registry.current ∧ q = p
    · obtain ⟨rfl, rfl⟩ := hobject
      rw [Generations.get_modify_current,
        Registry.point_modifyPoint_self (ref_applySettings read now)] at hpoint
      obtain ⟨before, hbefore, rfl⟩ := Option.map_eq_some_iff.mp hpoint
      obtain ⟨settings, hsettings, -⟩ := h.known q before hbefore
      refine ⟨settings, hsettings, ?_⟩
      rcases h.answered q _ _ hanswered settings hsettings with hrequest | ⟨r, hr, htuning⟩
      · exact .inr (.inl hrequest)
      · obtain rfl := Option.some.inj hr
        refine .inl (follows_congr htuning (follows_applySettings fun hzero ↦ ?_))
        obtain ⟨row, hrow, rfl⟩ := Option.map_eq_some_iff.mp hsettings
        have hpoll : read.pollIntervalS = row.pollIntervalS := congrArg (fun t ↦ t.2.2) htuning
        exact h.positive q row hrow (hpoll.symm.trans hzero)
    · -- the registry has the point as it was
      have hsame : s.registry.get.point q = some point := by
        by_cases hg : g = s.registry.current
        · subst hg
          rwa [Generations.get_modify_current, Registry.point_modifyPoint_of_ne
            (fun hq ↦ hobject ⟨rfl, hq⟩) (ref_applySettings read now)] at hpoint
        · rwa [Generations.get_modify_of_ne _ _ _ hg] at hpoint
      obtain ⟨settings, hsettings, hdue⟩ := h.known q point hsame
      refine ⟨settings, hsettings, ?_⟩
      rw [Due, hanswered] at hdue
      rcases hdue with hfollows | hrequest | hasking | ⟨r, hr, -⟩
      · exact .inl hfollows
      · exact .inr (.inl hrequest)
      · nomatch hasking
      · obtain ⟨hq, hg, -⟩ := Reload.answered.inj hr
        exact absurd ⟨hg, hq.symm⟩ hobject
  reloading _ hq := nomatch hq
  answered _ _ _ hread := nomatch hread
  loaded := h.loaded

theorem Valid.replace (h : Valid default s) {devices : List DeviceState}
    (hdevices : s.discovery = .loaded devices) (hcurrent : StillCurrent default s .replace) :
    Valid default { s with
      registry := s.registry.replace (s.registry.get.replace devices)
      discovery := .idle } where
  positive := h.positive
  known q point hpoint := by
    change (s.registry.replace (s.registry.get.replace devices)).get.point q = some point at hpoint
    rw [Generations.get_replace, Registry.point_replace] at hpoint
    obtain ⟨new, hnew, rfl⟩ := Option.map_eq_some_iff.mp hpoint
    obtain rfl : new.ref.pointId = q := Registry.pointId_of_point hnew
    have hmem : new ∈ (Registry.mk s.discovery.devices).allPoints := by
      rw [hdevices]
      exact List.mem_of_find?_eq_some hnew
    rcases hcurrent new hmem with ⟨settings, hsettings, hfollows⟩ | hrequest
    · refine ⟨settings, hsettings, .inl ?_⟩
      rcases s.registry.get.point new.ref.pointId with - | old
      · exact hfollows
      · exact hfollows
    · obtain ⟨settings, hsettings⟩ := Option.isSome_iff_exists.mp (h.loaded new hmem)
      exact ⟨settings, hsettings, .inr (.inl hrequest)⟩
  reloading := h.reloading
  answered := h.answered
  loaded _ hpoint := nomatch hpoint

/-- A discovery writes the objects of a device: the settings of the points stay, and a new point has
none of its own. -/
theorem Valid.upsertPoints (h : Valid default s) {deviceId : Uuid} {objects : List ObjectInfo}
    {covCapable : Bool} {pathPrefix : String} {newIds : List Uuid}
    (hlength : newIds.length = objects.length) (hfresh : s.tables.Fresh newIds) :
    Valid default { s with
      tables := s.tables.upsertPoints deviceId objects covCapable pathPrefix newIds } := by
  refine h.setTables (fun q row hrow ↦ ?_) (fun q hq ↦ hq) (fun q settings hsettings ↦ ?_)
  · rcases Tables.of_lookup_upsertPoints hrow with ⟨old, hold, hkeeps⟩ | ⟨o, hkeeps⟩
    · have hpoll : row.pollIntervalS = old.pollIntervalS :=
        congrArg PointSettings.pollIntervalS hkeeps.settings
      rw [hpoll]
      exact h.positive q old hold
    · have hpoll : row.pollIntervalS = none :=
        congrArg PointSettings.pollIntervalS hkeeps.settings
      rw [hpoll]
      exact nofun
  · obtain ⟨row, hrow, rfl⟩ := Option.map_eq_some_iff.mp hsettings
    obtain ⟨new, hnew, hkeeps, -⟩ := Tables.lookup_upsertPoints hfresh hlength hrow
    refine ⟨new.settings, ?_, .inr (congrArg PointSettings.tuning hkeeps.settings)⟩
    rw [Tables.getPointSettings, hnew]
    rfl

/-- **Step lemma.** -/
theorem Valid.step (h : Valid default s) (hcurrent : StillCurrent default s e)
    (hnext : next networkId default s e = some s') : Valid default s' := by
  cases e with
  | patch p update =>
    simp only [next] at hnext
    split at hnext
    · simp at hnext
    · rename_i row hrow
      split at hnext
      · rename_i hvalid
        obtain rfl := Option.some.inj hnext
        exact h.patch hrow hvalid
      · simp at hnext
  | «begin» i =>
    simp only [next] at hnext
    split at hnext
    · rename_i p hidle hp
      obtain rfl := Option.some.inj hnext
      exact h.begin hidle hp
    · simp at hnext
  | read =>
    simp only [next] at hnext
    split at hnext
    · rename_i p g hasking
      obtain rfl := Option.some.inj hnext
      exact h.read hasking
    · simp at hnext
  | apply now =>
    simp only [next] at hnext
    split at hnext
    · rename_i hanswered
      obtain rfl := Option.some.inj hnext
      exact h.giveUp hanswered
    · rename_i hanswered
      obtain rfl := Option.some.inj hnext
      exact h.apply hanswered
    · simp at hnext
  | discover =>
    simp only [next] at hnext
    split at hnext
    · obtain rfl := Option.some.inj hnext
      exact ⟨h.positive, h.known, h.reloading, h.answered, fun _ hpoint ↦ nomatch hpoint⟩
    · simp at hnext
  | upsertPoints deviceId objects covCapable pathPrefix newIds =>
    simp only [next] at hnext
    split at hnext
    · split at hnext
      · rename_i hids
        obtain rfl := Option.some.inj hnext
        exact h.upsertPoints hids.1 hids.2
      · simp at hnext
    · simp at hnext
  | load =>
    simp only [next] at hnext
    split at hnext
    · obtain rfl := Option.some.inj hnext
      refine ⟨h.positive, h.known, h.reloading, h.answered, fun point hpoint ↦ ?_⟩
      obtain ⟨row, -, hrow, -, -⟩ := Tables.exists_of_mem_allPoints hpoint
      rw [Tables.getPointSettings, hrow]
      rfl
    · simp at hnext
  | replace =>
    simp only [next] at hnext
    split at hnext
    · rename_i hdevices
      obtain rfl := Option.some.inj hnext
      exact h.replace hdevices hcurrent
    · simp at hnext

/-- **No update is lost.** In a run where discoveries put in the registry what the database still
has, the points of the registry have the settings of the database once everything has finished. -/
theorem settings_upToDate {tables : Tables} {es : List Event} (hpositive : Positive tables)
    (hrun : Run networkId default (StillCurrent default) (start tables) es s) (hs : Settled s) :
    UpToDate default s :=
  (hrun.invariant (Valid default) (fun h hstep ↦ h.step hstep.1 hstep.2)
    (valid_start hpositive)).upToDate hs

/-! ## An update during a discovery -/

/-- A device with one point, of deadband zero and without an interval of its own. -/
def tunedTables : Tables where
  devices := (∅ : Table Uuid DeviceRow).insert 1
    ⟨1, 10, "AHU-1", "10.0.0.5", true, none, none, none⟩
  points := (∅ : Table Uuid PointRow).insert 1
    ⟨1, "analog-value", 1, "Temp", none, none, true, true, none, none, false, .fin 0, 900, none⟩

/-- An update of the deadband. -/
def deadbandUpdate (x : ℚ) : PointUpdate := ⟨none, some (.fin x), none, none⟩

/-- A whole reload of the first request. -/
def reloaded : List Event := [.begin 0, .read, .apply 5]

/-- The deadbands of the registry and of the database. -/
def deadbands (s : ConfigSync) : Option PyFloat × Option PyFloat :=
  ((s.registry.get.point 1).map PointState.deadband,
    (s.tables.getPointSettings 1).map PointSettings.deadband)

theorem positive_tunedTables : Positive tunedTables := by
  intro p row hrow
  by_cases hp : p = 1
  · subst hp
    obtain rfl := Option.some.inj ((AList.lookup_insert _).symm.trans hrow)
    exact nofun
  · have hnone : tunedTables.points.lookup p = none := AList.lookup_insert_ne hp
    rw [hnone] at hrow
    nomatch hrow

theorem settled_of_eq {s : ConfigSync}
    (h : (s.requests, s.reload, s.discovery) = ([], Reload.idle, Discovering.idle)) :
    Settled s := by
  rw [Prod.mk.injEq, Prod.mk.injEq] at h
  exact h

/-- The update commits after the registry was replaced. -/
theorem settings_upToDate_updatedAfter :
    ∃ s, Run 1 30 (StillCurrent 30) (start tunedTables)
      ([.discover, .load, .replace, .patch 1 (deadbandUpdate 5)] ++ reloaded) s ∧
      deadbands s = (some (.fin 5), some (.fin 5)) ∧ UpToDate 30 s := by
  have hend : (Trace.exec (fun s e ↦ if StillCurrent 30 s e then next 1 30 s e else none)
      (start tunedTables) ([.discover, .load, .replace, .patch 1 (deadbandUpdate 5)] ++
        reloaded)).map (fun s ↦ ((s.requests, s.reload, s.discovery), deadbands s)) =
      some (([], .idle, .idle), some (.fin 5), some (.fin 5)) := by decide
  obtain ⟨s, hs, hend⟩ := Option.map_eq_some_iff.mp hend
  obtain ⟨hsettled, hdeadbands⟩ := Prod.mk.injEq .. ▸ hend
  have hrun : Run 1 30 (StillCurrent 30) (start tunedTables)
      ([.discover, .load, .replace, .patch 1 (deadbandUpdate 5)] ++ reloaded) s :=
    .of_exec_checked hs
  exact ⟨s, hrun, hdeadbands,
    settings_upToDate positive_tunedTables hrun (settled_of_eq hsettled)⟩

/-- The update commits while a discovery holds the settings it has read, and the reload changes the
object that the discovery then replaces. -/
theorem settings_lost :
    ¬ ∀ (networkId : Uuid) (default : ℚ) (tables : Tables) (es : List Event) (s : ConfigSync),
      Positive tables → Run networkId default (fun _ _ ↦ True) (start tables) es s → Settled s →
        UpToDate default s := by
  intro hupToDate
  have hend : (Trace.exec (next 1 30) (start tunedTables)
      ([.discover, .load, .replace, .discover, .load, .patch 1 (deadbandUpdate 5)] ++ reloaded ++
        [.replace])).map (fun s ↦ ((s.requests, s.reload, s.discovery), deadbands s)) =
      some (([], .idle, .idle), some (.fin 0), some (.fin 5)) := by decide
  obtain ⟨s, hs, hend⟩ := Option.map_eq_some_iff.mp hend
  obtain ⟨hsettled, hdeadbands⟩ := Prod.mk.injEq .. ▸ hend
  obtain ⟨hregistry, hdatabase⟩ := Prod.mk.injEq .. ▸ hdeadbands
  obtain ⟨point, hpoint, hold⟩ := Option.map_eq_some_iff.mp hregistry
  obtain ⟨settings, hsettings, hfollows, -⟩ := hupToDate 1 30 tunedTables _ s positive_tunedTables
    (.of_exec (fun _ _ _ ↦ trivial) hs) (settled_of_eq hsettled) 1 point hpoint
  rw [Option.mem_def.mp hsettings, Option.map_some, ← hfollows, hold] at hdatabase
  exact absurd hdatabase (by decide)

end ConfigSync

end Superviseur
