import Mathlib.Tactic.Linarith
import Superviseur.Collector.Conservation

/-!
# The history under a deadband

`should_store` compares a reading with the last sample stored, never with the last reading: a slow
drift is not lost, however small its steps. With exact values the last sample tells, after every
reading, its status, whether it has a value, and this value to within the deadband, and it is never
older than the interval of the point; what it tells already is not stored again (`faithful`).

The arithmetic is a parameter: `should_store` is the same function on floats, where the difference
of two values and the seconds of a duration are rounded.
-/

namespace Superviseur

/-- What `should_store` computes with: the difference of two values, the seconds of a duration. -/
structure Arithmetic where
  sub : PyFloat → PyFloat → PyFloat
  seconds : ℚ → PyFloat

namespace Arithmetic

/-- The floats of the language. -/
def binary64 : Arithmetic := ⟨PyFloat.sub, PyFloat.round⟩

/-- The difference of two numbers, not rounded. -/
def exactSub : PyFloat → PyFloat → PyFloat
  | .num (some (some p)), .num (some (some q)) => .fin (p - q)
  | x, y => x.sub y

/-- Exact numbers. -/
def exact : Arithmetic := ⟨exactSub, PyFloat.fin⟩

end Arithmetic

/-- `should_store`, with this arithmetic. -/
def shouldStoreIn (arithmetic : Arithmetic) (point : PointState) (reading : Reading) : Bool :=
  match point.stored, point.storedTs with
  | true, some storedTs =>
    if some reading.status ≠ point.storedStatus then true
    else if reading.value.isNone ≠ point.storedValue.isNone then true
    else
      let moved := match reading.value, point.storedValue with
        | some value, some storedValue => point.deadband.lt (arithmetic.sub value storedValue).abs
        | _, _ => false
      moved || (PyFloat.fin point.maxIntervalS).le (arithmetic.seconds (reading.ts - storedTs))
  | _, _ => true

/-- A point, with the samples selected for its history so far. -/
structure Tracking where
  point : PointState
  samples : List Reading

namespace Tracking

/-- `handle`, for what it stores. -/
def handle (arithmetic : Arithmetic) (t : Tracking) (reading : Reading) : Tracking :=
  if shouldStoreIn arithmetic t.point reading then
    ⟨t.point.store reading, t.samples ++ [reading]⟩
  else t

/-- The readings of the point, one after the other. -/
def run (arithmetic : Arithmetic) (point : PointState) (readings : List Reading) : Tracking :=
  readings.foldl (handle arithmetic) ⟨point, []⟩

end Tracking

/-- The sample tells the reading, to within the deadband. -/
structure Tells (deadband : ℚ) (sample reading : Reading) : Prop where
  status : sample.status = reading.status
  absent : sample.value = none ↔ reading.value = none
  value : ∀ v w : ℚ, reading.value = some (.fin v) → sample.value = some (.fin w) →
    |v - w| ≤ deadband

/-- The value of the reading, if any, is a number. -/
def Reading.IsFinite (reading : Reading) : Prop := ∀ v ∈ reading.value, v.isFinite = true

instance (reading : Reading) : Decidable reading.IsFinite :=
  inferInstanceAs (Decidable (∀ v ∈ reading.value, _))

/-! ## One reading -/

section Step

variable {deadband : ℚ} {point : PointState} {sample reading : Reading}

theorem Reading.IsFinite.exists_fin (h : reading.IsFinite) {v : PyFloat}
    (hv : reading.value = some v) : ∃ q, v = .fin q := by
  obtain ⟨n, hn⟩ := Option.isSome_iff_exists.mp (h v hv)
  obtain ⟨q, hq, -⟩ := PyFloat.toInt_eq_some_iff.mp hn
  exact ⟨q, hq⟩

/-- With exact values, the difference exceeds the deadband where the values are further apart. -/
theorem exceeds_iff (v w : ℚ) :
    (PyFloat.fin deadband).lt (Arithmetic.exact.sub (.fin v) (.fin w)).abs = false ↔
      |v - w| ≤ deadband := by
  have hsub : Arithmetic.exact.sub (.fin v) (.fin w) = .fin (v - w) := rfl
  rw [hsub, PyFloat.abs_fin, ← Bool.not_eq_true, PyFloat.lt_fin, not_lt]

/-- With exact values, a reading is left out exactly where the last sample tells it and is more
recent than the interval of the point. -/
theorem shouldStoreIn_exact_iff (hdeadband : point.deadband = .fin deadband)
    (hsample : sample.IsFinite) (hreading : reading.IsFinite) :
    shouldStoreIn .exact (point.store sample) reading = false ↔
      Tells deadband sample reading ∧ reading.ts - sample.ts < point.maxIntervalS := by
  have hrecent : (PyFloat.fin point.maxIntervalS).le
      (Arithmetic.exact.seconds (reading.ts - sample.ts)) = false ↔
        reading.ts - sample.ts < point.maxIntervalS := by
    have hseconds : Arithmetic.exact.seconds (reading.ts - sample.ts)
        = .fin (reading.ts - sample.ts) := rfl
    rw [hseconds, ← Bool.not_eq_true, PyFloat.le_fin, not_le]
  rw [shouldStoreIn, PointState.store]
  dsimp only
  rw [hdeadband]
  by_cases hstatus : reading.status = sample.status
  · rw [if_neg (by rw [hstatus]; exact not_not.mpr rfl)]
    rcases hr : reading.value with _ | v <;> rcases hs : sample.value with _ | w
    · -- both are without a value
      have htells : Tells deadband sample reading := by
        refine ⟨hstatus.symm, iff_of_true hs hr, fun v w hv ↦ ?_⟩
        exact absurd (hr.symm.trans hv) (Option.some_ne_none _).symm
      rw [if_neg (not_not.mpr rfl), Bool.false_or, hrecent]
      exact (and_iff_right htells).symm
    · rw [if_pos (by simp)]
      refine iff_of_false (by decide) fun h ↦ ?_
      exact absurd (hs.symm.trans (h.1.absent.mpr hr)) (Option.some_ne_none _)
    · rw [if_pos (by simp)]
      refine iff_of_false (by decide) fun h ↦ ?_
      exact absurd (hr.symm.trans (h.1.absent.mp hs)) (Option.some_ne_none _)
    · -- both have one: the deadband decides
      obtain ⟨v, rfl⟩ := hreading.exists_fin hr
      obtain ⟨w, rfl⟩ := hsample.exists_fin hs
      have htells : Tells deadband sample reading ↔ |v - w| ≤ deadband := by
        refine ⟨fun h ↦ h.value v w hr hs, fun hle ↦ ⟨hstatus.symm, by simp [hs, hr], ?_⟩⟩
        intro v' w' hv' hw'
        have hv : v = v' := PyFloat.fin_inj.mp (Option.some.inj (hr.symm.trans hv'))
        have hw : w = w' := PyFloat.fin_inj.mp (Option.some.inj (hs.symm.trans hw'))
        rwa [← hv, ← hw]
      have hpresent : ¬ (some (PyFloat.fin v)).isNone ≠ (some (PyFloat.fin w)).isNone :=
        not_not.mpr rfl
      rw [if_neg hpresent, Bool.or_eq_false_iff, hrecent, htells]
      exact and_congr_left fun _ ↦ exceeds_iff v w
  · rw [if_pos (fun h ↦ hstatus (Option.some.inj h))]
    exact iff_of_false (by decide) fun h ↦ hstatus h.1.status.symm

theorem shouldStoreIn_of_new {arithmetic : Arithmetic} (h : point.stored = false) :
    shouldStoreIn arithmetic point reading = true := by
  rw [shouldStoreIn, h]

end Step

/-! ## The readings of a point -/

namespace Tracking

section Run

variable (arithmetic : Arithmetic) (point : PointState) (past : List Reading) (reading : Reading)

theorem run_append : run arithmetic point (past ++ [reading])
    = (run arithmetic point past).handle arithmetic reading := by
  rw [run, List.foldl_append]
  rfl

theorem point_run : (run arithmetic point past).point
    = point.after (run arithmetic point past).samples.getLast? := by
  induction past using List.reverseRecOn with
  | nil => rfl
  | append_singleton past reading ih =>
    rw [run_append, handle]
    split
    · rw [List.getLast?_concat, ih]
      rcases (run arithmetic point past).samples.getLast? <;> rfl
    · exact ih

theorem mem_of_mem_samples {sample : Reading}
    (h : sample ∈ (run arithmetic point past).samples) : sample ∈ past := by
  induction past using List.reverseRecOn with
  | nil => exact absurd h List.not_mem_nil
  | append_singleton past reading ih =>
    rw [run_append, handle] at h
    split at h
    · exact (List.mem_append.mp h).elim (fun h ↦ List.mem_append_left _ (ih h))
        fun h ↦ List.mem_append_right _ h
    · exact List.mem_append_left _ (ih h)

end Run

/-! ## The main result -/

section Faithful

variable {deadband : ℚ} {point : PointState} {past : List Reading} {reading : Reading}

/-- After these readings and this one, the history tells the last one. -/
structure Faithful (deadband : ℚ) (point : PointState) (past : List Reading) (reading : Reading) :
    Prop where
  told : ∃ sample ∈ (run .exact point (past ++ [reading])).samples.getLast?,
    Tells deadband sample reading ∧
      (reading.ts - sample.ts < point.maxIntervalS ∨ sample = reading)
  spared : ∀ sample ∈ (run .exact point past).samples.getLast?, Tells deadband sample reading →
    reading.ts - sample.ts < point.maxIntervalS →
      (run .exact point (past ++ [reading])).samples = (run .exact point past).samples

theorem tells_self (hdeadband : 0 ≤ deadband) (reading : Reading) :
    Tells deadband reading reading := by
  refine ⟨rfl, Iff.rfl, fun v w hv hw ↦ ?_⟩
  obtain rfl : v = w := PyFloat.fin_inj.mp (Option.some.inj (hv.symm.trans hw))
  rw [sub_self, abs_zero]
  exact hdeadband

/-- The reading is left out exactly where the last sample tells it, and recently. -/
theorem shouldStoreIn_run_iff (hdeadband : point.deadband = .fin deadband)
    (hvalues : ∀ r ∈ past ++ [reading], r.IsFinite) {sample : Reading}
    (hsample : sample ∈ (run .exact point past).samples.getLast?) :
    shouldStoreIn .exact (run .exact point past).point reading = false ↔
      Tells deadband sample reading ∧ reading.ts - sample.ts < point.maxIntervalS := by
  have hpast := mem_of_mem_samples .exact point past (List.mem_of_mem_getLast? hsample)
  rw [point_run, hsample]
  exact shouldStoreIn_exact_iff hdeadband (hvalues sample (List.mem_append_left _ hpast))
    (hvalues reading (List.mem_append_right _ List.mem_cons_self))

theorem told_run (hdeadband : 0 ≤ deadband) (hpoint : point.deadband = .fin deadband)
    (hnew : point.stored = false) (hvalues : ∀ r ∈ past ++ [reading], r.IsFinite) :
    ∃ sample ∈ (run .exact point (past ++ [reading])).samples.getLast?,
      Tells deadband sample reading ∧
        (reading.ts - sample.ts < point.maxIntervalS ∨ sample = reading) := by
  rw [run_append, handle]
  rcases hstore : shouldStoreIn .exact (run .exact point past).point reading
  · rw [if_neg (by decide)]
    rcases hlast : (run .exact point past).samples.getLast? with _ | sample
    · -- the first reading is always stored
      rw [point_run, hlast] at hstore
      exact absurd (hstore.symm.trans (shouldStoreIn_of_new hnew)) (by decide)
    · obtain ⟨htells, hrecent⟩ := (shouldStoreIn_run_iff hpoint hvalues hlast).mp hstore
      exact ⟨sample, rfl, htells, .inl hrecent⟩
  · rw [if_pos rfl]
    exact ⟨reading, List.getLast?_concat, tells_self hdeadband reading, .inr rfl⟩

/-- **The history is faithful.** After every reading the last sample tells it, to within the
deadband, and is no older than the interval of the point; what it tells is not stored again. -/
theorem faithful (hdeadband : 0 ≤ deadband) (hpoint : point.deadband = .fin deadband)
    (hnew : point.stored = false) (hvalues : ∀ r ∈ past ++ [reading], r.IsFinite) :
    Faithful deadband point past reading := by
  refine ⟨told_run hdeadband hpoint hnew hvalues, fun sample hsample htells hrecent ↦ ?_⟩
  have hleft := (shouldStoreIn_run_iff hpoint hvalues hsample).mpr ⟨htells, hrecent⟩
  rw [run_append, handle, if_neg (by rw [hleft]; decide)]

/-- A temperature that rises by three tenths of a degree at every reading. -/
def drift (i : ℕ) : Reading := ⟨1, 30 * i, some (.fin (20 + 3 / 10 * i)), .ok⟩

/-- The sensor, with a deadband of half a degree. -/
def sensor : PointState :=
  .new ⟨1, 1, "10.0.0.5", "analog-input", 1⟩ none (.fin (1 / 2)) 900 30 false

theorem faithful_drift : Faithful (1 / 2) sensor [drift 0, drift 1] (drift 2) ∧
    (run .exact sensor [drift 0, drift 1, drift 2]).samples = [drift 0, drift 2] :=
  ⟨faithful (by decide +kernel) rfl rfl (by decide +kernel), by decide +kernel⟩

end Faithful

/-! ## The recorder -/

section Recorder

variable {points : Uuid → Option PointState} {p : Uuid} {point : PointState}

/-- The selection of the recorder, for one point, follows the readings of this point only. -/
theorem filter_selection (hpoint : points p = some point) (readings : List Reading) :
    (selection points readings).filter (fun reading ↦ reading.pointId = p) =
      (run .binary64 point (readings.filter fun reading ↦ reading.pointId = p)).samples := by
  induction readings using List.reverseRecOn with
  | nil => rfl
  | append_singleton past reading ih =>
    rw [selection_append, List.filter_append]
    by_cases hp : reading.pointId = p
    · have hone : [reading].filter (fun reading ↦ reading.pointId = p) = [reading] :=
        List.filter_eq_self.mpr (by simpa using hp)
      have hselects : selects points (selection points past) reading = shouldStoreIn .binary64
          (run .binary64 point (past.filter fun reading ↦ reading.pointId = p)).point reading := by
        rw [selects, hp, hpoint, point_run, ← ih]
        rfl
      rw [hone, run_append, handle, hselects]
      split
      · rw [List.filter_append, hone, ih]
      · exact ih
    · have hnone : [reading].filter (fun reading ↦ reading.pointId = p) = [] :=
        List.filter_eq_nil_iff.mpr (by simpa using hp)
      rw [hnone, List.append_nil, ← ih]
      split
      · rw [List.filter_append, hnone, List.append_nil]
      · rfl

/-- Nothing computed from two of these readings is rounded. -/
def Unrounded (readings : List Reading) : Prop := ∀ r ∈ readings, ∀ s ∈ readings,
  (∀ v ∈ r.value, ∀ w ∈ s.value, Arithmetic.binary64.sub v w = Arithmetic.exact.sub v w) ∧
    Arithmetic.binary64.seconds (r.ts - s.ts) = Arithmetic.exact.seconds (r.ts - s.ts)

theorem shouldStoreIn_congr {a b : Arithmetic} {sample reading : Reading}
    (hsub : ∀ v ∈ reading.value, ∀ w ∈ sample.value, a.sub v w = b.sub v w)
    (hseconds : a.seconds (reading.ts - sample.ts) = b.seconds (reading.ts - sample.ts)) :
    shouldStoreIn a (point.store sample) reading
      = shouldStoreIn b (point.store sample) reading := by
  rw [shouldStoreIn, shouldStoreIn, PointState.store]
  dsimp only
  rw [hseconds]
  rcases hr : reading.value with _ | v
  · rfl
  · rcases hs : sample.value with _ | w
    · rfl
    · rw [hr, hs] at hsub
      dsimp only
      rw [hsub v rfl w rfl]

theorem run_of_unrounded (hnew : point.stored = false) {readings : List Reading}
    (h : Unrounded readings) : run .binary64 point readings = run .exact point readings := by
  induction readings using List.reverseRecOn with
  | nil => rfl
  | append_singleton past reading ih =>
    have hpast := ih fun r hr s hs ↦
      h r (List.mem_append_left _ hr) s (List.mem_append_left _ hs)
    rw [run_append, run_append, hpast, handle, handle]
    have hstore : shouldStoreIn .binary64 (run .exact point past).point reading
        = shouldStoreIn .exact (run .exact point past).point reading := by
      rw [point_run]
      rcases hlast : (run .exact point past).samples.getLast? with _ | sample
      · exact (shouldStoreIn_of_new hnew).trans (shouldStoreIn_of_new hnew).symm
      · have hsample := mem_of_mem_samples .exact point past (List.mem_of_mem_getLast? hlast)
        obtain ⟨hsub, hseconds⟩ := h reading (List.mem_append_right _ List.mem_cons_self)
          sample (List.mem_append_left _ hsample)
        exact shouldStoreIn_congr hsub hseconds
    rw [hstore]

/-- In every run of the recorder, as long as nothing is rounded, the last sample of a point tells
its last reading, be the sample written or not. -/
theorem told_of_run {batchRows : ℕ} {table : Uuid → Option Reading} {es : List Recorder.Event}
    {r : Recorder} (hrun : Recorder.Run batchRows Recorder.WithinLimit (.start points table) es r)
    (hpoint : points p = some point) {deadband : ℚ} (hdeadband : 0 ≤ deadband)
    (hvalue : point.deadband = .fin deadband) (hnew : point.stored = false)
    (hfinite : ∀ reading ∈ r.recorded, reading.IsFinite)
    (hexact : Unrounded (r.recorded.filter fun reading ↦ reading.pointId = p)) {reading : Reading}
    (hlast : reading ∈ lastOf p r.recorded) :
    ∃ sample ∈ lastOf p (r.written ++ r.inFlight ++ r.samples), Tells deadband sample reading ∧
      (reading.ts - sample.ts < point.maxIntervalS ∨ sample = reading) := by
  obtain ⟨past, hpast⟩ := List.getLast?_eq_some_iff.mp hlast
  have hconserved : Recorder.Conserved points r :=
    hrun.invariant (Recorder.Conserved points) (fun hs hstep ↦ hs.next (fun _ ↦ hstep.1) hstep.2)
      (Recorder.conserved_start points table)
  have hsamples : (r.written ++ r.inFlight ++ r.samples).filter
      (fun reading ↦ reading.pointId = p) = (run .exact point (past ++ [reading])).samples := by
    rw [hconserved.samples, filter_selection hpoint,
      run_of_unrounded hnew hexact, hpast]
  rw [lastOf, hsamples]
  refine told_run hdeadband hvalue hnew fun r' hr' ↦ ?_
  rw [← hpast] at hr'
  exact hfinite r' (List.mem_filter.mp hr').1

end Recorder

end Tracking

end Superviseur
