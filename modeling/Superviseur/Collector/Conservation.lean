import Superviseur.Collector.Recorder

/-!
# No sample is lost

What `shouldStore` selects is a function of the readings in the order in which they are recorded,
each point being compared with its last reading selected. At every moment the samples written, those
being written and those still in the buffer are this selection, in its order, as long as the buffer
stays within its limit.
-/

namespace Superviseur

/-- The last reading of a point. -/
def lastOf (p : Uuid) (readings : List Reading) : Option Reading :=
  (readings.filter fun reading ↦ reading.pointId = p).getLast?

/-- A point once a reading, if any, was put in its history. -/
def PointState.after (point : PointState) (reading : Option Reading) : PointState :=
  reading.elim point point.store

/-- Whether a reading is selected, coming after those already selected. -/
def selects (points : Uuid → Option PointState) (selected : List Reading) (reading : Reading) :
    Bool :=
  (points reading.pointId).any fun point ↦
    shouldStore (point.after (lastOf reading.pointId selected)) reading

/-- The readings `shouldStore` selects, among readings recorded in this order. -/
def selection (points : Uuid → Option PointState) (readings : List Reading) : List Reading :=
  readings.foldl
    (fun selected reading ↦
      if selects points selected reading then selected ++ [reading] else selected) []

section

variable {points : Uuid → Option PointState} {readings : List Reading} {reading : Reading}

theorem selection_append :
    selection points (readings ++ [reading]) =
      if selects points (selection points readings) reading then
        selection points readings ++ [reading]
      else selection points readings := by
  rw [selection, List.foldl_append]
  rfl

theorem lastOf_append_self : lastOf reading.pointId (readings ++ [reading]) = some reading := by
  simp [lastOf]

theorem lastOf_append_of_ne {p : Uuid} (h : reading.pointId ≠ p) :
    lastOf p (readings ++ [reading]) = lastOf p readings := by
  simp [lastOf, h]

end

namespace Recorder

/-- The samples are conserved, and every point is compared with its last reading selected. -/
structure Conserved (points : Uuid → Option PointState) (r : Recorder) : Prop where
  samples : r.written ++ r.inFlight ++ r.samples = selection points r.recorded
  baseline : ∀ p, r.points p =
    (points p).map fun point ↦ point.after (lastOf p (selection points r.recorded))

/-- The buffer, with the batch being written, is within its limit. -/
def WithinLimit (r : Recorder) (_ : Event) : Prop :=
  r.inFlight.length + r.samples.length ≤ maxBufferedRows

instance (r : Recorder) (e : Event) : Decidable (WithinLimit r e) :=
  inferInstanceAs (Decidable (_ ≤ _))

variable {batchRows : ℕ} {points : Uuid → Option PointState} {r r' : Recorder} {e : Event}

theorem takeLast_eq_self {α : Type} {n : ℕ} {xs : List α} (h : xs.length ≤ n) :
    takeLast n xs = xs := by
  rw [takeLast, List.take_of_length_le (by rwa [List.length_reverse]), List.reverse_reverse]

theorem conserved_start (points : Uuid → Option PointState) (table : Uuid → Option Reading) :
    Conserved points (start points table) where
  samples := rfl
  baseline p := by
    have hnone : lastOf p (selection points (start points table).recorded) = none := rfl
    rw [hnone]
    exact (Option.map_id' (x := points p)).symm

/-- A reading is recorded: the point is as the selection so far left it, so that the recorder
decides as the selection does. -/
theorem Conserved.record (hr : Conserved points r) {reading : Reading} {point : PointState}
    (hpoint : r.points reading.pointId = some point) :
    Conserved points (record batchRows r reading point) := by
  obtain ⟨initial, hinitial, hafter⟩ : ∃ initial, points reading.pointId = some initial ∧
      initial.after (lastOf reading.pointId (selection points r.recorded)) = point := by
    rw [hr.baseline] at hpoint
    exact Option.map_eq_some_iff.mp hpoint
  have hselects : selects points (selection points r.recorded) reading
      = shouldStore point reading := by
    rw [selects, hinitial, ← hafter]
    rfl
  rcases hstore : shouldStore point reading
  · have hselection : selection points (r.recorded ++ [reading]) = selection points r.recorded := by
      rw [selection_append, hselects, hstore]
      rfl
    refine ⟨?_, fun p ↦ ?_⟩
    · simpa [Recorder.record, hstore, hselection, inFlight] using hr.samples
    · simpa [Recorder.record, hstore, hselection] using hr.baseline p
  · have hselection : selection points (r.recorded ++ [reading])
        = selection points r.recorded ++ [reading] := by
      rw [selection_append, hselects, hstore]
      rfl
    refine ⟨?_, fun p ↦ ?_⟩
    · simp only [Recorder.record, hstore, if_true, hselection, ← hr.samples, inFlight]
      simp only [List.append_assoc]
    · simp only [Recorder.record, hstore, if_true, hselection]
      by_cases hp : reading.pointId = p
      · subst hp
        rw [Function.update_self, lastOf_append_self, hinitial, ← hafter]
        -- storing a reading forgets the one stored before
        rcases lastOf reading.pointId (selection points r.recorded) <;> rfl
      · rw [Function.update_of_ne (Ne.symm hp), lastOf_append_of_ne hp]
        exact hr.baseline p

theorem inFlight_of_writing {batch : Batch} (h : r.writing = some batch) :
    r.inFlight = batch.samples := by
  rw [inFlight, h]
  rfl

theorem Conserved.write (hr : Conserved points r) {batch : Batch} (h : r.writing = some batch) :
    Conserved points ({ r with writing := none }.write batch) where
  samples := by
    have hsamples := hr.samples
    rw [inFlight_of_writing h] at hsamples
    simpa [Recorder.write, inFlight] using hsamples
  baseline := hr.baseline

/-- A flush fails: within the limit, nothing of its batch is given up. -/
theorem Conserved.restore (hr : Conserved points r) {batch : Batch} (h : r.writing = some batch)
    (hlimit : WithinLimit r e) :
    Conserved points ({ r with writing := none }.restore batch) where
  samples := by
    have hlength : (batch.samples ++ r.samples).length ≤ maxBufferedRows := by
      rw [WithinLimit, inFlight_of_writing h] at hlimit
      rw [List.length_append]
      exact hlimit
    have hsamples := hr.samples
    rw [inFlight_of_writing h] at hsamples
    simpa [Recorder.restore, inFlight, takeLast_eq_self hlength] using hsamples
  baseline := hr.baseline

/-- **Step lemma.** -/
theorem Conserved.next (hr : Conserved points r)
    (hlimit : e = .finish false → WithinLimit r e) (h : next batchRows r e = some r') :
    Conserved points r' := by
  cases step_of_next h with
  | unknown => exact hr
  | handle | publish | flush | skip => exact ⟨hr.samples, hr.baseline⟩
  | @record i _ _ hreading hpoint =>
    have hwaiting : Conserved points { r with recording := r.recording.eraseIdx i } :=
      ⟨hr.samples, hr.baseline⟩
    exact hwaiting.record hpoint
  | take hwriting =>
    -- what was in the buffer is in flight, where there was nothing
    refine ⟨?_, hr.baseline⟩
    have hsamples := hr.samples
    rw [inFlight, hwriting] at hsamples
    simpa [inFlight] using hsamples
  | write hwriting => exact hr.write hwriting
  | restore hwriting => exact hr.restore hwriting (hlimit rfl)

/-- **Conservation of samples.** In every run within the limit of the buffer, the samples written,
those being written and those in the buffer are the readings selected, in their order, each once. -/
theorem samples_conserved {table : Uuid → Option Reading} {es : List Event}
    (hrun : Run batchRows WithinLimit (start points table) es r) : Conserved points r :=
  hrun.invariant (Conserved points) (fun hs hstep ↦ hs.next (fun _ ↦ hstep.1) hstep.2)
    (conserved_start points table)

/-! ## A flush that fails while readings come in -/

/-- A point with no deadband, stored at least every fifteen minutes. -/
def freePoint (p : Uuid) : PointState :=
  .new ⟨p, 1, "10.0.0.5", "analog-value", 1⟩ none (.fin 0) 900 30 false

/-- The reading of a point at an instant, of value the instant. -/
def readingAt (p : Uuid) (ts : Instant) : Reading := ⟨p, ts, some (.fin ts), .ok⟩

def twoPoints (p : Uuid) : Option PointState := if p = 1 ∨ p = 2 then some (freePoint p) else none

/-- Everything `handle` does with a reading, alone. -/
def handled (p : Uuid) (ts : Instant) : List Event :=
  [.handle (readingAt p ts), .publish 0 true, .record 0]

/-- The first flush fails after two more readings were recorded; the second one writes them all. -/
def failedOnce : List Event :=
  handled 1 1 ++ [.flush, .lock] ++ handled 2 2 ++ handled 1 3 ++
    [.finish false, .flush, .lock, .finish true]

theorem samples_conserved_failedOnce :
    ∃ r, Run 500 WithinLimit (start twoPoints fun _ ↦ none) failedOnce r ∧
      r.written = [readingAt 1 1, readingAt 2 2, readingAt 1 3] ∧ Conserved twoPoints r := by
  have hwritten : ((Trace.exec (fun r e ↦ if WithinLimit r e then next 500 r e else none)
      (start twoPoints fun _ ↦ none) failedOnce).map Recorder.written) =
        some [readingAt 1 1, readingAt 2 2, readingAt 1 3] := by decide +kernel
  obtain ⟨r, hr, hwritten⟩ := Option.map_eq_some_iff.mp hwritten
  have hrun : Run 500 WithinLimit (start twoPoints fun _ ↦ none) failedOnce r :=
    .of_exec_checked hr
  exact ⟨r, hrun, hwritten, samples_conserved hrun⟩

end Recorder

end Superviseur
