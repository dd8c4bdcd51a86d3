import Superviseur.Collector.Registry
import Superviseur.Library.Trace
import Mathlib.Data.List.AList
import Mathlib.Logic.Function.Basic

/-!
# The recorder

Every reading is published on Redis; those that `shouldStore` selects are buffered for the history,
and the last one of each point for `point_latest`. A flush takes both buffers and writes them in one
transaction; if that fails it puts them back, before what has come in meanwhile.

`handle` waits for Redis and `flush` for its lock and for the database, so calls overlap: the steps
of `next` are the stretches between two waits. A flush that waits for the lock is only counted, as
it carries nothing.
-/

namespace Superviseur

/-- `MAX_BUFFERED_ROWS`. -/
def maxBufferedRows : ℕ := 200000

/-- `should_store`. -/
def shouldStore (point : PointState) (reading : Reading) : Bool :=
  match point.stored, point.storedTs with
  | true, some storedTs =>
    if some reading.status ≠ point.storedStatus then true
    else if reading.value.isNone ≠ point.storedValue.isNone then true
    else
      let moved := match reading.value, point.storedValue with
        | some value, some storedValue => point.deadband.lt (value.sub storedValue).abs
        | _, _ => false
      moved || (PyFloat.fin point.maxIntervalS).le (.round (reading.ts - storedTs))
  | _, _ => true

/-- The reading becomes the last one recorded for the point. -/
def PointState.store (point : PointState) (reading : Reading) : PointState :=
  { point with
    stored := true
    storedValue := reading.value
    storedStatus := some reading.status
    storedTs := some reading.ts }

/-- A dictionary of rows by point. -/
abbrev Rows := AList fun _ : Uuid ↦ Reading

/-- The upsert of `point_latest`, for one row of the batch: a row already there that is newer
stays. -/
def upsertLatest (old new : Option Reading) : Option Reading :=
  match old, new with
  | some row, some excluded => if row.ts ≤ excluded.ts then some excluded else some row
  | none, new => new
  | old, none => old

/-- What a flush took from the buffers. -/
structure Batch where
  samples : List Reading
  latest : Rows

structure Recorder where
  /-- `registry.point`. -/
  points : Uuid → Option PointState
  /-- Calls of `handle` that wait for Redis. -/
  publishing : List Reading
  /-- Calls of `handle` that Redis has answered, or failed. -/
  recording : List Reading
  /-- `_samples`. -/
  samples : List Reading
  /-- `_latest`. -/
  latest : Rows
  /-- Calls of `flush` that wait for the lock. -/
  waiting : ℕ
  /-- The flush that holds the lock. -/
  writing : Option Batch
  /-- Messages Redis has received, in order. -/
  published : List Reading
  /-- The samples of the successful calls of `write_samples`, in order. -/
  written : List Reading
  /-- The table `point_latest`. -/
  pointLatest : Uuid → Option Reading
  /-- The readings handled up to their record, in order. -/
  recorded : List Reading

namespace Recorder

inductive Event where
  /-- `handle` is called. -/
  | handle (reading : Reading)
  /-- A publication ends. -/
  | publish (position : ℕ) (ok : Bool)
  /-- The rest of `handle`. -/
  | record (position : ℕ)
  /-- `flush` is called by `run`. -/
  | flush
  /-- A flush obtains the lock. -/
  | lock
  /-- `write_samples` returns or raises. -/
  | finish (ok : Bool)

/-- The samples of the batch being written. -/
def inFlight (r : Recorder) : List Reading := (r.writing.map Batch.samples).getD []

/-- The second half of `handle`; a full batch calls `flush`. -/
def record (batchRows : ℕ) (r : Recorder) (reading : Reading) (point : PointState) : Recorder :=
  let selected := shouldStore point reading
  let samples := if selected then r.samples ++ [reading] else r.samples
  let latest := r.latest.insert reading.pointId reading
  { r with
    points := if selected then Function.update r.points reading.pointId (some (point.store reading))
      else r.points
    samples := samples
    latest := latest
    waiting := if batchRows ≤ samples.length ∨ batchRows ≤ latest.entries.length then r.waiting + 1
      else r.waiting
    recorded := r.recorded ++ [reading] }

/-- The last `n` elements: `xs[-n:]`. -/
def takeLast {α : Type} (n : ℕ) (xs : List α) : List α := (xs.reverse.take n).reverse

/-- What a failed flush puts back; a point that has a newer row keeps it. -/
def restore (r : Recorder) (batch : Batch) : Recorder :=
  { r with
    samples := takeLast maxBufferedRows (batch.samples ++ r.samples)
    latest := r.latest ∪ batch.latest }

/-- `write_samples`, where it succeeds. -/
def write (r : Recorder) (batch : Batch) : Recorder :=
  { r with
    written := r.written ++ batch.samples
    pointLatest := fun p ↦ upsertLatest (r.pointLatest p) (batch.latest.lookup p) }

/-- One step, where it is possible. -/
def next (batchRows : ℕ) (r : Recorder) : Event → Option Recorder
  | .handle reading =>
    match r.points reading.pointId with
    | none => some r
    | some _ => some { r with publishing := r.publishing ++ [reading] }
  | .publish i ok =>
    match r.publishing[i]? with
    | none => none
    | some reading => some { r with
        publishing := r.publishing.eraseIdx i
        recording := r.recording ++ [reading]
        published := if ok then r.published ++ [reading] else r.published }
  | .record i =>
    match r.recording[i]? with
    | none => none
    | some reading =>
      match r.points reading.pointId with
      | none => none
      | some point => some (record batchRows { r with recording := r.recording.eraseIdx i } reading
          point)
  | .flush => some { r with waiting := r.waiting + 1 }
  | .lock =>
    match r.writing, r.waiting with
    | none, waiting + 1 =>
      if r.samples = [] ∧ r.latest.entries = [] then some { r with waiting := waiting }
      else some { r with
        waiting := waiting
        writing := some ⟨r.samples, r.latest⟩
        samples := []
        latest := ∅ }
    | _, _ => none
  | .finish ok =>
    match r.writing with
    | none => none
    | some batch =>
      let released := { r with writing := none }
      some (if ok then released.write batch else released.restore batch)

/-- What a step does, with what it finds. -/
inductive Step (batchRows : ℕ) (r : Recorder) : Event → Recorder → Prop
  | unknown {reading : Reading} (hpoint : r.points reading.pointId = none) :
      Step batchRows r (.handle reading) r
  | handle {reading : Reading} {point : PointState}
      (hpoint : r.points reading.pointId = some point) :
      Step batchRows r (.handle reading) { r with publishing := r.publishing ++ [reading] }
  | publish {i : ℕ} {ok : Bool} {reading : Reading} (hreading : r.publishing[i]? = some reading) :
      Step batchRows r (.publish i ok) { r with
        publishing := r.publishing.eraseIdx i
        recording := r.recording ++ [reading]
        published := if ok then r.published ++ [reading] else r.published }
  | record {i : ℕ} {reading : Reading} {point : PointState}
      (hreading : r.recording[i]? = some reading)
      (hpoint : r.points reading.pointId = some point) :
      Step batchRows r (.record i)
        (Recorder.record batchRows { r with recording := r.recording.eraseIdx i } reading point)
  | flush : Step batchRows r .flush { r with waiting := r.waiting + 1 }
  | skip {waiting : ℕ} (hwriting : r.writing = none) (hwaiting : r.waiting = waiting + 1)
      (hempty : r.samples = [] ∧ r.latest.entries = []) :
      Step batchRows r .lock { r with waiting := waiting }
  | take {waiting : ℕ} (hwriting : r.writing = none) (hwaiting : r.waiting = waiting + 1) :
      Step batchRows r .lock { r with
        waiting := waiting
        writing := some ⟨r.samples, r.latest⟩
        samples := []
        latest := ∅ }
  | write {batch : Batch} (hwriting : r.writing = some batch) :
      Step batchRows r (.finish true) ({ r with writing := none }.write batch)
  | restore {batch : Batch} (hwriting : r.writing = some batch) :
      Step batchRows r (.finish false) ({ r with writing := none }.restore batch)

theorem step_of_next {batchRows : ℕ} {r r' : Recorder} {e : Event}
    (h : next batchRows r e = some r') : Step batchRows r e r' := by
  cases e with
  | handle reading =>
    simp only [next] at h
    split at h
    · rename_i hpoint
      exact Option.some.inj h ▸ .unknown hpoint
    · rename_i point hpoint
      exact Option.some.inj h ▸ .handle hpoint
  | publish i ok =>
    simp only [next] at h
    split at h
    · nomatch h
    · rename_i reading hreading
      exact Option.some.inj h ▸ .publish hreading
  | record i =>
    simp only [next] at h
    split at h
    · nomatch h
    · rename_i reading hreading
      split at h
      · nomatch h
      · rename_i point hpoint
        exact Option.some.inj h ▸ .record hreading hpoint
  | flush => exact Option.some.inj h ▸ .flush
  | lock =>
    simp only [next] at h
    split at h
    · rename_i waiting hwriting hwaiting
      split at h
      · rename_i hempty
        exact Option.some.inj h ▸ .skip hwriting hwaiting hempty
      · exact Option.some.inj h ▸ .take hwriting hwaiting
    · nomatch h
  | finish ok =>
    simp only [next] at h
    split at h
    · nomatch h
    · rename_i batch hwriting
      cases ok with
      | true => exact Option.some.inj h ▸ .write hwriting
      | false => exact Option.some.inj h ▸ .restore hwriting

/-- A recorder at start-up, with the table `point_latest` as it is then. -/
def start (points : Uuid → Option PointState) (pointLatest : Uuid → Option Reading) : Recorder where
  points := points
  publishing := []
  recording := []
  samples := []
  latest := ∅
  waiting := 0
  writing := none
  published := []
  written := []
  pointLatest := pointLatest
  recorded := []

/-- A run, its steps meeting `C`. -/
abbrev Run (batchRows : ℕ) (C : Recorder → Event → Prop) :
    Recorder → List Event → Recorder → Prop :=
  Trace.Path (Trace.Stepping (next batchRows) C)

end Recorder

end Superviseur
