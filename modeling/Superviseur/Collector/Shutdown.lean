import Superviseur.Collector.Conservation

/-!
# A flush that is cancelled

At shutdown the tasks of the collector are cancelled, then the recorder is flushed once more. A task
is cancelled where it waits: for Redis, for the lock of a flush, or for the database. `flush` puts
its batch back when `write_samples` raises, but a cancellation is not among the exceptions it
catches: the batch is given up with the transaction. What was taken out of the buffers is written,
or back in them, exactly where no flush is cancelled during its write, and none fails beyond the
limit of the buffer (`kept_iff`).

Poll tasks are cancelled in the same way, at any time, when their device leaves the registry.
-/

namespace Superviseur

/-- A recorder whose tasks may be cancelled, with the rows of `point_latest` that the successful
flushes have written. -/
structure Shutdown where
  recorder : Recorder
  writes : List Rows

namespace Shutdown

inductive Event where
  | run (e : Recorder.Event)
  /-- The task that waits for `write_samples` is cancelled, and the transaction rolled back. -/
  | cancelWrite
  /-- A task that waits for the lock of a flush is cancelled. -/
  | cancelWait
  /-- A task that waits for Redis is cancelled. -/
  | cancelPublish (position : ℕ)
  /-- It is cancelled once Redis has answered. -/
  | cancelRecord (position : ℕ)

/-- The writes, after a step of the recorder. -/
def writesAfter (s : Shutdown) : Recorder.Event → List Rows
  | .finish true => s.writes ++ (s.recorder.writing.map Batch.latest).toList
  | _ => s.writes

/-- One step, where it is possible. -/
def next (batchRows : ℕ) (s : Shutdown) : Event → Option Shutdown
  | .run e => (s.recorder.next batchRows e).map fun recorder ↦ ⟨recorder, s.writesAfter e⟩
  | .cancelWrite =>
    match s.recorder.writing with
    | none => none
    | some _ => some { s with recorder := { s.recorder with writing := none } }
  | .cancelWait =>
    match s.recorder.waiting with
    | 0 => none
    | waiting + 1 => some { s with recorder := { s.recorder with waiting := waiting } }
  | .cancelPublish i =>
    some { s with recorder := { s.recorder with publishing := s.recorder.publishing.eraseIdx i } }
  | .cancelRecord i =>
    some { s with recorder := { s.recorder with recording := s.recorder.recording.eraseIdx i } }

/-- A step that is not possible does nothing. -/
def step (batchRows : ℕ) (s : Shutdown) (e : Event) : Shutdown := (s.next batchRows e).getD s

/-- The recorder at start-up. -/
def start (points : Uuid → Option PointState) (pointLatest : Uuid → Option Reading) : Shutdown :=
  ⟨.start points pointLatest, []⟩

/-- The last flush of the shutdown, which succeeds. -/
def finalFlush (batchRows : ℕ) (s : Shutdown) : Shutdown :=
  [.run .flush, .run .lock, .run (.finish true)].foldl (step batchRows) s

/-- The row was written. -/
def Written (s : Shutdown) (p : Uuid) (row : Reading) : Prop :=
  ∃ rows ∈ s.writes, rows.lookup p = some row

/-- The row of a point is being written. -/
def Writing (s : Shutdown) (p : Uuid) (row : Reading) : Prop :=
  ∃ batch ∈ s.recorder.writing, batch.latest.lookup p = some row

/-- Every sample selected, and the last reading of every point, are written. -/
structure AllWritten (points : Uuid → Option PointState) (s : Shutdown) : Prop where
  samples : s.recorder.written = selection points s.recorder.recorded
  latest : ∀ p, ∀ row ∈ lastOf p s.recorder.recorded, s.Written p row

/-- Every sample selected, and the last reading of every point, are written, being written, or in
the buffers, so that a flush that succeeds leaves nothing unwritten. -/
structure Kept (batchRows : ℕ) (points : Uuid → Option PointState) (s : Shutdown) : Prop where
  samples : s.recorder.written ++ s.recorder.inFlight ++ s.recorder.samples
    = selection points s.recorder.recorded
  latest : ∀ p, ∀ row ∈ lastOf p s.recorder.recorded,
    s.Written p row ∨ s.Writing p row ∨ s.recorder.latest.lookup p = some row
  final : s.recorder.writing = none → AllWritten points (s.finalFlush batchRows)

/-- No flush that is being written gives anything up: it does not fail beyond the limit of the
buffer, and it is not cancelled, unless it carries no sample and only rows that have given way to
newer ones or were written before. -/
def Harmless (s : Shutdown) : Event → Prop
  | .run (.finish false) => ∀ batch ∈ s.recorder.writing,
      batch.samples.length + s.recorder.samples.length ≤ maxBufferedRows
  | .cancelWrite => ∀ batch ∈ s.recorder.writing, batch.samples = [] ∧
      ∀ p, ∀ row ∈ batch.latest.lookup p, p ∈ s.recorder.latest ∨ s.Written p row
  | _ => True

/-- What the steps keep. -/
structure Held (points : Uuid → Option PointState) (s : Shutdown) : Prop where
  conserved : s.recorder.Conserved points
  latest : ∀ p, ∀ row ∈ lastOf p s.recorder.recorded,
    s.Written p row ∨ s.Writing p row ∨ s.recorder.latest.lookup p = some row
  /-- The buffer holds the last reading of the points it has a row of. -/
  buffer : ∀ p, ∀ row ∈ s.recorder.latest.lookup p, lastOf p s.recorder.recorded = some row
  /-- The batch holds it for those it has a row of, and the buffer has none. -/
  batch : ∀ batch ∈ s.recorder.writing, ∀ p, ∀ row ∈ batch.latest.lookup p,
    p ∉ s.recorder.latest → lastOf p s.recorder.recorded = some row

variable {batchRows : ℕ} {points : Uuid → Option PointState} {s : Shutdown} {r' : Recorder}

theorem held_start (points : Uuid → Option PointState) (table : Uuid → Option Reading) :
    Held points (start points table) where
  conserved := Recorder.conserved_start points table
  latest _ _ h := absurd h (Option.not_mem_none _)
  buffer _ row h := absurd h (Option.not_mem_none row)
  batch _ h := absurd h (Option.not_mem_none _)

/-! ## Steps of the recorder -/

theorem Held.of_same (h : Held points s) (hconserved : r'.Conserved points)
    (hrecorded : r'.recorded = s.recorder.recorded) (hlatest : r'.latest = s.recorder.latest)
    (hwriting : r'.writing = s.recorder.writing) : Held points ⟨r', s.writes⟩ where
  conserved := hconserved
  latest p row hrow := by
    rw [Writing, hwriting, hlatest]
    exact h.latest p row (hrecorded ▸ hrow)
  buffer p row hrow := by
    rw [hrecorded]
    exact h.buffer p row (hlatest ▸ hrow)
  batch batch hbatch p row hrow hp := by
    rw [hrecorded]
    exact h.batch batch (hwriting ▸ hbatch) p row hrow (hlatest ▸ hp)

theorem Held.record (h : Held points s) (reading : Reading) (point : PointState)
    (hconserved : (s.recorder.record batchRows reading point).Conserved points) :
    Held points ⟨s.recorder.record batchRows reading point, s.writes⟩ where
  conserved := hconserved
  latest p row hrow := by
    by_cases hp : reading.pointId = p
    · subst hp
      obtain rfl : reading = row := Option.some.inj (lastOf_append_self.symm.trans hrow)
      exact .inr (.inr (AList.lookup_insert _))
    · have hlast : lastOf p s.recorder.recorded = some row :=
        (lastOf_append_of_ne hp).symm.trans hrow
      have hlookup : (s.recorder.latest.insert reading.pointId reading).lookup p
          = s.recorder.latest.lookup p := AList.lookup_insert_ne (Ne.symm hp)
      exact (h.latest p row hlast).imp_right (Or.imp_right fun hbuffer ↦ hlookup.trans hbuffer)
  buffer p row hrow := by
    by_cases hp : reading.pointId = p
    · subst hp
      obtain rfl : reading = row := Option.some.inj ((AList.lookup_insert _).symm.trans hrow)
      exact lastOf_append_self
    · have hlookup : (s.recorder.latest.insert reading.pointId reading).lookup p
          = s.recorder.latest.lookup p := AList.lookup_insert_ne (Ne.symm hp)
      exact (lastOf_append_of_ne hp).trans (h.buffer p row (hlookup.symm.trans hrow))
  batch batch hbatch p row hrow hp := by
    have hmem : ¬ (p = reading.pointId ∨ p ∈ s.recorder.latest) := fun hor ↦
      hp ((AList.mem_insert _).mpr hor)
    rw [not_or] at hmem
    exact (lastOf_append_of_ne (Ne.symm hmem.1)).trans (h.batch batch hbatch p row hrow hmem.2)

theorem Held.take (h : Held points s) (hwriting : s.recorder.writing = none) {waiting : ℕ}
    (hconserved : ({ s.recorder with
      waiting := waiting
      writing := some ⟨s.recorder.samples, s.recorder.latest⟩
      samples := []
      latest := ∅ } : Recorder).Conserved points) :
    Held points ⟨{ s.recorder with
      waiting := waiting
      writing := some ⟨s.recorder.samples, s.recorder.latest⟩
      samples := []
      latest := ∅ }, s.writes⟩ where
  conserved := hconserved
  latest p row hrow := by
    rcases h.latest p row hrow with hwritten | ⟨batch, hbatch, -⟩ | hbuffer
    · exact .inl hwritten
    · rw [hwriting] at hbatch
      exact absurd hbatch (Option.not_mem_none _)
    · exact .inr (.inl ⟨_, rfl, hbuffer⟩)
  buffer p row hrow := absurd hrow (Option.not_mem_none row)
  batch batch hbatch p row hrow _ := by
    obtain rfl := Option.some.inj hbatch
    exact h.buffer p row hrow

theorem Held.write (h : Held points s) {batch : Batch} (hwriting : s.recorder.writing = some batch)
    (hconserved : ({ s.recorder with writing := none }.write batch).Conserved points) :
    Held points ⟨{ s.recorder with writing := none }.write batch, s.writes ++ [batch.latest]⟩ where
  conserved := hconserved
  latest p row hrow := by
    rcases h.latest p row hrow with ⟨rows, hrows, hlookup⟩ | ⟨batch', hbatch', hlookup⟩ | hbuffer
    · exact .inl ⟨rows, List.mem_append_left _ hrows, hlookup⟩
    · obtain rfl := Option.some.inj (hwriting.symm.trans hbatch')
      exact .inl ⟨_, List.mem_append_right _ List.mem_cons_self, hlookup⟩
    · exact .inr (.inr hbuffer)
  buffer := h.buffer
  batch batch' hbatch' := absurd hbatch' (Option.not_mem_none _)

theorem Held.restore (h : Held points s) {batch : Batch}
    (hwriting : s.recorder.writing = some batch)
    (hconserved : ({ s.recorder with writing := none }.restore batch).Conserved points) :
    Held points ⟨{ s.recorder with writing := none }.restore batch, s.writes⟩ where
  conserved := hconserved
  latest p row hrow := by
    rcases h.latest p row hrow with hwritten | ⟨batch', hbatch', hlookup⟩ | hbuffer
    · exact .inl hwritten
    · obtain rfl := Option.some.inj (hwriting.symm.trans hbatch')
      refine .inr (.inr (AList.mem_lookup_union.mpr ?_))
      by_cases hp : p ∈ s.recorder.latest
      · -- the row of the buffer is the last reading too
        obtain ⟨new, hnew⟩ := Option.isSome_iff_exists.mp (AList.lookup_isSome.mpr hp)
        obtain rfl : new = row := Option.some.inj ((h.buffer p new hnew).symm.trans hrow)
        exact .inl hnew
      · exact .inr ⟨hp, hlookup⟩
    · exact .inr (.inr (AList.mem_lookup_union.mpr (.inl hbuffer)))
  buffer p row hrow := by
    rcases AList.mem_lookup_union.mp hrow with hbuffer | ⟨hp, hlookup⟩
    · exact h.buffer p row hbuffer
    · exact h.batch batch hwriting p row hlookup hp
  batch batch' hbatch' := absurd hbatch' (Option.not_mem_none _)

/-- **Step lemma**, for the steps of the recorder. -/
theorem Held.run (h : Held points s) {e : Recorder.Event} (hharmless : Harmless s (.run e))
    (hnext : s.recorder.next batchRows e = some r') : Held points ⟨r', s.writesAfter e⟩ := by
  have hconserved : r'.Conserved points := by
    refine h.conserved.next (fun heq ↦ ?_) hnext
    subst heq
    cases Recorder.step_of_next hnext with
    | restore hwriting =>
      rw [Recorder.WithinLimit, Recorder.inFlight_of_writing hwriting]
      exact hharmless _ hwriting
  cases Recorder.step_of_next hnext with
  | unknown | handle | publish | flush | skip => exact h.of_same hconserved rfl rfl rfl
  | @record i reading point =>
    have herased : Held points
        ⟨{ s.recorder with recording := s.recorder.recording.eraseIdx i }, s.writes⟩ :=
      h.of_same ⟨h.conserved.samples, h.conserved.baseline⟩ rfl rfl rfl
    exact herased.record reading point hconserved
  | take hwriting => exact h.take hwriting hconserved
  | write hwriting =>
    rw [writesAfter, hwriting]
    exact h.write hwriting hconserved
  | restore hwriting => exact h.restore hwriting hconserved

theorem Held.cancelWrite (h : Held points s) {batch : Batch}
    (hwriting : s.recorder.writing = some batch) (hharmless : Harmless s .cancelWrite) :
    Held points { s with recorder := { s.recorder with writing := none } } := by
  obtain ⟨hsamples, hrows⟩ := hharmless batch hwriting
  have hflight := Recorder.inFlight_of_writing hwriting
  rw [hsamples] at hflight
  refine ⟨⟨?_, h.conserved.baseline⟩, fun p row hrow ↦ ?_, h.buffer,
    fun _ h ↦ absurd h (Option.not_mem_none _)⟩
  · rw [← h.conserved.samples, hflight]
    rfl
  · rcases h.latest p row hrow with hwritten | ⟨batch', hbatch', hlookup⟩ | hbuffer
    · exact .inl hwritten
    · obtain rfl := Option.some.inj (hwriting.symm.trans hbatch')
      rcases hrows p row hlookup with hp | hwritten
      · -- the row has given way to one of the buffer, which is the last reading
        obtain ⟨new, hnew⟩ := Option.isSome_iff_exists.mp (AList.lookup_isSome.mpr hp)
        obtain rfl : new = row := Option.some.inj ((h.buffer p new hnew).symm.trans hrow)
        exact .inr (.inr hnew)
      · exact .inl hwritten
    · exact .inr (.inr hbuffer)

/-- **Step lemma.** -/
theorem Held.step (h : Held points s) {e : Event} (hharmless : Harmless s e) :
    Held points (s.step batchRows e) := by
  rw [Shutdown.step]
  rcases hnext : s.next batchRows e with _ | t
  · exact h
  rw [Option.getD_some]
  cases e with
  | run e =>
    obtain ⟨r', hr', rfl⟩ := Option.map_eq_some_iff.mp hnext
    exact h.run hharmless hr'
  | cancelWrite =>
    rcases hwriting : s.recorder.writing with _ | batch
    · rw [next, hwriting] at hnext
      exact absurd hnext (Option.some_ne_none _).symm
    · rw [next, hwriting] at hnext
      obtain rfl := Option.some.inj hnext
      exact h.cancelWrite hwriting hharmless
  | cancelWait =>
    rcases hwaiting : s.recorder.waiting with _ | waiting
    · rw [next, hwaiting] at hnext
      exact absurd hnext (Option.some_ne_none _).symm
    · rw [next, hwaiting] at hnext
      obtain rfl := Option.some.inj hnext
      exact h.of_same ⟨h.conserved.samples, h.conserved.baseline⟩ rfl rfl rfl
  | cancelPublish i =>
    obtain rfl := Option.some.inj hnext
    exact h.of_same ⟨h.conserved.samples, h.conserved.baseline⟩ rfl rfl rfl
  | cancelRecord i =>
    obtain rfl := Option.some.inj hnext
    exact h.of_same ⟨h.conserved.samples, h.conserved.baseline⟩ rfl rfl rfl

/-! ## The last flush -/

/-- The last flush finds the buffers empty, or takes them and writes them. -/
theorem finalFlush_eq (hwriting : s.recorder.writing = none) : s.finalFlush batchRows =
    if s.recorder.samples = [] ∧ s.recorder.latest.entries = [] then s
    else
      { recorder := { s.recorder with samples := [], latest := ∅ }.write
          ⟨s.recorder.samples, s.recorder.latest⟩
        writes := s.writes ++ [s.recorder.latest] } := by
  obtain ⟨⟨points', publishing, recording, samples, latest, waiting, writing, published, written,
    table, recorded⟩, writes⟩ := s
  obtain rfl : writing = none := hwriting
  by_cases hempty : samples = [] ∧ latest.entries = []
  · simp [finalFlush, step, next, Recorder.next, hempty, writesAfter]
  · simp [finalFlush, step, next, Recorder.next, hempty, writesAfter, Recorder.write]

/-- When nothing is being written, a flush that succeeds empties the buffers. -/
theorem finalFlush_empty (batchRows : ℕ) (hwriting : s.recorder.writing = none) :
    (s.finalFlush batchRows).recorder.samples = [] ∧
    (s.finalFlush batchRows).recorder.latest = ∅ ∧
    (s.finalFlush batchRows).recorder.writing = none := by
  rw [finalFlush_eq hwriting]
  split
  · rename_i hempty
    exact ⟨hempty.1, AList.ext hempty.2, hwriting⟩
  · exact ⟨rfl, rfl, hwriting⟩

/-- What is held is kept, and the last flush leaves nothing unwritten. -/
theorem Held.kept (h : Held points s) : Kept batchRows points s := by
  refine ⟨h.conserved.samples, h.latest, fun hwriting ↦ ?_⟩
  obtain ⟨hsamples, hlatest, hnone⟩ := finalFlush_empty batchRows hwriting
  have hfinal : Held points (s.finalFlush batchRows) :=
    ((h.step (e := .run .flush) trivial).step (e := .run .lock) trivial).step
      (e := .run (.finish true)) trivial
  have hconserved := hfinal.conserved.samples
  refine ⟨?_, fun p row hrow ↦ ?_⟩
  · rw [← hconserved, hsamples, Recorder.inFlight, hnone]
    simp
  · rcases hfinal.latest p row hrow with hwritten | ⟨batch, hbatch, -⟩ | hbuffer
    · exact hwritten
    · rw [hnone] at hbatch
      exact absurd hbatch (Option.not_mem_none _)
    · rw [hlatest] at hbuffer
      exact absurd hbuffer (Option.not_mem_none row)

/-! ## The main result -/

theorem Held.length_samples (h : Held points s) {batch : Batch}
    (hwriting : s.recorder.writing = some batch) :
    (selection points s.recorder.recorded).length
      = s.recorder.written.length + batch.samples.length + s.recorder.samples.length := by
  rw [← h.conserved.samples, Recorder.inFlight_of_writing hwriting, List.length_append,
    List.length_append]

theorem Held.not_kept_restore (h : Held points s) {batch : Batch}
    (hwriting : s.recorder.writing = some batch)
    (hlimit : maxBufferedRows < batch.samples.length + s.recorder.samples.length) :
    ¬ Kept batchRows points
      { s with recorder := { s.recorder with writing := none }.restore batch } := by
  intro hkept
  have hlength := congrArg List.length hkept.samples
  have htake : (Recorder.takeLast maxBufferedRows
      (batch.samples ++ s.recorder.samples)).length ≤ maxBufferedRows := by
    rw [Recorder.takeLast, List.length_reverse]
    exact List.length_take_le _ _
  have htotal := h.length_samples hwriting
  change (s.recorder.written ++ [] ++ Recorder.takeLast maxBufferedRows
    (batch.samples ++ s.recorder.samples)).length
      = (selection points s.recorder.recorded).length at hlength
  rw [List.append_nil, List.length_append, htotal] at hlength
  omega

/-- A flush that is cancelled gives up its samples, and the rows that are the last ones. -/
theorem Held.not_kept_cancel (h : Held points s) {batch : Batch}
    (hwriting : s.recorder.writing = some batch)
    (hgiven : ¬ (batch.samples = [] ∧
      ∀ p, ∀ row ∈ batch.latest.lookup p, p ∈ s.recorder.latest ∨ s.Written p row)) :
    ¬ Kept batchRows points { s with recorder := { s.recorder with writing := none } } := by
  intro hkept
  have hlength := congrArg List.length hkept.samples
  have htotal := h.length_samples hwriting
  change (s.recorder.written ++ [] ++ s.recorder.samples).length
    = (selection points s.recorder.recorded).length at hlength
  rw [List.append_nil, List.length_append, htotal] at hlength
  have hsamples : batch.samples = [] := List.length_eq_zero_iff.mp (by omega)
  simp only [hsamples, true_and, not_forall, not_or] at hgiven
  obtain ⟨p, row, hrow, hbuffer, hwritten⟩ := hgiven
  have hlast := h.batch batch hwriting p row hrow hbuffer
  rcases hkept.latest p row hlast with hwritten' | ⟨batch', hbatch', -⟩ | hbuffer'
  · exact hwritten hwritten'
  · exact absurd hbatch' (Option.not_mem_none _)
  · exact hbuffer (AList.lookup_isSome.mp (Option.isSome_of_mem hbuffer'))

theorem Held.not_kept_step (h : Held points s) {e : Event} (hharmless : ¬ Harmless s e) :
    ¬ Kept batchRows points (s.step batchRows e) := by
  cases e with
  | run e =>
    cases e with
    | finish ok =>
      cases ok with
      | true => exact absurd trivial hharmless
      | false =>
        simp only [Harmless, not_forall, not_le] at hharmless
        obtain ⟨batch, hwriting, hlimit⟩ := hharmless
        have hstep : s.step batchRows (.run (.finish false))
            = ⟨{ s.recorder with writing := none }.restore batch, s.writes⟩ := by
          rw [Shutdown.step, next, Recorder.next, Option.mem_def.mp hwriting]
          rfl
        rw [hstep]
        exact h.not_kept_restore hwriting hlimit
    | _ => exact absurd trivial hharmless
  | cancelWrite =>
    simp only [Harmless, not_forall] at hharmless
    obtain ⟨batch, hwriting, hgiven⟩ := hharmless
    have hstep : s.step batchRows .cancelWrite
        = { s with recorder := { s.recorder with writing := none } } := by
      rw [Shutdown.step, next, Option.mem_def.mp hwriting]
      rfl
    rw [hstep]
    exact h.not_kept_cancel hwriting hgiven
  | _ => exact absurd trivial hharmless

/-- **No row is dropped** in a run exactly where no flush gives up its batch: neither by a
cancellation during its write, nor by a failure beyond the limit of the buffer. -/
theorem kept_iff (batchRows : ℕ) (points : Uuid → Option PointState)
    (table : Uuid → Option Reading) (events : List Event) :
    (∀ past, past <+: events →
        Kept batchRows points (past.foldl (step batchRows) (start points table))) ↔
      ∀ past e, past ++ [e] <+: events →
        Harmless (past.foldl (step batchRows) (start points table)) e :=
  Trace.forall_prefix_iff (I := Held points) (P := Kept batchRows points) (C := Harmless)
    Held.kept (fun h hharmless ↦ h.step hharmless) (fun h hharmless ↦ h.not_kept_step hharmless)
    (held_start points table) events

/-- A reading is recorded, and the flush that writes it is cancelled. -/
def cancelledFlush : List Event :=
  (Recorder.handled 1 1).map .run ++ [.run .flush, .run .lock, .cancelWrite]

theorem not_kept : ¬ ∀ (batchRows : ℕ) (points : Uuid → Option PointState)
    (table : Uuid → Option Reading) (events : List Event),
    Kept batchRows points (events.foldl (step batchRows) (start points table)) := by
  intro h
  have hsamples := (h 500 Recorder.twoPoints (fun _ ↦ none) cancelledFlush).samples
  exact absurd hsamples (by decide +kernel)

end Shutdown

end Superviseur
