import Superviseur.Collector.Conservation

/-!
# The newest reading

The statement that writes `point_latest` compares instants, the buffer in memory does not: the last
reading to arrive takes the place of the one before, and a row put back after a failure gives way to
the one that came in meanwhile. A reading that is newer than what takes its place, before it is
written, never reaches the table. Where that does not happen the table ends on the newest reading of
each point.
-/

namespace Superviseur

namespace Recorder

/-- Every reading recorded was written. -/
def Settled (r : Recorder) : Prop := r.writing = none ∧ r.latest = ∅

/-- The row of each point is a reading of it that was handled, and the newest of them. -/
structure Newest (r : Recorder) : Prop where
  handled : ∀ p, ∀ row ∈ r.pointLatest p, row ∈ r.recorded ∧ row.pointId = p
  newest : ∀ reading ∈ r.recorded, ∃ row ∈ r.pointLatest reading.pointId, reading.ts ≤ row.ts

/-- No row in memory gives way to an older one. -/
def KeepsNewer (r : Recorder) : Event → Prop
  | .record i => ∀ reading ∈ r.recording[i]?, ∀ row ∈ r.latest.lookup reading.pointId,
      row.ts ≤ reading.ts
  | .finish false => ∀ batch ∈ r.writing, ∀ p ∈ batch.latest.keys, ∀ row ∈ batch.latest.lookup p,
      ∀ new ∈ r.latest.lookup p, row.ts ≤ new.ts
  | _ => True

instance (r : Recorder) : (e : Event) → Decidable (KeepsNewer r e)
  | .record i => inferInstanceAs (Decidable (∀ reading ∈ r.recording[i]?, _))
  | .finish false => inferInstanceAs (Decidable (∀ batch ∈ r.writing, _))
  | .finish true | .handle _ | .publish _ _ | .flush | .lock => .isTrue trivial

variable {batchRows : ℕ} {r r₀ r' : Recorder} {e : Event} {p : Uuid} {row : Reading}

/-- The row is in the table, or on its way there. -/
inductive Holds (r : Recorder) (p : Uuid) (row : Reading) : Prop
  | table (h : r.pointLatest p = some row)
  | batch {batch : Batch} (hbatch : r.writing = some batch) (h : batch.latest.lookup p = some row)
  | buffer (h : r.latest.lookup p = some row)

/-- No reading recorded is newer than what the table holds or will be given. -/
structure Tracked (r : Recorder) : Prop where
  handled : ∀ p row, Holds r p row → row ∈ r.recorded ∧ row.pointId = p
  newest : ∀ reading ∈ r.recorded, ∃ row, Holds r reading.pointId row ∧ reading.ts ≤ row.ts

theorem Settled.table (hr : Settled r) (h : Holds r p row) : r.pointLatest p = some row := by
  rcases h with h | ⟨hbatch, -⟩ | h
  · exact h
  · rw [hr.1] at hbatch
    nomatch hbatch
  · rw [hr.2, AList.lookup_empty] at h
    nomatch h

theorem Tracked.of_newest (hr : Settled r) (h : Newest r) : Tracked r where
  handled p row hrow := h.handled p row (hr.table hrow)
  newest reading hreading := by
    obtain ⟨row, hrow, hts⟩ := h.newest reading hreading
    exact ⟨row, .table hrow, hts⟩

theorem Tracked.toNewest (h : Tracked r) (hr : Settled r) : Newest r where
  handled p row hrow := h.handled p row (.table hrow)
  newest reading hreading := by
    obtain ⟨row, hrow, hts⟩ := h.newest reading hreading
    exact ⟨row, hr.table hrow, hts⟩

theorem holds_congr (htable : r'.pointLatest = r.pointLatest) (hwriting : r'.writing = r.writing)
    (hlatest : r'.latest = r.latest) : Holds r' p row ↔ Holds r p row := by
  constructor
  · rintro (h | ⟨hbatch, h⟩ | h)
    · exact .table (htable ▸ h)
    · exact .batch (hwriting ▸ hbatch) h
    · exact .buffer (hlatest ▸ h)
  · rintro (h | ⟨hbatch, h⟩ | h)
    · exact .table (htable ▸ h)
    · exact .batch (hwriting ▸ hbatch) h
    · exact .buffer (hlatest ▸ h)

theorem Tracked.of_same (h : Tracked r) (hrecorded : r'.recorded = r.recorded)
    (hsame : ∀ p row, Holds r' p row ↔ Holds r p row) : Tracked r' where
  handled p row hrow := hrecorded ▸ h.handled p row ((hsame p row).mp hrow)
  newest reading hreading := by
    obtain ⟨row, hrow, hts⟩ := h.newest reading (hrecorded ▸ hreading)
    exact ⟨row, (hsame _ row).mpr hrow, hts⟩

/-- A reading is recorded, and takes the place of a row that is not newer. -/
theorem Tracked.record (h : Tracked r) {reading : Reading} {point : PointState}
    (hnewer : ∀ row ∈ r.latest.lookup reading.pointId, row.ts ≤ reading.ts) :
    Tracked (record batchRows r reading point) where
  handled p row hrow := by
    rcases hrow with hrow | ⟨hbatch, hrow⟩ | hrow
    · obtain ⟨hmem, hp⟩ := h.handled p row (.table hrow)
      exact ⟨List.mem_append_left _ hmem, hp⟩
    · obtain ⟨hmem, hp⟩ := h.handled p row (.batch hbatch hrow)
      exact ⟨List.mem_append_left _ hmem, hp⟩
    · by_cases hp : p = reading.pointId
      · subst hp
        obtain rfl : reading = row := Option.some.inj ((AList.lookup_insert _).symm.trans hrow)
        exact ⟨List.mem_append_right _ (List.mem_singleton_self _), rfl⟩
      · obtain ⟨hmem, hpoint⟩ :=
          h.handled p row (.buffer ((AList.lookup_insert_ne hp).symm.trans hrow))
        exact ⟨List.mem_append_left _ hmem, hpoint⟩
  newest other hother := by
    rcases List.mem_append.mp hother with hother | hother
    · obtain ⟨row, hrow, hts⟩ := h.newest other hother
      rcases hrow with hrow | ⟨hbatch, hrow⟩ | hrow
      · exact ⟨row, .table hrow, hts⟩
      · exact ⟨row, .batch hbatch hrow, hts⟩
      · by_cases hp : other.pointId = reading.pointId
        · rw [hp] at hrow ⊢
          exact ⟨reading, .buffer (AList.lookup_insert _), hts.trans (hnewer row hrow)⟩
        · exact ⟨row, .buffer ((AList.lookup_insert_ne hp).trans hrow), hts⟩
    · obtain rfl := List.mem_singleton.mp hother
      exact ⟨other, .buffer (AList.lookup_insert _), le_rfl⟩

/-- A flush succeeds: a row of its batch is in the table, unless a newer one was. -/
theorem Tracked.write (h : Tracked r) {batch : Batch} (hbatch : r.writing = some batch) :
    Tracked ({ r with writing := none }.write batch) where
  handled p row hrow := by
    rcases hrow with hrow | ⟨hwriting, -⟩ | hrow
    · -- the row was in the table or in the batch
      change upsertLatest (r.pointLatest p) (batch.latest.lookup p) = some row at hrow
      rcases htable : r.pointLatest p with - | old <;>
        rcases hnew : batch.latest.lookup p with - | new
      · rw [htable, hnew] at hrow
        nomatch hrow
      · rw [htable, hnew] at hrow
        exact h.handled p row (.batch hbatch (hnew.trans hrow))
      · rw [htable, hnew] at hrow
        exact h.handled p row (.table (htable.trans hrow))
      · rw [htable, hnew, upsertLatest] at hrow
        split at hrow
        · exact h.handled p row (.batch hbatch (hnew.trans hrow))
        · exact h.handled p row (.table (htable.trans hrow))
    · nomatch hwriting
    · exact h.handled p row (.buffer hrow)
  newest reading hreading := by
    obtain ⟨row, hrow, hts⟩ := h.newest reading hreading
    have htable : ∀ {old}, upsertLatest (r.pointLatest reading.pointId)
        (batch.latest.lookup reading.pointId) = some old → row.ts ≤ old.ts →
        ∃ row, Holds ({ r with writing := none }.write batch) reading.pointId row ∧
          reading.ts ≤ row.ts := fun hold hle ↦ ⟨_, .table hold, hts.trans hle⟩
    rcases hrow with hrow | ⟨hwriting, hrow⟩ | hrow
    · rcases hnew : batch.latest.lookup reading.pointId with - | new
      · exact htable (by rw [hrow, hnew]; rfl) le_rfl
      · by_cases hle : row.ts ≤ new.ts
        · exact htable (by rw [hrow, hnew, upsertLatest, if_pos hle]) hle
        · exact htable (by rw [hrow, hnew, upsertLatest, if_neg hle]) le_rfl
    · obtain rfl := Option.some.inj (hbatch.symm.trans hwriting)
      rcases hold : r.pointLatest reading.pointId with - | old
      · exact htable (by rw [hold, hrow, upsertLatest]) le_rfl
      · by_cases hle : old.ts ≤ row.ts
        · exact htable (by rw [hold, hrow, upsertLatest, if_pos hle]) le_rfl
        · exact htable (by rw [hold, hrow, upsertLatest, if_neg hle]) (le_of_not_ge hle)
    · exact ⟨row, .buffer hrow, hts⟩

/-- A flush fails: the rows of its batch are put back, and give way to none that is older. -/
theorem Tracked.restore (h : Tracked r) {batch : Batch} (hbatch : r.writing = some batch)
    (hnewer : ∀ p ∈ batch.latest.keys, ∀ row ∈ batch.latest.lookup p,
      ∀ new ∈ r.latest.lookup p, row.ts ≤ new.ts) :
    Tracked ({ r with writing := none }.restore batch) where
  handled p row hrow := by
    rcases hrow with hrow | ⟨hwriting, -⟩ | hrow
    · exact h.handled p row (.table hrow)
    · nomatch hwriting
    · rcases AList.mem_lookup_union.mp hrow with hrow | ⟨-, hrow⟩
      · exact h.handled p row (.buffer hrow)
      · exact h.handled p row (.batch hbatch hrow)
  newest reading hreading := by
    obtain ⟨row, hrow, hts⟩ := h.newest reading hreading
    rcases hrow with hrow | ⟨hwriting, hrow⟩ | hrow
    · exact ⟨row, .table hrow, hts⟩
    · obtain rfl := Option.some.inj (hbatch.symm.trans hwriting)
      by_cases hnew : reading.pointId ∈ r.latest
      · obtain ⟨new, hnew⟩ := Option.isSome_iff_exists.mp (AList.lookup_isSome.mpr hnew)
        have hkey : reading.pointId ∈ batch.latest.keys :=
          AList.lookup_isSome.mp (Option.isSome_iff_exists.mpr ⟨row, hrow⟩)
        exact ⟨new, .buffer (AList.mem_lookup_union.mpr (.inl hnew)),
          hts.trans (hnewer _ hkey row hrow new hnew)⟩
      · exact ⟨row, .buffer (AList.mem_lookup_union.mpr (.inr ⟨hnew, hrow⟩)), hts⟩
    · exact ⟨row, .buffer (AList.mem_lookup_union.mpr (.inl hrow)), hts⟩

/-- **Step lemma.** -/
theorem Tracked.next (h : Tracked r) (hnewer : KeepsNewer r e)
    (hnext : next batchRows r e = some r') : Tracked r' := by
  cases step_of_next hnext with
  | unknown => exact h
  | handle | publish | flush | skip => exact h.of_same rfl fun p row ↦ holds_congr rfl rfl rfl
  | @record i _ _ hreading =>
    have hwaiting : Tracked { r with recording := r.recording.eraseIdx i } :=
      h.of_same rfl fun p row ↦ holds_congr rfl rfl rfl
    exact hwaiting.record (hnewer _ hreading)
  | take hwriting =>
    -- the rows of the buffer are those of the batch, and there was no batch
    refine h.of_same rfl fun p row ↦ ⟨fun hrow ↦ ?_, fun hrow ↦ ?_⟩
    · rcases hrow with hrow | ⟨hbatch, hrow⟩ | hrow
      · exact .table hrow
      · obtain rfl := Option.some.inj hbatch
        exact .buffer hrow
      · simp at hrow
    · rcases hrow with hrow | ⟨hbatch, -⟩ | hrow
      · exact .table hrow
      · rw [hwriting] at hbatch
        simp at hbatch
      · exact .batch rfl hrow
  | write hwriting => exact h.write hwriting
  | restore hwriting => exact h.restore hwriting (hnewer _ hwriting)

/-- **The newest reading.** In a run where no row in memory gives way to an older one, once
everything is written, the table holds the newest reading of each point. -/
theorem latest_is_newest {es : List Event} (h0 : Settled r₀) (hn : Newest r₀)
    (hrun : Run batchRows KeepsNewer r₀ es r) (hs : Settled r) : Newest r :=
  (hrun.invariant Tracked (fun h hstep ↦ h.next hstep.1 hstep.2) (.of_newest h0 hn)).toNewest hs

theorem settled_start (points : Uuid → Option PointState) : Settled (start points fun _ ↦ none) :=
  ⟨rfl, rfl⟩

theorem newest_start (points : Uuid → Option PointState) : Newest (start points fun _ ↦ none) where
  handled p row hrow := by nomatch hrow
  newest reading hreading := by nomatch hreading

/-! ## Arrivals out of order -/

/-- A reading older than what the table holds arrives last: the table does not go back. -/
def lateAfterFlush : List Event :=
  handled 1 2 ++ [.flush, .lock, .finish true] ++ handled 1 1 ++ [.flush, .lock, .finish true]

theorem latest_is_newest_lateAfterFlush :
    ∃ r, Run 500 KeepsNewer (start twoPoints fun _ ↦ none) lateAfterFlush r ∧ Settled r ∧
      r.pointLatest 1 = some (readingAt 1 2) ∧ Newest r := by
  have hend : ((Trace.exec (fun r e ↦ if KeepsNewer r e then next 500 r e else none)
      (start twoPoints fun _ ↦ none) lateAfterFlush).map fun r ↦
        (r.writing.isNone, r.latest.entries, r.pointLatest 1)) =
      some (true, [], some (readingAt 1 2)) := by decide +kernel
  obtain ⟨r, hr, hend⟩ := Option.map_eq_some_iff.mp hend
  have hrun : Run 500 KeepsNewer (start twoPoints fun _ ↦ none) lateAfterFlush r :=
    .of_exec_checked hr
  rw [Prod.mk.injEq, Prod.mk.injEq] at hend
  obtain ⟨hwriting, hlatest, htable⟩ := hend
  have hsettled : Settled r := ⟨Option.isNone_iff_eq_none.mp hwriting, AList.ext hlatest⟩
  exact ⟨r, hrun, hsettled, htable,
    latest_is_newest (settled_start _) (newest_start _) hrun hsettled⟩

/-- Two readings of a point recorded before the flush, the newer one first. -/
def lateInBuffer : List Event := handled 1 2 ++ handled 1 1 ++ [.flush, .lock, .finish true]

theorem latest_not_newest :
    ¬ ∀ (points : Uuid → Option PointState) (es : List Event) (r : Recorder),
      Run 500 (fun _ _ ↦ True) (start points fun _ ↦ none) es r → Settled r → Newest r := by
  intro hallNewest
  have hend : ((Trace.exec (next 500) (start twoPoints fun _ ↦ none) lateInBuffer).map fun r ↦
      (r.writing.isNone, r.latest.entries, r.recorded, r.pointLatest 1)) =
      some (true, [], [readingAt 1 2, readingAt 1 1], some (readingAt 1 1)) := by decide +kernel
  obtain ⟨r, hr, hend⟩ := Option.map_eq_some_iff.mp hend
  simp only [Prod.mk.injEq] at hend
  obtain ⟨hwriting, hlatest, hrecorded, htable⟩ := hend
  have hrun : Run 500 (fun _ _ ↦ True) (start twoPoints fun _ ↦ none) lateInBuffer r :=
    .of_exec (fun _ _ _ ↦ trivial) hr
  have hnewest := hallNewest twoPoints lateInBuffer r hrun
    ⟨Option.isNone_iff_eq_none.mp hwriting, AList.ext hlatest⟩
  have hmem : readingAt 1 2 ∈ r.recorded := by
    rw [hrecorded]
    exact List.mem_cons_self
  obtain ⟨row, hrow, hts⟩ := hnewest.newest _ hmem
  obtain rfl : readingAt 1 1 = row := Option.some.inj (htable.symm.trans hrow)
  exact absurd hts (by decide)

end Recorder

end Superviseur
