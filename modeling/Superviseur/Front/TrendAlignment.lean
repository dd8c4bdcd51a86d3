import Superviseur.Front.TrendSeries
import Mathlib.Data.List.Dedup

/-!
# Several curves on the same instants

`alignSeries` merges the instants of several series, and gives each of them a column over the merged
instants. A column is filled by a cursor that goes through the series once, forward: the instants
before the cursor are all behind, and the instants from the cursor on are still to come
(`columnFrom_eq`). So a column holds what the series is as a partial function of the instants.
-/

namespace Superviseur.Trend

variable {V : Type}

/-- `Aligned`. -/
structure Aligned (V : Type) where
  times : List ℚ
  columns : List (List (Option V))

/-- The loop of a column, from an instant on. -/
def columnFrom (s : SeriesData V) : List ℚ → ℕ → List (Option V)
  | [], _ => []
  | time :: times, cursor =>
    if s.t[cursor]? = some time then s.v[cursor]?.join :: columnFrom s times (cursor + 1)
    else none :: columnFrom s times cursor

/-- `alignSeries`. -/
def alignSeries (series : List (SeriesData V)) : Aligned V :=
  let times := (series.flatMap (·.t)).dedup.mergeSort fun a b ↦ decide (a ≤ b)
  { times := times, columns := series.map fun s ↦ columnFrom s times 0 }

/-- The value of a series at an instant; none where it has no such instant. -/
def SeriesData.valueAt (s : SeriesData V) (time : ℚ) : Option V :=
  if time ∈ s.t then s.v[s.t.idxOf time]?.join else none

/-- What the alignment of series is. -/
structure Aligns (series : List (SeriesData V)) (aligned : Aligned V) : Prop where
  increasing : aligned.times.Pairwise (· < ·)
  mem_iff : ∀ time, time ∈ aligned.times ↔ ∃ s ∈ series, time ∈ s.t
  /-- One column for each series, with one item for each instant. -/
  length_eq : aligned.columns.length = series.length
  length_column : ∀ column ∈ aligned.columns, column.length = aligned.times.length
  /-- What a series has at one of its instants, and no value elsewhere. -/
  value : ∀ (k i : ℕ) (s : SeriesData V) column time, series[k]? = some s →
    aligned.columns[k]? = some column → aligned.times[i]? = some time →
      (∀ j : ℕ, s.t[j]? = some time → column[i]? = some s.v[j]?.join) ∧
        (time ∉ s.t → column[i]? = some none)
  /-- Every instant of a series is there once. -/
  once : ∀ s ∈ series, ∀ (j : ℕ) time, s.t[j]? = some time → ∃! i : ℕ, aligned.times[i]? = some time

variable {s : SeriesData V} {series : List (SeriesData V)} {times : List ℚ} {time : ℚ}
  {cursor j : ℕ}

/-! ## A series as a partial function -/

theorem valueAt_of_not_mem (h : time ∉ s.t) : s.valueAt time = none := if_neg h

theorem valueAt_of_getElem? (hnodup : s.t.Nodup) (h : s.t[j]? = some time) :
    s.valueAt time = s.v[j]?.join := by
  obtain ⟨hj, rfl⟩ := List.getElem?_eq_some_iff.mp h
  rw [SeriesData.valueAt, if_pos (List.getElem_mem hj), hnodup.idxOf_getElem j hj]

/-! ## The cursor -/

/-- The cursor of an increasing series: what is behind it, and what is to come. -/
structure Cursor (s : SeriesData V) (times : List ℚ) (cursor : ℕ) : Prop where
  behind : ∀ j < cursor, ∀ u ∈ s.t[j]?, ∀ time ∈ times, u < time
  ahead : ∀ j ≥ cursor, ∀ u ∈ s.t[j]?, u ∈ times

theorem lt_of_getElem? (hs : s.t.Pairwise (· < ·)) {i j : ℕ} {a b : ℚ} (hij : i < j)
    (ha : s.t[i]? = some a) (hb : s.t[j]? = some b) : a < b := by
  obtain ⟨hi, rfl⟩ := List.getElem?_eq_some_iff.mp ha
  obtain ⟨hj, rfl⟩ := List.getElem?_eq_some_iff.mp hb
  exact List.pairwise_iff_getElem.mp hs i j hi hj hij

theorem Cursor.next (h : Cursor s (time :: times) cursor) (hs : s.t.Pairwise (· < ·))
    (htimes : (time :: times).Pairwise (· < ·)) (hat : s.t[cursor]? = some time) :
    Cursor s times (cursor + 1) := by
  refine ⟨fun j hj u hu later hlater ↦ ?_, fun j hj u hu ↦ ?_⟩
  · rcases Nat.lt_succ_iff_lt_or_eq.mp hj with hlt | rfl
    · exact h.behind j hlt u hu later (List.mem_cons_of_mem _ hlater)
    · rw [hat] at hu
      obtain rfl := Option.some.inj hu
      exact (List.pairwise_cons.mp htimes).1 later hlater
  · have hlt := lt_of_getElem? hs hj hat hu
    exact (List.mem_cons.mp (h.ahead j (Nat.le_of_succ_le hj) u hu)).resolve_left hlt.ne'

/-- The cursor is not at the next instant, which the series does not have. -/
theorem Cursor.not_mem (h : Cursor s (time :: times) cursor) (hs : s.t.Pairwise (· < ·))
    (htimes : (time :: times).Pairwise (· < ·)) (hat : s.t[cursor]? ≠ some time) :
    time ∉ s.t := by
  intro hmem
  obtain ⟨j, hj⟩ := List.getElem?_of_mem hmem
  -- an instant of the series is behind the cursor, at it, or to come
  rcases Nat.lt_trichotomy j cursor with hlt | rfl | hgt
  · exact lt_irrefl time (h.behind j hlt time hj time List.mem_cons_self)
  · exact hat hj
  · -- what is at the cursor would be before `time`, and to come
    have hlength : cursor < s.t.length := hgt.trans (List.getElem?_eq_some_iff.mp hj).1
    have hcursor := List.getElem?_eq_getElem hlength
    have hlt := lt_of_getElem? hs hgt hcursor hj
    rcases List.mem_cons.mp (h.ahead cursor le_rfl _ hcursor) with heq | hlater
    · exact hlt.ne heq
    · exact lt_asymm hlt ((List.pairwise_cons.mp htimes).1 _ hlater)

theorem Cursor.skip (h : Cursor s (time :: times) cursor) (hnot : time ∉ s.t) :
    Cursor s times cursor := by
  refine ⟨fun j hj u hu later hlater ↦ h.behind j hj u hu later (List.mem_cons_of_mem _ hlater),
    fun j hj u hu ↦ (List.mem_cons.mp (h.ahead j hj u hu)).resolve_left ?_⟩
  rintro rfl
  exact hnot (List.mem_of_getElem? hu)

/-- **A column is the series, read at every instant.** -/
theorem columnFrom_eq (hs : s.t.Pairwise (· < ·)) (htimes : times.Pairwise (· < ·))
    (h : Cursor s times cursor) : columnFrom s times cursor = times.map s.valueAt := by
  induction times generalizing cursor with
  | nil => rfl
  | cons time times ih =>
    have hrest := (List.pairwise_cons.mp htimes).2
    rw [columnFrom, List.map_cons]
    split
    · rename_i hat
      rw [valueAt_of_getElem? (hs.imp fun h ↦ h.ne) hat, ih hrest (h.next hs htimes hat)]
    · rename_i hat
      have hnot := h.not_mem hs htimes hat
      rw [valueAt_of_not_mem hnot, ih hrest (h.skip hnot)]

/-! ## The alignment -/

theorem pairwise_times (series : List (SeriesData V)) :
    (alignSeries series).times.Pairwise (· < ·) :=
  Increasing.pairwise_lt_mergeSort (List.nodup_dedup _)

theorem mem_times : time ∈ (alignSeries series).times ↔ ∃ s ∈ series, time ∈ s.t := by
  rw [alignSeries, List.mem_mergeSort, List.mem_dedup, List.mem_flatMap]

theorem columns_eq (h : ∀ s ∈ series, s.t.Pairwise (· < ·)) :
    (alignSeries series).columns =
      series.map fun s ↦ (alignSeries series).times.map s.valueAt := by
  refine List.map_congr_left fun s hs ↦ columnFrom_eq (h s hs) (pairwise_times series) ?_
  refine ⟨fun j hj ↦ absurd hj (Nat.not_lt_zero j), fun j _ u hu ↦ ?_⟩
  exact mem_times.mpr ⟨s, hs, List.mem_of_getElem? hu⟩

/-- **Series whose instants increase are aligned** on the instants of all of them, and every sample
is there exactly once. -/
theorem aligns_alignSeries (series : List (SeriesData V))
    (h : ∀ s ∈ series, s.t.Pairwise (· < ·)) : Aligns series (alignSeries series) := by
  have hcolumns := columns_eq h
  refine ⟨pairwise_times series, fun time ↦ mem_times, ?_, ?_, ?_, ?_⟩
  · rw [hcolumns, List.length_map]
  · intro column hcolumn
    rw [hcolumns] at hcolumn
    obtain ⟨s, -, rfl⟩ := List.mem_map.mp hcolumn
    rw [List.length_map]
  · intro k i s column time hk hcolumn hi
    rw [hcolumns, List.getElem?_map, hk] at hcolumn
    obtain rfl := Option.some.inj hcolumn
    have hs : s.t.Pairwise (· < ·) := h s (List.mem_of_getElem? hk)
    rw [List.getElem?_map, hi]
    refine ⟨fun j hj ↦ congrArg some ?_, fun hnot ↦ congrArg some (valueAt_of_not_mem hnot)⟩
    exact valueAt_of_getElem? (hs.imp fun h ↦ h.ne) hj
  · intro s hs j time hj
    obtain ⟨i, hi⟩ := List.getElem?_of_mem
      (mem_times.mpr ⟨s, hs, List.mem_of_getElem? hj⟩)
    refine ⟨i, hi, fun i' hi' ↦ ?_⟩
    -- the instants of the table are distinct
    obtain ⟨hlt, heq⟩ := List.getElem?_eq_some_iff.mp hi
    obtain ⟨hlt', heq'⟩ := List.getElem?_eq_some_iff.mp hi'
    have hnodup : (alignSeries series).times.Nodup := (pairwise_times series).imp fun h ↦ h.ne
    exact (hnodup.getElem_inj_iff).mp (heq'.trans heq.symm)

/-- Two series with an instant in common. -/
theorem aligns_alignSeries_two :
    Aligns [⟨[10, 20, 30], [some 1, some 2, none], 3⟩, ⟨[20, 40], [some 200, some 400], 2⟩]
      (alignSeries (V := ℕ)
        [⟨[10, 20, 30], [some 1, some 2, none], 3⟩, ⟨[20, 40], [some 200, some 400], 2⟩]) :=
  aligns_alignSeries _ (by decide)

end Superviseur.Trend
