import Mathlib.Algebra.Order.Floor.Ring
import Mathlib.Data.Finset.Dedup
import Mathlib.Data.Int.Interval
import Mathlib.Order.Bounds.Basic
import Superviseur.Library.FloatDivision

/-!
# The buckets of the history

`GET /points/{id}/history` with `bucket=auto` takes the smallest round size, or number of whole
days, of which no more than `max_points` fit in the period. Sizes are compared in floats; the
database aligns the buckets on 2000-01-01, wherever the period begins.

**The size is the smallest one, and there are at most `max_points` buckets, if and only if rounding
does not lose a day and one of the `max_points + 1` buckets from the one of `from` on has no sample
of the period** (`auto_iff`). A period that begins on a boundary always leaves the last of them
empty (`Spare.of_le`), and no day is lost below 68 years (`Asked.unrounded_of_le`).
-/

namespace Superviseur.PointHistory

/-- An aware `datetime`: the microseconds since 2000-01-01, in UTC. The years are 1 to 9999 in its
own zone, which is less than a day away. -/
structure Datetime where
  micros : ℤ
  after : -(730120 * 86400 * 10 ^ 6) ≤ micros
  before : micros < 2921941 * 86400 * 10 ^ 6

variable {ι V : Type} [DecidableEq ι]

/-- `Sample`. -/
structure Sample (ι V : Type) where
  pointId : ι
  ts : ℤ
  value : Option V
  status : String

/-- `HistoryItem`. -/
structure HistoryItem (V : Type) where
  ts : ℤ
  value : Option V
  status : Option String := none
  min : Option V := none
  max : Option V := none
  count : Option ℕ := none

/-- `HistoryOut`. -/
structure HistoryOut (ι V : Type) where
  pointId : ι
  bucket : Option String
  truncated : Bool
  items : List (HistoryItem V)

/-- What a request is answered instead. -/
inductive Refused
  | notFound (detail : String)
  | unprocessable (detail : String)
  /-- An exception that no one expects. -/
  | internal

/-- The parameters of the request. -/
structure Query where
  start : Option Datetime
  stop : Option Datetime
  bucket : Option String
  maxPoints : ℕ
  range : 10 ≤ maxPoints ∧ maxPoints ≤ 5000

/-- What the database makes of values: null where there is none. -/
structure Aggregates (V : Type) where
  avg : List V → Option V
  min : List V → Option V
  max : List V → Option V

/-! ## Sizes -/

/-- `MAX_HISTORY_ROWS`. -/
def maxHistoryRows : ℕ := 20000

/-- `_NICE_BUCKETS`. -/
def niceBuckets : List ℤ := [5, 10, 30, 60, 300, 900, 1800, 3600, 10800, 21600, 43200, 86400]

/-- `_UNIT_SECONDS`. -/
def unitSeconds : Char → Option ℕ
  | 's' => some 1
  | 'm' => some 60
  | 'h' => some 3600
  | 'd' => some 86400
  | _ => none

/-- `_BUCKET.match`: the digits and the size of the unit; `digit` is the value of what `\d` matches.
The end of the pattern also stands before a line feed that ends the text. -/
def matchBucket (digit : Char → Option ℕ) (bucket : List Char) : Option (List ℕ × ℕ) := do
  let text := if bucket.getLast? = some '\n' then bucket.dropLast else bucket
  let unit ← text.getLast?
  let size ← unitSeconds unit
  let digits ← text.dropLast.mapM digit
  if digits = [] then none else some (digits, size)

/-- `_parse_bucket`. -/
def parseBucket (digit : Char → Option ℕ) (bucket : String) : Except Refused ℤ :=
  let seconds : ℤ := match matchBucket digit bucket.toList with
    | some (digits, size) => (digits.foldl (fun number d ↦ 10 * number + d) 0 * size : ℕ)
    | none => 0
  if seconds ≤ 0 then
    .error (.unprocessable "bucket invalide (exemples : 30s, 5m, 1h, 1d, ou auto)")
  else .ok seconds

/-- `format_bucket`. -/
def formatBucket (seconds : ℤ) : String :=
  match [("d", 86400), ("h", 3600), ("m", 60)].find? fun unit ↦ seconds % unit.2 = 0 with
  | some (unit, size) => toString (seconds / size) ++ unit
  | none => toString seconds ++ "s"

/-- `timedelta.total_seconds`, of microseconds. -/
def totalSeconds (delta : ℤ) : PyFloat := .round (delta / 10 ^ 6)

/-- `auto_bucket_seconds`; none where `math.ceil` raises. -/
def autoBucketSeconds (spanS : PyFloat) (maxPoints : ℕ) : Option ℤ :=
  let wanted := spanS.divNat maxPoints
  if wanted.le (.fin 1) then some 0
  else match niceBuckets.find? fun size : ℤ ↦ wanted.le (.fin size) with
    | some size => some size
    | none => (wanted.divNat 86400).ceil.map (· * 86400)

/-! ## The request -/

/-- The samples of the point in the period. -/
def period (samples : List (Sample ι V)) (pointId : ι) (start stop : ℤ) : List (Sample ι V) :=
  samples.filter fun sample ↦ sample.pointId = pointId ∧ start ≤ sample.ts ∧ sample.ts < stop

/-- `date_bin`, or `time_bucket`: the start of the bucket, aligned on 2000-01-01. -/
def dateBin (seconds ts : ℤ) : ℤ := ts / (seconds * 10 ^ 6) * (seconds * 10 ^ 6)

/-- The samples as they are. -/
def rawHistory (pointId : ι) (found : List (Sample ι V)) : HistoryOut ι V :=
  let rows := (found.mergeSort fun a b ↦ decide (a.ts ≤ b.ts)).take (maxHistoryRows + 1)
  { pointId
    bucket := none
    truncated := maxHistoryRows < rows.length
    items := (rows.take maxHistoryRows).map fun row ↦
      { ts := row.ts, value := row.value, status := some row.status } }

/-- The buckets that have samples, in order. -/
def buckets (seconds : ℤ) (found : List (Sample ι V)) : List ℤ :=
  (found.map fun sample ↦ dateBin seconds sample.ts).dedup.mergeSort fun a b ↦ decide (a ≤ b)

/-- The samples by bucket. -/
def bucketHistory (db : Aggregates V) (seconds : ℤ) (pointId : ι) (found : List (Sample ι V)) :
    HistoryOut ι V where
  pointId
  bucket := some (formatBucket seconds)
  truncated := false
  items := (buckets seconds found).map fun bucket ↦
    let group := found.filter fun sample ↦ dateBin seconds sample.ts = bucket
    let values := group.filterMap (·.value)
    { ts := bucket, value := db.avg values, min := db.min values, max := db.max values,
      count := some group.length }

/-- The size of the buckets; 0 where the samples are wanted as they are. -/
def bucketSeconds (digit : Char → Option ℕ) (query : Query) (span : ℤ) : Except Refused ℤ :=
  match query.bucket with
  | none => .ok 0
  | some "auto" => match autoBucketSeconds (totalSeconds span) query.maxPoints with
    | some seconds => .ok seconds
    | none => .error .internal
  | some bucket => parseBucket digit bucket

/-- `point_history`. -/
def pointHistory (db : Aggregates V) (digit : Char → Option ℕ) (now : Datetime) (points : List ι)
    (samples : List (Sample ι V)) (pointId : ι) (query : Query) : Except Refused (HistoryOut ι V) :=
  if pointId ∉ points then .error (.notFound "point introuvable")
  else
    let stop := (query.stop.getD now).micros
    let start := match query.start with
      | some start => start.micros
      | none => stop - 86400 * 10 ^ 6
    if stop ≤ start then .error (.unprocessable "`from` doit précéder `to`")
    else do
      let seconds ← bucketSeconds digit query (stop - start)
      let found := period samples pointId start stop
      if seconds = 0 then .ok (rawHistory pointId found)
      else if (PyFloat.fin maxHistoryRows).lt
          ((totalSeconds (stop - start)).divNat seconds.toNat) then
        .error (.unprocessable "trop de tranches : augmentez le bucket")
      else .ok (bucketHistory db seconds pointId found)

/-! ## What is promised -/

/-- The round sizes, and the whole days. -/
def Listed (seconds : ℤ) : Prop :=
  seconds ∈ niceBuckets ∨ ∃ days, 0 < days ∧ seconds = days * 86400

/-- The sizes of which no more than `max_points` fit in the period. -/
def sizes (span : ℤ) (maxPoints : ℕ) : Set ℤ :=
  {seconds | Listed seconds ∧ (span : ℚ) / 10 ^ 6 / seconds ≤ maxPoints}

/-- Rounding does not make the period a whole number of days a bucket that it is longer than. -/
def Unrounded (span : ℤ) (maxPoints : ℕ) : Prop :=
  ∀ days : ℤ, 0 < days → (((totalSeconds span).divNat maxPoints).divNat 86400).le (.fin days) →
    (span : ℚ) / 10 ^ 6 ≤ days * 86400 * maxPoints

/-- One of the `max_points + 1` buckets from the one of `from` on has no sample of the period. -/
def Spare (samples : List (Sample ι V)) (pointId : ι) (start stop seconds : ℤ) (maxPoints : ℕ) :
    Prop :=
  ∃ i ≤ maxPoints, ∀ sample ∈ period samples pointId start stop,
    dateBin seconds sample.ts ≠ dateBin seconds start + i * (seconds * 10 ^ 6)

/-- The request for a period. -/
def auto (start stop : Datetime) (maxPoints : ℕ) (range : 10 ≤ maxPoints ∧ maxPoints ≤ 5000) :
    Query :=
  { start := some start, stop := some stop, bucket := some "auto", maxPoints, range }

/-- What `bucket=auto` promises: the smallest size, and no more than `max_points` buckets. -/
def Kept (db : Aggregates V) (digit : Char → Option ℕ) (now : Datetime) (points : List ι)
    (samples : List (Sample ι V)) (pointId : ι) (start stop : Datetime) (maxPoints : ℕ)
    (range : 10 ≤ maxPoints ∧ maxPoints ≤ 5000) : Prop :=
  ∀ size, autoBucketSeconds (totalSeconds (stop.micros - start.micros)) maxPoints = some size →
    size ≠ 0 → IsLeast (sizes (stop.micros - start.micros) maxPoints) size ∧
      ∃ out, pointHistory db digit now points samples pointId (auto start stop maxPoints range) =
        .ok out ∧ out.items.length ≤ maxPoints

/-! ## The size, in floats -/

/-- The seconds of a period, rounded. -/
def seconds (span : ℤ) : ℚ := PyFloat.nearest (span / 10 ^ 6)

/-- `wanted`. -/
def wanted (span : ℤ) (maxPoints : ℕ) : ℚ := PyFloat.nearest (seconds span / maxPoints)

/-- `wanted / 86400`. -/
def days (span : ℤ) (maxPoints : ℕ) : ℚ := PyFloat.nearest (wanted span maxPoints / 86400)

section

variable {span : ℤ} {maxPoints : ℕ} {size n : ℤ}

theorem abs_lt_of_le {q : ℚ} (hnonneg : 0 ≤ q) (hle : q ≤ (2 ^ 40 : ℤ)) : |q| < 2 ^ 53 := by
  rw [abs_of_nonneg hnonneg]
  push_cast at hle
  linarith

theorem Listed.pos (h : Listed size) : 0 < size := by
  rcases h with hmem | ⟨days, hpos, rfl⟩
  · have hall : ∀ size ∈ niceBuckets, 0 < size := by decide
    exact hall size hmem
  · omega

theorem mem_sizes : size ∈ sizes span maxPoints ↔
    Listed size ∧ (span : ℚ) / 10 ^ 6 ≤ size * maxPoints := by
  refine and_congr_right fun hlisted ↦ ?_
  rw [div_le_iff₀ (Int.cast_pos.mpr hlisted.pos), mul_comm]

/-- The first round size that is large enough is the smallest of all. -/
theorem isLeast_of_find? (hfind : (niceBuckets.find? fun size : ℤ ↦
    (span : ℚ) / 10 ^ 6 ≤ size * maxPoints) = some size) : IsLeast (sizes span maxPoints) size := by
  obtain ⟨hsize, before, after, heq, hbefore⟩ := List.find?_eq_some_iff_append.mp hfind
  have hmem : size ∈ niceBuckets := by rw [heq]; simp
  have hday : ∀ size ∈ niceBuckets, size ≤ 86400 := by decide
  have hsorted : niceBuckets.Pairwise (· < ·) := by decide
  refine ⟨mem_sizes.mpr ⟨.inl hmem, of_decide_eq_true hsize⟩, fun other hother ↦ ?_⟩
  obtain ⟨hlisted, hother⟩ := mem_sizes.mp hother
  rcases hlisted with hnice | ⟨days, hpos, rfl⟩
  · rw [heq, List.mem_append, List.mem_cons] at hnice
    rw [heq] at hsorted
    rcases hnice with hnice | rfl | hnice
    · -- what comes before is too small
      have hnot := hbefore other hnice
      simp [hother] at hnot
    · exact le_rfl
    · exact (List.rel_of_pairwise_cons (List.pairwise_append.mp hsorted).2.1 hnice).le
  · have hle := hday size hmem
    omega

/-- A period is a whole number of microseconds: past a bound in seconds, it is one past it. -/
theorem add_le_of_lt (hn : (n : ℚ) < span / 10 ^ 6) : n + 1 / 10 ^ 6 ≤ (span : ℚ) / 10 ^ 6 := by
  rw [lt_div_iff₀ (by norm_num)] at hn
  have hlt : n * 10 ^ 6 < span := by exact_mod_cast hn
  have hle : ((n * 10 ^ 6 + 1 : ℤ) : ℚ) ≤ span := by exact_mod_cast hlt
  push_cast at hle
  rw [le_div_iff₀ (by norm_num), add_mul, div_mul_cancel₀ _ (by norm_num)]
  exact hle

/-- A period between two datetimes, which is not empty, and the bounds of `max_points`. -/
structure Asked (span : ℤ) (maxPoints : ℕ) : Prop where
  pos : 0 < span
  lt : span < 2 ^ 40 * 10 ^ 6
  one_le : 1 ≤ maxPoints
  le : maxPoints ≤ 5000

namespace Asked

variable (h : Asked span maxPoints)

include h

theorem points_pos : (0 : ℚ) < maxPoints := Nat.cast_pos.mpr h.one_le

theorem span_ge : (1 : ℚ) / 10 ^ 6 ≤ span / 10 ^ 6 :=
  div_le_div_of_nonneg_right (by exact_mod_cast h.pos) (by norm_num)

theorem span_le : (span : ℚ) / 10 ^ 6 ≤ (2 ^ 40 : ℤ) := by
  rw [div_le_iff₀ (by norm_num)]
  exact_mod_cast h.lt.le

theorem abs_span_lt : |(span : ℚ) / 10 ^ 6| < 2 ^ 53 :=
  abs_lt_of_le (by linarith [h.span_ge]) h.span_le

theorem mul_le_seconds : (span : ℚ) / 10 ^ 6 * (1 - 1 / 2 ^ 53) ≤ seconds span :=
  PyFloat.mul_le_nearest_of_le ((by norm_num : (1 : ℚ) / 2 ^ 64 ≤ 1 / 10 ^ 6).trans h.span_ge)

theorem seconds_ge : 1 / 10 ^ 7 ≤ seconds span := by
  have hge := h.span_ge
  have hmul := h.mul_le_seconds
  linarith

theorem seconds_le : seconds span ≤ (2 ^ 40 : ℤ) := PyFloat.nearest_le h.abs_span_lt h.span_le

theorem div_points_ge : 1 / 2 ^ 40 ≤ seconds span / maxPoints := by
  have hge := h.seconds_ge
  have hpoints : (maxPoints : ℚ) ≤ 5000 := by exact_mod_cast h.le
  rw [le_div_iff₀ h.points_pos]
  linarith

theorem div_points_le : seconds span / maxPoints ≤ (2 ^ 40 : ℤ) := by
  have hone : (1 : ℚ) ≤ maxPoints := by exact_mod_cast h.one_le
  exact (div_le_self (by linarith [h.seconds_ge]) hone).trans h.seconds_le

theorem abs_div_points_lt : |seconds span / maxPoints| < 2 ^ 53 :=
  abs_lt_of_le (by linarith [h.div_points_ge]) h.div_points_le

theorem div_le_wanted : seconds span / maxPoints * (1 - 1 / 2 ^ 53) ≤ wanted span maxPoints :=
  PyFloat.mul_le_nearest_of_le ((by norm_num : (1 : ℚ) / 2 ^ 64 ≤ 1 / 2 ^ 40).trans h.div_points_ge)

theorem mul_le_wanted : seconds span * (1 - 1 / 2 ^ 53) ≤ wanted span maxPoints * maxPoints := by
  have hmul := h.div_le_wanted
  rw [div_mul_eq_mul_div, div_le_iff₀ h.points_pos] at hmul
  exact hmul

theorem wanted_ge : 1 / 2 ^ 41 ≤ wanted span maxPoints := by
  have hge := h.div_points_ge
  have hmul := h.div_le_wanted
  linarith

theorem wanted_le_max : wanted span maxPoints ≤ (2 ^ 40 : ℤ) :=
  PyFloat.nearest_le h.abs_div_points_lt h.div_points_le

theorem abs_wanted_lt : |wanted span maxPoints / 86400| < 2 ^ 53 := by
  have hge := h.wanted_ge
  exact abs_lt_of_le (by linarith) ((div_le_self (by linarith) (by norm_num)).trans h.wanted_le_max)

theorem mul_le_days : wanted span maxPoints * (1 - 1 / 2 ^ 53) ≤ days span maxPoints * 86400 := by
  have hge := h.wanted_ge
  have hmul : wanted span maxPoints / 86400 * (1 - 1 / 2 ^ 53) ≤ days span maxPoints :=
    PyFloat.mul_le_nearest_of_le (by linarith)
  linarith

/-! ### What rounding keeps -/

theorem wanted_le (hsize : (span : ℚ) / 10 ^ 6 ≤ size * maxPoints) :
    wanted span maxPoints ≤ size := by
  have hseconds : seconds span ≤ (size * maxPoints : ℤ) :=
    PyFloat.nearest_le h.abs_span_lt (by exact_mod_cast hsize)
  refine PyFloat.nearest_le h.abs_div_points_lt ?_
  rw [div_le_iff₀ h.points_pos]
  exact_mod_cast hseconds

theorem le_wanted (hsize : size * maxPoints ≤ (span : ℚ) / 10 ^ 6) :
    size ≤ wanted span maxPoints := by
  have hseconds : (size * maxPoints : ℤ) ≤ seconds span :=
    PyFloat.le_nearest h.abs_span_lt (by exact_mod_cast hsize)
  refine PyFloat.le_nearest h.abs_div_points_lt ?_
  rw [le_div_iff₀ h.points_pos]
  exact_mod_cast hseconds

theorem days_le (hdays : (span : ℚ) / 10 ^ 6 ≤ n * 86400 * maxPoints) :
    days span maxPoints ≤ n := by
  have hwanted : wanted span maxPoints ≤ (n * 86400 : ℤ) := h.wanted_le (by exact_mod_cast hdays)
  refine PyFloat.nearest_le h.abs_wanted_lt ?_
  rw [div_le_iff₀ (by norm_num)]
  exact_mod_cast hwanted

theorem le_days (hdays : n * 86400 * maxPoints ≤ (span : ℚ) / 10 ^ 6) :
    n ≤ days span maxPoints := by
  have hwanted : (n * 86400 : ℤ) ≤ wanted span maxPoints := h.le_wanted (by exact_mod_cast hdays)
  refine PyFloat.le_nearest h.abs_wanted_lt ?_
  rw [le_div_iff₀ (by norm_num)]
  exact_mod_cast hwanted

theorem wanted_le_iff (hday : size ≤ 86400) :
    wanted span maxPoints ≤ size ↔ (span : ℚ) / 10 ^ 6 ≤ size * maxPoints := by
  refine ⟨fun hle ↦ ?_, h.wanted_le⟩
  by_contra hlt
  have hpast : ((size * maxPoints : ℤ) : ℚ) + 1 / 10 ^ 6 ≤ span / 10 ^ 6 :=
    add_le_of_lt (by exact_mod_cast not_le.mp hlt)
  have hbound : ((size * maxPoints : ℤ) : ℚ) ≤ 432000000 := by
    exact_mod_cast (by nlinarith [h.le, h.one_le] : size * (maxPoints : ℤ) ≤ 432000000)
  have hmul := mul_le_mul_of_nonneg_right hle h.points_pos.le
  push_cast at hpast hbound
  linarith [h.mul_le_seconds, h.mul_le_wanted]

theorem days_le_iff (hshort : span ≤ 2 ^ 31 * 10 ^ 6) :
    days span maxPoints ≤ n ↔ (span : ℚ) / 10 ^ 6 ≤ n * 86400 * maxPoints := by
  refine ⟨fun hle ↦ ?_, h.days_le⟩
  by_contra hlt
  have hpast : ((n * 86400 * maxPoints : ℤ) : ℚ) + 1 / 10 ^ 6 ≤ span / 10 ^ 6 :=
    add_le_of_lt (by exact_mod_cast not_le.mp hlt)
  have hbound : (span : ℚ) / 10 ^ 6 ≤ 2 ^ 31 := by
    rw [div_le_iff₀ (by norm_num)]
    exact_mod_cast hshort
  have hmul := mul_le_mul_of_nonneg_right hle h.points_pos.le
  have hdays := mul_le_mul_of_nonneg_right h.mul_le_days h.points_pos.le
  push_cast at hpast
  linarith [h.mul_le_seconds, h.mul_le_wanted]

/-! ### The size that is chosen -/

theorem totalSeconds_eq : totalSeconds span = .fin (seconds span) :=
  PyFloat.round_of_lt h.abs_span_lt

theorem divNat_points_eq :
    (totalSeconds span).divNat maxPoints = .fin (wanted span maxPoints) := by
  rw [h.totalSeconds_eq, PyFloat.divNat_fin]
  exact PyFloat.round_of_lt h.abs_div_points_lt

theorem divNat_days_eq :
    ((totalSeconds span).divNat maxPoints).divNat 86400 = .fin (days span maxPoints) := by
  rw [h.divNat_points_eq, PyFloat.divNat_fin]
  exact PyFloat.round_of_lt h.abs_wanted_lt

theorem unrounded_iff : Unrounded span maxPoints ↔ ∀ n : ℤ, 0 < n → days span maxPoints ≤ n →
    (span : ℚ) / 10 ^ 6 ≤ n * 86400 * maxPoints := by
  rw [Unrounded, h.divNat_days_eq]
  simp only [PyFloat.le_fin]

theorem unrounded_of_le (hshort : span ≤ 2 ^ 31 * 10 ^ 6) : Unrounded span maxPoints :=
  h.unrounded_iff.mpr fun _ _ hdays ↦ (h.days_le_iff hshort).mp hdays

theorem autoBucketSeconds_eq : autoBucketSeconds (totalSeconds span) maxPoints =
    if (span : ℚ) / 10 ^ 6 ≤ maxPoints then some 0
    else match niceBuckets.find? fun size : ℤ ↦ (span : ℚ) / 10 ^ 6 ≤ size * maxPoints with
      | some size => some size
      | none => some (⌈days span maxPoints⌉ * 86400) := by
  have hnice : ∀ size ∈ niceBuckets,
      PyFloat.le (.fin (wanted span maxPoints)) (.fin size) =
        decide ((span : ℚ) / 10 ^ 6 ≤ size * maxPoints) := by
    intro size hsize
    have hday : ∀ size ∈ niceBuckets, size ≤ 86400 := by decide
    rw [Bool.eq_iff_iff, PyFloat.le_fin, decide_eq_true_eq, h.wanted_le_iff (hday size hsize)]
  have hone : wanted span maxPoints ≤ 1 ↔ (span : ℚ) / 10 ^ 6 ≤ maxPoints := by
    have hiff : wanted span maxPoints ≤ (1 : ℤ) ↔ _ := h.wanted_le_iff (by norm_num)
    push_cast at hiff
    rw [hiff, one_mul]
  have hfind : (niceBuckets.find? fun size : ℤ ↦
      PyFloat.le (.fin (wanted span maxPoints)) (.fin size)) =
        niceBuckets.find? fun size : ℤ ↦ (span : ℚ) / 10 ^ 6 ≤ size * maxPoints := by
    rw [← List.head?_filter, ← List.head?_filter, List.filter_congr hnice]
  have hdays := h.divNat_days_eq
  rw [h.divNat_points_eq] at hdays
  simp only [autoBucketSeconds, h.divNat_points_eq, PyFloat.le_fin, hone, hfind, hdays,
    PyFloat.ceil_fin, Option.map_some]

theorem ceil_days_pos (hfind : (niceBuckets.find? fun size : ℤ ↦
    (span : ℚ) / 10 ^ 6 ≤ size * maxPoints) = none) : 0 < ⌈days span maxPoints⌉ := by
  have hday := List.find?_eq_none.mp hfind 86400 (by decide)
  rw [decide_eq_true_eq] at hday
  have hone : ((1 : ℤ) : ℚ) ≤ days span maxPoints := by
    refine h.le_days ?_
    push_cast at hday ⊢
    linarith
  exact Int.ceil_pos.mpr (by push_cast at hone; linarith)

/-- Past the round sizes, the whole days are the smallest size unless rounding loses one. -/
theorem isLeast_days_iff (hfind : (niceBuckets.find? fun size : ℤ ↦
    (span : ℚ) / 10 ^ 6 ≤ size * maxPoints) = none) :
    IsLeast (sizes span maxPoints) (⌈days span maxPoints⌉ * 86400) ↔ Unrounded span maxPoints := by
  have hnice : ∀ size ∈ niceBuckets, ¬(span : ℚ) / 10 ^ 6 ≤ size * maxPoints := by
    intro size hsize hle
    exact List.find?_eq_none.mp hfind size hsize (decide_eq_true hle)
  have hpos := h.ceil_days_pos hfind
  rw [h.unrounded_iff]
  constructor
  · rintro ⟨hmem, -⟩ n hn hdays
    have hspan := (mem_sizes.mp hmem).2
    have hceil : ((⌈days span maxPoints⌉ : ℤ) : ℚ) ≤ n := by exact_mod_cast Int.ceil_le.mpr hdays
    push_cast at hspan
    refine hspan.trans ?_
    exact mul_le_mul_of_nonneg_right (by linarith) h.points_pos.le
  · intro hunrounded
    refine ⟨mem_sizes.mpr ⟨.inr ⟨_, hpos, rfl⟩, ?_⟩, fun other hother ↦ ?_⟩
    · push_cast
      exact hunrounded _ hpos (Int.le_ceil _)
    · obtain ⟨hlisted, hother⟩ := mem_sizes.mp hother
      rcases hlisted with hmem | ⟨n, hn, rfl⟩
      · exact absurd hother (hnice other hmem)
      · have hdays : days span maxPoints ≤ n := h.days_le (by exact_mod_cast hother)
        have hceil := Int.ceil_le.mpr hdays
        omega

/-- **The size that is chosen is the smallest one unless rounding loses a day.** -/
theorem exists_size (hraw : ¬(span : ℚ) / 10 ^ 6 ≤ maxPoints) :
    ∃ size, autoBucketSeconds (totalSeconds span) maxPoints = some size ∧ size ≠ 0 ∧
      (IsLeast (sizes span maxPoints) size ↔ Unrounded span maxPoints) := by
  rw [h.autoBucketSeconds_eq, if_neg hraw]
  rcases hfind : niceBuckets.find? fun size : ℤ ↦ (span : ℚ) / 10 ^ 6 ≤ size * maxPoints
    with _ | size
  · refine ⟨_, rfl, ?_, h.isLeast_days_iff hfind⟩
    have hpos := h.ceil_days_pos hfind
    omega
  · have hleast := isLeast_of_find? hfind
    obtain ⟨hlisted, hsize⟩ := mem_sizes.mp hleast.1
    refine ⟨size, rfl, hlisted.pos.ne', iff_of_true hleast ?_⟩
    -- a round size is no longer than a day
    rw [h.unrounded_iff]
    intro n hn _
    have hday : ∀ size ∈ niceBuckets, size ≤ 86400 := by decide
    have hle : ((size : ℤ) : ℚ) ≤ n * 86400 := by
      have hsize := hday size (List.mem_of_find?_eq_some hfind)
      exact_mod_cast (by omega : size ≤ n * 86400)
    exact hsize.trans (mul_le_mul_of_nonneg_right hle h.points_pos.le)

theorem not_lt_divNat (hsize : 0 < size) (hspan : (span : ℚ) / 10 ^ 6 ≤ size * maxPoints) :
    PyFloat.lt (.fin maxHistoryRows) ((totalSeconds span).divNat size.toNat) = false := by
  have hpos : (0 : ℚ) < size := Int.cast_pos.mpr hsize
  have hone : (1 : ℚ) ≤ size := by exact_mod_cast hsize
  have hpoints : (maxPoints : ℚ) ≤ 20000 := by exact_mod_cast h.le.trans (by norm_num)
  have hseconds : seconds span ≤ (20000 * size : ℤ) := by
    refine PyFloat.nearest_le h.abs_span_lt (hspan.trans ?_)
    push_cast
    rw [mul_comm]
    exact mul_le_mul_of_nonneg_right hpoints hpos.le
  have hge := h.seconds_ge
  have hlt : |seconds span / size| < 2 ^ 53 :=
    abs_lt_of_le (div_nonneg (by linarith) hpos.le)
      ((div_le_self (by linarith) hone).trans h.seconds_le)
  have hnearest : PyFloat.nearest (seconds span / size) ≤ (20000 : ℤ) := by
    refine PyFloat.nearest_le hlt ?_
    rw [div_le_iff₀ hpos]
    exact_mod_cast hseconds
  have hcast : ((size.toNat : ℕ) : ℚ) = size := by exact_mod_cast Int.toNat_of_nonneg hsize.le
  rw [h.totalSeconds_eq, PyFloat.divNat_fin, hcast, PyFloat.round_of_lt hlt, ← Bool.not_eq_true,
    PyFloat.lt_fin, not_lt]
  exact_mod_cast hnearest

end Asked

end

/-! ## The buckets that have samples -/

/-- Of `m + 1` whole numbers in a row, no more than `m` are there if and only if one is missing. -/
theorem length_dedup_le_iff {xs : List ℤ} {a : ℤ} {m : ℕ} (h : ∀ x ∈ xs, a ≤ x ∧ x ≤ a + m) :
    xs.dedup.length ≤ m ↔ ∃ i ≤ m, a + (i : ℤ) ∉ xs := by
  have hcard : (Finset.Icc a (a + m)).card = m + 1 := by
    rw [Int.card_Icc]
    omega
  have hsub : xs.toFinset ⊆ Finset.Icc a (a + m) := by
    intro x hx
    exact Finset.mem_Icc.mpr (h x (List.mem_toFinset.mp hx))
  rw [← List.card_toFinset]
  constructor
  · intro hle
    by_contra hall
    have hsup : Finset.Icc a (a + m) ⊆ xs.toFinset := by
      intro x hx
      obtain ⟨hge, hle⟩ := Finset.mem_Icc.mp hx
      by_contra hmem
      refine hall ⟨(x - a).toNat, by omega, fun hx ↦ hmem (List.mem_toFinset.mpr ?_)⟩
      rw [Int.toNat_of_nonneg (by omega), add_sub_cancel] at hx
      exact hx
    have hge := Finset.card_le_card hsup
    omega
  · rintro ⟨i, hi, hmem⟩
    have hmiss : a + (i : ℤ) ∈ Finset.Icc a (a + m) := Finset.mem_Icc.mpr (by omega)
    have hlt := Finset.card_lt_card (Finset.ssubset_iff_subset_ne.mpr ⟨hsub, fun heq ↦ hmem ?_⟩)
    · omega
    · rw [← heq] at hmiss
      exact List.mem_toFinset.mp hmiss

section

variable {samples : List (Sample ι V)} {pointId : ι} {start stop size : ℤ} {maxPoints : ℕ}

theorem length_buckets_le_iff (hsize : 0 < size)
    (hspan : stop - start ≤ maxPoints * (size * 10 ^ 6)) :
    (buckets size (period samples pointId start stop)).length ≤ maxPoints ↔
      Spare samples pointId start stop size maxPoints := by
  have hwidth : 0 < size * 10 ^ 6 := by omega
  have hmul : Function.Injective fun index : ℤ ↦ index * (size * 10 ^ 6) :=
    mul_left_injective₀ hwidth.ne'
  -- the buckets by their numbers
  have hlength : (buckets size (period samples pointId start stop)).length =
      (((period samples pointId start stop).map (·.ts / (size * 10 ^ 6))).dedup).length := by
    have hmap : (period samples pointId start stop).map (dateBin size ·.ts) =
        ((period samples pointId start stop).map (·.ts / (size * 10 ^ 6))).map
          fun index ↦ index * (size * 10 ^ 6) := by
      rw [List.map_map]
      rfl
    rw [buckets, List.length_mergeSort, hmap, List.dedup_map_of_injective hmul, List.length_map]
  have hbounds : ∀ index ∈ (period samples pointId start stop).map (·.ts / (size * 10 ^ 6)),
      start / (size * 10 ^ 6) ≤ index ∧ index ≤ start / (size * 10 ^ 6) + maxPoints := by
    intro index hindex
    obtain ⟨sample, hsample, rfl⟩ := List.mem_map.mp hindex
    obtain ⟨-, hperiod⟩ := List.mem_filter.mp hsample
    obtain ⟨-, hge, hlt⟩ := of_decide_eq_true hperiod
    refine ⟨Int.ediv_le_ediv hwidth hge, ?_⟩
    rw [← Int.add_mul_ediv_right _ _ hwidth.ne']
    exact Int.ediv_le_ediv hwidth (by linarith)
  rw [hlength, length_dedup_le_iff hbounds, Spare]
  refine exists_congr fun i ↦ and_congr_right fun _ ↦ ?_
  rw [List.mem_map, not_exists]
  refine forall_congr' fun sample ↦ ?_
  rw [not_and]
  refine imp_congr_right fun _ ↦ not_congr ?_
  rw [dateBin, dateBin, ← add_mul]
  exact hmul.eq_iff.symm

/-- A period that is over by then leaves the last of these buckets empty. -/
theorem Spare.of_le (hsize : 0 < size)
    (h : stop ≤ dateBin size start + maxPoints * (size * 10 ^ 6)) :
    Spare samples pointId start stop size maxPoints := by
  refine ⟨maxPoints, le_rfl, fun sample hsample heq ↦ ?_⟩
  obtain ⟨-, hperiod⟩ := List.mem_filter.mp hsample
  obtain ⟨-, -, hlt⟩ := of_decide_eq_true hperiod
  have hbin : dateBin size sample.ts ≤ sample.ts := Int.ediv_mul_le _ (by omega)
  omega

end

/-! ## The request -/

section

variable {start stop : Datetime} {maxPoints : ℕ} {range : 10 ≤ maxPoints ∧ maxPoints ≤ 5000}

theorem asked (range : 10 ≤ maxPoints ∧ maxPoints ≤ 5000) (hlt : start.micros < stop.micros) :
    Asked (stop.micros - start.micros) maxPoints := by
  have hafter := start.after
  have hbefore := stop.before
  exact ⟨by omega, by omega, by omega, range.2⟩

omit [DecidableEq ι] in
theorem length_items (db : Aggregates V) {size : ℤ} {pointId : ι} {found : List (Sample ι V)} :
    (bucketHistory db size pointId found).items.length = (buckets size found).length :=
  List.length_map _

theorem pointHistory_auto {db : Aggregates V} {digit : Char → Option ℕ} {now : Datetime}
    {points : List ι} {samples : List (Sample ι V)} {pointId : ι} {size : ℤ}
    (hpoint : pointId ∈ points) (hlt : start.micros < stop.micros)
    (hsize : autoBucketSeconds (totalSeconds (stop.micros - start.micros)) maxPoints = some size)
    (hleast : size ∈ sizes (stop.micros - start.micros) maxPoints) :
    pointHistory db digit now points samples pointId (auto start stop maxPoints range) =
      .ok (bucketHistory db size pointId
        (period samples pointId start.micros stop.micros)) := by
  have h := asked range hlt
  obtain ⟨hlisted, hspan⟩ := mem_sizes.mp hleast
  have hseconds : bucketSeconds digit (auto start stop maxPoints range)
      (stop.micros - start.micros) = .ok size := by
    simp only [bucketSeconds, auto, hsize]
  have hfew := h.not_lt_divNat hlisted.pos hspan
  rw [pointHistory, if_neg (not_not_intro hpoint)]
  dsimp only [auto, Option.getD_some]
  rw [if_neg (not_le.mpr hlt)]
  dsimp only [auto] at hseconds
  rw [hseconds]
  change (if size = 0 then _ else if _ then _ else _) = _
  rw [if_neg hlisted.pos.ne', if_neg (ne_true_of_eq_false hfew)]

/-- **`bucket=auto` keeps its promise where the samples are wanted as they are, or where rounding
loses no day and a bucket is left empty.** -/
theorem auto_iff (db : Aggregates V) (digit : Char → Option ℕ) (now : Datetime) (points : List ι)
    (samples : List (Sample ι V)) (pointId : ι) (start stop : Datetime) (maxPoints : ℕ)
    (range : 10 ≤ maxPoints ∧ maxPoints ≤ 5000) (hpoint : pointId ∈ points)
    (hlt : start.micros < stop.micros) :
    Kept db digit now points samples pointId start stop maxPoints range ↔
      ((stop.micros - start.micros : ℤ) : ℚ) / 10 ^ 6 ≤ maxPoints ∨
        Unrounded (stop.micros - start.micros) maxPoints ∧
          ∀ size, IsLeast (sizes (stop.micros - start.micros) maxPoints) size →
            Spare samples pointId start.micros stop.micros size maxPoints := by
  have h := asked range hlt
  by_cases hraw : ((stop.micros - start.micros : ℤ) : ℚ) / 10 ^ 6 ≤ maxPoints
  · refine iff_of_true (fun size hsize hne ↦ absurd ?_ hne) (.inl hraw)
    rw [h.autoBucketSeconds_eq, if_pos hraw] at hsize
    exact (Option.some.inj hsize).symm
  rw [or_iff_right hraw]
  obtain ⟨size, hsize, hne, hleast⟩ := h.exists_size hraw
  rw [← hleast]
  -- with the smallest size, the answer is the buckets
  have hcount : IsLeast (sizes (stop.micros - start.micros) maxPoints) size →
      ((∃ out, pointHistory db digit now points samples pointId (auto start stop maxPoints range) =
        .ok out ∧ out.items.length ≤ maxPoints) ↔
          Spare samples pointId start.micros stop.micros size maxPoints) := by
    intro hleast
    obtain ⟨hlisted, hspan⟩ := mem_sizes.mp hleast.1
    have hwidth : stop.micros - start.micros ≤ maxPoints * (size * 10 ^ 6) := by
      rw [div_le_iff₀ (by norm_num)] at hspan
      have hle : stop.micros - start.micros ≤ size * maxPoints * 10 ^ 6 := by exact_mod_cast hspan
      linarith
    rw [pointHistory_auto hpoint hlt hsize hleast.1, ← length_buckets_le_iff hlisted.pos hwidth]
    rw [← length_items db]
    constructor
    · rintro ⟨out, hout, hle⟩
      obtain rfl := Except.ok.inj hout
      exact hle
    · exact fun hle ↦ ⟨_, rfl, hle⟩
  constructor
  · intro hkept
    obtain ⟨hleast, hout⟩ := hkept size hsize hne
    refine ⟨hleast, fun other hother ↦ ?_⟩
    rw [hother.unique hleast]
    exact (hcount hleast).mp hout
  · rintro ⟨hleast, hspare⟩ other hother -
    obtain rfl := Option.some.inj (hsize.symm.trans hother)
    exact ⟨hleast, (hcount hleast).mpr (hspare size hleast)⟩

end

/-! ### Ten buckets, or eleven -/

/-- What the database makes of values, exactly. -/
def exact : Aggregates ℚ where
  avg values := if values = [] then none else some (values.sum / values.length)
  min := List.min?
  max := List.max?

/-- So many seconds after 2000-01-01. -/
def second (n : Fin 86400) : Datetime := ⟨n * 10 ^ 6, by omega, by omega⟩

/-- Samples at these seconds. -/
def samplesAt (instants : List ℤ) : List (Sample ℕ ℚ) :=
  instants.map fun n ↦ { pointId := 1, ts := n * 10 ^ 6, value := some n, status := "ok" }

theorem range_ten : 10 ≤ 10 ∧ 10 ≤ 5000 := by decide

theorem auto_iff_aligned : Kept exact (fun _ ↦ none) (second 0) [1]
    (samplesAt [0, 5, 10, 15, 20, 25, 30, 35, 40, 45, 49]) 1 (second 0) (second 50) 10
    range_ten := by
  refine (auto_iff _ _ _ _ _ _ _ _ _ _ (by decide) (by decide)).mpr (.inr ⟨?_, ?_⟩)
  · exact (asked range_ten (by decide)).unrounded_of_le (by decide)
  · intro size hleast
    obtain ⟨hlisted, hspan⟩ := mem_sizes.mp hleast.1
    refine Spare.of_le hlisted.pos ?_
    have hsize : 5 ≤ size := by
      by_contra hlt
      have hle : (size : ℚ) ≤ 4 := by exact_mod_cast (by omega : size ≤ 4)
      norm_num [second] at hspan
      linarith
    have hbin : dateBin size (second 0).micros = 0 := by
      rw [dateBin]
      norm_num [second]
    rw [hbin]
    norm_num [second]
    omega

/-- **A period of ten buckets that begins inside one has samples in eleven.** -/
theorem not_kept_misaligned : ¬∀ (db : Aggregates ℚ) (digit : Char → Option ℕ) (now : Datetime)
    (points : List ℕ) (samples : List (Sample ℕ ℚ)) (pointId : ℕ) (start stop : Datetime)
    (maxPoints : ℕ) (range : 10 ≤ maxPoints ∧ maxPoints ≤ 5000), pointId ∈ points →
    start.micros < stop.micros →
    Kept db digit now points samples pointId start stop maxPoints range := by
  intro h
  have hlt : (second 2).micros < (second 52).micros := by decide
  have hkept := h exact (fun _ ↦ none) (second 0) [1]
    (samplesAt [2, 5, 10, 15, 20, 25, 30, 35, 40, 45, 50]) 1 (second 2) (second 52) 10 range_ten
    (by decide) hlt
  have hsize : autoBucketSeconds (totalSeconds ((second 52).micros - (second 2).micros)) 10 =
      some 5 := by
    rw [(asked range_ten hlt).autoBucketSeconds_eq]
    norm_num [second, niceBuckets]
  obtain ⟨hleast, out, hout, hlength⟩ := hkept 5 hsize (by decide)
  rw [pointHistory_auto (by decide) hlt hsize hleast.1] at hout
  obtain rfl := Except.ok.inj hout
  rw [length_items, buckets, List.length_mergeSort] at hlength
  exact absurd hlength (by decide)

end Superviseur.PointHistory
