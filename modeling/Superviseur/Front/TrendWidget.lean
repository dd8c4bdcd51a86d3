import Superviseur.Front.TrendSeries
import Superviseur.Library.Trace

/-!
# The trend widget

The widget loads the history of its points and adds what comes in real time. When its range is
changed it loads the history again: the curves are thrown away with the answer, and the samples that
have come meanwhile are added to those of the answer.

The curves never go back in time if and only if each answer, with the samples received since the
request, goes as far as the legend does (`neverBack_iff`). An answer may not: the history lags
behind the samples. None of those received since the request is lost.

Time is in milliseconds, and does not go back.
-/

namespace Superviseur.Trend

variable {V : Type}

/-- `Range`. -/
inductive Range
  | m15
  | h1
  | h6
  | h24
  | d7
  | d30
  deriving DecidableEq

/-- `RANGE_SECONDS`. -/
def Range.seconds : Range → ℚ
  | m15 => 900
  | h1 => 3600
  | h6 => 21600
  | h24 => 86400
  | d7 => 604800
  | d30 => 2592000

/-- `LIVE_POINTS_PER_WINDOW`. -/
def livePointsPerWindow : ℚ := 1000

structure LiveSample (V : Type) where
  point : String
  /-- In seconds. -/
  ts : ℚ
  value : Option V
  status : String

/-- What is drawn: a value that is lost is a hole in the curve. -/
def LiveSample.drawn (sample : LiveSample V) : Option V :=
  if sample.status = "comm_lost" then none else sample.value

/-- What the server answers for each point; `none` where it fails. -/
abbrev Results (V : Type) := String → Option (List (HistoryItem V))

/-- The widget, and the clock. -/
structure Widget (V : Type) where
  points : List String
  range : Range
  loaded : Bool
  loadSeq : ℕ
  pending : List (LiveSample V)
  series : List (SeriesData V)
  /-- The last points whose values the legend shows. -/
  legend : List (Option (ℚ × Option V))
  now : ℕ

namespace Widget

/-- `render`: the history is being loaded. -/
def render (points : List String) (range : Range) (now : ℕ) : Widget V where
  points := points
  range := range
  loaded := false
  loadSeq := 1
  pending := []
  series := points.map fun _ ↦ emptySeries
  legend := points.map fun _ ↦ none
  now := now

/-- The beginning of the window. -/
def windowStart (w : Widget V) : ℚ := w.now / 1000 - w.range.seconds

/-- `applyLive`. -/
def applyLive (w : Widget V) (sample : LiveSample V) : Widget V :=
  { w with
    series := w.series.modify (w.points.idxOf sample.point) fun target ↦
      target.appendLive sample.ts sample.drawn (w.range.seconds / livePointsPerWindow) }

def update (w : Widget V) (sample : LiveSample V) : Widget V :=
  if w.loaded then w.applyLive sample else { w with pending := w.pending ++ [sample] }

/-- `setRange`, and the request of `loadHistory`. -/
def setRange (w : Widget V) (next : Range) : Widget V :=
  if next = w.range ∧ w.loaded then w
  else { w with range := next, loadSeq := w.loadSeq + 1, loaded := false }

/-- The series of an answer. -/
def loadedSeries (parse : String → Option ℚ) (w : Widget V) (results : Results V) :
    List (SeriesData V) :=
  w.points.map fun point ↦
    match results point with
    | some items => historyToSeries parse items
    | none => emptySeries

/-- The answer to a request, in `loadHistory`: that of a request before the last is ignored, and a
request is answered once. -/
def answer (parse : String → Option ℚ) (w : Widget V) (seq : ℕ) (results : Results V) : Widget V :=
  if seq ≠ w.loadSeq ∨ w.loaded then w
  else
    w.pending.foldl applyLive
      { w with series := w.loadedSeries parse results, loaded := true, pending := [] }

/-- `draw`. -/
def draw (w : Widget V) : Widget V :=
  let series := w.series.map (·.trimBefore w.windowStart)
  { w with series := series, legend := series.map SeriesData.lastPoint }

end Widget

/-- What happens. -/
inductive Event (V : Type)
  | sample (sample : LiveSample V)
  | setRange (next : Range)
  | answer (seq : ℕ) (results : Results V)
  | draw

/-- An event, and the milliseconds since the one before. -/
def Widget.step (parse : String → Option ℚ) (w : Widget V) (e : Event V × ℕ) : Widget V :=
  let w := { w with now := w.now + e.2 }
  match e.1 with
  | .sample sample => w.update sample
  | .setRange next => w.setRange next
  | .answer seq results => w.answer parse seq results
  | .draw => w.draw

/-! ## What the user has seen -/

/-- A curve goes as far as an instant. -/
def SeriesData.Reaches (s : SeriesData V) (T : ℚ) : Prop := ∃ t, s.t.getLast? = some t ∧ T ≤ t

/-- A curve ends with a sample, or later. -/
def SeriesData.EndsWith (s : SeriesData V) (ts : ℚ) (value : Option V) : Prop :=
  ∃ t v, s.lastPoint = some (t, v) ∧ ts ≤ t ∧ (t = ts → v = value)

/-- The answer for a point goes as far as an instant, or a sample received does. -/
def Goes (parse : String → Option ℚ) (points : List String) (received : List (LiveSample V))
    (results : Results V) (i : ℕ) (T : ℚ) : Prop :=
  ∃ point, points[i]? = some point ∧
    ((∃ items ∈ results point, ∃ item ∈ items, ∃ ms ∈ parse item.ts, T ≤ ms / 1000) ∨
      ∃ sample ∈ received, points.idxOf sample.point = i ∧ T ≤ sample.ts)

/-- A widget, and what happened to it. -/
structure Watched (V : Type) where
  widget : Widget V
  /-- The instant of the last value that the legend has shown of each point, until it leaves the
  window. -/
  shown : List (Option ℚ)
  /-- The last request that was answered while no other had been made. -/
  answered : ℕ
  /-- The samples received since, while a request was pending. -/
  received : List (LiveSample V)

namespace Watched

/-- The last request is answered. -/
def Accepts (s : Watched V) (seq : ℕ) : Prop := seq = s.widget.loadSeq ∧ s.answered ≠ seq

instance (s : Watched V) (seq : ℕ) : Decidable (s.Accepts seq) :=
  inferInstanceAs (Decidable (_ ∧ _))

variable (parse : String → Option ℚ)

def step (s : Watched V) (e : Event V × ℕ) : Watched V :=
  let w := s.widget.step parse e
  let shown :=
    match e.1 with
    | .draw => w.legend.map (Option.map Prod.fst)
    | .sample _ | .setRange _ | .answer _ _ => s.shown
  { widget := w
    shown := shown.map (Option.filter fun t ↦ w.windowStart ≤ t)
    answered :=
      match e.1 with
      | .answer seq _ => if s.Accepts seq then seq else s.answered
      | .sample _ | .setRange _ | .draw => s.answered
    received :=
      match e.1 with
      | .sample sample =>
        if s.answered = s.widget.loadSeq then s.received else s.received ++ [sample]
      | .answer seq _ => if s.Accepts seq then [] else s.received
      | .setRange _ | .draw => s.received }

/-- `render`, which requests the history. -/
def start (points : List String) (range : Range) (now : ℕ) : Watched V :=
  ⟨.render points range now, points.map fun _ ↦ none, 0, []⟩

def run (points : List String) (range : Range) (now : ℕ) (events : List (Event V × ℕ)) :
    Watched V :=
  events.foldl (step parse) (start points range now)

/-- Whenever the widget is drawn next, what it has shown of a point is not newer than what it shows,
unless it has left the window. -/
def Forward (s : Watched V) : Prop :=
  ∀ (elapsed i : ℕ) (T : ℚ), s.shown[i]? = some (some T) →
    let w := s.widget.step parse (.draw, elapsed)
    w.windowStart ≤ T → ∃ t v, w.legend[i]? = some (some (t, v)) ∧ T ≤ t

/-- When the last request is answered, the curve of a sample received meanwhile ends with it, or
later, if the later samples of its point have later instants. -/
def LosesNone (s : Watched V) : Event V × ℕ → Prop
  | (.answer seq results, elapsed) => s.Accepts seq →
    ∀ before sample after, s.received = before ++ sample :: after →
      (∀ later ∈ after, later.point = sample.point → sample.ts < later.ts) →
        sample.point ∈ s.widget.points →
          ∃ series, (s.widget.step parse (.answer seq results, elapsed)).series[
              s.widget.points.idxOf sample.point]? = some series ∧
            series.EndsWith sample.ts sample.drawn
  | (.sample _, _) | (.setRange _, _) | (.draw, _) => True

/-- The answer to the last request goes, with the samples received meanwhile, as far as what has
been shown of each point and is in the window. -/
def Covers (s : Watched V) : Event V × ℕ → Prop
  | (.answer seq results, elapsed) => s.Accepts seq →
    ∀ (i : ℕ) (T : ℚ), s.shown[i]? = some (some T) →
      ({ s.widget with now := s.widget.now + elapsed } : Widget V).windowStart ≤ T →
        Goes parse s.widget.points s.received results i T
  | (.sample _, _) | (.setRange _, _) | (.draw, _) => True

end Watched

/-! ## The end of a curve -/

namespace SeriesData

variable {s : SeriesData V} {t T minGap minT : ℚ} {value : Option V}

theorem reaches_appendLive :
    (s.appendLive t value minGap).Reaches T ↔ s.Reaches T ∨ T ≤ t := by
  have hlast : ∀ {u : SeriesData V} {front : List ℚ} {x : ℚ}, u.t = front ++ [x] →
      (u.Reaches T ↔ T ≤ x) := by
    intro u front x hu
    rw [Reaches, hu, List.getLast?_concat]
    exact ⟨fun ⟨t, ht, hle⟩ ↦ Option.some.inj ht ▸ hle, fun hle ↦ ⟨x, rfl, hle⟩⟩
  rcases appendLive_cases s t value minGap with ⟨front, lastT, hfront, hlt, hout⟩ |
    ⟨front, hfront, hout⟩ | ⟨front, lastT, hfront, hlt, -, -, hout⟩ | ⟨hend, hout⟩
  · rw [hout, hlast hfront]
    exact ⟨.inl, fun h ↦ h.elim id fun hle ↦ hle.trans hlt.le⟩
  · have hset := hlast (u := { s with v := s.v.set front.length value }) hfront
    rw [hout, hset, hlast hfront, or_self]
  · have hset := hlast
      (u := { s with t := front ++ [t], v := s.v.set front.length value }) rfl
    rw [hout, hset, hlast hfront]
    exact ⟨.inr, fun h ↦ h.elim (fun hle ↦ hle.trans hlt.le) id⟩
  · rw [hout, hlast (u := s.push t value) rfl]
    refine ⟨.inr, fun h ↦ h.elim (fun ⟨x, hx, hle⟩ ↦ ?_) id⟩
    obtain ⟨front, hfront⟩ := List.getLast?_eq_some_iff.mp hx
    exact hle.trans (hend front x hfront).1.le

theorem lastPoint_of_concat {front : List ℚ} {x : ℚ} (h : s.t = front ++ [x]) :
    s.lastPoint = some (x, s.v[front.length]?.join) := by
  rw [lastPoint, h, List.getLast?_concat, List.length_append, List.length_singleton,
    Nat.add_sub_cancel]
  rfl

theorem endsWith_appendLive (hlength : s.v.length = s.t.length) :
    (s.appendLive t value minGap).EndsWith t value := by
  have hset : ∀ {front : List ℚ} {x : ℚ}, s.t = front ++ [x] →
      ((s.v.set front.length value)[front.length]?).join = value := by
    intro front x hfront
    have hlt : front.length < s.v.length := by
      rw [hlength, hfront, List.length_append]
      exact Nat.lt_succ_self _
    rw [List.getElem?_set_self hlt]
    rfl
  rcases appendLive_cases s t value minGap with ⟨front, lastT, hfront, hlt, hout⟩ |
    ⟨front, hfront, hout⟩ | ⟨front, lastT, hfront, hlt, -, -, hout⟩ | ⟨-, hout⟩
  · rw [hout]
    exact ⟨lastT, _, lastPoint_of_concat hfront, hlt.le, fun heq ↦ absurd heq hlt.ne'⟩
  · rw [hout]
    exact ⟨t, _, lastPoint_of_concat hfront, le_refl t, fun _ ↦ hset hfront⟩
  · rw [hout]
    exact ⟨t, _, lastPoint_of_concat rfl, le_refl t, fun _ ↦ hset hfront⟩
  · rw [hout]
    refine ⟨t, _, lastPoint_of_concat rfl, le_refl t, fun _ ↦ ?_⟩
    rw [push, ← hlength, List.getElem?_concat_length]
    rfl

theorem endsWith_of_later {ts : ℚ} {value' : Option V} (hlt : ts < t)
    (hlength : s.v.length = s.t.length) : (s.appendLive t value minGap).EndsWith ts value' := by
  have hend : (s.appendLive t value minGap).EndsWith t value := endsWith_appendLive hlength
  obtain ⟨lt, lv, hlast, hle, -⟩ := hend
  exact ⟨lt, lv, hlast, hlt.le.trans hle, fun heq ↦ absurd (heq ▸ hle) (not_le.mpr hlt)⟩

theorem length_appendLive (hlength : s.v.length = s.t.length) :
    (s.appendLive t value minGap).v.length = (s.appendLive t value minGap).t.length := by
  rcases appendLive_cases s t value minGap with ⟨front, lastT, hfront, -, hout⟩ |
    ⟨front, hfront, hout⟩ | ⟨front, lastT, hfront, -, -, -, hout⟩ | ⟨-, hout⟩
  · rw [hout, hlength]
  · rw [hout]
    exact (List.length_set ..).trans hlength
  · rw [hout]
    refine (List.length_set ..).trans ?_
    rw [hlength, hfront, List.length_append, List.length_append]
    rfl
  · rw [hout, push, List.length_append, List.length_append, hlength]
    rfl

/-- What is trimmed is not the end of a curve that goes on in the window. -/
theorem exists_lastPoint_trimBefore (hmin : minT ≤ T) :
    (∃ t v, (s.trimBefore minT).lastPoint = some (t, v) ∧ T ≤ t) ↔ s.Reaches T := by
  have hlast : ∀ {t}, (s.trimBefore minT).t.getLast? = some t ↔ s.t.getLast? = some t ∧
      s.t.dropWhile (· < minT) ≠ [] := by
    intro t
    have happend : s.t.takeWhile (· < minT) ++ s.t.dropWhile (· < minT) = s.t :=
      List.takeWhile_append_dropWhile
    rw [t_trimBefore]
    cases hrest : s.t.dropWhile (· < minT) with
    | nil => simp
    | cons x rest =>
      rw [hrest] at happend
      rw [← happend, List.getLast?_append_of_ne_nil _ (List.cons_ne_nil x rest)]
      simp
  constructor
  · rintro ⟨t, v, hpoint, hle⟩
    obtain ⟨t', ht, heq⟩ := Option.map_eq_some_iff.mp hpoint
    obtain rfl := (Prod.mk.inj heq).1
    exact ⟨t', (hlast.mp ht).1, hle⟩
  · rintro ⟨t, ht, hle⟩
    have hne : s.t.dropWhile (· < minT) ≠ [] := by
      intro hnil
      have hmem : t ∈ s.t := List.mem_of_getLast? ht
      have hlt := of_decide_eq_true (List.dropWhile_eq_nil_iff.mp hnil t hmem)
      exact absurd (hmin.trans hle) (not_le.mpr hlt)
    rw [lastPoint, hlast.mpr ⟨ht, hne⟩]
    exact ⟨t, _, rfl, hle⟩

end SeriesData

/-! ## The curve of an answer -/

theorem mem_keys_insert {d : OrderedDict ℚ (Option V)} {key t : ℚ} {value : Option V} :
    t ∈ (d.insert key value).entries.map Prod.fst ↔ t = key ∨ t ∈ d.entries.map Prod.fst := by
  have hmem (d : OrderedDict ℚ (Option V)) :
      t ∈ d.entries.map Prod.fst ↔ d.get? t ≠ none := by
    rw [ne_eq, OrderedDict.get?_eq_none_iff, not_not]
  rw [hmem, hmem]
  by_cases heq : t = key
  · subst heq
    simp
  · rw [OrderedDict.get?_insert_of_ne heq, or_iff_right heq]

theorem mem_historyToSeries (parse : String → Option ℚ) (items : List (HistoryItem V)) (t : ℚ) :
    t ∈ (historyToSeries parse items).t ↔ ∃ item ∈ items, ∃ ms ∈ parse item.ts, t = ms / 1000 := by
  have hkeys : t ∈ (pointsOf parse items).entries.map Prod.fst ↔
      ∃ item ∈ items, ∃ ms ∈ parse item.ts, t = ms / 1000 := by
    induction items using List.reverseRecOn with
    | nil => simp [pointsOf, OrderedDict.empty]
    | append_singleton items item ih =>
      rw [pointsOf, List.foldl_concat, ← pointsOf]
      cases hparse : parse item.ts with
      | none => simp [ih, hparse]
      | some ms =>
        dsimp only
        rw [mem_keys_insert, ih]
        simp only [List.mem_append, List.mem_singleton, or_and_right, exists_or, exists_eq_left,
          hparse, Option.mem_some_iff, exists_eq_left', or_comm]
  rw [historyToSeries, List.mem_mergeSort, hkeys]

theorem reaches_historyToSeries (parse : String → Option ℚ) (items : List (HistoryItem V)) (T : ℚ) :
    (historyToSeries parse items).Reaches T ↔
      ∃ item ∈ items, ∃ ms ∈ parse item.ts, T ≤ ms / 1000 := by
  have hsound : Sound 0 (historyToSeries parse items).t (historyToSeries parse items) :=
    sound_historyToSeries parse items
  have hincreasing := hsound.increasing
  constructor
  · rintro ⟨t, ht, hle⟩
    obtain ⟨item, hitem, ms, hms, rfl⟩ :=
      (mem_historyToSeries parse items t).mp (List.mem_of_getLast? ht)
    exact ⟨item, hitem, ms, hms, hle⟩
  · rintro ⟨item, hitem, ms, hms, hle⟩
    have hmem := (mem_historyToSeries parse items (ms / 1000)).mpr ⟨item, hitem, ms, hms, rfl⟩
    rcases List.eq_nil_or_concat' (historyToSeries parse items).t with hnil | ⟨front, last, hlast⟩
    · rw [hnil] at hmem
      exact absurd hmem List.not_mem_nil
    · rw [hlast] at hmem hincreasing
      refine ⟨last, by rw [hlast, List.getLast?_concat], hle.trans ?_⟩
      exact Increasing.le_of_mem_concat hincreasing hmem

/-! ## The curves of the widget -/

namespace Widget

variable {w : Widget V} {i : ℕ} {T : ℚ}

/-- The curve of a point goes as far as an instant. -/
def Reaches (w : Widget V) (i : ℕ) (T : ℚ) : Prop :=
  ∃ series, w.series[i]? = some series ∧ series.Reaches T

theorem getElem?_applyLive (w : Widget V) (sample : LiveSample V) (i : ℕ) :
    (w.applyLive sample).series[i]? = (w.series[i]?).map fun target ↦
      if w.points.idxOf sample.point = i then
        target.appendLive sample.ts sample.drawn (w.range.seconds / livePointsPerWindow)
      else target := List.getElem?_modify ..

theorem reaches_applyLive (sample : LiveSample V) :
    (w.applyLive sample).Reaches i T ↔ w.Reaches i T ∨
      w.points.idxOf sample.point = i ∧ i < w.series.length ∧ T ≤ sample.ts := by
  rw [Reaches, Reaches, getElem?_applyLive]
  by_cases hi : w.points.idxOf sample.point = i
  · simp only [hi, if_true]
    cases hseries : w.series[i]? with
    | none =>
      have hlength := List.getElem?_eq_none_iff.mp hseries
      simp [hlength]
    | some series =>
      have hlength := (List.getElem?_eq_some_iff.mp hseries).1
      simp [hlength, SeriesData.reaches_appendLive]
  · simp [hi]

theorem reaches_foldl (samples : List (LiveSample V)) (w : Widget V) :
    (samples.foldl applyLive w).Reaches i T ↔ w.Reaches i T ∨
      i < w.series.length ∧
        ∃ sample ∈ samples, w.points.idxOf sample.point = i ∧ T ≤ sample.ts := by
  induction samples generalizing w with
  | nil => simp
  | cons sample samples ih =>
    have hlength : (w.applyLive sample).series.length = w.series.length := List.length_modify ..
    rw [List.foldl_cons, ih, reaches_applyLive, hlength]
    simp only [List.mem_cons, exists_eq_or_imp]
    change _ ∨ _ ∧ (∃ x ∈ samples, w.points.idxOf x.point = i ∧ T ≤ x.ts) ↔ _
    tauto

theorem reaches_loadedSeries (parse : String → Option ℚ) (results : Results V) :
    (∃ series, (w.loadedSeries parse results)[i]? = some series ∧ series.Reaches T) ↔
      ∃ point, w.points[i]? = some point ∧
        ∃ items ∈ results point, ∃ item ∈ items, ∃ ms ∈ parse item.ts, T ≤ ms / 1000 := by
  rw [loadedSeries, List.getElem?_map]
  cases w.points[i]? with
  | none => simp
  | some point =>
    rw [Option.map_some]
    cases hresults : results point with
    | none => simp [hresults, SeriesData.Reaches, emptySeries]
    | some items => simp [hresults, reaches_historyToSeries]

/-- **How far an accepted answer goes.** -/
theorem reaches_answer (parse : String → Option ℚ) {seq : ℕ} (results : Results V)
    (hseq : seq = w.loadSeq) (hloaded : w.loaded = false) :
    (w.answer parse seq results).Reaches i T ↔ Goes parse w.points w.pending results i T := by
  have hlength : (w.loadedSeries parse results).length = w.points.length := List.length_map _
  rw [answer, if_neg (by simp [hseq, hloaded]), reaches_foldl, Goes, Reaches,
    reaches_loadedSeries, hlength]
  cases hpoint : w.points[i]? with
  | none =>
    have hle := List.getElem?_eq_none_iff.mp hpoint
    simp [hle]
  | some point =>
    have hlt := (List.getElem?_eq_some_iff.mp hpoint).1
    simp [hlt]

/-! ## Pending samples -/

/-- Each instant has a value. -/
def Even (w : Widget V) : Prop :=
  ∀ (i : ℕ) (series : SeriesData V), w.series[i]? = some series → series.v.length = series.t.length

theorem Even.applyLive (h : w.Even) (sample : LiveSample V) : (w.applyLive sample).Even := by
  intro i series hseries
  rw [getElem?_applyLive] at hseries
  obtain ⟨series', hseries', rfl⟩ := Option.map_eq_some_iff.mp hseries
  split
  · exact SeriesData.length_appendLive (h i series' hseries')
  · exact h i series' hseries'

theorem even_foldl (samples : List (LiveSample V)) (h : w.Even) :
    (samples.foldl Widget.applyLive w).Even := by
  induction samples generalizing w with
  | nil => exact h
  | cons sample samples ih => exact ih (h.applyLive sample)

theorem even_loadedSeries (parse : String → Option ℚ) (results : Results V) (loaded : Bool)
    (pending : List (LiveSample V)) :
    ({ w with series := w.loadedSeries parse results, loaded := loaded, pending := pending } :
      Widget V).Even := by
  intro i series hseries
  have hmem : series ∈ w.loadedSeries parse results := List.mem_of_getElem? hseries
  obtain ⟨point, -, rfl⟩ := List.mem_map.mp hmem
  cases results point with
  | none => rfl
  | some items => exact List.length_map _

/-- The curve of a point ends with a sample, or later. -/
def EndsWith (w : Widget V) (i : ℕ) (ts : ℚ) (value : Option V) : Prop :=
  ∃ series, w.series[i]? = some series ∧ series.EndsWith ts value

theorem endsWith_applyLive (h : w.Even) (sample : LiveSample V)
    (hindex : w.points.idxOf sample.point < w.series.length) :
    (w.applyLive sample).EndsWith (w.points.idxOf sample.point) sample.ts sample.drawn := by
  rw [EndsWith, getElem?_applyLive, List.getElem?_eq_getElem hindex, Option.map_some, if_pos rfl]
  exact ⟨_, rfl, SeriesData.endsWith_appendLive (h _ _ (List.getElem?_eq_getElem hindex))⟩

/-- The samples of other points leave the curve, and later samples of this one end later. -/
theorem EndsWith.applyLive {ts : ℚ} {value : Option V} (hends : w.EndsWith i ts value)
    (h : w.Even) {sample : LiveSample V}
    (hlater : w.points.idxOf sample.point = i → ts < sample.ts) :
    (w.applyLive sample).EndsWith i ts value := by
  obtain ⟨series, hseries, hends⟩ := hends
  rw [EndsWith, getElem?_applyLive, hseries, Option.map_some]
  refine ⟨_, rfl, ?_⟩
  split
  · exact SeriesData.endsWith_of_later (hlater ‹_›) (h i series hseries)
  · exact hends

theorem EndsWith.foldl {ts : ℚ} {value : Option V} {samples : List (LiveSample V)}
    (hends : w.EndsWith i ts value) (h : w.Even)
    (hlater : ∀ later ∈ samples, w.points.idxOf later.point = i → ts < later.ts) :
    (samples.foldl Widget.applyLive w).EndsWith i ts value := by
  induction samples generalizing w with
  | nil => exact hends
  | cons sample samples ih =>
    refine ih (hends.applyLive h (hlater sample List.mem_cons_self)) (h.applyLive sample) ?_
    exact fun later hmem ↦ hlater later (List.mem_cons_of_mem _ hmem)

theorem foldl_applyLive (samples : List (LiveSample V)) (w : Widget V) :
    samples.foldl applyLive w = { w with series := (samples.foldl applyLive w).series } := by
  induction samples generalizing w with
  | nil => rfl
  | cons sample samples ih => exact ih (w.applyLive sample)

theorem length_foldl (samples : List (LiveSample V)) (w : Widget V) :
    (samples.foldl applyLive w).series.length = w.series.length := by
  induction samples generalizing w with
  | nil => rfl
  | cons sample samples ih => exact (ih (w.applyLive sample)).trans (List.length_modify ..)

/-- **No pending sample is lost.** -/
theorem endsWith_answer (parse : String → Option ℚ) {seq : ℕ} (results : Results V)
    (hseq : seq = w.loadSeq) (hloaded : w.loaded = false) {before after : List (LiveSample V)}
    {sample : LiveSample V} (hpending : w.pending = before ++ sample :: after)
    (hlater : ∀ later ∈ after, later.point = sample.point → sample.ts < later.ts)
    (hpoint : sample.point ∈ w.points) :
    (w.answer parse seq results).EndsWith (w.points.idxOf sample.point) sample.ts
      sample.drawn := by
  rw [answer, if_neg (by simp [hseq, hloaded]), hpending, List.foldl_append, List.foldl_cons]
  have heven := even_foldl before (even_loadedSeries (w := w) parse results true [])
  have hpoints := congrArg Widget.points (foldl_applyLive before
    { w with series := w.loadedSeries parse results, loaded := true, pending := [] })
  have hlength := length_foldl before
    { w with series := w.loadedSeries parse results, loaded := true, pending := [] }
  have hindex := List.idxOf_lt_length_of_mem hpoint
  have hends := endsWith_applyLive heven sample (by
    rw [hpoints, hlength, loadedSeries, List.length_map]
    exact hindex)
  rw [hpoints] at hends
  refine hends.foldl (heven.applyLive sample) fun later hmem hindex' ↦ hlater later hmem ?_
  -- the index of a point tells it from others
  have hindex'' : w.points.idxOf later.point = w.points.idxOf sample.point := by
    rw [← hindex']
    exact congrArg (List.idxOf later.point) hpoints.symm
  have hmem' : later.point ∈ w.points := List.idxOf_lt_length_iff.mp (hindex'' ▸ hindex)
  exact (List.idxOf_inj hmem').mp hindex''

theorem legend_draw (hstart : w.windowStart ≤ T) :
    (∃ t v, w.draw.legend[i]? = some (some (t, v)) ∧ T ≤ t) ↔ w.Reaches i T := by
  rw [draw, Reaches]
  dsimp only
  rw [List.map_map, List.getElem?_map]
  cases w.series[i]? with
  | none => simp
  | some series =>
    simp only [Option.map_some, Option.some.injEq, exists_eq_left', Function.comp_apply]
    exact SeriesData.exists_lastPoint_trimBefore hstart

theorem reaches_draw (h : (w.draw.legend.map (Option.map Prod.fst))[i]? = some (some T)) :
    w.draw.Reaches i T := by
  rw [draw] at h ⊢
  rw [Reaches]
  dsimp only at h ⊢
  rw [List.getElem?_map, List.getElem?_map, Option.map_map] at h
  obtain ⟨series, hseries, hlast⟩ := Option.map_eq_some_iff.mp h
  refine ⟨series, hseries, T, ?_, le_refl T⟩
  rw [Function.comp_apply, SeriesData.lastPoint, Option.map_map] at hlast
  exact (Option.map_id' (α := ℚ)).symm.trans hlast

end Widget

/-! ## What has been shown -/

namespace Watched

variable {parse : String → Option ℚ} {s : Watched V} {e : Event V × ℕ}

/-- The curves go as far as what has been shown. -/
def Kept (s : Watched V) : Prop :=
  ∀ (i : ℕ) (T : ℚ), s.shown[i]? = some (some T) → s.widget.Reaches i T

/-- The widget keeps the samples received while a request is pending. -/
structure Tracks (s : Watched V) : Prop where
  loaded : s.widget.loaded = decide (s.answered = s.widget.loadSeq)
  pending : s.widget.pending = s.received
  le : s.answered ≤ s.widget.loadSeq

/-- What has been shown is in the window. -/
def InWindow (s : Watched V) : Prop :=
  ∀ (i : ℕ) (T : ℚ), s.shown[i]? = some (some T) → s.widget.windowStart ≤ T

theorem forward_iff_kept (h : s.InWindow) : s.Forward parse ↔ s.Kept := by
  constructor
  · intro hforward i T hshown
    have hstart := h i T hshown
    exact (Widget.legend_draw hstart).mp (hforward 0 i T hshown hstart)
  · intro hkept elapsed i T hshown w hstart
    exact (Widget.legend_draw (w := { s.widget with now := s.widget.now + elapsed }) hstart).mpr
      (hkept i T hshown)

theorem getElem?_filter {p : ℚ → Bool} {shown : List (Option ℚ)} {i : ℕ} {T : ℚ} :
    (shown.map (Option.filter p))[i]? = some (some T) ↔ shown[i]? = some (some T) ∧ p T := by
  rw [List.getElem?_map, Option.map_eq_some_iff]
  constructor
  · rintro ⟨shown, hshown, hfilter⟩
    obtain ⟨rfl, hp⟩ := Option.filter_eq_some_iff.mp hfilter
    exact ⟨hshown, hp⟩
  · rintro ⟨hshown, hp⟩
    exact ⟨some T, hshown, Option.filter_eq_some_iff.mpr ⟨rfl, hp⟩⟩

theorem inWindow_step (s : Watched V) (e : Event V × ℕ) : (s.step parse e).InWindow := by
  intro i T hshown
  exact of_decide_eq_true (getElem?_filter.mp hshown).2

theorem Tracks.accepts_iff (h : s.Tracks) {seq : ℕ} :
    s.Accepts seq ↔ seq = s.widget.loadSeq ∧ s.widget.loaded = false := by
  rw [Accepts, h.loaded, decide_eq_false_iff_not]
  exact and_congr_right fun hseq ↦ by rw [hseq]

theorem Tracks.ignored (h : s.Tracks) {seq : ℕ} (haccepts : ¬s.Accepts seq) (results : Results V)
    (elapsed : ℕ) : (s.step parse (.answer seq results, elapsed)).widget =
      { s.widget with now := s.widget.now + elapsed } := by
  refine if_pos ?_
  rw [h.accepts_iff] at haccepts
  rw [Decidable.or_iff_not_not_and_not]
  simpa using haccepts

theorem tracks_start (points : List String) (range : Range) (now : ℕ) :
    (start points range now : Watched V).Tracks := ⟨rfl, rfl, Nat.zero_le 1⟩

theorem Tracks.congr {t : Watched V} (h : s.Tracks) (hloaded : t.widget.loaded = s.widget.loaded)
    (hpending : t.widget.pending = s.widget.pending) (hseq : t.widget.loadSeq = s.widget.loadSeq)
    (hanswered : t.answered = s.answered) (hreceived : t.received = s.received) : t.Tracks where
  loaded := by rw [hloaded, hanswered, hseq, h.loaded]
  pending := by rw [hpending, hreceived, h.pending]
  le := by rw [hanswered, hseq]; exact h.le

theorem Tracks.sample (h : s.Tracks) (sample : LiveSample V) (elapsed : ℕ) :
    (s.step parse (.sample sample, elapsed)).Tracks := by
  by_cases hanswered : s.answered = s.widget.loadSeq
  · have hwidget : (s.step parse (.sample sample, elapsed)).widget =
        ({ s.widget with now := s.widget.now + elapsed } : Widget V).applyLive sample :=
      if_pos (h.loaded.trans (decide_eq_true hanswered))
    have hreceived : (s.step parse (.sample sample, elapsed)).received = s.received :=
      if_pos hanswered
    refine h.congr ?_ ?_ ?_ rfl hreceived <;> rw [hwidget] <;> rfl
  · have hwidget : (s.step parse (.sample sample, elapsed)).widget =
        { s.widget with
          now := s.widget.now + elapsed
          pending := s.widget.pending ++ [sample] } :=
      if_neg (ne_true_of_eq_false (h.loaded.trans (decide_eq_false hanswered)))
    have hreceived : (s.step parse (.sample sample, elapsed)).received =
        s.received ++ [sample] := if_neg hanswered
    refine ⟨?_, ?_, ?_⟩
    · rw [hwidget]
      exact h.loaded
    · rw [hwidget, hreceived, ← h.pending]
    · rw [hwidget]
      exact h.le

/-- A request that is made is the last one, and has no answer yet. -/
theorem Tracks.setRange (h : s.Tracks) (next : Range) (elapsed : ℕ) :
    (s.step parse (.setRange next, elapsed)).Tracks := by
  have hcases : (s.step parse (.setRange next, elapsed)).widget =
      { s.widget with now := s.widget.now + elapsed } ∨
    (s.step parse (.setRange next, elapsed)).widget =
      { s.widget with
        now := s.widget.now + elapsed
        range := next
        loadSeq := s.widget.loadSeq + 1
        loaded := false } := ite_eq_or_eq _ _ _
  rcases hcases with hwidget | hwidget
  · refine h.congr ?_ ?_ ?_ rfl rfl <;> rw [hwidget]
  · refine ⟨?_, ?_, ?_⟩ <;> rw [hwidget]
    · exact (decide_eq_false (Nat.ne_of_lt (Nat.lt_succ_of_le h.le))).symm
    · exact h.pending
    · exact Nat.le_succ_of_le h.le

theorem Tracks.answer (h : s.Tracks) (seq : ℕ) (results : Results V) (elapsed : ℕ) :
    (s.step parse (.answer seq results, elapsed)).Tracks := by
  by_cases haccepts : s.Accepts seq
  · obtain ⟨hseq, hfalse⟩ := h.accepts_iff.mp haccepts
    have hwidget : ∃ series, (s.step parse (.answer seq results, elapsed)).widget =
        { s.widget with
          now := s.widget.now + elapsed
          series := series
          loaded := true
          pending := [] } :=
      ⟨_, (if_neg (by simp [hseq, hfalse])).trans (Widget.foldl_applyLive _ _)⟩
    have hanswered : (s.step parse (.answer seq results, elapsed)).answered = seq :=
      if_pos haccepts
    have hreceived : (s.step parse (.answer seq results, elapsed)).received = [] :=
      if_pos haccepts
    obtain ⟨series, hwidget⟩ := hwidget
    refine ⟨?_, ?_, ?_⟩
    · rw [hwidget, hanswered]
      exact (decide_eq_true hseq).symm
    · rw [hwidget, hreceived]
    · rw [hwidget, hanswered]
      exact hseq.le
  · have hwidget : (s.step parse (.answer seq results, elapsed)).widget = _ :=
      h.ignored haccepts results elapsed
    have hanswered : (s.step parse (.answer seq results, elapsed)).answered = s.answered :=
      if_neg haccepts
    have hreceived : (s.step parse (.answer seq results, elapsed)).received = s.received :=
      if_neg haccepts
    refine h.congr ?_ ?_ ?_ hanswered hreceived <;> rw [hwidget]

theorem Tracks.step (h : s.Tracks) (e : Event V × ℕ) : (s.step parse e).Tracks := by
  obtain ⟨e, elapsed⟩ := e
  cases e with
  | sample sample => exact h.sample sample elapsed
  | setRange next => exact h.setRange next elapsed
  | draw => exact h.congr rfl rfl rfl rfl rfl
  | answer seq results => exact h.answer seq results elapsed

/-- **One event**: the curves still go as far as what has been shown if and only if an accepted
answer does. -/
theorem Kept.step_iff (h : s.Kept) (htracks : s.Tracks) :
    (s.step parse e).Kept ↔ s.Covers parse e := by
  obtain ⟨e, elapsed⟩ := e
  -- a clock that advances leaves the curves
  -- a sample, a range and a drawing take nothing away from the window
  cases e with
  | sample sample =>
    refine iff_of_true (fun i T hshown ↦ ?_) trivial
    have hreaches := h i T (getElem?_filter.mp hshown).1
    change (Widget.update _ sample).Reaches i T
    rw [Widget.update]
    split
    · exact (Widget.reaches_applyLive sample).mpr (.inl hreaches)
    · exact hreaches
  | setRange next =>
    refine iff_of_true (fun i T hshown ↦ ?_) trivial
    have hreaches := h i T (getElem?_filter.mp hshown).1
    change (Widget.setRange _ next).Reaches i T
    rw [Widget.setRange]
    split <;> exact hreaches
  | draw =>
    refine iff_of_true (fun i T hshown ↦ ?_) trivial
    exact Widget.reaches_draw (w := { s.widget with now := s.widget.now + elapsed })
      (getElem?_filter.mp hshown).1
  | answer seq results =>
    -- an accepted answer replaces the series; another one changes nothing
    by_cases haccepts : s.Accepts seq
    · obtain ⟨hseq, hloaded⟩ := htracks.accepts_iff.mp haccepts
      have hreaches (i : ℕ) (T : ℚ) :
          (s.step parse (.answer seq results, elapsed)).widget.Reaches i T ↔
            Goes parse s.widget.points s.received results i T := by
        rw [← htracks.pending]
        exact Widget.reaches_answer (w := { s.widget with now := s.widget.now + elapsed }) parse
          results hseq hloaded
      have hstart : (s.step parse (.answer seq results, elapsed)).widget.windowStart =
          ({ s.widget with now := s.widget.now + elapsed } : Widget V).windowStart := by
        change (Widget.answer parse _ seq results).windowStart = _
        rw [Widget.answer, if_neg (by simp [hseq, hloaded]), Widget.foldl_applyLive]
        rfl
      constructor
      · intro hkept _ i T hshown hle
        refine (hreaches i T).mp (hkept i T (getElem?_filter.mpr ⟨hshown, ?_⟩))
        exact decide_eq_true (hstart ▸ hle)
      · intro hcovers i T hshown
        obtain ⟨hshown, hle⟩ := getElem?_filter.mp hshown
        exact (hreaches i T).mpr (hcovers haccepts i T hshown (hstart ▸ of_decide_eq_true hle))
    · refine iff_of_true (fun i T hshown ↦ ?_) fun h ↦ absurd h haccepts
      rw [htracks.ignored haccepts]
      exact h i T (getElem?_filter.mp hshown).1

theorem Tracks.losesNone (h : s.Tracks) (e : Event V × ℕ) : s.LosesNone parse e := by
  obtain ⟨e, elapsed⟩ := e
  cases e with
  | answer seq results =>
    intro haccepts before sample after hreceived hlater hpoint
    obtain ⟨hseq, hloaded⟩ := h.accepts_iff.mp haccepts
    exact Widget.endsWith_answer (w := { s.widget with now := s.widget.now + elapsed }) parse
      results hseq hloaded (h.pending.trans hreceived) hlater hpoint
  | sample sample => exact trivial
  | setRange next => exact trivial
  | draw => exact trivial

theorem kept_start (points : List String) (range : Range) (now : ℕ) :
    (start points range now : Watched V).Kept ∧
      (start points range now : Watched V).InWindow := by
  have hnone : ∀ (i : ℕ) (T : ℚ), (points.map fun _ ↦ (none : Option ℚ))[i]? ≠ some (some T) := by
    intro i T hshown
    rw [List.getElem?_map] at hshown
    obtain ⟨_, _, heq⟩ := Option.map_eq_some_iff.mp hshown
    exact absurd heq.symm (Option.some_ne_none T)
  exact ⟨fun i T hshown ↦ absurd hshown (hnone i T), fun i T hshown ↦ absurd hshown (hnone i T)⟩

end Watched

theorem inWindow_run (parse : String → Option ℚ) (points : List String) (range : Range) (now : ℕ)
    (events : List (Event V × ℕ)) : (Watched.run parse points range now events).InWindow := by
  induction events using List.reverseRecOn with
  | nil => exact (Watched.kept_start points range now).2
  | append_singleton past e _ =>
    rw [Watched.run, List.foldl_concat]
    exact Watched.inWindow_step _ _

theorem tracks_run (parse : String → Option ℚ) (points : List String) (range : Range) (now : ℕ)
    (events : List (Event V × ℕ)) : (Watched.run parse points range now events).Tracks := by
  induction events using List.reverseRecOn with
  | nil => exact Watched.tracks_start points range now
  | append_singleton past e ih =>
    rw [Watched.run, List.foldl_concat]
    exact ih.step e

/-! ## Sessions -/

/-- The trend never goes back, and loses no sample received while a request is pending. -/
def NeverBack (parse : String → Option ℚ) (points : List String) (range : Range) (now : ℕ)
    (events : List (Event V × ℕ)) : Prop :=
  (∀ past, past <+: events → (Watched.run parse points range now past).Forward parse) ∧
    ∀ past e, past ++ [e] <+: events → (Watched.run parse points range now past).LosesNone parse e

/-- **When the trend never goes back**: if and only if every answer to the last request goes, with
the samples received meanwhile, as far as what has been shown and is still in the window. -/
theorem neverBack_iff (parse : String → Option ℚ) (points : List String) (range : Range) (now : ℕ)
    (events : List (Event V × ℕ)) :
    NeverBack parse points range now events ↔
      ∀ past e, past ++ [e] <+: events →
        (Watched.run parse points range now past).Covers parse e := by
  have hforward := Trace.forall_prefix_iff
    (I := fun s : Watched V ↦ s.Kept ∧ s.InWindow ∧ s.Tracks) (P := fun s ↦ s.Forward parse)
    (C := fun s e ↦ s.Covers parse e)
    (fun ⟨hkept, hwindow, _⟩ ↦ (Watched.forward_iff_kept hwindow).mpr hkept)
    (fun ⟨hkept, _, htracks⟩ hcovers ↦
      ⟨(hkept.step_iff htracks).mpr hcovers, Watched.inWindow_step _ _, htracks.step _⟩)
    (fun ⟨hkept, _, htracks⟩ hcovers hforward ↦ hcovers ((hkept.step_iff htracks).mp
      ((Watched.forward_iff_kept (Watched.inWindow_step _ _)).mp hforward)))
    ⟨(Watched.kept_start points range now).1, (Watched.kept_start points range now).2,
      Watched.tracks_start points range now⟩ events
  have hloses (past : List (Event V × ℕ)) (e : Event V × ℕ) :
      (Watched.run parse points range now past).LosesNone parse e :=
    (tracks_run parse points range now past).losesNone e
  exact (and_iff_left fun past e _ ↦ hloses past e).trans hforward

/-! ## A history that lags -/

/-- The origin of the buckets: the year 2000. -/
def bucketOrigin : ℚ := 946684800

/-- An item of a history comes from a sample of the point: it is the sample, or stands at the
beginning of its bucket. -/
def Stored (parse : String → Option ℚ) (seen : List (LiveSample V)) (point : String)
    (width : Option ℚ) (item : HistoryItem V) : Prop :=
  ∃ sample ∈ seen, sample.point = point ∧
    match width with
    | none => parse item.ts = some (1000 * sample.ts) ∧ item.value = sample.value
    | some width =>
      parse item.ts =
        some (1000 * (bucketOrigin + width * ⌊(sample.ts - bucketOrigin) / width⌋))

/-- The samples of a point come in order, and an answer holds samples that came before it. -/
def Possible (parse : String → Option ℚ) : List (LiveSample V) → List (Event V × ℕ) → Prop
  | _, [] => True
  | seen, (.sample sample, _) :: events =>
    (∀ x ∈ seen, x.point = sample.point → x.ts < sample.ts) ∧
      Possible parse (seen ++ [sample]) events
  | seen, (.answer _ results, _) :: events =>
    (∀ point items, results point = some items →
      ∃ width, ∀ item ∈ items, Stored parse seen point width item) ∧ Possible parse seen events
  | seen, (.setRange _, _) :: events | seen, (.draw, _) :: events => Possible parse seen events

/-- A sample at 1000 seconds. -/
def firstSample : LiveSample ℕ := ⟨"p", 1000, some 1, "ok"⟩

/-- The same, ten seconds later. -/
def secondSample : LiveSample ℕ := ⟨"p", 1010, some 2, "ok"⟩

def parseFirst (ts : String) : Option ℚ :=
  if ts = "1970-01-01T00:16:40Z" then some 1000000 else none

/-- The history of the first sample alone. -/
def lagging : Results ℕ := fun point ↦
  if point = "p" then some [⟨"1970-01-01T00:16:40Z", some 1⟩] else none

/-- Two samples are drawn; the range is changed, and the history has only the first. -/
def beforeAnswer : List (Event ℕ × ℕ) :=
  [(.answer 1 fun _ ↦ none, 0), (.sample firstSample, 0), (.sample secondSample, 10000), (.draw, 0),
    (.setRange .m15, 0)]

/-- **After a change of range, the legend shows an older value.** -/
theorem not_neverBack : ¬∀ (parse : String → Option ℚ) (points : List String) (range : Range)
    (now : ℕ) (events : List (Event ℕ × ℕ)), Possible parse [] events →
      NeverBack parse points range now events := by
  intro h
  have hpossible : Possible parseFirst [] (beforeAnswer ++ [(.answer 2 lagging, 100)]) := by
    have hfailed : ∀ (point : String) (items : List (HistoryItem ℕ)), none = some items →
        ∃ width, ∀ item ∈ items, Stored parseFirst [] point width item :=
      fun _ _ hnone ↦ absurd hnone (Option.some_ne_none _).symm
    refine ⟨hfailed, fun x hx ↦ absurd hx List.not_mem_nil, ?_, ?_, trivial⟩
    · intro x hx _
      rw [List.mem_singleton.mp hx]
      decide +kernel
    · intro point items hitems
      rw [lagging] at hitems
      split at hitems
      · rename_i hpoint
        obtain rfl := Option.some.inj hitems
        refine ⟨none, fun item hitem ↦ ⟨firstSample, List.mem_cons_self, hpoint.symm, ?_⟩⟩
        rw [List.mem_singleton.mp hitem]
        decide +kernel
      · exact absurd hitems (Option.some_ne_none _).symm
  obtain ⟨hforward, -⟩ := h parseFirst ["p"] .h1 1000000 _ hpossible
  -- the answer of the server does not go as far as the second sample
  have hkept (past : List (Event ℕ × ℕ))
      (hpast : past <+: beforeAnswer ++ [(.answer 2 lagging, 100)]) :
      (Watched.run parseFirst ["p"] .h1 1000000 past).Kept :=
    (Watched.forward_iff_kept (inWindow_run _ _ _ _ past)).mp (hforward past hpast)
  have hcovers : (Watched.run parseFirst ["p"] .h1 1000000 beforeAnswer).Covers parseFirst
      (.answer 2 lagging, 100) :=
    ((hkept beforeAnswer (List.prefix_append _ _)).step_iff (tracks_run _ _ _ _ _)).mp
      (hkept _ (List.prefix_refl _))
  obtain ⟨point, hpoint, hgoes⟩ :=
    hcovers (by decide +kernel) 0 1010 (by decide +kernel) (by decide +kernel)
  rcases hgoes with ⟨items, hitems, item, hitem, ms, hms, hle⟩ | ⟨sample, hsample, -⟩
  · rw [Option.mem_def, lagging] at hitems
    split at hitems
    · obtain rfl := Option.some.inj hitems
      rw [List.mem_singleton.mp hitem] at hms
      obtain rfl : ms = 1000000 := (Option.some.inj hms).symm
      exact absurd hle (by norm_num)
    · exact absurd hitems (Option.some_ne_none _).symm
  · exact absurd hsample List.not_mem_nil

end Superviseur.Trend
