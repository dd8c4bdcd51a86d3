import Mathlib.Data.List.Chain
import Superviseur.Collector.Offline

/-!
# How soon a device is offline

The loop of a device looks at its points at every tick, and begins a cycle as soon as one of them is
due, whenever the last cycle has begun: the interval between two attempts binds the probes only.
When a device no longer answers, as many failures as it has points due may follow each other within
one interval. The failures are an interval apart exactly where no point falls due within an interval
of a failure (`patient_iff`), and the device is then given the time it should be before it is
declared offline.
-/

namespace Superviseur

namespace Polled

variable (cov : CovConfig) (polling : PollingConfig)

/-- The first polls are planned. -/
def plan (now : Instant) (random : Uuid → ℚ) (s : Polled) : Polled :=
  { s with device := s.device.mapPoints fun point ↦
      point.planned cov now (random point.ref.pointId) }

/-- One look of `_device_loop` at the points of the device, at `now`. -/
def look (now : Instant) (random : Uuid → ℚ) (read : List Uuid → BatchRead) (ended : Instant)
    (s : Polled) : Polled :=
  let s := s.plan cov now random
  match s.device.duePoints polling now with
  | [] => s
  | due => s.pollCycle cov polling ⟨now, due.map fun point ↦ point.ref.pointId, read, ended⟩

end Polled

/-- A look at a device that does not answer, and how long it is waited for. -/
structure Look where
  now : Instant
  random : Uuid → ℚ
  wait : ℚ≥0

/-- The cycle that begins with a look. -/
def Look.cycle (l : Look) (due : List PointState) : PollCycle where
  now := l.now
  points := due.map fun point ↦ point.ref.pointId
  read _ := ⟨l.now + l.wait, .unreachable⟩
  ended := l.now + l.wait

/-- A device that has stopped answering: the beginnings of the cycles that were counted as failed,
the last one first, and when the device was declared offline. -/
structure Silence where
  polled : Polled
  starts : List Instant
  lostAt : Option Instant

namespace Silence

inductive Event where
  | look (l : Look)
  /-- What the rest of the collector does between two looks. -/
  | meanwhile (s : Polled)

variable (cov : CovConfig) (polling : PollingConfig)

/-- The loop looks at the points; no batch is answered. -/
def look (s : Silence) (l : Look) : Silence :=
  let ended := l.now + l.wait
  let polled := s.polled.look cov polling l.now l.random (fun _ ↦ ⟨ended, .unreachable⟩) ended
  { polled := polled
    starts := if polled.device.failures ≠ s.polled.device.failures then l.now :: s.starts
      else s.starts
    lostAt := if s.polled.device.online ∧ ¬ polled.device.online then some ended else s.lostAt }

def step (s : Silence) : Event → Silence
  | .look l => s.look cov polling l
  | .meanwhile s' => { s with polled := s.polled.keepStatus s' }

/-- The device stops answering. -/
def start (s : Polled) : Silence := ⟨s.start, [], none⟩

/-- The failures counted are an interval apart, and the device is not offline before the time they
take has passed since the first one. -/
structure Patient (s : Silence) : Prop where
  spaced : s.starts.IsChain fun later earlier ↦ earlier + polling.defaultIntervalS ≤ later
  offline : ∀ t ∈ s.lostAt, ∀ first ∈ s.starts.getLast?,
    first + ((polling.offlineAfterCycles - 1 : ℕ) : ℚ) * polling.defaultIntervalS ≤ t

/-- No point is due at a look that comes within an interval of the last failure of a device that is
online. -/
def Calm (s : Silence) : Event → Prop
  | .look l => 0 < s.polled.device.failures → s.polled.device.online = true →
      l.now < s.polled.device.lastAttempt + polling.defaultIntervalS →
        ∀ point ∈ (s.polled.plan cov l.now l.random).device.points, l.now < point.nextDue
  | .meanwhile _ => True

variable {cov polling} {s : Silence} {l : Look}

/-! ## One look -/

theorem chunks_ne_nil {size : ℕ} {items : List Uuid} (hsize : 0 < size) (hitems : items ≠ []) :
    chunks size items ≠ [] := by
  obtain ⟨item, items, rfl⟩ := List.exists_cons_of_ne_nil hitems
  obtain ⟨size, rfl⟩ := Nat.exists_eq_succ_of_ne_zero hsize.ne'
  have hgo : ∀ (items : List Uuid) (batch : Array Uuid) (batches : Array (List Uuid)),
      List.toChunks.go (size + 1) items batch batches ≠ [] := by
    intro items
    induction items with
    | nil => intro batch batches; simp [List.toChunks.go]
    | cons item items ih =>
      intro batch batches
      rw [List.toChunks.go]
      split
      · exact ih _ _
      · exact ih _ _
  exact hgo items #[item] #[]

/-- The points the loop finds due. -/
def due (cov : CovConfig) (polling : PollingConfig) (s : Silence) (l : Look) : List PointState :=
  (s.polled.plan cov l.now l.random).device.duePoints polling l.now

theorem sameStatus_plan (cov : CovConfig) (s : Polled) (now : Instant) (random : Uuid → ℚ) :
    s.device.SameStatus (s.plan cov now random).device :=
  DeviceState.sameStatus_mapPoints fun point ↦
    point.ref_planned cov now (random point.ref.pointId)

theorem look_of_nil (h : s.due cov polling l = []) :
    (s.look cov polling l).polled = s.polled.plan cov l.now l.random := by
  rw [due] at h
  rw [look, Polled.look]
  dsimp only
  rw [h]

theorem look_of_due (h : s.due cov polling l ≠ []) : (s.look cov polling l).polled =
    (s.polled.plan cov l.now l.random).pollCycle cov polling (l.cycle (s.due cov polling l)) := by
  rw [look, Polled.look]
  dsimp only
  split
  · rename_i hnil
    exact absurd hnil h
  · rfl

theorem look_of_not_asked (h : s.due cov polling l = [] ∨ polling.batchSize = 0) :
    (s.look cov polling l).polled.device.failures = s.polled.device.failures ∧
    (s.look cov polling l).polled.device.online = s.polled.device.online ∧
    (s.due cov polling l = [] →
      (s.look cov polling l).polled.device.lastAttempt = s.polled.device.lastAttempt) := by
  have hplan := sameStatus_plan cov s.polled l.now l.random
  by_cases hdue : s.due cov polling l = []
  · rw [look_of_nil hdue]
    exact ⟨hplan.failures, hplan.online, fun _ ↦ hplan.lastAttempt⟩
  · have hasks : (l.cycle (s.due cov polling l)).asks polling = false := by
      refine decide_eq_false (not_not.mpr ?_)
      rw [PollCycle.asked, h.resolve_left hdue]
      rfl
    rw [look_of_due hdue, Polled.pollCycle_of_not_asks cov polling hasks]
    exact ⟨hplan.failures, hplan.online, fun hnil ↦ absurd hnil hdue⟩

theorem look_of_asked (hdue : s.due cov polling l ≠ []) (hbatch : 0 < polling.batchSize) :
    (s.look cov polling l).polled.device.failures = s.polled.device.failures + 1 ∧
    ((s.look cov polling l).polled.device.online = true ↔ s.polled.device.online = true ∧
      s.polled.device.failures + 1 < polling.offlineAfterCycles) ∧
    (s.look cov polling l).polled.device.lastAttempt = l.now := by
  have hplan := sameStatus_plan cov s.polled l.now l.random
  have hasked : (l.cycle (s.due cov polling l)).asked polling ≠ [] :=
    chunks_ne_nil hbatch fun hmap ↦ hdue (List.map_eq_nil_iff.mp hmap)
  have hfailed : (l.cycle (s.due cov polling l)).failed polling = true := by
    obtain ⟨batch, hmem⟩ := List.exists_mem_of_ne_nil _ hasked
    exact PollCycle.failed_iff.mpr ⟨batch, hmem, rfl⟩
  obtain ⟨s', lost, hstatus, heq⟩ :=
    Polled.pollCycle_of_failed (s := s.polled.plan cov l.now l.random) cov polling hfailed
  obtain ⟨hfailures, honline, hattempt⟩ :=
    Polled.status_onFailure cov polling (l.cycle (s.due cov polling l)).ended lost s'
  have hfailures' : s'.device.failures = s.polled.device.failures :=
    hstatus.failures.trans hplan.failures
  have honline' : s'.device.online = s.polled.device.online :=
    hstatus.online.trans hplan.online
  rw [hfailures'] at hfailures honline
  rw [honline'] at honline
  rw [look_of_due hdue, heq]
  exact ⟨hfailures, honline, hattempt.trans hstatus.lastAttempt⟩

theorem starts_look_of_asked (hdue : s.due cov polling l ≠ []) (hbatch : 0 < polling.batchSize) :
    (s.look cov polling l).starts = l.now :: s.starts := by
  have hfailures := (look_of_asked hdue hbatch).1
  refine if_pos ?_
  change (s.look cov polling l).polled.device.failures ≠ _
  rw [hfailures]
  exact Nat.succ_ne_self _

/-- Within an interval of the last attempt the loop asks only for points that are due. -/
theorem attempt_of_due (h : s.due cov polling l ≠ [])
    (hnone : s.polled.device.online = true →
      l.now < s.polled.device.lastAttempt + polling.defaultIntervalS →
        ∀ point ∈ (s.polled.plan cov l.now l.random).device.points, l.now < point.nextDue) :
    s.polled.device.lastAttempt + polling.defaultIntervalS ≤ l.now := by
  have hplan := sameStatus_plan cov s.polled l.now l.random
  by_contra hnot
  rw [not_le] at hnot
  have hprobe : ¬ polling.defaultIntervalS ≤ l.now - s.polled.device.lastAttempt := by linarith
  refine h ?_
  rw [due, DeviceState.duePoints, hplan.online, hplan.lastAttempt, if_neg hprobe]
  split
  · rename_i honline
    have hfilter : (s.polled.plan cov l.now l.random).device.points.filter
        (fun point ↦ decide (point.nextDue ≤ l.now)) = [] := by
      refine List.filter_eq_nil_iff.mpr fun point hpoint hle ↦ ?_
      exact not_le.mpr (hnone honline hnot point hpoint) (of_decide_eq_true hle)
    rw [hfilter]
    refine if_neg fun hand ↦ hprobe (hand.2.trans ?_)
    exact sub_le_sub_left (le_max_right _ _) _
  · rfl

theorem due_ne_nil {point : PointState} (honline : s.polled.device.online = true)
    (hpoint : point ∈ (s.polled.plan cov l.now l.random).device.points)
    (hdue : point.nextDue ≤ l.now) : s.due cov polling l ≠ [] := by
  have hplan := sameStatus_plan cov s.polled l.now l.random
  have hmem : point ∈ (s.polled.plan cov l.now l.random).device.points.filter
      (fun point ↦ decide (point.nextDue ≤ l.now)) :=
    List.mem_filter.mpr ⟨hpoint, decide_eq_true hdue⟩
  rw [due, DeviceState.duePoints, hplan.online, if_pos honline]
  dsimp only
  rw [if_neg fun hand ↦ List.ne_nil_of_mem hmem hand.1]
  exact List.ne_nil_of_mem hmem

/-! ## The main result -/

/-- Instants that are an interval apart take as many intervals as they have steps. -/
theorem first_le {interval : ℚ} {first last : Instant} {starts : List Instant}
    (h : (last :: starts).IsChain fun later earlier ↦ earlier + interval ≤ later)
    (hfirst : first ∈ (last :: starts).getLast?) : first + starts.length * interval ≤ last := by
  induction starts generalizing last with
  | nil =>
    obtain rfl : last = first := Option.some.inj hfirst
    simp
  | cons later starts ih =>
    rw [List.isChain_cons_cons] at h
    rw [List.getLast?_cons_cons] at hfirst
    have hle := ih h.2 hfirst
    rw [List.length_cons, Nat.cast_add_one]
    linarith [h.1]

/-- What the looks at a device that does not answer keep. -/
structure Waiting (polling : PollingConfig) (s : Silence) : Prop where
  patient : Patient polling s
  counted : s.polled.device.failures = s.starts.length
  attempt : ∀ last ∈ s.starts.head?, s.polled.device.lastAttempt = last
  online : s.polled.device.online = true →
    s.polled.device.failures < max 1 polling.offlineAfterCycles
  asks : s.starts ≠ [] → 0 < polling.batchSize
  lost : s.lostAt ≠ none → s.starts ≠ []

theorem waiting_start (s : Polled) : Waiting polling (start s) where
  patient := ⟨.nil, fun _ h ↦ absurd h (Option.not_mem_none _)⟩
  counted := rfl
  attempt _ h := absurd h (Option.not_mem_none _)
  online _ := lt_max_of_lt_left Nat.one_pos
  asks h := absurd rfl h
  lost h := absurd rfl h

theorem Waiting.look_of_not_asked (h : Waiting polling s)
    (hnone : s.due cov polling l = [] ∨ polling.batchSize = 0) :
    Waiting polling (s.look cov polling l) := by
  obtain ⟨hfailures, honline, hattempt⟩ := Silence.look_of_not_asked hnone
  have hstarts : (s.look cov polling l).starts = s.starts := if_neg (not_not.mpr hfailures)
  have hlost : (s.look cov polling l).lostAt = s.lostAt :=
    if_neg fun hand ↦ hand.2 (honline.trans hand.1)
  refine ⟨⟨?_, ?_⟩, ?_, ?_, ?_, ?_, ?_⟩
  · rw [hstarts]
    exact h.patient.spaced
  · rw [hstarts, hlost]
    exact h.patient.offline
  · rw [hfailures, hstarts]
    exact h.counted
  · intro last hlast
    rw [hstarts] at hlast
    have hne : s.starts ≠ [] := by
      rintro hnil
      rw [hnil] at hlast
      exact absurd hlast (Option.not_mem_none _)
    rw [hattempt (hnone.resolve_right (h.asks hne).ne')]
    exact h.attempt last hlast
  · rw [hfailures, honline]
    exact h.online
  · rw [hstarts]
    exact h.asks
  · rw [hstarts, hlost]
    exact h.lost

theorem Waiting.look_of_asked (h : Waiting polling s) (hdue : s.due cov polling l ≠ [])
    (hbatch : 0 < polling.batchSize)
    (hspaced : ∀ last ∈ s.starts.head?, last + polling.defaultIntervalS ≤ l.now) :
    Waiting polling (s.look cov polling l) := by
  obtain ⟨hfailures, honline, hattempt⟩ := Silence.look_of_asked hdue hbatch
  have hstarts := starts_look_of_asked hdue hbatch
  have hchain : (l.now :: s.starts).IsChain
      fun later earlier ↦ earlier + polling.defaultIntervalS ≤ later :=
    h.patient.spaced.cons hspaced
  refine ⟨⟨?_, ?_⟩, ?_, ?_, ?_, fun _ ↦ hbatch, ?_⟩
  · rw [hstarts]
    exact hchain
  · rw [hstarts]
    intro t ht first hfirst
    by_cases hlost : s.polled.device.online = true ∧
        ¬ (s.look cov polling l).polled.device.online = true
    · -- the limit is reached with this failure
      obtain rfl : l.now + l.wait = t := Option.some.inj ((if_pos hlost).symm.trans ht)
      have hlt := h.online hlost.1
      have hle : polling.offlineAfterCycles ≤ s.polled.device.failures + 1 :=
        not_lt.mp fun hlt' ↦ hlost.2 (honline.mpr ⟨hlost.1, hlt'⟩)
      have hlength : polling.offlineAfterCycles - 1 = s.starts.length := by
        rw [← h.counted]
        omega
      rw [hlength]
      exact (first_le hchain hfirst).trans (le_add_of_nonneg_right l.wait.coe_nonneg)
    · have ht' : t ∈ s.lostAt := (if_neg hlost).symm.trans ht
      have hne : s.starts ≠ [] := h.lost (Option.ne_none_iff_exists'.mpr ⟨t, ht'⟩)
      rw [List.getLast?_cons_of_ne_nil hne] at hfirst
      exact h.patient.offline t ht' first hfirst
  · rw [hfailures, hstarts, List.length_cons, h.counted]
  · intro last hlast
    rw [hstarts] at hlast
    exact hattempt.trans (Option.some.inj hlast)
  · intro hon
    rw [hfailures]
    exact lt_max_of_lt_right (honline.mp hon).2
  · rw [hstarts]
    exact fun _ ↦ List.cons_ne_nil _ _

/-- **Step lemma.** -/
theorem Waiting.step (h : Waiting polling s) {e : Event} (hcalm : Calm cov polling s e) :
    Waiting polling (s.step cov polling e) := by
  cases e with
  | meanwhile s' =>
    exact ⟨⟨h.patient.spaced, h.patient.offline⟩, h.counted, h.attempt, h.online, h.asks, h.lost⟩
  | look l =>
    by_cases hnone : s.due cov polling l = [] ∨ polling.batchSize = 0
    · exact h.look_of_not_asked hnone
    · rw [not_or] at hnone
      refine h.look_of_asked hnone.1 (Nat.pos_of_ne_zero hnone.2) fun last hlast ↦ ?_
      have hfailed : 0 < s.polled.device.failures := by
        rw [h.counted]
        exact List.length_pos_of_mem (List.mem_of_mem_head? hlast)
      rw [← h.attempt last hlast]
      exact attempt_of_due hnone.1 (hcalm hfailed)

/-- A point that falls due within an interval of a failure makes another one. -/
theorem Waiting.not_patient_step (h : Waiting polling s) {e : Event}
    (hcalm : ¬ Calm cov polling s e) :
    ¬ Patient polling (s.step cov polling e) := by
  cases e with
  | meanwhile s' => exact absurd trivial hcalm
  | look l =>
    simp only [Calm, not_forall, not_lt] at hcalm
    obtain ⟨hfailed, honline, hearly, point, hpoint, hdue⟩ := hcalm
    have hne : s.starts ≠ [] := by
      rw [h.counted] at hfailed
      exact List.ne_nil_of_length_pos hfailed
    obtain ⟨last, earlier, hlast⟩ := List.exists_cons_of_ne_nil hne
    have hattempt : s.polled.device.lastAttempt = last := h.attempt last (by rw [hlast]; rfl)
    have hstarts := starts_look_of_asked (due_ne_nil honline hpoint hdue) (h.asks hne)
    intro hpatient
    have hspaced := hpatient.spaced
    change (s.look cov polling l).starts.IsChain _ at hspaced
    rw [hstarts, hlast, List.isChain_cons_cons, ← hattempt] at hspaced
    exact not_le.mpr hearly hspaced.1

/-- **A device is not declared offline too early** in a run, the failures counted being an interval
apart, exactly where no point falls due within an interval of a failure. -/
theorem patient_iff (cov : CovConfig) (polling : PollingConfig) (s : Polled)
    (events : List Event) :
    (∀ past, past <+: events → Patient polling (past.foldl (step cov polling) (start s))) ↔
      ∀ past e, past ++ [e] <+: events →
        Calm cov polling (past.foldl (step cov polling) (start s)) e :=
  Trace.forall_prefix_iff (I := Waiting polling) (P := Patient polling) (C := Calm cov polling)
    Waiting.patient (fun h hcalm ↦ h.step hcalm) (fun h hcalm ↦ h.not_patient_step hcalm)
    (waiting_start s) events

/-- Three points fall due one second apart. -/
def threePoints : Polled where
  device := .new 7 10 "10.0.0.5" "AHU-1" true true
    ([1, 2, 3].map fun p ↦
      { PointState.new ⟨p, 10, "10.0.0.5", "analog-value", p⟩ none (.fin 0) 900 30 false with
        nextDue := 9 + p })
  latest _ := none

/-- The device is offline two seconds after the first failure. -/
theorem not_patient : ¬ ∀ (cov : CovConfig) (polling : PollingConfig) (s : Polled)
    (events : List Event), Patient polling (events.foldl (step cov polling) (start s)) := by
  intro h
  have hpatient := h ⟨3600, 300, 300, 300⟩ ⟨30, 20, 3⟩ threePoints
    ([10, 11, 12].map fun now ↦ .look ⟨now, fun _ ↦ 0, 0⟩)
  have hoffline := hpatient.offline 12 (by decide +kernel) 10 (by decide +kernel)
  norm_num at hoffline

end Silence

end Superviseur
