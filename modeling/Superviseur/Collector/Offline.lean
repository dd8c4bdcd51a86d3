import Mathlib.Data.List.DropRight
import Superviseur.Collector.PollCycle

/-!
# When a device is offline

A cycle fails when a batch is left without an answer, even after others were answered. The failures
of a device are the failed cycles since the last one that answered everything it was asked; when
they reach the limit the device goes offline, and every point of it is recorded as lost. The first
cycle that answers everything brings it back (`detection`).

The source means the cycles without an answer. **The failures are those in a row, as long as no
cycle is answered in part.**
-/

namespace Superviseur

/-! ## What a cycle is answered -/

/-- The device answers, be it by a refusal. -/
def BatchRead.answers (batch : BatchRead) : Bool := decide (batch.outcome ≠ .unreachable)

namespace PollCycle

variable (polling : PollingConfig) (c : PollCycle)

/-- The batches the cycle asks the device, until one is left without an answer. -/
def asked : List (List Uuid) := chunks polling.batchSize c.points

def answers (batch : List Uuid) : Bool := (c.read batch).answers

/-- The cycle asks the device something. -/
def asks : Bool := decide (c.asked polling ≠ [])

/-- No batch is answered. -/
def silent : Bool := decide ((c.asked polling).takeWhile c.answers = [])

/-- A batch is left without an answer. -/
def failed : Bool := !(c.asked polling).all c.answers

/-- Everything asked is answered. -/
def complete : Bool := c.asks polling && (c.asked polling).all c.answers

variable {polling c}

theorem failed_iff : c.failed polling = true ↔
    ∃ batch ∈ c.asked polling, (c.read batch).outcome = .unreachable := by
  simp [failed, answers, BatchRead.answers]

theorem complete_iff : c.complete polling = true ↔
    c.asks polling = true ∧ c.failed polling = false := by
  rw [complete, failed, Bool.and_eq_true, Bool.not_eq_false']

theorem asks_of_failed (h : c.failed polling = true) : c.asks polling = true := by
  obtain ⟨batch, hbatch, -⟩ := failed_iff.mp h
  exact decide_eq_true (List.ne_nil_of_mem hbatch)

theorem asks_of_not_silent (h : ¬ c.silent polling = true) : c.asks polling = true := by
  refine decide_eq_true fun hasked ↦ h (decide_eq_true ?_)
  rw [hasked]
  rfl

theorem failed_or_complete (polling : PollingConfig) (c : PollCycle) :
    c.failed polling = true ∨ c.complete polling = true ∨ c.asks polling = false := by
  rw [complete_iff]
  rcases c.failed polling <;> rcases c.asks polling <;> decide

end PollCycle

/-- The most recent cycles in a row in which the device answered no batch. -/
def silentInRow (polling : PollingConfig) (cycles : List PollCycle) : ℕ :=
  (cycles.rtakeWhile (PollCycle.silent polling)).length

/-- The most recent cycles in a row that failed, among those that asked something. -/
def failedInRow (polling : PollingConfig) (cycles : List PollCycle) : ℕ :=
  ((cycles.filter (PollCycle.asks polling)).rtakeWhile (PollCycle.failed polling)).length

section Rows

variable {polling : PollingConfig} {past : List PollCycle} {c : PollCycle}

theorem failedInRow_of_failed (h : c.failed polling = true) :
    failedInRow polling (past ++ [c]) = failedInRow polling past + 1 := by
  rw [failedInRow, List.filter_append, List.filter_singleton, c.asks_of_failed h, cond_true,
    List.rtakeWhile_concat_pos _ _ _ h, List.length_append]
  rfl

theorem failedInRow_of_complete (h : c.complete polling = true) :
    failedInRow polling (past ++ [c]) = 0 := by
  obtain ⟨hasks, hfailed⟩ := PollCycle.complete_iff.mp h
  rw [failedInRow, List.filter_append, List.filter_singleton, hasks, cond_true,
    List.rtakeWhile_concat_neg _ _ _ (Bool.eq_false_iff.mp hfailed)]
  rfl

theorem failedInRow_of_not_asks (h : c.asks polling = false) :
    failedInRow polling (past ++ [c]) = failedInRow polling past := by
  rw [failedInRow, List.filter_append, List.filter_singleton, h, cond_false, List.append_nil]
  rfl

/-- The cycles that fail in a row are the silent ones, as long as none is answered in part. -/
theorem failedInRow_eq_silentInRow {cycles : List PollCycle}
    (h : ∀ c ∈ cycles, c.failed polling = c.silent polling) :
    failedInRow polling cycles = silentInRow polling cycles := by
  induction cycles using List.reverseRecOn with
  | nil => rfl
  | append_singleton past c ih =>
    have hpast := ih fun c' hc' ↦ h c' (List.mem_append_left _ hc')
    have hc := h c (List.mem_append_right _ List.mem_cons_self)
    by_cases hfailed : c.failed polling = true
    · have hsilent : c.silent polling = true := hc.symm.trans hfailed
      rw [failedInRow_of_failed hfailed, hpast, silentInRow, silentInRow,
        List.rtakeWhile_concat_pos _ _ _ hsilent, List.length_append]
      rfl
    · have hsilent : ¬ c.silent polling = true := hc ▸ hfailed
      have hcomplete : c.complete polling = true :=
        PollCycle.complete_iff.mpr ⟨PollCycle.asks_of_not_silent hsilent,
          Bool.eq_false_iff.mpr hfailed⟩
      rw [failedInRow_of_complete hcomplete, silentInRow, List.rtakeWhile_concat_neg _ _ _ hsilent]
      rfl

end Rows

/-! ## Runs -/

namespace Polled

inductive Event where
  | cycle (c : PollCycle)
  /-- What the rest of the collector does between two cycles. -/
  | meanwhile (s : Polled)

/-- The cycles of a run. -/
def Event.cycle? : Event → Option PollCycle
  | cycle c => some c
  | meanwhile _ => none

/-- The status of the device is left to the cycles. -/
def keepStatus (s s' : Polled) : Polled :=
  { s' with device := { s'.device with
      failures := s.device.failures
      online := s.device.online
      lastAttempt := s.device.lastAttempt } }

variable (cov : CovConfig) (polling : PollingConfig)

def step (s : Polled) : Event → Polled
  | .cycle c => s.pollCycle cov polling c
  | .meanwhile s' => s.keepStatus s'

/-- A device that has not failed yet. -/
def start (s : Polled) : Polled := { s with device := { s.device with failures := 0 } }

/-- What a cycle does after these ones. -/
structure Detection (past : List PollCycle) (s : Polled) (c : PollCycle) : Prop where
  failures : (s.pollCycle cov polling c).device.failures = failedInRow polling (past ++ [c])
  /-- The cycles that fail are the silent ones, as long as none is answered in part. -/
  silent : (∀ c' ∈ past ++ [c], c'.failed polling = c'.silent polling) →
    (s.pollCycle cov polling c).device.failures = silentInRow polling (past ++ [c])
  offline : s.device.online = true → ((s.pollCycle cov polling c).device.online = false ↔
    failedInRow polling (past ++ [c]) = max 1 polling.offlineAfterCycles)
  lost : s.device.online = true → (s.pollCycle cov polling c).device.online = false →
    ∀ point ∈ (s.pollCycle cov polling c).device.points, (s.pollCycle cov polling c).Lost point
  back : s.device.online = false →
    ((s.pollCycle cov polling c).device.online = true ↔ c.complete polling = true)

variable {cov polling} {s : Polled} {c : PollCycle}

/-! ## One cycle -/

section Cycle

variable (cov polling) (now : Instant) (lost : List Uuid)

theorem onFailure_of_limit (hlimit : s.device.online = true ∧
    polling.offlineAfterCycles ≤ s.device.failures + 1) :
    ∃ device : DeviceState, s.onFailure cov polling now lost =
        device.pointIds.foldl (lose cov now) { s with device := device } ∧
      device.failures = s.device.failures + 1 ∧ device.online = false ∧
      device.lastAttempt = s.device.lastAttempt ∧
      ∀ point ∈ device.points, point.covActive = false := by
  have hdevice : s.device.onFailure polling.offlineAfterCycles now =
      ({ s.device with
        failures := s.device.failures + 1
        online := false
        lastSeenWritten := now }, .writing false true) := if_pos hlimit
  rw [onFailure, hdevice]
  refine ⟨_, if_pos rfl, rfl, rfl, rfl, fun point hpoint ↦ ?_⟩
  obtain ⟨old, -, rfl⟩ := List.mem_map.mp hpoint
  rfl

/-- The device stays as it is: the points that were not read are recorded as lost. -/
theorem onFailure_of_not_limit (hlimit : ¬ (s.device.online = true ∧
    polling.offlineAfterCycles ≤ s.device.failures + 1)) :
    s.onFailure cov polling now lost = lost.foldl (lose cov now)
      { s with device := { s.device with failures := s.device.failures + 1 } } := by
  have hdevice : s.device.onFailure polling.offlineAfterCycles now =
      ({ s.device with failures := s.device.failures + 1 }, .ending) := if_neg hlimit
  have hending : Cycle.ending ≠ .writing false true := by decide
  rw [onFailure, hdevice]
  exact if_neg hending

theorem sameStatus_loseAll (ids : List Uuid) (s : Polled) :
    s.device.SameStatus (ids.foldl (lose cov now) s).device :=
  sameStatus_foldl (fun _ ↦ sameStatus_lose) ids s

/-- A failure is counted, and the device is online as long as the limit is not reached. -/
theorem status_onFailure (s : Polled) :
    (s.onFailure cov polling now lost).device.failures = s.device.failures + 1
    ∧ ((s.onFailure cov polling now lost).device.online = true ↔ s.device.online = true ∧
      s.device.failures + 1 < polling.offlineAfterCycles)
    ∧ (s.onFailure cov polling now lost).device.lastAttempt = s.device.lastAttempt := by
  by_cases hlimit : s.device.online = true ∧ polling.offlineAfterCycles ≤ s.device.failures + 1
  · obtain ⟨device, heq, hfailures, honline, hattempt, -⟩ :=
      onFailure_of_limit cov polling now lost hlimit
    have hstatus := sameStatus_loseAll cov now device.pointIds { s with device := device }
    rw [heq, hstatus.failures, hstatus.online, hstatus.lastAttempt, honline]
    refine ⟨hfailures, ⟨fun h ↦ absurd h (by decide), fun h ↦ ?_⟩, hattempt⟩
    exact absurd hlimit.2 (not_le.mpr h.2)
  · rw [onFailure_of_not_limit cov polling now lost hlimit]
    have hstatus := sameStatus_loseAll cov now lost
      { s with device := { s.device with failures := s.device.failures + 1 } }
    rw [hstatus.failures, hstatus.online, hstatus.lastAttempt]
    refine ⟨rfl, ⟨fun h ↦ ⟨h, ?_⟩, fun h ↦ h.1⟩, rfl⟩
    exact not_le.mp fun hle ↦ hlimit ⟨h, hle⟩

theorem lost_onFailure (honline : s.device.online = true)
    (hoffline : (s.onFailure cov polling now lost).device.online = false) :
    ∀ point ∈ (s.onFailure cov polling now lost).device.points,
      (s.onFailure cov polling now lost).Lost point := by
  have hlimit : s.device.online = true ∧ polling.offlineAfterCycles ≤ s.device.failures + 1 := by
    refine ⟨honline, not_lt.mp fun hlt ↦ ?_⟩
    have hkept := (status_onFailure cov polling now lost s).2.1.mpr ⟨honline, hlt⟩
    exact absurd (hkept.symm.trans hoffline) (by decide)
  obtain ⟨device, heq, -, -, -, hdropped⟩ := onFailure_of_limit cov polling now lost hlimit
  rw [heq]
  intro point hpoint
  have hstatus := sameStatus_loseAll cov now device.pointIds { s with device := device }
  have hid : point.ref.pointId ∈ device.pointIds := by
    have hmem := List.mem_map_of_mem (f := fun p : PointState ↦ p.ref.pointId) hpoint
    rw [← hstatus.pointIds]
    exact hmem
  refine ⟨covActive_foldl_lose _ _ hdropped point hpoint, commLostReading now point.ref.pointId,
    ?_, rfl, rfl⟩
  exact latest_foldl_lose _ { s with device := device } hid (.inl hid)

theorem status_onSuccess (s : Polled) : (s.onSuccess now).device.failures = 0
    ∧ (s.onSuccess now).device.online = true := by
  have hdevice : (s.device.onSuccess now).1.failures = 0
      ∧ (s.device.onSuccess now).1.online = true := by
    rw [DeviceState.onSuccess]
    split
    · rename_i honline
      split
      · exact ⟨rfl, honline⟩
      · exact ⟨rfl, honline⟩
    · exact ⟨rfl, rfl⟩
  rw [onSuccess]
  dsimp only
  split
  · exact hdevice
  · exact hdevice

/-- What is done after the batches depends on whether points are left to read. -/
theorem pollCycle_eq {s' : Polled} {left : Option (List Uuid)}
    (h : readBatches cov c.now c.read (s.attempt c.now) (c.asked polling) = (s', left)) :
    s.pollCycle cov polling c =
      left.elim (if c.asked polling = [] then s' else s'.onSuccess c.ended)
        fun lost ↦ s'.onFailure cov polling c.ended lost := by
  rw [PollCycle.asked] at h
  rw [pollCycle, h]
  rcases left with _ | lost
  · rfl
  · rfl

theorem pollCycle_of_failed (h : c.failed polling = true) : ∃ (s' : Polled) (lost : List Uuid),
    (s.attempt c.now).device.SameStatus s'.device ∧
      s.pollCycle cov polling c = s'.onFailure cov polling c.ended lost := by
  have hstatus := sameStatus_readBatches cov c.now c.read (c.asked polling) (s.attempt c.now)
  have hleft := readBatches_snd cov c.now c.read (c.asked polling) (s.attempt c.now)
  rw [if_pos (PollCycle.failed_iff.mp h)] at hleft
  rcases hread : readBatches cov c.now c.read (s.attempt c.now) (c.asked polling) with ⟨s', left⟩
  rw [hread] at hstatus hleft
  dsimp only at hleft
  subst hleft
  exact ⟨s', _, hstatus, pollCycle_eq cov polling hread⟩

theorem pollCycle_of_complete (h : c.complete polling = true) : ∃ s' : Polled,
    s.pollCycle cov polling c = s'.onSuccess c.ended := by
  obtain ⟨hasks, hfailed⟩ := PollCycle.complete_iff.mp h
  have hanswered : ¬ ∃ batch ∈ c.asked polling, (c.read batch).outcome = .unreachable := by
    rw [← PollCycle.failed_iff, hfailed]
    decide
  have hleft := readBatches_snd cov c.now c.read (c.asked polling) (s.attempt c.now)
  rw [if_neg hanswered] at hleft
  rcases hread : readBatches cov c.now c.read (s.attempt c.now) (c.asked polling) with ⟨s', left⟩
  rw [hread] at hleft
  dsimp only at hleft
  subst hleft
  exact ⟨s', (pollCycle_eq cov polling hread).trans (if_neg (of_decide_eq_true hasks))⟩

theorem pollCycle_of_not_asks (h : c.asks polling = false) :
    s.pollCycle cov polling c = s.attempt c.now := by
  have hasked : c.asked polling = [] := not_not.mp (of_decide_eq_false h)
  have hleft : readBatches cov c.now c.read (s.attempt c.now) (c.asked polling)
      = (s.attempt c.now, none) := by
    rw [hasked]
    rfl
  exact (pollCycle_eq cov polling hleft).trans (if_pos hasked)

end Cycle

/-! ## The main result -/

section Runs

variable {past : List PollCycle}

/-- The device has counted the failures of these cycles, and is offline once they reach the
limit. -/
structure Counted (polling : PollingConfig) (past : List PollCycle) (s : Polled) : Prop where
  failures : s.device.failures = failedInRow polling past
  online : s.device.online = true → s.device.failures < max 1 polling.offlineAfterCycles

/-- **Step lemma.** -/
theorem Counted.cycle (cov : CovConfig) (h : Counted polling past s) (c : PollCycle) :
    Counted polling (past ++ [c]) (s.pollCycle cov polling c) := by
  rcases c.failed_or_complete polling with hc | hc | hc
  · obtain ⟨s', lost, hstatus, heq⟩ := pollCycle_of_failed (s := s) cov polling hc
    obtain ⟨hfailures, honline, -⟩ := status_onFailure cov polling c.ended lost s'
    rw [hstatus.failures] at hfailures honline
    rw [heq]
    refine ⟨?_, fun hon ↦ ?_⟩
    · rw [hfailures, failedInRow_of_failed hc, ← h.failures]
      rfl
    · rw [hfailures]
      exact lt_max_of_lt_right (honline.mp hon).2
  · obtain ⟨s', heq⟩ := pollCycle_of_complete (s := s) cov polling hc
    rw [heq]
    refine ⟨?_, fun _ ↦ ?_⟩
    · rw [(status_onSuccess c.ended s').1, failedInRow_of_complete hc]
    · rw [(status_onSuccess c.ended s').1]
      exact lt_max_of_lt_left Nat.one_pos
  · rw [pollCycle_of_not_asks cov polling hc]
    refine ⟨?_, h.online⟩
    rw [failedInRow_of_not_asks hc, ← h.failures]
    rfl

/-- **Run lemma.** -/
theorem counted_run (cov : CovConfig) (polling : PollingConfig) (s : Polled)
    (events : List Event) :
    Counted polling (events.filterMap Event.cycle?) (events.foldl (step cov polling) s.start) := by
  induction events using List.reverseRecOn with
  | nil => exact ⟨rfl, fun _ ↦ lt_max_of_lt_left Nat.one_pos⟩
  | append_singleton events event ih =>
    rw [List.foldl_append, List.filterMap_append]
    cases event with
    | cycle c => exact ih.cycle cov c
    | meanwhile s' =>
      have hnone : [Event.meanwhile s'].filterMap Event.cycle? = [] := rfl
      rw [hnone, List.append_nil]
      exact ⟨ih.failures, ih.online⟩

theorem Counted.offline_iff (h : Counted polling past s) (c : PollCycle)
    (honline : s.device.online = true) : (s.pollCycle cov polling c).device.online = false ↔
      (s.pollCycle cov polling c).device.failures = max 1 polling.offlineAfterCycles := by
  have hlt := h.online honline
  rcases c.failed_or_complete polling with hc | hc | hc
  · obtain ⟨s', lost, hstatus, heq⟩ := pollCycle_of_failed (s := s) cov polling hc
    obtain ⟨hfailures, hkept, -⟩ := status_onFailure cov polling c.ended lost s'
    rw [hstatus.online, hstatus.failures] at hkept
    rw [heq, hfailures, hstatus.failures, ← Bool.not_eq_true, hkept, not_and]
    change (s.device.online = true → ¬ s.device.failures + 1 < polling.offlineAfterCycles) ↔
      s.device.failures + 1 = max 1 polling.offlineAfterCycles
    rw [imp_iff_right honline]
    omega
  · obtain ⟨s', heq⟩ := pollCycle_of_complete (s := s) cov polling hc
    rw [heq, (status_onSuccess c.ended s').1, (status_onSuccess c.ended s').2]
    exact iff_of_false (by decide) (by omega)
  · rw [pollCycle_of_not_asks cov polling hc]
    exact iff_of_false (ne_true_of_eq_false · honline) hlt.ne

/-- Only a failure takes the device offline, and every point is then lost. -/
theorem lost_pollCycle (c : PollCycle) (honline : s.device.online = true)
    (hoffline : (s.pollCycle cov polling c).device.online = false) :
    ∀ point ∈ (s.pollCycle cov polling c).device.points,
      (s.pollCycle cov polling c).Lost point := by
  rcases c.failed_or_complete polling with hc | hc | hc
  · obtain ⟨s', lost, hstatus, heq⟩ := pollCycle_of_failed (s := s) cov polling hc
    rw [heq] at hoffline ⊢
    exact lost_onFailure cov polling c.ended lost (hstatus.online.trans honline) hoffline
  · obtain ⟨s', heq⟩ := pollCycle_of_complete (s := s) cov polling hc
    rw [heq, (status_onSuccess c.ended s').2] at hoffline
    exact absurd hoffline (by decide)
  · rw [pollCycle_of_not_asks cov polling hc] at hoffline
    exact absurd honline (ne_true_of_eq_false hoffline)

theorem back_iff (c : PollCycle) (hoffline : s.device.online = false) :
    (s.pollCycle cov polling c).device.online = true ↔ c.complete polling = true := by
  rcases c.failed_or_complete polling with hc | hc | hc
  · obtain ⟨s', lost, hstatus, heq⟩ := pollCycle_of_failed (s := s) cov polling hc
    have hkept := (status_onFailure cov polling c.ended lost s').2.1
    rw [hstatus.online] at hkept
    rw [heq, hkept, PollCycle.complete_iff, hc]
    exact iff_of_false (fun h ↦ ne_true_of_eq_false hoffline h.1) fun h ↦ absurd h.2 (by decide)
  · obtain ⟨s', heq⟩ := pollCycle_of_complete (s := s) cov polling hc
    rw [heq]
    exact iff_of_true (status_onSuccess c.ended s').2 hc
  · rw [pollCycle_of_not_asks cov polling hc, PollCycle.complete_iff, hc]
    exact iff_of_false (ne_true_of_eq_false hoffline) fun h ↦ absurd h.1 (by decide)

/-- **Detection of the loss of a device.** After every run, a cycle leaves the number of cycles that
failed in a row, the device goes offline with the one that reaches the limit, losing every point,
and comes back with the first cycle that answers everything. -/
theorem detection (cov : CovConfig) (polling : PollingConfig) (s : Polled) (events : List Event)
    (c : PollCycle) : Detection cov polling (events.filterMap Event.cycle?)
      (events.foldl (step cov polling) s.start) c := by
  have hcounted := counted_run cov polling s events
  have hcycle := hcounted.cycle cov c
  refine ⟨hcycle.failures, fun hall ↦ ?_, fun honline ↦ ?_, lost_pollCycle c, back_iff c⟩
  · exact hcycle.failures.trans (failedInRow_eq_silentInRow hall)
  · rw [← hcycle.failures]
    exact hcounted.offline_iff c honline

/-- A device of two points. -/
def airHandler : DeviceState := .new 7 10 "10.0.0.5" "AHU-1" true true
  ([1, 2].map fun p ↦ .new ⟨p, 10, "10.0.0.5", "analog-value", p⟩ none (.fin 0) 900 30 false)

/-- It answers the first of two batches, and not the second. -/
def halfAnswered : PollCycle where
  now := 30
  points := [1, 2]
  read batch := ⟨31, if batch = [1] then .readings [⟨1, 31, some (.fin 20), .ok⟩] else .unreachable⟩
  ended := 46

theorem not_silentInRow : ¬ ∀ (cov : CovConfig) (polling : PollingConfig) (s : Polled)
    (events : List Event) (c : PollCycle),
    ((events.foldl (step cov polling) s.start).pollCycle cov polling c).device.failures
      = silentInRow polling (events.filterMap Event.cycle? ++ [c]) := by
  intro h
  have hfailures := h ⟨3600, 300, 300, 300⟩ ⟨30, 1, 3⟩
    ⟨airHandler, fun _ ↦ none⟩ [] halfAnswered
  exact absurd hfailures (by decide)

end Runs

end Polled

end Superviseur
