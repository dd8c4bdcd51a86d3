import Mathlib.Data.Rat.Defs
import Superviseur.Library.Trace

/-!
# Discoveries on demand

The collector discovers the network again and again, at an interval, or as soon as it is asked to: a
request is a message on a channel of Redis, which `DiscoveryTrigger.run` takes to set an event, and
`rediscover` waits for that event between two discoveries, for some time at most.

The event says that there was a request, and not how many. The steps are those of the two tasks and
of Redis, in any order. Between the moment the event is set and the moment `rediscover` is resumed,
the time it waits for may run out: it then goes on without clearing the event, and another discovery
follows. No request is lost for all that (`requests_served`).
-/

namespace Superviseur.DiscoveryTrigger

/-- What `rediscover` does. -/
inductive Stage where
  /-- `discover`; the first one is not protected. -/
  | discovering (first : Bool)
  /-- `wait`, while the event is not set. -/
  | waiting
  /-- `wait`, once the event was set: it is to be resumed. -/
  | woken
  /-- It has raised, which stops the service. -/
  | stopped
  deriving DecidableEq, Repr

inductive Event where
  /-- A request reached the channel. -/
  | requested
  /-- `run` has taken a message, and set the event. -/
  | received
  | timedOut
  /-- A discovery begins. -/
  | begun
  deriving DecidableEq, Repr

structure Trigger where
  /-- `run` has subscribed to the channel. -/
  subscribed : Bool := false
  /-- The messages that `run` has not taken yet. -/
  queue : ℕ := 0
  event : Bool := false
  stage : Stage := .discovering true
  /-- What the last discovery that succeeded has found. -/
  found : ℕ := 0
  /-- What has happened, the latest first. -/
  log : List Event := [.begun]
  deriving DecidableEq, Repr

inductive Label where
  /-- `POST /discovery/run`. -/
  | requests
  | subscribes
  /-- `run` takes a message. -/
  | takes
  /-- `discover` returns the number of devices it has found. -/
  | discovered (found : ℕ)
  /-- `discover` raises. -/
  | fails
  /-- `rediscover` is resumed by the event. -/
  | resumes
  /-- `rediscover` is resumed by the end of its time. -/
  | timesOut
  deriving DecidableEq, Repr

/-- `RETRY_DISCOVERY_S`. -/
def retryDiscovery : ℚ := 60

/-- How long `rediscover` waits. -/
def timeout (interval : ℚ) (found : ℕ) : ℚ := if found = 0 then retryDiscovery else interval

/-- Whether `run_discovery` of the API is answered 202; 503 otherwise. -/
def accepted (s : Trigger) : Bool := s.subscribed

namespace Trigger

/-- The next discovery of `rediscover` begins. -/
def begins (s : Trigger) : Trigger :=
  { s with stage := .discovering false, log := .begun :: s.log }

/-- `wait`, from its call to the first time it is suspended. `wait_for` does not look at the event
when it has no time. -/
def waits (interval : ℚ) (s : Trigger) : Trigger :=
  if timeout interval s.found ≤ 0 then { s with log := .timedOut :: s.log }.begins
  else if s.event then { s with event := false }.begins
  else { s with stage := .waiting }

def next (interval : ℚ) (s : Trigger) : Label → Option Trigger
  | .subscribes => some { s with subscribed := true }
  | .requests =>
    if accepted s then some { s with queue := s.queue + 1, log := .requested :: s.log } else some s
  | .takes =>
    if s.queue = 0 then none
    else some { s with
      queue := s.queue - 1
      event := true
      stage := if s.stage = .waiting then .woken else s.stage
      log := .received :: s.log }
  | .discovered found =>
    match s.stage with
    | .discovering _ => some ({ s with found }.waits interval)
    | .waiting | .woken | .stopped => none
  | .fails =>
    match s.stage with
    | .discovering true => some { s with stage := .stopped }
    | .discovering false => some (s.waits interval)
    | .waiting | .woken | .stopped => none
  | .resumes =>
    match s.stage with
    | .woken => some { s with event := false }.begins
    | .discovering _ | .waiting | .stopped => none
  | .timesOut =>
    match s.stage with
    | .waiting | .woken => some { s with log := .timedOut :: s.log }.begins
    | .discovering _ | .stopped => none

end Trigger

/-- A step of `rediscover`. -/
def Label.isRediscover : Label → Bool
  | .discovered _ | .fails | .resumes | .timesOut => true
  | .requests | .subscribes | .takes => false

/-- A request was received, and no discovery has begun since. -/
def Unserved (log : List Event) : Prop :=
  .received ∈ log.takeWhile fun event ↦ event ≠ .begun

theorem not_unserved_begun (log : List Event) : ¬ Unserved (.begun :: log) := by
  simp [Unserved]

theorem unserved_cons {event : Event} {log : List Event} (hbegun : event ≠ .begun)
    (hreceived : event ≠ .received) : Unserved (event :: log) ↔ Unserved log := by
  simp [Unserved, hbegun, hreceived.symm]

/-- What holds at every moment. -/
structure Valid (s : Trigger) : Prop where
  /-- Until a request is served the event is set. -/
  event : Unserved s.log → s.event
  /-- `rediscover` is suspended only while the event is not set. -/
  waiting : s.stage = .waiting → s.event = false
  woken : s.stage = .woken → s.event
  /-- Each discovery but the first has a reason of its own. -/
  begun : s.log.count .begun + (if s.event then 1 else 0) ≤
    1 + s.log.count .timedOut + s.log.count .received
  queue : s.log.count .requested = s.log.count .received + s.queue

variable {interval : ℚ} {s s' : Trigger}

theorem valid_init : Valid {} where
  event := by simp [Unserved]
  waiting := by simp
  woken := by simp
  begun := by decide
  queue := rfl

/-! ## One step -/

theorem Valid.timedOut (h : Valid s) : Valid { s with log := .timedOut :: s.log }.begins where
  event hunserved := absurd hunserved (not_unserved_begun _)
  waiting := by simp [Trigger.begins]
  woken := by simp [Trigger.begins]
  begun := by
    have hbegun := h.begun
    simp only [Trigger.begins, List.count_cons, beq_iff_eq, reduceCtorEq, if_true, if_false]
    cases hevent : s.event with
    | true =>
      simp only [hevent, if_true] at hbegun ⊢
      omega
    | false =>
      simp only [hevent, Bool.false_eq_true, if_false] at hbegun ⊢
      omega
  queue := by simpa [Trigger.begins, List.count_cons] using h.queue

theorem Valid.cleared (h : Valid s) (hevent : s.event) :
    Valid { s with event := false }.begins where
  event hunserved := absurd hunserved (not_unserved_begun _)
  waiting := by simp [Trigger.begins]
  woken := by simp [Trigger.begins]
  begun := by
    have hbegun := h.begun
    simp only [hevent, if_true] at hbegun
    simp only [Trigger.begins, List.count_cons, beq_iff_eq, reduceCtorEq, if_true, if_false,
      Bool.false_eq_true]
    omega
  queue := by simpa [Trigger.begins, List.count_cons] using h.queue

theorem Valid.waits (h : Valid s) : Valid (s.waits interval) := by
  rw [Trigger.waits]
  split
  · exact h.timedOut
  split
  · next hevent => exact h.cleared hevent
  · next hevent =>
    exact ⟨h.event, fun _ ↦ Bool.not_eq_true _ ▸ hevent, by simp, h.begun, h.queue⟩

/-- **One step.** -/
theorem Valid.step {label : Label} (h : Valid s) (hstep : s.next interval label = some s') :
    Valid s' := by
  cases label with
  | subscribes =>
    obtain rfl := Option.some.inj hstep
    exact ⟨h.event, h.waiting, h.woken, h.begun, h.queue⟩
  | requests =>
    rw [Trigger.next] at hstep
    split at hstep
    · obtain rfl := Option.some.inj hstep
      refine ⟨fun hunserved ↦ h.event ?_, h.waiting, h.woken, ?_, ?_⟩
      · exact (unserved_cons (by simp) (by simp)).mp hunserved
      · simpa [List.count_cons] using h.begun
      · have hqueue := h.queue
        simp only [List.count_cons, beq_iff_eq, reduceCtorEq, if_true, if_false]
        omega
    · obtain rfl := Option.some.inj hstep
      exact h
  | takes =>
    rw [Trigger.next] at hstep
    split at hstep
    · exact absurd hstep (by simp)
    · next hne =>
      obtain rfl := Option.some.inj hstep
      refine ⟨fun _ ↦ rfl, fun hstage ↦ ?_, fun _ ↦ rfl, ?_, ?_⟩
      · dsimp only at hstage
        split at hstage
        · exact absurd hstage (by simp)
        · next hne => exact absurd hstage hne
      · have hbegun := h.begun
        simp only [List.count_cons, beq_iff_eq, reduceCtorEq, if_true, if_false]
        omega
      · have hqueue := h.queue
        simp only [List.count_cons, beq_iff_eq, reduceCtorEq, if_true, if_false]
        omega
  | discovered found =>
    rw [Trigger.next] at hstep
    split at hstep
    · obtain rfl := Option.some.inj hstep
      exact Valid.waits ⟨h.event, h.waiting, h.woken, h.begun, h.queue⟩
    all_goals exact absurd hstep (by simp)
  | fails =>
    rw [Trigger.next] at hstep
    split at hstep
    · obtain rfl := Option.some.inj hstep
      exact ⟨h.event, by simp, by simp, h.begun, h.queue⟩
    · obtain rfl := Option.some.inj hstep
      exact h.waits
    all_goals exact absurd hstep (by simp)
  | resumes =>
    rw [Trigger.next] at hstep
    split at hstep
    · next hstage =>
      obtain rfl := Option.some.inj hstep
      exact h.cleared (h.woken hstage)
    all_goals exact absurd hstep (by simp)
  | timesOut =>
    rw [Trigger.next] at hstep
    split at hstep
    · obtain rfl := Option.some.inj hstep
      exact h.timedOut
    · obtain rfl := Option.some.inj hstep
      exact h.timedOut
    all_goals exact absurd hstep (by simp)

/-- Once the event is set, the next step of `rediscover` begins a discovery, or is its last. -/
theorem begun_of_event {label : Label} (h : s.next interval label = some s')
    (hlabel : label.isRediscover) (hevent : s.event) :
    s'.stage = .stopped ∨ s'.log.head? = some .begun := by
  have hwaits {t : Trigger} (ht : t.event) : (t.waits interval).log.head? = some .begun := by
    rw [Trigger.waits, if_pos ht]
    split
    · rfl
    · rfl
  cases label with
  | discovered found =>
    rw [Trigger.next] at h
    split at h
    · obtain rfl := Option.some.inj h
      exact .inr (hwaits hevent)
    all_goals exact absurd h (by simp)
  | fails =>
    rw [Trigger.next] at h
    split at h
    · obtain rfl := Option.some.inj h
      exact .inl rfl
    · obtain rfl := Option.some.inj h
      exact .inr (hwaits hevent)
    all_goals exact absurd h (by simp)
  | resumes =>
    rw [Trigger.next] at h
    split at h
    · obtain rfl := Option.some.inj h
      exact .inr rfl
    all_goals exact absurd h (by simp)
  | timesOut =>
    rw [Trigger.next] at h
    split at h
    · obtain rfl := Option.some.inj h
      exact .inr rfl
    · obtain rfl := Option.some.inj h
      exact .inr rfl
    all_goals exact absurd h (by simp)
  | requests => simp [Label.isRediscover] at hlabel
  | subscribes => simp [Label.isRediscover] at hlabel
  | takes => simp [Label.isRediscover] at hlabel

/-! ## Every run -/

/-- **No request is lost.** In every run, each request accepted is received or still on the channel;
`rediscover` is suspended only once each request received has had a discovery begin after it, and
the first thing it does after one, if it does not stop the service, is to begin a discovery. Of
discoveries there are the first one, and at most one for each end of the wait and each request. -/
theorem requests_served {labels : List Label}
    (hrun : Trace.Path (fun s label s' ↦ s.next interval label = some s') {} labels s) :
    s.log.count .requested = s.log.count .received + s.queue ∧
      (s.stage = .waiting → ¬ Unserved s.log) ∧
      (∀ label s', label.isRediscover → s.next interval label = some s' → Unserved s.log →
        s'.stage = .stopped ∨ s'.log.head? = some .begun) ∧
      s.log.count .begun ≤ 1 + s.log.count .timedOut + s.log.count .received := by
  have h : Valid s := hrun.invariant Valid (fun hs hstep ↦ hs.step hstep) valid_init
  refine ⟨h.queue, fun hstage hunserved ↦ ?_, fun label s' hlabel hstep hunserved ↦ ?_, ?_⟩
  · have hevent := h.event hunserved
    rw [h.waiting hstage] at hevent
    exact absurd hevent (by simp)
  · exact begun_of_event hstep hlabel (h.event hunserved)
  · exact le_trans (Nat.le_add_right ..) h.begun

/-- A request that arrives as the time runs out. -/
def race : List Label :=
  [.subscribes, .discovered 2, .requests, .takes, .timesOut, .discovered 2, .discovered 3]

theorem requests_served_race : ∃ s : Trigger, s.stage = .waiting ∧ s.log.count .begun = 3 ∧
    ¬ Unserved s.log := by
  have hends : (Trace.exec (Trigger.next 3600) {} race).map
      (fun s ↦ (s.stage, s.log.count .begun)) = some (.waiting, 3) := by decide +kernel
  obtain ⟨s, hs, hends⟩ := Option.map_eq_some_iff.mp hends
  rw [Prod.mk.injEq] at hends
  exact ⟨s, hends.1, hends.2, (requests_served (.of_exec_next hs)).2.1 hends.1⟩

end Superviseur.DiscoveryTrigger
