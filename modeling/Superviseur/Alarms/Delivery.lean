import Mathlib.Algebra.Order.Ring.Rat
import Superviseur.Alarms.Notifier
import Superviseur.Library.Trace

/-!
# The delivery of the notifications

One task takes the jobs of the notifier from its queue, one at a time, and gives each to the sender
of its kind of channel. A sending that fails is tried again, after a delay that doubles each time,
and is abandoned after `attempts` tries; a kind without a sender is abandoned at once. Meanwhile the
engine submits notifications, and another task queues the digests that are due.

In every run the jobs are dealt with in the order of the queue: those that were sent or abandoned,
and the one that is being sent, are its first ones. So for each recipient what was sent or
abandoned, what is being sent, what is queued and what waits in a digest are together what was
routed to it, in that order; each job was tried as many times as the code says, and not sooner
(`jobs_delivered`).
-/

namespace Superviseur

namespace Notifier

structure DeliveryConfig extends Config where
  /-- There is a sender for this kind of channel (`_senders`). -/
  supported : String → Bool
  attempts : ℕ
  retryDelayS : ℚ

/-- One call of the sender. -/
structure Try where
  startedAt : Instant
  endedAt : Instant
  ok : Bool
  deriving DecidableEq

inductive Outcome where
  | sent
  | abandoned
  /-- The kind of the channel has no sender. -/
  | unsupported
  deriving DecidableEq

/-- A job that `_deliver` is done with. -/
structure Handled where
  job : Job
  tries : List Try
  outcome : Outcome

/-- What `_deliver` does. -/
inductive Sending where
  /-- `run` waits for a job. -/
  | idle
  | trying (job : Job) (tries : List Try) (startedAt : Instant)
  | sleeping (job : Job) (tries : List Try) (wakesAt : Instant)

def Sending.job : Sending → Option Job
  | idle => none
  | trying job .. | sleeping job .. => some job

structure Delivery where
  now : Instant
  notifier : Notifier := empty
  /-- How many jobs of the queue were taken. -/
  taken : ℕ := 0
  stage : Sending := .idle
  handled : List Handled := []
  /-- The calls made to the notifier. -/
  calls : List Op := []

namespace Delivery

inductive Label where
  | elapses (d : ℚ)
  | submits (notification : Notification)
  /-- `flush_due`, by `_flush_loop`. -/
  | flushes
  /-- `queue.get` gives a job. -/
  | takes
  /-- The sender returns, or raises. -/
  | ends (ok : Bool)
  /-- The delay is over. -/
  | wakes

/-- How long `_deliver` sleeps after this many tries. -/
def backoff (cfg : DeliveryConfig) (tries : ℕ) : ℚ := cfg.retryDelayS * 2 ^ (tries - 1)

def call (cfg : DeliveryConfig) (s : Delivery) (op : Op) : Delivery :=
  { s with notifier := step cfg.toConfig s.notifier op, calls := s.calls ++ [op] }

/-- `_deliver` returns. -/
def done (s : Delivery) (job : Job) (tries : List Try) (outcome : Outcome) : Delivery :=
  { s with stage := .idle, handled := s.handled ++ [⟨job, tries, outcome⟩] }

/-- `_deliver`, up to the first call of the sender. -/
def deliver (cfg : DeliveryConfig) (s : Delivery) (job : Job) : Delivery :=
  if !cfg.supported job.kind then s.done job [] .unsupported
  else if cfg.attempts = 0 then s.done job [] .abandoned
  else { s with stage := .trying job [] s.now }

/-- `_deliver`, once the sender has returned or raised. -/
def ended (cfg : DeliveryConfig) (s : Delivery) (job : Job) (tries : List Try) (ok : Bool) :
    Delivery :=
  if ok then s.done job tries .sent
  else if tries.length < cfg.attempts then
    { s with stage := .sleeping job tries (s.now + backoff cfg tries.length) }
  else s.done job tries .abandoned

def next (cfg : DeliveryConfig) (s : Delivery) : Label → Option Delivery
  | .elapses d => if 0 ≤ d then some { s with now := s.now + d } else none
  | .submits notification => some (s.call cfg (.submit s.now notification))
  | .flushes => some (s.call cfg (.flush s.now))
  | .takes =>
    match s.stage, s.notifier.queue[s.taken]? with
    | .idle, some queued => some ({ s with taken := s.taken + 1 }.deliver cfg queued.job)
    | _, _ => none
  | .ends ok =>
    match s.stage with
    | .trying job tries startedAt =>
      some (s.ended cfg job (tries ++ [⟨startedAt, s.now, ok⟩]) ok)
    | .idle | .sleeping .. => none
  | .wakes =>
    match s.stage with
    | .sleeping job tries wakesAt =>
      if wakesAt ≤ s.now then some { s with stage := .trying job tries s.now } else none
    | .idle | .trying .. => none

end Delivery

/-! ## The tries of a job -/

/-- No try starts before the delay after the one before it. -/
def Apart (cfg : DeliveryConfig) (tries : List Try) : Prop :=
  ∀ k a b, tries[k]? = some a → tries[k + 1]? = some b →
    a.endedAt + Delivery.backoff cfg (k + 1) ≤ b.startedAt

/-- A try that starts now, or later, does not start too early. -/
def Due (cfg : DeliveryConfig) (tries : List Try) (now : Instant) : Prop :=
  ∀ a, tries.getLast? = some a → a.endedAt + Delivery.backoff cfg tries.length ≤ now

/-- The tries of a job that is not done with: they have all failed. -/
structure Underway (cfg : DeliveryConfig) (job : Job) (tries : List Try) (now : Instant) :
    Prop where
  supported : cfg.supported job.kind
  failed : ∀ t ∈ tries, t.ok = false
  apart : Apart cfg tries
  due : Due cfg tries now
  left : tries.length < cfg.attempts

/-- What was done of a job. -/
def Handled.Follows (cfg : DeliveryConfig) (handled : Handled) : Prop :=
  match handled.outcome with
  | .unsupported => cfg.supported handled.job.kind = false ∧ handled.tries = []
  | .abandoned => cfg.supported handled.job.kind ∧ handled.tries.length = cfg.attempts ∧
      (∀ t ∈ handled.tries, t.ok = false) ∧ Apart cfg handled.tries
  | .sent => cfg.supported handled.job.kind ∧ handled.tries.length ≤ cfg.attempts ∧
      (∃ failed last, handled.tries = failed ++ [last] ∧ (∀ t ∈ failed, t.ok = false) ∧ last.ok) ∧
      Apart cfg handled.tries

section

variable {cfg : DeliveryConfig} {tries : List Try} {t : Try} {now : Instant}

theorem apart_nil : Apart cfg [] := by
  intro k a b ha _
  simp at ha

theorem due_nil (now : Instant) : Due cfg [] now := by
  intro a ha
  simp at ha

theorem Apart.concat (h : Apart cfg tries) (hdue : Due cfg tries t.startedAt) :
    Apart cfg (tries ++ [t]) := by
  intro k a b ha hb
  have hk : k + 1 < (tries ++ [t]).length := (List.getElem?_eq_some_iff.mp hb).1
  rw [List.length_append, List.length_singleton] at hk
  rw [List.getElem?_append_left (by omega)] at ha
  rcases Nat.lt_or_ge (k + 1) tries.length with hlt | hge
  · rw [List.getElem?_append_left hlt] at hb
    exact h k a b ha hb
  · -- The last of the tries so far and the new one.
    have hlength : tries.length = k + 1 := by omega
    rw [List.getElem?_append_right hge, hlength, Nat.sub_self] at hb
    obtain rfl := Option.some.inj hb
    have hlast : tries.getLast? = some a := by
      rw [List.getLast?_eq_getElem?, hlength, Nat.add_sub_cancel, ha]
    have hstart := hdue a hlast
    rwa [hlength] at hstart

theorem Due.mono {now' : Instant} (h : Due cfg tries now) (hnow : now ≤ now') :
    Due cfg tries now' :=
  fun a ha ↦ (h a ha).trans hnow

theorem Underway.concat {job : Job} (h : Underway cfg job tries t.startedAt) :
    Apart cfg (tries ++ [t]) ∧ (tries ++ [t]).length ≤ cfg.attempts :=
  ⟨h.apart.concat h.due, by rw [List.length_append]; exact h.left⟩

end

/-! ## The queue -/

/-- The notifications of the jobs for a recipient. -/
def notificationsFor (key : Recipient) (jobs : List Job) : List Notification :=
  (jobs.filter fun job ↦ job.recipient = key).flatMap Job.notifications

theorem notificationsFor_append (key : Recipient) (jobs jobs' : List Job) :
    notificationsFor key (jobs ++ jobs') =
      notificationsFor key jobs ++ notificationsFor key jobs' := by
  rw [notificationsFor, List.filter_append, List.flatMap_append]
  rfl

theorem queuedFor_eq (key : Recipient) (s : Notifier) :
    queuedFor key s = notificationsFor key (s.queue.map Queued.job) := by
  rw [queuedFor, jobsFor, notificationsFor, List.filter_map, List.flatMap_map]
  rfl

theorem queue_route (cfg : Config) (now : Instant) (notification : Notification) (s : Notifier)
    (key : Recipient) : s.queue <+: (route cfg now notification s key).queue := by
  unfold route setRecent
  dsimp only
  split
  · exact List.prefix_refl _
  · split
    · exact List.prefix_refl _
    · exact List.prefix_append ..

theorem queue_foldl (cfg : Config) (now : Instant) (notification : Notification)
    (keys : List Recipient) (s : Notifier) :
    s.queue <+: (keys.foldl (route cfg now notification) s).queue := by
  induction keys generalizing s with
  | nil => exact List.prefix_refl _
  | cons key keys ih => exact (queue_route cfg now notification s key).trans (ih _)

theorem queue_step (cfg : Config) (s : Notifier) (op : Op) : s.queue <+: (step cfg s op).queue := by
  cases op with
  | submit now notification => exact queue_foldl cfg now notification _ s
  | flush now => exact List.prefix_append ..

theorem conserved_step (cfg : Config) (s : Notifier) (op : Op) (key : Recipient) :
    queuedFor key (step cfg s op) ++ pendingFor key (step cfg s op) =
      queuedFor key s ++ pendingFor key s ++ routedTo cfg key [op] := by
  cases op with
  | submit now notification =>
    rw [step, submit, conserved_foldl]
    simp [routedTo]
  | flush now =>
    rw [step, conserved_flushDue]
    simp [routedTo]

/-! ## One step -/

namespace Delivery

/-- What is known of the job that is being delivered. -/
def StageValid (cfg : DeliveryConfig) (s : Delivery) : Prop :=
  match s.stage with
  | .idle => True
  | .trying job tries startedAt => Underway cfg job tries startedAt
  | .sleeping job tries wakesAt => Underway cfg job tries wakesAt

/-- What holds at every moment. -/
structure Valid (cfg : DeliveryConfig) (s : Delivery) : Prop where
  /-- The jobs are dealt with in the order of the queue. -/
  jobs : s.handled.map Handled.job ++ s.stage.job.toList =
    (s.notifier.queue.map Queued.job).take s.taken
  conserved : ∀ key, queuedFor key s.notifier ++ pendingFor key s.notifier =
    routedTo cfg.toConfig key s.calls
  handled : ∀ handled ∈ s.handled, handled.Follows cfg
  stage : StageValid cfg s
  taken : s.taken ≤ s.notifier.queue.length

variable {cfg : DeliveryConfig} {s s' : Delivery} {job : Job} {tries : List Try}

theorem valid_init (cfg : DeliveryConfig) (now : Instant) : Valid cfg { now } where
  jobs := rfl
  conserved _ := rfl
  handled := by simp
  stage := trivial
  taken := le_refl _

theorem Valid.call (h : Valid cfg s) (op : Op) : Valid cfg (s.call cfg op) where
  jobs := by
    obtain ⟨rest, hrest⟩ := queue_step cfg.toConfig s.notifier op
    rw [Delivery.call, ← hrest, List.map_append, List.take_append_of_le_length]
    · exact h.jobs
    · rw [List.length_map]
      exact h.taken
  conserved key := by
    rw [Delivery.call, conserved_step, h.conserved key]
    simp only [routedTo, List.flatMap_append, List.flatMap_cons, List.flatMap_nil, List.append_nil]
  handled := h.handled
  stage := h.stage
  taken := h.taken.trans (queue_step cfg.toConfig s.notifier op).length_le

theorem Valid.done {outcome : Outcome} (h : Valid cfg s) (hjob : s.stage.job = some job)
    (hfollows : Handled.Follows cfg ⟨job, tries, outcome⟩) :
    Valid cfg (s.done job tries outcome) where
  jobs := by
    rw [Delivery.done, List.map_append, Sending.job, ← h.jobs, hjob]
    simp
  conserved := h.conserved
  handled handled hmem := by
    rcases List.mem_append.mp hmem with hold | hnew
    · exact h.handled handled hold
    · rw [List.mem_singleton.mp hnew]
      exact hfollows
  stage := trivial
  taken := h.taken

theorem Valid.takes {queued : Queued} (h : Valid cfg s) (hidle : s.stage = .idle)
    (hqueued : s.notifier.queue[s.taken]? = some queued) :
    Valid cfg ({ s with taken := s.taken + 1 }.deliver cfg queued.job) := by
  -- As soon as it is taken the job is the one that is being delivered.
  have hjobs : s.handled.map Handled.job ++ [queued.job] =
      (s.notifier.queue.map Queued.job).take (s.taken + 1) := by
    have hbefore := h.jobs
    rw [hidle, Sending.job, Option.toList_none, List.append_nil] at hbefore
    rw [List.take_add_one, List.getElem?_map, hqueued, hbefore]
    rfl
  have htaken : s.taken + 1 ≤ s.notifier.queue.length :=
    (List.getElem?_eq_some_iff.mp hqueued).1
  have hdone {outcome : Outcome} (hfollows : Handled.Follows cfg ⟨queued.job, [], outcome⟩) :
      Valid cfg ({ s with taken := s.taken + 1 }.done queued.job [] outcome) := by
    refine ⟨?_, h.conserved, fun handled hmem ↦ ?_, trivial, htaken⟩
    · simpa [Delivery.done, Sending.job] using hjobs
    · rcases List.mem_append.mp hmem with hold | hnew
      · exact h.handled handled hold
      · rw [List.mem_singleton.mp hnew]
        exact hfollows
  rw [deliver]
  split
  · next hsupported => exact hdone ⟨by simpa using hsupported, rfl⟩
  split
  · next hsupported hattempts =>
    exact hdone ⟨by simpa using hsupported, hattempts.symm, by simp, apart_nil⟩
  · next hsupported hattempts =>
    refine ⟨hjobs, h.conserved, h.handled, ?_, htaken⟩
    exact ⟨by simpa using hsupported, by simp, apart_nil, due_nil _, Nat.pos_of_ne_zero hattempts⟩

theorem Valid.ended {startedAt : Instant} (h : Valid cfg s)
    (hstage : s.stage = .trying job tries startedAt) (ok : Bool) :
    Valid cfg (s.ended cfg job (tries ++ [⟨startedAt, s.now, ok⟩]) ok) := by
  have hunderway : Underway cfg job tries startedAt := by
    have hvalid := h.stage
    rwa [StageValid, hstage] at hvalid
  obtain ⟨hapart, hlength⟩ := hunderway.concat (t := ⟨startedAt, s.now, ok⟩)
  have hjob : s.stage.job = some job := by rw [hstage, Sending.job]
  have hfailed (hok : ok = false) :
      ∀ t ∈ tries ++ [(⟨startedAt, s.now, ok⟩ : Try)], t.ok = false := by
    intro t ht
    rcases List.mem_append.mp ht with hold | hnew
    · exact hunderway.failed t hold
    · rw [List.mem_singleton.mp hnew]
      exact hok
  rw [Delivery.ended]
  split
  · next hok =>
    exact h.done hjob
      ⟨hunderway.supported, hlength, ⟨tries, _, rfl, hunderway.failed, hok⟩, hapart⟩
  split
  · next hok hleft =>
    have hok := Bool.eq_false_of_not_eq_true hok
    refine ⟨?_, h.conserved, h.handled, ?_, h.taken⟩
    · rw [← h.jobs, hjob]
      rfl
    · refine ⟨hunderway.supported, hfailed hok, hapart, fun a ha ↦ ?_, hleft⟩
      rw [List.getLast?_concat, Option.some.injEq] at ha
      subst ha
      exact le_refl _
  · next hok hleft =>
    have hok := Bool.eq_false_of_not_eq_true hok
    exact h.done hjob ⟨hunderway.supported, le_antisymm hlength (not_lt.mp hleft), hfailed hok,
      hapart⟩

/-- **One step.** -/
theorem Valid.step {label : Label} (h : Valid cfg s) (hstep : s.next cfg label = some s') :
    Valid cfg s' := by
  cases label with
  | elapses d =>
    rw [next] at hstep
    split at hstep
    · obtain rfl := Option.some.inj hstep
      exact ⟨h.jobs, h.conserved, h.handled, h.stage, h.taken⟩
    · exact absurd hstep (by simp)
  | submits notification =>
    obtain rfl := Option.some.inj hstep
    exact h.call _
  | flushes =>
    obtain rfl := Option.some.inj hstep
    exact h.call _
  | takes =>
    rw [next] at hstep
    split at hstep
    · next queued hidle hqueued =>
      obtain rfl := Option.some.inj hstep
      exact h.takes hidle hqueued
    · exact absurd hstep (by simp)
  | ends ok =>
    rw [next] at hstep
    split at hstep
    · next hstage =>
      obtain rfl := Option.some.inj hstep
      exact h.ended hstage ok
    all_goals exact absurd hstep (by simp)
  | wakes =>
    rw [next] at hstep
    split at hstep
    · next job tries wakesAt hstage =>
      split at hstep
      · next hnow =>
        obtain rfl := Option.some.inj hstep
        have hvalid := h.stage
        rw [StageValid, hstage] at hvalid
        refine ⟨?_, h.conserved, h.handled, ?_, h.taken⟩
        · rw [← h.jobs, hstage]
          rfl
        · exact ⟨hvalid.supported, hvalid.failed, hvalid.apart, hvalid.due.mono hnow, hvalid.left⟩
      · exact absurd hstep (by simp)
    all_goals exact absurd hstep (by simp)

/-! ## Every run -/

/-- The jobs of the queue that were not taken. -/
def left (s : Delivery) : List Job := (s.notifier.queue.map Queued.job).drop s.taken

/-- **Each notification is dealt with once, in its place.** In every run, the jobs that `_deliver`
is done with and the one it deals with are the first of the queue, in order, and those left are the
others. They hold, with the digest that waits, what was routed to each recipient, in that order;
each job done with was sent by the last of its tries, or abandoned after all of them, and no try
started before its delay. -/
theorem jobs_delivered {labels : List Label} {now : Instant}
    (hrun : Trace.Path (fun s label s' ↦ s.next cfg label = some s') { now } labels s) :
    s.handled.map Handled.job ++ s.stage.job.toList ++ s.left =
        s.notifier.queue.map Queued.job ∧
      (∀ key, notificationsFor key (s.handled.map Handled.job) ++
        notificationsFor key s.stage.job.toList ++ notificationsFor key s.left ++
        pendingFor key s.notifier = routedTo cfg.toConfig key s.calls) ∧
      ∀ handled ∈ s.handled, handled.Follows cfg := by
  have h : Valid cfg s := hrun.invariant (Valid cfg) (fun hs hstep ↦ hs.step hstep)
    (valid_init cfg now)
  have hqueue : s.handled.map Handled.job ++ s.stage.job.toList ++ s.left =
      s.notifier.queue.map Queued.job := by
    rw [h.jobs, left, List.take_append_drop]
  refine ⟨hqueue, fun key ↦ ?_, h.handled⟩
  rw [← notificationsFor_append, ← notificationsFor_append, hqueue, ← queuedFor_eq,
    h.conserved key]

/-- Three tries, a second apart and then two, for the electronic mail only. -/
def threeTries : DeliveryConfig := ⟨⟨[], 20, 60⟩, fun kind ↦ kind = "email", 3, 1⟩

def critical : Notification where
  eventId := 1
  kind := .raised
  severity := .critical
  subject := ""
  payload := ⟨1, 3, none, .high, .critical, .activeUnacked, 7, "T1", none, none, none, none, 0,
    none, none, none⟩
  channels := ["email:ops@x.fr", "webhook:https://x.fr"]

/-- The first try of the mail fails, and there is nobody for the webhook. -/
def secondTry : List Label :=
  [.submits critical, .takes, .ends false, .elapses 1, .wakes, .ends true, .takes]

theorem jobs_delivered_secondTry : ∃ s : Delivery,
    (s.handled.map fun handled ↦ (handled.tries.length, handled.outcome)) =
      [(2, .sent), (0, .unsupported)] ∧
      s.handled.map Handled.job ++ s.stage.job.toList ++ s.left =
        s.notifier.queue.map Queued.job ∧
      ∀ handled ∈ s.handled, handled.Follows threeTries := by
  have hends : (Trace.exec (next threeTries) { now := 0 } secondTry).map (fun s ↦
      s.handled.map fun handled ↦ (handled.tries.length, handled.outcome)) =
      some [(2, .sent), (0, .unsupported)] := by decide +kernel
  obtain ⟨s, hs, hends⟩ := Option.map_eq_some_iff.mp hends
  obtain ⟨hqueue, -, hfollows⟩ := jobs_delivered (.of_exec_next hs)
  exact ⟨s, hends, hqueue, hfollows⟩

end Delivery

end Notifier

end Superviseur
