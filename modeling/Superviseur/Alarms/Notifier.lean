import Superviseur.Alarms.Messages
import Superviseur.Library.OrderedDict

/-!
# The notifier

Up to `threshold` notifications leave by themselves in a window, for each recipient; those beyond
wait in a digest, which `flush_due` queues when it is due. The queue is what was put in it, each job
with the reading of the clock at that moment; the task that sends the jobs only takes from it.

Whatever the clock says, a notification leaves once, in its place: for each recipient, what has been
queued followed by what is waiting is what was routed to it (`notifications_conserved`).
-/

namespace Superviseur

/-- A recipient: the kind of the channel, and the target. -/
abbrev Recipient := String × String

namespace Notifier

structure Job where
  kind : String
  target : String
  notifications : List Notification
  digest : Bool

def Job.recipient (job : Job) : Recipient := (job.kind, job.target)

structure Digest where
  dueAt : Instant
  items : List Notification

/-- The parameters of the constructor that the routing uses. -/
structure Config where
  defaultEmail : List String
  threshold : ℕ
  windowS : ℚ

/-- A job, with the instant at which it was put in the queue. -/
structure Queued where
  queuedAt : Instant
  job : Job

end Notifier

open Notifier in
structure Notifier where
  /-- The dates of the notifications that left by themselves, oldest first; `deque()` by default. -/
  recent : Recipient → List Instant
  digests : OrderedDict Recipient Digest
  queue : List Queued

namespace Notifier

def empty : Notifier := ⟨fun _ ↦ [], .empty, []⟩

/-- `channel.partition(":")`, without the separator. -/
def partition (channel : String) : String × String :=
  (String.ofList (channel.toList.takeWhile (· ≠ ':')),
    String.ofList ((channel.toList.dropWhile (· ≠ ':')).drop 1))

/-- The recipients of a channel: an address, or the default ones. -/
def targets (cfg : Config) (channel : String) : List Recipient :=
  let (kind, target) := partition channel
  if kind = "email" ∧ target = "" then cfg.defaultEmail.map fun address ↦ ("email", address)
  else if target ≠ "" then [(kind, target)]
  else []

/-- `while recent and now - recent[0] >= window_s: recent.popleft()`. -/
def prune (cfg : Config) (now : Instant) (recent : List Instant) : List Instant :=
  recent.dropWhile fun sent ↦ cfg.windowS ≤ now - sent

/-- The date at which a digest opened now is due. -/
def dueAt (cfg : Config) (now : Instant) (recent : List Instant) : Instant :=
  recent.head?.getD now + cfg.windowS

def setRecent (s : Notifier) (key : Recipient) (recent : List Instant) : Notifier :=
  { s with recent := Function.update s.recent key recent }

/-- `digest.items.append(notification)`. -/
def Digest.add (digest : Digest) (notification : Notification) : Digest :=
  { digest with items := digest.items ++ [notification] }

/-- `_route`. -/
def route (cfg : Config) (now : Instant) (notification : Notification) (s : Notifier)
    (key : Recipient) : Notifier :=
  let recent := prune cfg now (s.recent key)
  match s.digests.get? key with
  | some digest =>
    { s.setRecent key recent with digests := s.digests.insert key (digest.add notification) }
  | none =>
    if cfg.threshold ≤ recent.length then
      { s.setRecent key recent with
        digests := s.digests.insert key (Digest.add ⟨dueAt cfg now recent, []⟩ notification) }
    else
      { s.setRecent key (recent ++ [now]) with
        queue := s.queue ++ [⟨now, ⟨key.1, key.2, [notification], false⟩⟩] }

/-- The recipients a notification is routed to, channel after channel. -/
def recipients (cfg : Config) (notification : Notification) : List Recipient :=
  notification.channels.flatMap (targets cfg)

def submit (cfg : Config) (now : Instant) (notification : Notification) (s : Notifier) :
    Notifier :=
  (recipients cfg notification).foldl (route cfg now notification) s

/-- The digest is due. -/
def isDue (now : Instant) (e : Recipient × Digest) : Bool := decide (e.2.dueAt ≤ now)

def flushDue (now : Instant) (s : Notifier) : Notifier :=
  { s with
    digests := s.digests.filter fun e ↦ !isDue now e
    queue := s.queue ++ (s.digests.filter (isDue now)).entries.map fun e ↦
      ⟨now, ⟨e.1.1, e.1.2, e.2.items, true⟩⟩ }

/-! ## Runs -/

/-- The calls made to the notifier, with the clock they read. -/
inductive Op where
  | submit (now : Instant) (notification : Notification)
  | flush (now : Instant)

def Op.now : Op → Instant
  | submit now _ => now
  | flush now => now

def step (cfg : Config) (s : Notifier) : Op → Notifier
  | .submit now notification => s.submit cfg now notification
  | .flush now => s.flushDue now

def run (cfg : Config) (ops : List Op) : Notifier := ops.foldl (step cfg) empty

/-! ## Conservation -/

/-- The jobs queued for a recipient. -/
def jobsFor (key : Recipient) (s : Notifier) : List Queued :=
  s.queue.filter fun q ↦ q.job.recipient = key

/-- The notifications of the jobs queued for a recipient, in order. -/
def queuedFor (key : Recipient) (s : Notifier) : List Notification :=
  (s.jobsFor key).flatMap fun q ↦ q.job.notifications

/-- The items of its digest, none where there is no digest. -/
def pendingFor (key : Recipient) (s : Notifier) : List Notification :=
  ((s.digests.get? key).map Digest.items).getD []

/-- The notifications routed to a recipient, once for each time it is named. -/
def routedTo (cfg : Config) (key : Recipient) (ops : List Op) : List Notification :=
  ops.flatMap fun
    | .submit _ notification =>
      ((recipients cfg notification).filter (· = key)).map fun _ ↦ notification
    | .flush _ => []

section Routing

variable {cfg : Config} {now : Instant} {notification : Notification} {s : Notifier}
  {key other : Recipient}

theorem route_of_ne (h : other ≠ key) :
    (route cfg now notification s key).recent other = s.recent other ∧
      (route cfg now notification s key).digests.get? other = s.digests.get? other ∧
      (route cfg now notification s key).jobsFor other = s.jobsFor other := by
  unfold route setRecent jobsFor
  dsimp only
  split
  · exact ⟨Function.update_of_ne h _ _, OrderedDict.get?_insert_of_ne h, rfl⟩
  · split
    · exact ⟨Function.update_of_ne h _ _, OrderedDict.get?_insert_of_ne h, rfl⟩
    · refine ⟨Function.update_of_ne h _ _, rfl, ?_⟩
      have hne : (key.1, key.2) ≠ other := fun heq ↦ h heq.symm
      rw [List.filter_append, List.filter_cons_of_neg (by simpa [Job.recipient] using hne),
        List.filter_nil, List.append_nil]

/-- What is queued for the recipient, then what waits: the notification comes last. -/
theorem conserved_route (key' : Recipient) :
    queuedFor key (route cfg now notification s key') ++
        pendingFor key (route cfg now notification s key')
      = queuedFor key s ++ pendingFor key s ++ if key' = key then [notification] else [] := by
  by_cases hkey : key' = key
  · subst hkey
    rw [if_pos rfl]
    unfold route queuedFor pendingFor jobsFor setRecent
    dsimp only
    cases hdigest : s.digests.get? key' with
    | some digest => simp [Digest.add]
    | none =>
      dsimp only
      split
      · simp [Digest.add]
      · simp [hdigest, Job.recipient]
  · obtain ⟨-, hdigests, hjobs⟩ := @route_of_ne cfg now notification s key' key (Ne.symm hkey)
    rw [if_neg hkey, List.append_nil, queuedFor, pendingFor, hdigests, hjobs, queuedFor,
      pendingFor]

theorem conserved_foldl (keys : List Recipient) :
    queuedFor key (keys.foldl (route cfg now notification) s) ++
        pendingFor key (keys.foldl (route cfg now notification) s)
      = queuedFor key s ++ pendingFor key s ++
        (keys.filter (· = key)).map fun _ ↦ notification := by
  induction keys generalizing s with
  | nil => rw [List.foldl_nil, List.filter_nil, List.map_nil, List.append_nil]
  | cons key' keys ih =>
    rw [List.foldl_cons, ih, conserved_route, List.append_assoc]
    by_cases hkey : key' = key
    · rw [if_pos hkey, List.filter_cons_of_pos (by simpa using hkey), List.map_cons]
      rfl
    · rw [if_neg hkey, List.filter_cons_of_neg (by simpa using hkey), List.nil_append]

theorem jobsFor_flushDue (now : Instant) (s : Notifier) (key : Recipient) :
    (s.flushDue now).jobsFor key = s.jobsFor key ++
      (((s.digests.get? key).filter fun digest ↦ decide (digest.dueAt ≤ now)).toList.map
        fun digest ↦ ⟨now, ⟨key.1, key.2, digest.items, true⟩⟩) := by
  have hentries := (s.digests.filter (isDue now)).filter_entries_eq key
  rw [OrderedDict.get?_filter] at hentries
  rw [jobsFor, flushDue, List.filter_append, List.filter_map, jobsFor]
  congr 1
  have hcomp : ((fun q : Queued ↦ decide (q.job.recipient = key)) ∘ fun e : Recipient × Digest ↦
      (⟨now, ⟨e.1.1, e.1.2, e.2.items, true⟩⟩ : Queued)) = fun e ↦ decide (e.1 = key) := rfl
  rw [hcomp, hentries, List.map_map]
  rfl

/-- **A flush moves a digest that is due from what waits to what is queued.** -/
theorem conserved_flushDue (now : Instant) (s : Notifier) (key : Recipient) :
    queuedFor key (s.flushDue now) ++ pendingFor key (s.flushDue now)
      = queuedFor key s ++ pendingFor key s := by
  rw [queuedFor, jobsFor_flushDue, List.flatMap_append, queuedFor, List.append_assoc]
  congr 1
  rw [pendingFor, flushDue, OrderedDict.get?_filter, pendingFor]
  cases hdigest : s.digests.get? key with
  | none => rfl
  | some digest => by_cases hdue : digest.dueAt ≤ now <;> simp [Option.filter, isDue, hdue]

end Routing

/-- **No notification is lost, repeated or moved.** For each recipient, the notifications of its
jobs in the order of the queue, followed by those of its digest, are those routed to it, in the
order of the calls. -/
theorem notifications_conserved (cfg : Config) (ops : List Op) (key : Recipient) :
    queuedFor key (run cfg ops) ++ pendingFor key (run cfg ops) = routedTo cfg key ops := by
  have hrun : ∀ s, queuedFor key (ops.foldl (step cfg) s) ++ pendingFor key (ops.foldl (step cfg) s)
      = queuedFor key s ++ pendingFor key s ++ routedTo cfg key ops := by
    induction ops with
    | nil =>
      intro s
      rw [List.foldl_nil, routedTo, List.flatMap_nil, List.append_nil]
    | cons op ops ih =>
      intro s
      rw [List.foldl_cons, ih, routedTo, routedTo, List.flatMap_cons, ← List.append_assoc]
      congr 1
      rcases op with ⟨now, notification⟩ | now
      · exact conserved_foldl _
      · rw [step, conserved_flushDue, List.append_nil]
  exact hrun empty

end Notifier

end Superviseur
