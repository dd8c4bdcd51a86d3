import Mathlib.Logic.Function.Basic
import Superviseur.Common.Models
import Superviseur.Library.OrderedDict
import Superviseur.Library.Trace

/-!
# The polling tasks

`Poller.run` keeps a task for each device of the registry: at each of its passes it creates those
that are missing or have ended, and cancels those of the devices that are gone. Meanwhile the
registry is replaced at any time, and a task ends of its own when it finds its device gone.

A task that is cancelled goes on to the moment it is resumed, and ends there: nothing below
`_device_loop` retains the cancellation. One that is cancelled in a database write first awaits the
clean-up of its session, which comes here before the moment it is resumed. The steps are the passes
of `run`, the changes of the registry, and the stretches of each task between two waits, in any
order.
-/

namespace Superviseur.Supervision

/-- Where a task stands in `_device_loop`. -/
inductive Stage where
  /-- It is to be resumed at the head of its loop: it is new, or sleeps between two cycles. -/
  | resting
  /-- It waits within a cycle. -/
  | polling
  | done
  deriving DecidableEq, Repr

structure Task where
  device : Uuid
  stage : Stage
  /-- `cancel` was called. -/
  cancelled : Bool
  deriving DecidableEq, Repr

/-- A task that runs, and will go on. -/
def Task.live (t : Task) : Bool := t.stage ≠ .done && !t.cancelled

structure Service where
  /-- `registry.devices`. -/
  devices : List Uuid
  /-- `tasks`, by the numbers of the tasks. -/
  tasks : OrderedDict Uuid ℕ
  /-- The tasks ever created, by their numbers. -/
  all : ℕ → Option Task
  created : ℕ
  /-- `run` has not been stopped. -/
  running : Bool

inductive Label where
  /-- A pass of `run`. -/
  | pass
  /-- `registry.replace`, after which these are the devices. -/
  | replaced (devices : List Uuid)
  /-- A task is resumed, and waits in a cycle if there is something to read. -/
  | resumed (n : ℕ) (reads : Bool)
  /-- `run` is cancelled. -/
  | stopped
  deriving DecidableEq, Repr

namespace Service

/-- The collector is started; its devices are not polled yet. -/
def start (devices : List Uuid) : Service := ⟨devices, .empty, fun _ ↦ none, 0, true⟩

/-- `task.done()`. -/
def isDone (s : Service) (n : ℕ) : Bool := (s.all n).all fun t ↦ t.stage = .done

/-- The first loop of `run`, for a device. -/
def ensure (s : Service) (device : Uuid) : Service :=
  if (s.tasks.get? device).all s.isDone then
    { s with
      tasks := s.tasks.insert device s.created
      all := Function.update s.all s.created (some ⟨device, .resting, false⟩)
      created := s.created + 1 }
  else s

/-- `cancel()`, for the tasks of `tasks` whose devices meet a condition. -/
def cancel (s : Service) (p : Uuid → Bool) : Service :=
  { s with all := fun n ↦ (s.all n).map fun t ↦
      { t with cancelled := t.cancelled || (p t.device && s.tasks.get? t.device == some n) } }

/-- A pass of `run`. -/
def pass (s : Service) : Service :=
  let s := s.devices.foldl ensure s
  { s.cancel (fun device ↦ device ∉ s.devices) with
    tasks := s.tasks.filter fun e ↦ e.1 ∈ s.devices }

/-- A task, when it is resumed. -/
def resume (s : Service) (t : Task) (reads : Bool) : Task :=
  if t.cancelled then { t with stage := .done }
  else match t.stage with
    | .resting =>
      if t.device ∈ s.devices then { t with stage := if reads then .polling else .resting }
      else { t with stage := .done }
    | .polling => { t with stage := if reads then .polling else .resting }
    | .done => t

/-- One step, where it is possible. -/
def next (s : Service) : Label → Option Service
  | .pass => if s.running then some s.pass else none
  | .replaced devices => some { s with devices := devices }
  | .resumed n reads =>
    match s.all n with
    | some t =>
      if t.stage = .done then none
      else some { s with all := Function.update s.all n (some (s.resume t reads)) }
    | none => none
  | .stopped =>
    if s.running then some { s.cancel (fun _ ↦ true) with running := false } else none

/-! ## One task for each device -/

/-- The tasks that go on are those of `tasks`, and there is none once `run` is stopped. -/
structure Supervised (s : Service) : Prop where
  known : ∀ device n, s.tasks.get? device = some n →
    ∃ t, s.all n = some t ∧ t.device = device ∧ (s.running = true → t.cancelled = false)
  live : ∀ n t, s.all n = some t → t.live = true →
    s.running = true ∧ s.tasks.get? t.device = some n
  fresh : ∀ n, s.created ≤ n → s.all n = none

theorem supervised_start (devices : List Uuid) : (start devices).Supervised where
  known _ _ h := by simp [start] at h
  live _ _ h := by simp [start] at h
  fresh _ _ := rfl

variable {s t : Service} {device other : Uuid} {n m : ℕ} {task : Task}

theorem Supervised.ne_created (h : s.Supervised) (hn : s.all n = some task) : n ≠ s.created := by
  rintro rfl
  rw [h.fresh s.created le_rfl] at hn
  exact Option.some_ne_none _ hn.symm

@[simp] theorem running_ensure : (s.ensure device).running = s.running := by
  rw [ensure]
  split <;> rfl

@[simp] theorem devices_ensure : (s.ensure device).devices = s.devices := by
  rw [ensure]
  split <;> rfl

theorem Supervised.all_ensure (h : s.Supervised) (hn : s.all n = some task) :
    (s.ensure device).all n = some task := by
  rw [ensure]
  split
  · exact (Function.update_of_ne (h.ne_created hn) _ _).trans hn
  · exact hn

theorem Supervised.ensure (h : s.Supervised) (hrunning : s.running = true) (device : Uuid) :
    (s.ensure device).Supervised := by
  by_cases hdone : (s.tasks.get? device).all s.isDone = true
  · rw [Service.ensure, if_pos hdone]
    refine ⟨fun other n hn ↦ ?_, fun n task hn hlive ↦ ?_, fun n hn ↦ ?_⟩
    · by_cases heq : other = device
      · subst heq
        rw [OrderedDict.get?_insert_self, Option.some.injEq] at hn
        subst hn
        exact ⟨_, Function.update_self _ _ _, rfl, fun _ ↦ rfl⟩
      · rw [OrderedDict.get?_insert_of_ne heq] at hn
        obtain ⟨task, htask, hdevice⟩ := h.known other n hn
        exact ⟨task, (Function.update_of_ne (h.ne_created htask) _ _).trans htask, hdevice⟩
    · dsimp only at hn ⊢
      by_cases heq : n = s.created
      · subst heq
        rw [Function.update_self, Option.some.injEq] at hn
        subst hn
        exact ⟨hrunning, OrderedDict.get?_insert_self⟩
      · rw [Function.update_of_ne heq] at hn
        have htask := (h.live n task hn hlive).2
        have hne : task.device ≠ device := by
          rintro rfl
          -- The task that is replaced has ended.
          rw [htask, Option.all_some, isDone, hn, Option.all_some, decide_eq_true_iff] at hdone
          rw [Task.live, hdone] at hlive
          exact Bool.noConfusion hlive
        exact ⟨hrunning, (OrderedDict.get?_insert_of_ne hne).trans htask⟩
    · exact (Function.update_of_ne (Nat.ne_of_gt hn) _ _).trans (h.fresh n (Nat.le_of_succ_le hn))
  · rw [Service.ensure, if_neg hdone]
    exact h

/-- A task of the device goes on. -/
def Polled (s : Service) (device : Uuid) : Prop :=
  ∃ n task, s.all n = some task ∧ task.device = device ∧ task.live = true

theorem Polled.ensure (h : s.Supervised) (hpolled : s.Polled other) :
    (s.ensure device).Polled other := by
  obtain ⟨n, task, hn, htask⟩ := hpolled
  exact ⟨n, task, h.all_ensure hn, htask⟩

theorem polled_ensure (h : s.Supervised) (hrunning : s.running = true) :
    (s.ensure device).Polled device := by
  by_cases hdone : (s.tasks.get? device).all s.isDone = true
  · rw [Service.ensure, if_pos hdone]
    exact ⟨s.created, _, Function.update_self _ _ _, rfl, rfl⟩
  · rw [Service.ensure, if_neg hdone]
    cases hget : s.tasks.get? device with
    | none => exact absurd (by rw [hget]; rfl) hdone
    | some n =>
      obtain ⟨task, hn, hdevice, hcancelled⟩ := h.known device n hget
      rw [hget, Option.all_some, isDone, hn, Option.all_some, decide_eq_true_iff] at hdone
      refine ⟨n, task, hn, hdevice, ?_⟩
      rw [Task.live, hcancelled hrunning, decide_eq_true hdone]
      rfl

theorem Supervised.foldl_ensure (devices : List Uuid) (h : s.Supervised)
    (hrunning : s.running = true) :
    (devices.foldl Service.ensure s).Supervised ∧
      (devices.foldl Service.ensure s).running = true ∧
      (devices.foldl Service.ensure s).devices = s.devices ∧
      ∀ device, device ∈ devices ∨ s.Polled device →
        (devices.foldl Service.ensure s).Polled device := by
  induction devices generalizing s with
  | nil => exact ⟨h, hrunning, rfl, fun device hdevice ↦ hdevice.resolve_left List.not_mem_nil⟩
  | cons first devices ih =>
    obtain ⟨hsupervised, hrunning', hdevices, hpolled⟩ :=
      ih (h.ensure hrunning first) (running_ensure.trans hrunning)
    refine ⟨hsupervised, hrunning', hdevices.trans devices_ensure, fun device hdevice ↦ ?_⟩
    refine hpolled device ?_
    rcases hdevice with hmem | hdevice
    · rcases List.mem_cons.mp hmem with rfl | hmem
      · exact .inr (polled_ensure h hrunning)
      · exact .inl hmem
    · exact .inr (hdevice.ensure h)

/-! ## Passes -/

theorem exists_of_cancel {p : Uuid → Bool} (h : (s.cancel p).all n = some task) :
    ∃ before, s.all n = some before ∧ task.device = before.device ∧ task.stage = before.stage ∧
      task.cancelled =
        (before.cancelled || (p before.device && s.tasks.get? before.device == some n)) := by
  obtain ⟨before, hbefore, rfl⟩ := Option.map_eq_some_iff.mp h
  exact ⟨before, hbefore, rfl, rfl, rfl⟩

theorem all_cancel {p : Uuid → Bool} (h : s.all n = some task) (hp : p task.device = false) :
    (s.cancel p).all n = some task := by
  have hcancelled : (task.cancelled || (p task.device && s.tasks.get? task.device == some n)) =
      task.cancelled := by
    rw [hp, Bool.false_and, Bool.or_false]
  rw [cancel]
  dsimp only
  rw [h, Option.map_some, hcancelled]

theorem live_of_cancel {p : Uuid → Bool} (h : s.Supervised) (hn : (s.cancel p).all n = some task)
    (hlive : task.live = true) :
    s.running = true ∧ s.tasks.get? task.device = some n ∧ p task.device = false := by
  obtain ⟨before, hbefore, hdevice, hstage, hcancelled⟩ := exists_of_cancel hn
  rw [Task.live, hstage, hcancelled, Bool.and_eq_true, Bool.not_eq_true', Bool.or_eq_false_iff]
    at hlive
  obtain ⟨hstage', hbefore', hp⟩ := hlive
  have hget := h.live n before hbefore (by rw [Task.live, hstage', hbefore']; rfl)
  rw [hget.2, beq_self_eq_true, Bool.and_true] at hp
  exact ⟨hget.1, hdevice ▸ hget.2, hdevice ▸ hp⟩

theorem Supervised.pass (h : s.Supervised) (hrunning : s.running = true) :
    s.pass.Supervised ∧ ∀ device, device ∈ s.devices ↔ s.pass.Polled device := by
  obtain ⟨hs, hrunning', hdevices, hpolled⟩ := h.foldl_ensure s.devices hrunning
  rw [Service.pass]
  generalize s.devices.foldl Service.ensure s = s' at hs hrunning' hdevices hpolled
  have hstays : ∀ n task, s'.all n = some task → task.device ∈ s'.devices →
      (s'.cancel fun device ↦ device ∉ s'.devices).all n = some task :=
    fun n task hn hmem ↦ all_cancel hn (decide_eq_false (not_not.mpr hmem))
  have hkept : ∀ n task, (s'.cancel fun device ↦ device ∉ s'.devices).all n = some task →
      task.live = true → task.device ∈ s'.devices ∧ s'.tasks.get? task.device = some n := by
    intro n task hn hlive
    obtain ⟨-, hget, hmem⟩ := live_of_cancel hs hn hlive
    exact ⟨of_not_not (of_decide_eq_false hmem), hget⟩
  refine ⟨⟨fun device n hn ↦ ?_, fun n task hn hlive ↦ ?_, fun n hn ↦ ?_⟩, fun device ↦
    ⟨fun hmem ↦ ?_, ?_⟩⟩
  · rw [OrderedDict.get?_filter, Option.filter_eq_some_iff] at hn
    obtain ⟨task, htask, hdevice, hcancelled⟩ := hs.known device n hn.1
    have hmem : task.device ∈ s'.devices := hdevice ▸ of_decide_eq_true hn.2
    exact ⟨task, hstays n task htask hmem, hdevice, hcancelled⟩
  · obtain ⟨hmem, hget⟩ := hkept n task hn hlive
    refine ⟨hrunning', ?_⟩
    rw [OrderedDict.get?_filter, hget]
    exact if_pos (decide_eq_true hmem)
  · change ((s'.all n).map _) = none
    rw [hs.fresh n hn, Option.map_none]
  · obtain ⟨n, task, hn, hdevice, hlive⟩ := hpolled device (.inl hmem)
    have hmem' : task.device ∈ s'.devices := by rwa [hdevice, hdevices]
    exact ⟨n, task, hstays n task hn hmem', hdevice, hlive⟩
  · rintro ⟨n, task, hn, rfl, hlive⟩
    exact hdevices ▸ (hkept n task hn hlive).1

/-! ## Every step -/

@[simp] theorem device_resume {reads : Bool} : (s.resume task reads).device = task.device := by
  rw [resume]
  repeat' split
  all_goals rfl

@[simp] theorem cancelled_resume {reads : Bool} :
    (s.resume task reads).cancelled = task.cancelled := by
  rw [resume]
  repeat' split
  all_goals rfl

theorem resume_of_cancelled {reads : Bool} (h : task.cancelled = true) :
    (s.resume task reads).stage = .done := by
  rw [resume, if_pos h]

theorem live_of_resume {reads : Bool} (h : (s.resume task reads).live = true) :
    task.live = true := by
  rw [Task.live, Bool.and_eq_true, Bool.not_eq_true', cancelled_resume] at h
  obtain ⟨hstage, hcancelled⟩ := h
  rw [Task.live, hcancelled, Bool.not_false, Bool.and_true]
  refine decide_eq_true fun hdone ↦ of_decide_eq_true hstage ?_
  rw [resume, hcancelled, if_neg Bool.false_ne_true, hdone]
  exact hdone

theorem polling_of_resume {reads : Bool} (h : (s.resume task reads).stage = .polling)
    (hbegins : task.stage = .resting) : task.live = true ∧ task.device ∈ s.devices := by
  have hcancelled : task.cancelled = false := by
    by_contra hcancelled
    rw [resume_of_cancelled (Bool.not_eq_false _ ▸ hcancelled)] at h
    exact absurd h (by decide)
  refine ⟨by rw [Task.live, hbegins, hcancelled]; rfl, ?_⟩
  by_contra hmem
  rw [resume, hcancelled, if_neg Bool.false_ne_true, hbegins] at h
  dsimp only at h
  rw [if_neg hmem] at h
  exact Stage.noConfusion h

theorem resumed_cases {reads : Bool} (h : s.next (.resumed n reads) = some t) :
    ∃ task, s.all n = some task ∧ task.stage ≠ .done ∧
      t = { s with all := Function.update s.all n (some (s.resume task reads)) } := by
  rw [next] at h
  split at h
  · next task hn =>
    obtain ⟨hstage, h⟩ := Option.ite_none_left_eq_some.mp h
    exact ⟨task, hn, hstage, (Option.some.inj h).symm⟩
  · exact absurd h (Option.some_ne_none _).symm

theorem Supervised.step {l : Label} (h : s.Supervised) (hstep : s.next l = some t) :
    t.Supervised := by
  cases l with
  | pass =>
    obtain ⟨hrunning, hstep⟩ := Option.ite_none_right_eq_some.mp hstep
    obtain rfl := Option.some.inj hstep
    exact (h.pass hrunning).1
  | replaced devices =>
    obtain rfl := Option.some.inj hstep
    exact ⟨h.known, h.live, h.fresh⟩
  | resumed n reads =>
    obtain ⟨task, hn, -, rfl⟩ := resumed_cases hstep
    refine ⟨fun device m hm ↦ ?_, fun m other hm hlive ↦ ?_, fun m hm ↦ ?_⟩
    · obtain ⟨other, hother, hdevice, hcancelled⟩ := h.known device m hm
      by_cases heq : m = n
      · subst heq
        obtain rfl := Option.some.inj (hn.symm.trans hother)
        exact ⟨_, Function.update_self _ _ _, device_resume.trans hdevice, fun hrunning ↦
          cancelled_resume.trans (hcancelled hrunning)⟩
      · exact ⟨other, (Function.update_of_ne heq _ _).trans hother, hdevice, hcancelled⟩
    · dsimp only at hm ⊢
      by_cases heq : m = n
      · subst heq
        rw [Function.update_self, Option.some.injEq] at hm
        subst hm
        rw [device_resume]
        exact h.live m task hn (live_of_resume hlive)
      · rw [Function.update_of_ne heq] at hm
        exact h.live m other hm hlive
    · have hne : m ≠ n := by
        rintro rfl
        rw [h.fresh m hm] at hn
        exact Option.some_ne_none _ hn.symm
      exact (Function.update_of_ne hne _ _).trans (h.fresh m hm)
  | stopped =>
    obtain ⟨-, hstep⟩ := Option.ite_none_right_eq_some.mp hstep
    obtain rfl := Option.some.inj hstep
    refine ⟨fun device n hn ↦ ?_, fun n task hn hlive ↦ ?_, fun n hn ↦ ?_⟩
    · obtain ⟨task, htask, hdevice, -⟩ := h.known device n hn
      exact ⟨_, congrArg (Option.map _) htask, hdevice, fun hrunning ↦ Bool.noConfusion hrunning⟩
    · exact Bool.noConfusion (live_of_cancel (p := fun _ ↦ true) h hn hlive).2.2
    · exact congrArg (Option.map _) (h.fresh n hn)

/-- **One task polls a device.** Whatever the order of the passes, of the changes of the registry
and of the stretches of the tasks: at most one task of a device goes on, and none once `run` is
stopped; after a pass the devices with such a task are those of the registry; a cycle only begins in
the task of its device, while the device is in the registry; and a cancelled task ends at the moment
it is resumed. -/
theorem one_task {devices : List Uuid} {ls : List Label}
    (h : Trace.Path (fun s l t ↦ s.next l = some t) (start devices) ls s) :
    (∀ n m task other, s.all n = some task → s.all m = some other → task.live = true →
      other.live = true → task.device = other.device → n = m) ∧
    (s.running = false → ∀ n task, s.all n = some task → task.live = false) ∧
    (∀ t, s.next .pass = some t → ∀ device, device ∈ s.devices ↔ t.Polled device) ∧
    ∀ n reads t task, s.all n = some task → s.next (.resumed n reads) = some t →
      ∃ after, t.all n = some after ∧ (task.cancelled = true → after.stage = .done) ∧
        (task.stage = .resting → after.stage = .polling → task.live = true ∧
          task.device ∈ s.devices ∧ s.tasks.get? task.device = some n) := by
  have hs : s.Supervised :=
    h.invariant Supervised (fun hs hstep ↦ hs.step hstep) (supervised_start devices)
  refine ⟨fun n m task other hn hm hlive hlive' hdevice ↦ ?_, fun hrunning n task hn ↦ ?_,
    fun t ht ↦ ?_, fun n reads t task hn ht ↦ ?_⟩
  · have hget := (hs.live n task hn hlive).2
    have hget' := (hs.live m other hm hlive').2
    rw [← hdevice, hget] at hget'
    exact Option.some.inj hget'
  · by_contra hlive
    rw [(hs.live n task hn (Bool.not_eq_false _ ▸ hlive)).1] at hrunning
    exact Bool.noConfusion hrunning
  · obtain ⟨hrunning, ht⟩ := Option.ite_none_right_eq_some.mp ht
    obtain rfl := Option.some.inj ht
    exact (hs.pass hrunning).2
  · obtain ⟨task', hn', -, rfl⟩ := resumed_cases ht
    obtain rfl := Option.some.inj (hn.symm.trans hn')
    refine ⟨_, Function.update_self _ _ _, resume_of_cancelled, fun hbegins hpolling ↦ ?_⟩
    obtain ⟨hlive, hmem⟩ := polling_of_resume hpolling hbegins
    exact ⟨hlive, hmem, (hs.live n task hn hlive).2⟩

/-- The first of two devices leaves the registry during one of its cycles, and is back before its
task is resumed. -/
def returning : List Label :=
  [.pass, .resumed 0 true, .resumed 1 false, .replaced [2], .pass, .replaced [1, 2], .pass]

theorem one_task_returning : ∃ s : Service,
    (List.range 3).map s.all =
      [some ⟨1, .polling, true⟩, some ⟨2, .resting, false⟩, some ⟨1, .resting, false⟩] ∧
    ∀ t after, s.next (.resumed 0 true) = some t → t.all 0 = some after → after.stage = .done := by
  have hends : (Trace.exec next (start [1, 2]) returning).map (fun s ↦ (List.range 3).map s.all) =
      some [some ⟨1, .polling, true⟩, some ⟨2, .resting, false⟩, some ⟨1, .resting, false⟩] := by
    decide +kernel
  obtain ⟨s, hs, hends⟩ := Option.map_eq_some_iff.mp hends
  have hfirst : s.all 0 = some ⟨1, .polling, true⟩ := (List.cons.inj hends).1
  refine ⟨s, hends, fun t after ht hafter ↦ ?_⟩
  obtain ⟨after', hafter', hdone, -⟩ :=
    (one_task (.of_exec_next hs)).2.2.2 0 true t _ hfirst ht
  obtain rfl := Option.some.inj (hafter.symm.trans hafter')
  exact hdone rfl

end Service

end Superviseur.Supervision
