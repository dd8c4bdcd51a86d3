import Superviseur.Alarms.Reload

/-!
# What a reload brings up to date

A rule has a definition in force, which the last load has read, and a condition under that
definition: what the last value or the last device status received says of it. `Board` is the table
of these. It is kept as the messages are to be read, with nothing of the machines: a load takes the
new definitions and evaluates all of them on the database. The engine evaluates the rules it does
not know yet, and the return of a device not even then; it stays in line with the board exactly
where that makes no difference.
-/

namespace Superviseur

/-! ## The conditions to be known -/

/-- What is to be known of the rules loaded. -/
abbrev Board := RuleId → Option Standing

namespace Board

/-- What a load makes of a rule: its new definition, evaluated on the database. -/
def reloaded (env : Env) (s : Services) (b : Board) (record : RuleRecord) : Standing :=
  match b record.id with
  | some st => ⟨record, evaluation env record st.condition, st.lastValid⟩
  | none =>
    let st := Standing.restored env s record
    ⟨record, evaluation env record st.condition, st.validSince env⟩

def next (env : Env) (op : Op) (s : Services) (b : Board) : Board :=
  match op with
  | .load => fun rule ↦ (env.rules.val.find? fun record ↦ record.id = rule).map (b.reloaded env s)
  | .restart => fun _ ↦ none
  | op => fun rule ↦ (b rule).map (Standing.next env op)

end Board

/-- The engine, with what is to be known of its rules. -/
structure Tracked where
  board : Board
  system : AlarmSystem

namespace Tracked

/-- An engine taken as it is: the conditions it has found are the memory of the hysteresis. -/
def start (w : AlarmSystem) : Tracked := ⟨w.engine.standing, w⟩

def step (t : Tracked) (i : Env × Op) : Tracked :=
  ⟨t.board.next i.1 i.2 t.system.services, Superviseur.step i.1 t.system i.2⟩

end Tracked

/-- The condition a rule comes to a load with: the one the engine knows, or that of its open
alarm. -/
def AlarmSystem.memory (w : AlarmSystem) (record : RuleRecord) : Bool :=
  match w.engine.find? record.id with
  | some rt => rt.condition
  | none => (w.services.restoredState record.id).isActive

/-- Each rule of a load is evaluated by it, or has nothing to catch up. A rule is evaluated where
the engine does not know it, if it is about the value of its point or its device is offline. -/
def Current (env : Env) (w : AlarmSystem) : Prop :=
  ∀ record ∈ env.rules.val,
    (w.engine.find? record.id = none ∧
        (record.kind ∈ valueKinds ∨ env.online record.deviceId = some false)) ∨
      evaluation env record (w.memory record) = w.memory record

/-- A step of a run in which every load meets no failure and is current. -/
def Following (t : Tracked) (i : Env × Op) (t' : Tracked) : Prop :=
  (i.2 = .load → (∀ call, i.1.fails call = false) ∧ Current i.1 t.system) ∧ t' = t.step i

/-- What a load is to do: every rule that can be evaluated on the database has the condition its
definition gives there, and no later tick raises a rule whose condition is false. -/
structure UpToDate (env : Env) (w : AlarmSystem) : Prop where
  conditions : ∀ rt ∈ (load env w).1.engine.rules, Evaluable env rt.record →
    rt.condition = evaluation env rt.record (w.memory rt.record)
  ticks : ∀ is t, Trace.Path Following ((Tracked.start w).step (env, .load)) is t →
    ∀ env' ms, (tick env' t.system).services.published = t.system.services.published ++ ms →
      ∀ m ∈ ms, m.transition = .raised → ∀ info, m.event = .full info →
        ∃ st, (t.step (env', .tick)).board info.ruleId = some st ∧ st.condition = true

/-! ## One load -/

section Load

variable {env : Env} {w : AlarmSystem} {record : RuleRecord}

theorem condition_evaluateInitial_iff (env : Env) (st : Standing) :
    (st.evaluateInitial env).condition = evaluation env st.record st.condition ↔
      (st.record.kind ∈ valueKinds ∨ env.online st.record.deviceId = some false) ∨
        evaluation env st.record st.condition = st.condition := by
  rw [Standing.evaluateInitial]
  by_cases h : st.record.kind ∈ valueKinds ∨ env.online st.record.deviceId = some false
  · simp only [h, if_true, true_or]
  · simp only [h, if_false, false_or]
    exact eq_comm

/-- The condition a load leaves is the evaluation of the rule exactly where the load is current. -/
theorem condition_loaded_iff (env : Env) (w : AlarmSystem) (record : RuleRecord) :
    (loadedStanding env w record).condition = evaluation env record (w.memory record) ↔
      ((w.engine.find? record.id = none ∧
          (record.kind ∈ valueKinds ∨ env.online record.deviceId = some false)) ∨
        evaluation env record (w.memory record) = w.memory record) := by
  rw [loadedStanding, AlarmSystem.memory, AlarmEngine.standing]
  cases hknown : w.engine.find? record.id with
  | some rt =>
    simp only [Option.map_some, RuleRuntime.standing, reduceCtorEq, false_and, false_or]
    exact eq_comm
  | none =>
    simp only [Option.map_none, true_and]
    exact condition_evaluateInitial_iff env (.restored env w.services record)

/-- Where a load leaves every condition as its definition gives it, it is current. -/
theorem current_of_conditions (hok : ∀ call, env.fails call = false)
    (h : ∀ rt ∈ (load env w).1.engine.rules, Evaluable env rt.record →
      rt.condition = evaluation env rt.record (w.memory rt.record)) : Current env w := by
  intro record hrecord
  by_cases heval : Evaluable env record
  · rw [← condition_loaded_iff]
    have hstanding := standing_load hok w record.id
    rw [find?_record hrecord, Option.map_some, AlarmEngine.standing] at hstanding
    obtain ⟨rt, hfind, hrt⟩ := Option.map_eq_some_iff.mp hstanding
    have hrecord' : rt.record = record := by
      rw [loadedStanding] at hrt
      split at hrt <;> exact congrArg Standing.record hrt
    rw [← hrt, ← hrecord']
    exact h rt (AlarmEngine.find?_eq_some hfind).1 (hrecord' ▸ heval)
  · exact .inr (evaluation_of_not_evaluable heval _)

theorem loadedStanding_of_current (h : Current env w) (hrecord : record ∈ env.rules.val) :
    loadedStanding env w record = Board.reloaded env w.services w.engine.standing record := by
  have hcondition := (condition_loaded_iff env w record).mpr (h record hrecord)
  rw [loadedStanding, AlarmSystem.memory, AlarmEngine.standing] at hcondition
  rw [loadedStanding, Board.reloaded, AlarmEngine.standing]
  cases hknown : w.engine.find? record.id with
  | some rt =>
    rw [hknown] at hcondition
    exact Standing.ext rfl hcondition rfl
  | none =>
    rw [hknown] at hcondition
    exact Standing.ext rfl hcondition rfl

end Load

/-! ## Runs -/

/-- The engine knows of every rule what the board says. -/
structure InLine (t : Tracked) : Prop where
  located : Located t.system.engine
  standing : ∀ rule, t.system.engine.standing rule = t.board rule

section Run

variable {t t' : Tracked} {i : Env × Op}

theorem inLine_load {env : Env} (hok : ∀ call, env.fails call = false)
    (hcurrent : Current env t.system) (h : ∀ rule, t.system.engine.standing rule = t.board rule) :
    InLine (t.step (env, .load)) := by
  refine ⟨located_load hok t.system, fun rule ↦ ?_⟩
  have hboard : t.board = t.system.engine.standing := funext fun rule ↦ (h rule).symm
  rw [Tracked.step, Board.next, hboard]
  exact (standing_load hok t.system rule).trans (Option.map_congr fun record hrecord ↦
    loadedStanding_of_current hcurrent (List.mem_of_find?_eq_some hrecord))

theorem Board.next_of_observation {op : Op} (hop : op.isObservation = true) (env : Env)
    (s : Services) (b : Board) (rule : RuleId) :
    b.next env op s rule = (b rule).map (Standing.next env op) := by
  cases op <;> first | rfl | cases hop

theorem InLine.observe (h : InLine t) {op : Op} (hop : op.isObservation = true) (env : Env) :
    InLine (t.step (env, op)) := by
  refine ⟨?_, fun rule ↦ ?_⟩
  · rw [Tracked.step]
    dsimp only
    rw [step_eq_forEach hop]
    exact h.located.forEach (acts_turn hop env) (t.system.targets op)
  · have hboard := Board.next_of_observation hop env t.system.services t.board rule
    rw [← h.standing] at hboard
    exact (h.located.standing_step hop env rule).trans hboard.symm

/-- **An operation keeps the engine in line**, if a load is current. -/
theorem InLine.step (h : InLine t) (hstep : Following t i t') : InLine t' := by
  obtain ⟨env, op⟩ := i
  obtain ⟨hload, rfl⟩ := hstep
  cases op with
  | load =>
    obtain ⟨hok, hcurrent⟩ := hload rfl
    exact inLine_load hok hcurrent h.standing
  | restart => exact ⟨⟨List.nodup_nil, rfl, rfl, rfl⟩, fun _ ↦ rfl⟩
  | acknowledge eventId user =>
    obtain ⟨hlocated, hstanding⟩ := h.located.acknowledge env eventId user
    refine ⟨hlocated, fun rule ↦ (hstanding rule).trans ((h.standing rule).trans ?_)⟩
    cases hboard : t.board rule <;> simp [Tracked.step, Board.next, hboard, Standing.next,
      Standing.concerns]
  | onValue | onDeviceStatus | onBacnetEvent | tick => exact h.observe rfl env

theorem InLine.path {is : List (Env × Op)} (h : InLine t) (hpath : Trace.Path Following t is t') :
    InLine t' :=
  hpath.invariant InLine (fun h hstep ↦ h.step hstep) h

theorem InLine.tick (h : InLine t) (env : Env) {ms : List AlarmMessage}
    (hms : (tick env t.system).services.published = t.system.services.published ++ ms)
    {m : AlarmMessage} (hm : m ∈ ms) (hraised : m.transition = .raised) {info : AlarmInfo}
    (hinfo : m.event = .full info) :
    ∃ st, (t.step (env, .tick)).board info.ruleId = some st ∧ st.condition = true := by
  have hnext : InLine (t.step (env, .tick)) := h.observe rfl env
  obtain ⟨ms', hms', habout⟩ :=
    (acts_tickRule env).announced_forEach t.system (h.located.nodup_targets .tick)
  have heq : ms = ms' := List.append_cancel_left (hms.symm.trans hms')
  subst heq
  obtain ⟨info', hinfo', -, htrue⟩ := habout m hm
  rw [hinfo, AlarmPayload.full.injEq] at hinfo'
  obtain ⟨st, hst, hcondition⟩ := htrue hraised
  exact ⟨st, (hnext.standing info.ruleId).symm.trans (hinfo' ▸ hst), hcondition⟩

end Run

/-- **Reload brings every rule up to date** exactly where every rule it loads is evaluated by it or
has nothing to catch up. -/
theorem upToDate_iff_current {env : Env} (hok : ∀ call, env.fails call = false)
    (w : AlarmSystem) : UpToDate env w ↔ Current env w := by
  refine ⟨fun h ↦ current_of_conditions hok h.conditions, fun h ↦ ⟨?_, ?_⟩⟩
  · intro rt hrt _
    have hlocated := located_load hok w
    have hfind : (load env w).1.engine.standing rt.record.id = some rt.standing := by
      rw [AlarmEngine.standing, AlarmEngine.find?_of_mem hlocated.nodup hrt, Option.map_some]
    rw [standing_load hok] at hfind
    obtain ⟨record, hrecord, hstanding⟩ := Option.map_eq_some_iff.mp hfind
    have hrecord' : rt.record = record := by
      rw [loadedStanding] at hstanding
      split at hstanding <;> exact (congrArg Standing.record hstanding).symm
    have hcondition := (condition_loaded_iff env w record).mpr
      (h record (List.mem_of_find?_eq_some hrecord))
    rw [hstanding] at hcondition
    rw [hrecord']
    exact hcondition
  · intro is t hpath env' ms hms m hm hraised info hinfo
    have hinLine : InLine ((Tracked.start w).step (env, .load)) :=
      inLine_load hok h fun _ ↦ rfl
    exact (hinLine.path hpath).tick env' hms hm hraised hinfo

/-! ### A rule whose threshold is raised -/

/-- A `high` rule at 10 with a delay of ten seconds. -/
def highRule : RuleRecord :=
  { lostRule with kind := .high, threshold := some (.fin 10), delayS := 10 }

/-- An environment at the instant given, where the rule has the threshold given and the last value
of its point is 20. -/
def thresholdEnv (now : Instant) (threshold : ℚ) : Env where
  fails _ := false
  clock _ := now
  wall _ := now
  rules := ⟨[{ highRule with threshold := some (.fin threshold) }], List.nodup_singleton _⟩
  latest _ := some ⟨now, some (.fin 20), "ok"⟩
  online _ := some true
  login _ := none

/-- The engine with that rule loaded: the value 20 is above its threshold, and it waits. -/
def highPending : AlarmSystem := step (thresholdEnv 0 10) ⟨.empty, .empty⟩ .load

/-- The threshold becomes 15, and the value is still above it. -/
theorem upToDate_highPending : (thresholdEnv 5 15).rules.val.length = 1 ∧
    UpToDate (thresholdEnv 5 15) highPending := by
  refine ⟨rfl, (upToDate_iff_current (fun _ ↦ rfl) highPending).mpr ?_⟩
  intro record hrecord
  rw [List.mem_singleton.mp hrecord]
  exact .inr (by decide +kernel)

/-- The threshold becomes 100, and the condition found under the old one stays. -/
theorem not_upToDate : ¬ ∀ (env : Env) (w : AlarmSystem), (∀ call, env.fails call = false) →
    UpToDate env w := by
  intro h
  have hcurrent := current_of_conditions (fun _ ↦ rfl)
    (h (thresholdEnv 5 100) highPending fun _ ↦ rfl).conditions
  rcases hcurrent _ (List.mem_singleton_self _) with ⟨hnew, -⟩ | hsame
  · have hknown : (highPending.engine.find? 1).isSome = true := by decide +kernel
    have hnone : highPending.engine.find? 1 = none := hnew
    rw [hnone] at hknown
    cases hknown
  · exact absurd hsame (by decide +kernel)

/-- The tick that ends the delay raises that alarm. -/
example : (tick (thresholdEnv 20 100) (step (thresholdEnv 5 100) highPending
    .load)).services.published.map AlarmMessage.transition = [.raised] := by
  decide +kernel

end Superviseur
