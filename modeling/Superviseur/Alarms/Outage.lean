import Superviseur.Alarms.Restart
import Mathlib.Tactic.Linarith

/-!
# A condition that holds while the database is down

A rule whose condition has become true waits for its delay and is then raised. If the store refuses
the insertion, the transition is undone and tried again at the next evaluation of the rule. The
machine has by then forgotten since when it was pending, and counts from the evaluation itself: with
a positive delay the time elapsed is zero for ever. The main result says exactly when the alarm
comes through an outage.

The rule is followed through runs of the whole engine, with every other rule going on beside it.
-/

namespace Superviseur

/-! ## Raising the alarm -/

namespace AlarmMachine

/-- The machine as a true condition finds it after its first half: pending, since now if it was
normal. -/
def waiting (m : AlarmMachine) (now : Instant) : AlarmMachine := (m.enter true now).1

theorem waiting_of_normal {m : AlarmMachine} (h : m.state = .normal) (now : Instant) :
    m.waiting now = { m with state := .pending, pendingSince := some now } := by
  rw [waiting, enter, if_pos ⟨h, rfl⟩]

theorem waiting_of_pending {m : AlarmMachine} (h : m.state = .pending) (now : Instant) :
    m.waiting now = m := by
  rw [waiting, enter, if_neg]
  rintro ⟨hnormal, -⟩
  rw [h] at hnormal
  cases hnormal

theorem state_waiting {m : AlarmMachine} (h : m.state = .normal ∨ m.state = .pending)
    (now : Instant) : (m.waiting now).state = .pending := by
  rcases h with h | h
  · rw [waiting_of_normal h]
  · rw [waiting_of_pending h, h]

@[simp] theorem delayS_waiting (m : AlarmMachine) (now : Instant) :
    (m.waiting now).delayS = m.delayS := by
  rw [waiting, enter]
  split <;> rfl

/-- The delay has elapsed for a machine whose condition holds. -/
def Due (m : AlarmMachine) (now : Instant) : Prop := m.delayS ≤ (m.waiting now).elapsed now

theorem update_of_not_due {m : AlarmMachine} (h : m.state = .normal ∨ m.state = .pending)
    {now : Instant} (hdue : ¬ m.Due now) :
    (m.update true now).1 = m.waiting now ∧
      (m.update true now).2.filter Transition.persistent = [] := by
  rw [Due] at hdue
  have hadvance : (m.waiting now).advance true now = (m.waiting now, []) := by
    rw [advance]
    · rw [delayS_waiting]
      exact if_neg hdue
    · exact state_waiting h now
  have hentered : (m.enter true now).2.filter Transition.persistent = [] := by
    rw [enter]
    split <;> rfl
  rw [update]
  change (((m.waiting now).advance true now).1 = _) ∧
    ((m.enter true now).2 ++ ((m.waiting now).advance true now).2).filter _ = []
  rw [hadvance]
  refine ⟨rfl, ?_⟩
  rw [List.append_nil, hentered]

theorem update_of_due {m : AlarmMachine} (h : m.state = .normal ∨ m.state = .pending)
    {now : Instant} (hdue : m.Due now) :
    (m.update true now).1 = ⟨m.delayS, .activeUnacked, none⟩ ∧
      ∃ ts, (m.update true now).2 = ts ++ [⟨.pending, .activeUnacked, .raised⟩] ∧
        ts.filter Transition.persistent = [] := by
  rw [Due] at hdue
  have hadvance : (m.waiting now).advance true now
      = (⟨m.delayS, .activeUnacked, none⟩, [⟨.pending, .activeUnacked, .raised⟩]) := by
    rw [advance]
    · rw [delayS_waiting]
      exact if_pos hdue
    · exact state_waiting h now
  have hentered : (m.enter true now).2.filter Transition.persistent = [] := by
    rw [enter]
    split <;> rfl
  rw [update]
  change (((m.waiting now).advance true now).1 = _) ∧
    ∃ ts, (m.enter true now).2 ++ ((m.waiting now).advance true now).2 = _ ∧ _
  rw [hadvance]
  exact ⟨rfl, (m.enter true now).2, rfl, hentered⟩

end AlarmMachine

section Turn

variable {env : Env} {rt : RuleRuntime} {s : Services}

/-- The message is about the rule. -/
def AlarmMessage.ofRule (rule : RuleId) (m : AlarmMessage) : Bool :=
  match m.event with
  | .full info => decide (info.ruleId = rule)
  | .orphan _ _ => false

theorem AlarmMessage.isAbout_of_ofRule {rule : RuleId} {m : AlarmMessage}
    (h : m.ofRule rule = true) (s : Services) : m.IsAbout s rule := by
  obtain ⟨transition, event⟩ := m
  cases event with
  | full info =>
    have hrule : info.ruleId = rule := of_decide_eq_true h
    exact hrule
  | orphan id state => cases h

theorem update_waits (h : rt.machine.state = .normal ∨ rt.machine.state = .pending)
    (hdue : ¬ rt.machine.Due (env.clock (.update rt.record.id))) (value : Option PyFloat) :
    (update env true value ⟨rt, s⟩).runtime.machine
        = rt.machine.waiting (env.clock (.update rt.record.id)) ∧
      (update env true value ⟨rt, s⟩).services = s := by
  obtain ⟨hmachine, hquiet⟩ := AlarmMachine.update_of_not_due h hdue
  rw [update_eq, persistAll_quiet env hquiet]
  exact ⟨hmachine, rfl⟩

/-- A rule whose condition holds and whose delay has elapsed: the store refuses, and the rule is
pending without a date, or the alarm is raised and said to be. -/
theorem update_raises (henv : env.Delivers) (ha : Agrees rt s)
    (h : rt.machine.state = .normal ∨ rt.machine.state = .pending)
    (hdue : rt.machine.Due (env.clock (.update rt.record.id))) (value : Option PyFloat) :
    (env.fails (.createEvent rt.record.id) = true ∧
        (update env true value ⟨rt, s⟩).runtime.machine = ⟨rt.machine.delayS, .pending, none⟩ ∧
        (update env true value ⟨rt, s⟩).services = s) ∨
      (env.fails (.createEvent rt.record.id) = false ∧
        (update env true value ⟨rt, s⟩).runtime.machine
          = ⟨rt.machine.delayS, .activeUnacked, none⟩ ∧
        ∃ m : AlarmMessage, m.transition = .raised ∧ m.ofRule rt.record.id = true ∧
          (update env true value ⟨rt, s⟩).services.published = s.published ++ [m]) := by
  obtain ⟨hmachine, ts, hts, hquiet⟩ := AlarmMachine.update_of_due h hdue
  have hsame : rt.Same (rt.stepped true value (env.clock (.update rt.record.id))) :=
    ⟨rfl, rfl, rfl⟩
  let t : Transition := ⟨.pending, .activeUnacked, .raised⟩
  have hedge : t.IsEdge := Edge.raised
  have hfrom : t.fromState = rt.machine.state ∨
      rt.machine.state = .normal ∧ t.fromState = .pending := by
    rcases h with h | h
    · exact .inr ⟨h, rfl⟩
    · exact .inl h.symm
  have hcall : (rt.stepped true value (env.clock (.update rt.record.id))).writeCall
      = .createEvent rt.record.id := by
    -- no event is open for a rule that is normal or pending
    have hnone : rt.eventId = none := by
      rcases ha with ⟨-, hid, -⟩ | ⟨_, hopen, -⟩
      · exact hid
      · rcases h with h | h <;> rw [h] at hopen <;> cases hopen
    simp [RuleRuntime.writeCall, RuleRuntime.stepped, RuleRuntime.observe, hnone]
  rw [update_eq, hts, persistAll_edge env hquiet rfl]
  rcases persist_cases henv hedge (ha.linked hsame hfrom) none with
    ⟨hfails, f, rt', hp, -, hmachine'⟩ | ⟨hfails, id, rt', s', hp, hmachine', hstored⟩
  · left
    rw [hcall] at hfails
    rw [hp]
    refine ⟨hfails, ?_, rfl⟩
    have hstepped : rt'.machine = ⟨rt.machine.delayS, .activeUnacked, none⟩ :=
      hmachine'.trans hmachine
    simp only [rollback, RuleRuntime.setState, hstepped]
  · right
    rw [hcall] at hfails
    rw [hp]
    obtain ⟨⟨s₁, info, hwritten, hs', -, hinfo, -⟩, -, -, -⟩ := hstored
    obtain ⟨-, -, -, -, hpublished, -⟩ := hwritten.history
    refine ⟨hfails, hmachine'.trans hmachine, ⟨.raised, .full info⟩, rfl, ?_, ?_⟩
    · exact decide_eq_true hinfo
    · rw [rollback, hs', Services.published_announced, hpublished]

end Turn

/-! ## The indexes -/

/-- No index lists a rule twice. -/
structure Indexed (e : AlarmEngine) : Prop where
  byPoint : (e.byPoint.map Prod.snd).Nodup
  byDevice : (e.byDevice.map Prod.snd).Nodup
  byObject : (e.byObject.map Prod.snd).Nodup

theorem nodup_lookup {κ : Type} [DecidableEq κ] {index : List (κ × RuleId)}
    (h : (index.map Prod.snd).Nodup) (key : κ) : (AlarmEngine.lookup key index).Nodup :=
  h.sublist (List.filter_sublist.map _)

theorem indexed_index {rules : List RuleRuntime}
    (h : (rules.map fun rt ↦ rt.record.id).Nodup) : Indexed (.index rules) := by
  refine ⟨?_, ?_, ?_⟩
  · rw [AlarmEngine.index, List.map_map]
    exact h
  · rw [AlarmEngine.index, List.map_map]
    exact h.sublist (List.filter_sublist.map _)
  · rw [AlarmEngine.index, List.map_map]
    exact h.sublist (List.filter_sublist.map _)

theorem indexed_visit {w : AlarmSystem} (h : Indexed w.engine) (body : Scope → Scope)
    (rule : RuleId) : Indexed (w.visit body rule).engine := by
  cases hfind : w.engine.find? rule with
  | none => rwa [AlarmSystem.visit_of_find?_eq_none body hfind]
  | some rt =>
    rw [AlarmSystem.visit_of_find?_eq_some body hfind]
    exact ⟨h.byPoint, h.byDevice, h.byObject⟩

theorem indexed_forEach {w : AlarmSystem} (h : Indexed w.engine) (body : Scope → Scope)
    (rules : List RuleId) : Indexed (w.forEach rules body).engine := by
  induction rules generalizing w with
  | nil => exact h
  | cons rule rules ih => exact ih (indexed_visit h body rule)

theorem indexed_load {env : Env} {w : AlarmSystem} (h : Indexed w.engine) :
    Indexed (load env w).1.engine := by
  have hindex : Indexed (.index (env.rules.val.map (runtimeOf env
      (w.engine.rules.map (refresh env.rules.val)) w.services.openEvents))) := by
    refine indexed_index ?_
    have hids : (env.rules.val.map (runtimeOf env (w.engine.rules.map (refresh env.rules.val))
        w.services.openEvents)).map (fun rt ↦ rt.record.id) = env.rules.val.map RuleRecord.id := by
      rw [List.map_map]
      exact List.map_congr_left fun record _ ↦ record_id_runtimeOf _ _ _ record
    rw [hids]
    exact env.rules.property
  unfold load
  split
  · exact h
  · split
    · exact h
    · dsimp only
      split
      · exact ⟨h.byPoint, h.byDevice, h.byObject⟩
      · unfold initialEvaluation
        split
        · exact hindex
        · split
          · exact hindex
          · split
            · exact hindex
            · exact indexed_forEach hindex _ _

theorem indexed_acknowledge {env : Env} {w : AlarmSystem} (h : Indexed w.engine)
    (eventId : EventId) (user : UserId) : Indexed (acknowledge env eventId user w).1.engine := by
  unfold acknowledge
  split
  · exact h
  · split
    · exact h
    · split
      · exact ⟨h.byPoint, h.byDevice, h.byObject⟩
      · exact ⟨h.byPoint, h.byDevice, h.byObject⟩

theorem indexed_step {env : Env} {w : AlarmSystem} (h : Indexed w.engine) (op : Op) :
    Indexed (step env w op).engine := by
  cases op with
  | load => exact indexed_load h
  | onValue => exact indexed_forEach h _ _
  | onDeviceStatus => exact indexed_forEach h _ _
  | onBacnetEvent => exact indexed_forEach h _ _
  | tick => exact indexed_forEach h _ _
  | acknowledge eventId user => exact indexed_acknowledge h eventId user
  | restart => exact ⟨List.nodup_nil, List.nodup_nil, List.nodup_nil⟩

theorem indexed_of_run {C : Env → Op → AlarmSystem → Prop} {s : Services}
    {is : List (Env × Op)} {w : AlarmSystem} (h : Run C s is w) : Indexed w.engine := by
  have hempty : Indexed .empty := ⟨List.nodup_nil, List.nodup_nil, List.nodup_nil⟩
  refine h.invariant (fun w ↦ Indexed w.engine) ?_ hempty
  rintro w i w' hw ⟨-, rfl⟩
  exact indexed_step hw i.2

/-! ## Evaluations of one rule -/

/-- The rules an observation or a tick goes through. -/
def AlarmSystem.targets (w : AlarmSystem) : Op → List RuleId
  | .onValue point _ => AlarmEngine.lookup point w.engine.byPoint
  | .onDeviceStatus device _ => AlarmEngine.lookup device w.engine.byDevice
  | .onBacnetEvent deviceInstance objectType objectInstance _ =>
    AlarmEngine.lookup (deviceInstance, objectType, objectInstance) w.engine.byObject
  | .tick => w.engine.rules.map fun rt ↦ rt.record.id
  | _ => []

/-- The turn an observation or a tick gives each of them. -/
def turn (env : Env) : Op → Scope → Scope
  | .onValue _ value => observeValue env value
  | .onDeviceStatus _ online => update env (!online) none
  | .onBacnetEvent _ _ _ toState => update env (isAbnormalEventState toState) none
  | .tick => tickRule env
  | _ => id

def Op.isObservation : Op → Bool
  | onValue _ _ | onDeviceStatus _ _ | onBacnetEvent _ _ _ _ | tick => true
  | load | acknowledge _ _ | restart => false

theorem step_eq_forEach {op : Op} (h : op.isObservation = true) (env : Env) (w : AlarmSystem) :
    step env w op = w.forEach (w.targets op) (turn env op) := by
  cases op <;> first | rfl | cases h

theorem updates_turn {op : Op} (h : op.isObservation = true) (env : Env) :
    Updates env (turn env op) := by
  cases op with
  | onValue _ value => exact updates_observeValue env value
  | onDeviceStatus _ online => exact updates_update env _ none
  | onBacnetEvent _ _ _ toState => exact updates_update env _ none
  | tick => exact updates_tickRule env
  | load => cases h
  | acknowledge _ _ => cases h
  | restart => cases h

theorem nodup_targets {w : AlarmSystem} (hw : Consistent w) (hindex : Indexed w.engine) (op : Op) :
    (w.targets op).Nodup := by
  cases op with
  | onValue => exact nodup_lookup hindex.byPoint _
  | onDeviceStatus => exact nodup_lookup hindex.byDevice _
  | onBacnetEvent => exact nodup_lookup hindex.byObject _
  | tick => exact hw.nodup
  | load => exact List.nodup_nil
  | acknowledge => exact List.nodup_nil
  | restart => exact List.nodup_nil

/-- The condition an operation finds for a rule in its turn, `none` where it evaluates nothing. -/
def RuleRuntime.conditionAt (env : Env) (rt : RuleRuntime) : Op → Option Bool
  | .onValue _ value =>
    if rt.record.kind ∈ valueKinds then
      evaluateValue rt.record.kind value rt.record.threshold rt.record.hysteresis rt.condition
    else if rt.record.kind = .stale ∧ value.isSome then some false else none
  | .onDeviceStatus _ online => some (!online)
  | .onBacnetEvent _ _ _ toState => some (isAbnormalEventState toState)
  | .tick =>
    match rt.record.kind, rt.record.threshold with
    | .stale, some threshold => some (isStale (env.clock .tick - rt.lastValid) threshold)
    | _, _ => if rt.machine.state = .pending then some rt.condition else none
  | _ => none

/-- The value an operation gives with the condition. -/
def Op.value : Op → Option PyFloat
  | onValue _ value => value
  | _ => none

theorem turn_eq_update {op : Op} (h : op.isObservation = true) (env : Env) (rt : RuleRuntime)
    (s : Services) :
    ∃ instant, (rt.conditionAt env op = none ∧ turn env op ⟨rt, s⟩ = ⟨rt.validAt instant, s⟩) ∨
      ∃ condition, rt.conditionAt env op = some condition ∧
        turn env op ⟨rt, s⟩ = update env condition op.value ⟨rt.validAt instant, s⟩ := by
  cases op with
  | onValue point value =>
    refine ⟨value.map fun _ ↦ env.clock (.valid rt.record.id), ?_⟩
    have hvalid : ∀ instant, (rt.validAt instant).condition = rt.condition := fun _ ↦ rfl
    rw [turn, observeValue, RuleRuntime.conditionAt]
    dsimp only
    rw [hvalid]
    split
    · cases evaluateValue rt.record.kind value rt.record.threshold rt.record.hysteresis
          rt.condition with
      | none => exact .inl ⟨rfl, rfl⟩
      | some condition => exact .inr ⟨condition, rfl, rfl⟩
    · split
      · exact .inr ⟨false, rfl, rfl⟩
      · exact .inl ⟨rfl, rfl⟩
  | onDeviceStatus device online => exact ⟨none, .inr ⟨!online, rfl, rfl⟩⟩
  | onBacnetEvent _ _ _ toState =>
    exact ⟨none, .inr ⟨isAbnormalEventState toState, rfl, rfl⟩⟩
  | tick =>
    refine ⟨none, ?_⟩
    -- only a staleness rule with a threshold reads the clock
    by_cases hstale : rt.record.kind = .stale ∧ rt.record.threshold.isSome = true
    · obtain ⟨hkind, hsome⟩ := hstale
      obtain ⟨threshold, hthreshold⟩ := Option.isSome_iff_exists.mp hsome
      right
      refine ⟨isStale (env.clock .tick - rt.lastValid) threshold, ?_, ?_⟩
      · simp only [RuleRuntime.conditionAt, hkind, hthreshold]
      · simp only [turn, tickRule, hkind, hthreshold]
        rfl
    · have hcondition : rt.conditionAt env .tick
          = if rt.machine.state = .pending then some rt.condition else none := by
        rw [RuleRuntime.conditionAt]
        split
        · rename_i hkind hthreshold
          exact absurd ⟨hkind, by rw [hthreshold]; rfl⟩ hstale
        · rfl
      have hturn : turn env .tick ⟨rt, s⟩ = if rt.machine.state = .pending then
          update env rt.condition none ⟨rt, s⟩ else ⟨rt, s⟩ := by
        rw [turn, tickRule]
        split
        · rename_i hkind hthreshold
          exact absurd ⟨hkind, by rw [hthreshold]; rfl⟩ hstale
        · rfl
      rw [hcondition, hturn]
      split
      · exact .inr ⟨rt.condition, rfl, rfl⟩
      · exact .inl ⟨rfl, rfl⟩
  | load => cases h
  | acknowledge _ _ => cases h
  | restart => cases h

theorem turn_eq {op : Op} (h : op.isObservation = true) (env : Env) (rt : RuleRuntime)
    (s : Services) :
    ∃ instant, (rt.conditionAt env op = none ∧ turn env op ⟨rt, s⟩ = ⟨rt.validAt instant, s⟩) ∨
      ∃ condition value, rt.conditionAt env op = some condition ∧
        turn env op ⟨rt, s⟩ = update env condition value ⟨rt.validAt instant, s⟩ := by
  obtain ⟨instant, hquiet | ⟨condition, hcondition, hturn⟩⟩ := turn_eq_update h env rt s
  · exact ⟨instant, .inl hquiet⟩
  · exact ⟨instant, .inr ⟨condition, op.value, hcondition, hturn⟩⟩

/-- The condition an operation finds for a rule, `none` where it does not evaluate it. -/
def evaluated (env : Env) (w : AlarmSystem) (op : Op) (rule : RuleId) : Option Bool :=
  if rule ∈ w.targets op then (w.engine.find? rule).bind fun rt ↦ rt.conditionAt env op else none

/-- What one evaluation makes of the machine of a rule whose condition holds, and what it publishes
about it. -/
inductive Outcome (now : Instant) (refuses : Bool) (m : AlarmMachine) :
    AlarmMachine → List AlarmMessage → Prop
  | waits (hstate : m.state = .normal ∨ m.state = .pending) (hdue : ¬ m.Due now) :
      Outcome now refuses m (m.waiting now) []
  | refused (hstate : m.state = .normal ∨ m.state = .pending) (hdue : m.Due now)
      (hrefuses : refuses = true) : Outcome now refuses m ⟨m.delayS, .pending, none⟩ []
  | raised (hstate : m.state = .normal ∨ m.state = .pending) (hdue : m.Due now)
      (hrefuses : refuses = false) {message : AlarmMessage}
      (hraised : message.transition = .raised) :
      Outcome now refuses m ⟨m.delayS, .activeUnacked, none⟩ [message]
  | active (hstate : m.state = .activeUnacked) : Outcome now refuses m m []

/-- The states a rule goes through while its condition stays true and nobody acknowledges it. -/
def Rising (m : AlarmMachine) : Prop :=
  (m.state = .normal ∨ m.state = .pending) ∨ m.state = .activeUnacked

theorem Outcome.ne_normal {now : Instant} {refuses : Bool} {m m' : AlarmMachine}
    {ms : List AlarmMessage} (h : Outcome now refuses m m' ms) : m'.state ≠ .normal := by
  rcases h with ⟨hstate, -⟩ | _ | _ | hstate
  · rw [AlarmMachine.state_waiting hstate]
    decide
  · exact fun h ↦ nomatch h
  · exact fun h ↦ nomatch h
  · rw [hstate]
    decide

theorem Outcome.rising {now : Instant} {refuses : Bool} {m m' : AlarmMachine}
    {ms : List AlarmMessage} (h : Outcome now refuses m m' ms) : Rising m' := by
  rcases h with ⟨hstate, -⟩ | _ | _ | hstate
  · exact .inl (.inr (AlarmMachine.state_waiting hstate now))
  · exact .inl (.inr rfl)
  · exact .inr rfl
  · exact .inr hstate

theorem update_outcome {env : Env} (henv : env.Delivers) {rt : RuleRuntime} {s : Services}
    (ha : Agrees rt s) (hrising : Rising rt.machine) (value : Option PyFloat) :
    ∃ m' ms, (update env true value ⟨rt, s⟩).runtime.machine = m' ∧
      (update env true value ⟨rt, s⟩).services.published = s.published ++ ms ∧
      Outcome (env.clock (.update rt.record.id)) (env.fails (.createEvent rt.record.id))
        rt.machine m' (ms.filter (AlarmMessage.ofRule rt.record.id)) := by
  rcases hrising with hstate | hstate
  · by_cases hdue : rt.machine.Due (env.clock (.update rt.record.id))
    · rcases update_raises henv ha hstate hdue value with ⟨hfails, hmachine, hservices⟩ |
        ⟨hfails, hmachine, message, hraised, hrule, hpublished⟩
      · refine ⟨_, [], hmachine, ?_, .refused hstate hdue hfails⟩
        rw [hservices, List.append_nil]
      · refine ⟨_, [message], hmachine, hpublished, ?_⟩
        rw [List.filter_cons_of_pos hrule]
        exact .raised hstate hdue hfails hraised
    · obtain ⟨hmachine, hservices⟩ := update_waits (s := s) hstate hdue value
      refine ⟨_, [], hmachine, ?_, .waits hstate hdue⟩
      rw [hservices, List.append_nil]
  · have hholds : AlarmMachine.holds rt.machine.state = true := by
      rw [hstate]
      rfl
    have hpending : rt.machine.state ≠ .pending := by
      rw [hstate]
      decide
    refine ⟨rt.machine, [], ?_, ?_, .active hstate⟩
    · rw [update_eq, AlarmMachine.update_of_holds hholds hpending, RuleRuntime.stepped,
        AlarmMachine.update_of_holds hholds hpending]
      rfl
    · rw [services_update_of_holds env hholds hpending value s, List.append_nil]

/-- Since `w₀` the rule has come to the machine `m`, and `ms` has been published about it. -/
def Followed (rule : RuleId) (w₀ w : AlarmSystem) (m : AlarmMachine) (ms : List AlarmMessage) :
    Prop :=
  ∃ rt all, w.engine.find? rule = some rt ∧ rt.machine = m ∧
    w.services.published = w₀.services.published ++ all ∧
    all.filter (AlarmMessage.ofRule rule) = ms

theorem Aside.followed {rule : RuleId} {s : Services} {w₀ w w' : AlarmSystem} {m : AlarmMachine}
    {ms : List AlarmMessage} (h : Aside s rule w w') (hw : Followed rule w₀ w m ms) :
    Followed rule w₀ w' m ms := by
  obtain ⟨rt, all, hfind, hmachine, hpublished, hfilter⟩ := hw
  obtain ⟨new, hnew, hnot⟩ := h.published
  refine ⟨rt, all ++ new, h.find?.trans hfind, hmachine, ?_, ?_⟩
  · rw [hnew, hpublished, List.append_assoc]
  · rw [List.filter_append, hfilter, List.filter_eq_nil_iff.mpr, List.append_nil]
    exact fun message hmem habout ↦ hnot message hmem (AlarmMessage.isAbout_of_ofRule habout s)

/-- A step of a run in which the condition of the rule, whenever it is evaluated, is true. -/
def Watched (rule : RuleId) (w : AlarmSystem) (i : Env × Op) (w' : AlarmSystem) : Prop :=
  i.2.isObservation = true ∧ i.1.Delivers ∧
    (∀ condition, evaluated i.1 w i.2 rule = some condition → condition = true) ∧
    w' = step i.1 w i.2

section Watched

variable {rule : RuleId} {w₀ w w' : AlarmSystem} {i : Env × Op} {m : AlarmMachine}
  {ms : List AlarmMessage}

theorem Watched.orderly (h : Watched rule w i w') : Orderly i.1 i.2 w := by
  refine ⟨h.2.1, fun hload ↦ ?_⟩
  have hobservation := h.1
  rw [hload] at hobservation
  cases hobservation

theorem Watched.consistent (hw : Consistent w) (h : Watched rule w i w') : Consistent w' := by
  rw [h.2.2.2]
  exact hw.step h.orderly

theorem Watched.indexed (hw : Indexed w.engine) (h : Watched rule w i w') :
    Indexed w'.engine := by
  rw [h.2.2.2]
  exact indexed_step hw i.2

/-- **A step of the engine, seen from the rule**: its turn, where it is evaluated, and nothing
otherwise. -/
theorem Watched.outcome (hw : Consistent w) (hindex : Indexed w.engine)
    (h : Watched rule w i w') (hfollowed : Followed rule w₀ w m ms) (hrising : Rising m) :
    (evaluated i.1 w i.2 rule = none ∧ Followed rule w₀ w' m ms) ∨
      (evaluated i.1 w i.2 rule = some true ∧ ∃ m' new,
        Outcome (i.1.clock (.update rule)) (i.1.fails (.createEvent rule)) m m' new ∧
        Followed rule w₀ w' m' (ms ++ new)) := by
  obtain ⟨env, op⟩ := i
  obtain ⟨hop, henv, htrue, rfl⟩ := h
  have hbody := updates_turn hop env
  dsimp only at htrue ⊢
  rw [step_eq_forEach hop]
  by_cases htarget : rule ∈ w.targets op
  · -- the loop is cut at the turn of the rule: the turns around are of other rules
    obtain ⟨w₁, hw₁, hbefore, hafter⟩ := forEach_cut hbody henv hw (nodup_targets hw hindex op)
      htarget w.services
    obtain ⟨rt, all, hfind, rfl, hpublished, hfilter⟩ := hbefore.followed hfollowed
    obtain ⟨hmem, rfl⟩ := AlarmEngine.find?_eq_some hfind
    have ha := hw₁.agrees rt hmem
    have hevaluated : evaluated env w op rt.record.id = rt.conditionAt env op := by
      rw [evaluated, if_pos htarget, ← hbefore.find?, hfind]
      rfl
    rw [hevaluated] at htrue ⊢
    have hkept : (turn env op ⟨rt, w₁.services⟩).runtime.record = rt.record :=
      ((hbody.progress henv ha).agrees hw₁.sound ha).2.2.1
    have hvisit : (w₁.visit (turn env op) rt.record.id).engine.find? rt.record.id
        = some (turn env op ⟨rt, w₁.services⟩).runtime := by
      rw [AlarmSystem.visit_of_find?_eq_some _ hfind]
      exact AlarmEngine.find?_set_self hfind (by rw [hkept])
    have hservices : (w₁.visit (turn env op) rt.record.id).services
        = (turn env op ⟨rt, w₁.services⟩).services := by
      rw [AlarmSystem.visit_of_find?_eq_some _ hfind]
    obtain ⟨instant, ⟨hnone, hturn⟩ | ⟨condition, value, hsome, hturn⟩⟩ :=
      turn_eq hop env rt w₁.services
    · left
      refine ⟨hnone, hafter.followed ⟨_, all, hvisit, ?_, ?_, hfilter⟩⟩
      · rw [hturn]
        rfl
      · rw [hservices, hturn, hpublished]
    · right
      have hcondition := htrue condition hsome
      subst hcondition
      have ha' : Agrees (rt.validAt instant) w₁.services := by
        have hsame : rt.Same (rt.validAt instant) := ⟨rfl, rfl, rfl⟩
        exact ha.of_same hsame rfl
      obtain ⟨m', new, hmachine, hnew, houtcome⟩ := update_outcome henv ha' hrising value
      refine ⟨hsome, m', _, houtcome, hafter.followed ⟨_, all ++ new, hvisit, ?_, ?_, ?_⟩⟩
      · rw [hturn]
        exact hmachine
      · rw [hservices, hturn, hnew, hpublished, List.append_assoc]
      · rw [List.filter_append, hfilter]
        rfl
  · left
    refine ⟨if_neg htarget, (aside_forEach hbody henv hw htarget (s := w.services)).followed
      hfollowed⟩

end Watched

/-! ## The main result -/

/-- The store refuses to raise the alarm of a rule that has waited for a positive delay. -/
def Refused (rule : RuleId) (w : AlarmSystem) (i : Env × Op) : Prop :=
  ∃ rt, w.engine.find? rule = some rt ∧ evaluated i.1 w i.2 rule = some true ∧
    rt.machine.state = .pending ∧ 0 < rt.machine.delayS ∧
    rt.machine.delayS ≤ rt.machine.elapsed (i.1.clock (.update rule)) ∧
    i.1.fails (.createEvent rule) = true

/-- The alarm of the rule has been raised exactly once since `w₀`, and is active. -/
def RaisedOnce (rule : RuleId) (w₀ w : AlarmSystem) : Prop :=
  ∃ m message, Followed rule w₀ w m [message] ∧ m.state = .activeUnacked ∧
    message.transition = .raised

/-- A run through an outage of the store. The condition of the rule is false in `w₀` and true at
every evaluation from then on; the store works again from `w₁`, where the condition has become true
at the latest; `last` is a tick or an observation of the rule at least one delay after the first
step that follows the recovery. -/
structure Outage (rule : RuleId) (delay : ℚ) (w₀ w₁ w₂ w₃ : AlarmSystem)
    (before after : List (Env × Op)) (last : Env × Op) : Prop where
  normal : ∃ rt, w₀.engine.find? rule = some rt ∧ rt.machine.state = .normal ∧
    rt.machine.delayS = delay
  outage : Trace.Path (Watched rule) w₀ before w₁
  recovered : Trace.Path (Watched rule) w₁ after w₂
  ends : Watched rule w₂ last w₃
  works : ∀ i ∈ after ++ [last], i.1.fails (.createEvent rule) = false
  /-- The clock never goes back. -/
  clock : ((before ++ (after ++ [last])).map fun i ↦ i.1.clock (.update rule)).Pairwise (· ≤ ·)
  /-- The condition is true by the first step after the recovery. -/
  holds : ∀ first ∈ (after ++ [last]).head?, evaluated first.1 w₁ first.2 rule = some true ∨
    ∃ rt, w₁.engine.find? rule = some rt ∧ rt.machine.state ≠ .normal
  late : ∀ first ∈ (after ++ [last]).head?,
    first.1.clock (.update rule) + delay ≤ last.1.clock (.update rule)
  observes : last.2 = .tick ∨ evaluated last.1 w₂ last.2 rule = some true

/-- The rule is on its way: idle, waiting since `bound` at the latest, trying again at once, or
raised. -/
inductive Phase (delay : ℚ) (bound : Instant) : AlarmMachine → List AlarmMessage → Prop
  | idle {since : Option Instant} : Phase delay bound ⟨delay, .normal, since⟩ []
  | waiting {since : Instant} (h : since ≤ bound) :
      Phase delay bound ⟨delay, .pending, some since⟩ []
  | retrying (h : delay ≤ 0) : Phase delay bound ⟨delay, .pending, none⟩ []
  | raised {since : Option Instant} {message : AlarmMessage} (h : message.transition = .raised) :
      Phase delay bound ⟨delay, .activeUnacked, since⟩ [message]

namespace Phase

variable {delay : ℚ} {bound now : Instant} {refuses : Bool} {m m' : AlarmMachine}
  {ms new : List AlarmMessage}

theorem rising (h : Phase delay bound m ms) : Rising m := by
  rcases h with _ | _ | _ | _
  · exact .inl (.inl rfl)
  · exact .inl (.inr rfl)
  · exact .inl (.inr rfl)
  · exact .inr rfl

theorem due_idle {since : Option Instant} :
    AlarmMachine.Due ⟨delay, .normal, since⟩ now ↔ delay ≤ 0 := by
  rw [AlarmMachine.Due, AlarmMachine.waiting_of_normal rfl, AlarmMachine.elapsed]
  simp

theorem due_pending {since : Option Instant} :
    AlarmMachine.Due ⟨delay, .pending, since⟩ now ↔ delay ≤ now - since.getD now := by
  rw [AlarmMachine.Due, AlarmMachine.waiting_of_pending rfl, AlarmMachine.elapsed]

/-- An evaluation that is not refused after a positive delay leads to the next phase. -/
theorem outcome (h : Phase delay bound m ms) (houtcome : Outcome now refuses m m' new)
    (hbound : m.state = .normal → now ≤ bound)
    (hrefused : m.state = .pending → 0 < delay → m.Due now → refuses = false) :
    Phase delay bound m' (ms ++ new) := by
  rcases h with @since | @⟨since, hsince⟩ | hdelay | ⟨hraised⟩
  · rcases houtcome with ⟨-, hdue⟩ | ⟨-, hdue, -⟩ | ⟨-, hdue, -, hmessage⟩ | hstate
    · rw [AlarmMachine.waiting_of_normal rfl]
      exact .waiting (hbound rfl)
    · exact .retrying (due_idle.mp hdue)
    · exact .raised hmessage
    · cases hstate
  · rcases houtcome with ⟨-, hdue⟩ | ⟨-, hdue, hrefuses⟩ | ⟨-, hdue, -, hmessage⟩ | hstate
    · rw [AlarmMachine.waiting_of_pending rfl]
      exact .waiting hsince
    · refine .retrying (le_of_not_gt fun hpos ↦ ?_)
      rw [hrefused rfl hpos hdue] at hrefuses
      cases hrefuses
    · exact .raised hmessage
    · cases hstate
  · rcases houtcome with ⟨-, hdue⟩ | ⟨-, hdue, -⟩ | ⟨-, hdue, -, hmessage⟩ | hstate
    · rw [AlarmMachine.waiting_of_pending rfl]
      exact .retrying hdelay
    · exact .retrying hdelay
    · exact .raised hmessage
    · cases hstate
  · rcases houtcome with ⟨hstate, -⟩ | ⟨hstate, -⟩ | ⟨hstate, -⟩ | hstate
    · rcases hstate with hstate | hstate <;> cases hstate
    · rcases hstate with hstate | hstate <;> cases hstate
    · rcases hstate with hstate | hstate <;> cases hstate
    · exact .raised hraised

/-- An evaluation at the end of the delay, with a store that works, raises the alarm. -/
theorem raises (h : Phase delay bound m ms) (houtcome : Outcome now false m m' new)
    (hnormal : m.state = .normal → delay ≤ 0) (hlate : bound + delay ≤ now) :
    ∃ message : AlarmMessage, ms ++ new = [message] ∧ message.transition = .raised ∧
      m'.state = .activeUnacked := by
  have hdue : m.state = .pending → m.Due now := by
    rcases h with _ | @⟨since, hsince⟩ | hdelay | _
    · exact fun h ↦ nomatch h
    · intro _
      rw [due_pending, Option.getD_some]
      linarith
    · intro _
      rw [due_pending, Option.getD_none, sub_self]
      exact hdelay
    · exact fun h ↦ nomatch h
  have hdue' : m.state = .normal ∨ m.state = .pending → m.Due now := by
    rintro (hstate | hstate)
    · rcases h with _ | _ | _ | _
      · exact due_idle.mpr (hnormal rfl)
      all_goals cases hstate
    · exact hdue hstate
  rcases houtcome with ⟨hstate, hnot⟩ | ⟨-, -, hrefuses⟩ | ⟨hstate, -, -, hmessage⟩ | hstate
  · exact absurd (hdue' hstate) hnot
  · cases hrefuses
  · rcases h with _ | _ | _ | _
    · exact ⟨_, rfl, hmessage, rfl⟩
    · exact ⟨_, rfl, hmessage, rfl⟩
    · exact ⟨_, rfl, hmessage, rfl⟩
    · rcases hstate with hstate | hstate <;> cases hstate
  · rcases h with _ | _ | _ | ⟨hraised⟩
    · cases hstate
    · cases hstate
    · cases hstate
    · exact ⟨_, rfl, hraised, rfl⟩

end Phase

section Runs

variable {rule : RuleId} {delay : ℚ} {bound : Instant} {w₀ w w' : AlarmSystem}
  {is : List (Env × Op)} {i : Env × Op} {m : AlarmMachine} {ms : List AlarmMessage}

theorem phase_step (hw : Consistent w) (hindex : Indexed w.engine) (h : Watched rule w i w')
    (hrefused : ¬ Refused rule w i) (hfollowed : Followed rule w₀ w m ms)
    (hphase : Phase delay bound m ms)
    (hbound : m.state = .normal → i.1.clock (.update rule) ≤ bound) :
    ∃ m' ms', Followed rule w₀ w' m' ms' ∧ Phase delay bound m' ms' ∧
      ((evaluated i.1 w i.2 rule = none ∧ m' = m) ∨ m'.state ≠ .normal) := by
  rcases h.outcome hw hindex hfollowed hphase.rising with ⟨hnone, hfollowed'⟩ |
    ⟨hsome, m', new, houtcome, hfollowed'⟩
  · exact ⟨m, ms, hfollowed', hphase, .inl ⟨hnone, rfl⟩⟩
  · have hrefused' : m.state = .pending → 0 < delay → m.Due (i.1.clock (.update rule)) →
        i.1.fails (.createEvent rule) = false := by
      intro hstate hpos hdue
      obtain ⟨rt, all, hfind, rfl, -⟩ := hfollowed
      have hdelay : rt.machine.delayS = delay := by
        generalize rt.machine = m at hphase
        rcases hphase with _ | _ | _ | _ <;> rfl
      rw [AlarmMachine.Due, AlarmMachine.waiting_of_pending hstate] at hdue
      by_contra hfails
      exact hrefused ⟨rt, hfind, hsome, hstate, by rwa [hdelay], hdue, by simpa using hfails⟩
    exact ⟨m', ms ++ new, hfollowed', hphase.outcome houtcome hbound hrefused',
      .inr houtcome.ne_normal⟩

theorem phase_path (hw : Consistent w) (hindex : Indexed w.engine)
    (h : Trace.Path (fun w i w' ↦ Watched rule w i w' ∧ ¬ Refused rule w i) w is w')
    (hfollowed : Followed rule w₀ w m ms) (hphase : Phase delay bound m ms)
    (hbound : m.state = .normal → ∀ i ∈ is, i.1.clock (.update rule) ≤ bound) :
    Consistent w' ∧ Indexed w'.engine ∧ ∃ m' ms', Followed rule w₀ w' m' ms' ∧
      Phase delay bound m' ms' ∧ (m.state ≠ .normal → m'.state ≠ .normal) := by
  induction h generalizing m ms with
  | nil w => exact ⟨hw, hindex, m, ms, hfollowed, hphase, id⟩
  | @cons w w₁ w' i is hstep _ ih =>
    obtain ⟨hwatched, hrefused⟩ := hstep
    obtain ⟨m₁, ms₁, hfollowed₁, hphase₁, hstate⟩ := phase_step hw hindex hwatched hrefused
      hfollowed hphase fun hnormal ↦ hbound hnormal i List.mem_cons_self
    have hbound₁ : m₁.state = .normal → ∀ j ∈ is, j.1.clock (.update rule) ≤ bound := by
      intro hnormal j hj
      rcases hstate with ⟨-, rfl⟩ | hne
      · exact hbound hnormal j (List.mem_cons_of_mem i hj)
      · exact absurd hnormal hne
    obtain ⟨hw', hindex', m', ms', hfollowed', hphase', hne⟩ :=
      ih (hwatched.consistent hw) (hwatched.indexed hindex) hfollowed₁ hphase₁ hbound₁
    refine ⟨hw', hindex', m', ms', hfollowed', hphase', fun hm ↦ hne ?_⟩
    rcases hstate with ⟨-, rfl⟩ | hne'
    · exact hm
    · exact hne'

/-- The rule is pending for ever: it has forgotten since when, and its delay is positive. -/
def Stuck (rule : RuleId) (w : AlarmSystem) : Prop :=
  ∃ rt d, w.engine.find? rule = some rt ∧ rt.machine = ⟨d, .pending, none⟩ ∧ 0 < d

theorem stuck_of_refused (hw : Consistent w) (hindex : Indexed w.engine)
    (h : Watched rule w i w') (hrefused : Refused rule w i) : Stuck rule w' := by
  obtain ⟨rt, hfind, hsome, hstate, hpos, hdue, hfails⟩ := hrefused
  have hfollowed : Followed rule w w rt.machine [] :=
    ⟨rt, [], hfind, rfl, (List.append_nil _).symm, rfl⟩
  rcases h.outcome hw hindex hfollowed (.inl (.inr hstate)) with ⟨hnone, -⟩ |
    ⟨-, m', new, houtcome, hfollowed'⟩
  · rw [hsome] at hnone
    cases hnone
  · have hdue' : rt.machine.Due (i.1.clock (.update rule)) := by
      rw [AlarmMachine.Due, AlarmMachine.waiting_of_pending hstate]
      exact hdue
    rw [hfails] at houtcome
    obtain ⟨rt', -, hfind', hmachine', -⟩ := hfollowed'
    rcases houtcome with ⟨-, hnot⟩ | _ | ⟨-, -, hrefuses, -⟩ | hactive
    · exact absurd hdue' hnot
    · exact ⟨rt', _, hfind', hmachine', hpos⟩
    · cases hrefuses
    · rw [hstate] at hactive
      cases hactive

/-- No evaluation gets a stuck rule out: the time it has waited is always zero. -/
theorem stuck_step (hw : Consistent w) (hindex : Indexed w.engine) (h : Watched rule w i w')
    (hstuck : Stuck rule w) : Stuck rule w' := by
  obtain ⟨rt, d, hfind, hmachine, hpos⟩ := hstuck
  have hfollowed : Followed rule w w ⟨d, .pending, none⟩ [] :=
    ⟨rt, [], hfind, hmachine, (List.append_nil _).symm, rfl⟩
  have hnot : ¬ AlarmMachine.Due ⟨d, .pending, none⟩ (i.1.clock (.update rule)) := by
    rw [Phase.due_pending, Option.getD_none, sub_self]
    exact not_le.mpr hpos
  rcases h.outcome hw hindex hfollowed (.inl (.inr rfl)) with ⟨-, hfollowed'⟩ |
    ⟨-, m', new, houtcome, hfollowed'⟩
  · obtain ⟨rt', -, hfind', hmachine', -⟩ := hfollowed'
    exact ⟨rt', d, hfind', hmachine', hpos⟩
  · obtain ⟨rt', -, hfind', hmachine', -⟩ := hfollowed'
    rcases houtcome with _ | ⟨-, hdue, -⟩ | ⟨-, hdue, -⟩ | hactive
    · rw [AlarmMachine.waiting_of_pending rfl] at hmachine'
      exact ⟨rt', d, hfind', hmachine', hpos⟩
    · exact absurd hdue hnot
    · exact absurd hdue hnot
    · cases hactive

theorem stuck_path (hw : Consistent w) (hindex : Indexed w.engine)
    (h : Trace.Path (Watched rule) w is w') (hstuck : Stuck rule w) : Stuck rule w' := by
  induction h with
  | nil w => exact hstuck
  | cons hstep _ ih =>
    exact ih (hstep.consistent hw) (hstep.indexed hindex) (stuck_step hw hindex hstep hstuck)

/-- A run either never refuses the rule after a positive delay, or leaves it pending for ever. -/
theorem path_or_stuck (hw : Consistent w) (hindex : Indexed w.engine)
    (h : Trace.Path (Watched rule) w is w') :
    Trace.Path (fun w i w' ↦ Watched rule w i w' ∧ ¬ Refused rule w i) w is w' ∨
      Stuck rule w' := by
  induction h with
  | nil w => exact .inl (.nil w)
  | @cons w w₁ w' i is hstep hrest ih =>
    have hw₁ := hstep.consistent hw
    have hindex₁ := hstep.indexed hindex
    by_cases hrefused : Refused rule w i
    · exact .inr (stuck_path hw₁ hindex₁ hrest (stuck_of_refused hw hindex hstep hrefused))
    · exact (ih hw₁ hindex₁).imp_left fun hpath ↦ .cons ⟨hstep, hrefused⟩ hpath

theorem not_raisedOnce_of_stuck (h : Stuck rule w) : ¬ RaisedOnce rule w₀ w := by
  rintro ⟨m, message, ⟨rt', all, hfind', rfl, -⟩, hactive, -⟩
  obtain ⟨rt, d, hfind, hmachine, -⟩ := h
  rw [hfind, Option.some.injEq] at hfind'
  rw [← hfind', hmachine] at hactive
  cases hactive

theorem evaluated_tick_of_pending {env : Env} {rt : RuleRuntime}
    (hfind : w.engine.find? rule = some rt) (hstate : rt.machine.state = .pending) :
    evaluated env w .tick rule ≠ none := by
  obtain ⟨hmem, rfl⟩ := AlarmEngine.find?_eq_some hfind
  have htarget : rt.record.id ∈ w.targets .tick := List.mem_map_of_mem hmem
  rw [evaluated, if_pos htarget, hfind, Option.bind_some, RuleRuntime.conditionAt]
  split
  · exact fun h ↦ nomatch h
  · rw [if_pos hstate]
    exact fun h ↦ nomatch h

theorem raised_of_last (hw : Consistent w) (hindex : Indexed w.engine) (h : Watched rule w i w')
    (hfollowed : Followed rule w₀ w m ms) (hphase : Phase delay bound m ms)
    (hworks : i.1.fails (.createEvent rule) = false)
    (hobserves : i.2 = .tick ∨ evaluated i.1 w i.2 rule = some true)
    (hnormal : m.state = .normal → delay ≤ 0 ∧ evaluated i.1 w i.2 rule = some true)
    (hlate : bound + delay ≤ i.1.clock (.update rule)) : RaisedOnce rule w₀ w' := by
  rcases h.outcome hw hindex hfollowed hphase.rising with ⟨hnone, hfollowed'⟩ |
    ⟨-, m', new, houtcome, hfollowed'⟩
  · have htick : i.2 = .tick := hobserves.resolve_right (by rw [hnone]; exact fun h ↦ nomatch h)
    rcases hphase.rising with (hstate | hstate) | hstate
    · rw [(hnormal hstate).2] at hnone
      cases hnone
    · obtain ⟨rt, all, hfind, rfl, -⟩ := hfollowed
      rw [htick] at hnone
      exact absurd hnone (evaluated_tick_of_pending hfind hstate)
    · rcases hphase with _ | _ | _ | ⟨hraised⟩
      · cases hstate
      · cases hstate
      · cases hstate
      · exact ⟨_, _, hfollowed', rfl, hraised⟩
  · rw [hworks] at houtcome
    obtain ⟨message, hms, hraised, hactive⟩ :=
      hphase.raises houtcome (fun hstate ↦ (hnormal hstate).1) hlate
    rw [hms] at hfollowed'
    exact ⟨m', message, hfollowed', hactive, hraised⟩

end Runs

theorem Watched.deterministic {rule : RuleId} {w t u : AlarmSystem} {i : Env × Op}
    (h : Watched rule w i t) (h' : Watched rule w i u) : t = u :=
  h.2.2.2.trans h'.2.2.2.symm

/-- Once nothing is refused any more, the first step at the end of the delay raises the alarm. -/
theorem Outage.raised {rule : RuleId} {delay : ℚ} {w₀ w₁ w₂ w₃ : AlarmSystem}
    {before after : List (Env × Op)} {last : Env × Op} (hw : Consistent w₀)
    (hindex : Indexed w₀.engine) (h : Outage rule delay w₀ w₁ w₂ w₃ before after last)
    (hbefore : Trace.Path (fun w i w' ↦ Watched rule w i w' ∧ ¬ Refused rule w i) w₀ before w₁)
    (hafter : Trace.Path (fun w i w' ↦ Watched rule w i w' ∧ ¬ Refused rule w i) w₁ after w₂) :
    RaisedOnce rule w₀ w₃ := by
  obtain ⟨rt, hfind, hstate, hdelay⟩ := h.normal
  have hfollowed : Followed rule w₀ w₀ rt.machine [] :=
    ⟨rt, [], hfind, rfl, (List.append_nil _).symm, rfl⟩
  have hidle : ∀ bound, Phase delay bound rt.machine [] := by
    intro bound
    generalize rt.machine = m at hstate hdelay
    obtain ⟨d, state, since⟩ := m
    subst hstate hdelay
    exact .idle
  -- everything before the recovery is no later than the first step that follows it
  have hclock : ∀ first ∈ after ++ [last], ∀ i ∈ before,
      i.1.clock (.update rule) ≤ first.1.clock (.update rule) := by
    intro first hfirst i hi
    have hpairwise := h.clock
    rw [List.map_append, List.pairwise_append] at hpairwise
    exact hpairwise.2.2 _ (List.mem_map_of_mem hi) _ (List.mem_map_of_mem hfirst)
  have hworks := h.works last (List.mem_append_right after (List.mem_singleton_self last))
  rcases after with _ | ⟨first, after⟩
  · -- the first step after the recovery is the last one
    cases hafter
    obtain ⟨hw₁, hindex₁, m₁, ms₁, hfollowed₁, hphase₁, -⟩ := phase_path hw hindex hbefore
      hfollowed (hidle _) fun _ ↦ hclock last (List.mem_singleton_self last)
    have hlate := h.late last rfl
    refine raised_of_last hw₁ hindex₁ h.ends hfollowed₁ hphase₁ hworks h.observes ?_ hlate
    intro hnormal
    refine ⟨by linarith, (h.holds last rfl).resolve_right ?_⟩
    rintro ⟨rt', hfind', hne⟩
    obtain ⟨rt₁, -, hfind₁, rfl, -⟩ := hfollowed₁
    rw [hfind', Option.some.injEq] at hfind₁
    exact hne (hfind₁ ▸ hnormal)
  · obtain ⟨hw₁, hindex₁, m₁, ms₁, hfollowed₁, hphase₁, -⟩ := phase_path hw hindex hbefore
      hfollowed (hidle _) fun _ ↦ hclock first List.mem_cons_self
    rcases hafter with _ | ⟨⟨hwatched, hrefused⟩, hafter⟩
    obtain ⟨m, ms, hfollowed', hphase, hstate'⟩ := phase_step hw₁ hindex₁ hwatched hrefused
      hfollowed₁ hphase₁ fun _ ↦ le_rfl
    -- the first step after the recovery leaves the rule out of `normal`
    have hne : m.state ≠ .normal := by
      rcases hstate' with ⟨hnone, rfl⟩ | hne
      · rcases h.holds first rfl with hsome | ⟨rt', hfind', hne⟩
        · rw [hnone] at hsome
          cases hsome
        · obtain ⟨rt₁, -, hfind₁, rfl, -⟩ := hfollowed₁
          rw [hfind', Option.some.injEq] at hfind₁
          exact hfind₁ ▸ hne
      · exact hne
    obtain ⟨hw₂, hindex₂, m₂, ms₂, hfollowed₂, hphase₂, hne₂⟩ := phase_path
      (hwatched.consistent hw₁) (hwatched.indexed hindex₁) hafter hfollowed' hphase
      fun hnormal ↦ absurd hnormal hne
    exact raised_of_last hw₂ hindex₂ h.ends hfollowed₂ hphase₂ hworks h.observes
      (fun hnormal ↦ absurd hnormal (hne₂ hne)) (h.late first rfl)

/-- **An alarm survives an outage of the store** exactly when the store never refuses it after a
positive delay has elapsed. Otherwise the rule stays pending for ever. -/
theorem raised_once_after_outage_iff {s : Services} (hs : s.Sound) {is : List (Env × Op)}
    {rule : RuleId} {delay : ℚ} {w₀ w₁ w₂ w₃ : AlarmSystem} {before after : List (Env × Op)}
    {last : Env × Op} (hrun : Run Orderly s is w₀)
    (h : Outage rule delay w₀ w₁ w₂ w₃ before after last) :
    RaisedOnce rule w₀ w₃ ↔
      Trace.Path (fun w i w' ↦ Watched rule w i w' ∧ ¬ Refused rule w i) w₀
        (before ++ (after ++ [last])) w₃ := by
  have hw := consistent_of_run hs hrun
  have hindex := indexed_of_run hrun
  have hall : Trace.Path (Watched rule) w₀ (before ++ (after ++ [last])) w₃ :=
    h.outage.append (h.recovered.append (.single h.ends))
  refine ⟨fun hraised ↦ ?_, fun hpath ↦ ?_⟩
  · exact (path_or_stuck hw hindex hall).resolve_right fun hstuck ↦
      not_raisedOnce_of_stuck hstuck hraised
  · obtain ⟨u₁, hbefore, hrest⟩ := Trace.Path.of_append hpath
    obtain ⟨u₂, hafter, -⟩ := Trace.Path.of_append hrest
    have hbefore' : Trace.Path (Watched rule) w₀ before u₁ := hbefore.mono And.left
    have hu₁ : u₁ = w₁ := hbefore'.deterministic (fun h h' ↦ h.deterministic h') h.outage
    subst hu₁
    have hafter' : Trace.Path (Watched rule) u₁ after u₂ := hafter.mono And.left
    have hu₂ : u₂ = w₂ := hafter'.deterministic (fun h h' ↦ h.deterministic h') h.recovered
    subst hu₂
    exact h.raised hw hindex hbefore hafter

/-! ### A delay of ten seconds -/

/-- A `comm_lost` rule with a delay. -/
def delayedRule : RuleRecord := { lostRule with delayS := 10 }

/-- An environment at the instant `now`, where the calls listed raise. -/
def timed (now : Instant) (calls : List Call) : Env :=
  { failing calls with
    clock := fun _ ↦ now
    rules := ⟨[delayedRule], List.nodup_singleton _⟩ }

/-- The engine with that rule loaded. -/
def delayedStart : AlarmSystem := step (timed 0 []) ⟨.empty, .empty⟩ .load

/-- The device goes offline at 0; a tick comes at the instant given, with the store down. -/
def duringOutage (now : Instant) : List (Env × Op) :=
  [(timed 0 [], .onDeviceStatus 7 false), (timed now [.createEvent 1], .tick)]

/-- The ticks at 20 and 30, after the recovery. -/
def afterOutage : List (Env × Op) := [(timed 20 [], .tick), (timed 30 [], .tick)]

/-- The system after a list of operations. -/
def systemAfter (w : AlarmSystem) (is : List (Env × Op)) : AlarmSystem :=
  is.foldl (fun w i ↦ step i.1 w i.2) w

theorem watched_of_evaluated {rule : RuleId} {w : AlarmSystem} {i : Env × Op}
    (hop : i.2.isObservation = true) (henv : i.1.Delivers)
    (h : evaluated i.1 w i.2 rule ≠ some false) : Watched rule w i (step i.1 w i.2) := by
  refine ⟨hop, henv, fun condition hcondition ↦ ?_, rfl⟩
  cases condition with
  | true => rfl
  | false => exact absurd hcondition h

theorem run_delayedStart : Run Orderly .empty [(timed 0 [], .load)] delayedStart := by
  refine .single ⟨⟨fun _ _ ↦ rfl, fun _ _ _ hfails ↦ ?_⟩, rfl⟩
  obtain ⟨e, he, -⟩ := hfails
  cases he

/-- Both runs are outages, whichever the instant of the refused tick. -/
theorem outage_delayed (now : Instant) (h0 : 0 ≤ now) (h20 : now ≤ 20)
    (hevaluated : evaluated (timed now [.createEvent 1])
      (step (timed 0 []) delayedStart (.onDeviceStatus 7 false)) .tick 1 ≠ some false)
    (h₁ : evaluated (timed 20 []) (systemAfter delayedStart (duringOutage now)) .tick 1
      = some true)
    (h₂ : evaluated (timed 30 []) (step (timed 20 []) (systemAfter delayedStart (duringOutage now))
      .tick) .tick 1 ≠ some false) :
    Outage 1 10 delayedStart (systemAfter delayedStart (duringOutage now))
      (step (timed 20 []) (systemAfter delayedStart (duringOutage now)) .tick)
      (systemAfter delayedStart (duringOutage now ++ afterOutage))
      (duringOutage now) [(timed 20 [], .tick)] (timed 30 [], .tick) := by
  have hdelivers : ∀ t calls, (∀ call ∈ calls, call.isStore = true) → (timed t calls).Delivers :=
    fun _ _ hcalls ↦ failing_delivers hcalls
  exact {
    normal := ⟨_, rfl, rfl, rfl⟩
    outage := .cons (watched_of_evaluated rfl (hdelivers 0 [] (by decide)) (by decide))
      (.single (watched_of_evaluated rfl (hdelivers now _ (by decide)) hevaluated))
    recovered := .single (watched_of_evaluated rfl (hdelivers 20 [] (by decide)) (by simp [h₁]))
    ends := watched_of_evaluated rfl (hdelivers 30 [] (by decide)) h₂
    works := by simp [timed, failing]
    clock := by
      simp only [duringOutage, timed, List.cons_append, List.nil_append, List.map_cons,
        List.map_nil, List.pairwise_cons, List.mem_cons, List.not_mem_nil, or_false]
      refine ⟨?_, ?_, ?_, ?_, .nil⟩
      · rintro a (rfl | rfl | rfl) <;> first | exact h0 | norm_num
      · rintro a (rfl | rfl)
        · exact h20
        · linarith
      · rintro a rfl
        norm_num
      · exact fun _ h ↦ absurd h not_false
    holds := by
      intro first hfirst
      cases hfirst
      exact .inl h₁
    late := by
      intro first hfirst
      cases hfirst
      norm_num [timed]
    observes := .inl rfl }

theorem raised_once_after_outage_five :
    RaisedOnce 1 delayedStart (systemAfter delayedStart (duringOutage 5 ++ afterOutage)) := by
  have houtage := outage_delayed 5 (by norm_num) (by norm_num) (by decide +kernel)
    (by decide +kernel) (by decide +kernel)
  refine (raised_once_after_outage_iff Services.sound_empty run_delayedStart houtage).mpr ?_
  have hnever : ∀ w now op, ¬ Refused 1 w (timed now [], op) := by
    rintro w now op ⟨rt, -, -, -, -, -, hfails⟩
    cases hfails
  have hnot : ¬ Refused 1 (step (timed 0 []) delayedStart (.onDeviceStatus 7 false))
      (timed 5 [.createEvent 1], .tick) := by
    rintro ⟨rt, hfind, -, -, -, hdue, -⟩
    have hmachine : ((step (timed 0 []) delayedStart (.onDeviceStatus 7 false)).engine.find?
        1).map RuleRuntime.machine = some ⟨10, .pending, some 0⟩ := by decide +kernel
    rw [hfind, Option.map_some, Option.some.injEq] at hmachine
    rw [hmachine] at hdue
    norm_num [AlarmMachine.elapsed, timed] at hdue
  rcases houtage.outage with _ | ⟨h1, h2⟩
  rcases h2 with _ | ⟨h2, h3⟩
  cases h3
  rcases houtage.recovered with _ | ⟨h4, h5⟩
  cases h5
  exact .cons ⟨h1, hnever _ _ _⟩ (.cons ⟨h2, h1.2.2.2 ▸ hnot⟩
    (.cons ⟨h4, hnever _ _ _⟩ (.single ⟨houtage.ends, hnever _ _ _⟩)))

/-- Refused at the end of its delay, the alarm is never raised. -/
theorem not_raised_after_outage : ¬ ∀ (s : Services) (is : List (Env × Op)) (rule : RuleId)
    (delay : ℚ) (w₀ w₁ w₂ w₃ : AlarmSystem) (before after : List (Env × Op)) (last : Env × Op),
    s.Sound → 0 ≤ delay → Run Orderly s is w₀ →
    Outage rule delay w₀ w₁ w₂ w₃ before after last → RaisedOnce rule w₀ w₃ := by
  intro h
  have houtage := outage_delayed 10 (by norm_num) (by norm_num) (by decide +kernel)
    (by decide +kernel) (by decide +kernel)
  obtain ⟨m, message, ⟨rt, all, hfind, hmachine, -⟩, hactive, -⟩ :=
    h _ _ _ _ _ _ _ _ _ _ _ Services.sound_empty (by norm_num) run_delayedStart houtage
  have hpending : ((systemAfter delayedStart (duringOutage 10 ++ afterOutage)).engine.find?
      1).map RuleRuntime.machine = some ⟨10, .pending, none⟩ := by decide +kernel
  rw [hfind, Option.map_some, Option.some.injEq, hmachine] at hpending
  rw [hpending] at hactive
  cases hactive

end Superviseur
