import Superviseur.Alarms.Agreement

/-!
# Runs of the engine

A run is a list of operations, each with the environment it meets, from an engine that has loaded
nothing. What the invariant says is spelled out here on the rows of the table (`InStep`), and holds
in every state of every run in which the bus delivers and no reload stops half way in the wrong
place.

The two conditions are needed. A publication that raises after the write has been made undoes the
transition in memory only (`not_inStep_of_bus_fails`).
-/

namespace Superviseur

/-- Each operation, with its environment, meets `C`. -/
def Steps (C : Env → Op → AlarmSystem → Prop) (w : AlarmSystem) (i : Env × Op) (w' : AlarmSystem) :
    Prop :=
  C i.1 i.2 w ∧ w' = step i.1 w i.2

/-- `Run C s is w`: the operations `is`, each meeting `C`, lead from a new engine over the table of
`s` to `w`. -/
abbrev Run (C : Env → Op → AlarmSystem → Prop) (s : Services) (is : List (Env × Op))
    (w : AlarmSystem) : Prop :=
  Trace.Path (Steps C) ⟨.empty, s⟩ is w

/-! ## The property -/

/-- The runtime of a rule says what the table says. -/
structure InStep (rt : RuleRuntime) (s : Services) : Prop where
  /-- The rule has an open alarm exactly when its machine is in a state that is stored. -/
  opened : (∃ e ∈ s.events, e.ruleId = rt.record.id ∧ e.state ≠ .normal) ↔
    rt.machine.state ∈ [AlarmState.activeUnacked, .activeAcked, .clearedUnacked]
  /-- The runtime designates that alarm, and none when there is none. -/
  eventId : ∀ id, rt.eventId = some id ↔
    ∃ e ∈ s.events, e.ruleId = rt.record.id ∧ e.state ≠ .normal ∧ e.id = id
  /-- The stored state is that of the machine. -/
  state : ∀ e ∈ s.events, e.ruleId = rt.record.id → e.state ≠ .normal →
    e.state = rt.machine.state

theorem AlarmState.isOpen_iff_mem (s : AlarmState) :
    s.isOpen = true ↔ s ∈ [AlarmState.activeUnacked, .activeAcked, .clearedUnacked] := by
  cases s <;> decide

theorem Agrees.inStep {rt : RuleRuntime} {s : Services} (h : Agrees rt s) : InStep rt s := by
  have hmem : ∀ e, e ∈ s.openOf rt.record.id ↔
      e ∈ s.events ∧ e.ruleId = rt.record.id ∧ e.state ≠ .normal := fun _ ↦ Services.mem_openOf
  rcases h with ⟨hstate, hid, hopen⟩ | ⟨e, hstate, hid, hopen, heq, -⟩
  · have hnone : ∀ e ∈ s.events, e.ruleId = rt.record.id → ¬ e.state ≠ .normal := by
      intro e he hrule hne
      have := (hmem e).mpr ⟨he, hrule, hne⟩
      rw [hopen] at this
      exact List.not_mem_nil this
    refine ⟨?_, ?_, ?_⟩
    · rw [← AlarmState.isOpen_iff_mem, hstate]
      refine ⟨?_, fun h ↦ absurd h (by decide)⟩
      rintro ⟨e, he, hrule, hne⟩
      exact absurd hne (hnone e he hrule)
    · intro id
      rw [hid]
      refine ⟨fun h ↦ absurd h (by simp), ?_⟩
      rintro ⟨e, he, hrule, hne, -⟩
      exact absurd hne (hnone e he hrule)
    · intro e he hrule hne
      exact absurd hne (hnone e he hrule)
  · have hone : ∀ x ∈ s.events, x.ruleId = rt.record.id → x.state ≠ .normal → x = e := by
      intro x hx hrule hne
      have := (hmem x).mpr ⟨hx, hrule, hne⟩
      rw [hopen] at this
      exact List.mem_singleton.mp this
    have he := (hmem e).mp (hopen ▸ List.mem_singleton_self e)
    refine ⟨?_, ?_, ?_⟩
    · rw [← AlarmState.isOpen_iff_mem, hstate]
      exact ⟨fun _ ↦ rfl, fun _ ↦ ⟨e, he⟩⟩
    · intro id
      rw [hid]
      refine ⟨?_, ?_⟩
      · intro h
        exact ⟨e, he.1, he.2.1, he.2.2, Option.some.inj h⟩
      · rintro ⟨x, hx, hrule, hne, rfl⟩
        rw [hone x hx hrule hne]
    · intro x hx hrule hne
      rw [hone x hx hrule hne, heq]

/-! ## Runs that keep the invariant -/

/-- The bus delivers, and a reload does not stop after closing the alarm of a rule still loaded. -/
def Orderly (env : Env) (op : Op) (w : AlarmSystem) : Prop :=
  env.Delivers ∧ (op = .load → ReloadsSafely env w)

/-- The bus delivers, and the store answers during a reload; it may refuse any call of an
observation, a tick or an acknowledgement. -/
def StoreMayFail (env : Env) (op : Op) (_ : AlarmSystem) : Prop :=
  env.Delivers ∧ (op = .load → ∀ call, call.isStore = true → env.fails call = false)

theorem StoreMayFail.orderly {env : Env} {op : Op} {w : AlarmSystem} (h : StoreMayFail env op w) :
    Orderly env op w := by
  refine ⟨h.1, fun hop _ _ hfails ↦ ?_⟩
  obtain ⟨e, -, he⟩ := hfails
  rw [h.2 hop _ rfl] at he
  cases he

theorem consistent_empty {s : Services} (hs : s.Sound) : Consistent ⟨.empty, s⟩ :=
  ⟨List.nodup_nil, hs, fun _ hrt ↦ absurd hrt List.not_mem_nil⟩

/-- **An orderly operation preserves the invariant.** -/
theorem Consistent.step {env : Env} {op : Op} {w : AlarmSystem} (hw : Consistent w)
    (h : Orderly env op w) : Consistent (step env w op) := by
  obtain ⟨engine, hengine, hmoves⟩ := step_moves h.1 hw h.2
  exact hengine.moves hmoves

/-- **An orderly run preserves the invariant.** -/
theorem consistent_of_run {s : Services} (hs : s.Sound) {is : List (Env × Op)} {w : AlarmSystem}
    (h : Run Orderly s is w) : Consistent w := by
  refine h.invariant Consistent ?_ (consistent_empty hs)
  rintro w i w' hw ⟨horderly, rfl⟩
  exact hw.step horderly

/-! ### A rule to try the results on -/

/-- A `comm_lost` rule without delay. -/
def lostRule : RuleRecord where
  id := 1
  pointId := 1
  name := none
  kind := .commLost
  threshold := none
  hysteresis := .fin 0
  delayS := 0
  severity := .critical
  notify := ["email"]
  pointName := "Communication"
  path := none
  unit := none
  objectType := "device"
  objectInstance := 1
  deviceId := 7
  deviceInstance := 1

/-- An environment with stopped clocks and one rule, where the calls listed raise. -/
def failing (calls : List Call) : Env where
  fails call := decide (call ∈ calls)
  clock _ := 0
  wall _ := 0
  rules := ⟨[lostRule], List.nodup_singleton _⟩
  latest _ := none
  online _ := none
  login _ := none

def Services.empty : Services := ⟨[], [], [], []⟩

theorem Services.sound_empty : Services.empty.Sound :=
  ⟨List.nodup_nil, fun _ ↦ Nat.zero_le _, fun _ h ↦ absurd h List.not_mem_nil⟩

theorem failing_delivers {calls : List Call} (h : ∀ call ∈ calls, call.isStore = true) :
    (failing calls).Delivers := by
  intro call hcall
  refine decide_eq_false fun hmem ↦ ?_
  rw [h call hmem] at hcall
  cases hcall

/-- The run of that rule in which its device goes offline twice, under the environments given. -/
def lostRun (env env' : Env) : List (Env × Op) :=
  [(failing [], .load), (env, .onDeviceStatus 7 false), (env', .onDeviceStatus 7 false)]

/-- Where that run ends. -/
def lostRunEnd (env env' : Env) : AlarmSystem :=
  step env' (step env (step (failing []) ⟨.empty, .empty⟩ .load) (.onDeviceStatus 7 false))
    (.onDeviceStatus 7 false)

theorem run_lostRun {C : Env → Op → AlarmSystem → Prop} {env env' : Env}
    (hload : C (failing []) .load ⟨.empty, .empty⟩)
    (h : ∀ w, C env (.onDeviceStatus 7 false) w) (h' : ∀ w, C env' (.onDeviceStatus 7 false) w) :
    Run C .empty (lostRun env env') (lostRunEnd env env') :=
  .cons ⟨hload, rfl⟩ (.cons ⟨h _, rfl⟩ (.single ⟨h' _, rfl⟩))

theorem storeMayFail_lostRun :
    Run StoreMayFail .empty (lostRun (failing [.createEvent 1]) (failing []))
    (lostRunEnd (failing [.createEvent 1]) (failing [])) := by
  have hdelivers : (failing [.createEvent 1]).Delivers := failing_delivers (by decide)
  have hdelivers' : (failing []).Delivers := failing_delivers (by decide)
  refine run_lostRun ⟨hdelivers', fun _ _ _ ↦ rfl⟩ ?_ ?_
  · exact fun _ ↦ ⟨hdelivers, fun h ↦ nomatch h⟩
  · exact fun _ ↦ ⟨hdelivers', fun h ↦ nomatch h⟩

theorem orderly_lostRun : Run Orderly .empty (lostRun (failing [.createEvent 1]) (failing []))
    (lostRunEnd (failing [.createEvent 1]) (failing [])) :=
  storeMayFail_lostRun.mono fun ⟨hC, hstep⟩ ↦ ⟨hC.orderly, hstep⟩

/-! ### The results -/

/-- **The engine and the database agree.** Whatever calls of the store fail during observations,
ticks and acknowledgements, after every operation each loaded rule is in step with the table, and no
rule has two open alarms. -/
theorem engine_agrees_with_database {s : Services} (hs : s.Sound) {is : List (Env × Op)}
    {w : AlarmSystem} (h : Run StoreMayFail s is w) :
    (∀ rt ∈ w.engine.rules, InStep rt w.services) ∧
      ∀ rule, (w.services.openOf rule).length ≤ 1 := by
  have hw : Consistent w :=
    consistent_of_run hs (h.mono fun ⟨hC, hstep⟩ ↦ ⟨hC.orderly, hstep⟩)
  exact ⟨fun rt hrt ↦ (hw.agrees rt hrt).inStep, hw.sound.unique⟩

theorem engine_agrees_with_database_lost :
    (lostRunEnd (failing [.createEvent 1]) (failing [])).engine.rules.map
        (fun rt ↦ rt.machine.state) = [.activeUnacked] ∧
      ∀ rt ∈ (lostRunEnd (failing [.createEvent 1]) (failing [])).engine.rules,
        InStep rt (lostRunEnd (failing [.createEvent 1]) (failing [])).services :=
  ⟨by decide +kernel, (engine_agrees_with_database Services.sound_empty storeMayFail_lostRun).1⟩

/-- **A transition is atomic where the bus delivers.** In an orderly run every loaded rule is in
step with the table after each operation, and an acknowledgement refused at that point has not
changed the table. -/
theorem transition_atomic {s : Services} (hs : s.Sound) {is : List (Env × Op)} {w : AlarmSystem}
    (h : Run Orderly s is w) :
    (∀ rt ∈ w.engine.rules, InStep rt w.services) ∧
      ∀ (env : Env) (eventId : EventId) (user : UserId), env.Delivers →
        (acknowledge env eventId user w).2.ok = false →
        (acknowledge env eventId user w).1.services.events = w.services.events := by
  have hw : Consistent w := consistent_of_run hs h
  refine ⟨fun rt hrt ↦ (hw.agrees rt hrt).inStep, ?_⟩
  intro env eventId user henv hok
  rw [(acknowledge_turn henv hw eventId user).2 hok]

theorem transition_atomic_lost :
    ((lostRunEnd (failing [.createEvent 1]) (failing [])).services.openOf 1).map AlarmEvent.state
        = [.activeUnacked] ∧
      ∀ rt ∈ (lostRunEnd (failing [.createEvent 1]) (failing [])).engine.rules,
        InStep rt (lostRunEnd (failing [.createEvent 1]) (failing [])).services :=
  ⟨by decide +kernel, (transition_atomic Services.sound_empty orderly_lostRun).1⟩

/-- Anything may fail outside a reload, the bus and the notifier included. -/
def AnythingMayFail (env : Env) (op : Op) (_ : AlarmSystem) : Prop :=
  op = .load → ∀ call, env.fails call = false

theorem InStep.states {rt : RuleRuntime} {s : Services} (h : InStep rt s) :
    ∀ state ∈ (s.openOf rt.record.id).map AlarmEvent.state, state = rt.machine.state := by
  intro state hstate
  obtain ⟨e, he, rfl⟩ := List.mem_map.mp hstate
  obtain ⟨hmem, hrule, hne⟩ := Services.mem_openOf.mp he
  exact h.state e hmem hrule hne

/-- One publication that raises after the insertion leaves the rule `pending` with an open alarm. -/
theorem transition_not_atomic : ¬ ∀ (s : Services) (is : List (Env × Op)) (w : AlarmSystem),
    s.Sound → Run AnythingMayFail s is w → ∀ rt ∈ w.engine.rules, InStep rt w.services := by
  intro h
  have hrun : Run AnythingMayFail .empty (lostRun (failing [.publish 1]) (failing [.publish 1]))
      (lostRunEnd (failing [.publish 1]) (failing [.publish 1])) :=
    run_lostRun (fun _ _ ↦ rfl) (fun _ h ↦ nomatch h) (fun _ h ↦ nomatch h)
  have hstates := fun rt hrt ↦ (h _ _ _ Services.sound_empty hrun rt hrt).states
  exact absurd hstates (by decide +kernel)

end Superviseur
