import Superviseur.Alarms.Publication

/-!
# Catching up after a restart

A new engine restores the open alarms and then evaluates each rule once, on the values and the
device states found in the database. What becomes of one rule in that loop does not depend on the
other rules: their turns leave its runtime alone and publish nothing about it (`Aside`). The loop is
cut at the turn of the rule, and that turn is computed.
-/

namespace Superviseur

/-! ## One rule in a loop over rules -/

/-- The message is about an alarm of the rule, in the table of `s`. -/
def AlarmMessage.IsAbout (s : Services) (rule : RuleId) (m : AlarmMessage) : Prop :=
  match m.event with
  | .full info => info.ruleId = rule
  | .orphan id _ => ∃ e ∈ s.events, e.id = id ∧ e.ruleId = rule

/-- Between `w` and `w'` the runtime of the rule did not change, and nothing was published about it,
as the table `s` has it. -/
structure Aside (s : Services) (rule : RuleId) (w w' : AlarmSystem) : Prop where
  find? : w'.engine.find? rule = w.engine.find? rule
  published : ∃ ms, w'.services.published = w.services.published ++ ms ∧
    ∀ m ∈ ms, ¬ m.IsAbout s rule

section Loop

variable {s : Services} {rule rule' : RuleId} {w w' w'' : AlarmSystem}

theorem Aside.refl (s : Services) (rule : RuleId) (w : AlarmSystem) : Aside s rule w w :=
  ⟨rfl, [], (List.append_nil _).symm, fun _ h ↦ absurd h List.not_mem_nil⟩

theorem Aside.trans (h : Aside s rule w w') (h' : Aside s rule w' w'') : Aside s rule w w'' := by
  obtain ⟨hfind, ms, hms, hnot⟩ := h
  obtain ⟨hfind', ms', hms', hnot'⟩ := h'
  refine ⟨hfind'.trans hfind, ms ++ ms', by rw [hms', hms, List.append_assoc], ?_⟩
  intro m hm
  rcases List.mem_append.mp hm with hm | hm
  · exact hnot m hm
  · exact hnot' m hm

theorem AlarmEngine.find?_set (e : AlarmEngine) (rt : RuleRuntime) (rule : RuleId) :
    (e.set rt).find? rule
      = (e.find? rule).map fun x ↦ if x.record.id = rt.record.id then rt else x := by
  rw [AlarmEngine.find?, AlarmEngine.set, List.find?_map]
  congr 2
  funext x
  rw [Function.comp_apply]
  split
  · rename_i h
    rw [h]
  · rfl

theorem AlarmEngine.find?_set_of_ne {e : AlarmEngine} {rt : RuleRuntime}
    (h : rt.record.id ≠ rule) : (e.set rt).find? rule = e.find? rule := by
  rw [AlarmEngine.find?_set]
  cases hfind : e.find? rule with
  | none => rfl
  | some x =>
    obtain ⟨-, hx⟩ := AlarmEngine.find?_eq_some hfind
    rw [Option.map_some, if_neg (by rw [hx]; exact h.symm)]

theorem AlarmEngine.find?_set_self {e : AlarmEngine} {rt rt' : RuleRuntime}
    (h : e.find? rule = some rt) (hid : rt'.record.id = rule) :
    (e.set rt').find? rule = some rt' := by
  obtain ⟨-, hrt⟩ := AlarmEngine.find?_eq_some h
  rw [AlarmEngine.find?_set, h, Option.map_some, if_pos (by rw [hrt, hid])]

theorem AlarmSystem.visit_of_find?_eq_some {rt : RuleRuntime} (body : Scope → Scope)
    (h : w.engine.find? rule = some rt) : w.visit body rule =
      ⟨w.engine.set (body ⟨rt, w.services⟩).runtime, (body ⟨rt, w.services⟩).services⟩ := by
  rw [AlarmSystem.visit, h]

theorem AlarmSystem.visit_of_find?_eq_none (body : Scope → Scope)
    (h : w.engine.find? rule = none) : w.visit body rule = w := by
  rw [AlarmSystem.visit, h]

theorem aside_visit {env : Env} {body : Scope → Scope} (hbody : Updates env body)
    (henv : env.Delivers) (hw : Consistent w) (hne : rule' ≠ rule) :
    Aside s rule w (w.visit body rule') := by
  cases hfind : w.engine.find? rule' with
  | none =>
    rw [AlarmSystem.visit_of_find?_eq_none body hfind]
    exact .refl s rule w
  | some rt =>
    rw [AlarmSystem.visit_of_find?_eq_some body hfind]
    obtain ⟨hrt, hid⟩ := AlarmEngine.find?_eq_some hfind
    have hne' : rt.record.id ≠ rule := by rwa [hid]
    rcases hbody.progress henv (hw.agrees rt hrt) with
      ⟨hsame, hservices, -⟩ | ⟨t, id, -, -, -, hstored⟩
    · refine ⟨AlarmEngine.find?_set_of_ne (by rwa [hsame.record]), [], ?_, ?_⟩
      · dsimp only
        rw [hservices, List.append_nil]
      · exact fun _ h ↦ absurd h List.not_mem_nil
    · obtain ⟨⟨s₁, info, hwritten, hs', -, hinfo, -⟩, hrecord, -, -⟩ := hstored
      obtain ⟨-, -, -, -, hpublished, -⟩ := hwritten.history
      refine ⟨AlarmEngine.find?_set_of_ne (by rwa [hrecord]), [⟨t.kind, .full info⟩], ?_, ?_⟩
      · dsimp only
        rw [hs', Services.published_announced, hpublished]
      · intro m hm habout
        rw [List.mem_singleton.mp hm] at habout
        exact hne' (hinfo.symm.trans habout)

theorem aside_forEach {env : Env} {body : Scope → Scope} (hbody : Updates env body)
    (henv : env.Delivers) (hw : Consistent w) {rules : List RuleId} (hrule : rule ∉ rules) :
    Aside s rule w (w.forEach rules body) := by
  induction rules generalizing w with
  | nil => exact .refl s rule w
  | cons rule' rules ih =>
    have hne : rule' ≠ rule := fun h ↦ hrule (h ▸ List.mem_cons_self)
    have hvisit := hw.moves (moves_visit hbody henv hw rule')
    exact (aside_visit hbody henv hw hne).trans
      (ih hvisit fun h ↦ hrule (List.mem_cons_of_mem rule' h))

theorem forEach_cut {env : Env} {body : Scope → Scope} (hbody : Updates env body)
    (henv : env.Delivers) (hw : Consistent w) {rules : List RuleId} (hnodup : rules.Nodup)
    (hrule : rule ∈ rules) (s : Services) :
    ∃ w₁, Consistent w₁ ∧ Aside s rule w w₁ ∧
      Aside s rule (w₁.visit body rule) (w.forEach rules body) := by
  obtain ⟨pre, post, rfl⟩ := List.append_of_mem hrule
  have hpre : rule ∉ pre := fun h ↦ by
    have := List.nodup_append.mp hnodup
    exact this.2.2 rule h rule List.mem_cons_self rfl
  have hpost : rule ∉ post :=
    (List.nodup_cons.mp (List.nodup_append.mp hnodup).2.1).1
  have hw₁ := hw.moves (moves_forEach hbody henv hw pre)
  have hw₂ := hw₁.moves (moves_visit hbody henv hw₁ rule)
  refine ⟨w.forEach pre body, hw₁, aside_forEach hbody henv hw hpre, ?_⟩
  have hsplit : w.forEach (pre ++ rule :: post) body
      = ((w.forEach pre body).visit body rule).forEach post body := by
    rw [AlarmSystem.forEach, List.foldl_append]
    rfl
  rw [hsplit]
  exact aside_forEach hbody henv hw₂ hpost

end Loop

/-! ## The rule after a restart -/

/-- The state of the open alarm of a rule, `normal` where there is none. -/
def Services.restoredState (s : Services) (rule : RuleId) : AlarmState :=
  ((s.openEvents.find? fun e ↦ e.ruleId = rule).map AlarmEvent.state).getD .normal

/-- The condition of a rule on the database: the device is offline, or what the stored value says,
with the restored state as the memory of the hysteresis. A value that concludes nothing leaves the
condition as it was. -/
def conditionOnDatabase (env : Env) (record : RuleRecord) (restored : AlarmState) : Bool :=
  if record.kind = .commLost then decide (env.online record.deviceId = some false)
  else
    match env.latest record.pointId with
    | none => restored.isActive
    | some last =>
      (evaluateValue record.kind last.value record.threshold record.hysteresis
        restored.isActive).getD restored.isActive

/-- The rule can be evaluated on the database: a value kind whose point has a value, or `comm_lost`
on a known device. -/
def Evaluable (env : Env) (record : RuleRecord) : Prop :=
  (record.kind ∈ valueKinds ∧ ∃ last value, env.latest record.pointId = some last ∧
    last.value = some value) ∨
  (record.kind = .commLost ∧ (env.online record.deviceId).isSome = true)

theorem AlarmMachine.holds_eq_isActive {state : AlarmState} (h : state ≠ .pending) :
    AlarmMachine.holds state = state.isActive := by
  cases state <;> first | rfl | exact absurd rfl h

theorem Services.Sound.restoredState_ne_pending {s : Services} (hs : s.Sound) (rule : RuleId) :
    s.restoredState rule ≠ .pending := by
  rw [Services.restoredState]
  cases hfind : s.openEvents.find? fun e ↦ e.ruleId = rule with
  | none => exact fun h ↦ nomatch h
  | some e =>
    exact hs.stored e (Services.mem_openEvents.mp (List.mem_of_find?_eq_some hfind)).1

/-- The runtime of a rule that has just been restored. -/
structure Restored (record : RuleRecord) (state : AlarmState) (rt : RuleRuntime) : Prop where
  record : rt.record = record
  machine : rt.machine.state = state
  condition : rt.condition = state.isActive

theorem restored_restore {s : Services} (hs : s.Sound) (env : Env) (record : RuleRecord) :
    Restored record (s.restoredState record.id)
      (restore env record (s.openEvents.find? fun e ↦ e.ruleId = record.id)) := by
  have hstate := hs.restoredState_ne_pending record.id
  rw [Services.restoredState] at hstate ⊢
  cases hfind : s.openEvents.find? fun e ↦ e.ruleId = record.id with
  | none => exact ⟨rfl, rfl, rfl⟩
  | some e =>
    rw [hfind] at hstate
    exact ⟨rfl, AlarmMachine.state_new _ hstate, rfl⟩

section Turn

variable {env : Env} {record : RuleRecord} {state : AlarmState} {rt : RuleRuntime} {s : Services}

theorem holds_update_restored (hok : ∀ call, env.fails call = false) (ha : Agrees rt s)
    (condition : Bool) (value : Option PyFloat) :
    AlarmMachine.holds (update env condition value ⟨rt, s⟩).runtime.machine.state = condition := by
  rw [machine_update (fun call _ ↦ hok call) ha (hok _)]
  exact AlarmMachine.holds_update _ _ _

theorem services_update_of_holds (env : Env) {condition : Bool}
    (h : AlarmMachine.holds rt.machine.state = condition) (hp : rt.machine.state ≠ .pending)
    (value : Option PyFloat) (s : Services) :
    (update env condition value ⟨rt, s⟩).services = s := by
  rw [update_eq, AlarmMachine.update_of_holds h hp]
  rfl

theorem evaluateInitial_value (hrt : rt.record = record) (hkind : record.kind ∈ valueKinds)
    {last : LatestValue} (hlast : env.latest record.pointId = some last) (s : Services) :
    ∃ instant, evaluateInitial env ⟨rt, s⟩ =
      match evaluateValue record.kind last.value record.threshold record.hysteresis
        rt.condition with
      | none => ⟨rt.validAt instant, s⟩
      | some condition => update env condition last.value ⟨rt.validAt instant, s⟩ := by
  refine ⟨some (env.clock (.valid record.id) - max 0 (env.wall .initial - last.ts)), ?_⟩
  simp only [evaluateInitial, hrt, if_pos hkind, hlast, Option.map_some]
  rfl

theorem evaluateInitial_commLost (env : Env) (hrt : rt.record = record)
    (hkind : record.kind = .commLost) (s : Services) :
    ∃ instant, evaluateInitial env ⟨rt, s⟩ =
      if env.online record.deviceId = some false then
        update env true none ⟨rt.validAt instant, s⟩
      else ⟨rt.validAt instant, s⟩ := by
  have hnot : AlarmKind.commLost ∉ valueKinds := by decide
  refine ⟨(env.latest record.pointId).map fun last ↦
    env.clock (.valid record.id) - max 0 (env.wall .initial - last.ts), ?_⟩
  simp only [evaluateInitial, hrt, hkind, if_neg hnot, true_and]

/-- **The turn of a restored rule** ends in a state that says whether its condition holds, except
that the return of a device is not looked at. -/
theorem evaluateInitial_restored (hok : ∀ call, env.fails call = false) (ha : Agrees rt s)
    (hrt : Restored record state rt) (hstate : state ≠ .pending)
    (heval : Evaluable env record) :
    AlarmMachine.holds (evaluateInitial env ⟨rt, s⟩).runtime.machine.state =
        (if record.kind = .commLost ∧ env.online record.deviceId = some true then state.isActive
          else conditionOnDatabase env record state) ∧
      (AlarmMachine.holds state = conditionOnDatabase env record state →
        (evaluateInitial env ⟨rt, s⟩).services = s) := by
  have hvalid : ∀ instant, Agrees (rt.validAt instant) s := fun instant ↦ by
    have hsame : rt.Same (rt.validAt instant) := ⟨rfl, rfl, rfl⟩
    exact ha.of_same hsame rfl
  have hholds : ∀ instant, AlarmMachine.holds (rt.validAt instant).machine.state
      = state.isActive := fun instant ↦ by
    rw [← AlarmMachine.holds_eq_isActive hstate, ← hrt.machine]
    rfl
  have hpending : ∀ instant, (rt.validAt instant).machine.state ≠ .pending := fun instant ↦ by
    rw [← hrt.machine] at hstate
    exact hstate
  rw [AlarmMachine.holds_eq_isActive hstate]
  rcases heval with ⟨hkind, last, value, hlast, -⟩ | ⟨hkind, honline⟩
  · have hne : record.kind ≠ .commLost := fun h ↦ by
      rw [h] at hkind
      exact absurd hkind (by decide)
    obtain ⟨instant, heq⟩ := evaluateInitial_value hrt.record hkind hlast s
    rw [heq, hrt.condition, conditionOnDatabase, if_neg hne, if_neg fun h ↦ hne h.1]
    simp only [hlast]
    cases hevaluate : evaluateValue record.kind last.value record.threshold record.hysteresis
        state.isActive with
    | none => exact ⟨hholds instant, fun _ ↦ rfl⟩
    | some condition =>
      refine ⟨holds_update_restored hok (hvalid instant) condition last.value, fun h ↦ ?_⟩
      exact services_update_of_holds env ((hholds instant).trans h) (hpending instant) _ s
  · obtain ⟨instant, heq⟩ := evaluateInitial_commLost env hrt.record hkind s
    rw [heq, conditionOnDatabase, if_pos hkind]
    obtain ⟨online, honline⟩ := Option.isSome_iff_exists.mp honline
    rw [honline]
    -- the return of a device is not looked at
    cases online with
    | true => exact ⟨by simpa [hkind] using hholds instant, fun _ ↦ by simp⟩
    | false =>
      refine ⟨?_, fun h ↦ ?_⟩
      · simpa [hkind] using holds_update_restored hok (hvalid instant) true none
      · simpa using services_update_of_holds env ((hholds instant).trans (by simpa using h))
          (hpending instant) none s

end Turn

/-! ## The load of a new engine -/

section Load

variable {env : Env} {s : Services}

theorem aside_closeOrphans (hok : ∀ call, env.fails call = false) (hs : s.Sound) {rule : RuleId}
    (engine : AlarmEngine) {orphans : List AlarmEvent}
    (horphans : ∀ e ∈ orphans, e ∈ s.events ∧ e.ruleId ≠ rule) (s₀ : Services) :
    Aside s rule ⟨engine, s₀⟩ ⟨engine, (closeOrphans env orphans s₀).1⟩ ∧
      (closeOrphans env orphans s₀).2 = none := by
  induction orphans generalizing s₀ with
  | nil => exact ⟨.refl _ _ _, rfl⟩
  | cons e orphans ih =>
    rw [closeOrphans_cons (fun call _ ↦ hok call) (hok _)]
    obtain ⟨haside, hnone⟩ := ih (fun x hx ↦ horphans x (List.mem_cons_of_mem e hx)) _
    refine ⟨Aside.trans ?_ haside, hnone⟩
    refine ⟨rfl, [⟨.normal, .orphan e.id .normal⟩], rfl, ?_⟩
    intro m hm habout
    rw [List.mem_singleton.mp hm] at habout
    obtain ⟨x, hx, hid, hrule⟩ := habout
    obtain ⟨he, hne⟩ := horphans e List.mem_cons_self
    rw [hs.eq_of_id he hx hid] at hrule
    exact hne hrule

theorem initialEvaluation_of_ok (hok : ∀ call, env.fails call = false) (fresh : List RuleId)
    (w : AlarmSystem) :
    initialEvaluation env fresh w = (w.forEach fresh (evaluateInitial env), none) := by
  rw [initialEvaluation, hok, hok]
  split
  · rename_i hfresh
    rw [hfresh]
    rfl
  · rfl

/-- The load of a new engine, where nothing fails: the rules are restored, the orphans closed, and
every rule has its turn. -/
theorem load_empty (hok : ∀ call, env.fails call = false) {s' : Services}
    (hclose : closeOrphans env (orphansOf env ⟨.empty, s⟩) s = (s', none)) :
    load env ⟨.empty, s⟩ = (AlarmSystem.forEach (env.rules.val.map RuleRecord.id)
      (evaluateInitial env)
      ⟨.index (env.rules.val.map (runtimeOf env [] s.openEvents)), s'⟩, none) := by
  have hfresh : (env.rules.val.map RuleRecord.id).filter (fun rule ↦
      decide (rule ∉ (AlarmEngine.empty.rules.map (refresh env.rules.val)).map
        fun rt ↦ rt.record.id)) = env.rules.val.map RuleRecord.id :=
    List.filter_eq_self.mpr fun _ _ ↦ rfl
  rw [orphansOf] at hclose
  rw [load, hok, hok]
  simp only [Bool.false_eq_true, if_false, hclose, hfresh, initialEvaluation_of_ok hok]
  rfl

/-- What a restart makes of a rule: it is active exactly when its condition holds on the database,
and nothing is published about it when its stored state already said so. -/
structure CaughtUp (env : Env) (s : Services) (record : RuleRecord) (w : AlarmSystem) : Prop where
  active : ∃ rt, w.engine.find? record.id = some rt ∧
    (rt.machine.state ∈ [AlarmState.pending, .activeUnacked, .activeAcked] ↔
      conditionOnDatabase env record (s.restoredState record.id) = true)
  quiet : AlarmMachine.holds (s.restoredState record.id)
      = conditionOnDatabase env record (s.restoredState record.id) →
    ∃ ms, w.services.published = s.published ++ ms ∧ ∀ m ∈ ms, ¬ m.IsAbout s record.id

theorem AlarmMachine.holds_iff_mem (state : AlarmState) : AlarmMachine.holds state = true ↔
    state ∈ [AlarmState.pending, .activeUnacked, .activeAcked] := by
  cases state <;> decide

/-- **Catching up after a restart.** The load of a new engine brings a rule in line with the
database, except where the device of a `comm_lost` rule came back while the engine was down: then
the rule stays active. -/
theorem restart_catches_up (hok : ∀ call, env.fails call = false) (hs : s.Sound)
    {record : RuleRecord} (hrecord : record ∈ env.rules.val) (heval : Evaluable env record) :
    CaughtUp env s record (load env ⟨.empty, s⟩).1 ↔
      ¬ (record.kind = .commLost ∧ env.online record.deviceId = some true ∧
        (s.restoredState record.id).isActive = true) := by
  have henv : env.Delivers := fun call _ ↦ hok call
  have hstate := hs.restoredState_ne_pending record.id
  have hrule : record.id ∈ env.rules.val.map RuleRecord.id := List.mem_map_of_mem hrecord
  -- the engine once the rules are restored, and once the orphans are closed
  have hreloaded := (consistent_empty hs).reloaded env
  have hclosed := hreloaded.moves (moves_orphans henv (consistent_empty hs))
  have horphans : ∀ e ∈ orphansOf env ⟨.empty, s⟩, e ∈ s.events ∧ e.ruleId ≠ record.id := by
    intro e he
    obtain ⟨hopen, hnot⟩ := List.mem_filter.mp he
    refine ⟨(Services.mem_openEvents.mp hopen).1, fun heq ↦ of_decide_eq_true hnot ?_⟩
    rwa [heq]
  obtain ⟨haside, hnone⟩ := aside_closeOrphans hok hs
    (.index (env.rules.val.map (runtimeOf env [] s.openEvents))) horphans s
  have hload := load_empty hok (Prod.ext rfl hnone)
  -- its loop over the rules, cut at the turn of the rule
  obtain ⟨w, hw, hbefore, hafter⟩ := forEach_cut (updates_evaluateInitial env) henv hclosed
    env.rules.property hrule s
  have hrestored := restored_restore hs env record
  have hfind : w.engine.find? record.id
      = some (restore env record (s.openEvents.find? fun e ↦ e.ruleId = record.id)) := by
    have hmem := hreloaded.find?_eq (List.mem_map_of_mem hrecord)
    rw [record_id_runtimeOf] at hmem
    rw [hbefore.find?]
    exact hmem
  generalize restore env record (s.openEvents.find? fun e ↦ e.ruleId = record.id) = rt
    at hrestored hfind
  have ha := hw.agrees rt (AlarmEngine.find?_eq_some hfind).1
  obtain ⟨hholds, hquiet⟩ := evaluateInitial_restored hok ha hrestored hstate heval
  have hturn : (w.visit (evaluateInitial env) record.id).engine.find? record.id
      = some (evaluateInitial env ⟨rt, w.services⟩).runtime := by
    have hkept := (((updates_evaluateInitial env).progress henv ha).agrees hw.sound ha).2.2.1
    rw [AlarmSystem.visit_of_find?_eq_some _ hfind]
    exact AlarmEngine.find?_set_self hfind (by rw [hkept]; exact hrestored.record ▸ rfl)
  have hfinal := hafter.find?.trans hturn
  rw [hload]
  refine ⟨?_, ?_⟩
  · rintro ⟨⟨rt', hrt', hactive⟩, -⟩ ⟨hkind, honline, hopen⟩
    have heq := hfinal.symm.trans hrt'
    rw [Option.some.injEq] at heq
    rw [← heq, ← AlarmMachine.holds_iff_mem, hholds, if_pos ⟨hkind, honline⟩, hopen,
      conditionOnDatabase, if_pos hkind, honline] at hactive
    exact absurd (hactive.mp rfl) (by decide)
  · intro hnot
    refine ⟨⟨_, hfinal, ?_⟩, fun hagree ↦ ?_⟩
    · rw [← AlarmMachine.holds_iff_mem, hholds]
      split
      · rename_i h
        have hinactive : ¬ (s.restoredState record.id).isActive = true :=
          fun hactive ↦ hnot ⟨h.1, h.2, hactive⟩
        rw [conditionOnDatabase, if_pos h.1, h.2]
        simpa using hinactive
      · rfl
    · obtain ⟨ms, hms, hnotabout⟩ := (haside.trans hbefore).published
      obtain ⟨ms', hms', hnotabout'⟩ := hafter.published
      have hvisit : (w.visit (evaluateInitial env) record.id).services = w.services := by
        rw [AlarmSystem.visit_of_find?_eq_some _ hfind]
        exact hquiet hagree
      refine ⟨ms ++ ms', ?_, ?_⟩
      · refine hms'.trans ?_
        rw [hvisit, hms, List.append_assoc]
      · intro m hm
        rcases List.mem_append.mp hm with hm | hm
        · exact hnotabout m hm
        · exact hnotabout' m hm

end Load

/-! ### A device that came back while the engine was down -/

/-- The table with one open alarm, of the rule `lostRule`. -/
def oneOpenAlarm : Services := .ofEvents [⟨1, 1, .activeUnacked, 0, none, none, none, none⟩]

theorem sound_oneOpenAlarm : oneOpenAlarm.Sound := by
  refine ⟨List.nodup_singleton _, fun rule ↦ ?_, fun e he ↦ ?_⟩
  · exact List.length_filter_le _ _
  · rw [List.mem_singleton.mp he]
    decide

/-- An environment where nothing fails and every device has the status given. -/
def statusEnv (online : Bool) : Env := { failing [] with online := fun _ ↦ some online }

theorem restart_catches_up_offline :
    CaughtUp (statusEnv false) oneOpenAlarm lostRule (load (statusEnv false)
      ⟨.empty, oneOpenAlarm⟩).1 := by
  refine (restart_catches_up (fun _ ↦ rfl) sound_oneOpenAlarm (List.mem_singleton_self _)
    (.inr ⟨rfl, rfl⟩)).mpr ?_
  rintro ⟨-, honline, -⟩
  cases honline

/-- The device is online again, the alarm stays active. -/
theorem return_not_caught_up : ¬ ∀ (env : Env) (s : Services) (record : RuleRecord),
    (∀ call, env.fails call = false) → s.Sound → record ∈ env.rules.val → Evaluable env record →
    CaughtUp env s record (load env ⟨.empty, s⟩).1 := by
  intro h
  obtain ⟨⟨rt, hrt, hactive⟩, -⟩ := h (statusEnv true) oneOpenAlarm lostRule (fun _ ↦ rfl)
    sound_oneOpenAlarm (List.mem_singleton_self _) (.inr ⟨rfl, rfl⟩)
  have hstate : ((load (statusEnv true) ⟨.empty, oneOpenAlarm⟩).1.engine.find? 1).map
      (fun rt ↦ rt.machine.state) = some .activeUnacked := by decide
  have hrt' : (load (statusEnv true) ⟨.empty, oneOpenAlarm⟩).1.engine.find? 1 = some rt := hrt
  rw [hrt', Option.map_some, Option.some.injEq] at hstate
  rw [hstate] at hactive
  exact absurd (hactive.mp (by decide)) (by decide)

end Superviseur
