import Superviseur.Alarms.Standing

/-!
# What an operation makes of what is known of the rules

Each turn of the engine acts on the standing of its rule, and the rules an operation goes through
are read off their records (`Located`). So an observation or a tick moves the standing of each rule
it is about (`Located.standing_step`), an acknowledgement moves none, and a load that meets no
failure installs the new definitions, keeps the condition of the rules the engine knows, and
evaluates the others (`standing_load`).
-/

namespace Superviseur

/-! ## Observations -/

namespace Standing

/-- The operation is about the rule. -/
def concerns (st : Standing) : Op → Bool
  | .onValue point _ => decide (st.record.pointId = point)
  | .onDeviceStatus device _ => decide (st.record.kind = .commLost ∧ st.record.deviceId = device)
  | .onBacnetEvent deviceInstance objectType objectInstance _ =>
    decide (st.record.kind = .bacnetEvent ∧
      (st.record.deviceInstance, st.record.objectType, st.record.objectInstance)
        = (deviceInstance, objectType, objectInstance))
  | .tick => true
  | _ => false

/-- What an observation or a tick says of a rule it is about. A value that concludes nothing leaves
the condition as it was. -/
def observe (env : Env) (op : Op) (st : Standing) : Standing :=
  match op with
  | .onValue _ value =>
    { st with
      condition :=
        if st.record.kind ∈ valueKinds then
          (evaluateValue st.record.kind value st.record.threshold st.record.hysteresis
            st.condition).getD st.condition
        else if st.record.kind = .stale ∧ value.isSome then false
        else st.condition
      lastValid := (value.map fun _ ↦ env.clock (.valid st.record.id)).getD st.lastValid }
  | .onDeviceStatus _ online => { st with condition := !online }
  | .onBacnetEvent _ _ _ toState => { st with condition := isAbnormalEventState toState }
  | .tick =>
    { st with
      condition :=
        match st.record.kind, st.record.threshold with
        | .stale, some threshold => isStale (env.clock .tick - st.lastValid) threshold
        | _, _ => st.condition }
  | _ => st

/-- What becomes of the standing of a rule in an operation that keeps the rules loaded. -/
def next (env : Env) (op : Op) (st : Standing) : Standing :=
  if st.concerns op then st.observe env op else st

theorem record_observe (env : Env) (op : Op) (st : Standing) :
    (st.observe env op).record = st.record := by
  cases op <;> rfl

end Standing

theorem acts_observeValue (env : Env) (point : PointId) (value : Option PyFloat) :
    Acts (observeValue env value) (Standing.observe env (.onValue point value)) := by
  refine acts_of_turn env (Standing.record_observe env _) fun x ↦ ?_
  refine ⟨value.map fun _ ↦ env.clock (.valid x.runtime.record.id), rfl, ?_⟩
  have hvalid : ∀ instant, (x.runtime.validAt instant).condition = x.runtime.condition :=
    fun _ ↦ rfl
  unfold observeValue
  dsimp only [Standing.observe, RuleRuntime.standing]
  rw [hvalid]
  by_cases hkind : x.runtime.record.kind ∈ valueKinds
  · rw [if_pos hkind, if_pos hkind]
    cases evaluateValue x.runtime.record.kind value x.runtime.record.threshold
        x.runtime.record.hysteresis x.runtime.condition with
    | none => exact .inl ⟨rfl, rfl⟩
    | some condition => exact .inr ⟨value, rfl⟩
  · rw [if_neg hkind, if_neg hkind]
    by_cases hstale : x.runtime.record.kind = .stale ∧ value.isSome = true
    · rw [if_pos hstale, if_pos hstale]
      exact .inr ⟨value, rfl⟩
    · rw [if_neg hstale, if_neg hstale]
      exact .inl ⟨rfl, rfl⟩

theorem acts_tickRule (env : Env) : Acts (tickRule env) (Standing.observe env .tick) := by
  refine acts_of_turn env (Standing.record_observe env _) fun x ↦ ⟨none, rfl, ?_⟩
  by_cases hstale : x.runtime.record.kind = .stale ∧ x.runtime.record.threshold.isSome = true
  · obtain ⟨hkind, hsome⟩ := hstale
    obtain ⟨threshold, hthreshold⟩ := Option.isSome_iff_exists.mp hsome
    refine .inr ⟨none, ?_⟩
    simp only [tickRule, Standing.observe, RuleRuntime.standing, hkind, hthreshold]
    rfl
  · have hcondition : (Standing.observe env .tick x.runtime.standing).condition
        = x.runtime.condition := by
      dsimp only [Standing.observe, RuleRuntime.standing]
      split
      · rename_i hkind hthreshold
        exact absurd ⟨hkind, by rw [hthreshold]; rfl⟩ hstale
      · rfl
    have hturn : tickRule env x = if x.runtime.machine.state = .pending then
        update env x.runtime.condition none x else x := by
      rw [tickRule]
      split
      · rename_i hkind hthreshold
        exact absurd ⟨hkind, by rw [hthreshold]; rfl⟩ hstale
      · rfl
    rw [hcondition, hturn]
    split
    · exact .inr ⟨none, rfl⟩
    · exact .inl ⟨rfl, rfl⟩

theorem acts_update (env : Env) {condition : Bool} {f : Standing → Standing}
    (h : ∀ st, f st = { st with condition := condition }) :
    Acts (update env condition none) f := by
  refine acts_of_turn env (fun st ↦ by rw [h]) fun x ↦ ⟨none, by rw [h]; rfl, .inr ⟨none, ?_⟩⟩
  rw [h]
  rfl

theorem acts_turn {op : Op} (h : op.isObservation = true) (env : Env) :
    Acts (turn env op) (Standing.observe env op) := by
  cases op with
  | onValue point value => exact acts_observeValue env point value
  | onDeviceStatus _ online => exact acts_update env fun _ ↦ rfl
  | onBacnetEvent _ _ _ toState => exact acts_update env fun _ ↦ rfl
  | tick => exact acts_tickRule env
  | load => cases h
  | acknowledge _ _ => cases h
  | restart => cases h

/-! ## The rules an operation goes through -/

/-- The rules are a dictionary, and the indexes are those of their records. -/
structure Located (e : AlarmEngine) : Prop where
  nodup : (e.rules.map fun rt ↦ rt.record.id).Nodup
  byPoint : e.byPoint = (AlarmEngine.index e.rules).byPoint
  byDevice : e.byDevice = (AlarmEngine.index e.rules).byDevice
  byObject : e.byObject = (AlarmEngine.index e.rules).byObject

section Targets

variable {w : AlarmSystem} {rule : RuleId}

theorem mem_lookup {κ : Type} [DecidableEq κ] {key : κ} {index : List (κ × RuleId)} :
    rule ∈ AlarmEngine.lookup key index ↔ (key, rule) ∈ index := by
  simp only [AlarmEngine.lookup, List.mem_map, List.mem_filter, decide_eq_true_eq]
  constructor
  · rintro ⟨⟨key', rule'⟩, ⟨hmem, hkey⟩, hrule⟩
    dsimp only at hkey hrule
    rwa [← hkey, ← hrule]
  · exact fun h ↦ ⟨(key, rule), ⟨h, rfl⟩, rfl⟩

theorem Located.mem_targets (h : Located w.engine) {rt : RuleRuntime}
    (hfind : w.engine.find? rule = some rt) (op : Op) :
    rule ∈ w.targets op ↔ rt.standing.concerns op = true := by
  obtain ⟨hrt, hid⟩ := AlarmEngine.find?_eq_some hfind
  have hsame : ∀ rt' ∈ w.engine.rules, rt'.record.id = rule → rt' = rt := fun rt' hrt' hid' ↦
    List.inj_on_of_nodup_map h.nodup hrt' hrt (hid'.trans hid.symm)
  cases op with
  | onValue point value =>
    rw [AlarmSystem.targets, mem_lookup, h.byPoint, AlarmEngine.index]
    simp only [List.mem_map, Prod.mk.injEq, Standing.concerns, decide_eq_true_eq]
    constructor
    · rintro ⟨rt', hrt', hpoint, hrule⟩
      rw [← hsame rt' hrt' hrule]
      exact hpoint
    · exact fun hpoint ↦ ⟨rt, hrt, hpoint, hid⟩
  | onDeviceStatus device online =>
    rw [AlarmSystem.targets, mem_lookup, h.byDevice, AlarmEngine.index]
    simp only [List.mem_map, List.mem_filter, Prod.mk.injEq, Standing.concerns,
      decide_eq_true_eq]
    constructor
    · rintro ⟨rt', ⟨hrt', hkind⟩, hdevice, hrule⟩
      rw [← hsame rt' hrt' hrule]
      exact ⟨hkind, hdevice⟩
    · exact fun ⟨hkind, hdevice⟩ ↦ ⟨rt, ⟨hrt, hkind⟩, hdevice, hid⟩
  | onBacnetEvent deviceInstance objectType objectInstance toState =>
    rw [AlarmSystem.targets, mem_lookup, h.byObject, AlarmEngine.index]
    simp only [List.mem_map, List.mem_filter, Standing.concerns, decide_eq_true_eq]
    constructor
    · rintro ⟨rt', ⟨hrt', hkind⟩, hpair⟩
      rw [Prod.mk.injEq] at hpair
      rw [← hsame rt' hrt' hpair.2]
      exact ⟨hkind, hpair.1⟩
    · exact fun ⟨hkind, hkey⟩ ↦ ⟨rt, ⟨hrt, hkind⟩, Prod.ext hkey hid⟩
  | tick =>
    simp only [AlarmSystem.targets, Standing.concerns, List.mem_map, iff_true]
    exact ⟨rt, hrt, hid⟩
  | load => simp [AlarmSystem.targets, Standing.concerns]
  | acknowledge eventId user => simp [AlarmSystem.targets, Standing.concerns]
  | restart => simp [AlarmSystem.targets, Standing.concerns]

theorem Located.nodup_targets (h : Located w.engine) (op : Op) : (w.targets op).Nodup := by
  have hindexed : Indexed w.engine := by
    have hindex := indexed_index h.nodup
    exact ⟨h.byPoint ▸ hindex.byPoint, h.byDevice ▸ hindex.byDevice,
      h.byObject ▸ hindex.byObject⟩
  cases op with
  | onValue => exact nodup_lookup hindexed.byPoint _
  | onDeviceStatus => exact nodup_lookup hindexed.byDevice _
  | onBacnetEvent => exact nodup_lookup hindexed.byObject _
  | tick => exact h.nodup
  | load => exact List.nodup_nil
  | acknowledge => exact List.nodup_nil
  | restart => exact List.nodup_nil

/-- **An observation or a tick moves the standing of each rule it is about.** -/
theorem Located.standing_step (h : Located w.engine) {op : Op} (hop : op.isObservation = true)
    (env : Env) (rule : RuleId) :
    (step env w op).engine.standing rule = (w.engine.standing rule).map (Standing.next env op) := by
  rw [step_eq_forEach hop, (acts_turn hop env).standing_forEach w (h.nodup_targets op)]
  unfold AlarmEngine.standing
  cases hfind : w.engine.find? rule with
  | none =>
    rw [Option.map_none, Option.map_none, Option.map_none]
    split <;> rfl
  | some rt =>
    rw [Option.map_some, Option.map_some, Option.map_some, Standing.next]
    by_cases htarget : rule ∈ w.targets op
    · rw [if_pos htarget, if_pos ((h.mem_targets hfind op).mp htarget)]
    · rw [if_neg htarget, if_neg fun hc ↦ htarget ((h.mem_targets hfind op).mpr hc)]

end Targets

/-! ## Loading -/

/-- The condition of a rule on the database: what the device status says, or the stored value, with
the condition found before as the memory of the hysteresis. -/
def evaluation (env : Env) (record : RuleRecord) (previous : Bool) : Bool :=
  if record.kind = .commLost then
    match env.online record.deviceId with
    | some online => !online
    | none => previous
  else if record.kind ∈ valueKinds then
    match env.latest record.pointId with
    | some last =>
      (evaluateValue record.kind last.value record.threshold record.hysteresis previous).getD
        previous
    | none => previous
  else previous

theorem evaluation_of_not_evaluable {env : Env} {record : RuleRecord} (h : ¬ Evaluable env record)
    (previous : Bool) : evaluation env record previous = previous := by
  rw [Evaluable, not_or] at h
  obtain ⟨hvalue, hlost⟩ := h
  unfold evaluation
  split
  · rename_i hkind
    cases honline : env.online record.deviceId with
    | none => rfl
    | some online => exact absurd ⟨hkind, by rw [honline]; rfl⟩ hlost
  · split
    · rename_i hkind
      cases hlatest : env.latest record.pointId with
      | none => rfl
      | some last =>
        cases hlast : last.value with
        | none =>
          dsimp only
          rw [hlast]
          rfl
        | some value => exact absurd ⟨hkind, last, value, hlatest, hlast⟩ hvalue
    · rfl

namespace Standing

/-- `_restore`: the open alarm of the rule says whether its condition held. -/
def restored (env : Env) (s : Services) (record : RuleRecord) : Standing where
  record := record
  condition := (s.restoredState record.id).isActive
  lastValid := env.clock (.restore record.id)

/-- The instant of the last value, by the clock of the engine. -/
def validSince (env : Env) (st : Standing) : Instant :=
  ((env.latest st.record.pointId).map fun last ↦
    env.clock (.valid st.record.id) - max 0 (env.wall .initial - last.ts)).getD st.lastValid

/-- A turn of `_initial_evaluation`: values and devices offline are looked at. -/
def evaluateInitial (env : Env) (st : Standing) : Standing where
  record := st.record
  condition :=
    if st.record.kind ∈ valueKinds ∨ env.online st.record.deviceId = some false then
      evaluation env st.record st.condition
    else st.condition
  lastValid := st.validSince env

end Standing

theorem standing_restore (env : Env) (s : Services) (record : RuleRecord) :
    (restore env record (s.openEvents.find? fun e ↦ e.ruleId = record.id)).standing
      = .restored env s record := by
  rw [Standing.restored, Services.restoredState]
  cases s.openEvents.find? fun e ↦ e.ruleId = record.id with
  | none => rfl
  | some e => rfl

theorem acts_evaluateInitial (env : Env) :
    Acts (evaluateInitial env) (Standing.evaluateInitial env) := by
  refine acts_of_turn env (fun _ ↦ rfl) fun x ↦ ⟨_, rfl, ?_⟩
  have hvalid : ∀ instant, (x.runtime.validAt instant).condition = x.runtime.condition :=
    fun _ ↦ rfl
  have hlost : AlarmKind.commLost ∉ valueKinds := by decide
  unfold evaluateInitial
  dsimp only [Standing.evaluateInitial, RuleRuntime.standing]
  by_cases hkind : x.runtime.record.kind ∈ valueKinds
  · have hne : x.runtime.record.kind ≠ .commLost := fun h ↦ hlost (h ▸ hkind)
    rw [if_pos hkind, if_pos (.inl hkind), evaluation, if_neg hne, if_pos hkind]
    cases env.latest x.runtime.record.pointId with
    | none => exact .inl ⟨rfl, rfl⟩
    | some last =>
      dsimp only
      rw [hvalid]
      cases evaluateValue x.runtime.record.kind last.value x.runtime.record.threshold
          x.runtime.record.hysteresis x.runtime.condition with
      | none => exact .inl ⟨rfl, rfl⟩
      | some condition => exact .inr ⟨last.value, rfl⟩
  · rw [if_neg hkind]
    by_cases hcomm : x.runtime.record.kind = .commLost ∧
        env.online x.runtime.record.deviceId = some false
    · rw [if_pos hcomm, if_pos (.inr hcomm.2), evaluation, if_pos hcomm.1, hcomm.2]
      exact .inr ⟨none, rfl⟩
    · rw [if_neg hcomm]
      refine .inl ⟨rfl, ?_⟩
      split
      · rename_i honline
        rw [evaluation, if_neg fun h ↦ hcomm ⟨h, honline.resolve_left hkind⟩, if_neg hkind]
      · rfl

section Load

variable {env : Env} {w : AlarmSystem}

theorem closeOrphans_of_ok (hok : ∀ call, env.fails call = false) (orphans : List AlarmEvent)
    (s : Services) : (closeOrphans env orphans s).2 = none := by
  induction orphans generalizing s with
  | nil => rfl
  | cons e orphans ih =>
    rw [closeOrphans_cons (fun call _ ↦ hok call) (hok _)]
    exact ih _

/-- The rules of a load that the engine does not know. -/
def freshRules (env : Env) (w : AlarmSystem) : List RuleId :=
  (env.rules.val.map RuleRecord.id).filter fun rule ↦
    rule ∉ (w.engine.rules.map (refresh env.rules.val)).map fun rt ↦ rt.record.id

/-- The engine with its rules replaced, before they are evaluated. -/
def installed (env : Env) (w : AlarmSystem) : AlarmEngine :=
  .index (env.rules.val.map
    (runtimeOf env (w.engine.rules.map (refresh env.rules.val)) w.services.openEvents))

theorem ids_runtimeOf (env : Env) (known : List RuleRuntime) (events : List AlarmEvent)
    (records : List RuleRecord) :
    (records.map (runtimeOf env known events)).map (fun rt ↦ rt.record.id)
      = records.map RuleRecord.id := by
  rw [List.map_map]
  exact List.map_congr_left fun record _ ↦ record_id_runtimeOf env known events record

theorem load_of_ok (hok : ∀ call, env.fails call = false) (w : AlarmSystem) :
    load env w = (AlarmSystem.forEach (freshRules env w) (evaluateInitial env)
      ⟨installed env w, (closeOrphans env (orphansOf env w) w.services).1⟩, none) := by
  have hclose := closeOrphans_of_ok hok (orphansOf env w) w.services
  rw [load, hok, hok]
  simp only [Bool.false_eq_true, if_false]
  cases h : closeOrphans env (orphansOf env w) w.services with
  | mk s failure =>
    rw [h] at hclose
    subst hclose
    rw [orphansOf] at h
    rw [h]
    exact initialEvaluation_of_ok hok _ _

theorem ids_refresh (records : List RuleRecord) (rules : List RuleRuntime) :
    (rules.map (refresh records)).map (fun rt ↦ rt.record.id)
      = rules.map fun rt ↦ rt.record.id := by
  rw [List.map_map]
  exact List.map_congr_left fun rt _ ↦ record_id_refresh records rt

theorem mem_freshRules {rule : RuleId} : rule ∈ freshRules env w ↔
    rule ∈ env.rules.val.map RuleRecord.id ∧ w.engine.find? rule = none := by
  rw [freshRules, List.mem_filter, decide_eq_true_iff, ids_refresh]
  refine and_congr_right fun _ ↦ ?_
  rw [AlarmEngine.find?, List.find?_eq_none, List.mem_map]
  constructor
  · exact fun h rt hrt hid ↦ h ⟨rt, hrt, of_decide_eq_true hid⟩
  · rintro h ⟨rt, hrt, hid⟩
    exact h rt hrt (decide_eq_true hid)

theorem nodup_freshRules (env : Env) (w : AlarmSystem) : (freshRules env w).Nodup :=
  env.rules.property.sublist List.filter_sublist

/-- What a load installs for a rule: what it knows of it already, or the restored alarm. -/
def installedStanding (env : Env) (w : AlarmSystem) (record : RuleRecord) : Standing :=
  match w.engine.standing record.id with
  | some st => ⟨record, st.condition, st.lastValid⟩
  | none => .restored env w.services record

theorem find?_record {record : RuleRecord} (h : record ∈ env.rules.val) :
    (env.rules.val.find? fun r ↦ r.id = record.id) = some record := by
  cases hfind : env.rules.val.find? fun r ↦ r.id = record.id with
  | none => exact absurd (decide_eq_true rfl) (List.find?_eq_none.mp hfind record h)
  | some r =>
    have hid : r.id = record.id := by simpa using List.find?_some hfind
    rw [List.inj_on_of_nodup_map env.rules.property (List.mem_of_find?_eq_some hfind) h hid]

theorem find?_installed (env : Env) (w : AlarmSystem) (rule : RuleId) :
    (installed env w).find? rule = (env.rules.val.find? fun record ↦ record.id = rule).map
      (runtimeOf env (w.engine.rules.map (refresh env.rules.val)) w.services.openEvents) := by
  rw [installed, AlarmEngine.index, AlarmEngine.find?, List.find?_map]
  congr 2
  funext record
  rw [Function.comp_apply, record_id_runtimeOf]

theorem find?_known (env : Env) (w : AlarmSystem) (rule : RuleId) :
    ((w.engine.rules.map (refresh env.rules.val)).find? fun rt ↦ rt.record.id = rule)
      = (w.engine.find? rule).map (refresh env.rules.val) := by
  rw [List.find?_map, AlarmEngine.find?]
  congr 2
  funext rt
  rw [Function.comp_apply, record_id_refresh]

theorem standing_runtimeOf {record : RuleRecord} (h : record ∈ env.rules.val) :
    (runtimeOf env (w.engine.rules.map (refresh env.rules.val)) w.services.openEvents
      record).standing = installedStanding env w record := by
  rw [runtimeOf, installedStanding, AlarmEngine.standing, find?_known]
  cases hknown : w.engine.find? record.id with
  | none => exact standing_restore env w.services record
  | some rt =>
    obtain ⟨-, hid⟩ := AlarmEngine.find?_eq_some hknown
    dsimp only [Option.map_some]
    rw [refresh, hid, find?_record h]
    rfl

theorem standing_installed (env : Env) (w : AlarmSystem) (rule : RuleId) :
    (installed env w).standing rule
      = (env.rules.val.find? fun record ↦ record.id = rule).map (installedStanding env w) := by
  rw [AlarmEngine.standing, find?_installed, Option.map_map]
  cases h : env.rules.val.find? fun record ↦ record.id = rule with
  | none => rfl
  | some record =>
    rw [Option.map_some, Option.map_some, Function.comp_apply,
      standing_runtimeOf (List.mem_of_find?_eq_some h)]

/-- What a load leaves of a rule: the condition it knows, or an initial evaluation. -/
def loadedStanding (env : Env) (w : AlarmSystem) (record : RuleRecord) : Standing :=
  match w.engine.standing record.id with
  | some st => ⟨record, st.condition, st.lastValid⟩
  | none => (Standing.restored env w.services record).evaluateInitial env

/-- **The standing of the rules after a load.** -/
theorem standing_load (hok : ∀ call, env.fails call = false) (w : AlarmSystem) (rule : RuleId) :
    (load env w).1.engine.standing rule
      = (env.rules.val.find? fun record ↦ record.id = rule).map (loadedStanding env w) := by
  rw [load_of_ok hok, (acts_evaluateInitial env).standing_forEach _ (nodup_freshRules env w)]
  dsimp only
  rw [standing_installed]
  cases h : env.rules.val.find? fun record ↦ record.id = rule with
  | none =>
    rw [Option.map_none, Option.map_none, Option.map_none]
    split <;> rfl
  | some record =>
    have hid : record.id = rule := by simpa using List.find?_some h
    have hrule : rule ∈ env.rules.val.map RuleRecord.id :=
      hid ▸ List.mem_map_of_mem (List.mem_of_find?_eq_some h)
    rw [Option.map_some, Option.map_some, Option.map_some, loadedStanding, installedStanding,
      AlarmEngine.standing, hid]
    cases hknown : w.engine.find? rule with
    | none =>
      rw [if_pos (mem_freshRules.mpr ⟨hrule, hknown⟩)]
      rfl
    | some rt =>
      rw [if_neg fun hfresh ↦ ?_]
      · rfl
      · rw [(mem_freshRules.mp hfresh).2] at hknown
        cases hknown

end Load

/-! ## The indexes stay those of the rules -/

section Located

variable {e e' : AlarmEngine} {w : AlarmSystem}

theorem index_congr {rules rules' : List RuleRuntime}
    (h : rules'.map RuleRuntime.record = rules.map RuleRuntime.record) :
    (AlarmEngine.index rules').byPoint = (AlarmEngine.index rules).byPoint ∧
      (AlarmEngine.index rules').byDevice = (AlarmEngine.index rules).byDevice ∧
      (AlarmEngine.index rules').byObject = (AlarmEngine.index rules).byObject := by
  have hpoint : ∀ l : List RuleRuntime, (AlarmEngine.index l).byPoint
      = (l.map RuleRuntime.record).map fun r ↦ (r.pointId, r.id) := fun l ↦ by
    rw [List.map_map]
    rfl
  have hdevice : ∀ l : List RuleRuntime, (AlarmEngine.index l).byDevice
      = ((l.map RuleRuntime.record).filter fun r ↦ r.kind = .commLost).map
        fun r ↦ (r.deviceId, r.id) := fun l ↦ by
    rw [List.filter_map, List.map_map]
    rfl
  have hobject : ∀ l : List RuleRuntime, (AlarmEngine.index l).byObject
      = ((l.map RuleRuntime.record).filter fun r ↦ r.kind = .bacnetEvent).map
        fun r ↦ ((r.deviceInstance, r.objectType, r.objectInstance), r.id) := fun l ↦ by
    rw [List.filter_map, List.map_map]
    rfl
  rw [hpoint, hdevice, hobject, hpoint, hdevice, hobject, h]
  exact ⟨rfl, rfl, rfl⟩

theorem Located.set (h : Located e) {rt x : RuleRuntime} (hrt : rt ∈ e.rules)
    (hrecord : x.record = rt.record) : Located (e.set x) := by
  obtain ⟨hpoint, hdevice, hobject⟩ := index_congr (AlarmEngine.records_set hrt h.nodup hrecord)
  refine ⟨?_, ?_, ?_, ?_⟩
  · rw [AlarmEngine.ids_set]
    exact h.nodup
  · exact h.byPoint.trans hpoint.symm
  · exact h.byDevice.trans hdevice.symm
  · exact h.byObject.trans hobject.symm

theorem located_index {rules : List RuleRuntime}
    (h : (rules.map fun rt ↦ rt.record.id).Nodup) : Located (.index rules) :=
  ⟨h, rfl, rfl, rfl⟩

theorem Located.forEach (h : Located w.engine) {body : Scope → Scope} {f : Standing → Standing}
    (hbody : Acts body f) (rules : List RuleId) : Located (w.forEach rules body).engine := by
  induction rules generalizing w with
  | nil => exact h
  | cons rule rules ih =>
    refine ih (w := w.visit body rule) ?_
    cases hfind : w.engine.find? rule with
    | none => rwa [AlarmSystem.visit_of_find?_eq_none body hfind]
    | some rt =>
      rw [AlarmSystem.visit_of_find?_eq_some body hfind]
      exact h.set (AlarmEngine.find?_eq_some hfind).1 (hbody.record_id ⟨rt, w.services⟩)

theorem located_load {env : Env} (hok : ∀ call, env.fails call = false) (w : AlarmSystem) :
    Located (load env w).1.engine := by
  rw [load_of_ok hok]
  refine Located.forEach (located_index ?_) (acts_evaluateInitial env) _
  rw [ids_runtimeOf]
  exact env.rules.property

theorem acknowledge_standing (env : Env) (eventId : EventId) (user : UserId) (w : AlarmSystem) :
    (acknowledge env eventId user w).1.engine = w.engine ∨
      ∃ rt ∈ w.engine.rules, ∃ x : RuleRuntime, x.standing = rt.standing ∧
        (acknowledge env eventId user w).1.engine = w.engine.set x := by
  unfold acknowledge
  split
  · exact .inl rfl
  · rename_i rt hfind
    have hmem : rt ∈ w.engine.rules := List.mem_of_find?_eq_some hfind
    rcases rt.machine.acknowledge_cases with hack | ⟨t, hack, -, -, -⟩
    · rw [hack]
      exact .inl rfl
    · rw [hack]
      dsimp only
      -- the login is read before anything is written
      have hsaid : ∀ x, (EState.after (persistAck env t user) x).runtime.standing
          = x.runtime.standing := by
        intro x
        cases hlogin : env.fails .userLogin with
        | true => simp [EState.after, persistAck, hlogin]
        | false =>
          have h := (said_persist env t (some (textOr (env.login user) (toString user))) x).standing
          simpa [EState.after, persistAck, hlogin] using h
      have hpersisted := hsaid ⟨{ rt with machine := { rt.machine with state := t.toState } },
        w.services⟩
      rw [EState.after] at hpersisted
      right
      split
      · rename_i x hp
        rw [hp] at hpersisted
        exact ⟨rt, hmem, x.runtime, hpersisted, rfl⟩
      · rename_i f x hp
        rw [hp] at hpersisted
        exact ⟨rt, hmem, x.runtime.setState t.fromState, hpersisted, rfl⟩

theorem AlarmEngine.find?_of_mem (h : (e.rules.map fun rt ↦ rt.record.id).Nodup)
    {rt : RuleRuntime} (hrt : rt ∈ e.rules) : e.find? rt.record.id = some rt := by
  cases hfind : e.find? rt.record.id with
  | none => exact absurd (decide_eq_true rfl) (List.find?_eq_none.mp hfind rt hrt)
  | some y =>
    obtain ⟨hy, hid⟩ := AlarmEngine.find?_eq_some hfind
    rw [List.inj_on_of_nodup_map h hy hrt hid]

theorem Located.acknowledge (h : Located w.engine) (env : Env) (eventId : EventId)
    (user : UserId) : Located (acknowledge env eventId user w).1.engine ∧
      ∀ rule, (acknowledge env eventId user w).1.engine.standing rule
        = w.engine.standing rule := by
  rcases acknowledge_standing env eventId user w with heq | ⟨rt, hrt, x, hx, heq⟩
  · rw [heq]
    exact ⟨h, fun _ ↦ rfl⟩
  · have hrecord : x.record = rt.record := congrArg Standing.record hx
    rw [heq]
    refine ⟨h.set hrt hrecord, fun rule ↦ ?_⟩
    by_cases hrule : x.record.id = rule
    · have hfind : w.engine.find? rule = some rt := by
        rw [← hrule, hrecord]
        exact AlarmEngine.find?_of_mem h.nodup hrt
      rw [AlarmEngine.standing, AlarmEngine.find?_set_self hfind hrule, AlarmEngine.standing,
        hfind, Option.map_some, Option.map_some, hx]
    · rw [AlarmEngine.standing, AlarmEngine.find?_set_of_ne hrule, AlarmEngine.standing]

end Located

end Superviseur
