import Superviseur.Alarms.FailedReload
import Superviseur.Alarms.Hysteresis

/-!
# The age of a value across restarts

A `stale` rule measures the time since the last value of its point by a clock of the process. While
the engine runs, a reading without a value does not count. When it starts, it takes the instant of
the last stored row of the point instead, whatever that row holds. The main result follows the
readings of a point, the table of last values and any number of engines, one after the other: the
age is never too small if each engine that starts finds a row with a value, or one that is no later
than the last value.

The clocks do not move during an operation. A process reads the monotonic clock, which is the wall
clock less a constant of its own.
-/

namespace Superviseur

/-! ## The history of a point -/

/-- A point seen from the engine: its last row in the table, the last reading still in the buffer of
the recorder, and the instant at which the last reading with a value has arrived. -/
structure Timeline where
  system : AlarmSystem
  /-- The wall clock less the clock of the engine. -/
  base : Instant
  now : Instant
  since : Option Instant
  pending : Option LatestValue
  row : Option LatestValue

/-- What happens to the point or to the engine. -/
inductive Happening where
  /-- A reading of a point; the message to the engine may be lost. -/
  | reading (point : PointId) (r : LatestValue) (delivered : Bool)
  | flush
  | operation (op : Op)
  | restart (base : Instant)

structure Occurrence where
  now : Instant
  env : Env
  what : Happening

/-- The operation of the engine, if any. -/
def Happening.op : Happening → Option Op
  | reading point r delivered => if delivered then some (.onValue point r.value) else none
  | flush => none
  | operation op => some op
  | restart _ => some .restart

/-- What an occurrence makes of the point. -/
def Timeline.next (point : PointId) (s : Timeline) (i : Occurrence) : Timeline where
  system := match i.what.op with
    | none => s.system
    | some op => step i.env s.system op
  base := match i.what with
    | .restart base => base
    | _ => s.base
  now := i.now
  since := match i.what with
    | .reading point' r _ => if point' = point ∧ r.value.isSome then some i.now else s.since
    | _ => s.since
  pending := match i.what with
    | .reading point' r _ => if point' = point then some r else s.pending
    | .flush => none
    | _ => s.pending
  row := match i.what with
    | .flush => s.pending.or s.row
    | _ => s.row

/-- An occurrence in the life of the rule `record`. A load reads the table of last values, and the
definition of the rule where it is enabled. -/
structure Occurs (record : RuleRecord) (s : Timeline) (i : Occurrence) (t : Timeline) : Prop where
  next : t = s.next record.pointId i
  later : s.now ≤ i.now
  clock : ∀ read, i.env.clock read = i.now - s.base
  wall : ∀ read, i.env.wall read = i.now
  reading : ∀ point r delivered, i.what = .reading point r delivered → r.ts ≤ i.now
  operation : ∀ op, i.what = .operation op →
    op ≠ .restart ∧ ∀ point value, op ≠ .onValue point value
  latest : i.what = .operation .load → i.env.latest record.pointId = s.row
  rules : i.what = .operation .load → ∀ r ∈ i.env.rules.val, r.id = record.id → r = record

/-- Nothing is loaded, and nothing has been read yet. -/
structure Timeline.Starts (s : Timeline) : Prop where
  engine : s.system.engine = .empty
  since : s.since = none
  pending : s.pending = none
  row : s.row = none

/-- The load installs the rule as a new one. -/
structure Restores (env : Env) (w : AlarmSystem) (rule : RuleId) : Prop where
  fresh : rule ∈ freshRules env w
  rules : env.fails .loadRules = false
  events : env.fails .openEvents = false
  orphans : ∀ e ∈ orphansOf env w,
    env.fails (.updateEvent e.ruleId) = false ∧ env.fails (.publish e.ruleId) = false

/-- A load that installs the rule once a value has arrived finds a row with a value, or one that is
no later than the last value. -/
def Anchored (record : RuleRecord) (s : Timeline) (i : Occurrence) : Prop :=
  i.what = .operation .load → Restores i.env s.system record.id → ∀ since, s.since = some since →
    i.env.fails .latestValues = false ∧ i.env.fails .devicesOnline = false ∧
      ∃ row, s.row = some row ∧ (row.value.isSome = true ∨ row.ts ≤ since)

/-! ## What is known of the rule -/

/-- The rule is where its record says. -/
structure Placed (record : RuleRecord) (e : AlarmEngine) : Prop where
  nodup : (e.rules.map fun rt ↦ rt.record.id).Nodup
  indexed : Indexed e
  definition : ∀ st, e.standing record.id = some st → st.record = record
  point : ∀ p, (p, record.id) ∈ e.byPoint → p = record.pointId

section Placed

variable {record : RuleRecord} {w : AlarmSystem} {env : Env} {op : Op}

theorem Placed.nodup_targets (h : Placed record w.engine) (op : Op) : (w.targets op).Nodup := by
  cases op with
  | onValue => exact nodup_lookup h.indexed.byPoint _
  | onDeviceStatus => exact nodup_lookup h.indexed.byDevice _
  | onBacnetEvent => exact nodup_lookup h.indexed.byObject _
  | tick => exact h.nodup
  | load | acknowledge | restart => exact List.nodup_nil

theorem Placed.standing_observe (h : Placed record w.engine) (hop : op.isObservation = true)
    (env : Env) (rule : RuleId) :
    (step env w op).engine.standing rule
      = if rule ∈ w.targets op then (w.engine.standing rule).map (Standing.observe env op)
        else w.engine.standing rule := by
  rw [step_eq_forEach hop]
  exact (acts_turn hop env).standing_forEach w (h.nodup_targets op) rule

theorem ids_forEach {body : Scope → Scope} (rules : List RuleId) :
    ((w.forEach rules body).engine.rules.map fun rt ↦ rt.record.id)
      = w.engine.rules.map fun rt ↦ rt.record.id := by
  induction rules generalizing w with
  | nil => rfl
  | cons rule rules ih =>
    refine (ih (w := w.visit body rule)).trans ?_
    cases hfind : w.engine.find? rule with
    | none => rw [AlarmSystem.visit_of_find?_eq_none body hfind]
    | some rt =>
      rw [AlarmSystem.visit_of_find?_eq_some body hfind]
      exact AlarmEngine.ids_set w.engine _

theorem byPoint_forEach {body : Scope → Scope} (rules : List RuleId) :
    (w.forEach rules body).engine.byPoint = w.engine.byPoint := by
  induction rules generalizing w with
  | nil => rfl
  | cons rule rules ih =>
    refine (ih (w := w.visit body rule)).trans ?_
    cases hfind : w.engine.find? rule with
    | none => rw [AlarmSystem.visit_of_find?_eq_none body hfind]
    | some rt =>
      rw [AlarmSystem.visit_of_find?_eq_some body hfind]
      rfl

/-- A load restores a rule at the instant of the last row of its point, where it evaluates it. -/
theorem lastValid_load (env : Env) (w : AlarmSystem) {record : RuleRecord}
    (hrules : ∀ r ∈ env.rules.val, r.id = record.id → r = record) {st : Standing}
    (hst : (load env w).1.engine.standing record.id = some st)
    (hplaced : ∀ st, w.engine.standing record.id = some st → st.record = record) :
    st.record = record ∧
      ((∃ st₀, w.engine.standing record.id = some st₀ ∧ st.lastValid = st₀.lastValid) ∨
        (Restores env w record.id ∧
          ((env.fails .latestValues = true ∨ env.fails .devicesOnline = true) ∧
              st.lastValid = env.clock (.restore record.id) ∨
            st.lastValid = (Standing.restored env w.services record).validSince env))) := by
  have hfound : ∀ r, (env.rules.val.find? fun r ↦ r.id = record.id) = some r → r = record :=
    fun r hr ↦ hrules r (List.mem_of_find?_eq_some hr) (by simpa using List.find?_some hr)
  -- what is installed: the standing known, or that of a rule restored
  have hinstalled : ∀ st, (installed env w).standing record.id = some st → st.record = record ∧
      ((∃ st₀, w.engine.standing record.id = some st₀ ∧ st.lastValid = st₀.lastValid) ∨
        (record.id ∈ freshRules env w ∧ st = .restored env w.services record)) := by
    intro st hst
    rw [standing_installed] at hst
    obtain ⟨r, hr, rfl⟩ := Option.map_eq_some_iff.mp hst
    have hmem := List.mem_of_find?_eq_some hr
    obtain rfl := hfound r hr
    rw [installedStanding]
    cases hknown : w.engine.standing r.id with
    | some st₀ => exact ⟨rfl, .inl ⟨st₀, rfl, rfl⟩⟩
    | none =>
      refine ⟨rfl, .inr ⟨mem_freshRules.mpr ⟨List.mem_map_of_mem hmem, ?_⟩, rfl⟩⟩
      rwa [AlarmEngine.standing, Option.map_eq_none_iff] at hknown
  have hrestores : env.fails .loadRules = false → env.fails .openEvents = false →
      (closing env w).2 = none → record.id ∈ freshRules env w → Restores env w record.id :=
    fun h₁ h₂ h₃ hfresh ↦ ⟨hfresh, h₁, h₂, closeOrphans_eq_none_iff.mp h₃⟩
  have hloads := loads_load env w
  generalize (load env w).1 = w' at hst hloads
  generalize (load env w).2 = failure at hloads
  rcases hloads with _ | ⟨hrules', hevents, _⟩ | ⟨hrules', hevents, hclose, hfails⟩ |
    ⟨hrules', hevents, hclose⟩
  · exact ⟨hplaced st hst, .inl ⟨st, hst, rfl⟩⟩
  · have hfind : (refreshed env w).standing record.id
        = (w.engine.find? record.id).map (RuleRuntime.standing ∘ refresh env.rules.val) := by
      rw [AlarmEngine.standing, AlarmEngine.find?, refreshed, find?_known, Option.map_map]
    rw [hfind] at hst
    obtain ⟨rt, hrt, rfl⟩ := Option.map_eq_some_iff.mp hst
    obtain ⟨-, hid⟩ := AlarmEngine.find?_eq_some hrt
    have hknown : w.engine.standing record.id = some rt.standing := by
      rw [AlarmEngine.standing, hrt, Option.map_some]
    rw [Function.comp_apply, refresh, hid]
    cases hr : env.rules.val.find? fun r ↦ r.id = record.id with
    | none => exact ⟨hplaced _ hknown, .inl ⟨_, hknown, rfl⟩⟩
    | some r => exact ⟨hfound r hr, .inl ⟨_, hknown, rfl⟩⟩
  · obtain ⟨hrecord, hknown | ⟨hfresh, rfl⟩⟩ := hinstalled st hst
    · exact ⟨hrecord, .inl hknown⟩
    · exact ⟨hrecord, .inr ⟨hrestores hrules' hevents hclose hfresh, .inl ⟨hfails, rfl⟩⟩⟩
  · rw [(acts_evaluateInitial env).standing_forEach _ (nodup_freshRules env w)] at hst
    by_cases hfresh : record.id ∈ freshRules env w
    · rw [if_pos hfresh] at hst
      obtain ⟨st', hst', rfl⟩ := Option.map_eq_some_iff.mp hst
      obtain ⟨hrecord, ⟨st₀, hst₀, -⟩ | ⟨-, rfl⟩⟩ := hinstalled st' hst'
      · have hnone := (mem_freshRules.mp hfresh).2
        rw [AlarmEngine.standing, hnone] at hst₀
        cases hst₀
      · exact ⟨rfl, .inr ⟨hrestores hrules' hevents hclose hfresh, .inr rfl⟩⟩
    · rw [if_neg hfresh] at hst
      obtain ⟨hrecord, hknown | ⟨hfresh', -⟩⟩ := hinstalled st hst
      · exact ⟨hrecord, .inl hknown⟩
      · exact absurd hfresh' hfresh

theorem point_installed (hrules : ∀ r ∈ env.rules.val, r.id = record.id → r = record)
    {p : PointId} (hp : (p, record.id) ∈ (installed env w).byPoint) : p = record.pointId := by
  obtain ⟨rt, hrt, heq⟩ := List.mem_map.mp hp
  obtain ⟨r, hr, rfl⟩ := List.mem_map.mp hrt
  rw [Prod.mk.injEq, record_id_runtimeOf] at heq
  obtain rfl := hrules r hr heq.2
  have hrecord := congrArg Standing.record (standing_runtimeOf (w := w) hr)
  have hinstalled : (installedStanding env w r).record = r := by
    rw [installedStanding]
    split <;> rfl
  rw [← heq.1]
  exact congrArg RuleRecord.pointId (hrecord.trans hinstalled)

theorem Placed.load (h : Placed record w.engine)
    (hrules : ∀ r ∈ env.rules.val, r.id = record.id → r = record) :
    Placed record (load env w).1.engine := by
  have hdefinition : ∀ st, (Superviseur.load env w).1.engine.standing record.id = some st →
      st.record = record := fun _ hst ↦ (lastValid_load env w hrules hst h.definition).1
  have hindexed : Indexed (Superviseur.load env w).1.engine := indexed_load h.indexed
  have hids : ((installed env w).rules.map fun rt ↦ rt.record.id).Nodup := by
    rw [installed, AlarmEngine.index, ids_runtimeOf]
    exact env.rules.property
  have hloads := loads_load env w
  refine ⟨?_, hindexed, hdefinition, ?_⟩
  · generalize (Superviseur.load env w).1 = w' at hloads ⊢
    generalize (Superviseur.load env w).2 = failure at hloads
    rcases hloads with _ | _ | _ | _
    · exact h.nodup
    · rw [refreshed, ids_refresh]
      exact h.nodup
    · exact hids
    · rw [ids_forEach]
      exact hids
  · generalize (Superviseur.load env w).1 = w' at hloads ⊢
    generalize (Superviseur.load env w).2 = failure at hloads
    rcases hloads with _ | _ | _ | _
    · exact h.point
    · exact h.point
    · exact fun p ↦ point_installed hrules
    · rw [byPoint_forEach]
      exact fun p ↦ point_installed hrules

theorem Placed.acknowledge (h : Placed record w.engine) (env : Env) (eventId : EventId)
    (user : UserId) : Placed record (acknowledge env eventId user w).1.engine ∧
      ∀ rule, (Superviseur.acknowledge env eventId user w).1.engine.standing rule
        = w.engine.standing rule := by
  have hindexed : Indexed (Superviseur.acknowledge env eventId user w).1.engine :=
    indexed_acknowledge h.indexed eventId user
  rcases acknowledge_standing env eventId user w with heq | ⟨rt, hrt, x, hx, heq⟩
  · rw [heq]
    exact ⟨h, fun _ ↦ rfl⟩
  · rw [heq] at hindexed ⊢
    have hrecord : x.record = rt.record := congrArg Standing.record hx
    have hstanding : ∀ rule, (w.engine.set x).standing rule = w.engine.standing rule := by
      intro rule
      by_cases hrule : x.record.id = rule
      · have hfind : w.engine.find? rule = some rt := by
          rw [← hrule, hrecord]
          exact AlarmEngine.find?_of_mem h.nodup hrt
        rw [AlarmEngine.standing, AlarmEngine.find?_set_self hfind hrule, AlarmEngine.standing,
          hfind, Option.map_some, Option.map_some, hx]
      · rw [AlarmEngine.standing, AlarmEngine.find?_set_of_ne hrule, AlarmEngine.standing]
    refine ⟨⟨?_, hindexed, ?_, h.point⟩, hstanding⟩
    · rw [AlarmEngine.ids_set]
      exact h.nodup
    · rw [hstanding]
      exact h.definition

/-- **An operation leaves the rule where its record says.** -/
theorem Placed.step (h : Placed record w.engine)
    (hrules : op = .load → ∀ r ∈ env.rules.val, r.id = record.id → r = record) :
    Placed record (step env w op).engine := by
  have hobservation : op.isObservation = true →
      Placed record (Superviseur.step env w op).engine := by
    intro hop
    have hstep := step_eq_forEach hop env w
    refine ⟨?_, indexed_step h.indexed op, fun st hst ↦ ?_, fun p hp ↦ h.point p ?_⟩
    · rw [hstep, ids_forEach]
      exact h.nodup
    · rw [h.standing_observe hop] at hst
      split at hst
      · obtain ⟨st₀, hst₀, rfl⟩ := Option.map_eq_some_iff.mp hst
        rw [Standing.record_observe]
        exact h.definition st₀ hst₀
      · exact h.definition st hst
    · rwa [hstep, byPoint_forEach] at hp
  cases op with
  | load => exact h.load (hrules rfl)
  | acknowledge eventId user => exact (h.acknowledge env eventId user).1
  | restart =>
    have hempty : Indexed .empty := ⟨List.nodup_nil, List.nodup_nil, List.nodup_nil⟩
    refine ⟨List.nodup_nil, hempty, fun st hst ↦ ?_, fun p hp ↦ ?_⟩
    · cases hst
    · cases hp
  | onValue | onDeviceStatus | onBacnetEvent | tick => exact hobservation rfl

end Placed

/-! ## The invariant -/

/-- The last value the engine knows of is no later than the last one that has arrived. -/
structure Covered (record : RuleRecord) (s : Timeline) : Prop where
  placed : Placed record s.system.engine
  since_le : ∀ v, s.since = some v → v ≤ s.now
  valued : ∀ r, s.pending = some r ∨ s.row = some r → r.value.isSome = true →
    ∃ v, s.since = some v ∧ r.ts ≤ v
  recent : ∀ st, s.system.engine.standing record.id = some st → st.lastValid + s.base ≤ s.now
  age : ∀ st, s.system.engine.standing record.id = some st → ∀ v, s.since = some v →
    st.lastValid + s.base ≤ v

section Covered

variable {record : RuleRecord} {s t : Timeline} {i : Occurrence}

theorem Timeline.Starts.isCovered (h : s.Starts) (record : RuleRecord) : Covered record s := by
  have hnone : s.system.engine.standing record.id = none := by
    rw [h.engine]
    rfl
  have hindexed : Indexed .empty := ⟨List.nodup_nil, List.nodup_nil, List.nodup_nil⟩
  refine ⟨?_, ?_, ?_, ?_, ?_⟩
  · rw [h.engine]
    refine ⟨List.nodup_nil, hindexed, fun st hst ↦ ?_, fun p hp ↦ ?_⟩
    · cases hst
    · cases hp
  · intro v hv
    rw [h.since] at hv
    cases hv
  · rintro r (hr | hr)
    · rw [h.pending] at hr
      cases hr
    · rw [h.row] at hr
      cases hr
  · intro st hst
    rw [hnone] at hst
    cases hst
  · intro st hst
    rw [hnone] at hst
    cases hst

/-- The last value that has arrived is the one before, or has just arrived. -/
theorem since_next (h : Occurs record s i t) {v : Instant} (hv : t.since = some v) :
    s.since = some v ∨ v = t.now := by
  rw [h.next, Timeline.next] at hv ⊢
  dsimp only at hv ⊢
  split at hv
  · split at hv
    · exact .inr (Option.some.inj hv).symm
    · exact .inl hv
  · exact .inl hv

/-- Where the engine learns of no value, it keeps an instant that is early enough. -/
theorem Covered.kept (h : Covered record s) (hocc : Occurs record s i t) (hbase : t.base = s.base)
    {st st₀ : Standing} (hst₀ : s.system.engine.standing record.id = some st₀)
    (hvalid : st.lastValid = st₀.lastValid) :
    st.lastValid + t.base ≤ t.now ∧ ∀ v, t.since = some v → st.lastValid + t.base ≤ v := by
  have hnow : s.now ≤ t.now := by
    rw [hocc.next]
    exact hocc.later
  have hrecent := (h.recent st₀ hst₀).trans hnow
  rw [hvalid, hbase]
  refine ⟨hrecent, fun v hv ↦ ?_⟩
  rcases since_next hocc hv with hsame | rfl
  · exact h.age st₀ hst₀ v hsame
  · exact hrecent

/-- A load that restores the rule takes an instant that is early enough, if it is anchored. -/
theorem Covered.restored (h : Covered record s) (hocc : Occurs record s i t)
    (hanchored : Anchored record s i) (hload : i.what = .operation .load)
    (hrestores : Restores i.env s.system record.id) {st : Standing}
    (hvalid : (i.env.fails .latestValues = true ∨ i.env.fails .devicesOnline = true) ∧
        st.lastValid = i.env.clock (.restore record.id) ∨
      st.lastValid = (Standing.restored i.env s.system.services record).validSince i.env) :
    st.lastValid + t.base ≤ t.now ∧ ∀ v, t.since = some v → st.lastValid + t.base ≤ v := by
  have ht : t.base = s.base ∧ t.now = i.now ∧ t.since = s.since := by
    rw [hocc.next, Timeline.next, hload]
    exact ⟨rfl, rfl, rfl⟩
  rw [ht.1, ht.2.1, ht.2.2]
  rcases hvalid with ⟨hfails, hvalid⟩ | hvalid
  · rw [hvalid, hocc.clock, sub_add_cancel]
    refine ⟨le_rfl, fun v hv ↦ ?_⟩
    obtain ⟨hlatest, honline, -⟩ := hanchored hload hrestores v hv
    rw [hlatest, honline] at hfails
    rcases hfails with hfails | hfails <;> cases hfails
  · have hsince : st.lastValid = (s.row.map fun last ↦
        i.now - s.base - max 0 (i.now - last.ts)).getD (i.now - s.base) := by
      rw [hvalid, Standing.validSince, hocc.wall]
      simp only [Standing.restored, hocc.clock, hocc.latest hload]
    rw [hsince]
    refine ⟨?_, fun v hv ↦ ?_⟩
    · cases s.row with
      | none => exact le_of_eq (sub_add_cancel _ _)
      | some row =>
        have hmax := le_max_left 0 (i.now - row.ts)
        dsimp only [Option.map_some, Option.getD_some]
        linarith
    · obtain ⟨-, -, row, hrow, hvalued⟩ := hanchored hload hrestores v hv
      have hle : row.ts ≤ v := by
        rcases hvalued with hvalued | hle
        · obtain ⟨v', hv', hle⟩ := h.valued row (.inr hrow) hvalued
          rw [hv, Option.some.injEq] at hv'
          rwa [hv']
        · exact hle
      have hmax := le_max_right 0 (i.now - row.ts)
      rw [hrow, Option.map_some, Option.getD_some]
      linarith

/-- What has been read stays covered by the instant of the last value. -/
theorem Covered.valued_next (h : Covered record s) (hocc : Occurs record s i t) (r : LatestValue)
    (hr : t.pending = some r ∨ t.row = some r) (hvalued : r.value.isSome = true) :
    ∃ v, t.since = some v ∧ r.ts ≤ v := by
  -- a reading kept from before
  have hold : (s.pending = some r ∨ s.row = some r) → ∃ v, t.since = some v ∧ r.ts ≤ v := by
    intro hr
    obtain ⟨v, hv, hle⟩ := h.valued r hr hvalued
    have hnow := (h.since_le v hv).trans hocc.later
    rw [hocc.next, Timeline.next]
    dsimp only
    split
    · split
      · exact ⟨i.now, rfl, hle.trans hnow⟩
      · exact ⟨v, hv, hle⟩
    · exact ⟨v, hv, hle⟩
  rw [hocc.next, Timeline.next] at hr
  obtain ⟨now, env, what⟩ := i
  cases what with
  | reading point r' delivered =>
    dsimp only at hr
    split at hr
    · rename_i hpoint
      rcases hr with hr | hr
      · obtain rfl := Option.some.inj hr
        refine ⟨now, ?_, hocc.reading point r' delivered rfl⟩
        rw [hocc.next, Timeline.next]
        exact if_pos ⟨hpoint, hvalued⟩
      · exact hold (.inr hr)
    · exact hold hr
  | flush =>
    rcases hr with hr | hr
    · cases hr
    · rcases Option.or_eq_some_iff.mp hr with hr | ⟨-, hr⟩
      · exact hold (.inl hr)
      · exact hold (.inr hr)
  | operation op => exact hold hr
  | restart base => exact hold hr

theorem Covered.standing_next (h : Covered record s) (hocc : Occurs record s i t)
    (hanchored : Anchored record s i) {st : Standing}
    (hst : t.system.engine.standing record.id = some st) :
    st.lastValid + t.base ≤ t.now ∧ ∀ v, t.since = some v → st.lastValid + t.base ≤ v := by
  obtain ⟨now, env, what⟩ := i
  have hnext := hocc.next
  cases what with
  | reading point r delivered =>
    have hbase : t.base = s.base := by rw [hnext]; rfl
    cases delivered with
    | false =>
      rw [hnext] at hst
      exact h.kept hocc hbase hst rfl
    | true =>
      have hengine : t.system.engine
          = (step env s.system (.onValue point r.value)).engine := by rw [hnext]; rfl
      rw [hengine, h.placed.standing_observe rfl] at hst
      split at hst
      · rename_i htarget
        obtain ⟨st₀, hst₀, rfl⟩ := Option.map_eq_some_iff.mp hst
        cases hvalue : r.value with
        | none => exact h.kept hocc hbase hst₀ rfl
        | some value =>
          -- the engine has seen the value that has just arrived
          have hpoint := h.placed.point point (mem_lookup.mp htarget)
          have hsince : t.since = some now := by
            rw [hnext]
            exact if_pos ⟨hpoint, by rw [hvalue]; rfl⟩
          have hvalid : (st₀.observe env (.onValue point (some value))).lastValid + t.base
              = now := by
            rw [hbase, Standing.observe, Option.map_some, Option.getD_some, hocc.clock]
            exact sub_add_cancel now s.base
          have hnow : t.now = now := by rw [hnext]; rfl
          rw [hvalid, hnow, hsince]
          exact ⟨le_rfl, fun v hv ↦ (Option.some.inj hv).le⟩
      · exact h.kept hocc hbase hst rfl
  | flush =>
    rw [hnext] at hst
    exact h.kept hocc (by rw [hnext]; rfl) hst rfl
  | operation op =>
    have hbase : t.base = s.base := by rw [hnext]; rfl
    have hengine : t.system.engine = (step env s.system op).engine := by rw [hnext]; rfl
    obtain ⟨hrestart, hvalue⟩ := hocc.operation op rfl
    -- an operation that brings no value
    have hobserve : op.isObservation = true →
        (∀ st : Standing, (st.observe env op).lastValid = st.lastValid) →
        st.lastValid + t.base ≤ t.now ∧ ∀ v, t.since = some v → st.lastValid + t.base ≤ v := by
      intro hop hvalid
      rw [hengine, h.placed.standing_observe hop] at hst
      split at hst
      · obtain ⟨st₀, hst₀, rfl⟩ := Option.map_eq_some_iff.mp hst
        exact h.kept hocc hbase hst₀ (hvalid st₀)
      · exact h.kept hocc hbase hst rfl
    cases op with
    | onValue point value => exact absurd rfl (hvalue point value)
    | restart => exact absurd rfl hrestart
    | onDeviceStatus | onBacnetEvent | tick => exact hobserve rfl fun _ ↦ rfl
    | acknowledge eventId user =>
      rw [hengine] at hst
      exact h.kept hocc hbase (((h.placed.acknowledge env eventId user).2 _).symm.trans hst) rfl
    | load =>
      rw [hengine] at hst
      obtain ⟨-, ⟨st₀, hst₀, hvalid⟩ | ⟨hrestores, hvalid⟩⟩ :=
        lastValid_load env s.system (hocc.rules rfl) hst h.placed.definition
      · exact h.kept hocc hbase hst₀ hvalid
      · exact h.restored hocc hanchored rfl hrestores hvalid
  | restart base =>
    rw [hnext] at hst
    cases hst

/-- **An anchored occurrence keeps the invariant.** -/
theorem Covered.next (h : Covered record s) (hocc : Occurs record s i t)
    (hanchored : Anchored record s i) : Covered record t := by
  refine ⟨?_, fun v hv ↦ ?_, h.valued_next hocc, fun st hst ↦ ?_, fun st hst ↦ ?_⟩
  · have hsystem : t.system = match i.what.op with
        | none => s.system
        | some op => step i.env s.system op := by rw [hocc.next]; rfl
    cases hop : i.what.op with
    | none =>
      rw [hop] at hsystem
      rw [hsystem]
      exact h.placed
    | some op =>
      rw [hop] at hsystem
      rw [hsystem]
      refine h.placed.step fun hload ↦ hocc.rules ?_
      -- only an operation is a load
      subst hload
      cases hwhat : i.what with
      | reading point r delivered =>
        rw [hwhat] at hop
        cases delivered <;> cases hop
      | flush =>
        rw [hwhat] at hop
        cases hop
      | operation op =>
        rw [hwhat] at hop
        rw [Option.some.inj hop]
      | restart base =>
        rw [hwhat] at hop
        cases hop
  · have hnow : t.now = i.now := by rw [hocc.next]; rfl
    rcases since_next hocc hv with hsame | rfl
    · rw [hnow]
      exact (h.since_le v hsame).trans hocc.later
    · exact le_rfl
  · exact (h.standing_next hocc hanchored hst).1
  · exact (h.standing_next hocc hanchored hst).2

end Covered

/-! ## The main result -/

/-- The operation of an occurrence meets what keeps the engine and the table in agreement. -/
def Occurrence.Orderly (i : Occurrence) (s : Timeline) : Prop :=
  ∀ op, i.what.op = some op → Superviseur.Orderly i.env op s.system

section Tick

variable {record : RuleRecord} {s t : Timeline} {i : Occurrence} {rt : RuleRuntime} {max : ℚ}

/-- A tick that measures more than the maximal age finds the condition true. -/
theorem condition_tick (h : Placed record s.system.engine) (hocc : Occurs record s i t)
    (htick : i.what = .operation .tick) (hkind : record.kind = .stale)
    (hmax : record.threshold = some (.fin max))
    (hfind : s.system.engine.find? record.id = some rt)
    (hage : max < i.env.clock .tick - rt.lastValid) :
    ∃ rt', t.system.engine.find? record.id = some rt' ∧ rt'.condition = true := by
  have hengine : t.system.engine = (step i.env s.system .tick).engine := by
    rw [hocc.next, Timeline.next, htick]
    rfl
  have hknown : s.system.engine.standing record.id = some rt.standing := by
    rw [AlarmEngine.standing, hfind, Option.map_some]
  have hrecord : rt.record = record := h.definition rt.standing hknown
  have htarget : record.id ∈ s.system.targets .tick := by
    obtain ⟨hmem, hid⟩ := AlarmEngine.find?_eq_some hfind
    exact List.mem_map.mpr ⟨rt, hmem, hid⟩
  have hop : Op.tick.isObservation = true := rfl
  have hstanding := h.standing_observe hop i.env record.id
  rw [← hengine, if_pos htarget, hknown, Option.map_some, AlarmEngine.standing] at hstanding
  obtain ⟨rt', hfind', hst⟩ := Option.map_eq_some_iff.mp hstanding
  refine ⟨rt', hfind', (congrArg Standing.condition hst).trans ?_⟩
  have hstale : isStale (i.env.clock .tick - rt.lastValid) (.fin max) = true :=
    (PyFloat.lt_fin max _).mpr hage
  simp only [Standing.observe, RuleRuntime.standing, hrecord, hkind, hmax, hstale]

/-- Where the store and the bus answer, such a tick raises the alarm, or starts its delay. -/
theorem machine_tick (hw : Consistent s.system) (h : Placed record s.system.engine)
    (hocc : Occurs record s i t) (htick : i.what = .operation .tick)
    (hok : ∀ call, i.env.fails call = false) (hkind : record.kind = .stale)
    (hmax : record.threshold = some (.fin max))
    (hfind : s.system.engine.find? record.id = some rt)
    (hage : max < i.env.clock .tick - rt.lastValid) :
    ∃ rt', t.system.engine.find? record.id = some rt' ∧
      rt'.machine = (rt.machine.update true (i.env.clock (.update record.id))).1 := by
  have hsystem : t.system = step i.env s.system .tick := by
    rw [hocc.next, Timeline.next, htick]
    rfl
  have henv : i.env.Delivers := fun call _ ↦ hok call
  have hknown : s.system.engine.standing record.id = some rt.standing := by
    rw [AlarmEngine.standing, hfind, Option.map_some]
  have hrecord : rt.record = record := h.definition rt.standing hknown
  have htarget : record.id ∈ s.system.targets .tick := by
    obtain ⟨hmem, hid⟩ := AlarmEngine.find?_eq_some hfind
    exact List.mem_map.mpr ⟨rt, hmem, hid⟩
  obtain ⟨services, -, ha, -, hfind', -⟩ := (hadTurn_forEach (updates_tickRule i.env) henv hw
    (h.nodup_targets .tick) htarget hfind).turn
  have hstale : isStale (i.env.clock .tick - rt.lastValid) (.fin max) = true :=
    (PyFloat.lt_fin max _).mpr hage
  have hturn : tickRule i.env ⟨rt, services⟩ = update i.env true none ⟨rt, services⟩ := by
    simp only [tickRule, hrecord, hkind, hmax, hstale]
  rw [hturn] at hfind'
  refine ⟨_, (congrArg (fun w ↦ w.engine.find? record.id) hsystem).trans hfind', ?_⟩
  rw [machine_update henv ha (hok _), hrecord]

/-- A true condition leaves an alarm active, unless its delay has not elapsed. -/
theorem active_update {m : AlarmMachine} {now : Instant}
    (hdue : m.state = .normal ∨ m.state = .pending → m.Due now) :
    (m.update true now).1.state = .activeUnacked ∨ (m.update true now).1.state = .activeAcked := by
  cases hstate : m.state with
  | normal => exact .inl (by rw [(AlarmMachine.update_of_due (.inl hstate) (hdue (.inl hstate))).1])
  | pending =>
    exact .inl (by rw [(AlarmMachine.update_of_due (.inr hstate) (hdue (.inr hstate))).1])
  | activeUnacked =>
    rw [AlarmMachine.update_of_holds (by rw [hstate]; rfl) (by rw [hstate]; decide)]
    exact .inl hstate
  | activeAcked =>
    rw [AlarmMachine.update_of_holds (by rw [hstate]; rfl) (by rw [hstate]; decide)]
    exact .inr hstate
  | clearedUnacked =>
    obtain ⟨delay, state, since⟩ := m
    subst hstate
    exact .inl rfl

theorem consistent_occurs (hw : Consistent s.system) (hocc : Occurs record s i t)
    (horderly : i.Orderly s) : Consistent t.system := by
  have hsystem : t.system = match i.what.op with
      | none => s.system
      | some op => step i.env s.system op := by rw [hocc.next]; rfl
  cases hop : i.what.op with
  | none =>
    rw [hop] at hsystem
    rwa [hsystem]
  | some op =>
    rw [hop] at hsystem
    rw [hsystem]
    exact hw.step (horderly op hop)

/-- **Staleness survives restarts** in every run whose loads are anchored: at a tick the age is at
least the time since the last value, so that a value too old makes the condition true. Where the run
is orderly and the store and the bus answer, the alarm is then active, or its delay runs. -/
theorem age_covers {s₀ : Timeline} {is : List Occurrence} (hs₀ : s₀.Starts)
    (hrun : Trace.Path (fun s i t ↦ Occurs record s i t ∧ Anchored record s i) s₀ is s)
    (hocc : Occurs record s i t) (htick : i.what = .operation .tick) (hkind : record.kind = .stale)
    (hmax : record.threshold = some (.fin max))
    (hfind : s.system.engine.find? record.id = some rt) {v : Instant} (hv : s.since = some v) :
    i.now - v ≤ i.env.clock .tick - rt.lastValid ∧
      (max < i.now - v →
        (∃ rt', t.system.engine.find? record.id = some rt' ∧ rt'.condition = true) ∧
        (s₀.system.services.Sound →
          Trace.Path (fun s i t ↦ Occurs record s i t ∧ i.Orderly s) s₀ is s →
          (∀ call, i.env.fails call = false) →
          ∃ rt', t.system.engine.find? record.id = some rt' ∧
            (rt'.machine.state = .pending ∨ rt'.Active) ∧
            ((rt.machine.state = .normal ∨ rt.machine.state = .pending →
              rt.machine.Due (i.env.clock (.update record.id))) → rt'.Active))) := by
  have hcovered : Covered record s :=
    hrun.invariant (Covered record) (fun h hstep ↦ h.next hstep.1 hstep.2) (hs₀.isCovered record)
  have hknown : s.system.engine.standing record.id = some rt.standing := by
    rw [AlarmEngine.standing, hfind, Option.map_some]
  have hage : i.now - v ≤ i.env.clock .tick - rt.lastValid := by
    have hvalid := hcovered.age rt.standing hknown v hv
    rw [hocc.clock]
    dsimp only [RuleRuntime.standing] at hvalid
    linarith
  refine ⟨hage, fun hlate ↦ ⟨?_, fun hsound horderly hok ↦ ?_⟩⟩
  · exact condition_tick hcovered.placed hocc htick hkind hmax hfind (hlate.trans_le hage)
  · have hstart : Consistent s₀.system := by
      have hempty : s₀.system = ⟨.empty, s₀.system.services⟩ := by rw [← hs₀.engine]
      rw [hempty]
      exact consistent_empty hsound
    have hw : Consistent s.system := horderly.invariant (fun s ↦ Consistent s.system)
      (fun h hstep ↦ consistent_occurs h hstep.1 hstep.2) hstart
    obtain ⟨rt', hfind', hmachine⟩ := machine_tick hw hcovered.placed hocc htick hok hkind hmax
      hfind (hlate.trans_le hage)
    refine ⟨rt', hfind', ?_, fun hdue ↦ ?_⟩
    · have hholds := rt.machine.holds_update true (i.env.clock (.update record.id))
      rw [← hmachine] at hholds
      rw [RuleRuntime.Active]
      -- the condition holds: no other state says so
      generalize rt'.machine.state = state at hholds
      cases state with
      | pending => exact .inl rfl
      | activeUnacked => exact .inr (.inl rfl)
      | activeAcked => exact .inr (.inr rfl)
      | normal => cases hholds
      | clearedUnacked => cases hholds
    · rw [RuleRuntime.Active, hmachine]
      exact active_update hdue

end Tick

/-! ### A maximal age of a minute -/

/-- A `stale` rule without delay. -/
def staleRule : RuleRecord := { lostRule with kind := .stale, threshold := some (.fin 60) }

/-- Nothing loaded and nothing read, at 0. -/
def noReading : Timeline := ⟨⟨.empty, .empty⟩, 0, 0, none, none, none⟩

/-- Something that happens at an instant, with that rule, a store and a bus that answer. -/
def Timeline.at (s : Timeline) (now : Instant) (what : Happening) : Occurrence where
  now := now
  env :=
    { failing [] with
      clock := fun _ ↦ now - s.base
      wall := fun _ ↦ now
      rules := ⟨[staleRule], List.nodup_singleton _⟩
      latest := fun _ ↦ s.row }
  what := what

/-- What a list of these makes of a point. -/
def Timeline.after (s : Timeline) : List (Instant × Happening) → Timeline
  | [] => s
  | (now, what) :: rest => (s.next 1 (s.at now what)).after rest

/-- The occurrences of such a list. -/
def Timeline.occurrences (s : Timeline) : List (Instant × Happening) → List Occurrence
  | [] => []
  | (now, what) :: rest => s.at now what :: (s.next 1 (s.at now what)).occurrences rest

/-- The happening is an operation of the engine that is not a reading, or a reading of the past. -/
def Happening.WellTimed (now : Instant) : Happening → Prop
  | reading _ r _ => r.ts ≤ now
  | flush => True
  | operation op => op = .load ∨ op = .tick
  | restart _ => True

theorem occurs_at {s : Timeline} {now : Instant} (hnow : s.now ≤ now) (what : Happening)
    (hwhat : what.WellTimed now) :
    Occurs staleRule s (s.at now what) (s.next 1 (s.at now what)) := by
  refine ⟨rfl, hnow, fun _ ↦ rfl, fun _ ↦ rfl, ?_, ?_, fun _ ↦ rfl, ?_⟩
  · rintro point r delivered hreading
    have heq : what = .reading point r delivered := hreading
    rw [heq] at hwhat
    exact hwhat
  · rintro op hop
    have heq : what = .operation op := hop
    rw [heq] at hwhat
    rcases hwhat with rfl | rfl
    · exact ⟨(by rintro ⟨⟩), fun _ _ ↦ by rintro ⟨⟩⟩
    · exact ⟨(by rintro ⟨⟩), fun _ _ ↦ by rintro ⟨⟩⟩
  · exact fun _ r hr _ ↦ List.mem_singleton.mp hr

/-- The list is in order, and each happening meets `C`. -/
def Timeline.InOrder (C : Timeline → Occurrence → Prop) (s : Timeline) :
    List (Instant × Happening) → Prop
  | [] => True
  | (now, what) :: rest => s.now ≤ now ∧ what.WellTimed now ∧ C s (s.at now what) ∧
    (s.next 1 (s.at now what)).InOrder C rest

theorem path_after {C : Timeline → Occurrence → Prop} {s : Timeline}
    {is : List (Instant × Happening)} (h : s.InOrder C is) :
    Trace.Path (fun s i t ↦ Occurs staleRule s i t ∧ C s i) s (s.occurrences is) (s.after is) := by
  induction is generalizing s with
  | nil => exact .nil s
  | cons i is ih =>
    obtain ⟨now, what⟩ := i
    obtain ⟨hnow, hwhat, hC, hrest⟩ := h
    exact .cons ⟨occurs_at hnow what hwhat, hC⟩ (ih hrest)

theorem starts_noReading : noReading.Starts := ⟨rfl, rfl, rfl, rfl⟩

/-- A value at 0, and an engine that starts at 50 and finds it. -/
def valueStored : List (Instant × Happening) :=
  [(0, .operation .load), (0, .reading 1 ⟨0, some (.fin 20), "ok"⟩ true), (1, .flush),
    (50, .restart 50), (50, .operation .load)]

/-- A value at 0, a reading without a value at 90, and an engine that starts at 100. -/
def lossStored : List (Instant × Happening) :=
  [(0, .operation .load), (0, .reading 1 ⟨0, some (.fin 20), "ok"⟩ true),
    (90, .reading 1 ⟨90, none, "comm_lost"⟩ true), (91, .flush), (100, .restart 100),
    (100, .operation .load)]

theorem orderly_at (s : Timeline) (now : Instant) (what : Happening) :
    (s.at now what).Orderly s :=
  fun _ _ ↦ StoreMayFail.orderly ⟨fun _ _ ↦ rfl, fun _ _ _ ↦ rfl⟩

/-- The engine that starts at 50 knows that the value is from 0, and a tick at 70 raises the
alarm. -/
theorem age_covers_valueStored :
    ∃ rt rt', (noReading.after valueStored).system.engine.find? 1 = some rt ∧
      rt.lastValid = -50 ∧ 70 - 0 ≤ 20 - rt.lastValid ∧
      ((noReading.after valueStored).next 1 ((noReading.after valueStored).at 70
        (.operation .tick))).system.engine.find? 1 = some rt' ∧ rt'.Active := by
  have hanchored : noReading.InOrder (Anchored staleRule) valueStored := by
    refine ⟨le_rfl, .inl rfl, fun _ _ since hsince ↦ ?_, le_rfl, le_rfl, fun hload ↦ ?_,
      by norm_num [Timeline.next, Timeline.at], trivial, fun hload ↦ ?_,
      by norm_num [Timeline.next, Timeline.at], trivial, fun hload ↦ ?_, le_rfl, .inl rfl,
      fun _ _ since _ ↦ ⟨rfl, rfl, _, rfl, .inl rfl⟩, trivial⟩
    · cases hsince
    all_goals cases hload
  have horderly : noReading.InOrder (fun s i ↦ i.Orderly s) valueStored := by
    refine ⟨le_rfl, .inl rfl, orderly_at _ _ _, le_rfl, le_rfl, orderly_at _ _ _,
      by norm_num [Timeline.next, Timeline.at], trivial, orderly_at _ _ _,
      by norm_num [Timeline.next, Timeline.at], trivial, orderly_at _ _ _, le_rfl, .inl rfl,
      orderly_at _ _ _, trivial⟩
  have hlast : ((noReading.after valueStored).system.engine.find? 1).map RuleRuntime.lastValid
      = some (-50) := by decide +kernel
  have hstate : ((noReading.after valueStored).system.engine.find? 1).map
      (fun rt ↦ (rt.machine.state, rt.machine.delayS)) = some (.normal, 0) := by decide +kernel
  cases hfind : (noReading.after valueStored).system.engine.find? 1 with
  | none =>
    rw [hfind] at hlast
    cases hlast
  | some rt =>
    rw [hfind, Option.map_some, Option.some.injEq] at hlast hstate
    obtain ⟨hstate, hdelay⟩ := Prod.mk.inj hstate
    have hnow : (noReading.after valueStored).now ≤ 70 := by
      norm_num [Timeline.after, valueStored, Timeline.next, Timeline.at]
    have hocc := occurs_at hnow (.operation .tick) (.inr rfl)
    obtain ⟨hage, hlate⟩ := age_covers starts_noReading (path_after hanchored) hocc rfl rfl rfl
      hfind (v := 0) rfl
    obtain ⟨rt', hfind', -, hactive⟩ := (hlate (by norm_num [Timeline.at])).2 Services.sound_empty
      (path_after horderly) fun _ ↦ rfl
    refine ⟨rt, rt', rfl, hlast, ?_, hfind', hactive fun _ ↦ ?_⟩
    · rw [hlast]
      norm_num
    · rw [AlarmMachine.due_of_normal hstate, hdelay]

/-- The engine that starts at 100 takes the reading without a value for a value. -/
theorem not_age_covers : ¬ ∀ (record : RuleRecord) (max : ℚ) (s₀ s t : Timeline)
    (is : List Occurrence) (i : Occurrence) (rt : RuleRuntime) (v : Instant), s₀.Starts →
    Trace.Path (Occurs record) s₀ is s → Occurs record s i t → i.what = .operation .tick →
    record.kind = .stale → record.threshold = some (.fin max) →
    s.system.engine.find? record.id = some rt → s.since = some v →
    i.now - v ≤ i.env.clock .tick - rt.lastValid := by
  intro h
  have horder : noReading.InOrder (fun _ _ ↦ True) lossStored := by
    refine ⟨le_rfl, .inl rfl, trivial, le_rfl, le_rfl, trivial,
      by norm_num [Timeline.next, Timeline.at], le_rfl, trivial,
      by norm_num [Timeline.next, Timeline.at], trivial, trivial,
      by norm_num [Timeline.next, Timeline.at], trivial, trivial, le_rfl, .inl rfl, trivial,
      trivial⟩
  have hlast : ((noReading.after lossStored).system.engine.find? 1).map RuleRuntime.lastValid
      = some (-10) := by decide +kernel
  cases hfind : (noReading.after lossStored).system.engine.find? 1 with
  | none =>
    rw [hfind] at hlast
    cases hlast
  | some rt =>
    rw [hfind, Option.map_some, Option.some.injEq] at hlast
    have hnow : (noReading.after lossStored).now ≤ 101 := by
      norm_num [Timeline.after, lossStored, Timeline.next, Timeline.at]
    have hocc := occurs_at hnow (.operation .tick) (.inr rfl)
    have hage := h staleRule 60 _ _ _ _ _ rt 0 starts_noReading
      ((path_after horder).mono And.left) hocc rfl rfl rfl hfind rfl
    rw [hlast] at hage
    norm_num [Timeline.at, Timeline.after, lossStored, Timeline.next] at hage

end Superviseur
