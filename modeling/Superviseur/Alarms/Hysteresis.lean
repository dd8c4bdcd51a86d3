import Superviseur.Alarms.Delay
import Superviseur.Alarms.UpToDate
import Superviseur.Library.Latch

/-!
# Hysteresis

The condition of a `high` or `low` rule is a latch over the values received by its point: a value
beyond the threshold sets it, and it stays set until a value falls back beyond the hysteresis. A
reading without a number is not received. Nothing here depends on the store or the bus: the
condition follows the values whether or not the transitions can be stored.

Between two raisings of the alarm the condition was false, so that a value has fallen back
(`hysteresis`).
-/

namespace Superviseur

/-! ## The latch of a rule -/

namespace RuleRecord

/-- The value is beyond the threshold. -/
def exceeds (r : RuleRecord) (v : PyFloat) : Bool :=
  match r.kind, r.threshold with
  | .high, some threshold => threshold.lt v
  | .low, some threshold => v.lt threshold
  | _, _ => false

/-- The value has not fallen back: it is above `threshold - hysteresis`, or for a `low` rule below
`threshold + hysteresis`. -/
def stays (r : RuleRecord) (v : PyFloat) : Bool :=
  match r.kind, r.threshold with
  | .high, some threshold => (threshold.sub r.hysteresis).lt v
  | .low, some threshold => v.lt (threshold.add r.hysteresis)
  | _, _ => false

/-- The rule compares the value of its point with a threshold. -/
def Compares (r : RuleRecord) : Prop :=
  (r.kind = .high ∨ r.kind = .low) ∧ r.threshold.isSome = true

theorem Compares.mem_valueKinds {r : RuleRecord} (h : r.Compares) : r.kind ∈ valueKinds := by
  rcases h.1 with hkind | hkind <;> rw [hkind] <;> decide

theorem Compares.evaluateValue {r : RuleRecord} (h : r.Compares) {v : PyFloat}
    (hv : v.isNan = false) (previous : Bool) :
    evaluateValue r.kind (some v) r.threshold r.hysteresis previous
      = some (Latch.next r.exceeds r.stays previous v) := by
  obtain ⟨threshold, hthreshold⟩ := Option.isSome_iff_exists.mp h.2
  rcases h.1 with hkind | hkind <;>
    simp [Superviseur.evaluateValue, Latch.next, exceeds, stays, hkind, hthreshold, hv]

theorem reading_high {r : RuleRecord} {T h : ℚ} (hkind : r.kind = .high)
    (hthreshold : r.threshold = some (.fin T)) (hhysteresis : r.hysteresis = .fin h)
    (hexact : PyFloat.round (T - h) = .fin (T - h)) (q : ℚ) :
    (r.exceeds (.fin q) = true ↔ T < q) ∧ (r.stays (.fin q) = true ↔ T - h < q) := by
  have hsub : (PyFloat.fin T).sub (.fin h) = .fin (T - h) := by
    rw [← hexact, sub_eq_add_neg]
    rfl
  simp only [exceeds, stays, hkind, hthreshold, hhysteresis, hsub, PyFloat.lt_fin, and_self]

theorem reading_low {r : RuleRecord} {T h : ℚ} (hkind : r.kind = .low)
    (hthreshold : r.threshold = some (.fin T)) (hhysteresis : r.hysteresis = .fin h)
    (hexact : PyFloat.round (T + h) = .fin (T + h)) (q : ℚ) :
    (r.exceeds (.fin q) = true ↔ q < T) ∧ (r.stays (.fin q) = true ↔ q < T + h) := by
  have hadd : (PyFloat.fin T).add (.fin h) = .fin (T + h) := by
    rw [← hexact]
    rfl
  simp only [exceeds, stays, hkind, hthreshold, hhysteresis, hadd, PyFloat.lt_fin, and_self]

end RuleRecord

/-- The number an operation brings for the point, if any. -/
def Op.received (point : PointId) : Op → Option PyFloat
  | onValue point' (some v) => if point' = point ∧ v.isNan = false then some v else none
  | _ => none

/-- The numbers received for the point. -/
def received (point : PointId) (is : List (Env × Op)) : List PyFloat :=
  is.filterMap fun i ↦ i.2.received point

/-- **An observation or a tick is at most one input of the latch.** -/
theorem Standing.condition_next {st : Standing} (h : st.record.Compares) {op : Op}
    (hop : op.isObservation = true) (env : Env) :
    (st.next env op).condition = Latch.run st.record.exceeds st.record.stays st.condition
      (op.received st.record.pointId).toList := by
  have hkind := h.mem_valueKinds
  cases op with
  | onValue point value =>
    have hne : point = st.record.pointId ↔ st.concerns (.onValue point value) = true := by
      rw [concerns, decide_eq_true_iff, eq_comm]
    rw [next]
    by_cases hpoint : st.concerns (.onValue point value) = true
    · rw [if_pos hpoint, observe]
      dsimp only
      rw [if_pos hkind]
      cases value with
      | none => rfl
      | some v =>
        -- a value that is no number gives no condition
        cases hv : v.isNan with
        | true =>
          have hnone : evaluateValue st.record.kind (some v) st.record.threshold
              st.record.hysteresis st.condition = none := by
            unfold evaluateValue
            split
            · rename_i heq _
              rw [← Option.some.inj heq, if_pos hv]
            · rfl
          rw [hnone, Op.received, if_neg (by simp [hv])]
          rfl
        | false =>
          rw [h.evaluateValue hv, Op.received, if_pos ⟨hne.mpr hpoint, hv⟩]
          rfl
    · rw [if_neg hpoint]
      cases value with
      | none => rfl
      | some v =>
        rw [Op.received, if_neg fun hboth ↦ hpoint (hne.mp hboth.1)]
        rfl
  | onDeviceStatus device online =>
    -- a rule that compares is not concerned
    have hnot : st.concerns (.onDeviceStatus device online) = false := by
      rcases h.1 with hk | hk <;> simp [concerns, hk]
    rw [next, hnot]
    rfl
  | onBacnetEvent deviceInstance objectType objectInstance toState =>
    have hnot : st.concerns (.onBacnetEvent deviceInstance objectType objectInstance toState)
        = false := by
      rcases h.1 with hk | hk <;> simp [concerns, hk]
    rw [next, hnot]
    rfl
  | tick =>
    have hstays : (st.observe env .tick).condition = st.condition := by
      rcases h.1 with hk | hk <;> simp [observe, hk]
    have hall : st.concerns .tick = true := rfl
    rw [next, if_pos hall, hstays]
    rfl
  | load => cases hop
  | acknowledge => cases hop
  | restart => cases hop

/-! ## The rule in the engine -/

section Engine

variable {rule : RuleId} {w : AlarmSystem} {rt : RuleRuntime} {env : Env} {op : Op}
  {is : List (Env × Op)} {k : ℕ}

theorem Located.observe (h : Located w.engine) (hop : op.isObservation = true) (env : Env) :
    Located (step env w op).engine := by
  rw [step_eq_forEach hop]
  exact h.forEach (acts_turn hop env) (w.targets op)

theorem Located.step (h : Located w.engine) (hload : op = .load → ∀ call, env.fails call = false) :
    Located (step env w op).engine := by
  cases op with
  | load => exact located_load (hload rfl) w
  | acknowledge eventId user => exact (h.acknowledge env eventId user).1
  | restart => exact ⟨List.nodup_nil, rfl, rfl, rfl⟩
  | onValue | onDeviceStatus | onBacnetEvent | tick => exact h.observe rfl env

/-- The indexes are those of the records wherever no load has failed. -/
theorem located_of_run {s : Services} {past : List (Env × Op)} (h : Run AnythingMayFail s past w) :
    Located w.engine := by
  have hempty : Located .empty := ⟨List.nodup_nil, rfl, rfl, rfl⟩
  refine h.invariant (fun w ↦ Located w.engine) ?_ hempty
  rintro w i w' hw ⟨hload, rfl⟩
  exact hw.step hload

/-- **The condition of a rule is a latch** over the numbers received for its point. -/
theorem standing_observations (h : Located w.engine) {st : Standing}
    (hst : w.engine.standing rule = some st) (hcompares : st.record.Compares)
    (his : ∀ i ∈ is, i.2.isObservation = true) :
    ∃ st', (systemAfter w is).engine.standing rule = some st' ∧ st'.record = st.record ∧
      st'.condition = Latch.run st.record.exceeds st.record.stays st.condition
        (received st.record.pointId is) := by
  induction is generalizing w st with
  | nil => exact ⟨st, hst, rfl, rfl⟩
  | cons i is ih =>
    have hop := his i List.mem_cons_self
    have hnext := h.standing_step hop i.1 rule
    rw [hst, Option.map_some] at hnext
    have hrecord : (st.next i.1 i.2).record = st.record := by
      rw [Standing.next]
      split
      · exact st.record_observe i.1 i.2
      · rfl
    obtain ⟨st', hst', hrecord', hcondition⟩ := ih (h.observe hop i.1) hnext (hrecord ▸ hcompares)
      fun j hj ↦ his j (List.mem_cons_of_mem i hj)
    refine ⟨st', hst', hrecord'.trans hrecord, ?_⟩
    rw [hcondition, hrecord, Standing.condition_next hcompares hop, ← Latch.run_append]
    congr 1
    rw [received, received, List.filterMap_cons]
    cases i.2.received st.record.pointId <;> rfl

theorem find?_visit_of_ne {body : Scope → Scope} {f : Standing → Standing} (h : Acts body f)
    {rule' : RuleId} (hne : rule' ≠ rule) :
    (w.visit body rule').engine.find? rule = w.engine.find? rule := by
  cases hfind : w.engine.find? rule' with
  | none => rw [AlarmSystem.visit_of_find?_eq_none body hfind]
  | some rt =>
    have hid : (body ⟨rt, w.services⟩).runtime.record.id = rule' := by
      rw [h.record_id]
      exact (AlarmEngine.find?_eq_some hfind).2
    rw [AlarmSystem.visit_of_find?_eq_some body hfind]
    exact AlarmEngine.find?_set_of_ne (by rwa [hid])

theorem find?_forEach_of_notMem {body : Scope → Scope} {f : Standing → Standing}
    (h : Acts body f) {rules : List RuleId} (hnot : rule ∉ rules) :
    (w.forEach rules body).engine.find? rule = w.engine.find? rule := by
  induction rules generalizing w with
  | nil => rfl
  | cons rule' rules ih =>
    rw [List.mem_cons, not_or] at hnot
    exact (ih (w := w.visit body rule') hnot.2).trans
      (find?_visit_of_ne h fun heq ↦ hnot.1 heq.symm)

theorem Acts.find?_forEach {body : Scope → Scope} {f : Standing → Standing} (h : Acts body f)
    {rules : List RuleId} (hnodup : rules.Nodup) (hfind : w.engine.find? rule = some rt) :
    ∃ rt', (w.forEach rules body).engine.find? rule = some rt' ∧
      (rt' = rt ∨ ∃ s, rt' = (body ⟨rt, s⟩).runtime) := by
  induction rules generalizing w with
  | nil => exact ⟨rt, hfind, .inl rfl⟩
  | cons rule' rules ih =>
    obtain ⟨hnot, hnodup'⟩ := List.nodup_cons.mp hnodup
    by_cases hne : rule' = rule
    · subst hne
      have hid : (body ⟨rt, w.services⟩).runtime.record.id = rule' := by
        rw [h.record_id]
        exact (AlarmEngine.find?_eq_some hfind).2
      have hvisit : (w.visit body rule').engine.find? rule'
          = some (body ⟨rt, w.services⟩).runtime := by
        rw [AlarmSystem.visit_of_find?_eq_some body hfind]
        exact AlarmEngine.find?_set_self hfind hid
      refine ⟨_, ?_, .inr ⟨w.services, rfl⟩⟩
      exact (find?_forEach_of_notMem h hnot).trans hvisit
    · exact ih hnodup' ((find?_visit_of_ne h hne).trans hfind)

/-- An observation or a tick gives a rule its turn, or does not touch it. -/
theorem Located.turned (h : Located w.engine) (hop : op.isObservation = true) (env : Env)
    (hfind : w.engine.find? rule = some rt) :
    ∃ rt', (Superviseur.step env w op).engine.find? rule = some rt' ∧
      (rt' = rt ∨ ∃ s, rt' = (turn env op ⟨rt, s⟩).runtime) := by
  rw [step_eq_forEach hop]
  exact (acts_turn hop env).find?_forEach (h.nodup_targets op) hfind

/-- The alarm of the rule is active. -/
def RuleRuntime.Active (rt : RuleRuntime) : Prop :=
  rt.machine.state = .activeUnacked ∨ rt.machine.state = .activeAcked

/-- An alarm that is active stays as it is while the condition is true. -/
theorem machine_turn_of_active (hop : op.isObservation = true) (env : Env) (hactive : rt.Active)
    (s : Services) (htrue : (turn env op ⟨rt, s⟩).runtime.condition = true) :
    (turn env op ⟨rt, s⟩).runtime.machine = rt.machine := by
  obtain ⟨instant, ⟨-, hturn⟩ | ⟨condition, value, -, hturn⟩⟩ := turn_eq hop env rt s
  · rw [hturn]
    rfl
  · have hcondition := congrArg Standing.condition
      (standing_update env condition value ⟨rt.validAt instant, s⟩).1
    rw [← hturn] at hcondition
    obtain rfl : condition = true := hcondition.symm.trans htrue
    have hholds : AlarmMachine.holds rt.machine.state = true := by
      rcases hactive with hstate | hstate <;> rw [hstate] <;> rfl
    have hpending : rt.machine.state ≠ .pending := by
      rcases hactive with hstate | hstate <;> rw [hstate] <;> decide
    have hmachine : (rt.validAt instant).machine = rt.machine := rfl
    rw [hturn, update_eq, hmachine, AlarmMachine.update_of_holds hholds hpending,
      RuleRuntime.stepped, hmachine, AlarmMachine.update_of_holds hholds hpending]
    rfl

theorem condition_turn_of_raised (hop : op.isObservation = true) (env : Env)
    (hactive : ¬ rt.Active) (s : Services)
    (hraised : (turn env op ⟨rt, s⟩).runtime.machine.state = .activeUnacked) :
    (turn env op ⟨rt, s⟩).runtime.condition = true := by
  obtain ⟨instant, ⟨-, hturn⟩ | ⟨condition, value, -, hturn⟩⟩ := turn_eq hop env rt s
  · rw [hturn] at hraised
    exact absurd (.inl hraised) hactive
  · have hcondition := congrArg Standing.condition
      (standing_update env condition value ⟨rt.validAt instant, s⟩).1
    rw [← hturn] at hcondition
    refine hcondition.trans ?_
    by_contra hfalse
    rw [Bool.not_eq_true] at hfalse
    dsimp only at hfalse
    subst hfalse
    -- without the condition nothing is stored, and the state is not that of an active alarm
    have hquiet : (rt.machine.update false (env.clock (.update rt.record.id))).2.filter
          Transition.persistent = [] ∧
        (rt.machine.update false (env.clock (.update rt.record.id))).1.state ≠ .activeUnacked := by
      rw [RuleRuntime.Active, not_or] at hactive
      generalize rt.machine = m at hactive
      obtain ⟨delay, state, since⟩ := m
      cases state
      case activeUnacked => exact absurd rfl hactive.1
      case activeAcked => exact absurd rfl hactive.2
      all_goals
        refine ⟨rfl, fun hstate ↦ ?_⟩
        cases hstate
    have hmachine : (rt.validAt instant).machine = rt.machine := rfl
    have hrecord : (rt.validAt instant).record = rt.record := rfl
    rw [hturn, update_eq, hmachine, hrecord, persistAll_quiet env hquiet.1] at hraised
    exact hquiet.2 hraised

theorem active_observations (h : Located w.engine) (hfind : w.engine.find? rule = some rt)
    (hcompares : rt.record.Compares) (hactive : rt.Active) (htrue : rt.condition = true)
    (his : ∀ i ∈ is, i.2.isObservation = true)
    (hstays : ∀ v ∈ received rt.record.pointId is,
      ¬ (rt.record.exceeds v = false ∧ rt.record.stays v = false)) :
    ∃ rt', (systemAfter w is).engine.find? rule = some rt' ∧ rt'.Active := by
  induction is generalizing w rt with
  | nil => exact ⟨rt, hfind, hactive⟩
  | cons i is ih =>
    have hop := his i List.mem_cons_self
    obtain ⟨rt', hfind', hturned⟩ := h.turned hop i.1 hfind
    -- the latch is set after this operation
    have hnext := h.standing_step hop i.1 rule
    rw [AlarmEngine.standing, AlarmEngine.standing, hfind, hfind', Option.map_some,
      Option.map_some, Option.map_some, Option.some.injEq] at hnext
    have hrecord : rt'.record = rt.record := by
      rcases hturned with rfl | ⟨s, rfl⟩
      · rfl
      · exact (acts_turn hop i.1).record_id ⟨rt, s⟩
    have htrue' : rt'.condition = true := by
      have hcondition := congrArg Standing.condition hnext
      rw [Standing.condition_next hcompares hop] at hcondition
      refine hcondition.trans ?_
      by_contra hfalse
      rw [Bool.not_eq_true] at hfalse
      have hheld : rt.standing.condition = true := htrue
      rw [hheld] at hfalse
      obtain ⟨v, hv, hboth⟩ := Latch.exists_of_run_eq_false hfalse
      refine hstays v ?_ hboth
      exact List.mem_filterMap.mpr ⟨i, List.mem_cons_self, Option.mem_toList.mp hv⟩
    have hactive' : rt'.Active := by
      rcases hturned with rfl | ⟨s, rfl⟩
      · exact hactive
      · rw [RuleRuntime.Active, machine_turn_of_active hop i.1 hactive s htrue']
        exact hactive
    refine ih (h.observe hop i.1) hfind' (hrecord ▸ hcompares) hactive' htrue'
      (fun j hj ↦ his j (List.mem_cons_of_mem i hj)) fun v hv ↦ ?_
    rw [hrecord] at hv ⊢
    refine hstays v ?_
    obtain ⟨j, hj, hvj⟩ := List.mem_filterMap.mp hv
    exact List.mem_filterMap.mpr ⟨j, List.mem_cons_of_mem i hj, hvj⟩

/-- A reading that is no number changes neither the condition nor the machine. -/
theorem unchanged_of_missing (h : Located w.engine) (hfind : w.engine.find? rule = some rt)
    (hcompares : rt.record.Compares) (env : Env) (point : PointId) {v : Option PyFloat}
    (hv : v = none ∨ v = some .nan) :
    ∃ rt', (step env w (.onValue point v)).engine.find? rule = some rt' ∧
      rt'.condition = rt.condition ∧ rt'.machine = rt.machine := by
  have hop : (Op.onValue point v).isObservation = true := rfl
  obtain ⟨rt', hfind', hturned⟩ := h.turned hop env hfind
  refine ⟨rt', hfind', ?_⟩
  rcases hturned with rfl | ⟨s, rfl⟩
  · exact ⟨rfl, rfl⟩
  · obtain ⟨instant, ⟨-, hturn⟩ | ⟨condition, value, hsome, -⟩⟩ := turn_eq hop env rt s
    · rw [hturn]
      exact ⟨rfl, rfl⟩
    · rw [RuleRuntime.conditionAt, if_pos hcompares.mem_valueKinds] at hsome
      obtain ⟨threshold, hthreshold⟩ := Option.isSome_iff_exists.mp hcompares.2
      rcases hv with rfl | rfl
      · cases hsome
      · rw [hthreshold] at hsome
        cases hsome

end Engine

/-! ## The main result -/

/-- The operation raises the alarm of the rule. -/
def Raises (rule : RuleId) (w w' : AlarmSystem) : Prop :=
  w'.engine.stateOf rule = some .activeUnacked ∧
    ∃ rt, w.engine.find? rule = some rt ∧
      rt.machine.state ∈ [AlarmState.normal, .pending, .clearedUnacked]

/-- What the hysteresis of the rule `r` does in the run `is` from `w`. -/
structure HysteresisLaw (rule : RuleId) (r : RuleRecord) (w : AlarmSystem)
    (is : List (Env × Op)) : Prop where
  /-- The condition is true after a value beyond the threshold, until one falls back. -/
  condition : ∀ k ≤ is.length, ∃ rt, (systemAfter w (is.take k)).engine.find? rule = some rt ∧
    rt.record = r ∧
    (rt.condition = true ↔ ∃ before v after,
      received r.pointId (is.take k) = before ++ v :: after ∧ r.exceeds v = true ∧
        ∀ v' ∈ after, r.stays v' = true)
  /-- A reading that is no number changes neither the condition nor the machine. -/
  missing : ∀ k ≤ is.length, ∀ env v, v = none ∨ v = some .nan →
    ∃ rt rt', (systemAfter w (is.take k)).engine.find? rule = some rt ∧
      (step env (systemAfter w (is.take k)) (.onValue r.pointId v)).engine.find? rule = some rt' ∧
      rt'.condition = rt.condition ∧ rt'.machine = rt.machine
  /-- Between two raisings a value has fallen back. -/
  between : ∀ i j, i < j → j < is.length →
    Raises rule (systemAfter w (is.take i)) (systemAfter w (is.take (i + 1))) →
    Raises rule (systemAfter w (is.take j)) (systemAfter w (is.take (j + 1))) →
    ∃ v ∈ received r.pointId ((is.take j).drop (i + 1)), r.exceeds v = false ∧ r.stays v = false
  /-- On exact rationals. -/
  high : ∀ T h q : ℚ, r.kind = .high → r.threshold = some (.fin T) → r.hysteresis = .fin h →
    PyFloat.round (T - h) = .fin (T - h) →
    (r.exceeds (.fin q) = true ↔ T < q) ∧ (r.stays (.fin q) = true ↔ T - h < q)
  low : ∀ T h q : ℚ, r.kind = .low → r.threshold = some (.fin T) → r.hysteresis = .fin h →
    PyFloat.round (T + h) = .fin (T + h) →
    (r.exceeds (.fin q) = true ↔ q < T) ∧ (r.stays (.fin q) = true ↔ q < T + h)

section Law

variable {rule : RuleId} {w : AlarmSystem} {rt : RuleRuntime} {is : List (Env × Op)}

theorem RuleRuntime.active_iff {rt : RuleRuntime} :
    ¬ rt.Active ↔ rt.machine.state ∈ [AlarmState.normal, .pending, .clearedUnacked] := by
  rw [Active]
  cases rt.machine.state <;> decide

theorem located_observations (h : Located w.engine) (his : ∀ i ∈ is, i.2.isObservation = true) :
    Located (systemAfter w is).engine := by
  induction is generalizing w with
  | nil => exact h
  | cons i is ih =>
    exact ih (h.observe (his i List.mem_cons_self) i.1)
      fun j hj ↦ his j (List.mem_cons_of_mem i hj)

theorem runtime_observations (h : Located w.engine) (hfind : w.engine.find? rule = some rt)
    (hcompares : rt.record.Compares) (his : ∀ i ∈ is, i.2.isObservation = true) :
    ∃ rt', (systemAfter w is).engine.find? rule = some rt' ∧ rt'.record = rt.record ∧
      rt'.condition = Latch.run rt.record.exceeds rt.record.stays rt.condition
        (received rt.record.pointId is) := by
  have hst : w.engine.standing rule = some rt.standing := by
    rw [AlarmEngine.standing, hfind, Option.map_some]
  obtain ⟨st', hst', hrecord, hcondition⟩ := standing_observations h hst hcompares his
  rw [AlarmEngine.standing, Option.map_eq_some_iff] at hst'
  obtain ⟨rt', hfind', rfl⟩ := hst'
  exact ⟨rt', hfind', hrecord, hcondition⟩

theorem systemAfter_append (w : AlarmSystem) (is js : List (Env × Op)) :
    systemAfter w (is ++ js) = systemAfter (systemAfter w is) js := List.foldl_append

/-- **Hysteresis over a run of observations and ticks** from a false condition, whatever the store
and the bus do. -/
theorem hysteresis {s : Services} {past : List (Env × Op)} (hrun : Run AnythingMayFail s past w)
    (hfind : w.engine.find? rule = some rt)
    (hkind : rt.record.kind = .high ∨ rt.record.kind = .low)
    (hthreshold : rt.record.threshold.isSome = true) (hfalse : rt.condition = false)
    (his : ∀ i ∈ is, i.2.isObservation = true) : HysteresisLaw rule rt.record w is := by
  have hw := located_of_run hrun
  have hcompares : rt.record.Compares := ⟨hkind, hthreshold⟩
  have htake : ∀ k, ∀ i ∈ is.take k, i.2.isObservation = true :=
    fun k i hi ↦ his i (List.mem_of_mem_take hi)
  have hat := fun k ↦ runtime_observations hw hfind hcompares (htake k)
  refine ⟨?_, ?_, ?_, ?_, ?_⟩
  · intro k hk
    obtain ⟨rt', hfind', hrecord, hcondition⟩ := hat k
    refine ⟨rt', hfind', hrecord, ?_⟩
    rw [hcondition, hfalse, Latch.run_eq_true_iff]
    exact or_iff_right fun h ↦ absurd h.1 (by decide)
  · intro k hk env v hv
    obtain ⟨rt₁, hfind₁, hrecord, -⟩ := hat k
    obtain ⟨rt', hfind', hsame⟩ := unchanged_of_missing (located_observations hw (htake k)) hfind₁
      (hrecord ▸ hcompares) env rt.record.pointId hv
    exact ⟨rt₁, rt', hfind₁, hfind', hsame⟩
  · rintro i j hij hj ⟨hactive, rt₀, hfind₀, hstate₀⟩ ⟨-, rt₂, hfind₂, hstate₂⟩
    obtain ⟨rt₁, hfind₁, hrecord₁, -⟩ := hat (i + 1)
    rw [stateOf_eq_some hfind₁] at hactive
    obtain ⟨op, hop⟩ : ∃ op, is[i]? = some op := ⟨_, List.getElem?_eq_getElem (by omega)⟩
    -- the condition is true after the first raising
    have htrue : rt₁.condition = true := by
      have hobservation := his op (List.mem_of_getElem? hop)
      obtain ⟨rt', hfind', hturned⟩ := (located_observations hw (htake i)).turned hobservation
        op.1 hfind₀
      rw [← systemAfter_take_succ w hop] at hfind'
      obtain rfl := Option.some.inj (hfind₁.symm.trans hfind')
      rcases hturned with rfl | ⟨s, rfl⟩
      · exact absurd (.inl hactive) (RuleRuntime.active_iff.mpr hstate₀)
      · exact condition_turn_of_raised hobservation op.1 (RuleRuntime.active_iff.mpr hstate₀) s
          hactive
    by_contra hnone
    have hsplit : is.take j = is.take (i + 1) ++ (is.take j).drop (i + 1) := by
      have happend := List.take_append_drop (i + 1) (is.take j)
      rw [List.take_take, min_eq_left (by omega)] at happend
      exact happend.symm
    obtain ⟨rt', hfind', hactive'⟩ := active_observations (located_observations hw (htake (i + 1)))
      hfind₁ (hrecord₁ ▸ hcompares) (.inl hactive) htrue
      (fun k hk ↦ htake j k (List.mem_of_mem_drop hk)) fun v hv hboth ↦
        hnone ⟨v, hrecord₁ ▸ hv, hrecord₁ ▸ hboth⟩
    rw [← systemAfter_append, ← hsplit, hfind₂, Option.some.injEq] at hfind'
    exact RuleRuntime.active_iff.mpr hstate₂ (hfind' ▸ hactive')
  · exact fun T h q hhigh hT hh hexact ↦ RuleRecord.reading_high hhigh hT hh hexact q
  · exact fun T h q hlow hT hh hexact ↦ RuleRecord.reading_low hlow hT hh hexact q

end Law

/-! ### A band of two degrees -/

/-- A `high` rule at 10 that falls back at 8. -/
def bandRule : RuleRecord :=
  { lostRule with kind := .high, threshold := some (.fin 10), hysteresis := .fin 2 }

/-- An environment with that rule and no stored value. -/
def bandEnv : Env := { failing [] with rules := ⟨[bandRule], List.nodup_singleton _⟩ }

/-- The engine with that rule loaded. -/
def bandStart : AlarmSystem := step bandEnv ⟨.empty, .empty⟩ .load

/-- Values that rise, stay in the band, go missing, fall back and rise again. -/
def bandValues : List (Env × Op) :=
  [some (.fin 11), some (.fin 9), none, some .nan, some (.fin 8), some (.fin 9), some (.fin 12)].map
    fun v ↦ (bandEnv, .onValue 1 v)

theorem hysteresis_band :
    (List.range 8).map (fun k ↦ ((systemAfter bandStart (bandValues.take k)).engine.find? 1).map
        RuleRuntime.condition)
      = [some false, some true, some true, some true, some true, some false, some false,
        some true] ∧
      HysteresisLaw 1 bandRule bandStart bandValues := by
  have hrun : Run AnythingMayFail .empty [(bandEnv, .load)] bandStart :=
    .single ⟨fun _ _ ↦ rfl, rfl⟩
  have hfind : bandStart.engine.find? 1 = some (.new bandRule ⟨0, .normal, none⟩ 0) := rfl
  refine ⟨by decide +kernel, hysteresis hrun hfind (.inl rfl) rfl rfl fun i hi ↦ ?_⟩
  obtain ⟨v, -, rfl⟩ := List.mem_map.mp hi
  rfl

end Superviseur
