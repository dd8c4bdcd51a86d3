import Superviseur.Alarms.Outage

/-!
# What the engine knows of a rule

The definition of a rule, the condition last found and the instant of the last value are its
standing. Evaluating a rule changes its standing whether or not the transition that follows can be
stored, so nothing is assumed here of the store, of the bus, or of the state of the engine. A loop
over rules acts on the standing of each by itself (`standing_forEach`), and what it announces agrees
with the standing it leaves (`announced_forEach`).
-/

namespace Superviseur

/-- What the engine knows of a rule. -/
@[ext]
structure Standing where
  record : RuleRecord
  condition : Bool
  lastValid : Instant

def RuleRuntime.standing (rt : RuleRuntime) : Standing := ⟨rt.record, rt.condition, rt.lastValid⟩

/-- The standing of a rule that is loaded. -/
def AlarmEngine.standing (e : AlarmEngine) (rule : RuleId) : Option Standing :=
  (e.find? rule).map RuleRuntime.standing

/-! ## A transition -/

/-- From `x` to `x'` the standing of the rule is the same, and what was published about it is of the
kind given. -/
structure Said (kind : TransitionKind) (x x' : Scope) : Prop where
  standing : x'.runtime.standing = x.runtime.standing
  published : ∃ ms, x'.services.published = x.services.published ++ ms ∧
    ∀ m ∈ ms, m.transition = kind ∧ ∃ info, m.event = .full info ∧
      info.ruleId = x.runtime.record.id

section Transition

variable {env : Env} {t : Transition} {kind : TransitionKind} {x x' x'' : Scope}

theorem Said.of_published (hstanding : x'.runtime.standing = x.runtime.standing)
    (h : x'.services.published = x.services.published) : Said kind x x' :=
  ⟨hstanding, [], by rw [h, List.append_nil], fun _ h ↦ absurd h List.not_mem_nil⟩

theorem Said.refl (kind : TransitionKind) (x : Scope) : Said kind x x := .of_published rfl rfl

theorem Said.trans (h : Said kind x x') (h' : Said kind x' x'') : Said kind x x'' := by
  obtain ⟨hstanding, ms, hms, habout⟩ := h
  obtain ⟨hstanding', ms', hms', habout'⟩ := h'
  refine ⟨hstanding'.trans hstanding, ms ++ ms', by rw [hms', hms, List.append_assoc], ?_⟩
  intro m hm
  rcases List.mem_append.mp hm with hm | hm
  · exact habout m hm
  · obtain ⟨hkind, info, hinfo, hrule⟩ := habout' m hm
    exact ⟨hkind, info, hinfo, hrule.trans (congrArg (fun st ↦ st.record.id) hstanding)⟩

theorem published_createEvent (s : Services) (rule : RuleId) (raisedAt : Instant)
    (raisedValue : Option PyFloat) :
    (s.createEvent rule raisedAt raisedValue).2.published = s.published := by
  unfold Services.createEvent
  split <;> rfl

theorem RuleRuntime.standing_noted (rt : RuleRuntime) (t : Transition) (now : Instant)
    (ackedBy : Option String) : (rt.noted t now ackedBy).standing = rt.standing := by
  unfold noted
  split <;> rfl

theorem RuleRuntime.standing_unwritten (rt : RuleRuntime) (t : Transition) (now : Instant) :
    (rt.unwritten t now).standing = rt.standing := by
  unfold unwritten
  split <;> rfl

theorem said_writeTransition (env : Env) (t : Transition) (ackedBy : Option String) (x : Scope) :
    Said kind x (EState.after (writeTransition env t ackedBy) x) := by
  obtain ⟨rt, s⟩ := x
  cases hid : rt.eventId with
  | none =>
    by_cases hk : t.kind = .raised
    · rw [EState.after, writeTransition_create hk hid]
      by_cases hf : env.fails (.createEvent rt.record.id) = true
      · simp only [hf, if_true]
        exact .refl _ _
      · simp only [hf]
        exact .of_published rfl (published_createEvent _ _ _ _)
    · have h : EState.after (writeTransition env t ackedBy) ⟨rt, s⟩ = ⟨rt, s⟩ := by
        cases hkind : t.kind <;> simp_all [EState.after, writeTransition]
      rw [h]
      exact .refl _ _
  | some id =>
    by_cases ht : t.persistent = true
    · rw [EState.after, writeTransition_update ht hid]
      by_cases hf : env.fails (.updateEvent rt.record.id) = true
      · simp only [hf, if_true]
        exact .of_published (rt.standing_unwritten t _) rfl
      · simp only [hf]
        exact .of_published (rt.standing_noted t _ ackedBy) rfl
    · have h : EState.after (writeTransition env t ackedBy) ⟨rt, s⟩ = ⟨rt, s⟩ := by
        cases hkind : t.kind <;> simp_all [EState.after, writeTransition, Transition.persistent]
      rw [h]
      exact .refl _ _

theorem RuleRuntime.ruleId_info {rt : RuleRuntime} {state : AlarmState} {info : AlarmInfo}
    (h : rt.info state = some info) : info.ruleId = rt.record.id := by
  unfold RuleRuntime.info at h
  split at h
  · rw [Option.some.injEq] at h
    rw [← h]
  · cases h

theorem said_announce (env : Env) (t : Transition) (x : Scope) :
    Said t.kind x (EState.after (announce env t) x) := by
  obtain ⟨rt, s⟩ := x
  cases hinfo : rt.info t.toState with
  | none =>
    have h : EState.after (announce env t) ⟨rt, s⟩ = ⟨rt, s⟩ := by
      simp [EState.after, announce, hinfo]
    rw [h]
    exact .refl _ _
  | some info =>
    cases hpublish : env.fails (.publish rt.record.id) with
    | true =>
      have h : EState.after (announce env t) ⟨rt, s⟩ = ⟨rt, s⟩ := by
        simp [EState.after, announce, hinfo, hpublish]
      rw [h]
      exact .refl _ _
    | false =>
      -- the message has left; what follows it publishes nothing more
      have h : (EState.after (announce env t) ⟨rt, s⟩).runtime.standing = rt.standing ∧
          (EState.after (announce env t) ⟨rt, s⟩).services.published
            = s.published ++ [⟨t.kind, .full info⟩] := by
        by_cases hnotify : rt.record.notify = [] <;>
          cases hsubmit : env.fails (.submit rt.record.id) <;>
          by_cases hnormal : t.toState = .normal <;>
          simp_all [EState.after, announce, RuleRuntime.standing, Services.publish,
            Services.submit]
      refine ⟨h.1, [⟨t.kind, .full info⟩], h.2, ?_⟩
      intro m hm
      rw [List.mem_singleton.mp hm]
      exact ⟨rfl, info, rfl, RuleRuntime.ruleId_info hinfo⟩

theorem said_persist (env : Env) (t : Transition) (ackedBy : Option String) (x : Scope) :
    Said t.kind x (EState.after (persist env t ackedBy) x) := by
  have hwrite : Said t.kind x _ := said_writeTransition env t ackedBy x
  rw [EState.after] at hwrite ⊢
  rw [persist, EState.bind_apply]
  cases h : writeTransition env t ackedBy x with
  | ok a x' =>
    rw [h] at hwrite
    exact hwrite.trans (said_announce env t x')
  | error f x' =>
    rw [h] at hwrite
    exact hwrite

theorem said_rollback (env : Env) (t : Transition) (ackedBy : Option String) (x : Scope)
    (state : AlarmState) : Said t.kind x (rollback state (persist env t ackedBy x)) := by
  have h := said_persist env t ackedBy x
  rw [EState.after] at h
  cases hp : persist env t ackedBy x with
  | ok a x' =>
    rw [hp] at h
    exact h
  | error f x' =>
    rw [hp] at h
    exact ⟨h.standing, h.published⟩

end Transition

/-! ## The turn of a rule -/

theorem AlarmMachine.condition_of_raised {m : AlarmMachine} {condition : Bool} {now : Instant}
    {t : Transition} (h : t ∈ (m.update condition now).2) (hk : t.kind = .raised) :
    condition = true := by
  cases condition with
  | true => rfl
  | false =>
    obtain ⟨d, s, p⟩ := m
    cases s <;> simp [update, enter, advance] at h <;> rw [h] at hk <;> cases hk

/-- `body` acts on the standing of its rule as `f` does, and raises no alarm whose condition it
leaves false. -/
structure Acts (body : Scope → Scope) (f : Standing → Standing) : Prop where
  record : ∀ st, (f st).record = st.record
  standing : ∀ x, (body x).runtime.standing = f x.runtime.standing
  published : ∀ x, ∃ ms, (body x).services.published = x.services.published ++ ms ∧
    ∀ m ∈ ms, ∃ info, m.event = .full info ∧ info.ruleId = x.runtime.record.id ∧
      (m.transition = .raised → (body x).runtime.condition = true)

theorem standing_update (env : Env) (condition : Bool) (value : Option PyFloat) (x : Scope) :
    (update env condition value x).runtime.standing
        = { x.runtime.standing with condition := condition } ∧
      ∃ ms, (update env condition value x).services.published = x.services.published ++ ms ∧
        ∀ m ∈ ms, ∃ info, m.event = .full info ∧ info.ruleId = x.runtime.record.id ∧
          (m.transition = .raised → condition = true) := by
  obtain ⟨rt, s⟩ := x
  have hstepped : (rt.stepped condition value (env.clock (.update rt.record.id))).standing
      = { rt.standing with condition := condition } := rfl
  rw [update_eq]
  rcases rt.machine.update_cases condition (env.clock (.update rt.record.id)) with
    ⟨hquiet, -⟩ | ⟨ts, t, hts, hquiet, -, hpersistent, -, -⟩
  · rw [persistAll_quiet env hquiet]
    exact ⟨hstepped, [], (List.append_nil _).symm, fun _ h ↦ absurd h List.not_mem_nil⟩
  · have ht : t ∈ (rt.machine.update condition (env.clock (.update rt.record.id))).2 := by
      rw [hts]
      exact List.mem_append_right _ (List.mem_singleton_self t)
    rw [hts, persistAll_edge env hquiet hpersistent]
    obtain ⟨hstanding, ms, hms, habout⟩ := said_rollback env t none
      ⟨rt.stepped condition value (env.clock (.update rt.record.id)), s⟩ t.fromState
    refine ⟨hstanding.trans hstepped, ms, hms, fun m hm ↦ ?_⟩
    obtain ⟨hkind, info, hinfo, hrule⟩ := habout m hm
    exact ⟨info, hinfo, hrule,
      fun hraised ↦ AlarmMachine.condition_of_raised ht (hkind.symm.trans hraised)⟩

/-- A turn that updates the machine with the condition `condition`, or not at all. -/
theorem acts_of_turn (env : Env) {body : Scope → Scope} {f : Standing → Standing}
    (hrecord : ∀ st, (f st).record = st.record)
    (h : ∀ x, ∃ instant, (f x.runtime.standing).lastValid = instant.getD x.runtime.lastValid ∧
      ((body x = ⟨x.runtime.validAt instant, x.services⟩ ∧
          (f x.runtime.standing).condition = x.runtime.condition) ∨
        ∃ value, body x = update env (f x.runtime.standing).condition value
          ⟨x.runtime.validAt instant, x.services⟩)) : Acts body f := by
  refine ⟨hrecord, fun x ↦ ?_, fun x ↦ ?_⟩
  · obtain ⟨instant, hvalid, ⟨hbody, hcondition⟩ | ⟨value, hbody⟩⟩ := h x
    · rw [hbody]
      exact Standing.ext (hrecord x.runtime.standing).symm hcondition.symm hvalid.symm
    · rw [hbody, (standing_update env _ value _).1]
      exact Standing.ext (hrecord x.runtime.standing).symm rfl hvalid.symm
  · obtain ⟨instant, hvalid, ⟨hbody, hcondition⟩ | ⟨value, hbody⟩⟩ := h x
    · rw [hbody]
      exact ⟨[], (List.append_nil _).symm, fun _ hm ↦ absurd hm List.not_mem_nil⟩
    · rw [hbody]
      obtain ⟨hstanding, ms, hms, habout⟩ := standing_update env (f x.runtime.standing).condition
        value ⟨x.runtime.validAt instant, x.services⟩
      refine ⟨ms, hms, fun m hm ↦ ?_⟩
      obtain ⟨info, hinfo, hrule, hraised⟩ := habout m hm
      exact ⟨info, hinfo, hrule, fun hk ↦
        (congrArg Standing.condition hstanding).trans (hraised hk)⟩

/-! ## Loops over rules -/

section Loop

variable {body : Scope → Scope} {f : Standing → Standing} {w : AlarmSystem} {rule : RuleId}

theorem Acts.record_id (h : Acts body f) (x : Scope) :
    (body x).runtime.record = x.runtime.record :=
  (congrArg Standing.record (h.standing x)).trans (h.record x.runtime.standing)

theorem Acts.standing_visit (h : Acts body f) (w : AlarmSystem) (rule rule' : RuleId) :
    (w.visit body rule').engine.standing rule
      = if rule = rule' then (w.engine.standing rule).map f else w.engine.standing rule := by
  unfold AlarmEngine.standing
  cases hfind : w.engine.find? rule' with
  | none =>
    rw [AlarmSystem.visit_of_find?_eq_none body hfind]
    split
    · rename_i heq
      rw [heq, hfind]
      rfl
    · rfl
  | some rt =>
    rw [AlarmSystem.visit_of_find?_eq_some body hfind]
    obtain ⟨-, hid⟩ := AlarmEngine.find?_eq_some hfind
    have hid' : (body ⟨rt, w.services⟩).runtime.record.id = rule' := by
      rw [h.record_id]
      exact hid
    split
    · rename_i heq
      subst heq
      rw [AlarmEngine.find?_set_self hfind hid', hfind, Option.map_some, h.standing]
      rfl
    · rename_i hne
      rw [AlarmEngine.find?_set_of_ne (by rw [hid']; exact fun heq ↦ hne heq.symm)]

/-- **A loop acts on the standing of each rule by itself.** -/
theorem Acts.standing_forEach (h : Acts body f) (w : AlarmSystem) {rules : List RuleId}
    (hnodup : rules.Nodup) (rule : RuleId) :
    (w.forEach rules body).engine.standing rule
      = if rule ∈ rules then (w.engine.standing rule).map f else w.engine.standing rule := by
  induction rules generalizing w with
  | nil => rfl
  | cons rule' rules ih =>
    obtain ⟨hnot, hnodup'⟩ := List.nodup_cons.mp hnodup
    have hstep : w.forEach (rule' :: rules) body = (w.visit body rule').forEach rules body := rfl
    rw [hstep, ih (w.visit body rule') hnodup', h.standing_visit]
    by_cases heq : rule = rule'
    · subst heq
      rw [if_neg hnot, if_pos rfl, if_pos List.mem_cons_self]
    · rw [if_neg heq]
      simp [heq]

/-- **What a loop announces agrees with what it leaves**: a rule it says raised has its
condition. -/
theorem Acts.announced_forEach (h : Acts body f) (w : AlarmSystem) {rules : List RuleId}
    (hnodup : rules.Nodup) :
    ∃ ms, (w.forEach rules body).services.published = w.services.published ++ ms ∧
      ∀ m ∈ ms, ∃ info, m.event = .full info ∧ info.ruleId ∈ rules ∧
        (m.transition = .raised →
          ∃ st, (w.forEach rules body).engine.standing info.ruleId = some st ∧
            st.condition = true) := by
  induction rules generalizing w with
  | nil => exact ⟨[], (List.append_nil _).symm, fun _ hm ↦ absurd hm List.not_mem_nil⟩
  | cons rule' rules ih =>
    obtain ⟨hnot, hnodup'⟩ := List.nodup_cons.mp hnodup
    have hstep : w.forEach (rule' :: rules) body = (w.visit body rule').forEach rules body := rfl
    rw [hstep]
    obtain ⟨ms', hms', habout'⟩ := ih (w.visit body rule') hnodup'
    have hvisit : ∃ ms, (w.visit body rule').services.published = w.services.published ++ ms ∧
        ∀ m ∈ ms, ∃ info, m.event = .full info ∧ info.ruleId = rule' ∧
          (m.transition = .raised → ∃ st, (w.visit body rule').engine.standing rule' = some st ∧
            st.condition = true) := by
      cases hfind : w.engine.find? rule' with
      | none =>
        rw [AlarmSystem.visit_of_find?_eq_none body hfind]
        exact ⟨[], (List.append_nil _).symm, fun _ hm ↦ absurd hm List.not_mem_nil⟩
      | some rt =>
        rw [AlarmSystem.visit_of_find?_eq_some body hfind]
        obtain ⟨-, hid⟩ := AlarmEngine.find?_eq_some hfind
        obtain ⟨ms, hms, habout⟩ := h.published ⟨rt, w.services⟩
        refine ⟨ms, hms, fun m hm ↦ ?_⟩
        obtain ⟨info, hinfo, hrule, hraised⟩ := habout m hm
        refine ⟨info, hinfo, hrule.trans hid, fun hk ↦
          ⟨(body ⟨rt, w.services⟩).runtime.standing, ?_, hraised hk⟩⟩
        rw [AlarmEngine.standing, AlarmEngine.find?_set_self hfind
          (by rw [h.record_id]; exact hid)]
        rfl
    obtain ⟨ms, hms, habout⟩ := hvisit
    refine ⟨ms ++ ms', by rw [hms', hms, List.append_assoc], ?_⟩
    intro m hm
    rcases List.mem_append.mp hm with hm | hm
    · -- the turns that follow are those of other rules
      obtain ⟨info, hinfo, hrule, hraised⟩ := habout m hm
      refine ⟨info, hinfo, hrule ▸ List.mem_cons_self, fun hk ↦ ?_⟩
      rw [hrule, h.standing_forEach _ hnodup', if_neg hnot]
      exact hraised hk
    · obtain ⟨info, hinfo, hrule, hraised⟩ := habout' m hm
      exact ⟨info, hinfo, List.mem_cons_of_mem _ hrule, hraised⟩

end Loop

end Superviseur
