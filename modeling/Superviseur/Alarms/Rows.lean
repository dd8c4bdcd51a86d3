import Superviseur.Alarms.UpToDate

/-!
# What a turn does to the table

A turn of the engine reads of the services nothing but the rows of the table (`alike_update`), and
writes none but that of the alarm of its rule (`row_update`). Loops over rules inherit both.
-/

namespace Superviseur

/-- The row of an alarm. -/
def Services.row (s : Services) (id : EventId) : Option AlarmEvent :=
  s.events.find? fun e ↦ e.id = id

/-! ## Turns depend on the rows only -/

/-- The same runtime over the same rows. -/
def Scope.Alike (x y : Scope) : Prop :=
  x.runtime = y.runtime ∧ x.services.events = y.services.events

/-- The same outcome, over the same rows. -/
def AlikeResults : EStateM.Result Failure Scope Unit → EStateM.Result Failure Scope Unit → Prop
  | .ok _ x, .ok _ y => x.Alike y
  | .error _ x, .error _ y => x.Alike y
  | _, _ => False

section Alike

variable {env : Env} {t : Transition} {x y : Scope}

theorem createEvent_congr {s s' : Services} (h : s.events = s'.events) (rule : RuleId)
    (raisedAt : Instant) (raisedValue : Option PyFloat) :
    (s.createEvent rule raisedAt raisedValue).1 = (s'.createEvent rule raisedAt raisedValue).1 ∧
      (s.createEvent rule raisedAt raisedValue).2.events
        = (s'.createEvent rule raisedAt raisedValue).2.events := by
  have hopen : s.openOf rule = s'.openOf rule := by rw [Services.openOf, h, Services.openOf]
  have hfresh : s.freshId = s'.freshId := by rw [Services.freshId, h, Services.freshId]
  unfold Services.createEvent
  rw [hopen]
  split
  · exact ⟨rfl, h⟩
  · refine ⟨hfresh, ?_⟩
    rw [Services.inserted, Services.inserted, Services.newEvent, Services.newEvent, h, hfresh]

theorem alike_writeTransition (ackedBy : Option String) (h : x.Alike y) :
    AlikeResults (writeTransition env t ackedBy x) (writeTransition env t ackedBy y) := by
  obtain ⟨rt, s⟩ := x
  obtain ⟨rt', s'⟩ := y
  obtain ⟨rfl, hevents⟩ := h
  dsimp only at hevents
  cases hid : rt.eventId with
  | none =>
    by_cases hk : t.kind = .raised
    · rw [writeTransition_create hk hid, writeTransition_create hk hid]
      cases env.fails (.createEvent rt.record.id) with
      | true => exact ⟨rfl, hevents⟩
      | false =>
        obtain ⟨hnew, hrows⟩ := createEvent_congr hevents rt.record.id
          (env.wall (.persist rt.record.id)) rt.value
        refine ⟨?_, hrows⟩
        dsimp only
        rw [hnew]
    · have hnone : ∀ s, writeTransition env t ackedBy ⟨rt, s⟩ = .error .noOpenAlarm ⟨rt, s⟩ := by
        intro s
        cases hkind : t.kind <;> simp_all [writeTransition]
      rw [hnone, hnone]
      exact ⟨rfl, hevents⟩
  | some id =>
    by_cases ht : t.persistent = true
    · rw [writeTransition_update ht hid, writeTransition_update ht hid]
      cases env.fails (.updateEvent rt.record.id) with
      | true => exact ⟨rfl, hevents⟩
      | false =>
        refine ⟨rfl, ?_⟩
        dsimp only
        rw [Services.events_updateEvent, Services.events_updateEvent, hevents]
    · have hsome : ∀ s, writeTransition env t ackedBy ⟨rt, s⟩ = .ok () ⟨rt, s⟩ := by
        intro s
        cases hkind : t.kind <;> simp_all [writeTransition, Transition.persistent]
      rw [hsome, hsome]
      exact ⟨rfl, hevents⟩

theorem alike_announce (h : x.Alike y) : AlikeResults (announce env t x) (announce env t y) := by
  obtain ⟨rt, s⟩ := x
  obtain ⟨rt', s'⟩ := y
  obtain ⟨rfl, hevents⟩ := h
  dsimp only at hevents
  cases hinfo : rt.info t.toState with
  | none =>
    have hnone : ∀ s, announce env t ⟨rt, s⟩ = .error .assertion ⟨rt, s⟩ := by
      intro s
      simp [announce, hinfo]
    rw [hnone, hnone]
    exact ⟨rfl, hevents⟩
  | some info =>
    cases hpublish : env.fails (.publish rt.record.id) <;>
      by_cases hnotify : rt.record.notify = [] <;>
      cases hsubmit : env.fails (.submit rt.record.id) <;>
      by_cases hnormal : t.toState = .normal <;>
      simp_all [announce, AlikeResults, Scope.Alike, Services.publish, Services.submit]

theorem alike_persist (ackedBy : Option String) (h : x.Alike y) :
    AlikeResults (persist env t ackedBy x) (persist env t ackedBy y) := by
  have hwrite := @alike_writeTransition env t x y ackedBy h
  rw [persist, EState.bind_apply, EState.bind_apply]
  cases hx : writeTransition env t ackedBy x with
  | ok a x' =>
    cases hy : writeTransition env t ackedBy y with
    | ok b y' =>
      rw [hx, hy] at hwrite
      exact alike_announce hwrite
    | error f y' =>
      rw [hx, hy] at hwrite
      exact hwrite.elim
  | error f x' =>
    cases hy : writeTransition env t ackedBy y with
    | ok b y' =>
      rw [hx, hy] at hwrite
      exact hwrite.elim
    | error g y' =>
      rw [hx, hy] at hwrite
      exact hwrite

theorem alike_persistAll (ts : List Transition) (h : x.Alike y) :
    (persistAll env ts x).Alike (persistAll env ts y) := by
  induction ts generalizing x y with
  | nil => exact h
  | cons t ts ih =>
    rw [persistAll, persistAll]
    split
    · have hpersist := @alike_persist env t x y none h
      cases hx : persist env t none x with
      | ok a x' =>
        cases hy : persist env t none y with
        | ok b y' =>
          rw [hx, hy] at hpersist
          exact ih hpersist
        | error f y' =>
          rw [hx, hy] at hpersist
          exact hpersist.elim
      | error f x' =>
        cases hy : persist env t none y with
        | ok b y' =>
          rw [hx, hy] at hpersist
          exact hpersist.elim
        | error g y' =>
          rw [hx, hy] at hpersist
          exact ⟨congrArg (RuleRuntime.setState · t.fromState) hpersist.1, hpersist.2⟩
    · exact ih h

theorem alike_update (condition : Bool) (value : Option PyFloat) (h : x.Alike y) :
    (update env condition value x).Alike (update env condition value y) := by
  obtain ⟨rt, s⟩ := x
  obtain ⟨rt', s'⟩ := y
  obtain ⟨rfl, hevents⟩ := h
  rw [update_eq, update_eq]
  exact alike_persistAll _ ⟨rfl, hevents⟩

theorem alike_evaluateInitial (h : x.Alike y) :
    (evaluateInitial env x).Alike (evaluateInitial env y) := by
  obtain ⟨rt, s⟩ := x
  obtain ⟨rt', s'⟩ := y
  obtain ⟨rfl, hevents⟩ := h
  unfold evaluateInitial
  dsimp only
  split
  · split
    · exact ⟨rfl, hevents⟩
    · split
      · exact ⟨rfl, hevents⟩
      · exact alike_update _ _ ⟨rfl, hevents⟩
  · split
    · exact alike_update _ _ ⟨rfl, hevents⟩
    · exact ⟨rfl, hevents⟩

theorem forEach_congr {body : Scope → Scope} (hbody : ∀ {x y}, Scope.Alike x y →
    (body x).Alike (body y)) (rules : List RuleId) {w w' : AlarmSystem}
    (hengine : w.engine = w'.engine) (hevents : w.services.events = w'.services.events) :
    (w.forEach rules body).engine = (w'.forEach rules body).engine ∧
      (w.forEach rules body).services.events = (w'.forEach rules body).services.events := by
  induction rules generalizing w w' with
  | nil => exact ⟨hengine, hevents⟩
  | cons rule rules ih =>
    have hvisit : (w.visit body rule).engine = (w'.visit body rule).engine ∧
        (w.visit body rule).services.events = (w'.visit body rule).services.events := by
      cases hfind : w.engine.find? rule with
      | none =>
        rw [AlarmSystem.visit_of_find?_eq_none body hfind,
          AlarmSystem.visit_of_find?_eq_none body (hengine ▸ hfind)]
        exact ⟨hengine, hevents⟩
      | some rt =>
        rw [AlarmSystem.visit_of_find?_eq_some body hfind,
          AlarmSystem.visit_of_find?_eq_some body (hengine ▸ hfind)]
        obtain ⟨hruntime, hrows⟩ := hbody (x := ⟨rt, w.services⟩) (y := ⟨rt, w'.services⟩)
          ⟨rfl, hevents⟩
        exact ⟨by rw [hruntime, hengine], hrows⟩
    exact ih hvisit.1 hvisit.2

end Alike

/-! ## Loops and single turns -/

section Turns

variable {env : Env} {body : Scope → Scope} {f : Standing → Standing} {w : AlarmSystem}
  {rule : RuleId} {rules : List RuleId}

theorem Acts.find?_visit_of_ne (h : Acts body f) (w : AlarmSystem) {rule' : RuleId}
    (hne : rule' ≠ rule) : (w.visit body rule').engine.find? rule = w.engine.find? rule := by
  cases hfind : w.engine.find? rule' with
  | none => rw [AlarmSystem.visit_of_find?_eq_none body hfind]
  | some rt =>
    obtain ⟨-, hid⟩ := AlarmEngine.find?_eq_some hfind
    rw [AlarmSystem.visit_of_find?_eq_some body hfind]
    exact AlarmEngine.find?_set_of_ne (by rw [h.record_id, hid]; exact hne)

theorem Acts.find?_forEach_of_not_mem (h : Acts body f) (w : AlarmSystem) (hrule : rule ∉ rules) :
    (w.forEach rules body).engine.find? rule = w.engine.find? rule := by
  induction rules generalizing w with
  | nil => rfl
  | cons rule' rules ih =>
    have hne : rule' ≠ rule := fun heq ↦ hrule (heq ▸ List.mem_cons_self)
    exact (ih (w.visit body rule') fun hmem ↦ hrule (List.mem_cons_of_mem _ hmem)).trans
      (h.find?_visit_of_ne w hne)

/-- What every turn keeps of the services, a loop keeps; and each rule has its turn on services
where it was kept. -/
theorem Acts.forEach_keeps (h : Acts body f) (P : Services → Prop) (hnodup : rules.Nodup)
    (hturn : ∀ rule ∈ rules, ∀ rt, w.engine.find? rule = some rt → ∀ s, P s →
      P (body ⟨rt, s⟩).services) (hP : P w.services) :
    P (w.forEach rules body).services ∧ ∀ rule ∈ rules, ∀ rt, w.engine.find? rule = some rt →
      ∃ s, P s ∧ (w.forEach rules body).engine.find? rule = some (body ⟨rt, s⟩).runtime := by
  induction rules generalizing w with
  | nil => exact ⟨hP, fun _ hrule ↦ absurd hrule List.not_mem_nil⟩
  | cons rule' rules ih =>
    obtain ⟨hnot, hnodup'⟩ := List.nodup_cons.mp hnodup
    have hvisit : P (w.visit body rule').services := by
      cases hfind : w.engine.find? rule' with
      | none => rwa [AlarmSystem.visit_of_find?_eq_none body hfind]
      | some rt =>
        rw [AlarmSystem.visit_of_find?_eq_some body hfind]
        exact hturn rule' List.mem_cons_self rt hfind w.services hP
    have hother : ∀ rule ∈ rules,
        (w.visit body rule').engine.find? rule = w.engine.find? rule := fun rule hrule ↦
      h.find?_visit_of_ne w fun heq ↦ hnot (heq ▸ hrule)
    obtain ⟨hkept, hturns⟩ := ih (w := w.visit body rule') hnodup' (fun rule hrule rt hfind ↦
      hturn rule (List.mem_cons_of_mem _ hrule) rt (hother rule hrule ▸ hfind)) hvisit
    refine ⟨hkept, fun rule hrule rt hfind ↦ ?_⟩
    rcases List.mem_cons.mp hrule with rfl | hrule
    · refine ⟨w.services, hP, ?_⟩
      have hafter := h.find?_forEach_of_not_mem (w.visit body rule) hnot
      refine hafter.trans ?_
      rw [AlarmSystem.visit_of_find?_eq_some body hfind]
      exact AlarmEngine.find?_set_self hfind
        ((congrArg RuleRecord.id (h.record_id ⟨rt, w.services⟩)).trans
          (AlarmEngine.find?_eq_some hfind).2)
    · exact hturns rule hrule rt ((hother rule hrule).trans hfind)

theorem events_announce (env : Env) (t : Transition) (x : Scope) :
    (EState.after (announce env t) x).services.events = x.services.events := by
  obtain ⟨rt, s⟩ := x
  cases hinfo : rt.info t.toState with
  | none => simp [EState.after, announce, hinfo]
  | some info =>
    cases hpublish : env.fails (.publish rt.record.id) <;>
      by_cases hnotify : rt.record.notify = [] <;>
      cases hsubmit : env.fails (.submit rt.record.id) <;>
      by_cases hnormal : t.toState = .normal <;>
      simp_all [EState.after, announce, Services.publish, Services.submit]

theorem row_createEvent {s : Services} {id : EventId} (h : (s.row id).isSome = true)
    (rule : RuleId) (raisedAt : Instant) (raisedValue : Option PyFloat) :
    (s.createEvent rule raisedAt raisedValue).2.row id = s.row id := by
  obtain ⟨e, he⟩ := Option.isSome_iff_exists.mp h
  unfold Services.createEvent
  split
  · rfl
  · rw [he, Services.row, Services.inserted, List.find?_append]
    rw [Services.row] at he
    rw [he]
    rfl

theorem row_updateEvent_of_ne {s : Services} {id id' : EventId} (h : id' ≠ id)
    (values : EventValues) : (s.updateEvent id values).row id' = s.row id' := by
  rw [Services.row, Services.find?_updateEvent, ← Services.row]
  cases hrow : s.row id' with
  | none => rfl
  | some e =>
    have hid : e.id = id' := by simpa using List.find?_some hrow
    rw [Option.map_some, Services.rewrite_of_ne (by rwa [hid])]

theorem row_writeTransition (env : Env) (t : Transition) (ackedBy : Option String) {x : Scope}
    {id : EventId} (hid : x.runtime.eventId ≠ some id) (h : (x.services.row id).isSome = true) :
    (EState.after (writeTransition env t ackedBy) x).services.row id = x.services.row id := by
  obtain ⟨rt, s⟩ := x
  cases hevent : rt.eventId with
  | none =>
    by_cases hk : t.kind = .raised
    · rw [EState.after, writeTransition_create hk hevent]
      cases env.fails (.createEvent rt.record.id) with
      | true => rfl
      | false => exact row_createEvent h _ _ _
    · cases hkind : t.kind <;> simp_all [EState.after, writeTransition]
  | some id' =>
    by_cases ht : t.persistent = true
    · rw [EState.after, writeTransition_update ht hevent]
      cases env.fails (.updateEvent rt.record.id) with
      | true => rfl
      | false =>
        refine row_updateEvent_of_ne (fun heq ↦ hid ?_) _
        rw [heq]
        exact hevent
    · cases hkind : t.kind <;>
        simp_all [EState.after, writeTransition, Transition.persistent]

theorem row_update (env : Env) (condition : Bool) (value : Option PyFloat) {x : Scope}
    {id : EventId} (hid : x.runtime.eventId ≠ some id) (h : (x.services.row id).isSome = true) :
    (update env condition value x).services.row id = x.services.row id := by
  obtain ⟨rt, s⟩ := x
  rw [update_eq]
  rcases rt.machine.update_cases condition (env.clock (.update rt.record.id)) with
    ⟨hquiet, -⟩ | ⟨ts, t, hts, hquiet, -, hpersistent, -, -⟩
  · rw [persistAll_quiet env hquiet]
  · rw [hts, persistAll_edge env hquiet hpersistent]
    have hwrite := row_writeTransition env t none
      (x := ⟨rt.stepped condition value (env.clock (.update rt.record.id)), s⟩) hid h
    rw [persist, EState.bind_apply]
    rw [EState.after] at hwrite
    cases hw : writeTransition env t none
        ⟨rt.stepped condition value (env.clock (.update rt.record.id)), s⟩ with
    | error failure x' =>
      rw [hw] at hwrite
      exact hwrite
    | ok a x' =>
      rw [hw] at hwrite
      have hannounce := events_announce env t x'
      rw [EState.after] at hannounce
      dsimp only
      cases ha : announce env t x' with
      | ok b x'' =>
        rw [ha] at hannounce
        rw [rollback, Services.row, hannounce]
        exact hwrite
      | error failure x'' =>
        rw [ha] at hannounce
        rw [rollback, Services.row]
        dsimp only
        rw [hannounce]
        exact hwrite

theorem row_evaluateInitial (env : Env) {x : Scope} {id : EventId}
    (hid : x.runtime.eventId ≠ some id) (h : (x.services.row id).isSome = true) :
    (evaluateInitial env x).services.row id = x.services.row id := by
  obtain ⟨instant, heq | ⟨condition, value, heq⟩⟩ := updates_evaluateInitial env x
  · rw [heq]
  · rw [heq]
    exact row_update env condition value
      (x := ⟨x.runtime.validAt instant, x.services⟩) hid h

/-- An initial evaluation that finds the condition the rule was restored with does nothing else. -/
theorem evaluateInitial_unchanged (env : Env) {rt : RuleRuntime}
    (hholds : AlarmMachine.holds rt.machine.state = rt.condition)
    (hpending : rt.machine.state ≠ .pending)
    (h : (rt.standing.evaluateInitial env).condition = rt.condition) (s : Services) :
    (evaluateInitial env ⟨rt, s⟩).services = s ∧
      (evaluateInitial env ⟨rt, s⟩).runtime.machine = rt.machine ∧
      (evaluateInitial env ⟨rt, s⟩).runtime.eventId = rt.eventId := by
  have hstanding := (acts_evaluateInitial env).standing ⟨rt, s⟩
  obtain ⟨instant, heq | ⟨condition, value, heq⟩⟩ := updates_evaluateInitial env ⟨rt, s⟩
  · rw [heq]
    exact ⟨rfl, rfl, rfl⟩
  · have hcondition : condition = rt.condition := by
      rw [heq, (standing_update env condition value _).1] at hstanding
      exact (congrArg Standing.condition hstanding).trans h
    subst hcondition
    have hquiet : (rt.validAt instant).machine.update rt.condition
        (env.clock (.update rt.record.id)) = (rt.machine, []) :=
      AlarmMachine.update_of_holds hholds hpending _
    rw [heq]
    dsimp only
    rw [update_eq]
    have hrecord : (rt.validAt instant).record = rt.record := rfl
    rw [hrecord, RuleRuntime.stepped, hquiet]
    exact ⟨rfl, rfl, rfl⟩

end Turns

end Superviseur
