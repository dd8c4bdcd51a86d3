import Superviseur.Alarms.Transitions
import Superviseur.Library.Trace

/-!
# Agreement of the engine with the store

`Consistent` is the invariant of the engine: the table is sound and the runtime of every loaded rule
agrees with it (`Agrees`). An operation is not one write but a loop over rules; it is decomposed
into moves (`Move`), each of which is the turn of one rule or the closing of the alarm of a rule
that is not loaded. A move preserves the invariant, and an operation is a reload of the rules, which
writes nothing, followed by moves (`step_moves`).

The moves also carry what is published, so that the same decomposition serves the results about the
messages.
-/

namespace Superviseur

/-! ## Agreement after a write -/

theorem Written.sound {rt : RuleRuntime} {s s' : Services} {id : EventId} {state : AlarmState}
    (hs : s.Sound) (ha : Agrees rt s) (hstate : state ≠ .pending)
    (h : Written rt s id state s') : s'.Sound := by
  cases h with
  | create hnone raisedAt raisedValue =>
    cases ha with
    | idle _ _ hopen => exact hs.inserted hopen raisedAt raisedValue
    | alarm e _ hid => rw [hid] at hnone; cases hnone
  | update hsome values =>
    cases ha with
    | idle _ hid => rw [hid] at hsome; cases hsome
    | alarm e _ hid hopen =>
      rw [hid, Option.some.injEq] at hsome
      subst hsome
      obtain ⟨hmem, -, hne⟩ := Services.mem_openOf.mp (hopen ▸ List.mem_singleton_self e)
      exact hs.updateEvent (Services.mem_openEvents.mpr ⟨hmem, hne⟩) hstate

theorem Written.openOf {rt : RuleRuntime} {s s' : Services} {id : EventId} {state : AlarmState}
    (hs : s.Sound) (ha : Agrees rt s) (h : Written rt s id state s') :
    (state = .normal ∧ s'.openOf rt.record.id = []) ∨
      (state ≠ .normal ∧ ∃ e, s'.openOf rt.record.id = [e] ∧ e.id = id ∧ e.state = state) := by
  cases h with
  | create hnone raisedAt raisedValue =>
    cases ha with
    | idle _ _ hopen =>
      refine .inr ⟨by decide, s.newEvent rt.record.id raisedAt raisedValue, ?_, rfl, rfl⟩
      rw [Services.openOf_inserted, hopen, if_pos rfl]
      rfl
    | alarm e _ hid => rw [hid] at hnone; cases hnone
  | update hsome values =>
    cases ha with
    | idle _ hid => rw [hid] at hsome; cases hsome
    | alarm e _ hid hopen =>
      rw [hid, Option.some.injEq] at hsome
      subst hsome
      rw [hs.openOf_updateEvent hopen]
      by_cases hv : values.state = .normal
      · exact .inl ⟨hv, if_pos hv⟩
      · exact .inr ⟨hv, values.apply e, if_neg hv, rfl, rfl⟩

theorem Written.openOf_of_ne {rt : RuleRuntime} {s s' : Services} {id : EventId}
    {state : AlarmState} (hs : s.Sound) (ha : Agrees rt s) (h : Written rt s id state s')
    {rule : RuleId} (hrule : rt.record.id ≠ rule) : s'.openOf rule = s.openOf rule := by
  cases h with
  | create hnone raisedAt raisedValue =>
    rw [Services.openOf_inserted, if_neg hrule, List.append_nil]
  | update hsome values =>
    cases ha with
    | idle _ hid => rw [hid] at hsome; cases hsome
    | alarm e _ hid hopen =>
      rw [hid, Option.some.injEq] at hsome
      subst hsome
      obtain ⟨hmem, he, -⟩ := Services.mem_openOf.mp (hopen ▸ List.mem_singleton_self e)
      exact hs.openOf_updateEvent_of_ne hmem (by rwa [he]) values

namespace Services

@[simp] theorem events_announced (s : Services) (info : AlarmInfo) (kind : TransitionKind)
    (channels : List String) : (s.announced info kind channels).events = s.events := by
  unfold announced
  split <;> rfl

@[simp] theorem history_announced (s : Services) (info : AlarmInfo) (kind : TransitionKind)
    (channels : List String) : (s.announced info kind channels).history = s.history := by
  unfold announced
  split <;> rfl

@[simp] theorem openOf_announced (s : Services) (info : AlarmInfo) (kind : TransitionKind)
    (channels : List String) (rule : RuleId) :
    (s.announced info kind channels).openOf rule = s.openOf rule := by
  rw [openOf, events_announced, openOf]

theorem Sound.of_events {s s' : Services} (hs : s.Sound) (h : s'.events = s.events) :
    s'.Sound := by
  have hopen : ∀ rule, s'.openOf rule = s.openOf rule := fun rule ↦ by rw [openOf, h, openOf]
  exact ⟨by rw [h]; exact hs.nodup, fun rule ↦ by rw [hopen]; exact hs.unique rule,
    by rw [h]; exact hs.stored⟩

end Services

/-- What a turn of a rule leaves: the rule still agrees with the store, and the other rules see the
same open alarms. -/
theorem Progress.agrees {x x' : Scope} (hs : x.services.Sound)
    (ha : Agrees x.runtime x.services) (h : Progress x x') :
    x'.services.Sound ∧ Agrees x'.runtime x'.services ∧
      x'.runtime.record = x.runtime.record ∧
      ∀ rule, x.runtime.record.id ≠ rule → x'.services.openOf rule = x.services.openOf rule := by
  cases h with
  | quiet hsame hservices hstate =>
    rw [hservices]
    refine ⟨hs, ?_, hsame.record, fun _ _ ↦ rfl⟩
    rcases hstate with hstate | ⟨hclosed, hclosed'⟩
    · exact ha.of_same hsame hstate
    · cases ha with
      | idle _ hid hopen =>
        exact .idle hclosed' (hsame.eventId.trans hid) (by rw [hsame.record, hopen])
      | alarm e hisOpen => rw [hclosed] at hisOpen; cases hisOpen
  | stored t id hedge hfrom hstate hstored =>
    obtain ⟨⟨s₁, info, hw, hs', -, -, -⟩, hrecord, hid, hraised⟩ := hstored
    have hsound : s₁.Sound := hw.sound hs ha hedge.toState_ne_pending
    rw [hs']
    refine ⟨hsound.of_events (Services.events_announced _ _ _ _), ?_, hrecord, ?_⟩
    · rcases hw.openOf hs ha with ⟨hnormal, hopen⟩ | ⟨hne, e, hopen, he, hestate⟩
      · refine .idle ?_ ?_ ?_
        · rw [hstate, hnormal]
          rfl
        · rw [hid, if_pos hnormal]
        · rw [Services.openOf_announced, hrecord, hopen]
      · refine .alarm e ?_ ?_ ?_ (hestate.trans hstate.symm) hraised
        · rw [hstate]
          exact hedge.isOpen_toState hne
        · rw [hid, if_neg hne, he]
        · rw [Services.openOf_announced, hrecord, hopen]
    · intro rule hrule
      rw [Services.openOf_announced, hw.openOf_of_ne hs ha hrule]

/-! ## The invariant -/

/-- The engine and the store agree. -/
structure Consistent (w : AlarmSystem) : Prop where
  /-- The rules are a dictionary. -/
  nodup : (w.engine.rules.map fun rt ↦ rt.record.id).Nodup
  sound : w.services.Sound
  agrees : ∀ rt ∈ w.engine.rules, Agrees rt w.services

/-- One write of the engine, at most: the turn of a loaded rule, or the closing of the alarm of a
rule that is not loaded. -/
inductive Move (w : AlarmSystem) : AlarmSystem → Prop
  | turn {rt : RuleRuntime} {x : Scope} (hrt : rt ∈ w.engine.rules)
      (h : Progress ⟨rt, w.services⟩ x) : Move w ⟨w.engine.set x.runtime, x.services⟩
  | close {e : AlarmEvent} (he : e ∈ w.services.openEvents)
      (hrule : ∀ rt ∈ w.engine.rules, rt.record.id ≠ e.ruleId)
      {values : EventValues} (hvalues : values.state = .normal) :
      Move w ⟨w.engine,
        (w.services.updateEvent e.id values).publish ⟨.normal, .orphan e.id .normal⟩⟩

namespace AlarmEngine

theorem ids_set (e : AlarmEngine) (rt : RuleRuntime) :
    (e.set rt).rules.map (fun rt ↦ rt.record.id) = e.rules.map fun rt ↦ rt.record.id := by
  rw [set, List.map_map]
  refine List.map_congr_left fun x _ ↦ ?_
  rw [Function.comp_apply]
  split
  · rename_i h
    exact h.symm
  · rfl

theorem mem_set {e : AlarmEngine} {rt x : RuleRuntime} (h : x ∈ (e.set rt).rules) :
    x = rt ∨ x ∈ e.rules ∧ x.record.id ≠ rt.record.id := by
  obtain ⟨y, hy, hyx⟩ := List.mem_map.mp h
  split at hyx
  · exact .inl hyx.symm
  · rename_i hne
    exact .inr (hyx ▸ ⟨hy, hne⟩)

end AlarmEngine

/-- **A move preserves the invariant.** -/
theorem Consistent.move {w w' : AlarmSystem} (hw : Consistent w) (h : Move w w') :
    Consistent w' := by
  cases h with
  | @turn rt x hrt h =>
    obtain ⟨hsound, hagrees, hrecord, hframe⟩ := h.agrees hw.sound (hw.agrees rt hrt)
    refine ⟨?_, hsound, ?_⟩
    · rw [AlarmEngine.ids_set]
      exact hw.nodup
    · intro rt' hrt'
      rcases AlarmEngine.mem_set hrt' with rfl | ⟨hmem, hne⟩
      · exact hagrees
      · refine (hw.agrees rt' hmem).of_openOf (hframe _ fun heq ↦ hne ?_)
        rw [hrecord, heq]
  | @close e he hrule values hvalues =>
    have hsound : (w.services.updateEvent e.id values).Sound :=
      hw.sound.updateEvent he (by rw [hvalues]; decide)
    refine ⟨hw.nodup, hsound.of_events rfl, ?_⟩
    intro rt hrt
    refine (hw.agrees rt hrt).of_openOf ?_
    rw [Services.openOf_publish]
    exact hw.sound.openOf_updateEvent_of_ne (Services.mem_openEvents.mp he).1
      (hrule rt hrt).symm values

/-- Any number of moves. -/
abbrev Moves : AlarmSystem → AlarmSystem → Prop := Relation.ReflTransGen Move

theorem Consistent.moves {w w' : AlarmSystem} (hw : Consistent w) (h : Moves w w') :
    Consistent w' := by
  induction h with
  | refl => exact hw
  | tail _ h ih => exact ih.move h

/-! ## The operations as moves -/

theorem AlarmEngine.find?_eq_some {e : AlarmEngine} {rule : RuleId} {rt : RuleRuntime}
    (h : e.find? rule = some rt) : rt ∈ e.rules ∧ rt.record.id = rule :=
  ⟨List.mem_of_find?_eq_some h, by simpa using List.find?_some h⟩

section Operations

variable {env : Env} {w : AlarmSystem}

theorem moves_visit {body : Scope → Scope} (hbody : Updates env body) (henv : env.Delivers)
    (hw : Consistent w) (rule : RuleId) : Moves w (w.visit body rule) := by
  unfold AlarmSystem.visit
  split
  · exact .refl
  · rename_i rt hfind
    obtain ⟨hmem, -⟩ := AlarmEngine.find?_eq_some hfind
    exact .single (.turn hmem (hbody.progress henv (hw.agrees rt hmem)))

theorem moves_forEach {body : Scope → Scope} (hbody : Updates env body) (henv : env.Delivers)
    (hw : Consistent w) (rules : List RuleId) : Moves w (w.forEach rules body) := by
  induction rules generalizing w with
  | nil => exact .refl
  | cons rule rules ih =>
    have hvisit : Moves w (w.visit body rule) := moves_visit hbody henv hw rule
    exact hvisit.trans (ih (hw.moves hvisit))

/-- An acknowledgement is refused, or is the turn of the rule of the alarm; one that answers
`ok = false` has written nothing. -/
theorem acknowledge_turn (henv : env.Delivers) (hw : Consistent w) (eventId : EventId)
    (user : UserId) :
    ((acknowledge env eventId user w).1 = w ∨ ∃ rt ∈ w.engine.rules, ∃ x,
        Progress ⟨rt, w.services⟩ x ∧
        (acknowledge env eventId user w).1 = ⟨w.engine.set x.runtime, x.services⟩) ∧
      ((acknowledge env eventId user w).2.ok = false →
        (acknowledge env eventId user w).1.services = w.services) := by
  unfold acknowledge
  split
  · exact ⟨.inl rfl, fun _ ↦ rfl⟩
  · rename_i rt hfind
    have hmem : rt ∈ w.engine.rules := List.mem_of_find?_eq_some hfind
    rcases rt.machine.acknowledge_cases with hack | ⟨t, hack, hedge, -, hfrom⟩
    · rw [hack]
      exact ⟨.inl rfl, fun _ ↦ rfl⟩
    · rw [hack]
      obtain ⟨hprogress, herror⟩ :=
        persistAck_progress henv (hw.agrees rt hmem) hedge hfrom user
      have hscope : ({ rt with machine := { rt.machine with state := t.toState } } : RuleRuntime)
          = rt.setState t.toState := rfl
      dsimp only
      rw [hscope]
      cases hp : persistAck env t user ⟨rt.setState t.toState, w.services⟩ with
      | ok a x =>
        rw [hp] at hprogress
        refine ⟨.inr ⟨rt, hmem, x, hprogress, rfl⟩, ?_⟩
        exact fun h ↦ Bool.noConfusion h
      | error f x =>
        rw [hp] at hprogress
        exact ⟨.inr ⟨rt, hmem, _, hprogress, rfl⟩, fun _ ↦ herror f x hp⟩

theorem moves_acknowledge (henv : env.Delivers) (hw : Consistent w) (eventId : EventId)
    (user : UserId) : Moves w (acknowledge env eventId user w).1 := by
  rcases (acknowledge_turn henv hw eventId user).1 with h | ⟨rt, hmem, x, hprogress, h⟩
  · rw [h]
  · rw [h]
    exact .single (.turn hmem hprogress)

end Operations

/-! ### Reloads -/

theorem agrees_restore {s : Services} (hs : s.Sound) (env : Env) (record : RuleRecord) :
    Agrees (restore env record (s.openEvents.find? fun e ↦ e.ruleId = record.id)) s := by
  cases hfind : s.openEvents.find? fun e ↦ e.ruleId = record.id with
  | none =>
    refine .idle rfl rfl ?_
    have hnone := List.find?_eq_none.mp hfind
    refine List.eq_nil_iff_forall_not_mem.mpr fun e he ↦ ?_
    obtain ⟨hmem, hrule, hopen⟩ := Services.mem_openOf.mp he
    refine hnone e (Services.mem_openEvents.mpr ⟨hmem, hopen⟩) (decide_eq_true ?_)
    exact hrule
  | some e =>
    have he : e ∈ s.openEvents := List.mem_of_find?_eq_some hfind
    have hrule : e.ruleId = record.id := by simpa using List.find?_some hfind
    obtain ⟨hmem, hopen⟩ := Services.mem_openEvents.mp he
    have hstored : e.state ≠ .pending := hs.stored e hmem
    have hstate : (restore env record (some e)).machine.state = e.state :=
      AlarmMachine.state_new _ hstored
    refine .alarm e ?_ rfl ?_ hstate.symm rfl
    · rw [hstate]
      cases h : e.state <;> simp_all [AlarmState.isOpen]
    · have hone := hs.openOf_eq he
      rwa [hrule] at hone

theorem record_id_refresh (records : List RuleRecord) (rt : RuleRuntime) :
    (refresh records rt).record.id = rt.record.id := by
  unfold refresh
  split
  · rfl
  · rename_i record hfind
    simpa using List.find?_some hfind

theorem Agrees.refresh {rt : RuleRuntime} {s : Services} (h : Agrees rt s)
    (records : List RuleRecord) : Agrees (refresh records rt) s := by
  unfold Superviseur.refresh
  split
  · exact h
  · rename_i record hfind
    have hid : record.id = rt.record.id := by simpa using List.find?_some hfind
    cases h with
    | idle hstate hnone hopen => exact .idle hstate hnone (by rw [← hopen, ← hid])
    | alarm e hstate hsome hopen heq hraised =>
      exact .alarm e hstate hsome (by rw [← hopen, ← hid]) heq hraised

section Loading

variable {env : Env} {w : AlarmSystem}

theorem record_id_runtimeOf (env : Env) (known : List RuleRuntime) (events : List AlarmEvent)
    (record : RuleRecord) : (runtimeOf env known events record).record.id = record.id := by
  unfold runtimeOf
  split
  · rename_i rt hfind
    simpa using List.find?_some hfind
  · unfold restore
    dsimp only
    split <;> rfl

/-- The engine as `load` leaves it before the orphans: what it keeps and what it restores agrees
with the store. -/
theorem Consistent.reloaded (hw : Consistent w) (env : Env) :
    Consistent ⟨.index (env.rules.val.map (runtimeOf env
      (w.engine.rules.map (refresh env.rules.val)) w.services.openEvents)), w.services⟩ := by
  refine ⟨?_, hw.sound, ?_⟩
  · have hids : (env.rules.val.map (runtimeOf env (w.engine.rules.map (refresh env.rules.val))
        w.services.openEvents)).map (fun rt ↦ rt.record.id) = env.rules.val.map RuleRecord.id := by
      rw [List.map_map]
      exact List.map_congr_left fun record _ ↦ record_id_runtimeOf _ _ _ record
    rw [AlarmEngine.index, hids]
    exact env.rules.property
  · intro rt hrt
    obtain ⟨record, -, rfl⟩ := List.mem_map.mp hrt
    unfold runtimeOf
    split
    · rename_i rt hfind
      obtain ⟨rt₀, hmem, rfl⟩ := List.mem_map.mp (List.mem_of_find?_eq_some hfind)
      exact (hw.agrees rt₀ hmem).refresh _
    · exact agrees_restore hw.sound env record

/-- Where `load` stops half way the rules already known stay loaded, with their new records. -/
theorem Consistent.refreshed (hw : Consistent w) (env : Env) :
    Consistent ⟨{ w.engine with rules := w.engine.rules.map (refresh env.rules.val) },
      w.services⟩ := by
  refine ⟨?_, hw.sound, ?_⟩
  · have hids : (w.engine.rules.map (refresh env.rules.val)).map (fun rt ↦ rt.record.id)
        = w.engine.rules.map fun rt ↦ rt.record.id := by
      rw [List.map_map]
      exact List.map_congr_left fun rt _ ↦ record_id_refresh env.rules.val rt
    rw [hids]
    exact hw.nodup
  · intro rt hrt
    obtain ⟨rt₀, hmem, rfl⟩ := List.mem_map.mp hrt
    exact (hw.agrees rt₀ hmem).refresh _

/-- The open alarms whose rule is not among those to load. -/
def orphansOf (env : Env) (w : AlarmSystem) : List AlarmEvent :=
  w.services.openEvents.filter fun e ↦ e.ruleId ∉ env.rules.val.map RuleRecord.id

/-- A reload does not fail on an orphan after it has closed the alarm of a rule still loaded. -/
def ReloadsSafely (env : Env) (w : AlarmSystem) : Prop :=
  env.fails .loadRules = false → env.fails .openEvents = false →
    (∃ e ∈ orphansOf env w, env.fails (.updateEvent e.ruleId) = true) →
    ∀ e ∈ (orphansOf env w).takeWhile fun e ↦ !env.fails (.updateEvent e.ruleId),
      ∀ rt ∈ w.engine.rules, rt.record.id ≠ e.ruleId

theorem closeOrphan_of_delivers (henv : env.Delivers) (e : AlarmEvent) (s : Services) :
    closeOrphan env e s = if env.fails (.updateEvent e.ruleId) then
        (s, some (.unavailable (.updateEvent e.ruleId)))
      else ((s.updateEvent e.id ⟨.normal, none, none,
        some (some (e.clearedAt.getD (env.wall (.orphan e.ruleId))))⟩).publish
          ⟨.normal, .orphan e.id .normal⟩, none) := by
  have hpublish : env.fails (.publish e.ruleId) = false := henv _ rfl
  simp [closeOrphan, hpublish]

theorem closeOrphans_cons (henv : env.Delivers) {e : AlarmEvent}
    (hok : env.fails (.updateEvent e.ruleId) = false) (orphans : List AlarmEvent) (s : Services) :
    closeOrphans env (e :: orphans) s = closeOrphans env orphans ((s.updateEvent e.id
      ⟨.normal, none, none, some (some (e.clearedAt.getD (env.wall (.orphan e.ruleId))))⟩).publish
        ⟨.normal, .orphan e.id .normal⟩) := by
  rw [closeOrphans, closeOrphan_of_delivers henv, if_neg (by simp [hok])]

theorem closeOrphans_failure (henv : env.Delivers) {orphans : List AlarmEvent} {s s' : Services}
    {failure : Failure} (h : closeOrphans env orphans s = (s', some failure)) :
    ∃ e ∈ orphans, env.fails (.updateEvent e.ruleId) = true := by
  induction orphans generalizing s with
  | nil => cases h
  | cons e orphans ih =>
    by_cases hfails : env.fails (.updateEvent e.ruleId) = true
    · exact ⟨e, List.mem_cons_self, hfails⟩
    · rw [closeOrphans_cons henv (by simpa using hfails)] at h
      obtain ⟨x, hx, hf⟩ := ih h
      exact ⟨x, List.mem_cons_of_mem e hx, hf⟩

/-- The loop over the orphans, up to the first one that cannot be updated. -/
theorem moves_closeOrphans (henv : env.Delivers) (engine : AlarmEngine) {orphans : List AlarmEvent}
    (hnodup : (orphans.map AlarmEvent.id).Nodup) {s : Services}
    (hopen : ∀ e ∈ orphans, e ∈ s.openEvents)
    (hrule : ∀ e ∈ orphans.takeWhile fun e ↦ !env.fails (.updateEvent e.ruleId),
      ∀ rt ∈ engine.rules, rt.record.id ≠ e.ruleId) :
    Moves ⟨engine, s⟩ ⟨engine, (closeOrphans env orphans s).1⟩ := by
  induction orphans generalizing s with
  | nil => exact .refl
  | cons e orphans ih =>
    rw [List.map_cons] at hnodup
    obtain ⟨hnotin, hnodup'⟩ := List.nodup_cons.mp hnodup
    by_cases hfails : env.fails (.updateEvent e.ruleId) = true
    · rw [closeOrphans, closeOrphan_of_delivers henv, if_pos hfails]
    · rw [closeOrphans_cons henv (by simpa using hfails)]
      rw [List.takeWhile_cons_of_pos (by simp [hfails])] at hrule
      refine .head (.close (hopen e List.mem_cons_self) (hrule e List.mem_cons_self) rfl)
        (ih hnodup' ?_ fun x hx ↦ hrule x (List.mem_cons_of_mem e hx))
      intro x hx
      have hne : x.id ≠ e.id := fun h ↦ hnotin (h ▸ List.mem_map_of_mem hx)
      exact Services.Sound.mem_openEvents_updateEvent (hopen x (List.mem_cons_of_mem e hx)) hne _

theorem nodup_orphansOf (env : Env) (hw : Consistent w) :
    ((orphansOf env w).map AlarmEvent.id).Nodup :=
  hw.sound.nodup.sublist ((List.filter_sublist.trans List.filter_sublist).map _)

/-- The orphans are closed with the new rules loaded: none of them is the alarm of one. -/
theorem moves_orphans (henv : env.Delivers) (hw : Consistent w) :
    Moves ⟨.index (env.rules.val.map (runtimeOf env (w.engine.rules.map (refresh env.rules.val))
        w.services.openEvents)), w.services⟩
      ⟨.index (env.rules.val.map (runtimeOf env (w.engine.rules.map (refresh env.rules.val))
        w.services.openEvents)), (closeOrphans env (orphansOf env w) w.services).1⟩ := by
  refine moves_closeOrphans henv _ (nodup_orphansOf env hw)
    (fun e he ↦ (List.mem_filter.mp he).1) ?_
  intro e he rt hrt heq
  obtain ⟨record, hmem, rfl⟩ := List.mem_map.mp hrt
  rw [record_id_runtimeOf] at heq
  have horphan := (List.mem_filter.mp (List.takeWhile_subset _ he)).2
  exact of_decide_eq_true horphan (heq ▸ List.mem_map_of_mem hmem)

theorem moves_initialEvaluation (henv : env.Delivers) (hw : Consistent w) (fresh : List RuleId) :
    Moves w (initialEvaluation env fresh w).1 := by
  unfold initialEvaluation
  split
  · exact .refl
  · split
    · exact .refl
    · split
      · exact .refl
      · exact moves_forEach (updates_evaluateInitial env) henv hw fresh

/-- **A reload is a change of the loaded rules followed by moves.** -/
theorem moves_load (henv : env.Delivers) (hw : Consistent w) (hload : ReloadsSafely env w) :
    ∃ engine, Consistent ⟨engine, w.services⟩ ∧
      Moves ⟨engine, w.services⟩ (load env w).1 := by
  unfold load
  split
  · exact ⟨w.engine, hw, .refl⟩
  · rename_i hrules
    split
    · exact ⟨w.engine, hw, .refl⟩
    · rename_i hevents
      dsimp only
      split
      · -- an orphan could not be updated: the engine keeps the rules it had
        rename_i s failure hclose
        refine ⟨_, hw.refreshed env, ?_⟩
        have hmoves := moves_closeOrphans henv
          { w.engine with rules := w.engine.rules.map (refresh env.rules.val) }
          (nodup_orphansOf env hw) (fun e he ↦ (List.mem_filter.mp he).1) ?_
        · rw [orphansOf, hclose] at hmoves
          exact hmoves
        · intro e he rt hrt
          obtain ⟨rt₀, hmem, rfl⟩ := List.mem_map.mp hrt
          rw [record_id_refresh]
          exact hload (by simpa using hrules) (by simpa using hevents)
            (closeOrphans_failure henv hclose) e he rt₀ hmem
      · rename_i s hclose
        refine ⟨_, hw.reloaded env, ?_⟩
        have hmoves := moves_orphans henv hw
        rw [orphansOf, hclose] at hmoves
        exact hmoves.trans (moves_initialEvaluation henv ((hw.reloaded env).moves hmoves) _)

/-- **An operation is a change of the loaded rules followed by moves.** -/
theorem step_moves (henv : env.Delivers) (hw : Consistent w) {op : Op}
    (hload : op = .load → ReloadsSafely env w) :
    ∃ engine, Consistent ⟨engine, w.services⟩ ∧
      Moves ⟨engine, w.services⟩ (step env w op) := by
  cases op with
  | load => exact moves_load henv hw (hload rfl)
  | onValue point value =>
    exact ⟨w.engine, hw, moves_forEach (updates_observeValue env value) henv hw _⟩
  | onDeviceStatus device online =>
    exact ⟨w.engine, hw, moves_forEach (updates_update env _ none) henv hw _⟩
  | onBacnetEvent deviceInstance objectType objectInstance toState =>
    exact ⟨w.engine, hw, moves_forEach (updates_update env _ none) henv hw _⟩
  | tick => exact ⟨w.engine, hw, moves_forEach (updates_tickRule env) henv hw _⟩
  | acknowledge eventId user => exact ⟨w.engine, hw, moves_acknowledge henv hw eventId user⟩
  | restart =>
    refine ⟨.empty, ⟨List.nodup_nil, hw.sound, ?_⟩, .refl⟩
    exact fun rt hrt ↦ absurd hrt List.not_mem_nil

end Loading

end Superviseur
