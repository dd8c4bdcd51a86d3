import Superviseur.Alarms.LifeCycle
import Superviseur.Alarms.Runs

/-!
# What leaves the engine

Every write of the store is followed by its message, and every message of a loaded rule by its
notification where the rule has channels. `Emitted` records what a stretch of a run adds to the
history of the store, to the channel and to the notifier, and what it makes of each alarm; it holds
of one move, composes, and so holds of the operations and of whole runs.
-/

namespace Superviseur

/-- The stored state of an alarm. -/
def Services.stateOf (s : Services) (id : EventId) : Option AlarmState :=
  (s.events.find? fun e ↦ e.id = id).map AlarmEvent.state

/-- The messages about one alarm. -/
def messagesOf (id : EventId) (ms : List AlarmMessage) : List AlarmMessage :=
  ms.filter fun m ↦ m.eventId = id

/-- The notification that goes with a message: none for an orphan, nor for a rule without channels.
-/
def AlarmEngine.notificationOf (e : AlarmEngine) (m : AlarmMessage) : Option Notification :=
  match m.event with
  | .orphan _ _ => none
  | .full info =>
    match (e.find? info.ruleId).map RuleRuntime.record with
    | none => none
    | some record =>
      if record.notify = [] then none
      else some (buildNotification info m.transition record.notify)

/-- An alarm whose rule is not loaded. -/
def AlarmSystem.Unloaded (w : AlarmSystem) (id : EventId) : Prop :=
  ∃ e ∈ w.services.events, e.id = id ∧ ∀ rt ∈ w.engine.rules, rt.record.id ≠ e.ruleId

/-- What leads from `w` to `w'` added the writes `hs`, the messages `ms` and the notifications
`ns`. -/
structure Emitted (w : AlarmSystem) (hs : List StoreWrite) (ms : List AlarmMessage)
    (ns : List Notification) (w' : AlarmSystem) : Prop where
  history : w'.services.history = w.services.history ++ hs
  published : w'.services.published = w.services.published ++ ms
  notifications : w'.services.notifications = w.services.notifications ++ ns
  /-- Each write has its message, in the same order. -/
  writes : ms.map (fun m ↦ (m.eventId, m.state)) = hs.map fun h ↦ (h.eventId, h.state)
  notified : ns = ms.filterMap w'.engine.notificationOf
  records : w'.engine.rules.map RuleRuntime.record = w.engine.rules.map RuleRuntime.record
  walk : ∀ id, Walk (w.services.stateOf id) (messagesOf id ms) (w'.services.stateOf id)
  loaded : ∀ m ∈ ms, ∀ info, m.event = .full info → (w'.engine.find? info.ruleId).isSome = true
  orphans : ∀ m ∈ ms, ∀ id state, m.event = .orphan id state → w'.Unloaded id
  kept : ∀ id, w.Unloaded id → w'.Unloaded id

/-! ## The stored state after a write -/

namespace Services

variable {s : Services} {e : AlarmEvent}

theorem Sound.find?_eq (hs : s.Sound) (he : e ∈ s.events) :
    (s.events.find? fun x ↦ x.id = e.id) = some e := by
  cases hfind : s.events.find? fun x ↦ x.id = e.id with
  | none => exact absurd (decide_eq_true rfl) (List.find?_eq_none.mp hfind e he)
  | some x =>
    have hid : x.id = e.id := by simpa using List.find?_some hfind
    rw [hs.eq_of_id he (List.mem_of_find?_eq_some hfind) hid]

theorem Sound.stateOf_eq (hs : s.Sound) (he : e ∈ s.events) : s.stateOf e.id = some e.state := by
  rw [stateOf, hs.find?_eq he]
  rfl

theorem stateOf_freshId (s : Services) : s.stateOf s.freshId = none := by
  rw [stateOf, Option.map_eq_none_iff, List.find?_eq_none]
  intro e he
  simpa using (lt_freshId he).ne

theorem find?_updateEvent (s : Services) (id id' : EventId) (values : EventValues) :
    ((s.updateEvent id values).events.find? fun e ↦ e.id = id')
      = (s.events.find? fun e ↦ e.id = id').map (rewrite id values) := by
  rw [events_updateEvent, List.find?_map]
  congr 2
  funext e
  rw [Function.comp_apply, rewrite_id]

theorem Sound.stateOf_updateEvent (hs : s.Sound) (he : e ∈ s.events) (values : EventValues) :
    (s.updateEvent e.id values).stateOf e.id = some values.state := by
  rw [stateOf, find?_updateEvent, hs.find?_eq he, Option.map_some, rewrite_self]
  rfl

theorem stateOf_updateEvent_of_ne {id id' : EventId} (h : id' ≠ id) (values : EventValues) :
    (s.updateEvent id values).stateOf id' = s.stateOf id' := by
  rw [stateOf, find?_updateEvent, stateOf, Option.map_map]
  cases hfind : s.events.find? fun e ↦ e.id = id' with
  | none => rfl
  | some e =>
    have hid : e.id = id' := by simpa using List.find?_some hfind
    rw [Option.map_some, Function.comp_apply, rewrite_of_ne (by rwa [hid])]
    rfl

theorem stateOf_inserted (s : Services) (rule : RuleId) (raisedAt : Instant)
    (raisedValue : Option PyFloat) (id : EventId) :
    (s.inserted rule raisedAt raisedValue).stateOf id =
      if id = s.freshId then some .activeUnacked else s.stateOf id := by
  rw [stateOf, inserted, List.find?_append]
  by_cases h : id = s.freshId
  · have hnone := s.stateOf_freshId
    rw [stateOf, Option.map_eq_none_iff] at hnone
    rw [if_pos h, h, hnone]
    simp [newEvent]
  · have hne : ¬ s.freshId = id := fun heq ↦ h heq.symm
    rw [if_neg h, stateOf]
    simp [newEvent, hne]

@[simp] theorem stateOf_publish (s : Services) (m : AlarmMessage) (id : EventId) :
    (s.publish m).stateOf id = s.stateOf id := rfl

@[simp] theorem stateOf_announced (s : Services) (info : AlarmInfo) (kind : TransitionKind)
    (channels : List String) (id : EventId) :
    (s.announced info kind channels).stateOf id = s.stateOf id := by
  rw [stateOf, events_announced, stateOf]

end Services

/-! ## One write -/

section Write

variable {rt : RuleRuntime} {s s' : Services} {id : EventId} {state : AlarmState}

/-- The row is left in the state written, from the state of the machine; the other rows keep
theirs. -/
theorem Written.stateOf (hs : s.Sound) (ha : Agrees rt s) (h : Written rt s id state s') :
    (s.stateOf id = if rt.machine.state.isOpen then some rt.machine.state else none) ∧
      s'.stateOf id = some state ∧ ∀ id', id' ≠ id → s'.stateOf id' = s.stateOf id' := by
  rcases ha with ⟨hclosed, hnone, -⟩ | ⟨e, hisOpen, hid, hopen, heq, -⟩
  · rcases h with ⟨-, raisedAt, raisedValue⟩ | ⟨hsome, values⟩
    · rw [hclosed]
      refine ⟨s.stateOf_freshId, ?_, ?_⟩
      · rw [Services.stateOf_inserted, if_pos rfl]
      · intro id' hne
        rw [Services.stateOf_inserted, if_neg hne]
    · rw [hnone] at hsome
      cases hsome
  · rcases h with ⟨hnone, raisedAt, raisedValue⟩ | ⟨hsome, values⟩
    · rw [hid] at hnone
      cases hnone
    · obtain ⟨hmem, -, -⟩ := Services.mem_openOf.mp (hopen ▸ List.mem_singleton_self e)
      rw [hid, Option.some.injEq] at hsome
      subst hsome
      rw [hisOpen, if_pos rfl, ← heq]
      exact ⟨hs.stateOf_eq hmem, hs.stateOf_updateEvent hmem values,
        fun id' hne ↦ Services.stateOf_updateEvent_of_ne hne values⟩

theorem Written.history (h : Written rt s id state s') :
    ∃ write : StoreWrite, s'.history = s.history ++ [write] ∧ write.eventId = id ∧
      write.state = state ∧ s'.published = s.published ∧ s'.notifications = s.notifications := by
  rcases h with ⟨-, raisedAt, raisedValue⟩ | ⟨-, values⟩
  · exact ⟨.create (s.newEvent rt.record.id raisedAt raisedValue), rfl, rfl, rfl, rfl, rfl⟩
  · exact ⟨.update id values, rfl, rfl, rfl, rfl, rfl⟩

theorem Written.kept (h : Written rt s id state s') :
    ∀ e ∈ s.events, ∃ e' ∈ s'.events, e'.id = e.id ∧ e'.ruleId = e.ruleId := by
  intro e he
  rcases h with ⟨-, raisedAt, raisedValue⟩ | ⟨-, values⟩
  · exact ⟨e, List.mem_append_left _ he, rfl, rfl⟩
  · exact ⟨Services.rewrite id values e, List.mem_map_of_mem he, by simp, by simp⟩

/-- The message of a stored transition is a step of the life of its alarm. -/
theorem Stored.link (hs : s.Sound) (ha : Agrees rt s) {t : Transition} (ht : t.IsEdge)
    (hfrom : t.fromState = rt.machine.state ∨
      rt.machine.state = .normal ∧ t.fromState = .pending)
    {info : AlarmInfo} (hinfo : info.state = t.toState) (h : Written rt s id t.toState s') :
    Link (s.stateOf id) ⟨t.kind, .full info⟩ (s'.stateOf id) := by
  obtain ⟨hbefore, hafter, -⟩ := h.stateOf hs ha
  rw [hbefore, hafter]
  by_cases hopen : rt.machine.state.isOpen = true
  · rw [if_pos hopen]
    refine .edge hopen ?_ hinfo
    rcases hfrom with hfrom | ⟨hnormal, -⟩
    · rw [← hfrom]
      exact ht
    · rw [hnormal] at hopen
      cases hopen
  · have hclosed : t.fromState.isOpen = false := by
      rcases hfrom with hfrom | ⟨-, hpending⟩
      · rw [hfrom]
        simpa using hopen
      · rw [hpending]
        rfl
    obtain ⟨-, hkind, hto⟩ := Edge.of_not_isOpen ht hclosed
    rw [if_neg hopen, hkind, hto]
    exact .raised (hinfo.trans hto)

end Write

namespace Services

theorem published_announced (s : Services) (info : AlarmInfo) (kind : TransitionKind)
    (channels : List String) :
    (s.announced info kind channels).published = s.published ++ [⟨kind, .full info⟩] := by
  unfold announced
  split <;> rfl

theorem notifications_announced (s : Services) (info : AlarmInfo) (kind : TransitionKind)
    (channels : List String) :
    (s.announced info kind channels).notifications = s.notifications ++
      if channels = [] then [] else [buildNotification info kind channels] := by
  unfold announced
  split
  · exact (List.append_nil _).symm
  · rfl

end Services

/-! ## One move -/

section Move

variable {w w' w'' : AlarmSystem}

theorem AlarmEngine.find?_record (e : AlarmEngine) (rule : RuleId) :
    (e.find? rule).map RuleRuntime.record
      = (e.rules.map RuleRuntime.record).find? fun record ↦ record.id = rule := by
  rw [List.find?_map]
  rfl

theorem AlarmEngine.records_set {e : AlarmEngine} {rt x : RuleRuntime} (hrt : rt ∈ e.rules)
    (hnodup : (e.rules.map fun rt ↦ rt.record.id).Nodup) (hrecord : x.record = rt.record) :
    (e.set x).rules.map RuleRuntime.record = e.rules.map RuleRuntime.record := by
  rw [AlarmEngine.set, List.map_map]
  refine List.map_congr_left fun y hy ↦ ?_
  rw [Function.comp_apply]
  split
  · rename_i hid
    rw [hrecord] at hid
    rw [hrecord, List.inj_on_of_nodup_map hnodup hy hrt hid]
  · rfl

theorem AlarmEngine.isSome_find?_congr {e e' : AlarmEngine}
    (h : e'.rules.map RuleRuntime.record = e.rules.map RuleRuntime.record) (rule : RuleId) :
    (e'.find? rule).isSome = (e.find? rule).isSome := by
  have hmap : ((e'.find? rule).map RuleRuntime.record).isSome
      = ((e.find? rule).map RuleRuntime.record).isSome := by
    rw [AlarmEngine.find?_record, AlarmEngine.find?_record, h]
  rwa [Option.isSome_map, Option.isSome_map] at hmap

theorem AlarmEngine.notificationOf_congr {e e' : AlarmEngine}
    (h : e'.rules.map RuleRuntime.record = e.rules.map RuleRuntime.record) (m : AlarmMessage) :
    e'.notificationOf m = e.notificationOf m := by
  unfold AlarmEngine.notificationOf
  simp only [AlarmEngine.find?_record, h]

theorem AlarmSystem.Unloaded.of_records {id : EventId} (h : w.Unloaded id)
    (hrecords : w'.engine.rules.map RuleRuntime.record = w.engine.rules.map RuleRuntime.record)
    (hkept : ∀ e ∈ w.services.events, ∃ e' ∈ w'.services.events,
      e'.id = e.id ∧ e'.ruleId = e.ruleId) : w'.Unloaded id := by
  obtain ⟨e, he, hid, hrule⟩ := h
  obtain ⟨e', he', hid', hrule'⟩ := hkept e he
  refine ⟨e', he', hid'.trans hid, ?_⟩
  intro rt' hrt'
  have hmem : rt'.record ∈ w.engine.rules.map RuleRuntime.record := by
    rw [← hrecords]
    exact List.mem_map_of_mem hrt'
  obtain ⟨rt, hrt, heq⟩ := List.mem_map.mp hmem
  rw [hrule', ← heq]
  exact hrule rt hrt

theorem Emitted.refl (w : AlarmSystem) : Emitted w [] [] [] w where
  history := (List.append_nil _).symm
  published := (List.append_nil _).symm
  notifications := (List.append_nil _).symm
  writes := rfl
  notified := rfl
  records := rfl
  walk _ := .nil _
  loaded _ h := absurd h List.not_mem_nil
  orphans _ h := absurd h List.not_mem_nil
  kept _ h := h

theorem Emitted.trans {hs hs' : List StoreWrite} {ms ms' : List AlarmMessage}
    {ns ns' : List Notification} (h : Emitted w hs ms ns w') (h' : Emitted w' hs' ms' ns' w'') :
    Emitted w (hs ++ hs') (ms ++ ms') (ns ++ ns') w'' where
  history := by rw [h'.history, h.history, List.append_assoc]
  published := by rw [h'.published, h.published, List.append_assoc]
  notifications := by rw [h'.notifications, h.notifications, List.append_assoc]
  writes := by rw [List.map_append, List.map_append, h.writes, h'.writes]
  notified := by
    have hcongr : w'.engine.notificationOf = w''.engine.notificationOf :=
      funext fun m ↦ (AlarmEngine.notificationOf_congr h'.records m).symm
    rw [List.filterMap_append, h'.notified, h.notified, hcongr]
  records := h'.records.trans h.records
  walk id := by
    rw [messagesOf, List.filter_append]
    exact (h.walk id).append (h'.walk id)
  loaded m hm info hevent := by
    rcases List.mem_append.mp hm with hm | hm
    · rw [AlarmEngine.isSome_find?_congr h'.records]
      exact h.loaded m hm info hevent
    · exact h'.loaded m hm info hevent
  orphans m hm id state hevent := by
    rcases List.mem_append.mp hm with hm | hm
    · exact h'.kept id (h.orphans m hm id state hevent)
    · exact h'.orphans m hm id state hevent
  kept id hid := h'.kept id (h.kept id hid)

/-- The walks of one message: a step for its alarm, none for the others. -/
theorem walk_single {s s' : Services} {m : AlarmMessage}
    (h : Link (s.stateOf m.eventId) m (s'.stateOf m.eventId))
    (hne : ∀ id, id ≠ m.eventId → s'.stateOf id = s.stateOf id) (id : EventId) :
    Walk (s.stateOf id) (messagesOf id [m]) (s'.stateOf id) := by
  by_cases hid : id = m.eventId
  · subst hid
    rw [messagesOf, List.filter_cons_of_pos (by simp)]
    exact .single h
  · rw [messagesOf, List.filter_cons_of_neg (by simpa using fun h ↦ hid h.symm), hne id hid]
    exact .nil _

theorem emitted_of_quiet {e : AlarmEngine}
    (hrecords : e.rules.map RuleRuntime.record = w.engine.rules.map RuleRuntime.record) :
    Emitted w [] [] [] ⟨e, w.services⟩ where
  history := (List.append_nil _).symm
  published := (List.append_nil _).symm
  notifications := (List.append_nil _).symm
  writes := rfl
  notified := rfl
  records := hrecords
  walk _ := .nil _
  loaded _ h := absurd h List.not_mem_nil
  orphans _ h := absurd h List.not_mem_nil
  kept _ h := h.of_records hrecords fun e he ↦ ⟨e, he, rfl, rfl⟩

theorem Consistent.find?_eq {rt : RuleRuntime} (hw : Consistent w) (hrt : rt ∈ w.engine.rules) :
    w.engine.find? rt.record.id = some rt := by
  rw [AlarmEngine.find?]
  cases hfind : w.engine.rules.find? fun x ↦ x.record.id = rt.record.id with
  | none => exact absurd (decide_eq_true rfl) (List.find?_eq_none.mp hfind rt hrt)
  | some x =>
    have hx : x.record.id = rt.record.id := by simpa using List.find?_some hfind
    rw [List.inj_on_of_nodup_map hw.nodup (List.mem_of_find?_eq_some hfind) hrt hx]

theorem Consistent.notificationOf_eq {rt : RuleRuntime} (hw : Consistent w)
    (hrt : rt ∈ w.engine.rules) {info : AlarmInfo} (hinfo : info.ruleId = rt.record.id)
    (kind : TransitionKind) :
    [(⟨kind, .full info⟩ : AlarmMessage)].filterMap w.engine.notificationOf
      = if rt.record.notify = [] then [] else [buildNotification info kind rt.record.notify] := by
  have hnotification : w.engine.notificationOf ⟨kind, .full info⟩
      = if rt.record.notify = [] then none
        else some (buildNotification info kind rt.record.notify) := by
    simp only [AlarmEngine.notificationOf, hinfo, hw.find?_eq hrt, Option.map_some]
  rw [List.filterMap_cons, hnotification]
  by_cases h : rt.record.notify = [] <;> simp [h]

theorem emitted_of_stored {rt : RuleRuntime} {x : Scope} (hw : Consistent w)
    (hrt : rt ∈ w.engine.rules) {t : Transition} {id : EventId} (hedge : t.IsEdge)
    (hfrom : t.fromState = rt.machine.state ∨
      rt.machine.state = .normal ∧ t.fromState = .pending)
    (h : Stored t rt w.services id x.runtime x.services) :
    ∃ write m, Emitted w [write] [m] ([m].filterMap w.engine.notificationOf)
      ⟨w.engine.set x.runtime, x.services⟩ := by
  obtain ⟨⟨s₁, info, hwritten, hs', hinfoId, hinfoRule, hinfoState⟩, hrecord, -, -⟩ := h
  obtain ⟨write, hhistory, hwriteId, hwriteState, hpublished, hnotified⟩ := hwritten.history
  have ha := hw.agrees rt hrt
  have hrecords := AlarmEngine.records_set hrt hw.nodup hrecord
  -- the message goes from the state the event had to the one that is written
  have hlink : Link (w.services.stateOf id) ⟨t.kind, .full info⟩ (s₁.stateOf id) :=
    Stored.link hw.sound ha hedge hfrom hinfoState hwritten
  refine ⟨write, ⟨t.kind, .full info⟩, ?_⟩
  exact {
    history := by rw [hs', Services.history_announced, hhistory]
    published := by rw [hs', Services.published_announced, hpublished]
    notifications := by
      rw [hs', Services.notifications_announced, hnotified, hw.notificationOf_eq hrt hinfoRule]
    writes := by
      have hstate : info.state = write.state := hinfoState.trans hwriteState.symm
      have hid : info.eventId = write.eventId := hinfoId.trans hwriteId.symm
      simp [AlarmMessage.eventId, AlarmMessage.state, hstate, hid]
    notified := by
      congr 1
      exact funext fun m ↦ (AlarmEngine.notificationOf_congr hrecords m).symm
    records := hrecords
    walk := by
      have hafter : ∀ id, x.services.stateOf id = s₁.stateOf id := fun id ↦ by
        rw [hs', Services.stateOf_announced]
      refine walk_single ?_ ?_
      · rw [hafter]
        show Link (w.services.stateOf info.eventId) _ (s₁.stateOf info.eventId)
        rw [hinfoId]
        exact hlink
      · intro id' hne
        rw [hafter]
        exact (hwritten.stateOf hw.sound ha).2.2 id' (hinfoId ▸ hne)
    loaded := by
      intro m hm info' hevent
      rw [List.mem_singleton.mp hm] at hevent
      cases hevent
      rw [AlarmEngine.isSome_find?_congr hrecords, hinfoRule, hw.find?_eq hrt]
      rfl
    orphans := by
      intro m hm id' state hevent
      rw [List.mem_singleton.mp hm] at hevent
      cases hevent
    kept := by
      refine fun id' hid ↦ hid.of_records hrecords fun e he ↦ ?_
      rw [hs', Services.events_announced]
      exact hwritten.kept e he }

theorem emitted_of_close {e : AlarmEvent} (hw : Consistent w) (he : e ∈ w.services.openEvents)
    (hrule : ∀ rt ∈ w.engine.rules, rt.record.id ≠ e.ruleId) {values : EventValues}
    (hvalues : values.state = .normal) :
    Emitted w [.update e.id values] [⟨.normal, .orphan e.id .normal⟩] [] ⟨w.engine,
      (w.services.updateEvent e.id values).publish ⟨.normal, .orphan e.id .normal⟩⟩ := by
  obtain ⟨hmem, hopen⟩ := Services.mem_openEvents.mp he
  have hkept : ∀ x ∈ w.services.events, ∃ x' ∈ (w.services.updateEvent e.id values).events,
      x'.id = x.id ∧ x'.ruleId = x.ruleId := fun x hx ↦
    ⟨Services.rewrite e.id values x, List.mem_map_of_mem hx, by simp, by simp⟩
  exact {
    history := rfl
    published := rfl
    notifications := (List.append_nil _).symm
    writes := by simp [AlarmMessage.eventId, AlarmMessage.state, StoreWrite.eventId,
      StoreWrite.state, hvalues]
    notified := rfl
    records := rfl
    walk := by
      refine walk_single ?_ ?_
      · have hisOpen : e.state.isOpen = true := by
          have hstored := hw.sound.stored e hmem
          cases h : e.state <;> simp_all [AlarmState.isOpen]
        show Link (w.services.stateOf e.id) _ ((w.services.updateEvent e.id values).stateOf e.id)
        rw [hw.sound.stateOf_eq hmem, hw.sound.stateOf_updateEvent hmem, hvalues]
        exact .orphan hisOpen
      · exact fun id hne ↦ Services.stateOf_updateEvent_of_ne hne values
    loaded := by
      intro m hm info hevent
      rw [List.mem_singleton.mp hm] at hevent
      cases hevent
    orphans := by
      intro m hm id state hevent
      rw [List.mem_singleton.mp hm] at hevent
      cases hevent
      obtain ⟨x, hx, hid, hxrule⟩ := hkept e hmem
      exact ⟨x, hx, hid, fun rt hrt ↦ hxrule ▸ hrule rt hrt⟩
    kept := fun id hid ↦ hid.of_records rfl hkept }

/-- **A move writes, publishes and notifies once or not at all.** -/
theorem Move.emitted (hw : Consistent w) (h : Move w w') : ∃ hs ms ns, Emitted w hs ms ns w' := by
  rcases h with @⟨rt, x, hrt, hprogress⟩ | @⟨e, he, hrule, values, hvalues⟩
  · rcases hprogress with ⟨hsame, hservices, -⟩ | ⟨t, id, hedge, hfrom, -, hstored⟩
    · rw [hservices]
      exact ⟨[], [], [], emitted_of_quiet (AlarmEngine.records_set hrt hw.nodup hsame.record)⟩
    · obtain ⟨write, m, h⟩ := emitted_of_stored hw hrt hedge hfrom hstored
      exact ⟨_, _, _, h⟩
  · exact ⟨_, _, _, emitted_of_close hw he hrule hvalues⟩

theorem Moves.emitted (hw : Consistent w) (h : Moves w w') :
    ∃ hs ms ns, Emitted w hs ms ns w' := by
  induction h with
  | refl => exact ⟨[], [], [], .refl w⟩
  | tail hmoves hmove ih =>
    obtain ⟨hs, ms, ns, hemitted⟩ := ih
    obtain ⟨hs', ms', ns', hemitted'⟩ := hmove.emitted (hw.moves hmoves)
    exact ⟨_, _, _, hemitted.trans hemitted'⟩

end Move

/-! ## Runs -/

theorem step_emitted {env : Env} {op : Op} {w : AlarmSystem} (hw : Consistent w)
    (h : Orderly env op w) :
    ∃ engine hs ms ns, Emitted ⟨engine, w.services⟩ hs ms ns (step env w op) := by
  obtain ⟨engine, hengine, hmoves⟩ := step_moves h.1 hw h.2
  exact ⟨engine, Moves.emitted hengine hmoves⟩

/-- What happened between two states of the services: each write had its message, and each alarm
went through the diagram. -/
def Told (s s' : Services) : Prop :=
  ∃ hs ms, s'.history = s.history ++ hs ∧ s'.published = s.published ++ ms ∧
    ms.map (fun m ↦ (m.eventId, m.state)) = hs.map (fun h ↦ (h.eventId, h.state)) ∧
    ∀ id, Walk (s.stateOf id) (messagesOf id ms) (s'.stateOf id)

theorem Told.refl (s : Services) : Told s s :=
  ⟨[], [], (List.append_nil _).symm, (List.append_nil _).symm, rfl, fun _ ↦ .nil _⟩

theorem Told.trans {s s' s'' : Services} (h : Told s s') (h' : Told s' s'') : Told s s'' := by
  obtain ⟨hs, ms, hhistory, hpublished, hwrites, hwalk⟩ := h
  obtain ⟨hs', ms', hhistory', hpublished', hwrites', hwalk'⟩ := h'
  refine ⟨hs ++ hs', ms ++ ms', ?_, ?_, ?_, ?_⟩
  · rw [hhistory', hhistory, List.append_assoc]
  · rw [hpublished', hpublished, List.append_assoc]
  · rw [List.map_append, List.map_append, hwrites, hwrites']
  · intro id
    rw [messagesOf, List.filter_append]
    exact (hwalk id).append (hwalk' id)

theorem told_of_run {s : Services} (hs : s.Sound) {is : List (Env × Op)} {w : AlarmSystem}
    (h : Run Orderly s is w) : Told s w.services := by
  refine h.relate Consistent (fun w w' ↦ Told w.services w'.services) (fun w ↦ .refl w.services)
    (fun h h' ↦ h.trans h') ?_ (consistent_empty hs)
  rintro w i w' hw ⟨horderly, rfl⟩
  refine ⟨hw.step horderly, ?_⟩
  obtain ⟨engine, hs, ms, ns, hemitted⟩ := step_emitted hw horderly
  exact ⟨hs, ms, hemitted.history, hemitted.published, hemitted.writes, hemitted.walk⟩

/-- The services over a table, before anything has been written or published. -/
def Services.ofEvents (events : List AlarmEvent) : Services := ⟨events, [], [], []⟩

/-- The messages `ms` about one alarm tell its writes `hs` exactly once each, along the diagram,
from the stored state `start` to `finish`. -/
structure ToldOnce (start finish : Option AlarmState) (hs : List StoreWrite)
    (ms : List AlarmMessage) : Prop where
  writes : ms.map AlarmMessage.state = hs.map StoreWrite.state
  walk : Walk start ms finish
  raisedFirst : start = none → ∀ m rest, ms = m :: rest →
    m.transition = .raised ∧ m.state = .activeUnacked
  neverTwice : (start :: ms.map fun m ↦ some m.state).IsChain (· ≠ ·)
  ackedOnce : ms.countP (fun m ↦ m.transition = .acked) ≤ 1
  normalLast : ∀ pre m post, ms = pre ++ m :: post → m.state = .normal → post = []

theorem map_state_filter {hs : List StoreWrite} {ms : List AlarmMessage}
    (h : ms.map (fun m ↦ (m.eventId, m.state)) = hs.map fun h ↦ (h.eventId, h.state))
    (id : EventId) :
    (messagesOf id ms).map AlarmMessage.state
      = (hs.filter fun h ↦ h.eventId = id).map StoreWrite.state := by
  have hpairs : ∀ l : List AlarmMessage, (messagesOf id l).map AlarmMessage.state
      = ((l.map fun m ↦ (m.eventId, m.state)).filter fun p ↦ p.1 = id).map Prod.snd := by
    intro l
    rw [List.filter_map, List.map_map]
    rfl
  rw [hpairs, h, List.filter_map, List.map_map]
  rfl

/-- **Each write is told exactly once, along the diagram.** -/
theorem life_cycle_told_once {events : List AlarmEvent} (hs : (Services.ofEvents events).Sound)
    {is : List (Env × Op)} {w : AlarmSystem} (h : Run Orderly (.ofEvents events) is w) :
    (w.services.published.map (fun m ↦ (m.eventId, m.state))
        = w.services.history.map fun h ↦ (h.eventId, h.state)) ∧
      (∀ id, ToldOnce ((Services.ofEvents events).stateOf id) (w.services.stateOf id)
        (w.services.history.filter fun h ↦ h.eventId = id)
        (messagesOf id w.services.published)) ∧
      ∀ env op, Orderly env op w → ∃ ms,
        (step env w op).services.published = w.services.published ++ ms ∧
        (step env w op).services.notifications = w.services.notifications
          ++ ms.filterMap (step env w op).engine.notificationOf ∧
        (∀ m ∈ ms, ∀ info, m.event = .full info →
          ((step env w op).engine.find? info.ruleId).isSome = true) ∧
        ∀ m ∈ ms, ∀ id state, m.event = .orphan id state → (step env w op).Unloaded id := by
  obtain ⟨writes, ms, hhistory, hpublished, hwrites, hwalk⟩ := told_of_run hs h
  have hhistory' : w.services.history = writes := hhistory
  have hpublished' : w.services.published = ms := hpublished
  rw [hhistory', hpublished']
  refine ⟨hwrites, ?_, ?_⟩
  · intro id
    have hid := hwalk id
    exact {
      writes := map_state_filter hwrites id
      walk := hid
      raisedFirst := by
        intro hstart m rest heq
        rw [hstart, heq] at hid
        exact hid.head_raised
      neverTwice := hid.isChain
      ackedOnce := hid.countP_acked_le.2
      normalLast := by
        intro pre m post heq
        rw [heq] at hid
        exact hid.nothing_after_normal }
  · intro env op horderly
    obtain ⟨engine, hs', ms', ns', hemitted⟩ := step_emitted (consistent_of_run hs h) horderly
    have hpublished'' := hemitted.published
    have hnotifications := hemitted.notifications
    rw [hemitted.notified] at hnotifications
    dsimp only at hpublished'' hnotifications
    rw [hpublished'] at hpublished''
    exact ⟨ms', hpublished'', hnotifications, hemitted.loaded, hemitted.orphans⟩

theorem life_cycle_told_once_lost :
    (lostRunEnd (failing [.createEvent 1]) (failing [])).services.published.map
        (fun m ↦ (m.eventId, m.state)) = [(1, .activeUnacked)] ∧
      ToldOnce none (some .activeUnacked)
        ((lostRunEnd (failing [.createEvent 1]) (failing [])).services.history.filter
          fun h ↦ h.eventId = 1)
        (messagesOf 1 (lostRunEnd (failing [.createEvent 1]) (failing [])).services.published) := by
  have hrun : Run Orderly (.ofEvents []) (lostRun (failing [.createEvent 1]) (failing []))
      (lostRunEnd (failing [.createEvent 1]) (failing [])) := orderly_lostRun
  have hstate : (lostRunEnd (failing [.createEvent 1]) (failing [])).services.stateOf 1
      = some .activeUnacked := by decide +kernel
  refine ⟨by decide +kernel, ?_⟩
  rw [← hstate]
  exact (life_cycle_told_once Services.sound_empty hrun).2.1 1

/-! ### A reload that stops half way -/

/-- The second rule of the same device. -/
def lostRule' : RuleRecord := { lostRule with id := 2 }

/-- An environment in which the rules listed are enabled. -/
def enabling (rules : { l : List RuleRecord // (l.map RuleRecord.id).Nodup })
    (calls : List Call) : Env :=
  { failing calls with rules := rules }

/-- Two alarms are raised, both rules are disabled, and the reload cannot close the second alarm.
The first rule stays loaded although its alarm is closed. -/
def halfReload : List (Env × Op) :=
  [(enabling ⟨[lostRule, lostRule'], by decide⟩ [], .load), (failing [], .onDeviceStatus 7 false),
    (enabling ⟨[], List.nodup_nil⟩ [.updateEvent 2], .load), (failing [], .onDeviceStatus 7 true)]

/-- Where it ends. -/
def halfReloadEnd : AlarmSystem :=
  halfReload.foldl (fun w i ↦ step i.1 w i.2) ⟨.empty, .ofEvents []⟩

/-- The bus delivers; any call of the store may fail. -/
def BusDelivers (env : Env) (_ : Op) (_ : AlarmSystem) : Prop := env.Delivers

/-- The first alarm is published `normal`, then `cleared_unacked`. -/
theorem normal_not_last : ¬ ∀ (events : List AlarmEvent) (is : List (Env × Op)) (w : AlarmSystem),
    (Services.ofEvents events).Sound → Run BusDelivers (.ofEvents events) is w → ∀ id,
      ToldOnce ((Services.ofEvents events).stateOf id) (w.services.stateOf id)
        (w.services.history.filter fun h ↦ h.eventId = id)
        (messagesOf id w.services.published) := by
  intro h
  have hdelivers : ∀ rules calls, (∀ call ∈ calls, call.isStore = true) →
      (enabling rules calls).Delivers := fun _ _ hcalls ↦ failing_delivers hcalls
  have hrun : Run BusDelivers (.ofEvents []) halfReload halfReloadEnd :=
    .cons ⟨hdelivers _ _ (by decide), rfl⟩ (.cons ⟨failing_delivers (by decide), rfl⟩
      (.cons ⟨hdelivers _ _ (by decide), rfl⟩ (.single ⟨failing_delivers (by decide), rfl⟩)))
  have htold := h [] halfReload halfReloadEnd Services.sound_empty hrun 1
  have hstates : (messagesOf 1 halfReloadEnd.services.published).map AlarmMessage.state
      = [.activeUnacked, .normal, .clearedUnacked] := by decide +kernel
  obtain ⟨m, ms, hms, -, hstates⟩ := List.map_eq_cons_iff.mp hstates
  obtain ⟨m', ms', hms', hnormal, hstates⟩ := List.map_eq_cons_iff.mp hstates
  have hnil := htold.normalLast [m] m' ms' (by rw [hms, hms']; rfl) hnormal
  rw [hnil] at hstates
  cases hstates

end Superviseur
