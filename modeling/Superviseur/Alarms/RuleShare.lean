import Superviseur.Alarms.Outage

/-!
# One rule in the services

The services hold rows, messages and notifications about many rules. The turn of a rule leaves the
share of the others as it is (`Progress.share_of_ne`), so that an operation, seen from one rule, is
its turn (`HadTurn`) or nothing (`Untouched`); and the turn adds to its own share what its
transition says (`Stored.told`).
-/

namespace Superviseur

/-- What the services hold about one rule. -/
structure Share where
  rows : List AlarmEvent
  messages : List AlarmMessage
  notifications : List Notification

def Services.share (s : Services) (rule : RuleId) : Share where
  rows := s.events.filter fun e ↦ e.ruleId = rule
  messages := s.published.filter (AlarmMessage.ofRule rule)
  notifications := s.notifications.filter fun n ↦ n.payload.ruleId = rule

section Share

variable {s s' : Services} {rule : RuleId} {rt rt' : RuleRuntime} {id : EventId}
  {state : AlarmState} {t : Transition}

theorem share_announced_of_ne (s : Services) {info : AlarmInfo} (h : info.ruleId ≠ rule)
    (kind : TransitionKind) (channels : List String) :
    (s.announced info kind channels).share rule = s.share rule := by
  have hmessage : AlarmMessage.ofRule rule ⟨kind, .full info⟩ = false := decide_eq_false h
  have hpayload : (buildNotification info kind channels).payload.ruleId ≠ rule := h
  unfold Services.announced Services.share
  split
  · rw [Services.publish, List.filter_append, List.filter_cons_of_neg (by simp [hmessage]),
      List.filter_nil, List.append_nil]
  · rw [Services.submit, Services.publish, List.filter_append, List.filter_append,
      List.filter_cons_of_neg (by simp [hmessage]),
      List.filter_cons_of_neg (by simpa using hpayload), List.filter_nil, List.filter_nil,
      List.append_nil, List.append_nil]

theorem Written.share_of_ne (hs : s.Sound) (ha : Agrees rt s) (h : Written rt s id state s')
    (hne : rt.record.id ≠ rule) : s'.share rule = s.share rule := by
  rcases h with ⟨hid, raisedAt, raisedValue⟩ | ⟨hid, values⟩
  · have hnew : (s.newEvent rt.record.id raisedAt raisedValue).ruleId ≠ rule := hne
    rw [Services.share, Services.inserted, List.filter_append,
      List.filter_cons_of_neg (by simpa using hnew), List.filter_nil, List.append_nil]
    rfl
  · rcases ha with ⟨-, hnone, -⟩ | ⟨e, -, hsome, hopen, -, -⟩
    · rw [hnone] at hid
      cases hid
    · obtain ⟨hmem, hrule, -⟩ := Services.mem_openOf.mp (hopen ▸ List.mem_singleton_self e)
      obtain rfl := Option.some.inj (hsome.symm.trans hid)
      -- the row written is not in the share
      have hself : ∀ x ∈ s.events.filter (fun x ↦ decide (x.ruleId = rule)),
          Services.rewrite e.id values x = x := by
        intro x hx
        obtain ⟨hx, hxrule⟩ := List.mem_filter.mp hx
        refine Services.rewrite_of_ne (fun heq ↦ hne ?_) values
        rw [← hrule, ← hs.eq_of_id hmem hx heq, of_decide_eq_true hxrule]
      have hrows : (s.updateEvent e.id values).events.filter (fun x ↦ decide (x.ruleId = rule))
          = s.events.filter fun x ↦ decide (x.ruleId = rule) := by
        rw [Services.events_updateEvent, List.filter_map]
        have hfilter : s.events.filter ((fun x ↦ decide (x.ruleId = rule)) ∘
            Services.rewrite e.id values) = s.events.filter fun x ↦ decide (x.ruleId = rule) := by
          refine List.filter_congr fun x _ ↦ ?_
          rw [Function.comp_apply, Services.rewrite_ruleId]
        rw [hfilter, List.map_congr_left hself, List.map_id']
      rw [Services.share, hrows]
      rfl

/-- **A turn leaves the share of the other rules.** -/
theorem Progress.share_of_ne {x : Scope} (hs : s.Sound) (ha : Agrees rt s)
    (h : Progress ⟨rt, s⟩ x) (hne : rt.record.id ≠ rule) :
    x.services.share rule = s.share rule := by
  rcases h with ⟨-, hservices, -⟩ | ⟨t, id, -, -, -, hstored⟩
  · rw [hservices]
  · obtain ⟨⟨s₁, info, hwritten, hs', -, hinfo, -⟩, -⟩ := hstored
    rw [hs', share_announced_of_ne s₁ (by rwa [hinfo]), hwritten.share_of_ne hs ha hne]

/-- The identifiers of the rows after a write: a new one, or the same. -/
theorem Written.ids_share (h : Written rt s id state s') :
    (s'.share rt.record.id).rows.map AlarmEvent.id
      = (s.share rt.record.id).rows.map AlarmEvent.id
        ++ if rt.eventId = none then [id] else [] := by
  rcases h with ⟨hid, raisedAt, raisedValue⟩ | ⟨hid, values⟩
  · have hnew : (s.newEvent rt.record.id raisedAt raisedValue).ruleId = rt.record.id := rfl
    rw [if_pos hid, Services.share, Services.inserted, List.filter_append,
      List.filter_cons_of_pos (by simpa using hnew), List.filter_nil, List.map_append]
    rfl
  · have hfilter : s.events.filter ((fun x ↦ decide (x.ruleId = rt.record.id)) ∘
        Services.rewrite id values) = s.events.filter fun x ↦ decide (x.ruleId = rt.record.id) := by
      refine List.filter_congr fun x _ ↦ ?_
      rw [Function.comp_apply, Services.rewrite_ruleId]
    rw [if_neg (by rw [hid]; simp), List.append_nil, Services.share, Services.events_updateEvent,
      List.filter_map, hfilter, List.map_map]
    exact List.map_congr_left fun x _ ↦ Services.rewrite_id id values x

/-- Between the shares `sh` and `sh'` of the rule of `rt` the transition `t` of the alarm `id` has
been told: one message, and one notification where the rule has channels. -/
structure Reported (t : Transition) (rt : RuleRuntime) (id : EventId) (sh sh' : Share) : Prop where
  rows : sh'.rows.map AlarmEvent.id = sh.rows.map AlarmEvent.id ++
    if rt.eventId = none then [id] else []
  message : ∃ m, sh'.messages = sh.messages ++ [m] ∧ m.transition = t.kind ∧ m.eventId = id
  notification : ∃ ns, sh'.notifications = sh.notifications ++ ns ∧
    ns.length = (if rt.record.notify = [] then 0 else 1) ∧
    ∀ n ∈ ns, n.kind = t.kind ∧ n.eventId = id

/-- **A stored transition is told once**, about its alarm. -/
theorem Stored.told (h : Stored t rt s id rt' s') :
    Reported t rt id (s.share rt.record.id) (s'.share rt.record.id) := by
  obtain ⟨⟨s₁, info, hwritten, rfl, hinfo, hrule, -⟩, -⟩ := h
  have hids := hwritten.ids_share
  obtain ⟨-, -, -, -, hpublished, hnotifications⟩ := hwritten.history
  have hevents : (s₁.announced info t.kind rt.record.notify).events = s₁.events := by
    unfold Services.announced
    split <;> rfl
  refine ⟨?_, ⟨⟨t.kind, .full info⟩, ?_, rfl, hinfo⟩, ?_⟩
  · rw [Services.share, hevents]
    exact hids
  · have habout : AlarmMessage.ofRule rt.record.id ⟨t.kind, .full info⟩ = true :=
      decide_eq_true hrule
    rw [Services.share, Services.published_announced, hpublished, List.filter_append,
      List.filter_cons_of_pos habout, List.filter_nil]
    rfl
  · rw [Services.share, Services.notifications_announced, hnotifications, List.filter_append]
    refine ⟨_, rfl, ?_, ?_⟩
    · split
      · rfl
      · have hpayload : (buildNotification info t.kind rt.record.notify).payload.ruleId
            = rt.record.id := hrule
        rw [List.filter_cons_of_pos (by simpa using hpayload)]
        rfl
    · intro n hn
      replace hn := List.mem_of_mem_filter hn
      split at hn
      · cases hn
      · rw [List.mem_singleton.mp hn]
        exact ⟨rfl, hinfo⟩

end Share

/-! ## An operation, seen from a rule -/

/-- Between `w` and `w'` nothing has changed for the rule. -/
structure Untouched (rule : RuleId) (w w' : AlarmSystem) : Prop where
  find? : w'.engine.find? rule = w.engine.find? rule
  share : w'.services.share rule = w.services.share rule

/-- Between `w` and `w'` the rule has had one turn of `body`; nothing else has changed for it. -/
structure HadTurn (rule : RuleId) (body : Scope → Scope) (rt : RuleRuntime) (w w' : AlarmSystem) :
    Prop where
  turn : ∃ s, s.Sound ∧ Agrees rt s ∧ s.share rule = w.services.share rule ∧
    w'.engine.find? rule = some (body ⟨rt, s⟩).runtime ∧
      w'.services.share rule = (body ⟨rt, s⟩).services.share rule

section Seen

variable {rule rule' : RuleId} {w w' w'' : AlarmSystem} {env : Env} {body : Scope → Scope}
  {rules : List RuleId} {rt : RuleRuntime}

theorem Untouched.refl (rule : RuleId) (w : AlarmSystem) : Untouched rule w w := ⟨rfl, rfl⟩

theorem Untouched.trans (h : Untouched rule w w') (h' : Untouched rule w' w'') :
    Untouched rule w w'' :=
  ⟨h'.find?.trans h.find?, h'.share.trans h.share⟩

theorem untouched_visit (hbody : Updates env body) (henv : env.Delivers) (hw : Consistent w)
    (hne : rule' ≠ rule) : Untouched rule w (w.visit body rule') := by
  refine ⟨(aside_visit hbody henv hw hne (s := w.services)).find?, ?_⟩
  cases hfind : w.engine.find? rule' with
  | none => rw [AlarmSystem.visit_of_find?_eq_none body hfind]
  | some rt =>
    rw [AlarmSystem.visit_of_find?_eq_some body hfind]
    obtain ⟨hrt, hid⟩ := AlarmEngine.find?_eq_some hfind
    have ha := hw.agrees rt hrt
    exact (hbody.progress henv ha).share_of_ne hw.sound ha (by rwa [hid])

theorem untouched_forEach (hbody : Updates env body) (henv : env.Delivers) (hw : Consistent w)
    (hrule : rule ∉ rules) : Untouched rule w (w.forEach rules body) := by
  induction rules generalizing w with
  | nil => exact .refl rule w
  | cons rule' rules ih =>
    have hne : rule' ≠ rule := fun h ↦ hrule (h ▸ List.mem_cons_self)
    have hvisit := hw.moves (moves_visit hbody henv hw rule')
    exact (untouched_visit hbody henv hw hne).trans
      (ih hvisit fun h ↦ hrule (List.mem_cons_of_mem rule' h))

/-- **A loop over rules gives a rule its turn**, if it is one of them. -/
theorem hadTurn_forEach (hbody : Updates env body) (henv : env.Delivers) (hw : Consistent w)
    (hnodup : rules.Nodup) (hrule : rule ∈ rules) (hfind : w.engine.find? rule = some rt) :
    HadTurn rule body rt w (w.forEach rules body) := by
  obtain ⟨before, after, rfl⟩ := List.append_of_mem hrule
  obtain ⟨-, hafter, hdisjoint⟩ := List.nodup_append.mp hnodup
  have hbefore : rule ∉ before := fun h ↦ hdisjoint rule h rule List.mem_cons_self rfl
  have hw₁ := hw.moves (moves_forEach hbody henv hw before)
  have hw₂ := hw₁.moves (moves_visit hbody henv hw₁ rule)
  have hfirst : Untouched rule w (w.forEach before body) :=
    untouched_forEach hbody henv hw hbefore
  have hlast : Untouched rule ((w.forEach before body).visit body rule)
      (((w.forEach before body).visit body rule).forEach after body) :=
    untouched_forEach hbody henv hw₂ (List.nodup_cons.mp hafter).1
  have hsplit : w.forEach (before ++ rule :: after) body
      = ((w.forEach before body).visit body rule).forEach after body := by
    rw [AlarmSystem.forEach, List.foldl_append]
    rfl
  have hfound : (w.forEach before body).engine.find? rule = some rt := hfirst.find?.trans hfind
  obtain ⟨hmem, hid⟩ := AlarmEngine.find?_eq_some hfound
  have ha := hw₁.agrees rt hmem
  have hkept : (body ⟨rt, (w.forEach before body).services⟩).runtime.record = rt.record :=
    ((hbody.progress henv ha).agrees hw₁.sound ha).2.2.1
  have hvisit := AlarmSystem.visit_of_find?_eq_some body hfound
  rw [hsplit]
  refine ⟨(w.forEach before body).services, hw₁.sound, ha, hfirst.share, ?_, ?_⟩
  · rw [hlast.find?, hvisit]
    exact AlarmEngine.find?_set_self hfound (by rw [hkept, hid])
  · rw [hlast.share, hvisit]

end Seen

end Superviseur
