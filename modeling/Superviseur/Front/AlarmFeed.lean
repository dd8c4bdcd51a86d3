import Superviseur.Alarms.FailedReload
import Superviseur.Front.AlarmList

/-!
# The list of alarms, fed by the engine

The messages of a loaded rule carry a whole alarm, and the list stays complete and ordered under
them. The message of a closed orphan carries its identifier and its state only: a list that shows
closed alarms, whatever their path, takes it for an alarm (`not_absorbs_of_orphan`). So the list
absorbs what a run publishes exactly where its filter keeps orphans out, or the run closes none.
-/

namespace Superviseur

namespace AlarmList

/-! ## The list under a sequence of messages -/

/-- The list once the messages `ms` have been applied. -/
def listAfter (filter : AlarmFilter) (maxRows : ℕ) (list : List ListedAlarm)
    (ms : List AlarmMessage) : List ListedAlarm :=
  ms.foldl (fun list m ↦ applyAlarm filter maxRows list m.event.listed) list

/-- Whatever complete list it starts from, and whatever its size, the list stays complete under the
messages, and ordered by `compareAlarms`; an alarm does not come to be in it twice. -/
def Absorbs (filter : AlarmFilter) (ms : List AlarmMessage) : Prop :=
  ∀ (list : List ListedAlarm) (maxRows : ℕ), (∀ a ∈ list, a.Complete) → ∀ n,
    (∀ a ∈ listAfter filter maxRows list (ms.take n), a.Complete) ∧
      members.StrictTotalOn (listAfter filter maxRows list (ms.take n)) ∧
      ((list.map ListedAlarm.id).Nodup →
        ((listAfter filter maxRows list (ms.take n)).map ListedAlarm.id).Nodup)

/-- The filter keeps out an alarm that is closed and has no path. -/
def AlarmFilter.HidesOrphans (filter : AlarmFilter) : Prop :=
  (filter.states ≠ .closed ∧ filter.states ≠ .all) ∨ ∃ path, filter.path = some path ∧ path ≠ ""

/-- The event carries a whole alarm. -/
def IsFull (m : AlarmMessage) : Prop := ∃ info, m.event = .full info

/-- It tells the closing of an orphan. -/
def IsOrphan (m : AlarmMessage) : Prop := ∃ id, m.event = .orphan id .normal

section Messages

variable {filter : AlarmFilter} {maxRows : ℕ} {list : List ListedAlarm} {ms : List AlarmMessage}
  {m : AlarmMessage}

theorem IsFull.complete (h : IsFull m) : m.event.listed.Complete := by
  obtain ⟨info, hevent⟩ := h
  rw [hevent]
  exact ⟨rfl, rfl, rfl, rfl⟩

theorem IsOrphan.not_complete (h : IsOrphan m) : ¬ m.event.listed.Complete := by
  obtain ⟨id, hevent⟩ := h
  rw [hevent]
  exact fun hcomplete ↦ Bool.noConfusion hcomplete.severity

theorem matches_orphan_iff (h : IsOrphan m) :
    «matches» m.event.listed filter = true ↔ ¬ filter.HidesOrphans := by
  obtain ⟨id, hevent⟩ := h
  obtain ⟨path, states⟩ := filter
  have hstates : AlarmState.normal ∈ stateGroups states ↔
      ¬ (states ≠ .closed ∧ states ≠ .all) := by
    cases states <;> decide
  have hpath : inPath none ⟨path, states⟩ = true ↔ ¬ ∃ p, path = some p ∧ p ≠ "" := by
    cases path with
    | none => simp [inPath]
    | some p =>
      have hempty : p.toList.isEmpty = true ↔ p = "" := by
        rw [List.isEmpty_iff, String.toList_eq_nil_iff]
      simp [inPath, hempty]
  rw [hevent, «matches», AlarmPayload.listed, Members.«matches», Bool.and_eq_true,
    decide_eq_true_iff, hstates, hpath, AlarmFilter.HidesOrphans, not_or]

theorem listAfter_append (filter : AlarmFilter) (maxRows : ℕ) (list : List ListedAlarm)
    (ms ms' : List AlarmMessage) : listAfter filter maxRows list (ms ++ ms')
      = listAfter filter maxRows (listAfter filter maxRows list ms) ms' :=
  List.foldl_append

/-- Messages that are whole alarms, or that the filter keeps out, leave the list complete. -/
theorem complete_listAfter (hms : ∀ m ∈ ms, IsFull m ∨ «matches» m.event.listed filter = false)
    (h : ∀ a ∈ list, a.Complete) : ∀ a ∈ listAfter filter maxRows list ms, a.Complete := by
  induction ms generalizing list with
  | nil => exact h
  | cons m ms ih =>
    refine ih (fun m' hm' ↦ hms m' (List.mem_cons_of_mem m hm')) fun a ha ↦ ?_
    rcases mem_applyAlarm ha with ha | ⟨rfl, hmatches⟩
    · exact h a ha
    · rcases hms m List.mem_cons_self with hfull | hout
      · exact hfull.complete
      · rw [hmatches] at hout
        cases hout

theorem nodup_listAfter (h : (list.map ListedAlarm.id).Nodup) :
    ((listAfter filter maxRows list ms).map ListedAlarm.id).Nodup := by
  induction ms generalizing list with
  | nil => exact h
  | cons m ms ih => exact ih (nodup_applyAlarm h)

theorem length_listAfter_le (filter : AlarmFilter) (maxRows : ℕ) (list : List ListedAlarm)
    (ms : List AlarmMessage) : (listAfter filter maxRows list ms).length
      ≤ list.length + ms.length := by
  induction ms generalizing list with
  | nil => exact le_rfl
  | cons m ms ih =>
    have hstep := length_applyAlarm_le filter maxRows list m.event.listed
    have hrest := ih (applyAlarm filter maxRows list m.event.listed)
    rw [List.length_cons]
    exact hrest.trans (by omega)

theorem absorbs_of_hidden (hms : ∀ m ∈ ms, IsFull m ∨ «matches» m.event.listed filter = false) :
    Absorbs filter ms := by
  intro list maxRows hlist n
  have hcomplete : ∀ a ∈ listAfter filter maxRows list (ms.take n), a.Complete :=
    complete_listAfter (fun m hm ↦ hms m (List.mem_of_mem_take hm)) hlist
  exact ⟨hcomplete, strictTotalOn_of_complete hcomplete, nodup_listAfter⟩

/-- **An orphan that the filter lets through comes into the list**, without a severity or a date. -/
theorem not_absorbs_of_orphan (hm : m ∈ ms) (horphan : IsOrphan m)
    (hmatches : «matches» m.event.listed filter = true) : ¬ Absorbs filter ms := by
  intro h
  obtain ⟨pre, post, rfl⟩ := List.append_of_mem hm
  -- a list with room for every message
  have hlist := (h [] (pre.length + 1) (fun _ ha ↦ absurd ha List.not_mem_nil)
    (pre.length + 1)).1
  have htake : (pre ++ m :: post).take (pre.length + 1) = pre ++ [m] := by
    rw [List.take_length_add_append, List.take_succ_cons, List.take_zero]
  rw [htake, listAfter_append] at hlist
  refine horphan.not_complete (hlist _ (mem_applyAlarm_self hmatches ?_))
  have hlength := length_listAfter_le filter (pre.length + 1) [] pre
  rw [List.length_nil] at hlength
  omega

end Messages

/-! ## What an operation publishes -/

/-- A load that reads rules and alarms publishes the closing of no orphan: there is none, or the
first cannot be closed or announced, and the load stops there. -/
def ClosesNoOrphan (env : Env) (op : Op) (w : AlarmSystem) : Prop :=
  op = .load → env.fails .loadRules = false → env.fails .openEvents = false →
    ∀ e ∈ (orphansOf env w).head?,
      env.fails (.updateEvent e.ruleId) = true ∨ env.fails (.publish e.ruleId) = true

/-- Messages published from `s` to `s'`, which are all whole alarms exactly where `C` holds. -/
def Publishes (C : Prop) (s s' : Services) : Prop :=
  ∃ ms, s'.published = s.published ++ ms ∧ (∀ m ∈ ms, IsFull m ∨ IsOrphan m) ∧
    ((∀ m ∈ ms, IsFull m) ↔ C)

section Publish

variable {env : Env} {w : AlarmSystem} {C : Prop} {s s' s'' : Services}

theorem IsOrphan.not_isFull {m : AlarmMessage} (h : IsOrphan m) : ¬ IsFull m := by
  obtain ⟨id, hevent⟩ := h
  rintro ⟨info, hfull⟩
  rw [hevent] at hfull
  cases hfull

theorem publishes_of_full {ms : List AlarmMessage} (h : s'.published = s.published ++ ms)
    (hms : ∀ m ∈ ms, IsFull m) (hC : C) : Publishes C s s' :=
  ⟨ms, h, fun m hm ↦ .inl (hms m hm), iff_of_true hms hC⟩

theorem publishes_refl (hC : C) (s : Services) : Publishes C s s :=
  publishes_of_full (List.append_nil _).symm (fun _ hm ↦ absurd hm List.not_mem_nil) hC

theorem Publishes.trans {C' : Prop} (h : Publishes C s s') (h' : Publishes C' s' s'') :
    Publishes (C ∧ C') s s'' := by
  obtain ⟨ms, hpublished, hkinds, hC⟩ := h
  obtain ⟨ms', hpublished', hkinds', hC'⟩ := h'
  refine ⟨ms ++ ms', by rw [hpublished', hpublished, List.append_assoc], ?_, ?_⟩
  · exact fun m hm ↦ (List.mem_append.mp hm).elim (hkinds m) (hkinds' m)
  · rw [List.forall_mem_append, hC, hC']

theorem publishes_closeOrphans (env : Env) (orphans : List AlarmEvent) (s : Services) :
    Publishes (∀ e ∈ orphans.head?, env.fails (.updateEvent e.ruleId) = true ∨
      env.fails (.publish e.ruleId) = true) s (closeOrphans env orphans s).1 := by
  -- no message, or that of the first orphan at least
  have hmessages : ∀ s, ∃ ms, (closeOrphans env orphans s).1.published = s.published ++ ms ∧
      (∀ m ∈ ms, IsOrphan m) ∧ (ms = [] ↔ ∀ e ∈ orphans.head?,
        env.fails (.updateEvent e.ruleId) = true ∨ env.fails (.publish e.ruleId) = true) := by
    induction orphans with
    | nil =>
      refine fun s ↦ ⟨[], (List.append_nil _).symm, fun _ hm ↦ absurd hm List.not_mem_nil, ?_⟩
      simp
    | cons e orphans ih =>
      intro s
      rw [closeOrphans, closeOrphan]
      cases hupdate : env.fails (.updateEvent e.ruleId) with
      | true =>
        refine ⟨[], (List.append_nil _).symm, fun _ hm ↦ absurd hm List.not_mem_nil, ?_⟩
        simp [hupdate]
      | false =>
        cases hpublish : env.fails (.publish e.ruleId) with
        | true =>
          refine ⟨[], (List.append_nil _).symm, fun _ hm ↦ absurd hm List.not_mem_nil, ?_⟩
          simp [hpublish]
        | false =>
          simp only [Bool.false_eq_true, if_false]
          obtain ⟨ms, hms, horphans, -⟩ := ih ((s.updateEvent e.id ⟨.normal, none, none,
            some (some (e.clearedAt.getD (env.wall (.orphan e.ruleId))))⟩).publish
              ⟨.normal, .orphan e.id .normal⟩)
          refine ⟨⟨.normal, .orphan e.id .normal⟩ :: ms, ?_, ?_, ?_⟩
          · rw [hms, Services.publish, List.append_assoc]
            rfl
          · exact List.forall_mem_cons.mpr ⟨⟨e.id, rfl⟩, horphans⟩
          · simp [hupdate, hpublish]
  obtain ⟨ms, hms, horphans, hnil⟩ := hmessages s
  refine ⟨ms, hms, fun m hm ↦ .inr (horphans m hm), ?_⟩
  rw [← hnil]
  constructor
  · intro hfull
    exact List.eq_nil_iff_forall_not_mem.mpr fun m hm ↦ (horphans m hm).not_isFull (hfull m hm)
  · rintro rfl m hm
    exact absurd hm List.not_mem_nil

theorem publishes_forEach {body : Scope → Scope} {f : Standing → Standing} (hbody : Acts body f)
    (hC : C) (rules : List RuleId) (w : AlarmSystem) :
    Publishes C w.services (w.forEach rules body).services := by
  induction rules generalizing w with
  | nil => exact publishes_refl hC _
  | cons rule rules ih =>
    have hvisit : Publishes C w.services (w.visit body rule).services := by
      cases hfind : w.engine.find? rule with
      | none =>
        rw [AlarmSystem.visit_of_find?_eq_none body hfind]
        exact publishes_refl hC _
      | some rt =>
        rw [AlarmSystem.visit_of_find?_eq_some body hfind]
        obtain ⟨ms, hms, habout⟩ := hbody.published ⟨rt, w.services⟩
        refine publishes_of_full hms (fun m hm ↦ ?_) hC
        obtain ⟨info, hinfo, -⟩ := habout m hm
        exact ⟨info, hinfo⟩
    have htrans := hvisit.trans (ih (w.visit body rule))
    rwa [and_self] at htrans

theorem publishes_load (env : Env) (w : AlarmSystem) :
    Publishes (ClosesNoOrphan env .load w) w.services (load env w).1.services := by
  by_cases hread : env.fails .loadRules = false ∧ env.fails .openEvents = false
  · obtain ⟨hrules, hevents⟩ := hread
    have hcondition : ClosesNoOrphan env .load w ↔ ∀ e ∈ (orphansOf env w).head?,
        env.fails (.updateEvent e.ruleId) = true ∨ env.fails (.publish e.ruleId) = true :=
      ⟨fun h ↦ h rfl hrules hevents, fun h _ _ _ ↦ h⟩
    have hclosing := publishes_closeOrphans env (orphansOf env w) w.services
    rw [← hcondition] at hclosing
    have hloads := loads_load env w
    generalize (load env w).1 = w' at hloads ⊢
    generalize (load env w).2 = failure at hloads
    cases hloads with
    | unread h =>
      rw [hrules, hevents] at h
      exact absurd h (by decide)
    | unclosed => exact hclosing
    | unevaluated => exact hclosing
    | done =>
      have htrans := hclosing.trans (publishes_forEach (acts_evaluateInitial env) trivial
        (freshRules env w) ⟨installed env w, (closing env w).1⟩)
      rwa [and_true] at htrans
  · have hcondition : ClosesNoOrphan env .load w :=
      fun _ hrules hevents ↦ absurd ⟨hrules, hevents⟩ hread
    have hunread : (load env w).1 = w := by
      rw [load]
      cases hrules : env.fails .loadRules with
      | true => rfl
      | false =>
        cases hevents : env.fails .openEvents with
        | true => rfl
        | false => exact absurd ⟨hrules, hevents⟩ hread
    rw [hunread]
    exact publishes_refl hcondition _

theorem publishes_acknowledge (hC : C) (env : Env) (eventId : EventId) (user : UserId)
    (w : AlarmSystem) :
    Publishes C w.services (acknowledge env eventId user w).1.services := by
  -- the message of an acknowledgement has all its fields
  have hpersist : ∀ t x, Publishes C x.services
      (EState.after (persistAck env t user) x).services := by
    intro t x
    cases hlogin : env.fails .userLogin with
    | true =>
      have hsame : EState.after (persistAck env t user) x = x := by
        simp [EState.after, persistAck, hlogin]
      rw [hsame]
      exact publishes_refl hC _
    | false =>
      have hack : EState.after (persistAck env t user) x
          = EState.after (persist env t (some (textOr (env.login user) (toString user)))) x := by
        simp [EState.after, persistAck, hlogin]
      rw [hack]
      obtain ⟨-, ms, hms, habout⟩ := said_persist env t
        (some (textOr (env.login user) (toString user))) x
      refine publishes_of_full hms (fun m hm ↦ ?_) hC
      obtain ⟨-, info, hinfo, -⟩ := habout m hm
      exact ⟨info, hinfo⟩
  unfold acknowledge
  split
  · exact publishes_refl hC _
  · rename_i rt hfind
    rcases rt.machine.acknowledge_cases with hack | ⟨t, hack, -, -, -⟩
    · rw [hack]
      exact publishes_refl hC _
    · rw [hack]
      dsimp only
      have h := hpersist t ⟨{ rt with machine := { rt.machine with state := t.toState } },
        w.services⟩
      rw [EState.after] at h
      split
      · rename_i x hp
        rw [hp] at h
        exact h
      · rename_i f x hp
        rw [hp] at h
        exact h

/-- **An operation publishes whole alarms, and the orphans it closes.** -/
theorem publishes_step (env : Env) (w : AlarmSystem) (op : Op) :
    Publishes (ClosesNoOrphan env op w) w.services (step env w op).services := by
  by_cases hop : op.isObservation = true
  · have hC : ClosesNoOrphan env op w := by
      rintro rfl
      cases hop
    rw [step_eq_forEach hop]
    exact publishes_forEach (acts_turn hop env) hC _ w
  · rcases op with _ | _ | _ | _ | _ | ⟨eventId, user⟩ | _
    · exact publishes_load env w
    · exact absurd rfl hop
    · exact absurd rfl hop
    · exact absurd rfl hop
    · exact absurd rfl hop
    · exact publishes_acknowledge (fun h ↦ nomatch h) env eventId user w
    · exact publishes_refl (fun h ↦ nomatch h) _

/-- **A run publishes whole alarms only exactly where none of its loads closes an orphan.** -/
theorem publishes_run {is : List (Env × Op)} {w w' : AlarmSystem}
    (h : Trace.Path (Steps fun _ _ _ ↦ True) w is w') :
    Publishes (Trace.Path (Steps ClosesNoOrphan) w is w') w.services w'.services := by
  induction h with
  | nil w => exact publishes_refl (.nil w) _
  | @cons w w₁ w' i is hstep _ ih =>
    obtain ⟨-, rfl⟩ := hstep
    have htrans := (publishes_step i.1 w i.2).trans ih
    have hpath : Trace.Path (Steps ClosesNoOrphan) w (i :: is) w' ↔
        ClosesNoOrphan i.1 i.2 w ∧
          Trace.Path (Steps ClosesNoOrphan) (step i.1 w i.2) is w' := by
      constructor
      · intro hrun
        rcases hrun with _ | ⟨⟨hC, rfl⟩, hrest⟩
        exact ⟨hC, hrest⟩
      · exact fun ⟨hC, hrest⟩ ↦ .cons ⟨hC, rfl⟩ hrest
    rwa [hpath]

end Publish

/-! ## The result -/

/-- **The list absorbs what a run publishes exactly where** its filter keeps orphans out, or no load
of the run closes one. -/
theorem events_absorbed_iff {events : List AlarmEvent} {is : List (Env × Op)} {w : AlarmSystem}
    (h : Run (fun _ _ _ ↦ True) (.ofEvents events) is w) (filter : AlarmFilter) :
    Absorbs filter w.services.published ↔
      filter.HidesOrphans ∨ Run ClosesNoOrphan (.ofEvents events) is w := by
  obtain ⟨ms, hpublished, hkinds, hfull⟩ := publishes_run h
  have hpublished' : w.services.published = ms := hpublished
  have hfull' : (∀ m ∈ ms, IsFull m) ↔ Run ClosesNoOrphan (.ofEvents events) is w := hfull
  rw [hpublished', ← hfull']
  constructor
  · intro habsorbs
    by_contra hnot
    rw [not_or] at hnot
    obtain ⟨hshows, horphans⟩ := hnot
    rw [not_forall] at horphans
    obtain ⟨m, hm⟩ := horphans
    rw [Classical.not_imp] at hm
    obtain ⟨hmem, hnotFull⟩ := hm
    have horphan : IsOrphan m := (hkinds m hmem).resolve_left hnotFull
    exact not_absorbs_of_orphan hmem horphan ((matches_orphan_iff horphan).mpr hshows) habsorbs
  · rintro (hhides | hall)
    · refine absorbs_of_hidden fun m hm ↦ (hkinds m hm).imp id fun horphan ↦ ?_
      rw [← Bool.not_eq_true, matches_orphan_iff horphan, not_not]
      exact hhides
    · exact absorbs_of_hidden fun m hm ↦ .inl (hall m hm)

/-- An alarm is raised, and its rule disabled: the reload closes the alarm. -/
def disabledRule : List (Env × Op) :=
  [(failing [], .load), (failing [], .onDeviceStatus 7 false),
    (enabling ⟨[], List.nodup_nil⟩ [], .load)]

theorem run_disabledRule : Run (fun _ _ _ ↦ True) (.ofEvents []) disabledRule
    (systemAfter ⟨.empty, .ofEvents []⟩ disabledRule) :=
  .cons ⟨trivial, rfl⟩ (.cons ⟨trivial, rfl⟩ (.single ⟨trivial, rfl⟩))

theorem events_absorbed_open :
    (systemAfter ⟨.empty, .ofEvents []⟩ disabledRule).services.published.map
        AlarmMessage.transition = [.raised, .normal] ∧
      Absorbs ⟨none, .open⟩ (systemAfter ⟨.empty, .ofEvents []⟩ disabledRule).services.published :=
  ⟨by decide +kernel, (events_absorbed_iff run_disabledRule ⟨none, .open⟩).mpr
    (.inl (.inl ⟨by decide, by decide⟩))⟩

/-- A list of all alarms takes the message of the closing for an alarm. -/
theorem events_not_absorbed : ¬ ∀ (events : List AlarmEvent) (is : List (Env × Op))
    (w : AlarmSystem) (filter : AlarmFilter), (Services.ofEvents events).Sound →
      Run (fun _ _ _ ↦ True) (.ofEvents events) is w → Absorbs filter w.services.published := by
  intro h
  have habsorbs := h [] disabledRule _ ⟨none, .all⟩ Services.sound_empty run_disabledRule
  have hcomplete := (habsorbs [] 2 (fun _ ha ↦ absurd ha List.not_mem_nil) 2).1
  have hseverities : ∀ severity ∈ (listAfter ⟨none, .all⟩ 2 [] ((systemAfter ⟨.empty,
      .ofEvents []⟩ disabledRule).services.published.take 2)).map ListedAlarm.severity,
      severity.isSome = true := by
    intro severity hseverity
    obtain ⟨a, ha, rfl⟩ := List.mem_map.mp hseverity
    exact (hcomplete a ha).severity
  exact absurd hseverities (by decide +kernel)

end AlarmList

end Superviseur
