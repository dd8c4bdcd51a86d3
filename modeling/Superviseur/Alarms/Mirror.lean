import Superviseur.Alarms.FailedReload

/-!
# Messages and rows

A message on `alarm.event` is built from the copy of the row that the runtime of the rule keeps. It
mirrors the row where its fields are those `GET /alarms/{id}` would return at that moment. The copy
is exact for the date of the raising, for the acknowledgement and for the value (`CopyOf`); the date
of the end is exact once the alarm is known to have ended, but an end that could not be written
leaves its date in the copy, and the value of a message falls back to one that the row does not
have.
-/

namespace Superviseur

/-! ## What a message says of a row -/

/-- `_to_alarm`: the row of an alarm, with the rule and the point it is about. -/
def toAlarm (event : AlarmEvent) (record : RuleRecord) : AlarmInfo where
  eventId := event.id
  ruleId := record.id
  ruleName := record.name
  kind := record.kind
  severity := record.severity
  state := event.state
  pointId := record.pointId
  pointName := record.pointName
  path := record.path
  unit := record.unit
  threshold := record.threshold
  value := event.raisedValue
  raisedAt := event.raisedAt
  ackedAt := event.ackedAt
  ackedBy := event.ackedBy
  clearedAt := event.clearedAt

/-- The fields of an alarm that are those of its row. -/
structure RowFields where
  state : AlarmState
  raisedAt : Instant
  ackedAt : Option Instant
  ackedBy : Option String
  clearedAt : Option Instant
  value : Option PyFloat

def AlarmInfo.rowFields (info : AlarmInfo) : RowFields :=
  ⟨info.state, info.raisedAt, info.ackedAt, info.ackedBy, info.clearedAt, info.value⟩

/-- The message is about the alarm of the row, and says of it what `GET /alarms/{id}` would,
whatever the rule and the point. -/
def Mirrors (m : AlarmMessage) (row : Option AlarmEvent) : Prop :=
  ∃ info e, m.event = .full info ∧ row = some e ∧ info.eventId = e.id ∧
    ∀ record, info.rowFields = (toAlarm e record).rowFields

/-- The table after a write. -/
def StoreWrite.apply (events : List AlarmEvent) : StoreWrite → List AlarmEvent
  | .create event => events ++ [event]
  | .update id values => events.map (Services.rewrite id values)

/-- The row each write leaves, immediately after it. -/
def rowsWritten (events : List AlarmEvent) : List StoreWrite → List (Option AlarmEvent)
  | [] => []
  | write :: writes =>
    ((write.apply events).find? fun e ↦ e.id = write.eventId) ::
      rowsWritten (write.apply events) writes

theorem rowsWritten_append (events : List AlarmEvent) (writes writes' : List StoreWrite) :
    rowsWritten events (writes ++ writes')
      = rowsWritten events writes
        ++ rowsWritten (writes.foldl StoreWrite.apply events) writes' := by
  induction writes generalizing events with
  | nil => rfl
  | cons write writes ih => rw [List.cons_append, rowsWritten, rowsWritten, ih]; rfl

/-- From `s` to `s'` each message mirrors the row its write left. -/
def Mirrored (s s' : Services) : Prop :=
  ∃ writes ms, s'.history = s.history ++ writes ∧ s'.published = s.published ++ ms ∧
    s'.events = writes.foldl StoreWrite.apply s.events ∧
    List.Forall₂ Mirrors ms (rowsWritten s.events writes)

theorem Mirrored.refl (s : Services) : Mirrored s s :=
  ⟨[], [], (List.append_nil _).symm, (List.append_nil _).symm, rfl, .nil⟩

theorem Mirrored.trans {s s' s'' : Services} (h : Mirrored s s') (h' : Mirrored s' s'') :
    Mirrored s s'' := by
  obtain ⟨writes, ms, hhistory, hpublished, hevents, hmirrors⟩ := h
  obtain ⟨writes', ms', hhistory', hpublished', hevents', hmirrors'⟩ := h'
  refine ⟨writes ++ writes', ms ++ ms', ?_, ?_, ?_, ?_⟩
  · rw [hhistory', hhistory, List.append_assoc]
  · rw [hpublished', hpublished, List.append_assoc]
  · rw [hevents', hevents, List.foldl_append]
  · rw [rowsWritten_append, ← hevents]
    exact List.rel_append hmirrors hmirrors'

theorem mirrored_of_write {s s₁ : Services} {write : StoreWrite}
    (hhistory : s₁.history = s.history ++ [write]) (hpublished : s₁.published = s.published)
    (hevents : s₁.events = write.apply s.events) {info : AlarmInfo} {kind : TransitionKind}
    (hmirrors : Mirrors ⟨kind, .full info⟩
      ((write.apply s.events).find? fun e ↦ e.id = write.eventId)) (channels : List String) :
    Mirrored s (s₁.announced info kind channels) := by
  refine ⟨[write], [⟨kind, .full info⟩], ?_, ?_, ?_, ?_⟩
  · rw [Services.history_announced, hhistory]
  · rw [Services.published_announced, hpublished]
  · rw [Services.events_announced, hevents]
    rfl
  · exact .cons hmirrors .nil

/-! ## The copy of the row -/

/-- The runtime keeps a copy of the row. Before the end of the alarm is stored, the date it has for
it may be that of an end that was refused. -/
structure RuleRuntime.CopyOf (rt : RuleRuntime) (e : AlarmEvent) : Prop where
  raisedAt : rt.raisedAt = some e.raisedAt
  ackedAt : rt.ackedAt = e.ackedAt
  ackedBy : rt.ackedBy = e.ackedBy
  raisedValue : rt.raisedValue = e.raisedValue
  clearedAt : rt.machine.state = .clearedUnacked → rt.clearedAt = e.clearedAt

/-- The copies of two runtimes of one rule are the same. -/
structure RuleRuntime.Keeps (rt rt' : RuleRuntime) : Prop where
  same : rt.Same rt'
  ackedAt : rt'.ackedAt = rt.ackedAt
  ackedBy : rt'.ackedBy = rt.ackedBy
  clearedAt : rt'.clearedAt = rt.clearedAt
  raisedValue : rt'.raisedValue = rt.raisedValue

section Copy

variable {rt rt' : RuleRuntime} {e : AlarmEvent}

theorem RuleRuntime.CopyOf.of_keeps (h : rt.CopyOf e) (hkeeps : rt.Keeps rt')
    (hstate : rt'.machine.state = .clearedUnacked → rt.machine.state = .clearedUnacked) :
    rt'.CopyOf e where
  raisedAt := hkeeps.same.raisedAt.trans h.raisedAt
  ackedAt := hkeeps.ackedAt.trans h.ackedAt
  ackedBy := hkeeps.ackedBy.trans h.ackedBy
  raisedValue := hkeeps.raisedValue.trans h.raisedValue
  clearedAt hcleared := hkeeps.clearedAt.trans (h.clearedAt (hstate hcleared))

/-- A refused write leaves the copy right: the date it may have set is that of an end, of which the
row of an active alarm says nothing. -/
theorem RuleRuntime.CopyOf.unwritten {t : Transition} (ht : t.IsEdge) (h : rt.CopyOf e)
    (hkeeps : rt.Keeps rt') (hfrom : t.fromState = rt.machine.state) (now : Instant) :
    ((rt'.unwritten t now).setState t.fromState).CopyOf e := by
  obtain ⟨⟨-, -, hraisedAt⟩, hackedAt, hackedBy, hclearedAt, hraisedValue⟩ := hkeeps
  rw [h.raisedAt] at hraisedAt
  rw [h.ackedAt] at hackedAt
  rw [h.ackedBy] at hackedBy
  rw [h.raisedValue] at hraisedValue
  have hend : rt.machine.state = .clearedUnacked → rt'.clearedAt = e.clearedAt :=
    fun hstate ↦ hclearedAt.trans (h.clearedAt hstate)
  rw [← hfrom] at hend
  obtain ⟨from', to', kind⟩ := t
  cases ht <;> refine ⟨hraisedAt, hackedAt, hackedBy, hraisedValue, fun hstate ↦ ?_⟩ <;>
    simp_all [RuleRuntime.unwritten, RuleRuntime.setState]

/-- The copy follows the write of a transition that leaves the alarm open. -/
theorem RuleRuntime.CopyOf.noted {t : Transition} (ht : t.IsEdge) (h : rt.CopyOf e)
    (hkeeps : rt.Keeps rt') (hto : rt'.machine.state = t.toState) (hopen : t.toState ≠ .normal)
    (now : Instant) (ackedBy : Option String) :
    (rt'.noted t now ackedBy).CopyOf ((t.values now ackedBy).apply e) := by
  obtain ⟨⟨-, -, hraisedAt⟩, hackedAt, hackedBy, hclearedAt, hraisedValue⟩ := hkeeps
  rw [h.raisedAt] at hraisedAt
  rw [h.ackedAt] at hackedAt
  rw [h.ackedBy] at hackedBy
  rw [h.raisedValue] at hraisedValue
  obtain ⟨from', to', kind⟩ := t
  cases ht <;> first
    | exact absurd rfl hopen
    | (refine ⟨hraisedAt, ?_, ?_, hraisedValue, fun hcleared ↦ ?_⟩ <;>
        simp_all [RuleRuntime.noted, Transition.values, EventValues.apply])

/-- The value of a message is that of the row, or one that the row does not have. -/
theorem shownValue_eq_iff (raisedValue value : Option PyFloat) :
    (if raisedValue.isSome then raisedValue else value) = raisedValue ↔
      (raisedValue = none → value = none) := by
  cases raisedValue <;> simp

/-- **The message of a transition of an open alarm mirrors the row it leaves exactly where** the
value of the alarm is stored or none is known, and an acknowledgement finds the date of the end as
the row has it. -/
theorem rowFields_noted_iff {t : Transition} (ht : t.IsEdge) (h : rt.CopyOf e)
    (hkeeps : rt.Keeps rt') (now : Instant) (ackedBy : Option String) {info : AlarmInfo}
    (hinfo : (rt'.noted t now ackedBy).info t.toState = some info) (record : RuleRecord) :
    info.rowFields = (toAlarm ((t.values now ackedBy).apply e) record).rowFields ↔
      (rt.raisedValue = none → rt'.value = none) ∧
        (t.kind = .acked → rt.clearedAt = e.clearedAt) := by
  obtain ⟨⟨-, -, hraisedAt⟩, hackedAt, hackedBy, hclearedAt, hraisedValue⟩ := hkeeps
  rw [← shownValue_eq_iff]
  rw [h.raisedAt] at hraisedAt
  rw [h.ackedAt] at hackedAt
  rw [h.ackedBy] at hackedBy
  rw [h.raisedValue] at hraisedValue ⊢
  obtain ⟨from', to', kind⟩ := t
  cases ht <;> cases hid : rt'.eventId <;>
    simp only [RuleRuntime.info, RuleRuntime.noted, hid, hraisedAt, reduceCtorEq,
      Option.some.injEq] at hinfo <;>
    subst hinfo <;>
    simp [AlarmInfo.rowFields, toAlarm, Transition.values, EventValues.apply, hraisedValue,
      hackedAt, hackedBy, hclearedAt, and_comm]

end Copy

/-! ## A transition -/

section Transition

variable {env : Env} {t : Transition} {ackedBy : Option String} {rt rt' : RuleRuntime}
  {s s' : Services}

theorem persist_of_refused {x : Scope} {f : Failure} {x' : Scope}
    (h : writeTransition env t ackedBy x = .error f x') :
    persist env t ackedBy x = .error f x' := by
  rw [persist, EState.bind_apply, h]

theorem persist_of_written (henv : env.Delivers) {x : Scope}
    (h : writeTransition env t ackedBy x = .ok () ⟨rt, s⟩) {info : AlarmInfo}
    (hinfo : rt.info t.toState = some info) :
    persist env t ackedBy x
      = .ok () ⟨rt.settled t.toState, s.announced info t.kind rt.record.notify⟩ := by
  rw [persist, EState.bind_apply, h]
  exact announce_of_delivers henv hinfo s

theorem RuleRuntime.info_of_open {id : EventId} {raisedAt : Instant} (hid : rt.eventId = some id)
    (hraised : rt.raisedAt = some raisedAt) (state : AlarmState) :
    ∃ info, rt.info state = some info ∧ info.eventId = id := by
  obtain ⟨info, hinfo, h, -⟩ := rt.info_eq_some hid hraised state
  exact ⟨info, hinfo, h⟩

theorem Services.find?_inserted (s : Services) (rule : RuleId) (raisedAt : Instant)
    (raisedValue : Option PyFloat) :
    ((s.inserted rule raisedAt raisedValue).events.find? fun e ↦ e.id = s.freshId)
      = some (s.newEvent rule raisedAt raisedValue) := by
  have hnone := s.stateOf_freshId
  rw [stateOf, Option.map_eq_none_iff] at hnone
  rw [inserted, List.find?_append, hnone]
  simp [newEvent]

/-- The alarm of a rule that had none: the store refuses it, or it is inserted and its message
mirrors the new row. -/
theorem raise_mirrored (henv : env.Delivers) (hkind : t.kind = .raised)
    (hto : t.toState = .activeUnacked) (hid : rt.eventId = none)
    (hopen : s.openOf rt.record.id = []) :
    (∃ f, persist env t ackedBy ⟨rt, s⟩ = .error f ⟨rt, s⟩) ∨
      ∃ rt' s', persist env t ackedBy ⟨rt, s⟩ = .ok () ⟨rt', s'⟩ ∧ Mirrored s s' ∧
        ∀ e ∈ s'.openOf rt.record.id, rt'.CopyOf e := by
  have hwrite := @writeTransition_create env t ackedBy rt s hkind hid
  cases hf : env.fails (.createEvent rt.record.id) with
  | true =>
    left
    simp only [hf, if_true] at hwrite
    exact ⟨_, persist_of_refused hwrite⟩
  | false =>
    right
    simp only [hf, Bool.false_eq_true, if_false,
      Services.createEvent_of_openOf_nil hopen] at hwrite
    obtain ⟨info, hinfo, heventId⟩ := @RuleRuntime.info_of_open
      (rt.opened s.freshId (env.wall (.persist rt.record.id))) _ _ rfl rfl t.toState
    refine ⟨_, _, persist_of_written henv hwrite hinfo, ?_, ?_⟩
    · have hhistory : (s.inserted rt.record.id (env.wall (.persist rt.record.id)) rt.value).history
          = s.history ++ [.create (s.newEvent rt.record.id (env.wall (.persist rt.record.id))
            rt.value)] := rfl
      refine mirrored_of_write hhistory rfl rfl ?_ _
      refine ⟨info, _, rfl, s.find?_inserted _ _ _, heventId, fun record ↦ ?_⟩
      rw [hto] at hinfo
      simp only [RuleRuntime.info, RuleRuntime.opened, Option.some.injEq] at hinfo
      subst hinfo
      simp only [AlarmInfo.rowFields, toAlarm, Services.newEvent, RowFields.mk.injEq, true_and]
      exact (shownValue_eq_iff rt.value rt.value).mpr id
    · intro e he
      rw [Services.openOf_announced, Services.openOf_inserted, hopen, if_pos rfl, List.nil_append,
        List.mem_singleton] at he
      rw [he, RuleRuntime.settled, hto, if_neg (by decide)]
      exact ⟨rfl, rfl, rfl, rfl, fun _ ↦ rfl⟩

/-- The transition of an open alarm: the store refuses it, or the row is updated and, where the two
conditions hold, its message mirrors it. -/
theorem change_mirrored (henv : env.Delivers) (hs : s.Sound) (ht : t.IsEdge) {e : AlarmEvent}
    (hid : rt.eventId = some e.id) (hopen : s.openOf rt.record.id = [e]) (hcopy : rt.CopyOf e)
    (hkeeps : rt.Keeps rt') (hfrom : t.fromState = rt.machine.state)
    (hto : rt'.machine.state = t.toState)
    (hvalue : env.fails (.updateEvent rt.record.id) = false → rt.raisedValue = none →
      rt'.value = none)
    (hcleared : env.fails (.updateEvent rt.record.id) = false → t.kind = .acked →
      rt.clearedAt = e.clearedAt) :
    Mirrored s (rollback t.fromState (persist env t ackedBy ⟨rt', s⟩)).services ∧
      ∀ x ∈ (rollback t.fromState (persist env t ackedBy ⟨rt', s⟩)).services.openOf rt.record.id,
        (rollback t.fromState (persist env t ackedBy ⟨rt', s⟩)).runtime.CopyOf x := by
  have hid' : rt'.eventId = some e.id := hkeeps.same.eventId.trans hid
  have hrecord : rt'.record = rt.record := hkeeps.same.record
  have hmem : e ∈ s.events := (Services.mem_openOf.mp (hopen ▸ List.mem_singleton_self e)).1
  have hwrite := @writeTransition_update env t ackedBy rt' s ht.persistent e.id hid'
  rw [hrecord] at hwrite
  cases hf : env.fails (.updateEvent rt.record.id) with
  | true =>
    simp only [hf, if_true] at hwrite
    -- the row stays, and the rule goes back to the state it says
    rw [persist_of_refused hwrite]
    refine ⟨.refl s, fun x hx ↦ ?_⟩
    rw [rollback, hopen, List.mem_singleton] at hx
    subst hx
    exact hcopy.unwritten ht hkeeps hfrom _
  | false =>
    simp only [hf, Bool.false_eq_true, if_false] at hwrite
    have hraised : (rt'.noted t (env.wall (.persist rt.record.id)) ackedBy).raisedAt
        = some e.raisedAt :=
      (rt'.same_noted t _ ackedBy).raisedAt.trans (hkeeps.same.raisedAt.trans hcopy.raisedAt)
    obtain ⟨info, hinfo, heventId⟩ := RuleRuntime.info_of_open
      ((rt'.same_noted t (env.wall (.persist rt.record.id)) ackedBy).eventId.trans hid') hraised
      t.toState
    rw [persist_of_written henv hwrite hinfo]
    -- the row that is written is found again under its identifier
    have hrow : ((StoreWrite.update e.id
          (t.values (env.wall (.persist rt.record.id)) ackedBy)).apply s.events).find?
            (fun x ↦ x.id = e.id)
          = some ((t.values (env.wall (.persist rt.record.id)) ackedBy).apply e) := by
      have hfind := s.find?_updateEvent e.id e.id
        (t.values (env.wall (.persist rt.record.id)) ackedBy)
      rw [hs.find?_eq hmem, Option.map_some, Services.rewrite_self] at hfind
      exact hfind
    constructor
    · have hhistory : (s.updateEvent e.id
          (t.values (env.wall (.persist rt.record.id)) ackedBy)).history = s.history
            ++ [.update e.id (t.values (env.wall (.persist rt.record.id)) ackedBy)] := rfl
      refine mirrored_of_write hhistory rfl rfl ?_ _
      refine ⟨info, _, rfl, hrow, heventId, fun record ↦ ?_⟩
      exact (rowFields_noted_iff ht hcopy hkeeps _ ackedBy hinfo record).mpr
        ⟨hvalue hf, hcleared hf⟩
    · intro x hx
      rw [rollback, Services.openOf_announced, hs.openOf_updateEvent hopen,
        Transition.state_values] at hx
      by_cases hnormal : t.toState = .normal
      · rw [if_pos hnormal] at hx
        exact absurd hx List.not_mem_nil
      · rw [if_neg hnormal, List.mem_singleton] at hx
        rw [hx, rollback, RuleRuntime.settled, if_neg hnormal]
        exact hcopy.noted ht hkeeps hto hnormal _ ackedBy

end Transition

/-! ## The turn of a rule -/

/-- A turn that finds `condition` and `value` takes no alarm stored without a value from one state
to another once a value is known. -/
def RuleRuntime.Unvalued (rt : RuleRuntime) (env : Env) (condition : Option Bool)
    (value : Option PyFloat) : Prop :=
  rt.eventId.isSome = true → condition = some (!AlarmMachine.holds rt.machine.state) →
    env.fails (.updateEvent rt.record.id) = false → rt.raisedValue = none →
      rt.value = none ∧ value = none

/-- The messages of a turn of the rule mirror its row, and the runtime still keeps a copy of it. -/
def MirroredTurn (rule : RuleId) (s : Services) (x : Scope) : Prop :=
  Mirrored s x.services ∧ ∀ e ∈ x.services.openOf rule, x.runtime.CopyOf e

theorem AlarmMachine.kind_ne_acked {m : AlarmMachine} {condition : Bool} {now : Instant}
    {t : Transition} (h : t ∈ (m.update condition now).2) : t.kind ≠ .acked := by
  obtain ⟨d, s, p⟩ := m
  cases s <;> cases condition
  case normal.true =>
    by_cases hdue : d ≤ elapsed ⟨d, .pending, some now⟩ now <;>
      simp [update, enter, advance, hdue] at h <;> rcases h with rfl | rfl <;> decide
  case pending.true =>
    by_cases hdue : d ≤ elapsed ⟨d, .pending, p⟩ now <;> simp [update, enter, advance, hdue] at h
    rw [h]
    decide
  all_goals
    simp [update, enter, advance] at h <;> rw [h] <;> decide

section Turn

variable {env : Env} {rt rt' : RuleRuntime} {s : Services}

theorem mirroredTurn_of_keeps (ha : Agrees rt s)
    (hcopy : ∀ e ∈ s.openOf rt.record.id, rt.CopyOf e) (hkeeps : rt.Keeps rt')
    (hstate : rt'.machine.state = rt.machine.state ∨ rt.machine.state.isOpen = false) :
    MirroredTurn rt.record.id s ⟨rt', s⟩ := by
  refine ⟨.refl s, fun e he ↦ (hcopy e he).of_keeps hkeeps fun hcleared ↦ ?_⟩
  rcases hstate with hstate | hclosed
  · rw [← hstate]
    exact hcleared
  · -- a rule without an open alarm has no row to copy
    rcases ha with ⟨-, -, hopen⟩ | ⟨_, hisOpen, -⟩
    · rw [hopen] at he
      exact absurd he List.not_mem_nil
    · rw [hclosed] at hisOpen
      cases hisOpen

theorem RuleRuntime.keeps_stepped (rt : RuleRuntime) (condition : Bool) (value : Option PyFloat)
    (now : Instant) : rt.Keeps (rt.stepped condition value now) :=
  ⟨⟨rfl, rfl, rfl⟩, rfl, rfl, rfl, rfl⟩

theorem update_mirrored (henv : env.Delivers) (hs : s.Sound) (ha : Agrees rt s)
    (hcopy : ∀ e ∈ s.openOf rt.record.id, rt.CopyOf e) {condition : Bool}
    {value : Option PyFloat} (hvalue : rt.Unvalued env (some condition) value) :
    MirroredTurn rt.record.id s (update env condition value ⟨rt, s⟩) := by
  have hkeeps := rt.keeps_stepped condition value (env.clock (.update rt.record.id))
  rw [update_eq]
  rcases rt.machine.update_cases condition (env.clock (.update rt.record.id)) with
    ⟨hquiet, hstate⟩ | ⟨ts, t, hts, hquiet, hedge, hpersistent, hto, hfrom⟩
  · rw [persistAll_quiet env hquiet]
    exact mirroredTurn_of_keeps ha hcopy hkeeps (hstate.imp id And.left)
  · have hmem : t ∈ (rt.machine.update condition (env.clock (.update rt.record.id))).2 := by
      rw [hts]
      exact List.mem_append_right ts (List.mem_singleton_self t)
    rw [hts, persistAll_edge env hquiet hpersistent]
    rcases ha with ⟨hclosed, hid, hopen⟩ | ⟨e, hisOpen, hid, hopen, -, -⟩
    · -- no alarm is open: this is its raising
      have hfromClosed : t.fromState.isOpen = false := by
        rcases hfrom with hfrom | ⟨-, hpending⟩
        · rw [hfrom]
          exact hclosed
        · rw [hpending]
          rfl
      obtain ⟨-, hkind, hactive⟩ := Edge.of_not_isOpen hedge hfromClosed
      rcases @raise_mirrored env t none (rt.stepped condition value
        (env.clock (.update rt.record.id))) s henv hkind hactive hid hopen with
        ⟨f, hp⟩ | ⟨rt₁, s₁, hp, hmirrored, hcopies⟩
      · rw [hp]
        refine ⟨.refl s, fun e he ↦ ?_⟩
        rw [rollback, hopen] at he
        exact absurd he List.not_mem_nil
      · rw [hp]
        exact ⟨hmirrored, hcopies⟩
    · have hfrom' : t.fromState = rt.machine.state := by
        refine hfrom.resolve_right fun h ↦ ?_
        rw [h.1] at hisOpen
        cases hisOpen
      have hcondition : condition = !AlarmMachine.holds rt.machine.state := by
        by_contra hne
        have hholds : AlarmMachine.holds rt.machine.state = condition := by
          cases condition <;> cases hh : AlarmMachine.holds rt.machine.state <;> simp_all
        have hpending : rt.machine.state ≠ .pending := by
          intro h
          rw [h] at hisOpen
          cases hisOpen
        rw [AlarmMachine.update_of_holds hholds hpending] at hmem
        exact absurd hmem List.not_mem_nil
      refine change_mirrored henv hs hedge hid hopen
        (hcopy e (hopen ▸ List.mem_singleton_self e)) hkeeps hfrom' hto (fun hf hnone ↦ ?_)
        fun _ hk ↦ absurd hk (AlarmMachine.kind_ne_acked hmem)
      obtain ⟨hknown, hgiven⟩ := hvalue (by rw [hid]; rfl) (congrArg some hcondition) hf hnone
      simp [RuleRuntime.stepped, RuleRuntime.observe, hknown, hgiven]

end Turn

/-! ## Loops over rules -/

/-- The invariant: the engine agrees with the store, and keeps a copy of the rows of its alarms. -/
structure Copied (w : AlarmSystem) : Prop where
  consistent : Consistent w
  copies : ∀ rt ∈ w.engine.rules, ∀ e ∈ w.services.openOf rt.record.id, rt.CopyOf e

section Loop

variable {env : Env} {w : AlarmSystem}

theorem Copied.turn (hw : Copied w) {rt : RuleRuntime} {x : Scope} (hrt : rt ∈ w.engine.rules)
    (hprogress : Progress ⟨rt, w.services⟩ x) (hx : MirroredTurn rt.record.id w.services x) :
    Copied ⟨w.engine.set x.runtime, x.services⟩ := by
  refine ⟨hw.consistent.move (.turn hrt hprogress), fun rt' hrt' e he ↦ ?_⟩
  obtain ⟨-, -, hrecord, hframe⟩ := hprogress.agrees hw.consistent.sound
    (hw.consistent.agrees rt hrt)
  rcases AlarmEngine.mem_set hrt' with rfl | ⟨hmem, hne⟩
  · rw [hrecord] at he
    exact hx.2 e he
  · rw [hframe _ fun heq ↦ hne (by rw [hrecord]; exact heq.symm)] at he
    exact hw.copies rt' hmem e he

/-- **A loop over rules keeps the invariant, and its messages mirror the rows**, where the turn of
each rule does. -/
theorem Copied.forEach {body : Scope → Scope} (hbody : Updates env body) (henv : env.Delivers)
    (hw : Copied w) {rules : List RuleId} (hnodup : rules.Nodup)
    (hturn : ∀ rule ∈ rules, ∀ rt, w.engine.find? rule = some rt → ∀ s, s.Sound → Agrees rt s →
      (∀ e ∈ s.openOf rt.record.id, rt.CopyOf e) → MirroredTurn rt.record.id s (body ⟨rt, s⟩)) :
    Copied (w.forEach rules body) ∧ Mirrored w.services (w.forEach rules body).services := by
  induction rules generalizing w with
  | nil => exact ⟨hw, .refl _⟩
  | cons rule rules ih =>
    obtain ⟨hnot, hnodup'⟩ := List.nodup_cons.mp hnodup
    have hstep : w.forEach (rule :: rules) body = (w.visit body rule).forEach rules body := rfl
    rw [hstep]
    cases hfind : w.engine.find? rule with
    | none =>
      rw [AlarmSystem.visit_of_find?_eq_none body hfind]
      exact ih hw hnodup' fun rule' hrule' ↦ hturn rule' (List.mem_cons_of_mem _ hrule')
    | some rt =>
      obtain ⟨hrt, hid⟩ := AlarmEngine.find?_eq_some hfind
      have ha := hw.consistent.agrees rt hrt
      have hprogress : Progress ⟨rt, w.services⟩ (body ⟨rt, w.services⟩) :=
        hbody.progress henv ha
      have hmirrored := hturn rule List.mem_cons_self rt hfind w.services hw.consistent.sound ha
        (hw.copies rt hrt)
      have hrecord := (hprogress.agrees hw.consistent.sound ha).2.2.1
      rw [AlarmSystem.visit_of_find?_eq_some body hfind]
      obtain ⟨hcopied, hrest⟩ := ih (hw.turn hrt hprogress hmirrored) hnodup'
        fun rule' hrule' rt' hfind' ↦ by
          -- the other rules have not had their turn
          have hne : (body ⟨rt, w.services⟩).runtime.record.id ≠ rule' := by
            rw [hrecord, hid]
            exact fun heq ↦ hnot (heq ▸ hrule')
          rw [AlarmEngine.find?_set_of_ne hne] at hfind'
          exact hturn rule' (List.mem_cons_of_mem _ hrule') rt' hfind'
      exact ⟨hcopied, hmirrored.1.trans hrest⟩

end Loop

/-! ## The operations -/

section Operations

variable {env : Env} {w : AlarmSystem} {rt : RuleRuntime} {s : Services}

theorem RuleRuntime.keeps_validAt (rt : RuleRuntime) (instant : Option Instant) :
    rt.Keeps (rt.validAt instant) :=
  ⟨⟨rfl, rfl, rfl⟩, rfl, rfl, rfl, rfl⟩

/-- A turn that moves the instant of the last value, and updates the machine where it finds a
condition. -/
theorem turn_mirrored (henv : env.Delivers) (hs : s.Sound) (ha : Agrees rt s)
    (hcopy : ∀ e ∈ s.openOf rt.record.id, rt.CopyOf e) {condition : Option Bool}
    {value : Option PyFloat} (hvalue : rt.Unvalued env condition value) {x : Scope}
    {instant : Option Instant}
    (hx : (condition = none ∧ x = ⟨rt.validAt instant, s⟩) ∨ ∃ c, condition = some c ∧
      x = update env c value ⟨rt.validAt instant, s⟩) :
    MirroredTurn rt.record.id s x := by
  have hkeeps := rt.keeps_validAt instant
  rcases hx with ⟨-, rfl⟩ | ⟨c, rfl, rfl⟩
  · exact mirroredTurn_of_keeps ha hcopy hkeeps (.inl rfl)
  · exact update_mirrored henv hs (ha.of_same hkeeps.same rfl)
      (fun e he ↦ (hcopy e he).of_keeps hkeeps id) hvalue

/-- The condition `_initial_evaluation` finds for a new rule, `none` where it does not evaluate
it. -/
def RuleRuntime.initialCondition (env : Env) (rt : RuleRuntime) : Option Bool :=
  if rt.record.kind ∈ valueKinds then
    (env.latest rt.record.pointId).bind fun last ↦ evaluateValue rt.record.kind last.value
      rt.record.threshold rt.record.hysteresis rt.condition
  else if rt.record.kind = .commLost ∧ env.online rt.record.deviceId = some false then some true
  else none

/-- The value it gives with the condition. -/
def RuleRuntime.initialValue (env : Env) (rt : RuleRuntime) : Option PyFloat :=
  if rt.record.kind ∈ valueKinds then (env.latest rt.record.pointId).bind LatestValue.value
  else none

theorem evaluateInitial_eq (env : Env) (rt : RuleRuntime) (s : Services) :
    ∃ instant, (rt.initialCondition env = none ∧
        evaluateInitial env ⟨rt, s⟩ = ⟨rt.validAt instant, s⟩) ∨
      ∃ condition, rt.initialCondition env = some condition ∧ evaluateInitial env ⟨rt, s⟩
        = update env condition (rt.initialValue env) ⟨rt.validAt instant, s⟩ := by
  refine ⟨(env.latest rt.record.pointId).map fun last ↦
    env.clock (.valid rt.record.id) - max 0 (env.wall .initial - last.ts), ?_⟩
  have hvalid : ∀ instant, (rt.validAt instant).condition = rt.condition := fun _ ↦ rfl
  rw [evaluateInitial, RuleRuntime.initialCondition, RuleRuntime.initialValue]
  dsimp only
  rw [hvalid]
  by_cases hkind : rt.record.kind ∈ valueKinds
  · simp only [if_pos hkind]
    cases hlatest : env.latest rt.record.pointId with
    | none => exact .inl ⟨rfl, rfl⟩
    | some last =>
      dsimp only [Option.bind_some]
      cases evaluateValue rt.record.kind last.value rt.record.threshold rt.record.hysteresis
          rt.condition with
      | none => exact .inl ⟨rfl, rfl⟩
      | some condition => exact .inr ⟨condition, rfl, rfl⟩
  · simp only [if_neg hkind]
    split
    · exact .inr ⟨true, rfl, rfl⟩
    · exact .inl ⟨rfl, rfl⟩

end Operations

end Superviseur
