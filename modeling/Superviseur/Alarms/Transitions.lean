import Superviseur.Library.EState
import Superviseur.Alarms.Engine

/-!
# What one transition does

One specification lemma for each function of the engine, in the order of the calls. A transition is
written (`writeTransition`), then announced (`announce`); the callers undo the state of the machine
where either raised. With a bus that does not fail, the outcome of the whole is one of two: nothing
left the engine, or exactly one write, one message and at most one notification did. The second
outcome is the relation `Stored`, and the results about runs use the engine through it.
-/

namespace Superviseur

/-! ## The primitive calls -/

@[simp] theorem attempt_apply (env : Env) (call : Call) (x : Scope) :
    attempt env call x = if env.fails call then .error (.unavailable call) x else .ok () x := by
  unfold attempt
  split <;> rfl

@[simp] theorem modifyRuntime_apply (f : RuleRuntime → RuleRuntime) (x : Scope) :
    modifyRuntime f x = .ok () { x with runtime := f x.runtime } := rfl

@[simp] theorem modifyServices_apply (f : Services → Services) (x : Scope) :
    modifyServices f x = .ok () { x with services := f x.services } := rfl

@[simp] theorem writeEvent_apply (env : Env) (id : EventId) (values : EventValues) (x : Scope) :
    writeEvent env id values x =
      if env.fails (.updateEvent x.runtime.record.id) then
        .error (.unavailable (.updateEvent x.runtime.record.id)) x
      else .ok () { x with services := x.services.updateEvent id values } := by
  by_cases h : env.fails (.updateEvent x.runtime.record.id) <;> simp [writeEvent, h]

/-! ## The write -/

namespace Transition

/-- The columns a transition of an open alarm sets. -/
def values (t : Transition) (now : Instant) (ackedBy : Option String) : EventValues :=
  match t.kind with
  | .acked => ⟨t.toState, some (some now), some ackedBy, none⟩
  | .cleared | .normal => ⟨t.toState, none, none, some (some now)⟩
  | _ => ⟨t.toState, none, none, some none⟩

@[simp] theorem state_values (t : Transition) (now : Instant) (ackedBy : Option String) :
    (t.values now ackedBy).state = t.toState := by
  unfold values
  split <;> rfl

end Transition

namespace RuleRuntime

/-- The runtime after the write of a transition of an open alarm. -/
def noted (rt : RuleRuntime) (t : Transition) (now : Instant) (ackedBy : Option String) :
    RuleRuntime :=
  match t.kind with
  | .acked => { rt with ackedAt := some now, ackedBy := ackedBy }
  | .cleared | .normal => { rt with clearedAt := some now }
  | _ => { rt with clearedAt := none }

/-- The runtime where that write raised: `cleared_at` has already been set by two of the kinds. -/
def unwritten (rt : RuleRuntime) (t : Transition) (now : Instant) : RuleRuntime :=
  match t.kind with
  | .cleared | .normal => { rt with clearedAt := some now }
  | _ => rt

/-- The runtime after the insertion of an alarm. -/
def opened (rt : RuleRuntime) (id : EventId) (now : Instant) : RuleRuntime :=
  { rt with
    eventId := some id
    raisedAt := some now
    raisedValue := rt.value
    ackedAt := none
    ackedBy := none
    clearedAt := none }

/-- The runtime after the announcement: a closed alarm is forgotten. -/
def settled (rt : RuleRuntime) (state : AlarmState) : RuleRuntime :=
  if state = .normal then { rt with eventId := none } else rt

/-- Two runtimes of one rule that designate the same alarm. -/
structure Same (rt rt' : RuleRuntime) : Prop where
  record : rt'.record = rt.record
  eventId : rt'.eventId = rt.eventId
  raisedAt : rt'.raisedAt = rt.raisedAt

theorem Same.refl (rt : RuleRuntime) : rt.Same rt := ⟨rfl, rfl, rfl⟩

theorem Same.trans {rt rt' rt'' : RuleRuntime} (h : rt.Same rt') (h' : rt'.Same rt'') :
    rt.Same rt'' :=
  ⟨h'.record.trans h.record, h'.eventId.trans h.eventId, h'.raisedAt.trans h.raisedAt⟩

theorem same_noted (rt : RuleRuntime) (t : Transition) (now : Instant)
    (ackedBy : Option String) : rt.Same (rt.noted t now ackedBy) := by
  unfold noted
  split <;> exact ⟨rfl, rfl, rfl⟩

theorem same_unwritten (rt : RuleRuntime) (t : Transition) (now : Instant) :
    rt.Same (rt.unwritten t now) := by
  unfold unwritten
  split <;> exact ⟨rfl, rfl, rfl⟩

@[simp] theorem machine_noted (rt : RuleRuntime) (t : Transition) (now : Instant)
    (ackedBy : Option String) : (rt.noted t now ackedBy).machine = rt.machine := by
  unfold noted
  split <;> rfl

@[simp] theorem machine_unwritten (rt : RuleRuntime) (t : Transition) (now : Instant) :
    (rt.unwritten t now).machine = rt.machine := by
  unfold unwritten
  split <;> rfl

@[simp] theorem machine_settled (rt : RuleRuntime) (state : AlarmState) :
    (rt.settled state).machine = rt.machine := by
  unfold settled
  split <;> rfl

@[simp] theorem record_settled (rt : RuleRuntime) (state : AlarmState) :
    (rt.settled state).record = rt.record := by
  unfold settled
  split <;> rfl

end RuleRuntime

section Write

variable {env : Env} {t : Transition} {ackedBy : Option String} {rt : RuleRuntime} {s : Services}

/-- An alarm is inserted, or the insertion raised and nothing has changed. -/
theorem writeTransition_create (hk : t.kind = .raised) (hid : rt.eventId = none) :
    writeTransition env t ackedBy ⟨rt, s⟩ =
      if env.fails (.createEvent rt.record.id) then
        .error (.unavailable (.createEvent rt.record.id)) ⟨rt, s⟩
      else
        let now := env.wall (.persist rt.record.id)
        let created := s.createEvent rt.record.id now rt.value
        .ok () ⟨rt.opened created.1 now, created.2⟩ := by
  by_cases h : env.fails (.createEvent rt.record.id) <;>
    simp [writeTransition, hk, hid, h, RuleRuntime.opened]

/-- The alarm of the runtime is updated, or the update raised and its row has not changed. -/
theorem writeTransition_update (ht : t.persistent = true) {id : EventId}
    (hid : rt.eventId = some id) :
    writeTransition env t ackedBy ⟨rt, s⟩ =
      let now := env.wall (.persist rt.record.id)
      if env.fails (.updateEvent rt.record.id) then
        .error (.unavailable (.updateEvent rt.record.id)) ⟨rt.unwritten t now, s⟩
      else .ok () ⟨rt.noted t now ackedBy, s.updateEvent id (t.values now ackedBy)⟩ := by
  obtain ⟨from', to', kind⟩ := t
  cases kind <;> simp [Transition.persistent] at ht <;>
    by_cases h : env.fails (.updateEvent rt.record.id) <;>
    simp [writeTransition, hid, h, RuleRuntime.noted, RuleRuntime.unwritten, Transition.values]

end Write

/-! ## The announcement -/

/-- The services after the announcement of `info`. -/
def Services.announced (s : Services) (info : AlarmInfo) (kind : TransitionKind)
    (channels : List String) : Services :=
  if channels = [] then s.publish ⟨kind, .full info⟩
  else (s.publish ⟨kind, .full info⟩).submit (buildNotification info kind channels)

/-- The bus takes every message and the notifier every notification. -/
def Env.Delivers (env : Env) : Prop := ∀ call, call.isStore = false → env.fails call = false

theorem announce_of_delivers {env : Env} (henv : env.Delivers) {t : Transition}
    {rt : RuleRuntime} {info : AlarmInfo} (hinfo : rt.info t.toState = some info)
    (s : Services) :
    announce env t ⟨rt, s⟩ =
      .ok () ⟨rt.settled t.toState, s.announced info t.kind rt.record.notify⟩ := by
  have hpublish : env.fails (.publish rt.record.id) = false := henv _ rfl
  have hsubmit : env.fails (.submit rt.record.id) = false := henv _ rfl
  by_cases ht : t.toState = .normal
  · rw [ht] at hinfo
    by_cases hn : rt.record.notify = [] <;>
      simp [announce, hinfo, hpublish, hsubmit, hn, ht, Services.announced, RuleRuntime.settled]
  · by_cases hn : rt.record.notify = [] <;>
      simp [announce, hinfo, hpublish, hsubmit, hn, ht, Services.announced, RuleRuntime.settled]

theorem RuleRuntime.info_eq_some (rt : RuleRuntime) {id : EventId} {raisedAt : Instant}
    (hid : rt.eventId = some id) (hraised : rt.raisedAt = some raisedAt) (state : AlarmState) :
    ∃ info, rt.info state = some info ∧ info.eventId = id ∧ info.ruleId = rt.record.id ∧
      info.state = state := by
  unfold RuleRuntime.info
  rw [hid, hraised]
  exact ⟨_, rfl, rfl, rfl, rfl⟩

/-! ## A whole transition -/

/-- One write of the store for the rule of `rt`: `Written rt s id state s'` when the row `id` is
left in `state`. -/
inductive Written (rt : RuleRuntime) (s : Services) : EventId → AlarmState → Services → Prop
  | create (hid : rt.eventId = none) (raisedAt : Instant) (raisedValue : Option PyFloat) :
      Written rt s s.freshId .activeUnacked (s.inserted rt.record.id raisedAt raisedValue)
  | update {id : EventId} (hid : rt.eventId = some id) (values : EventValues) :
      Written rt s id values.state (s.updateEvent id values)

/-- The transition `t` of the rule of `rt` was written and announced. -/
structure Stored (t : Transition) (rt : RuleRuntime) (s : Services) (id : EventId)
    (rt' : RuleRuntime) (s' : Services) : Prop where
  written : ∃ s₁ info, Written rt s id t.toState s₁ ∧
    s' = s₁.announced info t.kind rt.record.notify ∧
    info.eventId = id ∧ info.ruleId = rt.record.id ∧ info.state = t.toState
  record : rt'.record = rt.record
  eventId : rt'.eventId = if t.toState = .normal then none else some id
  raisedAt : rt'.raisedAt.isSome = true

/-- What the runtime of a rule must satisfy for `t` to be persisted: it designates an alarm exactly
when `t` leaves a state with a stored row, and then knows since when. -/
structure Linked (t : Transition) (rt : RuleRuntime) (s : Services) : Prop where
  eventId : rt.eventId.isSome = t.fromState.isOpen
  raisedAt : rt.eventId.isSome = true → rt.raisedAt.isSome = true
  openOf : rt.eventId = none → s.openOf rt.record.id = []

/-- The store call `_persist` makes for the runtime. -/
def RuleRuntime.writeCall (rt : RuleRuntime) : Call :=
  match rt.eventId with
  | none => .createEvent rt.record.id
  | some _ => .updateEvent rt.record.id

theorem Transition.IsEdge.persistent {t : Transition} (h : t.IsEdge) : t.persistent = true := by
  obtain ⟨from', to', kind⟩ := t
  cases h <;> rfl

/-- The first half of `_persist`: the store refused and the services are as they were, or the write
is made. -/
theorem writeTransition_cases {env : Env} {t : Transition} (ht : t.IsEdge) {rt : RuleRuntime}
    {s : Services} (hl : Linked t rt s) (ackedBy : Option String) :
    (env.fails rt.writeCall = true ∧ ∃ f rt', writeTransition env t ackedBy ⟨rt, s⟩
        = .error f ⟨rt', s⟩ ∧ rt.Same rt' ∧ rt'.machine = rt.machine) ∨
      (env.fails rt.writeCall = false ∧ ∃ id rt' s', writeTransition env t ackedBy ⟨rt, s⟩
        = .ok () ⟨rt', s'⟩ ∧ Written rt s id t.toState s' ∧ rt'.record = rt.record ∧
          rt'.machine = rt.machine ∧ rt'.eventId = some id ∧ rt'.raisedAt.isSome = true) := by
  cases hid : rt.eventId with
  | none =>
    -- without an event, the only edge is that of an alarm which is raised
    have hopen : t.fromState.isOpen = false := by
      rw [← hl.eventId, hid]
      rfl
    obtain ⟨-, hkind, hto⟩ := Edge.of_not_isOpen ht hopen
    have hcall : rt.writeCall = .createEvent rt.record.id := by simp [RuleRuntime.writeCall, hid]
    rw [writeTransition_create hkind hid, hcall]
    cases hf : env.fails (.createEvent rt.record.id) with
    | true =>
      left
      exact ⟨rfl, .unavailable (.createEvent rt.record.id), rt, rfl, .refl rt, rfl⟩
    | false =>
      right
      simp only [Services.createEvent_of_openOf_nil (hl.openOf hid), hto]
      exact ⟨trivial, s.freshId, _, _, rfl, .create hid _ _, rfl, rfl, rfl, rfl⟩
  | some id =>
    have hcall : rt.writeCall = .updateEvent rt.record.id := by simp [RuleRuntime.writeCall, hid]
    rw [writeTransition_update ht.persistent hid, hcall]
    cases hf : env.fails (.updateEvent rt.record.id) with
    | true =>
      left
      exact ⟨rfl, .unavailable (.updateEvent rt.record.id), _, rfl, rt.same_unwritten t _,
        rt.machine_unwritten t _⟩
    | false =>
      right
      -- the row of the event is updated with what the rule noted
      have hsame := rt.same_noted t (env.wall (.persist rt.record.id)) ackedBy
      have hwritten : Written rt s id t.toState
          (s.updateEvent id (t.values (env.wall (.persist rt.record.id)) ackedBy)) := by
        rw [← Transition.state_values t (env.wall (.persist rt.record.id)) ackedBy]
        exact .update hid _
      refine ⟨rfl, id, _, _, rfl, hwritten, hsame.record, rt.machine_noted t _ _,
        hsame.eventId.trans hid, ?_⟩
      rw [hsame.raisedAt]
      exact hl.raisedAt (by rw [hid]; rfl)

/-- `_persist` with a bus that delivers: the store refused and nothing left the engine, or the
transition is stored. -/
theorem persist_cases {env : Env} (henv : env.Delivers) {t : Transition} (ht : t.IsEdge)
    {rt : RuleRuntime} {s : Services} (hl : Linked t rt s) (ackedBy : Option String) :
    (env.fails rt.writeCall = true ∧ ∃ f rt', persist env t ackedBy ⟨rt, s⟩ = .error f ⟨rt', s⟩ ∧
        rt.Same rt' ∧ rt'.machine = rt.machine) ∨
      (env.fails rt.writeCall = false ∧ ∃ id rt' s', persist env t ackedBy ⟨rt, s⟩
        = .ok () ⟨rt', s'⟩ ∧ rt'.machine = rt.machine ∧ Stored t rt s id rt' s') := by
  rw [persist, EState.bind_apply]
  rcases writeTransition_cases ht hl ackedBy with ⟨hfails, f, rt', hw, hsame, hmachine⟩ |
    ⟨hfails, id, rt', s', hw, hwritten, hrecord, hmachine, hid, hraised⟩
  · left
    rw [hw]
    exact ⟨hfails, f, rt', rfl, hsame, hmachine⟩
  · right
    obtain ⟨raisedAt, hat⟩ := Option.isSome_iff_exists.mp hraised
    obtain ⟨info, hinfo, h1, h2, h3⟩ := rt'.info_eq_some hid hat t.toState
    rw [hw]
    simp only [announce_of_delivers henv hinfo]
    refine ⟨hfails, id, _, _, rfl, (rt'.machine_settled _).trans hmachine, ?_⟩
    refine ⟨⟨s', info, hwritten, by rw [hrecord], h1, h2.trans (by rw [hrecord]), h3⟩,
      (rt'.record_settled _).trans hrecord, ?_, ?_⟩
    · unfold RuleRuntime.settled
      split
      · rfl
      · exact hid
    · unfold RuleRuntime.settled
      split <;> exact hraised

/-! ## The callers -/

/-- What the callers of `_persist` keep of its outcome: an exception puts the machine back. -/
def rollback (fromState : AlarmState) : EStateM.Result Failure Scope Unit → Scope
  | .ok _ x => x
  | .error _ x => { x with runtime := x.runtime.setState fromState }

theorem persistAll_quiet (env : Env) {ts : List Transition}
    (hts : ts.filter Transition.persistent = []) (x : Scope) : persistAll env ts x = x := by
  induction ts with
  | nil => rfl
  | cons t ts ih =>
    have ht : t.persistent = false := by
      by_contra h
      rw [List.filter_cons_of_pos (by simpa using h)] at hts
      exact List.cons_ne_nil _ _ hts
    rw [List.filter_cons_of_neg (by simp [ht])] at hts
    rw [persistAll, ht]
    exact ih hts

theorem persistAll_edge (env : Env) {ts : List Transition}
    (hts : ts.filter Transition.persistent = []) {t : Transition} (ht : t.persistent = true)
    (x : Scope) : persistAll env (ts ++ [t]) x = rollback t.fromState (persist env t none x) := by
  induction ts with
  | nil =>
    rw [List.nil_append, persistAll, ht]
    cases persist env t none x <;> rfl
  | cons t' ts ih =>
    have ht' : t'.persistent = false := by
      by_contra h
      rw [List.filter_cons_of_pos (by simpa using h)] at hts
      exact List.cons_ne_nil _ _ hts
    rw [List.filter_cons_of_neg (by simp [ht'])] at hts
    rw [List.cons_append, persistAll, ht']
    exact ih hts

/-- The runtime of a rule and the store agree: without an open alarm there is no identifier either,
and an open alarm is the only one of its rule, in the state of the machine. -/
inductive Agrees (rt : RuleRuntime) (s : Services) : Prop
  | idle (hstate : rt.machine.state.isOpen = false) (hid : rt.eventId = none)
      (hopen : s.openOf rt.record.id = [])
  | alarm (e : AlarmEvent) (hstate : rt.machine.state.isOpen = true)
      (hid : rt.eventId = some e.id) (hopen : s.openOf rt.record.id = [e])
      (heq : e.state = rt.machine.state) (hraised : rt.raisedAt.isSome = true)

/-- What a transition that leaves from the state of the machine needs. -/
theorem Agrees.linked {rt : RuleRuntime} {s : Services} (h : Agrees rt s) {t : Transition}
    {rt' : RuleRuntime} (hsame : rt.Same rt')
    (hfrom : t.fromState = rt.machine.state ∨
      rt.machine.state = .normal ∧ t.fromState = .pending) : Linked t rt' s := by
  have hopen : t.fromState.isOpen = rt.machine.state.isOpen := by
    rcases hfrom with hfrom | ⟨hnormal, hpending⟩
    · rw [hfrom]
    · rw [hnormal, hpending]
      rfl
  cases h with
  | idle hstate hid hnone =>
    refine ⟨?_, ?_, ?_⟩
    · rw [hsame.eventId, hid, hopen, hstate]
      rfl
    · rw [hsame.eventId, hid]
      exact fun h ↦ absurd h (by decide)
    · rw [hsame.record]
      exact fun _ ↦ hnone
  | alarm e hstate hid _ _ hraised =>
    refine ⟨?_, ?_, ?_⟩
    · rw [hsame.eventId, hid, hopen, hstate]
      rfl
    · rw [hsame.raisedAt]
      exact fun _ ↦ hraised
    · rw [hsame.eventId, hid]
      exact fun h ↦ absurd h (by simp)

/-- What one turn of the engine can do to a rule: nothing that leaves the engine, or one
transition. -/
inductive Progress (x x' : Scope) : Prop
  | quiet (hsame : x.runtime.Same x'.runtime) (hservices : x'.services = x.services)
      (hstate : x'.runtime.machine.state = x.runtime.machine.state ∨
        x.runtime.machine.state.isOpen = false ∧ x'.runtime.machine.state.isOpen = false)
  | stored (t : Transition) (id : EventId) (hedge : t.IsEdge)
      (hfrom : t.fromState = x.runtime.machine.state ∨
        x.runtime.machine.state = .normal ∧ t.fromState = .pending)
      (hstate : x'.runtime.machine.state = t.toState)
      (hstored : Stored t x.runtime x.services id x'.runtime x'.services)

theorem Progress.refl (x : Scope) : Progress x x := .quiet (.refl _) rfl (.inl rfl)

theorem Written.of_same {rt rt' : RuleRuntime} (hsame : rt.Same rt') {s s' : Services}
    {id : EventId} {state : AlarmState} (h : Written rt' s id state s') :
    Written rt s id state s' := by
  cases h with
  | create hnone raisedAt raisedValue =>
    rw [hsame.record]
    exact .create (hsame.eventId ▸ hnone) raisedAt raisedValue
  | update hsome values => exact .update (hsame.eventId ▸ hsome) values

theorem Stored.of_same {t : Transition} {rt rt' rt'' : RuleRuntime} (hsame : rt.Same rt')
    {s s' : Services} {id : EventId} (h : Stored t rt' s id rt'' s') :
    Stored t rt s id rt'' s' := by
  obtain ⟨⟨s₁, info, hw, hs, h1, h2, h3⟩, hrecord, hid, hraised⟩ := h
  rw [hsame.record] at hs h2 hrecord
  exact ⟨⟨s₁, info, hw.of_same hsame, hs, h1, h2, h3⟩, hrecord, hid, hraised⟩

theorem Progress.of_same {rt rt' : RuleRuntime} {s : Services} {x : Scope} (hsame : rt.Same rt')
    (hmachine : rt'.machine = rt.machine) (h : Progress ⟨rt', s⟩ x) : Progress ⟨rt, s⟩ x := by
  cases h with
  | quiet hsame' hservices hstate =>
    rw [hmachine] at hstate
    exact .quiet (hsame.trans hsame') hservices hstate
  | stored t id hedge hfrom hstate hstored =>
    rw [hmachine] at hfrom
    exact .stored t id hedge hfrom hstate (hstored.of_same hsame)

theorem Agrees.of_same {rt rt' : RuleRuntime} {s : Services} (hsame : rt.Same rt')
    (hstate : rt'.machine.state = rt.machine.state) (h : Agrees rt s) : Agrees rt' s := by
  cases h with
  | idle hclosed hid hopen =>
    refine .idle (by rw [hstate, hclosed]) (hsame.eventId.trans hid) ?_
    rw [hsame.record, hopen]
  | alarm e hisOpen hid hopen heq hraised =>
    refine .alarm e (by rw [hstate, hisOpen]) (hsame.eventId.trans hid) ?_ (by rw [heq, hstate])
      (by rw [hsame.raisedAt, hraised])
    rw [hsame.record, hopen]

theorem Agrees.of_openOf {rt : RuleRuntime} {s s' : Services} (h : Agrees rt s)
    (hopen : s'.openOf rt.record.id = s.openOf rt.record.id) : Agrees rt s' := by
  cases h with
  | idle hclosed hid hnone => exact .idle hclosed hid (hopen.trans hnone)
  | alarm e hisOpen hid hone heq hraised =>
    exact .alarm e hisOpen hid (hopen.trans hone) heq hraised

section Callers

variable {env : Env} {rt : RuleRuntime} {s : Services}

/-- A transition leaving from the state of the machine, persisted and rolled back where that
raised. -/
theorem rollback_progress (henv : env.Delivers) (ha : Agrees rt s) {rt' : RuleRuntime}
    (hsame : rt.Same rt') {t : Transition} (ht : t.IsEdge)
    (hfrom : t.fromState = rt.machine.state ∨
      rt.machine.state = .normal ∧ t.fromState = .pending)
    (hto : rt'.machine.state = t.toState) (ackedBy : Option String) :
    Progress ⟨rt, s⟩ (rollback t.fromState (persist env t ackedBy ⟨rt', s⟩)) := by
  rcases persist_cases henv ht (ha.linked hsame hfrom) ackedBy with
    ⟨_, f, rt'', hp, hsame', -⟩ | ⟨_, id, rt'', s', hp, hmachine, hstored⟩
  · rw [hp]
    refine .quiet (hsame.trans ⟨hsame'.record, hsame'.eventId, hsame'.raisedAt⟩) rfl ?_
    rcases hfrom with hfrom | ⟨hnormal, hpending⟩
    · exact .inl hfrom
    · right
      simp only [rollback, RuleRuntime.setState, hnormal, hpending]
      exact ⟨rfl, rfl⟩
  · rw [hp]
    refine .stored t id ht hfrom ?_ (hstored.of_same hsame)
    exact (congrArg AlarmMachine.state hmachine).trans hto

/-- The runtime `_update` hands to the loop over the transitions. -/
def RuleRuntime.stepped (rt : RuleRuntime) (condition : Bool) (value : Option PyFloat)
    (now : Instant) : RuleRuntime :=
  { rt.observe condition value with machine := (rt.machine.update condition now).1 }

theorem update_eq (env : Env) (condition : Bool) (value : Option PyFloat) (rt : RuleRuntime)
    (s : Services) :
    update env condition value ⟨rt, s⟩
      = persistAll env (rt.machine.update condition (env.clock (.update rt.record.id))).2
        ⟨rt.stepped condition value (env.clock (.update rt.record.id)), s⟩ := rfl

theorem update_progress (henv : env.Delivers) (ha : Agrees rt s) (condition : Bool)
    (value : Option PyFloat) : Progress ⟨rt, s⟩ (update env condition value ⟨rt, s⟩) := by
  have hsame : rt.Same (rt.stepped condition value (env.clock (.update rt.record.id))) :=
    ⟨rfl, rfl, rfl⟩
  rw [update_eq]
  rcases rt.machine.update_cases condition (env.clock (.update rt.record.id)) with
    ⟨hquiet, hstate⟩ | ⟨ts, t, hts, hquiet, hedge, hpersistent, hstate, hfrom⟩
  · rw [persistAll_quiet env hquiet]
    exact .quiet hsame rfl hstate
  · rw [hts, persistAll_edge env hquiet hpersistent]
    exact rollback_progress henv ha hsame hedge hfrom hstate none

/-- Where the store takes the write, `_update` leaves the machine as the machine itself does. -/
theorem machine_update (henv : env.Delivers) (ha : Agrees rt s)
    (hstore : env.fails rt.writeCall = false) (condition : Bool) (value : Option PyFloat) :
    (update env condition value ⟨rt, s⟩).runtime.machine
      = (rt.machine.update condition (env.clock (.update rt.record.id))).1 := by
  rw [update_eq]
  rcases rt.machine.update_cases condition (env.clock (.update rt.record.id)) with
    ⟨hquiet, -⟩ | ⟨ts, t, hts, hquiet, hedge, hpersistent, -, hfrom⟩
  · rw [persistAll_quiet env hquiet]
    rfl
  · rw [hts, persistAll_edge env hquiet hpersistent]
    have hsame : rt.Same (rt.stepped condition value (env.clock (.update rt.record.id))) :=
      ⟨rfl, rfl, rfl⟩
    rcases persist_cases henv hedge (ha.linked hsame hfrom) none with
      ⟨hfails, -⟩ | ⟨-, id, rt', s', hp, hmachine, -⟩
    · have hcall : (rt.stepped condition value (env.clock (.update rt.record.id))).writeCall
          = rt.writeCall := rfl
      rw [hcall, hstore] at hfails
      cases hfails
    · rw [hp]
      exact hmachine

/-- The guarded block of `acknowledge`; an exception leaves the services as they were. -/
theorem persistAck_progress (henv : env.Delivers) (ha : Agrees rt s) {t : Transition}
    (ht : t.IsEdge) (hfrom : t.fromState = rt.machine.state) (user : UserId) :
    Progress ⟨rt, s⟩ (rollback t.fromState (persistAck env t user ⟨rt.setState t.toState, s⟩)) ∧
      ∀ f x, persistAck env t user ⟨rt.setState t.toState, s⟩ = .error f x → x.services = s := by
  have hsame : rt.Same (rt.setState t.toState) := ⟨rfl, rfl, rfl⟩
  cases hlogin : env.fails .userLogin with
  | true =>
    have hack : persistAck env t user ⟨rt.setState t.toState, s⟩
        = .error (.unavailable .userLogin) ⟨rt.setState t.toState, s⟩ := by
      simp [persistAck, hlogin]
    rw [hack]
    refine ⟨.quiet ⟨rfl, rfl, rfl⟩ rfl (.inl hfrom), ?_⟩
    intro f x hx
    cases hx
    rfl
  | false =>
    have hack : persistAck env t user ⟨rt.setState t.toState, s⟩ = persist env t
        (some (textOr (env.login user) (toString user))) ⟨rt.setState t.toState, s⟩ := by
      simp [persistAck, hlogin]
    rw [hack]
    refine ⟨rollback_progress henv ha hsame ht (.inl hfrom) rfl _, ?_⟩
    intro f x hx
    rcases persist_cases henv ht (ha.linked hsame (.inl hfrom))
        (some (textOr (env.login user) (toString user))) with
      ⟨_, f', rt', hp, -⟩ | ⟨_, id, rt', s', hp, -⟩
    · rw [hp] at hx
      cases hx
      rfl
    · rw [hp] at hx
      cases hx

end Callers

/-! ## The turns of the loops -/

/-- `body` moves `last_valid` at most, and then updates the machine at most once. -/
def Updates (env : Env) (body : Scope → Scope) : Prop :=
  ∀ x, ∃ instant, body x = ⟨x.runtime.validAt instant, x.services⟩ ∨
    ∃ condition value, body x =
      update env condition value ⟨x.runtime.validAt instant, x.services⟩

theorem updates_update (env : Env) (condition : Bool) (value : Option PyFloat) :
    Updates env (update env condition value) :=
  fun _ ↦ ⟨none, .inr ⟨condition, value, rfl⟩⟩

theorem updates_observeValue (env : Env) (value : Option PyFloat) :
    Updates env (observeValue env value) := by
  intro x
  refine ⟨value.map fun _ ↦ env.clock (.valid x.runtime.record.id), ?_⟩
  unfold observeValue
  dsimp only
  split
  · split
    · exact .inl rfl
    · exact .inr ⟨_, _, rfl⟩
  · split
    · exact .inr ⟨_, _, rfl⟩
    · exact .inl rfl

theorem updates_evaluateInitial (env : Env) : Updates env (evaluateInitial env) := by
  intro x
  refine ⟨(env.latest x.runtime.record.pointId).map fun last ↦
    env.clock (.valid x.runtime.record.id) - max 0 (env.wall .initial - last.ts), ?_⟩
  unfold evaluateInitial
  dsimp only
  split
  · split
    · exact .inl rfl
    · split
      · exact .inl rfl
      · exact .inr ⟨_, _, rfl⟩
  · split
    · exact .inr ⟨_, _, rfl⟩
    · exact .inl rfl

theorem updates_tickRule (env : Env) : Updates env (tickRule env) := by
  intro x
  refine ⟨none, ?_⟩
  unfold tickRule
  split
  · exact .inr ⟨_, _, rfl⟩
  · split
    · exact .inr ⟨_, _, rfl⟩
    · exact .inl rfl

/-- **A turn of any loop of the engine makes progress** for a rule that agrees with the store. -/
theorem Updates.progress {env : Env} {body : Scope → Scope} (hbody : Updates env body)
    (henv : env.Delivers) {rt : RuleRuntime} {s : Services} (ha : Agrees rt s) :
    Progress ⟨rt, s⟩ (body ⟨rt, s⟩) := by
  obtain ⟨instant, h⟩ := hbody ⟨rt, s⟩
  have hsame : rt.Same (rt.validAt instant) := ⟨rfl, rfl, rfl⟩
  refine Progress.of_same hsame rfl ?_
  rcases h with h | ⟨condition, value, h⟩
  · rw [h]
    exact .refl _
  · rw [h]
    exact update_progress henv (ha.of_same hsame rfl) condition value

end Superviseur
