import Superviseur.Alarms.Messages
import Mathlib.Data.List.Nodup

/-!
# The services around the alarm engine

What the engine writes (the table `alarm_event`, the channel `alarm.event`, the notifier) is the
state `Services`; what it only reads (rules, latest values, devices, accounts, clocks) and whether a
call raises comes from the environment `Env` of the operation under way. Inside one operation every
call has a name of its own, `Call`: a rule is updated at most once by an operation, so no call is
made twice under the same name and an `Env` is free to make any one of them fail.
-/

namespace Superviseur

abbrev RuleId := Uuid
abbrev EventId := Uuid
abbrev PointId := Uuid
abbrev DeviceId := Uuid
abbrev UserId := Uuid

/-- A rule with the point and the device it is about. -/
structure RuleRecord where
  id : RuleId
  pointId : PointId
  name : Option String
  kind : AlarmKind
  threshold : Option PyFloat
  hysteresis : PyFloat
  delayS : ℤ
  severity : Severity
  notify : List String
  pointName : String
  path : Option String
  unit : Option String
  objectType : String
  objectInstance : ℤ
  deviceId : DeviceId
  deviceInstance : ℤ

/-- A row of `alarm_event`. -/
structure AlarmEvent where
  id : EventId
  ruleId : RuleId
  state : AlarmState
  raisedAt : Instant
  ackedAt : Option Instant
  ackedBy : Option String
  clearedAt : Option Instant
  raisedValue : Option PyFloat

structure LatestValue where
  ts : Instant
  value : Option PyFloat
  status : String

/-! ## The environment of an operation -/

/-- The calls an operation makes outside the engine. -/
inductive Call where
  | loadRules
  | openEvents
  | latestValues
  | devicesOnline
  | userLogin
  | createEvent (rule : RuleId)
  | updateEvent (rule : RuleId)
  | publish (rule : RuleId)
  | submit (rule : RuleId)
  deriving DecidableEq

/-- Calls of the store, as opposed to the bus and the notifier. -/
def Call.isStore : Call → Bool
  | publish _ | submit _ => false
  | _ => true

/-- The places where the monotonic clock is read. -/
inductive ClockRead where
  | update (rule : RuleId)
  | valid (rule : RuleId)
  | restore (rule : RuleId)
  | tick
  deriving DecidableEq

/-- The places where the wall clock is read. -/
inductive WallRead where
  | persist (rule : RuleId)
  | orphan (rule : RuleId)
  | initial
  deriving DecidableEq

/-- What the rest of the system answers during one operation. -/
structure Env where
  /-- The call raises, without effect. -/
  fails : Call → Bool
  clock : ClockRead → Instant
  wall : WallRead → Instant
  /-- The enabled rules, one row per identifier. -/
  rules : { l : List RuleRecord // (l.map RuleRecord.id).Nodup }
  latest : PointId → Option LatestValue
  online : DeviceId → Option Bool
  login : UserId → Option String

/-- What an operation can raise. -/
inductive Failure where
  | unavailable (call : Call)
  /-- `RuntimeError("transition sans alarme ouverte")`. -/
  | noOpenAlarm
  | assertion
  deriving DecidableEq

/-! ## The table of alarms -/

/-- The columns an `UPDATE` of `alarm_event` sets; `none` leaves a column as it is. -/
structure EventValues where
  state : AlarmState
  ackedAt : Option (Option Instant)
  ackedBy : Option (Option String)
  clearedAt : Option (Option Instant)

def EventValues.apply (v : EventValues) (e : AlarmEvent) : AlarmEvent :=
  { e with
    state := v.state
    ackedAt := v.ackedAt.getD e.ackedAt
    ackedBy := v.ackedBy.getD e.ackedBy
    clearedAt := v.clearedAt.getD e.clearedAt }

/-- A successful write of the store. -/
inductive StoreWrite where
  | create (event : AlarmEvent)
  | update (id : EventId) (values : EventValues)

namespace StoreWrite

def eventId : StoreWrite → EventId
  | create event => event.id
  | update id _ => id

/-- The state the write leaves in the row. -/
def state : StoreWrite → AlarmState
  | create event => event.state
  | update _ values => values.state

end StoreWrite

/-- What the engine writes: the table, with the successive writes made to it, the messages on
`alarm.event` and the notifications submitted. -/
structure Services where
  events : List AlarmEvent
  history : List StoreWrite
  published : List AlarmMessage
  notifications : List Notification

namespace Services

/-- `select ... where state <> 'normal'`. -/
def openEvents (s : Services) : List AlarmEvent :=
  s.events.filter fun e ↦ decide (e.state ≠ .normal)

/-- The open alarms of one rule. -/
def openOf (s : Services) (rule : RuleId) : List AlarmEvent :=
  s.events.filter fun e ↦ decide (e.ruleId = rule ∧ e.state ≠ .normal)

/-- An identifier that no row has. -/
def freshId (s : Services) : EventId := (s.events.map AlarmEvent.id).foldr max 0 + 1

/-- The row `createEvent` inserts. -/
def newEvent (s : Services) (rule : RuleId) (raisedAt : Instant) (raisedValue : Option PyFloat) :
    AlarmEvent :=
  ⟨s.freshId, rule, .activeUnacked, raisedAt, none, none, none, raisedValue⟩

/-- The table after the insertion of an alarm. -/
def inserted (s : Services) (rule : RuleId) (raisedAt : Instant) (raisedValue : Option PyFloat) :
    Services :=
  { s with
    events := s.events ++ [s.newEvent rule raisedAt raisedValue]
    history := s.history ++ [.create (s.newEvent rule raisedAt raisedValue)] }

/-- Inserts an alarm. The partial unique index refuses a second open alarm of one rule; the one that
is open is then taken up again. -/
def createEvent (s : Services) (rule : RuleId) (raisedAt : Instant)
    (raisedValue : Option PyFloat) : EventId × Services :=
  match s.openOf rule with
  | existing :: _ => (existing.id, s)
  | [] => (s.freshId, s.inserted rule raisedAt raisedValue)

def updateEvent (s : Services) (id : EventId) (values : EventValues) : Services :=
  { s with
    events := s.events.map fun e ↦ if e.id = id then values.apply e else e
    history := s.history ++ [.update id values] }

def publish (s : Services) (m : AlarmMessage) : Services :=
  { s with published := s.published ++ [m] }

def submit (s : Services) (n : Notification) : Services :=
  { s with notifications := s.notifications ++ [n] }

/-! ### Reading back what was written -/

@[simp] theorem openOf_publish (s : Services) (m : AlarmMessage) (rule : RuleId) :
    (s.publish m).openOf rule = s.openOf rule := rfl

@[simp] theorem openOf_submit (s : Services) (n : Notification) (rule : RuleId) :
    (s.submit n).openOf rule = s.openOf rule := rfl

theorem mem_openOf {s : Services} {rule : RuleId} {e : AlarmEvent} :
    e ∈ s.openOf rule ↔ e ∈ s.events ∧ e.ruleId = rule ∧ e.state ≠ .normal := by
  rw [openOf, List.mem_filter, decide_eq_true_iff]

theorem mem_openEvents {s : Services} {e : AlarmEvent} :
    e ∈ s.openEvents ↔ e ∈ s.events ∧ e.state ≠ .normal := by
  rw [openEvents, List.mem_filter, decide_eq_true_iff]

theorem lt_freshId {s : Services} {e : AlarmEvent} (h : e ∈ s.events) : e.id < s.freshId := by
  rw [freshId]
  generalize s.events = l at h
  induction l with
  | nil => cases h
  | cons a l ih =>
    rw [List.map_cons, List.foldr_cons]
    rcases List.mem_cons.mp h with rfl | h
    · exact Nat.lt_succ_of_le (le_max_left _ _)
    · exact (ih h).trans_le (Nat.succ_le_succ (le_max_right _ _))

theorem createEvent_of_openOf_nil {s : Services} {rule : RuleId} (h : s.openOf rule = [])
    (raisedAt : Instant) (raisedValue : Option PyFloat) :
    s.createEvent rule raisedAt raisedValue =
      (s.freshId, s.inserted rule raisedAt raisedValue) := by
  rw [createEvent, h]

end Services

/-! ## A sound table -/

/-- What the table keeps: one row per identifier, one open alarm per rule (the partial unique
index), and no alarm that is only pending. -/
structure Services.Sound (s : Services) : Prop where
  nodup : (s.events.map AlarmEvent.id).Nodup
  unique : ∀ rule, (s.openOf rule).length ≤ 1
  stored : ∀ e ∈ s.events, e.state ≠ .pending

namespace Services

variable {s : Services} {e : AlarmEvent} {rule : RuleId}

theorem Sound.eq_of_id (hs : s.Sound) {e' : AlarmEvent} (he : e ∈ s.events) (he' : e' ∈ s.events)
    (h : e'.id = e.id) : e' = e :=
  List.inj_on_of_nodup_map hs.nodup he' he h

theorem Sound.openOf_eq (hs : s.Sound) (he : e ∈ s.openEvents) : s.openOf e.ruleId = [e] := by
  obtain ⟨hmem, hopen⟩ := mem_openEvents.mp he
  have he' : e ∈ s.openOf e.ruleId := mem_openOf.mpr ⟨hmem, rfl, hopen⟩
  obtain ⟨x, hx⟩ := List.length_eq_one_iff.mp
    (le_antisymm (hs.unique e.ruleId) (List.length_pos_of_mem he'))
  rw [hx, List.mem_singleton] at he'
  rw [hx, he']

/-- What an update makes of each row. -/
def rewrite (id : EventId) (values : EventValues) (e : AlarmEvent) : AlarmEvent :=
  if e.id = id then values.apply e else e

@[simp] theorem rewrite_id (id : EventId) (values : EventValues) (e : AlarmEvent) :
    (rewrite id values e).id = e.id := by
  unfold rewrite
  split <;> rfl

@[simp] theorem rewrite_ruleId (id : EventId) (values : EventValues) (e : AlarmEvent) :
    (rewrite id values e).ruleId = e.ruleId := by
  unfold rewrite
  split <;> rfl

theorem rewrite_of_ne {id : EventId} (h : e.id ≠ id) (values : EventValues) :
    rewrite id values e = e := if_neg h

theorem rewrite_self (e : AlarmEvent) (values : EventValues) :
    rewrite e.id values e = values.apply e := if_pos rfl

theorem events_updateEvent (s : Services) (id : EventId) (values : EventValues) :
    (s.updateEvent id values).events = s.events.map (rewrite id values) := rfl

theorem ids_updateEvent (s : Services) (id : EventId) (values : EventValues) :
    (s.updateEvent id values).events.map AlarmEvent.id = s.events.map AlarmEvent.id := by
  rw [events_updateEvent, List.map_map]
  exact List.map_congr_left fun e _ ↦ rewrite_id id values e

theorem Sound.openOf_updateEvent (hs : s.Sound) (h : s.openOf rule = [e]) (values : EventValues) :
    (s.updateEvent e.id values).openOf rule =
      if values.state = .normal then [] else [values.apply e] := by
  obtain ⟨hmem, hrule, hopen⟩ := mem_openOf.mp (h ▸ List.mem_singleton_self e)
  -- the rows selected after the update, in terms of those selected before
  have hselect : ∀ x ∈ s.events,
      decide ((rewrite e.id values x).ruleId = rule ∧ (rewrite e.id values x).state ≠ .normal)
        = (decide (x.ruleId = rule ∧ x.state ≠ .normal) &&
          decide (x.id = e.id → values.state ≠ .normal)) := by
    intro x hx
    by_cases hid : x.id = e.id
    · have hxe := hs.eq_of_id hmem hx hid
      subst hxe
      simp [rewrite_self, EventValues.apply, hrule, hopen]
    · simp [rewrite_of_ne hid, hid]
  have hfilter : (s.updateEvent e.id values).openOf rule
      = ((s.openOf rule).filter fun x ↦ decide (x.id = e.id → values.state ≠ .normal)).map
          (rewrite e.id values) := by
    rw [openOf, openOf, events_updateEvent, List.filter_map, List.filter_filter]
    congr 1
    refine List.filter_congr fun x hx ↦ ?_
    rw [Function.comp_apply, hselect x hx, Bool.and_comm]
  rw [hfilter, h]
  by_cases hv : values.state = .normal <;> simp [hv, rewrite_self]

theorem Sound.openOf_updateEvent_of_ne (hs : s.Sound) (he : e ∈ s.events) (hrule : e.ruleId ≠ rule)
    (values : EventValues) : (s.updateEvent e.id values).openOf rule = s.openOf rule := by
  have hself : ∀ x ∈ s.openOf rule, rewrite e.id values x = x := by
    intro x hx
    obtain ⟨hmem, hxrule, -⟩ := mem_openOf.mp hx
    refine rewrite_of_ne (fun hid ↦ hrule ?_) values
    rw [← hs.eq_of_id he hmem hid, hxrule]
  have hfilter : (s.updateEvent e.id values).openOf rule
      = (s.openOf rule).map (rewrite e.id values) := by
    rw [openOf, openOf, events_updateEvent, List.filter_map]
    congr 1
    refine List.filter_congr fun x hx ↦ ?_
    rw [Function.comp_apply, rewrite_ruleId]
    by_cases hid : x.id = e.id
    · rw [hs.eq_of_id he hx hid]
      simp [hrule]
    · rw [rewrite_of_ne hid]
  rw [hfilter, List.map_congr_left hself, List.map_id']

theorem openOf_inserted (s : Services) (rule rule' : RuleId) (raisedAt : Instant)
    (raisedValue : Option PyFloat) : (s.inserted rule raisedAt raisedValue).openOf rule' =
      s.openOf rule' ++ if rule = rule' then [s.newEvent rule raisedAt raisedValue] else [] := by
  rw [openOf, openOf, inserted, List.filter_append]
  congr 1
  by_cases h : rule = rule' <;> simp [newEvent, h]

theorem Sound.inserted (hs : s.Sound) (h : s.openOf rule = []) (raisedAt : Instant)
    (raisedValue : Option PyFloat) : (s.inserted rule raisedAt raisedValue).Sound := by
  refine ⟨?_, ?_, ?_⟩
  · rw [Services.inserted, List.map_append, List.nodup_append]
    refine ⟨hs.nodup, List.nodup_singleton _, ?_⟩
    intro id hid id' hid'
    obtain ⟨e, he, rfl⟩ := List.mem_map.mp hid
    rw [List.mem_singleton.mp hid']
    exact (lt_freshId he).ne
  · intro rule'
    rw [openOf_inserted]
    by_cases hrule : rule = rule'
    · rw [← hrule, h]
      simp
    · simpa [hrule] using hs.unique rule'
  · intro e he
    rcases List.mem_append.mp he with he | he
    · exact hs.stored e he
    · rw [List.mem_singleton.mp he]
      simp [newEvent]

theorem Sound.updateEvent (hs : s.Sound) (he : e ∈ s.openEvents) {values : EventValues}
    (hvalues : values.state ≠ .pending) : (s.updateEvent e.id values).Sound := by
  refine ⟨?_, ?_, ?_⟩
  · rw [ids_updateEvent]
    exact hs.nodup
  · intro rule
    by_cases hrule : e.ruleId = rule
    · rw [← hrule, hs.openOf_updateEvent (hs.openOf_eq he)]
      split <;> simp
    · rw [hs.openOf_updateEvent_of_ne (mem_openEvents.mp he).1 hrule]
      exact hs.unique rule
  · intro x hx
    rw [events_updateEvent] at hx
    obtain ⟨y, hy, rfl⟩ := List.mem_map.mp hx
    unfold rewrite
    split
    · exact hvalues
    · exact hs.stored y hy

theorem Sound.mem_openEvents_updateEvent {e' : AlarmEvent} (he' : e' ∈ s.openEvents)
    {id : EventId} (hne : e'.id ≠ id) (values : EventValues) :
    e' ∈ (s.updateEvent id values).openEvents := by
  obtain ⟨hmem, hopen⟩ := mem_openEvents.mp he'
  refine mem_openEvents.mpr ⟨?_, hopen⟩
  rw [events_updateEvent, ← rewrite_of_ne hne values]
  exact List.mem_map_of_mem hmem

end Services

end Superviseur
