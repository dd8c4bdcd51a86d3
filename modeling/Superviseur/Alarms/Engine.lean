import Superviseur.Alarms.Rules
import Superviseur.Alarms.Store

/-!
# The alarm engine

The engine evaluates the rules, drives their machines, stores and announces the transitions. Its
operations run one at a time under a lock, so each is a function of the environment it runs in.

`persist` is the part that can raise half way. It is written in `EStateM`, whose errors keep the
state reached: the fields a runtime was given before the exception stay as they are, and so do the
writes already made to the services. `update` and `acknowledge` are the two callers that catch it
and put the machine back.

The source keeps the rules in a dictionary by rule identifier; here `rules` is the list of its
values, the key of a runtime being `record.id`. The indexes hold the identifiers of runtimes where
the source holds references to the same objects, and are rebuilt by a reload that gets that far, as
in the source.
-/

namespace Superviseur

structure RuleRuntime where
  record : RuleRecord
  machine : AlarmMachine
  condition : Bool
  eventId : Option EventId
  raisedAt : Option Instant
  ackedAt : Option Instant
  ackedBy : Option String
  clearedAt : Option Instant
  value : Option PyFloat
  raisedValue : Option PyFloat
  /-- Reading of the monotonic clock at the last value received (`stale` rules). -/
  lastValid : Instant

/-- A runtime with its default fields. -/
def RuleRuntime.new (record : RuleRecord) (machine : AlarmMachine) (lastValid : Instant) :
    RuleRuntime where
  record := record
  machine := machine
  condition := false
  eventId := none
  raisedAt := none
  ackedAt := none
  ackedBy := none
  clearedAt := none
  value := none
  raisedValue := none
  lastValid := lastValid

/-- The machine put in state `s`, everything else kept. -/
def RuleRuntime.setState (rt : RuleRuntime) (s : AlarmState) : RuleRuntime :=
  { rt with machine := { rt.machine with state := s } }

/-- `last_valid` at the instant given, if any. -/
def RuleRuntime.validAt (rt : RuleRuntime) (instant : Option Instant) : RuleRuntime :=
  { rt with lastValid := instant.getD rt.lastValid }

/-- `_info`: the snapshot to announce; `none` where its assertion fails. -/
def RuleRuntime.info (rt : RuleRuntime) (state : AlarmState) : Option AlarmInfo :=
  match rt.eventId, rt.raisedAt with
  | some eventId, some raisedAt => some {
      eventId := eventId
      ruleId := rt.record.id
      ruleName := rt.record.name
      kind := rt.record.kind
      severity := rt.record.severity
      state := state
      pointId := rt.record.pointId
      pointName := rt.record.pointName
      path := rt.record.path
      unit := rt.record.unit
      threshold := rt.record.threshold
      value := if rt.raisedValue.isSome then rt.raisedValue else rt.value
      raisedAt := raisedAt
      ackedAt := rt.ackedAt
      ackedBy := rt.ackedBy
      clearedAt := rt.clearedAt }
  | _, _ => none

/-! ## Persisting a transition -/

/-- What a transition works on: the runtime of its rule and the services. -/
structure Scope where
  runtime : RuleRuntime
  services : Services

abbrev Act := EStateM Failure Scope

/-- A call outside the engine: it raises, without effect, where the environment says so. -/
def attempt (env : Env) (call : Call) : Act Unit :=
  if env.fails call then throw (.unavailable call) else pure ()

def modifyRuntime (f : RuleRuntime → RuleRuntime) : Act Unit :=
  modify fun x ↦ { x with runtime := f x.runtime }

def modifyServices (f : Services → Services) : Act Unit :=
  modify fun x ↦ { x with services := f x.services }

/-- `store.update_event`, for the alarm of the runtime. -/
def writeEvent (env : Env) (id : EventId) (values : EventValues) : Act Unit := do
  attempt env (.updateEvent (← get).runtime.record.id)
  modifyServices fun s ↦ s.updateEvent id values

/-- First half of `_persist`: the write of the transition in the store. -/
def writeTransition (env : Env) (t : Transition) (ackedBy : Option String) : Act Unit := do
  let rt := (← get).runtime
  let now := env.wall (.persist rt.record.id)
  match t.kind, rt.eventId with
  | .raised, none =>
    attempt env (.createEvent rt.record.id)
    let (id, services) := (← get).services.createEvent rt.record.id now rt.value
    modifyServices fun _ ↦ services
    modifyRuntime fun rt ↦ { rt with
      eventId := some id
      raisedAt := some now
      raisedValue := rt.value
      ackedAt := none
      ackedBy := none
      clearedAt := none }
  | .raised, some id =>
    -- the condition came back before the acknowledgement: same alarm, active again
    writeEvent env id ⟨t.toState, none, none, some none⟩
    modifyRuntime fun rt ↦ { rt with clearedAt := none }
  | _, none => throw .noOpenAlarm
  | .cleared, some id =>
    modifyRuntime fun rt ↦ { rt with clearedAt := some now }
    writeEvent env id ⟨t.toState, none, none, some (some now)⟩
  | .acked, some id =>
    writeEvent env id ⟨t.toState, some (some now), some ackedBy, none⟩
    modifyRuntime fun rt ↦ { rt with ackedAt := some now, ackedBy := ackedBy }
  | .normal, some id =>
    modifyRuntime fun rt ↦ { rt with clearedAt := some now }
    writeEvent env id ⟨t.toState, none, none, some (some now)⟩
  | .pending, some _ | .cancelled, some _ => pure ()

/-- Second half of `_persist`: publication, notification, and the end of a closed alarm. -/
def announce (env : Env) (t : Transition) : Act Unit := do
  let rt := (← get).runtime
  match rt.info t.toState with
  | none => throw .assertion
  | some info =>
    attempt env (.publish rt.record.id)
    modifyServices fun s ↦ s.publish ⟨t.kind, .full info⟩
    if rt.record.notify ≠ [] then
      attempt env (.submit rt.record.id)
      modifyServices fun s ↦ s.submit (buildNotification info t.kind rt.record.notify)
    if t.toState = .normal then
      modifyRuntime fun rt ↦ { rt with eventId := none }

/-- `_persist`. -/
def persist (env : Env) (t : Transition) (ackedBy : Option String) : Act Unit := do
  writeTransition env t ackedBy
  announce env t

/-- The loop of `_update` over the transitions: a transition that is not stored is undone. -/
def persistAll (env : Env) : List Transition → Scope → Scope
  | [], x => x
  | t :: ts, x =>
    if t.persistent then
      match persist env t none x with
      | .ok _ x' => persistAll env ts x'
      | .error _ x' => { x' with runtime := x'.runtime.setState t.fromState }
    else persistAll env ts x

/-- The fields `_update` sets before it looks at the transitions. -/
def RuleRuntime.observe (rt : RuleRuntime) (condition : Bool) (value : Option PyFloat) :
    RuleRuntime :=
  { rt with
    condition := condition
    value := if value.isSome then value else rt.value }

/-- `_update`. -/
def update (env : Env) (condition : Bool) (value : Option PyFloat) (x : Scope) : Scope :=
  let rt := x.runtime.observe condition value
  let (machine, ts) := rt.machine.update condition (env.clock (.update rt.record.id))
  persistAll env ts { x with runtime := { rt with machine := machine } }

/-! ## Engine and operations -/

structure AlarmEngine where
  rules : List RuleRuntime
  byPoint : List (PointId × RuleId)
  byDevice : List (DeviceId × RuleId)
  byObject : List ((ℤ × String × ℤ) × RuleId)

/-- The engine with the services around it. -/
structure AlarmSystem where
  engine : AlarmEngine
  services : Services

namespace AlarmEngine

/-- A new engine, nothing loaded. -/
def empty : AlarmEngine := ⟨[], [], [], []⟩

/-- `self._rules.get(rule)`. -/
def find? (e : AlarmEngine) (rule : RuleId) : Option RuleRuntime :=
  e.rules.find? fun rt ↦ rt.record.id = rule

/-- The runtime of the same rule replaced. -/
def set (e : AlarmEngine) (rt : RuleRuntime) : AlarmEngine :=
  { e with rules := e.rules.map fun x ↦ if x.record.id = rt.record.id then rt else x }

/-- The engine holding `rules`, indexed. -/
def index (rules : List RuleRuntime) : AlarmEngine where
  rules := rules
  byPoint := rules.map fun rt ↦ (rt.record.pointId, rt.record.id)
  byDevice := (rules.filter fun rt ↦ rt.record.kind = .commLost).map fun rt ↦
    (rt.record.deviceId, rt.record.id)
  byObject := (rules.filter fun rt ↦ rt.record.kind = .bacnetEvent).map fun rt ↦
    ((rt.record.deviceInstance, rt.record.objectType, rt.record.objectInstance), rt.record.id)

/-- `index.get(key, [])`. -/
def lookup {κ : Type} [DecidableEq κ] (key : κ) (index : List (κ × RuleId)) : List RuleId :=
  (index.filter fun p ↦ p.1 = key).map Prod.snd

end AlarmEngine

namespace AlarmSystem

/-- One turn of a loop over runtimes. -/
def visit (body : Scope → Scope) (w : AlarmSystem) (rule : RuleId) : AlarmSystem :=
  match w.engine.find? rule with
  | none => w
  | some rt =>
    let x := body ⟨rt, w.services⟩
    ⟨w.engine.set x.runtime, x.services⟩

/-- `for runtime in ...: body`, over the runtimes of the rules listed. -/
def forEach (rules : List RuleId) (body : Scope → Scope) (w : AlarmSystem) : AlarmSystem :=
  rules.foldl (visit body) w

end AlarmSystem

/-! ### Loading -/

/-- `_restore`. -/
def restore (env : Env) (record : RuleRecord) (event : Option AlarmEvent) : RuleRuntime :=
  let state := match event with
    | some e => e.state
    | none => .normal
  let rt := RuleRuntime.new record (.new record.delayS state) (env.clock (.restore record.id))
  match event with
  | none => rt
  | some e => { rt with
      eventId := some e.id
      raisedAt := some e.raisedAt
      ackedAt := e.ackedAt
      ackedBy := e.ackedBy
      clearedAt := e.clearedAt
      raisedValue := e.raisedValue
      value := e.raisedValue
      condition := e.state.isActive }

/-- A runtime already known is given its new record. -/
def refresh (records : List RuleRecord) (rt : RuleRuntime) : RuleRuntime :=
  match records.find? fun record ↦ record.id = rt.record.id with
  | none => rt
  | some record =>
    { rt with record := record, machine := { rt.machine with delayS := record.delayS } }

/-- `_close_orphan`. -/
def closeOrphan (env : Env) (event : AlarmEvent) (s : Services) : Services × Option Failure :=
  if env.fails (.updateEvent event.ruleId) then
    (s, some (.unavailable (.updateEvent event.ruleId)))
  else
    let clearedAt := event.clearedAt.getD (env.wall (.orphan event.ruleId))
    let s := s.updateEvent event.id ⟨.normal, none, none, some (some clearedAt)⟩
    if env.fails (.publish event.ruleId) then
      (s, some (.unavailable (.publish event.ruleId)))
    else (s.publish ⟨.normal, .orphan event.id .normal⟩, none)

/-- The loop that closes the alarms of the rules no longer loaded; it stops where one raises. -/
def closeOrphans (env : Env) : List AlarmEvent → Services → Services × Option Failure
  | [], s => (s, none)
  | event :: events, s =>
    match closeOrphan env event s with
    | (s, some failure) => (s, some failure)
    | (s, none) => closeOrphans env events s

/-- The body of the loop of `_initial_evaluation`. -/
def evaluateInitial (env : Env) (x : Scope) : Scope :=
  let record := x.runtime.record
  let last := env.latest record.pointId
  let x := { x with runtime := x.runtime.validAt (last.map fun last ↦
    env.clock (.valid record.id) - max 0 (env.wall .initial - last.ts)) }
  if record.kind ∈ valueKinds then
    match last with
    | none => x
    | some last =>
      match evaluateValue record.kind last.value record.threshold record.hysteresis
          x.runtime.condition with
      | none => x
      | some condition => update env condition last.value x
  else if record.kind = .commLost ∧ env.online record.deviceId = some false then
    update env true none x
  else x

/-- `_initial_evaluation`. -/
def initialEvaluation (env : Env) (fresh : List RuleId) (w : AlarmSystem) :
    AlarmSystem × Option Failure :=
  if fresh = [] then (w, none)
  else if env.fails .latestValues then (w, some (.unavailable .latestValues))
  else if env.fails .devicesOnline then (w, some (.unavailable .devicesOnline))
  else (w.forEach fresh (evaluateInitial env), none)

/-- The runtime of a record: the one already known, with its new record, or a restored one. -/
def runtimeOf (env : Env) (known : List RuleRuntime) (events : List AlarmEvent)
    (record : RuleRecord) : RuleRuntime :=
  match known.find? fun rt ↦ rt.record.id = record.id with
  | some rt => rt
  | none => restore env record (events.find? fun e ↦ e.ruleId = record.id)

/-- `load`. -/
def load (env : Env) (w : AlarmSystem) : AlarmSystem × Option Failure :=
  if env.fails .loadRules then (w, some (.unavailable .loadRules))
  else if env.fails .openEvents then (w, some (.unavailable .openEvents))
  else
    let records := env.rules.val
    let events := w.services.openEvents
    let known := w.engine.rules.map (refresh records)
    let orphans := events.filter fun e ↦ e.ruleId ∉ records.map RuleRecord.id
    match closeOrphans env orphans w.services with
    | (s, some failure) => (⟨{ w.engine with rules := known }, s⟩, some failure)
    | (s, none) =>
      let fresh := (records.map RuleRecord.id).filter fun rule ↦
        rule ∉ known.map fun rt ↦ rt.record.id
      initialEvaluation env fresh ⟨.index (records.map (runtimeOf env known events)), s⟩

/-! ### Observations -/

/-- The body of the loop of `on_value`. -/
def observeValue (env : Env) (value : Option PyFloat) (x : Scope) : Scope :=
  let record := x.runtime.record
  let x := { x with runtime := x.runtime.validAt (value.map fun _ ↦ env.clock (.valid record.id)) }
  if record.kind ∈ valueKinds then
    match evaluateValue record.kind value record.threshold record.hysteresis
        x.runtime.condition with
    | none => x
    | some condition => update env condition value x
  else if record.kind = .stale ∧ value.isSome then update env false value x
  else x

def onValue (env : Env) (point : PointId) (value : Option PyFloat) (w : AlarmSystem) :
    AlarmSystem :=
  w.forEach (AlarmEngine.lookup point w.engine.byPoint) (observeValue env value)

def onDeviceStatus (env : Env) (device : DeviceId) (online : Bool) (w : AlarmSystem) :
    AlarmSystem :=
  w.forEach (AlarmEngine.lookup device w.engine.byDevice) (update env (!online) none)

def onBacnetEvent (env : Env) (deviceInstance : ℤ) (objectType : String) (objectInstance : ℤ)
    (toState : String) (w : AlarmSystem) : AlarmSystem :=
  w.forEach (AlarmEngine.lookup (deviceInstance, objectType, objectInstance) w.engine.byObject)
    (update env (isAbnormalEventState toState) none)

/-- The body of the loop of `tick`. -/
def tickRule (env : Env) (x : Scope) : Scope :=
  match x.runtime.record.kind, x.runtime.record.threshold with
  | .stale, some threshold =>
    update env (isStale (env.clock .tick - x.runtime.lastValid) threshold) none x
  | _, _ =>
    if x.runtime.machine.state = .pending then update env x.runtime.condition none x else x

def tick (env : Env) (w : AlarmSystem) : AlarmSystem :=
  w.forEach (w.engine.rules.map fun rt ↦ rt.record.id) (tickRule env)

/-! ### Acknowledgement -/

structure AckResult where
  ok : Bool
  error : Option String
  deriving DecidableEq

/-- `await self._store.user_login(user_id)`, then `_persist`, as one `try` block. -/
def persistAck (env : Env) (t : Transition) (user : UserId) : Act Unit := do
  attempt env .userLogin
  persist env t (some (textOr (env.login user) (toString user)))

def acknowledge (env : Env) (eventId : EventId) (user : UserId) (w : AlarmSystem) :
    AlarmSystem × AckResult :=
  match w.engine.rules.find? fun rt ↦ rt.eventId = some eventId with
  | none => (w, ⟨false, some "alarme introuvable ou déjà close"⟩)
  | some rt =>
    match rt.machine.acknowledge with
    | (_, none) =>
      (w, ⟨false, some ("acquittement impossible dans l'état " ++ rt.machine.state.value)⟩)
    | (machine, some t) =>
      match persistAck env t user ⟨{ rt with machine := machine }, w.services⟩ with
      | .ok _ x => (⟨w.engine.set x.runtime, x.services⟩, ⟨true, none⟩)
      | .error _ x =>
        -- nothing has changed: a new attempt is possible
        (⟨w.engine.set (x.runtime.setState t.fromState), x.services⟩,
          ⟨false, some "erreur d'enregistrement de l'acquittement"⟩)

/-! ### Runs -/

/-- The operations of the engine, and the restart of the process. -/
inductive Op where
  | load
  | onValue (point : PointId) (value : Option PyFloat)
  | onDeviceStatus (device : DeviceId) (online : Bool)
  | onBacnetEvent (deviceInstance : ℤ) (objectType : String) (objectInstance : ℤ)
      (toState : String)
  | tick
  | acknowledge (eventId : EventId) (user : UserId)
  | restart

/-- The system after one operation. -/
def step (env : Env) (w : AlarmSystem) : Op → AlarmSystem
  | .load => (load env w).1
  | .onValue point value => onValue env point value w
  | .onDeviceStatus device online => onDeviceStatus env device online w
  | .onBacnetEvent deviceInstance objectType objectInstance toState =>
    onBacnetEvent env deviceInstance objectType objectInstance toState w
  | .tick => tick env w
  | .acknowledge eventId user => (acknowledge env eventId user w).1
  | .restart => { w with engine := .empty }

end Superviseur
