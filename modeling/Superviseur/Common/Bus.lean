import Superviseur.Alarms.Runs
import Superviseur.Api.AlarmRules
import Superviseur.Collector.Registry
import Superviseur.Common.Commands
import Superviseur.Library.JsonText

/-!
# What the services say to each other

The services know each other by the channels of Redis only, and by the texts they publish there:
the collector the readings, the state of the devices and the events they notify, the engine the
changes of the alarms, the API the changes of the rules and of the points. A listener takes the
channels it has subscribed to, and reads each text again.

A text that is not read raises, and the listener goes on with the next one. None of those that the
services publish is: what reaches the engine, a WebSocket or the collector is, message by message,
what was published for it (`all_told`).
-/

namespace Superviseur.Bus

/-! ## The channels -/

def channelDeviceStatus : String := "device.status"

def channelAlarmEvent : String := "alarm.event"

def channelPointConfig : String := "point.config"

def channelBacnetEvent : String := "bacnet.event"

def channelAlarmRules : String := "alarm.rules"

def channelDiscoveryRun : String := "discovery.run"

/-- `point_value_channel("")`. -/
def valuePrefix : String := "point.value."

def pointValueChannel (pointId : Uuid) : String := valuePrefix ++ UuidText.write pointId

def writeResultChannel (commandId : String) : String := "cmd.result." ++ commandId

def alarmResultChannel (commandId : String) : String := "alarm.result." ++ commandId

/-! ## What is published -/

structure EventNotice where
  deviceInstance : ℤ
  objectType : String
  objectInstance : ℤ
  toState : String
  fromState : Option String
  message : Option String

/-- What the services publish. -/
inductive Message where
  /-- `Recorder._publish`. -/
  | value (reading : Reading)
  /-- `Poller._publish_status`. -/
  | deviceStatus (deviceId : Uuid) (deviceInstance : ℤ) (online : Bool) (ts : Instant)
  /-- `publish_event`. -/
  | bacnetEvent (notice : EventNotice)
  /-- `AlarmEngine._publish`. -/
  | alarmEvent (message : AlarmMessage)
  /-- `_announce`. -/
  | alarmRules
  /-- `update_point`. -/
  | pointConfig (pointId : Uuid)
  /-- `run_discovery`. -/
  | discoveryRun
  /-- `CommandConsumer.process`. -/
  | writeResult (result : CommandResult)
  /-- `AlarmCommands.process`. -/
  | alarmResult (result : CommandResult)

/-- A message of Redis. -/
structure Wire where
  channel : String
  data : List Char

/-- The texts of the language: of an instant (`isoformat`), and of the numbers. -/
structure Language where
  isoformat : Instant → String
  floats : Json.FloatTexts

def textJson (text : Option String) : Json := text.elim .null .str

def numberJson (x : Option PyFloat) : Json := x.elim .null .float

def severityValue : Severity → String
  | .info => "info"
  | .warning => "warning"
  | .critical => "critical"

section

variable (lang : Language)

def isoJson (t : Option Instant) : Json := t.elim .null fun t ↦ .str (lang.isoformat t)

/-- `as_dict`. -/
def asDict (info : AlarmInfo) : Dict :=
  [("id", .str (UuidText.write info.eventId)), ("rule_id", .str (UuidText.write info.ruleId)),
    ("rule_name", textJson info.ruleName), ("kind", .str info.kind.value),
    ("severity", .str (severityValue info.severity)), ("state", .str info.state.value),
    ("point_id", .str (UuidText.write info.pointId)), ("point_name", .str info.pointName),
    ("path", textJson info.path), ("unit", textJson info.unit),
    ("threshold", numberJson info.threshold), ("value", numberJson info.value),
    ("raised_at", .str (lang.isoformat info.raisedAt)), ("acked_at", isoJson lang info.ackedAt),
    ("acked_by", textJson info.ackedBy), ("cleared_at", isoJson lang info.clearedAt)]

def eventDict : AlarmPayload → Dict
  | .full info => asDict lang info
  | .orphan id state => [("id", .str (UuidText.write id)), ("state", .str state.value)]

/-- The fields of a published value. -/
def valueDict (reading : Reading) : Dict :=
  [("ts", .str (lang.isoformat reading.ts)), ("value", numberJson reading.value),
    ("status", .str reading.status.value)]

def resultDict (result : CommandResult) : Dict :=
  [("command_id", .str result.commandId), ("status", .str result.status),
    ("message", textJson result.message)]

def noticeDict (notice : EventNotice) : Dict :=
  [("device_instance", .int notice.deviceInstance), ("object_type", .str notice.objectType),
    ("object_instance", .int notice.objectInstance), ("to_state", .str notice.toState),
    ("from_state", textJson notice.fromState), ("message", textJson notice.message)]

def statusDict (deviceId : Uuid) (deviceInstance : ℤ) (online : Bool) (ts : Instant) : Dict :=
  [("device_id", .str (UuidText.write deviceId)), ("instance", .int deviceInstance),
    ("online", .bool online), ("ts", .str (lang.isoformat ts))]

def Message.channel : Message → String
  | .value reading => pointValueChannel reading.pointId
  | .deviceStatus .. => channelDeviceStatus
  | .bacnetEvent _ => channelBacnetEvent
  | .alarmEvent _ => channelAlarmEvent
  | .alarmRules => channelAlarmRules
  | .pointConfig _ => channelPointConfig
  | .discoveryRun => channelDiscoveryRun
  | .writeResult result => writeResultChannel result.commandId
  | .alarmResult result => alarmResultChannel result.commandId

/-- The object that is written of a message; `run` is published as it is. -/
def Message.payload : Message → Option Dict
  | .value reading => some (valueDict lang reading)
  | .deviceStatus deviceId deviceInstance online ts =>
    some (statusDict lang deviceId deviceInstance online ts)
  | .bacnetEvent notice => some (noticeDict notice)
  | .alarmEvent message =>
    some [("transition", .str message.transition.value),
      ("event", .obj (eventDict lang message.event))]
  | .alarmRules => some [("reload", .bool true)]
  | .pointConfig pointId => some [("point_id", .str (UuidText.write pointId))]
  | .discoveryRun => none
  | .writeResult result | .alarmResult result => some (resultDict result)

/-- What Redis receives of a message. -/
def Message.wire (m : Message) : Wire where
  channel := m.channel
  data := (m.payload lang).elim "run".toList fun payload ↦ Json.dumps lang.floats (.obj payload)

end

/-! ## The engine -/

/-- What `EngineRunner.dispatch` calls. -/
inductive EngineCall where
  | onValue (pointId : Uuid) (value status : Json)
  | onDeviceStatus (deviceId : Uuid) (online : Bool)
  | onBacnetEvent (deviceInstance : ℤ) (objectType : String) (objectInstance : ℤ)
      (toState : String)
  | load

/-- `uuid.UUID(x)`, for a decoded value. -/
def uuidOf : Json → Except String Uuid
  | .str s => match UuidText.read s with
    | some id => .ok id
    | none => .error "badly formed hexadecimal UUID string"
  | .null => .error "one of the hex, bytes, bytes_le, fields, or int arguments must be given"
  | x => .error s!"'{x.typeName}' object has no attribute 'replace'"

/-- `json.loads`. -/
def decoded (floats : Json.FloatTexts) (data : List Char) : Except String Json :=
  (Json.loads floats data).elim (.error "Expecting value") .ok

/-- `x[key]`. -/
def subscript (x : Json) (key : String) : Except String Json :=
  match x with
  | .obj d => Dict.item d key
  | x => .error x.notSubscriptable

/-- `x.get(key, default)`. -/
def getAttr (x : Json) (key : String) (default : Json) : Except String Json :=
  match x with
  | .obj d => .ok ((d.lookup key).getD default)
  | x => .error s!"'{x.typeName}' object has no attribute 'get'"

/-- What follows the prefix of the channels of the values, on one of them. -/
def valueSuffix (channel : String) : Option String :=
  if valuePrefix.toList.isPrefixOf channel.toList then
    some (String.ofList (channel.toList.drop valuePrefix.toList.length))
  else none

namespace EngineRunner

/-- The channels `EngineRunner.run` subscribes to. -/
def listens (channel : String) : Bool :=
  (valueSuffix channel).isSome ||
    channel ∈ [channelDeviceStatus, channelBacnetEvent, channelAlarmRules]

/-- `EngineRunner.dispatch`. -/
def dispatch (floats : Json.FloatTexts) (texts : Texts) (w : Wire) :
    Except String (Option EngineCall) :=
  match valueSuffix w.channel with
  | some suffix => do
    let payload ← decoded floats w.data
    let pointId ← uuidOf (.str suffix)
    return some (.onValue pointId (← getAttr payload "value" .null)
      (← getAttr payload "status" (.str "ok")))
  | none =>
    if w.channel = channelDeviceStatus then do
      let payload ← decoded floats w.data
      let deviceId ← uuidOf (← subscript payload "device_id")
      return some (.onDeviceStatus deviceId (← subscript payload "online").truthy)
    else if w.channel = channelBacnetEvent then do
      let payload ← decoded floats w.data
      let deviceInstance ← (← subscript payload "device_instance").toInt texts
      let objectType := (← subscript payload "object_type").toStr texts
      let objectInstance ← (← subscript payload "object_instance").toInt texts
      let toState := (← subscript payload "to_state").toStr texts
      return some (.onBacnetEvent deviceInstance objectType objectInstance toState)
    else if w.channel = channelAlarmRules then return some .load
    else return none

end EngineRunner

/-- The operation of a call, where the value is a number or missing. -/
def EngineCall.op : EngineCall → Option Op
  | .onValue pointId .null _ => some (.onValue pointId none)
  | .onValue pointId (.float x) _ => some (.onValue pointId (some x))
  | .onValue .. => none
  | .onDeviceStatus deviceId online => some (.onDeviceStatus deviceId online)
  | .onBacnetEvent deviceInstance objectType objectInstance toState =>
    some (.onBacnetEvent deviceInstance objectType objectInstance toState)
  | .load => some .load

/-- What the published messages have the engine do. -/
def Message.op : Message → Option Op
  | .value reading => some (.onValue reading.pointId reading.value)
  | .deviceStatus deviceId _ online _ => some (.onDeviceStatus deviceId online)
  | .bacnetEvent notice =>
    some (.onBacnetEvent notice.deviceInstance notice.objectType notice.objectInstance
      notice.toState)
  | .alarmRules => some .load
  | _ => none

/-- The engine, after the messages that Redis gives it; what raises is logged. -/
def engineAfter (env : Env) (lang : Language) (texts : Texts) (w : AlarmSystem)
    (messages : List Wire) : AlarmSystem :=
  (messages.filter fun m ↦ EngineRunner.listens m.channel).foldl
    (fun w m ↦ match EngineRunner.dispatch lang.floats texts m with
      | .ok (some call) => call.op.elim w (step env w)
      | _ => w) w

/-! ## A WebSocket, and the settings of the points -/

/-- `channel in conn.pubsub`. -/
def connected (points : List Uuid) (channel : String) : Bool :=
  channel = channelAlarmEvent || channel ∈ points.map pointValueChannel

/-- What `_pump` sends for a message. -/
def relay (floats : Json.FloatTexts) (w : Wire) : Except String (Option Dict) := do
  let data ← decoded floats w.data
  if w.channel = channelAlarmEvent then
    return some [("type", .str "alarm"), ("event", data)]
  else match valueSuffix w.channel, data with
    | some suffix, .obj d => return some (OrderedDict.ofList
        (("type", .str "value") :: ("point", .str suffix) :: d)).entries
    | some _, x => .error s!"'{x.typeName}' object is not a mapping"
    | none, _ => return none

/-- What `_subscribe` sends of a row of `point_latest`. -/
def row (lang : Language) (reading : Reading) : Dict :=
  ("type", .str "value") :: ("point", .str (UuidText.write reading.pointId)) ::
    valueDict lang reading

/-- What a client is to be told of a message. -/
def Message.told (lang : Language) (points : List Uuid) : Message → Option Dict
  | .value reading => if reading.pointId ∈ points then some (row lang reading) else none
  | .alarmEvent message => some [("type", .str "alarm"), ("event", .obj
      [("transition", .str message.transition.value),
        ("event", .obj (eventDict lang message.event))])]
  | _ => none

/-- The point whose settings have changed. -/
def Message.setting : Message → Option Uuid
  | .pointConfig pointId => some pointId
  | _ => none

/-- The point `PointConfigSync.run` reloads. -/
def reloaded (floats : Json.FloatTexts) (w : Wire) : Except String Uuid := do
  uuidOf (← subscript (← decoded floats w.data) "point_id")

/-! ## What is carried -/

/-- The numbers of a message, outside of the integers. -/
def Message.numbers : Message → List PyFloat
  | .value reading => reading.value.toList
  | .alarmEvent ⟨_, .full info⟩ => info.threshold.toList ++ info.value.toList
  | _ => []

/-- The identifiers of a message. -/
def Message.ids : Message → List Uuid
  | .value reading => [reading.pointId]
  | .deviceStatus deviceId .. => [deviceId]
  | .pointConfig pointId => [pointId]
  | _ => []

/-- The texts of the numbers are those of the numbers, and the identifiers are of 128 bits. -/
structure Message.Carried (lang : Language) (m : Message) : Prop where
  numbers : ∀ q, PyFloat.fin q ∈ m.numbers → lang.floats.Writes q
  ids : ∀ id ∈ m.ids, id < 2 ^ 128

variable {lang : Language} {m : Message}

theorem written_textJson (text : Option String) : Json.Written lang.floats (textJson text) := by
  cases text <;> trivial

theorem written_isoJson (t : Option Instant) : Json.Written lang.floats (isoJson lang t) := by
  cases t <;> trivial

theorem written_numberJson {x : Option PyFloat}
    (h : ∀ q, PyFloat.fin q ∈ x.toList → lang.floats.Writes q) :
    Json.Written lang.floats (numberJson x) := by
  cases x with
  | none => trivial
  | some x =>
    rintro q rfl
    exact h q (List.mem_singleton_self _)

theorem written_eventDict {transition : TransitionKind} {event : AlarmPayload}
    (h : (Message.alarmEvent ⟨transition, event⟩).Carried lang) :
    Json.Written lang.floats (.obj (eventDict lang event)) := by
  cases event with
  | orphan id state => exact ⟨by simp [eventDict], trivial, trivial, trivial⟩
  | full info =>
    have hthreshold := written_numberJson fun q hq ↦ h.numbers q (List.mem_append_left _ hq)
    have hvalue := written_numberJson fun q hq ↦ h.numbers q (List.mem_append_right _ hq)
    refine ⟨by simp [eventDict, asDict], ?_⟩
    exact ⟨trivial, trivial, written_textJson _, trivial, trivial, trivial, trivial, trivial,
      written_textJson _, written_textJson _, hthreshold, hvalue, trivial, written_isoJson _,
      written_textJson _, written_isoJson _, trivial⟩

theorem written_payload (h : m.Carried lang) {payload : Dict} (hm : m.payload lang = some payload) :
    Json.Written lang.floats (.obj payload) := by
  cases m with
  | value reading =>
    obtain rfl := Option.some.inj hm
    exact ⟨by simp [valueDict], trivial, written_numberJson h.numbers, trivial, trivial⟩
  | deviceStatus deviceId deviceInstance online ts =>
    obtain rfl := Option.some.inj hm
    exact ⟨by simp [statusDict], trivial, trivial, trivial, trivial, trivial⟩
  | bacnetEvent notice =>
    obtain rfl := Option.some.inj hm
    exact ⟨by simp [noticeDict], trivial, trivial, trivial, trivial, written_textJson _,
      written_textJson _, trivial⟩
  | alarmEvent message =>
    obtain rfl := Option.some.inj hm
    exact ⟨by simp, trivial, written_eventDict h, trivial⟩
  | alarmRules =>
    obtain rfl := Option.some.inj hm
    exact ⟨by simp, trivial, trivial⟩
  | pointConfig pointId =>
    obtain rfl := Option.some.inj hm
    exact ⟨by simp, trivial, trivial⟩
  | discoveryRun => exact absurd hm (by simp [Message.payload])
  | writeResult result =>
    obtain rfl := Option.some.inj hm
    exact ⟨by simp [resultDict], trivial, trivial, written_textJson _, trivial⟩
  | alarmResult result =>
    obtain rfl := Option.some.inj hm
    exact ⟨by simp [resultDict], trivial, trivial, written_textJson _, trivial⟩

@[simp] theorem channel_wire (m : Message) : (m.wire lang).channel = m.channel := rfl

theorem decoded_wire (h : m.Carried lang) {payload : Dict} (hm : m.payload lang = some payload) :
    decoded lang.floats (m.wire lang).data = .ok (.obj payload) := by
  rw [Message.wire, hm, Option.elim_some, decoded, Json.loads_dumps (written_payload h hm)]
  rfl

/-! ## The channels are apart -/

theorem valueSuffix_pointValueChannel (id : Uuid) :
    valueSuffix (pointValueChannel id) = some (UuidText.write id) := by
  have htext : (pointValueChannel id).toList = valuePrefix.toList ++ (UuidText.write id).toList :=
    String.toList_append
  have hprefix : valuePrefix.toList.isPrefixOf (pointValueChannel id).toList = true := by
    rw [htext, List.isPrefixOf_iff_prefix]
    exact List.prefix_append _ _
  rw [valueSuffix, if_pos hprefix, htext, List.drop_left, String.ofList_toList]

theorem pointValueChannel_inj {a b : Uuid} (ha : a < 2 ^ 128) (hb : b < 2 ^ 128)
    (h : pointValueChannel a = pointValueChannel b) : a = b := by
  have hsuffix := congrArg valueSuffix h
  rw [valueSuffix_pointValueChannel, valueSuffix_pointValueChannel] at hsuffix
  have hread := congrArg UuidText.read (Option.some.inj hsuffix)
  rw [UuidText.read_write ha, UuidText.read_write hb] at hread
  exact Option.some.inj hread

theorem pointValueChannel_ne {channel : String} (h : valueSuffix channel = none) (id : Uuid) :
    pointValueChannel id ≠ channel := by
  rintro rfl
  rw [valueSuffix_pointValueChannel] at h
  exact Option.some_ne_none _ h

theorem valueSuffix_of_head {channel : String} (h : channel.toList.head? ≠ some 'p') :
    valueSuffix channel = none := by
  rw [valueSuffix, if_neg]
  rw [List.isPrefixOf_iff_prefix]
  rintro ⟨rest, hrest⟩
  rw [← hrest] at h
  exact h rfl

theorem valueSuffix_writeResultChannel (id : String) :
    valueSuffix (writeResultChannel id) = none := by
  refine valueSuffix_of_head ?_
  rw [writeResultChannel, String.toList_append]
  exact fun h ↦ absurd (Option.some.inj h : 'c' = 'p') (by decide)

theorem valueSuffix_alarmResultChannel (id : String) :
    valueSuffix (alarmResultChannel id) = none := by
  refine valueSuffix_of_head ?_
  rw [alarmResultChannel, String.toList_append]
  exact fun h ↦ absurd (Option.some.inj h : 'a' = 'p') (by decide)

theorem append_ne {name channel : String} (h : ¬name.toList <+: channel.toList) (id : String) :
    name ++ id ≠ channel := by
  rintro rfl
  rw [String.toList_append] at h
  exact h (List.prefix_append _ _)

theorem resultChannel_notMem (channels : List String) (h : ∀ channel ∈ channels,
      ¬"cmd.result.".toList <+: channel.toList ∧ ¬"alarm.result.".toList <+: channel.toList)
    (id : String) : writeResultChannel id ∉ channels ∧ alarmResultChannel id ∉ channels :=
  ⟨fun hmem ↦ append_ne (h _ hmem).1 id rfl, fun hmem ↦ append_ne (h _ hmem).2 id rfl⟩

theorem listens_channel (m : Message) : EngineRunner.listens m.channel = m.op.isSome := by
  cases m with
  | value reading =>
    rw [Message.channel, EngineRunner.listens, valueSuffix_pointValueChannel]
    rfl
  | deviceStatus deviceId deviceInstance online ts => exact (by decide :
      EngineRunner.listens channelDeviceStatus = true)
  | bacnetEvent notice => exact (by decide : EngineRunner.listens channelBacnetEvent = true)
  | alarmEvent message => exact (by decide : EngineRunner.listens channelAlarmEvent = false)
  | alarmRules => exact (by decide : EngineRunner.listens channelAlarmRules = true)
  | pointConfig pointId => exact (by decide : EngineRunner.listens channelPointConfig = false)
  | discoveryRun => exact (by decide : EngineRunner.listens channelDiscoveryRun = false)
  | writeResult result =>
    have hnotMem := (resultChannel_notMem
      [channelDeviceStatus, channelBacnetEvent, channelAlarmRules] (by decide) result.commandId).1
    rw [Message.channel, EngineRunner.listens, valueSuffix_writeResultChannel]
    exact decide_eq_false hnotMem
  | alarmResult result =>
    have hnotMem := (resultChannel_notMem
      [channelDeviceStatus, channelBacnetEvent, channelAlarmRules] (by decide) result.commandId).2
    rw [Message.channel, EngineRunner.listens, valueSuffix_alarmResultChannel]
    exact decide_eq_false hnotMem

/-! ## The engine is told -/

@[simp] theorem uuidOf_write {id : Uuid} (h : id < 2 ^ 128) :
    uuidOf (.str (UuidText.write id)) = .ok id := by
  rw [uuidOf, UuidText.read_write h]

theorem dispatch_wire (texts : Texts) (h : m.Carried lang) {op : Op} (hm : m.op = some op) :
    ∃ call, EngineRunner.dispatch lang.floats texts (m.wire lang) = .ok (some call) ∧
      call.op = some op := by
  cases m with
  | value reading =>
    obtain rfl := Option.some.inj hm
    refine ⟨.onValue reading.pointId (numberJson reading.value) (.str reading.status.value), ?_, ?_⟩
    · have hdata : decoded lang.floats ((Message.value reading).wire lang).data =
          .ok (.obj (valueDict lang reading)) := decoded_wire h rfl
      have hid := uuidOf_write (h.ids _ (List.mem_singleton_self reading.pointId))
      rw [EngineRunner.dispatch, channel_wire, Message.channel, valueSuffix_pointValueChannel]
      dsimp only
      rw [hdata, hid]
      rfl
    · cases reading.value <;> rfl
  | deviceStatus deviceId deviceInstance online ts =>
    obtain rfl := Option.some.inj hm
    refine ⟨.onDeviceStatus deviceId online, ?_, rfl⟩
    have hid := uuidOf_write (h.ids _ (List.mem_singleton_self deviceId))
    have hsuffix : valueSuffix channelDeviceStatus = none := by decide
    rw [EngineRunner.dispatch, channel_wire, Message.channel, hsuffix]
    dsimp only
    rw [if_pos rfl, decoded_wire h rfl]
    simp [bind, Except.bind, pure, Except.pure, subscript, Dict.item, statusDict,
      List.lookup_cons, hid, Json.truthy]
  | bacnetEvent notice =>
    obtain rfl := Option.some.inj hm
    refine ⟨.onBacnetEvent notice.deviceInstance notice.objectType notice.objectInstance
      notice.toState, ?_, rfl⟩
    have hsuffix : valueSuffix channelBacnetEvent = none := by decide
    have hne : channelBacnetEvent ≠ channelDeviceStatus := by decide
    rw [EngineRunner.dispatch, channel_wire, Message.channel, hsuffix]
    dsimp only
    rw [if_neg hne, if_pos rfl, decoded_wire h rfl]
    simp [bind, Except.bind, pure, Except.pure, subscript, Dict.item, noticeDict, List.lookup_cons,
      Json.toInt, Json.toStr]
  | alarmRules =>
    obtain rfl := Option.some.inj hm
    refine ⟨.load, ?_, rfl⟩
    have hsuffix : valueSuffix channelAlarmRules = none := by decide
    have hstatus : channelAlarmRules ≠ channelDeviceStatus := by decide
    have hevent : channelAlarmRules ≠ channelBacnetEvent := by decide
    rw [EngineRunner.dispatch, channel_wire, Message.channel, hsuffix]
    dsimp only
    rw [if_neg hstatus, if_neg hevent, if_pos rfl]
    rfl
  | _ => exact absurd hm (by simp [Message.op])

/-- The engine does what the messages ask for, each once and in their order. -/
theorem engine_told (env : Env) (texts : Texts) {ms : List Message}
    (h : ∀ m ∈ ms, m.Carried lang) (w : AlarmSystem) :
    engineAfter env lang texts w (ms.map fun m ↦ m.wire lang) =
      (ms.filterMap Message.op).foldl (step env) w := by
  induction ms generalizing w with
  | nil => rfl
  | cons m ms ih =>
    obtain ⟨hm, hms⟩ := List.forall_mem_cons.mp h
    rw [engineAfter, List.map_cons, List.filter_cons]
    rw [channel_wire, listens_channel]
    cases hop : m.op with
    | none =>
      rw [Option.isSome_none, if_neg Bool.false_ne_true, List.filterMap_cons_none hop]
      exact ih hms w
    | some op =>
      obtain ⟨call, hcall, hcallop⟩ := dispatch_wire texts hm hop
      rw [Option.isSome_some, if_pos rfl, List.filterMap_cons_some hop, List.foldl_cons,
        List.foldl_cons, hcall]
      dsimp only
      rw [hcallop]
      exact ih hms (step env w op)

/-! ## The clients and the collector are told -/

/-- A connection listens to the channels of its points, and to that of the alarms. -/
theorem connected_channel {points : List Uuid} (hpoints : ∀ id ∈ points, id < 2 ^ 128)
    (h : m.Carried lang) : connected points m.channel = (m.told lang points).isSome := by
  have hfixed : ∀ channel, valueSuffix channel = none → channel ≠ channelAlarmEvent →
      connected points channel = false := by
    intro channel hsuffix hne
    have hnotMem : channel ∉ points.map pointValueChannel := by
      intro hmem
      obtain ⟨id, -, heq⟩ := List.mem_map.mp hmem
      exact pointValueChannel_ne hsuffix id heq
    rw [connected, decide_eq_false hne, decide_eq_false hnotMem, Bool.or_false]
  cases m with
  | value reading =>
    have hne : pointValueChannel reading.pointId ≠ channelAlarmEvent :=
      pointValueChannel_ne (by decide) reading.pointId
    have hid := h.ids _ (List.mem_singleton_self reading.pointId)
    have hmem : pointValueChannel reading.pointId ∈ points.map pointValueChannel ↔
        reading.pointId ∈ points := by
      constructor
      · intro hmem
        obtain ⟨id, hpoint, heq⟩ := List.mem_map.mp hmem
        exact pointValueChannel_inj (hpoints id hpoint) hid heq ▸ hpoint
      · exact List.mem_map_of_mem
    rw [Message.channel, connected, decide_eq_false hne, Bool.false_or, Message.told]
    by_cases hpoint : reading.pointId ∈ points
    · rw [if_pos hpoint, decide_eq_true (hmem.mpr hpoint), Option.isSome_some]
    · rw [if_neg hpoint, decide_eq_false (hmem.not.mpr hpoint), Option.isSome_none]
  | alarmEvent message => rfl
  | deviceStatus deviceId deviceInstance online ts =>
    exact hfixed channelDeviceStatus (by decide) (by decide)
  | bacnetEvent notice => exact hfixed channelBacnetEvent (by decide) (by decide)
  | alarmRules => exact hfixed channelAlarmRules (by decide) (by decide)
  | pointConfig pointId => exact hfixed channelPointConfig (by decide) (by decide)
  | discoveryRun => exact hfixed channelDiscoveryRun (by decide) (by decide)
  | writeResult result =>
    refine hfixed _ (valueSuffix_writeResultChannel _) fun heq ↦ ?_
    exact (resultChannel_notMem [channelAlarmEvent] (by decide) result.commandId).1
      (List.mem_singleton.mpr heq)
  | alarmResult result =>
    refine hfixed _ (valueSuffix_alarmResultChannel _) fun heq ↦ ?_
    exact (resultChannel_notMem [channelAlarmEvent] (by decide) result.commandId).2
      (List.mem_singleton.mpr heq)

/-- The client is sent what it is to be told, in the form of the rows it was sent first. -/
theorem relay_wire {points : List Uuid} (h : m.Carried lang) {told : Dict}
    (hm : m.told lang points = some told) :
    relay lang.floats (m.wire lang) = .ok (some told) := by
  cases m with
  | value reading =>
    have hpoint : reading.pointId ∈ points := by
      by_contra hpoint
      rw [Message.told, if_neg hpoint] at hm
      exact Option.some_ne_none _ hm.symm
    rw [Message.told, if_pos hpoint] at hm
    obtain rfl := Option.some.inj hm
    have hne : pointValueChannel reading.pointId ≠ channelAlarmEvent :=
      pointValueChannel_ne (by decide) reading.pointId
    have hnodup : ((row lang reading).map Prod.fst).Nodup := by simp [row, valueDict]
    rw [relay, decoded_wire h rfl, channel_wire, Message.channel]
    simp only [bind, Except.bind, if_neg hne, valueSuffix_pointValueChannel]
    exact congrArg (fun d ↦ Except.ok (some d)) (OrderedDict.entries_ofList hnodup)
  | alarmEvent message =>
    obtain rfl := Option.some.inj hm
    rw [relay, decoded_wire h rfl]
    rfl
  | _ => exact absurd hm (by simp [Message.told])

theorem config_channel (m : Message) :
    decide (m.channel = channelPointConfig) = m.setting.isSome := by
  cases m with
  | value reading =>
    have hsuffix : valueSuffix channelPointConfig = none := by decide
    exact decide_eq_false (pointValueChannel_ne hsuffix reading.pointId)
  | deviceStatus deviceId deviceInstance online ts =>
    exact (by decide : decide (channelDeviceStatus = channelPointConfig) = false)
  | bacnetEvent notice =>
    exact (by decide : decide (channelBacnetEvent = channelPointConfig) = false)
  | alarmEvent message =>
    exact (by decide : decide (channelAlarmEvent = channelPointConfig) = false)
  | alarmRules => rfl
  | pointConfig pointId => rfl
  | discoveryRun => rfl
  | writeResult result =>
    refine decide_eq_false fun heq ↦ ?_
    exact (resultChannel_notMem [channelPointConfig] (by decide) result.commandId).1
      (List.mem_singleton.mpr heq)
  | alarmResult result =>
    refine decide_eq_false fun heq ↦ ?_
    exact (resultChannel_notMem [channelPointConfig] (by decide) result.commandId).2
      (List.mem_singleton.mpr heq)

theorem reloaded_wire {pointId : Uuid} (h : m.Carried lang) (hm : m.setting = some pointId) :
    reloaded lang.floats (m.wire lang) = .ok pointId := by
  cases m with
  | pointConfig pointId =>
    obtain rfl := Option.some.inj hm
    have hid := uuidOf_write (h.ids _ (List.mem_singleton_self pointId))
    rw [reloaded, decoded_wire h rfl]
    simp [bind, Except.bind, subscript, Dict.item, hid]
  | _ => exact absurd hm (by simp [Message.setting])

/-- What a listener makes of the messages it listens to, where these are those for it. -/
theorem map_filter_map {α β γ δ : Type} {wire : α → β} {listens : β → Bool} {read : β → γ}
    {about : α → Option δ} {as : δ → γ} {xs : List α}
    (h : ∀ x ∈ xs, listens (wire x) = (about x).isSome ∧
      ∀ y, about x = some y → read (wire x) = as y) :
    ((xs.map wire).filter listens).map read = (xs.filterMap about).map as := by
  induction xs with
  | nil => rfl
  | cons x xs ih =>
    obtain ⟨⟨hlistens, hread⟩, hxs⟩ := List.forall_mem_cons.mp h
    rw [List.map_cons, List.filter_cons, hlistens]
    cases habout : about x with
    | none =>
      rw [Option.isSome_none, if_neg Bool.false_ne_true, List.filterMap_cons_none habout]
      exact ih hxs
    | some y =>
      rw [Option.isSome_some, if_pos rfl, List.filterMap_cons_some habout, List.map_cons,
        List.map_cons, hread y habout, ih hxs]

/-- **What is published for a listener is what it is told.** Whatever the services publish, in
whatever order: the engine does what the readings, the states of the devices, the events and the
changes of the rules ask for, each once, in their order, and nothing else; a client is sent the
readings of the points of its connection and the changes of the alarms, and nothing else, the
readings in the form of the rows it was sent first; the collector reloads the points whose settings
changed. -/
theorem all_told (env : Env) (texts : Texts) {ms : List Message}
    (h : ∀ m ∈ ms, m.Carried lang) (w : AlarmSystem) {points : List Uuid}
    (hpoints : ∀ id ∈ points, id < 2 ^ 128) :
    engineAfter env lang texts w (ms.map fun m ↦ m.wire lang) =
        (ms.filterMap Message.op).foldl (step env) w ∧
      ((ms.map fun m ↦ m.wire lang).filter fun m ↦ connected points m.channel).map
          (relay lang.floats) =
        (ms.filterMap fun m ↦ m.told lang points).map (fun told ↦ .ok (some told)) ∧
      ((ms.map fun m ↦ m.wire lang).filter fun m ↦ m.channel = channelPointConfig).map
          (reloaded lang.floats) =
        (ms.filterMap Message.setting).map (fun pointId ↦ .ok pointId) :=
  ⟨engine_told env texts h w,
    map_filter_map fun m hm ↦ ⟨connected_channel hpoints (h m hm), fun _ ↦ relay_wire (h m hm)⟩,
    map_filter_map fun m hm ↦ ⟨config_channel m, fun _ ↦ reloaded_wire (h m hm)⟩⟩

/-- Whole numbers, written with a decimal. -/
def wholeNumbers : Json.FloatTexts where
  repr q := Nat.toDigits 10 q.num.natAbs ++ ".0".toList
  read text := .fin (Nat.ofDigitChars 10 (text.takeWhile Char.isDigit) 0 : ℕ)

theorem writes_wholeNumbers (n : ℕ) : wholeNumbers.Writes n where
  shape := ⟨[], Nat.toDigits 10 n, ".0".toList, [], .inl rfl, Json.isInteger_toDigits n,
    .inr ⟨['0'], by decide, fun c hc ↦ List.mem_singleton.mp hc ▸ rfl, rfl⟩, .inl rfl, by decide,
    (List.append_nil _).symm⟩
  read := by
    have hdigits : ∀ c ∈ Nat.toDigits 10 n, c.isDigit = true :=
      fun c hc ↦ Nat.isDigit_of_mem_toDigits (by decide) (by decide) hc
    have hpoint : ∀ c ∈ ".0".toList.head?, c.isDigit = false := by
      intro c hc
      obtain rfl := Option.some.inj hc
      rfl
    have htake := (Json.takeWhile_digits hdigits hpoint).1
    change PyFloat.fin (Nat.ofDigitChars 10 ((Nat.toDigits 10 n ++ ".0".toList).takeWhile
      Char.isDigit) 0 : ℕ) = _
    rw [htake, Nat.ofDigitChars_ten_toDigits]

/-- A day, by its noon. -/
def noonLanguage : Language := ⟨fun _ ↦ "2026-01-01T12:00:00+00:00", wholeNumbers⟩

def noNumbers : Texts :=
  ⟨fun _ ↦ .error "", fun _ ↦ .error "", fun _ ↦ .error "", UuidText.write, fun _ ↦ ""⟩

/-- The rules are loaded, a device is lost, and another goes on. -/
def offlineMessages : List Message :=
  [.alarmRules, .deviceStatus 7 70 false 12, .value ⟨5, 12, some (.fin 21), .ok⟩, .discoveryRun,
    .value ⟨6, 12, none, .fault⟩, .pointConfig 5]

theorem all_told_offline :
    ((engineAfter (failing []) noonLanguage noNumbers ⟨.empty, .empty⟩
        (offlineMessages.map fun m ↦ m.wire noonLanguage)).engine.find? 1).map
          RuleRuntime.condition = some true ∧
      ((offlineMessages.map fun m ↦ m.wire noonLanguage).filter fun m ↦
          connected [5] m.channel).map (relay wholeNumbers) =
        [.ok (some (row noonLanguage ⟨5, 12, some (.fin 21), .ok⟩))] ∧
      ((offlineMessages.map fun m ↦ m.wire noonLanguage).filter fun m ↦
          m.channel = channelPointConfig).map (reloaded wholeNumbers) = [.ok 5] := by
  have hcarried : ∀ m ∈ offlineMessages, m.Carried noonLanguage := by
    have hnumbers : ∀ m ∈ offlineMessages, ∀ x ∈ m.numbers, x = .fin 21 := by decide
    have hids : ∀ m ∈ offlineMessages, ∀ id ∈ m.ids, id < 2 ^ 128 := by decide
    intro m hm
    refine ⟨fun q hq ↦ ?_, hids m hm⟩
    rw [PyFloat.fin_inj.mp (hnumbers m hm _ hq)]
    exact writes_wholeNumbers 21
  obtain ⟨hengine, hrelay, hreloaded⟩ := all_told (failing []) noNumbers hcarried
    ⟨.empty, .empty⟩ (by decide : ∀ id ∈ [5], id < 2 ^ 128)
  refine ⟨?_, hrelay, hreloaded⟩
  rw [hengine]
  decide +kernel

end Superviseur.Bus
