import Superviseur.Alarms.Machine
import Superviseur.Library.PyFloat

/-!
# Content of the alarm messages

`AlarmInfo` is the snapshot of an alarm that is published on `alarm.event` and handed to the
notifier. The message of a closed orphan carries its identifier and state only.
-/

namespace Superviseur

/-- Snapshot of an alarm. -/
structure AlarmInfo where
  eventId : Uuid
  ruleId : Uuid
  ruleName : Option String
  kind : AlarmKind
  severity : Severity
  state : AlarmState
  pointId : Uuid
  pointName : String
  path : Option String
  unit : Option String
  threshold : Option PyFloat
  value : Option PyFloat
  raisedAt : Instant
  ackedAt : Option Instant
  ackedBy : Option String
  clearedAt : Option Instant

def severityLabel : Severity → String
  | .info => "INFO"
  | .warning => "AVERTISSEMENT"
  | .critical => "CRITIQUE"

def kindLabel : AlarmKind → String
  | .high => "Seuil haut"
  | .low => "Seuil bas"
  | .state => "État anormal"
  | .stale => "Valeur figée"
  | .commLost => "Communication perdue"
  | .bacnetEvent => "Événement BACnet"

/-- `VERBS.get(kind, kind)`. -/
def verb : TransitionKind → String
  | .raised => "déclenchée"
  | .cleared => "terminée (à acquitter)"
  | .acked => "acquittée"
  | .normal => "retour à la normale"
  | kind => kind.value

def AlarmInfo.title (info : AlarmInfo) : String := textOr info.ruleName (kindLabel info.kind)

/-- A change of state to notify on the channels of the rule. -/
structure Notification where
  eventId : Uuid
  kind : TransitionKind
  severity : Severity
  subject : String
  payload : AlarmInfo
  channels : List String

def buildNotification (info : AlarmInfo) (kind : TransitionKind) (channels : List String) :
    Notification where
  eventId := info.eventId
  kind := kind
  severity := info.severity
  subject := "[" ++ severityLabel info.severity ++ "] " ++ info.title ++ " - "
    ++ textOr info.path info.pointName ++ " : " ++ verb kind
  payload := info
  channels := channels

/-- The `event` member of a message on `alarm.event`. -/
inductive AlarmPayload where
  /-- `info.as_dict()`. -/
  | full (info : AlarmInfo)
  /-- The alarm of a rule that is no longer loaded. -/
  | orphan (id : Uuid) (state : AlarmState)

/-- A message on `alarm.event`. -/
structure AlarmMessage where
  transition : TransitionKind
  event : AlarmPayload

namespace AlarmMessage

/-- `message["event"]["id"]`. -/
def eventId (m : AlarmMessage) : Uuid :=
  match m.event with
  | .full info => info.eventId
  | .orphan id _ => id

/-- `message["event"]["state"]`. -/
def state (m : AlarmMessage) : AlarmState :=
  match m.event with
  | .full info => info.state
  | .orphan _ state => state

end AlarmMessage

end Superviseur
