import Superviseur.Collector.BacnetDriver
import Superviseur.Common.Commands

/-!
# The writer

The collector reads the setpoints to write from the stream `cmd.write`. A command is decoded field
by field, checked against the point and the user as the database has them, handed to the driver, and
recorded in the audit log. The calls to the store and to the driver may raise, each at its own
place.
-/

namespace Superviseur

/-- What is to be known of a point to check and execute a write. -/
structure WriteTarget where
  ref : PointRef
  writable : Bool
  writeMin : Option PyFloat
  writeMax : Option PyFloat
  path : Option String
  lastValue : Option PyFloat

/-- A row of the audit log, as a write records it. -/
structure AuditRow where
  userId : Option Uuid
  action : String
  target : String
  /-- `before["value"]`, if there is a `before`. -/
  before : Option (Option PyFloat)
  /-- `after["value"]`. -/
  value : Option PyFloat
  /-- `after["priority"]`. -/
  priority : ℤ
  /-- `after["result"]`. -/
  result : String
  deriving DecidableEq

/-- A call of `driver.write`. -/
structure DriverCall where
  point : PointRef
  value : Option PyFloat
  priority : ℤ
  /-- What was handed to the controller. -/
  sent : Option Payload
  outcome : Except String WriteResult

/-- What the writer has done so far. -/
structure WriterState where
  calls : List DriverCall
  audits : List AuditRow
  /-- Points read back after a write. -/
  refreshed : List PointRef

def WriterState.empty : WriterState := ⟨[], [], []⟩

structure WriterEnv where
  texts : Texts
  /-- `time.time()`. -/
  now : PyFloat
  /-- `max_command_age_s`. -/
  maxAge : PyFloat
  getWriteTarget : Uuid → Except String (Option WriteTarget)
  getUserRole : Uuid → Except String (Option String)
  addAudit : AuditRow → Except String Unit
  write : PointRef → Option PyFloat → ℤ → Option Payload × Except String WriteResult
  /-- The collector gave the writer a callback for readings. -/
  refreshes : Bool

abbrev WriterM := EStateM String WriterState

namespace Writer

def defaultPriority : ℤ := 8

/-- `MAX_COMMAND_AGE_S`. -/
def maxCommandAgeS : PyFloat := .fin 30

def writerRoles : List String :=
  [RoleName.operator.value, RoleName.engineer.value, RoleName.admin.value]

/-! ## Reading and checking a command -/

/-- A command, its fields converted. -/
structure Request where
  pointId : Uuid
  value : Option PyFloat
  priority : ℤ
  userId : Option Uuid

/-- The conversions at the head of `execute`, in its order. -/
def readRequest (texts : Texts) (command : Dict) : Except String Request := do
  let pointId ← (← command.item "point_id").toUuid texts
  let value ← match command.get "value" with
    | .null => pure none
    | raw => some <$> raw.toFloat texts
  let priority ← match command.get "priority" with
    | .null => pure defaultPriority
    | raw => raw.toInt texts
  let userId ← if (command.get "user_id").truthy then
      some <$> (command.get "user_id").toUuid texts
    else pure none
  return ⟨pointId, value, priority, userId⟩

/-- The command is too old to be executed. -/
def expired (env : WriterEnv) (command : Dict) : Except String Bool :=
  commandExpired env.texts env.now env.maxAge command

/-- The bounds of the point against the value: the text of the refusal, if any. -/
def boundsRefusal (texts : Texts) (target : WriteTarget) (x : PyFloat) : Option String :=
  let tooLow := target.writeMin.filter x.lt
  let tooHigh := target.writeMax.filter fun m ↦ m.lt x
  match tooLow, tooHigh with
  | some m, _ => some s!"valeur inférieure au minimum ({texts.repr (.float m)})"
  | none, some m => some s!"valeur supérieure au maximum ({texts.repr (.float m)})"
  | none, none => none

/-- `_refusal`: the text of the refusal, if any. -/
def refusal (env : WriterEnv) (target : Option WriteTarget) (value : Option PyFloat)
    (priority : ℤ) (userId : Option Uuid) : Except String (Option String) :=
  match userId with
  | none => .ok (some "utilisateur requis")
  | some userId =>
    match env.getUserRole userId with
    | .error exc => .error exc
    | .ok role =>
      if role.all fun name ↦ name ∉ writerRoles then .ok (some "droits insuffisants")
      else match target with
        | none => .ok (some "point inconnu")
        | some t =>
          if ¬ t.writable then .ok (some "point non inscriptible")
          else if ¬ (1 ≤ priority ∧ priority ≤ 16) then .ok (some "priorité hors de 1..16")
          else .ok (value.bind (boundsRefusal env.texts t))

/-- The refusal of a command; one that is too old is not looked at further. -/
def refusalOf (env : WriterEnv) (command : Dict) (target : Option WriteTarget)
    (request : Request) : Except String (Option String) :=
  match expired env command with
  | .error exc => .error exc
  | .ok true => .ok (some "commande expirée")
  | .ok false => refusal env target request.value request.priority request.userId

/-! ## Executing it -/

/-- `driver.write`. -/
def callDriver (env : WriterEnv) (point : PointRef) (value : Option PyFloat) (priority : ℤ) :
    WriterM WriteResult := do
  let (sent, outcome) := env.write point value priority
  modify fun w ↦ { w with calls := w.calls ++ [⟨point, value, priority, sent, outcome⟩] }
  EState.call outcome

/-- `store.add_audit`. -/
def addAudit (env : WriterEnv) (row : AuditRow) : WriterM Unit := do
  EState.call (env.addAudit row)
  modify fun w ↦ { w with audits := w.audits ++ [row] }

/-- `after["result"]`. -/
def resultText (result : WriteResult) : String :=
  if result.ok then "ok" else textOr result.error "error"

/-- The row that records a request and its result. -/
def Request.auditRow (texts : Texts) (request : Request) (target : Option WriteTarget)
    (result : WriteResult) : AuditRow where
  userId := request.userId
  action := "point.write"
  target := match target with
    | some t => textOr t.path (texts.ofUuid request.pointId)
    | none => texts.ofUuid request.pointId
  before := target.map WriteTarget.lastValue
  value := request.value
  priority := request.priority
  result := resultText result

/-- The driver is called where nothing was refused. -/
def carryOut (env : WriterEnv) (request : Request) (refused : Option String)
    (target : Option WriteTarget) : WriterM WriteResult :=
  match refused, target with
  | none, some t => callDriver env t.ref request.value request.priority
  | _, _ => pure ⟨false, refused⟩

/-- `_refresh`, where `execute` calls it; what it raises goes no further. -/
def refresh (env : WriterEnv) (target : Option WriteTarget) (result : WriteResult) :
    WriterM Unit :=
  match target with
  | some t => modify fun w ↦
      if result.ok ∧ env.refreshes then { w with refreshed := w.refreshed ++ [t.ref] } else w
  | none => pure ()

/-- `execute`. -/
def execute (env : WriterEnv) (command : Dict) : WriterM WriteResult := do
  let request ← EState.call (readRequest env.texts command)
  let target ← EState.call (env.getWriteTarget request.pointId)
  let refused ← EState.call (refusalOf env command target request)
  let result ← carryOut env request refused target
  addAudit env (request.auditRow env.texts target result)
  refresh env target result
  return result

/-- The result of `execute`, as `process` announces it. -/
def answer (env : WriterEnv) (command : Dict) : EStateM String WriterState Answer := do
  let result ← execute env command
  return ⟨result.ok, result.error⟩

/-- `process`. -/
def process (env : WriterEnv) (bus : BusEnv) (message : StreamMessage) :
    EStateM String (Consumer WriterState) Unit :=
  Superviseur.process env.texts bus (answer env) message

end Writer

end Superviseur
