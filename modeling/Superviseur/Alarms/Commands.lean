import Superviseur.Alarms.Engine
import Superviseur.Common.Commands

/-!
# Acknowledgements

The alarm engine reads acknowledgements from the stream `cmd.alarm`. The age of the command comes
first, then the role of the user as the database has it, then the engine, which applies the
transition of the machine.
-/

namespace Superviseur

namespace AlarmCommands

structure AckEnv where
  texts : Texts
  /-- `time.time()`. -/
  now : PyFloat
  /-- `max_command_age_s`. -/
  maxAge : PyFloat
  userRole : Uuid → Except String (Option String)
  /-- What the engine meets. -/
  engine : Env

/-- `MAX_COMMAND_AGE_S`. -/
def maxCommandAgeS : PyFloat := .fin 30

def ackRoles : List String :=
  [RoleName.operator.value, RoleName.engineer.value, RoleName.admin.value]

/-- `role in ACK_ROLES`. -/
def mayAcknowledge (role : Option String) : Bool := role.any fun name ↦ ackRoles.contains name

/-- `uuid.UUID(str(command[key]))`. -/
def readId (texts : Texts) (command : Dict) (key : String) : Except String Uuid := do
  (← command.item key).toUuid texts

/-- The answer to a command that is no acknowledgement. -/
def unknownAction (env : AckEnv) (command : Dict) : Answer :=
  ⟨false, some ("action inconnue : " ++ (command.get "action").toStr env.texts)⟩

/-- `execute`. -/
def execute (env : AckEnv) (command : Dict) : EStateM String AlarmSystem Answer :=
  if !(command.get "action").isText "ack" then return unknownAction env command
  else do
    if ← EState.call (commandExpired env.texts env.now env.maxAge command) then
      return ⟨false, some "commande expirée"⟩
    else
      let user ← EState.call (readId env.texts command "user_id")
      let role ← EState.call (env.userRole user)
      if !mayAcknowledge role then
        return ⟨false, some "droits insuffisants"⟩
      else
        let event ← EState.call (readId env.texts command "event_id")
        let (w, result) := acknowledge env.engine event user (← get)
        modify fun _ ↦ w
        return ⟨result.ok, result.error⟩

/-- `process`. -/
def process (env : AckEnv) (bus : BusEnv) (message : StreamMessage) :
    EStateM String (Consumer AlarmSystem) Unit :=
  Superviseur.process env.texts bus (execute env) message

/-! ## Stages -/

/-- Up to the age of the command; what the user is read as. -/
def check (env : AckEnv) (command : Dict) : Except Answer Uuid :=
  if !(command.get "action").isText "ack" then .error (unknownAction env command)
  else
    match commandExpired env.texts env.now env.maxAge command with
    | .error exc => .error (invalidCommand exc)
    | .ok true => .error ⟨false, some "commande expirée"⟩
    | .ok false =>
      match readId env.texts command "user_id" with
      | .error exc => .error (invalidCommand exc)
      | .ok user => .ok user

/-- The role of the user; what the alarm is read as. -/
def authorise (env : AckEnv) (command : Dict) (user : Uuid) : Except Answer (EventId × UserId) :=
  match env.userRole user with
  | .error exc => .error (invalidCommand exc)
  | .ok role =>
    if !mayAcknowledge role then .error ⟨false, some "droits insuffisants"⟩
    else
      match readId env.texts command "event_id" with
      | .error exc => .error (invalidCommand exc)
      | .ok event => .ok (event, user)

/-- The engine applies the acknowledgement. -/
def apply (env : AckEnv) (ack : EventId × UserId) (w : AlarmSystem) : Answer × AlarmSystem :=
  let (w, result) := acknowledge env.engine ack.1 ack.2 w
  (⟨result.ok, result.error⟩, w)

def service : Service AckEnv Uuid (EventId × UserId) AlarmSystem where
  now := AckEnv.now
  check := check
  authorise := authorise
  apply := apply

theorem run_eq_execute (env : AckEnv) (command : Dict) (w : AlarmSystem) :
    service.run env command w =
      (answerOf (execute env command w), EState.after (execute env command) w) := by
  unfold Service.run service check execute EState.after
  rcases haction : (command.get "action").isText "ack"
  · simp [haction, answerOf]
  rcases hage : commandExpired env.texts env.now env.maxAge command with exc | old | old
  · simp [haction, hage, answerOf]
  · rcases huser : readId env.texts command "user_id" with exc | user
    · simp [haction, hage, huser, answerOf]
    rcases hrole : env.userRole user with exc | role
    · simp [haction, hage, huser, authorise, hrole, answerOf]
    rcases hknown : mayAcknowledge role
    · simp [haction, hage, huser, authorise, hrole, answerOf, hknown]
    rcases hevent : readId env.texts command "event_id" with exc | event
    · simp [haction, hage, huser, authorise, hrole, answerOf, hknown, hevent]
    · simp [haction, hage, huser, authorise, hrole, answerOf, hknown, hevent, apply]
  · simp [haction, hage, answerOf]

end AlarmCommands

end Superviseur
