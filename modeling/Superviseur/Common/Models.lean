import Mathlib.Data.Rat.Defs

/-!
# Values shared by the services

The enumerations of the application (their members are stored as text), and the identifiers and
instants that every service exchanges. Identifiers are UUIDs: only equality is ever asked of them,
and of a new one that it is not in use yet. Instants and durations are exact, in seconds.
-/

namespace Superviseur

/-- An identifier. -/
abbrev Uuid := ℕ

/-- An instant of a clock, in seconds. -/
abbrev Instant := ℚ

/-- Statuses of a reading. -/
inductive PointStatus where
  | ok
  | fault
  | overridden
  | outOfService
  | stale
  | commLost
  deriving DecidableEq, Repr

/-- The text of a status. -/
def PointStatus.value : PointStatus → String
  | ok => "ok"
  | fault => "fault"
  | overridden => "overridden"
  | outOfService => "out_of_service"
  | stale => "stale"
  | commLost => "comm_lost"

/-- Kinds of alarm rules. -/
inductive AlarmKind where
  | high
  | low
  | state
  | stale
  | commLost
  | bacnetEvent
  deriving DecidableEq, Repr

/-- States of an alarm. `pending` exists in memory only: nothing is stored before the delay has
elapsed. In the database `normal` is a closed alarm. -/
inductive AlarmState where
  | normal
  | pending
  | activeUnacked
  | activeAcked
  | clearedUnacked
  deriving DecidableEq, Repr

/-- The stored text of a state. -/
def AlarmState.value : AlarmState → String
  | normal => "normal"
  | pending => "pending"
  | activeUnacked => "active_unacked"
  | activeAcked => "active_acked"
  | clearedUnacked => "cleared_unacked"

/-- The condition of the rule holds, or did at the last observation. -/
def AlarmState.isActive : AlarmState → Bool
  | activeUnacked | activeAcked => true
  | normal | pending | clearedUnacked => false

/-- An alarm in this state has an open row in the database. -/
def AlarmState.isOpen : AlarmState → Bool
  | activeUnacked | activeAcked | clearedUnacked => true
  | normal | pending => false

inductive Severity where
  | info
  | warning
  | critical
  deriving DecidableEq, Repr

inductive RoleName where
  | viewer
  | operator
  | engineer
  | admin
  deriving DecidableEq, Repr

/-- The stored text of a role. -/
def RoleName.value : RoleName → String
  | viewer => "viewer"
  | operator => "operator"
  | engineer => "engineer"
  | admin => "admin"

/-- `text or default`, where an empty text counts as missing. -/
def textOr (text : Option String) (default : String) : String :=
  match text with
  | none => default
  | some t => if t = "" then default else t

end Superviseur
