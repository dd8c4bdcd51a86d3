import Superviseur.Common.Models
import Superviseur.Library.PyFloat

/-!
# Writing to a controller

`BacnetDriver.write` encodes the value for the type of the object and asks the BACnet stack to write
the property. The encoding comes first, and may raise; what the stack answers is a parameter.
-/

namespace Superviseur

/-- Full address of a point for the driver. -/
structure PointRef where
  pointId : Uuid
  deviceInstance : ℤ
  address : String
  objectType : String
  objectInstance : ℤ
  deriving DecidableEq

structure WriteResult where
  ok : Bool
  error : Option String
  deriving DecidableEq

/-- `object_type.startswith("binary")`. -/
def isBinary (objectType : String) : Bool := "binary".toList.isPrefixOf objectType.toList

/-- `is_multistate`. -/
def isMultistate (objectType : String) : Bool := "multi-state".toList.isPrefixOf objectType.toList

/-- A value as the BACnet stack is given it. -/
inductive Payload where
  | null
  | active
  | inactive
  | int (n : ℤ)
  | real (x : PyFloat)
  deriving DecidableEq

/-- The number the controller reads in a payload; a null releases the priority and has none. -/
def Payload.number : Payload → Option PyFloat
  | null => none
  | active => some (.fin 1)
  | inactive => some (.fin 0)
  | int n => some (.fin n)
  | real x => some x

/-- How the request to the controller ends. -/
inductive Reply where
  /-- Acknowledged. -/
  | written
  /-- Answered by an error, a reject or an abort. -/
  | nack (text : String)
  /-- `DriverError`: no answer in time, or an error raised by the stack. -/
  | driverError (text : String)
  /-- Any other exception. -/
  | raised (text : String)

namespace BacnetDriver

/-- The payload of a value; `int` raises on NaN and on the infinities. -/
def encode (point : PointRef) (value : Option PyFloat) : Except String Payload :=
  match value with
  | none => .ok .null
  | some x =>
    if isBinary point.objectType then .ok (if x.truthy then .active else .inactive)
    else if isMultistate point.objectType then
      match x.toInt with
      | some n => .ok (.int n)
      | none => .error (match x with
        | .nan => "cannot convert float NaN to integer"
        | _ => "cannot convert float infinity to integer")
    else .ok (.real x)

/-- The result of a request, or the exception `write` lets through. -/
def result : Reply → Except String WriteResult
  | .written => .ok ⟨true, none⟩
  | .nack text | .driverError text => .ok ⟨false, some text⟩
  | .raised text => .error text

/-- `write`: what was handed to the BACnet stack, if anything, and what the call gives. -/
def write (reply : PointRef → Payload → ℤ → Reply) (point : PointRef) (value : Option PyFloat)
    (priority : ℤ) : Option Payload × Except String WriteResult :=
  match encode point value with
  | .error exc => (none, .error exc)
  | .ok payload => (some payload, result (reply point payload priority))

end BacnetDriver

end Superviseur
