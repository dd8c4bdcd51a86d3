import Superviseur.Collector.Registry
import Superviseur.Library.Json

/-!
# Normalisation of BACnet values

What the BACnet stack decodes is a Python object of any type; a reading keeps a number and a status
of it. `float` raises on an integer no binary64 number comes near, and nothing here catches it.
-/

namespace Superviseur

/-- A decoded value. -/
inductive Raw where
  /-- `None`. -/
  | null
  | bool (b : Bool)
  | int (n : ℤ)
  | float (x : PyFloat)
  /-- Any other object: `str(raw)`, and `int(raw[i])` where it does not raise a `TypeError`, an
  `IndexError` or a `ValueError`. -/
  | other (text : String) (item : ℕ → Option ℤ)

/-- What the language computes of a text. -/
structure TextNumbers where
  /-- `text.lower()`. -/
  lower : String → String
  texts : Texts

/-- `float(n)`; `none` where it raises an `OverflowError`. -/
def floatOfInt (n : ℤ) : Option PyFloat :=
  let x := PyFloat.round n
  if x.isFinite then some x else none

/-- `_flags`: the four bits of `status-flags`. -/
def flags : Option Raw → Option (List ℤ)
  | some (.other _ item) => (List.range 4).mapM item
  | _ => none

/-- `normalize_present_value`; `none` outside where it raises an `OverflowError`. -/
def normalizePresentValue (env : TextNumbers) : Raw → Option (Option PyFloat)
  | .null => some none
  | .bool b => some (some (if b then .fin 1 else .fin 0))
  | .int n => (floatOfInt n).map some
  | .float x => some (some x)
  | .other text _ =>
    let text := env.lower text
    if text = "active" then some (some (.fin 1))
    else if text = "inactive" then some (some (.fin 0))
    else match env.texts.float text with
      | .ok x => some (some x)
      | .error _ => some none

/-- `normalize_status`: in-alarm, fault, overridden, out-of-service. -/
def normalizeStatus : Option (List ℤ) → PointStatus
  | some (_ :: fault :: overridden :: outOfService :: _) =>
    if outOfService ≠ 0 then .outOfService
    else if fault ≠ 0 then .fault
    else if overridden ≠ 0 then .overridden
    else .ok
  | _ => .ok

/-- `build_reading`. -/
def buildReading (env : TextNumbers) (pointId : Uuid) (rawValue : Raw)
    (rawFlags : Option (List ℤ)) (ts : Instant) : Option Reading :=
  (normalizePresentValue env rawValue).map fun value ↦
    { pointId, ts, value, status := normalizeStatus rawFlags }

/-- Without the flags, nothing is known to be wrong. -/
@[simp] theorem normalizeStatus_flags_none : normalizeStatus (flags none) = .ok := rfl

end Superviseur
