import Superviseur.Common.Models
import Superviseur.Library.PyFloat

/-!
# Conditions of the alarm rules

`evaluateValue` answers `none` when there is nothing to conclude: no value, no threshold, or a value
that is NaN. A point without a value can neither raise an alarm nor clear it.
-/

namespace Superviseur

/-- Kinds whose condition depends on the value of the point. -/
def valueKinds : List AlarmKind := [.high, .low, .state]

/-- The condition of a `high`, `low` or `state` rule. `high` holds above the threshold and falls
back only at `threshold - hysteresis`; `low` is its mirror image; `state` holds at the expected
value. -/
def evaluateValue (kind : AlarmKind) (value threshold : Option PyFloat) (hysteresis : PyFloat)
    (previous : Bool) : Option Bool :=
  match value, threshold with
  | some value, some threshold =>
    if value.isNan then none
    else match kind with
      | .high => some (threshold.lt value || (previous && (threshold.sub hysteresis).lt value))
      | .low => some (value.lt threshold || (previous && value.lt (threshold.add hysteresis)))
      | .state => some ((value.sub threshold).abs.lt (.round (1 / 10 ^ 9)))
      | _ => none
  | _, _ => none

/-- No new value for more than `maxAgeS` seconds. -/
def isStale (ageS : ℚ) (maxAgeS : PyFloat) : Bool := maxAgeS.lt (.fin ageS)

/-- `to_state.lower().replace("-", "").replace("_", "") != "normal"`. Lower case is taken on ASCII
letters, which is enough here: no other character has a letter of `normal` as its lower case. -/
def isAbnormalEventState (toState : String) : Bool :=
  decide ((toState.toList.map Char.toLower).filter (fun c ↦ c != '-' && c != '_')
    ≠ "normal".toList)

example : isAbnormalEventState "Nor-Mal" = false ∧ isAbnormalEventState "high-limit" = true := by
  decide

end Superviseur
