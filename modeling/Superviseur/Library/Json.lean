import Superviseur.Library.PyFloat

/-!
# Decoded JSON

The values `json.loads` returns, and what the language's own constructors make of them. The decoder
accepts `NaN` and the infinities, so a number is any `PyFloat`; an object has each key once.

An exception is its text. How a text is read as a number or an identifier, and how a value is
written as a text, is left to `Texts`.
-/

/-- A decoded JSON value. -/
inductive Json where
  | null
  | bool (b : Bool)
  | int (n : ℤ)
  | float (x : PyFloat)
  | str (s : String)
  | arr (items : List Json)
  | obj (fields : List (String × Json))

/-- The readers and writers of texts of the language. -/
structure Texts where
  /-- `float(s)`. -/
  float : String → Except String PyFloat
  /-- `int(s)`. -/
  int : String → Except String ℤ
  /-- `uuid.UUID(s)`. -/
  uuid : String → Except String ℕ
  /-- `str(u)`, for an identifier. -/
  ofUuid : ℕ → String
  /-- `str(x)`, for a value that is no text. -/
  repr : Json → String

namespace Json

/-- `bool(x)`. -/
def truthy : Json → Bool
  | null => false
  | bool b => b
  | int n => decide (n ≠ 0)
  | float x => x.truthy
  | str s => decide (s ≠ "")
  | arr items => !items.isEmpty
  | obj fields => !fields.isEmpty

/-- `x == text`. -/
def isText (text : String) : Json → Bool
  | str s => decide (s = text)
  | _ => false

/-- The name of the type, as error texts have it. -/
def typeName : Json → String
  | null => "NoneType"
  | bool _ => "bool"
  | int _ => "int"
  | float _ => "float"
  | str _ => "str"
  | arr _ => "list"
  | obj _ => "dict"

/-- What `x[key]` raises on a value that is no object, `key` being a text. -/
def notSubscriptable : Json → String
  | arr _ => "list indices must be integers or slices, not str"
  | str _ => "string indices must be integers, not 'str'"
  | x => s!"'{x.typeName}' object is not subscriptable"

/-- The items `for item in x` goes over. -/
def iterate : Json → Except String (List Json)
  | arr items => .ok items
  | str s => .ok (s.toList.map fun c ↦ .str (String.ofList [c]))
  | obj fields => .ok (fields.map fun field ↦ .str field.1)
  | x => .error s!"'{x.typeName}' object is not iterable"

/-- `str(x)`. -/
def toStr (texts : Texts) : Json → String
  | str s => s
  | x => texts.repr x

/-- `uuid.UUID(str(x))`. -/
def toUuid (texts : Texts) (x : Json) : Except String ℕ := texts.uuid (x.toStr texts)

/-- `float(x)`. -/
def toFloat (texts : Texts) : Json → Except String PyFloat
  | bool b => .ok (.fin (if b then 1 else 0))
  | int n => match PyFloat.round n with
    | .num (some (some q)) => .ok (.fin q)
    | _ => .error "int too large to convert to float"
  | float x => .ok x
  | str s => texts.float s
  | x => .error s!"float() argument must be a string or a real number, not '{x.typeName}'"

/-- `int(x)`. -/
def toInt (texts : Texts) : Json → Except String ℤ
  | bool b => .ok (if b then 1 else 0)
  | int n => .ok n
  | float x => match x with
    | .nan => .error "cannot convert float NaN to integer"
    | x => match x.toInt with
      | some n => .ok n
      | none => .error "cannot convert float infinity to integer"
  | str s => texts.int s
  | x => .error
      s!"int() argument must be a string, a bytes-like object or a real number, not '{x.typeName}'"

/-! ## How a value nests -/

mutual

/-- How deep a value nests, what is neither a list nor an object counting for `leaf`. -/
def nesting (leaf : ℕ) : Json → ℕ
  | .arr items => nestingItems leaf items + 1
  | .obj fields => nestingFields leaf fields + 1
  | _ => leaf

def nestingItems (leaf : ℕ) : List Json → ℕ
  | [] => 0
  | x :: items => max (nesting leaf x) (nestingItems leaf items)

def nestingFields (leaf : ℕ) : List (String × Json) → ℕ
  | [] => 0
  | (_, x) :: fields => max (nesting leaf x) (nestingFields leaf fields)

end

mutual

/-- The integers of a value have so many digits at most. -/
def shortInts (digits : ℕ) : Json → Bool
  | .int n => (toString n.natAbs).toList.length ≤ digits
  | .arr items => shortIntsItems digits items
  | .obj fields => shortIntsFields digits fields
  | _ => true

def shortIntsItems (digits : ℕ) : List Json → Bool
  | [] => true
  | x :: items => shortInts digits x && shortIntsItems digits items

def shortIntsFields (digits : ℕ) : List (String × Json) → Bool
  | [] => true
  | (_, x) :: fields => shortInts digits x && shortIntsFields digits fields

end

end Json

/-- A JSON object. -/
abbrev Dict := List (String × Json)

namespace Dict

/-- `d.get(key)`. -/
def get (d : Dict) (key : String) : Json := (d.lookup key).getD .null

/-- `d[key]`. -/
def item (d : Dict) (key : String) : Except String Json :=
  match d.lookup key with
  | some x => .ok x
  | none => .error s!"'{key}'"

end Dict
