import Superviseur.Api.SynopticDoc
import Superviseur.Api.SynopticExpr
import Superviseur.Library.Validation

/-!
# The format of a document

The models of a document, their validation and `to_json`. Validation converts a number to the type
of its field, fills in the defaults and keeps the properties of its own that a widget has; what it
refuses it refuses with all the errors found, each with the path of its field.

How a text is read as a number is left to `SchemaEnv`.
-/

namespace Superviseur

/-- What validation leaves to the language, and to the library it rests on. -/
structure SchemaEnv where
  texts : Texts
  /-- An `int` field given a text. -/
  int : String → Option ℤ
  /-- A `float` field given a text. -/
  float : String → Option PyFloat
  /-- How deep the calls of the parser of expressions may nest. -/
  frames : ℕ

namespace Schema

/-- `SCHEMA_VERSION`. -/
def schemaVersion : ℤ := 1

/-- `MAX_RULES`. -/
def maxRules : ℕ := 20

/-- `STYLE_KEYS`. -/
def styleKeys : List String :=
  ["color", "background", "opacity", "fontSize", "fontWeight", "textAlign", "fill", "stroke",
    "strokeWidth", "borderColor", "borderRadius"]

/-! ## Safe values -/

/-- The tokens are made of ASCII letters, and no other letter has one of them as its lowercase form:
the `i` of a dotted capital is followed by its dot, and the sign of the kelvin is a `k`. -/
def lowered (cs : List Char) : List Char := cs.map Char.toLower

/-- `token in text`. -/
def includes (token text : List Char) : Bool := text.tails.any token.isPrefixOf

/-- What no value may have, in lowercase. -/
def unsafeTokens : List (List Char) :=
  ["url(".toList, "expression".toList, "@import".toList, "javascript:".toList]

/-- What no value may have, as it is. -/
def unsafeChars : List Char := [';', '\x7b', '\x7d', '<', '>', '\\']

/-- `is_safe_css_value`. -/
def isSafeCssValue : Json → Bool
  | .int _ | .float _ => true
  | .str s =>
    s.toList.length ≤ 100 && !(unsafeTokens.any fun token ↦ includes token (lowered s.toList)) &&
      !(unsafeChars.any fun char ↦ s.toList.contains char)
  | .null | .bool _ | .arr _ | .obj _ => false

/-! ## Fields -/

structure FieldError where
  loc : List String
  msg : String

abbrev Checked (α : Type) := Validation FieldError α

def refuse {α : Type} (msg : String) : Checked α := .invalid [⟨[], msg⟩]

/-- The errors of the field `key`. -/
def within {α : Type} (key : String) (x : Checked α) : Checked α :=
  x.mapErrors fun e ↦ { e with loc := key :: e.loc }

/-- A validator of the program, which raises `ValueError`. -/
def raising {α : Type} (validator : α → Except String Unit) (a : α) : Option FieldError :=
  match validator a with
  | .ok () => none
  | .error msg => some ⟨[], "Value error, " ++ msg⟩

/-- A field of a model: `default` is `none` where it is required. -/
def field {α : Type} (fields : Dict) (key : String) (default : Option α)
    (validate : Json → Checked α) : Checked α :=
  match fields.lookup key, default with
  | some raw, _ => within key (validate raw)
  | none, some a => .valid a
  | none, none => .invalid [⟨[key], "Field required"⟩]

/-- `extra="forbid"`. -/
def forbidExtra (names : List String) (fields : Dict) : Checked Unit :=
  match fields.filter fun f ↦ f.1 ∉ names with
  | [] => .valid ()
  | extra => .invalid (extra.map fun f ↦ ⟨[f.1], "Extra inputs are not permitted"⟩)

def strField : Json → Checked String
  | .str s => .valid s
  | _ => refuse "Input should be a valid string"

def dictField : Json → Checked Dict
  | .obj fields => .valid fields
  | _ => refuse "Input should be a valid dictionary"

def lengthError (min max : ℕ) (s : String) : Option FieldError :=
  if s.toList.length < min then some ⟨[], s!"String should have at least {min} character"⟩
  else if max < s.toList.length then some ⟨[], s!"String should have at most {max} characters"⟩
  else none

def listField {α : Type} (max : ℕ) (item : Json → Checked α) : Json → Checked (List α)
  | .arr items =>
    if max < items.length then
      refuse s!"List should have at most {max} items after validation, not {items.length}"
    else .all (fun i raw ↦ within (toString i) (item raw)) items
  | _ => refuse "Input should be a valid list"

section Numbers

variable (env : SchemaEnv)

def readInt : Json → Checked ℤ
  | .bool b => .valid (if b then 1 else 0)
  | .int n => .valid n
  | .float x =>
    match x.toInt with
    | none => refuse "Input should be a finite number"
    | some n =>
      if x = .fin n then .valid n
      else refuse "Input should be a valid integer, got a number with a fractional part"
  | .str s =>
    match env.int s with
    | some n => .valid n
    | none => refuse "Input should be a valid integer, unable to parse string as an integer"
  | .null | .arr _ | .obj _ => refuse "Input should be a valid integer"

def readFloat : Json → Checked PyFloat
  | .bool b => .valid (.fin (if b then 1 else 0))
  | .int n => .valid (.round n)
  | .float x => .valid x
  | .str s =>
    match env.float s with
    | some x => .valid x
    | none => refuse "Input should be a valid number, unable to parse string as a number"
  | .null | .arr _ | .obj _ => refuse "Input should be a valid number"

def intError (lo hi n : ℤ) : Option FieldError :=
  if hi < n then some ⟨[], s!"Input should be less than or equal to {hi}"⟩
  else if n < lo then some ⟨[], s!"Input should be greater than or equal to {lo}"⟩
  else none

/-- NaN is on the wrong side of no bound. -/
def floatError (lo hi : ℤ) (x : PyFloat) : Option FieldError :=
  if PyFloat.lt (.fin hi) x then some ⟨[], s!"Input should be less than or equal to {hi}"⟩
  else if x.lt (.fin lo) then some ⟨[], s!"Input should be greater than or equal to {lo}"⟩
  else none

def intField (lo hi : ℤ) (raw : Json) : Checked ℤ :=
  (readInt env raw).andThen (.check (intError lo hi))

def floatField (lo hi : ℤ) (raw : Json) : Checked PyFloat :=
  (readFloat env raw).andThen (.check (floatError lo hi))

end Numbers

/-! ## Canvas -/

structure Canvas where
  width : ℤ
  height : ℤ
  background : String
  bgImage : Option String

namespace Canvas

def fieldNames : List String := ["width", "height", "background", "bg_image"]

/-- `_background`. -/
def checkBackground (value : String) : Except String Unit :=
  if isSafeCssValue (.str value) then .ok () else .error "couleur de fond invalide"

/-- `_bg_image`. -/
def checkBgImage (value : Option String) : Except String Unit :=
  if value.all isDataImage then .ok ()
  else .error "image de fond : PNG, JPEG, WebP ou SVG en data URL, 5 Mo au plus"

/-- `str | None`. -/
def readBgImage : Json → Checked (Option String)
  | .null => .valid none
  | raw => some <$> strField raw

def default : Canvas := ⟨1920, 1080, "#0f172a", none⟩

def validate (env : SchemaEnv) : Json → Checked Canvas
  | .obj fields =>
    (Canvas.mk <$> field fields "width" (some default.width) (intField env 320 8000)
      <*> field fields "height" (some default.height) (intField env 240 8000)
      <*> field fields "background" (some default.background)
        (fun raw ↦ (strField raw).andThen (.check (raising checkBackground)))
      <*> field fields "bg_image" (some default.bgImage)
        (fun raw ↦ (readBgImage raw).andThen (.check (raising checkBgImage))))
      <* forbidExtra fieldNames fields
  | _ => refuse "Input should be a valid dictionary or instance of Canvas"

def toJson (c : Canvas) : Json :=
  .obj [("width", .int c.width), ("height", .int c.height), ("background", .str c.background),
    ("bg_image", match c.bgImage with | some image => .str image | none => .null)]

end Canvas

/-! ## Rules and styles -/

/-- `_check_style`. -/
def checkStyle (style : Dict) : Except String Unit :=
  style.forM fun (key, item) ↦
    if key ∉ styleKeys then .error ("propriété de style inconnue : " ++ key)
    else if isSafeCssValue item then .ok ()
    else .error ("valeur de style refusée pour " ++ key)

/-- A field `style`. -/
def styleField (raw : Json) : Checked Dict := (dictField raw).andThen (.check (raising checkStyle))

structure Rule where
  «when» : String
  style : Dict

namespace Rule

def fieldNames : List String := ["when", "style"]

/-- `_when`. A `RecursionError` escapes validation: the request fails. -/
def checkWhen (env : SchemaEnv) (value : String) : Except String Unit :=
  match SynopticExpr.checkExpression env.frames value with
  | .ok () => .ok ()
  | .error (.expressionError msg) => .error ("expression de règle invalide : " ++ msg)
  | .error .recursionError => .error "maximum recursion depth exceeded"

def validate (env : SchemaEnv) : Json → Checked Rule
  | .obj fields =>
    (Rule.mk <$> field fields "when" none
        (fun raw ↦ ((strField raw).andThen (.check (lengthError 1 200))).andThen
          (.check (raising (checkWhen env))))
      <*> field fields "style" (some []) styleField)
      <* forbidExtra fieldNames fields
  | _ => refuse "Input should be a valid dictionary or instance of Rule"

def toJson (r : Rule) : Json := .obj [("when", .str r.when), ("style", .obj r.style)]

end Rule

/-! ## Widgets -/

/-- A widget, with its geometry, its style and its rules. -/
structure Widget extends WidgetDef where
  x : PyFloat
  y : PyFloat
  w : PyFloat
  h : PyFloat
  style : Dict
  rules : List Rule

namespace Widget

def fieldNames : List String := ["id", "type", "x", "y", "w", "h", "bind", "style", "rules"]

/-- `_id`. -/
def checkId (value : String) : Except String Unit :=
  if isId value then .ok () else .error "id : 1 à 64 caractères (lettres, chiffres, _ et -)"

/-- `_type`. -/
def checkType (value : String) : Except String Unit :=
  if value ∈ widgetTypes then .ok () else .error ("type de widget inconnu : " ++ value)

/-- `extra="allow"`: the properties that are no field, as they are. -/
def extraOf (fields : Dict) : Dict := fields.filter fun f ↦ f.1 ∉ fieldNames

def ofFields (extra : Dict) (id type : String) (x y w h : PyFloat) (bind style : Dict)
    (rules : List Rule) : Widget :=
  ⟨⟨id, type, bind, extra⟩, x, y, w, h, style, rules⟩

def validate (env : SchemaEnv) : Json → Checked Widget
  | .obj fields =>
    (ofFields (extraOf fields)
      <$> field fields "id" none (fun raw ↦ (strField raw).andThen (.check (raising checkId)))
      <*> field fields "type" none (fun raw ↦ (strField raw).andThen (.check (raising checkType)))
      <*> field fields "x" none (floatField env (-10000) 20000)
      <*> field fields "y" none (floatField env (-10000) 20000)
      <*> field fields "w" none (floatField env 1 20000)
      <*> field fields "h" none (floatField env 1 20000)
      <*> field fields "bind" (some []) dictField
      <*> field fields "style" (some []) styleField
      <*> field fields "rules" (some []) (listField maxRules (Rule.validate env))).andThen
        (.check (raising fun w ↦ w.toWidgetDef.properties env.texts))
  | _ => refuse "Input should be a valid dictionary or instance of Widget"

def toJson (w : Widget) : Json :=
  .obj ([("id", .str w.id), ("type", .str w.type), ("x", .float w.x), ("y", .float w.y),
    ("w", .float w.w), ("h", .float w.h), ("bind", .obj w.bind), ("style", .obj w.style),
    ("rules", .arr (w.rules.map Rule.toJson))] ++ w.extra)

end Widget

/-! ## Links -/

namespace Link

def fieldNames : List String := ["type", "widget", "target"]

/-- `Literal["navigate"]`. -/
def readType : Json → Checked Unit
  | .str s => if s = "navigate" then .valid () else refuse "Input should be 'navigate'"
  | _ => refuse "Input should be 'navigate'"

/-- `_target`. -/
def checkTarget (value : String) : Except String Unit :=
  if isTarget value then .ok () else .error "cible de navigation invalide (synoptic:<slug>)"

def validate : Json → Checked LinkDef
  | .obj fields =>
    ((fun _ widget target ↦ ⟨widget, target⟩) <$> field fields "type" none readType
      <*> field fields "widget" none strField
      <*> field fields "target" none
        (fun raw ↦ (strField raw).andThen (.check (raising checkTarget))))
      <* forbidExtra fieldNames fields
  | _ => refuse "Input should be a valid dictionary or instance of Link"

def toJson (link : LinkDef) : Json :=
  .obj [("type", .str "navigate"), ("widget", .str link.widget), ("target", .str link.target)]

end Link

/-! ## Documents -/

structure SynopticDoc where
  schemaVersion : ℤ
  name : String
  canvas : Canvas
  widgets : List Widget
  links : List LinkDef

namespace SynopticDoc

/-- `populate_by_name`: the alias comes first. -/
def schemaKey (fields : Dict) : String :=
  if (fields.lookup "schema").isSome then "schema" else "schema_version"

def fieldNames (fields : Dict) : List String :=
  [schemaKey fields, "name", "canvas", "widgets", "links"]

/-- `_schema`. -/
def checkSchema (value : ℤ) : Except String Unit :=
  if value = Schema.schemaVersion then .ok ()
  else .error s!"version de schéma non prise en charge : {value}"

/-- `_references`. -/
def checkReferences (doc : SynopticDoc) : Except String Unit :=
  let ids := doc.widgets.map fun w ↦ w.id
  if ¬ ids.Nodup then .error "les id de widgets doivent être uniques"
  else doc.links.forM fun link ↦
    if link.widget ∈ ids then .ok ()
    else .error ("lien vers un widget inexistant : " ++ link.widget)

def validate (env : SchemaEnv) (fields : Dict) : Checked SynopticDoc :=
  ((SynopticDoc.mk
      <$> field fields (schemaKey fields) (some Schema.schemaVersion)
        (fun raw ↦ (readInt env raw).andThen (.check (raising checkSchema)))
      <*> field fields "name" none (fun raw ↦ (strField raw).andThen (.check (lengthError 1 255)))
      <*> field fields "canvas" (some Canvas.default) (Canvas.validate env)
      <*> field fields "widgets" (some []) (listField maxWidgets (Widget.validate env))
      <*> field fields "links" (some []) (listField maxWidgets Link.validate))
      <* forbidExtra (fieldNames fields) fields).andThen (.check (raising checkReferences))

/-- `to_json`. -/
def toJson (doc : SynopticDoc) : Dict :=
  [("schema", .int doc.schemaVersion), ("name", .str doc.name), ("canvas", doc.canvas.toJson),
    ("widgets", .arr (doc.widgets.map Widget.toJson)), ("links", .arr (doc.links.map Link.toJson))]

end SynopticDoc

end Schema

/-- `validate_document`. -/
def validateDocument (env : SchemaEnv) (raw : Dict) : Schema.Checked Schema.SynopticDoc :=
  Schema.SynopticDoc.validate env raw

end Superviseur
