import Superviseur.Front.EditorHistory
import Superviseur.Front.Geometry
import Superviseur.Library.JsonData
import Mathlib.Data.List.Dedup

/-!
# The state of the editor

The document, the selection and the clipboard, and all that the user can do to them. Widgets are
objects, whose properties are set by path: a property on the way that is no object becomes one.

What `JSON.stringify` does not write is no part of a document. A coordinate that is no number counts
as zero, and the prototypes of objects are left out.
-/

namespace Superviseur.Editor

/-! ## Documents -/

/-- The identifier of a widget: a text, unless a property has been set below it. -/
abbrev Id := JsonData

/-- A widget, with all its properties. -/
structure WidgetDef where
  fields : List (String × JsonData)
  deriving DecidableEq

namespace WidgetDef

def get (w : WidgetDef) (key : String) : JsonData := (w.fields.lookup key).getD .null

def set (w : WidgetDef) (key : String) (value : JsonData) : WidgetDef :=
  ⟨JsonData.setField w.fields key value⟩

def id (w : WidgetDef) : Id := w.get "id"

/-- A coordinate. -/
def num (w : WidgetDef) (key : String) : ℚ :=
  match w.get key with
  | .number q => q
  | _ => 0

def rect (w : WidgetDef) : Rect := ⟨w.num "x", w.num "y", w.num "w", w.num "h"⟩

/-- `Object.assign(w, { x, y })`. -/
def at_ (w : WidgetDef) (x y : ℚ) : WidgetDef := (w.set "x" (.number x)).set "y" (.number y)

end WidgetDef

/-- A link, to another synoptic. -/
structure LinkDef where
  widget : Id
  target : String
  deriving DecidableEq

structure Canvas where
  width : ℚ
  height : ℚ
  background : String
  bgImage : Option String
  deriving DecidableEq

structure SynopticDoc where
  name : String
  canvas : Canvas
  widgets : List WidgetDef
  links : List LinkDef
  deriving DecidableEq

def newDoc (name : String) : SynopticDoc where
  name := name
  canvas := { width := 1920, height := 1080, background := "#0f172a", bgImage := none }
  widgets := []
  links := []

/-- `w1`, `w2`... -/
def widgetId (n : ℕ) : Id := .str ("w" ++ toString n)

/-- The first of `w{n}`, `w{n + 1}`... that is not used, among the first `fuel`, or the next. -/
def firstFree (used : List Id) (n : ℕ) : ℕ → ℕ
  | 0 => n
  | fuel + 1 => if widgetId n ∈ used then firstFree used (n + 1) fuel else n

def SynopticDoc.ids (doc : SynopticDoc) : List Id := doc.widgets.map WidgetDef.id

/-- One of more identifiers than there are widgets is free. -/
def nextWidgetId (doc : SynopticDoc) : Id :=
  widgetId (firstFree doc.ids (doc.widgets.length + 1) doc.widgets.length)

/-! ## Widget types -/

inductive WidgetType
  | value
  | label
  | gauge
  | indicator
  | switch
  | setpoint
  | trend
  | alarmList
  | image
  | link
  | shape
  deriving DecidableEq

namespace WidgetType

def text : WidgetType → String
  | value => "value"
  | label => "label"
  | gauge => "gauge"
  | indicator => "indicator"
  | switch => "switch"
  | setpoint => "setpoint"
  | trend => "trend"
  | alarmList => "alarm_list"
  | image => "image"
  | link => "link"
  | shape => "shape"

/-- The properties that all the defaults have. -/
def common (w h : ℚ) (bind style : List (String × JsonData)) : List (String × JsonData) :=
  [("x", .number 0), ("y", .number 0), ("w", .number w), ("h", .number h), ("bind", .obj bind),
    ("style", .obj style), ("rules", .arr [])]

/-- `MODULES[type].defaults()`. -/
def defaults : WidgetType → List (String × JsonData)
  | value => common 160 56 [("format", .str "0.0"), ("unit", .bool true)] [("fontSize", .number 28)]
  | label => common 200 32 [] [("fontSize", .number 18)] ++ [("text", .str "Texte")]
  | gauge => common 180 112 [("format", .str "0"), ("unit", .bool true)] [] ++
      [("min", .number 0), ("max", .number 100)]
  | indicator => common 140 32 [] [] ++ [("showLabel", .bool true)]
  | switch => common 200 36 [] [] ++
      [("label", .str "Ventilateur"), ("priority", .number 8), ("confirm", .bool true)]
  | setpoint => common 220 64 [] [] ++
      [("label", .str "Consigne"), ("priority", .number 8), ("step", .number (1 / 2)),
        ("allowRelease", .bool false)]
  | trend => common 520 280 [("points", .arr [])] [] ++
      [("range", .str "1h"), ("live", .bool true), ("rangeSelector", .bool true)]
  | alarmList => common 720 260 [] [] ++
      [("states", .str "open"), ("maxRows", .number 20), ("allowAck", .bool true)]
  | image => common 160 120 [] [] ++ [("fit", .str "contain"), ("alt", .str "")]
  | link => common 160 40 [] [] ++ [("text", .str "Ouvrir"), ("target", .str "")]
  | shape => common 200 24 [] [("stroke", .str "#38bdf8"), ("strokeWidth", .number 10)] ++
      [("shape", .str "pipe"), ("flow", .bool true)]

end WidgetType

/-! ## Properties by path -/

/-- `path.split('.')`. -/
def keysOf (path : String) : List String := (path.toList.splitOn '.').map String.ofList

/-- The last key: the property is set, or deleted where there is no value or an empty text. -/
def setLast (holder : JsonData) (last : String) (value : Option JsonData) : Option JsonData :=
  match value with
  | none => holder.delete last
  | some value => if value = .str "" then holder.delete last else holder.assign last value

/-- A property on the way. -/
def innerOf (holder : JsonData) (key : String) : JsonData :=
  match holder.member key with
  | some inner => if inner.isObject then inner else .obj []
  | none => .obj []

/-- A property is set by its keys; `none` where that raises, which leaves the object as it is. -/
def setPath (value : Option JsonData) : List String → JsonData → Option JsonData
  | [], holder => some holder
  | [last], holder => setLast holder last value
  | key :: key' :: keys, holder =>
    (setPath value (key' :: keys) (innerOf holder key)).bind (holder.assign key)

/-- The widget, a property of which is set. -/
def WidgetDef.setPath (w : WidgetDef) (path : String) (value : Option JsonData) :
    Option WidgetDef :=
  match Editor.setPath value (keysOf path) (.obj w.fields) with
  | some (.obj fields) => some ⟨fields⟩
  | _ => none

/-! ## What is changed in a document -/

/-- The first element that satisfies `p` is changed. -/
def modifyFirst {α : Type} (p : α → Bool) (f : α → α) : List α → List α
  | [] => []
  | a :: as => if p a then f a :: as else a :: modifyFirst p f as

namespace SynopticDoc

variable (doc : SynopticDoc) (selection : List Id)

def selected : List WidgetDef := doc.widgets.filter fun w ↦ w.id ∈ selection

/-- `widget`. -/
def widget? (id : String) : Option WidgetDef := doc.widgets.find? fun w ↦ w.id = .str id

/-- The widget of that identifier is changed. -/
def update (id : String) (f : WidgetDef → WidgetDef) : SynopticDoc :=
  { doc with widgets := modifyFirst (fun w ↦ w.id = .str id) f doc.widgets }

/-- Every widget of the selection is changed. -/
def mapSelected (f : WidgetDef → WidgetDef) : SynopticDoc :=
  { doc with widgets := doc.widgets.map fun w ↦ if w.id ∈ selection then f w else w }

/-- The widgets of the selection, in their order, are at the places of the rectangles. -/
def placeAll : List WidgetDef → List Rect → List WidgetDef
  | [], _ => []
  | w :: ws, [] => w :: ws
  | w :: ws, r :: rects =>
    if w.id ∈ selection then w.at_ r.x r.y :: placeAll ws rects else w :: placeAll ws (r :: rects)

def place (rects : List Rect) : SynopticDoc :=
  { doc with widgets := placeAll selection doc.widgets rects }

def delete : SynopticDoc :=
  { doc with
    widgets := doc.widgets.filter fun w ↦ w.id ∉ selection
    links := doc.links.filter fun l ↦ l.widget ∉ selection }

def bringToFront : SynopticDoc :=
  { doc with
    widgets := (doc.widgets.filter fun w ↦ w.id ∉ selection) ++ doc.selected selection }

def sendToBack : SynopticDoc :=
  { doc with
    widgets := doc.selected selection ++ doc.widgets.filter fun w ↦ w.id ∉ selection }

def setLink (id : String) (target : Option String) : SynopticDoc :=
  let links := doc.links.filter fun l ↦ l.widget ≠ .str id
  match target with
  | none | some "" => { doc with links := links }
  | some target => { doc with links := links ++ [⟨.str id, target⟩] }

/-- The target of the last link of a widget, in a `Map` of the links. -/
def targetOf (id : Id) : Option String :=
  (doc.links.reverse.find? fun l ↦ l.widget = id).map LinkDef.target

end SynopticDoc

/-- `PASTE_OFFSET`. -/
def pasteOffset : ℚ := 20

/-- What a paste has made so far. -/
structure Paste where
  doc : SynopticDoc
  created : List WidgetDef

namespace Paste

/-- A copy of one widget; `linked` has the links as they were before. -/
def add (linked : SynopticDoc) (p : Paste) (original : WidgetDef) : Paste :=
  let id := nextWidgetId p.doc
  let copy := (original.at_ (original.num "x" + pasteOffset) (original.num "y" + pasteOffset)).set
    "id" id
  let links :=
    match linked.targetOf original.id with
    | none | some "" => p.doc.links
    | some target => p.doc.links ++ [⟨id, target⟩]
  { doc := { p.doc with widgets := p.doc.widgets ++ [copy], links := links }
    created := p.created ++ [copy] }

def all (doc : SynopticDoc) (clipboard : List WidgetDef) : Paste :=
  clipboard.foldl (add doc) ⟨doc, []⟩

end Paste

/-! ## The editor -/

/-- `EditorState`; the listeners are left out. -/
structure EditorState (S : Type) extends History SynopticDoc S where
  selection : List Id := []
  clipboard : List WidgetDef := []
  grid : ℚ := 10
  snapping : Bool := true

/-- A rectangle of which some sides are given. -/
structure PartialRect where
  x : Option ℚ := none
  y : Option ℚ := none
  w : Option ℚ := none
  h : Option ℚ := none

/-- A side, where it is given. -/
def WidgetDef.setSide (widget : WidgetDef) (key : String) (side : Option ℚ) : WidgetDef :=
  match side with
  | none => widget
  | some q => widget.set key (.number q)

/-- `Object.assign(widget, rect)`. -/
def WidgetDef.assign (widget : WidgetDef) (rect : PartialRect) : WidgetDef :=
  (((widget.setSide "x" rect.x).setSide "y" rect.y).setSide "w" rect.w).setSide "h" rect.h

/-- A canvas of which some properties are given. -/
structure CanvasPatch where
  width : Option ℚ := none
  height : Option ℚ := none
  background : Option String := none
  bgImage : Option (Option String) := none

namespace CanvasPatch

/-- `Object.keys(patch).join(',')`. -/
def keys (patch : CanvasPatch) : String :=
  String.intercalate "," (([("width", patch.width.isSome), ("height", patch.height.isSome),
    ("background", patch.background.isSome), ("bg_image", patch.bgImage.isSome)].filter
      Prod.snd).map Prod.fst)

/-- `Object.assign(canvas, patch)`. -/
def apply (patch : CanvasPatch) (canvas : Canvas) : Canvas where
  width := patch.width.getD canvas.width
  height := patch.height.getD canvas.height
  background := patch.background.getD canvas.background
  bgImage := patch.bgImage.getD canvas.bgImage

end CanvasPatch

/-- A rule: a condition and a style. -/
structure Rule where
  when_ : String
  style : List (String × JsonData)

def Rule.toData (rule : Rule) : JsonData :=
  .obj [("when", .str rule.when_), ("style", .obj rule.style)]

/-- What the user does. -/
inductive Op
  | addWidget (type : WidgetType) (at_ : Option (ℚ × ℚ))
  | deleteSelected
  | moveSelected (dx dy : ℚ) (snapToGrid : Bool)
  | placeSelected (origins : List (Id × ℚ × ℚ)) (dx dy : ℚ) (snapToGrid : Bool)
  /-- An arrow key. -/
  | nudge (dx dy : ℚ)
  | setGeometry (id : String) (rect : PartialRect)
  | alignSelected (mode : AlignMode)
  | distributeSelected (axis : Axis)
  | bringToFront
  | sendToBack
  | copy
  | cut
  | paste
  | duplicate
  | setProperty (id path : String) (value : Option JsonData)
  | setRules (id : String) (rules : List Rule)
  | setLink (id : String) (target : Option String)
  | setName (name : String)
  | setCanvas (patch : CanvasPatch)
  | setGrid (grid : ℚ) (snapping : Bool)
  | select (ids : List Id) (additive : Bool)
  | toggle (id : Id)
  | selectAll
  | clearSelection
  | selectInRect (area : Rect) (additive : Bool)
  | begin_
  | end_
  | undo
  | redo
  | load (doc : SynopticDoc)
  | markSaved

namespace EditorState

variable {S : Type} [DecidableEq S] (json : JsonText SynopticDoc S) (s : EditorState S)

def new (doc : SynopticDoc) : EditorState S := { toHistory := .new json doc }

def selected : List WidgetDef := s.doc.selected s.selection

/-- `mutate`. -/
def change (f : SynopticDoc → SynopticDoc) (coalesce : Option String) (clock : Clock) :
    EditorState S :=
  { s with toHistory := s.mutate json f coalesce clock }

def fit (value : ℚ) : ℚ := if s.snapping then snap value s.grid else round value

def addWidget (type : WidgetType) (at_ : Option (ℚ × ℚ)) (clock : Clock) : EditorState S :=
  let id := nextWidgetId s.doc
  let widget := ((⟨type.defaults⟩ : WidgetDef).set "id" id).set "type" (.str type.text)
  let stagger : ℚ := (s.doc.widgets.length % 10 : ℕ) * s.grid
  let x := (at_.map fun p ↦ p.1 - widget.num "w" / 2).getD (40 + stagger)
  let y := (at_.map fun p ↦ p.2 - widget.num "h" / 2).getD (40 + stagger)
  let widget := widget.at_ (s.fit x) (s.fit y)
  { s.change json (fun doc ↦ { doc with widgets := doc.widgets ++ [widget] }) none clock with
    selection := [id] }

def deleteSelected (clock : Clock) : EditorState S :=
  if s.selection = [] then s
  else { s.change json (·.delete s.selection) none clock with selection := [] }

/-- The corner of some places; `Infinity` is never used. -/
def cornerOf : List (ℚ × ℚ) → ℚ × ℚ
  | [] => (0, 0)
  | p :: places => places.foldl (fun box q ↦ (min box.1 q.1, min box.2 q.2)) p

/-- By how much all is moved: magnetism fits the corner to the grid. -/
def shift (corner : ℚ × ℚ) (dx dy : ℚ) (snapToGrid : Bool) : ℚ × ℚ :=
  if snapToGrid && s.snapping then
    (snap (corner.1 + dx) s.grid - corner.1, snap (corner.2 + dy) s.grid - corner.2)
  else (dx, dy)

def moveSelected (dx dy : ℚ) (snapToGrid : Bool) (clock : Clock) : EditorState S :=
  if s.selected = [] then s
  else
    let origin := cornerOf (s.selected.map fun w ↦ (w.num "x", w.num "y"))
    let m := s.shift origin dx dy snapToGrid
    s.change json (·.mapSelected s.selection fun w ↦ w.at_ (w.num "x" + m.1) (w.num "y" + m.2))
      none clock

def placeSelected (origins : List (Id × ℚ × ℚ)) (dx dy : ℚ) (snapToGrid : Bool) (clock : Clock) :
    EditorState S :=
  let targets := s.selected.filter fun w ↦ (origins.lookup w.id).isSome
  if targets = [] then s
  else
    let m := s.shift (cornerOf (origins.map Prod.snd)) dx dy snapToGrid
    s.change json (·.mapSelected s.selection fun w ↦
      match origins.lookup w.id with
      | none => w
      | some origin => w.at_ (origin.1 + m.1) (origin.2 + m.2)) none clock

/-- An identifier in a text. -/
def idText : Id → String
  | .str id => id
  | _ => "[object Object]"

def nudge (dx dy : ℚ) (clock : Clock) : EditorState S :=
  if s.selection = [] then s
  else
    let ids := String.intercalate "," (s.selection.map idText)
    s.change json (·.mapSelected s.selection fun w ↦ w.at_ (w.num "x" + dx) (w.num "y" + dy))
      (some s!"nudge:{ids}") clock

def setGeometry (id : String) (rect : PartialRect) (clock : Clock) : EditorState S :=
  match s.doc.widget? id with
  | none => s
  | some _ => s.change json (·.update id fun w ↦ w.assign rect) (some s!"geometry:{id}") clock

def alignSelected (mode : AlignMode) (clock : Clock) : EditorState S :=
  if s.selected.length < 2 then s
  else
    let aligned := alignRects (s.selected.map WidgetDef.rect) mode
    s.change json (·.place s.selection aligned) none clock

def distributeSelected (axis : Axis) (clock : Clock) : EditorState S :=
  if s.selected.length < 3 then s
  else
    let placed := distributeRects (s.selected.map WidgetDef.rect) axis
    s.change json (·.place s.selection placed) none clock

def copy : EditorState S := { s with clipboard := s.selected }

def paste (clock : Clock) : EditorState S :=
  if s.clipboard = [] then s
  else
    let created := (Paste.all s.doc s.clipboard).created
    { s.change json (fun doc ↦ (Paste.all doc s.clipboard).doc) none clock with
      selection := created.map WidgetDef.id
      clipboard := created }

/-- A path that raises changes nothing. -/
def setProperty (id path : String) (value : Option JsonData) (clock : Clock) : EditorState S :=
  match s.doc.widget? id with
  | none => s
  | some widget =>
    match widget.setPath path value with
    | none => s
    | some widget =>
      s.change json (·.update id fun _ ↦ widget) (some s!"prop:{id}:{path}") clock

def setRules (id : String) (rules : List Rule) (clock : Clock) : EditorState S :=
  match s.doc.widget? id with
  | none => s
  | some _ =>
    s.change json (·.update id fun w ↦ w.set "rules" (.arr (rules.map Rule.toData)))
      (some s!"rules:{id}") clock

/-- The identifiers of the selection, among those of the document. -/
def pruned : EditorState S := { s with selection := s.selection.filter fun id ↦ id ∈ s.doc.ids }

def undo : EditorState S :=
  match s.undoStack with
  | [] => s
  | _ :: _ => pruned { s with toHistory := s.toHistory.undo json }

def redo : EditorState S :=
  match s.redoStack with
  | [] => s
  | _ :: _ => pruned { s with toHistory := s.toHistory.redo json }

/-- `selection.add(id)`, for an existing widget. -/
def add (selection : List Id) (id : Id) : List Id :=
  if id ∈ s.doc.ids ∧ id ∉ selection then selection ++ [id] else selection

def select (ids : List Id) (additive : Bool) : EditorState S :=
  { s with selection := ids.foldl s.add (if additive then s.selection else []) }

def toggle (id : Id) : EditorState S :=
  { s with
    selection := if id ∈ s.selection then s.selection.filter (· ≠ id) else s.add s.selection id }

def selectInRect (area : Rect) (additive : Bool) : EditorState S :=
  s.select ((s.doc.widgets.filter fun w ↦ intersects area w.rect).map WidgetDef.id) additive

def load (doc : SynopticDoc) : EditorState S :=
  { s with toHistory := s.toHistory.load json doc, selection := [] }

def step (clock : Clock) : Op → EditorState S
  | .addWidget type at_ => s.addWidget json type at_ clock
  | .deleteSelected => s.deleteSelected json clock
  | .moveSelected dx dy snapToGrid => s.moveSelected json dx dy snapToGrid clock
  | .placeSelected origins dx dy snapToGrid => s.placeSelected json origins dx dy snapToGrid clock
  | .nudge dx dy => s.nudge json dx dy clock
  | .setGeometry id rect => s.setGeometry json id rect clock
  | .alignSelected mode => s.alignSelected json mode clock
  | .distributeSelected axis => s.distributeSelected json axis clock
  | .bringToFront => s.change json (·.bringToFront s.selection) none clock
  | .sendToBack => s.change json (·.sendToBack s.selection) none clock
  | .copy => s.copy
  | .cut => s.copy.deleteSelected json clock
  | .paste => s.paste json clock
  | .duplicate => s.copy.paste json clock
  | .setProperty id path value => s.setProperty json id path value clock
  | .setRules id rules => s.setRules json id rules clock
  | .setLink id target => s.change json (·.setLink id target) none clock
  | .setName name => s.change json ({ · with name := name }) (some "name") clock
  | .setCanvas patch =>
    s.change json (fun doc ↦ { doc with canvas := patch.apply doc.canvas })
      (some s!"canvas:{patch.keys}") clock
  | .setGrid grid snapping => { s with grid := max 1 (round grid), snapping := snapping }
  | .select ids additive => s.select ids additive
  | .toggle id => s.toggle id
  | .selectAll => { s with selection := s.doc.ids.dedup }
  | .clearSelection => { s with selection := [] }
  | .selectInRect area additive => s.selectInRect area additive
  | .begin_ => { s with toHistory := s.toHistory.begin_ json }
  | .end_ => { s with toHistory := s.toHistory.end_ json }
  | .undo => s.undo json
  | .redo => s.redo json
  | .load doc => s.load json doc
  | .markSaved => { s with toHistory := s.toHistory.markSaved json }

def run (done : List (Op × Clock)) : EditorState S :=
  done.foldl (fun s op ↦ s.step json op.2 op.1) s

end EditorState

end Superviseur.Editor
