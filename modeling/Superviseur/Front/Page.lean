import Superviseur.Api.DocumentRoundTrip
import Superviseur.Front.Mounted
import Superviseur.Front.Style

/-!
# What the viewer writes in the styles of a page

The widgets of a synoptic write their style, and that of the rules that are true, on their root; the
lamp of an indicator has a colour of its own, and the viewer writes the background of the canvas.
Every other text written is one of the program. The values that come for a widget wait for its turn
to be shown, where a newer one of the same point replaces an older one.

What is computed from numbers alone (the scale of the canvas, `rescale`) and the colours of the
theme of a curve or of a list of alarms is left out; so is the target the viewer gives to a link.
-/

namespace Superviseur

open Schema (Widget)
open Style

/-- An element whose style is written: those of a widget are known by its identifier. -/
inductive Element where
  | canvas
  | item (widget : String)
  | root (widget : String)
  | lamp (widget : String)

/-- A style is written. -/
structure StyleWrite where
  element : Element
  op : StyleOp

/-- What the pages of the viewer are told of a point. -/
structure PointInfo where
  unit : Option String
  stateText : Option (List String)

/-! ## The root of a widget -/

structure Shell where
  widget : Widget
  rules : List CompiledRule
  applied : StyleMap

namespace Shell

/-- The writes on the root. -/
def onRoot (w : Widget) (ops : List StyleOp) : List StyleWrite := ops.map fun op ↦ ⟨.root w.id, op⟩

/-- `new Shell`. -/
def new (w : Widget) : Shell × List StyleWrite :=
  (⟨w, compileRules w.rules, .of w.style⟩, onRoot w (applyStyle (.of w.style) .empty))

def refresh (shell : Shell) (value : Option PyFloat) (status : String) :
    Shell × List StyleWrite :=
  let style := resolveStyle shell.widget.style shell.rules ⟨value, status⟩
  ({ shell with applied := style }, onRoot shell.widget (applyStyle style shell.applied))

end Shell

/-! ## Indicators -/

/-- A state of an indicator; its label is a text of the page. -/
structure IndicatorState where
  value : PyFloat
  color : String

namespace IndicatorState

/-- A number of the document. -/
def number? : Json → Option PyFloat
  | .int n => some (.round n)
  | .float x => some x
  | .null | .bool _ | .str _ | .arr _ | .obj _ => none

/-- A state that has a number for value and a text for colour. -/
def of? : Json → Option IndicatorState
  | .obj fields =>
    match number? (Dict.get fields "value"), Dict.get fields "color" with
    | some value, .str color => some ⟨value, color⟩
    | _, _ => none
  | .null | .bool _ | .int _ | .float _ | .str _ | .arr _ => none

mutual

/-- `String(x)` gives a text: it raises on an object that has a `toString` of its own, which is no
function. -/
def hasText : Json → Bool
  | .arr items => allHaveText items
  | .obj fields => (fields.lookup "toString").isNone
  | .null | .bool _ | .int _ | .float _ | .str _ => true

def allHaveText : List Json → Bool
  | [] => true
  | item :: items => hasText item && allHaveText items

end

/-- The label of a state. -/
def label : Json → Json
  | .obj fields => Dict.get fields "label"
  | _ => .null

/-- `statesOf`; `none` where it raises. -/
def statesOf (w : Widget) : Option (Option (List IndicatorState)) :=
  match w.extra.get "states" with
  | .arr (item :: items) =>
    if (item :: items).all fun raw ↦ (of? raw).isNone || hasText (label raw) then
      some (some ((item :: items).filterMap of?))
    else none
  | _ => some none

/-- `MULTI_COLORS`. -/
def multiColors : List String :=
  ["#3987e5", "#eda100", "#1baf7a", "#e87ba4", "#9085e9", "#e66767", "#d95926", "#199e70"]

/-- `MULTI_COLORS[(value - 1) % MULTI_COLORS.length]`; what is undefined is written so. -/
def multiColor (value : PyFloat) : String :=
  match value.sub (.fin 1) with
  | .num (some (some q)) =>
    let index := q - 8 * PyFloat.truncRat (q / 8)
    if index.isInt && 0 ≤ index then multiColors.getD index.num.toNat "undefined" else "undefined"
  | _ => "undefined"

/-- The colour of `describe`. -/
def describeColor (configured : Option (List IndicatorState)) (stateText : Option (List String)) :
    Option PyFloat → CssText
  | none => .program "#64748b"
  | some value =>
    match configured with
    | some states =>
      match states.find? fun state ↦ state.value = value with
      | some state => .document state.color
      | none => .program "#64748b"
    | none =>
      match stateText with
      | some _ => .program (multiColor value)
      | none => .program (if value = .fin 1 then "#22c55e" else "#64748b")

end IndicatorState

/-! ## Widgets -/

/-- `boundPoint`. -/
def boundPoint (w : Widget) : Option String := pointText (w.bind.get "point")

/-- `x !== false`. -/
def isShown : Json → Bool
  | .bool false => false
  | _ => true

/-- A widget that is shown and takes values. -/
structure Live where
  shell : Shell
  configured : Option (List IndicatorState)
  stateText : Option (List String)
  /-- The last value shown, for the widgets that keep it. -/
  last : Option (Option PyFloat × String)

inductive Instance where
  /-- `staticInstance`. -/
  | static
  | live (l : Live)

namespace Live

/-- The colour of the lamp of an indicator. -/
def lampWrites (l : Live) (value : Option PyFloat) : List StyleWrite :=
  if l.shell.widget.type = "indicator" then
    [⟨.lamp l.shell.widget.id,
      .set "--lamp" (IndicatorState.describeColor l.configured l.stateText value)⟩]
  else []

/-- `show`. -/
def showValue (l : Live) (value : Option PyFloat) (status : String) : Live × List StyleWrite :=
  let (shell, writes) := l.shell.refresh value status
  ({ l with shell := shell }, l.lampWrites value ++ writes)

/-- `update`. A setpoint keeps the value of a point that does not answer. -/
def update (l : Live) (sample : LiveSample) : Live × List StyleWrite :=
  let value := if sample.status = "comm_lost" then none else sample.value
  if l.shell.widget.type = "setpoint" then l.showValue sample.value sample.status
  else if l.shell.widget.type = "indicator" ∨ l.shell.widget.type = "gauge" then
    { l with last := some (value, sample.status) }.showValue value sample.status
  else l.showValue value sample.status

/-- The last value is shown again. -/
def again (l : Live) : Live × List StyleWrite :=
  match l.last with
  | some (value, status) => l.showValue value status
  | none => (l, [])

/-- What a widget does of what it is told of its point. -/
def receiveInfo (l : Live) (info : PointInfo) : Live × List StyleWrite :=
  if (boundPoint l.shell.widget).isNone then (l, [])
  else if l.shell.widget.type = "indicator" ∧ l.configured.isNone ∧
      (info.stateText.getD []).isEmpty = false then
    { l with stateText := info.stateText }.again
  else if l.shell.widget.type = "gauge" ∧ isShown (l.shell.widget.bind.get "unit") ∧
      info.unit.getD "" ≠ "" then
    l.again
  else (l, [])

end Live

/-- The status before any value. -/
def initialStatus (w : Widget) : String :=
  if (boundPoint w).isSome then "unknown" else if w.type = "shape" then "static" else "unbound"

/-- `ALIGN[String(widget.style?.textAlign)] ?? 'flex-start'`: an object has the members of its
prototype too. -/
def alignFlex (w : Widget) : String :=
  match w.style.get "textAlign" with
  | .str align =>
    ((("left", "flex-start") :: ("center", "center") :: ("right", "flex-end") ::
      Expressions.objectPrototype).lookup align).getD "flex-start"
  | _ => "flex-start"

/-- A widget that takes no value, with the properties its root has besides. -/
def renderStatic (w : Widget) (ops : List StyleOp) : Instance × List StyleWrite :=
  let (shell, created) := Shell.new w
  (.static, created ++ Shell.onRoot w ops ++ (shell.refresh none "static").2)

/-- A widget that takes values. -/
def renderLive (w : Widget) (configured : Option (List IndicatorState)) :
    Instance × List StyleWrite :=
  let (shell, created) := Shell.new w
  let last := if w.type = "gauge" then some (none, initialStatus w) else none
  let (l, writes) := Live.showValue ⟨shell, configured, none, last⟩ none (initialStatus w)
  (.live l, created ++ writes)

/-- `placeholder`. -/
def renderPlaceholder (w : Widget) : Instance × List StyleWrite := (.static, (Shell.new w).2)

/-- `normalizeConfig` of a list of alarms raises no error. -/
def isAlarmList (w : Widget) : Bool :=
  w.isOneOf "states" ["open", "active", "unacked", "closed", "all"] &&
    (match w.extra.get "maxRows" with
      | .null => true
      | .int n => 1 ≤ n && n ≤ 200
      | .float x => (List.range 200).any fun n ↦ x = .fin (n + 1)
      | _ => false) &&
    w.isOneOf "theme" ["auto", "light", "dark"] &&
    (match w.extra.get "path" with
      | .null | .str _ => true
      | _ => false)

/-- `render`, of the module of the type of the widget; a widget in error has a placeholder. -/
def renderWidget (w : Widget) : Instance × List StyleWrite :=
  if w.type = "trend" then
    if w.trendConfig.isSome then (.static, []) else renderPlaceholder w
  else if w.type = "alarm_list" then
    if isAlarmList w then (.static, []) else renderPlaceholder w
  else if w.type = "label" then
    renderStatic w [.set "--w-text-align-flex" (.program (alignFlex w))]
  else if w.type = "image" then
    -- `DATA_IMAGE.test`: the size is not looked at, but a line break is refused
    match w.extra.get "src" with
    | .str src =>
      if isDataImage src && src.toList.getLast? != some '\n' then
        renderStatic w [.set "--fit"
          (.program (if (w.extra.get "fit").isText "cover" then "cover" else "contain"))]
      else renderStatic w []
    | _ => renderStatic w []
  else if w.type = "link" then renderStatic w []
  else if w.type = "shape" then
    match boundPoint w with
    | none => renderStatic w []
    | some _ => renderLive w none
  else if w.type = "indicator" then
    match IndicatorState.statesOf w with
    | none => (.static, (Shell.new w).2 ++ (renderPlaceholder w).2)
    | some configured => renderLive w configured
  else renderLive w none

/-! ## The page -/

structure Page where
  viewer : Viewer
  instances : OrderedDict String Instance
  /-- The values that wait, each for a widget. -/
  pending : List (String × LiveSample)
  /-- What has been written, in order. -/
  writes : List StyleWrite

namespace Page

/-- The place and the size of a widget. -/
def itemWrites (w : Widget) : List StyleWrite :=
  [("left", w.x), ("top", w.y), ("width", w.w), ("height", w.h)].map fun (property, x) ↦
    ⟨.item w.id, .set property (.number x "px")⟩

/-- The background of the canvas, and the colours that go with it. -/
def canvasWrites (dark : Bool) (canvas : Schema.Canvas) : List StyleWrite :=
  let image : List StyleOp := match canvas.bgImage with
    | some image =>
      -- as for images
      if isDataImage image && image.toList.getLast? != some '\n' then
        [.set "background-image" (.image image), .set "background-size" (.program "100% 100%")]
      else []
    | none => []
  let size : List StyleOp :=
    [.set "width" (.number (.fin canvas.width) "px"),
      .set "height" (.number (.fin canvas.height) "px")]
  let colors : List StyleOp :=
    [.set "--syn-ink" (.program (if dark then "#f8fafc" else "#0b0b0b")),
      .set "--syn-muted" (.program (if dark then "#94a3b8" else "#64748b")),
      .set "--syn-canvas" (.document canvas.background)]
  (size ++ .set "background" (.document canvas.background) :: image ++ colors).map fun op ↦
    ⟨.canvas, op⟩

/-- A widget is put on the canvas. -/
def mountWidget (page : Page) (w : Widget) : Page :=
  let (inst, writes) := renderWidget w
  { page with
    instances := page.instances.insert w.id inst
    writes := page.writes ++ itemWrites w ++ writes }

/-- `mountViewer`; `dark` is what `isDarkColor` says of the background. -/
def mount (dark : Bool) (doc : Schema.SynopticDoc) : Page :=
  doc.widgets.foldl mountWidget
    ⟨Superviseur.mountViewer .new doc.document, .empty, [], canvasWrites dark doc.canvas⟩

/-- `batcher.push`. -/
def push (pending : List (String × LiveSample)) (e : String × LiveSample) :
    List (String × LiveSample) :=
  if pending.any fun e' ↦ e'.1 = e.1 ∧ e'.2.point = e.2.point then
    pending.map fun e' ↦ if e'.1 = e.1 ∧ e'.2.point = e.2.point then e else e'
  else pending ++ [e]

/-- A widget is given a value. -/
def deliver (id : String) (page : Page) (sample : LiveSample) : Page :=
  match page.instances.get? id with
  | some (.live l) =>
    let (l, writes) := l.update sample
    { page with instances := page.instances.insert id (.live l), writes := page.writes ++ writes }
  | _ => page

/-- What happens on the page. -/
inductive Event where
  /-- A value comes. -/
  | message (message : ValueMessage)
  /-- The turn of a widget comes: it is given the values that wait for it. -/
  | turn (id : String)
  /-- The widget is told of its point. -/
  | info (id : String) (info : PointInfo)

def step (page : Page) : Event → Page
  | .message message =>
    { page with pending := (page.viewer.receive message).foldl push page.pending }
  | .turn id =>
    ((page.pending.filter fun e ↦ e.1 = id).map Prod.snd).foldl (deliver id)
      { page with pending := page.pending.filter fun e ↦ e.1 ≠ id }
  | .info id info =>
    match page.instances.get? id with
    | some (.live l) =>
      let (l, writes) := l.receiveInfo info
      { page with instances := page.instances.insert id (.live l), writes := page.writes ++ writes }
    | _ => page

def run (dark : Bool) (doc : Schema.SynopticDoc) (events : List Event) : Page :=
  events.foldl step (mount dark doc)

end Page

end Superviseur
