import Superviseur.Api.SynopticDoc
import Superviseur.Library.Groups

/-!
# The viewer and its connection

`mountViewer` shows the widgets of a synoptic, notes which of them are bound to each point, and
subscribes to the points for them; the curves subscribe for themselves. `LiveClient` keeps the
listeners by the text of the point, asks the server for the texts that are new in slices of 200, and
gives a value to the listeners of the text it comes with.

The client is the one of a page that has just been loaded: no retry is pending. The alarms, which
need no subscription, are left out.
-/

namespace Superviseur

/-- `SUBSCRIBE_CHUNK`. -/
def subscribeChunk : ℕ := 200

inductive LiveState where
  | closed
  | connecting
  | open
  deriving DecidableEq

/-- Who listens to a point: the viewer, or a curve. -/
inductive Listener where
  | viewer
  | trend (widget : String)
  deriving DecidableEq

/-- A value, as the client gives it to its listeners. -/
structure LiveSample where
  point : String
  ts : Instant
  value : Option PyFloat
  status : String
  deriving DecidableEq

/-- A message of type `value`, as the server sends it; the text of an instant is never empty. -/
structure ValueMessage where
  point : String
  ts : Instant
  value : Option PyFloat
  status : String

/-- `JSON.parse` takes the message: `json.dumps` writes `NaN` and `Infinity` as they are. -/
def ValueMessage.isJson (message : ValueMessage) : Bool := message.value.all PyFloat.isFinite

structure LiveClient where
  state : LiveState
  listeners : Groups String Listener
  /-- The points of each `subscribe` message sent on the socket, in order. -/
  sent : List (List String)

namespace LiveClient

/-- `new LiveClient`. -/
def new : LiveClient := ⟨.closed, [], []⟩

/-- `send("subscribe", points)`. -/
def send (client : LiveClient) (points : List String) : LiveClient :=
  { client with sent := client.sent ++ slices subscribeChunk [] points }

/-- The listener joins the group of a point; `added` has the points that had none. -/
def listen (listener : Listener) (acc : Groups String Listener × List String) (point : String) :
    Groups String Listener × List String :=
  (acc.1.update point fun group ↦ if listener ∈ group then group else group ++ [listener],
    if point ∈ acc.1.keys then acc.2 else acc.2 ++ [point])

def subscribe (client : LiveClient) (points : List String) (listener : Listener) : LiveClient :=
  let (listeners, added) := points.foldl (listen listener) (client.listeners, [])
  let client := { client with listeners := listeners }
  match client.state with
  | .closed => { client with state := .connecting }
  | .connecting => client
  | .open => client.send added

/-- `socket.onopen`. -/
def onopen (client : LiveClient) : LiveClient :=
  { client with state := .open }.send client.listeners.keys

/-- `dispatch`, for a message of type `value`: the listeners, and what they are given. -/
def dispatch (client : LiveClient) (message : ValueMessage) : List (Listener × LiveSample) :=
  if !message.isJson || message.point = "" then []
  else (client.listeners.get message.point).map fun listener ↦
    (listener, ⟨message.point, message.ts, message.value, message.status⟩)

end LiveClient

/-! ## The widgets -/

/-- `PUSHED`. -/
def pushed : List String := ["value", "gauge", "indicator", "switch", "setpoint", "shape"]

/-- The text of a point: a string that is not empty. -/
def pointText : Json → Option String
  | .str s => if s = "" then none else some s
  | _ => none

namespace WidgetDef

/-- `boundPoints`. -/
def boundPoints (w : WidgetDef) : List String :=
  (pointText (w.bind.get "point")).toList ++
    match w.bind.get "points" with
    | .arr items => items.filterMap fun entry ↦ pointText (entryPoint entry)
    | _ => []

/-- The points of a curve, where `normalizeConfig` takes them. -/
def trendPoints (w : WidgetDef) : Option (List String) :=
  match w.bind.get "points" with
  | .arr items =>
    if items.isEmpty || 8 < items.length then none
    else (items.mapM fun entry ↦ pointText (entryPoint entry)).filter fun points ↦ points.Nodup
  | _ => none

/-- A property that is missing or one of some texts. -/
def isOneOf (w : WidgetDef) (key : String) (values : List String) : Bool :=
  match w.extra.get key with
  | .null => true
  | .str value => value ∈ values
  | _ => false

/-- A bound of the vertical axis of a curve; `none` where it is no number. -/
def axisBound (w : WidgetDef) (key : String) : Option (Option PyFloat) :=
  match w.extra.get key with
  | .null | .str "" => some none
  | .int n => if (PyFloat.round n).isFinite then some (some (.round n)) else none
  | .float x => if x.isFinite then some (some x) else none
  | _ => none

/-- The bounds of the vertical axis are numbers, in order. -/
def isAxis (w : WidgetDef) : Bool :=
  match w.axisBound "yMin", w.axisBound "yMax" with
  | some (some yMin), some (some yMax) => !yMax.le yMin
  | some _, some _ => true
  | _, _ => false

/-- `normalizeConfig`: the points of a curve, or `none` where its configuration is refused. A
missing theme is given by the viewer. -/
def trendConfig (w : WidgetDef) : Option (List String) :=
  w.trendPoints.filter fun _ ↦
    w.isOneOf "range" ["15m", "1h", "6h", "24h", "7d", "30d"] &&
      w.isOneOf "theme" ["auto", "light", "dark"] && w.isAxis

/-- A curve is live unless it says otherwise. -/
def isLive (w : WidgetDef) : Bool :=
  match w.extra.get "live" with
  | .bool false => false
  | _ => true

end WidgetDef

/-- The viewer at work: its client, and the widgets of each point. -/
structure Viewer where
  client : LiveClient
  widgetsByPoint : Groups String String

namespace Viewer

/-- A curve subscribes to its points, if it is live. -/
def mountTrend (client : LiveClient) (w : WidgetDef) : LiveClient :=
  match w.trendConfig with
  | some points => if w.isLive then client.subscribe points (.trend w.id) else client
  | none => client

/-- A widget is shown. -/
def mountWidget (viewer : Viewer) (w : WidgetDef) : Viewer where
  client := if w.type = "trend" then mountTrend viewer.client w else viewer.client
  widgetsByPoint :=
    if w.type ∈ pushed then
      w.boundPoints.foldl (fun m point ↦ m.update point (· ++ [w.id])) viewer.widgetsByPoint
    else viewer.widgetsByPoint

/-- `dispatch` of the viewer: the widgets that are given the sample. -/
def dispatch (viewer : Viewer) (sample : LiveSample) : List (String × LiveSample) :=
  (viewer.widgetsByPoint.get sample.point).map fun id ↦ (id, sample)

/-- What a message leads the viewer to push to its widgets. -/
def receive (viewer : Viewer) (message : ValueMessage) : List (String × LiveSample) :=
  (viewer.client.dispatch message).flatMap fun (listener, sample) ↦
    match listener with
    | .viewer => viewer.dispatch sample
    | .trend _ => []

end Viewer

/-- `mountViewer`. -/
def mountViewer (client : LiveClient) (doc : Document) : Viewer :=
  let viewer := doc.widgets.foldl Viewer.mountWidget ⟨client, []⟩
  match viewer.widgetsByPoint.keys with
  | [] => viewer
  | points => { viewer with client := viewer.client.subscribe points .viewer }

end Superviseur
