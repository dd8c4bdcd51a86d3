import Superviseur.Front.Viewer
import Superviseur.Library.OrderedDict
import Superviseur.Library.PyFloat

/-!
# The shared connection

`LiveClient` of the page in full: one socket for all the widgets, the listeners of each point, those
of the alarms and those of the state, the retries with a growing delay, and the renewal of the
session where the server closes with 4401.

The client is taken with what it acts on: the sockets it has created, those of them that are still
in use, the timers that are armed, the renewals in progress, what was sent on each socket and which
listeners were called. Calls, events of any socket, answers of `refresh` and timers come in any
order. A listener only listens; the functions of the page are the elements of `F`, and the alarms
those of `E`.
-/

namespace Superviseur

/-- The options of the client; `refresh` may be missing. -/
structure LiveOptions where
  refresh : Bool
  minDelayMs : ℚ := 1000
  maxDelayMs : ℚ := 30000

/-- The transition of an alarm, as the server tells it. -/
structure LiveAlarmEvent (E : Type) where
  transition : String
  event : Option E

/-- A message of the server, once decoded. -/
structure LiveMessage (E : Type) where
  type : Option String := none
  point : Option String := none
  ts : Option String := none
  value : Option PyFloat := none
  status : Option String := none
  event : Option (LiveAlarmEvent E) := none

/-- Readers of texts. -/
structure LiveTexts (E : Type) where
  /-- `JSON.parse`; `none` where it throws, or gives `null`, which has no members. -/
  parse : String → Option (LiveMessage E)
  /-- `Date.parse(ts) / 1000`. -/
  seconds : String → PyFloat

/-- What a listener of a point is given. -/
structure PointSample where
  point : String
  ts : PyFloat
  value : Option PyFloat
  status : String

/-- A listener is called. -/
inductive LiveCall (F E : Type)
  | state (listener : F) (state : LiveState)
  | sample (listener : F) (sample : PointSample)
  | alarm (listener : F) (event : LiveAlarmEvent E)

inductive SendAction
  | subscribe
  | unsubscribe
  deriving DecidableEq

/-- A message of the client. -/
structure SentMessage where
  action : SendAction
  points : List String

structure RetryTimer where
  id : ℕ
  delayMs : ℚ
  deriving DecidableEq

/-- The client, and what it acts on. -/
structure LiveConnection (F E : Type) where
  /-- Sockets are numbered as they are created. -/
  socket : Option ℕ := none
  current : LiveState := .closed
  listeners : OrderedDict String (List F) := .empty
  alarmListeners : List F := []
  stateListeners : List F := []
  attempts : ℕ := 0
  /-- The timer that it cancels. -/
  cancelRetry : Option ℕ := none
  reconnecting : Bool := false
  /-- How many sockets were created. -/
  created : ℕ := 0
  /-- The sockets that the client has not closed and that no event has told closed. -/
  alive : List ℕ := []
  /-- How many timers were armed. -/
  armed : ℕ := 0
  /-- The timers that are neither cancelled nor fired. -/
  timers : List RetryTimer := []
  /-- The calls of `refresh` that are in progress. -/
  refreshes : ℕ := 0
  /-- The messages sent, each on its socket. -/
  sent : List (ℕ × SentMessage) := []
  calls : List (LiveCall F E) := []

namespace LiveConnection

variable {F E : Type} [DecidableEq F] (options : LiveOptions) (texts : LiveTexts E)
  (c : LiveConnection F E)

/-- `CLOSE_UNAUTHORIZED`. -/
def closeUnauthorized : ℕ := 4401

/-- `Set.add`. -/
def join (listener : F) (group : List F) : List F :=
  if listener ∈ group then group else group ++ [listener]

/-- `Set.delete`. -/
def leave (listener : F) (group : List F) : List F := group.filter (· ≠ listener)

/-- `wanted`. -/
def wanted : Bool := !c.listeners.entries.isEmpty || !c.alarmListeners.isEmpty

def setState (state : LiveState) : LiveConnection F E :=
  if state = c.current then c
  else { c with current := state, calls := c.calls ++ c.stateListeners.map (.state · state) }

/-- `send`, in slices; nothing is sent without a socket. -/
def send (action : SendAction) (points : List String) : LiveConnection F E :=
  { c with
    sent := c.sent ++ c.socket.toList.flatMap fun socket ↦
      (slices subscribeChunk [] points).map fun chunk ↦ (socket, ⟨action, chunk⟩) }

def connect : LiveConnection F E :=
  let c := { c with cancelRetry := none, reconnecting := false }.setState .connecting
  { c with socket := some c.created, created := c.created + 1, alive := c.alive ++ [c.created] }

/-- What follows `this.attempts += 1`, the delay being drawn from what `random` gives. -/
def retry (random : ℚ) : LiveConnection F E :=
  let delay := min options.maxDelayMs (options.minDelayMs * 2 ^ c.attempts) *
    (1 / 2 + random * (1 / 2))
  { c with
    attempts := c.attempts + 1
    reconnecting := false
    cancelRetry := some c.armed
    armed := c.armed + 1
    timers := c.timers ++ [⟨c.armed, delay⟩] }

/-- `reconnect`, until it waits for `refresh`. -/
def reconnect (code : ℕ) (random : ℚ) : LiveConnection F E :=
  let c := { c with reconnecting := true }
  if code = closeUnauthorized ∧ options.refresh then { c with refreshes := c.refreshes + 1 }
  else c.retry options random

/-- `reconnect`, resumed: `refresh` has given `true` or `false`, or has thrown. -/
def resume (outcome : Option Bool) (random : ℚ) : LiveConnection F E :=
  if outcome.getD false && c.wanted then c.connect else c.retry options random

/-- The callback of the timer. -/
def retries : LiveConnection F E := if c.wanted then c.connect else { c with cancelRetry := none }

def disconnect : LiveConnection F E :=
  let c := { c with
    timers := c.timers.filter fun timer ↦ some timer.id ≠ c.cancelRetry
    cancelRetry := none
    socket := none
    alive := c.alive.filter fun socket ↦ some socket ≠ c.socket }
  c.setState .closed

/-- `connect`, unless there is a socket or one is to come. -/
def connectOnce : LiveConnection F E :=
  if c.socket = none ∧ c.cancelRetry = none ∧ c.reconnecting = false then c.connect else c

def subscribeAlarms (listener : F) : LiveConnection F E :=
  { c with alarmListeners := join listener c.alarmListeners }.connectOnce

/-- What `subscribeAlarms` returns. -/
def unsubscribeAlarms (listener : F) : LiveConnection F E :=
  let c := { c with alarmListeners := leave listener c.alarmListeners }
  if c.wanted then c else c.disconnect

/-- One point of `subscribe`: its group, and `added` if it had none. -/
def listen (listener : F) (acc : OrderedDict String (List F) × List String) (point : String) :
    OrderedDict String (List F) × List String :=
  match acc.1.get? point with
  | none => (acc.1.insert point [listener], acc.2 ++ [point])
  | some group => (acc.1.insert point (join listener group), acc.2)

def subscribe (points : List String) (listener : F) : LiveConnection F E :=
  let (listeners, added) := points.foldl (listen listener) (c.listeners, [])
  let c := { c with listeners := listeners }
  if c.socket = none ∧ c.cancelRetry = none ∧ c.reconnecting = false then c.connect
  else if c.current = .open then c.send .subscribe added
  else c

/-- One point of what `subscribe` returns: `removed` has the points whose group is empty. -/
def unlisten (listener : F) (acc : OrderedDict String (List F) × List String) (point : String) :
    OrderedDict String (List F) × List String :=
  match acc.1.get? point with
  | none => acc
  | some group =>
    if listener ∉ group then acc
    else if (leave listener group).isEmpty then (acc.1.erase point, acc.2 ++ [point])
    else (acc.1.insert point (leave listener group), acc.2)

/-- What `subscribe` returns. -/
def unsubscribe (points : List String) (listener : F) : LiveConnection F E :=
  let (listeners, removed) := points.foldl (unlisten listener) (c.listeners, [])
  let c := { c with listeners := listeners }
  let c := if c.current = .open then c.send .unsubscribe removed else c
  if c.wanted then c else c.disconnect

/-- `dispatch`. -/
def dispatch (data : Option String) : LiveConnection F E :=
  match data.bind texts.parse with
  | none => c
  | some message =>
    match message.type, message.event with
    | some "alarm", some ⟨transition, some alarm⟩ =>
      { c with
        calls := c.calls ++ c.alarmListeners.map (.alarm · ⟨transition, some alarm⟩) }
    | some "value", _ =>
      let point := message.point.getD ""
      let ts := message.ts.getD ""
      if point = "" ∨ ts = "" then c
      else
        let sample := ⟨point, texts.seconds ts, message.value, message.status.getD "ok"⟩
        { c with
          calls := c.calls ++ ((c.listeners.get? point).getD []).map (.sample · sample) }
    | _, _ => c

/-- `socket.onopen`. -/
def onopen (socket : ℕ) : LiveConnection F E :=
  if c.socket ≠ some socket then c
  else
    let c := { c with attempts := 0 }.setState .open
    c.send .subscribe (c.listeners.entries.map Prod.fst)

/-- `socket.onmessage`. -/
def onmessage (socket : ℕ) (data : Option String) : LiveConnection F E :=
  if c.socket = some socket then c.dispatch texts data else c

/-- `socket.onclose`. -/
def onclose (socket code : ℕ) (random : ℚ) : LiveConnection F E :=
  let c := { c with alive := c.alive.filter (· ≠ socket) }
  if c.socket ≠ some socket then c
  else
    let c := { c with socket := none }.setState .closed
    if c.wanted then c.reconnect options code random else c

end LiveConnection

/-! ## Runs -/

/-- An event of a socket. -/
inductive SocketEvent
  | opens
  | receives (data : Option String)
  | closes (code : ℕ) (random : ℚ)

inductive LiveLabel (F : Type)
  | subscribe (points : List String) (listener : F)
  | unsubscribe (points : List String) (listener : F)
  | subscribeAlarms (listener : F)
  | unsubscribeAlarms (listener : F)
  | onState (listener : F)
  | offState (listener : F)
  | event (socket : ℕ) (event : SocketEvent)
  /-- A `refresh` in progress gives `true` or `false`, or throws. -/
  | refreshed (outcome : Option Bool) (random : ℚ)
  | fires (timer : RetryTimer)

namespace LiveConnection

variable {F E : Type} [DecidableEq F] (options : LiveOptions) (texts : LiveTexts E)
  (c : LiveConnection F E)

def handle (socket : ℕ) : SocketEvent → LiveConnection F E
  | .opens => c.onopen socket
  | .receives data => c.onmessage texts socket data
  | .closes code random => c.onclose options socket code random

/-- One step; a timer that is not armed does not fire, and `refresh` does not answer uncalled. -/
def step : LiveLabel F → LiveConnection F E
  | .subscribe points listener => c.subscribe points listener
  | .unsubscribe points listener => c.unsubscribe points listener
  | .subscribeAlarms listener => c.subscribeAlarms listener
  | .unsubscribeAlarms listener => c.unsubscribeAlarms listener
  | .onState listener => { c with stateListeners := join listener c.stateListeners }
  | .offState listener => { c with stateListeners := leave listener c.stateListeners }
  | .event socket event => c.handle options texts socket event
  | .refreshed outcome random =>
    if c.refreshes = 0 then c
    else { c with refreshes := c.refreshes - 1 }.resume options outcome random
  | .fires timer =>
    if timer ∈ c.timers then { c with timers := c.timers.filter (· ≠ timer) }.retries else c

/-- The client of a page, after some steps. -/
def run (labels : List (LiveLabel F)) : LiveConnection F E := labels.foldl (step options texts) {}

end LiveConnection

end Superviseur
