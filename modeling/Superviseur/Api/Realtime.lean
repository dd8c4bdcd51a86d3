import Superviseur.Collector.Recorder
import Superviseur.Library.UuidText

/-!
# A real-time connection

A client asks for points over a WebSocket. The server subscribes to their channels on Redis, reads
their rows of `point_latest` and sends them; `_pump` relays the messages of the channels meanwhile.
Requests are served one after the other, concurrently with `_pump`; each of the two sends its
messages one at a time.

The steps are the stretches between two waits. Redis takes the commands of the connection into
account in order, after they were sent, and gives it the messages of the channels it is subscribed
to in the order of their publication. Only value messages are kept: those of the alarms go through
the same queue, and replies to invalid requests are sent apart.
-/

namespace Superviseur

/-- `MAX_SUBSCRIPTIONS`. -/
def maxSubscriptions : ℕ := 500

/-- The first part of `_subscribe`: the points to add to those of the connection, or the text of the
error that is sent. -/
def newPoints (points : List Uuid) (rawIds : List String) : Except String (List Uuid) :=
  match rawIds.mapM UuidText.read with
  | none => .error "identifiant de point invalide"
  | some wanted =>
    let new := wanted.dedup.filter fun id ↦ id ∉ points
    if maxSubscriptions < points.length + new.length then
      .error ("limite de " ++ toString maxSubscriptions ++ " points par connexion")
    else .ok new

/-- The first part of `_unsubscribe`: the points to remove. -/
def oldPoints (points : List Uuid) (rawIds : List String) : Except String (List Uuid) :=
  match rawIds.mapM UuidText.read with
  | none => .error "identifiant de point invalide"
  | some wanted => .ok (wanted.dedup.filter fun id ↦ id ∈ points)

/-- A command of the connection to Redis. -/
inductive Command where
  | subscribe (ids : List Uuid)
  | unsubscribe (ids : List Uuid)
  deriving DecidableEq

/-- The channels, once Redis has taken a command into account. -/
def Command.apply : Command → List Uuid → List Uuid
  | subscribe ids, channels => channels ++ ids
  | unsubscribe ids, channels => channels.filter fun id ↦ id ∉ ids

/-- What the connection does for the request it serves. -/
inductive Serving where
  | idle
  /-- `pubsub.subscribe`. -/
  | subscribing (new : List Uuid)
  /-- The rows of `point_latest` are read. -/
  | reading (new : List Uuid)
  /-- The rows that are left are sent. -/
  | sending (rows : List Reading)
  /-- `pubsub.unsubscribe`. -/
  | unsubscribing (wanted : List Uuid)
  deriving DecidableEq

/-- A connection, and the collector. -/
structure Realtime where
  recorder : Recorder
  /-- `conn.points`. -/
  points : List Uuid
  serving : Serving
  /-- Commands that Redis has not taken into account yet. -/
  commands : List Command
  /-- The channels the connection is subscribed to, on Redis. -/
  channels : List Uuid
  /-- Messages given by Redis that `_pump` has not taken. -/
  queue : List Reading
  /-- The message `_pump` sends. -/
  relaying : Option Reading
  /-- The value messages sent to the client, in order. -/
  sent : List Reading

namespace Realtime

inductive Event where
  /-- A step of the collector. -/
  | collector (event : Recorder.Event)
  /-- The client asks for points. -/
  | subscribe (rawIds : List String)
  /-- The client gives points up. -/
  | unsubscribe (rawIds : List String)
  /-- Redis takes a command into account. -/
  | redis
  /-- `pubsub.subscribe` or `pubsub.unsubscribe` returns. -/
  | resume
  /-- The rows are read. -/
  | read
  /-- A row is sent. -/
  | send (position : ℕ)
  /-- The request is served. -/
  | served
  /-- `_pump` takes a message. -/
  | take
  /-- `_pump` has sent its message. -/
  | relay

variable (batchRows : ℕ)

/-- The row of `point_latest` for a point, which carries its identifier. -/
def row (s : Realtime) (id : Uuid) : Option Reading :=
  (s.recorder.pointLatest id).map fun row ↦ { row with pointId := id }

/-- The reading that Redis receives in a step of the collector. -/
def publication (r : Recorder) : Recorder.Event → Option Reading
  | .publish i true => r.publishing[i]?
  | _ => none

/-- What Redis gives the connection in a step of the collector. -/
def delivered (s : Realtime) (event : Recorder.Event) : List Reading :=
  match publication s.recorder event with
  | some reading => if reading.pointId ∈ s.channels then [reading] else []
  | none => []

/-- One step, where it is possible. -/
def next (s : Realtime) : Event → Option Realtime
  | .collector event => (s.recorder.next batchRows event).map fun recorder ↦ { s with
      recorder := recorder
      queue := s.queue ++ s.delivered event }
  | .subscribe rawIds => match s.serving, newPoints s.points rawIds with
    | .idle, .error _ => some s
    | .idle, .ok [] => some s
    | .idle, .ok new => some { s with
        serving := .subscribing new
        commands := s.commands ++ [.subscribe new] }
    | _, _ => none
  | .unsubscribe rawIds => match s.serving, oldPoints s.points rawIds with
    | .idle, .error _ => some s
    | .idle, .ok [] => some s
    | .idle, .ok wanted => some { s with
        serving := .unsubscribing wanted
        commands := s.commands ++ [.unsubscribe wanted] }
    | _, _ => none
  | .redis => match s.commands with
    | [] => none
    | command :: commands => some { s with
        commands := commands
        channels := command.apply s.channels }
  | .resume => match s.serving with
    | .subscribing new => some { s with serving := .reading new, points := s.points ++ new }
    | .unsubscribing wanted => some { s with
        serving := .idle
        points := s.points.filter fun id ↦ id ∉ wanted }
    | _ => none
  | .read => match s.serving with
    | .reading new => some { s with serving := .sending (new.filterMap s.row) }
    | _ => none
  | .send i => match s.serving with
    | .sending rows => (rows[i]?).map fun row ↦ { s with
        serving := .sending (rows.eraseIdx i)
        sent := s.sent ++ [row] }
    | _ => none
  | .served => match s.serving with
    | .sending [] => some { s with serving := .idle }
    | _ => none
  | .take => match s.relaying, s.queue with
    | none, message :: queue => some { s with relaying := some message, queue := queue }
    | _, _ => none
  | .relay => match s.relaying with
    | some message => some { s with relaying := none, sent := s.sent ++ [message] }
    | none => none

/-- What a step does, with what it finds. -/
inductive Step (batchRows : ℕ) (s : Realtime) : Event → Realtime → Prop
  | collector {event : Recorder.Event} {recorder : Recorder}
      (hnext : s.recorder.next batchRows event = some recorder) :
      Step batchRows s (.collector event) { s with
        recorder := recorder
        queue := s.queue ++ s.delivered event }
  | refuseSubscribe {rawIds : List String} {error : String} (hserving : s.serving = .idle)
      (hnew : newPoints s.points rawIds = .error error) : Step batchRows s (.subscribe rawIds) s
  | noneToAdd {rawIds : List String} (hserving : s.serving = .idle)
      (hnew : newPoints s.points rawIds = .ok []) : Step batchRows s (.subscribe rawIds) s
  | subscribe {rawIds : List String} {new : List Uuid} (hserving : s.serving = .idle)
      (hnew : newPoints s.points rawIds = .ok new) :
      Step batchRows s (.subscribe rawIds) { s with
        serving := .subscribing new
        commands := s.commands ++ [.subscribe new] }
  | refuseUnsubscribe {rawIds : List String} {error : String} (hserving : s.serving = .idle)
      (hold : oldPoints s.points rawIds = .error error) : Step batchRows s (.unsubscribe rawIds) s
  | noneToRemove {rawIds : List String} (hserving : s.serving = .idle)
      (hold : oldPoints s.points rawIds = .ok []) : Step batchRows s (.unsubscribe rawIds) s
  | unsubscribe {rawIds : List String} {wanted : List Uuid} (hserving : s.serving = .idle)
      (hold : oldPoints s.points rawIds = .ok wanted) :
      Step batchRows s (.unsubscribe rawIds) { s with
        serving := .unsubscribing wanted
        commands := s.commands ++ [.unsubscribe wanted] }
  | redis {command : Command} {commands : List Command}
      (hcommands : s.commands = command :: commands) :
      Step batchRows s .redis { s with
        commands := commands
        channels := command.apply s.channels }
  | subscribed {new : List Uuid} (hserving : s.serving = .subscribing new) :
      Step batchRows s .resume { s with serving := .reading new, points := s.points ++ new }
  | unsubscribed {wanted : List Uuid} (hserving : s.serving = .unsubscribing wanted) :
      Step batchRows s .resume { s with
        serving := .idle
        points := s.points.filter fun id ↦ id ∉ wanted }
  | read {new : List Uuid} (hserving : s.serving = .reading new) :
      Step batchRows s .read { s with serving := .sending (new.filterMap s.row) }
  | send {rows : List Reading} {i : ℕ} {row : Reading} (hserving : s.serving = .sending rows)
      (hrow : rows[i]? = some row) :
      Step batchRows s (.send i) { s with
        serving := .sending (rows.eraseIdx i)
        sent := s.sent ++ [row] }
  | served (hserving : s.serving = .sending []) :
      Step batchRows s .served { s with serving := .idle }
  | take {message : Reading} {queue : List Reading} (hrelaying : s.relaying = none)
      (hqueue : s.queue = message :: queue) :
      Step batchRows s .take { s with relaying := some message, queue := queue }
  | relay {message : Reading} (hrelaying : s.relaying = some message) :
      Step batchRows s .relay { s with relaying := none, sent := s.sent ++ [message] }

variable {batchRows} in
theorem step_of_next {s t : Realtime} {e : Event} (h : next batchRows s e = some t) :
    Step batchRows s e t := by
  cases e with
  | collector event =>
    obtain ⟨recorder, hnext, rfl⟩ := Option.map_eq_some_iff.mp h
    exact .collector hnext
  | subscribe rawIds =>
    simp only [next] at h
    split at h
    · rename_i hserving hnew
      exact Option.some.inj h ▸ .refuseSubscribe hserving hnew
    · rename_i hserving hnew
      exact Option.some.inj h ▸ .noneToAdd hserving hnew
    · rename_i hserving hnew
      exact Option.some.inj h ▸ .subscribe hserving hnew
    · nomatch h
  | unsubscribe rawIds =>
    simp only [next] at h
    split at h
    · rename_i hserving hold
      exact Option.some.inj h ▸ .refuseUnsubscribe hserving hold
    · rename_i hserving hold
      exact Option.some.inj h ▸ .noneToRemove hserving hold
    · rename_i hserving hold
      exact Option.some.inj h ▸ .unsubscribe hserving hold
    · nomatch h
  | redis =>
    simp only [next] at h
    split at h
    · nomatch h
    · rename_i hcommands
      exact Option.some.inj h ▸ .redis hcommands
  | resume =>
    simp only [next] at h
    split at h
    · rename_i hserving
      exact Option.some.inj h ▸ .subscribed hserving
    · rename_i hserving
      exact Option.some.inj h ▸ .unsubscribed hserving
    · nomatch h
  | read =>
    simp only [next] at h
    split at h
    · rename_i hserving
      exact Option.some.inj h ▸ .read hserving
    · nomatch h
  | send i =>
    simp only [next] at h
    split at h
    · rename_i hserving
      obtain ⟨row, hrow, rfl⟩ := Option.map_eq_some_iff.mp h
      exact .send hserving hrow
    · nomatch h
  | served =>
    simp only [next] at h
    split at h
    · rename_i hserving
      exact Option.some.inj h ▸ .served hserving
    · nomatch h
  | take =>
    simp only [next] at h
    split at h
    · rename_i hrelaying hqueue
      exact Option.some.inj h ▸ .take hrelaying hqueue
    · nomatch h
  | relay =>
    simp only [next] at h
    split at h
    · rename_i hrelaying
      exact Option.some.inj h ▸ .relay hrelaying
    · nomatch h

/-- A connection that is accepted, the collector being in some state. -/
def accept (recorder : Recorder) : Realtime where
  recorder := recorder
  points := []
  serving := .idle
  commands := []
  channels := []
  queue := []
  relaying := none
  sent := []

/-- A run, its steps meeting `C`. -/
abbrev Run (C : Realtime → Event → Prop) : Realtime → List Event → Realtime → Prop :=
  Trace.Path (Trace.Stepping (next batchRows) C)

end Realtime

end Superviseur
