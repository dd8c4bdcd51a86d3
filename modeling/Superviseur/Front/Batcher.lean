import Mathlib.Algebra.Order.Field.Rat
import Mathlib.Order.WithBot
import Superviseur.Library.OrderedDict

/-!
# The batcher of the viewer

`UpdateBatcher` keeps the latest sample of each point of each widget, and delivers those of a widget
at most once in `minIntervalMs`, in a flush that a timer starts.

A flush goes through the widgets of a snapshot and calls `deliver` for each sample; the code between
two calls is one step, and while a call is in progress there may be pushes, the clock may move and
the batcher may be destroyed. The maps of samples are shared by `pending` and the snapshot, so they
are kept by reference: a push in a delivery reaches the flush in progress as long as the turn of the
widget has not come. A timer fires once, at any time, unless it is cancelled; it does not interrupt
a flush.
-/

namespace Superviseur

/-- The options, and the point of a sample. -/
structure BatcherOptions (S : Type) where
  point : S → String
  /-- `MIN_RENDER_INTERVAL_MS`, unless it is given. -/
  minIntervalMs : ℚ := 100

/-- A flush, while it delivers a sample. -/
structure Flush where
  /-- The clock, as the flush has read it. -/
  now : ℚ
  /-- The widget that it delivers to. -/
  widget : String
  /-- The map of the samples of the widget. -/
  samples : ℕ
  /-- How many of them have been delivered. -/
  next : ℕ
  /-- The widgets of the snapshot that come after, with their maps. -/
  rest : List (String × ℕ)

/-- A call of `deliver`. -/
structure Delivery (S : Type) where
  widget : String
  sample : S
  /-- The number of the flush, and the clock as the flush has read it. -/
  flush : ℕ
  now : ℚ
  /-- The clock at the call. -/
  clock : ℚ

/-- The batcher, and what it acts on. -/
structure UpdateBatcher (S : Type) where
  /-- The map of the samples of each widget. -/
  pending : OrderedDict String ℕ := .empty
  /-- What the maps have, by point. -/
  maps : ℕ → OrderedDict String S := fun _ ↦ .empty
  lastRender : OrderedDict String ℚ := .empty
  /-- The timer that it cancels. -/
  cancel : Option ℕ := none
  destroyed : Bool := false
  /-- How many maps were made. -/
  created : ℕ := 0
  clock : ℚ
  /-- How many timers were armed. -/
  armed : ℕ := 0
  /-- The timers that have neither fired nor been cancelled, with their delays. -/
  timers : List (ℕ × WithTop ℚ) := []
  /-- The flush in progress. -/
  flushing : Option Flush := none
  /-- How many flushes have begun. -/
  flushes : ℕ := 0
  /-- All the calls of `push`. -/
  pushed : List (String × S) := []
  delivered : List (Delivery S) := []

inductive BatcherLabel (S : Type)
  | push (widget : String) (sample : S)
  | destroy
  /-- The clock moves; it does not go back. -/
  | tick (now : ℚ)
  | fires (timer : ℕ)
  /-- The call of `deliver` returns. -/
  | returns

namespace UpdateBatcher

variable {S : Type} (options : BatcherOptions S) (b : UpdateBatcher S)

/-- How long a widget has to wait. -/
def wait (widget : String) : ℚ :=
  match b.lastRender.get? widget with
  | none => 0
  | some last => max 0 (last + options.minIntervalMs - b.clock)

def plan : UpdateBatcher S :=
  if b.cancel ≠ none ∨ b.pending.entries = [] then b
  else
    let wait := b.pending.entries.foldl (fun wait e ↦ min wait (b.wait options e.1 : WithTop ℚ)) ⊤
    { b with
      cancel := some b.armed
      armed := b.armed + 1
      timers := b.timers ++ [(b.armed, wait)] }

/-- The map of a widget, which is made if there is none. -/
def mapOf (widget : String) : UpdateBatcher S × ℕ :=
  match b.pending.get? widget with
  | some samples => (b, samples)
  | none =>
    ({ b with
      pending := b.pending.insert widget b.created
      maps := Function.update b.maps b.created .empty
      created := b.created + 1 }, b.created)

def push (widget : String) (sample : S) : UpdateBatcher S :=
  let b := { b with pushed := b.pushed ++ [(widget, sample)] }
  if b.destroyed then b
  else
    let (b, samples) := b.mapOf widget
    { b with
      maps := Function.update b.maps samples
        ((b.maps samples).insert (options.point sample) sample) }.plan options

/-- `deliver` is called. -/
def deliver (flush : Flush) (sample : S) : UpdateBatcher S :=
  { b with
    flushing := some flush
    delivered := b.delivered ++ [⟨flush.widget, sample, b.flushes, flush.now, b.clock⟩] }

/-- A widget has been rendered too recently. -/
def tooRecent (now : ℚ) (widget : String) : Bool :=
  match b.lastRender.get? widget with
  | none => false
  | some last => now - last < options.minIntervalMs

/-- The rest of the loop of `flush`, up to a call of `deliver` or to the end. -/
def renderFrom (now : ℚ) : UpdateBatcher S → List (String × ℕ) → UpdateBatcher S
  | b, [] => { b with flushing := none }.plan options
  | b, (widget, samples) :: rest =>
    if b.tooRecent options now widget then renderFrom now b rest
    else
      let b := { b with
        pending := b.pending.erase widget
        lastRender := b.lastRender.insert widget now }
      match (b.maps samples).entries with
      | [] => renderFrom now b rest
      | e :: _ => b.deliver ⟨now, widget, samples, 1, rest⟩ e.2

/-- The callback of the timer. -/
def flush : UpdateBatcher S :=
  let b := { b with cancel := none }
  if b.destroyed then b
  else renderFrom options b.clock { b with flushes := b.flushes + 1 } b.pending.entries

/-- `flush`, resumed: the next sample of the widget, or the next widget. -/
def resume (flush : Flush) : UpdateBatcher S :=
  match (b.maps flush.samples).entries[flush.next]? with
  | some e => b.deliver { flush with next := flush.next + 1 } e.2
  | none => renderFrom options flush.now b flush.rest

def destroy : UpdateBatcher S :=
  { b with
    destroyed := true
    timers := b.timers.filter fun timer ↦ some timer.1 ≠ b.cancel
    cancel := none
    pending := .empty }

/-- One step; a timer that is not armed does not fire, and no call returns that was not made. -/
def step : BatcherLabel S → UpdateBatcher S
  | .push widget sample => b.push options widget sample
  | .destroy => b.destroy
  | .tick now => { b with clock := max b.clock now }
  | .fires timer =>
    if b.flushing.isNone ∧ timer ∈ b.timers.map Prod.fst then
      { b with timers := b.timers.filter fun t ↦ t.1 ≠ timer }.flush options
    else b
  | .returns =>
    match b.flushing with
    | some flush => b.resume options flush
    | none => b

/-- The batcher after some steps. -/
def run (labels : List (BatcherLabel S)) : UpdateBatcher S := labels.foldl (step options) b

end UpdateBatcher

end Superviseur
