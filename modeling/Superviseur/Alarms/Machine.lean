import Superviseur.Common.Models
import Mathlib.Algebra.Order.Ring.Rat

/-!
# The state machine of one alarm

```text
normal --condition true--> pending --delay elapsed--> activeUnacked
pending --condition false before the delay--> normal
activeUnacked --acknowledged--> activeAcked --condition gone--> normal
activeUnacked --condition gone--> clearedUnacked --acknowledged--> normal
clearedUnacked --condition back--> activeUnacked
```

Time is given by the caller. `update` and `acknowledge` are translated from the source; everything
proved later about them goes through `Edge`, the part of the diagram that is written to the
database, and through the three facts about `update` at the end of the file: what it may persist,
which states it ends in, and when it stays silent.
-/

namespace Superviseur

inductive TransitionKind where
  /-- Internal: nothing is stored or notified. -/
  | pending
  | cancelled
  /-- Persistent: a row of `alarm_event` is written and a notification leaves. -/
  | raised
  | cleared
  | acked
  | normal
  deriving DecidableEq, Repr

def TransitionKind.value : TransitionKind → String
  | pending => "pending"
  | cancelled => "cancelled"
  | raised => "raised"
  | cleared => "cleared"
  | acked => "acked"
  | normal => "normal"

structure Transition where
  fromState : AlarmState
  toState : AlarmState
  kind : TransitionKind
  deriving DecidableEq, Repr

/-- `kind in PERSISTENT`. -/
def Transition.persistent (t : Transition) : Bool :=
  match t.kind with
  | .raised | .cleared | .acked | .normal => true
  | .pending | .cancelled => false

/-- One instance per rule. -/
structure AlarmMachine where
  delayS : ℚ
  state : AlarmState
  pendingSince : Option Instant
  deriving DecidableEq

namespace AlarmMachine

/-- The constructor: `pending` cannot be restored, after a restart the delay starts again. -/
def new (delayS : ℚ) (state : AlarmState) : AlarmMachine where
  delayS := delayS
  state := if state = .pending then .normal else state
  pendingSince := none

/-- The first half of `update`: a true condition takes `normal` to `pending`. -/
def enter (m : AlarmMachine) (condition : Bool) (now : Instant) :
    AlarmMachine × List Transition :=
  if m.state = .normal ∧ condition = true then
    ({ m with state := .pending, pendingSince := some now }, [⟨.normal, .pending, .pending⟩])
  else (m, [])

/-- Time spent in `pending`; a missing `pendingSince` counts as now. -/
def elapsed (m : AlarmMachine) (now : Instant) : ℚ := now - m.pendingSince.getD now

/-- The second half of `update`, from the state `enter` left. -/
def advance (m : AlarmMachine) (condition : Bool) (now : Instant) :
    AlarmMachine × List Transition :=
  match m.state, condition with
  | .pending, false =>
    ({ m with state := .normal, pendingSince := none }, [⟨.pending, .normal, .cancelled⟩])
  | .pending, true =>
    if m.delayS ≤ m.elapsed now then
      ({ m with state := .activeUnacked, pendingSince := none },
        [⟨.pending, .activeUnacked, .raised⟩])
    else (m, [])
  | .activeUnacked, false =>
    ({ m with state := .clearedUnacked }, [⟨.activeUnacked, .clearedUnacked, .cleared⟩])
  | .activeAcked, false => ({ m with state := .normal }, [⟨.activeAcked, .normal, .normal⟩])
  | .clearedUnacked, true =>
    ({ m with state := .activeUnacked }, [⟨.clearedUnacked, .activeUnacked, .raised⟩])
  | _, _ => (m, [])

/-- Applies the current condition at the instant `now`. -/
def update (m : AlarmMachine) (condition : Bool) (now : Instant) :
    AlarmMachine × List Transition :=
  let entered := m.enter condition now
  let advanced := entered.1.advance condition now
  (advanced.1, entered.2 ++ advanced.2)

/-- Acknowledgement by an operator; `none` where the state does not lend itself to it. -/
def acknowledge (m : AlarmMachine) : AlarmMachine × Option Transition :=
  match m.state with
  | .activeUnacked =>
    ({ m with state := .activeAcked }, some ⟨.activeUnacked, .activeAcked, .acked⟩)
  | .clearedUnacked => ({ m with state := .normal }, some ⟨.clearedUnacked, .normal, .acked⟩)
  | _ => (m, none)

end AlarmMachine

/-! ## The persistent part of the diagram -/

/-- The transitions of the diagram that are written to the database. -/
inductive Edge : AlarmState → TransitionKind → AlarmState → Prop
  | raised : Edge .pending .raised .activeUnacked
  | returned : Edge .clearedUnacked .raised .activeUnacked
  | cleared : Edge .activeUnacked .cleared .clearedUnacked
  | acked : Edge .activeUnacked .acked .activeAcked
  | closed : Edge .clearedUnacked .acked .normal
  | ended : Edge .activeAcked .normal .normal

/-- `t` is one of these transitions. -/
def Transition.IsEdge (t : Transition) : Prop := Edge t.fromState t.kind t.toState

theorem Edge.toState_ne_pending {s s' : AlarmState} {k : TransitionKind} (h : Edge s k s') :
    s' ≠ .pending := by
  cases h <;> decide

theorem Edge.ne {s s' : AlarmState} {k : TransitionKind} (h : Edge s k s') : s ≠ s' := by
  cases h <;> decide

theorem Edge.isOpen_toState {s s' : AlarmState} {k : TransitionKind} (h : Edge s k s')
    (hs : s' ≠ .normal) : s'.isOpen = true := by
  cases h <;> simp_all [AlarmState.isOpen]

/-- A transition out of a state without a stored row is the raising of the alarm. -/
theorem Edge.of_not_isOpen {s s' : AlarmState} {k : TransitionKind} (h : Edge s k s')
    (hs : s.isOpen = false) : s = .pending ∧ k = .raised ∧ s' = .activeUnacked := by
  cases h <;> simp_all [AlarmState.isOpen]

/-! ## What the machine does -/

namespace AlarmMachine

/-- States the machine is in while the condition of its rule holds. -/
def holds (s : AlarmState) : Bool :=
  match s with
  | .pending | .activeUnacked | .activeAcked => true
  | .normal | .clearedUnacked => false

/-- `update` persists nothing and keeps the stored state, or ends with one edge of the diagram,
leaving from the state the machine was in (`normal` passes through `pending`). -/
theorem update_cases (m : AlarmMachine) (condition : Bool) (now : Instant) :
    ((m.update condition now).2.filter Transition.persistent = [] ∧
        ((m.update condition now).1.state = m.state ∨
          m.state.isOpen = false ∧ (m.update condition now).1.state.isOpen = false)) ∨
      ∃ ts t, (m.update condition now).2 = ts ++ [t] ∧ ts.filter Transition.persistent = [] ∧
        t.IsEdge ∧ t.persistent = true ∧ (m.update condition now).1.state = t.toState ∧
        (t.fromState = m.state ∨ m.state = .normal ∧ t.fromState = .pending) := by
  obtain ⟨d, s, p⟩ := m
  cases s <;> cases condition
  case normal.true =>
    simp only [update, enter, advance]
    by_cases h : d ≤ elapsed ⟨d, .pending, some now⟩ now
    · right
      refine ⟨[⟨.normal, .pending, .pending⟩], ⟨.pending, .activeUnacked, .raised⟩, ?_⟩
      simp [h, Transition.persistent, Transition.IsEdge, Edge.raised]
    · left
      simp [h, Transition.persistent, AlarmState.isOpen]
  case pending.true =>
    simp only [update, enter, advance]
    by_cases h : d ≤ elapsed ⟨d, .pending, p⟩ now
    · right
      refine ⟨[], ⟨.pending, .activeUnacked, .raised⟩, ?_⟩
      simp [h, Transition.persistent, Transition.IsEdge, Edge.raised]
    · left
      simp [h]
  case activeUnacked.false =>
    right
    refine ⟨[], ⟨.activeUnacked, .clearedUnacked, .cleared⟩, ?_⟩
    simp [update, enter, advance, Transition.persistent, Transition.IsEdge, Edge.cleared]
  case activeAcked.false =>
    right
    refine ⟨[], ⟨.activeAcked, .normal, .normal⟩, ?_⟩
    simp [update, enter, advance, Transition.persistent, Transition.IsEdge, Edge.ended]
  case clearedUnacked.true =>
    right
    refine ⟨[], ⟨.clearedUnacked, .activeUnacked, .raised⟩, ?_⟩
    simp [update, enter, advance, Transition.persistent, Transition.IsEdge, Edge.returned]
  all_goals
    left
    simp [update, enter, advance, Transition.persistent, AlarmState.isOpen]

/-- After `update` the machine is in a state that says whether the condition holds. -/
theorem holds_update (m : AlarmMachine) (condition : Bool) (now : Instant) :
    holds (m.update condition now).1.state = condition := by
  obtain ⟨d, s, p⟩ := m
  cases s <;> cases condition
  case normal.true =>
    by_cases h : d ≤ elapsed ⟨d, .pending, some now⟩ now <;> simp [update, enter, advance, holds, h]
  case pending.true =>
    by_cases h : d ≤ elapsed ⟨d, .pending, p⟩ now <;> simp [update, enter, advance, holds, h]
  all_goals rfl

/-- `update` is idempotent: a condition the state already reflects produces no transition. -/
theorem update_of_holds {m : AlarmMachine} {condition : Bool} (h : holds m.state = condition)
    (hp : m.state ≠ .pending) (now : Instant) : m.update condition now = (m, []) := by
  obtain ⟨d, s, p⟩ := m
  cases s <;> cases condition <;> simp_all [update, enter, advance, holds]

@[simp] theorem delayS_update (m : AlarmMachine) (condition : Bool) (now : Instant) :
    (m.update condition now).1.delayS = m.delayS := by
  obtain ⟨d, s, p⟩ := m
  cases s <;> cases condition
  case normal.true =>
    by_cases h : d ≤ elapsed ⟨d, .pending, some now⟩ now <;> simp [update, enter, advance, h]
  case pending.true =>
    by_cases h : d ≤ elapsed ⟨d, .pending, p⟩ now <;> simp [update, enter, advance, h]
  all_goals rfl

/-- `acknowledge` does nothing, or follows the acknowledgement edge of its state. -/
theorem acknowledge_cases (m : AlarmMachine) :
    m.acknowledge = (m, none) ∨ ∃ t, m.acknowledge = ({ m with state := t.toState }, some t) ∧
      t.IsEdge ∧ t.kind = .acked ∧ t.fromState = m.state := by
  obtain ⟨d, s, p⟩ := m
  cases s
  case activeUnacked =>
    exact .inr ⟨⟨.activeUnacked, .activeAcked, .acked⟩, rfl, Edge.acked, rfl, rfl⟩
  case clearedUnacked =>
    exact .inr ⟨⟨.clearedUnacked, .normal, .acked⟩, rfl, Edge.closed, rfl, rfl⟩
  all_goals exact .inl rfl

@[simp] theorem state_new (delayS : ℚ) {state : AlarmState} (h : state ≠ .pending) :
    (new delayS state).state = state := if_neg h

end AlarmMachine

end Superviseur
