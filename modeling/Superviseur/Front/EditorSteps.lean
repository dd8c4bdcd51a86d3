import Superviseur.Front.EditorHistory
import Superviseur.Library.LinearHistory
import Superviseur.Library.Trace

/-!
# Undo and redo, step by step

What the editor undoes is a step: a run of modifications of one key, each soon after the last; a
gesture that has changed the document; or any other modification. Here the steps are read off what
has happened, as maximal runs of events, and make a linear history of documents.

The stacks of snapshots refine it (`Refines.run`), whatever is modified, with whatever keys and at
whatever times, so that `undo` and `redo` go back and forth along the steps (`undo_redo_steps`).
-/

namespace Superviseur.Editor

/-- A call of the editor, on its history. -/
inductive Call (D : Type) where
  | mutate (change : D → D) (coalesce : Option String) (clock : Clock)
  | begin_
  | end_
  | undo
  | redo

/-- What has happened, outside gestures or as a whole gesture. -/
inductive Happening (D : Type) where
  /-- A modification that has changed the document to `after`. -/
  | edit (coalesce : Option String) (clock : Clock) (after : D)
  /-- A gesture that has led from `before` to `after`; whether something in it had an effect. -/
  | gesture (before after : D) (touched : Bool)
  | undo
  | redo
  deriving DecidableEq

namespace Happening

variable {D : Type}

/-- Two modifications of one key, the second less than `COALESCE_MS` after the first. -/
def joins : Happening D → Happening D → Bool
  | edit first before _, edit second now _ =>
    keyOf first == keyOf second && (keyOf second).isSome
      && now.asked - before.recorded < coalesceMs
  | _, _ => false

variable [DecidableEq D]

/-- What the first of a run does to the line of documents. -/
def begins (h : LinearHistory D historyLimit) : Happening D → LinearHistory D historyLimit
  | edit _ _ after => h.commit after
  | gesture before after touched =>
    if after ≠ before then h.commit after else if touched then h.forget else h
  | undo => h.undo
  | redo => h.redo

/-- What the others do: the step goes on. -/
def goesOn (h : LinearHistory D historyLimit) : Happening D → LinearHistory D historyLimit
  | edit _ _ after => h.amend after
  | gesture _ _ _ | undo | redo => h

def occur (h : LinearHistory D historyLimit) : List (Happening D) → LinearHistory D historyLimit
  | [] => h
  | first :: rest => rest.foldl goesOn (begins h first)

/-- The line of documents, from the steps of what has happened. -/
def line (doc : D) (events : List (Happening D)) : LinearHistory D historyLimit :=
  (events.splitBy joins).foldl occur (.init historyLimit doc)

end Happening

/-- A session, as the user sees it. -/
structure Session (D : Type) where
  initial : D
  doc : D
  /-- What has happened, in order. -/
  events : List (Happening D)
  /-- The gesture that is under way: the document at its beginning, and whether something has had an
  effect since. -/
  gesture : Option (D × Bool)

namespace Session

variable {D : Type} [DecidableEq D]

def new (doc : D) : Session D := ⟨doc, doc, [], none⟩

def line (s : Session D) : LinearHistory D historyLimit := Happening.line s.initial s.events

/-- Something has happened that leaves the document of the line. -/
def happened (s : Session D) (event : Happening D) : Session D :=
  let s := { s with events := s.events ++ [event] }
  { s with doc := s.line.present }

def step (s : Session D) : Call D → Session D
  | .mutate change coalesce clock =>
    if change s.doc = s.doc then s
    else
      match s.gesture with
      | some (before, _) => { s with doc := change s.doc, gesture := some (before, true) }
      | none => s.happened (.edit coalesce clock (change s.doc))
  | .begin_ =>
    match s.gesture with
    | some _ => s
    | none => { s with gesture := some (s.doc, false) }
  | .end_ =>
    match s.gesture with
    | none => s
    | some (before, touched) =>
      { s with gesture := none }.happened (.gesture before s.doc touched)
  | .undo => if s.line.past = [] then s else s.happened .undo
  | .redo => if s.line.future = [] then s else s.happened .redo

end Session

/-! ## The line, event by event -/

namespace Happening

variable {D : Type} {doc : D} {events : List (Happening D)} {e : Happening D}

theorem not_joins_of_ne_edit (he : ∀ coalesce clock after, e ≠ edit coalesce clock after)
    (x : Happening D) : joins x e = false := by
  cases x with
  | edit coalesce clock after =>
    cases e with
    | edit coalesce clock after => exact absurd rfl (he coalesce clock after)
    | gesture _ _ _ | undo | redo => rfl
  | gesture _ _ _ | undo | redo => rfl

variable [DecidableEq D]

theorem occur_concat {h : LinearHistory D historyLimit} {run : List (Happening D)} (hrun : run ≠ [])
    (e : Happening D) : occur h (run ++ [e]) = goesOn (occur h run) e := by
  obtain ⟨first, rest, rfl⟩ := List.exists_cons_of_ne_nil hrun
  rw [List.cons_append, occur, List.foldl_concat, occur]

/-- What does not go on with the last event begins a step, or undoes or redoes one. -/
theorem line_of_not_joins (h : ∀ x ∈ events.getLast?, joins x e = false) :
    line doc (events ++ [e]) = begins (line doc events) e := by
  rw [line, List.splitBy_append_cons [] h, List.foldl_append]
  rfl

theorem line_of_joins {x : Happening D} (hlast : events.getLast? = some x) (h : joins x e) :
    line doc (events ++ [e]) = goesOn (line doc events) e := by
  obtain ⟨runs, run, hsplit, hx, hsplit'⟩ := splitBy_concat hlast h
  have hrun : run ≠ [] := by
    rintro rfl
    simp at hx
  rw [line, hsplit', List.foldl_concat, line, hsplit, List.foldl_concat, occur_concat hrun]

theorem line_edit (coalesce : Option String) (clock : Clock) (after : D) :
    line doc (events ++ [edit coalesce clock after]) =
      if events.getLast?.any (joins · (edit coalesce clock after)) then
        (line doc events).amend after
      else (line doc events).commit after := by
  cases hlast : events.getLast? with
  | none => exact line_of_not_joins (by simp [hlast])
  | some x =>
    by_cases hjoins : joins x (edit coalesce clock after) = true
    · rw [line_of_joins hlast hjoins, Option.any_some, if_pos hjoins]
      rfl
    · rw [Option.any_some, if_neg hjoins]
      refine line_of_not_joins fun x' hx' ↦ ?_
      obtain rfl := Option.some.inj (hlast.symm.trans hx')
      exact Bool.not_eq_true _ ▸ hjoins

theorem line_of_ne_edit (he : ∀ coalesce clock after, e ≠ edit coalesce clock after) :
    line doc (events ++ [e]) = begins (line doc events) e :=
  line_of_not_joins fun x _ ↦ not_joins_of_ne_edit he x

/-- What the editor remembers of an event. -/
def lastCoalesce : Happening D → Option Coalesce
  | edit coalesce clock _ => (keyOf coalesce).map fun key ↦ ⟨key, clock.recorded⟩
  | gesture _ _ _ | undo | redo => none

end Happening

/-! ## The refinement -/

variable {D S : Type} [DecidableEq D] {json : JsonText D S}

/-- The stacks hold the line of documents; what could be redone is lost as soon as something has an
effect in a gesture. -/
structure Refines (json : JsonText D S) (h : History D S) (s : Session D) : Prop where
  doc : h.doc = s.doc
  gesture : h.gesture = s.gesture.map fun g ↦ json.stringify g.1
  undoStack : h.undoStack = s.line.past.map json.stringify
  redoStack : h.redoStack =
    if s.gesture.any Prod.snd then [] else s.line.future.map json.stringify
  lastCoalesce : h.lastCoalesce = s.events.getLast?.bind Happening.lastCoalesce
  /-- The line ends at the document, or where the gesture has begun. -/
  present : s.line.present = (s.gesture.map Prod.fst).getD s.doc
  /-- A gesture in which nothing has had an effect has not changed the document. -/
  untouched : ∀ before, s.gesture = some (before, false) → s.doc = before

namespace Refines

variable {h : History D S} {s : Session D}

theorem snapshot_eq (hr : Refines json h s) : h.snapshot json = json.stringify s.doc :=
  congrArg json.stringify hr.doc

theorem same_eq (hr : Refines json h s) (coalesce : Option String) (clock : Clock) (after : D) :
    h.same coalesce clock = s.events.getLast?.any (Happening.joins · (.edit coalesce clock after))
    := by
  rw [History.same, hr.lastCoalesce]
  cases s.events.getLast? with
  | none => cases keyOf coalesce <;> rfl
  | some x =>
    cases x with
    | gesture _ _ _ | undo | redo => cases keyOf coalesce <;> rfl
    | edit first before _ =>
      rw [Option.bind_some, Option.any_some, Happening.lastCoalesce, Happening.joins]
      cases keyOf coalesce with
      | none => cases keyOf first <;> rfl
      | some key =>
        cases keyOf first with
        | none => rfl
        | some key' => simp

theorem init (doc : D) : Refines json (.new json doc) (.new doc) :=
  ⟨rfl, rfl, rfl, rfl, rfl, rfl, by simp [Session.new]⟩

variable [DecidableEq S]

omit [DecidableEq S] in
/-- Something has happened outside gestures, and the stacks are those of the new line. -/
theorem happened {h' : History D S} (hgesture : s.gesture = none) {e : Happening D}
    {l : LinearHistory D historyLimit} (hline : Happening.line s.initial (s.events ++ [e]) = l)
    (hdoc : h'.doc = l.present) (hgesture' : h'.gesture = none)
    (hundo : h'.undoStack = l.past.map json.stringify)
    (hredo : h'.redoStack = l.future.map json.stringify)
    (hlast : h'.lastCoalesce = e.lastCoalesce) : Refines json h' (s.happened e) := by
  subst hline
  have hnone : (s.happened e).gesture = none := hgesture
  constructor
  case doc => exact hdoc
  case gesture => rw [hgesture', hnone, Option.map_none]
  case undoStack => exact hundo
  case redoStack =>
    rw [hnone, Option.any_none, if_neg Bool.false_ne_true]
    exact hredo
  case lastCoalesce =>
    change _ = (s.events ++ [e]).getLast?.bind _
    rw [List.getLast?_concat, Option.bind_some, hlast]
  case present =>
    rw [hnone]
    rfl
  case untouched => simp [hnone]

theorem mutate (hr : Refines json h s) (change : D → D) (coalesce : Option String)
    (clock : Clock) : Refines json (h.mutate json change coalesce clock)
      (s.step (.mutate change coalesce clock)) := by
  have hdoc := hr.doc
  by_cases heffect : change s.doc = s.doc
  · rw [History.mutate_of_eq (hdoc ▸ heffect), Session.step, if_pos heffect]
    exact hr
  have heffect' : change h.doc ≠ h.doc := hdoc ▸ heffect
  rw [Session.step, if_neg heffect]
  cases hgesture : s.gesture with
  | some g =>
    have hbefore : h.gesture = some (json.stringify g.1) := by rw [hr.gesture, hgesture]; rfl
    have hpresent := hr.present
    rw [hgesture] at hpresent
    rw [History.mutate_of_gesture heffect' hbefore]
    exact
      { hr with
        doc := congrArg change hdoc
        gesture := hbefore
        redoStack := rfl
        present := hpresent
        untouched := by simp }
  | none =>
    have hnone : h.gesture = none := by rw [hr.gesture, hgesture]; rfl
    have hpresent : s.line.present = s.doc := by rw [hr.present, hgesture]; rfl
    have hsame := hr.same_eq coalesce clock (change s.doc)
    rw [History.mutate_of_none heffect' hnone, hsame, hdoc]
    refine happened hgesture (Happening.line_edit coalesce clock (change s.doc)) ?_ ?_ ?_ ?_ rfl
    -- In each case the line either goes on with its last step or begins a new one.
    all_goals
      split
    · rfl
    · rfl
    · exact hnone
    · exact hnone
    · exact hr.undoStack
    · change List.take _ _ = List.map _ (List.take _ _)
      rw [hr.undoStack, List.map_take, List.map_cons, ← hpresent]
      rfl
    · rfl
    · rfl

omit [DecidableEq S] in
theorem begin_ (hr : Refines json h s) : Refines json (h.begin_ json) (s.step .begin_) := by
  rw [History.begin_, Session.step, hr.gesture]
  cases hgesture : s.gesture with
  | some g => exact hr
  | none =>
    have hredo := hr.redoStack
    have hpresent := hr.present
    rw [hgesture] at hredo hpresent
    exact
      { hr with
        gesture := congrArg some hr.snapshot_eq
        redoStack := hredo
        present := hpresent
        untouched := by simp }

theorem end_ (hr : Refines json h s) : Refines json (h.end_ json) (s.step .end_) := by
  rw [Session.step]
  cases hgesture : s.gesture with
  | none =>
    rw [History.end_, hr.gesture, hgesture]
    exact hr
  | some g =>
    obtain ⟨before, touched⟩ := g
    have hbefore : h.gesture = some (json.stringify before) := by rw [hr.gesture, hgesture]; rfl
    have hpresent : s.line.present = before := by rw [hr.present, hgesture]; rfl
    have hredo := hr.redoStack
    have huntouched := hr.untouched before
    rw [hgesture] at hredo huntouched
    have hline : Happening.line s.initial (s.events ++ [.gesture before s.doc touched])
        = Happening.begins s.line (.gesture before s.doc touched) :=
      Happening.line_of_ne_edit (by simp)
    have hsnapshot : h.snapshot json = json.stringify before ↔ s.doc = before := by
      rw [hr.snapshot_eq, json.stringify_inj]
    by_cases heffect : s.doc = before
    · -- Nothing is left of the gesture, but it may have emptied the redo stack.
      have hl : Happening.line s.initial (s.events ++ [.gesture before s.doc touched])
          = if touched then s.line.forget else s.line :=
        hline.trans (if_neg (not_not.mpr heffect))
      rw [History.end_of_eq hbefore (hsnapshot.mpr heffect)]
      refine happened (s := { s with gesture := none }) rfl hl ?_ rfl ?_ ?_ rfl
      · cases touched <;> exact hr.doc.trans (heffect.trans hpresent.symm)
      · cases touched <;> exact hr.undoStack
      · cases touched <;> exact hredo
    · have hl : Happening.line s.initial (s.events ++ [.gesture before s.doc touched])
          = s.line.commit s.doc :=
        hline.trans (if_pos heffect)
      rw [History.end_of_ne hbefore (mt hsnapshot.mp heffect)]
      refine happened (s := { s with gesture := none }) rfl hl hr.doc rfl ?_ ?_ rfl
      · change List.take _ _ = List.map _ (List.take _ _)
        rw [hr.undoStack, List.map_take, List.map_cons, hpresent]
      · cases touched with
        | false => exact absurd (huntouched rfl) heffect
        | true => exact hredo

omit [DecidableEq S] in
theorem undo (hr : Refines json h s) (hgesture : s.gesture = none) :
    Refines json (h.undo json) (s.step .undo) := by
  have hline : Happening.line s.initial (s.events ++ [.undo]) = s.line.undo :=
    Happening.line_of_ne_edit (by simp)
  have hredo := hr.redoStack
  have hpresent := hr.present
  rw [hgesture] at hredo hpresent
  rw [History.undo, Session.step, hr.undoStack]
  cases hpast : s.line.past with
  | nil => exact hr
  | cons d past =>
    obtain ⟨h1, h2, h3⟩ := LinearHistory.undo_eq hpast
    rw [if_neg (by simp)]
    refine happened hgesture hline ?_ ?_ ?_ ?_ rfl
    · rw [h2]
      exact json.parse_stringify d
    · exact hr.gesture.trans (by rw [hgesture]; rfl)
    · rw [h1]
      rfl
    · rw [h3, hpresent]
      change h.snapshot json :: h.redoStack = _
      rw [hredo, hr.snapshot_eq]
      rfl

omit [DecidableEq S] in
theorem redo (hr : Refines json h s) (hgesture : s.gesture = none) :
    Refines json (h.redo json) (s.step .redo) := by
  have hline : Happening.line s.initial (s.events ++ [.redo]) = s.line.redo :=
    Happening.line_of_ne_edit (by simp)
  have hredo := hr.redoStack
  have hpresent := hr.present
  rw [hgesture] at hredo hpresent
  rw [History.redo, Session.step, hredo, Option.any_none, if_neg Bool.false_ne_true]
  cases hfuture : s.line.future with
  | nil => exact hr
  | cons d future =>
    obtain ⟨h1, h2, h3⟩ := LinearHistory.redo_eq hfuture
    rw [if_neg (by simp)]
    refine happened hgesture hline ?_ ?_ ?_ ?_ rfl
    · rw [h2]
      exact json.parse_stringify d
    · exact hr.gesture.trans (by rw [hgesture]; rfl)
    · rw [h1, hpresent]
      change h.snapshot json :: h.undoStack = _
      rw [hr.undoStack, hr.snapshot_eq]
      rfl
    · rw [h3]
      rfl

end Refines

/-- The history of the editor, on a call. -/
def History.call [DecidableEq S] (json : JsonText D S) (h : History D S) : Call D → History D S
  | .mutate change coalesce clock => h.mutate json change coalesce clock
  | .begin_ => h.begin_ json
  | .end_ => h.end_ json
  | .undo => h.undo json
  | .redo => h.redo json

/-! ## Runs -/

namespace Call

/-- Whether a call is followed by calls within a gesture. -/
def inside (before : Bool) : Call D → Bool
  | begin_ => true
  | end_ => false
  | mutate _ _ _ | undo | redo => before

/-- Whether a call goes back or forth. -/
def travels : Call D → Bool
  | undo | redo => true
  | mutate _ _ _ | begin_ | end_ => false

end Call

/-- Whether `undo` and `redo` come only outside gestures; `inside` for what comes within one. -/
def WellNested (inside : Bool) : List (Call D) → Prop
  | [] => True
  | call :: calls => (call.travels → inside = false) ∧ WellNested (call.inside inside) calls

theorem Session.isSome_gesture_step (s : Session D) (call : Call D) :
    (s.step call).gesture.isSome = call.inside s.gesture.isSome := by
  cases call with
  | mutate change coalesce clock =>
    rw [step]
    split
    · rfl
    · split
      · rw [‹s.gesture = _›]
        rfl
      · rfl
  | begin_ =>
    rw [step]
    split
    · rw [‹s.gesture = _›]
      rfl
    · rfl
  | end_ =>
    rw [step]
    split
    · rw [‹s.gesture = _›]
      rfl
    · rfl
  | undo =>
    rw [step]
    split <;> rfl
  | redo =>
    rw [step]
    split <;> rfl

variable [DecidableEq S] {h : History D S} {s : Session D} {calls : List (Call D)}

namespace History

def run (json : JsonText D S) (h : History D S) (calls : List (Call D)) : History D S :=
  calls.foldl (call json) h

end History

def Session.run (s : Session D) (calls : List (Call D)) : Session D := calls.foldl Session.step s

namespace Refines

theorem call (hr : Refines json h s) (call : Call D)
    (hnone : call.travels → s.gesture = none) : Refines json (h.call json call) (s.step call) := by
  cases call with
  | mutate change coalesce clock => exact hr.mutate change coalesce clock
  | begin_ => exact hr.begin_
  | end_ => exact hr.end_
  | undo => exact hr.undo (hnone rfl)
  | redo => exact hr.redo (hnone rfl)

/-- **The stacks of snapshots refine the line of documents, whatever is called.** -/
theorem run (hr : Refines json h s) (hnested : WellNested s.gesture.isSome calls) :
    Refines json (h.run json calls) (s.run calls) := by
  induction calls generalizing h s with
  | nil => exact hr
  | cons call calls ih =>
    obtain ⟨htravels, hrest⟩ := hnested
    have hnone : call.travels → s.gesture = none := by
      intro h
      simpa using htravels h
    refine ih (hr.call call hnone) ?_
    rw [s.isSome_gesture_step]
    exact hrest

end Refines

/-! ## Back and forth -/

namespace Session

theorem undo_line (hgesture : s.gesture = none) :
    (s.step .undo).line = s.line.undo ∧ (s.step .undo).gesture = none := by
  rw [step]
  split
  · rw [LinearHistory.undo_of_nil ‹_›]
    exact ⟨rfl, hgesture⟩
  · exact ⟨Happening.line_of_ne_edit (by simp), hgesture⟩

theorem redo_line (hgesture : s.gesture = none) :
    (s.step .redo).line = s.line.redo ∧ (s.step .redo).gesture = none := by
  rw [step]
  split
  · rw [LinearHistory.redo_of_nil ‹_›]
    exact ⟨rfl, hgesture⟩
  · exact ⟨Happening.line_of_ne_edit (by simp), hgesture⟩

end Session

namespace Refines

omit [DecidableEq S] in
theorem undo_iterate (hr : Refines json h s) (hgesture : s.gesture = none) (k : ℕ) :
    ∃ s', Refines json ((History.undo json)^[k] h) s' ∧ s'.gesture = none ∧
      s'.line = LinearHistory.undo^[k] s.line := by
  induction k with
  | zero => exact ⟨s, hr, hgesture, rfl⟩
  | succ k ih =>
    obtain ⟨s', hr', hgesture', hline⟩ := ih
    obtain ⟨hline', hgesture''⟩ := Session.undo_line hgesture'
    refine ⟨s'.step .undo, ?_, hgesture'', ?_⟩
    · rw [Function.iterate_succ_apply']
      exact hr'.undo hgesture'
    · rw [hline', hline, Function.iterate_succ_apply']

omit [DecidableEq S] in
theorem redo_iterate (hr : Refines json h s) (hgesture : s.gesture = none) (j : ℕ) :
    ∃ s', Refines json ((History.redo json)^[j] h) s' ∧ s'.gesture = none ∧
      s'.line = LinearHistory.redo^[j] s.line := by
  induction j with
  | zero => exact ⟨s, hr, hgesture, rfl⟩
  | succ j ih =>
    obtain ⟨s', hr', hgesture', hline⟩ := ih
    obtain ⟨hline', hgesture''⟩ := Session.redo_line hgesture'
    refine ⟨s'.step .redo, ?_, hgesture'', ?_⟩
    · rw [Function.iterate_succ_apply']
      exact hr'.redo hgesture'
    · rw [hline', hline, Function.iterate_succ_apply']

omit [DecidableEq S] in
theorem doc_eq (hr : Refines json h s) (hgesture : s.gesture = none) :
    h.doc = s.line.present := by
  rw [hr.doc, hr.present, hgesture]
  rfl

omit [DecidableEq S] in
/-- As many documents can be undone as there are in the past of the line. -/
theorem undo_redo (hr : Refines json h s) (hgesture : s.gesture = none) {j k : ℕ} (hj : j ≤ k)
    (hk : k ≤ s.line.past.length) :
    some ((History.redo json)^[j] ((History.undo json)^[k] h)).doc
      = (s.line.present :: s.line.past)[k - j]? := by
  obtain ⟨s₁, hr₁, hgesture₁, hline₁⟩ := hr.undo_iterate hgesture k
  obtain ⟨s₂, hr₂, hgesture₂, hline₂⟩ := hr₁.redo_iterate hgesture₁ j
  rw [hr₂.doc_eq hgesture₂, hline₂, hline₁, LinearHistory.redo_undo_iterate hj hk,
    LinearHistory.present_undo_iterate ((Nat.sub_le k j).trans hk)]

end Refines

/-- Whether what has happened is a step. -/
def Happening.isStep : Happening D → Bool
  | edit _ _ _ => true
  | gesture before after _ => after ≠ before
  | undo | redo => false

theorem Happening.future_eq_nil {doc : D} {events : List (Happening D)} {e : Happening D}
    (he : e.isStep) : (line doc (events ++ [e])).future = [] := by
  cases e with
  | edit coalesce clock after =>
    rw [line_edit]
    split <;> rfl
  | gesture before after touched =>
    rw [line_of_ne_edit (by simp)]
    exact congrArg LinearHistory.future (if_pos (of_decide_eq_true he))
  | undo | redo => exact absurd he Bool.false_ne_true

omit [DecidableEq S] in
theorem Refines.redoStack_eq_nil {e : Happening D} (hr : Refines json h s)
    (hlast : s.events.getLast? = some e) (he : e.isStep) : h.redoStack = [] := by
  obtain ⟨events, hevents⟩ := List.getLast?_eq_some_iff.mp hlast
  have hfuture : s.line.future = [] := by
    rw [Session.line, hevents]
    exact Happening.future_eq_nil he
  rw [hr.redoStack, hfuture]
  split <;> rfl

/-- **Undo and redo go back and forth along the steps.** Where no gesture is under way, `k` times
`undo` restores the document before the `k`-th last step, as many as are kept; `j` times `redo` then
restores the documents in the reverse order; and after a new step nothing can be redone. -/
theorem undo_redo_steps (json : JsonText D S) (doc : D) (calls : List (Call D))
    (hnested : WellNested false calls) :
    let h := (History.new json doc).run json calls
    let s := (Session.new doc).run calls
    (s.gesture = none →
      h.doc = s.line.present ∧ h.undoStack.length = s.line.past.length ∧
      s.line.past.length ≤ historyLimit ∧
      ∀ k ≤ s.line.past.length, ∀ j ≤ k,
        some ((History.redo json)^[j] ((History.undo json)^[k] h)).doc
          = (s.line.present :: s.line.past)[k - j]?) ∧
    (∀ e, s.events.getLast? = some e → e.isStep → h.redoStack = []) := by
  intro h s
  have hinit : Refines json (.new json doc) (.new doc) := .init doc
  have hr : Refines json h s := hinit.run hnested
  refine ⟨fun hgesture ↦ ⟨hr.doc_eq hgesture, ?_, s.line.length_past_le, ?_⟩, ?_⟩
  · rw [hr.undoStack, List.length_map]
  · intro k hk j hj
    exact hr.undo_redo hgesture hj hk
  · intro e hlast he
    exact hr.redoStack_eq_nil hlast he

/-- Two modifications of one key, a gesture, an `undo` and a modification: two steps are left, and
the first of them is one of two modifications. -/
theorem undo_redo_steps_mixed :
    let change : Bool → Call Bool := fun b ↦ .mutate (fun _ ↦ b) (some "key") ⟨0, 0⟩
    let calls := [change true, change false, .begin_, change true, .end_, .undo, change true]
    let h := (History.new boolText false).run boolText calls
    let s := (Session.new false).run calls
    s.line.past = [false, false] ∧ h.redoStack = [] ∧
      some ((History.redo boolText)^[1] ((History.undo boolText)^[2] h)).doc = some false := by
  intro change calls h s
  have hnested : WellNested false calls := by
    simp [calls, change, WellNested, Call.travels, Call.inside]
  have hsteps := undo_redo_steps boolText false calls hnested
  exact ⟨by decide, hsteps.2 (.edit (some "key") ⟨0, 0⟩ true) (by decide) rfl,
    (hsteps.1 (by decide)).2.2.2 2 (by decide) 1 (by decide)⟩

end Superviseur.Editor
