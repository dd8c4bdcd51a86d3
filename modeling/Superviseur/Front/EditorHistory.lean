import Mathlib.Data.Nat.Notation
import Mathlib.Data.Int.Notation
import Mathlib.Data.List.Basic

/-!
# The history of the editor

The part of `EditorState` that knows nothing of what a document is: what has been saved, and the
snapshots of `undo` and `redo`. A snapshot is the text of a document, and all that is asked of texts
is that a document is read back as it was written; documents are compared by their texts.

A modification reads the clock when it is compared with the last one, and again when it is recorded.
-/

namespace Superviseur.Editor

/-- `JSON.stringify` and `JSON.parse`, on documents. -/
structure JsonText (D S : Type) where
  stringify : D → S
  parse : S → D
  parse_stringify (d : D) : parse (stringify d) = d

namespace JsonText

variable {D S : Type} (json : JsonText D S)

theorem stringify_inj {d d' : D} : json.stringify d = json.stringify d' ↔ d = d' :=
  (Function.LeftInverse.injective json.parse_stringify).eq_iff

/-- Documents that stand for their own texts. -/
def self (D : Type) : JsonText D D := ⟨id, id, fun _ ↦ rfl⟩

end JsonText

/-- The texts of booleans. -/
def boolText : JsonText Bool String where
  stringify b := if b then "true" else "false"
  parse text := text == "true"
  parse_stringify := by decide

/-- `HISTORY_LIMIT`. -/
def historyLimit : ℕ := 100

/-- `COALESCE_MS`. -/
def coalesceMs : ℤ := 800

/-- Two readings of the clock, in the course of one call. -/
structure Clock where
  /-- When the modification is compared with the last one. -/
  asked : ℤ
  /-- When it is recorded. -/
  recorded : ℤ
  deriving DecidableEq

/-- `lastCoalesce`. -/
structure Coalesce where
  key : String
  at_ : ℤ

/-- The key of a modification: the empty text is none. -/
def keyOf (coalesce : Option String) : Option String := coalesce.filter (· ≠ "")

/-- A document and its history; the stacks have their top first. -/
structure History (D S : Type) where
  doc : D
  saved : S
  undoStack : List S := []
  redoStack : List S := []
  /-- The snapshot at the beginning of the gesture that is under way. -/
  gesture : Option S := none
  lastCoalesce : Option Coalesce := none

namespace History

variable {D S : Type} [DecidableEq S] (json : JsonText D S)

/-- `constructor`. -/
def new (doc : D) : History D S := { doc := doc, saved := json.stringify doc }

def snapshot (h : History D S) : S := json.stringify h.doc

def dirty (h : History D S) : Bool := h.snapshot json != h.saved

def markSaved (h : History D S) : History D S := { h with saved := h.snapshot json }

/-- The document is replaced: the history starts over. -/
def load (_ : History D S) (doc : D) : History D S := new json doc

def push (h : History D S) (before : S) : History D S :=
  { h with undoStack := (before :: h.undoStack).take historyLimit }

/-- Whether a modification goes on with the last one. -/
def same (h : History D S) (coalesce : Option String) (clock : Clock) : Bool :=
  match keyOf coalesce, h.lastCoalesce with
  | some key, some last => last.key == key && clock.asked - last.at_ < coalesceMs
  | _, _ => false

def mutate (h : History D S) (change : D → D) (coalesce : Option String) (clock : Clock) :
    History D S :=
  let before := h.snapshot json
  let h := { h with doc := change h.doc }
  if h.snapshot json = before then h
  else
    let h :=
      match h.gesture with
      | some _ => h
      | none =>
        { if h.same coalesce clock then h else h.push before with
          lastCoalesce := (keyOf coalesce).map fun key ↦ ⟨key, clock.recorded⟩ }
    { h with redoStack := [] }

/-- `begin`. -/
def begin_ (h : History D S) : History D S :=
  match h.gesture with
  | some _ => h
  | none => { h with gesture := some (h.snapshot json) }

/-- `end`. -/
def end_ (h : History D S) : History D S :=
  match h.gesture with
  | none => h
  | some before =>
    let h := { h with gesture := none }
    { if h.snapshot json = before then h else h.push before with lastCoalesce := none }

/-- `restore`. -/
def restore (h : History D S) (snapshot : S) : History D S :=
  { h with doc := json.parse snapshot, lastCoalesce := none }

def undo (h : History D S) : History D S :=
  match h.undoStack with
  | [] => h
  | previous :: undoStack =>
    { h with undoStack := undoStack, redoStack := h.snapshot json :: h.redoStack }.restore json
      previous

def redo (h : History D S) : History D S :=
  match h.redoStack with
  | [] => h
  | next :: redoStack =>
    { h with redoStack := redoStack, undoStack := h.snapshot json :: h.undoStack }.restore json next

/-! ## What a modification does -/

variable {json} {h : History D S} {change : D → D} {coalesce : Option String} {clock : Clock}

theorem mutate_of_eq (heffect : change h.doc = h.doc) :
    h.mutate json change coalesce clock = h := by
  rw [mutate]
  refine (if_pos (congrArg json.stringify heffect)).trans ?_
  rw [heffect]

theorem mutate_of_gesture {before : S} (heffect : change h.doc ≠ h.doc)
    (hgesture : h.gesture = some before) :
    h.mutate json change coalesce clock = { h with doc := change h.doc, redoStack := [] } := by
  rw [mutate]
  refine (if_neg (mt json.stringify_inj.mp heffect)).trans ?_
  rw [hgesture]

/-- A modification outside gestures is recorded, or goes on with the last one. -/
theorem mutate_of_none (heffect : change h.doc ≠ h.doc) (hgesture : h.gesture = none) :
    h.mutate json change coalesce clock =
      { if h.same coalesce clock then h else h.push (json.stringify h.doc) with
        doc := change h.doc
        redoStack := []
        lastCoalesce := (keyOf coalesce).map fun key ↦ ⟨key, clock.recorded⟩ } := by
  obtain ⟨doc, saved, undoStack, redoStack, gesture, lastCoalesce⟩ := h
  obtain rfl : gesture = none := hgesture
  refine (if_neg (mt json.stringify_inj.mp heffect)).trans ?_
  have hsame : same (⟨change doc, saved, undoStack, redoStack, none, lastCoalesce⟩ : History D S)
      coalesce clock = same ⟨doc, saved, undoStack, redoStack, none, lastCoalesce⟩ coalesce clock :=
    rfl
  dsimp only
  rw [hsame]
  cases same ⟨doc, saved, undoStack, redoStack, none, lastCoalesce⟩ coalesce clock <;> rfl

theorem mutate_doc : (h.mutate json change coalesce clock).doc = change h.doc := by
  by_cases heffect : change h.doc = h.doc
  · rw [mutate_of_eq heffect, heffect]
  · cases hgesture : h.gesture with
    | some t => rw [mutate_of_gesture heffect hgesture]
    | none => rw [mutate_of_none heffect hgesture]

omit [DecidableEq S] in
theorem begin_doc : (h.begin_ json).doc = h.doc := by
  rw [begin_]
  split <;> rfl

theorem end_of_eq {before : S} (hgesture : h.gesture = some before)
    (heq : h.snapshot json = before) :
    h.end_ json = { h with gesture := none, lastCoalesce := none } := by
  obtain ⟨doc, saved, undoStack, redoStack, gesture, lastCoalesce⟩ := h
  obtain rfl : gesture = some before := hgesture
  have heq' : snapshot json (⟨doc, saved, undoStack, redoStack, none, lastCoalesce⟩ : History D S)
      = before := heq
  rw [end_]
  dsimp only
  rw [if_pos heq']

theorem end_of_ne {before : S} (hgesture : h.gesture = some before)
    (hne : h.snapshot json ≠ before) :
    h.end_ json = { h.push before with gesture := none, lastCoalesce := none } := by
  obtain ⟨doc, saved, undoStack, redoStack, gesture, lastCoalesce⟩ := h
  obtain rfl : gesture = some before := hgesture
  have hne' : snapshot json (⟨doc, saved, undoStack, redoStack, none, lastCoalesce⟩ : History D S)
      ≠ before := hne
  rw [end_]
  dsimp only
  rw [if_neg hne']
  rfl

theorem end_doc : (h.end_ json).doc = h.doc := by
  rw [end_]
  split
  · rfl
  · dsimp only
    split <;> rfl

/-! ## What holds of every document that can come back -/

/-- `P` holds of the document and of all that the snapshots bring back. -/
structure All (json : JsonText D S) (P : D → Prop) (h : History D S) : Prop where
  doc : P h.doc
  undoStack : ∀ t ∈ h.undoStack, P (json.parse t)
  redoStack : ∀ t ∈ h.redoStack, P (json.parse t)
  gesture : ∀ t, h.gesture = some t → P (json.parse t)

namespace All

variable {P : D → Prop} {doc : D} (hP : h.All json P)
include hP

omit [DecidableEq S] in
theorem snapshot : P (json.parse (json.stringify h.doc)) :=
  (json.parse_stringify h.doc).symm ▸ hP.doc

omit [DecidableEq S] in
theorem push {t : S} (ht : P (json.parse t)) : ∀ t' ∈ (h.push t).undoStack, P (json.parse t') := by
  intro t' ht'
  rcases List.mem_cons.mp (List.mem_of_mem_take ht') with rfl | ht'
  · exact ht
  · exact hP.undoStack t' ht'

theorem mutate (hchange : P (change h.doc)) : (h.mutate json change coalesce clock).All json P := by
  by_cases heffect : change h.doc = h.doc
  · rw [mutate_of_eq heffect]
    exact hP
  · cases hgesture : h.gesture with
    | some t =>
      rw [mutate_of_gesture heffect hgesture]
      exact { hP with doc := hchange, redoStack := by simp }
    | none =>
      rw [mutate_of_none heffect hgesture]
      refine ⟨hchange, ?_, by simp, ?_⟩
      · cases h.same coalesce clock with
        | true => exact hP.undoStack
        | false => exact hP.push hP.snapshot
      · cases h.same coalesce clock <;> exact hP.gesture

omit [DecidableEq S] in
theorem begin_ : (h.begin_ json).All json P := by
  rw [History.begin_]
  split
  · exact hP
  · exact { hP with gesture := fun t ht ↦ Option.some.inj ht ▸ hP.snapshot }

theorem end_ : (h.end_ json).All json P := by
  cases hgesture : h.gesture with
  | none =>
    rw [History.end_, hgesture]
    exact hP
  | some t =>
    by_cases heq : h.snapshot json = t
    · rw [end_of_eq hgesture heq]
      exact { hP with gesture := by simp }
    · rw [end_of_ne hgesture heq]
      exact { hP with undoStack := hP.push (hP.gesture t hgesture), gesture := by simp }

omit [DecidableEq S] in
theorem undo : (h.undo json).All json P := by
  rw [History.undo]
  cases hstack : h.undoStack with
  | nil => exact hP
  | cons t stack =>
    have ht := hP.undoStack
    rw [hstack, List.forall_mem_cons] at ht
    exact
      { hP with
        doc := ht.1
        undoStack := ht.2
        redoStack := List.forall_mem_cons.mpr ⟨hP.snapshot, hP.redoStack⟩ }

omit [DecidableEq S] in
theorem redo : (h.redo json).All json P := by
  rw [History.redo]
  cases hstack : h.redoStack with
  | nil => exact hP
  | cons t stack =>
    have ht := hP.redoStack
    rw [hstack, List.forall_mem_cons] at ht
    exact
      { hP with
        doc := ht.1
        undoStack := List.forall_mem_cons.mpr ⟨hP.snapshot, hP.undoStack⟩
        redoStack := ht.2 }

end All

omit [DecidableEq S] in
theorem all_new {P : D → Prop} {doc : D} (hdoc : P doc) : (new json doc).All json P :=
  ⟨hdoc, by simp [new], by simp [new], by simp [new]⟩

end History

end Superviseur.Editor
