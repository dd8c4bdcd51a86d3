import Superviseur.Front.EditorSteps

/-!
# Saving

A mounted editor and the server. `save` sends a copy of the document, with the record as the editor
knows it, and waits: the user goes on, and may save again, for the button is disabled during a save
but not the key. When the answer comes the record is replaced, and what is marked as saved is the
document as it then is.

The server decides on a request at one moment: a creation makes a new synoptic, a save on the latest
version makes the next one, and any other save is a conflict. A request may fail otherwise, and an
answer may be lost. Other clients do not write the synoptic.

Nothing unsaved is reported as saved if and only if the document is what was sent each time that an
answer comes (`honest_iff`).
-/

namespace Superviseur.Editor

/-- A synoptic and its version, as the editor knows them. -/
structure SavedRecord where
  id : ℕ
  version : ℕ
  deriving DecidableEq, Repr

/-- A request in flight. -/
structure SaveRequest (D : Type) where
  doc : D
  /-- The record when the request was sent; none for a creation. -/
  basis : Option SavedRecord
  /-- How many of the saves the server has made had been answered when the request was sent. -/
  known : ℕ

inductive SaveStage
  /-- The server has not decided yet. -/
  | sent
  /-- The server has made the save, and its answer is on its way. -/
  | stored (record : SavedRecord)
  /-- Answered, failed or refused. -/
  | done
  deriving DecidableEq, Repr

/-- An editor, its requests, and the server. -/
structure Editing (D S : Type) where
  history : History D S
  record : Option SavedRecord
  /-- Destroyed or in preview, the editor does not save. -/
  paused : Bool := false
  requests : List (SaveRequest D × SaveStage) := []
  /-- The latest version of every synoptic of the server, by its identifier. -/
  versions : List ℕ
  /-- The document of the last answer that was a success. -/
  acknowledged : Option D := none
  /-- Creations answered with success. -/
  created : ℕ := 0
  /-- Saves refused for their version. -/
  conflicts : ℕ := 0
  /-- Saves the server has made. -/
  accepted : ℕ := 0
  /-- Those of them whose answer has come. -/
  received : ℕ := 0

inductive SaveLabel (D : Type)
  /-- The user edits. -/
  | edit (call : Call D)
  /-- The preview begins or ends, or the editor is destroyed. -/
  | pause (paused : Bool)
  /-- The button, or the key. -/
  | save
  /-- The server decides on request `i`. -/
  | decides (i : ℕ)
  /-- Request `i` fails before the server decides on it, or is refused for its document. -/
  | fails (i : ℕ)
  /-- The answer to request `i` comes. -/
  | receives (i : ℕ)
  /-- The answer to request `i` is lost. -/
  | loses (i : ℕ)

namespace Editing

variable {D S : Type} [DecidableEq S] (json : JsonText D S) (s : Editing D S)

/-- The editor opens a synoptic, or a new document. -/
def new (doc : D) (record : Option SavedRecord) (versions : List ℕ) : Editing D S where
  history := .new json doc
  record := record
  versions := versions

/-- `save`, until it waits. -/
def save : Editing D S :=
  if s.paused then s
  else { s with requests := s.requests ++ [(⟨s.history.doc, s.record, s.received⟩, .sent)] }

/-- A request comes to a stage. -/
def comes (i : ℕ) (request : SaveRequest D) (stage : SaveStage) : Editing D S :=
  { s with requests := s.requests.set i (request, stage) }

/-- `create_synoptic` and `save_synoptic`. -/
def decides (i : ℕ) : Editing D S :=
  match s.requests[i]? with
  | some (request, .sent) =>
    match request.basis with
    | none =>
      { s.comes i request (.stored ⟨s.versions.length, 1⟩) with
        versions := s.versions ++ [1]
        created := s.created + 1
        accepted := s.accepted + 1 }
    | some record =>
      if s.versions[record.id]? = some record.version then
        { s.comes i request (.stored { record with version := record.version + 1 }) with
          versions := s.versions.set record.id (record.version + 1)
          accepted := s.accepted + 1 }
      else { s.comes i request .done with conflicts := s.conflicts + 1 }
  | _ => s

def fails (i : ℕ) : Editing D S :=
  match s.requests[i]? with
  | some (request, .sent) => s.comes i request .done
  | _ => s

/-- `save`, resumed by a success. -/
def receives (i : ℕ) : Editing D S :=
  match s.requests[i]? with
  | some (request, .stored record) =>
    { s.comes i request .done with
      record := some record
      history := s.history.markSaved json
      acknowledged := some request.doc
      received := s.received + 1 }
  | _ => s

def loses (i : ℕ) : Editing D S :=
  match s.requests[i]? with
  | some (request, .stored _) => s.comes i request .done
  | _ => s

def step : SaveLabel D → Editing D S
  | .edit call => { s with history := s.history.call json call }
  | .pause paused => { s with paused := paused }
  | .save => s.save
  | .decides i => s.decides i
  | .fails i => s.fails i
  | .receives i => s.receives json i
  | .loses i => s.loses i

def run (labels : List (SaveLabel D)) : Editing D S := labels.foldl (step json) s

end Editing

/-! ## What is reported as saved -/

variable {D S : Type} [DecidableEq S] {json : JsonText D S} {s : Editing D S}

/-- Once a save has been acknowledged, a document without modifications is the one acknowledged
last. -/
def Honest (json : JsonText D S) (s : Editing D S) : Prop :=
  ∀ d, s.acknowledged = some d → s.history.dirty json = false →
    json.stringify s.history.doc = json.stringify d

/-- An answer comes when the document is what was sent. -/
def Unedited (s : Editing D S) : SaveLabel D → Prop
  | .receives i => ∀ request record, s.requests[i]? = some (request, .stored record) →
    s.history.doc = request.doc
  | _ => True

/-- What is marked as saved is what was acknowledged last. -/
def MarksAcknowledged (json : JsonText D S) (s : Editing D S) : Prop :=
  ∀ d, s.acknowledged = some d → s.history.saved = json.stringify d

theorem MarksAcknowledged.honest (h : MarksAcknowledged json s) : Honest json s := by
  intro d hd hclean
  have hsaved : s.history.snapshot json = s.history.saved := by simpa [History.dirty] using hclean
  exact hsaved.trans (h d hd)

theorem History.saved_call (h : History D S) (call : Call D) :
    (h.call json call).saved = h.saved := by
  cases call with
  | mutate change coalesce clock =>
    rw [call]
    by_cases heffect : change h.doc = h.doc
    · rw [mutate_of_eq heffect]
    · cases hgesture : h.gesture with
      | some before => rw [mutate_of_gesture heffect hgesture]
      | none =>
        rw [mutate_of_none heffect hgesture]
        cases h.same coalesce clock <;> rfl
  | begin_ =>
    rw [call, begin_]
    split <;> rfl
  | end_ =>
    rw [call, end_]
    split
    · rfl
    · dsimp only
      split <;> rfl
  | undo =>
    rw [call, undo]
    split <;> rfl
  | redo =>
    rw [call, redo]
    split <;> rfl

/-- What one step keeps: only an answer changes what is marked as saved, or acknowledged. -/
theorem MarksAcknowledged.step {label : SaveLabel D} (h : MarksAcknowledged json s)
    (hunedited : Unedited s label) : MarksAcknowledged json (s.step json label) := by
  cases label with
  | edit call =>
    intro d hd
    exact (History.saved_call s.history call).trans (h d hd)
  | pause paused => exact h
  | save =>
    rw [Editing.step, Editing.save]
    split
    · exact h
    · exact h
  | decides i =>
    rw [Editing.step, Editing.decides]
    split
    · split
      · exact h
      · split
        · exact h
        · exact h
    · exact h
  | fails i =>
    rw [Editing.step, Editing.fails]
    split
    · exact h
    · exact h
  | receives i =>
    rw [Editing.step, Editing.receives]
    split
    · rename_i request record hi
      intro d hd
      obtain rfl := Option.some.inj hd
      exact congrArg json.stringify (hunedited request record hi)
    · exact h
  | loses i =>
    rw [Editing.step, Editing.loses]
    split
    · exact h
    · exact h

/-- An answer that comes after an edit marks as saved what was not sent. -/
theorem not_honest_step {label : SaveLabel D} (hedited : ¬ Unedited s label) :
    ¬ Honest json (s.step json label) := by
  cases label with
  | receives i =>
    rw [Unedited] at hedited
    push Not at hedited
    obtain ⟨request, record, hi, hne⟩ := hedited
    rw [Editing.step, Editing.receives, hi]
    intro h
    refine hne (json.stringify_inj.mp (h request.doc rfl ?_))
    simp [History.dirty, History.markSaved, History.snapshot]
  | edit _ | pause _ | save | decides _ | fails _ | loses _ => exact absurd trivial hedited

/-- **Nothing unsaved is reported as saved, in any state reached, if and only if the document is
what was sent each time that an answer comes.** -/
theorem honest_iff (json : JsonText D S) (doc : D) (record : Option SavedRecord)
    (versions : List ℕ) (labels : List (SaveLabel D)) :
    (∀ past, past <+: labels → Honest json ((Editing.new json doc record versions).run json past)) ↔
      ∀ past label, past ++ [label] <+: labels →
        Unedited ((Editing.new json doc record versions).run json past) label :=
  Trace.forall_prefix_iff (I := MarksAcknowledged json) MarksAcknowledged.honest
    (fun h hunedited ↦ h.step hunedited) (fun _ hedited ↦ not_honest_step hedited)
    (by simp [MarksAcknowledged, Editing.new]) labels

/-- An edit while the save is in flight: the server has the document as it was, and the editor says
that nothing is left to save. -/
theorem not_honest :
    ¬ ∀ (labels past : List (SaveLabel Bool)), past <+: labels →
      Honest boolText ((Editing.new boolText false none []).run boolText past) := by
  intro h
  have hsaved := h [.edit (.mutate (fun _ ↦ true) none ⟨0, 0⟩), .save, .decides 0,
    .edit (.mutate (fun _ ↦ false) none ⟨0, 0⟩), .receives 0] _ List.prefix_rfl true
    (by decide) (by decide)
  exact absurd hsaved (by decide)

end Superviseur.Editor
