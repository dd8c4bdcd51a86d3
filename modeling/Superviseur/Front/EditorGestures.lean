import Mathlib.Data.List.Chain
import Superviseur.Front.EditorSteps

/-!
# Undo and redo during gestures

`undo` and `redo` may be called between `begin` and `end`, where the steps are not recorded yet. The
undo stack is bounded where a step is recorded, and only there; the redo stack is emptied by a
modification, and not by the end of a gesture; and what is compared at the end of a gesture is the
document at its beginning, whatever has been undone since.

Two kinds of calls lead to a stack that is too high, to a step that leaves something to redo, or to
an `undo` that changes nothing: a modification that is not recorded and brings the document to the
latest snapshot, and a gesture that ends with a change while there is something to redo, or while
the latest snapshot is the document of its beginning. **Without them nothing of this happens, and
with them it does, at once or after some `undo` and `redo`** (`upright_iff`).
-/

namespace Superviseur.Editor

/-- A call that concerns the history. -/
inductive Operation (D : Type) where
  | call (c : Call D)
  | load (doc : D)

variable {D S : Type} [DecidableEq S]

namespace History

def perform (json : JsonText D S) (h : History D S) : Operation D → History D S
  | .call c => h.call json c
  | .load doc => h.load json doc

omit [DecidableEq S] in
/-- `canUndo`. -/
def canUndo (h : History D S) : Bool := 0 < h.undoStack.length

/-- Whether an operation records a new step. -/
def records (json : JsonText D S) (h : History D S) : Operation D → Bool
  | .call (.mutate change coalesce clock) =>
    json.stringify (change h.doc) ≠ h.snapshot json && h.gesture.isNone && !h.same coalesce clock
  | .call .end_ => h.gesture.any (h.snapshot json ≠ ·)
  | .call .begin_ | .call .undo | .call .redo | .load _ => false

/-- The undo stack is bounded, and `undo` changes the document where it is offered. -/
structure Limits (json : JsonText D S) (h : History D S) : Prop where
  bounded : h.undoStack.length ≤ historyLimit
  effective : h.canUndo = true → (h.undo json).doc ≠ h.doc

end History

/-- The history, and whether the last operation has recorded a new step. -/
structure Recording (D S : Type) extends History D S where
  recorded : Bool := false

namespace Recording

def step (json : JsonText D S) (r : Recording D S) (op : Operation D) : Recording D S where
  toHistory := r.toHistory.perform json op
  recorded := r.toHistory.records json op

def run (json : JsonText D S) (r : Recording D S) (ops : List (Operation D)) : Recording D S :=
  ops.foldl (step json) r

/-- A new step leaves nothing to redo, and the limits are kept. -/
structure Kept (json : JsonText D S) (r : Recording D S) : Prop where
  forgets : r.recorded = true → r.redoStack = []
  limits : r.toHistory.Limits json

/-- All is kept, and is still so after any `undo` and `redo`. -/
def Upright (json : JsonText D S) (r : Recording D S) : Prop :=
  ∀ travels : List (Call D), (∀ c ∈ travels, c.travels = true) →
    (r.run json (travels.map .call)).Kept json

/-- What operations have to avoid. A modification that is not recorded does not bring the document
to the latest snapshot; a gesture that ends with a change has nothing to redo, and the latest
snapshot is not the document of its beginning. -/
def Tidy (json : JsonText D S) (r : Recording D S) : Operation D → Prop
  | .call (.mutate change coalesce clock) =>
    change r.doc ≠ r.doc → r.gesture.isSome ∨ r.same coalesce clock = true →
      ∀ t ∈ r.undoStack.head?, json.parse t ≠ change r.doc
  | .call .end_ => ∀ before ∈ r.gesture, r.snapshot json ≠ before →
      r.redoStack = [] ∧ ∀ t ∈ r.undoStack.head?, json.parse t ≠ json.parse before
  | .call .begin_ | .call .undo | .call .redo | .load _ => True

end Recording

/-! ## The invariant -/

theorem isChain_cons_map_iff {α β : Type} {f : α → β} {b : β} {xs : List α} :
    (b :: xs.map f).IsChain (· ≠ ·) ↔
      (∀ x ∈ xs.head?, f x ≠ b) ∧ (xs.map f).IsChain (· ≠ ·) := by
  rw [List.isChain_cons, List.head?_map]
  refine and_congr_left fun _ ↦ ⟨fun h x hx ↦ ?_, fun h y hy ↦ ?_⟩
  · exact (h (f x) (Option.mem_map_of_mem f hx)).symm
  · obtain ⟨x, hx, rfl⟩ := Option.map_eq_some_iff.mp hy
    exact (h x hx).symm

namespace History

/-- The document and the snapshots, one after the other, differ. -/
structure Sound (json : JsonText D S) (h : History D S) : Prop where
  past : (h.doc :: h.undoStack.map json.parse).IsChain (· ≠ ·)
  future : (h.doc :: h.redoStack.map json.parse).IsChain (· ≠ ·)
  length : h.undoStack.length + h.redoStack.length ≤ historyLimit
  /-- A gesture begins at a document. -/
  gesture : ∀ before ∈ h.gesture, json.stringify (json.parse before) = before

variable {json : JsonText D S} {h : History D S} {c : Call D}

omit [DecidableEq S] in
theorem Sound.init (doc : D) : (new json doc).Sound json where
  past := .singleton _
  future := .singleton _
  length := Nat.zero_le _
  gesture _ hbefore := (Option.not_mem_none _ hbefore).elim

omit [DecidableEq S] in
theorem Sound.undo (hs : h.Sound json) : (h.undo json).Sound json := by
  rw [History.undo]
  rcases hstack : h.undoStack with _ | ⟨t, stack⟩
  · exact hs
  · have hpast := hs.past
    have hlength := hs.length
    rw [hstack, List.map_cons] at hpast
    rw [hstack, List.length_cons] at hlength
    obtain ⟨hne, hpast⟩ := List.isChain_cons_cons.mp hpast
    refine ⟨hpast, ?_, ?_, hs.gesture⟩
    · -- what is undone can be redone
      have hfuture := List.isChain_cons_cons.mpr ⟨hne.symm, hs.future⟩
      rw [← json.parse_stringify h.doc] at hfuture
      exact hfuture
    · change stack.length + (h.redoStack.length + 1) ≤ historyLimit
      omega

omit [DecidableEq S] in
theorem Sound.redo (hs : h.Sound json) : (h.redo json).Sound json := by
  rw [History.redo]
  rcases hstack : h.redoStack with _ | ⟨t, stack⟩
  · exact hs
  · have hfuture := hs.future
    have hlength := hs.length
    rw [hstack, List.map_cons] at hfuture
    rw [hstack, List.length_cons] at hlength
    obtain ⟨hne, hfuture⟩ := List.isChain_cons_cons.mp hfuture
    refine ⟨?_, hfuture, ?_, hs.gesture⟩
    · have hpast := List.isChain_cons_cons.mpr ⟨hne.symm, hs.past⟩
      rw [← json.parse_stringify h.doc] at hpast
      exact hpast
    · change h.undoStack.length + 1 + stack.length ≤ historyLimit
      omega

omit [DecidableEq S] in
theorem Sound.limits (hs : h.Sound json) : h.Limits json where
  bounded := (Nat.le_add_right _ _).trans hs.length
  effective hcan := by
    rw [History.undo]
    rcases hstack : h.undoStack with _ | ⟨t, stack⟩
    · rw [canUndo, hstack] at hcan
      exact absurd hcan Bool.false_ne_true
    · have hpast := hs.past
      rw [hstack, List.map_cons] at hpast
      exact (List.isChain_cons_cons.mp hpast).1.symm

omit [DecidableEq S] in
theorem Sound.snapshots (hs : h.Sound json) : (h.undoStack.map json.parse).IsChain (· ≠ ·) :=
  (isChain_cons_map_iff.mp hs.past).2

omit [DecidableEq S] in
/-- A snapshot comes on top of the others, of which the oldest may be lost. -/
theorem Sound.push (hs : h.Sound json) {doc : D} {before : S} (hdoc : json.parse before ≠ doc)
    (hnew : ∀ t ∈ h.undoStack.head?, json.parse t ≠ json.parse before) :
    (doc :: (h.push before).undoStack.map json.parse).IsChain (· ≠ ·) := by
  have htop : (json.parse before :: h.undoStack.map json.parse).IsChain (· ≠ ·) :=
    isChain_cons_map_iff.mpr ⟨hnew, hs.snapshots⟩
  have hall := List.isChain_cons_cons.mpr ⟨hdoc.symm, htop⟩
  have hprefix : (h.push before).undoStack.map json.parse <+:
      json.parse before :: h.undoStack.map json.parse := (List.take_prefix _ _).map json.parse
  exact hall.infix ((List.prefix_cons_inj doc).mpr hprefix).isInfix

omit [DecidableEq S] in
theorem length_push_le (before : S) : (h.push before).undoStack.length ≤ historyLimit :=
  List.length_take_le _ _

theorem Sound.mutate {change : D → D} {coalesce : Option String} {clock : Clock} {recorded : Bool}
    (hs : h.Sound json)
    (htidy : Recording.Tidy json ⟨h, recorded⟩ (.call (.mutate change coalesce clock))) :
    (h.mutate json change coalesce clock).Sound json := by
  by_cases heffect : change h.doc = h.doc
  · rw [mutate_of_eq heffect]
    exact hs
  -- a modification that is not recorded moves away from the latest snapshot
  have hmove : h.gesture.isSome ∨ h.same coalesce clock = true →
      (change h.doc :: h.undoStack.map json.parse).IsChain (· ≠ ·) :=
    fun hunrecorded ↦ isChain_cons_map_iff.mpr ⟨htidy heffect hunrecorded, hs.snapshots⟩
  have hlength : h.undoStack.length ≤ historyLimit := hs.limits.bounded
  rcases hgesture : h.gesture with _ | before
  · rw [mutate_of_none heffect hgesture]
    rcases hsame : h.same coalesce clock with _ | _
    · have hpush := length_push_le (h := h) (json.stringify h.doc)
      refine ⟨hs.push ?_ fun t ht ↦ ?_, .singleton _, hpush, hs.gesture⟩
      · rw [json.parse_stringify]
        exact Ne.symm heffect
      · rw [json.parse_stringify]
        exact (isChain_cons_map_iff.mp hs.past).1 t ht
    · exact ⟨hmove (.inr hsame), .singleton _, hlength, hs.gesture⟩
  · have hunrecorded : h.gesture.isSome := by rw [hgesture]; rfl
    rw [mutate_of_gesture heffect hgesture]
    exact ⟨hmove (.inl hunrecorded), .singleton _, hlength, hs.gesture⟩

omit [DecidableEq S] in
theorem Sound.begin_ (hs : h.Sound json) : (h.begin_ json).Sound json := by
  rw [History.begin_]
  split
  · exact hs
  · refine ⟨hs.past, hs.future, hs.length, fun before hbefore ↦ ?_⟩
    obtain rfl := Option.some.inj hbefore
    rw [snapshot, json.parse_stringify]

omit [DecidableEq S] in
/-- A document that differs from the one of the beginning by its text is another one. -/
theorem Sound.parse_ne (hs : h.Sound json) {before : S} (hgesture : h.gesture = some before)
    (hne : h.snapshot json ≠ before) : json.parse before ≠ h.doc := by
  intro heq
  refine hne ?_
  rw [snapshot, ← heq, hs.gesture before hgesture]

theorem Sound.end_ {recorded : Bool} (hs : h.Sound json)
    (htidy : Recording.Tidy json ⟨h, recorded⟩ (.call .end_)) : (h.end_ json).Sound json := by
  rcases hgesture : h.gesture with _ | before
  · rw [History.end_, hgesture]
    exact hs
  by_cases heq : h.snapshot json = before
  · rw [end_of_eq hgesture heq]
    exact ⟨hs.past, hs.future, hs.length, fun _ h ↦ (Option.not_mem_none _ h).elim⟩
  · obtain ⟨hredo, hnew⟩ := htidy before hgesture heq
    rw [end_of_ne hgesture heq]
    refine ⟨hs.push (hs.parse_ne hgesture heq) hnew, hs.future, ?_,
      fun _ h ↦ (Option.not_mem_none _ h).elim⟩
    change (h.push before).undoStack.length + h.redoStack.length ≤ historyLimit
    have hnone : h.redoStack = [] := hredo
    rw [hnone]
    exact length_push_le before

/-- **Step lemma.** -/
theorem Sound.perform {op : Operation D} {recorded : Bool} (hs : h.Sound json)
    (htidy : Recording.Tidy json ⟨h, recorded⟩ op) : (h.perform json op).Sound json := by
  rcases op with (⟨change, coalesce, clock⟩ | _ | _ | _ | _) | doc
  · exact hs.mutate htidy
  · exact hs.begin_
  · exact hs.end_ htidy
  · exact hs.undo
  · exact hs.redo
  · exact .init doc

/-! ## What `undo` and `redo` reach -/

/-- The limits are kept, and are still so after any `undo` and `redo`. -/
def Lasting (json : JsonText D S) (h : History D S) : Prop :=
  ∀ travels : List (Call D), (∀ c ∈ travels, c.travels = true) → (h.run json travels).Limits json

theorem Sound.lasting (hs : h.Sound json) : h.Lasting json := by
  intro travels htravels
  induction travels generalizing h with
  | nil => exact hs.limits
  | cons c travels ih =>
    obtain ⟨hc, htravels⟩ := List.forall_mem_cons.mp htravels
    refine ih (h := h.call json c) ?_ htravels
    rcases c with ⟨change, coalesce, clock⟩ | _ | _ | _ | _
    · exact absurd hc Bool.false_ne_true
    · exact absurd hc Bool.false_ne_true
    · exact absurd hc Bool.false_ne_true
    · exact hs.undo
    · exact hs.redo

theorem Lasting.undo (hl : h.Lasting json) : (h.undo json).Lasting json :=
  fun travels htravels ↦ hl (.undo :: travels) (List.forall_mem_cons.mpr ⟨rfl, htravels⟩)

theorem Lasting.redo (hl : h.Lasting json) : (h.redo json).Lasting json :=
  fun travels htravels ↦ hl (.redo :: travels) (List.forall_mem_cons.mpr ⟨rfl, htravels⟩)

theorem Lasting.limits (hl : h.Lasting json) : h.Limits json :=
  hl [] fun _ hc ↦ absurd hc List.not_mem_nil

theorem Lasting.past (hl : h.Lasting json) :
    (h.doc :: h.undoStack.map json.parse).IsChain (· ≠ ·) := by
  induction hstack : h.undoStack generalizing h with
  | nil => exact .singleton _
  | cons t stack ih =>
    have hcan : h.canUndo = true := by
      rw [canUndo, hstack]
      rfl
    have hundo : h.undo json = { h with
        undoStack := stack, redoStack := h.snapshot json :: h.redoStack }.restore json t := by
      rw [History.undo, hstack]
    have heffective := hl.limits.effective hcan
    have hrest := ih hl.undo (by rw [hundo]; rfl)
    rw [hundo] at heffective hrest
    exact List.isChain_cons_cons.mpr ⟨heffective.symm, hrest⟩

theorem Lasting.future (hl : h.Lasting json) :
    (h.doc :: h.redoStack.map json.parse).IsChain (· ≠ ·) := by
  induction hstack : h.redoStack generalizing h with
  | nil => exact .singleton _
  | cons t stack ih =>
    have hredo : h.redo json = { h with
        redoStack := stack, undoStack := h.snapshot json :: h.undoStack }.restore json t := by
      rw [History.redo, hstack]
    have hlimits := hl.redo.limits
    have hrest := ih hl.redo (by rw [hredo]; rfl)
    rw [hredo] at hlimits hrest
    -- what has been redone is undone again
    have heffective := hlimits.effective rfl
    rw [History.undo] at heffective
    change json.parse (json.stringify h.doc) ≠ json.parse t at heffective
    rw [json.parse_stringify] at heffective
    exact List.isChain_cons_cons.mpr ⟨heffective, hrest⟩

theorem Lasting.length (hl : h.Lasting json) :
    h.undoStack.length + h.redoStack.length ≤ historyLimit := by
  induction hstack : h.redoStack generalizing h with
  | nil => exact hl.limits.bounded
  | cons t stack ih =>
    have hredo : h.redo json = { h with
        redoStack := stack, undoStack := h.snapshot json :: h.undoStack }.restore json t := by
      rw [History.redo, hstack]
    have hrest := ih hl.redo (by rw [hredo]; rfl)
    rw [hredo] at hrest
    change h.undoStack.length + 1 + stack.length ≤ historyLimit at hrest
    rw [List.length_cons]
    omega

end History

/-! ## Exactness -/

namespace Recording

variable {json : JsonText D S} {r : Recording D S} {op : Operation D}

theorem toHistory_run (travels : List (Call D)) :
    (r.run json (travels.map .call)).toHistory = r.toHistory.run json travels := by
  induction travels generalizing r with
  | nil => rfl
  | cons c travels ih => exact ih

theorem upright_iff_lasting : r.Upright json ↔
    (r.recorded = true → r.redoStack = []) ∧ r.toHistory.Lasting json := by
  constructor
  · intro hupright
    refine ⟨(hupright [] fun _ hc ↦ absurd hc List.not_mem_nil).forgets, fun travels htravels ↦ ?_⟩
    rw [← toHistory_run]
    exact (hupright travels htravels).limits
  · rintro ⟨hforgets, hlasting⟩ travels htravels
    refine ⟨?_, by rw [toHistory_run]; exact hlasting travels htravels⟩
    rcases List.eq_nil_or_concat' travels with rfl | ⟨before, c, rfl⟩
    · exact hforgets
    · -- going back or forth records no step
      intro hrecorded
      rw [List.map_append, run, List.foldl_append] at hrecorded
      have hc := htravels c (List.mem_append_right _ (List.mem_singleton_self c))
      rcases c with ⟨change, coalesce, clock⟩ | _ | _ | _ | _
      · exact absurd hc Bool.false_ne_true
      · exact absurd hc Bool.false_ne_true
      · exact absurd hc Bool.false_ne_true
      · exact absurd hrecorded Bool.false_ne_true
      · exact absurd hrecorded Bool.false_ne_true

theorem redoStack_mutate {h : History D S} {change : D → D} {coalesce : Option String}
    {clock : Clock} (heffect : change h.doc ≠ h.doc) :
    (h.mutate json change coalesce clock).redoStack = [] := by
  rcases hgesture : h.gesture with _ | before
  · rw [History.mutate_of_none heffect hgesture]
  · rw [History.mutate_of_gesture heffect hgesture]

theorem records_end_iff {h : History D S} :
    h.records json (.call .end_) = true ↔
      ∃ before, h.gesture = some before ∧ h.snapshot json ≠ before := by
  rw [History.records, Option.any_eq_true]
  simp only [decide_eq_true_eq]

theorem forgets_step (htidy : r.Tidy json op) (hrecords : (r.step json op).recorded = true) :
    (r.step json op).redoStack = [] := by
  rcases op with (⟨change, coalesce, clock⟩ | _ | _ | _ | _) | doc
  · have heffect : change r.doc ≠ r.doc := by
      intro heq
      have hrecords : r.records json (.call (.mutate change coalesce clock)) = true := hrecords
      rw [History.records, heq] at hrecords
      simp [History.snapshot] at hrecords
    exact redoStack_mutate heffect
  · exact absurd hrecords Bool.false_ne_true
  · obtain ⟨before, hgesture, hne⟩ := records_end_iff.mp hrecords
    change (r.end_ json).redoStack = []
    rw [History.end_of_ne hgesture hne]
    exact (htidy before hgesture hne).1
  · exact absurd hrecords Bool.false_ne_true
  · exact absurd hrecords Bool.false_ne_true
  · exact absurd hrecords Bool.false_ne_true

theorem undoStack_mutate {h : History D S} {change : D → D} {coalesce : Option String}
    {clock : Clock} (heffect : change h.doc ≠ h.doc)
    (hunrecorded : h.gesture.isSome ∨ h.same coalesce clock = true) :
    (h.mutate json change coalesce clock).undoStack = h.undoStack := by
  rcases hgesture : h.gesture with _ | before
  · rw [hgesture, Option.isSome_none, or_iff_right Bool.false_ne_true] at hunrecorded
    rw [History.mutate_of_none heffect hgesture, hunrecorded]
    rfl
  · rw [History.mutate_of_gesture heffect hgesture]

/-- An operation that is not tidy breaks what is kept, at once or later. -/
theorem tidy_of_upright (hupright : (r.step json op).Upright json) : r.Tidy json op := by
  obtain ⟨hforgets, hlasting⟩ := upright_iff_lasting.mp hupright
  have hpast := hlasting.past
  rcases op with (⟨change, coalesce, clock⟩ | _ | _ | _ | _) | doc
  · intro heffect hunrecorded t ht
    change (History.doc (r.mutate json change coalesce clock) ::
      (r.mutate json change coalesce clock).undoStack.map json.parse).IsChain (· ≠ ·) at hpast
    rw [undoStack_mutate heffect hunrecorded, History.mutate_doc, isChain_cons_map_iff] at hpast
    exact hpast.1 t ht
  · trivial
  · intro before hgesture hne
    have hend : (r.step json (.call .end_)).toHistory =
        { r.toHistory.push before with gesture := none, lastCoalesce := none } :=
      History.end_of_ne hgesture hne
    have hredo := hforgets (records_end_iff.mpr ⟨before, hgesture, hne⟩)
    rw [hend] at hredo hpast
    refine ⟨hredo, fun t ht ↦ ?_⟩
    -- the two snapshots on top of the stack
    change (r.doc :: ((before :: r.undoStack).take (99 + 1)).map json.parse).IsChain
      (· ≠ ·) at hpast
    rw [List.take_succ_cons, List.map_cons, List.isChain_cons_cons, isChain_cons_map_iff,
      List.head?_take, if_neg (by decide)] at hpast
    exact hpast.2.1 t ht
  · trivial
  · trivial
  · trivial

/-- **What undo and redo promise holds in every state of a run, and in all that `undo` and `redo`
reach from there, if and only if every operation is tidy.** -/
theorem upright_iff (json : JsonText D S) (doc : D) (ops : List (Operation D)) :
    (∀ past, past <+: ops → (run json ⟨.new json doc, false⟩ past).Upright json) ↔
      ∀ past op, past ++ [op] <+: ops → (run json ⟨.new json doc, false⟩ past).Tidy json op := by
  refine Trace.forall_prefix_iff
    (I := fun r ↦ r.toHistory.Sound json ∧ (r.recorded = true → r.redoStack = [])) ?_ ?_ ?_
    ⟨.init doc, fun h ↦ absurd h Bool.false_ne_true⟩ ops
  · rintro r ⟨hs, hforgets⟩
    exact upright_iff_lasting.mpr ⟨hforgets, hs.lasting⟩
  · rintro r op ⟨hs, -⟩ htidy
    exact ⟨hs.perform htidy, forgets_step htidy⟩
  · intro r op _ htidy hupright
    exact htidy (tidy_of_upright hupright)

/-! ## Three runs -/

/-- A modification that is typed. -/
def typed (b : Bool) : Operation Bool := .call (.mutate (fun _ ↦ b) (some "text") ⟨0, 0⟩)

/-- A modification on its own. -/
def single (b : Bool) : Operation Bool := .call (.mutate (fun _ ↦ b) none ⟨0, 0⟩)

/-- An `undo` in the middle of a gesture. -/
def undoneGesture : List (Operation Bool) := [.call .begin_, .call .undo, .call .end_]

/-- The history of a document that stands for its own text. -/
abbrev ofBool (ops : List (Operation Bool)) : Recording Bool Bool :=
  run (.self Bool) ⟨.new (.self Bool) false, false⟩ ops

/-- **What is typed and erased leaves an `undo` that does nothing; a gesture in which a step is
undone leaves it to be redone; and the undo stack grows where it is redone.** -/
theorem not_upright :
    (¬∀ ops, (ofBool ops).canUndo = true →
        ((ofBool ops).undo (.self Bool)).doc ≠ (ofBool ops).doc) ∧
      (¬∀ ops, (ofBool ops).recorded = true → (ofBool ops).redoStack = []) ∧
      ¬∀ ops, (ofBool ops).undoStack.length ≤ historyLimit := by
  refine ⟨fun h ↦ ?_, fun h ↦ ?_, fun h ↦ ?_⟩
  · exact h [typed true, typed false] (by decide) (by decide)
  · exact absurd (h ([single true] ++ undoneGesture) (by decide)) (by decide)
  · exact absurd (h ((List.replicate 50 [single true, single false]).flatten ++ undoneGesture ++
      [.call .redo])) (by decide +kernel)

end Recording

end Superviseur.Editor
