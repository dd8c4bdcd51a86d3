import Superviseur.Front.EditorIntegrity

/-!
# The property panel

The controls of a widget work on the rules and on the points that were there when the panel was last
built. It is built again when the selection or a number of rules changes, and not when a rule, a
label or a point does: the next control then writes the old arrays back.

Actions on the controls compose if and only if, at each, the arrays that the panel has and those of
the document are the same **but for what the action sets or removes** (`Edited.composed_iff`).
Properties are compared in no order.
-/

namespace Superviseur.Editor

variable {S : Type} {w w' shown : WidgetDef}

/-! ## What the controls read -/

def fieldsOf : JsonData → List (String × JsonData)
  | .obj fields => fields
  | .null | .bool _ | .number _ | .str _ | .arr _ => []

def itemsOf : JsonData → List JsonData
  | .arr items => items
  | .null | .bool _ | .number _ | .str _ | .obj _ => []

def textOf : JsonData → String
  | .str text => text
  | .null | .bool _ | .number _ | .arr _ | .obj _ => ""

/-- The property of an object. -/
def fieldOf (x : JsonData) (key : String) : JsonData := ((fieldsOf x).lookup key).getD .null

def Rule.ofData (x : JsonData) : Rule := ⟨textOf (fieldOf x "when"), fieldsOf (fieldOf x "style")⟩

/-- A point of a trend, with its label. -/
abbrev Entry := List (String × JsonData)

namespace WidgetDef

def rules (w : WidgetDef) : List Rule := (itemsOf (w.get "rules")).map Rule.ofData

/-- `bind.points`. -/
def points (w : WidgetDef) : List Entry :=
  (itemsOf (fieldOf (w.get "bind") "points")).map fieldsOf

end WidgetDef

/-! ## Actions -/

/-- A property set, or deleted: `withKey`, and the label of a point. -/
def withKey (fields : List (String × JsonData)) (key : String) (value : Option JsonData) :
    List (String × JsonData) :=
  match value with
  | none => JsonData.eraseField fields key
  | some value => JsonData.setField fields key value

/-- A control of a rule. -/
inductive RuleEdit
  | when_ (text : String)
  | color (value : Option String)
  | opacity (value : ℚ)

def RuleEdit.apply (rule : Rule) : RuleEdit → Rule
  | when_ text => { rule with when_ := text }
  | color value => { rule with style := withKey rule.style "color" (value.map .str) }
  | opacity value =>
    { rule with style := withKey rule.style "opacity" (some (.number (min 1 (max 0 value)))) }

/-- The rule that is added. -/
def newRule : Rule := ⟨"value > 0", [("color", .str "#ef4444")]⟩

/-- `MAX_SERIES`. -/
def maxSeries : ℕ := 8

/-- An action on a control of the panel. -/
inductive Action
  | editRule (index : ℕ) (edit : RuleEdit)
  | addRule
  | removeRule (index : ℕ)
  | addPoint (id : String)
  | setLabel (index : ℕ) (label : String)
  | removePoint (index : ℕ)

/-- What a control writes. -/
inductive Commit
  | rules (rules : List Rule)
  | points (entries : List Entry)
  | nothing

namespace Action

/-- Whether the panel has the control, when it shows a widget. -/
def displayed (shown : WidgetDef) : Action → Bool
  | editRule index _ | removeRule index => index < shown.rules.length
  | addRule => true
  | addPoint _ => shown.get "type" = .str "trend" ∧ shown.points.length < maxSeries
  | setLabel index _ | removePoint index =>
    shown.get "type" = .str "trend" ∧ index < shown.points.length

/-- What an action writes, from the arrays of a widget. -/
def commit (shown : WidgetDef) : Action → Commit
  | editRule index edit => .rules (shown.rules.modify index edit.apply)
  | addRule => .rules (shown.rules ++ [newRule])
  | removeRule index => .rules (shown.rules.eraseIdx index)
  | addPoint id =>
    if shown.points.any fun e ↦ e.lookup "point" = some (.str id) then .nothing
    else .points (shown.points ++ [[("point", .str id)]])
  | setLabel index label =>
    .points (shown.points.modify index fun e ↦
      withKey e "label" (if label = "" then none else some (.str label)))
  | removePoint index => .points (shown.points.eraseIdx index)

end Action

namespace Commit

/-- What a widget becomes. -/
def apply (w : WidgetDef) : Commit → WidgetDef
  | .rules rs => w.set "rules" (.arr (rs.map Rule.toData))
  | .points entries => (w.setPath "bind.points" (some (.arr (entries.map .obj)))).getD w
  | .nothing => w

/-- The rules that a widget then has. -/
def rulesLeft (w : WidgetDef) : Commit → List Rule
  | .rules rs => rs
  | .points _ | .nothing => w.rules

/-- The points that a widget then has. -/
def pointsLeft (w : WidgetDef) : Commit → List Entry
  | .points entries => entries
  | .rules _ | .nothing => w.points

end Commit

/-! ## The panel -/

/-- What makes the panel be built again when it changes. -/
def signatureOf (s : EditorState S) : List Id × List (Id × ℕ) :=
  (s.selection, s.doc.widgets.map fun w ↦ (w.id, w.rules.length))

/-- The panel: the widget that it shows, as it was when the panel was built. -/
structure Panel (S : Type) where
  editor : EditorState S
  shown : Option WidgetDef
  signature : List Id × List (Id × ℕ)

/-- A commit, in the editor. -/
def EditorState.commit [DecidableEq S] (json : JsonText SynopticDoc S) (s : EditorState S)
    (id : String) (clock : Clock) : Commit → EditorState S
  | .rules rs => s.setRules json id rs clock
  | .points entries => s.setProperty json id "bind.points" (some (.arr (entries.map .obj))) clock
  | .nothing => s

namespace Panel

/-- `render`: one widget that is selected is shown. -/
def render (s : EditorState S) : Panel S where
  editor := s
  shown :=
    match s.selected with
    | [w] => some w
    | _ => none
  signature := signatureOf s

def sync (p : Panel S) : Panel S :=
  if signatureOf p.editor = p.signature then p else render p.editor

variable [DecidableEq S] (json : JsonText SynopticDoc S)

/-- An action on a control, if the panel has it. -/
def act (p : Panel S) (a : Action × Clock) : Panel S :=
  match p.shown with
  | none => p
  | some shown =>
    if a.1.displayed shown then
      let editor := p.editor.commit json (EditorState.idText shown.id) a.2 (a.1.commit shown)
      sync { p with editor := editor }
    else p

def run (s : EditorState S) (actions : List (Action × Clock)) : Panel S :=
  actions.foldl (act json) (render s)

end Panel

/-! ## What the user edits -/

/-- The properties of an object, in no order. -/
abbrev Fields := String → Option JsonData

def viewOf (fields : List (String × JsonData)) : Fields := fun key ↦ fields.lookup key

/-- A rule, as the user sees it. -/
structure RuleView where
  when_ : String
  style : Fields

def Rule.view (r : Rule) : RuleView := ⟨r.when_, viewOf r.style⟩

/-- A widget, as the user sees it. -/
@[ext] structure WidgetView where
  rules : List RuleView
  points : List Fields
  /-- Whether `bind` takes properties: it is no array. -/
  takesPoints : Bool
  /-- What else there is in `bind`. -/
  bind : Fields
  /-- The other properties. -/
  fields : Fields

def WidgetDef.view (w : WidgetDef) : WidgetView where
  rules := w.rules.map Rule.view
  points := w.points.map viewOf
  takesPoints :=
    match w.get "bind" with
    | .arr _ => false
    | .null | .bool _ | .number _ | .str _ | .obj _ => true
  bind key := if key = "points" then none else (fieldsOf (w.get "bind")).lookup key
  fields key := if key = "rules" ∨ key = "bind" then none else w.fields.lookup key

def WidgetView.id (v : WidgetView) : Id := (v.fields "id").getD .null

/-- A document, as the user sees it. -/
structure DocView where
  name : String
  canvas : Canvas
  links : List LinkDef
  widgets : List WidgetView

def SynopticDoc.view (doc : SynopticDoc) : DocView :=
  ⟨doc.name, doc.canvas, doc.links, doc.widgets.map WidgetDef.view⟩

def RuleEdit.onView (r : RuleView) : RuleEdit → RuleView
  | when_ text => { r with when_ := text }
  | color value => { r with style := Function.update r.style "color" (value.map .str) }
  | opacity value =>
    { r with style := Function.update r.style "opacity" (some (.number (min 1 (max 0 value)))) }

namespace Action

/-- The rules, after an action. -/
def onRules (rules : List RuleView) : Action → List RuleView
  | editRule index edit => rules.modify index edit.onView
  | addRule => rules ++ [newRule.view]
  | removeRule index => rules.eraseIdx index
  | addPoint _ | setLabel _ _ | removePoint _ => rules

/-- The points, after an action: a point is added once. -/
def onPoints (points : List Fields) : Action → List Fields
  | editRule _ _ | addRule | removeRule _ => points
  | addPoint id =>
    if points.any fun e ↦ e "point" = some (.str id) then points
    else points ++ [viewOf [("point", .str id)]]
  | setLabel index label =>
    points.modify index fun e ↦
      Function.update e "label" (if label = "" then none else some (.str label))
  | removePoint index => points.eraseIdx index

/-- **What an action means** to a widget. -/
def onWidget (v : WidgetView) (a : Action) : WidgetView :=
  { v with
    rules := a.onRules v.rules
    points := if v.takesPoints then a.onPoints v.points else v.points }

/-- What an action means to a document. -/
def on (a : Action) (id : String) (doc : DocView) : DocView :=
  { doc with widgets := modifyFirst (fun v ↦ v.id = .str id) a.onWidget doc.widgets }

end Action

/-! ## Sessions -/

/-- A panel, and the document that its actions mean. -/
structure Edited (S : Type) where
  panel : Panel S
  meant : DocView

namespace Edited

variable [DecidableEq S] (json : JsonText SynopticDoc S)

def step (e : Edited S) (a : Action × Clock) : Edited S where
  panel := e.panel.act json a
  meant :=
    match e.panel.shown with
    | none => e.meant
    | some shown =>
      if a.1.displayed shown then a.1.on (EditorState.idText shown.id) e.meant else e.meant

def run (s : EditorState S) (actions : List (Action × Clock)) : Edited S :=
  actions.foldl (step json) ⟨.render s, s.doc.view⟩

/-- The document is what the actions mean. -/
def Composed (e : Edited S) : Prop := e.panel.editor.doc.view = e.meant

end Edited

/-! ## Agreement -/

/-- Two arrays are the same, but for an entry. -/
def SameBut {α : Type} (index : ℕ) (captured current : List α) : Prop :=
  ∀ i, i ≠ index → captured[i]? = current[i]?

/-- Two objects are the same, but for a property. -/
def Fields.SameBut (key : String) (captured current : Fields) : Prop :=
  ∀ key', key' ≠ key → captured key' = current key'

/-- Two rules are the same, but for the property that an edit sets. -/
def RuleEdit.SameBut (captured current : RuleView) : RuleEdit → Prop
  | when_ _ => captured.style = current.style
  | color _ => captured.when_ = current.when_ ∧ captured.style.SameBut "color" current.style
  | opacity _ => captured.when_ = current.when_ ∧ captured.style.SameBut "opacity" current.style

/-- A point is among those of a trend. -/
def HasPoint (points : List Fields) (id : String) : Prop :=
  ∃ e ∈ points, e "point" = some (.str id)

/-- The point that is added. -/
def newPoint (id : String) : Fields := viewOf [("point", .str id)]

/-- **The arrays captured and the current ones are the same, but for what an action is about**: the
property that it sets, the entry that it removes, the point that it adds. -/
def Action.Agrees (captured current : WidgetView) : Action → Prop
  | editRule index edit => SameBut index captured.rules current.rules ∧
    Option.Rel edit.SameBut captured.rules[index]? current.rules[index]?
  | addRule => captured.rules = current.rules
  | removeRule index => SameBut index captured.rules current.rules
  | addPoint id => current.takesPoints →
    (HasPoint captured.points id ∧ HasPoint current.points id) ∨
      (¬HasPoint captured.points id ∧ (current.points = captured.points ∨
        current.points = captured.points ++ [newPoint id]))
  | setLabel index _ => current.takesPoints → SameBut index captured.points current.points ∧
    Option.Rel (Fields.SameBut "label") captured.points[index]? current.points[index]?
  | removePoint index => current.takesPoints → SameBut index captured.points current.points

/-- An action on a control that the panel has agrees: the widget shown and that of the document are
the same, but for what it is about. -/
def Panel.Agrees (p : Panel S) (a : Action × Clock) : Prop :=
  ∀ shown ∈ p.shown, a.1.displayed shown →
    ∀ w ∈ p.editor.doc.widget? (EditorState.idText shown.id), a.1.Agrees shown.view w.view

/-! ## What a commit leaves -/

theorem WidgetDef.get_set (key : String) (value : JsonData) :
    (w.set key value).get key = value := by
  rw [get, set, JsonData.lookup_setField_self, Option.getD_some]

theorem WidgetDef.get_set_of_ne {key key' : String} (hne : key' ≠ key) (value : JsonData) :
    (w.set key value).get key' = w.get key' := by
  rw [get, set, JsonData.lookup_setField hne, get]

/-- `bind`, with points. -/
def withPoints (bind : JsonData) (entries : List Entry) : JsonData :=
  match bind with
  | .arr items => .arr items
  | bind => .obj (JsonData.setField (fieldsOf bind) "points" (.arr (entries.map .obj)))

theorem indexOf_points : JsonData.indexOf "points" = none := by
  rw [JsonData.indexOf, Option.filter_eq_none_iff]
  intro n _ htext
  have hrepr : n.repr = "points" := of_decide_eq_true htext
  have hmem : 'p' ∈ Nat.toDigits 10 n := by
    rw [← Nat.toList_repr, hrepr]
    decide
  have hdigit := Nat.isDigit_of_mem_toDigits (by decide) (by decide) hmem
  exact absurd hdigit (by decide)

theorem setPath_points (w : WidgetDef) (entries : List Entry) :
    w.setPath "bind.points" (some (.arr (entries.map .obj))) =
      some (w.set "bind" (withPoints (w.get "bind") entries)) := by
  have hkeys : keysOf "bind.points" = ["bind", "points"] := by decide +kernel
  have hassign (items : List JsonData) :
      (JsonData.arr items).assign "points" (.arr (entries.map .obj)) = some (.arr items) := by
    simp [JsonData.assign, indexOf_points]
  rw [WidgetDef.setPath, hkeys, setPath, setPath, innerOf, JsonData.member, WidgetDef.get]
  cases w.fields.lookup "bind" with
  | none => rfl
  | some bind =>
    cases bind with
    | arr items =>
      simp [setLast, JsonData.isObject, hassign, withPoints, WidgetDef.set]
      rfl
    | null | bool _ | number _ | str _ | obj _ => rfl

theorem view_fields_set {key : String} (hkey : key = "rules" ∨ key = "bind") (value : JsonData) :
    (w.set key value).view.fields = w.view.fields := by
  funext key'
  rw [WidgetDef.view, WidgetDef.view]
  by_cases hleft : key' = "rules" ∨ key' = "bind"
  · exact (if_pos hleft).trans (if_pos hleft).symm
  · have hne : key' ≠ key := by
      rintro rfl
      exact hleft hkey
    exact (if_neg hleft).trans ((JsonData.lookup_setField hne value).trans (if_neg hleft).symm)

theorem view_set_rules (w : WidgetDef) (rs : List Rule) :
    (w.set "rules" (.arr (rs.map Rule.toData))).view =
      { w.view with rules := rs.map Rule.view } := by
  have hbind : (w.set "rules" (.arr (rs.map Rule.toData))).get "bind" = w.get "bind" :=
    WidgetDef.get_set_of_ne (by decide) _
  have hrules : (w.set "rules" (.arr (rs.map Rule.toData))).rules = rs := by
    rw [WidgetDef.rules, WidgetDef.get_set, itemsOf, List.map_map]
    exact List.map_id rs
  refine WidgetView.ext (congrArg (List.map Rule.view) hrules) ?_ ?_ ?_
    (view_fields_set (.inl rfl) _)
  · rw [WidgetDef.view, WidgetDef.points, hbind]
    rfl
  · rw [WidgetDef.view, hbind]
    rfl
  · rw [WidgetDef.view, hbind]
    rfl

theorem view_set_bind (w : WidgetDef) (entries : List Entry) :
    (w.set "bind" (withPoints (w.get "bind") entries)).view =
      { w.view with
        points := if w.view.takesPoints then entries.map viewOf else w.view.points } := by
  have hget := WidgetDef.get_set (w := w) "bind" (withPoints (w.get "bind") entries)
  have hrules : (w.set "bind" (withPoints (w.get "bind") entries)).get "rules" = w.get "rules" :=
    WidgetDef.get_set_of_ne (by decide) _
  refine WidgetView.ext ?_ ?_ ?_ ?_ (view_fields_set (.inr rfl) _)
  · rw [WidgetDef.view, WidgetDef.rules, hrules]
    rfl
  · rw [WidgetDef.view, WidgetDef.points, hget]
    cases hbind : w.get "bind" <;> simp [WidgetDef.view, WidgetDef.points, withPoints, hbind,
      fieldOf, fieldsOf, itemsOf, JsonData.lookup_setField_self, Function.comp_def]
  · rw [WidgetDef.view, hget]
    cases hbind : w.get "bind" <;> simp [WidgetDef.view, withPoints, hbind]
  · funext key
    rw [WidgetDef.view, hget, WidgetDef.view]
    dsimp only
    by_cases hkey : key = "points"
    · rw [if_pos hkey, if_pos hkey]
    · rw [if_neg hkey, if_neg hkey]
      cases w.get "bind" with
      | arr items => rfl
      | null | bool _ | number _ | str _ | obj _ => exact JsonData.lookup_setField hkey _

namespace Commit

/-- **What a commit leaves** of a widget. -/
theorem view_apply (w : WidgetDef) (c : Commit) :
    (c.apply w).view =
      { w.view with
        rules := (c.rulesLeft w).map Rule.view
        points := if w.view.takesPoints then (c.pointsLeft w).map viewOf else w.view.points } := by
  have hpoints : (if w.view.takesPoints then w.points.map viewOf else w.view.points) =
      w.view.points := ite_self _
  cases c with
  | rules rs =>
    rw [apply, view_set_rules, pointsLeft, hpoints]
    rfl
  | points entries =>
    rw [apply, setPath_points, Option.getD_some, view_set_bind]
    rfl
  | nothing =>
    rw [apply, pointsLeft, hpoints]
    rfl

end Commit

/-! ## Arrays that differ in an entry -/

section

variable {α : Type} {xs ys : List α} {i : ℕ} {f : α → α}

theorem modify_eq_modify_iff : xs.modify i f = ys.modify i f ↔
    SameBut i xs ys ∧ Option.Rel (fun x y ↦ f x = f y) xs[i]? ys[i]? := by
  have hentry : f <$> xs[i]? = f <$> ys[i]? ↔ Option.Rel (fun x y ↦ f x = f y) xs[i]? ys[i]? := by
    cases xs[i]? <;> cases ys[i]? <;> simp
  rw [← hentry]
  constructor
  · intro h
    have hget (j : ℕ) : (xs.modify i f)[j]? = (ys.modify i f)[j]? := congrArg (·[j]?) h
    refine ⟨fun j hj ↦ ?_, ?_⟩
    · have hj := hget j
      rwa [List.getElem?_modify_ne f xs (Ne.symm ‹_›), List.getElem?_modify_ne f ys (Ne.symm ‹_›)]
        at hj
    · have hi := hget i
      rwa [List.getElem?_modify_eq, List.getElem?_modify_eq] at hi
  · rintro ⟨hothers, hentry⟩
    refine List.ext_getElem? fun j ↦ ?_
    rcases eq_or_ne i j with rfl | hj
    · rw [List.getElem?_modify_eq, List.getElem?_modify_eq, hentry]
    · rw [List.getElem?_modify_ne f xs hj, List.getElem?_modify_ne f ys hj, hothers j hj.symm]

theorem eraseIdx_eq_eraseIdx_iff : xs.eraseIdx i = ys.eraseIdx i ↔ SameBut i xs ys := by
  constructor
  · intro h j hj
    have hget (j : ℕ) : (xs.eraseIdx i)[j]? = (ys.eraseIdx i)[j]? := congrArg (·[j]?) h
    rcases Nat.lt_or_gt_of_ne hj with hlt | hgt
    · have hj := hget j
      rwa [List.getElem?_eraseIdx_of_lt hlt, List.getElem?_eraseIdx_of_lt hlt] at hj
    · -- what comes after the entry has moved down
      obtain ⟨j, rfl⟩ := Nat.exists_eq_add_of_le' (Nat.one_le_of_lt hgt)
      have hj := hget j
      rwa [List.getElem?_eraseIdx_of_ge (by omega), List.getElem?_eraseIdx_of_ge (by omega)] at hj
  · intro h
    refine List.ext_getElem? fun j ↦ ?_
    rcases Nat.lt_or_ge j i with hlt | hge
    · rw [List.getElem?_eraseIdx_of_lt hlt, List.getElem?_eraseIdx_of_lt hlt, h j hlt.ne]
    · rw [List.getElem?_eraseIdx_of_ge hge, List.getElem?_eraseIdx_of_ge hge, h (j + 1) (by omega)]

end

/-! ## What an action writes -/

theorem viewOf_withKey (fields : List (String × JsonData)) (key : String)
    (value : Option JsonData) :
    viewOf (withKey fields key value) = Function.update (viewOf fields) key value := by
  funext key'
  by_cases hkey : key' = key
  · subst hkey
    rw [Function.update_self]
    cases value with
    | none => exact JsonData.lookup_eraseField_self fields key'
    | some value => exact JsonData.lookup_setField_self fields key' value
  · rw [Function.update_of_ne hkey]
    cases value with
    | none => exact JsonData.lookup_eraseField hkey
    | some value => exact JsonData.lookup_setField hkey value

theorem view_edit (r : Rule) (edit : RuleEdit) : (edit.apply r).view = edit.onView r.view := by
  cases edit with
  | when_ text => rfl
  | color value =>
    exact congrArg (RuleView.mk r.when_) (viewOf_withKey r.style "color" (value.map .str))
  | opacity value =>
    exact congrArg (RuleView.mk r.when_)
      (viewOf_withKey r.style "opacity" (some (.number (min 1 (max 0 value)))))

theorem map_modify {α β : Type} {v : α → β} {f : α → α} {g : β → β} (h : ∀ a, v (f a) = g (v a))
    (as : List α) (i : ℕ) : (as.modify i f).map v = (as.map v).modify i g := by
  induction as generalizing i with
  | nil => simp
  | cons a as ih =>
    cases i with
    | zero => simp [h]
    | succ i => simp [ih]

theorem update_eq_update_iff {captured current : Fields} {key : String} {value : Option JsonData} :
    Function.update captured key value = Function.update current key value ↔
      captured.SameBut key current := by
  rw [Function.update_eq_iff, Function.update_self]
  refine and_iff_right rfl |>.trans (forall₂_congr fun key' hkey ↦ ?_)
  rw [Function.update_of_ne hkey]

theorem onView_eq_onView_iff {captured current : RuleView} {edit : RuleEdit} :
    edit.onView captured = edit.onView current ↔ edit.SameBut captured current := by
  cases edit with
  | when_ text => simp [RuleEdit.onView, RuleEdit.SameBut]
  | color value =>
    simp only [RuleEdit.onView, RuleEdit.SameBut, RuleView.mk.injEq, update_eq_update_iff]
  | opacity value =>
    simp only [RuleEdit.onView, RuleEdit.SameBut, RuleView.mk.injEq, update_eq_update_iff]

theorem any_point_iff {points : List Fields} {id : String} :
    (points.any fun e ↦ e "point" = some (.str id)) = true ↔ HasPoint points id := by
  simp [HasPoint]

theorem hasPoint_append (points : List Fields) (id : String) :
    HasPoint (points ++ [newPoint id]) id :=
  ⟨newPoint id, List.mem_append_right _ (List.mem_singleton_self _), rfl⟩

theorem added_eq_iff {captured current : List Fields} {id : String} :
    (if captured.any fun e ↦ e "point" = some (.str id) then current
        else captured ++ [newPoint id]) = (Action.addPoint id).onPoints current ↔
      (HasPoint captured id ∧ HasPoint current id) ∨ (¬HasPoint captured id ∧
        (current = captured ∨ current = captured ++ [newPoint id])) := by
  rw [Action.onPoints]
  by_cases hcaptured : HasPoint captured id <;> by_cases hcurrent : HasPoint current id
  · rw [if_pos (any_point_iff.mpr hcaptured), if_pos (any_point_iff.mpr hcurrent)]
    simp [hcaptured, hcurrent]
  · rw [if_pos (any_point_iff.mpr hcaptured), if_neg (any_point_iff.not.mpr hcurrent)]
    simp [hcaptured, hcurrent]
  · have hne : current ≠ captured := by
      rintro rfl
      exact hcaptured hcurrent
    rw [if_neg (any_point_iff.not.mpr hcaptured), if_pos (any_point_iff.mpr hcurrent)]
    simp [hcaptured, hne, eq_comm]
  · have hne : current ≠ captured ++ [newPoint id] := by
      rintro rfl
      exact hcurrent (hasPoint_append captured id)
    rw [if_neg (any_point_iff.not.mpr hcaptured), if_neg (any_point_iff.not.mpr hcurrent)]
    refine ((List.append_left_inj _).trans eq_comm).trans ?_
    simp [hcaptured, hne]

/-- What an action writes of the arrays captured is what it means to the current ones if and only if
they agree. -/
theorem view_commit_iff (shown w : WidgetDef) (a : Action) :
    ((a.commit shown).apply w).view = a.onWidget w.view ↔ a.Agrees shown.view w.view := by
  have hparts : ((a.commit shown).apply w).view = a.onWidget w.view ↔
      ((a.commit shown).rulesLeft w).map Rule.view = a.onRules w.view.rules ∧
        (w.view.takesPoints →
          ((a.commit shown).pointsLeft w).map viewOf = a.onPoints w.view.points) := by
    rw [Commit.view_apply, Action.onWidget, WidgetView.ext_iff]
    cases w.view.takesPoints <;> simp
  have hrules : w.rules.map Rule.view = w.view.rules := rfl
  have hpoints : w.points.map viewOf = w.view.points := rfl
  rw [hparts]
  cases a with
  | editRule index edit =>
    refine (and_iff_left fun _ ↦ hpoints).trans ?_
    rw [Action.commit, Commit.rulesLeft,
      map_modify (g := fun r ↦ edit.onView r) fun r ↦ view_edit r edit, Action.onRules,
      modify_eq_modify_iff]
    simp only [onView_eq_onView_iff]
    rfl
  | addRule =>
    refine (and_iff_left fun _ ↦ hpoints).trans ?_
    rw [Action.commit, Commit.rulesLeft, List.map_append]
    exact List.append_left_inj _
  | removeRule index =>
    refine (and_iff_left fun _ ↦ hpoints).trans ?_
    rw [Action.commit, Commit.rulesLeft, ← List.eraseIdx_map]
    exact eraseIdx_eq_eraseIdx_iff
  | addPoint id =>
    have hany : (shown.view.points.any fun e ↦ e "point" = some (.str id)) =
        shown.points.any fun e ↦ e.lookup "point" = some (.str id) := List.any_map
    have hwritten : ((Action.addPoint id).commit shown).rulesLeft w = w.rules ∧
        (((Action.addPoint id).commit shown).pointsLeft w).map viewOf =
          if shown.view.points.any fun e ↦ e "point" = some (.str id) then w.view.points
          else shown.view.points ++ [newPoint id] := by
      rw [Action.commit, hany]
      split
      · exact ⟨rfl, rfl⟩
      · exact ⟨rfl, List.map_append⟩
    rw [hwritten.1, hwritten.2]
    exact (and_iff_right hrules).trans (imp_congr_right fun _ ↦ added_eq_iff)
  | setLabel index label =>
    refine (and_iff_right hrules).trans (imp_congr_right fun _ ↦ ?_)
    rw [Action.commit, Commit.pointsLeft, map_modify (g := fun e ↦ Function.update e "label"
      (if label = "" then none else some (.str label))) fun e ↦ viewOf_withKey e _ _,
      Action.onPoints, modify_eq_modify_iff]
    simp only [update_eq_update_iff]
    rfl
  | removePoint index =>
    refine (and_iff_right hrules).trans (imp_congr_right fun _ ↦ ?_)
    rw [Action.commit, Commit.pointsLeft, ← List.eraseIdx_map]
    exact eraseIdx_eq_eraseIdx_iff

/-! ## One widget of a document -/

section

variable {α β : Type} {v : α → β} {p : α → Bool} {q : β → Bool} {f f' : α → α} {g : β → β}

theorem modifyFirst_congr {as : List α} (h : ∀ a ∈ as.find? p, f a = f' a) :
    modifyFirst p f as = modifyFirst p f' as := by
  induction as with
  | nil => rfl
  | cons a as ih =>
    rw [modifyFirst, modifyFirst]
    rw [List.find?_cons] at h
    cases hp : p a with
    | true =>
      rw [hp] at h
      rw [if_pos rfl, if_pos rfl, h a rfl]
    | false =>
      rw [hp] at h
      rw [if_neg Bool.false_ne_true, if_neg Bool.false_ne_true, ih h]

theorem modifyFirst_id (as : List α) : modifyFirst p (fun a ↦ a) as = as := by
  induction as with
  | nil => rfl
  | cons a as ih =>
    rw [modifyFirst, ih]
    split <;> rfl

theorem map_modifyFirst_iff (hq : ∀ a, q (v a) = p a) (as : List α) :
    (modifyFirst p f as).map v = modifyFirst q g (as.map v) ↔
      ∀ a ∈ as.find? p, v (f a) = g (v a) := by
  induction as with
  | nil => exact iff_of_true rfl fun a ha ↦ nomatch ha
  | cons a as ih =>
    rw [modifyFirst, List.map_cons, modifyFirst, hq, List.find?_cons]
    cases hp : p a with
    | true => simp
    | false => simp [ih]

end

theorem view_update_iff (doc : SynopticDoc) (id : String) (f : WidgetDef → WidgetDef) (a : Action) :
    (doc.update id f).view = a.on id doc.view ↔
      ∀ w ∈ doc.widget? id, (f w).view = a.onWidget w.view := by
  refine Iff.trans ?_ (map_modifyFirst_iff (v := WidgetDef.view) (p := fun w ↦ w.id = .str id)
    (q := fun v ↦ v.id = .str id) (f := f) (g := fun v ↦ a.onWidget v) (fun _ ↦ rfl) doc.widgets)
  rw [SynopticDoc.view, SynopticDoc.update, Action.on, DocView.mk.injEq]
  simp only [SynopticDoc.view, true_and]

variable [DecidableEq S] {json : JsonText SynopticDoc S} {p : Panel S} {a : Action × Clock}

theorem commit_doc (s : EditorState S) (id : String) (clock : Clock) (c : Commit) :
    (s.commit json id clock c).doc = s.doc.update id fun w ↦ c.apply w := by
  have hnone (hfind : s.doc.widget? id = none) (f : WidgetDef → WidgetDef) :
      s.doc.update id f = s.doc := by
    have hkept : modifyFirst (fun w ↦ w.id = .str id) f s.doc.widgets = s.doc.widgets := by
      refine (modifyFirst_congr fun w hw ↦ ?_).trans (modifyFirst_id _)
      rw [SynopticDoc.widget?] at hfind
      exact nomatch hfind.symm.trans hw
    rw [SynopticDoc.update, hkept]
  cases c with
  | rules rs =>
    rw [EditorState.commit, EditorState.setRules]
    split
    · exact (hnone ‹_› _).symm
    · exact History.mutate_doc
  | points entries =>
    rw [EditorState.commit, EditorState.setProperty]
    split
    · exact (hnone ‹_› _).symm
    · rename_i w hw
      rw [setPath_points]
      refine History.mutate_doc.trans ?_
      rw [SynopticDoc.update, SynopticDoc.update]
      refine congrArg (fun ws ↦ { s.doc with widgets := ws }) (modifyFirst_congr fun w' hw' ↦ ?_)
      obtain rfl := Option.some.inj (hw.symm.trans hw')
      rw [Commit.apply, setPath_points, Option.getD_some]
  | nothing =>
    rw [SynopticDoc.update]
    exact congrArg (fun ws ↦ { s.doc with widgets := ws }) (modifyFirst_id s.doc.widgets).symm

namespace Panel

omit [DecidableEq S] in
theorem sync_editor (p : Panel S) : p.sync.editor = p.editor := by
  rw [sync]
  split <;> rfl

theorem act_doc {shown : WidgetDef} (hshown : p.shown = some shown)
    (hdisplayed : a.1.displayed shown) : (p.act json a).editor.doc =
      p.editor.doc.update (EditorState.idText shown.id) fun w ↦ (a.1.commit shown).apply w := by
  rw [act, hshown]
  dsimp only
  rw [if_pos hdisplayed, sync_editor]
  exact commit_doc _ _ _ _

end Panel

namespace Edited

variable {e : Edited S}

/-- **One action**: the document stays what the actions mean if and only if the action agrees. -/
theorem Composed.step_iff (h : e.Composed) : (e.step json a).Composed ↔ e.panel.Agrees a := by
  cases hshown : e.panel.shown with
  | none =>
    -- a panel that shows no widget commits nothing
    refine iff_of_true ?_ fun shown hmem ↦ ?_
    · rw [Composed, step, Panel.act, hshown]
      exact h
    · rw [hshown] at hmem
      exact nomatch hmem
  | some shown =>
    by_cases hdisplayed : a.1.displayed shown
    · have hstep : (e.step json a).Composed ↔
          ∀ w ∈ e.panel.editor.doc.widget? (EditorState.idText shown.id),
            ((a.1.commit shown).apply w).view = a.1.onWidget w.view := by
        rw [Composed, step, Panel.act_doc hshown hdisplayed, hshown]
        dsimp only
        rw [if_pos hdisplayed, ← h, view_update_iff]
      have hagrees : e.panel.Agrees a ↔
          ∀ w ∈ e.panel.editor.doc.widget? (EditorState.idText shown.id),
            a.1.Agrees shown.view w.view := by
        rw [Panel.Agrees, hshown]
        simp [hdisplayed]
      rw [hstep, hagrees]
      exact forall₂_congr fun w _ ↦ view_commit_iff shown w a.1
    -- nor does a control that is not displayed
    · refine iff_of_true ?_ fun shown' hmem hdisplayed' ↦ ?_
      · rw [Composed, step, Panel.act, hshown]
        dsimp only
        rw [if_neg hdisplayed, if_neg hdisplayed]
        exact h
      · obtain rfl := Option.some.inj (hshown.symm.trans hmem)
        exact absurd hdisplayed' hdisplayed

/-- **When actions compose**: if and only if, at each, the arrays that the panel has and those of
the document are the same but for what the action is about. -/
theorem composed_iff (json : JsonText SynopticDoc S) (s : EditorState S)
    (actions : List (Action × Clock)) :
    (∀ past, past <+: actions → (run json s past).Composed) ↔
      ∀ past a, past ++ [a] <+: actions → (run json s past).panel.Agrees a := by
  have hstart : (⟨.render s, s.doc.view⟩ : Edited S).Composed := rfl
  exact Trace.forall_prefix_iff (I := Composed) (P := Composed) (C := fun e a ↦ e.panel.Agrees a)
    (fun h ↦ h) (fun h hagrees ↦ h.step_iff.mpr hagrees)
    (fun h hagrees hstep ↦ hagrees (h.step_iff.mp hstep)) hstart actions

end Edited

/-! ## A condition that comes back -/

/-- A widget that is selected, with one rule. -/
def oneRule : EditorState SynopticDoc :=
  (EditorState.new (.self SynopticDoc)
    { newDoc "Vue" with
      widgets := [⟨[("id", .str "w1"), ("rules", .arr [newRule.toData])]⟩] }).select
    [.str "w1"] false

/-- The conditions of the rules of a document. -/
def conditions (doc : DocView) : List (List String) :=
  doc.widgets.map fun w ↦ w.rules.map RuleView.when_

/-- **The opacity of a rule takes back its condition.** -/
theorem not_composed : ¬∀ (s : EditorState SynopticDoc) (actions : List (Action × Clock)),
    ∀ past, past <+: actions → (Edited.run (.self SynopticDoc) s past).Composed := by
  intro h
  have hcomposed := h oneRule
    [(.editRule 0 (.when_ "value > 28"), ⟨0, 0⟩), (.editRule 0 (.opacity (1 / 2)), ⟨1000, 1000⟩)]
    _ (List.prefix_refl _)
  exact absurd (congrArg conditions hcomposed) (by decide +kernel)

end Superviseur.Editor
