import Superviseur.Api.Validated
import Superviseur.Library.Attempt

/-!
# The exceptions of validation

The validators of a document are run by a library that turns a `ValueError` into an error of the
document; any other exception goes through it, and the request fails. This is the validation of
`DocumentSchema` with these exceptions kept apart: `bind.points` is gone over whatever its type, a
text is made of any value, and the calls of the interpreter may nest too deep.

`Harmless` says for which documents validation answers, with the document or with a refusal.
-/

namespace Superviseur

/-- An exception of the program. -/
inductive Exn where
  | valueError (msg : String)
  | typeError (msg : String)
  | recursionError

/-- What the interpreter bounds, and what is left to the library. -/
structure Limits where
  /-- How deep the lists and objects that `json.dumps` writes may nest. -/
  dumps : ℕ
  /-- How deep the calls of `str` may nest. -/
  str : ℕ
  /-- How many digits an `int` may have that is written. -/
  digits : ℕ
  /-- How many items are validated of a list that is too long, its length being at most so much. -/
  tried : ℕ → ℕ

namespace Schema.Widget

/-- The fields of a widget, before `_properties`. -/
def read (env : SchemaEnv) (fields : Dict) : Checked Widget :=
  ofFields (extraOf fields)
    <$> field fields "id" none (fun raw ↦ (strField raw).andThen (.check (raising checkId)))
    <*> field fields "type" none (fun raw ↦ (strField raw).andThen (.check (raising checkType)))
    <*> field fields "x" none (floatField env (-10000) 20000)
    <*> field fields "y" none (floatField env (-10000) 20000)
    <*> field fields "w" none (floatField env 1 20000)
    <*> field fields "h" none (floatField env 1 20000)
    <*> field fields "bind" (some []) dictField
    <*> field fields "style" (some []) styleField
    <*> field fields "rules" (some []) (listField maxRules (Rule.validate env))

theorem validate_obj (env : SchemaEnv) (fields : Dict) : validate env (.obj fields) =
    (read env fields).andThen (.check (raising fun w ↦ w.toWidgetDef.properties env.texts)) := rfl

end Schema.Widget

namespace Exceptions

variable (env : RequestEnv) (limits : Limits)

/-- `len(json.dumps(x, separators=(",", ":")))`. -/
def dumpsLength (x : Json) : Except Exn ℕ :=
  if limits.dumps < Json.nesting 0 x then .error .recursionError
  else if x.shortInts limits.digits then .ok (Superviseur.dumpsLength env.floatLength x)
  else .error (.valueError "Exceeds the limit for integer string conversion")

/-- How deep the calls of `str(x)` nest; a text is itself. -/
def strDepth : Json → ℕ
  | .str _ => 0
  | x => x.nesting 1

/-- `str(x)`. -/
def str (x : Json) : Except Exn String :=
  if limits.str < strDepth x then .error .recursionError else .ok (x.toStr env.schema.texts)

/-- The items `for item in x` goes over. -/
def iterate (x : Json) : Except Exn (List Json) := x.iterate.mapError .typeError

/-! ## The validators -/

/-- A validator that raises nothing but `ValueError`. -/
def ofValueError (validator : Except String Unit) : Except Exn Unit :=
  validator.mapError .valueError

/-- `_check_uuid`. -/
def checkUuid (place : String) (value : Json) : Except Exn Unit := do
  let text ← str env limits value
  match UuidText.read text with
  | some _ => .ok ()
  | none => .error (.valueError (place ++ " : identifiant de point invalide"))

/-- The check of `bind.point`. -/
def checkPoint (w : WidgetDef) : Except Exn Unit :=
  match w.bind.get "point" with
  | .null => .ok ()
  | point => checkUuid env limits w.place point

/-- The checks of `bind.points`. -/
def checkPoints (w : WidgetDef) : Except Exn Unit := do
  let points ← iterate ((w.bind.lookup "points").getD (.arr []))
  points.forM fun entry ↦ checkUuid env limits w.place (entryPoint entry)
  if 8 < points.length then .error (.valueError (w.place ++ " : 8 points au plus par courbe"))
  else .ok ()

/-- `_properties`. -/
def properties (w : WidgetDef) : Except Exn Unit := do
  checkPoint env limits w
  checkPoints env limits w
  ofValueError w.checkSrc
  ofValueError w.checkTarget

/-- `_when`. -/
def checkWhen (value : String) : Except Exn Unit :=
  match SynopticExpr.checkExpression env.schema.frames value with
  | .ok () => .ok ()
  | .error (.expressionError msg) =>
    .error (.valueError ("expression de règle invalide : " ++ msg))
  | .error .recursionError => .error .recursionError

/-! ## Validation -/

open Schema

/-- A part of a document under validation. -/
abbrev Tried (α : Type) := Attempt Exn FieldError α

/-- A validator of the program: the library takes its `ValueError` for an error of the document. -/
def raising {α : Type} (validator : α → Except Exn Unit) (a : α) :
    Except Exn (Option FieldError) :=
  match validator a with
  | .ok () => .ok none
  | .error (.valueError msg) => .ok (some ⟨[], "Value error, " ++ msg⟩)
  | .error e => .error e

def within {α : Type} (key : String) (x : Tried α) : Tried α :=
  x.mapErrors fun e ↦ { e with loc := key :: e.loc }

/-- A field of a model. -/
def field {α : Type} (fields : Dict) (key : String) (default : Option α)
    (validate : Json → Tried α) : Tried α :=
  match fields.lookup key, default with
  | some raw, _ => within key (validate raw)
  | none, some a => .settled (.valid a)
  | none, none => .settled (.invalid [⟨[key], "Field required"⟩])

def listField {α : Type} (max : ℕ) (item : Json → Tried α) : Json → Tried (List α)
  | .arr items =>
    if max < items.length then
      (Attempt.all (fun i raw ↦ within (toString i) (item raw))
        (items.take (limits.tried max))).before
        (.settled (refuse
          s!"List should have at most {max} items after validation, not {items.length}"))
    else Attempt.all (fun i raw ↦ within (toString i) (item raw)) items
  | _ => .settled (refuse "Input should be a valid list")

namespace Rule

def validate : Json → Tried Schema.Rule
  | .obj fields =>
    (Rule.mk <$> field fields "when" none
        (fun raw ↦ (Attempt.settled ((strField raw).andThen (.check (lengthError 1 200)))).andThen
          (.check (raising (checkWhen env))))
      <*> field fields "style" (some []) (fun raw ↦ .settled (styleField raw)))
      <* .settled (forbidExtra Rule.fieldNames fields)
  | _ => .settled (refuse "Input should be a valid dictionary or instance of Rule")

end Rule

namespace Widget

/-- The fields of a widget, before `_properties`. -/
def read (fields : Dict) : Tried Schema.Widget :=
  Widget.ofFields (Widget.extraOf fields)
    <$> .settled (Schema.field fields "id" none
      fun raw ↦ (strField raw).andThen (.check (Schema.raising Widget.checkId)))
    <*> .settled (Schema.field fields "type" none
      fun raw ↦ (strField raw).andThen (.check (Schema.raising Widget.checkType)))
    <*> .settled (Schema.field fields "x" none (floatField env.schema (-10000) 20000))
    <*> .settled (Schema.field fields "y" none (floatField env.schema (-10000) 20000))
    <*> .settled (Schema.field fields "w" none (floatField env.schema 1 20000))
    <*> .settled (Schema.field fields "h" none (floatField env.schema 1 20000))
    <*> .settled (Schema.field fields "bind" (some []) dictField)
    <*> .settled (Schema.field fields "style" (some []) styleField)
    <*> field fields "rules" (some []) (listField limits maxRules (Rule.validate env))

def validate : Json → Tried Schema.Widget
  | .obj fields => (read env limits fields).andThen
      (.check (raising fun w ↦ properties env limits w.toWidgetDef))
  | _ => .settled (refuse "Input should be a valid dictionary or instance of Widget")

end Widget

/-- `validate_document`. -/
def validateDocument (fields : Dict) : Tried Schema.SynopticDoc :=
  ((Schema.SynopticDoc.mk
      <$> .settled (Schema.field fields (Schema.SynopticDoc.schemaKey fields) (some schemaVersion)
        fun raw ↦ (readInt env.schema raw).andThen
          (.check (Schema.raising Schema.SynopticDoc.checkSchema)))
      <*> .settled (Schema.field fields "name" none
        fun raw ↦ (strField raw).andThen (.check (lengthError 1 255)))
      <*> .settled (Schema.field fields "canvas" (some Canvas.default) (Canvas.validate env.schema))
      <*> field fields "widgets" (some [])
        (listField limits maxWidgets (Widget.validate env limits))
      <*> .settled (Schema.field fields "links" (some [])
        (Schema.listField maxWidgets Link.validate)))
      <* .settled (forbidExtra (Schema.SynopticDoc.fieldNames fields) fields)).andThen
        fun doc ↦ .settled (.check (Schema.raising Schema.SynopticDoc.checkReferences) doc)

/-- `_validated`: the document or the refusal, unless an exception escapes. -/
def validated (raw : Dict) : Except Exn (Except Rejection Schema.SynopticDoc) := do
  let length ← dumpsLength env limits (.obj raw)
  if maxDocBytes < length then .ok (.error .tooLarge)
  else
    match validateDocument env limits raw with
    | .settled (.valid doc) => .ok (.ok doc)
    | .settled (.invalid errors) => .ok (.error (.invalid errors))
    | .raised e => .error e

/-! ## Exceptions that are no refusal -/

/-- The validator raises as `v` does under the condition `P`, and otherwise an exception that the
library does not catch. -/
structure Raises (x : Except Exn Unit) (v : Except String Unit) (P : Prop) : Prop where
  agrees : P → x = ofValueError v
  escapes : ¬ P → ∃ e, x = .error e ∧ ∀ msg, e ≠ .valueError msg

namespace Raises

variable {x y : Except Exn Unit} {v w : Except String Unit} {P Q : Prop}

theorem congr (h : Raises x v P) (hP : P ↔ Q) : Raises x v Q :=
  ⟨fun hQ ↦ h.agrees (hP.mpr hQ), fun hQ ↦ h.escapes fun p ↦ hQ (hP.mp p)⟩

theorem of_eq (hx : x = ofValueError v) (hP : P) : Raises x v P :=
  ⟨fun _ ↦ hx, fun h ↦ absurd hP h⟩

theorem bind (hx : Raises x v P) (hy : Raises y w Q) :
    Raises (x >>= fun _ ↦ y) (v >>= fun _ ↦ w) (P ∧ (v = .ok () → Q)) := by
  constructor
  · rintro ⟨hP, hQ⟩
    rw [hx.agrees hP]
    match v with
    | .ok () => exact hy.agrees (hQ rfl)
    | .error msg => rfl
  · intro h
    by_cases hP : P
    · obtain ⟨rfl, hQ⟩ : v = .ok () ∧ ¬ Q := by
        by_contra hnone
        exact h ⟨hP, fun hv ↦ by_contra fun hQ ↦ hnone ⟨hv, hQ⟩⟩
      rw [hx.agrees hP]
      exact hy.escapes hQ
    · obtain ⟨e, rfl, he⟩ := hx.escapes hP
      exact ⟨e, rfl, he⟩

theorem forM {α : Type} {f : α → Except Exn Unit} {g : α → Except String Unit} {R : α → Prop}
    (h : ∀ a, Raises (f a) (g a) (R a)) (as : List α) :
    Raises (as.forM f) (as.forM g)
      (∀ before a after, as = before ++ a :: after → (∀ b ∈ before, g b = .ok ()) → R a) := by
  induction as with
  | nil => exact ⟨fun _ ↦ rfl, fun hnone ↦ absurd (by simp) hnone⟩
  | cons a as ih =>
    refine ((h a).bind ih).congr ⟨?_, fun hall ↦ ⟨hall [] a as rfl (by simp), ?_⟩⟩
    · rintro ⟨ha, has⟩ before b after heq hbefore
      cases before with
      | nil =>
        obtain ⟨rfl, rfl⟩ := List.cons.inj heq
        exact ha
      | cons a' before =>
        obtain ⟨rfl, hrest⟩ := List.cons.inj heq
        exact has (hbefore _ List.mem_cons_self) before b after hrest
          fun c hc ↦ hbefore c (List.mem_cons_of_mem _ hc)
    · rintro ha before b after rfl hbefore
      exact hall (a :: before) b after rfl (List.forall_mem_cons.mpr ⟨ha, hbefore⟩)

theorem check {α : Type} {f : α → Except Exn Unit} {g : α → Except String Unit} {a : α}
    (h : Raises (f a) (g a) P) :
    Attempt.Settles (Attempt.check (raising f) a) (Validation.check (Schema.raising g) a) P := by
  refine .check (fun hP ↦ ?_) fun hP ↦ ?_
  · rw [raising, h.agrees hP, Schema.raising]
    match g a with
    | .ok () => rfl
    | .error msg => rfl
  · obtain ⟨e, he, hkind⟩ := h.escapes hP
    rw [raising, he]
    match e with
    | .valueError msg => exact absurd rfl (hkind msg)
    | .typeError msg => exact ⟨_, rfl⟩
    | .recursionError => exact ⟨_, rfl⟩

end Raises

/-! ## The validators and their exceptions -/

variable {env limits}

/-- The value is a text that `uuid.UUID` reads, or is written as one. -/
def Identifies (env : RequestEnv) (x : Json) : Prop :=
  ∃ u, UuidText.read (x.toStr env.schema.texts) = some u

/-- What a widget is bound to can be gone over. -/
structure BindHarmless (env : RequestEnv) (limits : Limits) (bind : Dict) : Prop where
  point : bind.get "point" ≠ .null → strDepth (bind.get "point") ≤ limits.str
  iterable : (bind.get "point" ≠ .null → Identifies env (bind.get "point")) →
    ∀ points, bind.lookup "points" = some points → points.typeName ∈ ["list", "str", "dict"]
  entries : (bind.get "point" ≠ .null → Identifies env (bind.get "point")) →
    ∀ points items, bind.lookup "points" = some points → points.iterate = .ok items →
      ∀ before entry after, items = before ++ entry :: after →
        (∀ other ∈ before, Identifies env (entryPoint other)) →
          strDepth (entryPoint entry) ≤ limits.str

theorem checkUuid_eq_ok_iff {place : String} {x : Json} :
    Superviseur.checkUuid env.schema.texts place x = .ok () ↔ Identifies env x := by
  rw [Superviseur.checkUuid, Identifies]
  cases UuidText.read (x.toStr env.schema.texts) with
  | none => simp
  | some u => exact ⟨fun _ ↦ ⟨u, rfl⟩, fun _ ↦ rfl⟩

theorem raises_checkUuid (place : String) (x : Json) :
    Raises (checkUuid env limits place x) (Superviseur.checkUuid env.schema.texts place x)
      (strDepth x ≤ limits.str) := by
  constructor
  · intro h
    rw [checkUuid, str, if_neg h.not_gt, Superviseur.checkUuid]
    change (match UuidText.read (x.toStr env.schema.texts) with
      | some _ => Except.ok ()
      | none => Except.error _) = _
    cases UuidText.read (x.toStr env.schema.texts) with
    | none => rfl
    | some u => rfl
  · intro h
    rw [checkUuid, str, if_pos (Nat.lt_of_not_le h)]
    exact ⟨_, rfl, by simp⟩

theorem raises_checkPoint (w : WidgetDef) :
    Raises (checkPoint env limits w) (w.checkPoint env.schema.texts)
      (w.bind.get "point" ≠ .null → strDepth (w.bind.get "point") ≤ limits.str) := by
  rw [checkPoint, WidgetDef.checkPoint]
  cases hpoint : w.bind.get "point" with
  | null => exact .of_eq rfl fun h ↦ absurd rfl h
  | _ => exact (raises_checkUuid _ _).congr (by simp)

theorem checkPoint_eq_ok_iff {w : WidgetDef} : w.checkPoint env.schema.texts = .ok () ↔
    (w.bind.get "point" ≠ .null → Identifies env (w.bind.get "point")) := by
  rw [WidgetDef.checkPoint]
  cases hpoint : w.bind.get "point" with
  | null => simp
  | _ =>
    rw [checkUuid_eq_ok_iff]
    simp

theorem iterate_cases (x : Json) :
    (x.typeName ∈ ["list", "str", "dict"] ∧ ∃ items, x.iterate = .ok items) ∨
      (x.typeName ∉ ["list", "str", "dict"] ∧ ∃ msg, x.iterate = .error msg) := by
  cases x with
  | arr items => exact .inl ⟨by simp [Json.typeName], _, rfl⟩
  | str s => exact .inl ⟨by simp [Json.typeName], _, rfl⟩
  | obj fields => exact .inl ⟨by simp [Json.typeName], _, rfl⟩
  | null => exact .inr ⟨by simp [Json.typeName], _, rfl⟩
  | bool b => exact .inr ⟨by simp [Json.typeName], _, rfl⟩
  | int n => exact .inr ⟨by simp [Json.typeName], _, rfl⟩
  | float x => exact .inr ⟨by simp [Json.typeName], _, rfl⟩

theorem raises_checkPoints (w : WidgetDef) :
    Raises (checkPoints env limits w) (w.checkPoints env.schema.texts)
      (∀ points, w.bind.lookup "points" = some points →
        points.typeName ∈ ["list", "str", "dict"] ∧
          ∀ items, points.iterate = .ok items →
            ∀ before entry after, items = before ++ entry :: after →
              (∀ other ∈ before, Identifies env (entryPoint other)) →
                strDepth (entryPoint entry) ≤ limits.str) := by
  have hitems : ∀ items : List Json, Raises
      (do
        items.forM fun entry ↦ checkUuid env limits w.place (entryPoint entry)
        if 8 < items.length
        then .error (.valueError (w.place ++ " : 8 points au plus par courbe")) else .ok ())
      (do
        items.forM fun entry ↦ Superviseur.checkUuid env.schema.texts w.place (entryPoint entry)
        if 8 < items.length
        then .error (w.place ++ " : 8 points au plus par courbe") else .ok ())
      (∀ before entry after, items = before ++ entry :: after →
        (∀ other ∈ before, Identifies env (entryPoint other)) →
          strDepth (entryPoint entry) ≤ limits.str) := by
    intro items
    have hlast : Raises
        (if 8 < items.length
          then .error (.valueError (w.place ++ " : 8 points au plus par courbe")) else .ok ())
        (if 8 < items.length
          then .error (w.place ++ " : 8 points au plus par courbe") else .ok ()) True := by
      split
      · exact .of_eq rfl trivial
      · exact .of_eq rfl trivial
    refine ((Raises.forM (fun entry ↦ raises_checkUuid w.place (entryPoint entry)) items).bind
      hlast).congr ?_
    simp [checkUuid_eq_ok_iff]
  rw [checkPoints, WidgetDef.checkPoints]
  cases hpoints : w.bind.lookup "points" with
  -- without the field there is nothing to check
  | none => exact (hitems []).congr (by simp)
  | some points =>
    rw [Option.getD_some, iterate]
    rcases iterate_cases points with ⟨htype, items, heq⟩ | ⟨htype, msg, heq⟩
    · rw [heq]
      refine (hitems items).congr ?_
      simp only [Option.some.injEq, forall_eq', heq, Except.ok.injEq]
      exact ⟨fun h ↦ ⟨htype, h⟩, fun h ↦ h.2⟩
    · rw [heq]
      refine ⟨fun h ↦ absurd (h points rfl).1 htype, fun _ ↦ ⟨_, rfl, by simp⟩⟩

theorem raises_properties (w : WidgetDef) :
    Raises (properties env limits w) (w.properties env.schema.texts)
      (BindHarmless env limits w.bind) := by
  have hsrc : Raises (ofValueError w.checkSrc) w.checkSrc True := .of_eq rfl trivial
  have htarget : Raises (ofValueError w.checkTarget) w.checkTarget True := .of_eq rfl trivial
  refine ((raises_checkPoint w).bind ((raises_checkPoints w).bind (hsrc.bind htarget))).congr ?_
  rw [checkPoint_eq_ok_iff]
  constructor
  · rintro ⟨hpoint, hrest⟩
    exact ⟨hpoint, fun hid points hpoints ↦ ((hrest hid).1 points hpoints).1,
      fun hid points items hpoints ↦ ((hrest hid).1 points hpoints).2 items⟩
  · exact fun h ↦ ⟨h.point, fun hid ↦ ⟨fun points hpoints ↦ ⟨h.iterable hid points hpoints,
      fun items ↦ h.entries hid points items hpoints⟩, by simp⟩⟩

theorem raises_checkWhen (text : String) :
    Raises (checkWhen env text) (Schema.Rule.checkWhen env.schema text)
      (¬ SynopticExpr.NestsTooDeep env.schema.frames text) := by
  rw [← SynopticExpr.checkExpression_eq_recursionError_iff, checkWhen, Schema.Rule.checkWhen]
  match SynopticExpr.checkExpression env.schema.frames text with
  | .ok () => exact .of_eq rfl nofun
  | .error (.expressionError msg) => exact .of_eq rfl nofun
  | .error .recursionError => exact ⟨fun h ↦ absurd rfl h, fun _ ↦ ⟨_, rfl, by simp⟩⟩

/-! ## Documents -/

open Attempt

/-- Whether the expression of the rule may be read. -/
def RuleHarmless (env : RequestEnv) (raw : Json) : Prop :=
  ∀ fields text, raw = .obj fields → fields.lookup "when" = some (.str text) →
    lengthError 1 200 text = none → ¬ SynopticExpr.NestsTooDeep env.schema.frames text

/-- The items of a list that are validated. -/
def triedItems (limits : Limits) (max : ℕ) (items : List Json) : List Json :=
  if max < items.length then items.take (limits.tried max) else items

theorem settles_field {α : Type} {fields : Dict} {key : String} {default : Option α}
    {f : Json → Tried α} {g : Json → Checked α} {R : Json → Prop}
    (h : ∀ raw, Settles (f raw) (g raw) (R raw)) :
    Settles (field fields key default f) (Schema.field fields key default g)
      (∀ raw, fields.lookup key = some raw → R raw) := by
  unfold field Schema.field
  cases fields.lookup key with
  | some raw => exact ((h raw).mapErrors _).congr (by simp)
  | none =>
    cases default with
    | some a => exact .of_eq rfl nofun
    | none => exact .of_eq rfl nofun

theorem settles_listField {α : Type} {max : ℕ} {f : Json → Tried α} {g : Json → Checked α}
    {R : Json → Prop} (h : ∀ raw, Settles (f raw) (g raw) (R raw)) (raw : Json) :
    Settles (listField limits max f raw) (Schema.listField max g raw)
      (∀ items, raw = .arr items → ∀ x ∈ triedItems limits max items, R x) := by
  have hall : ∀ items : List Json,
      Settles (Attempt.all (fun i raw ↦ within (toString i) (f raw)) items)
        (Validation.all (fun i raw ↦ Schema.within (toString i) (g raw)) items)
        (∀ x ∈ items, R x) := Settles.all fun i x ↦ (h x).mapErrors _
  unfold listField Schema.listField
  match raw with
  | .arr items =>
    simp only [triedItems, Json.arr.injEq, forall_eq']
    split
    · exact ((hall _).before (.of_eq rfl trivial)).congr (and_iff_left trivial)
    · exact hall _
  | .null | .bool _ | .int _ | .float _ | .str _ | .obj _ => exact .of_eq rfl nofun

theorem settles_rule (raw : Json) :
    Settles (Rule.validate env raw) (Schema.Rule.validate env.schema raw)
      (RuleHarmless env raw) := by
  cases raw with
  | obj fields =>
    have hwhen : Settles
        (field fields "when" none fun raw ↦
          (Attempt.settled ((strField raw).andThen (.check (lengthError 1 200)))).andThen
            (.check (raising (checkWhen env))))
        (Schema.field fields "when" none fun raw ↦
          ((strField raw).andThen (.check (lengthError 1 200))).andThen
            (.check (Schema.raising (Schema.Rule.checkWhen env.schema))))
        _ :=
      settles_field fun raw ↦ Settles.andThen (.of_eq rfl trivial) fun text ↦
        (raises_checkWhen text).check
    have hstyle : Settles (field fields "style" (some []) fun raw ↦ .settled (styleField raw))
        (Schema.field fields "style" (some []) styleField) _ :=
      settles_field fun raw ↦ .of_eq rfl trivial
    refine (((hwhen.map Schema.Rule.mk).seq hstyle).seqLeft (.of_eq rfl trivial)).congr ?_
    simp only [RuleHarmless, Validation.andThen_eq_valid_iff, Validation.check_eq_valid_iff]
    constructor
    · rintro ⟨⟨hharmless, -⟩, -⟩ fields' text heq hlookup hlength
      obtain rfl := Json.obj.inj heq
      exact (hharmless _ hlookup).2 text ⟨text, rfl, hlength, rfl⟩
    · intro h
      refine ⟨⟨fun raw hlookup ↦ ⟨trivial, ?_⟩, fun _ _ ↦ trivial⟩, trivial⟩
      rintro text ⟨text', hraw, hlength, rfl⟩
      cases raw with
      | str text' =>
        obtain rfl := Validation.valid_inj.mp hraw
        exact h fields text' rfl hlookup hlength
      | null | bool _ | int _ | float _ | arr _ | obj _ => simp [strField, refuse] at hraw
  | null | bool _ | int _ | float _ | str _ | arr _ =>
    exact .of_eq rfl fun fields text heq ↦ absurd heq (by simp)

/-- Whether the expressions of the widget may be read, and what it is bound to gone over. -/
structure WidgetHarmless (env : RequestEnv) (limits : Limits) (raw : Json) : Prop where
  rules : ∀ fields rules, raw = .obj fields → fields.lookup "rules" = some (.arr rules) →
    ∀ rule ∈ triedItems limits maxRules rules, RuleHarmless env rule
  bind : ∀ fields w, raw = .obj fields → Schema.Widget.read env.schema fields = .valid w →
    BindHarmless env limits w.bind

theorem settles_read (fields : Dict) :
    Settles (Widget.read env limits fields) (Schema.Widget.read env.schema fields)
      (∀ rules, fields.lookup "rules" = some (.arr rules) →
        ∀ rule ∈ triedItems limits maxRules rules, RuleHarmless env rule) := by
  have hplain : ∀ {α : Type} (v : Checked α), Settles (.settled v : Tried α) v True :=
    fun v ↦ .of_eq rfl trivial
  have hrules : Settles
      (field fields "rules" (some []) (listField limits maxRules (Rule.validate env)))
      (Schema.field fields "rules" (some [])
        (Schema.listField maxRules (Schema.Rule.validate env.schema))) _ :=
    settles_field (settles_listField settles_rule)
  refine (((((((((hplain _).map _).seq (hplain _)).seq (hplain _)).seq (hplain _)).seq
    (hplain _)).seq (hplain _)).seq (hplain _)).seq (hplain _)).seq hrules |>.congr ?_
  constructor
  · rintro ⟨-, h⟩ rules hlookup
    exact h _ hlookup rules rfl
  · refine fun h ↦ ⟨by simp, ?_⟩
    rintro _ hlookup rules rfl
    exact h rules hlookup

theorem settles_widget (raw : Json) :
    Settles (Widget.validate env limits raw) (Schema.Widget.validate env.schema raw)
      (WidgetHarmless env limits raw) := by
  match raw with
  | .obj fields =>
    have hcheck : ∀ w : Schema.Widget,
        Settles (Attempt.check (raising fun w ↦ properties env limits w.toWidgetDef) w)
          (Validation.check
            (Schema.raising fun w ↦ w.toWidgetDef.properties env.schema.texts) w)
          (BindHarmless env limits w.bind) := fun w ↦
      Raises.check (f := fun w : Schema.Widget ↦ properties env limits w.toWidgetDef)
        (g := fun w : Schema.Widget ↦ w.toWidgetDef.properties env.schema.texts)
        (raises_properties w.toWidgetDef)
    rw [Schema.Widget.validate_obj]
    refine ((settles_read fields).andThen hcheck).congr ⟨fun h ↦ ?_, fun h ↦ ?_⟩
    · constructor
      · rintro fields' rules heq
        obtain rfl := Json.obj.inj heq
        exact h.1 rules
      · rintro fields' w heq
        obtain rfl := Json.obj.inj heq
        exact h.2 w
    · exact ⟨fun rules ↦ h.rules fields rules rfl, fun w ↦ h.bind fields w rfl⟩
  | .null | .bool _ | .int _ | .float _ | .str _ | .arr _ =>
    exact .of_eq rfl ⟨fun _ _ h ↦ (nomatch h), fun _ _ h ↦ (nomatch h)⟩

theorem settles_document (fields : Dict) :
    Settles (validateDocument env limits fields)
      (Superviseur.validateDocument env.schema fields)
      (∀ items, fields.lookup "widgets" = some (.arr items) →
        ∀ x ∈ triedItems limits maxWidgets items, WidgetHarmless env limits x) := by
  have hplain : ∀ {α : Type} (v : Checked α), Settles (.settled v : Tried α) v True :=
    fun v ↦ .of_eq rfl trivial
  have hwidgets : Settles
      (field fields "widgets" (some []) (listField limits maxWidgets (Widget.validate env limits)))
      (Schema.field fields "widgets" (some [])
        (Schema.listField maxWidgets (Schema.Widget.validate env.schema))) _ :=
    settles_field (settles_listField settles_widget)
  refine (((((((hplain _).map _).seq (hplain _)).seq (hplain _)).seq hwidgets).seq
    (hplain _)).seqLeft (hplain _)).andThen (fun doc ↦ hplain _) |>.congr ?_
  constructor
  · rintro ⟨⟨⟨⟨-, h⟩, -⟩, -⟩, -⟩ items hlookup
    exact h _ hlookup items rfl
  · refine fun h ↦ ⟨⟨⟨⟨by simp, ?_⟩, trivial⟩, trivial⟩, by simp⟩
    rintro _ hlookup items rfl
    exact h items hlookup

/-- A document that validation answers for. -/
structure Harmless (env : RequestEnv) (limits : Limits) (raw : Dict) : Prop where
  nesting : Json.nesting 0 (.obj raw) ≤ limits.dumps
  digits : (Json.obj raw).shortInts limits.digits = true
  widgets : Superviseur.dumpsLength env.floatLength (.obj raw) ≤ maxDocBytes →
    ∀ items, raw.lookup "widgets" = some (.arr items) →
      ∀ x ∈ triedItems limits maxWidgets items, WidgetHarmless env limits x

variable {raw : Dict}

theorem dumpsLength_eq_ok (hnesting : Json.nesting 0 (.obj raw) ≤ limits.dumps)
    (hdigits : (Json.obj raw).shortInts limits.digits = true) :
    dumpsLength env limits (.obj raw) =
      .ok (Superviseur.dumpsLength env.floatLength (.obj raw)) := by
  rw [dumpsLength, if_neg hnesting.not_gt, if_pos hdigits]

/-- The answer to a harmless document is that of the validation in which nothing escapes. -/
theorem validated_eq_ok (h : Harmless env limits raw) :
    validated env limits raw = .ok (Superviseur.validated env.floatLength env.schema raw) := by
  rw [validated, dumpsLength_eq_ok h.nesting h.digits, Superviseur.validated]
  change (if maxDocBytes < Superviseur.dumpsLength env.floatLength (.obj raw) then _ else _) = _
  split
  · rfl
  · rename_i hlength
    rw [(settles_document raw).settled (h.widgets (Nat.le_of_not_lt hlength))]
    cases Superviseur.validateDocument env.schema raw with
    | valid doc => rfl
    | invalid errors => rfl

theorem harmless_of_validated {answer : Except Rejection Schema.SynopticDoc}
    (h : validated env limits raw = .ok answer) : Harmless env limits raw := by
  rw [validated] at h
  cases hdumps : dumpsLength env limits (.obj raw) with
  | error e =>
    rw [hdumps] at h
    nomatch h
  | ok length =>
    obtain ⟨hnesting, hdigits, rfl⟩ : Json.nesting 0 (.obj raw) ≤ limits.dumps ∧
        (Json.obj raw).shortInts limits.digits = true ∧
          Superviseur.dumpsLength env.floatLength (.obj raw) = length := by
      rw [dumpsLength] at hdumps
      split at hdumps
      · nomatch hdumps
      · rename_i hnesting
        split at hdumps
        · rename_i hdigits
          exact ⟨Nat.le_of_not_lt hnesting, hdigits, Except.ok.inj hdumps⟩
        · nomatch hdumps
    refine ⟨hnesting, hdigits, fun hlength ↦ ?_⟩
    rw [hdumps] at h
    change (if maxDocBytes < Superviseur.dumpsLength env.floatLength (.obj raw) then _ else _) = _
      at h
    rw [if_neg hlength.not_gt] at h
    refine (settles_document raw).exists_settled_iff.mp ?_
    cases hvalidate : validateDocument env limits raw with
    | settled v => exact ⟨v, rfl⟩
    | raised e =>
      rw [hvalidate] at h
      nomatch h

/-- **Validation answers the harmless documents**, with the document or with a refusal, and no
other. -/
theorem validated_total_iff (env : RequestEnv) (limits : Limits) (raw : Dict) :
    (∃ answer, validated env limits raw = .ok answer) ↔ Harmless env limits raw :=
  ⟨fun ⟨_, h⟩ ↦ harmless_of_validated h, fun h ↦ ⟨_, validated_eq_ok h⟩⟩

/-- The bounds of an interpreter. -/
def plainLimits : Limits where
  dumps := 1000
  str := 1000
  digits := 4300
  tried max := max + 1

/-- A curve whose points are `null`. -/
def curve : Dict :=
  [("name", .str "Chaufferie"), ("widgets", .arr [.obj [("id", .str "courbe"),
    ("type", .str "trend"), ("x", .int 0), ("y", .int 0), ("w", .int 400), ("h", .int 200),
    ("bind", .obj [("points", .null)])]])]

/-- **Not every document is answered.** -/
theorem not_validated_total :
    ¬ ∀ raw : Dict, ∃ answer, validated plainEnv plainLimits raw = .ok answer := by
  intro h
  obtain ⟨answer, hanswer⟩ := h curve
  have hraised : (validated plainEnv plainLimits curve).isOk = false := by decide +kernel
  rw [hanswer] at hraised
  nomatch hraised

end Exceptions

end Superviseur
