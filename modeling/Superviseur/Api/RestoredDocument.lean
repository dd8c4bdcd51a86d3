import Superviseur.Api.DocumentRoundTrip
import Superviseur.Api.Validated

/-!
# A stored document as the next request

What is stored of a document is the document completed: each field that is left out has its default,
and each number is of the type of its field. It is valid again, as the same document. But the limit
is on the text that is sent, and the completed text may be longer: then a document that was accepted
is refused when it is restored, or sent as it was read.
-/

namespace Superviseur

namespace Schema

variable {env : SchemaEnv}

/-! ## Fields -/

/-- What is stored of a field: `default` if it is left out. -/
def filled (convert : Json → Json) (default : Json) (fields : Dict) (key : String) : Json :=
  match fields.lookup key with
  | some raw => convert raw
  | none => default

/-- What is stored of an `int` field. -/
def asInt (env : SchemaEnv) (raw : Json) : Json :=
  match readInt env raw with
  | .valid n => .int n
  | .invalid _ => raw

/-- What is stored of a `float` field. -/
def asFloat (env : SchemaEnv) (raw : Json) : Json :=
  match readFloat env raw with
  | .valid x => .float x
  | .invalid _ => raw

/-- What is stored of a list. -/
def asList (convert : Json → Json) : Json → Json
  | .arr items => .arr (items.map convert)
  | raw => raw

section

variable {α : Type} {fields : Dict} {key : String} {default : Option α} {a : α} {raw : Json}

theorem filled_eq {validate : Json → Checked α} {convert : Json → Json} {x : Json}
    (write : α → Json) (h : field fields key default validate = .valid a)
    (hread : ∀ raw, validate raw = .valid a → convert raw = write a)
    (hdefault : ∀ a, default = some a → x = write a) :
    filled convert x fields key = write a := by
  rw [filled]
  rcases field_eq_valid_iff.mp h with ⟨raw, hraw, hvalid⟩ | ⟨hnone, ha⟩
  · rw [hraw]
    exact hread raw hvalid
  · rw [hnone]
    exact hdefault a ha

theorem asInt_eq {lo hi n : ℤ} (h : intField env lo hi raw = .valid n) :
    asInt env raw = .int n := by
  simp only [intField, Validation.andThen_eq_valid_iff, Validation.check_eq_valid_iff] at h
  obtain ⟨_, hn, -, rfl⟩ := h
  rw [asInt, hn]

theorem asFloat_eq {lo hi : ℤ} {x : PyFloat} (h : floatField env lo hi raw = .valid x) :
    asFloat env raw = .float x := by
  simp only [floatField, Validation.andThen_eq_valid_iff, Validation.check_eq_valid_iff] at h
  obtain ⟨_, hx, -, rfl⟩ := h
  rw [asFloat, hx]

theorem str_of_checked {validator : String → Except String Unit} {s : String}
    (h : (strField raw).andThen (.check (raising validator)) = .valid s) : raw = .str s :=
  strField_eq_valid_iff.mp (check_of_andThen h).1

theorem asList_eq {max : ℕ} {item : Json → Checked α} {convert : Json → Json} {write : α → Json}
    {as : List α} (h : listField max item raw = .valid as)
    (hitem : ∀ raw a, item raw = .valid a → convert raw = write a) :
    asList convert raw = .arr (as.map write) := by
  cases raw with
  | arr items =>
    rw [listField] at h
    split at h
    · exact absurd h refuse_ne_valid
    · obtain ⟨hlength, hall⟩ := Validation.allFrom_eq_valid_iff.mp h
      rw [asList]
      congr 1
      refine List.ext_getElem (by simpa using hlength) fun i hi hi' ↦ ?_
      rw [List.length_map] at hi hi'
      rw [List.getElem_map, List.getElem_map]
      exact hitem _ _ (within_eq_valid_iff.mp (hall i hi hi'))
  | _ => exact absurd h refuse_ne_valid

end

/-! ## Models -/

namespace Canvas

def completed (env : SchemaEnv) : Json → Json
  | .obj fields => .obj [("width", filled (asInt env) (.int 1920) fields "width"),
      ("height", filled (asInt env) (.int 1080) fields "height"),
      ("background", filled id (.str "#0f172a") fields "background"),
      ("bg_image", filled id .null fields "bg_image")]
  | raw => raw

/-- The background image in the stored form. -/
def imageJson : Option String → Json
  | some image => .str image
  | none => .null

theorem readBgImage_eq {raw : Json} {image : Option String} (h : readBgImage raw = .valid image) :
    raw = imageJson image := by
  cases raw with
  | null =>
    obtain rfl := Validation.valid.inj h
    rfl
  | _ =>
    obtain ⟨s, hs, rfl⟩ := Validation.map_eq_valid_iff.mp h
    exact strField_eq_valid_iff.mp hs

theorem completed_eq {raw : Json} {c : Canvas} (h : validate env raw = .valid c) :
    completed env raw = c.toJson := by
  cases raw with
  | obj fields =>
    simp only [validate, Validation.seqLeft_eq_valid_iff, Validation.seq_eq_valid_iff,
      Validation.map_eq_valid_iff] at h
    obtain ⟨⟨_, bgImage, ⟨_, background, ⟨_, height, ⟨width, hwidth, rfl⟩, hheight, rfl⟩,
      hbackground, rfl⟩, hbgImage, rfl⟩, -⟩ := h
    have hwidth : filled (asInt env) (.int 1920) fields "width" = .int width :=
      filled_eq _ hwidth (fun _ hraw ↦ asInt_eq hraw) (by rintro _ ⟨⟩; rfl)
    have hheight : filled (asInt env) (.int 1080) fields "height" = .int height :=
      filled_eq _ hheight (fun _ hraw ↦ asInt_eq hraw) (by rintro _ ⟨⟩; rfl)
    have hbackground : filled id (.str "#0f172a") fields "background" = .str background :=
      filled_eq _ hbackground (fun _ hraw ↦ str_of_checked hraw) (by rintro _ ⟨⟩; rfl)
    have himage : filled id .null fields "bg_image" = imageJson bgImage :=
      filled_eq _ hbgImage (fun _ hraw ↦ readBgImage_eq (check_of_andThen hraw).1)
        (by rintro _ ⟨⟩; rfl)
    rw [completed, hwidth, hheight, hbackground, himage]
    rfl
  | _ => exact absurd h refuse_ne_valid

end Canvas

namespace Rule

def completed : Json → Json
  | .obj fields => .obj [("when", filled id .null fields "when"),
      ("style", filled id (.obj []) fields "style")]
  | raw => raw

theorem completed_eq {raw : Json} {r : Rule} (h : validate env raw = .valid r) :
    completed raw = r.toJson := by
  cases raw with
  | obj fields =>
    simp only [validate, Validation.seqLeft_eq_valid_iff, Validation.seq_eq_valid_iff,
      Validation.map_eq_valid_iff] at h
    obtain ⟨⟨_, style, ⟨expression, hexpression, rfl⟩, hstyle, rfl⟩, -⟩ := h
    have hwhen : filled id .null fields "when" = .str expression := by
      refine filled_eq _ hexpression (fun raw hraw ↦ ?_) (by simp)
      have hread := (check_of_andThen hraw).1
      simp only [Validation.andThen_eq_valid_iff, Validation.check_eq_valid_iff,
        strField_eq_valid_iff] at hread
      obtain ⟨_, hread, -, rfl⟩ := hread
      exact hread
    have hstyle : filled id (.obj []) fields "style" = .obj style :=
      filled_eq _ hstyle (fun _ hraw ↦ (styleField_eq_valid_iff.mp hraw).1) (by rintro _ ⟨⟩; rfl)
    rw [completed, toJson, hwhen, hstyle]
  | _ => exact absurd h refuse_ne_valid

end Rule

namespace Widget

def completed (env : SchemaEnv) : Json → Json
  | .obj fields => .obj ([("id", filled id .null fields "id"),
      ("type", filled id .null fields "type"),
      ("x", filled (asFloat env) .null fields "x"), ("y", filled (asFloat env) .null fields "y"),
      ("w", filled (asFloat env) .null fields "w"), ("h", filled (asFloat env) .null fields "h"),
      ("bind", filled id (.obj []) fields "bind"), ("style", filled id (.obj []) fields "style"),
      ("rules", filled (asList Rule.completed) (.arr []) fields "rules")] ++ extraOf fields)
  | raw => raw

theorem filled_geometry {fields : Dict} {key : String} {lo hi : ℤ} {x : PyFloat}
    (h : field fields key none (floatField env lo hi) = .valid x) :
    filled (asFloat env) .null fields key = .float x :=
  filled_eq _ h (fun _ hraw ↦ asFloat_eq hraw) (by simp)

theorem completed_eq {raw : Json} {w : Widget} (h : validate env raw = .valid w) :
    completed env raw = w.toJson := by
  cases raw with
  | obj fields =>
    obtain ⟨h, -⟩ := check_of_andThen h
    simp only [Validation.seq_eq_valid_iff, Validation.map_eq_valid_iff] at h
    obtain ⟨_, rules, ⟨_, style, ⟨_, bind, ⟨_, h, ⟨_, w, ⟨_, y, ⟨_, x, ⟨_, type, ⟨ident, hid, rfl⟩,
      htype, rfl⟩, hx, rfl⟩, hy, rfl⟩, hw, rfl⟩, hh, rfl⟩, hbind, rfl⟩, hstyle, rfl⟩, hrules,
      rfl⟩ := h
    have hid : filled id .null fields "id" = .str ident :=
      filled_eq _ hid (fun _ hraw ↦ str_of_checked hraw) (by simp)
    have htype : filled id .null fields "type" = .str type :=
      filled_eq _ htype (fun _ hraw ↦ str_of_checked hraw) (by simp)
    have hbind : filled id (.obj []) fields "bind" = .obj bind :=
      filled_eq _ hbind (fun _ hraw ↦ dictField_eq_valid_iff.mp hraw) (by rintro _ ⟨⟩; rfl)
    have hstyle : filled id (.obj []) fields "style" = .obj style :=
      filled_eq _ hstyle (fun _ hraw ↦ (styleField_eq_valid_iff.mp hraw).1) (by rintro _ ⟨⟩; rfl)
    have hrules : filled (asList Rule.completed) (.arr []) fields "rules" =
        .arr (rules.map Rule.toJson) :=
      filled_eq (fun rules : List Rule ↦ .arr (rules.map Rule.toJson)) hrules
        (fun _ hraw ↦ asList_eq hraw fun _ _ hr ↦ Rule.completed_eq hr) (by rintro _ ⟨⟩; rfl)
    rw [completed, hid, htype, hbind, hstyle, hrules, filled_geometry hx, filled_geometry hy,
      filled_geometry hw, filled_geometry hh]
    rfl
  | _ => exact absurd h refuse_ne_valid

end Widget

namespace Link

def completed : Json → Json
  | .obj fields => .obj [("type", filled id .null fields "type"),
      ("widget", filled id .null fields "widget"), ("target", filled id .null fields "target")]
  | raw => raw

theorem readType_eq {raw : Json} {u : Unit} (h : readType raw = .valid u) :
    raw = .str "navigate" := by
  cases raw with
  | str s =>
    rw [readType] at h
    split at h
    · rename_i hs
      rw [hs]
    · exact absurd h refuse_ne_valid
  | _ => exact absurd h refuse_ne_valid

theorem completed_eq {raw : Json} {link : LinkDef} (h : validate raw = .valid link) :
    completed raw = toJson link := by
  cases raw with
  | obj fields =>
    simp only [validate, Validation.seqLeft_eq_valid_iff, Validation.seq_eq_valid_iff,
      Validation.map_eq_valid_iff] at h
    obtain ⟨⟨_, target, ⟨_, widget, ⟨type, htype, rfl⟩, hwidget, rfl⟩, htarget, rfl⟩, -⟩ := h
    have htype : filled id .null fields "type" = .str "navigate" :=
      filled_eq (fun _ : Unit ↦ .str "navigate") htype (fun _ hraw ↦ readType_eq hraw) (by simp)
    have hwidget : filled id .null fields "widget" = .str widget :=
      filled_eq _ hwidget (fun _ hraw ↦ strField_eq_valid_iff.mp hraw) (by simp)
    have htarget : filled id .null fields "target" = .str target :=
      filled_eq _ htarget (fun _ hraw ↦ str_of_checked hraw) (by simp)
    rw [completed, toJson, htype, hwidget, htarget]
  | _ => exact absurd h refuse_ne_valid

end Link

namespace SynopticDoc

/-- The document with the defaults of its fields, and its numbers of the types of their fields. -/
def completed (env : SchemaEnv) (fields : Dict) : Dict :=
  [("schema", filled (asInt env) (.int Schema.schemaVersion) fields (schemaKey fields)),
    ("name", filled id .null fields "name"),
    ("canvas", filled (Canvas.completed env) Canvas.default.toJson fields "canvas"),
    ("widgets", filled (asList (Widget.completed env)) (.arr []) fields "widgets"),
    ("links", filled (asList Link.completed) (.arr []) fields "links")]

/-- **What is stored of a document is the document completed.** -/
theorem completed_eq {raw : Dict} {doc : SynopticDoc} (h : validate env raw = .valid doc) :
    completed env raw = doc.toJson := by
  obtain ⟨h, -⟩ := check_of_andThen h
  simp only [Validation.seqLeft_eq_valid_iff, Validation.seq_eq_valid_iff,
    Validation.map_eq_valid_iff] at h
  obtain ⟨⟨_, links, ⟨_, widgets, ⟨_, canvas, ⟨_, name, ⟨schema, hschema, rfl⟩, hname, rfl⟩,
    hcanvas, rfl⟩, hwidgets, rfl⟩, hlinks, rfl⟩, -⟩ := h
  have hschema :
      filled (asInt env) (.int Schema.schemaVersion) raw (schemaKey raw) = .int schema := by
    refine filled_eq _ hschema (fun raw hraw ↦ ?_) (by rintro _ ⟨⟩; rfl)
    rw [asInt, (check_of_andThen hraw).1]
  have hname : filled id .null raw "name" = .str name := by
    refine filled_eq _ hname (fun raw hraw ↦ ?_) (by simp)
    simp only [Validation.andThen_eq_valid_iff, Validation.check_eq_valid_iff,
      strField_eq_valid_iff] at hraw
    obtain ⟨_, hread, -, rfl⟩ := hraw
    exact hread
  have hcanvas : filled (Canvas.completed env) Canvas.default.toJson raw "canvas" =
      canvas.toJson :=
    filled_eq _ hcanvas (fun _ hraw ↦ Canvas.completed_eq hraw) (by rintro _ ⟨⟩; rfl)
  have hwidgets : filled (asList (Widget.completed env)) (.arr []) raw "widgets" =
      .arr (widgets.map Widget.toJson) :=
    filled_eq (fun widgets : List Widget ↦ .arr (widgets.map Widget.toJson)) hwidgets
      (fun _ hraw ↦ asList_eq hraw fun _ _ hw ↦ Widget.completed_eq hw) (by rintro _ ⟨⟩; rfl)
  have hlinks : filled (asList Link.completed) (.arr []) raw "links" =
      .arr (links.map Link.toJson) :=
    filled_eq (fun links : List LinkDef ↦ .arr (links.map Link.toJson)) hlinks
      (fun _ hraw ↦ asList_eq hraw fun _ _ hlink ↦ Link.completed_eq hlink) (by rintro _ ⟨⟩; rfl)
  rw [completed, toJson, hschema, hname, hcanvas, hwidgets, hlinks]

end SynopticDoc

end Schema

/-! ## The next request -/

section

variable {floatLength : PyFloat → ℕ} {env : SchemaEnv} {raw : Dict} {doc : Schema.SynopticDoc}

theorem validated_eq_ok_iff : validated floatLength env raw = .ok doc ↔
    dumpsLength floatLength (.obj raw) ≤ maxDocBytes ∧ validateDocument env raw = .valid doc := by
  rw [validated]
  split
  · rename_i hlarge
    simp [hlarge]
  · rename_i hsmall
    rw [not_lt] at hsmall
    split
    · rename_i doc' hdoc
      simp [hsmall, hdoc]
    · rename_i errors herrors
      simp [herrors]

/-- What is stored of a document that is accepted is valid, as the same document. -/
theorem validateDocument_toJson (h : validateDocument env raw = .valid doc) :
    validateDocument env doc.toJson = .valid doc :=
  Schema.SynopticDoc.validate_toJson (Schema.SynopticDoc.wellFormed_of_validate h)

/-- A stored content that a request accepts, and stores as it is. -/
def Restorable (floatLength : PyFloat → ℕ) (env : SchemaEnv) (content : Dict) : Prop :=
  ∃ doc, validated floatLength env content = .ok doc ∧ doc.toJson = content

theorem Restorable.restored {content : Dict} (h : Restorable floatLength env content) :
    ∃ stored, validateStored floatLength env (.obj content) = .ok stored ∧
      stored.content = .obj content := by
  obtain ⟨doc, hdoc, hcontent⟩ := h
  refine ⟨doc.stored, ?_, congrArg Json.obj hcontent⟩
  rw [validateStored, hdoc]

/-- **A stored document can be sent again exactly if it fits the limit when it is completed.** -/
theorem restorable_iff (h : validated floatLength env raw = .ok doc) :
    Restorable floatLength env doc.toJson ↔
      dumpsLength floatLength (.obj (Schema.SynopticDoc.completed env raw)) ≤ maxDocBytes := by
  have hvalid := (validated_eq_ok_iff.mp h).2
  rw [Schema.SynopticDoc.completed_eq hvalid]
  constructor
  · rintro ⟨doc', hdoc', -⟩
    exact (validated_eq_ok_iff.mp hdoc').1
  · intro hsize
    exact ⟨doc, validated_eq_ok_iff.mpr ⟨hsize, validateDocument_toJson hvalid⟩, rfl⟩

end

/-! ## A text in a label -/

/-- A label. -/
def labelOf (text : String) : Schema.Widget where
  id := "w1"
  type := "label"
  bind := []
  extra := [("text", .str text)]
  x := .fin 0
  y := .fin 0
  w := .fin 9
  h := .fin 1
  style := []
  rules := []

def labelDoc (text : String) : Schema.SynopticDoc := ⟨1, "Note", .default, [labelOf text], []⟩

theorem wellFormed_labelDoc (text : String) : (labelDoc text).WellFormed plainEnv.schema where
  schema := rfl
  name := (rfl : Schema.lengthError 1 255 "Note" = none)
  canvas := Schema.Canvas.wellFormed_default
  widgetCount := (by decide : 1 ≤ maxWidgets)
  widgets := by
    intro w hw
    obtain rfl := List.mem_singleton.mp hw
    exact {
      id := (rfl : Schema.Widget.checkId "w1" = .ok ())
      type := (rfl : Schema.Widget.checkType "label" = .ok ())
      x := (rfl : Schema.floatError (-10000) 20000 (.fin 0) = none)
      y := (rfl : Schema.floatError (-10000) 20000 (.fin 0) = none)
      w := (rfl : Schema.floatError 1 20000 (.fin 9) = none)
      h := (rfl : Schema.floatError 1 20000 (.fin 1) = none)
      style := rfl
      ruleCount := Nat.zero_le _
      rules := fun r hr ↦ absurd hr List.not_mem_nil
      extra := by simp [labelOf, Schema.Widget.fieldNames]
      properties := rfl }
  linkCount := Nat.zero_le _
  links := fun link hlink ↦ absurd hlink List.not_mem_nil
  references := rfl

/-- The document as it is sent: without its links, of which there are none. -/
def sentLabel (text : String) : Dict :=
  [("schema", .int 1), ("name", .str "Note"), ("canvas", Schema.Canvas.default.toJson),
    ("widgets", .arr [(labelOf text).toJson])]

theorem validateDocument_sentLabel (text : String) :
    validateDocument plainEnv.schema (sentLabel text) = .valid (labelDoc text) := by
  have h := wellFormed_labelDoc text
  refine Schema.andThen_of_check ?_ h.references
  simp only [Validation.seqLeft_eq_valid_iff, Validation.seq_eq_valid_iff,
    Validation.map_eq_valid_iff]
  refine ⟨⟨_, [], ⟨_, [labelOf text], ⟨_, .default, ⟨_, "Note", ⟨1, ?_, rfl⟩, ?_, rfl⟩, ?_, rfl⟩,
    ?_, rfl⟩, ?_, rfl⟩, (), Schema.forbidExtra_eq_valid
      (by simp [sentLabel, Schema.SynopticDoc.fieldNames, Schema.SynopticDoc.schemaKey])⟩
  · exact (Schema.field_of_lookup rfl).mpr (Schema.andThen_of_check rfl h.schema)
  · refine (Schema.field_of_lookup rfl).mpr ?_
    simp only [Schema.strField, Validation.andThen, Validation.check_eq_valid_iff]
    exact ⟨h.name, trivial⟩
  · exact (Schema.field_of_lookup rfl).mpr (Schema.Canvas.validate_toJson h.canvas)
  · exact (Schema.field_of_lookup rfl).mpr (Schema.listField_map h.widgetCount fun w hw ↦
      Schema.Widget.validate_toJson (h.widgets w hw))
  · exact Schema.field_eq_valid_iff.mpr (.inr ⟨rfl, rfl⟩)

theorem fieldsLength_append (floatLength : PyFloat → ℕ) (fields fields' : Dict) :
    fieldsLength floatLength (fields ++ fields') =
      fieldsLength floatLength fields + fieldsLength floatLength fields' := by
  induction fields with
  | nil => simp [fieldsLength]
  | cons f fields ih =>
    rw [List.cons_append, fieldsLength, fieldsLength, ih]
    omega

theorem dumpsLength_labelOf (text : String) :
    dumpsLength plainEnv.floatLength (labelOf text).toJson = textLength text + 98 := by
  have hfields : (labelOf text).toJson = .obj ([("id", .str "w1"), ("type", .str "label"),
      ("x", .float (.fin 0)), ("y", .float (.fin 0)), ("w", .float (.fin 9)),
      ("h", .float (.fin 1)), ("bind", .obj []), ("style", .obj []), ("rules", .arr [])] ++
      [("text", .str text)]) := rfl
  have hclosed : fieldsLength plainEnv.floatLength [("id", .str "w1"), ("type", .str "label"),
      ("x", .float (.fin 0)), ("y", .float (.fin 0)), ("w", .float (.fin 9)),
      ("h", .float (.fin 1)), ("bind", .obj []), ("style", .obj []), ("rules", .arr [])] = 89 := rfl
  have hkey : textLength "text" = 6 := rfl
  rw [hfields, dumpsLength, fieldsLength_append, hclosed, fieldsLength, hkey, dumpsLength,
    fieldsLength]
  omega

theorem dumpsLength_sentLabel (text : String) :
    dumpsLength plainEnv.floatLength (.obj (sentLabel text)) = textLength text + 214 := by
  have hfields : sentLabel text = [("schema", .int 1), ("name", .str "Note"),
      ("canvas", Schema.Canvas.default.toJson)] ++
      [("widgets", .arr [(labelOf text).toJson])] := rfl
  have hclosed : fieldsLength plainEnv.floatLength [("schema", .int 1), ("name", .str "Note"),
      ("canvas", Schema.Canvas.default.toJson)] = 102 := rfl
  have hkey : textLength "widgets" = 9 := rfl
  rw [hfields, dumpsLength, fieldsLength_append, hclosed, fieldsLength, hkey, dumpsLength,
    itemsLength, itemsLength, dumpsLength_labelOf, fieldsLength]
  omega

theorem dumpsLength_labelDoc (text : String) :
    dumpsLength plainEnv.floatLength (.obj (labelDoc text).toJson) = textLength text + 225 := by
  have hfields : (labelDoc text).toJson = sentLabel text ++ [("links", .arr [])] := rfl
  have hkey : textLength "links" = 7 := rfl
  have hsent := dumpsLength_sentLabel text
  rw [dumpsLength] at hsent
  have hpos : 2 ≤ textLength text := Nat.le_add_left ..
  rw [hfields, dumpsLength, fieldsLength_append, fieldsLength, hkey, dumpsLength, itemsLength,
    fieldsLength]
  omega

/-- A short label can be restored. -/
theorem restorable_iff_short :
    validated plainEnv.floatLength plainEnv.schema (sentLabel "Pompe") = .ok (labelDoc "Pompe") ∧
      Restorable plainEnv.floatLength plainEnv.schema (labelDoc "Pompe").toJson := by
  have hshort : textLength "Pompe" = 7 := rfl
  have hvalid := validateDocument_sentLabel "Pompe"
  have hsent : validated plainEnv.floatLength plainEnv.schema (sentLabel "Pompe") =
      .ok (labelDoc "Pompe") :=
    validated_eq_ok_iff.mpr ⟨by rw [dumpsLength_sentLabel, hshort]; decide, hvalid⟩
  refine ⟨hsent, (restorable_iff hsent).mpr ?_⟩
  rw [Schema.SynopticDoc.completed_eq hvalid, dumpsLength_labelDoc, hshort]
  decide

/-- A text of `n` letters. -/
def letters (n : ℕ) : String := String.ofList (List.replicate n 'a')

theorem textLength_letters (n : ℕ) : textLength (letters n) = n + 2 := by
  have hletter : charLength 'a' = 1 := rfl
  rw [textLength, letters, String.toList_ofList, List.map_replicate, List.sum_replicate_nat,
    hletter, Nat.mul_one]

/-- A document that has the length of the limit is accepted, and its stored form is refused. -/
theorem not_restorable : ¬ ∀ (floatLength : PyFloat → ℕ) (env : SchemaEnv) (raw : Dict)
    (doc : Schema.SynopticDoc), validated floatLength env raw = .ok doc →
      Restorable floatLength env doc.toJson := by
  intro hall
  have hlimit : maxDocBytes = 6291456 := rfl
  have hsent : validated plainEnv.floatLength plainEnv.schema (sentLabel (letters 6291240)) =
      .ok (labelDoc (letters 6291240)) := by
    refine validated_eq_ok_iff.mpr ⟨?_, validateDocument_sentLabel _⟩
    rw [dumpsLength_sentLabel, textLength_letters, hlimit]
  obtain ⟨doc, hdoc, -⟩ := hall plainEnv.floatLength plainEnv.schema _ _ hsent
  have hsize := (validated_eq_ok_iff.mp hdoc).1
  rw [dumpsLength_labelDoc, textLength_letters, hlimit] at hsize
  omega

end Superviseur
