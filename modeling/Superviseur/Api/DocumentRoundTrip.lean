import Superviseur.Api.DocumentSchema

/-!
# What validation accepts, and what it makes of it

`WellFormed` says what the checks of a model leave: an accepted input gives a well-formed document
(`SynopticDoc.wellFormed_of_validate`), and `to_json` of a well-formed document is accepted again,
as the same document (`SynopticDoc.validate_toJson`). Both go model by model. A document that is
accepted passes the checks of `Document.Accepted` (`WellFormed.accepted`).
-/

namespace Superviseur

namespace Schema

variable {env : SchemaEnv}

/-! ## Fields -/

section Fields

variable {α : Type} {fields : Dict} {key : String} {default : Option α}
  {validate : Json → Checked α} {a : α}

@[simp] theorem within_eq_valid_iff {x : Checked α} : within key x = .valid a ↔ x = .valid a :=
  Validation.mapErrors_eq_valid_iff

@[simp] theorem refuse_ne_valid {msg : String} : (refuse msg : Checked α) ≠ .valid a := nofun

@[simp] theorem raising_eq_none_iff {validator : α → Except String Unit} :
    raising validator a = none ↔ validator a = .ok () := by
  rw [raising]
  cases validator a with
  | error msg => simp
  | ok u => simp

theorem ite_eq_ok_iff {p : Prop} [Decidable p] {msg : String} :
    (if p then .ok () else .error msg : Except String Unit) = .ok () ↔ p := by
  split <;> simp [*]

theorem field_eq_valid_iff : field fields key default validate = .valid a ↔
    (∃ raw, fields.lookup key = some raw ∧ validate raw = .valid a) ∨
      (fields.lookup key = none ∧ default = some a) := by
  unfold field
  split
  · rename_i raw _ hlookup
    simp [hlookup]
  · rename_i hlookup
    simp [hlookup]
  · rename_i hlookup
    simp [hlookup]

theorem field_of_lookup {raw : Json} (h : fields.lookup key = some raw) :
    field fields key default validate = .valid a ↔ validate raw = .valid a := by
  simp [field_eq_valid_iff, h]

theorem forbidExtra_eq_valid {names : List String} (h : ∀ f ∈ fields, f.1 ∈ names) :
    forbidExtra names fields = .valid () := by
  rw [forbidExtra, List.filter_eq_nil_iff.mpr fun f hf ↦ by simpa using h f hf]

@[simp] theorem strField_eq_valid_iff {raw : Json} {s : String} :
    strField raw = .valid s ↔ raw = .str s := by
  cases raw <;> simp [strField]

@[simp] theorem dictField_eq_valid_iff {raw : Json} {d : Dict} :
    dictField raw = .valid d ↔ raw = .obj d := by
  cases raw <;> simp [dictField]

theorem mem_of_listField {max : ℕ} {item : Json → Checked α} {raw : Json} {as : List α}
    (h : listField max item raw = .valid as) :
    as.length ≤ max ∧ ∀ a ∈ as, ∃ raw, item raw = .valid a := by
  cases raw with
  | arr items =>
    rw [listField] at h
    split at h
    · exact absurd h refuse_ne_valid
    · rename_i hlength
      refine ⟨?_, fun a ha ↦ ?_⟩
      · rw [← (Validation.allFrom_eq_valid_iff.mp h).1]
        omega
      · obtain ⟨i, raw, -, hraw⟩ := Validation.mem_of_all h ha
        exact ⟨raw, within_eq_valid_iff.mp hraw⟩
  | _ => exact absurd h refuse_ne_valid

theorem listField_map {max : ℕ} {item : Json → Checked α} {write : α → Json} {as : List α}
    (hlength : as.length ≤ max) (h : ∀ a ∈ as, item (write a) = .valid a) :
    listField max item (.arr (as.map write)) = .valid as := by
  rw [listField, List.length_map, if_neg (by omega)]
  exact Validation.all_map fun i a ha ↦ within_eq_valid_iff.mpr (h a ha)

theorem intError_of_intField {lo hi n : ℤ} {raw : Json} (h : intField env lo hi raw = .valid n) :
    intError lo hi n = none := by
  simp only [intField, Validation.andThen_eq_valid_iff, Validation.check_eq_valid_iff] at h
  obtain ⟨n', -, hn, rfl⟩ := h
  exact hn

theorem intField_int {lo hi n : ℤ} (h : intError lo hi n = none) :
    intField env lo hi (.int n) = .valid n := by
  simp [intField, readInt, Validation.andThen, h]

theorem floatError_of_floatField {lo hi : ℤ} {x : PyFloat} {raw : Json}
    (h : floatField env lo hi raw = .valid x) : floatError lo hi x = none := by
  simp only [floatField, Validation.andThen_eq_valid_iff, Validation.check_eq_valid_iff] at h
  obtain ⟨x', -, hx, rfl⟩ := h
  exact hx

theorem floatField_float {lo hi : ℤ} {x : PyFloat} (h : floatError lo hi x = none) :
    floatField env lo hi (.float x) = .valid x := by
  simp [floatField, readFloat, Validation.andThen, h]

/-- What holds of the values that are read, and of the default, holds of the field. -/
theorem prop_of_field (P : α → Prop) (h : field fields key default validate = .valid a)
    (hread : ∀ raw, validate raw = .valid a → P a) (hdefault : ∀ a, default = some a → P a) :
    P a := by
  rcases field_eq_valid_iff.mp h with ⟨raw, -, hraw⟩ | ⟨-, ha⟩
  · exact hread raw hraw
  · exact hdefault a ha

theorem check_of_andThen {x : Checked α} {validator : α → Except String Unit}
    (h : x.andThen (.check (raising validator)) = .valid a) :
    x = .valid a ∧ validator a = .ok () := by
  simp only [Validation.andThen_eq_valid_iff, Validation.check_eq_valid_iff,
    raising_eq_none_iff] at h
  obtain ⟨a', hx, hcheck, rfl⟩ := h
  exact ⟨hx, hcheck⟩

theorem andThen_of_check {x : Checked α} {validator : α → Except String Unit}
    (hx : x = .valid a) (h : validator a = .ok ()) :
    x.andThen (.check (raising validator)) = .valid a := by
  rw [Validation.andThen_eq_valid_iff]
  exact ⟨a, hx, Validation.check_eq_valid_iff.mpr ⟨raising_eq_none_iff.mpr h, rfl⟩⟩

theorem checked_str {validator : String → Except String Unit} {raw : Json} {s : String}
    (h : (strField raw).andThen (.check (raising validator)) = .valid s) :
    validator s = .ok () := (check_of_andThen h).2

theorem str_checked {validator : String → Except String Unit} {s : String}
    (h : validator s = .ok ()) :
    (strField (.str s)).andThen (.check (raising validator)) = .valid s :=
  andThen_of_check rfl h

end Fields

/-! ## Canvas -/

namespace Canvas

structure WellFormed (c : Canvas) : Prop where
  width : intError 320 8000 c.width = none
  height : intError 240 8000 c.height = none
  background : checkBackground c.background = .ok ()
  bgImage : checkBgImage c.bgImage = .ok ()

theorem wellFormed_default : default.WellFormed := by
  constructor <;> decide

theorem wellFormed_of_validate {raw : Json} {c : Canvas} (h : validate env raw = .valid c) :
    c.WellFormed := by
  cases raw with
  | obj fields =>
    simp only [validate, Validation.seqLeft_eq_valid_iff, Validation.seq_eq_valid_iff,
      Validation.map_eq_valid_iff] at h
    obtain ⟨⟨_, bgImage, ⟨_, background, ⟨_, height, ⟨width, hwidth, rfl⟩, hheight, rfl⟩,
      hbackground, rfl⟩, hbgImage, rfl⟩, -⟩ := h
    refine ⟨?_, ?_, ?_, ?_⟩
    · refine prop_of_field (intError 320 8000 · = none) hwidth
        (fun _ hraw ↦ intError_of_intField hraw) ?_
      rintro _ ⟨⟩
      exact wellFormed_default.width
    · refine prop_of_field (intError 240 8000 · = none) hheight
        (fun _ hraw ↦ intError_of_intField hraw) ?_
      rintro _ ⟨⟩
      exact wellFormed_default.height
    · refine prop_of_field (checkBackground · = .ok ()) hbackground
        (fun _ hraw ↦ checked_str hraw) ?_
      rintro _ ⟨⟩
      exact wellFormed_default.background
    · refine prop_of_field (checkBgImage · = .ok ()) hbgImage
        (fun _ hraw ↦ (check_of_andThen hraw).2) ?_
      rintro _ ⟨⟩
      exact wellFormed_default.bgImage
  | _ => exact absurd h refuse_ne_valid

theorem readBgImage_toJson (image : Option String) :
    readBgImage (match image with | some image => .str image | none => .null) = .valid image := by
  cases image <;> rfl

theorem validate_toJson {c : Canvas} (h : c.WellFormed) : validate env c.toJson = .valid c := by
  rw [toJson, validate]
  simp only [Validation.seqLeft_eq_valid_iff, Validation.seq_eq_valid_iff,
    Validation.map_eq_valid_iff]
  refine ⟨⟨_, c.bgImage, ⟨_, c.background, ⟨_, c.height, ⟨c.width, ?_, rfl⟩, ?_, rfl⟩, ?_, rfl⟩,
    ?_, rfl⟩, (), forbidExtra_eq_valid (by simp [fieldNames])⟩
  · exact (field_of_lookup rfl).mpr (intField_int h.width)
  · exact (field_of_lookup rfl).mpr (intField_int h.height)
  · exact (field_of_lookup rfl).mpr (str_checked h.background)
  · exact (field_of_lookup rfl).mpr (andThen_of_check (readBgImage_toJson c.bgImage) h.bgImage)

end Canvas

/-! ## Rules -/

theorem styleField_eq_valid_iff {raw : Json} {style : Dict} :
    styleField raw = .valid style ↔ raw = .obj style ∧ checkStyle style = .ok () := by
  simp only [styleField, Validation.andThen_eq_valid_iff, dictField_eq_valid_iff,
    Validation.check_eq_valid_iff, raising_eq_none_iff]
  constructor
  · rintro ⟨_, rfl, hcheck, rfl⟩
    exact ⟨rfl, hcheck⟩
  · rintro ⟨rfl, hcheck⟩
    exact ⟨style, rfl, hcheck, rfl⟩

namespace Rule

structure WellFormed (env : SchemaEnv) (r : Rule) : Prop where
  length : lengthError 1 200 r.when = none
  expression : checkWhen env r.when = .ok ()
  style : checkStyle r.style = .ok ()

theorem wellFormed_of_validate {raw : Json} {r : Rule} (h : validate env raw = .valid r) :
    r.WellFormed env := by
  cases raw with
  | obj fields =>
    simp only [validate, Validation.seqLeft_eq_valid_iff, Validation.seq_eq_valid_iff,
      Validation.map_eq_valid_iff] at h
    obtain ⟨⟨_, style, ⟨expression, hexpression, rfl⟩, hstyle, rfl⟩, -⟩ := h
    have hwhen : lengthError 1 200 expression = none ∧ checkWhen env expression = .ok () := by
      refine prop_of_field (fun s ↦ lengthError 1 200 s = none ∧ checkWhen env s = .ok ())
        hexpression (fun raw hraw ↦ ?_) (by simp)
      obtain ⟨hread, hcheck⟩ := check_of_andThen hraw
      simp only [Validation.andThen_eq_valid_iff, Validation.check_eq_valid_iff] at hread
      obtain ⟨_, -, hlength, rfl⟩ := hread
      exact ⟨hlength, hcheck⟩
    refine ⟨hwhen.1, hwhen.2, ?_⟩
    refine prop_of_field (checkStyle · = .ok ()) hstyle
      (fun _ hraw ↦ (styleField_eq_valid_iff.mp hraw).2) ?_
    rintro _ ⟨⟩
    rfl
  | _ => exact absurd h refuse_ne_valid

theorem validate_toJson {r : Rule} (h : r.WellFormed env) : validate env r.toJson = .valid r := by
  rw [toJson, validate]
  simp only [Validation.seqLeft_eq_valid_iff, Validation.seq_eq_valid_iff,
    Validation.map_eq_valid_iff]
  refine ⟨⟨_, r.style, ⟨r.when, ?_, rfl⟩, ?_, rfl⟩, (), forbidExtra_eq_valid (by simp [fieldNames])⟩
  · refine (field_of_lookup rfl).mpr (andThen_of_check ?_ h.expression)
    simp [h.length]
  · exact (field_of_lookup rfl).mpr (styleField_eq_valid_iff.mpr ⟨rfl, h.style⟩)

end Rule

/-! ## Widgets -/

namespace Widget

structure WellFormed (env : SchemaEnv) (widget : Widget) : Prop where
  id : checkId widget.id = .ok ()
  type : checkType widget.type = .ok ()
  x : floatError (-10000) 20000 widget.x = none
  y : floatError (-10000) 20000 widget.y = none
  w : floatError 1 20000 widget.w = none
  h : floatError 1 20000 widget.h = none
  style : checkStyle widget.style = .ok ()
  ruleCount : widget.rules.length ≤ maxRules
  rules : ∀ r ∈ widget.rules, r.WellFormed env
  extra : ∀ f ∈ widget.extra, f.1 ∉ fieldNames
  properties : widget.toWidgetDef.properties env.texts = .ok ()

theorem geometry {fields : Dict} {key : String} {lo hi : ℤ} {x : PyFloat}
    (h : field fields key none (floatField env lo hi) = .valid x) : floatError lo hi x = none :=
  prop_of_field (floatError lo hi · = none) h (fun _ hraw ↦ floatError_of_floatField hraw) (by simp)

theorem wellFormed_of_validate {raw : Json} {w : Widget} (h : validate env raw = .valid w) :
    w.WellFormed env := by
  cases raw with
  | obj fields =>
    obtain ⟨h, hproperties⟩ := check_of_andThen h
    simp only [Validation.seq_eq_valid_iff, Validation.map_eq_valid_iff] at h
    obtain ⟨_, rules, ⟨_, style, ⟨_, bind, ⟨_, h, ⟨_, w, ⟨_, y, ⟨_, x, ⟨_, type, ⟨id, hid, rfl⟩,
      htype, rfl⟩, hx, rfl⟩, hy, rfl⟩, hw, rfl⟩, hh, rfl⟩, hbind, rfl⟩, hstyle, rfl⟩, hrules,
      rfl⟩ := h
    have hlist : rules.length ≤ maxRules ∧ ∀ r ∈ rules, r.WellFormed env := by
      refine prop_of_field (fun rules ↦ rules.length ≤ maxRules ∧ ∀ r ∈ rules, r.WellFormed env)
        hrules (fun raw hraw ↦ ?_) ?_
      · obtain ⟨hlength, hmem⟩ := mem_of_listField hraw
        refine ⟨hlength, fun r hr ↦ ?_⟩
        obtain ⟨raw, hraw⟩ := hmem r hr
        exact Rule.wellFormed_of_validate hraw
      · rintro _ ⟨⟩
        exact ⟨Nat.zero_le _, by simp⟩
    exact {
      id := prop_of_field (checkId · = .ok ()) hid (fun _ hraw ↦ checked_str hraw) (by simp)
      type := prop_of_field (checkType · = .ok ()) htype (fun _ hraw ↦ checked_str hraw) (by simp)
      x := geometry hx
      y := geometry hy
      w := geometry hw
      h := geometry hh
      style := by
        refine prop_of_field (checkStyle · = .ok ()) hstyle
          (fun _ hraw ↦ (styleField_eq_valid_iff.mp hraw).2) ?_
        rintro _ ⟨⟩
        rfl
      ruleCount := hlist.1
      rules := hlist.2
      extra := fun f hf ↦ of_decide_eq_true (List.mem_filter.mp hf).2
      properties := hproperties }
  | _ => exact absurd h refuse_ne_valid

/-- The properties of its own that a widget has are read back as they are. -/
theorem extraOf_append {fields extra : Dict} (hfields : ∀ f ∈ fields, f.1 ∈ fieldNames)
    (hextra : ∀ f ∈ extra, f.1 ∉ fieldNames) : extraOf (fields ++ extra) = extra := by
  have hnone : fields.filter (fun f ↦ f.1 ∉ fieldNames) = [] :=
    List.filter_eq_nil_iff.mpr fun f hf ↦ by simpa using hfields f hf
  have hall : extra.filter (fun f ↦ f.1 ∉ fieldNames) = extra :=
    List.filter_eq_self.mpr fun f hf ↦ by simpa using hextra f hf
  rw [extraOf, List.filter_append, hnone, hall, List.nil_append]

theorem validate_toJson {w : Widget} (h : w.WellFormed env) : validate env w.toJson = .valid w := by
  rw [toJson, validate]
  refine andThen_of_check ?_ h.properties
  simp only [Validation.seq_eq_valid_iff, Validation.map_eq_valid_iff]
  rw [extraOf_append (by simp [fieldNames]) h.extra]
  refine ⟨_, w.rules, ⟨_, w.style, ⟨_, w.bind, ⟨_, w.h, ⟨_, w.w, ⟨_, w.y, ⟨_, w.x, ⟨_, w.type,
    ⟨w.id, ?_, rfl⟩, ?_, rfl⟩, ?_, rfl⟩, ?_, rfl⟩, ?_, rfl⟩, ?_, rfl⟩, ?_, rfl⟩, ?_, rfl⟩, ?_, rfl⟩
  · exact (field_of_lookup rfl).mpr (str_checked h.id)
  · exact (field_of_lookup rfl).mpr (str_checked h.type)
  · exact (field_of_lookup rfl).mpr (floatField_float h.x)
  · exact (field_of_lookup rfl).mpr (floatField_float h.y)
  · exact (field_of_lookup rfl).mpr (floatField_float h.w)
  · exact (field_of_lookup rfl).mpr (floatField_float h.h)
  · exact (field_of_lookup rfl).mpr rfl
  · exact (field_of_lookup rfl).mpr (styleField_eq_valid_iff.mpr ⟨rfl, h.style⟩)
  · refine (field_of_lookup rfl).mpr (listField_map h.ruleCount fun r hr ↦ ?_)
    exact Rule.validate_toJson (h.rules r hr)

end Widget

/-! ## Links -/

namespace Link

theorem target_of_validate {raw : Json} {link : LinkDef} (h : validate raw = .valid link) :
    checkTarget link.target = .ok () := by
  cases raw with
  | obj fields =>
    simp only [validate, Validation.seqLeft_eq_valid_iff, Validation.seq_eq_valid_iff,
      Validation.map_eq_valid_iff] at h
    obtain ⟨⟨_, target, ⟨_, widget, ⟨type, htype, rfl⟩, hwidget, rfl⟩, htarget, rfl⟩, -⟩ := h
    exact prop_of_field (checkTarget · = .ok ()) htarget (fun _ hraw ↦ checked_str hraw) (by simp)
  | _ => exact absurd h refuse_ne_valid

theorem validate_toJson {link : LinkDef} (h : checkTarget link.target = .ok ()) :
    validate (toJson link) = .valid link := by
  rw [toJson, validate]
  simp only [Validation.seqLeft_eq_valid_iff, Validation.seq_eq_valid_iff,
    Validation.map_eq_valid_iff]
  refine ⟨⟨_, link.target, ⟨_, link.widget, ⟨(), ?_, rfl⟩, ?_, rfl⟩, ?_, rfl⟩, (),
    forbidExtra_eq_valid (by simp [fieldNames])⟩
  · exact (field_of_lookup rfl).mpr rfl
  · exact (field_of_lookup rfl).mpr rfl
  · exact (field_of_lookup rfl).mpr (str_checked h)

end Link

/-! ## Documents -/

namespace SynopticDoc

structure WellFormed (env : SchemaEnv) (doc : SynopticDoc) : Prop where
  schema : checkSchema doc.schemaVersion = .ok ()
  name : lengthError 1 255 doc.name = none
  canvas : doc.canvas.WellFormed
  widgetCount : doc.widgets.length ≤ maxWidgets
  widgets : ∀ w ∈ doc.widgets, w.WellFormed env
  linkCount : doc.links.length ≤ maxWidgets
  links : ∀ link ∈ doc.links, Link.checkTarget link.target = .ok ()
  references : checkReferences doc = .ok ()

/-- **What is accepted is well formed.** -/
theorem wellFormed_of_validate {fields : Dict} {doc : SynopticDoc}
    (h : validate env fields = .valid doc) : doc.WellFormed env := by
  obtain ⟨h, hreferences⟩ := check_of_andThen h
  simp only [Validation.seqLeft_eq_valid_iff, Validation.seq_eq_valid_iff,
    Validation.map_eq_valid_iff] at h
  obtain ⟨⟨_, links, ⟨_, widgets, ⟨_, canvas, ⟨_, name, ⟨schema, hschema, rfl⟩, hname, rfl⟩,
    hcanvas, rfl⟩, hwidgets, rfl⟩, hlinks, rfl⟩, -⟩ := h
  have hlistWidgets : widgets.length ≤ maxWidgets ∧ ∀ w ∈ widgets, w.WellFormed env := by
    refine prop_of_field (fun ws : List Widget ↦ ws.length ≤ maxWidgets ∧
      ∀ w ∈ ws, w.WellFormed env) hwidgets (fun raw hraw ↦ ?_) ?_
    · obtain ⟨hlength, hmem⟩ := mem_of_listField hraw
      refine ⟨hlength, fun w hw ↦ ?_⟩
      obtain ⟨raw, hraw⟩ := hmem w hw
      exact Widget.wellFormed_of_validate hraw
    · rintro _ ⟨⟩
      exact ⟨Nat.zero_le _, by simp⟩
  have hlistLinks : links.length ≤ maxWidgets ∧
      ∀ link ∈ links, Link.checkTarget link.target = .ok () := by
    refine prop_of_field (fun ls : List LinkDef ↦ ls.length ≤ maxWidgets ∧
      ∀ link ∈ ls, Link.checkTarget link.target = .ok ()) hlinks (fun raw hraw ↦ ?_) ?_
    · obtain ⟨hlength, hmem⟩ := mem_of_listField hraw
      refine ⟨hlength, fun link hlink ↦ ?_⟩
      obtain ⟨raw, hraw⟩ := hmem link hlink
      exact Link.target_of_validate hraw
    · rintro _ ⟨⟩
      exact ⟨Nat.zero_le _, by simp⟩
  refine ⟨?_, ?_, ?_, hlistWidgets.1, hlistWidgets.2, hlistLinks.1, hlistLinks.2, hreferences⟩
  · refine prop_of_field (checkSchema · = .ok ()) hschema
      (fun _ hraw ↦ (check_of_andThen hraw).2) ?_
    rintro _ ⟨⟩
    rfl
  · refine prop_of_field (lengthError 1 255 · = none) hname (fun raw hraw ↦ ?_) (by simp)
    simp only [Validation.andThen_eq_valid_iff, Validation.check_eq_valid_iff] at hraw
    obtain ⟨_, -, hlength, rfl⟩ := hraw
    exact hlength
  · refine prop_of_field Canvas.WellFormed hcanvas
      (fun _ hraw ↦ Canvas.wellFormed_of_validate hraw) ?_
    rintro _ ⟨⟩
    exact Canvas.wellFormed_default

/-- **The stored form of a well-formed document is read back as that document.** -/
theorem validate_toJson {doc : SynopticDoc} (h : doc.WellFormed env) :
    validate env doc.toJson = .valid doc := by
  refine andThen_of_check ?_ h.references
  simp only [Validation.seqLeft_eq_valid_iff, Validation.seq_eq_valid_iff,
    Validation.map_eq_valid_iff]
  refine ⟨⟨_, doc.links, ⟨_, doc.widgets, ⟨_, doc.canvas, ⟨_, doc.name,
    ⟨doc.schemaVersion, ?_, rfl⟩, ?_, rfl⟩, ?_, rfl⟩, ?_, rfl⟩, ?_, rfl⟩, (),
    forbidExtra_eq_valid (by simp [fieldNames, schemaKey, toJson])⟩
  · refine (field_of_lookup rfl).mpr (andThen_of_check ?_ h.schema)
    rfl
  · refine (field_of_lookup rfl).mpr ?_
    simp [h.name]
  · exact (field_of_lookup rfl).mpr (Canvas.validate_toJson h.canvas)
  · refine (field_of_lookup rfl).mpr (listField_map h.widgetCount fun w hw ↦ ?_)
    exact Widget.validate_toJson (h.widgets w hw)
  · refine (field_of_lookup rfl).mpr (listField_map h.linkCount fun link hlink ↦ ?_)
    exact Link.validate_toJson (h.links link hlink)

/-- The widgets and links of the document. -/
def document (doc : SynopticDoc) : Document := ⟨doc.widgets.map Widget.toWidgetDef, doc.links⟩

theorem ids_document (doc : SynopticDoc) :
    doc.document.widgets.map WidgetDef.id = doc.widgets.map fun w ↦ w.id :=
  List.map_map ..

theorem WellFormed.accepted {doc : SynopticDoc} (h : doc.WellFormed env) :
    doc.document.Accepted env.texts := by
  have hreferences := h.references
  rw [checkReferences] at hreferences
  split at hreferences
  · simp at hreferences
  rename_i hunique
  rw [not_not] at hunique
  have hlinks := forM_eq_ok_iff.mp hreferences
  exact {
    count := by
      rw [document, List.length_map]
      exact h.widgetCount
    ids := by
      rintro _ hdef
      obtain ⟨w, hw, rfl⟩ := List.mem_map.mp hdef
      exact ite_eq_ok_iff.mp (h.widgets w hw).id
    types := by
      rintro _ hdef
      obtain ⟨w, hw, rfl⟩ := List.mem_map.mp hdef
      exact ite_eq_ok_iff.mp (h.widgets w hw).type
    properties := by
      rintro _ hdef
      obtain ⟨w, hw, rfl⟩ := List.mem_map.mp hdef
      exact (h.widgets w hw).properties
    unique := by
      rw [ids_document]
      exact hunique
    linkCount := h.linkCount
    targets := fun link hlink ↦ ite_eq_ok_iff.mp (h.links link hlink)
    references := by
      rw [ids_document]
      exact fun link hlink ↦ ite_eq_ok_iff.mp (hlinks link hlink) }

end SynopticDoc

end Schema

end Superviseur
