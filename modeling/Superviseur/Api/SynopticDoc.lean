import Superviseur.Library.Json
import Superviseur.Library.UuidText
import Superviseur.Common.Models

/-!
# The widgets of a synoptic

What a document says of its widgets and of the points they are bound to, and the checks a document
passes before it is stored. A point may be written in any form that `uuid.UUID` reads, and the
document is stored as it is.

The geometry, the styles and the rules of the widgets, and the canvas, are left out: they play no
part in what the widgets are bound to.
-/

namespace Superviseur

/-- A widget; `extra` has the properties of its type. -/
structure WidgetDef where
  id : String
  type : String
  bind : Dict
  extra : Dict

structure LinkDef where
  widget : String
  target : String

/-- The widgets and links of a synoptic. -/
structure Document where
  widgets : List WidgetDef
  links : List LinkDef

/-- `MAX_WIDGETS`. -/
def maxWidgets : ℕ := 500

/-- `MAX_IMAGE_BYTES`. -/
def maxImageBytes : ℕ := 5 * 1024 * 1024

/-- `WIDGET_TYPES`. -/
def widgetTypes : List String :=
  ["value", "label", "gauge", "indicator", "switch", "setpoint", "trend", "alarm_list", "image",
    "link", "shape"]

/-! ## Texts -/

/-- `$` matches at the end of a text, and before a line break that ends it. -/
def dropLineBreak (cs : List Char) : List Char :=
  if cs.getLast? = some '\n' then cs.dropLast else cs

def isLower (c : Char) : Bool := 'a' ≤ c && c ≤ 'z'

def isUpper (c : Char) : Bool := 'A' ≤ c && c ≤ 'Z'

def isDigit (c : Char) : Bool := '0' ≤ c && c ≤ '9'

/-- `_ID.match`. -/
def isId (text : String) : Bool :=
  let cs := dropLineBreak text.toList
  1 ≤ cs.length && cs.length ≤ 64 &&
    cs.all fun c ↦ isLower c || isUpper c || isDigit c || c == '_' || c == '-'

/-- A slug: groups of lowercase letters and digits between hyphens. -/
def isSlug (cs : List Char) : Bool :=
  (cs.splitOn '-').all fun group ↦ !group.isEmpty && group.all fun c ↦ isLower c || isDigit c

/-- `_TARGET.match`. -/
def isTarget (text : String) : Bool :=
  match "synoptic:".toList.isPrefixOf? text.toList with
  | some slug => isSlug (dropLineBreak slug)
  | none => false

/-- `is_data_image`. -/
def isDataImage (text : String) : Bool :=
  ["png", "jpeg", "svg+xml", "webp"].any fun kind ↦
    match ("data:image/" ++ kind ++ ";base64,").toList.isPrefixOf? text.toList with
    | some rest =>
      let data := dropLineBreak rest
      !data.isEmpty &&
        (data.all fun c ↦
          isLower c || isUpper c || isDigit c || c == '+' || c == '/' || c == '=') &&
        data.length * 3 / 4 ≤ maxImageBytes
    | none => false

/-! ## The checks of a document -/

variable (texts : Texts)

/-- `_check_uuid`. -/
def checkUuid (place : String) (value : Json) : Except String Unit :=
  match UuidText.read (value.toStr texts) with
  | some _ => .ok ()
  | none => .error (place ++ " : identifiant de point invalide")

/-- The identifier in an entry of `bind.points`. -/
def entryPoint : Json → Json
  | .obj fields => Dict.get fields "point"
  | x => x

namespace WidgetDef

variable (w : WidgetDef)

/-- How the errors name the widget. -/
def place : String := "widget " ++ w.id

/-- The check of `bind.point`. -/
def checkPoint : Except String Unit :=
  match w.bind.get "point" with
  | .null => .ok ()
  | point => checkUuid texts w.place point

/-- The checks of `bind.points`. -/
def checkPoints : Except String Unit := do
  let points ← ((w.bind.lookup "points").getD (.arr [])).iterate
  points.forM fun entry ↦ checkUuid texts w.place (entryPoint entry)
  if 8 < points.length then .error (w.place ++ " : 8 points au plus par courbe") else .ok ()

/-- The check of `src`. -/
def checkSrc : Except String Unit :=
  if (w.extra.lookup "src").all fun src ↦ match src with
    | .str src => isDataImage src
    | _ => false
  then .ok ()
  else .error (w.place ++ " : image en data URL (PNG, JPEG, WebP, SVG), 5 Mo au plus")

/-- The check of `target`. -/
def checkTarget : Except String Unit :=
  if match w.extra.get "target" with
    | .null => true
    | .str target => isTarget target
    | _ => false
  then .ok ()
  else .error (w.place ++ " : cible de navigation invalide (synoptic:<slug>)")

/-- `_properties`. -/
def properties : Except String Unit := do
  w.checkPoint texts
  w.checkPoints texts
  w.checkSrc
  w.checkTarget

end WidgetDef

/-- `validate_document` accepts the document. -/
structure Document.Accepted (doc : Document) : Prop where
  count : doc.widgets.length ≤ maxWidgets
  ids : ∀ w ∈ doc.widgets, isId w.id = true
  types : ∀ w ∈ doc.widgets, w.type ∈ widgetTypes
  properties : ∀ w ∈ doc.widgets, w.properties texts = .ok ()
  unique : (doc.widgets.map WidgetDef.id).Nodup
  linkCount : doc.links.length ≤ maxWidgets
  targets : ∀ link ∈ doc.links, isTarget link.target = true
  references : ∀ link ∈ doc.links, link.widget ∈ doc.widgets.map WidgetDef.id

/-! ## What an accepted widget is bound to -/

variable {texts}

theorem read_of_checkUuid {place text : String} (h : checkUuid texts place (.str text) = .ok ()) :
    ∃ u, UuidText.read text = some u := by
  rw [checkUuid, Json.toStr] at h
  cases hread : UuidText.read text with
  | none =>
    rw [hread] at h
    nomatch h
  | some u => exact ⟨u, rfl⟩

theorem bind_eq_ok {α : Type} {x : Except String α} {f : α → Except String Unit}
    (h : x >>= f = .ok ()) : ∃ a, x = .ok a ∧ f a = .ok () := by
  cases x with
  | error e => nomatch h
  | ok a => exact ⟨a, rfl, h⟩

theorem forM_eq_ok_iff {α : Type} {xs : List α} {f : α → Except String Unit} :
    xs.forM f = .ok () ↔ ∀ x ∈ xs, f x = .ok () := by
  induction xs with
  | nil => exact ⟨fun _ _ hx ↦ (nomatch hx), fun _ ↦ rfl⟩
  | cons y ys ih =>
    have hcons : (y :: ys).forM f = (f y >>= fun _ ↦ ys.forM f) := rfl
    rw [hcons, List.forall_mem_cons]
    constructor
    · intro h
      obtain ⟨⟨⟩, hy, hys⟩ := bind_eq_ok h
      exact ⟨hy, ih.mp hys⟩
    · rintro ⟨hy, hys⟩
      rw [hy]
      exact ih.mpr hys

namespace WidgetDef

variable {w : WidgetDef}

theorem checkPoint_eq {text : String} (hpoint : w.bind.get "point" = .str text) :
    w.checkPoint texts = checkUuid texts w.place (.str text) := by
  rw [checkPoint, hpoint]

theorem checkPoints_eq_ok {items : List Json} (hpoints : w.bind.lookup "points" = some (.arr items))
    (hitems : ∀ entry ∈ items, checkUuid texts w.place (entryPoint entry) = .ok ())
    (hlength : items.length ≤ 8) : w.checkPoints texts = .ok () := by
  have hforM := forM_eq_ok_iff.mpr hitems
  rw [checkPoints, hpoints]
  exact (congrArg (· >>= fun _ ↦ if 8 < items.length
    then .error (w.place ++ " : 8 points au plus par courbe") else .ok ()) hforM).trans
      (if_neg hlength.not_gt)

/-- The text in `bind.point` of a widget that passes the checks is an identifier. -/
theorem read_point (h : w.properties texts = .ok ()) {text : String}
    (hpoint : w.bind.get "point" = .str text) : ∃ u, UuidText.read text = some u := by
  rw [properties] at h
  obtain ⟨⟨⟩, hcheck, -⟩ := bind_eq_ok h
  rw [checkPoint, hpoint] at hcheck
  exact read_of_checkUuid hcheck

theorem read_entry (h : w.properties texts = .ok ()) {items : List Json}
    (hpoints : w.bind.get "points" = .arr items) {entry : Json} (hentry : entry ∈ items)
    {text : String} (htext : entryPoint entry = .str text) : ∃ u, UuidText.read text = some u := by
  rw [properties] at h
  obtain ⟨⟨⟩, -, h⟩ := bind_eq_ok h
  obtain ⟨⟨⟩, hcheck, -⟩ := bind_eq_ok h
  have hlookup : (w.bind.lookup "points").getD (.arr []) = .arr items := by
    rw [Dict.get] at hpoints
    cases hfield : w.bind.lookup "points" with
    | none =>
      rw [hfield] at hpoints
      nomatch hpoints
    | some field =>
      rw [hfield] at hpoints
      exact hpoints
  rw [checkPoints, hlookup] at hcheck
  obtain ⟨points, heq, hcheck⟩ := bind_eq_ok hcheck
  obtain rfl : items = points := Except.ok.inj heq
  obtain ⟨⟨⟩, hcheck, -⟩ := bind_eq_ok hcheck
  have hread := forM_eq_ok_iff.mp hcheck entry hentry
  rw [htext] at hread
  exact read_of_checkUuid hread

end WidgetDef

end Superviseur
