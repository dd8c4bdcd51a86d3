import Superviseur.Api.DocumentRoundTrip
import Superviseur.Api.Validated
import Superviseur.Front.Mounted
import Superviseur.Library.UriComponent

/-!
# Links between synoptics

A widget of a synoptic may open another one: a link by its own target, any widget by an entry in the
links of the document. The viewer gives the target to the application, which writes it in the
address of the page; the address is read back, and the synoptic asked for.

A target is `synoptic:` and a slug. Nothing on the way takes the slug out of it, so what is asked
for is the target itself, which is the slug of no synoptic.
-/

namespace Superviseur

/-! ## Addresses -/

inductive Route where
  | login
  | list
  | admin
  | view (slug : String)
  /-- No slug for a new synoptic. -/
  | edit (slug : Option String)

namespace Route

/-- `hash.replace(/^#\/?/, '')`. -/
def dropHash : List Char → List Char
  | '#' :: '/' :: cs => cs
  | '#' :: cs => cs
  | cs => cs

/-- `decode`, and the test of what it gives. -/
def readSlug (part : Option (List Char)) : Option String :=
  (part.bind fun cs ↦ UriComponent.decode (String.ofList cs)).filter (· ≠ "")

/-- `parseRoute`. -/
def parse (hash : String) : Route :=
  match ((dropHash hash.toList).splitOn '/').filter fun part ↦ !part.isEmpty with
  | [] => list
  | head :: args =>
    if head = "login".toList then login
    else if head = "admin".toList then admin
    else if head = "view".toList then
      match readSlug args.head? with
      | some slug => view slug
      | none => list
    else if head = "edit".toList then
      if args.head? = some "new".toList then edit none
      else
        match readSlug args.head? with
        | some slug => edit (some slug)
        | none => list
    else list

/-- `hrefFor`. -/
def href : Route → String
  | login => "#/login"
  | list => "#/"
  | admin => "#/admin"
  | view slug => "#/view/" ++ UriComponent.encode slug
  | edit none => "#/edit/new"
  | edit (some slug) => "#/edit/" ++ UriComponent.encode slug

theorem readSlug_encode {slug : String} (h : slug ≠ "") :
    readSlug (some (UriComponent.encode slug).toList) = some slug := by
  rw [readSlug, Option.bind_some, String.ofList_toList, UriComponent.decode_encode,
    Option.filter_some, if_pos (decide_eq_true h)]

theorem splitOn_encode {head : List Char} (hhead : '/' ∉ head) (slug : String) :
    (head ++ '/' :: (UriComponent.encode slug).toList).splitOn '/' =
      [head, (UriComponent.encode slug).toList] := by
  have hslug : '/' ∉ (UriComponent.encode slug).toList := fun hmem ↦
    absurd (UriComponent.isUnescaped_or_eq_of_mem_encode hmem) (by decide)
  rw [List.splitOn_eq_splitOnP, List.splitOnP_append_cons_of_forall_mem _ _ (by simp),
    List.splitOnP_eq_singleton]
  · exact fun c hc ↦ beq_eq_false_iff_ne.mpr fun h ↦ hslug (h ▸ hc)
  · exact fun c hc ↦ beq_eq_false_iff_ne.mpr fun h ↦ hhead (h ▸ hc)

theorem filter_splitOn_encode {head : List Char} (hhead : '/' ∉ head) (hne : head ≠ [])
    {slug : String} (h : slug ≠ "") :
    ((head ++ '/' :: (UriComponent.encode slug).toList).splitOn '/').filter
      (fun part ↦ !part.isEmpty) = [head, (UriComponent.encode slug).toList] := by
  have hslug : (UriComponent.encode slug).toList ≠ [] := fun hnil ↦
    UriComponent.encode_ne_empty h (String.toList_eq_nil_iff.mp hnil)
  rw [splitOn_encode hhead, List.filter_cons_of_pos (by simp [hne]),
    List.filter_cons_of_pos (by simpa using hslug), List.filter_nil]

/-- **The address of a synoptic is read back as that synoptic**, whatever its slug. -/
theorem parse_href_view {slug : String} (h : slug ≠ "") : parse (view slug).href = view slug := by
  have hparts : ((dropHash (view slug).href.toList).splitOn '/').filter
      (fun part ↦ !part.isEmpty) = ["view".toList, (UriComponent.encode slug).toList] := by
    rw [← filter_splitOn_encode (by decide) (by decide) h, href, String.toList_append]
    rfl
  have hlogin : "view".toList ≠ "login".toList := by decide
  have hadmin : "view".toList ≠ "admin".toList := by decide
  rw [parse, hparts]
  dsimp only
  rw [if_neg hlogin, if_neg hadmin, if_pos rfl, List.head?_cons, readSlug_encode h]

end Route

/-! ## Links -/

namespace Navigation

open Schema (Widget)

/-- Whether a value is true for the viewer. -/
def isTruthy : Json → Bool
  | .null => false
  | .bool b => b
  | .int n => n ≠ 0
  | .float x => x ≠ .nan && x ≠ .fin 0
  | .str s => s ≠ ""
  | .arr _ | .obj _ => true

/-- `stringProp`. -/
def stringProp (w : Widget) (key : String) : String :=
  match w.extra.get key with
  | .str s => s
  | _ => ""

section

variable (doc : Schema.SynopticDoc)

/-- `linkTargets.get(id)`: the last entry of a widget counts. -/
def linkTarget (id : String) : Option String :=
  (doc.links.filter fun link ↦ link.widget = id).getLast?.map LinkDef.target

/-- `linkOf(id)`: the first entry of a widget counts. -/
def linkOf (id : String) : Option String :=
  (doc.links.find? fun link ↦ link.widget = id).map LinkDef.target

variable (w : Widget)

/-- The widget as the viewer mounts it: a link without a target takes that of its entry. -/
def mounted : Widget :=
  match linkTarget doc w.id with
  | some target =>
    if w.type = "link" && !isTruthy (w.extra.get "target") then
      { w with extra := ("target", .str target) :: w.extra }
    else w
  | none => w

/-- What `navigate` is called with when the widget is activated. -/
def activated : Option String :=
  if w.type = "link" then (some (stringProp (mounted doc w) "target")).filter (· ≠ "")
  else (linkTarget doc w.id).filter (· ≠ "")

/-- The target the editor shows for the widget. -/
def shown : Option String :=
  if w.type = "link" ∧ stringProp w "target" ≠ "" then some (stringProp w "target")
  else linkOf doc w.id

/-- The widget is a link with a target of its own, or has an entry in the links. -/
def HasTarget : Prop :=
  (w.type = "link" ∧ stringProp w "target" ≠ "") ∨ ∃ link ∈ doc.links, link.widget = w.id

end

/-- `navigate` of the application: the synoptic of the address it writes. -/
def opened (target : String) : Option String :=
  match Route.parse (Route.view target).href with
  | .view slug => some slug
  | _ => none

/-- The path of the request of `synoptic(slug)`. -/
def requestPath (slug : String) : String := "/synoptics/" ++ UriComponent.encode slug

/-- The slug in the path of a request. -/
def pathSlug (path : String) : Option String :=
  ("/synoptics/".toList.isPrefixOf? path.toList).bind fun part ↦
    UriComponent.decode (String.ofList part)

/-- The slug the server is asked for when `navigate` is called. -/
def asked (target : String) : Option String :=
  (opened target).bind fun slug ↦ pathSlug (requestPath slug)

/-- Activating the widget loads the synoptic its target names, which is the one the editor shows. -/
def LeadsToTarget (doc : Schema.SynopticDoc) (w : Widget) : Prop :=
  ∃ slug, activated doc w = some ("synoptic:" ++ slug) ∧
    asked ("synoptic:" ++ slug) = some slug ∧ shown doc w = some ("synoptic:" ++ slug)

/-! ## Targets -/

theorem exists_slug {target : String} (h : isTarget target = true) :
    ∃ slug, target = "synoptic:" ++ slug := by
  rw [isTarget] at h
  split at h
  · rename_i slug hslug
    have happend := List.isPrefixOf?_eq_some_iff_append_eq.mp hslug
    refine ⟨String.ofList slug, String.toList_inj.mp (happend.symm.trans ?_)⟩
    rw [String.toList_append, String.toList_ofList (l := slug)]
  · exact absurd h Bool.false_ne_true

/-- The address of a synoptic, and the request for it, keep what `navigate` is given. -/
theorem asked_eq {target : String} (h : target ≠ "") : asked target = some target := by
  rw [asked, opened, Route.parse_href_view h]
  change pathSlug (requestPath target) = some target
  have hpath : "/synoptics/".toList.isPrefixOf?
      ("/synoptics/".toList ++ (UriComponent.encode target).toList) =
        some (UriComponent.encode target).toList :=
    List.isPrefixOf?_eq_some_iff_append_eq.mpr rfl
  rw [pathSlug, requestPath, String.toList_append, hpath, Option.bind_some,
    String.ofList_toList, UriComponent.decode_encode]

theorem asked_target (slug : String) :
    asked ("synoptic:" ++ slug) = some ("synoptic:" ++ slug) := by
  refine asked_eq fun h ↦ ?_
  have hlength := congrArg (fun s ↦ s.toList.length) h
  simp at hlength

theorem asked_ne_slug (slug : String) : asked ("synoptic:" ++ slug) ≠ some slug := by
  rw [asked_target]
  intro h
  have hlength := congrArg (fun s ↦ s.toList.length) (Option.some.inj h)
  simp at hlength
  omega

section

variable {env : SchemaEnv} {doc : Schema.SynopticDoc} {w : Widget}

/-- The target of a widget that passes the checks is missing, or a target. -/
theorem target_of_properties (h : w.toWidgetDef.properties env.texts = .ok ()) :
    w.extra.get "target" = .null ∨
      ∃ target, w.extra.get "target" = .str target ∧ isTarget target = true := by
  rw [WidgetDef.properties] at h
  obtain ⟨⟨⟩, -, h⟩ := bind_eq_ok h
  obtain ⟨⟨⟩, -, h⟩ := bind_eq_ok h
  obtain ⟨⟨⟩, -, h⟩ := bind_eq_ok h
  have hcheck := Schema.ite_eq_ok_iff.mp h
  cases htarget : w.extra.get "target" with
  | null => exact .inl rfl
  | str target =>
    rw [htarget] at hcheck
    exact .inr ⟨target, rfl, hcheck⟩
  | bool | int | float | arr | obj =>
    rw [htarget] at hcheck
    exact absurd hcheck Bool.false_ne_true

theorem linkTarget_of_mem {id : String} {link : LinkDef} (hlink : link ∈ doc.links)
    (hid : link.widget = id) : ∃ other ∈ doc.links, linkTarget doc id = some other.target := by
  have hne : doc.links.filter (fun link ↦ link.widget = id) ≠ [] :=
    List.ne_nil_of_mem (List.mem_filter.mpr ⟨hlink, decide_eq_true hid⟩)
  obtain ⟨other, hother⟩ := List.getLast?_isSome.mpr hne |> Option.isSome_iff_exists.mp
  refine ⟨other, (List.mem_filter.mp (List.mem_of_getLast? hother)).1, ?_⟩
  rw [linkTarget, hother]
  rfl

theorem target_ne_empty {target : String} (h : isTarget target = true) : target ≠ "" := by
  rintro rfl
  exact absurd h (by decide)

theorem activated_of_own (hwell : doc.WellFormed env) (hw : w ∈ doc.widgets)
    (htype : w.type = "link") (hown : stringProp w "target" ≠ "") :
    activated doc w = some (stringProp w "target") ∧
      isTarget (stringProp w "target") = true := by
  rcases target_of_properties (hwell.widgets w hw).properties with hnull | ⟨own, heq, hcheck⟩
  · exact absurd (by rw [stringProp, hnull]) hown
  · have hprop : stringProp w "target" = own := by rw [stringProp, heq]
    have hmounted : mounted doc w = w := by
      rw [mounted, heq]
      split
      · simp [isTruthy, target_ne_empty hcheck]
      · rfl
    rw [hprop] at hown ⊢
    rw [activated, if_pos htype, hmounted, hprop, Option.filter_some,
      if_pos (decide_eq_true hown)]
    exact ⟨rfl, hcheck⟩

theorem activated_of_entry (hwell : doc.WellFormed env) (hw : w ∈ doc.widgets)
    (htarget : HasTarget doc w) (hown : ¬ (w.type = "link" ∧ stringProp w "target" ≠ "")) :
    ∃ target, activated doc w = some target ∧ linkTarget doc w.id = some target ∧
      isTarget target = true := by
  obtain ⟨link, hlink, hid⟩ := htarget.resolve_left hown
  obtain ⟨other, hother, hentry⟩ := linkTarget_of_mem hlink hid
  have hcheck : isTarget other.target = true := hwell.accepted.targets other hother
  have hne := decide_eq_true (target_ne_empty hcheck)
  refine ⟨other.target, ?_, hentry, hcheck⟩
  rw [activated]
  by_cases htype : w.type = "link"
  · -- The widget has no target of its own, and is mounted with that of its entry.
    have hnull : w.extra.get "target" = .null := by
      rcases target_of_properties (hwell.widgets w hw).properties with hnull | ⟨own, heq, hcheck⟩
      · exact hnull
      · refine absurd ⟨htype, ?_⟩ hown
        rw [stringProp, heq]
        exact target_ne_empty hcheck
    have hmounted : stringProp (mounted doc w) "target" = other.target := by
      rw [mounted, hentry, hnull]
      simp only [htype, isTruthy]
      rfl
    rw [if_pos htype, hmounted, Option.filter_some, if_pos hne]
  · rw [if_neg htype, hentry, Option.filter_some, if_pos hne]

theorem exists_activated (hwell : doc.WellFormed env) (hw : w ∈ doc.widgets)
    (htarget : HasTarget doc w) :
    ∃ target, activated doc w = some target ∧ isTarget target = true := by
  by_cases hown : w.type = "link" ∧ stringProp w "target" ≠ ""
  · exact ⟨_, activated_of_own hwell hw hown.1 hown.2⟩
  · obtain ⟨target, hactivated, -, hcheck⟩ := activated_of_entry hwell hw htarget hown
    exact ⟨target, hactivated, hcheck⟩

/-- The viewer opens the target the editor shows, unless the widget has no target of its own and its
first and last entries differ. -/
theorem activated_eq_shown_iff (hwell : doc.WellFormed env) (hw : w ∈ doc.widgets)
    (htarget : HasTarget doc w) : activated doc w = shown doc w ↔
      (w.type = "link" ∧ stringProp w "target" ≠ "") ∨ linkTarget doc w.id = linkOf doc w.id := by
  rw [shown]
  by_cases hown : w.type = "link" ∧ stringProp w "target" ≠ ""
  · rw [if_pos hown]
    exact iff_of_true (activated_of_own hwell hw hown.1 hown.2).1 (.inl hown)
  · obtain ⟨target, hactivated, hentry, -⟩ := activated_of_entry hwell hw htarget hown
    rw [if_neg hown, hactivated, hentry]
    exact ⟨.inr, fun h ↦ h.resolve_left hown⟩

/-- A target is the slug of no synoptic: its first group has a colon. -/
theorem isValidSlug_target (slug : String) : isValidSlug ("synoptic:" ++ slug) = false := by
  have hdrop : ∃ rest, dropLineBreak ("synoptic:" ++ slug).toList = "synoptic:".toList ++ rest := by
    rw [String.toList_append, dropLineBreak]
    split
    · rename_i hlast
      cases hslug : slug.toList with
      | nil =>
        rw [hslug] at hlast
        exact absurd hlast (by decide)
      | cons c cs => exact ⟨_, List.dropLast_append_of_ne_nil (List.cons_ne_nil c cs)⟩
    · exact ⟨_, rfl⟩
  obtain ⟨rest, hrest⟩ := hdrop
  have hslug : isSlug ("synoptic:".toList ++ rest) = false := by
    obtain ⟨group, groups, hgroups⟩ := List.exists_cons_of_ne_nil (List.splitOn_ne_nil '-' rest)
    have hfirst : ("synoptic:".toList ++ rest).splitOn '-' =
        ("synoptic:".toList ++ group) :: groups := by
      change ('s' :: 'y' :: 'n' :: 'o' :: 'p' :: 't' :: 'i' :: 'c' :: ':' :: rest).splitOn '-' = _
      simp [List.splitOn_cons_eq_if_modifyHead, hgroups]
    rw [isSlug, hfirst, List.all_cons, List.all_append]
    simp [isLower, isDigit]
  rw [isValidSlug, hrest, hslug, Bool.false_and]

/-- **A widget that has a target never leads to it**: the synoptic asked for is the one whose slug
is the whole target, and there is none. -/
theorem never_leads {raw : Dict} (hvalid : validateDocument env raw = .valid doc)
    (hw : w ∈ doc.widgets) (htarget : HasTarget doc w) :
    ¬ LeadsToTarget doc w ∧ ∃ slug, activated doc w = some ("synoptic:" ++ slug) ∧
      asked ("synoptic:" ++ slug) = some ("synoptic:" ++ slug) ∧
        isValidSlug ("synoptic:" ++ slug) = false := by
  refine ⟨fun ⟨slug, _, hasked, _⟩ ↦ asked_ne_slug slug hasked, ?_⟩
  obtain ⟨target, hactivated, hcheck⟩ :=
    exists_activated (Schema.SynopticDoc.wellFormed_of_validate hvalid) hw htarget
  obtain ⟨slug, rfl⟩ := exists_slug hcheck
  exact ⟨slug, hactivated, asked_target slug, isValidSlug_target slug⟩

/-- A link to a synoptic. -/
def shortcut : Widget where
  id := "l"
  type := "link"
  bind := []
  extra := [("text", .str "CTA 2"), ("target", .str "synoptic:cta-2")]
  x := .fin 0
  y := .fin 0
  w := .fin 160
  h := .fin 40
  style := []
  rules := []

def shortcutDoc : Schema.SynopticDoc := ⟨1, "Chaufferie", .default, [shortcut], []⟩

theorem wellFormed_shortcutDoc : shortcutDoc.WellFormed plainEnv.schema where
  schema := rfl
  name := (by decide : Schema.lengthError 1 255 "Chaufferie" = none)
  canvas := Schema.Canvas.wellFormed_default
  widgetCount := (by decide : 1 ≤ maxWidgets)
  widgets := by
    intro w hw
    obtain rfl := List.mem_singleton.mp hw
    exact {
      id := (by decide : Widget.checkId "l" = .ok ())
      type := (by decide : Widget.checkType "link" = .ok ())
      x := (by decide : Schema.floatError (-10000) 20000 (.fin 0) = none)
      y := (by decide : Schema.floatError (-10000) 20000 (.fin 0) = none)
      w := (by decide : Schema.floatError 1 20000 (.fin 160) = none)
      h := (by decide : Schema.floatError 1 20000 (.fin 40) = none)
      style := rfl
      ruleCount := Nat.zero_le _
      rules := fun r hr ↦ absurd hr List.not_mem_nil
      extra := by simp [shortcut, Widget.fieldNames]
      properties := (by decide : shortcut.toWidgetDef.properties _ = .ok ()) }
  linkCount := Nat.zero_le _
  links := fun link hlink ↦ absurd hlink List.not_mem_nil
  references := rfl

theorem hasTarget_shortcut : HasTarget shortcutDoc shortcut :=
  .inl ⟨rfl, (by decide : "synoptic:cta-2" ≠ "")⟩

/-- The link asks for a synoptic of the slug `synoptic:cta-2`. -/
theorem never_leads_shortcut : ¬ LeadsToTarget shortcutDoc shortcut ∧
    ∃ slug, activated shortcutDoc shortcut = some ("synoptic:" ++ slug) ∧
      asked ("synoptic:" ++ slug) = some ("synoptic:" ++ slug) ∧
        isValidSlug ("synoptic:" ++ slug) = false :=
  never_leads (Schema.SynopticDoc.validate_toJson wellFormed_shortcutDoc)
    (List.mem_singleton_self _) hasTarget_shortcut

/-- **Not every widget that has a target leads to it.** -/
theorem not_leads : ¬ ∀ (env : SchemaEnv) (raw : Dict) (doc : Schema.SynopticDoc),
    validateDocument env raw = .valid doc →
      ∀ w ∈ doc.widgets, HasTarget doc w → LeadsToTarget doc w := by
  intro h
  obtain ⟨slug, -, hasked, -⟩ := h _ _ _
    (Schema.SynopticDoc.validate_toJson wellFormed_shortcutDoc) shortcut
    (List.mem_singleton_self _) hasTarget_shortcut
  exact asked_ne_slug slug hasked

end

end Navigation

end Superviseur
