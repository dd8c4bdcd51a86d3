import Superviseur.Front.EditorState
import Superviseur.Library.Trace

/-!
# The integrity of edited documents

Identifiers of widgets stay unique, links go from existing widgets, one at most from each, and only
existing widgets are selected, whatever the user does and however much is undone (`intact_run`): an
identifier is never set once a widget has been made, and a new one is free.

This holds of every document that `undo` and `redo` can bring back, so that the invariant is about
the snapshots too; the clipboard may hold anything.
-/

namespace Superviseur.Editor

variable {doc : SynopticDoc} {w : WidgetDef} {id : Id} {selection : List Id}

/-- A document with unique identifiers, links from existing widgets, and one link at most from
each. -/
structure Intact (doc : SynopticDoc) : Prop where
  ids : doc.ids.Nodup
  links : ∀ l ∈ doc.links, l.widget ∈ doc.ids
  oneLink : (doc.links.map LinkDef.widget).Nodup

namespace Intact

/-- What keeps the identifiers and the links keeps the document intact. -/
theorem of_perm {doc' : SynopticDoc} (h : Intact doc) (hids : doc'.ids.Perm doc.ids)
    (hlinks : doc'.links = doc.links) : Intact doc' where
  ids := hids.nodup_iff.mpr h.ids
  links := by
    rw [hlinks]
    exact fun l hl ↦ hids.mem_iff.mpr (h.links l hl)
  oneLink := hlinks ▸ h.oneLink

end Intact

/-! ## Identifiers -/

namespace WidgetDef

theorem id_set {key : String} (hne : "id" ≠ key) (value : JsonData) :
    (w.set key value).id = w.id := by
  rw [id, get, set, JsonData.lookup_setField hne, id, get]

@[simp] theorem id_set_id (id : Id) : (w.set "id" id).id = id := by
  rw [WidgetDef.id, get, set, JsonData.lookup_setField_self, Option.getD_some]

@[simp] theorem id_at (x y : ℚ) : (w.at_ x y).id = w.id := by
  rw [at_, id_set (by decide), id_set (by decide)]

theorem id_setSide {key : String} (hne : "id" ≠ key) (side : Option ℚ) :
    (w.setSide key side).id = w.id := by
  cases side with
  | none => rfl
  | some q => exact id_set hne _

@[simp] theorem id_assign (rect : PartialRect) : (w.assign rect).id = w.id := by
  rw [assign, id_setSide (by decide), id_setSide (by decide), id_setSide (by decide),
    id_setSide (by decide)]

end WidgetDef

theorem lookup_setLast {last : String} {value : Option JsonData}
    {fields : List (String × JsonData)} {x : JsonData} (hne : "id" ≠ last)
    (h : setLast (.obj fields) last value = some x) :
    ∃ fields', x = .obj fields' ∧ fields'.lookup "id" = fields.lookup "id" := by
  have herase : (JsonData.eraseField fields last).lookup "id" = fields.lookup "id" :=
    JsonData.lookup_eraseField hne
  cases value with
  | none =>
    obtain rfl := Option.some.inj h
    exact ⟨_, rfl, herase⟩
  | some value =>
    rw [setLast] at h
    split at h
    · obtain rfl := Option.some.inj h
      exact ⟨_, rfl, herase⟩
    · obtain rfl := Option.some.inj h
      exact ⟨_, rfl, JsonData.lookup_setField hne value⟩

theorem lookup_setPath {key : String} {keys : List String} {value : Option JsonData}
    {fields : List (String × JsonData)} {x : JsonData} (hne : "id" ≠ key)
    (h : setPath value (key :: keys) (.obj fields) = some x) :
    ∃ fields', x = .obj fields' ∧ fields'.lookup "id" = fields.lookup "id" := by
  cases keys with
  | nil => exact lookup_setLast hne h
  | cons key' keys =>
    obtain ⟨inner, _, hassign⟩ := Option.bind_eq_some_iff.mp h
    obtain rfl := Option.some.inj hassign
    exact ⟨_, rfl, JsonData.lookup_setField hne inner⟩

/-- A widget keeps its identifier, unless a property is set at or below it. -/
theorem WidgetDef.id_setPath {w' : WidgetDef} {path : String} {value : Option JsonData}
    (hpath : (keysOf path).head? ≠ some "id") (h : w.setPath path value = some w') :
    w'.id = w.id := by
  rw [setPath] at h
  split at h
  case h_2 => nomatch h
  case h_1 fields hset =>
    obtain rfl := Option.some.inj h
    rw [id, get, id, get]
    cases hkeys : keysOf path with
    | nil =>
      rw [hkeys] at hset
      obtain rfl := JsonData.obj.inj (Option.some.inj hset)
      rfl
    | cons key keys =>
      rw [hkeys] at hset hpath
      have hne : "id" ≠ key := fun h ↦ hpath (h ▸ rfl)
      obtain ⟨fields', heq, hlookup⟩ := lookup_setPath hne hset
      obtain rfl := JsonData.obj.inj heq
      rw [hlookup]

/-! ## New identifiers -/

theorem widgetId_injective : Function.Injective widgetId := by
  intro m n h
  have htext : toString m = toString n := by simpa using JsonData.str.inj h
  have hdigits : Nat.toDigits 10 m = Nat.toDigits 10 n := by
    rw [← Nat.toList_repr, ← Nat.toList_repr]
    exact congrArg String.toList htext
  rw [← Nat.ofDigitChars_toDigits (n := m) (by decide) (le_refl 10), hdigits,
    Nat.ofDigitChars_toDigits (by decide) (le_refl 10)]

/-- The number found is free, or there are `fuel` numbers used before it. -/
theorem firstFree_spec (used : List Id) (n fuel : ℕ) :
    widgetId (firstFree used n fuel) ∉ used ∨
      firstFree used n fuel = n + fuel ∧ ∀ m, n ≤ m → m < n + fuel → widgetId m ∈ used := by
  induction fuel generalizing n with
  | zero => exact .inr ⟨rfl, fun m h h' ↦ absurd h' (by omega)⟩
  | succ fuel ih =>
    rw [firstFree]
    split
    · rename_i hn
      refine (ih (n + 1)).imp_right fun ⟨heq, hused⟩ ↦ ⟨by omega, fun m h h' ↦ ?_⟩
      rcases Nat.eq_or_lt_of_le h with rfl | hlt
      · exact hn
      · exact hused m hlt (by omega)
    · exact .inl ‹_›

theorem nextWidgetId_notMem (doc : SynopticDoc) : nextWidgetId doc ∉ doc.ids := by
  rw [nextWidgetId]
  rcases firstFree_spec doc.ids (doc.widgets.length + 1) doc.widgets.length with
    hfree | ⟨heq, hused⟩
  · exact hfree
  · rw [heq]
    intro hlast
    -- All of `n`, ..., `n + length` would be used: more identifiers than there are widgets.
    have hsubset : (List.range' (doc.widgets.length + 1) (doc.widgets.length + 1)).map widgetId
        ⊆ doc.ids := by
      intro id hid
      obtain ⟨m, hm, rfl⟩ := List.mem_map.mp hid
      obtain ⟨hle, hlt⟩ := List.mem_range'_1.mp hm
      rcases Nat.lt_or_eq_of_le (Nat.lt_succ_iff.mp hlt) with hlt' | heq'
      · exact hused m hle hlt'
      · exact heq' ▸ hlast
    have hnodup : ((List.range' (doc.widgets.length + 1) (doc.widgets.length + 1)).map
        widgetId).Nodup :=
      (List.nodup_range' (h := Nat.one_pos)).map widgetId_injective
    have hlength := (List.subperm_of_subset hnodup hsubset).length_le
    rw [List.length_map, List.length_range', SynopticDoc.ids, List.length_map] at hlength
    omega

/-! ## What keeps the identifiers -/

theorem map_id_modifyFirst {p : WidgetDef → Bool} {f : WidgetDef → WidgetDef}
    (hf : ∀ w, p w → (f w).id = w.id) (ws : List WidgetDef) :
    (modifyFirst p f ws).map WidgetDef.id = ws.map WidgetDef.id := by
  induction ws with
  | nil => rfl
  | cons w ws ih =>
    rw [modifyFirst]
    split
    · rw [List.map_cons, List.map_cons, hf w ‹_›]
    · rw [List.map_cons, List.map_cons, ih]

namespace SynopticDoc

theorem ids_update {name : String} {f : WidgetDef → WidgetDef}
    (hf : ∀ w, w.id = .str name → (f w).id = w.id) : (doc.update name f).ids = doc.ids :=
  map_id_modifyFirst (fun w hw ↦ hf w (of_decide_eq_true hw)) doc.widgets

theorem ids_mapSelected {f : WidgetDef → WidgetDef} (hf : ∀ w, (f w).id = w.id) :
    (doc.mapSelected selection f).ids = doc.ids := by
  rw [ids, mapSelected, List.map_map]
  refine List.map_congr_left fun w _ ↦ ?_
  rw [Function.comp_apply]
  split
  · exact hf w
  · rfl

theorem map_id_placeAll (ws : List WidgetDef) (rects : List Rect) :
    (placeAll selection ws rects).map WidgetDef.id = ws.map WidgetDef.id := by
  induction ws generalizing rects with
  | nil => rw [placeAll]
  | cons w ws ih =>
    cases rects with
    | nil => rw [placeAll]
    | cons r rects =>
      rw [placeAll]
      split
      · rw [List.map_cons, List.map_cons, ih rects, WidgetDef.id_at]
      · rw [List.map_cons, List.map_cons, ih (r :: rects)]

theorem ids_place (rects : List Rect) : (doc.place selection rects).ids = doc.ids :=
  map_id_placeAll doc.widgets rects

theorem ids_sendToBack : (doc.sendToBack selection).ids.Perm doc.ids := by
  refine List.Perm.map _ ?_
  have hperm := List.filter_append_perm (fun w : WidgetDef ↦ decide (w.id ∈ selection)) doc.widgets
  simpa only [sendToBack, selected, decide_not] using hperm

theorem ids_bringToFront : (doc.bringToFront selection).ids.Perm doc.ids := by
  have hperm : (doc.bringToFront selection).widgets.Perm (doc.sendToBack selection).widgets :=
    List.perm_append_comm
  exact (hperm.map _).trans ids_sendToBack

end SynopticDoc

/-! ## Documents stay intact -/

namespace Intact

theorem add {links : List LinkDef} (h : Intact doc) (hid : w.id ∉ doc.ids)
    (hlinks : links = doc.links ∨ ∃ target, links = doc.links ++ [⟨w.id, target⟩]) :
    Intact { doc with widgets := doc.widgets ++ [w], links := links } := by
  have hids : SynopticDoc.ids { doc with widgets := doc.widgets ++ [w], links := links }
      = doc.ids ++ [w.id] := List.map_append
  constructor
  · rw [hids, List.nodup_append]
    refine ⟨h.ids, List.nodup_singleton _, fun a ha b hb hab ↦ ?_⟩
    obtain rfl := List.mem_singleton.mp hb
    exact hid (hab ▸ ha)
  · rw [hids]
    intro l hl
    rcases hlinks with rfl | ⟨target, rfl⟩
    · exact List.mem_append_left _ (h.links l hl)
    · rcases List.mem_append.mp hl with hl | hl
      · exact List.mem_append_left _ (h.links l hl)
      · obtain rfl := List.mem_singleton.mp hl
        exact List.mem_append_right _ (List.mem_singleton_self _)
  · rcases hlinks with rfl | ⟨target, rfl⟩
    · exact h.oneLink
    · rw [List.map_append, List.nodup_append]
      refine ⟨h.oneLink, List.nodup_singleton _, fun a ha b hb hab ↦ ?_⟩
      obtain ⟨l, hl, rfl⟩ := List.mem_map.mp ha
      obtain rfl := List.mem_singleton.mp hb
      have hwidget : l.widget = w.id := hab
      exact hid (hwidget ▸ h.links l hl)

theorem delete (h : Intact doc) : Intact (doc.delete selection) where
  ids := h.ids.sublist (List.filter_sublist.map _)
  links := by
    intro l hl
    obtain ⟨hl, hout⟩ := List.mem_filter.mp hl
    obtain ⟨w, hw, heq⟩ := List.mem_map.mp (h.links l hl)
    exact List.mem_map.mpr ⟨w, List.mem_filter.mpr ⟨hw, heq ▸ hout⟩, heq⟩
  oneLink := h.oneLink.sublist (List.filter_sublist.map _)

theorem setLink {name : String} {target : Option String} (h : Intact doc)
    (hid : .str name ∈ doc.ids) : Intact (doc.setLink name target) := by
  have hlinks : ∀ l ∈ doc.links.filter (fun l ↦ l.widget ≠ .str name), l.widget ∈ doc.ids :=
    fun l hl ↦ h.links l (List.mem_filter.mp hl).1
  have hone : ((doc.links.filter fun l ↦ l.widget ≠ .str name).map LinkDef.widget).Nodup :=
    h.oneLink.sublist (List.filter_sublist.map _)
  unfold SynopticDoc.setLink
  dsimp only
  split
  · exact ⟨h.ids, hlinks, hone⟩
  · exact ⟨h.ids, hlinks, hone⟩
  · refine ⟨h.ids, ?_, ?_⟩
    · intro l hl
      rcases List.mem_append.mp hl with hl | hl
      · exact hlinks l hl
      · obtain rfl := List.mem_singleton.mp hl
        exact hid
    · rw [List.map_append, List.nodup_append]
      refine ⟨hone, List.nodup_singleton _, fun a ha b hb hab ↦ ?_⟩
      obtain ⟨l, hl, rfl⟩ := List.mem_map.mp ha
      obtain rfl := List.mem_singleton.mp hb
      exact of_decide_eq_true (List.mem_filter.mp hl).2 hab

end Intact

/-- A paste so far: the document is intact, and has all that was made. -/
structure Pasting (p : Paste) : Prop where
  doc : Intact p.doc
  created : ∀ w ∈ p.created, w.id ∈ p.doc.ids

theorem Pasting.add {p : Paste} (h : Pasting p) (linked : SynopticDoc) (original : WidgetDef) :
    Pasting (p.add linked original) := by
  have hfree := nextWidgetId_notMem p.doc
  rw [Paste.add]
  set copy := (original.at_ (original.num "x" + pasteOffset) (original.num "y" + pasteOffset)).set
    "id" (nextWidgetId p.doc) with hcopy
  have hid : copy.id = nextWidgetId p.doc := WidgetDef.id_set_id _
  constructor
  · refine h.doc.add (hid ▸ hfree) ?_
    split
    · exact .inl rfl
    · exact .inl rfl
    · exact .inr ⟨_, by rw [hid]⟩
  · intro w hw
    change w.id ∈ (p.doc.widgets ++ [copy]).map WidgetDef.id
    rw [List.map_append]
    rcases List.mem_append.mp hw with hw | hw
    · exact List.mem_append_left _ (h.created w hw)
    · obtain rfl := List.mem_singleton.mp hw
      exact List.mem_append_right _ (List.mem_singleton_self _)

theorem pasting_all (h : Intact doc) (clipboard : List WidgetDef) :
    Pasting (Paste.all doc clipboard) := by
  have hfold : ∀ {p : Paste}, Pasting p → Pasting (clipboard.foldl (Paste.add doc) p) := by
    induction clipboard with
    | nil => exact id
    | cons original clipboard ih => exact fun hp ↦ ih (hp.add doc original)
  exact hfold ⟨h, by simp⟩

/-! ## The editor stays sound -/

variable {S : Type} [DecidableEq S] {json : JsonText SynopticDoc S} {s : EditorState S}
  {coalesce : Option String} {clock : Clock}

/-- Every document that can come back is intact, and only existing widgets are selected. -/
structure Sound (json : JsonText SynopticDoc S) (s : EditorState S) : Prop where
  all : s.toHistory.All json Intact
  selection : ∀ id ∈ s.selection, id ∈ s.doc.ids

omit [DecidableEq S] in
theorem sound_new (hdoc : Intact doc) : Sound json (.new json doc) where
  all := History.all_new hdoc
  selection := by simp [EditorState.new]

namespace Sound

omit [DecidableEq S] in
theorem intact (h : Sound json s) : Intact s.doc := h.all.doc

variable {f : SynopticDoc → SynopticDoc}

theorem change_select (h : Sound json s) (hdoc : Intact (f s.doc))
    (hselection : ∀ id ∈ selection, id ∈ (f s.doc).ids) :
    Sound json { s.change json f coalesce clock with selection := selection } where
  all := h.all.mutate hdoc
  selection := by
    intro id hid
    change id ∈ (s.mutate json f coalesce clock).doc.ids
    rw [History.mutate_doc]
    exact hselection id hid

theorem change (h : Sound json s) (hdoc : Intact (f s.doc))
    (hids : ∀ id ∈ s.doc.ids, id ∈ (f s.doc).ids) : Sound json (s.change json f coalesce clock) :=
  h.change_select hdoc fun id hid ↦ hids id (h.selection id hid)

theorem change_perm (h : Sound json s) (hids : (f s.doc).ids.Perm s.doc.ids)
    (hlinks : (f s.doc).links = s.doc.links) : Sound json (s.change json f coalesce clock) :=
  h.change (h.intact.of_perm hids hlinks) fun _ hid ↦ hids.mem_iff.mpr hid

theorem change_ids (h : Sound json s) (hids : (f s.doc).ids = s.doc.ids)
    (hlinks : (f s.doc).links = s.doc.links) : Sound json (s.change json f coalesce clock) :=
  h.change_perm (hids ▸ .refl _) hlinks

omit [DecidableEq S] in
theorem select (h : Sound json s) (hselection : ∀ id ∈ selection, id ∈ s.doc.ids) :
    Sound json { s with selection := selection } :=
  ⟨h.all, hselection⟩

theorem addWidget (h : Sound json s) (type : WidgetType) (at_ : Option (ℚ × ℚ)) :
    Sound json (s.addWidget json type at_ clock) := by
  rw [EditorState.addWidget]
  refine h.change_select (h.intact.add ?_ (.inl rfl)) fun id hid ↦ ?_
  · rw [WidgetDef.id_at, WidgetDef.id_set (by decide), WidgetDef.id_set_id]
    exact nextWidgetId_notMem s.doc
  · obtain rfl := List.mem_singleton.mp hid
    refine List.mem_map.mpr ⟨_, List.mem_append_right _ (List.mem_singleton_self _), ?_⟩
    rw [WidgetDef.id_at, WidgetDef.id_set (by decide), WidgetDef.id_set_id]

theorem deleteSelected (h : Sound json s) : Sound json (s.deleteSelected json clock) := by
  rw [EditorState.deleteSelected]
  split
  · exact h
  · exact h.change_select h.intact.delete (by simp)

theorem setProperty {name path : String} {value : Option JsonData} (h : Sound json s)
    (hpath : (keysOf path).head? ≠ some "id") :
    Sound json (s.setProperty json name path value clock) := by
  rw [EditorState.setProperty]
  split
  case h_1 => exact h
  case h_2 w hfound =>
    split
    case h_1 => exact h
    case h_2 w' hset =>
      have hw : w.id = .str name := by simpa using List.find?_some hfound
      have hids : (s.doc.update name fun _ ↦ w').ids = s.doc.ids :=
        SynopticDoc.ids_update fun v hv ↦ by rw [WidgetDef.id_setPath hpath hset, hw, hv]
      exact h.change_ids hids rfl

theorem paste (h : Sound json s) : Sound json (s.paste json clock) := by
  rw [EditorState.paste]
  split
  · exact h
  · have hp := pasting_all h.intact s.clipboard
    have hselected : ∀ id ∈ (Paste.all s.doc s.clipboard).created.map WidgetDef.id,
        id ∈ (Paste.all s.doc s.clipboard).doc.ids := by
      intro id hid
      obtain ⟨w, hw, rfl⟩ := List.mem_map.mp hid
      exact hp.created w hw
    have hs : Sound json
        { s.change json (fun doc ↦ (Paste.all doc s.clipboard).doc) none clock with
          selection := (Paste.all s.doc s.clipboard).created.map WidgetDef.id } :=
      h.change_select hp.doc hselected
    exact ⟨hs.all, hs.selection⟩

omit [DecidableEq S] in
theorem pruned {h' : History SynopticDoc S} (hall : h'.All json Intact) :
    Sound json (EditorState.pruned { s with toHistory := h' }) where
  all := hall
  selection := fun _ hid ↦ of_decide_eq_true (List.mem_filter.mp hid).2

omit [DecidableEq S] in
theorem undo (h : Sound json s) : Sound json (s.undo json) := by
  rw [EditorState.undo]
  split
  · exact h
  · exact pruned h.all.undo

omit [DecidableEq S] in
theorem redo (h : Sound json s) : Sound json (s.redo json) := by
  rw [EditorState.redo]
  split
  · exact h
  · exact pruned h.all.redo

end Sound

/-! ## Whole sessions -/

/-- What is asked of the user: properties are set by allowed paths, links from existing widgets, and
documents that are loaded are intact. -/
def Op.Admissible (allowed : String → Prop) (s : EditorState S) : Op → Prop
  | setProperty _ path _ => allowed path
  | setLink id _ => .str id ∈ s.doc.ids
  | load doc => Intact doc
  | _ => True

/-- A path neither to the identifier of a widget, nor below it. -/
def BesideId (path : String) : Prop := (keysOf path).head? ≠ some "id"

/-- What the user does leads from a state to the next. -/
def Does (json : JsonText SynopticDoc S) (allowed : String → Prop) (s : EditorState S)
    (done : Op × Clock) (t : EditorState S) : Prop :=
  done.1.Admissible allowed s ∧ t = s.step json done.2 done.1

namespace Sound

omit [DecidableEq S] in
theorem copy (h : Sound json s) : Sound json s.copy := ⟨h.all, h.selection⟩

/-- Coordinates are set on the selection, unless nothing is selected. -/
theorem map_selected (h : Sound json s) {f : WidgetDef → WidgetDef} (hf : ∀ w, (f w).id = w.id) :
    Sound json (s.change json (·.mapSelected s.selection f) coalesce clock) :=
  h.change_ids (SynopticDoc.ids_mapSelected hf) rfl

theorem setGeometry (h : Sound json s) (name : String) (rect : PartialRect) :
    Sound json (s.setGeometry json name rect clock) := by
  rw [EditorState.setGeometry]
  split
  · exact h
  · exact h.change_ids (SynopticDoc.ids_update fun w _ ↦ WidgetDef.id_assign rect) rfl

theorem setRules (h : Sound json s) (name : String) (rules : List Rule) :
    Sound json (s.setRules json name rules clock) := by
  rw [EditorState.setRules]
  split
  · exact h
  · exact h.change_ids (SynopticDoc.ids_update fun w _ ↦ WidgetDef.id_set (by decide) _) rfl

omit [DecidableEq S] in
theorem mem_ids_of_mem_foldl_add (ids : List Id)
    (hselection : ∀ id ∈ selection, id ∈ s.doc.ids) :
    ∀ id ∈ ids.foldl s.add selection, id ∈ s.doc.ids := by
  induction ids generalizing selection with
  | nil => exact hselection
  | cons id ids ih =>
    refine ih fun id' hid' ↦ ?_
    rw [EditorState.add] at hid'
    split at hid'
    · rename_i hadd
      rcases List.mem_append.mp hid' with hid' | hid'
      · exact hselection id' hid'
      · exact List.mem_singleton.mp hid' ▸ hadd.1
    · exact hselection id' hid'

omit [DecidableEq S] in
theorem select_ids (h : Sound json s) (ids : List Id) (additive : Bool) :
    Sound json (s.select ids additive) := by
  refine h.select (mem_ids_of_mem_foldl_add ids ?_)
  cases additive with
  | false => simp
  | true => exact h.selection

omit [DecidableEq S] in
theorem toggle (h : Sound json s) (id : Id) : Sound json (s.toggle id) := by
  refine h.select fun id' hid' ↦ ?_
  split at hid'
  · exact h.selection id' (List.mem_filter.mp hid').1
  · exact mem_ids_of_mem_foldl_add [id] h.selection id' hid'

/-- **What one step preserves.** -/
theorem step (h : Sound json s) {op : Op} (hop : op.Admissible BesideId s) :
    Sound json (s.step json clock op) := by
  cases op with
  | addWidget type at_ => exact h.addWidget type at_
  | deleteSelected => exact h.deleteSelected
  | moveSelected dx dy snapToGrid =>
    rw [EditorState.step, EditorState.moveSelected]
    split
    · exact h
    · exact h.map_selected fun w ↦ WidgetDef.id_at _ _
  | placeSelected origins dx dy snapToGrid =>
    rw [EditorState.step, EditorState.placeSelected]
    dsimp only
    split
    · exact h
    · refine h.map_selected fun w ↦ ?_
      split
      · rfl
      · exact WidgetDef.id_at _ _
  | nudge dx dy =>
    rw [EditorState.step, EditorState.nudge]
    split
    · exact h
    · exact h.map_selected fun w ↦ WidgetDef.id_at _ _
  | setGeometry id rect => exact h.setGeometry id rect
  | alignSelected mode =>
    rw [EditorState.step, EditorState.alignSelected]
    split
    · exact h
    · exact h.change_ids (SynopticDoc.ids_place _) rfl
  | distributeSelected axis =>
    rw [EditorState.step, EditorState.distributeSelected]
    split
    · exact h
    · exact h.change_ids (SynopticDoc.ids_place _) rfl
  | bringToFront => exact h.change_perm SynopticDoc.ids_bringToFront rfl
  | sendToBack => exact h.change_perm SynopticDoc.ids_sendToBack rfl
  | copy => exact h.copy
  | cut => exact h.copy.deleteSelected
  | paste => exact h.paste
  | duplicate => exact h.copy.paste
  | setProperty id path value => exact h.setProperty hop
  | setRules id rules => exact h.setRules id rules
  | setLink id target =>
    have hids : (s.doc.setLink id target).ids = s.doc.ids := by
      unfold SynopticDoc.setLink
      dsimp only
      split <;> rfl
    exact h.change (h.intact.setLink hop) fun id' hid' ↦ hids ▸ hid'
  | setName name => exact h.change_ids rfl rfl
  | setCanvas patch => exact h.change_ids rfl rfl
  | setGrid grid snapping => exact ⟨h.all, h.selection⟩
  | select ids additive => exact h.select_ids ids additive
  | toggle id => exact h.toggle id
  | selectAll => exact h.select fun id hid ↦ List.mem_dedup.mp hid
  | clearSelection => exact h.select (by simp)
  | selectInRect area additive => exact h.select_ids _ additive
  | begin_ =>
    refine ⟨h.all.begin_, fun id hid ↦ ?_⟩
    change id ∈ (s.begin_ json).doc.ids
    rw [History.begin_doc]
    exact h.selection id hid
  | end_ =>
    refine ⟨h.all.end_, fun id hid ↦ ?_⟩
    change id ∈ (s.end_ json).doc.ids
    rw [History.end_doc]
    exact h.selection id hid
  | undo => exact h.undo
  | redo => exact h.redo
  | load doc => exact ⟨History.all_new hop, by simp [EditorState.step, EditorState.load]⟩
  | markSaved => exact ⟨⟨h.all.doc, h.all.undoStack, h.all.redoStack, h.all.gesture⟩, h.selection⟩

end Sound

/-- **Documents stay intact and only existing widgets are selected, whatever the user does**, as
long as no property is set at or below the identifier of a widget. -/
theorem intact_run (json : JsonText SynopticDoc S) {doc : SynopticDoc} (hdoc : Intact doc)
    {done : List (Op × Clock)} {s : EditorState S}
    (hrun : Trace.Path (Does json BesideId) (.new json doc) done s) :
    Intact s.doc ∧ ∀ id ∈ s.selection, id ∈ s.doc.ids := by
  have hstep : ∀ {s t : EditorState S} {op : Op × Clock}, Sound json s →
      Does json BesideId s op t → Sound json t := by
    rintro s _ op h ⟨hop, rfl⟩
    exact h.step hop
  have hsound : Sound json s := hrun.invariant (Sound json) hstep (sound_new hdoc)
  exact ⟨hsound.intact, hsound.selection⟩

theorem intact_newDoc (name : String) : Intact (newDoc name) :=
  ⟨List.nodup_nil, by simp [newDoc], List.nodup_nil⟩

/-- A label is made, linked and cut; that is undone, a copy is pasted, and the paste undone. -/
theorem intact_run_paste :
    let json := JsonText.self SynopticDoc
    let done : List (Op × Clock) := [.addWidget .label none, .setLink "w1" (some "synoptic:a"),
      .cut, .undo, .paste, .undo].map (·, ⟨0, 0⟩)
    let s := (EditorState.new json (newDoc "a")).run json done
    s.doc.ids = [.str "w1"] ∧ Intact s.doc ∧ ∀ id ∈ s.selection, id ∈ s.doc.ids := by
  intro json done s
  have hw1 : .str "w1" ∈ ((EditorState.new json (newDoc "a")).step json ⟨0, 0⟩
      (.addWidget .label none)).doc.ids := by decide
  have hrun : Trace.Path (Does json BesideId) (.new json (newDoc "a")) done s :=
    .cons ⟨trivial, rfl⟩ (.cons ⟨hw1, rfl⟩ (.cons ⟨trivial, rfl⟩
      (.cons ⟨trivial, rfl⟩ (.cons ⟨trivial, rfl⟩ (.cons ⟨trivial, rfl⟩ (.nil _))))))
  exact ⟨by decide +kernel, intact_run json (intact_newDoc "a") hrun⟩

/-- A property below the identifier of a selected widget: the identifier is a text no more, and what
is selected is no widget. -/
theorem not_intact_run :
    ¬ ∀ (doc : SynopticDoc) (done : List (Op × Clock)) (s : EditorState SynopticDoc), Intact doc →
      Trace.Path (Does (JsonText.self SynopticDoc) (· ≠ "id")) (.new (.self _) doc) done s →
      Intact s.doc ∧ ∀ id ∈ s.selection, id ∈ s.doc.ids := by
  intro h
  have hpath : "id.x" ≠ "id" := by decide
  have hrun := h (newDoc "a")
    [(.addWidget .label none, ⟨0, 0⟩), (.setProperty "w1" "id.x" (some .null), ⟨0, 0⟩)] _
    (intact_newDoc "a") (.cons ⟨trivial, rfl⟩ (.cons ⟨hpath, rfl⟩ (.nil _)))
  exact absurd hrun.2 (by decide +kernel)

end Superviseur.Editor
