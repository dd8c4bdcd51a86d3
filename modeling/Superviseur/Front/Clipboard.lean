import Superviseur.Front.EditorIntegrity

/-!
# What a paste gives back

The clipboard holds widgets, and not their links: when it is pasted, the link of a widget is looked
up by its identifier in the document of that moment, whatever has become of the widget since it was
copied. What a widget contains is always given back (`holds_step`). Its link is, if and only if the
links of that identifier and of the new one are then what the link of the widget was
(`keeps_iff`): a `cut` has removed them, and another document has others.
-/

namespace Superviseur.Editor

variable {doc : SynopticDoc} {w : WidgetDef} {S : Type}

namespace SynopticDoc

/-- `linkOf`. -/
def linkOf (doc : SynopticDoc) (id : Id) : Option String :=
  (doc.links.find? fun l ↦ l.widget = id).map LinkDef.target

/-- The link that a copy is given, for the identifier of the widget. -/
def linkCopied (doc : SynopticDoc) (id : Id) : Option String :=
  (doc.targetOf id).filter (· ≠ "")

/-- The link of a copy, of identifier `new`: a link of that identifier may be there already. -/
def linkPasted (doc : SynopticDoc) (id new : Id) : Option String :=
  (doc.linkOf new).or (doc.linkCopied id)

end SynopticDoc

/-! ## One paste -/

/-- The identifier after others. -/
def nextId (ids : List Id) : Id := widgetId (firstFree ids (ids.length + 1) ids.length)

/-- The next identifiers. -/
def newIds (ids : List Id) : ℕ → List Id
  | 0 => []
  | n + 1 => nextId ids :: newIds (ids ++ [nextId ids]) n

/-- The copy of a widget, under a new identifier. -/
def WidgetDef.copyAs (w : WidgetDef) (id : Id) : WidgetDef :=
  (w.at_ (w.num "x" + pasteOffset) (w.num "y" + pasteOffset)).set "id" id

/-- The widgets of a clipboard, each with the identifier of its copy. -/
def renamed (ids : List Id) (clipboard : List WidgetDef) : List (WidgetDef × Id) :=
  clipboard.zip (newIds ids clipboard.length)

/-- The link of a copy. -/
def copyLink (linked : SynopticDoc) (e : WidgetDef × Id) : Option LinkDef :=
  (linked.linkCopied e.1.id).map fun target ↦ ⟨e.2, target⟩

theorem nextWidgetId_eq (doc : SynopticDoc) : nextWidgetId doc = nextId doc.ids := by
  rw [nextWidgetId, nextId, SynopticDoc.ids, List.length_map]

theorem nextId_notMem (ids : List Id) : nextId ids ∉ ids := by
  let doc : SynopticDoc :=
    { newDoc "" with widgets := ids.map fun id ↦ (⟨[]⟩ : WidgetDef).set "id" id }
  have hids : doc.ids = ids := by
    rw [SynopticDoc.ids, List.map_map]
    exact (List.map_congr_left fun id _ ↦ WidgetDef.id_set_id id).trans (List.map_id' ids)
  have hfree := nextWidgetId_notMem doc
  rwa [nextWidgetId_eq, hids] at hfree

theorem length_newIds (ids : List Id) (n : ℕ) : (newIds ids n).length = n := by
  induction n generalizing ids with
  | zero => rfl
  | succ n ih => rw [newIds, List.length_cons, ih]

theorem newIds_fresh (ids : List Id) (n : ℕ) :
    (∀ id ∈ newIds ids n, id ∉ ids) ∧ (newIds ids n).Nodup := by
  induction n generalizing ids with
  | zero => exact ⟨fun _ h ↦ absurd h List.not_mem_nil, .nil⟩
  | succ n ih =>
    obtain ⟨hfree, hnodup⟩ := ih (ids ++ [nextId ids])
    rw [newIds]
    refine ⟨fun id hid ↦ ?_, List.nodup_cons.mpr ⟨fun hmem ↦ ?_, hnodup⟩⟩
    · rcases List.mem_cons.mp hid with rfl | hid
      · exact nextId_notMem ids
      · exact fun hmem ↦ hfree id hid (List.mem_append_left _ hmem)
    · exact hfree _ hmem (List.mem_append_right _ (List.mem_singleton_self _))

theorem map_snd_renamed (ids : List Id) (clipboard : List WidgetDef) :
    (renamed ids clipboard).map Prod.snd = newIds ids clipboard.length :=
  List.map_snd_zip (length_newIds ids clipboard.length).le

theorem add_eq (linked : SynopticDoc) (p : Paste) (original : WidgetDef) :
    p.add linked original =
      ⟨{ p.doc with
          widgets := p.doc.widgets ++ [original.copyAs (nextId p.doc.ids)]
          links := p.doc.links ++ (copyLink linked (original, nextId p.doc.ids)).toList },
        p.created ++ [original.copyAs (nextId p.doc.ids)]⟩ := by
  rw [Paste.add, nextWidgetId_eq, copyLink, SynopticDoc.linkCopied]
  cases htarget : linked.targetOf original.id with
  | none => simp [WidgetDef.copyAs]
  | some target =>
    by_cases hempty : target = ""
    · simp [WidgetDef.copyAs, hempty]
    · simp [WidgetDef.copyAs, hempty, Option.filter]

/-- **What a paste makes**: copies under new identifiers, and their links. -/
theorem foldl_add (linked : SynopticDoc) (clipboard : List WidgetDef) (p : Paste) :
    clipboard.foldl (Paste.add linked) p =
      ⟨{ p.doc with
          widgets := p.doc.widgets ++ (renamed p.doc.ids clipboard).map fun e ↦ e.1.copyAs e.2
          links := p.doc.links ++ (renamed p.doc.ids clipboard).filterMap (copyLink linked) },
        p.created ++ (renamed p.doc.ids clipboard).map fun e ↦ e.1.copyAs e.2⟩ := by
  induction clipboard generalizing p with
  | nil => simp [renamed]
  | cons original clipboard ih =>
    have hids : (p.add linked original).doc.ids = p.doc.ids ++ [nextId p.doc.ids] := by
      rw [add_eq, SynopticDoc.ids, List.map_append]
      exact congrArg _ (congrArg (fun id ↦ [id]) (WidgetDef.id_set_id _))
    have hrenamed : renamed p.doc.ids (original :: clipboard) =
        (original, nextId p.doc.ids) :: renamed (p.add linked original).doc.ids clipboard := by
      rw [renamed, List.length_cons, newIds, List.zip_cons_cons, hids, renamed]
    rw [List.foldl_cons, ih, hrenamed]
    generalize renamed (p.add linked original).doc.ids clipboard = es
    rw [add_eq]
    cases hlink : copyLink linked (original, nextId p.doc.ids) <;> simp [hlink]

theorem all_eq (doc : SynopticDoc) (clipboard : List WidgetDef) :
    Paste.all doc clipboard =
      ⟨{ doc with
          widgets := doc.widgets ++ (renamed doc.ids clipboard).map fun e ↦ e.1.copyAs e.2
          links := doc.links ++ (renamed doc.ids clipboard).filterMap (copyLink doc) },
        (renamed doc.ids clipboard).map fun e ↦ e.1.copyAs e.2⟩ := by
  rw [Paste.all, foldl_add, List.nil_append]

/-! ## The links of copies -/

theorem find?_copyLink (linked : SynopticDoc) {es : List (WidgetDef × Id)}
    (hnodup : (es.map Prod.snd).Nodup) {e : WidgetDef × Id} (he : e ∈ es) :
    (es.filterMap (copyLink linked)).find? (fun l ↦ l.widget = e.2) = copyLink linked e := by
  have hwidget : ∀ {e : WidgetDef × Id}, ∀ l ∈ copyLink linked e, l.widget = e.2 := by
    intro e l hl
    obtain ⟨target, -, rfl⟩ := Option.map_eq_some_iff.mp hl
    rfl
  -- A link that is looked for is not among those of other copies.
  have hother : ∀ {es : List (WidgetDef × Id)} {id : Id}, id ∉ es.map Prod.snd →
      (es.filterMap (copyLink linked)).find? (fun l ↦ l.widget = id) = none := by
    intro es id hid
    refine List.find?_eq_none.mpr fun l hl heq ↦ hid ?_
    obtain ⟨e, he, hlink⟩ := List.mem_filterMap.mp hl
    rw [← of_decide_eq_true heq, hwidget l hlink]
    exact List.mem_map_of_mem he
  induction es with
  | nil => exact absurd he List.not_mem_nil
  | cons first es ih =>
    obtain ⟨hfirst, hrest⟩ := List.nodup_cons.mp hnodup
    rw [List.filterMap_cons]
    rcases List.mem_cons.mp he with rfl | he
    · cases hlink : copyLink linked e with
      | none => exact hother hfirst
      | some l => exact List.find?_cons_of_pos (decide_eq_true (hwidget l hlink))
    · have hne : first.2 ≠ e.2 := fun heq ↦ hfirst (heq ▸ List.mem_map_of_mem he)
      cases hlink : copyLink linked first with
      | none => exact ih hrest he
      | some l =>
        have hneg : ¬decide (l.widget = e.2) = true := by
          rw [decide_eq_true_iff, hwidget l hlink]
          exact hne
        exact (List.find?_cons_of_neg (p := fun l : LinkDef ↦ l.widget = e.2) hneg).trans
          (ih hrest he)

/-- **The link of a copy**, after a paste. -/
theorem linkOf_all (doc : SynopticDoc) (clipboard : List WidgetDef) {e : WidgetDef × Id}
    (he : e ∈ renamed doc.ids clipboard) :
    (Paste.all doc clipboard).doc.linkOf e.2 = doc.linkPasted e.1.id e.2 := by
  have hnodup : ((renamed doc.ids clipboard).map Prod.snd).Nodup := by
    rw [map_snd_renamed]
    exact (newIds_fresh _ _).2
  rw [all_eq, SynopticDoc.linkOf, List.find?_append, find?_copyLink doc hnodup he, Option.map_or,
    SynopticDoc.linkPasted, SynopticDoc.linkOf, copyLink, Option.map_map]
  exact congrArg _ Option.map_id'

/-! ## What the user has copied -/

/-- A widget, as it was when it was copied, and its link. -/
structure Copied where
  widget : WidgetDef
  link : Option String

/-- What a copy takes: the selection. -/
def taken (s : EditorState S) : List Copied := s.selected.map fun w ↦ ⟨w, s.doc.linkOf w.id⟩

/-- A widget that has all that another one has but its identifier, and is farther by `offset`. -/
structure IsCopy (offset : ℚ) (original copy : WidgetDef) : Prop where
  fields : ∀ key, key ≠ "id" → key ≠ "x" → key ≠ "y" →
    copy.fields.lookup key = original.fields.lookup key
  x : copy.num "x" = original.num "x" + offset
  y : copy.num "y" = original.num "y" + offset

/-- An editor, and what has been copied in it: with the links of that moment, and the number of
times it has been pasted since. -/
structure Watched (S : Type) where
  editor : EditorState S
  copied : List Copied := []
  pastes : ℕ := 0

namespace Watched

/-- The copies made from one state to the next are of what was copied, and have its links. -/
def Gives (v v' : Watched S) : Prop := ∃ created,
  v'.editor.doc.widgets = v.editor.doc.widgets ++ created ∧
    (∀ w ∈ created, w.id ∉ v.editor.doc.ids) ∧
    List.Forall₂ (fun c w ↦ IsCopy (pasteOffset * v'.pastes) c.widget w) v'.copied created ∧
    created.map (fun w ↦ v'.editor.doc.linkOf w.id) = v'.copied.map Copied.link

variable [DecidableEq S] (json : JsonText SynopticDoc S)

def step (v : Watched S) (op : Op × Clock) : Watched S where
  editor := v.editor.step json op.2 op.1
  copied :=
    match op.1 with
    | .copy | .cut | .duplicate => taken v.editor
    | _ => v.copied
  pastes :=
    match op.1 with
    | .copy | .cut => 0
    | .duplicate => 1
    | .paste => v.pastes + 1
    | _ => v.pastes

def run (doc : SynopticDoc) (done : List (Op × Clock)) : Watched S :=
  done.foldl (step json) ⟨.new json doc, [], 0⟩

/-- An operation that pastes gives back what was copied. -/
def Keeps (v : Watched S) (op : Op × Clock) : Prop :=
  op.1 = .paste ∨ op.1 = .duplicate → v.Gives (v.step json op)

end Watched

/-- The links of the clipboard's identifiers, and of the new ones, are now those of what was
copied. -/
def Recalls (doc : SynopticDoc) (clipboard : List WidgetDef) (copied : List Copied) : Prop :=
  (renamed doc.ids clipboard).map (fun e ↦ doc.linkPasted e.1.id e.2) = copied.map Copied.link

/-- What an operation that pastes asks of the document. -/
def Watched.Meets (v : Watched S) (op : Op × Clock) : Prop :=
  match op.1 with
  | .paste => Recalls v.editor.doc v.editor.clipboard v.copied
  | .duplicate => Recalls v.editor.doc v.editor.selected (taken v.editor)
  | _ => True

/-! ## Contents -/

theorem WidgetDef.num_eq {key : String} {w' : WidgetDef}
    (h : w'.fields.lookup key = w.fields.lookup key) : w'.num key = w.num key := by
  rw [num, num, get, get, h]

theorem WidgetDef.num_set (key : String) (q : ℚ) : (w.set key (.number q)).num key = q := by
  rw [num, get, set, JsonData.lookup_setField_self, Option.getD_some]

namespace IsCopy

variable {offset : ℚ} {original copy : WidgetDef}

theorem refl (w : WidgetDef) : IsCopy 0 w w where
  fields _ _ _ _ := rfl
  x := (add_zero _).symm
  y := (add_zero _).symm

theorem copyAs (h : IsCopy offset original copy) (id : Id) :
    IsCopy (offset + pasteOffset) original (copy.copyAs id) where
  fields key hid hx hy := by
    rw [WidgetDef.copyAs, WidgetDef.at_, WidgetDef.set, WidgetDef.set, WidgetDef.set,
      JsonData.lookup_setField hid, JsonData.lookup_setField hy, JsonData.lookup_setField hx]
    exact h.fields key hid hx hy
  x := by
    have hlookup : (copy.copyAs id).fields.lookup "x" =
        (copy.set "x" (.number (copy.num "x" + pasteOffset))).fields.lookup "x" := by
      rw [WidgetDef.copyAs, WidgetDef.at_, WidgetDef.set, WidgetDef.set,
        JsonData.lookup_setField (by decide), JsonData.lookup_setField (by decide)]
    rw [WidgetDef.num_eq hlookup, WidgetDef.num_set, h.x, add_assoc]
  y := by
    have hlookup : (copy.copyAs id).fields.lookup "y" =
        (copy.at_ (copy.num "x" + pasteOffset)
          (copy.num "y" + pasteOffset)).fields.lookup "y" := by
      rw [WidgetDef.copyAs, WidgetDef.set, JsonData.lookup_setField (by decide)]
    rw [WidgetDef.num_eq hlookup, WidgetDef.at_, WidgetDef.num_set, h.y, add_assoc]

theorem forall₂_copyAs {copied : List Copied} {clipboard : List WidgetDef} (ids : List Id)
    (h : List.Forall₂ (fun c w ↦ IsCopy offset c.widget w) copied clipboard) :
    List.Forall₂ (fun c w ↦ IsCopy (offset + pasteOffset) c.widget w) copied
      ((renamed ids clipboard).map fun e ↦ e.1.copyAs e.2) := by
  rw [renamed]
  generalize hnew : newIds ids clipboard.length = new
  have hlength : new.length = clipboard.length := hnew ▸ length_newIds ids clipboard.length
  clear hnew
  induction h generalizing new with
  | nil => exact .nil
  | cons hfirst _ ih =>
    cases new with
    | nil => exact absurd hlength (Nat.zero_ne_add_one _)
    | cons id new => exact .cons (hfirst.copyAs id) (ih new (Nat.succ.inj hlength))

end IsCopy

theorem forall₂_taken (s : EditorState S) :
    List.Forall₂ (fun c w ↦ IsCopy 0 c.widget w) (taken s) s.selected := by
  rw [taken, List.forall₂_map_left_iff, List.forall₂_same]
  exact fun w _ ↦ .refl w

/-! ## Steps -/

namespace EditorState

variable [DecidableEq S] (json : JsonText SynopticDoc S) (s : EditorState S) (clock : Clock)

theorem paste_doc : (s.paste json clock).doc = (Paste.all s.doc s.clipboard).doc := by
  rw [paste]
  split
  · rename_i hempty
    rw [hempty]
    rfl
  · exact History.mutate_doc

theorem paste_clipboard :
    (s.paste json clock).clipboard = (Paste.all s.doc s.clipboard).created := by
  rw [paste]
  split
  · rename_i hempty
    rw [hempty]
    rfl
  · rfl

theorem clipboard_step {op : Op} (hcopy : op ≠ .copy) (hcut : op ≠ .cut) (hpaste : op ≠ .paste)
    (hduplicate : op ≠ .duplicate) : (s.step json clock op).clipboard = s.clipboard := by
  cases op with
  | copy => exact absurd rfl hcopy
  | cut => exact absurd rfl hcut
  | paste => exact absurd rfl hpaste
  | duplicate => exact absurd rfl hduplicate
  -- the others set the document, or the selection
  | deleteSelected =>
    rw [step, deleteSelected]
    split <;> rfl
  | moveSelected dx dy snapToGrid =>
    rw [step, moveSelected]
    split <;> rfl
  | placeSelected origins dx dy snapToGrid =>
    rw [step, placeSelected]
    dsimp only
    split <;> rfl
  | nudge dx dy =>
    rw [step, nudge]
    split <;> rfl
  | setGeometry id rect =>
    rw [step, setGeometry]
    split <;> rfl
  | alignSelected mode =>
    rw [step, alignSelected]
    split <;> rfl
  | distributeSelected axis =>
    rw [step, distributeSelected]
    split <;> rfl
  | setProperty id path value =>
    rw [step, setProperty]
    split
    · rfl
    · split <;> rfl
  | setRules id rules =>
    rw [step, setRules]
    split <;> rfl
  | undo =>
    rw [step, undo]
    split <;> rfl
  | redo =>
    rw [step, redo]
    split <;> rfl
  | _ => rfl

end EditorState

namespace Watched

variable {v : Watched S}

/-- The clipboard holds what was copied, moved by each paste since. -/
def Holds (v : Watched S) : Prop :=
  List.Forall₂ (fun c w ↦ IsCopy (pasteOffset * v.pastes) c.widget w) v.copied v.editor.clipboard

theorem holds_new (json : JsonText SynopticDoc S) (doc : SynopticDoc) :
    (⟨.new json doc, [], 0⟩ : Watched S).Holds := .nil

variable [DecidableEq S] (json : JsonText SynopticDoc S) {op : Op × Clock}

theorem holds_copy (v : Watched S) (clock : Clock) : (v.step json (.copy, clock)).Holds := by
  change List.Forall₂ (fun (c : Copied) w ↦ IsCopy (pasteOffset * (0 : ℕ)) c.widget w) _ _
  rw [Nat.cast_zero, mul_zero]
  exact forall₂_taken v.editor

theorem Holds.paste (h : v.Holds) (clock : Clock) : (v.step json (.paste, clock)).Holds := by
  have hcopies := IsCopy.forall₂_copyAs v.editor.doc.ids h
  change List.Forall₂ (fun (c : Copied) w ↦ IsCopy (pasteOffset * (v.pastes + 1 : ℕ)) c.widget w)
    v.copied (v.editor.paste json clock).clipboard
  rw [EditorState.paste_clipboard, all_eq, Nat.cast_add_one, mul_add_one]
  exact hcopies

theorem holds_step (h : v.Holds) : (v.step json op).Holds := by
  obtain ⟨op, clock⟩ := op
  by_cases hcopy : op = .copy
  · exact hcopy ▸ holds_copy json v clock
  by_cases hcut : op = .cut
  · have hclipboard : (v.editor.step json clock .cut).clipboard = v.editor.selected := by
      change (v.editor.copy.deleteSelected json clock).clipboard = _
      rw [EditorState.deleteSelected]
      split <;> rfl
    have hholds := holds_copy json v clock
    subst hcut
    rw [Holds] at hholds ⊢
    change List.Forall₂ _ _ (v.editor.step json clock .cut).clipboard
    rw [hclipboard]
    exact hholds
  by_cases hpaste : op = .paste
  · exact hpaste ▸ h.paste json clock
  by_cases hduplicate : op = .duplicate
  · -- a duplicate is a copy and a paste
    exact hduplicate ▸ (holds_copy json v clock).paste json clock
  · have hclipboard := EditorState.clipboard_step json v.editor clock hcopy hcut
      hpaste hduplicate
    have hkept : (v.step json (op, clock)).copied = v.copied ∧
        (v.step json (op, clock)).pastes = v.pastes := by
      cases op <;> first | exact ⟨rfl, rfl⟩ | contradiction
    rw [Holds, hkept.1, hkept.2]
    change List.Forall₂ _ _ (v.editor.step json clock op).clipboard
    rw [hclipboard]
    exact h

/-- **What a paste gives back**: what was copied, if and only if its links are recalled. -/
theorem Holds.gives_paste (h : v.Holds) (clock : Clock) :
    v.Gives (v.step json (.paste, clock)) ↔
      Recalls v.editor.doc v.editor.clipboard v.copied := by
  have hdoc : (v.step json (.paste, clock)).editor.doc =
      (Paste.all v.editor.doc v.editor.clipboard).doc :=
    EditorState.paste_doc json v.editor clock
  have hids : ∀ e ∈ renamed v.editor.doc.ids v.editor.clipboard, (e.1.copyAs e.2).id = e.2 :=
    fun e _ ↦ WidgetDef.id_set_id e.2
  have hlinks : ((renamed v.editor.doc.ids v.editor.clipboard).map fun e ↦ e.1.copyAs e.2).map
      (fun w ↦ (v.step json (.paste, clock)).editor.doc.linkOf w.id) =
        (renamed v.editor.doc.ids v.editor.clipboard).map fun e ↦
          v.editor.doc.linkPasted e.1.id e.2 := by
    rw [List.map_map]
    refine List.map_congr_left fun e he ↦ ?_
    rw [Function.comp_apply, hids e he, hdoc, linkOf_all _ _ he]
  have hwidgets : (v.step json (.paste, clock)).editor.doc.widgets = v.editor.doc.widgets ++
      (renamed v.editor.doc.ids v.editor.clipboard).map fun e ↦ e.1.copyAs e.2 := by
    rw [hdoc, all_eq]
  constructor
  · rintro ⟨created, hcreated, -, -, hgives⟩
    obtain rfl := List.append_cancel_left (hcreated.symm.trans hwidgets)
    exact hlinks.symm.trans hgives
  · intro hrecalls
    refine ⟨_, hwidgets, fun w hw ↦ ?_, ?_, hlinks.trans hrecalls⟩
    · obtain ⟨e, he, rfl⟩ := List.mem_map.mp hw
      rw [hids e he]
      refine (newIds_fresh _ v.editor.clipboard.length).1 _ ?_
      rw [← map_snd_renamed]
      exact List.mem_map_of_mem he
    · have hcopies := h.paste json clock
      rw [Holds] at hcopies
      change List.Forall₂ _ _ (v.editor.paste json clock).clipboard at hcopies
      rwa [EditorState.paste_clipboard, all_eq] at hcopies

theorem keeps_iff (h : v.Holds) : v.Keeps json op ↔ v.Meets op := by
  obtain ⟨op, clock⟩ := op
  by_cases hpaste : op = .paste
  · subst hpaste
    exact (forall_prop_of_true (.inl rfl)).trans (h.gives_paste json clock)
  by_cases hduplicate : op = .duplicate
  · subst hduplicate
    exact (forall_prop_of_true (.inr rfl)).trans
      ((holds_copy json v clock).gives_paste json clock)
  · have hmeets : v.Meets (op, clock) := by
      cases op <;> first | exact trivial | contradiction
    exact iff_of_true (fun hop ↦ (hop.elim hpaste hduplicate).elim) hmeets

theorem holds_run (doc : SynopticDoc) (done : List (Op × Clock)) : (run json doc done).Holds := by
  induction done using List.reverseRecOn with
  | nil => exact holds_new json doc
  | append_singleton done op ih =>
    rw [run, List.foldl_concat]
    exact holds_step json ih

end Watched

/-! ## Sessions -/

section

variable [DecidableEq S] (json : JsonText SynopticDoc S)

/-- Every paste of a session gives back what was copied. -/
def GivesBack (doc : SynopticDoc) (done : List (Op × Clock)) : Prop :=
  ∀ past op, past ++ [op] <+: done → (Watched.run json doc past).Keeps json op

/-- **When the clipboard carries links**: if and only if each paste finds, under the identifiers of
the clipboard, the links that the widgets had when they were copied. -/
theorem givesBack_iff (doc : SynopticDoc) (done : List (Op × Clock)) :
    GivesBack json doc done ↔
      ∀ past op, past ++ [op] <+: done → (Watched.run json doc past).Meets op := by
  refine forall₃_congr fun past op _ ↦ ?_
  exact Watched.keeps_iff json (Watched.holds_run json doc past)

end

/-! ## Documents with one link for each widget -/

theorem targetOf_eq_linkOf (h : Intact doc) (id : Id) : doc.targetOf id = doc.linkOf id := by
  rw [SynopticDoc.targetOf, SynopticDoc.linkOf]
  refine congrArg _ ?_
  cases hfirst : doc.links.find? fun l ↦ l.widget = id with
  | none =>
    rw [List.find?_eq_none] at hfirst ⊢
    exact fun l hl ↦ hfirst l (List.mem_reverse.mp hl)
  | some l =>
    have hl := List.mem_of_find?_eq_some hfirst
    have hwidget : l.widget = id := by simpa using List.find?_some hfirst
    cases hlast : doc.links.reverse.find? fun l ↦ l.widget = id with
    | none =>
      refine absurd (decide_eq_true hwidget) ?_
      exact List.find?_eq_none.mp hlast l (List.mem_reverse.mpr hl)
    | some l' =>
      have hl' := List.mem_reverse.mp (List.mem_of_find?_eq_some hlast)
      have hwidget' : l'.widget = id := by simpa using List.find?_some hlast
      exact congrArg some (List.inj_on_of_nodup_map h.oneLink hl' hl (hwidget'.trans hwidget.symm))

/-- **What a paste asks of an intact document**: that the widgets of the clipboard have, by their
identifiers, the links that they had. -/
theorem recalls_iff (h : Intact doc) (htargets : ∀ l ∈ doc.links, l.target ≠ "")
    (clipboard : List WidgetDef) (copied : List Copied) :
    Recalls doc clipboard copied ↔
      clipboard.map (fun w ↦ doc.linkOf w.id) = copied.map Copied.link := by
  have hcopied : ∀ id, doc.linkCopied id = doc.linkOf id := by
    intro id
    rw [SynopticDoc.linkCopied, targetOf_eq_linkOf h]
    cases hlink : doc.linkOf id with
    | none => rfl
    | some target =>
      obtain ⟨l, hl, rfl⟩ := Option.map_eq_some_iff.mp hlink
      have htarget := htargets l (List.mem_of_find?_eq_some hl)
      exact if_pos (decide_eq_true htarget)
  have hlinks : (renamed doc.ids clipboard).map (fun e ↦ doc.linkPasted e.1.id e.2) =
      clipboard.map fun w ↦ doc.linkOf w.id := by
    have hfst : (renamed doc.ids clipboard).map Prod.fst = clipboard :=
      List.map_fst_zip (length_newIds _ _).ge
    conv_rhs => rw [← hfst, List.map_map]
    refine List.map_congr_left fun e he ↦ ?_
    have hfree : e.2 ∉ doc.ids := by
      refine (newIds_fresh _ clipboard.length).1 _ ?_
      rw [← map_snd_renamed]
      exact List.mem_map_of_mem he
    have hnone : doc.linkOf e.2 = none := by
      rw [SynopticDoc.linkOf, Option.map_eq_none_iff, List.find?_eq_none]
      exact fun l hl heq ↦ hfree (of_decide_eq_true heq ▸ h.links l hl)
    rw [SynopticDoc.linkPasted, hnone, Option.none_or, hcopied]
    rfl
  rw [Recalls, hlinks]

/-! ## A widget that is cut -/

/-- A widget, and its link. -/
def linked : SynopticDoc :=
  { newDoc "Vue" with
    widgets := [⟨[("id", .str "w1"), ("x", .number 0), ("y", .number 0)]⟩]
    links := [⟨.str "w1", "synoptic:cta-2"⟩] }

/-- **A widget that is cut and pasted has lost its link.** -/
theorem not_givesBack : ¬∀ (doc : SynopticDoc) (done : List (Op × Clock)),
    GivesBack (.self SynopticDoc) doc done := by
  intro h
  have hkeeps := h linked [(.selectAll, ⟨0, 0⟩), (.cut, ⟨1, 1⟩), (.paste, ⟨2, 2⟩)]
    [(.selectAll, ⟨0, 0⟩), (.cut, ⟨1, 1⟩)] (.paste, ⟨2, 2⟩) (List.prefix_refl _)
  have hmeets := (Watched.keeps_iff _ (Watched.holds_run _ linked _)).mp hkeeps
  have hlost : ¬((renamed [] linked.widgets).map fun e ↦
      ({ linked with widgets := [], links := [] } : SynopticDoc).linkPasted e.1.id e.2) =
        [some "synoptic:cta-2"] := by decide +kernel
  exact hlost hmeets

end Superviseur.Editor
