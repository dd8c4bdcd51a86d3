import Superviseur.Front.Page

/-!
# No text of a document reaches a style unchecked, but one

The viewer checks the values of a style before it writes them, and the server has checked the
background of the canvas and its image. The colour that an indicator gives one of its states is
checked by neither: it is written as it is when the state is shown.

An accepted document is shown safely, whatever values come, if and only if the colours of the states
that can be shown are safe (`safe_iff`). A state can be shown where its indicator is bound to a
point, and where no state before it has the same value.
-/

namespace Superviseur

open Schema (Widget)
open Style

/-- A text of the document is a safe value; an image is a data URL, in the background of the
canvas. -/
def StyleWrite.Safe (write : StyleWrite) : Prop :=
  match write.op with
  | .set _ (.document text) => Schema.isSafeCssValue (.str text) = true
  | .set property (.image url) =>
    isDataImage url = true ∧ property = "background-image" ∧ write.element = .canvas
  | .set _ (.number _ _) | .set _ (.program _) | .remove _ => True

/-- Everything that has been written is safe. -/
def Page.Safe (page : Page) : Prop := ∀ write ∈ page.writes, write.Safe

/-- The colours of the states that can be shown are safe. -/
def Schema.SynopticDoc.SafeLamps (doc : Schema.SynopticDoc) : Prop :=
  ∀ w ∈ doc.widgets, w.type = "indicator" → w.boundPoints ≠ [] →
    ∀ states, IndicatorState.statesOf w = some (some states) →
      ∀ state ∈ states, state.value.isFinite = true →
        (states.find? fun other ↦ other.value = state.value) = some state →
          Schema.isSafeCssValue (.str state.color) = true

variable {doc : Schema.SynopticDoc} {w : Widget} {l : Live} {value : Option PyFloat}
  {status : String} {page : Page} {write : StyleWrite} {id : String}

/-! ## Widgets -/

theorem safe_applyStyle {style previous : StyleMap}
    (h : write ∈ Shell.onRoot w (applyStyle style previous)) : write.Safe := by
  obtain ⟨op, hop, rfl⟩ := List.mem_map.mp h
  rcases List.mem_append.mp hop with hop | hop
  · obtain ⟨e, -, hop⟩ := List.mem_flatMap.mp hop
    obtain ⟨property, -, rfl⟩ := List.mem_map.mp hop
    trivial
  · obtain ⟨⟨key, raw⟩, he, hop⟩ := List.mem_flatMap.mp hop
    obtain ⟨property, -, rfl⟩ := List.mem_map.mp hop
    have hsafe := (List.mem_filter.mp he).2
    cases raw with
    | str s => exact safe_of_isSafeCssValue hsafe
    | _ => trivial

theorem safe_new (h : write ∈ (Shell.new w).2) : write.Safe := safe_applyStyle h

theorem safe_refresh {shell : Shell} (h : write ∈ (shell.refresh value status).2) : write.Safe :=
  safe_applyStyle h

theorem safe_showValue (hlamp : ∀ write ∈ l.lampWrites value, write.Safe)
    (h : write ∈ (l.showValue value status).2) : write.Safe := by
  rcases List.mem_append.mp h with h | h
  · exact hlamp write h
  · exact safe_refresh h

theorem safe_lampWrites_of_none (h : l.configured = none ∨ value = none ∨
    l.shell.widget.type ≠ "indicator") : ∀ write ∈ l.lampWrites value, write.Safe := by
  intro write hwrite
  rw [Live.lampWrites] at hwrite
  split at hwrite
  · rename_i htype
    obtain rfl := List.mem_singleton.mp hwrite
    rcases h with h | h | h
    · rw [h]
      cases value with
      | none => trivial
      | some v => cases l.stateText <;> trivial
    · rw [h]
      trivial
    · exact absurd htype h
  · nomatch hwrite

theorem safe_renderStatic {ops : List StyleOp}
    (hops : ∀ op ∈ ops, ∃ property text, op = .set property (.program text))
    (h : write ∈ (renderStatic w ops).2) : write.Safe := by
  rw [renderStatic] at h
  rcases List.mem_append.mp h with h | h
  · rcases List.mem_append.mp h with h | h
    · exact safe_new h
    · obtain ⟨op, hop, rfl⟩ := List.mem_map.mp h
      obtain ⟨property, text, rfl⟩ := hops op hop
      trivial
  · exact safe_refresh h

theorem safe_renderLive {configured : Option (List IndicatorState)}
    (h : write ∈ (renderLive w configured).2) : write.Safe := by
  rcases List.mem_append.mp h with h | h
  · exact safe_new h
  · exact safe_showValue (safe_lampWrites_of_none (.inr (.inl rfl))) h

/-- **A widget that has been given no value writes nothing unsafe.** -/
theorem safe_renderWidget (h : write ∈ (renderWidget w).2) : write.Safe := by
  have hone : ∀ property text, ∀ op ∈ [StyleOp.set property (.program text)],
      ∃ property text, op = .set property (.program text) :=
    fun property text op hop ↦ ⟨property, text, List.mem_singleton.mp hop⟩
  have hnone : ∀ op ∈ ([] : List StyleOp), ∃ property text, op = .set property (.program text) :=
    fun op hop ↦ absurd hop List.not_mem_nil
  unfold renderWidget at h
  split at h
  · split at h
    · nomatch h
    · exact safe_new h
  split at h
  · split at h
    · nomatch h
    · exact safe_new h
  split at h
  · exact safe_renderStatic (hone _ _) h
  split at h
  · split at h
    · split at h
      · exact safe_renderStatic (hone _ _) h
      · exact safe_renderStatic hnone h
    · exact safe_renderStatic hnone h
  split at h
  · exact safe_renderStatic hnone h
  split at h
  · split at h
    · exact safe_renderStatic hnone h
    · exact safe_renderLive h
  split at h
  · split at h
    · rcases List.mem_append.mp h with h | h
      · exact safe_new h
      · exact safe_new h
    · exact safe_renderLive h
  · exact safe_renderLive h

/-! ## What is known of the widgets on the page -/

/-- A widget of the document, with the states it was configured with. -/
structure Live.Of (doc : Schema.SynopticDoc) (id : String) (l : Live) : Prop where
  mem : l.shell.widget ∈ doc.widgets
  id : l.shell.widget.id = id
  configured : l.shell.widget.type = "indicator" →
    IndicatorState.statesOf l.shell.widget = some l.configured

/-- A widget that takes values is an indicator with its states, or no indicator. -/
theorem of_renderWidget (hw : w ∈ doc.widgets) (h : (renderWidget w).1 = .live l) :
    l.Of doc w.id := by
  have hlive : ∀ configured, (w.type = "indicator" →
      IndicatorState.statesOf w = some configured) →
      (renderLive w configured).1 = .live l → l.Of doc w.id := by
    rintro configured hconfigured ⟨⟩
    exact ⟨hw, rfl, hconfigured⟩
  unfold renderWidget at h
  split at h
  · split at h <;> nomatch h
  split at h
  · split at h <;> nomatch h
  split at h
  · nomatch h
  split at h
  · split at h
    · split at h <;> nomatch h
    · nomatch h
  split at h
  · nomatch h
  split at h
  · rename_i hshape
    split at h
    · nomatch h
    · refine hlive none (fun htype ↦ ?_) h
      rw [hshape] at htype
      exact absurd htype (by decide)
  split at h
  · split at h
    · nomatch h
    · rename_i configured hconfigured
      exact hlive configured (fun _ ↦ hconfigured) h
  · rename_i hother
    exact hlive none (fun htype ↦ absurd htype hother) h

theorem Live.Of.showValue (h : l.Of doc id) : (l.showValue value status).1.Of doc id :=
  ⟨h.mem, h.id, h.configured⟩

theorem Live.Of.again (h : l.Of doc id) : l.again.1.Of doc id := by
  unfold Live.again
  split
  · exact h.showValue
  · exact h

theorem Live.Of.update (h : l.Of doc id) (sample : LiveSample) : (l.update sample).1.Of doc id := by
  unfold Live.update
  dsimp only
  split
  · exact h.showValue
  split
  · exact ⟨h.mem, h.id, h.configured⟩
  · exact h.showValue

theorem Live.Of.receiveInfo (h : l.Of doc id) (info : PointInfo) :
    (l.receiveInfo info).1.Of doc id := by
  unfold Live.receiveInfo
  split
  · exact h
  split
  · refine Live.Of.again ?_
    exact ⟨h.mem, h.id, h.configured⟩
  split
  · exact h.again
  · exact h

theorem safe_lampWrites (hlamps : doc.SafeLamps) (h : l.Of doc id)
    (hvalue : ∀ v, value = some v → v.isFinite = true ∧ l.shell.widget.boundPoints ≠ []) :
    ∀ write ∈ l.lampWrites value, write.Safe := by
  by_cases htype : l.shell.widget.type = "indicator"
  · cases hconfigured : l.configured with
    | none => exact safe_lampWrites_of_none (.inl hconfigured)
    | some states =>
      cases value with
      | none => exact safe_lampWrites_of_none (.inr (.inl rfl))
      | some v =>
        intro write hwrite
        rw [Live.lampWrites, if_pos htype] at hwrite
        obtain rfl := List.mem_singleton.mp hwrite
        rw [hconfigured, IndicatorState.describeColor]
        split
        · rename_i state hfind
          obtain ⟨hfinite, hbound⟩ := hvalue v rfl
          have hsame : state.value = v := by simpa using List.find?_some hfind
          refine hlamps _ h.mem htype hbound states ?_ state (List.mem_of_find?_eq_some hfind) ?_ ?_
          · rw [h.configured htype, hconfigured]
          · rw [hsame]
            exact hfinite
          · rw [hsame]
            exact hfind
        · trivial
  · exact safe_lampWrites_of_none (.inr (.inr htype))

theorem safe_update (hlamps : doc.SafeLamps) (h : l.Of doc id) {sample : LiveSample}
    (hfinite : sample.value.all PyFloat.isFinite = true)
    (hbound : l.shell.widget.boundPoints ≠ []) (hwrite : write ∈ (l.update sample).2) :
    write.Safe := by
  have hvalue : ∀ v, sample.value = some v → v.isFinite = true ∧
      l.shell.widget.boundPoints ≠ [] := by
    intro v hv
    rw [hv] at hfinite
    exact ⟨hfinite, hbound⟩
  have hshown : ∀ v, (if sample.status = "comm_lost" then none else sample.value) = some v →
      v.isFinite = true ∧ l.shell.widget.boundPoints ≠ [] := by
    intro v hv
    split at hv
    · nomatch hv
    · exact hvalue v hv
  unfold Live.update at hwrite
  dsimp only at hwrite
  split at hwrite
  · exact safe_showValue (safe_lampWrites hlamps h hvalue) hwrite
  split at hwrite
  · exact safe_showValue (safe_lampWrites hlamps ⟨h.mem, h.id, h.configured⟩ hshown) hwrite
  · exact safe_showValue (safe_lampWrites hlamps h hshown) hwrite

/-- What a widget is told of its point shows no colour of the document. -/
theorem safe_receiveInfo {info : PointInfo} (h : write ∈ (l.receiveInfo info).2) : write.Safe := by
  have hagain : ∀ l : Live, l.configured = none ∨ l.shell.widget.type ≠ "indicator" →
      ∀ write ∈ l.again.2, write.Safe := by
    intro l hl write hwrite
    unfold Live.again at hwrite
    split at hwrite
    · exact safe_showValue (safe_lampWrites_of_none (hl.imp id .inr)) hwrite
    · nomatch hwrite
  unfold Live.receiveInfo at h
  split at h
  · nomatch h
  split at h
  · rename_i hindicator
    refine hagain { l with stateText := info.stateText } (.inl ?_) write h
    exact Option.isNone_iff_eq_none.mp hindicator.2.1
  split at h
  · rename_i hgauge
    refine hagain l (.inr fun htype ↦ ?_) write h
    rw [hgauge.1] at htype
    exact absurd htype (by decide)
  · nomatch h

/-! ## The page -/

theorem safe_canvasWrites (hcanvas : doc.canvas.WellFormed) {dark : Bool}
    (h : write ∈ Page.canvasWrites dark doc.canvas) : write.Safe := by
  have hbackground := Schema.ite_eq_ok_iff.mp hcanvas.background
  unfold Page.canvasWrites at h
  obtain ⟨op, hop, rfl⟩ := List.mem_map.mp h
  simp only [List.cons_append, List.nil_append, List.mem_cons, List.mem_append,
    List.not_mem_nil, or_false] at hop
  rcases hop with rfl | rfl | rfl | himage | rfl | rfl | rfl
  · trivial
  · trivial
  · exact hbackground
  · -- the image of the canvas has passed the check of the server
    split at himage
    · split at himage
      · rename_i hdata
        rcases List.mem_cons.mp himage with rfl | himage
        · exact ⟨(Bool.and_eq_true_iff.mp hdata).1, rfl, rfl⟩
        · obtain rfl := List.mem_singleton.mp himage
          trivial
      · nomatch himage
    · nomatch himage
  · trivial
  · trivial
  · exact hbackground

theorem safe_itemWrites (h : write ∈ Page.itemWrites w) : write.Safe := by
  obtain ⟨⟨property, x⟩, -, rfl⟩ := List.mem_map.mp h
  trivial

/-- What holds of the page at any time. -/
structure Page.Shows (doc : Schema.SynopticDoc) (page : Page) : Prop where
  viewer : page.viewer = Superviseur.mountViewer .new doc.document
  safe : page.Safe
  instances : ∀ id l, page.instances.get? id = some (.live l) → l.Of doc id
  /-- A value that waits is a finite number, for a widget that is bound to a point. -/
  pending : ∀ e ∈ page.pending, e.2.value.all PyFloat.isFinite = true ∧
    ∀ w ∈ doc.widgets, w.id = e.1 → w.boundPoints ≠ []

theorem Page.Shows.mountWidget (h : page.Shows doc) (hw : w ∈ doc.widgets) :
    (page.mountWidget w).Shows doc where
  viewer := h.viewer
  safe := by
    intro write hwrite
    rcases List.mem_append.mp hwrite with hwrite | hwrite
    · rcases List.mem_append.mp hwrite with hwrite | hwrite
      · exact h.safe write hwrite
      · exact safe_itemWrites hwrite
    · exact safe_renderWidget hwrite
  instances id l hl := by
    by_cases hid : id = w.id
    · subst hid
      rw [Page.mountWidget, OrderedDict.get?_insert_self, Option.some.injEq] at hl
      exact of_renderWidget hw hl
    · rw [Page.mountWidget, OrderedDict.get?_insert_of_ne hid] at hl
      exact h.instances id l hl
  pending := h.pending

theorem shows_mount (hcanvas : doc.canvas.WellFormed) (dark : Bool) :
    (Page.mount dark doc).Shows doc := by
  have hfold : ∀ ws : List Widget, (∀ w ∈ ws, w ∈ doc.widgets) → ∀ page : Page, page.Shows doc →
      (ws.foldl Page.mountWidget page).Shows doc := by
    intro ws
    induction ws with
    | nil => exact fun _ page hpage ↦ hpage
    | cons w ws ih =>
      intro hws page hpage
      exact ih (fun w hw ↦ hws w (List.mem_cons_of_mem _ hw)) _
        (hpage.mountWidget (hws w (List.mem_cons_self ..)))
  refine hfold doc.widgets (fun _ hw ↦ hw) _ ⟨rfl, fun _ hwrite ↦ safe_canvasWrites hcanvas hwrite,
    fun _ _ hl ↦ ?_, fun _ he ↦ absurd he List.not_mem_nil⟩
  rw [OrderedDict.get?_empty] at hl
  nomatch hl

theorem mem_push {pending : List (String × LiveSample)} {e e' : String × LiveSample}
    (h : e ∈ Page.push pending e') : e ∈ pending ∨ e = e' := by
  unfold Page.push at h
  split at h
  · obtain ⟨old, hold, heq⟩ := List.mem_map.mp h
    split at heq
    · exact .inr heq.symm
    · exact .inl (heq ▸ hold)
  · exact (List.mem_append.mp h).imp id List.mem_singleton.mp

theorem mem_foldl_push {pending es : List (String × LiveSample)} {e : String × LiveSample}
    (h : e ∈ es.foldl Page.push pending) : e ∈ pending ∨ e ∈ es := by
  induction es generalizing pending with
  | nil => exact .inl h
  | cons e' es ih =>
    rcases ih h with hmem | hmem
    · rcases mem_push hmem with hold | rfl
      · exact .inl hold
      · exact .inr (List.mem_cons_self ..)
    · exact .inr (List.mem_cons_of_mem _ hmem)

/-- The viewer gives a message to widgets that are bound to its point. -/
theorem of_mem_receive {message : ValueMessage} {e : String × LiveSample}
    (h : e ∈ (Superviseur.mountViewer .new doc.document).receive message) :
    message.isJson = true ∧ e.2 = ⟨message.point, message.ts, message.value, message.status⟩ ∧
      ∃ w ∈ doc.document.widgets, w.id = e.1 ∧ message.point ∈ w.boundPoints := by
  obtain ⟨⟨listener', sample⟩, hdispatch, he⟩ := List.mem_flatMap.mp h
  rw [LiveClient.dispatch] at hdispatch
  split at hdispatch
  · simp at hdispatch
  rename_i hjson
  obtain ⟨listener, -, heq⟩ := List.mem_map.mp hdispatch
  obtain ⟨rfl, rfl⟩ := Prod.mk.inj heq
  cases listener with
  | trend w => simp at he
  | viewer =>
    obtain ⟨id, hid, rfl⟩ := List.mem_map.mp he
    obtain ⟨w, hw, rfl, -, hpoint⟩ := widget_of_mem_widgetsByPoint hid
    refine ⟨?_, rfl, w, hw, rfl, hpoint⟩
    rw [Bool.or_eq_true, not_or] at hjson
    simpa using hjson.1

section Steps

variable (hunique : (doc.widgets.map fun w ↦ w.id).Nodup) (hlamps : doc.SafeLamps)

include hunique in
theorem Page.Shows.message (h : page.Shows doc) (message : ValueMessage) :
    (page.step (.message message)).Shows doc := by
  refine ⟨h.viewer, h.safe, h.instances, fun e he ↦ ?_⟩
  rcases mem_foldl_push he with hold | hnew
  · exact h.pending e hold
  · rw [h.viewer] at hnew
    obtain ⟨hjson, hsample, def_, hdef, hid, hpoint⟩ := of_mem_receive hnew
    refine ⟨?_, fun w hw hwid ↦ ?_⟩
    · rw [hsample]
      exact hjson
    · -- the identifiers of the widgets all differ
      obtain ⟨w', hw', rfl⟩ := List.mem_map.mp hdef
      have hsame : w' = w := List.inj_on_of_nodup_map hunique hw' hw (hid.trans hwid.symm)
      rw [← hsame]
      exact List.ne_nil_of_mem hpoint

include hlamps in
theorem Page.Shows.deliver (h : page.Shows doc) {sample : LiveSample}
    (hfinite : sample.value.all PyFloat.isFinite = true)
    (hbound : ∀ w ∈ doc.widgets, w.id = id → w.boundPoints ≠ []) :
    (page.deliver id sample).Shows doc := by
  unfold Page.deliver
  split
  · rename_i l hl
    have hof := h.instances id l hl
    refine ⟨h.viewer, fun write hwrite ↦ ?_, fun id' l' hl' ↦ ?_, h.pending⟩
    · rcases List.mem_append.mp hwrite with hwrite | hwrite
      · exact h.safe write hwrite
      · exact safe_update hlamps hof hfinite (hbound _ hof.mem hof.id) hwrite
    · by_cases hid : id' = id
      · subst hid
        rw [OrderedDict.get?_insert_self] at hl'
        obtain rfl : (l.update sample).1 = l' := by simpa using hl'
        exact hof.update sample
      · rw [OrderedDict.get?_insert_of_ne hid] at hl'
        exact h.instances id' l' hl'
  · exact h

include hlamps in
theorem Page.Shows.turn (h : page.Shows doc) (id : String) : (page.step (.turn id)).Shows doc := by
  have hfold : ∀ (samples : List LiveSample) (page : Page), page.Shows doc →
      (∀ sample ∈ samples, (id, sample).2.value.all PyFloat.isFinite = true ∧
        ∀ w ∈ doc.widgets, w.id = id → w.boundPoints ≠ []) →
      (samples.foldl (Page.deliver id) page).Shows doc := by
    intro samples
    induction samples with
    | nil => exact fun page hpage _ ↦ hpage
    | cons sample samples ih =>
      intro page hpage hall
      obtain ⟨hfinite, hbound⟩ := hall sample (List.mem_cons_self ..)
      exact ih _ (hpage.deliver hlamps hfinite hbound)
        fun sample hsample ↦ hall sample (List.mem_cons_of_mem _ hsample)
  refine hfold _ _ ⟨h.viewer, h.safe, h.instances, fun e he ↦ ?_⟩ fun sample hsample ↦ ?_
  · exact h.pending e (List.mem_filter.mp he).1
  · obtain ⟨e, he, rfl⟩ := List.mem_map.mp hsample
    obtain ⟨hmem, hid⟩ := List.mem_filter.mp he
    have hid : e.1 = id := of_decide_eq_true hid
    rw [← hid]
    exact h.pending e hmem

theorem Page.Shows.info (h : page.Shows doc) (id : String) (info : PointInfo) :
    (page.step (.info id info)).Shows doc := by
  unfold Page.step
  dsimp only
  split
  · rename_i l hl
    have hof := h.instances id l hl
    refine ⟨h.viewer, fun write hwrite ↦ ?_, fun id' l' hl' ↦ ?_, h.pending⟩
    · rcases List.mem_append.mp hwrite with hwrite | hwrite
      · exact h.safe write hwrite
      · exact safe_receiveInfo hwrite
    · by_cases hid : id' = id
      · subst hid
        rw [OrderedDict.get?_insert_self] at hl'
        obtain rfl : (l.receiveInfo info).1 = l' := by simpa using hl'
        exact hof.receiveInfo info
      · rw [OrderedDict.get?_insert_of_ne hid] at hl'
        exact h.instances id' l' hl'
  · exact h

include hunique hlamps in
/-- **Step lemma.** -/
theorem Page.Shows.step (h : page.Shows doc) (event : Page.Event) :
    (page.step event).Shows doc := by
  rcases event with message | id | ⟨id, info⟩
  · exact h.message hunique message
  · exact h.turn hlamps id
  · exact h.info id info

include hunique hlamps in
theorem shows_run (hcanvas : doc.canvas.WellFormed) (dark : Bool) (events : List Page.Event) :
    (Page.run dark doc events).Shows doc := by
  induction events using List.reverseRecOn with
  | nil => exact shows_mount hcanvas dark
  | append_singleton events event ih =>
    rw [Page.run, List.foldl_append]
    exact ih.step hunique hlamps event

end Steps

/-! ## A state is shown -/

/-- The viewer gives the values of a point to the widgets that are bound to it. -/
theorem mem_receive_of_bound {def_ : WidgetDef} (hdef : def_ ∈ doc.document.widgets)
    (htype : def_.type ∈ pushed) {message : ValueMessage}
    (hpoint : message.point ∈ def_.boundPoints) (hjson : message.isJson = true)
    (hne : message.point ≠ "") :
    (def_.id, ⟨message.point, message.ts, message.value, message.status⟩) ∈
      (Superviseur.mountViewer .new doc.document).receive message := by
  have hwidgets := (shows_mountViewer doc.document).1.pushed def_ hdef htype _ hpoint
  have hlistens := (shows_mountViewer doc.document).2 _ (Groups.mem_keys_of_mem_get hwidgets)
  refine List.mem_flatMap.mpr ⟨(.viewer, ⟨message.point, message.ts, message.value,
    message.status⟩), ?_, List.mem_map.mpr ⟨def_.id, hwidgets, rfl⟩⟩
  rw [LiveClient.dispatch, if_neg (by simp [hjson, hne])]
  exact List.mem_map.mpr ⟨.viewer, hlistens, rfl⟩

theorem ne_empty_of_mem_boundPoints {def_ : WidgetDef} {point : String}
    (h : point ∈ def_.boundPoints) : point ≠ "" := by
  have htext : ∀ value, pointText value = some point → point ≠ "" := by
    intro value hvalue
    rw [pointText.eq_def] at hvalue
    split at hvalue
    · split at hvalue
      · simp at hvalue
      · rename_i hne
        exact Option.some.inj hvalue ▸ hne
    · simp at hvalue
  rcases List.mem_append.mp h with hsingle | hmany
  · exact htext _ (Option.mem_toList.mp hsingle)
  · split at hmany
    · obtain ⟨entry, -, hvalue⟩ := List.mem_filterMap.mp hmany
      exact htext _ hvalue
    · simp at hmany

/-- Something waits for the widget and the point of what has been pushed. -/
theorem exists_mem_push (pending : List (String × LiveSample)) (e : String × LiveSample) :
    ∃ e' ∈ Page.push pending e, e'.1 = e.1 ∧ e'.2.point = e.2.point := by
  unfold Page.push
  split
  · rename_i hany
    obtain ⟨old, hold, hsame⟩ := List.any_eq_true.mp hany
    exact ⟨e, List.mem_map.mpr ⟨old, hold, if_pos (of_decide_eq_true hsame)⟩, rfl, rfl⟩
  · exact ⟨e, List.mem_append_right _ (List.mem_singleton_self e), rfl, rfl⟩

theorem exists_mem_push_of_mem {pending : List (String × LiveSample)} {e : String × LiveSample}
    (h : e ∈ pending) (new : String × LiveSample) :
    ∃ e' ∈ Page.push pending new, e'.1 = e.1 ∧ e'.2.point = e.2.point := by
  unfold Page.push
  split
  · by_cases hsame : e.1 = new.1 ∧ e.2.point = new.2.point
    · exact ⟨new, List.mem_map.mpr ⟨e, h, if_pos hsame⟩, hsame.1.symm, hsame.2.symm⟩
    · exact ⟨e, List.mem_map.mpr ⟨e, h, if_neg hsame⟩, rfl, rfl⟩
  · exact ⟨e, List.mem_append_left _ h, rfl, rfl⟩

theorem exists_mem_foldl_push {pending es : List (String × LiveSample)} {e : String × LiveSample}
    (h : e ∈ pending ∨ e ∈ es) :
    ∃ e' ∈ es.foldl Page.push pending, e'.1 = e.1 ∧ e'.2.point = e.2.point := by
  induction es generalizing pending e with
  | nil => exact ⟨e, h.resolve_right List.not_mem_nil, rfl, rfl⟩
  | cons new es ih =>
    have hnext : (∃ e' ∈ Page.push pending new, e'.1 = e.1 ∧ e'.2.point = e.2.point) ∨ e ∈ es := by
      rcases h with hold | hnew
      · exact .inl (exists_mem_push_of_mem hold new)
      · rcases List.mem_cons.mp hnew with rfl | hnew
        · exact .inl (exists_mem_push pending e)
        · exact .inr hnew
    rcases hnext with ⟨e', he', hid, hpoint⟩ | hes
    · obtain ⟨last, hlast, hlastId, hlastPoint⟩ := ih (.inl he')
      exact ⟨last, hlast, hlastId.trans hid, hlastPoint.trans hpoint⟩
    · exact ih (.inr hes)

theorem mem_writes_deliver (h : write ∈ page.writes) (samples : List LiveSample) :
    write ∈ (samples.foldl (Page.deliver id) page).writes := by
  induction samples generalizing page with
  | nil => exact h
  | cons sample samples ih =>
    refine ih ?_
    unfold Page.deliver
    split
    · exact List.mem_append_left _ h
    · exact h

/-- Every widget of a document is on the page, as its module rendered it. -/
theorem get?_mount (hunique : (doc.widgets.map fun w ↦ w.id).Nodup) (hw : w ∈ doc.widgets)
    (dark : Bool) : (Page.mount dark doc).instances.get? w.id = some (renderWidget w).1 := by
  have hother : ∀ (ws : List Widget) (page : Page), (∀ w' ∈ ws, w'.id ≠ w.id) →
      (ws.foldl Page.mountWidget page).instances.get? w.id = page.instances.get? w.id := by
    intro ws
    induction ws with
    | nil => exact fun page _ ↦ rfl
    | cons w' ws ih =>
      intro page hws
      rw [List.foldl_cons, ih _ fun w'' hw'' ↦ hws w'' (List.mem_cons_of_mem _ hw'')]
      exact OrderedDict.get?_insert_of_ne (hws w' (List.mem_cons_self ..)).symm
  obtain ⟨before, after, hsplit⟩ := List.append_of_mem hw
  rw [hsplit, List.map_append, List.map_cons, List.nodup_append] at hunique
  rw [Page.mount, hsplit, List.foldl_append, List.foldl_cons, hother]
  · exact OrderedDict.get?_insert_self
  · intro w' hw' hid
    exact (List.nodup_cons.mp hunique.2.1).1 (hid ▸ List.mem_map_of_mem hw')

theorem mount_waiting (dark : Bool) (doc : Schema.SynopticDoc) :
    (Page.mount dark doc).viewer = Superviseur.mountViewer .new doc.document ∧
      (Page.mount dark doc).pending = [] := by
  have hfold : ∀ (ws : List Widget) (page : Page),
      (ws.foldl Page.mountWidget page).viewer = page.viewer ∧
        (ws.foldl Page.mountWidget page).pending = page.pending := by
    intro ws
    induction ws with
    | nil => exact fun page ↦ ⟨rfl, rfl⟩
    | cons w ws ih => exact fun page ↦ ih _
  exact hfold _ _

theorem renderWidget_indicator (htype : w.type = "indicator") {states : List IndicatorState}
    (hstates : IndicatorState.statesOf w = some (some states)) :
    renderWidget w = renderLive w (some states) := by
  simp [renderWidget, htype, hstates]

theorem mem_update_of_state (htype : l.shell.widget.type = "indicator")
    {states : List IndicatorState} (hconfigured : l.configured = some states)
    {state : IndicatorState}
    (hfind : (states.find? fun other ↦ other.value = state.value) = some state)
    {sample : LiveSample} (hvalue : sample.value = some state.value) (hok : sample.status = "ok") :
    ⟨.lamp l.shell.widget.id, .set "--lamp" (.document state.color)⟩ ∈ (l.update sample).2 := by
  have hlamp : IndicatorState.describeColor (some states) l.stateText (some state.value)
      = .document state.color := by
    rw [IndicatorState.describeColor]
    simp only [hfind]
  have hsetpoint : l.shell.widget.type ≠ "setpoint" := by
    rw [htype]
    decide
  have hlost : sample.status ≠ "comm_lost" := by
    rw [hok]
    decide
  unfold Live.update
  dsimp only
  rw [if_neg hsetpoint, if_pos (.inl htype), if_neg hlost, hvalue]
  refine List.mem_append_left _ ?_
  rw [Live.lampWrites, if_pos htype]
  dsimp only
  rw [hconfigured, hlamp]
  exact List.mem_singleton_self _

/-- **A state is shown**, in its colour, when the value of its point is its own. -/
theorem exists_write_of_state (hunique : (doc.widgets.map fun w ↦ w.id).Nodup)
    (hw : w ∈ doc.widgets) (htype : w.type = "indicator") (hbound : w.boundPoints ≠ [])
    {states : List IndicatorState} (hstates : IndicatorState.statesOf w = some (some states))
    {state : IndicatorState} (hfinite : state.value.isFinite = true)
    (hfind : (states.find? fun other ↦ other.value = state.value) = some state) (dark : Bool) :
    ∃ events, ⟨.lamp w.id, .set "--lamp" (.document state.color)⟩ ∈
      (Page.run dark doc events).writes := by
  obtain ⟨point, points, hpoints⟩ := List.exists_cons_of_ne_nil hbound
  have hpoint : point ∈ w.boundPoints := hpoints ▸ List.mem_cons_self ..
  let message : ValueMessage := ⟨point, 0, some state.value, "ok"⟩
  let sample : LiveSample := ⟨point, 0, some state.value, "ok"⟩
  refine ⟨[.message message, .turn w.id], ?_⟩
  obtain ⟨hviewer, hpending⟩ := mount_waiting dark doc
  have hreceive : (w.id, sample) ∈ (Superviseur.mountViewer .new doc.document).receive message :=
    mem_receive_of_bound (List.mem_map_of_mem hw) (by rw [htype]; decide) hpoint hfinite
      (ne_empty_of_mem_boundPoints hpoint)
  have hwaits : ∀ e ∈ ((Superviseur.mountViewer .new doc.document).receive message).foldl
      Page.push [], e.2 = sample := by
    intro e he
    exact (of_mem_receive ((mem_foldl_push he).resolve_left List.not_mem_nil)).2.1
  -- the value waits for the indicator, and is the only one
  obtain ⟨rest, hrest⟩ : ∃ rest, ((((Superviseur.mountViewer .new doc.document).receive
      message).foldl Page.push []).filter fun e ↦ e.1 = w.id).map Prod.snd = sample :: rest := by
    obtain ⟨e, he, hid, -⟩ := @exists_mem_foldl_push [] _ _ (.inr hreceive)
    have hmem : e ∈ (((Superviseur.mountViewer .new doc.document).receive
        message).foldl Page.push []).filter fun e ↦ e.1 = w.id :=
      List.mem_filter.mpr ⟨he, decide_eq_true hid⟩
    obtain ⟨e', es, hes⟩ := List.exists_cons_of_ne_nil (List.ne_nil_of_mem hmem)
    refine ⟨es.map Prod.snd, ?_⟩
    rw [hes, List.map_cons, hwaits e' (List.mem_filter.mp (hes ▸ List.mem_cons_self ..)).1]
  have hinstance := get?_mount hunique hw dark
  rw [renderWidget_indicator htype hstates] at hinstance
  rw [Page.run, List.foldl_cons, List.foldl_cons, List.foldl_nil]
  simp only [Page.step, hviewer, hpending, hrest, List.foldl_cons]
  refine mem_writes_deliver ?_ rest
  unfold Page.deliver
  dsimp only
  rw [hinstance]
  refine List.mem_append_right _ ?_
  exact mem_update_of_state htype rfl hfind rfl rfl

/-- **A document is shown safely exactly where the states that can be shown have safe colours.** -/
theorem safe_iff {env : SchemaEnv} {raw : Dict} (h : validateDocument env raw = .valid doc)
    (dark : Bool) : (∀ events, (Page.run dark doc events).Safe) ↔ doc.SafeLamps := by
  have hwell := Schema.SynopticDoc.wellFormed_of_validate h
  have hunique : (doc.widgets.map fun w ↦ w.id).Nodup := by
    rw [← Schema.SynopticDoc.ids_document]
    exact hwell.accepted.unique
  constructor
  · intro hsafe w hw htype hbound states hstates state _ hfinite hfind
    obtain ⟨events, hwrite⟩ :=
      exists_write_of_state hunique hw htype hbound hstates hfinite hfind dark
    exact hsafe events _ hwrite
  · exact fun hlamps events ↦ (shows_run hunique hlamps hwell.canvas dark events).safe

/-! ## An indicator -/

/-- An indicator with one state, in a colour. -/
def lamp (color : String) : Widget where
  id := "w1"
  type := "indicator"
  bind := [("point", .str (UuidText.write 7))]
  extra := [("states", .arr [.obj [("value", .int 1), ("label", .str "Marche"),
    ("color", .str color)]])]
  x := .fin 0
  y := .fin 0
  w := .fin 140
  h := .fin 32
  style := []
  rules := []

def lampDoc (color : String) : Schema.SynopticDoc := ⟨1, "Pompes", .default, [lamp color], []⟩

/-- Texts are read as no numbers. -/
def lampEnv : SchemaEnv where
  texts := ⟨fun _ ↦ .error "", fun _ ↦ .error "", fun _ ↦ .error "", fun _ ↦ "", fun _ ↦ ""⟩
  int _ := none
  float _ := none
  frames := 900

theorem wellFormed_lampDoc (color : String) : (lampDoc color).WellFormed lampEnv where
  schema := rfl
  name := (rfl : Schema.lengthError 1 255 "Pompes" = none)
  canvas := Schema.Canvas.wellFormed_default
  widgetCount := (by decide : 1 ≤ maxWidgets)
  widgets := by
    intro w hw
    obtain rfl := List.mem_singleton.mp hw
    exact {
      id := (rfl : Widget.checkId "w1" = .ok ())
      type := (rfl : Widget.checkType "indicator" = .ok ())
      x := (rfl : Schema.floatError (-10000) 20000 (.fin 0) = none)
      y := (rfl : Schema.floatError (-10000) 20000 (.fin 0) = none)
      w := (rfl : Schema.floatError 1 20000 (.fin 140) = none)
      h := (rfl : Schema.floatError 1 20000 (.fin 32) = none)
      style := rfl
      ruleCount := Nat.zero_le _
      rules := fun r hr ↦ absurd hr List.not_mem_nil
      extra := by simp [lamp, Widget.fieldNames]
      properties := by
        rw [WidgetDef.properties, WidgetDef.checkPoint_eq rfl, checkUuid, Json.toStr,
          UuidText.read_write (by norm_num)]
        rfl }
  linkCount := Nat.zero_le _
  links := fun link hlink ↦ absurd hlink List.not_mem_nil
  references := by rfl

theorem statesOf_lamp (color : String) :
    IndicatorState.statesOf (lamp color) = some (some [⟨.round 1, color⟩]) := rfl

/-- A green lamp. -/
theorem safe_iff_green : (lampDoc "#22c55e").SafeLamps ∧
    ∀ events, (Page.run true (lampDoc "#22c55e") events).Safe := by
  have hlamps : (lampDoc "#22c55e").SafeLamps := by
    intro w hw _ _ states hstates state hstate _ _
    obtain rfl := List.mem_singleton.mp hw
    rw [statesOf_lamp, Option.some.injEq, Option.some.injEq] at hstates
    subst hstates
    rw [List.mem_singleton.mp hstate]
    decide
  have hvalid := Schema.SynopticDoc.validate_toJson (wellFormed_lampDoc "#22c55e")
  exact ⟨hlamps, (safe_iff hvalid true).mpr hlamps⟩

/-- A lamp whose colour is an image of another server. -/
theorem not_safe_remote : ¬ ∀ (env : SchemaEnv) (raw : Dict) (doc : Schema.SynopticDoc),
    validateDocument env raw = .valid doc →
      ∀ dark events, (Page.run dark doc events).Safe := by
  intro h
  have hwell := wellFormed_lampDoc "url(https://example.org/a.png)"
  have hbound : (lamp "url(https://example.org/a.png)").boundPoints ≠ [] := by decide
  have hshown : (⟨.round 1, "url(https://example.org/a.png)"⟩ : IndicatorState).value.isFinite
      = true := by decide +kernel
  obtain ⟨events, hwrite⟩ := @exists_write_of_state (lampDoc "url(https://example.org/a.png)") _
    (List.nodup_singleton _) (List.mem_singleton_self _) rfl hbound _ (statesOf_lamp _) _ hshown
    (by simp) true
  have hsafe : Schema.isSafeCssValue (.str "url(https://example.org/a.png)") = true :=
    h lampEnv _ _ (Schema.SynopticDoc.validate_toJson hwell) true events _ hwrite
  exact absurd hsafe (by decide)

end Superviseur
