import Mathlib.Data.List.Induction
import Superviseur.Front.Viewer

/-!
# A mounted viewer

What a viewer listens to once it shows its widgets: the points they are bound to, no others, each
once. All of these are identifiers, if the document was accepted; and the widgets of a pushed type
are those that are given the values of their points.
-/

namespace Superviseur

variable {texts : Texts} {doc : Document} {w : WidgetDef} {viewer : Viewer} {client : LiveClient}
  {point : String} {points : List String} {listener : Listener}

/-! ## The texts of an accepted document -/

theorem mem_of_mapM {α β : Type} {f : α → Option β} {xs : List α} {ys : List β}
    (h : xs.mapM f = some ys) {y : β} (hy : y ∈ ys) : ∃ x ∈ xs, f x = some y := by
  induction xs generalizing ys with
  | nil =>
    obtain rfl := Option.some.inj h
    nomatch hy
  | cons x xs ih =>
    rw [List.mapM_cons] at h
    obtain ⟨z, hz, h⟩ := Option.bind_eq_some_iff.mp h
    obtain ⟨zs, hzs, h⟩ := Option.bind_eq_some_iff.mp h
    obtain rfl := Option.some.inj h
    rcases List.mem_cons.mp hy with rfl | hy
    · exact ⟨x, List.mem_cons_self .., hz⟩
    · obtain ⟨x', hx', hy⟩ := ih hzs hy
      exact ⟨x', List.mem_cons_of_mem _ hx', hy⟩

theorem read_boundPoints (h : w.properties texts = .ok ()) (hpoint : point ∈ w.boundPoints) :
    (UuidText.read point).isSome = true := by
  have htext : ∀ value, pointText value = some point → value = .str point := by
    intro value hvalue
    rw [pointText.eq_def] at hvalue
    split at hvalue
    · split at hvalue
      · nomatch hvalue
      · rw [Option.some.inj hvalue]
    · nomatch hvalue
  rw [Option.isSome_iff_exists]
  rcases List.mem_append.mp hpoint with hsingle | hmany
  · exact WidgetDef.read_point h (htext _ (Option.mem_toList.mp hsingle))
  · split at hmany
    · rename_i items hitems
      obtain ⟨entry, hentry, hvalue⟩ := List.mem_filterMap.mp hmany
      exact WidgetDef.read_entry h hitems hentry (htext _ hvalue)
    · nomatch hmany

theorem mem_boundPoints_of_trendConfig (h : w.trendConfig = some points)
    (hpoint : point ∈ points) : point ∈ w.boundPoints := by
  obtain ⟨hpoints, -⟩ := Option.filter_eq_some_iff.mp h
  rw [WidgetDef.trendPoints] at hpoints
  split at hpoints
  · rename_i items hitems
    split at hpoints
    · nomatch hpoints
    · obtain ⟨hmap, -⟩ := Option.filter_eq_some_iff.mp hpoints
      obtain ⟨entry, hentry, hvalue⟩ := mem_of_mapM hmap hpoint
      rw [WidgetDef.boundPoints, hitems]
      exact List.mem_append_right _ (List.mem_filterMap.mpr ⟨entry, hentry, hvalue⟩)
  · nomatch hpoints

/-! ## The listeners -/

namespace LiveClient

/-- The listener joins a group, once. -/
def join (listener : Listener) (group : List Listener) : List Listener :=
  if listener ∈ group then group else group ++ [listener]

theorem mem_join_self (group : List Listener) : listener ∈ join listener group := by
  rw [join]
  split
  · assumption
  · exact List.mem_append_right _ (List.mem_singleton_self listener)

theorem listeners_subscribe : (client.subscribe points listener).listeners =
    points.foldl (fun m p ↦ m.update p (join listener)) client.listeners := by
  have hfold : ∀ acc : Groups String Listener × List String,
      (points.foldl (listen listener) acc).1 =
        points.foldl (fun m p ↦ m.update p (join listener)) acc.1 := by
    induction points with
    | nil => exact fun acc ↦ rfl
    | cons p points ih => exact fun acc ↦ ih _
  rw [← hfold (client.listeners, []), subscribe]
  dsimp only
  split <;> rfl

/-- A client whose socket is not open sends nothing. -/
structure Waiting (client : LiveClient) : Prop where
  state : client.state ≠ .open
  sent : client.sent = []
  nodup : client.listeners.keys.Nodup

theorem Waiting.subscribe (h : client.Waiting) : (client.subscribe points listener).Waiting where
  state := by
    rw [LiveClient.subscribe]
    dsimp only
    split
    · exact nofun
    · exact h.state
    · rename_i hopen
      exact absurd hopen h.state
  sent := by
    rw [LiveClient.subscribe]
    dsimp only
    split
    · exact h.sent
    · exact h.sent
    · rename_i hopen
      exact absurd hopen h.state
  nodup := by
    rw [listeners_subscribe]
    exact Groups.nodup_keys_foldl_update h.nodup

theorem Waiting.sent_onopen (h : client.Waiting) :
    client.onopen.sent = slices subscribeChunk [] client.listeners.keys := by
  rw [onopen, send, h.sent, List.nil_append]

end LiveClient

/-! ## The viewer -/

/-- The viewer shows some widgets: its client waits, listens to their points only, and the widgets
of a pushed type are those of their points. -/
structure Viewer.Shows (viewer : Viewer) (ws : List WidgetDef) : Prop where
  waiting : viewer.client.Waiting
  listeners : ∀ point ∈ viewer.client.listeners.keys, ∃ w ∈ ws, point ∈ w.boundPoints
  widgets : ∀ point ∈ viewer.widgetsByPoint.keys, ∃ w ∈ ws, point ∈ w.boundPoints
  pushed : ∀ w ∈ ws, w.type ∈ pushed → ∀ point ∈ w.boundPoints,
    w.id ∈ viewer.widgetsByPoint.get point

namespace Viewer

variable {ws : List WidgetDef}

theorem keys_mountTrend (h : point ∈ (mountTrend client w).listeners.keys) :
    point ∈ client.listeners.keys ∨ point ∈ w.boundPoints := by
  rw [mountTrend] at h
  split at h
  · rename_i points hconfig
    split at h
    · rw [LiveClient.listeners_subscribe, Groups.mem_keys_foldl_update] at h
      rcases h with h | h
      · exact .inr (mem_boundPoints_of_trendConfig hconfig h)
      · exact .inl h
    · exact .inl h
  · exact .inl h

theorem waiting_mountTrend (h : client.Waiting) : (mountTrend client w).Waiting := by
  rw [mountTrend]
  split
  · split
    · exact h.subscribe
    · exact h
  · exact h

/-- **Step lemma.** A widget is shown. -/
theorem Shows.mountWidget (h : viewer.Shows ws) (w : WidgetDef) :
    (viewer.mountWidget w).Shows (ws ++ [w]) where
  waiting := by
    rw [Viewer.mountWidget]
    dsimp only
    split
    · exact waiting_mountTrend h.waiting
    · exact h.waiting
  listeners point hpoint := by
    have hkeys : point ∈ viewer.client.listeners.keys ∨ point ∈ w.boundPoints := by
      rw [Viewer.mountWidget] at hpoint
      dsimp only at hpoint
      split at hpoint
      · exact keys_mountTrend hpoint
      · exact .inl hpoint
    rcases hkeys with hold | hnew
    · obtain ⟨w', hw', hbound⟩ := h.listeners point hold
      exact ⟨w', List.mem_append_left _ hw', hbound⟩
    · exact ⟨w, List.mem_append_right _ (List.mem_singleton_self w), hnew⟩
  widgets point hpoint := by
    have hkeys : point ∈ viewer.widgetsByPoint.keys ∨ point ∈ w.boundPoints := by
      rw [Viewer.mountWidget] at hpoint
      dsimp only at hpoint
      split at hpoint
      · rw [Groups.mem_keys_foldl_update] at hpoint
        exact hpoint.symm
      · exact .inl hpoint
    rcases hkeys with hold | hnew
    · obtain ⟨w', hw', hbound⟩ := h.widgets point hold
      exact ⟨w', List.mem_append_left _ hw', hbound⟩
    · exact ⟨w, List.mem_append_right _ (List.mem_singleton_self w), hnew⟩
  pushed w' hw' htype point hpoint := by
    rw [Viewer.mountWidget]
    dsimp only
    rcases List.mem_append.mp hw' with hw' | hw'
    · have hold := h.pushed w' hw' htype point hpoint
      split
      · exact Groups.mem_get_foldl_update_of_mem (fun _ ↦ List.mem_append_left _) hold
      · exact hold
    · obtain rfl := List.mem_singleton.mp hw'
      rw [if_pos htype]
      exact Groups.mem_get_foldl_update
        (fun _ ↦ List.mem_append_right _ (List.mem_singleton_self _)) hpoint

theorem shows_foldl (ws : List WidgetDef) : (ws.foldl Viewer.mountWidget ⟨.new, []⟩).Shows ws := by
  induction ws using List.reverseRecOn with
  | nil =>
    exact ⟨⟨nofun, rfl, List.nodup_nil⟩, fun _ hpoint ↦ (nomatch hpoint),
      fun _ hpoint ↦ (nomatch hpoint), fun _ hw ↦ (nomatch hw)⟩
  | append_singleton ws w ih =>
    rw [List.foldl_append]
    exact ih.mountWidget w

end Viewer

/-- A widget that is given the values of a point is of a pushed type, and bound to it. -/
theorem widget_of_mem_widgetsByPoint {id : String}
    (h : id ∈ (mountViewer client doc).widgetsByPoint.get point) :
    ∃ w ∈ doc.widgets, w.id = id ∧ w.type ∈ pushed ∧ point ∈ w.boundPoints := by
  have hfold : ∀ ws : List WidgetDef,
      id ∈ (ws.foldl Viewer.mountWidget ⟨client, []⟩).widgetsByPoint.get point →
        ∃ w ∈ ws, w.id = id ∧ w.type ∈ pushed ∧ point ∈ w.boundPoints := by
    intro ws
    induction ws using List.reverseRecOn with
    | nil => exact fun h ↦ absurd h List.not_mem_nil
    | append_singleton ws w ih =>
      intro h
      rw [List.foldl_append, List.foldl_cons, List.foldl_nil, Viewer.mountWidget] at h
      dsimp only at h
      have hold : id ∈ (ws.foldl Viewer.mountWidget ⟨client, []⟩).widgetsByPoint.get point →
          ∃ w' ∈ ws ++ [w], w'.id = id ∧ w'.type ∈ pushed ∧ point ∈ w'.boundPoints := by
        intro hid
        obtain ⟨w', hw', hrest⟩ := ih hid
        exact ⟨w', List.mem_append_left _ hw', hrest⟩
      split at h
      · rename_i htype
        rcases Groups.mem_of_mem_get_foldl_update h with hid | ⟨rfl, hpoint⟩
        · exact hold hid
        · exact ⟨w, List.mem_append_right _ (List.mem_singleton_self w), rfl, htype, hpoint⟩
      · exact hold h
  refine hfold doc.widgets ?_
  rw [mountViewer] at h
  split at h
  · exact h
  · exact h

theorem shows_mountViewer (doc : Document) : (mountViewer .new doc).Shows doc.widgets ∧
    ∀ point ∈ (mountViewer .new doc).widgetsByPoint.keys,
      .viewer ∈ (mountViewer .new doc).client.listeners.get point := by
  have hshows := Viewer.shows_foldl doc.widgets
  rw [mountViewer]
  split
  · rename_i hkeys
    rw [hkeys]
    exact ⟨hshows, by simp⟩
  · refine ⟨⟨hshows.waiting.subscribe, fun point hpoint ↦ ?_, hshows.widgets, hshows.pushed⟩,
      fun point hpoint ↦ ?_⟩
    · dsimp only at hpoint
      rw [LiveClient.listeners_subscribe, Groups.mem_keys_foldl_update] at hpoint
      rcases hpoint with hpoint | hpoint
      · exact hshows.widgets point hpoint
      · exact hshows.listeners point hpoint
    · dsimp only
      rw [LiveClient.listeners_subscribe]
      exact Groups.mem_get_foldl_update LiveClient.mem_join_self hpoint

/-- The client asks for the texts of the widgets in order, when they all differ. -/
theorem keys_mountViewer (hpushed : ∀ w ∈ doc.widgets, w.type ∈ pushed)
    (hnodup : (doc.widgets.flatMap WidgetDef.boundPoints).Nodup) :
    (mountViewer .new doc).client.listeners.keys = doc.widgets.flatMap WidgetDef.boundPoints := by
  have hfold : ∀ ws : List WidgetDef, (∀ w ∈ ws, w.type ∈ pushed) →
      (ws.flatMap WidgetDef.boundPoints).Nodup →
        (ws.foldl Viewer.mountWidget ⟨.new, []⟩).client = .new ∧
          (ws.foldl Viewer.mountWidget ⟨.new, []⟩).widgetsByPoint.keys =
            ws.flatMap WidgetDef.boundPoints := by
    intro ws hws hnodup
    induction ws using List.reverseRecOn with
    | nil => exact ⟨rfl, rfl⟩
    | append_singleton ws w ih =>
      have htype := hws w (List.mem_append_right _ (List.mem_singleton_self w))
      have htrend : w.type ≠ "trend" := fun h ↦ absurd (h ▸ htype) (by decide)
      rw [List.flatMap_append, List.flatMap_singleton] at hnodup ⊢
      obtain ⟨hold, hnew, hdisjoint⟩ := List.nodup_append.mp hnodup
      obtain ⟨hclient, hkeys⟩ := ih (fun w' hw' ↦ hws w' (List.mem_append_left _ hw')) hold
      rw [List.foldl_append, List.foldl_cons, List.foldl_nil, Viewer.mountWidget]
      dsimp only
      rw [if_neg htrend, if_pos htype]
      rw [hclient, Groups.keys_foldl_update hnew, hkeys]
      · exact ⟨rfl, rfl⟩
      intro point hpoint hmem
      exact hdisjoint point (hkeys ▸ hmem) point hpoint rfl
  obtain ⟨hclient, hkeys⟩ := hfold doc.widgets hpushed hnodup
  rw [mountViewer]
  split
  · rename_i hnil
    rw [hclient, ← hkeys, hnil]
    rfl
  · dsimp only
    rw [LiveClient.listeners_subscribe, hclient, hkeys,
      Groups.keys_foldl_update hnodup fun _ _ hmem ↦ List.not_mem_nil hmem]
    exact List.nil_append _

end Superviseur
