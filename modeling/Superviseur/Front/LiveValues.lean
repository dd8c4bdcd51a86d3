import Mathlib.Data.Finset.Card
import Superviseur.Api.Subscriptions
import Superviseur.Front.Mounted

/-!
# Every synoptic gets its values

A document is stored with its identifiers as they were written; the client subscribes to these texts
and keeps its listeners by them, while the server reads them and answers with the canonical form.
**A widget bound to a point in the canonical form is given every number the server sends for the
point**; and the server sends them if it has granted the slice of the texts where the identifier is,
as it does when there are at most 500 of them.

A widget bound to a point in another form is given nothing, and neither is a widget of a slice that
is refused; a value that is not a number stops at the decoder of the client.
-/

namespace Superviseur

/-- The message of a reading. -/
def Reading.message (reading : Reading) : ValueMessage :=
  ⟨UuidText.write reading.pointId, reading.ts, reading.value, reading.status.value⟩

/-- What the listeners are given of a reading. -/
def Reading.sample (reading : Reading) : LiveSample :=
  ⟨UuidText.write reading.pointId, reading.ts, reading.value, reading.status.value⟩

/-- The viewer of a synoptic, on a page that has just been loaded, once its socket is open. -/
def openViewer (doc : Document) : Viewer :=
  { mountViewer .new doc with client := (mountViewer .new doc).client.onopen }

/-- The server has subscribed the connection to a point. -/
def Realtime.Subscribed (s : Realtime) (u : Uuid) : Prop := u ∈ s.points ∧ u ∈ s.channels

variable {texts : Texts} {doc : Document} {w : WidgetDef} {u : Uuid} {reading : Reading}
  {batchRows : ℕ} {recorder : Recorder} {s : Realtime}

theorem sent_openViewer (doc : Document) : (openViewer doc).client.sent =
    slices subscribeChunk [] (mountViewer .new doc).client.listeners.keys :=
  (shows_mountViewer doc).1.waiting.sent_onopen

/-- The points that were asked for, as the server reads them. -/
def asked (doc : Document) : List (List Uuid) :=
  (openViewer doc).client.sent.map (List.filterMap UuidText.read)

theorem flatten_asked (doc : Document) : (asked doc).flatten =
    (mountViewer .new doc).client.listeners.keys.filterMap UuidText.read := by
  rw [asked, ← List.filterMap_flatten, sent_openViewer, flatten_slices, List.nil_append]

/-- The texts of an accepted document are all read, so that slices are refused for their length
alone. -/
theorem points_of_hasServed (haccepted : doc.Accepted texts)
    (h : s.HasServed batchRows recorder (openViewer doc).client.sent) :
    s.points = grant maxSubscriptions [] (asked doc) ∧ s.channels = s.points := by
  obtain ⟨hpoints, hchannels⟩ := h.points
  refine ⟨hpoints.trans (foldl_served fun slice hslice point hpoint ↦ ?_), hchannels⟩
  have hkey : point ∈ (mountViewer .new doc).client.listeners.keys := by
    have hflatten := List.mem_flatten.mpr ⟨slice, hslice, hpoint⟩
    rwa [sent_openViewer, flatten_slices, List.nil_append] at hflatten
  obtain ⟨w, hw, hbound⟩ := (shows_mountViewer doc).1.listeners point hkey
  exact read_boundPoints (haccepted.properties w hw) hbound

theorem pointText_write (hu : u < 2 ^ 128) :
    pointText (.str (UuidText.write u)) = some (UuidText.write u) := by
  have hne : UuidText.write u ≠ "" := by
    intro hempty
    have hread := UuidText.read_write hu
    have hnone : UuidText.read "" = none := rfl
    rw [hempty, hnone] at hread
    nomatch hread
  rw [pointText, if_neg hne]

/-- The texts of the widgets, each once, are those the client asks for, and maybe others. -/
theorem length_asked_le (doc : Document) : (asked doc).flatten.length ≤
    (doc.widgets.flatMap WidgetDef.boundPoints).toFinset.card := by
  have hshows := (shows_mountViewer doc).1
  rw [flatten_asked]
  refine (List.length_filterMap_le _ _).trans ?_
  rw [← List.toFinset_card_of_nodup hshows.waiting.nodup]
  refine Finset.card_le_card fun point hpoint ↦ ?_
  exact List.mem_toFinset.mpr (List.mem_flatMap.mpr
    (hshows.listeners point (List.mem_toFinset.mp hpoint)))

section

variable (hw : w ∈ doc.widgets) (htype : w.type ∈ pushed) (hu : u < 2 ^ 128)
  (hpoint : w.bind.get "point" = .str (UuidText.write u))

include hw htype hu hpoint

theorem mem_widgetsByPoint :
    w.id ∈ (mountViewer .new doc).widgetsByPoint.get (UuidText.write u) := by
  refine (shows_mountViewer doc).1.pushed w hw htype _ (List.mem_append_left _ ?_)
  rw [hpoint, pointText_write hu]
  exact List.mem_singleton_self _

theorem viewer_mem_listeners :
    .viewer ∈ (mountViewer .new doc).client.listeners.get (UuidText.write u) :=
  (shows_mountViewer doc).2 _ (Groups.mem_keys_of_mem_get (mem_widgetsByPoint hw htype hu hpoint))

theorem mem_asked : u ∈ (asked doc).flatten := by
  rw [flatten_asked]
  exact List.mem_filterMap.mpr ⟨UuidText.write u,
    Groups.mem_keys_of_mem_get (viewer_mem_listeners hw htype hu hpoint), UuidText.read_write hu⟩

/-- A widget receives the values of the point that its text denotes, where it is the canonical
one. -/
theorem mem_receive (hreading : reading.pointId = u)
    (hvalue : reading.value.all PyFloat.isFinite = true) :
    (w.id, reading.sample) ∈ (openViewer doc).receive reading.message := by
  subst hreading
  have hne : ¬ ((!reading.message.isJson) = true ∨ reading.message.point = "") := by
    rintro (hjson | hempty)
    · rw [ValueMessage.isJson, Reading.message, hvalue] at hjson
      nomatch hjson
    · have htext := pointText_write hu
      rw [show UuidText.write reading.pointId = "" from hempty] at htext
      nomatch htext
  refine List.mem_flatMap.mpr ⟨(.viewer, reading.sample), ?_, ?_⟩
  · rw [LiveClient.dispatch]
    simp only [Bool.or_eq_true, decide_eq_true_eq]
    rw [if_neg hne]
    exact List.mem_map.mpr ⟨.viewer, viewer_mem_listeners hw htype hu hpoint, rfl⟩
  · exact List.mem_map.mpr ⟨w.id, mem_widgetsByPoint hw htype hu hpoint, rfl⟩

end

/-- **Every synoptic gets its live values.** The server has subscribed the connection to the point
of a widget where it has granted the slice the point is in, as it has if the document has at most
500 texts; and the widget receives every number that is sent for the point. -/
theorem values_received (haccepted : doc.Accepted texts) (hw : w ∈ doc.widgets)
    (htype : w.type ∈ pushed) (hu : u < 2 ^ 128)
    (hpoint : w.bind.get "point" = .str (UuidText.write u))
    (hserved : s.HasServed batchRows recorder (openViewer doc).client.sent) :
    (s.Subscribed u ↔ u ∈ grant maxSubscriptions [] (asked doc)) ∧
      ((doc.widgets.flatMap WidgetDef.boundPoints).toFinset.card ≤ maxSubscriptions →
        s.Subscribed u) ∧
      ∀ reading : Reading, reading.pointId = u → reading.value.all PyFloat.isFinite = true →
        (w.id, reading.sample) ∈ (openViewer doc).receive reading.message := by
  obtain ⟨hpoints, hchannels⟩ := points_of_hasServed haccepted hserved
  have hiff : s.Subscribed u ↔ u ∈ grant maxSubscriptions [] (asked doc) := by
    rw [Realtime.Subscribed, hchannels, hpoints, and_self]
  refine ⟨hiff, fun hcount ↦ hiff.mpr ?_, fun reading hreading hvalue ↦
    mem_receive hw htype hu hpoint hreading hvalue⟩
  refine mem_grant_of_le ?_ (mem_asked hw htype hu hpoint)
  rw [List.length_nil, Nat.zero_add]
  exact (length_asked_le doc).trans hcount

/-! ## A synoptic of one widget -/

/-- Readers and writers for documents whose identifiers are all texts, which use none. -/
def noTexts : Texts where
  float _ := .error "could not convert string to float"
  int _ := .error "invalid literal for int() with base 10"
  uuid _ := .error "badly formed hexadecimal UUID string"
  ofUuid _ := ""
  repr _ := ""

/-- A widget that shows the value of a point. -/
def valueWidget (id : String) (bind : Dict) : WidgetDef := ⟨id, "value", bind, []⟩

/-- A synoptic of one widget. -/
def single (text : String) : Document := ⟨[valueWidget "w1" [("point", .str text)]], []⟩

theorem accepted_single {text : String} (h : UuidText.read text = some u) :
    (single text).Accepted texts where
  count := Nat.succ_le_succ (Nat.zero_le _)
  ids w hw := by
    rw [List.mem_singleton.mp hw]
    exact (rfl : isId "w1" = true)
  types w hw := by
    rw [List.mem_singleton.mp hw]
    exact List.mem_cons_self ..
  properties w hw := by
    rw [List.mem_singleton.mp hw]
    have hpoint : (valueWidget "w1" [("point", .str text)]).checkPoint texts = .ok () := by
      rw [WidgetDef.checkPoint_eq rfl, checkUuid, Json.toStr, h]
    rw [WidgetDef.properties, hpoint]
    rfl
  unique := List.nodup_singleton _
  linkCount := Nat.zero_le _
  targets _ hlink := nomatch hlink
  references _ hlink := nomatch hlink

/-- The collector, which wrote a reading before. -/
def wrote (reading : Reading) : Recorder := .start (fun _ ↦ none) fun id ↦
  if id = reading.pointId then some reading else none

/-- A synoptic of one widget gets its values. -/
theorem values_received_single : ∃ s, Realtime.HasServed 500 (wrote ⟨1, 0, some (.fin 20), .ok⟩)
      (openViewer (single (UuidText.write 1))).client.sent s ∧
    s.Subscribed 1 ∧ ("w1", (⟨1, 0, some (.fin 20), .ok⟩ : Reading).sample) ∈
      (openViewer (single (UuidText.write 1))).receive
        (⟨1, 0, some (.fin 20), .ok⟩ : Reading).message := by
  obtain ⟨s, hserved⟩ := Realtime.exists_hasServed 500 (wrote ⟨1, 0, some (.fin 20), .ok⟩)
    (openViewer (single (UuidText.write 1))).client.sent
  have hread : UuidText.read (UuidText.write 1) = some 1 := UuidText.read_write (by norm_num)
  obtain ⟨-, hsubscribed, hreceive⟩ := values_received
    (accepted_single hread : (single (UuidText.write 1)).Accepted noTexts)
    (List.mem_singleton_self _) (List.mem_cons_self ..) (by norm_num) rfl hserved
  have hcount : ((single (UuidText.write 1)).widgets.flatMap
      WidgetDef.boundPoints).toFinset.card ≤ 1 := List.toFinset_card_le _
  exact ⟨s, hserved, hsubscribed (hcount.trans (by norm_num [maxSubscriptions])),
    hreceive _ rfl rfl⟩

/-! ## Values that are lost -/

/-- A widget of an accepted synoptic, bound to a point, that is not given all its values. -/
def Lost (doc : Document) (w : WidgetDef) (u : Uuid) : Prop :=
  ((∀ texts, doc.Accepted texts) ∧ w ∈ doc.widgets ∧ w.type ∈ pushed ∧
    ∃ text, w.bind.get "point" = .str text ∧ UuidText.read text = some u) ∧
  ∃ batchRows recorder s, Realtime.HasServed batchRows recorder (openViewer doc).client.sent s ∧
    ¬ (s.Subscribed u ∧ ∀ reading ∈ s.sent, reading.pointId = u →
      (w.id, reading.sample) ∈ (openViewer doc).receive reading.message)

/-- The row of the point is sent to the widget, which does not receive it. -/
theorem lost_single {text : String} (hread : UuidText.read text = some reading.pointId)
    (hsent : (openViewer (single text)).client.sent = [[text]])
    (hreceive : (openViewer (single text)).receive reading.message = []) :
    Lost (single text) (valueWidget "w1" [("point", .str text)]) reading.pointId := by
  refine ⟨⟨fun _ ↦ accepted_single hread, List.mem_singleton_self _, List.mem_cons_self .., text,
    rfl, hread⟩, 500, wrote reading, ?_⟩
  have hnew : newPoints [] [text] = .ok [reading.pointId] := by
    rw [newPoints, List.mapM_cons, hread]
    rfl
  have hrow : (Realtime.accept (wrote reading)).row reading.pointId = some reading := by
    simp [Realtime.row, Realtime.accept, wrote, Recorder.start]
  have hrows : [reading.pointId].filterMap (Realtime.accept (wrote reading)).row = [reading] := by
    rw [List.filterMap_cons, hrow]
    rfl
  have hsubscribe : (Realtime.accept (wrote reading)).next 500 (.subscribe [text]) =
      some { Realtime.accept (wrote reading) with
        serving := .subscribing [reading.pointId]
        commands := [.subscribe [reading.pointId]] } := by
    simp only [Realtime.next, Realtime.accept, hnew, List.nil_append]
  have hexec : Trace.exec (Realtime.next 500) (Realtime.accept (wrote reading))
      [.subscribe [text], .redis, .resume, .read, .send 0, .served] =
        some { Realtime.accept (wrote reading) with
          points := [reading.pointId]
          channels := [reading.pointId]
          sent := [reading] } := by
    calc
      _ = Trace.exec (Realtime.next 500) { Realtime.accept (wrote reading) with
            points := [reading.pointId]
            channels := [reading.pointId]
            serving := .sending ([reading.pointId].filterMap
              (Realtime.accept (wrote reading)).row) } [.send 0, .served] := by
        rw [Trace.exec, hsubscribe]
        rfl
      _ = _ := by
        rw [hrows]
        rfl
  refine ⟨_, ⟨⟨_, .of_exec (fun _ _ _ ↦ trivial) hexec, hsent.symm, ?_⟩, rfl, rfl⟩, ?_⟩
  · intro rawIds hmem
    simp at hmem
  · rintro ⟨-, hall⟩
    have hmem := hall reading (List.mem_singleton_self _) rfl
    rw [hreceive] at hmem
    simp at hmem

/-- A widget bound to nine points, as many as one can be. -/
def crowdedWidget (i : ℕ) : WidgetDef :=
  valueWidget (String.ofList (List.replicate (i + 1) 'w'))
    [("point", .str (UuidText.write (9 * i))),
      ("points", .arr ((List.range 8).map fun j ↦ .str (UuidText.write (9 * i + (j + 1)))))]

/-- A synoptic of 504 points. -/
def crowded : Document := ⟨(List.range 56).map crowdedWidget, []⟩

theorem fits {u : ℕ} (h : u < 504) : u < 2 ^ 128 := h.trans (by norm_num)

theorem entryPoint_str (text : String) : entryPoint (.str text) = .str text := rfl

theorem boundPoints_crowdedWidget {i : ℕ} (hi : i < 56) : (crowdedWidget i).boundPoints =
    ((List.range 9).map (9 * i + ·)).map UuidText.write := by
  have htext : ∀ j < 9, pointText (.str (UuidText.write (9 * i + j))) =
      some (UuidText.write (9 * i + j)) := fun j hj ↦ pointText_write (fits (by omega))
  have hpoints : ((List.range 8).map fun j ↦ Json.str (UuidText.write (9 * i + (j + 1)))).filterMap
      (fun entry ↦ pointText (entryPoint entry)) =
        (List.range 8).map fun j ↦ UuidText.write (9 * i + (j + 1)) := by
    rw [List.filterMap_map, ← List.filterMap_eq_map]
    refine List.filterMap_congr fun j hj ↦ ?_
    have hj := List.mem_range.mp hj
    rw [Function.comp_apply, entryPoint_str, htext (j + 1) (by omega)]
    rfl
  have hbound : (crowdedWidget i).boundPoints =
      (pointText (.str (UuidText.write (9 * i + 0)))).toList ++
        ((List.range 8).map fun j ↦ Json.str (UuidText.write (9 * i + (j + 1)))).filterMap
          (fun entry ↦ pointText (entryPoint entry)) := rfl
  have hrange : List.range 9 = 0 :: (List.range 8).map Nat.succ := List.range_succ_eq_map
  rw [hbound, hpoints, htext 0 (by omega), hrange, List.map_cons, List.map_cons, List.map_map,
    List.map_map]
  rfl

theorem accepted_crowded : crowded.Accepted texts where
  count := by simp [crowded, maxWidgets]
  ids w hw := by
    obtain ⟨i, hi, rfl⟩ := List.mem_map.mp hw
    have hi := List.mem_range.mp hi
    -- no identifier ends with a line break
    have hlast : dropLineBreak (List.replicate (i + 1) 'w') = List.replicate (i + 1) 'w' := by
      rw [dropLineBreak, List.getLast?_replicate, if_neg]
      simp
    have hid : isId (String.ofList (List.replicate (i + 1) 'w')) = true := by
      simp only [isId, String.toList_ofList, hlast, List.length_replicate, List.all_replicate]
      simp [isLower]
      omega
    exact hid
  types w hw := by
    obtain ⟨i, -, rfl⟩ := List.mem_map.mp hw
    exact List.mem_cons_self ..
  properties w hw := by
    obtain ⟨i, hi, rfl⟩ := List.mem_map.mp hw
    have hi := List.mem_range.mp hi
    have hcheck : ∀ place, ∀ j < 9,
        checkUuid texts place (.str (UuidText.write (9 * i + j))) = .ok () := by
      intro place j hj
      rw [checkUuid, Json.toStr, UuidText.read_write (fits (by omega))]
    have hpoint : (crowdedWidget i).checkPoint texts = .ok () :=
      (WidgetDef.checkPoint_eq rfl).trans (hcheck _ 0 (by omega))
    have hpoints : (crowdedWidget i).checkPoints texts = .ok () := by
      refine WidgetDef.checkPoints_eq_ok rfl (List.forall_mem_map.mpr fun j hj ↦ ?_) (by simp)
      have hj := List.mem_range.mp hj
      rw [entryPoint_str]
      exact hcheck _ (j + 1) (by omega)
    rw [WidgetDef.properties, hpoint, hpoints]
    rfl
  unique := by
    have hids : crowded.widgets.map WidgetDef.id =
        (List.range 56).map fun i ↦ String.ofList (List.replicate (i + 1) 'w') := by
      rw [crowded, List.map_map]
      rfl
    rw [hids]
    refine List.Nodup.map_on (fun i _ j _ heq ↦ ?_) List.nodup_range
    have hlength := congrArg (fun id ↦ id.toList.length) heq
    simpa using hlength
  linkCount := Nat.zero_le _
  targets _ hlink := nomatch hlink
  references _ hlink := nomatch hlink

theorem asked_crowded : asked crowded = slices subscribeChunk [] (List.range 504) := by
  have hrange : ((List.range 56).flatMap fun i ↦ (List.range 9).map (9 * i + ·)) =
      List.range 504 := by decide +kernel
  have htexts : crowded.widgets.flatMap WidgetDef.boundPoints =
      (List.range 504).map UuidText.write := by
    rw [← hrange, List.map_flatMap, crowded, List.flatMap_map]
    refine List.flatMap_congr fun i hi ↦ ?_
    exact boundPoints_crowdedWidget (List.mem_range.mp hi)
  have hread : ∀ slice : List ℕ, (∀ u ∈ slice, u < 504) →
      (slice.map UuidText.write).filterMap UuidText.read = slice := by
    intro slice hslice
    rw [List.filterMap_map]
    refine (List.filterMap_congr fun u hu ↦ ?_).trans List.filterMap_some
    rw [Function.comp_apply, UuidText.read_write (fits (hslice u hu))]
  have hnodup : ((List.range 504).map UuidText.write).Nodup := by
    refine List.Nodup.map_on (fun u hu v hv heq ↦ ?_) List.nodup_range
    have hread := UuidText.read_write (fits (List.mem_range.mp hu))
    rw [heq, UuidText.read_write (fits (List.mem_range.mp hv))] at hread
    exact (Option.some.inj hread).symm
  rw [asked, sent_openViewer, keys_mountViewer, htexts]
  · have hslices := @slices_map _ _ subscribeChunk [] (List.range 504) UuidText.write
    rw [List.map_nil] at hslices
    rw [hslices, List.map_map]
    refine (List.map_congr_left fun slice hslice ↦ hread slice fun u hu ↦ ?_).trans (List.map_id _)
    have hmem := List.mem_flatten.mpr ⟨slice, hslice, hu⟩
    rw [flatten_slices, List.nil_append] at hmem
    exact List.mem_range.mp hmem
  · intro w hw
    obtain ⟨i, -, rfl⟩ := List.mem_map.mp hw
    exact List.mem_cons_self ..
  · rw [htexts]
    exact hnodup

theorem not_granted :
    405 ∉ grant maxSubscriptions [] (slices subscribeChunk [] (List.range 504)) := by
  have hrange : List.range 504 =
      List.range 200 ++ (List.range' 200 200 ++ List.range' 400 104) := by
    rw [List.range_eq_range', List.range_eq_range', List.range'_append_1, List.range'_append_1]
  have hslices : slices subscribeChunk [] (List.range 504) =
      [List.range 200, List.range' 200 200, List.range' 400 104] := by
    rw [hrange, slices_append (by simp) (by simp [subscribeChunk]), slices_append (by simp)
      (by simp [subscribeChunk]), slices_of_length_lt (by simp) (by simp [subscribeChunk])]
    rfl
  rw [hslices, grant_cons_of_new List.nodup_range (by simp), if_neg (by simp [maxSubscriptions]),
    grant_cons_of_new List.nodup_range' ?_, if_neg (by simp [maxSubscriptions]),
    grant_cons_of_new List.nodup_range' ?_, if_pos (by simp [maxSubscriptions]), grant]
  · simp
  · intro id hid
    rw [List.mem_range'_1] at hid
    simp only [List.nil_append, List.mem_append, List.mem_range, List.mem_range'_1]
    omega
  · intro id hid
    rw [List.mem_range'_1] at hid
    simp only [List.nil_append, List.mem_range]
    omega

theorem lost_crowded : Lost crowded (crowdedWidget 45) 405 := by
  obtain ⟨s, hserved⟩ := Realtime.exists_hasServed 500 (.start (fun _ ↦ none) fun _ ↦ none)
    (openViewer crowded).client.sent
  have hw : crowdedWidget 45 ∈ crowded.widgets :=
    List.mem_map.mpr ⟨45, List.mem_range.mpr (by omega), rfl⟩
  refine ⟨⟨fun _ ↦ accepted_crowded, hw, List.mem_cons_self ..,
    UuidText.write (9 * 45), rfl, UuidText.read_write (fits (by omega))⟩, 500, _, s, hserved, ?_⟩
  rintro ⟨⟨hpoint, -⟩, -⟩
  rw [(points_of_hasServed (accepted_crowded : crowded.Accepted noTexts) hserved).1,
    asked_crowded] at hpoint
  exact not_granted hpoint

/-- **Some synoptics do not get all their values**: a text that is not the canonical one, a synoptic
of too many points, a value that is not a number. -/
theorem values_lost :
    Lost (single "urn:uuid:00000000-0000-0000-0000-000000000001")
      (valueWidget "w1" [("point", .str "urn:uuid:00000000-0000-0000-0000-000000000001")]) 1 ∧
    Lost crowded (crowdedWidget 45) 405 ∧
    Lost (single "00000000-0000-0000-0000-000000000001")
      (valueWidget "w1" [("point", .str "00000000-0000-0000-0000-000000000001")]) 1 := by
  have h : UuidText.read "urn:uuid:00000000-0000-0000-0000-000000000001" = some 1 := by
    decide
  have h' : UuidText.read "00000000-0000-0000-0000-000000000001" = some 1 := by decide
  refine ⟨?_, lost_crowded, ?_⟩
  · refine @lost_single ⟨1, 0, some (.fin 20), .ok⟩ _ h ?_ ?_
    · decide
    · decide
  · refine @lost_single ⟨1, 0, some .nan, .ok⟩ _ h' ?_ ?_
    · decide
    · decide

end Superviseur
